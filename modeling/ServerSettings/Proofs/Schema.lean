import ServerSettings.Proofs.Decoding

/-!
# Which documents are settings, and what is wrong with the others

A `Shape` says what may stand at a place of a document. Reading goes through the places that are declared, in the
order of `Shape.visits`, and fails at the first whose value is of another type.

* `Shape.conforms_iff`: a value conforms to a shape exactly if every place visited fits;
* `readGroup_obeys`: a group whose slots obey their shapes obeys the shape made of them;
* `Shape.visits_outline`: the places visited, with what they want and the types found there, depend on the outline of
  a document only;
* `Settings.decode_judged`: documents that conform are decoded, the others fail of the first misfit.
-/

namespace ServerSettings

/-- What a place of a document may hold. The members of a group are declared, the names of a map are not. -/
inductive Shape where
  | text
  | flag
  | whole
  | group (members : List (String × Shape))
  | map (value : Shape)
  | list (item : Shape)

/-- What an object gives a declared member; null counts as nothing. -/
def declared? (entries : Dict Json) (key : String) : Option Json :=
  match Dict.lookup entries key with
  | some .null => none
  | found => found

/-- A value has the shape, with everything declared inside it. Declared members may be missing, and others are passed
over; what stands in a map or a list may not be null. -/
inductive Conforms : Shape → Json → Prop
  | text (s : String) : Conforms .text (.str s)
  | flag (b : Bool) : Conforms .flag (.bool b)
  | whole (n : Int) : Conforms .whole (.int n)
  | group {members : List (String × Shape)} {entries : Dict Json}
      (parts : ∀ member ∈ members, ∀ v, declared? entries member.1 = some v → Conforms member.2 v) :
      Conforms (.group members) (.obj entries)
  | map {value : Shape} {entries : Dict Json} (parts : ∀ entry ∈ entries, Conforms value entry.2) :
      Conforms (.map value) (.obj entries)
  | list {item : Shape} {items : List Json} (parts : ∀ v ∈ items, Conforms item v) : Conforms (.list item) (.arr items)

/-- A place of a document, with what is wanted there and what was found. -/
structure Visit where
  path : String
  want : Want
  found : Json

/-- Is a value of the wanted type? Truth values and numbers with a fraction are no integers. -/
def Want.admits : Want → Json → Bool
  | .string, .str _ => true
  | .integer, .int _ => true
  | .boolean, .bool _ => true
  | .object, .obj _ => true
  | .array, .arr _ => true
  | _, _ => false

def Visit.fits (x : Visit) : Bool := x.want.admits x.found

namespace Shape

def want : Shape → Want
  | .text => .string
  | .flag => .boolean
  | .whole => .integer
  | .group _ | .map _ => .object
  | .list _ => .array

mutual

/-- The places of a value, itself first: then the members of a group as they are declared, the entries of a map in
their order, and the items of a list by index, each with everything inside it. -/
def visits : Shape → (path : String) → Json → List Visit
  | .group members, path, .obj entries => ⟨path, .object, .obj entries⟩ :: memberVisits members path entries
  | .map value, path, .obj entries =>
    ⟨path, .object, .obj entries⟩ :: entries.flatMap fun entry => visits value (joinPath path entry.1) entry.2
  | .list item, path, .arr items =>
    ⟨path, .array, .arr items⟩ ::
      items.zipIdx.flatMap fun entry => visits item (path ++ "[" ++ toString entry.2 ++ "]") entry.1
  | shape, path, v => [⟨path, shape.want, v⟩]

def memberVisits : List (String × Shape) → (path : String) → Dict Json → List Visit
  | [], _, _ => []
  | (key, shape) :: rest, path, entries =>
    (match declared? entries key with
      | some v => visits shape (joinPath path key) v
      | none => []) ++ memberVisits rest path entries

end

/-- What holds of a group if it holds of its members' shapes, and so on, holds of every shape. -/
@[elab_as_elim]
theorem induction {P : Shape → Prop} (text : P .text) (flag : P .flag) (whole : P .whole)
    (group : ∀ members : List (String × Shape), (∀ member ∈ members, P member.2) → P (.group members))
    (map : ∀ value, P value → P (.map value)) (list : ∀ item, P item → P (.list item)) (shape : Shape) : P shape :=
  @Shape.rec P (fun members => ∀ member ∈ members, P member.2) (fun member => P member.2) text flag whole
    group map list (fun _ mem => absurd mem List.not_mem_nil)
    (fun _ _ first later => List.forall_mem_cons.mpr ⟨first, later⟩) (fun _ _ holds => holds) shape

/-- Of a group only the members that an object gives are visited. -/
theorem memberVisits_eq (members : List (String × Shape)) (path : String) (entries : Dict Json) :
    memberVisits members path entries = members.flatMap fun member =>
      (declared? entries member.1).elim [] (member.2.visits (joinPath path member.1)) := by
  induction members with
  | nil => rfl
  | cons member rest ih =>
    rw [memberVisits, ih, List.flatMap_cons]
    cases declared? entries member.1 <;> rfl

theorem mem_memberVisits {members : List (String × Shape)} {path : String} {entries : Dict Json} {x : Visit} :
    x ∈ memberVisits members path entries ↔
      ∃ member ∈ members, ∃ v, declared? entries member.1 = some v ∧ x ∈ member.2.visits (joinPath path member.1) v := by
  rw [memberVisits_eq, List.mem_flatMap]
  refine exists_congr fun member => and_congr_right fun _ => ?_
  cases declared? entries member.1 <;> simp

/-- The first place visited is that of the value itself. -/
theorem visits_head (shape : Shape) (path : String) (v : Json) :
    ∃ inner, shape.visits path v = ⟨path, shape.want, v⟩ :: inner := by
  cases shape <;> cases v <;> exact ⟨_, rfl⟩

theorem admits_of_conforms {shape : Shape} {v : Json} (h : Conforms shape v) : shape.want.admits v = true := by
  cases h <;> rfl

/-- A value of another type neither conforms nor fits. -/
theorem conforms_iff_of_misfit {shape : Shape} {v : Json} (wrong : shape.want.admits v = false) (path : String) :
    Conforms shape v ↔ ∀ x ∈ shape.visits path v, x.fits = true := by
  constructor
  · intro h
    rw [admits_of_conforms h] at wrong
    cases wrong
  · intro fit
    obtain ⟨inner, first⟩ := visits_head shape path v
    have right := fit ⟨path, shape.want, v⟩ (by rw [first]; exact List.mem_cons_self)
    rw [Visit.fits, wrong] at right
    cases right

/-- A value conforms to a shape exactly if every place visited fits. -/
theorem conforms_iff (shape : Shape) (path : String) (v : Json) :
    Conforms shape v ↔ ∀ x ∈ shape.visits path v, x.fits = true := by
  induction shape using Shape.induction generalizing path v with
  | text =>
    cases v with
    | str s => simp [visits, Visit.fits, want, Want.admits, Conforms.text]
    | _ => exact conforms_iff_of_misfit rfl path
  | flag =>
    cases v with
    | bool b => simp [visits, Visit.fits, want, Want.admits, Conforms.flag]
    | _ => exact conforms_iff_of_misfit rfl path
  | whole =>
    cases v with
    | int n => simp [visits, Visit.fits, want, Want.admits, Conforms.whole]
    | _ => exact conforms_iff_of_misfit rfl path
  | group members ih =>
    cases v with
    | obj entries =>
      rw [visits, List.forall_mem_cons]
      constructor
      · intro h
        cases h with
        | group parts =>
          refine ⟨rfl, fun x mem => ?_⟩
          obtain ⟨member, listed, v, given, inside⟩ := mem_memberVisits.mp mem
          exact (ih member listed _ v).mp (parts member listed v given) x inside
      · rintro ⟨-, fit⟩
        refine .group fun member listed v given => (ih member listed (joinPath path member.1) v).mpr fun x inside => ?_
        exact fit x (mem_memberVisits.mpr ⟨member, listed, v, given, inside⟩)
    | _ => exact conforms_iff_of_misfit rfl path
  | map value ih =>
    cases v with
    | obj entries =>
      rw [visits, List.forall_mem_cons]
      constructor
      · intro h
        cases h with
        | map parts =>
          refine ⟨rfl, fun x mem => ?_⟩
          obtain ⟨entry, listed, inside⟩ := List.mem_flatMap.mp mem
          exact (ih _ entry.2).mp (parts entry listed) x inside
      · rintro ⟨-, fit⟩
        refine .map fun entry listed => (ih (joinPath path entry.1) entry.2).mpr fun x inside => ?_
        exact fit x (List.mem_flatMap.mpr ⟨entry, listed, inside⟩)
    | _ => exact conforms_iff_of_misfit rfl path
  | list item ih =>
    cases v with
    | arr items =>
      rw [visits, List.forall_mem_cons]
      constructor
      · intro h
        cases h with
        | list parts =>
          refine ⟨rfl, fun x mem => ?_⟩
          obtain ⟨⟨v, index⟩, listed, inside⟩ := List.mem_flatMap.mp mem
          exact (ih _ v).mp (parts v (List.fst_mem_of_mem_zipIdx listed)) x inside
      · rintro ⟨-, fit⟩
        refine .list fun v listed => ?_
        obtain ⟨index, at_index⟩ := List.mem_iff_getElem?.mp listed
        have listed : (v, index) ∈ items.zipIdx := List.mem_zipIdx_iff_getElem?.mpr at_index
        refine (ih (path ++ "[" ++ toString index ++ "]") v).mpr fun x inside => ?_
        exact fit x (List.mem_flatMap.mpr ⟨(v, index), listed, inside⟩)
    | _ => exact conforms_iff_of_misfit rfl path

end Shape

/-- How a value fails at a place: the types that were wanted and found are told, but not the value. -/
def Visit.fault (x : Visit) : Error :=
  .coercion x.path (.mismatch x.want x.found.kind)

/-- What the places visited come to: the first that does not fit is told. -/
def judge (visits : List Visit) : Except Error Unit :=
  match visits.find? fun x => !x.fits with
  | none => .ok ()
  | some x => .error x.fault

/-- A result without its value. -/
def ending {α : Type} (result : Except Error α) : Except Error Unit :=
  result.map fun _ => ()

theorem judge_cons_of_fits {x : Visit} (fit : x.fits = true) (xs : List Visit) : judge (x :: xs) = judge xs := by
  rw [judge, List.find?_cons_of_neg (by simp [fit])]
  rfl

theorem judge_append (xs ys : List Visit) : judge (xs ++ ys) = (judge xs).bind fun _ => judge ys := by
  rw [judge, judge, List.find?_append]
  cases xs.find? fun x => !x.fits <;> rfl

theorem judge_ok {xs : List Visit} : judge xs = .ok () ↔ ∀ x ∈ xs, x.fits = true := by
  unfold judge
  cases found : xs.find? fun x => !x.fits with
  | none => simpa using found
  | some x =>
    have mem := List.mem_of_find?_eq_some found
    have misfit : x.fits = false := by simpa using List.find?_some found
    constructor
    · intro h
      cases h
    · intro fit
      rw [fit x mem] at misfit
      cases misfit

theorem judge_error {xs : List Visit} {e : Error} : judge xs = .error e ↔
    ∃ before x after, xs = before ++ x :: after ∧ (∀ y ∈ before, y.fits = true) ∧ x.fits = false ∧ x.fault = e := by
  unfold judge
  cases found : xs.find? fun x => !x.fits with
  | none =>
    constructor
    · intro h
      cases h
    · rintro ⟨before, x, after, rfl, -, misfit, -⟩
      have fit : x.fits = true := by simpa using List.find?_eq_none.mp found x (by simp)
      rw [fit] at misfit
      cases misfit
  | some x =>
    obtain ⟨misfit, before, after, rfl, fit⟩ := List.find?_eq_some_iff_append.mp found
    constructor
    · intro h
      cases h
      exact ⟨before, x, after, rfl, by simpa using fit, by simpa using misfit, rfl⟩
    · rintro ⟨before', x', after', same, fit', misfit', rfl⟩
      have other : (before ++ x :: after).find? (fun x => !x.fits) = some x' :=
        List.find?_eq_some_iff_append.mpr ⟨by simpa using misfit', before', after', same, by simpa using fit'⟩
      rw [found] at other
      cases other
      rfl

section Reading

variable {α γ ι : Type} {read : String → Json → Except Error α} {shape : Shape}

/-- Reading ends as the places of the shape are judged. -/
def Obeys (read : String → Json → Except Error α) (shape : Shape) : Prop :=
  ∀ path v, ending (read path v) = judge (shape.visits path v)

theorem readText_obeys : Obeys readText .text := by
  intro path v
  cases v <;> rfl

theorem readFlag_obeys : Obeys readFlag .flag := by
  intro path v
  cases v <;> rfl

theorem readWhole_obeys : Obeys readWhole .whole := by
  intro path v
  cases v <;> rfl

theorem ending_bind {β δ : Type} (x : Except Error α) (y : Except Error β) (f : α → β → δ) :
    ending (do let a ← x; let b ← y; return f a b) = (ending x).bind fun _ => ending y := by
  cases x with
  | error e => rfl
  | ok a => cases y <;> rfl

theorem readMap_obeys (obeys : Obeys read shape) : Obeys (readMap read) (.map shape) := by
  intro path v
  cases v with
  | obj entries =>
    rw [Shape.visits, judge_cons_of_fits rfl, readMap]
    induction entries with
    | nil => rfl
    | cons entry rest ih =>
      rw [readEntries, ending_bind, List.flatMap_cons, judge_append, obeys, ih]
  | _ => rfl

theorem readList_obeys (obeys : Obeys read shape) : Obeys (readList read) (.list shape) := by
  have items (path : String) (items : List Json) (index : Nat) : ending (readItems read path index items) =
      judge ((items.zipIdx index).flatMap fun entry =>
        shape.visits (path ++ "[" ++ toString entry.2 ++ "]") entry.1) := by
    induction items generalizing index with
    | nil => rfl
    | cons v rest ih =>
      rw [readItems, ending_bind, List.zipIdx_cons, List.flatMap_cons, judge_append, obeys, ih]
  intro path v
  cases v with
  | arr vs =>
    rw [Shape.visits, judge_cons_of_fits rfl, readList]
    exact items path vs 0
  | _ => rfl

/-- A slot whose value is read as the shape has it. -/
def Slot.Obeys (slot : Slot γ) (shape : Shape) : Prop :=
  ∀ path v acc, ending (slot.read path v acc) = judge (shape.visits path v)

theorem Slot.of_obeys {key : String} {put : α → γ → γ} {write : γ → Json} (obeys : ServerSettings.Obeys read shape) :
    (Slot.of key read put write).Obeys shape := by
  intro path v acc
  rw [← obeys]
  show ending ((read path v).map _) = _
  cases read path v <;> rfl

variable {index : List ι} {slot : ι → Slot γ} {shapes : ι → Shape}

/-- The shape of a group whose slots have the shapes. -/
def groupShape (index : List ι) (slot : ι → Slot γ) (shapes : ι → Shape) : Shape :=
  .group (index.map fun i => ((slot i).key, shapes i))

theorem readSlots_obeys (obey : ∀ i ∈ index, (slot i).Obeys (shapes i)) (path : String) (entries : Dict Json) (acc : γ) :
    ending (readSlots path entries (index.map slot) acc) =
      judge (Shape.memberVisits (index.map fun i => ((slot i).key, shapes i)) path entries) := by
  induction index generalizing acc with
  | nil => rfl
  | cons i rest ih =>
    have later := ih fun j mem => obey j (List.mem_cons_of_mem i mem)
    have obeys := obey i List.mem_cons_self
    rw [List.map_cons, List.map_cons, readSlots, Shape.memberVisits, judge_append, declared?]
    cases Dict.lookup entries (slot i).key with
    | none => exact later acc
    | some v =>
      have given :
          ending (do let next ← (slot i).read (joinPath path (slot i).key) v acc
                     readSlots path entries (rest.map slot) next) =
            (judge ((shapes i).visits (joinPath path (slot i).key) v)).bind fun _ =>
              judge (Shape.memberVisits (rest.map fun i => ((slot i).key, shapes i)) path entries) := by
        rw [← obeys]
        cases (slot i).read (joinPath path (slot i).key) v acc with
        | error e => rfl
        | ok next => exact later next
      cases v with
      | null => exact later acc
      | _ => exact given

/-- A group whose slots obey their shapes obeys the shape made of them. -/
theorem readGroup_obeys (obey : ∀ i ∈ index, (slot i).Obeys (shapes i)) (empty : γ) :
    Obeys (readGroup (index.map slot) empty) (groupShape index slot shapes) := by
  intro path v
  cases v with
  | obj entries =>
    rw [groupShape, Shape.visits, judge_cons_of_fits rfl, readGroup]
    exact readSlots_obeys obey path entries empty
  | _ => rfl

end Reading

section Groups

def Database.shape : Shape :=
  .group (DatabaseField.all.map (fun f => (f.key, .text)) ++ [("options", .map .text)])

def Mappings.shape : Shape :=
  .group (MappingField.all.map fun f => (f.key, .text))

def Endpoint.shape : Shape :=
  .group (EndpointField.all.map (fun f => (f.key, .text)) ++ [("algorithms", .list .text)])

def Provider.Member.shape : Provider.Member → Shape
  | .text _ => .text
  | .scopes => .list .text
  | .endpoint => Endpoint.shape

def Provider.shape : Shape :=
  .group (Member.all.map fun m => ((slot m).key, m.shape))

def Settings.Member.shape : Settings.Member → Shape
  | .database _ => Database.shape
  | .text _ => .text
  | .flag _ => .flag
  | .mappings => Mappings.shape
  | .providers => .map Provider.shape
  | .maxParallelTasks => .whole

/-- What a document of settings declares. -/
def Settings.shape : Shape :=
  .group (Member.all.map fun m => (m.key, m.shape))

theorem Database.read_obeys : Obeys Database.read shape := by
  have obey : ∀ i ∈ places, (slotAt i).Obeys (i.elim (.map .text) fun _ => .text) := by
    rintro (_ | f) _
    · exact Slot.of_obeys (readMap_obeys readText_obeys)
    · exact Slot.of_obeys readText_obeys
  exact readGroup_obeys obey {}

theorem Mappings.read_obeys : Obeys Mappings.read shape := by
  have obey : ∀ f ∈ MappingField.all, (slotAt f).Obeys .text := fun _ _ => Slot.of_obeys readText_obeys
  exact readGroup_obeys obey {}

theorem Endpoint.read_obeys : Obeys Endpoint.read shape := by
  have obey : ∀ i ∈ places, (slotAt i).Obeys (i.elim (.list .text) fun _ => .text) := by
    rintro (_ | f) _
    · exact Slot.of_obeys (readList_obeys readText_obeys)
    · exact Slot.of_obeys readText_obeys
  exact readGroup_obeys obey {}

theorem Provider.read_obeys : Obeys Provider.read shape := by
  have obey : ∀ m ∈ Member.all, (slot m).Obeys m.shape := by
    rintro (f | _ | _) _
    · exact Slot.of_obeys readText_obeys
    · exact Slot.of_obeys (readList_obeys readText_obeys)
    · exact Slot.of_obeys Endpoint.read_obeys
  exact readGroup_obeys obey {}

theorem Settings.read_obeys : Obeys Settings.read shape := by
  have obey : ∀ m ∈ Member.all, (slot m).Obeys m.shape := by
    rintro (d | f | f | _ | _ | _) _
    · exact Slot.of_obeys Database.read_obeys
    · exact Slot.of_obeys readText_obeys
    · exact Slot.of_obeys readFlag_obeys
    · exact Slot.of_obeys Mappings.read_obeys
    · exact Slot.of_obeys (readMap_obeys Provider.read_obeys)
    · exact Slot.of_obeys readWhole_obeys
  exact readGroup_obeys obey {}

end Groups

section Outline

namespace Json

mutual

/-- The keys and the types of a value, with the same content everywhere. -/
def outline : Json → Json
  | .null => .null
  | .bool _ => .bool false
  | .int _ => .int 0
  | .float _ => .float .zero
  | .str _ => .str ""
  | .arr items => .arr (outlineItems items)
  | .obj members => .obj (outlineMembers members)

def outlineItems : List Json → List Json
  | [] => []
  | v :: rest => outline v :: outlineItems rest

def outlineMembers : List (String × Json) → List (String × Json)
  | [] => []
  | (key, v) :: rest => (key, outline v) :: outlineMembers rest

end

theorem outlineItems_eq (items : List Json) : outlineItems items = items.map outline := by
  induction items with
  | nil => rfl
  | cons v rest ih => rw [outlineItems, ih, List.map_cons]

theorem outlineMembers_eq (members : Dict Json) : outlineMembers members = Dict.mapValues outline members := by
  induction members with
  | nil => rfl
  | cons entry rest ih => rw [outlineMembers, ih]; rfl

theorem kind_outline (v : Json) : v.outline.kind = v.kind := by
  cases v <;> rfl

end Json

/-- The place with nothing but the type of what was found there. -/
def Visit.outline (x : Visit) : Visit :=
  { x with found := x.found.outline }

theorem Visit.fits_outline (x : Visit) : x.outline.fits = x.fits := by
  obtain ⟨path, want, found⟩ := x
  cases want <;> cases found <;> rfl

theorem Visit.fault_outline (x : Visit) : x.outline.fault = x.fault := by
  rw [fault, fault, Visit.outline, Json.kind_outline]

theorem judge_outline (xs : List Visit) : judge (xs.map Visit.outline) = judge xs := by
  have fits : (fun x : Visit => !x.fits) ∘ Visit.outline = fun x => !x.fits := by
    funext x
    rw [Function.comp_apply, x.fits_outline]
  rw [judge, judge, List.find?_map, fits]
  cases xs.find? fun x => !x.fits with
  | none => rfl
  | some x => exact congrArg Except.error x.fault_outline

theorem declared?_outline (entries : Dict Json) (key : String) :
    declared? (Json.outlineMembers entries) key = (declared? entries key).map Json.outline := by
  rw [declared?, declared?, Json.outlineMembers_eq, Dict.mapValues, Dict.lookup_map fun _ => Json.outline]
  cases Dict.lookup entries key with
  | none => rfl
  | some v => cases v <;> rfl

/-- The places visited, with the types found there, depend on the outline of a document only. -/
theorem Shape.visits_outline (shape : Shape) (path : String) (v : Json) :
    shape.visits path v.outline = (shape.visits path v).map Visit.outline := by
  induction shape using Shape.induction generalizing path v with
  | text => cases v <;> rfl
  | flag => cases v <;> rfl
  | whole => cases v <;> rfl
  | group members ih =>
    cases v with
    | obj entries =>
      rw [Json.outline, visits, visits, List.map_cons]
      refine congrArg₂ List.cons rfl ?_
      rw [memberVisits_eq, memberVisits_eq, List.map_flatMap]
      refine List.flatMap_congr fun member listed => ?_
      rw [declared?_outline]
      cases declared? entries member.1 with
      | none => rfl
      | some v => exact ih member listed _ v
    | _ => rfl
  | map value ih =>
    cases v with
    | obj entries =>
      rw [Json.outline, visits, visits, List.map_cons]
      refine congrArg₂ List.cons rfl ?_
      rw [Json.outlineMembers_eq, Dict.mapValues, List.flatMap_map, List.map_flatMap]
      exact List.flatMap_congr fun entry _ => ih _ entry.2
    | _ => rfl
  | list item ih =>
    cases v with
    | arr items =>
      rw [Json.outline, visits, visits, List.map_cons]
      refine congrArg₂ List.cons rfl ?_
      rw [Json.outlineItems_eq, List.zipIdx_map, List.flatMap_map, List.map_flatMap]
      exact List.flatMap_congr fun entry _ => ih _ entry.1
    | _ => rfl

end Outline

namespace Settings

/-- The places of a document of settings. The document itself has a path of its own in messages only. -/
def visits (document : Json) : List Visit :=
  match document with
  | .obj entries =>
    ⟨"<root>", .object, .obj entries⟩ :: Shape.memberVisits (Member.all.map fun m => (m.key, m.shape)) "" entries
  | v => [⟨"<root>", .object, v⟩]

theorem decode_obeys (document : Json) : ending (decode document) = judge (visits document) := by
  cases document with
  | obj entries =>
    rw [visits, judge_cons_of_fits rfl, decode, read_obeys, shape, Shape.visits, judge_cons_of_fits rfl]
  | _ => rfl

theorem visits_outline (document : Json) : visits document.outline = (visits document).map Visit.outline := by
  cases document with
  | obj entries =>
    have inner := shape.visits_outline "" (.obj entries)
    rw [Json.outline, shape, Shape.visits, Shape.visits, List.map_cons] at inner
    rw [Json.outline, visits, visits, List.map_cons, (List.cons.inj inner).2]
    rfl
  | _ => rfl

/-- The same for a document of settings. -/
theorem conforms_iff (document : Json) : Conforms shape document ↔ ∀ x ∈ visits document, x.fits = true := by
  rw [shape.conforms_iff ""]
  cases document with
  | obj entries =>
    rw [visits, shape, Shape.visits, List.forall_mem_cons, List.forall_mem_cons]
    exact and_congr_left' (Iff.refl _)
  | _ => simp [visits, shape, Shape.visits, Shape.want, Visit.fits]

/-- Documents that conform are decoded. Others fail of the first misfit of all the places visited: its path is told,
and the types that were wanted and found, which depend on the outline of the document only. -/
theorem decode_judged (document : Json) :
    ((∃ s, decode document = .ok s) ↔ Conforms shape document) ∧
    (∀ e, decode document = .error e ↔
      ∃ before x after, visits document = before ++ x :: after ∧ (∀ y ∈ before, y.fits = true) ∧ x.fits = false ∧
        e = .coercion x.path (.mismatch x.want x.found.kind)) ∧
    ∀ other : Json, other.outline = document.outline → ending (decode other) = ending (decode document) := by
  refine ⟨?_, fun e => ?_, fun other same => ?_⟩
  · rw [conforms_iff, ← judge_ok, ← decode_obeys]
    cases decode document <;> simp [ending, Except.map]
  · have told : decode document = .error e ↔ ending (decode document) = .error e := by
      cases decode document <;> simp [ending, Except.map]
    rw [told, decode_obeys, judge_error]
    simp only [eq_comm (a := e)]
    rfl
  · have outlined (v : Json) : ending (decode v) = judge (visits v.outline) := by
      rw [visits_outline, judge_outline, decode_obeys]
    rw [outlined, outlined, same]

/-- Nothing may stand for a declared member, but not for an entry of a map. -/
example : judge (visits (.obj [("mysql", .obj [("host", .null), ("options", .obj [("ssl", .null)])])])) =
    .error (.coercion "mysql.options.ssl" (.mismatch .string .null)) := by rfl

end Settings

end ServerSettings
