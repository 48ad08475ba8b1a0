import ServerSettings.Proofs.RoundTrip
import ServerSettings.Proofs.Schema

/-!
# What the settings keep of a document

A shape leaves of a value what it declares. Members of a group come in the order of the declaration, those that an
object lacks are empty, and the names of maps and the items of lists stay as they come.

* `readGroup_projects`: a group that was read is written as its shape leaves the object, if every slot is written as it
  was read and the slots leave each other alone;
* `Retouched.alike`: undeclared members, members that are null, and the order of members do not count;
* `Settings.thaw_of_decode`: decoded settings have every mark off;
* `Settings.decode_projects`: so decoding and writing is the projection, and all that does not count changes nothing.
-/

namespace ServerSettings

namespace Shape

mutual

/-- What stands for a member that is absent. -/
def zero : Shape → Json
  | .text => .str ""
  | .flag => .bool false
  | .whole => .int 0
  | .group members => .obj (zeros members)
  | .map _ => .obj []
  | .list _ => .arr []

def zeros : List (String × Shape) → Dict Json
  | [] => []
  | (key, shape) :: rest => (key, zero shape) :: zeros rest

end

mutual

/-- What a shape leaves of a value. -/
def project : Shape → Json → Json
  | .group members, .obj entries => .obj (projectMembers members entries)
  | .map value, .obj entries => .obj (Dict.mapValues (project value) entries)
  | .list item, .arr items => .arr (items.map (project item))
  | _, v => v

def projectMembers : List (String × Shape) → Dict Json → Dict Json
  | [], _ => []
  | (key, shape) :: rest, entries =>
    (key, match declared? entries key with
      | some v => project shape v
      | none => zero shape) :: projectMembers rest entries

end

theorem projectMembers_eq (members : List (String × Shape)) (entries : Dict Json) :
    projectMembers members entries = members.map fun m => (m.1, (declared? entries m.1).elim m.2.zero m.2.project) := by
  induction members with
  | nil => rfl
  | cons member rest ih =>
    rw [projectMembers, ih, List.map_cons]
    cases declared? entries member.1 <;> rfl

end Shape

section Reading

variable {α γ ι : Type} {read : String → Json → Except Error α} {write : α → Json} {shape : Shape}

/-- What was read is written as the shape leaves the value. -/
def Projects (read : String → Json → Except Error α) (write : α → Json) (shape : Shape) : Prop :=
  ∀ path v a, read path v = .ok a → write a = shape.project v

theorem readText_projects : Projects readText .str .text := by
  intro path v s h
  cases v with
  | str t =>
    cases h
    rfl
  | _ => cases h

theorem readFlag_projects : Projects readFlag .bool .flag := by
  intro path v b h
  cases v with
  | bool c =>
    cases h
    rfl
  | _ => cases h

theorem readWhole_projects : Projects readWhole .int .whole := by
  intro path v n h
  cases v with
  | int m =>
    cases h
    rfl
  | _ => cases h

theorem readMap_projects (projects : Projects read write shape) :
    Projects (readMap read) (fun map => .obj (Dict.mapValues write map)) (.map shape) := by
  have entries (path : String) (members : Dict Json) (map : Dict α) (h : readEntries read path members = .ok map) :
      Dict.mapValues write map = Dict.mapValues shape.project members := by
    induction members generalizing map with
    | nil =>
      cases h
      rfl
    | cons entry rest ih =>
      obtain ⟨a, first, h⟩ := bind_ok h
      obtain ⟨more, later, h⟩ := bind_ok h
      cases h
      exact congrArg₂ List.cons (congrArg (Prod.mk entry.1) (projects _ _ _ first)) (ih more later)
  intro path v map h
  cases v with
  | obj members => exact congrArg Json.obj (entries path members map h)
  | _ => cases h

theorem readList_projects (projects : Projects read write shape) :
    Projects (readList read) (fun items => .arr (items.map write)) (.list shape) := by
  have each (path : String) (vs : List Json) (index : Nat) (items : List α)
      (h : readItems read path index vs = .ok items) : items.map write = vs.map shape.project := by
    induction vs generalizing index items with
    | nil =>
      cases h
      rfl
    | cons v rest ih =>
      obtain ⟨a, first, h⟩ := bind_ok h
      obtain ⟨more, later, h⟩ := bind_ok h
      cases h
      exact congrArg₂ List.cons (projects _ _ _ first) (ih (index + 1) more later)
  intro path v items h
  cases v with
  | arr vs => exact congrArg Json.arr (each path vs 0 items h)
  | _ => cases h

/-- Reading a slot sets what the slot writes, and what no other slot writes. -/
structure Slot.Projects (slot : ι → Slot γ) (shapes : ι → Shape) : Prop where
  own : ∀ i path v acc next, (slot i).read path v acc = .ok next → (slot i).write next = (shapes i).project v
  others : ∀ i j path v acc next, j ≠ i → (slot i).read path v acc = .ok next →
    (slot j).write next = (slot j).write acc

variable {index : List ι} {slot : ι → Slot γ} {shapes : ι → Shape}

/-- After the slots were read, each is written as the object has it, or as it was if the object has nothing. -/
theorem readSlots_projects (projects : Slot.Projects slot shapes) (once : index.Nodup) {path : String}
    {entries : Dict Json} {acc group : γ} (h : readSlots path entries (index.map slot) acc = .ok group) :
    (∀ i ∈ index, (slot i).write group =
      (declared? entries (slot i).key).elim ((slot i).write acc) (shapes i).project) ∧
    ∀ j, j ∉ index → (slot j).write group = (slot j).write acc := by
  induction index generalizing acc with
  | nil =>
    cases h
    exact ⟨fun i mem => absurd mem List.not_mem_nil, fun _ _ => rfl⟩
  | cons i rest ih =>
    obtain ⟨fresh, once⟩ := List.nodup_cons.mp once
    -- One slot makes `next` of the group, and the rest is read into that.
    have after (next : γ) (h : readSlots path entries (rest.map slot) next = .ok group)
        (first : (slot i).write next = (declared? entries (slot i).key).elim ((slot i).write acc) (shapes i).project)
        (same : ∀ j, j ≠ i → (slot j).write next = (slot j).write acc) :
        (∀ k ∈ i :: rest, (slot k).write group =
          (declared? entries (slot k).key).elim ((slot k).write acc) (shapes k).project) ∧
        ∀ j, j ∉ i :: rest → (slot j).write group = (slot j).write acc := by
      obtain ⟨inside, outside⟩ := ih once h
      constructor
      · intro k mem
        rcases List.mem_cons.mp mem with rfl | later
        · rw [outside k fresh, first]
        · have other : k ≠ i := fun eq => fresh (eq ▸ later)
          rw [inside k later, same k other]
      · intro j absent
        rw [List.mem_cons, not_or] at absent
        rw [outside j absent.2, same j absent.1]
    rw [List.map_cons, readSlots] at h
    split at h
    · next absent => exact after acc h (by rw [declared?, absent]; rfl) fun _ _ => rfl
    · next null => exact after acc h (by rw [declared?, null]; rfl) fun _ _ => rfl
    · next v given found =>
      obtain ⟨next, first, later⟩ := bind_ok h
      refine after next later ?_ fun j other => projects.others i j _ v acc next other first
      have known : declared? entries (slot i).key = some v := by
        rw [declared?, found]
        split
        · next null => exact absurd (Option.some.inj null) given
        · rfl
      rw [known]
      exact projects.own i _ v acc next first

/-- A group that was read is written as its shape leaves the object. -/
theorem readGroup_projects (projects : Slot.Projects slot shapes) (once : (index.map fun i => (slot i).key).Nodup)
    {empty : γ} (start : ∀ i ∈ index, (slot i).write empty = (shapes i).zero) :
    Projects (readGroup (index.map slot) empty) (writeGroup (index.map slot)) (groupShape index slot shapes) := by
  intro path v group h
  cases v with
  | obj entries =>
    obtain ⟨inside, -⟩ := readSlots_projects projects once.of_map h
    rw [writeGroup, groupShape, Shape.project, Shape.projectMembers_eq, List.map_map, List.map_map]
    refine congrArg Json.obj (List.map_congr_left fun i mem => ?_)
    exact congrArg (Prod.mk (slot i).key) ((inside i mem).trans (by rw [start i mem]))
  | _ => cases h

end Reading

section Retouched

/-- An object to which a member was added that is not declared or is null, or whose members were moved; or the same at a
place inside, where a member that is not declared may change as it likes; or what several such changes come to, made or
undone. -/
inductive Retouched : Shape → Json → Json → Prop
  | add {members : List (String × Shape)} {before after : Dict Json} {key : String} {v : Json}
      (idle : v = .null ∨ key ∉ members.map Prod.fst) (fresh : key ∉ Dict.keys (before ++ after)) :
      Retouched (.group members) (.obj (before ++ after)) (.obj (before ++ (key, v) :: after))
  | move {members : List (String × Shape)} {entries moved : Dict Json} (once : Dict.Distinct entries)
      (perm : entries.Perm moved) : Retouched (.group members) (.obj entries) (.obj moved)
  | member {members : List (String × Shape)} {before after : Dict Json} {key : String} {v w : Json}
      (inside : ∀ member ∈ members, member.1 = key → Retouched member.2 v w) :
      Retouched (.group members) (.obj (before ++ (key, v) :: after)) (.obj (before ++ (key, w) :: after))
  | entry {value : Shape} {before after : Dict Json} {key : String} {v w : Json} (inside : Retouched value v w) :
      Retouched (.map value) (.obj (before ++ (key, v) :: after)) (.obj (before ++ (key, w) :: after))
  | item {item : Shape} {before after : List Json} {v w : Json} (inside : Retouched item v w) :
      Retouched (.list item) (.arr (before ++ v :: after)) (.arr (before ++ w :: after))
  | symm {shape : Shape} {v w : Json} (made : Retouched shape v w) : Retouched shape w v
  | trans {shape : Shape} {u v w : Json} (first : Retouched shape u v) (second : Retouched shape v w) :
      Retouched shape u w

/-- Two values, neither of them null, of which a shape leaves the same. -/
structure Alike (shape : Shape) (v w : Json) : Prop where
  given : v ≠ .null ∧ w ≠ .null
  conforms : Conforms shape v ↔ Conforms shape w
  projected : shape.project v = shape.project w

theorem conforms_group_iff {members : List (String × Shape)} {entries : Dict Json} :
    Conforms (.group members) (.obj entries) ↔
      ∀ member ∈ members, ∀ v, declared? entries member.1 = some v → Conforms member.2 v := by
  constructor
  · rintro ⟨⟩
    assumption
  · exact .group

theorem conforms_map_iff {value : Shape} {entries : Dict Json} :
    Conforms (.map value) (.obj entries) ↔ ∀ entry ∈ entries, Conforms value entry.2 := by
  constructor
  · rintro ⟨⟩
    assumption
  · exact .map

theorem conforms_list_iff {item : Shape} {items : List Json} :
    Conforms (.list item) (.arr items) ↔ ∀ v ∈ items, Conforms item v := by
  constructor
  · rintro ⟨⟩
    assumption
  · exact .list

/-- Objects are alike if they give every member alike values, or nothing. -/
theorem Alike.of_declared {members : List (String × Shape)} {entries others : Dict Json}
    (each : ∀ member ∈ members, declared? entries member.1 = declared? others member.1 ∨
      ∃ v w, declared? entries member.1 = some v ∧ declared? others member.1 = some w ∧ Alike member.2 v w) :
    Alike (.group members) (.obj entries) (.obj others) where
  given := ⟨Json.noConfusion, Json.noConfusion⟩
  conforms := by
    rw [conforms_group_iff, conforms_group_iff]
    refine forall₂_congr fun member mem => ?_
    obtain same | ⟨v, w, first, second, alike⟩ := each member mem
    · rw [same]
    · simp [first, second, alike.conforms]
  projected := by
    rw [Shape.project, Shape.project, Shape.projectMembers_eq, Shape.projectMembers_eq]
    refine congrArg Json.obj (List.map_congr_left fun member mem => congrArg (Prod.mk member.1) ?_)
    obtain same | ⟨v, w, first, second, alike⟩ := each member mem
    · rw [same]
    · rw [first, second]
      exact alike.projected

theorem declared?_of_lookup {entries : Dict Json} {key : String} {v : Json} (given : v ≠ .null)
    (found : Dict.lookup entries key = some v) : declared? entries key = some v := by
  rw [declared?, found]
  split
  · next null => exact absurd (Option.some.inj null) given
  · rfl

/-- What does not count leaves alike values. -/
theorem Retouched.alike {shape : Shape} {v w : Json} (h : Retouched shape v w) : Alike shape v w := by
  induction h with
  | @add members before after key v idle fresh =>
    refine .of_declared fun member mem => .inl ?_
    by_cases same : key = member.1
    · have null : v = .null := idle.resolve_right fun undeclared => undeclared (same ▸ List.mem_map_of_mem mem)
      have absent := Dict.lookup_of_not_mem fresh
      rw [Dict.lookup_append, Option.or_eq_none_iff] at absent
      rw [← same, declared?, declared?, Dict.lookup_append, Dict.lookup_append, absent.1, absent.2, Dict.lookup,
        if_pos rfl, null]
      rfl
    · rw [declared?, declared?, Dict.lookup_append, Dict.lookup_append, Dict.lookup, if_neg same]
  | move once perm =>
    refine .of_declared fun member _ => .inl ?_
    rw [declared?, declared?, Dict.lookup_perm once perm]
  | @member members before after key v w inside ih =>
    refine .of_declared fun member mem => ?_
    by_cases same : key = member.1 ∧ Dict.lookup before key = none
    · obtain ⟨same, absent⟩ := same
      have alike := ih member mem same.symm
      have found (x : Json) : Dict.lookup (before ++ (key, x) :: after) member.1 = some x := by
        rw [← same, Dict.lookup_append, absent, Dict.lookup, if_pos rfl]
        rfl
      exact .inr ⟨v, w, declared?_of_lookup alike.given.1 (found v), declared?_of_lookup alike.given.2 (found w), alike⟩
    · refine .inl ?_
      rw [declared?, declared?, Dict.lookup_append, Dict.lookup_append, Dict.lookup, Dict.lookup]
      by_cases named : key = member.1
      · obtain ⟨x, found⟩ := Option.ne_none_iff_exists'.mp fun absent => same ⟨named, absent⟩
        rw [← named, found]
        rfl
      · rw [if_neg named, if_neg named]
  | @entry value before after key v w inside ih =>
    refine ⟨⟨Json.noConfusion, Json.noConfusion⟩, ?_, ?_⟩
    · simp only [conforms_map_iff, List.forall_mem_append, List.forall_mem_cons, ih.conforms]
    · simp only [Shape.project, Dict.mapValues, List.map_append, List.map_cons, ih.projected]
  | @item item before after v w inside ih =>
    refine ⟨⟨Json.noConfusion, Json.noConfusion⟩, ?_, ?_⟩
    · simp only [conforms_list_iff, List.forall_mem_append, List.forall_mem_cons, ih.conforms]
    · simp only [Shape.project, List.map_append, List.map_cons, ih.projected]
  | symm _ ih => exact ⟨ih.given.symm, ih.conforms.symm, ih.projected.symm⟩
  | trans _ _ first second =>
    exact ⟨⟨first.given.1, second.given.2⟩, first.conforms.trans second.conforms,
      first.projected.trans second.projected⟩

end Retouched

section Groups

theorem Database.projects : Projects Database.read Database.toJson shape := by
  have slots : Slot.Projects slotAt fun i => i.elim (.map .text) fun _ => .text := by
    constructor
    · rintro (_ | f) path v acc next h
      · obtain ⟨options, read, rfl⟩ := Slot.of_read h
        exact readMap_projects readText_projects path v options read
      · obtain ⟨s, read, rfl⟩ := Slot.of_read h
        exact (congrArg Json.str (replaceAt_self acc.text f s)).trans (readText_projects path v s read)
    · rintro (_ | f) (_ | other) path v acc next distinct h
      · exact absurd rfl distinct
      · obtain ⟨_, -, rfl⟩ := Slot.of_read h
        rfl
      · obtain ⟨_, -, rfl⟩ := Slot.of_read h
        rfl
      · obtain ⟨s, -, rfl⟩ := Slot.of_read h
        exact congrArg Json.str (replaceAt_of_ne acc.text s fun same => distinct (congrArg some same))
  refine readGroup_projects slots keys_once ?_
  rintro (_ | f) _ <;> rfl

theorem Mappings.projects : Projects Mappings.read Mappings.toJson shape := by
  have slots : Slot.Projects slotAt fun _ => .text := by
    constructor
    · intro f path v acc next h
      obtain ⟨s, read, rfl⟩ := Slot.of_read h
      exact (congrArg Json.str (replaceAt_self acc.text f s)).trans (readText_projects path v s read)
    · intro f other path v acc next distinct h
      obtain ⟨s, -, rfl⟩ := Slot.of_read h
      exact congrArg Json.str (replaceAt_of_ne acc.text s distinct)
  exact readGroup_projects slots keys_once fun _ _ => rfl

theorem Endpoint.projects : Projects Endpoint.read Endpoint.toJson shape := by
  have slots : Slot.Projects slotAt fun i => i.elim (.list .text) fun _ => .text := by
    constructor
    · rintro (_ | f) path v acc next h
      · obtain ⟨algorithms, read, rfl⟩ := Slot.of_read h
        exact readList_projects readText_projects path v algorithms read
      · obtain ⟨s, read, rfl⟩ := Slot.of_read h
        exact (congrArg Json.str (replaceAt_self acc.text f s)).trans (readText_projects path v s read)
    · rintro (_ | f) (_ | other) path v acc next distinct h
      · exact absurd rfl distinct
      · obtain ⟨_, -, rfl⟩ := Slot.of_read h
        rfl
      · obtain ⟨_, -, rfl⟩ := Slot.of_read h
        rfl
      · obtain ⟨s, -, rfl⟩ := Slot.of_read h
        exact congrArg Json.str (replaceAt_of_ne acc.text s fun same => distinct (congrArg some same))
  refine readGroup_projects slots keys_once ?_
  rintro (_ | f) _ <;> rfl

theorem Provider.projects : Projects Provider.read Provider.toJson shape := by
  have slots : Slot.Projects slot Member.shape := by
    constructor
    · rintro (f | _ | _) path v acc next h
      · obtain ⟨s, read, rfl⟩ := Slot.of_read h
        exact (congrArg Json.str (replaceAt_self acc.text f s)).trans (readText_projects path v s read)
      · obtain ⟨scopes, read, rfl⟩ := Slot.of_read h
        exact readList_projects readText_projects path v scopes read
      · obtain ⟨endpoint, read, rfl⟩ := Slot.of_read h
        exact Endpoint.projects path v endpoint read
    · intro m other path v acc next distinct h
      cases m with
      | text f =>
        obtain ⟨s, -, rfl⟩ := Slot.of_read h
        cases other with
        | text g =>
          have apart : g ≠ f := fun same => distinct (congrArg Member.text same)
          exact congrArg Json.str (replaceAt_of_ne acc.text s apart)
        | _ => rfl
      | scopes =>
        obtain ⟨scopes, -, rfl⟩ := Slot.of_read h
        cases other with
        | scopes => exact absurd rfl distinct
        | _ => rfl
      | endpoint =>
        obtain ⟨endpoint, -, rfl⟩ := Slot.of_read h
        cases other with
        | endpoint => exact absurd rfl distinct
        | _ => rfl
  refine readGroup_projects slots keys_once ?_
  rintro (f | _ | _) _ <;> rfl

namespace Settings

/-- A member that was read is written as its shape leaves the value. -/
theorem write_of_read {m : Member} {path : String} {v : Json} {s t : Settings}
    (h : (slot m).read path v s = .ok t) : (slot m).write t = m.shape.project v := by
  cases m with
  | database d =>
    obtain ⟨db, read, rfl⟩ := Slot.of_read h
    exact (congrArg Database.toJson (replaceAt_self s.database d db)).trans (Database.projects path v db read)
  | text f =>
    obtain ⟨text, read, rfl⟩ := Slot.of_read h
    exact (congrArg Json.str (replaceAt_self s.text f text)).trans (readText_projects path v text read)
  | flag f =>
    obtain ⟨b, read, rfl⟩ := Slot.of_read h
    exact (congrArg Json.bool (replaceAt_self s.flag f b)).trans (readFlag_projects path v b read)
  | mappings =>
    obtain ⟨x, read, rfl⟩ := Slot.of_read h
    exact Mappings.projects path v x read
  | providers =>
    obtain ⟨ps, read, rfl⟩ := Slot.of_read h
    exact readMap_projects Provider.projects path v ps read
  | maxParallelTasks =>
    obtain ⟨n, read, rfl⟩ := Slot.of_read h
    exact readWhole_projects path v n read

/-- Reading a member changes no other. -/
theorem write_of_read_of_ne {m other : Member} {path : String} {v : Json} {s t : Settings} (distinct : other ≠ m)
    (h : (slot m).read path v s = .ok t) : (slot other).write t = (slot other).write s := by
  cases m with
  | database d =>
    obtain ⟨db, -, rfl⟩ := Slot.of_read h
    cases other with
    | database e =>
      have apart : e ≠ d := fun same => distinct (congrArg Member.database same)
      exact congrArg Database.toJson (replaceAt_of_ne s.database db apart)
    | _ => rfl
  | text f =>
    obtain ⟨text, -, rfl⟩ := Slot.of_read h
    cases other with
    | text g =>
      have apart : g ≠ f := fun same => distinct (congrArg Member.text same)
      exact congrArg Json.str (replaceAt_of_ne s.text text apart)
    | _ => rfl
  | flag f =>
    obtain ⟨b, -, rfl⟩ := Slot.of_read h
    cases other with
    | flag g =>
      have apart : g ≠ f := fun same => distinct (congrArg Member.flag same)
      exact congrArg Json.bool (replaceAt_of_ne s.flag b apart)
    | _ => rfl
  | mappings =>
    obtain ⟨x, -, rfl⟩ := Slot.of_read h
    cases other with
    | mappings => exact absurd rfl distinct
    | _ => rfl
  | providers =>
    obtain ⟨ps, -, rfl⟩ := Slot.of_read h
    cases other with
    | providers => exact absurd rfl distinct
    | _ => rfl
  | maxParallelTasks =>
    obtain ⟨n, -, rfl⟩ := Slot.of_read h
    cases other with
    | maxParallelTasks => exact absurd rfl distinct
    | _ => rfl

theorem projects : Projects read toJson shape := by
  have slots : Slot.Projects slot Member.shape :=
    ⟨fun _ _ _ _ _ => write_of_read, fun _ _ _ _ _ _ => write_of_read_of_ne⟩
  refine readGroup_projects slots keys_once ?_
  rintro (d | f | f | _ | _ | _) _ <;> rfl

end Settings

end Groups

section Open

theorem Endpoint.thaw_of_read {path : String} {v : Json} {e : Endpoint} (h : read path v = .ok e) : e.thaw = e := by
  refine readGroup_invariant (fun e => e.thaw = e) (fun _ => True) (fun _ _ _ _ => trivial) ?_ rfl h
  intro slot mem path v acc next _ same first
  have mark : acc.frozen = false := congrArg Endpoint.frozen same.symm
  rw [slots_eq] at mem
  obtain ⟨_ | f, _, rfl⟩ := List.mem_map.mp mem
  · obtain ⟨_, _, rfl⟩ := Slot.of_read first
    exact Endpoint.ext rfl rfl mark.symm
  · obtain ⟨_, _, rfl⟩ := Slot.of_read first
    exact Endpoint.ext rfl rfl mark.symm

theorem Provider.thaw_of_read {path : String} {v : Json} {p : Provider} (h : read path v = .ok p) : p.thaw = p := by
  refine readGroup_invariant (fun p => p.thaw = p) (fun _ => True) (fun _ _ _ _ => trivial) ?_ rfl h
  intro slot mem path v acc next _ same first
  have mark : acc.frozen = false := congrArg Provider.frozen same.symm
  have endpoint : acc.endpoint.thaw = acc.endpoint := congrArg Provider.endpoint same
  obtain ⟨f | _ | _, _, rfl⟩ := List.mem_map.mp mem
  · obtain ⟨_, _, rfl⟩ := Slot.of_read first
    exact Provider.ext rfl rfl endpoint mark.symm
  · obtain ⟨_, _, rfl⟩ := Slot.of_read first
    exact Provider.ext rfl rfl endpoint mark.symm
  · obtain ⟨e, read, rfl⟩ := Slot.of_read first
    exact Provider.ext rfl rfl (Endpoint.thaw_of_read read) mark.symm

theorem mapValues_of_readMap {α : Type} {read : String → Json → Except Error α} {change : α → α}
    (fixed : ∀ path v a, read path v = .ok a → change a = a) {path : String} {v : Json} {map : Dict α}
    (h : readMap read path v = .ok map) : Dict.mapValues change map = map := by
  cases v with
  | obj members =>
    rw [readMap] at h
    induction members generalizing map with
    | nil =>
      cases h
      rfl
    | cons entry rest ih =>
      obtain ⟨a, first, h⟩ := bind_ok h
      obtain ⟨more, later, h⟩ := bind_ok h
      cases h
      exact congrArg₂ List.cons (congrArg (Prod.mk entry.1) (fixed _ _ _ first)) (ih later)
  | _ => cases h

namespace Settings

/-- Decoded settings have every mark off. -/
theorem thaw_of_decode {payload : Json} {s : Settings} (h : decode payload = .ok s) : s.thaw = s := by
  have isOpen := open_of_decode h
  have providers : Dict.mapValues Provider.thaw s.providers = s.providers := by
    refine decode_invariant (fun s => Dict.mapValues Provider.thaw s.providers = s.providers) (fun _ => True)
      (fun _ _ _ _ => trivial) rfl ?_ h
    intro path v s t _ same filled
    cases filled with
    | providers ps read => exact mapValues_of_readMap (fun _ _ _ => Provider.thaw_of_read) read
    | _ => exact same
  apply Settings.ext
  · funext d
    exact Database.ext rfl rfl (isOpen (.database d .hostname)).symm
  · rfl
  · rfl
  · exact Mappings.ext rfl (isOpen (.mapping .dn)).symm
  · exact providers
  · rfl
  · exact (isOpen (.text .port)).symm

end Settings

end Open

namespace Settings

theorem toJson_of_decode {document : Json} {s : Settings} (h : decode document = .ok s) :
    s.toJson = shape.project document := by
  cases document with
  | obj entries => exact projects "" (.obj entries) s h
  | _ => cases h

/-- Documents of which the same is left are decoded to the same settings. -/
theorem decode_alike {document other : Json} {s : Settings} (h : decode document = .ok s)
    (alike : Alike shape document other) : decode other = .ok s := by
  have conforms : Conforms shape other := alike.conforms.mp ((decode_judged document).1.mp ⟨s, h⟩)
  obtain ⟨t, decoded⟩ := (decode_judged other).1.mpr conforms
  have same : s.toJson = t.toJson := by
    rw [toJson_of_decode h, toJson_of_decode decoded, alike.projected]
  have back : decode s.toJson = .ok t := by
    rw [same, decode_toJson, thaw_of_decode decoded]
  rw [decode_toJson, thaw_of_decode h] at back
  rw [decoded, Except.ok.inj back]

/-- Decoding and writing leaves of a document what its shape has. Members that are not declared or null, and the order
of members, change nothing of the settings, and neither does writing them and decoding that. -/
theorem decode_projects {document : Json} {s : Settings} (h : decode document = .ok s) :
    s.toJson = shape.project document ∧
    (∀ other, Retouched shape document other → decode other = .ok s) ∧
    decode s.toJson = .ok s := by
  refine ⟨toJson_of_decode h, fun other retouched => decode_alike h retouched.alike, ?_⟩
  rw [decode_toJson, thaw_of_decode h]

/-- A document with other members at its end, and in the endpoint of its provider. -/
def looseDocument (last inner : Dict Json) : Json :=
  .obj ([("oidc_providers", .obj [("p", .obj [("display_name", .null),
    ("endpoint", .obj (("issuer", .str "i") :: inner))])]), ("port", .str ":80")] ++ last)

theorem looseDocument_retouched (extra v : Json) :
    Retouched shape (looseDocument [] []) (looseDocument [("comment", v)] [("region", extra)]) := by
  have endpoint : Retouched Endpoint.shape (.obj [("issuer", .str "i")])
      (.obj [("issuer", .str "i"), ("region", extra)]) := by
    refine @Retouched.add _ [("issuer", .str "i")] [] "region" extra (.inr ?_) (by decide)
    decide +kernel
  have provider : Retouched Provider.shape (.obj [("display_name", .null), ("endpoint", .obj [("issuer", .str "i")])])
      (.obj [("display_name", .null), ("endpoint", .obj [("issuer", .str "i"), ("region", extra)])]) := by
    refine @Retouched.member _ [("display_name", .null)] [] "endpoint" _ _ ?_
    intro member mem named
    obtain ⟨m, listed, rfl⟩ := List.mem_map.mp mem
    have own : Provider.Member.endpoint ∈ Provider.Member.all := by decide
    rw [List.inj_on_of_nodup_map Provider.keys_once listed own named]
    exact endpoint
  have inside : Retouched shape (looseDocument [] []) (looseDocument [] [("region", extra)]) := by
    refine @Retouched.member _ [] [("port", .str ":80")] "oidc_providers" _ _ ?_
    intro member mem named
    obtain ⟨m, listed, rfl⟩ := List.mem_map.mp mem
    have named : (slot m).key = (slot .providers).key := by cases m <;> exact named
    rw [List.inj_on_of_nodup_map keys_once listed (Member.mem_all .providers) named]
    exact @Retouched.entry _ [] [] "p" _ _ provider
  refine inside.trans (@Retouched.add _ _ [] "comment" v (.inr ?_) ?_)
  · decide +kernel
  · simp [Dict.keys]

/-- A document with a null member comes to the same settings with members that are not declared. -/
theorem decode_projects_loose : ∃ s, decode (looseDocument [] []) = .ok s ∧
    s.toJson = shape.project (looseDocument [] []) ∧
    decode (looseDocument [("comment", .arr [])] [("region", .str "eu")]) = .ok s ∧ decode s.toJson = .ok s := by
  have decoded := (rfl : decode (looseDocument [] []) = .ok _)
  obtain ⟨projected, same, again⟩ := decode_projects decoded
  exact ⟨_, decoded, projected, same _ (looseDocument_retouched _ _), again⟩

end Settings

end ServerSettings
