import Mathlib.Data.List.Induction
import ServerSettings.Proofs.Acceptance
import ServerSettings.Proofs.Splitting

/-!
# Which paths lead to a leaf, and what is told of the others

The tables of paths are judged by what the fields of settings really hold, walked name by name.

* `Attribute.follow`: where names lead from a record on;
* `place?_eq`: the tables tell what stands there, for any settings;
* `PathReason.Holds`: what each reason tells of a path;
* `diagnose_of_holds`, `exists_holds`: of a path that leads to no leaf one reason holds, an empty name apart;
* `ofPath_judged`: so a path leads to a leaf, or the reason that holds is given.
-/

namespace ServerSettings

/-- What stands in settings where some names lead. -/
inductive Attribute where
  | settings (s : Settings)
  | database (db : Database)
  | mappings (m : Mappings)
  | options (options : Dict String)
  | providers (providers : Dict Provider)
  | scalar (kind : Kind) (content : kind.Content)

def Settings.Member.attribute (s : Settings) : Settings.Member → Attribute
  | .database d => .database (s.database d)
  | .text f => .scalar .text (s.text f)
  | .flag f => .scalar .flag (s.flag f)
  | .mappings => .mappings s.mappings
  | .providers => .providers s.providers
  | .maxParallelTasks => .scalar .whole s.maxParallelTasks

namespace Attribute

def place : Attribute → Leaf.Place
  | .settings _ | .database _ | .mappings _ => .group
  | .options _ | .providers _ => .collection
  | .scalar _ _ => .leaf

/-- The field of a group by its name. -/
def field? : Attribute → String → Option Attribute
  | .settings s, name => (Settings.Member.all.find? (·.name = name)).map (·.attribute s)
  | .database db, name =>
    if name = "options" then some (.options db.options)
    else (DatabaseField.all.find? (·.name = name)).map fun f => .scalar .text (db.text f)
  | .mappings m, name => (MappingField.all.find? (·.name = name)).map fun f => .scalar .text (m.text f)
  | _, _ => none

/-- Where names lead, one after the other. -/
def follow (a : Attribute) : List String → Option Attribute
  | [] => some a
  | name :: rest => (a.field? name).bind (·.follow rest)

theorem follow_append (a : Attribute) (front rest : List String) :
    a.follow (front ++ rest) = (a.follow front).bind (·.follow rest) := by
  induction front generalizing a with
  | nil => rfl
  | cons name front ih =>
    simp only [List.cons_append, follow, Option.bind_assoc]
    exact Option.bind_congr fun b _ => ih b

/-- Only groups have fields. -/
theorem place_of_field? {a b : Attribute} {name : String} (h : a.field? name = some b) : a.place = .group := by
  cases a with
  | settings | database | mappings => rfl
  | options | providers | scalar => cases h

/-- Nothing is found below what has no fields. -/
theorem follow_of_bare {a b : Attribute} {names : List String} (bare : ∀ name, a.field? name = none)
    (h : a.follow names = some b) : names = [] ∧ b = a := by
  cases names with
  | nil => exact ⟨rfl, (Option.some.inj h).symm⟩
  | cons name rest =>
    rw [follow, bare] at h
    cases h

theorem member_of_field? {s : Settings} {name : String} {a : Attribute} (h : (settings s).field? name = some a) :
    ∃ m : Settings.Member, m.name = name ∧ a = m.attribute s := by
  obtain ⟨m, found, rfl⟩ := Option.map_eq_some_iff.mp h
  exact ⟨m, by simpa using List.find?_some found, rfl⟩

theorem database_of_field? {db : Database} {name : String} {a : Attribute} (h : (database db).field? name = some a) :
    name = "options" ∧ a = .options db.options ∨
      ∃ f : DatabaseField, f.name = name ∧ a = .scalar .text (db.text f) := by
  simp only [field?] at h
  split at h
  · next same => exact .inl ⟨same, (Option.some.inj h).symm⟩
  · obtain ⟨f, found, rfl⟩ := Option.map_eq_some_iff.mp h
    exact .inr ⟨f, by simpa using List.find?_some found, rfl⟩

theorem mapping_of_field? {m : Mappings} {name : String} {a : Attribute} (h : (mappings m).field? name = some a) :
    ∃ f : MappingField, f.name = name ∧ a = .scalar .text (m.text f) := by
  obtain ⟨f, found, rfl⟩ := Option.map_eq_some_iff.mp h
  exact ⟨f, by simpa using List.find?_some found, rfl⟩

end Attribute

/-- What stands in settings where names lead. -/
def Settings.leads (s : Settings) (names : List String) : Option Leaf.Place :=
  ((Attribute.settings s).follow names).map (·.place)

/-- What a reason tells of a path, by what stands in some settings. -/
def PathReason.Holds (s : Settings) (path : String) : PathReason → Prop
  | .emptySegment => path = "" ∨ "" ∈ Leaf.splitPath path
  | .group => s.leads (Leaf.splitPath path) = some .group
  | .collection => s.leads (Leaf.splitPath path) = some .collection
  | .notGroup stem => ∃ front rest, Leaf.splitPath path = front ++ rest ∧ rest ≠ [] ∧ stem = Leaf.joinSegments front ∧
      (s.leads front = some .leaf ∨ s.leads front = some .collection)
  | .noField name => ∃ front rest, Leaf.splitPath path = front ++ name :: rest ∧
      (∀ shorter, shorter <+: front → s.leads shorter = some .group) ∧ s.leads (front ++ [name]) = none
  | .unresolvable | .stated _ => False

namespace Settings

variable {s : Settings} {front rest names : List String} {p : Leaf.Place}

/-- Names lead through groups only. -/
theorem leads_group_of_append (leads : s.leads (front ++ rest) = some p) (more : rest ≠ []) :
    s.leads front = some .group := by
  obtain ⟨name, rest, rfl⟩ := List.exists_cons_of_ne_nil more
  obtain ⟨a, followed, -⟩ := Option.map_eq_some_iff.mp leads
  rw [Attribute.follow_append] at followed
  obtain ⟨b, before, after⟩ := Option.bind_eq_some_iff.mp followed
  obtain ⟨c, field, -⟩ := Option.bind_eq_some_iff.mp after
  rw [Settings.leads, before, Option.map_some, Attribute.place_of_field? field]

theorem leads_group_of_prefix (within : front <+: names) (leads : s.leads names = some .group) :
    s.leads front = some .group := by
  obtain ⟨rest, rfl⟩ := within
  by_cases more : rest = []
  · rwa [more, List.append_nil] at leads
  · exact leads_group_of_append leads more

/-- Names lead through groups as far as they can. -/
theorem leads_split (s : Settings) (names : List String) : ∃ front rest, names = front ++ rest ∧
    s.leads front = some .group ∧ ∀ name ∈ rest.head?, s.leads (front ++ [name]) ≠ some .group := by
  -- From the end, as one name more changes what is walked through only if all names before it lead to a group.
  induction names using List.reverseRecOn with
  | nil => exact ⟨[], [], rfl, rfl, nofun⟩
  | append_singleton names last ih =>
    obtain ⟨front, rest, rfl, group, ends⟩ := ih
    by_cases through : s.leads (front ++ rest ++ [last]) = some .group
    · exact ⟨front ++ rest ++ [last], [], (List.append_nil _).symm, through, nofun⟩
    · refine ⟨front, rest ++ [last], List.append_assoc .., group, fun name mem => ?_⟩
      cases rest with
      | nil =>
        obtain rfl : last = name := by simpa using mem
        simpa using through
      | cons next more => exact ends name mem

end Settings

namespace Leaf

theorem follow_segments (s : Settings) (l : Leaf) :
    (Attribute.settings s).follow l.segments = some (.scalar l.kind (l.read s)) := by
  cases l with
  | database d f => cases d <;> cases f <;> rfl
  | mapping f => cases f <;> rfl
  | text f => cases f <;> rfl
  | flag f => cases f <;> rfl
  | maxParallelTasks => rfl

theorem leads_segments (s : Settings) (l : Leaf) : s.leads l.segments = some .leaf :=
  congrArg (Option.map Attribute.place) (follow_segments s l)

/-- What the tables hold stands in any settings. -/
theorem leads_of_place? {names : List String} {p : Place} (h : place? names = some p) (s : Settings) :
    s.leads names = some p := by
  unfold place? at h
  split at h
  · next group =>
    cases h
    rcases List.mem_append.mp group with database | mappings
    · obtain ⟨d, -, rfl⟩ := List.mem_map.mp database
      cases d <;> rfl
    · obtain rfl := List.mem_singleton.mp mappings
      rfl
  · split at h
    · next collection =>
      cases h
      rcases List.mem_append.mp collection with options | providers
      · obtain ⟨d, -, rfl⟩ := List.mem_map.mp options
        cases d <;> rfl
      · obtain rfl := List.mem_singleton.mp providers
        rfl
    · split at h
      · next leaf =>
        cases h
        obtain ⟨l, -, rfl⟩ := List.mem_map.mp leaf
        exact leads_segments s l
      · cases h

theorem place?_segments (l : Leaf) : place? l.segments = some .leaf := by
  have all_leaves : ∀ l ∈ all, place? l.segments = some .leaf := by decide +kernel
  exact all_leaves l l.mem_all

theorem place?_database (d : Dialect) :
    place? [d.name] = some .group ∧ place? [d.name, "options"] = some .collection := by
  cases d <;> decide

/-- What stands in settings is in the tables. -/
theorem place?_of_leads {s : Settings} {name : String} {rest : List String} {p : Place}
    (h : s.leads (name :: rest) = some p) : place? (name :: rest) = some p := by
  have group : place? [Settings.Member.mappings.name] = some .group := by decide
  have collection : place? [Settings.Member.providers.name] = some .collection := by decide
  obtain ⟨a, followed, rfl⟩ := Option.map_eq_some_iff.mp h
  obtain ⟨b, field, below⟩ := Option.bind_eq_some_iff.mp followed
  obtain ⟨m, rfl, rfl⟩ := Attribute.member_of_field? field
  cases m with
  | text f =>
    obtain ⟨rfl, rfl⟩ := Attribute.follow_of_bare (fun _ => rfl) below
    exact place?_segments (.text f)
  | flag f =>
    obtain ⟨rfl, rfl⟩ := Attribute.follow_of_bare (fun _ => rfl) below
    exact place?_segments (.flag f)
  | maxParallelTasks =>
    obtain ⟨rfl, rfl⟩ := Attribute.follow_of_bare (fun _ => rfl) below
    exact place?_segments .maxParallelTasks
  | providers =>
    obtain ⟨rfl, rfl⟩ := Attribute.follow_of_bare (fun _ => rfl) below
    exact collection
  | database d =>
    cases rest with
    | nil =>
      cases below
      exact (place?_database d).1
    | cons next more =>
      obtain ⟨c, inner, deeper⟩ := Option.bind_eq_some_iff.mp below
      rcases Attribute.database_of_field? inner with ⟨rfl, rfl⟩ | ⟨f, rfl, rfl⟩
      · obtain ⟨rfl, rfl⟩ := Attribute.follow_of_bare (fun _ => rfl) deeper
        exact (place?_database d).2
      · obtain ⟨rfl, rfl⟩ := Attribute.follow_of_bare (fun _ => rfl) deeper
        exact place?_segments (.database d f)
  | mappings =>
    cases rest with
    | nil =>
      cases below
      exact group
    | cons next more =>
      obtain ⟨c, inner, deeper⟩ := Option.bind_eq_some_iff.mp below
      obtain ⟨f, rfl, rfl⟩ := Attribute.mapping_of_field? inner
      obtain ⟨rfl, rfl⟩ := Attribute.follow_of_bare (fun _ => rfl) deeper
      exact place?_segments (.mapping f)

theorem place?_eq (s : Settings) (name : String) (rest : List String) :
    place? (name :: rest) = s.leads (name :: rest) := by
  cases table : place? (name :: rest) with
  | some p => exact (leads_of_place? table s).symm
  | none =>
    cases record : s.leads (name :: rest) with
    | none => rfl
    | some p =>
      rw [place?_of_leads record] at table
      cases table

theorem segments_of_leads {s : Settings} {names : List String} (h : s.leads names = some .leaf) :
    ∃ l : Leaf, l.segments = names := by
  cases names with
  | nil => cases h
  | cons name rest =>
    have table := place?_of_leads h
    unfold place? at table
    split at table
    · cases table
    · split at table
      · cases table
      · split at table
        · next mem =>
          obtain ⟨l, -, same⟩ := List.mem_map.mp mem
          exact ⟨l, same⟩
        · cases table

theorem joinSegments_splitPath (path : String) : joinSegments (splitPath path) = path := by
  apply String.toList_inj.mp
  rw [joinSegments, splitPath, String.toList_intercalate, List.map_map]
  simpa using Text.intercalate_split '.' path.toList

theorem splitPath_ne_nil (path : String) : splitPath path ≠ [] :=
  fun h => Text.split_ne_nil '.' path.toList (List.map_eq_nil_iff.mp h)

theorem not_leads_of_ofPath? {path : String} (h : ofPath? path = none) (s : Settings) :
    s.leads (splitPath path) ≠ some .leaf := by
  intro leads
  obtain ⟨l, same⟩ := segments_of_leads leads
  have here : l.path = path := by rw [Leaf.path, same, joinSegments_splitPath]
  have other := List.find?_eq_none.mp h l l.mem_all
  exact other (by simpa using here)

/-- What is told of names behind a group. -/
theorem diagnose_cons (s : Settings) (walked : List String) (name : String) (rest : List String) :
    diagnose walked (name :: rest) =
      match s.leads (walked ++ [name]) with
      | some .group => if rest.isEmpty then .group else diagnose (walked ++ [name]) rest
      | some _ => if rest.isEmpty then .collection else .notGroup (joinSegments (walked ++ [name]))
      | none => .noField name := by
  have table : place? (walked ++ [name]) = s.leads (walked ++ [name]) := by
    obtain ⟨first, more, stem⟩ : ∃ first more, walked ++ [name] = first :: more :=
      List.exists_cons_of_ne_nil (by simp)
    rw [stem, place?_eq s]
  cases leads : s.leads (walked ++ [name]) with
  | none => simp only [diagnose, table, leads]
  | some p => cases p <;> simp only [diagnose, table, leads]

/-- Groups are walked through. -/
theorem diagnose_through {s : Settings} {walked front rest : List String}
    (group : s.leads (walked ++ front) = some .group) (more : rest ≠ []) :
    diagnose walked (front ++ rest) = diagnose (walked ++ front) rest := by
  induction front generalizing walked with
  | nil => rw [List.append_nil, List.nil_append]
  | cons name front ih =>
    have stem : walked ++ name :: front = walked ++ [name] ++ front := by simp
    rw [stem] at group
    have here : s.leads (walked ++ [name]) = some .group :=
      Settings.leads_group_of_prefix (List.prefix_append _ _) group
    have goes_on : (front ++ rest).isEmpty = false := by simp [more]
    rw [List.cons_append, diagnose_cons s, here, stem, ← ih group]
    simp only [goes_on, Bool.false_eq_true, if_false]

/-- Of a path a single reason holds, but for empty names. -/
theorem diagnose_of_holds {s : Settings} {path : String} {reason : PathReason} (holds : reason.Holds s path)
    (full : reason ≠ .emptySegment) : diagnose [] (splitPath path) = reason := by
  have last_name {p : Place} (leads : s.leads (splitPath path) = some p) : ∃ front name,
      diagnose [] (splitPath path) = diagnose front [name] ∧ s.leads (front ++ [name]) = some p := by
    obtain ⟨front, name, split⟩ := (List.eq_nil_or_concat (splitPath path)).resolve_left (splitPath_ne_nil path)
    rw [List.concat_eq_append] at split
    rw [split] at leads ⊢
    refine ⟨front, name, ?_, leads⟩
    exact diagnose_through (Settings.leads_group_of_append leads (by simp)) (by simp)
  -- Whatever a reason tells of, the names before it lead to a group, so that the walk comes to it.
  cases reason with
  | emptySegment => exact absurd rfl full
  | group =>
    obtain ⟨front, name, told, leads⟩ := last_name holds
    rw [told, diagnose_cons s, leads]
    rfl
  | collection =>
    obtain ⟨front, name, told, leads⟩ := last_name holds
    rw [told, diagnose_cons s, leads]
    rfl
  | notGroup stem =>
    obtain ⟨front, rest, split, more, rfl, bare⟩ := holds
    obtain rfl | ⟨above, name, above_eq⟩ := List.eq_nil_or_concat front
    · rcases bare with leaf | collection
      · cases leaf
      · cases collection
    · rw [List.concat_eq_append] at above_eq
      subst above_eq
      have goes_on : rest.isEmpty = false := by simp [more]
      have group : s.leads above = some .group := by
        rcases bare with leaf | collection
        · exact Settings.leads_group_of_append leaf (by simp)
        · exact Settings.leads_group_of_append collection (by simp)
      have through : diagnose [] (above ++ name :: rest) = diagnose above (name :: rest) :=
        diagnose_through group nofun
      rw [split, List.append_assoc, List.singleton_append, through, diagnose_cons s]
      rcases bare with leaf | collection
      · rw [leaf]
        simp only [goes_on, Bool.false_eq_true, if_false]
      · rw [collection]
        simp only [goes_on, Bool.false_eq_true, if_false]
  | noField name =>
    obtain ⟨front, rest, split, groups, nothing⟩ := holds
    have through : diagnose [] (front ++ name :: rest) = diagnose front (name :: rest) :=
      diagnose_through (groups front (List.prefix_refl front)) nofun
    rw [split, through, diagnose_cons s, nothing]
  | unresolvable | stated => cases holds

/-- And one does hold of a path that leads to no leaf. -/
theorem exists_holds {s : Settings} {path : String} (other : s.leads (splitPath path) ≠ some .leaf) :
    ∃ reason : PathReason, reason.Holds s path ∧ reason ≠ .emptySegment := by
  obtain ⟨front, rest, split, group, ends⟩ := s.leads_split (splitPath path)
  cases rest with
  | nil =>
    rw [List.append_nil] at split
    exact ⟨.group, by rw [PathReason.Holds, split, group], nofun⟩
  | cons name more =>
    have stem : front ++ name :: more = front ++ [name] ++ more := by simp
    cases leads : s.leads (front ++ [name]) with
    | none =>
      have groups : ∀ shorter, shorter <+: front → s.leads shorter = some .group :=
        fun _ within => Settings.leads_group_of_prefix within group
      exact ⟨.noField name, ⟨front, more, split, groups, leads⟩, nofun⟩
    | some p =>
      by_cases last : more = []
      · rw [last] at split
        cases p with
        | group => exact absurd leads (ends name rfl)
        | collection => exact ⟨.collection, by rw [PathReason.Holds, split, leads], nofun⟩
        | leaf => exact absurd (split ▸ leads) other
      · refine ⟨.notGroup (joinSegments (front ++ [name])), ⟨_, more, split.trans stem, last, rfl, ?_⟩, nofun⟩
        cases p with
        | group => exact absurd leads (ends name rfl)
        | collection => exact .inr leads
        | leaf => exact .inl leads

/-- The reason that is given holds. An empty name is told before anything else, and else nothing else holds. -/
theorem reason_of_refused {path : String} {e : Error} (h : ofPath path = .error e) (s : Settings) :
    ∃ reason : PathReason, e = .address path reason ∧ reason.Holds s path ∧
      (path = "" ∨ "" ∈ splitPath path → reason = .emptySegment) ∧
      (¬ (path = "" ∨ "" ∈ splitPath path) → ∀ other : PathReason, other.Holds s path → other = reason) := by
  unfold ofPath at h
  cases found : ofPath? path with
  | some l =>
    rw [found] at h
    cases h
  | none =>
    rw [found] at h
    cases h
    have blank : path = "" → "" ∈ splitPath path := by
      rintro rfl
      decide
    by_cases empty : "" ∈ splitPath path
    · rw [if_pos empty]
      exact ⟨.emptySegment, rfl, .inr empty, fun _ => rfl, fun full => absurd (.inr empty) full⟩
    · have full : ¬ (path = "" ∨ "" ∈ splitPath path) := fun h => empty (h.elim blank id)
      obtain ⟨reason, holds, not_empty⟩ := exists_holds (not_leads_of_ofPath? found s)
      rw [if_neg empty, diagnose_of_holds holds not_empty]
      refine ⟨reason, rfl, holds, fun h => absurd h full, fun _ other also => ?_⟩
      have other_not_empty : other ≠ .emptySegment := by
        rintro rfl
        exact full also
      rw [← diagnose_of_holds holds not_empty, diagnose_of_holds also other_not_empty]

theorem ofPath_isSome {path : String} : (∃ l, ofPath path = .ok l) ↔ (ofPath? path).isSome = true := by
  unfold ofPath
  cases ofPath? path with
  | none => exact ⟨fun ⟨_, h⟩ => (nomatch h), nofun⟩
  | some l => exact ⟨fun _ => rfl, fun _ => ⟨l, rfl⟩⟩

theorem ofPath_mem {path : String} : (∃ l, ofPath path = .ok l) ↔ path ∈ all.map Leaf.path := by
  rw [ofPath_isSome, ofPath?, List.find?_isSome, List.mem_map]
  simp only [decide_eq_true_eq]

theorem path_of_ofPath {path : String} {l : Leaf} (h : ofPath path = .ok l) : l.path = path := by
  unfold ofPath at h
  cases found : ofPath? path with
  | none =>
    rw [found] at h
    cases h
  | some m =>
    rw [found] at h
    cases h
    exact path_of_ofPath? found

theorem verify_cases (paths : List String) :
    (verify paths = .ok () ∧ ∀ path ∈ paths, ∃ l, ofPath path = .ok l) ∨
    ∃ front path rest e, paths = front ++ path :: rest ∧ (∀ earlier ∈ front, ∃ l, ofPath earlier = .ok l) ∧
      ofPath path = .error e ∧ verify paths = .error e := by
  induction paths with
  | nil => exact .inl ⟨rfl, nofun⟩
  | cons path paths ih =>
    cases here : ofPath path with
    | error e => exact .inr ⟨[], path, paths, e, rfl, nofun, here, by rw [verify, here]⟩
    | ok l =>
      have goes_on : verify (path :: paths) = verify paths := by rw [verify, here]
      rcases ih with ⟨good, leaves⟩ | ⟨front, bad, rest, e, rfl, leaves, refused, told⟩
      · exact .inl ⟨goes_on.trans good, List.forall_mem_cons.mpr ⟨⟨l, here⟩, leaves⟩⟩
      · exact .inr ⟨path :: front, bad, rest, e, rfl, List.forall_mem_cons.mpr ⟨⟨l, here⟩, leaves⟩, refused,
          goes_on.trans told⟩

/-- A path leads to a leaf if it is one of the paths of leaves; its names lead from any settings to what the leaf holds.
Any other path is refused for a reason that holds of it: that it has an empty name, if it has, and else the only one that
holds. Of several paths the first that leads to no leaf is refused. -/
theorem ofPath_judged (path : String) (s : Settings) :
    ((∃ l, ofPath path = .ok l) ↔ path ∈ all.map Leaf.path) ∧
      ((∃ l, ofPath path = .ok l) ↔ (ofPath? path).isSome = true) ∧
      (∀ l, ofPath path = .ok l → joinSegments l.segments = path ∧
        (Attribute.settings s).follow l.segments = some (.scalar l.kind (l.read s))) ∧
      (∀ e, ofPath path = .error e → ∃ reason : PathReason, e = .address path reason ∧ reason.Holds s path ∧
        (path = "" ∨ "" ∈ splitPath path → reason = .emptySegment) ∧
        (¬ (path = "" ∨ "" ∈ splitPath path) → ∀ other : PathReason, other.Holds s path → other = reason)) ∧
      ∀ paths, (verify paths = .ok () ∧ ∀ path ∈ paths, path ∈ all.map Leaf.path) ∨
        ∃ front bad rest e, paths = front ++ bad :: rest ∧ (∀ path ∈ front, path ∈ all.map Leaf.path) ∧
          bad ∉ all.map Leaf.path ∧ ofPath bad = .error e ∧ verify paths = .error e := by
  refine ⟨ofPath_mem, ofPath_isSome, ?_, fun e refused => reason_of_refused refused s, ?_⟩
  · intro l found
    exact ⟨path_of_ofPath found, follow_segments s l⟩
  · intro paths
    rcases verify_cases paths with ⟨good, leaves⟩ | ⟨front, bad, rest, e, split, leaves, refused, told⟩
    · exact .inl ⟨good, fun path mem => ofPath_mem.mp (leaves path mem)⟩
    · refine .inr ⟨front, bad, rest, e, split, fun path mem => ofPath_mem.mp (leaves path mem), ?_, refused, told⟩
      intro mem
      obtain ⟨l, found⟩ := ofPath_mem.mpr mem
      rw [found] at refused
      cases refused

/-- Of a path that goes on below a leaf with an empty name two reasons hold. -/
theorem two_reasons_hold :
    (∃ e, ofPath "port." = .error e) ∧ ¬ ∃! reason : PathReason, reason.Holds {} "port." := by
  have names : splitPath "port." = ["port", ""] := by decide
  have empty : PathReason.Holds {} "port." .emptySegment := .inr (by simp [names])
  have below : PathReason.Holds {} "port." (.notGroup "port") := ⟨["port"], [""], names, nofun, rfl, .inl rfl⟩
  refine ⟨⟨_, rfl⟩, fun one => ?_⟩
  cases one.unique empty below

end Leaf

end ServerSettings
