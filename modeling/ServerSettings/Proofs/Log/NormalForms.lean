import Mathlib.Data.List.Perm.Basic
import Mathlib.Logic.Relation
import ServerSettings.Proofs.Json.Sorted
import ServerSettings.Proofs.Secrecy.LogLines

/-!
# Normal forms of values

A value has a normal form unless a number in it, or in one of its keys, is too long. The normal form has a strict text,
and sorting it forgets in which order the entries of a map came if the texts of the keys are different.

* `normal_ok`: what has short numbers has a normal form that is strict throughout;
* `Swap`, `Reordered`: entries of maps anywhere in a value, in another order;
* `Reordered.normal`: reordered values have the same sorted normal form.
-/

namespace ServerSettings.Value

section Totality

mutual

/-- Are all whole numbers in a value and its keys short enough to be written? -/
def hasShortNumbers : Value → Bool
  | .int n => Whole.isWritable n
  | .list items => itemsHaveShortNumbers items
  | .tuple items => itemsHaveShortNumbers items
  | .map entries => entriesHaveShortNumbers entries
  | _ => true

def itemsHaveShortNumbers : List Value → Bool
  | [] => true
  | v :: rest => hasShortNumbers v && itemsHaveShortNumbers rest

def entriesHaveShortNumbers : List (Value × Value) → Bool
  | [] => true
  | (k, v) :: rest => hasShortNumbers k && hasShortNumbers v && entriesHaveShortNumbers rest

end

mutual

theorem quoted_ok (v : Value) (short : v.hasShortNumbers = true) : ∃ s, v.quoted = .ok s := by
  cases v with
  | none | bool | float | text | bytes | path | foreign => exact ⟨_, rfl⟩
  | int n =>
    rw [hasShortNumbers] at short
    exact ⟨String.ofList (Whole.digits n), by rw [quoted, Whole.text, if_pos short]⟩
  | list items | tuple items =>
    obtain ⟨parts, read⟩ := quotedItems_ok items short
    exact ⟨_, by rw [quoted, read]; rfl⟩
  | map entries =>
    obtain ⟨parts, read⟩ := quotedEntries_ok entries short
    exact ⟨_, by rw [quoted, read]; rfl⟩

theorem quotedItems_ok (items : List Value) (short : itemsHaveShortNumbers items = true) :
    ∃ parts, quotedItems items = .ok parts := by
  cases items with
  | nil => exact ⟨_, rfl⟩
  | cons v rest =>
    rw [itemsHaveShortNumbers, Bool.and_eq_true] at short
    obtain ⟨part, first⟩ := quoted_ok v short.1
    obtain ⟨parts, later⟩ := quotedItems_ok rest short.2
    exact ⟨_, by rw [quotedItems, first, later]; rfl⟩

theorem quotedEntries_ok (entries : List (Value × Value)) (short : entriesHaveShortNumbers entries = true) :
    ∃ parts, quotedEntries entries = .ok parts := by
  cases entries with
  | nil => exact ⟨_, rfl⟩
  | cons entry rest =>
    obtain ⟨k, v⟩ := entry
    rw [entriesHaveShortNumbers, Bool.and_eq_true, Bool.and_eq_true] at short
    obtain ⟨key, name⟩ := quoted_ok k short.1.1
    obtain ⟨part, first⟩ := quoted_ok v short.1.2
    obtain ⟨parts, later⟩ := quotedEntries_ok rest short.2
    exact ⟨_, by rw [quotedEntries, name, first, later]; rfl⟩

end

theorem plain_ok {v : Value} (short : v.hasShortNumbers = true) : ∃ s, v.plain = .ok s := by
  cases v with
  | text | path => exact ⟨_, rfl⟩
  | _ => exact quoted_ok _ short

variable {P : Json → Prop}

theorem normalItems_ok {items : List Value} (each : ∀ v ∈ items, ∃ j, v.normal = .ok j ∧ P j) :
    ∃ out, normalItems items = .ok out ∧ ∀ j ∈ out, P j := by
  induction items with
  | nil => exact ⟨[], rfl, fun _ mem => absurd mem List.not_mem_nil⟩
  | cons v rest ih =>
    obtain ⟨first, later⟩ := List.forall_mem_cons.mp each
    obtain ⟨j, value, holds⟩ := first
    obtain ⟨out, read, hold⟩ := ih later
    exact ⟨j :: out, by rw [normalItems, value, read]; rfl, List.forall_mem_cons.mpr ⟨holds, hold⟩⟩

theorem normalEntries_ok {entries : List (Value × Value)} (names : ∀ e ∈ entries, ∃ key, e.1.plain = .ok key)
    (each : ∀ e ∈ entries, ∃ j, e.2.normal = .ok j ∧ P j) :
    ∃ members, normalEntries entries = .ok members ∧ ∀ m ∈ members, P m.2 := by
  induction entries with
  | nil => exact ⟨[], rfl, fun _ mem => absurd mem List.not_mem_nil⟩
  | cons entry rest ih =>
    obtain ⟨name, names⟩ := List.forall_mem_cons.mp names
    obtain ⟨first, later⟩ := List.forall_mem_cons.mp each
    obtain ⟨key, name⟩ := name
    obtain ⟨j, value, holds⟩ := first
    obtain ⟨members, read, hold⟩ := ih names later
    exact ⟨(key, j) :: members, by rw [normalEntries, name, value, read]; rfl, List.forall_mem_cons.mpr ⟨holds, hold⟩⟩

theorem short_of_mem {items : List Value} (short : itemsHaveShortNumbers items = true) :
    ∀ v ∈ items, v.hasShortNumbers = true := by
  induction items with
  | nil => exact fun _ mem => absurd mem List.not_mem_nil
  | cons v rest ih =>
    rw [itemsHaveShortNumbers, Bool.and_eq_true] at short
    exact List.forall_mem_cons.mpr ⟨short.1, ih short.2⟩

theorem short_of_mem_entries {entries : List (Value × Value)} (short : entriesHaveShortNumbers entries = true) :
    ∀ e ∈ entries, e.1.hasShortNumbers = true ∧ e.2.hasShortNumbers = true := by
  induction entries with
  | nil => exact fun _ mem => absurd mem List.not_mem_nil
  | cons e rest ih =>
    rw [entriesHaveShortNumbers, Bool.and_eq_true, Bool.and_eq_true] at short
    exact List.forall_mem_cons.mpr ⟨short.1, ih short.2⟩

/-- What has short numbers has a normal form, and that is strict throughout. -/
theorem normal_ok {v : Value} (short : v.hasShortNumbers = true) : ∃ j, v.normal = .ok j ∧ j.Throughout Json.IsStrict := by
  induction v using Value.induction with
  | leaf v isLeaf =>
    cases v with
    | int n =>
      rw [hasShortNumbers] at short
      exact ⟨_, rfl, .scalar rfl short⟩
    | float x =>
      refine ⟨normalFloat x, rfl, ?_⟩
      rw [normalFloat]
      split
      · next finite => exact .scalar rfl finite
      · exact .scalar rfl trivial
    | list | tuple | map => cases isLeaf
    | none | bool | text | bytes | path | foreign => exact ⟨_, rfl, .scalar rfl trivial⟩
  | list items each | tuple items each =>
    obtain ⟨out, read, strict⟩ := normalItems_ok fun v mem => each v mem (short_of_mem short v mem)
    exact ⟨.arr out, by rw [normal, read]; rfl, .arr trivial strict⟩
  | map entries each =>
    have both := short_of_mem_entries short
    obtain ⟨members, read, strict⟩ := normalEntries_ok (fun e mem => plain_ok (both e mem).1)
      fun e mem => each e mem (both e mem).2
    exact ⟨.obj (Dict.ofList members), by rw [normal, read]; rfl,
      .obj (Dict.distinct_ofList members) fun m mem => strict m (Dict.mem_of_mem_ofList mem)⟩

end Totality

section Order

/-- What a list has as normal forms, one by one. -/
theorem normalItems_iff {items : List Value} {out : List Json} :
    normalItems items = .ok out ↔ List.Forall₂ (fun v j => v.normal = .ok j) items out := by
  induction items generalizing out with
  | nil =>
    rw [List.forall₂_nil_left_iff]
    exact ⟨fun h => by cases h; rfl, fun h => by rw [h]; rfl⟩
  | cons v rest ih =>
    rw [List.forall₂_cons_left_iff, normalItems]
    constructor
    · intro h
      cases value : v.normal with
      | error e => rw [value] at h; cases h
      | ok j =>
        rw [value] at h
        obtain ⟨more, read, same⟩ := map_ok h
        exact ⟨j, more, rfl, ih.mp read, same.symm⟩
    · rintro ⟨j, more, value, later, rfl⟩
      rw [value, ih.mpr later]
      rfl

theorem normalEntries_iff {entries : List (Value × Value)} {members : Dict Json} :
    normalEntries entries = .ok members ↔
      List.Forall₂ (fun e m => e.1.plain = .ok m.1 ∧ e.2.normal = .ok m.2) entries members := by
  induction entries generalizing members with
  | nil =>
    rw [List.forall₂_nil_left_iff]
    exact ⟨fun h => by cases h; rfl, fun h => by rw [h]; rfl⟩
  | cons e rest ih =>
    rw [List.forall₂_cons_left_iff, normalEntries]
    constructor
    · intro h
      cases name : e.1.plain with
      | error e => rw [name] at h; cases h
      | ok key =>
        cases value : e.2.normal with
        | error e => rw [name, value] at h; cases h
        | ok j =>
          rw [name, value] at h
          obtain ⟨more, read, same⟩ := map_ok h
          exact ⟨(key, j), more, ⟨rfl, rfl⟩, ih.mp read, same.symm⟩
    · rintro ⟨m, more, ⟨name, value⟩, later, rfl⟩
      rw [name, value, ih.mpr later]
      rfl

/-- The order of entries changes somewhere inside a value, where the texts of their keys are different. -/
inductive Swap : Value → Value → Prop
  | here {entries entries' : List (Value × Value)} (different : (entries.map fun e => e.1.plain).Nodup)
      (perm : entries.Perm entries') : Swap (.map entries) (.map entries')
  | item {v v' : Value} (front back : List Value) (inside : Swap v v') :
      Swap (.list (front ++ v :: back)) (.list (front ++ v' :: back))
  | part {v v' : Value} (front back : List Value) (inside : Swap v v') :
      Swap (.tuple (front ++ v :: back)) (.tuple (front ++ v' :: back))
  | entry {v v' : Value} (front back : List (Value × Value)) (k : Value) (inside : Swap v v') :
      Swap (.map (front ++ (k, v) :: back)) (.map (front ++ (k, v') :: back))

abbrev Reordered : Value → Value → Prop :=
  Relation.ReflTransGen Swap

theorem forall₂_middle {α β : Type} {R : α → β → Prop} {front back : List α} {a : α} {out : List β}
    (h : List.Forall₂ R (front ++ a :: back) out) :
    ∃ before b behind, out = before ++ b :: behind ∧ R a b ∧
      ∀ a' b', R a' b' → List.Forall₂ R (front ++ a' :: back) (before ++ b' :: behind) := by
  induction front generalizing out with
  | nil =>
    obtain ⟨b, behind, holds, later, rfl⟩ := List.forall₂_cons_left_iff.mp h
    exact ⟨[], b, behind, rfl, holds, fun a' b' new => .cons new later⟩
  | cons c front ih =>
    obtain ⟨d, rest, first, later, rfl⟩ := List.forall₂_cons_left_iff.mp h
    obtain ⟨before, b, behind, rfl, holds, replaced⟩ := ih later
    exact ⟨d :: before, b, behind, rfl, holds, fun a' b' new => .cons first (replaced a' b' new)⟩

/-- Members of a map by their names, sorted inside: of members with one name the last counts. -/
theorem sorted_ofList (members : Dict Json) : (Json.obj (Dict.ofList members)).sorted =
    .obj (Json.sortMembers (Dict.ofList (Dict.mapValues Json.sorted members))) := by
  rw [Json.sorted, Json.sortedMembers_eq]
  exact congrArg (fun d => Json.obj (Json.sortMembers d)) (Dict.ofList_map (fun _ => Json.sorted) members).symm

/-- The names of members are the texts of the keys. -/
theorem map_plain_eq {entries : List (Value × Value)} {members : Dict Json}
    (each : List.Forall₂ (fun e m => e.1.plain = .ok m.1 ∧ e.2.normal = .ok m.2) entries members) :
    (entries.map fun e => e.1.plain) = (Dict.keys members).map Except.ok := by
  have names : List.Forall₂ (· = ·) (entries.map fun e => e.1.plain) ((Dict.keys members).map Except.ok) := by
    rw [Dict.keys, List.map_map, List.forall₂_map_left_iff, List.forall₂_map_right_iff]
    exact each.imp fun _ _ both => both.1
  rwa [List.forall₂_eq_eq_eq] at names

/-- Maps whose keys have different texts become members with different names. -/
theorem distinct_of_plain {entries : List (Value × Value)} {members : Dict Json}
    (different : (entries.map fun e => e.1.plain).Nodup)
    (each : List.Forall₂ (fun e m => e.1.plain = .ok m.1 ∧ e.2.normal = .ok m.2) entries members) :
    Dict.Distinct members := by
  rw [map_plain_eq each] at different
  exact List.Pairwise.of_map Except.ok (fun _ _ other same => other (congrArg Except.ok same)) different

theorem Swap.normal {v v' : Value} (h : Swap v v') {j : Json} (form : v.normal = .ok j) :
    ∃ j', v'.normal = .ok j' ∧ j'.sorted = j.sorted := by
  induction h generalizing j with
  | here different perm =>
    rw [Value.normal] at form
    obtain ⟨members, read, rfl⟩ := map_ok form
    have each := normalEntries_iff.mp read
    have once := distinct_of_plain different each
    obtain ⟨members', each', perm'⟩ := List.perm_comp_forall₂ perm.symm each
    have once' := once.perm perm'.symm
    refine ⟨.obj (Dict.ofList members'), by rw [Value.normal, normalEntries_iff.mpr each']; rfl, ?_⟩
    rw [Dict.ofList_eq_self once, Dict.ofList_eq_self once', Json.sorted_obj, Json.sorted_obj,
      Json.sortMembers_eq_of_perm once' perm']
  | item front back _ ih | part front back _ ih =>
    rw [Value.normal] at form
    obtain ⟨out, read, rfl⟩ := map_ok form
    obtain ⟨before, j, behind, rfl, value, replaced⟩ := forall₂_middle (normalItems_iff.mp read)
    obtain ⟨j', value', same⟩ := ih value
    have read' := normalItems_iff.mpr (replaced _ _ value')
    refine ⟨.arr (before ++ j' :: behind), by rw [Value.normal, read']; rfl, ?_⟩
    simp only [Json.sorted, Json.sortedItems_eq, List.map_append, List.map_cons, same]
  | @entry v v' front back k _ ih =>
    rw [Value.normal] at form
    obtain ⟨members, read, rfl⟩ := map_ok form
    obtain ⟨before, m, behind, rfl, ⟨name, value⟩, replaced⟩ := forall₂_middle (normalEntries_iff.mp read)
    obtain ⟨j', value', same⟩ := ih value
    have read' := normalEntries_iff.mpr (replaced (k, v') (m.1, j') ⟨name, value'⟩)
    refine ⟨.obj (Dict.ofList (before ++ (m.1, j') :: behind)), by rw [Value.normal, read']; rfl, ?_⟩
    simp only [sorted_ofList, Dict.mapValues, List.map_append, List.map_cons, same]

/-- Reordered values have the same sorted normal form. -/
theorem Reordered.normal {v v' : Value} (h : Reordered v v') {j : Json} (form : v.normal = .ok j) :
    ∃ j', v'.normal = .ok j' ∧ j'.sorted = j.sorted := by
  induction h with
  | refl => exact ⟨j, form, rfl⟩
  | tail _ swap ih =>
    obtain ⟨k, form', same⟩ := ih
    obtain ⟨j', form'', same'⟩ := swap.normal form'
    exact ⟨j', form'', same'.trans same⟩

/-- A map stays a map with as many entries, and the order changes among those of them that are kept by their keys. -/
theorem Swap.map {entries : List (Value × Value)} {w : Value} (h : Swap (.map entries) w) :
    ∃ entries', w = .map entries' ∧ entries'.length = entries.length ∧ ∀ keep : Value → Bool,
      Reordered (.map (entries.filter fun e => keep e.1)) (.map (entries'.filter fun e => keep e.1)) := by
  cases h with
  | here different perm =>
    refine ⟨_, rfl, perm.length_eq.symm, fun keep => ?_⟩
    exact .single (.here (different.sublist (List.filter_sublist.map _)) (perm.filter _))
  | entry front back k inside =>
    refine ⟨_, rfl, by rw [List.length_append, List.length_append]; rfl, fun keep => ?_⟩
    rw [List.filter_append, List.filter_append, List.filter_cons, List.filter_cons]
    split
    · exact .single (.entry _ _ k inside)
    · exact .refl

theorem Reordered.map {entries : List (Value × Value)} {w : Value} (h : Reordered (.map entries) w) :
    ∃ entries', w = .map entries' ∧ entries'.length = entries.length ∧ ∀ keep : Value → Bool,
      Reordered (.map (entries.filter fun e => keep e.1)) (.map (entries'.filter fun e => keep e.1)) := by
  induction h with
  | refl => exact ⟨entries, rfl, rfl, fun _ => .refl⟩
  | tail _ swap ih =>
    obtain ⟨between, rfl, size, first⟩ := ih
    obtain ⟨entries', rfl, size', second⟩ := swap.map
    exact ⟨entries', rfl, size'.trans size, fun keep => (first keep).trans (second keep)⟩

end Order

end ServerSettings.Value
