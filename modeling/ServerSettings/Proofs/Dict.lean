import Mathlib.Data.List.Induction
import ServerSettings.Dict

/-!
More about maps: what putting entries into a map one after the other comes to, so a list without a name twice is the map
of its entries, and otherwise a name has its first place and its last value; and mapping the values keeps the names.
-/

namespace ServerSettings.Dict

variable {α β : Type}

theorem mapValues_id (d : Dict α) : mapValues id d = d := by
  simp [mapValues]

theorem mapValues_mapValues {γ : Type} (f : α → β) (g : β → γ) (d : Dict α) :
    mapValues g (mapValues f d) = mapValues (fun a => g (f a)) d := by
  simp [mapValues]

theorem keys_mapValues (f : α → β) (d : Dict α) : keys (mapValues f d) = keys d := by
  simp [keys, mapValues]

theorem Distinct.mapValues {d : Dict α} (h : Distinct d) (f : α → β) : Distinct (mapValues f d) := by
  rw [Distinct, keys_mapValues]
  exact h

theorem lookup_map (change : String → α → β) (d : Dict α) (key : String) :
    lookup (d.map fun m => (m.1, change m.1 m.2)) key = (lookup d key).map (change key) := by
  induction d with
  | nil => rfl
  | cons entry rest ih =>
    rw [List.map_cons, lookup, lookup, ih]
    split
    · next same => rw [same]; rfl
    · rfl

theorem lookup_append (d e : Dict α) (key : String) : lookup (d ++ e) key = (lookup d key).or (lookup e key) := by
  induction d with
  | nil => rfl
  | cons entry rest ih =>
    rw [List.cons_append, lookup, lookup, ih]
    split
    · rfl
    · rfl

theorem lookup_of_mem {d : Dict α} (h : Distinct d) {entry : String × α} (mem : entry ∈ d) :
    lookup d entry.1 = some entry.2 := by
  induction d with
  | nil => cases mem
  | cons first rest ih =>
    obtain ⟨fresh, once⟩ := List.nodup_cons.mp h
    simp only [lookup]
    rcases List.mem_cons.mp mem with rfl | later
    · rw [if_pos rfl]
    · have other : first.1 ≠ entry.1 := by
        intro eq
        exact fresh (List.mem_map.mpr ⟨entry, later, eq.symm⟩)
      rw [if_neg other, ih once later]

theorem mem_of_lookup {d : Dict α} {key : String} {value : α} (h : lookup d key = some value) :
    (key, value) ∈ d := by
  induction d with
  | nil => cases h
  | cons first rest ih =>
    simp only [lookup] at h
    split at h
    · next eq =>
      cases h
      subst eq
      exact List.mem_cons_self
    · exact List.mem_cons_of_mem _ (ih h)

theorem lookup_of_not_mem {d : Dict α} {key : String} (absent : key ∉ keys d) : lookup d key = none := by
  cases found : lookup d key with
  | none => rfl
  | some value => exact absurd (List.mem_map_of_mem (mem_of_lookup found)) absent

theorem Distinct.perm {d e : Dict α} (h : Distinct d) (perm : d.Perm e) : Distinct e :=
  (perm.map Prod.fst).nodup_iff.mp h

/-- The order of entries with different names does not count. -/
theorem lookup_perm {d e : Dict α} (once : Distinct d) (perm : d.Perm e) (key : String) :
    lookup d key = lookup e key := by
  have once' := once.perm perm
  cases found : lookup d key with
  | some value => exact (lookup_of_mem once' (perm.subset (mem_of_lookup found))).symm
  | none =>
    cases other : lookup e key with
    | none => rfl
    | some value =>
      have inside := lookup_of_mem once (perm.symm.subset (mem_of_lookup other))
      cases found.symm.trans inside

theorem put_of_not_mem {d : Dict α} {key : String} (value : α) (h : key ∉ keys d) :
    put d key value = d ++ [(key, value)] := by
  induction d with
  | nil => rfl
  | cons first rest ih =>
    simp only [keys, List.map_cons, List.mem_cons, not_or] at h
    rw [put, if_neg (Ne.symm h.1), ih h.2, List.cons_append]

theorem keys_put_of_mem {d : Dict α} {key : String} (value : α) (h : key ∈ keys d) : keys (put d key value) = keys d := by
  induction d with
  | nil => cases h
  | cons first rest ih =>
    rw [put]
    split
    · rfl
    · next other =>
      have later : key ∈ keys rest := (List.mem_cons.mp h).resolve_left (Ne.symm other)
      exact congrArg (first.1 :: ·) (ih later)

theorem put_map (change : String → α → β) (d : Dict α) (key : String) (value : α) :
    put (d.map fun m => (m.1, change m.1 m.2)) key (change key value) =
      (put d key value).map fun m => (m.1, change m.1 m.2) := by
  induction d with
  | nil => rfl
  | cons entry rest ih =>
    rw [List.map_cons, put, put, ih]
    split
    · next same => rw [List.map_cons, same]
    · rw [List.map_cons]

/-- A change of the values that respects their names can be made before the map or after it. -/
theorem ofList_map (change : String → α → β) (entries : List (String × α)) :
    ofList (entries.map fun m => (m.1, change m.1 m.2)) =
      (ofList entries).map fun m => (m.1, change m.1 m.2) := by
  have run : ∀ (later : List (String × α)) (seen : Dict α),
      (later.map fun m => (m.1, change m.1 m.2)).foldl (fun d p => put d p.1 p.2)
          (seen.map fun m => (m.1, change m.1 m.2)) =
        (later.foldl (fun d p => put d p.1 p.2) seen).map fun m => (m.1, change m.1 m.2) := by
    intro later
    induction later with
    | nil => exact fun _ => rfl
    | cons entry later ih =>
      intro seen
      rw [List.map_cons, List.foldl_cons, List.foldl_cons, ← ih, put_map]
  exact run entries []

/-- Putting what is there changes nothing. -/
theorem put_of_lookup {d : Dict α} {key : String} {value : α} (h : lookup d key = some value) :
    put d key value = d := by
  induction d with
  | nil => cases h
  | cons first rest ih =>
    simp only [lookup] at h
    simp only [put]
    split at h
    · next eq =>
      cases h
      rw [if_pos eq]
    · next ne => rw [if_neg ne, ih h]

theorem mem_keys_foldl_put (d : Dict α) (entries : List (String × α)) (key : String) :
    key ∈ keys (entries.foldl (fun d p => put d p.1 p.2) d) ↔ key ∈ keys d ∨ key ∈ keys entries := by
  induction entries generalizing d with
  | nil => simp [keys]
  | cons entry rest ih =>
    rw [List.foldl_cons, ih, mem_keys_put]
    simp only [keys, List.map_cons, List.mem_cons]
    constructor
    · rintro ((same | old) | later) <;> simp [*]
    · rintro (old | same | later) <;> simp [*]

theorem ne_of_not_mem {d : Dict α} {key : String} (absent : key ∉ keys d) {entry : String × α} (mem : entry ∈ d) :
    entry.1 ≠ key := by
  rintro rfl
  exact absent (List.mem_map_of_mem mem)

/-- To put a name that is there is to replace its value. -/
theorem put_of_mem {d : Dict α} (once : Distinct d) {key : String} (value : α) (h : key ∈ keys d) :
    put d key value = d.map fun p => (p.1, if p.1 = key then value else p.2) := by
  induction d with
  | nil => cases h
  | cons first rest ih =>
    obtain ⟨fresh, once⟩ := List.nodup_cons.mp once
    rw [put, List.map_cons]
    by_cases same : first.1 = key
    · subst same
      have others : rest.map (fun p => (p.1, if p.1 = first.1 then value else p.2)) = rest := by
        refine (List.map_congr_left fun p mem => ?_).trans (List.map_id rest)
        simp [ne_of_not_mem fresh mem]
      simp only [if_true, others]
    · have later : key ∈ keys rest := (List.mem_cons.mp h).resolve_left (Ne.symm same)
      simp only [if_neg same, ih once later]

/-- Entries that are put into a map one after the other replace the values of the names that are there, in their
places; the other entries come behind these, in their own order. -/
theorem foldl_put {d entries : Dict α} (once : Distinct d) (distinct : Distinct entries) :
    entries.foldl (fun d p => put d p.1 p.2) d =
      (d.map fun p => (p.1, (lookup entries p.1).getD p.2)) ++ entries.filter fun p => p.1 ∉ keys d := by
  induction entries generalizing d with
  | nil => simp [lookup]
  | cons entry rest ih =>
    obtain ⟨fresh, distinct⟩ := List.nodup_cons.mp distinct
    have absent : lookup rest entry.1 = none := lookup_of_not_mem fresh
    rw [List.foldl_cons, ih (once.put _ _) distinct]
    by_cases known : entry.1 ∈ keys d
    · -- The names stay the same, and the value of one of them is replaced.
      have replaced := put_of_mem once entry.2 known
      rw [keys_put_of_mem entry.2 known, List.filter_cons_of_neg (by simpa using known), replaced, List.map_map]
      congr 1
      refine List.map_congr_left fun p _ => ?_
      by_cases same : p.1 = entry.1
      · simp [lookup, same, absent]
      · simp [lookup, same, Ne.symm same]
    · -- The entry comes behind those that are there, and the later ones behind it.
      have kept : d.map (fun p => (p.1, (lookup rest p.1).getD p.2)) =
          d.map fun p => (p.1, (lookup (entry :: rest) p.1).getD p.2) := by
        refine List.map_congr_left fun p mem => ?_
        simp [lookup, Ne.symm (ne_of_not_mem known mem)]
      have others : rest.filter (fun p => p.1 ∉ keys (d ++ [(entry.1, entry.2)])) =
          rest.filter fun p => p.1 ∉ keys d := by
        refine List.filter_congr fun p mem => ?_
        have other : p.1 ≠ entry.1 := ne_of_not_mem fresh mem
        apply decide_eq_decide.mpr
        simp [keys, other]
      rw [put_of_not_mem entry.2 known, others, List.map_append, kept, List.filter_cons_of_pos (by simpa using known),
        List.append_assoc]
      simp [absent]

theorem ofList_eq_self {d : Dict α} (h : Distinct d) : ofList d = d := by
  have entries := foldl_put (d := []) List.nodup_nil h
  rw [ofList, entries]
  simp [keys]

/-- The names of a map in order: each of those that are put where it came first. -/
theorem keys_ofList (entries : List (String × α)) : keys (ofList entries) = (keys entries).eraseDups := by
  -- From the end, for the last entry either has a name that is there already or comes behind them all.
  induction entries using List.reverseRecOn with
  | nil => rfl
  | append_singleton front entry ih =>
    have last : ofList (front ++ [entry]) = put (ofList front) entry.1 entry.2 := by
      rw [ofList, List.foldl_append]
      rfl
    have names : keys (front ++ [entry]) = keys front ++ [entry.1] := by simp [keys]
    rw [last, names, List.eraseDups_append, ← ih]
    by_cases known : entry.1 ∈ keys (ofList front)
    · have before : entry.1 ∈ keys front := List.mem_eraseDups.mp (ih ▸ known)
      have none_new : [entry.1].removeAll (keys front) = [] := by simp [List.removeAll, before]
      rw [keys_put_of_mem entry.2 known, none_new, List.eraseDups_nil, List.append_nil]
    · have fresh : entry.1 ∉ keys front := fun mem => known (ih ▸ List.mem_eraseDups.mpr mem)
      have one_new : [entry.1].removeAll (keys front) = [entry.1] := by simp [List.removeAll, fresh]
      rw [put_of_not_mem entry.2 known, one_new, List.eraseDups_cons, List.filter_nil, List.eraseDups_nil]
      simp [keys]

theorem lookup_foldl_put {d : Dict α} {entries : List (String × α)} {key : String} (absent : key ∉ keys entries) :
    lookup (entries.foldl (fun d p => put d p.1 p.2) d) key = lookup d key := by
  induction entries generalizing d with
  | nil => rfl
  | cons entry rest ih =>
    have apart : key ≠ entry.1 ∧ key ∉ keys rest := by simpa [keys] using absent
    rw [List.foldl_cons, ih apart.2, lookup_put_of_ne d entry.2 apart.1]

/-- The value of a name is the last that is put. -/
theorem lookup_ofList {front back : List (String × α)} {key : String} (value : α) (absent : key ∉ keys back) :
    lookup (ofList (front ++ (key, value) :: back)) key = some value := by
  rw [ofList, List.foldl_append, List.foldl_cons, lookup_foldl_put absent, lookup_put_self]

theorem mem_of_mem_put {d : Dict α} {key : String} {value : α} {entry : String × α}
    (h : entry ∈ put d key value) : entry = (key, value) ∨ entry ∈ d := by
  induction d with
  | nil => simpa [put] using h
  | cons first rest ih =>
    simp only [put] at h
    split at h
    · next eq =>
      rcases List.mem_cons.mp h with rfl | later
      · exact .inl (by rw [eq])
      · exact .inr (List.mem_cons_of_mem _ later)
    · rcases List.mem_cons.mp h with rfl | later
      · exact .inr List.mem_cons_self
      · rcases ih later with same | old
        · exact .inl same
        · exact .inr (List.mem_cons_of_mem _ old)

theorem mem_of_mem_ofList {entries : List (String × α)} {entry : String × α} (h : entry ∈ ofList entries) :
    entry ∈ entries := by
  have run : ∀ (later : List (String × α)) (seen : Dict α),
      entry ∈ later.foldl (fun d p => put d p.1 p.2) seen → entry ∈ seen ∨ entry ∈ later := by
    intro later
    induction later with
    | nil => exact fun seen mem => .inl mem
    | cons next later ih =>
      intro seen mem
      rcases ih _ mem with inside | later
      · rcases mem_of_mem_put inside with same | old
        · exact .inr (by rw [same]; exact List.mem_cons_self)
        · exact .inl old
      · exact .inr (List.mem_cons_of_mem _ later)
  rcases run entries [] h with none_yet | mem
  · cases none_yet
  · exact mem

end ServerSettings.Dict
