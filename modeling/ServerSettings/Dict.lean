/-!
Maps from names to values that keep the order in which the names came.
-/

namespace ServerSettings

/-- Entries in order; a name that is put again keeps its first place and takes the last value. -/
abbrev Dict (α : Type) := List (String × α)

namespace Dict

variable {α β : Type}

def lookup : Dict α → String → Option α
  | [], _ => none
  | (k, v) :: rest, key => if k = key then some v else lookup rest key

def put : Dict α → String → α → Dict α
  | [], key, value => [(key, value)]
  | (k, v) :: rest, key, value =>
    if k = key then (k, value) :: rest else (k, v) :: put rest key value

def ofList (entries : List (String × α)) : Dict α :=
  entries.foldl (fun d p => put d p.1 p.2) []

def keys (d : Dict α) : List String :=
  d.map (·.1)

def mapValues (f : α → β) (d : Dict α) : Dict β :=
  d.map fun p => (p.1, f p.2)

/-- No name occurs twice. -/
def Distinct (d : Dict α) : Prop :=
  (keys d).Nodup

theorem lookup_put_self (d : Dict α) (key : String) (value : α) :
    lookup (put d key value) key = some value := by
  induction d with
  | nil => simp [put, lookup]
  | cons p rest ih =>
    simp only [put]
    split
    · next h => simp [lookup, h]
    · next h => simp [lookup, h, ih]

theorem lookup_put_of_ne (d : Dict α) {key other : String} (value : α) (h : other ≠ key) :
    lookup (put d key value) other = lookup d other := by
  induction d with
  | nil => simp [put, lookup, Ne.symm h]
  | cons p rest ih =>
    simp only [put]
    split
    · next eq => simp [lookup, eq, Ne.symm h]
    · simp [lookup, ih]

theorem mem_keys_put (d : Dict α) (key other : String) (value : α) :
    other ∈ keys (put d key value) ↔ other = key ∨ other ∈ keys d := by
  induction d with
  | nil => simp [put, keys]
  | cons p rest ih =>
    simp only [put]
    simp only [keys] at ih
    split
    · next eq => simp [keys, ← eq]
    · simp only [keys, List.map_cons, List.mem_cons, ih]
      constructor
      · rintro (h | h | h) <;> simp [h]
      · rintro (h | h | h) <;> simp [h]

theorem Distinct.put {d : Dict α} (h : Distinct d) (key : String) (value : α) :
    Distinct (Dict.put d key value) := by
  induction d with
  | nil => simp [Dict.put, Distinct, keys]
  | cons p rest ih =>
    have parts : p.1 ∉ keys rest ∧ (keys rest).Nodup := List.nodup_cons.1 h
    simp only [Dict.put]
    split
    · next eq => exact List.nodup_cons.2 parts
    · next ne =>
      refine List.nodup_cons.2 ⟨?_, ih parts.2⟩
      intro mem
      rcases (mem_keys_put rest key p.1 value).1 mem with eq | mem
      · exact ne eq
      · exact parts.1 mem

theorem Distinct.foldl_put {d : Dict α} (h : Distinct d) (entries : List (String × α)) :
    Distinct (entries.foldl (fun d p => Dict.put d p.1 p.2) d) := by
  induction entries generalizing d with
  | nil => exact h
  | cons entry rest ih => exact ih (h.put entry.1 entry.2)

theorem distinct_ofList (entries : List (String × α)) : Distinct (ofList entries) :=
  Distinct.foldl_put (by simp [Distinct, keys]) entries

/-- Do two maps give the same names the same values, in whatever order? -/
def same (eq : α → α → Bool) (d e : Dict α) : Bool :=
  d.length = e.length ∧ d.all fun p =>
    match lookup e p.1 with
    | some v => eq p.2 v
    | none => false

end Dict

end ServerSettings
