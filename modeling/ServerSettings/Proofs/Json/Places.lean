import ServerSettings.Json.Basic

/-!
# Places in JSON values

A place is reached by steps, each to a member of an object or to an element of an array. What is seen at every place,
looking no deeper, makes up the value.

* `Json.induction`: what collections inherit from what is in them;
* `Json.Throughout`: what holds of a value and of everything inside it;
* `Json.at?`: the value at a place;
* `Json.face`: what is seen of it from outside.
-/

namespace ServerSettings.Json

def isScalar : Json → Bool
  | .arr _ | .obj _ => false
  | _ => true

/-- What holds of scalars, and of a collection if it holds of what is in it, holds of every value. -/
@[elab_as_elim]
theorem induction {P : Json → Prop} (scalar : ∀ v, v.isScalar = true → P v)
    (arr : ∀ items : List Json, (∀ v ∈ items, P v) → P (.arr items))
    (obj : ∀ members : Dict Json, (∀ m ∈ members, P m.2) → P (.obj members)) (v : Json) : P v :=
  @Json.rec P (fun items => ∀ v ∈ items, P v) (fun members => ∀ m ∈ members, P m.2) (fun m => P m.2)
    (scalar .null rfl) (fun b => scalar (.bool b) rfl) (fun n => scalar (.int n) rfl) (fun x => scalar (.float x) rfl)
    (fun s => scalar (.str s) rfl) arr obj
    (fun _ mem => absurd mem List.not_mem_nil) (fun _ _ first later => List.forall_mem_cons.mpr ⟨first, later⟩)
    (fun _ mem => absurd mem List.not_mem_nil) (fun _ _ first later => List.forall_mem_cons.mpr ⟨first, later⟩)
    (fun _ _ holds => holds) v

/-- A property holds of a value and of everything inside it. -/
inductive Throughout (P : Json → Prop) : Json → Prop
  | scalar {v : Json} (scalar : v.isScalar = true) (here : P v) : Throughout P v
  | arr {items : List Json} (here : P (.arr items)) (parts : ∀ v ∈ items, Throughout P v) : Throughout P (.arr items)
  | obj {members : Dict Json} (here : P (.obj members)) (parts : ∀ m ∈ members, Throughout P m.2) :
      Throughout P (.obj members)

theorem Throughout.here {P : Json → Prop} {v : Json} (h : Throughout P v) : P v := by
  cases h <;> assumption

/-- To the member at an index of an object, which has this key, or to the element at an index of an array. -/
inductive Step where
  | member (index : Nat) (key : String)
  | element (index : Nat)
  deriving DecidableEq, Repr

def step? : Json → Step → Option Json
  | .obj members, .member i key => members[i]?.bind fun m => if m.1 = key then some m.2 else none
  | .arr items, .element i => items[i]?
  | _, _ => none

/-- The value at a place, if there is one. -/
def at? (v : Json) : List Step → Option Json
  | [] => some v
  | step :: rest => (v.step? step).bind (at? · rest)

theorem at?_append (v : Json) (front back : List Step) : v.at? (front ++ back) = (v.at? front).bind (·.at? back) := by
  induction front generalizing v with
  | nil => rfl
  | cons step rest ih =>
    rw [List.cons_append, at?, at?]
    cases v.step? step with
    | none => rfl
    | some w => exact ih w

/-- What is seen from outside: scalars as they are, of an array how long it is, and of an object its keys. -/
inductive Face where
  | scalar (v : Json)
  | array (length : Nat)
  | object (keys : List String)

def face : Json → Face
  | .arr items => .array items.length
  | .obj members => .object (Dict.keys members)
  | v => .scalar v

theorem at?_scalar {v : Json} (scalar : v.isScalar = true) (step : Step) (rest : List Step) : v.at? (step :: rest) = none := by
  cases v <;> first | rfl | cases scalar

end ServerSettings.Json
