import ServerSettings.Json.Reader
import ServerSettings.Json.Writer
import ServerSettings.Proofs.Dict

/-!
# What reading gives

* `readChars_closed`: a property of scalars that containers inherit holds of every value that is read;
* `distinct_of_readChars`: no object that was read has a name twice;
* `isWritable_of_readChars`: whole numbers that were read can be written.
-/

namespace ServerSettings

theorem bind_ok {ε α β : Type} {x : Except ε α} {f : α → Except ε β} {b : β} (h : x >>= f = .ok b) :
    ∃ a, x = .ok a ∧ f a = .ok b := by
  cases x with
  | error e => cases h
  | ok a => exact ⟨a, rfl, h⟩

theorem map_ok {ε α β : Type} {x : Except ε α} {f : α → β} {b : β} (h : x.map f = .ok b) :
    ∃ a, x = .ok a ∧ f a = b := by
  cases x with
  | error e => cases h
  | ok a => exact ⟨a, rfl, Except.ok.inj h⟩

theorem bind_error {ε α β : Type} {x : Except ε α} {f : α → Except ε β} {e : ε} (h : x >>= f = .error e) :
    x = .error e ∨ ∃ a, x = .ok a ∧ f a = .error e := by
  cases x with
  | error e' =>
    cases h
    exact .inl rfl
  | ok a => exact .inr ⟨a, rfl, h⟩

theorem map_error {ε α β : Type} {x : Except ε α} {f : α → β} {e : ε} (h : x.map f = .error e) : x = .error e := by
  cases x with
  | error e' =>
    cases h
    rfl
  | ok a => cases h

/-- What can be evaluated to a result has it. -/
theorem ok_of_toOption {ε α : Type} {x : Except ε α} {a : α} (h : x.toOption = some a) : x = .ok a := by
  cases x with
  | error e => cases h
  | ok b => rw [Option.some.inj h]

section Digits

variable {cs : List Char}

theorem Whole.ofDigitChars_lt (all : ∀ c ∈ cs, isDigit c = true) (size : Nat) :
    Nat.ofDigitChars 10 cs size < Nat.pow 10 cs.length * (size + 1) := by
  induction cs generalizing size with
  | nil => simp
  | cons c rest ih =>
    have digit : c.toNat - '0'.toNat < 10 := by
      have bounds := all c List.mem_cons_self
      simp only [isDigit, decide_eq_true_eq, Char.le_def, UInt32.le_iff_toNat_le] at bounds
      have low : '0'.val.toNat = 48 := rfl
      have high : '9'.val.toNat = 57 := rfl
      have zero : '0'.toNat = 48 := rfl
      have value : c.toNat = c.val.toNat := rfl
      omega
    have later := ih (fun d mem => all d (List.mem_cons_of_mem c mem)) (10 * size + (c.toNat - '0'.toNat))
    have longer : Nat.pow 10 (rest.length + 1) = Nat.pow 10 rest.length * 10 := rfl
    rw [Nat.ofDigitChars_cons, List.length_cons, longer, Nat.mul_assoc]
    refine Nat.lt_of_lt_of_le later (Nat.mul_le_mul_left _ ?_)
    omega

theorem Whole.pow_le {few many : Nat} (h : few ≤ many) : Nat.pow 10 few ≤ Nat.pow 10 many :=
  Nat.pow_le_pow_right (by decide) h

/-- A number of few digits can be written. -/
theorem Whole.isWritable_ofDigitChars (all : ∀ c ∈ cs, isDigit c = true) (few : cs.length ≤ digitLimit) (n : Int)
    (size : n.natAbs = Nat.ofDigitChars 10 cs 0) : isWritable n = true := by
  have bound := ofDigitChars_lt all 0
  rw [Nat.zero_add, Nat.mul_one] at bound
  have small := Nat.lt_of_lt_of_le bound (pow_le few)
  rw [← size] at small
  exact decide_eq_true small

end Digits

namespace Json

/-- No object in the value has a name twice. -/
inductive Distinct : Json → Prop
  | null : Distinct .null
  | bool (b : Bool) : Distinct (.bool b)
  | int (n : Int) : Distinct (.int n)
  | float (x : Binary64) : Distinct (.float x)
  | str (s : String) : Distinct (.str s)
  | arr {items : List Json} (parts : ∀ v ∈ items, Distinct v) : Distinct (.arr items)
  | obj {members : Dict Json} (once : Dict.Distinct members) (parts : ∀ entry ∈ members, Distinct entry.2) :
      Distinct (.obj members)

/-- A property of scalars that containers inherit from their parts; whole numbers have at most as many digits
as the limit says. -/
structure Closed (limits : Limits) (P : Json → Prop) : Prop where
  null : P .null
  bool (b : Bool) : P (.bool b)
  float (x : Binary64) : P (.float x)
  str (s : String) : P (.str s)
  int (n : Int) (cs : List Char) (all : ∀ c ∈ cs, Whole.isDigit c = true)
    (few : ∀ k, limits.digits = some k → cs.length ≤ k) (size : n.natAbs = Nat.ofDigitChars 10 cs 0) : P (.int n)
  arr (items : List Json) (parts : ∀ v ∈ items, P v) : P (.arr items)
  obj (members : Dict Json) (parts : ∀ entry ∈ members, P entry.2) : P (.obj (Dict.ofList members))

section Closed

variable {limits : Limits} {P : Json → Prop}

theorem readWord?_closed (closed : Closed limits P) {cs rest : List Char} {v : Json}
    (h : readWord? cs = some (v, rest)) : P v := by
  obtain ⟨w, mem, found⟩ := List.exists_of_findSome?_eq_some h
  obtain ⟨_, _, eq⟩ := Option.map_eq_some_iff.mp found
  have word : w.2 = v := congrArg Prod.fst eq
  rw [← word]
  simp only [words, List.mem_cons, List.not_mem_nil, or_false] at mem
  rcases mem with rfl | rfl | rfl | rfl | rfl | rfl
  · exact closed.null
  · exact closed.bool true
  · exact closed.bool false
  · exact closed.float _
  · exact closed.float _
  · exact closed.float _

theorem readWhole_digits {cs digits rest : List Char} (h : readWhole cs = some (digits, rest)) :
    ∀ c ∈ digits, Whole.isDigit c = true := by
  unfold readWhole at h
  split at h
  · cases h
    intro c mem
    rw [List.mem_singleton.mp mem]
    rfl
  · split at h
    · cases h
      intro c mem
      exact List.all_eq_true.mp List.all_takeWhile c mem
    · cases h
  · cases h

theorem readNumber_closed (closed : Closed limits P) {cs rest : List Char} {v : Json}
    (h : readNumber limits cs = .ok (v, rest)) : P v := by
  have signed (negative : Bool) (n : Nat) : (if negative = true then -(n : Int) else n).natAbs = n := by
    cases negative <;> simp
  unfold readNumber at h
  simp only at h
  split at h
  · cases h
  · next digits behind whole =>
    split at h
    · cases h
      exact closed.float _
    · split at h
      · cases h
      · next within =>
        cases h
        refine closed.int _ digits (readWhole_digits whole) ?_ (signed _ _)
        intro k limit
        rw [limit] at within
        simpa using within

/-- The property holds of what the readers give within so many steps. -/
structure ReadsWithin (limits : Limits) (P : Json → Prop) (fuel : Nat) : Prop where
  value : ∀ depth cs v rest, readValue limits fuel depth cs = .ok (v, rest) → P v
  members : ∀ depth cs members rest, readMembers limits fuel depth cs = .ok (members, rest) →
    ∀ entry ∈ members, P entry.2
  items : ∀ depth cs items rest, readItems limits fuel depth cs = .ok (items, rest) → ∀ v ∈ items, P v

variable {fuel depth : Nat} {cs rest : List Char}

theorem readValue_step (closed : Closed limits P) (within : ReadsWithin limits P fuel) {v : Json}
    (h : readValue limits (fuel + 1) depth cs = .ok (v, rest)) : P v := by
  unfold readValue at h
  split at h
  · obtain ⟨_, _, eq⟩ := map_ok h
    cases eq
    exact closed.str _
  · split at h
    · cases h
    split at h
    · cases h
      exact closed.obj [] (by simp)
    · obtain ⟨⟨found, _⟩, read, eq⟩ := map_ok h
      cases eq
      exact closed.obj found (within.members _ _ _ _ read)
  · split at h
    · cases h
    split at h
    · cases h
      exact closed.arr [] (by simp)
    · obtain ⟨⟨found, _⟩, read, eq⟩ := map_ok h
      cases eq
      exact closed.arr found (within.items _ _ _ _ read)
  · split at h
    · next word =>
      cases h
      exact readWord?_closed closed word
    · exact readNumber_closed closed h

theorem readMembers_step (within : ReadsWithin limits P fuel) {members : Dict Json}
    (h : readMembers limits (fuel + 1) depth cs = .ok (members, rest)) : ∀ entry ∈ members, P entry.2 := by
  unfold readMembers at h
  split at h
  · obtain ⟨⟨key, behind⟩, _, h⟩ := bind_ok h
    simp only at h
    split at h
    · obtain ⟨⟨v, behind⟩, read, h⟩ := bind_ok h
      have first := within.value _ _ _ _ read
      simp only at h
      split at h
      · cases h
        simpa using first
      · obtain ⟨⟨more, behind⟩, later, h⟩ := bind_ok h
        cases h
        simpa using And.intro first (within.members _ _ _ _ later)
      · cases h
    · cases h
  · cases h

theorem readItems_step (within : ReadsWithin limits P fuel) {items : List Json}
    (h : readItems limits (fuel + 1) depth cs = .ok (items, rest)) : ∀ v ∈ items, P v := by
  unfold readItems at h
  obtain ⟨⟨v, behind⟩, read, h⟩ := bind_ok h
  have first := within.value _ _ _ _ read
  simp only at h
  split at h
  · cases h
    simpa using first
  · obtain ⟨⟨more, behind⟩, later, h⟩ := bind_ok h
    cases h
    simpa using And.intro first (within.items _ _ _ _ later)
  · cases h

theorem reads_within (closed : Closed limits P) (fuel : Nat) : ReadsWithin limits P fuel := by
  induction fuel with
  | zero =>
    constructor
    · intro depth cs v rest h
      simp [readValue] at h
    · intro depth cs members rest h
      simp [readMembers] at h
    · intro depth cs items rest h
      simp [readItems] at h
  | succ fuel ih =>
    constructor
    · intro depth cs v rest h
      exact readValue_step closed ih h
    · intro depth cs members rest h
      exact readMembers_step ih h
    · intro depth cs items rest h
      exact readItems_step ih h

theorem readChars_closed (closed : Closed limits P) {cs : List Char} {v : Json}
    (h : readChars limits cs = .ok v) : P v := by
  obtain ⟨⟨value, rest⟩, first, h⟩ := bind_ok h
  simp only at h
  split at h
  · cases h
    exact (reads_within closed _).value _ _ _ _ first
  · cases h

end Closed

/-- An object that was read has every name once, however often its text has it. -/
theorem distinct_of_readChars {limits : Limits} {cs : List Char} {v : Json} (h : readChars limits cs = .ok v) :
    Distinct v := by
  have closed : Closed limits Distinct :=
    { null := .null, bool := .bool, float := .float, str := .str
      int := fun n _ _ _ _ => .int n
      arr := fun _ parts => .arr parts
      obj := fun members parts => .obj (Dict.distinct_ofList members) fun entry mem =>
        parts entry (Dict.mem_of_mem_ofList mem) }
  exact readChars_closed closed h

theorem areWritable_eq (items : List Json) : areWritable items = items.all isWritable := by
  induction items with
  | nil => rfl
  | cons v rest ih => rw [areWritable, ih, List.all_cons]

theorem membersAreWritable_eq (members : Dict Json) : membersAreWritable members = members.all (isWritable ·.2) := by
  induction members with
  | nil => rfl
  | cons entry rest ih => rw [membersAreWritable, ih, List.all_cons]

/-- Under the usual limit every whole number that was read can be written. -/
theorem isWritable_of_readChars {limits : Limits} (bounded : limits.digits = some digitLimit) {cs : List Char}
    {v : Json} (h : readChars limits cs = .ok v) : isWritable v = true := by
  have closed : Closed limits (isWritable · = true) :=
    { null := rfl, bool := fun _ => rfl, float := fun _ => rfl, str := fun _ => rfl
      int := fun n cs all few size => Whole.isWritable_ofDigitChars all (few _ bounded) n size
      arr := fun items parts => by
        rw [isWritable, areWritable_eq]
        exact List.all_eq_true.mpr parts
      obj := fun members parts => by
        rw [isWritable, membersAreWritable_eq]
        exact List.all_eq_true.mpr fun entry mem => parts entry (Dict.mem_of_mem_ofList mem) }
  exact readChars_closed closed h

end Json

end ServerSettings
