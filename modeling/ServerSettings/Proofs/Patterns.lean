import Mathlib.Data.List.TakeWhile
import ServerSettings.Decimal.Whole
import ServerSettings.Tables

/-!
# What the patterns of the table stand for

* `matchRow_run`: a single run stands for the texts of its set whose length its bounds allow;
* `oneOf_matches`, `port_matches`, `emailPort_matches`, `keyMaterial_matches`: the texts of each pattern, said without
  patterns;
* `isNumeral_digits`: the numbers that are written with at most ten digits and no sign.
-/

namespace ServerSettings

/-- ASCII digits, at least one and at most `most`. -/
def IsNumeral (most : Nat) (cs : List Char) : Prop :=
  0 < cs.length ∧ cs.length ≤ most ∧ ∀ c ∈ cs, c.isDigit = true

instance (most : Nat) (cs : List Char) : Decidable (IsNumeral most cs) :=
  -- The characters of the text are tried, not all characters that there are.
  have : Decidable (∀ c ∈ cs, c.isDigit = true) := List.decidableBAll _ cs
  inferInstanceAs (Decidable (_ ∧ _ ∧ _))

/-- A colon and a numeral. -/
def IsPort (port : String) : Prop :=
  port.toList.head? = some ':' ∧ IsNumeral 5 port.toList.tail

instance (port : String) : Decidable (IsPort port) :=
  inferInstanceAs (Decidable (_ ∧ _))

/-- A character that may stand in a key. -/
def IsKeyCharacter (c : Char) : Prop :=
  c.isAlphanum = true ∨ c ∈ ['-', '+', '=', '/']

instance (c : Char) : Decidable (IsKeyCharacter c) :=
  inferInstanceAs (Decidable (_ ∨ _))

/-- Forty characters that may stand in a key, or more. -/
def IsKeyText (text : String) : Prop :=
  40 ≤ text.toList.length ∧ ∀ c ∈ text.toList, IsKeyCharacter c

instance (text : String) : Decidable (IsKeyText text) :=
  have : Decidable (∀ c ∈ text.toList, IsKeyCharacter c) := List.decidableBAll _ text.toList
  inferInstanceAs (Decidable (_ ∧ _))

namespace Piece

/-- A single run stands for the texts of its set whose length its bounds allow. -/
theorem matchRow_run (ranges : List (Char × Char)) (least : Nat) (most : Option Nat) (cs : List Char) :
    matchRow [.run ranges least most] cs = (allows least most cs.length && cs.all (inRanges ranges)) := by
  apply Bool.eq_iff_iff.mpr
  simp only [matchRow, List.any_eq_true, List.mem_range, Bool.and_eq_true, List.isEmpty_iff, List.drop_eq_nil_iff,
    List.all_eq_true]
  have within := (cs.takeWhile_prefix (inRanges ranges)).length_le
  constructor
  · rintro ⟨n, short, allowed, long⟩
    have whole : n = cs.length := by omega
    have all : cs.takeWhile (inRanges ranges) = cs :=
      (cs.takeWhile_prefix (inRanges ranges)).eq_of_length (by omega)
    exact ⟨whole ▸ allowed, List.takeWhile_eq_self_iff.mp all⟩
  · rintro ⟨allowed, all⟩
    have whole := List.takeWhile_eq_self_iff.mpr all
    exact ⟨cs.length, by rw [whole]; omega, allowed, Nat.le_refl _⟩

theorem matchRow_char (c : Char) (rest : List Piece) (cs : List Char) :
    matchRow (.char c :: rest) cs = true ↔ cs.head? = some c ∧ matchRow rest cs.tail = true := by
  cases cs with
  | nil => simp [matchRow]
  | cons d cs =>
    rw [matchRow, Bool.and_eq_true, decide_eq_true_eq, List.head?_cons, Option.some_inj, eq_comm]
    exact Iff.rfl

/-- A row of single characters stands for one text. -/
theorem matchRow_word (word cs : List Char) : matchRow (word.map .char) cs = true ↔ cs = word := by
  induction word generalizing cs with
  | nil => simp [matchRow]
  | cons c word ih =>
    rw [List.map_cons, matchRow_char, ih]
    cases cs with
    | nil => simp
    | cons d cs => simp

theorem inRanges_digits (c : Char) : inRanges Tables.decimalDigits c = c.isDigit := by
  simp [inRanges, Tables.decimalDigits, Char.isDigit, Char.le_def]

theorem inRanges_key (c : Char) :
    inRanges [('-', '-'), ('A', 'Z'), ('a', 'z'), ('0', '9'), ('+', '+'), ('=', '='), ('/', '/')] c = true ↔
      IsKeyCharacter c := by
  have single (d : Char) : d ≤ c ∧ c ≤ d ↔ c = d := by
    rw [and_comm]
    exact antisymm_iff
  have letters : c.isAlphanum = true ↔ ('A' ≤ c ∧ c ≤ 'Z' ∨ 'a' ≤ c ∧ c ≤ 'z') ∨ '0' ≤ c ∧ c ≤ '9' := by
    have parts : c.isAlphanum = ((decide ('A' ≤ c ∧ c ≤ 'Z') || (decide ('a' ≤ c) && decide (c ≤ 'z'))) ||
      (decide ('0' ≤ c) && decide (c ≤ '9'))) := rfl
    simp only [parts, Bool.or_eq_true, Bool.and_eq_true, decide_eq_true_eq]
  simp only [inRanges, IsKeyCharacter, letters, List.any_cons, List.any_nil, single, List.mem_cons, List.not_mem_nil,
    Bool.or_eq_true, decide_eq_true_eq, Bool.false_eq_true, or_false]
  grind

theorem matchRow_digits (most : Nat) (cs : List Char) :
    matchRow [.run Tables.decimalDigits 1 (some most)] cs = true ↔ IsNumeral most cs := by
  rw [matchRow_run, Bool.and_eq_true, List.all_eq_true]
  simp only [inRanges_digits, allows, IsNumeral, Option.all_some, Bool.and_eq_true, decide_eq_true_eq, and_assoc]
  exact Iff.rfl

end Piece

namespace Pattern

theorem oneOf_matches (words : List String) (value : String) :
    (oneOf words).matches? value = true ↔ value ∈ words := by
  simp only [oneOf, matches?, List.any_map, List.any_eq_true, Function.comp_apply, Piece.matchRow_word,
    String.toList_inj]
  simp

theorem port_matches (value : String) :
    matches? ⟨[[.char ':', .run Tables.decimalDigits 1 (some 5)]]⟩ value = true ↔ IsPort value := by
  simp only [matches?, List.any_cons, List.any_nil, Bool.or_false, Piece.matchRow_char, Piece.matchRow_digits]
  exact Iff.rfl

theorem emailPort_matches (value : String) :
    matches? ⟨[[], [.run Tables.decimalDigits 1 (some 5)]]⟩ value = true ↔ value = "" ∨ IsNumeral 5 value.toList := by
  simp only [matches?, List.any_cons, List.any_nil, Bool.or_false, Bool.or_eq_true, Piece.matchRow_digits]
  simp [Piece.matchRow]

theorem keyMaterial_matches (value : String) : Tables.keyMaterial.matches? value = true ↔ IsKeyText value := by
  rw [Tables.keyMaterial, matches?, List.any_cons, List.any_nil, Bool.or_false, Piece.matchRow_run,
    Bool.and_eq_true, List.all_eq_true]
  simp only [Piece.inRanges_key, Piece.allows, Option.all_none, Bool.and_true, decide_eq_true_eq]
  exact Iff.rfl

/-- The numbers that are written with at most ten digits and no sign. -/
theorem isNumeral_digits (n : Int) : IsNumeral 10 (Whole.digits n) ↔ 0 ≤ n ∧ n < 10000000000 := by
  have length := Nat.length_toDigits_le_iff (b := 10) (k := 10) (n := n.natAbs) (by decide) (by decide)
  unfold Whole.digits IsNumeral
  by_cases negative : n < 0
  · simp only [negative, if_true]
    constructor
    · rintro ⟨_, _, digits⟩
      exact absurd (digits '-' List.mem_cons_self) (by decide)
    · omega
  · simp only [negative, if_false, length]
    constructor
    · rintro ⟨_, small, _⟩
      omega
    · intro bounds
      refine ⟨List.length_pos_iff.mpr Nat.toDigits_ne_nil, by omega, fun c mem => ?_⟩
      exact Nat.isDigit_of_mem_toDigits (by decide) (by decide) mem

end Pattern

/-- The table has the pattern of keys for every key. -/
theorem Tables.key_listed {f : TextSetting} (mem : f ∈ keys) : (Leaf.text f, keyMaterial) ∈ patterns := by
  simp only [keys, List.mem_cons, List.not_mem_nil, or_false] at mem
  rcases mem with rfl | rfl | rfl <;> simp [patterns]

end ServerSettings
