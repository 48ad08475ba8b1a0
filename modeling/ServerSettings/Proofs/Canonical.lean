import ServerSettings.Proofs.Validation
import ServerSettings.Proofs.Failures
import ServerSettings.Proofs.Json.ReadBack

/-!
# Canonical texts

What the text of a leaf is after a value was put there, said without the way the value is fitted: a text stays as it is,
a number loses what it does not need, and a switch is `true` or `false`.

* `Whole.digits_value`: the text of a number is the only numeral of that value without ornaments;
* `isOn_iff`: a switch is on for `1`, and for `true` in any letter case;
* `coerce_rendered`: what a value is fitted to has exactly one text, the canonical text of the value;
* `coerce_of_canonical`: a short value with a canonical text is fitted.
-/

namespace ServerSettings

namespace Whole

/-- The value of a numeral, however long it is. -/
def value (cs : List Char) : Int :=
  let size : Int := Nat.ofDigitChars 10 (sign cs).2 0
  if (sign cs).1 then -size else size

/-- A numeral without a plus, without zeros in front, and without a sign if it is zero. -/
structure IsBare (cs : List Char) : Prop where
  numeral : isNumeral cs = true
  unsigned : cs.head? ≠ some '+'
  unpadded : (sign cs).2.head? = some '0' → cs = ['0']

theorem isDigit_iff {c : Char} : isDigit c = true ↔ 48 ≤ c.toNat ∧ c.toNat ≤ 57 := by
  rw [isDigit, decide_eq_true_eq]
  exact Iff.rfl

theorem sign_of_digit {c : Char} (digit : isDigit c = true) (rest : List Char) :
    sign (c :: rest) = (false, c :: rest) := by
  rw [sign]
  · intro more eq
    cases eq
    cases digit
  · intro more eq
    cases eq
    cases digit

theorem isNumeral_iff {cs : List Char} :
    isNumeral cs = true ↔ (sign cs).2 ≠ [] ∧ ∀ c ∈ (sign cs).2, isDigit c = true := by
  simp [isNumeral]

theorem sign_digits (n : Int) : sign (digits n) = (decide (n < 0), Nat.toDigits 10 n.natAbs) := by
  by_cases negative : n < 0
  · rw [digits, if_pos negative, decide_eq_true negative]
    rfl
  · obtain ⟨c, more, first, digit, _⟩ := Json.toDigits_cons n.natAbs
    rw [digits, if_neg negative, decide_eq_false negative, first, sign_of_digit digit]

theorem isNumeral_digits (n : Int) : isNumeral (digits n) = true := by
  rw [isNumeral_iff, sign_digits]
  exact ⟨Nat.toDigits_ne_nil, fun c mem => Json.isDigit_toDigits mem⟩

theorem value_digits (n : Int) : value (digits n) = n := by
  rw [value, sign_digits, Nat.ofDigitChars_ten_toDigits]
  by_cases negative : n < 0
  · simp only [negative, decide_true, if_true]
    omega
  · simp only [negative, decide_false, Bool.false_eq_true, if_false]
    omega

theorem isBare_digits (n : Int) : IsBare (digits n) where
  numeral := isNumeral_digits n
  unsigned := by
    intro plus
    by_cases negative : n < 0
    · rw [digits, if_pos negative] at plus
      cases plus
    · obtain ⟨c, more, first, digit, _⟩ := Json.toDigits_cons n.natAbs
      rw [digits, if_neg negative, first] at plus
      cases plus
      cases digit
  unpadded := by
    intro zero
    rw [sign_digits] at zero
    have none_left : n = 0 := by
      have := Json.toDigits_head n.natAbs zero
      omega
    rw [none_left]
    rfl

/-- The value of a digit, which is below ten and has that digit. -/
theorem digit_value {c : Char} (digit : isDigit c = true) :
    c.toNat - '0'.toNat < 10 ∧ Nat.digitChar (c.toNat - '0'.toNat) = c := by
  have bounds := isDigit_iff.mp digit
  have zero : '0'.toNat = 48 := rfl
  have few : c.toNat - '0'.toNat < 10 := by omega
  refine ⟨few, Char.toNat_inj.mp ?_⟩
  rw [Nat.toNat_digitChar_of_lt_ten few]
  omega

/-- Digits behind the text of a number that is not zero go on with it. -/
theorem toDigits_append {n : Nat} (positive : 0 < n) {cs : List Char} (all : ∀ c ∈ cs, isDigit c = true) :
    Nat.toDigits 10 n ++ cs = Nat.toDigits 10 (Nat.ofDigitChars 10 cs n) := by
  induction cs generalizing n with
  | nil => rw [List.append_nil, Nat.ofDigitChars_nil]
  | cons c rest ih =>
    obtain ⟨few, itself⟩ := digit_value (all c List.mem_cons_self)
    have longer : 0 < 10 * n + (c.toNat - '0'.toNat) := by omega
    calc
      Nat.toDigits 10 n ++ c :: rest = Nat.toDigits 10 n ++ Nat.toDigits 10 (c.toNat - '0'.toNat) ++ rest := by
        rw [Nat.toDigits_of_lt_base few, itself, List.append_assoc, List.singleton_append]
      _ = Nat.toDigits 10 (10 * n + (c.toNat - '0'.toNat)) ++ rest := by
        rw [Nat.toDigits_append_toDigits (by decide) positive few]
      _ = Nat.toDigits 10 (Nat.ofDigitChars 10 (c :: rest) n) := by
        rw [ih longer fun d mem => all d (List.mem_cons_of_mem c mem), Nat.ofDigitChars_cons]

/-- Digits that do not begin with a zero are the text of their value. -/
theorem toDigits_ofDigitChars {c : Char} {rest : List Char} (all : ∀ d ∈ c :: rest, isDigit d = true)
    (unpadded : c ≠ '0') :
    Nat.toDigits 10 (Nat.ofDigitChars 10 (c :: rest) 0) = c :: rest ∧ 0 < Nat.ofDigitChars 10 (c :: rest) 0 := by
  obtain ⟨few, itself⟩ := digit_value (all c List.mem_cons_self)
  have positive : 0 < c.toNat - '0'.toNat := by
    apply Nat.pos_of_ne_zero
    intro zero
    rw [zero] at itself
    exact unpadded itself.symm
  have whole := toDigits_append positive fun d mem => all d (List.mem_cons_of_mem c mem)
  rw [Nat.toDigits_of_lt_base few, itself] at whole
  rw [Nat.ofDigitChars_cons, Nat.mul_zero, Nat.zero_add, ← whole]
  refine ⟨rfl, Nat.pos_of_ne_zero ?_⟩
  intro none_left
  rw [none_left] at whole
  exact unpadded (List.cons.inj whole).1

/-- A numeral without ornaments is the text of its value. -/
theorem digits_value {cs : List Char} (bare : IsBare cs) : digits (value cs) = cs := by
  obtain ⟨numeral, unsigned, unpadded⟩ := bare
  obtain ⟨given, all⟩ := isNumeral_iff.mp numeral
  obtain ⟨c, rest, size⟩ := List.exists_cons_of_ne_nil given
  by_cases zero : c = '0'
  · have single : cs = ['0'] := unpadded (by rw [size, zero]; rfl)
    rw [single]
    rfl
  · rw [size] at all
    obtain ⟨written, positive⟩ := toDigits_ofDigitChars all zero
    rw [value, size]
    cases cs with
    | nil => cases size
    | cons first more =>
      by_cases minus : first = '-'
      · subst minus
        have behind : more = c :: rest := size
        have negative : -(Nat.ofDigitChars 10 (c :: rest) 0 : Int) < 0 := by omega
        have amount : (-(Nat.ofDigitChars 10 (c :: rest) 0 : Int)).natAbs = Nat.ofDigitChars 10 (c :: rest) 0 := by
          omega
        show digits (-(Nat.ofDigitChars 10 (c :: rest) 0 : Int)) = '-' :: more
        rw [digits, if_pos negative, amount, written, behind]
      · have plain : sign (first :: more) = (false, first :: more) := by
          rw [sign]
          · intro _ eq
            exact minus (List.cons.inj eq).1
          · intro _ eq
            rw [(List.cons.inj eq).1] at unsigned
            exact unsigned rfl
        rw [plain] at size ⊢
        have same : first :: more = c :: rest := size
        have positive' : ¬(Nat.ofDigitChars 10 (c :: rest) 0 : Int) < 0 := by omega
        show digits (Nat.ofDigitChars 10 (c :: rest) 0 : Int) = first :: more
        rw [digits, if_neg positive', Int.natAbs_natCast, written, same]

end Whole

section Switches

open Text (lowerChar)

/-- The lower case of every other character is one character, and ASCII only if the character is. -/
theorem lowerChar_eq {c : Char} (kelvin : c.toNat ≠ 0x212a) (dotted : c.toNat ≠ 0x130) : lowerChar c = [c.toLower] := by
  rw [lowerChar, if_neg kelvin, if_neg dotted]

theorem lower_eq_map {s : String} (plain : ∀ c ∈ s.toList, lowerChar c = [c.toLower]) :
    Text.lower s = s.toList.map Char.toLower := by
  rw [Text.lower, List.flatMap_congr plain]
  exact List.flatMap_pure_eq_map _ _

/-- Beyond ASCII two characters have a lower case that begins with a letter of ASCII, but `true` has neither. -/
theorem lower_eq_true {s : String} :
    Text.lower s = "true".toList ↔ s.toList.map Char.toLower = "true".toList := by
  have word (c : Char) (part : c ∈ "true".toList) : c.toNat < 128 ∧ c ≠ 'k' ∧ c ≠ 'i' := by
    have each : ("true".toList.all fun d => decide (d.toNat < 128 ∧ d ≠ 'k' ∧ d ≠ 'i')) = true := by decide
    exact of_decide_eq_true (List.all_eq_true.mp each c part)
  constructor
  · intro same
    have plain : ∀ c ∈ s.toList, lowerChar c = [c.toLower] := by
      intro c mem
      have inside (d : Char) (part : d ∈ lowerChar c) : d ∈ "true".toList := by
        rw [← same]
        exact List.mem_flatMap.mpr ⟨c, mem, part⟩
      apply lowerChar_eq
      · intro kelvin
        exact (word 'k' (inside 'k' (by simp [lowerChar, kelvin]))).2.1 rfl
      · intro dotted
        exact (word 'i' (inside 'i' (by simp [lowerChar, dotted]))).2.2 rfl
    rw [← lower_eq_map plain, same]
  · intro same
    rw [lower_eq_map, same]
    intro c mem
    have ascii : c.toLower.toNat < 128 := by
      refine (word c.toLower ?_).1
      rw [← same]
      exact List.mem_map_of_mem mem
    have itself (large : 128 ≤ c.toNat) : c.toLower = c := by
      refine dif_neg ?_
      rintro ⟨-, bound⟩
      have bound : c.toNat ≤ 90 := bound
      omega
    apply lowerChar_eq
    · intro kelvin
      rw [itself (by omega)] at ascii
      omega
    · intro dotted
      rw [itself (by omega)] at ascii
      omega

/-- A switch is on for `1`, and for `true` in any letter case. -/
theorem isOn_iff {text : String} :
    isOn text = true ↔ text = "1" ∨ text.toList.map Char.toLower = "true".toList := by
  rw [isOn, Bool.or_eq_true, decide_eq_true_eq, decide_eq_true_eq, lower_eq_true]

end Switches

/-- The text of a leaf once a value was put there: a text itself, the bare numeral of what a numeral says, and `true` or
`false` for a switch. A text that is no numeral gives no number, and only a text gives a text. -/
def Kind.Canonical : Kind → Value → String → Prop
  | .text, v, shown => v = .text shown
  | .whole, v, shown => ∃ given, v.canonical = .ok given ∧ Whole.isNumeral given.toList = true ∧
      Whole.IsBare shown.toList ∧ Whole.value shown.toList = Whole.value given.toList
  | .flag, v, shown => ∃ given, v.canonical = .ok given ∧
      shown = if given = "1" ∨ given.toList.map Char.toLower = "true".toList then "true" else "false"

/-- Whole numbers in the value can be written, and it is not a numeral that is too long to be read. -/
def Value.IsShort (v : Value) : Prop :=
  ∃ given, v.canonical = .ok given ∧
    (Whole.isNumeral given.toList = true → (Whole.sign given.toList).2.length ≤ digitLimit)

theorem Whole.text_eq {n : Int} (short : isWritable n = true) : text n = .ok (String.ofList (digits n)) :=
  if_pos short

theorem Value.canonical_int {n : Int} (short : Whole.isWritable n = true) :
    (Value.int n).canonical = .ok (String.ofList (Whole.digits n)) := by
  show Whole.text n = _
  exact Whole.text_eq short

theorem Value.IsShort.isWritable {v : Value} (short : v.IsShort) {n : Int} (integer : v = .int n) :
    Whole.isWritable n = true := by
  obtain ⟨given, canonical, -⟩ := short
  rw [integer] at canonical
  by_contra long
  have refused : Whole.text n = .error .tooLarge := if_neg long
  cases refused.symm.trans canonical

section Coerce

variable {path : String} {v : Value}

theorem ofNumeral_of_length {cs : List Char} (few : (Whole.sign cs).2.length ≤ digitLimit) :
    Whole.ofNumeral cs = .ok (Whole.value cs) := by
  rw [ofNumeral_eq, if_neg (by omega)]
  rfl

theorem ofNumeral_ok {cs : List Char} {n : Int} (numeral : Whole.isNumeral cs = true) (h : Whole.ofNumeral cs = .ok n) :
    Whole.value cs = n ∧ Whole.isWritable n = true := by
  by_cases long : digitLimit < (Whole.sign cs).2.length
  · rw [ofNumeral_eq, if_pos long] at h
    cases h
  · rw [ofNumeral_of_length (by omega)] at h
    cases h
    refine ⟨rfl, Whole.isWritable_ofDigitChars (Whole.isNumeral_iff.mp numeral).2 (by omega) _ ?_⟩
    rw [Whole.value]
    cases (Whole.sign cs).1 <;> simp

/-- A whole number is fitted to itself, and everything else by its text. -/
theorem coerce_whole_eq (path : String) (v : Value) : (∃ n, v = .int n ∧ coerce path .whole v = .ok n) ∨
    coerce path .whole v = match v.canonical with
      | .error fault => .error (.number fault)
      | .ok text =>
        if Whole.isNumeral text.toList then (Whole.ofNumeral text.toList).mapError .number
        else .error (.coercion path (.notInteger text)) := by
  cases v with
  | int n => exact .inl ⟨n, rfl, rfl⟩
  | _ => exact .inr rfl

theorem whole_of_coerce {n : Int} (short : ∀ n, v = .int n → Whole.isWritable n = true)
    (h : coerce path .whole v = .ok n) : ∃ given, v.canonical = .ok given ∧ Whole.isNumeral given.toList = true ∧
      Whole.value given.toList = n ∧ Whole.isWritable n = true := by
  obtain ⟨m, rfl, itself⟩ | told := coerce_whole_eq path v
  · have same : m = n := Except.ok.inj (itself.symm.trans h)
    subst same
    have written := short m rfl
    refine ⟨_, Value.canonical_int written, ?_, ?_, written⟩
    · rw [String.toList_ofList]
      exact Whole.isNumeral_digits m
    · rw [String.toList_ofList]
      exact Whole.value_digits m
  · rw [told] at h
    cases canonical : v.canonical with
    | error fault =>
      rw [canonical] at h
      cases h
    | ok given =>
      rw [canonical] at h
      by_cases numeral : Whole.isNumeral given.toList = true
      · simp only [numeral, if_true] at h
        cases read : Whole.ofNumeral given.toList with
        | error fault =>
          rw [read] at h
          cases h
        | ok m =>
          rw [read] at h
          cases h
          obtain ⟨value, written⟩ := ofNumeral_ok numeral read
          exact ⟨given, rfl, numeral, value, written⟩
      · simp only [numeral, Bool.false_eq_true, if_false] at h
        cases h

/-- A truth value is fitted to itself, which is what its text says too. -/
theorem coerce_flag_eq (path : String) (v : Value) :
    coerce path .flag v = (v.canonical.map isOn).mapError .number := by
  by_cases switch : ∃ b, v = .bool b
  · obtain ⟨b, rfl⟩ := switch
    have named : isOn "true" = true ∧ isOn "false" = false := by decide +kernel
    cases b with
    | true => exact congrArg Except.ok named.1.symm
    | false => exact congrArg Except.ok named.2.symm
  · rw [coerce]
    exact fun b eq => switch ⟨b, eq⟩

theorem flag_of_coerce {b : Bool} (h : coerce path .flag v = .ok b) :
    ∃ given, v.canonical = .ok given ∧ isOn given = b := by
  rw [coerce_flag_eq] at h
  cases canonical : v.canonical with
  | error fault =>
    rw [canonical] at h
    cases h
  | ok given =>
    rw [canonical] at h
    cases h
    exact ⟨given, rfl, rfl⟩

/-- What a value is fitted to has exactly one text: the canonical text of the value. -/
theorem coerce_rendered {k : Kind} {content : k.Content} (short : ∀ n, v = .int n → Whole.isWritable n = true)
    (h : coerce path k v = .ok content) :
    ∃ text, k.render content = .ok text ∧ ∀ other, k.Canonical v other ↔ other = text := by
  cases k with
  | text =>
    cases v with
    | text s =>
      have same : s = content := Except.ok.inj h
      subst same
      refine ⟨s, rfl, fun other => ?_⟩
      rw [Kind.Canonical, Value.text.injEq]
      exact eq_comm
    | _ => cases h
  | whole =>
    obtain ⟨given, canonical, numeral, value, written⟩ := whole_of_coerce short h
    refine ⟨String.ofList (Whole.digits content), Whole.text_eq written, fun other => ?_⟩
    rw [Kind.Canonical]
    constructor
    · rintro ⟨again, same, -, bare, equal⟩
      rw [canonical] at same
      cases same
      rw [← value, ← equal, Whole.digits_value bare, String.ofList_toList]
    · rintro rfl
      refine ⟨given, canonical, numeral, ?_, ?_⟩
      · rw [String.toList_ofList]
        exact Whole.isBare_digits content
      · rw [String.toList_ofList, Whole.value_digits, value]
  | flag =>
    obtain ⟨given, canonical, on⟩ := flag_of_coerce h
    refine ⟨if content then "true" else "false", rfl, fun other => ?_⟩
    rw [Kind.Canonical]
    constructor
    · rintro ⟨again, same, rfl⟩
      rw [canonical] at same
      cases same
      rw [← on]
      simp only [← isOn_iff]
    · rintro rfl
      refine ⟨given, canonical, ?_⟩
      rw [← on]
      simp only [← isOn_iff]

/-- A short value with a canonical text is fitted. -/
theorem coerce_of_canonical {k : Kind} {text : String} (short : v.IsShort) (h : k.Canonical v text) :
    ∃ content, coerce path k v = .ok content := by
  obtain ⟨given, canonical, few⟩ := short
  cases k with
  | text =>
    have itself : v = .text text := h
    rw [itself]
    exact ⟨text, rfl⟩
  | whole =>
    obtain ⟨again, same, numeral, -⟩ := h
    rw [canonical] at same
    cases same
    obtain ⟨n, -, itself⟩ | told := coerce_whole_eq path v
    · exact ⟨n, itself⟩
    · refine ⟨Whole.value given.toList, ?_⟩
      rw [told, canonical]
      simp only [numeral, if_true, ofNumeral_of_length (few numeral)]
      rfl
  | flag =>
    refine ⟨isOn given, ?_⟩
    rw [coerce_flag_eq, canonical]
    rfl

/-- Fitting a short value fails of its kind only. -/
theorem title_of_coerce {k : Kind} {e : Error} (short : v.IsShort) (h : coerce path k v = .error e) :
    e.title = "CoercionError" := by
  obtain ⟨given, canonical, few⟩ := short
  cases k with
  | text =>
    cases v with
    | text s => cases h
    | _ => cases h; rfl
  | whole =>
    obtain ⟨n, -, itself⟩ | told := coerce_whole_eq path v
    · rw [itself] at h
      cases h
    · rw [told, canonical] at h
      by_cases numeral : Whole.isNumeral given.toList = true
      · simp only [numeral, if_true, ofNumeral_of_length (few numeral)] at h
        cases h
      · simp only [numeral, Bool.false_eq_true, if_false] at h
        cases h
        rfl
  | flag =>
    rw [coerce_flag_eq, canonical] at h
    cases h

/-- The text of a content is fitted to that content. -/
theorem coerce_render {k : Kind} {content : k.Content} {text : String} (h : k.render content = .ok text) :
    coerce path k (.text text) = .ok content := by
  cases k with
  | text =>
    cases h
    rfl
  | whole =>
    have written : Whole.isWritable content = true := by
      by_contra long
      have refused : Whole.text content = .error .tooLarge := if_neg long
      rw [Kind.render, refused] at h
      cases h
    have few : (Whole.sign (Whole.digits content)).2.length ≤ digitLimit := by
      rw [Whole.sign_digits]
      exact Json.length_toDigits_le (by decide) (of_decide_eq_true written)
    rw [Kind.render, Whole.text_eq written] at h
    cases h
    rw [coerce_whole, String.toList_ofList, if_pos (Whole.isNumeral_digits content), ofNumeral_of_length few,
      Whole.value_digits]
    rfl
  | flag =>
    have named : isOn "true" = true ∧ isOn "false" = false := by decide +kernel
    cases h
    cases content with
    | true => exact congrArg Except.ok named.1
    | false => exact congrArg Except.ok named.2

end Coerce

end ServerSettings
