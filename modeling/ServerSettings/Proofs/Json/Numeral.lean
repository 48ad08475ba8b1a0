import ServerSettings.Proofs.Json.ReadBack

/-!
# Numbers in texts

A numeral is a whole part, which begins with a zero only if it is one, with digits behind a point and an exponent, either
of which may be missing. The text of every finite number is a numeral with a point or an exponent, and so it is read as
a number with fractions.

* `readNumber_numeral`: a numeral with a point or an exponent is read as its value;
* `shortest_zero`: the digits of a number are never zeros with an exponent;
* `text_numeral`: the text of a finite number is a numeral.
-/

namespace ServerSettings

namespace Json

/-- Without digits behind it there is neither a point nor the mark of an exponent. -/
structure Numeral where
  negative : Bool
  whole : List Char
  places : List Char := []
  mark : Char := 'e'
  sign : List Char := []
  exponent : List Char := []
  whole_digits : ∀ c ∈ whole, Whole.isDigit c = true
  whole_begins : ∃ c rest, whole = c :: rest ∧ (c = '0' → rest = [])
  places_digits : ∀ c ∈ places, Whole.isDigit c = true
  mark_letter : mark = 'e' ∨ mark = 'E'
  sign_known : sign = [] ∨ sign = ['+'] ∨ sign = ['-']
  exponent_digits : ∀ c ∈ exponent, Whole.isDigit c = true

namespace Numeral

def minus (n : Numeral) : List Char :=
  if n.negative then ['-'] else []

def fraction (n : Numeral) : List Char :=
  if n.places = [] then [] else '.' :: n.places

def power (n : Numeral) : List Char :=
  if n.exponent = [] then [] else n.mark :: (n.sign ++ n.exponent)

def text (n : Numeral) : List Char :=
  n.minus ++ (n.whole ++ (n.fraction ++ n.power))

/-- Does the numeral have a point or an exponent? -/
def IsFractional (n : Numeral) : Prop :=
  n.places ≠ [] ∨ n.exponent ≠ []

def exponentValue (n : Numeral) : Int :=
  let size : Int := Nat.ofDigitChars 10 n.exponent 0
  if n.sign = ['-'] then -size else size

def value (n : Numeral) : Binary64 :=
  .ofDecimal n.negative (Nat.ofDigitChars 10 (n.whole ++ n.places) 0) (n.exponentValue - n.places.length)

variable (n : Numeral) {rest : List Char}

/-- No digit follows the whole part, nor the digits behind the point. -/
theorem power_stops (ends : Ends rest) : ∀ c, (n.power ++ rest).head? = some c → Whole.isDigit c = false := by
  intro c first
  rw [power] at first
  split at first
  · exact ends.stops c first
  · cases first
    rcases n.mark_letter with letter | letter <;> rw [letter] <;> rfl

theorem fraction_stops (ends : Ends rest) :
    ∀ c, (n.fraction ++ (n.power ++ rest)).head? = some c → Whole.isDigit c = false := by
  intro c first
  rw [fraction] at first
  split at first
  · exact n.power_stops ends c first
  · cases first
    rfl

theorem readWhole_append (stops : ∀ c, rest.head? = some c → Whole.isDigit c = false) :
    readWhole (n.whole ++ rest) = some (n.whole, rest) := by
  have span := spanDigits_append n.whole_digits stops
  obtain ⟨c, more, begins, single⟩ := n.whole_begins
  by_cases zero : c = '0'
  · rw [begins, single zero, zero]
    rfl
  · have digit : Whole.isDigit c = true := n.whole_digits c (by rw [begins]; exact List.mem_cons_self)
    rw [begins, List.cons_append] at span ⊢
    rw [readWhole, if_pos digit, span]
    exact zero

theorem readFraction_append (ends : Ends rest) :
    readFraction (n.fraction ++ (n.power ++ rest)) =
      if n.places = [] then none else some (n.places, n.power ++ rest) := by
  have span := spanDigits_append n.places_digits (n.power_stops ends)
  have digits := n.places_digits
  rw [fraction]
  generalize n.places = places at span digits
  cases places with
  | nil =>
    rw [if_pos rfl, if_pos rfl, List.nil_append, power]
    split
    · exact readFraction_ends ends
    · have other : n.mark ≠ '.' := by
        rcases n.mark_letter with letter | letter <;> rw [letter] <;> decide
      rw [List.cons_append, readFraction]
      exact fun _ _ eq => other (List.cons.inj eq).1
  | cons c more =>
    have digit : Whole.isDigit c = true := digits c List.mem_cons_self
    rw [if_neg (List.cons_ne_nil c more), if_neg (List.cons_ne_nil c more)]
    rw [List.cons_append] at span
    rw [List.cons_append, List.cons_append, readFraction, if_pos digit, span]

theorem readExponent_append (ends : Ends rest) :
    readExponent (n.power ++ rest) = if n.exponent = [] then none else some (n.exponentValue, rest) := by
  have span := spanDigits_append n.exponent_digits ends.stops
  rw [power]
  split
  · exact readExponent_ends ends
  · next given =>
    obtain ⟨c, more, first⟩ := List.exists_cons_of_ne_nil given
    have digit : Whole.isDigit c = true := n.exponent_digits c (by rw [first]; exact List.mem_cons_self)
    have filled : n.exponent.isEmpty = false := by rw [first]; rfl
    rw [exponentValue]
    rcases n.sign_known with sign | sign | sign
    · have unsigned : ∀ mark ∈ ['-', '+'], ∀ more, n.exponent ++ rest ≠ mark :: more := by
        rintro mark mem _ eq
        rw [first] at eq
        rw [(List.cons.inj eq).1] at digit
        simp only [List.mem_cons, List.not_mem_nil, or_false] at mem
        rcases mem with rfl | rfl <;> cases digit
      rw [sign, List.nil_append, List.cons_append, readExponent, if_pos n.mark_letter]
      · simp [span, filled]
      · exact unsigned '-' (by decide)
      · exact unsigned '+' (by decide)
    · rw [sign, List.cons_append, List.append_assoc, List.singleton_append, readExponent, if_pos n.mark_letter]
      simp [span, filled]
    · rw [sign, List.cons_append, List.append_assoc, List.singleton_append, readExponent, if_pos n.mark_letter]
      simp [span, filled]

/-- A numeral begins with its sign or with a digit. -/
theorem text_cases (rest : List Char) :
    (n.negative = true ∧ n.text ++ rest = '-' :: (n.whole ++ (n.fraction ++ (n.power ++ rest)))) ∨
      (n.negative = false ∧ n.text ++ rest = n.whole ++ (n.fraction ++ (n.power ++ rest)) ∧
        ∃ c more, n.text ++ rest = c :: more ∧ Whole.isDigit c = true) := by
  rw [text, minus, List.append_assoc, List.append_assoc, List.append_assoc]
  cases n.negative with
  | true => exact .inl ⟨rfl, rfl⟩
  | false =>
    obtain ⟨c, more, begins, _⟩ := n.whole_begins
    have digit : Whole.isDigit c = true := n.whole_digits c (by rw [begins]; exact List.mem_cons_self)
    exact .inr ⟨rfl, rfl, c, _, by rw [begins]; rfl, digit⟩

end Numeral

/-- A numeral with a point or an exponent is read as its value. -/
theorem readNumber_numeral (limits : Limits) {n : Numeral} (fractional : n.IsFractional) {rest : List Char}
    (ends : Ends rest) : readNumber limits (n.text ++ rest) = .ok (.float n.value, rest) := by
  have whole := n.readWhole_append (n.fraction_stops ends)
  have fraction := n.readFraction_append ends
  have power := n.readExponent_append ends
  have parts : readNumber limits (n.text ++ rest) =
      let places := (readFraction (n.fraction ++ (n.power ++ rest))).getD ([], n.fraction ++ (n.power ++ rest))
      let exponent := (readExponent places.2).getD (0, places.2)
      if (readFraction (n.fraction ++ (n.power ++ rest))).isSome ∨ (readExponent places.2).isSome then
        .ok (.float (.ofDecimal n.negative (Nat.ofDigitChars 10 (n.whole ++ places.1) 0)
          (exponent.1 - places.1.length)), exponent.2)
      else if limits.digits.any (· < n.whole.length) then .error (.tooManyDigits n.whole.length)
      else
        let size : Int := Nat.ofDigitChars 10 n.whole 0
        .ok (.int (if n.negative then -size else size), exponent.2) := by
    rcases n.text_cases rest with ⟨minus, begins⟩ | ⟨plain, begins, c, more, first, digit⟩
    · rw [begins, minus, readNumber]
      simp only [whole]
    · have other : ∀ more', n.text ++ rest ≠ '-' :: more' := by
        intro more' eq
        rw [first] at eq
        rw [(List.cons.inj eq).1] at digit
        cases digit
      rw [readNumber.eq_def]
      split
      next sign =>
        split at sign
        · next eq => exact absurd eq (other _)
        · cases sign
          simp only [begins, plain, whole]
  rw [parts]
  simp only [fraction]
  by_cases pointed : n.places = []
  · have marked : n.exponent ≠ [] := fractional.resolve_left fun given => given pointed
    have none_there : n.fraction = [] := by rw [Numeral.fraction, if_pos pointed]
    rw [if_neg marked] at power
    simp [pointed, none_there, power, Numeral.value]
  · by_cases marked : n.exponent = []
    · have zero : n.exponentValue = 0 := by simp [Numeral.exponentValue, marked]
      have none_there : n.power = [] := by rw [Numeral.power, if_pos marked]
      rw [if_pos marked, none_there, List.nil_append] at power
      simp [pointed, none_there, power, Numeral.value, zero]
    · rw [if_neg marked] at power
      simp [pointed, power, Numeral.value]

end Json

namespace Binary64

open Json (Numeral)

section Digits

/-- Zero is not among the numbers that round to a number above zero. -/
theorem onGrid?_pos {n : Neighbourhood} (positive : 0 < n.low) {exponent : Int} {d : Nat}
    (h : n.onGrid? exponent = some d) : d ≠ 0 := by
  have nothing : n.holds 0 exponent = false := by
    have scaled : 0 < n.low * Nat.pow 10 (-exponent).toNat := Nat.mul_pos positive (Nat.pow_pos (by decide))
    rw [Neighbourhood.holds, Nat.zero_mul, Nat.zero_mul]
    split
    · exact decide_eq_false fun inside => absurd inside.1 (by omega)
    · exact decide_eq_false fun inside => absurd inside.1 (by omega)
  rintro rfl
  unfold Neighbourhood.onGrid? at h
  simp only at h
  split at h
  · next holds =>
    rw [Option.some.inj h, nothing] at holds
    cases holds
  split at h
  · next holds =>
    rw [Option.some.inj h, nothing] at holds
    cases holds
  split at h
  · next holds =>
    rw [Option.some.inj h, nothing] at holds
    cases holds
  · cases h

theorem neighbourhood_shortest_zero {n : Neighbourhood} (positive : 0 < n.low) {top : Int} {left digits : Nat}
    (zero : (n.shortest top left digits).1 = 0) : (n.shortest top left digits).2 = 0 := by
  induction left generalizing digits with
  | zero => rfl
  | succ left ih =>
    rw [Neighbourhood.shortest] at zero ⊢
    split at zero
    · next hit => exact absurd zero (onGrid?_pos positive hit)
    · exact ih zero

theorem dropZeros_zero {fuel : Nat} {p : Nat × Int} (zero : (dropZeros fuel p).1 = 0) : dropZeros fuel p = p := by
  induction fuel generalizing p with
  | zero => rfl
  | succ fuel ih =>
    obtain ⟨d, e⟩ := p
    rw [dropZeros] at zero ⊢
    split at zero
    · next more =>
      have same := ih zero
      rw [same] at zero
      exact absurd zero (by simp only; omega)
    · next done => rw [if_neg done]

/-- If the digits of a number above zero are none but a zero, there is no exponent. -/
theorem shortest_zero {m : Nat} (positive : m ≠ 0) {e : Int} (zero : (shortest m e).1 = 0) : (shortest m e).2 = 0 := by
  have low : 0 < (neighbourhood m e).low := by
    refine Nat.mul_pos ?_ (Nat.pow_pos (by decide))
    split <;> omega
  rw [shortest] at zero ⊢
  have kept := dropZeros_zero zero
  rw [kept] at zero ⊢
  exact neighbourhood_shortest_zero low zero

end Digits

section Texts

open Json (isDigit_toDigits toDigits_cons)

variable (negative : Bool) {digits : List Char} {c : Char} {more : List Char}

theorem isDigit_replicate {count : Nat} : ∀ c ∈ List.replicate count '0', Whole.isDigit c = true := by
  intro c mem
  rw [List.eq_of_mem_replicate mem]
  rfl

/-- Digits that begin with a zero only if they are one, written out. -/
theorem positional_numeral {places : Int} (all : ∀ c ∈ digits, Whole.isDigit c = true) (begins : digits = c :: more)
    (single : c = '0' → more = [] ∧ places ≤ 1) :
    ∃ n : Numeral, n.negative = negative ∧ n.text = n.minus ++ positional digits places ∧ n.IsFractional := by
  have zero : ∀ c ∈ ['0'], Whole.isDigit c = true := List.forall_mem_singleton.mpr rfl
  rw [positional]
  split
  · next small =>
    let n : Numeral :=
      { negative, whole := ['0'], places := List.replicate (-places).toNat '0' ++ digits
        whole_digits := zero
        whole_begins := ⟨'0', [], rfl, fun _ => rfl⟩
        places_digits := List.forall_mem_append.mpr ⟨isDigit_replicate, all⟩
        mark_letter := .inl rfl
        sign_known := .inl rfl
        exponent_digits := fun _ mem => absurd mem List.not_mem_nil }
    have given : n.places ≠ [] := by simp [n, begins]
    refine ⟨n, rfl, ?_, .inl given⟩
    rw [Numeral.text, Numeral.fraction, if_neg given]
    simp [n, Numeral.power]
  · next large =>
    dsimp only
    split
    · next short =>
      let n : Numeral :=
        { negative, whole := digits ++ List.replicate (places.toNat - digits.length) '0', places := ['0']
          whole_digits := List.forall_mem_append.mpr ⟨all, isDigit_replicate⟩
          whole_begins := by
            refine ⟨c, more ++ List.replicate (places.toNat - digits.length) '0', by rw [begins]; rfl, fun zero => ?_⟩
            obtain ⟨nothing, one⟩ := single zero
            have filled : places.toNat - digits.length = 0 := by
              rw [begins, nothing, List.length_singleton]
              omega
            rw [nothing, filled]
            rfl
          places_digits := zero
          mark_letter := .inl rfl
          sign_known := .inl rfl
          exponent_digits := fun _ mem => absurd mem List.not_mem_nil }
      refine ⟨n, rfl, ?_, .inl (List.cons_ne_nil _ _)⟩
      simp [n, Numeral.text, Numeral.fraction, Numeral.power]
    · next long =>
      let n : Numeral :=
        { negative, whole := digits.take places.toNat, places := digits.drop places.toNat
          whole_digits := fun c mem => all c (List.mem_of_mem_take mem)
          whole_begins := by
            obtain ⟨count, behind⟩ : ∃ count, places.toNat = count + 1 := ⟨places.toNat - 1, by omega⟩
            refine ⟨c, more.take count, by rw [begins, behind, List.take_succ_cons], fun zero => ?_⟩
            rw [(single zero).1, List.take_nil]
          places_digits := fun c mem => all c (List.mem_of_mem_drop mem)
          mark_letter := .inl rfl
          sign_known := .inl rfl
          exponent_digits := fun _ mem => absurd mem List.not_mem_nil }
      have given : n.places ≠ [] := by
        simp only [n, ne_eq, List.drop_eq_nil_iff]
        omega
      refine ⟨n, rfl, ?_, .inl given⟩
      rw [Numeral.text, Numeral.fraction, if_neg given]
      simp [n, Numeral.power]

/-- Digits with an exponent. -/
theorem scientific_numeral (top : Int) (all : ∀ c ∈ digits, Whole.isDigit c = true) (begins : digits = c :: more) :
    ∃ n : Numeral, n.negative = negative ∧ n.text = n.minus ++ scientific digits top ∧ n.IsFractional := by
  have size := fun c mem => isDigit_toDigits (n := top.natAbs) (c := c) mem
  have padded : ∀ c ∈ '0' :: Nat.toDigits 10 top.natAbs, Whole.isDigit c = true := List.forall_mem_cons.mpr ⟨rfl, size⟩
  let exponent := if (Nat.toDigits 10 top.natAbs).length < 2 then '0' :: Nat.toDigits 10 top.natAbs
    else Nat.toDigits 10 top.natAbs
  have marked : exponentText 'e' top = 'e' :: (if top < 0 then '-' else '+') :: exponent := rfl
  have given : exponent ≠ [] := by
    simp only [exponent]
    split
    · exact List.cons_ne_nil _ _
    · exact Nat.toDigits_ne_nil
  let n : Numeral :=
    { negative, whole := [c], places := more, sign := [if top < 0 then '-' else '+'], exponent
      whole_digits := List.forall_mem_singleton.mpr (all c (by rw [begins]; exact List.mem_cons_self))
      whole_begins := ⟨c, [], rfl, fun _ => rfl⟩
      places_digits := fun d mem => all d (by rw [begins]; exact List.mem_cons_of_mem c mem)
      mark_letter := .inl rfl
      sign_known := by split <;> simp
      exponent_digits := by
        simp only [exponent]
        split
        · exact padded
        · exact size }
  refine ⟨n, rfl, ?_, .inr given⟩
  rw [Numeral.text, Numeral.power, if_neg given, begins]
  cases more with
  | nil => simp [n, Numeral.fraction, scientific, marked]
  | cons d rest => simp [n, Numeral.fraction, scientific, marked]

theorem magnitudeText_numeral (m : Nat) (e : Int) :
    ∃ n : Numeral, n.negative = negative ∧ n.text = n.minus ++ magnitudeText m e ∧ n.IsFractional := by
  rw [magnitudeText]
  split
  · exact @positional_numeral negative ['0'] '0' [] 1 (List.forall_mem_singleton.mpr rfl) rfl fun _ => ⟨rfl, Int.le_refl 1⟩
  · next positive =>
    have zero := shortest_zero positive (e := e)
    generalize shortest m e = p at zero
    obtain ⟨d, exponent⟩ := p
    obtain ⟨c, more, begins, _, nothing⟩ := toDigits_cons d
    have all := fun c mem => isDigit_toDigits (n := d) (c := c) mem
    simp only at zero ⊢
    split
    · refine positional_numeral negative all begins fun first => ?_
      have none_left := nothing first
      have digits : Nat.toDigits 10 d = ['0'] := by rw [none_left]; rfl
      refine ⟨(List.cons.inj (begins.symm.trans digits)).2, ?_⟩
      rw [zero none_left, digits]
      decide
    · exact scientific_numeral negative _ all begins

/-- The text of a finite number is a numeral with a point or an exponent. -/
theorem text_numeral {x : Binary64} (finite : x.isFinite = true) :
    ∃ n : Numeral, x.text.toList = n.text ∧ n.IsFractional := by
  cases x with
  | finite negative m e =>
    obtain ⟨n, minus, text, fractional⟩ := magnitudeText_numeral negative m e
    refine ⟨n, ?_, fractional⟩
    rw [text, Numeral.minus, minus, Binary64.text, String.toList_ofList, signText]
  | infinite | nan => cases finite

end Texts

/-- The number that the text of a finite number is read as. -/
def reread (x : Binary64) : Binary64 :=
  match Json.readNumber {} x.text.toList with
  | .error _ => x
  | .ok (.float y, _) => y
  | .ok _ => x

theorem readNumber_text (limits : Json.Limits) {x : Binary64} (finite : x.isFinite = true) {rest : List Char}
    (ends : Json.Ends rest) : Json.readNumber limits (x.text.toList ++ rest) = .ok (.float x.reread, rest) := by
  obtain ⟨n, text, fractional⟩ := text_numeral finite
  have alone := Json.readNumber_numeral {} fractional Json.ends_nil
  rw [List.append_nil] at alone
  rw [reread, text, alone]
  exact Json.readNumber_numeral limits fractional ends

end Binary64

namespace Json

theorem beginsNumber_text {x : Binary64} (finite : x.isFinite = true) : BeginsNumber x.text.toList := by
  obtain ⟨n, text, _⟩ := Binary64.text_numeral finite
  obtain ⟨c, more, begins, _⟩ := n.whole_begins
  have digit : Whole.isDigit c = true := n.whole_digits c (by rw [begins]; exact List.mem_cons_self)
  refine ⟨c, more ++ (n.fraction ++ n.power), digit, ?_⟩
  rw [text, Numeral.text, Numeral.minus, begins]
  split
  · exact .inr rfl
  · exact .inl rfl

theorem writeFloat_finite {x : Binary64} (finite : x.isFinite = true) : writeFloat x = x.text.toList := by
  cases x with
  | finite => rfl
  | infinite | nan => cases finite

end Json

end ServerSettings
