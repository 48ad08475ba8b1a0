import ServerSettings.Proofs.Json.Numeral
import ServerSettings.Proofs.Json.Places

/-!
# Strict JSON texts

The grammar of JSON, without the words for numbers that are not finite: blanks may stand around every value and every
name, a comma between two parts.

* `IsValue`: the texts of values;
* `not_isValue_nonfinite`: the words for numbers that are not finite are none;
* `isValue_write`: in every layout, a value whose numbers are finite is written as such a text;
* `visible_write`: on one line, no character of it is a control.
-/

namespace ServerSettings.Json

section Grammar

def IsGap (cs : List Char) : Prop :=
  ∀ c ∈ cs, isBlank c = true

/-- What stands inside quotes for one character, or for one code unit of it. -/
inductive IsLetter : List Char → Prop
  | plain {c : Char} (quote : c ≠ '"') (slash : c ≠ '\\') (visible : 0x20 ≤ c.toNat) : IsLetter [c]
  | short {c : Char} (known : c ∈ ['"', '\\', '/', 'b', 'f', 'n', 'r', 't']) : IsLetter ['\\', c]
  | unit {digits : List Char} (four : digits.length = 4) (hex : ∀ c ∈ digits, (Text.hexValue? c).isSome = true) :
      IsLetter ('\\' :: 'u' :: digits)

inductive IsString : List Char → Prop
  | quoted {letters : List (List Char)} (each : ∀ letter ∈ letters, IsLetter letter) :
      IsString ('"' :: (letters.flatten ++ ['"']))

/-- With blanks around it. -/
inductive Padded (P : List Char → Prop) : List Char → Prop
  | intro {front cs back : List Char} (before : IsGap front) (inner : P cs) (behind : IsGap back) :
      Padded P (front ++ (cs ++ back))

/-- A name, a colon and a value. -/
inductive Named (P : List Char → Prop) : List Char → Prop
  | intro {name value : List Char} (key : Padded IsString name) (inner : Padded P value) : Named P (name ++ ':' :: value)

/-- One part, or more with commas between them. -/
inductive Separated (P : List Char → Prop) : List Char → Prop
  | last {cs : List Char} (part : P cs) : Separated P cs
  | more {cs rest : List Char} (part : P cs) (later : Separated P rest) : Separated P (cs ++ ',' :: rest)

inductive IsValue : List Char → Prop
  | null : IsValue ['n', 'u', 'l', 'l']
  | true : IsValue ['t', 'r', 'u', 'e']
  | false : IsValue ['f', 'a', 'l', 's', 'e']
  | number (n : Numeral) : IsValue n.text
  | string {cs : List Char} (quoted : IsString cs) : IsValue cs
  | emptyArray {gap : List Char} (blank : IsGap gap) : IsValue ('[' :: (gap ++ [']']))
  | array {cs : List Char} (elements : Separated (Padded IsValue) cs) : IsValue ('[' :: (cs ++ [']']))
  | emptyObject {gap : List Char} (blank : IsGap gap) : IsValue ('{' :: (gap ++ ['}']))
  | object {cs : List Char} (members : Separated (Named IsValue) cs) : IsValue ('{' :: (cs ++ ['}']))

/-- The words for numbers that are not finite are no values. -/
theorem not_isValue_nonfinite : ∀ x : Binary64, x.isFinite = false → ¬IsValue (writeFloat x) := by
  have no_numeral {c : Char} {rest : List Char} (other : Whole.isDigit c = false) (n : Numeral) :
      n.whole ++ (n.fraction ++ n.power) ≠ c :: rest := by
    intro eq
    obtain ⟨first, more, begins, _⟩ := n.whole_begins
    have digit := n.whole_digits first (by rw [begins]; exact List.mem_cons_self)
    rw [begins] at eq
    rw [(List.cons.inj eq).1, other] at digit
    cases digit
  have refused {c : Char} {rest : List Char} (unsigned : c ≠ '-') (other : Whole.isDigit c = false)
      (begins : c ∉ ['n', 't', 'f', '"', '[', '{']) : ¬IsValue (c :: rest) := by
    intro h
    generalize eq : c :: rest = cs at h
    cases h with
    | number n =>
      rw [Numeral.text, Numeral.minus] at eq
      cases negative : n.negative with
      | true =>
        rw [negative] at eq
        exact unsigned (List.cons.inj eq).1
      | false =>
        rw [negative] at eq
        exact no_numeral other n eq.symm
    | string quoted =>
      cases quoted
      exact begins (by rw [(List.cons.inj eq).1]; decide)
    | null | true | false | emptyArray | array | emptyObject | object =>
      exact begins (by rw [(List.cons.inj eq).1]; decide)
  intro x nonfinite
  cases x with
  | finite => cases nonfinite
  | nan => exact refused (by decide) (by decide) (by decide)
  | infinite negative =>
    cases negative with
    | false => exact refused (by decide) (by decide) (by decide)
    | true =>
      intro h
      generalize eq : writeFloat (.infinite true) = cs at h
      cases h with
      | number n =>
        rw [Numeral.text, Numeral.minus] at eq
        cases negative : n.negative with
        | true =>
          rw [negative] at eq
          exact no_numeral (c := 'I') (by decide) n (List.cons.inj eq).2.symm
        | false =>
          rw [negative] at eq
          exact no_numeral (c := '-') (by decide) n eq.symm
      | string quoted =>
        cases quoted
        cases eq
      | _ => cases eq

end Grammar

section Writing

variable (l : Layout)

theorem hexValue?_digit {n : Nat} (control : n < 0x20) : ∀ c ∈ Text.hex 4 n, (Text.hexValue? c).isSome = true := by
  have all : ∀ n < 0x20, ((Text.hex 4 n).all fun c => (Text.hexValue? c).isSome) = true := by decide
  exact List.all_eq_true.mp (all n control)

theorem isLetter_writeChar (c : Char) : IsLetter (writeChar c) := by
  unfold writeChar
  split
  · exact .short (by decide)
  split
  · exact .short (by decide)
  split
  · exact .short (by decide)
  split
  · exact .short (by decide)
  split
  · exact .short (by decide)
  split
  · exact .short (by decide)
  split
  · exact .short (by decide)
  split
  · next control => exact .unit (by rw [hex_control _ control]; rfl) (hexValue?_digit control)
  · next quote slash _ _ _ _ _ visible => exact .plain quote slash (Nat.le_of_not_lt visible)

theorem isString_writeString (s : String) : IsString (writeString s) := by
  rw [writeString, List.flatMap_def, List.cons_append]
  refine .quoted fun letter mem => ?_
  obtain ⟨c, _, rfl⟩ := List.mem_map.mp mem
  exact isLetter_writeChar c

theorem isValue_digits (n : Int) : IsValue (Whole.digits n) := by
  obtain ⟨c, more, begins, _, zero⟩ := toDigits_cons n.natAbs
  let numeral : Numeral :=
    { negative := decide (n < 0), whole := Nat.toDigits 10 n.natAbs
      whole_digits := fun c mem => isDigit_toDigits mem
      whole_begins := by
        refine ⟨c, more, begins, fun first => ?_⟩
        have nothing : Nat.toDigits 10 n.natAbs = ['0'] := by rw [zero first]; rfl
        exact (List.cons.inj (begins.symm.trans nothing)).2
      places_digits := fun _ mem => absurd mem List.not_mem_nil
      mark_letter := .inl rfl
      sign_known := .inl rfl
      exponent_digits := fun _ mem => absurd mem List.not_mem_nil }
  have text : numeral.text = Whole.digits n := by
    rw [Whole.digits]
    by_cases negative : n < 0 <;>
      simp [numeral, Numeral.text, Numeral.minus, Numeral.fraction, Numeral.power, negative]
  rw [← text]
  exact .number numeral

theorem isGap_lineBreak (level : Nat) : IsGap (l.lineBreak level) := by
  rw [Layout.lineBreak]
  split
  · exact fun _ mem => absurd mem List.not_mem_nil
  · refine List.forall_mem_cons.mpr ⟨rfl, fun c mem => ?_⟩
    rw [List.eq_of_mem_replicate mem]
    rfl

theorem isGap_afterColon : IsGap l.afterColon := by
  rw [Layout.afterColon]
  split
  · exact List.forall_mem_singleton.mpr rfl
  · exact fun _ mem => absurd mem List.not_mem_nil

theorem isGap_nil : IsGap [] := fun _ mem => absurd mem List.not_mem_nil

/-- Parts with commas between them, if each may have blanks around it. -/
theorem separated_joined {P : List Char → Prop} (level : Nat) {parts : List (List Char)} (given : parts ≠ [])
    (each : ∀ part ∈ parts, ∀ front back, IsGap front → IsGap back → P (front ++ (part ++ back))) {front back : List Char}
    (before : IsGap front) (behind : IsGap back) : Separated P (front ++ (l.joined level parts ++ back)) := by
  induction parts generalizing front with
  | nil => exact absurd rfl given
  | cons part rest ih =>
    obtain ⟨first, later⟩ := List.forall_mem_cons.mp each
    cases rest with
    | nil =>
      rw [joined_singleton]
      exact .last (first front back before behind)
    | cons next more =>
      have others := ih (by simp) later (isGap_lineBreak l level)
      have alone := first front [] before isGap_nil
      have text : front ++ (l.joined level (part :: next :: more) ++ back) =
          (front ++ (part ++ [])) ++ ',' :: (l.lineBreak level ++ (l.joined level (next :: more) ++ back)) := by
        simp only [joined_cons_cons, List.append_assoc, List.cons_append, List.append_nil]
      rw [text]
      exact .more alone others

/-- Brackets around parts: there is nothing between them, or the parts with blanks and commas around them. -/
theorem enclose_cases {P : List Char → Prop} (level : Nat) (opening closing : Char) (parts : List (List Char))
    (each : ∀ part ∈ parts, ∀ front back, IsGap front → IsGap back → P (front ++ (part ++ back))) :
    l.enclose level opening closing parts = opening :: ([] ++ [closing]) ∨
      ∃ cs, l.enclose level opening closing parts = opening :: (cs ++ [closing]) ∧ Separated P cs := by
  cases parts with
  | nil => exact .inl rfl
  | cons part rest =>
    have inside := separated_joined l (level + 1) (List.cons_ne_nil part rest) each (isGap_lineBreak l (level + 1))
      (isGap_lineBreak l level)
    refine .inr ⟨_, ?_, inside⟩
    have whole := enclose_append l level opening closing part rest []
    rw [List.append_nil] at whole
    rw [whole]
    simp only [List.append_assoc]

/-- In every layout, a value whose numbers are finite is written as a strict text. -/
theorem isValue_write {v : Json} (finite : Throughout (fun w => ∀ x, w = .float x → x.isFinite = true) v) (level : Nat) :
    IsValue (write l level v) := by
  induction finite generalizing level with
  | @scalar v scalar here =>
    cases v with
    | null => exact .null
    | bool b => cases b <;> constructor
    | int n => exact isValue_digits n
    | float x =>
      have finite := here x rfl
      obtain ⟨n, text, _⟩ := Binary64.text_numeral finite
      rw [write, writeFloat_finite finite, text]
      exact .number n
    | str s => exact .string (isString_writeString s)
    | arr | obj => cases scalar
  | @arr items _ _ ih =>
    have each : ∀ part ∈ items.map (write l (level + 1)), ∀ front back, IsGap front → IsGap back →
        Padded IsValue (front ++ (part ++ back)) := by
      intro part mem front back before behind
      obtain ⟨v, inside, rfl⟩ := List.mem_map.mp mem
      exact .intro before (ih v inside (level + 1)) behind
    rw [write, writeItems_eq]
    rcases enclose_cases l level '[' ']' _ each with nothing | ⟨cs, text, elements⟩
    · rw [nothing]
      exact .emptyArray isGap_nil
    · rw [text]
      exact .array elements
  | @obj members _ _ ih =>
    have each : ∀ part ∈ (l.arrange (writeMembers l (level + 1) members)).map (·.2), ∀ front back, IsGap front →
        IsGap back → Named IsValue (front ++ (part ++ back)) := by
      intro part mem front back before behind
      obtain ⟨named, arranged, rfl⟩ := List.mem_map.mp mem
      rw [writeMembers_eq] at arranged
      obtain ⟨m, inside, rfl⟩ := List.mem_map.mp (mem_arrange arranged)
      have key : Padded IsString (front ++ (writeString m.1 ++ [])) :=
        .intro before (isString_writeString m.1) isGap_nil
      have value := Padded.intro (isGap_afterColon l) (ih m inside (level + 1)) behind
      have named := Named.intro key value
      simpa only [colon_eq, List.append_nil, List.append_assoc, List.cons_append] using named
    rw [write]
    rcases enclose_cases l level '{' '}' _ each with nothing | ⟨cs, text, members⟩
    · rw [nothing]
      exact .emptyObject isGap_nil
    · rw [text]
      exact .object members

end Writing

section Controls

/-- A character that is no control. -/
def IsVisible (c : Char) : Prop :=
  0x20 ≤ c.toNat

instance (c : Char) : Decidable (IsVisible c) :=
  inferInstanceAs (Decidable (0x20 ≤ c.toNat))

theorem visible_of_all {cs : List Char} (each : (cs.all fun c => decide (IsVisible c)) = true) : ∀ c ∈ cs, IsVisible c :=
  fun c mem => of_decide_eq_true (List.all_eq_true.mp each c mem)

theorem visible_writeChar (c : Char) : ∀ x ∈ writeChar c, IsVisible x := by
  have escaped (e : Char) (visible : IsVisible e) : ∀ x ∈ ['\\', e], IsVisible x :=
    List.forall_mem_cons.mpr ⟨by decide, List.forall_mem_singleton.mpr visible⟩
  have coded : ∀ n < 0x20, (('\\' :: 'u' :: Text.hex 4 n).all fun x => decide (IsVisible x)) = true := by
    decide +kernel
  unfold writeChar
  split
  · exact escaped '"' (by decide)
  split
  · exact escaped '\\' (by decide)
  split
  · exact escaped 'n' (by decide)
  split
  · exact escaped 'r' (by decide)
  split
  · exact escaped 't' (by decide)
  split
  · exact escaped 'b' (by decide)
  split
  · exact escaped 'f' (by decide)
  split
  · next control => exact visible_of_all (coded c.toNat control)
  · next visible => exact List.forall_mem_singleton.mpr (Nat.le_of_not_lt visible)

theorem visible_writeString (s : String) : ∀ c ∈ writeString s, IsVisible c := by
  rw [writeString, List.cons_append]
  refine List.forall_mem_cons.mpr ⟨by decide, List.forall_mem_append.mpr ⟨fun c mem => ?_, visible_of_all (by decide)⟩⟩
  obtain ⟨original, _, part⟩ := List.mem_flatMap.mp mem
  exact visible_writeChar original c part

theorem visible_of_isDigit {c : Char} (digit : Whole.isDigit c = true) : IsVisible c := by
  have bounds : 48 ≤ c.toNat ∧ c.toNat ≤ 57 := of_decide_eq_true digit
  rw [IsVisible]
  omega

theorem visible_digits (n : Int) : ∀ c ∈ Whole.digits n, IsVisible c := by
  have size : ∀ c ∈ Nat.toDigits 10 n.natAbs, IsVisible c := fun c mem => visible_of_isDigit (isDigit_toDigits mem)
  rw [Whole.digits]
  split
  · exact List.forall_mem_cons.mpr ⟨by decide, size⟩
  · exact size

theorem Numeral.visible (n : Numeral) : ∀ c ∈ n.text, IsVisible c := by
  have minus : ∀ c ∈ n.minus, IsVisible c := by
    rw [Numeral.minus]
    split <;> exact visible_of_all (by decide)
  have fraction : ∀ c ∈ n.fraction, IsVisible c := by
    rw [Numeral.fraction]
    split
    · exact visible_of_all rfl
    · exact List.forall_mem_cons.mpr ⟨by decide, fun c mem => visible_of_isDigit (n.places_digits c mem)⟩
  have sign : ∀ c ∈ n.sign, IsVisible c := by
    rcases n.sign_known with sign | sign | sign <;> rw [sign] <;> exact visible_of_all (by decide)
  have mark : IsVisible n.mark := by
    rcases n.mark_letter with letter | letter <;> rw [letter] <;> decide
  have power : ∀ c ∈ n.power, IsVisible c := by
    rw [Numeral.power]
    split
    · exact visible_of_all rfl
    · exact List.forall_mem_cons.mpr ⟨mark, List.forall_mem_append.mpr
        ⟨sign, fun c mem => visible_of_isDigit (n.exponent_digits c mem)⟩⟩
  have whole : ∀ c ∈ n.whole, IsVisible c := fun c mem => visible_of_isDigit (n.whole_digits c mem)
  rw [Numeral.text]
  exact List.forall_mem_append.mpr ⟨minus, List.forall_mem_append.mpr ⟨whole, List.forall_mem_append.mpr ⟨fraction, power⟩⟩⟩

theorem visible_writeFloat (x : Binary64) : ∀ c ∈ writeFloat x, IsVisible c := by
  cases x with
  | nan => exact visible_of_all (by decide)
  | infinite negative => cases negative <;> exact visible_of_all (by decide)
  | finite negative m e =>
    obtain ⟨n, text, _⟩ := Binary64.text_numeral (x := .finite negative m e) rfl
    rw [writeFloat_finite rfl, text]
    exact n.visible

/-- Brackets on one line bring no control. -/
theorem visible_enclose {l : Layout} (one_line : l.step = none) (level : Nat) {opening closing : Char}
    (opens : IsVisible opening) (closes : IsVisible closing) {parts : List (List Char)}
    (each : ∀ part ∈ parts, ∀ c ∈ part, IsVisible c) : ∀ c ∈ l.enclose level opening closing parts, IsVisible c := by
  have unbroken (level : Nat) : l.lineBreak level = [] := by rw [Layout.lineBreak, one_line]
  have joined : ∀ c ∈ l.joined (level + 1) parts, IsVisible c := by
    induction parts with
    | nil => exact fun _ mem => absurd mem List.not_mem_nil
    | cons part rest ih =>
      obtain ⟨first, later⟩ := List.forall_mem_cons.mp each
      cases rest with
      | nil => rwa [joined_singleton]
      | cons next more =>
        rw [joined_cons_cons, unbroken, List.nil_append]
        exact List.forall_mem_append.mpr ⟨first, List.forall_mem_cons.mpr ⟨by decide, ih later⟩⟩
  have last : ∀ c ∈ [closing], IsVisible c := List.forall_mem_singleton.mpr closes
  cases parts with
  | nil => exact List.forall_mem_cons.mpr ⟨opens, last⟩
  | cons part rest =>
    have whole := enclose_append l level opening closing part rest []
    rw [List.append_nil, unbroken, unbroken, List.nil_append, List.nil_append] at whole
    rw [whole]
    exact List.forall_mem_cons.mpr ⟨opens, List.forall_mem_append.mpr ⟨joined, last⟩⟩

/-- On one line, no character of what is written is a control. -/
theorem visible_write {l : Layout} (one_line : l.step = none) (v : Json) (level : Nat) :
    ∀ c ∈ write l level v, IsVisible c := by
  induction v using Json.induction generalizing level with
  | scalar v scalar =>
    cases v with
    | null =>
      show ∀ c ∈ ['n', 'u', 'l', 'l'], IsVisible c
      exact visible_of_all (by decide)
    | bool b =>
      cases b with
      | true =>
        show ∀ c ∈ ['t', 'r', 'u', 'e'], IsVisible c
        exact visible_of_all (by decide)
      | false =>
        show ∀ c ∈ ['f', 'a', 'l', 's', 'e'], IsVisible c
        exact visible_of_all (by decide)
    | int n => exact visible_digits n
    | float x => exact visible_writeFloat x
    | str s => exact visible_writeString s
    | arr | obj => cases scalar
  | arr items each =>
    rw [write, writeItems_eq]
    exact visible_enclose one_line level (by decide) (by decide) (List.forall_mem_map.mpr fun v mem => each v mem (level + 1))
  | obj members each =>
    have colon : ∀ c ∈ l.colon, IsVisible c := by
      rw [Layout.colon]
      split <;> exact visible_of_all (by decide)
    rw [write]
    refine visible_enclose one_line level (by decide) (by decide) fun part mem => ?_
    obtain ⟨named, arranged, rfl⟩ := List.mem_map.mp mem
    rw [writeMembers_eq] at arranged
    obtain ⟨m, inside, rfl⟩ := List.mem_map.mp (mem_arrange arranged)
    exact List.forall_mem_append.mpr
      ⟨List.forall_mem_append.mpr ⟨visible_writeString m.1, colon⟩, each m inside (level + 1)⟩

end Controls

end ServerSettings.Json
