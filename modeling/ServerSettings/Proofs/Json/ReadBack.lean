import ServerSettings.Json.Reader
import ServerSettings.Json.Writer
import ServerSettings.Proofs.Dict

/-!
# Reading back what was written

* `readUnits_writeChars`: a string comes back character by character, whatever stands behind its quote;
* `readNumber_digits`: a whole number comes back if the text behind it cannot go on with it;
* `readsAs_items`, `readsAs_members`: collections are read as what is read of their parts;
* `readValue_write`: every value without fractions comes back from its text, in any layout that keeps the
  order of members;
* `read_text`: the same for a whole text.
-/

namespace ServerSettings.Json

section Strings

/-- A character that stands as it is. -/
theorem readUnits_plain (start rest : List Char) {c : Char} (quote : c ≠ '"') (slash : c ≠ '\\')
    (shown : ¬c.toNat < 0x20) :
    readUnits start (c :: rest) = (readUnits start rest).map fun p => (c.toNat :: p.1, p.2) := by
  rw [readUnits, if_neg shown]
  · exact fun eq => quote eq
  · exact fun eq => absurd eq slash
  · exact fun _ _ _ _ _ eq => absurd eq slash
  · exact fun _ _ eq => absurd eq slash

theorem readUnits_short (start rest : List Char) {c e : Char} (h : shortEscape? c = some e)
    (other : c ≠ 'u') :
    readUnits start ('\\' :: c :: rest) = (readUnits start rest).map fun p => (e.toNat :: p.1, p.2) := by
  rw [readUnits, if_neg other, h]
  exact fun _ _ _ _ _ eq => absurd eq other

theorem readUnits_unit (start : List Char) {a b c d : Char} {u : Nat} {rest : List Char}
    (h : codeUnit? a b c d = some u) (more : rest ≠ []) :
    readUnits start ('\\' :: 'u' :: a :: b :: c :: d :: rest) =
      (readUnits start rest).map fun p => (u :: p.1, p.2) := by
  rw [readUnits, h]
  simp only [List.isEmpty_iff, more, if_false]

/-- The digits of a control are two zeros and two that tell it. -/
theorem hex_control : ∀ n < 0x20,
    Text.hex 4 n = ['0', '0', Nat.digitChar (n / 16), Nat.digitChar (n % 16)] := by
  decide

theorem codeUnit?_control : ∀ n < 0x20,
    codeUnit? '0' '0' (Nat.digitChar (n / 16)) (Nat.digitChar (n % 16)) = some n := by
  decide

theorem readUnits_writeChar (start rest : List Char) (c : Char) (more : rest ≠ []) :
    readUnits start (writeChar c ++ rest) = (readUnits start rest).map fun p => (c.toNat :: p.1, p.2) := by
  unfold writeChar
  split
  · next eq => subst eq; exact readUnits_short _ _ (by rfl) (by decide)
  split
  · next eq => subst eq; exact readUnits_short _ _ (by rfl) (by decide)
  split
  · next eq => subst eq; exact readUnits_short _ _ (by rfl) (by decide)
  split
  · next eq => subst eq; exact readUnits_short _ _ (by rfl) (by decide)
  split
  · next eq => subst eq; exact readUnits_short _ _ (by rfl) (by decide)
  split
  · next eq => subst eq; exact readUnits_short _ _ (by rfl) (by decide)
  split
  · next eq => subst eq; exact readUnits_short _ _ (by rfl) (by decide)
  split
  · next control =>
    rw [hex_control _ control]
    exact readUnits_unit start (codeUnit?_control _ control) more
  · next quote slash _ _ _ _ _ shown => exact readUnits_plain start rest quote slash shown

theorem readUnits_writeChars (start rest cs : List Char) :
    readUnits start (cs.flatMap writeChar ++ '"' :: rest) = .ok (cs.map Char.toNat, rest) := by
  induction cs with
  | nil => rfl
  | cons c cs ih =>
    rw [List.flatMap_cons, List.append_assoc, readUnits_writeChar _ _ _ (by simp), ih]
    rfl

theorem readString_write (start rest : List Char) (s : String) :
    readString start (s.toList.flatMap writeChar ++ '"' :: rest) = .ok (s, rest) := by
  rw [readString, readUnits_writeChars]
  simp only [Except.map, Text.ofUnits_map_toNat, String.ofList_toList]

end Strings

section Numbers

/-- A text at which a number before it ends. -/
def Ends (rest : List Char) : Prop :=
  ∀ c, rest.head? = some c → Whole.isDigit c = false ∧ c ≠ '.' ∧ c ≠ 'e' ∧ c ≠ 'E'

theorem ends_nil : Ends [] := fun _ h => by cases h

theorem ends_cons {c : Char} (rest : List Char) (h : c ∈ [',', ']', '}', '\n']) : Ends (c :: rest) := by
  intro d eq
  cases eq
  simp only [List.mem_cons, List.not_mem_nil, or_false] at h
  rcases h with rfl | rfl | rfl | rfl
  · decide
  · decide
  · decide
  · decide

theorem isDigit_toDigits {n : Nat} {c : Char} (h : c ∈ Nat.toDigits 10 n) : Whole.isDigit c = true := by
  have digit := Nat.isDigit_of_mem_toDigits (by decide) (by decide) h
  simp only [Char.isDigit, Bool.and_eq_true, decide_eq_true_eq] at digit
  rw [Whole.isDigit, decide_eq_true_eq]
  exact digit

theorem Ends.stops {rest : List Char} (ends : Ends rest) : ∀ c, rest.head? = some c → Whole.isDigit c = false :=
  fun c first => (ends c first).1

theorem spanDigits_append {digits rest : List Char} (all : ∀ c ∈ digits, Whole.isDigit c = true)
    (stops : ∀ c, rest.head? = some c → Whole.isDigit c = false) : spanDigits (digits ++ rest) = (digits, rest) := by
  have stop : rest.takeWhile Whole.isDigit = [] ∧ rest.dropWhile Whole.isDigit = rest := by
    cases rest with
    | nil => exact ⟨rfl, rfl⟩
    | cons c rest => simp [stops c rfl]
  rw [spanDigits, List.takeWhile_append_of_pos all, List.dropWhile_append_of_pos all, stop.1, stop.2,
    List.append_nil]

/-- Zero is written as one digit, and no other number begins with it. -/
theorem toDigits_head (n : Nat) : (Nat.toDigits 10 n).head? = some '0' → n = 0 := by
  induction n using Nat.strongRecOn with
  | ind n ih =>
    rw [Nat.toDigits_eq_if (by decide)]
    split
    · next small =>
      intro h
      have all : ∀ n < 10, Nat.digitChar n = '0' → n = 0 := by decide
      exact all n small (Option.some.inj h)
    · next large =>
      intro h
      simp only [List.head?_append, Option.or_eq_some_iff, List.head?_eq_none_iff,
        Nat.toDigits_ne_nil, false_and, or_false] at h
      have quotient := ih (n / 10) (by omega) h
      omega

theorem toDigits_cons (n : Nat) :
    ∃ c more, Nat.toDigits 10 n = c :: more ∧ Whole.isDigit c = true ∧ (c = '0' → n = 0) := by
  cases digits : Nat.toDigits 10 n with
  | nil => exact absurd digits Nat.toDigits_ne_nil
  | cons c more =>
    refine ⟨c, more, rfl, isDigit_toDigits (n := n) (by rw [digits]; exact List.mem_cons_self), ?_⟩
    intro zero
    exact toDigits_head n (by rw [digits, zero]; rfl)

theorem readWhole_toDigits (n : Nat) {rest : List Char} (ends : Ends rest) :
    readWhole (Nat.toDigits 10 n ++ rest) = some (Nat.toDigits 10 n, rest) := by
  by_cases zero : n = 0
  · subst zero
    rfl
  · obtain ⟨c, more, digits, digit, first⟩ := toDigits_cons n
    have span : spanDigits (Nat.toDigits 10 n ++ rest) = (Nat.toDigits 10 n, rest) :=
      spanDigits_append (fun _ h => isDigit_toDigits h) ends.stops
    rw [digits, List.cons_append] at span ⊢
    rw [readWhole, if_pos digit, span]
    exact fun eq => zero (first eq)

theorem readFraction_ends {rest : List Char} (ends : Ends rest) : readFraction rest = none := by
  cases rest with
  | nil => rfl
  | cons c rest =>
    have point := (ends c rfl).2.1
    rw [readFraction.eq_def]
    split
    · next eq => exact absurd (List.cons.inj eq).1 point
    · rfl

theorem readExponent_ends {rest : List Char} (ends : Ends rest) : readExponent rest = none := by
  cases rest with
  | nil => rfl
  | cons c rest =>
    obtain ⟨_, _, small, capital⟩ := ends c rfl
    rw [readExponent.eq_def]
    exact if_neg (by simp [small, capital])

theorem length_toDigits_le {n count : Nat} (some_digit : 0 < count) (small : n < Nat.pow 10 count) :
    (Nat.toDigits 10 n).length ≤ count :=
  (Nat.length_toDigits_le_iff (by decide) some_digit).mpr small

/-- A whole number within the limit comes back. -/
theorem readNumber_digits {limits : Limits} (room : ∀ k, limits.digits = some k → digitLimit ≤ k) {n : Int}
    (writable : Whole.isWritable n = true) {rest : List Char} (ends : Ends rest) :
    readNumber limits (Whole.digits n ++ rest) = .ok (.int n, rest) := by
  have few := length_toDigits_le (by decide) (of_decide_eq_true writable)
  have within : limits.digits.any (· < (Nat.toDigits 10 n.natAbs).length) = false := by
    cases hk : limits.digits with
    | none => rfl
    | some k =>
      have := room k hk
      simp only [Option.any_some, decide_eq_false_iff_not]
      omega
  by_cases negative : n < 0
  · have digits : Whole.digits n = '-' :: Nat.toDigits 10 n.natAbs := by
      rw [Whole.digits, if_pos negative]
    have size : -(n.natAbs : Int) = n := by omega
    rw [digits, List.cons_append, readNumber]
    simp only [readWhole_toDigits _ ends, readFraction_ends ends, readExponent_ends ends, within,
      Option.getD_none, Nat.ofDigitChars_ten_toDigits, Option.isSome_none, Bool.false_eq_true,
      or_self, if_false, if_true, size]
  · have digits : Whole.digits n = Nat.toDigits 10 n.natAbs := by
      rw [Whole.digits, if_neg negative]
    have size : (n.natAbs : Int) = n := by omega
    obtain ⟨c, more, first, digit, _⟩ := toDigits_cons n.natAbs
    have unsigned : c ≠ '-' := by
      rintro rfl
      cases digit
    have whole := readWhole_toDigits n.natAbs ends
    have value := Nat.ofDigitChars_ten_toDigits (n := n.natAbs)
    rw [digits]
    rw [first] at value within
    rw [first, List.cons_append] at whole ⊢
    rw [readNumber.eq_def]
    split
    next split_sign =>
      split at split_sign
      · next eq => exact absurd (List.cons.inj eq).1 unsigned
      · cases split_sign
        simp only [whole, readFraction_ends ends, readExponent_ends ends, within, Option.getD_none, value,
          Option.isSome_none, Bool.false_eq_true, or_self, if_false, size]

end Numbers

section Values

/-- A value that comes back from its text where containers may be nested `depth` deep: it has no fractions,
its numbers are short enough, and no object has a name twice. -/
inductive Legible : Nat → Json → Prop
  | null (depth : Nat) : Legible depth .null
  | bool (depth : Nat) (b : Bool) : Legible depth (.bool b)
  | int (depth : Nat) {n : Int} (short : Whole.isWritable n = true) : Legible depth (.int n)
  | str (depth : Nat) (s : String) : Legible depth (.str s)
  | arr {depth : Nat} {items : List Json} (parts : ∀ v ∈ items, Legible depth v) :
      Legible (depth + 1) (.arr items)
  | obj {depth : Nat} {members : Dict Json} (once : Dict.Distinct members)
      (parts : ∀ entry ∈ members, Legible depth entry.2) : Legible (depth + 1) (.obj members)

variable {l : Layout} {limits : Limits} {d : Nat}

/-- The text of `v` begins at once and closes nothing, and reading it gives `w` and what stands behind the text. -/
structure ReadsAs (l : Layout) (limits : Limits) (d : Nat) (v w : Json) : Prop where
  begins : ∀ level, ∃ c more, write l level v = c :: more ∧ isBlank c = false ∧ c ≠ ']'
  back : ∀ level fuel depth rest, d ≤ depth → (write l level v).length ≤ fuel → Ends rest →
    readValue limits fuel depth (write l level v ++ rest) = .ok (w, rest)

theorem ReadsAs.mono {d' : Nat} {v w : Json} (h : ReadsAs l limits d v w) (le : d ≤ d') : ReadsAs l limits d' v w where
  begins := h.begins
  back := fun level fuel depth rest deep => h.back level fuel depth rest (Nat.le_trans le deep)

theorem skipBlank_of_not_blank {c : Char} (rest : List Char) (h : isBlank c = false) :
    skipBlank (c :: rest) = c :: rest := by
  simp [skipBlank, h]

theorem skipBlank_lineBreak (l : Layout) (level : Nat) (cs : List Char) :
    skipBlank (l.lineBreak level ++ cs) = skipBlank cs := by
  unfold Layout.lineBreak
  split
  · rfl
  · next n _ =>
    have blanks : ∀ k, skipBlank (List.replicate k ' ' ++ cs) = skipBlank cs := by
      intro k
      induction k with
      | zero => rfl
      | succ k ih => exact ih
    exact blanks (n * level)

theorem ends_lineBreak (l : Layout) (level : Nat) {c : Char} (rest : List Char)
    (h : c ∈ [',', ']', '}', '\n']) : Ends (l.lineBreak level ++ c :: rest) := by
  unfold Layout.lineBreak
  split
  · exact ends_cons rest h
  · exact ends_cons _ (by decide)

/-- The text of an array or object begins with its opening bracket. -/
theorem enclose_cons (l : Layout) (level : Nat) (opening closing : Char) (parts : List (List Char)) :
    ∃ more, l.enclose level opening closing parts = opening :: more := by
  cases parts with
  | nil => exact ⟨_, rfl⟩
  | cons part parts => exact ⟨_, rfl⟩

theorem ReadsAs.skipBlank_write {v w : Json} (h : ReadsAs l limits d v w) (level : Nat) (rest : List Char) :
    skipBlank (write l level v ++ rest) = write l level v ++ rest := by
  obtain ⟨c, more, first, blank, _⟩ := h.begins level
  rw [first, List.cons_append]
  exact skipBlank_of_not_blank _ blank

/-- Parts with commas between them. -/
def Layout.joined (l : Layout) (level : Nat) (parts : List (List Char)) : List Char :=
  (',' :: l.lineBreak level).intercalate parts

theorem joined_singleton (l : Layout) (level : Nat) (part : List Char) : l.joined level [part] = part :=
  List.intercalate_singleton

theorem joined_cons_cons (l : Layout) (level : Nat) (part next : List Char) (parts : List (List Char)) :
    l.joined level (part :: next :: parts) =
      part ++ ',' :: (l.lineBreak level ++ l.joined level (next :: parts)) := by
  rw [Layout.joined, List.intercalate_cons_cons, List.append_assoc, List.cons_append]
  rfl

theorem joined_cons (l : Layout) (level : Nat) (part : List Char) (parts : List (List Char)) :
    ∃ more, l.joined level (part :: parts) = part ++ more := by
  cases parts with
  | nil => exact ⟨[], by rw [joined_singleton, List.append_nil]⟩
  | cons next parts => exact ⟨_, joined_cons_cons l level part next parts⟩

theorem enclose_append (l : Layout) (level : Nat) (opening closing : Char) (part : List Char)
    (parts : List (List Char)) (rest : List Char) :
    l.enclose level opening closing (part :: parts) ++ rest =
      opening :: (l.lineBreak (level + 1) ++
        (l.joined (level + 1) (part :: parts) ++ (l.lineBreak level ++ closing :: rest))) := by
  simp only [Layout.enclose, Layout.joined, List.cons_append, List.append_assoc, List.nil_append]

theorem joined_lt_enclose (l : Layout) (level : Nat) (opening closing : Char) (part : List Char)
    (parts : List (List Char)) :
    (l.joined (level + 1) (part :: parts)).length + 1 <
      (l.enclose level opening closing (part :: parts)).length := by
  simp only [Layout.enclose, Layout.joined, List.cons_append, List.length_cons, List.length_append]
  omega

theorem ReadsAs.skipBlank_joined {v w : Json} (h : ReadsAs l limits d v w) (level : Nat) (parts : List (List Char))
    (rest : List Char) :
    skipBlank (l.joined level (write l level v :: parts) ++ rest) =
      l.joined level (write l level v :: parts) ++ rest := by
  obtain ⟨more, first⟩ := joined_cons l level (write l level v) parts
  rw [first, List.append_assoc]
  exact h.skipBlank_write level _

/-- Elements between commas, up to the closing bracket. -/
theorem readItems_write {items : List Json} {f : Json → Json} (given : items ≠ [])
    (parts : ∀ v ∈ items, ReadsAs l limits d v (f v)) (level outer : Nat) {fuel depth : Nat}
    (rest : List Char) (deep : d ≤ depth)
    (steps : (l.joined level (writeItems l level items)).length < fuel) :
    readItems limits fuel depth
        (l.joined level (writeItems l level items) ++ (l.lineBreak outer ++ ']' :: rest)) =
      .ok (items.map f, rest) := by
  induction items generalizing fuel with
  | nil => exact absurd rfl given
  | cons v more ih =>
    obtain ⟨fuel, rfl⟩ : ∃ n, fuel = n + 1 := ⟨fuel - 1, by omega⟩
    have back := (parts v List.mem_cons_self).back
    cases more with
    | nil =>
      simp only [writeItems, joined_singleton] at steps ⊢
      have first := back level fuel depth (l.lineBreak outer ++ ']' :: rest) deep (by omega)
        (ends_lineBreak l outer rest (by decide))
      simp only [readItems, first, bind, Except.bind, skipBlank_lineBreak]
      rfl
    | cons w more =>
      have later := @ih (by simp) (fun x mem => parts x (List.mem_cons_of_mem v mem)) fuel
      have next := parts w (by simp)
      simp only [writeItems, joined_cons_cons, List.append_assoc, List.cons_append, List.length_append,
        List.length_cons] at steps later ⊢
      have first := back level fuel depth
        (',' :: (l.lineBreak level ++ (l.joined level (write l level w :: writeItems l level more) ++
          (l.lineBreak outer ++ ']' :: rest)))) deep (by omega) (ends_cons _ (by decide))
      simp only [readItems, first, bind, Except.bind, skipBlank_of_not_blank _ (c := ',') rfl,
        skipBlank_lineBreak, next.skipBlank_joined, later (by omega)]
      rfl

/-- What stands behind the colon of a member. -/
def Layout.afterColon (l : Layout) : List Char :=
  if l.step.isSome then [' '] else []

theorem skipBlank_colon (l : Layout) (cs : List Char) : skipBlank (l.afterColon ++ cs) = skipBlank cs := by
  unfold Layout.afterColon
  split
  · rfl
  · rfl

theorem colon_eq (l : Layout) : l.colon = ':' :: l.afterColon := by
  unfold Layout.colon Layout.afterColon
  split
  · rfl
  · rfl

theorem member_text (l : Layout) (key : String) (value rest : List Char) :
    writeString key ++ l.colon ++ value ++ rest =
      '"' :: (key.toList.flatMap writeChar ++ '"' :: ':' :: (l.afterColon ++ (value ++ rest))) := by
  simp only [writeString, colon_eq, List.cons_append, List.append_assoc, List.nil_append]

/-- The last member. -/
theorem readMembers_last {fuel depth level : Nat} {key : String} {v w : Json} (h : ReadsAs l limits d v w)
    (deep : d ≤ depth) (steps : (write l level v).length ≤ fuel)
    {rest behind : List Char} (ends : Ends rest) (closed : skipBlank rest = '}' :: behind) :
    readMembers limits (fuel + 1) depth (writeString key ++ l.colon ++ write l level v ++ rest) =
      .ok ([(key, w)], behind) := by
  rw [member_text, readMembers]
  simp only [readString_write, bind, Except.bind, skipBlank_of_not_blank _ (c := ':') rfl, skipBlank_colon,
    h.skipBlank_write, h.back level fuel depth rest deep steps ends, closed]

/-- A member with others behind it. -/
theorem readMembers_next {fuel depth level : Nat} {key : String} {v w : Json} (h : ReadsAs l limits d v w)
    (deep : d ≤ depth) (steps : (write l level v).length ≤ fuel)
    {rest between behind : List Char} {more : Dict Json} (ends : Ends rest)
    (comma : skipBlank rest = ',' :: between)
    (later : readMembers limits fuel depth (skipBlank between) = .ok (more, behind)) :
    readMembers limits (fuel + 1) depth (writeString key ++ l.colon ++ write l level v ++ rest) =
      .ok ((key, w) :: more, behind) := by
  rw [member_text, readMembers]
  simp only [readString_write, bind, Except.bind, skipBlank_of_not_blank _ (c := ':') rfl, skipBlank_colon,
    h.skipBlank_write, h.back level fuel depth rest deep steps ends, comma, later]

theorem joined_member (l : Layout) (level : Nat) (key : String) (value : List Char) (parts : List (List Char))
    (rest : List Char) :
    ∃ more, l.joined level ((writeString key ++ l.colon ++ value) :: parts) ++ rest = '"' :: more := by
  obtain ⟨further, first⟩ := joined_cons l level (writeString key ++ l.colon ++ value) parts
  rw [first]
  exact ⟨_, rfl⟩

/-- Members between commas, up to the closing brace. -/
theorem readMembers_write {members : Dict Json} {f : Json → Json} (given : members ≠ [])
    (parts : ∀ entry ∈ members, ReadsAs l limits d entry.2 (f entry.2)) (level outer : Nat)
    {fuel depth : Nat} (rest : List Char) (deep : d ≤ depth)
    (steps : (l.joined level ((writeMembers l level members).map (·.2))).length < fuel) :
    readMembers limits fuel depth
        (l.joined level ((writeMembers l level members).map (·.2)) ++ (l.lineBreak outer ++ '}' :: rest)) =
      .ok (Dict.mapValues f members, rest) := by
  induction members generalizing fuel with
  | nil => exact absurd rfl given
  | cons entry more ih =>
    obtain ⟨key, v⟩ := entry
    obtain ⟨fuel, rfl⟩ : ∃ n, fuel = n + 1 := ⟨fuel - 1, by omega⟩
    have first : ReadsAs l limits d v (f v) := parts (key, v) List.mem_cons_self
    cases more with
    | nil =>
      simp only [writeMembers, List.map_cons, List.map_nil, joined_singleton, List.length_append] at steps ⊢
      refine readMembers_last first deep (by omega) (ends_lineBreak l outer rest (by decide)) ?_
      rw [skipBlank_lineBreak]
      rfl
    | cons next more =>
      have later := @ih (by simp) (fun e mem => parts e (List.mem_cons_of_mem _ mem)) fuel
      obtain ⟨nextKey, w⟩ := next
      obtain ⟨further, quoted⟩ := joined_member l level nextKey (write l level w)
        ((writeMembers l level more).map (·.2)) (l.lineBreak outer ++ '}' :: rest)
      simp only [writeMembers, List.map_cons, joined_cons_cons, List.length_append, List.length_cons]
        at steps later ⊢
      rw [List.append_assoc, List.cons_append]
      refine readMembers_next first deep (by omega) (ends_cons _ (by decide))
        (skipBlank_of_not_blank _ rfl) ?_
      have goes_on := later (by omega)
      rw [quoted] at goes_on
      rw [List.append_assoc, skipBlank_lineBreak, quoted, skipBlank_of_not_blank _ rfl]
      exact goes_on

/-- A text that begins neither a string, nor a container, nor a word is read as a number. -/
theorem readValue_number {fuel depth : Nat} {c : Char} {cs : List Char} (quote : c ≠ '"') (brace : c ≠ '{')
    (bracket : c ≠ '[') (no_word : readWord? (c :: cs) = none) :
    readValue limits (fuel + 1) depth (c :: cs) = readNumber limits (c :: cs) := by
  unfold readValue
  split
  · next eq => exact absurd (List.cons.inj eq).1 quote
  · next eq => exact absurd (List.cons.inj eq).1 brace
  · next eq => exact absurd (List.cons.inj eq).1 bracket
  · rw [no_word]

theorem readValue_items {fuel depth : Nat} {cs : List Char} (given : (skipBlank cs).head? ≠ some ']') :
    readValue limits (fuel + 1) (depth + 1) ('[' :: cs) =
      (readItems limits fuel depth (skipBlank cs)).map fun p => (.arr p.1, p.2) := by
  rw [readValue, if_neg (Nat.succ_ne_zero depth)]
  split
  · next eq => exact absurd (by rw [eq]; rfl) given
  · rfl

theorem readValue_members {fuel depth : Nat} {cs : List Char} (given : (skipBlank cs).head? ≠ some '}') :
    readValue limits (fuel + 1) (depth + 1) ('{' :: cs) =
      (readMembers limits fuel depth (skipBlank cs)).map fun p => (.obj (Dict.ofList p.1), p.2) := by
  rw [readValue, if_neg (Nat.succ_ne_zero depth)]
  split
  · next eq => exact absurd (by rw [eq]; rfl) given
  · rfl

/-- A text that begins with a digit, which may have a sign in front. -/
def BeginsNumber (cs : List Char) : Prop :=
  ∃ c more, Whole.isDigit c = true ∧ (cs = c :: more ∨ cs = '-' :: c :: more)

theorem beginsNumber_digits (n : Int) : BeginsNumber (Whole.digits n) := by
  obtain ⟨c, more, first, digit, _⟩ := toDigits_cons n.natAbs
  refine ⟨c, more, digit, ?_⟩
  by_cases negative : n < 0
  · exact .inr (by rw [Whole.digits, if_pos negative, first])
  · exact .inl (by rw [Whole.digits, if_neg negative, first])

theorem BeginsNumber.append {cs : List Char} (h : BeginsNumber cs) (rest : List Char) : BeginsNumber (cs ++ rest) := by
  obtain ⟨c, more, digit, first | first⟩ := h
  · exact ⟨c, more ++ rest, digit, .inl (by rw [first, List.cons_append])⟩
  · exact ⟨c, more ++ rest, digit, .inr (by rw [first, List.cons_append, List.cons_append])⟩

/-- No word begins like a number. -/
theorem BeginsNumber.readWord? {cs : List Char} (h : BeginsNumber cs) : readWord? cs = none := by
  obtain ⟨c, more, digit, first⟩ := h
  have letter : ∀ d ∈ ['n', 't', 'f', 'N', 'I', '-'], d ≠ c := by
    rintro d mem rfl
    simp only [List.mem_cons, List.not_mem_nil, or_false] at mem
    rcases mem with rfl | rfl | rfl | rfl | rfl | rfl <;> cases digit
  simp only [List.mem_cons, List.not_mem_nil, or_false, forall_eq_or_imp, forall_eq] at letter
  rcases first with first | first
  · rw [first]
    simp [Json.readWord?, words, Text.after?, letter]
  · rw [first]
    simp [Json.readWord?, words, Text.after?, letter]

/-- Such a text is read as a number. -/
theorem BeginsNumber.readValue {cs : List Char} (h : BeginsNumber cs) (fuel depth : Nat) :
    readValue limits (fuel + 1) depth cs = readNumber limits cs := by
  have no_word := h.readWord?
  obtain ⟨c, more, digit, first | first⟩ := h
  · have other : c ≠ '"' ∧ c ≠ '{' ∧ c ≠ '[' := by
      refine ⟨?_, ?_, ?_⟩ <;> rintro rfl <;> cases digit
    rw [first] at no_word ⊢
    exact readValue_number other.1 other.2.1 other.2.2 no_word
  · rw [first] at no_word ⊢
    exact readValue_number (by decide) (by decide) (by decide) no_word

theorem BeginsNumber.cons {cs : List Char} (h : BeginsNumber cs) :
    ∃ c more, cs = c :: more ∧ isBlank c = false ∧ c ≠ ']' ∧ c ≠ Char.ofNat 0xfeff := by
  obtain ⟨c, more, digit, first | first⟩ := h
  · refine ⟨c, more, first, ?_, ?_, ?_⟩
    · cases blank : isBlank c with
      | false => rfl
      | true =>
        simp only [isBlank, decide_eq_true_eq] at blank
        rcases blank with rfl | rfl | rfl | rfl <;> cases digit
    · rintro rfl
      cases digit
    · rintro rfl
      cases digit
  · exact ⟨'-', c :: more, first, by decide⟩

/-- A text begins with a character that no reader passes over, and that closes nothing. -/
theorem write_cons {v : Json} (h : Legible d v) (l : Layout) (level : Nat) :
    ∃ c more, write l level v = c :: more ∧ isBlank c = false ∧ c ≠ ']' ∧ c ≠ Char.ofNat 0xfeff := by
  cases h with
  | null => exact ⟨_, _, rfl, by decide⟩
  | bool _ b => cases b <;> exact ⟨_, _, rfl, by decide⟩
  | int => exact (beginsNumber_digits _).cons
  | str => exact ⟨_, _, rfl, by decide⟩
  | arr =>
    obtain ⟨more, first⟩ := enclose_cons l level '[' ']' _
    exact ⟨_, _, first, by decide⟩
  | obj =>
    obtain ⟨more, first⟩ := enclose_cons l level '{' '}' _
    exact ⟨_, _, first, by decide⟩

theorem arrange_map (plain : l.sorted = false) (members : Dict (List Char)) : l.arrange members = members := by
  rw [Layout.arrange, plain]
  rfl

/-- An array is read element by element. -/
theorem readsAs_items {items : List Json} {f : Json → Json} (parts : ∀ v ∈ items, ReadsAs l limits d v (f v)) :
    ReadsAs l limits (d + 1) (.arr items) (.arr (items.map f)) := by
  have begins (level : Nat) (parts : List (List Char)) :
      ∃ c more, l.enclose level '[' ']' parts = c :: more ∧ isBlank c = false ∧ c ≠ ']' := by
    obtain ⟨more, first⟩ := enclose_cons l level '[' ']' parts
    exact ⟨_, _, first, by decide⟩
  refine ⟨fun level => begins level _, ?_⟩
  intro level fuel depth rest deep steps _
  obtain ⟨depth, rfl⟩ : ∃ n, depth = n + 1 := ⟨depth - 1, by omega⟩
  cases items with
  | nil =>
    obtain ⟨fuel, rfl⟩ : ∃ n, fuel = n + 1 :=
      ⟨fuel - 1, by simp [write, writeItems, Layout.enclose] at steps; omega⟩
    rfl
  | cons v more =>
    have next := parts v List.mem_cons_self
    have between := @readItems_write l limits d (v :: more) f (by simp) parts (level + 1) level
    have steps' := joined_lt_enclose l level '[' ']' (write l (level + 1) v) (writeItems l (level + 1) more)
    rw [write, writeItems] at steps ⊢
    obtain ⟨fuel, rfl⟩ : ∃ n, fuel = n + 1 := ⟨fuel - 1, by omega⟩
    have skip (behind : List Char) := next.skipBlank_joined (level + 1) (writeItems l (level + 1) more) behind
    obtain ⟨c, head, first, _, given⟩ := next.begins (level + 1)
    obtain ⟨further, begins⟩ := joined_cons l (level + 1) (write l (level + 1) v)
      (writeItems l (level + 1) more)
    rw [enclose_append, readValue_items]
    · rw [writeItems] at between
      rw [skipBlank_lineBreak, skip, between rest (by omega) (by omega)]
      rfl
    · rw [skipBlank_lineBreak, skip, begins, first]
      simpa using given

/-- An object that has no name twice is read member by member. -/
theorem readsAs_members (plain : l.sorted = false) {members : Dict Json} {f : Json → Json}
    (once : Dict.Distinct members) (parts : ∀ entry ∈ members, ReadsAs l limits d entry.2 (f entry.2)) :
    ReadsAs l limits (d + 1) (.obj members) (.obj (Dict.mapValues f members)) := by
  have begins (level : Nat) (parts : List (List Char)) :
      ∃ c more, l.enclose level '{' '}' parts = c :: more ∧ isBlank c = false ∧ c ≠ ']' := by
    obtain ⟨more, first⟩ := enclose_cons l level '{' '}' parts
    exact ⟨_, _, first, by decide⟩
  refine ⟨fun level => begins level _, ?_⟩
  intro level fuel depth rest deep steps _
  obtain ⟨depth, rfl⟩ : ∃ n, depth = n + 1 := ⟨depth - 1, by omega⟩
  cases members with
  | nil =>
    rw [write, arrange_map plain] at steps ⊢
    obtain ⟨fuel, rfl⟩ : ∃ n, fuel = n + 1 :=
      ⟨fuel - 1, by simp [writeMembers, Layout.enclose] at steps; omega⟩
    rfl
  | cons entry more =>
    have between := @readMembers_write l limits d (entry :: more) f (by simp) parts (level + 1) level
    have steps' := joined_lt_enclose l level '{' '}'
      (writeString entry.1 ++ l.colon ++ write l (level + 1) entry.2)
      ((writeMembers l (level + 1) more).map (·.2))
    rw [write, arrange_map plain, writeMembers, List.map_cons] at steps ⊢
    dsimp only at steps ⊢
    obtain ⟨fuel, rfl⟩ : ∃ n, fuel = n + 1 := ⟨fuel - 1, by omega⟩
    obtain ⟨further, quoted⟩ := joined_member l (level + 1) entry.1 (write l (level + 1) entry.2)
      ((writeMembers l (level + 1) more).map (·.2)) (l.lineBreak level ++ '}' :: rest)
    have skip : skipBlank ('"' :: further) = '"' :: further := skipBlank_of_not_blank _ rfl
    rw [enclose_append, readValue_members]
    · rw [writeMembers, List.map_cons] at between
      dsimp only at between
      rw [skipBlank_lineBreak, quoted, skip, ← quoted, between rest (by omega) (by omega)]
      simp only [Except.map, Dict.ofList_eq_self (once.mapValues f)]
    · rw [skipBlank_lineBreak, quoted, skip]
      simp

theorem readsAs_null : ReadsAs l limits d .null .null := by
  refine ⟨fun _ => ⟨_, _, rfl, by decide⟩, ?_⟩
  intro level fuel depth rest _ steps _
  obtain ⟨fuel, rfl⟩ : ∃ n, fuel = n + 1 := ⟨fuel - 1, by simp [write] at steps; omega⟩
  rfl

theorem readsAs_bool (b : Bool) : ReadsAs l limits d (.bool b) (.bool b) := by
  refine ⟨fun _ => by cases b <;> exact ⟨_, _, rfl, by decide⟩, ?_⟩
  intro level fuel depth rest _ steps _
  obtain ⟨fuel, rfl⟩ : ∃ n, fuel = n + 1 := ⟨fuel - 1, by cases b <;> simp [write] at steps <;> omega⟩
  cases b <;> rfl

theorem readsAs_number {v w : Json} {cs : List Char} (text : ∀ level, write l level v = cs) (number : BeginsNumber cs)
    (back : ∀ rest, Ends rest → readNumber limits (cs ++ rest) = .ok (w, rest)) : ReadsAs l limits d v w := by
  obtain ⟨c, more, first, blank, closes, _⟩ := number.cons
  refine ⟨fun level => ⟨c, more, by rw [text, first], blank, closes⟩, ?_⟩
  intro level fuel depth rest _ steps ends
  rw [text] at steps ⊢
  obtain ⟨fuel, rfl⟩ : ∃ n, fuel = n + 1 := ⟨fuel - 1, by rw [first, List.length_cons] at steps; omega⟩
  rw [(number.append rest).readValue]
  exact back rest ends

theorem readsAs_int (room : ∀ k, limits.digits = some k → digitLimit ≤ k) {n : Int}
    (short : Whole.isWritable n = true) : ReadsAs l limits d (.int n) (.int n) :=
  readsAs_number (fun _ => rfl) (beginsNumber_digits n) fun _ ends => readNumber_digits room short ends

theorem readsAs_str (s : String) : ReadsAs l limits d (.str s) (.str s) := by
  refine ⟨fun _ => ⟨_, _, rfl, by decide⟩, ?_⟩
  intro level fuel depth rest _ steps _
  obtain ⟨fuel, rfl⟩ : ∃ n, fuel = n + 1 := ⟨fuel - 1, by simp [write, writeString] at steps; omega⟩
  have text : write l level (.str s) ++ rest = '"' :: (s.toList.flatMap writeChar ++ '"' :: rest) := by
    simp only [write, writeString, List.cons_append, List.append_assoc, List.nil_append]
  rw [text, readValue, readString_write]
  rfl

theorem readValue_write (plain : l.sorted = false)
    (room : ∀ k, limits.digits = some k → digitLimit ≤ k) {v : Json} (h : Legible d v) :
    ReadsAs l limits d v v := by
  induction h with
  | null => exact readsAs_null
  | bool _ b => exact readsAs_bool b
  | int _ short => exact readsAs_int room short
  | str _ s => exact readsAs_str s
  | @arr d items parts back =>
    have read := readsAs_items (f := id) back
    rwa [List.map_id] at read
  | @obj d members once parts back =>
    have read := readsAs_members (f := id) plain once back
    rwa [Dict.mapValues_id] at read

theorem areWritable_of_each {items : List Json} (each : ∀ v ∈ items, isWritable v = true) : areWritable items = true := by
  induction items with
  | nil => rfl
  | cons v more ih =>
    obtain ⟨first, later⟩ := List.forall_mem_cons.mp each
    rw [areWritable, first, Bool.true_and, ih later]

theorem membersAreWritable_of_each {members : Dict Json} (each : ∀ m ∈ members, isWritable m.2 = true) :
    membersAreWritable members = true := by
  induction members with
  | nil => rfl
  | cons entry more ih =>
    obtain ⟨first, later⟩ := List.forall_mem_cons.mp each
    rw [membersAreWritable, first, Bool.true_and, ih later]

/-- What comes back has a text. -/
theorem Legible.isWritable {v : Json} (h : Legible d v) : isWritable v = true := by
  induction h with
  | null d => rfl
  | bool d b => rfl
  | int d short => exact short
  | str d s => rfl
  | arr _ written => exact areWritable_of_each written
  | obj _ _ written => exact membersAreWritable_of_each written

/-- A value is read with what may stand behind it: nothing but blanks. -/
theorem ReadsAs.readChars {v w : Json} (h : ReadsAs l limits d v w) (deep : d ≤ limits.depth) {rest : List Char}
    (ends : Ends rest) (blank : skipBlank rest = []) : readChars limits (write l 0 v ++ rest) = .ok w := by
  have steps : (write l 0 v).length ≤ (write l 0 v ++ rest).length + 1 := by
    rw [List.length_append]
    omega
  have back := h.back 0 _ limits.depth rest deep steps ends
  rw [Json.readChars, h.skipBlank_write, back]
  simp only [bind, Except.bind, blank]

/-- A whole text is read, unless it begins with a mark. -/
theorem ReadsAs.read {v w : Json} (h : ReadsAs l limits d v w) (deep : d ≤ limits.depth)
    (unmarked : (write l 0 v).head? ≠ some (Char.ofNat 0xfeff)) : read (String.ofList (write l 0 v)) limits = .ok w := by
  have whole := h.readChars deep ends_nil rfl
  rw [List.append_nil] at whole
  rw [Json.read, String.toList_ofList, if_neg unmarked, whole]

theorem readChars_write (plain : l.sorted = false) (room : ∀ k, limits.digits = some k → digitLimit ≤ k) {v : Json}
    (h : Legible d v) (deep : d ≤ limits.depth) {rest : List Char} (ends : Ends rest) (blank : skipBlank rest = []) :
    readChars limits (write l 0 v ++ rest) = .ok v :=
  (readValue_write plain room h).readChars deep ends blank

theorem read_write (plain : l.sorted = false) (room : ∀ k, limits.digits = some k → digitLimit ≤ k) {v : Json}
    (h : Legible d v) (deep : d ≤ limits.depth) :
    read (String.ofList (write l 0 v)) limits = .ok v := by
  obtain ⟨c, more, first, _, _, no_mark⟩ := write_cons h l 0
  exact (readValue_write plain room h).read deep (by rw [first]; simpa using no_mark)

/-- A text with a value of limited depth is read as that value. -/
theorem read_text (plain : l.sorted = false) (room : ∀ k, limits.digits = some k → digitLimit ≤ k) {v : Json}
    (h : Legible d v) (deep : d ≤ limits.depth) : ∃ s, text l v = .ok s ∧ read s limits = .ok v :=
  ⟨_, if_pos h.isWritable, read_write plain room h deep⟩

end Values

end ServerSettings.Json
