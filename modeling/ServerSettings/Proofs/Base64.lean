import ServerSettings.Text.Base64

/-!
# Base64 texts

* `length_encodeChars`, `forall_mem_encodeChars`: how much is written, and of what;
* `decode?_encode`: what was written is read back;
* `decode?_some`: a text that is read has as many bytes as its data holds, and its pads complete the last group of
  data, unless that is complete without them: then there may be any number of pads.
-/

namespace ServerSettings.Base64

/-- How many characters of a text hold data. -/
def dataCount (cs : List Char) : Nat :=
  cs.countP (· ≠ '=')

def padCount (cs : List Char) : Nat :=
  cs.countP (· = '=')

theorem dataCount_pad (rest : List Char) : dataCount ('=' :: rest) = dataCount rest := by
  simp [dataCount]

theorem dataCount_of_ne {c : Char} (h : c ≠ '=') (rest : List Char) : dataCount (c :: rest) = dataCount rest + 1 := by
  simp [dataCount, h]

theorem padCount_pad (rest : List Char) : padCount ('=' :: rest) = padCount rest + 1 := by
  simp [padCount]

theorem padCount_of_ne {c : Char} (h : c ≠ '=') (rest : List Char) : padCount (c :: rest) = padCount rest := by
  simp [padCount, h]

theorem length_eq_counts (cs : List Char) : cs.length = dataCount cs + padCount cs := by
  induction cs with
  | nil => rfl
  | cons c rest ih =>
    rw [List.length_cons, ih]
    by_cases pad : c = '='
    · rw [pad, dataCount_pad, padCount_pad, Nat.add_assoc]
    · rw [dataCount_of_ne pad, padCount_of_ne pad, Nat.add_right_comm]

section Writing

theorem char_ne_pad {n : Nat} (h : n < 64) : char n ≠ '=' := by
  intro pad
  have none_read := sextet?_char h
  rw [pad] at none_read
  cases none_read

/-- Outside of the padding a character of the alphabet is taken in. -/
theorem decodeFrom_char {g : Group} (plain : g.padded = false) {n : Nat} (small : n < 64) (rest : List Char) :
    decodeFrom g (char n :: rest) = (decodeFrom (g.take n).2 rest).map ((g.take n).1 ++ ·) := by
  rw [decodeFrom, if_neg (char_ne_pad small), sextet?_char small]
  simp only [plain, Bool.false_eq_true, if_false]

theorem take_first (v : Nat) : Group.take {} v = ([], { count := 1, held := v }) := rfl

theorem take_second (held v : Nat) : Group.take { count := 1, held := held } v =
    ([UInt8.ofNat (held * 4 + v / 16)], { count := 2, held := v % 16 }) := rfl

theorem take_third (held v : Nat) : Group.take { count := 2, held := held } v =
    ([UInt8.ofNat (held * 16 + v / 4)], { count := 3, held := v % 4 }) := rfl

theorem take_fourth (held v : Nat) : Group.take { count := 3, held := held } v =
    ([UInt8.ofNat (held * 64 + v)], {}) := rfl

theorem decodeFrom_encodeChars (bytes : List UInt8) : decodeFrom {} (encodeChars bytes) = some bytes := by
  have regroup {n : Nat} {b : UInt8} (h : n = b.toNat) : UInt8.ofNat n = b := by
    rw [h, UInt8.ofNat_toNat]
  induction bytes using encodeChars.induct with
  | case1 => rfl
  | case2 a =>
    have small := a.toNat_lt
    rw [encodeChars, decodeFrom_char rfl (by omega), take_first, decodeFrom_char rfl (by omega), take_second,
      regroup (by omega : _ = a.toNat)]
    rfl
  | case3 a b =>
    have small := a.toNat_lt
    have small' := b.toNat_lt
    rw [encodeChars, decodeFrom_char rfl (by omega), take_first, decodeFrom_char rfl (by omega), take_second,
      decodeFrom_char rfl (by omega), take_third, regroup (by omega : _ = a.toNat),
      regroup (by omega : _ = b.toNat)]
    rfl
  | case4 a b c rest ih =>
    have small := a.toNat_lt
    have small' := b.toNat_lt
    have small'' := c.toNat_lt
    rw [encodeChars, decodeFrom_char rfl (by omega), take_first, decodeFrom_char rfl (by omega), take_second,
      decodeFrom_char rfl (by omega), take_third, decodeFrom_char rfl (by omega), take_fourth,
      regroup (by omega : _ = a.toNat), regroup (by omega : _ = b.toNat), regroup (by omega : _ = c.toNat), ih]
    rfl

/-- Four characters are written for every three bytes that are begun. -/
theorem length_encodeChars (bytes : List UInt8) : (encodeChars bytes).length = (bytes.length + 2) / 3 * 4 := by
  induction bytes using encodeChars.induct with
  | case1 => simp [encodeChars]
  | case2 a => simp [encodeChars]
  | case3 a b => simp [encodeChars]
  | case4 a b c rest ih =>
    simp only [encodeChars, List.length_cons, ih]
    omega

/-- Only pads and characters of the alphabet are written. -/
theorem forall_mem_encodeChars {P : Char → Prop} (pad : P '=') (data : ∀ n, P (char n)) (bytes : List UInt8) :
    ∀ c ∈ encodeChars bytes, P c := by
  induction bytes using encodeChars.induct with
  | case1 => simp [encodeChars]
  | case2 a => simp [encodeChars, pad, data]
  | case3 a b => simp [encodeChars, pad, data]
  | case4 a b c rest ih => simpa [encodeChars, data] using ih

theorem decode?_encode (bytes : List UInt8) : decode? (encode bytes) = some bytes := by
  have no_pad : (encodeChars bytes).head? ≠ some '=' := by
    have small (a : UInt8) : a.toNat / 4 < 64 := by
      have := a.toNat_lt
      omega
    cases bytes using encodeChars.fun_cases with
    | case1 => simp [encodeChars]
    | case2 a => simpa [encodeChars] using char_ne_pad (small a)
    | case3 a b => simpa [encodeChars] using char_ne_pad (small a)
    | case4 a b c rest => simpa [encodeChars] using char_ne_pad (small a)
  rw [decode?, encode, String.toList_ofList, if_neg no_pad, decodeFrom_encodeChars]

end Writing

section Reading

/-- A group that a reader can be in: pads are counted only where they may complete it, and have not done so yet. -/
structure Group.Sound (g : Group) : Prop where
  count : g.count < 4
  before : 2 ≤ g.count → g.count + g.padding < 4
  plain : g.padded = false → g.padding = 0

theorem Group.take_padding (g : Group) (v : Nat) : (g.take v).2.padding = 0 := by
  unfold Group.take
  split
  · rfl
  · split
    · rfl
    · split <;> rfl

theorem Group.take_count {g : Group} (small : g.count < 4) (v : Nat) : (g.take v).2.count = (g.count + 1) % 4 := by
  unfold Group.take
  split
  · next h => rw [h]
  · split
    · next h => rw [h]
    · split
      · next h => rw [h]
      · show 0 = _
        omega

/-- The bytes told so far are those that the data holds. -/
theorem Group.take_length {g : Group} (small : g.count < 4) (v : Nat) :
    (g.take v).1.length + g.count * 3 / 4 = (g.count + 1) * 3 / 4 := by
  unfold Group.take
  split
  · next h => simp [h]
  · split
    · next h => simp [h]
    · split
      · next h => simp [h]
      · have last : g.count = 3 := by omega
        simp [last]

theorem Group.Sound.take {g : Group} (sound : g.Sound) (v : Nat) : (g.take v).2.Sound where
  count := by
    rw [Group.take_count sound.count]
    omega
  before _ := by
    rw [Group.take_count sound.count, Group.take_padding]
    omega
  plain _ := Group.take_padding g v

/-- What is behind a group that was read: data is only behind one without pads, and the pads complete the last group
of data unless it is complete. -/
theorem decodeFrom_some {g : Group} (sound : g.Sound) {cs : List Char} {bytes : List UInt8}
    (h : decodeFrom g cs = some bytes) :
    (g.padded = true → dataCount cs = 0) ∧
      bytes.length + g.count * 3 / 4 = (g.count + dataCount cs) * 3 / 4 ∧
      ((g.count + dataCount cs) % 4 = 0 ∨
        2 ≤ (g.count + dataCount cs) % 4 ∧ g.padding + padCount cs + (g.count + dataCount cs) % 4 = 4) := by
  have small := sound.count
  induction cs generalizing g bytes with
  | nil =>
    rw [decodeFrom] at h
    split at h
    · next complete =>
      cases h
      simp [dataCount, complete]
    · cases h
  | cons c rest ih =>
    rw [decodeFrom] at h
    by_cases pad : c = '='
    · subst pad
      rw [if_pos rfl] at h
      rw [dataCount_pad, padCount_pad]
      by_cases completes : 2 ≤ g.count ∧ 4 ≤ g.count + (g.padding + 1)
      · rw [if_pos completes] at h
        split at h
        · next last =>
          cases h
          have before := sound.before completes.1
          have none_left : rest = [] := List.isEmpty_iff.mp last
          subst none_left
          have data : dataCount [] = 0 := rfl
          have pads : padCount [] = 0 := rfl
          refine ⟨fun _ => rfl, ?_⟩
          rw [data, pads, List.length_nil]
          omega
        · cases h
      · rw [if_neg completes] at h
        have next : Group.Sound { g with padded := true, padding := g.padding + (if 2 ≤ g.count then 1 else 0) } := by
          refine ⟨small, fun two => ?_, fun plain => by cases plain⟩
          have two : 2 ≤ g.count := two
          show g.count + (g.padding + if 2 ≤ g.count then 1 else 0) < 4
          rw [if_pos two]
          omega
        obtain ⟨no_data, length, ending⟩ := ih next h small
        refine ⟨fun _ => no_data rfl, length, ?_⟩
        dsimp only at ending
        rw [no_data rfl, Nat.add_zero] at ending ⊢
        by_cases two : 2 ≤ g.count
        · simp only [two, if_true] at ending
          omega
        · omega
    · rw [if_neg pad] at h
      split at h
      · cases h
      · next v _ =>
        split at h
        · cases h
        · next plain =>
          obtain ⟨more, read, rfl⟩ := Option.map_eq_some_iff.mp h
          have next := sound.take v
          obtain ⟨_, length, ending⟩ := ih next read next.count
          have told := Group.take_length small v
          have padding := sound.plain (by simpa using plain)
          rw [Group.take_count small] at length ending
          rw [Group.take_padding] at ending
          rw [dataCount_of_ne pad, padCount_of_ne pad, List.length_append]
          refine ⟨fun padded => absurd padded plain, ?_⟩
          have counts : g.count = 0 ∨ g.count = 1 ∨ g.count = 2 ∨ g.count = 3 := by omega
          rcases counts with count | count | count | count <;> rw [count] at length ending told ⊢ <;> omega

/-- A text that is read has as many bytes as its data holds, and pads that complete its last group if it is not
complete. A text that is not empty holds data. -/
theorem decode?_some {s : String} {bytes : List UInt8} (h : decode? s = some bytes) :
    bytes.length = dataCount s.toList * 3 / 4 ∧
      (dataCount s.toList % 4 = 0 ∨
        2 ≤ dataCount s.toList % 4 ∧ padCount s.toList + dataCount s.toList % 4 = 4) ∧
      (s.toList ≠ [] → 0 < dataCount s.toList) := by
  rw [decode?] at h
  split at h
  · cases h
  · next plain =>
    have sound : Group.Sound {} := ⟨by decide, fun two => absurd two (by decide), fun _ => rfl⟩
    obtain ⟨_, length, ending⟩ := decodeFrom_some sound h
    simp only [Nat.zero_mul, Nat.zero_div, Nat.add_zero, Nat.zero_add] at length ending
    refine ⟨length, ending, fun given => ?_⟩
    cases text : s.toList with
    | nil => exact absurd text given
    | cons c rest =>
      have data : c ≠ '=' := by simpa [text] using plain
      simp [dataCount, data]

end Reading

end ServerSettings.Base64
