import Mathlib.Data.Nat.Notation
import ServerSettings.Text.Encoding

/-!
# UTF-8 read back

* `next_encode`: the bytes of a character are read as that character;
* `decode_encode`: so a text is read back from its bytes;
* `Encoding.decodeDetected_encode`: also where the encoding has to be found out first, if the text begins with two
  ASCII characters.
-/

namespace ServerSettings.Utf8

section Character

theorem lead_one {b : Nat} (h : b < 0x80) : lead? b = some ⟨0, 0, 0, b⟩ :=
  if_pos h

theorem lead_two {b : Nat} (least : 0xc2 ≤ b) (most : b < 0xe0) : lead? b = some ⟨1, 0x80, 0xbf, b - 0xc0⟩ := by
  rw [lead?, if_neg (by omega), if_neg (by omega), if_pos most]

/-- The byte after the first of three keeps out what two bytes can spell, and surrogates. -/
theorem lead_three {b : Nat} (least : 0xe0 ≤ b) (most : b < 0xf0) :
    lead? b = some ⟨2, if b = 0xe0 then 0xa0 else 0x80, if b = 0xed then 0x9f else 0xbf, b - 0xe0⟩ := by
  rw [lead?, if_neg (by omega), if_neg (by omega), if_neg (by omega)]
  by_cases first : b = 0xe0
  · subst first
    rfl
  · by_cases surrogate : b = 0xed
    · subst surrogate
      rfl
    · rw [if_neg first, if_neg surrogate, if_pos most, if_neg first, if_neg surrogate]

/-- The byte after the first of four keeps out what three bytes can spell, and what lies beyond the last character. -/
theorem lead_four {b : Nat} (least : 0xf0 ≤ b) (most : b ≤ 0xf4) :
    lead? b = some ⟨3, if b = 0xf0 then 0x90 else 0x80, if b = 0xf4 then 0x8f else 0xbf, b - 0xf0⟩ := by
  obtain rfl | rfl | rfl | rfl | rfl : b = 0xf0 ∨ b = 0xf1 ∨ b = 0xf2 ∨ b = 0xf3 ∨ b = 0xf4 := by omega
  all_goals rfl

theorem tails_cons {need low high value used : Nat} {b : UInt8} {rest : List UInt8} (least : low ≤ b.toNat)
    (most : b.toNat ≤ high) :
    tails (need + 1) low high value used (b :: rest) =
      tails need 0x80 0xbf (value * 64 + (b.toNat - 0x80)) (used + 1) rest :=
  if_pos ⟨least, most⟩

/-- The bytes of a character are read as that character. -/
theorem next_encode (c : Char) (rest : List UInt8) :
    ∃ b more, String.utf8EncodeChar c = b :: more ∧ next b (more ++ rest) = .char c (more.length + 1) := by
  obtain ⟨v, value⟩ : ∃ v, v = c.toNat := ⟨_, rfl⟩
  have char : Char.ofNat v = c := by rw [value, Char.ofNat_toNat]
  have scalar : v < 0xd800 ∨ 0xdfff < v ∧ v < 0x110000 := by
    rw [value]
    exact c.valid
  have byte {n : Nat} (h : n < 256) : (UInt8.ofNat n).toNat = n := UInt8.toNat_ofNat_of_lt' h
  have bytes : String.utf8EncodeChar c = _ := String.utf8EncodeChar.eq_1 c
  simp only [show c.val.toNat = v from value.symm] at bytes
  rw [bytes]
  by_cases one : v ≤ 127
  · refine ⟨_, _, if_pos one, ?_⟩
    rw [next, byte (by omega), lead_one (by omega)]
    simp only [tails, char, List.length_nil]
  rw [if_neg one]
  by_cases two : v ≤ 2047
  · refine ⟨_, _, if_pos two, ?_⟩
    have first := byte (n := v / 64 % 32 + 192) (by omega)
    have second := byte (n := v % 64 + 128) (by omega)
    rw [next, first, lead_two (by omega) (by omega)]
    simp only [List.cons_append, List.nil_append]
    rw [tails_cons (by omega) (by omega), second, tails]
    rw [show (v / 64 % 32 + 192 - 0xc0) * 64 + (v % 64 + 128 - 0x80) = v by omega, char]
    rfl
  rw [if_neg two]
  by_cases three : v ≤ 65535
  · refine ⟨_, _, if_pos three, ?_⟩
    have first := byte (n := v / 4096 % 16 + 224) (by omega)
    have second := byte (n := v / 64 % 64 + 128) (by omega)
    have third := byte (n := v % 64 + 128) (by omega)
    rw [next, first, lead_three (by omega) (by omega)]
    simp only [List.cons_append, List.nil_append]
    rw [tails_cons (by split <;> omega) (by split <;> omega), second, tails_cons (by omega) (by omega), third, tails]
    rw [show ((v / 4096 % 16 + 224 - 0xe0) * 64 + (v / 64 % 64 + 128 - 0x80)) * 64 + (v % 64 + 128 - 0x80) = v by omega,
      char]
    rfl
  · refine ⟨_, _, if_neg three, ?_⟩
    have first := byte (n := v / 262144 % 8 + 240) (by omega)
    have second := byte (n := v / 4096 % 64 + 128) (by omega)
    have third := byte (n := v / 64 % 64 + 128) (by omega)
    have fourth := byte (n := v % 64 + 128) (by omega)
    rw [next, first, lead_four (by omega) (by omega)]
    simp only [List.cons_append, List.nil_append]
    rw [tails_cons (by split <;> omega) (by split <;> omega), second, tails_cons (by omega) (by omega), third,
      tails_cons (by omega) (by omega), fourth, tails]
    rw [show (((v / 262144 % 8 + 240 - 0xf0) * 64 + (v / 4096 % 64 + 128 - 0x80)) * 64 +
      (v / 64 % 64 + 128 - 0x80)) * 64 + (v % 64 + 128 - 0x80) = v by omega, char]
    rfl

end Character

/-- Bytes of a character that is already read are passed over. -/
theorem decodeWith_skip (mend : List UInt8 → Nat → Option (Char × Nat)) (position : Nat) (passed rest : List UInt8) :
    decodeWith mend passed.length position (passed ++ rest) =
      decodeWith mend 0 (position + passed.length) rest := by
  induction passed generalizing position with
  | nil => rfl
  | cons b passed ih =>
    rw [List.length_cons, List.cons_append, decodeWith, ih]
    congr 1
    omega

theorem decodeWith_encode (mend : List UInt8 → Nat → Option (Char × Nat)) (position : Nat) (cs : List Char) :
    decodeWith mend 0 position (encode cs) = .ok cs := by
  induction cs generalizing position with
  | nil => rfl
  | cons c cs ih =>
    obtain ⟨b, more, bytes, read⟩ := next_encode c (encode cs)
    have whole : encode (c :: cs) = b :: (more ++ encode cs) := by
      rw [encode, List.flatMap_cons, bytes]
      rfl
    rw [whole, decodeWith, read]
    simp only [Nat.add_sub_cancel, decodeWith_skip, ih]
    rfl

/-- A text is read back from its bytes. -/
theorem decode_encode (cs : List Char) : decode (encode cs) = .ok cs :=
  decodeWith_encode surrogateMend 0 cs

end ServerSettings.Utf8

namespace ServerSettings.Encoding

/-- No mark begins with a byte of ASCII that is not zero. -/
theorem ofMark?_ascii {b : UInt8} (rest : List UInt8) (zero : b ≠ 0) (ascii : b < 0x80) : ofMark? (b :: rest) = none := by
  unfold ofMark?
  split
  · next eq => exact absurd (List.cons.inj eq).1 zero
  · next eq => exact absurd ((List.cons.inj eq).1 ▸ ascii) (by decide)
  · next eq => exact absurd ((List.cons.inj eq).1 ▸ ascii) (by decide)
  · next eq => exact absurd ((List.cons.inj eq).1 ▸ ascii) (by decide)
  · next eq => exact absurd ((List.cons.inj eq).1 ▸ ascii) (by decide)
  · rfl

theorem ofZeros_plain {a b : UInt8} (rest : List UInt8) (first : a ≠ 0) (second : b ≠ 0) :
    ofZeros (a :: b :: rest) = .utf8 false := by
  rcases rest with _ | ⟨c, _ | ⟨d, rest⟩⟩
  · rw [ofZeros, if_neg first, if_neg second]
  · rfl
  · rw [ofZeros, if_neg first, if_neg second]

/-- A text that begins with two ASCII characters is taken for UTF-8 and read back from its bytes. -/
theorem decodeDetected_encode {a b : Char} {cs : List Char} (first : 0 < a.toNat ∧ a.toNat < 0x80)
    (second : 0 < b.toNat ∧ b.toNat < 0x80) : decodeDetected (Utf8.encode (a :: b :: cs)) = .ok (a :: b :: cs) := by
  have byte {c : Char} (ascii : c.toNat < 0x80) : String.utf8EncodeChar c = [UInt8.ofNat c.toNat] :=
    (String.utf8EncodeChar.eq_1 c).trans (if_pos (by simpa using Nat.le_of_lt_succ ascii))
  have given {c : Char} (h : 0 < c.toNat ∧ c.toNat < 0x80) : UInt8.ofNat c.toNat ≠ 0 ∧ UInt8.ofNat c.toNat < 0x80 := by
    have number : (UInt8.ofNat c.toNat).toNat = c.toNat := UInt8.toNat_ofNat_of_lt' (Nat.lt_trans h.2 (by decide))
    constructor
    · intro zero
      rw [zero] at number
      exact absurd number.symm (Nat.ne_of_gt h.1)
    · rw [UInt8.lt_iff_toNat_lt, number]
      exact h.2
  have bytes : Utf8.encode (a :: b :: cs) = UInt8.ofNat a.toNat :: UInt8.ofNat b.toNat :: Utf8.encode cs := by
    rw [Utf8.encode, List.flatMap_cons, List.flatMap_cons, byte first.2, byte second.2]
    rfl
  have plain : detect (Utf8.encode (a :: b :: cs)) = .utf8 false := by
    rw [detect, bytes, ofMark?_ascii _ (given first).1 (given first).2, ofZeros_plain _ (given first).1 (given second).1]
    rfl
  rw [decodeDetected, plain, decode, if_neg Bool.false_ne_true, Utf8.decode_encode]
  rfl

end ServerSettings.Encoding
