import ServerSettings.Proofs.Utf8
import ServerSettings.Text.FormEncoding

/-!
# Form encoding read back

* `isSafe_encode`: an encoded text is made of letters, digits and six marks only;
* `decodeBytes_encode`: it stands for the bytes of the text, so no two texts have one encoding;
* `decode_encode`: it is read back as the text.
-/

namespace ServerSettings

/-- A text is read back from its bytes, and no character has to be replaced. -/
theorem Utf8.decodeLossy_encode (cs : List Char) : decodeLossy (encode cs) = cs := by
  simp only [decodeLossy, decodeWith_encode]

namespace FormEncoding

/-- A character that may stand in an encoded text. -/
def IsSafe (c : Char) : Prop :=
  c.isAlphanum = true ∨ c ∈ ['_', '.', '~', '%', '+', '-']

instance (c : Char) : Decidable (IsSafe c) :=
  inferInstanceAs (Decidable (_ ∨ _))

section Digits

variable {n : Nat}

theorem hexValue?_upperHexDigit (small : n < 16) : Text.hexValue? (upperHexDigit n) = some n := by
  have each : ∀ n < 16, Text.hexValue? (upperHexDigit n) = some n := by decide
  exact each n small

theorem isSafe_upperHexDigit (small : n < 16) : IsSafe (upperHexDigit n) := by
  have each : ∀ n < 16, IsSafe (upperHexDigit n) := by decide
  exact each n small

end Digits

theorem isSafe_percent (b : UInt8) : ∀ c ∈ percent b, IsSafe c := by
  have bound := b.toNat_lt
  simp only [percent, List.forall_mem_cons, List.not_mem_nil, false_implies, implies_true, and_true]
  refine ⟨by decide, ?_, ?_⟩
  · apply isSafe_upperHexDigit
    omega
  · apply isSafe_upperHexDigit
    omega

theorem isSafe_encodeChar (c : Char) : ∀ d ∈ encodeChar c, IsSafe d := by
  intro d mem
  unfold encodeChar at mem
  split at mem
  · next plain =>
    obtain rfl := List.mem_singleton.mp mem
    simp only [isPlain, decide_eq_true_eq] at plain
    rcases plain with letter | rfl | rfl | rfl | rfl
    · exact .inl letter
    all_goals decide
  split at mem
  · obtain rfl := List.mem_singleton.mp mem
    decide
  · obtain ⟨b, _, mem⟩ := List.mem_flatMap.mp mem
    exact isSafe_percent b d mem

/-- Nothing but letters, digits and six marks stands in an encoded text. -/
theorem isSafe_encode (s : String) : ∀ c ∈ (encode s).toList, IsSafe c := by
  intro c mem
  rw [encode, String.toList_ofList] at mem
  obtain ⟨d, _, mem⟩ := List.mem_flatMap.mp mem
  exact isSafe_encodeChar d c mem

section Decoding

variable (rest : List Char)

theorem decodeBytes_cons {c : Char} (other : c ≠ '%') :
    decodeBytes (c :: rest) = (if c = '+' then [0x20] else String.utf8EncodeChar c) ++ decodeBytes rest := by
  rw [decodeBytes]
  intro a b more eq
  exact absurd eq other

/-- A percent sign and two digits stand for a byte. -/
theorem decodeBytes_percent (b : UInt8) : decodeBytes (percent b ++ rest) = b :: decodeBytes rest := by
  have bound := b.toNat_lt
  have high := hexValue?_upperHexDigit (n := b.toNat / 16) (by omega)
  have low := hexValue?_upperHexDigit (n := b.toNat % 16) (by omega)
  have byte : UInt8.ofNat (b.toNat / 16 * 16 + b.toNat % 16) = b := by
    rw [Nat.div_add_mod']
    exact UInt8.ofNat_toNat
  simp only [percent, List.cons_append, List.nil_append, decodeBytes, high, low, byte]

theorem decodeBytes_percents (bytes : List UInt8) :
    decodeBytes (bytes.flatMap percent ++ rest) = bytes ++ decodeBytes rest := by
  induction bytes with
  | nil => rfl
  | cons b bytes ih => simp only [List.flatMap_cons, List.append_assoc, decodeBytes_percent, ih, List.cons_append]

/-- An encoded character stands for the bytes of the character. -/
theorem decodeBytes_encodeChar (c : Char) :
    decodeBytes (encodeChar c ++ rest) = String.utf8EncodeChar c ++ decodeBytes rest := by
  unfold encodeChar
  split
  · next plain =>
    have percentSign : c ≠ '%' := by
      rintro rfl
      exact absurd plain (by decide)
    have plus : c ≠ '+' := by
      rintro rfl
      exact absurd plain (by decide)
    simp only [List.cons_append, List.nil_append, decodeBytes_cons rest percentSign, if_neg plus]
  split
  · next blank =>
    subst blank
    rfl
  · exact decodeBytes_percents rest _

end Decoding

/-- An encoded text stands for the bytes of the text. -/
theorem decodeBytes_encode (s : String) : decodeBytes (encode s).toList = Utf8.encode s.toList := by
  rw [encode, String.toList_ofList]
  induction s.toList with
  | nil => rfl
  | cons c cs ih => rw [List.flatMap_cons, decodeBytes_encodeChar, ih, Utf8.encode, Utf8.encode, List.flatMap_cons]

/-- An encoded text is read back as the text. -/
theorem decode_encode (s : String) : decode (encode s) = s.toList := by
  rw [decode, decodeBytes_encode, Utf8.decodeLossy_encode]

theorem encode_injective {s t : String} (same : encode s = encode t) : s = t := by
  apply String.toList_inj.mp
  rw [← decode_encode s, same, decode_encode]

end FormEncoding

end ServerSettings
