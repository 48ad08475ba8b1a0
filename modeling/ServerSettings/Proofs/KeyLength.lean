import ServerSettings.Proofs.Base64
import ServerSettings.Proofs.Json.Reading
import ServerSettings.Proofs.Patterns
import ServerSettings.Proofs.Validation
import ServerSettings.Startup

/-!
# How long the keys of checked settings are

A key must be forty characters long and be Base64, which in standard Base64 is at least twenty-eight bytes. The reader
passes over pads behind whole groups of data, so a text may reach its length by pads alone.

* `length_of_decode`: a text of forty characters holds twenty-eight bytes unless it is over-padded;
* `isKeyText_encode`: what is written of bytes is long enough exactly if there are twenty-eight of them;
* `accepted_keys`: the keys of checked settings are such texts, and a server is given exactly their bytes;
* `short_key_accepted`: three bytes with pads behind them are accepted.
-/

namespace ServerSettings

namespace Base64

/-- Too little data for twenty-eight bytes, and more pads than any last group needs. -/
def IsOverPadded (text : String) : Prop :=
  dataCount text.toList < 38 ∧ 2 < padCount text.toList

/-- A text of forty characters holds twenty-eight bytes unless it is over-padded. -/
theorem length_of_decode {text : String} {bytes : List UInt8} (long : 40 ≤ text.toList.length)
    (h : decode? text = some bytes) : 28 ≤ bytes.length ↔ ¬IsOverPadded text := by
  obtain ⟨length, ending, _⟩ := decode?_some h
  have counts := length_eq_counts text.toList
  unfold IsOverPadded
  omega

theorem isKeyCharacter_char (n : Nat) : IsKeyCharacter (char n) := by
  by_cases small : n < 64
  · have each : ∀ n < 64, IsKeyCharacter (char n) := by decide
    exact each n small
  · have last : char n = '/' := by
      unfold char
      rw [if_neg (by omega), if_neg (by omega), if_neg (by omega), if_neg (by omega)]
    rw [last]
    decide

/-- What is written of bytes may be a key exactly if there are twenty-eight of them, or more. -/
theorem isKeyText_encode (bytes : List UInt8) : IsKeyText (encode bytes) ↔ 28 ≤ bytes.length := by
  have characters := forall_mem_encodeChars (by decide) isKeyCharacter_char bytes
  rw [IsKeyText, encode, String.toList_ofList, length_encodeChars]
  constructor
  · rintro ⟨long, _⟩
    omega
  · intro long
    exact ⟨by omega, characters⟩

end Base64

namespace Resolution

open Base64 (dataCount IsOverPadded)

variable {s t : Settings}

/-- Checked settings have nothing that validation would find. -/
theorem problems_of_check (h : check s = (.ok (), t)) : problems t tablePatterns = .ok [] :=
  (validate_ok (check_ok h)).2

/-- The check leaves keys as they are. -/
theorem text_of_check (h : check s = (.ok (), t)) {f : TextSetting} (mem : f ∈ Tables.keys) : t.text f = s.text f :=
  key_of_correctPort (validate_ok (check_ok h)).1 mem

/-- Every key of checked settings is long enough as a text. -/
theorem long_key_of_check (h : check s = (.ok (), t)) {f : TextSetting} (mem : f ∈ Tables.keys) :
    40 ≤ (t.text f).toList.length := by
  have matched := (problems_eq_nil.mp (problems_of_check h)).1
  obtain ⟨value, read, matching⟩ := matched _ (mem_tablePatterns (Tables.key_listed mem))
  have content : t.get (Leaf.text f).path = .ok (t.text f) := t.get_path (.text f)
  obtain rfl : t.text f = value := Except.ok.inj (content.symm.trans read)
  exact ((Pattern.keyMaterial_matches _).mp matching).1

theorem key_ne_empty_of_check (h : check s = (.ok (), t)) {f : TextSetting} (mem : f ∈ Tables.keys) :
    t.text f ≠ "" := by
  intro empty
  have long := long_key_of_check h mem
  rw [empty] at long
  exact absurd long (by decide)

/-- Every key of checked settings can be decoded. -/
theorem key_of_check (h : check s = (.ok (), t)) {f : TextSetting} (mem : f ∈ Tables.keys) :
    ∃ key, decodeKey? (t.text f) = some key :=
  ((problems_eq_nil.mp (problems_of_check h)).2 f mem).resolve_left (key_ne_empty_of_check h mem)

/-- A key of checked settings has a byte. -/
theorem length_pos_of_check (h : check s = (.ok (), t)) {f : TextSetting} (mem : f ∈ Tables.keys) {key : List UInt8}
    (read : decodeKey? (t.text f) = some key) : 0 < key.length := by
  obtain ⟨length, ending, data⟩ := Base64.decode?_some read
  have some_data := data fun empty => key_ne_empty_of_check h mem (String.toList_eq_nil_iff.mp empty)
  omega

end Resolution

open Resolution Base64

/-- The keys of checked settings are decoded, a server is given exactly what they hold, and that is at least
twenty-eight bytes for each key that is not over-padded. -/
theorem accepted_keys (s : Settings) (accepted : (check s).1 = .ok ()) :
    let t := (check s).2
    ∃ key : TextSetting → List UInt8,
      (∀ f ∈ Tables.keys, decodeKey? (t.text f) = some (key f) ∧
        (key f).length = dataCount (t.text f).toList * 3 / 4 ∧
        (28 ≤ (key f).length ↔ ¬IsOverPadded (t.text f))) ∧
      Startup.hashKey? t = .ok (key .cookieHash) ∧
      Startup.blockKey? t = .ok (some (key .cookieEncryption)) ∧
      Startup.accessKey? t = some (key .accessKeyEncryption) := by
  intro t
  have h : check s = (.ok (), t) := Prod.ext accepted rfl
  let key (f : TextSetting) : List UInt8 := (decodeKey? (t.text f)).getD []
  have read : ∀ f ∈ Tables.keys, decodeKey? (t.text f) = some (key f) := by
    intro f mem
    obtain ⟨bytes, decoded⟩ := key_of_check h mem
    simp only [key, decoded, Option.getD_some]
  refine ⟨key, fun f mem => ⟨read f mem, ?_, ?_⟩, ?_, ?_, ?_⟩
  · exact (Base64.decode?_some (read f mem)).1
  · exact Base64.length_of_decode (long_key_of_check h mem) (read f mem)
  · have hash : TextSetting.cookieHash ∈ Tables.keys := by decide
    have pos := length_pos_of_check h hash (read _ hash)
    rw [Startup.hashKey?, read _ hash]
    cases bytes : key .cookieHash with
    | nil => rw [bytes] at pos; cases pos
    | cons b more => rfl
  · have block : TextSetting.cookieEncryption ∈ Tables.keys := by decide
    rw [Startup.blockKey?, if_neg (key_ne_empty_of_check h block), read _ block]
  · have access : TextSetting.accessKeyEncryption ∈ Tables.keys := by decide
    rw [Startup.accessKey?, if_neg (key_ne_empty_of_check h access), read _ access]

/-- Settings that pass the check if their keys do. -/
def Settings.withKeys (key : String) : Settings where
  text
    | .cookieHash | .cookieEncryption | .accessKeyEncryption => key
    | .gitClient => "go_git"
    | .port => "3000"
    | _ => ""

theorem accepted_keys_of_standard :
    let s := Settings.withKeys "c3Nzc3Nzc3Nzc3Nzc3Nzc3Nzc3Nzc3Nzc3Nzc3Nzc3M="
    (check s).1 = .ok () ∧ ∃ key, decodeKey? ((check s).2.text .cookieHash) = some key ∧ 28 ≤ key.length ∧
      Startup.hashKey? (check s).2 = .ok key := by
  intro s
  have accepted : (check s).1 = .ok () := ok_of_toOption (by decide +kernel)
  have kept : (check s).2.text .cookieHash = s.text .cookieHash := text_of_check (Prod.ext accepted rfl) (by decide)
  obtain ⟨key, keys, hash, _, _⟩ := accepted_keys s accepted
  obtain ⟨read, _, iff⟩ := keys .cookieHash (by decide)
  have plain : ¬IsOverPadded ((check s).2.text .cookieHash) := by
    have data : dataCount (s.text .cookieHash).toList = 43 := by decide +kernel
    rw [kept]
    rintro ⟨few, _⟩
    omega
  exact ⟨accepted, key .cookieHash, read, iff.mpr plain, hash⟩

/-- Four characters of data with thirty-six pads behind them pass the check and are three bytes. -/
theorem short_key_accepted :
    let s := Settings.withKeys "AAAA===================================="
    (check s).1 = .ok () ∧ decodeKey? ((check s).2.text .cookieHash) = some [0, 0, 0] ∧
      Startup.hashKey? (check s).2 = .ok [0, 0, 0] := by
  intro s
  have accepted : (check s).1 = .ok () := ok_of_toOption (by decide +kernel)
  have decoded : decodeKey? ((check s).2.text .cookieHash) = some [0, 0, 0] := by
    rw [text_of_check (Prod.ext accepted rfl) (by decide)]
    decide +kernel
  refine ⟨accepted, decoded, ?_⟩
  rw [Startup.hashKey?, decoded]

end ServerSettings
