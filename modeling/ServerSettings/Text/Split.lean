/-!
Texts as lists of characters: cutting at a separator, and cutting off what stands at the ends.
-/

namespace ServerSettings.Text

/-- The pieces of a text between the places where `sep` stands; there is always at least one. -/
def split (sep : Char) : List Char → List (List Char)
  | [] => [[]]
  | c :: rest =>
    if c = sep then [] :: split sep rest
    else
      match split sep rest with
      | [] => [[c]]
      | piece :: pieces => (c :: piece) :: pieces

theorem split_ne_nil (sep : Char) (cs : List Char) : split sep cs ≠ [] := by
  cases cs with
  | nil => simp [split]
  | cons c rest =>
    simp only [split]
    split
    · simp
    · split <;> simp

/-- The text before the first `sep` and the text after it, if `sep` occurs. -/
def cut? (sep : Char) : List Char → Option (List Char × List Char)
  | [] => none
  | c :: rest =>
    if c = sep then some ([], rest)
    else (cut? sep rest).map fun p => (c :: p.1, p.2)

/-- What is left of a text that begins with `start`. -/
def after? : (start text : List Char) → Option (List Char)
  | [], text => some text
  | _ :: _, [] => none
  | a :: start, c :: text => if a = c then after? start text else none

theorem after?_append (start text : List Char) : after? start (start ++ text) = some text := by
  induction start with
  | nil => rfl
  | cons a start ih => simp [after?, ih]

theorem after?_eq_some {start text rest : List Char} (h : after? start text = some rest) :
    text = start ++ rest := by
  induction start generalizing text with
  | nil => simpa [after?] using h
  | cons a start ih =>
    cases text with
    | nil => simp [after?] at h
    | cons c text =>
      simp only [after?] at h
      split at h
      · next eq => simp [eq, ih h]
      · simp at h

/-- Does `part` occur in the text? -/
def occurs (part : List Char) : List Char → Bool
  | [] => part.isEmpty
  | c :: rest => (after? part (c :: rest)).isSome || occurs part rest

/-- The text without the characters of a class at its end. -/
def trimEnd (drop : Char → Bool) (cs : List Char) : List Char :=
  (cs.reverse.dropWhile drop).reverse

/-- The text without the characters of a class at either end. -/
def trim (drop : Char → Bool) (cs : List Char) : List Char :=
  trimEnd drop (cs.dropWhile drop)

/-- The text made at least `width` long by putting `fill` in front. -/
def padLeft (fill : Char) (width : Nat) (cs : List Char) : List Char :=
  List.replicate (width - cs.length) fill ++ cs

/-- The text made at least `width` long by putting `fill` behind. -/
def padRight (fill : Char) (width : Nat) (cs : List Char) : List Char :=
  cs ++ List.replicate (width - cs.length) fill

/-- A number in base sixteen with lowercase digits, at least `width` long. -/
def hex (width n : Nat) : List Char :=
  padLeft '0' width (Nat.toDigits 16 n)

/-- The value of a hexadecimal digit in either case. -/
def hexValue? (c : Char) : Option Nat :=
  if '0' ≤ c ∧ c ≤ '9' then some (c.toNat - '0'.toNat)
  else if 'a' ≤ c ∧ c ≤ 'f' then some (c.toNat - 'a'.toNat + 10)
  else if 'A' ≤ c ∧ c ≤ 'F' then some (c.toNat - 'A'.toNat + 10)
  else none

end ServerSettings.Text
