import ServerSettings.Text.Split

/-!
Blank characters in the sense of Unicode, and trimming them off a text.
-/

namespace ServerSettings.Text

/-- White space of Unicode, with the four information separators of ASCII. -/
def isBlank (c : Char) : Bool :=
  let n := c.toNat
  (9 ≤ n ∧ n ≤ 13) ∨ (0x1c ≤ n ∧ n ≤ 0x20) ∨ n = 0x85 ∨ n = 0xa0 ∨ n = 0x1680 ∨
    (0x2000 ≤ n ∧ n ≤ 0x200a) ∨ n = 0x2028 ∨ n = 0x2029 ∨ n = 0x202f ∨ n = 0x205f ∨ n = 0x3000

theorem isBlank_of_isWhitespace {c : Char} (h : c.isWhitespace = true) : isBlank c = true := by
  simp only [Char.isWhitespace, Bool.or_eq_true, decide_eq_true_eq] at h
  rcases h with ((rfl | rfl) | rfl) | rfl <;> decide

/-- A text without the blanks at its ends. -/
def strip (s : String) : String :=
  String.ofList (trim isBlank s.toList)

/-- A text without the line feeds at its end. -/
def stripNewlines (s : String) : String :=
  String.ofList (trimEnd (· = '\n') s.toList)

end ServerSettings.Text
