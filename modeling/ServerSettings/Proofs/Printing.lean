import ServerSettings.Console.Printed
import ServerSettings.Proofs.Json.Grammar
import ServerSettings.Proofs.Verbatim

/-!
# Printing documents

A text without controls of which no line ends in a blank is printed as it is, with a line break behind it. The text of a
document is one.

* `follow`: whether text may stand behind other text, and whether a blank is at its end;
* `printText_of_solid`: what is solid is printed as it is;
* `solid_write`: what is written of a value that can be read back is solid, in every layout.
-/

namespace ServerSettings.Console

open Json (IsVisible visible_of_all)
open Text (isBlank split)

/-- Goes on from a place behind a blank or a line break, or behind another character: no line may end at the former, and
no control may come. -/
def stepOver (blank : Bool) (c : Char) : Option Bool :=
  if c = '\n' then if blank then none else some true
  else if c.toNat < 0x20 then none
  else some (isBlank c)

/-- Goes over a text. -/
def follow (blank : Bool) (cs : List Char) : Option Bool :=
  cs.foldlM stepOver blank

/-- A text that may stand anywhere, and ends in a character that is no blank. -/
def Solid (cs : List Char) : Prop :=
  ∀ blank, follow blank cs = some false

section Follow

theorem follow_cons (blank : Bool) (c : Char) (cs : List Char) :
    follow blank (c :: cs) = (stepOver blank c).bind fun next => follow next cs :=
  List.foldlM_cons

theorem follow_append (blank : Bool) (cs ds : List Char) :
    follow blank (cs ++ ds) = (follow blank cs).bind fun next => follow next ds :=
  List.foldlM_append

theorem stepOver_visible {c : Char} (visible : IsVisible c) (blank : Bool) : stepOver blank c = some (isBlank c) := by
  have uncontrolled : ¬c.toNat < 0x20 := Nat.not_lt.mpr visible
  have other : c ≠ '\n' := by
    rintro rfl
    exact uncontrolled (by decide)
  rw [stepOver, if_neg other, if_neg uncontrolled]

/-- The state behind a line that goes on depends on its last character. -/
theorem follow_visible {cs : List Char} (visible : ∀ c ∈ cs, IsVisible c) (blank : Bool) :
    follow blank cs = some ((cs.getLast?.map isBlank).getD blank) := by
  induction cs generalizing blank with
  | nil => rfl
  | cons c rest ih =>
    rw [follow_cons, stepOver_visible (visible c List.mem_cons_self), Option.bind_some,
      ih fun d mem => visible d (List.mem_cons_of_mem c mem)]
    cases rest with
    | nil => rfl
    | cons d more =>
      rw [List.getLast?_cons_cons]
      obtain ⟨last, ends⟩ : ∃ last, (d :: more).getLast? = some last := ⟨_, List.getLast?_eq_some_getLast (by simp)⟩
      rw [ends]
      rfl

/-- A piece of a line is solid if its last character is no blank. -/
theorem Solid.of_visible {cs : List Char} {last : Char} (visible : ∀ c ∈ cs, IsVisible c) (ends : cs.getLast? = some last)
    (shown : isBlank last = false) : Solid cs := by
  intro blank
  rw [follow_visible visible, ends, Option.map_some, shown]
  rfl

theorem Solid.append {cs ds : List Char} (first : Solid cs) (second : Solid ds) : Solid (cs ++ ds) := by
  intro blank
  rw [follow_append, first, Option.bind_some, second]

/-- Between two pieces there may be whatever can follow the first. -/
theorem Solid.around {cs gap ds : List Char} {next : Bool} (first : Solid cs) (between : follow false gap = some next)
    (second : Solid ds) : Solid (cs ++ gap ++ ds) := by
  intro blank
  rw [follow_append, follow_append, first, Option.bind_some, between, Option.bind_some, second]

end Follow

section Printing

/-- A line that ends in a character other than a blank. -/
def IsFull (line : List Char) : Prop :=
  ∃ last, line.getLast? = some last ∧ isBlank last = false

/-- Nothing but line breaks and visible characters can be gone over. -/
theorem shown_of_stepOver {blank : Bool} {c : Char} {next : Bool} (taken : stepOver blank c = some next) :
    c = '\n' ∨ IsVisible c := by
  rw [stepOver] at taken
  split at taken
  · next isBreak => exact .inl isBreak
  split at taken
  · cases taken
  · next visible => exact .inr (Nat.le_of_not_lt visible)

theorem shown_of_follow {blank : Bool} {cs : List Char} {next : Bool} (h : follow blank cs = some next) :
    ∀ c ∈ cs, c = '\n' ∨ IsVisible c := by
  induction cs generalizing blank with
  | nil => simp
  | cons c rest ih =>
    rw [follow_cons] at h
    obtain ⟨state, taken, h⟩ := Option.bind_eq_some_iff.mp h
    exact List.forall_mem_cons.mpr ⟨shown_of_stepOver taken, ih h⟩

/-- Every line of a text is full, but the first may be empty where something other than a blank stands in front. -/
theorem full_of_follow {blank : Bool} {cs : List Char} (h : follow blank cs = some false) :
    ∃ line lines, split '\n' cs = line :: lines ∧ (IsFull line ∨ line = [] ∧ blank = false) ∧
      ∀ other ∈ lines, IsFull other := by
  induction cs generalizing blank with
  | nil => exact ⟨[], [], rfl, .inr ⟨rfl, Option.some.inj h⟩, fun _ mem => absurd mem List.not_mem_nil⟩
  | cons c rest ih =>
    rw [follow_cons] at h
    by_cases isBreak : c = '\n'
    · subst isBreak
      cases blank with
      | true => cases h
      | false =>
        obtain ⟨line, lines, pieces, first, others⟩ := ih h
        have full : IsFull line := first.resolve_right fun short => by cases short.2
        refine ⟨[], line :: lines, ?_, .inr ⟨rfl, rfl⟩, List.forall_mem_cons.mpr ⟨full, others⟩⟩
        rw [split, if_pos rfl, pieces]
    · obtain ⟨state, taken, h⟩ := Option.bind_eq_some_iff.mp h
      have visible : IsVisible c := (shown_of_stepOver taken).resolve_left isBreak
      cases (stepOver_visible visible blank).symm.trans taken
      obtain ⟨line, lines, pieces, first, others⟩ := ih h
      refine ⟨c :: line, lines, ?_, .inl ?_, others⟩
      · rw [split, if_neg isBreak, pieces]
      · rcases first with ⟨last, ends, shown⟩ | ⟨rfl, shown⟩
        · refine ⟨last, ?_, shown⟩
          cases line with
          | nil => cases ends
          | cons d more => rw [List.getLast?_cons_cons, ends]
        · exact ⟨c, rfl, shown⟩

/-- In a solid text there is nothing to leave out, to fill or to cut off. -/
theorem Solid.isVerbatim {cs : List Char} (h : Solid cs) : IsVerbatim (String.ofList cs) := by
  obtain ⟨line, lines, pieces, first, others⟩ := full_of_follow (h true)
  have full : IsFull line := first.resolve_right fun short => by cases short.2
  have shown := shown_of_follow (h true)
  constructor <;> rw [String.toList_ofList]
  · intro c mem
    rcases shown c mem with rfl | visible
    · decide
    · have uncontrolled : ¬c.toNat < 0x20 := Nat.not_lt.mpr visible
      simp only [isDropped, List.mem_cons, List.not_mem_nil, or_false, decide_eq_false_iff_not]
      omega
  · intro mem
    exact absurd (shown _ mem) (by decide)
  · rw [pieces]
    intro other mem
    obtain ⟨last, ends, blank⟩ := (List.forall_mem_cons (p := IsFull)).mpr ⟨full, others⟩ other mem
    exact .inr fun last' ends' => Option.some.inj (ends.symm.trans ends') ▸ blank

/-- What is solid is printed as it is, with a line break behind it. -/
theorem printText_of_solid {cs : List Char} (h : Solid cs) :
    printText (String.ofList cs) = String.ofList (cs ++ ['\n']) := by
  rw [(printText_eq_iff _).mpr h.isVerbatim, String.ofList_append]

end Printing

section Documents

open Json (Layout Legible mem_arrange write writeItems_eq writeMembers_eq writeString)

variable {d : Nat}

theorem solid_singleton {c : Char} (visible : IsVisible c) (shown : isBlank c = false) : Solid [c] :=
  .of_visible (by simpa using visible) rfl shown

theorem solid_writeString (s : String) : Solid (writeString s) :=
  .of_visible (Json.visible_writeString s) (List.getLast?_concat ..) (by decide)

theorem shown_of_isDigit {c : Char} (digit : Whole.isDigit c = true) : isBlank c = false := by
  have bounds : 48 ≤ c.toNat ∧ c.toNat ≤ 57 := of_decide_eq_true digit
  simp only [isBlank, decide_eq_false_iff_not]
  omega

theorem solid_digits (n : Int) : Solid (Whole.digits n) := by
  have last := List.getLast?_eq_some_getLast (Nat.toDigits_ne_nil (b := 10) (n := n.natAbs))
  have ends : (Whole.digits n).getLast? = (Nat.toDigits 10 n.natAbs).getLast? := by
    rw [Whole.digits]
    split
    · rw [List.getLast?_cons, last, Option.getD_some]
    · rfl
  exact .of_visible (Json.visible_digits n) (ends.trans last)
    (shown_of_isDigit (Json.isDigit_toDigits (List.getLast_mem Nat.toDigits_ne_nil)))

variable (l : Layout)

theorem follow_lineBreak (level : Nat) : ∃ next, follow false (l.lineBreak level) = some next := by
  rw [Layout.lineBreak]
  split
  · exact ⟨_, rfl⟩
  · next n _ =>
    have blanks : ∀ c ∈ List.replicate (n * level) ' ', IsVisible c := by
      intro c mem
      rw [List.eq_of_mem_replicate mem]
      decide
    exact ⟨_, (follow_cons ..).trans (follow_visible blanks true)⟩

theorem follow_colon : ∃ next, follow false l.colon = some next := by
  rw [Layout.colon]
  split
  · exact ⟨_, rfl⟩
  · exact ⟨_, rfl⟩

theorem solid_joined (level : Nat) {parts : List (List Char)} (given : parts ≠ []) (each : ∀ part ∈ parts, Solid part) :
    Solid (l.joined level parts) := by
  induction parts with
  | nil => exact absurd rfl given
  | cons part rest ih =>
    cases rest with
    | nil =>
      rw [Json.joined_singleton]
      exact each part List.mem_cons_self
    | cons next more =>
      obtain ⟨first, later⟩ := List.forall_mem_cons.mp each
      obtain ⟨state, between⟩ := follow_lineBreak l level
      have comma : Solid [','] := solid_singleton (by decide) (by decide)
      have behind := (first.append comma).around between (ih (by simp) later)
      rw [Json.joined_cons_cons]
      simpa only [List.append_assoc, List.cons_append, List.nil_append] using behind

/-- Brackets around solid parts. -/
theorem solid_enclose (level : Nat) {opening closing : Char}
    (opens : IsVisible opening ∧ isBlank opening = false) (closes : IsVisible closing ∧ isBlank closing = false)
    {parts : List (List Char)} (each : ∀ part ∈ parts, Solid part) : Solid (l.enclose level opening closing parts) := by
  have first : Solid [opening] := solid_singleton opens.1 opens.2
  have last : Solid [closing] := solid_singleton closes.1 closes.2
  cases parts with
  | nil => exact first.append last
  | cons part rest =>
    obtain ⟨_, before⟩ := follow_lineBreak l (level + 1)
    obtain ⟨_, behind⟩ := follow_lineBreak l level
    have inside := first.around before (solid_joined l (level + 1) (List.cons_ne_nil part rest) each)
    have whole := Json.enclose_append l level opening closing part rest []
    rw [List.append_nil] at whole
    have closed := inside.around behind last
    rw [whole]
    simpa only [List.append_assoc, List.cons_append, List.nil_append] using closed

/-- What is written of a value that can be read back is solid. -/
theorem solid_write {v : Json} (h : Legible d v) (level : Nat) : Solid (write l level v) := by
  induction h generalizing level with
  | null =>
    show Solid ['n', 'u', 'l', 'l']
    exact .of_visible (visible_of_all (by decide)) rfl (by decide)
  | bool _ b =>
    cases b with
    | true =>
      show Solid ['t', 'r', 'u', 'e']
      exact .of_visible (visible_of_all (by decide)) rfl (by decide)
    | false =>
      show Solid ['f', 'a', 'l', 's', 'e']
      exact .of_visible (visible_of_all (by decide)) rfl (by decide)
  | int => exact solid_digits _
  | str => exact solid_writeString _
  | arr parts ih =>
    rw [write, writeItems_eq]
    refine solid_enclose l level (by decide) (by decide) fun part mem => ?_
    obtain ⟨v, inside, rfl⟩ := List.mem_map.mp mem
    exact ih v inside (level + 1)
  | obj once parts ih =>
    rw [write, writeMembers_eq]
    refine solid_enclose l level (by decide) (by decide) fun part mem => ?_
    obtain ⟨named, arranged, rfl⟩ := List.mem_map.mp mem
    obtain ⟨entry, inside, rfl⟩ := List.mem_map.mp (mem_arrange arranged)
    obtain ⟨_, between⟩ := follow_colon l
    exact (solid_writeString entry.1).around between (ih entry inside (level + 1))

/-- The text of a document is printed as it is, with a line break behind it. -/
theorem printText_write {v : Json} (h : Legible d v) :
    printText (String.ofList (write l 0 v)) = String.ofList (write l 0 v ++ ['\n']) :=
  printText_of_solid (solid_write l h 0)

end Documents

end ServerSettings.Console
