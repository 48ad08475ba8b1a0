import ServerSettings.Console.Line
import ServerSettings.Proofs.Splitting

/-!
# Texts that are printed as they are

Printing leaves a few controls out, fills tabs with blanks, and cuts blanks off behind long lines. A text comes out as it
is if it gives no occasion to any of these, and only then.

* `cutBlanks_eq_iff`, `expandTabs_of_not_mem`: where one step of printing changes nothing;
* `printText_eq_iff`: where printing changes nothing, a line break behind the text apart.
-/

namespace ServerSettings.Console

open Text (isBlank split)

/-- Nothing is cut off behind a line that is no longer than the terminal is wide, or does not end in a blank. -/
def IsUncut (line : List Char) : Prop :=
  line.length ≤ columns ∨ ∀ last ∈ line.getLast?, isBlank last = false

/-- A text in which printing finds nothing to leave out, to fill or to cut off. -/
structure IsVerbatim (s : String) : Prop where
  undropped : ∀ c ∈ s.toList, isDropped c = false
  untabbed : '\t' ∉ s.toList
  uncut : ∀ line ∈ split '\n' s.toList, IsUncut line

instance (line : List Char) : Decidable (IsUncut line) :=
  have : Decidable (∀ last ∈ line.getLast?, isBlank last = false) := Option.decidableForallMem _
  inferInstanceAs (Decidable (_ ∨ _))

instance (s : String) : Decidable (IsVerbatim s) :=
  -- The characters of the text are tried, not all characters that there are.
  have : Decidable (∀ c ∈ s.toList, isDropped c = false) := List.decidableBAll _ s.toList
  have : Decidable (∀ line ∈ split '\n' s.toList, IsUncut line) := List.decidableBAll _ (split '\n' s.toList)
  decidable_of_iff
    ((∀ c ∈ s.toList, isDropped c = false) ∧ '\t' ∉ s.toList ∧ ∀ line ∈ split '\n' s.toList, IsUncut line)
    ⟨fun ⟨undropped, untabbed, uncut⟩ => ⟨undropped, untabbed, uncut⟩, fun h => ⟨h.undropped, h.untabbed, h.uncut⟩⟩

section Steps

theorem map_printLine_eq_iff {lines : List (List Char)} :
    lines.map printLine = lines ↔ ∀ line ∈ lines, printLine line = line := by
  simpa using List.map_inj_left (l := lines) (f := printLine) (g := id)

variable {cs : List Char}

theorem trailing_eq_zero_iff :
    (cs.reverse.takeWhile isBlank).length = 0 ↔ ∀ last ∈ cs.getLast?, isBlank last = false := by
  rw [← List.head?_reverse]
  cases cs.reverse with
  | nil => simp
  | cons last before => cases blank : isBlank last <;> simp [blank]

theorem cutBlanks_eq_iff (width : Nat) :
    cutBlanks width cs = cs ↔ cs.length ≤ width ∨ ∀ last ∈ cs.getLast?, isBlank last = false := by
  have bound : (cs.reverse.takeWhile isBlank).length ≤ cs.length := by
    simpa using (List.takeWhile_prefix isBlank (l := cs.reverse)).length_le
  have whole (n : Nat) : cs.take n = cs ↔ cs.length ≤ n := by
    refine ⟨fun same => ?_, List.take_of_length_le⟩
    have lengths := congrArg List.length same
    rw [List.length_take] at lengths
    omega
  rw [cutBlanks, whole, ← trailing_eq_zero_iff]
  omega

theorem mem_expandTabs {c : Char} {column : Nat} (mem : c ∈ expandTabs column cs) : c = ' ' ∨ c ∈ cs ∧ c ≠ '\t' := by
  fun_induction expandTabs column cs with
  | case1 => cases mem
  | case2 column rest blanks ih =>
    rcases List.mem_append.mp mem with filled | later
    · exact .inl (List.eq_of_mem_replicate filled)
    · exact (ih later).imp_right fun ⟨here, other⟩ => ⟨List.mem_cons_of_mem _ here, other⟩
  | case3 column d rest other ih =>
    rcases List.mem_cons.mp mem with rfl | later
    · exact .inr ⟨List.mem_cons_self, other⟩
    · exact (ih later).imp_right fun ⟨here, other⟩ => ⟨List.mem_cons_of_mem _ here, other⟩

theorem expandTabs_of_not_mem (column : Nat) (free : '\t' ∉ cs) : expandTabs column cs = cs := by
  fun_induction expandTabs column cs with
  | case1 => rfl
  | case2 => exact absurd List.mem_cons_self free
  | case3 column c rest other ih => rw [ih (List.not_mem_of_not_mem_cons free)]

/-- A printed line has blanks in it, and characters of the line other than tabs. -/
theorem mem_printLine {c : Char} (mem : c ∈ printLine cs) : c = ' ' ∨ c ∈ cs ∧ c ≠ '\t' :=
  mem_expandTabs (List.mem_of_mem_take mem)

theorem printLine_eq_iff (free : '\t' ∉ cs) : printLine cs = cs ↔ IsUncut cs := by
  rw [printLine, expandTabs_of_not_mem 0 free]
  exact cutBlanks_eq_iff columns

end Steps

theorem dropControls_eq_iff {cs : List Char} : dropControls cs = cs ↔ ∀ c ∈ cs, isDropped c = false := by
  simp [dropControls]

/-- No dropped control and no tab is ever printed. -/
theorem mem_printText {s : String} {c : Char} (mem : c ∈ (printText s).toList) : isDropped c = false ∧ c ≠ '\t' := by
  rw [printText, String.toList_ofList, List.mem_append] at mem
  rcases mem with inside | last
  · obtain separator | ⟨line, printed, mem⟩ := Text.mem_intercalate inside
    · subst separator
      exact ⟨by decide, by decide⟩
    · obtain ⟨piece, cut, rfl⟩ := List.mem_map.mp printed
      rcases mem_printLine mem with rfl | ⟨mem, other⟩
      · exact ⟨by decide, by decide⟩
      · have kept := Text.mem_of_mem_split cut mem
        exact ⟨by simpa using (List.mem_filter.mp kept).2, other⟩
  · rw [List.mem_singleton.mp last]
    exact ⟨by decide, by decide⟩

/-- A text is printed as it is, with a line break behind it, exactly if printing finds nothing in it to leave out, to
fill or to cut off. -/
theorem printText_eq_iff (s : String) : printText s = s ++ "\n" ↔ IsVerbatim s := by
  have lines_eq (lines : List (List Char)) :
      String.ofList (['\n'].intercalate lines ++ ['\n']) = s ++ "\n" ↔ ['\n'].intercalate lines = s.toList := by
    rw [← String.toList_inj, String.toList_ofList, String.toList_append]
    exact List.append_left_inj ['\n']
  constructor
  · intro printed
    have shown (c : Char) (mem : c ∈ s.toList) : isDropped c = false ∧ c ≠ '\t' := by
      apply mem_printText (s := s)
      rw [printed, String.toList_append]
      exact List.mem_append_left _ mem
    have undropped : dropControls s.toList = s.toList := dropControls_eq_iff.mpr fun c mem => (shown c mem).1
    have untabbed : '\t' ∉ s.toList := fun mem => (shown _ mem).2 rfl
    rw [printText, undropped, lines_eq] at printed
    -- Printed lines hold no line break, so cutting what is printed gives them back.
    have free : ∀ line ∈ (split '\n' s.toList).map printLine, '\n' ∉ line := by
      intro line mem inside
      obtain ⟨piece, cut, rfl⟩ := List.mem_map.mp mem
      rcases mem_printLine inside with blank | ⟨inside, _⟩
      · revert blank
        decide
      · exact Text.not_mem_of_mem_split s.toList piece cut inside
    have some_lines : (split '\n' s.toList).map printLine ≠ [] := by simp [Text.split_ne_nil]
    have same : (split '\n' s.toList).map printLine = split '\n' s.toList := by
      rw [← Text.split_joined some_lines free, printed]
    refine ⟨fun c mem => (shown c mem).1, untabbed, fun line cut => ?_⟩
    apply (printLine_eq_iff fun tab => untabbed (Text.mem_of_mem_split cut tab)).mp
    exact map_printLine_eq_iff.mp same line cut
  · intro verbatim
    have same : (split '\n' s.toList).map printLine = split '\n' s.toList := by
      apply map_printLine_eq_iff.mpr
      intro line cut
      exact (printLine_eq_iff fun tab => verbatim.untabbed (Text.mem_of_mem_split cut tab)).mpr (verbatim.uncut line cut)
    rw [printText, dropControls_eq_iff.mpr verbatim.undropped, lines_eq, same]
    exact Text.intercalate_split '\n' s.toList

end ServerSettings.Console
