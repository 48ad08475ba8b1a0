import ServerSettings.Proofs.Failures
import ServerSettings.Proofs.KeyLength
import ServerSettings.Proofs.Splitting

/-!
# The lines of a report

A failed check tells its problems line by line, and the values that it shows come from outside. What they hold is quoted,
so no value can end its line or add one.

* `clean_quoted`: a quoted text is printable, whatever was quoted;
* `Problem.clean_message`: so is the message of every problem;
* `check_report`: the text of a failed check is cut into its head and one line for each problem.
-/

namespace ServerSettings

namespace Text

/-- Neither a control character nor one that ends a line or a paragraph. -/
def IsInline (c : Char) : Prop :=
  0x20 ≤ c.toNat ∧ ¬(0x7f ≤ c.toNat ∧ c.toNat < 0xa0) ∧ c.toNat ≠ 0x2028 ∧ c.toNat ≠ 0x2029

/-- A text of printable characters. -/
def Clean (s : String) : Prop :=
  ∀ c ∈ s.toList, isPrintable c = true

instance (s : String) : Decidable (Clean s) :=
  decidable_of_iff (s.toList.all isPrintable = true) List.all_eq_true

theorem isInline_of_isPrintable {c : Char} (h : isPrintable c = true) : IsInline c := by
  obtain ⟨low, control, line⟩ := not_control_of_isPrintable h
  simp only [endsLine, decide_eq_false_iff_not, not_or] at line
  exact ⟨low, control, line.2.1, line.2.2⟩

theorem Clean.append {s t : String} (first : Clean s) (second : Clean t) : Clean (s ++ t) := by
  intro c mem
  rw [String.toList_append] at mem
  exact (List.mem_append.mp mem).elim (first c) (second c)

section Quoting

theorem isPrintable_digitChar : ∀ n < 16, isPrintable (Nat.digitChar n) = true := by decide

theorem isPrintable_toDigits (n : Nat) : ∀ c ∈ Nat.toDigits 16 n, isPrintable c = true := by
  induction n using Nat.strongRecOn with
  | ind n ih =>
    intro c mem
    rw [Nat.toDigits_eq_if (by decide)] at mem
    split at mem
    · next small =>
      rw [List.mem_singleton.mp mem]
      exact isPrintable_digitChar n small
    · next large =>
      rcases List.mem_append.mp mem with before | last
      · exact ih (n / 16) (by omega) c before
      · rw [List.mem_singleton.mp last]
        exact isPrintable_digitChar (n % 16) (Nat.mod_lt n (by decide))

theorem isPrintable_hex (width n : Nat) : ∀ c ∈ hex width n, isPrintable c = true := by
  intro c mem
  rcases List.mem_append.mp mem with filled | digit
  · rw [(List.mem_replicate.mp filled).2]
    decide
  · exact isPrintable_toDigits n c digit

theorem isPrintable_codePointEscape (c : Char) : ∀ x ∈ codePointEscape c, isPrintable x = true := by
  have escaped (mark : Char) (shown : isPrintable mark = true) (width n : Nat) :
      ∀ x ∈ '\\' :: mark :: hex width n, isPrintable x = true :=
    List.forall_mem_cons.mpr ⟨by decide, List.forall_mem_cons.mpr ⟨shown, isPrintable_hex width n⟩⟩
  unfold codePointEscape
  split
  · exact escaped 'x' (by decide) 2 c.toNat
  split
  · exact escaped 'u' (by decide) 4 c.toNat
  · exact escaped 'U' (by decide) 8 c.toNat

/-- A character that is not printable is written by ones that are. -/
theorem isPrintable_quotedChar {quote : Char} (shown : isPrintable quote = true) (c : Char) :
    ∀ x ∈ quotedChar isPrintable quote c, isPrintable x = true := by
  have escaped {mark : Char} (marked : isPrintable mark = true) : ∀ x ∈ ['\\', mark], isPrintable x = true :=
    List.forall_mem_cons.mpr ⟨by decide, List.forall_mem_singleton.mpr marked⟩
  unfold quotedChar
  split
  · next reserved =>
    have marked : isPrintable c = true := by
      rcases reserved with rfl | rfl
      · exact shown
      · decide
    exact escaped marked
  split
  · exact escaped (by decide)
  split
  · exact escaped (by decide)
  split
  · exact escaped (by decide)
  split
  · next kept => exact List.forall_mem_singleton.mpr kept
  · exact isPrintable_codePointEscape c

/-- Whatever is quoted, the quoted text is printable. -/
theorem clean_quoted (s : String) : Clean (quoted s) := by
  have quote : isPrintable (quoteFor s.toList) = true := by
    unfold quoteFor
    split <;> decide
  intro c mem
  rw [quoted, quotedWith, String.toList_ofList] at mem
  rcases List.mem_append.mp mem with front | last
  · rcases List.mem_cons.mp front with rfl | inside
    · exact quote
    · obtain ⟨d, _, written⟩ := List.mem_flatMap.mp inside
      exact isPrintable_quotedChar quote d c written
  · rw [List.mem_singleton.mp last]
    exact quote

end Quoting

theorem Clean.not_mem_lineBreak {s : String} (clean : Clean s) : '\n' ∉ s.toList := by
  intro mem
  have shown := clean _ mem
  revert shown
  decide

end Text

open Text (Clean)

/-- Every message of a problem is printable, whatever the problem's path, value and pattern. -/
theorem Problem.clean_message (p : Problem) : Clean p.message := by
  have setting (path : String) : Clean ("value of setting " ++ Text.quoted path) :=
    .append (by decide +kernel) (Text.clean_quoted path)
  cases p with
  | mismatch path value pattern =>
    have shown : Clean ("value of setting " ++ Text.quoted path ++ " is not valid: " ++ Text.quoted value) :=
      ((setting path).append (by decide +kernel)).append (Text.clean_quoted value)
    show Clean (_ ++ " (must match pattern " ++ Text.quoted pattern.source ++ ")")
    exact ((shown.append (by decide +kernel)).append (Text.clean_quoted _)).append (by decide +kernel)
  | secretMismatch path pattern =>
    show Clean (_ ++ " is not valid! (must match pattern " ++ Text.quoted pattern.source ++ ")")
    exact (((setting path).append (by decide +kernel)).append (Text.clean_quoted _)).append (by decide +kernel)
  | notBase64 path => exact (setting path).append (by decide +kernel)

namespace Resolution

/-- The lines of a report: a head, and one for each message. -/
def reportLines (messages : List String) : List String :=
  "invalid config:" :: messages.map ("- " ++ ·)

/-- The text of a report is cut into its lines. -/
theorem split_report {messages : List String} (some_messages : messages ≠ [])
    (clean : ∀ m ∈ messages, Clean m) :
    Text.split '\n' (Error.validation messages).message.toList = (reportLines messages).map String.toList := by
  have text : (Error.validation messages).message.toList =
      ['\n'].intercalate ((reportLines messages).map String.toList) := by
    obtain ⟨first, more, rfl⟩ := List.exists_cons_of_ne_nil some_messages
    have head : "invalid config:\n".toList = "invalid config:".toList ++ ['\n'] := by decide +kernel
    show ("invalid config:\n" ++ String.intercalate "\n" ((first :: more).map ("- " ++ ·))).toList = _
    rw [String.toList_append, String.toList_intercalate, head]
    exact (List.intercalate_cons_cons ..).symm
  have lines : ∀ line ∈ reportLines messages, Clean line := by
    refine List.forall_mem_cons.mpr ⟨by decide +kernel, fun line mem => ?_⟩
    obtain ⟨m, told, rfl⟩ := List.mem_map.mp mem
    exact .append (by decide +kernel) (clean m told)
  rw [text]
  refine Text.split_joined (by simp [reportLines]) fun line mem => ?_
  obtain ⟨s, listed, rfl⟩ := List.mem_map.mp mem
  exact (lines s listed).not_mem_lineBreak

/-- A check that fails reports the problems that validation finds, if it gets to its end: the text of the report is cut at
its line breaks into its head and one line for each problem, in their order, and no message holds a control character or
a separator of lines or paragraphs. Otherwise the settings are final and their port lacks its colon, or their number is
too large to be written. -/
theorem check_report (s : Settings) (e : Error) (failed : (check s).1 = .error e) :
    (∃ found, (validate tablePatterns s).1 = .ok found ∧ found ≠ [] ∧ e = .validation (found.map (·.message)) ∧
        Text.split '\n' e.message.toList = (reportLines (found.map (·.message))).map String.toList ∧
        ∀ p ∈ found, ∀ c ∈ p.message.toList, Text.IsInline c) ∨
      (s.frozen = true ∧ e = .frozen "port") ∨
      (Whole.isWritable s.maxParallelTasks = false ∧ e = .number .tooLarge) := by
  rw [check_apply] at failed
  rcases validated : validate tablePatterns s with ⟨fault | found, t⟩ <;> rw [validated] at failed
  · cases failed
    exact .inr (validate_failed tablePatterns_leaf validated)
  · cases found with
    | nil => cases failed
    | cons problem more =>
      cases failed
      refine .inl ⟨problem :: more, rfl, List.cons_ne_nil problem more, rfl, ?_, fun p _ c mem => ?_⟩
      · refine split_report (by simp) fun m told => ?_
        obtain ⟨p, _, rfl⟩ := List.mem_map.mp told
        exact p.clean_message
      · exact Text.isInline_of_isPrintable (p.clean_message c mem)

/-- A value that holds a whole line of its own, and a separator of lines, is told within one line. -/
theorem check_report_forged :
    let s := (Leaf.text .gitClient).write (.withKeys "c3Nzc3Nzc3Nzc3Nzc3Nzc3Nzc3Nzc3Nzc3Nzc3Nzc3M=") "x\n- y\u2028'"
    let message :=
      "value of setting 'git_client' is not valid: \"x\\n- y\\u2028'\" (must match pattern 'go_git|cmd_git')"
    ∃ e, (check s).1 = .error e ∧
      Text.split '\n' e.message.toList = ["invalid config:".toList, ("- " ++ message).toList] := by
  intro s message
  have told : (validate tablePatterns s).1.toOption.map (fun found => found.map (·.message)) = some [message] := by
    decide +kernel
  cases failed : (check s).1 with
  | ok =>
    have nothing : validate tablePatterns s = (.ok [], (check s).2) := check_ok (Prod.ext failed rfl)
    rw [nothing] at told
    cases told
  | error e =>
    rcases check_report s e failed with ⟨found, ends, _, _, lines, _⟩ | ⟨final, _⟩ | ⟨tooLarge, _⟩
    · rw [ends] at told
      have messages : found.map (·.message) = _ := Option.some.inj told
      refine ⟨e, rfl, ?_⟩
      rw [lines, messages]
      rfl
    · cases final
    · exact absurd tooLarge (by decide +kernel)

end Resolution

end ServerSettings
