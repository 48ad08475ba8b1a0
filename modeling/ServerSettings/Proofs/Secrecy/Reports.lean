import ServerSettings.Proofs.Reports

/-!
# Reports without regard to secrets

Of a secret, validation uses verdicts only: whether a pattern matches it, and of a key whether it is empty and whether it
can be decoded. So settings that differ in secrets alone are reported alike if the verdicts on these are the same.

* `account`: validation with any verdicts in the place of patterns, and what a reporter is told before it ends;
* `account_ofPattern`: over patterns it tells what `validate` finds, and ends as it ends;
* `SameVerdicts`: two settings that no report may tell apart;
* `account_discreet`: and none does.
-/

namespace ServerSettings

/-- A pattern as validation uses it: its text, and whether it matches a whole value. -/
structure Rule where
  source : String
  accepts : String → Bool

namespace Rule

def ofPattern (pattern : Pattern) : Rule := ⟨pattern.source, pattern.matches?⟩

/-- What is said of a value that a rule does not accept. -/
def complaint (rule : Rule) (path value : String) : String :=
  if isSecretPath path then
    "value of setting " ++ Text.quoted path ++ " is not valid! (must match pattern " ++ Text.quoted rule.source ++ ")"
  else
    "value of setting " ++ Text.quoted path ++ " is not valid: " ++ Text.quoted value ++
      " (must match pattern " ++ Text.quoted rule.source ++ ")"

theorem complaint_secret (rule : Rule) {path : String} (secret : isSecretPath path = true) (value other : String) :
    rule.complaint path value = rule.complaint path other := by
  rw [complaint, complaint, if_pos secret, if_pos secret]

end Rule

namespace Resolution

/-- What a reporter is told, also if validation breaks off, and how many settings are counted at its end. -/
structure Account where
  told : List String
  result : Except Error Nat

/-- What is had of validation when it has come to its end. -/
def Account.outcome (a : Account) : Except Error (List String × Nat) :=
  a.result.map fun count => (a.told, count)

variable {s t u v : Settings} {rules : List (String × Rule)} {path : String}

/-- The complaints, each with its path, in the order of the rules; and what breaks them off. -/
def complaints (s : Settings) : List (String × Rule) → List (String × String) × Option Error
  | [] => ([], none)
  | (path, rule) :: rest =>
    match s.get path with
    | .error e => ([], some e)
    | .ok value =>
      let more := complaints s rest
      (if rule.accepts value then more.1 else (path, rule.complaint path value) :: more.1, more.2)

/-- What a reporter is told once the port has its colon. -/
def report (rules : List (String × Rule)) (s : Settings) : Account :=
  match complaints s rules with
  | (refused, some e) => ⟨refused.map (·.2), .error e⟩
  | (refused, none) =>
    let keys := undecodable s (refused.map (·.1))
    ⟨refused.map (·.2) ++ keys.map (·.message), .ok (refused.map (·.1) ++ keys.map (·.path)).eraseDups.length⟩

/-- Validation, as it is told to a reporter. -/
def account (rules : List (String × Rule)) (s : Settings) : Account :=
  match correctPort s with
  | (.error e, _) => ⟨[], .error e⟩
  | (.ok (), t) => report rules t

section Patterns

def rulesOf (patterns : List (String × Pattern)) : List (String × Rule) :=
  patterns.map fun entry => (entry.1, .ofPattern entry.2)

theorem mismatch?_complaint (path value : String) (pattern : Pattern) :
    (mismatch? path value pattern).toList.map (fun problem => (problem.path, problem.message)) =
      if (Rule.ofPattern pattern).accepts value then [] else [(path, (Rule.ofPattern pattern).complaint path value)] := by
  rw [mismatch?, Rule.complaint]
  show _ = if pattern.matches? value then _ else _
  cases pattern.matches? value with
  | true => rfl
  | false => cases isSecretPath path <;> rfl

theorem complaints_ofPattern (s : Settings) (patterns : List (String × Pattern)) :
    match mismatches s patterns with
    | .ok found => complaints s (rulesOf patterns) = (found.map fun problem => (problem.path, problem.message), none)
    | .error e => (complaints s (rulesOf patterns)).2 = some e := by
  induction patterns with
  | nil => rfl
  | cons entry rest ih =>
    obtain ⟨path, pattern⟩ := entry
    rw [mismatches_cons, rulesOf, List.map_cons, complaints, ← rulesOf]
    cases s.get path with
    | error e => rfl
    | ok value =>
      cases later : mismatches s rest with
      | error e =>
        rw [later] at ih
        exact ih
      | ok more =>
        rw [later] at ih
        simp only [Except.bind, Except.map, ih, List.map_append, mismatch?_complaint]
        cases (Rule.ofPattern pattern).accepts value <;> rfl

/-- Over patterns, the reporter is told of the problems that validation finds, and it ends alike. -/
theorem account_ofPattern (patterns : List (String × Pattern)) (s : Settings) :
    (account (rulesOf patterns) s).outcome =
      (validate patterns s).1.map fun found => (found.map (·.message), countFailed found) := by
  rw [validate_apply, account]
  rcases correctPort s with ⟨e | _, t⟩
  · rfl
  · have told := complaints_ofPattern t patterns
    show (report _ t).outcome = (problems t patterns).map _
    rw [report, problems]
    cases listed : mismatches t patterns with
    | error e =>
      rw [listed] at told
      generalize complaints t (rulesOf patterns) = complained at told ⊢
      obtain ⟨refused, stop⟩ := complained
      cases told
      rfl
    | ok found =>
      rw [listed] at told
      simp only [told, List.map_map]
      show Except.ok (_, _) = Except.ok (List.map _ (found ++ undecodable t _), countFailed (found ++ undecodable t _))
      rw [countFailed, List.map_append, List.map_append]
      rfl

end Patterns

/-- Settings that agree on what may be shown, and on every verdict on what may not. -/
structure SameVerdicts (rules : List (String × Rule)) (s t : Settings) : Prop where
  shown : ∀ l : Leaf, isSecretPath l.path = false → l.read s = l.read t
  matched : ∀ entry ∈ rules, isSecretPath entry.1 = true →
    (s.get entry.1).map entry.2.accepts = (t.get entry.1).map entry.2.accepts
  empty : ∀ f ∈ Tables.keys, s.text f = "" ↔ t.text f = ""
  decodable : ∀ f ∈ Tables.keys, (decodeKey? (s.text f)).isSome = (decodeKey? (t.text f)).isSome

section Verdicts

/-- The port is no secret. -/
theorem get_of_correctPort (h : correctPort s = (.ok (), t)) (secret : isSecretPath path = true) :
    t.get path = s.get path := by
  refine get_congr fun l same => ?_
  rw [correctPort_ok h l]
  refine corrected_of_ne ?_ _
  rintro rfl
  subst same
  exact absurd secret (by decide +kernel)

theorem SameVerdicts.corrected (same : SameVerdicts rules s t) (left : correctPort s = (.ok (), u))
    (right : correctPort t = (.ok (), v)) : SameVerdicts rules u v := by
  refine ⟨fun l shown => ?_, fun entry mem secret => ?_, fun f mem => ?_, fun f mem => ?_⟩
  · rw [correctPort_ok left l, correctPort_ok right l, same.shown l shown]
  · rw [get_of_correctPort left secret, get_of_correctPort right secret]
    exact same.matched entry mem secret
  · rw [key_of_correctPort left mem, key_of_correctPort right mem]
    exact same.empty f mem
  · rw [key_of_correctPort left mem, key_of_correctPort right mem]
    exact same.decodable f mem

/-- One rule after the other gives the same complaint. Of a secret it is the verdict that decides, and the complaint does
not hold the value. -/
theorem SameVerdicts.complaints_eq (same : SameVerdicts rules s t) : complaints s rules = complaints t rules := by
  obtain ⟨shown, matched, -, -⟩ := same
  induction rules with
  | nil => rfl
  | cons entry rest ih =>
    obtain ⟨path, rule⟩ := entry
    obtain ⟨first, others⟩ := List.forall_mem_cons.mp matched
    rw [complaints, complaints, ih others]
    cases secret : isSecretPath path with
    | false =>
      rw [get_congr fun l same => shown l (same ▸ secret)]
    | true =>
      have verdict := first secret
      cases left : s.get path with
      | error e =>
        cases right : t.get path with
        | error e' =>
          rw [left, right] at verdict
          cases verdict
          rfl
        | ok other =>
          rw [left, right] at verdict
          cases verdict
      | ok value =>
        cases right : t.get path with
        | error e =>
          rw [left, right] at verdict
          cases verdict
        | ok other =>
          rw [left, right] at verdict
          have alike : rule.accepts value = rule.accepts other := Except.ok.inj verdict
          simp only [alike, rule.complaint_secret secret value other]

theorem SameVerdicts.undecodable_eq (same : SameVerdicts rules s t) (failed : List String) :
    undecodable s failed = undecodable t failed := by
  rw [undecodable, undecodable]
  refine congrArg _ (List.filter_congr fun f mem => ?_)
  have decodable := same.decodable f mem
  rw [← Option.not_isSome, ← Option.not_isSome, decodable]
  simp only [ne_eq, same.empty f mem]

/-- Rules over leaves are gone through to the end if the number can be written. -/
theorem complaints_done (short : Whole.isWritable s.maxParallelTasks = true)
    (leaves : ∀ entry ∈ rules, ∃ l : Leaf, entry.1 = l.path) : (complaints s rules).2 = none := by
  induction rules with
  | nil => rfl
  | cons entry rest ih =>
    obtain ⟨path, rule⟩ := entry
    obtain ⟨⟨l, rfl⟩, others⟩ := List.forall_mem_cons.mp leaves
    obtain ⟨value, read⟩ := Settings.get_ok short l.ofPath_path
    rw [complaints, read]
    exact ih others

end Verdicts

theorem SameVerdicts.report_eq (same : SameVerdicts rules s t) : report rules s = report rules t := by
  rw [report, report, same.complaints_eq]
  simp only [same.undecodable_eq]

theorem report_done (short : Whole.isWritable s.maxParallelTasks = true)
    (leaves : ∀ entry ∈ rules, ∃ l : Leaf, entry.1 = l.path) : ∃ n, (report rules s).result = .ok n := by
  have done := complaints_done short leaves
  rw [report]
  generalize complaints s rules = complained at done ⊢
  obtain ⟨refused, stop⟩ := complained
  cases done
  exact ⟨_, rfl⟩

/-- A reporter is told the same of two unfrozen settings, and as many settings are counted, if they agree on what may be
shown and on every verdict on what may not, whatever rules are put to them. Rules over leaves are counted to the end if
the number can be written; and over patterns, the problems that are found have the same messages and the same count. -/
theorem account_discreet (left : s.frozen = false) (right : t.frozen = false) (same : SameVerdicts rules s t) :
    account rules s = account rules t ∧
    (Whole.isWritable s.maxParallelTasks = true → (∀ entry ∈ rules, ∃ l : Leaf, entry.1 = l.path) →
      ∃ n, (account rules s).result = .ok n) ∧
    ∀ patterns, rules = rulesOf patterns →
      (validate patterns s).1.map (fun found => (found.map (·.message), countFailed found)) =
        (validate patterns t).1.map fun found => (found.map (·.message), countFailed found) := by
  obtain ⟨u, port⟩ := correctPort_open left
  obtain ⟨v, port'⟩ := correctPort_open right
  have told : account rules s = report rules u := by rw [account, port]
  have told' : account rules t = report rules v := by rw [account, port']
  have alike : account rules s = account rules t := by
    rw [told, told']
    exact (same.corrected port port').report_eq
  refine ⟨alike, fun short leaves => ?_, ?_⟩
  · have number : u.maxParallelTasks = s.maxParallelTasks := correctPort_ok port .maxParallelTasks
    rw [told]
    exact report_done (number.symm ▸ short) leaves
  · rintro patterns rfl
    rw [← account_ofPattern, ← account_ofPattern, alike]

/-- Two pairs of keys and a password each: the first key fails a pattern, the second is no Base64, the password passes. -/
theorem account_discreet_keys :
    let holding (hash key password : String) : Settings :=
      { text := fun | .cookieHash => hash | .cookieEncryption => key | .emailPassword => password | _ => "" }
    let patterns := [("cookie_hash", smallLetters), ("email_password", smallLetters), ("web_host", smallLetters)]
    let told (s : Settings) := (validate patterns s).1.map fun found => (found.map (·.message), countFailed found)
    told (holding "hunter2" "a" "correct") = told (holding "Tr0ub4dor" "b!" "horse") ∧
      ∃ messages, told (holding "hunter2" "a" "correct") = .ok (messages, 3) := by
  intro holding patterns told
  have same : SameVerdicts (rulesOf patterns) (holding "hunter2" "a" "correct") (holding "Tr0ub4dor" "b!" "horse") := by
    refine ⟨fun l shown => ?_, ?_, by decide +kernel, by decide +kernel⟩
    · cases l with
      | text f =>
        cases f with
        | cookieHash => exact absurd shown (by decide +kernel)
        | cookieEncryption => exact absurd shown (by decide +kernel)
        | emailPassword => exact absurd shown (by decide +kernel)
        | _ => rfl
      | _ => rfl
    · simp only [rulesOf, patterns, List.map_cons, List.map_nil, List.forall_mem_cons]
      have hash (s : Settings) : s.get "cookie_hash" = s.leafText (.text .cookieHash) := s.get_path (.text .cookieHash)
      have password (s : Settings) : s.get "email_password" = s.leafText (.text .emailPassword) :=
        s.get_path (.text .emailPassword)
      rw [hash, hash, password, password]
      refine ⟨fun _ => congrArg Except.ok ?_, fun _ => congrArg Except.ok ?_, fun _ => rfl, nofun⟩
      · decide +kernel
      · decide +kernel
  obtain ⟨_, _, alike⟩ := account_discreet rfl rfl same
  have three : (told (holding "hunter2" "a" "correct")).toOption.map (·.2) = some 3 := by decide +kernel
  refine ⟨alike patterns rfl, ?_⟩
  generalize told (holding "hunter2" "a" "correct") = outcome at three
  rcases outcome with e | ⟨messages, count⟩
  · cases three
  · cases three
    exact ⟨messages, rfl⟩

end Resolution

end ServerSettings
