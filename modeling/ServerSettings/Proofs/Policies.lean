import ServerSettings.Proofs.CommandLine
import ServerSettings.Proofs.Fixpoint
import ServerSettings.Proofs.Loading
import ServerSettings.Proofs.Secrecy.Inspection

/-!
# What becomes of problems does not change what is found

Two resolutions that differ in their policy only go the same way up to the last stage, where one hands over what
validation finds and the other fails of it.

* `resolve_both`: a resolution that refuses ends in the verdict on what the one that collects ends in;
* `load_agrees`: so loading under one policy answers loading under the other;
* `code_agrees`: and so do the exit codes of `validate` and `show`;
* `policies_agree`: both, for settings and for command lines.
-/

namespace ServerSettings

open ConfigFile (Loaded)

namespace Resolution

variable {env : Environment} {s : Settings}

/-- The stages are the same under both policies. If there are problems, what was collected is frozen, and what was
refused is not. -/
theorem resolve_both (env : Environment) (s : Settings) :
    (s.resolve env .refuse).result = Policy.refuse.verdict (s.resolve env .collect).result ∧
      (s.resolve env .collect).settings =
        match (s.resolve env .collect).result with
        | .ok (_ :: _) => (s.resolve env .refuse).settings.freeze
        | _ => (s.resolve env .refuse).settings := by
  unfold Settings.resolve
  rcases applyEnvironment env s with ⟨e | applied, t⟩
  · exact ⟨rfl, rfl⟩
  simp only
  rcases applyDefaults t with ⟨e | filled, u⟩
  · exact ⟨rfl, rfl⟩
  simp only [conclude, validateUnder_apply]
  rcases validate tablePatterns u with ⟨e | _ | _, v⟩
  · exact ⟨rfl, rfl⟩
  · exact ⟨rfl, rfl⟩
  · exact ⟨rfl, rfl⟩

/-- A resolution of decoded settings that fails leaves every mark as it was, and so every leaf open. -/
theorem open_of_failed {payload : Json} (decoded : Settings.decode payload = .ok s) {policy : Policy} {e : Error}
    (failed : (s.resolve env policy).result = .error e) :
    s.Framed (s.resolve env policy).settings ∧ ∀ l : Leaf, l.isFinal (s.resolve env policy).settings = false :=
  ⟨(amended_of_failed failed).frame, Settings.open_of_amended (Settings.open_of_decode decoded) (amended_of_failed failed)⟩

end Resolution

open Resolution

/-- How what is loaded under either policy corresponds: what was collected, and what comes of refusing it. -/
inductive ConfigFile.Agree : Except Error Loaded → Except Error Loaded → Prop
  | failed {e : Error} (other : ∀ messages, e ≠ .validation messages) : Agree (.error e) (.error e)
  | accepted {s : Settings} (keyed : s.Keyed) (short : Whole.isWritable s.maxParallelTasks = true) :
      Agree (.ok (s, [])) (.ok (s, []))
  | refused {s : Settings} {found : List Problem} (some_found : found ≠ []) :
      Agree (.ok (s, found)) (.error (.validation (found.map (·.message))))

namespace ConfigFile

theorem blame_plain {value : String} {fault : Error}
    (unfit : coerce Leaf.maxParallelTasks.path .whole (.text value) = .error fault) (messages : List String) :
    blame Leaf.maxParallelTasks.path tasksVariable fault ≠ .validation messages := by
  rintro same
  obtain ⟨n, -, fits⟩ | refused | ⟨-, -, long⟩ := coerce_whole_cases Leaf.maxParallelTasks.path value
  · rw [fits] at unfit
    cases unfit
  · rw [refused] at unfit
    cases unfit
    cases same
  · rw [long] at unfit
    cases unfit
    cases same

/-- Settings out of a file are resolved alike under both policies. -/
theorem resolved_agree {s : Settings} (fresh : s.Fresh) (keyed : s.Keyed) (env : Environment) :
    Agree ((s.resolve env .collect).result.map fun found => ((s.resolve env .collect).settings, found))
      ((s.resolve env .refuse).result.map fun found => ((s.resolve env .refuse).settings, found)) := by
  obtain ⟨verdict, same⟩ := resolve_both env s
  rw [verdict]
  cases collected : (s.resolve env .collect).result with
  | error e =>
    rcases resolve_failed fresh collected with ⟨collects, _⟩ | ⟨value, fault, _, unfit, rfl⟩
    · cases collects
    · exact .failed (blame_plain unfit)
  | ok found =>
    cases found with
    | nil =>
      have settings : (s.resolve env .refuse).settings = (s.resolve env .collect).settings := by rw [same, collected]
      rw [settings]
      obtain ⟨v, final, amended, _, judged, _⟩ := settled_of_resolve collected
      rw [final]
      exact .accepted (keyed.of_amended amended).freeze (writable_of_problems judged)
    | cons problem more => exact .refused (List.cons_ne_nil problem more)

theorem plain_of_reading {e : Error} (h : e.title ∈ readingFailures) (messages : List String) : e ≠ .validation messages := by
  rintro rfl
  simp [Error.title, readingFailures] at h

theorem plain_of_escapes {file : Option String} {env : Environment} {directory : Option String} {k : Machine} {e : Error}
    (h : Escapes file env directory k e) (messages : List String) : e ≠ .validation messages := by
  rintro rfl
  cases h

/-- Loading under one policy answers loading under the other. -/
theorem load_agrees (file : Option String) (env : Environment) (directory : Option String) (k : Machine) :
    Agree ((load file env directory .collect : StateM Machine _) k).1.result
      ((load file env directory .refuse : StateM Machine _) k).1.result := by
  rcases located : (locate file env directory : StateM Machine _) k with ⟨⟨notes, e | p⟩, k'⟩
  · have unfound : ((locate file env directory : StateM Machine _) k).1.result = .error e := by rw [located]
    rw [load_unlocated unfound, load_unlocated unfound]
    exact .failed ((locate_failed unfound).elim plain_of_reading plain_of_escapes)
  · cases read : ((readFile p : StateM Machine _) k').1 with
    | error e =>
      rw [load_unread located read, load_unread located read]
      rcases readFile_failed read with reading | ⟨_, _, _, _, _, _, _, rfl⟩
      · exact .failed (plain_of_reading reading)
      · exact .failed fun messages => by rintro ⟨⟩
    | ok s =>
      rw [load_read located read, load_read located read]
      obtain ⟨bytes, parsed⟩ := parse_of_readFile read
      obtain ⟨payload, once, _, decoded⟩ := decode_of_parse parsed
      exact resolved_agree (readFile_ok read) (Settings.keyed_of_decode once decoded) env

end ConfigFile

namespace Command

/-- The document of settings that can be written is printed, in colour too. -/
theorem report_document {s : Settings} (keyed : s.Keyed) (short : Whole.isWritable s.maxParallelTasks = true)
    (env : Environment) (isColoured : Bool) (found : List Problem) :
    ∃ shown, View.report (.document false) env isColoured (s, found) = .ok (.success, shown) := by
  have text : View.documentText false s = .ok (String.ofList s.shown) := by
    rw [View.documentText, Settings.render_eq keyed short]
    rfl
  have printed : ∃ shown, ({} : Console.Printed).json isColoured (String.ofList s.shown) = .ok shown := by
    cases isColoured with
    | false => exact ⟨_, rfl⟩
    | true =>
      have laid : ∃ text, Console.Printed.layOut (String.ofList s.shown) = .ok text := by
        rw [Console.Printed.layOut, Settings.read_shown keyed short]
        simp only [Json.text, if_pos (Settings.legible keyed short).isWritable]
        exact ⟨_, rfl⟩
      obtain ⟨text, laid⟩ := laid
      rw [Console.Printed.json, laid]
      exact ⟨_, rfl⟩
  obtain ⟨shown, printed⟩ := printed
  refine ⟨shown, ?_⟩
  show (do let text ← (View.documentText false s).mapError Failure.settings; _) = _
  rw [text]
  show (do let shown ← (({} : Console.Printed).json isColoured (String.ofList s.shown)).mapError _; _) = _
  rw [printed]
  rfl

theorem code_ofError (e : Error) :
    (Ending.ofError e).code = if e.isConfiguration then .configurationError else .internalError := by
  cases e <;> rfl

/-- The exit code by which a view of what was loaded ends. -/
def codeOf (view : View) (env : Environment) (isColoured : Bool) (loaded : Except Error Loaded) : ExitCode :=
  (Transcript.ofReport [] (loaded.mapError .settings >>= view.report env isColoured)).ending.code

/-- The exit codes of `validate` and `show` over what was loaded under the policy of each. -/
structure CodesAgree (validated shown : ExitCode) (refusal : Prop) : Prop where
  success : validated = .success ↔ shown = .success
  refused : validated = .validationFailed ↔ shown = .configurationError ∧ refusal
  other : validated ≠ .success → validated ≠ .validationFailed → validated = shown

theorem code_agrees {collected refused : Except Error Loaded} (agree : ConfigFile.Agree collected refused)
    (env : Environment) (isColoured : Bool) :
    CodesAgree (codeOf .problems env isColoured collected) (codeOf (.document false) env isColoured refused)
      (∃ messages, refused = .error (.validation messages)) := by
  cases agree with
  | @failed e other =>
    have code (view : View) : codeOf view env isColoured (.error e) = (Ending.ofError e).code := rfl
    rw [code, code, code_ofError]
    cases e.isConfiguration with
    | true => exact ⟨by decide, by simp [other], by decide⟩
    | false => exact ⟨by decide, by simp, by decide⟩
  | @accepted s keyed short =>
    obtain ⟨shown, printed⟩ := report_document keyed short env isColoured []
    have validated : codeOf .problems env isColoured (.ok (s, [])) = .success := rfl
    have document : codeOf (.document false) env isColoured (.ok (s, [])) = .success := by
      show (Transcript.ofReport [] (View.report (.document false) env isColoured (s, []))).ending.code = _
      rw [printed]
      rfl
    rw [validated, document]
    exact ⟨by decide, by simp, by decide⟩
  | @refused s found some_found =>
    have validated : codeOf .problems env isColoured (.ok (s, found)) = .validationFailed := by
      cases found with
      | nil => exact absurd rfl some_found
      | cons problem more => rfl
    have document : codeOf (.document false) env isColoured (.error (.validation (found.map (·.message)))) =
        .configurationError := rfl
    rw [validated, document]
    exact ⟨by decide, by simp, by decide⟩

/-- An inspection ends by the code of its view over what is loaded under the policy of that view. -/
theorem code_of_inspect (r : Request) (view : View) (isTerminal : Bool) (k : Machine) :
    ((inspect r view isTerminal : StateM Machine _) k).1.ending.code =
      codeOf view k.environment (Console.isColourAllowed r.declinesColour k.environment isTerminal)
        ((ConfigFile.load r.file k.environment none view.policy : StateM Machine _) k).1.result := by
  have code (t : Transcript) : t.ending.code = t.shown.2.code := rfl
  rw [codeOf, code, code, shown_inspect]

/-- The exit code of a command line on a machine. -/
def exitCode (line : List String) (isTerminal : Bool) (k : Machine) : ExitCode :=
  ((run line isTerminal : StateM Machine _) k).1.ending.code

/-- A command line asks for settings that are refused for what validation finds. -/
def IsRefused (line : List String) (k : Machine) : Prop :=
  ∃ r messages, Request.read line = .ok r ∧
    ((ConfigFile.load r.file k.environment none .refuse : StateM Machine _) k).1.result = .error (.validation messages)

theorem exitCode_of_read {line : List String} {r : Request} {view : View} (read : Request.read line = .ok r)
    (task : r.task = .inspect view) (isTerminal : Bool) (k : Machine) : exitCode line isTerminal k =
      codeOf view k.environment (Console.isColourAllowed r.declinesColour k.environment isTerminal)
        ((ConfigFile.load r.file k.environment none view.policy : StateM Machine _) k).1.result := by
  rw [← code_of_inspect r view isTerminal k, exitCode, run, read]
  simp only [Request.perform, task]

/-- The exit code of a command line that asks for nothing. -/
def Reason.code : Reason → ExitCode
  | .help => .success
  | .misuse _ => .configurationError
  | .lostValue => .internalError

theorem exitCode_of_stop {line : List String} {stop : Stop} (read : Request.read line = .error stop) (isTerminal : Bool)
    (k : Machine) : exitCode line isTerminal k = stop.reason.code := by
  rw [exitCode, run, read]
  obtain ⟨command, reason⟩ := stop
  cases reason <;> rfl

/-- `validate` and `show` end alike over the same words, as long as none asks for redaction. -/
theorem exitCode_agrees {words : List String} (free : ∀ word ∈ words, Word.asksFor .redact word = false) (isTerminal : Bool)
    (k : Machine) : CodesAgree (exitCode (Name.validate.text :: words) isTerminal k)
      (exitCode (Name.display.text :: words) isTerminal k) (IsRefused (Name.display.text :: words) k) := by
  rcases read_agrees free with ⟨stop, stop', validates, displays, same⟩ | ⟨g, unredacted, validates, displays⟩
  · have unread : ¬IsRefused (Name.display.text :: words) k := by
      rintro ⟨r, messages, read, _⟩
      rw [displays] at read
      cases read
    rw [exitCode_of_stop validates, exitCode_of_stop displays, same]
    refine ⟨Iff.rfl, ⟨fun failed => ?_, fun refused => absurd refused.2 unread⟩, fun _ _ => rfl⟩
    cases reason : stop.reason <;> simp [reason, Reason.code] at failed
  · have task : (Request.ofGiven .display g).task = .inspect (.document false) := by
      show Task.inspect (.document (g.has .redact)) = _
      rw [unredacted]
    have refusal : IsRefused (Name.display.text :: words) k ↔ ∃ messages,
        ((ConfigFile.load (g.value? .file) k.environment none .refuse : StateM Machine _) k).1.result =
          .error (.validation messages) := by
      constructor
      · rintro ⟨r, messages, read, refused⟩
        rw [displays] at read
        cases read
        exact ⟨messages, refused⟩
      · rintro ⟨messages, refused⟩
        exact ⟨_, messages, displays, refused⟩
    rw [exitCode_of_read validates rfl, exitCode_of_read displays task, refusal]
    exact code_agrees (ConfigFile.load_agrees _ _ _ _) _ _

end Command

end ServerSettings
