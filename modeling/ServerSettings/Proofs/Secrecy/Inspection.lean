import ServerSettings.Command.Run
import ServerSettings.Proofs.Secrecy.Machines
import ServerSettings.Proofs.Setup

/-!
# What inspections print does not depend on secrets

* `Settings.mask_looksLike`: a document of settings looks like that of the masked settings once it is redacted;
* `summary_alike`: so does the line about the backend;
* `run_alike`: a command line that shows problems, the backend or a redacted document prints the same on machines
  that differ in secrets only, and ends the same way.
-/

namespace ServerSettings

namespace Json

/-- Two documents that are the same once they are redacted, and both can be written or neither. -/
structure LooksLike (v w : Json) : Prop where
  redacted : v.redact = w.redact
  writable : v.isWritable = w.isWritable

theorem LooksLike.refl (v : Json) : LooksLike v v := ⟨rfl, rfl⟩

/-- Members of one name look alike, or their name is one under which everything is replaced. -/
def MemberLooksLike (key : String) (v w : Json) : Prop :=
  LooksLike v w ∨ isSensitiveKey key = true ∧ v.isWritable = w.isWritable

/-- Objects look alike if their members do. -/
theorem looksLike_obj {ι : Type} {index : List ι} {key : ι → String} {write write' : ι → Json}
    (parts : ∀ i ∈ index, MemberLooksLike (key i) (write i) (write' i)) :
    LooksLike (.obj (index.map fun i => (key i, write i))) (.obj (index.map fun i => (key i, write' i))) := by
  constructor
  · rw [redact, redact, redactMembers_eq, redactMembers_eq, List.map_map, List.map_map]
    congr 1
    refine List.map_congr_left fun i mem => ?_
    simp only [Function.comp_apply, Prod.mk.injEq, true_and]
    rcases parts i mem with same | ⟨sensitive, -⟩
    · rw [same.redacted]
    · rw [if_pos sensitive, if_pos sensitive]
  · have each : ∀ i ∈ index, (write i).isWritable = (write' i).isWritable := by
      intro i mem
      rcases parts i mem with same | ⟨-, writable⟩
      · exact same.writable
      · exact writable
    rw [isWritable, isWritable, membersAreWritable_eq, membersAreWritable_eq, List.all_map, List.all_map,
      Bool.eq_iff_iff, List.all_eq_true, List.all_eq_true]
    exact forall₂_congr fun i mem => by rw [Function.comp_apply, Function.comp_apply, each i mem]

end Json

open Json (LooksLike MemberLooksLike looksLike_obj)

theorem looksLike_writeGroup {ι γ : Type} {index : List ι} {slot : ι → Slot γ} {g g' : γ}
    (parts : ∀ i ∈ index, MemberLooksLike (slot i).key ((slot i).write g) ((slot i).write g')) :
    LooksLike (writeGroup (index.map slot) g) (writeGroup (index.map slot) g') := by
  rw [writeGroup, writeGroup, List.map_map, List.map_map]
  exact looksLike_obj parts

/-- A blanked text looks as before if its key tells that it is a secret. -/
theorem blanked_looksLike {secret : Bool} {key : String} (told : secret = true → isSensitiveKey key = true)
    (s : String) : MemberLooksLike key (.str (if secret then "" else s)) (.str s) := by
  cases secret with
  | true => exact .inr ⟨told rfl, rfl⟩
  | false => exact .inl (.refl _)

theorem Database.mask_looksLike (db : Database) : LooksLike db.mask.toJson db.toJson := by
  rw [toJson, toJson, slots_eq]
  refine looksLike_writeGroup fun i _ => ?_
  cases i with
  | none => exact .inl (.refl _)
  | some f =>
    have told : decide (f = .password) = true → isSensitiveKey f.key = true := by
      cases f <;> decide +kernel
    exact blanked_looksLike told (db.text f)

theorem Provider.mask_looksLike (p : Provider) : LooksLike p.mask.toJson p.toJson := by
  rw [toJson, toJson, slots]
  refine looksLike_writeGroup fun m _ => ?_
  cases m with
  | text f =>
    have told : decide (f = .clientSecret) = true → isSensitiveKey f.key = true := by
      cases f <;> decide +kernel
    exact blanked_looksLike told (p.text f)
  | _ => exact .inl (.refl _)

/-- A document of settings looks like that of the masked settings. -/
theorem Settings.mask_looksLike (s : Settings) : LooksLike s.mask.toJson s.toJson := by
  rw [toJson, toJson, slots]
  refine looksLike_writeGroup fun m _ => ?_
  cases m with
  | database d => exact .inl (s.database d).mask_looksLike
  | text f =>
    have told : (Leaf.text f).isSecret = true → isSensitiveKey f.key = true := by
      cases f <;> decide +kernel
    exact blanked_looksLike told (s.text f)
  | providers =>
    refine .inl ?_
    show LooksLike (.obj (Dict.mapValues Provider.toJson (Dict.mapValues Provider.mask s.providers)))
      (.obj (Dict.mapValues Provider.toJson s.providers))
    rw [Dict.mapValues_mapValues]
    exact looksLike_obj fun entry _ => .inl entry.2.mask_looksLike
  | _ => exact .inl (.refl _)

namespace Command

open ConfigFile (Loaded LoadAlike)

variable {env env' : Environment} {s t : Settings}

theorem documentText_redacted (s : Settings) : View.documentText true s =
    if s.toJson.isWritable then (Json.text Settings.layout s.toJson.redact).mapError .number
    else .error (.number .tooLarge) := by
  rw [View.documentText, Settings.render, Json.text]
  cases s.toJson.isWritable <;> rfl

/-- Settings that are masked alike have the same redacted document. -/
theorem documentText_alike (same : s.mask = t.mask) : View.documentText true s = View.documentText true t := by
  have looks : LooksLike s.toJson t.toJson := by
    obtain ⟨redacted, writable⟩ := s.mask_looksLike
    obtain ⟨redacted', writable'⟩ := t.mask_looksLike
    rw [same] at redacted writable
    exact ⟨redacted.symm.trans redacted', writable.symm.trans writable'⟩
  rw [documentText_redacted, documentText_redacted, looks.writable, looks.redacted]

section Summary

variable (alike : env.Alike env') (same : s.mask = t.mask)

include alike same

theorem isPresent_alike (d : Dialect) :
    Backend.isPresent env (s.database d) = Backend.isPresent env' (t.database d) := by
  have host : (s.database d).text .hostname = (t.database d).text .hostname :=
    Settings.read_of_mask same (l := .database d .hostname) rfl
  rw [Backend.isPresent, Backend.isPresent, Backend.effectiveHost, Backend.effectiveHost, host,
    alike.valueOr (by decide)]

theorem select_alike : Backend.select env s = Backend.select env' t := by
  have dialect : s.text .dialect = t.text .dialect := Settings.read_of_mask same (l := .text .dialect) rfl
  simp only [Backend.select, dialect, isPresent_alike alike same]

/-- The line about the backend does not tell the password. -/
theorem summary_alike : (Backend.connection env s).map Connection.summary =
    (Backend.connection env' t).map Connection.summary := by
  rw [Backend.connection, Backend.connection, select_alike alike same]
  cases Backend.select env' t with
  | error e => rfl
  | ok d =>
    have text (f : DatabaseField) (shown : (Leaf.database d f).isSecret = false) :
        (s.database d).text f = (t.database d).text f :=
      Settings.read_of_mask same (l := .database d f) shown
    have host := alike.valueOr (by decide : Tables.hostVariable ∉ secretVariables)
    have user := alike.valueOr (by decide : Tables.userVariable ∉ secretVariables)
    have database := alike.valueOr (by decide : Tables.databaseVariable ∉ secretVariables)
    show Except.ok (Backend.connectionOf env d (s.database d)).summary =
      Except.ok (Backend.connectionOf env' d (t.database d)).summary
    simp only [Backend.connectionOf, Connection.summary, text .hostname rfl, text .username rfl, text .dbName rfl, host,
      user, database]

end Summary

/-- The views that show no secret: problems, the backend, and the document with its secrets replaced. -/
def discreetViews : List View :=
  [.document true, .problems, .summary]

theorem report_summary (env : Environment) (isColoured : Bool) (loaded : Loaded) :
    View.report .summary env isColoured loaded =
      (((Backend.connection env loaded.1).map Connection.summary).mapError Failure.settings).map fun line =>
        (.success, ({} : Console.Printed).text line) := by
  show (do let c ← (Backend.connection env loaded.1).mapError Failure.settings; _) = _
  cases Backend.connection env loaded.1 <;> rfl

/-- A discreet view of settings that are masked alike, with the same problems, is the same. -/
theorem report_alike {view : View} (discreet : view ∈ discreetViews) (alike : env.Alike env') {a b : Loaded}
    (same : a.1.mask = b.1.mask) (problems : a.2 = b.2) (isColoured : Bool) :
    view.report env isColoured a = view.report env' isColoured b := by
  obtain ⟨s, found⟩ := a
  obtain ⟨t, found'⟩ := b
  dsimp only at same problems
  subst problems
  simp only [discreetViews, List.mem_cons, List.not_mem_nil, or_false] at discreet
  rcases discreet with rfl | rfl | rfl
  · simp only [View.report, documentText_alike same]
  · rfl
  · rw [report_summary, report_summary, summary_alike alike same]

/-- What is printed, and how a run ends. -/
def Transcript.shown (t : Transcript) : Console.Printed × Ending :=
  (t.printed, t.ending)

/-- What is logged is not printed, and does not decide how a run ends. -/
theorem shown_ofReport (log log' : List String) (report : Report) :
    (Transcript.ofReport log report).shown = (Transcript.ofReport log' report).shown := by
  cases report with
  | ok shown => rfl
  | error failure => cases failure <;> rfl

theorem shown_logged (lines : StateM Machine (List String)) (report : Report) (k : Machine) :
    ((do let log ← lines; return Transcript.ofReport log report : StateM Machine _) k).1.shown =
      (Transcript.ofReport [] report).shown :=
  shown_ofReport (lines k).1 [] report

/-- An inspection shows its view of what is loaded under the policy of that view. -/
theorem shown_inspect (r : Request) (view : View) (isTerminal : Bool) (k : Machine) :
    ((inspect r view isTerminal : StateM Machine _) k).1.shown =
      (Transcript.ofReport []
        (((ConfigFile.load r.file k.environment none view.policy : StateM Machine _) k).1.result.mapError .settings >>=
          view.report k.environment (Console.isColourAllowed r.declinesColour k.environment isTerminal))).shown := by
  have here : (Host.environment : StateM Machine _) k = (k.environment, k) := rfl
  unfold inspect
  rw [ConfigFile.run_bind here]
  rcases answer : (ConfigFile.load r.file k.environment none view.policy : StateM Machine _) k with ⟨found, k'⟩
  rw [ConfigFile.run_bind answer]
  exact shown_logged _ _ k'

theorem shown_inspect_loaded (r : Request) (view : View) (isTerminal : Bool) {k : Machine} {loaded : Loaded}
    (result : ((ConfigFile.load r.file k.environment none view.policy : StateM Machine _) k).1.result = .ok loaded) :
    ((inspect r view isTerminal : StateM Machine _) k).1.shown =
      (Transcript.ofReport [] (view.report k.environment
        (Console.isColourAllowed r.declinesColour k.environment isTerminal) loaded)).shown := by
  rw [shown_inspect, result]
  rfl

theorem isColourAllowed_alike (alike : env.Alike env') (declined isTerminal : Bool) :
    Console.isColourAllowed declined env isTerminal = Console.isColourAllowed declined env' isTerminal := by
  rw [Console.isColourAllowed, Console.isColourAllowed, alike.value? (by decide)]

/-- A discreet inspection prints the same on machines that differ in secrets only, and ends the same way. -/
theorem inspect_alike {k k' : Machine} (alike : Machine.Alike k k') (r : Request) {view : View}
    (discreet : view ∈ discreetViews) (isTerminal : Bool) :
    ((inspect r view isTerminal : StateM Machine _) k).1.shown =
      ((inspect r view isTerminal : StateM Machine _) k').1.shown := by
  have same := alike.environment
  obtain ⟨n, n', loaded, loaded', results⟩ := ConfigFile.load_paired alike r.file none view.policy same
  have reports (isColoured : Bool) : (n.result.mapError Failure.settings >>= view.report k.environment isColoured) =
      (n'.result.mapError Failure.settings >>= view.report k'.environment isColoured) := by
    unfold LoadAlike at results
    generalize n.result = result at results
    generalize n'.result = result' at results
    cases results with
    | error e => rfl
    | ok related => exact report_alike discreet same related.1 related.2 isColoured
  rw [shown_inspect, shown_inspect, loaded, loaded', reports, isColourAllowed_alike same]

/-- A command line that asks for problems, for the backend or for a redacted document prints the same on machines that
differ in secrets only, and ends the same way. -/
theorem run_alike {line : List String}
    (discreet : ∀ r, Request.read line = .ok r → ∃ view ∈ discreetViews, r.task = .inspect view)
    {k k' : Machine} (alike : Machine.Alike k k') (isTerminal : Bool) :
    ((run line isTerminal : StateM Machine _) k).1.printed =
        ((run line isTerminal : StateM Machine _) k').1.printed ∧
      ((run line isTerminal : StateM Machine _) k).1.ending =
        ((run line isTerminal : StateM Machine _) k').1.ending := by
  unfold run
  cases read : Request.read line with
  | error stop => exact ⟨rfl, rfl⟩
  | ok r =>
    obtain ⟨view, mem, task⟩ := discreet r read
    have same := inspect_alike alike r mem isTerminal
    simp only [Request.perform, task]
    simpa only [Transcript.shown, Prod.mk.injEq] using same

/-- Settings with a secret in each kind of place. -/
def sampleSettings (secret : String) : Settings where
  database _ := { text := fun
    | .password => secret
    | _ => "db" }
  text
    | .emailPassword | .telegramToken => secret
    | _ => ""
  providers := [("corp", { text := fun
    | .clientSecret => secret
    | _ => "" })]

/-- A machine with a file of these settings and a variable over one of them. -/
def sampleMachine (secret : String) : Machine :=
  { Machine.withConfig (Utf8.encode ((sampleSettings secret).shown ++ ['\n'])) with
    environment := [(Tables.passwordVariable, secret)] }

theorem sampleSettings_mask (a b : String) : (sampleSettings a).mask = (sampleSettings b).mask := by
  have database : (sampleSettings a).mask.database = (sampleSettings b).mask.database := by
    funext d
    refine Database.ext ?_ rfl rfl
    funext f
    cases f <;> rfl
  have text : (sampleSettings a).mask.text = (sampleSettings b).mask.text := by
    funext f
    cases f <;> rfl
  have provider : (sampleSettings a).mask.providers = (sampleSettings b).mask.providers := by
    refine congrArg (fun text => [("corp", ({ text } : Provider))]) ?_
    funext f
    cases f <;> rfl
  exact Settings.ext database text rfl rfl provider rfl rfl

theorem withConfig_alike {bytes bytes' : List UInt8} (files : Node.Alike (.file bytes) (.file bytes'))
    (same : env.Alike env') :
    Machine.Alike { Machine.withConfig bytes with environment := env }
      { Machine.withConfig bytes' with environment := env' } :=
  ⟨.cons ⟨rfl, files⟩ .nil, rfl, same, rfl⟩

theorem sampleMachine_alike (a b : String) : Machine.Alike (sampleMachine a) (sampleMachine b) := by
  have document (secret : String) : ConfigFile.document? (Utf8.encode ((sampleSettings secret).shown ++ ['\n'])) =
      some (sampleSettings secret).toJson :=
    Settings.document?_shown ⟨fun _ => List.nodup_nil, List.nodup_singleton _⟩
      (by decide +kernel : Whole.isWritable 0 = true)
  have masked : Settings.maskDocument (sampleSettings a).toJson = Settings.maskDocument (sampleSettings b).toJson := by
    rw [Settings.mask_toJson, Settings.mask_toJson, sampleSettings_mask a b]
  refine withConfig_alike (.documents (document a) (document b) masked) fun name shown => ?_
  have other : Tables.passwordVariable ≠ name := by
    rintro rfl
    exact shown (by decide)
  show Dict.lookup [(Tables.passwordVariable, a)] name = Dict.lookup [(Tables.passwordVariable, b)] name
  simp only [Dict.lookup, if_neg other]

/-- The line is read as a request for the document with its secrets replaced. -/
theorem read_show (r : Request) (read : Request.read ["show", "--redact"] = .ok r) :
    r.task = .inspect (.document true) := by
  have asked : (match Request.read ["show", "--redact"] with
      | .ok { task := .inspect (.document true), .. } => true
      | _ => false) = true := by
    decide +kernel
  rw [read] at asked
  obtain ⟨task, file, logLevel, declinesColour⟩ := r
  cases task with
  | inspect view =>
    cases view with
    | document redacted =>
      cases redacted with
      | true => rfl
      | false => cases asked
    | _ => cases asked
  | _ => cases asked

theorem run_alike_show :
    ((run ["show", "--redact"] false : StateM Machine _) (sampleMachine "hunter2")).1.printed =
        ((run ["show", "--redact"] false : StateM Machine _) (sampleMachine "")).1.printed ∧
      ((run ["show", "--redact"] false : StateM Machine _) (sampleMachine "hunter2")).1.ending =
        ((run ["show", "--redact"] false : StateM Machine _) (sampleMachine "")).1.ending := by
  have discreet (r : Request) (read : Request.read ["show", "--redact"] = .ok r) :
      ∃ view ∈ discreetViews, r.task = .inspect view :=
    ⟨.document true, by decide, read_show r read⟩
  exact run_alike discreet (sampleMachine_alike "hunter2" "") false

end Command

end ServerSettings
