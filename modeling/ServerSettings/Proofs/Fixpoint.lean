import ServerSettings.Proofs.Failures
import ServerSettings.Proofs.RoundTrip
import ServerSettings.Proofs.Validation

/-!
# Resolving what is resolved

Resolution ends in settings whose port has its colon and whose defaults are filled. On such settings every
later resolution has nothing to do but to validate.

* `resolve_open`: resolution of open settings comes to their layers and judges them, if the environment can be applied;
* `settled_of_resolve`: resolution ends in settled settings;
* `resolve_settled`: without an environment settled settings are only validated, whether they are frozen or not;
* `resolve_confirmed`: so they are under an environment that asks for what they hold already;
* `resolve_fixpoint`: so resolved settings come to the same again, from their text and as they are.
-/

namespace ServerSettings

/-- What a policy makes of what validation finds. -/
def Policy.verdict : Policy → Except Error (List Problem) → Except Error (List Problem)
  | .collect, result => result
  | .refuse, .ok [] => .ok []
  | .refuse, .ok found => .error (.validation (found.map (·.message)))
  | .refuse, .error e => .error e

namespace Resolution

/-- Settings whose port has its colon, and that are not empty where there is a default. -/
structure Settled (s : Settings) : Prop where
  port : ¬MovesPort s
  filled : ¬Fills s

/-- Every variable that applies asks for what the settings hold; the port may lack its colon. -/
def Confirms (env : Environment) (s : Settings) : Prop :=
  ∀ l value, override? env s l = some value →
    ∃ content, coerce l.path l.kind (.text value) = .ok content ∧ corrected l content = l.read s

variable {env : Environment} {policy : Policy} {s t : Settings} {found : List Problem}

section Settled

theorem default_texts : ∀ entry ∈ Tables.defaults, ∃ f, entry.1 = .text f := by
  simp only [Tables.defaults, List.mem_cons, List.not_mem_nil, or_false, forall_eq_or_imp, forall_eq]
  exact ⟨⟨_, rfl⟩, ⟨_, rfl⟩, ⟨_, rfl⟩⟩

/-- Only texts have defaults. -/
theorem fills_iff : Fills s ↔ ∃ f value, (Leaf.text f, value) ∈ Tables.defaults ∧ s.text f = "" := by
  constructor
  · rintro ⟨⟨l, value⟩, mem, blank⟩
    obtain ⟨f, rfl⟩ := default_texts _ mem
    exact ⟨f, value, mem, Except.ok.inj blank⟩
  · rintro ⟨f, value, mem, empty⟩
    exact ⟨(.text f, value), mem, congrArg Except.ok empty⟩

theorem fills_congr (same : ∀ l : Leaf, l.read t = l.read s) : Fills t ↔ Fills s := by
  simp only [Fills, fun l => leafText_congr (same l)]

theorem Settled.congr (settled : Settled s) (same : ∀ l : Leaf, l.read t = l.read s) : Settled t where
  port := by
    have text : t.text .port = s.text .port := same (.text .port)
    rw [MovesPort, text]
    exact settled.port
  filled := by
    rw [fills_congr same]
    exact settled.filled

theorem head_normalizePort (port : String) : (normalizePort port).toList.head? = some portMark := by
  unfold normalizePort
  split
  · assumption
  · simp

theorem normalizePort_normalizePort (port : String) : normalizePort (normalizePort port) = normalizePort port := by
  rw [normalizePort, if_pos (head_normalizePort port)]

theorem normalizePort_ne_empty (port : String) : normalizePort port ≠ "" := by
  intro empty
  have again := normalizePort_normalizePort port
  rw [empty] at again
  exact absurd again (by decide)

theorem default_ne_empty : ∀ entry ∈ Tables.defaults, entry.2 ≠ "" := by decide +kernel

/-- No default is left to be filled once the defaults were applied. -/
theorem filled_of_applyDefaults {filled : List Leaf} (h : applyDefaults s = (.ok filled, t)) : ¬Fills t := by
  rw [fills_iff]
  rintro ⟨f, value, mem, empty⟩
  have given : given? Tables.defaults (.text f) = some value := given?_of_mem defaults_once mem
  have text := text_of_applyDefaults h given
  by_cases before : s.text f = ""
  · rw [if_pos before] at text
    exact default_ne_empty _ mem (text.symm.trans empty)
  · rw [if_neg before] at text
    exact before (text.symm.trans empty)

theorem settled_of_correctPort (filled : ¬Fills s) (h : correctPort s = (.ok (), t)) : Settled t where
  port := by
    have port : t.text .port = normalizePort (s.text .port) := correctPort_ok h (.text .port)
    rw [MovesPort, port, not_not]
    exact normalizePort_normalizePort _
  filled := by
    rw [fills_iff] at filled ⊢
    rintro ⟨f, value, mem, empty⟩
    by_cases port : f = .port
    · subst port
      have marked : t.text .port = normalizePort (s.text .port) := correctPort_ok h (.text .port)
      exact normalizePort_ne_empty _ (marked.symm.trans empty)
    · exact filled ⟨f, value, mem, (text_of_correctPort h port).symm.trans empty⟩

end Settled

section Verdict

theorem validateUnder_apply (policy : Policy) (s : Settings) :
    validateUnder policy s =
      (policy.verdict (validate tablePatterns s).1, (validate tablePatterns s).2) := by
  cases policy with
  | collect => rfl
  | refuse =>
    rw [validateUnder, Edit.bind_apply, check_apply]
    rcases validate tablePatterns s with ⟨e | _ | _, t⟩ <;> rfl

theorem correctPort_fixed (fixed : ¬MovesPort s) : correctPort s = (.ok (), s) := by
  rw [correctPort_apply, if_pos (not_not.mp fixed)]

/-- A port with its colon is all that validation would change. -/
theorem conclude_fixed (fixed : ¬MovesPort s) (policy : Policy) (notes : List Note) :
    conclude policy s notes =
      match policy.verdict (problems s tablePatterns) with
      | .ok found => ⟨s.freeze, notes ++ [.validating], .ok found⟩
      | .error e => ⟨s, notes ++ [.validating], .error e⟩ := by
  rw [conclude, validateUnder_apply, validate_apply, correctPort_fixed fixed]
  cases policy.verdict (problems s tablePatterns) <;> rfl

end Verdict

section Again

theorem applyDefaultsOf_passed {table : List (Leaf × String)} (texts : ∀ entry ∈ table, ∃ f, entry.1 = .text f)
    (filled : ¬∃ entry ∈ table, s.leafText entry.1 = .ok "") : applyDefaultsOf table s = (.ok [], s) := by
  induction table with
  | nil => rfl
  | cons entry rest ih =>
    obtain ⟨f, text⟩ := texts entry List.mem_cons_self
    have content : s.leafText entry.1 = .ok (s.text f) := by
      rw [text]
      rfl
    have full : s.text f ≠ "" := by
      intro empty
      exact filled ⟨entry, List.mem_cons_self, by rw [content, empty]⟩
    have later := ih (fun other mem => texts other (List.mem_cons_of_mem entry mem)) fun ⟨other, mem, blank⟩ =>
      filled ⟨other, List.mem_cons_of_mem entry mem, blank⟩
    rw [applyDefaultsOf, Edit.bind_apply, applyDefault_apply, content]
    simp only [if_neg full, Edit.bind_apply, later]
    rfl

theorem applyDefaults_passed (filled : ¬Fills s) : applyDefaults s = (.ok [], s) :=
  applyDefaultsOf_passed default_texts filled

theorem firstGiven?_nil (s : Settings) (table : List (Leaf × String)) : firstGiven? [] s table = none := by
  refine List.findSome?_eq_none_iff.mpr fun entry _ => ?_
  unfold offer?
  split <;> rfl

/-- Without an environment settled settings are only validated. -/
theorem resolve_settled (settled : Settled s) (policy : Policy) : s.resolve [] policy = conclude policy s [] := by
  have overridden : applyEnvironment [] s = (.ok [], s) := applyVariables_passed (firstGiven?_nil s _)
  simp only [Settings.resolve, overridden, applyDefaults_passed settled.filled]
  rfl

/-- An environment that asks for what open settings hold fits them. -/
theorem applyEnvironment_confirmed (isOpen : ∀ l : Leaf, l.isFinal s = false) (confirms : Confirms env s) :
    ∃ applied t, applyEnvironment env s = (.ok applied, t) := by
  rcases h : applyEnvironment env s with ⟨e | applied, t⟩
  · obtain ⟨value, fault, given, unfit, -⟩ := applyEnvironment_failed isOpen h
    obtain ⟨content, fits, -⟩ := confirms .maxParallelTasks value (by rw [override?_tasks, given])
    have clash : (Except.error fault : Except Error Int) = .ok content := unfit.symm.trans fits
    cases clash
  · exact ⟨applied, t, rfl⟩

/-- Under such an environment settled settings are only validated too. -/
theorem resolve_confirmed (isOpen : ∀ l : Leaf, l.isFinal s = false) (settled : Settled s)
    (confirms : Confirms env s) (policy : Policy) : ∃ notes, s.resolve env policy = conclude policy s notes := by
  obtain ⟨applied, t, overridden⟩ := applyEnvironment_confirmed isOpen confirms
  obtain ⟨-, taken⟩ := applyEnvironment_ok overridden
  have amended := (applyEnvironment_amends env).amended overridden
  have filled : ¬Fills t := by
    rw [fills_iff]
    rintro ⟨f, value, mem, empty⟩
    have takes := taken (.text f)
    cases given : override? env s (.text f) with
    | none =>
      rw [given] at takes
      have same : t.text f = s.text f := takes
      exact settled.filled (fills_iff.mpr ⟨f, value, mem, same.symm.trans empty⟩)
    | some text =>
      rw [given] at takes
      have replaced : text = t.text f := Except.ok.inj takes
      exact override?_ne_empty given (replaced.trans empty)
  -- Only the port can differ from what the settings hold, and its colon comes back.
  obtain ⟨u, port⟩ := correctPort_open (Settings.open_of_amended isOpen amended (.text .port))
  have back : u = s := by
    refine (amended.trans (correctPort_amends.amended port)).frame.eq_of_read fun l => ?_
    rw [correctPort_ok port l]
    have takes := taken l
    cases given : override? env s l with
    | none =>
      rw [given] at takes
      have same : l.read t = l.read s := takes
      rw [same]
      exact (correctPort_ok (correctPort_fixed settled.port) l).symm
    | some value =>
      obtain ⟨content, fits, held⟩ := confirms l value given
      rw [given] at takes
      rw [← held]
      exact congrArg (corrected l) (Except.ok.inj (takes.symm.trans fits))
  have validated : validate tablePatterns t = validate tablePatterns s := by
    rw [validate_apply, validate_apply, port, correctPort_fixed settled.port, back]
  refine ⟨overrideNotes applied, ?_⟩
  simp only [Settings.resolve, overridden, applyDefaults_passed filled, conclude, validateUnder_apply, validated]

end Again

section Resolved

/-- A resolution comes to these settings, and judges them: the layers, with the port's colon. -/
structure ComesTo (env : Environment) (policy : Policy) (s v : Settings) : Prop where
  amended : Settings.Amended s v
  settled : Settled v
  leaves : ∀ l : Leaf, (layered env s l).map (corrected l) = .ok (l.read v)
  result : (s.resolve env policy).result = policy.verdict (problems v tablePatterns)
  frozen : ∀ found, (s.resolve env policy).result = .ok found → (s.resolve env policy).settings = v.freeze
  left : ∀ e, (s.resolve env policy).result = .error e → (s.resolve env policy).settings = v

/-- Once the environment is applied and the defaults are filled, there is only the verdict to come. -/
theorem comesTo_of_stages {applied filled : List Leaf} {t u : Settings} (overridden : applyEnvironment env s = (.ok applied, t))
    (defaulted : applyDefaults t = (.ok filled, u)) (port : correctPort u = (.ok (), v)) (policy : Policy) :
    ComesTo env policy s v := by
  have first := (applyEnvironment_amends env).amended overridden
  have second := first.trans (applyDefaults_amends.amended defaulted)
  have concluded : s.resolve env policy = conclude policy u (overrideNotes applied) := by
    simp only [Settings.resolve, overridden, defaulted]
  have judged : validateUnder policy u = (policy.verdict (problems v tablePatterns), v) := by
    rw [validateUnder_apply, validate_apply, port]
  have leaves (l : Leaf) : (layered env s l).map (corrected l) = .ok (l.read v) := by
    rw [layered_of_takes ((applyEnvironment_ok overridden).2 l) (applyDefaults_ok defaulted l), correctPort_ok port l]
    rfl
  have ended : (s.resolve env policy).result = policy.verdict (problems v tablePatterns) ∧
      (∀ found, (s.resolve env policy).result = .ok found → (s.resolve env policy).settings = v.freeze) ∧
      ∀ e, (s.resolve env policy).result = .error e → (s.resolve env policy).settings = v := by
    rw [concluded, conclude, judged]
    cases policy.verdict (problems v tablePatterns) with
    | error e =>
      refine ⟨rfl, fun _ done => ?_, fun _ _ => rfl⟩
      cases done
    | ok found =>
      refine ⟨rfl, fun _ _ => rfl, fun _ failed => ?_⟩
      cases failed
  exact ⟨second.trans (correctPort_amends.amended port), settled_of_correctPort (filled_of_applyDefaults defaulted) port,
    leaves, ended.1, ended.2.1, ended.2.2⟩

/-- A resolution of open settings comes to its verdict if the environment can be applied. -/
theorem resolve_open (isOpen : ∀ l : Leaf, l.isFinal s = false) (env : Environment) (policy : Policy) :
    (∃ e t, applyEnvironment env s = (.error e, t) ∧ (s.resolve env policy).result = .error e ∧
      (s.resolve env policy).settings = t) ∨ ∃ v, ComesTo env policy s v := by
  rcases overridden : applyEnvironment env s with ⟨e | applied, t⟩
  · exact .inl ⟨e, t, rfl, by rw [Settings.resolve, overridden], by rw [Settings.resolve, overridden]⟩
  · have first := (applyEnvironment_amends env).amended overridden
    obtain ⟨filled, u, defaulted⟩ := applyDefaults_open (Settings.open_of_amended isOpen first)
    have second := first.trans (applyDefaults_amends.amended defaulted)
    obtain ⟨v, port⟩ := correctPort_open (Settings.open_of_amended isOpen second (.text .port))
    exact .inr ⟨v, comesTo_of_stages overridden defaulted port policy⟩

/-- What resolution comes to before it freezes it: settled settings whose problems were judged to be `found`, with
each leaf as the layers give it. -/
theorem settled_of_resolve (h : (s.resolve env policy).result = .ok found) :
    ∃ v, (s.resolve env policy).settings = v.freeze ∧ Settings.Amended s v ∧ Settled v ∧
      policy.verdict (problems v tablePatterns) = .ok found ∧
      ∀ l : Leaf, (layered env s l).map (corrected l) = .ok (l.read v) := by
  obtain ⟨applied, filled, t, u, v, overridden, defaulted, validated, -⟩ := resolve_ok h
  have comes := comesTo_of_stages overridden defaulted (validate_ok (validateUnder_ok validated)).1 policy
  exact ⟨v, comes.frozen found h, comes.amended, comes.settled, comes.result.symm.trans h, comes.leaves⟩

theorem override?_dialect (env : Environment) (s : Settings) :
    override? env s (.text .dialect) = env.value? "SEMAPHORE_DB_DIALECT" := by
  have entry : given? Tables.overrides (.text .dialect) = some "SEMAPHORE_DB_DIALECT" := rfl
  rw [override?, entry]
  rfl

theorem layered_dialect (env : Environment) (s : Settings) :
    layered env s (.text .dialect) = .ok (selected env s) := by
  have plain : default? s (.text .dialect) = none := by
    rw [default?, given?_of_not_mem (by simp [Tables.defaults]), ite_self]
  rw [layered, override?_dialect, plain, selected, Environment.valueOr]
  cases env.value? "SEMAPHORE_DB_DIALECT" <;> rfl

/-- The backend of resolved settings is the one that the same environment selects. -/
theorem selected_of_layered (backend : t.text .dialect = selected env s) : selected env t = selected env s := by
  rw [selected, backend, selected, Environment.valueOr, Environment.valueOr]
  cases env.value? "SEMAPHORE_DB_DIALECT" <;> rfl

/-- The environment asks for what it gave before. -/
theorem confirms_of_layered (leaves : ∀ l : Leaf, (layered env s l).map (corrected l) = .ok (l.read t)) :
    Confirms env t := by
  have backend : t.text .dialect = selected env s := by
    have leaf := leaves (.text .dialect)
    rw [layered_dialect] at leaf
    exact (Except.ok.inj leaf).symm
  intro l value given
  have before : override? env s l = some value := by
    have gate : isSelected env t l = isSelected env s l := by
      cases l <;> simp only [isSelected, selected_of_layered backend]
    rw [← given, override?, override?, gate]
  have leaf := leaves l
  rw [layered, before, Option.some_or] at leaf
  obtain ⟨content, fits, held⟩ := map_ok leaf
  exact ⟨content, fits, held⟩

end Resolved

end Resolution

namespace Settings

variable {s : Settings}

theorem thaw_freeze (s : Settings) : s.freeze.thaw.freeze = s.freeze := by
  have providers : Dict.mapValues Provider.freeze s.freeze.thaw.providers = s.freeze.providers := by
    show Dict.mapValues _ (Dict.mapValues _ (Dict.mapValues _ s.providers)) = Dict.mapValues _ s.providers
    rw [Dict.mapValues_mapValues, Dict.mapValues_mapValues]
    rfl
  apply Settings.ext
  · rfl
  · rfl
  · rfl
  · rfl
  · exact providers
  · rfl
  · rfl

theorem read_freeze (s : Settings) (l : Leaf) : l.read s.freeze = l.read s := by
  cases l <;> rfl

theorem read_thaw (s : Settings) (l : Leaf) : l.read s.thaw = l.read s := by
  cases l <;> rfl

theorem open_thaw (s : Settings) (l : Leaf) : l.isFinal s.thaw = false := by
  cases l <;> rfl

/-- The text of settings, indented. -/
def shown (s : Settings) : List Char :=
  Json.write layout 0 s.toJson

theorem render_eq (keyed : s.Keyed) (short : Whole.isWritable s.maxParallelTasks = true) :
    s.render = .ok (String.ofList s.shown) := by
  rw [render, Json.text, if_pos (legible keyed short).isWritable]
  rfl

/-- A whole number that can be written is not too long to be read. -/
theorem digits_room : ∀ k, ({} : Json.Limits).digits = some k → digitLimit ≤ k := by
  intro k eq
  cases eq
  exact Nat.le_refl _

theorem read_shown (keyed : s.Keyed) (short : Whole.isWritable s.maxParallelTasks = true) :
    Json.read (String.ofList s.shown) = .ok s.toJson :=
  Json.read_write rfl digits_room (legible keyed short) (by decide)

end Settings

namespace Resolution

variable {env : Environment} {policy : Policy} {c v : Settings} {found : List Problem}

theorem verdict_ok {result : Except Error (List Problem)} (h : policy.verdict result = .ok found) :
    result = .ok found := by
  cases policy with
  | collect => exact h
  | refuse => rcases result with e | _ | _ <;> cases h; rfl

theorem isRefused_verdict (policy : Policy) {result : Except Error (List Problem)} (h : isRefused result = false) :
    isRefused (policy.verdict result) = false := by
  cases policy with
  | collect => exact h
  | refuse =>
    rcases result with e | _ | _
    · exact h
    · rfl
    · rfl

/-- Settings judged without a failure are frozen. -/
theorem conclude_ok (fixed : ¬MovesPort v) (judged : policy.verdict (problems v tablePatterns) = .ok found)
    (notes : List Note) : conclude policy v notes = ⟨v.freeze, notes ++ [.validating], .ok found⟩ := by
  rw [conclude_fixed fixed, judged]

/-- Resolved settings come to the same again: what their text is decoded to resolves to them with the same problems,
under the same environment as under none. Resolving them as they are, under no environment, finds those problems too,
writes to nothing that is final, and leaves them as they are. -/
theorem resolve_fixpoint {payload : Json} (once : payload.Distinct) (decoded : Settings.decode payload = .ok c)
    (resolved : (c.resolve env policy).result = .ok found) :
    let r := (c.resolve env policy).settings
    ∃ text doc back, r.render = .ok text ∧ Json.read text = .ok doc ∧ Settings.decode doc = .ok back ∧
      (∀ again ∈ [env, []],
        (back.resolve again policy).result = .ok found ∧ (back.resolve again policy).settings = r) ∧
      (r.resolve [] policy).result = .ok found ∧
      ∀ other, isRefused (r.resolve [] other).result = false ∧ (r.resolve [] other).settings = r := by
  intro r
  obtain ⟨v, final, amended, settled, judged, leaves⟩ := settled_of_resolve resolved
  have frozen : r = v.freeze := final
  clear_value r
  subst frozen
  have keyed : v.freeze.Keyed := ((Settings.keyed_of_decode once decoded).of_amended amended).freeze
  have short : Whole.isWritable v.freeze.maxParallelTasks = true := writable_of_problems (verdict_ok judged)
  -- The copy that is read back holds what `v` holds and is open; the frozen settings hold it too.
  have back_read (l : Leaf) : l.read v.freeze.thaw = l.read v :=
    (Settings.read_thaw _ l).trans (Settings.read_freeze _ l)
  have back_settled := settled.congr back_read
  have back_judged : policy.verdict (problems v.freeze.thaw tablePatterns) = .ok found := by
    rw [problems_congr back_read, judged]
  have again (notes : List Note) : conclude policy v.freeze.thaw notes = ⟨v.freeze, notes ++ [.validating], .ok found⟩ := by
    rw [conclude_ok back_settled.port back_judged, Settings.thaw_freeze]
  have same_settled := settled.congr (Settings.read_freeze v)
  refine ⟨_, _, _, Settings.render_eq keyed short, Settings.read_shown keyed short, Settings.decode_toJson _, ?_, ?_, ?_⟩
  · have confirms : Confirms env v.freeze.thaw :=
      confirms_of_layered fun l => by rw [leaves l, back_read l]
    obtain ⟨notes, same⟩ := resolve_confirmed (Settings.open_thaw _) back_settled confirms policy
    have plain := resolve_settled back_settled policy
    simp only [List.mem_cons, List.not_mem_nil, or_false, forall_eq_or_imp, forall_eq]
    rw [same, plain, again, again]
    exact ⟨⟨rfl, rfl⟩, rfl, rfl⟩
  · have same_judged : policy.verdict (problems v.freeze tablePatterns) = .ok found := by
      rw [problems_congr (Settings.read_freeze v), judged]
    rw [resolve_settled same_settled, conclude_ok same_settled.port same_judged]
  · intro other
    rw [resolve_settled same_settled, conclude_fixed same_settled.port]
    have unrefused := isRefused_verdict other (isRefused_problems v.freeze tablePatterns)
    cases verdict : other.verdict (problems v.freeze tablePatterns) with
    | ok found => exact ⟨rfl, v.final_freeze.freeze_eq⟩
    | error e =>
      rw [verdict] at unrefused
      exact ⟨unrefused, rfl⟩

/-- The sample settles under an environment that moves its backend and its port, with problems that are told again. -/
theorem resolve_fixpoint_sample :
    let env : Environment := [("SEMAPHORE_DB_DIALECT", "postgres"), ("SEMAPHORE_DB_HOST", "db"),
      ("SEMAPHORE_PORT", "8080"), ("SEMAPHORE_MAX_PARALLEL_TASKS", "+007")]
    ∃ c found text doc back, Settings.decode Settings.sampleDocument = .ok c ∧
      (c.resolve env .collect).result = .ok found ∧ found ≠ [] ∧
      (c.resolve env .collect).settings.render = .ok text ∧ Json.read text = .ok doc ∧
      Settings.decode doc = .ok back ∧ (back.resolve env .collect).result = .ok found ∧
      (back.resolve env .collect).settings.text .port = ":8080" := by
  intro env
  obtain ⟨c, decoded, port, told⟩ : ∃ c, Settings.decode Settings.sampleDocument = .ok c ∧
      (c.resolve env .collect).settings.text .port = ":8080" ∧
      (c.resolve env .collect).result.toOption.map (·.isEmpty) = some false :=
    ⟨_, rfl, by decide +kernel, by decide +kernel⟩
  cases resolved : (c.resolve env .collect).result with
  | error e =>
    rw [resolved] at told
    cases told
  | ok found =>
    have some_found : found ≠ [] := by
      rintro rfl
      rw [resolved] at told
      cases told
    obtain ⟨text, doc, back, render, read, decode, again, _⟩ :=
      resolve_fixpoint Settings.sampleDocument_distinct decoded resolved
    obtain ⟨same, settings⟩ := again env List.mem_cons_self
    exact ⟨c, found, text, doc, back, decoded, resolved, some_found, render, read, decode, same, by rw [settings, port]⟩

end Resolution

end ServerSettings
