import ServerSettings.Proofs.Fixpoint

/-!
# Resolutions that fail half way

A resolution changes settings in place, so one that fails leaves them as its last stage found them. Over open settings it
fails of the one variable that must be a number, before any default is filled, or of validation, when everything is
filled.

* `applyEnvironment_stopped`: that variable comes last, so every other one has been applied;
* `resolve_stopped`: the two places where a resolution can stop, and what the leaves hold there;
* `resolve_interrupted`: nothing is frozen, and what no variable and no default is about is as it was.
-/

namespace ServerSettings

theorem mapError_error {ε δ α : Type} {x : Except ε α} {f : ε → δ} {d : δ} (h : x.mapError f = .error d) :
    ∃ e, x = .error e ∧ f e = d := by
  cases x with
  | error e => exact ⟨e, rfl, Except.error.inj h⟩
  | ok a => cases h

namespace Settings

variable {s t : Settings}

theorem Framed.isFrozen_eq (h : Framed s t) (g : Group) : t.isFrozen g = s.isFrozen g := by
  cases g with
  | root => exact congrArg Except.ok h.mark
  | database d => exact congrArg Except.ok (h.databaseMark d)
  | mappings => exact congrArg Except.ok h.mappingsMark
  | provider name => simp only [isFrozen, provider, h.providers]
  | endpoint name => simp only [isFrozen, provider, h.providers]

/-- If no group is frozen, every leaf can be assigned. -/
theorem open_of_isFrozen (isOpen : ∀ g, s.isFrozen g ≠ .ok true) (l : Leaf) : l.isFinal s = false := by
  have unmarked (g : Group) {mark : Bool} (is : s.isFrozen g = .ok mark) : mark = false := by
    refine Bool.eq_false_iff.mpr fun frozen => isOpen g ?_
    rw [is, frozen]
  cases l with
  | database d f => exact unmarked (.database d) rfl
  | mapping f => exact unmarked .mappings rfl
  | _ => exact unmarked .root rfl

end Settings

namespace Resolution

variable {env : Environment} {policy : Policy} {s t : Settings} {e : Error}

section Environment

/-- A variable that does not fit changes nothing. -/
theorem applyVariable_unfit {l : Leaf} {name : String} (h : applyVariable env l name s = (.error e, t)) : t = s := by
  rw [applyVariable_apply] at h
  split at h
  · split at h
    · split at h
      · cases h
      · cases h
        rfl
    · cases h
  · cases h

/-- A table of variables fails within a part of it, or at the entry behind that part. -/
theorem applyVariables_concat_failed {earlier : List (Leaf × String)} {last : Leaf × String}
    (h : applyVariables env (earlier ++ [last]) s = (.error e, t)) :
    applyVariables env earlier s = (.error e, t) ∨
      ∃ applied u, applyVariables env earlier s = (.ok applied, u) ∧
        applyVariable env last.1 last.2 u = (.error e, t) := by
  induction earlier generalizing s with
  | nil =>
    rcases Edit.bind_error h with failed | ⟨here, u, _, h⟩
    · exact .inr ⟨[], s, rfl, failed⟩
    · rcases Edit.bind_error h with none | ⟨_, _, _, done⟩
      · cases none
      · cases done
  | cons entry rest ih =>
    rcases Edit.bind_error h with failed | ⟨here, u, first, h⟩
    · left
      rw [applyVariables, Edit.bind_apply, failed]
    · rcases Edit.bind_error h with failed | ⟨_, _, _, done⟩
      · rcases ih failed with within | ⟨applied, v, passed, failed⟩
        · left
          rw [applyVariables, Edit.bind_apply, first]
          simp only [Edit.bind_apply, within]
        · refine .inr ⟨if here then entry.1 :: applied else applied, v, ?_, failed⟩
          rw [applyVariables, Edit.bind_apply, first]
          simp only [Edit.bind_apply, passed]
          rfl
      · cases done

theorem given?_concat {table : List (Leaf × String)} {last : Leaf × String} {l : Leaf} (other : last.1 ≠ l) :
    given? (table ++ [last]) l = given? table l := by
  simp [given?, List.find?_append, other]

/-- The variable that must be a number comes last. -/
theorem overrides_eq : Tables.overrides = Tables.overrides.dropLast ++ [(.maxParallelTasks, tasksVariable)] := rfl

/-- Over open settings the environment fails when every other variable has been applied. -/
theorem applyEnvironment_stopped (isOpen : ∀ l : Leaf, l.isFinal s = false) (h : applyEnvironment env s = (.error e, t)) :
    t.maxParallelTasks = s.maxParallelTasks ∧ ∀ l : Leaf, l ≠ .maxParallelTasks → Takes s t l (override? env s l) := by
  rw [applyEnvironment, overrides_eq] at h
  rcases applyVariables_concat_failed h with earlier | ⟨applied, u, passed, stop⟩
  · -- Every entry but the last is a text or a switch, which any value fits.
    have texts : ∀ entry ∈ Tables.overrides.dropLast, entry.1.kind ≠ .whole := by decide
    obtain ⟨entry, mem, value, fault, _, unfit, _⟩ := applyVariables_failed isOpen earlier
    obtain ⟨content, fits⟩ := coerce_text_ok (texts entry mem) value
    rw [fits] at unfit
    cases unfit
  · obtain rfl := applyVariable_unfit stop
    have table : Tables.overrides.dropLast = (.text .dialect, "SEMAPHORE_DB_DIALECT") :: Tables.overrides.dropLast.tail := rfl
    have once : (Tables.overrides.dropLast.tail.map (·.1)).Nodup := by decide
    rw [table] at passed
    obtain ⟨_, leaves⟩ := applyVariables_backend_ok once (by decide) passed
    rw [← table] at leaves
    constructor
    · have unlisted : given? Tables.overrides.dropLast .maxParallelTasks = none := given?_of_not_mem (by decide)
      have kept := leaves .maxParallelTasks
      rw [unlisted, Option.bind_none, ite_self] at kept
      exact kept
    · intro l other
      have listed : given? Tables.overrides l = given? Tables.overrides.dropLast l := by
        rw [overrides_eq]
        exact given?_concat (Ne.symm other)
      rw [override?, listed]
      exact leaves l

end Environment

/-- What was validated to the end is only refused for its problems. -/
theorem verdict_refused {found : List Problem} (h : policy.verdict (.ok found) = .error e) :
    ∃ messages, e = .validation messages := by
  cases policy with
  | collect => cases h
  | refuse =>
    cases found with
    | nil => cases h
    | cons problem more =>
      cases h
      exact ⟨_, rfl⟩

/-- Where a resolution of open settings stops: at the variable that must be a number, with every other one applied and
nothing filled; or at validation, with every leaf as the layers give it. -/
theorem resolve_stopped (isOpen : ∀ l : Leaf, l.isFinal s = false) (failed : (s.resolve env policy).result = .error e) :
    let t := (s.resolve env policy).settings
    ((∃ value, env.value? tasksVariable = some value ∧
        (e = .coercion Leaf.maxParallelTasks.path (.environment tasksVariable (.notInteger value)) ∨
          ∃ digits, e = .number (.tooManyDigits digits))) ∧
        t.maxParallelTasks = s.maxParallelTasks ∧ ∀ l : Leaf, l ≠ .maxParallelTasks → Takes s t l (override? env s l)) ∨
      ((∃ messages, e = .validation messages) ∨ e = .number .tooLarge) ∧
        ∀ l : Leaf, (layered env s l).map (corrected l) = .ok (l.read t) := by
  rcases resolve_open isOpen env policy with ⟨e', t, stop, ended, left⟩ | ⟨v, comes⟩
  · rw [ended] at failed
    cases failed
    rw [left]
    refine .inl ⟨?_, applyEnvironment_stopped isOpen stop⟩
    obtain ⟨value, fault, given, unfit, rfl⟩ := applyEnvironment_failed isOpen stop
    refine ⟨value, given, ?_⟩
    rcases coerce_whole_failed unfit with rfl | ⟨digits, rfl⟩
    · exact .inl rfl
    · exact .inr ⟨digits, rfl⟩
  · rw [comes.left e failed]
    refine .inr ⟨?_, comes.leaves⟩
    have verdict := comes.result.symm.trans failed
    cases listed : problems v tablePatterns with
    | error fault =>
      rw [listed] at verdict
      obtain ⟨_, rfl⟩ := problems_failed tablePatterns_leaf listed
      cases policy <;> cases verdict <;> exact .inr rfl
    | ok found =>
      rw [listed] at verdict
      exact .inl (verdict_refused verdict)

/-- The layers leave alone what no variable and no default is about. -/
theorem layered_of_free {l : Leaf} (unset : override? env s l = none) (without : given? Tables.defaults l = none) :
    (layered env s l).map (corrected l) = .ok (l.read s) := by
  have plain : default? s l = none := by rw [default?, without, ite_self]
  have other : l ≠ .text .port := by
    rintro rfl
    cases without
  rw [layered, unset, plain]
  exact congrArg Except.ok (corrected_of_ne other _)

/-- A resolution of settings without a frozen group that fails freezes none, changes no map of options and no provider,
and keeps every leaf that has neither a variable nor a default. If the type of a value is to blame, the error names the
number and its variable; every other variable has been applied, and neither the number nor anything empty has been
changed. If the settings are refused, every leaf holds what the layers give it, the port with its colon. -/
theorem resolve_interrupted (isOpen : ∀ g, s.isFrozen g ≠ .ok true) (failed : (s.resolve env policy).result = .error e) :
    let t := (s.resolve env policy).settings
    (∀ g, t.isFrozen g ≠ .ok true) ∧
    (∀ d, (t.database d).options = (s.database d).options) ∧ t.providers = s.providers ∧
    (∀ l, override? env s l = none → given? Tables.defaults l = none → l.read t = l.read s) ∧
    (∀ path reason, e = .coercion path reason →
      path = "max_parallel_tasks" ∧
      (∃ text, env.value? "SEMAPHORE_MAX_PARALLEL_TASKS" = some text ∧
        reason = .environment "SEMAPHORE_MAX_PARALLEL_TASKS" (.notInteger text)) ∧
      t.maxParallelTasks = s.maxParallelTasks ∧
      ∀ l : Leaf, l ≠ .maxParallelTasks → Takes s t l (override? env s l)) ∧
    ∀ messages, e = .validation messages → ∀ l : Leaf, (layered env s l).map (corrected l) = .ok (l.read t) := by
  intro t
  have frame := (amended_of_failed failed).frame
  refine ⟨fun g => by rw [frame.isFrozen_eq]; exact isOpen g, frame.options, frame.providers, ?_⟩
  rcases resolve_stopped (Settings.open_of_isFrozen isOpen) failed with
    ⟨⟨value, given, ending⟩, number, others⟩ | ⟨ending, leaves⟩
  · refine ⟨fun l unset _ => ?_, ?_, ?_⟩
    · by_cases tasks : l = .maxParallelTasks
      · subst tasks
        exact number
      · have taken := others l tasks
        rw [unset] at taken
        exact taken
    · rintro path reason rfl
      rcases ending with blamed | ⟨_, long⟩
      · cases blamed
        exact ⟨rfl, ⟨value, given, rfl⟩, number, others⟩
      · cases long
    · rintro messages rfl
      rcases ending with blamed | ⟨_, long⟩
      · cases blamed
      · cases long
  · refine ⟨fun l unset without => ?_, ?_, fun _ _ => leaves⟩
    · have leaf := leaves l
      rw [layered_of_free unset without] at leaf
      exact (Except.ok.inj leaf).symm
    · rintro path reason rfl
      rcases ending with ⟨_, refused⟩ | number
      · cases refused
      · cases number

/-- The two are told apart by the titles of their errors. -/
theorem resolve_stopped_title (isOpen : ∀ g, s.isFrozen g ≠ .ok true) (failed : (s.resolve env policy).result = .error e) :
    (e.title = "CoercionError" → ∃ path reason, e = .coercion path reason) ∧
      (e.title = "ConfigValidationError" → ∃ messages, e = .validation messages) := by
  have unlike : "CoercionError" ≠ "ConfigValidationError" := by decide
  have number : "ValueError" ≠ "CoercionError" := by decide
  have number' : "ValueError" ≠ "ConfigValidationError" := by decide
  rcases resolve_stopped (Settings.open_of_isFrozen isOpen) failed with
    ⟨⟨_, _, rfl | ⟨_, rfl⟩⟩, _⟩ | ⟨⟨_, rfl⟩ | rfl, _⟩
  · exact ⟨fun _ => ⟨_, _, rfl⟩, fun other => absurd other unlike⟩
  · exact ⟨fun other => absurd other number, fun other => absurd other number'⟩
  · exact ⟨fun other => absurd other unlike.symm, fun _ => ⟨_, rfl⟩⟩
  · exact ⟨fun other => absurd other number, fun other => absurd other number'⟩

theorem resolve_interrupted_number :
    let s : Settings := { maxParallelTasks := 3 }
    let rest : Environment :=
      [("SEMAPHORE_DB_DIALECT", "postgres"), ("SEMAPHORE_DB_HOST", "db"), ("SEMAPHORE_PORT", "8080")]
    let env := ("SEMAPHORE_MAX_PARALLEL_TASKS", "many") :: rest
    let t := (s.resolve env .collect).settings
    let u := (s.resolve rest .refuse).settings
    ((∀ g, t.isFrozen g ≠ .ok true) ∧ t.maxParallelTasks = 3 ∧ t.text .port = "8080" ∧ t.text .tmpPath = "" ∧
      (t.database .postgres).text .hostname = "db" ∧ (t.database .mysql).text .hostname = "") ∧
    (∀ g, u.isFrozen g ≠ .ok true) ∧ u.text .port = ":8080" ∧ u.text .tmpPath = "/tmp/semaphore" ∧
      (u.database .postgres).text .hostname = "db" := by
  intro s rest env
  have isOpen : ∀ g, s.isFrozen g ≠ .ok true := by
    intro g
    cases g <;> nofun
  have stops : (s.resolve env .collect).result.mapError Error.title = .error "CoercionError" := by decide +kernel
  have refuses : (s.resolve rest .refuse).result.mapError Error.title = .error "ConfigValidationError" := by
    decide +kernel
  obtain ⟨e, blamed, titled⟩ := mapError_error stops
  obtain ⟨path, reason, rfl⟩ := (resolve_stopped_title isOpen blamed).1 titled
  obtain ⟨e, refused, titled⟩ := mapError_error refuses
  obtain ⟨messages, rfl⟩ := (resolve_stopped_title isOpen refused).2 titled
  obtain ⟨unfrozen, _, _, _, stopped, _⟩ := resolve_interrupted isOpen blamed
  obtain ⟨_, _, number, taken⟩ := stopped path reason rfl
  obtain ⟨unfrozen', _, _, _, _, layers⟩ := resolve_interrupted isOpen refused
  have held := layers messages rfl
  generalize s.resolve env .collect = interrupted at unfrozen number taken ⊢
  generalize s.resolve rest .refuse = complete at unfrozen' held ⊢
  refine ⟨⟨unfrozen, number, ?_, ?_, ?_, ?_⟩, unfrozen', ?_, ?_, ?_⟩
  · exact (Except.ok.inj (taken (.text .port) (by decide))).symm
  · exact taken (.text .tmpPath) (by decide)
  · exact (Except.ok.inj (taken (.database .postgres .hostname) (by decide))).symm
  · exact taken (.database .mysql .hostname) (by decide)
  · exact (Except.ok.inj (held (.text .port))).symm
  · exact (Except.ok.inj (held (.text .tmpPath))).symm
  · exact (Except.ok.inj (held (.database .postgres .hostname))).symm

end Resolution

end ServerSettings
