import ServerSettings.Proofs.Fixpoint
import ServerSettings.Proofs.Secrecy.Masking

/-!
# Resolving without regard to secrets

* `resolve_fresh`: a resolution of fresh settings ends in their layers, judged by the policy, unless the one variable
  that must be a number does not fit;
* `layered_alike`: the layers of what is no secret are those of other settings that are masked alike;
* `resolve_alike`: so two resolutions find the same problems or fail alike, and end in settings that are masked alike.
-/

namespace ServerSettings

/-- Variables over settings that are secrets but no keys. -/
def secretVariables : List String :=
  ["SEMAPHORE_DB_PASS", "SEMAPHORE_EMAIL_PASSWORD", "SEMAPHORE_LDAP_PASSWORD", "SEMAPHORE_TELEGRAM_TOKEN"]

/-- The same variables, those over secrets apart. -/
def Environment.Alike (env env' : Environment) : Prop :=
  ∀ name ∉ secretVariables, Dict.lookup env name = Dict.lookup env' name

theorem Environment.Alike.value? {env env' : Environment} (alike : Alike env env') {name : String}
    (shown : name ∉ secretVariables) : env.value? name = env'.value? name := by
  rw [Environment.value?, Environment.value?, alike name shown]

theorem Environment.Alike.valueOr {env env' : Environment} (alike : Alike env env') {name : String}
    (shown : name ∉ secretVariables) (fallback : String) : env.valueOr name fallback = env'.valueOr name fallback := by
  rw [Environment.valueOr, Environment.valueOr, alike.value? shown]

namespace Settings

variable {s t : Settings}

/-- What is no secret can be told from the masked settings. -/
theorem read_mask (s : Settings) {l : Leaf} (shown : l.isSecret = false) : l.read s.mask = l.read s := by
  cases l with
  | database d f =>
    cases f with
    | password => cases shown
    | _ => rfl
  | text f =>
    show (if (Leaf.text f).isSecret then "" else s.text f) = s.text f
    rw [shown]
    rfl
  | _ => rfl

theorem read_of_mask (same : s.mask = t.mask) {l : Leaf} (shown : l.isSecret = false) : l.read s = l.read t := by
  rw [← s.read_mask shown, same, t.read_mask shown]

/-- A masked secret is empty. -/
theorem read_mask_secret (s t : Settings) {l : Leaf} (secret : l.isSecret = true) : l.read s.mask = l.read t.mask := by
  cases l with
  | database d f =>
    cases f with
    | password => rfl
    | _ => cases secret
  | text f =>
    show (if (Leaf.text f).isSecret then "" else s.text f) = if (Leaf.text f).isSecret then "" else t.text f
    rw [secret]
    rfl
  | _ => cases secret

theorem Framed.mask (h : Framed s t) : Framed s.mask t.mask where
  options := h.options
  databaseMark := h.databaseMark
  mappingsMark := h.mappingsMark
  providers := congrArg (Dict.mapValues Provider.mask) h.providers
  mark := h.mark

theorem mask_freeze (s : Settings) : s.freeze.mask = s.mask.freeze := by
  have providers : Dict.mapValues Provider.mask s.freeze.providers = Dict.mapValues Provider.freeze s.mask.providers := by
    show Dict.mapValues _ (Dict.mapValues _ s.providers) = Dict.mapValues _ (Dict.mapValues _ s.providers)
    rw [Dict.mapValues_mapValues, Dict.mapValues_mapValues]
    rfl
  apply Settings.ext
  · rfl
  · rfl
  · rfl
  · rfl
  · exact providers
  · rfl
  · rfl

/-- Settings of one frame that agree on what is no secret are masked alike. -/
theorem mask_eq_of_read {v w : Settings} (same : s.mask = t.mask) (left : Framed s v) (right : Framed t w)
    (shown : ∀ l : Leaf, l.isSecret = false → l.read v = l.read w) : v.mask = w.mask := by
  have frame : Framed w.mask v.mask := by
    have back := right.mask
    rw [← same] at back
    exact ⟨fun d => (left.mask.options d).trans (back.options d).symm,
      fun d => (left.mask.databaseMark d).trans (back.databaseMark d).symm,
      left.mask.mappingsMark.trans back.mappingsMark.symm, left.mask.providers.trans back.providers.symm,
      left.mask.mark.trans back.mark.symm⟩
  refine frame.eq_of_read fun l => ?_
  cases secret : l.isSecret with
  | true => exact read_mask_secret v w secret
  | false => rw [v.read_mask secret, w.read_mask secret, shown l secret]

end Settings

namespace Resolution

variable {env env' : Environment} {s t : Settings}

/-- A resolution of fresh settings ends in their layers, judged by the policy and frozen, unless the one variable that
must be a number does not fit. -/
theorem resolve_fresh (fresh : s.Fresh) (env : Environment) (policy : Policy) :
    (∃ value fault, env.value? tasksVariable = some value ∧
      coerce Leaf.maxParallelTasks.path .whole (.text value) = .error fault) ∨
    ∃ v, Settings.Framed s v ∧ (∀ l : Leaf, (layered env s l).map (corrected l) = .ok (l.read v)) ∧
      (s.resolve env policy).result = policy.verdict (problems v tablePatterns) ∧
      ∀ found, (s.resolve env policy).result = .ok found → (s.resolve env policy).settings = v.freeze := by
  rcases resolve_open fresh.isOpen env policy with ⟨e, t, stop, -⟩ | ⟨v, comes⟩
  · obtain ⟨value, fault, given, unfit, -⟩ := applyEnvironment_failed fresh.isOpen stop
    exact .inl ⟨value, fault, given, unfit⟩
  · exact .inr ⟨v, comes.amended.frame, comes.leaves, comes.result, comes.frozen⟩

theorem mem_of_given? {table : List (Leaf × String)} {l : Leaf} {name : String} (h : given? table l = some name) :
    (l, name) ∈ table := by
  obtain ⟨entry, found, rfl⟩ := Option.map_eq_some_iff.mp h
  have same : entry.1 = l := by simpa using List.find?_some found
  exact same ▸ List.mem_of_find?_eq_some found

/-- Only secrets are overridden by the variables over secrets. -/
theorem variable_shown : ∀ entry ∈ Tables.overrides, entry.1.isSecret = false → entry.2 ∉ secretVariables := by
  decide +kernel

section Alike

variable (alike : env.Alike env') (same : s.mask = t.mask)

include alike same

theorem selected_alike : selected env s = selected env' t := by
  have dialect : s.text .dialect = t.text .dialect := Settings.read_of_mask same (l := .text .dialect) rfl
  rw [selected, selected, dialect, alike.valueOr (by decide)]

theorem override?_alike {l : Leaf} (shown : l.isSecret = false) : override? env s l = override? env' t l := by
  have gate : isSelected env s l = isSelected env' t l := by
    cases l <;> simp only [isSelected, selected_alike alike same]
  rw [override?, override?, gate]
  cases given : given? Tables.overrides l with
  | none => rfl
  | some name => simp only [Option.bind_some, alike.value? (variable_shown _ (mem_of_given? given) shown)]

/-- The layers of what is no secret do not depend on secrets. -/
theorem layered_alike {l : Leaf} (shown : l.isSecret = false) : layered env s l = layered env' t l := by
  rw [layered, layered, default?, default?, override?_alike alike same shown, Settings.read_of_mask same shown]

end Alike

/-- No pattern is about a secret, keys apart. -/
theorem pattern_shown : ∀ entry ∈ tablePatterns, ∃ l, Leaf.ofPath entry.1 = .ok l ∧ l.isSecret = false := by
  have found : ∀ entry ∈ tablePatterns, (Leaf.ofPath? entry.1).any (fun l => !l.isSecret) = true := by decide +kernel
  intro entry mem
  obtain ⟨l, leaf, shown⟩ := (Option.any_eq_true _ _).mp (found entry mem)
  exact ⟨l, by rw [Leaf.ofPath, leaf], by simpa using shown⟩

theorem key_shown : ∀ f ∈ Tables.keys, (Leaf.text f).isSecret = false := by decide

/-- What is found does not depend on secrets. -/
theorem problems_alike (shown : ∀ l : Leaf, l.isSecret = false → l.read s = l.read t) :
    problems s tablePatterns = problems t tablePatterns := by
  refine problems_eq_of_get (fun entry mem => get_congr fun l path => ?_) fun f mem => shown (.text f) (key_shown f mem)
  obtain ⟨m, leaf, plain⟩ := pattern_shown entry mem
  rw [← path, l.ofPath_path] at leaf
  cases leaf
  exact shown l plain

/-- Two resolutions of settings that are masked alike, under environments that differ in secrets only, find the same
problems or fail alike, and end in settings that are masked alike. -/
theorem resolve_alike (alike : env.Alike env') (same : s.mask = t.mask) (left : s.Fresh) (right : t.Fresh)
    (policy : Policy) :
    (s.resolve env policy).result = (t.resolve env' policy).result ∧
      ∀ found, (s.resolve env policy).result = .ok found →
        (s.resolve env policy).settings.mask = (t.resolve env' policy).settings.mask := by
  have variable_alike : env.value? tasksVariable = env'.value? tasksVariable := alike.value? (by decide)
  rcases resolve_fresh left env policy with ⟨value, fault, given, unfit⟩ | ⟨v, frame, leaves, judged, ends⟩
  · have failed : (s.resolve env policy).result = _ := resolve_fails left given unfit
    rw [failed, resolve_fails right (variable_alike ▸ given) unfit]
    exact ⟨rfl, fun _ h => by cases h⟩
  rcases resolve_fresh right env' policy with ⟨value, fault, given, unfit⟩ | ⟨w, frame', leaves', judged', ends'⟩
  · have failed : (t.resolve env' policy).result = _ := resolve_fails right given unfit
    rw [failed, resolve_fails left (variable_alike ▸ given) unfit]
    exact ⟨rfl, fun _ h => by cases h⟩
  have shown : ∀ l : Leaf, l.isSecret = false → l.read v = l.read w := by
    intro l shown
    have leaf := leaves l
    rw [layered_alike alike same shown, leaves' l] at leaf
    exact (Except.ok.inj leaf).symm
  have results : (s.resolve env policy).result = (t.resolve env' policy).result := by
    rw [judged, judged', problems_alike shown]
  refine ⟨results, fun found done => ?_⟩
  rw [ends found done, ends' found (results ▸ done), Settings.mask_freeze, Settings.mask_freeze,
    Settings.mask_eq_of_read same frame frame' shown]

end Resolution

end ServerSettings
