import ServerSettings.Proofs.Edits

/-!
# Which layer a setting comes from

`layered` says it for each leaf by itself: the variable that applies to it, else the default if the file
leaves it empty, else the file. Resolution works through its tables in order and reads what it has already
changed.

* `applyVariables_ok`: a table that does not name the backend decides all its entries by the backend it
  began with, and each leaf takes the value of its own entry;
* `applyEnvironment_ok`: the first entry names the backend, the others follow it;
* `resolve_layered`: the outcome is `layered`, leaf by leaf, and nothing else is touched.
-/

namespace ServerSettings.Resolution

/-- What a table holds for a leaf. -/
def given? (table : List (Leaf × String)) (l : Leaf) : Option String :=
  (table.find? (·.1 = l)).map (·.2)

/-- The backend that the environment names, or else the file. -/
def selected (env : Environment) (s : Settings) : String :=
  env.valueOr "SEMAPHORE_DB_DIALECT" (s.text .dialect)

/-- Is a leaf outside of the storage groups, or in that of the selected backend? -/
def isSelected (env : Environment) (s : Settings) : Leaf → Bool
  | .database d _ => selected env s = d.name
  | _ => true

/-- The value of the variable over a leaf, if there is one that applies and is not empty. -/
def override? (env : Environment) (s : Settings) (l : Leaf) : Option String :=
  if isSelected env s l then (given? Tables.overrides l).bind env.value? else none

/-- The default for a leaf, if it has one and the settings leave it empty. -/
def default? (s : Settings) (l : Leaf) : Option String :=
  if (l.kind.render (l.read s)).toOption = some "" then given? Tables.defaults l else none

/-- The content that the layers give a leaf. Texts of the environment and of the defaults are fitted to
its kind. -/
def layered (env : Environment) (s : Settings) (l : Leaf) : Except Error l.kind.Content :=
  match (override? env s l).or (default? s l) with
  | some value => coerce l.path l.kind (.text value)
  | none => .ok (l.read s)

/-- The port with its leading colon, every other content as it is. -/
def corrected : (l : Leaf) → l.kind.Content → l.kind.Content
  | .text .port, port => normalizePort port
  | _, content => content

theorem corrected_of_ne {l : Leaf} (other : l ≠ .text .port) (content : l.kind.Content) : corrected l content = content := by
  cases l with
  | text f =>
    cases f with
    | port => exact absurd rfl other
    | _ => rfl
  | _ => rfl

/-- From `s` to `t` a leaf takes a text, fitted to its kind, or keeps its content if there is none. -/
def Takes (s t : Settings) (l : Leaf) : Option String → Prop
  | some value => coerce l.path l.kind (.text value) = .ok (l.read t)
  | none => l.read t = l.read s

section Table

theorem given?_cons (entry : Leaf × String) (rest : List (Leaf × String)) (l : Leaf) :
    given? (entry :: rest) l = if entry.1 = l then some entry.2 else given? rest l := by
  by_cases same : entry.1 = l <;> simp [given?, same]

theorem given?_of_not_mem {table : List (Leaf × String)} {l : Leaf} (h : l ∉ table.map (·.1)) :
    given? table l = none := by
  have absent : table.find? (·.1 = l) = none := by
    apply List.find?_eq_none.mpr
    intro entry mem eq
    exact h (List.mem_map.mpr ⟨entry, mem, by simpa using eq⟩)
  rw [given?, absent]
  rfl

theorem given?_of_mem {table : List (Leaf × String)} (once : (table.map (·.1)).Nodup)
    {entry : Leaf × String} (h : entry ∈ table) : given? table entry.1 = some entry.2 := by
  induction table with
  | nil => cases h
  | cons first rest ih =>
    obtain ⟨fresh, once⟩ := List.nodup_cons.mp once
    rw [given?_cons]
    rcases List.mem_cons.mp h with rfl | later
    · rw [if_pos rfl]
    · have other : first.1 ≠ entry.1 := by
        intro eq
        exact fresh (List.mem_map.mpr ⟨entry, later, eq.symm⟩)
      rw [if_neg other, ih once later]

end Table

section Environment

variable {env : Environment} {s t : Settings}

theorem applies_of_dialect (h : t.text .dialect = s.text .dialect) (l : Leaf) :
    applies t l = applies s l := by
  cases l <;> simp only [applies, h]

theorem setLeaf_ok {l : Leaf} {v : Value} (h : s.setLeaf l v = .ok t) :
    coerce l.path l.kind v = .ok (l.read t) ∧ ∀ m : Leaf, m ≠ l → m.read t = m.read s := by
  rw [Settings.setLeaf_eq] at h
  cases hc : coerce l.path l.kind v with
  | error e => rw [hc] at h; cases h
  | ok content =>
    rw [hc] at h
    simp only [Leaf.assign] at h
    split at h
    · cases h
    · cases h
      exact ⟨by rw [Leaf.read_write_self], fun m ne => Leaf.read_write_of_ne s content ne⟩

theorem applyVariable_ok {l : Leaf} {name : String} {applied : Bool}
    (h : applyVariable env l name s = (.ok applied, t)) :
    applied = (applies s l && (env.value? name).isSome) ∧
      Takes s t l (if applies s l then env.value? name else none) ∧
      ∀ m : Leaf, m ≠ l → m.read t = m.read s := by
  rw [applyVariable_apply] at h
  cases ha : applies s l with
  | false =>
    simp only [ha] at h
    cases h
    exact ⟨rfl, rfl, fun _ _ => rfl⟩
  | true =>
    cases hv : env.value? name with
    | none =>
      simp only [ha, hv] at h
      cases h
      exact ⟨rfl, rfl, fun _ _ => rfl⟩
    | some value =>
      simp only [ha, hv, if_true] at h
      cases hs : s.setLeaf l (.text value) with
      | error e => rw [hs] at h; cases h
      | ok u =>
        rw [hs] at h
        cases h
        exact ⟨rfl, setLeaf_ok hs⟩

theorem applyVariables_cons_ok {l : Leaf} {name : String} {rest : List (Leaf × String)}
    {applied : List Leaf} (h : applyVariables env ((l, name) :: rest) s = (.ok applied, t)) :
    ∃ here u more, applyVariable env l name s = (.ok here, u) ∧
      applyVariables env rest u = (.ok more, t) ∧ applied = if here then l :: more else more := by
  rw [applyVariables] at h
  obtain ⟨here, u, first, h⟩ := Edit.bind_ok h
  obtain ⟨more, v, later, done⟩ := Edit.bind_ok h
  cases done
  exact ⟨here, u, more, first, later, rfl⟩

/-- A table without the backend's name in it decides every entry by the backend it began with. -/
theorem applyVariables_ok {table : List (Leaf × String)} {applied : List Leaf}
    (once : (table.map (·.1)).Nodup) (fixed : .text .dialect ∉ table.map (·.1))
    (h : applyVariables env table s = (.ok applied, t)) :
    applied = (table.filter fun entry => applies s entry.1 && (env.value? entry.2).isSome).map (·.1) ∧
      ∀ l, Takes s t l (if applies s l then (given? table l).bind env.value? else none) := by
  induction table generalizing s applied with
  | nil =>
    cases h
    refine ⟨rfl, fun l => ?_⟩
    rw [given?_of_not_mem List.not_mem_nil, Option.bind_none, ite_self]
    exact rfl
  | cons entry rest ih =>
    obtain ⟨l₀, name⟩ := entry
    obtain ⟨fresh, once⟩ := List.nodup_cons.mp once
    simp only [List.map_cons, List.mem_cons, not_or] at fixed
    obtain ⟨here, u, more, first, later, rfl⟩ := applyVariables_cons_ok h
    obtain ⟨took, value, others⟩ := applyVariable_ok first
    obtain ⟨list, leaves⟩ := ih once fixed.2 later
    have gate : ∀ l, applies u l = applies s l :=
      applies_of_dialect (others (.text .dialect) fixed.1)
    simp only [gate] at list leaves
    constructor
    · rw [List.filter_cons, ← took, list]
      cases here <;> rfl
    · intro l
      have next := leaves l
      rw [given?_cons]
      by_cases same : l₀ = l
      · subst same
        rw [given?_of_not_mem fresh, Option.bind_none, ite_self] at next
        have untouched : l₀.read t = l₀.read u := next
        rw [if_pos rfl, Option.bind_some]
        unfold Takes at value ⊢
        rwa [untouched]
      · rw [if_neg same]
        unfold Takes at next ⊢
        rwa [← others l (Ne.symm same)]

theorem overrides_once : (Tables.overrides.map (·.1)).Nodup := by decide

/-- A table that begins with the backend's name decides the other entries by the backend that is named then. -/
theorem applyVariables_backend_ok {rest : List (Leaf × String)} {applied : List Leaf}
    (once : (rest.map (·.1)).Nodup) (fixed : Leaf.text .dialect ∉ rest.map (·.1))
    (h : applyVariables env ((.text .dialect, "SEMAPHORE_DB_DIALECT") :: rest) s = (.ok applied, t)) :
    applied = (((.text .dialect, "SEMAPHORE_DB_DIALECT") :: rest).filter fun entry =>
        isSelected env s entry.1 && (env.value? entry.2).isSome).map (·.1) ∧
      ∀ l, Takes s t l (if isSelected env s l then
        (given? ((.text .dialect, "SEMAPHORE_DB_DIALECT") :: rest) l).bind env.value? else none) := by
  obtain ⟨here, u, more, first, later, rfl⟩ := applyVariables_cons_ok h
  obtain ⟨took, value, others⟩ := applyVariable_ok first
  obtain ⟨list, leaves⟩ := applyVariables_ok once fixed later
  have backend : u.text .dialect = selected env s := by
    unfold selected Environment.valueOr
    unfold Takes at value
    simp only [applies, if_true] at value
    cases hv : env.value? "SEMAPHORE_DB_DIALECT" with
    | none => rw [hv] at value; exact value
    | some name => rw [hv] at value; exact (Except.ok.inj value).symm
  have gate : ∀ l, applies u l = isSelected env s l := by
    intro l
    cases l <;> simp only [applies, isSelected, backend]
  simp only [gate] at list leaves
  constructor
  · rw [list, took, List.filter_cons]
    cases env.value? "SEMAPHORE_DB_DIALECT" <;> rfl
  · intro l
    have next := leaves l
    rw [given?_cons]
    by_cases same : Leaf.text .dialect = l
    · subst same
      rw [given?_of_not_mem fixed, Option.bind_none, ite_self] at next
      have untouched : u.text .dialect = t.text .dialect := Eq.symm next
      rw [if_pos rfl, Option.bind_some]
      unfold Takes at value ⊢
      simp only [Leaf.read, isSelected, applies] at value ⊢
      rwa [← untouched]
    · rw [if_neg same]
      unfold Takes at next ⊢
      rwa [← others l (Ne.symm same)]

theorem applyEnvironment_ok {applied : List Leaf} (h : applyEnvironment env s = (.ok applied, t)) :
    applied = (Tables.overrides.filter fun entry => (override? env s entry.1).isSome).map (·.1) ∧
      ∀ l, Takes s t l (override? env s l) := by
  obtain ⟨list, leaves⟩ := applyVariables_backend_ok overrides_once.tail (by decide) h
  have agree : ∀ entry ∈ Tables.overrides, (override? env s entry.1).isSome =
      (isSelected env s entry.1 && (env.value? entry.2).isSome) := by
    intro entry mem
    rw [override?, given?_of_mem overrides_once mem]
    cases isSelected env s entry.1 <;> rfl
  refine ⟨?_, leaves⟩
  rw [List.filter_congr agree, list]
  rfl

end Environment

section Defaults

variable {s t : Settings}

theorem applyDefault_ok {l : Leaf} {value : String} {filled : Bool}
    (h : applyDefault l value s = (.ok filled, t)) :
    Takes s t l (if (l.kind.render (l.read s)).toOption = some "" then some value else none) ∧
      ∀ m : Leaf, m ≠ l → m.read t = m.read s := by
  rw [applyDefault_apply, Settings.leafText] at h
  cases hr : l.kind.render (l.read s) with
  | error fault => rw [hr] at h; cases h
  | ok text =>
    have shown : (Except.ok text : Except NumberFault String).mapError Error.number = .ok text := rfl
    simp only [hr, shown] at h
    by_cases blank : text = ""
    · subst blank
      rw [if_pos rfl] at h
      cases hs : s.setLeaf l (.text value) with
      | error e => rw [hs] at h; cases h
      | ok u =>
        rw [hs] at h
        cases h
        exact setLeaf_ok hs
    · rw [if_neg blank] at h
      cases h
      have kept : (Except.ok text : Except NumberFault String).toOption ≠ some "" := by
        intro eq
        exact blank (Option.some.inj eq)
      rw [if_neg kept]
      exact ⟨rfl, fun _ _ => rfl⟩

theorem applyDefaultsOf_ok {table : List (Leaf × String)} {filled : List Leaf}
    (once : (table.map (·.1)).Nodup) (h : applyDefaultsOf table s = (.ok filled, t)) (l : Leaf) :
    Takes s t l (if (l.kind.render (l.read s)).toOption = some "" then given? table l else none) := by
  induction table generalizing s filled with
  | nil =>
    cases h
    rw [given?_of_not_mem List.not_mem_nil, ite_self]
    exact rfl
  | cons entry rest ih =>
    obtain ⟨l₀, value⟩ := entry
    obtain ⟨fresh, once⟩ := List.nodup_cons.mp once
    rw [applyDefaultsOf] at h
    obtain ⟨here, u, first, h⟩ := Edit.bind_ok h
    obtain ⟨more, v, later, done⟩ := Edit.bind_ok h
    cases done
    obtain ⟨took, others⟩ := applyDefault_ok first
    have next := ih once later
    rw [given?_cons]
    by_cases same : l₀ = l
    · subst same
      rw [given?_of_not_mem fresh, ite_self] at next
      have untouched : l₀.read t = l₀.read u := next
      rw [if_pos rfl]
      unfold Takes at took ⊢
      rwa [untouched]
    · rw [if_neg same]
      unfold Takes at next ⊢
      rwa [← others l (Ne.symm same)]

theorem defaults_once : (Tables.defaults.map (·.1)).Nodup := by decide

theorem applyDefaults_ok {filled : List Leaf} (h : applyDefaults s = (.ok filled, t)) (l : Leaf) :
    Takes s t l (default? s l) :=
  applyDefaultsOf_ok defaults_once h l

/-- A leaf without a default is not filled. -/
theorem read_of_applyDefaults {filled : List Leaf} (h : applyDefaults s = (.ok filled, t)) {l : Leaf}
    (plain : given? Tables.defaults l = none) : l.read t = l.read s := by
  have takes := applyDefaults_ok h l
  rw [default?, plain, ite_self] at takes
  exact takes

/-- A text is filled if it is empty and has a default. -/
theorem text_of_applyDefaults {filled : List Leaf} (h : applyDefaults s = (.ok filled, t)) {f : TextSetting}
    {value : String} (given : given? Tables.defaults (.text f) = some value) :
    t.text f = if s.text f = "" then value else s.text f := by
  have takes := applyDefaults_ok h (.text f)
  have shown : ((Leaf.text f).kind.render ((Leaf.text f).read s)).toOption = some (s.text f) := rfl
  by_cases empty : s.text f = ""
  · rw [default?, shown, if_pos (congrArg some empty), given] at takes
    rw [if_pos empty]
    exact (Except.ok.inj takes).symm
  · rw [default?, shown, if_neg fun same => empty (Option.some.inj same)] at takes
    rw [if_neg empty]
    exact takes

end Defaults

section Validation

variable {s t : Settings}

theorem correctPort_ok (h : correctPort s = (.ok (), t)) (l : Leaf) :
    l.read t = corrected l (l.read s) := by
  rw [correctPort_apply] at h
  by_cases port : l = .text .port
  · subst port
    split at h
    · next same =>
      cases h
      exact same.symm
    · split at h <;> cases h
      exact Leaf.read_write_self s (.text .port) _
  · rw [corrected_of_ne port]
    split at h
    · cases h
      rfl
    · split at h <;> cases h
      exact Leaf.read_write_of_ne s _ port

/-- A text that is not the port stays as it is. -/
theorem text_of_correctPort (h : correctPort s = (.ok (), t)) {f : TextSetting} (other : f ≠ .port) :
    t.text f = s.text f :=
  (correctPort_ok h (.text f)).trans (corrected_of_ne (fun same => other (Leaf.text.inj same)) _)

theorem key_of_correctPort (h : correctPort s = (.ok (), t)) {f : TextSetting} (mem : f ∈ Tables.keys) :
    t.text f = s.text f := by
  refine text_of_correctPort h ?_
  rintro rfl
  exact absurd mem (by decide)

theorem validate_ok {patterns : List (String × Pattern)} {found : List Problem}
    (h : validate patterns s = (.ok found, t)) :
    correctPort s = (.ok (), t) ∧ problems t patterns = .ok found := by
  rw [validate_apply] at h
  rcases hc : correctPort s with ⟨e | ⟨⟩, u⟩ <;> rw [hc] at h
  · cases h
  · obtain ⟨hp, rfl⟩ := Prod.mk.inj h
    exact ⟨rfl, hp⟩

theorem check_ok (h : check s = (.ok (), t)) : validate tablePatterns s = (.ok [], t) := by
  rw [check_apply] at h
  rcases hv : validate tablePatterns s with ⟨e | _ | ⟨p, more⟩, u⟩ <;> rw [hv] at h <;> cases h
  rfl

theorem validateUnder_ok {policy : Policy} {found : List Problem}
    (h : validateUnder policy s = (.ok found, t)) : validate tablePatterns s = (.ok found, t) := by
  cases policy with
  | collect => exact h
  | refuse =>
    obtain ⟨⟨⟩, u, checked, done⟩ := Edit.bind_ok h
    cases done
    exact check_ok checked

end Validation

/-- What comes from the environment is not empty, so no default replaces it. -/
theorem render_ne_empty {path : String} {k : Kind} {value : String} {content : k.Content}
    (given : value ≠ "") (h : coerce path k (.text value) = .ok content) :
    (k.render content).toOption ≠ some "" := by
  cases k with
  | text =>
    have eq : value = content := Except.ok.inj h
    intro blank
    exact given (eq.trans (Option.some.inj blank))
  | whole =>
    simp only [Kind.render, Whole.text]
    split
    · intro blank
      have none : Whole.digits content = [] := by
        simpa using congrArg String.toList (Option.some.inj blank)
      unfold Whole.digits at none
      split at none
      · cases none
      · exact absurd none Nat.toDigits_ne_nil
    · simp [Except.toOption]
  | flag => cases content <;> simp [Kind.render, Except.toOption]

theorem override?_ne_empty {env : Environment} {s : Settings} {l : Leaf} {value : String}
    (h : override? env s l = some value) : value ≠ "" := by
  unfold override? at h
  split at h
  · obtain ⟨name, _, read⟩ := Option.bind_eq_some_iff.mp h
    simpa using (Option.filter_eq_some_iff.mp read).2
  · cases h

/-- The defaults look at what the environment left: they come to the same as the defaults of the file. -/
theorem layered_of_takes {env : Environment} {s t u : Settings} {l : Leaf}
    (overridden : Takes s t l (override? env s l)) (defaulted : Takes t u l (default? t l)) :
    layered env s l = .ok (l.read u) := by
  unfold layered
  cases ho : override? env s l with
  | some value =>
    rw [ho] at overridden
    have full := render_ne_empty (override?_ne_empty ho) overridden
    rw [default?, if_neg full] at defaulted
    have kept : l.read u = l.read t := defaulted
    rw [kept]
    exact overridden
  | none =>
    rw [ho] at overridden
    have kept : l.read t = l.read s := overridden
    rw [default?, kept, ← default?] at defaulted
    cases hd : default? s l with
    | some value => rw [hd] at defaulted; exact defaulted
    | none =>
      rw [hd] at defaulted
      have still : l.read u = l.read t := defaulted
      rw [still, kept]
      rfl

theorem layered_of_other {env : Environment} {s : Settings} {d : Dialect} (h : d.name ≠ selected env s)
    (f : DatabaseField) : layered env s (.database d f) = .ok ((s.database d).text f) := by
  have unselected : override? env s (.database d f) = none := by
    rw [override?, isSelected, if_neg (by simpa using Ne.symm h)]
  have plain : default? s (.database d f) = none := by
    rw [default?, given?_of_not_mem (by simp [Tables.defaults]), ite_self]
  rw [layered, unselected, plain]
  rfl

/-- Every leaf holds what the layers give it, the port with its colon. Maps, lists and the groups of other
backends hold what they did, and the leaves that the environment set are told in the order of the table. -/
theorem resolve_layered (env : Environment) (policy : Policy) (s : Settings) (found : List Problem)
    (h : (s.resolve env policy).result = .ok found) :
    let t := (s.resolve env policy).settings
    (∀ l : Leaf, (layered env s l).map (corrected l) = .ok (l.read t)) ∧
    (∀ d, (t.database d).options = (s.database d).options) ∧
    t.providers = Dict.mapValues Provider.freeze s.providers ∧
    (∀ d, d.name ≠ selected env s → t.database d = (s.database d).freeze) ∧
    (applyEnvironment env s).1 =
      .ok ((Tables.overrides.filter fun entry => (override? env s entry.1).isSome).map (·.1)) := by
  obtain ⟨applied, filled, t, u, v, overridden, defaulted, validated, final⟩ := resolve_ok h
  obtain ⟨list, taken⟩ := applyEnvironment_ok overridden
  have corrected_ok := correctPort_ok (validate_ok (validateUnder_ok validated)).1
  have first := (applyEnvironment_amends env).amended overridden
  have second := first.trans (applyDefaults_amends.amended defaulted)
  have frame := (second.trans ((validateUnder_amends policy).amended validated)).frame
  have leaves : ∀ l : Leaf, (layered env s l).map (corrected l) = .ok (l.read v) := by
    intro l
    rw [layered_of_takes (taken l) (applyDefaults_ok defaulted l), corrected_ok l]
    rfl
  intro r
  have hr : r = v.freeze := final
  rw [hr]
  refine ⟨fun l => ?_, frame.options, ?_, fun d other => ?_, ?_⟩
  · rw [leaves l]
    cases l <;> rfl
  · rw [← frame.providers]
    rfl
  · have text : (v.database d).text = (s.database d).text := by
      funext f
      have leaf := leaves (.database d f)
      rw [layered_of_other other] at leaf
      exact (Except.ok.inj leaf).symm
    have options := frame.options d
    show (v.database d).freeze = (s.database d).freeze
    simp only [Database.freeze, text, options]
  · rw [overridden, list]

theorem resolve_layered_postgres :
    let s : Settings := { text := fun _ => "mysql", database := fun _ => { text := fun _ => "local" } }
    let env : Environment := [("SEMAPHORE_DB_DIALECT", "postgres"), ("SEMAPHORE_DB_HOST", "db"),
      ("SEMAPHORE_PORT", "8080"), ("SEMAPHORE_MAX_PARALLEL_TASKS", "+007")]
    let t := (s.resolve env .collect).settings
    (∃ found, (s.resolve env .collect).result = .ok found) ∧
      t.text .port = ":8080" ∧ t.maxParallelTasks = 7 ∧ (t.database .postgres).text .hostname = "db" ∧
      (t.database .postgres).text .dbName = "local" ∧
      t.database .mysql = Database.freeze { text := fun _ => "local" } := by
  intro s env
  obtain ⟨found, ok⟩ : ∃ found, (s.resolve env .collect).result = .ok found := by
    have done : (s.resolve env .collect).result.toOption.isSome = true := by decide +kernel
    cases h : (s.resolve env .collect).result with
    | ok found => exact ⟨found, rfl⟩
    | error e => rw [h] at done; cases done
  have all := resolve_layered env .collect s found ok
  generalize s.resolve env .collect = outcome at all ok ⊢
  obtain ⟨leaves, _, _, others, _⟩ := all
  have port : (layered env s (.text .port)).map (corrected _) = .ok ":8080" := by rfl
  have tasks : (layered env s .maxParallelTasks).map (corrected _) = .ok (7 : Int) := by rfl
  have host : (layered env s (.database .postgres .hostname)).map (corrected _) = .ok "db" := by rfl
  have name : (layered env s (.database .postgres .dbName)).map (corrected _) = .ok "local" := by rfl
  refine ⟨⟨found, ok⟩, ?_, ?_, ?_, ?_, others .mysql (by decide)⟩
  · exact Except.ok.inj ((leaves _).symm.trans port)
  · exact Except.ok.inj ((leaves _).symm.trans tasks)
  · exact Except.ok.inj ((leaves _).symm.trans host)
  · exact Except.ok.inj ((leaves _).symm.trans name)

end ServerSettings.Resolution
