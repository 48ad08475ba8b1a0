import ServerSettings.Proofs.Operations
import ServerSettings.Settings.Assignment

/-!
# Final settings

* `Step.after_of_final`: no step changes settings of which every group is frozen;
* `Step.refused_iff`: a step on them is refused exactly if it would assign;
* `run_freeze`: so settings are after any steps what they were when they were frozen.
-/

namespace ServerSettings

open Settings (Amended Group)

theorem Database.freeze_of_frozen {db : Database} (mark : db.frozen = true) : db.freeze = db :=
  Database.ext rfl rfl mark.symm

theorem Mappings.freeze_of_frozen {m : Mappings} (mark : m.frozen = true) : m.freeze = m :=
  Mappings.ext rfl mark.symm

theorem Endpoint.freeze_of_frozen {e : Endpoint} (mark : e.frozen = true) : e.freeze = e :=
  Endpoint.ext rfl rfl mark.symm

theorem Provider.freeze_of_frozen {p : Provider} (mark : p.frozen = true) (endpoint : p.endpoint.frozen = true) :
    p.freeze = p :=
  Provider.ext rfl rfl (Endpoint.freeze_of_frozen endpoint) mark.symm

namespace Settings

variable {s t : Settings}

/-- Every group that the settings hold is frozen. -/
structure Final (s : Settings) : Prop where
  mark : s.frozen = true
  database : ∀ d, (s.database d).frozen = true
  mappings : s.mappings.frozen = true
  provider : ∀ entry ∈ s.providers, entry.2.frozen = true
  endpoint : ∀ entry ∈ s.providers, entry.2.endpoint.frozen = true

theorem isFinal_iff : s.isFinal = true ↔ s.Final := by
  have dialects : (∀ d ∈ Dialect.all, (s.database d).frozen = true) ↔ ∀ d, (s.database d).frozen = true := by
    constructor
    · intro every d
      exact every d (by cases d <;> decide)
    · exact fun every d _ => every d
  simp only [isFinal, Bool.and_eq_true, List.all_eq_true, dialects]
  constructor
  · rintro ⟨⟨⟨mark, database⟩, mappings⟩, providers⟩
    exact ⟨mark, database, mappings, fun e mem => (providers e mem).1, fun e mem => (providers e mem).2⟩
  · intro final
    exact ⟨⟨⟨final.mark, final.database⟩, final.mappings⟩, fun e mem =>
      ⟨final.provider e mem, final.endpoint e mem⟩⟩

theorem final_freeze (s : Settings) : s.freeze.Final := by
  have providers : ∀ entry ∈ s.freeze.providers, ∃ p : Provider, entry.2 = p.freeze := by
    intro entry mem
    obtain ⟨other, _, rfl⟩ := List.mem_map.mp mem
    exact ⟨other.2, rfl⟩
  refine ⟨rfl, fun _ => rfl, rfl, ?_, ?_⟩
  · intro entry mem
    obtain ⟨p, eq⟩ := providers entry mem
    rw [eq]
    rfl
  · intro entry mem
    obtain ⟨p, eq⟩ := providers entry mem
    rw [eq]
    rfl

theorem toJson_freeze (s : Settings) : s.freeze.toJson = s.toJson := by
  have members (m : Member) : (slot m).write s.freeze = (slot m).write s := by
    cases m with
    | providers =>
      show Json.obj (Dict.mapValues Provider.toJson (Dict.mapValues Provider.freeze s.providers)) = _
      rw [Dict.mapValues_mapValues]
      rfl
    | _ => rfl
  simp only [toJson, writeGroup, slots, List.map_map, Function.comp_def, members]

theorem get_freeze (s : Settings) (path : String) : s.freeze.get path = s.get path := by
  have leaves (l : Leaf) : s.freeze.leafText l = s.leafText l := by
    cases l <;> rfl
  simp only [get, leaves]

namespace Final

variable (final : s.Final)

include final

theorem leaf (l : Leaf) : l.isFinal s = true := by
  cases l with
  | database d f => exact final.database d
  | mapping f => exact final.mappings
  | _ => exact final.mark

theorem eq_of_amended (h : Amended s t) : t = s :=
  h.eq_of_final final.leaf

/-- What is frozen already stays as it is. -/
theorem freeze_eq : s.freeze = s := by
  have database (d : Dialect) : (s.database d).freeze = s.database d :=
    Database.freeze_of_frozen (final.database d)
  have providers : Dict.mapValues Provider.freeze s.providers = s.providers := by
    have each : ∀ entry ∈ s.providers, (entry.1, entry.2.freeze) = entry := by
      intro entry mem
      rw [Provider.freeze_of_frozen (final.provider entry mem) (final.endpoint entry mem)]
    exact (List.map_congr_left each).trans (List.map_id _)
  apply Settings.ext
  · exact funext database
  · rfl
  · rfl
  · exact Mappings.freeze_of_frozen final.mappings
  · exact providers
  · rfl
  · exact final.mark.symm

theorem provider_final {name : String} {p : Provider} (h : s.provider name = .ok p) :
    p.frozen = true ∧ p.endpoint.frozen = true ∧ s.withProvider name p = s := by
  unfold Settings.provider at h
  cases found : Dict.lookup s.providers name with
  | none => rw [found] at h; cases h
  | some q =>
    rw [found] at h
    cases h
    have mem := Dict.mem_of_lookup found
    have put := Dict.put_of_lookup found
    exact ⟨final.provider _ mem, final.endpoint _ mem, by rw [withProvider, put]⟩

theorem freezeGroup_eq {g : Group} (h : s.freezeGroup g = .ok t) : t = s := by
  cases g with
  | root =>
    cases h
    exact final.freeze_eq
  | database d =>
    cases h
    have same : replaceAt s.database d (s.database d).freeze = s.database := by
      funext other
      by_cases eq : other = d
      · rw [eq, replaceAt_self]
        exact Database.freeze_of_frozen (final.database d)
      · exact replaceAt_of_ne _ _ eq
    rw [same]
  | mappings =>
    cases h
    rw [Mappings.freeze_of_frozen final.mappings]
  | provider name =>
    obtain ⟨p, found, rfl⟩ := map_ok h
    obtain ⟨mark, endpoint, put⟩ := final.provider_final found
    rw [Provider.freeze_of_frozen mark endpoint, put]
  | endpoint name =>
    obtain ⟨p, found, rfl⟩ := map_ok h
    obtain ⟨_, endpoint, put⟩ := final.provider_final found
    rw [Endpoint.freeze_of_frozen endpoint, put]

end Final

end Settings

theorem Operation.after_of_final (op : Operation) {s : Settings} (final : s.Final) : op.after s = s := by
  obtain ⟨t, amended, same | ⟨g, frozen⟩⟩ := op.after_amends s
  · rw [same, final.eq_of_amended amended]
  · rw [final.eq_of_amended amended] at frozen
    exact final.freezeGroup_eq frozen

/-- Is an error the refusal of a write to something final? -/
def Error.isRefusal : Error → Bool
  | .frozen _ | .readOnlyMap | .readOnlyList => true
  | _ => false

namespace Assignment

/-- The group whose field is assigned. -/
def group : Assignment → Group
  | .leaf (.database d _) _ => .database d
  | .leaf (.mapping _) _ => .mappings
  | .leaf _ _ => .root
  | .options d _ => .database d
  | .provider name _ _ => .provider name
  | .scopes name _ => .provider name
  | .endpoint name _ _ => .endpoint name
  | .algorithms name _ => .endpoint name
  | .undeclared g _ => g

def field : Assignment → String
  | .leaf l _ => l.field
  | .options _ _ => "options"
  | .provider _ f _ => f.name
  | .scopes _ _ => "scopes"
  | .endpoint _ f _ => f.name
  | .algorithms _ _ => "algorithms"
  | .undeclared _ field => field

end Assignment

namespace Insertion

/-- The group that holds the map or list. -/
def group : Insertion → Group
  | .option d _ _ => .database d
  | .provider _ _ => .root
  | .scope name _ _ => .provider name
  | .algorithm name _ _ => .endpoint name

def refusal : Insertion → Error
  | .option _ _ _ | .provider _ _ => .readOnlyMap
  | .scope _ _ _ | .algorithm _ _ _ => .readOnlyList

end Insertion

namespace Settings.Final

variable {s : Settings} (final : s.Final)

include final

/-- A group that is there is frozen. -/
theorem isFrozen_ok {g : Group} {mark : Bool} (h : s.isFrozen g = .ok mark) : mark = true := by
  cases g with
  | root =>
    cases h
    exact final.mark
  | database d =>
    cases h
    exact final.database d
  | mappings =>
    cases h
    exact final.mappings
  | provider name =>
    obtain ⟨p, found, rfl⟩ := map_ok h
    exact (final.provider_final found).1
  | endpoint name =>
    obtain ⟨p, found, rfl⟩ := map_ok h
    exact (final.provider_final found).2.1

theorem changeProvider_eq (name field : String) (change : Provider → Provider) :
    s.changeProvider name field change = (s.isFrozen (.provider name)).bind fun _ => .error (.frozen field) := by
  simp only [changeProvider, isFrozen]
  cases found : s.provider name with
  | error e => rfl
  | ok p =>
    have mark := (final.provider_final found).1
    simp only [bind, Except.bind, Except.map, mark, if_true]

theorem changeEndpoint_eq (name field : String) (change : Endpoint → Endpoint) :
    s.changeEndpoint name field change = (s.isFrozen (.endpoint name)).bind fun _ => .error (.frozen field) := by
  simp only [changeEndpoint, isFrozen]
  cases found : s.provider name with
  | error e => rfl
  | ok p =>
    have mark := (final.provider_final found).2.1
    simp only [bind, Except.bind, Except.map, mark, if_true]

/-- An assignment finds its group and is refused. -/
theorem assign_eq (a : Assignment) :
    s.assign a = (s.isFrozen a.group).bind fun _ => .error (.frozen a.field) := by
  cases a with
  | leaf l value =>
    have refused : s.assign (.leaf l value) = .error (.frozen l.field) := if_pos (final.leaf l)
    rw [refused]
    cases l <;> rfl
  | options d value => exact if_pos (final.database d)
  | provider name f value =>
    rw [assign]
    exact final.changeProvider_eq name f.name _
  | scopes name value =>
    rw [assign]
    exact final.changeProvider_eq name "scopes" _
  | endpoint name f value =>
    rw [assign]
    exact final.changeEndpoint_eq name f.name _
  | algorithms name value =>
    rw [assign]
    exact final.changeEndpoint_eq name "algorithms" _
  | undeclared g field =>
    simp only [assign, Assignment.group, Assignment.field]
    cases found : s.isFrozen g with
    | error e => rfl
    | ok mark =>
      rw [final.isFrozen_ok found]
      rfl

/-- An insertion finds its map or list and is refused. -/
theorem insert_eq (i : Insertion) : s.insert i = (s.isFrozen i.group).bind fun _ => .error i.refusal := by
  cases i with
  | option d key value => exact if_pos (final.database d)
  | provider name value => exact if_pos final.mark
  | scope name index value =>
    simp only [insert, Insertion.group, isFrozen]
    cases found : s.provider name with
    | error e => rfl
    | ok p =>
      have mark := (final.provider_final found).1
      simp only [bind, Except.bind, Except.map, mark, if_true, Insertion.refusal]
  | algorithm name index value =>
    simp only [insert, Insertion.group, isFrozen]
    cases found : s.provider name with
    | error e => rfl
    | ok p =>
      have mark := (final.provider_final found).2.1
      simp only [bind, Except.bind, Except.map, mark, if_true, Insertion.refusal]

end Settings.Final

/-- Did something fail because it would have written to something final? -/
def isRefused {α : Type} : Except Error α → Bool
  | .ok _ => false
  | .error e => e.isRefusal

@[simp]
theorem isRefused_error {α : Type} (e : Error) : isRefused (.error e : Except Error α) = e.isRefusal := rfl

@[simp]
theorem isRefused_ok {α : Type} (a : α) : isRefused (.ok a) = false := rfl

theorem isRefused_map {α β : Type} (f : α → β) (r : Except Error α) : isRefused (r.map f) = isRefused r := by
  cases r <;> rfl

theorem isRefused_change (f : Settings → Except Error Settings) (s : Settings) :
    isRefused (Edit.change f s).1 = isRefused (f s) := by
  unfold Edit.change
  cases f s <;> rfl

/-- Finding and fitting a value refuses nothing. -/
theorem isRefused_coerce (path : String) (k : Kind) (v : Value) : isRefused (coerce path k v) = false := by
  have number {α : Type} (r : Except NumberFault α) : isRefused (r.mapError Error.number) = false := by
    cases r <;> rfl
  cases k with
  | text => cases v <;> rfl
  | flag =>
    by_cases switch : ∃ b, v = .bool b
    · obtain ⟨b, rfl⟩ := switch
      rfl
    · rw [coerce]
      · exact number _
      · exact fun b eq => switch ⟨b, eq⟩
  | whole =>
    by_cases integer : ∃ n, v = .int n
    · obtain ⟨n, rfl⟩ := integer
      rfl
    · rw [coerce]
      · cases v.canonical with
        | error fault => rfl
        | ok text =>
          simp only
          split
          · exact number _
          · rfl
      · exact fun n eq => integer ⟨n, eq⟩

theorem isRefused_ofPath (path : String) : isRefused (Leaf.ofPath path) = false := by
  unfold Leaf.ofPath
  cases Leaf.ofPath? path <;> rfl

theorem isRefused_get (s : Settings) (path : String) : isRefused (s.get path) = false := by
  unfold Settings.get
  have address := isRefused_ofPath path
  cases found : Leaf.ofPath path with
  | error e =>
    rw [found] at address
    exact address
  | ok l =>
    show isRefused (s.leafText l) = false
    unfold Settings.leafText
    cases l.kind.render (l.read s) <;> rfl

theorem isRefused_problems (s : Settings) (patterns : List (String × Pattern)) :
    isRefused (Resolution.problems s patterns) = false := by
  have found : isRefused (Resolution.mismatches s patterns) = false := by
    induction patterns with
    | nil => rfl
    | cons entry rest ih =>
      have first := isRefused_get s entry.1
      rw [Resolution.mismatches]
      cases value : s.get entry.1 with
      | error e =>
        rw [value] at first
        exact first
      | ok text =>
        cases later : Resolution.mismatches s rest with
        | error e =>
          rw [later] at ih
          exact ih
        | ok more => rfl
  unfold Resolution.problems
  cases mismatches : Resolution.mismatches s patterns with
  | error e =>
    rw [mismatches] at found
    exact found
  | ok found => rfl

theorem isRefused_generate (source : Nat → List UInt8) (length : Int) :
    isRefused (Keys.generate source length) = false := by
  unfold Keys.generate
  split
  · rfl
  · simp only
    split
    · rfl
    · rfl

namespace Resolution

/-- What the environment gives for an entry that applies. -/
def offer? (env : Environment) (s : Settings) (entry : Leaf × String) : Option (Leaf × String × String) :=
  if applies s entry.1 then (env.value? entry.2).map fun value => (entry.1, entry.2, value) else none

/-- The first variable of a table that applies and is given. -/
def firstGiven? (env : Environment) (s : Settings) (table : List (Leaf × String)) : Option (Leaf × String × String) :=
  table.findSome? (offer? env s)

/-- Does the environment override something? The first value that applies must fit. -/
def Overrides (env : Environment) (s : Settings) : Prop :=
  ∃ l name value content, firstGiven? env s Tables.overrides = some (l, name, value) ∧
    coerce l.path l.kind (.text value) = .ok content

/-- Is a setting empty that has a default? -/
def Fills (s : Settings) : Prop :=
  ∃ entry ∈ Tables.defaults, s.leafText entry.1 = .ok ""

def MovesPort (s : Settings) : Prop :=
  normalizePort (s.text .port) ≠ s.text .port

end Resolution

open Resolution

/-- Does an operation come to an assignment? -/
def Operation.Assigns (s : Settings) : Operation → Prop
  | .set path value => ∃ l content, Leaf.ofPath path = .ok l ∧ coerce l.path l.kind value = .ok content
  | .applyEnvironment env => Overrides env s
  | .applyDefaults => Fills s
  | .validate _ | .check => MovesPort s
  | .replaceKeys source => ∃ key, Keys.generate (source 0) Keys.keyLength = .ok key
  | .resolve env _ => Overrides env s ∨ firstGiven? env s Tables.overrides = none ∧ (Fills s ∨ MovesPort s)
  | .freeze _ => False

namespace Resolution

variable {env : Environment} {s : Settings}

theorem offer?_some {entry : Leaf × String} {l : Leaf} {name value : String}
    (h : offer? env s entry = some (l, name, value)) :
    entry = (l, name) ∧ applies s l = true ∧ env.value? name = some value := by
  unfold offer? at h
  split at h
  · next applied =>
    obtain ⟨found, given, eq⟩ := Option.map_eq_some_iff.mp h
    cases eq
    exact ⟨rfl, applied, given⟩
  · cases h

theorem applyVariable_passed {entry : Leaf × String} (h : offer? env s entry = none) :
    applyVariable env entry.1 entry.2 s = (.ok false, s) := by
  unfold offer? at h
  rw [applyVariable_apply]
  split
  · next applied =>
    rw [if_pos applied, Option.map_eq_none_iff] at h
    rw [h]
  · rfl

theorem applyVariables_passed {table : List (Leaf × String)} (h : firstGiven? env s table = none) :
    applyVariables env table s = (.ok [], s) := by
  induction table with
  | nil => rfl
  | cons entry rest ih =>
    obtain ⟨first, later⟩ := List.forall_mem_cons.mp (List.findSome?_eq_none_iff.mp h)
    have behind := ih (List.findSome?_eq_none_iff.mpr later)
    rw [applyVariables, Edit.bind_apply, applyVariable_passed first]
    simp only [Edit.bind_apply, behind]
    rfl

end Resolution

namespace Settings.Final

variable {s : Settings} (final : s.Final)

include final

theorem setLeaf_eq (l : Leaf) (v : Value) :
    s.setLeaf l v = (coerce l.path l.kind v).bind fun _ => .error (.frozen l.field) := by
  rw [Settings.setLeaf_eq]
  cases coerce l.path l.kind v with
  | error e => rfl
  | ok content => exact if_pos (final.leaf l)

theorem applyVariable_refused {env : Environment} {l : Leaf} {name value : String} (applied : applies s l = true)
    (given : env.value? name = some value) :
    ∃ e, applyVariable env l name s = (.error e, s) ∧
      (e.isRefusal = true ↔ ∃ content, coerce l.path l.kind (.text value) = .ok content) := by
  have fits := isRefused_coerce l.path l.kind (.text value)
  rw [applyVariable_apply, if_pos applied, given]
  simp only [final.setLeaf_eq]
  cases coerced : coerce l.path l.kind (.text value) with
  | error e =>
    rw [coerced] at fits
    have blamed : (blame l.path name e).isRefusal = false := by
      cases e <;> exact fits
    exact ⟨_, rfl, by simp [blamed]⟩
  | ok content => exact ⟨_, rfl, by simp [blame, Error.isRefusal]⟩

/-- The first variable that applies decides. -/
theorem applyVariables_refused {env : Environment} {table : List (Leaf × String)} {l : Leaf} {name value : String}
    (h : firstGiven? env s table = some (l, name, value)) :
    ∃ e, applyVariables env table s = (.error e, s) ∧
      (e.isRefusal = true ↔ ∃ content, coerce l.path l.kind (.text value) = .ok content) := by
  induction table with
  | nil => cases h
  | cons entry rest ih =>
    rw [applyVariables, Edit.bind_apply]
    cases offered : offer? env s entry with
    | none =>
      rw [firstGiven?, List.findSome?_cons, offered] at h
      obtain ⟨e, stops, refused⟩ := ih h
      rw [applyVariable_passed offered]
      simp only [Edit.bind_apply, stops]
      exact ⟨e, rfl, refused⟩
    | some given =>
      rw [firstGiven?, List.findSome?_cons, offered] at h
      cases h
      obtain ⟨rfl, applied, found⟩ := offer?_some offered
      obtain ⟨e, stops, refused⟩ := final.applyVariable_refused applied found
      rw [stops]
      exact ⟨e, rfl, refused⟩

theorem applyEnvironment_cases (env : Environment) :
    (firstGiven? env s Tables.overrides = none ∧ ¬Overrides env s ∧ applyEnvironment env s = (.ok [], s)) ∨
      (firstGiven? env s Tables.overrides ≠ none ∧
        ∃ e, applyEnvironment env s = (.error e, s) ∧ (e.isRefusal = true ↔ Overrides env s)) := by
  unfold applyEnvironment Overrides
  cases given : firstGiven? env s Tables.overrides with
  | none => exact .inl ⟨rfl, by simp, applyVariables_passed given⟩
  | some entry =>
    obtain ⟨l, name, value⟩ := entry
    obtain ⟨e, stops, refused⟩ := final.applyVariables_refused given
    refine .inr ⟨by simp, e, stops, ?_⟩
    constructor
    · intro refusal
      obtain ⟨content, fits⟩ := refused.mp refusal
      exact ⟨l, name, value, content, rfl, fits⟩
    · rintro ⟨_, _, _, content, eq, fits⟩
      cases eq
      exact refused.mpr ⟨content, fits⟩

theorem applyEnvironment_refused (env : Environment) :
    isRefused (applyEnvironment env s).1 = true ↔ Overrides env s := by
  rcases final.applyEnvironment_cases env with ⟨_, passed, passes⟩ | ⟨_, e, stops, refused⟩
  · rw [passes]
    simpa [isRefused] using passed
  · rw [stops]
    exact refused

/-- An empty text with a default is refused, and texts that are all filled are left alone. -/
theorem applyDefaultsOf_refused {table : List (Leaf × String)} (texts : ∀ entry ∈ table, ∃ f, entry.1 = .text f) :
    ((∃ entry ∈ table, s.leafText entry.1 = .ok "") ∧ ∃ field, applyDefaultsOf table s = (.error (.frozen field), s)) ∨
      ((¬∃ entry ∈ table, s.leafText entry.1 = .ok "") ∧ applyDefaultsOf table s = (.ok [], s)) := by
  induction table with
  | nil => exact .inr ⟨by simp, rfl⟩
  | cons entry rest ih =>
    obtain ⟨f, text⟩ := texts entry List.mem_cons_self
    have content : s.leafText entry.1 = .ok (s.text f) := by
      rw [text]
      rfl
    rw [applyDefaultsOf, Edit.bind_apply, applyDefault_apply, content]
    by_cases empty : s.text f = ""
    · refine .inl ⟨⟨entry, List.mem_cons_self, by rw [content, empty]⟩, ?_⟩
      simp only [empty, if_true, final.setLeaf_eq, text]
      exact ⟨_, rfl⟩
    · simp only [empty, if_false]
      rcases ih fun other mem => texts other (List.mem_cons_of_mem entry mem) with ⟨⟨other, mem, blank⟩, field, stops⟩ | ⟨filled, passes⟩
      · refine .inl ⟨⟨other, List.mem_cons_of_mem entry mem, blank⟩, field, ?_⟩
        simp only [Edit.bind_apply, stops]
      · refine .inr ⟨?_, ?_⟩
        · rintro ⟨other, mem, blank⟩
          rcases List.mem_cons.mp mem with rfl | later
          · rw [content] at blank
            exact empty (Except.ok.inj blank)
          · exact filled ⟨other, later, blank⟩
        · simp only [Edit.bind_apply, passes]
          rfl

theorem applyDefaults_cases :
    (Fills s ∧ ∃ field, applyDefaults s = (.error (.frozen field), s)) ∨
      (¬Fills s ∧ applyDefaults s = (.ok [], s)) := by
  refine final.applyDefaultsOf_refused ?_
  simp only [Tables.defaults, List.mem_cons, List.not_mem_nil, or_false, forall_eq_or_imp, forall_eq]
  exact ⟨⟨_, rfl⟩, ⟨_, rfl⟩, ⟨_, rfl⟩⟩

theorem applyDefaults_refused : isRefused (applyDefaults s).1 = true ↔ Fills s := by
  rcases final.applyDefaults_cases with ⟨blank, field, stops⟩ | ⟨filled, passes⟩
  · rw [stops]
    exact ⟨fun _ => blank, fun _ => rfl⟩
  · rw [passes]
    simpa [isRefused] using filled

theorem validate_refused (patterns : List (String × Pattern)) :
    isRefused (validate patterns s).1 = true ↔ MovesPort s := by
  rw [validate_apply, correctPort_apply]
  by_cases same : normalizePort (s.text .port) = s.text .port
  · simp [same, MovesPort, isRefused_problems]
  · rw [if_neg same, if_pos final.mark]
    exact ⟨fun _ => same, fun _ => rfl⟩

theorem check_refused : isRefused (check s).1 = true ↔ MovesPort s := by
  rw [← final.validate_refused tablePatterns, check_apply]
  rcases validate tablePatterns s with ⟨e | _ | _, t⟩
  · rfl
  · rfl
  · rfl

theorem validateUnder_refused (policy : Policy) : isRefused (validateUnder policy s).1 = true ↔ MovesPort s := by
  cases policy with
  | collect => exact final.validate_refused _
  | refuse =>
    rw [← final.check_refused, validateUnder, Edit.bind_apply]
    rcases check s with ⟨e | _, t⟩
    · rfl
    · rfl

theorem replaceAll_refused (source : RandomSource) :
    isRefused (Keys.replaceAll source s).1 = true ↔ ∃ key, Keys.generate (source 0) Keys.keyLength = .ok key := by
  have random := isRefused_generate (source 0) Keys.keyLength
  have unrolled : Keys.replaceAll source = (Keys.replaceKey source .cookieHash 0 >>= fun _ =>
      [(TextSetting.cookieEncryption, 1), (.accessKeyEncryption, 2)].forM fun p => Keys.replaceKey source p.1 p.2) := rfl
  have refused (key : List UInt8) : (Leaf.text .cookieHash).assign s (Base64.encode key) = .error (.frozen "cookie_hash") :=
    if_pos final.mark
  rw [unrolled, Edit.bind_apply, Keys.replaceKey, Edit.bind_apply, Edit.ofExcept]
  cases made : Keys.generate (source 0) Keys.keyLength with
  | error e =>
    rw [made] at random
    simpa using random
  | ok key => simp [Edit.change, refused, isRefused, Error.isRefusal]

theorem resolve_refused (env : Environment) (policy : Policy) :
    isRefused (s.resolve env policy).result = true ↔
      Overrides env s ∨ firstGiven? env s Tables.overrides = none ∧ (Fills s ∨ MovesPort s) := by
  unfold Settings.resolve
  rcases final.applyEnvironment_cases env with ⟨nothing, passed, passes⟩ | ⟨something, e, stops, refused⟩
  · rw [passes]
    rcases final.applyDefaults_cases with ⟨blank, field, stops⟩ | ⟨filled, passes⟩
    · simp only [stops]
      exact ⟨fun _ => .inr ⟨nothing, .inl blank⟩, fun _ => rfl⟩
    · simp only [passes]
      have last := final.validateUnder_refused policy
      have concluded (notes : List Note) :
          isRefused (conclude policy s notes).result = isRefused (validateUnder policy s).1 := by
        unfold conclude
        rcases validateUnder policy s with ⟨_ | _, _⟩ <;> rfl
      rw [concluded, last]
      simp [nothing, passed, filled]
  · rw [stops]
    simp only [isRefused, refused, something, false_and, or_false]

end Settings.Final

theorem isRefused_provider (s : Settings) (name : String) : isRefused (s.provider name) = false := by
  unfold Settings.provider
  cases Dict.lookup s.providers name <;> rfl

theorem isRefused_freezeGroup (s : Settings) (g : Group) : isRefused (s.freezeGroup g) = false := by
  cases g with
  | provider name => exact (isRefused_map _ _).trans (isRefused_provider s name)
  | endpoint name => exact (isRefused_map _ _).trans (isRefused_provider s name)
  | _ => rfl

theorem isRefused_isFrozen (s : Settings) (g : Group) : isRefused (s.isFrozen g) = false := by
  cases g with
  | provider name => exact (isRefused_map _ _).trans (isRefused_provider s name)
  | endpoint name => exact (isRefused_map _ _).trans (isRefused_provider s name)
  | _ => rfl

/-- What finds a group and is refused then is refused exactly if the group is there. -/
theorem isRefused_behind_group (s : Settings) (g : Group) {e : Error} (refusal : e.isRefusal = true) :
    isRefused ((s.isFrozen g).bind fun _ => (.error e : Except Error Settings)) = true ↔
      ∃ mark, s.isFrozen g = .ok mark := by
  have absent := isRefused_isFrozen s g
  cases found : s.isFrozen g with
  | error e =>
    rw [found, isRefused_error] at absent
    simp [Except.bind, absent]
  | ok mark => simp [Except.bind, refusal]

/-- An operation on final settings is refused exactly if it comes to an assignment. -/
theorem Operation.refused_iff (op : Operation) {s : Settings} (final : s.Final) :
    isRefused (op.edit s).1 = true ↔ op.Assigns s := by
  have discarded {α : Type} (x : Edit α) : isRefused ((do let _ ← x) s).1 = isRefused (x s).1 := by
    rw [Edit.bind_apply]
    rcases x s with ⟨_ | _, _⟩ <;> rfl
  cases op with
  | set path value =>
    rw [edit, isRefused_change, Settings.set_eq]
    have address := isRefused_ofPath path
    cases found : Leaf.ofPath path with
    | error e =>
      rw [found, isRefused_error] at address
      simp [Assigns, found, address]
    | ok l =>
      have fits := isRefused_coerce l.path l.kind value
      simp only [final.setLeaf_eq]
      cases coerced : coerce l.path l.kind value with
      | error e =>
        rw [coerced, isRefused_error] at fits
        simp [Assigns, found, coerced, Except.bind, fits]
      | ok content => simp [Assigns, found, coerced, Except.bind, isRefused, Error.isRefusal]
  | applyEnvironment env =>
    rw [edit, discarded]
    exact final.applyEnvironment_refused env
  | applyDefaults =>
    rw [edit, discarded]
    exact final.applyDefaults_refused
  | validate patterns =>
    rw [edit, discarded]
    exact final.validate_refused patterns
  | check => exact final.check_refused
  | replaceKeys source => exact final.replaceAll_refused source
  | resolve env policy =>
    rw [edit]
    simp only [isRefused_map]
    exact final.resolve_refused env policy
  | freeze g =>
    rw [edit, isRefused_change, isRefused_freezeGroup]
    exact ⟨Bool.noConfusion, False.elim⟩

/-- What can be done to settings: operations, and plain writes to fields and to items of maps and lists. A value of a
type that a field does not hold is refused as one for an undeclared field. -/
inductive Step where
  | operation (op : Operation)
  | assign (a : Assignment)
  | insert (i : Insertion)

namespace Step

def edit : Step → Edit Unit
  | .operation op => op.edit
  | .assign a => Edit.change (·.assign a)
  | .insert i => Edit.change (·.insert i)

/-- The settings behind a step, whether it succeeded or failed. -/
def after (step : Step) (s : Settings) : Settings :=
  (step.edit s).2

/-- Does a step come to an assignment? A plain write does if the group is there. -/
def Assigns (s : Settings) : Step → Prop
  | .operation op => op.Assigns s
  | .assign a => ∃ mark, s.isFrozen a.group = .ok mark
  | .insert i => ∃ mark, s.isFrozen i.group = .ok mark

def run (steps : List Step) (s : Settings) : Settings :=
  steps.foldl (fun s step => step.after s) s

theorem after_of_final (step : Step) {s : Settings} (final : s.Final) : step.after s = s := by
  cases step with
  | operation op => exact op.after_of_final final
  | assign a =>
    obtain done | same := Edit.change_cases (·.assign a) s
    · rw [final.assign_eq] at done
      cases found : s.isFrozen a.group <;> rw [found] at done <;> cases done
    · exact same
  | insert i =>
    obtain done | same := Edit.change_cases (·.insert i) s
    · rw [final.insert_eq] at done
      cases found : s.isFrozen i.group <;> rw [found] at done <;> cases done
    · exact same

/-- A step on final settings is refused exactly if it comes to an assignment. -/
theorem refused_iff (step : Step) {s : Settings} (final : s.Final) :
    isRefused (step.edit s).1 = true ↔ step.Assigns s := by
  cases step with
  | operation op => exact op.refused_iff final
  | assign a =>
    rw [edit, isRefused_change, final.assign_eq]
    exact isRefused_behind_group s a.group rfl
  | insert i =>
    rw [edit, isRefused_change, final.insert_eq]
    exact isRefused_behind_group s i.group (by cases i <;> rfl)

theorem run_of_final (steps : List Step) {s : Settings} (final : s.Final) : run steps s = s := by
  induction steps with
  | nil => rfl
  | cons step steps ih =>
    rw [run, List.foldl_cons, step.after_of_final final]
    exact ih

end Step

/-- Whatever is done to settings once they are frozen, they hold what they held, everything in them stays frozen, and
the steps that come to an assignment are those that fail because of that. -/
theorem run_freeze (s : Settings) (steps : List Step) :
    (Step.run steps s.freeze).isFinal = true ∧ (Step.run steps s.freeze).toJson = s.toJson ∧
      (Step.run steps s.freeze).render = s.render ∧
      (∀ path, (Step.run steps s.freeze).get path = s.get path) ∧
      ∀ step : Step, step.Assigns (Step.run steps s.freeze) ↔
        ∃ e, (step.edit (Step.run steps s.freeze)).1 = .error e ∧ e.isRefusal = true := by
  have final := s.final_freeze
  rw [Step.run_of_final steps final]
  refine ⟨Settings.isFinal_iff.mpr final, s.toJson_freeze, ?_, s.get_freeze, ?_⟩
  · rw [Settings.render, s.toJson_freeze]
    rfl
  · intro step
    rw [← step.refused_iff final]
    cases (step.edit s.freeze).1 <;> simp

end ServerSettings
