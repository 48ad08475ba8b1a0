import ServerSettings.Proofs.Finality
import ServerSettings.Proofs.Precedence

/-!
# What decoding and resolving can fail of

* `Settings.coercion_of_decode`: decoding fails of a member with a value of another type only;
* `applyEnvironment_failed`: over open settings only the one variable that must be a number can fail;
* `resolve_failed`: of decoded settings a resolution fails of that variable, or of validation if it is to refuse them.
-/

namespace ServerSettings

open Settings (Amended)

section Decoding

variable {α γ : Type}

def Error.isCoercion : Error → Bool
  | .coercion _ _ => true
  | _ => false

/-- A reader that fails of the type of a value only. -/
def Coerces (read : String → Json → Except Error α) : Prop :=
  ∀ path v e, read path v = .error e → e.isCoercion = true

theorem Coerces.mismatch {path : String} {want : Want} {v : Json} {e : Error}
    (h : (ServerSettings.mismatch path want v : Except Error α) = .error e) : e.isCoercion = true := by
  cases h
  rfl

theorem readText_coerces : Coerces readText := by
  intro path v e h
  cases v with
  | str s => cases h
  | _ => exact Coerces.mismatch h

theorem readFlag_coerces : Coerces readFlag := by
  intro path v e h
  cases v with
  | bool b => cases h
  | _ => exact Coerces.mismatch h

theorem readWhole_coerces : Coerces readWhole := by
  intro path v e h
  cases v with
  | int n => cases h
  | _ => exact Coerces.mismatch h

variable {read : String → Json → Except Error α}

theorem readMap_coerces (coerces : Coerces read) : Coerces (readMap read) := by
  have entries : ∀ path members e, readEntries read path members = .error e → e.isCoercion = true := by
    intro path members e h
    induction members with
    | nil => cases h
    | cons entry rest ih =>
      obtain ⟨key, v⟩ := entry
      rcases bind_error h with first | ⟨value, -, h⟩
      · exact coerces _ _ _ first
      · rcases bind_error h with later | ⟨more, -, done⟩
        · exact ih later
        · cases done
  intro path v e h
  cases v with
  | obj members => exact entries path members e h
  | _ => exact Coerces.mismatch h

theorem readList_coerces (coerces : Coerces read) : Coerces (readList read) := by
  have each : ∀ path items index e, readItems read path index items = .error e → e.isCoercion = true := by
    intro path items
    induction items with
    | nil =>
      intro index e h
      cases h
    | cons v rest ih =>
      intro index e h
      rcases bind_error h with first | ⟨item, -, h⟩
      · exact coerces _ _ _ first
      · rcases bind_error h with later | ⟨more, -, done⟩
        · exact ih _ _ later
        · cases done
  intro path v e h
  cases v with
  | arr items => exact each path items 0 e h
  | _ => exact Coerces.mismatch h

/-- A slot whose value is read by such a reader. -/
def Slot.Coerces (slot : Slot γ) : Prop :=
  ∀ path v acc e, slot.read path v acc = .error e → e.isCoercion = true

theorem Slot.of_coerces {key : String} {put : α → γ → γ} {write : γ → Json} (coerces : ServerSettings.Coerces read) :
    (Slot.of key read put write).Coerces := by
  intro path v acc e h
  exact coerces _ _ _ (map_error h)

theorem readGroup_coerces {slots : List (Slot γ)} {empty : γ} (coerce : ∀ slot ∈ slots, slot.Coerces) :
    Coerces (readGroup slots empty) := by
  have members : ∀ path members acc e, readSlots path members slots acc = .error e → e.isCoercion = true := by
    intro path members acc e h
    induction slots generalizing acc with
    | nil => cases h
    | cons slot rest ih =>
      have later := ih fun other mem => coerce other (List.mem_cons_of_mem slot mem)
      simp only [readSlots] at h
      split at h
      · exact later acc h
      · exact later acc h
      · rcases bind_error h with first | ⟨next, -, h⟩
        · exact coerce slot List.mem_cons_self _ _ _ _ first
        · exact later next h
  intro path v e h
  cases v with
  | obj entries => exact members path entries empty e h
  | _ => exact Coerces.mismatch h

theorem Database.read_coerces : Coerces Database.read := by
  refine readGroup_coerces ?_
  rw [slots_eq]
  intro slot mem
  obtain ⟨_ | f, _, rfl⟩ := List.mem_map.mp mem
  · exact Slot.of_coerces (readMap_coerces readText_coerces)
  · exact Slot.of_coerces readText_coerces

theorem Mappings.read_coerces : Coerces Mappings.read := by
  refine readGroup_coerces ?_
  rw [slots_eq]
  intro slot mem
  obtain ⟨f, _, rfl⟩ := List.mem_map.mp mem
  exact Slot.of_coerces readText_coerces

theorem Endpoint.read_coerces : Coerces Endpoint.read := by
  refine readGroup_coerces ?_
  rw [slots_eq]
  intro slot mem
  obtain ⟨_ | f, _, rfl⟩ := List.mem_map.mp mem
  · exact Slot.of_coerces (readList_coerces readText_coerces)
  · exact Slot.of_coerces readText_coerces

theorem Provider.read_coerces : Coerces Provider.read := by
  refine readGroup_coerces ?_
  intro slot mem
  obtain ⟨f | _ | _, _, rfl⟩ := List.mem_map.mp mem
  · exact Slot.of_coerces readText_coerces
  · exact Slot.of_coerces (readList_coerces readText_coerces)
  · exact Slot.of_coerces Endpoint.read_coerces

/-- Decoding fails of a member with a value of another type only. -/
theorem Settings.coercion_of_decode {payload : Json} {e : Error} (h : decode payload = .error e) :
    e.isCoercion = true := by
  have coerces : Coerces Settings.read := by
    refine readGroup_coerces ?_
    intro slot mem
    obtain ⟨d | f | f | _ | _ | _, _, rfl⟩ := List.mem_map.mp mem
    · exact Slot.of_coerces Database.read_coerces
    · exact Slot.of_coerces readText_coerces
    · exact Slot.of_coerces readFlag_coerces
    · exact Slot.of_coerces Mappings.read_coerces
    · exact Slot.of_coerces (readMap_coerces Provider.read_coerces)
    · exact Slot.of_coerces readWhole_coerces
  cases payload with
  | obj members => exact coerces "" _ e h
  | _ => exact Coerces.mismatch h

end Decoding

/-- Settings that are read from a file: every leaf can be assigned, and the number can be written. -/
structure Settings.Fresh (s : Settings) : Prop where
  isOpen : ∀ l : Leaf, l.isFinal s = false
  short : Whole.isWritable s.maxParallelTasks = true

namespace Settings

variable {s t : Settings}

theorem open_of_amended (isOpen : ∀ l : Leaf, l.isFinal s = false) (h : Amended s t) (l : Leaf) :
    l.isFinal t = false := by
  rw [h.frame.isFinal_eq, isOpen]

theorem assign_of_open {l : Leaf} (isOpen : l.isFinal s = false) (v : l.kind.Content) :
    l.assign s v = .ok (l.write s v) := by
  rw [Leaf.assign, isOpen]
  rfl

theorem setLeaf_of_open {l : Leaf} (isOpen : l.isFinal s = false) (v : Value) :
    s.setLeaf l v = (coerce l.path l.kind v).map (l.write s) := by
  rw [setLeaf_eq]
  cases coerce l.path l.kind v with
  | error e => rfl
  | ok content => exact assign_of_open isOpen content

theorem leafText_ok (short : Whole.isWritable s.maxParallelTasks = true) (l : Leaf) :
    ∃ text, s.leafText l = .ok text := by
  cases l with
  | maxParallelTasks =>
    have written : Whole.text s.maxParallelTasks = .ok (String.ofList (Whole.digits s.maxParallelTasks)) :=
      if_pos short
    refine ⟨String.ofList (Whole.digits s.maxParallelTasks), ?_⟩
    show (Whole.text s.maxParallelTasks).mapError Error.number = _
    rw [written]
    rfl
  | _ => exact ⟨_, rfl⟩

theorem get_ok (short : Whole.isWritable s.maxParallelTasks = true) {path : String} {l : Leaf}
    (found : Leaf.ofPath path = .ok l) : ∃ text, s.get path = .ok text := by
  rw [get, found]
  exact leafText_ok short l

end Settings

/-- A text fits every leaf that is not a number. -/
theorem coerce_text_ok {l : Leaf} (h : l.kind ≠ .whole) (text : String) :
    ∃ content, coerce l.path l.kind (.text text) = .ok content := by
  cases kind : l.kind with
  | text => exact ⟨text, rfl⟩
  | flag => exact ⟨isOn text, rfl⟩
  | whole => exact absurd kind h

theorem coerce_whole (path text : String) : coerce path .whole (.text text) =
    if Whole.isNumeral text.toList then (Whole.ofNumeral text.toList).mapError .number
    else .error (.coercion path (.notInteger text)) := rfl

theorem ofNumeral_eq (cs : List Char) : Whole.ofNumeral cs =
    if digitLimit < (Whole.sign cs).2.length then .error (.tooManyDigits (Whole.sign cs).2.length)
    else .ok (if (Whole.sign cs).1 = true then -(Nat.ofDigitChars 10 (Whole.sign cs).2 0 : Int)
      else (Nat.ofDigitChars 10 (Whole.sign cs).2 0 : Int)) := rfl

theorem coerce_tooManyDigits (path : String) {text : String} (numeral : Whole.isNumeral text.toList = true)
    (long : digitLimit < (Whole.sign text.toList).2.length) : coerce path .whole (.text text) =
      .error (.number (.tooManyDigits (Whole.sign text.toList).2.length)) := by
  rw [coerce_whole, if_pos numeral, ofNumeral_eq, if_pos long]
  rfl

/-- A text that is no number, or one of too many digits, does not fit a number. -/
theorem coerce_whole_cases (path text : String) :
    (∃ n, Whole.isWritable n = true ∧ coerce path .whole (.text text) = .ok n) ∨
      coerce path .whole (.text text) = .error (.coercion path (.notInteger text)) ∨
      (Whole.isNumeral text.toList = true ∧ digitLimit < (Whole.sign text.toList).2.length ∧
        coerce path .whole (.text text) =
          .error (.number (.tooManyDigits (Whole.sign text.toList).2.length))) := by
  by_cases numeral : Whole.isNumeral text.toList = true
  · by_cases long : digitLimit < (Whole.sign text.toList).2.length
    · exact .inr (.inr ⟨numeral, long, coerce_tooManyDigits path numeral long⟩)
    · refine .inl ⟨_, ?_, by rw [coerce_whole, if_pos numeral, ofNumeral_eq, if_neg long]; rfl⟩
      have digits : ∀ c ∈ (Whole.sign text.toList).2, Whole.isDigit c = true := by
        simp only [Whole.isNumeral, decide_eq_true_eq, List.all_eq_true] at numeral
        exact numeral.2
      refine Whole.isWritable_ofDigitChars digits (by omega) _ ?_
      cases (Whole.sign text.toList).1 <;> simp
  · rw [coerce_whole, if_neg numeral]
    exact .inr (.inl rfl)

/-- A text that gives no number is none, or has too many digits. -/
theorem coerce_whole_failed {path text : String} {e : Error} (h : coerce path .whole (.text text) = .error e) :
    e = .coercion path (.notInteger text) ∨ ∃ digits, e = .number (.tooManyDigits digits) := by
  obtain ⟨n, -, fits⟩ | unfit | ⟨-, -, long⟩ := coerce_whole_cases path text
  · rw [fits] at h
    cases h
  · rw [unfit] at h
    cases h
    exact .inl rfl
  · rw [long] at h
    cases h
    exact .inr ⟨_, rfl⟩

namespace Resolution

variable {env : Environment} {s t : Settings}

theorem applyVariable_failed {l : Leaf} {name : String} (isOpen : l.isFinal s = false) {e : Error}
    (h : applyVariable env l name s = (.error e, t)) :
    ∃ value fault, env.value? name = some value ∧ coerce l.path l.kind (.text value) = .error fault ∧
      e = blame l.path name fault := by
  rw [applyVariable_apply] at h
  split at h
  · cases given : env.value? name with
    | none =>
      rw [given] at h
      cases h
    | some value =>
      rw [given] at h
      simp only [Settings.setLeaf_of_open isOpen] at h
      cases coerced : coerce l.path l.kind (.text value) with
      | error fault =>
        rw [coerced] at h
        cases h
        exact ⟨value, fault, rfl, coerced, rfl⟩
      | ok content =>
        rw [coerced] at h
        cases h
  · cases h

/-- Over open settings a table of variables fails only if a value does not fit. -/
theorem applyVariables_failed {table : List (Leaf × String)} (isOpen : ∀ l : Leaf, l.isFinal s = false) {e : Error}
    (h : applyVariables env table s = (.error e, t)) :
    ∃ entry ∈ table, ∃ value fault, env.value? entry.2 = some value ∧
      coerce entry.1.path entry.1.kind (.text value) = .error fault ∧ e = blame entry.1.path entry.2 fault := by
  induction table generalizing s with
  | nil => cases h
  | cons entry rest ih =>
    rw [applyVariables] at h
    rcases Edit.bind_error h with first | ⟨here, u, first, h⟩
    · exact ⟨entry, List.mem_cons_self, applyVariable_failed (isOpen entry.1) first⟩
    · have next := Settings.open_of_amended isOpen ((applyVariable_amends env entry.1 entry.2).amended first)
      rcases Edit.bind_error h with later | ⟨more, v, later, done⟩
      · obtain ⟨other, mem, found⟩ := ih next later
        exact ⟨other, List.mem_cons_of_mem entry mem, found⟩
      · cases done

/-- The variable that must be a number. -/
def tasksVariable : String := "SEMAPHORE_MAX_PARALLEL_TASKS"

theorem whole_override : ∀ entry ∈ Tables.overrides, entry.1.kind = .whole →
    entry = (.maxParallelTasks, tasksVariable) := by
  decide +kernel

/-- Over open settings the environment fails only if that variable does not fit. -/
theorem applyEnvironment_failed (isOpen : ∀ l : Leaf, l.isFinal s = false) {e : Error}
    (h : applyEnvironment env s = (.error e, t)) :
    ∃ value fault, env.value? tasksVariable = some value ∧
      coerce Leaf.maxParallelTasks.path .whole (.text value) = .error fault ∧
      e = blame Leaf.maxParallelTasks.path tasksVariable fault := by
  obtain ⟨entry, mem, value, fault, given, unfit, rfl⟩ := applyVariables_failed isOpen h
  have whole : entry.1.kind = .whole := by
    by_contra other
    obtain ⟨content, fits⟩ := coerce_text_ok other value
    rw [fits] at unfit
    cases unfit
  obtain rfl := whole_override entry mem whole
  exact ⟨value, fault, given, unfit, rfl⟩

theorem override?_tasks (env : Environment) (s : Settings) :
    override? env s .maxParallelTasks = env.value? tasksVariable := by
  have entry : given? Tables.overrides .maxParallelTasks = some tasksVariable :=
    given?_of_mem overrides_once (by decide +kernel : (Leaf.maxParallelTasks, tasksVariable) ∈ Tables.overrides)
  rw [override?, entry]
  rfl

/-- If it does not fit, the environment fails of it. -/
theorem applyEnvironment_fails (isOpen : ∀ l : Leaf, l.isFinal s = false) {value : String} {fault : Error}
    (given : env.value? tasksVariable = some value)
    (unfit : coerce Leaf.maxParallelTasks.path .whole (.text value) = .error fault) :
    ∃ t, applyEnvironment env s = (.error (blame Leaf.maxParallelTasks.path tasksVariable fault), t) := by
  rcases h : applyEnvironment env s with ⟨e | applied, t⟩
  · obtain ⟨other, fault', given', unfit', rfl⟩ := applyEnvironment_failed isOpen h
    rw [given] at given'
    cases given'
    rw [unfit] at unfit'
    cases unfit'
    exact ⟨t, rfl⟩
  · have takes := (applyEnvironment_ok h).2 .maxParallelTasks
    rw [override?_tasks, given] at takes
    have fits : coerce Leaf.maxParallelTasks.path .whole (.text value) = .ok t.maxParallelTasks := takes
    rw [unfit] at fits
    cases fits

theorem fresh_of_applyEnvironment (fresh : s.Fresh) {applied : List Leaf}
    (h : applyEnvironment env s = (.ok applied, t)) : t.Fresh where
  isOpen := Settings.open_of_amended fresh.isOpen ((applyEnvironment_amends env).amended h)
  short := by
    have takes := (applyEnvironment_ok h).2 .maxParallelTasks
    rw [override?_tasks] at takes
    cases given : env.value? tasksVariable with
    | none =>
      rw [given] at takes
      have same : t.maxParallelTasks = s.maxParallelTasks := takes
      rw [same]
      exact fresh.short
    | some value =>
      rw [given] at takes
      have fits : coerce Leaf.maxParallelTasks.path .whole (.text value) = .ok t.maxParallelTasks := takes
      rcases coerce_whole_cases Leaf.maxParallelTasks.path value with ⟨n, short, read⟩ | unfit | ⟨_, _, unfit⟩
      · rw [read] at fits
        cases fits
        exact short
      · rw [unfit] at fits
        cases fits
      · rw [unfit] at fits
        cases fits

/-- Texts can always be filled in open settings. -/
theorem applyDefaultsOf_open {table : List (Leaf × String)} (texts : ∀ entry ∈ table, ∃ f, entry.1 = .text f)
    (isOpen : ∀ l : Leaf, l.isFinal s = false) : ∃ filled t, applyDefaultsOf table s = (.ok filled, t) := by
  induction table generalizing s with
  | nil => exact ⟨_, _, rfl⟩
  | cons entry rest ih =>
    obtain ⟨f, text⟩ := texts entry List.mem_cons_self
    have first : ∃ here u, applyDefault entry.1 entry.2 s = (.ok here, u) := by
      have content : s.leafText entry.1 = .ok (s.text f) := by
        rw [text]
        rfl
      rw [applyDefault_apply, content]
      have written := Settings.setLeaf_of_open (isOpen (.text f)) (.text entry.2)
      by_cases empty : s.text f = ""
      · simp only [empty, if_true, text, written]
        exact ⟨_, _, rfl⟩
      · simp only [empty, if_false]
        exact ⟨_, _, rfl⟩
    obtain ⟨here, u, first⟩ := first
    have next := Settings.open_of_amended isOpen ((applyDefault_amends entry.1 entry.2).amended first)
    obtain ⟨more, v, later⟩ := ih (fun other mem => texts other (List.mem_cons_of_mem entry mem)) next
    rw [applyDefaultsOf, Edit.bind_apply, first]
    simp only [Edit.bind_apply, later]
    exact ⟨_, _, rfl⟩

theorem applyDefaults_open (isOpen : ∀ l : Leaf, l.isFinal s = false) :
    ∃ filled t, applyDefaults s = (.ok filled, t) := by
  refine applyDefaultsOf_open ?_ isOpen
  simp only [Tables.defaults, List.mem_cons, List.not_mem_nil, or_false, forall_eq_or_imp, forall_eq]
  exact ⟨⟨_, rfl⟩, ⟨_, rfl⟩, ⟨_, rfl⟩⟩

theorem fresh_of_applyDefaults (fresh : s.Fresh) {filled : List Leaf} (h : applyDefaults s = (.ok filled, t)) :
    t.Fresh where
  isOpen := Settings.open_of_amended fresh.isOpen (applyDefaults_amends.amended h)
  short := by
    have same : t.maxParallelTasks = s.maxParallelTasks :=
      read_of_applyDefaults (l := .maxParallelTasks) h (by decide +kernel)
    rw [same]
    exact fresh.short

/-- Every pattern of the table is about a leaf. -/
theorem tablePatterns_leaf : ∀ entry ∈ tablePatterns, ∃ l, Leaf.ofPath entry.1 = .ok l := by
  have found : ∀ entry ∈ tablePatterns, (Leaf.ofPath? entry.1).isSome = true := by decide +kernel
  intro entry mem
  obtain ⟨l, leaf⟩ := Option.isSome_iff_exists.mp (found entry mem)
  exact ⟨l, by rw [Leaf.ofPath, leaf]⟩

theorem problems_ok (short : Whole.isWritable s.maxParallelTasks = true) {patterns : List (String × Pattern)}
    (leaves : ∀ entry ∈ patterns, ∃ l, Leaf.ofPath entry.1 = .ok l) : ∃ found, problems s patterns = .ok found := by
  have matched : ∃ found, mismatches s patterns = .ok found := by
    induction patterns with
    | nil => exact ⟨[], rfl⟩
    | cons entry rest ih =>
      obtain ⟨l, leaf⟩ := leaves entry List.mem_cons_self
      obtain ⟨value, read⟩ := Settings.get_ok short leaf
      obtain ⟨more, later⟩ := ih fun other mem => leaves other (List.mem_cons_of_mem entry mem)
      rw [mismatches, read, later]
      exact ⟨_, rfl⟩
  obtain ⟨found, matched⟩ := matched
  rw [problems, matched]
  exact ⟨_, rfl⟩

theorem correctPort_open (isOpen : s.frozen = false) : ∃ t, correctPort s = (.ok (), t) := by
  rw [correctPort_apply, isOpen]
  split
  · exact ⟨_, rfl⟩
  · exact ⟨_, rfl⟩

/-- Fresh settings are validated to the end. -/
theorem validate_fresh (fresh : s.Fresh) : ∃ found t, validate tablePatterns s = (.ok found, t) := by
  obtain ⟨t, port⟩ := correctPort_open (fresh.isOpen (.text .port))
  have same : t.maxParallelTasks = s.maxParallelTasks := correctPort_ok port .maxParallelTasks
  obtain ⟨found, listed⟩ := problems_ok (same ▸ fresh.short) tablePatterns_leaf
  refine ⟨found, t, ?_⟩
  rw [validate_apply, port]
  simp only [listed]

/-- Fresh settings pass the check or fail of validation. -/
theorem check_cases (fresh : s.Fresh) :
    (∃ t, check s = (.ok (), t)) ∨ ∃ messages t, check s = (.error (.validation messages), t) := by
  obtain ⟨found, t, validated⟩ := validate_fresh fresh
  rw [check_apply, validated]
  cases found with
  | nil => exact .inl ⟨_, rfl⟩
  | cons problem more => exact .inr ⟨_, _, rfl⟩

/-- Of fresh settings only the policy that refuses fails, and it fails of validation. -/
theorem validateUnder_failed (fresh : s.Fresh) {policy : Policy} {e : Error} (h : validateUnder policy s = (.error e, t)) :
    policy = .refuse ∧ ∃ messages, e = .validation messages := by
  cases policy with
  | collect =>
    obtain ⟨found, u, validated⟩ := validate_fresh fresh
    have clash : (Except.error e, t) = (Except.ok found, u) := h.symm.trans validated
    cases clash
  | refuse =>
    rcases Edit.bind_error h with failed | ⟨_, _, _, done⟩
    · rcases check_cases fresh with ⟨u, passes⟩ | ⟨messages, u, fails⟩
      · rw [passes] at failed
        cases failed
      · rw [fails] at failed
        cases failed
        exact ⟨rfl, messages, rfl⟩
    · cases done

/-- Of fresh settings a resolution fails of the variable that must be a number, or it refuses them for what validation
finds. -/
theorem resolve_failed (fresh : s.Fresh) {policy : Policy} {e : Error} (h : (s.resolve env policy).result = .error e) :
    (policy = .refuse ∧ ∃ messages, e = .validation messages) ∨
      ∃ value fault, env.value? tasksVariable = some value ∧
        coerce Leaf.maxParallelTasks.path .whole (.text value) = .error fault ∧
        e = blame Leaf.maxParallelTasks.path tasksVariable fault := by
  have course := resolve_course env policy s
  generalize s.resolve env policy = outcome at course h
  cases course with
  | overriding stop =>
    cases h
    exact .inr (applyEnvironment_failed fresh.isOpen stop)
  | filling overridden stop =>
    have next := fresh_of_applyEnvironment fresh overridden
    obtain ⟨filled, t, fills⟩ := applyDefaults_open next.isOpen
    rw [fills] at stop
    cases stop
  | validating overridden defaulted stop =>
    cases h
    have next := fresh_of_applyDefaults (fresh_of_applyEnvironment fresh overridden) defaulted
    exact .inl (validateUnder_failed next stop)
  | done => cases h

theorem resolve_fails (fresh : s.Fresh) {policy : Policy} {value : String} {fault : Error}
    (given : env.value? tasksVariable = some value)
    (unfit : coerce Leaf.maxParallelTasks.path .whole (.text value) = .error fault) :
    (s.resolve env policy).result = .error (blame Leaf.maxParallelTasks.path tasksVariable fault) := by
  obtain ⟨t, stops⟩ := applyEnvironment_fails fresh.isOpen given unfit
  rw [Settings.resolve, stops]

end Resolution

end ServerSettings
