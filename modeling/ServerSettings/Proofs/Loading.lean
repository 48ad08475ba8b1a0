import ServerSettings.ConfigFile
import ServerSettings.Files.Tree
import ServerSettings.Proofs.Failures

/-!
# How loading settings can fail

`Escapes` lists the failures of loading that are no failures of a configuration: an unknown home directory, a
null character in the name of the directory, a document that is nested too deep, and a variable of too many digits.

* `locate_failed`, `readFile_failed`: what the first two stages can fail of;
* `load_typed_iff`: loading gives final settings or a failure of the configuration exactly if nothing escapes.
-/

namespace ServerSettings.ConfigFile

open Resolution (tasksVariable)

/-- The file that is named: by the caller, or else by the environment. -/
def named? (file : Option String) (env : Environment) : Option String :=
  (file.filter (· ≠ "")).or (env.value? Tables.fileVariable)

/-- The classes of failures that an operator is told of. -/
def typedFailures : List String :=
  ["ConfigDecodeError", "CoercionError", "ConfigValidationError"]

/-- Those of them that come before any validation. -/
def readingFailures : List String :=
  ["ConfigDecodeError", "CoercionError"]

theorem typed_of_reading {title : String} (h : title ∈ readingFailures) : title ∈ typedFailures := by
  simp only [readingFailures, List.mem_cons, List.not_mem_nil, or_false] at h
  rcases h with rfl | rfl <;> decide

/-- Final settings, or a failure of one of those classes. -/
def Typed : Except Error Loaded → Prop
  | .ok loaded => loaded.1.isFinal = true
  | .error e => e.title ∈ typedFailures

theorem run_bind {σ α β : Type} {x : StateM σ α} {f : α → StateM σ β} {k k' : σ} {a : α} (h : x k = (a, k')) :
    (x >>= f) k = f a k' := by
  show f (x k).1 (x k).2 = f a k'
  rw [h]

variable {σ : Type} [Host (StateM σ)]

/-- The home directory of a user, or of the one who runs the program if the name is empty. -/
def homeOf (user : List Char) : StateM σ (Option String) :=
  if user.isEmpty then Host.ownHome else Host.home (some (String.ofList user))

/-- A home directory cannot be told, or is again one that begins with a tilde. -/
def Homeless (home : Option String) : Prop :=
  ∀ name, home = some name → (Text.trimEnd (· = '/') name.toList).head? = some '~'

theorem homeName?_error {home : Option String} {e : Error} (h : Host.homeName? home = .error e) :
    e = .noHome ∧ Homeless home := by
  unfold Host.homeName? at h
  cases home with
  | none =>
    cases h
    exact ⟨rfl, fun name eq => by cases eq⟩
  | some name =>
    simp only at h
    split at h
    · next tilde =>
      cases h
      refine ⟨rfl, fun other eq => ?_⟩
      cases eq
      exact tilde
    · cases h

theorem homeName?_of_homeless {home : Option String} (h : Homeless home) :
    Host.homeName? home = .error .noHome := by
  cases home with
  | none => rfl
  | some name =>
    have tilde := h name rfl
    simp only [Host.homeName?, tilde, if_true]

theorem expandHome_tilde {p : PathName} {first : String} {user : List Char} {rest : List String}
    (here : p.start = .here) (parts : p.parts = first :: rest) (tilde : first.toList = '~' :: user) (k : σ) :
    ((Host.expandHome p : StateM σ _) k).1 = (Host.homeName? (homeOf user k).1).map fun base =>
      { base with parts := base.parts ++ rest } := by
  unfold Host.expandHome homeOf
  simp only [here, parts, tilde]
  cases user.isEmpty <;> rfl

theorem expandHome_plain {first : String} (rest : List String) (plain : ∀ user, first.toList ≠ '~' :: user) :
    (Host.expandHome ⟨.here, first :: rest⟩ : StateM σ _) = pure (.ok ⟨.here, first :: rest⟩) := by
  unfold Host.expandHome
  -- The last case of the match is open to simplification because `plain` rules out the one before.
  simp only

/-- A name fails to be expanded only if its first part stands for an unknown home directory. -/
theorem expandHome_failed {p : PathName} {k : σ} {e : Error} (h : ((Host.expandHome p : StateM σ _) k).1 = .error e) :
    e = .noHome ∧ ∃ first user rest, p.start = .here ∧ p.parts = first :: rest ∧ first.toList = '~' :: user ∧
      Homeless (homeOf user k).1 := by
  obtain ⟨start, parts⟩ := p
  cases start with
  | here =>
    cases parts with
    | nil => cases h
    | cons first rest =>
      by_cases tilde : ∃ user, first.toList = '~' :: user
      · obtain ⟨user, tilde⟩ := tilde
        rw [expandHome_tilde rfl rfl tilde] at h
        cases home : Host.homeName? (homeOf user k).1 with
        | ok base =>
          rw [home] at h
          cases h
        | error e' =>
          rw [home] at h
          cases h
          obtain ⟨noHome, homeless⟩ := homeName?_error home
          exact ⟨noHome, first, user, rest, rfl, rfl, tilde, homeless⟩
      · rw [expandHome_plain rest (not_exists.mp tilde)] at h
        cases h
  | root => cases h
  | doubleRoot => cases h

theorem expandHome_fails {p : PathName} {k : σ} {first : String} {user : List Char} {rest : List String}
    (here : p.start = .here) (parts : p.parts = first :: rest) (tilde : first.toList = '~' :: user)
    (unknown : Homeless (homeOf user k).1) : ((Host.expandHome p : StateM σ _) k).1 = .error .noHome := by
  rw [expandHome_tilde here parts tilde, homeName?_of_homeless unknown]
  rfl

/-- The failures of loading that are none of the configuration. -/
inductive Escapes (file : Option String) (env : Environment) (directory : Option String) (k : σ) : Error → Prop
  | noHome {name first : String} {user : List Char} {rest : List String} (named : named? file env = some name)
      (here : (PathName.ofText name).start = .here) (parts : (PathName.ofText name).parts = first :: rest)
      (tilde : first.toList = '~' :: user) (unknown : Homeless (homeOf user k).1) :
      Escapes file env directory k .noHome
  | nullByte {base : PathName} (unnamed : named? file env = none)
      (searched : ((searchDirectory directory : StateM σ _) k).1 = .ok base) (null : base.hasNull = true) :
      Escapes file env directory k .nullByte
  | tooDeep {p : PathName} {notes : List Note} {k' : σ} {bytes : List UInt8} {cs : List Char}
      {container : Json.Container} (located : (locate file env directory : StateM σ _) k = (⟨notes, .ok p⟩, k'))
      (clean : p.hasNull = false) (content : ((Host.read p : StateM σ _) k').1 = .ok bytes)
      (text : Encoding.decodeDetected bytes = .ok cs) (deep : Json.readChars {} cs = .error (.tooDeep container)) :
      Escapes file env directory k (.nesting (Json.Fault.message cs (.tooDeep container)))
  | tooManyDigits {p : PathName} {notes : List Note} {k' : σ} {s : Settings} {value : String}
      (located : (locate file env directory : StateM σ _) k = (⟨notes, .ok p⟩, k'))
      (read : ((readFile p : StateM σ _) k').1 = .ok s) (given : env.value? tasksVariable = some value)
      (numeral : Whole.isNumeral value.toList = true) (long : digitLimit < (Whole.sign value.toList).2.length) :
      Escapes file env directory k (.number (.tooManyDigits (Whole.sign value.toList).2.length))

section Stages

variable {file : Option String} {env : Environment} {directory : Option String} {k : σ}

theorem document_typed (reason : DocumentReason) (hint : Option String) :
    (Error.document reason hint).title ∈ readingFailures := by
  simp [Error.title, readingFailures]

theorem searchDirectory_failed {e : Error} (h : ((searchDirectory directory : StateM σ _) k).1 = .error e) :
    e.title ∈ readingFailures := by
  unfold searchDirectory at h
  cases directory with
  | some name => cases h
  | none =>
    rcases answer : (Host.workingDirectory : StateM σ _) k with ⟨refusal | p, k'⟩
    · simp only [run_bind answer] at h
      cases h
      exact document_typed _ _
    · simp only [run_bind answer] at h
      cases h

theorem firstPresent_failed {ps : List PathName} (clean : ∀ p ∈ ps, p.hasNull = false) {k : σ} {e : Error}
    (h : ((firstPresent ps : StateM σ _) k).1.result = .error e) : e.title ∈ readingFailures := by
  induction ps generalizing k with
  | nil =>
    cases h
    exact document_typed _ _
  | cons p rest ih =>
    rw [firstPresent, clean p List.mem_cons_self] at h
    simp only [Bool.false_eq_true, if_false] at h
    rcases answer : (Host.status p : StateM σ _) k with ⟨refusal | found, k'⟩
    · rw [run_bind answer] at h
      simp only at h
      split at h
      · exact ih (fun q mem => clean q (List.mem_cons_of_mem p mem)) h
      · cases h
        exact document_typed _ _
    · rw [run_bind answer] at h
      cases h

theorem locate_named {name : String} (named : named? file env = some name) :
    (locate file env directory : StateM σ _) k =
      (⟨[], ((Host.expandHome (PathName.ofText name) : StateM σ _) k).1⟩,
        ((Host.expandHome (PathName.ofText name) : StateM σ _) k).2) := by
  unfold named? at named
  unfold locate
  rw [named]
  rfl

/-- The usual places of the file. -/
def candidates (base : PathName) : List PathName :=
  [base.join (PathName.ofText Tables.fileName), PathName.ofText Tables.systemFile]

theorem locate_unnamed (unnamed : named? file env = none) {base : PathName} {k' : σ}
    (searched : (searchDirectory directory : StateM σ _) k = (.ok base, k')) :
    (locate file env directory : StateM σ _) k = (firstPresent (candidates base) : StateM σ _) k' := by
  unfold named? at unnamed
  unfold locate
  rw [unnamed]
  simp only [run_bind searched]
  rfl

theorem locate_unsearched (unnamed : named? file env = none) {e : Error} {k' : σ}
    (searched : (searchDirectory directory : StateM σ _) k = (.error e, k')) :
    ((locate file env directory : StateM σ _) k).1.result = .error e := by
  unfold named? at unnamed
  unfold locate
  rw [unnamed]
  simp only [run_bind searched]
  rfl

theorem hasNull_candidate (base : PathName) :
    (base.join (PathName.ofText Tables.fileName)).hasNull = base.hasNull := by
  have here : PathName.ofText Tables.fileName = ⟨.here, ["config.json"]⟩ := by decide +kernel
  have clean : decide ('\x00' ∈ "config.json".toList) = false := by decide +kernel
  rw [here, PathName.join, if_pos rfl, PathName.hasNull, PathName.hasNull, List.any_append, List.any_cons, clean]
  simp

theorem firstPresent_null {base : PathName} (null : base.hasNull = true) (k : σ) :
    ((firstPresent (candidates base) : StateM σ _) k).1.result = .error .nullByte := by
  rw [candidates, firstPresent, hasNull_candidate, null]
  rfl

/-- A file that is not found is a failure of the configuration, unless a home directory is unknown or the name of
the directory holds a null character. -/
theorem locate_failed {e : Error} (h : ((locate file env directory : StateM σ _) k).1.result = .error e) :
    e.title ∈ readingFailures ∨ Escapes file env directory k e := by
  cases named : named? file env with
  | some name =>
    rw [locate_named named] at h
    obtain ⟨rfl, first, user, rest, here, parts, tilde, unknown⟩ := expandHome_failed h
    exact .inr (.noHome named here parts tilde unknown)
  | none =>
    rcases searched : (searchDirectory directory : StateM σ _) k with ⟨e' | base, k'⟩
    · rw [locate_unsearched named searched] at h
      cases h
      have failed : ((searchDirectory directory : StateM σ _) k).1 = .error e := by rw [searched]
      exact .inl (searchDirectory_failed failed)
    · rw [locate_unnamed named searched] at h
      cases null : base.hasNull with
      | true =>
        rw [firstPresent_null null] at h
        cases h
        exact .inr (.nullByte named (by rw [searched]) null)
      | false =>
        have clean : ∀ p ∈ candidates base, p.hasNull = false := by
          simp only [candidates, List.mem_cons, List.not_mem_nil, or_false, forall_eq_or_imp, forall_eq]
          exact ⟨by rw [hasNull_candidate, null], by decide +kernel⟩
        exact .inl (firstPresent_failed clean h)

theorem parse_failed {name : String} {bytes : List UInt8} {e : Error} (h : parse name bytes = .error e) :
    e.title ∈ readingFailures ∨ ∃ cs container, Encoding.decodeDetected bytes = .ok cs ∧
      Json.readChars {} cs = .error (.tooDeep container) ∧ e = .nesting (Json.Fault.message cs (.tooDeep container)) := by
  unfold parse at h
  cases text : Encoding.decodeDetected bytes with
  | error broken =>
    rw [text] at h
    cases h
    exact .inl (document_typed _ _)
  | ok cs =>
    rw [text] at h
    simp only at h
    split at h
    · next container deep =>
      cases h
      exact .inr ⟨cs, container, rfl, deep, rfl⟩
    · cases h
      exact .inl (document_typed _ _)
    · have coercion := Settings.coercion_of_decode h
      left
      cases e with
      | coercion path reason => simp [Error.title, readingFailures]
      | _ => cases coercion
    · cases h
      exact .inl (document_typed _ _)

/-- Settings are decoded from a document whose names are distinct and whose numbers can be written. -/
theorem decode_of_parse {name : String} {bytes : List UInt8} {s : Settings} (h : parse name bytes = .ok s) :
    ∃ payload : Json, payload.Distinct ∧ payload.isWritable = true ∧ Settings.decode payload = .ok s := by
  unfold parse at h
  cases text : Encoding.decodeDetected bytes with
  | error broken =>
    rw [text] at h
    cases h
  | ok cs =>
    rw [text] at h
    simp only at h
    split at h
    · cases h
    · cases h
    · next members document =>
      exact ⟨_, Json.distinct_of_readChars document, Json.isWritable_of_readChars rfl document, h⟩
    · cases h

theorem fresh_of_parse {name : String} {bytes : List UInt8} {s : Settings} (h : parse name bytes = .ok s) :
    s.Fresh := by
  obtain ⟨payload, -, written, decoded⟩ := decode_of_parse h
  exact ⟨Settings.open_of_decode decoded, Settings.writable_of_decode written decoded⟩

/-- The document that a file holds, if it holds one. -/
def document? (bytes : List UInt8) : Option Json :=
  match Encoding.decodeDetected bytes with
  | .ok cs => (Json.readChars {} cs).toOption
  | .error _ => none

theorem parse_document {bytes : List UInt8} {v : Json} (h : document? bytes = some v) (name : String) :
    parse name bytes =
      match v with
      | .obj members => Settings.decode (.obj members)
      | _ => .error (.document (.notObject name) documentHint) := by
  unfold document? at h
  unfold parse
  cases text : Encoding.decodeDetected bytes with
  | error broken =>
    rw [text] at h
    cases h
  | ok cs =>
    rw [text] at h
    simp only at h ⊢
    cases read : Json.readChars {} cs with
    | error fault =>
      rw [read] at h
      cases h
    | ok w =>
      rw [read] at h
      cases h
      cases v <;> rfl

/-- A file that is not read is a failure of the configuration, unless its document is nested too deep. -/
theorem readFile_failed {p : PathName} {k : σ} {e : Error} (h : ((readFile p : StateM σ _) k).1 = .error e) :
    e.title ∈ readingFailures ∨ p.hasNull = false ∧ ∃ bytes cs container, ((Host.read p : StateM σ _) k).1 = .ok bytes ∧
      Encoding.decodeDetected bytes = .ok cs ∧ Json.readChars {} cs = .error (.tooDeep container) ∧
      e = .nesting (Json.Fault.message cs (.tooDeep container)) := by
  unfold readFile at h
  cases null : p.hasNull with
  | true =>
    rw [null] at h
    cases h
    exact .inl (document_typed _ _)
  | false =>
    rw [null] at h
    simp only [Bool.false_eq_true, if_false] at h
    rcases content : (Host.read p : StateM σ _) k with ⟨refusal | bytes, k'⟩
    · rw [run_bind content] at h
      cases refusal <;> cases h <;> exact .inl (document_typed _ _)
    · rw [run_bind content] at h
      rcases parse_failed h with typed | ⟨cs, container, text, deep, eq⟩
      · exact .inl typed
      · exact .inr ⟨rfl, bytes, cs, container, rfl, text, deep, eq⟩

/-- A file that is read holds a text that can be parsed. -/
theorem parse_of_readFile {p : PathName} {k : σ} {s : Settings} (h : ((readFile p : StateM σ _) k).1 = .ok s) :
    ∃ bytes, parse p.text bytes = .ok s := by
  unfold readFile at h
  cases null : p.hasNull with
  | true =>
    rw [null] at h
    cases h
  | false =>
    rw [null] at h
    simp only [Bool.false_eq_true, if_false] at h
    rcases content : (Host.read p : StateM σ _) k with ⟨refusal | bytes, k'⟩
    · rw [run_bind content] at h
      cases refusal <;> cases h
    · rw [run_bind content] at h
      exact ⟨bytes, h⟩

theorem readFile_ok {p : PathName} {k : σ} {s : Settings} (h : ((readFile p : StateM σ _) k).1 = .ok s) : s.Fresh := by
  obtain ⟨bytes, parsed⟩ := parse_of_readFile h
  exact fresh_of_parse parsed

theorem readFile_fails {p : PathName} {k : σ} {bytes : List UInt8} {cs : List Char} {container : Json.Container}
    (clean : p.hasNull = false) (content : ((Host.read p : StateM σ _) k).1 = .ok bytes)
    (text : Encoding.decodeDetected bytes = .ok cs) (deep : Json.readChars {} cs = .error (.tooDeep container)) :
    ((readFile p : StateM σ _) k).1 = .error (.nesting (Json.Fault.message cs (.tooDeep container))) := by
  have parsed (name : String) : parse name bytes = .error (.nesting (Json.Fault.message cs (.tooDeep container))) := by
    rw [parse, text]
    simp only [deep]
  unfold readFile
  rcases answer : (Host.read p : StateM σ _) k with ⟨result, k'⟩
  rw [answer] at content
  cases content
  simp only [clean, Bool.false_eq_true, if_false, run_bind answer]
  exact parsed _

variable {policy : Policy} {notes : List Note} {k' : σ}

theorem load_unlocated {e : Error} (unfound : ((locate file env directory : StateM σ _) k).1.result = .error e) :
    ((load file env directory policy : StateM σ _) k).1.result = .error e := by
  rcases located : (locate file env directory : StateM σ _) k with ⟨⟨notes, result⟩, k'⟩
  rw [located] at unfound
  cases unfound
  unfold load
  rw [run_bind located]
  rfl

theorem load_unread {p : PathName} {e : Error}
    (located : (locate file env directory : StateM σ _) k = (⟨notes, .ok p⟩, k'))
    (read : ((readFile p : StateM σ _) k').1 = .error e) :
    ((load file env directory policy : StateM σ _) k).1.result = .error e := by
  rcases answer : (readFile p : StateM σ _) k' with ⟨result, k''⟩
  rw [answer] at read
  cases read
  unfold load
  rw [run_bind located]
  simp only [run_bind answer]
  rfl

theorem load_read {p : PathName} {s : Settings}
    (located : (locate file env directory : StateM σ _) k = (⟨notes, .ok p⟩, k'))
    (read : ((readFile p : StateM σ _) k').1 = .ok s) :
    ((load file env directory policy : StateM σ _) k).1.result =
      (s.resolve env policy).result.map fun found => ((s.resolve env policy).settings, found) := by
  rcases answer : (readFile p : StateM σ _) k' with ⟨result, k''⟩
  rw [answer] at read
  cases read
  unfold load
  rw [run_bind located]
  simp only [run_bind answer]
  rfl

/-- A variable that does not fit is a failure of the configuration, unless it has too many digits. -/
theorem blame_typed {value : String} {fault : Error}
    (unfit : coerce Leaf.maxParallelTasks.path .whole (.text value) = .error fault) :
    (Resolution.blame Leaf.maxParallelTasks.path tasksVariable fault).title ∈ typedFailures ∨
      Whole.isNumeral value.toList = true ∧ digitLimit < (Whole.sign value.toList).2.length := by
  obtain ⟨n, -, fits⟩ | refused | ⟨numeral, long, -⟩ := coerce_whole_cases Leaf.maxParallelTasks.path value
  · rw [fits] at unfit
    cases unfit
  · rw [refused] at unfit
    cases unfit
    simp [Resolution.blame, Error.title, typedFailures]
  · exact .inr ⟨numeral, long⟩

/-- What escapes is what loading fails of. -/
theorem load_of_escapes {e : Error} (h : Escapes file env directory k e) :
    ((load file env directory .refuse : StateM σ _) k).1.result = .error e := by
  cases h with
  | noHome named here parts tilde unknown =>
    apply load_unlocated
    rw [locate_named named]
    exact expandHome_fails here parts tilde unknown
  | @nullByte base unnamed searched null =>
    rcases answer : (searchDirectory directory : StateM σ _) k with ⟨result, k'⟩
    rw [answer] at searched
    cases searched
    apply load_unlocated
    rw [locate_unnamed unnamed answer]
    exact firstPresent_null null k'
  | tooDeep located clean content text deep => exact load_unread located (readFile_fails clean content text deep)
  | tooManyDigits located read given numeral long =>
    rw [load_read located read, Resolution.resolve_fails (readFile_ok read) given (coerce_tooManyDigits _ numeral long)]
    rfl

/-- Loading gives final settings, fails of the configuration, or fails of what escapes. -/
theorem load_cases : Typed ((load file env directory .refuse : StateM σ _) k).1.result ∨
    ∃ e, Escapes file env directory k e := by
  rcases located : (locate file env directory : StateM σ _) k with ⟨⟨notes, e | p⟩, k'⟩
  · rw [load_unlocated (by rw [located])]
    exact (locate_failed (by rw [located])).imp typed_of_reading fun escapes => ⟨e, escapes⟩
  · cases read : ((readFile p : StateM σ _) k').1 with
    | error e =>
      rw [load_unread located read]
      rcases readFile_failed read with reading | ⟨clean, bytes, cs, container, content, text, deep, rfl⟩
      · exact .inl (typed_of_reading reading)
      · exact .inr ⟨_, .tooDeep located clean content text deep⟩
    | ok s =>
      have fresh := readFile_ok read
      rw [load_read located read]
      cases outcome : (s.resolve env .refuse).result with
      | ok found =>
        obtain ⟨_, _, _, _, v, _, _, _, frozen⟩ := Resolution.resolve_ok outcome
        left
        show (s.resolve env .refuse).settings.isFinal = true
        rw [frozen]
        exact Settings.isFinal_iff.mpr v.final_freeze
      | error e =>
        rcases Resolution.resolve_failed fresh outcome with ⟨-, messages, rfl⟩ | ⟨value, fault, given, unfit, rfl⟩
        · left
          show (Error.validation messages).title ∈ typedFailures
          simp [Error.title, typedFailures]
        · rcases blame_typed unfit with typed | ⟨numeral, long⟩
          · exact .inl typed
          · exact .inr ⟨_, .tooManyDigits located (by rw [read]) given numeral long⟩

end Stages

end ServerSettings.ConfigFile
