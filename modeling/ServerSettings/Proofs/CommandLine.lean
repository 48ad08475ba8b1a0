import ServerSettings.Command.Request
import ServerSettings.Proofs.Dict
import ServerSettings.Proofs.Json.Reading

/-!
# One parameter more

A command that understands one parameter more than another reads every line as the other does, unless a word asks for
that parameter.

* `ofTexts_append`: the words of a line are told apart as before;
* `ofWords_append`: and they give as before;
* `read_agrees`: so `show` reads the words that `validate` reads, as long as none asks for redaction.
-/

namespace ServerSettings.Command

variable {known : List Parameter} {p q : Parameter} {word : String} {words : List String}

namespace Word

/-- Would a word be taken for a parameter, or might it, if there were no other? -/
def asksFor (p : Parameter) (word : String) : Bool :=
  word ≠ "--" &&
    match ofText [p] word with
    | .error _ => true
    | .ok (.plain _) => false
    | .ok .separator => true
    | .ok (.parameter _ _ _) => true
    | .ok (.unknown _) => false

theorem spelled_append (known : List Parameter) (p : Parameter) : spelled (known ++ [p]) = spelled known ++ spelled [p] :=
  List.flatMap_append

theorem candidates_append (known : List Parameter) (p : Parameter) (cs : List Char) :
    candidates (known ++ [p]) cs = candidates known cs ++ candidates [p] cs := by
  unfold candidates
  split <;> simp only [spelled_append, List.filterMap_append]

theorem ofAssigned?_append (known : List Parameter) (p : Parameter) (word : String) :
    ofAssigned? (known ++ [p]) word = (ofAssigned? known word).or (ofAssigned? [p] word) := by
  unfold ofAssigned?
  cases Text.cut? '=' word.toList with
  | none => rfl
  | some cut =>
    simp only [bind, Option.bind, spelled_append, Dict.lookup_append]
    cases Dict.lookup (spelled known) (String.ofList cut.1) <;> rfl

/-- A word that asks for nothing is no spelling, assigns nothing and abbreviates nothing. -/
theorem unspelled_of_free (free : asksFor p word = false) (other : word ≠ "--") (dash : word.toList.head? = some '-') :
    Dict.lookup (spelled [p]) word = none ∧
      (word ≠ "-" → ofAssigned? [p] word = none ∧ candidates [p] word.toList = []) := by
  simp only [asksFor, ofText, other, dash, ne_eq, not_true, not_false_eq_true, decide_true, Bool.true_and, if_false] at free
  cases spelling : Dict.lookup (spelled [p]) word with
  | some q => simp [spelling] at free
  | none =>
    refine ⟨rfl, fun hyphen => ?_⟩
    simp only [spelling, if_neg hyphen] at free
    cases assigned : ofAssigned? [p] word with
    | some w =>
      obtain ⟨q, spelling, value, rfl⟩ : ∃ q spelling value, w = .parameter q spelling value := by
        unfold ofAssigned? at assigned
        simp only [bind, Option.bind_eq_some_iff] at assigned
        obtain ⟨cut, -, q, -, done⟩ := assigned
        exact ⟨_, _, _, (Option.some.inj done).symm⟩
      simp [assigned] at free
    | none =>
      refine ⟨rfl, ?_⟩
      simp only [assigned, ofDashed] at free
      rcases listed : candidates [p] word.toList with _ | ⟨first, _ | ⟨second, more⟩⟩
      · rfl
      · simp [listed] at free
      · simp [listed] at free

/-- A word that does not ask for a parameter is what it is without it. -/
theorem ofText_append (free : asksFor p word = false) (other : word ≠ "--") :
    ofText (known ++ [p]) word = ofText known word := by
  unfold ofText
  by_cases dash : word.toList.head? = some '-'
  · obtain ⟨spelling, rest⟩ := unspelled_of_free free other dash
    have dashed : ¬(word.toList.head? ≠ some '-') := fun ne => ne dash
    rw [if_neg dashed, if_neg dashed, spelled_append, Dict.lookup_append, spelling, Option.or_none]
    cases Dict.lookup (spelled known) word with
    | some q => rfl
    | none =>
      by_cases hyphen : word = "-"
      · simp only [hyphen, if_true]
      · obtain ⟨assigned, listed⟩ := rest hyphen
        simp only [if_neg hyphen, ofAssigned?_append, assigned, Option.or_none, ofDashed, candidates_append, listed,
          List.append_nil]
  · rw [if_pos dash, if_pos dash]

/-- The words of a line are told apart as they are without a parameter that none of them asks for. -/
theorem ofTexts_append (free : ∀ word ∈ words, asksFor p word = false) :
    ofTexts (known ++ [p]) words = ofTexts known words := by
  induction words with
  | nil => rfl
  | cons word rest ih =>
    obtain ⟨first, free⟩ := List.forall_mem_cons.mp free
    rw [ofTexts, ofTexts]
    by_cases other : word = "--"
    · rw [if_pos other, if_pos other]
    · rw [if_neg other, if_neg other, ofText_append first other, ih free]

end Word

open Word (spelled)

/-- A switch does not look at the word behind it. -/
theorem ofWords_switch (switch : p.isSwitch = true) (spelling : String) (rest : List Word) :
    Reading.ofWords known (.parameter p spelling none :: rest) =
      match switchedOn [p] with
      | .error reason => .error reason
      | .ok g => (Reading.ofWords known rest).map (Reading.give g) := by
  cases on : switchedOn [p] with
  | error reason => rcases rest with _ | ⟨_ | _ | _ | _, rest⟩ <;> simp only [Reading.ofWords, switch, if_true, on]
  | ok g => rcases rest with _ | ⟨_ | _ | _ | _, rest⟩ <;> simp only [Reading.ofWords, switch, if_true, on]

/-- Any other parameter needs a word behind it that stands for itself. -/
theorem ofWords_unvalued (needs : ¬p.isSwitch = true) (spelling : String) {rest : List Word}
    (alone : ∀ word more, rest ≠ .plain word :: more) :
    Reading.ofWords known (.parameter p spelling none :: rest) = .error (.misuse (.missingValue p)) := by
  rw [Reading.ofWords, if_neg needs]
  exact alone

section Letters

/-- No spelling of the parameter is a dash and a letter. -/
def Parameter.IsLong (p : Parameter) : Prop :=
  ∀ s ∈ p.spellings, s.toList.length ≠ 2

variable (long : p.IsLong)

include long

theorem lookup_letter (c : Char) : Dict.lookup (spelled [p]) (String.ofList ['-', c]) = none := by
  cases found : Dict.lookup (spelled [p]) (String.ofList ['-', c]) with
  | none => rfl
  | some q =>
    have mem := Dict.mem_of_lookup found
    simp only [spelled, List.flatMap_cons, List.flatMap_nil, List.append_nil, List.mem_map, Prod.mk.injEq] at mem
    obtain ⟨s, spelling, rfl, -⟩ := mem
    exact absurd (by simp) (long _ spelling)

theorem letters_append (known : List Parameter) (q : Parameter) (cs : List Char) :
    letters (known ++ [p]) q cs = letters known q cs := by
  induction cs generalizing q with
  | nil => rfl
  | cons c rest ih =>
    simp only [letters, Word.spelled_append, Dict.lookup_append, lookup_letter long, Option.or_none, ih]

theorem ownValue_append (known : List Parameter) (q : Parameter) (spelling value : String) :
    ownValue (known ++ [p]) q spelling value = ownValue known q spelling value := by
  simp only [ownValue, behindSwitch, letters_append long]

/-- Words give what they give without the parameter. -/
theorem ofWords_append (known : List Parameter) (ws : List Word) :
    Reading.ofWords (known ++ [p]) ws = Reading.ofWords known ws := by
  fun_induction Reading.ofWords known ws with
  | case7 q spelling rest switch reason stops => rw [ofWords_switch switch, stops]
  | case8 q spelling rest switch g given ih => simp only [ofWords_switch switch, given, ih]
  | case11 q spelling rest needs alone => rw [ofWords_unvalued needs spelling alone]
  | _ => simp only [Reading.ofWords, ownValue_append long, Bool.false_eq_true, if_false, *]

end Letters

section Known

theorem mem_of_spelled {spelling : String} (h : (spelling, q) ∈ spelled known) : q ∈ known := by
  simp only [spelled, List.mem_flatMap, List.mem_map, Prod.mk.injEq] at h
  obtain ⟨p, mem, _, _, _, rfl⟩ := h
  exact mem

theorem mem_of_lookup {spelling : String} (h : Dict.lookup (spelled known) spelling = some q) : q ∈ known :=
  mem_of_spelled (Dict.mem_of_lookup h)

theorem mem_of_candidates {cs : List Char} {entry : String × Parameter × Option String}
    (h : entry ∈ Word.candidates known cs) : entry.2.1 ∈ known := by
  unfold Word.candidates at h
  split at h
  · obtain ⟨⟨spelling, q⟩, mem, kept⟩ := List.mem_filterMap.mp h
    obtain ⟨_, _, rfl⟩ := Option.map_eq_some_iff.mp kept
    exact mem_of_spelled mem
  · obtain ⟨⟨spelling, q⟩, mem, kept⟩ := List.mem_filterMap.mp h
    dsimp only at kept
    split at kept
    · cases kept
      exact mem_of_spelled mem
    · cases kept

/-- A word is taken for known parameters only. -/
theorem mem_of_ofText {spelling : String} {value : Option String}
    (h : Word.ofText known word = .ok (.parameter q spelling value)) : q ∈ known := by
  unfold Word.ofText at h
  split at h
  · cases h
  · split at h
    · next p found =>
      cases h
      exact mem_of_lookup found
    · split at h
      · cases h
      · split at h
        · next w assigned =>
          cases h
          unfold Word.ofAssigned? at assigned
          simp only [bind, Option.bind_eq_some_iff] at assigned
          obtain ⟨cut, -, p, found, done⟩ := assigned
          cases done
          exact mem_of_lookup found
        · unfold Word.ofDashed at h
          simp only at h
          split at h
          · next only =>
            cases h
            have listed : (spelling, q, value) ∈ Word.candidates known word.toList := by
              rw [only]
              exact List.mem_cons_self
            exact mem_of_candidates listed
          · split at h <;> cases h
          · cases h

/-- Words that are taken for known parameters only. -/
def AllKnown (known : List Parameter) (ws : List Word) : Prop :=
  ∀ q spelling value, .parameter q spelling value ∈ ws → q ∈ known

theorem AllKnown.head {spelling : String} {value : Option String} {ws : List Word}
    (h : AllKnown known (.parameter q spelling value :: ws)) : q ∈ known :=
  h q spelling value List.mem_cons_self

theorem AllKnown.tail {w : Word} {ws : List Word} (h : AllKnown known (w :: ws)) : AllKnown known ws :=
  fun q spelling value mem => h q spelling value (List.mem_cons_of_mem w mem)

theorem allKnown_of_ofTexts {ws : List Word} (h : Word.ofTexts known words = .ok ws) : AllKnown known ws := by
  intro q spelling value mem
  induction words generalizing ws with
  | nil =>
    cases h
    cases mem
  | cons word rest ih =>
    rw [Word.ofTexts] at h
    split at h
    · cases h
      simp at mem
    · cases first : Word.ofText known word with
      | error fault =>
        rw [first] at h
        cases h
      | ok w =>
        rw [first] at h
        obtain ⟨more, later, rfl⟩ := map_ok h
        rcases List.mem_cons.mp mem with rfl | mem
        · exact mem_of_ofText first
        · exact ih later mem

/-- Only known parameters are given. -/
def Given.Within (known : List Parameter) (g : Given) : Prop :=
  ∀ entry ∈ g, entry.1 ∈ known

theorem mem_of_letters {qs : List Parameter} {cs : List Char} (h : letters known p cs = .ok qs) : ∀ q ∈ qs, q ∈ known := by
  induction cs generalizing p qs with
  | nil =>
    cases h
    simp
  | cons c rest ih =>
    rw [letters] at h
    split at h
    · next q found =>
      obtain ⟨more, later, rfl⟩ := map_ok h
      exact List.forall_mem_cons.mpr ⟨mem_of_lookup found, ih later⟩
    · cases h

theorem within_of_switchedOn {switches : List Parameter} {g : Given} (mem : ∀ q ∈ switches, q ∈ known)
    (h : switchedOn switches = .ok g) : g.Within known := by
  unfold switchedOn at h
  split at h
  · cases h
  · cases h
    intro entry given
    obtain ⟨q, switched, rfl⟩ := List.mem_map.mp given
    exact mem q switched

theorem within_of_ownValue {spelling value : String} {g : Given} (mem : p ∈ known)
    (h : ownValue known p spelling value = .ok g) : g.Within known := by
  unfold ownValue at h
  split at h
  · obtain ⟨qs, switches, on⟩ := bind_ok h
    refine within_of_switchedOn ?_ on
    unfold behindSwitch at switches
    split at switches
    · cases switches
    · cases read : letters known p value.toList with
      | error fault =>
        rw [read] at switches
        cases switches
      | ok more =>
        rw [read] at switches
        cases switches
        exact List.forall_mem_cons.mpr ⟨mem, mem_of_letters read⟩
  · split at h
    · cases h
    · obtain ⟨taken, -, rfl⟩ := map_ok h
      intro entry given
      rw [List.mem_singleton.mp given]
      exact mem

theorem Given.Within.give {g : Given} {r : Reading} (front : g.Within known) (back : r.given.Within known) :
    (r.give g).given.Within known := by
  intro entry mem
  exact (List.mem_append.mp mem).elim (front entry) (back entry)

/-- Words that are taken for known parameters give those only. -/
theorem within_of_ofWords {ws : List Word} {r : Reading} (all : AllKnown known ws) (h : Reading.ofWords known ws = .ok r) :
    r.given.Within known := by
  fun_induction Reading.ofWords known ws generalizing r with
  | case1 =>
    cases h
    intro entry none
    cases none
  | case2 word rest ih | case3 word rest ih | case4 rest ih =>
    obtain ⟨later, read, rfl⟩ := map_ok h
    show later.given.Within known
    exact ih all.tail read
  | case6 p spelling value rest g own ih =>
    obtain ⟨later, read, rfl⟩ := map_ok h
    exact (within_of_ownValue all.head own).give (ih all.tail read)
  | case8 p spelling rest switch g on ih =>
    obtain ⟨later, read, rfl⟩ := map_ok h
    exact (within_of_switchedOn (by simpa using all.head) on).give (ih all.tail read)
  | case10 p spelling needs word rest value taken ih =>
    obtain ⟨later, read, rfl⟩ := map_ok h
    have front : Given.Within known [(p, value)] := by
      intro entry given
      rw [List.mem_singleton.mp given]
      exact all.head
    exact front.give (ih all.tail.tail read)
  | _ => cases h

end Known

section Reading

theorem ofText_command (c : Name) : Word.ofText known c.text = .ok (.plain c.text) := by
  have plain : c.text.toList.head? ≠ some '-' := by
    cases c <;> decide
  rw [Word.ofText, if_pos plain]

/-- The words behind a command, or why they cannot be told apart. -/
def wordsBehind (words : List String) : Except Reason (List String) :=
  ((Word.ofTexts Dispatch.known words).mapError .misuse).map fun ws => (ws.zip words).map (·.2)

/-- A line that begins with a command is that command's. -/
theorem dispatch_command (c : Name) (words : List String) :
    Dispatch.ofTexts (c.text :: words) = (wordsBehind words).map fun behind => ⟨c, behind, []⟩ := by
  have other : c.text ≠ "--" := by
    cases c <;> decide
  unfold Dispatch.ofTexts wordsBehind
  rw [Word.ofTexts, if_neg other, ofText_command]
  cases Word.ofTexts Dispatch.known words with
  | error fault => rfl
  | ok ws =>
    show Dispatch.ofWords ((.plain c.text, c.text) :: ws.zip words) = _
    rw [Dispatch.ofWords, Name.ofText?_text]
    rfl

theorem mem_of_wordsBehind {behind : List String} (h : wordsBehind words = .ok behind) : ∀ word ∈ behind, word ∈ words := by
  obtain ⟨ws, -, rfl⟩ := map_ok h
  intro word mem
  obtain ⟨entry, zipped, rfl⟩ := List.mem_map.mp mem
  exact (List.of_mem_zip zipped).2

/-- Reading a line that begins with a command is reading the words behind it. -/
theorem read_command (c : Name) (words : List String) : Request.read (c.text :: words) =
    match wordsBehind words with
    | .error reason => .error { reason }
    | .ok behind =>
      match Request.readCommand c behind with
      | .error reason => .error { command := some c, reason }
      | .ok r => if r.unused = [] then .ok (.ofGiven c r.given) else .error { reason := .misuse (.unrecognized r.unused) } := by
  unfold Request.read
  rw [dispatch_command]
  cases wordsBehind words with
  | error reason => rfl
  | ok behind =>
    show (((Request.readCommand c behind).mapError fun reason => ({ command := some c, reason } : Stop)) >>= _) = _
    dsimp only
    cases Request.readCommand c behind with
    | error reason => rfl
    | ok r =>
      obtain ⟨given, unused⟩ := r
      cases unused with
      | nil => rfl
      | cons word more => rfl

/-- `show` gives to the words what `validate` gives to them, unless one of them asks for redaction. -/
theorem readCommand_display (free : ∀ word ∈ words, Word.asksFor .redact word = false) :
    Request.readCommand .display words = Request.readCommand .validate words := by
  have parameters : Name.display.parameters = Name.validate.parameters ++ [.redact] := rfl
  have long : Parameter.redact.IsLong := by
    unfold Parameter.IsLong
    decide
  unfold Request.readCommand
  simp only [parameters, Word.ofTexts_append free, ofWords_append long]

/-- Nothing that `validate` is given is redaction. -/
theorem given_of_validate {r : Reading} (h : Request.readCommand .validate words = .ok r) : r.given.has .redact = false := by
  obtain ⟨ws, told, read⟩ := bind_ok h
  cases texts : Word.ofTexts Name.validate.parameters words with
  | error fault =>
    rw [texts] at told
    cases told
  | ok ws' =>
    rw [texts] at told
    cases told
    have within := within_of_ofWords (allKnown_of_ofTexts texts) read
    rw [Given.has, List.any_eq_false]
    intro entry mem same
    have known := within entry mem
    rw [of_decide_eq_true same] at known
    exact absurd known (by decide)

/-- `show` reads the words that `validate` reads, as long as none asks for redaction: either both are stopped for one
reason, or both are given the same. -/
theorem read_agrees (free : ∀ word ∈ words, Word.asksFor .redact word = false) :
    (∃ stop stop', Request.read (Name.validate.text :: words) = .error stop ∧
        Request.read (Name.display.text :: words) = .error stop' ∧ stop'.reason = stop.reason) ∨
      ∃ g : Given, g.has .redact = false ∧ Request.read (Name.validate.text :: words) = .ok (.ofGiven .validate g) ∧
        Request.read (Name.display.text :: words) = .ok (.ofGiven .display g) := by
  rw [read_command, read_command]
  cases behind : wordsBehind words with
  | error reason => exact .inl ⟨_, _, rfl, rfl, rfl⟩
  | ok rest =>
    have free_rest : ∀ word ∈ rest, Word.asksFor .redact word = false :=
      fun word mem => free word (mem_of_wordsBehind behind word mem)
    simp only [readCommand_display free_rest]
    cases read : Request.readCommand .validate rest with
    | error reason => exact .inl ⟨_, _, rfl, rfl, rfl⟩
    | ok r =>
      by_cases used : r.unused = []
      · simp only [used, if_true]
        exact .inr ⟨r.given, given_of_validate read, rfl, rfl⟩
      · simp only [used, if_false]
        exact .inl ⟨_, _, rfl, rfl, rfl⟩

end Reading

end ServerSettings.Command
