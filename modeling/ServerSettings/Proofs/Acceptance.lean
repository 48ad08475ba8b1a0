import ServerSettings.Proofs.Fixpoint
import ServerSettings.Proofs.KeyLength

/-!
# Which settings the check accepts

What is asked of each setting is said here without patterns: names out of a list, numerals up to a length, keys of
forty characters that are Base64, a number within bounds. The patterns of the table, put to the texts of the settings,
come to the same.

* `matches_iff`: the pattern of a leaf matches its text exactly if the leaf is permitted;
* `problems_eq`: validation finds the violations, one for each refused leaf;
* `check_judged`: the check accepts exactly the settings without a violation, reports every violation otherwise, and
  in either case does no more to the settings than to give the port its colon.
-/

namespace ServerSettings

namespace Settings

variable {s : Settings}

/-- The settings with a colon in front of their port. -/
def withColon (s : Settings) : Settings :=
  (Leaf.text .port).write s (normalizePort (s.text .port))

/-- What is asked of the content of a leaf. Most leaves are free. -/
def Permits (s : Settings) : Leaf → Prop
  | .text .dialect => s.text .dialect ∈ ["", "mysql", "bolt", "postgres"]
  | .text .port => IsPort (normalizePort (s.text .port))
  | .text .gitClient => s.text .gitClient ∈ ["go_git", "cmd_git"]
  | .text .cookieHash => IsKeyText (s.text .cookieHash)
  | .text .cookieEncryption => IsKeyText (s.text .cookieEncryption)
  | .text .accessKeyEncryption => IsKeyText (s.text .accessKeyEncryption)
  | .text .emailPort => s.text .emailPort = "" ∨ IsNumeral 5 (s.text .emailPort).toList
  | .maxParallelTasks => 0 ≤ s.maxParallelTasks ∧ s.maxParallelTasks < 10000000000
  | _ => True

instance (s : Settings) : DecidablePred s.Permits := fun l => by
  unfold Permits
  split <;> infer_instance

/-- Keys must be Base64 besides. -/
def Accepts (s : Settings) (l : Leaf) : Prop :=
  s.Permits l ∧ ∀ f ∈ Tables.keys, l = .text f → (decodeKey? (s.text f)).isSome = true

/-- What is said of a leaf that is not permitted: its value too, unless it is a key. -/
def complaint (s : Settings) (l : Leaf) (pattern : Pattern) : Problem :=
  if l ∈ Tables.keys.map Leaf.text then .secretMismatch l.path pattern
  else .mismatch l.path ((s.leafText l).toOption.getD "") pattern

/-- The leaves that are not permitted, in the order of the table. -/
def unfit (s : Settings) : List (Leaf × Pattern) :=
  Tables.patterns.filter fun entry => ¬s.Permits entry.1

/-- The keys that are permitted and are no Base64, in the order of the keys. -/
def undecoded (s : Settings) : List TextSetting :=
  Tables.keys.filter fun f => s.Permits (.text f) ∧ decodeKey? (s.text f) = none

/-- The leaves that are refused, each with what is said of it. -/
def violations (s : Settings) : List (Leaf × Problem) :=
  s.unfit.map (fun entry => (entry.1, s.withColon.complaint entry.1 entry.2)) ++
    s.undecoded.map fun f => (.text f, .notBase64 f.name)

theorem permits_key {f : TextSetting} (mem : f ∈ Tables.keys) : s.Permits (.text f) ↔ IsKeyText (s.text f) := by
  simp only [Tables.keys, List.mem_cons, List.not_mem_nil, or_false] at mem
  rcases mem with rfl | rfl | rfl <;> exact Iff.rfl

theorem complaint_path (s : Settings) (l : Leaf) (pattern : Pattern) : (s.complaint l pattern).path = l.path := by
  unfold complaint
  split <;> rfl

/-- The pattern of a leaf matches its text exactly if the leaf is permitted. -/
theorem matches_iff (writable : Whole.isWritable s.maxParallelTasks = true) : ∀ entry ∈ Tables.patterns,
    ∃ value, s.withColon.leafText entry.1 = .ok value ∧ (entry.2.matches? value = true ↔ s.Permits entry.1) := by
  have number : s.withColon.leafText .maxParallelTasks = .ok (String.ofList (Whole.digits s.maxParallelTasks)) := by
    show (Whole.text s.maxParallelTasks).mapError Error.number = _
    rw [Whole.text, if_pos writable]
    rfl
  have tasks : Pattern.matches? ⟨[[.run Tables.decimalDigits 1 (some 10)]]⟩
      (String.ofList (Whole.digits s.maxParallelTasks)) = true ↔ s.Permits .maxParallelTasks := by
    rw [Pattern.matches?, List.any_cons, List.any_nil, Bool.or_false, Piece.matchRow_digits, String.toList_ofList]
    exact Pattern.isNumeral_digits _
  simp only [Tables.patterns, List.forall_mem_cons, List.not_mem_nil, false_implies, implies_true, and_true]
  exact ⟨⟨_, rfl, Pattern.oneOf_matches _ _⟩, ⟨_, rfl, Pattern.port_matches _⟩, ⟨_, rfl, Pattern.oneOf_matches _ _⟩,
    ⟨_, rfl, Pattern.keyMaterial_matches _⟩, ⟨_, rfl, Pattern.keyMaterial_matches _⟩,
    ⟨_, rfl, Pattern.keyMaterial_matches _⟩, ⟨_, rfl, Pattern.emailPort_matches _⟩, ⟨_, number, tasks⟩⟩

end Settings

theorem Leaf.path_injective : Function.Injective Leaf.path := by
  intro l m same
  have found : (Except.ok l : Except Error Leaf) = .ok m := by rw [← l.ofPath_path, same, m.ofPath_path]
  exact Except.ok.inj found

namespace Resolution

variable {s t : Settings}

/-- Of the settings with a pattern, exactly the keys are withheld. -/
theorem isSecretPath_pattern : ∀ entry ∈ Tables.patterns,
    isSecretPath entry.1.path = true ↔ entry.1 ∈ Tables.keys.map Leaf.text := by decide +kernel

theorem mismatch?_eq {l : Leaf} {value : String} {pattern : Pattern} (listed : (l, pattern) ∈ Tables.patterns)
    (read : t.leafText l = .ok value) (fails : pattern.matches? value ≠ true) :
    mismatch? l.path value pattern = some (t.complaint l pattern) := by
  have secret := isSecretPath_pattern _ listed
  rw [mismatch?, if_neg fails, Settings.complaint, read]
  by_cases key : l ∈ Tables.keys.map Leaf.text
  · rw [if_pos (secret.mpr key), if_pos key]
  · rw [if_neg fun told => key (secret.mp told), if_neg key]
    rfl

/-- The patterns find the leaves that are not permitted, if they match the text of every other one. -/
theorem mismatches_eq {permits : Leaf → Prop} [DecidablePred permits] {table : List (Leaf × Pattern)}
    (listed : ∀ entry ∈ table, entry ∈ Tables.patterns)
    (fits : ∀ entry ∈ table, ∃ value, t.leafText entry.1 = .ok value ∧ (entry.2.matches? value = true ↔ permits entry.1)) :
    mismatches t (table.map fun entry => (entry.1.path, entry.2)) =
      .ok ((table.filter fun entry => ¬permits entry.1).map fun entry => t.complaint entry.1 entry.2) := by
  induction table with
  | nil => rfl
  | cons entry rest ih =>
    obtain ⟨mem, listed⟩ := List.forall_mem_cons.mp listed
    obtain ⟨⟨value, read, fit⟩, fits⟩ := List.forall_mem_cons.mp fits
    rw [List.map_cons, mismatches_cons, Settings.get_path, read, ih listed fits]
    simp only [Except.bind, Except.map]
    by_cases permitted : permits entry.1
    · rw [mismatch?_eq_none.mpr (fit.mpr permitted), List.filter_cons_of_neg (by simpa using permitted)]
      rfl
    · rw [mismatch?_eq mem read fun told => permitted (fit.mp told), List.filter_cons_of_pos (by simpa using permitted)]
      rfl

/-- Keys that are permitted are not empty, so exactly those are left to be decoded. -/
theorem undecodable_eq (texts : ∀ f ∈ Tables.keys, t.text f = s.text f) {failed : List String}
    (reported : ∀ f ∈ Tables.keys, f.name ∈ failed ↔ ¬s.Permits (.text f)) :
    undecodable t failed = s.undecoded.map fun f => .notBase64 f.name := by
  rw [undecodable, Settings.undecoded]
  congr 1
  refine List.filter_congr fun f mem => ?_
  rw [texts f mem, Bool.eq_iff_iff]
  simp only [reported f mem, not_not, Bool.and_eq_true, decide_eq_true_eq, Option.isNone_iff_eq_none]
  have filled : s.Permits (.text f) → s.text f ≠ "" := by
    intro permitted empty
    have long := ((Settings.permits_key mem).mp permitted).1
    rw [empty] at long
    exact absurd long (by decide)
  constructor
  · rintro ⟨⟨permitted, _⟩, none⟩
    exact ⟨permitted, none⟩
  · rintro ⟨permitted, none⟩
    exact ⟨⟨permitted, filled permitted⟩, none⟩

/-- Validation finds the violations. -/
theorem problems_eq (writable : Whole.isWritable s.maxParallelTasks = true) :
    problems s.withColon tablePatterns = .ok (s.violations.map (·.2)) := by
  have matched : mismatches s.withColon tablePatterns =
      .ok (s.unfit.map fun entry => s.withColon.complaint entry.1 entry.2) :=
    mismatches_eq (fun _ mem => mem) (Settings.matches_iff writable)
  have texts : ∀ f ∈ Tables.keys, s.withColon.text f = s.text f := by
    intro f mem
    have other : Leaf.text f ≠ .text .port := by
      rintro ⟨⟩
      exact absurd mem (by decide)
    exact Leaf.read_write_of_ne s (normalizePort (s.text .port)) other
  have reported : ∀ f ∈ Tables.keys,
      f.name ∈ (s.unfit.map fun entry => s.withColon.complaint entry.1 entry.2).map (·.path) ↔
        ¬s.Permits (.text f) := by
    intro f mem
    rw [List.map_map, List.mem_map]
    simp only [Function.comp_apply, Settings.complaint_path, Settings.unfit, List.mem_filter, decide_eq_true_eq]
    constructor
    · rintro ⟨entry, ⟨_, refused⟩, path⟩
      have leaf : entry.1 = .text f := Leaf.path_injective path
      rwa [leaf] at refused
    · intro refused
      exact ⟨_, ⟨Tables.key_listed mem, refused⟩, rfl⟩
  have decoded := undecodable_eq texts reported
  rw [problems, matched]
  show Except.ok (_ ++ undecodable s.withColon _) = _
  rw [decoded, Settings.violations, List.map_append, List.map_map, List.map_map]
  rfl

theorem correctPort_eq (isOpen : s.frozen = false) : correctPort s = (.ok (), s.withColon) := by
  rw [correctPort_apply, isOpen]
  by_cases same : normalizePort (s.text .port) = s.text .port
  · have kept : s.withColon = s := by
      refine (Settings.Framed.write s (.text .port) _).eq_of_read fun l => ?_
      by_cases port : l = .text .port
      · subst port
        exact (Leaf.read_write_self s (.text .port) _).trans same
      · exact Leaf.read_write_of_ne s _ port
    rw [if_pos same, kept]
  · rw [if_neg same, if_neg Bool.false_ne_true, Settings.withColon]

theorem check_eq (isOpen : s.frozen = false) (writable : Whole.isWritable s.maxParallelTasks = true) :
    check s = (if s.violations = [] then .ok () else .error (.validation (s.violations.map (·.2.message))), s.withColon) := by
  rw [check_apply, validate_apply, correctPort_eq isOpen]
  simp only [problems_eq writable]
  cases s.violations with
  | nil => rfl
  | cons first more => simp [Function.comp_def]

end Resolution

namespace Settings

open Resolution

variable {s : Settings}

/-- No leaf is complained about twice: patterns are about leaves of their own, and a key is decoded only if it is
permitted. -/
theorem violations_once (s : Settings) : (s.violations.map (·.1)).Nodup := by
  have patterns : (Tables.patterns.map (·.1)).Nodup := by decide +kernel
  have keys : (Tables.keys.map Leaf.text).Nodup := by decide +kernel
  rw [violations, List.map_append, List.map_map, List.map_map, List.nodup_append]
  refine ⟨patterns.sublist (List.filter_sublist.map _), keys.sublist (List.filter_sublist.map _), ?_⟩
  rintro l unfit m undecoded rfl
  obtain ⟨entry, refused, rfl⟩ := List.mem_map.mp unfit
  obtain ⟨f, permitted, same⟩ := List.mem_map.mp undecoded
  simp only [Settings.unfit, Settings.undecoded, List.mem_filter, decide_eq_true_eq, Function.comp_apply] at *
  rw [← same] at refused
  exact refused.2 permitted.2.1

theorem permits_of_free {l : Leaf} (free : l ∉ Tables.patterns.map (·.1)) : s.Permits l := by
  unfold Permits
  split
  all_goals first | exact absurd (by decide +kernel) free | trivial

/-- The violations are about the leaves that are refused. -/
theorem mem_violations (s : Settings) (l : Leaf) : l ∈ s.violations.map (·.1) ↔ ¬s.Accepts l := by
  rw [violations, List.map_append, List.map_map, List.map_map, List.mem_append, List.mem_map, List.mem_map]
  simp only [unfit, undecoded, List.mem_filter, decide_eq_true_eq, Function.comp_apply]
  constructor
  · rintro (⟨entry, ⟨_, refused⟩, rfl⟩ | ⟨f, ⟨key, _, none⟩, rfl⟩) ⟨permitted, decoded⟩
    · exact refused permitted
    · have read := decoded f key rfl
      rw [none] at read
      cases read
  · intro refused
    by_cases permitted : s.Permits l
    · have unread : ∃ f ∈ Tables.keys, l = .text f ∧ ¬(decodeKey? (s.text f)).isSome = true := by
        by_contra all
        push Not at all
        exact refused ⟨permitted, all⟩
      obtain ⟨f, key, rfl, none⟩ := unread
      exact .inr ⟨f, ⟨key, permitted, by simpa using none⟩, rfl⟩
    · have listed : l ∈ Tables.patterns.map (·.1) := by
        by_contra free
        exact permitted (permits_of_free free)
      obtain ⟨entry, mem, rfl⟩ := List.mem_map.mp listed
      exact .inl ⟨entry, ⟨mem, permitted⟩, rfl⟩

theorem violation_path (s : Settings) : ∀ violation ∈ s.violations, violation.2.path = violation.1.path := by
  intro violation mem
  rcases List.mem_append.mp mem with unfit | undecoded
  · obtain ⟨entry, _, rfl⟩ := List.mem_map.mp unfit
    exact complaint_path _ _ _
  · obtain ⟨f, _, rfl⟩ := List.mem_map.mp undecoded
    rfl

theorem violations_eq_nil (s : Settings) : s.violations = [] ↔ ∀ l, s.Accepts l := by
  rw [← List.map_eq_nil_iff (f := (·.1)), List.eq_nil_iff_forall_not_mem]
  exact forall_congr' fun l => by rw [s.mem_violations l, not_not]

/-- The check accepts exactly the settings that have every leaf accepted. Otherwise it fails of validation, with one
message for each leaf that is refused: first those that are not permitted, in the order of the table, then the keys
that cannot be decoded, in the order of the keys. In either case the port gets its colon, and nothing else changes. -/
theorem check_judged (s : Settings) (isOpen : s.frozen = false)
    (writable : Whole.isWritable s.maxParallelTasks = true) :
    ((check s).1 = .ok () ↔ ∀ l, s.Accepts l) ∧
      ((check s).1 ≠ .ok () → (check s).1 = .error (.validation (s.violations.map (·.2.message)))) ∧
      (s.violations.map (·.1)).Nodup ∧ (∀ l, l ∈ s.violations.map (·.1) ↔ ¬s.Accepts l) ∧
      (∀ violation ∈ s.violations, violation.2.path = violation.1.path) ∧
      (check s).2 = (Leaf.text .port).write s (normalizePort (s.text .port)) ∧
      ((check s).2.text .port).toList.head? = some portMark := by
  have judged := check_eq isOpen writable
  have accepted := s.violations_eq_nil
  have port : s.withColon.text .port = normalizePort (s.text .port) :=
    Leaf.read_write_self s (.text .port) (normalizePort (s.text .port))
  refine ⟨?_, ?_, s.violations_once, s.mem_violations, s.violation_path, by rw [judged]; rfl, ?_⟩
  · rw [judged, ← accepted]
    by_cases none : s.violations = [] <;> simp [none]
  · rw [judged]
    by_cases none : s.violations = [] <;> simp [none]
  · rw [judged, port]
    exact head_normalizePort _

/-- Forty hyphens may stand in a key and are no Base64. -/
theorem check_judged_hyphens :
    let s := Settings.withKeys "----------------------------------------"
    (check s).1 = .error (.validation (s.violations.map (·.2.message))) ∧
      s.violations.map (·.1) = [.text .cookieHash, .text .cookieEncryption, .text .accessKeyEncryption] ∧
      (check s).2.text .port = ":3000" := by
  intro s
  obtain ⟨iff, refused, _, _, _, settled, _⟩ := check_judged s rfl (by decide +kernel)
  have violated : s.violations.map (·.1) = [.text .cookieHash, .text .cookieEncryption, .text .accessKeyEncryption] := by
    decide +kernel
  refine ⟨refused fun accepted => ?_, violated, ?_⟩
  · have none := s.violations_eq_nil.mpr (iff.mp accepted)
    rw [none] at violated
    cases violated
  · rw [settled]
    decide +kernel

end Settings

end ServerSettings
