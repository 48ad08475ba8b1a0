import ServerSettings.Proofs.Precedence

/-!
# What validation finds

* `writable_of_problems`: validation gets to its end only if the number can be written;
* `problems_eq_nil`: nothing is found exactly if every pattern matches and every key can be decoded;
* `problems_congr`: what is found depends on the leaves only.
-/

namespace ServerSettings

namespace Leaf

/-- No two leaves have one path. -/
theorem ofPath_path (l : Leaf) : ofPath l.path = .ok l := by
  have once : ∀ l ∈ all, ofPath? l.path = some l := by decide +kernel
  rw [ofPath, once l l.mem_all]

end Leaf

theorem Settings.get_path (s : Settings) (l : Leaf) : s.get l.path = s.leafText l := by
  rw [Settings.get, l.ofPath_path]
  rfl

namespace Resolution

variable {s t : Settings}

theorem mismatch?_eq_none {path value : String} {pattern : Pattern} :
    mismatch? path value pattern = none ↔ pattern.matches? value = true := by
  unfold mismatch?
  cases pattern.matches? value with
  | true => simp
  | false =>
    cases isSecretPath path <;> simp

theorem mismatches_cons (path : String) (pattern : Pattern) (rest : List (String × Pattern)) :
    mismatches s ((path, pattern) :: rest) =
      (s.get path).bind fun value => (mismatches s rest).map fun more =>
        (mismatch? path value pattern).toList ++ more := by
  rw [mismatches]
  cases s.get path with
  | error e => rfl
  | ok value => cases mismatches s rest <;> rfl

/-- No value is reported exactly if every value can be told and matches. -/
theorem mismatches_eq_nil {patterns : List (String × Pattern)} :
    mismatches s patterns = .ok [] ↔
      ∀ entry ∈ patterns, ∃ value, s.get entry.1 = .ok value ∧ entry.2.matches? value = true := by
  induction patterns with
  | nil => simp [mismatches]
  | cons entry rest ih =>
    rw [List.forall_mem_cons, ← ih, mismatches_cons]
    cases s.get entry.1 with
    | error e => simp [Except.bind]
    | ok value =>
      cases mismatches s rest with
      | error e => simp [Except.bind, Except.map]
      | ok more =>
        simp only [Except.bind, Except.map, Except.ok.injEq, List.append_eq_nil_iff, Option.toList_eq_nil_iff,
          mismatch?_eq_none, exists_eq_left']

theorem undecodable_eq_nil {failed : List String} :
    undecodable s failed = [] ↔
      ∀ f ∈ Tables.keys, f.name ∈ failed ∨ s.text f = "" ∨ ∃ key, decodeKey? (s.text f) = some key := by
  simp only [undecodable, List.map_eq_nil_iff, List.filter_eq_nil_iff, Bool.and_eq_true, decide_eq_true_eq,
    not_and, Bool.not_eq_true, Option.isNone_eq_false_iff, Option.isSome_iff_exists]
  refine forall₂_congr fun f _ => ?_
  by_cases reported : f.name ∈ failed <;> by_cases empty : s.text f = "" <;> simp [reported, empty]

/-- Nothing is found exactly if every pattern matches and every key can be decoded. -/
theorem problems_eq_nil {patterns : List (String × Pattern)} :
    problems s patterns = .ok [] ↔
      (∀ entry ∈ patterns, ∃ value, s.get entry.1 = .ok value ∧ entry.2.matches? value = true) ∧
        ∀ f ∈ Tables.keys, s.text f = "" ∨ ∃ key, decodeKey? (s.text f) = some key := by
  rw [← mismatches_eq_nil, problems]
  cases mismatches s patterns with
  | error e => simp [bind, Except.bind]
  | ok found =>
    simp only [bind, Except.bind, pure, Except.pure, Except.ok.injEq, List.append_eq_nil_iff]
    constructor
    · rintro ⟨rfl, decodable⟩
      exact ⟨rfl, by simpa using undecodable_eq_nil.mp decodable⟩
    · rintro ⟨rfl, decodable⟩
      exact ⟨rfl, undecodable_eq_nil.mpr (by simpa using decodable)⟩

/-- Validation gets to its end only if every value can be told. -/
theorem get_of_mismatches {patterns : List (String × Pattern)} {found : List Problem}
    (h : mismatches s patterns = .ok found) : ∀ entry ∈ patterns, ∃ value, s.get entry.1 = .ok value := by
  induction patterns generalizing found with
  | nil => simp
  | cons entry rest ih =>
    rw [mismatches_cons] at h
    cases first : s.get entry.1 with
    | error e =>
      rw [first] at h
      cases h
    | ok value =>
      cases later : mismatches s rest with
      | error e =>
        rw [first, later] at h
        cases h
      | ok more => exact List.forall_mem_cons.mpr ⟨⟨value, first⟩, ih later⟩

/-- A leaf whose text cannot be told is the number, and too large. -/
theorem leafText_failed {l : Leaf} {e : Error} (h : s.leafText l = .error e) :
    Whole.isWritable s.maxParallelTasks = false ∧ e = .number .tooLarge := by
  cases l with
  | maxParallelTasks =>
    have number : (Whole.text s.maxParallelTasks).mapError Error.number = .error e := h
    rw [Whole.text] at number
    split at number
    · cases number
    · next tooLarge =>
      cases number
      exact ⟨by simpa using tooLarge, rfl⟩
  | _ => cases h

/-- The patterns are broken off only by a value that cannot be told. -/
theorem mismatches_failed {patterns : List (String × Pattern)} {e : Error} (h : mismatches s patterns = .error e) :
    ∃ entry ∈ patterns, s.get entry.1 = .error e := by
  induction patterns with
  | nil => cases h
  | cons entry rest ih =>
    rw [mismatches_cons] at h
    cases first : s.get entry.1 with
    | error fault =>
      rw [first] at h
      cases h
      exact ⟨entry, List.mem_cons_self, first⟩
    | ok value =>
      rw [first] at h
      cases later : mismatches s rest with
      | error fault =>
        rw [later] at h
        cases h
        obtain ⟨other, mem, failed⟩ := ih later
        exact ⟨other, List.mem_cons_of_mem entry mem, failed⟩
      | ok more =>
        rw [later] at h
        cases h

/-- Patterns over leaves are broken off only by the number, if it is too large. -/
theorem problems_failed {patterns : List (String × Pattern)} {e : Error}
    (leaves : ∀ entry ∈ patterns, ∃ l, Leaf.ofPath entry.1 = .ok l) (h : problems s patterns = .error e) :
    Whole.isWritable s.maxParallelTasks = false ∧ e = .number .tooLarge := by
  have broken : mismatches s patterns = .error e := by
    rw [problems] at h
    cases matched : mismatches s patterns with
    | error fault =>
      rw [matched] at h
      cases h
      rfl
    | ok found =>
      rw [matched] at h
      cases h
  obtain ⟨entry, mem, failed⟩ := mismatches_failed broken
  obtain ⟨l, leaf⟩ := leaves entry mem
  rw [Settings.get, leaf] at failed
  exact leafText_failed failed

/-- A validation over leaves is broken off only by a port that is final and lacks its colon, or by the number. -/
theorem validate_failed {patterns : List (String × Pattern)} {e : Error}
    (leaves : ∀ entry ∈ patterns, ∃ l, Leaf.ofPath entry.1 = .ok l) (h : validate patterns s = (.error e, t)) :
    (s.frozen = true ∧ e = .frozen "port") ∨ (Whole.isWritable s.maxParallelTasks = false ∧ e = .number .tooLarge) := by
  rw [validate_apply] at h
  rcases port : correctPort s with ⟨fault | ⟨⟩, u⟩
  · rw [port] at h
    cases h
    rw [correctPort_apply] at port
    split at port
    · cases port
    · split at port
      · next final =>
        cases port
        exact .inl ⟨final, rfl⟩
      · cases port
  · have same : u.maxParallelTasks = s.maxParallelTasks := correctPort_ok port .maxParallelTasks
    rw [port] at h
    obtain ⟨tooLarge, number⟩ := problems_failed leaves (Prod.mk.inj h).1
    exact .inr ⟨same ▸ tooLarge, number⟩

/-- The pattern of a leaf is among those that are checked. -/
theorem mem_tablePatterns {l : Leaf} {pattern : Pattern} (h : (l, pattern) ∈ Tables.patterns) :
    (l.path, pattern) ∈ tablePatterns :=
  List.mem_map.mpr ⟨(l, pattern), h, rfl⟩

/-- Validation gets to its end only if the number can be written. -/
theorem writable_of_problems {found : List Problem} (h : problems s tablePatterns = .ok found) :
    Whole.isWritable s.maxParallelTasks = true := by
  have listed : ∃ pattern, (Leaf.maxParallelTasks, pattern) ∈ Tables.patterns :=
    ⟨_, by rw [Tables.patterns]; exact List.mem_of_getLast? rfl⟩
  obtain ⟨pattern, listed⟩ := listed
  unfold problems at h
  cases matched : mismatches s tablePatterns with
  | error e =>
    rw [matched] at h
    cases h
  | ok more =>
    obtain ⟨value, read⟩ := get_of_mismatches matched _ (mem_tablePatterns listed)
    rw [Settings.get_path] at read
    refine Decidable.byContradiction fun tooLarge => ?_
    have number : s.leafText .maxParallelTasks = .error (.number .tooLarge) := by
      show (Whole.text s.maxParallelTasks).mapError Error.number = _
      rw [Whole.text, if_neg tooLarge]
      rfl
    rw [number] at read
    cases read

theorem leafText_congr {l : Leaf} (same : l.read t = l.read s) : t.leafText l = s.leafText l := by
  rw [Settings.leafText, Settings.leafText, same]

/-- The text at a path is that of what a leaf of this path holds. -/
theorem get_congr {path : String} (same : ∀ l : Leaf, l.path = path → l.read t = l.read s) : t.get path = s.get path := by
  rw [Settings.get, Settings.get, Leaf.ofPath]
  cases found : Leaf.ofPath? path with
  | none => rfl
  | some l => exact leafText_congr (same l (Leaf.path_of_ofPath? found))

/-- What is found depends on the values at the paths of the patterns, and on the keys. -/
theorem problems_eq_of_get {patterns : List (String × Pattern)} (get : ∀ entry ∈ patterns, t.get entry.1 = s.get entry.1)
    (text : ∀ f ∈ Tables.keys, t.text f = s.text f) : problems t patterns = problems s patterns := by
  have matched : mismatches t patterns = mismatches s patterns := by
    induction patterns with
    | nil => rfl
    | cons entry rest ih =>
      obtain ⟨first, later⟩ := List.forall_mem_cons.mp get
      rw [mismatches_cons, mismatches_cons, first, ih later]
  have decoded (failed : List String) : undecodable t failed = undecodable s failed := by
    refine congrArg _ (List.filter_congr fun f mem => ?_)
    rw [text f mem]
  simp only [problems, matched, decoded]

/-- What is found depends on the leaves only. -/
theorem problems_congr (same : ∀ l : Leaf, l.read t = l.read s) (patterns : List (String × Pattern)) :
    problems t patterns = problems s patterns :=
  problems_eq_of_get (fun _ _ => get_congr fun l _ => same l) fun f _ => same (.text f)

end Resolution

end ServerSettings
