import ServerSettings.Proofs.Failures
import ServerSettings.Proofs.Validation

/-!
# What validation reports, and what it counts

Each problem is a report. What is counted is not the reports but the settings they are about, so the count falls short
where several patterns are put to one setting and more than one of them fails.

* `length_eraseDups_iff`: nothing is lost by dropping repetitions exactly if there are none;
* `nodup_paths_iff`: a setting is reported twice exactly if its value fails two patterns, for a key that was reported is
  not decoded any more;
* `reports_counted`: the count is that of the reports exactly if no setting fails two patterns;
* `reports_not_counted`: it is not if one does.
-/

namespace ServerSettings

section Repetitions

variable {α : Type} [DecidableEq α]

theorem eraseDups_sublist : ∀ l : List α, l.eraseDups.Sublist l
  | [] => .refl _
  | a :: rest => by
    rw [List.eraseDups_cons]
    exact ((eraseDups_sublist _).trans List.filter_sublist).cons_cons a
termination_by l => l.length
decreasing_by exact Nat.lt_succ_of_le (List.length_filter_le _ _)

theorem nodup_eraseDups : ∀ l : List α, l.eraseDups.Nodup
  | [] => List.nodup_nil
  | a :: rest => by
    rw [List.eraseDups_cons]
    refine List.nodup_cons.mpr ⟨fun again => ?_, nodup_eraseDups _⟩
    have kept := (List.mem_filter.mp (List.mem_eraseDups.mp again)).2
    simp at kept
termination_by l => l.length
decreasing_by exact Nat.lt_succ_of_le (List.length_filter_le _ _)

theorem eraseDups_of_nodup {l : List α} (once : l.Nodup) : l.eraseDups = l := by
  induction l with
  | nil => rfl
  | cons a rest ih =>
    obtain ⟨fresh, once⟩ := List.nodup_cons.mp once
    have others : rest.filter (fun b => !b == a) = rest := by
      refine List.filter_eq_self.mpr fun b mem => ?_
      have other : b ≠ a := fun same => fresh (same ▸ mem)
      simpa using other
    rw [List.eraseDups_cons, others, ih once]

theorem length_eraseDups_iff {l : List α} : l.eraseDups.length = l.length ↔ l.Nodup := by
  constructor
  · intro same
    rw [← (eraseDups_sublist l).eq_of_length same]
    exact nodup_eraseDups l
  · intro once
    rw [eraseDups_of_nodup once]

end Repetitions

namespace Resolution

variable {s t : Settings} {patterns : List (String × Pattern)} {found : List Problem}

/-- Does the value at a path fail a pattern that is put to it? -/
def fails (s : Settings) (entry : String × Pattern) : Bool :=
  match s.get entry.1 with
  | .ok value => !entry.2.matches? value
  | .error _ => false

theorem mismatch?_path (path value : String) (pattern : Pattern) :
    (mismatch? path value pattern).toList.map (·.path) = if pattern.matches? value then [] else [path] := by
  rw [mismatch?]
  cases pattern.matches? value with
  | true => rfl
  | false => cases isSecretPath path <;> rfl

/-- One report for each pattern that fails, about its path. -/
theorem mismatches_path (h : mismatches s patterns = .ok found) :
    found.map (·.path) = (patterns.filter (fails s)).map (·.1) := by
  induction patterns generalizing found with
  | nil =>
    cases h
    rfl
  | cons entry rest ih =>
    obtain ⟨path, pattern⟩ := entry
    rw [mismatches_cons] at h
    cases read : s.get path with
    | error e =>
      rw [read] at h
      cases h
    | ok value =>
      rw [read] at h
      obtain ⟨more, later, rfl⟩ := map_ok h
      have told : fails s (path, pattern) = !pattern.matches? value := by rw [fails, read]
      rw [List.map_append, ih later, mismatch?_path, List.filter_cons, told]
      cases pattern.matches? value <;> rfl

theorem undecodable_path (s : Settings) (failed : List String) :
    ((undecodable s failed).map (·.path)).Nodup ∧ ∀ path ∈ (undecodable s failed).map (·.path), path ∉ failed := by
  have names : (Tables.keys.map (·.name)).Nodup := by decide +kernel
  rw [undecodable, List.map_map]
  refine ⟨names.sublist (List.filter_sublist.map _), fun path mem => ?_⟩
  obtain ⟨f, kept, rfl⟩ := List.mem_map.mp mem
  have conditions := (List.mem_filter.mp kept).2
  simp only [Bool.and_eq_true, decide_eq_true_eq] at conditions
  exact conditions.1.1

/-- A setting is reported twice exactly if its value fails two patterns. -/
theorem nodup_paths_iff (h : problems s patterns = .ok found) :
    (found.map (·.path)).Nodup ↔ ((patterns.filter (fails s)).map (·.1)).Nodup := by
  obtain ⟨matched, read, h⟩ := bind_ok h
  cases h
  obtain ⟨once, apart⟩ := undecodable_path s (matched.map (·.path))
  rw [List.map_append, List.nodup_append, ← mismatches_path read]
  constructor
  · exact fun parts => parts.1
  · intro single
    refine ⟨single, once, fun path mem other later same => ?_⟩
    rw [← same] at later
    exact apart path later mem

/-- Validation counts the settings it reports, which are never more than its reports, and as many exactly if no setting
fails two of the patterns that are put to it; so they are as many if no two patterns are about one setting. Unfrozen
settings whose number can be written are validated to the end, whatever patterns are put to their leaves. -/
theorem reports_counted (s : Settings) (patterns : List (String × Pattern)) :
    (∀ found t, validate patterns s = (.ok found, t) →
      countFailed found ≤ found.length ∧
      (countFailed found = found.length ↔ ((patterns.filter (fails t)).map (·.1)).Nodup) ∧
      ((patterns.map (·.1)).Nodup → countFailed found = found.length)) ∧
    (s.frozen = false → Whole.isWritable s.maxParallelTasks = true →
      (∀ entry ∈ patterns, ∃ l : Leaf, entry.1 = l.path) → ∃ found t, validate patterns s = (.ok found, t)) := by
  constructor
  · intro found t validated
    obtain ⟨_, listed⟩ := validate_ok validated
    have all : (found.map (·.path)).length = found.length := List.length_map ..
    have exact_iff : countFailed found = found.length ↔ ((patterns.filter (fails t)).map (·.1)).Nodup := by
      rw [countFailed, ← nodup_paths_iff listed, ← length_eraseDups_iff, all]
    refine ⟨?_, exact_iff, fun once => exact_iff.mpr (once.sublist (List.filter_sublist.map _))⟩
    rw [countFailed, ← all]
    exact (eraseDups_sublist _).length_le
  · intro isOpen short leaves
    obtain ⟨t, port⟩ := correctPort_open isOpen
    have same : t.maxParallelTasks = s.maxParallelTasks := correctPort_ok port .maxParallelTasks
    have read : ∀ entry ∈ patterns, ∃ l, Leaf.ofPath entry.1 = .ok l := by
      intro entry mem
      obtain ⟨l, path⟩ := leaves entry mem
      exact ⟨l, by rw [path, l.ofPath_path]⟩
    obtain ⟨found, listed⟩ := problems_ok (same ▸ short) read
    refine ⟨found, t, ?_⟩
    rw [validate_apply, port]
    simp only [listed]

/-- At least one small letter. -/
def smallLetters : Pattern := ⟨[[.run [('a', 'z')] 1 none]]⟩

theorem reports_counted_different : ∃ found t,
    validate [("git_client", smallLetters), ("web_host", smallLetters)] {} = (.ok found, t) ∧
      countFailed found = found.length ∧ found.length = 2 := by
  obtain ⟨returned, counted⟩ := reports_counted {} [("git_client", smallLetters), ("web_host", smallLetters)]
  have leaves : ∀ entry ∈ [("git_client", smallLetters), ("web_host", smallLetters)], ∃ l : Leaf, entry.1 = l.path := by
    simp only [List.forall_mem_cons, List.not_mem_nil, false_implies, implies_true, and_true]
    exact ⟨⟨.text .gitClient, rfl⟩, ⟨.text .webHost, rfl⟩⟩
  obtain ⟨found, t, validated⟩ := counted rfl (by decide +kernel) leaves
  refine ⟨found, t, validated, (returned found t validated).2.2 (by decide), ?_⟩
  have listed : (validate [("git_client", smallLetters), ("web_host", smallLetters)] {}).1.map List.length = .ok 2 := rfl
  rw [validated] at listed
  exact Except.ok.inj listed

/-- A setting that fails two patterns is reported twice and counted once. -/
theorem reports_not_counted : ∃ found,
    (validate [("git_client", smallLetters), ("git_client", smallLetters)] {}).1 = .ok found ∧
      found.length = 2 ∧ countFailed found = 1 :=
  ⟨_, rfl, rfl, by decide +kernel⟩

end Resolution

end ServerSettings
