import ServerSettings.Files.Tree

/-!
# What operations do to files

A machine makes directories only where there is nothing, and writes to a file that is there or to one that it makes in
a directory that is there.

* `Widened`: the same files and links, and directories in new places besides;
* `Stored`: the same but for one file, which was written;
* `find_of_write`: the name that was written to leads to that file;
* `makeDirectory_widened`, `write_ok`, `write_refused`: what an operation of the machine comes to.
-/

namespace ServerSettings

namespace FileTree

theorem node?_put (t : FileTree) (place other : List String) (node : Node) :
    (t.put place node).node? other =
      if other = [] then some .directory else if other = place then some node else t.node? other := by
  unfold node?
  cases other with
  | nil => rfl
  | cons part parts =>
    simp only [List.isEmpty_cons, Bool.false_eq_true, if_false, reduceCtorEq]
    induction t with
    | nil => by_cases same : part :: parts = place <;> simp [put, same, Ne.symm]
    | cons entry rest ih =>
      obtain ⟨p, n⟩ := entry
      by_cases here : p = place
      · subst here
        by_cases same : part :: parts = p
        · simp [put, same]
        · simp [put, same, Ne.symm same]
      · by_cases there : p = part :: parts
        · have other : part :: parts ≠ place := there ▸ here
          simp [put, there, other]
        · simp only [put, here, if_false]
          rw [List.find?_cons_of_neg (by simpa using there), ih, List.find?_cons_of_neg (by simpa using there)]

/-- Nothing differs, but that there are directories where there was nothing. -/
def Widened (t t' : FileTree) : Prop :=
  ∀ place, t'.node? place = t.node? place ∨ t.node? place = none ∧ t'.node? place = some .directory

/-- One file was written, in place of what it held or where there was nothing. Nothing else differs, but that there are
directories where there was nothing. -/
structure Stored (t t' : FileTree) (place : List String) (content : List UInt8) : Prop where
  before : t.node? place = none ∨ ∃ old, t.node? place = some (.file old)
  after : t'.node? place = some (.file content)
  others : ∀ other, other ≠ place →
    t'.node? other = t.node? other ∨ t.node? other = none ∧ t'.node? other = some .directory

namespace Widened

variable {t t' t'' : FileTree}

theorem refl (t : FileTree) : Widened t t :=
  fun _ => .inl rfl

theorem trans (h : Widened t t') (k : Widened t' t'') : Widened t t'' := by
  intro place
  rcases k place with same | ⟨absent, made⟩
  · rw [same]
    exact h place
  · rcases h place with same | ⟨_, present⟩
    · exact .inr ⟨same ▸ absent, made⟩
    · rw [present] at absent
      cases absent

theorem put {place : List String} (free : t.node? place = none) : Widened t (t.put place .directory) := by
  intro other
  rw [node?_put]
  by_cases root : other = []
  · subst root
    exact .inl rfl
  · by_cases same : other = place
    · subst same
      exact .inr ⟨free, by simp [root]⟩
    · exact .inl (by simp [root, same])

/-- Nothing that was there is lost. -/
theorem kept {place : List String} {node : Node} (h : Widened t t') (there : t.node? place = some node) :
    t'.node? place = some node := by
  rcases h place with same | ⟨absent, _⟩
  · exact same.trans there
  · rw [there] at absent
    cases absent

/-- A file is written after directories were made. -/
theorem stored {place : List String} {content : List UInt8} (h : Widened t t') (k : Stored t' t'' place content) :
    Stored t t'' place content where
  before := by
    rcases h place with same | ⟨_, directory⟩
    · exact same ▸ k.before
    · rcases k.before with absent | ⟨old, present⟩
      · rw [directory] at absent
        cases absent
      · rw [directory] at present
        cases present
  after := k.after
  others other apart := by
    rcases k.others other apart with same | ⟨absent, made⟩
    · rw [same]
      exact h other
    · rcases h other with same | ⟨_, present⟩
      · exact .inr ⟨same ▸ absent, made⟩
      · rw [present] at absent
        cases absent

end Widened

/-- A link stays, also one that leads to what is written. -/
theorem Stored.link_kept {t t' : FileTree} {place other : List String} {content : List UInt8} {target : String}
    (h : Stored t t' place content) (link : t.node? other = some (.link target)) :
    t'.node? other = some (.link target) := by
  have apart : other ≠ place := by
    rintro rfl
    rcases h.before with absent | ⟨_, file⟩
    · rw [link] at absent
      cases absent
    · rw [link] at file
      cases file
  rcases h.others other apart with same | ⟨absent, _⟩
  · exact same.trans link
  · rw [link] at absent
    cases absent

section Walks

variable {t : FileTree} {fuel links : Nat} {directory parts place : List String} {node : Option Node}

/-- A walk ends in a directory, or at what is under a name. That is a link only where links are not followed. -/
theorem walk_ok {purpose : Purpose} (h : t.walk purpose fuel links directory parts = .ok ⟨place, node⟩) :
    node = some .directory ∨ place ≠ [] ∧ t.node? place = node ∧
      (purpose ≠ .makeDirectory → ∀ target, node ≠ some (.link target)) := by
  induction fuel generalizing links directory parts with
  | zero => cases h
  | succ fuel ih =>
    cases parts with
    | nil =>
      cases h
      exact .inl rfl
    | cons part rest =>
      simp only [walk] at h
      split at h
      · exact ih h
      split at h
      · exact ih h
      split at h
      · cases h
      split at h
      · cases h
      split at h
      · next absent =>
        split at h
        · cases h
          exact .inr ⟨by simp, absent, fun _ _ => by simp⟩
        · cases h
      · exact ih h
      · next content present =>
        split at h
        · cases h
          exact .inr ⟨by simp, present, fun _ _ => by simp⟩
        · cases h
      · next target present =>
        split at h
        · next last =>
          cases h
          exact .inr ⟨by simp, present, fun followed => absurd last.2 followed⟩
        split at h
        · cases h
        split at h
        · cases h
        · exact ih h

/-- A walk to a file that is written, or made, leads to that file afterwards: on its way are directories and links
only. -/
theorem walk_put {content : List UInt8} (h : t.walk .write fuel links directory parts = .ok ⟨place, node⟩)
    (plain : node ≠ some .directory) :
    (t.put place (.file content)).walk .look fuel links directory parts = .ok ⟨place, some (.file content)⟩ := by
  have ends := (walk_ok h).resolve_left plain
  obtain ⟨below, found, no_link⟩ := ends
  have no_link := no_link (by decide)
  induction fuel generalizing links directory parts with
  | zero => cases h
  | succ fuel ih =>
    cases parts with
    | nil =>
      cases h
      exact absurd rfl plain
    | cons part rest =>
      have inner : directory ++ [part] ≠ [] := by simp
      simp only [walk, node?_put, inner, if_false] at h ⊢
      split at h
      · next skipped => simpa only [skipped, if_true] using ih h
      next kept =>
      split at h
      · next up =>
        simp only [up, if_true]
        exact ih h
      next down =>
      split at h
      · cases h
      split at h
      · cases h
      next short =>
      simp only [kept, down, short, if_false, reduceCtorEq, false_and, Bool.false_eq_true]
      split at h
      · next absent =>
        split at h
        · next last =>
          cases h
          simp [last]
        · cases h
      · next directory_there =>
        have apart : directory ++ [part] ≠ place := by
          rintro rfl
          exact plain (found.symm.trans directory_there)
        simp only [apart, if_false, directory_there]
        exact ih h
      · next old present =>
        split at h
        · next last =>
          cases h
          simp [last]
        · cases h
      · next target link =>
        have apart : directory ++ [part] ≠ place := by
          rintro rfl
          exact no_link target (found.symm.trans link)
        simp only [apart, if_false, link]
        split at h
        · next unfollowed => cases unfollowed.2
        split at h
        · cases h
        next more =>
        split at h
        · cases h
        next given =>
        simp only [more, given, and_false, if_false]
        exact ih h

end Walks

end FileTree

namespace Machine

/-- The same machine with the same files, and directories in new places besides. -/
structure Widened (k k' : Machine) : Prop where
  files : k.files.Widened k'.files
  rest : k' = { k with files := k'.files }

namespace Widened

variable {k k' k'' : Machine}

theorem refl (k : Machine) : Widened k k :=
  ⟨.refl k.files, rfl⟩

theorem trans (h : Widened k k') (l : Widened k' k'') : Widened k k'' where
  files := h.files.trans l.files
  rest := by
    rw [l.rest, h.rest]

end Widened

variable {k : Machine} {p : PathName}

theorem find_ok {purpose : FileTree.Purpose} {place : List String} {node : Option Node}
    (h : k.find purpose p = .ok ⟨place, node⟩) :
    node = some .directory ∨ place ≠ [] ∧ k.files.node? place = node ∧
      (purpose ≠ .makeDirectory → ∀ target, node ≠ some (.link target)) := by
  unfold find at h
  split at h
  · cases h
  split at h
  · split at h
    · exact FileTree.walk_ok h
    · split at h
      · cases h
        exact .inl rfl
      · cases h
  · exact FileTree.walk_ok h

/-- The name that is written to leads to what was written. -/
theorem find_of_write {place : List String} {node : Option Node} (h : k.find .write p = .ok ⟨place, node⟩)
    (plain : node ≠ some .directory) (content : List UInt8) :
    find { k with files := k.files.put place (.file content) } .look p = .ok ⟨place, some (.file content)⟩ := by
  unfold find at h ⊢
  split at h
  · cases h
  next short =>
  simp only [short, if_false]
  split at h
  · next here =>
    simp only [here, if_true]
    split at h
    · exact FileTree.walk_put h plain
    · split at h
      · cases h
        exact absurd rfl plain
      · cases h
  · next there =>
    simp only [there]
    exact FileTree.walk_put h plain

theorem makeDirectory_widened (k : Machine) (p : PathName) : Widened k (k.makeDirectory p).2 := by
  unfold makeDirectory
  split
  · exact .refl k
  · next found reached =>
    split
    · next absent =>
      obtain ⟨place, node⟩ := found
      cases absent
      have free := ((find_ok reached).resolve_left (by simp)).2.1
      exact ⟨.put free, rfl⟩
    · exact .refl k

theorem write_refused {content : List UInt8} {refusal : Refusal} (h : (k.write p content).1 = .error refusal) :
    (k.write p content).2 = k := by
  unfold write at h ⊢
  split at h
  · rfl
  · split at h
    · rfl
    · cases h

/-- What was written is the one file that differs, and the name leads to it. -/
theorem write_ok {content : List UInt8} (h : (k.write p content).1 = .ok ()) :
    ∃ place, (k.write p content).2.find .look p = .ok ⟨place, some (.file content)⟩ ∧
      k.files.Stored (k.write p content).2.files place content := by
  unfold write at h ⊢
  split at h
  · cases h
  · next found reached =>
    obtain ⟨place, node⟩ := found
    split at h
    · cases h
    · next plain =>
      have plain : node ≠ some .directory := plain
      obtain ⟨below, there, no_link⟩ := (find_ok reached).resolve_left plain
      refine ⟨place, find_of_write reached plain content, ?_, ?_, ?_⟩
      · rw [there]
        cases node with
        | none => exact .inl rfl
        | some node =>
          cases node with
          | file old => exact .inr ⟨old, rfl⟩
          | directory => exact absurd rfl plain
          | link target => exact absurd rfl (no_link (by decide) target)
      · simp [FileTree.node?_put, below]
      · intro other apart
        by_cases root : other = []
        · subst root
          exact .inl rfl
        · exact .inl (by simp [FileTree.node?_put, root, apart])

end Machine

end ServerSettings
