import ServerSettings.Text.Split

/-!
# Cutting and joining

* `intercalate_split`: a text is what its pieces give when they are joined again;
* `split_joined`: pieces without the separator are what their joined text is cut into;
* `mem_of_mem_split`, `not_mem_of_mem_split`: the pieces of a text hold characters of it, but never the separator.
-/

namespace ServerSettings.Text

variable {sep : Char}

theorem intercalate_split (sep : Char) (cs : List Char) : [sep].intercalate (split sep cs) = cs := by
  induction cs with
  | nil => rfl
  | cons c rest ih =>
    rw [split]
    obtain ⟨piece, pieces, pieces_eq⟩ := List.exists_cons_of_ne_nil (split_ne_nil sep rest)
    rw [pieces_eq] at ih ⊢
    split
    · next same =>
      rw [List.intercalate_cons_cons, ih, same]
      rfl
    · cases pieces with
      | nil =>
        rw [List.intercalate_singleton] at ih ⊢
        rw [ih]
      | cons next more =>
        rw [List.intercalate_cons_cons] at ih ⊢
        rw [← ih]
        rfl

theorem split_of_not_mem {cs : List Char} (free : sep ∉ cs) : split sep cs = [cs] := by
  induction cs with
  | nil => rfl
  | cons c rest ih =>
    obtain ⟨other, free⟩ := List.ne_and_not_mem_of_not_mem_cons free
    rw [split, if_neg (Ne.symm other), ih free]

theorem split_append {cs : List Char} (free : sep ∉ cs) (rest : List Char) :
    split sep (cs ++ sep :: rest) = cs :: split sep rest := by
  induction cs with
  | nil => rw [List.nil_append, split, if_pos rfl]
  | cons c more ih =>
    obtain ⟨other, free⟩ := List.ne_and_not_mem_of_not_mem_cons free
    rw [List.cons_append, split, if_neg (Ne.symm other), ih free]

/-- Pieces without the separator are what their joined text is cut into. -/
theorem split_joined {lines : List (List Char)} (some_lines : lines ≠ []) (free : ∀ line ∈ lines, sep ∉ line) :
    split sep ([sep].intercalate lines) = lines := by
  induction lines with
  | nil => exact absurd rfl some_lines
  | cons line rest ih =>
    obtain ⟨here, later⟩ := List.forall_mem_cons.mp free
    cases rest with
    | nil =>
      rw [List.intercalate_singleton]
      exact split_of_not_mem here
    | cons next more =>
      rw [List.intercalate_cons_cons, List.append_assoc, List.singleton_append, split_append here,
        ih (List.cons_ne_nil next more) later]

theorem mem_intercalate {pieces : List (List Char)} {c : Char} (mem : c ∈ [sep].intercalate pieces) :
    c = sep ∨ ∃ piece ∈ pieces, c ∈ piece := by
  induction pieces with
  | nil => cases mem
  | cons piece rest ih =>
    cases rest with
    | nil =>
      rw [List.intercalate_singleton] at mem
      exact .inr ⟨piece, List.mem_cons_self, mem⟩
    | cons next more =>
      rw [List.intercalate_cons_cons, List.mem_append, List.mem_append, List.mem_singleton] at mem
      rcases mem with (here | between) | later
      · exact .inr ⟨piece, List.mem_cons_self, here⟩
      · exact .inl between
      · exact (ih later).imp_right fun ⟨other, inside, here⟩ => ⟨other, List.mem_cons_of_mem piece inside, here⟩

theorem mem_of_mem_split {cs piece : List Char} (cut : piece ∈ split sep cs) {c : Char} (mem : c ∈ piece) : c ∈ cs := by
  induction cs generalizing piece with
  | nil => simp_all [split]
  | cons d rest ih =>
    obtain ⟨first, others, pieces⟩ := List.exists_cons_of_ne_nil (split_ne_nil sep rest)
    rw [split, pieces] at cut
    rw [pieces] at ih
    split at cut
    · rcases List.mem_cons.mp cut with rfl | later
      · cases mem
      · exact List.mem_cons_of_mem d (ih later mem)
    · rcases List.mem_cons.mp cut with rfl | later
      · exact (List.mem_cons.mp mem).elim (fun same => same ▸ List.mem_cons_self) fun inside =>
          List.mem_cons_of_mem d (ih List.mem_cons_self inside)
      · exact List.mem_cons_of_mem d (ih (List.mem_cons_of_mem first later) mem)

/-- No piece of a text holds the separator. -/
theorem not_mem_of_mem_split (cs : List Char) : ∀ piece ∈ split sep cs, sep ∉ piece := by
  induction cs with
  | nil => simp [split]
  | cons c rest ih =>
    obtain ⟨piece, pieces, pieces_eq⟩ := List.exists_cons_of_ne_nil (split_ne_nil sep rest)
    rw [pieces_eq] at ih
    obtain ⟨first, others⟩ := List.forall_mem_cons.mp ih
    rw [split, pieces_eq]
    split
    · exact List.forall_mem_cons.mpr ⟨List.not_mem_nil, ih⟩
    · next other => exact List.forall_mem_cons.mpr ⟨by simp [Ne.symm other, first], others⟩

end ServerSettings.Text
