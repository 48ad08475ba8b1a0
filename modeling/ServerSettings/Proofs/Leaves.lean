import ServerSettings.Settings.Freezing
import ServerSettings.Settings.Leaf

/-!
Leaves as lenses, and what lies outside of them.

* `read_write_self`, `read_write_of_ne`: a written leaf holds what was written, and every other leaf what
  it held;
* `Amended`: the settings differ at most in leaves whose group is open; maps, lists and marks are the same;
* `Amended.eq_of_final`: settings with every leaf closed cannot be amended.
-/

namespace ServerSettings

namespace Leaf

theorem read_write_self (s : Settings) (l : Leaf) (v : l.kind.Content) : read (write s l v) l = v := by
  cases l with
  | database d f =>
    show (replaceAt s.database d _ d).text f = v
    rw [replaceAt_self]
    exact replaceAt_self _ _ _
  | mapping f => exact replaceAt_self _ _ _
  | text f => exact replaceAt_self _ _ _
  | flag f => exact replaceAt_self _ _ _
  | maxParallelTasks => rfl

theorem read_write_of_ne (s : Settings) {l m : Leaf} (v : l.kind.Content) (h : m ≠ l) :
    read (write s l v) m = read s m := by
  cases l with
  | database d f =>
    cases m with
    | database d' f' =>
      show (replaceAt s.database d _ d').text f' = (s.database d').text f'
      by_cases same : d' = d
      · subst same
        have other : f' ≠ f := fun eq => h (by rw [eq])
        rw [replaceAt_self]
        exact replaceAt_of_ne _ _ other
      · rw [replaceAt_of_ne _ _ same]
    | _ => rfl
  | mapping f =>
    cases m with
    | mapping f' => exact replaceAt_of_ne _ _ fun eq => h (by rw [eq])
    | _ => rfl
  | text f =>
    cases m with
    | text f' => exact replaceAt_of_ne _ _ fun eq => h (by rw [eq])
    | _ => rfl
  | flag f =>
    cases m with
    | flag f' => exact replaceAt_of_ne _ _ fun eq => h (by rw [eq])
    | _ => rfl
  | maxParallelTasks =>
    cases m with
    | maxParallelTasks => exact absurd rfl h
    | _ => rfl

end Leaf

/-- The same maps, lists and marks. -/
structure Settings.Framed (s t : Settings) : Prop where
  options : ∀ d, (t.database d).options = (s.database d).options
  databaseMark : ∀ d, (t.database d).frozen = (s.database d).frozen
  mappingsMark : t.mappings.frozen = s.mappings.frozen
  providers : t.providers = s.providers
  mark : t.frozen = s.frozen

namespace Settings.Framed

variable {s t u : Settings}

theorem refl (s : Settings) : Framed s s :=
  ⟨fun _ => rfl, fun _ => rfl, rfl, rfl, rfl⟩

theorem trans (h : Framed s t) (k : Framed t u) : Framed s u where
  options d := (k.options d).trans (h.options d)
  databaseMark d := (k.databaseMark d).trans (h.databaseMark d)
  mappingsMark := k.mappingsMark.trans h.mappingsMark
  providers := k.providers.trans h.providers
  mark := k.mark.trans h.mark

theorem isFinal_eq (h : Framed s t) (l : Leaf) : l.isFinal t = l.isFinal s := by
  cases l with
  | database d f => exact h.databaseMark d
  | mapping f => exact h.mappingsMark
  | _ => exact h.mark

theorem write (s : Settings) (l : Leaf) (v : l.kind.Content) : Framed s (l.write s v) := by
  cases l with
  | database d f =>
    refine ⟨fun d' => ?_, fun d' => ?_, rfl, rfl, rfl⟩ <;> simp only [Leaf.write, replaceAt] <;> split
    · next eq => rw [eq]
    · rfl
    · next eq => rw [eq]
    · rfl
  | _ => exact ⟨fun _ => rfl, fun _ => rfl, rfl, rfl, rfl⟩

/-- Leaves, maps, lists and marks are all there is. -/
theorem eq_of_read (h : Framed s t) (leaves : ∀ l : Leaf, l.read t = l.read s) : t = s := by
  have database : t.database = s.database := by
    funext d
    have text : (t.database d).text = (s.database d).text := funext fun f => leaves (.database d f)
    have options := h.options d
    have mark := h.databaseMark d
    cases ht : t.database d
    cases hs : s.database d
    simp_all
  have mappings : t.mappings = s.mappings := by
    have text : t.mappings.text = s.mappings.text := funext fun f => leaves (.mapping f)
    have mark := h.mappingsMark
    cases ht : t.mappings
    cases hs : s.mappings
    simp_all
  have text : t.text = s.text := funext fun f => leaves (.text f)
  have flag : t.flag = s.flag := funext fun f => leaves (.flag f)
  have number : t.maxParallelTasks = s.maxParallelTasks := leaves .maxParallelTasks
  have providers := h.providers
  have mark := h.mark
  cases t
  cases s
  simp_all

end Settings.Framed

/-- `t` is `s` with other contents in leaves that were open. -/
structure Settings.Amended (s t : Settings) : Prop where
  frame : Framed s t
  closed : ∀ l : Leaf, l.isFinal s = true → l.read t = l.read s

namespace Settings.Amended

variable {s t u : Settings}

theorem refl (s : Settings) : Amended s s :=
  ⟨.refl s, fun _ _ => rfl⟩

theorem trans (h : Amended s t) (k : Amended t u) : Amended s u where
  frame := h.frame.trans k.frame
  closed l final := by
    have later : l.isFinal t = true := by rw [h.frame.isFinal_eq, final]
    rw [k.closed l later, h.closed l final]

theorem write {l : Leaf} (v : l.kind.Content) (isOpen : l.isFinal s = false) :
    Amended s (l.write s v) where
  frame := .write s l v
  closed m final := by
    refine Leaf.read_write_of_ne s v ?_
    intro eq
    rw [eq, isOpen] at final
    cases final

theorem eq_of_final (h : Amended s t) (final : ∀ l : Leaf, l.isFinal s = true) : t = s :=
  h.frame.eq_of_read fun l => h.closed l (final l)

theorem of_assign {l : Leaf} {v : l.kind.Content} (h : l.assign s v = .ok t) : Amended s t := by
  unfold Leaf.assign at h
  split at h
  · cases h
  · next isOpen =>
    cases h
    exact write v (by simpa using isOpen)

end Settings.Amended

end ServerSettings
