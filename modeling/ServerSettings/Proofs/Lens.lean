import ServerSettings.Proofs.Canonical
import ServerSettings.Proofs.Operations

/-!
# Leaves by path

Paths lead to leaves that do not overlap, and setting a leaf fits the value, then checks the mark, then writes.

* `Leaf.write_write`, `Leaf.write_read`, `Leaf.write_comm`: the laws of writing contents;
* `Settings.set_of_open`: on open settings, setting is fitting and writing;
* `Settings.Lens`: the laws of setting values by path;
* `Settings.set_lawful`: open settings obey them, and what is refused or does not fit changes nothing.
-/

namespace ServerSettings

open Settings (Framed)

theorem Settings.Framed.symm {s t : Settings} (h : Framed s t) : Framed t s where
  options d := (h.options d).symm
  databaseMark d := (h.databaseMark d).symm
  mappingsMark := h.mappingsMark.symm
  providers := h.providers.symm
  mark := h.mark.symm

namespace Leaf

variable (s : Settings)

/-- The last content of a leaf counts. -/
theorem write_write (l : Leaf) (v w : l.kind.Content) : write (write s l v) l w = write s l w := by
  have framed : Framed (write s l w) (write (write s l v) l w) :=
    (Framed.write s l w).symm.trans ((Framed.write s l v).trans (Framed.write (write s l v) l w))
  apply framed.eq_of_read
  intro m
  by_cases same : m = l
  · subst same
    rw [read_write_self, read_write_self]
  · rw [read_write_of_ne _ _ same, read_write_of_ne _ _ same, read_write_of_ne _ _ same]

/-- Writing what a leaf holds changes nothing. -/
theorem write_read (l : Leaf) : write s l (read s l) = s := by
  apply (Framed.write s l (read s l)).eq_of_read
  intro m
  by_cases same : m = l
  · subst same
    rw [read_write_self]
  · rw [read_write_of_ne _ _ same]

/-- Different leaves can be written in either order. -/
theorem write_comm {l m : Leaf} (other : l ≠ m) (v : l.kind.Content) (w : m.kind.Content) :
    write (write s l v) m w = write (write s m w) l v := by
  have framed : Framed (write (write s m w) l v) (write (write s l v) m w) :=
    ((Framed.write s m w).trans (Framed.write (write s m w) l v)).symm.trans
      ((Framed.write s l v).trans (Framed.write (write s l v) m w))
  apply framed.eq_of_read
  intro n
  by_cases first : n = l
  · subst first
    rw [read_write_of_ne _ _ other, read_write_self, read_write_self]
  · rw [read_write_of_ne _ v first]
    by_cases second : n = m
    · subst second
      rw [read_write_self, read_write_self]
    · rw [read_write_of_ne _ _ second, read_write_of_ne _ _ first, read_write_of_ne _ _ second]

end Leaf

theorem Leaf.title_of_ofPath {path : String} {e : Error} (h : ofPath path = .error e) : e.title = "SchemaError" := by
  unfold ofPath at h
  cases found : ofPath? path with
  | some l =>
    rw [found] at h
    cases h
  | none =>
    rw [found] at h
    cases h
    rfl

namespace Settings

variable {s t : Settings} {l m : Leaf}

/-- On open settings, setting is fitting and writing. -/
theorem set_of_open (isOpen : l.isFinal s = false) (v : Value) :
    s.set l.path v = (coerce l.path l.kind v).map (l.write s) := by
  rw [set_eq, l.ofPath_path]
  exact setLeaf_of_open isOpen v

theorem set_ok (isOpen : l.isFinal s = false) {v : Value} (h : s.set l.path v = .ok t) :
    ∃ content, coerce l.path l.kind v = .ok content ∧ t = l.write s content := by
  rw [set_of_open isOpen] at h
  obtain ⟨content, fits, same⟩ := map_ok h
  exact ⟨content, fits, same.symm⟩

/-- The settings after a set: written if the value fits, and otherwise the same. -/
theorem after_set (isOpen : l.isFinal s = false) (v : Value) : (Operation.set l.path v).after s =
    match coerce l.path l.kind v with
    | .ok content => l.write s content
    | .error _ => s := by
  show (Edit.change (·.set l.path v) s).2 = _
  rw [Edit.change, set_of_open isOpen]
  cases coerce l.path l.kind v <;> rfl

theorem isFinal_after_set (isOpen : m.isFinal s = false) (v : Value) (l : Leaf) :
    l.isFinal ((Operation.set m.path v).after s) = l.isFinal s := by
  rw [after_set isOpen]
  cases coerce m.path m.kind v with
  | error e => rfl
  | ok content => exact (Framed.write s m content).isFinal_eq l

theorem leafText_render {text : String} : s.leafText l = .ok text ↔ l.kind.render (l.read s) = .ok text := by
  rw [leafText]
  cases l.kind.render (l.read s) <;> simp [Except.mapError]

/-- What setting leaves by their paths does to settings. Values are of any type; whole numbers and numerals in them are
short enough to be converted. -/
structure Lens (s : Settings) : Prop where
  /-- Only what has no canonical text for a leaf is turned down. -/
  set_ok_iff : ∀ (l : Leaf) (v : Value), v.IsShort →
    ((∃ t, s.set l.path v = .ok t) ↔ ∃ shown, l.kind.Canonical v shown)
  /-- What is set is read as its canonical text. -/
  get_set : ∀ (l : Leaf) (v : Value) (t : Settings), (∀ n, v = .int n → Whole.isWritable n = true) →
    s.set l.path v = .ok t → ∃ text, t.get l.path = .ok text ∧ ∀ shown, l.kind.Canonical v shown ↔ shown = text
  /-- Every other leaf, and every map, list and mark, is as it was. -/
  get_set_of_ne : ∀ (l : Leaf) (v : Value) (t : Settings), s.set l.path v = .ok t →
    s.Framed t ∧ ∀ m : Leaf, m ≠ l → t.get m.path = s.get m.path
  /-- Setting what is read changes nothing. -/
  set_get : ∀ l : Leaf, ∃ text, s.get l.path = .ok text ∧ s.set l.path (.text text) = .ok s
  /-- The last value counts, whether the first one fits or not. -/
  set_set : ∀ (l : Leaf) (v w : Value), ((Operation.set l.path v).after s).set l.path w = s.set l.path w
  /-- Different leaves can be set in either order. -/
  set_comm : ∀ (l m : Leaf) (v w : Value), l ≠ m →
    (Operation.set m.path w).after ((Operation.set l.path v).after s) =
      (Operation.set l.path v).after ((Operation.set m.path w).after s)

theorem lens_of_fresh (fresh : s.Fresh) : s.Lens where
  set_ok_iff l v short := by
    constructor
    · rintro ⟨t, done⟩
      obtain ⟨content, fits, -⟩ := set_ok (fresh.isOpen l) done
      obtain ⟨text, -, canonical⟩ := coerce_rendered (fun n integer => short.isWritable integer) fits
      exact ⟨text, (canonical text).mpr rfl⟩
    · rintro ⟨shown, canonical⟩
      obtain ⟨content, fits⟩ : ∃ content, coerce l.path l.kind v = .ok content :=
        coerce_of_canonical short canonical
      rw [set_of_open (fresh.isOpen l), fits]
      exact ⟨_, rfl⟩
  get_set l v t writable done := by
    obtain ⟨content, fits, rfl⟩ := set_ok (fresh.isOpen l) done
    obtain ⟨text, rendered, canonical⟩ := coerce_rendered writable fits
    refine ⟨text, ?_, canonical⟩
    rw [get_path, leafText_render, Leaf.read_write_self]
    exact rendered
  get_set_of_ne l v t done := by
    obtain ⟨content, -, rfl⟩ := set_ok (fresh.isOpen l) done
    refine ⟨Framed.write s l content, fun m other => ?_⟩
    rw [get_path, get_path, leafText, leafText, Leaf.read_write_of_ne s content other]
  set_get l := by
    obtain ⟨text, told⟩ := leafText_ok fresh.short l
    refine ⟨text, by rw [get_path, told], ?_⟩
    rw [set_of_open (fresh.isOpen l), coerce_render (leafText_render.mp told)]
    exact congrArg Except.ok (Leaf.write_read s l)
  set_set l v w := by
    have isOpen := fresh.isOpen l
    rw [set_of_open ((isFinal_after_set isOpen v l).trans isOpen), set_of_open isOpen, after_set isOpen]
    cases coerce l.path l.kind v with
    | error e => rfl
    | ok content =>
      cases coerce l.path l.kind w with
      | error e => rfl
      | ok later => exact congrArg Except.ok (Leaf.write_write s l content later)
  set_comm l m v w other := by
    have first := fresh.isOpen l
    have second := fresh.isOpen m
    rw [after_set ((isFinal_after_set first v m).trans second), after_set ((isFinal_after_set second w l).trans first),
      after_set first, after_set second]
    cases coerce l.path l.kind v with
    | error e => cases coerce m.path m.kind w <;> rfl
    | ok content =>
      cases coerce m.path m.kind w with
      | error e => rfl
      | ok later => exact Leaf.write_comm s other content later

/-- A set that fails leaves the settings as they were. For short values it fails of the path, of the value's kind, or of
the mark. -/
theorem after_set_failed {path : String} {v : Value} {e : Error} (h : s.set path v = .error e) :
    (Operation.set path v).after s = s ∧
      (v.IsShort → e.title ∈ ["SchemaError", "CoercionError", "FrozenInstanceError"]) := by
  constructor
  · show (Edit.change (·.set path v) s).2 = s
    rw [Edit.change, h]
  · intro short
    rw [set_eq] at h
    cases found : Leaf.ofPath path with
    | error fault =>
      rw [found] at h
      cases h
      simp [Leaf.title_of_ofPath found]
    | ok l =>
      rw [found] at h
      simp only [setLeaf_eq] at h
      cases coerced : coerce l.path l.kind v with
      | error fault =>
        rw [coerced] at h
        cases h
        simp [title_of_coerce short coerced]
      | ok content =>
        rw [coerced] at h
        simp only [Leaf.assign] at h
        split at h
        · cases h
          simp [Error.title]
        · cases h

/-- Open settings obey the laws. On any settings, a set that fails leaves them as they were. -/
theorem set_lawful (fresh : s.Fresh) :
    s.Lens ∧ ∀ (r : Settings) (path : String) (v : Value) (e : Error), r.set path v = .error e →
      (Operation.set path v).after r = r ∧
        (v.IsShort → e.title ∈ ["SchemaError", "CoercionError", "FrozenInstanceError"]) :=
  ⟨lens_of_fresh fresh, fun _ _ _ _ h => after_set_failed h⟩

/-- A padded number is set and read without its zeros, and what is no number changes nothing. -/
theorem set_lawful_padded :
    let s : Settings := {}
    s.Fresh ∧ (∃ t, s.set "max_parallel_tasks" (.text "-007") = .ok t ∧ t.get "max_parallel_tasks" = .ok "-7" ∧
      t.get "port" = s.get "port") ∧
      ∃ e, s.set "max_parallel_tasks" (.text "7.0") = .error e ∧
        e.title ∈ ["SchemaError", "CoercionError", "FrozenInstanceError"] ∧
        (Operation.set "max_parallel_tasks" (.text "7.0")).after s = s := by
  intro s
  have fresh : s.Fresh := ⟨fun l => by cases l <;> rfl, by decide +kernel⟩
  obtain ⟨lens, failed⟩ := set_lawful fresh
  have canonical : Kind.whole.Canonical (.text "-007") "-7" :=
    ⟨"-007", rfl, by decide +kernel, ⟨by decide +kernel, by decide, by decide⟩, by decide +kernel⟩
  have short : (Value.text "-007").IsShort := ⟨"-007", rfl, fun _ => by decide +kernel⟩
  obtain ⟨t, done⟩ := (lens.set_ok_iff .maxParallelTasks _ short).mpr ⟨"-7", canonical⟩
  obtain ⟨text, told, only⟩ := lens.get_set .maxParallelTasks _ t (fun n eq => by cases eq) done
  obtain ⟨framed, others⟩ := lens.get_set_of_ne .maxParallelTasks _ t done
  rw [← (only "-7").mp canonical] at told
  have refused : s.set Leaf.maxParallelTasks.path (.text "7.0") =
      .error (.coercion Leaf.maxParallelTasks.path (.notInteger "7.0")) := by
    have unfit : coerce Leaf.maxParallelTasks.path .whole (.text "7.0") =
        .error (.coercion Leaf.maxParallelTasks.path (.notInteger "7.0")) := by
      rw [coerce_whole, if_neg (by decide +kernel)]
    rw [set_of_open (fresh.isOpen .maxParallelTasks)]
    exact congrArg (Except.map (Leaf.maxParallelTasks.write s)) unfit
  obtain ⟨same, title⟩ := failed s _ _ _ refused
  have unchanged : t.get "port" = s.get "port" := others (.text .port) (by decide)
  exact ⟨fresh, ⟨t, done, told, unchanged⟩, _, refused, title ⟨"7.0", rfl, fun h => by cases h⟩, same⟩

end Settings

end ServerSettings
