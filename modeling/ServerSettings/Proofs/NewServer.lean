import ServerSettings.Proofs.Acceptance
import ServerSettings.Proofs.Lens
import ServerSettings.Proofs.Setup

/-!
# Which servers can be set up

A plan is carried out in steps, and each of them can be followed: values are filled in as long as they are of fields that
a storage group has, fresh keys and the defaults cannot fail, and the check finds nothing to refuse but a port.

* `fill_fitting`, `fill_stray`: filling ends at the first value that is of no field;
* `Prepared`, `edit_fitting`: what the settings hold when they come to the check;
* `Prepared.violations_eq`: all that the check can complain about is the port;
* `build_judged`: so a plan fails of a name, or else of its port.
-/

namespace ServerSettings

open Settings (Amended Framed)
open Resolution

namespace Leaf

/-- What stands in a path behind the name of a backend and a dot is the name of a field. -/
theorem field_of_path : ∀ d ∈ Dialect.all, ∀ l ∈ all, ∀ rest ∈ Text.after? (d.name ++ ".").toList l.path.toList,
    rest ∈ DatabaseField.all.map (·.name.toList) := by decide +kernel

/-- Behind the name of a backend, only the name of a field leads to a leaf. -/
theorem ofPath_stray (d : Dialect) {name : String} (stray : name ∉ DatabaseField.all.map (·.name)) :
    ∃ reason, ofPath (joinSegments [d.name, name]) = .error (.address (d.name ++ "." ++ name) reason) := by
  have joined : joinSegments [d.name, name] = d.name ++ "." ++ name := rfl
  have none_found : ofPath? (joinSegments [d.name, name]) = none := by
    cases found : ofPath? (joinSegments [d.name, name]) with
    | none => rfl
    | some l =>
      have behind : Text.after? (d.name ++ ".").toList l.path.toList = some name.toList := by
        have cut : (d.name ++ "." ++ name).toList = (d.name ++ ".").toList ++ name.toList := String.toList_append
        rw [path_of_ofPath? found, joined, cut]
        exact Text.after?_append _ _
      have field := field_of_path d (by cases d <;> decide) l l.mem_all _ behind
      obtain ⟨f, mem, same⟩ := List.mem_map.mp field
      exact absurd (List.mem_map.mpr ⟨f, mem, String.toList_inj.mp same⟩) stray
  rw [ofPath, none_found, joined]
  exact ⟨_, rfl⟩

end Leaf

/-- With its colon a port is one exactly if it was, or was a numeral without one. -/
theorem isPort_normalizePort (port : String) :
    IsPort (normalizePort port) ↔ IsNumeral 5 port.toList ∨ IsPort port := by
  by_cases marked : port.toList.head? = some portMark
  · have numeral : ¬IsNumeral 5 port.toList := by
      rintro ⟨_, _, digits⟩
      have digit := digits portMark (List.mem_of_mem_head? marked)
      revert digit
      decide
    rw [normalizePort, if_pos marked]
    exact ⟨.inr, fun fits => fits.resolve_left numeral⟩
  · have unmarked : ¬IsPort port := fun fits => marked fits.1
    rw [normalizePort, if_neg marked, IsPort, String.toList_ofList]
    exact ⟨fun fits => .inl fits.2, fun fits => ⟨rfl, fits.resolve_right unmarked⟩⟩

namespace Problem

/-- The message about a value that does not match, in three parts. -/
theorem message_mismatch (path value : String) (pattern : Pattern) : (mismatch path value pattern).message =
    ("value of setting " ++ Text.quoted path ++ " is not valid: ") ++ Text.quoted value ++
      (" (must match pattern " ++ Text.quoted pattern.source ++ ")") := by
  have parts (a b c d e f g : String) : a ++ b ++ c ++ d ++ e ++ f ++ g = (a ++ b ++ c) ++ d ++ (e ++ f ++ g) := by
    simp only [String.append_assoc]
  exact parts ..

/-- How a port is complained about. -/
theorem message_port (value : String) {pattern : Pattern} (listed : (Leaf.text .port, pattern) ∈ Tables.patterns) :
    (mismatch "port" value pattern).message = "value of setting 'port' is not valid: " ++ Text.quoted value ++
      " (must match pattern ':[0-9]{1,5}')" := by
  have front : "value of setting " ++ Text.quoted "port" ++ " is not valid: " = "value of setting 'port' is not valid: " := by
    decide +kernel
  have back : ∀ entry ∈ Tables.patterns, entry.1 = .text .port →
      " (must match pattern " ++ Text.quoted entry.2.source ++ ")" = " (must match pattern ':[0-9]{1,5}')" := by
    decide +kernel
  rw [message_mismatch, front, back _ listed rfl]

end Problem

namespace SetupPlan

variable {plan : SetupPlan} {source : RandomSource} {s t : Settings} {values : Dict String}

/-- The names under which a plan may give values. -/
def fieldNames : List String := ["hostname", "username", "password", "db_name"]

/-- A value is given, but under another name. -/
def isStray (entry : String × String) : Bool :=
  entry.2 ≠ "" ∧ entry.1 ∉ fieldNames

/-- They are those of the fields of a storage group. -/
theorem fieldNames_eq : fieldNames = DatabaseField.all.map (·.name) := rfl

section Filling

theorem fill_cons (plan : SetupPlan) (entry : String × String) (rest : Dict String) (s : Settings) :
    plan.fill (Dict.mapValues .text (entry :: rest)) s =
      if entry.2 = "" then plan.fill (Dict.mapValues .text rest) s
      else
        match s.set (Leaf.joinSegments [plan.dialect.name, entry.1]) (.text entry.2) with
        | .ok t => plan.fill (Dict.mapValues .text rest) t
        | .error e => (.error e, s) := by
  obtain ⟨name, value⟩ := entry
  show plan.fill ((name, .text value) :: Dict.mapValues .text rest) s = _
  rw [fill]
  by_cases empty : value = ""
  · subst empty
    rfl
  · have given : (!(Value.text value).isVoid) = true := by simpa [Value.isVoid] using empty
    rw [if_pos given, if_neg empty, Edit.bind_apply, Edit.change]
    cases s.set (Leaf.joinSegments [plan.dialect.name, name]) (.text value) <;> rfl

/-- A value of a field is filled in, or passed over if it is empty; the others are filled in after it. -/
theorem fill_step (plan : SetupPlan) (isOpen : ∀ l : Leaf, l.isFinal s = false) {entry : String × String} (fits : isStray entry = false)
    (rest : Dict String) :
    ∃ u, plan.fill (Dict.mapValues .text (entry :: rest)) s = plan.fill (Dict.mapValues .text rest) u ∧ Amended s u ∧
      ∀ l : Leaf, (∀ f, l ≠ .database plan.dialect f) → l.read u = l.read s := by
  rw [fill_cons]
  by_cases empty : entry.2 = ""
  · rw [if_pos empty]
    exact ⟨s, rfl, .refl s, fun _ _ => rfl⟩
  · obtain ⟨f, _, name⟩ : ∃ f ∈ DatabaseField.all, f.name = entry.1 := by
      simpa [isStray, fieldNames_eq, empty] using fits
    have written : s.set (Leaf.joinSegments [plan.dialect.name, entry.1]) (.text entry.2) =
        .ok ((Leaf.database plan.dialect f).write s entry.2) := by
      rw [← name]
      exact Settings.set_of_open (l := .database plan.dialect f) (isOpen _) (.text entry.2)
    rw [if_neg empty, written]
    refine ⟨_, rfl, Amended.write (l := .database plan.dialect f) entry.2 (isOpen _), fun l other => ?_⟩
    exact Leaf.read_write_of_ne s _ (other f)

/-- Values of fields are filled in, and nothing changes outside of the group of the backend. -/
theorem fill_fitting (plan : SetupPlan) (isOpen : ∀ l : Leaf, l.isFinal s = false) (fitting : ∀ entry ∈ values, isStray entry = false) :
    ∃ t, plan.fill (Dict.mapValues .text values) s = (.ok (), t) ∧
      ∀ l : Leaf, (∀ f, l ≠ .database plan.dialect f) → l.read t = l.read s := by
  induction values generalizing s with
  | nil => exact ⟨s, rfl, fun _ _ => rfl⟩
  | cons entry rest ih =>
    obtain ⟨fits, fitting⟩ := List.forall_mem_cons.mp fitting
    obtain ⟨u, next, amended, same⟩ := fill_step plan isOpen fits rest
    obtain ⟨t, filled, kept⟩ := ih (Settings.open_of_amended isOpen amended) fitting
    exact ⟨t, next.trans filled, fun l other => (kept l other).trans (same l other)⟩

/-- Filling fails of the first value that is of no field. -/
theorem fill_stray (plan : SetupPlan) (isOpen : ∀ l : Leaf, l.isFinal s = false) {entry : String × String}
    (first : values.find? isStray = some entry) :
    ∃ reason t, plan.fill (Dict.mapValues .text values) s =
      (.error (.address (plan.dialect.name ++ "." ++ entry.1) reason), t) := by
  induction values generalizing s with
  | nil => cases first
  | cons other rest ih =>
    cases stray : isStray other with
    | true =>
      rw [List.find?_cons_of_pos stray] at first
      cases first
      simp only [isStray, decide_eq_true_eq] at stray
      obtain ⟨reason, failed⟩ := Leaf.ofPath_stray plan.dialect stray.2
      rw [fill_cons, if_neg stray.1, Settings.set_eq, failed]
      exact ⟨reason, s, rfl⟩
    | false =>
      rw [List.find?_cons_of_neg (by simp [stray])] at first
      obtain ⟨u, next, amended, _⟩ := fill_step plan isOpen stray rest
      obtain ⟨reason, t, failed⟩ := ih (Settings.open_of_amended isOpen amended) first
      exact ⟨reason, t, next.trans failed⟩

end Filling

section Preparation

/-- What settings hold that a plan has filled and given keys: outside of the group of the backend, only the keys differ
from what the plan begins with. -/
structure Begun (plan : SetupPlan) (source : RandomSource) (s : Settings) : Prop where
  amended : Amended plan.start s
  kept : ∀ l : Leaf, (∀ f, l ≠ .database plan.dialect f) → (∀ f ∈ Tables.keys, l ≠ .text f) →
    l.read s = l.read plan.start
  keys : ∀ f ∈ Tables.keys, ∃ call, s.text f = Base64.encode (source call Keys.keyLength)

/-- What they hold when they come to the check. -/
structure Prepared (plan : SetupPlan) (source : RandomSource) (s : Settings) : Prop where
  frame : plan.start.Framed s
  storage : ∀ d f, d ≠ plan.dialect → (s.database d).text f = ""
  tasks : s.maxParallelTasks = 0
  dialect : s.text .dialect = plan.dialect.name
  port : s.text .port = if plan.port = "" then ":3000" else plan.port
  gitClient : s.text .gitClient = "go_git"
  emailPort : s.text .emailPort = ""
  keys : ∀ f ∈ Tables.keys, ∃ call, s.text f = Base64.encode (source call Keys.keyLength)

theorem open_start (plan : SetupPlan) (l : Leaf) : l.isFinal plan.start = false := by
  cases l <;> rfl

theorem Begun.unfilled (h : Begun plan source s) {filled : List Leaf} (defaulted : applyDefaults s = (.ok filled, t))
    {l : Leaf} (plain : given? Tables.defaults l = none) (outside : ∀ f, l ≠ .database plan.dialect f)
    (free : ∀ f ∈ Tables.keys, l ≠ .text f) : l.read t = l.read plan.start :=
  (read_of_applyDefaults defaulted plain).trans (h.kept l outside free)

/-- The defaults are filled in. -/
theorem Begun.prepared (h : Begun plan source s) {filled : List Leaf} (defaulted : applyDefaults s = (.ok filled, t)) :
    Prepared plan source t where
  frame := (h.amended.trans (applyDefaults_amends.amended defaulted)).frame
  storage d f other := by
    have plain : given? Tables.defaults (.database d f) = none := given?_of_not_mem (by simp [Tables.defaults])
    exact h.unfilled defaulted (l := .database d f) plain (by simp [other]) (by simp)
  tasks := h.unfilled defaulted (l := .maxParallelTasks) (by decide +kernel) (by simp) (by simp)
  dialect := h.unfilled defaulted (l := .text .dialect) (by decide +kernel) (by simp) (by decide)
  port := by
    have begun : s.text .port = plan.port := h.kept (.text .port) (by simp) (by decide)
    have filled : t.text .port = if s.text .port = "" then ":3000" else s.text .port :=
      text_of_applyDefaults defaulted (by decide +kernel)
    rw [filled, begun]
  gitClient := by
    have begun : s.text .gitClient = "" := h.kept (.text .gitClient) (by simp) (by decide)
    have filled : t.text .gitClient = if s.text .gitClient = "" then "go_git" else s.text .gitClient :=
      text_of_applyDefaults defaulted (by decide +kernel)
    rw [filled, if_pos begun]
  emailPort := h.unfilled defaulted (l := .text .emailPort) (by decide +kernel) (by simp) (by decide)
  keys f mem := by
    have without : ∀ f ∈ Tables.keys, given? Tables.defaults (.text f) = none := by decide +kernel
    obtain ⟨call, key⟩ := h.keys f mem
    have unfilled : t.text f = s.text f := read_of_applyDefaults defaulted (without f mem)
    exact ⟨call, unfilled.trans key⟩

theorem Prepared.fits_iff (h : Prepared plan source s) : IsPort (normalizePort (s.text .port)) ↔
    plan.port = "" ∨ IsNumeral 5 plan.port.toList ∨ IsPort plan.port := by
  rw [h.port]
  by_cases empty : plan.port = ""
  · rw [if_pos empty]
    exact ⟨fun _ => .inl empty, fun _ => by decide⟩
  · rw [if_neg empty, isPort_normalizePort]
    exact ⟨.inr, fun fits => fits.resolve_left empty⟩

/-- What the check accepts is open, has nothing in the groups of other backends, and has a port with its colon. -/
theorem Prepared.accepted (h : Prepared plan source s) :
    (∀ l : Leaf, l.isFinal s.withColon = false) ∧ s.withColon.providers = [] ∧
      (∀ d, d ≠ plan.dialect → s.withColon.database d = {}) ∧
      s.withColon.text .port = if plan.port = "" then ":3000" else normalizePort plan.port := by
  have frame : plan.start.Framed s.withColon := h.frame.trans (.write s (.text .port) _)
  refine ⟨fun l => ?_, frame.providers, fun d other => ?_, ?_⟩
  · rw [frame.isFinal_eq, plan.open_start]
  · have text : (s.withColon.database d).text = fun _ => "" := funext fun f =>
      (Leaf.read_write_of_ne s (l := .text .port) (m := .database d f) _ (by simp)).trans (h.storage d f other)
    have options := frame.options d
    have mark := frame.databaseMark d
    cases storage : s.withColon.database d
    simp_all [start]
  · have port : s.withColon.text .port = normalizePort (s.text .port) := Leaf.read_write_self s (.text .port) _
    rw [port, h.port]
    split
    · decide
    · rfl

end Preparation

section Judgement

theorem build_stray (plan : SetupPlan) (given : plan.values = Dict.mapValues .text values) {entry : String × String}
    (first : values.find? isStray = some entry) :
    ∃ reason, plan.build source = .error (.address (plan.dialect.name ++ "." ++ entry.1) reason) := by
  obtain ⟨reason, t, failed⟩ := fill_stray plan plan.open_start first
  have edited : plan.edit source plan.start = (.error (.address (plan.dialect.name ++ "." ++ entry.1) reason), t) := by
    rw [edit, given, Edit.bind_apply, failed]
  exact ⟨reason, by rw [build, edited]⟩

variable (full : ∀ call, (source call Keys.keyLength).length = Keys.keyLength)

include full

/-- Where keys can be assigned, there is nothing that the fresh keys and the defaults could fail of. -/
theorem edit_of_filled {u : Settings} (filled : plan.fill plan.values plan.start = (.ok (), u))
    (apart : ∀ l : Leaf, (∀ f, l ≠ .database plan.dialect f) → l.read u = l.read plan.start) :
    ∃ s, Prepared plan source s ∧ plan.edit source plan.start = check s := by
  have filling := (fill_amends plan _).amended filled
  obtain ⟨v, keyed⟩ := Keys.replaceAll_open (Settings.open_of_amended plan.open_start filling) full
  have keying := filling.trans ((Keys.replaceAll_amends source).amended keyed)
  obtain ⟨leaves, w, defaulted⟩ := applyDefaults_open (Settings.open_of_amended plan.open_start keying)
  obtain ⟨keys, others⟩ := Keys.replaceAll_ok keyed
  have begun : Begun plan source v := by
    refine ⟨keying, fun l outside free => (others l free).trans (apart l outside), fun f mem => ?_⟩
    obtain ⟨entry, listed, rfl⟩ : ∃ entry ∈ Tables.keys.zipIdx, entry.1 = f := by
      revert f
      decide
    exact ⟨entry.2, (keys entry listed).2⟩
  refine ⟨w, begun.prepared defaulted, ?_⟩
  have discarded : (discard applyDefaults : Edit Unit) v = (.ok (), w) := by
    show (applyDefaults >>= fun _ => pure ()) v = _
    rw [Edit.bind_apply, defaulted]
    rfl
  rw [edit, Edit.bind_apply, filled]
  simp only [Edit.bind_apply, keyed, discarded]

/-- With a source that gives what it is asked for, a plan whose values are of fields comes to the check. -/
theorem edit_fitting (given : plan.values = Dict.mapValues .text values)
    (fitting : ∀ entry ∈ values, isStray entry = false) :
    ∃ s, Prepared plan source s ∧ plan.edit source plan.start = check s := by
  obtain ⟨u, filled, apart⟩ := fill_fitting plan plan.open_start fitting
  rw [← given] at filled
  exact edit_of_filled full filled apart

/-- The check can refuse nothing but the port. -/
theorem Prepared.accepts (h : Prepared plan source s) {l : Leaf} (other : l ≠ .text .port) : s.Accepts l := by
  have key (f : TextSetting) (mem : f ∈ Tables.keys) : IsKeyText (s.text f) ∧ (decodeKey? (s.text f)).isSome = true := by
    obtain ⟨call, key⟩ := h.keys f mem
    have long : 28 ≤ (source call Keys.keyLength).length := by
      rw [full call]
      decide
    rw [key, decodeKey?, Base64.decode?_encode]
    exact ⟨(Base64.isKeyText_encode _).mpr long, rfl⟩
  refine ⟨?_, ?_⟩
  · unfold Settings.Permits
    split
    · rw [h.dialect]
      cases plan.dialect <;> decide
    · exact absurd rfl other
    · rw [h.gitClient]
      decide
    · exact (key .cookieHash (by decide)).1
    · exact (key .cookieEncryption (by decide)).1
    · exact (key .accessKeyEncryption (by decide)).1
    · exact .inl h.emailPort
    · rw [h.tasks]
      decide
    · trivial
  · rintro f mem rfl
    exact (key f mem).2

/-- A port that is refused is all that there is to complain about. -/
theorem Prepared.violations_eq (h : Prepared plan source s) (refused : ¬IsPort (normalizePort (s.text .port))) :
    s.violations.map (·.2.message) =
      ["value of setting 'port' is not valid: " ++ Text.quoted (normalizePort (s.text .port)) ++
        " (must match pattern ':[0-9]{1,5}')"] := by
  have unfit : s.unfit = Tables.patterns.filter fun entry => entry.1 = .text .port := by
    refine List.filter_congr fun entry _ => ?_
    by_cases port : entry.1 = .text .port
    · simp [port, Settings.Permits, refused]
    · simp [port, (h.accepts full port).1]
  have undecoded : s.undecoded = [] := by
    refine List.filter_eq_nil_iff.mpr fun f mem => ?_
    have read := (h.accepts full (l := .text f) (by rintro ⟨⟩; exact absurd mem (by decide))).2 f mem rfl
    simp [Option.isSome_iff_ne_none.mp read]
  obtain ⟨pattern, listed, alone⟩ : ∃ pattern, (Leaf.text .port, pattern) ∈ Tables.patterns ∧
      (Tables.patterns.filter fun entry => entry.1 = .text .port) = [(.text .port, pattern)] :=
    ⟨_, by decide, rfl⟩
  have shown : s.withColon.complaint (.text .port) pattern = .mismatch "port" (normalizePort (s.text .port)) pattern := by
    have value : s.withColon.leafText (.text .port) = .ok (normalizePort (s.text .port)) :=
      congrArg Except.ok (Leaf.read_write_self s (.text .port) (normalizePort (s.text .port)))
    rw [Settings.complaint, if_neg (by decide), value]
    rfl
  rw [Settings.violations, unfit, undecoded, alone, ← Problem.message_port _ listed, ← shown]
  rfl

/-- A plan whose values are of fields is judged by its port. -/
theorem build_fitting (plan : SetupPlan) (given : plan.values = Dict.mapValues .text values)
    (fitting : ∀ entry ∈ values, isStray entry = false) :
    ∃ s, Prepared plan source s ∧ plan.build source =
      if IsPort (normalizePort (s.text .port)) then .ok s.withColon
      else .error (.validation ["value of setting 'port' is not valid: " ++
        Text.quoted (normalizePort (s.text .port)) ++ " (must match pattern ':[0-9]{1,5}')"]) := by
  obtain ⟨s, prepared, edited⟩ := edit_fitting full given fitting
  have isOpen : s.frozen = false := prepared.frame.mark
  have writable : Whole.isWritable s.maxParallelTasks = true := by
    rw [prepared.tasks]
    decide +kernel
  refine ⟨s, prepared, ?_⟩
  rw [build, edited, check_eq isOpen writable]
  by_cases fits : IsPort (normalizePort (s.text .port))
  · have accepted : ∀ l, s.Accepts l := by
      intro l
      by_cases port : l = .text .port
      · subst port
        refine ⟨fits, ?_⟩
        rintro f mem ⟨⟩
        exact absurd mem (by decide)
      · exact prepared.accepts full port
    rw [if_pos fits, if_pos (s.violations_eq_nil.mpr accepted)]
  · have violated : s.violations ≠ [] := fun none => fits (s.violations_eq_nil.mp none (.text .port)).1
    rw [if_neg fits, if_neg violated, prepared.violations_eq full fits]

/-- A plan comes to settings only if its values are of fields and the check finds a port. -/
theorem fitting_of_build (given : plan.values = Dict.mapValues .text values) (built : plan.build source = .ok t) :
    (∀ entry ∈ values, isStray entry = false) ∧
      ∃ s, Prepared plan source s ∧ IsPort (normalizePort (s.text .port)) ∧ t = s.withColon := by
  cases first : values.find? isStray with
  | some entry =>
    obtain ⟨reason, failed⟩ := build_stray plan given first
    cases failed.symm.trans built
  | none =>
    have fitting : ∀ entry ∈ values, isStray entry = false := by simpa using List.find?_eq_none.mp first
    obtain ⟨s, prepared, judged⟩ := build_fitting full plan given fitting
    rw [judged] at built
    split at built
    · cases built
      exact ⟨fitting, s, prepared, ‹_›, rfl⟩
    · cases built

/-- A plan with texts for values comes to settings exactly if every value that is not empty is of a field, and the port is
empty or a numeral of up to five digits, with a colon or without. Otherwise it fails of the first value that is of no
field, or else of the port alone. The settings are open, have nothing in the groups of other backends, and have the
default port or the given one with its colon. -/
theorem build_judged (d : Dialect) (values : Dict String) (port webHost : String) :
    let plan : SetupPlan := { dialect := d, values := Dict.mapValues .text values, port, webHost }
    let portFits := port = "" ∨ IsNumeral 5 port.toList ∨ IsPort port
    ((∃ s, plan.build source = .ok s) ↔ (∀ entry ∈ values, entry.2 ≠ "" → entry.1 ∈ fieldNames) ∧ portFits) ∧
      (∀ entry, values.find? isStray = some entry →
        ∃ reason, plan.build source = .error (.address (d.name ++ "." ++ entry.1) reason)) ∧
      ((∀ entry ∈ values, entry.2 ≠ "" → entry.1 ∈ fieldNames) → ¬portFits →
        plan.build source = .error (.validation ["value of setting 'port' is not valid: " ++
          Text.quoted (normalizePort port) ++ " (must match pattern ':[0-9]{1,5}')"])) ∧
      ∀ s, plan.build source = .ok s →
        (∀ l : Leaf, l.isFinal s = false) ∧ s.providers = [] ∧ (∀ other, other ≠ d → s.database other = {}) ∧
          s.text .port = if port = "" then ":3000" else normalizePort port := by
  intro plan portFits
  have fitting_iff : (∀ entry ∈ values, entry.2 ≠ "" → entry.1 ∈ fieldNames) ↔ ∀ entry ∈ values, isStray entry = false := by
    simp [isStray]
  rw [fitting_iff]
  refine ⟨⟨?_, ?_⟩, fun entry first => build_stray plan rfl first, ?_, ?_⟩
  · rintro ⟨t, built⟩
    obtain ⟨fitting, s, prepared, fits, -⟩ := fitting_of_build full rfl built
    exact ⟨fitting, prepared.fits_iff.mp fits⟩
  · rintro ⟨fitting, fits⟩
    obtain ⟨s, prepared, judged⟩ := build_fitting full plan rfl fitting
    exact ⟨s.withColon, judged.trans (if_pos (prepared.fits_iff.mpr fits))⟩
  · intro fitting unfit
    obtain ⟨s, prepared, judged⟩ := build_fitting full plan rfl fitting
    have port : s.text .port = port := by
      rw [prepared.port]
      exact if_neg fun empty => unfit (.inl empty)
    rw [judged, if_neg fun fits => unfit (prepared.fits_iff.mp fits), port]
  · intro t built
    obtain ⟨-, s, prepared, -, rfl⟩ := fitting_of_build full rfl built
    exact prepared.accepted

end Judgement

theorem build_judged_postgres :
    let source : RandomSource := fun call length => List.replicate length (UInt8.ofNat call)
    let plan (name port : String) : SetupPlan :=
      { dialect := .postgres, values := [("user", .text ""), (name, .text "db")], port }
    (∀ call, (source call Keys.keyLength).length = Keys.keyLength) ∧
      (∃ s, (plan "hostname" "8080").build source = .ok s ∧ s.text .port = ":8080" ∧ s.database .mysql = {}) ∧
      (∃ reason, (plan "host.name" "80x").build source = .error (.address "postgres.host.name" reason)) ∧
      (plan "hostname" "80x").build source = .error (.validation
        ["value of setting 'port' is not valid: ':80x' (must match pattern ':[0-9]{1,5}')"]) := by
  intro source plan
  have full (call : Nat) : (source call Keys.keyLength).length = Keys.keyLength := List.length_replicate
  obtain ⟨succeeds, _, _, built⟩ := build_judged full .postgres [("user", ""), ("hostname", "db")] "8080" ""
  obtain ⟨_, fails, _, _⟩ := build_judged full .postgres [("user", ""), ("host.name", "db")] "80x" ""
  obtain ⟨_, _, refused, _⟩ := build_judged full .postgres [("user", ""), ("hostname", "db")] "80x" ""
  refine ⟨full, ?_, fails ("host.name", "db") (by decide +kernel), ?_⟩
  · obtain ⟨s, done⟩ := succeeds.mpr ⟨by decide, by decide⟩
    obtain ⟨_, _, others, port⟩ := built s done
    exact ⟨s, done, port.trans (by decide), others .mysql (by decide)⟩
  · have message : "value of setting 'port' is not valid: " ++ Text.quoted (normalizePort "80x") ++
        " (must match pattern ':[0-9]{1,5}')" =
          "value of setting 'port' is not valid: ':80x' (must match pattern ':[0-9]{1,5}')" := by decide +kernel
    rw [← message]
    exact refused (by decide) (by decide)

end SetupPlan

end ServerSettings
