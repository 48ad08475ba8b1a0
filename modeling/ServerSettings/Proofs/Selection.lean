import Mathlib.Logic.Basic
import ServerSettings.Backend

/-!
# Which backend is selected

The name in the settings decides. Without one the backends are looked for in their order, and the first whose group has a
host is taken; a variable that holds a host counts for every group.

* `find?_of_ascending`: of a list in ascending order a search finds the lowest that passes;
* `select_named`, `select_unnamed`: which backend is selected, and what is told if there is none;
* `select_of_own`: the selected backend does not change with other groups, as long as no group before it gets a host;
* `connection_isolated`: so a connection is made of the selected group and the variables over it alone.
-/

namespace ServerSettings

namespace Dialect

/-- The place of a backend in the order in which backends are looked for. -/
def rank : Dialect → Nat
  | .mysql => 0
  | .bolt => 1
  | .postgres => 2

theorem mem_all (d : Dialect) : d ∈ all := by
  cases d <;> decide

theorem ascending_all : all.Pairwise fun a b => a.rank < b.rank := by decide

/-- Of a list in ascending order a search finds the lowest that passes. -/
theorem find?_of_ascending {l : List Dialect} (ascending : l.Pairwise fun a b => a.rank < b.rank)
    (passes : Dialect → Bool) (d : Dialect) : l.find? passes = some d ↔
      d ∈ l ∧ passes d = true ∧ ∀ other ∈ l, other.rank < d.rank → passes other = false := by
  induction l with
  | nil => simp
  | cons first rest ih =>
    obtain ⟨below, ascending⟩ := List.pairwise_cons.mp ascending
    rw [List.find?_cons, List.forall_mem_cons]
    cases passed : passes first with
    | true =>
      constructor
      · intro found
        cases found
        refine ⟨List.mem_cons_self, passed, fun lower => absurd lower (Nat.lt_irrefl _), fun other mem lower => ?_⟩
        exact absurd lower (Nat.lt_asymm (below other mem))
      · rintro ⟨mem, _, lowest, _⟩
        rcases List.mem_cons.mp mem with rfl | later
        · rfl
        · cases lowest (below d later)
    | false =>
      simp only [ih ascending, List.mem_cons]
      constructor
      · rintro ⟨mem, passing, lowest⟩
        exact ⟨.inr mem, passing, fun _ => trivial, lowest⟩
      · rintro ⟨rfl | mem, passing, _, lowest⟩
        · rw [passed] at passing
          cases passing
        · exact ⟨mem, passing, lowest⟩

end Dialect

theorem Environment.valueOr_eq_empty {env : Environment} {name fallback : String} :
    env.valueOr name fallback = "" ↔ env.value? name = none ∧ fallback = "" := by
  rw [valueOr]
  cases given : env.value? name with
  | none => simp
  | some value =>
    have filled : value ≠ "" := by simpa using (Option.filter_eq_some_iff.mp given).2
    simp [filled]

namespace Backend

variable {env : Environment} {s t : Settings} {d : Dialect}

/-- A backend has a host, and none before it has one. -/
def IsFirst (env : Environment) (s : Settings) (d : Dialect) : Prop :=
  effectiveHost env (s.database d) ≠ "" ∧
    ∀ other : Dialect, other.rank < d.rank → effectiveHost env (s.database other) = ""

/-- A name selects the backend that has it. -/
theorem select_named (named : s.text .dialect ≠ "") :
    (∀ d, select env s = .ok d ↔ s.text .dialect = d.name) ∧
      ∀ e, select env s = .error e ↔
        e = .backend (.unsupported (s.text .dialect)) ∧ ∀ d : Dialect, s.text .dialect ≠ d.name := by
  rw [select, if_pos named]
  cases known : Dialect.ofName? (s.text .dialect) with
  | some found =>
    have name := Dialect.name_of_ofName? known
    refine ⟨fun d => ⟨?_, fun same => ?_⟩, fun e => ⟨nofun, fun ⟨_, unknown⟩ => ?_⟩⟩
    · rintro ⟨⟩
      exact name.symm
    · rw [same, Dialect.ofName?_name] at known
      cases known
      rfl
    · exact absurd name.symm (unknown found)
  | none =>
    have unknown (d : Dialect) : s.text .dialect ≠ d.name := by
      intro same
      rw [same, Dialect.ofName?_name] at known
      cases known
    refine ⟨fun d => ⟨nofun, fun same => absurd same (unknown d)⟩, fun e => ⟨?_, ?_⟩⟩
    · rintro ⟨⟩
      exact ⟨rfl, unknown⟩
    · rintro ⟨rfl, _⟩
      rfl

/-- Without a name the first backend that has a host is selected. -/
theorem select_unnamed (unnamed : s.text .dialect = "") :
    (∀ d, select env s = .ok d ↔ IsFirst env s d) ∧
      ∀ e, select env s = .error e ↔
        e = .backend .notFound ∧ ∀ d, effectiveHost env (s.database d) = "" := by
  have searched (d : Dialect) : Dialect.all.find? (fun d => isPresent env (s.database d)) = some d ↔ IsFirst env s d := by
    rw [Dialect.find?_of_ascending Dialect.ascending_all]
    simp [Dialect.mem_all, isPresent, IsFirst]
  rw [select, if_neg (not_not.mpr unnamed)]
  cases found : Dialect.all.find? (fun d => isPresent env (s.database d)) with
  | some first =>
    have isFirst := (searched first).mp found
    refine ⟨fun d => ?_, fun e => ⟨nofun, fun ⟨_, empty⟩ => absurd (empty first) isFirst.1⟩⟩
    rw [← searched d, found]
    simp
  | none =>
    have empty (d : Dialect) : effectiveHost env (s.database d) = "" := by
      simpa [isPresent] using List.find?_eq_none.mp found d d.mem_all
    refine ⟨fun d => ⟨nofun, fun isFirst => absurd (empty d) isFirst.1⟩, fun e => ⟨?_, ?_⟩⟩
    · rintro ⟨⟩
      exact ⟨rfl, empty⟩
    · rintro ⟨rfl, _⟩
      rfl

/-- Other groups do not change which backend is selected, unless one before it gets a host. -/
theorem select_of_own (selected : select env s = .ok d) (dialect : t.text .dialect = s.text .dialect)
    (own : t.database d = s.database d)
    (others : ∀ other : Dialect, s.text .dialect = "" → other.rank < d.rank → (t.database other).text .hostname = "") :
    select env t = .ok d := by
  by_cases named : s.text .dialect = ""
  · obtain ⟨host, before⟩ := ((select_unnamed named).1 d).mp selected
    refine ((select_unnamed (dialect.trans named)).1 d).mpr ⟨own ▸ host, fun other lower => ?_⟩
    -- The host variable is not set, or the group in front would have been taken before.
    obtain ⟨unset, _⟩ := Environment.valueOr_eq_empty.mp (before other lower)
    exact Environment.valueOr_eq_empty.mpr ⟨unset, others other named lower⟩
  · have name := ((select_named named).1 d).mp selected
    exact ((select_named (dialect ▸ named)).1 d).mpr (dialect.trans name)

theorem connection_of_select (selected : select env s = .ok d) :
    connection env s = .ok (connectionOf env d (s.database d)) := by
  rw [connection, selected]
  rfl

theorem connection_error {e : Error} : connection env s = .error e ↔ select env s = .error e := by
  rw [connection]
  cases select env s <;> simp [bind, Except.bind, pure, Except.pure]

/-- A name selects the backend that has it, and an unknown name none. Without a name the first backend that has a host is
selected, and none if there is none. A connection fails exactly if nothing is selected. Otherwise each of its parts is
that of the variable over it, or of the selected group; so it is the same whatever the other groups hold, if the backend
is named, and otherwise as long as the groups before it have no host. -/
theorem connection_isolated (env : Environment) (s : Settings) :
    (s.text .dialect ≠ "" →
      (∀ d, select env s = .ok d ↔ s.text .dialect = d.name) ∧
        ∀ e, select env s = .error e ↔
          e = .backend (.unsupported (s.text .dialect)) ∧ ∀ d : Dialect, s.text .dialect ≠ d.name) ∧
    (s.text .dialect = "" →
      (∀ d, select env s = .ok d ↔ IsFirst env s d) ∧
        ∀ e, select env s = .error e ↔ e = .backend .notFound ∧ ∀ d, effectiveHost env (s.database d) = "") ∧
    (∀ e, connection env s = .error e ↔ select env s = .error e) ∧
    ∀ d, select env s = .ok d →
      connection env s = .ok
        { dialect := d
          hostname := env.valueOr "SEMAPHORE_DB_HOST" ((s.database d).text .hostname)
          username := env.valueOr "SEMAPHORE_DB_USER" ((s.database d).text .username)
          password := env.valueOr "SEMAPHORE_DB_PASS" ((s.database d).text .password)
          dbName := env.valueOr "SEMAPHORE_DB_NAME" ((s.database d).text .dbName)
          options := (s.database d).options } ∧
      ∀ t : Settings, t.text .dialect = s.text .dialect → t.database d = s.database d →
        (∀ other : Dialect, s.text .dialect = "" → other.rank < d.rank → (t.database other).text .hostname = "") →
        connection env t = connection env s ∧
          ∀ withDatabase, (connection env t).map (·.descriptor withDatabase) =
            (connection env s).map (·.descriptor withDatabase) := by
  refine ⟨select_named, select_unnamed, fun e => connection_error, fun d selected => ⟨connection_of_select selected, ?_⟩⟩
  intro t dialect own others
  have same : connection env t = connection env s := by
    rw [connection_of_select (select_of_own selected dialect own others), connection_of_select selected, own]
  exact ⟨same, fun withDatabase => by rw [same]⟩

/-- The second backend is the first with a host. The group before it may change as long as it gets none, and the group
behind it may get one. -/
theorem connection_isolated_bolt :
    let group (name : String) : Database := { text := fun f => if f = .hostname then name else "x" }
    let s : Settings := { database := fun d => if d = .bolt then group "local" else {} }
    let t : Settings :=
      { database := fun d => if d = .bolt then group "local" else if d = .mysql then group "" else group "remote" }
    select [] s = .ok .bolt ∧ connection [] t = connection [] s ∧
      (connection [] t).map (·.descriptor true) = .ok "local" := by
  intro group s t
  obtain ⟨_, unnamed, _, isolated⟩ := connection_isolated [] s
  have isFirst : IsFirst [] s .bolt := by
    refine ⟨by decide, fun other lower => ?_⟩
    cases other with
    | mysql => decide
    | bolt => exact absurd lower (Nat.lt_irrefl _)
    | postgres => exact absurd lower (by decide)
  have selected : select [] s = .ok .bolt := ((unnamed rfl).1 .bolt).mpr isFirst
  obtain ⟨shown, others⟩ := isolated .bolt selected
  have hosts : ∀ other : Dialect, s.text .dialect = "" → other.rank < Dialect.bolt.rank →
      (t.database other).text .hostname = "" := by
    intro other _ lower
    cases other with
    | mysql => rfl
    | bolt => exact absurd lower (Nat.lt_irrefl _)
    | postgres => exact absurd lower (by decide)
  obtain ⟨same, _⟩ := others t rfl rfl hosts
  refine ⟨selected, same, ?_⟩
  rw [same, shown]
  rfl

end Backend

end ServerSettings
