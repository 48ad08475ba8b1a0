import ServerSettings.Backend
import ServerSettings.Proofs.Fixpoint

/-!
# Variables over a connection

The variables of a backend are applied twice: resolution puts them into the group of the selected backend, and a
connection looks at them again. The name of the database has two variables, one for each time.

* `value_of_override`: what resolution put into a storage group is what the variable holds;
* `descriptor_congr`: a driver's text depends on the parts that its backend uses;
* `connection_resolved`: the driver's text of resolved settings is the same with and without the environment.
-/

namespace ServerSettings

open Resolution

variable {env : Environment} {policy : Policy} {s : Settings} {found : List Problem} {d : Dialect}

/-- The backend that resolved settings name is the one whose variables were applied. -/
theorem selected_of_resolve (resolved : (s.resolve env policy).result = .ok found) :
    selected env s = (s.resolve env policy).settings.text .dialect := by
  have leaf := (resolve_layered env policy s found resolved).1 (.text .dialect)
  rw [layered_dialect] at leaf
  exact Except.ok.inj leaf

/-- What resolution put into the selected storage group is what the variable holds, so it changes nothing to look at
the variable again. -/
theorem value_of_override (resolved : (s.resolve env policy).result = .ok found)
    (named : (s.resolve env policy).settings.text .dialect = d.name) {f : DatabaseField} {name : String}
    (listed : (.database d f, name) ∈ Tables.overrides) :
    env.valueOr name (((s.resolve env policy).settings.database d).text f) =
      ((s.resolve env policy).settings.database d).text f := by
  have chosen : isSelected env s (.database d f) = true := by
    rw [isSelected, selected_of_resolve resolved, named]
    exact decide_eq_true rfl
  have given : override? env s (.database d f) = env.value? name := by
    have entry : given? Tables.overrides (.database d f) = some name := given?_of_mem overrides_once listed
    rw [override?, chosen, entry]
    rfl
  have leaf := (resolve_layered env policy s found resolved).1 (.database d f)
  rw [layered, given] at leaf
  rw [Environment.valueOr]
  cases given : env.value? name with
  | none => rfl
  | some value =>
    rw [given] at leaf
    exact Except.ok.inj leaf

namespace Connection

/-- A driver's text depends on the host, and on the other parts as far as the backend uses them. -/
theorem descriptor_congr {a b : Connection} {withDatabase : Bool} (dialect : a.dialect = b.dialect)
    (hostname : a.hostname = b.hostname)
    (login : b.dialect ≠ .bolt → a.username = b.username ∧ a.password = b.password)
    (options : a.options = b.options)
    (database : withDatabase = true → b.dialect ≠ .bolt → a.dbName = b.dbName) :
    a.descriptor withDatabase = b.descriptor withDatabase := by
  unfold descriptor
  rw [dialect, hostname, options]
  cases backend : b.dialect with
  | bolt => rfl
  | mysql =>
    obtain ⟨username, password⟩ := login (by simp [backend])
    cases withDatabase with
    | false => simp only [username, password, Bool.false_eq_true, if_false]
    | true => simp only [username, password, database rfl (by simp [backend])]
  | postgres =>
    obtain ⟨username, password⟩ := login (by simp [backend])
    cases withDatabase with
    | false => simp only [username, password, Bool.false_eq_true, if_false]
    | true => simp only [username, password, database rfl (by simp [backend])]

end Connection

namespace Backend

theorem connection_named {r : Settings} (named : r.text .dialect = d.name) (env : Environment) :
    connection env r = .ok (connectionOf env d (r.database d)) := by
  have given : d.name ≠ "" := by cases d <;> decide
  rw [connection, select, named, if_pos given, Dialect.ofName?_name]
  rfl

/-- The text that the driver of resolved settings takes is the same with and without the environment, the name of the
database apart; that too if its own variable is not set. -/
theorem connection_resolved (resolved : (s.resolve env policy).result = .ok found)
    (named : (s.resolve env policy).settings.text .dialect = d.name) :
    let r := (s.resolve env policy).settings
    ∃ live plain, connection env r = .ok live ∧ connection [] r = .ok plain ∧
      live.descriptor false = plain.descriptor false ∧
      (env.value? Tables.databaseVariable = none → live.descriptor true = plain.descriptor true) := by
  intro r
  have part {f : DatabaseField} {name : String} (listed : (.database d f, name) ∈ Tables.overrides) :
      env.valueOr name ((r.database d).text f) = (r.database d).text f := value_of_override resolved named listed
  have host : (connectionOf env d (r.database d)).hostname = (connectionOf [] d (r.database d)).hostname := by
    refine part (?_ : (Leaf.database d .hostname, Tables.hostVariable) ∈ Tables.overrides)
    cases d <;> decide +kernel
  have login (other : d ≠ .bolt) :
      (connectionOf env d (r.database d)).username = (connectionOf [] d (r.database d)).username ∧
        (connectionOf env d (r.database d)).password = (connectionOf [] d (r.database d)).password := by
    have listed : (Leaf.database d .username, Tables.userVariable) ∈ Tables.overrides ∧
        (Leaf.database d .password, Tables.passwordVariable) ∈ Tables.overrides := by
      cases d with
      | bolt => exact absurd rfl other
      | _ => decide +kernel
    exact ⟨part listed.1, part listed.2⟩
  refine ⟨_, _, connection_named named env, connection_named named [], ?_, fun unset => ?_⟩
  · exact Connection.descriptor_congr rfl host login rfl fun h => by cases h
  · have database : (connectionOf env d (r.database d)).dbName = (connectionOf [] d (r.database d)).dbName := by
      show env.valueOr Tables.databaseVariable _ = _
      rw [Environment.valueOr, unset]
      rfl
    exact Connection.descriptor_congr rfl host login rfl fun _ _ => database

/-- The environment selects another backend than the file and replaces a part of its login. -/
theorem connection_resolved_postgres :
    let s : Settings :=
      { text := fun _ => "mysql", database := fun _ => { text := fun _ => "local", options := [("ssl", "on")] } }
    let env : Environment := [("SEMAPHORE_DB_DIALECT", "postgres"), ("SEMAPHORE_DB_HOST", "db"),
      ("SEMAPHORE_DB_PASS", "a b@c"), ("SEMAPHORE_DB", "app")]
    ∃ found live plain, (s.resolve env .collect).result = .ok found ∧
      (s.resolve env .collect).settings.text .dialect = Dialect.postgres.name ∧
      env.value? Tables.databaseVariable = none ∧
      connection env (s.resolve env .collect).settings = .ok live ∧
      connection [] (s.resolve env .collect).settings = .ok plain ∧
      live.descriptor false = plain.descriptor false ∧ live.descriptor true = plain.descriptor true ∧
      plain.descriptor true = "postgres://local:a+b%40c@db/app?ssl=on" := by
  intro s env
  have named : (s.resolve env .collect).settings.text .dialect = Dialect.postgres.name := by decide +kernel
  have unset : env.value? Tables.databaseVariable = none := by decide +kernel
  have shown : (connection [] (s.resolve env .collect).settings).toOption.map (·.descriptor true) =
      some "postgres://local:a+b%40c@db/app?ssl=on" := by decide +kernel
  have done : (s.resolve env .collect).result.toOption.isSome = true := by decide +kernel
  cases resolved : (s.resolve env .collect).result with
  | error e =>
    rw [resolved] at done
    cases done
  | ok found =>
    obtain ⟨live, plain, hl, hp, without, within⟩ := connection_resolved resolved named
    rw [hp] at shown
    exact ⟨found, live, plain, rfl, named, unset, hl, hp, without, within unset, Option.some.inj shown⟩

end Backend

end ServerSettings
