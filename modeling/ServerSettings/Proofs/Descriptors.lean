import ServerSettings.Proofs.FormEncoding
import ServerSettings.Proofs.Policies
import ServerSettings.Proofs.Verbatim

/-!
# The texts that drivers take

* `mergedOptions_eq`: the options that the driver is given anyway stand first, with the user's values, and the other
  options of the user behind them;
* `descriptor_mysql`: so the text for MySQL has every option once;
* `descriptor_postgres`: the text for Postgres has the password in a place that it cannot leave, and tells it apart from
  every other password;
* `run_connect`: what a run prints that asks for such a text, and when that is the text itself.
-/

namespace ServerSettings

namespace Backend

variable {options : Dict String}

/-- The options that the driver is given anyway stand first, with the user's values if there are any; the other options
of the user stand behind them in their own order. -/
theorem mergedOptions_eq (once : options.Distinct) : mergedOptions options =
    [("parseTime", (options.lookup "parseTime").getD "true"),
      ("interpolateParams", (options.lookup "interpolateParams").getD "true")] ++
      options.filter fun p => p.1 ∉ ["parseTime", "interpolateParams"] :=
  Dict.foldl_put (d := mysqlOptions) (by decide : ["parseTime", "interpolateParams"].Nodup) once

theorem distinct_mergedOptions (options : Dict String) : (mergedOptions options).Distinct :=
  Dict.Distinct.foldl_put (d := mysqlOptions) (by decide : ["parseTime", "interpolateParams"].Nodup) options

theorem mem_keys_mergedOptions (options : Dict String) (key : String) :
    key ∈ (mergedOptions options).keys ↔ key ∈ ["parseTime", "interpolateParams"] ∨ key ∈ options.keys :=
  Dict.mem_keys_foldl_put mysqlOptions options key

/-- No option of the user is lost, and none gets another value. -/
theorem mem_mergedOptions (once : options.Distinct) {p : String × String} (mem : p ∈ options) :
    p ∈ mergedOptions options := by
  have value := Dict.lookup_of_mem once mem
  rw [mergedOptions_eq once]
  by_cases known : p.1 ∈ ["parseTime", "interpolateParams"]
  · apply List.mem_append_left
    simp only [List.mem_cons, List.not_mem_nil, or_false] at known ⊢
    rcases known with same | same
    · rw [same] at value
      exact .inl (Prod.ext same (by rw [value]; rfl))
    · rw [same] at value
      exact .inr (Prod.ext same (by rw [value]; rfl))
  · apply List.mem_append_right
    simpa [mem] using known

/-- Options that there are, as a text. -/
theorem queryString_cons (p : String × String) (rest : Dict String) :
    queryString (p :: rest) = "?" ++ "&".intercalate ((p :: rest).map fun p => p.1 ++ "=" ++ p.2) :=
  rfl

end Backend

namespace Connection

open Backend

variable {c : Connection}

/-- The text for MySQL ends in options, each once: first the two that the driver is given anyway, with the user's values
if there are any and `true` otherwise, and then the others of the user, in their own order and with their own values. -/
theorem descriptor_mysql (backend : c.dialect = .mysql) (once : c.options.Distinct) (withDatabase : Bool) :
    let entries : Dict String :=
      [("parseTime", (c.options.lookup "parseTime").getD "true"),
        ("interpolateParams", (c.options.lookup "interpolateParams").getD "true")] ++
        c.options.filter fun p => p.1 ∉ ["parseTime", "interpolateParams"]
    c.descriptor withDatabase =
        c.username ++ ":" ++ c.password ++ "@tcp(" ++ c.hostname ++ ")/" ++ (if withDatabase then c.dbName else "") ++
          "?" ++ "&".intercalate (entries.map fun p => p.1 ++ "=" ++ p.2) ∧
      entries.Distinct ∧
      (∀ key, key ∈ entries.keys ↔ key ∈ ["parseTime", "interpolateParams"] ∨ key ∈ c.options.keys) ∧
      ∀ p ∈ c.options, p ∈ entries := by
  intro entries
  have merged : mergedOptions c.options = entries := mergedOptions_eq once
  refine ⟨?_, ?_, ?_, ?_⟩
  · have query : queryString entries = "?" ++ "&".intercalate (entries.map fun p => p.1 ++ "=" ++ p.2) :=
      queryString_cons _ _
    simp only [descriptor, backend, merged, query, String.append_assoc]
  · rw [← merged]
    exact distinct_mergedOptions c.options
  · intro key
    rw [← merged]
    exact mem_keys_mergedOptions c.options key
  · intro p mem
    rw [← merged]
    exact mem_mergedOptions once mem

/-- An option of the user takes the place of one of the two, and another one goes behind them. -/
theorem descriptor_mysql_overridden :
    let c : Connection :=
      { dialect := .mysql, hostname := "db:3306", username := "root", password := "p@ss", dbName := "app",
        options := [("tls", "skip"), ("interpolateParams", "false"), ("charset", "utf8")] }
    c.options.Distinct ∧ c.descriptor true =
      "root:p@ss@tcp(db:3306)/app?parseTime=true&interpolateParams=false&tls=skip&charset=utf8" := by
  intro c
  have once : c.options.Distinct := (by decide : ["tls", "interpolateParams", "charset"].Nodup)
  obtain ⟨shown, _⟩ := descriptor_mysql (c := c) rfl once true
  refine ⟨once, ?_⟩
  rw [shown]
  decide

/-- The text for Postgres has the form-encoded password between a colon and an at sign: letters, digits and six marks,
which stand for the password and for no other. What is behind it does not depend on the password, so different passwords
give different texts. -/
theorem descriptor_postgres (backend : c.dialect = Dialect.postgres) (withDatabase : Bool) :
    let rest := c.hostname ++ (if withDatabase then "/" ++ c.dbName else "") ++ queryString c.options
    let shown (password : String) := ({ c with password } : Connection).descriptor withDatabase
    (∀ password, ∃ q, shown password = "postgres://" ++ c.username ++ ":" ++ q ++ "@" ++ rest ∧
      (∀ ch ∈ q.toList, ch.isAlphanum = true ∨ ch ∈ ['_', '.', '~', '%', '+', '-']) ∧
      FormEncoding.decode q = password.toList) ∧
    ∀ password password', shown password = shown password' → password = password' := by
  intro rest shown
  have text (password : String) : shown password =
      "postgres://" ++ c.username ++ ":" ++ FormEncoding.encode password ++ "@" ++ rest := by
    simp only [shown, descriptor, backend, rest, String.append_assoc]
  refine ⟨?_, ?_⟩
  · intro password
    exact ⟨FormEncoding.encode password, text password, FormEncoding.isSafe_encode password,
      FormEncoding.decode_encode password⟩
  · intro password password' same
    rw [text, text] at same
    apply FormEncoding.encode_injective
    simpa using same

/-- Marks that would end the password, a blank and a letter of two bytes stand encoded; a password that looks encoded is
not taken for the one that it would stand for. -/
theorem descriptor_postgres_marks :
    let c : Connection := { dialect := .postgres, hostname := "pg:5432", username := "sem", dbName := "app" }
    let shown (password : String) := ({ c with password } : Connection).descriptor true
    (∃ q, shown "p@/ +é" = "postgres://sem:" ++ q ++ "@pg:5432/app" ∧ FormEncoding.decode q = "p@/ +é".toList) ∧
      shown "p@/ +é" = "postgres://sem:p%40%2F+%2B%C3%A9@pg:5432/app" ∧ shown "p@" ≠ shown "p%40" := by
  intro c shown
  obtain ⟨encoded, different⟩ := descriptor_postgres (c := c) rfl true
  obtain ⟨q, text, _, read⟩ := encoded "p@/ +é"
  refine ⟨⟨q, ?_, read⟩, by decide +kernel, ?_⟩
  · have joined : "postgres://" ++ "sem" ++ ":" ++ q ++ "@" ++ ("pg:5432" ++ ("/" ++ "app") ++ "") =
        "postgres://sem:" ++ q ++ "@pg:5432/app" := by
      have front : "postgres://" ++ "sem" ++ ":" = "postgres://sem:" := by decide
      have back : "@" ++ ("pg:5432" ++ ("/" ++ "app") ++ "") = "@pg:5432/app" := by decide
      rw [String.append_assoc, front, back]
    exact text.trans joined
  · intro same
    have equal : "p@" = "p%40" := different _ _ same
    revert equal
    decide

end Connection

namespace Command

open ConfigFile (Loaded)

/-- How the text of a connection is shown of loaded settings. -/
theorem report_descriptor (withDatabase : Bool) (env : Environment) (isColoured : Bool) (s : Settings)
    (found : List Problem) : View.report (.descriptor withDatabase) env isColoured (s, found) =
      match Backend.connection env s with
      | .ok c => .ok (.success, ({} : Console.Printed).text (c.descriptor withDatabase))
      | .error e => .error (.settings e) := by
  cases connected : Backend.connection env s <;> simp only [View.report, connected] <;> rfl

theorem code_ofError_ne_success (e : Error) : (Ending.ofError e).code ≠ .success := by
  rw [code_ofError]
  split <;> decide

/-- The text of a connection is shown only of settings that were loaded and name a backend. -/
theorem connected_of_success {loaded : Except Error Loaded} {withDatabase : Bool} {env : Environment} {isColoured : Bool}
    (succeeded : codeOf (.descriptor withDatabase) env isColoured loaded = .success) :
    ∃ s found c, loaded = .ok (s, found) ∧ Backend.connection env s = .ok c := by
  cases loaded with
  | error e => exact absurd succeeded (code_ofError_ne_success e)
  | ok pair =>
    obtain ⟨s, found⟩ := pair
    have code : codeOf (.descriptor withDatabase) env isColoured (.ok (s, found)) =
        (Transcript.ofReport [] (View.report (.descriptor withDatabase) env isColoured (s, found))).ending.code := rfl
    rw [code, report_descriptor] at succeeded
    cases connected : Backend.connection env s with
    | error e =>
      rw [connected] at succeeded
      exact absurd succeeded (code_ofError_ne_success e)
    | ok c => exact ⟨s, found, c, rfl, connected⟩

variable {line : List String} {g : Given} {isTerminal : Bool} {k : Machine} {s : Settings} {found : List Problem}
  {c : Connection}

/-- A run that asks for the text of the connection prints it if the settings that it loads name a backend. -/
theorem printed_connect (read : Request.read line = .ok (Request.ofGiven .connect g)) (isTerminal : Bool)
    (loaded : ((ConfigFile.load (g.value? .file) k.environment none .refuse : StateM Machine _) k).1.result =
      .ok (s, found))
    (connected : Backend.connection k.environment s = .ok c) :
    exitCode line isTerminal k = .success ∧ ((run line isTerminal : StateM Machine _) k).1.printed.output =
      Console.printText (c.descriptor (!g.has .noDatabase)) := by
  have shown : ((run line isTerminal : StateM Machine _) k).1.shown =
      (({} : Console.Printed).text (c.descriptor (!g.has .noDatabase)), exit .success) := by
    rw [run, read]
    refine (shown_inspect_loaded (.ofGiven .connect g) (.descriptor (!g.has .noDatabase)) isTerminal loaded).trans ?_
    rw [report_descriptor, connected]
    rfl
  obtain ⟨printed, ending⟩ := Prod.mk.inj shown
  refine ⟨congrArg Ending.code ending, ?_⟩
  rw [printed, Console.Printed.text, String.empty_append]

/-- A machine whose environment names a file as the backend. -/
def connectingMachine (file : String) : Machine :=
  let key := "c3Nzc3Nzc3Nzc3Nzc3Nzc3Nzc3Nzc3Nzc3Nzc3Nzc3M="
  { Machine.withConfig (Utf8.encode ['\x7b', '\x7d']) with
    environment := [("SEMAPHORE_COOKIE_HASH", key), ("SEMAPHORE_COOKIE_ENCRYPTION", key),
      ("SEMAPHORE_ACCESS_KEY_ENCRYPTION", key), ("SEMAPHORE_DB_DIALECT", "bolt"), ("SEMAPHORE_DB_HOST", file)] }

theorem connectingMachine_text : ∀ file ∈ ["/data/[b].db", "/data/a\tb.db"],
    let k := connectingMachine file
    (((ConfigFile.load none k.environment none .refuse : StateM Machine _) k).1.result.toOption.bind fun loaded =>
      (Backend.connection k.environment loaded.1).toOption.map (·.descriptor true)) = some file := by
  decide +kernel

theorem connectingMachine_loads (file : String) (mem : file ∈ ["/data/[b].db", "/data/a\tb.db"]) :
    let k := connectingMachine file
    ∃ s found c,
      ((ConfigFile.load none k.environment none .refuse : StateM Machine _) k).1.result = .ok (s, found) ∧
      Backend.connection k.environment s = .ok c ∧ c.descriptor true = file := by
  intro k
  obtain ⟨⟨s, found⟩, loaded, text⟩ := Option.bind_eq_some_iff.mp (connectingMachine_text file mem)
  obtain ⟨c, connected, text⟩ := Option.map_eq_some_iff.mp text
  exact ⟨s, found, c, ok_of_toOption loaded, ok_of_toOption connected, text⟩

end Command

end ServerSettings
