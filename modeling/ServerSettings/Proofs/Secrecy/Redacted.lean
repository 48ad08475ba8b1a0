import ServerSettings.Proofs.Policies
import ServerSettings.Proofs.Printing

/-!
# What a redacted document hides

Redaction goes by the keys alone. Over the document of settings that comes to a list of places, and everything else
stands as it did.

* `isSecretPlace`: the places, by their path from the root;
* `Json.conceal`: a document with the members at some places replaced, and with nothing else changed;
* `Settings.redact_toJson`: to redact the document of settings is to conceal those places;
* `show_redacted`: so a command line that asks for the redacted document prints this one, and it can be read back.
-/

namespace ServerSettings

/-- The keys of secrets at the root. -/
def secretKeys : List String :=
  ["cookie_hash", "cookie_encryption", "access_key_encryption", "email_password", "ldap_bindpassword", "telegram_token"]

def storageGroups : List String := ["mysql", "bolt", "postgres"]

/-- Is there a secret at a path in the document of settings? Options and providers have names of their own, which tell
of secrets as keys do. -/
def isSecretPlace : List String → Bool
  | [key] => key ∈ secretKeys
  | [group, key] => if group = "oidc_providers" then isSensitiveKey key else group ∈ storageGroups && key = "pass"
  | [group, part, key] =>
    if group = "oidc_providers" then key = "client_secret"
    else group ∈ storageGroups && part = "options" && isSensitiveKey key
  | _ => false

theorem isSecretPlace_provider (name : String) : isSecretPlace ["oidc_providers", name] = isSensitiveKey name := by
  rw [isSecretPlace]
  exact if_pos rfl

theorem isSecretPlace_ofProvider (name key : String) :
    isSecretPlace ["oidc_providers", name, key] = decide (key = "client_secret") := by
  rw [isSecretPlace]
  exact if_pos rfl

namespace Json

mutual

/-- A document in which the members at hidden paths are replaced. What stands in lists has no path. -/
def conceal (hidden : List String → Bool) (path : List String) : Json → Json
  | .obj members => .obj (concealMembers hidden path members)
  | v => v

def concealMembers (hidden : List String → Bool) (path : List String) : List (String × Json) → List (String × Json)
  | [] => []
  | (key, v) :: rest =>
    (key, if hidden (path ++ [key]) then redacted else conceal hidden (path ++ [key]) v) ::
      concealMembers hidden path rest

end

theorem concealMembers_eq (hidden : List String → Bool) (path : List String) (members : Dict Json) :
    concealMembers hidden path members = members.map fun m =>
      (m.1, if hidden (path ++ [m.1]) then redacted else conceal hidden (path ++ [m.1]) m.2) := by
  induction members with
  | nil => rfl
  | cons entry rest ih => rw [concealMembers, ih, List.map_cons]

/-- At a path, redaction hides exactly the places of a document that are hidden. -/
def Hides (hidden : List String → Bool) (path : List String) (v : Json) : Prop :=
  v.redact = v.conceal hidden path

variable {hidden : List String → Bool} {path : List String}

theorem hides_str (s : String) : Hides hidden path (.str s) := rfl

/-- An object hides what it should if its keys tell of the places that are hidden, and what stands at the others hides
what it should. -/
theorem hides_obj {ι : Type} {index : List ι} {key : ι → String} {write : ι → Json}
    (told : ∀ i ∈ index, isSensitiveKey (key i) = hidden (path ++ [key i]))
    (inside : ∀ i ∈ index, hidden (path ++ [key i]) = false → Hides hidden (path ++ [key i]) (write i)) :
    Hides hidden path (.obj (index.map fun i => (key i, write i))) := by
  rw [Hides, redact, conceal, redactMembers_eq, concealMembers_eq, List.map_map, List.map_map]
  refine congrArg Json.obj (List.map_congr_left fun i mem => ?_)
  simp only [Function.comp_apply, told i mem]
  cases place : hidden (path ++ [key i]) with
  | true => rfl
  | false => rw [inside i mem place]

end Json

open ConfigFile (Loaded)
open Json (Hides Legible)

section Groups

variable {hidden : List String → Bool} {path : List String}

theorem hides_writeGroup {ι γ : Type} {index : List ι} {slot : ι → Slot γ} {g : γ}
    (told : ∀ i ∈ index, isSensitiveKey (slot i).key = hidden (path ++ [(slot i).key]))
    (inside : ∀ i ∈ index, hidden (path ++ [(slot i).key]) = false →
      Hides hidden (path ++ [(slot i).key]) ((slot i).write g)) :
    Hides hidden path (writeGroup (index.map slot) g) := by
  rw [writeGroup, List.map_map]
  exact Json.hides_obj told inside

theorem hides_writeTexts (items : List String) : Hides hidden path (writeTexts items) := by
  have same : Json.redactItems (items.map .str) = items.map .str := by
    rw [Json.redactItems_eq, List.map_map]
    rfl
  exact congrArg Json.arr same

theorem Database.keys_told : ∀ d ∈ Dialect.all, ∀ i ∈ places,
    isSensitiveKey (slotAt i).key = isSecretPlace [d.name, (slotAt i).key] := by
  decide +kernel

theorem Database.hides (d : Dialect) (db : Database) : Hides isSecretPlace [d.name] db.toJson := by
  rw [toJson, slots_eq]
  refine hides_writeGroup (keys_told d (by cases d <;> decide)) fun i _ _ => ?_
  cases i with
  | some f => exact Json.hides_str _
  | none =>
    refine Json.hides_obj (fun entry _ => ?_) fun _ _ _ => Json.hides_str _
    cases d <;> rfl

theorem Mappings.keys_told : ∀ f ∈ MappingField.all,
    isSensitiveKey (slotAt f).key = isSecretPlace ["ldap_mappings", (slotAt f).key] := by
  decide +kernel

theorem Mappings.hides (m : Mappings) : Hides isSecretPlace ["ldap_mappings"] m.toJson := by
  rw [toJson, slots_eq]
  exact hides_writeGroup keys_told fun _ _ _ => Json.hides_str _

theorem Endpoint.keys_told : ∀ i ∈ places, isSensitiveKey (slotAt i).key = false := by
  decide +kernel

theorem Endpoint.hides (name : String) (e : Endpoint) :
    Hides isSecretPlace ["oidc_providers", name, "endpoint"] e.toJson := by
  rw [toJson, slots_eq]
  refine hides_writeGroup keys_told fun i _ _ => ?_
  cases i with
  | some f => exact Json.hides_str _
  | none => exact hides_writeTexts _

theorem Provider.keys_told : ∀ m ∈ Member.all,
    isSensitiveKey (slot m).key = decide ((slot m).key = "client_secret") := by
  decide +kernel

theorem Provider.hides (name : String) (p : Provider) : Hides isSecretPlace ["oidc_providers", name] p.toJson := by
  rw [toJson, slots]
  refine hides_writeGroup (fun m mem => ?_) fun m _ _ => ?_
  · rw [List.cons_append, List.singleton_append, isSecretPlace_ofProvider]
    exact keys_told m mem
  · cases m with
    | text f => exact Json.hides_str _
    | scopes => exact hides_writeTexts _
    | endpoint => exact Endpoint.hides name p.endpoint

theorem Settings.keys_told : ∀ m ∈ Member.all, isSensitiveKey (slot m).key = isSecretPlace [(slot m).key] := by
  decide +kernel

/-- Redaction hides exactly the secret places of a document of settings. -/
theorem Settings.redact_toJson (s : Settings) : s.toJson.redact = s.toJson.conceal isSecretPlace [] := by
  show Hides isSecretPlace [] s.toJson
  rw [toJson, slots]
  refine hides_writeGroup keys_told fun m _ _ => ?_
  cases m with
  | database d => exact (s.database d).hides d
  | mappings => exact s.mappings.hides
  | providers =>
    refine Json.hides_obj (fun entry _ => ?_) fun entry _ _ => entry.2.hides entry.1
    exact (isSecretPlace_provider entry.1).symm
  | _ => rfl

end Groups

/-- A redacted document can be read back. -/
theorem Json.Legible.redact {d : Nat} {v : Json} (h : Legible d v) : Legible d v.redact := by
  induction h with
  | null => exact .null _
  | bool _ b => exact .bool _ b
  | int _ short => exact .int _ short
  | str _ s => exact .str _ s
  | @arr d items parts ih =>
    rw [Json.redact, redactItems_eq]
    refine .arr fun v mem => ?_
    obtain ⟨item, inside, rfl⟩ := List.mem_map.mp mem
    exact ih item inside
  | @obj d members once parts ih =>
    rw [Json.redact, redactMembers_eq]
    refine .obj ?_ fun entry mem => ?_
    · rw [Dict.Distinct, Dict.keys, List.map_map]
      exact once
    · obtain ⟨member, inside, rfl⟩ := List.mem_map.mp mem
      dsimp only
      split
      · exact .str _ _
      · exact ih member inside

/-- What is loaded without a problem can be read back from its text. -/
theorem ConfigFile.Agree.legible {collected : Except Error Loaded} {s : Settings} {found : List Problem}
    (h : Agree collected (.ok (s, found))) : Legible 5 s.toJson := by
  cases h with
  | accepted keyed short => exact Settings.legible keyed short

namespace Command

theorem legible_of_load {file : Option String} {env : Environment} {directory : Option String} {k : Machine}
    {s : Settings} {found : List Problem}
    (loaded : ((ConfigFile.load file env directory .refuse : StateM Machine _) k).1.result = .ok (s, found)) :
    Legible 5 s.toJson := by
  have agree := ConfigFile.load_agrees file env directory k
  rw [loaded] at agree
  exact agree.legible

theorem documentText_concealed {s : Settings} (legible : Legible 5 s.toJson) : View.documentText true s =
    .ok (String.ofList (Json.write Settings.layout 0 (s.toJson.conceal isSecretPlace []))) := by
  rw [documentText_redacted, if_pos legible.isWritable, Json.text, if_pos legible.redact.isWritable, s.redact_toJson]
  rfl

/-- Without colour, the redacted document is printed as it is written, and nothing else. -/
theorem report_redacted {s : Settings} (legible : Legible 5 s.toJson) (env : Environment) (found : List Problem) :
    View.report (.document true) env false (s, found) = .ok (.success,
      { output := String.ofList (Json.write Settings.layout 0 (s.toJson.conceal isSecretPlace []) ++ ['\n']) }) := by
  have concealed : Legible 5 (s.toJson.conceal isSecretPlace []) := by
    rw [← s.redact_toJson]
    exact legible.redact
  show (do let text ← (View.documentText true s).mapError Failure.settings; _) = _
  rw [documentText_concealed legible]
  show Except.ok (ExitCode.success, ({} : Console.Printed).text _) = _
  rw [Console.Printed.text, Console.printText_write Settings.layout concealed, String.empty_append]

theorem read_printed {v : Json} (legible : Legible 5 v) :
    Json.read (String.ofList (Json.write Settings.layout 0 v ++ ['\n'])) = .ok v := by
  obtain ⟨c, more, first, _, _, unmarked⟩ := Json.write_cons legible Settings.layout 0
  have whole : Json.readChars {} (Json.write Settings.layout 0 v ++ ['\n']) = .ok v :=
    Json.readChars_write rfl Settings.digits_room legible (by decide) (Json.ends_cons [] (by decide)) rfl
  rw [Json.read, String.toList_ofList, if_neg (by rw [first]; simpa using unmarked), whole]

variable {line : List String} {r : Request} {k : Machine} {isTerminal : Bool} {s : Settings} {found : List Problem}

/-- What a command line shows that asks for the redacted document, without colour. -/
theorem shown_redacted (read : Request.read line = .ok r) (asked : r.task = .inspect (.document true))
    (plain : Console.isColourAllowed r.declinesColour k.environment isTerminal = false)
    (loaded : ((ConfigFile.load r.file k.environment none .refuse : StateM Machine _) k).1.result = .ok (s, found)) :
    ((run line isTerminal : StateM Machine _) k).1.shown =
      ({ output := String.ofList (Json.write Settings.layout 0 (s.toJson.conceal isSecretPlace []) ++ ['\n']) },
        exit .success) := by
  rw [run, read]
  simp only [Request.perform, asked]
  rw [shown_inspect_loaded r (.document true) isTerminal loaded, plain, report_redacted (legible_of_load loaded)]
  rfl

/-- Settings of a server with a secret in each kind of place, and with an option and a provider whose names tell of
one. -/
def guardedSettings : Settings where
  database _ := { text := fun _ => "hunter2", options := [("tls", "on"), ("ssl_Password", "hunter3")] }
  text
    | .cookieHash | .cookieEncryption | .accessKeyEncryption => "c3Nzc3Nzc3Nzc3Nzc3Nzc3Nzc3Nzc3Nzc3Nzc3Nzc3M="
    | .emailPassword => "hunter4"
    | _ => ""
  providers := [("corp", { text := fun _ => "hunter5" }), ("secret", {})]

end Command

end ServerSettings
