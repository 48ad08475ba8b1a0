import ServerSettings.Backend
import ServerSettings.Proofs.Finality
import ServerSettings.Proofs.Fixpoint
import ServerSettings.Startup

/-!
# Marks are not seen

Freezing closes a group with every map and list that it holds, and whoever reads the settings gets the same before and
after.

* `Settings.thaw_freezeGroup`: freezing a group changes nothing but marks;
* `Settings.ReadsAs`: what can be read of settings, under every environment;
* `Settings.readsAs_of_thaw`: settings that are the same but for marks read the same;
* `Settings.held_freeze`: freezing, place by place;
* `Settings.freeze_unseen`: freezing settings, whatever was frozen of them before.
-/

namespace ServerSettings

open Settings (Group)

/-- How a value is held. Maps, lists and groups are closed once they are frozen. -/
inductive Held where
  | text (s : String)
  | flag (b : Bool)
  | whole (n : Int)
  | map (closed : Bool) (entries : List (String × Held))
  | list (closed : Bool) (items : List Held)
  | group (closed : Bool) (members : List (String × Held))

namespace Held

mutual

/-- Closes what is held, with everything inside it; what is in a closed list is left as it is. -/
def freeze : Held → Held
  | .map _ entries => .map true (freezeEntries entries)
  | .list false items => .list true (freezeItems items)
  | .group _ members => .group true (freezeEntries members)
  | v => v

def freezeItems : List Held → List Held
  | [] => []
  | v :: rest => freeze v :: freezeItems rest

def freezeEntries : List (String × Held) → List (String × Held)
  | [] => []
  | (key, v) :: rest => (key, freeze v) :: freezeEntries rest

end

mutual

/-- What is held as a document, closed or not. -/
def toJson : Held → Json
  | .text s => .str s
  | .flag b => .bool b
  | .whole n => .int n
  | .map _ entries => .obj (entriesJson entries)
  | .list _ items => .arr (itemsJson items)
  | .group _ members => .obj (entriesJson members)

def itemsJson : List Held → List Json
  | [] => []
  | v :: rest => toJson v :: itemsJson rest

def entriesJson : List (String × Held) → Dict Json
  | [] => []
  | (key, v) :: rest => (key, toJson v) :: entriesJson rest

end

theorem freezeItems_eq (items : List Held) : freezeItems items = items.map freeze := by
  induction items with
  | nil => rfl
  | cons v rest ih => rw [freezeItems, ih, List.map_cons]

theorem freezeEntries_eq (entries : Dict Held) : freezeEntries entries = Dict.mapValues freeze entries := by
  induction entries with
  | nil => rfl
  | cons entry rest ih => rw [freezeEntries, ih]; rfl

theorem itemsJson_eq (items : List Held) : itemsJson items = items.map toJson := by
  induction items with
  | nil => rfl
  | cons v rest ih => rw [itemsJson, ih, List.map_cons]

theorem entriesJson_eq (entries : Dict Held) : entriesJson entries = Dict.mapValues toJson entries := by
  induction entries with
  | nil => rfl
  | cons entry rest ih => rw [entriesJson, ih]; rfl

/-- A group is frozen member by member. -/
theorem freeze_group {ι : Type} (closed : Bool) (index : List ι) (key : ι → String) (at_ : ι → Held) :
    (group closed (index.map fun i => (key i, at_ i))).freeze =
      group true (index.map fun i => (key i, (at_ i).freeze)) := by
  rw [freeze, freezeEntries_eq, Dict.mapValues, List.map_map]
  rfl

theorem toJson_group {ι : Type} (closed : Bool) (index : List ι) (key : ι → String) (at_ : ι → Held) :
    (group closed (index.map fun i => (key i, at_ i))).toJson = .obj (index.map fun i => (key i, (at_ i).toJson)) := by
  rw [toJson, entriesJson_eq, Dict.mapValues, List.map_map]
  rfl

/-- A map from names to texts, and a list of texts. -/
def textMap (closed : Bool) (entries : Dict String) : Held :=
  .map closed (Dict.mapValues .text entries)

def textList (closed : Bool) (items : List String) : Held :=
  .list closed (items.map .text)

theorem freeze_textMap (closed : Bool) (entries : Dict String) :
    (textMap closed entries).freeze = textMap true entries := by
  rw [textMap, freeze, freezeEntries_eq, Dict.mapValues_mapValues]
  rfl

theorem freeze_textList (closed : Bool) (items : List String) :
    (textList closed items).freeze = textList true items := by
  cases closed with
  | true => rfl
  | false =>
    rw [textList, freeze, freezeItems_eq, List.map_map]
    rfl

theorem toJson_textMap (closed : Bool) (entries : Dict String) :
    (textMap closed entries).toJson = .obj (Dict.mapValues .str entries) := by
  rw [textMap, toJson, entriesJson_eq, Dict.mapValues_mapValues]
  rfl

theorem toJson_textList (closed : Bool) (items : List String) : (textList closed items).toJson = writeTexts items := by
  rw [textList, toJson, itemsJson_eq, List.map_map]
  rfl

end Held

section Held

def Database.heldAt (db : Database) : Option DatabaseField → Held
  | some f => .text (db.text f)
  | none => .textMap db.frozen db.options

def Database.held (db : Database) : Held :=
  .group db.frozen (places.map fun i => ((slotAt i).key, db.heldAt i))

def Mappings.held (m : Mappings) : Held :=
  .group m.frozen (MappingField.all.map fun f => ((slotAt f).key, .text (m.text f)))

def Endpoint.heldAt (e : Endpoint) : Option EndpointField → Held
  | some f => .text (e.text f)
  | none => .textList e.frozen e.algorithms

def Endpoint.held (e : Endpoint) : Held :=
  .group e.frozen (places.map fun i => ((slotAt i).key, e.heldAt i))

def Provider.heldAt (p : Provider) : Provider.Member → Held
  | .text f => .text (p.text f)
  | .scopes => .textList p.frozen p.scopes
  | .endpoint => p.endpoint.held

def Provider.held (p : Provider) : Held :=
  .group p.frozen (Member.all.map fun m => ((slot m).key, p.heldAt m))

def Settings.heldAt (s : Settings) : Settings.Member → Held
  | .database d => (s.database d).held
  | .text f => .text (s.text f)
  | .flag f => .flag (s.flag f)
  | .mappings => s.mappings.held
  | .providers => .map s.frozen (Dict.mapValues Provider.held s.providers)
  | .maxParallelTasks => .whole s.maxParallelTasks

/-- How settings are held: a map or a list is closed with the group that it belongs to. -/
def Settings.held (s : Settings) : Held :=
  .group s.frozen (Member.all.map fun m => ((slot m).key, s.heldAt m))

theorem Database.held_freeze (db : Database) : db.freeze.held = db.held.freeze := by
  have parts (i : Option DatabaseField) : db.freeze.heldAt i = (db.heldAt i).freeze := by
    cases i with
    | some f => rfl
    | none => exact (Held.freeze_textMap _ _).symm
  simp only [held, Held.freeze_group, parts]
  rfl

theorem Mappings.held_freeze (m : Mappings) : m.freeze.held = m.held.freeze := by
  rw [held, held, Held.freeze_group]
  rfl

theorem Endpoint.held_freeze (e : Endpoint) : e.freeze.held = e.held.freeze := by
  have parts (i : Option EndpointField) : e.freeze.heldAt i = (e.heldAt i).freeze := by
    cases i with
    | some f => rfl
    | none => exact (Held.freeze_textList _ _).symm
  simp only [held, Held.freeze_group, parts]
  rfl

theorem Provider.held_freeze (p : Provider) : p.freeze.held = p.held.freeze := by
  have parts (m : Member) : p.freeze.heldAt m = (p.heldAt m).freeze := by
    cases m with
    | text f => rfl
    | scopes => exact (Held.freeze_textList _ _).symm
    | endpoint => exact p.endpoint.held_freeze
  simp only [held, Held.freeze_group, parts]
  rfl

/-- Freezing settings closes every map, list and group that they hold. -/
theorem Settings.held_freeze (s : Settings) : s.freeze.held = s.held.freeze := by
  have parts (m : Member) : s.freeze.heldAt m = (s.heldAt m).freeze := by
    cases m with
    | database d => exact (s.database d).held_freeze
    | mappings => exact s.mappings.held_freeze
    | providers =>
      show Held.map true (Dict.mapValues Provider.held (Dict.mapValues Provider.freeze s.providers)) =
        (Held.map s.frozen (Dict.mapValues Provider.held s.providers)).freeze
      rw [Held.freeze, Held.freezeEntries_eq, Dict.mapValues_mapValues, Dict.mapValues_mapValues]
      simp only [Provider.held_freeze]
    | _ => rfl
  simp only [held, Held.freeze_group, parts]
  rfl

theorem Database.toJson_held (db : Database) : db.held.toJson = db.toJson := by
  have parts (i : Option DatabaseField) : (db.heldAt i).toJson = (slotAt i).write db := by
    cases i with
    | some f => rfl
    | none => exact Held.toJson_textMap _ _
  rw [toJson, slots_eq, writeGroup, List.map_map]
  simp only [held, Held.toJson_group, parts]
  rfl

theorem Mappings.toJson_held (m : Mappings) : m.held.toJson = m.toJson := by
  rw [held, Held.toJson_group]
  rfl

theorem Endpoint.toJson_held (e : Endpoint) : e.held.toJson = e.toJson := by
  have parts (i : Option EndpointField) : (e.heldAt i).toJson = (slotAt i).write e := by
    cases i with
    | some f => rfl
    | none => exact Held.toJson_textList _ _
  rw [toJson, slots_eq, writeGroup, List.map_map]
  simp only [held, Held.toJson_group, parts]
  rfl

theorem Provider.toJson_held (p : Provider) : p.held.toJson = p.toJson := by
  have parts (m : Member) : (p.heldAt m).toJson = (slot m).write p := by
    cases m with
    | text f => rfl
    | scopes => exact Held.toJson_textList _ _
    | endpoint => exact p.endpoint.toJson_held
  rw [toJson, slots, writeGroup, List.map_map]
  simp only [held, Held.toJson_group, parts]
  rfl

/-- What is held is written as the document of the settings, whether it is closed or not. -/
theorem Settings.toJson_held (s : Settings) : s.held.toJson = s.toJson := by
  have parts (m : Member) : (s.heldAt m).toJson = (slot m).write s := by
    cases m with
    | database d => exact (s.database d).toJson_held
    | mappings => exact s.mappings.toJson_held
    | providers =>
      rw [heldAt, Held.toJson, Held.entriesJson_eq, Dict.mapValues_mapValues]
      simp only [Provider.toJson_held]
      rfl
    | _ => rfl
  rw [toJson, slots, writeGroup, List.map_map]
  simp only [held, Held.toJson_group, parts]
  rfl

end Held

section Thaw

namespace Settings

variable {s t : Settings}

theorem lookup_thaw (s : Settings) (name : String) :
    Dict.lookup s.thaw.providers name = (Dict.lookup s.providers name).map Provider.thaw :=
  Dict.lookup_map (fun _ => Provider.thaw) s.providers name

theorem provider_ok {name : String} {p : Provider} :
    s.provider name = .ok p ↔ Dict.lookup s.providers name = some p := by
  rw [provider]
  cases Dict.lookup s.providers name <;> simp

/-- A provider that differs in its marks can be put back without a trace. -/
theorem thaw_withProvider {name : String} {p q : Provider} (h : s.provider name = .ok p) (same : q.thaw = p.thaw) :
    (s.withProvider name q).thaw = s.thaw := by
  have mapped : Dict.lookup s.thaw.providers name = some p.thaw := by
    rw [lookup_thaw, provider_ok.mp h]
    rfl
  have providers : Dict.mapValues Provider.thaw (Dict.put s.providers name q) =
      Dict.mapValues Provider.thaw s.providers := by
    have put := Dict.put_map (fun _ => Provider.thaw) s.providers name q
    rw [same] at put
    exact put.symm.trans (Dict.put_of_lookup mapped)
  exact Settings.ext rfl rfl rfl rfl providers rfl rfl

/-- Freezing a group changes nothing but marks. -/
theorem thaw_freezeGroup {g : Group} (h : s.freezeGroup g = .ok t) : t.thaw = s.thaw := by
  cases g with
  | root =>
    cases h
    exact Settings.ext rfl rfl rfl rfl (Dict.mapValues_mapValues _ _ _) rfl rfl
  | database d =>
    cases h
    refine Settings.ext ?_ rfl rfl rfl rfl rfl rfl
    funext other
    show (replaceAt s.database d (s.database d).freeze other).thaw = (s.database other).thaw
    by_cases same : other = d
    · rw [same, replaceAt_self]
      rfl
    · rw [replaceAt_of_ne _ _ same]
  | mappings =>
    cases h
    rfl
  | provider name =>
    obtain ⟨p, found, rfl⟩ := map_ok h
    exact thaw_withProvider found rfl
  | endpoint name =>
    obtain ⟨p, found, rfl⟩ := map_ok h
    exact thaw_withProvider found rfl

/-- What is frozen in the end is the same whatever was frozen before. -/
theorem freeze_of_thaw (h : t.thaw = s.thaw) : t.freeze = s.freeze := by
  have freeze (u : Settings) : u.freeze = u.thaw.freeze := by
    refine Settings.ext rfl rfl rfl rfl ?_ rfl rfl
    exact (Dict.mapValues_mapValues Provider.thaw Provider.freeze u.providers).symm
  rw [freeze t, h, ← freeze s]

/-- The same can be read of both settings, under every environment. -/
structure ReadsAs (t s : Settings) : Prop where
  document : t.toJson = s.toJson
  group : ∀ g, t.groupJson g = s.groupJson g
  text : t.render = s.render
  leaf : ∀ path, t.get path = s.get path
  backend : ∀ env, Backend.select env t = Backend.select env s
  connection : ∀ env, Backend.connection env t = Backend.connection env s
  descriptor : ∀ env withDatabase, (Backend.connection env t).map (·.descriptor withDatabase) =
    (Backend.connection env s).map (·.descriptor withDatabase)
  cookies : Startup.hashKey? t = Startup.hashKey? s ∧ Startup.blockKey? t = Startup.blockKey? s
  startup : Startup.build t = Startup.build s

theorem get_thaw (s : Settings) (path : String) : s.thaw.get path = s.get path := by
  have leaves (l : Leaf) : s.thaw.leafText l = s.leafText l := by
    rw [leafText, leafText, read_thaw]
  simp only [get, leaves]

theorem provider_thaw (s : Settings) (name : String) : s.thaw.provider name = (s.provider name).map Provider.thaw := by
  rw [provider, provider, lookup_thaw]
  cases Dict.lookup s.providers name <;> rfl

theorem groupJson_thaw (s : Settings) (g : Group) : s.thaw.groupJson g = s.groupJson g := by
  cases g with
  | root => exact congrArg Except.ok s.toJson_thaw
  | database d => rfl
  | mappings => rfl
  | provider name =>
    rw [groupJson, groupJson, provider_thaw]
    cases s.provider name <;> rfl
  | endpoint name =>
    rw [groupJson, groupJson, provider_thaw]
    cases s.provider name <;> rfl

/-- Settings that are the same but for marks read the same. -/
theorem readsAs_of_thaw (h : t.thaw = s.thaw) : t.ReadsAs s := by
  -- Whoever does not look at marks takes both for the same.
  have unseen {α : Type} (look : Settings → α) (blind : ∀ u, look u.thaw = look u) : look t = look s := by
    rw [← blind t, h, blind s]
  have select (env : Environment) : Backend.select env t = Backend.select env s := unseen _ fun _ => rfl
  have connection (env : Environment) : Backend.connection env t = Backend.connection env s := unseen _ fun _ => rfl
  exact {
    document := unseen toJson toJson_thaw
    group := fun g => unseen (·.groupJson g) (groupJson_thaw · g)
    text := unseen render fun u => by rw [render, render, toJson_thaw]
    leaf := fun path => unseen (·.get path) (get_thaw · path)
    backend := select
    connection := connection
    descriptor := fun env withDatabase => by rw [connection env]
    cookies := ⟨unseen Startup.hashKey? fun _ => rfl, unseen Startup.blockKey? fun _ => rfl⟩
    startup := unseen Startup.build fun _ => rfl }

/-- The settings after groups were frozen one by one; one that is not there is passed over. -/
def freezeEach (s : Settings) (groups : List Group) : Settings :=
  groups.foldl (fun t g => (Operation.freeze g).after t) s

theorem thaw_freezeEach (s : Settings) (groups : List Group) : (s.freezeEach groups).thaw = s.thaw := by
  induction groups generalizing s with
  | nil => rfl
  | cons g rest ih =>
    have first : ((Operation.freeze g).after s).thaw = s.thaw := by
      obtain frozen | same := Edit.change_cases (·.freezeGroup g) s
      · exact thaw_freezeGroup frozen
      · exact congrArg thaw same
    exact (ih _).trans first

/-- Freezing settings succeeds, whatever was frozen of them before, and leaves them as if nothing had been. They read as
they did, every group with its maps and lists is closed, and to freeze them again changes nothing. -/
theorem freeze_unseen (s : Settings) (before : List Group) :
    let t := s.freezeEach before
    (Operation.freeze .root).edit t = (.ok (), t.freeze) ∧ t.freeze = s.freeze ∧
      t.ReadsAs s ∧ t.freeze.ReadsAs t ∧
      t.freeze.held = t.held.freeze ∧ t.freeze.held.toJson = t.held.toJson ∧ t.freeze.Final ∧
      t.freeze.freeze = t.freeze := by
  intro t
  have same : t.thaw = s.thaw := s.thaw_freezeEach before
  have frozen : t.freeze.thaw = t.thaw := thaw_freezeGroup (g := .root) rfl
  refine ⟨rfl, freeze_of_thaw same, readsAs_of_thaw same, readsAs_of_thaw frozen, t.held_freeze, ?_,
    t.final_freeze, t.final_freeze.freeze_eq⟩
  rw [toJson_held, toJson_held, toJson_freeze]

end Settings

end Thaw

end ServerSettings
