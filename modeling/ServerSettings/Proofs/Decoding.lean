import Mathlib.Data.List.Nodup
import ServerSettings.Proofs.Json.Reading
import ServerSettings.Proofs.Leaves
import ServerSettings.Settings.Freezing

/-!
# Decoding

* `readGroup_invariant`: what every slot keeps holds of a group that is read;
* `readGroup_writeGroup`: reading what a group wrote copies it slot by slot;
* `Settings.decode_toJson`: settings come back from their own document, with every mark off.
-/

namespace ServerSettings

attribute [ext] Database Mappings Endpoint Provider Settings

section Slots

variable {γ α : Type}

theorem Slot.of_read {key : String} {read : String → Json → Except Error α} {put : α → γ → γ}
    {write : γ → Json} {path : String} {v : Json} {acc group : γ}
    (h : (Slot.of key read put write).read path v acc = .ok group) :
    ∃ value, read path v = .ok value ∧ group = put value acc := by
  obtain ⟨value, back, eq⟩ := map_ok h
  exact ⟨value, back, eq.symm⟩

theorem readSlots_invariant {P : γ → Prop} {good : Json → Prop} {path : String} {members : Dict Json}
    {slots : List (Slot γ)} {acc group : γ} (parts : ∀ entry ∈ members, good entry.2)
    (keeps : ∀ slot ∈ slots, ∀ path v acc next,
      good v → P acc → slot.read path v acc = .ok next → P next)
    (start : P acc) (h : readSlots path members slots acc = .ok group) : P group := by
  induction slots generalizing acc with
  | nil =>
    cases h
    exact start
  | cons slot rest ih =>
    have later := fun other mem => keeps other (List.mem_cons_of_mem slot mem)
    simp only [readSlots] at h
    split at h
    · exact ih later start h
    · exact ih later start h
    · next v _ found =>
      cases first : slot.read (joinPath path slot.key) v acc with
      | error e => rw [first] at h; cases h
      | ok next =>
        rw [first] at h
        have known := parts _ (Dict.mem_of_lookup found)
        exact ih later (keeps slot List.mem_cons_self _ v acc next known start first) h

/-- What every slot keeps, as far as the members it reads are good, holds of the group. -/
theorem readGroup_invariant (P : γ → Prop) (good : Json → Prop) {path : String} {v : Json}
    {slots : List (Slot γ)} {empty group : γ}
    (parts : ∀ members, v = .obj members → ∀ entry ∈ members, good entry.2)
    (keeps : ∀ slot ∈ slots, ∀ path v acc next,
      good v → P acc → slot.read path v acc = .ok next → P next)
    (start : P empty) (h : readGroup slots empty path v = .ok group) : P group := by
  cases v with
  | obj members => exact readSlots_invariant (parts members rfl) keeps start h
  | _ => cases h

/-- Reading what a group holds in a slot copies it into another group. -/
structure Slot.Copies (slot : Slot γ) (g : γ) (copy : γ → γ) : Prop where
  given : slot.write g ≠ .null
  reads : ∀ path acc, slot.read path (slot.write g) acc = .ok (copy acc)

theorem Slot.of_copies {key : String} {read : String → Json → Except Error α} {put : α → γ → γ}
    {write : γ → Json} {g : γ} {value : α} (given : write g ≠ .null)
    (back : ∀ path, read path (write g) = .ok value) :
    (Slot.of key read put write).Copies g (put value) where
  given := given
  reads path acc := by
    simp only [Slot.of, back]
    rfl

variable {ι : Type} {slot : ι → Slot γ} {copy : ι → γ → γ} {g : γ}

theorem readSlots_copies {path : String} {members : Dict Json} {index : List ι}
    (copies : ∀ i ∈ index, (slot i).Copies g (copy i))
    (written : ∀ i ∈ index, Dict.lookup members (slot i).key = some ((slot i).write g)) (acc : γ) :
    readSlots path members (index.map slot) acc = .ok (index.foldl (fun group i => copy i group) acc) := by
  induction index generalizing acc with
  | nil => rfl
  | cons i rest ih =>
    obtain ⟨given, reads⟩ := copies i List.mem_cons_self
    have later := ih (fun j mem => copies j (List.mem_cons_of_mem i mem))
      (fun j mem => written j (List.mem_cons_of_mem i mem))
    rw [List.map_cons, readSlots, written i List.mem_cons_self, List.foldl_cons, ← later]
    split
    · next none_found => cases none_found
    · next null => exact absurd (Option.some.inj null) given
    · next found =>
      cases found
      rw [reads]
      rfl

/-- Reading what a group wrote copies it slot by slot. -/
theorem readGroup_writeGroup {index : List ι} (once : (index.map fun i => (slot i).key).Nodup)
    (copies : ∀ i ∈ index, (slot i).Copies g (copy i)) (empty : γ) (path : String) :
    readGroup (index.map slot) empty path (writeGroup (index.map slot) g) =
      .ok (index.foldl (fun group i => copy i group) empty) := by
  have distinct : Dict.Distinct ((index.map slot).map fun s => (s.key, s.write g)) := by
    rw [Dict.Distinct, Dict.keys, List.map_map, List.map_map]
    exact once
  refine readSlots_copies copies ?_ empty
  intro i mem
  have entry : ((slot i).key, (slot i).write g) ∈ (index.map slot).map fun s => (s.key, s.write g) := by
    rw [List.map_map]
    exact List.mem_map.mpr ⟨i, mem, rfl⟩
  exact Dict.lookup_of_mem distinct entry

end Slots

section Collections

variable {α : Type} {read : String → Json → Except Error α}

theorem readItems_map {write : α → Json} (back : ∀ a path, read path (write a) = .ok a) (items : List α)
    (path : String) (index : Nat) : readItems read path index (items.map write) = .ok items := by
  induction items generalizing index with
  | nil => rfl
  | cons a rest ih =>
    rw [List.map_cons, readItems, back, ih]
    rfl

theorem readTexts_writeTexts (path : String) (items : List String) :
    readList readText path (writeTexts items) = .ok items :=
  @readItems_map _ readText .str (fun _ _ => rfl) items path 0

theorem readEntries_mapValues {β : Type} {write : β → Json} {back : β → α} {d : Dict β}
    (reads : ∀ b path, read path (write b) = .ok (back b)) (path : String) :
    readEntries read path (Dict.mapValues write d) = .ok (Dict.mapValues back d) := by
  induction d with
  | nil => rfl
  | cons entry rest ih =>
    simp only [Dict.mapValues] at ih ⊢
    rw [List.map_cons, readEntries, reads, ih]
    rfl

/-- A map that is read has the names of its object. -/
theorem keys_readEntries {path : String} {members : Dict Json} {d : Dict α}
    (h : readEntries read path members = .ok d) : Dict.keys d = Dict.keys members := by
  induction members generalizing d with
  | nil =>
    cases h
    rfl
  | cons entry rest ih =>
    obtain ⟨key, v⟩ := entry
    rw [readEntries] at h
    cases first : read (joinPath path key) v with
    | error e => rw [first] at h; cases h
    | ok value =>
      rw [first] at h
      cases later : readEntries read path rest with
      | error e => rw [later] at h; cases h
      | ok more =>
        rw [later] at h
        cases h
        simp only [Dict.keys, List.map_cons]
        congr 1
        exact ih later

end Collections

/-- A group with its mark off. -/
def Database.thaw (db : Database) : Database :=
  { db with frozen := false }

def Mappings.thaw (m : Mappings) : Mappings :=
  { m with frozen := false }

def Endpoint.thaw (e : Endpoint) : Endpoint :=
  { e with frozen := false }

def Provider.thaw (p : Provider) : Provider :=
  { p with endpoint := p.endpoint.thaw, frozen := false }

/-- The settings with every mark off. -/
def Settings.thaw (s : Settings) : Settings :=
  { s with
    database := fun d => (s.database d).thaw
    mappings := s.mappings.thaw
    providers := Dict.mapValues Provider.thaw s.providers
    frozen := false }

namespace Database

/-- The slots of the texts, and that of the options. -/
def slotAt : Option DatabaseField → Slot Database
  | some f => .of f.key readText (fun s db => { db with text := replaceAt db.text f s }) (.str <| ·.text f)
  | none =>
    .of "options" (readMap readText) (fun o db => { db with options := o })
      fun db => .obj (Dict.mapValues .str db.options)

def places : List (Option DatabaseField) :=
  DatabaseField.all.map some ++ [none]

theorem slots_eq : slots = places.map slotAt := rfl

theorem keys_once : (places.map fun i => (slotAt i).key).Nodup := by decide +kernel

theorem readOptions (path : String) (options : Dict String) :
    readMap readText path (.obj (Dict.mapValues .str options)) = .ok options := by
  have text (s : String) (path : String) : readText path (.str s) = .ok (id s) := rfl
  have entries := readEntries_mapValues (d := options) text path
  rw [Dict.mapValues_id] at entries
  exact entries

/-- What reading one slot copies. -/
def copied (db : Database) : Option DatabaseField → Database → Database
  | some f, acc => { acc with text := replaceAt acc.text f (db.text f) }
  | none, acc => { acc with options := db.options }

theorem slot_copies (db : Database) (i : Option DatabaseField) : (slotAt i).Copies db (db.copied i) := by
  cases i with
  | some f => exact Slot.of_copies (by simp) fun _ => rfl
  | none => exact Slot.of_copies (by simp) (readOptions · db.options)

theorem read_toJson (path : String) (db : Database) : read path db.toJson = .ok db.thaw := by
  have whole := readGroup_writeGroup keys_once (fun i _ => db.slot_copies i) {} path
  rw [read, toJson, slots_eq, whole]
  congr 1
  apply Database.ext
  · funext f
    cases f <;> rfl
  · rfl
  · rfl

end Database

namespace Mappings

def slotAt (f : MappingField) : Slot Mappings :=
  .of f.key readText (fun s m => { m with text := replaceAt m.text f s }) (.str <| ·.text f)

theorem slots_eq : slots = MappingField.all.map slotAt := rfl

theorem keys_once : (MappingField.all.map fun i => (slotAt i).key).Nodup := by decide +kernel

theorem read_toJson (path : String) (m : Mappings) : read path m.toJson = .ok m.thaw := by
  have copies : ∀ f ∈ MappingField.all, (slotAt f).Copies m fun acc =>
      { acc with text := replaceAt acc.text f (m.text f) } :=
    fun f _ => Slot.of_copies (by simp) fun _ => rfl
  have whole := readGroup_writeGroup keys_once copies {} path
  rw [read, toJson, slots_eq, whole]
  congr 1
  apply Mappings.ext
  · funext f
    cases f <;> rfl
  · rfl

end Mappings

namespace Endpoint

/-- The slots of the texts, and that of the algorithms. -/
def slotAt : Option EndpointField → Slot Endpoint
  | some f => .of f.key readText (fun s e => { e with text := replaceAt e.text f s }) (.str <| ·.text f)
  | none =>
    .of "algorithms" (readList readText) (fun a e => { e with algorithms := a }) (writeTexts ·.algorithms)

def places : List (Option EndpointField) :=
  EndpointField.all.map some ++ [none]

theorem slots_eq : slots = places.map slotAt := rfl

theorem keys_once : (places.map fun i => (slotAt i).key).Nodup := by decide +kernel

/-- What reading one slot copies. -/
def copied (e : Endpoint) : Option EndpointField → Endpoint → Endpoint
  | some f, acc => { acc with text := replaceAt acc.text f (e.text f) }
  | none, acc => { acc with algorithms := e.algorithms }

theorem slot_copies (e : Endpoint) (i : Option EndpointField) : (slotAt i).Copies e (e.copied i) := by
  cases i with
  | some f => exact Slot.of_copies (by simp) fun _ => rfl
  | none => exact Slot.of_copies (by simp [writeTexts]) (readTexts_writeTexts · e.algorithms)

theorem read_toJson (path : String) (e : Endpoint) : read path e.toJson = .ok e.thaw := by
  have whole := readGroup_writeGroup keys_once (fun i _ => e.slot_copies i) {} path
  rw [read, toJson, slots_eq, whole]
  congr 1
  apply Endpoint.ext
  · funext f
    cases f <;> rfl
  · rfl
  · rfl

end Endpoint

namespace Provider

theorem keys_once : (Member.all.map fun m => (slot m).key).Nodup := by decide +kernel

/-- What reading one slot copies. -/
def copied (p : Provider) : Member → Provider → Provider
  | .text f, acc => { acc with text := replaceAt acc.text f (p.text f) }
  | .scopes, acc => { acc with scopes := p.scopes }
  | .endpoint, acc => { acc with endpoint := p.endpoint.thaw }

theorem slot_copies (p : Provider) (m : Member) : (slot m).Copies p (p.copied m) := by
  cases m with
  | text f => exact Slot.of_copies (by simp) fun _ => rfl
  | scopes => exact Slot.of_copies (by simp [writeTexts]) (readTexts_writeTexts · p.scopes)
  | endpoint => exact Slot.of_copies (by simp [Endpoint.toJson, writeGroup]) (Endpoint.read_toJson · p.endpoint)

theorem read_toJson (path : String) (p : Provider) : read path p.toJson = .ok p.thaw := by
  have whole := readGroup_writeGroup keys_once (fun m _ => p.slot_copies m) {} path
  rw [read, toJson, slots, whole]
  congr 1
  apply Provider.ext
  · funext f
    cases f <;> rfl
  · rfl
  · rfl
  · rfl

end Provider

namespace Settings

theorem keys_once : (Member.all.map fun m => (slot m).key).Nodup := by decide +kernel

/-- What reading one slot copies. -/
def copied (s : Settings) : Member → Settings → Settings
  | .database d, acc => { acc with database := replaceAt acc.database d (s.database d).thaw }
  | .text f, acc => { acc with text := replaceAt acc.text f (s.text f) }
  | .flag f, acc => { acc with flag := replaceAt acc.flag f (s.flag f) }
  | .mappings, acc => { acc with mappings := s.mappings.thaw }
  | .providers, acc => { acc with providers := Dict.mapValues Provider.thaw s.providers }
  | .maxParallelTasks, acc => { acc with maxParallelTasks := s.maxParallelTasks }

theorem slot_copies (s : Settings) (m : Member) : (slot m).Copies s (s.copied m) := by
  cases m with
  | database d =>
    exact Slot.of_copies (by simp [Database.toJson, writeGroup]) (Database.read_toJson · (s.database d))
  | text f => exact Slot.of_copies (by simp) fun _ => rfl
  | flag f => exact Slot.of_copies (by simp) fun _ => rfl
  | mappings => exact Slot.of_copies (by simp [Mappings.toJson, writeGroup]) (Mappings.read_toJson · s.mappings)
  | providers =>
    exact Slot.of_copies (by simp) fun path => readEntries_mapValues (fun p path => p.read_toJson path) path
  | maxParallelTasks => exact Slot.of_copies (by simp) fun _ => rfl

/-- Settings come back from their own document, with every mark off. -/
theorem decode_toJson (s : Settings) : decode s.toJson = .ok s.thaw := by
  have whole := readGroup_writeGroup keys_once (fun m _ => s.slot_copies m) {} ""
  have opened : decode s.toJson = readGroup (Member.all.map slot) {} "" (writeGroup (Member.all.map slot) s) := rfl
  rw [opened, whole]
  congr 1
  apply Settings.ext
  · funext d
    cases d <;> rfl
  · funext f
    cases f <;> rfl
  · funext f
    cases f <;> rfl
  · rfl
  · rfl
  · rfl
  · rfl

/-- Reading a member of the settings fills one of their fields. -/
inductive Filled (path : String) (v : Json) (s : Settings) : Settings → Prop
  | database (d : Dialect) (db : Database) (read : Database.read path v = .ok db) :
      Filled path v s { s with database := replaceAt s.database d db }
  | text (f : TextSetting) (t : String) (read : readText path v = .ok t) :
      Filled path v s { s with text := replaceAt s.text f t }
  | flag (f : FlagSetting) (b : Bool) (read : readFlag path v = .ok b) :
      Filled path v s { s with flag := replaceAt s.flag f b }
  | mappings (m : Mappings) (read : Mappings.read path v = .ok m) : Filled path v s { s with mappings := m }
  | providers (ps : Dict Provider) (read : readMap Provider.read path v = .ok ps) :
      Filled path v s { s with providers := ps }
  | maxParallelTasks (n : Int) (read : readWhole path v = .ok n) : Filled path v s { s with maxParallelTasks := n }

theorem filled_of_read {m : Member} {path : String} {v : Json} {s t : Settings}
    (h : (slot m).read path v s = .ok t) : Filled path v s t := by
  cases m with
  | database d =>
    obtain ⟨db, read, rfl⟩ := Slot.of_read h
    exact .database d db read
  | text f =>
    obtain ⟨text, read, rfl⟩ := Slot.of_read h
    exact .text f text read
  | flag f =>
    obtain ⟨b, read, rfl⟩ := Slot.of_read h
    exact .flag f b read
  | mappings =>
    obtain ⟨x, read, rfl⟩ := Slot.of_read h
    exact .mappings x read
  | providers =>
    obtain ⟨ps, read, rfl⟩ := Slot.of_read h
    exact .providers ps read
  | maxParallelTasks =>
    obtain ⟨n, read, rfl⟩ := Slot.of_read h
    exact .maxParallelTasks n read

/-- What every filled field keeps holds of decoded settings. -/
theorem decode_invariant (P : Settings → Prop) (good : Json → Prop) {payload : Json} {s : Settings}
    (parts : ∀ members, payload = .obj members → ∀ entry ∈ members, good entry.2) (start : P {})
    (keeps : ∀ path v s t, good v → P s → Filled path v s t → P t) (h : decode payload = .ok s) : P s := by
  have read : readGroup slots {} "" payload = .ok s := by
    cases payload with
    | obj members => exact h
    | _ => cases h
  refine readGroup_invariant P good parts ?_ start read
  intro slot mem path v acc next known holds first
  obtain ⟨m, _, rfl⟩ := List.mem_map.mp mem
  exact keeps path v acc next known holds (filled_of_read first)

end Settings

theorem distinct_of_readMap {α : Type} {read : String → Json → Except Error α} {path : String} {v : Json} {d : Dict α}
    (once : v.Distinct) (h : readMap read path v = .ok d) : Dict.Distinct d := by
  cases once with
  | obj once _ =>
    rw [Dict.Distinct, keys_readEntries h]
    exact once
  | _ => cases h

namespace Database

theorem filled_of_read {slot : Slot Database} (mem : slot ∈ slots) {path : String} {v : Json} {db next : Database}
    (h : slot.read path v db = .ok next) :
    (∃ text, next = { db with text := text }) ∨
      ∃ options, readMap readText path v = .ok options ∧ next = { db with options := options } := by
  rw [slots_eq] at mem
  obtain ⟨_ | f, _, rfl⟩ := List.mem_map.mp mem
  · obtain ⟨options, read, rfl⟩ := Slot.of_read h
    exact .inr ⟨options, read, rfl⟩
  · obtain ⟨t, _, rfl⟩ := Slot.of_read h
    exact .inl ⟨_, rfl⟩

theorem frozen_of_read {path : String} {v : Json} {db : Database} (h : read path v = .ok db) : db.frozen = false := by
  refine readGroup_invariant (fun db => db.frozen = false) (fun _ => True) (fun _ _ _ _ => trivial) ?_ rfl h
  intro slot mem path v acc next _ mark first
  obtain ⟨_, rfl⟩ | ⟨_, _, rfl⟩ := filled_of_read mem first
  · exact mark
  · exact mark

theorem distinct_of_read {path : String} {v : Json} {db : Database} (once : v.Distinct) (h : read path v = .ok db) :
    Dict.Distinct db.options := by
  have parts : ∀ members, v = .obj members → ∀ entry ∈ members, entry.2.Distinct := by
    rintro members rfl
    cases once with
    | obj _ parts => exact parts
  have start : Dict.Distinct ({} : Database).options := List.nodup_nil
  refine readGroup_invariant (fun db => Dict.Distinct db.options) Json.Distinct parts ?_ start h
  intro slot mem path v acc next known distinct first
  obtain ⟨_, rfl⟩ | ⟨options, read, rfl⟩ := filled_of_read mem first
  · exact distinct
  · exact distinct_of_readMap known read

end Database

theorem Mappings.frozen_of_read {path : String} {v : Json} {m : Mappings} (h : read path v = .ok m) :
    m.frozen = false := by
  refine readGroup_invariant (fun m => m.frozen = false) (fun _ => True) (fun _ _ _ _ => trivial) ?_ rfl h
  intro slot mem path v acc next _ mark first
  rw [slots_eq] at mem
  obtain ⟨f, _, rfl⟩ := List.mem_map.mp mem
  obtain ⟨_, _, rfl⟩ := Slot.of_read first
  exact mark

/-- Every map that the settings hold has every name once. -/
structure Settings.Keyed (s : Settings) : Prop where
  options : ∀ d, Dict.Distinct (s.database d).options
  providers : Dict.Distinct s.providers

namespace Settings

theorem parts_of_distinct {payload : Json} (once : payload.Distinct) :
    ∀ members, payload = .obj members → ∀ entry ∈ members, entry.2.Distinct := by
  rintro members rfl
  cases once with
  | obj _ parts => exact parts

theorem keyed_of_decode {payload : Json} {s : Settings} (once : payload.Distinct) (h : decode payload = .ok s) :
    s.Keyed := by
  refine decode_invariant Keyed Json.Distinct (parts_of_distinct once) ⟨fun _ => List.nodup_nil, List.nodup_nil⟩ ?_ h
  intro path v s t known keyed filled
  cases filled with
  | database d db read =>
    refine ⟨fun other => ?_, keyed.providers⟩
    by_cases same : other = d
    · subst same
      simpa only [replaceAt_self] using Database.distinct_of_read known read
    · simpa only [replaceAt_of_ne _ _ same] using keyed.options other
  | providers ps read => exact ⟨keyed.options, distinct_of_readMap known read⟩
  | _ => exact ⟨keyed.options, keyed.providers⟩

/-- Decoded settings are open. -/
theorem open_of_decode {payload : Json} {s : Settings} (h : decode payload = .ok s) (l : Leaf) :
    l.isFinal s = false := by
  refine decode_invariant (fun s => ∀ l : Leaf, l.isFinal s = false) (fun _ => True) (fun _ _ _ _ => trivial) ?_ ?_ h l
  · intro l
    cases l <;> rfl
  · intro path v s t _ closed filled l
    have before := closed l
    cases filled with
    | database d db read =>
      cases l with
      | database other f =>
        show (replaceAt s.database d db other).frozen = false
        by_cases same : other = d
        · rw [same, replaceAt_self]
          exact Database.frozen_of_read read
        · rw [replaceAt_of_ne _ _ same]
          exact before
      | _ => exact before
    | mappings m read =>
      cases l with
      | mapping f => exact Mappings.frozen_of_read read
      | _ => exact before
    | _ => cases l <;> exact before

/-- A whole number that was decoded can be written if all of the payload can. -/
theorem writable_of_decode {payload : Json} {s : Settings} (written : payload.isWritable = true)
    (h : decode payload = .ok s) : Whole.isWritable s.maxParallelTasks = true := by
  have parts : ∀ members, payload = .obj members → ∀ entry ∈ members, entry.2.isWritable = true := by
    rintro members rfl
    rw [Json.isWritable, Json.membersAreWritable_eq] at written
    exact List.all_eq_true.mp written
  refine decode_invariant (fun s => Whole.isWritable s.maxParallelTasks = true) (·.isWritable = true) parts (by decide +kernel) ?_ h
  intro path v s t known short filled
  cases filled with
  | maxParallelTasks n read =>
    cases v with
    | int m =>
      cases read
      exact known
    | _ => cases read
  | _ => exact short

end Settings

end ServerSettings
