import ServerSettings.Proofs.Decoding

/-!
# Documents without their secrets

The secrets here are the passwords and tokens that settings hold, keys apart. A masked document has empty texts in
their places, and a value there that is no text stays as it is.

* `Slot.Respects`: reading a masked member gives what reading the member gives, masked;
* `readGroup_mask`: so it is with a group whose slots all do that;
* `Settings.decode_mask`: so masked documents are decoded to masked settings, or fail alike;
* `Settings.mask_toJson`: the masked document of settings is that of the masked settings.
-/

namespace ServerSettings

/-- Is a leaf a secret that is no key? -/
def Leaf.isSecret : Leaf → Bool
  | .database _ .password => true
  | .text .emailPassword | .text .ldapBindPassword | .text .telegramToken => true
  | _ => false

/-- Texts with an empty one in the place of each secret. -/
def blankTexts {φ : Type} (secret : φ → Bool) (text : φ → String) : φ → String :=
  fun f => if secret f then "" else text f

/-- A storage group without its password. -/
def Database.mask (db : Database) : Database :=
  { db with text := blankTexts (· = .password) db.text }

/-- A provider without the secret of its client. -/
def Provider.mask (p : Provider) : Provider :=
  { p with text := blankTexts (· = .clientSecret) p.text }

/-- Settings without their secrets. -/
def Settings.mask (s : Settings) : Settings :=
  { s with
    database := fun d => (s.database d).mask
    text := blankTexts (fun f => (Leaf.text f).isSecret) s.text
    providers := Dict.mapValues Provider.mask s.providers }

namespace Json

/-- An empty text in the place of a text. -/
def blank : Json → Json
  | .str _ => .str ""
  | v => v

/-- An object with its members changed by their keys. -/
def mapMembers (change : String → Json → Json) : Json → Json
  | .obj members => .obj (members.map fun m => (m.1, change m.1 m.2))
  | v => v

theorem blank_eq_null {v : Json} : blank v = .null ↔ v = .null := by
  cases v <;> simp [blank]

theorem mapMembers_eq_null {change : String → Json → Json} {v : Json} : mapMembers change v = .null ↔ v = .null := by
  cases v <;> simp [mapMembers]

end Json

/-- How the member of a group under a key is masked. -/
def Database.maskMember (key : String) : Json → Json :=
  if key = "pass" then Json.blank else id

def Provider.maskMember (key : String) : Json → Json :=
  if key = "client_secret" then Json.blank else id

def Settings.maskMember (key : String) : Json → Json :=
  if key ∈ ["mysql", "bolt", "postgres"] then Json.mapMembers Database.maskMember
  else if key ∈ ["email_password", "ldap_bindpassword", "telegram_token"] then Json.blank
  else if key = "oidc_providers" then Json.mapMembers fun _ => Json.mapMembers Provider.maskMember
  else id

/-- A document of settings without its secrets. -/
def Settings.maskDocument : Json → Json :=
  Json.mapMembers Settings.maskMember

section Slots

variable {γ α : Type}

/-- Reading a masked member gives what reading the member gives, masked. -/
structure Slot.Respects (slot : Slot γ) (mask : Json → Json) (forget : γ → γ) : Prop where
  null : ∀ v, mask v = .null ↔ v = .null
  reads : ∀ path v acc, slot.read path (mask v) (forget acc) = (slot.read path v acc).map forget

theorem Slot.of_respects {key : String} {read : String → Json → Except Error α} {put : α → γ → γ} {write : γ → Json}
    {mask : Json → Json} {forget : γ → γ} {veil : α → α} (null : ∀ v, mask v = .null ↔ v = .null)
    (back : ∀ path v, read path (mask v) = (read path v).map veil)
    (kept : ∀ a acc, put (veil a) (forget acc) = forget (put a acc)) :
    (Slot.of key read put write).Respects mask forget where
  null := null
  reads path v acc := by
    simp only [Slot.of, back]
    cases read path v with
    | error e => rfl
    | ok a => exact congrArg Except.ok (kept a acc)

/-- A member that is not masked is read as it is. -/
theorem Slot.of_plain {key : String} {read : String → Json → Except Error α} {put : α → γ → γ} {write : γ → Json}
    {forget : γ → γ} (kept : ∀ a acc, put a (forget acc) = forget (put a acc)) :
    (Slot.of key read put write).Respects id forget := by
  have back (path : String) (v : Json) : read path (id v) = (read path v).map id := by
    show read path v = (read path v).map id
    cases read path v <;> rfl
  exact Slot.of_respects (fun _ => Iff.rfl) back kept

/-- A text is masked if it is a secret. -/
theorem Slot.of_text {secret : Bool} {key : String} {put : String → γ → γ} {write : γ → Json} {forget : γ → γ}
    (kept : ∀ s acc, put (if secret then "" else s) (forget acc) = forget (put s acc)) :
    (Slot.of key readText put write).Respects (if secret then Json.blank else id) forget := by
  cases secret with
  | true => exact Slot.of_respects (fun _ => Json.blank_eq_null) (fun _ v => by cases v <;> rfl) kept
  | false => exact Slot.of_plain kept

theorem replaceAt_blankTexts {φ : Type} [DecidableEq φ] (secret : φ → Bool) (text : φ → String) (f : φ) (s : String) :
    replaceAt (blankTexts secret text) f (if secret f then "" else s) = blankTexts secret (replaceAt text f s) := by
  funext g
  by_cases same : g = f
  · rw [same, replaceAt_self, blankTexts, replaceAt_self]
  · rw [replaceAt_of_ne _ _ same, blankTexts, blankTexts, replaceAt_of_ne _ _ same]

theorem blankTexts_empty {φ : Type} (secret : φ → Bool) : blankTexts secret (fun _ => "") = fun _ => "" := by
  funext f
  exact ite_self _

theorem readSlots_mask {path : String} {members : Dict Json} {slots : List (Slot γ)} {change : String → Json → Json}
    {forget : γ → γ} (respects : ∀ slot ∈ slots, slot.Respects (change slot.key) forget) (acc : γ) :
    readSlots path (members.map fun m => (m.1, change m.1 m.2)) slots (forget acc) =
      (readSlots path members slots acc).map forget := by
  induction slots generalizing acc with
  | nil => rfl
  | cons slot rest ih =>
    obtain ⟨null, reads⟩ := respects slot List.mem_cons_self
    have later := ih fun other mem => respects other (List.mem_cons_of_mem slot mem)
    rw [readSlots, readSlots, Dict.lookup_map]
    cases found : Dict.lookup members slot.key with
    | none => exact later acc
    | some v =>
      by_cases absent : v = .null
      · subst absent
        rw [Option.map_some, (null .null).mpr rfl]
        exact later acc
      · have given : change slot.key v ≠ .null := fun eq => absent ((null v).mp eq)
        simp only [Option.map_some]
        rw [reads]
        cases slot.read (joinPath path slot.key) v acc with
        | error e => rfl
        | ok next => exact later next

/-- A masked group is read as what the group is read as, masked. -/
theorem readGroup_mask {slots : List (Slot γ)} {change : String → Json → Json} {forget : γ → γ} {empty : γ}
    (respects : ∀ slot ∈ slots, slot.Respects (change slot.key) forget) (start : forget empty = empty)
    (path : String) (v : Json) :
    readGroup slots empty path (v.mapMembers change) = (readGroup slots empty path v).map forget := by
  cases v with
  | obj members =>
    have read := @readSlots_mask γ path members slots change forget respects empty
    rw [start] at read
    exact read
  | _ => rfl

theorem readMap_mask {read : String → Json → Except Error α} {change : Json → Json} {veil : α → α}
    (back : ∀ path v, read path (change v) = (read path v).map veil) (path : String) (v : Json) :
    readMap read path (v.mapMembers fun _ => change) = (readMap read path v).map (Dict.mapValues veil) := by
  have entries (members : Dict Json) : readEntries read path (members.map fun m => (m.1, change m.2)) =
      (readEntries read path members).map (Dict.mapValues veil) := by
    induction members with
    | nil => rfl
    | cons entry rest ih =>
      obtain ⟨key, v⟩ := entry
      rw [List.map_cons, readEntries, readEntries, back, ih]
      cases read (joinPath path key) v with
      | error e => rfl
      | ok a => cases readEntries read path rest <;> rfl
  cases v with
  | obj members => exact entries members
  | _ => rfl

end Slots

/-- A group whose members are masked one by one. -/
theorem mapMembers_writeGroup {ι γ : Type} {index : List ι} {slot : ι → Slot γ} {change : String → Json → Json}
    {g masked : γ} (parts : ∀ i ∈ index, change (slot i).key ((slot i).write g) = (slot i).write masked) :
    (writeGroup (index.map slot) g).mapMembers change = writeGroup (index.map slot) masked := by
  rw [writeGroup, writeGroup, Json.mapMembers, List.map_map, List.map_map, List.map_map]
  congr 1
  exact List.map_congr_left fun i mem => congrArg (Prod.mk (slot i).key) (parts i mem)

theorem blank_str {secret : Bool} (s : String) :
    (if secret then Json.blank else id) (.str s) = .str (if secret then "" else s) := by
  cases secret <;> rfl

namespace Database

theorem maskMember_key (f : DatabaseField) :
    maskMember f.key = if decide (f = .password) then Json.blank else id := by
  cases f <;> rfl

theorem read_mask (path : String) (v : Json) : read path (v.mapMembers maskMember) = (read path v).map mask := by
  refine readGroup_mask ?_ ?_ path v
  · rw [slots_eq]
    intro slot mem
    obtain ⟨_ | f, _, rfl⟩ := List.mem_map.mp mem
    · exact Slot.of_plain fun _ _ => rfl
    · rw [show (slotAt (some f)).key = f.key from rfl, maskMember_key]
      refine Slot.of_text fun s acc => ?_
      simp only [mask, replaceAt_blankTexts (fun f => decide (f = DatabaseField.password))]
  · rw [mask, blankTexts_empty]

theorem mask_toJson (db : Database) : db.toJson.mapMembers maskMember = db.mask.toJson := by
  rw [toJson, toJson, slots_eq]
  refine mapMembers_writeGroup fun i _ => ?_
  cases i with
  | none => rfl
  | some f =>
    rw [show (slotAt (some f)).key = f.key from rfl, maskMember_key]
    exact blank_str (db.text f)

end Database

namespace Provider

theorem maskMember_key (f : ProviderField) :
    maskMember f.key = if decide (f = .clientSecret) then Json.blank else id := by
  cases f <;> rfl

theorem read_mask (path : String) (v : Json) : read path (v.mapMembers maskMember) = (read path v).map mask := by
  refine readGroup_mask ?_ ?_ path v
  · intro slot mem
    obtain ⟨f | _ | _, _, rfl⟩ := List.mem_map.mp mem
    · rw [show (Provider.slot (.text f)).key = f.key from rfl, maskMember_key]
      refine Slot.of_text fun s acc => ?_
      simp only [mask, replaceAt_blankTexts (fun f => decide (f = ProviderField.clientSecret))]
    · exact Slot.of_plain fun _ _ => rfl
    · exact Slot.of_plain fun _ _ => rfl
  · rw [mask, blankTexts_empty]

theorem mask_toJson (p : Provider) : p.toJson.mapMembers maskMember = p.mask.toJson := by
  rw [toJson, toJson, slots]
  refine mapMembers_writeGroup fun m _ => ?_
  cases m with
  | text f =>
    rw [show (Provider.slot (.text f)).key = f.key from rfl, maskMember_key]
    exact blank_str (p.text f)
  | _ => rfl

end Provider

namespace Settings

/-- How each member of the settings is masked. -/
theorem maskMember_key (m : Member) :
    maskMember m.key =
      match m with
      | .database _ => Json.mapMembers Database.maskMember
      | .text f => if (Leaf.text f).isSecret then Json.blank else id
      | .providers => Json.mapMembers fun _ => Json.mapMembers Provider.maskMember
      | _ => id := by
  cases m with
  | database d => cases d <;> rfl
  | text f => cases f <;> rfl
  | flag f => cases f <;> rfl
  | _ => rfl

theorem key_slot (m : Member) : (slot m).key = m.key := by
  cases m <;> rfl

theorem slot_respects (m : Member) : (slot m).Respects (maskMember m.key) mask := by
  rw [maskMember_key]
  cases m with
  | database d =>
    refine Slot.of_respects (fun _ => Json.mapMembers_eq_null) Database.read_mask fun db acc => ?_
    have database : replaceAt (fun d => (acc.database d).mask) d db.mask =
        fun e => (replaceAt acc.database d db e).mask := by
      funext e
      by_cases same : e = d
      · rw [same, replaceAt_self, replaceAt_self]
      · rw [replaceAt_of_ne _ _ same, replaceAt_of_ne _ _ same]
    simp only [mask, database]
  | text f =>
    refine Slot.of_text fun s acc => ?_
    simp only [mask, replaceAt_blankTexts (fun f => (Leaf.text f).isSecret)]
  | providers =>
    exact Slot.of_respects (fun _ => Json.mapMembers_eq_null) (readMap_mask Provider.read_mask) fun _ _ => rfl
  | _ => exact Slot.of_plain fun _ _ => rfl

/-- Masked documents are decoded to masked settings, or fail alike. -/
theorem decode_mask (v : Json) : decode (maskDocument v) = (decode v).map mask := by
  cases v with
  | obj members =>
    refine readGroup_mask ?_ ?_ "" (.obj members)
    · intro slot mem
      obtain ⟨m, _, rfl⟩ := List.mem_map.mp mem
      rw [key_slot]
      exact slot_respects m
    · simp only [mask, Database.mask, blankTexts_empty]
      rfl
  | _ => rfl

/-- The masked document of settings is that of the masked settings. -/
theorem mask_toJson (s : Settings) : maskDocument s.toJson = s.mask.toJson := by
  rw [toJson, toJson, slots]
  refine mapMembers_writeGroup fun m _ => ?_
  rw [key_slot, maskMember_key]
  cases m with
  | database d => exact (s.database d).mask_toJson
  | text f => exact blank_str (s.text f)
  | providers =>
    show Json.obj ((Dict.mapValues Provider.toJson s.providers).map _) =
      .obj (Dict.mapValues Provider.toJson (Dict.mapValues Provider.mask s.providers))
    rw [Dict.mapValues_mapValues, Dict.mapValues, List.map_map]
    refine congrArg Json.obj (List.map_congr_left fun entry _ => ?_)
    exact congrArg (Prod.mk entry.1) entry.2.mask_toJson
  | _ => rfl

end Settings

end ServerSettings
