import ServerSettings.Proofs.Json.ReadBack
import ServerSettings.Proofs.Operations

/-!
# Settings and their document

* `Settings.legible`: the document of settings is one that comes back from its text;
* `Settings.thaw_same`: settings without frozen providers equal their copy with every mark off;
* `Reached.round_trip`: what operations make of a payload is rendered, read and decoded without loss.
-/

namespace ServerSettings

open Json (Legible)

section Legible

variable {d : Nat}

theorem legible_writeGroup {ι γ : Type} {index : List ι} {slot : ι → Slot γ} {g : γ}
    (once : (index.map fun i => (slot i).key).Nodup) (parts : ∀ i ∈ index, Legible d ((slot i).write g)) :
    Legible (d + 1) (writeGroup (index.map slot) g) := by
  rw [writeGroup, List.map_map]
  refine .obj ?_ ?_
  · rw [Dict.Distinct, Dict.keys, List.map_map]
    exact once
  · intro entry mem
    obtain ⟨i, inside, rfl⟩ := List.mem_map.mp mem
    exact parts i inside

theorem legible_mapValues {α : Type} {write : α → Json} {map : Dict α} (once : Dict.Distinct map)
    (parts : ∀ a, Legible d (write a)) : Legible (d + 1) (.obj (Dict.mapValues write map)) := by
  refine .obj (once.mapValues write) ?_
  intro entry mem
  obtain ⟨other, _, rfl⟩ := List.mem_map.mp mem
  exact parts other.2

theorem legible_writeTexts (items : List String) : Legible (d + 1) (writeTexts items) := by
  refine .arr ?_
  intro v mem
  obtain ⟨s, _, rfl⟩ := List.mem_map.mp mem
  exact .str d s

theorem Database.legible (db : Database) (once : Dict.Distinct db.options) : Legible (d + 2) db.toJson := by
  rw [toJson, slots_eq]
  refine legible_writeGroup keys_once ?_
  rintro (_ | f) _
  · exact legible_mapValues once (Legible.str d)
  · exact .str _ _

theorem Mappings.legible (m : Mappings) : Legible (d + 1) m.toJson := by
  rw [toJson, slots_eq]
  exact legible_writeGroup keys_once fun _ _ => .str _ _

theorem Endpoint.legible (e : Endpoint) : Legible (d + 2) e.toJson := by
  rw [toJson, slots_eq]
  refine legible_writeGroup keys_once ?_
  rintro (_ | f) _
  · exact legible_writeTexts _
  · exact .str _ _

theorem Provider.legible (p : Provider) : Legible (d + 3) p.toJson := by
  rw [toJson, slots]
  refine legible_writeGroup keys_once ?_
  rintro (f | _ | _) _
  · exact .str _ _
  · exact legible_writeTexts _
  · exact p.endpoint.legible

/-- The document of settings comes back from its text. -/
theorem Settings.legible {s : Settings} (keyed : s.Keyed) (short : Whole.isWritable s.maxParallelTasks = true) :
    Legible 5 s.toJson := by
  rw [toJson, slots]
  refine legible_writeGroup keys_once ?_
  rintro (db | f | f | _ | _ | _) _
  · exact (s.database db).legible (keyed.options db)
  · exact .str _ _
  · exact .bool _ _
  · exact s.mappings.legible
  · exact legible_mapValues keyed.providers fun p => p.legible
  · exact .int _ short

end Legible

section Same

theorem Dict.same_refl {α : Type} {eq : α → α → Bool} {map : Dict α} (once : Distinct map)
    (refl : ∀ a, eq a a = true) : same eq map map = true := by
  simp only [same, List.all_eq_true, decide_eq_true_eq]
  refine ⟨trivial, ?_⟩
  intro entry mem
  rw [lookup_of_mem once mem]
  exact refl entry.2

theorem Settings.agree_refl {φ : Type} (fields : List φ) (text : φ → String) : agree fields text text = true := by
  simp [agree]

theorem Endpoint.same_refl (e : Endpoint) : e.same e = true := by
  simp [same, Settings.agree_refl]

theorem Provider.same_refl (p : Provider) : p.same p = true := by
  simp [same, Settings.agree_refl, Endpoint.same_refl]

theorem Provider.thaw_of_open {p : Provider} (mark : p.frozen = false) (endpoint : p.endpoint.frozen = false) :
    p.thaw = p := by
  apply Provider.ext
  · rfl
  · rfl
  · exact Endpoint.ext rfl rfl endpoint.symm
  · exact mark.symm

namespace Settings

/-- Settings without frozen providers equal their copy with every mark off. -/
theorem thaw_same {s : Settings} (keyed : s.Keyed)
    (isOpen : ∀ entry ∈ s.providers, entry.2.frozen = false ∧ entry.2.endpoint.frozen = false) :
    s.thaw.same s = true := by
  have providers : s.thaw.providers = s.providers := by
    have each : ∀ entry ∈ s.providers, (entry.1, entry.2.thaw) = entry := by
      intro entry mem
      obtain ⟨mark, endpoint⟩ := isOpen entry mem
      rw [Provider.thaw_of_open mark endpoint]
    exact (List.map_congr_left each).trans (List.map_id _)
  have database (d : Dialect) : (s.thaw.database d).same (s.database d) = true := by
    have options : Dict.same (· = ·) (s.database d).options (s.database d).options = true :=
      Dict.same_refl (keyed.options d) fun _ => decide_eq_true rfl
    have texts := agree_refl DatabaseField.all (s.database d).text
    exact Bool.and_eq_true_iff.mpr ⟨texts, options⟩
  have mappings : s.thaw.mappings.same s.mappings = true := agree_refl _ _
  have texts : agree TextSetting.all s.thaw.text s.text = true := agree_refl _ _
  have flags : FlagSetting.all.all (fun f => s.thaw.flag f = s.flag f) = true := by simp [thaw]
  have number : s.thaw.maxParallelTasks = s.maxParallelTasks := rfl
  rw [same, providers, mappings, texts, flags, number, Dict.same_refl keyed.providers Provider.same_refl]
  simp [database]

/-- Marks do not show in a document. -/
theorem toJson_thaw (s : Settings) : s.thaw.toJson = s.toJson := by
  have members (m : Member) : (slot m).write s.thaw = (slot m).write s := by
    cases m with
    | providers =>
      show Json.obj (Dict.mapValues Provider.toJson (Dict.mapValues Provider.thaw s.providers)) = _
      rw [Dict.mapValues_mapValues]
      rfl
    | _ => rfl
  simp only [toJson, writeGroup, slots, List.map_map, Function.comp_def, members]

end Settings

end Same

/-- What operations make of a payload comes back from its document, and gives the same document again. It also
equals what comes back, unless a provider or its endpoint is frozen. -/
theorem Reached.round_trip {payload : Json} {s : Settings} (once : payload.Distinct) (h : Reached payload s)
    (short : Whole.isWritable s.maxParallelTasks = true) :
    ∃ text doc back, s.render = .ok text ∧ Json.read text = .ok doc ∧ Settings.decode doc = .ok back ∧
      back.toJson = s.toJson ∧ back.render = .ok text ∧
      ((∀ entry ∈ s.providers, entry.2.frozen = false ∧ entry.2.endpoint.frozen = false) →
        back.same s = true) := by
  have keyed := h.keyed once
  have room : ∀ k, ({} : Json.Limits).digits = some k → digitLimit ≤ k := by
    intro k eq
    cases eq
    exact Nat.le_refl _
  obtain ⟨text, written, read⟩ := Json.read_text (l := Settings.layout) rfl room (Settings.legible keyed short)
    (by decide)
  have render (t : Settings) (same : t.toJson = s.toJson) : t.render = .ok text := by
    rw [Settings.render, same, written]
    rfl
  exact ⟨text, s.toJson, s.thaw, render s rfl, read, s.decode_toJson, s.toJson_thaw,
    render s.thaw s.toJson_thaw, Settings.thaw_same keyed⟩

/-- A payload with quotes and breaks in its texts, and a provider. -/
def Settings.sampleDocument : Json :=
  .obj [("mysql", .obj [("options", .obj [("init", .str "say \"hi\"\n\x01")])]),
    ("oidc_providers", .obj [("größe", .obj [("scopes", .arr [.str "mail"])])]), ("max_parallel_tasks", .int 7)]

theorem Settings.sampleDocument_distinct : sampleDocument.Distinct := by
  have texts (name text : String) : Json.Distinct (.obj [(name, .str text)]) := by
    refine .obj (List.nodup_singleton name) ?_
    simpa using Json.Distinct.str text
  have scopes : Json.Distinct (.obj [("scopes", .arr [.str "mail"])]) := by
    refine .obj (List.nodup_singleton _) ?_
    simpa using Json.Distinct.arr (by simpa using Json.Distinct.str "mail")
  have options : Json.Distinct (.obj [("options", .obj [("init", .str "say \"hi\"\n\x01")])]) := by
    refine .obj (List.nodup_singleton _) ?_
    simpa using texts _ _
  have providers : Json.Distinct (.obj [("größe", .obj [("scopes", .arr [.str "mail"])])]) := by
    refine .obj (List.nodup_singleton _) ?_
    simpa using scopes
  refine .obj (by simp [Dict.Distinct, Dict.keys]) ?_
  simpa using ⟨options, providers, Json.Distinct.int 7⟩

/-- The payload's settings come back after the port was set and one storage group was frozen. -/
theorem round_trip_of_frozen_storage :
    ∃ s text doc back, Reached Settings.sampleDocument s ∧ (s.database .mysql).frozen = true ∧
      s.text .port = ":4000" ∧ s.render = .ok text ∧ Json.read text = .ok doc ∧ Settings.decode doc = .ok back ∧
      back.toJson = s.toJson ∧ back.render = .ok text ∧ back.same s = true := by
  have decoded := (rfl : Settings.decode Settings.sampleDocument = .ok _)
  have reached := ((Reached.decoded decoded).step (.set "port" (.text ":4000"))).step (.freeze (.database .mysql))
  obtain ⟨text, doc, back, render, read, decode, json, again, same⟩ := reached.round_trip Settings.sampleDocument_distinct (by decide +kernel)
  exact ⟨_, text, doc, back, reached, by decide +kernel, by decide +kernel, render, read, decode, json, again,
    same (by decide +kernel)⟩

end ServerSettings
