import ServerSettings.Proofs.Log.Lines

/-!
# Normal forms as a projection

To put a value into normal form is to project it onto JSON. What comes of it is JSON, and JSON comes through as it is, so
to do it again changes nothing. A value has a normal form exactly if the whole numbers in the keys of its maps can be
written. Of keys with the same text the first gives the place and the last the value.

* `IsJson`: what a JSON value is among the values;
* `normal_short`, `normal_long`: what has a normal form, and that it is JSON;
* `IsJson.normal`: JSON is its own normal form;
* `merges_of_normal`: the members that the entries of a map become;
* `Record.format_eq_formatOnce`: fields need not be put into normal form again;
* `normal_projects`: all of it together.
-/

namespace ServerSettings

namespace Value

/-- The entries of a map from texts. -/
def textEntries (members : Dict Value) : List (Value × Value) :=
  members.map fun m => (.text m.1, m.2)

/-- A value made of nothing but null, truth values, whole numbers, finite numbers, texts, lists, and maps from texts, each
of which is there once. -/
inductive IsJson : Value → Prop
  | none : IsJson .none
  | bool (b : Bool) : IsJson (.bool b)
  | int (n : Int) : IsJson (.int n)
  | float {x : Binary64} (finite : x.isFinite = true) : IsJson (.float x)
  | text (s : String) : IsJson (.text s)
  | list {items : List Value} (each : ∀ v ∈ items, IsJson v) : IsJson (.list items)
  | map {members : Dict Value} (once : Dict.Distinct members) (each : ∀ m ∈ members, IsJson m.2) :
      IsJson (.map (textEntries members))

/-- The normal form of a value, as a value again. -/
def normalized (v : Value) : Except NumberFault Value :=
  v.normal.map ofJson

section ShortKeys

mutual

/-- Are the whole numbers in the keys of all maps short enough to be written? Other whole numbers may have any size. -/
def hasShortKeys : Value → Bool
  | .list items => itemsHaveShortKeys items
  | .tuple items => itemsHaveShortKeys items
  | .map entries => entriesHaveShortKeys entries
  | _ => true

def itemsHaveShortKeys : List Value → Bool
  | [] => true
  | v :: rest => hasShortKeys v && itemsHaveShortKeys rest

def entriesHaveShortKeys : List (Value × Value) → Bool
  | [] => true
  | (k, v) :: rest => hasShortNumbers k && hasShortKeys v && entriesHaveShortKeys rest

end

theorem shortKeys_of_mem {items : List Value} (short : itemsHaveShortKeys items = true) :
    ∀ v ∈ items, v.hasShortKeys = true := by
  induction items with
  | nil => exact fun _ mem => absurd mem List.not_mem_nil
  | cons v rest ih =>
    rw [itemsHaveShortKeys, Bool.and_eq_true] at short
    exact List.forall_mem_cons.mpr ⟨short.1, ih short.2⟩

theorem shortKeys_of_mem_entries {entries : List (Value × Value)} (short : entriesHaveShortKeys entries = true) :
    ∀ e ∈ entries, e.1.hasShortNumbers = true ∧ e.2.hasShortKeys = true := by
  induction entries with
  | nil => exact fun _ mem => absurd mem List.not_mem_nil
  | cons e rest ih =>
    rw [entriesHaveShortKeys, Bool.and_eq_true, Bool.and_eq_true] at short
    exact List.forall_mem_cons.mpr ⟨short.1, ih short.2⟩

end ShortKeys

section Image

theorem ofJsonItems_eq (items : List Json) : ofJsonItems items = items.map ofJson := by
  induction items with
  | nil => rfl
  | cons v rest ih => rw [ofJsonItems, ih, List.map_cons]

theorem ofJsonMembers_eq (members : Dict Json) : ofJsonMembers members = textEntries (Dict.mapValues ofJson members) := by
  induction members with
  | nil => rfl
  | cons m rest ih =>
    rw [ofJsonMembers, ih]
    rfl

theorem isJson_arr {items : List Json} (each : ∀ j ∈ items, (ofJson j).IsJson) : (ofJson (.arr items)).IsJson := by
  rw [ofJson, ofJsonItems_eq]
  exact .list (List.forall_mem_map.mpr each)

theorem isJson_obj {members : Dict Json} (once : Dict.Distinct members) (each : ∀ m ∈ members, (ofJson m.2).IsJson) :
    (ofJson (.obj members)).IsJson := by
  rw [ofJson, ofJsonMembers_eq]
  exact .map (once.mapValues ofJson) (List.forall_mem_map.mpr each)

/-- What has short keys has a normal form, and that is JSON. -/
theorem normal_short {v : Value} (short : v.hasShortKeys = true) : ∃ j, v.normal = .ok j ∧ (ofJson j).IsJson := by
  induction v using Value.induction with
  | leaf v isLeaf =>
    cases v with
    | none => exact ⟨_, rfl, .none⟩
    | bool b => exact ⟨_, rfl, .bool b⟩
    | int n => exact ⟨_, rfl, .int n⟩
    | float x =>
      refine ⟨normalFloat x, rfl, ?_⟩
      rw [normalFloat]
      split
      · next finite => exact .float finite
      · exact .text redactedText
    | text | bytes | path | foreign => exact ⟨_, rfl, .text _⟩
    | list | tuple | map => cases isLeaf
  | list items each | tuple items each =>
    obtain ⟨out, read, json⟩ := normalItems_ok fun v mem => each v mem (shortKeys_of_mem short v mem)
    exact ⟨.arr out, by rw [normal, read]; rfl, isJson_arr json⟩
  | map entries each =>
    have both := shortKeys_of_mem_entries short
    obtain ⟨members, read, json⟩ := normalEntries_ok (fun e mem => plain_ok (both e mem).1)
      fun e mem => each e mem (both e mem).2
    exact ⟨.obj (Dict.ofList members), by rw [normal, read]; rfl,
      isJson_obj (Dict.distinct_ofList members) fun m mem => json m (Dict.mem_of_mem_ofList mem)⟩

end Image

section Faults

mutual

theorem quoted_long (v : Value) (long : v.hasShortNumbers = false) : v.quoted = .error .tooLarge := by
  cases v with
  | none | bool | float | text | bytes | path | foreign => cases long
  | int n =>
    rw [hasShortNumbers] at long
    rw [quoted, Whole.text, long]
    rfl
  | list items | tuple items =>
    rw [quoted, quotedItems_long items long]
    rfl
  | map entries =>
    rw [quoted, quotedEntries_long entries long]
    rfl

theorem quotedItems_long (items : List Value) (long : itemsHaveShortNumbers items = false) :
    quotedItems items = .error .tooLarge := by
  cases items with
  | nil => cases long
  | cons v rest =>
    rw [itemsHaveShortNumbers] at long
    rw [quotedItems]
    cases first : v.hasShortNumbers with
    | false => rw [quoted_long v first]
    | true =>
      rw [first, Bool.true_and] at long
      obtain ⟨part, read⟩ := quoted_ok v first
      rw [read, quotedItems_long rest long]
      rfl

theorem quotedEntries_long (entries : List (Value × Value)) (long : entriesHaveShortNumbers entries = false) :
    quotedEntries entries = .error .tooLarge := by
  cases entries with
  | nil => cases long
  | cons entry rest =>
    obtain ⟨k, v⟩ := entry
    rw [entriesHaveShortNumbers] at long
    rw [quotedEntries]
    cases key : k.hasShortNumbers with
    | false => rw [quoted_long k key]
    | true =>
      obtain ⟨name, named⟩ := quoted_ok k key
      cases first : v.hasShortNumbers with
      | false => rw [named, quoted_long v first]
      | true =>
        rw [key, first, Bool.true_and, Bool.true_and] at long
        obtain ⟨part, read⟩ := quoted_ok v first
        rw [named, read, quotedEntries_long rest long]
        rfl

end

theorem plain_long {v : Value} (long : v.hasShortNumbers = false) : v.plain = .error .tooLarge := by
  cases v with
  | text | path => cases long
  | _ => exact quoted_long _ long

theorem normalItems_long {items : List Value}
    (each : ∀ v ∈ items, v.hasShortKeys = false → v.normal = .error .tooLarge)
    (long : itemsHaveShortKeys items = false) : normalItems items = .error .tooLarge := by
  induction items with
  | nil => cases long
  | cons v rest ih =>
    obtain ⟨here, later⟩ := List.forall_mem_cons.mp each
    rw [itemsHaveShortKeys] at long
    rw [normalItems]
    cases first : v.hasShortKeys with
    | false => rw [here first]
    | true =>
      rw [first, Bool.true_and] at long
      obtain ⟨j, value, _⟩ := normal_short first
      rw [value, ih later long]
      rfl

theorem normalEntries_long {entries : List (Value × Value)}
    (each : ∀ e ∈ entries, e.2.hasShortKeys = false → e.2.normal = .error .tooLarge)
    (long : entriesHaveShortKeys entries = false) : normalEntries entries = .error .tooLarge := by
  induction entries with
  | nil => cases long
  | cons entry rest ih =>
    obtain ⟨k, v⟩ := entry
    obtain ⟨here, later⟩ := List.forall_mem_cons.mp each
    rw [entriesHaveShortKeys] at long
    rw [normalEntries]
    cases key : k.hasShortNumbers with
    | false => rw [plain_long key]
    | true =>
      obtain ⟨name, named⟩ := plain_ok key
      cases first : v.hasShortKeys with
      | false => rw [named, here first]
      | true =>
        rw [key, first, Bool.true_and, Bool.true_and] at long
        obtain ⟨j, value, _⟩ := normal_short first
        rw [named, value, ih later long]
        rfl

/-- What has a key that cannot be written has no normal form. -/
theorem normal_long {v : Value} (long : v.hasShortKeys = false) : v.normal = .error .tooLarge := by
  induction v using Value.induction with
  | leaf v isLeaf => cases v <;> first | cases long | cases isLeaf
  | list items each | tuple items each =>
    rw [normal, normalItems_long each long]
    rfl
  | map entries each =>
    rw [normal, normalEntries_long each long]
    rfl

end Faults

section FixedForms

theorem normalItems_fixed {items : List Value} (each : ∀ v ∈ items, ∃ j, v.normal = .ok j ∧ ofJson j = v) :
    ∃ out, normalItems items = .ok out ∧ out.map ofJson = items := by
  induction items with
  | nil => exact ⟨[], rfl, rfl⟩
  | cons v rest ih =>
    obtain ⟨⟨j, value, same⟩, later⟩ := List.forall_mem_cons.mp each
    obtain ⟨out, read, others⟩ := ih later
    exact ⟨j :: out, by rw [normalItems, value, read]; rfl, by rw [List.map_cons, same, others]⟩

theorem normalEntries_fixed {members : Dict Value} (each : ∀ m ∈ members, ∃ j, m.2.normal = .ok j ∧ ofJson j = m.2) :
    ∃ out, normalEntries (textEntries members) = .ok out ∧ Dict.mapValues ofJson out = members := by
  induction members with
  | nil => exact ⟨[], rfl, rfl⟩
  | cons m rest ih =>
    obtain ⟨⟨j, value, same⟩, later⟩ := List.forall_mem_cons.mp each
    obtain ⟨out, read, others⟩ := ih later
    refine ⟨(m.1, j) :: out, ?_, ?_⟩
    · show normalEntries ((.text m.1, m.2) :: textEntries rest) = _
      rw [normalEntries, plain, value, read]
      rfl
    · show (m.1, ofJson j) :: Dict.mapValues ofJson out = m :: rest
      rw [same, others]

/-- JSON is its own normal form. -/
theorem IsJson.normal {v : Value} (json : v.IsJson) : ∃ j, v.normal = .ok j ∧ ofJson j = v := by
  induction json with
  | none | bool | int | text => exact ⟨_, rfl, rfl⟩
  | @float x finite => exact ⟨.float x, by rw [Value.normal, normalFloat, if_pos finite], rfl⟩
  | list _ ih =>
    obtain ⟨out, read, same⟩ := normalItems_fixed ih
    exact ⟨.arr out, by rw [Value.normal, read]; rfl, by rw [ofJson, ofJsonItems_eq, same]⟩
  | @map members once _ ih =>
    obtain ⟨out, read, same⟩ := normalEntries_fixed ih
    have distinct : Dict.Distinct out := by
      rw [← same, Dict.Distinct, Dict.keys_mapValues] at once
      exact once
    refine ⟨.obj out, ?_, by rw [ofJson, ofJsonMembers_eq, same]⟩
    rw [Value.normal, read, Except.map, Dict.ofList_eq_self distinct]

theorem normalized_eq_self_iff {v : Value} : v.normalized = .ok v ↔ v.IsJson := by
  constructor
  · intro same
    obtain ⟨j, form, back⟩ := map_ok same
    cases short : v.hasShortKeys with
    | true =>
      obtain ⟨j', form', json⟩ := normal_short short
      rw [form] at form'
      cases form'
      exact back ▸ json
    | false =>
      rw [normal_long short] at form
      cases form
  · intro json
    obtain ⟨j, form, back⟩ := json.normal
    rw [normalized, form, Except.map, back]

end FixedForms

section Collisions

/-- What the entries of a map are merged to. The names are the texts of the keys, each where it comes first, and the value
of a name is that of the last key with this text. -/
structure Merges (entries : List (Value × Value)) (members : Dict Json) : Prop where
  names : ∃ texts : List String, (entries.map fun e => e.1.plain) = texts.map Except.ok ∧
    Dict.keys members = texts.eraseDups
  values : ∀ front key value back, entries = front ++ (key, value) :: back → (∀ e ∈ back, e.1.plain ≠ key.plain) →
    ∃ name j, key.plain = .ok name ∧ value.normal = .ok j ∧ Dict.lookup members name = some j

theorem merges_of_normal {entries : List (Value × Value)} {j : Json} (form : (Value.map entries).normal = .ok j) :
    ∃ members, j = .obj members ∧ Merges entries members := by
  rw [normal] at form
  obtain ⟨given, read, rfl⟩ := map_ok form
  have each := normalEntries_iff.mp read
  refine ⟨Dict.ofList given, rfl, ⟨Dict.keys given, map_plain_eq each, Dict.keys_ofList given⟩, ?_⟩
  rintro front key value back rfl last
  -- What is given splits where the entries do.
  have ending := List.forall₂_drop_append _ _ _ each.flip
  obtain ⟨m, behind, ⟨name, form⟩, later, split⟩ := List.forall₂_cons_right_iff.mp ending
  have whole : given = given.take front.length ++ (m.1, m.2) :: behind := by
    rw [← split, List.take_append_drop]
  have absent : m.1 ∉ Dict.keys behind := by
    intro mem
    have again : Except.ok m.1 ∈ back.map fun e => e.1.plain := by
      rw [map_plain_eq later.flip]
      exact List.mem_map_of_mem mem
    obtain ⟨e, inside, same⟩ := List.mem_map.mp again
    exact last e inside (same.trans name.symm)
  refine ⟨m.1, m.2, name, form, ?_⟩
  rw [whole]
  exact Dict.lookup_ofList m.2 absent

end Collisions

end Value

namespace Log.Record

section Once

variable {r : Record}

/-- The fields that are written have different names if all have. -/
theorem distinct_fields {fields : Dict Json} (once : Dict.Distinct r.extra) (read : extraFields r.extra = .ok fields) :
    Dict.Distinct fields := by
  have names : (r.attributes.map fun e => e.1.plain) = (Dict.keys r.extra).map Except.ok := by
    rw [attributes, Dict.keys, List.map_map, List.map_map]
    rfl
  have different : (r.attributes.map fun e => e.1.plain).Nodup := by
    rw [names]
    exact List.Pairwise.map Except.ok (fun _ _ other same => other (Except.ok.inj same)) once
  rw [extraFields_eq] at read
  exact Value.distinct_of_plain (different.sublist (List.filter_sublist.map _)) (Value.normalEntries_iff.mp read)

/-- Fields in normal form are the normal form of them all together. -/
theorem normal_fields {fields : Dict Json} (once : Dict.Distinct r.extra) (read : extraFields r.extra = .ok fields) :
    (Value.ofJson (.obj fields)).normal = .ok (.obj fields) := by
  rw [Value.normal_ofJson_obj (each_of_extraFields read), Dict.ofList_eq_self (distinct_fields once read)]

/-- The object of a record whose fields are put into normal form each by itself, and not again. -/
def eventOnce (redact : Redactor) (r : Record) : Except Fault Json := do
  let stamp ← (Timestamp.text r.created).mapError .time
  let text ← r.text
  let message ← (messageText (redact (.str text))).mapError .number
  let fields ← (extraFields r.extra).mapError .number
  return .obj
    ([("timestamp", .str stamp), ("level", .str r.levelName), ("logger", .str r.logger),
      ("message", .str message)] ++
     (if fields.isEmpty then [] else [("fields", redact (.obj fields))]) ++
     (r.failureShown.map fun shown => ("exception", Json.str shown)).toList)

/-- The line that comes of it. -/
def formatOnce (redact : Redactor) (r : Record) : Except Fault String := do
  let event ← r.eventOnce redact
  (Json.text layout event).mapError .number

theorem event_eq_eventOnce (once : Dict.Distinct r.extra) (redact : Redactor) : r.event redact = r.eventOnce redact := by
  have passed (fields : Dict Json) : (Except.ok fields).mapError Fault.number = .ok fields := rfl
  have together (all : Json) : (Except.ok all).mapError Fault.number = .ok all := rfl
  unfold event eventOnce
  cases read : extraFields r.extra with
  | error fault => rfl
  | ok fields => simp only [bind, Except.bind, passed, together, normal_fields once read]

theorem format_eq_formatOnce (once : Dict.Distinct r.extra) (redact : Redactor) :
    r.format redact = r.formatOnce redact := by
  rw [format, formatOnce, event_eq_eventOnce once]

end Once

end Log.Record

namespace Value

/-- To put values into normal form is to project them onto JSON.

* What has short keys has a normal form; it is JSON, and its own normal form. What has a key that cannot be written has
  none, and what comes instead is the fault of the number.
* JSON values, and no others, are their own normal forms.
* Entries of a map whose keys have the same text are merged, at the place of the first with the value of the last.
* The fields of a record, each in normal form, stay as they are when they are put into normal form together. So the line
  of the record is what it would be without that, whatever redaction does. -/
theorem normal_projects (v : Value) :
    (v.hasShortKeys = true → ∃ w, v.normalized = .ok w ∧ w.IsJson ∧ w.normalized = .ok w) ∧
    (v.hasShortKeys = false → v.normalized = .error .tooLarge) ∧
    (v.normalized = .ok v ↔ v.IsJson) ∧
    (∀ entries j, v = .map entries → v.normal = .ok j → ∃ members, j = .obj members ∧ Merges entries members) ∧
    ∀ r : Log.Record, Dict.Distinct r.extra →
      (∀ fields, Log.Record.extraFields r.extra = .ok fields → (ofJson (.obj fields)).normal = .ok (.obj fields)) ∧
      ∀ redact, r.format redact = r.formatOnce redact := by
  refine ⟨fun short => ?_, fun long => ?_, normalized_eq_self_iff, ?_, fun r once => ⟨fun fields read => ?_, ?_⟩⟩
  · obtain ⟨j, form, json⟩ := normal_short short
    exact ⟨ofJson j, by rw [normalized, form]; rfl, json, normalized_eq_self_iff.mpr json⟩
  · rw [normalized, normal_long long]
    rfl
  · rintro entries j rfl form
    exact merges_of_normal form
  · exact Log.Record.normal_fields once read
  · exact Log.Record.format_eq_formatOnce once

/-- A map with a number and its text among the keys, and a record that has this map as a field. -/
theorem normal_projects_merging :
    let v := Value.map [(.int 1, .float .nan), (.text "b", .tuple [.bytes [0xff], .bool true]), (.text "1", .path "/tmp")]
    let r : Log.Record := { logger := "app", level := 20, extra := [("data", v), ("_own", .none)] }
    (∃ w, v.normalized = .ok w ∧ w.IsJson ∧ w.normalized = .ok w) ∧
      (∃ members, v.normal = .ok (.obj members) ∧ Dict.keys members = ["1", "b"] ∧
        Dict.lookup members "1" = some (.str "/tmp")) ∧
      r.format Json.redact = r.formatOnce Json.redact := by
  intro v r
  obtain ⟨formed, _, _, merged, records⟩ := normal_projects v
  obtain ⟨w, shown, json, again⟩ := formed (by decide +kernel)
  obtain ⟨j, form, _⟩ := map_ok shown
  obtain ⟨members, rfl, merges⟩ := merged _ j rfl form
  refine ⟨⟨w, shown, json, again⟩, ⟨members, form, ?_⟩, (records r (by decide : ["data", "_own"].Nodup)).2 Json.redact⟩
  obtain ⟨texts, same, names⟩ := merges.names
  have listed : texts = ["1", "b", "1"] :=
    List.map_injective_iff.mpr (fun _ _ => Except.ok.inj) (same.symm.trans (by decide +kernel))
  obtain ⟨_, _, name, value, found⟩ := merges.values [_, _] (.text "1") (.path "/tmp") [] rfl fun _ mem =>
    absurd mem List.not_mem_nil
  cases name
  cases value
  exact ⟨by rw [names, listed]; decide, found⟩

/-- A whole number of any size is its own normal form, but a map that has it as a key has none if it cannot be
written. -/
theorem normal_of_huge_key :
    let huge := Value.int (Nat.pow 10 4300)
    huge.normalized = .ok huge ∧ (Value.map [(huge, .none)]).normalized = .error .tooLarge := by
  intro huge
  refine ⟨rfl, ?_⟩
  rw [normalized, normal_long (by decide +kernel)]
  rfl

end Value

end ServerSettings
