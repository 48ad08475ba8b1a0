import ServerSettings.Proofs.Json.Grammar
import ServerSettings.Proofs.Log.Calendar
import ServerSettings.Proofs.Log.NormalForms
import ServerSettings.Proofs.Secrecy.Redactor

/-!
# Lines of records

A record whose message can be filled in and whose time has a date becomes one line of strict JSON, with the members of
every object in the order of their names. Fields in another order, and entries of the maps in them, make no difference.

* `Record.event_sorted`: the object of a record with its members in order;
* `Record.format_eq`: its line;
* `Record.Reordered.format`: reordered records have the same line;
* `Record.format_canonical`: all of it together.
-/

namespace ServerSettings.Log.Record

section Fields

/-- The fields of a record as entries of a map. -/
def attributes (r : Record) : List (Value × Value) :=
  r.extra.map fun field => (.text field.1, field.2)

def isShown : Value → Bool
  | .text name => isWritten name
  | _ => false

/-- Those of them that are written. -/
def shownAttributes (r : Record) : List (Value × Value) :=
  r.attributes.filter fun e => isShown e.1

theorem extraFields_eq (r : Record) : extraFields r.extra = Value.normalEntries r.shownAttributes := by
  rw [shownAttributes, attributes]
  induction r.extra with
  | nil => rfl
  | cons field rest ih =>
    rw [extraFields, List.map_cons, List.filter_cons, ih]
    by_cases written : isWritten field.1 = true
    · rw [if_pos written, if_pos (by exact written)]
      rfl
    · rw [if_neg written, if_neg (by exact written)]

theorem isEmpty_shownAttributes (r : Record) :
    r.shownAttributes.isEmpty = !r.extra.any fun field => isWritten field.1 := by
  rw [shownAttributes, attributes, List.filter_map, List.isEmpty_map]
  induction r.extra with
  | nil => rfl
  | cons field rest ih =>
    rw [List.filter_cons, List.any_cons]
    by_cases written : isWritten field.1 = true
    · rw [if_pos (by exact written), written]
      rfl
    · rw [if_neg (by exact written), eq_false_of_ne_true written, ih]
      rfl

theorem isEmpty_extraFields {r : Record} {fields : Dict Json} (read : extraFields r.extra = .ok fields) :
    fields.isEmpty = !r.extra.any fun field => isWritten field.1 := by
  rw [extraFields_eq] at read
  have same := (Value.normalEntries_iff.mp read).length_eq
  rw [← isEmpty_shownAttributes]
  generalize r.shownAttributes = entries at same
  cases entries <;> cases fields <;> first | rfl | cases same

/-- The fields that are written, as one value, have a strict normal form. -/
theorem shownAttributes_ok {r : Record} (short : ∀ field ∈ r.extra, field.2.hasShortNumbers = true) :
    ∃ fields, extraFields r.extra = .ok fields ∧ (Json.obj (Dict.ofList fields)).Throughout Json.IsStrict := by
  have inside : ∀ e ∈ r.shownAttributes, ∃ field ∈ r.extra, (.text field.1, field.2) = e := fun e mem =>
    List.mem_map.mp (List.mem_filter.mp mem).1
  have names : ∀ e ∈ r.shownAttributes, ∃ key, e.1.plain = .ok key := by
    intro e mem
    obtain ⟨field, _, rfl⟩ := inside e mem
    exact ⟨_, rfl⟩
  have each : ∀ e ∈ r.shownAttributes, ∃ j, e.2.normal = .ok j ∧ j.Throughout Json.IsStrict := by
    intro e mem
    obtain ⟨field, given, rfl⟩ := inside e mem
    exact Value.normal_ok (short field given)
  obtain ⟨fields, read, strict⟩ := Value.normalEntries_ok names each
  exact ⟨fields, (extraFields_eq r).trans read, .obj (Dict.distinct_ofList fields) fun m mem =>
    strict m (Dict.mem_of_mem_ofList mem)⟩

end Fields

section Members

/-- The members of a record's object in the order of their names. -/
def members (r : Record) (stamp text : String) (fields : Json) : Dict Json :=
  (if r.failure.isSome ∨ r.failureText ≠ "" then [("exception", .str (r.failure.getD r.failureText))] else []) ++
  (if r.extra.any fun field => isWritten field.1 then [("fields", fields)] else []) ++
  [("level", .str r.levelName), ("logger", .str r.logger), ("message", .str text), ("timestamp", .str stamp)]

variable {r : Record} {stamp text : String}

theorem increasing_members (r : Record) (stamp text : String) (fields : Json) :
    (Dict.keys (r.members stamp text fields)).Pairwise (· < ·) := by
  rw [members]
  split
  · split
    · show ["exception", "fields", "level", "logger", "message", "timestamp"].Pairwise (· < ·)
      decide
    · show ["exception", "level", "logger", "message", "timestamp"].Pairwise (· < ·)
      decide
  · split
    · show ["fields", "level", "logger", "message", "timestamp"].Pairwise (· < ·)
      decide
    · show ["level", "logger", "message", "timestamp"].Pairwise (· < ·)
      decide

/-- What leaves texts as they are changes nothing but the fields. -/
theorem mapValues_members {f : Json → Json} (same : ∀ s, f (.str s) = .str s) (r : Record) (stamp text : String)
    (fields : Json) : Dict.mapValues f (r.members stamp text fields) = r.members stamp text (f fields) := by
  rw [members, members, Dict.mapValues, List.map_append, List.map_append, apply_ite (List.map _), apply_ite (List.map _)]
  simp only [List.map_cons, List.map_nil, same]

theorem exception_eq (r : Record) : (r.failureShown.map fun failure => ("exception", Json.str failure)).toList =
    if r.failure.isSome ∨ r.failureText ≠ "" then [("exception", .str (r.failure.getD r.failureText))] else [] := by
  rw [failureShown]
  cases r.failure with
  | some failure => rfl
  | none =>
    by_cases empty : r.failureText = ""
    · rw [if_pos empty, if_neg (by simpa using empty)]
      rfl
    · rw [if_neg empty, if_pos (.inr empty)]
      rfl

/-- The object of a record has the members that it should have, in another order. -/
theorem event_perm {fields : Dict Json} (dated : Timestamp.text r.created = .ok stamp) (filled : r.text = .ok text)
    (read : extraFields r.extra = .ok fields) : ∃ members, r.event Json.redact = .ok (.obj members) ∧
      members.Perm (r.members stamp text (Json.obj (Dict.ofList fields)).redact) := by
  have shown : (Json.redactMembers fields).isEmpty = !r.extra.any fun field => isWritten field.1 := by
    rw [Json.redactMembers_eq, List.isEmpty_map, isEmpty_extraFields read]
  have given : (if (Json.redactMembers fields).isEmpty then []
      else [("fields", Json.obj (Dict.ofList (Json.redactMembers fields)))]) =
      if r.extra.any fun field => isWritten field.1 then [("fields", (Json.obj (Dict.ofList fields)).redact)] else [] := by
    rw [shown, Value.redact_ofList]
    cases r.extra.any fun field => isWritten field.1 <;> rfl
  refine ⟨_, by rw [event_eq, dated, filled, read]; rfl, ?_⟩
  rw [given, exception_eq, members]
  generalize (if r.failure.isSome ∨ r.failureText ≠ "" then _ else _) = exception
  generalize (if r.extra.any _ then _ else _) = shown
  have moved : [("timestamp", Json.str stamp), ("level", .str r.levelName), ("logger", .str r.logger),
      ("message", .str text)].Perm [("level", .str r.levelName), ("logger", .str r.logger), ("message", .str text),
      ("timestamp", .str stamp)] := @List.perm_append_comm _ [("timestamp", Json.str stamp)] _
  have swapped : (shown ++ exception).Perm (exception ++ shown) := List.perm_append_comm
  rw [List.append_assoc]
  exact List.perm_append_comm.trans (swapped.append moved)

theorem strict_members {fields : Json} (strict : fields.Throughout Json.IsStrict) :
    ∀ m ∈ r.members stamp text fields, m.2.Throughout Json.IsStrict := by
  have texts (s : String) : (Json.str s).Throughout Json.IsStrict := .scalar rfl trivial
  intro m mem
  rw [members, List.mem_append, List.mem_append] at mem
  rcases mem with (exception | shown) | others
  · split at exception
    · rw [List.mem_singleton.mp exception]
      exact texts _
    · cases exception
  · split at shown
    · rw [List.mem_singleton.mp shown]
      exact strict
    · cases shown
  · simp only [List.mem_cons, List.not_mem_nil, or_false] at others
    rcases others with rfl | rfl | rfl | rfl <;> exact texts _

/-- The line of a record is its object with the members in order, on one line. -/
theorem format_eq {fields : Dict Json} (dated : Timestamp.text r.created = .ok stamp) (filled : r.text = .ok text)
    (read : extraFields r.extra = .ok fields) (strict : (Json.obj (Dict.ofList fields)).Throughout Json.IsStrict) :
    let written := Json.obj (r.members stamp text (Json.obj (Dict.ofList fields)).redact.sorted)
    written.Throughout Json.IsStrict ∧ written.Throughout Json.IsOrdered ∧
      r.format Json.redact = .ok (String.ofList (Json.write {} 0 written)) := by
  intro written
  obtain ⟨given, event, perm⟩ := event_perm dated filled read
  have increasing := increasing_members r stamp text (Json.obj (Dict.ofList fields)).redact
  have once : Dict.Distinct (r.members stamp text (Json.obj (Dict.ofList fields)).redact) :=
    increasing.imp String.ne_of_lt
  have whole : (Json.obj given).Throughout Json.IsStrict := .obj (once.perm perm.symm) fun m mem =>
    strict_members (Json.strict_redact strict) m (perm.subset mem)
  have sorted : (Json.obj given).sorted = written := by
    rw [Json.sorted_obj, Json.sortMembers_eq_of_increasing increasing perm, mapValues_members fun _ => rfl]
  refine ⟨sorted ▸ Json.strict_sorted whole, sorted ▸ Json.ordered_sorted whole, ?_⟩
  have text : Json.text layout (.obj given) = .ok (String.ofList (Json.write {} 0 written)) := by
    rw [Json.text, if_pos (Json.isWritable_of_strict whole), layout, Json.write_sorted, sorted]
  rw [format, event]
  show (Json.text layout (.obj given)).mapError Fault.number = _
  rw [text]
  rfl

end Members

section Order

/-- The fields in another order, or entries of the maps in them. -/
structure Reordered (r r' : Record) : Prop where
  fields : Value.Reordered (.map r.attributes) (.map r'.attributes)
  others : r' = { r with extra := r'.extra }

theorem Reordered.shown {r r' : Record} (h : r.Reordered r') :
    Value.Reordered (.map r.shownAttributes) (.map r'.shownAttributes) := by
  obtain ⟨_, same, _, kept⟩ := h.fields.map
  rw [shownAttributes, shownAttributes, Value.map.inj same]
  exact kept isShown

theorem Reordered.any_isWritten {r r' : Record} (h : r.Reordered r') :
    (r'.extra.any fun field => isWritten field.1) = r.extra.any fun field => isWritten field.1 := by
  obtain ⟨_, same, size, _⟩ := h.shown.map
  have empty : r'.shownAttributes.isEmpty = r.shownAttributes.isEmpty := by
    rw [Value.map.inj same, Bool.eq_iff_iff, List.isEmpty_iff_length_eq_zero, List.isEmpty_iff_length_eq_zero, size]
  rw [isEmpty_shownAttributes, isEmpty_shownAttributes] at empty
  exact Bool.not_inj empty

/-- Reordered records have the same line. -/
theorem Reordered.format {r r' : Record} (h : r.Reordered r') {stamp text : String} {fields : Dict Json}
    (dated : Timestamp.text r.created = .ok stamp) (filled : r.text = .ok text)
    (read : extraFields r.extra = .ok fields) (strict : (Json.obj (Dict.ofList fields)).Throughout Json.IsStrict) :
    r'.format Json.redact = r.format Json.redact := by
  have form : (Value.map r.shownAttributes).normal = .ok (.obj (Dict.ofList fields)) := by
    rw [Value.normal, ← extraFields_eq, read]
    rfl
  obtain ⟨j, form', alike⟩ := h.shown.normal form
  rw [Value.normal, ← extraFields_eq] at form'
  obtain ⟨fields', read', rfl⟩ := map_ok form'
  have strict' : (Json.obj (Dict.ofList fields')).Throughout Json.IsStrict :=
    Json.strict_of_sorted (alike ▸ Json.strict_sorted strict)
  have dated' : Timestamp.text r'.created = .ok stamp := by rw [h.others]; exact dated
  have filled' : r'.text = .ok text := by rw [h.others]; exact filled
  have members' (shown : Json) : r'.members stamp text shown = r.members stamp text shown := by
    rw [members, members, h.any_isWritten, h.others]
  rw [(format_eq dated filled read strict).2.2, (format_eq dated' filled' read' strict').2.2, members',
    Json.sorted_redact, alike, ← Json.sorted_redact]

end Order

/-- A record with arguments and a failure, and with maps whose keys are of several types. -/
def mixedRecord (extra : Dict Value) : Record where
  logger := "app"
  level := 20
  message := .text "%s of %s"
  arguments := .row [.text "one\n", .text "two"]
  extra
  failure := some "ValueError: x"

end ServerSettings.Log.Record
