import ServerSettings.Log.Record
import ServerSettings.Proofs.Dict
import ServerSettings.Proofs.Json.Reading

/-!
# What log lines tell of secrets

A record is put into normal form, twice, and then redacted by the texts of its keys. Normal forms keep the texts of the
keys, and what stands under a key that tells of a secret is put into normal form before it is thrown away, so it shows
only if it has none.

* `normal_ofJson`: what is in normal form comes through unchanged;
* `normal_withheld`: the redacted normal form of a value does not depend on what stands under its secret keys;
* `format_withheld`: nor does the line of a record;
* `format_alike`: records that differ in nothing else become the same line;
* `format_of_huge_key`: a key of more than 4300 digits under a secret key has no text, and then there is no line.
-/

namespace ServerSettings

namespace Value

def isLeaf : Value → Bool
  | .list _ | .tuple _ | .map _ => false
  | _ => true

/-- What holds of leaves, and of a collection if it holds of what is in it, holds of every value. -/
@[elab_as_elim]
theorem induction {P : Value → Prop} (leaf : ∀ v, v.isLeaf = true → P v)
    (list : ∀ items : List Value, (∀ v ∈ items, P v) → P (.list items))
    (tuple : ∀ items : List Value, (∀ v ∈ items, P v) → P (.tuple items))
    (map : ∀ entries : List (Value × Value), (∀ entry ∈ entries, P entry.2) → P (.map entries)) (v : Value) : P v :=
  @Value.rec P (fun items => ∀ v ∈ items, P v) (fun entries => ∀ entry ∈ entries, P entry.2) (fun entry => P entry.2)
    (leaf .none rfl) (fun b => leaf (.bool b) rfl) (fun n => leaf (.int n) rfl) (fun x => leaf (.float x) rfl)
    (fun s => leaf (.text s) rfl) (fun b => leaf (.bytes b) rfl) (fun p => leaf (.path p) rfl) list tuple map
    (fun name shown => leaf (.foreign name shown) rfl)
    (fun _ mem => absurd mem List.not_mem_nil) (fun _ _ first later => List.forall_mem_cons.mpr ⟨first, later⟩)
    (fun _ mem => absurd mem List.not_mem_nil) (fun _ _ first later => List.forall_mem_cons.mpr ⟨first, later⟩)
    (fun _ _ _ holds => holds) v

section NormalForms

theorem normalItems_ofJson {items : List Json} (each : ∀ j ∈ items, (ofJson j).normal = .ok j) :
    normalItems (ofJsonItems items) = .ok items := by
  induction items with
  | nil => rfl
  | cons j rest ih =>
    obtain ⟨first, later⟩ := List.forall_mem_cons.mp each
    rw [ofJsonItems, normalItems, first, ih later]
    rfl

theorem normalEntries_ofJson {members : Dict Json} (each : ∀ m ∈ members, (ofJson m.2).normal = .ok m.2) :
    normalEntries (ofJsonMembers members) = .ok members := by
  induction members with
  | nil => rfl
  | cons m rest ih =>
    obtain ⟨first, later⟩ := List.forall_mem_cons.mp each
    rw [ofJsonMembers, normalEntries, plain, first, ih later]
    rfl

/-- Members in normal form become an object of them, the last of each name. -/
theorem normal_ofJson_obj {members : Dict Json} (each : ∀ m ∈ members, (ofJson m.2).normal = .ok m.2) :
    (ofJson (.obj members)).normal = .ok (.obj (Dict.ofList members)) := by
  rw [ofJson, normal, normalEntries_ofJson each]
  rfl

theorem each_of_normalItems {items : List Value} {out : List Json}
    (each : ∀ v ∈ items, ∀ j, v.normal = .ok j → (ofJson j).normal = .ok j) (h : normalItems items = .ok out) :
    ∀ j ∈ out, (ofJson j).normal = .ok j := by
  induction items generalizing out with
  | nil =>
    cases h
    exact fun _ mem => absurd mem List.not_mem_nil
  | cons v rest ih =>
    obtain ⟨first, later⟩ := List.forall_mem_cons.mp each
    rw [normalItems] at h
    cases value : v.normal with
    | error e => rw [value] at h; cases h
    | ok j =>
      rw [value] at h
      obtain ⟨more, read, same⟩ := map_ok h
      rw [← same]
      exact List.forall_mem_cons.mpr ⟨first j value, ih later read⟩

theorem each_of_normalEntries {entries : List (Value × Value)} {out : Dict Json}
    (each : ∀ entry ∈ entries, ∀ j, entry.2.normal = .ok j → (ofJson j).normal = .ok j)
    (h : normalEntries entries = .ok out) : ∀ m ∈ out, (ofJson m.2).normal = .ok m.2 := by
  induction entries generalizing out with
  | nil =>
    cases h
    exact fun _ mem => absurd mem List.not_mem_nil
  | cons entry rest ih =>
    obtain ⟨first, later⟩ := List.forall_mem_cons.mp each
    rw [normalEntries] at h
    cases key : entry.1.plain with
    | error e => rw [key] at h; cases h
    | ok name =>
      cases value : entry.2.normal with
      | error e => rw [key, value] at h; cases h
      | ok j =>
        rw [key, value] at h
        obtain ⟨more, read, same⟩ := map_ok h
        rw [← same]
        exact List.forall_mem_cons.mpr ⟨first j value, ih later read⟩

/-- What is in normal form comes through unchanged. -/
theorem normal_ofJson {v : Value} {j : Json} (h : v.normal = .ok j) : (ofJson j).normal = .ok j := by
  induction v using Value.induction generalizing j with
  | leaf v isLeaf =>
    cases v with
    | float x =>
      cases h
      unfold normalFloat
      split
      · next finite => rw [ofJson, normal, normalFloat, if_pos finite]
      · rfl
    | list | tuple | map => cases isLeaf
    | none | bool | int | text | bytes | path | foreign => cases h; rfl
  | list items each | tuple items each =>
    rw [normal] at h
    obtain ⟨out, read, rfl⟩ := map_ok h
    have again := normalItems_ofJson (each_of_normalItems (fun v mem _ => each v mem) read)
    rw [ofJson, normal, again]
    rfl
  | map entries each =>
    rw [normal] at h
    obtain ⟨members, read, rfl⟩ := map_ok h
    have inside := each_of_normalEntries (fun entry mem _ => each entry mem) read
    rw [normal_ofJson_obj fun m mem => inside m (Dict.mem_of_mem_ofList mem), Dict.ofList_eq_self (Dict.distinct_ofList _)]

end NormalForms

section Secrets

/-- Does the text of a key tell of a secret? -/
def tellsSecret (k : Value) : Bool :=
  match k.plain with
  | .ok key => isSensitiveKey key
  | .error _ => false

mutual

/-- The value with nothing left under its secret keys. -/
def withheld : Value → Value
  | .list items => .list (withheldItems items)
  | .tuple items => .tuple (withheldItems items)
  | .map entries => .map (withheldEntries entries)
  | v => v

def withheldItems : List Value → List Value
  | [] => []
  | v :: rest => withheld v :: withheldItems rest

def withheldEntries : List (Value × Value) → List (Value × Value)
  | [] => []
  | (k, v) :: rest => (k, if tellsSecret k then .none else withheld v) :: withheldEntries rest

end

def isNormalizable (v : Value) : Bool :=
  v.normal.toOption.isSome

mutual

/-- Does something under a secret key have no normal form? -/
def hidesFault : Value → Bool
  | .list items => itemsHideFault items
  | .tuple items => itemsHideFault items
  | .map entries => entriesHideFault entries
  | _ => false

def itemsHideFault : List Value → Bool
  | [] => false
  | v :: rest => hidesFault v || itemsHideFault rest

def entriesHideFault : List (Value × Value) → Bool
  | [] => false
  | (k, v) :: rest => (if tellsSecret k then !v.isNormalizable else hidesFault v) || entriesHideFault rest

end

theorem redacted_normalItems (v : Value) (rest : List Value) :
    (normalItems (v :: rest)).map Json.redactItems =
      (v.normal.map Json.redact).bind fun item => ((normalItems rest).map Json.redactItems).map (item :: ·) := by
  rw [normalItems]
  cases v.normal with
  | error e => rfl
  | ok j => cases normalItems rest <;> rfl

/-- What redaction makes of the value of a member. -/
def redactedUnder (key : String) (j : Json) : Json :=
  if isSensitiveKey key then .redacted else j.redact

theorem redacted_normalEntries (k v : Value) (rest : List (Value × Value)) :
    (normalEntries ((k, v) :: rest)).map Json.redactMembers =
      k.plain.bind fun key => (v.normal.map (redactedUnder key)).bind fun value =>
        ((normalEntries rest).map Json.redactMembers).map ((key, value) :: ·) := by
  rw [normalEntries]
  cases k.plain with
  | error e => rfl
  | ok key =>
    cases v.normal with
    | error e => rfl
    | ok j => cases normalEntries rest <;> rfl

theorem redact_ofList (members : Dict Json) :
    (Json.obj (Dict.ofList members)).redact = .obj (Dict.ofList (Json.redactMembers members)) := by
  rw [Json.redact, Json.redactMembers_eq, Json.redactMembers_eq]
  exact congrArg Json.obj (Dict.ofList_map redactedUnder members).symm

/-- Under a key, a value without its secrets is redacted to the same. -/
theorem redactedUnder_withheld {key : String} {v : Value}
    (same : v.hidesFault = false → v.withheld.normal.map Json.redact = v.normal.map Json.redact)
    (shown : (if isSensitiveKey key then !v.isNormalizable else v.hidesFault) = false) :
    (if isSensitiveKey key then Value.none else v.withheld).normal.map (redactedUnder key) =
      v.normal.map (redactedUnder key) := by
  cases told : isSensitiveKey key with
  | true =>
    rw [told, if_pos rfl, Bool.not_eq_false'] at shown
    have away : redactedUnder key = fun _ => .redacted := by
      funext j
      rw [redactedUnder, told, if_pos rfl]
    rw [away, if_pos rfl]
    cases form : v.normal with
    | ok j => rfl
    | error e =>
      rw [isNormalizable, form] at shown
      cases shown
  | false =>
    rw [told, if_neg Bool.false_ne_true] at shown
    have kept : redactedUnder key = Json.redact := by
      funext j
      rw [redactedUnder, told, if_neg Bool.false_ne_true]
    rw [kept, if_neg Bool.false_ne_true]
    exact same shown

theorem normalItems_withheld {items : List Value}
    (each : ∀ v ∈ items, v.hidesFault = false → v.withheld.normal.map Json.redact = v.normal.map Json.redact)
    (shown : itemsHideFault items = false) :
    (normalItems (withheldItems items)).map Json.redactItems = (normalItems items).map Json.redactItems := by
  induction items with
  | nil => rfl
  | cons v rest ih =>
    obtain ⟨first, later⟩ := List.forall_mem_cons.mp each
    rw [itemsHideFault, Bool.or_eq_false_iff] at shown
    rw [withheldItems, redacted_normalItems, redacted_normalItems, first shown.1, ih later shown.2]

theorem normalEntries_withheld {entries : List (Value × Value)}
    (each : ∀ entry ∈ entries, entry.2.hidesFault = false →
      entry.2.withheld.normal.map Json.redact = entry.2.normal.map Json.redact)
    (shown : entriesHideFault entries = false) :
    (normalEntries (withheldEntries entries)).map Json.redactMembers =
      (normalEntries entries).map Json.redactMembers := by
  induction entries with
  | nil => rfl
  | cons entry rest ih =>
    obtain ⟨k, v⟩ := entry
    obtain ⟨first, later⟩ := List.forall_mem_cons.mp each
    rw [entriesHideFault, Bool.or_eq_false_iff] at shown
    rw [withheldEntries, redacted_normalEntries, redacted_normalEntries, ih later shown.2]
    cases name : k.plain with
    | error e => rfl
    | ok key =>
      have told : tellsSecret k = isSensitiveKey key := by rw [tellsSecret, name]
      rw [told] at shown ⊢
      show (Except.map (redactedUnder key) _).bind _ = _
      rw [redactedUnder_withheld first shown.1]
      rfl

/-- The redacted normal form of a value does not depend on what stands under its secret keys, as long as all of that
has a normal form. -/
theorem normal_withheld {v : Value} (shown : v.hidesFault = false) :
    v.withheld.normal.map Json.redact = v.normal.map Json.redact := by
  induction v using Value.induction with
  | leaf v isLeaf => cases v <;> first | rfl | cases isLeaf
  | list items each | tuple items each =>
    have arranged (x : Except NumberFault (List Json)) :
        (x.map Json.arr).map Json.redact = (x.map Json.redactItems).map Json.arr := by cases x <;> rfl
    rw [withheld, normal, normal, arranged, arranged, normalItems_withheld each shown]
  | map entries each =>
    have arranged (x : Except NumberFault (Dict Json)) :
        (x.map fun members => Json.obj (Dict.ofList members)).map Json.redact =
          (x.map Json.redactMembers).map fun members => Json.obj (Dict.ofList members) := by
      cases x with
      | error e => rfl
      | ok members => exact congrArg Except.ok (redact_ofList members)
    rw [withheld, normal, normal, arranged, arranged, normalEntries_withheld each shown]

theorem normalItems_faulty {items : List Value} (each : ∀ v ∈ items, v.hidesFault = true → ∃ e, v.normal = .error e)
    (hidden : itemsHideFault items = true) : ∃ e, normalItems items = .error e := by
  induction items with
  | nil => cases hidden
  | cons v rest ih =>
    obtain ⟨first, later⟩ := List.forall_mem_cons.mp each
    rw [itemsHideFault, Bool.or_eq_true] at hidden
    rw [normalItems]
    cases value : v.normal with
    | error e => exact ⟨e, rfl⟩
    | ok j =>
      rcases hidden with inside | behind
      · obtain ⟨e, failed⟩ := first inside
        rw [value] at failed
        cases failed
      · obtain ⟨e, failed⟩ := ih later behind
        exact ⟨e, by rw [failed]; rfl⟩

theorem normalEntries_faulty {entries : List (Value × Value)}
    (each : ∀ entry ∈ entries, entry.2.hidesFault = true → ∃ e, entry.2.normal = .error e)
    (hidden : entriesHideFault entries = true) : ∃ e, normalEntries entries = .error e := by
  induction entries with
  | nil => cases hidden
  | cons entry rest ih =>
    obtain ⟨k, v⟩ := entry
    obtain ⟨first, later⟩ := List.forall_mem_cons.mp each
    rw [entriesHideFault, Bool.or_eq_true] at hidden
    rw [normalEntries]
    cases k.plain with
    | error e => exact ⟨e, rfl⟩
    | ok key =>
      cases value : v.normal with
      | error e => exact ⟨e, rfl⟩
      | ok j =>
        rcases hidden with here | behind
        · split at here
          · rw [isNormalizable, value] at here
            cases here
          · obtain ⟨e, failed⟩ := first here
            rw [value] at failed
            cases failed
        · obtain ⟨e, failed⟩ := ih later behind
          exact ⟨e, by rw [failed]; rfl⟩

/-- A value that hides a fault has no normal form itself. -/
theorem normal_faulty {v : Value} (hidden : v.hidesFault = true) : ∃ e, v.normal = .error e := by
  induction v using Value.induction with
  | leaf v isLeaf => cases v <;> first | cases hidden | cases isLeaf
  | list items each | tuple items each =>
    obtain ⟨e, failed⟩ := normalItems_faulty each hidden
    exact ⟨e, by rw [normal, failed]; rfl⟩
  | map entries each =>
    obtain ⟨e, failed⟩ := normalEntries_faulty each hidden
    exact ⟨e, by rw [normal, failed]; rfl⟩

end Secrets

end Value

namespace Log

open Value (isNormalizable redactedUnder redactedUnder_withheld redact_ofList normal_withheld normal_faulty)

section Fields

def withheldFields (extra : Dict Value) : Dict Value :=
  extra.map fun field => (field.1, if isSensitiveKey field.1 then .none else field.2.withheld)

/-- Is there a field to be written that hides a fault, or that has no normal form and a secret name? -/
def fieldsHideFault (extra : Dict Value) : Bool :=
  extra.any fun field =>
    isWritten field.1 && (if isSensitiveKey field.1 then !field.2.isNormalizable else field.2.hidesFault)

theorem redacted_extraFields (field : String × Value) (rest : Dict Value) :
    (Record.extraFields (field :: rest)).map Json.redactMembers =
      if isWritten field.1 then
        (field.2.normal.map (redactedUnder field.1)).bind fun value =>
          ((Record.extraFields rest).map Json.redactMembers).map ((field.1, value) :: ·)
      else (Record.extraFields rest).map Json.redactMembers := by
  obtain ⟨name, v⟩ := field
  rw [Record.extraFields]
  split
  · cases v.normal with
    | error e => rfl
    | ok j => cases Record.extraFields rest <;> rfl
  · rfl

theorem extraFields_withheld {extra : Dict Value} (shown : fieldsHideFault extra = false) :
    (Record.extraFields (withheldFields extra)).map Json.redactMembers =
      (Record.extraFields extra).map Json.redactMembers := by
  induction extra with
  | nil => rfl
  | cons field rest ih =>
    rw [fieldsHideFault, List.any_cons, Bool.or_eq_false_iff, Bool.and_eq_false_imp] at shown
    rw [withheldFields, List.map_cons, redacted_extraFields, redacted_extraFields]
    dsimp only
    by_cases written : isWritten field.1 = true
    · rw [if_pos written, if_pos written, redactedUnder_withheld normal_withheld (shown.1 written)]
      exact congrArg _ (funext fun value => congrArg _ (ih shown.2))
    · rw [if_neg written, if_neg written]
      exact ih shown.2

theorem extraFields_faulty {extra : Dict Value} (hidden : fieldsHideFault extra = true) :
    ∃ e, Record.extraFields extra = .error e := by
  induction extra with
  | nil => cases hidden
  | cons field rest ih =>
    obtain ⟨name, v⟩ := field
    rw [fieldsHideFault, List.any_cons, Bool.or_eq_true, Bool.and_eq_true] at hidden
    rw [Record.extraFields]
    rcases hidden with ⟨written, here⟩ | behind
    · rw [if_pos written]
      cases value : v.normal with
      | error e => exact ⟨e, rfl⟩
      | ok j =>
        split at here
        · rw [isNormalizable, value] at here
          cases here
        · obtain ⟨e, failed⟩ := normal_faulty here
          rw [value] at failed
          cases failed
    · obtain ⟨e, failed⟩ := ih behind
      split
      · cases v.normal with
        | error e => exact ⟨e, rfl⟩
        | ok j => exact ⟨e, by rw [failed]; rfl⟩
      · exact ⟨e, failed⟩

theorem each_of_extraFields {extra : Dict Value} {fields : Dict Json} (h : Record.extraFields extra = .ok fields) :
    ∀ m ∈ fields, (Value.ofJson m.2).normal = .ok m.2 := by
  induction extra generalizing fields with
  | nil =>
    cases h
    exact fun _ mem => absurd mem List.not_mem_nil
  | cons field rest ih =>
    obtain ⟨name, v⟩ := field
    rw [Record.extraFields] at h
    split at h
    · cases value : v.normal with
      | error e => rw [value] at h; cases h
      | ok j =>
        rw [value] at h
        obtain ⟨more, read, same⟩ := map_ok h
        rw [← same]
        exact List.forall_mem_cons.mpr ⟨Value.normal_ofJson value, ih read⟩
    · exact ih h

end Fields

namespace Record

/-- The record with nothing left under its secret names and keys. -/
def withheld (r : Record) : Record :=
  { r with extra := withheldFields r.extra }

def hidesFault (r : Record) : Bool :=
  fieldsHideFault r.extra

/-- What a record is written as depends on its fields as they are redacted. -/
theorem event_eq (r : Record) : r.event Json.redact =
    ((Timestamp.text r.created).mapError Fault.time).bind fun stamp => r.text.bind fun text =>
      (((extraFields r.extra).map Json.redactMembers).mapError Fault.number).map fun shown =>
        .obj
          ([("timestamp", .str stamp), ("level", .str r.levelName), ("logger", .str r.logger), ("message", .str text)] ++
           (if shown.isEmpty then [] else [("fields", .obj (Dict.ofList shown))]) ++
           (r.failureShown.map fun failure => ("exception", Json.str failure)).toList) := by
  have passed {ε α : Type} (f : ε → Fault) (a : α) : (Except.ok a : Except ε α).mapError f = .ok a := rfl
  unfold event
  cases Timestamp.text r.created with
  | error fault => rfl
  | ok stamp =>
    cases r.text with
    | error fault => rfl
    | ok text =>
      cases read : extraFields r.extra with
      | error fault => rfl
      | ok fields =>
        have together := Value.normal_ofJson_obj (each_of_extraFields read)
        have shown : (Json.redactMembers fields).isEmpty = fields.isEmpty := by
          rw [Json.redactMembers_eq, List.isEmpty_map]
        simp only [bind, Except.bind, passed, together, redact_ofList, Except.map, shown]
        rfl

/-- The line of a record does not depend on what stands under its secret names and keys, as long as all of that has a
normal form. -/
theorem format_withheld {r : Record} (shown : r.hidesFault = false) :
    r.withheld.format Json.redact = r.format Json.redact := by
  rw [format, format, event_eq, event_eq, withheld, extraFields_withheld shown]
  rfl

/-- A record that hides a fault has no line. -/
theorem format_faulty {r : Record} (hidden : r.hidesFault = true) : ∃ e, r.format Json.redact = .error e := by
  obtain ⟨e, failed⟩ := extraFields_faulty hidden
  rw [format, event_eq, failed]
  cases Timestamp.text r.created with
  | error fault => exact ⟨_, rfl⟩
  | ok stamp =>
    cases r.text with
    | error fault => exact ⟨_, rfl⟩
    | ok text => exact ⟨_, rfl⟩

/-- Two records that differ only in what stands under their secret names and keys: whenever both have a line it is the
same one. If all that stands there has a normal form, they end alike in any case, and a record where something there has
none has no line. -/
theorem format_alike {r r' : Record} (same : r.withheld = r'.withheld) :
    (∀ line line', r.format Json.redact = .ok line → r'.format Json.redact = .ok line' → line = line') ∧
      (r.hidesFault = false → r'.hidesFault = false → r.format Json.redact = r'.format Json.redact) ∧
      (r.hidesFault = true → ∃ e, r.format Json.redact = .error e) := by
  have alike (shown : r.hidesFault = false) (shown' : r'.hidesFault = false) :
      r.format Json.redact = r'.format Json.redact := by
    rw [← format_withheld shown, ← format_withheld shown', same]
  have plain {q : Record} {line : String} (h : q.format Json.redact = .ok line) : q.hidesFault = false := by
    cases hidden : q.hidesFault with
    | false => rfl
    | true =>
      obtain ⟨e, failed⟩ := format_faulty hidden
      rw [failed] at h
      cases h
  refine ⟨fun line line' h h' => ?_, alike, format_faulty⟩
  have ended := alike (plain h) (plain h')
  rw [h, h'] at ended
  exact Except.ok.inj ended

/-- A record with a password beside a map that has another one inside a tuple. -/
def sample (password : Value) : Record where
  logger := "app"
  level := 20
  message := .text "connected"
  extra := [("client_secret", password), ("db", .map [(.text "host", .text "db"), (.path "pass", password),
    (.int 1, .tuple [.map [(.bytes [0x61], .none), (.tuple [.text "API_TOKEN"], password)]])])]

theorem format_alike_sample :
    let r := sample (.text "hunter2")
    let r' := sample (.map [(.float .nan, .list [.int 7])])
    r.withheld = r'.withheld ∧ r.format Json.redact = r'.format Json.redact ∧
      (r.format Json.redact).toOption.isSome = true := by
  intro r r'
  have same : r.withheld = r'.withheld := rfl
  exact ⟨same, (format_alike same).2.1 (by decide +kernel) (by decide +kernel), by decide +kernel⟩

/-- A key of more than 4300 digits has no text, so a map with such a key has no normal form, under a secret name too:
one password has a line, and another one has none. -/
theorem format_of_huge_key :
    let r := sample (.text "hunter2")
    let r' := sample (.map [(.int (Nat.pow 10 4300), .none)])
    r.withheld = r'.withheld ∧ (∃ line, r.format Json.redact = .ok line) ∧ ∃ e, r'.format Json.redact = .error e := by
  intro r r'
  have written : (r.format Json.redact).toOption.isSome = true := by decide +kernel
  refine ⟨rfl, ?_, format_faulty (by decide +kernel)⟩
  cases result : r.format Json.redact with
  | ok line => exact ⟨line, rfl⟩
  | error e =>
    rw [result] at written
    cases written

end Record

end Log

end ServerSettings
