import ServerSettings.Proofs.Log.Calendar
import ServerSettings.Proofs.Log.Conservation

/-!
# By way of the queue

A record that waits in the queue is a copy, prepared attribute by attribute. Its message is a text that nothing is filled
into any more, and its failure is text too. The line that comes of it is that of the record itself, which stays as it
was.

* `Record.format_of_prepare`: a prepared record has the line of the record;
* `prepareCopy_eq`: what preparing a copy leaves in memory;
* `Record.line_agrees`: both ways compared, the failures included.
-/

namespace ServerSettings.Log

/-- Records by their addresses; those from `next` on are free. -/
structure Memory where
  next : Nat
  record : Nat → Record

namespace Memory

def set (m : Memory) (address : Nat) (r : Record) : Memory :=
  { m with record := fun other => if other = address then r else m.record other }

/-- The memory with a record at the first free address. -/
def put (m : Memory) (r : Record) : Memory :=
  { m.set m.next r with next := m.next + 1 }

def copy (source : Nat) : StateM Memory Nat := fun m =>
  (m.next, m.put (m.record source))

def assign (address : Nat) (change : Record → Record) : StateM Memory Unit := fun m =>
  ((), m.set address (change (m.record address)))

variable (m : Memory) (r : Record)

theorem record_put_of_lt {address : Nat} (used : address < m.next) : (m.put r).record address = m.record address :=
  if_neg (Nat.ne_of_lt used)

theorem record_put_next : (m.put r).record m.next = r :=
  if_pos rfl

theorem assign_put (change : Record → Record) : assign m.next change (m.put r) = ((), m.put (change r)) := by
  have same : (m.put r).set m.next (change r) = m.put (change r) := by
    simp only [put, set, Memory.mk.injEq, true_and]
    funext other
    split <;> rfl
  rw [assign, record_put_next, same]

end Memory

/-- Prepares a copy of a record. What is needed is read from the record itself. -/
def prepareCopy (source : Nat) : StateM Memory (Except Fault Nat) := do
  let copy ← Memory.copy source
  match ((← get).record source).text with
  | .error fault => return .error fault
  | .ok text =>
    Memory.assign copy fun r => { r with message := .text text }
    Memory.assign copy fun r => { r with arguments := .row [] }
    let failed := (← get).record source
    if failed.failure.isSome ∧ failed.failureText = "" then
      Memory.assign copy fun r => { r with failureText := failed.failure.getD "" }
    Memory.assign copy fun r => { r with failure := none }
    return .ok copy

theorem Record.prepare_eq (r : Record) : r.prepare = r.text.map fun text =>
    { r with
      message := .text text
      arguments := .row []
      failure := none
      failureText := if r.failureText = "" then r.failure.getD "" else r.failureText } := by
  rw [prepare]
  cases r.text <;> rfl

/-- The copy is at the first free address. It is what preparing the record gives, or as it was if the message cannot be
filled in. -/
theorem prepareCopy_eq {m : Memory} {source : Nat} (used : source < m.next) : prepareCopy source m =
    match (m.record source).prepare with
    | .ok ready => (.ok m.next, m.put ready)
    | .error fault => (.error fault, m.put (m.record source)) := by
  have there (r : Record) := m.record_put_of_lt r used
  rw [Record.prepare_eq]
  generalize original : m.record source = r at there
  have copied : Memory.copy source m = (m.next, m.put r) := by rw [Memory.copy, original]
  have got (n : Memory) : (get : StateM Memory Memory) n = (n, n) := rfl
  unfold prepareCopy
  cases filled : r.text with
  | error fault =>
    simp only [bind, StateT.bind, copied, got, there, filled]
    rfl
  | ok text =>
    simp only [bind, StateT.bind, copied, got, there, filled, Memory.assign_put, Except.map]
    split
    · next failed =>
      simp only [bind, StateT.bind, Memory.assign_put]
      rw [if_pos failed.2]
      rfl
    · next unfailed =>
      have kept : (if r.failureText = "" then r.failure.getD "" else r.failureText) = r.failureText := by
        split
        · next empty =>
          have none_there : r.failure = none := by simpa [empty] using unfailed
          rw [none_there, empty]
          rfl
        · rfl
      simp only [bind, StateT.bind, Memory.assign_put]
      rw [kept]
      rfl

namespace Record

variable {r ready : Record}

theorem text_of_prepare (prepared : r.prepare = .ok ready) : ready.text = r.text := by
  rw [prepare_eq] at prepared
  obtain ⟨text, filled, rfl⟩ := map_ok prepared
  rw [filled]
  rfl

theorem prepare_error {fault : Fault} : r.prepare = .error fault ↔ r.text = .error fault := by
  rw [prepare_eq]
  cases r.text with
  | error fault' => exact ⟨fun h => by cases h; rfl, fun h => by cases h; rfl⟩
  | ok text => exact ⟨fun h => (by cases h), fun h => (by cases h)⟩

/-- What is prepared is not changed by preparing it. -/
theorem prepare_prepare (prepared : r.prepare = .ok ready) : ready.prepare = .ok ready := by
  have filled := text_of_prepare prepared
  rw [prepare_eq] at prepared
  obtain ⟨text, original, rfl⟩ := map_ok prepared
  rw [prepare_eq, filled, original]
  simp only [Except.map, Option.getD_none, Except.ok.injEq, Record.mk.injEq, true_and]
  generalize (if r.failureText = "" then r.failure.getD "" else r.failureText) = failureText
  split
  · next empty => exact empty.symm
  · rfl

/-- The failure is shown as it was, unless there was one beside an older text, or one without a text. -/
theorem failureShown_of_prepare (alone : r.failure.isSome = true → r.failureText = "") (told : r.failure ≠ some "")
    (prepared : r.prepare = .ok ready) : ready.failureShown = r.failureShown := by
  rw [prepare_eq] at prepared
  obtain ⟨text, _, rfl⟩ := map_ok prepared
  rw [failureShown, failureShown]
  cases failure : r.failure with
  | none =>
    simp only [Option.getD_none, Option.none_or]
    split <;> simp_all
  | some shown =>
    rw [failure] at alone told
    have given : shown ≠ "" := fun empty => told (by rw [empty])
    simp [alone rfl, given]

/-- A prepared record has the line of the record, or fails like it. -/
theorem format_of_prepare (redact : Redactor) (alone : r.failure.isSome = true → r.failureText = "")
    (told : r.failure ≠ some "") (prepared : r.prepare = .ok ready) : ready.format redact = r.format redact := by
  have text := text_of_prepare prepared
  have failure := failureShown_of_prepare alone told prepared
  rw [prepare_eq] at prepared
  obtain ⟨_, _, rfl⟩ := map_ok prepared
  rw [format, format, event, event, text, failure]

theorem line_of_text_error {fault : Fault} (redact : Redactor) (unfilled : r.text = .error fault) :
    r.line redact = .error fault := by
  rw [line, prepare_error.mpr unfilled]
  rfl

theorem format_of_text_error {fault : Fault} (redact : Redactor) (date : Timestamp.HasDate r.created)
    (unfilled : r.text = .error fault) : r.format redact = .error fault := by
  obtain ⟨stamp, dated⟩ := (Timestamp.text_ok_iff r.created).mpr date
  rw [format, event, dated, unfilled]
  rfl

/-- An attribute under a name that is not written makes no difference. -/
theorem extraFields_put {name : String} (own : isWritten name = false) (v : Value) (extra : Dict Value) :
    extraFields (Dict.put extra name v) = extraFields extra := by
  have hidden : isWritten name ≠ true := by rw [own]; decide
  induction extra with
  | nil => exact if_neg hidden
  | cons field rest ih =>
    rw [Dict.put]
    split
    · next same =>
      rw [← same] at hidden
      exact (if_neg hidden).trans (if_neg hidden).symm
    · simp only [extraFields, ih]

/-- A record that does not carry a failure beside an older text of one, and whose failure has a text. By way of the queue
it has the same line, or fails alike, if its time has a date or its message can be filled in. If neither is so, the queue
fails for the message and the direct way for the time. Preparing it again changes nothing, and it makes no difference
that the message is kept under a name of its own too. Preparing a copy of it leaves everything in memory as it was. -/
theorem line_agrees (redact : Redactor) (alone : r.failure.isSome = true → r.failureText = "")
    (told : r.failure ≠ some "") :
    (Timestamp.HasDate r.created ∨ (∃ text, r.text = .ok text) → r.line redact = r.format redact) ∧
    (∀ fault, r.text = .error fault → r.line redact = .error fault ∧
      (¬Timestamp.HasDate r.created → ∃ undated, r.format redact = .error (.time undated))) ∧
    (∀ ready, r.prepare = .ok ready → ready.prepare = .ok ready ∧
      ∀ v, Record.format redact { ready with extra := Dict.put ready.extra "message" v } = ready.format redact) ∧
    (∀ (m : Memory) source made m', source < m.next → m.record source = r → prepareCopy source m = (made, m') →
      made.map m'.record = r.prepare ∧ ∀ address < m.next, m'.record address = m.record address) := by
  refine ⟨fun ready => ?_, fun fault unfilled => ?_, fun ready prepared => ?_, ?_⟩
  · cases filled : r.text with
    | error fault =>
      have date := ready.resolve_right fun ⟨_, given⟩ => by rw [filled] at given; cases given
      rw [line_of_text_error redact filled, format_of_text_error redact date filled]
    | ok text =>
      cases prepared : r.prepare with
      | error fault => rw [prepare_error, filled] at prepared; cases prepared
      | ok copy =>
        rw [line, prepared]
        exact format_of_prepare redact alone told prepared
  · exact ⟨line_of_text_error redact unfilled, format_of_undated redact⟩
  · refine ⟨prepare_prepare prepared, fun v => ?_⟩
    rw [format, format, event, event, extraFields_put (by decide)]
    rfl
  · rintro m source made m' used rfl run
    rw [prepareCopy_eq used] at run
    cases prepared : (m.record source).prepare with
    | error fault =>
      rw [prepared] at run
      cases run
      exact ⟨rfl, fun address old => m.record_put_of_lt _ old⟩
    | ok copy =>
      rw [prepared] at run
      cases run
      exact ⟨congrArg Except.ok (m.record_put_next copy), fun address old => m.record_put_of_lt copy old⟩

/-- A message with a mark in its argument, which is not filled in again, and a failure. -/
def markedRecord : Record where
  logger := "app"
  level := 40
  message := .path "100%% of %s"
  arguments := .row [.text "50%d"]
  extra := [("size", .float .nan)]
  failure := some "ValueError: x"

theorem line_agrees_marked : markedRecord.failure = some "ValueError: x" ∧ markedRecord.failureText = "" ∧
    markedRecord.text = .ok "100% of 50%d" ∧ markedRecord.line Json.redact = markedRecord.format Json.redact := by
  have filled : markedRecord.text = .ok "100% of 50%d" := by rfl
  exact ⟨rfl, rfl, filled, (line_agrees Json.redact (fun _ => rfl) (by decide)).1 (.inr ⟨_, filled⟩)⟩

/-- A record of the year 10000 with an argument of the wrong type fails in two ways. -/
theorem line_disagrees :
    let r : Record :=
      { logger := "app", level := 20, created := .ofInt 253402300800, message := .text "%d", arguments := .row [.text "x"] }
    r.failure = none ∧ r.failureText = "" ∧ r.line Json.redact = .error (.template (.realRequired 'd' "str")) ∧
      r.format Json.redact = .error (.time (.year 10000)) := by
  intro r
  have dated : Timestamp.text r.created = .error (.year 10000) := by decide +kernel
  have unfilled : r.text = .error (.template (.realRequired 'd' "str")) := by rfl
  refine ⟨rfl, rfl, line_of_text_error Json.redact unfilled, ?_⟩
  rw [format, event, dated]
  rfl

end Record

end ServerSettings.Log
