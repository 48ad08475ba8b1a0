import ServerSettings.Log.Traffic
import ServerSettings.Proofs.Loading

/-!
# The wiring of handles and loggers

What is live is the active handle, its queue is attached to its logger, and nothing else is.

* `Handle.Turn`: what can happen to a handle, with the record that is offered to it;
* `Sound`: the wiring;
* `Sound.retire`, `Sound.shutdown`, `Sound.install`, `Sound.log`: ending and setting up handles and logging keep it so;
* `Sound.count_reached`: however a record comes to the queue of a handle, it gets there once.
-/

namespace ServerSettings.Log

/-- What an event can do to a handle, and the record that it offers to it. -/
inductive Handle.Turn (h : Handle) : Option Record → Handle → Prop where
  | still : h.Turn none h
  | offer {r : Record} (live : h.isShutdown = false) (heard : h.level ≤ r.level) : h.Turn (some r) (h.offer r)
  | step : h.Turn none h.step
  | shutdown : h.Turn none h.shutdown

/-- A plan that can be carried out: there is room for records, and the sinks are those that it asks for, the file first
if there is one. -/
structure Plan.IsReady (plan : Plan) (sinks : List Sink) : Prop where
  room : 0 < plan.queueSize
  sinks : ∃ files, files.length = plan.file.toList.length ∧ sinks = files ++ plan.stream.toList

/-- A handle was set up with what a plan says. -/
structure Handle.Follows (h : Handle) (plan : Plan) : Prop where
  logger : h.logger = plan.logger
  capacity : (h.capacity : Int) = plan.queueSize
  redact : h.redact = plan.redact
  ready : plan.IsReady h.sinks

/-- A handle as it is set up; nothing was offered to it yet. -/
structure Handle.IsNew (h : Handle) (plan : Plan) : Prop where
  follows : h.Follows plan
  live : h.isShutdown = false
  queue : h.queue = []
  dropped : h.dropped = 0
  outputs : ∀ o ∈ h.outputs, o.level = h.level ∧ o.lines = []

/-- What a handle was set up with stays. -/
structure Handle.Keeps (h h' : Handle) : Prop where
  logger : h'.logger = h.logger
  level : h'.level = h.level
  capacity : h'.capacity = h.capacity
  redact : h'.redact = h.redact
  sinks : h'.sinks = h.sinks

namespace Handle

theorem offer_keeps (h : Handle) (r : Record) : h.Keeps (h.offer r) ∧ (h.offer r).isShutdown = h.isShutdown := by
  unfold offer enqueue
  repeat' split
  all_goals exact ⟨⟨rfl, rfl, rfl, rfl, rfl⟩, rfl⟩

theorem sink_take (redact : Redactor) (r : Record) (o : Output) : (o.take redact r).sink = o.sink := by
  unfold Output.take
  repeat' split
  all_goals rfl

theorem emit_sinks (h : Handle) (r : Record) : (h.emit r).sinks = h.sinks := by
  simp only [sinks, emit, List.map_map, Function.comp_def, sink_take]

theorem step_keeps (h : Handle) : h.Keeps h.step ∧ h.step.isShutdown = h.isShutdown := by
  unfold step
  split
  · exact ⟨⟨rfl, rfl, rfl, rfl, rfl⟩, rfl⟩
  · exact ⟨⟨rfl, rfl, rfl, rfl, emit_sinks ..⟩, rfl⟩

theorem step_of_queue_nil {h : Handle} (empty : h.queue = []) : h.step = h := by
  rw [step, empty]

/-- Writing changes nothing but what sinks were given. -/
theorem foldl_emit (h : Handle) (records : List Record) : records.foldl emit h =
    { h with outputs := records.foldl (fun outputs r => outputs.map (·.take h.redact r)) h.outputs } := by
  induction records generalizing h with
  | nil => rfl
  | cons r records ih => rw [List.foldl_cons, ih]; rfl

theorem foldl_emit_sinks (h : Handle) (records : List Record) : (records.foldl emit h).sinks = h.sinks := by
  induction records generalizing h with
  | nil => rfl
  | cons r records ih => rw [List.foldl_cons, ih, emit_sinks]

theorem shutdown_of_ended {h : Handle} (ended : h.isShutdown = true) : h.shutdown = h :=
  if_pos ended

theorem shutdown_of_live {h : Handle} (live : h.isShutdown = false) : h.shutdown = { h.drain with isShutdown := true } := by
  rw [shutdown, live, if_neg Bool.false_ne_true]

theorem shutdown_keeps (h : Handle) : h.Keeps h.shutdown ∧ h.shutdown.isShutdown = true := by
  cases before : h.isShutdown with
  | true =>
    rw [shutdown_of_ended before]
    exact ⟨⟨rfl, rfl, rfl, rfl, rfl⟩, before⟩
  | false =>
    have sinks : h.drain.sinks = h.sinks := foldl_emit_sinks h h.queue
    rw [shutdown_of_live before]
    rw [drain, foldl_emit] at sinks ⊢
    exact ⟨⟨rfl, rfl, rfl, rfl, sinks⟩, rfl⟩

theorem Keeps.trans {h₁ h₂ h₃ : Handle} (first : h₁.Keeps h₂) (later : h₂.Keeps h₃) : h₁.Keeps h₃ where
  logger := later.logger.trans first.logger
  level := later.level.trans first.level
  capacity := later.capacity.trans first.capacity
  redact := later.redact.trans first.redact
  sinks := later.sinks.trans first.sinks

theorem Follows.of_keeps {h h' : Handle} {plan : Plan} (follows : h.Follows plan) (keeps : h.Keeps h') :
    h'.Follows plan where
  logger := keeps.logger.trans follows.logger
  capacity := by rw [keeps.capacity, follows.capacity]
  redact := keeps.redact.trans follows.redact
  ready := by rw [keeps.sinks]; exact follows.ready

variable {h h' : Handle} {offered : Option Record}

theorem Turn.keeps (turn : h.Turn offered h') : h.Keeps h' := by
  cases turn with
  | still => exact ⟨rfl, rfl, rfl, rfl, rfl⟩
  | offer => exact (offer_keeps h _).1
  | step => exact (step_keeps h).1
  | shutdown => exact (shutdown_keeps h).1

/-- Nothing more happens to a handle that was ended. -/
theorem Turn.of_ended (turn : h.Turn offered h') (ended : h.isShutdown = true) (empty : h.queue = []) : h' = h := by
  cases turn with
  | still => rfl
  | offer live => exact absurd ended (by rw [live]; exact Bool.false_ne_true)
  | step => exact step_of_queue_nil empty
  | shutdown => exact shutdown_of_ended ended

/-- Once it has been ended, nothing waits in its queue. -/
theorem Turn.queue_nil (turn : h.Turn offered h') (empty : h.isShutdown = true → h.queue = [])
    (ended : h'.isShutdown = true) : h'.queue = [] := by
  cases before : h.isShutdown with
  | true =>
    rw [turn.of_ended before (empty before)]
    exact empty before
  | false =>
    cases turn with
    | still => rw [before] at ended; cases ended
    | offer => rw [(offer_keeps h _).2, before] at ended; cases ended
    | step => rw [(step_keeps h).2, before] at ended; cases ended
    | shutdown => rw [shutdown_of_live before]; rfl

end Handle

namespace Registry

section Lookups

variable (g : Registry)

theorem logger_withLogger (name other : String) (l : Logger) : (g.withLogger name l).logger other =
    if canonicalName other = canonicalName name then l else g.logger other := by
  unfold withLogger logger
  split
  · next same => rw [same, Dict.lookup_put_self]; rfl
  · next differ => rw [Dict.lookup_put_of_ne _ _ differ]

theorem logger_meet (name other : String) : (g.meet name).logger other = g.logger other := by
  unfold meet
  split
  · rfl
  · next unknown =>
    rw [logger_withLogger]
    split
    · next same => rw [logger, same, unknown]; rfl
    · rfl

theorem meet_eq (name : String) : (g.meet name).handles = g.handles ∧ (g.meet name).active = g.active := by
  unfold meet
  split <;> exact ⟨rfl, rfl⟩

theorem handle_changeHandle (i j : Nat) (f : Handle → Handle) :
    (g.changeHandle j f).handles[i]? = if i = j then (g.handles[i]?).map f else g.handles[i]? := by
  rw [changeHandle]
  cases found : g.handles[j]? with
  | none =>
    by_cases same : i = j
    · rw [if_pos same, same, found]; rfl
    · rw [if_neg same]
  | some h =>
    show (g.handles.set j (f h))[i]? = _
    split
    · next same =>
      rw [same, found, List.getElem?_set_self (List.getElem?_eq_some_iff.mp found).1]
      rfl
    · next differ => rw [List.getElem?_set_ne (Ne.symm differ)]

theorem changeHandle_eq (i : Nat) (f : Handle → Handle) :
    (g.changeHandle i f).active = g.active ∧ ∀ name, (g.changeHandle i f).logger name = g.logger name := by
  unfold changeHandle
  split <;> exact ⟨rfl, fun _ => rfl⟩

end Lookups

section Wiring

def IsLive (g : Registry) (i : Nat) : Prop :=
  ∃ h, g.handles[i]? = some h ∧ h.isShutdown = false

/-- The queue of a handle is attached to a logger. -/
def IsAttached (g : Registry) (i : Nat) (name : String) : Prop :=
  .queueOf i ∈ (g.logger name).attachments

/-- The wiring of handles and loggers. -/
structure Sound (g : Registry) : Prop where
  live : ∀ i, g.IsLive i ↔ g.active = some i
  attached : ∀ i name, g.IsAttached i name →
    ∃ h, g.handles[i]? = some h ∧ h.isShutdown = false ∧ canonicalName h.logger = canonicalName name
  alone : ∀ (i : Nat) (h : Handle), g.handles[i]? = some h → h.isShutdown = false →
    (g.logger h.logger).attachments = [.queueOf i] ∧ (g.logger h.logger).propagates = false
  ended : ∀ (i : Nat) (h : Handle), g.handles[i]? = some h → h.isShutdown = true → h.queue = []

/-- Nothing was set up yet; what ignores every record may be attached to loggers. -/
structure IsFresh (g : Registry) : Prop where
  handles : g.handles = []
  active : g.active = none
  attached : ∀ i name, ¬ g.IsAttached i name

theorem IsFresh.sound {g : Registry} (fresh : g.IsFresh) : g.Sound where
  live i := by
    rw [IsLive, fresh.handles, fresh.active]
    simp
  attached i name mem := absurd mem (fresh.attached i name)
  alone i h found := by rw [fresh.handles] at found; cases found
  ended i h found := by rw [fresh.handles] at found; cases found

variable {g : Registry}

/-- Two names of a logger are the same logger. -/
theorem logger_congr {name other : String} (same : canonicalName name = canonicalName other) :
    g.logger name = g.logger other := by
  rw [logger, logger, same]

/-- What is attached to a logger is attached to it alone, and records go no further. -/
theorem Sound.of_attached (sound : g.Sound) {i : Nat} {name : String} (mem : g.IsAttached i name) :
    g.IsLive i ∧ (g.logger name).attachments = [.queueOf i] ∧ (g.logger name).propagates = false := by
  obtain ⟨h, found, live, place⟩ := sound.attached i name mem
  have alone := sound.alone i h found live
  rw [logger_congr place] at alone
  exact ⟨⟨h, found, live⟩, alone⟩

theorem Sound.not_live_of_inactive (sound : g.Sound) (inactive : g.active = none) (i : Nat) : ¬ g.IsLive i := by
  rw [sound.live, inactive]
  exact (nomatch ·)

/-- The wiring stays sound if loggers are as they were, and handles are where they were and as live. -/
theorem Sound.of_turns {g' : Registry} (sound : g.Sound) (active : g'.active = g.active)
    (loggers : ∀ name, g'.logger name = g.logger name)
    (turned : ∀ (i : Nat) (h : Handle), g.handles[i]? = some h →
      ∃ h' offered, g'.handles[i]? = some h' ∧ h.Turn offered h' ∧ h'.isShutdown = h.isShutdown)
    (none_new : ∀ i : Nat, g.handles[i]? = none → g'.handles[i]? = none) : g'.Sound := by
  have before {i : Nat} {h' : Handle} (found : g'.handles[i]? = some h') :
      ∃ h offered, g.handles[i]? = some h ∧ h.Turn offered h' ∧ h'.isShutdown = h.isShutdown := by
    cases found₀ : g.handles[i]? with
    | none => rw [none_new i found₀] at found; cases found
    | some h =>
      obtain ⟨h'', offered, found'', turn, same⟩ := turned i h found₀
      rw [found] at found''
      cases found''
      exact ⟨h, offered, rfl, turn, same⟩
  refine ⟨fun i => ?_, fun i name mem => ?_, fun i h' found live => ?_, fun i h' found down => ?_⟩
  · rw [active, ← sound.live]
    constructor
    · rintro ⟨h', found, live⟩
      obtain ⟨h, -, found, -, same⟩ := before found
      exact ⟨h, found, same.symm.trans live⟩
    · rintro ⟨h, found, live⟩
      obtain ⟨h', -, found, -, same⟩ := turned i h found
      exact ⟨h', found, same.trans live⟩
  · rw [IsAttached, loggers] at mem
    obtain ⟨h, found, live, place⟩ := sound.attached i name mem
    obtain ⟨h', offered, found, turn, same⟩ := turned i h found
    exact ⟨h', found, same.trans live, by rw [turn.keeps.logger, place]⟩
  · obtain ⟨h, offered, found, turn, same⟩ := before found
    rw [loggers, turn.keeps.logger]
    exact sound.alone i h found (same.symm.trans live)
  · obtain ⟨h, offered, found, turn, -⟩ := before found
    exact turn.queue_nil (sound.ended i h found) down

end Wiring

section Ending

variable {g : Registry}

theorem close_of_not_live {i : Nat} (ended : ¬ g.IsLive i) : g.close i = g := by
  unfold close
  split
  · next h found =>
    cases down : h.isShutdown with
    | true => rfl
    | false => exact absurd ⟨h, found, down⟩ ended
  · rfl

theorem detach_eq (g : Registry) (i : Nat) : (g.detach i).handles = g.handles ∧ (g.detach i).active = g.active := by
  unfold detach
  split <;> exact ⟨rfl, rfl⟩

theorem handle_close (g : Registry) (i j : Nat) : (g.close j).handles[i]? =
    if i = j then (g.handles[i]?).map Handle.shutdown else g.handles[i]? := by
  by_cases live : g.IsLive j
  · obtain ⟨h, found, up⟩ := live
    rw [close, found]
    dsimp only
    rw [up, if_neg Bool.false_ne_true, (detach_eq ..).1, handle_changeHandle]
  · rw [close_of_not_live live]
    split
    · next same =>
      subst same
      cases found : g.handles[i]? with
      | none => rfl
      | some h =>
        have down : h.isShutdown = true := by
          cases down : h.isShutdown with
          | true => rfl
          | false => exact absurd ⟨h, found, down⟩ live
        exact congrArg some (Handle.shutdown_of_ended down).symm
    · rfl

theorem active_close (g : Registry) (i : Nat) : (g.close i).active = g.active := by
  unfold close
  split
  · split
    · rfl
    · rw [(detach_eq ..).2, (changeHandle_eq ..).1]
  · rfl

theorem logger_close {i : Nat} {h : Handle} (found : g.handles[i]? = some h) (up : h.isShutdown = false)
    (name : String) : (g.close i).logger name =
      if canonicalName name = canonicalName h.logger then
        { g.logger h.logger with attachments := (g.logger h.logger).attachments.erase (.queueOf i) }
      else g.logger name := by
  have changed : (g.changeHandle i Handle.shutdown).handles[i]? = some h.shutdown := by
    rw [handle_changeHandle, if_pos rfl, found]
    rfl
  rw [close, found]
  dsimp only
  rw [up, if_neg Bool.false_ne_true, detach, changed]
  dsimp only
  rw [logger_withLogger, h.shutdown_keeps.1.logger, (changeHandle_eq ..).2, (changeHandle_eq ..).2]

/-- Ending the active handle leaves none that is live. -/
theorem Sound.end_active (sound : g.Sound) {i : Nat} (active : g.active = some i) :
    ({ g.close i with active := none } : Registry).Sound := by
  obtain ⟨h, found, up⟩ := (sound.live i).mpr active
  have down {j : Nat} {h' : Handle} (found' : (g.close i).handles[j]? = some h') :
      h'.isShutdown = true ∧ h'.queue = [] := by
    rw [handle_close] at found'
    split at found'
    · next same =>
      rw [same, found] at found'
      cases found'
      exact ⟨h.shutdown_keeps.2, by rw [Handle.shutdown_of_live up]; rfl⟩
    · next differ =>
      cases live : h'.isShutdown with
      | true => exact ⟨rfl, sound.ended j h' found' live⟩
      | false =>
        have other := (sound.live j).mp ⟨h', found', live⟩
        rw [active] at other
        exact absurd (Option.some.inj other).symm differ
  refine ⟨fun j => ⟨?_, nofun⟩, fun j name mem => ?_, fun j h' found' live => ?_, fun j h' found' _ => (down found').2⟩
  · rintro ⟨h', found', live⟩
    rw [(down found').1] at live
    cases live
  · -- Something that is still attached was attached before, to another logger, and so by another live handle.
    have before : g.IsAttached j name ∧ ¬ canonicalName name = canonicalName h.logger := by
      change _ ∈ ((g.close i).logger name).attachments at mem
      rw [logger_close found up] at mem
      split at mem
      · rw [(sound.alone i h found up).1, List.erase_cons_head] at mem
        cases mem
      · next differ => exact ⟨mem, differ⟩
    obtain ⟨h', found', live, place⟩ := sound.attached j name before.1
    have other := (sound.live j).mp ⟨h', found', live⟩
    rw [active] at other
    cases other
    rw [found] at found'
    cases found'
    exact absurd place.symm before.2
  · rw [(down found').1] at live
    cases live

theorem Sound.retire (sound : g.Sound) : g.retire.Sound ∧ g.retire.active = none := by
  unfold Registry.retire
  split
  · next i active => exact ⟨sound.end_active active, rfl⟩
  · next inactive => exact ⟨sound, inactive⟩

theorem Sound.shutdown (sound : g.Sound) (handle : Option Nat) : (g.shutdown handle).Sound := by
  unfold Registry.shutdown
  split
  · exact sound
  · next i _ =>
    dsimp only
    rw [active_close]
    split
    · next active => exact sound.end_active active
    · next other =>
      rw [close_of_not_live (mt (sound.live i).mp other)]
      exact sound

theorem handle_retire (g : Registry) (i : Nat) : g.retire.handles[i]? =
    if g.active = some i then (g.handles[i]?).map Handle.shutdown else g.handles[i]? := by
  unfold Registry.retire
  split
  · next j active =>
    show (g.close j).handles[i]? = _
    rw [handle_close, active]
    simp only [Option.some.injEq, eq_comm]
  · next inactive => rw [inactive, if_neg nofun]

theorem handle_shutdown (g : Registry) (i : Nat) (handle : Option Nat) : (g.shutdown handle).handles[i]? =
    if handle.or g.active = some i then (g.handles[i]?).map Handle.shutdown else g.handles[i]? := by
  unfold Registry.shutdown
  split
  · next none => rw [none, if_neg nofun]
  · next j named =>
    have closed : (if (g.close j).active = some j then { g.close j with active := none } else g.close j).handles =
        (g.close j).handles := by
      split <;> rfl
    dsimp only
    rw [closed, handle_close, named]
    simp only [Option.some.injEq, eq_comm]

end Ending

section SettingUp

open ConfigFile (run_bind)

variable {g : Registry}

/-- The new handle of a setup. -/
theorem install_handle (g : Registry) {plan : Plan} {level : Int} {sinks : List Sink} (ready : plan.IsReady sinks)
    {i : Nat} {h : Handle} (found : (g.install plan level sinks).handles[i]? = some h) :
    g.handles[i]? = some h ∨ i = g.handles.length ∧ h.IsNew plan := by
  change (g.handles ++ [_])[i]? = some h at found
  rcases Nat.lt_trichotomy i g.handles.length with before | rfl | behind
  · rw [List.getElem?_append_left before] at found
    exact .inl found
  · rw [List.getElem?_concat_length] at found
    cases found
    have size : ((plan.queueSize.toNat : Nat) : Int) = plan.queueSize := by
      have room := ready.room
      omega
    have kept : (sinks.map fun sink => ({ sink, level } : Output)).map (·.sink) = sinks := by
      simp only [List.map_map, Function.comp_def, List.map_id']
    refine .inr ⟨rfl, ⟨rfl, size, rfl, by rw [Handle.sinks, kept]; exact ready⟩, rfl, rfl, rfl, fun o mem => ?_⟩
    obtain ⟨sink, -, rfl⟩ := List.mem_map.mp mem
    exact ⟨rfl, rfl⟩
  · rw [List.getElem?_eq_none (by simp only [List.length_append, List.length_singleton]; omega)] at found
    cases found

theorem logger_install (g : Registry) (plan : Plan) (level : Int) (sinks : List Sink) (name : String) :
    (g.install plan level sinks).logger name =
      if canonicalName name = canonicalName plan.logger then
        { level, propagates := false, attachments := [.queueOf g.handles.length] }
      else g.logger name :=
  logger_withLogger g plan.logger name _

/-- Where none is live, a handle can be put in place of whatever is attached to its logger. -/
theorem Sound.install (sound : g.Sound) (inactive : g.active = none) (plan : Plan) (level : Int) (sinks : List Sink)
    (ready : plan.IsReady sinks) : (g.install plan level sinks).Sound := by
  have last : ∃ h, (g.install plan level sinks).handles[g.handles.length]? = some h ∧ h.isShutdown = false ∧
      h.logger = plan.logger :=
    ⟨_, List.getElem?_concat_length, rfl, rfl⟩
  have only {i : Nat} {h : Handle} (found : (g.install plan level sinks).handles[i]? = some h)
      (live : h.isShutdown = false) : i = g.handles.length ∧ h.logger = plan.logger := by
    rcases install_handle g ready found with before | ⟨here, new⟩
    · exact absurd ⟨h, before, live⟩ (sound.not_live_of_inactive inactive i)
    · exact ⟨here, new.follows.logger⟩
  refine ⟨fun i => ⟨?_, ?_⟩, fun i name mem => ?_, fun i h found live => ?_, fun i h found down => ?_⟩
  · rintro ⟨h, found, live⟩
    exact congrArg some (only found live).1.symm
  · intro here
    obtain ⟨h, found, live, -⟩ := last
    cases here
    exact ⟨h, found, live⟩
  · rw [IsAttached, logger_install] at mem
    split at mem
    · next same =>
      obtain ⟨h, found, live, place⟩ := last
      cases List.mem_singleton.mp mem
      exact ⟨h, found, live, by rw [place, same]⟩
    · exact absurd (sound.of_attached mem).1 (sound.not_live_of_inactive inactive i)
  · obtain ⟨rfl, place⟩ := only found live
    rw [place, logger_install, if_pos rfl]
    exact ⟨rfl, rfl⟩
  · rcases install_handle g ready found with before | ⟨-, new⟩
    · exact sound.ended i h before down
    · exact new.queue

theorem length_of_openFile {file : Option String} {k k' : Machine} {files : List Sink}
    (opened : (openFile file : StateM Machine _) k = (.ok files, k')) : files.length = file.toList.length := by
  cases file with
  | none =>
    cases opened
    rfl
  | some file =>
    rcases above : (Host.ensureDirectory (PathName.ofText file).parent : StateM Machine _) k with ⟨e | ⟨⟩, k₁⟩
    · simp only [openFile, run_bind above] at opened
      cases opened
    · rcases added : (Host.appendText (PathName.ofText file) "" : StateM Machine _) k₁ with ⟨e | place, k₂⟩
      · simp only [openFile, run_bind above, run_bind added] at opened
        cases opened
      · simp only [openFile, run_bind above, run_bind added] at opened
        cases opened
        rfl

/-- A setup ends the active handle, and puts a new one in its place if it succeeds. -/
theorem setup_cases (g : Registry) (plan : Plan) (k : Machine) :
    ((g.setup plan : StateM Machine _) k).1.2 = g.retire ∨
      ∃ level sinks, plan.IsReady sinks ∧
        ((g.setup plan : StateM Machine _) k).1.2 = g.retire.install plan level sinks := by
  unfold setup
  cases plan.levelNumber with
  | error e => exact .inl rfl
  | ok level =>
    dsimp only
    split
    · exact .inl rfl
    · next size =>
      rcases opened : (openFile plan.file : StateM Machine _) k with ⟨result, k'⟩
      simp only [bind, StateT.bind, opened]
      cases result with
      | error e => exact .inl rfl
      | ok files =>
        have ready : plan.IsReady (files ++ plan.stream.toList) := ⟨by omega, files, length_of_openFile opened, rfl⟩
        exact .inr ⟨level, _, ready, rfl⟩

end SettingUp

section Logging

variable {g : Registry}

theorem deliver_eq (g : Registry) (r : Record) (targets : List Attachment) :
    (targets.foldl (·.deliver r) g).active = g.active ∧
      ∀ name, (targets.foldl (·.deliver r) g).logger name = g.logger name := by
  induction targets generalizing g with
  | nil => exact ⟨rfl, fun _ => rfl⟩
  | cons target targets ih =>
    rw [List.foldl_cons]
    cases target with
    | idle => exact ih g
    | queueOf i =>
      refine ⟨(ih _).1.trans (changeHandle_eq ..).1, fun name => ((ih _).2 name).trans ?_⟩
      exact (changeHandle_eq ..).2 name

/-- A record is offered to the handles whose queues are among the targets. -/
theorem handle_deliver (g : Registry) (r : Record) {targets : List Attachment} {i : Nat}
    (once : targets.count (.queueOf i) ≤ 1) : (targets.foldl (·.deliver r) g).handles[i]? =
      if .queueOf i ∈ targets then (g.handles[i]?).map (·.offer r) else g.handles[i]? := by
  induction targets generalizing g with
  | nil => rfl
  | cons target targets ih =>
    rw [List.foldl_cons]
    by_cases here : target = .queueOf i
    · -- The queue comes only once, so the other targets leave the handle alone.
      subst here
      rw [List.count_cons_self] at once
      have gone : Attachment.queueOf i ∉ targets := List.count_eq_zero.mp (by omega)
      rw [ih _ (by omega), if_neg gone, if_pos List.mem_cons_self, deliver, handle_changeHandle, if_pos rfl]
    · rw [List.count_cons_of_ne here] at once
      have passed : (g.deliver r target).handles[i]? = g.handles[i]? := by
        cases target with
        | idle => rfl
        | queueOf j => rw [deliver, handle_changeHandle, if_neg (by rintro rfl; exact here rfl)]
      rw [ih _ once, passed]
      simp only [List.mem_cons, Ne.symm here, false_or]

/-- However a record comes to the queue of a handle, it gets there once. -/
theorem Sound.count_reached (sound : g.Sound) (names : List String) (i : Nat) :
    (g.reached names).count (.queueOf i) ≤ 1 := by
  induction names with
  | nil => exact Nat.zero_le _
  | cons name names ih =>
    rw [reached]
    by_cases mem : g.IsAttached i name
    · -- Records go no further than to the logger that the queue is attached to.
      obtain ⟨-, alone, still⟩ := sound.of_attached mem
      simp [alone, still]
    · rw [List.count_append, List.count_eq_zero_of_not_mem mem, Nat.zero_add]
      split
      · exact ih
      · exact Nat.zero_le _

theorem Sound.of_reached (sound : g.Sound) {names : List String} {i : Nat} (mem : .queueOf i ∈ g.reached names) :
    g.IsLive i := by
  induction names with
  | nil => cases mem
  | cons name names ih =>
    rw [reached] at mem
    rcases List.mem_append.mp mem with here | further
    · exact (sound.of_attached here).1
    · split at further
      · exact ih further
      · cases further

theorem Sound.meet (sound : g.Sound) (name : String) : (g.meet name).Sound := by
  obtain ⟨handles, active⟩ := meet_eq g name
  refine sound.of_turns active (logger_meet g name) (fun i h found => ?_) fun i absent => by rw [handles, absent]
  exact ⟨h, none, by rw [handles, found], .still, rfl⟩

/-- What logging leaves: a record that is enabled and sound is given to all that it reaches. -/
theorem log_cases (g : Registry) (r : Record) :
    let known := g.meet r.logger
    ((known.isEnabled r.logger r.level = true ∧ overwritten? r.extra = none) ∧
        (g.after (.log r)).active = known.active ∧ (∀ name, (g.after (.log r)).logger name = known.logger name) ∧
        (g.after (.log r)).handles = ((known.reached (known.chain r.logger)).foldl (·.deliver r) known).handles) ∨
      ¬ (known.isEnabled r.logger r.level = true ∧ overwritten? r.extra = none) ∧ g.after (.log r) = known := by
  intro known
  cases enabled : known.isEnabled r.logger r.level with
  | false => exact .inr ⟨by simp, by simp [after, perform, log, known, enabled]⟩
  | true =>
    cases hidden : overwritten? r.extra with
    | some field => exact .inr ⟨by simp, by simp [after, perform, log, known, enabled, hidden]⟩
    | none =>
      refine .inl ⟨⟨rfl, rfl⟩, ?_⟩
      have given : g.after (.log r) =
          if (known.reached (known.chain r.logger)).isEmpty then known.showUnhandled r
          else (known.reached (known.chain r.logger)).foldl (·.deliver r) known := by
        simp [after, perform, log, known, enabled, hidden]
      rw [given]
      split
      · next none =>
        rw [List.isEmpty_iff.mp none]
        unfold showUnhandled
        repeat' split
        all_goals exact ⟨rfl, fun _ => rfl, rfl⟩
      · exact ⟨(deliver_eq ..).1, (deliver_eq ..).2, rfl⟩

/-- A record that is logged is offered, once, to the handle that it is for. -/
theorem Sound.turn_log (sound : g.Sound) (r : Record) {i : Nat} {h : Handle} (found : g.handles[i]? = some h) :
    ∃ h', (g.after (.log r)).handles[i]? = some h' ∧ h.Turn (g.offered i (.log r)) h' ∧
      h'.isShutdown = h.isShutdown := by
  have still (nothing : g.offered i (.log r) = none) : h.Turn (g.offered i (.log r)) h := by
    rw [nothing]
    exact .still
  rw [← (meet_eq g r.logger).1] at found
  rcases log_cases g r with ⟨⟨enabled, free⟩, -, -, handles⟩ | ⟨stopped, kept⟩
  · have known := sound.meet r.logger
    rw [handles, handle_deliver _ _ (known.count_reached _ i)]
    split
    · next mem =>
      obtain ⟨h₀, found₀, live⟩ := known.of_reached mem
      rw [found] at found₀
      cases found₀
      refine ⟨h.offer r, by rw [found]; rfl, ?_, (h.offer_keeps r).2⟩
      by_cases heard : h.level ≤ r.level
      · have given : g.offered i (.log r) = some r := by
          simp [offered, enabled, free, mem, found, heard]
        rw [given]
        exact .offer live heard
      · have same : h.offer r = h := if_pos (by omega)
        rw [same]
        exact still (by simp [offered, found, heard])
    · next away => exact ⟨h, found, still (by simp [offered, away]), rfl⟩
  · rw [kept]
    exact ⟨h, found, still (if_neg fun all => stopped ⟨all.1, all.2.1⟩), rfl⟩

theorem Sound.absent_log (sound : g.Sound) (r : Record) {i : Nat} (absent : g.handles[i]? = none) :
    (g.after (.log r)).handles[i]? = none := by
  rw [← (meet_eq g r.logger).1] at absent
  rcases log_cases g r with ⟨-, -, -, handles⟩ | ⟨-, kept⟩
  · rw [handles, handle_deliver _ _ ((sound.meet r.logger).count_reached _ i), absent]
    exact ite_self _
  · rw [kept, absent]

theorem Sound.log (sound : g.Sound) (r : Record) : (g.after (.log r)).Sound := by
  have wiring : (g.after (.log r)).active = g.active ∧ ∀ name, (g.after (.log r)).logger name = g.logger name := by
    rcases log_cases g r with ⟨-, active, loggers, -⟩ | ⟨-, kept⟩
    · exact ⟨active.trans (meet_eq ..).2, fun name => (loggers name).trans (logger_meet ..)⟩
    · rw [kept]
      exact ⟨(meet_eq ..).2, logger_meet g r.logger⟩
  refine sound.of_turns wiring.1 wiring.2 (fun i h found => ?_) fun i => sound.absent_log r
  obtain ⟨h', found', turn, same⟩ := sound.turn_log r found
  exact ⟨h', _, found', turn, same⟩

end Logging

end Registry

end ServerSettings.Log
