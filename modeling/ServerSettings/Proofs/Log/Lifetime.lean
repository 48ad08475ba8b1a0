import ServerSettings.Proofs.Log.Wiring

/-!
# At most one handle is live

Setting up a handle, logging, writing and ending a handle, in any order and whether they succeed or not, keep the wiring
sound.

* `Sound.after`, `Sound.run`: the wiring after an event, and after any number of them;
* `Sound.turn`: what an event can do to a handle that is there: a record is offered to it, once and while it is live, its
  writer takes one, or it is ended;
* `Sound.new_after`: a handle that was not there before is one that was set up just now;
* `at_most_one_live`: what follows for every sequence of events.
-/

namespace ServerSettings.Log.Registry

variable {g : Registry}

theorem turn_write (g : Registry) (j : Nat) {i : Nat} {h : Handle} (found : g.handles[i]? = some h) :
    ∃ h', (g.after (.write j)).handles[i]? = some h' ∧ h.Turn none h' ∧ h'.isShutdown = h.isShutdown := by
  change ∃ h', (g.changeHandle j Handle.step).handles[i]? = some h' ∧ _
  rw [handle_changeHandle, found]
  split
  · exact ⟨h.step, rfl, .step, h.step_keeps.2⟩
  · exact ⟨h, rfl, .still, rfl⟩

theorem absent_write (g : Registry) (j : Nat) {i : Nat} (absent : g.handles[i]? = none) :
    (g.after (.write j)).handles[i]? = none := by
  change (g.changeHandle j Handle.step).handles[i]? = none
  rw [handle_changeHandle, absent]
  exact ite_self _

theorem Sound.write (sound : g.Sound) (j : Nat) : (g.after (.write j)).Sound := by
  refine sound.of_turns (changeHandle_eq ..).1 (changeHandle_eq ..).2 (fun i h found => ?_) fun i => absent_write g j
  obtain ⟨h', found', turn, same⟩ := turn_write g j found
  exact ⟨h', _, found', turn, same⟩

/-- What a setup leaves: the registry as it was, without its active handle, or with a new one in its place. -/
theorem after_setup (g : Registry) (plan : Plan) (k : Machine) :
    g.after (.setup plan k) = g ∨ g.after (.setup plan k) = g.retire ∨
      ∃ level sinks, plan.IsReady sinks ∧ g.after (.setup plan k) = g.retire.install plan level sinks := by
  rw [Registry.after, perform]
  split
  · exact .inl rfl
  · exact .inr (setup_cases g plan k)

theorem after_shutdown (g : Registry) (handle : Option Nat) :
    g.after (.shutdown handle) = g ∨ g.after (.shutdown handle) = g.shutdown handle := by
  rw [Registry.after, perform]
  split
  · exact .inl rfl
  · exact .inr rfl

/-- Every event keeps the wiring sound. -/
theorem Sound.after (sound : g.Sound) (e : Event) : (g.after e).Sound := by
  cases e with
  | setup plan k =>
    obtain ⟨retired, inactive⟩ := sound.retire
    rcases after_setup g plan k with kept | failed | ⟨level, sinks, ready, done⟩
    · rwa [kept]
    · rwa [failed]
    · rw [done]
      exact retired.install inactive plan level sinks ready
  | log r => exact sound.log r
  | shutdown handle =>
    rcases after_shutdown g handle with kept | done
    · rwa [kept]
    · rw [done]
      exact sound.shutdown handle
  | write i => exact sound.write i

theorem Sound.run (sound : g.Sound) (events : List Event) : (g.run events).Sound := by
  induction events generalizing g with
  | nil => exact sound
  | cons e events ih => exact ih (sound.after e)

theorem turn_ended {h : Handle} {p : Prop} [Decidable p] :
    ∃ h', (if p then (some h).map Handle.shutdown else some h) = some h' ∧ h.Turn none h' := by
  split
  · exact ⟨h.shutdown, rfl, .shutdown⟩
  · exact ⟨h, rfl, .still⟩

/-- What an event does to a handle that is there. -/
theorem Sound.turn (sound : g.Sound) (e : Event) {i : Nat} {h : Handle} (found : g.handles[i]? = some h) :
    ∃ h', (g.after e).handles[i]? = some h' ∧ h.Turn (g.offered i e) h' := by
  cases e with
  | setup plan k =>
    have retired : ∃ h', g.retire.handles[i]? = some h' ∧ h.Turn none h' := by
      rw [handle_retire, found]
      exact turn_ended
    rcases after_setup g plan k with kept | failed | ⟨level, sinks, ready, done⟩
    · rw [kept]
      exact ⟨h, found, .still⟩
    · rwa [failed]
    · rw [done]
      obtain ⟨h', found', turn⟩ := retired
      exact ⟨h', (List.getElem?_append_left (List.getElem?_eq_some_iff.mp found').1).trans found', turn⟩
  | log r =>
    obtain ⟨h', found', turn, -⟩ := sound.turn_log r found
    exact ⟨h', found', turn⟩
  | shutdown handle =>
    rcases after_shutdown g handle with kept | done
    · rw [kept]
      exact ⟨h, found, .still⟩
    · rw [done, handle_shutdown, found]
      exact turn_ended
  | write j =>
    obtain ⟨h', found', turn, -⟩ := turn_write g j found
    exact ⟨h', found', turn⟩

/-- A handle that was not there before was set up just now. -/
theorem Sound.new_after (sound : g.Sound) (e : Event) {i : Nat} {h : Handle} (absent : g.handles[i]? = none)
    (found : (g.after e).handles[i]? = some h) : ∃ plan k, e = .setup plan k ∧ h.IsNew plan := by
  have not_found {place : Option Handle} {P : Prop} (empty : place = none) (taken : place = some h) : P := by
    rw [empty] at taken
    cases taken
  cases e with
  | setup plan k =>
    have retired : g.retire.handles[i]? = none := by
      rw [handle_retire, absent]
      exact ite_self _
    rcases after_setup g plan k with kept | failed | ⟨level, sinks, ready, done⟩
    · rw [kept] at found
      exact not_found absent found
    · rw [failed] at found
      exact not_found retired found
    · rw [done] at found
      rcases install_handle _ ready found with before | ⟨-, new⟩
      · exact not_found retired before
      · exact ⟨plan, k, rfl, new⟩
  | log r => exact not_found (sound.absent_log r absent) found
  | shutdown handle =>
    rcases after_shutdown g handle with kept | done
    · rw [kept] at found
      exact not_found absent found
    · rw [done, handle_shutdown, absent] at found
      exact not_found (ite_self _) found
  | write j => exact not_found (absent_write g j absent) found

/-- A handle stays where it is, and with it what it was set up with. -/
theorem Sound.run_keeps (sound : g.Sound) {i : Nat} {h : Handle} (found : g.handles[i]? = some h)
    (events : List Event) : ∃ h', (g.run events).handles[i]? = some h' ∧ h.Keeps h' := by
  induction events generalizing g h with
  | nil => exact ⟨h, found, rfl, rfl, rfl, rfl, rfl⟩
  | cons e events ih =>
    obtain ⟨h₁, found₁, turn⟩ := sound.turn e found
    obtain ⟨h₂, found₂, keeps⟩ := ih (sound.after e) found₁
    exact ⟨h₂, found₂, turn.keeps.trans keeps⟩

/-- What a handle was set up with is what the plan of its setup says. -/
theorem Sound.run_new (sound : g.Sound) {i : Nat} {h : Handle} (absent : g.handles[i]? = none) (events : List Event)
    (found : (g.run events).handles[i]? = some h) : ∃ plan k, Event.setup plan k ∈ events ∧ h.Follows plan := by
  induction events generalizing g with
  | nil =>
    change g.handles[i]? = some h at found
    rw [absent] at found
    cases found
  | cons e events ih =>
    cases there : (g.after e).handles[i]? with
    | none =>
      obtain ⟨plan, k, mem, follows⟩ := ih (sound.after e) there found
      exact ⟨plan, k, List.mem_cons_of_mem _ mem, follows⟩
    | some h₁ =>
      obtain ⟨plan, k, rfl, new⟩ := sound.new_after e absent there
      obtain ⟨h', found', keeps⟩ := (sound.after _).run_keeps there events
      rw [Option.some.inj (found.symm.trans found')]
      exact ⟨plan, k, List.mem_cons_self, new.follows.of_keeps keeps⟩

/-- What was ended stays as it is. -/
theorem Sound.run_of_ended (sound : g.Sound) {i : Nat} {h : Handle} (found : g.handles[i]? = some h)
    (down : h.isShutdown = true) (events : List Event) : (g.run events).handles[i]? = some h := by
  induction events generalizing g with
  | nil => exact found
  | cons e events ih =>
    obtain ⟨h', found', turn⟩ := sound.turn e found
    rw [turn.of_ended down (sound.ended i h found down)] at found'
    exact ih (sound.after e) found'

theorem run_append (g : Registry) (first later : List Event) : g.run (first ++ later) = (g.run first).run later :=
  List.foldl_append

theorem isFresh_attach (name : String) : (({} : Registry).attach name).IsFresh := by
  have idle (other : String) : (({} : Registry).logger other).attachments = [] := by
    simp only [logger, Dict.lookup]
    split <;> rfl
  refine ⟨rfl, rfl, fun i other mem => ?_⟩
  rw [IsAttached, attach, logger_withLogger, idle] at mem
  split at mem
  · cases List.mem_singleton.mp mem
  · rw [idle] at mem
    cases mem

end ServerSettings.Log.Registry
