import ServerSettings.Proofs.Descriptors
import ServerSettings.Proofs.Files

/-!
# Where new settings are written

A command line that orders new settings goes through refusals first, then makes directories, and writes last. So nothing
that a machine held is lost unless the new settings take its place.

* `Widens`: runs that do no more than make directories, and how they are composed;
* `ensureDirectory_widens`, `store_cases`: the steps that touch the machine;
* `Order.Fulfilled`, `Order.fulfil_cases`: an order fails and has made directories at most, or is fulfilled;
* `run_setup`: so does a command line.
-/

namespace ServerSettings

open ConfigFile (run_bind)

/-- A run that does no more to its machine than make directories. -/
def Widens {α : Type} (x : StateM Machine α) : Prop :=
  ∀ k : Machine, k.Widened (x k).2

namespace Widens

variable {α β : Type}

theorem pure (a : α) : Widens (pure a) :=
  fun k => .refl k

theorem bind {x : StateM Machine α} {f : α → StateM Machine β} (first : Widens x) (later : ∀ a, Widens (f a)) :
    Widens (x >>= f) :=
  fun k => (first k).trans (later (x k).1 (x k).2)

theorem status (p : PathName) : Widens (Host.status p) :=
  fun k => .refl k

theorem makeDirectory (p : PathName) : Widens (Host.makeDirectory p) :=
  fun k => k.makeDirectory_widened p

end Widens

/-- A run that leaves its machine as it is. -/
def Idle {α : Type} (x : StateM Machine α) : Prop :=
  ∀ k : Machine, (x k).2 = k

namespace Idle

variable {α β : Type}

theorem pure (a : α) : Idle (pure a) :=
  fun _ => rfl

theorem bind {x : StateM Machine α} {f : α → StateM Machine β} (first : Idle x) (later : ∀ a, Idle (f a)) :
    Idle (x >>= f) :=
  fun k => (later (x k).1 (x k).2).trans (first k)

theorem environment : Idle Host.environment :=
  fun _ => rfl

theorem home (user : Option String) : Idle (Host.home user) :=
  fun _ => rfl

end Idle

namespace Host

theorem isDirectory_widens (p : PathName) : Widens (isDirectory p) := by
  unfold isDirectory
  split
  · exact .pure _
  · apply Widens.bind (.status p)
    intro answer
    cases answer <;> exact .pure _

theorem ensureOne_widens (p : PathName) : Widens (ensureOne p) := by
  unfold ensureOne
  apply Widens.bind (.makeDirectory p)
  intro made
  cases made with
  | ok => exact .pure _
  | error refusal =>
    apply Widens.bind (isDirectory_widens p)
    rintro (e | there)
    · exact .pure _
    · cases there <;> exact .pure _

/-- However many directories are made above the one that is wanted. -/
theorem ensureAbove_widens (fuel : Nat) (p : PathName) : Widens (ensureAbove fuel p) := by
  induction fuel generalizing p with
  | zero => exact ensureOne_widens p
  | succ fuel ih =>
    unfold ensureAbove
    split
    · exact .pure _
    · apply Widens.bind (.makeDirectory p)
      intro made
      split
      · exact .pure _
      · split
        · exact .pure _
        · apply Widens.bind (ih p.parent)
          rintro (e | done)
          · exact .pure _
          · exact ensureOne_widens p
      · apply Widens.bind (isDirectory_widens p)
        rintro (e | there)
        · exact .pure _
        · cases there <;> exact .pure _

theorem ensureDirectory_widens (p : PathName) : Widens (ensureDirectory p) :=
  ensureAbove_widens _ p

theorem ownHome_idle : Idle ownHome := by
  unfold ownHome
  apply Idle.bind .environment
  intro env
  cases Dict.lookup env "HOME" with
  | some home => exact .pure _
  | none => exact .home none

theorem expandHome_idle (p : PathName) : Idle (expandHome p) := by
  unfold expandHome
  split
  · split
    · dsimp only
      split
      · exact .bind ownHome_idle fun _ => .pure _
      · exact .bind (.home _) fun _ => .pure _
    · exact .pure _
  · exact .pure _

/-- A name is present if it leads somewhere and can be asked about. -/
theorem present_eq (p : PathName) (k : Machine) : ∃ answer, (present p : StateM Machine _) k = (answer, k) ∧
    (answer = .ok false → p.hasNull = true ∨ ∀ kind, k.status p ≠ .ok kind) := by
  unfold present
  split
  · next null => exact ⟨_, rfl, fun _ => .inl null⟩
  · have asked : (Host.status p : StateM Machine _) k = (k.status p, k) := rfl
    simp only [run_bind asked]
    cases k.status p with
    | ok kind => exact ⟨_, rfl, nofun⟩
    | error refusal =>
      refine ⟨_, rfl, fun _ => .inr nofun⟩

theorem writeText_cases (p : PathName) (text : String) (k : Machine) :
    (∃ e, (writeText p text : StateM Machine _) k = (.error e, k)) ∨
      p.hasNull = false ∧ ∃ k' place, (writeText p text : StateM Machine _) k = (.ok (), k') ∧
        k'.find .look p = .ok ⟨place, some (.file (Utf8.encode text.toList))⟩ ∧
        k.files.Stored k'.files place (Utf8.encode text.toList) := by
  unfold writeText
  split
  · exact .inl ⟨_, rfl⟩
  · next clean =>
    rcases written : (Host.write p (Utf8.encode text.toList) : StateM Machine _) k with ⟨result, k'⟩
    have course : k.write p (Utf8.encode text.toList) = (result, k') := written
    have bytes : text.toList.flatMap String.utf8EncodeChar = Utf8.encode text.toList := rfl
    simp only [bytes, run_bind written]
    cases result with
    | error refusal =>
      have same := Machine.write_refused (congrArg Prod.fst course)
      rw [course] at same
      exact .inl ⟨_, congrArg (Prod.mk _) same⟩
    | ok =>
      obtain ⟨place, found, stored⟩ := Machine.write_ok (congrArg Prod.fst course)
      rw [course] at found stored
      exact .inr ⟨by simpa using clean, k', place, rfl, found, stored⟩

end Host

namespace Command

/-- New settings are written after the directories above their file were made, or not at all. -/
theorem store_cases (output : PathName) (s : Settings) (k : Machine) :
    (∃ e k', (store output s : StateM Machine _) k = (.error e, k') ∧ k.Widened k') ∨
      ∃ text k' place, (store output s : StateM Machine _) k = (.ok (), k') ∧ output.hasNull = false ∧
        s.render = .ok text ∧
        k'.find .look output = .ok ⟨place, some (.file (Utf8.encode (text ++ "\n").toList))⟩ ∧
        k.files.Stored k'.files place (Utf8.encode (text ++ "\n").toList) := by
  unfold store
  cases s.render with
  | error e => exact .inl ⟨e, k, rfl, .refl k⟩
  | ok text =>
    have wide := Host.ensureDirectory_widens output.parent k
    rcases made : (Host.ensureDirectory output.parent : StateM Machine _) k with ⟨result, u⟩
    rw [made] at wide
    simp only [run_bind made]
    cases result with
    | error e => exact .inl ⟨e, u, rfl, wide⟩
    | ok =>
      rcases Host.writeText_cases output (text ++ "\n") u with ⟨e, failed⟩ | ⟨clean, k', place, written, found, stored⟩
      · exact .inl ⟨e, u, failed, wide⟩
      · exact .inr ⟨text, k', place, written, clean, rfl, found, wide.files.stored stored⟩

/-- What an order has come to that was fulfilled. Its name led nowhere before, or it may take the place of what is there;
the settings of its plan were made, and the file that its name leads to, the only one that was written, holds their text
with a line break behind it. -/
structure Order.Fulfilled (o : Order) (k k' : Machine) (output : PathName) (s : Settings) (text : String)
    (place : List String) : Prop where
  named : (Host.expandHome (PathName.ofText o.output) : StateM Machine _) k = (.ok output, k)
  -- A name through a directory that is still to be made leads nowhere, whatever it leads to afterwards.
  taken : ∀ kind, k.status output = .ok kind → o.force = true
  built : o.plan.build k.random = .ok s
  rendered : s.render = .ok text
  content : k'.read output = .ok (Utf8.encode (text ++ "\n").toList)
  found : k'.find .look output = .ok ⟨place, some (.file (Utf8.encode (text ++ "\n").toList))⟩
  stored : k.files.Stored k'.files place (Utf8.encode (text ++ "\n").toList)

theorem Order.isTaken_cases (o : Order) (output : PathName) (k : Machine) :
    (∃ e, (o.isTaken output : StateM Machine _) k = (.error e, k)) ∨
      (o.isTaken output : StateM Machine _) k = (.ok true, k) ∨
      (o.isTaken output : StateM Machine _) k = (.ok false, k) ∧
        (output.hasNull = false → ∀ kind, k.status output = .ok kind → o.force = true) := by
  obtain ⟨answer, asked, absent⟩ := Host.present_eq output k
  unfold Order.isTaken
  simp only [run_bind asked]
  cases answer with
  | error e => exact .inl ⟨e, rfl⟩
  | ok there =>
    cases there with
    | false =>
      refine .inr (.inr ⟨rfl, fun clean kind present => ?_⟩)
      rcases absent rfl with null | nothing
      · rw [clean] at null
        cases null
      · exact absurd present (nothing kind)
    | true =>
      cases forced : o.force with
      | true => exact .inr (.inr ⟨rfl, fun _ _ _ => rfl⟩)
      | false => exact .inr (.inl rfl)

/-- An order fails, and has made directories at most, or it is fulfilled. -/
theorem Order.fulfil_cases (o : Order) (k : Machine) :
    (∃ failure k', (o.fulfil : StateM Machine _) k = (.error failure, k') ∧ k.Widened k') ∨
      ∃ shown k' output s text place, (o.fulfil : StateM Machine _) k = (.ok (.success, shown), k') ∧
        o.Fulfilled k k' output s text place := by
  unfold Order.fulfil
  have idle := Host.expandHome_idle (PathName.ofText o.output) k
  rcases named : (Host.expandHome (PathName.ofText o.output) : StateM Machine _) k with ⟨result, u⟩
  rw [named] at idle
  obtain rfl : u = k := idle
  simp only [run_bind named]
  cases result with
  | error e => exact .inl ⟨_, u, rfl, .refl u⟩
  | ok output =>
    rcases o.isTaken_cases output u with ⟨e, asked⟩ | asked | ⟨asked, free⟩
    · simp only [run_bind asked]
      exact .inl ⟨_, u, rfl, .refl u⟩
    · simp only [run_bind asked]
      exact .inl ⟨_, u, rfl, .refl u⟩
    · have random : (Host.random : StateM Machine _) u = (u.random, u) := rfl
      simp only [run_bind asked, run_bind random]
      cases built : o.plan.build u.random with
      | error e => exact .inl ⟨_, u, rfl, .refl u⟩
      | ok s =>
        rcases store_cases output s u with
          ⟨e, k', failed, wide⟩ | ⟨text, k', place, written, clean, rendered, found, stored⟩
        · simp only [run_bind failed]
          exact .inl ⟨_, k', rfl, wide⟩
        · simp only [run_bind written]
          have content : k'.read output = .ok (Utf8.encode (text ++ "\n").toList) := by simp only [Machine.read, found]
          exact .inr ⟨_, k', output, s, text, place, rfl, named, free clean, built, rendered, content, found, stored⟩

/-- A line that orders new settings is read as the command for it, with what it is given. -/
theorem given_of_order {line : List String} {r : Request} {o : Order} (h : Request.read line = .ok r)
    (task : r.task = .setup o) : ∃ g, r = .ofGiven .setup g := by
  obtain ⟨d, -, h⟩ := bind_ok h
  obtain ⟨reading, -, h⟩ := bind_ok h
  split at h
  · obtain rfl : Request.ofGiven d.command reading.given = r := Except.ok.inj h
    generalize d.command = command at task ⊢
    cases command <;> cases task
    exact ⟨_, rfl⟩
  · cases h

/-- Whatever is given behind the name of the command is an order for new settings, if it is a request. -/
theorem read_setup {words : List String} {r : Request} (h : Request.read (Name.setup.text :: words) = .ok r) :
    ∃ o, r.task = .setup o := by
  rw [read_command] at h
  split at h
  · cases h
  · split at h
    · cases h
    · split at h
      · cases h
        exact ⟨_, rfl⟩
      · cases h

theorem run_order {line : List String} {g : Given} (read : Request.read line = .ok (.ofGiven .setup g)) (isTerminal : Bool)
    (k : Machine) :
    ((run line isTerminal : StateM Machine _) k).2 = (((orderOf g).fulfil : StateM Machine _) k).2 ∧
      exitCode line isTerminal k =
        (Transcript.ofReport [] (((orderOf g).fulfil : StateM Machine _) k).1).ending.code := by
  rw [exitCode, run, read]
  exact ⟨rfl, rfl⟩

/-- A line that is no request leaves the machine as it is. -/
theorem run_of_stop {line : List String} {stop : Stop} (read : Request.read line = .error stop) (isTerminal : Bool)
    (k : Machine) : ((run line isTerminal : StateM Machine _) k).2 = k := by
  rw [run, read]
  rfl

/-- Of what is no request, only a call for help succeeds. -/
theorem Reason.help_of_code {reason : Reason} (h : reason.code = .success) : reason = .help := by
  cases reason with
  | help => rfl
  | misuse fault => cases h
  | lostValue => cases h

/-- Only what was done succeeds. -/
theorem success_of_ofReport {log : List String} {report : Report}
    (h : (Transcript.ofReport log report).ending.code = .success) : ∃ done, report = .ok done := by
  cases report with
  | ok done => exact ⟨done, rfl⟩
  | error failure =>
    cases failure with
    | declined text => cases h
    | settings e => exact absurd h (code_ofError_ne_success e)
    | output crash => cases h

/-- A machine on which a link stands for the file of settings. -/
def linkedMachine : Machine where
  files := [(["old.json"], .file [0x7b, 0x7d]), (["config.json"], .link "old.json")]
  random := fun call length => List.replicate length (UInt8.ofNat call)

end Command

end ServerSettings
