import ServerSettings.Files.Tree
import ServerSettings.Log.Registry

/-!
What happens to loggers: calls of a program, and between them the steps of the writers. The word that ends a writer
goes through its queue, so a handle whose queue is full cannot be ended: the call fails, and nothing has changed.
-/

namespace ServerSettings.Log

/-- A setup is made on the machine as it is by then. A shutdown names a handle or means the active one. -/
inductive Event where
  | setup (plan : Plan) (machine : Machine)
  | log (r : Record)
  | shutdown (handle : Option Nat)
  | write (handle : Nat)

def Handle.hasRoom (h : Handle) : Bool :=
  h.queue.length < h.capacity

namespace Registry

/-- Is there a handle to be ended whose queue has no room? -/
def isStuck (g : Registry) (handle : Option Nat) : Bool :=
  (handle.bind (g.handles[·]?)).any fun h => !h.isShutdown && !h.hasRoom

/-- How an event ends, and what it leaves. -/
def perform (g : Registry) : Event → Except Error Unit × Registry
  | .setup plan k =>
    if g.isStuck g.active then (.error .queueFull, g)
    else
      let (result, g) := ((g.setup plan : StateM Machine _) k).1
      (result.map fun _ => (), g)
  | .log r =>
    match g.log r with
    | .ok g => (.ok (), g)
    | .error e => (.error e, g.meet r.logger)
  | .shutdown handle =>
    if g.isStuck (handle.or g.active) then (.error .queueFull, g) else (.ok (), g.shutdown handle)
  | .write i => (.ok (), g.changeHandle i Handle.step)

def after (g : Registry) (e : Event) : Registry :=
  (g.perform e).2

def run (g : Registry) (events : List Event) : Registry :=
  events.foldl after g

/-- The record that an event offers to a handle: one that is logged at a level that is enabled, and gets as far as the
queue of the handle, which takes records of its level. -/
def offered (g : Registry) (i : Nat) : Event → Option Record
  | .log r =>
    let g := g.meet r.logger
    if g.isEnabled r.logger r.level ∧ overwritten? r.extra = none ∧ .queueOf i ∈ g.reached (g.chain r.logger) ∧
        (g.handles[i]?).any (·.level ≤ r.level) then some r
    else none
  | _ => none

end Registry

end ServerSettings.Log
