import ServerSettings.Files.PathName
import ServerSettings.Log.Record

/-!
A handle: a bounded queue of records between those who log and a writer that gives each line to every
sink. A record that finds the queue full is dropped and counted.
-/

namespace ServerSettings.Log

inductive Sink where
  | stream
  | errorStream
  | file (name : PathName)
  deriving DecidableEq, Repr

/-- A sink with the level from which it takes records, and the lines that it was given, in order. -/
structure Output where
  sink : Sink
  level : Int
  lines : List String := []

/-- Writes the line of a record that is not below the level, if the record has one. -/
def Output.take (redact : Redactor) (r : Record) (o : Output) : Output :=
  if r.level < o.level then o
  else
    match r.format redact with
    | .ok line => { o with lines := o.lines ++ [line] }
    | .error _ => o

structure Handle where
  logger : String
  level : Int
  capacity : Nat
  redact : Redactor
  outputs : List Output
  queue : List Record := []
  dropped : Nat := 0
  isShutdown : Bool := false

namespace Handle

def sinks (h : Handle) : List Sink :=
  h.outputs.map (·.sink)

/-- The lines of the first sink, which are those of every other. -/
def written (h : Handle) : List String :=
  (h.outputs.head?.map (·.lines)).getD []

/-- Puts a record that is ready into the queue, or drops it. -/
def enqueue (h : Handle) (r : Record) : Handle :=
  if h.queue.length < h.capacity then { h with queue := h.queue ++ [r] }
  else { h with dropped := h.dropped + 1 }

/-- Offers a record: one below the level is passed over, and so is one whose message cannot be filled
in. -/
def offer (h : Handle) (r : Record) : Handle :=
  if r.level < h.level then h
  else
    match r.prepare with
    | .ok ready => h.enqueue ready
    | .error _ => h

/-- Gives a record to every sink. -/
def emit (h : Handle) (r : Record) : Handle :=
  { h with outputs := h.outputs.map (·.take h.redact r) }

/-- The writer takes the oldest record. -/
def step (h : Handle) : Handle :=
  match h.queue with
  | [] => h
  | r :: rest => { h with queue := rest }.emit r

/-- The writer takes records until none is left. -/
def drain (h : Handle) : Handle :=
  { h.queue.foldl emit h with queue := [] }

/-- Writes what waits and ends the writer for good. -/
def shutdown (h : Handle) : Handle :=
  if h.isShutdown then h else { h.drain with isShutdown := true }

end Handle

end ServerSettings.Log
