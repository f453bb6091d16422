/-
Sinks: where finished spans go, and where their ids come from.

The numbers of a sink grow by one. The largest word is handed out like
any other; the request after it stops with a fault and leaves the counter
at zero, so that the numbering starts over.

A sink may refuse a write. Which writes it refuses is a function of what
it is given and of how many writes it was given before, so that nothing
about refusals depends on the kind of sink.
-/
import TaskLedger.Error
import TaskLedger.Files.Tree
import TaskLedger.Ledger.Task

namespace TaskLedger

/-- What a sink does with a record. -/
inductive Outlet
  /-- It keeps the record. -/
  | memory
  /-- It appends a line to the file at a place, which was opened by a path. -/
  | file (path : String) (place : Files.Place)
  /-- It announces the record. -/
  | events
  deriving DecidableEq, Repr

/-- A destination of records. -/
structure Sink where
  outlet : Outlet
  last : SpanId := 0
  refuses : Nat → SpanRecord → Option Error := fun _ _ => none

namespace Sink

/-- The largest number a span can have. -/
def largestId : SpanId := 18446744073709551615

/-- The next number, with the sink that has handed it out. -/
def next (s : Sink) : Sink × Except Fault SpanId :=
  if s.last = largestId then ({ s with last := 0 }, .error .sumRange)
  else ({ s with last := s.last + 1 }, .ok (s.last + 1))

/-- Refuses spans of some kinds. -/
def refusingKinds (kinds : List SpanKind) (_ : Nat) (r : SpanRecord) : Option Error :=
  if kinds.contains r.span.kind then some (.other s!"sink refused {r.span.kind.name}") else none

end Sink

/-- On whose behalf a record is written. -/
inductive Origin
  /-- The task itself. -/
  | task (t : TaskId)
  /-- A worker that reported to a task. -/
  | worker (t : TaskId) (w : WorkerId)
  /-- Nobody the ledger knows. -/
  | direct
  deriving DecidableEq, Repr

/-- A record that was offered to a sink. -/
structure Write where
  sink : SinkId
  origin : Origin
  record : SpanRecord
  refused : Option Error := none
  deriving DecidableEq, Repr

/-- The sink took it. -/
def Write.taken (w : Write) : Bool := w.refused.isNone

/-- A request for a sink. -/
inductive SinkSpec
  | memory
  | file (path : String)
  | events
  /-- Keeps records, but refuses spans of some kinds. -/
  | picky (kinds : List SpanKind)
  deriving DecidableEq, Repr

end TaskLedger
