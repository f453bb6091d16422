/-
Notices: what a ledger tells an observer besides its answers. A mark says
that a task or a unit of work began; a warning says that something did
not go as it should. Neither is read back by any operation.
-/
import TaskLedger.Ledger.Sink
import TaskLedger.Span.Writer

namespace TaskLedger

/-- A place in the table of submitted units. -/
abbrev UnitId := Nat

/-- A beginning that an observer is told of. -/
inductive Mark
  /-- A task; its length is filled in when the scheduler's side writes its span. -/
  | task (t : TaskId) (length : Option Duration)
  /-- A unit of work on the pool. -/
  | unit (u : UnitId)
  deriving DecidableEq, Repr

/-- Something that did not go as it should. -/
inductive Warning
  /-- A task was started while one of its path was still registered. -/
  | displaced (path : String)
  /-- The build ended and a task still has workers at work. -/
  | stillRunning (path : String)
  /-- A sink refused a worker's span. -/
  | workerSpanLost (path : String) (cause : Error)
  /-- A sink refused a task's span. -/
  | taskSpanLost (path : String) (cause : Error)
  /-- A unit of work failed on the pool. -/
  | unitFailed (owner key cause : String)
  deriving DecidableEq, Repr

namespace Warning

/-- The text of a warning. -/
def message : Warning → String
  | displaced _ => "task started twice, previous record dropped"
  | stillRunning _ => "build finished with workers still running"
  | workerSpanLost _ e => s!"failed to write worker span: {e.message}"
  | taskSpanLost _ e => s!"failed to write task span: {e.message}"
  | unitFailed _ _ cause => s!"unit failed: {cause}"

/-- A warning's message and whom it is about, in the order they are
written. -/
def fields (w : Warning) : List (String × String) :=
  match w with
  | displaced p | stillRunning p | workerSpanLost p _ | taskSpanLost p _ =>
    [("message", w.message), ("task", p)]
  | unitFailed owner key _ => [("key", key), ("message", w.message), ("owner", owner)]

/-- A warning as an object with a string for each field. -/
def write (w : Warning) : List Char :=
  Json.writeObject (w.fields.map fun f => Json.writeMember f.1 (Json.writeString f.2))

end Warning

end TaskLedger
