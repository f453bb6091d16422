/-
How far a task has come. The lifecycle is a path with one trap: from
`spanClosed`, which writing the task's span enters, nothing leads away.
-/
namespace TaskLedger

/-- How far a task has come. -/
inductive TaskStatus
  /-- Its body runs. -/
  | running
  /-- It is blocked on its workers. -/
  | waiting
  /-- It gave control back to the scheduler. -/
  | closed
  /-- The scheduler reported it as done. -/
  | finished
  /-- Its span is written. -/
  | spanClosed
  deriving DecidableEq, Repr

namespace TaskStatus

/-- The written names. -/
def name : TaskStatus → String
  | .running => "running"
  | .waiting => "await"
  | .closed => "closed"
  | .finished => "finished"
  | .spanClosed => "span_closed"

/-- The names inside the texts meant for a programmer. -/
def debugName : TaskStatus → String
  | .running => "Running"
  | .waiting => "Await"
  | .closed => "Closed"
  | .finished => "Finished"
  | .spanClosed => "SpanClosed"

/-- Every status, in the order messages list them. -/
def all : List TaskStatus := [.running, .waiting, .closed, .finished, .spanClosed]

/-- The task no longer holds control, but its span is still open. -/
def released : TaskStatus → Bool
  | .closed | .finished => true
  | _ => false

/-- Nothing changes any more. -/
def terminal : TaskStatus → Bool
  | .spanClosed => true
  | _ => false

end TaskStatus

end TaskLedger
