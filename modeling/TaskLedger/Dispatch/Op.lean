/-
What can happen to a dispatch, as a value, so that a history is a list: a
task submits, waits and gives control back, a thread of the pool takes
its next step, the pool stops, and meanwhile the ledger goes on. A wait
has a beginning and an end, and anything may come between the two.
-/
import TaskLedger.Dispatch.Pool

namespace TaskLedger

/-- Something that happens to a dispatch. -/
inductive DispatchOp
  | onLedger (op : LedgerOp)
  | addExecutor (x : Executor)
  | submit (x : ExecutorId) (w : Work)
  /-- A thread of the pool takes the next step of a unit. -/
  | proceed (u : UnitId)
  | beginAwait (x : ExecutorId)
  | endAwait (x : ExecutorId)
  | release (x : ExecutorId)
  /-- The pool stops. -/
  | stop
  deriving DecidableEq, Repr

/-- What comes of it. -/
inductive DispatchAnswer
  | done
  | ofLedger (a : LedgerAnswer)
  | executor (x : ExecutorId)
  | submitted (r : Except Error Unit)
  | awaited (r : Except Error Unit)
  /-- The wait is not over. -/
  | waiting

namespace DispatchOp

/-- Lets it happen. A wait that is not over changes nothing. -/
def apply (op : DispatchOp) (d : Dispatch) : Dispatch × Except Fault DispatchAnswer :=
  match op with
  | onLedger op =>
    let (l, r) := op.apply d.ledger
    ({ d with ledger := l }, r.map .ofLedger)
  | addExecutor x =>
    let (d, n) := d.addExecutor x
    (d, .ok (.executor n))
  | submit x w =>
    let (d, r) := d.submit x w
    (d, r.map .submitted)
  | proceed u => (d.proceed u, .ok .done)
  | beginAwait x => (d.beginAwait x, .ok .done)
  | endAwait x =>
    match d.endAwait x with
    | some (d, r) => (d, .ok (.awaited r))
    | none => (d, .ok .waiting)
  | release x => (d.release x, .ok .done)
  | stop => (d.stop, .ok .done)

/-- Lets things happen one after another and lists what came of them. -/
def run : List DispatchOp → Dispatch → Dispatch × List (Except Fault DispatchAnswer)
  | [], d => (d, [])
  | op :: rest, d =>
    let (d, a) := op.apply d
    let (d, as) := run rest d
    (d, a :: as)

end DispatchOp

end TaskLedger
