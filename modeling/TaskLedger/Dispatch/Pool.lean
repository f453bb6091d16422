/-
The executors of a session and the pool of threads that the pooled ones
share.

A thread that works on a unit does so in steps, and `proceed` takes the
next one for a given unit. Which unit proceeds when is up to the caller:
a schedule is a list of units, and every list is one. Seeing units
through one by one (`seeThrough`) is the schedule of a single thread.

A stopped pool begins nothing. What is queued then, or is submitted
later, is counted off as cancelled.
-/
import TaskLedger.Dispatch.Executor

namespace TaskLedger

/-- A ledger with those who work for it. -/
structure Dispatch where
  ledger : Ledger := {}
  executors : Array Executor := #[]
  units : Array Submitted := #[]
  stopped : Bool := false
  /-- The actions that were run, in order. -/
  ran : List String := []

namespace Dispatch

-- ================================================================ parts

/-- Changes the ledger. -/
def onLedger (f : Ledger → Ledger) (d : Dispatch) : Dispatch := { d with ledger := f d.ledger }

/-- Changes the state of a pooled executor. -/
def onPooled (x : ExecutorId) (f : PooledState → PooledState) (d : Dispatch) : Dispatch :=
  { d with executors := d.executors.modify x fun
      | .pooled s => .pooled (f s)
      | .direct owner => .direct owner }

/-- Moves a unit to a phase. -/
def setPhase (u : UnitId) (p : Phase) (d : Dispatch) : Dispatch :=
  { d with units := d.units.modify u fun s => { s with phase := p } }

/-- The state of a pooled executor. -/
def pooled? (x : ExecutorId) (d : Dispatch) : Option PooledState :=
  match d.executors[x]? with
  | some (.pooled s) => some s
  | _ => none

-- ================================================================ units

/-- Runs a unit: it is noted, its time passes, and it ends. -/
def perform (w : Work) (d : Dispatch) : Dispatch × Except Fault (Option String) :=
  let d := { d with ran := d.ran ++ [w.action] }
  match d.ledger.advance w.script.ms w.script.ns with
  | (l, .error f) => ({ d with ledger := l }, .error f)
  | (l, .ok ()) =>
    ({ d with ledger := l }, match w.script.ending with
      | .success => .ok none
      | .failure root contexts => .ok (some (Ending.cause root contexts))
      | .panic m => .error (.raised m))

/-- What a pooled executor reports for a unit. -/
def failureOf (action : String) : Except Fault (Option String) → Option String
  | .ok none => none
  | .ok (some cause) => some (action ++ ": " ++ cause)
  | .error f => some (action ++ ": panicked: " ++ f.message)

/-- Counts a unit off, with a cause if it failed. -/
def countOff (x : ExecutorId) (failure : Option String) (d : Dispatch) : Dispatch :=
  d.onPooled x fun s =>
    { s with outstanding := s.outstanding - 1, failures := s.failures ++ failure.toList }

/-- The next step of a unit. -/
def proceed (u : UnitId) (d : Dispatch) : Dispatch :=
  match d.units[u]? with
  | none => d
  | some s =>
    match s.phase with
    | .queued =>
      if d.stopped then (d.countOff s.executor (some s.cancelled)).setPhase u .abandoned
      else
        let l := { d.ledger with marks := d.ledger.marks ++ [.unit u] }
        let (l, w) := Ledger.OnEntry.lookUp s.entry s.key l
        { d with ledger := l.startWorker w }.setPhase u (.begun w)
    | .begun w =>
      let (d, result) := d.perform s.work
      d.setPhase u (.ran w (failureOf s.work.action result))
    | .ran w failure => (d.onLedger (Ledger.endWorker w)).setPhase u (.ended w failure)
    | .ended w failure =>
      match Ledger.OnEntry.report s.entry w d.ledger with
      | (l, .ok ()) => { d with ledger := l }.setPhase u (.reported failure)
      | (l, .error _) => { d with ledger := l }.setPhase u .faulted
    | .reported failure =>
      let d := match failure with
        | some cause => d.onLedger (Ledger.warn (.unitFailed s.owner s.key cause))
        | none => d
      (d.countOff s.executor failure).setPhase u (.completed failure)
    | .faulted => (d.countOff s.executor (some s.cancelled)).setPhase u .abandoned
    | .completed _ => d
    | .abandoned => d

/-- Lets units proceed in the order of a schedule. -/
def follow (schedule : List UnitId) (d : Dispatch) : Dispatch :=
  schedule.foldl (fun d u => d.proceed u) d

/-- A unit from the queue to its end, without a pause. -/
def straight (u : UnitId) : List UnitId := List.replicate 5 u

/-- The units in some phases, in order of submission. -/
def unitsIn (p : Phase → Bool) (d : Dispatch) : List UnitId :=
  d.units.toList.zipIdx.filterMap fun (s, u) => if p s.phase then some u else none

/-- The units that wait for a thread. -/
def queue (d : Dispatch) : List UnitId := d.unitsIn (· == .queued)

/-- One thread sees some units through. -/
def seeThrough (us : List UnitId) (d : Dispatch) : Dispatch := d.follow (us.flatMap straight)

/-- One thread sees every unit through. -/
def drain (d : Dispatch) : Dispatch := d.seeThrough (d.unitsIn fun p => !p.over)

-- ============================================================ executors

/-- A new executor. -/
def addExecutor (x : Executor) (d : Dispatch) : Dispatch × ExecutorId :=
  ({ d with executors := d.executors.push x }, d.executors.size)

/-- Submits a unit. A direct executor runs it, a pooled one registers a
worker for it and queues it. -/
def submit (x : ExecutorId) (w : Work) (d : Dispatch) :
    Dispatch × Except Fault (Except Error Unit) :=
  match d.executors[x]? with
  | none => (d, .ok (.ok ()))
  | some (.direct _) =>
    match d.perform w with
    | (d, .error f) => (d, .error f)
    | (d, .ok none) => (d, .ok (.ok ()))
    | (d, .ok (some cause)) => (d, .ok (.error (.unit w.action cause)))
  | some (.pooled s) =>
    let key := s.nextKey w
    let d := d.onLedger (Ledger.OnEntry.does s.entry fun t => Ledger.enlist t key .worker)
    let d := d.onPooled x fun s =>
      { s with sequence := s.sequence + 1, outstanding := s.outstanding + 1 }
    let unit : Submitted := { executor := x, owner := s.owner, entry := s.entry, key, work := w }
    let u := d.units.size
    let d := { d with units := d.units.push unit }
    (if d.stopped then d.proceed u else d, .ok (.ok ()))

/-- The owner starts to wait for its units. -/
def beginAwait (x : ExecutorId) (d : Dispatch) : Dispatch :=
  match d.pooled? x with
  | some s => d.onLedger (Ledger.OnEntry.does s.entry Ledger.await)
  | none => d

/-- The owner goes on once no unit is outstanding, and is told the causes
that came up. Nothing comes of it while one is. -/
def endAwait (x : ExecutorId) (d : Dispatch) : Option (Dispatch × Except Error Unit) :=
  match d.pooled? x with
  | none => some (d, .ok ())
  | some s =>
    if s.outstanding = 0 then
      some (d.onPooled x fun s => { s with failures := [] },
        if s.failures.isEmpty then .ok () else .error (.workers s.failures))
    else none

/-- The owner gives control back; nobody waits. -/
def release (x : ExecutorId) (d : Dispatch) : Dispatch :=
  match d.pooled? x with
  | some s => d.onLedger (Ledger.OnEntry.does s.entry Ledger.close)
  | none => d

/-- The pool stops. -/
def stop (d : Dispatch) : Dispatch := { d with stopped := true }

/-- Every unit is seen through, and then the owner waits. With nothing left
in the pool the wait is over at once. -/
def drainAndAwait (x : ExecutorId) (d : Dispatch) : Dispatch × Except Error Unit :=
  let d := d.drain.beginAwait x
  (d.endAwait x).getD (d, .ok ())

end Dispatch

end TaskLedger
