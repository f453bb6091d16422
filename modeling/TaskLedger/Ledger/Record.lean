/-
The operations on one task and on one worker, given by their numbers. An
operation on a number that was never given out changes nothing.

An entry stands for the task that some work belongs to, or for no task:
then every operation is accepted and nothing is recorded.
-/
import TaskLedger.Ledger.Basic

namespace TaskLedger

/-- The task that some work is recorded for, if it is recorded at all. -/
inductive Entry
  | task (t : TaskId)
  | untracked
  deriving DecidableEq, Repr

namespace Ledger

-- ================================================================ tasks

/-- A new task with a number from a sink. It is not registered. -/
def addTask (path project : String) (variant : Option String) (s : SinkId) (l : Ledger) :
    Ledger × Except Fault TaskId :=
  match l.allocate s with
  | (l, .error f) => (l, .error f)
  | (l, .ok id) =>
    ({ l with tasks := l.tasks.push { path, project, variant, id, sink := s, start := l.now } },
      .ok l.tasks.size)

/-- A task blocks on its workers. -/
def await (t : TaskId) (l : Ledger) : Ledger := l.onTask t Task.await

/-- A task gives control back. -/
def close (t : TaskId) (l : Ledger) : Ledger := l.onTask t (Task.close l.now)

/-- The scheduler is done with a task. -/
def finish (t : TaskId) (l : Ledger) : Ledger := l.onTask t (Task.finish l.now)

/-- Adds an interval that a task measured itself. -/
def attach (t : TaskId) (kind : SpanKind) (thread : UInt64) (start : Instant) (length : Duration)
    (l : Ledger) : Ledger :=
  l.onTask t (Task.attach kind thread start length)

/-- Writes the span of a task, unless that has been done. Answers whether
this call did. -/
def conclude (t : TaskId) (l : Ledger) : Ledger × Bool :=
  match l.tasks[t]? with
  | none => (l, false)
  | some task =>
    if task.status.terminal then (l, false)
    else
      let l := l.onTask t Task.concluded
      match l.write task.sink (.task t)
          (task.record (task.span (l.crewOf task)) task.children) with
      | (l, .ok ()) => (l, true)
      | (l, .error e) => (l.warn (.taskSpanLost task.path e), true)

-- ============================================================== workers

/-- A new worker that belongs to no crew. -/
def addWorker (path : String) (kind : SpanKind) (l : Ledger) : Ledger × WorkerId :=
  ({ l with workers := l.workers.push { path, kind, created := l.now } }, l.workers.size)

/-- A new stand-in. -/
def addStandIn (l : Ledger) : Ledger × WorkerId :=
  ({ l with workers := l.workers.push (Worker.forNobody l.wall) }, l.workers.size)

/-- Enters a new worker into the crew of a task. -/
def enlist (t : TaskId) (key : String) (kind : SpanKind) (l : Ledger) : Ledger :=
  match l.tasks[t]? with
  | none => l
  | some task =>
    let (l, w) := l.addWorker task.path kind
    l.onTask t (Task.enlist key w)

/-- The worker under a key, or else a stand-in. -/
def lookUp (t : TaskId) (key : String) (l : Ledger) : Ledger × WorkerId :=
  match l.tasks[t]?.bind fun task => task.crew.lookup key with
  | some w => (l, w)
  | none => l.addStandIn

/-- The clock that a worker reads. -/
def clockOf (w : Worker) (l : Ledger) : Instant := if w.standIn then l.wall else l.now

/-- A worker starts. -/
def startWorker (w : WorkerId) (l : Ledger) : Ledger :=
  l.onWorker w fun k => { k with started := some (l.clockOf k) }

/-- A worker ends. -/
def endWorker (w : WorkerId) (l : Ledger) : Ledger :=
  l.onWorker w fun k => { k with ended := some (l.clockOf k) }

/-- A worker reports to a task: its span is written, and the task notes
that one less may be at work. Without a number for the span it all stops
before anything is written. -/
def report (t : TaskId) (w : WorkerId) (l : Ledger) : Ledger × Except Fault Unit :=
  match l.tasks[t]?, l.workers[w]? with
  | some task, some worker =>
    match l.allocate task.sink with
    | (l, .error f) => (l, .error f)
    | (l, .ok id) =>
      let (l, answer) :=
        l.write task.sink (.worker t w) (task.record (worker.span id task.id) [])
      let l := match answer with
        | .ok () => l
        | .error e => l.warn (.workerSpanLost task.path e)
      (l.onTask t (Task.noteReport l.now (l.idle task)), .ok ())
  | _, _ => (l, .ok ())

-- ============================================================== entries

namespace OnEntry

/-- The path an entry goes by. -/
def path (e : Entry) (l : Ledger) : String :=
  match e with
  | .task t => (l.tasks[t]?.map Task.path).getD Worker.standInPath
  | .untracked => Worker.standInPath

/-- Does something for a task, and nothing for no task. -/
def does (e : Entry) (f : TaskId → Ledger → Ledger) (l : Ledger) : Ledger :=
  match e with
  | .task t => f t l
  | .untracked => l

/-- The worker under a key; for no task always a stand-in. -/
def lookUp (e : Entry) (key : String) (l : Ledger) : Ledger × WorkerId :=
  match e with
  | .task t => l.lookUp t key
  | .untracked => l.addStandIn

/-- A worker reports; for no task that is nothing. -/
def report (e : Entry) (w : WorkerId) (l : Ledger) : Ledger × Except Fault Unit :=
  match e with
  | .task t => l.report t w
  | .untracked => (l, .ok ())

/-- Writes the span of a task. -/
def conclude (e : Entry) (l : Ledger) : Ledger × Bool :=
  match e with
  | .task t => l.conclude t
  | .untracked => (l, false)

end OnEntry

end Ledger

end TaskLedger
