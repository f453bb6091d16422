/-
The scheduler's side: tasks are registered when they start and leave the
registry when their span is written. A task whose workers are still at
work when the scheduler is done with it stays until a sweep finds it idle,
or until the build ends.

A sweep visits its tasks one by one. The order is an argument of
`flushOver` and `drainOver`; the public sweeps go by the numbers of the
tasks' spans.
-/
import TaskLedger.Ledger.Record

namespace TaskLedger.Ledger

/-- Registers a task under its path, in place of the one that has it. -/
def register (path : String) (t : TaskId) (l : Ledger) : Ledger :=
  { l with registry := l.registry.filter (fun e => e.1 != path) ++ [(path, t)] }

/-- Takes a path out of the registry. -/
def unregister (path : String) (l : Ledger) : Ledger :=
  { l with registry := l.registry.filter fun e => e.1 != path }

/-- The task that is registered under a path. -/
def registered? (path : String) (l : Ledger) : Option TaskId := l.registry.lookup path

/-- The entry of an owner. -/
def entryOf (owner : String) (l : Ledger) : Entry :=
  match l.registered? owner with
  | some t => .task t
  | none => .untracked

/-- The paths of the registered tasks, in order. -/
def pending (l : Ledger) : List String := (l.registry.map Prod.fst).mergeSort

/-- A task starts. -/
def startTask (path project : String) (variant : Option String) (l : Ledger) :
    Ledger × Except Fault TaskId :=
  match l.addTask path project variant l.sink with
  | (l, .error f) => (l, .error f)
  | (l, .ok t) =>
    let before := l.registered? path
    let l := { l.register path t with marks := l.marks ++ [.task t none] }
    (if before.isSome then l.warn (.displaced path) else l, .ok t)

/-- Fills in the length of a task on its mark. -/
def markLength (t : TaskId) (l : Ledger) : Ledger :=
  match l.tasks[t]? with
  | none => l
  | some task =>
    let length := task.duration (l.crewOf task)
    { l with marks := l.marks.map fun
        | .task u none => if u = t then .task u (some length) else .task u none
        | m => m }

/-- Writes the span of a task for the scheduler. Answers whether this call
did. -/
def concludeAndMark (t : TaskId) (l : Ledger) : Ledger × Bool :=
  match l.conclude t with
  | (l, true) => (l.markLength t, true)
  | (l, false) => (l, false)

/-- Takes a task out of the registry and writes its span. -/
def settle (path : String) (l : Ledger) : Ledger × Bool :=
  match l.registered? path with
  | none => (l, false)
  | some t => (l.unregister path).concludeAndMark t

/-- The scheduler is done with the task of a path. Its span is written at
once if nobody works for it. Answers whether that was done. -/
def finishTask (path : String) (l : Ledger) : Ledger × Bool :=
  match l.registered? path with
  | none => (l, false)
  | some t =>
    let l := l.finish t
    match l.tasks[t]? with
    | none => (l, false)
    | some task => if l.idle task then l.settle path else (l, false)

-- =============================================================== sweeps

/-- Does something for each of a list and counts the times it answers yes. -/
def countOver {α : Type} (f : α → Ledger → Ledger × Bool) : List α → Ledger → Ledger × Nat
  | [], l => (l, 0)
  | a :: rest, l =>
    let (l, yes) := f a l
    let (l, n) := countOver f rest l
    (l, if yes then n + 1 else n)

/-- A task that only waits for its span to be written. -/
def ready (t : TaskId) (l : Ledger) : Bool :=
  match l.tasks[t]? with
  | some task => task.status == .finished && l.idle task
  | none => false

/-- The number of a task's span. -/
def spanIdOf (t : TaskId) (l : Ledger) : SpanId := (l.tasks[t]?.map Task.id).getD 0

/-- The registry by the numbers of the tasks' spans. -/
def byId (l : Ledger) : List (String × TaskId) :=
  l.registry.mergeSort fun a b => decide (l.spanIdOf a.2 ≤ l.spanIdOf b.2)

/-- Writes the spans of the tasks of some paths. -/
def flushOver (paths : List String) (l : Ledger) : Ledger × Nat := countOver settle paths l

/-- The paths whose tasks only wait for their spans to be written. -/
def readyPaths (l : Ledger) : List String :=
  (l.byId.filter fun e => l.ready e.2).map Prod.fst

/-- Writes the spans of the tasks that only wait for that. -/
def flush (l : Ledger) : Ledger × Nat := l.flushOver l.readyPaths

/-- The build ended: a task that is left over counts as done, whoever may
still work for it. -/
def wrapUp (t : TaskId) (l : Ledger) : Ledger × Bool :=
  match l.tasks[t]? with
  | none => (l, false)
  | some task =>
    let l := if l.idle task then l else l.warn (.stillRunning task.path)
    (l.finish t).concludeAndMark t

/-- Empties the registry and wraps up some tasks. -/
def drainOver (ts : List TaskId) (l : Ledger) : Ledger × Nat :=
  countOver wrapUp ts { l with registry := [] }

/-- The build ended. -/
def endBuild (l : Ledger) : Ledger × Nat := l.drainOver (l.byId.map Prod.snd)

end TaskLedger.Ledger
