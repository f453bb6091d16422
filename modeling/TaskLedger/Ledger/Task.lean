/-
Tasks: what a ledger knows of one invocation. The functions here are the
moves of one task by itself; the ledger looks up the workers that the
task's crew names and hands them in as a list.

A concluded task is one whose span is written. That is the only move that
cannot be taken back: from then on the status, the two times and the
children stand still, and only the crew may grow.
-/
import TaskLedger.Ledger.Status
import TaskLedger.Ledger.Worker

namespace TaskLedger

/-- A place in the ledger's table of tasks. -/
abbrev TaskId := Nat

/-- A place in the ledger's table of workers. -/
abbrev WorkerId := Nat

/-- A place in the ledger's table of sinks. -/
abbrev SinkId := Nat

/-- The bookkeeping of one invocation of a task. -/
structure Task where
  path : String
  project : String
  variant : Option String
  id : SpanId
  sink : SinkId
  start : Instant
  status : TaskStatus := .running
  ended : Option Instant := none
  closed : Option Instant := none
  crew : List (String × WorkerId) := []
  children : List Span := []
  deriving DecidableEq, Repr

namespace Task

-- ============================================================ lifecycle

/-- It blocks on its workers. Only a task that runs can, or one that does
already. -/
def await (t : Task) : Task :=
  match t.status with
  | .running | .waiting => { t with status := .waiting }
  | _ => t

/-- It gives control back. -/
def close (now : Instant) (t : Task) : Task :=
  if t.status.terminal then t else { t with status := .closed, closed := some now }

/-- The scheduler is done with it. The first such report is its end, unless
it has one. -/
def finish (now : Instant) (t : Task) : Task :=
  if t.status.terminal then t
  else { t with status := .finished, ended := some (t.ended.getD now) }

/-- Its span is written. -/
def concluded (t : Task) : Task := { t with status := .spanClosed }

-- ================================================================= crew

/-- Enters a worker under a key, in place of the one that has it. -/
def enlist (key : String) (w : WorkerId) (t : Task) : Task :=
  { t with crew := t.crew.filter (fun m => m.1 != key) ++ [(key, w)] }

/-- A worker reported back. If the task gave up control and nobody works
for it any more, it ends now, or stays at a later end. -/
def noteReport (now : Instant) (idle : Bool) (t : Task) : Task :=
  if t.status.released && idle then
    { t with ended := some (match t.ended with
      | some e => e.max now
      | none => now) }
  else t

-- ================================================================ spans

/-- Adds an interval that the task measured itself. -/
def attach (kind : SpanKind) (thread : UInt64) (start : Instant) (length : Duration) (t : Task) :
    Task :=
  if t.status.terminal then t
  else
    { t with children := t.children ++
        [{ Span.ofInterval kind start length with parent := some t.id, thread := some thread }] }

/-- When it ended: at its own end or with its last worker. -/
def end? (t : Task) (crew : List Worker) : Option Instant :=
  match t.ended, Worker.lastEnd? crew with
  | some a, some b => some (a.max b)
  | some a, none => some a
  | none, b => b

/-- From its start to its end; none while there is no end. -/
def duration (t : Task) (crew : List Worker) : Duration :=
  match t.end? crew with
  | some e => (e.since t.start).clamp
  | none => .zero

/-- Its own span. -/
def span (t : Task) (crew : List Worker) : Span :=
  { Span.ofInterval .task t.start (t.duration crew) with id := some t.id, task := some t.path }

/-- A span as the sink gets it from this task. -/
def record (t : Task) (span : Span) (children : List Span) : SpanRecord where
  project := t.project
  variant := t.variant
  span := span
  children := children

/-- A task as a programmer is shown it. -/
def debug (t : Task) : String :=
  "TaskRecord \x7b task_path: " ++ Text.quote t.path
    ++ ", project_path: " ++ Text.quote t.project
    ++ ", variant: " ++ (match t.variant with
      | some v => "Some(" ++ Text.quote v ++ ")"
      | none => "None")
    ++ ", span_id: SpanId(" ++ toString t.id ++ ")"
    ++ ", status: " ++ t.status.debugName
    ++ ", workers: " ++ toString t.crew.length ++ " \x7d"

end Task

end TaskLedger
