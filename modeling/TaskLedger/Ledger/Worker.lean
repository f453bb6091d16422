/-
Workers: the bookkeeping of one unit of work for its task. A worker is
created when the unit is queued, started and ended when it runs, and both
marks may be set again. Waits and durations that would run backwards,
because the clock did, count as none.

A stand-in is what a look-up finds where no worker is registered. It
reads the wall clock, so its times are nobody's business; all else about
it is like any worker's.
-/
import TaskLedger.Span.Basic
import TaskLedger.Text.Quoted
import TaskLedger.Time.Calendar

namespace TaskLedger

/-- The bookkeeping of one unit of work. -/
structure Worker where
  path : String
  kind : SpanKind
  standIn : Bool := false
  created : Instant
  started : Option Instant := none
  ended : Option Instant := none
  deriving DecidableEq, Repr

namespace Worker

/-- The path that stand-ins and untracked owners go by. -/
def standInPath : String := "dummy"

/-- A worker for a look-up that finds none, started at once. -/
def forNobody (wall : Instant) : Worker where
  path := standInPath
  kind := .worker
  standIn := true
  created := wall
  started := some wall

/-- It has ended. -/
def finished (w : Worker) : Bool := w.ended.isSome

/-- From its creation to its start. -/
def wait (w : Worker) : Duration :=
  match w.started with
  | some s => (s.since w.created).clamp
  | none => .zero

/-- From its start to its end. -/
def duration (w : Worker) : Duration :=
  match w.started, w.ended with
  | some s, some e => (e.since s).clamp
  | _, _ => .zero

/-- Its span. One that never started is placed at its creation. -/
def span (w : Worker) (id parent : SpanId) : Span :=
  { Span.ofInterval w.kind (w.started.getD w.created) w.duration with
    id := some id, parent := some parent }

/-- An optional instant as a programmer is shown it. -/
def debugInstant : Option Instant → String
  | some t => "Some(" ++ Calendar.text t ++ ")"
  | none => "None"

/-- A worker as a programmer is shown it. -/
def debug (w : Worker) : String :=
  "WorkerRecord \x7b task_path: " ++ Text.quote w.path
    ++ ", execution_type: " ++ w.kind.debugName
    ++ ", created_at: " ++ Calendar.text w.created
    ++ ", started_at: " ++ debugInstant w.started
    ++ ", ended_at: " ++ debugInstant w.ended ++ " \x7d"

-- ================================================================ crews

/-- All of a task's workers have ended. -/
def allFinished (crew : List Worker) : Bool := crew.all finished

/-- The latest end among them. -/
def lastEnd? (crew : List Worker) : Option Instant := Instant.latest? (crew.filterMap ended)

/-- The shortest wait among them, none without any. -/
def leastWait (crew : List Worker) : Duration :=
  match crew with
  | [] => .zero
  | w :: ws => (ws.map wait).foldl Duration.min w.wait

end Worker

end TaskLedger
