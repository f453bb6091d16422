/-
Spans, the intervals a ledger persists, and the records that carry them.

A span holds milliseconds in 64 bits, since that is what its text form
holds; the instants and durations it comes from are finer. Ids are
64-bit words too: a span without an id is one that was measured inside
another (a child), or one from a file that gave it none.
-/
import TaskLedger.Time.Instant

namespace TaskLedger

/-- The number a span is known by in its file. -/
abbrev SpanId := UInt64

/-- Whose time a span measures. -/
inductive SpanKind
  /-- A task, from its start to the end of its last worker. -/
  | task
  /-- A unit of work done for a task. -/
  | worker
  /-- An interval on a thread of the task itself. -/
  | thread
  deriving DecidableEq, Repr

namespace SpanKind

/-- The written names. -/
def name : SpanKind → String
  | .task => "task_execution"
  | .worker => "worker_execution"
  | .thread => "thread_execution"

/-- The names inside the texts meant for a programmer. -/
def debugName : SpanKind → String
  | .task => "TaskExecution"
  | .worker => "WorkerExecution"
  | .thread => "ThreadExecution"

/-- Every kind, in the order messages list them. -/
def all : List SpanKind := [.task, .worker, .thread]

end SpanKind

/-- One persisted interval. -/
structure Span where
  id : Option SpanId := none
  parent : Option SpanId := none
  kind : SpanKind
  startMs : Int64
  durationMs : Int64
  thread : Option UInt64 := none
  task : Option String := none
  deriving DecidableEq, Repr

/-- The span of an interval: its start floored, its length cut. -/
def Span.ofInterval (kind : SpanKind) (start : Instant) (length : Duration) : Span where
  kind := kind
  startMs := Int64.ofInt start.millis
  durationMs := Int64.ofInt length.millis

/-- A span with the project it belongs to and the spans measured inside it. -/
structure SpanRecord where
  project : String
  variant : Option String := none
  span : Span
  children : List Span := []
  deriving DecidableEq, Repr

/-- The ids a record uses up: its span's and its children's. -/
def SpanRecord.ids (r : SpanRecord) : List SpanId :=
  (r.span :: r.children).filterMap Span.id

end TaskLedger
