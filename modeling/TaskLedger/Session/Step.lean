/-
The steps of a session. A session goes by names where the ledger goes by
numbers: a step that makes something gives it a name, and later steps use
that name.
-/
import TaskLedger.Dispatch.Pool

namespace TaskLedger

/-- The name that a step goes by for something made before. -/
abbrev Handle := String

namespace Session

/-- A span to be made: its start and its length in parts, and what is set
besides. -/
structure SpanSpec where
  kind : SpanKind
  startMs : Int := 0
  startNs : Int := 0
  lengthMs : Int := 0
  lengthNs : Int := 0
  id : Option SpanId := none
  parent : Option SpanId := none
  thread : Option UInt64 := none
  task : Option String := none
  deriving DecidableEq, Repr

/-- The start and the length. -/
def SpanSpec.times (s : SpanSpec) : Except Fault (Instant × Duration) := do
  let start ← Instant.ofParts s.startMs s.startNs
  let length ← Duration.ofParts s.lengthMs s.lengthNs
  return (start, length)

/-- The span, if its times are times. -/
def SpanSpec.span (s : SpanSpec) : Except Fault Span := do
  let (start, length) ← s.times
  return { Span.ofInterval s.kind start length with
    id := s.id, parent := s.parent, thread := s.thread, task := s.task }

/-- The span with its children. The children are made first, in order, so
of two faults theirs is the one that shows. -/
def SpanSpec.withChildren (s : SpanSpec) (children : List SpanSpec) :
    Except Fault (Span × List Span) := do
  let children ← children.mapM SpanSpec.span
  return (← s.span, children)

/-- Whom a step addresses. -/
inductive Target
  | record (name : Handle)
  | entry (name : Handle)
  deriving DecidableEq, Repr

/-- The ways to ask for an executor. -/
inductive ExecutorKind
  | direct
  | pooled
  /-- Whichever the session is set up for. -/
  | chosen
  deriving DecidableEq, Repr

/-- A step. `name` is what the thing it makes goes by. -/
inductive Step
  | setClock (ms : Int)
  | advance (ms ns : Int)
  | now
  | startTask (path project : String) (variant : Option String) (name : Handle)
  | addTask (path project : String) (variant : Option String) (name : Handle)
  | finishTask (path : String)
  | flush
  | pending
  | endBuild
  /-- The entry of a path, or of nobody. -/
  | entry (path : Option String) (name : Handle)
  | entryOf (record name : Handle)
  | info (record : Handle)
  | view (target : Target)
  | await (target : Target)
  | close (target : Target)
  | finish (target : Target)
  | conclude (target : Target)
  | enlist (target : Target) (key : String) (kind : SpanKind)
  | attach (target : Target) (spec : SpanSpec)
  | report (target : Target) (worker : Handle)
  | lookUp (target : Target) (key : String) (name : Handle)
  | addWorker (path : String) (kind : SpanKind) (name : Handle)
  | startWorker (worker : Handle)
  | endWorker (worker : Handle)
  | showWorker (worker : Handle)
  | debugWorker (worker : Handle)
  | spanOfWorker (worker : Handle) (id parent : SpanId)
  | allocate
  | write (project : String) (variant : Option String) (span : SpanSpec) (children : List SpanSpec)
  | records
  | text
  | length
  | reopen (sink : SinkSpec)
  | addExecutor (kind : ExecutorKind) (owner : String) (entry : Option Handle) (name : Handle)
  | submit (executor : Handle) (work : Work)
  | runNext (n : Nat)
  | awaitAll (executor : Handle)
  | release (executor : Handle)
  | stop
  | describe (executor : Handle)
  | trace
  deriving DecidableEq, Repr

end Session

end TaskLedger
