/-
What a session shows: tasks, entries, workers, what a sink holds, and
what an observer was told. A view is taken at one moment and does not
change with what it was taken of.
-/
import TaskLedger.Session.Step

namespace TaskLedger.Session

-- ================================================================ tasks

/-- The state of a task. -/
structure TaskView where
  status : TaskStatus
  ended : Option Instant
  closed : Option Instant
  workers : Nat
  idle : Bool
  duration : Duration
  leastWait : Duration
  lastEnd : Option Instant
  deriving DecidableEq, Repr

/-- The state of an entry, and of its task if it has one. -/
structure EntryView where
  path : String
  idle : Bool
  duration : Duration
  task : Option TaskView
  deriving DecidableEq, Repr

/-- A task at this moment. -/
def viewTask (l : Ledger) (t : Task) : TaskView :=
  let crew := l.crewOf t
  { status := t.status, ended := t.ended, closed := t.closed, workers := t.crew.length,
    idle := Worker.allFinished crew, duration := t.duration crew,
    leastWait := Worker.leastWait crew, lastEnd := Worker.lastEnd? crew }

/-- The task behind an entry. -/
def taskOf? (l : Ledger) : Entry → Option Task
  | .task t => l.tasks[t]?
  | .untracked => none

/-- An entry at this moment. -/
def viewEntry (l : Ledger) (e : Entry) : EntryView :=
  match taskOf? l e with
  | some t =>
    let v := viewTask l t
    { path := t.path, idle := v.idle, duration := v.duration, task := some v }
  | none => { path := Worker.standInPath, idle := true, duration := .zero, task := none }

-- ================================================================ sinks

/-- Something that a sink holds. The times of a stand-in's span are not to
be shown. -/
inductive Shown
  | record (r : SpanRecord) (standIn : Bool)
  | event (r : SpanRecord) (standIn : Bool)
  | line (text : String)
  deriving DecidableEq, Repr

/-- A record was written for a stand-in. -/
def ofStandIn (l : Ledger) : Origin → Bool
  | .worker _ w => (l.workers[w]?.map Worker.standIn).getD false
  | _ => false

/-- A sink announces its records. -/
def announces (l : Ledger) (s : SinkId) : Bool :=
  match l.sinks[s]? with
  | some k => k.outlet == .events
  | none => false

/-- The lines of a file as texts, each with its end. -/
def linesOf (bytes : List UInt8) : List Shown :=
  (SpanFile.lines bytes).map fun line => .line (Text.Utf8.string? line |>.getD "")

/-- What the ledger's sink holds: the lines of its file if they are asked
for and there is one, and else its records. All sinks that announce their
records share one stream of events. -/
def contents (l : Ledger) (asLines : Bool) : Except Error (List Shown) :=
  match l.sinks[l.sink]? with
  | none => .ok []
  | some k =>
    match k.outlet with
    | .memory => .ok (((l.offered l.sink).filter Write.taken).map fun w =>
        .record w.record (ofStandIn l w.origin))
    | .events => .ok ((l.journal.filter fun w => announces l w.sink && w.taken).map fun w =>
        .event w.record (ofStandIn l w.origin))
    | .file path _ =>
      match Files.read l.tree path with
      | .error e => .error (.file e)
      | .ok bytes =>
        if asLines then .ok (linesOf bytes)
        else (SpanFile.records bytes).map fun rs => rs.map fun r => .record r false

-- ============================================================= notices

/-- A beginning that an observer was told of. -/
inductive Begun
  | task (path project : String) (length : Option Duration)
  | unit (owner action key : String) (succeeded : Option Bool)
  deriving DecidableEq, Repr

/-- The beginnings so far. -/
def begun (d : Dispatch) : List Begun :=
  d.ledger.marks.filterMap fun
    | .task t length => d.ledger.tasks[t]?.map fun k => .task k.path k.project length
    | .unit u => d.units[u]?.map fun s => .unit s.owner s.work.action s.key s.succeeded?

-- ============================================================ executors

/-- A pooled executor as a programmer is shown it. -/
def debugPooled (l : Ledger) (s : PooledState) : String :=
  "PooledExecutor \x7b owner: " ++ Text.quote s.owner
    ++ ", ledger: " ++ Text.quote (Ledger.OnEntry.path s.entry l)
    ++ ", outstanding: " ++ toString s.outstanding ++ " \x7d"

/-- A direct executor as a programmer is shown it. -/
def debugDirect (owner : String) : String :=
  "DirectExecutor \x7b owner: " ++ Text.quote owner ++ " \x7d"

/-- What is told about an executor. -/
inductive ExecutorView
  /-- Nothing: the session chose it. -/
  | chosen
  | direct (debug : String)
  | pooled (owner : String) (outstanding : Nat) (entry : EntryView) (debug : String)
  deriving DecidableEq, Repr

-- ============================================================== answers

/-- What came of handing a unit to an executor, or of waiting for one. -/
abbrev Result := Except Fault (Except Error Unit)

/-- What a step answers. -/
inductive Answer
  | fault (f : Fault)
  | error (e : Error)
  | ok
  | time (t : Instant)
  | yes (b : Bool)
  | count (n : Nat)
  | id (n : SpanId)
  | paths (ps : List String)
  | text (s : String)
  | started (id : SpanId) (start : Instant)
  | entry (v : EntryView)
  | info (t : Task)
  | task (v : TaskView) (wrote : Option Bool)
  | ofEntry (v : EntryView) (wrote : Option Bool)
  | worker (w : Worker)
  | span (s : Span) (standIn : Bool)
  | contents (cs : List Shown)
  | sizes (n : Nat)
  | built (n : Nat) (cs : List Shown)
  | pooled (b : Bool)
  | submitted (r : Result) (ran : List String) (now : Instant)
  | stepped (n : Nat) (ran : List String) (now : Instant)
  | ran (actions : List String)
  | executor (v : ExecutorView)
  | trace (begun : List Begun) (warnings : List Warning)
  /-- A name that stands for nothing. -/
  | unknown

end TaskLedger.Session
