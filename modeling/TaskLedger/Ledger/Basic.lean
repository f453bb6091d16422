/-
A ledger: the clock, the tasks and workers on record, the sinks and what
was written to them, and the registry of the tasks that are not done yet.

Tasks, workers and sinks are numbered in the order they came and stay in
their tables for good, so a number that was given out stays valid when a
worker is replaced, a task leaves the registry, or another sink is
opened. The journal holds every record that was offered to a sink, the
refused ones included.

Operations answer `Except Fault` where they can stop midway. The ledger
that they leave then comes with the fault.
-/
import TaskLedger.Ledger.Notice
import TaskLedger.SpanFile.Read

namespace TaskLedger

/-- The whole of the bookkeeping. -/
structure Ledger where
  now : Instant := .epoch
  /-- What the wall clock shows. Only stand-ins look at it. -/
  wall : Instant := .epoch
  tree : Files.Tree := {}
  sinks : Array Sink := #[]
  tasks : Array Task := #[]
  workers : Array Worker := #[]
  journal : List Write := []
  marks : List Mark := []
  warnings : List Warning := []
  /-- The sink of the tasks that the scheduler starts. -/
  sink : SinkId := 0
  /-- The tasks that the scheduler started and that are not done, by path. -/
  registry : List (String × TaskId) := []

namespace Ledger

-- ================================================================ clock

/-- Moves the clock to so many milliseconds after the epoch. -/
def setClock (ms : Int) (l : Ledger) : Ledger × Except Fault Unit :=
  match Instant.ofMillis ms with
  | .ok t => ({ l with now := t }, .ok ())
  | .error f => (l, .error f)

/-- Moves the clock by a duration. -/
def advance (ms ns : Int) (l : Ledger) : Ledger × Except Fault Unit :=
  match Duration.ofParts ms ns >>= l.now.shift with
  | .ok t => ({ l with now := t }, .ok ())
  | .error f => (l, .error f)

-- ================================================================ sinks

/-- Takes a number from a sink. -/
def allocate (s : SinkId) (l : Ledger) : Ledger × Except Fault SpanId :=
  match l.sinks[s]? with
  | some k => ({ l with sinks := l.sinks.setIfInBounds s k.next.1 }, k.next.2)
  | none => (l, .error .sumRange)

/-- The writes that a sink was offered. -/
def offered (s : SinkId) (l : Ledger) : List Write := l.journal.filter fun w => w.sink == s

/-- The records that a sink took. -/
def taken (s : SinkId) (l : Ledger) : List SpanRecord :=
  ((l.offered s).filter Write.taken).map Write.record

/-- Offers a record to a sink. -/
def write (s : SinkId) (origin : Origin) (r : SpanRecord) (l : Ledger) :
    Ledger × Except Error Unit :=
  match l.sinks[s]? with
  | none => (l, .ok ())
  | some k =>
    let refused := k.refuses (l.journal.countP fun w => w.sink == s) r
    let noted := { l with journal := l.journal ++ [⟨s, origin, r, refused⟩] }
    match refused, k.outlet with
    | some e, _ => (noted, .error e)
    | none, .file _ place =>
      ({ noted with tree := noted.tree.append place (SpanFile.line r) }, .ok ())
    | none, _ => (noted, .ok ())

/-- Opens the file sink of a path. The numbers go on after the largest one
in the file. -/
def openFile (path : String) (l : Ledger) : Ledger × Except Error Sink :=
  match Files.makeParents l.tree path with
  | (tree, .error e) => ({ l with tree := tree }, .error (.file e))
  | (tree, .ok ()) =>
    let last : Except Error SpanId :=
      if Files.isThere tree path then
        match Files.read tree path with
        | .error e => .error (.file e)
        | .ok bytes => (SpanFile.records bytes).map SpanFile.lastId
      else .ok 0
    match last, Files.openFile tree path with
    | .error e, _ => ({ l with tree := tree }, .error e)
    | .ok _, (tree, .error e) => ({ l with tree := tree }, .error (.file e))
    | .ok last, (tree, .ok place) =>
      ({ l with tree := tree }, .ok { outlet := .file path place, last := last })

/-- The sink a request asks for. -/
def prepare (spec : SinkSpec) (l : Ledger) : Ledger × Except Error Sink :=
  match spec with
  | .memory => (l, .ok { outlet := .memory })
  | .events => (l, .ok { outlet := .events })
  | .picky kinds => (l, .ok { outlet := .memory, refuses := Sink.refusingKinds kinds })
  | .file path => l.openFile path

/-- Opens a sink and starts a registry for it. What was there before stays,
and is no longer looked at. -/
def attachSink (spec : SinkSpec) (l : Ledger) : Ledger × Except Error Unit :=
  match l.prepare spec with
  | (l, .error e) => (l, .error e)
  | (l, .ok k) =>
    ({ l with sinks := l.sinks.push k, sink := l.sinks.size, registry := [] }, .ok ())

-- =============================================================== tables

/-- Changes one task. -/
def onTask (t : TaskId) (f : Task → Task) (l : Ledger) : Ledger :=
  { l with tasks := l.tasks.modify t f }

/-- Changes one worker. -/
def onWorker (w : WorkerId) (f : Worker → Worker) (l : Ledger) : Ledger :=
  { l with workers := l.workers.modify w f }

/-- The workers of a task. -/
def crewOf (task : Task) (l : Ledger) : List Worker :=
  task.crew.filterMap fun m => l.workers[m.2]?

/-- All workers of a task have ended. -/
def idle (task : Task) (l : Ledger) : Bool := Worker.allFinished (l.crewOf task)

/-- Tells an observer. -/
def warn (w : Warning) (l : Ledger) : Ledger := { l with warnings := l.warnings ++ [w] }

end Ledger

end TaskLedger
