/-
Every operation on a ledger as a value, so that a history is a list. The
clock, the scheduler, the tasks themselves and the threads that work for
them all act through these, in any order.
-/
import TaskLedger.Ledger.Registry

namespace TaskLedger

/-- An operation on a ledger. -/
inductive LedgerOp
  | setClock (ms : Int)
  | advance (ms ns : Int)
  /-- The wall clock shows another time. -/
  | setWall (t : Instant)
  /-- The scheduler starts a task. -/
  | startTask (path project : String) (variant : Option String)
  /-- A task is put on record without the scheduler. -/
  | addTask (path project : String) (variant : Option String)
  /-- The scheduler is done with a task. -/
  | finishTask (path : String)
  | flush
  | endBuild
  | await (e : Entry)
  | close (e : Entry)
  | finish (e : Entry)
  | attach (e : Entry) (kind : SpanKind) (thread : UInt64) (start : Instant) (length : Duration)
  | conclude (e : Entry)
  | enlist (e : Entry) (key : String) (kind : SpanKind)
  | lookUp (e : Entry) (key : String)
  | addWorker (path : String) (kind : SpanKind)
  | startWorker (w : WorkerId)
  | endWorker (w : WorkerId)
  | report (e : Entry) (w : WorkerId)
  /-- A number is taken from the sink. -/
  | allocate
  /-- A record is offered to the sink on nobody's behalf. -/
  | write (r : SpanRecord)
  deriving DecidableEq, Repr

/-- What an operation answers. -/
inductive LedgerAnswer
  | done
  | yes (b : Bool)
  | count (n : Nat)
  | task (t : TaskId)
  | worker (w : WorkerId)
  | number (id : SpanId)
  | refused (e : Error)
  deriving DecidableEq, Repr

namespace LedgerOp

open Ledger

/-- Carries out an operation. -/
def apply (op : LedgerOp) (l : Ledger) : Ledger × Except Fault LedgerAnswer :=
  match op with
  | setClock ms => done (l.setClock ms)
  | advance ms ns => done (l.advance ms ns)
  | setWall t => ({ l with wall := t }, .ok .done)
  | startTask path project variant => answer .task (l.startTask path project variant)
  | addTask path project variant => answer .task (l.addTask path project variant l.sink)
  | finishTask path => plain .yes (l.finishTask path)
  | flush => plain .count l.flush
  | endBuild => plain .count l.endBuild
  | await e => (OnEntry.does e Ledger.await l, .ok .done)
  | close e => (OnEntry.does e Ledger.close l, .ok .done)
  | finish e => (OnEntry.does e Ledger.finish l, .ok .done)
  | attach e kind thread start length =>
    (OnEntry.does e (fun t => Ledger.attach t kind thread start length) l, .ok .done)
  | conclude e => plain .yes (OnEntry.conclude e l)
  | enlist e key kind => (OnEntry.does e (fun t => Ledger.enlist t key kind) l, .ok .done)
  | lookUp e key => plain .worker (OnEntry.lookUp e key l)
  | addWorker path kind => plain .worker (l.addWorker path kind)
  | startWorker w => (l.startWorker w, .ok .done)
  | endWorker w => (l.endWorker w, .ok .done)
  | report e w => done (OnEntry.report e w l)
  | allocate => answer .number (l.allocate l.sink)
  | write r =>
    match l.write l.sink .direct r with
    | (l, .ok ()) => (l, .ok .done)
    | (l, .error e) => (l, .ok (.refused e))
where
  /-- An operation that cannot stop midway. -/
  plain {α : Type} (f : α → LedgerAnswer) (r : Ledger × α) : Ledger × Except Fault LedgerAnswer :=
    (r.1, .ok (f r.2))
  /-- An operation that can. -/
  answer {α : Type} (f : α → LedgerAnswer) (r : Ledger × Except Fault α) :
      Ledger × Except Fault LedgerAnswer :=
    (r.1, r.2.map f)
  /-- One that answers nothing else. -/
  done (r : Ledger × Except Fault Unit) : Ledger × Except Fault LedgerAnswer :=
    (r.1, r.2.map fun _ => .done)

/-- Carries out operations one after another and lists their answers. -/
def run : List LedgerOp → Ledger → Ledger × List (Except Fault LedgerAnswer)
  | [], l => (l, [])
  | op :: rest, l =>
    let (l, a) := op.apply l
    let (l, as) := run rest l
    (l, a :: as)

end LedgerOp

end TaskLedger
