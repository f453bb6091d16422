/-
Executors: how a task has its units of work done.

A direct executor runs a unit where it is submitted. A pooled one queues
it for the threads of a pool; it counts the units that are not completed
and keeps the causes of the failed ones until somebody waits for them.
A unit on the pool goes through its phases in one order, each step of
which may come at any time.
-/
import TaskLedger.Dispatch.Work
import TaskLedger.Ledger.Op

namespace TaskLedger

/-- A place in the table of executors. -/
abbrev ExecutorId := Nat

/-- The state of a pooled executor. -/
structure PooledState where
  owner : String
  entry : Entry
  /-- Goes into the keys, so that each submission has its own. -/
  sequence : UInt64 := 0
  /-- Units submitted and not completed. -/
  outstanding : Nat := 0
  /-- The causes nobody has been told of. -/
  failures : List String := []
  deriving DecidableEq, Repr

/-- The key of the next unit that the executor is given. -/
def PooledState.nextKey (s : PooledState) (w : Work) : String :=
  w.key s.owner ++ "#" ++ toString s.sequence

/-- A way to have units done for an owner. -/
inductive Executor
  | direct (owner : String)
  | pooled (s : PooledState)
  deriving DecidableEq, Repr

/-- How far a unit on the pool has come. -/
inductive Phase
  | queued
  /-- A thread has taken it, and its worker started. -/
  | begun (w : WorkerId)
  /-- It was run, with a cause if it failed. -/
  | ran (w : WorkerId) (failure : Option String)
  /-- Its worker ended. -/
  | ended (w : WorkerId) (failure : Option String)
  /-- Its worker reported to the task. -/
  | reported (failure : Option String)
  /-- The report stopped midway. -/
  | faulted
  /-- It was counted off. -/
  | completed (failure : Option String)
  /-- It was counted off as cancelled. -/
  | abandoned
  deriving DecidableEq, Repr

/-- Nothing more happens to it. -/
def Phase.over : Phase → Bool
  | .completed _ | .abandoned => true
  | _ => false

/-- A unit that was submitted to a pooled executor. -/
structure Submitted where
  executor : ExecutorId
  owner : String
  entry : Entry
  key : String
  work : Work
  phase : Phase := .queued
  deriving DecidableEq, Repr

/-- What an executor reports for a unit that it did not see through. -/
def Submitted.cancelled (u : Submitted) : String := u.work.action ++ ": cancelled before it ran"

/-- How a unit on the pool turned out, once its worker reported. -/
def Submitted.succeeded? (u : Submitted) : Option Bool :=
  match u.phase with
  | .reported f | .completed f => some f.isNone
  | _ => none

end TaskLedger
