/-
Simulated builds: a chain of tasks, each of which hands its units to an
executor, gives control back, and is waited for by the next. The units do
nothing but take time, and one of three takes longer than the one before.

The build is a list of moves of one thread. Between any two of them the
threads of the pool may take steps; which ones is an argument
(`Pace`), and what the build writes does not depend on it but for times.
-/
import TaskLedger.Command.Arguments
import TaskLedger.Config.Basic
import TaskLedger.Dispatch.Pool

namespace TaskLedger.Simulate

/-- What the threads of the pool do before each move of the build. -/
abbrev Pace := Nat → List UnitId

/-- The threads of the pool work only while the build waits for them. -/
def Pace.lazy : Pace := fun _ => []

/-- A move of the build. -/
inductive Move
  | await (x : ExecutorId)
  | start (t : Nat)
  | submit (t u : Nat)
  | release (x : ExecutorId)
  | finish (t : Nat)
  | flush
  | endBuild
  deriving DecidableEq, Repr

/-- The path of a task. -/
def pathOf (t : Nat) : String := s!":app:step{t}"

/-- How long a unit takes. The product and the sum have to be words. -/
def unitTime (unitMs u : Nat) : Except Fault Nat :=
  let product := u % 3 * unitMs
  if UInt64.size ≤ product then .error .productRange
  else if UInt64.size ≤ unitMs + product / 2 then .error .sumRange
  else .ok (unitMs + product / 2)

/-- A unit of a task. -/
def workOf (t u ms : Nat) : Work where
  action := "Sleep"
  hash := (Param.tuple [.integer 8 t, .integer 8 u]).hash
  script := { ms := ms }

/-- The executor of a task. -/
def executorOf (b : Backend) (t : Nat) (d : Dispatch) : Executor :=
  match b with
  | .direct => .direct (pathOf t)
  | .pooled _ => .pooled { owner := pathOf t, entry := d.ledger.entryOf (pathOf t) }

/-- Makes a move. -/
def Move.make (b : Backend) (unitMs : Nat) (m : Move) (d : Dispatch) :
    Dispatch × Except Halt Unit :=
  match m with
  | .await x =>
    let (d, r) := d.drainAndAwait x
    (d, r.mapError .error)
  | .start t =>
    match d.ledger.startTask (pathOf t) ":app" (some "debug") with
    | (l, .error f) => ({ d with ledger := l }, .error (.fault f))
    | (l, .ok _) =>
      let d := { d with ledger := l }
      ((d.addExecutor (executorOf b t d)).1, .ok ())
  | .submit t u =>
    match unitTime unitMs u with
    | .error f => (d, .error (.fault f))
    | .ok ms =>
      match d.submit t (workOf t u ms) with
      | (d, .error f) => (d, .error (.fault f))
      | (d, .ok r) => (d, r.mapError .error)
  | .release x => (d.release x, .ok ())
  | .finish t => ({ d with ledger := (d.ledger.finishTask (pathOf t)).1 }, .ok ())
  | .flush => ({ d with ledger := d.ledger.flush.1 }, .ok ())
  | .endBuild => ({ d with ledger := d.ledger.endBuild.1 }, .ok ())

/-- Makes moves one after another, the threads of the pool in between. -/
def makeMoves (pace : Pace) (b : Backend) (unitMs : Nat) :
    Nat → List Move → Dispatch → Dispatch × Except Halt Unit
  | _, [], d => (d, .ok ())
  | n, m :: ms, d =>
    match m.make b unitMs (d.follow (pace n)) with
    | (d, .ok ()) => makeMoves pace b unitMs (n + 1) ms d
    | (d, .error h) => (d, .error h)

/-- The moves of one task. The executors are numbered like the tasks. -/
def taskMoves (units t : Nat) : List Move :=
  (if t = 0 then [] else [.await (t - 1)])
    ++ .start t :: ((List.range units).map (.submit t) ++ [.release t, .finish t])

/-- The moves of a build. -/
def moves (tasks units : Nat) : List Move :=
  (List.range tasks).flatMap (taskMoves units)
    ++ (if tasks = 0 then [] else [.await (tasks - 1)]) ++ [.flush, .endBuild]

/-- Runs a build on a fresh ledger. -/
def run (pace : Pace) (b : Backend) (a : Command.SimulateArguments) (l : Ledger) :
    Ledger × Except Halt Unit :=
  let (d, r) := makeMoves pace b a.unitMs.toNat 0 (moves a.tasks.toNat a.units.toNat)
    { ledger := l }
  (d.ledger, r)

end TaskLedger.Simulate
