/-
Settings, the same whether they come from the environment or from a file.
-/
import TaskLedger.Error

namespace TaskLedger

/-- The settings of the program. -/
structure Config where
  /-- Units of work go to a pool of threads, not to the thread that submits them. -/
  usesPool : Bool := true
  /-- How many threads the pool may have. -/
  threads : Option UInt64 := none
  /-- The span file. Without one, spans are kept in memory. -/
  output : Option String := none
  /-- Where telemetry is sent. -/
  endpoint : Option String := none
  logLevel : String := "info"
  deriving DecidableEq, Repr

/-- The settings that choose and size the backend. -/
structure Execution where
  usesPool : Bool := true
  threads : Option UInt64 := none
  deriving DecidableEq, Repr

namespace Config

/-- What chooses and sizes the backend. -/
def execution (c : Config) : Execution := ⟨c.usesPool, c.threads⟩

/-- The error of a pool without threads. -/
def noThreads : Error := .config "worker_threads must be at least 1"

end Config

/-- How units of work are done. -/
inductive Backend
  | direct
  | pooled (threads : Option UInt64)
  deriving DecidableEq, Repr

/-- The backend that some settings choose. A pool has to have a thread. It
has one more of its own, and all of them are counted in a word. -/
def Execution.backend (e : Execution) : Except Halt Backend :=
  if !e.usesPool then .ok .direct
  else if e.threads = some 0 then .error (.error Config.noThreads)
  else if e.threads = some 18446744073709551615 then .error (.fault .sumRange)
  else .ok (.pooled e.threads)

end TaskLedger
