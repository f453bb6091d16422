/-
Settings from the environment. A variable that is not set, that holds no
text, or that holds only blanks counts as absent. The pool's variable is
looked at before that of the threads, and the first bad value is the
error; a word is judged without the blanks around it and whatever its
case, and the error shows the word as it was judged. A bad number is
shown as it was set.
-/
import TaskLedger.Config.Basic
import TaskLedger.Number.Word
import TaskLedger.Text.Blank
import TaskLedger.Text.Quoted
import TaskLedger.Text.Utf8

namespace TaskLedger

/-- Variables with what they hold, the latest setting of a name first. -/
abbrev Environment := List (String × List UInt8)

namespace Config

/-- The text of a variable, if it has one to speak of. -/
def textIn? (env : Environment) (name : String) : Option String :=
  (env.lookup name).bind fun bytes =>
    (Text.Utf8.string? bytes).filter fun s => !Text.allBlank s.toList

/-- The variable that chooses the backend. -/
def poolVariable : String := "TASKSPAN_USE_WORKER_POOL"

/-- The variable that sizes the pool. -/
def threadsVariable : String := "TASKSPAN_WORKER_THREADS"

/-- The variable that names the span file. -/
def outputVariable : String := "TASKSPAN_SPAN_OUTPUT"

/-- The variable for the telemetry's receiver. -/
def endpointVariable : String := "OTEL_ENDPOINT"

/-- The variable for how much is logged. -/
def logLevelVariable : String := "LOG_LEVEL"

/-- A text in small letters, the letters beyond ASCII left as they are. -/
def lowercase (s : List Char) : List Char := s.map Char.toLower

/-- Words that mean yes. -/
def yesWords : List String := ["1", "true", "yes", "on"]

/-- Words that mean no. -/
def noWords : List String := ["0", "false", "no", "off"]

/-- A yes or a no. -/
def readFlag (name value : String) : Except Error Bool :=
  let word := String.ofList (lowercase (Text.trim value.toList))
  if yesWords.contains word then .ok true
  else if noWords.contains word then .ok false
  else .error (.config s!"{name} must be a boolean, got {Text.quote word}")

/-- A number of threads. -/
def readThreads (value : String) : Except Error UInt64 :=
  match Word.read? (Text.trim value.toList) with
  | some n =>
    if n = 0 then .error (bad value) else .ok n
  | none => .error (bad value)
where
  /-- The error of a bad number. -/
  bad (value : String) : Error :=
    .config s!"{threadsVariable} must be a positive integer, got {Text.quote value}"

/-- Reads a variable if it is there. -/
def given {α : Type} (read : String → Except Error α) : Option String → Except Error (Option α)
  | some v => (read v).map some
  | none => .ok none

/-- The settings of an environment. -/
def ofEnvironment (env : Environment) : Except Error Config := do
  let defaults : Config := {}
  let usesPool ← given (readFlag poolVariable) (textIn? env poolVariable)
  let threads ← given readThreads (textIn? env threadsVariable)
  return {
    usesPool := usesPool.getD defaults.usesPool
    threads := threads
    output := textIn? env outputVariable
    endpoint := textIn? env endpointVariable
    logLevel := (textIn? env logLevelVariable).getD defaults.logLevel }

end Config

end TaskLedger
