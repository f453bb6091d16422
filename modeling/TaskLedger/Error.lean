/-
Errors: what an operation answers instead of a result. Unlike a fault an
error is a value, and the program reports it and goes on. Each holds its
cause; the wording is `Error.message`.
-/
import TaskLedger.Fault
import TaskLedger.Json.Fault

namespace TaskLedger

/-- Why a file could not be used. -/
inductive FileFault
  | notFound
  | notFolder
  | isFolder
  | alreadyThere
  /-- A zero character in a path. -/
  | zeroInPath
  | nameTooLong
  /-- Bytes that are no text. -/
  | notText
  deriving DecidableEq, Repr

/-- The text of a file fault. -/
def FileFault.message : FileFault → String
  | .notFound => "No such file or directory (os error 2)"
  | .notFolder => "Not a directory (os error 20)"
  | .isFolder => "Is a directory (os error 21)"
  | .alreadyThere => "File exists (os error 17)"
  | .zeroInPath => "file name contained an unexpected NUL byte"
  | .nameTooLong => "File name too long (os error 36)"
  | .notText => "stream did not contain valid UTF-8"

/-- What an operation answers instead of a result. -/
inductive Error
  /-- A unit of work failed where it was submitted. -/
  | unit (action cause : String)
  /-- Units of work failed while they were waited for. -/
  | workers (causes : List String)
  | config (text : String)
  | file (fault : FileFault)
  | json (fault : Json.Fault)
  | other (text : String)
  deriving DecidableEq, Repr

/-- The text of an error. -/
def Error.message : Error → String
  | .unit action cause => s!"work unit {action} failed: {cause}"
  | .workers causes =>
    s!"{causes.length} worker(s) failed: " ++ String.intercalate "; " causes
  | .config text => s!"configuration error: {text}"
  | .file fault => s!"io error: {fault.message}"
  | .json fault => s!"json error: {fault.message}"
  | .other text => text

/-- Why something did not come to its end. -/
inductive Halt
  | fault (f : Fault)
  | error (e : Error)
  deriving DecidableEq, Repr

end TaskLedger
