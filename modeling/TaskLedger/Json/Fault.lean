/-
What a reader of JSON stops at. It goes from left to right and stops at
the first fault of any sort, so of two faults in a text the earlier one
is reported.
-/
import TaskLedger.Reading.Mismatch

namespace TaskLedger.Json

/-- Why a text was not read. -/
inductive Fault
  /-- Something stands where it cannot. -/
  | malformed
  /-- The text ends too early. -/
  | truncated
  /-- Well-formed so far, but not what was asked for. -/
  | mismatch (m : Mismatch)
  deriving DecidableEq, Repr

/-- The text of a fault. -/
def Fault.message : Fault → String
  | .malformed => "malformed text"
  | .truncated => "unexpected end of text"
  | .mismatch m => m.message

/-- A reader takes the remaining text to a value and what it leaves. -/
abbrev Reader (α : Type) := List Char → Except Fault (α × List Char)

end TaskLedger.Json
