/-
What stops an operation midway. A fault is no error value of the
program: nothing handles it where it arises, and the operation that met
it leaves no answer. The whole vocabulary is closed, so a statement
about faults is a case split and never a comparison of texts; the
wording lives in `Fault.message` alone.
-/
namespace TaskLedger

/-- Why an operation stopped. -/
inductive Fault
  /-- An instant would leave the range the calendar can show. -/
  | instantRange
  /-- A sum of durations would leave the range of durations. -/
  | durationRange
  /-- A count of milliseconds is below the least duration. -/
  | millisRange
  /-- A sum of 64-bit integers left their range: span ids or summed durations. -/
  | sumRange
  /-- A product of 64-bit integers left their range. -/
  | productRange
  /-- A text that has a zero character was offered to the environment. -/
  | zeroInText
  /-- A unit of work gave up with a message, or with none it could show. -/
  | raised (message : Option String)
  deriving DecidableEq, Repr

/-- The text a fault is reported with. -/
def Fault.message : Fault → String
  | .instantRange => "`DateTime + TimeDelta` overflowed"
  | .durationRange => "`TimeDelta + TimeDelta` overflowed"
  | .millisRange => "TimeDelta::milliseconds out of bounds"
  | .sumRange => "attempt to add with overflow"
  | .productRange => "attempt to multiply with overflow"
  | .zeroInText => "a zero character cannot be stored in the environment"
  | .raised (some m) => m
  | .raised none => "unknown panic"

end TaskLedger
