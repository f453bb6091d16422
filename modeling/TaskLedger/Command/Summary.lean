/-
Summaries of span records: a row for each task, with the number of the
workers that name it as their parent and the sum of their times.

A record is a task's if its span is one; all others with a parent count
as work for that parent, wherever they stand. Sums run in the order of
the records and have to stay within 64 bits at every record.
-/
import TaskLedger.Fault
import TaskLedger.Span.Basic

namespace TaskLedger

/-- The work that names one parent. -/
structure Tally where
  workers : Nat := 0
  millis : Int := 0
  deriving DecidableEq, Repr

namespace Tally

/-- A sum fits 64 bits with a sign. -/
def fits (n : Int) : Bool := -9223372036854775808 ≤ n && n ≤ 9223372036854775807

/-- Adds the span of a worker. -/
def add (t : Tally) (s : Span) : Except Fault Tally :=
  let millis := t.millis + s.durationMs.toInt
  if fits millis then .ok ⟨t.workers + 1, millis⟩ else .error .sumRange

/-- Tallies by parent. -/
abbrev Table := List (SpanId × Tally)

/-- The tally of a parent. -/
def Table.of (t : Table) (p : SpanId) : Tally := (t.lookup p).getD {}

/-- Adds a record, if it is work for a parent. -/
def Table.add (t : Table) (r : SpanRecord) : Except Fault Table :=
  match r.span.kind, r.span.parent with
  | .task, _ => .ok t
  | _, none => .ok t
  | _, some p => do
    let tally ← (t.of p).add r.span
    .ok ((p, tally) :: t.filter fun e => e.1 != p)

/-- Adds records one after another. -/
def Table.addAll (t : Table) (rs : List SpanRecord) : Except Fault Table := rs.foldlM Table.add t

end Tally

/-- A row of a summary. -/
structure SummaryRow where
  id : SpanId
  task : String
  variant : String
  work : Tally
  durationMs : Int64
  deriving DecidableEq, Repr

/-- A summary of span records. -/
structure Summary where
  rows : List SummaryRow
  records : Nat
  deriving DecidableEq, Repr

namespace Summary

/-- What stands for a name that is not set. -/
def noName : String := "-"

/-- The row of a task. A task without a number goes by zero. -/
def rowOf (t : Tally.Table) (r : SpanRecord) : SummaryRow :=
  let id := r.span.id.getD 0
  { id, task := r.span.task.getD noName, variant := r.variant.getD noName, work := t.of id,
    durationMs := r.span.durationMs }

/-- The summary of some records. -/
def ofRecords (rs : List SpanRecord) : Except Fault Summary := do
  let t ← Tally.Table.addAll [] rs
  .ok {
    rows := (rs.filter fun r => r.span.kind == .task).map (rowOf t)
    records := rs.length }

-- ================================================================= text

/-- A text with blanks after it up to a width, in characters. -/
def padRight (width : Nat) (s : String) : String :=
  s ++ String.ofList (List.replicate (width - s.length) ' ')

/-- A text with blanks before it up to a width, in characters. -/
def padLeft (width : Nat) (s : String) : String :=
  String.ofList (List.replicate (width - s.length) ' ') ++ s

/-- The columns of a line: three to the left and three to the right. -/
def columns (a b c d e f : String) : String :=
  padRight 6 a ++ "  " ++ padRight 24 b ++ "  " ++ padRight 8 c ++ "  " ++ padLeft 8 d ++ "  "
    ++ padLeft 12 e ++ "  " ++ padLeft 12 f

/-- The line of a row. -/
def rowLine (r : SummaryRow) : String :=
  columns (toString r.id) r.task r.variant (toString r.work.workers) (toString r.work.millis)
    (toString r.durationMs.toInt)

/-- The lines above the rows. -/
def headLines : List String :=
  [columns "ID" "TASK" "VARIANT" "WORKERS" "WORKER_MS" "DURATION_MS",
    String.ofList (List.replicate 80 '-')]

/-- The lines below the rows. -/
def footLines (s : Summary) : List String :=
  ["", s!"{s.rows.length} task(s), {s.records} record(s)"]

/-- All lines. -/
def lines (s : Summary) : List String := headLines ++ s.rows.map rowLine ++ s.footLines

end Summary

end TaskLedger
