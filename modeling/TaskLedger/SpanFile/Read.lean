/-
Reading a span file: a record on each line, blank lines between them.
The lines are read in order and the first that holds no record decides,
so what follows a faulty line is never looked at.
-/
import TaskLedger.Error
import TaskLedger.Span.Reader
import TaskLedger.Span.Writer
import TaskLedger.SpanFile.Lines
import TaskLedger.Text.Blank
import TaskLedger.Text.Utf8

namespace TaskLedger.SpanFile

/-- The record of a line, none for a blank one. -/
def recordOfLine (line : List UInt8) : Except Error (Option SpanRecord) :=
  match Text.Utf8.decode? (body line) with
  | none => .error (.file .notText)
  | some text =>
    if Text.allBlank text then .ok none
    else match SpanRecord.ofText text with
      | .ok r => .ok (some r)
      | .error e => .error (.json e)

/-- The records of some lines in order, or the first error. -/
def recordsOfLines : List (List UInt8) → Except Error (List SpanRecord)
  | [] => .ok []
  | line :: rest => do
    let r ← recordOfLine line
    let rs ← recordsOfLines rest
    .ok (r.toList ++ rs)

/-- The records of a file. -/
def records (bytes : List UInt8) : Except Error (List SpanRecord) :=
  recordsOfLines (lines bytes)

/-- The line that a record is stored as. -/
def line (r : SpanRecord) : List UInt8 := Text.Utf8.encode r.write ++ [lineFeed]

/-- The largest span id among some records, children included; zero
without any. -/
def lastId (rs : List SpanRecord) : SpanId :=
  (rs.flatMap SpanRecord.ids).foldl (fun a b => if a ≤ b then b else a) 0

end TaskLedger.SpanFile
