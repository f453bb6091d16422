/-
Span records written as JSON: one line of text without blanks, the
fields in order. An id and a parent are written even where there is
none; the other optional fields only where they are set.
-/
import TaskLedger.Json.Quoted
import TaskLedger.Span.Basic

namespace TaskLedger

namespace Json

/-- An unsigned word. -/
def writeUnsigned (n : UInt64) : List Char := Nat.toDigits 10 n.toNat

/-- A signed word. -/
def writeSigned (n : Int64) : List Char :=
  if n.toInt < 0 then '-' :: Nat.toDigits 10 n.toInt.natAbs else Nat.toDigits 10 n.toInt.natAbs

/-- A string. -/
def writeString (s : String) : List Char := Quoted.write s.toList

/-- The word for no value. -/
def nullWord : List Char := ['n', 'u', 'l', 'l']

/-- A member of an object. -/
def writeMember (name : String) (value : List Char) : List Char :=
  writeString name ++ ':' :: value

/-- Texts with commas between them. -/
def commaSeparated : List (List Char) → List Char
  | [] => []
  | [a] => a
  | a :: b :: rest => a ++ ',' :: commaSeparated (b :: rest)

/-- An object of some members. -/
def writeObject (members : List (List Char)) : List Char :=
  '\x7b' :: (commaSeparated members ++ ['\x7d'])

/-- A list of some values. -/
def writeList (items : List (List Char)) : List Char :=
  '[' :: (commaSeparated items ++ [']'])

end Json

open Json

/-- The members of a span. -/
def Span.members (s : Span) : List (List Char) :=
  [writeMember "id" ((s.id.map writeUnsigned).getD nullWord),
    writeMember "parent_id" ((s.parent.map writeUnsigned).getD nullWord),
    writeMember "execution_type" (writeString s.kind.name),
    writeMember "start_time_ms" (writeSigned s.startMs),
    writeMember "duration_ms" (writeSigned s.durationMs)]
  ++ (s.thread.map fun t => writeMember "thread_id" (writeUnsigned t)).toList
  ++ (s.task.map fun t => writeMember "task_path" (writeString t)).toList

/-- The text of a span. -/
def Span.write (s : Span) : List Char := writeObject s.members

/-- The members of a record. -/
def SpanRecord.members (r : SpanRecord) : List (List Char) :=
  [writeMember "project_path" (writeString r.project)]
  ++ (r.variant.map fun v => writeMember "variant" (writeString v)).toList
  ++ [writeMember "span" r.span.write]
  ++ (if r.children.isEmpty then []
      else [writeMember "children" (writeList (r.children.map Span.write))])

/-- The text of a record. -/
def SpanRecord.write (r : SpanRecord) : List Char := writeObject r.members

end TaskLedger
