/-
A whole text of TOML: lines that assign a value to a key, and headers,
which say what table the lines after them assign in.

The table under a header is put into its place when the next header or
the end of the text comes. If deeper headers have made it already it is
taken out of its place for that time, so it counts as the latest of its
neighbours: the order of members is the order in which their tables were
put into place.
-/
import TaskLedger.Toml.Value

namespace TaskLedger.Toml

/-- The sort of a header. -/
inductive Header
  /-- The text before the first header. -/
  | none
  /-- A table. -/
  | table (way : List String) (name : String)
  /-- An element of a list of tables. -/
  | element (way : List String) (name : String)
  deriving DecidableEq, Repr

/-- The way to the table under a header. -/
def Header.way : Header → List String
  | .none => []
  | .table way name => way ++ [name]
  | .element way name => way ++ [name]

/-- A text that has been read up to some line. -/
structure Draft where
  root : Members := []
  header : Header := .none
  current : Members := []

namespace Draft

/-- Puts the table under the header into its place. -/
def settle (d : Draft) : Except Fault Members :=
  match d.header with
  | .none => .ok d.current
  | .table way name => d.root.onWay (fun ms => ms ++ [(name, .table .header d.current)]) [] way
  | .element way name =>
    d.root.onWay (fun ms =>
      match ms.lookup name with
      | some (.tables earlier last) => ms.replace name (.tables (earlier ++ [last]) d.current)
      | _ => ms ++ [(name, .tables [] d.current)]) [] way

/-- A header of a table. What deeper headers have made of it is taken out
of its place. -/
def openTable (way : List String) (name : String) (d : Draft) : Except Fault Draft := do
  let root ← (← d.settle).onWay id [] way
  match (root.atWay way).lookup name with
  | none => .ok { root, header := .table way name }
  | some (.table .implied inner) => do
    let root ← root.onWay (Members.remove name) [] way
    .ok { root, header := .table way name, current := inner }
  | some _ => .error (.headed way name)

/-- A header of an element. -/
def openElement (way : List String) (name : String) (d : Draft) : Except Fault Draft := do
  let root ← (← d.settle).onWay id [] way
  match (root.atWay way).lookup name with
  | none => .ok { root, header := .element way name }
  | some (.tables _ _) => .ok { root, header := .element way name }
  | some _ => .error (.headed way name)

/-- An assignment below the header. -/
def assign (way : List String) (name : String) (v : Node) (d : Draft) : Except Fault Draft := do
  .ok { d with current := ← d.current.assign (.under d.header.way) name v [] way }

end Draft

-- ================================================================ lines

/-- A header between its brackets, and what follows its line. -/
def header (close : List Char) (s : List Char) : Except Fault (Key × List Char) := do
  let (k, r) ← orMalformed (key s)
  let r ← orMalformed (word? close r)
  .ok (k, ← orMalformed (restOfLine? r))

/-- A line that starts with a bracket, after it. -/
def headerLine (d : Draft) : List Char → Except Fault (Draft × List Char)
  | '[' :: r => do
    let ((way, name), r) ← header [']', ']'] r
    .ok (← d.openElement way name, r)
  | r => do
    let ((way, name), r) ← header [']'] r
    .ok (← d.openTable way name, r)

/-- A line, blanks in front dropped. -/
def line (d : Draft) (s : List Char) : Except Fault (Draft × List Char) :=
  match s with
  | '#' :: _ => do .ok (d, ← orMalformed (restOfLine? s))
  | '[' :: r => headerLine d r
  | '\n' :: r => .ok (d, r)
  | '\r' :: r => do .ok (d, ← orMalformed (newline? ('\r' :: r)))
  | _ => do
    let (k, r) ← orMalformed (key s)
    let (v, r) ← assigned (value deepest) r
    let r ← orMalformed (restOfLine? r)
    .ok (← d.assign k.1 k.2 v, r)

/-- The lines of a text. Each round reads at least one character. -/
def lines : Nat → Draft → List Char → Except Fault Draft
  | 0, d, s => if s.isEmpty then .ok d else .error .malformed
  | n + 1, d, s =>
    match dropBlanks s with
    | [] => .ok d
    | s => do
      let (d, r) ← line d s
      lines n d r

/-- The mark that may stand before a text. -/
def byteOrderMark : Char := '\ufeff'

/-- The members of a text's outermost table. -/
def read (s : List Char) : Except Fault Members := do
  let s := if s.head? = some byteOrderMark then s.drop 1 else s
  (← lines s.length {} s).settle

end TaskLedger.Toml
