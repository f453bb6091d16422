/-
Values of TOML, and tables as they grow while a text is read.

A table remembers how it came about, because that decides who may add to
it: a table with a header of its own takes members from below that header
only, one made by a dotted key takes more dotted keys, one that stands in
the way of a deeper header may still get a header, and a table written in
braces is complete.
-/
import TaskLedger.Toml.Fault
import TaskLedger.Toml.Numeral

namespace TaskLedger.Toml

/-- How a table came about. -/
inductive Origin
  /-- It has a header, or is a whole text. -/
  | header
  /-- A header deeper down goes through it. -/
  | implied
  /-- A dotted key goes through it. -/
  | dotted
  /-- It is written in braces. -/
  | braces
  deriving DecidableEq, Repr

/-- A value of TOML. -/
inductive Node
  | string (s : String)
  | integer (n : Int)
  | real (x : Real)
  | bool (b : Bool)
  | date
  | list (items : List Node)
  | table (origin : Origin) (members : List (String × Node))
  /-- Tables with one header each, the last apart. -/
  | tables (earlier : List (List (String × Node))) (last : List (String × Node))

/-- What a value is called. -/
def Node.kind : Node → String
  | string _ => "string"
  | integer _ => "integer"
  | real _ => "float"
  | bool _ => "boolean"
  | date => "datetime"
  | list _ => "array"
  | table .braces _ => "inline table"
  | table _ _ => "table"
  | tables _ _ => "array of tables"

/-- Members of a table in order. -/
abbrev Members := List (String × Node)

namespace Members

/-- Puts another value in place of a member's. -/
def replace (name : String) (v : Node) (ms : Members) : Members :=
  ms.map fun m => if m.1 = name then (name, v) else m

/-- Takes a member out. -/
def remove (name : String) (ms : Members) : Members := ms.filter fun m => m.1 != name

-- =========================================================== assignment

/-- What is wrong with a dotted key that leads through a value. A table
that is complete counts as a name given twice, but one in braces is a
value like others for the lines below a header. -/
def inTheWay (site : Site) (way : List String) (name : String) : Node → Fault
  | .table .braces ms =>
    match site with
    | .under _ => .blocked (way ++ [name]) (Node.table .braces ms).kind
    | .aside => .taken name .aside
  | .table _ _ => .taken name .aside
  | v => .blocked (way ++ [name]) v.kind

/-- Adds a value under a dotted key: the way to its table, then its name.
No name is given twice. `passed` is the way so far. -/
def assign (site : Site) (name : String) (v : Node) (passed : List String) :
    List String → Members → Except Fault Members
  | [], ms =>
    match ms.lookup name with
    | some _ => .error (.taken name site)
    | none => .ok (ms ++ [(name, v)])
  | step :: way, ms =>
    let onward := assign site name v (passed ++ [step]) way
    match ms.lookup step with
    | none => do .ok (ms ++ [(step, .table .dotted (← onward []))])
    | some (.table .dotted inner) => do
      .ok (replace step (.table .dotted (← onward inner)) ms)
    | some (.table .implied inner) =>
      if way.isEmpty then .error (.taken name .aside)
      else do .ok (replace step (.table .implied (← onward inner)) ms)
    | some (.tables earlier last) =>
      if way.isEmpty then .error (.taken name .aside)
      else do .ok (replace step (.tables earlier (← onward last)) ms)
    | some other => .error (inTheWay site passed step other)

-- ============================================================== headers

/-- Does something with the table that a header's way leads to. Tables on
the way are made where they are missing, and of a list of tables the last
is entered. `passed` is the way so far. -/
def onWay (f : Members → Members) (passed : List String) :
    List String → Members → Except Fault Members
  | [], ms => .ok (f ms)
  | step :: way, ms =>
    let onward := onWay f (passed ++ [step]) way
    match ms.lookup step with
    | none => do .ok (ms ++ [(step, .table .implied (← onward []))])
    | some (.table .braces inner) =>
      .error (.blocked (passed ++ [step]) (Node.table .braces inner).kind)
    | some (.table origin inner) => do
      .ok (replace step (.table origin (← onward inner)) ms)
    | some (.tables earlier last) => do
      .ok (replace step (.tables earlier (← onward last)) ms)
    | some other => .error (.blocked (passed ++ [step]) other.kind)

/-- The table that a header's way leads to, as far as it is there. -/
def atWay : List String → Members → Members
  | [], ms => ms
  | step :: way, ms =>
    match ms.lookup step with
    | some (.table _ inner) => atWay way inner
    | some (.tables _ last) => atWay way last
    | _ => []

end Members

end TaskLedger.Toml
