/-
What a reader of TOML stops at. It goes from left to right, and a line is
read to its end before it is taken in, so a line that does not read is
never looked at for what it says.
-/
import TaskLedger.Text.Quoted

namespace TaskLedger.Toml

/-- Where a name is given twice. -/
inductive Site
  /-- In the table that lines assign in, by the way of its header. -/
  | under (way : List String)
  /-- In a table that has no header. -/
  | aside
  deriving DecidableEq, Repr

/-- Why a text was not read. -/
inductive Fault
  /-- Something stands where it cannot. -/
  | malformed
  /-- A name is given twice. -/
  | taken (name : String) (site : Site)
  /-- A header is given twice, or to something that cannot have one. -/
  | headed (way : List String) (name : String)
  /-- A key leads through something that is no table. -/
  | blocked (way : List String) (kind : String)
  deriving DecidableEq, Repr

namespace Fault

/-- A way in a message. -/
def dotted (way : List String) : String := String.intercalate "." way

/-- The table at the end of a way in a message. -/
def place (way : List String) : String :=
  if way.isEmpty then "document root" else s!"table `{dotted way}`"

/-- The text of a fault. Names stand in it as they are, so it can have
several lines. -/
def message : Fault → String
  | malformed => "malformed text"
  | taken name (.under way) => s!"duplicate key `{name}` in {place way}"
  | taken name .aside => s!"duplicate key `{name}`"
  | headed way name => s!"duplicate key `{Text.quote name}` in {place way}"
  | blocked way kind =>
    s!"dotted key `{dotted way}` attempted to extend non-table type ({kind})"

end Fault

/-- What was read, or else the text is malformed. -/
def orMalformed {α : Type} (a : Option α) : Except Fault α := a.elim (.error .malformed) .ok

end TaskLedger.Toml
