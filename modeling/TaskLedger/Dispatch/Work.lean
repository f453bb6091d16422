/-
Units of work: a name, the hash of the parameters, and what running the
unit does.

What a unit does is closed up in a `Script`: it takes some time, and
then it succeeds, fails with a cause wrapped in contexts, or gives up.
The key of a unit is the owner's path, the unit's name and the hash in a
row, with nothing between them; equal units of one owner share it, which
is why an executor appends a number of its own.
-/
import TaskLedger.Fault
import TaskLedger.Hash.Param
import TaskLedger.Text.Quoted

namespace TaskLedger

/-- How a unit of work ends. -/
inductive Ending
  | success
  /-- The innermost cause, then the contexts around it from the inside out. -/
  | failure (root : String) (contexts : List String)
  /-- It gave up, with a message or with something that shows none. -/
  | panic (message : Option String)
  deriving DecidableEq, Repr

/-- What running a unit does: time passes, then it ends. -/
structure Script where
  ms : Int := 0
  ns : Int := 0
  ending : Ending := .success
  deriving DecidableEq, Repr

/-- A unit of work. -/
structure Work where
  action : String
  hash : UInt64
  script : Script := {}
  deriving DecidableEq, Repr

namespace Work

/-- The owner's path, the action and the hash in a row. -/
def keyOf (owner action : String) (hash : UInt64) : String := owner ++ action ++ toString hash

/-- The key of a unit that `owner` submits. -/
def key (w : Work) (owner : String) : String := keyOf owner w.action w.hash

/-- A unit as a programmer is shown it. -/
def debug (w : Work) : String :=
  "WorkUnit \x7b action: " ++ Text.quote w.action ++ ", params_hash: " ++ toString w.hash
    ++ ", .. \x7d"

end Work

/-- A cause with its contexts, the outermost first. -/
def Ending.cause (root : String) (contexts : List String) : String :=
  String.intercalate ": " (contexts.reverse ++ [root])

end TaskLedger
