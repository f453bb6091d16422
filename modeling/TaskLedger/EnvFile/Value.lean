/-
The values of an environment file. Single quotes keep everything as it
is; elsewhere a backslash takes the next character for itself, and a
dollar sign with a name, in braces or not, stands for the variable of
that name. A blank outside quotes ends the value, and only more blanks
and a comment may follow it.

A name without braces ends at the first character that is no letter or
digit, and that character belongs to the value, even if it is a quote.
-/
import TaskLedger.Text.Alphanumeric

namespace TaskLedger.EnvFile

/-- Where in a value a reader stands. `quoted` is within double quotes. -/
inductive Mode
  | text (quoted : Bool)
  | escaped (quoted : Bool)
  | single
  | name (quoted : Bool)
  | braced (quoted : Bool)
  | ended
  deriving DecidableEq, Repr

/-- What a backslash and a character stand for. -/
def escaped? (c : Char) : Option Char :=
  if c = '\\' ∨ c = '\x27' ∨ c = '\x22' ∨ c = '$' ∨ c = ' ' then some c
  else if c = 'n' then some '\n'
  else none

/-- The rest of a value. `name` is what has been read of a name. -/
def valueFrom (lookUp : List Char → List Char) (name : List Char) :
    Mode → List Char → Option (List Char)
  | mode, [] =>
    match mode with
    | .single | .braced _ | .text true | .escaped true | .name true => none
    | .name false => some (lookUp name)
    | _ => some []
  | .ended, c :: r =>
    if c = ' ' ∨ c = '\t' then valueFrom lookUp name .ended r
    else if c = '#' then some []
    else none
  | .escaped quoted, c :: r => do
    let c ← escaped? c
    some (c :: (← valueFrom lookUp name (.text quoted) r))
  | .single, c :: r =>
    if c = '\x27' then valueFrom lookUp name (.text false) r
    else do some (c :: (← valueFrom lookUp name .single r))
  | .name quoted, c :: r =>
    if Text.isAlphanumeric c then valueFrom lookUp (name ++ [c]) (.name quoted) r
    else if c = '\x7b' ∧ name = [] then valueFrom lookUp [] (.braced quoted) r
    else if c = '$' then do some (lookUp name ++ (← valueFrom lookUp [] (.name quoted) r))
    else do some (lookUp name ++ c :: (← valueFrom lookUp [] (.text quoted) r))
  | .braced quoted, c :: r =>
    if c = '\x7d' then do some (lookUp name ++ (← valueFrom lookUp [] (.text quoted) r))
    else valueFrom lookUp (name ++ [c]) (.braced quoted) r
  | .text quoted, c :: r =>
    if c = '$' then valueFrom lookUp [] (.name quoted) r
    else if c = '\\' then valueFrom lookUp name (.escaped quoted) r
    else if c = '\x22' then valueFrom lookUp name (.text (!quoted)) r
    else if quoted then do some (c :: (← valueFrom lookUp name (.text true) r))
    else if c = '\x27' then valueFrom lookUp name .single r
    else if c = ' ' ∨ c = '\t' then valueFrom lookUp name .ended r
    else do some (c :: (← valueFrom lookUp name (.text false) r))

/-- A value, with the variables that it refers to looked up. -/
def value? (lookUp : List Char → List Char) (s : List Char) : Option (List Char) :=
  valueFrom lookUp [] (.text false) s

end TaskLedger.EnvFile
