/-
Values of TOML as they stand after an equals sign. Lists and tables in
braces nest up to a fixed depth; the depth that is left is what the
reader recurses on, so deep nesting is an error and never a loop.
-/
import TaskLedger.Toml.Date
import TaskLedger.Toml.Table
import TaskLedger.Toml.Text

namespace TaskLedger.Toml

-- ================================================================= keys

/-- The number of parts that a key can have at most. -/
def longestKey : Nat := 79

/-- A key starts here. -/
def startsKey (s : List Char) : Bool :=
  match s with
  | c :: _ => c == '\x22' || c == '\x27' || isBare c
  | [] => false

/-- The parts of a key with dots between them. A dot that no part follows
is left. Each round reads at least one character. -/
def keyParts : Nat → Reader (List String)
  | 0, _ => none
  | n + 1, s => do
    let (name, r) ← keyPart (dropBlanks s)
    match dropBlanks r with
    | '.' :: r =>
      if startsKey (dropBlanks r) then push name (keyParts n r) else some ([name], '.' :: r)
    | r => some ([name], r)

/-- The parts of a key, however many. -/
def parts (s : List Char) : Option (List String × List Char) := keyParts s.length s

/-- A key: the way to a table, and the name of a member. -/
abbrev Key := List String × String

/-- The key that has some parts, if they are not too many. -/
def keyOf? (ps : List String) : Option Key :=
  if longestKey < ps.length then none else some (ps.dropLast, ps.getLast?.getD "")

/-- A key. -/
def key (s : List Char) : Option (Key × List Char) := do
  let (ps, r) ← parts s
  some (← keyOf? ps, r)

-- =============================================================== scalars

/-- What follows a fixed word. -/
def word? : List Char → List Char → Option (List Char)
  | [], s => some s
  | a :: w, c :: s => if a = c then word? w s else none
  | _ :: _, [] => none

/-- A number, a date or a time. -/
def numberOrDate (s : List Char) : Except Fault (Node × List Char) := do
  match ← Date.read s with
  | some r => return (.date, r)
  | none =>
    let (n, r) ← orMalformed (Numeral.read s)
    return (match n with
      | .whole n => .integer n
      | .real x => .real x, r)

/-- A value that holds no others. -/
def scalar : List Char → Except Fault (Node × List Char)
  | [] => .error .malformed
  | c :: r =>
    if c = '\x22' ∨ c = '\x27' then do
      let (t, r) ← orMalformed (text (c :: r))
      return (.string (String.ofList t), r)
    else if c = 't' then (orMalformed (word? ['r', 'u', 'e'] r)).map fun r => (.bool true, r)
    else if c = 'f' then
      (orMalformed (word? ['a', 'l', 's', 'e'] r)).map fun r => (.bool false, r)
    else numberOrDate (c :: r)

-- ============================================================ containers

/-- Where a value stands. -/
inductive Standing
  /-- After an equals sign. -/
  | assigned
  /-- In a list. -/
  | listed
  deriving DecidableEq, Repr

/-- What is told of members that cannot be put together. A list ends where
its next value does not read, so of a table in a list it is the end of the
list that is missed. -/
def Standing.told : Standing → Fault → Fault
  | assigned, f => f
  | listed, _ => .malformed

/-- A reader of values that tells why there is none. -/
abbrev ValueReader := Standing → List Char → Except Fault (Node × List Char)

/-- The values of a list, up to its bracket. A comma may stand after the
last. Each round reads at least one character. -/
def items (value : ValueReader) : Nat → List Char → Except Fault (List Node × List Char)
  | 0, _ => .error .malformed
  | n + 1, s =>
    match skipGap s with
    | ']' :: r => .ok ([], r)
    | s => do
      let (v, r) ← value .listed s
      match skipGap r with
      | ',' :: r => do
        let (vs, r) ← items value n r
        .ok (v :: vs, r)
      | ']' :: r => .ok ([v], r)
      | _ => .error .malformed

/-- An equals sign and a value, blanks around the sign. -/
def assigned (value : ValueReader) : List Char → Except Fault (Node × List Char)
  | '=' :: r => value .assigned (dropBlanks r)
  | _ => .error .malformed

/-- A key with its value. -/
abbrev Pair := Key × Node

/-- Keys with their values and commas between them, as far as there are
any. A comma that no key follows is left, and so is a key of too many
parts. Each round reads at least one character. -/
def pairs (value : ValueReader) : Nat → List Char → Except Fault (List Pair × List Char)
  | 0, s => .ok ([], s)
  | n + 1, s => do
    if !startsKey (dropBlanks s) then return ([], s)
    let (ps, r) ← orMalformed (parts s)
    match keyOf? ps with
    | none => .ok ([], s)
    | some k => do
      let (v, r) ← assigned value r
      match dropBlanks r with
      | ',' :: r => do
        let (ps, rest) ← pairs value n r
        .ok ((k, v) :: ps, if ps.isEmpty then ',' :: r else rest)
      | r => .ok ([(k, v)], r)

/-- The table of some keys and values. -/
def members (ps : List Pair) : Except Fault Members :=
  ps.foldlM (fun ms p => ms.assign .aside p.1.2 p.2 [] p.1.1) []

/-- A table in braces, after the first. Its members are put together
before its end is looked for. -/
def braces (value : ValueReader) (standing : Standing) (s : List Char) :
    Except Fault (Members × List Char) := do
  let (ps, r) ← pairs value s.length s
  let ms ← (members ps).mapError standing.told
  match dropBlanks r with
  | '\x7d' :: r => .ok (ms, r)
  | _ => .error .malformed

/-- A value that may hold others, so many levels deep. -/
def value : Nat → ValueReader
  | 0, _, s =>
    match s with
    | '[' :: _ => .error .malformed
    | '\x7b' :: _ => .error .malformed
    | s => scalar s
  | depth + 1, standing, s =>
    match s with
    | '[' :: r => do
      let (vs, r) ← items (value depth) (r.length + 1) r
      .ok (.list vs, r)
    | '\x7b' :: r => do
      let (ms, r) ← braces (value depth) standing r
      .ok (.table .braces ms, r)
    | s => scalar s

/-- How many levels values can nest. -/
def deepest : Nat := 79

end TaskLedger.Toml
