/-
Strings of TOML. There are four spellings: with one or three quotes, and
each with double quotes, where a backslash starts an escape, or single
ones, where nothing does. A string in three quotes may hold up to two
quotes in a row, also right before the three that end it; its line ends
count as line feeds, and one right after the opening quotes is dropped.
-/
import TaskLedger.Json.Quoted
import TaskLedger.Toml.Lexical

namespace TaskLedger.Toml

-- ============================================================== escapes

/-- The character of a letter after a backslash. -/
def letter? (c : Char) : Option Char :=
  if c = '\x22' ∨ c = '\\' then some c
  else if c = 'b' then some '\x08'
  else if c = 'f' then some '\x0c'
  else if c = 'n' then some '\n'
  else if c = 'r' then some '\r'
  else if c = 't' then some '\t'
  else none

/-- The number that digits to base sixteen spell. -/
def hexNumber? (ds : List Char) : Option Nat :=
  ds.foldlM (fun n d => (Json.Quoted.hexValue? d).map (n * 16 + ·)) 0

/-- The character that digits to base sixteen number. -/
def numbered? (ds : List Char) : Option Char :=
  (hexNumber? ds).bind fun n => if n.isValidChar then some (Char.ofNat n) else none

-- ============================================================= one line

/-- The rest of a string in double quotes. -/
def basic : List Char → Option (List Char × List Char)
  | [] => none
  | '\x22' :: r => some ([], r)
  | '\\' :: r =>
    match r with
    | 'u' :: a :: b :: c :: d :: r =>
      (numbered? [a, b, c, d]).bind fun x => push x (basic r)
    | 'U' :: a :: b :: c :: d :: e :: f :: g :: h :: r =>
      (numbered? [a, b, c, d, e, f, g, h]).bind fun x => push x (basic r)
    | e :: r => (letter? e).bind fun x => push x (basic r)
    | [] => none
  | c :: r => if isShown c then push c (basic r) else none

/-- The rest of a string in single quotes. -/
def literal : List Char → Option (List Char × List Char)
  | [] => none
  | '\x27' :: r => some ([], r)
  | c :: r => if isShown c then push c (literal r) else none

-- ============================================================ many lines

/-- What follows three quotes that end a string: up to two more belong to
the string. -/
def closing (quote : Char) : List Char → List Char × List Char
  | a :: b :: r =>
    if a = quote then (if b = quote then ([quote, quote], r) else ([quote], b :: r))
    else ([], a :: b :: r)
  | [a] => if a = quote then ([quote], []) else ([], [a])
  | [] => ([], [])

/-- A backslash ends a line here: nothing but blanks stands between it
and the line's end. -/
def continues (s : List Char) : Bool := (newline? (dropBlanks s)).isSome

/-- The rest of a string in three double quotes. `skipping` while blanks
and line ends are dropped, after a backslash that ended a line. -/
def multiBasic : Bool → List Char → Option (List Char × List Char)
  | _, [] => none
  | _, '\x22' :: '\x22' :: '\x22' :: r => some (closing '\x22' r)
  | _, '\x22' :: r => push '\x22' (multiBasic false r)
  | skipping, '\r' :: '\n' :: r =>
    if skipping then multiBasic true r else push '\n' (multiBasic false r)
  | skipping, '\n' :: r =>
    if skipping then multiBasic true r else push '\n' (multiBasic false r)
  | _, '\\' :: r =>
    if continues r then multiBasic true r
    else match r with
      | 'u' :: a :: b :: c :: d :: r =>
        (numbered? [a, b, c, d]).bind fun x => push x (multiBasic false r)
      | 'U' :: a :: b :: c :: d :: e :: f :: g :: h :: r =>
        (numbered? [a, b, c, d, e, f, g, h]).bind fun x => push x (multiBasic false r)
      | e :: r => (letter? e).bind fun x => push x (multiBasic false r)
      | [] => none
  | skipping, c :: r =>
    if skipping && isBlank c then multiBasic true r
    else if isShown c then push c (multiBasic false r)
    else none

/-- The rest of a string in three single quotes. -/
def multiLiteral : List Char → Option (List Char × List Char)
  | [] => none
  | '\x27' :: '\x27' :: '\x27' :: r => some (closing '\x27' r)
  | '\r' :: '\n' :: r => push '\n' (multiLiteral r)
  | '\n' :: r => push '\n' (multiLiteral r)
  | c :: r => if isShown c then push c (multiLiteral r) else none

/-- Drops a line end in front. -/
def dropNewline (s : List Char) : List Char := (newline? s).getD s

-- ============================================================== strings

/-- A string in any of the four spellings. -/
def text : Reader (List Char)
  | '\x22' :: '\x22' :: '\x22' :: r => multiBasic false (dropNewline r)
  | '\x22' :: r => basic r
  | '\x27' :: '\x27' :: '\x27' :: r => multiLiteral (dropNewline r)
  | '\x27' :: r => literal r
  | _ => none

/-- A string, if it has one quote at each end, or a bare word: the parts
of a key. -/
def keyPart : Reader String
  | '\x22' :: r => (basic r).map fun p => (String.ofList p.1, p.2)
  | '\x27' :: r => (literal r).map fun p => (String.ofList p.1, p.2)
  | s =>
    let name := s.takeWhile isBare
    if name.isEmpty then none else some (String.ofList name, s.dropWhile isBare)

end TaskLedger.Toml
