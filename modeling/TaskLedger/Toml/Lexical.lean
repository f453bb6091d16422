/-
The characters of TOML, and what stands between its values: blanks within
a line, comments up to its end, and the ends of lines.

The readers of single characters, strings, numbers and dates answer `none`
where there is none to read. There is one fault for all of those, so
nothing more is said about it.
-/
namespace TaskLedger.Toml

/-- A reader takes the remaining text to a value and what it leaves. -/
abbrev Reader (α : Type) := List Char → Option (α × List Char)

/-- Puts something before what was read after it. -/
def push {α : Type} (a : α) : Option (List α × List Char) → Option (List α × List Char)
  | some (as, r) => some (a :: as, r)
  | none => none

-- =========================================================== characters

/-- A blank within a line. -/
def isBlank (c : Char) : Bool := c == ' ' || c == '\t'

/-- A character that is printed, or a tabulator. -/
def isShown (c : Char) : Bool :=
  c == '\t' || (0x20 ≤ c.toNat && c.toNat ≠ 0x7F)

/-- A character of an unquoted key. -/
def isBare (c : Char) : Bool := c.isAlphanum || c == '-' || c == '_'

-- ================================================================ lines

/-- Drops the blanks in front. -/
def dropBlanks (s : List Char) : List Char := s.dropWhile isBlank

/-- What follows the end of a line. -/
def newline? : List Char → Option (List Char)
  | '\n' :: r => some r
  | '\r' :: '\n' :: r => some r
  | _ => none

/-- Drops a comment in front. -/
def dropComment : List Char → List Char
  | '#' :: r => r.dropWhile isShown
  | s => s

/-- What follows the end of a line, or of the text. -/
def lineEnd? : List Char → Option (List Char)
  | [] => some []
  | s => newline? s

/-- What follows a line that has nothing more to say. -/
def restOfLine? (s : List Char) : Option (List Char) := lineEnd? (dropComment (dropBlanks s))

/-- Drops blanks, ends of lines and comments. Each round drops at least
one character. -/
def dropGap : Nat → List Char → List Char
  | 0, s => s
  | n + 1, s =>
    match s with
    | '#' :: r => dropGap n (r.dropWhile isShown)
    | c :: r =>
      if isBlank c then dropGap n r
      else match newline? (c :: r) with
        | some r => dropGap n r
        | none => c :: r
    | [] => []

/-- Drops whatever may stand between the values of a list. -/
def skipGap (s : List Char) : List Char := dropGap s.length s

end TaskLedger.Toml
