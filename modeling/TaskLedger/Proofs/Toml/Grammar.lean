/-
Flat texts of TOML, said without a reader: lines that assign a value to a
name, comments, and lines with nothing on them. A value is a yes or a no, a
whole number from zero up, to whatever base, or a string, on one line or on
several; a name is a bare word or a string on one line. `Document` puts
these together. It leaves out headers, dots in names, lists, tables, dates
and other numbers, and none of those could give a setting.
-/
import Mathlib.Data.List.TakeWhile
import Mathlib.Data.Nat.Digits.Defs
import TaskLedger.Toml.Document

namespace TaskLedger.Toml

/-- Blanks within a line, or nothing. -/
def Blanks (s : List Char) : Prop := ∀ c ∈ s, isBlank c = true

/-- A comment up to the end of its line, or nothing. -/
inductive Comment : List Char → Prop
  | none : Comment []
  | some {s : List Char} (shown : ∀ c ∈ s, isShown c = true) :
      Comment ('#' :: s)

/-- The end of a line. -/
inductive Newline : List Char → Prop
  | feed : Newline ['\n']
  | both : Newline ['\r', '\n']

-- =============================================================== strings

/-- A character inside of double quotes, and a text it is spelled by. -/
inductive Stands : List Char → Char → Prop
  /-- It stands for itself. -/
  | plain {c : Char} (quote : c ≠ '\x22') (slash : c ≠ '\\')
      (shown : isShown c = true) : Stands [c] c
  /-- By a letter. -/
  | letter {e c : Char} (letter : letter? e = some c) : Stands ['\\', e] c
  /-- By its number, of four digits. -/
  | short {a b c d x : Char} (number : numbered? [a, b, c, d] = some x) :
      Stands ['\\', 'u', a, b, c, d] x
  /-- By its number, of eight digits. -/
  | long {a b c d e f g h x : Char}
      (number : numbered? [a, b, c, d, e, f, g, h] = some x) :
      Stands ['\\', 'U', a, b, c, d, e, f, g, h] x

/-- A string, and a text that spells it inside of double quotes. -/
inductive Spells : List Char → List Char → Prop
  | nil : Spells [] []
  | cons {u t s : List Char} {c : Char} (here : Stands u c)
      (more : Spells t s) : Spells (u ++ t) (c :: s)

/-- A string on one line, with its quotes. -/
inductive Quoted : List Char → List Char → Prop
  /-- Double quotes: a backslash starts an escape. -/
  | basic {t s : List Char} (spells : Spells t s) :
      Quoted ('\x22' :: (t ++ ['\x22'])) s
  /-- Single quotes: every character stands for itself. -/
  | literal {s : List Char} (shown : ∀ c ∈ s, isShown c = true)
      (quote : '\x27' ∉ s) : Quoted ('\x27' :: (s ++ ['\x27'])) s

-- =============================================== strings on several lines

/-- Blanks and ends of lines. -/
inductive Void : List Char → Prop
  | nil : Void []
  | blank {c : Char} {t : List Char} (blank : isBlank c = true)
      (more : Void t) : Void (c :: t)
  | newline {e t : List Char} (newline : Newline e) (more : Void t) :
      Void (e ++ t)

/-- One quote, or two of them in a row. -/
inductive Few (q : Char) : List Char → Prop
  | one : Few q [q]
  | two : Few q [q, q]

/-- A string on several lines, and a text that spells it inside of three
double quotes. -/
inductive Block : List Char → List Char → Prop
  | nil : Block [] []
  | char {u t s : List Char} {c : Char} (here : Stands u c)
      (more : Block t s) : Block (u ++ t) (c :: s)
  /-- However a line ends, that is a line feed. -/
  | newline {e t s : List Char} (newline : Newline e) (more : Block t s) :
      Block (e ++ t) ('\n' :: s)
  /-- A backslash at the end of a line takes away all blanks and ends of
  lines up to something else. -/
  | joined {b e v t s : List Char} (blanks : Blanks b) (newline : Newline e)
      (void : Void v)
      (solid : ∀ c r, t = c :: r → c ∉ [' ', '\t', '\n', '\r'])
      (more : Block t s) : Block ('\\' :: (b ++ (e ++ (v ++ t)))) s
  | quotes {q t s : List Char} (few : Few '\x22' q)
      (other : ∀ r, t ≠ '\x22' :: r) (more : Block t s) :
      Block (q ++ t) (q ++ s)

/-- The same inside of three single quotes. -/
inductive LiteralBlock : List Char → List Char → Prop
  | nil : LiteralBlock [] []
  | char {t s : List Char} {c : Char} (quote : c ≠ '\x27')
      (shown : isShown c = true) (more : LiteralBlock t s) :
      LiteralBlock (c :: t) (c :: s)
  | newline {e t s : List Char} (newline : Newline e)
      (more : LiteralBlock t s) : LiteralBlock (e ++ t) ('\n' :: s)
  | quotes {q t s : List Char} (few : Few '\x27' q)
      (other : ∀ r, t ≠ '\x27' :: r) (more : LiteralBlock t s) :
      LiteralBlock (q ++ t) (q ++ s)

/-- What may stand between the first quotes and a text: the end of their
line, or nothing where the text does not start with one. -/
inductive Opening : List Char → List Char → Prop
  | newline {e t : List Char} (newline : Newline e) : Opening e t
  | none {t : List Char} (solid : ∀ c r, t = c :: r → c ∉ ['\n', '\r']) :
      Opening [] t

/-- A string on several lines, with its quotes. -/
inductive Spread : List Char → List Char → Prop
  | basic {e t s : List Char} (opening : Opening e t) (block : Block t s) :
      Spread (['\x22', '\x22', '\x22'] ++ (e ++ (t ++ ['\x22', '\x22', '\x22'])))
        s
  | literal {e t s : List Char} (opening : Opening e t)
      (block : LiteralBlock t s) :
      Spread (['\x27', '\x27', '\x27'] ++ (e ++ (t ++ ['\x27', '\x27', '\x27'])))
        s

-- =============================================================== numbers

/-- Digits with single underscores in front of some of them. -/
inductive Grouped (ok : Char → Bool) : List Char → List Char → Prop
  | nil : Grouped ok [] []
  | digit {c : Char} {t ds : List Char} (digit : ok c = true)
      (more : Grouped ok t ds) : Grouped ok (c :: t) (c :: ds)
  | under {c : Char} {t ds : List Char} (digit : ok c = true)
      (more : Grouped ok t ds) : Grouped ok ('_' :: c :: t) (c :: ds)

/-- A number without its sign. A zero stands alone. -/
inductive Whole : List Char → Nat → Prop
  | zero : Whole ['0'] 0
  | digits {c : Char} {t ds : List Char} (digit : c.isDigit = true)
      (zero : c ≠ '0') (more : Grouped Char.isDigit t ds) :
      Whole (c :: t) (Nat.ofDigitChars 10 (c :: ds) 0)

/-- The letter of a base. -/
inductive Base : Char → Nat → Prop
  | sixteen : Base 'x' 16
  | eight : Base 'o' 8
  | two : Base 'b' 2

/-- What a digit to one of these bases counts. -/
def digitOf (c : Char) : Nat := (Json.Quoted.hexValue? c).getD 0

/-- A number to another base than ten. -/
inductive Based : List Char → Nat → Prop
  | digits {x c : Char} {t ds : List Char} {base : Nat} (letter : Base x base)
      (digit : Numeral.isDigitOf base c = true)
      (more : Grouped (Numeral.isDigitOf base) t ds) :
      Based ('0' :: x :: c :: t)
        (Nat.ofDigits base ((c :: ds).map digitOf).reverse)

-- ======================================================== names and values

/-- A name of one part. -/
inductive Name : List Char → String → Prop
  | bare {s : List Char} (some_ : s ≠ []) (all : ∀ c ∈ s, isBare c = true) :
      Name s (String.ofList s)
  | quoted {t s : List Char} (quoted : Quoted t s) : Name t (String.ofList s)

/-- A value that holds no others. -/
inductive Scalar : List Char → Node → Prop
  | yes : Scalar ['t', 'r', 'u', 'e'] (.bool true)
  | no : Scalar ['f', 'a', 'l', 's', 'e'] (.bool false)
  | whole {t plus : List Char} {n : Nat} (sign : plus = [] ∨ plus = ['+'])
      (whole : Whole t n) (fits : n < 9223372036854775808) :
      Scalar (plus ++ t) (.integer n)
  /-- Of the numbers from zero up, a minus may stand before zero alone. -/
  | minus : Scalar ['-', '0'] (.integer 0)
  | based {t : List Char} {n : Nat} (based : Based t n)
      (fits : n < 9223372036854775808) : Scalar t (.integer n)
  | string {t s : List Char} (quoted : Quoted t s) :
      Scalar t (.string (String.ofList s))
  | spread {t s : List Char} (spread : Spread t s) :
      Scalar t (.string (String.ofList s))

-- ================================================================= lines

/-- A line without its end, and what it assigns. -/
inductive Line : List Char → Members → Prop
  | idle {b c : List Char} (before : Blanks b) (comment : Comment c) :
      Line (b ++ c) []
  | assigns {b t b₁ b₂ u b₃ c : List Char} {name : String} {v : Node}
      (before : Blanks b) (spelt : Name t name) (left : Blanks b₁)
      (right : Blanks b₂) (value : Scalar u v) (after : Blanks b₃)
      (comment : Comment c) :
      Line (b ++ (t ++ (b₁ ++ '=' :: (b₂ ++ (u ++ (b₃ ++ c)))))) [(name, v)]

/-- A text of such lines, and what it assigns, in order. The last line may
do without its end. -/
inductive Document : List Char → Members → Prop
  | last {s : List Char} {ms : Members} (line : Line s ms) : Document s ms
  | more {s e t : List Char} {ms ms' : Members} (line : Line s ms)
      (newline : Newline e) (rest : Document t ms') :
      Document (s ++ (e ++ t)) (ms ++ ms')

end TaskLedger.Toml
