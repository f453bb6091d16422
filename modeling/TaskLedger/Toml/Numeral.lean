/-
Numbers of TOML. Digits may be grouped by single underscores between two
of them. A whole number has to fit 64 bits with a sign. One with a point
or an exponent is rounded to 53 binary digits; too large a magnitude is an
error above zero and infinite below it.
-/
import TaskLedger.Json.Quoted
import TaskLedger.Number.Shortest
import TaskLedger.Toml.Lexical

namespace TaskLedger.Toml

/-- A number with a point. -/
inductive Real
  | finite (x : Binary64)
  | infinite (negative : Bool)
  | undefined
  deriving DecidableEq, Repr

/-- The text of a number with a point. -/
def Real.text : Real → String
  | finite x => Shortest.text .full x
  | infinite negative => if negative then "-inf" else "inf"
  | undefined => "NaN"

/-- A number of either sort. -/
inductive Numeral
  | whole (n : Int)
  | real (x : Real)
  deriving DecidableEq, Repr

namespace Numeral

-- =============================================================== digits

/-- More digits, after at least one. -/
def moreDigits (ok : Char → Bool) : List Char → Option (List Char × List Char)
  | '_' :: r =>
    match r with
    | d :: r => if ok d then push d (moreDigits ok r) else none
    | [] => none
  | c :: r => if ok c then push c (moreDigits ok r) else some ([], c :: r)
  | [] => some ([], [])

/-- At least one digit. -/
def digits (ok : Char → Bool) : List Char → Option (List Char × List Char)
  | c :: r => if ok c then push c (moreDigits ok r) else none
  | [] => none

/-- The digits before a point: a zero stands alone. -/
def wholeDigits : List Char → Option (List Char × List Char)
  | '0' :: r => some (['0'], r)
  | s => digits Char.isDigit s

/-- The value of digits to a base. -/
def value (base : Nat) (ds : List Char) : Nat :=
  ds.foldl (fun n d => n * base + (Json.Quoted.hexValue? d).getD 0) 0

-- ======================================================== whole numbers

/-- A number that fits 64 bits with a sign. -/
def word? (n : Int) : Option Numeral :=
  if -9223372036854775808 ≤ n ∧ n ≤ 9223372036854775807 then some (.whole n) else none

/-- A digit to a base of at most sixteen. -/
def isDigitOf (base : Nat) (c : Char) : Bool :=
  match Json.Quoted.hexValue? c with
  | some v => v < base
  | none => false

/-- The digits of a number to another base than ten. -/
def based (base : Nat) (s : List Char) : Option (Numeral × List Char) := do
  let (ds, r) ← digits (isDigitOf base) s
  some (← word? (value base ds), r)

-- ================================================= numbers with a point

/-- The fraction of a number, if it has one. -/
def fraction : List Char → Option (Option (List Char) × List Char)
  | '.' :: r => (digits Char.isDigit r).map fun p => (some p.1, p.2)
  | s => some (none, s)

/-- The exponent of a number, if it has one. -/
def exponent : List Char → Option (Option Int × List Char)
  | c :: r =>
    if c = 'e' ∨ c = 'E' then
      let (negative, r) := match r with
        | '+' :: r => (false, r)
        | '-' :: r => (true, r)
        | r => (false, r)
      (digits Char.isDigit r).map fun p =>
        let n : Int := value 10 p.1
        (some (if negative then -n else n), p.2)
    else some (none, c :: r)
  | [] => some (none, [])

/-- The number nearest to `c * 10 ^ e`. -/
def rounded (negative : Bool) (c : Nat) (e : Int) : Option Real :=
  match Binary64.ofDecimal? c e with
  | some x => some (.finite { x with negative })
  | none => if negative then some (.infinite true) else none

/-- A number to base ten, after its sign. -/
def decimal (negative : Bool) (s : List Char) : Option (Numeral × List Char) := do
  let (ds, r) ← wholeDigits s
  let (fs, r) ← fraction r
  let (e, r) ← exponent r
  match fs, e with
  | none, none =>
    let n : Int := value 10 ds
    some (← word? (if negative then -n else n), r)
  | _, _ =>
    let fs := fs.getD []
    let x ← rounded negative (value 10 (ds ++ fs)) (e.getD 0 - fs.length)
    some (.real x, r)

/-- A number after its sign. -/
def unsigned (negative : Bool) : List Char → Option (Numeral × List Char)
  | 'i' :: 'n' :: 'f' :: r => some (.real (.infinite negative), r)
  | 'n' :: 'a' :: 'n' :: r => some (.real .undefined, r)
  | s => decimal negative s

/-- A number. -/
def read : Reader Numeral
  | '+' :: r => unsigned false r
  | '-' :: r => unsigned true r
  | '0' :: 'x' :: r => based 16 r
  | '0' :: 'o' :: r => based 8 r
  | '0' :: 'b' :: r => based 2 r
  | s => unsigned false s

end Numeral

end TaskLedger.Toml
