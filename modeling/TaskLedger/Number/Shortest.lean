/-
The shortest decimal text of a number with 53 binary digits.

`Shortest.decimal` looks for the fewest digits that read back as the same
number: for one digit, two digits and so on it tries the two neighbours
on that decimal grid, and takes the nearer where both read back.
Seventeen digits always do. What remains is the business of a `Layout`:
which neighbour an exact tie goes to, and where the point stands. In a
span file's messages the even one and an exponent when the point is far
away, in a settings file's messages the larger one and always in full.
-/
import TaskLedger.Number.Binary64

namespace TaskLedger.Shortest

/-- Digits without zeros at their end, and the power of ten of the first. -/
structure Decimal where
  digits : List Char
  power : Int
  deriving DecidableEq, Repr

/-- The power of ten of the first decimal digit of `num / den`, for a
positive fraction. -/
def firstPower (num den : Nat) : Int :=
  if den ≤ num then ((Nat.toDigits 10 (num / den)).length : Int) - 1
  else
    let d := (Nat.toDigits 10 (den / num)).length
    if den ≤ num * Binary64.tenTo (d - 1) then -((d : Int) - 1) else -(d : Int)

/-- Drops the zeros at the end of a number. -/
def dropZeros (digits : List Char) : List Char :=
  (digits.reverse.dropWhile (· == '0')).reverse

/-- `c * 10 ^ p` as digits. -/
def ofGrid (c : Nat) (p : Int) : Decimal :=
  let ds := Nat.toDigits 10 c
  { digits := dropZeros ds, power := p + ((ds.length : Int) - 1) }

/-- Which of two neighbours a number halfway between them goes to. -/
inductive Tie
  | even
  | up
  deriving DecidableEq, Repr

/-- The lower neighbour of a halfway number is the one to take. -/
def Tie.goesDown (tie : Tie) (low : Nat) : Bool := tie == .even && low % 2 == 0

/-- The grid of `n` digits: the neighbour of the number on it that reads
back as the number, the nearer if both do. -/
def onGrid? (tie : Tie) (x : Binary64) (n : Nat) : Option Decimal :=
  let (num, den) := x.fraction
  let p := firstPower num den - (n : Int) + 1
  let (a, b) :=
    if 0 ≤ p then (num, den * Binary64.tenTo p.toNat)
    else (num * Binary64.tenTo (-p).toNat, den)
  let low := a / b
  let reads (c : Nat) : Bool :=
    match Binary64.ofDecimal? c p with
    | some y => x.sameMagnitude y
    | none => false
  let rest := a % b
  let lowNearer := 2 * rest < b || (2 * rest == b && tie.goesDown low)
  if reads low && (lowNearer || !reads (low + 1)) then some (ofGrid low p)
  else if reads (low + 1) then some (ofGrid (low + 1) p)
  else none

/-- The fewest digits that read back as the number. -/
def decimal (tie : Tie) (x : Binary64) : Decimal :=
  if x.mantissa = 0 then { digits := ['0'], power := 0 }
  else ((List.range 17).findSome? fun n => onGrid? tie x (n + 1)).getD
    { digits := ['0'], power := 0 }

-- ============================================================== layouts

/-- Where ties go, and where the point may stand without an exponent:
from the first of these powers of ten for the leading digit to the last. -/
structure Layout where
  tie : Tie
  plainFrom : Option Int
  plainTo : Option Int
  deriving Repr

/-- Always in full, ties up. -/
def Layout.full : Layout := ⟨.up, none, none⟩

/-- In full from a hundred-thousandth up to sixteen digits before the
point, and with an exponent otherwise, ties to the even neighbour. -/
def Layout.exponent : Layout := ⟨.even, some (-5), some 15⟩

/-- Whether a leading digit of that power stands without an exponent. -/
def Layout.isPlain (l : Layout) (power : Int) : Bool :=
  l.plainFrom.all (· ≤ power) && l.plainTo.all (power ≤ ·)

/-- The digits with the point in its place, and at least one on each side. -/
def plain (d : Decimal) : List Char :=
  if d.power < 0 then
    '0' :: '.' :: (List.replicate ((-d.power).toNat - 1) '0' ++ d.digits)
  else
    let n := d.power.toNat + 1
    let whole := d.digits.take n ++ List.replicate (n - d.digits.length) '0'
    let rest := d.digits.drop n
    whole ++ '.' :: (if rest.isEmpty then ['0'] else rest)

/-- The digits with the point after the first, and an exponent with a
sign. -/
def withExponent (d : Decimal) : List Char :=
  let rest := d.digits.drop 1
  d.digits.take 1 ++ (if rest.isEmpty then [] else '.' :: rest)
    ++ 'e' :: (if d.power < 0 then '-' else '+') :: Nat.toDigits 10 d.power.natAbs

/-- The text of a number. -/
def text (l : Layout) (x : Binary64) : String :=
  let d := decimal l.tie x
  let body := if l.isPlain d.power then plain d else withExponent d
  String.ofList (if x.negative then '-' :: body else body)

end TaskLedger.Shortest
