/-
Numbers of JSON, as a reader of 64-bit integers meets them.

A whole number that fits 64 bits is exact. Anything else (a point, an
exponent, a minus before zero, too many digits) is a number with a
binary point, which no field of a span accepts; what the reader computes
for it is only shown. It keeps the leading digits that fit 64 bits, and
scales them by powers of ten (`scale`) with a rounding at each step.

A number whose value nobody asks for is skipped by its form alone, and a
text that ends inside it counts there as malformed.
-/
import TaskLedger.Json.Fault
import TaskLedger.Number.Shortest

namespace TaskLedger.Json

/-- A number as read. -/
inductive Numeral
  | whole (n : Nat)
  | negative (n : Int)
  | real (x : Binary64)
  deriving DecidableEq, Repr

namespace Numeral

/-- How a message names a number. -/
def found : Numeral → Found
  | .whole n => .integer n
  | .negative n => .integer n
  | .real x => .real (Shortest.text .exponent x)

/-- The bound of 64-bit words. -/
def wordBound : Nat := 18446744073709551616

/-- The digits in front of a text. -/
def digitsOf (s : List Char) : List Char := s.takeWhile Char.isDigit

/-- What follows the digits in front of a text. -/
def afterDigits (s : List Char) : List Char := s.dropWhile Char.isDigit

/-- The value of digits. -/
def value (ds : List Char) : Nat := Nat.ofDigitChars 10 ds 0

/-- Takes in digits for as long as the word holds them. What does not
fit is left. -/
def absorb (word : Nat) : List Char → Nat × List Char
  | [] => (word, [])
  | d :: ds =>
    let next := word * 10 + (d.toNat - 48)
    if next < wordBound then absorb next ds else (word, d :: ds)

-- =============================================================== scaling

/-- The number nearest to a power of ten. -/
def powerOfTen (k : Nat) : Binary64 :=
  (Binary64.ofDecimal? 1 k).getD { mantissa := 0, exponent := 0 }

/-- Divides by the largest power of ten there is, at most so many times,
while the exponent is below the least. -/
def shrink : Nat → Binary64 → Int → Binary64 × Int
  | 0, x, e => (x, e)
  | n + 1, x, e =>
    if -308 ≤ e ∨ x.mantissa = 0 then (x, e)
    else shrink n ((x.div? (powerOfTen 308)).getD x) (e + 308)

/-- `word * 10 ^ e`, rounded at each step; none above the largest. -/
def scale? (word : Nat) (e : Int) : Option Binary64 := do
  let x ← Binary64.nearest? word 1
  if x.mantissa = 0 then some x
  else if 308 < e then none
  else if 0 ≤ e then x.mul? (powerOfTen e.toNat)
  else
    let (x, e) := shrink 4 x e
    if x.mantissa = 0 then some x else x.div? (powerOfTen e.natAbs)

/-- The number with its sign, or a fault if it is too large. -/
def scaled (negative : Bool) (word : Nat) (e : Int) : Except Fault Numeral :=
  match scale? word e with
  | some x => .ok (.real { x with negative := negative })
  | none => .error .malformed

-- =============================================================== reading

/-- Whether a minus stands in front, and what follows the sign. -/
def signOf : List Char → Bool × List Char
  | '+' :: r => (false, r)
  | '-' :: r => (true, r)
  | r => (false, r)

/-- The exponent of a number, from after its letter. -/
def readExponent (negative : Bool) (word : Nat) (base : Int) : Reader Numeral := fun s =>
  let (below, s) := signOf s
  match s with
  | [] => .error .truncated
  | c :: _ =>
    if !c.isDigit then .error .malformed
    else
      let e := value (digitsOf s)
      let rest := afterDigits s
      if 2147483647 < e then
        if word ≠ 0 ∧ !below then .error .malformed
        else .ok (.real { negative := negative, mantissa := 0, exponent := 0 }, rest)
      else do
        let x ← scaled negative word (if below then base - e else base + e)
        .ok (x, rest)

/-- The digits after a point, from after it. -/
def readFraction (negative : Bool) (word : Nat) (base : Int) : Reader Numeral := fun s =>
  let ds := digitsOf s
  let rest := afterDigits s
  if ds.isEmpty then .error (if rest.isEmpty then .truncated else .malformed)
  else
    let (word, left) := absorb word ds
    let base := base - (ds.length - left.length : Nat)
    match rest with
    | 'e' :: r => readExponent negative word base r
    | 'E' :: r => readExponent negative word base r
    | r => do .ok (← scaled negative word base, r)

/-- A whole number with a minus before it. -/
def negate (n : Nat) : Except Fault Numeral :=
  if n = 0 then .ok (.real { negative := true, mantissa := 0, exponent := 0 })
  else if n ≤ 9223372036854775808 then .ok (.negative (-(n : Int)))
  else scaled true n 0

/-- A number, from after its sign. -/
def read (negative : Bool) : Reader Numeral := fun s =>
  let ds := digitsOf s
  match s with
  | [] => .error .truncated
  | c :: _ =>
    if !c.isDigit || (c == '0' && 1 < ds.length) then .error .malformed
    else
      let (word, left) := absorb 0 ds
      match afterDigits s with
      | '.' :: r => readFraction negative word left.length r
      | 'e' :: r => readExponent negative word left.length r
      | 'E' :: r => readExponent negative word left.length r
      | r =>
        if !left.isEmpty then do .ok (← scaled negative word left.length, r)
        else if negative then do .ok (← negate word, r)
        else .ok (.whole word, r)

-- ============================================================== skipping

/-- What follows an exponent nobody asks for, from after its letter. -/
def skipExponent (s : List Char) : Except Fault (List Char) :=
  let s := (signOf s).2
  if (digitsOf s).isEmpty then .error .malformed else .ok (afterDigits s)

/-- What follows a number nobody asks for, from after its sign. -/
def skip (s : List Char) : Except Fault (List Char) :=
  let ds := digitsOf s
  if ds.isEmpty || (ds.head? == some '0' && 1 < ds.length) then .error .malformed
  else match afterDigits s with
    | '.' :: r =>
      if (digitsOf r).isEmpty then .error .malformed
      else match afterDigits r with
        | 'e' :: r => skipExponent r
        | 'E' :: r => skipExponent r
        | r => .ok r
    | 'e' :: r => skipExponent r
    | 'E' :: r => skipExponent r
    | r => .ok r

end Numeral

end TaskLedger.Json
