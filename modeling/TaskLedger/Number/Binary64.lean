/-
Numbers with 53 binary digits, as exact fractions.

A value is `mantissa * 2 ^ exponent`, so arithmetic on it is arithmetic
on fractions of natural numbers followed by one rounding (`nearest?`).
Nothing here uses the machine's own floating point, which the logic
cannot look into. A reader of numbers needs products and quotients only.
-/
namespace TaskLedger

/-- A finite number with a binary point: at most 53 digits, and an
exponent from -1074 to 971. -/
structure Binary64 where
  negative : Bool := false
  mantissa : Nat
  exponent : Int
  deriving DecidableEq, Repr

namespace Binary64

/-- The integer nearest to `num / den`; a half goes to the even one. -/
def roundHalfEven (num den : Nat) : Nat :=
  let q := num / den
  let r := num % den
  if den < 2 * r || (2 * r == den && q % 2 == 1) then q + 1 else q

/-- The greatest `e` with `2 ^ e ≤ num / den`, for a positive fraction. -/
def floorLog (num den : Nat) : Int :=
  let guess : Int := (num.log2 : Int) - (den.log2 : Int)
  let (n, d) := if 0 ≤ guess then (num, den <<< guess.toNat) else (num <<< (-guess).toNat, den)
  if n < d then guess - 1 else guess

/-- `num / den` over `2 ^ e`, as a fraction. -/
def scaled (num den : Nat) (e : Int) : Nat × Nat :=
  if 0 ≤ e then (num, den <<< e.toNat) else (num <<< (-e).toNat, den)

/-- The number nearest to `num / den`, if that is not above the largest.
The result is unsigned. -/
def nearest? (num den : Nat) : Option Binary64 :=
  if num = 0 then some { mantissa := 0, exponent := 0 }
  else
    let e := max (-1074) (floorLog num den - 52)
    let (n, d) := scaled num den e
    let m := roundHalfEven n d
    let (m, e) := if m = 9007199254740992 then (4503599627370496, e + 1) else (m, e)
    if e ≤ 971 then some { mantissa := m, exponent := e } else none

/-- The magnitude as a fraction. -/
def fraction (x : Binary64) : Nat × Nat :=
  if 0 ≤ x.exponent then (x.mantissa <<< x.exponent.toNat, 1)
  else (x.mantissa, 1 <<< (-x.exponent).toNat)

/-- The magnitude of a product, rounded. -/
def mul? (x y : Binary64) : Option Binary64 :=
  nearest? (x.fraction.1 * y.fraction.1) (x.fraction.2 * y.fraction.2)

/-- The magnitude of a quotient, rounded. A quotient by zero counts as
out of range. -/
def div? (x y : Binary64) : Option Binary64 :=
  if y.mantissa = 0 then none
  else nearest? (x.fraction.1 * y.fraction.2) (x.fraction.2 * y.fraction.1)

/-- A power of ten. -/
def tenTo (n : Nat) : Nat := Nat.pow 10 n

/-- The number nearest to `c * 10 ^ e`. Powers that settle the answer by
themselves are not computed. -/
def ofDecimal? (c : Nat) (e : Int) : Option Binary64 :=
  if c = 0 then nearest? 0 1
  else if 0 ≤ e then if 400 < e then none else nearest? (c * tenTo e.toNat) 1
  else if e < -400 - (c.log2 : Int) then nearest? 0 1
  else nearest? c (tenTo (-e).toNat)

/-- Two numbers of one magnitude. -/
def sameMagnitude (x y : Binary64) : Bool :=
  x.mantissa == y.mantissa && (x.mantissa == 0 || x.exponent == y.exponent)

end Binary64

end TaskLedger
