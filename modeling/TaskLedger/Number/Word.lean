/-
Words of 64 bits as people write them: digits, with a plus before them or
not, and as many zeros in front as they like.
-/
namespace TaskLedger.Word

/-- The number that digits spell. -/
def ofDigits? (ds : List Char) : Option UInt64 :=
  if ds.isEmpty || !ds.all Char.isDigit then none
  else
    let n := Nat.ofDigitChars 10 ds 0
    if n < UInt64.size then some (UInt64.ofNat n) else none

/-- The number that a text spells. -/
def read? : List Char → Option UInt64
  | '+' :: ds => ofDigits? ds
  | ds => ofDigits? ds

end TaskLedger.Word
