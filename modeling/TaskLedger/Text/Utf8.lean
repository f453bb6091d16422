/-
Texts as bytes. `encode` and `decode?` are the UTF-8 of Unicode: every
character has one spelling, a longer one is refused, and so are the
surrogates and what lies above U+10FFFF.

`decode?` is structural in the bytes. Each branch consumes one whole
character, so the places where a text may be cut are the places where
`decode?` of the two halves succeeds.
-/
namespace TaskLedger.Text.Utf8

/-- The bytes of a text. -/
def encode (s : List Char) : List UInt8 := s.flatMap String.utf8EncodeChar

/-- A byte that goes on with a character. -/
def isTail (b : UInt8) : Bool := 0x80 ≤ b && b ≤ 0xBF

/-- The low six bits of a byte that goes on. -/
def tailBits (b : UInt8) : Nat := b.toNat % 64

/-- The character of a two-byte spelling. -/
def two? (a b : UInt8) : Option Char :=
  if 0xC2 ≤ a && a ≤ 0xDF && isTail b then
    some (Char.ofNat ((a.toNat % 32) * 64 + tailBits b))
  else none

/-- The character of a three-byte spelling. -/
def three? (a b c : UInt8) : Option Char :=
  let lead :=
    if a == 0xE0 then 0xA0 ≤ b && b ≤ 0xBF
    else if a == 0xED then 0x80 ≤ b && b ≤ 0x9F
    else 0xE1 ≤ a && a ≤ 0xEF && isTail b
  if lead && isTail c then
    some (Char.ofNat ((a.toNat % 16) * 4096 + tailBits b * 64 + tailBits c))
  else none

/-- The character of a four-byte spelling. -/
def four? (a b c d : UInt8) : Option Char :=
  let lead :=
    if a == 0xF0 then 0x90 ≤ b && b ≤ 0xBF
    else if a == 0xF4 then 0x80 ≤ b && b ≤ 0x8F
    else 0xF1 ≤ a && a ≤ 0xF3 && isTail b
  if lead && isTail c && isTail d then
    some (Char.ofNat
      ((a.toNat % 8) * 262144 + tailBits b * 4096 + tailBits c * 64 + tailBits d))
  else none

/-- The text of some bytes, if they spell one. -/
def decode? : List UInt8 → Option (List Char)
  | [] => some []
  | a :: r₁ =>
    if a < 0x80 then (decode? r₁).map (Char.ofNat a.toNat :: ·)
    else match r₁ with
      | [] => none
      | b :: r₂ =>
        if a < 0xE0 then (two? a b).bind fun x => (decode? r₂).map (x :: ·)
        else match r₂ with
          | [] => none
          | c :: r₃ =>
            if a < 0xF0 then (three? a b c).bind fun x => (decode? r₃).map (x :: ·)
            else match r₃ with
              | [] => none
              | d :: r₄ => (four? a b c d).bind fun x => (decode? r₄).map (x :: ·)

/-- The text of some bytes as a string. -/
def string? (bytes : List UInt8) : Option String := (decode? bytes).map String.ofList

/-- The bytes of a string. -/
def ofString (s : String) : List UInt8 := encode s.toList

end TaskLedger.Text.Utf8
