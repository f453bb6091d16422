/-
Blank characters, and texts without them at the ends.

The class is the Unicode property White_Space. It is wider than the four
blanks that separate the tokens of a span file (`Json.isGap`), and that
difference shows: a line of no-break spaces is skipped as blank, a
no-break space before a record is a fault.
-/
namespace TaskLedger.Text

/-- The characters with the property White_Space. -/
def isBlank (c : Char) : Bool :=
  let n := c.toNat
  (9 ≤ n && n ≤ 13) || n == 0x20 || n == 0x85 || n == 0xA0 || n == 0x1680
    || (0x2000 ≤ n && n ≤ 0x200A) || n == 0x2028 || n == 0x2029 || n == 0x202F
    || n == 0x205F || n == 0x3000

/-- Drops the blanks in front. -/
def trimStart (s : List Char) : List Char := s.dropWhile isBlank

/-- Drops the blanks at the end. -/
def trimEnd (s : List Char) : List Char := (s.reverse.dropWhile isBlank).reverse

/-- Drops the blanks at both ends. -/
def trim (s : List Char) : List Char := trimEnd (trimStart s)

/-- A text with no character but blanks. -/
def allBlank (s : List Char) : Bool := s.all isBlank

end TaskLedger.Text
