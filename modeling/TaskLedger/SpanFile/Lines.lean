/-
The lines of a file, as bytes. A line runs up to its line feed, which it
keeps; only the last may lack one. So the lines of a file put together
are the file, and a file that ends in a line feed can be read apart from
what is appended to it.
-/
namespace TaskLedger.SpanFile

/-- The byte that ends a line. -/
def lineFeed : UInt8 := 10

/-- The byte that may stand before the one that ends a line. -/
def carriageReturn : UInt8 := 13

/-- The lines of a file, each with the line feed that ends it. -/
def lines : List UInt8 → List (List UInt8)
  | [] => []
  | b :: r =>
    if b = lineFeed then [b] :: lines r
    else match lines r with
      | [] => [[b]]
      | l :: ls => (b :: l) :: ls

/-- A line without its line feed, and without one carriage return before it. -/
def body (line : List UInt8) : List UInt8 :=
  match line.reverse with
  | a :: b :: r =>
    if a = lineFeed then (if b = carriageReturn then r.reverse else (b :: r).reverse) else line
  | [a] => if a = lineFeed then [] else line
  | [] => line

/-- The lines put together are the file. -/
theorem flatten_lines (bytes : List UInt8) : (lines bytes).flatten = bytes := by
  induction bytes with
  | nil => rfl
  | cons b r ih =>
    unfold lines
    split
    · simp [ih]
    · split
      · rename_i h
        rw [h] at ih
        simp at ih
        simp [← ih]
      · rename_i h
        rw [h] at ih
        simp at ih
        simp [ih]

end TaskLedger.SpanFile
