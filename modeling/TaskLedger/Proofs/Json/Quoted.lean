/-
A string that was written is read back.

The reader has one equation for each sort of spelling: a character that
stands for itself, a letter behind a backslash, a number, the two halves of
a character. Whoever takes a string apart goes by these four, and the writer
uses three of them.
-/
import TaskLedger.Json.Quoted

namespace TaskLedger.Json.Quoted

/-- Control characters by their number. -/
theorem hex4?_control {n : Nat} (h : n < 32) :
    hex4? '0' '0' (hexDigit (n / 16)) (hexDigit (n % 16)) = some n := by
  revert n
  decide

/-- A character that needs no spelling of its own stands for itself. -/
theorem read_plain {c : Char} (quote : c ≠ '\x22') (slash : c ≠ '\\')
    (plain : ¬ c.toNat < 0x20) (r : List Char) :
    read (c :: r) = push c (read r) := by
  rw [read]
  · exact if_neg plain
  · exact quote
  · exact slash

/-- A number of four digits stands for its character, unless it is a half of
one. -/
theorem read_numbered {a b c d : Char} {n : Nat}
    (digits : hex4? a b c d = some n) (low : isLow n = false)
    (high : isHigh n = false) (r : List Char) :
    read ('\\' :: 'u' :: a :: b :: c :: d :: r)
      = push (Char.ofNat n) (read r) := by
  rw [read, digits]
  dsimp only
  rw [low, high]
  rfl

/-- A letter behind a backslash stands for its character. -/
theorem read_letter {e c : Char} (other : e ≠ 'u')
    (letter : letter? e = some c) (r : List Char) :
    read ('\\' :: e :: r) = push c (read r) := by
  rw [read, letter]
  exact other

/-- Two halves stand for the character that they join to. -/
theorem read_halves {a b c d a' b' c' d' : Char} {n m : Nat}
    (first : hex4? a b c d = some n) (low : isLow n = false)
    (high : isHigh n = true) (second : hex4? a' b' c' d' = some m)
    (half : isLow m = true) (r : List Char) :
    read ('\\' :: 'u' :: a :: b :: c :: d ::
        '\\' :: 'u' :: a' :: b' :: c' :: d' :: r)
      = push (join n m) (read r) := by
  rw [read, first]
  -- neither condition on the first half holds, and a second half follows
  simp only [low, high, second, half]
  rfl

/-- The spelling of a character is read as that character. -/
theorem read_escape (c : Char) (r : List Char) :
    read (escape c ++ r) = push c (read r) := by
  unfold escape
  split
  · next e => subst e; rfl
  split
  · next e => subst e; rfl
  split
  · next e => subst e; rfl
  split
  · next e => subst e; rfl
  split
  · next e => subst e; rfl
  split
  · next e => subst e; rfl
  split
  · next e => subst e; rfl
  split
  · next control =>
    have low : isLow c.toNat = false := by
      unfold isLow
      rw [Bool.and_eq_false_iff, decide_eq_false_iff_not]
      omega
    have high : isHigh c.toNat = false := by
      unfold isHigh
      rw [Bool.and_eq_false_iff, decide_eq_false_iff_not]
      omega
    have number := read_numbered (hex4?_control control) low high r
    rw [Char.ofNat_toNat] at number
    exact number
  · next quote slash _ _ _ _ _ plain => exact read_plain quote slash plain r

/-- A written string is read up to its closing quote. -/
theorem read_write (s r : List Char) :
    read (s.flatMap escape ++ '\x22' :: r) = .ok (s, r) := by
  induction s with
  | nil => rfl
  | cons c s ih =>
      rw [List.flatMap_cons, List.append_assoc, read_escape, ih]
      rfl

/-- A spelling has no control character in it. -/
theorem plain_of_mem_escape {c d : Char} (mem : d ∈ escape c) :
    0x20 ≤ d.toNat := by
  unfold escape at mem
  -- seven spellings of two characters, one of six, and the character itself
  have two {a : Char} (mem : d ∈ ['\\', a]) (plain : 0x20 ≤ a.toNat) :
      0x20 ≤ d.toNat := by
    simp only [List.mem_cons, List.not_mem_nil, or_false] at mem
    rcases mem with rfl | rfl
    · decide
    · exact plain
  split at mem
  · exact two mem (by decide)
  split at mem
  · exact two mem (by decide)
  split at mem
  · exact two mem (by decide)
  split at mem
  · exact two mem (by decide)
  split at mem
  · exact two mem (by decide)
  split at mem
  · exact two mem (by decide)
  split at mem
  · exact two mem (by decide)
  split at mem
  · next control =>
    have digit : ∀ n < 16, 0x20 ≤ (hexDigit n).toNat := by decide
    simp only [List.mem_cons, List.not_mem_nil, or_false] at mem
    rcases mem with rfl | rfl | rfl | rfl | rfl | rfl
    · decide
    · decide
    · decide
    · decide
    · exact digit _ (by omega)
    · exact digit _ (by omega)
  · next plain =>
    obtain rfl := List.mem_singleton.mp mem
    omega

end TaskLedger.Json.Quoted
