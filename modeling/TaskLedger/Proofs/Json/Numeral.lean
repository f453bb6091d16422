/-
A written word of 64 bits is read back as the word that it is.

The reader takes all digits that it finds, so a number has to end
(`NumberEnds`): no digit follows, and nothing that would turn it into a
number with a point. It refuses a zero in front of other digits; the
decimal text of a number has one only if the number is zero
(`head_toDigits`).
-/
import TaskLedger.Json.Scalar
import TaskLedger.Span.Writer

namespace TaskLedger.Json

/-- What follows does not go on with a number. -/
def NumberEnds (r : List Char) : Prop :=
  ∀ c rest, r = c :: rest →
    c.isDigit = false ∧ c ≠ '.' ∧ c ≠ 'e' ∧ c ≠ 'E'

namespace Numeral

-- =============================================================== digits

/-- Digits are cut off where no digit follows. -/
theorem digits_cut {ds r : List Char} (digits : ∀ c ∈ ds, c.isDigit = true)
    (ends : ∀ c rest, r = c :: rest → c.isDigit = false) :
    digitsOf (ds ++ r) = ds ∧ afterDigits (ds ++ r) = r := by
  unfold digitsOf afterDigits
  rw [List.takeWhile_append_of_pos digits, List.dropWhile_append_of_pos digits]
  cases r with
  | nil => exact ⟨List.append_nil ds, rfl⟩
  | cons c rest =>
      have none := ends c rest rfl
      rw [List.takeWhile_cons_of_neg (by simp [none]),
        List.dropWhile_cons_of_neg (by simp [none])]
      exact ⟨List.append_nil ds, rfl⟩

theorem isDigit_toDigits {n : Nat} : ∀ c ∈ Nat.toDigits 10 n,
    c.isDigit = true :=
  fun _ => Nat.isDigit_of_mem_toDigits (by decide) (by decide)

/-- A positive number has no zero in front. -/
theorem head_toDigits {n : Nat} (pos : 0 < n) :
    (Nat.toDigits 10 n).head? ≠ some '0' := by
  induction n using Nat.strongRecOn with
  | ind n ih =>
      rw [Nat.toDigits_eq_if (by decide)]
      split
      · next small =>
          intro zero
          have digit := Nat.toNat_digitChar_of_lt_ten small
          rw [Option.some.inj zero] at digit
          have : '0'.toNat = 48 := rfl
          omega
      · obtain ⟨c, cs, digits⟩ := List.exists_cons_of_ne_nil
          (Nat.toDigits_ne_nil (n := n / 10) (b := 10))
        have before := ih (n / 10) (by omega) (by omega)
        rw [digits] at before ⊢
        exact before

/-- Digits never make a word smaller. -/
theorem le_ofDigitChars (ds : List Char) (word : Nat) :
    word ≤ Nat.ofDigitChars 10 ds word := by
  rw [Nat.ofDigitChars_eq_ofDigitChars_zero]
  have := Nat.le_mul_of_pos_left word (Nat.pow_pos (n := ds.length)
    (show 0 < 10 by decide))
  omega

/-- Digits of a word of 64 bits are taken in to the last. -/
theorem absorb_all {ds : List Char} {word : Nat}
    (fits : Nat.ofDigitChars 10 ds word < wordBound) :
    absorb word ds = (Nat.ofDigitChars 10 ds word, []) := by
  induction ds generalizing word with
  | nil => rfl
  | cons d ds ih =>
      rw [Nat.ofDigitChars_cons, Nat.mul_comm] at fits ⊢
      have next := le_ofDigitChars ds (word * 10 + (d.toNat - '0'.toNat))
      have here : word * 10 + (d.toNat - 48) < wordBound := by
        have : '0'.toNat = 48 := rfl
        omega
      rw [absorb, if_pos here]
      exact ih fits

-- ============================================================== reading

/-- What a whole number is read as, with a minus before it or without. -/
theorem read_toDigits {n : Nat} (fits : n < wordBound) {r : List Char}
    (ends : NumberEnds r) (negative : Bool) :
    read negative (Nat.toDigits 10 n ++ r)
      = if negative then (negate n).map fun x => (x, r)
        else .ok (.whole n, r) := by
  obtain ⟨cut, rest⟩ := digits_cut (isDigit_toDigits (n := n))
    fun c rest same => (ends c rest same).1
  have word : absorb 0 (Nat.toDigits 10 n) = (n, []) := by
    have value := Nat.ofDigitChars_ten_toDigits (n := n)
    rw [absorb_all (by rw [value]; exact fits), value]
  obtain ⟨c, ds, digits⟩ := List.exists_cons_of_ne_nil
    (Nat.toDigits_ne_nil (n := n) (b := 10))
  have digit : c.isDigit = true := by
    refine isDigit_toDigits (n := n) c ?_
    rw [digits]
    exact List.mem_cons_self
  -- a zero in front stands alone
  have alone : (c == '0' && decide (1 < (Nat.toDigits 10 n).length))
      = false := by
    rcases Nat.eq_zero_or_pos n with rfl | pos
    · rw [Nat.toDigits_zero]
      exact Bool.and_false _
    · have head := head_toDigits pos
      rw [digits, List.head?_cons] at head
      rw [beq_eq_false_iff_ne.mpr fun e => head (congrArg some e)]
      rfl
  unfold read
  dsimp only
  rw [cut, rest, word]
  rw [digits, List.cons_append]
  rw [digits] at alone
  dsimp only
  rw [digit, alone]
  simp only [Bool.not_true, Bool.or_false, Bool.false_eq_true, if_false]
  split
  · next h => exact absurd rfl (ends _ _ rfl).2.1
  · next h => exact absurd rfl (ends _ _ rfl).2.2.1
  · next h => exact absurd rfl (ends _ _ rfl).2.2.2
  · simp only [List.isEmpty_nil, Bool.not_true, Bool.false_eq_true, if_false]
    cases negative with
    | true => cases negate n <;> rfl
    | false => rfl

end Numeral

end TaskLedger.Json
