/-
Numbers are recognized by their decimal digits.

A word of 64 bits has one text: digits with no zero in front of others are
the decimal digits of their value (`toDigits_value`), so what the reader
takes for a whole number is what the writer would have written. All else
that it takes (a point, an exponent, too many digits, a minus before zero)
is a number with a binary point, which fits no field.

A number that nobody asks for is passed over by its form.
-/
import Mathlib.Data.List.Induction
import TaskLedger.Proofs.Json.Recognition

namespace TaskLedger.Json

namespace Numeral

-- =============================================================== digits

/-- A text is its first digits and what comes after them. -/
theorem digitsOf_append_afterDigits (s : List Char) :
    digitsOf s ++ afterDigits s = s :=
  List.takeWhile_append_dropWhile

theorem isDigit_digitsOf {s : List Char} : ∀ c ∈ digitsOf s, c.isDigit = true :=
  fun c mem => List.all_eq_true.mp List.all_takeWhile c mem

/-- The digits in front, where there are some. -/
theorem digits_digitsOf {s : List Char} (some_ : ¬ (digitsOf s).isEmpty) :
    Digits (digitsOf s) :=
  ⟨fun none_ => some_ (List.isEmpty_iff.mpr none_), isDigit_digitsOf⟩

/-- A digit is the one that its number counts. -/
theorem digitChar_of_isDigit {d : Char} (digit : d.isDigit = true) :
    d.toNat - 48 < 10 ∧ Nat.digitChar (d.toNat - 48) = d := by
  rw [Char.isDigit_iff_toNat] at digit
  have low : '0'.toNat = 48 := rfl
  have high : '9'.toNat = 57 := rfl
  have table : ∀ n < 10, Nat.digitChar n = Char.ofNat (n + 48) := by decide
  refine ⟨by omega, ?_⟩
  rw [table _ (by omega), Nat.sub_add_cancel (by omega), Char.ofNat_toNat]

/-- A digit that is not zero makes a number of its digits. -/
theorem value_pos {ds : List Char} (digits : Digits ds)
    (head : ds.head? ≠ some '0') : 0 < value ds := by
  obtain ⟨c, cs, rfl⟩ := List.exists_cons_of_ne_nil digits.1
  obtain ⟨-, char⟩ := digitChar_of_isDigit (digits.2 c List.mem_cons_self)
  have positive : c.toNat - 48 ≠ 0 := by
    intro zero
    rw [zero] at char
    exact head (congrArg some char.symm)
  have whole := le_ofDigitChars cs (10 * 0 + (c.toNat - '0'.toNat))
  rw [← Nat.ofDigitChars_cons] at whole
  have low : '0'.toNat = 48 := rfl
  unfold value
  omega

/-- Digits with no zero in front are the digits of their value. -/
theorem toDigits_value {ds : List Char} (digits : Digits ds)
    (head : ds.head? ≠ some '0') : Nat.toDigits 10 (value ds) = ds := by
  induction ds using List.reverseRecOn with
  | nil => exact absurd rfl digits.1
  | append_singleton front d ih =>
      obtain ⟨small, char⟩ := digitChar_of_isDigit
        (digits.2 d (List.mem_append_right _ List.mem_cons_self))
      have last : value (front ++ [d]) = 10 * value front + (d.toNat - 48) := by
        unfold value
        rw [Nat.ofDigitChars_append, Nat.ofDigitChars_cons]
        rfl
      rw [last, Nat.toDigits_eq_if (by decide)]
      by_cases none_ : front = []
      · subst none_
        rw [if_pos (by simpa [value] using small)]
        simpa [value] using char
      · have before : Digits front :=
          ⟨none_, fun c mem => digits.2 c (List.mem_append_left _ mem)⟩
        have first : front.head? ≠ some '0' := by
          obtain ⟨c, cs, rfl⟩ := List.exists_cons_of_ne_nil none_
          exact head
        have positive := value_pos before first
        rw [if_neg (by omega), Nat.mul_add_div (by decide), Nat.mul_add_mod,
          Nat.div_eq_of_lt small, Nat.mod_eq_of_lt small, Nat.add_zero,
          ih before first, char]

/-- Digits without a zero in front are what is written for the number that they
count. -/
theorem Whole.toDigits {ds : List Char} (whole : Whole ds) :
    Nat.toDigits 10 (value ds) = ds := by
  by_cases zero : ds.head? = some '0'
  · obtain ⟨c, cs, rfl⟩ := List.exists_cons_of_ne_nil whole.1.1
    obtain rfl := Option.some.inj zero
    obtain rfl := List.eq_nil_of_length_eq_zero
      (Nat.succ.inj (whole.2 zero))
    rfl
  · exact toDigits_value whole.1 zero

/-- Digits that were all taken in are a word of 64 bits. -/
theorem absorb_exact {ds : List Char} {word n : Nat}
    (small : word < wordBound) (taken : absorb word ds = (n, [])) :
    n = Nat.ofDigitChars 10 ds word ∧ n < wordBound := by
  induction ds generalizing word with
  | nil =>
      obtain ⟨rfl, -⟩ := Prod.mk.inj taken
      exact ⟨rfl, small⟩
  | cons d ds ih =>
      rw [absorb] at taken
      split at taken
      · next fits =>
        rw [Nat.ofDigitChars_cons, Nat.mul_comm 10]
        exact ih fits taken
      · cases (Prod.mk.inj taken).2

-- ============================================================== reading

/-- What is scaled is a real number, and none that a word could hold. -/
theorem scaled_real {negative : Bool} {word : Nat} {e : Int} {x : Numeral}
    (h : scaled negative word e = .ok x) : ∃ y, x = .real y := by
  unfold scaled at h
  split at h
  · exact ⟨_, (Except.ok.inj h).symm⟩
  · cases h

/-- A number with an exponent is a real one. -/
theorem readExponent_real {negative : Bool} {word : Nat} {base : Int}
    {s r : List Char} {x : Numeral}
    (h : readExponent negative word base s = .ok (x, r)) :
    ∃ y, x = .real y := by
  unfold readExponent at h
  generalize signOf s = signed at h
  obtain ⟨below, s⟩ := signed
  dsimp only at h
  split at h
  · cases h
  split at h
  · cases h
  split at h
  · split at h
    · cases h
    · exact ⟨_, (Prod.mk.inj (Except.ok.inj h)).1.symm⟩
  · exact scaled_real (with_rest h).1

/-- And so is one with a fraction. -/
theorem readFraction_real {negative : Bool} {word : Nat} {base : Int}
    {s r : List Char} {x : Numeral}
    (h : readFraction negative word base s = .ok (x, r)) :
    ∃ y, x = .real y := by
  unfold readFraction at h
  dsimp only at h
  split at h
  · split at h <;> cases h
  split at h
  · exact readExponent_real h
  · exact readExponent_real h
  · exact scaled_real (with_rest h).1

/-- What is read as a whole number is written as one. -/
theorem read_spelt {negative : Bool} {s r : List Char} {x : Numeral}
    (h : read negative s = .ok (x, r)) :
    (∃ y, x = .real y) ∨ ∃ n, n < wordBound ∧ s = Nat.toDigits 10 n ++ r
      ∧ if negative then negate n = .ok x else x = .whole n := by
  unfold read at h
  dsimp only at h
  split at h
  · cases h
  next c t =>
  split at h
  · cases h
  next first =>
  rw [Bool.or_eq_true, not_or, Bool.not_eq_true, Bool.not_eq_false'] at first
  obtain ⟨digit, alone⟩ := first
  -- the digits are the whole number, for a zero in front stands alone
  have whole : Whole (digitsOf (c :: t)) := by
    have cut : digitsOf (c :: t) = c :: digitsOf t :=
      List.takeWhile_cons_of_pos digit
    refine ⟨⟨?_, isDigit_digitsOf⟩, fun zero => ?_⟩
    · rw [cut]
      exact List.cons_ne_nil _ _
    · rw [cut] at zero alone ⊢
      simp [Option.some.inj zero] at alone
      simp [alone]
  -- a point or an exponent makes it a real number
  split at h
  · exact .inl (readFraction_real h)
  · exact .inl (readExponent_real h)
  · exact .inl (readExponent_real h)
  split at h
  · exact .inl (scaled_real (with_rest h).1)
  next all =>
  obtain ⟨n, left, taken⟩ : ∃ n left, absorb 0 (digitsOf (c :: t)) = (n, left) :=
    ⟨_, _, rfl⟩
  rw [taken] at all h
  obtain rfl : left = [] := by simpa using all
  -- all digits were taken in, so the number fits
  obtain ⟨exact_, fits⟩ := absorb_exact (by decide) taken
  have text : c :: t = Nat.toDigits 10 n ++ afterDigits (c :: t) := by
    rw [exact_]
    change _ = Nat.toDigits 10 (value _) ++ _
    rw [whole.toDigits, digitsOf_append_afterDigits]
  split at h
  · next minus =>
    obtain ⟨value, rfl⟩ := with_rest h
    exact .inr ⟨n, fits, text, by rw [if_pos minus]; exact value⟩
  · next plus =>
    obtain ⟨rfl, rfl⟩ := Prod.mk.inj (Except.ok.inj h)
    exact .inr ⟨n, fits, text, by rw [if_neg plus]⟩

-- ============================================================= skipping

/-- Behind digits there is no digit, if a number ends there. -/
theorem Digits.cut {ds r : List Char} (digits : Digits ds)
    (stops : ∀ c rest, r = c :: rest → c.isDigit = false) :
    digitsOf (ds ++ r) = ds ∧ afterDigits (ds ++ r) = r
      ∧ ¬ ds.isEmpty := by
  obtain ⟨cut, after⟩ := digits_cut digits.2 stops
  exact ⟨cut, after, fun none_ => digits.1 (List.isEmpty_iff.mp none_)⟩

/-- An exponent is passed over from behind its letter. -/
theorem Exponent.skip {e r : List Char} (exponent : Exponent e)
    (ends : NumberEnds r) :
    e = [] ∨ ∃ u, (e = 'e' :: u ∨ e = 'E' :: u)
      ∧ skipExponent (u ++ r) = .ok r := by
  cases exponent with
  | none => exact .inl rfl
  | @some e sign ds letter signed digits =>
      obtain ⟨cut, after, some_⟩ :=
        digits.cut fun c rest same => (ends c rest same).1
      have unsign : (signOf (sign ++ ds ++ r)).2 = ds ++ r := by
        obtain ⟨d, ds, rfl⟩ := List.exists_cons_of_ne_nil digits.1
        have digit := digits.2 d List.mem_cons_self
        rcases signed with rfl | rfl | rfl
        · -- a digit is no sign
          rw [List.nil_append, List.cons_append, signOf]
          · rintro u same
            rw [(List.cons.inj same).1] at digit
            cases digit
          · rintro u same
            rw [(List.cons.inj same).1] at digit
            cases digit
        · rfl
        · rfl
      refine .inr ⟨sign ++ ds, ?_, ?_⟩
      · rcases letter with rfl | rfl
        · exact .inl rfl
        · exact .inr rfl
      · unfold skipExponent
        dsimp only
        rw [unsign, cut, after, if_neg some_]

/-- What goes on with an exponent, or ends, goes on with no digit. -/
theorem Exponent.stops {e r : List Char} (exponent : Exponent e)
    (ends : NumberEnds r) :
    ∀ c rest, e ++ r = c :: rest → c.isDigit = false := by
  cases exponent with
  | none => exact fun c rest same => (ends c rest same).1
  | some letter _ _ =>
      intro c rest same
      obtain rfl := (List.cons.inj same).1
      rcases letter with rfl | rfl <;> decide

/-- A number that nobody asks for is passed over. -/
theorem Unsigned.skip {t r : List Char} (number : Unsigned t)
    (ends : NumberEnds r) : Numeral.skip (t ++ r) = .ok r := by
  obtain ⟨whole, fraction, exponent⟩ := number
  next ds f e =>
  have alone : (ds.head? == some '0' && decide (1 < ds.length)) = false := by
    rw [Bool.and_eq_false_iff, decide_eq_false_iff_not, beq_eq_false_iff_ne]
    by_cases zero : ds.head? = some '0'
    · exact .inr (by rw [whole.2 zero]; decide)
    · exact .inl zero
  obtain ⟨cut, after, some_⟩ := whole.1.cut (r := f ++ (e ++ r)) (by
    cases fraction with
    | none => exact exponent.stops ends
    | some digits => rintro c rest ⟨⟩; rfl)
  -- what is behind the digits is passed over as well
  have tail := exponent.skip ends
  unfold Numeral.skip
  rw [List.append_assoc, List.append_assoc]
  dsimp only
  rw [cut, after, alone, Bool.or_false, if_neg some_]
  cases fraction with
  | none =>
      rcases tail with rfl | ⟨u, rfl | rfl, passed⟩
      · rw [List.nil_append, List.nil_append]
        split
        · exact absurd rfl (ends _ _ rfl).2.1
        · exact absurd rfl (ends _ _ rfl).2.2.1
        · exact absurd rfl (ends _ _ rfl).2.2.2
        · rfl
      · exact passed
      · exact passed
  | @some fs digits =>
      obtain ⟨cut, after, some_⟩ := digits.cut (exponent.stops ends)
      simp only [List.cons_append, cut, after, if_neg some_]
      rcases tail with rfl | ⟨u, rfl | rfl, passed⟩
      · rw [List.nil_append]
        split
        · exact absurd rfl (ends _ _ rfl).2.2.1
        · exact absurd rfl (ends _ _ rfl).2.2.2
        · rfl
      · exact passed
      · exact passed

/-- What is passed over as an exponent is one. -/
theorem exponent_of_skip {c : Char} {s r : List Char} (letter : c = 'e' ∨ c = 'E')
    (h : skipExponent s = .ok r) : ∃ e, Exponent e ∧ c :: s = e ++ r := by
  unfold skipExponent at h
  dsimp only at h
  split at h
  · cases h
  next digits =>
  obtain rfl := Except.ok.inj h
  obtain ⟨sign, signed, same⟩ : ∃ sign, (sign = [] ∨ sign = ['+'] ∨ sign = ['-'])
      ∧ s = sign ++ (signOf s).2 := by
    unfold signOf
    split
    · exact ⟨['+'], .inr (.inl rfl), rfl⟩
    · exact ⟨['-'], .inr (.inr rfl), rfl⟩
    · exact ⟨[], .inl rfl, rfl⟩
  refine ⟨_, .some letter signed (digits_digitsOf digits), ?_⟩
  rw [List.cons_append, List.append_assoc, digitsOf_append_afterDigits, ← same]

/-- What is passed over as a number is one. -/
theorem unsigned_of_skip {s r : List Char} (h : Numeral.skip s = .ok r) :
    ∃ t, Unsigned t ∧ s = t ++ r := by
  unfold Numeral.skip at h
  dsimp only at h
  split at h
  · cases h
  next first =>
  rw [Bool.or_eq_true, not_or] at first
  obtain ⟨some_, alone⟩ := first
  have whole : Whole (digitsOf s) := by
    refine ⟨digits_digitsOf some_, fun zero => ?_⟩
    rw [zero, beq_self_eq_true, Bool.true_and, decide_eq_true_eq] at alone
    have := List.length_pos_of_ne_nil (digits_digitsOf some_).1
    omega
  -- a fraction and an exponent behind the digits make a number of them
  have close {f e : List Char} (fraction : Fraction f) (exponent : Exponent e)
      (rest : afterDigits s = f ++ (e ++ r)) : ∃ t, Unsigned t ∧ s = t ++ r := by
    refine ⟨_, .mk whole fraction exponent, ?_⟩
    rw [List.append_assoc, List.append_assoc, ← rest,
      digitsOf_append_afterDigits]
  split at h
  · next u rest =>
    split at h
    · cases h
    next digits =>
    have fraction := Fraction.some (digits_digitsOf digits)
    have point : ∀ t, afterDigits u = t →
        afterDigits s = ('.' :: digitsOf u) ++ t := by
      rintro t rfl
      rw [rest, List.cons_append, digitsOf_append_afterDigits]
    split at h
    · next rest =>
      obtain ⟨e, exponent, same⟩ := exponent_of_skip (.inl rfl) h
      exact close fraction exponent (point _ (rest.trans same))
    · next rest =>
      obtain ⟨e, exponent, same⟩ := exponent_of_skip (.inr rfl) h
      exact close fraction exponent (point _ (rest.trans same))
    · exact close fraction .none (point _ (Except.ok.inj h))
  · next rest =>
    obtain ⟨e, exponent, same⟩ := exponent_of_skip (.inl rfl) h
    exact close .none exponent (rest.trans same)
  · next rest =>
    obtain ⟨e, exponent, same⟩ := exponent_of_skip (.inr rfl) h
    exact close .none exponent (rest.trans same)
  · exact close .none .none (Except.ok.inj h)

end Numeral

/-- Digits start like a value. -/
theorem starts_of_isDigit {c : Char} {ds : List Char}
    (digit : c.isDigit = true) : Starts (c :: ds) := by
  refine ⟨c, ds, rfl, (solid_of_isDigit digit).1, ?_, ?_⟩
  · rintro rfl
    cases digit
  · rintro rfl
    cases digit

/-- A number that fits is in decimal digits, with a minus below zero. -/
def Spelling.number {α : Type} (ofInt? : Int → Option α) : Spelling α :=
  fun v a =>
    (∃ n : Nat, n < Numeral.wordBound ∧ ofInt? n = some a
      ∧ v = Nat.toDigits 10 n)
    ∨ ∃ n : Nat, 0 < n ∧ n ≤ 9223372036854775808 ∧ ofInt? (-n : Int) = some a
      ∧ v = '-' :: Nat.toDigits 10 n

section

variable {α : Type} {expected : String} {ofInt? : Int → Option α}

/-- What fits is a whole number, with its sign. -/
theorem fit_ok {x : Numeral} {a : α} (h : fit expected ofInt? x = .ok a) :
    (∃ n : Nat, x = .whole n ∧ ofInt? n = some a)
      ∨ ∃ n : Int, x = .negative n ∧ ofInt? n = some a := by
  unfold fit at h
  dsimp only at h
  split at h
  · next n =>
    split at h
    · next value => exact .inl ⟨n, rfl, by rw [value, Except.ok.inj h]⟩
    · cases h
  · next n =>
    split at h
    · next value => exact .inr ⟨n, rfl, by rw [value, Except.ok.inj h]⟩
    · cases h
  · cases h

/-- Behind its sign, what is read as a number that fits is spelled as one. -/
theorem number_spelt {negative : Bool} {s r : List Char} {x : Numeral} {a : α}
    (read : Numeral.read negative s = .ok (x, r))
    (fits : fit expected ofInt? x = .ok a) :
    ∃ v, Spelling.number ofInt? v a
      ∧ (if negative then '-' :: s else s) = v ++ r := by
  rcases Numeral.read_spelt read with ⟨y, rfl⟩ | ⟨n, bound, rfl, value⟩
  · rcases fit_ok fits with ⟨n, same, -⟩ | ⟨n, same, -⟩ <;> cases same
  cases negative with
  | false =>
      obtain rfl : x = .whole n := value
      rcases fit_ok fits with ⟨m, same, ofInt⟩ | ⟨m, same, -⟩
      · obtain rfl := Numeral.whole.inj same
        exact ⟨_, .inl ⟨n, bound, ofInt, rfl⟩, rfl⟩
      · cases same
  | true =>
      change Numeral.negate n = .ok x at value
      unfold Numeral.negate at value
      split at value
      · obtain rfl := Except.ok.inj value
        rcases fit_ok fits with ⟨m, same, -⟩ | ⟨m, same, -⟩ <;> cases same
      next positive =>
      split at value
      · next small =>
        obtain rfl := Except.ok.inj value
        rcases fit_ok fits with ⟨m, same, -⟩ | ⟨m, same, ofInt⟩
        · cases same
        · obtain rfl := Numeral.negative.inj same
          exact ⟨_, .inr ⟨n, Nat.pos_of_ne_zero positive, small, ofInt, rfl⟩,
            rfl⟩
      · obtain ⟨y, rfl⟩ := Numeral.scaled_real value
        rcases fit_ok fits with ⟨m, same, -⟩ | ⟨m, same, -⟩ <;> cases same

/-- A number that fits is read off what spells it, and off nothing else: one
with a fraction or an exponent is a real number, and does not fit. -/
theorem readNumber_recognizes :
    Recognizes (readNumber expected ofInt?) (Spelling.number ofInt?) where
  reads := by
    -- blanks in front are dropped by the reader itself
    have behind {v : List Char} {a : α} (starts : Starts v)
        (reads : Reads (readNumber expected ofInt?) v a) :
        Means (readNumber expected ofInt?) v a := by
      refine ⟨starts, fun g r gap ends => ?_⟩
      rw [← reads r ends]
      unfold readNumber
      rw [gap.skipGap]
    rintro v a (⟨n, bound, value, rfl⟩ | ⟨n, positive, small, value, rfl⟩)
    · refine behind ?_ (readNumber_whole bound value)
      obtain ⟨c, ds, digits, digit⟩ := toDigits_cons n
      rw [digits]
      exact starts_of_isDigit digit
    · refine behind ?_ (readNumber_negative positive small value)
      exact ⟨_, _, rfl, by decide, by decide, by decide⟩
  spelt := by
    intro s a r taken
    unfold readNumber at taken
    dsimp only at taken
    split at taken
    · next t found =>
      obtain ⟨⟨x, r'⟩, read, taken⟩ := bind_ok taken
      obtain ⟨b, fits, taken⟩ := bind_ok taken
      obtain ⟨rfl, rfl⟩ := Prod.mk.inj (Except.ok.inj taken)
      obtain ⟨g, gap, rfl⟩ := gap_of_skipGap found
      obtain ⟨v, spells, same⟩ := number_spelt read fits
      exact ⟨g, v, gap, spells, congrArg (g ++ ·) same⟩
    · next c t found =>
      split at taken
      · obtain ⟨⟨x, r'⟩, read, taken⟩ := bind_ok taken
        obtain ⟨b, fits, taken⟩ := bind_ok taken
        obtain ⟨rfl, rfl⟩ := Prod.mk.inj (Except.ok.inj taken)
        obtain ⟨g, gap, rfl⟩ := gap_of_skipGap found
        obtain ⟨v, spells, same⟩ := number_spelt read fits
        exact ⟨g, v, gap, spells, congrArg (g ++ ·) same⟩
      · cases taken
    · cases taken

end

/-- An unsigned word is spelled by its digits alone. -/
theorem Spelling.number_unsigned :
    Spelling.number unsigned? = Spelling.unsigned := by
  funext v a
  refine propext ⟨?_, ?_⟩
  · rintro (⟨n, bound, value, rfl⟩ | ⟨n, positive, -, value, -⟩)
    · unfold unsigned? at value
      split at value
      · obtain rfl := Option.some.inj value
        unfold Numeral.wordBound at bound
        unfold Spelling.unsigned writeUnsigned
        rw [Int.toNat_natCast, UInt64.toNat_ofNat_of_lt' bound]
      · cases value
    · unfold unsigned? at value
      rw [if_neg (by omega)] at value
      cases value
  · rintro rfl
    exact .inl ⟨a.toNat, a.toNat_lt, unsigned?_toNat a, rfl⟩

/-- A signed word is spelled by its digits, with a minus below zero. -/
theorem Spelling.number_signed : Spelling.number signed? = Spelling.signed := by
  -- the value of a word in range
  have inside {n : Int} {a : Int64} (value : signed? n = some a) :
      a.toInt = n := by
    unfold signed? at value
    split at value
    · next range =>
      rw [← Option.some.inj value, Int64.toInt_ofInt_of_le range.1 (by omega)]
    · cases value
  funext v a
  unfold Spelling.signed writeSigned
  refine propext ⟨?_, fun spells => ?_⟩
  · rintro (⟨n, -, value, rfl⟩ | ⟨n, positive, -, value, rfl⟩)
    · rw [inside value, if_neg (by omega), Int.natAbs_natCast]
    · rw [inside value, if_pos (by omega), Int.natAbs_neg, Int.natAbs_natCast]
  · have low : -9223372036854775808 ≤ a.toInt := a.le_toInt
    have high : a.toInt < 9223372036854775808 := a.toInt_lt
    have value := signed?_toInt a
    split at spells
    · refine .inr ⟨a.toInt.natAbs, by omega, by omega, ?_, spells⟩
      rw [show -(a.toInt.natAbs : Int) = a.toInt by omega, value]
    · refine .inl ⟨a.toInt.natAbs, ?_, ?_, spells⟩
      · unfold Numeral.wordBound
        omega
      · rw [show (a.toInt.natAbs : Int) = a.toInt by omega, value]

/-- A word without a sign is spelled by a whole number that it can hold. -/
theorem readUnsigned_recognizes : Recognizes readUnsigned Spelling.unsigned :=
  Spelling.number_unsigned ▸ readNumber_recognizes

/-- A word with a sign is spelled by a whole number, or a minus and one, that it
can hold. -/
theorem readSigned_recognizes : Recognizes readSigned Spelling.signed :=
  Spelling.number_signed ▸ readNumber_recognizes

end TaskLedger.Json
