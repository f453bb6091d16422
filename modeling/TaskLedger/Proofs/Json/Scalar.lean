/-
Words, strings and names as members hold them: what was written is read back
in front of anything that ends a number (`Reads`). A value starts with no
blank, so the reader finds it where it looks.
-/
import TaskLedger.Proofs.Json.Numeral
import TaskLedger.Proofs.Json.Quoted

namespace TaskLedger.Json

/-- The reader takes a text to a value, whatever ends it. -/
def Reads {α : Type} (read : Reader α) (text : List Char) (a : α) : Prop :=
  ∀ r, NumberEnds r → read (text ++ r) = .ok (a, r)

theorem NumberEnds.comma (r : List Char) : NumberEnds (',' :: r) := by
  rintro c rest ⟨⟩
  decide

theorem NumberEnds.brace (r : List Char) : NumberEnds ('\x7d' :: r) := by
  rintro c rest ⟨⟩
  decide

theorem NumberEnds.bracket (r : List Char) : NumberEnds (']' :: r) := by
  rintro c rest ⟨⟩
  decide

/-- What is no gap is not skipped. -/
theorem skipGap_of_solid {c : Char} (solid : isGap c = false) (r : List Char) :
    skipGap (c :: r) = c :: r :=
  List.dropWhile_cons_of_neg (by simp [solid])

/-- A digit is none of the characters that a reader of values looks for. -/
theorem solid_of_isDigit {c : Char} (digit : c.isDigit = true) :
    isGap c = false ∧ c ≠ '-' ∧ c ≠ 'n' := by
  refine ⟨?_, ?_, ?_⟩
  · unfold isGap
    simp only [Bool.or_eq_false_iff, beq_eq_false_iff_ne]
    refine ⟨⟨⟨?_, ?_⟩, ?_⟩, ?_⟩ <;> rintro rfl <;> cases digit
  · rintro rfl
    cases digit
  · rintro rfl
    cases digit

-- ================================================================ words

/-- The decimal text of a number starts with a digit. -/
theorem toDigits_cons (n : Nat) : ∃ c ds, Nat.toDigits 10 n = c :: ds
    ∧ c.isDigit = true := by
  obtain ⟨c, ds, digits⟩ := List.exists_cons_of_ne_nil
    (Nat.toDigits_ne_nil (n := n) (b := 10))
  refine ⟨c, ds, digits, Numeral.isDigit_toDigits (n := n) c ?_⟩
  rw [digits]
  exact List.mem_cons_self

theorem fit_whole {α : Type} {expected : String} {ofInt? : Int → Option α}
    {n : Nat} {a : α} (value : ofInt? n = some a) :
    fit expected ofInt? (.whole n) = .ok a := by
  unfold fit
  dsimp only
  rw [value]

theorem fit_negative {α : Type} {expected : String} {ofInt? : Int → Option α}
    {n : Int} {a : α} (value : ofInt? n = some a) :
    fit expected ofInt? (.negative n) = .ok a := by
  unfold fit
  dsimp only
  rw [value]

/-- A whole number is read where it fits. -/
theorem readNumber_whole {α : Type} {expected : String}
    {ofInt? : Int → Option α} {n : Nat} {a : α}
    (fits : n < Numeral.wordBound) (value : ofInt? n = some a) :
    Reads (readNumber expected ofInt?) (Nat.toDigits 10 n) a := by
  intro r ends
  have number := Numeral.read_toDigits fits ends false
  obtain ⟨c, ds, digits, digit⟩ := toDigits_cons n
  obtain ⟨solid, minus, -⟩ := solid_of_isDigit digit
  rw [digits] at number ⊢
  unfold readNumber
  dsimp only
  rw [List.cons_append, skipGap_of_solid solid]
  split
  · next same => exact absurd (List.cons.inj same).1 minus
  · next same =>
    obtain ⟨rfl, rfl⟩ := List.cons.inj same
    rw [List.cons_append] at number
    rw [if_pos digit, number]
    dsimp only [bind, Except.bind]
    rw [if_neg Bool.false_ne_true]
    dsimp only
    rw [fit_whole value]
  · next empty => cases empty

/-- A number with a minus is read where it fits. -/
theorem readNumber_negative {α : Type} {expected : String}
    {ofInt? : Int → Option α} {n : Nat} {a : α} (pos : 0 < n)
    (fits : n ≤ 9223372036854775808) (value : ofInt? (-n : Int) = some a) :
    Reads (readNumber expected ofInt?) ('-' :: Nat.toDigits 10 n) a := by
  intro r ends
  have number := Numeral.read_toDigits
    (show n < Numeral.wordBound by unfold Numeral.wordBound; omega) ends true
  unfold readNumber
  dsimp only
  rw [List.cons_append, skipGap_of_solid (by decide)]
  change Except.bind _ _ = _
  rw [number, if_pos rfl]
  unfold Numeral.negate
  rw [if_neg (by omega), if_pos fits]
  dsimp only [bind, Except.bind, Except.map]
  rw [fit_negative value]

/-- A number of 64 bits fits into 64 bits. -/
theorem unsigned?_toNat (n : UInt64) : unsigned? n.toNat = some n := by
  have bound : n.toNat < 18446744073709551616 := n.toNat_lt
  unfold unsigned?
  rw [if_pos ⟨by omega, by omega⟩, Int.toNat_natCast, UInt64.ofNat_toNat]

theorem signed?_toInt (n : Int64) : signed? n.toInt = some n := by
  have low : -9223372036854775808 ≤ n.toInt := n.le_toInt
  have high : n.toInt < 9223372036854775808 := n.toInt_lt
  unfold signed?
  rw [if_pos ⟨low, by omega⟩, Int64.ofInt_toInt]

/-- An unsigned number that is written is read back. -/
theorem readUnsigned_write (n : UInt64) :
    Reads readUnsigned (writeUnsigned n) n :=
  readNumber_whole n.toNat_lt (unsigned?_toNat n)

/-- So is a signed one, with its sign. -/
theorem readSigned_write (n : Int64) : Reads readSigned (writeSigned n) n := by
  have low : -9223372036854775808 ≤ n.toInt := n.le_toInt
  have high : n.toInt < 9223372036854775808 := n.toInt_lt
  have value := signed?_toInt n
  unfold writeSigned
  split
  · next negative =>
    refine readNumber_negative (by omega) (by omega) ?_
    rw [show -(n.toInt.natAbs : Int) = n.toInt by omega]
    exact value
  · next positive =>
    refine readNumber_whole ?_ ?_
    · unfold Numeral.wordBound
      omega
    · rw [show (n.toInt.natAbs : Int) = n.toInt by omega]
      exact value

-- ============================================================== strings

/-- And so is a string, however it has to be escaped. -/
theorem readString_write (s : String) : Reads readString (writeString s) s := by
  intro r _
  unfold readString writeString Quoted.write
  rw [List.cons_append, skipGap_of_solid (by decide), List.append_assoc]
  change Except.bind (Quoted.read _) _ = _
  rw [List.singleton_append, Quoted.read_write]
  dsimp only [Except.bind]
  rw [String.ofList_toList]

/-- A named value is read back where the names are distinct. -/
theorem readNamed_write {α : Type} {all : List α} {name : α → String} {a : α}
    (found : named all name (name a).toList = .ok a) :
    Reads (readNamed all name) (writeString (name a)) a := by
  intro r _
  unfold readNamed writeString Quoted.write
  rw [List.cons_append, skipGap_of_solid (by decide), List.append_assoc]
  change Except.bind (Quoted.read _) _ = _
  rw [List.singleton_append, Quoted.read_write]
  dsimp only [Except.bind]
  rw [found]
  rfl

-- ============================================================= optional

/-- The word for no value is read as none. -/
theorem readOptional_null {α : Type} (read : Reader α) :
    Reads (readOptional read) nullWord none :=
  fun _ _ => rfl

/-- A value is read as one, unless it starts as the word for none. -/
theorem readOptional_some {α : Type} {read : Reader α} {c : Char}
    {text : List Char} {a : α} (reads : Reads read (c :: text) a)
    (solid : isGap c = false) (other : c ≠ 'n') :
    Reads (readOptional read) (c :: text) (some a) := by
  intro r ends
  have value := reads r ends
  unfold readOptional
  rw [List.cons_append] at value ⊢
  rw [skipGap_of_solid solid]
  split
  · next same => exact absurd (List.cons.inj same).1 other
  · rw [value]
    rfl

/-- A word or null. -/
theorem readOptional_unsigned (n : Option UInt64) :
    Reads (readOptional readUnsigned) ((n.map writeUnsigned).getD nullWord)
      n := by
  cases n with
  | none => exact readOptional_null readUnsigned
  | some n =>
      have reads := readUnsigned_write n
      obtain ⟨c, ds, digits, digit⟩ := toDigits_cons n.toNat
      obtain ⟨solid, -, other⟩ := solid_of_isDigit digit
      rw [Option.map_some, Option.getD_some]
      unfold writeUnsigned at reads ⊢
      rw [digits] at reads ⊢
      exact readOptional_some reads solid other

/-- A string where null might stand. -/
theorem readOptional_string (s : String) :
    Reads (readOptional readString) (writeString s) (some s) :=
  readOptional_some (readString_write s) (by decide) (by decide)

end TaskLedger.Json
