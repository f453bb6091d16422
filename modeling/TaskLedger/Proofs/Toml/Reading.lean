/-
Flat texts of TOML as they are read. Names, numbers and values are read up
to their ends, whatever comes after them in their line; what may come after
a value (`Behind`) is also what keeps a number from being taken for a date.

The result is `read_document`: a text of the grammar in which no name is
given twice is read as the members that it assigns, in their order.
-/
import TaskLedger.Proofs.Toml.Strings

namespace TaskLedger.Toml

variable {a r s t : List Char}

-- ================================================================= names

/-- What may come after a name: blanks and an equals sign. -/
def Assigns (s r : List Char) : Prop :=
  ∃ b, s = b ++ '=' :: r ∧ Blanks b

/-- Blanks in front of the sign of an assignment are dropped. -/
theorem Assigns.dropBlanks (h : Assigns s r) : dropBlanks s = '=' :: r := by
  obtain ⟨b, rfl, blanks⟩ := h
  exact dropWhile_stop blanks (.cons (by decide))

/-- A bare name ends where an assignment goes on: neither blanks nor the sign
are part of a name. -/
theorem Assigns.bare (h : Assigns s r) : Stops isBare s := by
  obtain ⟨b, rfl, blanks⟩ := h
  refine .append (fun c mem => ?_) (.cons (by decide))
  have blank := blanks c mem
  unfold isBlank at blank
  rw [Bool.or_eq_true, beq_iff_eq, beq_iff_eq] at blank
  rcases blank with rfl | rfl <;> decide

/-- What a name starts with. -/
def isNameStart (c : Char) : Bool := c == '\x22' || c == '\x27' || isBare c

/-- A name is spelled by one character at least, which may start a name. -/
theorem Name.start {name : String} (spelt : Name t name) :
    ∃ c u, t = c :: u ∧ isNameStart c = true := by
  cases spelt with
  | bare some_ all =>
      obtain ⟨c, u, rfl⟩ := List.exists_cons_of_ne_nil some_
      refine ⟨c, u, rfl, ?_⟩
      unfold isNameStart
      rw [all c List.mem_cons_self, Bool.or_true]
  | quoted quoted =>
      cases quoted with
      | basic spells => exact ⟨_, _, rfl, by decide⟩
      | literal shown quote => exact ⟨_, _, rfl, by decide⟩

/-- A name is read off its spelling, bare or in quotes, up to its assignment. -/
theorem Name.keyPart {name : String} (spelt : Name t name)
    (behind : Assigns s r) : keyPart (t ++ s) = some (name, s) := by
  cases spelt with
  | bare some_ all =>
      rw [Toml.keyPart]
      · rw [takeWhile_stop all behind.bare, dropWhile_stop all behind.bare]
        exact if_neg (by rw [List.isEmpty_iff]; exact some_)
      -- a bare name starts with none of the two quotes
      · rintro r same
        obtain ⟨c, t, rfl⟩ := List.exists_cons_of_ne_nil some_
        obtain rfl := (List.cons.inj same).1
        have bare := all _ List.mem_cons_self
        cases bare
      · rintro r same
        obtain ⟨c, t, rfl⟩ := List.exists_cons_of_ne_nil some_
        obtain rfl := (List.cons.inj same).1
        have bare := all _ List.mem_cons_self
        cases bare
  | quoted quoted =>
      cases quoted with
      | basic spells =>
          rw [List.cons_append, List.append_assoc, List.singleton_append,
            Toml.keyPart, spells.basic]
          rfl
      | literal shown quote =>
          rw [List.cons_append, List.append_assoc, List.singleton_append,
            Toml.keyPart, literal_string shown quote]
          rfl

/-- So no blanks are dropped in front of a name. -/
theorem Name.not_blank {name : String} (spelt : Name t name) :
    Stops isBlank (t ++ s) := by
  obtain ⟨c, u, rfl, start⟩ := spelt.start
  refine .cons ?_
  cases blank : isBlank c with
  | false => rfl
  | true =>
      unfold isBlank at blank
      rw [Bool.or_eq_true, beq_iff_eq, beq_iff_eq] at blank
      rcases blank with rfl | rfl <;> cases start

/-- A name without dots is a key of one part. -/
theorem Name.key {name : String} (spelt : Name t name)
    (behind : Assigns s r) : key (t ++ s) = some (([], name), '=' :: r) := by
  have part : parts (t ++ s) = some ([name], '=' :: r) := by
    unfold parts
    obtain ⟨c, u, rfl, -⟩ := spelt.start
    rw [List.cons_append, List.length_cons, keyParts, ← List.cons_append]
    have start : Toml.dropBlanks (c :: u ++ s) = c :: u ++ s :=
      dropWhile_stop (a := []) (by simp) spelt.not_blank
    rw [start, spelt.keyPart behind]
    simp only [Option.bind_eq_bind, Option.bind_some, behind.dropBlanks]
    rfl
  unfold Toml.key
  rw [part]
  rfl

-- =============================================================== numbers

/-- A digit is one of ten characters that lie in a row. -/
theorem isDigit_range {c : Char} (digit : c.isDigit = true) :
    48 ≤ c.toNat ∧ c.toNat ≤ 57 := by
  have range := Char.isDigit_iff_toNat.mp digit
  have low : '0'.toNat = 48 := rfl
  have high : '9'.toNat = 57 := rfl
  omega

/-- The value of decimal digits is the number that they spell. -/
theorem Numeral.value_digits {ds : List Char}
    (all : ∀ c ∈ ds, c.isDigit = true) :
    Numeral.value 10 ds = Nat.ofDigitChars 10 ds 0 := by
  unfold Numeral.value Nat.ofDigitChars
  refine List.foldl_ext _ _ _ fun n c mem => ?_
  have range := isDigit_range (all c mem)
  have digit : Json.Quoted.hexValue? c = some (c.toNat - 48) := by
    unfold Json.Quoted.hexValue?
    exact if_pos range
  rw [digit, Nat.mul_comm]
  rfl

/-- What stands between the underscores are digits, and no other digits are
read. -/
theorem Grouped.all {ok : Char → Bool} {ds : List Char}
    (grouped : Grouped ok t ds) : ∀ c ∈ ds, ok c = true := by
  induction grouped with
  | nil => simp
  | digit digit more ih => exact List.forall_mem_cons.mpr ⟨digit, ih⟩
  | under digit more ih => exact List.forall_mem_cons.mpr ⟨digit, ih⟩

/-- A sort of digits: neither an underscore nor what may come after a value
is one. -/
structure Digital (ok : Char → Bool) : Prop where
  under : ok '_' = false
  behind : [' ', '\t', '#', '\n', '\r'].any ok = false

theorem digital_ten : Digital Char.isDigit := ⟨by decide, by decide⟩

/-- The digits of every base are characters that end no line and start no
comment. -/
theorem Base.digital {x : Char} {base : Nat} (letter : Base x base) :
    Digital (Numeral.isDigitOf base) := by
  cases letter with
  | sixteen => exact ⟨by decide, by decide⟩
  | eight => exact ⟨by decide, by decide⟩
  | two => exact ⟨by decide, by decide⟩

section

variable {ok : Char → Bool} {ds : List Char}

/-- A character that comes after a value is no digit. -/
theorem Digital.stop (digital : Digital ok) (behind : Behind s r) :
    Numeral.moreDigits ok s = some ([], s) := by
  cases s with
  | nil => rfl
  | cons c s =>
      rw [Numeral.moreDigits]
      · have digit := behind.stops digital.behind c s rfl
        rw [digit]
        rfl
      · rintro rfl
        have mem := behind.head
        revert mem
        decide

/-- Digits are read with the underscores between them up to what may come after
a value. -/
theorem Grouped.more (grouped : Grouped ok t ds) (digital : Digital ok)
    (behind : Behind s r) :
    Numeral.moreDigits ok (t ++ s) = some (ds, s) := by
  induction grouped with
  | nil => exact digital.stop behind
  | digit digit more ih =>
      rw [List.cons_append, Numeral.moreDigits]
      · rw [if_pos digit, ih]
        rfl
      · rintro rfl
        rw [digital.under] at digit
        cases digit
  | under digit more ih =>
      show (if _ then _ else _) = _
      rw [if_pos digit]
      show push _ (Numeral.moreDigits _ (_ ++ s)) = _
      rw [ih]
      rfl

/-- A digit, and more of them. -/
theorem Grouped.digits {c : Char} (grouped : Grouped ok t ds)
    (digit : ok c = true) (digital : Digital ok) (behind : Behind s r) :
    Numeral.digits ok (c :: t ++ s) = some (c :: ds, s) := by
  show (if _ then _ else _) = _
  rw [if_pos digit]
  show push c (Numeral.moreDigits ok (t ++ s)) = _
  rw [grouped.more digital behind]
  rfl

end

/-- The digits of a whole number are read off its spelling, and count what it
counts. -/
theorem Whole.wholeDigits {n : Nat} (whole : Whole t n)
    (behind : Behind s r) :
    ∃ ds, Numeral.wholeDigits (t ++ s) = some (ds, s)
      ∧ Numeral.value 10 ds = n := by
  cases whole with
  | zero => exact ⟨['0'], rfl, by decide⟩
  | @digits c t ds digit zero more =>
      refine ⟨c :: ds, ?_, ?_⟩
      · rw [List.cons_append, Numeral.wholeDigits]
        · exact more.digits digit digital_ten behind
        · rintro r ⟨⟩
          exact zero rfl
      · exact Numeral.value_digits
          (List.forall_mem_cons.mpr ⟨digit, more.all⟩)

/-- After a whole number there is neither a point nor an exponent. -/
theorem Behind.whole (behind : Behind s r) :
    Numeral.fraction s = some (none, s)
      ∧ Numeral.exponent s = some (none, s) := by
  cases s with
  | nil => exact ⟨rfl, rfl⟩
  | cons c s =>
      have mem := behind.head
      constructor
      · rw [Numeral.fraction]
        rintro r ⟨⟩
        revert mem
        decide
      · unfold Numeral.exponent
        refine if_neg ?_
        rintro (rfl | rfl) <;> revert mem <;> decide

/-- So is the number itself, if it is small enough for a word with a sign. -/
theorem Whole.decimal {n : Nat} (whole : Whole t n)
    (fits : n < 9223372036854775808) (behind : Behind s r) :
    Numeral.decimal false (t ++ s) = some (.whole n, s) := by
  obtain ⟨ds, digits, rfl⟩ := whole.wholeDigits behind
  obtain ⟨noFraction, noExponent⟩ := behind.whole
  have fits : Numeral.word? (Numeral.value 10 ds)
      = some (.whole (Numeral.value 10 ds)) := if_pos (by omega)
  unfold Numeral.decimal
  rw [digits]
  simp only [Option.bind_eq_bind, Option.bind_some, noFraction, noExponent]
  rw [if_neg Bool.false_ne_true, fits]
  rfl

/-- A number starts with a digit, and no letter of another base comes
next. -/
theorem Whole.start {n : Nat} (whole : Whole t n) (behind : Behind s r) :
    ∃ c u, t ++ s = c :: u ∧ c.isDigit = true
      ∧ (c = '0' → Stops (fun c => c ∈ ['x', 'o', 'b']) u) := by
  cases whole with
  | zero =>
      exact ⟨'0', s, rfl, by decide, fun _ => behind.stops (by decide)⟩
  | digits digit zero more =>
      exact ⟨_, _, rfl, digit, fun same => absurd same zero⟩

/-- A whole number starts with no letter of a base, so it is read to base ten.
-/
theorem Whole.unsigned {n : Nat} (whole : Whole t n)
    (fits : n < 9223372036854775808) (behind : Behind s r) :
    Numeral.unsigned false (t ++ s) = some (.whole n, s) := by
  obtain ⟨c, u, same, digit, -⟩ := whole.start behind
  have decimal := whole.decimal fits behind
  rw [same] at decimal ⊢
  rw [Numeral.unsigned]
  · exact decimal
  · rintro r ⟨⟩
    cases digit
  · rintro r ⟨⟩
    cases digit

/-- A plus in front of it makes no difference. -/
theorem Whole.read {n : Nat} (whole : Whole t n)
    (fits : n < 9223372036854775808) {plus : List Char}
    (sign : plus = [] ∨ plus = ['+']) (behind : Behind s r) :
    Numeral.read (plus ++ t ++ s) = some (.whole n, s) := by
  have unsigned := whole.unsigned fits behind
  rcases sign with rfl | rfl
  · obtain ⟨c, u, same, digit, base⟩ := whole.start behind
    rw [List.nil_append]
    rw [same] at unsigned ⊢
    rw [Numeral.read]
    · exact unsigned
    -- a digit is no sign
    · rintro r ⟨⟩
      cases digit
    · rintro r ⟨⟩
      cases digit
    -- nor is it the prefix of another base: the numeral would have gone on
    -- there
    · rintro r ⟨⟩
      have stops := base rfl _ _ rfl
      revert stops
      decide
    · rintro r ⟨⟩
      have stops := base rfl _ _ rfl
      revert stops
      decide
    · rintro r ⟨⟩
      have stops := base rfl _ _ rfl
      revert stops
      decide
  · exact unsigned

/-- The value of digits is the same counted from either end. -/
theorem value_ofDigits (base : Nat) (ds : List Char) :
    Numeral.value base ds = Nat.ofDigits base (ds.map digitOf).reverse := by
  rw [Nat.ofDigits_eq_foldr, List.foldr_reverse, List.foldl_map]
  unfold Numeral.value digitOf
  refine List.foldl_ext _ _ _ fun n c mem => ?_
  rw [Nat.mul_comm, Nat.add_comm]
  rfl

/-- A number to another base is read off its digits. -/
theorem Based.read {n : Nat} (based : Based t n)
    (fits : n < 9223372036854775808) (behind : Behind s r) :
    Numeral.read (t ++ s) = some (.whole n, s) := by
  cases based with
  | @digits x c t ds base letter digit more =>
      have digits := more.digits digit letter.digital behind
      have value := value_ofDigits base (c :: ds)
      rw [← value] at fits ⊢
      have fits : Numeral.word? (Numeral.value base (c :: ds))
          = some (.whole (Numeral.value base (c :: ds))) := if_pos (by omega)
      have based : Numeral.based base (c :: t ++ s)
          = some (.whole (Numeral.value base (c :: ds)), s) := by
        unfold Numeral.based
        rw [digits]
        show Option.bind (Numeral.word? _) _ = _
        rw [fits]
        rfl
      cases letter <;> exact based

/-- A zero with a minus. -/
theorem read_minus (behind : Behind s r) :
    Numeral.read ('-' :: '0' :: s) = some (.whole 0, s) := by
  obtain ⟨noFraction, noExponent⟩ := behind.whole
  show Numeral.decimal true ('0' :: s) = _
  unfold Numeral.decimal
  show Option.bind (Numeral.fraction s) _ = _
  rw [noFraction]
  show Option.bind (Numeral.exponent s) _ = _
  rw [noExponent]
  rfl

-- ================================================================= dates

/-- What comes after a number of so many digits is a digit, or ends the
digits. -/
theorem head_of_number? {width n : Nat} {c : Char}
    (read : Date.number? width s = some (n, c :: r))
    (other : c.isDigit = false) :
    s.dropWhile Char.isDigit = c :: r := by
  unfold Date.number? at read
  obtain ⟨⟨-, all⟩, read⟩ := Option.ite_none_right_eq_some.mp read
  have rest := (Prod.mk.inj (Option.some.inj read)).2
  rw [← List.take_append_drop width s, rest]
  exact dropWhile_stop (List.all_eq_true.mp all) (.cons other)

/-- Nothing is a date or a time in which neither a dash comes right after
four digits nor a colon right after two. -/
theorem Date.read_none
    (noDash : ∀ year r, Date.number? 4 s ≠ some (year, '-' :: r))
    (noColon : ∀ hour r, Date.number? 2 s ≠ some (hour, ':' :: r)) :
    Date.read s = .ok none := by
  have noDay : Date.day s = .ok none := by
    unfold Date.day
    split
    · next year r read => exact absurd read (noDash year r)
    · rfl
  have noTime : Date.time s = .ok none := by
    unfold Date.time
    split
    · next hour r read =>
        have number := (Option.filter_eq_some_iff.mp read).1
        exact absurd number (noColon hour r)
    · rfl
  unfold Date.read
  rw [noDay]
  exact noTime

/-- Nothing is a date or a time whose first digits neither of them ends. -/
theorem Date.read_stops
    (stops : Stops (fun c => c == '-' || c == ':')
      (s.dropWhile Char.isDigit)) : Date.read s = .ok none := by
  refine Date.read_none (fun year r read => ?_) fun hour r read => ?_
  · cases stops _ _ (head_of_number? read (by decide))
  · cases stops _ _ (head_of_number? read (by decide))

/-- Nothing that starts with a minus is one. -/
theorem Date.read_minus (s : List Char) : Date.read ('-' :: s) = .ok none := by
  have number (width n : Nat) (r : List Char) :
      Date.number? (width + 1) ('-' :: s) ≠ some (n, r) := by
    unfold Date.number?
    rw [if_neg fun all => by simp at all]
    exact fun same => nomatch same
  exact Date.read_none (fun year r => number 3 year _)
    fun hour r => number 1 hour _

/-- Behind the digits of a number there is neither a dash nor a colon, so they
are not the start of a date or a time. -/
theorem Grouped.no_date {ds : List Char} (grouped : Grouped Char.isDigit t ds)
    (behind : Behind s r) :
    Stops (fun c => c == '-' || c == ':') ((t ++ s).dropWhile Char.isDigit) := by
  induction grouped with
  | nil =>
      have rest : s.dropWhile Char.isDigit = s :=
        dropWhile_stop (a := []) (by simp) (behind.stops (by decide))
      rw [List.nil_append, rest]
      exact behind.stops (by decide)
  | digit digit more ih =>
      rw [List.cons_append, List.dropWhile_cons_of_pos digit]
      exact ih
  | under digit more ih => exact .cons (by decide)

/-- A whole number is not taken for a date. -/
theorem Whole.no_date {n : Nat} (whole : Whole t n) {plus : List Char}
    (sign : plus = [] ∨ plus = ['+']) (behind : Behind s r) :
    Date.read (plus ++ t ++ s) = .ok none := by
  refine Date.read_stops ?_
  rcases sign with rfl | rfl
  · cases whole with
    | zero =>
        have digit : Grouped Char.isDigit ['0'] ['0'] := .digit (by decide) .nil
        exact digit.no_date behind
    | digits digit zero more => exact (more.digit digit).no_date behind
  · exact .cons (by decide)

/-- Nor is a number to another base, which has a letter in the second place. -/
theorem Based.no_date {n : Nat} (based : Based t n) :
    Date.read (t ++ s) = .ok none := by
  refine Date.read_stops ?_
  cases based with
  | digits letter digit more =>
      cases letter <;> exact .cons (by decide)

-- ================================================================ values

/-- A number starts with a digit or its sign, and so with none of the
characters that other values start with. -/
theorem numberOrDate_of_start {c : Char}
    (start : c.isDigit = true ∨ c = '+' ∨ c = '-') :
    scalar (c :: r) = numberOrDate (c :: r) := by
  have others : ¬ (c = '\x22' ∨ c = '\x27') ∧ c ≠ 't' ∧ c ≠ 'f' := by
    rcases start with digit | rfl | rfl
    · refine ⟨?_, ?_, ?_⟩
      · rintro (rfl | rfl) <;> cases digit
      · rintro rfl
        cases digit
      · rintro rfl
        cases digit
    · decide
    · decide
  rw [scalar, if_neg others.1, if_neg others.2.1, if_neg others.2.2]

/-- A number that is no date. -/
theorem scalar_number {c : Char} {n : Int}
    (start : c.isDigit = true ∨ c = '+' ∨ c = '-')
    (noDate : Date.read (c :: r) = .ok none)
    (number : Numeral.read (c :: r) = some (.whole n, s)) :
    scalar (c :: r) = .ok (.integer n, s) := by
  rw [numberOrDate_of_start start]
  unfold numberOrDate
  rw [noDate, number]
  rfl

/-- A whole number is read as a value. -/
theorem Whole.scalar {n : Nat} (whole : Whole t n)
    (fits : n < 9223372036854775808) {plus : List Char}
    (sign : plus = [] ∨ plus = ['+']) (behind : Behind s r) :
    scalar (plus ++ t ++ s) = .ok (.integer n, s) := by
  have noDate := whole.no_date sign behind
  have number := whole.read fits sign behind
  rcases sign with rfl | rfl
  · obtain ⟨c, u, same, digit, -⟩ := whole.start behind
    rw [List.nil_append, same] at noDate number ⊢
    exact scalar_number (.inl digit) noDate number
  · exact scalar_number (.inr (.inl rfl)) noDate number

/-- A number to another base is read as a value. -/
theorem Based.scalar {n : Nat} (based : Based t n)
    (fits : n < 9223372036854775808) (behind : Behind s r) :
    scalar (t ++ s) = .ok (.integer n, s) := by
  have noDate := based.no_date (s := s)
  have number := based.read fits behind
  cases based with
  | digits letter digit more =>
      exact scalar_number (.inl (by decide)) noDate number

/-- A string starts with one of the quotes. -/
theorem scalar_text {c : Char} (quote : c = '\x22' ∨ c = '\x27')
    (read : text (c :: r) = some (t, s)) :
    scalar (c :: r) = .ok (.string (String.ofList t), s) := by
  rw [scalar, if_pos quote, read]
  rfl

/-- A string on one line is read as a value. -/
theorem Quoted.scalar (quoted : Quoted t s) (behind : Behind r r') :
    scalar (t ++ r) = .ok (.string (String.ofList s), r) := by
  have read := quoted.text behind
  cases quoted with
  | basic spells => exact scalar_text (.inl rfl) read
  | literal shown quote => exact scalar_text (.inr rfl) read

/-- A string on several lines is read as a value. -/
theorem Spread.scalar (spread : Spread t s) (behind : Behind r r') :
    scalar (t ++ r) = .ok (.string (String.ofList s), r) := by
  have read := spread.text behind
  cases spread with
  | basic opening block => exact scalar_text (.inl rfl) read
  | literal opening block => exact scalar_text (.inr rfl) read

/-- Every value that holds no others is read off its spellings, up to what may
come after a value. -/
theorem Scalar.read {v : Node} (spelt : Scalar t v) (behind : Behind s r) :
    scalar (t ++ s) = .ok (v, s) := by
  cases spelt with
  | yes => rfl
  | no => rfl
  | whole sign whole fits => exact whole.scalar fits sign behind
  | minus =>
      exact scalar_number (.inr (.inr rfl)) (Date.read_minus _)
        (read_minus behind)
  | based based fits => exact based.scalar fits behind
  | string quoted => exact quoted.scalar behind
  | spread spread => exact spread.scalar behind

/-- What a value starts with: no bracket, and no blank. -/
theorem Scalar.start {v : Node} (spelt : Scalar t v) (behind : Behind s r) :
    ∃ c u, t ++ s = c :: u ∧ c ≠ '[' ∧ c ≠ '\x7b' ∧ isBlank c = false := by
  cases spelt with
  | yes => exact ⟨_, _, rfl, by decide⟩
  | no => exact ⟨_, _, rfl, by decide⟩
  | minus => exact ⟨_, _, rfl, by decide⟩
  | based based =>
      cases based with
      | digits => exact ⟨_, _, rfl, by decide⟩
  | string quoted =>
      cases quoted with
      | basic => exact ⟨_, _, rfl, by decide⟩
      | literal => exact ⟨_, _, rfl, by decide⟩
  | spread spread =>
      cases spread with
      | basic => exact ⟨_, _, rfl, by decide⟩
      | literal => exact ⟨_, _, rfl, by decide⟩
  | whole sign whole fits =>
      rcases sign with rfl | rfl
      · obtain ⟨c, u, same, digit, -⟩ := whole.start behind
        refine ⟨c, u, same, ?_, ?_, ?_⟩
        · rintro rfl
          cases digit
        · rintro rfl
          cases digit
        -- a digit is no blank
        · have range := isDigit_range digit
          unfold isBlank
          rw [Bool.or_eq_false_iff, beq_eq_false_iff_ne, beq_eq_false_iff_ne]
          constructor <;> rintro rfl <;> cases digit
      · exact ⟨_, _, rfl, by decide⟩

/-- It is read so behind the sign of its assignment, with blanks between the
two. -/
theorem Scalar.assigned {v : Node} (spelt : Scalar t v) {b : List Char}
    (blanks : Blanks b) (behind : Behind s r) :
    assigned (value deepest) ('=' :: (b ++ (t ++ s))) = .ok (v, s) := by
  obtain ⟨c, u, same, list, table, solid⟩ := spelt.start behind
  have read := spelt.read behind
  rw [same] at read ⊢
  have start : dropBlanks (b ++ c :: u) = c :: u :=
    dropWhile_stop blanks (.cons solid)
  rw [Toml.assigned, start, deepest, value]
  · exact read
  · rintro r ⟨⟩
    exact list rfl
  · rintro r ⟨⟩
    exact table rfl

-- ================================================================= lines

/-- A line with nothing but a comment, or with nothing. -/
theorem line_idle {d : Draft} {c e : List Char} (comment : Comment c)
    (stop : lineEnd? e = some r) (more : c ++ e ≠ []) :
    line d (c ++ e) = .ok (d, r) := by
  cases comment with
  | @some s shown =>
      have rest : restOfLine? ('#' :: s ++ e) = some r :=
        Behind.rest ⟨[], '#' :: s, e, rfl, by simp [Blanks], .some shown, stop⟩
      rw [List.cons_append] at rest ⊢
      rw [line, rest]
      rfl
  | none =>
      rcases lineEnd?_cases stop with ⟨rfl, -⟩ | rfl | rfl
      · exact absurd rfl more
      · rfl
      · rfl

/-- The text before any header, with some members. -/
def plain (ms : Members) : Draft := { current := ms }

/-- A line that assigns a new name adds the assignment to those before it. -/
theorem line_assigns {name : String} {v : Node} {b₁ b₂ u : List Char}
    {ms : Members} (spelt : Name t name) (left : Blanks b₁)
    (right : Blanks b₂) (value : Scalar u v) (behind : Behind s r)
    (new : ms.lookup name = none) :
    line (plain ms) (t ++ (b₁ ++ '=' :: (b₂ ++ (u ++ s))))
      = .ok (plain (ms ++ [(name, v)]), r) := by
  have key := spelt.key (s := b₁ ++ '=' :: (b₂ ++ (u ++ s)))
    ⟨b₁, rfl, left⟩
  have assigned := value.assigned right behind
  -- the name is new, so its value goes to the end
  have member : (plain ms).assign [] name v
      = .ok (plain (ms ++ [(name, v)])) := by
    unfold plain Draft.assign Members.assign
    dsimp only
    rw [new]
    rfl
  obtain ⟨c, t, rfl, start⟩ := spelt.start
  rw [List.cons_append] at key ⊢
  rw [line]
  · rw [key]
    show Except.bind (Toml.assigned _ _) _ = _
    rw [assigned]
    show Except.bind (orMalformed (restOfLine? s)) _ = _
    rw [behind.rest]
    show Except.bind ((plain ms).assign [] name v) _ = _
    rw [member]
    rfl
  -- the line starts with a name, so it is no comment and no heading
  all_goals
    rintro r ⟨⟩
    cases start

/-- One round reads one line. -/
theorem lines_succ {n : Nat} {d d' : Draft} (here : dropBlanks s = a)
    (some_ : a ≠ []) (read : line d a = .ok (d', r)) :
    lines (n + 1) d s = lines n d' r := by
  obtain ⟨c, u, rfl⟩ := List.exists_cons_of_ne_nil some_
  rw [lines, here]
  show Except.bind (line d (c :: u)) _ = _
  rw [read]
  rfl

/-- A text of blanks assigns nothing. -/
theorem lines_blank {n : Nat} {d : Draft} (bound : s.length ≤ n)
    (blank : dropBlanks s = []) : lines n d s = .ok d := by
  cases n with
  | zero =>
      obtain rfl := List.length_eq_zero_iff.mp (Nat.le_zero.mp bound)
      rfl
  | succ n => rw [lines, blank]

/-- What comes after the end of a line is shorter, if anything comes. -/
theorem lineEnd?_length {n : Nat} (stop : lineEnd? s = some r)
    (bound : s.length ≤ n + 1) : r.length ≤ n := by
  rcases lineEnd?_cases stop with ⟨-, rfl⟩ | rfl | rfl
  · exact Nat.zero_le n
  · exact Nat.le_of_succ_le_succ bound
  · exact Nat.le_of_succ_le (Nat.le_of_succ_le_succ bound)

/-- A name that comes once has not been there before. -/
theorem lookup_new {name : String} {v : Node} {ms : Members}
    (names : ((ms ++ [(name, v)]).map Prod.fst).Nodup) :
    ms.lookup name = none := by
  rw [List.lookup_eq_none_iff]
  intro m mem
  rw [List.map_append, List.nodup_append] at names
  have other := names.2.2 m.1 (List.mem_map_of_mem mem) name
    List.mem_cons_self
  simpa using fun same => other same.symm

/-- A line is read to its end, and what it assigns is taken in. -/
theorem Line.read {n : Nat} {ms₀ ms : Members} {e : List Char}
    (spelt : Line s ms) (stop : lineEnd? e = some r)
    (names : ((ms₀ ++ ms).map Prod.fst).Nodup)
    (bound : (s ++ e).length ≤ n) :
    ∃ m, r.length ≤ m
      ∧ lines n (plain ms₀) (s ++ e) = lines m (plain (ms₀ ++ ms)) r := by
  have ends {k : Nat} (size : (s ++ e).length ≤ k + 1) : r.length ≤ k := by
    rw [List.length_append] at size
    exact lineEnd?_length stop (by omega)
  cases spelt with
  | @idle b c before comment =>
      have here := dropBlanks_comment before comment stop
      rw [← List.append_assoc] at here
      rw [List.append_nil]
      -- an idle line at the end of the text takes no round
      by_cases none_ : c ++ e = []
      · obtain rfl := (List.append_eq_nil_iff.mp none_).2
        obtain rfl := Option.some.inj stop
        exact ⟨n, Nat.zero_le n, by
          rw [lines_blank bound (here.trans none_),
            lines_blank (Nat.zero_le n) rfl]⟩
      · cases n with
        | zero =>
            have nothing := List.length_eq_zero_iff.mp (Nat.le_zero.mp bound)
            rw [List.append_assoc] at nothing
            exact absurd (List.append_eq_nil_iff.mp nothing).2 none_
        | succ n =>
            exact ⟨n, ends bound,
              lines_succ here none_ (line_idle comment stop none_)⟩
  | @assigns b t b₁ b₂ u b₃ c name v before spelt left right value after
      comment =>
      -- blanks before the name are dropped, and nothing of it
      have start : dropBlanks
          (b ++ (t ++ (b₁ ++ '=' :: (b₂ ++ (u ++ (b₃ ++ c))))) ++ e)
            = t ++ (b₁ ++ '=' :: (b₂ ++ (u ++ (b₃ ++ (c ++ e))))) := by
        simp only [List.append_assoc, List.cons_append]
        exact dropWhile_stop before spelt.not_blank
      have read := line_assigns spelt left right value
        ⟨b₃, c, e, rfl, after, comment, stop⟩ (lookup_new names)
      have some_ : t ++ (b₁ ++ '=' :: (b₂ ++ (u ++ (b₃ ++ (c ++ e))))) ≠ [] := by
        simp
      cases n with
      | zero => simp at bound
      | succ n => exact ⟨n, ends bound, lines_succ start some_ read⟩

/-- The lines of a text are read one by one, each after what those before
it have assigned. -/
theorem Document.lines {ms : Members} (spelt : Document t ms) :
    ∀ {n : Nat} {ms₀ : Members}, ((ms₀ ++ ms).map Prod.fst).Nodup →
      t.length ≤ n → lines n (plain ms₀) t = .ok (plain (ms₀ ++ ms)) := by
  induction spelt with
  | @last s ms line =>
      intro n ms₀ names bound
      obtain ⟨m, -, read⟩ := line.read (e := []) rfl names (by simpa using bound)
      rw [List.append_nil] at read
      rw [read]
      exact lines_blank (Nat.zero_le m) rfl
  | @more s e t ms ms' line newline rest ih =>
      intro n ms₀ names bound
      rw [← List.append_assoc] at names
      have here : ((ms₀ ++ ms).map Prod.fst).Nodup := by
        rw [List.map_append] at names
        exact (List.nodup_append.mp names).1
      obtain ⟨m, fewer, read⟩ := line.read (newline.lineEnd t) here bound
      rw [read, ih names fewer, List.append_assoc]

/-- No line starts with the mark that may stand before a text. -/
theorem Line.unmarked {ms : Members} {e : List Char} (spelt : Line s ms)
    (stop : lineEnd? e = some r) :
    Stops (fun c => c == byteOrderMark) (s ++ e) := by
  -- blanks are no marks
  have blank {b s : List Char} (before : Blanks b)
      (stops : Stops (fun c => c == byteOrderMark) s) :
      Stops (fun c => c == byteOrderMark) (b ++ s) := by
    refine .append (fun c mem => beq_eq_false_iff_ne.mpr ?_) stops
    rintro rfl
    have blank := before _ mem
    revert blank
    decide
  cases spelt with
  | idle before comment =>
      rw [List.append_assoc]
      refine blank before ?_
      cases comment with
      | some shown => exact .cons (by decide)
      | none =>
          rcases lineEnd?_cases stop with ⟨rfl, -⟩ | rfl | rfl
          · exact .nil
          · exact .cons (by decide)
          · exact .cons (by decide)
  | assigns before spelt left right value after comment =>
      rw [List.append_assoc]
      refine blank before ?_
      obtain ⟨c, u, rfl, start⟩ := spelt.start
      refine .cons (beq_eq_false_iff_ne.mpr ?_)
      rintro rfl
      revert start
      decide

/-- A document does not start with the mark that a reader would drop. -/
theorem Document.unmarked {ms : Members} (spelt : Document t ms) :
    t.head? ≠ some byteOrderMark := by
  have stops : Stops (fun c => c == byteOrderMark) t := by
    cases spelt with
    | last line => exact List.append_nil t ▸ line.unmarked (e := []) rfl
    | more line newline rest => exact line.unmarked (newline.lineEnd _)
  intro marked
  obtain ⟨u, rfl⟩ := List.head?_eq_some_iff.mp marked
  have other := stops _ _ rfl
  revert other
  decide

/-- A text in which no name is given twice is read as what it assigns. -/
theorem read_document {ms : Members} (spelt : Document t ms)
    (names : (ms.map Prod.fst).Nodup) : read t = .ok ms := by
  have lines : lines t.length (plain []) t = .ok (plain ms) :=
    spelt.lines names (Nat.le_refl _)
  unfold read
  rw [if_neg spelt.unmarked]
  show Except.bind (Toml.lines t.length (plain []) t) _ = _
  rw [lines]
  rfl

end TaskLedger.Toml
