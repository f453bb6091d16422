/-
Strings of TOML as they are read, and what comes after them. A value is
read up to its end whatever comes behind it in its line: blanks, a comment,
or the end of the line (`Behind`). That is all that keeps an empty string
from being taken for the start of three quotes, or three quotes that end a
string from being taken for four.

The results are `Quoted.text` and `Spread.text`, for strings on one line and
on several.
-/
import Mathlib.Data.List.Basic
import TaskLedger.Proofs.Toml.Grammar

namespace TaskLedger.Toml

-- =============================================================== stopping

/-- A text that does not start with a character of some sort. -/
def Stops (p : Char → Bool) (s : List Char) : Prop :=
  ∀ c r, s = c :: r → p c = false

variable {p : Char → Bool} {a r s t : List Char}

theorem Stops.nil : Stops p [] := by
  rintro c r ⟨⟩

theorem Stops.cons {c : Char} (h : p c = false) : Stops p (c :: r) := by
  rintro c' r' ⟨⟩
  exact h

/-- A text stops behind characters of another sort if the rest does. -/
theorem Stops.append (all : ∀ c ∈ a, p c = false) (stops : Stops p s) :
    Stops p (a ++ s) := by
  cases a with
  | nil => exact stops
  | cons c a => exact .cons (all c List.mem_cons_self)

/-- What is dropped of a text is its front up to where it stops. -/
theorem dropWhile_stop (all : ∀ c ∈ a, p c = true) (stops : Stops p s) :
    (a ++ s).dropWhile p = s := by
  rw [List.dropWhile_append_of_pos all]
  cases s with
  | nil => rfl
  | cons c r =>
      exact List.dropWhile_cons_of_neg (by simp [stops c r rfl])

/-- And what is taken of it is that front. -/
theorem takeWhile_stop (all : ∀ c ∈ a, p c = true) (stops : Stops p s) :
    (a ++ s).takeWhile p = a := by
  rw [List.takeWhile_append_of_pos all]
  cases s with
  | nil => exact List.append_nil a
  | cons c r =>
      rw [List.takeWhile_cons_of_neg (by simp [stops c r rfl]),
        List.append_nil]

-- ========================================================== ends of lines

/-- What stands at the end of a line, and what comes after it: the text's
own end, or the line's and more of the text. -/
theorem lineEnd?_cases (h : lineEnd? s = some r) :
    (s = [] ∧ r = []) ∨ s = '\n' :: r ∨ s = '\r' :: '\n' :: r := by
  unfold lineEnd? at h
  split at h
  · exact .inl ⟨rfl, (Option.some.inj h).symm⟩
  · unfold newline? at h
    split at h
    · exact .inr (.inl (by rw [Option.some.inj h]))
    · exact .inr (.inr (by rw [Option.some.inj h]))
    · cases h

/-- The reader finds the end of a line however it is spelled, and goes on right
behind it. -/
theorem Newline.lineEnd {e : List Char} (h : Newline e) (r : List Char) :
    lineEnd? (e ++ r) = some r := by
  cases h <;> rfl

/-- What may come after a value in its line: blanks, a comment, and the end
of the line. -/
def Behind (s r : List Char) : Prop :=
  ∃ b c e, s = b ++ (c ++ e) ∧ Blanks b ∧ Comment c ∧ lineEnd? e = some r

/-- What comes after a value starts with one of a few characters. -/
theorem Behind.head {c : Char} (h : Behind (c :: s) r) :
    c ∈ [' ', '\t', '#', '\n', '\r'] := by
  obtain ⟨b, m, e, same, blanks, comment, stop⟩ := h
  cases b with
  | cons d b =>
      obtain rfl := (List.cons.inj same).1
      have blank := blanks c List.mem_cons_self
      unfold isBlank at blank
      rw [Bool.or_eq_true, beq_iff_eq, beq_iff_eq] at blank
      rcases blank with rfl | rfl <;> decide
  | nil =>
  cases comment with
  | some shown =>
      obtain rfl := (List.cons.inj same).1
      decide
  | none =>
      rcases lineEnd?_cases stop with ⟨rfl, -⟩ | rfl | rfl
      · cases same
      · obtain rfl := (List.cons.inj same).1
        decide
      · obtain rfl := (List.cons.inj same).1
        decide

/-- What comes after a value stops everything that takes none of the few
characters that may stand there. -/
theorem Behind.stops (h : Behind s r)
    (others : [' ', '\t', '#', '\n', '\r'].any p = false) : Stops p s := by
  rintro c s rfl
  exact Bool.eq_false_iff.mpr (List.any_eq_false.mp others c h.head)

/-- The end of a line is no blank and no part of a comment. -/
theorem stops_of_lineEnd {e : List Char} (stop : lineEnd? e = some r) :
    Stops isBlank e ∧ Stops isShown e := by
  rcases lineEnd?_cases stop with ⟨rfl, -⟩ | rfl | rfl
  · exact ⟨.nil, .nil⟩
  · exact ⟨.cons (by decide), .cons (by decide)⟩
  · exact ⟨.cons (by decide), .cons (by decide)⟩

/-- Dropping blanks gets as far as the comment, and no further: no comment
starts with a blank. -/
theorem dropBlanks_comment {b c e : List Char} (blanks : Blanks b)
    (comment : Comment c) (stop : lineEnd? e = some r) :
    dropBlanks (b ++ (c ++ e)) = c ++ e := by
  refine dropWhile_stop blanks ?_
  cases comment with
  | none => exact (stops_of_lineEnd stop).1
  | some shown => exact .cons (by decide)

/-- A comment goes up to the end of its line, since it shows all its characters.
-/
theorem dropComment_comment {c e : List Char} (comment : Comment c)
    (stop : lineEnd? e = some r) : dropComment (c ++ e) = e := by
  cases comment with
  | some shown => exact dropWhile_stop shown (stops_of_lineEnd stop).2
  | none =>
      rcases lineEnd?_cases stop with ⟨rfl, -⟩ | rfl | rfl <;> rfl

/-- What may come after a value is read to the end of the line. -/
theorem Behind.rest (h : Behind s r) : restOfLine? s = some r := by
  obtain ⟨b, c, e, rfl, blanks, comment, stop⟩ := h
  unfold restOfLine?
  rw [dropBlanks_comment blanks comment stop,
    dropComment_comment comment stop]
  exact stop

-- =============================================================== strings

/-- Inside of double quotes a plain character is read as it stands. -/
theorem basic_plain {c : Char} (quote : c ≠ '\x22') (slash : c ≠ '\\')
    (shown : isShown c = true) (r : List Char) :
    basic (c :: r) = push c (basic r) := by
  rw [basic]
  · exact if_pos shown
  · exact quote
  · exact slash

/-- A letter behind a backslash is read as the character that it names. -/
theorem basic_letter {e c : Char} (letter : letter? e = some c)
    (r : List Char) : basic ('\\' :: e :: r) = push c (basic r) := by
  rw [basic]
  · rw [letter]
    rfl
  · rintro a b c d r ⟨⟩
    cases letter
  · rintro a b c d e f g h r ⟨⟩
    cases letter

/-- However a character is spelled, it is read as itself, and the reader goes on
behind its spelling. -/
theorem Stands.basic {u : List Char} {c : Char} (stands : Stands u c)
    (r : List Char) : basic (u ++ r) = push c (basic r) := by
  cases stands with
  | plain quote slash shown => exact basic_plain quote slash shown r
  | letter letter => exact basic_letter letter r
  | short number =>
      show Option.bind _ _ = _
      rw [number]
      rfl
  | long number =>
      show Option.bind _ _ = _
      rw [number]
      rfl

/-- A string is read off any of its spellings, up to the quote that closes it.
The induction is on the spelling, one character at a time. -/
theorem Spells.basic (spells : Spells t s) (r : List Char) :
    basic (t ++ '\x22' :: r) = some (s, r) := by
  induction spells with
  | nil => rfl
  | cons here more ih =>
      rw [List.append_assoc, here.basic, ih]
      rfl

/-- Inside of single quotes every character is read as it stands. -/
theorem literal_string (shown : ∀ c ∈ s, isShown c = true)
    (quote : '\x27' ∉ s) (r : List Char) :
    literal (s ++ '\x27' :: r) = some (s, r) := by
  induction s with
  | nil => rfl
  | cons c s ih =>
      rw [List.cons_append, literal]
      · rw [if_pos (shown c List.mem_cons_self),
          ih (fun c mem => shown c (List.mem_cons_of_mem _ mem))
            (fun mem => quote (List.mem_cons_of_mem _ mem))]
        rfl
      · rintro rfl
        exact quote List.mem_cons_self

/-- Two quotes in front of a third would be the start of another string. -/
theorem Spells.no_quotes (spells : Spells t s)
    (stops : Stops (fun c => c == '\x22') r) (r' : List Char) :
    t ++ '\x22' :: r ≠ '\x22' :: '\x22' :: r' := by
  intro same
  cases spells with
  | nil =>
      have quote := stops _ _ (List.cons.inj same).2
      cases quote
  | cons here more =>
      cases here with
      | plain quote slash shown => exact quote (List.cons.inj same).1
      | letter | short | long => cases same

/-- A string that holds no quote is not closed by two quotes in a row, so it is
not taken for the start of three. -/
theorem literal_no_quotes (quote : '\x27' ∉ s)
    (stops : Stops (fun c => c == '\x27') r) (r' : List Char) :
    s ++ '\x27' :: r ≠ '\x27' :: '\x27' :: r' := by
  intro same
  cases s with
  | nil =>
      have quote := stops _ _ (List.cons.inj same).2
      cases quote
  | cons c s =>
      obtain rfl := (List.cons.inj same).1
      exact quote List.mem_cons_self

/-- A string on one line is read off its quotes, whatever line goes on behind
it. -/
theorem Quoted.text (quoted : Quoted t s) (behind : Behind r r') :
    text (t ++ r) = some (s, r) := by
  cases quoted with
  | @basic t _ spells =>
      rw [List.cons_append, List.append_assoc, List.singleton_append, Toml.text]
      · exact spells.basic r
      · intro r' same
        exact spells.no_quotes (behind.stops (by decide)) r' same
  | literal shown quote =>
      rw [List.cons_append, List.append_assoc, List.singleton_append, Toml.text]
      · exact literal_string shown quote r
      · intro r' same
        exact literal_no_quotes quote (behind.stops (by decide)) r' same

-- =============================================== strings on several lines

/-- Three quotes in a row, and what comes after them. -/
def threeOf (q : Char) (r : List Char) : List Char := q :: q :: q :: r

/-- One quote or two in front of another character are read as they stand, not
as the end of the string. -/
theorem Few.closing {q : Char} {few : List Char} (h : Few q few)
    (stops : Stops (fun c => c == q) r) :
    closing q (few ++ r) = (few, r) := by
  cases h with
  | two =>
      show (if q = q then (if q = q then _ else _) else _) = _
      rw [if_pos rfl, if_pos rfl]
      rfl
  | one =>
      cases r with
      | nil =>
          show (if q = q then _ else _) = _
          rw [if_pos rfl]
      | cons c r =>
          have other : c ≠ q := beq_eq_false_iff_ne.mp (stops c r rfl)
          show (if q = q then (if c = q then _ else _) else _) = _
          rw [if_pos rfl, if_neg other]

/-- Where there is no quote more, none belongs to the string. -/
theorem closing_stop {q : Char} (stops : Stops (fun c => c == q) r) :
    closing q r = ([], r) := by
  cases r with
  | nil => rfl
  | cons c r =>
      have other : c ≠ q := beq_eq_false_iff_ne.mp (stops c r rfl)
      cases r with
      | nil => exact if_neg other
      | cons d r => exact if_neg other

/-- A reader of the rest of a string that three quotes end. Up to two more
right behind them belong to the string, and so does a quote that is not the
first of three. -/
structure Closed (q : Char) (f : List Char → Option (List Char × List Char)) :
    Prop where
  three : ∀ r, f (threeOf q r) = some (closing q r)
  quote : ∀ r, (∀ r', r ≠ q :: q :: r') → f (q :: r) = push q (f r)

section

variable {q : Char} {f : List Char → Option (List Char × List Char)}

/-- Three quotes close a string, if no fourth one follows. -/
theorem Closed.stop (closed : Closed q f)
    (stops : Stops (fun c => c == q) r) : f (threeOf q r) = some ([], r) := by
  rw [closed.three, closing_stop stops]

/-- A quote or two belong to the string, also right before its end. -/
theorem Closed.few (closed : Closed q f) {few : List Char} (h : Few q few)
    (other : ∀ r, t ≠ q :: r) (stops : Stops (fun c => c == q) r)
    (more : f (t ++ threeOf q r) = some (s, r)) :
    f (few ++ t ++ threeOf q r) = some (few ++ s, r) := by
  cases t with
  | nil =>
      have ends := closed.stop stops
      obtain rfl := (Prod.mk.inj (Option.some.inj (ends.symm.trans more))).1
      simp only [List.append_nil]
      -- quotes that end the text stand before three that close it
      have three : few ++ threeOf q r = threeOf q (few ++ r) := by
        cases h <;> rfl
      rw [three, closed.three, h.closing stops]
  | cons c t =>
      have here : c ≠ q := fun same => other t (by rw [same])
      -- up to two quotes before another character are read one by one
      have one (u : List Char) : f (q :: c :: u) = push q (f (c :: u)) :=
        closed.quote _ fun r' same => here (List.cons.inj same).1
      have two (u : List Char) : f (q :: q :: c :: u)
          = push q (f (q :: c :: u)) :=
        closed.quote _ fun r' same =>
          here (List.cons.inj (List.cons.inj same).2).1
      cases h with
      | one =>
          show f (q :: c :: (t ++ threeOf q r)) = _
          rw [one]
          show push q (f (c :: t ++ threeOf q r)) = _
          rw [more]
          rfl
      | two =>
          show f (q :: q :: c :: (t ++ threeOf q r)) = _
          rw [two, one]
          show push q (push q (f (c :: t ++ threeOf q r))) = _
          rw [more]
          rfl

end

/-- A character that ends no line is not taken for the end of one. -/
theorem newline?_solid {c : Char} (solid : c ∉ ['\n', '\r']) :
    newline? (c :: r) = none := by
  unfold newline?
  split
  · next same =>
      obtain rfl := (List.cons.inj same).1
      exact absurd (by decide) solid
  · next same =>
      obtain rfl := (List.cons.inj same).1
      exact absurd (by decide) solid
  · rfl

/-- Nor is it taken for a blank, if it is none. -/
theorem isBlank_solid {c : Char} (solid : c ∉ [' ', '\t', '\n', '\r']) :
    isBlank c = false := by
  unfold isBlank
  rw [Bool.or_eq_false_iff, beq_eq_false_iff_ne, beq_eq_false_iff_ne]
  exact ⟨fun same => solid (by rw [same]; decide),
    fun same => solid (by rw [same]; decide)⟩

/-- The end of the line right behind the opening quotes is dropped, and nothing
else: what comes next starts no line. -/
theorem Opening.drop {e : List Char} (h : Opening e t) {q : Char}
    (quote : q ∉ ['\n', '\r']) :
    dropNewline (e ++ (t ++ threeOf q r)) = t ++ threeOf q r := by
  have solid {c : Char} (other : c ∉ ['\n', '\r']) (u : List Char) :
      dropNewline (c :: u) = c :: u := by
    unfold dropNewline
    rw [newline?_solid other]
    rfl
  cases h with
  | newline newline => cases newline <;> rfl
  | none other =>
      cases t with
      | nil => exact solid quote _
      | cons c t => exact solid (other c t rfl) _

-- ========================================================== single quotes

/-- Three single quotes close what three single quotes open. -/
theorem closed_multiLiteral : Closed '\x27' multiLiteral where
  three r := rfl
  quote r other := by
    rw [multiLiteral]
    · rfl
    · exact fun r' _ same => other r' same
    · exact fun r' same => nomatch same
    · exact fun same => nomatch same

/-- A character between them is read as it stands. -/
theorem multiLiteral_char {c : Char} (quote : c ≠ '\x27')
    (shown : isShown c = true) (r : List Char) :
    multiLiteral (c :: r) = push c (multiLiteral r) := by
  rw [multiLiteral]
  · exact if_pos shown
  · exact fun r' same _ => quote same
  · rintro r rfl
    cases shown
  · rintro rfl
    cases shown

/-- However a line ends between them, a line feed is read. -/
theorem multiLiteral_newline {e : List Char} (newline : Newline e)
    (r : List Char) :
    multiLiteral (e ++ r) = push '\n' (multiLiteral r) := by
  cases newline <;> rfl

/-- A string on several lines is read off its spelling between single quotes, up
to the three that close it. -/
theorem LiteralBlock.read (block : LiteralBlock t s)
    (stops : Stops (fun c => c == '\x27') r) :
    multiLiteral (t ++ threeOf '\x27' r) = some (s, r) := by
  induction block with
  | nil => exact closed_multiLiteral.stop stops
  | char quote shown more ih =>
      rw [List.cons_append, multiLiteral_char quote shown, ih]
      rfl
  | newline newline more ih =>
      rw [List.append_assoc, multiLiteral_newline newline, ih]
      rfl
  | quotes few other more ih =>
      exact closed_multiLiteral.few few other stops ih

-- ========================================================== double quotes

/-- Three double quotes close what three double quotes open. -/
theorem closed_multiBasic : Closed '\x22' (multiBasic false) where
  three r := rfl
  quote r other := by
    rw [multiBasic]
    exact fun r' same => other r' same

/-- A plain character between them is read as it stands. -/
theorem multiBasic_plain {c : Char} (quote : c ≠ '\x22') (slash : c ≠ '\\')
    (shown : isShown c = true) (r : List Char) :
    multiBasic false (c :: r) = push c (multiBasic false r) := by
  rw [multiBasic]
  · rw [Bool.false_and, if_neg Bool.false_ne_true, if_pos shown]
  · exact fun r' same _ => quote same
  · exact fun same => quote same
  · rintro r rfl
    cases shown
  · rintro rfl
    cases shown
  · exact fun same => slash same

/-- What stands after a backslash keeps it from ending a line. -/
theorem continues_solid {c : Char} (solid : c ∉ [' ', '\t', '\n', '\r'])
    (r : List Char) : continues (c :: r) = false := by
  have blanks : dropBlanks (c :: r) = c :: r :=
    List.dropWhile_cons_of_neg (by rw [isBlank_solid solid]; decide)
  unfold continues
  rw [blanks, newline?_solid fun mem => solid (by simp_all)]
  rfl

/-- So is a character that is spelled by an escape: no escape looks like a
backslash at the end of a line. -/
theorem Stands.multiBasic {u : List Char} {c : Char} (stands : Stands u c)
    (r : List Char) :
    multiBasic false (u ++ r) = push c (multiBasic false r) := by
  cases stands with
  | plain quote slash shown =>
      exact multiBasic_plain quote slash shown r
  | @letter e c letter =>
      have solid : e ∉ [' ', '\t', '\n', '\r'] := by
        intro mem
        simp only [List.mem_cons, List.not_mem_nil, or_false] at mem
        rcases mem with rfl | rfl | rfl | rfl <;> cases letter
      show Toml.multiBasic false ('\\' :: e :: r) = _
      rw [Toml.multiBasic, continues_solid solid, letter]
      · rfl
      · rintro a b c d r rfl
        cases letter
      · rintro a b c d e f g h r rfl
        cases letter
  | @short a b c d x number =>
      show (if continues ('u' :: a :: b :: c :: d :: r) = true then _ else _)
        = _
      rw [continues_solid (by decide), number]
      rfl
  | @long a b c d e f g h x number =>
      show (if continues ('U' :: a :: b :: c :: d :: e :: f :: g :: h :: r)
        = true then _ else _) = _
      rw [continues_solid (by decide), number]
      rfl

/-- However a line ends between them, a line feed is read. -/
theorem multiBasic_newline {e : List Char} (newline : Newline e)
    (r : List Char) :
    multiBasic false (e ++ r) = push '\n' (multiBasic false r) := by
  cases newline <;> rfl

/-- Blanks and ends of lines are dropped. -/
theorem Void.skip {v : List Char} (void : Void v) (r : List Char) :
    multiBasic true (v ++ r) = multiBasic true r := by
  induction void with
  | nil => rfl
  | @blank c t blank more ih =>
      have others : c ≠ '\x22' ∧ c ≠ '\r' ∧ c ≠ '\n' ∧ c ≠ '\\' := by
        unfold isBlank at blank
        rw [Bool.or_eq_true, beq_iff_eq, beq_iff_eq] at blank
        rcases blank with rfl | rfl <;> decide
      rw [← ih, List.cons_append, Toml.multiBasic]
      · exact if_pos blank
      · exact fun _ same _ => others.1 same
      · exact others.1
      · exact fun _ same _ => others.2.1 same
      · exact others.2.2.1
      · exact others.2.2.2
  | newline newline more ih =>
      rw [List.append_assoc, ← ih]
      cases newline <;> rfl

/-- They are dropped up to anything else. -/
theorem multiBasic_solid {c : Char} (solid : c ∉ [' ', '\t', '\n', '\r'])
    (r : List Char) : multiBasic true (c :: r) = multiBasic false (c :: r) := by
  by_cases quote : c = '\x22'
  · subst quote
    by_cases three : ∃ r', r = '\x22' :: '\x22' :: r'
    · obtain ⟨r', rfl⟩ := three
      rfl
    · have other (r' : List Char) : r ≠ '\x22' :: '\x22' :: r' :=
        fun same => three ⟨r', same⟩
      rw [multiBasic.eq_3 true r other, multiBasic.eq_3 false r other]
  · by_cases slash : c = '\\'
    · subst slash
      rw [multiBasic.eq_def true, multiBasic.eq_def false]
      rfl
    · have first (skipping : Bool) := multiBasic.eq_10 skipping c r
        (fun _ same _ => quote same) quote
        (fun _ same _ => solid (by rw [same]; decide))
        (fun same => solid (by rw [same]; decide)) slash
      rw [first true, first false, isBlank_solid solid]
      rfl

/-- Blanks in front of blanks and ends of lines are more of them. -/
theorem Blanks.void {b : List Char} (blanks : Blanks b) {v : List Char}
    (void : Void v) : Void (b ++ v) := by
  induction b with
  | nil => exact void
  | cons c b ih =>
      exact .blank (blanks c List.mem_cons_self)
        (ih fun d mem => blanks d (List.mem_cons_of_mem _ mem))

/-- A backslash, blanks and the end of a line, and what else is dropped. -/
theorem multiBasic_joined {b e v : List Char} (blanks : Blanks b)
    (newline : Newline e) (void : Void v) (r : List Char) :
    multiBasic false ('\\' :: (b ++ (e ++ (v ++ r)))) = multiBasic true r := by
  have continued : continues (b ++ (e ++ (v ++ r))) = true := by
    have drop : dropBlanks (b ++ (e ++ (v ++ r))) = e ++ (v ++ r) := by
      refine dropWhile_stop blanks ?_
      cases newline with
      | feed => exact .cons (by decide)
      | both => exact .cons (by decide)
    unfold continues
    rw [drop]
    cases newline <;> rfl
  have skip := (blanks.void (.newline newline void)).skip r
  simp only [List.append_assoc] at skip
  rw [multiBasic.eq_def, ← skip]
  show (if continues (b ++ (e ++ (v ++ r))) = true then _ else _) = _
  rw [if_pos continued]

/-- A string on several lines is read off its spelling between double quotes.
What a backslash at the end of a line takes away is not in it. -/
theorem Block.read (block : Block t s)
    (stops : Stops (fun c => c == '\x22') r) :
    multiBasic false (t ++ threeOf '\x22' r) = some (s, r) := by
  induction block with
  | nil => exact closed_multiBasic.stop stops
  | char here more ih =>
      rw [List.append_assoc, here.multiBasic, ih]
      rfl
  | newline newline more ih =>
      rw [List.append_assoc, multiBasic_newline newline, ih]
      rfl
  | @joined b e v t s blanks newline void solid more ih =>
      have kept : multiBasic true (t ++ threeOf '\x22' r)
          = multiBasic false (t ++ threeOf '\x22' r) := by
        cases t with
        | nil => exact multiBasic_solid (by decide) _
        | cons c t => exact multiBasic_solid (solid c t rfl) _
      rw [List.cons_append]
      simp only [List.append_assoc]
      rw [multiBasic_joined blanks newline void, kept, ih]
  | quotes few other more ih =>
      exact closed_multiBasic.few few other stops ih

-- ================================================================ strings

/-- A string on several lines is read off its quotes, whatever line goes on
behind it. -/
theorem Spread.text (spread : Spread t s) (behind : Behind r r') :
    text (t ++ r) = some (s, r) := by
  have ends (e t : List Char) (q : Char) :
      e ++ (t ++ [q, q, q]) ++ r = e ++ (t ++ threeOf q r) := by
    rw [List.append_assoc, List.append_assoc]
    rfl
  cases spread with
  | @basic e t s opening block =>
      have read := block.read (behind.stops (by decide))
      rw [← opening.drop (by decide), ← ends] at read
      exact read
  | @literal e t s opening block =>
      have read := block.read (behind.stops (by decide))
      rw [← opening.drop (by decide), ← ends] at read
      exact read

end TaskLedger.Toml
