/-
The texts of JSON, said without a reader: what may stand between values,
how strings and numbers are spelled, and how brackets hold texts between
commas (`Enclosed`). `WellFormed` puts these together for values whose
meaning nobody asks for; the spelling of a span uses the same brackets with
fields inside.

A list of values is held with its blanks in two steps. `Behind` is what
stands behind a value up to the closing bracket, so it starts with a blank,
a comma or the bracket, and never goes on with a number. `Inside` puts the
first value in front of it.
-/
import Mathlib.Data.List.Forall2
import TaskLedger.Json.Skip
import TaskLedger.Span.Writer

namespace TaskLedger.Json

/-- Blanks, or nothing. -/
def Gap (g : List Char) : Prop := ∀ c ∈ g, isGap c = true

-- =============================================================== strings

namespace Quoted

/-- A character inside of quotes, and a text it is spelled by. -/
inductive Stands : List Char → Char → Prop
  /-- It stands for itself. -/
  | plain {c : Char} (quote : c ≠ '\x22') (slash : c ≠ '\\')
      (solid : ¬ c.toNat < 0x20) : Stands [c] c
  /-- By a letter. -/
  | letter {e c : Char} (letter : letter? e = some c) : Stands ['\\', e] c
  /-- By its number. -/
  | numbered {a b c d : Char} {n : Nat} (digits : hex4? a b c d = some n)
      (low : isLow n = false) (high : isHigh n = false) :
      Stands ['\\', 'u', a, b, c, d] (Char.ofNat n)
  /-- By the numbers of its two halves. -/
  | halves {a b c d a' b' c' d' : Char} {n m : Nat}
      (first : hex4? a b c d = some n) (high : isHigh n = true)
      (second : hex4? a' b' c' d' = some m) (low : isLow m = true) :
      Stands ['\\', 'u', a, b, c, d, '\\', 'u', a', b', c', d'] (join n m)

/-- A string, and a text that spells it inside of quotes. -/
inductive Spells : List Char → List Char → Prop
  | nil : Spells [] []
  | cons {u t s : List Char} {c : Char} (here : Stands u c)
      (more : Spells t s) : Spells (u ++ t) (c :: s)

/-- A text inside of quotes that nobody asks the value of. A half of a
character may stand alone there. -/
inductive Formed : List Char → Prop
  | nil : Formed []
  | plain {c : Char} {t : List Char} (quote : c ≠ '\x22') (slash : c ≠ '\\')
      (solid : ¬ c.toNat < 0x20) (more : Formed t) : Formed (c :: t)
  | letter {e : Char} {t : List Char} (letter : (letter? e).isSome)
      (more : Formed t) : Formed ('\\' :: e :: t)
  | numbered {a b c d : Char} {t : List Char}
      (digits : (hex4? a b c d).isSome) (more : Formed t) :
      Formed ('\\' :: 'u' :: a :: b :: c :: d :: t)

end Quoted

-- =============================================================== numbers

namespace Numeral

/-- At least one digit, and nothing else. -/
def Digits (ds : List Char) : Prop := ds ≠ [] ∧ ∀ c ∈ ds, c.isDigit = true

/-- Digits without a zero in front of others. -/
def Whole (ds : List Char) : Prop :=
  Digits ds ∧ (ds.head? = some '0' → ds.length = 1)

/-- A point with digits, or nothing. -/
inductive Fraction : List Char → Prop
  | none : Fraction []
  | some {ds : List Char} (digits : Digits ds) : Fraction ('.' :: ds)

/-- An exponent, or nothing. -/
inductive Exponent : List Char → Prop
  | none : Exponent []
  | some {e : Char} {sign ds : List Char} (letter : e = 'e' ∨ e = 'E')
      (signed : sign = [] ∨ sign = ['+'] ∨ sign = ['-'])
      (digits : Digits ds) : Exponent (e :: (sign ++ ds))

/-- A number without its sign. -/
inductive Unsigned : List Char → Prop
  | mk {ds f e : List Char} (whole : Whole ds) (fraction : Fraction f)
      (exponent : Exponent e) : Unsigned (ds ++ (f ++ e))

end Numeral

-- ============================================================== brackets

/-- What stands behind a value, up to the bracket: other values, behind a
comma each. -/
inductive Behind : List (List Char) → List Char → Prop
  | last {g : List Char} (gap : Gap g) : Behind [] g
  | more {g g' v t : List Char} {vs : List (List Char)} (before : Gap g)
      (after : Gap g') (rest : Behind vs t) :
      Behind (v :: vs) (g ++ ',' :: (g' ++ (v ++ t)))

/-- What stands between two brackets: values with commas between them. -/
inductive Inside : List (List Char) → List Char → Prop
  | none {g : List Char} (gap : Gap g) : Inside [] g
  | some {g v t : List Char} {vs : List (List Char)} (gap : Gap g)
      (rest : Behind vs t) : Inside (v :: vs) (g ++ (v ++ t))

/-- How a bracket is opened. -/
def Bracket.opening : Bracket → Char
  | .list => '['
  | .object => '\x7b'

/-- How a bracket is closed. -/
def Bracket.closing : Bracket → Char
  | .list => ']'
  | .object => '\x7d'

/-- Values with commas between them, in brackets. -/
def Enclosed (b : Bracket) (vs : List (List Char)) (t : List Char) : Prop :=
  ∃ u, Inside vs u ∧ t = b.opening :: (u ++ [b.closing])

/-- A member of an object: the text of its name, the blanks around the
colon, and the text of its value. -/
structure Member where
  quoted : List Char
  before : List Char
  after : List Char
  value : List Char

/-- Only blanks stand around the colon. -/
def Member.Spaced (m : Member) : Prop := Gap m.before ∧ Gap m.after

/-- The text of a member. -/
def Member.text (m : Member) : List Char :=
  '\x22' :: (m.quoted ++ '\x22' :: (m.before ++ ':' :: (m.after ++ m.value)))

/-- A member spells a name, and holds the text of a value under it. -/
def Member.Holds (m : Member) (e : String × List Char) : Prop :=
  Quoted.Spells m.quoted e.1.toList ∧ m.Spaced ∧ m.value = e.2

-- ================================================================ values

/-- A value of any sort, nested to any depth. -/
inductive WellFormed : List Char → Prop
  | null : WellFormed ['n', 'u', 'l', 'l']
  | yes : WellFormed ['t', 'r', 'u', 'e']
  | no : WellFormed ['f', 'a', 'l', 's', 'e']
  | positive {t : List Char} (number : Numeral.Unsigned t) : WellFormed t
  | negative {t : List Char} (number : Numeral.Unsigned t) :
      WellFormed ('-' :: t)
  | string {t : List Char} (string : Quoted.Formed t) :
      WellFormed ('\x22' :: (t ++ ['\x22']))
  | list {vs : List (List Char)} {t : List Char}
      (values : ∀ v ∈ vs, WellFormed v) (text : Enclosed .list vs t) :
      WellFormed t
  | object {ms : List Member} {t : List Char}
      (names : ∀ m ∈ ms, Quoted.Formed m.quoted) (spaced : ∀ m ∈ ms, m.Spaced)
      (values : ∀ m ∈ ms, WellFormed m.value)
      (text : Enclosed .object (ms.map Member.text) t) : WellFormed t

/-- What a text spells, for one sort of values. -/
abbrev Spelling (α : Type) := List Char → α → Prop

namespace Spelling

/-- A string in quotes. -/
def string : Spelling String := fun v s =>
  ∃ q, Quoted.Spells q s.toList ∧ v = '\x22' :: (q ++ ['\x22'])

/-- An unsigned word in decimal digits. -/
def unsigned : Spelling UInt64 := fun v n => v = writeUnsigned n

/-- A signed word in decimal digits. -/
def signed : Spelling Int64 := fun v n => v = writeSigned n

/-- A value, or the word for none. -/
def optional {α : Type} (T : Spelling α) : Spelling (Option α) := fun v a =>
  v = nullWord ∧ a = none ∨ ∃ b, T v b ∧ a = some b

/-- Values in a list. -/
def list {α : Type} (T : Spelling α) : Spelling (List α) := fun v as =>
  ∃ vs, Enclosed .list vs v ∧ List.Forall₂ T vs as

/-- Names and the texts of their values, in the order of an object. -/
def object : Spelling (List (String × List Char)) := fun v es =>
  ∃ ms, List.Forall₂ Member.Holds ms es
    ∧ Enclosed .object (ms.map Member.text) v

/-- A named value: its name, or an object that holds nothing under it. -/
def named {α : Type} (name : α → String) : Spelling α := fun v a =>
  string v (name a) ∨ object v [(name a, nullWord)]

end Spelling

-- ================================================================ fields

section

variable {α : Type}

/-- Names and values that may be a record's: no field is there twice, and any
well-formed value stands under any other name. -/
structure Fielded (fields : List String) (es : List (String × List Char)) :
    Prop where
  once : es.Pairwise fun e e' => e.1 = e'.1 → e.1 ∉ fields
  others : ∀ e ∈ es, e.1 ∉ fields → WellFormed e.2

/-- The value of a field that has to be there. -/
def Given (es : List (String × List Char)) (name : String) (T : Spelling α)
    (a : α) : Prop :=
  ∃ v, (name, v) ∈ es ∧ T v a

/-- The value of a field that may be left out. -/
def Defaulted (es : List (String × List Char)) (name : String)
    (T : Spelling α) (default a : α) : Prop :=
  Given es name T a ∨ (∀ v, (name, v) ∉ es) ∧ a = default

end

-- ================================================================ blanks

theorem Gap.nil : Gap [] := List.forall_mem_nil _

theorem Gap.append {g g' : List Char} (front : Gap g) (back : Gap g') :
    Gap (g ++ g') := by
  intro c mem
  rcases List.mem_append.mp mem with mem | mem
  · exact front c mem
  · exact back c mem

/-- Blanks in front are dropped, as many as there are. -/
theorem Gap.skipGap {g : List Char} (gap : Gap g) (s : List Char) :
    Json.skipGap (g ++ s) = Json.skipGap s :=
  List.dropWhile_append_of_pos gap

/-- What is dropped in front is blank, and what is left starts solid. -/
theorem exists_gap (s : List Char) :
    ∃ g, Gap g ∧ s = g ++ skipGap s
      ∧ ∀ c r, skipGap s = c :: r → isGap c = false := by
  refine ⟨s.takeWhile isGap, fun c mem => ?_, ?_, fun c r left => ?_⟩
  · exact List.all_eq_true.mp List.all_takeWhile c mem
  · exact List.takeWhile_append_dropWhile.symm
  · have head := List.head?_dropWhile_not isGap s
    unfold skipGap at left
    rwa [left] at head

/-- What is found behind the blanks. -/
theorem gap_of_skipGap {s r : List Char} {c : Char}
    (found : skipGap s = c :: r) : ∃ g, Gap g ∧ s = g ++ c :: r := by
  obtain ⟨g, gap, split, -⟩ := exists_gap s
  rw [found] at split
  exact ⟨g, gap, split⟩

end TaskLedger.Json
