/-
A text without the blanks at its ends. `Around` says what that is without
a word about dropping: the text is blanks, a word, and blanks. Where no
character of the word is a blank, the word is what trimming leaves
(`trim_around`), so a rule about trimmed texts is a rule about such words.
-/
import TaskLedger.Text.Blank
import Mathlib.Data.List.TakeWhile

namespace TaskLedger.Text

/-- A word with nothing but blanks around it. -/
def Around (word text : List Char) : Prop :=
  ∃ before after, text = before ++ word ++ after
    ∧ allBlank before = true ∧ allBlank after = true

/-- A word that no blank is in. -/
def Solid (word : List Char) : Prop := ∀ c ∈ word, isBlank c = false

variable {word text blanks : List Char}

-- ============================================================= dropping

/-- Blanks in front are trimmed, whatever they stand before. -/
theorem trimStart_behind (blank : allBlank blanks = true) (s : List Char) :
    trimStart (blanks ++ s) = trimStart s :=
  List.dropWhile_append_of_pos (List.all_eq_true.mp blank)

/-- So are blanks behind. -/
theorem trimEnd_before (blank : allBlank blanks = true) (s : List Char) :
    trimEnd (s ++ blanks) = trimEnd s := by
  unfold trimEnd
  rw [List.reverse_append, List.dropWhile_append_of_pos]
  intro c mem
  exact List.all_eq_true.mp blank c (List.mem_reverse.mp mem)

theorem dropWhile_solid (solid : Solid word) :
    word.dropWhile isBlank = word := by
  cases word with
  | nil => rfl
  | cons c r =>
      exact List.dropWhile_cons_of_neg (by
        rw [solid c List.mem_cons_self]
        decide)

/-- A word that ends in no blank loses nothing at its end. -/
theorem trimEnd_solid (solid : Solid word) : trimEnd word = word := by
  unfold trimEnd
  have back : Solid word.reverse :=
    fun c mem => solid c (List.mem_reverse.mp mem)
  rw [dropWhile_solid back, List.reverse_reverse]

/-- Of a word that starts with no blank nothing is dropped in front,
whatever follows it. -/
theorem trimStart_word (solid : Solid word) (some_ : word ≠ [])
    (s : List Char) : trimStart (word ++ s) = word ++ s := by
  obtain ⟨c, r, rfl⟩ := List.exists_cons_of_ne_nil some_
  exact List.dropWhile_cons_of_neg (by
    rw [solid c List.mem_cons_self]
    decide)

-- ================================================================ words

/-- What is left of a word with blanks around it is the word. -/
theorem trim_around (around : Around word text) (solid : Solid word) :
    trim text = word := by
  obtain ⟨before, after, rfl, front, back⟩ := around
  unfold trim
  rw [List.append_assoc, trimStart_behind front]
  by_cases none_ : word = []
  · subst none_
    have nothing : trimStart after = [] :=
      List.dropWhile_eq_nil_iff.mpr (List.all_eq_true.mp back)
    rw [List.nil_append, nothing]
    rfl
  · rw [trimStart_word solid none_, trimEnd_before back, trimEnd_solid solid]

/-- What trimming leaves stood between blanks. -/
theorem around_trim (text : List Char) : Around (trim text) text := by
  refine ⟨text.takeWhile isBlank,
    ((trimStart text).reverse.takeWhile isBlank).reverse, ?_, ?_, ?_⟩
  · have start : text.takeWhile isBlank ++ trimStart text = text :=
      List.takeWhile_append_dropWhile
    have stop : trim text
        ++ ((trimStart text).reverse.takeWhile isBlank).reverse
          = trimStart text := by
      unfold trim trimEnd
      rw [← List.reverse_append, List.takeWhile_append_dropWhile,
        List.reverse_reverse]
    rw [List.append_assoc, stop, start]
  · exact List.all_takeWhile
  · unfold allBlank
    rw [List.all_reverse]
    exact List.all_takeWhile

end TaskLedger.Text
