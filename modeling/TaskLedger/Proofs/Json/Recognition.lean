/-
What a reader takes to be a value. A reader recognizes a spelling
(`Recognizes`) if it reads every text of that spelling, behind any blanks and
in front of anything that ends a number, and if whatever it reads is such a
text behind blanks. So a spelling says all that there is to know of a reader,
and two readers are put together by what they recognize.

For a reader that recognizes anything, the texts it reads are the spelling
(`Means`), which lets a record of fields be taken apart before anybody says
what its fields spell.
-/
import TaskLedger.Proofs.Json.Grammar
import TaskLedger.Proofs.Json.Keeping
import TaskLedger.Proofs.Json.Members

namespace TaskLedger.Json

section

variable {α : Type}

/-- The reader takes a text to a value, behind blanks and in front of
anything that ends a number. -/
def Means (read : Reader α) : Spelling α := fun v a =>
  Starts v ∧ ∀ g r, Gap g → NumberEnds r → read (g ++ (v ++ r)) = .ok (a, r)

/-- The reader reads the texts of a spelling, and nothing else. -/
structure Recognizes (read : Reader α) (T : Spelling α) : Prop where
  reads : ∀ {v a}, T v a → Means read v a
  spelt : ∀ {s a r}, read s = .ok (a, r) →
    ∃ g v, Gap g ∧ T v a ∧ s = g ++ (v ++ r)

/-- A value starts with itself: there is no gap before it. -/
theorem Starts.solid {v : List Char} (starts : Starts v) {g u : List Char}
    (gap : Gap g) (same : v = g ++ u) : g = [] := by
  obtain ⟨c, s, rfl, solid, -, -⟩ := starts
  cases g with
  | nil => rfl
  | cons d g =>
      have blank := gap d List.mem_cons_self
      rw [← (List.cons.inj same).1, solid] at blank
      cases blank

theorem NumberEnds.nil : NumberEnds [] := by
  rintro c rest ⟨⟩

/-- A number ends at a gap, too. -/
theorem NumberEnds.gap {g r : List Char} (gap : Gap g) (ends : NumberEnds r) :
    NumberEnds (g ++ r) := by
  cases g with
  | nil => exact ends
  | cons d g =>
      rintro c rest ⟨⟩
      have blank := gap d List.mem_cons_self
      simp only [isGap, Bool.or_eq_true, beq_iff_eq] at blank
      rcases blank with ((rfl | rfl) | rfl) | rfl <;> decide

/-- A text means one value only. -/
theorem Means.unique {read : Reader α} {v : List Char} {a b : α}
    (one : Means read v a) (other : Means read v b) : a = b := by
  have same := (one.2 [] [] Gap.nil NumberEnds.nil).symm.trans
    (other.2 [] [] Gap.nil NumberEnds.nil)
  exact (Prod.mk.inj (Except.ok.inj same)).1

/-- What a reader recognizes is what it reads. -/
theorem Recognizes.means_iff {read : Reader α} {T : Spelling α}
    (h : Recognizes read T) {v : List Char} {a : α} :
    Means read v a ↔ T v a := by
  refine ⟨fun means => ?_, h.reads⟩
  obtain ⟨g, u, gap, spells, same⟩ :=
    h.spelt (means.2 [] [] Gap.nil NumberEnds.nil)
  rw [List.nil_append, List.append_nil, List.append_nil] at same
  obtain rfl := means.1.solid gap same
  rw [same]
  exact spells

/-- A reader that recognizes a spelling recognizes its own meaning. -/
theorem Recognizes.means {read : Reader α} {T : Spelling α}
    (h : Recognizes read T) : Recognizes read (Means read) where
  reads means := means
  spelt taken := by
    obtain ⟨g, v, gap, spells, same⟩ := h.spelt taken
    exact ⟨g, v, gap, h.reads spells, same⟩

/-- A text spells one value. -/
theorem Recognizes.unique {read : Reader α} {T : Spelling α}
    (h : Recognizes read T) {v : List Char} {a b : α} (one : T v a)
    (other : T v b) : a = b :=
  (h.reads one).unique (h.reads other)

/-- A whole text is read if it is a spelling between blanks. -/
theorem Recognizes.readAll_iff {read : Reader α} {T : Spelling α}
    (h : Recognizes read T) {t : List Char} {a : α} :
    readAll read t = .ok a
      ↔ ∃ g v g', Gap g ∧ Gap g' ∧ T v a ∧ t = g ++ (v ++ g') := by
  unfold readAll
  constructor
  · intro taken
    obtain ⟨⟨b, r⟩, value, rest⟩ := bind_ok taken
    dsimp only at rest
    split at rest
    · next blank =>
      obtain rfl := Except.ok.inj rest
      obtain ⟨g, v, gap, spells, same⟩ := h.spelt value
      obtain ⟨g', gap', split, -⟩ := exists_gap r
      rw [List.isEmpty_iff.mp blank, List.append_nil] at split
      exact ⟨g, v, r, gap, split ▸ gap', spells, same⟩
    · cases rest
  · rintro ⟨g, v, g', gap, gap', spells, rfl⟩
    have ends := NumberEnds.nil.gap gap'
    rw [List.append_nil] at ends
    have empty := gap'.skipGap []
    rw [List.append_nil] at empty
    rw [(h.reads spells).2 g g' gap ends]
    change (if (skipGap g').isEmpty then _ else _) = _
    rw [empty]
    rfl

end

-- =============================================================== strings

namespace Quoted

/-- Each way to spell a character is read as that character. -/
theorem Stands.read {u : List Char} {c : Char} (stands : Stands u c)
    (r : List Char) : read (u ++ r) = push c (read r) := by
  cases stands with
  | plain quote slash solid => exact read_plain quote slash solid r
  | letter letter =>
      refine read_letter ?_ letter r
      rintro rfl
      cases letter
  | numbered digits low high => exact read_numbered digits low high r
  | halves first high second low =>
      refine read_halves first ?_ high second low r
      -- a first half is no second half
      unfold isHigh at high
      unfold isLow
      simp only [Bool.and_eq_true, decide_eq_true_eq] at high
      rw [Bool.and_eq_false_iff, decide_eq_false_iff_not]
      omega

/-- A spelling is read up to its closing quote. -/
theorem Spells.read {q s : List Char} (spells : Spells q s) (r : List Char) :
    Quoted.read (q ++ '\x22' :: r) = .ok (s, r) := by
  induction spells with
  | nil => rfl
  | cons here more ih =>
      rw [List.append_assoc, here.read, ih]
      rfl

/-- What was read is a spelling with its closing quote. -/
theorem spells_of_read {s t r : List Char} (h : Quoted.read s = .ok (t, r)) :
    ∃ q, Spells q t ∧ s = q ++ '\x22' :: r := by
  -- what a character and its spelling add to the rest
  have step {u s t : List Char} {c : Char} (here : Stands u c)
      (h : push c (Quoted.read s) = .ok (t, r))
      (ih : ∀ {t}, Quoted.read s = .ok (t, r) →
        ∃ q, Spells q t ∧ s = q ++ '\x22' :: r) :
      ∃ q, Spells q t ∧ u ++ s = q ++ '\x22' :: r := by
    obtain ⟨t, taken, rfl⟩ := push_ok h
    obtain ⟨q, more, rfl⟩ := ih taken
    exact ⟨u ++ q, .cons here more, (List.append_assoc ..).symm⟩
  fun_induction Quoted.read s generalizing t with
  | case2 r' =>
      obtain ⟨rfl, rfl⟩ := Prod.mk.inj (Except.ok.inj h)
      exact ⟨[], .nil, rfl⟩
  | case6 a b c d r' n digits low high ih =>
      exact step (.numbered digits (by simpa using low) (by simpa using high))
        h ih
  | case10 a b c d n first low high a' b' c' d' r' m second half ih =>
      exact step (.halves first (by simpa using high) second half) h ih
  | case15 e r' other c letter ih => exact step (.letter letter) h ih
  | case18 c r' quote slash plain ih =>
      exact step (.plain quote slash plain) h ih
  | _ => cases h

/-- A text that nobody asks for is passed over up to its closing quote. -/
theorem Formed.skip {q : List Char} (formed : Formed q) (r : List Char) :
    Quoted.skip (q ++ '\x22' :: r) = .ok r := by
  induction formed with
  | nil => rfl
  | @plain c t quote slash solid more ih =>
      rw [List.cons_append, Quoted.skip, if_neg solid, ih]
      · exact quote
      · exact slash
  | @letter e t letter more ih =>
      rw [List.cons_append, List.cons_append, Quoted.skip, if_pos letter, ih]
      rintro rfl
      cases letter
  | numbered digits more ih =>
      simp only [List.cons_append, Quoted.skip]
      rw [if_pos digits, ih]

/-- Skipping a string leads behind a quote, over something well-formed. -/
theorem formed_of_skip {s r : List Char} (h : Quoted.skip s = .ok r) :
    ∃ q, Formed q ∧ s = q ++ '\x22' :: r := by
  fun_induction Quoted.skip s with
  | case2 s =>
      obtain rfl := Except.ok.inj h
      exact ⟨[], .nil, rfl⟩
  | case4 a b c d s digits ih =>
      obtain ⟨q, more, rfl⟩ := ih h
      exact ⟨_, .numbered digits more, rfl⟩
  | case7 e s other letter ih =>
      obtain ⟨q, more, rfl⟩ := ih h
      exact ⟨_, .letter letter more, rfl⟩
  | case10 c s quote slash plain ih =>
      obtain ⟨q, more, rfl⟩ := ih h
      exact ⟨_, .plain quote slash plain more, rfl⟩
  | _ => cases h

end Quoted

/-- The reader of strings recognizes just the spellings of strings. -/
theorem readString_recognizes : Recognizes readString Spelling.string where
  reads := by
    rintro v s ⟨q, spells, rfl⟩
    refine ⟨⟨_, _, rfl, by decide, by decide, by decide⟩, ?_⟩
    intro g r gap _
    unfold readString
    rw [gap.skipGap, List.cons_append, skipGap_of_solid (by decide),
      List.append_assoc]
    change Except.bind (Quoted.read (q ++ '\x22' :: r)) _ = _
    rw [spells.read]
    dsimp only [Except.bind]
    rw [String.ofList_toList]
  spelt := by
    intro s a r taken
    unfold readString at taken
    split at taken
    · next found =>
      obtain ⟨⟨t, r'⟩, read, taken⟩ := bind_ok taken
      obtain ⟨rfl, rfl⟩ := Prod.mk.inj (Except.ok.inj taken)
      obtain ⟨g, gap, rfl⟩ := gap_of_skipGap found
      obtain ⟨q, spells, rfl⟩ := Quoted.spells_of_read read
      refine ⟨g, _, gap, ⟨q, ?_, rfl⟩, ?_⟩
      · rw [String.toList_ofList]
        exact spells
      · rw [List.cons_append, List.append_assoc, List.singleton_append]
    · cases taken

end TaskLedger.Json
