/-
A reader does not look behind what it takes: with more behind the text, it
takes the same and leaves that too (`Keeps`). The one value that does not
say where it ends is a number, so something has to be left; an object, a list
and a string end by themselves (`Closes`).

The loops that pass over members and values are bounded by the length of the
text, which grows with what is behind it, so each of them is shown to keep
under every larger bound at once.
-/
import TaskLedger.Json.Fields
import TaskLedger.Proofs.Json.Quoted

namespace TaskLedger.Json

/-- What the reader takes while something is left, it takes with more behind
it. -/
def Keeps {α : Type} (read : Reader α) : Prop :=
  ∀ ⦃s a r⦄, read s = .ok (a, r) → r ≠ [] →
    ∀ more, read (s ++ more) = .ok (a, r ++ more)

/-- What the reader takes, it takes with more behind it. -/
def Closes {α : Type} (read : Reader α) : Prop :=
  ∀ ⦃s a r⦄, read s = .ok (a, r) →
    ∀ more, read (s ++ more) = .ok (a, r ++ more)

/-- What is taken with anything behind it is taken where something is left. -/
theorem Closes.keeps {α : Type} {read : Reader α} (h : Closes read) :
    Keeps read :=
  fun _ _ _ taken _ => h taken

/-- The steps of a reader that took something. -/
theorem bind_ok {α β : Type} {x : Except Fault α} {f : α → Except Fault β}
    {b : β} (h : (x >>= f) = .ok b) : ∃ a, x = .ok a ∧ f a = .ok b := by
  cases x with
  | error e => cases h
  | ok a => exact ⟨a, rfl, h⟩

/-- What is read as a record was a list or an object, and its draft makes the
record. -/
theorem Shape.read_ok {σ α : Type} {shape : Shape σ} {start : σ}
    {finish : σ → Except Mismatch α} {s r : List Char} {a : α}
    (h : shape.read start finish s = .ok (a, r)) :
    ∃ last, finish last = .ok a
      ∧ ((∃ u, skipGap s = '[' :: u
            ∧ shape.readElements shape.fields 0 true start u = .ok (last, r))
        ∨ ∃ u, skipGap s = '\x7b' :: u
            ∧ shape.readMembers (u.length + 1) true start u
              = .ok (last, r)) := by
  unfold Shape.read at h
  dsimp only at h
  split at h
  · cases h
  · next u found =>
    obtain ⟨⟨last, w⟩, taken, h⟩ := bind_ok h
    dsimp only at h
    split at h
    · next made =>
      obtain ⟨rfl, rfl⟩ := Prod.mk.inj (Except.ok.inj h)
      exact ⟨last, made, .inl ⟨u, found, taken⟩⟩
    · cases h
  · next u found =>
    obtain ⟨⟨last, w⟩, taken, h⟩ := bind_ok h
    dsimp only at h
    split at h
    · next made =>
      obtain ⟨rfl, rfl⟩ := Prod.mk.inj (Except.ok.inj h)
      exact ⟨last, made, .inr ⟨u, found, taken⟩⟩
    · cases h
  · cases h

-- ================================================================ blanks

/-- The first character that is no blank stays the first one. -/
theorem skipGap_append {s : List Char} {c : Char} {r : List Char}
    (h : skipGap s = c :: r) (more : List Char) :
    skipGap (s ++ more) = c :: (r ++ more) := by
  unfold skipGap at h ⊢
  rw [List.dropWhile_append, h]
  rfl

/-- A word is found with more behind it. -/
theorem word_append {w s r : List Char} (h : word w s = .ok r)
    (more : List Char) : word w (s ++ more) = .ok (r ++ more) := by
  induction w generalizing s with
  | nil => obtain rfl := Except.ok.inj h; rfl
  | cons a w ih =>
      cases s with
      | nil => cases h
      | cons c s =>
          rw [word] at h
          rw [List.cons_append, word]
          split at h
          · next same => rw [if_pos same, ih h]
          · cases h

/-- And so is a colon. -/
theorem colon_append {s r : List Char} (h : colon s = .ok r)
    (more : List Char) : colon (s ++ more) = .ok (r ++ more) := by
  unfold colon at h ⊢
  split at h
  · cases h
  · next gap =>
    obtain rfl := Except.ok.inj h
    rw [skipGap_append gap]
    rfl
  · cases h

-- =============================================================== strings

namespace Quoted

/-- A character was pushed onto what was read before it. -/
theorem push_ok {c : Char} {x : Except Fault (List Char × List Char)}
    {s r : List Char} (h : push c x = .ok (s, r)) :
    ∃ t, x = .ok (t, r) ∧ s = c :: t := by
  cases x with
  | error e => cases h
  | ok x =>
      obtain ⟨rfl, rfl⟩ := Prod.mk.inj (Except.ok.inj h)
      exact ⟨_, rfl, rfl⟩

/-- A character that is pushed onto something kept is kept. -/
theorem push_append {c : Char} {x y : Except Fault (List Char × List Char)}
    {s r more : List Char} (h : push c x = .ok (s, r))
    (keeps : ∀ t, x = .ok (t, r) → y = .ok (t, r ++ more)) :
    push c y = .ok (s, r ++ more) := by
  obtain ⟨t, taken, rfl⟩ := push_ok h
  rw [keeps t taken]
  rfl

/-- A string ends by its quote, so nothing behind it is looked at. The induction
is on the text, as the reader takes it. -/
theorem read_closes : Closes read := by
  intro s t r h more
  fun_induction read s generalizing t with
  | case2 r =>
      obtain ⟨rfl, rfl⟩ := Prod.mk.inj (Except.ok.inj h)
      rfl
  | case6 a b c d r n digits low high ih =>
      simp only [List.cons_append]
      rw [read_numbered digits (by simpa using low) (by simpa using high)]
      exact push_append h fun t taken => ih taken
  | case10 a b c d n first low high a' b' c' d' r m second half ih =>
      simp only [List.cons_append]
      rw [read_halves first (by simpa using low) (by simpa using high) second
        half]
      exact push_append h fun t taken => ih taken
  | case15 e r other c letter ih =>
      simp only [List.cons_append]
      rw [read_letter other letter]
      exact push_append h fun t taken => ih taken
  | case18 c r quote slash plain ih =>
      rw [List.cons_append, read_plain quote slash plain]
      exact push_append h fun t taken => ih taken
  | _ => cases h

/-- It is passed over the same way. -/
theorem skip_append {s r : List Char} (h : skip s = .ok r)
    (more : List Char) : skip (s ++ more) = .ok (r ++ more) := by
  fun_induction skip s with
  | case2 s => obtain rfl := Except.ok.inj h; rfl
  | case4 a b c d s digits ih =>
      simp only [List.cons_append, skip]
      rw [if_pos digits, ih h]
  | case7 e s other letter ih =>
      rw [List.cons_append, List.cons_append, skip, if_pos letter, ih h]
      exact other
  | case10 c s quote slash plain ih =>
      rw [List.cons_append, skip]
      · rw [if_neg plain, ih h]
      · exact quote
      · exact slash
  | _ => cases h

end Quoted

-- =============================================================== numbers

namespace Numeral

/-- The digits of a text that goes on behind them. -/
theorem digits_append {s : List Char} (h : afterDigits s ≠ [])
    (more : List Char) :
    digitsOf (s ++ more) = digitsOf s
      ∧ afterDigits (s ++ more) = afterDigits s ++ more := by
  unfold digitsOf afterDigits at *
  have some_ : (s.dropWhile Char.isDigit).isEmpty = false :=
    List.isEmpty_eq_false_iff.mpr h
  have cut : (s.takeWhile Char.isDigit).length ≠ s.length := by
    intro all
    have parts := congrArg List.length
      (List.takeWhile_append_dropWhile (l := s) (p := Char.isDigit))
    rw [List.length_append] at parts
    exact h (List.eq_nil_of_length_eq_zero (by omega))
  rw [List.takeWhile_append, if_neg cut, List.dropWhile_append, some_]
  exact ⟨rfl, rfl⟩

/-- The sign of an exponent is its first character, if there is one. -/
theorem signOf_append {s : List Char} (h : s ≠ []) (more : List Char) :
    signOf (s ++ more) = ((signOf s).1, (signOf s).2 ++ more) := by
  obtain ⟨c, r, rfl⟩ := List.exists_cons_of_ne_nil h
  by_cases plus : c = '+'
  · subst plus
    rfl
  · by_cases minus : c = '-'
    · subst minus
      rfl
    · have plain (t : List Char) : signOf (c :: t) = (false, c :: t) := by
        rw [signOf]
        · rintro r ⟨⟩
          exact plus rfl
        · rintro r ⟨⟩
          exact minus rfl
      rw [List.cons_append, plain, plain]
      rfl

/-- A value that comes with what is left. -/
theorem with_rest {x : Except Fault Numeral} {a : Numeral} {s r : List Char}
    (h : (do .ok (← x, s)) = Except.ok (a, r)) : x = .ok a ∧ s = r := by
  obtain ⟨b, value, h⟩ := bind_ok h
  obtain ⟨rfl, rfl⟩ := Prod.mk.inj (Except.ok.inj h)
  exact ⟨value, rfl⟩

/-- The digits of an exponent go on as long as there are digits, so something
that is no digit has to be left. -/
theorem readExponent_keeps (negative : Bool) (word : Nat) (base : Int) :
    Keeps (readExponent negative word base) := by
  intro s a r h left more
  unfold readExponent at h ⊢
  have some_ : s ≠ [] := by
    rintro rfl
    cases h
  rw [signOf_append some_]
  generalize signOf s = signed at h ⊢
  obtain ⟨below, s⟩ := signed
  dsimp only at h ⊢
  cases s with
  | nil => cases h
  | cons c t =>
      dsimp only at h
      rw [List.cons_append]
      dsimp only
      split at h
      · cases h
      · next digit =>
        rw [if_neg digit, ← List.cons_append]
        -- what is left is what is behind the digits, in either case
        split at h
        · next large =>
          split at h
          · cases h
          · next none_ =>
            obtain ⟨rfl, rfl⟩ := Prod.mk.inj (Except.ok.inj h)
            obtain ⟨digits, after⟩ := digits_append left more
            rw [digits, after, if_pos large, if_neg none_]
        · next small =>
          obtain ⟨value, rfl⟩ := with_rest h
          obtain ⟨digits, after⟩ := digits_append left more
          rw [digits, after, if_neg small, value]
          rfl

/-- A fraction is kept for the same reason, and then its exponent. -/
theorem readFraction_keeps (negative : Bool) (word : Nat) (base : Int) :
    Keeps (readFraction negative word base) := by
  intro s a r h left more
  unfold readFraction at h ⊢
  dsimp only at h ⊢
  split at h
  · split at h <;> cases h
  · next digits =>
    have some_ : afterDigits s ≠ [] := by
      intro none_
      rw [none_] at h
      exact left (with_rest h).2.symm
    obtain ⟨same, after⟩ := digits_append some_ more
    rw [same, after, if_neg digits]
    obtain ⟨c, t, rest⟩ := List.exists_cons_of_ne_nil some_
    rw [rest] at h ⊢
    rw [List.cons_append]
    split at h
    · next e =>
      obtain ⟨rfl, rfl⟩ := List.cons.inj e
      exact readExponent_keeps _ _ _ h left more
    · next e =>
      obtain ⟨rfl, rfl⟩ := List.cons.inj e
      exact readExponent_keeps _ _ _ h left more
    · next noLower noUpper =>
      obtain ⟨value, rfl⟩ := with_rest h
      split
      · next e => exact (noLower _ (by rw [(List.cons.inj e).1])).elim
      · next e => exact (noUpper _ (by rw [(List.cons.inj e).1])).elim
      · rw [value]
        rfl

/-- A number is kept if something is left: at each place where it may stop, the
next character is there and stops it. -/
theorem read_keeps (negative : Bool) : Keeps (read negative) := by
  intro s a r h left more
  unfold read at h ⊢
  dsimp only at h ⊢
  cases s with
  | nil => cases h
  | cons d s =>
      dsimp only at h
      split at h
      · cases h
      · next digits =>
        have some_ : afterDigits (d :: s) ≠ [] := by
          intro none_
          rw [none_] at h
          dsimp only at h
          split at h
          · exact left (with_rest h).2.symm
          · split at h
            · exact left (with_rest h).2.symm
            · exact left (Prod.mk.inj (Except.ok.inj h)).2.symm
        obtain ⟨same, after⟩ := digits_append some_ more
        rw [List.cons_append] at same after ⊢
        rw [same, after]
        dsimp only
        rw [if_neg digits]
        obtain ⟨c, t, rest⟩ := List.exists_cons_of_ne_nil some_
        rw [rest] at h ⊢
        rw [List.cons_append]
        split at h
        · next e =>
          obtain ⟨rfl, rfl⟩ := List.cons.inj e
          exact readFraction_keeps _ _ _ h left more
        · next e =>
          obtain ⟨rfl, rfl⟩ := List.cons.inj e
          exact readExponent_keeps _ _ _ h left more
        · next e =>
          obtain ⟨rfl, rfl⟩ := List.cons.inj e
          exact readExponent_keeps _ _ _ h left more
        · next noPoint noLower noUpper =>
          split
          · next e => exact (noPoint _ (by rw [(List.cons.inj e).1])).elim
          · next e => exact (noLower _ (by rw [(List.cons.inj e).1])).elim
          · next e => exact (noUpper _ (by rw [(List.cons.inj e).1])).elim
          · split at h
            · next large =>
              obtain ⟨value, rfl⟩ := with_rest h
              rw [if_pos large, value]
              rfl
            · next fits =>
              rw [if_neg fits]
              split at h
              · next minus =>
                obtain ⟨value, rfl⟩ := with_rest h
                rw [if_pos minus, value]
                rfl
              · next plus =>
                obtain ⟨rfl, rfl⟩ := Prod.mk.inj (Except.ok.inj h)
                rw [if_neg plus]
                rfl

/-- An exponent is passed over with more behind it, if something was left. -/
theorem skipExponent_append {s r : List Char} (h : skipExponent s = .ok r)
    (left : r ≠ []) (more : List Char) :
    skipExponent (s ++ more) = .ok (r ++ more) := by
  unfold skipExponent at h ⊢
  have some_ : s ≠ [] := by
    rintro rfl
    cases h
  rw [signOf_append some_]
  dsimp only at h ⊢
  split at h
  · cases h
  · next digits =>
    obtain rfl := Except.ok.inj h
    obtain ⟨same, after⟩ := digits_append left more
    rw [same, after, if_neg digits]

/-- And so is a number. -/
theorem skip_append {s r : List Char} (h : skip s = .ok r) (left : r ≠ [])
    (more : List Char) : skip (s ++ more) = .ok (r ++ more) := by
  unfold skip at h ⊢
  dsimp only at h ⊢
  split at h
  · cases h
  · next whole =>
    have some_ : afterDigits s ≠ [] := by
      intro none_
      rw [none_] at h
      exact left (Except.ok.inj h).symm
    obtain ⟨same, after⟩ := digits_append some_ more
    rw [same, after, if_neg whole]
    obtain ⟨c, t, rest⟩ := List.exists_cons_of_ne_nil some_
    rw [rest] at h ⊢
    rw [List.cons_append]
    -- a point, a letter of an exponent, or neither of them: what comes first is
    -- there to tell
    split at h
    · next e =>
      obtain ⟨rfl, rfl⟩ := List.cons.inj e
      split at h
      · cases h
      · next digits =>
        have some_ : afterDigits t ≠ [] := by
          intro none_
          rw [none_] at h
          exact left (Except.ok.inj h).symm
        obtain ⟨same, after⟩ := digits_append some_ more
        change (if (digitsOf (t ++ more)).isEmpty then _ else _) = _
        rw [same, after, if_neg digits]
        obtain ⟨c, u, rest⟩ := List.exists_cons_of_ne_nil some_
        rw [rest] at h ⊢
        rw [List.cons_append]
        split at h
        · next e =>
          obtain ⟨rfl, rfl⟩ := List.cons.inj e
          exact skipExponent_append h left more
        · next e =>
          obtain ⟨rfl, rfl⟩ := List.cons.inj e
          exact skipExponent_append h left more
        · next noLower noUpper =>
          obtain rfl := Except.ok.inj h
          split
          · next e => exact (noLower _ (by rw [(List.cons.inj e).1])).elim
          · next e => exact (noUpper _ (by rw [(List.cons.inj e).1])).elim
          · rfl
    · next e =>
      obtain ⟨rfl, rfl⟩ := List.cons.inj e
      exact skipExponent_append h left more
    · next e =>
      obtain ⟨rfl, rfl⟩ := List.cons.inj e
      exact skipExponent_append h left more
    · next noPoint noLower noUpper =>
      obtain rfl := Except.ok.inj h
      split
      · next e => exact (noPoint _ (by rw [(List.cons.inj e).1])).elim
      · next e => exact (noLower _ (by rw [(List.cons.inj e).1])).elim
      · next e => exact (noUpper _ (by rw [(List.cons.inj e).1])).elim
      · rfl

end Numeral

end TaskLedger.Json
