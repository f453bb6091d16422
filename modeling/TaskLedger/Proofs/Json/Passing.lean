/-
A value that nobody asks for is passed over if it is well formed
(`WellFormed.skipValue`), and nothing else is (`skipValue_spelt`).

The loop keeps the open brackets in a list, so what it does with a value does
not depend on the brackets around it: behind a value it stands where it stood
before, one phase on. Forwards this is an induction over the value, which
counts the rounds (`WellFormed.passes`); no value takes more rounds than it
has characters. Backwards it is one over the rounds, with the values behind a
value that has ended taken off together, up to their bracket (`loop_spelt`).

Lists and objects differ in what a value stands behind: nothing, or a name.
`enter` is the loop where either may start, so the rest is said once.
-/
import TaskLedger.Proofs.Json.Decimal

namespace TaskLedger.Json

-- =============================================================== scalars

/-- A word is found where it stands. -/
theorem word_of_append (w r : List Char) : word w (w ++ r) = .ok r := by
  induction w with
  | nil => rfl
  | cons a w ih =>
      rw [List.cons_append, word, if_pos rfl]
      exact ih

/-- And only there. -/
theorem append_of_word {w s r : List Char} (h : word w s = .ok r) :
    s = w ++ r := by
  induction w generalizing s with
  | nil => exact Except.ok.inj h
  | cons a w ih =>
      cases s with
      | nil => cases h
      | cons c s =>
          rw [word] at h
          split at h
          · next same => rw [same, ih h, List.cons_append]
          · cases h

/-- A number starts with a digit. -/
theorem Numeral.Unsigned.cons {t : List Char} (number : Numeral.Unsigned t) :
    ∃ c u, t = c :: u ∧ c.isDigit = true := by
  obtain ⟨whole, -, -⟩ := number
  next ds f e =>
  obtain ⟨c, cs, rfl⟩ := List.exists_cons_of_ne_nil whole.1.1
  exact ⟨c, _, rfl, whole.1.2 c List.mem_cons_self⟩

/-- A value starts with a character of its own, so there is no blank in front of
it. -/
theorem WellFormed.starts {v : List Char} (value : WellFormed v) :
    Starts v := by
  cases value with
  | null => exact ⟨_, _, rfl, by decide, by decide, by decide⟩
  | yes => exact ⟨_, _, rfl, by decide, by decide, by decide⟩
  | no => exact ⟨_, _, rfl, by decide, by decide, by decide⟩
  | positive number =>
      obtain ⟨c, u, rfl, digit⟩ := number.cons
      exact starts_of_isDigit digit
  | negative _ => exact ⟨_, _, rfl, by decide, by decide, by decide⟩
  | string _ => exact ⟨_, _, rfl, by decide, by decide, by decide⟩
  | list _ text =>
      obtain ⟨u, -, rfl⟩ := text
      exact ⟨_, _, rfl, by decide, by decide, by decide⟩
  | object _ _ _ text =>
      obtain ⟨u, -, rfl⟩ := text
      exact ⟨_, _, rfl, by decide, by decide, by decide⟩

/-- A digit is passed over as the start of a number. -/
theorem skipScalar_of_isDigit {c : Char} (digit : c.isDigit = true)
    (r : List Char) : skipScalar c r = Numeral.skip (c :: r) := by
  have other {d : Char} (plain : d.isDigit = false) : c ≠ d := by
    rintro rfl
    rw [plain] at digit
    cases digit
  unfold skipScalar
  rw [if_neg (other (by decide)), if_neg (other (by decide)),
    if_neg (other (by decide)), if_neg (other (by decide)), if_pos digit]

/-- What is passed over without a bracket is well formed. -/
theorem wellFormed_of_skipScalar {c : Char} {s r : List Char}
    (h : skipScalar c s = .ok r) : ∃ v, WellFormed v ∧ c :: s = v ++ r := by
  unfold skipScalar at h
  split at h
  · next same =>
    exact ⟨_, .null, by rw [same, append_of_word h]; rfl⟩
  split at h
  · next same =>
    exact ⟨_, .yes, by rw [same, append_of_word h]; rfl⟩
  split at h
  · next same =>
    exact ⟨_, .no, by rw [same, append_of_word h]; rfl⟩
  split at h
  · next same =>
    obtain ⟨t, number, rfl⟩ := Numeral.unsigned_of_skip h
    exact ⟨_, .negative number, by rw [same, List.cons_append]⟩
  split at h
  · obtain ⟨t, number, same⟩ := Numeral.unsigned_of_skip h
    exact ⟨_, .positive number, same⟩
  split at h
  · next same =>
    obtain ⟨t, string, rfl⟩ := Quoted.formed_of_skip h
    refine ⟨_, .string string, ?_⟩
    rw [same, List.cons_append, List.append_assoc, List.singleton_append]
  · cases h

-- ================================================================= names

/-- A colon is found behind blanks. -/
theorem colon_gap {g : List Char} (gap : Gap g) (s : List Char) :
    colon (g ++ ':' :: s) = .ok s := by
  unfold colon
  rw [gap.skipGap, skipGap_of_solid (by decide)]
  rfl

/-- A name is passed over up to the value behind its colon. -/
theorem skipName_text {m : Member} (formed : Quoted.Formed m.quoted)
    (spaced : m.Spaced) {g : List Char} (gap : Gap g) (r : List Char) :
    skipName (g ++ (m.text ++ r)) = .ok (m.after ++ (m.value ++ r)) := by
  unfold skipName Member.text
  rw [gap.skipGap, List.cons_append, skipGap_of_solid (by decide),
    List.append_assoc, List.cons_append, List.append_assoc, List.cons_append,
    List.append_assoc]
  change (Quoted.skip _ >>= colon) = _
  rw [formed.skip]
  exact colon_gap spaced.1 _

/-- And only there. -/
theorem colon_spelt {s r : List Char} (h : colon s = .ok r) :
    ∃ g, Gap g ∧ s = g ++ ':' :: r := by
  unfold colon at h
  split at h
  · cases h
  · next found =>
    obtain rfl := Except.ok.inj h
    exact gap_of_skipGap found
  · cases h

/-- What is passed over as a name is one: a string and its colon, with blanks
around. -/
theorem skipName_spelt {s r : List Char} (h : skipName s = .ok r) :
    ∃ g q before, Gap g ∧ Quoted.Formed q ∧ Gap before
      ∧ s = g ++ '\x22' :: (q ++ '\x22' :: (before ++ ':' :: r)) := by
  unfold skipName at h
  split at h
  · cases h
  · next found =>
    obtain ⟨u, name, rest⟩ := bind_ok h
    obtain ⟨g, gap, rfl⟩ := gap_of_skipGap found
    obtain ⟨q, formed, rfl⟩ := Quoted.formed_of_skip name
    obtain ⟨before, spaced, rfl⟩ := colon_spelt rest
    exact ⟨g, q, before, gap, formed, spaced, rfl⟩
  · cases h

-- ============================================================== brackets

/-- What stands between commas: a value, or a value with its name. -/
inductive Entry : Bracket → List Char → Prop
  | value {v : List Char} (value : WellFormed v) : Entry .list v
  | member {m : Member} (name : Quoted.Formed m.quoted) (spaced : m.Spaced)
      (value : WellFormed m.value) : Entry .object m.text

/-- Entries in brackets are a value. -/
theorem WellFormed.enclosed {b : Bracket} {es : List (List Char)}
    {t : List Char} (entries : ∀ e ∈ es, Entry b e) (text : Enclosed b es t) :
    WellFormed t := by
  cases b with
  | list =>
      refine .list (fun v mem => ?_) text
      obtain ⟨value⟩ := entries v mem
      exact value
  | object =>
      obtain ⟨ms, names, rfl⟩ : ∃ ms : List Member,
          (∀ m ∈ ms, Quoted.Formed m.quoted ∧ m.Spaced ∧ WellFormed m.value)
          ∧ es = ms.map Member.text := by
        clear text
        induction es with
        | nil => exact ⟨[], List.forall_mem_nil _, rfl⟩
        | cons e es ih =>
            obtain ⟨ms, names, rfl⟩ :=
              ih fun e mem => entries e (List.mem_cons_of_mem _ mem)
            have first := entries e List.mem_cons_self
            cases first with
            | @member m name spaced value =>
                exact ⟨m :: ms, List.forall_mem_cons.mpr
                  ⟨⟨name, spaced, value⟩, names⟩, rfl⟩
      exact .object (fun m mem => (names m mem).1)
        (fun m mem => (names m mem).2.1) (fun m mem => (names m mem).2.2) text

/-- The loop where an entry has to start. -/
def enter : Bracket → Nat → List Bracket → List Char →
    Except Fault (List Char)
  | .list, n, open_, s => skipLoop n .item (.list :: open_) s
  | .object, n, open_, s => do
    skipLoop n .item (.object :: open_) (← skipName s)

/-- An entry starts as neither a blank nor the bracket's end. -/
theorem Entry.starts {b : Bracket} {e : List Char} (entry : Entry b e) :
    ∃ c t, e = c :: t ∧ isGap c = false ∧ c ≠ b.closing := by
  cases entry with
  | value value =>
      obtain ⟨c, s, rfl, solid, bracket, -⟩ := value.starts
      exact ⟨c, s, rfl, solid, bracket⟩
  | member _ _ _ => exact ⟨_, _, rfl, by decide, by decide⟩

section

variable {b : Bracket} {g s : List Char} (n : Nat) (open_ : List Bracket)

/-- Behind an item a comma leads on to the next one. -/
theorem loop_comma (gap : Gap g) :
    skipLoop (n + 1) .after (b :: open_) (g ++ ',' :: s)
      = enter b n open_ s := by
  cases b <;>
    rw [skipLoop, gap.skipGap, skipGap_of_solid (by decide)] <;> rfl

/-- A closing bracket leads back to what was open before. -/
theorem loop_close (gap : Gap g) :
    skipLoop (n + 1) .after (b :: open_) (g ++ b.closing :: s)
      = skipLoop n .after open_ s := by
  cases b <;>
    rw [skipLoop, gap.skipGap, skipGap_of_solid (by decide)] <;> rfl

/-- A bracket that is closed at once holds nothing. -/
theorem loop_empty (gap : Gap g) {g' : List Char} (gap' : Gap g') :
    skipLoop (n + 1) .item open_ (g ++ b.opening :: (g' ++ b.closing :: s))
      = skipLoop n .after open_ s := by
  cases b <;>
    simp only [skipLoop, gap.skipGap, Bracket.opening, Bracket.closing,
      skipGap_of_solid (show isGap '[' = false by decide),
      skipGap_of_solid (show isGap '\x7b' = false by decide),
      skipGap_of_solid (show isGap ']' = false by decide),
      skipGap_of_solid (show isGap '\x7d' = false by decide), gap'.skipGap]

/-- A bracket that is not closed at once leads on to its first item. -/
theorem loop_open (gap : Gap g) {g' : List Char} (gap' : Gap g')
    {e : List Char} (entry : Entry b e) :
    skipLoop (n + 1) .item open_ (g ++ b.opening :: (g' ++ (e ++ s)))
      = enter b n open_ (e ++ s) := by
  obtain ⟨c, t, rfl, solid, other⟩ := entry.starts
  have start : skipGap (g' ++ (c :: t ++ s)) = c :: (t ++ s) := by
    rw [gap'.skipGap, List.cons_append, skipGap_of_solid solid]
  cases b with
  | list =>
      simp only [skipLoop, gap.skipGap, Bracket.opening, start,
        skipGap_of_solid (show isGap '[' = false by decide)]
      split
      · next same => exact absurd (List.cons.inj same).1 other
      · rfl
  | object =>
      simp only [skipLoop, gap.skipGap, Bracket.opening, start,
        skipGap_of_solid (show isGap '\x7b' = false by decide)]
      split
      · next same => exact absurd (List.cons.inj same).1 other
      · rfl

end

-- ============================================================== forwards

/-- A value takes the loop to where it has ended, in no more rounds than it
has characters. -/
def Passes (v : List Char) : Prop :=
  ∃ k, k ≤ v.length ∧ ∀ n open_ g r, Gap g → NumberEnds r →
    skipLoop (n + k) .item open_ (g ++ (v ++ r)) = skipLoop n .after open_ r

/-- An entry takes the loop to where its value has ended. -/
def Enters (b : Bracket) (e : List Char) : Prop :=
  ∃ k, k ≤ e.length ∧ ∀ n open_ g r, Gap g → NumberEnds r →
    enter b (n + k) open_ (g ++ (e ++ r)) = skipLoop n .after (b :: open_) r

/-- A number among the values ends where the next thing begins, or where
everything ends. -/
theorem Behind.ends {vs : List (List Char)} {t r : List Char}
    (behind : Behind vs t) (ends : NumberEnds r) : NumberEnds (t ++ r) := by
  cases behind with
  | last gap => exact ends.gap gap
  | more before after rest =>
      rw [List.append_assoc]
      exact (NumberEnds.comma _).gap before

/-- A closing bracket ends a number. -/
theorem NumberEnds.closing (b : Bracket) (r : List Char) :
    NumberEnds (b.closing :: r) := by
  cases b with
  | list => exact NumberEnds.bracket r
  | object => exact NumberEnds.brace r

/-- A value that is passed over without a bracket is passed over as an item. -/
theorem passes_of_scalar {c : Char} {t : List Char} (solid : isGap c = false)
    (list : c ≠ '[') (object : c ≠ '\x7b')
    (passed : ∀ r, NumberEnds r → skipScalar c (t ++ r) = .ok r) :
    Passes (c :: t) := by
  refine ⟨1, Nat.succ_le_succ (Nat.zero_le _), fun n open_ g r gap ends => ?_⟩
  rw [skipLoop, gap.skipGap, List.cons_append, skipGap_of_solid solid]
  split
  · next same => cases same
  · next same => exact absurd (List.cons.inj same).1 list
  · next same => exact absurd (List.cons.inj same).1 object
  · next same =>
    obtain ⟨rfl, rfl⟩ := List.cons.inj same
    rw [passed r ends]
    rfl

/-- In a list an item is a value. -/
theorem enters_value {v : List Char} (value : Passes v) : Enters .list v := by
  obtain ⟨k, bound, passed⟩ := value
  exact ⟨k, bound, fun n open_ => passed n (.list :: open_)⟩

/-- A member is entered at its value. -/
theorem enters_member {m : Member} (name : Quoted.Formed m.quoted)
    (spaced : m.Spaced) (value : Passes m.value) : Enters .object m.text := by
  obtain ⟨k, bound, passed⟩ := value
  refine ⟨k, ?_, fun n open_ g r gap ends => ?_⟩
  · unfold Member.text
    simp only [List.length_cons, List.length_append]
    omega
  · rw [← passed n (.object :: open_) m.after r spaced.2 ends]
    change (skipName _ >>= skipLoop (n + k) .item (.object :: open_)) = _
    rw [skipName_text name spaced gap]
    rfl

/-- What is behind an entry is passed over, with the bracket. -/
theorem Behind.passes {b : Bracket} {es : List (List Char)} {t : List Char}
    (behind : Behind es t) (enters : ∀ e ∈ es, Enters b e) :
    ∃ k, k ≤ t.length + 1 ∧ ∀ n open_ r,
      skipLoop (n + k) .after (b :: open_) (t ++ b.closing :: r)
        = skipLoop n .after open_ r := by
  induction behind with
  | @last g gap =>
      exact ⟨1, Nat.succ_le_succ (Nat.zero_le _),
        fun n open_ r => loop_close n open_ gap⟩
  | @more g g' e t es before after rest ih =>
      obtain ⟨k, bound, entered⟩ := enters e List.mem_cons_self
      obtain ⟨l, short, passed⟩ :=
        ih fun e mem => enters e (List.mem_cons_of_mem _ mem)
      refine ⟨l + k + 1, ?_, fun n open_ r => ?_⟩
      · simp only [List.length_append, List.length_cons]
        omega
      · have ends := rest.ends (NumberEnds.closing b r)
        rw [← passed n open_ r, ← entered (n + l) open_ g' _ after ends,
          ← loop_comma (n + l + k) open_ before]
        simp only [List.append_assoc, List.cons_append, Nat.add_assoc]

/-- Brackets are passed over with what they hold. -/
theorem Enclosed.passes {b : Bracket} {es : List (List Char)} {t : List Char}
    (text : Enclosed b es t) (entries : ∀ e ∈ es, Entry b e)
    (enters : ∀ e ∈ es, Enters b e) : Passes t := by
  obtain ⟨u, inside, rfl⟩ := text
  cases inside with
  | none gap' =>
      refine ⟨1, Nat.succ_le_succ (Nat.zero_le _),
        fun n open_ g r gap _ => ?_⟩
      rw [← loop_empty n open_ gap gap', List.cons_append, List.append_assoc,
        List.singleton_append]
  | @some g' e t es gap' rest =>
      obtain ⟨k, bound, entered⟩ := enters e List.mem_cons_self
      obtain ⟨l, short, passed⟩ :=
        rest.passes fun e mem => enters e (List.mem_cons_of_mem _ mem)
      refine ⟨l + k + 1, ?_, fun n open_ g r gap _ => ?_⟩
      · simp only [List.length_append, List.length_cons, List.length_nil]
        omega
      · have ends := rest.ends (NumberEnds.closing b r)
        rw [← passed n open_ r, ← entered (n + l) open_ [] _ Gap.nil ends,
          List.nil_append, ← loop_open (n + l + k) open_ gap gap'
            (entries e List.mem_cons_self)]
        simp only [List.append_assoc, List.cons_append, Nat.add_assoc,
          List.nil_append]

/-- Every value that is well formed is passed over, up to what ends it. The
induction is on its form: lists and objects pass over what they hold. -/
theorem WellFormed.passes {v : List Char} (value : WellFormed v) :
    Passes v := by
  induction value with
  | null =>
      exact passes_of_scalar (by decide) (by decide) (by decide)
        fun r _ => word_of_append _ r
  | yes =>
      exact passes_of_scalar (by decide) (by decide) (by decide)
        fun r _ => word_of_append _ r
  | no =>
      exact passes_of_scalar (by decide) (by decide) (by decide)
        fun r _ => word_of_append _ r
  | positive number =>
      obtain ⟨c, u, rfl, digit⟩ := number.cons
      refine passes_of_scalar (solid_of_isDigit digit).1 ?_ ?_ fun r ends => ?_
      · rintro rfl
        cases digit
      · rintro rfl
        cases digit
      · rw [skipScalar_of_isDigit digit, ← List.cons_append]
        exact number.skip ends
  | negative number =>
      exact passes_of_scalar (by decide) (by decide) (by decide)
        fun r ends => number.skip ends
  | string string =>
      refine passes_of_scalar (by decide) (by decide) (by decide) fun r _ => ?_
      rw [List.append_assoc]
      exact string.skip r
  | list values text ih =>
      exact text.passes (fun v mem => .value (values v mem))
        fun v mem => enters_value (ih v mem)
  | object names spaced values text ih =>
      refine text.passes ?_ ?_
      · exact List.forall_mem_map.mpr fun m mem =>
          .member (names m mem) (spaced m mem) (values m mem)
      · exact List.forall_mem_map.mpr fun m mem =>
          enters_member (names m mem) (spaced m mem) (ih m mem)

-- ============================================================= backwards

/-- What the loop finds where a value has to start: one without entries, or
a bracket with an entry behind it. -/
theorem loop_item_spelt {n : Nat} {open_ : List Bracket} {s r : List Char}
    (h : skipLoop (n + 1) .item open_ s = .ok r) :
    (∃ g v u, Gap g ∧ WellFormed v ∧ s = g ++ (v ++ u)
      ∧ skipLoop n .after open_ u = .ok r)
    ∨ ∃ b g g' u, Gap g ∧ Gap g' ∧ s = g ++ b.opening :: (g' ++ u)
      ∧ enter b n open_ u = .ok r := by
  -- brackets with nothing between them are a value
  have empty {g u v : List Char} {b : Bracket} (gap : Gap g)
      (found : skipGap u = b.closing :: v) :
      ∃ w, WellFormed w ∧ g ++ b.opening :: u = g ++ (w ++ v) := by
    obtain ⟨g', gap', rfl⟩ := gap_of_skipGap found
    refine ⟨_, .enclosed (b := b) (List.forall_mem_nil _)
      ⟨g', .none gap', rfl⟩, ?_⟩
    rw [List.cons_append, List.append_assoc, List.singleton_append]
  rw [skipLoop] at h
  split at h
  · cases h
  · next u found =>
    obtain ⟨g, gap, rfl⟩ := gap_of_skipGap found
    obtain ⟨g', gap', split, -⟩ := exists_gap u
    split at h
    · next v found =>
      obtain ⟨w, value, same⟩ := empty (b := .list) gap found
      exact .inl ⟨g, w, v, gap, value, same, h⟩
    · refine .inr ⟨.list, g, g', skipGap u, gap, gap', ?_, h⟩
      rw [← split]
      rfl
  · next u found =>
    obtain ⟨g, gap, rfl⟩ := gap_of_skipGap found
    obtain ⟨g', gap', split, -⟩ := exists_gap u
    split at h
    · next v found =>
      obtain ⟨w, value, same⟩ := empty (b := .object) gap found
      exact .inl ⟨g, w, v, gap, value, same, h⟩
    · refine .inr ⟨.object, g, g', skipGap u, gap, gap', ?_, h⟩
      rw [← split]
      rfl
  · next found =>
    obtain ⟨u, scalar, rest⟩ := bind_ok h
    obtain ⟨g, gap, rfl⟩ := gap_of_skipGap found
    obtain ⟨v, value, same⟩ := wellFormed_of_skipScalar scalar
    exact .inl ⟨g, v, u, gap, value, congrArg (g ++ ·) same, rest⟩

/-- What the loop finds behind a value in brackets. -/
theorem loop_after_spelt {n : Nat} {b : Bracket} {open_ : List Bracket}
    {s r : List Char} (h : skipLoop (n + 1) .after (b :: open_) s = .ok r) :
    (∃ g u, Gap g ∧ s = g ++ ',' :: u ∧ enter b n open_ u = .ok r)
    ∨ ∃ g u, Gap g ∧ s = g ++ b.closing :: u
      ∧ skipLoop n .after open_ u = .ok r := by
  cases b <;> rw [skipLoop] at h <;> split at h
  all_goals first
    | cases h
    | next found =>
      obtain ⟨g, gap, rfl⟩ := gap_of_skipGap found
      first
        | exact .inl ⟨g, _, gap, rfl, h⟩
        | exact .inr ⟨g, _, gap, rfl, h⟩

/-- Where the loop gets through, a value stands, and where it gets through
behind a value, other entries stand up to the bracket. -/
theorem loop_spelt (n : Nat) (open_ : List Bracket) (s r : List Char) :
    (skipLoop n .item open_ s = .ok r →
      ∃ g v u m, m < n ∧ Gap g ∧ WellFormed v ∧ s = g ++ (v ++ u)
        ∧ skipLoop m .after open_ u = .ok r)
    ∧ ∀ b, skipLoop n .after (b :: open_) s = .ok r →
      ∃ es t u m, m < n ∧ Behind es t ∧ (∀ e ∈ es, Entry b e)
        ∧ s = t ++ b.closing :: u ∧ skipLoop m .after open_ u = .ok r := by
  induction n using Nat.strongRecOn generalizing open_ s with
  | ind n ih =>
      cases n with
      | zero => exact ⟨fun h => (by cases h), fun b h => (by cases h)⟩
      | succ n =>
          -- an entry, and what stands behind its value
          have entry {b : Bracket} {u : List Char}
              (h : enter b n open_ u = .ok r) :
              ∃ g e v m, m < n ∧ Gap g ∧ Entry b e ∧ u = g ++ (e ++ v)
                ∧ skipLoop m .after (b :: open_) v = .ok r := by
            cases b with
            | list =>
                obtain ⟨g, v, w, m, less, gap, value, rfl, rest⟩ :=
                  (ih n n.lt_succ_self (.list :: open_) u).1 h
                exact ⟨g, v, w, m, less, gap, .value value, rfl, rest⟩
            | object =>
                obtain ⟨w, name, item⟩ := bind_ok h
                obtain ⟨g, q, before, gap, formed, spaced, rfl⟩ :=
                  skipName_spelt name
                obtain ⟨g', v, w, m, less, gap', value, rfl, rest⟩ :=
                  (ih n n.lt_succ_self (.object :: open_) _).1 item
                refine ⟨g, _, w, m, less, gap,
                  .member (m := ⟨q, before, g', v⟩) formed ⟨spaced, gap'⟩ value,
                  ?_, rest⟩
                unfold Member.text
                simp only [List.append_assoc, List.cons_append]
          refine ⟨fun h => ?_, fun b h => ?_⟩
          · rcases loop_item_spelt h with
              ⟨g, v, u, gap, value, rfl, rest⟩ | ⟨b, g, g', u, gap, gap', rfl, rest⟩
            · exact ⟨g, v, u, n, n.lt_succ_self, gap, value, rfl, rest⟩
            · obtain ⟨g₁, e, v, m, less, gap₁, first, rfl, next_⟩ := entry rest
              obtain ⟨es, t, w, l, small, behind, entries, rfl, last⟩ :=
                (ih m (Nat.lt_succ_of_lt less) open_ v).2 b next_
              refine ⟨g, _, w, l, by omega, gap,
                .enclosed (List.forall_mem_cons.mpr ⟨first, entries⟩)
                  ⟨_, .some (gap'.append gap₁) behind, rfl⟩, ?_, last⟩
              simp only [List.append_assoc, List.cons_append, List.nil_append]
          · rcases loop_after_spelt h with
              ⟨g, u, gap, rfl, rest⟩ | ⟨g, u, gap, rfl, rest⟩
            · obtain ⟨g', e, v, m, less, gap', first, rfl, next_⟩ := entry rest
              obtain ⟨es, t, w, l, small, behind, entries, rfl, last⟩ :=
                (ih m (Nat.lt_succ_of_lt less) open_ v).2 b next_
              refine ⟨e :: es, _, w, l, by omega, .more gap gap' behind,
                List.forall_mem_cons.mpr ⟨first, entries⟩, ?_, last⟩
              simp only [List.append_assoc, List.cons_append]
            · exact ⟨[], g, u, n, n.lt_succ_self, .last gap,
                List.forall_mem_nil _, rfl, rest⟩

/-- Passing over a value leaves what is behind a well-formed one. -/
theorem skipValue_spelt {s r : List Char} (h : skipValue s = .ok r) :
    ∃ g v, Gap g ∧ WellFormed v ∧ s = g ++ (v ++ r) := by
  obtain ⟨g, v, u, m, -, gap, value, rfl, rest⟩ := (loop_spelt _ _ _ _).1 h
  cases m with
  | zero => cases rest
  | succ m =>
      obtain rfl := Except.ok.inj rest
      exact ⟨g, v, gap, value, rfl⟩

/-- A well-formed value is passed over. -/
theorem WellFormed.skipValue {v : List Char} (value : WellFormed v)
    {g r : List Char} (gap : Gap g) (ends : NumberEnds r) :
    Json.skipValue (g ++ (v ++ r)) = .ok r := by
  obtain ⟨k, bound, passed⟩ := value.passes
  obtain ⟨n, rounds⟩ : ∃ n, 2 * (g ++ (v ++ r)).length + 2 = n + 1 + k := by
    refine ⟨2 * (g ++ (v ++ r)).length + 1 - k, ?_⟩
    simp only [List.length_append]
    omega
  unfold Json.skipValue
  rw [rounds, passed (n + 1) [] g r gap ends]
  rfl

end TaskLedger.Json
