/-
Lists, values that may be missing, and values with names are recognized by
how they are laid out.

A reader of entries goes from one to the next and stops at the bracket. Of
what is ahead it knows whether an entry was read already, so what is ahead is
either the inside of the brackets or what stands behind an entry (`Held`), and
an entry comes behind blanks or behind a comma (`Lead`).
-/
import TaskLedger.Proofs.Json.Passing

namespace TaskLedger.Json

-- ================================================================ ahead

/-- What is ahead of a reader up to the bracket. Before the first entry it is
all that the brackets hold. -/
def Held : Bool → List (List Char) → List Char → Prop
  | true, vs, t => Inside vs t
  | false, vs, t => Behind vs t

theorem Inside.held {vs : List (List Char)} {t : List Char}
    (inside : Inside vs t) : Held true vs t := inside

theorem Behind.held {vs : List (List Char)} {t : List Char}
    (behind : Behind vs t) : Held false vs t := behind

/-- As many items as there are, their text has at least that many characters: so
its length is fuel enough. -/
theorem Behind.length_le {vs : List (List Char)} {t : List Char}
    (behind : Behind vs t) : vs.length ≤ t.length := by
  induction behind with
  | last _ => exact Nat.zero_le _
  | more _ _ _ ih =>
      simp only [List.length_append, List.length_cons]
      omega

/-- The first item has no comma, so it may be one more. -/
theorem Inside.length_le {vs : List (List Char)} {t : List Char}
    (inside : Inside vs t) : vs.length ≤ t.length + 1 := by
  cases inside with
  | none _ => exact Nat.zero_le _
  | some _ rest =>
      have := rest.length_le
      simp only [List.length_append, List.length_cons]
      omega

/-- Where nothing is ahead but blanks, the bracket comes. -/
theorem Held.gap {first : Bool} {t : List Char} (held : Held first [] t) :
    Gap t := by
  cases first with
  | true => obtain ⟨gap⟩ := held; exact gap
  | false => obtain ⟨gap⟩ := held; exact gap

/-- A gap holds no items. -/
theorem Held.of_gap {g : List Char} (gap : Gap g) (first : Bool) :
    Held first [] g := by
  cases first with
  | true => exact .none gap
  | false => exact .last gap

/-- What stands before an entry: blanks, and a comma if it is not the
first. -/
def Lead : Bool → List Char → Prop
  | true, p => Gap p
  | false, p => ∃ g g', Gap g ∧ Gap g' ∧ p = g ++ ',' :: g'

theorem Lead.append {first : Bool} {p g : List Char} (lead : Lead first p)
    (gap : Gap g) : Lead first (p ++ g) := by
  cases first with
  | true => exact Gap.append lead gap
  | false =>
      obtain ⟨g₀, g₁, before, after, rfl⟩ := lead
      refine ⟨g₀, g₁ ++ g, before, after.append gap, ?_⟩
      rw [List.append_assoc, List.cons_append]

/-- Where an entry is ahead, it comes behind its lead. -/
theorem held_cons_iff {first : Bool} {v t : List Char}
    {vs : List (List Char)} :
    Held first (v :: vs) t
      ↔ ∃ p u, Lead first p ∧ Behind vs u ∧ t = p ++ (v ++ u) := by
  cases first with
  | true =>
      refine ⟨fun held => ?_, ?_⟩
      · cases held with
        | some gap rest => exact ⟨_, _, gap, rest, rfl⟩
      · rintro ⟨p, u, gap, rest, rfl⟩
        exact .some gap rest
  | false =>
      refine ⟨fun held => ?_, ?_⟩
      · cases held with
        | @more g g' v u vs before after rest =>
            refine ⟨g ++ ',' :: g', u, ⟨g, g', before, after, rfl⟩, rest, ?_⟩
            rw [List.append_assoc, List.cons_append]
      · rintro ⟨p, u, ⟨g, g', before, after, rfl⟩, rest, rfl⟩
        rw [List.append_assoc, List.cons_append]
        exact .more before after rest

namespace Shape

/-- A gap before an item does not matter. -/
theorem nextElement_skip {g : List Char} (gap : Gap g) (first : Bool)
    (s : List Char) : nextElement first (g ++ s) = nextElement first s := by
  unfold nextElement
  rw [gap.skipGap]

/-- A bracket behind a gap says that there is no further item. -/
theorem nextElement_end {g : List Char} (gap : Gap g) (first : Bool)
    (r : List Char) : nextElement first (g ++ ']' :: r) = .ok none := by
  rw [nextElement_skip gap]
  rfl

theorem endList_end {g : List Char} (gap : Gap g) (r : List Char) :
    endList (g ++ ']' :: r) = .ok r := by
  unfold endList
  rw [gap.skipGap, skipGap_of_solid (by decide)]
  rfl

/-- The next element is found behind its lead. -/
theorem nextElement_lead {first : Bool} {p v : List Char}
    (lead : Lead first p) (starts : Starts v) (r : List Char) :
    nextElement first (p ++ (v ++ r)) = .ok (some (v ++ r)) := by
  cases first with
  | true => rw [nextElement_skip lead, nextElement_first starts]
  | false =>
      obtain ⟨g, g', before, after, rfl⟩ := lead
      obtain ⟨c, s, rfl, solid, bracket, -⟩ := starts
      rw [List.append_assoc, nextElement_skip before]
      simp only [nextElement, List.cons_append,
        skipGap_of_solid (show isGap ',' = false by decide),
        if_neg Bool.false_ne_true, after.skipGap, skipGap_of_solid solid]
      split
      · next same => cases same
      · next same => exact absurd (List.cons.inj same).1 bracket
      · rfl

/-- A list that ended had a gap and the bracket. -/
theorem endList_spelt {s r : List Char} (h : endList s = .ok r) :
    ∃ g, Gap g ∧ s = g ++ ']' :: r := by
  unfold endList at h
  split at h
  · cases h
  · next found =>
    obtain rfl := Except.ok.inj h
    exact gap_of_skipGap found
  · cases h

/-- An element that was found stood behind its lead. -/
theorem nextElement_spelt {first : Bool} {s u : List Char}
    (h : nextElement first s = .ok (some u)) :
    ∃ p, Lead first p ∧ s = p ++ u := by
  obtain ⟨g, gap, split, -⟩ := exists_gap s
  unfold nextElement at h
  cases first with
  | true =>
      refine ⟨g, gap, ?_⟩
      split at h
      · cases h
      · cases h
      · next found =>
        rw [if_pos rfl] at h
        rw [split, found, Option.some.inj (Except.ok.inj h)]
      · rw [if_pos rfl] at h
        rw [split, Option.some.inj (Except.ok.inj h)]
  | false =>
      split at h
      · cases h
      · cases h
      · next r found =>
        obtain ⟨g', gap', split', -⟩ := exists_gap r
        rw [if_neg Bool.false_ne_true] at h
        refine ⟨g ++ ',' :: g', ⟨g, g', gap, gap', rfl⟩, ?_⟩
        rw [split, found, split', List.append_assoc, List.cons_append]
        split at h
        · cases h
        · cases h
        · rw [Option.some.inj (Except.ok.inj h)]
      · cases h

end Shape

-- ================================================================= lists

section

variable {α : Type} {read : Reader α} {T : Spelling α}

/-- The elements that are ahead are read up to the bracket. -/
theorem readItems_held (h : Recognizes read T) {vs : List (List Char)}
    {as : List α} (spells : List.Forall₂ T vs as) {first : Bool}
    {t : List Char} (held : Held first vs t) {n : Nat} (rounds : vs.length < n)
    (r : List Char) : readItems read n first (t ++ ']' :: r) = .ok (as, r) := by
  induction spells generalizing first t n with
  | nil =>
      obtain ⟨n, rfl⟩ := Nat.exists_eq_succ_of_ne_zero (Nat.ne_zero_of_lt rounds)
      rw [readItems, Shape.nextElement_end held.gap]
      dsimp only [bind, Except.bind]
      rw [Shape.endList_end held.gap]
  | @cons v a vs as here more ih =>
      obtain ⟨n, rfl⟩ := Nat.exists_eq_succ_of_ne_zero (Nat.ne_zero_of_lt rounds)
      obtain ⟨starts, reads⟩ := h.reads here
      obtain ⟨p, u, lead, behind, rfl⟩ := held_cons_iff.mp held
      have taken := reads [] (u ++ ']' :: r) Gap.nil
        (behind.ends (NumberEnds.bracket r))
      rw [readItems, List.append_assoc, List.append_assoc,
        Shape.nextElement_lead lead starts]
      dsimp only [bind, Except.bind]
      rw [List.nil_append] at taken
      rw [taken]
      dsimp only
      rw [ih behind.held (Nat.lt_of_succ_lt_succ rounds)]

/-- A list that was read consists of items, each spelt as its value. -/
theorem readItems_spelt (h : Recognizes read T) {n : Nat} {first : Bool}
    {s r : List Char} {as : List α}
    (taken : readItems read n first s = .ok (as, r)) :
    ∃ vs t, Held first vs t ∧ List.Forall₂ T vs as ∧ s = t ++ ']' :: r := by
  induction n generalizing first s as with
  | zero => cases taken
  | succ n ih =>
      rw [readItems] at taken
      obtain ⟨next, element, taken⟩ := bind_ok taken
      cases next with
      | none =>
          obtain ⟨t, closed, taken⟩ := bind_ok taken
          obtain ⟨rfl, rfl⟩ := Prod.mk.inj (Except.ok.inj taken)
          obtain ⟨g, gap, rfl⟩ := Shape.endList_spelt closed
          exact ⟨[], g, .of_gap gap first, .nil, rfl⟩
      | some w =>
          obtain ⟨⟨a, x⟩, value, taken⟩ := bind_ok taken
          obtain ⟨⟨as', y⟩, others, taken⟩ := bind_ok taken
          obtain ⟨rfl, rfl⟩ := Prod.mk.inj (Except.ok.inj taken)
          obtain ⟨g, v, gap, spells, rfl⟩ := h.spelt value
          obtain ⟨vs, u, behind, more, rfl⟩ := ih others
          obtain ⟨p, lead, rfl⟩ := Shape.nextElement_spelt element
          refine ⟨v :: vs, _, held_cons_iff.mpr
            ⟨p ++ g, u, lead.append gap, behind, rfl⟩, .cons spells more, ?_⟩
          simp only [List.append_assoc]

/-- A list is recognized by its elements. -/
theorem readList_recognizes (h : Recognizes read T) :
    Recognizes (readList read) (Spelling.list T) where
  reads := by
    rintro v as ⟨vs, ⟨u, inside, rfl⟩, spells⟩
    refine ⟨⟨_, _, rfl, by decide, by decide, by decide⟩, fun g r gap _ => ?_⟩
    have size := inside.length_le
    unfold readList
    rw [gap.skipGap, List.cons_append, List.append_assoc,
      List.singleton_append, skipGap_of_solid (by decide)]
    refine readItems_held h spells inside.held ?_ r
    simp only [List.length_append, List.length_cons]
    omega
  spelt := by
    intro s as r taken
    unfold readList at taken
    split at taken
    · next found =>
      obtain ⟨g, gap, rfl⟩ := gap_of_skipGap found
      obtain ⟨vs, t, inside, spells, rfl⟩ := readItems_spelt h taken
      refine ⟨g, _, gap, ⟨vs, ⟨t, inside, rfl⟩, spells⟩, ?_⟩
      rw [List.cons_append, List.append_assoc]
      rfl
    · cases taken

end

-- ============================================================= optional

section

variable {α : Type}

/-- A value or the word for none, where no value starts as that word. -/
theorem readOptional_recognizes {read : Reader α} {T : Spelling α}
    (h : Recognizes read T) (other : ∀ t a, ¬ T ('n' :: t) a) :
    Recognizes (readOptional read) (Spelling.optional T) where
  reads := by
    -- null, or what the value is spelled by
    rintro v a (⟨rfl, rfl⟩ | ⟨b, spells, rfl⟩)
    · refine ⟨⟨_, _, rfl, by decide, by decide, by decide⟩,
        fun g r gap _ => ?_⟩
      unfold readOptional
      rw [gap.skipGap]
      rfl
    · obtain ⟨starts, reads⟩ := h.reads spells
      refine ⟨starts, fun g r gap ends => ?_⟩
      obtain ⟨c, s, rfl, solid, -, -⟩ := starts
      have value := reads [] r Gap.nil ends
      rw [List.nil_append, List.cons_append] at value
      unfold readOptional
      rw [gap.skipGap, List.cons_append, skipGap_of_solid solid]
      split
      · next same =>
        obtain ⟨rfl, -⟩ := List.cons.inj same
        exact absurd spells (other s b)
      · rw [value]
        rfl
  spelt := by
    intro s a r taken
    unfold readOptional at taken
    -- a text that starts like null is null, for no value starts so
    split at taken
    · next found =>
      obtain ⟨u, null, rest⟩ := bind_ok taken
      obtain ⟨rfl, rfl⟩ := Prod.mk.inj (Except.ok.inj rest)
      obtain ⟨g, gap, rfl⟩ := gap_of_skipGap found
      refine ⟨g, nullWord, gap, .inl ⟨rfl, rfl⟩, ?_⟩
      rw [append_of_word null]
      rfl
    · obtain ⟨⟨b, u⟩, value, rest⟩ := bind_ok taken
      obtain ⟨rfl, rfl⟩ := Prod.mk.inj (Except.ok.inj rest)
      obtain ⟨g, gap, split, -⟩ := exists_gap s
      obtain ⟨g', v, gap', spells, same⟩ := h.spelt value
      refine ⟨g ++ g', v, gap.append gap', .inr ⟨b, spells, rfl⟩, ?_⟩
      rw [split, same, List.append_assoc]

-- ================================================================ names

/-- The texts of a member that holds nothing. -/
theorem object_null_iff {v : List Char} {name : String} :
    Spelling.object v [(name, nullWord)]
      ↔ ∃ g q before after g', Gap g ∧ Gap before ∧ Gap after ∧ Gap g'
        ∧ Quoted.Spells q name.toList
        ∧ v = '\x7b' :: (g ++ '\x22' :: (q ++ '\x22' :: (before
          ++ ':' :: (after ++ (nullWord ++ (g' ++ ['\x7d'])))))) := by
  constructor
  · rintro ⟨ms, holds, u, inside, rfl⟩
    cases holds with
    | @cons m _ ms _ here others =>
        cases others
        obtain ⟨spells, ⟨before, after⟩, value⟩ := here
        cases inside with
        | @some g _ t _ gap rest =>
            cases rest with
            | last gap' =>
                refine ⟨g, m.quoted, m.before, m.after, t, gap, before, after,
                  gap', spells, ?_⟩
                dsimp only at value
                rw [Member.text, value]
                simp only [List.append_assoc, List.cons_append]
                rfl
  · rintro ⟨g, q, before, after, g', gap, gap₁, gap₂, gap', spells, rfl⟩
    refine ⟨[⟨q, before, after, nullWord⟩],
      .cons ⟨spells, ⟨gap₁, gap₂⟩, rfl⟩ .nil, _,
      .some gap (.last gap'), ?_⟩
    unfold Member.text
    simp only [List.append_assoc, List.cons_append]
    rfl

/-- A named value is recognized by its name, where the names differ. -/
theorem readNamed_recognizes {all : List α} {name : α → String}
    (known : ∀ t a, named all name t = .ok a ↔ t = (name a).toList) :
    Recognizes (readNamed all name) (Spelling.named name) where
  reads := by
    rintro v a (⟨q, spells, rfl⟩ | object)
    · refine ⟨⟨_, _, rfl, by decide, by decide, by decide⟩,
        fun g r gap _ => ?_⟩
      unfold readNamed
      rw [gap.skipGap, List.cons_append, skipGap_of_solid (by decide),
        List.append_assoc]
      change (Quoted.read (q ++ '\x22' :: r) >>= _) = _
      rw [spells.read]
      dsimp only [bind, Except.bind]
      rw [(known _ a).mpr rfl]
    -- a name may be spelled as the only member of an object, with null for its
    -- value
    · obtain ⟨g₀, q, before, after, g', gap₀, gap₁, gap₂, gap', spells, rfl⟩ :=
        object_null_iff.mp object
      refine ⟨⟨_, _, rfl, by decide, by decide, by decide⟩,
        fun g r gap _ => ?_⟩
      unfold readNamed
      simp only [List.append_assoc, List.cons_append, gap.skipGap,
        skipGap_of_solid (show isGap '\x7b' = false by decide), gap₀.skipGap,
        skipGap_of_solid (show isGap '\x22' = false by decide), spells.read,
        bind, Except.bind, (known _ a).mpr rfl, colon_gap gap₁, gap₂.skipGap]
      have null : ∀ s, word ['u', 'l', 'l'] ('u' :: 'l' :: 'l' :: s) = .ok s :=
        word_of_append ['u', 'l', 'l']
      simp only [nullWord, List.cons_append, List.nil_append, null,
        skipGap_of_solid (show isGap 'n' = false by decide), gap'.skipGap,
        skipGap_of_solid (show isGap '\x7d' = false by decide)]
  spelt := by
    intro s a r taken
    unfold readNamed at taken
    split at taken
    · cases taken
    · next found =>
      obtain ⟨⟨t, u⟩, read, rest⟩ := bind_ok taken
      obtain ⟨b, name_, rest⟩ := bind_ok rest
      obtain ⟨rfl, rfl⟩ := Prod.mk.inj (Except.ok.inj rest)
      obtain ⟨g, gap, rfl⟩ := gap_of_skipGap found
      obtain ⟨q, spells, rfl⟩ := Quoted.spells_of_read read
      obtain rfl := (known t b).mp name_
      refine ⟨g, _, gap, .inl ⟨q, spells, rfl⟩, ?_⟩
      rw [List.cons_append, List.append_assoc, List.singleton_append]
    -- and is read so
    · next found =>
      obtain ⟨g, gap, rfl⟩ := gap_of_skipGap found
      split at taken
      · cases taken
      · next found =>
        obtain ⟨⟨t, u⟩, read, behind⟩ := bind_ok taken
        obtain ⟨b, name_, member⟩ := bind_ok behind
        obtain ⟨w, colon, value⟩ := bind_ok member
        obtain ⟨g₀, gap₀, rfl⟩ := gap_of_skipGap found
        obtain ⟨q, spells, rfl⟩ := Quoted.spells_of_read read
        obtain ⟨before, gap₁, rfl⟩ := colon_spelt colon
        obtain rfl := (known t b).mp name_
        split at value
        · next found =>
          obtain ⟨x, null, rest⟩ := bind_ok value
          obtain ⟨after, gap₂, rfl⟩ := gap_of_skipGap found
          obtain rfl := append_of_word null
          split at rest
          · cases rest
          · next found =>
            obtain ⟨rfl, rfl⟩ := Prod.mk.inj (Except.ok.inj rest)
            obtain ⟨g', gap', rfl⟩ := gap_of_skipGap found
            refine ⟨g, _, gap, .inr (object_null_iff.mpr ⟨g₀, q, before, after,
              g', gap₀, gap₁, gap₂, gap', spells, rfl⟩), ?_⟩
            unfold nullWord
            simp only [List.append_assoc, List.cons_append, List.nil_append]
          · cases rest
        · cases value
      · cases taken
    · cases taken

end

end TaskLedger.Json
