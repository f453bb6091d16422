/-
A record of fields is recognized by its two layouts (`Shape.read_recognizes`).

It is taken apart without knowing what its fields spell. A field takes a
draft to another by a text that its reader reads (`Means`); members do so in
any order and with others among them (`Takes`), the entries of a list in the
order of the fields (`TakesInOrder`).

What the draft holds in the end is found slot by slot (`Slot`). A slot is
filled by the one member of its name and by nothing else, whatever order the
members come in, so a draft is known once each of its slots is.
-/
import TaskLedger.Proofs.Json.Layout

namespace TaskLedger.Json

/-- A field has one value. -/
theorem Fielded.unique {names : List String} {es : List (String × List Char)}
    (fielded : Fielded names es) {name : String} (mem : name ∈ names)
    {v w : List Char} (one : (name, v) ∈ es) (other : (name, w) ∈ es) :
    v = w := by
  have once := fielded.once
  clear fielded
  induction es with
  | nil => cases one
  | cons e es ih =>
      obtain ⟨first, later⟩ := List.pairwise_cons.mp once
      rcases List.mem_cons.mp one with rfl | front
      · rcases List.mem_cons.mp other with same | back
        · exact (Prod.mk.inj same).2.symm
        · exact absurd mem (first _ back rfl)
      · rcases List.mem_cons.mp other with rfl | back
        · exact absurd mem (first _ front rfl)
        · exact ih front back later

-- =============================================================== members

namespace Shape

variable {σ α : Type} {shape : Shape σ} {start : σ}
  {finish : σ → Except Mismatch α}

/-- Each field is read by a reader that recognizes what it reads. -/
def Steadfast (shape : Shape σ) : Prop :=
  ∀ f ∈ shape.fields, ∀ st, Recognizes (f.read st) (Means (f.read st))

theorem mem_of_field? {name : List Char} {f : Field σ}
    (known : shape.field? name = some f) :
    f ∈ shape.fields ∧ f.name = String.ofList name := by
  unfold field? at known
  refine ⟨List.mem_of_find?_eq_some known, ?_⟩
  simpa using List.find?_some known

/-- Members that take a draft to another: fields that are not filled yet, and
values that nobody asks for. -/
inductive Takes (shape : Shape σ) : σ → List (String × List Char) → σ → Prop
  | done (st : σ) : Takes shape st [] st
  | field {st next last : σ} {f : Field σ} {name : String} {v : List Char}
      {es : List (String × List Char)}
      (known : shape.field? name.toList = some f)
      (open_ : f.present st = false) (reads : Means (f.read st) v next)
      (more : Takes shape next es last) : Takes shape st ((name, v) :: es) last
  | other {st last : σ} {name : String} {v : List Char}
      {es : List (String × List Char)}
      (unknown : shape.field? name.toList = none) (value : WellFormed v)
      (more : Takes shape st es last) : Takes shape st ((name, v) :: es) last

/-- Entries of a list that take a draft to another, field by field. Where the
list has ended, a field may be left out that allows it. -/
inductive TakesInOrder : List (Field σ) → σ → List (List Char) → σ → Prop
  | done (st : σ) : TakesInOrder [] st [] st
  | field {f : Field σ} {fs : List (Field σ)} {st next last : σ}
      {v : List Char} {vs : List (List Char)} (reads : Means (f.read st) v next)
      (more : TakesInOrder fs next vs last) :
      TakesInOrder (f :: fs) st (v :: vs) last
  | left {f : Field σ} {fs : List (Field σ)} {st last : σ}
      (trailing : f.trailing = true) (more : TakesInOrder fs st [] last) :
      TakesInOrder (f :: fs) st [] last

section

variable {m : Member} {name : String} {v r : List Char} {st next : σ}

/-- A member is read into the field of its name, if that is not filled. -/
theorem readMember_field (holds : m.Holds (name, v)) {f : Field σ}
    (known : shape.field? name.toList = some f) (open_ : f.present st = false)
    (reads : Means (f.read st) v next) (ends : NumberEnds r) :
    shape.readMember st
        (m.quoted ++ '\x22' :: (m.before ++ ':' :: (m.after ++ (m.value ++ r))))
      = .ok (next, r) := by
  obtain ⟨spells, ⟨before, after⟩, rfl⟩ := holds
  unfold readMember
  rw [spells.read]
  dsimp only [bind, Except.bind]
  rw [known]
  dsimp only
  rw [open_, if_neg Bool.false_ne_true, colon_gap before]
  exact reads.2 m.after r after ends

/-- A member of another name is passed over. -/
theorem readMember_other (holds : m.Holds (name, v))
    (unknown : shape.field? name.toList = none) (value : WellFormed v)
    (st : σ) (ends : NumberEnds r) :
    shape.readMember st
        (m.quoted ++ '\x22' :: (m.before ++ ':' :: (m.after ++ (m.value ++ r))))
      = .ok (st, r) := by
  obtain ⟨spells, ⟨before, after⟩, rfl⟩ := holds
  unfold readMember
  rw [spells.read]
  dsimp only [bind, Except.bind]
  rw [unknown]
  dsimp only
  rw [colon_gap before]
  dsimp only
  rw [value.skipValue after ends]

end

theorem readMember_spelt (steadfast : shape.Steadfast) {st next : σ}
    {s r : List Char} (h : shape.readMember st s = .ok (next, r)) :
    ∃ m e, Member.Holds m e
      ∧ s = m.quoted ++ '\x22' :: (m.before ++ ':' :: (m.after ++ (m.value ++ r)))
      ∧ ∀ {es last}, Takes shape next es last → Takes shape st (e :: es) last := by
  unfold readMember at h
  obtain ⟨⟨name, u⟩, read, rest⟩ := bind_ok h
  obtain ⟨q, spells, rfl⟩ := Quoted.spells_of_read read
  have named : Quoted.Spells q (String.ofList name).toList := by
    rwa [String.toList_ofList]
  dsimp only at rest
  split at rest
  · next f known =>
    split at rest
    · cases rest
    next open_ =>
    obtain ⟨w, colon, value⟩ := bind_ok rest
    obtain ⟨before, gap, rfl⟩ := colon_spelt colon
    obtain ⟨after, v, gap', means, rfl⟩ :=
      (steadfast f (mem_of_field? known).1 st).spelt value
    refine ⟨⟨q, before, after, v⟩, (String.ofList name, v),
      ⟨named, ⟨gap, gap'⟩, rfl⟩, rfl, fun more => ?_⟩
    refine .field ?_ (by simpa using open_) means more
    rwa [String.toList_ofList]
  · next unknown =>
    obtain ⟨w, colon, value⟩ := bind_ok rest
    obtain ⟨x, passed, value⟩ := bind_ok value
    obtain ⟨rfl, rfl⟩ := Prod.mk.inj (Except.ok.inj value)
    obtain ⟨before, gap, rfl⟩ := colon_spelt colon
    obtain ⟨after, v, gap', formed, rfl⟩ := skipValue_spelt passed
    refine ⟨⟨q, before, after, v⟩, (String.ofList name, v),
      ⟨named, ⟨gap, gap'⟩, rfl⟩, rfl, fun more => ?_⟩
    refine .other ?_ formed more
    rwa [String.toList_ofList]

theorem readMembers_end {g : List Char} (gap : Gap g) (n : Nat) (first : Bool)
    (st : σ) (r : List Char) :
    shape.readMembers (n + 1) first st (g ++ '\x7d' :: r) = .ok (st, r) := by
  rw [readMembers, gap.skipGap, skipGap_of_solid (by decide)]
  rfl

/-- The next member is found behind its lead. -/
theorem readMembers_lead {first : Bool} {p : List Char} (lead : Lead first p)
    (n : Nat) (st : σ) (s : List Char) :
    shape.readMembers (n + 1) first st (p ++ '\x22' :: s)
      = shape.readMember st s >>= fun x => shape.readMembers n false x.1 x.2 := by
  cases first with
  | true =>
      rw [readMembers, Gap.skipGap lead, skipGap_of_solid (by decide)]
      rfl
  | false =>
      obtain ⟨g, g', before, after, rfl⟩ := lead
      rw [readMembers, List.append_assoc, before.skipGap, List.cons_append,
        skipGap_of_solid (by decide)]
      simp only [if_neg Bool.false_ne_true, after.skipGap,
        skipGap_of_solid (show isGap '\x22' = false by decide)]

/-- A member that is read takes the reader to what stands behind it. -/
theorem readMembers_next {first : Bool} {p r : List Char}
    (lead : Lead first p) {m : Member} {st next : σ}
    (taken : shape.readMember st
        (m.quoted ++ '\x22' :: (m.before ++ ':' :: (m.after ++ (m.value ++ r))))
      = .ok (next, r)) (n : Nat) :
    shape.readMembers (n + 1) first st (p ++ (m.text ++ r))
      = shape.readMembers n false next r := by
  unfold Member.text
  simp only [List.append_assoc, List.cons_append]
  rw [readMembers_lead lead, taken]
  rfl

/-- What the reader of members finds: the brace, or a member behind its
lead. -/
theorem readMembers_spelt_step {n : Nat} {first : Bool} {st last : σ}
    {s r : List Char}
    (h : shape.readMembers (n + 1) first st s = .ok (last, r)) :
    (∃ g, Gap g ∧ s = g ++ '\x7d' :: r ∧ st = last)
    ∨ ∃ p u, Lead first p ∧ s = p ++ '\x22' :: u
      ∧ (shape.readMember st u >>= fun x => shape.readMembers n false x.1 x.2)
        = .ok (last, r) := by
  rw [readMembers] at h
  split at h
  · cases h
  · next found =>
    obtain ⟨rfl, rfl⟩ := Prod.mk.inj (Except.ok.inj h)
    obtain ⟨g, gap, same⟩ := gap_of_skipGap found
    exact .inl ⟨g, gap, same, rfl⟩
  · next found =>
    obtain ⟨g, gap, same⟩ := gap_of_skipGap found
    split at h
    · cases h
    next later =>
    rw [Bool.not_eq_true] at later
    subst later
    split at h
    · cases h
    · next u found =>
      obtain ⟨g', gap', rfl⟩ := gap_of_skipGap found
      refine .inr ⟨g ++ ',' :: g', u, ⟨g, g', gap, gap', rfl⟩, ?_, h⟩
      rw [same, List.append_assoc, List.cons_append]
    · cases h
  · next u found =>
    obtain ⟨g, gap, same⟩ := gap_of_skipGap found
    split at h
    · next first_ =>
      subst first_
      exact .inr ⟨g, u, gap, same, h⟩
    · cases h
  · cases h

/-- Members that take a draft to another are read up to the brace. -/
theorem readMembers_held {es : List (String × List Char)} {st last : σ}
    (takes : Takes shape st es last) {ms : List Member}
    (holds : List.Forall₂ Member.Holds ms es) {first : Bool} {t : List Char}
    (held : Held first (ms.map Member.text) t) {n : Nat}
    (rounds : ms.length < n) (r : List Char) :
    shape.readMembers n first st (t ++ '\x7d' :: r) = .ok (last, r) := by
  induction takes generalizing ms first t n with
  | done st =>
      obtain ⟨n, rfl⟩ := Nat.exists_eq_succ_of_ne_zero (Nat.ne_zero_of_lt rounds)
      cases holds
      exact readMembers_end held.gap n first st r
  | @field st next last f name v es known open_ reads more ih =>
      obtain ⟨n, rfl⟩ := Nat.exists_eq_succ_of_ne_zero (Nat.ne_zero_of_lt rounds)
      cases holds with
      | @cons m _ ms _ here others =>
          obtain ⟨p, u, lead, behind, rfl⟩ := held_cons_iff.mp held
          have taken := readMember_field here known open_ reads
            (behind.ends (NumberEnds.brace r))
          rw [List.append_assoc, List.append_assoc, readMembers_next lead taken]
          exact ih others behind.held (Nat.lt_of_succ_lt_succ rounds)
  | @other st last name v es unknown value more ih =>
      obtain ⟨n, rfl⟩ := Nat.exists_eq_succ_of_ne_zero (Nat.ne_zero_of_lt rounds)
      cases holds with
      | @cons m _ ms _ here others =>
          obtain ⟨p, u, lead, behind, rfl⟩ := held_cons_iff.mp held
          have taken := readMember_other here unknown value st
            (behind.ends (NumberEnds.brace r))
          rw [List.append_assoc, List.append_assoc, readMembers_next lead taken]
          exact ih others behind.held (Nat.lt_of_succ_lt_succ rounds)

theorem readMembers_spelt (steadfast : shape.Steadfast) {n : Nat}
    {first : Bool} {st last : σ} {s r : List Char}
    (h : shape.readMembers n first st s = .ok (last, r)) :
    ∃ ms es t, List.Forall₂ Member.Holds ms es
      ∧ Held first (ms.map Member.text) t ∧ Takes shape st es last
      ∧ s = t ++ '\x7d' :: r := by
  induction n generalizing first st s with
  | zero => cases h
  | succ n ih =>
      rcases readMembers_spelt_step h with
        ⟨g, gap, rfl, rfl⟩ | ⟨p, u, lead, rfl, step⟩
      · exact ⟨[], [], g, .nil, .of_gap gap first, .done st, rfl⟩
      · obtain ⟨⟨next, v⟩, member, rest⟩ := bind_ok step
        obtain ⟨m, e, here, rfl, takes⟩ := readMember_spelt steadfast member
        obtain ⟨ms, es, t, others, behind, more, rfl⟩ := ih rest
        refine ⟨m :: ms, e :: es, _, .cons here others,
          held_cons_iff.mpr ⟨p, t, lead, behind, rfl⟩, takes more, ?_⟩
        unfold Member.text
        simp only [List.append_assoc, List.cons_append]

-- =============================================================== elements

theorem TakesInOrder.starts {fs : List (Field σ)} {st last : σ} {v : List Char}
    {vs : List (List Char)} (takes : TakesInOrder fs st (v :: vs) last) :
    Starts v := by
  cases takes with
  | field reads _ => exact reads.1

/-- Entries that take a draft to another are read up to the bracket. -/
theorem readElements_held {fs : List (Field σ)} {st last : σ}
    {vs : List (List Char)} (takes : TakesInOrder fs st vs last)
    {first : Bool} {t : List Char} (held : Held first vs t) (i : Nat)
    (r : List Char) :
    shape.readElements fs i first st (t ++ ']' :: r) = .ok (last, r) := by
  induction takes generalizing first t i with
  | done st =>
      rw [readElements, endList_end held.gap]
      rfl
  | @field f fs st next last v vs reads more ih =>
      obtain ⟨p, u, lead, behind, rfl⟩ := held_cons_iff.mp held
      have taken := reads.2 [] (u ++ ']' :: r) Gap.nil
        (behind.ends (NumberEnds.bracket r))
      rw [List.nil_append] at taken
      rw [readElements, List.append_assoc, List.append_assoc,
        nextElement_lead lead reads.1]
      dsimp only [bind, Except.bind]
      rw [taken]
      exact ih behind.held (i + 1)
  | @left f fs st last trailing more ih =>
      rw [readElements, nextElement_end held.gap]
      dsimp only [bind, Except.bind]
      rw [if_pos trailing]
      exact ih held (i + 1)

theorem readElements_spelt {fs : List (Field σ)}
    (steadfast : ∀ f ∈ fs, ∀ st, Recognizes (f.read st) (Means (f.read st)))
    {i : Nat} {first : Bool} {st last : σ} {s r : List Char}
    (h : shape.readElements fs i first st s = .ok (last, r)) :
    ∃ vs t, TakesInOrder fs st vs last ∧ Held first vs t
      ∧ s = t ++ ']' :: r := by
  induction fs generalizing i first st s with
  | nil =>
      rw [readElements] at h
      obtain ⟨u, closed, h⟩ := bind_ok h
      obtain ⟨rfl, rfl⟩ := Prod.mk.inj (Except.ok.inj h)
      obtain ⟨g, gap, rfl⟩ := endList_spelt closed
      exact ⟨[], g, .done st, .of_gap gap first, rfl⟩
  | cons f fs ih =>
      have others := fun f mem => steadfast f (List.mem_cons_of_mem _ mem)
      rw [readElements] at h
      obtain ⟨next, element, h⟩ := bind_ok h
      cases next with
      | none =>
          dsimp only at h
          split at h
          · next trailing =>
            obtain ⟨vs, t, takes, held, rfl⟩ := ih others h
            cases vs with
            | nil => exact ⟨[], t, .left trailing takes, held, rfl⟩
            | cons v vs =>
                -- an element that is read would have been found
                obtain ⟨p, u, lead, -, rfl⟩ := held_cons_iff.mp held
                rw [List.append_assoc, List.append_assoc,
                  nextElement_lead lead takes.starts] at element
                cases element
          · cases h
      | some u =>
          obtain ⟨⟨next, w⟩, value, rest⟩ := bind_ok h
          obtain ⟨p, lead, rfl⟩ := nextElement_spelt element
          obtain ⟨g, v, gap, means, rfl⟩ :=
            (steadfast f List.mem_cons_self st).spelt value
          obtain ⟨vs, t, takes, behind, rfl⟩ := ih others rest
          refine ⟨v :: vs, _, .field means takes, held_cons_iff.mpr
            ⟨p ++ g, t, lead.append gap, behind, rfl⟩, ?_⟩
          simp only [List.append_assoc]

-- =============================================================== records

/-- A record is recognized as an object or a list, by what its members or its
entries make of a draft. -/
theorem read_recognizes (steadfast : shape.Steadfast)
    {object : List (String × List Char) → α → Prop}
    {list : List (List Char) → α → Prop}
    (made_object : ∀ {es a}, (∃ last, finish last = .ok a
      ∧ Takes shape start es last) ↔ object es a)
    (made_list : ∀ {vs a}, (∃ last, finish last = .ok a
      ∧ TakesInOrder shape.fields start vs last) ↔ list vs a) :
    Recognizes (shape.read start finish) fun v a =>
      (∃ es, Spelling.object v es ∧ object es a)
        ∨ ∃ vs, Enclosed .list vs v ∧ list vs a where
  reads := by
    rintro v a (⟨es, ⟨ms, holds, u, inside, rfl⟩, value⟩
      | ⟨vs, ⟨u, inside, rfl⟩, value⟩)
    -- an object is read member by member, a list element by element
    · obtain ⟨last, made, takes⟩ := made_object.mpr value
      refine ⟨⟨_, _, rfl, by decide, by decide, by decide⟩,
        fun g r gap _ => ?_⟩
      have size := inside.length_le
      rw [List.length_map] at size
      unfold Shape.read
      rw [gap.skipGap, List.cons_append, List.append_assoc,
        List.singleton_append, skipGap_of_solid (by decide)]
      change (shape.readMembers _ true start _ >>= _) = _
      dsimp only [Bracket.closing]
      have members := readMembers_held takes holds inside.held
        (n := (u ++ '\x7d' :: r).length + 1) (by
          simp only [List.length_append, List.length_cons]
          omega) r
      rw [members]
      dsimp only [bind, Except.bind]
      rw [made]
    · obtain ⟨last, made, takes⟩ := made_list.mpr value
      refine ⟨⟨_, _, rfl, by decide, by decide, by decide⟩,
        fun g r gap _ => ?_⟩
      unfold Shape.read
      rw [gap.skipGap, List.cons_append, List.append_assoc,
        List.singleton_append, skipGap_of_solid (by decide)]
      change (shape.readElements _ 0 true start _ >>= _) = _
      dsimp only [Bracket.closing]
      rw [readElements_held takes inside.held]
      dsimp only [bind, Except.bind]
      rw [made]
  spelt := by
    intro s a r h
    -- and what was read is one or the other
    obtain ⟨last, made, ⟨u, found, taken⟩ | ⟨u, found, taken⟩⟩ := read_ok h
    · obtain ⟨g, gap, rfl⟩ := gap_of_skipGap found
      obtain ⟨vs, t, takes, inside, rfl⟩ := readElements_spelt steadfast taken
      refine ⟨g, _, gap, .inr ⟨vs, ⟨t, inside, rfl⟩,
        made_list.mp ⟨last, made, takes⟩⟩, ?_⟩
      rw [List.cons_append, List.append_assoc]
      rfl
    · obtain ⟨g, gap, rfl⟩ := gap_of_skipGap found
      obtain ⟨ms, es, t, holds, inside, takes, rfl⟩ :=
        readMembers_spelt steadfast taken
      refine ⟨g, _, gap, .inl ⟨es, ⟨ms, holds, t, inside, rfl⟩,
        made_object.mp ⟨last, made, takes⟩⟩, ?_⟩
      rw [List.cons_append, List.append_assoc]
      rfl

-- ================================================================= slots

/-- A field and the slot of a draft that its value is kept in: filled by what
the field spells, and by no other field. -/
structure Slot (shape : Shape σ) (f : Field σ) {β : Type} (slot : σ → Option β)
    (T : Spelling β) : Prop where
  known : shape.field? f.name.toList = some f
  present : ∀ st, f.present st = (slot st).isSome
  fills : ∀ {st v next}, Means (f.read st) v next →
    ∃ b, T v b ∧ slot next = some b
  takes : ∀ st {v b}, T v b → ∃ next, Means (f.read st) v next
  unique : ∀ {v b b'}, T v b → T v b' → b = b'
  keeps : ∀ {g}, g ∈ shape.fields → g.name ≠ f.name →
    ∀ {st v next}, Means (g.read st) v next → slot next = slot st

/-- Every field has a slot. -/
def Slotted (shape : Shape σ) : Prop :=
  ∀ f ∈ shape.fields, ∃ (β : Type) (slot : σ → Option β) (T : Spelling β),
    Slot shape f slot T

section

variable {β : Type} {f : Field σ} {slot : σ → Option β} {T : Spelling β}
  {es : List (String × List Char)} {st next last : σ} {v : List Char}

/-- A field of another name leaves the slot as it is. -/
theorem Slot.keeps_of_name (h : Slot shape f slot T) {name : String}
    {g : Field σ} (known : shape.field? name.toList = some g)
    (other : name ≠ f.name) (reads : Means (g.read st) v next) :
    slot next = slot st := by
  obtain ⟨mem, same⟩ := mem_of_field? known
  rw [String.ofList_toList] at same
  exact h.keeps mem (same ▸ other) reads

/-- Members fill a slot by one of its name, or leave it as it is. -/
theorem Takes.slot_cases (takes : Takes shape st es last)
    (h : Slot shape f slot T) :
    ((∀ v, (f.name, v) ∉ es) ∧ slot last = slot st)
      ∨ ∃ v b, (f.name, v) ∈ es ∧ T v b ∧ slot last = some b := by
  induction takes with
  | done st => exact .inl ⟨fun v => List.not_mem_nil, rfl⟩
  | @field st next last g name v es known open_ reads more ih =>
      rcases ih with ⟨absent, same⟩ | ⟨w, b, mem, spells, filled⟩
      · by_cases here : name = f.name
        · subst here
          obtain rfl := Option.some.inj (h.known.symm.trans known)
          obtain ⟨b, spells, filled⟩ := h.fills reads
          exact .inr ⟨v, b, List.mem_cons_self, spells, same.trans filled⟩
        · refine .inl ⟨fun w mem => ?_,
            same.trans (h.keeps_of_name known here reads)⟩
          rcases List.mem_cons.mp mem with first | mem
          · exact here (Prod.mk.inj first).1.symm
          · exact absent w mem
      · exact .inr ⟨w, b, List.mem_cons_of_mem _ mem, spells, filled⟩
  | @other st last name v es unknown value more ih =>
      rcases ih with ⟨absent, same⟩ | ⟨w, b, mem, spells, filled⟩
      · refine .inl ⟨fun w mem => ?_, same⟩
        rcases List.mem_cons.mp mem with first | mem
        · rw [← (Prod.mk.inj first).1, h.known] at unknown
          cases unknown
        · exact absent w mem
      · exact .inr ⟨w, b, List.mem_cons_of_mem _ mem, spells, filled⟩

/-- A slot that is filled already takes no member. -/
theorem Takes.absent (takes : Takes shape st es last) (h : Slot shape f slot T)
    (filled : (slot st).isSome) : ∀ v, (f.name, v) ∉ es := by
  induction takes with
  | done st => exact fun v => List.not_mem_nil
  | @field st next last g name v es known open_ reads more ih =>
      have other : name ≠ f.name := by
        rintro rfl
        obtain rfl := Option.some.inj (h.known.symm.trans known)
        rw [h.present, filled] at open_
        cases open_
      intro w mem
      rcases List.mem_cons.mp mem with first | mem
      · exact other (Prod.mk.inj first).1.symm
      · refine ih ?_ w mem
        rwa [h.keeps_of_name known other reads]
  | @other st last name v es unknown value more ih =>
      intro w mem
      rcases List.mem_cons.mp mem with first | mem
      · rw [← (Prod.mk.inj first).1, h.known] at unknown
        cases unknown
      · exact ih filled w mem

end

-- ================================================================ drafts

section

variable {es : List (String × List Char)} {st last : σ}

/-- The names of the fields. -/
def names (shape : Shape σ) : List String := shape.fields.map Field.name

theorem field?_isSome {name : String} (mem : name ∈ shape.names) :
    (shape.field? name.toList).isSome := by
  obtain ⟨f, field, rfl⟩ := List.mem_map.mp mem
  refine List.find?_isSome.mpr ⟨f, field, ?_⟩
  rw [String.ofList_toList]
  exact beq_self_eq_true _

theorem field?_eq_none {name : String}
    (unknown : shape.field? name.toList = none) : name ∉ shape.names := by
  intro mem
  have known := field?_isSome mem
  rw [unknown] at known
  cases known

/-- What takes a draft to another has each field once. -/
theorem Takes.fielded (takes : Takes shape st es last)
    (slotted : shape.Slotted) : Fielded shape.names es := by
  induction takes with
  | done st => exact ⟨.nil, List.forall_mem_nil _⟩
  | @field st next last g name v es known open_ reads more ih =>
      obtain ⟨mem, same⟩ := mem_of_field? known
      rw [String.ofList_toList] at same
      obtain ⟨β, slot, T, h⟩ := slotted g mem
      obtain ⟨b, -, filled⟩ := h.fills reads
      have absent := more.absent h (by rw [filled]; rfl)
      refine ⟨.cons (fun e mem first _ => ?_) ih.once, ?_⟩
      · refine absent e.2 ?_
        rw [same.trans first]
        exact mem
      · refine List.forall_mem_cons.mpr ⟨fun other => ?_, ih.others⟩
        exact absurd (List.mem_map.mpr ⟨g, mem, same⟩) other
  | @other st last name v es unknown value more ih =>
      refine ⟨.cons (fun e _ _ => field?_eq_none unknown) ih.once, ?_⟩
      exact List.forall_mem_cons.mpr ⟨fun _ => value, ih.others⟩

/-- Members with each field once, and of a spelling each, take a draft to
another. -/
theorem exists_takes (slotted : shape.Slotted)
    (fielded : Fielded shape.names es)
    (spells : ∀ f ∈ shape.fields, ∀ v, (f.name, v) ∈ es →
      f.present st = false ∧ ∀ st, ∃ next, Means (f.read st) v next) :
    ∃ last, Takes shape st es last := by
  induction es generalizing st with
  | nil => exact ⟨st, .done st⟩
  | cons e es ih =>
      obtain ⟨name, v⟩ := e
      obtain ⟨once, later⟩ := List.pairwise_cons.mp fielded.once
      obtain ⟨value, others⟩ := List.forall_mem_cons.mp fielded.others
      cases known : shape.field? name.toList with
      | none =>
          obtain ⟨last, more⟩ := ih ⟨later, others⟩ fun f mem v there =>
            spells f mem v (List.mem_cons_of_mem _ there)
          exact ⟨last, .other known (value (field?_eq_none known)) more⟩
      | some f =>
          obtain ⟨mem, same⟩ := mem_of_field? known
          rw [String.ofList_toList] at same
          subst same
          obtain ⟨open_, reads⟩ := spells f mem v List.mem_cons_self
          obtain ⟨next, reads⟩ := reads st
          obtain ⟨last, more⟩ : ∃ last, Takes shape next es last := by
            refine ih ⟨later, others⟩ fun g there w here => ?_
            obtain ⟨free, more⟩ := spells g there w (List.mem_cons_of_mem _ here)
            refine ⟨?_, more⟩
            have other : f.name ≠ g.name := fun same =>
              once _ here same (List.mem_map.mpr ⟨f, mem, rfl⟩)
            obtain ⟨β, slot, T, h⟩ := slotted g there
            rw [h.present] at free ⊢
            rw [h.keeps mem other reads, free]
          exact ⟨last, .field known open_ reads more⟩

end

section

variable {β : Type} {f : Field σ} {slot : σ → Option β} {T : Spelling β}
  {es : List (String × List Char)} {st last : σ}

/-- A slot holds in the end what its field gives. -/
theorem Takes.given_iff (takes : Takes shape st es last)
    (slotted : shape.Slotted) (h : Slot shape f slot T)
    (empty : slot st = none) {b : β} :
    Given es f.name T b ↔ slot last = some b := by
  constructor
  · rintro ⟨v, mem, spells⟩
    rcases takes.slot_cases h with ⟨absent, -⟩ | ⟨w, b', there, spells', filled⟩
    · exact absurd mem (absent v)
    · have known : f.name ∈ shape.names :=
        List.mem_map.mpr ⟨f, (mem_of_field? h.known).1, rfl⟩
      obtain rfl := (takes.fielded slotted).unique known mem there
      rw [filled, h.unique spells spells']
  · intro filled
    rcases takes.slot_cases h with ⟨-, same⟩ | ⟨v, b', mem, spells, filled'⟩
    · rw [same, empty] at filled
      cases filled
    · obtain rfl := Option.some.inj (filled.symm.trans filled')
      exact ⟨v, mem, spells⟩

/-- A slot that its field may leave empty holds in the end what the field
gives, and nothing where the field is left out. -/
theorem Takes.defaulted_iff (takes : Takes shape st es last)
    (slotted : shape.Slotted) (h : Slot shape f slot T)
    (empty : slot st = none) {default b : β} :
    Defaulted es f.name T default b ↔ (slot last).getD default = b := by
  unfold Defaulted
  rw [takes.given_iff slotted h empty]
  rcases takes.slot_cases h with ⟨absent, same⟩ | ⟨v, b', mem, spells, filled⟩
  · rw [same, empty]
    constructor
    · rintro (⟨⟨⟩⟩ | ⟨-, rfl⟩)
      rfl
    · rintro rfl
      exact .inr ⟨absent, rfl⟩
  · rw [filled, Option.some.injEq, Option.getD_some]
    exact ⟨fun h => h.elim id fun left => absurd mem (left.1 v), .inl⟩

/-- A field that gives a value is read where its slot is empty. -/
theorem Slot.ready (h : Slot shape f slot T)
    (fielded : Fielded shape.names es) {b : β} (value : Given es f.name T b)
    (empty : slot st = none) (v : List Char) (mem : (f.name, v) ∈ es) :
    f.present st = false ∧ ∀ st, ∃ next, Means (f.read st) v next := by
  obtain ⟨w, there, spells⟩ := value
  have known : f.name ∈ shape.names :=
    List.mem_map.mpr ⟨f, (mem_of_field? h.known).1, rfl⟩
  obtain rfl := fielded.unique known mem there
  refine ⟨?_, fun st => h.takes st spells⟩
  rw [h.present, empty]
  rfl

theorem Slot.ready_default (h : Slot shape f slot T)
    (fielded : Fielded shape.names es) {default b : β}
    (value : Defaulted es f.name T default b) (empty : slot st = none)
    (v : List Char) (mem : (f.name, v) ∈ es) :
    f.present st = false ∧ ∀ st, ∃ next, Means (f.read st) v next := by
  rcases value with value | ⟨absent, -⟩
  · exact h.ready fielded value empty v mem
  · exact absurd mem (absent v)

end

end Shape

end TaskLedger.Json
