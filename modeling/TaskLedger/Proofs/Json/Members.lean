/-
Objects and lists that were written are read back.

An object fills a draft member by member, and each member is read where it
stands whatever comes after it (`Fills`). So the reader of members follows
the written list, and its bound on rounds is met since each member takes at
least one character. A list is read the same way, one element a round.
-/
import TaskLedger.Json.Fields
import TaskLedger.Proofs.Json.Scalar

namespace TaskLedger.Json

-- =============================================================== commas

/-- Texts behind a comma each. -/
def commaBefore (texts : List (List Char)) : List Char :=
  texts.flatMap (',' :: ·)

theorem commaSeparated_cons (a : List Char) (rest : List (List Char)) :
    commaSeparated (a :: rest) = a ++ commaBefore rest := by
  induction rest generalizing a with
  | nil => exact (List.append_nil a).symm
  | cons b rest ih => rw [commaSeparated, ih]; rfl

theorem length_le_commaBefore (texts : List (List Char)) :
    texts.length ≤ (commaBefore texts).length := by
  induction texts with
  | nil => exact Nat.le_refl 0
  | cons a rest ih =>
      unfold commaBefore at ih ⊢
      rw [List.flatMap_cons, List.length_append, List.length_cons,
        List.length_cons]
      omega

/-- What follows one of some texts does not go on with a number. -/
theorem commaBefore_ends (texts : List (List Char)) {r : List Char}
    (ends : NumberEnds r) : NumberEnds (commaBefore texts ++ r) := by
  cases texts with
  | nil => exact ends
  | cons a rest => exact NumberEnds.comma _

-- ============================================================== objects

section

variable {σ : Type} {shape : Shape σ}

/-- Members that take a draft to another, each of them a field that is not
filled yet. -/
inductive Fills (shape : Shape σ) : σ → List (List Char) → σ → Prop
  | done (st : σ) : Fills shape st [] st
  | member {st next last : σ} {f : Field σ} {name : String}
      {value : List Char} {rest : List (List Char)}
      (known : shape.field? name.toList = some f)
      (open_ : f.present st = false) (reads : Reads (f.read st) value next)
      (more : Fills shape next rest last) :
      Fills shape st (writeMember name value :: rest) last

/-- A member is read into the field of its name. -/
theorem readMember_write {st next : σ} {f : Field σ} {name : String}
    {value : List Char} (known : shape.field? name.toList = some f)
    (open_ : f.present st = false) (reads : Reads (f.read st) value next)
    {r : List Char} (ends : NumberEnds r) :
    shape.readMember st
        (name.toList.flatMap Quoted.escape ++ '\x22' :: ':' :: (value ++ r))
      = .ok (next, r) := by
  unfold Shape.readMember
  rw [Quoted.read_write]
  dsimp only [bind, Except.bind]
  rw [known]
  dsimp only
  rw [open_, if_neg Bool.false_ne_true]
  exact reads r ends

/-- A written member, up to what follows it. -/
theorem writeMember_append (name : String) (value r : List Char) :
    writeMember name value ++ r
      = '\x22' :: (name.toList.flatMap Quoted.escape
          ++ '\x22' :: ':' :: (value ++ r)) := by
  unfold writeMember writeString Quoted.write
  simp only [List.cons_append, List.append_assoc, List.nil_append]

/-- The members behind the first are read to the brace. -/
theorem readMembers_rest {st last : σ} {members : List (List Char)}
    (fills : Fills shape st members last) {n : Nat}
    (rounds : members.length < n) (r : List Char) :
    shape.readMembers n false st (commaBefore members ++ '\x7d' :: r)
      = .ok (last, r) := by
  induction fills generalizing n with
  | done st =>
      obtain ⟨n, rfl⟩ := Nat.exists_eq_succ_of_ne_zero (Nat.ne_zero_of_lt rounds)
      rfl
  | @member st next last f name value rest known open_ reads more ih =>
      obtain ⟨n, rfl⟩ := Nat.exists_eq_succ_of_ne_zero (Nat.ne_zero_of_lt rounds)
      have here := readMember_write known open_ reads
        (commaBefore_ends rest (NumberEnds.brace r))
      unfold commaBefore at ih here ⊢
      rw [List.flatMap_cons, List.append_assoc, List.cons_append,
        writeMember_append]
      change Except.bind (shape.readMember st _) _ = _
      rw [here]
      exact ih (Nat.lt_of_succ_lt_succ rounds)

/-- An object whose members fill a draft is read as what the draft makes. -/
theorem read_object {α : Type} {start last : σ} {members : List (List Char)}
    {finish : σ → Except Mismatch α} {a : α}
    (fills : Fills shape start members last) (made : finish last = .ok a)
    (r : List Char) :
    shape.read start finish (writeObject members ++ r) = .ok (a, r) := by
  have read : ∀ n, members.length < n →
      shape.readMembers n true start
        (commaSeparated members ++ '\x7d' :: r) = .ok (last, r) := by
    intro n rounds
    obtain ⟨n, rfl⟩ := Nat.exists_eq_succ_of_ne_zero (Nat.ne_zero_of_lt rounds)
    -- the first member has no comma, the rest are read by `readMembers_rest`
    cases fills with
    | done => rfl
    | @member _ next _ f name value rest known open_ reads more =>
        have here := readMember_write known open_ reads
          (commaBefore_ends rest (NumberEnds.brace r))
        rw [commaSeparated_cons, List.append_assoc, writeMember_append]
        change Except.bind (shape.readMember start _) _ = _
        rw [here]
        exact readMembers_rest more (Nat.lt_of_succ_lt_succ rounds) r
  -- each member takes a character, so the length of the text is fuel enough
  have size : members.length ≤ (commaSeparated members).length + 1 := by
    cases members with
    | nil => exact Nat.zero_le _
    | cons a rest =>
        have := length_le_commaBefore rest
        rw [commaSeparated_cons, List.length_append, List.length_cons]
        omega
  unfold Shape.read writeObject
  rw [List.cons_append, List.append_assoc, skipGap_of_solid (by decide)]
  change Except.bind (shape.readMembers _ true start _) _ = _
  rw [List.singleton_append, read _ (by
    rw [List.length_append, List.length_cons]
    omega)]
  dsimp only [Except.bind]
  rw [made]

end

-- ================================================================ lists

section

variable {α : Type} {read : Reader α} {write : α → List Char}

/-- An element starts as neither a blank nor a bracket's end nor a comma. -/
def Starts (text : List Char) : Prop :=
  ∃ c s, text = c :: s ∧ isGap c = false ∧ c ≠ ']' ∧ c ≠ ','

theorem nextElement_first {text : List Char} (starts : Starts text)
    (r : List Char) :
    Shape.nextElement true (text ++ r) = .ok (some (text ++ r)) := by
  obtain ⟨c, s, rfl, solid, bracket, comma⟩ := starts
  unfold Shape.nextElement
  rw [List.cons_append, skipGap_of_solid solid]
  split
  · next same => cases same
  · next same => exact absurd (List.cons.inj same).1 bracket
  · next same => exact absurd (List.cons.inj same).1 comma
  · rfl

theorem nextElement_comma {text : List Char} (starts : Starts text)
    (r : List Char) :
    Shape.nextElement false (',' :: (text ++ r)) = .ok (some (text ++ r)) := by
  obtain ⟨c, s, rfl, solid, bracket, comma⟩ := starts
  have gap : skipGap (',' :: (c :: s ++ r)) = ',' :: (c :: s ++ r) :=
    skipGap_of_solid (by decide) _
  unfold Shape.nextElement
  simp only [gap, if_neg Bool.false_ne_true]
  rw [List.cons_append, skipGap_of_solid solid]
  split
  · next same => cases same
  · next same => exact absurd (List.cons.inj same).1 bracket
  · rfl

/-- The elements behind the first are read to the bracket. -/
theorem readItems_rest (starts : ∀ a, Starts (write a)) {as : List α}
    (reads : ∀ a ∈ as, Reads read (write a) a) {n : Nat}
    (rounds : as.length < n) (r : List Char) :
    readItems read n false (commaBefore (as.map write) ++ ']' :: r)
      = .ok (as, r) := by
  induction as generalizing n with
  | nil =>
      obtain ⟨n, rfl⟩ := Nat.exists_eq_succ_of_ne_zero (Nat.ne_zero_of_lt rounds)
      rfl
  | cons a as ih =>
      obtain ⟨n, rfl⟩ := Nat.exists_eq_succ_of_ne_zero (Nat.ne_zero_of_lt rounds)
      have here := reads a List.mem_cons_self _
        (commaBefore_ends (as.map write) (NumberEnds.bracket r))
      have more := ih (fun b hb => reads b (List.mem_cons_of_mem a hb))
        (Nat.lt_of_succ_lt_succ rounds)
      unfold commaBefore at here more ⊢
      rw [List.map_cons, List.flatMap_cons, List.append_assoc,
        List.cons_append, readItems, nextElement_comma (starts a)]
      dsimp only [bind, Except.bind]
      rw [here]
      dsimp only
      rw [more]

/-- A written list is read back, if its elements are. -/
theorem readList_write (starts : ∀ a, Starts (write a)) {as : List α}
    (reads : ∀ a ∈ as, Reads read (write a) a) :
    Reads (readList read) (writeList (as.map write)) as := by
  intro r _
  have items : ∀ n, as.length < n →
      readItems read n true (commaSeparated (as.map write) ++ ']' :: r)
        = .ok (as, r) := by
    intro n rounds
    obtain ⟨n, rfl⟩ := Nat.exists_eq_succ_of_ne_zero (Nat.ne_zero_of_lt rounds)
    cases as with
    | nil => rfl
    | cons a as =>
        have here := reads a List.mem_cons_self _
          (commaBefore_ends (as.map write) (NumberEnds.bracket r))
        rw [List.map_cons, commaSeparated_cons, List.append_assoc, readItems,
          nextElement_first (starts a)]
        dsimp only [bind, Except.bind]
        rw [here]
        dsimp only
        rw [readItems_rest starts
          (fun b hb => reads b (List.mem_cons_of_mem a hb))
          (Nat.lt_of_succ_lt_succ rounds)]
  -- each item takes a character, so the length of the text is fuel enough
  have size : as.length ≤ (commaSeparated (as.map write)).length + 1 := by
    cases as with
    | nil => exact Nat.zero_le _
    | cons a as =>
        have := length_le_commaBefore (as.map write)
        rw [List.map_cons, commaSeparated_cons, List.length_append,
          List.length_cons]
        rw [List.length_map] at this
        omega
  unfold readList writeList
  rw [List.cons_append, List.append_assoc, skipGap_of_solid (by decide)]
  change readItems read _ true _ = _
  rw [List.singleton_append]
  refine items _ ?_
  rw [List.length_append, List.length_cons]
  omega

end

end TaskLedger.Json
