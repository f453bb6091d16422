/-
Objects and lists end by themselves: what is read of one is read of it
whatever follows, if the readers of its fields keep what they take
(`Shape.read_closes`). Passing over a value that nobody asks for is the same
loop with brackets in place of fields (`skipLoop_append`).
-/
import TaskLedger.Proofs.Json.Keeping

namespace TaskLedger.Json

-- ============================================================= skipping

/-- What is passed over without a bracket is passed over with more behind it, if
the text did not end there: a number that ends the text might go on. -/
theorem skipScalar_append {c : Char} {s r : List Char}
    (h : skipScalar c s = .ok r) (left : r ≠ []) (more : List Char) :
    skipScalar c (s ++ more) = .ok (r ++ more) := by
  unfold skipScalar at h ⊢
  split at h
  · next null => rw [if_pos null]; exact word_append h more
  next other =>
  rw [if_neg other]
  split at h
  · next true_ => rw [if_pos true_]; exact word_append h more
  next other =>
  rw [if_neg other]
  split at h
  · next false_ => rw [if_pos false_]; exact word_append h more
  next other =>
  rw [if_neg other]
  split at h
  · next minus => rw [if_pos minus]; exact Numeral.skip_append h left more
  next other =>
  rw [if_neg other]
  split at h
  · next digit => rw [if_pos digit]; exact Numeral.skip_append h left more
  next other =>
  rw [if_neg other]
  split at h
  · next quote => rw [if_pos quote]; exact Quoted.skip_append h more
  · cases h

/-- A name ends by its quote and its colon, so what is behind makes no
difference. -/
theorem skipName_append {s r : List Char} (h : skipName s = .ok r)
    (more : List Char) : skipName (s ++ more) = .ok (r ++ more) := by
  unfold skipName at h ⊢
  split at h
  · cases h
  · next t gap =>
    obtain ⟨u, name, h⟩ := bind_ok h
    rw [skipGap_append gap]
    change (Quoted.skip (t ++ more) >>= colon) = _
    rw [Quoted.skip_append name more]
    exact colon_append h more
  · cases h

/-- Behind a value with nothing behind it, nothing is left. -/
theorem skipLoop_after_nil {n : Nat} {open_ : List Bracket} {r : List Char}
    (h : skipLoop n .after open_ [] = .ok r) : r = [] := by
  cases n with
  | zero => cases h
  | succ n =>
      cases open_ with
      | nil => exact (Except.ok.inj h).symm
      | cons b open_ => cases b <;> cases h

/-- An item cannot be passed over where the text ends. -/
theorem skipLoop_item_nil {n : Nat} {open_ : List Bracket} {r : List Char} :
    skipLoop n .item open_ [] ≠ .ok r := by
  cases n <;> rintro ⟨⟩

section

variable {n m : Nat} {open_ : List Bracket} {s r : List Char}

/-- A round at the start of a value keeps, if the later ones do. -/
theorem skipItem_append {more : List Char}
    (later : ∀ {phase open_ s}, skipLoop n phase open_ s = .ok r →
      skipLoop m phase open_ (s ++ more) = .ok (r ++ more))
    (h : skipLoop (n + 1) .item open_ s = .ok r) (left : r ≠ []) :
    skipLoop (m + 1) .item open_ (s ++ more) = .ok (r ++ more) := by
  rw [skipLoop] at h ⊢
  split at h
  · cases h
  · next t gap =>
    simp only [skipGap_append gap]
    split at h
    · next u gap => rw [skipGap_append gap]; exact later h
    · next full =>
      cases gap : skipGap t with
      | nil => rw [gap] at h; exact (skipLoop_item_nil h).elim
      | cons c u =>
          rw [gap] at h
          rw [skipGap_append gap]
          split
          · next e =>
            obtain ⟨rfl, -⟩ := List.cons.inj e
            exact (full u gap).elim
          · exact later h
  · next t gap =>
    simp only [skipGap_append gap]
    split at h
    · next u gap => rw [skipGap_append gap]; exact later h
    · next full =>
      obtain ⟨v, name, h⟩ := bind_ok h
      cases gap : skipGap t with
      | nil => rw [gap] at name; cases name
      | cons c u =>
          rw [gap] at name
          rw [skipGap_append gap]
          split
          · next e =>
            obtain ⟨rfl, -⟩ := List.cons.inj e
            exact (full u gap).elim
          · rw [← List.cons_append, skipName_append name]
            exact later h
  · next c t noList noObject gap =>
    obtain ⟨u, scalar, h⟩ := bind_ok h
    have some_ : u ≠ [] := by
      rintro rfl
      exact left (skipLoop_after_nil h)
    rw [skipGap_append gap]
    split
    · next e => cases e
    · next e => exact (noList (List.cons.inj e).1).elim
    · next e => exact (noObject (List.cons.inj e).1).elim
    · next e =>
      obtain ⟨rfl, rfl⟩ := List.cons.inj e
      rw [skipScalar_append scalar some_]
      exact later h

/-- So does a round behind a value. -/
theorem skipAfter_append {more : List Char}
    (later : ∀ {phase open_ s}, skipLoop n phase open_ s = .ok r →
      skipLoop m phase open_ (s ++ more) = .ok (r ++ more))
    (h : skipLoop (n + 1) .after open_ s = .ok r) :
    skipLoop (m + 1) .after open_ (s ++ more) = .ok (r ++ more) := by
  cases open_ with
  | nil =>
      obtain rfl := Except.ok.inj h
      rfl
  | cons b open_ =>
      cases b with
      | list =>
          rw [skipLoop] at h ⊢
          split at h
          · cases h
          · next gap => rw [skipGap_append gap]; exact later h
          · next gap => rw [skipGap_append gap]; exact later h
          · cases h
      | object =>
          rw [skipLoop] at h ⊢
          split at h
          · cases h
          · next gap =>
            obtain ⟨v, name, h⟩ := bind_ok h
            rw [skipGap_append gap]
            change (skipName _ >>= skipLoop m .item (.object :: open_)) = _
            rw [skipName_append name]
            exact later h
          · next gap => rw [skipGap_append gap]; exact later h
          · cases h

/-- Passing over values keeps, under every larger bound on the rounds. -/
theorem skipLoop_append {phase : SkipPhase}
    (h : skipLoop n phase open_ s = .ok r) (left : r ≠ []) (bound : n ≤ m)
    (more : List Char) :
    skipLoop m phase open_ (s ++ more) = .ok (r ++ more) := by
  induction n generalizing m phase open_ s with
  | zero => cases h
  | succ n ih =>
      obtain ⟨m, rfl⟩ := Nat.exists_eq_add_of_lt bound
      have bound : n ≤ n + m := Nat.le_add_right n m
      cases phase with
      | item => exact skipItem_append (fun h => ih h bound) h left
      | after => exact skipAfter_append (fun h => ih h bound) h

end

/-- A value that was passed over is passed over with more behind it, if
something was left. -/
theorem skipValue_append {s r : List Char} (h : skipValue s = .ok r)
    (left : r ≠ []) (more : List Char) :
    skipValue (s ++ more) = .ok (r ++ more) := by
  refine skipLoop_append h left ?_ more
  rw [List.length_append]
  omega

-- ============================================================== scalars

/-- A number is read with more behind it, if something was left. What ended it
is still there to end it. -/
theorem readNumber_keeps {α : Type} (expected : String)
    (ofInt? : Int → Option α) : Keeps (readNumber expected ofInt?) := by
  intro s a r h left more
  -- what is left is what the number leaves, whether it fits or not
  have number {negative : Bool} {t : List Char}
      (h : (Numeral.read negative t >>= fun x =>
          fit expected ofInt? x.1 >>= fun a => Except.ok (a, x.2))
        = .ok (a, r)) :
      (Numeral.read negative (t ++ more) >>= fun x =>
          fit expected ofInt? x.1 >>= fun a => Except.ok (a, x.2))
        = .ok (a, r ++ more) := by
    obtain ⟨⟨x, u⟩, taken, h⟩ := bind_ok h
    obtain ⟨b, value, h⟩ := bind_ok h
    obtain ⟨rfl, rfl⟩ := Prod.mk.inj (Except.ok.inj h)
    rw [Numeral.read_keeps negative taken left more]
    change (fit expected ofInt? x >>= fun a => Except.ok (a, u ++ more)) = _
    rw [value]
    rfl
  unfold readNumber at h ⊢
  dsimp only at h ⊢
  split at h
  · next gap =>
    rw [skipGap_append gap]
    exact number h
  · next c t minus gap =>
    split at h
    · next digit =>
      rw [skipGap_append gap]
      split
      · next e => exact (minus (List.cons.inj e).1).elim
      · next e =>
        obtain ⟨rfl, rfl⟩ := List.cons.inj e
        rw [if_pos digit]
        exact number h
      · next e => cases e
    · cases h
  · cases h

/-- A string ends by its quote. -/
theorem readString_closes : Closes readString := by
  intro s a r h more
  unfold readString at h ⊢
  split at h
  · next gap =>
    obtain ⟨⟨t, u⟩, taken, h⟩ := bind_ok h
    obtain ⟨rfl, rfl⟩ := Prod.mk.inj (Except.ok.inj h)
    rw [skipGap_append gap]
    change (Quoted.read _ >>= _) = _
    rw [Quoted.read_closes taken more]
    rfl
  · cases h

/-- What is optional is kept if the value is: null is a word, and words do not
go on. -/
theorem readOptional_keeps {α : Type} {read : Reader α} (keeps : Keeps read)
    (none_ : ∀ x, read [] ≠ .ok x) : Keeps (readOptional read) := by
  intro s a r h left more
  unfold readOptional at h ⊢
  split at h
  · next gap =>
    obtain ⟨u, taken, h⟩ := bind_ok h
    obtain ⟨rfl, rfl⟩ := Prod.mk.inj (Except.ok.inj h)
    rw [skipGap_append gap]
    change (word _ _ >>= _) = _
    rw [word_append taken more]
    rfl
  · next other =>
    obtain ⟨⟨b, u⟩, taken, h⟩ := bind_ok h
    obtain ⟨rfl, rfl⟩ := Prod.mk.inj (Except.ok.inj h)
    cases gap : skipGap s with
    | nil => rw [gap] at taken; exact (none_ _ taken).elim
    | cons c t =>
        rw [gap] at taken
        rw [skipGap_append gap]
        split
        · next e =>
          obtain ⟨rfl, -⟩ := List.cons.inj e
          exact (other t gap).elim
        · rw [← List.cons_append, keeps taken left more]
          rfl

/-- A name is a string that is known, so it ends by its quote too. -/
theorem readNamed_closes {α : Type} (all : List α) (name : α → String) :
    Closes (readNamed all name) := by
  intro s a r h more
  unfold readNamed at h ⊢
  split at h
  · cases h
  · next gap =>
    obtain ⟨⟨t, u⟩, taken, h⟩ := bind_ok h
    obtain ⟨b, found, h⟩ := bind_ok h
    obtain ⟨rfl, rfl⟩ := Prod.mk.inj (Except.ok.inj h)
    rw [skipGap_append gap]
    change (Quoted.read _ >>= fun x => named all name x.1 >>= fun a =>
      -- the string ends by its quote, and the name is found in it
      Except.ok (a, x.2)) = _
    rw [Quoted.read_closes taken more]
    change (named all name t >>= fun a => Except.ok (a, u ++ more)) = _
    rw [found]
    rfl
  -- the same inside of an object, which its bracket closes
  · next outer =>
    split at h
    · cases h
    · next inner =>
      obtain ⟨⟨t, u⟩, taken, h⟩ := bind_ok h
      obtain ⟨b, found, h⟩ := bind_ok h
      obtain ⟨v, sep, h⟩ := bind_ok h
      split at h
      · next value =>
        obtain ⟨w, null, h⟩ := bind_ok h
        split at h
        · cases h
        · next closed =>
          obtain ⟨rfl, rfl⟩ := Prod.mk.inj (Except.ok.inj h)
          simp only [skipGap_append outer, skipGap_append inner,
            Quoted.read_closes taken more, found, colon_append sep more,
            skipGap_append value, word_append null more,
            skipGap_append closed, bind, Except.bind]
        · cases h
      · cases h
    · cases h
  · cases h

-- ============================================================== objects

section

variable {σ : Type} {shape : Shape σ}

/-- The readers of a shape's fields keep what they take. -/
def Shape.Steady (shape : Shape σ) : Prop :=
  ∀ f ∈ shape.fields, ∀ st, Keeps (f.read st)

/-- A member is kept, whichever field it is for: the value of one that is not
known is passed over. -/
theorem readMember_keeps (steady : shape.Steady) (st : σ) :
    Keeps (shape.readMember st) := by
  intro s a r h left more
  unfold Shape.readMember at h ⊢
  obtain ⟨⟨name, t⟩, taken, h⟩ := bind_ok h
  rw [Quoted.read_closes taken more]
  dsimp only [bind, Except.bind] at h ⊢
  cases known : shape.field? name with
  | none =>
      rw [known] at h
      obtain ⟨u, sep, h⟩ := bind_ok h
      obtain ⟨v, skipped, h⟩ := bind_ok h
      obtain ⟨rfl, rfl⟩ := Prod.mk.inj (Except.ok.inj h)
      simp only [colon_append sep more, skipValue_append skipped left more]
  | some f =>
      rw [known] at h
      dsimp only at h ⊢
      have field : f ∈ shape.fields := List.mem_of_find?_eq_some known
      split at h
      · cases h
      · next open_ =>
        obtain ⟨u, sep, h⟩ := bind_ok h
        simp only [if_neg open_, colon_append sep more]
        exact steady f field st h left more

/-- The members of an object end at its brace, under every larger bound on
the rounds. -/
theorem readMembers_append (steady : shape.Steady) {n m : Nat} {first : Bool}
    {st last : σ} {s r : List Char}
    (h : shape.readMembers n first st s = .ok (last, r)) (bound : n ≤ m)
    (more : List Char) :
    shape.readMembers m first st (s ++ more) = .ok (last, r ++ more) := by
  induction n generalizing m first st s with
  | zero => cases h
  | succ n ih =>
      obtain ⟨m, rfl⟩ := Nat.exists_eq_add_of_lt bound
      have bound : n ≤ n + m := Nat.le_add_right n m
      -- a member that has more behind it
      have member {s : List Char} (h : (shape.readMember st s >>= fun x =>
            shape.readMembers n false x.1 x.2) = .ok (last, r)) :
          (shape.readMember st (s ++ more) >>= fun x =>
            shape.readMembers (n + m) false x.1 x.2)
          = .ok (last, r ++ more) := by
        obtain ⟨⟨next, t⟩, taken, h⟩ := bind_ok h
        have left : t ≠ [] := by
          rintro rfl
          cases n <;> cases h
        rw [readMember_keeps steady st taken left more]
        exact ih h bound
      rw [Shape.readMembers] at h ⊢
      split at h
      · cases h
      · next gap =>
        obtain ⟨rfl, rfl⟩ := Prod.mk.inj (Except.ok.inj h)
        simp only [skipGap_append gap]
      · next gap =>
        split at h
        · cases h
        · next again =>
          simp only [skipGap_append gap, if_neg again]
          split at h
          · cases h
          · next gap => simp only [skipGap_append gap]; exact member h
          · cases h
      · next gap =>
        split at h
        · next again =>
          simp only [skipGap_append gap, if_pos again]
          exact member h
        · cases h
      · cases h

/-- Whether another element follows is told by the comma or the bracket in
front, and that is there. -/
theorem nextElement_append {first : Bool} {s : List Char}
    {next : Option (List Char)} (h : Shape.nextElement first s = .ok next)
    (more : List Char) :
    Shape.nextElement first (s ++ more) = .ok (next.map (· ++ more)) := by
  unfold Shape.nextElement at h ⊢
  split at h
  · cases h
  -- the bracket that closes, a comma, or something else: what is in front
  -- decides
  · next gap =>
    obtain rfl := Except.ok.inj h
    simp only [skipGap_append gap, Option.map_none]
  · next gap =>
    simp only [skipGap_append gap]
    split at h
    · next again =>
      obtain rfl := Except.ok.inj h
      simp only [if_pos again, Option.map_some, List.cons_append]
    · next again =>
      simp only [if_neg again]
      split at h
      · cases h
      · cases h
      -- behind the comma there is another element, which closes nothing
      · next full noEnd =>
        obtain ⟨c, u, gap⟩ := List.exists_cons_of_ne_nil full
        obtain rfl := Except.ok.inj h
        rw [skipGap_append gap, gap]
        split
        · next e => cases e
        · next e =>
          obtain ⟨rfl, -⟩ := List.cons.inj e
          exact (noEnd u gap).elim
        · rfl
  · next full noEnd noComma =>
    split at h
    · next again =>
      obtain ⟨c, u, gap⟩ := List.exists_cons_of_ne_nil full
      obtain rfl := Except.ok.inj h
      rw [skipGap_append gap, gap]
      split
      · next e => cases e
      · next e =>
        obtain ⟨rfl, -⟩ := List.cons.inj e
        exact (noEnd u gap).elim
      · next e =>
        obtain ⟨rfl, -⟩ := List.cons.inj e
        exact (noComma u gap).elim
      · rw [if_pos again]
        rfl
    · cases h

/-- The end of a list is told by its bracket. -/
theorem endList_append {s r : List Char} (h : Shape.endList s = .ok r)
    (more : List Char) : Shape.endList (s ++ more) = .ok (r ++ more) := by
  unfold Shape.endList at h ⊢
  split at h
  · cases h
  · next gap =>
    obtain rfl := Except.ok.inj h
    simp only [skipGap_append gap]
  · cases h

/-- What an element of a list is followed by is not the end of the text. -/
theorem readElements_ne_nil {fs : List (Field σ)} {i : Nat} {first : Bool}
    {st last : σ} {r : List Char} :
    shape.readElements fs i first st [] ≠ .ok (last, r) := by
  cases fs <;> rintro ⟨⟩

/-- The elements of a list are kept one by one, and the bracket ends them. The
induction is on the fields that are left. -/
theorem readElements_append (steady : shape.Steady) {fs : List (Field σ)}
    (fields : ∀ f ∈ fs, f ∈ shape.fields) {i : Nat} {first : Bool}
    {st last : σ} {s r : List Char}
    (h : shape.readElements fs i first st s = .ok (last, r))
    (more : List Char) :
    shape.readElements fs i first st (s ++ more) = .ok (last, r ++ more) := by
  induction fs generalizing i first st s with
  | nil =>
      obtain ⟨t, closed, h⟩ := bind_ok h
      obtain ⟨rfl, rfl⟩ := Prod.mk.inj (Except.ok.inj h)
      rw [Shape.readElements, endList_append closed]
      rfl
  | cons f fs ih =>
      have rest : ∀ g ∈ fs, g ∈ shape.fields :=
        fun g mem => fields g (List.mem_cons_of_mem f mem)
      rw [Shape.readElements] at h ⊢
      obtain ⟨next, element, h⟩ := bind_ok h
      rw [nextElement_append element]
      cases next with
      | none =>
          dsimp only [bind, Except.bind, Option.map_none] at h ⊢
          split at h
          · next trailing => rw [if_pos trailing]; exact ih rest h
          · cases h
      | some t =>
          obtain ⟨⟨next, u⟩, taken, h⟩ := bind_ok h
          have left : u ≠ [] := by
            rintro rfl
            exact readElements_ne_nil h
          dsimp only [bind, Except.bind, Option.map_some]
          rw [steady f (fields f List.mem_cons_self) st taken left more]
          exact ih rest h

/-- A record ends with its brace or its bracket. -/
theorem Shape.read_closes {α : Type} (steady : shape.Steady) (start : σ)
    (finish : σ → Except Mismatch α) : Closes (shape.read start finish) := by
  intro s a r h more
  obtain ⟨last, made, ⟨u, gap, taken⟩ | ⟨u, gap, taken⟩⟩ := Shape.read_ok h
  · have longer :=
      readElements_append steady (fun _ mem => mem) taken more
    unfold Shape.read
    simp only [skipGap_append gap, longer, bind, Except.bind, made]
  · have rounds : u.length + 1 ≤ (u ++ more).length + 1 := by
      rw [List.length_append]
      omega
    have longer := readMembers_append steady taken rounds more
    unfold Shape.read
    simp only [skipGap_append gap, longer, bind, Except.bind, made]

end

-- ================================================================ lists

/-- The items of a list are kept, and more fuel makes no difference. -/
theorem readItems_append {α : Type} {read : Reader α} (keeps : Keeps read)
    {n m : Nat} {first : Bool} {s r : List Char} {as : List α}
    (h : readItems read n first s = .ok (as, r)) (bound : n ≤ m)
    (more : List Char) :
    readItems read m first (s ++ more) = .ok (as, r ++ more) := by
  induction n generalizing m first s as with
  | zero => cases h
  | succ n ih =>
      obtain ⟨m, rfl⟩ := Nat.exists_eq_add_of_lt bound
      have bound : n ≤ n + m := Nat.le_add_right n m
      rw [readItems] at h ⊢
      obtain ⟨next, element, h⟩ := bind_ok h
      rw [nextElement_append element]
      cases next with
      | none =>
          obtain ⟨t, closed, h⟩ := bind_ok h
          obtain ⟨rfl, rfl⟩ := Prod.mk.inj (Except.ok.inj h)
          simp only [bind, Except.bind, Option.map_none,
            endList_append closed]
      | some t =>
          obtain ⟨⟨a, u⟩, taken, h⟩ := bind_ok h
          obtain ⟨⟨as, v⟩, others, h⟩ := bind_ok h
          obtain ⟨rfl, rfl⟩ := Prod.mk.inj (Except.ok.inj h)
          have left : u ≠ [] := by
            rintro rfl
            cases n <;> cases others
          simp only [bind, Except.bind, Option.map_some,
            keeps taken left more, ih others bound]

/-- So a list is closed by its bracket, whatever its items are closed by. -/
theorem readList_closes {α : Type} {read : Reader α} (keeps : Keeps read) :
    Closes (readList read) := by
  intro s as r h more
  unfold readList at h ⊢
  split at h
  · next t gap =>
    simp only [skipGap_append gap]
    refine readItems_append keeps h ?_ more
    rw [List.length_append]
    omega
  · cases h

end TaskLedger.Json
