/-
What becomes of the times of the work that records show.

A record that is not a task's and names a task is work for it. Records may stand
in any order: a tally looks at what a record is and whom it names, not at where
it stands. So the tally of a task is the count and the sum of its work, and the
one thing that can go wrong is a sum of times that leaves the range of a word on
the way (`addAll_exact`). Which of the two happens is told from the records
alone (`Table.Fits`).
-/
import Mathlib.Algebra.Order.BigOperators.Group.List
import Mathlib.Algebra.Order.Ring.Int
import TaskLedger.Command.Summary
import TaskLedger.Proofs.Ledger.Change

namespace TaskLedger

namespace Tally

-- ================================================================== tallies

/-- A record is work for a task. -/
def isWorkFor (p : SpanId) (r : SpanRecord) : Bool :=
  r.span.kind != .task && r.span.parent == some p

/-- The work for a task among some records. -/
def workFor (p : SpanId) (rs : List SpanRecord) : List SpanRecord :=
  rs.filter (isWorkFor p)

/-- How long it took. -/
def millisFor (p : SpanId) (rs : List SpanRecord) : Int :=
  ((workFor p rs).map fun r => r.span.durationMs.toInt).sum

/-- A tally with some more work. -/
def more (t : Tally) (p : SpanId) (rs : List SpanRecord) : Tally :=
  ⟨t.workers + (workFor p rs).length, t.millis + millisFor p rs⟩

variable {t : Table} {p q : SpanId} {r : SpanRecord} {rs : List SpanRecord}

theorem workFor_cons (p : SpanId) (r : SpanRecord) (rs : List SpanRecord) :
    workFor p (r :: rs)
      = if isWorkFor p r then r :: workFor p rs else workFor p rs :=
  List.filter_cons

theorem millisFor_append (p : SpanId) (rs ms : List SpanRecord) :
    millisFor p (rs ++ ms) = millisFor p rs + millisFor p ms := by
  unfold millisFor workFor
  rw [List.filter_append, List.map_append, List.sum_append]

/-- Work that is counted in two goes is counted. -/
theorem more_more (a : Tally) (p : SpanId) (rs ms : List SpanRecord) :
    (a.more p rs).more p ms = a.more p (rs ++ ms) := by
  unfold more
  rw [millisFor_append]
  unfold workFor
  rw [List.filter_append, List.length_append, Nat.add_assoc, Int.add_assoc]

/-- What is no work for a task leaves its tally alone. -/
theorem more_aside (other : isWorkFor p r = false) (a : Tally) :
    a.more p [r] = a := by
  unfold more millisFor
  rw [workFor_cons, other]
  show (⟨a.workers + 0, a.millis + 0⟩ : Tally) = a
  rw [Int.add_zero]
  rfl

theorem more_work (mine : isWorkFor p r = true) (a : Tally) :
    a.more p [r] = ⟨a.workers + 1, a.millis + r.span.durationMs.toInt⟩ := by
  unfold more millisFor
  rw [workFor_cons, if_pos mine]
  show (⟨a.workers + 1, a.millis + (r.span.durationMs.toInt + 0)⟩ : Tally) = _
  rw [Int.add_zero]

/-- An entry takes the place of the one of its parent. -/
theorem of_put (t : Table) (p q : SpanId) (a : Tally) :
    Table.of ((p, a) :: t.filter fun e => e.1 != p) q
      = if q = p then a else t.of q := by
  unfold Table.of
  rw [List.lookup_cons]
  by_cases same : q = p
  · rw [if_pos same, same, beq_self_eq_true]
    rfl
  · rw [if_neg same, beq_eq_false_iff_ne.mpr same]
    dsimp only
    rw [lookup_without, if_neg same]

/-- A record is counted for the task that it names, if it is work for one; the
only thing that can go wrong is that the sum leaves its range. -/
theorem add_exact (t : Table) (r : SpanRecord)
    (start : ∀ q, fits (t.of q).millis = true) :
    ((∀ q, fits ((t.of q).more q [r]).millis = true)
        ∧ ∃ t', t.add r = .ok t' ∧ ∀ q, t'.of q = (t.of q).more q [r])
      ∨ (∃ q, fits ((t.of q).more q [r]).millis = false)
        ∧ t.add r = .error .sumRange := by
  have work (p : SpanId) (parent : r.span.parent = some p)
      (kind : r.span.kind ≠ .task) (q : SpanId) :
      isWorkFor q r = decide (q = p) := by
    unfold isWorkFor
    rw [bne_iff_ne.mpr kind, parent, Bool.true_and]
    by_cases same : q = p
    · simp [same]
    · simp [same, Ne.symm same]
  -- a line that is no work for anybody leaves all tallies as they are
  have aside (none : ∀ q, isWorkFor q r = false) (still : t.add r = .ok t) :
      (∀ q, fits ((t.of q).more q [r]).millis = true)
        ∧ ∃ t', t.add r = .ok t' ∧ ∀ q, t'.of q = (t.of q).more q [r] :=
    ⟨fun q => by rw [more_aside (none q)]; exact start q,
      t, still, fun q => (more_aside (none q) _).symm⟩
  -- and one that is leaves all but its parent's
  have counts (p : SpanId) (parent : r.span.parent = some p)
      (kind : r.span.kind ≠ .task)
      (adds : t.add r = ((t.of p).add r.span).map fun tally =>
        (p, tally) :: t.filter fun e => e.1 != p) :
      ((∀ q, fits ((t.of q).more q [r]).millis = true)
          ∧ ∃ t', t.add r = .ok t' ∧ ∀ q, t'.of q = (t.of q).more q [r])
        ∨ (∃ q, fits ((t.of q).more q [r]).millis = false)
          ∧ t.add r = .error .sumRange := by
    have mine : isWorkFor p r = true := by rw [work p parent kind]; simp
    have other {q : SpanId} (ne : q ≠ p) : isWorkFor q r = false := by
      rw [work p parent kind]
      simp [ne]
    rw [adds]
    unfold Tally.add
    dsimp only
    by_cases fit : fits ((t.of p).millis + r.span.durationMs.toInt) = true
    · rw [if_pos fit]
      refine .inl ⟨fun q => ?_, _, rfl, fun q => ?_⟩
      · by_cases same : q = p
        · rw [same, more_work mine]
          exact fit
        · rw [more_aside (other same)]
          exact start q
      · rw [of_put]
        by_cases same : q = p
        · rw [if_pos same, same, more_work mine]
        · rw [if_neg same, more_aside (other same)]
    · rw [if_neg fit]
      refine .inr ⟨⟨p, ?_⟩, rfl⟩
      rw [more_work mine]
      exact Bool.eq_false_iff.mpr fit
  -- the split is that of `Table.add`: by the kind, and then by the parent
  cases kind : r.span.kind with
  | task =>
      refine .inl (aside (fun q => ?_) ?_)
      · unfold isWorkFor
        rw [kind]
        rfl
      · unfold Table.add
        rw [kind]
  | worker | thread =>
      cases parent : r.span.parent with
      | none =>
          refine .inl (aside (fun q => ?_) ?_)
          · unfold isWorkFor
            rw [parent]
            exact Bool.and_false _
          · unfold Table.add
            rw [kind, parent]
      | some p =>
          refine counts p parent (by rw [kind]; decide) ?_
          unfold Table.add
          rw [kind, parent]
          dsimp only
          cases (t.of p).add r.span <;> rfl

/-- At no point is a sum of times out of range. -/
def Table.Fits (t : Table) (rs : List SpanRecord) : Prop :=
  ∀ n q, fits ((t.of q).more q (rs.take n)).millis = true

/-- Tallies are what the records say, in whatever order they come, as long as
every sum stays in range; where one does not, there are none. -/
theorem addAll_exact (t : Table) (rs : List SpanRecord)
    (start : ∀ q, fits (t.of q).millis = true) :
    (t.Fits rs ∧ ∃ t', t.addAll rs = .ok t'
        ∧ ∀ q, t'.of q = (t.of q).more q rs)
      ∨ ¬ t.Fits rs ∧ t.addAll rs = .error .sumRange := by
  have none_ (a : Tally) (q : SpanId) : a.more q [] = a := by
    show (⟨a.workers + 0, a.millis + 0⟩ : Tally) = a
    rw [Int.add_zero]
    rfl
  -- the induction is on the file, as the command reads it: the table after a
  -- line is where the rest of the file starts
  induction rs generalizing t with
  | nil =>
      refine .inl ⟨fun n q => ?_, t, rfl, fun q => (none_ _ q).symm⟩
      rw [List.take_nil, none_]
      exact start q
  | cons r rest ih =>
      have goes : t.addAll (r :: rest) = t.add r >>= fun t => t.addAll rest :=
        rfl
      rw [goes]
      rcases add_exact t r start with ⟨fit, t₁, first, tallies⟩ | ⟨out, fault⟩
      -- a prefix of the whole file is a prefix of the rest, or empty
      · have behind (q : SpanId) (ms : List SpanRecord) :
            (t₁.of q).more q ms = (t.of q).more q (r :: ms) := by
          rw [tallies, more_more]
          rfl
        have same : t₁.Fits rest ↔ t.Fits (r :: rest) := by
          constructor
          · intro fits n q
            cases n with
            | zero => rw [List.take_zero, none_]; exact start q
            | succ n => rw [List.take_succ_cons, ← behind]; exact fits n q
          · intro fits n q
            rw [behind, ← List.take_succ_cons]
            exact fits (n + 1) q
        rw [first]
        rcases ih t₁ (fun q => by rw [tallies]; exact fit q) with
          ⟨fits, t', done, all⟩ | ⟨out, fault⟩
        · exact .inl ⟨same.mp fits, t', done, fun q => by rw [all, behind]⟩
        · exact .inr ⟨fun fits => out (same.mpr fits), fault⟩
      · rw [fault]
        refine .inr ⟨fun fits => ?_, rfl⟩
        obtain ⟨q, no⟩ := out
        have := fits 1 q
        rw [List.take_succ_cons, List.take_zero, no] at this
        cases this

/-- Work that takes no negative time takes none in all. -/
theorem millisFor_nonneg (p : SpanId)
    (time : ∀ r ∈ rs, r.span.kind ≠ .task → 0 ≤ r.span.durationMs.toInt) :
    0 ≤ millisFor p rs := by
  refine List.sum_nonneg fun millis listed => ?_
  obtain ⟨r, works, rfl⟩ := List.mem_map.mp listed
  obtain ⟨mem, work⟩ := List.mem_filter.mp works
  exact time r mem (bne_iff_ne.mp (Bool.and_eq_true_iff.mp work).1)

end Tally

end TaskLedger
