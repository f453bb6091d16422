/-
What a pooled executor counts and collects, against what an observer notes.

A history is read for an executor and its units: the units that it was
given (`submissions`), the ones that it counted off, all of them
(`completions`) or since its owner was last told something (`recent`), how
each one turned out (`outcomes`), and the causes that its owner was told
(`toldTo`). `Account` ties the readings to the state. The count is the
number of units that are not over, so it never runs below zero; every unit
is run once and counted off once; the causes that are kept are the ones of
the recent units, and with the causes that were told before them they are
the causes of all that were counted off, in that order.

What the count is needs no history (`Tallied`), so it is said first: a pool
that stops keeps it as well.
-/
import Mathlib.Data.List.Induction
import TaskLedger.Proofs.Dispatch.Booking
import TaskLedger.Proofs.Dispatch.Keys

namespace TaskLedger

-- ============================================================= readings

namespace Event

/-- The work that an executor is given. -/
def given (x : ExecutorId) : Event → List Work
  | .submitted y w => if y = x then [w] else []
  | _ => []

/-- The unit that an executor counts off. -/
def off (x : ExecutorId) : Event → List UnitId
  | .countedOff y u => if y = x then [u] else []
  | _ => []

/-- How a unit turns out. -/
def outcome (u : UnitId) : Event → List (Option String)
  | .performed v failure => if v = u then [failure] else []
  | _ => []

/-- The causes that the owner of an executor is told. -/
def tells (x : ExecutorId) : Event → List String
  | .told y causes => if y = x then causes else []
  | _ => []

/-- A wait for an executor is over. -/
def endsWait (x : ExecutorId) : Event → Bool
  | .told y _ => y == x
  | _ => false

end Event

/-- The units that an executor was given. -/
def submissions (x : ExecutorId) (seen : List Event) : List Work :=
  seen.flatMap (Event.given x)

/-- The units that an executor counted off. -/
def completions (x : ExecutorId) (seen : List Event) : List UnitId :=
  seen.flatMap (Event.off x)

/-- The units that an executor counted off since its owner was last told
something. -/
def recent (x : ExecutorId) (seen : List Event) : List UnitId :=
  seen.foldl (fun us e => if e.endsWait x then [] else us ++ e.off x) []

/-- How a unit turned out, for each time it was run. -/
def outcomes (u : UnitId) (seen : List Event) : List (Option String) :=
  seen.flatMap (Event.outcome u)

/-- The causes that the owner of an executor was told. -/
def toldTo (x : ExecutorId) (seen : List Event) : List String :=
  seen.flatMap (Event.tells x)

/-- The causes of some units, for each time they were run. -/
def causesOver (us : List UnitId) (seen : List Event) : List String :=
  us.flatMap fun u => (outcomes u seen).flatMap Option.toList

section

variable (x : ExecutorId) (u : UnitId) (seen : List Event) (e : Event)

/-- What was handed in grows by what is handed in now. -/
theorem submissions_snoc :
    submissions x (seen ++ [e]) = submissions x seen ++ e.given x := by
  unfold submissions
  rw [List.flatMap_append, List.flatMap_singleton]

/-- What was counted off grows by what is counted off now. -/
theorem completions_snoc :
    completions x (seen ++ [e]) = completions x seen ++ e.off x := by
  unfold completions
  rw [List.flatMap_append, List.flatMap_singleton]

/-- What came off since the last wait starts over with a wait. -/
theorem recent_snoc :
    recent x (seen ++ [e])
      = if e.endsWait x then [] else recent x seen ++ e.off x := by
  unfold recent
  rw [List.foldl_append]
  rfl

theorem recent_of (h : e.endsWait x = false) :
    recent x (seen ++ [e]) = recent x seen ++ e.off x := by
  rw [recent_snoc, if_neg]
  rw [h]
  exact Bool.false_ne_true

/-- Those are the last ones that it counted off. -/
theorem recent_suffix : recent x seen <:+ completions x seen := by
  induction seen using List.reverseRecOn with
  | nil => exact List.suffix_rfl
  | append_singleton seen e ih =>
      rw [recent_snoc, completions_snoc]
      split
      · exact List.nil_suffix
      · obtain ⟨before, he⟩ := ih
        rw [← he, List.append_assoc]
        exact List.suffix_append before _

/-- What a unit came to is noted once, as it comes to it. -/
theorem outcomes_snoc :
    outcomes u (seen ++ [e]) = outcomes u seen ++ e.outcome u := by
  unfold outcomes
  rw [List.flatMap_append, List.flatMap_singleton]

/-- What an owner was told grows by what it is told now. -/
theorem toldTo_snoc :
    toldTo x (seen ++ [e]) = toldTo x seen ++ e.tells x := by
  unfold toldTo
  rw [List.flatMap_append, List.flatMap_singleton]

/-- The causes of units that are not run any more stand. -/
theorem causesOver_snoc (us : List UnitId)
    (rest : ∀ u ∈ us, e.outcome u = []) :
    causesOver us (seen ++ [e]) = causesOver us seen := by
  unfold causesOver
  rw [List.flatMap_def, List.flatMap_def]
  congr 1
  refine List.map_congr_left fun u hu => ?_
  rw [outcomes_snoc, rest u hu, List.append_nil]

end

namespace Phase

/-- How the unit turned out, once it was run. -/
def outcome? : Phase → Option (Option String)
  | .ran _ f | .ended _ f | .reported f | .completed f => some f
  | _ => none

end Phase

namespace Dispatch

variable {d d' : Dispatch} {n b : Nat} {evs seen : List Event}

/-- How many units an executor waits for; none if there is no such one. -/
def outstandingAt (x : ExecutorId) (d : Dispatch) : Nat :=
  ((d.pooled? x).map PooledState.outstanding).getD 0

/-- The causes that an executor keeps. -/
def failuresAt (x : ExecutorId) (d : Dispatch) : List String :=
  ((d.pooled? x).map PooledState.failures).getD []

/-- The work that an executor was given, by the table of units. -/
def worksOf (x : ExecutorId) (d : Dispatch) : List Work :=
  d.units.toList.flatMap fun s => if s.executor = x then [s.work] else []

/-- The work of an executor's units does not depend on how far they are. -/
theorem worksOf_setPhase (x : ExecutorId) (u : UnitId) (q : Phase)
    (d : Dispatch) : (d.setPhase u q).worksOf x = d.worksOf x := by
  unfold worksOf
  rw [List.flatMap_def, List.flatMap_def, map_setPhase fun _ _ => rfl]

/-- The units of an executor that are not over. -/
def open_ (x : ExecutorId) (s : Submitted) : Bool :=
  s.executor == x && !s.phase.over

-- ============================================================== counting

/-- An executor that is made counts nothing and keeps no causes. -/
theorem at_push (x : ExecutorId) (e : Executor)
    (fresh : ∀ p, e = .pooled p → DispatchOp.freshFor p d.ledger = true) :
    outstandingAt x { d with executors := d.executors.push e }
        = d.outstandingAt x
      ∧ failuresAt x { d with executors := d.executors.push e }
        = d.failuresAt x := by
  unfold outstandingAt failuresAt
  rw [pooled?_push]
  split
  · next here =>
      have none : d.pooled? x = none :=
        pooled?_beyond (Nat.le_of_eq here.symm)
      rw [none]
      cases e with
      | direct => exact ⟨rfl, rfl⟩
      | pooled p =>
          have fresh := eq_of_beq (Bool.and_eq_true_iff.mp (fresh p rfl)).1
          dsimp only
          rw [fresh]
          exact ⟨rfl, rfl⟩
  · exact ⟨rfl, rfl⟩

/-- What an executor counts and keeps is read off its state. -/
theorem at_of {x : ExecutorId} {p : PooledState} (h : d.pooled? x = some p) :
    d.outstandingAt x = p.outstanding ∧ d.failuresAt x = p.failures := by
  unfold outstandingAt failuresAt
  rw [h]
  exact ⟨rfl, rfl⟩

/-- Another executor is not touched. -/
theorem at_other {x y : ExecutorId} (ne : x ≠ y)
    (f : PooledState → PooledState) (d : Dispatch) :
    (d.onPooled x f).outstandingAt y = d.outstandingAt y
      ∧ (d.onPooled x f).failuresAt y = d.failuresAt y := by
  unfold outstandingAt failuresAt
  rw [pooled?_onPooled, if_neg ne]
  exact ⟨rfl, rfl⟩

theorem at_self {x : ExecutorId} {p : PooledState} (h : d.pooled? x = some p)
    (f : PooledState → PooledState) :
    (d.onPooled x f).outstandingAt x = (f p).outstanding
      ∧ (d.onPooled x f).failuresAt x = (f p).failures := by
  refine at_of ?_
  rw [pooled?_onPooled, if_pos rfl, h]
  rfl

/-- Every executor counts the units of its own that are not over. -/
def Tallied (d : Dispatch) : Prop :=
  ∀ x, d.outstandingAt x = d.countUnits (open_ x)

section

variable {x : ExecutorId} {p : PooledState} {u : UnitId} {s : Submitted}
  {q : Phase}

/-- A unit may move between two phases that are both over or both not. -/
theorem Tallied.goOn (h : Tallied d) (found : d.units[u]? = some s)
    (isOver : q.over = s.phase.over) : Tallied (d.setPhase u q) := by
  intro x
  have same := countUnits_setPhase (p := open_ x) found q
  have pred : open_ x { s with phase := q } = open_ x s := by
    unfold open_
    rw [isOver]
  rw [pred] at same
  show d.outstandingAt x = _
  rw [h x]
  omega

/-- A unit that comes is counted. -/
theorem Tallied.handed (h : Tallied d) (pooled : d.pooled? x = some p)
    (w : Work) (l : Ledger) :
    Tallied { d with
      ledger := l
      executors := (d.onPooled x charged).executors
      units := d.units.push (unitOf x p w) } := by
  intro y
  show (d.onPooled x charged).outstandingAt y
    = (d.units.push (unitOf x p w)).toList.countP (open_ y)
  have before : d.outstandingAt y = d.units.toList.countP (open_ y) := h y
  rw [countUnits_push, ← before]
  by_cases own : x = y
  · subst own
    rw [(at_self pooled charged).1, (at_of pooled).1,
      if_pos (by simp [open_, unitOf, Phase.over])]
    rfl
  · rw [(at_other own charged d).1, if_neg (by simp [open_, unitOf, own])]
    rfl

/-- A unit that is counted off is over. -/
theorem Tallied.countOff (h : Tallied d) (failure : Option String)
    (pooled : d.pooled? s.executor = some p)
    (found : d.units[u]? = some s) (goesOn : s.phase.over = false)
    (isOver : q.over = true) :
    Tallied ((d.onPooled s.executor (credited failure)).setPhase u q) := by
  intro x
  have moved := countUnits_setPhase (p := open_ x) found q
  have after : open_ x { s with phase := q } = false := by
    simp [open_, isOver]
  rw [after, if_neg Bool.false_ne_true] at moved
  show (d.onPooled s.executor (credited failure)).outstandingAt x
    = (d.setPhase u q).countUnits (open_ x)
  by_cases own : s.executor = x
  · subst own
    have before : open_ s.executor s = true := by simp [open_, goesOn]
    have count := h s.executor
    rw [before, if_pos rfl] at moved
    rw [(at_of pooled).1] at count
    rw [(at_self pooled _).1]
    show p.outstanding - 1 = _
    omega
  · have before : open_ x s = false := by simp [open_, own]
    rw [before, if_neg Bool.false_ne_true] at moved
    rw [(at_other own _ d).1, h x]
    omega

/-- An owner that is told something leaves as much to wait for. -/
theorem outstandingAt_cleared (pooled : d.pooled? x = some p)
    (y : ExecutorId) :
    (d.onPooled x cleared).outstandingAt y = d.outstandingAt y := by
  by_cases own : x = y
  · subst own
    rw [(at_self pooled cleared).1, (at_of pooled).1]
    rfl
  · exact (at_other own cleared d).1

/-- A unit that comes brings no cause. -/
theorem failuresAt_charged (pooled : d.pooled? x = some p)
    (y : ExecutorId) :
    (d.onPooled x charged).failuresAt y = d.failuresAt y := by
  by_cases own : x = y
  · subst own
    rw [(at_self pooled charged).2, (at_of pooled).2]
    rfl
  · exact (at_other own charged d).2

/-- An executor waits for nothing exactly when its units are over. -/
theorem Tallied.idle_iff (h : Tallied d) (pooled : d.pooled? x = some p) :
    p.outstanding = 0
      ↔ ∀ (u : UnitId) (s : Submitted), d.units[u]? = some s →
          s.executor = x → s.phase.over = true := by
  have count : p.outstanding = d.units.toList.countP (open_ x) := by
    rw [← (at_of pooled).1]
    exact h x
  rw [count, List.countP_eq_zero]
  constructor
  · intro none u s found own
    have notOpen := none s
      (List.mem_of_getElem? (Array.getElem?_toList.trans found))
    cases isOver : s.phase.over with
    | true => rfl
    | false => exact absurd (by simp [open_, own, isOver]) notOpen
  · intro isOver s mem
    obtain ⟨u, found⟩ := List.getElem?_of_mem mem
    rw [Array.getElem?_toList] at found
    intro on
    obtain ⟨own, goesOn⟩ := Bool.and_eq_true_iff.mp on
    rw [isOver u s found (eq_of_beq own)] at goesOn
    cases goesOn

/-- While one of its units is not over, it waits for somebody. -/
theorem Tallied.waits (h : Tallied d) (pooled : d.pooled? x = some p)
    (found : d.units[u]? = some s) (own : s.executor = x)
    (goesOn : s.phase.over = false) : 0 < p.outstanding := by
  rw [Nat.pos_iff_ne_zero]
  intro idle
  rw [(h.idle_iff pooled).mp idle u s found own] at goesOn
  cases goesOn

/-- So a wait is over exactly when the units are. -/
theorem Tallied.endAwait_iff (h : Tallied d)
    (pooled : d.pooled? x = some p) :
    (d.endAwait x).isSome = true
      ↔ ∀ (u : UnitId) (s : Submitted), d.units[u]? = some s →
          s.executor = x → s.phase.over = true := by
  rw [← h.idle_iff pooled]
  unfold endAwait
  rw [pooled]
  dsimp only
  split
  · next idle => simp [idle]
  · next busy => simp [busy]

end

-- ============================================================== account

/-- The state of the executors is what the history says. -/
structure Account (seen : List Event) (d : Dispatch) : Prop where
  count : ∀ x, d.outstandingAt x = d.countUnits (open_ x)
  balance : ∀ x, d.outstandingAt x + (completions x seen).length
    = (submissions x seen).length
  given : ∀ x, d.worksOf x = submissions x seen
  ran : ∀ {u : UnitId} {s : Submitted}, d.units[u]? = some s →
    outcomes u seen = s.phase.outcome?.toList
  off : ∀ {u : UnitId} {s : Submitted}, d.units[u]? = some s → ∀ x,
    (completions x seen).count u
      = if s.executor = x ∧ s.phase.over = true then 1 else 0
  unknown : ∀ {u : UnitId}, d.units.size ≤ u →
    outcomes u seen = [] ∧ ∀ x, u ∉ completions x seen
  kept : ∀ x, d.failuresAt x = causesOver (recent x seen) seen
  told : ∀ x, toldTo x seen ++ d.failuresAt x
    = causesOver (completions x seen) seen

/-- Where nothing happened, the account is empty, and so are the counts. -/
theorem Blank.account (h : d.Blank) : Account [] d where
  count := by
    intro x
    unfold outstandingAt countUnits
    rw [h.pooled?, h.units]
    rfl
  balance := by
    intro x
    unfold outstandingAt
    rw [h.pooled?]
    rfl
  given := by
    intro x
    unfold worksOf
    rw [h.units]
    rfl
  ran := by intro u s found; simp [h.units] at found
  off := by intro u s found; simp [h.units] at found
  unknown := fun _ => ⟨rfl, fun x mem => by cases mem⟩
  kept := by
    intro x
    unfold failuresAt
    rw [h.pooled?]
    rfl
  told := by
    intro x
    unfold failuresAt
    rw [h.pooled?]
    rfl

/-- Where executors and units do not change, neither does the account. -/
theorem Account.beside (h : Account seen d) (l : Ledger)
    (ran : List String) : Account seen { d with ledger := l, ran } :=
  ⟨h.count, h.balance, h.given, h.ran, h.off, h.unknown, h.kept, h.told⟩

/-- A unit may move between two phases that are both over or both not, and
say the same of how it turned out. -/
theorem Account.goOn (h : Account seen d) {u : UnitId} {s : Submitted}
    {q : Phase} (found : d.units[u]? = some s)
    (isOver : q.over = s.phase.over)
    (outcome : q.outcome? = s.phase.outcome?) :
    Account seen (d.setPhase u q) where
  count := Tallied.goOn h.count found isOver
  balance := h.balance
  given := by
    intro x
    rw [worksOf_setPhase]
    exact h.given x
  ran := by
    intro v s' found'
    rcases setPhase_cases found found' with ⟨rfl, rfl⟩ | ⟨-, still⟩
    · rw [outcome]
      exact h.ran found
    · exact h.ran still
  off := by
    intro v s' found' x
    rcases setPhase_cases found found' with ⟨rfl, rfl⟩ | ⟨-, still⟩
    · rw [isOver]
      exact h.off found x
    · exact h.off still x
  unknown := by
    intro v le
    refine h.unknown ?_
    have size : (d.setPhase u q).units.size = d.units.size :=
      Array.size_modify
    rw [← size]
    exact le
  kept := h.kept
  told := h.told

/-- A wait that is over tells all that was kept. -/
theorem Account.tell (h : Account seen d) {x : ExecutorId} {p : PooledState}
    (pooled : d.pooled? x = some p) :
    Account (seen ++ [.told x p.failures]) (d.onPooled x cleared) where
  count := fun y => (outstandingAt_cleared pooled y).trans (h.count y)
  balance := by
    intro y
    rw [outstandingAt_cleared pooled, completions_snoc, submissions_snoc]
    simp only [Event.off, Event.given, List.append_nil]
    exact h.balance y
  given := by
    intro y
    rw [submissions_snoc]
    simp only [Event.given, List.append_nil]
    exact h.given y
  ran := by
    intro u s found
    rw [outcomes_snoc]
    simp only [Event.outcome, List.append_nil]
    exact h.ran found
  off := by
    intro u s found y
    rw [completions_snoc]
    simp only [Event.off, List.append_nil]
    exact h.off found y
  unknown := by
    intro u le
    rw [outcomes_snoc]
    simp only [completions_snoc, Event.outcome, Event.off, List.append_nil]
    exact h.unknown le
  kept := by
    intro y
    rw [causesOver_snoc _ _ _ fun _ _ => rfl]
    -- the owner that is told starts a new list, every other one keeps its own
    by_cases e : x = y
    · subst e
      have ends : (Event.told x p.failures).endsWait x = true :=
        beq_self_eq_true x
      rw [recent_snoc, if_pos ends, (at_self pooled cleared).2]
      rfl
    · have goesOn : (Event.told x p.failures).endsWait y = false :=
        beq_eq_false_iff_ne.mpr e
      rw [recent_of _ _ _ goesOn, (at_other e cleared d).2]
      simp only [Event.off, List.append_nil]
      exact h.kept y
  told := by
    intro y
    rw [toldTo_snoc, completions_snoc, causesOver_snoc _ _ _ fun _ _ => rfl]
    simp only [Event.tells, Event.off, List.append_nil]
    rw [← h.told]
    by_cases e : x = y
    · subst e
      rw [if_pos rfl, (at_self pooled cleared).2, (at_of pooled).2]
      exact List.append_nil _
    · rw [if_neg e, (at_other e cleared d).2, List.append_nil]

/-- A unit that is handed in is one more on the way, and nothing is known of
what it comes to. -/
theorem Account.submit (h : Account seen d)
    {x : ExecutorId} {p : PooledState} (w : Work)
    (pooled : d.pooled? x = some p) (l : Ledger) :
    Account (seen ++ [.submitted x w]) { d with
      ledger := l
      executors := (d.onPooled x charged).executors
      units := d.units.push (unitOf x p w) } := by
  refine { count := Tallied.handed h.count pooled w l, balance := ?_,
           given := ?_, ran := ?_, off := ?_, unknown := ?_, kept := ?_,
           told := ?_ }
  · intro y
    show (d.onPooled x charged).outstandingAt y + _ = _
    rw [completions_snoc, submissions_snoc]
    simp only [Event.off, Event.given, List.append_nil]
    rw [List.length_append, ← h.balance]
    by_cases e : x = y
    · subst e
      rw [(at_self pooled charged).1, (at_of pooled).1, if_pos rfl]
      exact Nat.add_right_comm _ _ _
    · rw [(at_other e charged d).1, if_neg e]
      rfl
  · intro y
    rw [submissions_snoc, ← h.given]
    unfold worksOf
    rw [Array.toList_push, List.flatMap_append, List.flatMap_singleton]
    rfl
  · intro u s found
    rw [outcomes_snoc]
    simp only [Event.outcome, List.append_nil]
    rcases push_back found with prior | ⟨rfl, rfl⟩
    · exact h.ran prior
    · exact (h.unknown (Nat.le_refl _)).1
  · intro u s found y
    rw [completions_snoc]
    simp only [Event.off, List.append_nil]
    rcases push_back found with prior | ⟨rfl, rfl⟩
    · exact h.off prior y
    · rw [List.count_eq_zero.mpr ((h.unknown (Nat.le_refl _)).2 y),
        if_neg (by simp [unitOf, Phase.over])]
  · intro u le
    have le : (d.units.push (unitOf x p w)).size ≤ u := le
    rw [Array.size_push] at le
    rw [outcomes_snoc]
    simp only [completions_snoc, Event.outcome, Event.off, List.append_nil]
    exact h.unknown (Nat.le_of_succ_le le)
  · intro y
    rw [recent_of _ _ _ rfl, causesOver_snoc _ _ _ fun _ _ => rfl]
    simp only [Event.off, List.append_nil]
    rw [← h.kept]
    exact failuresAt_charged pooled y
  · intro y
    rw [toldTo_snoc, completions_snoc, causesOver_snoc _ _ _ fun _ _ => rfl]
    simp only [Event.tells, Event.off, List.append_nil]
    rw [← h.told, ← failuresAt_charged pooled y]
    rfl

/-- When a unit is run, what it comes to is noted, which has not been known
before. The counts stay as they are until the unit is counted off. -/
theorem Account.perform (h : Account seen d) {u : UnitId} {s : Submitted}
    {w : WorkerId} (found : d.units[u]? = some s)
    (phase : s.phase = .begun w) (failure : Option String) :
    Account (seen ++ [.performed u failure])
      (d.setPhase u (.ran w failure)) := by
  -- nobody has counted the unit off
  have waiting (x : ExecutorId) : u ∉ completions x seen := by
    rw [← List.count_eq_zero, h.off found x, if_neg]
    rw [phase]
    rintro ⟨-, isOver⟩
    cases isOver
  have causes {x : ExecutorId} {us : List UnitId}
      (sub : us ⊆ completions x seen) :
      causesOver us (seen ++ [.performed u failure])
        = causesOver us seen := by
    refine causesOver_snoc _ _ _ ?_
    intro v mem
    have ne : u ≠ v := by
      rintro rfl
      exact waiting x (sub mem)
    simp [Event.outcome, ne]
  refine { count := Tallied.goOn h.count found (by rw [phase]; rfl),
           balance := ?_, given := ?_, ran := ?_, off := ?_, unknown := ?_,
           kept := ?_, told := ?_ }
  · intro x
    rw [completions_snoc, submissions_snoc]
    simp only [Event.off, Event.given, List.append_nil]
    exact h.balance x
  · intro x
    rw [submissions_snoc]
    simp only [Event.given, List.append_nil]
    rw [worksOf_setPhase]
    exact h.given x
  · intro v s' found'
    rw [outcomes_snoc]
    rcases setPhase_cases found found' with ⟨rfl, rfl⟩ | ⟨ne, still⟩
    · rw [h.ran found, phase]
      simp [Event.outcome, Phase.outcome?]
    · rw [h.ran still]
      simp [Event.outcome, Ne.symm ne]
  · intro v s' found' x
    rw [completions_snoc]
    simp only [Event.off, List.append_nil]
    rcases setPhase_cases found found' with ⟨rfl, rfl⟩ | ⟨-, still⟩
    · rw [h.off found x, phase]
      rfl
    · exact h.off still x
  · intro v le
    have size : (d.setPhase u (.ran w failure)).units.size = d.units.size :=
      Array.size_modify
    rw [size] at le
    have lt := (Array.getElem?_eq_some_iff.mp found).1
    have ne : u ≠ v := by
      rintro rfl
      exact absurd lt (Nat.not_lt.mpr le)
    rw [outcomes_snoc]
    simp only [completions_snoc, Event.outcome, Event.off, if_neg ne,
      List.append_nil]
    exact h.unknown le
  · intro x
    rw [recent_of _ _ _ rfl]
    simp only [Event.off, List.append_nil]
    rw [causes (recent_suffix x seen).subset]
    exact h.kept x
  · intro x
    rw [toldTo_snoc, completions_snoc]
    simp only [Event.tells, Event.off, List.append_nil]
    rw [causes (List.Subset.refl _)]
    exact h.told x

/-- A unit that is counted off is over, and its cause is kept. -/
theorem Account.countOff (h : Account seen d) {u : UnitId} {s : Submitted}
    {p : PooledState} {failure : Option String}
    (pooled : d.pooled? s.executor = some p) (found : d.units[u]? = some s)
    (phase : s.phase = .reported failure) :
    Account (seen ++ [.countedOff s.executor u])
      ((d.onPooled s.executor (credited failure)).setPhase u
        (.completed failure)) := by
  have goesOn : s.phase.over = false := by rw [phase]; rfl
  -- the executor waits for this unit at least
  have waits : 0 < p.outstanding :=
    Tallied.waits h.count pooled found rfl goesOn
  have own (us : List UnitId) : causesOver (us ++ [u]) seen
      = causesOver us seen ++ failure.toList := by
    unfold causesOver
    rw [List.flatMap_append, List.flatMap_singleton, h.ran found, phase]
    show _ ++ List.flatMap Option.toList [failure] = _
    rw [List.flatMap_singleton]
  refine { count := Tallied.countOff h.count failure pooled found goesOn rfl,
           balance := ?_, given := ?_, ran := ?_, off := ?_, unknown := ?_,
           kept := ?_, told := ?_ }
  · intro x
    show (d.onPooled s.executor (credited failure)).outstandingAt x + _ = _
    have before := h.balance x
    rw [completions_snoc, submissions_snoc]
    simp only [Event.off, Event.given, List.append_nil]
    by_cases e : s.executor = x
    · rw [← e, (at_of pooled).1] at before
      rw [← e, (at_self pooled _).1, if_pos rfl, List.length_append, ← before]
      show p.outstanding - 1 + (_ + 1) = _
      omega
    · rw [(at_other e _ d).1, if_neg e, List.append_nil]
      exact before
  · intro x
    rw [submissions_snoc]
    simp only [Event.given, List.append_nil]
    rw [worksOf_setPhase]
    exact h.given x
  · intro v s' found'
    rw [outcomes_snoc]
    simp only [Event.outcome, List.append_nil]
    rcases setPhase_cases (d := d.onPooled s.executor (credited failure))
      found found' with ⟨rfl, rfl⟩ | ⟨-, still⟩
    · rw [h.ran found, phase]
      rfl
    · exact h.ran still
  · intro v s' found' x
    rw [completions_snoc, List.count_append]
    rcases setPhase_cases (d := d.onPooled s.executor (credited failure))
      found found' with ⟨rfl, rfl⟩ | ⟨ne, still⟩
    · have before := h.off found x
      rw [phase, if_neg (by rintro ⟨-, isOver⟩; cases isOver)] at before
      rw [before]
      by_cases e : s.executor = x
      · simp [Event.off, e, Phase.over]
      · simp [Event.off, e]
    · have still : d.units[v]? = some s' := still
      rw [h.off still x]
      by_cases e : s.executor = x
      · simp [Event.off, e, Ne.symm ne]
      · simp [Event.off, e]
  · intro v le
    have size : ((d.onPooled s.executor (credited failure)).setPhase u
        (.completed failure)).units.size = d.units.size := Array.size_modify
    rw [size] at le
    have lt := (Array.getElem?_eq_some_iff.mp found).1
    have ne : v ≠ u := by
      rintro rfl
      exact absurd lt (Nat.not_lt.mpr le)
    obtain ⟨none, absent⟩ := h.unknown le
    rw [outcomes_snoc]
    simp only [Event.outcome, List.append_nil]
    refine ⟨none, ?_⟩
    intro x mem
    rw [completions_snoc] at mem
    rcases List.mem_append.mp mem with old | new
    · exact absent x old
    · by_cases e : s.executor = x
      · simp only [Event.off, if_pos e, List.mem_singleton] at new
        exact ne new
      · simp only [Event.off, if_neg e, List.not_mem_nil] at new
  · intro x
    show (d.onPooled s.executor (credited failure)).failuresAt x = _
    rw [recent_of _ _ _ rfl, causesOver_snoc _ _ _ fun _ _ => rfl]
    simp only [Event.off]
    by_cases e : s.executor = x
    · rw [← e, (at_self pooled _).2, if_pos rfl, own, ← h.kept,
        (at_of pooled).2]
      rfl
    · rw [(at_other e _ d).2, if_neg e, List.append_nil]
      exact h.kept x
  · intro x
    show toldTo x _ ++ (d.onPooled s.executor
      (credited failure)).failuresAt x = _
    rw [toldTo_snoc, completions_snoc, causesOver_snoc _ _ _ fun _ _ => rfl]
    simp only [Event.tells, Event.off, List.append_nil]
    by_cases e : s.executor = x
    · rw [← e, (at_self pooled _).2, if_pos rfl, own, ← h.told,
        (at_of pooled).2, List.append_assoc]
      rfl
    · rw [(at_other e _ d).2, if_neg e, List.append_nil]
      exact h.told x

/-- The account is kept through every turn, as long as no unit is given
up. -/
theorem Account.turn (h : Account seen d) (linked : Linked d)
    (intact : Intact d) (intact' : Intact d') (turn : Turn d n evs d') :
    Account (seen ++ evs) d' := by
  cases turn with
  | @aside n l ran calm =>
      rw [List.append_nil]
      exact h.beside l ran
  | joined e fresh =>
      rw [List.append_nil]
      have same (x : ExecutorId) := at_push x e fresh
      refine ⟨?_, ?_, h.given, h.ran, h.off, h.unknown, ?_, ?_⟩
      · intro x
        rw [(same x).1]
        exact h.count x
      · intro x
        rw [(same x).1]
        exact h.balance x
      · intro x
        rw [(same x).2]
        exact h.kept x
      · intro x
        rw [(same x).2]
        exact h.told x
  | told pooled idle => exact h.tell pooled
  | submitted w pooled => exact h.submit w pooled _
  | @begun u s m w found queued calm finds =>
      rw [List.append_nil]
      exact (h.beside (m.startWorker w) d.ran).goOn found
        (by rw [queued]; rfl) (by rw [queued]; rfl)
  | @performed u s w l ran found phase calm noted =>
      exact (h.beside l ran).perform found phase _
  | @ended u s w failure found phase =>
      rw [List.append_nil]
      exact (h.beside (d.ledger.endWorker w) d.ran).goOn found
        (by rw [phase]; rfl) (by rw [phase]; rfl)
  | @reported u s w failure found phase answer =>
      rw [List.append_nil]
      exact (h.beside _ d.ran).goOn found (by rw [phase]; rfl)
        (by rw [phase]; rfl)
  -- a report that faults leaves a unit that is not intact
  | @faulted u s w f failure found phase answer =>
      have given := intact'.unit (setPhase_self (d := { d with
        ledger := (Ledger.OnEntry.report s.entry w d.ledger).1 }) found
        .faulted)
      cases given
  | @completed u s l failure found phase calm =>
      obtain ⟨p, pooled, -, -⟩ := linked.unit found
      exact (h.beside l d.ran).countOff pooled found phase
  | @abandoned u s found phase =>
      have given := intact.unit found
      rw [phase] at given
      cases given

end Dispatch

end TaskLedger
