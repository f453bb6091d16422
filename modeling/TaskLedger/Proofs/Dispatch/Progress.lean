/-
Whatever the order in which the units of a pool proceed, they get through.

A unit that is not over is at most five steps from its end (`Phase.left`).
Each of its steps takes it one nearer, however the step turns out, and leaves
the other units where they are. So a schedule that names a unit five times
sees it through, whatever it names in between (`follow_nearer`). Once no unit
of an executor is left the executor waits for nobody, and a wait for it is
over.
-/
import TaskLedger.Proofs.Dispatch.Await

namespace TaskLedger

namespace Phase

/-- How many steps a unit is from its end. -/
def left : Phase → Nat
  | .queued => 5
  | .begun _ => 4
  | .ran .. => 3
  | .ended .. => 2
  | .reported _ | .faulted => 1
  | .completed _ | .abandoned => 0

/-- No unit has more than five steps to go. -/
theorem left_le (p : Phase) : p.left ≤ 5 := by
  cases p <;> simp [left]

/-- A unit has none to go exactly if it is over. -/
theorem over_iff_left {p : Phase} : p.over = true ↔ p.left = 0 := by
  cases p <;> simp [left, Phase.over]

end Phase

namespace Dispatch

variable {d : Dispatch} {u v : UnitId} {s : Submitted}

-- ============================================================== one step

/-- A unit that is over stays as it is, and so does everything else. -/
theorem proceed_over (found : d.units[u]? = some s)
    (isOver : s.phase.over = true) : d.proceed u = d := by
  unfold proceed
  rw [found]
  dsimp only
  cases phase : s.phase with
  | completed | abandoned => rfl
  | _ => rw [phase] at isOver; cases isOver

/-- Any other unit gets one step nearer to its end, and only it moves. -/
theorem proceed_nearer (found : d.units[u]? = some s)
    (goesOn : s.phase.over = false) :
    ∃ e p, d.proceed u = setPhase u p e ∧ e.units = d.units
      ∧ p.left < s.phase.left := by
  unfold proceed
  rw [found]
  dsimp only
  cases phase : s.phase with
  | queued =>
      dsimp only
      split
      · exact ⟨_, _, rfl, rfl, by simp [Phase.left]⟩
      · exact ⟨_, _, rfl, rfl, by simp [Phase.left]⟩
  | begun w =>
      obtain ⟨l, -, he⟩ := perform_passage s.work d
      exact ⟨_, _, rfl, by rw [he], by simp [Phase.left]⟩
  | ran w failure => exact ⟨_, _, rfl, rfl, by simp [Phase.left]⟩
  | ended w failure =>
      dsimp only
      split
      · exact ⟨_, _, rfl, rfl, by simp [Phase.left]⟩
      · exact ⟨_, _, rfl, rfl, by simp [Phase.left]⟩
  | reported failure =>
      cases failure with
      | none => exact ⟨_, _, rfl, rfl, by simp [Phase.left]⟩
      | some cause => exact ⟨_, _, rfl, rfl, by simp [Phase.left]⟩
  | faulted => exact ⟨_, _, rfl, rfl, by simp [Phase.left]⟩
  | completed | abandoned => rw [phase] at goesOn; cases goesOn

/-- One step, as every unit sees it. -/
theorem proceed_left (u : UnitId) (found : d.units[v]? = some s) :
    ∃ p, (d.proceed u).units[v]? = some { s with phase := p }
      ∧ p.left ≤ s.phase.left - [u].count v := by
  by_cases own : u = v
  · subst own
    rw [List.count_singleton_self]
    cases isOver : s.phase.over with
    | true =>
        rw [proceed_over found isOver, found]
        have none := Phase.over_iff_left.mp isOver
        exact ⟨s.phase, rfl, by omega⟩
    | false =>
        obtain ⟨e, p, he, same, less⟩ := proceed_nearer found isOver
        refine ⟨p, ?_, by omega⟩
        rw [he, setPhase_self (by rw [same]; exact found)]
  · have none : [u].count v = 0 := by
      rw [List.count_singleton, if_neg (by simpa using own)]
    rw [none]
    refine ⟨s.phase, ?_, Nat.le_refl _⟩
    cases hu : d.units[u]? with
    | none =>
        unfold proceed
        rw [hu]
        exact found
    | some s' =>
        cases isOver : s'.phase.over with
        | true => rw [proceed_over hu isOver, found]
        | false =>
            obtain ⟨e, p, he, same, -⟩ := proceed_nearer hu isOver
            rw [he, setPhase_other (Ne.symm own), same, found]

-- ============================================================= schedules

/-- A schedule takes a unit as many steps nearer to its end as it names
it. -/
theorem follow_nearer (schedule : List UnitId)
    (found : d.units[v]? = some s) :
    ∃ p, (d.follow schedule).units[v]? = some { s with phase := p }
      ∧ p.left ≤ s.phase.left - schedule.count v := by
  induction schedule generalizing d s with
  | nil => exact ⟨s.phase, found, Nat.le_refl _⟩
  | cons u rest ih =>
      obtain ⟨p, hp, first⟩ := proceed_left u found
      obtain ⟨q, hq, later⟩ := ih hp
      refine ⟨q, hq, ?_⟩
      have count : (u :: rest).count v = [u].count v + rest.count v :=
        @List.count_append _ _ v [u] rest
      dsimp only at later
      omega

/-- No unit comes by a step, and so none by a schedule. -/
theorem proceed_size (u : UnitId) (d : Dispatch) :
    (d.proceed u).units.size = d.units.size := by
  cases found : d.units[u]? with
  | none =>
      unfold proceed
      rw [found]
  | some s =>
      cases isOver : s.phase.over with
      | true => rw [proceed_over found isOver]
      | false =>
          obtain ⟨e, p, he, same, -⟩ := proceed_nearer found isOver
          rw [he, ← same]
          exact Array.size_modify

/-- Steps hand in no units. -/
theorem follow_size (schedule : List UnitId) (d : Dispatch) :
    (d.follow schedule).units.size = d.units.size := by
  induction schedule generalizing d with
  | nil => rfl
  | cons u rest ih => exact (ih (d.proceed u)).trans (proceed_size u d)

/-- A schedule that names a unit five times sees it through. -/
theorem follow_over {schedule : List UnitId} (often : 5 ≤ schedule.count v)
    (after : (d.follow schedule).units[v]? = some s) :
    s.phase.over = true := by
  have lt := (Array.getElem?_eq_some_iff.mp after).1
  rw [follow_size] at lt
  obtain ⟨p, hp, near⟩ :=
    follow_nearer schedule (Array.getElem?_eq_getElem lt)
  rw [hp] at after
  obtain rfl := Option.some.inj after
  have most := d.units[v].phase.left_le
  exact Phase.over_iff_left.mpr (by dsimp only; omega)

/-- A schedule as a run. -/
theorem run_schedule (schedule : List UnitId) (d : Dispatch) :
    (DispatchOp.run (schedule.map .proceed) d).1 = d.follow schedule := by
  induction schedule generalizing d with
  | nil => rfl
  | cons u rest ih => exact ih (d.proceed u)

/-- While the pool is alive, letting units proceed is ordinary. -/
theorem ordinary_schedule (schedule : List UnitId) (d : Dispatch) :
    DispatchOp.Ordinary (schedule.map .proceed) d = true := by
  induction schedule generalizing d with
  | nil => rfl
  | cons u rest ih => exact ih (d.proceed u)

/-- Steps ask for no numbers that were not set aside as the units were handed
in. -/
theorem asked_schedule (schedule : List UnitId) :
    DispatchOp.asked (schedule.map .proceed) = 0 := by
  induction schedule with
  | nil => rfl
  | cons u rest ih => exact (Nat.zero_add _).trans ih

/-- A run in two parts is ordinary if both are, and asks for the numbers of
both. -/
theorem ordinary_append (ops more : List DispatchOp) (d : Dispatch) :
    DispatchOp.Ordinary (ops ++ more) d
      = (DispatchOp.Ordinary ops d
        && DispatchOp.Ordinary more (DispatchOp.run ops d).1) := by
  induction ops generalizing d with
  | nil => rfl
  | cons op rest ih =>
      rw [List.cons_append, DispatchOp.Ordinary, DispatchOp.Ordinary, ih,
        Bool.and_assoc]
      rfl

/-- What a run asks for is the sum of what its parts ask for. -/
theorem asked_append (ops more : List DispatchOp) :
    DispatchOp.asked (ops ++ more)
      = DispatchOp.asked ops + DispatchOp.asked more := by
  induction ops with
  | nil => exact (Nat.zero_add _).symm
  | cons op rest ih =>
      rw [List.cons_append, DispatchOp.asked, DispatchOp.asked, ih,
        Nat.add_assoc]

/-- An executor stays through a schedule. -/
theorem follow_pooled (live : d.stopped = false) (schedule : List UnitId)
    {x : ExecutorId} {p : PooledState} (pooled : d.pooled? x = some p) :
    ∃ q, (d.follow schedule).pooled? x = some q := by
  rw [← run_schedule]
  refine run_holds (P := fun d => ∃ q, d.pooled? x = some q) ?_ live
    (ordinary_schedule schedule d) ⟨p, pooled⟩
  rintro d n evs d' ⟨q, found⟩ turn
  obtain ⟨q', found', -⟩ := turn.pooled found
  exact ⟨q', found'⟩

-- ================================================================= waits

/-- A wait for an executor is over exactly when its units are. -/
theorem Account.endAwait_iff {seen : List Event} (h : Account seen d)
    {x : ExecutorId} {p : PooledState} (pooled : d.pooled? x = some p) :
    (d.endAwait x).isSome = true
      ↔ ∀ (u : UnitId) (s : Submitted), d.units[u]? = some s →
          s.executor = x → s.phase.over = true :=
  Tallied.endAwait_iff h.count pooled

end Dispatch

end TaskLedger
