/-
What a run has run, and where in the run each unit came to its outcome.

A dispatch lists the actions that were run, in their order (`Dispatch.ran`).
`performed` reads the same off the operations, with the executor that each was
run for, so the list is told by the run (`ran_run`). Of a pooled executor the
two sides are counted against each other: its units that a thread has been with
are as many, work by work, as were run for it (`RanFor`). A turn changes both by
the same unit or neither, and once all units are over the works that were run are
the works that were submitted, each as often, in some order (`RanFor.perm`).

The outcome of a unit was found at one operation of the run, the step that runs
the unit, and it is what running it there comes to (`outcome_traced`).
-/
import TaskLedger.Proofs.Dispatch.Account
import TaskLedger.Proofs.Dispatch.Moves

namespace TaskLedger

-- ============================================================== performed

/-- The unit whose step an event notes. -/
def Event.unit? : Event → Option UnitId
  | .performed u _ | .countedOff _ u => some u
  | .submitted .. | .told .. => none

namespace DispatchOp

open Dispatch

/-- The work that an operation runs, and for which executor. -/
def performs (op : DispatchOp) (d : Dispatch) : List (ExecutorId × Work) :=
  match op with
  | submit x w =>
      match d.executors[x]? with
      | some (.direct _) => [(x, w)]
      | _ => []
  | proceed u =>
      match d.units[u]? with
      | none => []
      | some s =>
          match s.phase with
          | .begun _ => [(s.executor, s.work)]
          | _ => []
  | _ => []

/-- The work that it runs for one executor. -/
def runs? (x : ExecutorId) (op : DispatchOp) (d : Dispatch) : Option Work :=
  (op.performs d).lookup x

/-- The work that a run runs, and for which executor, in order. -/
def performed : List DispatchOp → Dispatch → List (ExecutorId × Work)
  | [], _ => []
  | op :: rest, d => op.performs d ++ performed rest (op.apply d).1

/-- The work that a run runs for one executor. -/
def performedFor (x : ExecutorId) (ops : List DispatchOp) (d : Dispatch) :
    List Work :=
  ((performed ops d).filter fun e => e.1 == x).map Prod.snd

variable {d : Dispatch}

/-- A unit that a thread has begun is run for its executor. -/
theorem runs?_proceed {u : UnitId} {s : Submitted} {w : WorkerId}
    (found : d.units[u]? = some s) (phase : s.phase = .begun w) :
    (proceed u).runs? s.executor d = some s.work := by
  simp only [runs?, performs, found, phase]
  exact List.lookup_cons_self

/-- A direct executor runs what is submitted to it. -/
theorem runs?_submit {x : ExecutorId} {owner : String}
    (direct : d.executors[x]? = some (.direct owner)) (w : Work) :
    (submit x w).runs? x d = some w := by
  simp only [runs?, performs, direct]
  exact List.lookup_cons_self

/-- A step of a unit runs that unit when a thread has begun it, and nothing
else. -/
theorem ran_proceed (u : UnitId) (d : Dispatch) :
    (d.proceed u).ran
      = d.ran ++ ((proceed u).performs d).map fun e => e.2.action := by
  unfold Dispatch.proceed
  simp only [performs]
  cases d.units[u]? with
  | none => exact (List.append_nil _).symm
  | some s =>
  dsimp only
  -- one phase performs the unit, and the others leave the list as it is
  cases s.phase with
  | begun w =>
      obtain ⟨l, -, he⟩ := perform_passage s.work d
      dsimp only
      rw [he]
      rfl
  | queued | ended =>
      dsimp only
      split <;> exact (List.append_nil _).symm
  | reported failure => cases failure <;> exact (List.append_nil _).symm
  | ran | faulted | completed | abandoned => exact (List.append_nil _).symm

/-- A submission runs the unit if the executor is a direct one. -/
theorem ran_submit (x : ExecutorId) (w : Work) (d : Dispatch) :
    (d.submit x w).1.ran
      = d.ran ++ ((submit x w).performs d).map fun e => e.2.action := by
  unfold Dispatch.submit
  simp only [performs]
  cases d.executors[x]? with
  | none => exact (List.append_nil _).symm
  | some e =>
      cases e with
      | direct owner =>
          obtain ⟨l, -, he⟩ := perform_passage w d
          dsimp only
          split
          · next h => rw [h] at he; rw [he]; rfl
          · next h => rw [h] at he; rw [he]; rfl
          · next h => rw [h] at he; rw [he]; rfl
      | pooled p =>
          dsimp only
          split
          · -- a pool that has stopped gives the unit up where it is queued
            rw [ran_proceed]
            simp [performs, Dispatch.onPooled, Dispatch.onLedger]
          · exact (List.append_nil _).symm

/-- An operation lists the actions that it runs. -/
theorem ran_apply (op : DispatchOp) (d : Dispatch) :
    (op.apply d).1.ran
      = d.ran ++ (op.performs d).map fun e => e.2.action := by
  cases op with
  | submit x w => exact ran_submit x w d
  | proceed u => exact ran_proceed u d
  | beginAwait x =>
      simp only [apply, Dispatch.beginAwait, performs]
      cases d.pooled? x <;> exact (List.append_nil _).symm
  | release x =>
      simp only [apply, Dispatch.release, performs]
      cases d.pooled? x <;> exact (List.append_nil _).symm
  | endAwait x =>
      simp only [apply, Dispatch.endAwait, performs]
      cases d.pooled? x with
      | none => exact (List.append_nil _).symm
      | some p =>
          dsimp only
          by_cases idle : p.outstanding = 0
          · rw [if_pos idle]
            exact (List.append_nil _).symm
          · rw [if_neg idle]
            exact (List.append_nil _).symm
  | onLedger | addExecutor | stop => exact (List.append_nil _).symm

/-- A run lists the actions of the works that it runs, in order. -/
theorem ran_run (ops : List DispatchOp) (d : Dispatch) :
    (run ops d).1.ran = d.ran ++ (performed ops d).map fun e => e.2.action := by
  induction ops generalizing d with
  | nil => exact (List.append_nil _).symm
  | cons op rest ih =>
      have later := ih (op.apply d).1
      rw [ran_apply] at later
      rw [performed, List.map_append, ← List.append_assoc]
      exact later

/-- What is run for an executor comes one operation after another. -/
theorem performedFor_cons (x : ExecutorId) (op : DispatchOp)
    (ops : List DispatchOp) (d : Dispatch) :
    performedFor x (op :: ops) d
      = ((op.performs d).filter fun e => e.1 == x).map Prod.snd
        ++ performedFor x ops (op.apply d).1 := by
  unfold performedFor
  rw [performed, List.filter_append, List.map_append]

/-- A unit is run and counted off by its own steps only. -/
theorem proceed_of_event {op : DispatchOp} {e : Event}
    (noted : op.events d = [e]) {u : UnitId} (own : e.unit? = some u) :
    op = .proceed u := by
  have only {e' : Event} (one : [e'] = [e]) {v : UnitId}
      (own' : e'.unit? = some v) : v = u := by
    obtain rfl := List.singleton_inj.mp one
    exact Option.some.inj (own'.symm.trans own)
  cases op with
  | proceed v =>
      simp only [events] at noted
      split at noted
      · cases noted
      · split at noted
        · rw [only noted rfl]
        · rw [only noted rfl]
        · rw [only noted rfl]
        · cases noted
  | submit | endAwait =>
      simp only [events] at noted
      split at noted
      · obtain rfl := List.singleton_inj.mp noted
        cases own
      · cases noted
  | _ => cases noted

end DispatchOp

namespace Dispatch

open DispatchOp

variable {d d' : Dispatch} {n : Nat} {evs : List Event} {x : ExecutorId}

-- ================================================================= counted

/-- A thread has been with the unit, so it was run unless it was given up. -/
def wasRun : Phase → Bool
  | .queued | .begun _ => false
  | _ => true

/-- A unit of an executor that does some work and was run. -/
def ranWith (x : ExecutorId) (w : Work) (s : Submitted) : Bool :=
  s.executor == x && wasRun s.phase && s.work == w

/-- The works of the units of an executor that were run. -/
structure RanFor (x : ExecutorId) (ws : List Work) (d : Dispatch) : Prop where
  count : ∀ w, ws.count w = d.countUnits (ranWith x w)

theorem Blank.ranFor (h : d.Blank) (x : ExecutorId) : RanFor x [] d where
  count := by
    intro w
    unfold countUnits
    rw [h.units]
    rfl

/-- The work of an executor that an event notes. -/
def workOf (x : ExecutorId) (d : Dispatch) : Event → List Work
  | .performed u _ =>
      match d.units[u]? with
      | some s => if s.executor = x then [s.work] else []
      | none => []
  | _ => []

/-- A step that does not run its unit changes nothing. -/
theorem RanFor.setPhase {ws : List Work} (h : RanFor x ws d) {u : UnitId}
    {s : Submitted} (found : d.units[u]? = some s) {q : Phase}
    (same : wasRun q = wasRun s.phase) : RanFor x ws (d.setPhase u q) where
  count := by
    intro w
    have moved := countUnits_setPhase (p := ranWith x w) found q
    have still : ranWith x w { s with phase := q } = ranWith x w s := by
      unfold ranWith
      rw [same]
    rw [still] at moved
    rw [h.count]
    omega

/-- The step that runs it counts it in. -/
theorem RanFor.performed {ws : List Work} (h : RanFor x ws d) {u : UnitId}
    {s : Submitted} (found : d.units[u]? = some s)
    (before : wasRun s.phase = false) {q : Phase} (after : wasRun q = true) :
    RanFor x (ws ++ if s.executor = x then [s.work] else [])
      (d.setPhase u q) where
  count := by
    intro w
    have moved := countUnits_setPhase (p := ranWith x w) found q
    have was : ranWith x w s = false := by
      unfold ranWith
      rw [before, Bool.and_false, Bool.false_and]
    have is : ranWith x w { s with phase := q }
        = (s.executor == x && s.work == w) := by
      unfold ranWith
      rw [after, Bool.and_true]
    rw [was, is, if_neg Bool.false_ne_true, Nat.add_zero] at moved
    rw [List.count_append, h.count, moved]
    refine congrArg _ ?_
    by_cases own : s.executor = x
    · rw [if_pos own, List.count_singleton, beq_iff_eq.mpr own, Bool.true_and]
    · rw [if_neg own, beq_eq_false_iff_ne.mpr own, Bool.false_and]
      rfl

/-- Each turn notes what it runs. -/
theorem RanFor.turn {ws : List Work} (h : RanFor x ws d)
    (turn : Turn d n evs d') : RanFor x (ws ++ evs.flatMap (d.workOf x)) d' := by
  -- all but one turn perform nothing
  have still {es : List Event} {e : Dispatch}
      (nothing : es.flatMap (d.workOf x) = []) (same : RanFor x ws e) :
      RanFor x (ws ++ es.flatMap (d.workOf x)) e := by
    rw [nothing, List.append_nil]
    exact same
  cases turn with
  | aside | joined | told => exact still rfl ⟨h.count⟩
  | @submitted y p w =>
      refine still rfl ⟨fun v => ?_⟩
      have queued : ranWith x v (unitOf y p w) = false := by
        show (_ && false && _) = false
        rw [Bool.and_false, Bool.false_and]
      refine (h.count v).trans ?_
      unfold countUnits
      rw [countUnits_push, queued]
      rfl
  | @begun u s m w found queued =>
      exact still rfl (RanFor.setPhase
        (d := { d with ledger := m.startWorker w }) ⟨h.count⟩ found
        (by rw [queued]; rfl))
  | @performed u s w l ran found phase =>
      rw [List.flatMap_singleton]
      simp only [workOf, found]
      exact RanFor.performed (d := { d with ledger := l, ran }) ⟨h.count⟩ found
        (by rw [phase]; rfl) rfl
  | @ended u s w failure found phase =>
      exact still rfl (RanFor.setPhase
        (d := d.onLedger (Ledger.endWorker w)) ⟨h.count⟩ found
        (by rw [phase]; rfl))
  | @reported u s w failure found phase =>
      exact still rfl (RanFor.setPhase (d := { d with
        ledger := (Ledger.OnEntry.report s.entry w d.ledger).1 }) ⟨h.count⟩
        found (by rw [phase]; rfl))
  | @faulted u s w f failure found phase =>
      exact still rfl (RanFor.setPhase (d := { d with
        ledger := (Ledger.OnEntry.report s.entry w d.ledger).1 }) ⟨h.count⟩
        found (by rw [phase]; rfl))
  | @completed u s l failure found phase =>
      exact still rfl (RanFor.setPhase (d := { d with ledger := l }.onPooled
        s.executor (credited failure)) ⟨h.count⟩ found (by rw [phase]; rfl))
  | @abandoned u s found phase =>
      exact still rfl (RanFor.setPhase (d := d.onPooled s.executor
        (credited (some s.cancelled))) ⟨h.count⟩ found (by rw [phase]; rfl))

-- ==================================================================== runs

/-- A direct executor stays one. -/
theorem Turn.direct {owner : String} (turn : Turn d n evs d')
    (direct : d.executors[x]? = some (.direct owner)) :
    d'.executors[x]? = some (.direct owner) := by
  have counted (y : ExecutorId) (f : PooledState → PooledState) :
      (d.onPooled y f).executors[x]? = some (.direct owner) := by
    unfold onPooled
    dsimp only
    rw [Array.getElem?_modify, direct]
    split <;> rfl
  cases turn with
  | aside | begun | performed | ended | reported | faulted => exact direct
  | joined e =>
      have lt := (Array.getElem?_eq_some_iff.mp direct).1
      show (d.executors.push e)[x]? = _
      rw [Array.getElem?_push, if_neg (Nat.ne_of_lt lt)]
      exact direct
  | told => exact counted _ cleared
  | submitted => exact counted _ charged
  | completed | abandoned => exact counted _ (credited _)

/-- Neither is a pooled one direct. -/
theorem not_direct {p : PooledState} (pooled : d.pooled? x = some p)
    (owner : String) : d.executors[x]? ≠ some (.direct owner) := by
  rw [executor_of pooled]
  intro same
  cases same

/-- What an operation runs for an executor that is no direct one is what is
noted of it. -/
theorem performs_noted (op : DispatchOp)
    (pooled : ∀ owner, d.executors[x]? ≠ some (.direct owner)) :
    ((op.performs d).filter fun e => e.1 == x).map Prod.snd
      = (op.events d).flatMap (d.workOf x) := by
  cases op with
  | submit y w =>
      have unnoted : ((DispatchOp.submit y w).events d).flatMap (d.workOf x)
          = [] := by
        simp only [events]
        cases d.pooled? y <;> rfl
      rw [unnoted]
      -- a submission performs what is given to a direct executor, which is
      -- another one
      simp only [performs]
      split
      · next owner direct =>
          have other : y ≠ x := fun same => pooled owner (same ▸ direct)
          rw [List.filter_cons_of_neg (by simpa using other)]
          rfl
      · rfl
  | proceed u =>
      simp only [performs, events]
      cases found : d.units[u]? with
      | none => rfl
      | some s =>
      dsimp only
      cases s.phase with
      | begun w =>
          dsimp only
          rw [List.flatMap_singleton]
          simp only [workOf, found]
          -- a step performs a unit of this executor, or of another one
          by_cases own : s.executor = x
          · rw [if_pos own, List.filter_cons_of_pos (by simpa using own)]
            rfl
          · rw [if_neg own, List.filter_cons_of_neg (by simpa using own)]
            rfl
      | _ => rfl
  | endAwait y =>
      simp only [performs, events]
      cases d.pooled? y with
      | none => rfl
      | some p => cases d.endAwait y <;> rfl
  | _ => rfl

/-- An ordinary run counts the units of a pooled executor that it runs. -/
theorem RanFor.run {ops : List DispatchOp} {ws : List Work}
    (h : RanFor x ws d) (live : d.stopped = false)
    (ordinary : Ordinary ops d = true)
    (pooled : ∀ owner, (run ops d).1.executors[x]? ≠ some (.direct owner)) :
    RanFor x (ws ++ performedFor x ops d) (run ops d).1 := by
  induction ops generalizing d ws with
  | nil =>
      rw [show performedFor x [] d = [] from rfl, List.append_nil]
      exact h
  | cons op rest ih =>
      obtain ⟨here, later⟩ := Bool.and_eq_true_iff.mp ordinary
      have turn := turn_apply live here
      have ends := turn.stopped.trans live
      -- an executor that is direct now would be direct in the end
      have now (owner : String) : d.executors[x]? ≠ some (.direct owner) :=
        fun direct => pooled owner (run_holds
          (P := fun d => d.executors[x]? = some (.direct owner))
          (fun direct turn => turn.direct direct) live ordinary direct)
      rw [performedFor_cons, ← List.append_assoc, performs_noted op now]
      exact ih (h.turn turn) ends later pooled

/-- Once all units of an executor are over, the works that were run for it are
the works that it was given. -/
theorem RanFor.perm {ws : List Work} (h : RanFor x ws d)
    (isOver : ∀ (u : UnitId) (s : Submitted), d.units[u]? = some s →
      s.executor = x → s.phase.over = true) : ws.Perm (d.worksOf x) := by
  refine List.perm_iff_count.mpr fun w => ?_
  rw [h.count]
  have each : ∀ s ∈ d.units.toList, s.executor = x → wasRun s.phase = true := by
    intro s mem own
    obtain ⟨u, found⟩ := List.mem_iff_getElem?.mp mem
    rw [Array.getElem?_toList] at found
    have ended := isOver u s found own
    cases phase : s.phase with
    | queued | begun => rw [phase] at ended; cases ended
    | _ => rfl
  unfold countUnits worksOf
  generalize d.units.toList = units at each
  induction units with
  | nil => rfl
  | cons s rest ih =>
      rw [List.countP_cons, List.flatMap_cons, List.count_append,
        ih fun s mem => each s (List.mem_cons_of_mem _ mem), Nat.add_comm]
      refine congrArg (· + _) ?_
      unfold ranWith
      by_cases own : s.executor = x
      · rw [if_pos own, each s List.mem_cons_self own, List.count_singleton,
          beq_iff_eq.mpr own, Bool.true_and, Bool.true_and]
      · rw [if_neg own, beq_eq_false_iff_ne.mpr own, Bool.false_and,
          Bool.false_and]
        rfl

-- ================================================================ outcomes

/-- A unit that turned out in some way had done so before, or this is the
step that runs it. -/
theorem Turn.outcome_back {n : Nat} {evs : List Event} {u : UnitId}
    {s' : Submitted} {failure : Option String} (turn : Turn d n evs d')
    (found' : d'.units[u]? = some s')
    (outcome : s'.phase.outcome? = some failure) :
    ∃ s, d.units[u]? = some s ∧ s'.executor = s.executor ∧ s'.work = s.work
      ∧ (s.phase.outcome? = some failure
        ∨ ∃ w, s.phase = .begun w ∧ evs = [.performed u failure]
          ∧ failure = failureOf s.work.action (d.perform s.work).2) := by
  cases turn with
  | aside | joined | told => exact ⟨s', found', rfl, rfl, .inl outcome⟩
  | submitted =>
      rcases push_back found' with prior | ⟨-, rfl⟩
      · exact ⟨s', prior, rfl, rfl, .inl outcome⟩
      · cases outcome
  | begun found | faulted found | abandoned found =>
      rcases setPhase_cases (by exact found) found' with
        ⟨-, rfl⟩ | ⟨-, still⟩
      · cases outcome
      · exact ⟨s', still, rfl, rfl, .inl outcome⟩
  | @performed v s w l ran found phase =>
      rcases setPhase_cases (by exact found) found' with
        ⟨rfl, rfl⟩ | ⟨-, still⟩
      · obtain rfl := Option.some.inj outcome
        exact ⟨s, found, rfl, rfl, .inr ⟨w, phase, rfl, rfl⟩⟩
      · exact ⟨s', still, rfl, rfl, .inl outcome⟩
  | @ended _ s _ _ found phase | @reported _ s _ _ found phase
  | @completed _ s _ _ found phase =>
      rcases setPhase_cases (by exact found) found' with
        ⟨rfl, rfl⟩ | ⟨-, still⟩
      · refine ⟨s, found, rfl, rfl, .inl ?_⟩
        rw [phase]
        exact outcome
      · exact ⟨s', still, rfl, rfl, .inl outcome⟩

/-- A unit that turned out in some way had done so before a run, or the run has
the step in it that ran the unit. It turned out as running it there comes to. -/
theorem outcome_traced {ops : List DispatchOp} (live : d.stopped = false)
    (ordinary : Ordinary ops d = true) {u : UnitId} {s : Submitted}
    {failure : Option String} (found : (run ops d).1.units[u]? = some s)
    (outcome : s.phase.outcome? = some failure) :
    (∃ s₀, d.units[u]? = some s₀ ∧ s₀.phase.outcome? = some failure)
      ∨ ∃ i, ops[i]? = some (.proceed u)
        ∧ failure = failureOf s.work.action
          ((run (ops.take i) d).1.perform s.work).2 := by
  suffices h : (∃ s₀, d.units[u]? = some s₀ ∧ s.work = s₀.work
        ∧ s₀.phase.outcome? = some failure)
      ∨ ∃ i, ops[i]? = some (.proceed u)
        ∧ failure = failureOf s.work.action
          ((run (ops.take i) d).1.perform s.work).2 by
    rcases h with ⟨s₀, found₀, -, before⟩ | here
    · exact .inl ⟨s₀, found₀, before⟩
    · exact .inr here
  -- over the operations, each of which comes before the others
  induction ops generalizing d with
  | nil => exact .inl ⟨s, found, rfl, outcome⟩
  | cons op rest ih =>
      obtain ⟨here, later⟩ := Bool.and_eq_true_iff.mp ordinary
      have turn := turn_apply live here
      rcases ih (turn.stopped.trans live) later found with
        ⟨s₁, found₁, work₁, before⟩ | ⟨i, at_, is⟩
      · obtain ⟨s₀, found₀, -, work, before | ⟨w, -, event, is⟩⟩ :=
          turn.outcome_back found₁ before
        · exact .inl ⟨s₀, found₀, work₁.trans work, before⟩
        · obtain rfl := proceed_of_event event rfl
          rw [← work, ← work₁] at is
          exact .inr ⟨0, rfl, is⟩
      · exact .inr ⟨i + 1, at_, is⟩

end Dispatch

end TaskLedger
