/-
What one operation can do to a dispatch whose pool is alive and which
leaves the workers to its pool, said once.

Everything that the theory of the pool speaks of moves in one place each:
units are queued by a submission and go through their phases one at a time,
an executor counts up with a submission and down with a unit's last step,
and it forgets the causes that it hands out. `Turn` is the list of these
moves, with what an observer would note of each (`Event`). All other
operations are calm (`Ledger.Calm`).

`Ordinary` runs are the ones that the theory is about: nobody moves workers
by hand, the pool does not stop, and an executor is obtained for a task
that is on record.
-/
import TaskLedger.Dispatch.Op
import TaskLedger.Proofs.Ledger.CrewsUndisturbed

namespace TaskLedger

-- =============================================================== events

/-- What an observer notes of a run. -/
inductive Event
  /-- A pooled executor was given a unit. -/
  | submitted (x : ExecutorId) (w : Work)
  /-- A unit was run, with a cause if it failed. -/
  | performed (u : UnitId) (failure : Option String)
  /-- An executor counted a unit off. -/
  | countedOff (x : ExecutorId) (u : UnitId)
  /-- A wait was over, and its owner was told some causes. -/
  | told (x : ExecutorId) (causes : List String)
  deriving DecidableEq, Repr

/-- The causes in the answer of a wait. -/
def causesOf : Except Error Unit → List String
  | .error (.workers causes) => causes
  | _ => []

namespace DispatchOp

/-- What an observer notes of an operation. -/
def events (op : DispatchOp) (d : Dispatch) : List Event :=
  match op with
  | submit x w =>
      match d.pooled? x with
      | some _ => [.submitted x w]
      | none => []
  | proceed u =>
      match d.units[u]? with
      | none => []
      | some s =>
          match s.phase with
          | .begun _ =>
              [.performed u
                (Dispatch.failureOf s.work.action (d.perform s.work).2)]
          | .reported _ | .faulted => [.countedOff s.executor u]
          | _ => []
  | endAwait x =>
      match d.pooled? x, d.endAwait x with
      | some _, some (_, r) => [.told x (causesOf r)]
      | _, _ => []
  | _ => []

/-- What an observer notes of a run. -/
def history : List DispatchOp → Dispatch → List Event
  | [], _ => []
  | op :: rest, d => op.events d ++ history rest (op.apply d).1

/-- An executor that has not been given a unit, for a task on record or for
none. -/
def freshFor (p : PooledState) (l : Ledger) : Bool :=
  p == { owner := p.owner, entry := p.entry }
    && match p.entry with
      | .task t => decide (t < l.tasks.size)
      | .untracked => true

/-- The workers are left to the pool, and the pool stays alive. -/
def ordinary (op : DispatchOp) (d : Dispatch) : Bool :=
  match op with
  | onLedger op => !op.byHand
  | addExecutor (.pooled p) => freshFor p d.ledger
  | stop => false
  | _ => true

/-- How many numbers an operation has a sink hand out, at once or later: a
unit that is submitted asks for one when its worker reports. -/
def numbers : DispatchOp → Nat
  | onLedger op => op.numbers
  | submit .. => 1
  | _ => 0

/-- How many numbers a run asks sinks for. -/
def asked : List DispatchOp → Nat
  | [] => 0
  | op :: rest => op.numbers + asked rest

/-- A run of such operations. -/
def Ordinary : List DispatchOp → Dispatch → Bool
  | [], _ => true
  | op :: rest, d => op.ordinary d && Ordinary rest (op.apply d).1

end DispatchOp

namespace Dispatch

-- =============================================================== tables

/-- An executor on a pool is the one that stands in its place. -/
theorem executor_of {x : ExecutorId} {d : Dispatch} {p : PooledState}
    (pooled : d.pooled? x = some p) :
    d.executors[x]? = some (.pooled p) := by
  unfold pooled? at pooled
  split at pooled
  · next found =>
      rw [found, Option.some.inj pooled]
  · cases pooled

/-- No executor is beyond the table. -/
theorem pooled?_beyond {x : ExecutorId} {d : Dispatch}
    (h : d.executors.size ≤ x) : d.pooled? x = none := by
  unfold pooled?
  rw [Array.getElem?_eq_none_iff.mpr h]

/-- What is known of an executor once one was changed. -/
theorem pooled?_onPooled (x y : ExecutorId) (f : PooledState → PooledState)
    (d : Dispatch) :
    (d.onPooled x f).pooled? y
      = if x = y then (d.pooled? y).map f else d.pooled? y := by
  unfold pooled? onPooled
  dsimp only
  rw [Array.getElem?_modify]
  by_cases e : x = y
  · rw [if_pos e, if_pos e]
    cases h : d.executors[y]? with
    | none => rfl
    | some e =>
        cases e with
        | direct owner => rfl
        | pooled s => rfl
  · rw [if_neg e, if_neg e]

/-- What is known of an executor once another one came. -/
theorem pooled?_push (x : Executor) (y : ExecutorId) (d : Dispatch) :
    pooled? y { d with executors := d.executors.push x }
      = if y = d.executors.size then
          match x with
          | .pooled p => some p
          | .direct _ => none
        else d.pooled? y := by
  unfold pooled?
  dsimp only
  rw [Array.getElem?_push]
  by_cases e : y = d.executors.size
  · rw [if_pos e, if_pos e]
    cases x with
    | direct => rfl
    | pooled => rfl
  · rw [if_neg e, if_neg e]

/-- What is known of a unit once one was moved to a phase. -/
theorem getElem?_setPhase (u v : UnitId) (p : Phase) (d : Dispatch) :
    (d.setPhase u p).units[v]?
      = if u = v then d.units[v]?.map fun s => { s with phase := p }
        else d.units[v]? :=
  Array.getElem?_modify

theorem setPhase_self {u : UnitId} {s : Submitted} {d : Dispatch}
    (h : d.units[u]? = some s) (p : Phase) :
    (d.setPhase u p).units[u]? = some { s with phase := p } := by
  rw [getElem?_setPhase, if_pos rfl, h]
  rfl

theorem setPhase_other {u v : UnitId} (ne : v ≠ u) (p : Phase)
    (d : Dispatch) : (d.setPhase u p).units[v]? = d.units[v]? := by
  rw [getElem?_setPhase, if_neg (Ne.symm ne)]

/-- A unit after one was moved to a phase is that one, or one that stayed
where it was. -/
theorem setPhase_cases {u v : UnitId} {s s' : Submitted} {p : Phase}
    {d : Dispatch} (found : d.units[u]? = some s)
    (h : (d.setPhase u p).units[v]? = some s') :
    v = u ∧ s' = { s with phase := p } ∨ v ≠ u ∧ d.units[v]? = some s' := by
  rcases modify_cases h with ⟨rfl, s₀, hs₀, e⟩ | ⟨ne, still⟩
  · rw [found] at hs₀
    obtain rfl := Option.some.inj hs₀
    exact .inl ⟨rfl, e⟩
  · exact .inr ⟨Ne.symm ne, still⟩

-- ================================================================ turns

/-- An executor that was given one more unit. -/
def charged (p : PooledState) : PooledState :=
  { p with sequence := p.sequence + 1, outstanding := p.outstanding + 1 }

/-- An executor that counted a unit off. -/
def credited (failure : Option String) (p : PooledState) : PooledState :=
  { p with outstanding := p.outstanding - 1,
           failures := p.failures ++ failure.toList }

/-- An executor that told all it had to tell. -/
def cleared (p : PooledState) : PooledState := { p with failures := [] }

/-- The unit that an executor queues for some work. -/
def unitOf (x : ExecutorId) (p : PooledState) (w : Work) : Submitted :=
  { executor := x, owner := p.owner, entry := p.entry, key := p.nextKey w,
    work := w }

/-- The worker that a unit finds when a thread takes it: the one under its
key, and only if there is none a new one that is in no crew. -/
def Finds (s : Submitted) (l m : Ledger) (w : WorkerId) : Prop :=
  (∃ t, s.entry = .task t ∧ (l.crewAt t).lookup s.key = some w)
    ∨ (∀ t, s.entry = .task t → (l.crewAt t).lookup s.key = none)
      ∧ l.workers.size = w ∧ w < m.workers.size

/-- One operation, with the numbers it may have a sink hand out and what is
noted of it. -/
inductive Turn (d : Dispatch) : Nat → List Event → Dispatch → Prop
  /-- No unit and no pooled executor takes part. -/
  | aside {n : Nat} {l : Ledger} {ran : List String}
      (calm : d.ledger.Passage n l) : Turn d n [] { d with ledger := l, ran }
  /-- An executor comes. -/
  | joined (x : Executor)
      (fresh : ∀ p, x = .pooled p → DispatchOp.freshFor p d.ledger = true) :
      Turn d 0 [] { d with executors := d.executors.push x }
  /-- A wait is over. -/
  | told {x : ExecutorId} {p : PooledState} (pooled : d.pooled? x = some p)
      (idle : p.outstanding = 0) :
      Turn d 0 [.told x p.failures] (d.onPooled x cleared)
  | submitted {x : ExecutorId} {p : PooledState} (w : Work)
      (pooled : d.pooled? x = some p) :
      Turn d 1 [.submitted x w]
        { d with
          ledger := Ledger.OnEntry.does p.entry
            (fun t => Ledger.enlist t (p.nextKey w) .worker) d.ledger
          executors := (d.onPooled x charged).executors
          units := d.units.push (unitOf x p w) }
  | begun {u : UnitId} {s : Submitted} {m : Ledger} {w : WorkerId}
      (found : d.units[u]? = some s) (queued : s.phase = .queued)
      (calm : d.ledger.Passage 0 m) (finds : Finds s d.ledger m w) :
      Turn d 0 [] ({ d with ledger := m.startWorker w }.setPhase u (.begun w))
  | performed {u : UnitId} {s : Submitted} {w : WorkerId} {l : Ledger}
      {ran : List String} (found : d.units[u]? = some s)
      (phase : s.phase = .begun w) (calm : d.ledger.Passage 0 l)
      (noted : ran = d.ran ++ [s.work.action]) :
      Turn d 0
        [.performed u (failureOf s.work.action (d.perform s.work).2)]
        ({ d with ledger := l, ran }.setPhase u
          (.ran w (failureOf s.work.action (d.perform s.work).2)))
  | ended {u : UnitId} {s : Submitted} {w : WorkerId}
      {failure : Option String} (found : d.units[u]? = some s)
      (phase : s.phase = .ran w failure) :
      Turn d 0 []
        ((d.onLedger (Ledger.endWorker w)).setPhase u (.ended w failure))
  | reported {u : UnitId} {s : Submitted} {w : WorkerId}
      {failure : Option String} (found : d.units[u]? = some s)
      (phase : s.phase = .ended w failure)
      (answer : (Ledger.OnEntry.report s.entry w d.ledger).2 = .ok ()) :
      Turn d 0 []
        ({ d with ledger := (Ledger.OnEntry.report s.entry w d.ledger).1
         }.setPhase u (.reported failure))
  | faulted {u : UnitId} {s : Submitted} {w : WorkerId} {f : Fault}
      {failure : Option String} (found : d.units[u]? = some s)
      (phase : s.phase = .ended w failure)
      (answer : (Ledger.OnEntry.report s.entry w d.ledger).2 = .error f) :
      Turn d 0 []
        ({ d with ledger := (Ledger.OnEntry.report s.entry w d.ledger).1
         }.setPhase u .faulted)
  | completed {u : UnitId} {s : Submitted} {l : Ledger}
      {failure : Option String} (found : d.units[u]? = some s)
      (phase : s.phase = .reported failure)
      (calm : d.ledger.Passage 0 l) :
      Turn d 0 [.countedOff s.executor u]
        (({ d with ledger := l }.onPooled s.executor
          (credited failure)).setPhase u (.completed failure))
  | abandoned {u : UnitId} {s : Submitted} (found : d.units[u]? = some s)
      (phase : s.phase = .faulted) :
      Turn d 0 [.countedOff s.executor u]
        ((d.onPooled s.executor (credited (some s.cancelled))).setPhase u
          .abandoned)

variable {d : Dispatch}

/-- What a task does itself is a passage. -/
theorem does_passage {f : TaskId → Ledger → Ledger}
    (h : ∀ (t : TaskId) (l : Ledger), l.Passage 0 (f t l)) (e : Entry)
    (l : Ledger) : l.Passage 0 (Ledger.OnEntry.does e f l) := by
  cases e with
  | task t => exact h t l
  | untracked => exact .refl l

/-- What a unit finds under its key. -/
theorem lookUp_finds (s : Submitted) (l : Ledger) :
    l.Passage 0 (Ledger.OnEntry.lookUp s.entry s.key l).1
      ∧ Finds s l (Ledger.OnEntry.lookUp s.entry s.key l).1
          (Ledger.OnEntry.lookUp s.entry s.key l).2 := by
  refine ⟨(Ledger.settles_lookUp s.entry s.key l).passage, ?_⟩
  have stranger (none : ∀ t, s.entry = .task t →
      (l.crewAt t).lookup s.key = none) :
      Finds s l l.addStandIn.1 l.addStandIn.2 := by
    refine .inr ⟨none, rfl, ?_⟩
    show l.workers.size < (l.workers.push _).size
    rw [Array.size_push]
    exact Nat.lt_succ_self _
  cases he : s.entry with
  | untracked => exact stranger (fun t h => by rw [he] at h; cases h)
  | task t =>
      have view : (l.tasks[t]?.bind fun task => task.crew.lookup s.key)
          = (l.crewAt t).lookup s.key := by
        unfold Ledger.crewAt
        cases l.tasks[t]? <;> rfl
      unfold Ledger.OnEntry.lookUp Ledger.lookUp
      dsimp only
      rw [view]
      cases hw : (l.crewAt t).lookup s.key with
      | some w => exact .inl ⟨t, he, hw⟩
      | none =>
          refine stranger ?_
          intro t' he'
          rw [he] at he'
          rw [← Entry.task.inj he', hw]

/-- Running a unit is noted, and beside it only time passes. -/
theorem perform_passage (w : Work) (d : Dispatch) :
    ∃ l, d.ledger.Passage 0 l
      ∧ (d.perform w).1
        = { d with ledger := l, ran := d.ran ++ [w.action] } := by
  have calm := (Ledger.settles_advance w.script.ms w.script.ns
    d.ledger).passage
  unfold perform
  dsimp only
  split
  · next l f h =>
      rw [h] at calm
      exact ⟨l, calm, rfl⟩
  · next l h =>
      rw [h] at calm
      exact ⟨l, calm, rfl⟩

/-- A thread takes a queued unit, and its worker starts. -/
theorem proceed_queued (live : d.stopped = false) {u : UnitId}
    {s : Submitted} (found : d.units[u]? = some s)
    (queued : s.phase = .queued) :
    ∃ l w, d.ledger.Passage 0 l ∧ Finds s d.ledger l w
      ∧ d.proceed u
        = { d with ledger := l.startWorker w }.setPhase u (.begun w) := by
  obtain ⟨calm, finds⟩ := lookUp_finds s
    { d.ledger with marks := d.ledger.marks ++ [.unit u] }
  have marked : d.ledger.Passage 0
      { d.ledger with marks := d.ledger.marks ++ [.unit u] } :=
    (Ledger.Quiet.aside d.ledger.wall d.ledger.tree _ d.ledger.warnings
      d.ledger.registry).settles.passage
  refine ⟨_, _, marked.trans calm, finds, ?_⟩
  unfold proceed
  rw [found]
  dsimp only
  rw [queued]
  dsimp only
  rw [if_neg (by simp [live])]

/-- The unit is run. -/
theorem proceed_begun {u : UnitId} {s : Submitted} {w : WorkerId}
    (found : d.units[u]? = some s) (phase : s.phase = .begun w) :
    ∃ l, d.ledger.Passage 0 l
      ∧ d.proceed u
        = { d with ledger := l, ran := d.ran ++ [s.work.action] }.setPhase u
            (.ran w (failureOf s.work.action (d.perform s.work).2)) := by
  obtain ⟨l, calm, he⟩ := perform_passage s.work d
  refine ⟨l, calm, ?_⟩
  unfold proceed
  rw [found]
  dsimp only
  rw [phase]
  dsimp only
  rw [he]

/-- Its worker ends. -/
theorem proceed_ran {u : UnitId} {s : Submitted} {w : WorkerId}
    {failure : Option String} (found : d.units[u]? = some s)
    (phase : s.phase = .ran w failure) :
    d.proceed u
      = (d.onLedger (Ledger.endWorker w)).setPhase u (.ended w failure) := by
  unfold proceed
  rw [found]
  dsimp only
  rw [phase]

/-- The next step of a unit is a turn. -/
theorem turn_proceed (live : d.stopped = false) (u : UnitId) :
    Turn d 0 ((DispatchOp.proceed u).events d) (d.proceed u) := by
  simp only [DispatchOp.events]
  cases found : d.units[u]? with
  | none =>
      unfold proceed
      rw [found]
      exact .aside (.refl d.ledger)
  | some s =>
  dsimp only
  -- the phase tells which step it is
  cases phase : s.phase with
  | queued =>
      obtain ⟨l, w, calm, finds, he⟩ := proceed_queued live found phase
      rw [he]
      exact .begun found phase calm finds
  | begun w =>
      obtain ⟨l, calm, he⟩ := proceed_begun found phase
      rw [he]
      exact .performed found phase calm rfl
  | ran w failure =>
      rw [proceed_ran found phase]
      exact .ended found phase
  | ended w failure =>
      unfold proceed
      rw [found]
      dsimp only
      rw [phase]
      dsimp only
      split
      · next l h =>
          have turn : Turn d 0 [] _ := .reported found phase (by rw [h])
          rw [h] at turn
          exact turn
      · next l f h =>
          have turn : Turn d 0 [] _ := .faulted (f := f) found phase (by rw [h])
          rw [h] at turn
          exact turn
  | reported failure =>
      unfold proceed
      rw [found]
      dsimp only
      rw [phase]
      cases failure with
      | none => exact .completed found phase (.refl d.ledger)
      | some cause =>
          exact .completed found phase
            (Ledger.settles_warn _ d.ledger).passage
  | faulted =>
      unfold proceed
      rw [found]
      dsimp only
      rw [phase]
      exact .abandoned found phase
  | completed | abandoned =>
      unfold proceed
      rw [found]
      dsimp only
      rw [phase]
      exact .aside (.refl d.ledger)

/-- A submission is a turn. -/
theorem turn_submit (live : d.stopped = false) (x : ExecutorId) (w : Work) :
    Turn d 1 ((DispatchOp.submit x w).events d) (d.submit x w).1 := by
  unfold submit
  simp only [DispatchOp.events]
  cases found : d.executors[x]? with
  | none =>
      have none : d.pooled? x = none := by unfold pooled?; rw [found]
      rw [none]
      exact .aside (Ledger.Passage.refl d.ledger).spare
  | some e =>
      cases e with
      | direct owner =>
          have none : d.pooled? x = none := by unfold pooled?; rw [found]
          rw [none]
          obtain ⟨l, calm, he⟩ := perform_passage w d
          dsimp only
          split
          · next d' f h => rw [h] at he; rw [he]; exact .aside calm.spare
          · next d' h => rw [h] at he; rw [he]; exact .aside calm.spare
          · next d' cause h => rw [h] at he; rw [he]; exact .aside calm.spare
      | pooled p =>
          have pooled : d.pooled? x = some p := by unfold pooled?; rw [found]
          rw [pooled]
          dsimp only
          split
          · next stopped =>
              have stopped : d.stopped = true := stopped
              rw [live] at stopped
              cases stopped
          · exact .submitted w pooled

/-- The causes that an executor kept are all in the answer. -/
theorem causesOf_answer (failures : List String) :
    causesOf (if failures.isEmpty then .ok ()
      else .error (.workers failures)) = failures := by
  cases failures with
  | nil => rfl
  | cons => rfl

/-- A wait that is over left nobody to wait for, and tells what was kept. -/
theorem endAwait_answer {x : ExecutorId} {p : PooledState}
    (pooled : d.pooled? x = some p) {r : Except Error Unit}
    (answer : d.endAwait x = some (d', r)) :
    p.outstanding = 0
      ∧ r = if p.failures.isEmpty then .ok ()
          else .error (.workers p.failures) := by
  unfold endAwait at answer
  rw [pooled] at answer
  dsimp only at answer
  by_cases idle : p.outstanding = 0
  · rw [if_pos idle] at answer
    exact ⟨idle, (Prod.mk.inj (Option.some.inj answer)).2.symm⟩
  · rw [if_neg idle] at answer
    cases answer

/-- The end of a wait is a turn. -/
theorem turn_endAwait (x : ExecutorId) :
    Turn d 0 ((DispatchOp.endAwait x).events d)
      ((DispatchOp.endAwait x).apply d).1 := by
  simp only [DispatchOp.events, DispatchOp.apply, endAwait]
  cases pooled : d.pooled? x with
  | none => exact .aside (.refl d.ledger)
  | some p =>
      dsimp only
      by_cases idle : p.outstanding = 0
      · rw [if_pos idle]
        dsimp only
        rw [causesOf_answer]
        exact .told pooled idle
      · rw [if_neg idle]
        exact .aside (.refl d.ledger)

/-- Every operation of an ordinary run is a turn. -/
theorem turn_apply {op : DispatchOp} (live : d.stopped = false)
    (ordinary : op.ordinary d = true) :
    Turn d op.numbers (op.events d) (op.apply d).1 := by
  cases op with
  | onLedger op =>
      exact .aside (LedgerOp.passage_apply (by simpa [DispatchOp.ordinary]
        using ordinary) d.ledger)
  | addExecutor x =>
      refine .joined x ?_
      rintro p rfl
      exact ordinary
  | submit x w => exact turn_submit live x w
  | proceed u => exact turn_proceed live u
  | beginAwait x =>
      show Turn d 0 [] (d.beginAwait x)
      unfold beginAwait
      split
      · exact .aside (does_passage
          (fun t _ => (Ledger.settles_onTask t .await).passage) _ d.ledger)
      · exact .aside (.refl d.ledger)
  | endAwait x => exact turn_endAwait x
  | release x =>
      show Turn d 0 [] (d.release x)
      unfold release
      split
      · exact .aside (does_passage
          (fun t _ => (Ledger.settles_onTask t .close).passage) _ d.ledger)
      · exact .aside (.refl d.ledger)
  | stop => cases ordinary

/-- No turn stops the pool. -/
theorem Turn.stopped {n : Nat} {evs : List Event} {d' : Dispatch}
    (h : Turn d n evs d') :
    d'.stopped = d.stopped := by
  cases h <;> rfl

end Dispatch

end TaskLedger
