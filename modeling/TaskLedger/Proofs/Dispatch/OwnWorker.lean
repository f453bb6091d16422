/-
Whether a unit has a worker of its own.

The worker that a thread finds for a unit is the one under the unit's key,
so whose it is depends on the key. A unit is alone when no other one of its
task has its key (`Alone`). Then the worker under its key is what the
unit's phase says it is (`Fits`), and stays so through every turn: a unit
that is not alone moves a worker that is under another key.
-/
import TaskLedger.Proofs.Dispatch.UnitsInCrews

namespace TaskLedger

namespace Phase

/-- A thread has taken the unit. -/
def started : Phase → Bool
  | .queued => false
  | _ => true

/-- The unit was run, and its worker ended. -/
def finished : Phase → Bool
  | .queued | .begun _ | .ran .. => false
  | _ => true

end Phase

namespace Dispatch

variable {d d' : Dispatch} {n : Nat} {evs : List Event}

/-- No other unit of its task has its key. -/
def Alone (u : UnitId) (s : Submitted) (d : Dispatch) : Prop :=
  ∀ {v : UnitId} {s' : Submitted}, d.units[v]? = some s' →
    s'.entry = s.entry → s'.key = s.key → v = u

/-- A unit that is still alone after a submission does not share its key
with the new unit. -/
theorem Alone.not_next {u : UnitId} {s : Submitted} {x : ExecutorId}
    {p : PooledState} {w : Work} {l : Ledger} {executors : Array Executor}
    (alone : Alone u s { d with
      ledger := l, executors, units := d.units.push (unitOf x p w) })
    (prior : d.units[u]? = some s) (entry : p.entry = s.entry) :
    s.key ≠ p.nextKey w := by
  intro same
  have new : (d.units.push (unitOf x p w))[d.units.size]?
      = some (unitOf x p w) := Array.getElem?_push_size
  have here := alone new entry same.symm
  have lt := (Array.getElem?_eq_some_iff.mp prior).1
  exact absurd here.symm (Nat.ne_of_lt lt)

/-- The worker under a key was entered for a unit, is as far as the unit's
phase says, and is the one that the unit holds, if it holds any. -/
def Fits (t : TaskId) (key : String) (p : Phase) (l : Ledger) : Prop :=
  ∃ w k, (key, w) ∈ l.crewAt t ∧ l.workers[w]? = some k
    ∧ (∀ w', p.worker? = some w' → w' = w)
    ∧ k.started.isSome = p.started ∧ k.ended.isSome = p.finished
    ∧ k.kind = .worker

/-- Something holds of every unit that is alone. -/
structure ForAlone (Q : TaskId → String → Phase → Ledger → Prop)
    (d : Dispatch) : Prop where
  holds : ∀ {u : UnitId} {s : Submitted} {t : TaskId},
    d.units[u]? = some s → s.entry = .task t → Alone u s d →
    Q t s.key s.phase d.ledger

/-- Every unit that is alone has its own worker. -/
abbrev Own : Dispatch → Prop := ForAlone Fits

section

variable {t : TaskId} {key : String} {p q : Phase} {l m : Ledger}
  {w : WorkerId}

/-- A unit fits its worker as long as the crew and that worker are the same. -/
theorem Fits.beside (h : Fits t key p l) (crew : m.crewAt t = l.crewAt t)
    (worker : ∀ {w : WorkerId} {k : Worker}, l.workers[w]? = some k →
      m.workers[w]? = some k) : Fits t key p m := by
  obtain ⟨w, k, mem, hw, rest⟩ := h
  refine ⟨w, k, ?_, worker hw, rest⟩
  rw [crew]
  exact mem

/-- A phase in which the unit holds no other worker and its own is as far. -/
theorem Fits.phase (h : Fits t key p l)
    (holds : ∀ w, q.worker? = some w → p.worker? = some w)
    (started : q.started = p.started) (finished : q.finished = p.finished) :
    Fits t key q l := by
  obtain ⟨w, k, mem, hw, own, hs, hf, kind⟩ := h
  exact ⟨w, k, mem, hw, fun w' hw' => own w' (holds w' hw'),
    by rw [hs, started], by rw [hf, finished], kind⟩

/-- What another worker does. -/
theorem Fits.other (h : Fits t key p l) (f : Worker → Worker)
    (other : (key, w) ∉ l.crewAt t) : Fits t key p (l.onWorker w f) := by
  obtain ⟨w', k, mem, hw, rest⟩ := h
  refine ⟨w', k, mem, ?_, rest⟩
  have ne : w ≠ w' := by
    rintro rfl
    exact other mem
  show (l.workers.modify w f)[w']? = some k
  rw [Array.getElem?_modify, if_neg ne, hw]

/-- A unit that is taken up starts the worker under its key, and there is no
other one under it. -/
theorem Fits.start (h : Fits t key .queued l)
    (single : ((l.crewAt t).map Prod.fst).Nodup)
    (mem : (key, w) ∈ l.crewAt t) :
    Fits t key (.begun w) (l.startWorker w) := by
  obtain ⟨w', k, mem', hw, -, -, ended, kind⟩ := h
  obtain rfl : w = w' := by
    have here := lookup_of_mem single mem
    rw [lookup_of_mem single mem'] at here
    exact (Option.some.inj here).symm
  refine ⟨w, { k with started := some (l.clockOf k) }, mem, ?_, ?_, rfl,
    ended, kind⟩
  · show (l.workers.modify w _)[w]? = _
    rw [Array.getElem?_modify, if_pos rfl, hw]
    rfl
  · intro w' holds
    exact (Option.some.inj holds).symm

/-- A unit that was run ends the worker that it started. -/
theorem Fits.stop {failure : Option String}
    (h : Fits t key (.ran w failure) l) :
    Fits t key (.ended w failure) (l.endWorker w) := by
  obtain ⟨w', k, mem, hw, own, started, -, kind⟩ := h
  obtain rfl := own w rfl
  refine ⟨w, { k with ended := some (l.clockOf k) }, mem, ?_, ?_, started,
    rfl, kind⟩
  · show (l.workers.modify w _)[w]? = _
    rw [Array.getElem?_modify, if_pos rfl, hw]
    rfl
  · intro w' holds
    exact (Option.some.inj holds).symm

end

/-- Where one unit moves to a phase, it is enough to look at it and at the
others as they were. -/
theorem forAlone_setPhase
    {Q : TaskId → String → Phase → Ledger → Prop} {u : UnitId}
    {s : Submitted} {p : Phase}
    (found : d.units[u]? = some s)
    (others : ∀ {v : UnitId} {s' : Submitted} {t : TaskId}, v ≠ u →
      d.units[v]? = some s' → s'.entry = .task t → Alone v s' d →
      Q t s'.key s'.phase d.ledger)
    (it : ∀ {t : TaskId}, s.entry = .task t → Alone u s d →
      Q t s.key p d.ledger) : ForAlone Q (d.setPhase u p) := by
  refine ⟨?_⟩
  intro v s' t found' entry alone
  have before {s₀ : Submitted} (e : s' = { s₀ with phase := s'.phase }) :
      Alone v s₀ d := by
    intro v' s₁ found₁ entry₁ key₁
    obtain ⟨q, moved⟩ := setPhase_unit u p found₁
    refine alone moved ?_ ?_
    · rw [e]
      exact entry₁
    · rw [e]
      exact key₁
  rcases setPhase_cases found found' with ⟨rfl, rfl⟩ | ⟨ne, still⟩
  · exact it entry (before rfl)
  · exact others ne still entry (before rfl)

/-- The worker that a unit holds is not under the key of another one that
is alone. -/
theorem Roll.not_mem (h : Roll d) {u v : UnitId} {s s' : Submitted}
    {t : TaskId} {w : WorkerId} (found : d.units[u]? = some s)
    (holds : s.phase.worker? = some w)
    (entry : s'.entry = .task t) (alone : Alone v s' d) (ne : v ≠ u) :
    (s'.key, w) ∉ d.ledger.crewAt t := by
  intro mem
  obtain ⟨entry', key⟩ := (h.held found holds).2 t s'.key mem
  exact ne (alone found (entry'.trans entry.symm) key).symm

/-- Nor is the worker that a unit finds. -/
theorem not_mem_of_finds (roll : Roll d) {u v : UnitId} {s s' : Submitted}
    {t : TaskId} {w : WorkerId} {m : Ledger} (found : d.units[u]? = some s)
    (finds : Finds s d.ledger m w) (entry : s'.entry = .task t)
    (alone : Alone v s' d) (ne : v ≠ u) :
    (s'.key, w) ∉ d.ledger.crewAt t := by
  intro mem
  rcases finds with ⟨t', entry', hw⟩ | ⟨-, rfl, -⟩
  · obtain ⟨rfl, key⟩ := roll.apart (mem_of_lookup hw) mem
    exact ne (alone found (entry'.trans entry.symm) key).symm
  · exact absurd (roll.below mem) (Nat.lt_irrefl _)

/-- A report leaves every unit its worker: a unit that reported has none any
more, and workers of others are not moved. -/
theorem Own.report (h : Own d) {u : UnitId} {s : Submitted} {w : WorkerId}
    {failure : Option String} {q : Phase} (found : d.units[u]? = some s)
    (phase : s.phase = .ended w failure) (holds : q.worker? = none)
    (started : q.started = true) (finished : q.finished = true) :
    Own ({ d with ledger := (Ledger.OnEntry.report s.entry w d.ledger).1
         }.setPhase u q) := by
  obtain ⟨crew, workers, -⟩ := Ledger.report_view s.entry w d.ledger
  have kept {t : TaskId} {key : String} {p : Phase}
      (was : Fits t key p d.ledger) :
      Fits t key p (Ledger.OnEntry.report s.entry w d.ledger).1 := by
    refine was.beside (crew t) ?_
    intro w' k hw
    rw [workers]
    exact hw
  refine forAlone_setPhase (d := { d with
    ledger := (Ledger.OnEntry.report s.entry w d.ledger).1 }) found ?_ ?_
  · intro v s' t ne found' entry alone
    exact kept (h.holds found' entry alone)
  · intro t entry alone
    have was := kept (h.holds found entry alone)
    rw [phase] at was
    refine was.phase ?_ started finished
    intro w' hw
    rw [holds] at hw
    cases hw

/-- A submission moves no worker, and takes no unit's own one from its
crew. -/
theorem Own.submit (linked : Linked d) (h : Own d) {x : ExecutorId}
    {p : PooledState} (w : Work) (pooled : d.pooled? x = some p)
    (executors : Array Executor) :
    Own { d with
      ledger := Ledger.OnEntry.does p.entry
        (fun t => Ledger.enlist t (p.nextKey w) .worker) d.ledger
      executors
      units := d.units.push (unitOf x p w) } := by
  refine ⟨?_⟩
  intro u s t found entry alone
  -- an old unit was alone before
  have before : Alone u s d := fun hv => alone (push_old hv)
  cases pe : p.entry with
  | untracked =>
      rcases push_back found with prior | ⟨-, rfl⟩
      · exact h.holds prior entry before
      · rw [show (unitOf x p w).entry = p.entry from rfl, pe] at entry
        cases entry
  | task t' =>
      obtain ⟨task, ht⟩ := linked.entry pooled pe
      obtain ⟨workers, -⟩ := Ledger.enlist_view ht (p.nextKey w) .worker
      show Fits t s.key s.phase (d.ledger.enlist t' (p.nextKey w) .worker)
      rcases push_back found with prior | ⟨-, rfl⟩
      · obtain ⟨w', k, mem, hw, rest⟩ := h.holds prior entry before
        refine ⟨w', k, (Ledger.mem_enlist ht).mpr (.inl ⟨mem, ?_⟩), ?_, rest⟩
        · rintro ⟨rfl, same⟩
          exact alone.not_next prior (pe.trans entry.symm) same
        · rw [workers]
          exact push_old hw
      · obtain rfl : t' = t := Entry.task.inj (pe.symm.trans entry)
        refine ⟨d.ledger.workers.size,
          { path := task.path, kind := .worker, created := d.ledger.now },
          (Ledger.mem_enlist ht).mpr (.inr ⟨rfl, rfl, rfl⟩), ?_, ?_, rfl,
          rfl, rfl⟩
        · rw [workers]
          exact Array.getElem?_push_size
        · intro w' holds
          cases holds

/-- Every unit that is alone keeps its own worker through every turn. -/
theorem Own.turn (linked : Linked d) (roll : Roll d) (h : Own d)
    (turn : Turn d n evs d') : Own d' := by
  cases turn with
  | aside calm =>
      refine ⟨?_⟩
      intro u s t found entry alone
      exact (h.holds found entry alone).beside (calm.crew t) calm.worker
  | joined | told => exact ⟨h.holds⟩
  | @submitted x p w pooled => exact h.submit linked w pooled _
  | @begun u s m w found queued calm finds =>
      refine forAlone_setPhase (d := { d with ledger := m.startWorker w }) found
        ?_ ?_
      -- the thread takes its own worker, and no other unit has that one
      · intro v s' t ne found' entry alone
        have was := (h.holds found' entry alone).beside (calm.crew t)
          calm.worker
        refine was.other _ ?_
        rw [calm.crew]
        exact not_mem_of_finds roll found finds entry alone ne
      · intro t entry alone
        have was := h.holds found entry alone
        rw [queued] at was
        rcases finds with ⟨t', entry', hw⟩ | ⟨none, -⟩
        · obtain rfl : t' = t := Entry.task.inj (entry'.symm.trans entry)
          refine (was.beside (calm.crew t') calm.worker).start ?_ ?_
          · rw [calm.crew]
            exact roll.single t'
          · rw [calm.crew]
            exact mem_of_lookup hw
        -- a key without a member is not the key of a unit
        · obtain ⟨w', -, mem, -⟩ := was
          have some := roll.lookup.mpr mem
          rw [none t entry] at some
          cases some
  | @performed u s w l ran found phase calm noted =>
      refine forAlone_setPhase (d := { d with ledger := l, ran }) found ?_ ?_
      · intro v s' t ne found' entry alone
        exact (h.holds found' entry alone).beside (calm.crew t) calm.worker
      · intro t entry alone
        have was := (h.holds found entry alone).beside (calm.crew t)
          calm.worker
        rw [phase] at was
        exact was.phase (fun _ holds => holds) rfl rfl
  | @ended u s w failure found phase =>
      refine forAlone_setPhase (d := d.onLedger (Ledger.endWorker w)) found
        ?_ ?_
      · intro v s' t ne found' entry alone
        exact (h.holds found' entry alone).other _
          (roll.not_mem found (by rw [phase]; rfl) entry alone ne)
      · intro t entry alone
        have was := h.holds found entry alone
        rw [phase] at was
        exact was.stop
  | @reported u s w failure found phase answer =>
      exact h.report found phase rfl rfl rfl
  | @faulted u s w f failure found phase answer =>
      exact h.report found phase rfl rfl rfl
  | @completed u s l failure found phase calm =>
      refine forAlone_setPhase (d := { d with ledger := l }.onPooled s.executor
        (credited failure)) found ?_ ?_
      · intro v s' t ne found' entry alone
        exact (h.holds found' entry alone).beside (calm.crew t) calm.worker
      · intro t entry alone
        have was := (h.holds found entry alone).beside (calm.crew t)
          calm.worker
        rw [phase] at was
        exact was.phase (fun _ holds => by cases holds) rfl rfl
  | @abandoned u s found phase =>
      refine forAlone_setPhase (d := d.onPooled s.executor
        (credited (some s.cancelled))) found ?_ ?_
      · intro v s' t ne found' entry alone
        exact h.holds found' entry alone
      · intro t entry alone
        have was := h.holds found entry alone
        rw [phase] at was
        exact was.phase (fun _ holds => by cases holds) rfl rfl

/-- What an ordinary run from nothing leaves: nothing points at what is not
there, crews and units agree, and who is alone has its own worker. -/
structure Settled (d : Dispatch) : Prop where
  linked : Linked d
  roll : Roll d
  own : Own d

/-- Where nothing was handed in, everything is settled. -/
theorem Blank.settled (h : d.Blank) : Settled d where
  linked := h.linked
  roll := h.roll
  own := ⟨by intro u s t found; simp [h.units] at found⟩

/-- Every turn leaves it settled. -/
theorem Settled.turn (h : Settled d) (turn : Turn d n evs d') : Settled d' where
  linked := h.linked.turn turn
  roll := h.roll.turn h.linked turn
  own := h.own.turn h.linked h.roll turn

/-- And so does an ordinary run. -/
theorem settled_run {ops : List DispatchOp} (blank : d.Blank)
    (ordinary : DispatchOp.Ordinary ops d = true) :
    Settled (DispatchOp.run ops d).1 :=
  run_holds Settled.turn blank.stopped ordinary
    blank.settled

end Dispatch

end TaskLedger
