/-
What every turn of a dispatch leaves alone. Units and executors come and
stay; a unit only changes its phase, an executor only what it counts and
collects, and a task keeps everything that is fixed when it is put on
record.

`run_keeps` is the induction on runs: what every turn keeps, an ordinary
run keeps. `Linked` is the invariant that all others stand on: a unit
belongs to an executor that is there, and an executor to a task that is on
record.
-/
import TaskLedger.Proofs.Dispatch.Turn

namespace TaskLedger

namespace Dispatch

/-- Nothing is on record, and nobody works yet. -/
structure Blank (d : Dispatch) : Prop where
  tasks : d.ledger.tasks = #[]
  workers : d.ledger.workers = #[]
  journal : d.ledger.journal = []
  executors : d.executors = #[]
  units : d.units = #[]
  stopped : d.stopped = false

variable {d d' : Dispatch} {n : Nat} {evs : List Event}

-- ================================================================= runs

/-- What every turn keeps, an ordinary run keeps. The property may speak of
what was noted so far and of the numbers still to be asked for. -/
theorem run_keeps {P : Nat → List Event → Dispatch → Prop}
    (step : ∀ {b : Nat} {seen : List Event} {d : Dispatch} {n : Nat}
      {evs : List Event} {d' : Dispatch}, P (n + b) seen d →
      Turn d n evs d' → P b (seen ++ evs) d')
    {ops : List DispatchOp} (live : d.stopped = false)
    (ordinary : DispatchOp.Ordinary ops d = true) {b : Nat}
    (start : P (DispatchOp.asked ops + b) [] d) :
    P b (DispatchOp.history ops d) (DispatchOp.run ops d).1 := by
  suffices h : ∀ seen, P (DispatchOp.asked ops + b) seen d →
      P b (seen ++ DispatchOp.history ops d) (DispatchOp.run ops d).1 from
    h [] start
  clear start
  induction ops generalizing d with
  | nil =>
      intro seen h
      rw [DispatchOp.asked, Nat.zero_add] at h
      rw [show DispatchOp.history [] d = [] from rfl, List.append_nil]
      exact h
  | cons op rest ih =>
      intro seen h
      rw [DispatchOp.asked, Nat.add_assoc] at h
      obtain ⟨here, later⟩ := Bool.and_eq_true_iff.mp ordinary
      have turn := turn_apply live here
      have next := ih (turn.stopped.trans live) later _ (step h turn)
      rw [List.append_assoc] at next
      exact next

/-- The same for a property of the dispatch alone. -/
theorem run_holds {P : Dispatch → Prop}
    (step : ∀ {d : Dispatch} {n : Nat} {evs : List Event} {d' : Dispatch},
      P d → Turn d n evs d' → P d')
    {ops : List DispatchOp} (live : d.stopped = false)
    (ordinary : DispatchOp.Ordinary ops d = true) (start : P d) :
    P (DispatchOp.run ops d).1 :=
  run_keeps (P := fun _ _ d => P d) (b := 0) step live ordinary start

/-- An ordinary run leaves the pool alive. -/
theorem run_stopped {ops : List DispatchOp} (live : d.stopped = false)
    (ordinary : DispatchOp.Ordinary ops d = true) :
    (DispatchOp.run ops d).1.stopped = false :=
  run_holds (P := fun d => d.stopped = false)
    (fun h turn => turn.stopped.trans h) live ordinary live

-- ================================================================ units

/-- A unit that is there stays there, whatever phase some unit is moved to. -/
theorem setPhase_unit (u : UnitId) (p : Phase) {v : UnitId} {s : Submitted}
    (h : d.units[v]? = some s) :
    ∃ q, (d.setPhase u p).units[v]? = some { s with phase := q } := by
  rw [getElem?_setPhase, h]
  split
  · exact ⟨p, rfl⟩
  · exact ⟨s.phase, rfl⟩

/-- And there is no other one afterwards. -/
theorem setPhase_unit_back {u : UnitId} {p : Phase} {v : UnitId}
    {s' : Submitted} (h : (d.setPhase u p).units[v]? = some s') :
    ∃ s, d.units[v]? = some s ∧ s' = { s with phase := s'.phase } := by
  rcases modify_cases h with ⟨-, s, hs, rfl⟩ | ⟨-, still⟩
  · exact ⟨s, hs, rfl⟩
  · exact ⟨s', still, rfl⟩

/-- A unit stays in its place and is what it is, or it is new. -/
theorem Turn.unit_back (h : Turn d n evs d') {u : UnitId} {s' : Submitted}
    (found : d'.units[u]? = some s') :
    (∃ s, d.units[u]? = some s ∧ s' = { s with phase := s'.phase })
      ∨ ∃ x p w, d.pooled? x = some p ∧ u = d.units.size
          ∧ s' = unitOf x p w := by
  cases h with
  | aside | joined | told => exact .inl ⟨s', found, rfl⟩
  | @submitted x p w pooled =>
      rcases push_back found with prior | ⟨here, e⟩
      · exact .inl ⟨s', prior, rfl⟩
      · exact .inr ⟨x, p, w, pooled, here, e⟩
  | begun | performed | ended | reported | faulted | completed | abandoned =>
      exact .inl (setPhase_unit_back found)

-- ============================================================ executors

/-- A change of an executor's counts leaves it its owner and its entry. -/
theorem onPooled_pooled {x y : ExecutorId} {f : PooledState → PooledState}
    (keep : ∀ p, (f p).owner = p.owner ∧ (f p).entry = p.entry)
    {p : PooledState} (h : d.pooled? y = some p) :
    ∃ p', (d.onPooled x f).pooled? y = some p' ∧ p'.owner = p.owner
      ∧ p'.entry = p.entry := by
  rw [pooled?_onPooled, h]
  split
  · exact ⟨f p, rfl, keep p⟩
  · exact ⟨p, rfl, rfl, rfl⟩

/-- A pooled executor stays one, for the same owner and the same entry. -/
theorem Turn.pooled (h : Turn d n evs d') {x : ExecutorId} {p : PooledState}
    (found : d.pooled? x = some p) :
    ∃ p', d'.pooled? x = some p' ∧ p'.owner = p.owner
      ∧ p'.entry = p.entry := by
  cases h with
  | aside | begun | performed | ended | reported | faulted =>
      exact ⟨p, found, rfl, rfl⟩
  | joined e fresh =>
      refine ⟨p, ?_, rfl, rfl⟩
      rw [pooled?_push, if_neg]
      · exact found
      · intro e
        rw [pooled?_beyond (Nat.le_of_eq e.symm)] at found
        cases found
  | told => exact onPooled_pooled (f := cleared) (fun _ => ⟨rfl, rfl⟩) found
  | submitted =>
      exact onPooled_pooled (f := charged) (fun _ => ⟨rfl, rfl⟩) found
  | completed | abandoned =>
      exact onPooled_pooled (f := credited _) (fun _ => ⟨rfl, rfl⟩) found

/-- A pooled executor was there before the turn, or is a new one that was made
for what the registry holds. -/
theorem Turn.pooled_back (h : Turn d n evs d') {x : ExecutorId}
    {p' : PooledState} (found : d'.pooled? x = some p') :
    (∃ p, d.pooled? x = some p ∧ p'.owner = p.owner ∧ p'.entry = p.entry)
      ∨ x = d.executors.size
        ∧ DispatchOp.freshFor p' d.ledger = true := by
  -- to count or to collect changes neither the owner nor the entry
  have counted {y : ExecutorId} {f : PooledState → PooledState}
      (keep : ∀ p, (f p).owner = p.owner ∧ (f p).entry = p.entry)
      (found : (d.onPooled y f).pooled? x = some p') :
      ∃ p, d.pooled? x = some p ∧ p'.owner = p.owner
        ∧ p'.entry = p.entry := by
    rw [pooled?_onPooled] at found
    split at found
    · obtain ⟨p, hp, rfl⟩ := Option.map_eq_some_iff.mp found
      exact ⟨p, hp, keep p⟩
    · exact ⟨p', found, rfl, rfl⟩
  cases h with
  | aside | begun | performed | ended | reported | faulted =>
      exact .inl ⟨p', found, rfl, rfl⟩
  | joined e fresh =>
      rw [pooled?_push] at found
      split at found
      -- only an executor that joins is new
      · next here =>
          cases e with
          | direct => cases found
          | pooled p =>
              obtain rfl := Option.some.inj found
              exact .inr ⟨here, fresh p rfl⟩
      · exact .inl ⟨p', found, rfl, rfl⟩
  | told => exact .inl (counted (f := cleared) (fun _ => ⟨rfl, rfl⟩) found)
  | submitted =>
      exact .inl (counted (f := charged) (fun _ => ⟨rfl, rfl⟩) found)
  | completed | abandoned =>
      exact .inl (counted (f := credited _) (fun _ => ⟨rfl, rfl⟩) found)

-- ================================================================ tasks

/-- A task stays on record, and what is fixed of it stays. -/
theorem Turn.task (h : Turn d n evs d') {t : TaskId} {task : Task}
    (found : d.ledger.tasks[t]? = some task) :
    ∃ task', d'.ledger.tasks[t]? = some task' ∧ task.Same task' := by
  cases h with
  | aside calm | performed _ _ calm | completed _ _ calm =>
      exact calm.task found
  | begun _ _ calm => exact calm.task found
  | joined | told | ended | abandoned => exact ⟨task, found, .refl task⟩
  | @submitted x p w pooled =>
      cases entry : p.entry with
      | untracked => exact ⟨task, found, .refl task⟩
      | task u =>
          show ∃ task', (d.ledger.enlist u _ .worker).tasks[t]? = some task'
            ∧ _
          rcases Ledger.enlist_cases u (p.nextKey w) .worker d.ledger with
            ⟨-, he⟩ | ⟨_, hu, -⟩
          · rw [he]
            exact ⟨task, found, .refl task⟩
          · exact (Ledger.enlist_view hu _ _).2.2.2 found
  | reported => exact (Ledger.report_view _ _ _).2.2 found
  | faulted => exact (Ledger.report_view _ _ _).2.2 found

-- =============================================================== linked

/-- A unit belongs to an executor that is there, and an executor to a task
that is on record. -/
structure Linked (d : Dispatch) : Prop where
  unit : ∀ {u : UnitId} {s : Submitted}, d.units[u]? = some s →
    ∃ p, d.pooled? s.executor = some p ∧ p.owner = s.owner
      ∧ p.entry = s.entry
  entry : ∀ {x : ExecutorId} {p : PooledState} {t : TaskId},
    d.pooled? x = some p → p.entry = .task t →
    ∃ task, d.ledger.tasks[t]? = some task

/-- The task that a unit belongs to is on record. -/
theorem Linked.task (h : Linked d) {u : UnitId} {s : Submitted} {t : TaskId}
    (found : d.units[u]? = some s) (entry : s.entry = .task t) :
    ∃ task, d.ledger.tasks[t]? = some task := by
  obtain ⟨p, hp, -, he⟩ := h.unit found
  exact h.entry hp (he.trans entry)

theorem Blank.pooled? (h : d.Blank) (x : ExecutorId) : d.pooled? x = none := by
  unfold Dispatch.pooled?
  rw [h.executors]
  rfl

/-- Where there are no units and no executors, all of them are linked. -/
theorem Blank.linked (h : d.Blank) : Linked d where
  unit := by intro u s found; simp [h.units] at found
  entry := by intro x p t found; rw [h.pooled?] at found; cases found

/-- A turn keeps the links: what is new in it is linked to what was there, and
nothing goes away. -/
theorem Linked.turn (h : Linked d) (turn : Turn d n evs d') : Linked d' where
  unit := by
    intro u s' found
    rcases turn.unit_back found with ⟨s, hs, e⟩ | ⟨x, p, w, hp, -, rfl⟩
    · obtain ⟨p, hp, owner, entry⟩ := h.unit hs
      obtain ⟨p', hp', owner', entry'⟩ := turn.pooled hp
      rw [e]
      exact ⟨p', hp', owner'.trans owner, entry'.trans entry⟩
    · exact turn.pooled hp
  entry := by
    intro x p' t found entry
    rcases turn.pooled_back found with ⟨p, hp, -, e⟩ | ⟨-, fresh⟩
    · obtain ⟨task, ht⟩ := h.entry hp (e.symm.trans entry)
      obtain ⟨task', ht', -⟩ := turn.task ht
      exact ⟨task', ht'⟩
    · have lt : t < d.ledger.tasks.size := by
        unfold DispatchOp.freshFor at fresh
        rw [entry] at fresh
        simpa using (Bool.and_eq_true_iff.mp fresh).2
      obtain ⟨task', ht', -⟩ := turn.task (Array.getElem?_eq_getElem lt)
      exact ⟨task', ht'⟩

end Dispatch

end TaskLedger
