/-
What is not for a task, and the run in which it does not happen.

Units of others go through their phases, others wait and give control back, and
of all that the dispatch that has only the one task's sees the time that passes
(`Mirror.bystander`). An operation of the ledger that is for others moves one
side of the mirror (`Mirror.elsewhere`), the clock moves both (`Mirror.timed`),
and a unit, an executor or a phase of others has nothing to do with the places
that were kept.
-/
import TaskLedger.Proofs.Dispatch.Replay
import TaskLedger.Proofs.Dispatch.Untaken

namespace TaskLedger

/-- The counter is a number. -/
theorem Ledger.counter_le (l : Ledger) :
    l.counter ≤ Sink.largestId.toNat := by
  unfold counter
  cases l.sinks[l.sink]? with
  | none => exact Nat.zero_le _
  | some k => exact Nat.le_of_lt_succ k.last.toNat_lt

namespace Dispatch

variable {refuses : Nat → SpanRecord → Option Error} {path : String}
  {r : TaskId} {hired : List WorkerId} {c : Cast} {ps : Paired}
  {d e : Dispatch} {x : ExecutorId} {u : UnitId} {s : Submitted}
  {o : LedgerOp}

-- ================================================================== ledger

/-- The ledger does something for others. -/
theorem Mirror.elsewhere (h : Mirror refuses path r c ps d e)
    (elsewhere : o.elsewhere path r c.workers = true)
    (other : ∀ project variant, o = .addTask path project variant →
      d.ledger.tasks.size ≠ r)
    (timeless : o.takesTime = false)
    (room : d.ledger.counter + o.draws d.ledger
      ≤ Sink.largestId.toNat) :
    Mirror refuses path r c ps { d with ledger := (o.apply d.ledger).1 }
      e where
  ledger := h.ledger.aside elsewhere other timeless room
  stopped := h.stopped
  executors := h.executors
  units := h.units
  others := h.others
  strange found aside :=
    let beside := LedgerOp.beside_apply (l := d.ledger) timeless elsewhere
      h.ledger.workers.below
    (h.strange found aside).beside beside.staff (Nat.le_refl _)

/-- A worker of others starts or ends. -/
theorem Mirror.worked (h : Mirror refuses path r c ps d e) {w : WorkerId}
    (other : w ∉ c.workers) (is : o = .startWorker w ∨ o = .endWorker w) :
    Mirror refuses path r c ps { d with ledger := (o.apply d.ledger).1 }
      e := by
  have absent : (!c.workers.contains w) = true := by
    rw [Bool.not_eq_true', List.contains_eq_mem, decide_eq_false_iff_not]
    exact other
  rcases is with rfl | rfl
  · exact h.elsewhere (o := .startWorker w) absent
      (fun _ _ same => by cases same) rfl (Ledger.counter_le d.ledger)
  · exact h.elsewhere (o := .endWorker w) absent
      (fun _ _ same => by cases same) rfl (Ledger.counter_le d.ledger)

/-- What addresses another entry is for others. -/
theorem Mirror.addressed (h : Mirror refuses path r c ps d e) {t : Entry}
    (entry : o.entry? = some t) (other : t ≠ .task r)
    (timeless : o.takesTime = false)
    (room : d.ledger.counter + o.draws d.ledger
      ≤ Sink.largestId.toNat) :
    Mirror refuses path r c ps { d with ledger := (o.apply d.ledger).1 }
      e := by
  have ne : o.entry? ≠ some (.task r) := by
    rw [entry]
    exact fun same => other (Option.some.inj same)
  refine h.elsewhere ?_ (fun _ _ same => ?_) timeless room
  · cases o with
    | await | close | finish | attach | conclude | enlist | lookUp | report =>
        exact bne_iff_ne.mpr ne
    | _ => cases entry
  · rw [same] at entry
    cases entry

/-- Time passes in both. -/
theorem Mirror.timed (h : Mirror refuses path r c ps d e)
    (time : o.takesTime = true) :
    Mirror refuses path r c ps { d with ledger := (o.apply d.ledger).1 }
      { e with ledger := (o.apply e.ledger).1 } where
  ledger := h.ledger.clock time
  stopped := h.stopped
  executors := h.executors
  units := h.units
  others := h.others
  strange found aside := by
    obtain ⟨now, wall, he, -⟩ :=
      Ledger.clock_cases h.ledger.now h.ledger.wall time
    have staff : (o.apply d.ledger).1.workers = d.ledger.workers := by
      rw [he]
    exact (h.strange found aside).beside
      (Nat.le_of_eq (congrArg Array.size staff.symm)) (Nat.le_refl _)

theorem perform_fst (w : Work) (d : Dispatch) :
    (d.perform w).1
      = { d with
          ledger := ((LedgerOp.advance w.script.ms w.script.ns).apply
            d.ledger).1
          ran := d.ran ++ [w.action] } := by
  unfold perform
  dsimp only
  split
  · next h => simp [LedgerOp.apply, LedgerOp.apply.done, h]
  · next h => simp [LedgerOp.apply, LedgerOp.apply.done, h]

/-- A unit of others runs. -/
theorem Mirror.performed (h : Mirror refuses path r c ps d e) (w : Work) :
    Mirror refuses path r c ps (d.perform w).1
      { e with ledger := ((LedgerOp.advance w.script.ms w.script.ns).apply
          e.ledger).1 } := by
  rw [perform_fst]
  exact (h.timed (o := .advance w.script.ms w.script.ns) rfl).told _ _ _ _
    (d.ran ++ [w.action]) e.ran

-- ================================================================== phases

/-- A unit of others is counted off. -/
theorem Mirror.counted (h : Mirror refuses path r c ps d e)
    (strange : Strange r c d s) (other : u ∉ c.units)
    (failure : Option String) {p : Phase} (none : p.worker? = none) :
    Mirror refuses path r c ps
      ((d.countOff s.executor failure).setPhase u p) e := by
  have off : Mirror refuses path r c ps (d.countOff s.executor failure) e :=
    h.pooledAside strange.executor fun _ => rfl
  refine off.phasedAside other fun w holds => ?_
  rw [none] at holds
  cases holds

/-- Others find a worker of their own. -/
theorem Mirror.strangers (h : Mirror refuses path r c ps d e) {t : Entry}
    (other : t ≠ .task r) (key : String) :
    (Ledger.OnEntry.lookUp t key d.ledger).2 ∉ c.workers
      ∧ (Ledger.OnEntry.lookUp t key d.ledger).2
        < (Ledger.OnEntry.lookUp t key d.ledger).1.workers.size := by
  have standIn : d.ledger.addStandIn.2 ∉ c.workers
      ∧ d.ledger.addStandIn.2 < d.ledger.addStandIn.1.workers.size := by
    refine ⟨h.ledger.workers.fresh, ?_⟩
    show d.ledger.workers.size < (d.ledger.workers.push _).size
    rw [Array.size_push]
    exact Nat.lt_succ_self _
  cases t with
  | untracked => exact standIn
  | task t =>
      show (d.ledger.lookUp t key).2 ∉ c.workers
        ∧ (d.ledger.lookUp t key).2 < (d.ledger.lookUp t key).1.workers.size
      unfold Ledger.lookUp
      split
      · next w found =>
          obtain ⟨task, there, found⟩ := Option.bind_eq_some_iff.mp found
          have mem := mem_of_lookup found
          refine ⟨h.ledger.strangers (fun same => other (same ▸ rfl))
            (by rw [Ledger.crewAt_of there]; exact mem), ?_⟩
          obtain ⟨k, present⟩ := h.ledger.left.sound.manned there mem
          exact (Array.getElem?_eq_some_iff.mp present).1
      · exact standIn

/-- A thread takes a unit of others. -/
theorem Mirror.taken (h : Mirror refuses path r c ps d e)
    (strange : Strange r c d s) (other : u ∉ c.units) :
    Mirror refuses path r c ps
      (setPhase u (.begun (Ledger.OnEntry.lookUp s.entry s.key d.ledger).2)
        { d with
          ledger := (Ledger.OnEntry.lookUp s.entry s.key d.ledger).1.startWorker
            (Ledger.OnEntry.lookUp s.entry s.key d.ledger).2 }) e := by
  obtain ⟨aside, below⟩ := h.strangers strange.entry s.key
  have looked : Mirror refuses path r c ps
      { d with ledger := (Ledger.OnEntry.lookUp s.entry s.key d.ledger).1 }
      e :=
    h.addressed (o := .lookUp s.entry s.key) rfl strange.entry rfl
      (Ledger.counter_le d.ledger)
  have begun := looked.worked (o := .startWorker _) aside (.inl rfl)
  refine begun.phasedAside other fun w holds => ?_
  obtain rfl := Option.some.inj holds
  refine ⟨aside, ?_⟩
  show _ < (Array.modify _ _ _).size
  rw [Array.size_modify]
  exact below

/-- The next step of a unit of others. -/
theorem Mirror.proceedAside (h : Mirror refuses path r c ps d e)
    (other : u ∉ c.units)
    (room : d.ledger.counter + LedgerOp.drawn ((DispatchOp.proceed u).moves d)
      ((DispatchOp.proceed u).noticed d) ≤ Sink.largestId.toNat) :
    Mirror refuses path r c ps (d.proceed u)
      (DispatchOp.run ((((DispatchOp.proceed u).moves d).filter
        LedgerOp.takesTime).map .onLedger) e).1 := by
  cases found : d.units[u]? with
  | none =>
      simp only [proceed, DispatchOp.moves, found]
      exact h
  | some s =>
  have strange := h.strange found other
  -- each step of a stranger moves one thing, and none that the mirror shows
  cases phase : s.phase with
  | queued =>
      simp only [proceed, DispatchOp.moves, found, phase]
      by_cases stopped : d.stopped = true
      · rw [if_pos stopped, if_pos stopped]
        exact h.counted strange other (some s.cancelled) rfl
      · rw [if_neg stopped, if_neg stopped]
        have noted := h.told (d.ledger.marks ++ [.unit u]) e.ledger.marks
          d.ledger.warnings e.ledger.warnings d.ran e.ran
        exact noted.taken ⟨strange.entry, strange.executor, strange.there,
          strange.worker⟩ other
  | begun w =>
      simp only [proceed, DispatchOp.moves, found, phase]
      refine (h.performed s.work).phasedAside other fun v holds => ?_
      obtain ⟨now, he⟩ := perform_clock s.work d
      rw [he]
      exact strange.worker v (by rw [phase]; exact holds)
  | ran w failure =>
      simp only [proceed, DispatchOp.moves, found, phase]
      obtain ⟨aside, below⟩ := strange.worker w (by rw [phase]; rfl)
      have ended := h.worked aside (.inr rfl)
      refine ended.phasedAside other fun v holds => ?_
      obtain rfl := Option.some.inj holds
      refine ⟨aside, ?_⟩
      show w < (Array.modify _ _ _).size
      rw [Array.size_modify]
      exact below
  | ended w failure =>
      simp only [proceed, DispatchOp.moves, DispatchOp.noticed, found, phase]
        at room ⊢
      have reported := h.addressed (o := .report s.entry w) rfl strange.entry
        rfl room
      have same : ((LedgerOp.report s.entry w).apply d.ledger).1
          = (Ledger.OnEntry.report s.entry w d.ledger).1 := rfl
      rw [same] at reported
      split
      · next l he =>
          rw [he] at reported
          exact reported.phasedAside other fun v holds => by cases holds
      · next l f he =>
          rw [he] at reported
          exact reported.phasedAside other fun v holds => by cases holds
  | reported failure =>
      simp only [proceed, DispatchOp.moves, found, phase]
      cases failure with
      | none => exact h.counted strange other none rfl
      | some cause =>
          have noted := h.told d.ledger.marks e.ledger.marks
            (d.ledger.warnings ++ [.unitFailed s.owner s.key cause])
            e.ledger.warnings d.ran e.ran
          exact noted.counted ⟨strange.entry, strange.executor, strange.there,
            strange.worker⟩ other (some cause) rfl
  | faulted =>
      simp only [proceed, DispatchOp.moves, found, phase]
      exact h.counted strange other (some s.cancelled) rfl
  | completed failure =>
      simp only [proceed, DispatchOp.moves, found, phase]
      exact h
  | abandoned =>
      simp only [proceed, DispatchOp.moves, found, phase]
      exact h

-- ============================================================== submissions

/-- In a stopped pool a unit that is queued is dropped. -/
theorem proceed_dropped (stopped : d.stopped = true)
    (found : d.units[u]? = some s) (queued : s.phase = .queued) :
    d.proceed u
      = (d.countOff s.executor (some s.cancelled)).setPhase u .abandoned := by
  simp only [proceed, found, queued, stopped, if_true]

/-- An executor of others is given a unit. -/
theorem Mirror.handedAside (h : Mirror refuses path r c ps d e)
    (other : x ∉ c.executors) {p : PooledState}
    (pooled : d.pooled? x = some p) (w : Work) :
    Mirror refuses path r c ps (d.handed x p w) e
      ∧ Strange r c (d.handed x p w) (unitOf x p w) := by
  have entry : p.entry ≠ .task r := fun same =>
    other (h.others pooled same)
  have there : x < d.executors.size :=
    (Array.getElem?_eq_some_iff.mp (executor_of pooled)).1
  have enlisted : Mirror refuses path r c ps
      (d.onLedger (Ledger.OnEntry.does p.entry
        fun t => Ledger.enlist t (p.nextKey w) .worker)) e :=
    h.addressed (o := .enlist p.entry (p.nextKey w) .worker) rfl entry rfl
      (Ledger.counter_le d.ledger)
  have charged : Mirror refuses path r c ps
      ((d.onLedger (Ledger.OnEntry.does p.entry
        fun t => Ledger.enlist t (p.nextKey w) .worker)).onPooled x charged)
      e :=
    enlisted.pooledAside other fun _ => rfl
  have strange {d' : Dispatch} (same : d'.executors.size = d.executors.size) :
      Strange r c d' (unitOf x p w) :=
    ⟨entry, other, same ▸ there, fun v holds => by cases holds⟩
  refine ⟨charged.givenAside (strange ?_), strange ?_⟩
  · exact Array.size_modify
  · exact Array.size_modify

theorem Mirror.submitAside (h : Mirror refuses path r c ps d e)
    (other : x ∉ c.executors) (w : Work) :
    Mirror refuses path r c ps (d.submit x w).1
      (DispatchOp.run ((((DispatchOp.submit x w).moves d).filter
        LedgerOp.takesTime).map .onLedger) e).1 := by
  cases found : d.executors[x]? with
  | none =>
      simp only [submit, DispatchOp.moves, found]
      exact h
  | some y =>
  cases y with
  | direct owner =>
      have ran := h.performed w
      simp only [submit, DispatchOp.moves, found]
      split
      · next he => rw [he] at ran; exact ran
      · next he => rw [he] at ran; exact ran
      · next he => rw [he] at ran; exact ran
  | pooled p =>
      have pooled : d.pooled? x = some p := by
        unfold pooled?
        rw [found]
      obtain ⟨handed, strange⟩ := h.handedAside other pooled w
      have idle : ((DispatchOp.submit x w).moves d).filter LedgerOp.takesTime
          = [] := by
        simp only [DispatchOp.moves, found]
        rfl
      rw [submit_pooled found, idle]
      by_cases stopped : d.stopped = true
      · rw [if_pos stopped, proceed_dropped (d := d.handed x p w) stopped
          Array.getElem?_push_size rfl]
        exact handed.counted strange h.units.fresh _ rfl
      · rw [if_neg stopped]
        exact handed

-- ================================================================= assembly

/-- What is not for the task leaves the mirror a mirror, if the time that it
takes passes in the other run as well. -/
theorem Mirror.bystander (h : Mirror refuses path r c ps d e)
    {op : DispatchOp} (others : op.own path r hired c d = false)
    (room : d.ledger.counter
      + LedgerOp.drawn (op.moves d) (op.noticed d) ≤ Sink.largestId.toNat) :
    Mirror refuses path r c ps (op.apply d).1
      (DispatchOp.run (((op.moves d).filter LedgerOp.takesTime).map
        .onLedger) e).1 := by
  -- what is not on the list of the task is somebody else's
  have absent {n : Nat} {ns : List Nat} (not : ns.contains n = false) :
      n ∉ ns := by
    rw [List.contains_eq_mem, decide_eq_false_iff_not] at not
    exact not
  cases op with
  | onLedger op =>
      cases time : op.takesTime with
      | true =>
          rw [show ((DispatchOp.onLedger op).moves d).filter
            LedgerOp.takesTime = [op] from List.filter_cons_of_pos time]
          exact h.timed time
      | false =>
          rw [show ((DispatchOp.onLedger op).moves d).filter
            LedgerOp.takesTime = [] from
              List.filter_cons_of_neg (Bool.eq_false_iff.mp time)]
          refine h.elsewhere (LedgerOp.elsewhere_of_not_own others)
            (fun project variant same here => ?_) time room
          subst same
          have mine : LedgerOp.own path r hired c.workers d.ledger
              (.addTask path project variant) = true := by
            simp only [LedgerOp.own, here, beq_self_eq_true, Bool.and_self]
          rw [show LedgerOp.own path r hired c.workers d.ledger
            (.addTask path project variant) = false from others] at mine
          cases mine
  | addExecutor y =>
      cases y with
      | direct owner => exact h.equippedAside fun p same => by cases same
      | pooled p =>
          refine h.equippedAside fun q same => ?_
          cases same
          exact ne_of_beq_false others
  | submit x w => exact h.submitAside (absent others) w
  | proceed u => exact h.proceedAside (absent others) room
  | beginAwait x =>
      show Mirror _ _ _ _ _ (d.beginAwait x) _
      cases pooled : d.pooled? x with
      | none =>
          simp only [beginAwait, DispatchOp.moves, pooled]
          exact h
      | some p =>
          simp only [beginAwait, DispatchOp.moves, pooled]
          exact h.addressed (o := .await p.entry) rfl
            (fun same => absent others (h.others pooled same)) rfl
            (Ledger.counter_le d.ledger)
  | release x =>
      show Mirror _ _ _ _ _ (d.release x) _
      cases pooled : d.pooled? x with
      | none =>
          simp only [release, DispatchOp.moves, pooled]
          exact h
      | some p =>
          simp only [release, DispatchOp.moves, pooled]
          exact h.addressed (o := .close p.entry) rfl
            (fun same => absent others (h.others pooled same)) rfl
            (Ledger.counter_le d.ledger)
  | endAwait x =>
      unfold DispatchOp.apply endAwait
      dsimp only
      cases pooled : d.pooled? x with
      | none => exact h
      | some p =>
          dsimp only
          by_cases idle : p.outstanding = 0
          · rw [if_pos idle]
            exact h.pooledAside (absent others) fun _ => rfl
          · rw [if_neg idle]
            exact h
  | stop => cases others

end Dispatch

end TaskLedger
