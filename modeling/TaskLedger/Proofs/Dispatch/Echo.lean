/-
What is for a task, in the run that has only what is for it.

Each thing that happens for the task happens there in other places, and leaves
a mirror again: what the ledger does has its echo there (`Mirror.carry`), and
the executors and units of the task do the same on either side. What comes of
it is the same, where it depends on the task alone (`Mirror.echo`).
-/
import TaskLedger.Proofs.Dispatch.Bystander

namespace TaskLedger

/-- What addresses a task on record is for it, and comes as it should if a
worker that reports is the task's. -/
theorem LedgerOp.addresses {o : LedgerOp} {path : String} {r : TaskId}
    {ts : List TaskId} {ws : List WorkerId} (l : Ledger) (mem : r ∈ ts)
    (entry : o.entry? = some (.task r))
    (mine : ∀ w, o = .report (.task r) w → w ∈ ws) :
    o.own path r [] ws l = true ∧ o.proper r ts ws l = true := by
  refine ⟨(LedgerOp.own_of_entry entry).trans (beq_self_eq_true r), ?_⟩
  unfold LedgerOp.proper
  rw [entry, bne_self_eq_false, Bool.false_or, Bool.and_eq_true]
  refine ⟨List.contains_iff_mem.mpr mem, ?_⟩
  cases o with
  | report t w =>
      obtain rfl := Option.some.inj entry
      dsimp only
      rw [bne_self_eq_false, Bool.false_or, Bool.or_eq_true]
      exact .inl (List.contains_iff_mem.mpr (mine w rfl))
  | _ => rfl

namespace Dispatch

variable {refuses : Nat → SpanRecord → Option Error} {path : String}
  {r : TaskId} {hired : List WorkerId} {c : Cast} {ps : Paired}
  {d e : Dispatch} {x : ExecutorId} {u : UnitId} {s : Submitted}
  {o : LedgerOp}

-- ================================================================== ledger

/-- The ledger does something for the task. -/
theorem Mirror.carry (h : Mirror refuses path r c ps d e)
    (own : o.own path r hired c.workers d.ledger = true)
    (proper : o.proper r c.tasks c.workers d.ledger = true)
    (room : d.ledger.counter + o.draws d.ledger
      ≤ Sink.largestId.toNat) :
    ∃ qs, ps ⊆ qs
      ∧ Mirror refuses path r
          (c.staffed d.ledger (o.apply d.ledger).1) qs
          { d with ledger := (o.apply d.ledger).1 }
          { e with
            ledger := ((o.recast c.tasks c.workers).apply e.ledger).1 }
      ∧ (Ledger.Compared path r c.tasks o d.ledger e.ledger →
          ((o.recast c.tasks c.workers).apply e.ledger).2
            = (o.apply d.ledger).2.map (LedgerAnswer.recast
                (c.staffed d.ledger (o.apply d.ledger).1).tasks
                (c.staffed d.ledger (o.apply d.ledger).1).workers)) := by
  obtain ⟨qs, sub, ledger, answer⟩ := h.ledger.echo own proper room
  exact ⟨qs, sub, h.carried ledger
    (size_le_of_old fun found => ⟨_, LedgerOp.worker_apply o found⟩), answer⟩

/-- It does something for the task that brings nobody. -/
theorem Mirror.carry_same (h : Mirror refuses path r c ps d e)
    (own : o.own path r hired c.workers d.ledger = true)
    (proper : o.proper r c.tasks c.workers d.ledger = true)
    (room : d.ledger.counter + o.draws d.ledger
      ≤ Sink.largestId.toNat)
    (tasks : (o.apply d.ledger).1.tasks.size = d.ledger.tasks.size)
    (workers : (o.apply d.ledger).1.workers.size
      = d.ledger.workers.size) :
    ∃ qs, ps ⊆ qs
      ∧ Mirror refuses path r c qs
          { d with ledger := (o.apply d.ledger).1 }
          { e with
            ledger := ((o.recast c.tasks c.workers).apply e.ledger).1 }
      ∧ (Ledger.Compared path r c.tasks o d.ledger e.ledger →
          ((o.recast c.tasks c.workers).apply e.ledger).2
            = (o.apply d.ledger).2.map
              (LedgerAnswer.recast c.tasks c.workers)) := by
  have carried := h.carry own proper room
  rwa [c.staffed_same tasks workers] at carried

/-- One of the task's workers starts or ends. -/
theorem Mirror.workedOn (h : Mirror refuses path r c ps d e) {w : WorkerId}
    (mem : w ∈ c.workers)
    (is : o = .startWorker w ∨ o = .endWorker w) :
    ∃ qs, ps ⊆ qs
      ∧ Mirror refuses path r c qs
          { d with ledger := (o.apply d.ledger).1 }
          { e with
            ledger := ((o.recast c.tasks c.workers).apply e.ledger).1 } := by
  have least := Ledger.counter_le d.ledger
  rcases is with rfl | rfl
  · have mine : LedgerOp.own path r [] c.workers d.ledger (.startWorker w)
        = true := List.contains_iff_mem.mpr mem
    obtain ⟨qs, sub, mirror, -⟩ :=
      h.carry_same mine rfl least rfl Array.size_modify
    exact ⟨qs, sub, mirror⟩
  · have mine : LedgerOp.own path r [] c.workers d.ledger (.endWorker w)
        = true := List.contains_iff_mem.mpr mem
    obtain ⟨qs, sub, mirror, -⟩ :=
      h.carry_same mine rfl least rfl Array.size_modify
    exact ⟨qs, sub, mirror⟩

/-- What a unit comes to depends on the clock alone. -/
theorem perform_now (now : e.ledger.now = d.ledger.now) (w : Work) :
    (e.perform w).2 = (d.perform w).2 := by
  unfold perform Ledger.advance
  dsimp only
  rw [now]
  cases Duration.ofParts w.script.ms w.script.ns >>= d.ledger.now.shift <;> rfl

/-- A unit of the task runs in both. -/
theorem Mirror.performedBoth (h : Mirror refuses path r c ps d e)
    (w : Work) :
    Mirror refuses path r c ps (d.perform w).1 (e.perform w).1 := by
  rw [perform_fst, perform_fst]
  exact (h.timed (o := .advance w.script.ms w.script.ns) rfl).told _ _ _ _
    (d.ran ++ [w.action]) (e.ran ++ [w.action])

-- =================================================================== units

/-- A unit of the task is counted off in both. -/
theorem Mirror.countedBoth (h : Mirror refuses path r c ps d e)
    (executor : x ∈ c.executors) (unit : u ∈ c.units)
    (failure : Option String) {p : Phase} (none : p.worker? = none)
    (same : p.recast c.workers = p) :
    Mirror refuses path r c ps ((d.countOff x failure).setPhase u p)
      ((e.countOff (c.executors.idxOf x) failure).setPhase
        (c.units.idxOf u) p) := by
  have off : Mirror refuses path r c ps (d.countOff x failure)
      (e.countOff (c.executors.idxOf x) failure) :=
    h.pooled executor fun _ _ => rfl
  have phased := off.phased unit (p := p) fun w holds => by
    rw [none] at holds
    cases holds
  rwa [same] at phased

/-- Who is found under a key of the task was kept, or is new. -/
theorem Mirror.lookUp_mem (h : Mirror refuses path r c ps d e)
    (mem : r ∈ c.tasks) (key : String) :
    (d.ledger.lookUp r key).2
      ∈ (c.staffed d.ledger (d.ledger.lookUp r key).1).workers := by
  obtain ⟨a, b, found, -, -, twin⟩ := (h.ledger.reflected mem).task
  unfold Ledger.lookUp
  rw [found, Option.bind_some]
  cases here : a.crew.lookup key with
  | some w => exact List.mem_append_left _ (twin.mem_of_lookup here)
  | none =>
      show d.ledger.workers.size ∈ grown c.workers d.ledger.workers.size
        (d.ledger.workers.push _).size
      rw [Array.size_push, grown_succ]
      exact List.mem_append_right _ (List.mem_singleton_self _)

/-- A thread takes a unit of the task in both. -/
theorem Mirror.takenBoth (h : Mirror refuses path r c ps d e)
    (mem : r ∈ c.tasks) (unit : u ∈ c.units) (key : String) :
    ∃ qs, ps ⊆ qs
      ∧ Mirror refuses path r
          (c.staffed d.ledger ((d.ledger.lookUp r key).1.startWorker
            (d.ledger.lookUp r key).2)) qs
          (setPhase u (.begun (d.ledger.lookUp r key).2)
            { d with
              ledger := (d.ledger.lookUp r key).1.startWorker
                (d.ledger.lookUp r key).2 })
          (setPhase (c.units.idxOf u)
            (.begun (e.ledger.lookUp (c.tasks.idxOf r) key).2)
            { e with
              ledger := (e.ledger.lookUp (c.tasks.idxOf r) key).1.startWorker
                (e.ledger.lookUp (c.tasks.idxOf r) key).2 }) := by
  have kept := h.lookUp_mem mem key
  obtain ⟨own, proper⟩ := LedgerOp.addresses (o := .lookUp (.task r) key)
    d.ledger mem rfl fun w same => by cases same
  obtain ⟨qs, sub, looked, answer⟩ :=
    h.carry own proper (Ledger.counter_le d.ledger)
  obtain ⟨ss, sub', begun⟩ := looked.workedOn kept (.inl rfl)
  have phased := begun.phased unit (p := .begun (d.ledger.lookUp r key).2)
    fun w holds => Option.some.inj holds ▸ kept
  have place : (e.ledger.lookUp (c.tasks.idxOf r) key).2
      = (c.staffed d.ledger (d.ledger.lookUp r key).1).workers.idxOf
        (d.ledger.lookUp r key).2 :=
    LedgerAnswer.worker.inj
      (Except.ok.inj (answer (Ledger.compared_other rfl nofun)))
  have cast : c.staffed d.ledger ((d.ledger.lookUp r key).1.startWorker
        (d.ledger.lookUp r key).2)
      = c.staffed d.ledger (d.ledger.lookUp r key).1 :=
    c.staffed_congr rfl Array.size_modify
  refine ⟨ss, List.Subset.trans sub sub', ?_⟩
  rw [place, cast]
  exact phased

/-- The worker of a unit reports to the task in both. -/
theorem Mirror.reportedBoth (h : Mirror refuses path r c ps d e)
    (mem : r ∈ c.tasks) {w : WorkerId} (mine : w ∈ c.workers)
    (room : d.ledger.counter + (LedgerOp.report (.task r) w).draws d.ledger
      ≤ Sink.largestId.toNat) :
    ∃ qs, ps ⊆ qs
      ∧ Mirror refuses path r c qs { d with ledger := (d.ledger.report r w).1 }
          { e with
            ledger := (e.ledger.report (c.tasks.idxOf r)
              (c.workers.idxOf w)).1 }
      ∧ (e.ledger.report (c.tasks.idxOf r) (c.workers.idxOf w)).2
        = (d.ledger.report r w).2 := by
  obtain ⟨own, proper⟩ := LedgerOp.addresses (o := .report (.task r) w)
    d.ledger mem rfl fun v same => by cases same; exact mine
  obtain ⟨tasks, workers⟩ := Ledger.Mirror.report_sizes r w d.ledger
  obtain ⟨qs, sub, reported, answer⟩ :=
    h.carry_same own proper room tasks workers
  refine ⟨qs, sub, reported, ?_⟩
  have same : ((e.ledger.report (c.tasks.idxOf r) (c.workers.idxOf w)).2.map
        fun _ => LedgerAnswer.done)
      = ((d.ledger.report r w).2.map fun _ => LedgerAnswer.done).map
        (LedgerAnswer.recast c.tasks c.workers) :=
    answer (Ledger.compared_other rfl nofun)
  cases here : (d.ledger.report r w).2 with
  | ok =>
      rw [here] at same
      cases there : (e.ledger.report (c.tasks.idxOf r)
          (c.workers.idxOf w)).2 with
      | ok => rfl
      | error f =>
          rw [there] at same
          cases same
  | error f =>
      rw [here] at same
      cases there : (e.ledger.report (c.tasks.idxOf r)
          (c.workers.idxOf w)).2 with
      | ok =>
          rw [there] at same
          cases same
      | error g =>
          rw [there] at same
          rw [Except.error.inj same]

/-- Where a unit goes on from its worker's report. -/
def outcome (failure : Option String) : Except Fault Unit → Phase
  | .ok () => .reported failure
  | .error _ => .faulted

theorem proceed_ended {w : WorkerId} {failure : Option String}
    (found : d.units[u]? = some s) (phase : s.phase = .ended w failure) :
    d.proceed u
      = setPhase u (outcome failure
          (Ledger.OnEntry.report s.entry w d.ledger).2)
        { d with ledger := (Ledger.OnEntry.report s.entry w d.ledger).1 } := by
  simp only [proceed, found, phase]
  split
  · next he => rw [he]; rfl
  · next he => rw [he]; rfl

/-- The next step of a unit of the task, in both. -/
theorem Mirror.proceedBoth (h : Mirror refuses path r c ps d e)
    (unit : u ∈ c.units)
    (room : d.ledger.counter + LedgerOp.drawn ((DispatchOp.proceed u).moves d)
      ((DispatchOp.proceed u).noticed d) ≤ Sink.largestId.toNat) :
    ∃ qs, ps ⊆ qs
      ∧ Mirror refuses path r (c.staffed d.ledger (d.proceed u).ledger) qs
          (d.proceed u) (e.proceed (c.units.idxOf u)) := by
  obtain ⟨s, s', found, found', twin⟩ := h.units.copy unit
  have entry := twin.entry
  -- with nobody new the places stay what they are
  have same {qs : Paired} {d' e' : Dispatch} (sub : ps ⊆ qs)
      (tasks : d'.ledger.tasks.size = d.ledger.tasks.size)
      (workers : d'.ledger.workers.size = d.ledger.workers.size)
      (mirror : Mirror refuses path r c qs d' e') :
      ∃ qs, ps ⊆ qs
        ∧ Mirror refuses path r (c.staffed d.ledger d'.ledger) qs d' e' := by
    refine ⟨qs, sub, ?_⟩
    rw [c.staffed_same tasks workers]
    exact mirror
  have idle {failure : Option String} {p : Phase}
      (none : p.worker? = none) (recast : p.recast c.workers = p) :=
    h.countedBoth twin.executor unit failure none recast
  rw [twin.same] at found'
  cases phase : s.phase with
  | queued =>
      simp only [proceed, found, found', phase, Phase.recast]
      by_cases stopped : d.stopped = true
      · rw [if_pos stopped, if_pos (h.stopped.trans stopped)]
        exact same (fun _ mem => mem) rfl rfl (idle rfl rfl)
      · rw [if_neg stopped, if_neg (h.stopped ▸ stopped), entry]
        have noted := h.told (d.ledger.marks ++ [.unit u])
          (e.ledger.marks ++ [.unit (c.units.idxOf u)]) d.ledger.warnings
          e.ledger.warnings d.ran e.ran
        obtain ⟨qs, sub, begun⟩ := noted.takenBoth twin.mem unit s.key
        exact ⟨qs, sub, begun⟩
  | begun w =>
      simp only [proceed, found, found', phase, Phase.recast]
      have mine : w ∈ c.workers := twin.worker w (by rw [phase]; rfl)
      obtain ⟨now, he⟩ := perform_clock s.work d
      refine same (fun _ mem => mem) ?_ ?_ ?_
      · rw [he]
        rfl
      · rw [he]
        rfl
      · rw [perform_now h.ledger.now]
        exact (h.performedBoth s.work).phased unit fun v holds =>
          Option.some.inj holds ▸ mine
  | ran w failure =>
      simp only [proceed, found, found', phase, Phase.recast]
      have mine : w ∈ c.workers := twin.worker w (by rw [phase]; rfl)
      obtain ⟨qs, sub, ended⟩ := h.workedOn mine (.inr rfl)
      exact same sub rfl Array.size_modify
        (ended.phased unit (p := .ended w failure) fun v holds =>
          Option.some.inj holds ▸ mine)
  | ended w failure =>
      simp only [DispatchOp.moves, DispatchOp.noticed, found, phase, entry]
        at room
      have mine : w ∈ c.workers := twin.worker w (by rw [phase]; rfl)
      obtain ⟨qs, sub, reported, answer⟩ :=
        h.reportedBoth twin.mem mine room
      obtain ⟨tasks, workers⟩ := Ledger.Mirror.report_sizes r w d.ledger
      have recast : s.phase.recast c.workers
          = .ended (c.workers.idxOf w) failure := by
        rw [phase]
        rfl
      rw [proceed_ended found phase, proceed_ended found' recast, entry]
      refine same sub tasks workers ?_
      show Mirror _ _ _ _ _ (setPhase u (outcome failure
          (d.ledger.report r w).2) _) (setPhase _ (outcome failure
            (e.ledger.report (c.tasks.idxOf r) (c.workers.idxOf w)).2) _)
      rw [answer]
      cases (d.ledger.report r w).2 with
      | ok =>
          exact reported.phased unit (p := .reported failure)
            fun v holds => by cases holds
      | error f =>
          exact reported.phased unit (p := .faulted)
            fun v holds => by cases holds
  | reported failure =>
      simp only [proceed, found, found', phase, Phase.recast]
      cases failure with
      | none => exact same (fun _ mem => mem) rfl rfl (idle rfl rfl)
      | some cause =>
          have noted := h.told d.ledger.marks e.ledger.marks
            (d.ledger.warnings ++ [.unitFailed s.owner s.key cause])
            (e.ledger.warnings ++ [.unitFailed s.owner s.key cause])
            d.ran e.ran
          exact same (fun _ mem => mem) rfl rfl
            (noted.countedBoth twin.executor unit (some cause) rfl rfl)
  | faulted =>
      simp only [proceed, found, found', phase, Phase.recast]
      exact same (fun _ mem => mem) rfl rfl (idle rfl rfl)
  | completed failure =>
      simp only [proceed, found, found', phase, Phase.recast]
      exact same (fun _ mem => mem) rfl rfl h
  | abandoned =>
      simp only [proceed, found, found', phase, Phase.recast]
      exact same (fun _ mem => mem) rfl rfl h

-- ============================================================== submissions

theorem proceed_executors (u : UnitId) (d : Dispatch) :
    (d.proceed u).executors.size = d.executors.size
      ∧ (d.proceed u).units.size = d.units.size := by
  refine ⟨?_, proceed_size u d⟩
  have same := congrArg Array.size (cores_proceed u d)
  unfold cores at same
  rwa [Array.size_map, Array.size_map] at same

/-- A pooled executor of the task is given a unit, in both. -/
theorem Mirror.handedBoth (h : Mirror refuses path r c ps d e)
    (mem : x ∈ c.executors) (kept : r ∈ c.tasks) {p : PooledState}
    (entry : p.entry = .task r) (w : Work) :
    ∃ qs, ps ⊆ qs
      ∧ Mirror refuses path r (c.grown d (d.handed x p w)) qs
          (d.handed x p w)
          (e.handed (c.executors.idxOf x)
            { p with entry := .task (c.tasks.idxOf r) } w) := by
  obtain ⟨own, proper⟩ := LedgerOp.addresses
    (o := .enlist (.task r) (p.nextKey w) .worker) d.ledger kept rfl
    fun v same => by cases same
  obtain ⟨qs, sub, enlisted, -⟩ :=
    h.carry own proper (Ledger.counter_le d.ledger)
  have charged := enlisted.pooled mem (f := charged) fun _ _ => rfl
  have place : (c.staffed d.ledger
      (Ledger.enlist r (p.nextKey w) .worker d.ledger)).tasks.idxOf r
        = c.tasks.idxOf r := List.idxOf_append_of_mem kept
  have twin : Submitted.Twin r (c.staffed d.ledger
      (Ledger.enlist r (p.nextKey w) .worker d.ledger)) (unitOf x p w)
        (unitOf (c.executors.idxOf x)
          { p with entry := .task (c.tasks.idxOf r) } w) := {
    same := by rw [place]; rfl
    entry := entry
    mem := List.mem_append_left _ kept
    executor := mem
    worker := fun v holds => by cases holds }
  have executors : (d.handed x p w).executors.size = d.executors.size :=
    Array.size_modify
  have units : (d.handed x p w).units.size = d.units.size + 1 :=
    Array.size_push _
  refine ⟨qs, sub, ?_⟩
  rw [c.grown_given executors units]
  unfold handed
  rw [entry]
  exact charged.given twin

/-- A unit is submitted to an executor of the task, in both. -/
theorem Mirror.submitBoth (h : Mirror refuses path r c ps d e)
    (mem : x ∈ c.executors) (w : Work) :
    ∃ qs, ps ⊆ qs
      ∧ Mirror refuses path r (c.grown d (d.submit x w).1) qs
          (d.submit x w).1 (e.submit (c.executors.idxOf x) w).1
      ∧ (e.submit (c.executors.idxOf x) w).2 = (d.submit x w).2 := by
  obtain ⟨y, y', found, found', twin⟩ := h.executors.copy mem
  cases twin with
  | direct owner =>
      have ran := h.performedBoth w
      refine ⟨ps, fun _ mem => mem, ?_, ?_⟩
      · obtain ⟨now, he⟩ := perform_clock w d
        rw [submit_direct found, submit_direct found']
        dsimp only
        rw [show c.grown d (d.perform w).1 = c by
          rw [he]
          exact c.grown_same rfl rfl rfl rfl]
        exact ran
      · rw [submit_direct found, submit_direct found', perform_now h.ledger.now]
  | @pooled p entry kept =>
      obtain ⟨qs, sub, handed⟩ := h.handedBoth mem kept entry w
      have answers {d : Dispatch} {x : ExecutorId} {p : PooledState}
          (found : d.executors[x]? = some (.pooled p)) :
          (d.submit x w).2 = .ok (.ok ()) := by
        unfold submit
        rw [found]
      refine ⟨qs, sub, ?_, (answers found').trans (answers found).symm⟩
      rw [submit_pooled found, submit_pooled found']
      -- a stopped pool drops the unit at once, on both sides
      by_cases stopped : d.stopped = true
      · rw [if_pos stopped, if_pos (h.stopped.trans stopped),
          proceed_dropped (d := d.handed x p w) stopped
            Array.getElem?_push_size rfl,
          proceed_dropped (d := e.handed _ _ w) (h.stopped.trans stopped)
            Array.getElem?_push_size rfl]
        have executors : (d.handed x p w).executors.size = d.executors.size :=
          Array.size_modify
        have units : (d.handed x p w).units.size = d.units.size + 1 :=
          Array.size_push _
        have last : e.units.size
            = (c.units ++ [d.units.size]).idxOf d.units.size :=
          h.units.idxOf_last.symm
        rw [c.grown_given executors units] at handed
        rw [c.grown_given (Array.size_modify.trans executors)
          (Array.size_modify.trans units), last]
        exact handed.countedBoth mem
          (List.mem_append_right _ (List.mem_singleton_self _)) _ rfl rfl
      · rw [if_neg stopped, if_neg (h.stopped ▸ stopped)]
        exact handed

-- ================================================================== owners

/-- The task waits or gives control back, in both. -/
theorem Mirror.turnedBoth (h : Mirror refuses path r c ps d e)
    (kept : r ∈ c.tasks) (is : o = .await (.task r) ∨ o = .close (.task r)) :
    ∃ qs, ps ⊆ qs
      ∧ Mirror refuses path r
          (c.grown d { d with ledger := (o.apply d.ledger).1 }) qs
          { d with ledger := (o.apply d.ledger).1 }
          { e with
            ledger := ((o.recast c.tasks c.workers).apply e.ledger).1 } := by
  have least := Ledger.counter_le d.ledger
  have entry : o.entry? = some (.task r) := by
    rcases is with rfl | rfl <;> rfl
  obtain ⟨own, proper⟩ : o.own path r [] c.workers d.ledger = true
      ∧ o.proper r c.tasks c.workers d.ledger = true :=
    LedgerOp.addresses d.ledger kept entry fun v same => by
      rcases is with rfl | rfl <;> cases same
  have tasks : (o.apply d.ledger).1.tasks.size = d.ledger.tasks.size := by
    rcases is with rfl | rfl <;> exact Array.size_modify
  have workers : (o.apply d.ledger).1.workers.size
      = d.ledger.workers.size := by
    rcases is with rfl | rfl <;> rfl
  have draws : o.draws d.ledger = 0 := by
    rcases is with rfl | rfl <;> rfl
  obtain ⟨qs, sub, mirror, -⟩ :=
    h.carry_same own proper (draws ▸ least) tasks workers
  refine ⟨qs, sub, ?_⟩
  have cast : c.grown d { d with ledger := (o.apply d.ledger).1 } = c :=
    c.grown_same tasks workers rfl rfl
  rw [cast]
  exact mirror

/-- What an executor of the task is, in both. -/
theorem Mirror.pooled_cases (h : Mirror refuses path r c ps d e)
    (mem : x ∈ c.executors) :
    (d.pooled? x = none ∧ e.pooled? (c.executors.idxOf x) = none)
      ∨ ∃ p, d.pooled? x = some p ∧ p.entry = .task r ∧ r ∈ c.tasks
          ∧ e.pooled? (c.executors.idxOf x)
            = some { p with entry := .task (c.tasks.idxOf r) } := by
  obtain ⟨y, y', found, found', twin⟩ := h.executors.copy mem
  unfold pooled?
  rw [found, found']
  cases twin with
  | direct owner => exact .inl ⟨rfl, rfl⟩
  | pooled entry kept => exact .inr ⟨_, rfl, entry, kept, rfl⟩

/-- The pool stops in both. -/
theorem Mirror.stop (h : Mirror refuses path r c ps d e) :
    Mirror refuses path r c ps d.stop e.stop where
  ledger := h.ledger
  stopped := rfl
  executors := h.executors
  units := h.units
  others := h.others
  strange found other :=
    (h.strange found other).beside (Nat.le_refl _) (Nat.le_refl _)

-- ================================================================ assembly

/-- What becomes of an executor of the task, in both. -/
theorem Mirror.equipBoth (h : Mirror refuses path r c ps d e)
    {y : Executor} (own : (DispatchOp.addExecutor y).own path r hired c d = true)
    (proper : (DispatchOp.addExecutor y).proper r c d = true) :
    Mirror refuses path r (c.grown d (d.addExecutor y).1) ps
        (d.addExecutor y).1 (e.addExecutor (y.recast c)).1
      ∧ e.executors.size
        = (c.grown d (d.addExecutor y).1).executors.idxOf d.executors.size := by
  have cast : c.grown d (d.addExecutor y).1
      = { c with executors := c.executors ++ [d.executors.size] } := by
    unfold Cast.grown addExecutor
    dsimp only
    rw [Array.size_push, grown_same, grown_same, grown_same, grown_succ]
  rw [cast]
  refine ⟨h.equipped ?_, h.executors.idxOf_last.symm⟩
  cases y with
  | direct owner => exact .direct owner
  | pooled p =>
      have entry : p.entry = .task r := eq_of_beq own
      have kept : r ∈ c.tasks := by
        have it := (Bool.and_eq_true _ _ ▸ proper).1
        dsimp only at it
        rw [entry, bne_self_eq_false, Bool.false_or] at it
        exact List.contains_iff_mem.mp it
      show Executor.Twin r c.tasks (.pooled p)
        (.pooled { p with entry := p.entry.recast c.tasks })
      rw [entry]
      exact .pooled entry kept

/-- The owner of an executor starts to wait in both. -/
theorem Mirror.beginAwaitBoth (h : Mirror refuses path r c ps d e)
    (mem : x ∈ c.executors) :
    ∃ qs, ps ⊆ qs
      ∧ Mirror refuses path r (c.grown d (d.beginAwait x)) qs (d.beginAwait x)
          (e.beginAwait (c.executors.idxOf x)) := by
  unfold beginAwait
  rcases h.pooled_cases mem with ⟨found, found'⟩
      | ⟨p, found, entry, kept, found'⟩
  · rw [found, found', c.grown_same rfl rfl rfl rfl]
    exact ⟨ps, fun _ mem => mem, h⟩
  · simp only [found, found', entry]
    exact h.turnedBoth kept (.inl rfl)

/-- It gives control back in both. -/
theorem Mirror.releaseBoth (h : Mirror refuses path r c ps d e)
    (mem : x ∈ c.executors) :
    ∃ qs, ps ⊆ qs
      ∧ Mirror refuses path r (c.grown d (d.release x)) qs (d.release x)
          (e.release (c.executors.idxOf x)) := by
  unfold release
  rcases h.pooled_cases mem with ⟨found, found'⟩
      | ⟨p, found, entry, kept, found'⟩
  · rw [found, found', c.grown_same rfl rfl rfl rfl]
    exact ⟨ps, fun _ mem => mem, h⟩
  · simp only [found, found', entry]
    exact h.turnedBoth kept (.inr rfl)

/-- It is told in both what came up. -/
theorem Mirror.endAwaitBoth (h : Mirror refuses path r c ps d e)
    (mem : x ∈ c.executors) :
    Mirror refuses path r
        (c.grown d ((DispatchOp.endAwait x).apply d).1) ps
        ((DispatchOp.endAwait x).apply d).1
        ((DispatchOp.endAwait (c.executors.idxOf x)).apply e).1
      ∧ ((DispatchOp.endAwait (c.executors.idxOf x)).apply e).2
        = ((DispatchOp.endAwait x).apply d).2 := by
  simp only [DispatchOp.apply, endAwait]
  rcases h.pooled_cases mem with ⟨found, found'⟩
      | ⟨p, found, entry, kept, found'⟩
  · rw [found, found']
    dsimp only
    rw [c.grown_same rfl rfl rfl rfl]
    exact ⟨h, rfl⟩
  · rw [found, found']
    dsimp only
    by_cases none_left : p.outstanding = 0
    · rw [if_pos none_left, if_pos none_left]
      have cast : c.grown d
          (d.onPooled x fun s => { s with failures := [] }) = c :=
        c.grown_same rfl rfl Array.size_modify rfl
      exact ⟨cast.symm ▸ h.pooled mem fun _ _ => rfl, rfl⟩
    · rw [if_neg none_left, if_neg none_left]
      dsimp only
      rw [c.grown_same rfl rfl rfl rfl]
      exact ⟨h, rfl⟩

/-- What is for the task leaves the mirror a mirror, if it happens in the
other run as well, and what comes of it is the same. -/
theorem Mirror.echo (h : Mirror refuses path r c ps d e) {op : DispatchOp}
    (own : op.own path r hired c d = true)
    (proper : op.proper r c d = true) :
    ∃ qs, ps ⊆ qs
      ∧ Mirror refuses path r (c.grown d (op.apply d).1) qs (op.apply d).1
          ((op.recast c).apply e).1
      ∧ (∀ last, Ledger.Rivals path c.tasks last d.ledger e.ledger →
          op.compared r last = true →
          ((op.recast c).apply e).2
            = (op.apply d).2.map
              (DispatchAnswer.recast (c.grown d (op.apply d).1))) := by
  obtain ⟨as_it_should, room⟩ := Bool.and_eq_true _ _ ▸ proper
  replace room := of_decide_eq_true room
  -- every operation for the task has its own echo, with the same answer
  cases op with
  | onLedger o =>
      have cast : c.grown d ((DispatchOp.onLedger o).apply d).1
          = c.staffed d.ledger (o.apply d.ledger).1 :=
        c.grown_staffed rfl rfl
      obtain ⟨qs, sub, mirror, answer⟩ := h.carry own as_it_should room
      rw [cast]
      refine ⟨qs, sub, mirror, fun last rivals compared => ?_⟩
      show ((o.recast c.tasks c.workers).apply e.ledger).2.map _
        = ((o.apply d.ledger).2.map _).map _
      rw [answer ⟨last, compared, fun _ _ => rivals⟩]
      cases (o.apply d.ledger).2 <;> rfl
  | addExecutor y =>
      obtain ⟨mirror, last⟩ := h.equipBoth own proper
      refine ⟨ps, fun _ mem => mem, mirror, fun _ _ _ => ?_⟩
      exact congrArg (Except.ok ∘ DispatchAnswer.executor) last
  | submit x w =>
      obtain ⟨qs, sub, mirror, answer⟩ :=
        h.submitBoth (List.contains_iff_mem.mp own) w
      refine ⟨qs, sub, mirror, fun _ _ _ => ?_⟩
      show ((e.submit _ w).2.map _) = ((d.submit x w).2.map _).map _
      rw [answer]
      cases (d.submit x w).2 <;> rfl
  | proceed u =>
      obtain ⟨executors, units⟩ := proceed_executors u d
      have cast : c.grown d ((DispatchOp.proceed u).apply d).1
          = c.staffed d.ledger (d.proceed u).ledger :=
        c.grown_staffed executors units
      obtain ⟨qs, sub, mirror⟩ :=
        h.proceedBoth (List.contains_iff_mem.mp own) room
      rw [cast]
      exact ⟨qs, sub, mirror, fun _ _ _ => rfl⟩
  | beginAwait x =>
      obtain ⟨qs, sub, mirror⟩ :=
        h.beginAwaitBoth (List.contains_iff_mem.mp own)
      exact ⟨qs, sub, mirror, fun _ _ _ => rfl⟩
  | endAwait x =>
      obtain ⟨mirror, answer⟩ := h.endAwaitBoth (List.contains_iff_mem.mp own)
      refine ⟨ps, fun _ mem => mem, mirror, fun _ _ _ => answer.trans ?_⟩
      unfold DispatchOp.apply
      dsimp only
      cases d.endAwait x <;> rfl
  | release x =>
      obtain ⟨qs, sub, mirror⟩ :=
        h.releaseBoth (List.contains_iff_mem.mp own)
      exact ⟨qs, sub, mirror, fun _ _ _ => rfl⟩
  | stop =>
      have cast : c.grown d ((DispatchOp.stop).apply d).1 = c :=
        c.grown_same rfl rfl rfl rfl
      rw [cast]
      exact ⟨ps, fun _ mem => mem, h.stop, fun _ _ _ => rfl⟩

end Dispatch

end TaskLedger
