/-
A run again, with only what is for one task.

What is for a task is told by whom it addresses: the task itself, its path, or
workers, executors and units of its own (`DispatchOp.own`). These come again, in
the places that they have when the others are not there (`recast`); of the rest
only the time that it takes passes again (`replay`). Each of them is listed with
what came of it the first time, in the new places, unless that depends on others
(`compared`).

While both runs go on, the one is a mirror of the other (`Dispatch.Mirror`):
executors and units of the task are the same but for their places, and the
others have nothing to do with the task.
-/
import TaskLedger.Proofs.Dispatch.Moves
import TaskLedger.Proofs.Dispatch.UnitsInCrews
import TaskLedger.Proofs.Ledger.Echo

namespace TaskLedger

-- ==================================================================== cast

/-- What of a dispatch is there again, in the order in which it came. -/
structure Cast where
  tasks : List TaskId := []
  workers : List WorkerId := []
  executors : List ExecutorId := []
  units : List UnitId := []
  deriving DecidableEq, Repr

/-- With what is new. -/
def Cast.grown (c : Cast) (d e : Dispatch) : Cast where
  tasks := TaskLedger.grown c.tasks d.ledger.tasks.size e.ledger.tasks.size
  workers :=
    TaskLedger.grown c.workers d.ledger.workers.size e.ledger.workers.size
  executors :=
    TaskLedger.grown c.executors d.executors.size e.executors.size
  units := TaskLedger.grown c.units d.units.size e.units.size

/-- With the tasks and the workers that are new. -/
def Cast.staffed (c : Cast) (l m : Ledger) : Cast where
  tasks := TaskLedger.grown c.tasks l.tasks.size m.tasks.size
  workers := TaskLedger.grown c.workers l.workers.size m.workers.size
  executors := c.executors
  units := c.units

/-- Who is new is told by the sizes of the tables. -/
theorem Cast.staffed_congr (c : Cast) {l m n : Ledger}
    (tasks : n.tasks.size = m.tasks.size)
    (workers : n.workers.size = m.workers.size) :
    c.staffed l n = c.staffed l m := by
  unfold Cast.staffed
  rw [tasks, workers]

/-- Nobody is new. -/
theorem Cast.staffed_same (c : Cast) {l m : Ledger}
    (tasks : m.tasks.size = l.tasks.size)
    (workers : m.workers.size = l.workers.size) : c.staffed l m = c := by
  unfold Cast.staffed
  rw [tasks, workers, grown_same, grown_same]

/-- Nothing is new but tasks and workers. -/
theorem Cast.grown_staffed (c : Cast) {d e : Dispatch}
    (executors : e.executors.size = d.executors.size)
    (units : e.units.size = d.units.size) :
    c.grown d e = c.staffed d.ledger e.ledger := by
  unfold Cast.grown Cast.staffed
  rw [executors, units, grown_same, grown_same]

/-- A unit is new, and maybe tasks and workers. -/
theorem Cast.grown_given (c : Cast) {d e : Dispatch}
    (executors : e.executors.size = d.executors.size)
    (units : e.units.size = d.units.size + 1) :
    c.grown d e
      = { c.staffed d.ledger e.ledger with
          units := c.units ++ [d.units.size] } := by
  unfold Cast.grown Cast.staffed
  rw [executors, units, grown_same, grown_succ]

/-- Nothing is new. -/
theorem Cast.grown_same (c : Cast) {d e : Dispatch}
    (tasks : e.ledger.tasks.size = d.ledger.tasks.size)
    (workers : e.ledger.workers.size = d.ledger.workers.size)
    (executors : e.executors.size = d.executors.size)
    (units : e.units.size = d.units.size) : c.grown d e = c :=
  (c.grown_staffed executors units).trans (c.staffed_same tasks workers)

/-- An executor in the other places. -/
def Executor.recast (c : Cast) : Executor → Executor
  | .direct owner => .direct owner
  | .pooled s => .pooled { s with entry := s.entry.recast c.tasks }

/-- A phase in the other places. -/
def Phase.recast (ws : List WorkerId) : Phase → Phase
  | .begun w => .begun (ws.idxOf w)
  | .ran w failure => .ran (ws.idxOf w) failure
  | .ended w failure => .ended (ws.idxOf w) failure
  | p => p

/-- What came of something, in the other places. -/
def DispatchAnswer.recast (c : Cast) : DispatchAnswer → DispatchAnswer
  | .ofLedger a => .ofLedger (a.recast c.tasks c.workers)
  | .executor x => .executor (c.executors.idxOf x)
  | a => a

namespace DispatchOp

/-- Something in the other places. -/
def recast (c : Cast) : DispatchOp → DispatchOp
  | onLedger op => onLedger (op.recast c.tasks c.workers)
  | addExecutor x => addExecutor (x.recast c)
  | submit x w => submit (c.executors.idxOf x) w
  | proceed u => proceed (c.units.idxOf u)
  | beginAwait x => beginAwait (c.executors.idxOf x)
  | endAwait x => endAwait (c.executors.idxOf x)
  | release x => release (c.executors.idxOf x)
  | stop => stop

/-- What is for a task of a path: what its ledger does for it, and what is done
with its executors and with units that they were given. The pool stops for
all. -/
def own (path : String) (r : TaskId) (hired : List WorkerId) (c : Cast)
    (d : Dispatch) : DispatchOp → Bool
  | onLedger op => op.own path r hired c.workers d.ledger
  | addExecutor (.direct owner) => owner == path
  | addExecutor (.pooled s) => s.entry == .task r
  | submit x _ | beginAwait x | endAwait x | release x =>
      c.executors.contains x
  | proceed u => c.units.contains u
  | stop => true

/-- What is for the task comes when it is on record, only workers of its own
report to it, and there are numbers left. -/
def proper (r : TaskId) (c : Cast) (d : Dispatch) (op : DispatchOp) : Bool :=
  (match op with
    | onLedger op => op.proper r c.tasks c.workers d.ledger
    | addExecutor (.pooled s) => s.entry != .task r || c.tasks.contains r
    | _ => true)
    && decide (d.ledger.counter + LedgerOp.drawn (op.moves d) (op.noticed d)
      ≤ Sink.largestId.toNat)

/-- The task that was last to start under a path, once something happened. -/
def latest (path : String) (d : Dispatch) (last : Option TaskId) :
    DispatchOp → Option TaskId
  | onLedger op => op.latest path d.ledger last
  | _ => last

/-- Whether what comes of it depends on the task alone. -/
def compared (r : TaskId) (last : Option TaskId) : DispatchOp → Bool
  | onLedger op => op.compared r last
  | _ => true

/-- What is there again after something happened. -/
def casting (path : String) (r : TaskId) (hired : List WorkerId) (c : Cast)
    (d : Dispatch) (op : DispatchOp) : Cast :=
  if op.own path r hired c d then c.grown d (op.apply d).1 else c

/-- A run in which each is proper. -/
def Proper (path : String) (r : TaskId) (hired : List WorkerId) :
    List DispatchOp → Cast → Dispatch → Bool
  | [], _, _ => true
  | op :: rest, c, d =>
      op.proper r c d
        && Proper path r hired rest (op.casting path r hired c d)
          (op.apply d).1

/-- What happens again for one thing that happened, with what came of it where
that is compared: the same in the new places if it is for the task, and
otherwise only the time that it takes. -/
def again (path : String) (r : TaskId) (hired : List WorkerId) (c : Cast)
    (last : Option TaskId) (d : Dispatch) (op : DispatchOp) :
    List (DispatchOp × Option (Except Fault DispatchAnswer)) :=
  if op.own path r hired c d then
    [(op.recast c,
      if op.compared r last then
        some ((op.apply d).2.map
          (DispatchAnswer.recast (c.grown d (op.apply d).1)))
      else none)]
  else
    ((op.moves d).filter LedgerOp.takesTime).map fun m => (onLedger m, none)

/-- A run again, with only what is for the task, if `last` was the last to
start under its path before the run. -/
def replay (path : String) (r : TaskId) (hired : List WorkerId) :
    List DispatchOp → Cast → Option TaskId → Dispatch →
      List (DispatchOp × Option (Except Fault DispatchAnswer))
  | [], _, _, _ => []
  | op :: rest, c, last, d =>
      op.again path r hired c last d
        ++ replay path r hired rest (op.casting path r hired c d)
          (op.latest path d last) (op.apply d).1

end DispatchOp

-- =================================================================== twins

/-- An executor of the task, and its copy. -/
inductive Executor.Twin (r : TaskId) (ts : List TaskId) :
    Executor → Executor → Prop
  | direct (owner : String) : Twin r ts (.direct owner) (.direct owner)
  | pooled {s : PooledState} (entry : s.entry = .task r) (mem : r ∈ ts) :
      Twin r ts (.pooled s)
        (.pooled { s with entry := .task (ts.idxOf r) })

/-- A unit of the task, and its copy. -/
structure Submitted.Twin (r : TaskId) (c : Cast) (s s' : Submitted) :
    Prop where
  same : s' = { s with
    executor := c.executors.idxOf s.executor
    entry := .task (c.tasks.idxOf r)
    phase := s.phase.recast c.workers }
  entry : s.entry = .task r
  mem : r ∈ c.tasks
  executor : s.executor ∈ c.executors
  worker : ∀ w, s.phase.worker? = some w → w ∈ c.workers

section

variable {r : TaskId} {ts ts' : List TaskId} {ws : List WorkerId} {c : Cast}

/-- The places stay what they are when there are more. -/
theorem Executor.Twin.more {x y : Executor} (h : x.Twin r ts y)
    (more : List TaskId) : x.Twin r (ts ++ more) y := by
  cases h with
  | direct owner => exact .direct owner
  | pooled entry mem =>
      have same : (ts ++ more).idxOf r = ts.idxOf r :=
        List.idxOf_append_of_mem mem
      rw [← same]
      exact .pooled entry (List.mem_append_left more mem)

theorem Phase.recast_more {p : Phase} (more : List WorkerId)
    (kept : ∀ w, p.worker? = some w → w ∈ ws) :
    p.recast (ws ++ more) = p.recast ws := by
  cases p with
  | begun w | ran w | ended w =>
      simp only [Phase.recast, List.idxOf_append_of_mem (kept w rfl)]
  | _ => rfl

theorem Submitted.Twin.more {s s' : Submitted} (h : s.Twin r c s')
    (ts : List TaskId) (ws : List WorkerId) (xs : List ExecutorId)
    (us : List UnitId) :
    s.Twin r ⟨c.tasks ++ ts, c.workers ++ ws, c.executors ++ xs,
      c.units ++ us⟩ s' where
  same := by
    rw [h.same, List.idxOf_append_of_mem h.executor,
      List.idxOf_append_of_mem h.mem, Phase.recast_more _ h.worker]
  entry := h.entry
  mem := List.mem_append_left ts h.mem
  executor := List.mem_append_left xs h.executor
  worker := fun w holds => List.mem_append_left ws (h.worker w holds)

end

namespace Dispatch

-- ================================================================== mirror

/-- A unit that is not the task's has nothing to do with it. -/
structure Strange (r : TaskId) (c : Cast) (d : Dispatch) (s : Submitted) :
    Prop where
  entry : s.entry ≠ .task r
  executor : s.executor ∉ c.executors
  there : s.executor < d.executors.size
  worker : ∀ w, s.phase.worker? = some w →
    w ∉ c.workers ∧ w < d.ledger.workers.size

/-- A dispatch, and one with only what is for one task. -/
structure Mirror (refuses : Nat → SpanRecord → Option Error)
    (path : String) (r : TaskId) (c : Cast) (ps : Paired)
    (d e : Dispatch) : Prop where
  ledger : Ledger.Mirror refuses path r c.tasks c.workers ps d.ledger e.ledger
  stopped : e.stopped = d.stopped
  executors : Copied (Executor.Twin r c.tasks) c.executors d.executors
    e.executors
  units : Copied (Submitted.Twin r c) c.units d.units e.units
  others : ∀ {x : ExecutorId} {p : PooledState}, d.pooled? x = some p →
    p.entry = .task r → x ∈ c.executors
  strange : ∀ {u : UnitId} {s : Submitted}, d.units[u]? = some s →
    u ∉ c.units → Strange r c d s

variable {refuses : Nat → SpanRecord → Option Error} {path : String}
  {r : TaskId} {c : Cast} {ps qs : Paired} {d e : Dispatch} {l m : Ledger}
  {x : ExecutorId} {u : UnitId} {s : Submitted}

theorem onPooled_executors (f : PooledState → PooledState) :
    (d.onPooled x f).executors = d.executors.modify x fun
      | .pooled p => .pooled (f p)
      | .direct owner => .direct owner := rfl

theorem setPhase_units (p : Phase) :
    (d.setPhase u p).units
      = d.units.modify u fun s => { s with phase := p } := rfl

/-- A place that is taken already is none of the new ones. -/
theorem not_mem_grown {kept : List Nat} {i before after : Nat}
    (other : i ∉ kept) (old : i < before) : i ∉ grown kept before after := by
  intro mem
  rcases List.mem_append.mp mem with here | new
  · exact other here
  · exact Nat.not_le_of_lt old (List.mem_range'_1.mp new).1

/-- A strange unit stays strange as long as no worker and no executor goes. -/
theorem Strange.beside (h : Strange r c d s)
    (staff : d.ledger.workers.size ≤ e.ledger.workers.size)
    (executors : d.executors.size ≤ e.executors.size) : Strange r c e s where
  entry := h.entry
  executor := h.executor
  there := Nat.lt_of_lt_of_le h.there executors
  worker := fun w holds =>
    let ⟨other, below⟩ := h.worker w holds
    ⟨other, Nat.lt_of_lt_of_le below staff⟩

/-- So it does when those that are new are the task's. -/
theorem Strange.later (h : Strange r c d s) (ts : List TaskId)
    (us : List UnitId) (staff : d.ledger.workers.size ≤ e.ledger.workers.size)
    (executors : d.executors.size ≤ e.executors.size) :
    Strange r
      ⟨ts,
        grown c.workers d.ledger.workers.size e.ledger.workers.size,
        grown c.executors d.executors.size e.executors.size, us⟩ e s where
  entry := h.entry
  executor := not_mem_grown h.executor h.there
  there := Nat.lt_of_lt_of_le h.there executors
  worker := fun w holds =>
    let ⟨other, below⟩ := h.worker w holds
    ⟨not_mem_grown other below, Nat.lt_of_lt_of_le below staff⟩

-- ================================================================== ledger

/-- The ledgers move on, and tasks and workers may be new. -/
theorem Mirror.carried (h : Mirror refuses path r c ps d e)
    (ledger : Ledger.Mirror refuses path r
      (grown c.tasks d.ledger.tasks.size l.tasks.size)
      (grown c.workers d.ledger.workers.size l.workers.size) qs l m)
    (staff : d.ledger.workers.size ≤ l.workers.size) :
    Mirror refuses path r (c.staffed d.ledger l) qs
      { d with ledger := l } { e with ledger := m } where
  ledger := ledger
  stopped := h.stopped
  executors := h.executors.mono fun _ _ twin => twin.more _
  units := by
    refine h.units.mono fun _ _ twin => ?_
    have more := twin.more
      (List.range' d.ledger.tasks.size (l.tasks.size - d.ledger.tasks.size))
      (List.range' d.ledger.workers.size
        (l.workers.size - d.ledger.workers.size)) [] []
    rw [List.append_nil, List.append_nil] at more
    exact more
  others := h.others
  strange := by
    intro u s found other
    have later := (h.strange found other).later
      (e := { d with ledger := l }) (c.staffed d.ledger l).tasks c.units staff
      (Nat.le_refl _)
    dsimp only at later
    rw [grown_same] at later
    exact later

/-- What an observer is told, and which actions are noted, on either side. -/
theorem Mirror.told (h : Mirror refuses path r c ps d e)
    (marks marks' : List Mark) (warnings warnings' : List Warning)
    (ran ran' : List String) :
    Mirror refuses path r c ps
      { d with ledger := { d.ledger with marks, warnings }, ran }
      { e with
        ledger := { e.ledger with marks := marks', warnings := warnings' }
        ran := ran' } where
  ledger := h.ledger.told marks marks' warnings warnings'
  stopped := h.stopped
  executors := h.executors
  units := h.units
  others := h.others
  strange found other :=
    (h.strange found other).beside (Nat.le_refl _) (Nat.le_refl _)

-- =============================================================== executors

/-- An executor of the task is new. -/
theorem Mirror.equipped (h : Mirror refuses path r c ps d e)
    {y y' : Executor} (twin : y.Twin r c.tasks y') :
    Mirror refuses path r
      { c with executors := c.executors ++ [d.executors.size] } ps
      { d with executors := d.executors.push y }
      { e with executors := e.executors.push y' } where
  ledger := h.ledger
  stopped := h.stopped
  executors := h.executors.push twin
  units := h.units.mono fun _ _ twin => by
    have more := twin.more [] [] [d.executors.size] []
    rw [List.append_nil, List.append_nil, List.append_nil] at more
    exact more
  others := by
    intro x p found entry
    rw [pooled?_push] at found
    split at found
    -- the executor that is new is the task's
    · next last =>
        rw [last]
        exact List.mem_append_right _ (List.mem_singleton_self _)
    · exact List.mem_append_left _ (h.others found entry)
  strange := by
    intro u s found other
    -- so who belongs to others is seen past one more that is kept
    have later := (h.strange found other).later
      (e := { d with executors := d.executors.push y }) c.tasks c.units
      (Nat.le_refl _) (by
        dsimp only
        rw [Array.size_push]
        exact Nat.le_succ _)
    dsimp only at later
    rw [Array.size_push, grown_same, grown_succ] at later
    exact later

/-- One that is not the task's is new. -/
theorem Mirror.equippedAside (h : Mirror refuses path r c ps d e)
    {y : Executor} (other : ∀ p, y = .pooled p → p.entry ≠ .task r) :
    Mirror refuses path r c ps { d with executors := d.executors.push y }
      e where
  ledger := h.ledger
  stopped := h.stopped
  executors := h.executors.beside
    (fun x mem => by
      obtain ⟨a, -, found, -⟩ := h.executors.copy mem
      exact (push_old found).trans found.symm)
    (by
      rw [Array.size_push]
      exact Nat.le_succ _)
  units := h.units
  others := by
    intro x p found entry
    rw [pooled?_push] at found
    split at found
    · next last =>
        split at found
        · next q =>
            obtain rfl := Option.some.inj found
            exact absurd entry (other _ rfl)
        · cases found
    · exact h.others found entry
  strange found aside :=
    (h.strange found aside).beside (Nat.le_refl _) (by
      rw [Array.size_push]
      exact Nat.le_succ _)

/-- An executor of the task counts or collects something. -/
theorem Mirror.pooled (h : Mirror refuses path r c ps d e)
    (mem : x ∈ c.executors) {f : PooledState → PooledState}
    (entry : ∀ (p : PooledState) (t : Entry),
      f { p with entry := t } = { f p with entry := t }) :
    Mirror refuses path r c ps (d.onPooled x f)
      (e.onPooled (c.executors.idxOf x) f) where
  ledger := h.ledger
  stopped := h.stopped
  executors := by
    rw [onPooled_executors, onPooled_executors]
    refine h.executors.modify mem fun y y' _ twin => ?_
    cases twin with
    | direct owner => exact .direct owner
    | @pooled p is kept =>
        -- to count keeps an executor with its task
        have same : (f p).entry = .task r := by
          have keeps := entry p p.entry
          rw [show ({ p with entry := p.entry } : PooledState) = p from rfl]
            at keeps
          rw [keeps]
          exact is
        dsimp only
        rw [entry p (.task (c.tasks.idxOf r))]
        exact .pooled same kept
  units := h.units
  others := by
    intro y p found is
    rw [pooled?_onPooled] at found
    split at found
    · next same => exact same ▸ mem
    · exact h.others found is
  strange found aside :=
    (h.strange found aside).beside (Nat.le_refl _)
      (Nat.le_of_eq Array.size_modify.symm)

/-- One that is not the task's does. -/
theorem Mirror.pooledAside (h : Mirror refuses path r c ps d e)
    (other : x ∉ c.executors) {f : PooledState → PooledState}
    (entry : ∀ p : PooledState, (f p).entry = p.entry) :
    Mirror refuses path r c ps (d.onPooled x f) e where
  ledger := h.ledger
  stopped := h.stopped
  executors := by
    refine h.executors.beside (fun y mem => ?_)
      (Nat.le_of_eq Array.size_modify.symm)
    have ne : x ≠ y := by
      rintro rfl
      exact other mem
    unfold onPooled
    rw [Array.getElem?_modify, if_neg ne]
  units := h.units
  others := by
    intro y p found is
    rw [pooled?_onPooled] at found
    split at found
    · next same =>
        obtain ⟨q, before, rfl⟩ := Option.map_eq_some_iff.mp found
        exact h.others before ((entry q).symm.trans is)
    · exact h.others found is
  strange found aside :=
    (h.strange found aside).beside (Nat.le_refl _)
      (Nat.le_of_eq Array.size_modify.symm)

-- =================================================================== units

/-- A unit of the task is new. -/
theorem Mirror.given (h : Mirror refuses path r c ps d e)
    {s s' : Submitted} (twin : s.Twin r c s') :
    Mirror refuses path r { c with units := c.units ++ [d.units.size] } ps
      { d with units := d.units.push s }
      { e with units := e.units.push s' } where
  ledger := h.ledger
  stopped := h.stopped
  executors := h.executors
  units := by
    have more {s s' : Submitted} (twin : s.Twin r c s') :
        s.Twin r { c with units := c.units ++ [d.units.size] } s' := by
      have more := twin.more [] [] [] [d.units.size]
      rw [List.append_nil, List.append_nil, List.append_nil] at more
      exact more
    exact (h.units.mono fun _ _ twin => more twin).push (more twin)
  others := h.others
  strange := by
    intro u s found other
    rcases push_back found with old | ⟨rfl, -⟩
    · have same := h.strange old fun mem =>
        other (List.mem_append_left _ mem)
      exact ⟨same.entry, same.executor, same.there, same.worker⟩
    · exact absurd (List.mem_append_right _ (List.mem_singleton_self _)) other

/-- One that is not the task's is new. -/
theorem Mirror.givenAside (h : Mirror refuses path r c ps d e)
    (strange : Strange r c d s) :
    Mirror refuses path r c ps { d with units := d.units.push s } e where
  ledger := h.ledger
  stopped := h.stopped
  executors := h.executors
  units := h.units.beside
    (fun u mem => by
      obtain ⟨a, -, found, -⟩ := h.units.copy mem
      exact (push_old found).trans found.symm)
    (by
      rw [Array.size_push]
      exact Nat.le_succ _)
  others := h.others
  strange := by
    intro u s' found other
    rcases push_back found with old | ⟨-, rfl⟩
    · exact (h.strange old other).beside (Nat.le_refl _) (Nat.le_refl _)
    · exact strange.beside (Nat.le_refl _) (Nat.le_refl _)

/-- A unit of the task goes on. -/
theorem Mirror.phased (h : Mirror refuses path r c ps d e)
    (mem : u ∈ c.units) {p : Phase}
    (own : ∀ w, p.worker? = some w → w ∈ c.workers) :
    Mirror refuses path r c ps (d.setPhase u p)
      (e.setPhase (c.units.idxOf u) (p.recast c.workers)) where
  ledger := h.ledger
  stopped := h.stopped
  executors := h.executors
  units := by
    rw [setPhase_units, setPhase_units]
    refine h.units.modify mem fun s s' _ twin => ?_
    exact {
      same := by rw [twin.same]
      entry := twin.entry
      mem := twin.mem
      executor := twin.executor
      worker := own }
  others := h.others
  strange := by
    intro v s found other
    have ne : v ≠ u := fun same => other (same ▸ mem)
    rw [setPhase_other ne] at found
    exact (h.strange found other).beside (Nat.le_refl _) (Nat.le_refl _)

/-- One that is not the task's does. -/
theorem Mirror.phasedAside (h : Mirror refuses path r c ps d e)
    (other : u ∉ c.units) {p : Phase}
    (own : ∀ w, p.worker? = some w →
      w ∉ c.workers ∧ w < d.ledger.workers.size) :
    Mirror refuses path r c ps (d.setPhase u p) e where
  ledger := h.ledger
  stopped := h.stopped
  executors := h.executors
  units := by
    refine h.units.beside (fun v mem => ?_)
      (Nat.le_of_eq Array.size_modify.symm)
    have ne : v ≠ u := by
      rintro rfl
      exact other mem
    exact setPhase_other ne p d
  others := h.others
  strange := by
    intro v s' found aside
    by_cases here : v = u
    · subst here
      obtain ⟨s, before, is⟩ := setPhase_unit_back found
      have same := h.strange before aside
      rw [setPhase_self before] at found
      obtain rfl := Option.some.inj found
      exact ⟨same.entry, same.executor, same.there, own⟩
    · rw [setPhase_other here] at found
      exact (h.strange found aside).beside (Nat.le_refl _) (Nat.le_refl _)

end Dispatch

end TaskLedger
