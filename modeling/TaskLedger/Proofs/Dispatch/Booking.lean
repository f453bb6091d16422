/-
One worker span for each unit.

A unit's worker reports once, in the step that follows its end. As long as
the sink takes everything and has a number for every unit that is still to
report (`due`), that step cannot stop midway (`report_line`), so no unit is
given up. What the journal holds of a unit's worker is then a function of
the unit's phase (`Booked`): nothing before the report, and exactly its
span from then on.
-/
import TaskLedger.Proofs.Dispatch.OwnWorker
import TaskLedger.Proofs.Ledger.Filing

namespace TaskLedger

namespace Phase

/-- The unit's worker has not reported. -/
def due : Phase → Bool
  | .queued | .begun _ | .ran .. | .ended .. => true
  | _ => false

/-- The unit was not given up. -/
def intact : Phase → Bool
  | .faulted | .abandoned => false
  | _ => true

end Phase

-- ============================================================== counting

/-- Changing one entry of a list changes a count by that entry alone. -/
theorem countP_modify {α : Type} {p : α → Bool} {f : α → α} {l : List α}
    {i : Nat} {a : α} (h : l[i]? = some a) :
    (l.modify i f).countP p + (if p a then 1 else 0)
      = l.countP p + (if p (f a) then 1 else 0) := by
  induction l generalizing i with
  | nil => simp at h
  | cons b rest ih =>
      cases i with
      | zero =>
          obtain rfl : b = a := by simpa using h
          rw [List.modify_zero_cons, List.countP_cons, List.countP_cons]
          omega
      | succ i =>
          have later := ih (i := i) (by simpa using h)
          rw [List.modify_succ_cons, List.countP_cons, List.countP_cons]
          omega

namespace Dispatch

variable {d d' : Dispatch} {n b : Nat} {evs : List Event}

/-- Units of some kind. -/
def countUnits (p : Submitted → Bool) (d : Dispatch) : Nat :=
  d.units.toList.countP p

/-- Moving one unit to another phase takes it out of the count of its old phase
and puts it in that of the new one. -/
theorem countUnits_setPhase {p : Submitted → Bool} {u : UnitId}
    {s : Submitted} (found : d.units[u]? = some s) (q : Phase) :
    (d.setPhase u q).countUnits p + (if p s then 1 else 0)
      = d.countUnits p + (if p { s with phase := q } then 1 else 0) := by
  unfold countUnits setPhase
  rw [Array.toList_modify]
  exact countP_modify (by rw [Array.getElem?_toList, found])

/-- One unit more is counted if it is of the sort. -/
theorem countUnits_push (p : Submitted → Bool) (s : Submitted)
    (units : Array Submitted) :
    (units.push s).toList.countP p
      = units.toList.countP p + (if p s then 1 else 0) := by
  rw [Array.toList_push, List.countP_append, List.countP_singleton]

/-- The units whose workers are still to report. -/
def due (d : Dispatch) : Nat := d.countUnits fun s => s.phase.due

-- ================================================================ supply

/-- As many reports are due as before, if the unit's own is due as before. -/
theorem due_setPhase {u : UnitId} {s : Submitted} {q : Phase}
    (found : d.units[u]? = some s) (same : q.due = s.phase.due) :
    (d.setPhase u q).due = d.due := by
  have count := countUnits_setPhase (p := fun s => s.phase.due) found q
  unfold due
  rw [show (({ s with phase := q } : Submitted).phase.due) = s.phase.due
    from same] at count
  omega

/-- A report that was made is due no longer. -/
theorem due_reported {u : UnitId} {s : Submitted} {q : Phase}
    (found : d.units[u]? = some s) (was : s.phase.due = true)
    (is : q.due = false) : (d.setPhase u q).due + 1 = d.due := by
  have count := countUnits_setPhase (p := fun s => s.phase.due) found q
  unfold due
  rw [show (({ s with phase := q } : Submitted).phase.due) = false
    from is, was] at count
  simpa using count

/-- As many numbers are set aside when a unit goes on and is as due as it
was. -/
theorem stocked_setPhase {u : UnitId} {s : Submitted} {q : Phase}
    {l : Ledger} (h : l.Stocked (d.due + b)) (found : d.units[u]? = some s)
    (same : q.due = s.phase.due) : l.Stocked ((d.setPhase u q).due + b) := by
  rw [due_setPhase found same]
  exact h

/-- Every number that a turn has a sink hand out was set aside for it: a
unit's when the unit was submitted. -/
theorem Turn.stocked (turn : Turn d n evs d')
    (h : d.ledger.Stocked (d.due + (n + b))) :
    d'.ledger.Stocked (d'.due + b) := by
  have kept := Ledger.stocked_kept
  -- a report takes the number that was set aside for it
  have reported {u : UnitId} {s : Submitted} {w : WorkerId} {q : Phase}
      {failure : Option String} (found : d.units[u]? = some s)
      (phase : s.phase = .ended w failure) (is : q.due = false)
      (h : d.ledger.Stocked (d.due + b)) :
      (Ledger.OnEntry.report s.entry w d.ledger).1.Stocked
        ((d.setPhase u q).due + b) := by
    have one := due_reported found (by rw [phase]; rfl) is
    have report : ((LedgerOp.report s.entry w).apply d.ledger).1.Stocked
        ((d.setPhase u q).due + b) :=
      kept.apply (fun _ _ => trivial) (by
        show Ledger.Stocked (1 + _) _
        rw [← one, Nat.add_right_comm, Nat.add_comm] at h
        exact h)
    exact report
  cases turn with
  | aside calm =>
      refine calm.keeps kept ?_
      rw [Nat.add_left_comm]
      exact h
  | joined | told =>
      rw [Nat.zero_add] at h
      exact h
  | @submitted x p w pooled =>
      have one : (d.units.push (unitOf x p w)).toList.countP
          (fun s => s.phase.due) = d.due + 1 := countUnits_push _ _ _
      have enlist : ((LedgerOp.enlist p.entry (p.nextKey w) .worker).apply
          d.ledger).1.Stocked (d.due + (1 + b)) :=
        kept.apply (fun _ _ => trivial) (by
          show Ledger.Stocked (0 + _) _
          rw [Nat.zero_add]
          exact h)
      show Ledger.Stocked ((d.units.push (unitOf x p w)).toList.countP
        (fun s => s.phase.due) + b) _
      rw [one, Nat.add_assoc]
      exact enlist
  | @begun u s m w found queued calm finds =>
      rw [Nat.add_left_comm] at h
      have looked := calm.keeps kept h
      exact stocked_setPhase (kept.change₀ looked (.started w)) found
        (by rw [queued]; rfl)
  | @performed u s w l ran found phase calm noted =>
      rw [Nat.add_left_comm] at h
      exact stocked_setPhase (calm.keeps kept h) found (by rw [phase]; rfl)
  | @ended u s w failure found phase =>
      rw [Nat.zero_add] at h
      exact stocked_setPhase (kept.change₀ h (.ended w)) found
        (by rw [phase]; rfl)
  | reported found phase answer =>
      rw [Nat.zero_add] at h
      exact reported found phase rfl h
  | faulted found phase answer =>
      rw [Nat.zero_add] at h
      exact reported found phase rfl h
  | @completed u s l failure found phase calm =>
      rw [Nat.add_left_comm] at h
      exact stocked_setPhase (calm.keeps kept h) found (by rw [phase]; rfl)
  | @abandoned u s found phase =>
      rw [Nat.zero_add] at h
      exact stocked_setPhase h found (by rw [phase]; rfl)

-- =============================================================== reports

/-- With a number to be had, a worker's report is its line in the
journal. -/
theorem report_line {t : TaskId} {w : WorkerId} {task : Task} {k : Worker}
    {l : Ledger} (h : l.Stocked (b + 1)) (found : l.tasks[t]? = some task)
    (present : l.workers[w]? = some k) :
    (l.report t w).2 = .ok ()
      ∧ ∃ id, (l.report t w).1.journal = l.journal
          ++ [⟨task.sink, .worker t w, task.record (k.span id task.id) [],
            none⟩] := by
  rcases Ledger.report_cases t w l with ⟨none | none, -⟩
      | ⟨task', _, f, ht, -, fault, -⟩
      | ⟨task', k', _, id, _, _, ht, hk, -, -, he⟩
  · rw [found] at none
    cases none
  · rw [present] at none
    cases none
  · -- a sink with numbers left has one to give
    obtain ⟨k', hk, -, room⟩ := h.supply
    rw [found] at ht
    obtain rfl := Option.some.inj ht
    have next := Sink.next_of_lt (k := k') (n := b) (by omega)
    unfold Ledger.allocate at fault
    rw [h.home found, hk] at fault
    dsimp only at fault
    rw [next.1] at fault
    cases fault
  · rw [found] at ht
    rw [present] at hk
    obtain rfl := Option.some.inj ht
    obtain rfl := Option.some.inj hk
    rw [he]
    refine ⟨rfl, id, ?_⟩
    dsimp only
    rw [h.home found, h.supply.notes]

/-- A unit whose worker is to report has somebody to report to and a number
to report under. -/
theorem report_answer (settled : Settled d)
    (stocked : d.ledger.Stocked (d.due + b)) {u : UnitId} {s : Submitted}
    {w : WorkerId} {failure : Option String} (found : d.units[u]? = some s)
    (phase : s.phase = .ended w failure) :
    (Ledger.OnEntry.report s.entry w d.ledger).2 = .ok () := by
  cases entry : s.entry with
  | untracked => rfl
  | task t =>
      obtain ⟨task, ht⟩ := settled.linked.task found entry
      obtain ⟨lt, -⟩ := settled.roll.held found (by rw [phase]; rfl)
      have one := due_reported (q := .faulted) found (by rw [phase]; rfl) rfl
      rw [← one, Nat.add_right_comm] at stocked
      exact (report_line stocked ht (Array.getElem?_eq_getElem lt)).1

/-- No unit was given up. -/
structure Intact (d : Dispatch) : Prop where
  unit : ∀ {u : UnitId} {s : Submitted}, d.units[u]? = some s →
    s.phase.intact = true

/-- A unit in a phase that is not given up leaves none given up. -/
theorem Intact.setPhase (h : Intact d) (u : UnitId) {q : Phase}
    (intact : q.intact = true) : Intact (d.setPhase u q) := by
  refine ⟨?_⟩
  intro v s found
  rcases modify_cases found with ⟨-, s₀, -, rfl⟩ | ⟨-, still⟩
  · exact intact
  · exact h.unit still

theorem Intact.beside (h : Intact d) (l : Ledger)
    (executors : Array Executor) (ran : List String) :
    Intact { d with ledger := l, executors, ran } :=
  ⟨h.unit⟩

/-- No unit is given up by a turn, since the reports have numbers to take. -/
theorem Intact.turn (h : Intact d) (settled : Settled d)
    (stocked : d.ledger.Stocked (d.due + b)) (turn : Turn d n evs d') :
    Intact d' := by
  cases turn with
  | aside | joined | told => exact ⟨h.unit⟩
  | submitted =>
      refine ⟨?_⟩
      intro u s found
      rcases push_back found with prior | ⟨-, rfl⟩
      · exact h.unit prior
      · rfl
  | begun | performed | ended | reported | completed =>
      exact (h.beside _ _ _).setPhase _ rfl
  | faulted found phase answer =>
      rw [report_answer settled stocked found phase] at answer
      cases answer
  | abandoned found phase =>
      have intact := h.unit found
      rw [phase] at intact
      cases intact

-- ================================================================ booked

/-- The line that a worker's report leaves in the journal. -/
def reportLine (t : TaskId) (w : WorkerId) (task : Task) (k : Worker)
    (id : SpanId) : Write :=
  ⟨task.sink, .worker t w, task.record (k.span id task.id) [], none⟩

/-- A report's line shows only what is fixed of the task. -/
theorem reportLine_same {t : TaskId} {w : WorkerId} {task task' : Task}
    {k : Worker} {id : SpanId} (same : task.Same task') :
    reportLine t w task' k id = reportLine t w task k id := by
  unfold reportLine Task.record
  rw [same.sink, same.project, same.variant, same.id]

/-- What the journal holds of a worker is what a phase says: nothing before
the report, and one line from then on. -/
structure Accounted (t : TaskId) (w : WorkerId) (p : Phase) (l : Ledger) :
    Prop where
  before : p.due = true → l.reportsOf t w = []
  line : p.due = false → ∃ task k id, l.tasks[t]? = some task
    ∧ l.workers[w]? = some k ∧ l.reportsOf t w = [reportLine t w task k id]

/-- That of the worker under a key. -/
def Books (t : TaskId) (key : String) (p : Phase) (l : Ledger) : Prop :=
  ∀ w, (key, w) ∈ l.crewAt t → Accounted t w p l

section

variable {t : TaskId} {key : String} {w : WorkerId} {p q : Phase}
  {l m : Ledger}

/-- A worker's account stays as it is while its lines, its task and its phase
do. -/
theorem Accounted.keep (h : Accounted t w p l) (phase : q.due = p.due)
    (task : ∀ {task : Task}, l.tasks[t]? = some task →
      ∃ task', m.tasks[t]? = some task' ∧ task.Same task')
    (worker : p.due = false → ∀ {k : Worker}, l.workers[w]? = some k →
      m.workers[w]? = some k)
    (reports : m.reportsOf t w = l.reportsOf t w) : Accounted t w q m where
  before due := by
    rw [reports]
    exact h.before (phase.symm.trans due)
  line due := by
    have due := phase.symm.trans due
    obtain ⟨a, k, id, ha, hk, he⟩ := h.line due
    obtain ⟨a', ha', same⟩ := task ha
    refine ⟨a', k, id, ha', worker due hk, ?_⟩
    rw [reports, he, reportLine_same same]

/-- Nothing that is calm touches the books of a worker. -/
theorem Books.calm (h : Books t key p l) (calm : l.Calm m)
    (phase : q.due = p.due) : Books t key q m := by
  intro w mem
  rw [calm.crew] at mem
  exact (h w mem).keep phase calm.task (fun _ => calm.worker)
    (calm.reports t w)

/-- A mark on a worker that has not reported, or that is under another key,
leaves the books alone. -/
theorem Books.mark (h : Books t key p l) {f : Worker → Worker} {w : WorkerId}
    (phase : q.due = p.due) (other : p.due = true ∨ (key, w) ∉ l.crewAt t) :
    Books t key q (l.onWorker w f) := by
  intro w' mem
  refine (h w' mem).keep phase (fun {task} ht => ⟨task, ht, .refl task⟩) ?_
    rfl
  intro reported k hk
  rcases other with due | absent
  · rw [reported] at due
    cases due
  · show (l.workers.modify w f)[w']? = some k
    have ne : w ≠ w' := by
      rintro rfl
      exact absent mem
    rw [Array.getElem?_modify, if_neg ne, hk]

end

/-- The books are in order for every unit that is alone, and no worker that
is yet to come has reported. -/
structure Booked (d : Dispatch) : Prop where
  alone : ForAlone Books d
  fresh : ∀ t w, d.ledger.workers.size ≤ w → d.ledger.reportsOf t w = []

/-- Where nothing was handed in, nothing has to be booked. -/
theorem Blank.booked (h : d.Blank) : Booked d where
  alone := ⟨by intro u s t found; simp [h.units] at found⟩
  fresh := by
    intro t w le
    unfold Ledger.reportsOf
    rw [h.journal]
    rfl

/-- A submission writes nothing, and its new worker has not reported. -/
theorem Booked.submit (linked : Linked d) (h : Booked d)
    {x : ExecutorId} {p : PooledState} (w : Work)
    (pooled : d.pooled? x = some p) (executors : Array Executor) :
    Booked { d with
      ledger := Ledger.OnEntry.does p.entry
        (fun t => Ledger.enlist t (p.nextKey w) .worker) d.ledger
      executors
      units := d.units.push (unitOf x p w) } := by
  cases pe : p.entry with
  | untracked =>
      refine ⟨⟨?_⟩, h.fresh⟩
      intro u s t found entry alone
      rcases push_back found with prior | ⟨-, rfl⟩
      · exact h.alone.holds prior entry fun hv => alone (push_old hv)
      · rw [show (unitOf x p w).entry = p.entry from rfl, pe] at entry
        cases entry
  | task t' =>
      obtain ⟨task, ht⟩ := linked.entry pooled pe
      obtain ⟨workers, -, reports, tasks⟩ :=
        Ledger.enlist_view ht (p.nextKey w) .worker
      refine ⟨⟨?_⟩, ?_⟩
      · intro u s t found entry alone w' mem
        show Accounted t w' s.phase (d.ledger.enlist t' (p.nextKey w) .worker)
        -- an old worker keeps its account, and the key that comes is a new one
        rcases push_back found with prior | ⟨-, rfl⟩
        · have was := h.alone.holds prior entry fun hv => alone (push_old hv)
          rcases (Ledger.mem_enlist ht).mp mem with ⟨old, -⟩ | ⟨rfl, same, -⟩
          · refine (was w' old).keep rfl tasks ?_ (reports t w')
            intro _ k hk
            rw [workers]
            exact push_old hk
          · exact absurd same (alone.not_next prior (pe.trans entry.symm))
        -- the new one has reported nothing, since it is beyond all that have
        · refine ⟨fun _ => ?_, fun due => by cases due⟩
          rw [reports]
          refine h.fresh t w' ?_
          rcases (Ledger.mem_enlist ht).mp mem with ⟨-, ne⟩ | ⟨-, -, rfl⟩
          · exact absurd ⟨Entry.task.inj (pe.symm.trans entry), rfl⟩ ne
          · exact Nat.le_refl _
      · intro t w' le
        show (d.ledger.enlist t' _ .worker).reportsOf t w' = []
        rw [reports]
        refine h.fresh t w' ?_
        have le : (d.ledger.enlist t' (p.nextKey w) .worker).workers.size
          ≤ w' := le
        rw [workers, Array.size_push] at le
        exact Nat.le_of_succ_le le

/-- What goes on beside the units leaves them booked. -/
theorem Booked.beside (h : Booked d) {l : Ledger} (calm : d.ledger.Calm l)
    (executors : Array Executor) (ran : List String) :
    Booked { d with ledger := l, executors, ran } where
  alone := by
    refine ⟨?_⟩
    intro u s t found entry alone
    exact (h.alone.holds found entry alone).calm calm rfl
  fresh := by
    intro t w le
    show l.reportsOf t w = []
    rw [calm.reports]
    exact h.fresh t w (Nat.le_trans calm.size le)

/-- A unit that takes a step without a report leaves them booked too. -/
theorem Booked.goOn (h : Booked d) {u : UnitId} {s : Submitted} {q : Phase}
    (found : d.units[u]? = some s) (phase : q.due = s.phase.due) :
    Booked (d.setPhase u q) where
  alone := by
    refine forAlone_setPhase found ?_ ?_
    · intro v s' t ne found' entry alone
      exact h.alone.holds found' entry alone
    · intro t entry alone
      exact (h.alone.holds found entry alone).calm (.refl d.ledger) phase
  fresh := h.fresh

/-- A mark on the worker that a unit holds, or has just found, before it
reports. -/
theorem Booked.mark (h : Booked d) {u : UnitId} {s : Submitted} {w : WorkerId}
    {f : Worker → Worker} {q : Phase} (found : d.units[u]? = some s)
    (was : s.phase.due = true) (is : q.due = true)
    (other : ∀ {v : UnitId} {s' : Submitted} {t : TaskId}, v ≠ u →
      s'.entry = .task t → Alone v s' d →
      (s'.key, w) ∉ d.ledger.crewAt t) :
    Booked ((d.onLedger (Ledger.onWorker w f)).setPhase u q) where
  alone := by
    refine forAlone_setPhase (d := d.onLedger (Ledger.onWorker w f)) found
      ?_ ?_
    · intro v s' t ne found' entry alone
      exact (h.alone.holds found' entry alone).mark rfl
        (.inr (other ne entry alone))
    · intro t entry alone
      exact (h.alone.holds found entry alone).mark (is.trans was.symm)
        (.inl was)
  fresh := by
    intro t w' le
    refine h.fresh t w' ?_
    have size : (d.ledger.onWorker w f).workers.size
        = d.ledger.workers.size := Array.size_modify
    rw [← size]
    exact le

/-- What the journal holds of a worker after a unit's worker reported: one
line more of this one, and of no other one. -/
theorem report_lines (settled : Settled d)
    (stocked : d.ledger.Stocked (d.due + b)) {u : UnitId} {s : Submitted}
    {w : WorkerId} {failure : Option String} (found : d.units[u]? = some s)
    (phase : s.phase = .ended w failure) (t : TaskId) (w' : WorkerId) :
    (¬ (s.entry = .task t ∧ w' = w) →
        (Ledger.OnEntry.report s.entry w d.ledger).1.reportsOf t w'
          = d.ledger.reportsOf t w')
      ∧ (s.entry = .task t → ∃ task k id, d.ledger.tasks[t]? = some task
          ∧ d.ledger.workers[w]? = some k
          ∧ (Ledger.OnEntry.report s.entry w d.ledger).1.reportsOf t w
            = d.ledger.reportsOf t w ++ [reportLine t w task k id]) := by
  cases entry : s.entry with
  | untracked => exact ⟨fun _ => rfl, fun e => by cases e⟩
  | task t' =>
      obtain ⟨task, ht⟩ := settled.linked.task found entry
      obtain ⟨lt, -⟩ := settled.roll.held found (by rw [phase]; rfl)
      have hw : d.ledger.workers[w]? = some d.ledger.workers[w] :=
        Array.getElem?_eq_getElem lt
      have one := due_reported (q := .faulted) found (by rw [phase]; rfl) rfl
      rw [← one, Nat.add_right_comm] at stocked
      obtain ⟨-, id, line⟩ := report_line stocked ht hw
      refine ⟨?_, ?_⟩
      · intro other
        show (d.ledger.report t' w).1.journal.filter _ = _
        have ne : (Origin.worker t' w == Origin.worker t w') = false := by
          rw [beq_eq_false_iff_ne]
          intro e
          obtain ⟨e₁, e₂⟩ := Origin.worker.inj e
          exact other ⟨congrArg _ e₁, e₂.symm⟩
        rw [line, List.filter_append, List.filter_cons_of_neg (by simp [ne]),
          List.filter_nil, List.append_nil]
        rfl
      · intro same
        obtain rfl := Entry.task.inj same
        refine ⟨task, _, id, ht, hw, ?_⟩
        show (d.ledger.report t' w).1.journal.filter _ = _
        rw [line, List.filter_append]
        unfold Ledger.reportsOf reportLine
        simp

/-- The report of a unit's worker is the line of this unit, and of no
other one that is alone. -/
theorem Booked.report (settled : Settled d) (h : Booked d)
    (stocked : d.ledger.Stocked (d.due + b)) {u : UnitId} {s : Submitted}
    {w : WorkerId} {failure : Option String} (found : d.units[u]? = some s)
    (phase : s.phase = .ended w failure) :
    Booked ({ d with
      ledger := (Ledger.OnEntry.report s.entry w d.ledger).1
      }.setPhase u (.reported failure)) := by
  obtain ⟨crew, workers, tasks⟩ := Ledger.report_view s.entry w d.ledger
  have lines := report_lines settled stocked found phase
  have holds : s.phase.worker? = some w := by
    rw [phase]
    rfl
  refine ⟨?_, ?_⟩
  · refine forAlone_setPhase (d := { d with
      ledger := (Ledger.OnEntry.report s.entry w d.ledger).1 }) found ?_ ?_
    · intro v s' t ne found' entry alone w' mem
      dsimp only at mem
      rw [crew] at mem
      have other : ¬ (s.entry = .task t ∧ w' = w) := by
        rintro ⟨-, rfl⟩
        exact settled.roll.not_mem found holds entry alone ne mem
      refine (h.alone.holds found' entry alone w' mem).keep rfl tasks ?_
        ((lines t w').1 other)
      intro _ k hk
      show (Ledger.OnEntry.report s.entry w d.ledger).1.workers[w']? = _
      rw [workers]
      exact hk
    · intro t entry alone w' mem
      dsimp only at mem
      rw [crew] at mem
      obtain ⟨w₁, k₁, mem₁, -, own, -⟩ :=
        settled.own.holds found entry alone
      -- the unit's own worker is the one that reported
      obtain rfl : w' = w := by
        have look := settled.roll.lookup.mpr mem
        rw [settled.roll.lookup.mpr mem₁] at look
        rw [own w holds]
        exact (Option.some.inj look).symm
      refine ⟨fun due => (by cases due), fun _ => ?_⟩
      have none := (h.alone.holds found entry alone w' mem).before
        (by rw [phase]; rfl)
      obtain ⟨task, k, id, ht, hk, line⟩ := (lines t w').2 entry
      obtain ⟨task', ht', same⟩ := tasks ht
      refine ⟨task', k, id, ht', ?_, ?_⟩
      · show (Ledger.OnEntry.report s.entry w' d.ledger).1.workers[w']? = _
        rw [workers]
        exact hk
      · rw [line, none, reportLine_same same]
        rfl
  · intro t w' beyond
    have le : (Ledger.OnEntry.report s.entry w d.ledger).1.workers.size
      ≤ w' := beyond
    rw [workers] at le
    have other : ¬ (s.entry = .task t ∧ w' = w) := by
      rintro ⟨-, rfl⟩
      exact absurd (settled.roll.held found holds).1 (Nat.not_lt.mpr le)
    rw [← h.fresh t w' le]
    exact (lines t w').1 other

/-- Every turn leaves the units booked. The one that matters is a report: it
books its own line and no other, because workers are told apart by their places.
-/
theorem Booked.turn (settled : Settled d) (intact : Intact d)
    (stocked : d.ledger.Stocked (d.due + b)) (h : Booked d)
    (turn : Turn d n evs d') : Booked d' := by
  cases turn with
  | aside calm => exact h.beside calm.toCalm _ _
  | joined | told => exact ⟨⟨h.alone.holds⟩, h.fresh⟩
  | @submitted x p w pooled => exact h.submit settled.linked w pooled _
  | @begun u s m w found queued calm finds =>
      refine (h.beside calm.toCalm d.executors d.ran).mark found
        (by rw [queued]; rfl) rfl ?_
      intro v s' t ne entry alone mem
      dsimp only at mem
      rw [calm.crew] at mem
      exact not_mem_of_finds settled.roll found finds entry alone ne mem
  | @performed u s w l ran found phase calm noted =>
      exact (h.beside calm.toCalm _ _).goOn found (by rw [phase]; rfl)
  | @ended u s w failure found phase =>
      refine h.mark found (by rw [phase]; rfl) rfl ?_
      intro v s' t ne entry alone
      exact settled.roll.not_mem found (by rw [phase]; rfl) entry alone ne
  | @reported u s w failure found phase answer =>
      exact h.report settled stocked found phase
  | faulted found phase answer =>
      rw [report_answer settled stocked found phase] at answer
      cases answer
  | @completed u s l failure found phase calm =>
      exact (h.beside calm.toCalm _ _).goOn found (by rw [phase]; rfl)
  | abandoned found phase =>
      have intact := intact.unit found
      rw [phase] at intact
      cases intact

end Dispatch

end TaskLedger
