/-
How a worker serves its task while the clock runs forward.

The dispatcher takes three steps with a worker, in this order: it starts,
it ends, it reports. Whoever acts on the ledger, a worker's times depend on
the steps that were taken with it and on nothing else (`worker_apply`). So
a worker that entered a crew and took some of the three steps in order is
in the stage that the list of them says (`Stage`), its times rise from its
creation on, and what the journal has of it was written at the end and
shows the times that it will keep (`Serving`).

A crew's worker was created when its task was on record already, so it is
no older than the task (`Dated`).
-/
import TaskLedger.Proofs.Ledger.CrewsUndisturbed
import TaskLedger.Proofs.Ledger.Registered

namespace TaskLedger

-- ================================================================= steps

/-- What the dispatcher does with a worker. -/
inductive WorkerStep
  | start
  | stop
  | report
  deriving DecidableEq, Repr

/-- The steps of one worker, in their order. -/
def routine : List WorkerStep := [.start, .stop, .report]

/-- What is known of a worker after a step at the time `t`. -/
def Worker.after (k : Worker) (t : Instant) : Option WorkerStep → Worker
  | some .start => { k with started := some t }
  | some .stop => { k with ended := some t }
  | _ => k

namespace LedgerOp

/-- The step that an operation takes with a worker. -/
def step? (w : WorkerId) : LedgerOp → Option WorkerStep
  | startWorker v => if v = w then some .start else none
  | endWorker v => if v = w then some .stop else none
  | report _ v => if v = w then some .report else none
  | _ => none

/-- The steps that a run takes with a worker from the time it is there. -/
def stepsOf (w : WorkerId) : List LedgerOp → Ledger → List WorkerStep
  | [], _ => []
  | op :: rest, l =>
      (if w < l.workers.size then (op.step? w).toList else [])
        ++ stepsOf w rest (op.apply l).1

/-- The clock of a run never moves backwards. -/
def Forward : List LedgerOp → Ledger → Bool
  | [], _ => true
  | op :: rest, l =>
      decide (l.now.nanos ≤ (op.apply l).1.now.nanos)
        && Forward rest (op.apply l).1

/-- The scheduler takes no steps of workers. -/
theorem step?_of_calm {op : LedgerOp} (h : op.byHand = false)
    (w : WorkerId) : op.step? w = none := by
  cases op with
  | enlist | startWorker | endWorker | report => cases h
  | _ => rfl

/-- The steps of a history are those of one part and then of the other. -/
theorem stepsOf_append (w : WorkerId) (ops more : List LedgerOp)
    (l : Ledger) :
    stepsOf w (ops ++ more) l
      = stepsOf w ops l ++ stepsOf w more (run ops l).1 := by
  induction ops generalizing l with
  | nil => rfl
  | cons op rest ih =>
      show _ ++ stepsOf w (rest ++ more) (op.apply l).1 = _ ++ _ ++ _
      rw [ih, List.append_assoc]
      rfl

theorem forward_append (ops more : List LedgerOp) (l : Ledger) :
    Forward (ops ++ more) l
      = (Forward ops l && Forward more (run ops l).1) := by
  induction ops generalizing l with
  | nil => rfl
  | cons op rest ih =>
      show (_ && Forward (rest ++ more) (op.apply l).1) = (_ && _ && _)
      rw [ih, Bool.and_assoc]
      rfl

end LedgerOp

-- ================================================ one operation, by views

namespace Ledger

theorem known_of_member {t : TaskId} {key : String} {w : WorkerId}
    {l : Ledger} (mem : (key, w) ∈ l.crewAt t) :
    ∃ task, l.tasks[t]? = some task := by
  unfold crewAt at mem
  cases h : l.tasks[t]? with
  | none => rw [h] at mem; cases mem
  | some task => exact ⟨task, rfl⟩

/-- A line on a worker's behalf after a report is an old one, or has the
span of the worker that reported. -/
theorem mem_reportsOf_report {t u : TaskId} {v w : WorkerId} {line : Write}
    {l : Ledger} (mem : line ∈ (l.report t v).1.reportsOf u w) :
    line ∈ l.reportsOf u w
      ∨ v = w ∧ ∃ k id parent, l.workers[w]? = some k
          ∧ line.record.span = k.span id parent := by
  rcases report_cases t v l with ⟨-, he⟩ | ⟨_, _, _, -, -, -, he⟩
      | ⟨task, k, _, id, _, _, -, hk, -, -, he⟩
  · rw [he] at mem
    exact .inl mem
  · rw [he] at mem
    exact .inl mem
  · rw [he] at mem
    obtain ⟨mem, origin⟩ := List.mem_filter.mp mem
    rcases List.mem_append.mp mem with old | new
    · exact .inl (List.mem_filter.mpr ⟨old, origin⟩)
    · unfold notes at new
      split at new
      · cases new
      · obtain rfl := List.mem_singleton.mp new
        obtain ⟨-, rfl⟩ := Origin.worker.inj (eq_of_beq origin)
        exact .inr ⟨rfl, k, id, task.id, hk, rfl⟩

end Ledger

namespace LedgerOp

open Ledger

variable {op : LedgerOp} {l : Ledger} {t : TaskId} {w : WorkerId}
  {k : Worker} {key : String}

/-- An operation changes a worker by the step that it takes with it. -/
theorem worker_apply (op : LedgerOp) (h : l.workers[w]? = some k) :
    (op.apply l).1.workers[w]?
      = some (k.after (l.clockOf k) (op.step? w)) := by
  have marked {v : WorkerId} {f : Worker → Worker} :
      (l.workers.modify v f)[w]? = some (if v = w then f k else k) := by
    rw [Array.getElem?_modify, h]
    split <;> rfl
  cases hand : op.byHand with
  | false =>
      rw [step?_of_calm hand]
      exact (calm_apply hand l).worker h
  | true =>
      -- two operations mark a worker, and one reads it
      cases op with
      | enlist e key kind =>
          cases e with
          | untracked => exact h
          | task t =>
              show (l.enlist t key kind).workers[w]? = some k
              rcases enlist_cases t key kind l with ⟨-, he⟩ | ⟨_, -, he⟩
              · rw [he]
                exact h
              · rw [he]
                exact push_old h
      | startWorker v =>
          refine marked.trans ?_
          by_cases e : v = w
          · simp only [step?, if_pos e, Worker.after]
          · simp only [step?, if_neg e, Worker.after]
      | endWorker v =>
          refine marked.trans ?_
          by_cases e : v = w
          · simp only [step?, if_pos e, Worker.after]
          · simp only [step?, if_neg e, Worker.after]
      | report e v =>
          show (OnEntry.report e v l).1.workers[w]? = _
          rw [(report_view e v l).2.1, h]
          by_cases e : v = w
          · simp only [step?, if_pos e, Worker.after]
          · simp only [step?, if_neg e, Worker.after]
      | _ => cases hand

/-- A task stays the one it is. -/
theorem task_apply (op : LedgerOp) {task : Task}
    (h : l.tasks[t]? = some task) :
    ∃ task', (op.apply l).1.tasks[t]? = some task' ∧ task.Same task' := by
  have kept : Kept (fun _ => True) fun _ m =>
      ∃ task', m.tasks[t]? = some task' ∧ task.Same task' :=
    .of_change fun h c => by
      obtain ⟨task₁, h₁, same₁⟩ := h
      obtain ⟨task₂, h₂, same₂, -⟩ := c.task h₁
      exact ⟨task₂, h₂, same₁.trans same₂⟩
  exact kept.apply (b := 0) (fun _ _ => trivial) ⟨task, h, .refl task⟩

/-- A member of a crew is an old one, or a worker that came just now. -/
theorem member_back (mem : (key, w) ∈ (op.apply l).1.crewAt t) :
    (key, w) ∈ l.crewAt t
      ∨ w = l.workers.size ∧ (∃ task, l.tasks[t]? = some task)
        ∧ ∃ path kind, (op.apply l).1.workers[w]?
          = some { path, kind, created := l.now } := by
  cases hand : op.byHand with
  | false =>
      rw [(calm_apply hand l).crew] at mem
      exact .inl mem
  | true =>
      cases op with
      | enlist e key' kind =>
          cases e with
          | untracked => exact .inl mem
          | task t' =>
              have mem : (key, w) ∈ (l.enlist t' key' kind).crewAt t := mem
              show _ ∨ w = _ ∧ _
                ∧ ∃ _ _, (l.enlist t' key' kind).workers[w]? = _
              rcases enlist_cases t' key' kind l with ⟨-, he⟩ | ⟨task, ht, -⟩
              · rw [he] at mem
                exact .inl mem
              · rcases (mem_enlist ht).mp mem with ⟨old, -⟩ | ⟨rfl, -, rfl⟩
                · exact .inl old
                · refine .inr ⟨rfl, ⟨task, ht⟩, task.path, kind, ?_⟩
                  rw [(enlist_view ht key' kind).1]
                  exact Array.getElem?_push_size
      | startWorker | endWorker => exact .inl mem
      | report e v =>
          have mem : (key, w) ∈ (OnEntry.report e v l).1.crewAt t := mem
          rw [(report_view e v l).1] at mem
          exact .inl mem
      | _ => cases hand

/-- A line on a worker's behalf is an old one, or the worker reported and it
has its span. -/
theorem mem_reportsOf_apply {line : Write}
    (mem : line ∈ (op.apply l).1.reportsOf t w) :
    line ∈ l.reportsOf t w
      ∨ op.step? w = some .report ∧ ∃ k id parent, l.workers[w]? = some k
          ∧ line.record.span = k.span id parent := by
  cases hand : op.byHand with
  | false =>
      rw [(calm_apply hand l).reports] at mem
      exact .inl mem
  | true =>
      cases op with
      | enlist e key' kind =>
          cases e with
          | untracked => exact .inl mem
          | task t' =>
              have mem : line ∈ (l.enlist t' key' kind).reportsOf t w := mem
              rcases enlist_cases t' key' kind l with ⟨-, he⟩ | ⟨task, ht, -⟩
              · rw [he] at mem
                exact .inl mem
              · rw [(enlist_view ht key' kind).2.2.1] at mem
                exact .inl mem
      | startWorker | endWorker => exact .inl mem
      | report e v =>
          cases e with
          | untracked => exact .inl mem
          | task t' =>
              rcases mem_reportsOf_report (t := t') mem with old | ⟨rfl, rest⟩
              · exact .inl old
              · exact .inr ⟨if_pos rfl, rest⟩
      | _ => cases hand

/-- Only an operation that takes a number makes a task. -/
theorem size_apply (free : op.numbers = 0) (l : Ledger) :
    (op.apply l).1.tasks.size = l.tasks.size := by
  have kept : Kept (fun _ => True) fun b m =>
      m.tasks.size + b ≤ l.tasks.size := by
    refine ⟨?_, fun h => Nat.le_of_succ_le h⟩
    intro a b l m h c
    cases c with
    | quiet q =>
        cases q with
        | clock | aside | hired => rwa [Nat.zero_add] at h
        | number =>
            exact Nat.le_trans (Nat.add_le_add_left (Nat.le_add_left b 1) _) h
        | opened =>
            rw [Array.size_push]
            exact Nat.le_trans (by omega) h
        | turned =>
            rw [Array.size_modify]
            rwa [Nat.zero_add] at h
    | concluded | enlisted =>
        refine Nat.le_trans (Nat.le_of_eq ?_) h
        rw [Nat.zero_add]
        exact congrArg (· + b) Array.size_modify
    | started | ended | offered => rwa [Nat.zero_add] at h
    | reported =>
        rw [Array.size_modify]
        exact Nat.le_trans (by omega) h
  refine Nat.le_antisymm ?_ ?_
  · have le : (op.apply l).1.tasks.size + 0 ≤ l.tasks.size :=
      kept.apply (b := 0) (fun _ _ => trivial) (by
        rw [free]
        exact Nat.le_refl _)
    exact le
  · refine size_le_of_old fun found => ?_
    obtain ⟨task, ht, -⟩ := task_apply op found
    exact ⟨task, ht⟩

/-- A task is an old one, or it starts just now. -/
theorem task_back {task' : Task}
    (found : (op.apply l).1.tasks[t]? = some task') :
    (∃ task, l.tasks[t]? = some task ∧ task.Same task')
      ∨ task'.start = l.now := by
  by_cases old : t < l.tasks.size
  · have there : l.tasks[t]? = some l.tasks[t] := Array.getElem?_eq_getElem old
    obtain ⟨task, ht, same⟩ := task_apply op there
    rw [found] at ht
    obtain rfl := Option.some.inj ht
    exact .inl ⟨_, there, same⟩
  -- beyond the table, only two operations put a task on record
  · have none : l.tasks[t]? = none :=
      Array.getElem?_eq_none_iff.mpr (Nat.le_of_not_lt old)
    have pushed {task : Task} (start : task.start = l.now)
        (found : (l.tasks.push task)[t]? = some task') :
        task'.start = l.now := by
      rcases push_back found with prior | ⟨-, rfl⟩
      · rw [none] at prior
        cases prior
      · exact start
    have absurd {P : Prop} (same : (op.apply l).1.tasks.size = l.tasks.size) :
        P := by
      have lt := (Array.getElem?_eq_some_iff.mp found).1
      rw [same] at lt
      exact (old lt).elim
    refine .inr ?_
    by_cases free : op.numbers = 0
    · exact absurd (size_apply free l)
    · cases op with
      | startTask path project variant =>
          rcases startTask_cases path project variant l with ⟨f, he⟩
              | ⟨id, marks, warnings, -, he⟩
          · refine absurd ?_
            simp only [LedgerOp.apply, apply.answer, he]
          · simp only [LedgerOp.apply, apply.answer, he] at found
            exact pushed rfl found
      | addTask path project variant =>
          rcases addTask_cases path project variant l with ⟨f, he⟩
              | ⟨id, -, he⟩
          · refine absurd ?_
            simp only [LedgerOp.apply, apply.answer, he]
          · simp only [LedgerOp.apply, apply.answer, he] at found
            exact pushed rfl found
      | allocate =>
          refine absurd ?_
          show (l.allocate l.sink).1.tasks.size = _
          rw [allocate_fst]
      | report e v =>
          cases e with
          | untracked => exact absurd rfl
          | task u =>
              refine absurd ?_
              show (l.report u v).1.tasks.size = _
              rcases report_cases u v l with ⟨-, he⟩ | ⟨_, _, _, -, -, -, he⟩
                  | ⟨_, _, _, _, _, _, -, -, -, -, he⟩
              · rw [he]
              · rw [he]
              · rw [he]
                exact Array.size_modify
      | _ => exact (free rfl).elim

end LedgerOp

-- ================================================================= dated

namespace Ledger

/-- No task starts later than now, and no member of a crew is older than
its task. -/
structure Dated (l : Ledger) : Prop where
  start : ∀ {t : TaskId} {task : Task}, l.tasks[t]? = some task →
    task.start.nanos ≤ l.now.nanos
  member : ∀ {t : TaskId} {task : Task} {key : String} {w : WorkerId},
    l.tasks[t]? = some task → (key, w) ∈ l.crewAt t →
    ∃ k, l.workers[w]? = some k ∧ k.standIn = false
      ∧ task.start.nanos ≤ k.created.nanos

/-- If the clock does not go back, no task has started after now, and no worker
came before its task. -/
theorem Dated.apply {op : LedgerOp} {l : Ledger} (h : Dated l)
    (forward : l.now.nanos ≤ (op.apply l).1.now.nanos) :
    Dated (op.apply l).1 where
  start := by
    intro t task' found
    rcases LedgerOp.task_back found with ⟨task, ht, same⟩ | now
    · rw [same.start]
      exact Int.le_trans (h.start ht) forward
    · rw [now]
      exact forward
  member := by
    intro t task' key w found mem
    rcases LedgerOp.member_back mem with old
        | ⟨-, ⟨task, ht⟩, path, kind, hired⟩
    · obtain ⟨task, ht⟩ := known_of_member old
      obtain ⟨k, hk, real, after⟩ := h.member ht old
      obtain ⟨a, ha, same⟩ := LedgerOp.task_apply op ht
      rw [found] at ha
      obtain rfl := Option.some.inj ha
      refine ⟨_, LedgerOp.worker_apply op hk, ?_, ?_⟩
      · unfold Worker.after
        split <;> exact real
      · rw [same.start]
        unfold Worker.after
        split <;> exact after
    · obtain ⟨a, ha, same⟩ := LedgerOp.task_apply op ht
      rw [found] at ha
      obtain rfl := Option.some.inj ha
      refine ⟨_, hired, rfl, ?_⟩
      rw [same.start]
      exact h.start ht

-- =============================================================== serving

/-- What is known of a worker with which some steps of the routine were
taken, until now. -/
inductive Stage (k : Worker) (now : Instant) : List WorkerStep → Prop
  | hired (started : k.started = none) (ended : k.ended = none)
      (past : k.created.nanos ≤ now.nanos) : Stage k now []
  | started {s : Instant} (started : k.started = some s)
      (ended : k.ended = none) (order : k.created.nanos ≤ s.nanos)
      (past : s.nanos ≤ now.nanos) : Stage k now [.start]
  | ended {s e : Instant} (started : k.started = some s)
      (ended : k.ended = some e) (order : k.created.nanos ≤ s.nanos)
      (order' : s.nanos ≤ e.nanos) (past : e.nanos ≤ now.nanos) :
      Stage k now [.start, .stop]
  | reported {s e : Instant} (started : k.started = some s)
      (ended : k.ended = some e) (order : k.created.nanos ≤ s.nanos)
      (order' : s.nanos ≤ e.nanos) (past : e.nanos ≤ now.nanos) :
      Stage k now routine

variable {k : Worker} {now : Instant} {taken : List WorkerStep}

/-- A stage is not left by time passing. -/
theorem Stage.later (h : Stage k now taken) {soon : Instant}
    (le : now.nanos ≤ soon.nanos) : Stage k soon taken := by
  cases h with
  | hired hs he past => exact .hired hs he (Int.le_trans past le)
  | started hs he order past =>
      exact .started hs he order (Int.le_trans past le)
  | ended hs he order order' past =>
      exact .ended hs he order order' (Int.le_trans past le)
  | reported hs he order order' past =>
      exact .reported hs he order order' (Int.le_trans past le)

/-- The next step of the routine leads to the next stage. -/
theorem Stage.step (h : Stage k now taken) {a : WorkerStep}
    (next : taken ++ [a] <+: routine) :
    Stage (k.after now (some a)) now (taken ++ [a]) := by
  cases h with
  | hired hs he past =>
      obtain rfl : a = .start := by
        simpa [routine] using next
      exact .started rfl he past (Int.le_refl _)
  | started hs he order past =>
      obtain rfl : a = .stop := by
        simpa [routine] using next
      exact .ended hs rfl order past (Int.le_refl _)
  | ended hs he order order' past =>
      obtain rfl : a = .report := by
        simpa [routine] using next
      exact .reported hs he order order' past
  | reported => simp [routine] at next

/-- A worker on record is in the stage of the steps that were taken with it,
and only after all of them there are lines on its behalf, with its span. -/
structure Serving (w : WorkerId) (taken : List WorkerStep) (k : Worker)
    (l : Ledger) : Prop where
  found : l.workers[w]? = some k
  real : k.standIn = false
  stage : Stage k l.now taken
  lines : ∀ u, ∀ line ∈ l.reportsOf u w, taken = routine
    ∧ ∃ id parent, line.record.span = k.span id parent

variable {op : LedgerOp} {l : Ledger} {w : WorkerId}

/-- An operation that takes the next step of the routine leads to the next
stage. -/
theorem Serving.apply (h : Serving w taken k l)
    (forward : l.now.nanos ≤ (op.apply l).1.now.nanos)
    (next : taken ++ (op.step? w).toList <+: routine) :
    Serving w (taken ++ (op.step? w).toList) (k.after l.now (op.step? w))
      (op.apply l).1 := by
  have clock : l.clockOf k = l.now := by
    unfold clockOf
    rw [h.real]
    rfl
  have found := LedgerOp.worker_apply op h.found
  rw [clock] at found
  refine ⟨found, ?_, ?_, ?_⟩
  · unfold Worker.after
    split <;> exact h.real
  · cases step : op.step? w with
    | none =>
        rw [Option.toList_none, List.append_nil]
        exact h.stage.later forward
    | some a =>
        rw [step] at next
        exact (h.stage.step next).later forward
  · intro u line mem
    rcases LedgerOp.mem_reportsOf_apply mem with old
        | ⟨step, k', id, parent, hk', span⟩
    · -- after all the steps there is none to come
      obtain ⟨all, id, parent, span⟩ := h.lines u line old
      cases step : op.step? w with
      | none =>
          rw [Option.toList_none, List.append_nil]
          exact ⟨all, id, parent, span⟩
      | some a =>
          rw [step, all] at next
          simp [routine] at next
    · rw [h.found] at hk'
      obtain rfl := Option.some.inj hk'
      rw [step] at next ⊢
      refine ⟨?_, id, parent, span⟩
      have stage := h.stage
      cases stage with
      | ended => rfl
      | hired | started | reported => simp [routine] at next

/-- A worker that ended started before, and was created before that. -/
theorem Serving.times (h : Serving w taken k l) {e : Instant}
    (ended : k.ended = some e) :
    ∃ s, k.started = some s ∧ k.created.nanos ≤ s.nanos
      ∧ s.nanos ≤ e.nanos := by
  have stage := h.stage
  cases stage with
  | hired _ none => rw [none] at ended; cases ended
  | started _ none => rw [none] at ended; cases ended
  | ended hs he order order' =>
      rw [he] at ended
      obtain rfl := Option.some.inj ended
      exact ⟨_, hs, order, order'⟩
  | reported hs he order order' =>
      rw [he] at ended
      obtain rfl := Option.some.inj ended
      exact ⟨_, hs, order, order'⟩

/-- Nothing that is still to come changes a worker that ended. -/
theorem Serving.stands (h : Serving w taken k l)
    (ended : k.ended.isSome = true)
    (next : taken ++ (op.step? w).toList <+: routine) :
    k.after l.now (op.step? w) = k := by
  cases step : op.step? w with
  | none => rfl
  | some a =>
      rw [step] at next
      have stage := h.stage
      cases stage with
      | hired _ none => rw [none] at ended; cases ended
      | started _ none => rw [none] at ended; cases ended
      | ended =>
          obtain rfl : a = .report := by
            simpa [routine] using next
          rfl
      | reported => simp [routine] at next

/-- A worker that may still be to come: as long as it is not there no step
was taken with it, and once it is in a crew it serves. -/
structure Roster (w : WorkerId) (taken : List WorkerStep) (l : Ledger) :
    Prop where
  fresh : l.workers.size ≤ w → taken = [] ∧ ∀ u, l.reportsOf u w = []
  member : ∀ {t : TaskId} {key : String}, (key, w) ∈ l.crewAt t →
    ∃ k, Serving w taken k l

/-- So it is for whoever is in a crew, and whoever is in none has done nothing.
-/
theorem Roster.apply (dated : Dated l) (h : Roster w taken l)
    (forward : l.now.nanos ≤ (op.apply l).1.now.nanos)
    (next : taken ++ (if w < l.workers.size then (op.step? w).toList else [])
      <+: routine) :
    Roster w
      (taken ++ (if w < l.workers.size then (op.step? w).toList else []))
      (op.apply l).1 := by
  by_cases there : w < l.workers.size
  · rw [if_pos there] at next ⊢
    have stays := LedgerOp.worker_apply op
      (Array.getElem?_eq_getElem there)
    have lt := (Array.getElem?_eq_some_iff.mp stays).1
    refine ⟨fun beyond => absurd lt (Nat.not_lt.mpr beyond), ?_⟩
    intro t key mem
    rcases LedgerOp.member_back mem with old | ⟨rfl, -⟩
    · obtain ⟨k, serving⟩ := h.member old
      exact ⟨_, serving.apply forward next⟩
    · exact absurd there (Nat.lt_irrefl _)
  · rw [if_neg there, List.append_nil]
    obtain ⟨rfl, silent⟩ := h.fresh (Nat.le_of_not_lt there)
    -- nobody reports who is not there
    have silent' (u : TaskId) : (op.apply l).1.reportsOf u w = [] := by
      refine List.eq_nil_iff_forall_not_mem.mpr fun line mem => ?_
      rcases LedgerOp.mem_reportsOf_apply mem with old | ⟨-, k, -, -, hk, -⟩
      · rw [silent] at old
        cases old
      · exact there (Array.getElem?_eq_some_iff.mp hk).1
    refine ⟨fun _ => ⟨rfl, silent'⟩, ?_⟩
    intro t key mem
    rcases LedgerOp.member_back mem with old | ⟨-, -, path, kind, hired⟩
    · obtain ⟨task, ht⟩ := known_of_member old
      obtain ⟨k, hk, -⟩ := dated.member ht old
      exact absurd (Array.getElem?_eq_some_iff.mp hk).1 there
    · refine ⟨_, hired, rfl, .hired rfl rfl forward, ?_⟩
      intro u line mem
      rw [silent'] at mem
      cases mem

end Ledger

-- ==================================================================== runs

namespace LedgerOp

open Ledger

theorem forward_cons {ops : List LedgerOp}
    (h : Forward (op :: ops) l = true) :
    l.now.nanos ≤ (op.apply l).1.now.nanos
      ∧ Forward ops (op.apply l).1 = true := by
  obtain ⟨here, later⟩ := Bool.and_eq_true_iff.mp h
  exact ⟨of_decide_eq_true here, later⟩

/-- What was set right stays so while the clock runs forward. -/
theorem dated_run {ops : List LedgerOp} (h : Dated l)
    (forward : Forward ops l = true) : Dated (run ops l).1 := by
  induction ops generalizing l with
  | nil => exact h
  | cons op rest ih =>
      obtain ⟨here, later⟩ := forward_cons forward
      exact ih (h.apply here) later

/-- A worker that keeps to the routine along a run is at the end where its steps
have led. -/
theorem roster_run {ops : List LedgerOp} {taken : List WorkerStep}
    (dated : Dated l) (h : Roster w taken l) (forward : Forward ops l = true)
    (steps : taken ++ stepsOf w ops l <+: routine) :
    Roster w (taken ++ stepsOf w ops l) (run ops l).1 := by
  induction ops generalizing l taken with
  | nil =>
      rw [show stepsOf w [] l = [] from rfl, List.append_nil]
      exact h
  | cons op rest ih =>
      obtain ⟨here, later⟩ := forward_cons forward
      have both : taken ++ stepsOf w (op :: rest) l
          = (taken ++ if w < l.workers.size then (op.step? w).toList else [])
            ++ stepsOf w rest (op.apply l).1 :=
        (List.append_assoc _ _ _).symm
      rw [both] at steps ⊢
      have now := (List.prefix_append _ _).trans steps
      exact ih (dated.apply here) (h.apply dated here now) later steps

/-- A worker that ended is the same at the end of a run. -/
theorem stands_run {ops : List LedgerOp} {taken : List WorkerStep}
    (h : Serving w taken k l) (ended : k.ended.isSome = true)
    (forward : Forward ops l = true)
    (steps : taken ++ stepsOf w ops l <+: routine) :
    Serving w (taken ++ stepsOf w ops l) k (run ops l).1 := by
  induction ops generalizing l taken with
  | nil =>
      rw [show stepsOf w [] l = [] from rfl, List.append_nil]
      exact h
  | cons op rest ih =>
      obtain ⟨here, later⟩ := forward_cons forward
      have there : w < l.workers.size :=
        (Array.getElem?_eq_some_iff.mp h.found).1
      have both : taken ++ stepsOf w (op :: rest) l
          = (taken ++ (op.step? w).toList)
            ++ stepsOf w rest (op.apply l).1 := by
        show taken ++ ((if w < l.workers.size then (op.step? w).toList
          else []) ++ stepsOf w rest (op.apply l).1) = _
        rw [if_pos there, List.append_assoc]
      rw [both] at steps ⊢
      have now := (List.prefix_append _ _).trans steps
      have next := h.apply here now
      rw [h.stands ended now] at next
      exact ih next later steps

end LedgerOp

end TaskLedger
