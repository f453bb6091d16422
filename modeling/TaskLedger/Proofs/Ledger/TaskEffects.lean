/-
What an operation makes of one task.

Of the operations that are not the scheduler's, only those for a task change
it, and what they make of it is told here once, by the task and the ledger
before (`LedgerOp.makes`, `task_makes`): a member is entered under the number
of the worker that comes with it, a report is noted only if there was a number
left for its span, and a task that is over is not concluded again. What is
proved of single tasks along a history needs no other look at the ledger.

A history starts with a record as it was made (`Task.New`) and goes on for as
long as one likes.
-/
import TaskLedger.Proofs.Dispatch.Moves
import TaskLedger.Proofs.Ledger.Numbering
import TaskLedger.Proofs.Ledger.UntouchedTasks

namespace TaskLedger

/-- A record as it was made. -/
structure Task.New (task : Task) : Prop where
  status : task.status = .running
  ended : task.ended = none
  closed : task.closed = none
  crew : task.crew = []
  children : task.children = []

namespace LedgerOp

open Ledger

/-- What an operation makes of a task. -/
def makes (t : TaskId) (op : LedgerOp) (l : Ledger) (task : Task) : Task :=
  if op.entry? = some (.task t) then
    match op with
    | await _ => task.await
    | close _ => task.close l.now
    | finish _ => task.finish l.now
    | attach _ kind thread start length =>
      task.attach kind thread start length
    | conclude _ => if task.status.terminal then task else task.concluded
    | enlist _ key _ => task.enlist key l.workers.size
    | report _ w =>
      if w < l.workers.size ∧ (l.allocate task.sink).2.isOk then
        task.noteReport l.now (l.idle task)
      else task
    | _ => task
  else task

variable {op : LedgerOp} {l : Ledger} {t : TaskId} {task : Task}

theorem makes_aside (aside : op.entry? ≠ some (.task t)) :
    op.makes t l task = task := if_neg aside

/-- It is what stands in its place afterwards. -/
theorem task_makes (others : op.scheduling = false)
    (found : l.tasks[t]? = some task) :
    (op.apply l).1.tasks[t]? = some (op.makes t l task) := by
  by_cases aside : op.entry? = some (.task t)
  · have turned {f : Task → Task} :
        (l.tasks.modify t f)[t]? = some (f task) := by
      rw [Array.getElem?_modify, if_pos rfl, found]
      rfl
    unfold makes
    rw [if_pos aside]
    cases op with
    | await e | close e | finish e | attach e =>
        obtain rfl : e = .task t := Option.some.inj aside
        exact turned
    | conclude e =>
        obtain rfl : e = .task t := Option.some.inj aside
        show (l.conclude t).1.tasks[t]? = some (if _ then _ else _)
        cases terminal : task.status.terminal with
        | true =>
            rw [conclude_of_terminal found terminal, if_pos rfl]
            exact found
        | false =>
            obtain ⟨tree, warnings, he⟩ := conclude_of_open found terminal
            rw [he, if_neg Bool.false_ne_true]
            exact turned
    | enlist e key kind =>
        obtain rfl : e = .task t := Option.some.inj aside
        show (l.enlist t key kind).tasks[t]? = _
        rw [enlist_of_found found]
        exact turned
    | lookUp e key =>
        obtain rfl : e = .task t := Option.some.inj aside
        show (l.lookUp t key).1.tasks[t]? = _
        unfold Ledger.lookUp
        split <;> exact found
    | report e w =>
        obtain rfl : e = .task t := Option.some.inj aside
        show (l.report t w).1.tasks[t]? = some (if _ then _ else _)
        -- a report is noted if there is a worker, a task, and a number for the
        -- span
        rcases report_cases t w l with ⟨absent, he⟩
            | ⟨task', worker, f, found', present, fails, he⟩
            | ⟨task', worker, k, id, _, _, found', present, sink, next, he⟩
        · have beyond : ¬ w < l.workers.size := by
            rcases absent with absent | absent
            · rw [found] at absent
              cases absent
            · exact Nat.not_lt.mpr (Array.getElem?_eq_none_iff.mp absent)
          rw [he, if_neg fun h => beyond h.1]
          exact found
        · rw [found] at found'
          obtain rfl := Option.some.inj found'
          have stuck : (l.allocate task.sink).2.isOk = false := by
            rw [fails]
            rfl
          rw [he, if_neg fun h => Bool.eq_false_iff.mp stuck h.2]
          exact found
        · rw [found] at found'
          obtain rfl := Option.some.inj found'
          have given : (l.allocate task.sink).2.isOk = true := by
            unfold Ledger.allocate
            rw [sink]
            dsimp only
            rw [next]
            rfl
          rw [he, if_pos ⟨(Array.getElem?_eq_some_iff.mp present).1, given⟩]
          exact turned
    | _ => cases aside
  · rw [makes_aside aside]
    exact task_aside others aside found

/-- What is fixed when a task is put on record stays. -/
theorem same_makes (others : op.scheduling = false)
    (found : l.tasks[t]? = some task) : task.Same (op.makes t l task) := by
  obtain ⟨task', found', same⟩ := op.task_apply found
  rw [task_makes others found] at found'
  obtain rfl := Option.some.inj found'
  exact same

-- =============================================================== histories

/-- Along a history a task keeps what was fixed when it was put on record. -/
theorem same_run (ops : List LedgerOp) (found : l.tasks[t]? = some task) :
    ∃ task', (run ops l).1.tasks[t]? = some task' ∧ task.Same task' := by
  induction ops generalizing l task with
  | nil => exact ⟨task, found, .refl task⟩
  | cons op rest ih =>
      obtain ⟨task', found', same⟩ := op.task_apply found
      obtain ⟨last, there, same'⟩ := ih found'
      exact ⟨last, there, same.trans same'⟩

/-- What a history notes is noted by one part and then by the other. -/
theorem noted_append {α : Type} (f : LedgerOp → Ledger → List α)
    (ops more : List LedgerOp) (l : Ledger) :
    noted f (ops ++ more) l
      = noted f ops l ++ noted f more (run ops l).1 := by
  induction ops generalizing l with
  | nil => rfl
  | cons op rest ih =>
      simp only [List.cons_append, noted, ih, List.append_assoc]
      rfl

theorem drawn_append (ops more : List LedgerOp) (l : Ledger) :
    drawn (ops ++ more) l = drawn ops l + drawn more (run ops l).1 := by
  induction ops generalizing l with
  | nil => exact (Nat.zero_add _).symm
  | cons op rest ih =>
      simp only [List.cons_append, drawn, ih, Nat.add_assoc]
      rfl

end LedgerOp

end TaskLedger
