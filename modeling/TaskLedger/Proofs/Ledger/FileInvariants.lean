/-
What ends up in files is what is written, whatever operation writes it.

A property of the sinks, the journal and the files alone can only be touched
where a number is taken or a record is written (`Tidy`). The lemmas say so of
one function after another, and of the sweeps by what they consist of
(`Tidy.tended`), so that `Tidy.run` leaves a property of all runs with two
things to prove. `Course` gives no such account: there a change may
put anything into the files.
-/
import TaskLedger.Proofs.Ledger.Course

namespace TaskLedger

namespace Ledger

/-- A property of the sinks, the journal and the files that is kept where a
number is taken and where a record is written. -/
structure Tidy (P : Ledger → Prop) : Prop where
  aside : ∀ {l m : Ledger}, P l → m.sinks = l.sinks →
    m.journal = l.journal → m.tree = l.tree → P m
  number : ∀ {l : Ledger} (s : SinkId), P l → P (l.allocate s).1
  write : ∀ {l : Ledger} (s : SinkId) (o : Origin) (r : SpanRecord),
    P l → P (l.write s o r).1

namespace Tidy

variable {P : Ledger → Prop} {l : Ledger}

/-- A change of a task is none of the files. -/
theorem onTask (h : Tidy P) (hl : P l) (t : TaskId) (f : Task → Task) :
    P (l.onTask t f) := h.aside hl rfl rfl rfl

/-- Concluding writes one record, unless the task is over. -/
theorem conclude (h : Tidy P) (hl : P l) (t : TaskId) :
    P (l.conclude t).1 := by
  unfold Ledger.conclude
  split
  · exact hl
  · next task _ =>
      split
      · exact hl
      · have written := h.write task.sink (.task t)
          (task.record (task.span ((l.onTask t Task.concluded).crewOf task))
            task.children) (h.onTask hl t Task.concluded)
        dsimp only
        split
        · next e => rw [e] at written; exact written
        · next e =>
            rw [e] at written
            exact h.aside written rfl rfl rfl

theorem enlist (h : Tidy P) (hl : P l) (t : TaskId) (key : String)
    (kind : SpanKind) : P (l.enlist t key kind) := by
  unfold Ledger.enlist
  split
  · exact hl
  · exact h.aside hl rfl rfl rfl

theorem lookUp (h : Tidy P) (hl : P l) (t : TaskId) (key : String) :
    P (l.lookUp t key).1 := by
  unfold Ledger.lookUp
  split
  · exact hl
  · exact h.aside hl rfl rfl rfl

/-- A report takes a number, and if there is one it writes the worker's record.
-/
theorem report (h : Tidy P) (hl : P l) (t : TaskId) (w : WorkerId) :
    P (l.report t w).1 := by
  unfold Ledger.report
  split
  · next task worker _ _ =>
      have numbered := h.number task.sink hl
      split
      · next e => rw [e] at numbered; exact numbered
      · next m id e =>
          rw [e] at numbered
          have written := h.write task.sink (.worker t w)
            (task.record (worker.span id task.id) []) numbered
          dsimp only at written ⊢
          split
          · exact h.aside written rfl rfl rfl
          · exact h.aside written rfl rfl rfl
  · exact hl

theorem addTask (h : Tidy P) (hl : P l) (path project : String)
    (variant : Option String) (s : SinkId) :
    P (l.addTask path project variant s).1 := by
  have numbered := h.number s hl
  unfold Ledger.addTask
  split
  · next e => rw [e] at numbered; exact numbered
  · next e =>
      rw [e] at numbered
      exact h.aside numbered rfl rfl rfl

/-- A start puts a task on record, and the registry is no concern of the files.
-/
theorem startTask (h : Tidy P) (hl : P l) (path project : String)
    (variant : Option String) :
    P (l.startTask path project variant).1 := by
  have added := h.addTask hl path project variant l.sink
  unfold Ledger.startTask
  split
  · next e => rw [e] at added; exact added
  · next e =>
      rw [e] at added
      dsimp only
      split
      · exact h.aside added rfl rfl rfl
      · exact h.aside added rfl rfl rfl

/-- So a sweep keeps such a property, since it consists of single conclusions.
-/
theorem tended (h : Tidy P) : Tended P where
  aside _ _ _ hl := h.aside hl rfl rfl rfl
  finish t hl := h.onTask hl t _
  conclude t hl := h.conclude hl t

/-- Every operation keeps such a property. -/
theorem apply (h : Tidy P) (hl : P l) (op : LedgerOp) : P (op.apply l).1 := by
  have does (e : Entry) {f : TaskId → Ledger → Ledger}
      (step : ∀ t, P (f t l)) : P (OnEntry.does e f l) := by
    cases e with
    | task t => exact step t
    | untracked => exact hl
  -- a number, a line, or neither: there is nothing else to look at
  cases op with
  | setClock ms =>
      simp only [LedgerOp.apply, setClock]
      split <;> exact h.aside hl rfl rfl rfl
  | advance ms ns =>
      simp only [LedgerOp.apply, advance]
      split <;> exact h.aside hl rfl rfl rfl
  | setWall t => exact h.aside hl rfl rfl rfl
  | startTask path project variant => exact h.startTask hl path project variant
  | addTask path project variant =>
      exact h.addTask hl path project variant l.sink
  | finishTask path => exact h.tended.finishTask hl path
  | flush => exact h.tended.flush hl
  | endBuild => exact h.tended.endBuild hl
  | await e => exact does e fun t => h.onTask hl t _
  | close e => exact does e fun t => h.onTask hl t _
  | finish e => exact does e fun t => h.onTask hl t _
  | attach e kind thread start length => exact does e fun t => h.onTask hl t _
  | conclude e =>
      cases e with
      | task t => exact h.conclude hl t
      | untracked => exact hl
  | enlist e key kind => exact does e fun t => h.enlist hl t key kind
  | lookUp e key =>
      cases e with
      | task t => exact h.lookUp hl t key
      | untracked => exact h.aside hl rfl rfl rfl
  | addWorker path kind => exact h.aside hl rfl rfl rfl
  | startWorker w => exact h.aside hl rfl rfl rfl
  | endWorker w => exact h.aside hl rfl rfl rfl
  | report e w =>
      cases e with
      | task t => exact h.report hl t w
      | untracked => exact hl
  | allocate => exact h.number l.sink hl
  | write r =>
      have written := h.write l.sink .direct r hl
      simp only [LedgerOp.apply]
      split
      · next e => rw [e] at written; exact written
      · next e => rw [e] at written; exact written

/-- So does every run. -/
theorem run (h : Tidy P) (hl : P l) (ops : List LedgerOp) :
    P (LedgerOp.run ops l).1 := by
  induction ops generalizing l with
  | nil => exact hl
  | cons op rest ih => exact ih (h.apply hl op)

end Tidy

end Ledger

end TaskLedger
