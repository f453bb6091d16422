/-
When a finished task's span is written, and by what, makes no difference.

Once a task is finished and nobody works for it any more, its record is
settled. Let the clock move either way, let other tasks start, work and
end: whichever of the three operations then comes to the task offers its
sink what each of them would have offered at once. The argument is the
ledger's (`Due`); a dispatch adds that its operations come down to the
ledger's, so "elsewhere" is said of these (`moved`).
-/
import TaskLedger.Proofs.Dispatch.Moves
import TaskLedger.Proofs.Ledger.ReadyToWrite

namespace TaskLedger

namespace DispatchOp

open Ledger

theorem sound_run (ops : List DispatchOp) {d : Dispatch}
    (blank : d.ledger.Blank) : Sound (run ops d).1.ledger :=
  noted_keeps (f := fun _ _ => ([] : List Unit)) (P := fun _ l => Sound l)
    (fun _ _ h => ⟨h.homed, h.manned, h.ended, h.sink⟩)
    (fun op h => h.apply op) ops blank.sound

/-- A task that is due stays so while a dispatch goes on elsewhere, and its
record stays the same. -/
theorem due_run {path : String} {t : TaskId} {task : Task} {d : Dispatch}
    (due : Due path t task d.ledger) (more : List DispatchOp)
    (elsewhere : ∀ op ∈ moved more d,
      op.elsewhere path t (task.crew.map Prod.snd) = true) :
    Due path t task (run more d).1.ledger
      ∧ (run more d).1.ledger.ownRecord task = d.ledger.ownRecord task := by
  -- only as far as all that happened was elsewhere
  have kept := noted_keeps (d := d) (f := fun op _ => [op])
    (P := fun seen l =>
      (∀ op ∈ seen, op.elsewhere path t (task.crew.map Prod.snd) = true) →
      Due path t task l ∧ l.ownRecord task = d.ledger.ownRecord task)
    (fun marks warnings h aside => by
      obtain ⟨due, same⟩ := h aside
      exact ⟨⟨⟨due.found, due.finished, due.ended, due.idle, due.manned,
        due.sink⟩, due.registered, due.only⟩, same⟩)
    (fun {seen l} op h aside => by
      obtain ⟨due, same⟩ := h fun o mem =>
        aside o (List.mem_append_left [op] mem)
      obtain ⟨next, crew⟩ := due.apply
        (aside op (List.mem_append_right seen (List.mem_singleton_self op)))
      refine ⟨next, Eq.trans ?_ same⟩
      unfold Ledger.ownRecord
      rw [crew])
    more (fun _ => ⟨due, rfl⟩)
  exact kept elsewhere

/-- In any history from nothing, let a registered task be ready: finished,
with nobody at work for it. Then there is one record such that a report
that its path is done, a flush, and the end of the build each offer exactly
this record to the task's sink on its behalf, be it at once or after
anything that happens elsewhere. -/
theorem finalizers_agree (ops more : List DispatchOp) (d : Dispatch)
    (blank : d.ledger.Blank) (path : String) (t : TaskId)
    (registered : (run ops d).1.ledger.registered? path = some t)
    (ready : (run ops d).1.ledger.ready t = true)
    (elsewhere : ∀ op ∈ moved more (run ops d).1, op.elsewhere path t
      (((run ops d).1.ledger.crewAt t).map Prod.snd) = true) :
    let m := (run ops d).1.ledger
    let n := (run (ops ++ more) d).1.ledger
    ∃ task, m.tasks[t]? = some task
      ∧ ∀ op : LedgerOp, op.finalizes path = true →
          op.writtenFor t m = [(task.sink, m.ownRecord task)]
          ∧ op.writtenFor t n = [(task.sink, m.ownRecord task)] := by
  intro m n
  obtain ⟨task, due⟩ := (sound_run ops blank).due registered ready
  rw [crewAt_of due.found] at elsewhere
  obtain ⟨later, same⟩ := due_run due more elsewhere
  rw [← run_append] at later same
  refine ⟨task, due.found, fun op finalizes => ?_⟩
  refine ⟨due.writtenFor finalizes, ?_⟩
  rw [later.writtenFor finalizes, same]

/-- A task whose worker outlived it is ready at last. Then another one
works, starts anew and ends, and the clock falls behind the epoch. -/
theorem finalizers_agree_clock_back :
    let d : Dispatch := { ledger := { sinks := #[{ outlet := .memory }] } }
    let unit : Work := { action := "A", hash := 0, script := { ms := 5 } }
    let ops : List DispatchOp :=
      [.onLedger (.startTask ":a" ":app" none),
        .onLedger (.startTask ":b" ":app" none),
        .addExecutor (.pooled { owner := ":a", entry := .task 0 }),
        .addExecutor (.pooled { owner := ":b", entry := .task 1 }),
        .submit 0 unit, .onLedger (.finishTask ":a"), .proceed 0, .proceed 0,
        .proceed 0, .proceed 0, .proceed 0]
    let more : List DispatchOp :=
      [.submit 1 unit, .proceed 1, .proceed 1, .onLedger (.setClock (-1000)),
        .proceed 1, .release 1, .onLedger (.finishTask ":b"), .proceed 1,
        .onLedger (.startTask ":b" ":app" none)]
    let m := (run ops d).1.ledger
    let n := (run (ops ++ more) d).1.ledger
    n.now.nanos < m.now.nanos
      ∧ ∃ line, (LedgerOp.finishTask ":a").writtenFor 0 m = [line]
          ∧ LedgerOp.flush.writtenFor 0 n = [line]
          ∧ LedgerOp.endBuild.writtenFor 0 n = [line] := by
  intro d unit ops more m n
  have blank : d.ledger.Blank := ⟨rfl, rfl, rfl, rfl⟩
  have aside : (moved more (run ops d).1).all (fun op => op.elsewhere ":a" 0
      (((run ops d).1.ledger.crewAt 0).map Prod.snd)) = true := by
    decide +kernel
  obtain ⟨task, -, written⟩ := finalizers_agree ops more d blank ":a" 0
    (by decide +kernel) (by decide +kernel)
    (fun op mem => List.all_eq_true.mp aside op mem)
  exact ⟨by decide +kernel, _, (written _ rfl).1, (written _ rfl).2,
    (written _ rfl).2⟩

end DispatchOp

end TaskLedger
