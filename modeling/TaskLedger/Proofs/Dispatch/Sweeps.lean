/-
A flush and the end of the build, in whatever order they go over the tasks.

The ledger's side is `SameSweep`: the tasks are wrapped up one by one, and
none of them looks at what was done to another. A dispatch adds that every
history of it leaves a ledger in order, with no path and no task in the
registry twice, so that the argument applies wherever a history from nothing
has come to.
-/
import TaskLedger.Proofs.Dispatch.Deferral
import TaskLedger.Proofs.Ledger.Orders

namespace TaskLedger.DispatchOp

open Ledger

theorem single_run (ops : List DispatchOp) {d : Dispatch}
    (blank : d.ledger.Blank) : Single (run ops d).1.ledger := by
  have start : Single d.ledger := by
    unfold Single
    rw [blank.registry]
    exact List.nodup_nil
  exact noted_keeps (f := fun _ _ => ([] : List Unit))
    (P := fun _ l => Single l) (fun _ _ h => h)
    (fun _ h => single_apply h) ops start

/-- In any history from nothing, a flush wraps up the tasks that are ready
and leaves the others registered, and the end of the build wraps up all of
them. By whatever order of the registry they go, they come to the same: the
same count, registry and records, and the same written to the sinks but for
its order. To flush once more right after a flush does nothing at all, and
to flush before the end of the build makes no difference in the end. -/
theorem sweeps_in_any_order (ops : List DispatchOp) (d : Dispatch)
    (blank : d.ledger.Blank) :
    let l := (run ops d).1.ledger
    (l.WrapsUp (l.registry.filter fun e => l.ready e.2) l.flush
      ∧ l.flush.1.registry = l.registry.filter fun e => !l.ready e.2)
    ∧ (l.WrapsUp l.registry l.endBuild ∧ l.endBuild.1.registry = [])
    ∧ ∀ order : List (String × TaskId), order.Perm l.registry →
        l.SameSweep (l.flushBy order) l.flush
        ∧ l.SameSweep (l.endBuildBy order) l.endBuild
        ∧ ∀ again : List (String × TaskId),
            again.Perm (l.flushBy order).1.registry →
            (l.flushBy order).1.flushBy again = ((l.flushBy order).1, 0)
            ∧ l.SameSweep
              (((l.flushBy order).1.endBuildBy again).1,
                (l.flushBy order).2
                  + ((l.flushBy order).1.endBuildBy again).2)
              l.endBuild := by
  intro l
  have sound : Sound l := sound_run ops blank
  have single : Single l := single_run ops blank
  refine ⟨⟨sound.flush_wrapsUp single, flushBy_registry single l.byId_perm⟩,
    ⟨sound.endBuild_wrapsUp single, endBuild_registry l⟩, ?_⟩
  intro order perm
  exact ⟨sound.flush_same single perm, sound.endBuild_same single perm,
    fun again rest => ⟨sound.flush_again single perm rest,
      sound.flush_endBuild single perm rest⟩⟩

/-- Two tasks that are ready and one that is at work, flushed from the back:
the lines come in another order, and all else is the same. -/
theorem sweeps_in_any_order_from_the_back :
    let d : Dispatch := { ledger := { sinks := #[{ outlet := .memory }] } }
    let ops : List DispatchOp :=
      [.onLedger (.startTask ":a" ":app" none),
        .onLedger (.startTask ":b" ":app" none),
        .onLedger (.startTask ":c" ":app" none),
        .onLedger (.finish (.task 0)), .onLedger (.finish (.task 1))]
    let l := (run ops d).1.ledger
    let front : List (String × TaskId) := [(":a", 0), (":b", 1), (":c", 2)]
    let back : List (String × TaskId) := [(":c", 2), (":b", 1), (":a", 0)]
    (l.news (l.flushBy front).1).map Write.origin = [.task 0, .task 1]
      ∧ (l.news (l.flushBy back).1).map Write.origin = [.task 1, .task 0]
      ∧ l.flush.2 = 2 ∧ l.SameSweep (l.flushBy back) l.flush
      ∧ (l.flushBy back).1.flushBy [(":c", 2)] = ((l.flushBy back).1, 0)
      ∧ l.endBuild.2 = 3 := by
  intro d ops l front back
  obtain ⟨flush, endBuild, later⟩ :=
    (sweeps_in_any_order ops d ⟨rfl, rfl, rfl, rfl⟩).2.2 back
      (by decide +kernel)
  refine ⟨by decide +kernel, by decide +kernel, ?_, flush,
    (later [(":c", 2)] (by decide +kernel)).1, ?_⟩
  · exact flush.count.symm.trans (by decide +kernel)
  · exact endBuild.count.symm.trans (by decide +kernel)

end TaskLedger.DispatchOp
