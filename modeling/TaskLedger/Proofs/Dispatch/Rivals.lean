/-
Two runs that agree on who was last to start under a path.

What is answered when a path is done depends on who is registered there, and
only a start changes who that can be (`latest_apply`). A start of the task's
path happens again, in the place of the other run, and what is for others is no
start of it. So both runs know the same task as the last to start, each in its
own place (`rivals_again`).
-/
import TaskLedger.Proofs.Dispatch.Replay

namespace TaskLedger

namespace DispatchOp

open Dispatch

variable {refuses : Nat → SpanRecord → Option Error} {path : String}
  {r : TaskId} {c : Cast} {ps : Paired} {d e : Dispatch}

-- ================================================================= starts

/-- Whatever happens, who is registered under a path was last to start there. -/
theorem latest_apply {last : Option TaskId}
    (h : Ledger.Latest path last d.ledger) (op : DispatchOp) :
    Ledger.Latest path (op.latest path d last) (op.apply d).1.ledger := by
  -- units, waits and executors come down to what no scheduler does
  have unscheduled (latest : op.latest path d last = last)
      (quiet : ∀ o ∈ op.moves d, o.scheduling = false) :
      Ledger.Latest path (op.latest path d last) (op.apply d).1.ledger := by
    obtain ⟨marks, warnings, told⟩ := op.noticed_aside d
    rw [latest, op.ledger_apply, told]
    exact Ledger.Latest.idle quiet h
  cases op with
  | onLedger o => exact h.apply o
  | addExecutor | endAwait | stop =>
      exact unscheduled rfl fun o mem => by cases mem
  | submit x w =>
      refine unscheduled rfl fun o mem => ?_
      simp only [moves] at mem
      split at mem
      · cases mem
      · rw [List.mem_singleton.mp mem]
        rfl
      · rw [List.mem_singleton.mp mem]
        rfl
  | proceed u =>
      refine unscheduled rfl fun o mem => ?_
      unfold moves at mem
      dsimp only at mem
      split at mem
      · cases mem
      next s found =>
        cases phase : s.phase with
        | queued =>
            rw [phase] at mem
            dsimp only at mem
            split at mem
            · cases mem
            · rcases List.mem_pair.mp mem with rfl | rfl
              · rfl
              · rfl
        | begun | ran | ended =>
            rw [phase] at mem
            rw [List.mem_singleton.mp mem]
            rfl
        | reported | faulted | completed | abandoned =>
            rw [phase] at mem
            cases mem
  | beginAwait x | release x =>
      refine unscheduled rfl fun o mem => ?_
      obtain ⟨p, -, rfl⟩ :=
        Option.map_eq_some_iff.mp (Option.mem_toList.mp mem)
      rfl

/-- A run in which only the ledger does something is a run of the ledger. -/
theorem ledger_of_run (os : List LedgerOp) (e : Dispatch) :
    (run (os.map .onLedger) e).1.ledger = (LedgerOp.run os e.ledger).1 := by
  induction os generalizing e with
  | nil => rfl
  | cons o rest ih => exact ih _

/-- What happens again leaves both runs at one about who was last to start. -/
theorem rivals_again (h : Mirror refuses path r c ps d e)
    {last : Option TaskId}
    (rivals : Ledger.Rivals path c.tasks last d.ledger e.ledger)
    (hired : List WorkerId) {op : DispatchOp}
    (proper : op.proper r c d = true) :
    Ledger.Rivals path (op.casting path r hired c d).tasks
      (op.latest path d last) (op.apply d).1.ledger
      (run ((op.again path r hired c last d).map Prod.fst) e).1.ledger := by
  have left := latest_apply rivals.left op
  unfold casting again
  by_cases own : op.own path r hired c d = true
  · rw [if_pos own, if_pos own]
    have right := latest_apply rivals.right (op.recast c)
    -- the place of one that started earlier stays what it was
    have place {t : TaskId} (is : last = some t) (n : Nat) :
        (grown c.tasks d.ledger.tasks.size n).idxOf t = c.tasks.idxOf t :=
      List.idxOf_append_of_mem (rivals.kept t is)
    have earlier (same : op.latest path d last = last)
        (same' : (op.recast c).latest path e (last.map c.tasks.idxOf)
          = last.map c.tasks.idxOf) :
        Ledger.Rivals path (c.grown d (op.apply d).1).tasks
          (op.latest path d last) (op.apply d).1.ledger
          ((op.recast c).apply e).1.ledger := by
      rw [same] at left ⊢
      rw [same'] at right
      refine ⟨left, ?_, fun t is =>
        List.mem_append_left _ (rivals.kept t is)⟩
      have moved : last.map (c.grown d (op.apply d).1).tasks.idxOf
          = last.map c.tasks.idxOf := by
        cases is : last with
        | none => rfl
        | some t => exact congrArg some (place is _)
      rw [moved]
      exact right
    cases op with
    | onLedger o =>
        cases o with
        | startTask p project variant =>
            obtain rfl := eq_of_beq own
            have room := of_decide_eq_true (Bool.and_eq_true _ _ ▸ proper).2
            have room : d.ledger.counter + 1 ≤ Sink.largestId.toNat := room
            have right_room := Nat.le_trans
              (Nat.succ_le_succ h.ledger.counter) room
            have size : ((onLedger (.startTask p project variant)).apply
                d).1.ledger.tasks.size = d.ledger.tasks.size + 1 := by
              obtain ⟨_, _, _, -, -, started⟩ :=
                h.ledger.left.startTask room p project variant
              simp only [DispatchOp.apply, LedgerOp.apply,
                LedgerOp.apply.answer, started, Array.size_push]
            -- it comes last in both tables
            have last_left : (onLedger (.startTask p project variant)).latest p
                d last = some d.ledger.tasks.size :=
              Ledger.latest_startTask h.ledger.left.toFit room p project
                variant
            have last_right :
                ((onLedger (.startTask p project variant)).recast c).latest p e
                  (last.map c.tasks.idxOf) = some e.ledger.tasks.size :=
              Ledger.latest_startTask h.ledger.right.toFit right_room p project
                variant
            have tasks : (c.grown d ((onLedger
                (.startTask p project variant)).apply d).1).tasks
                  = c.tasks ++ [d.ledger.tasks.size] := by
              unfold Cast.grown
              dsimp only
              rw [size, grown_succ]
            rw [last_left] at left ⊢
            rw [last_right] at right
            rw [tasks]
            refine ⟨left, ?_, fun t is => ?_⟩
            · rw [Option.map_some, h.ledger.tasks.idxOf_last]
              exact right
            · obtain rfl := Option.some.inj is
              exact List.mem_append_right _ (List.mem_singleton_self _)
        | _ => exact earlier rfl rfl
    | _ => exact earlier rfl rfl
  · rw [if_neg own, if_neg own]
    have same : op.latest path d last = last := by
      cases op with
      | onLedger o =>
          cases o with
          | startTask p project variant =>
              exact if_neg fun is => own (beq_iff_eq.mpr is)
          | _ => rfl
      | _ => rfl
    rw [same] at left ⊢
    refine ⟨left, ?_, rivals.kept⟩
    rw [List.map_map]
    show Ledger.Latest path _ (run (List.map .onLedger _) e).1.ledger
    rw [ledger_of_run]
    -- of what others do only the time passes there
    refine Ledger.Latest.idle (fun o mem => ?_) rivals.right
    have time := (List.mem_filter.mp mem).2
    cases o with
    | setClock | advance | setWall => rfl
    | _ => cases time

end DispatchOp

end TaskLedger
