/-
What happens to a dispatch, as its ledger sees it.

Everything comes down to a few operations on the ledger: most to one, a
thread that takes a unit to two, and much to none (`moves`). What an
observer is told comes before them, and no operation looks at that
(`noticed`). So a history of a dispatch, in which tasks wait and close
through their executors and threads work for them, is a history of its
ledger, and `noted_keeps` is the induction on it: notes may be taken of
the single operations, and a property that every operation keeps together
with its notes holds in the end together with all of them.
-/
import TaskLedger.Dispatch.Op

namespace TaskLedger

-- ================================================================== moves

namespace DispatchOp

/-- The operations on the ledger that something comes down to. -/
def moves (op : DispatchOp) (d : Dispatch) : List LedgerOp :=
  match op with
  | onLedger op => [op]
  | submit x w =>
      match d.executors[x]? with
      | none => []
      | some (.direct _) => [.advance w.script.ms w.script.ns]
      | some (.pooled p) => [.enlist p.entry (p.nextKey w) .worker]
  | proceed u =>
      match d.units[u]? with
      | none => []
      | some s =>
          match s.phase with
          | .queued =>
              if d.stopped then []
              else
                [.lookUp s.entry s.key,
                  .startWorker
                    (Ledger.OnEntry.lookUp s.entry s.key d.ledger).2]
          | .begun _ => [.advance s.work.script.ms s.work.script.ns]
          | .ran w _ => [.endWorker w]
          | .ended w _ => [.report s.entry w]
          | .reported _ | .faulted | .completed _ | .abandoned => []
  | beginAwait x => ((d.pooled? x).map fun p => .await p.entry).toList
  | release x => ((d.pooled? x).map fun p => .close p.entry).toList
  | addExecutor _ | endAwait _ | stop => []

/-- The ledger as its operations find it, once an observer was told. -/
def noticed (op : DispatchOp) (d : Dispatch) : Ledger :=
  match op with
  | proceed u =>
      match d.units[u]? with
      | none => d.ledger
      | some s =>
          match s.phase with
          | .queued =>
              if d.stopped then d.ledger
              else { d.ledger with marks := d.ledger.marks ++ [.unit u] }
          | .reported (some cause) =>
              d.ledger.warn (.unitFailed s.owner s.key cause)
          | _ => d.ledger
  | _ => d.ledger

theorem noticed_aside (op : DispatchOp) (d : Dispatch) :
    ∃ marks warnings, op.noticed d = { d.ledger with marks, warnings } := by
  unfold noticed
  split
  · split
    · exact ⟨_, _, rfl⟩
    · split
      · split <;> exact ⟨_, _, rfl⟩
      · exact ⟨_, _, rfl⟩
      · exact ⟨_, _, rfl⟩
  · exact ⟨_, _, rfl⟩

end DispatchOp

-- ============================================================ as they come

namespace Dispatch

/-- Beside the action that is noted, a unit that runs lets time pass. -/
theorem perform_ledger (w : Work) (d : Dispatch) :
    (d.perform w).1.ledger
      = (d.ledger.advance w.script.ms w.script.ns).1 := by
  unfold perform
  dsimp only
  split
  · next h => rw [h]
  · next h => rw [h]

/-- Time passes, and nothing else does. -/
theorem advance_clock (ms ns : Int) (l : Ledger) :
    ∃ now, (l.advance ms ns).1 = { l with now } := by
  unfold Ledger.advance
  split
  · exact ⟨_, rfl⟩
  · exact ⟨l.now, rfl⟩

theorem perform_clock (w : Work) (d : Dispatch) :
    ∃ now, (d.perform w).1
      = { d with ledger := { d.ledger with now }
                 ran := d.ran ++ [w.action] } := by
  obtain ⟨now, time⟩ := advance_clock w.script.ms w.script.ns d.ledger
  refine ⟨now, ?_⟩
  unfold perform
  dsimp only
  split
  · next h => rw [← time, h]
  · next h => rw [← time, h]

/-- What a direct executor answers for a unit that came to this. -/
def directly (w : Work) :
    Except Fault (Option String) → Except Fault (Except Error Unit)
  | .error f => .error f
  | .ok none => .ok (.ok ())
  | .ok (some cause) => .ok (.error (.unit w.action cause))

theorem submit_direct {x : ExecutorId} {d : Dispatch} {owner : String}
    (found : d.executors[x]? = some (.direct owner)) (w : Work) :
    d.submit x w = ((d.perform w).1, directly w (d.perform w).2) := by
  unfold submit
  rw [found]
  dsimp only
  split
  · next he => rw [he]; rfl
  · next he => rw [he]; rfl
  · next he => rw [he]; rfl

/-- The number that a look-up answers does not depend on what an observer
was told. -/
theorem lookUp_snd (e : Entry) (key : String) (marks : List Mark)
    (l : Ledger) :
    (Ledger.OnEntry.lookUp e key { l with marks }).2
      = (Ledger.OnEntry.lookUp e key l).2 := by
  cases e with
  | untracked => rfl
  | task t =>
      simp only [Ledger.OnEntry.lookUp, Ledger.lookUp]
      split <;> rfl

/-- The next step of a unit comes down to its moves. -/
theorem proceed_ledger (u : UnitId) (d : Dispatch) :
    (d.proceed u).ledger
      = (LedgerOp.run ((DispatchOp.proceed u).moves d)
          ((DispatchOp.proceed u).noticed d)).1 := by
  simp only [proceed, DispatchOp.moves, DispatchOp.noticed]
  cases d.units[u]? with
  | none => rfl
  | some s =>
  dsimp only
  cases s.phase with
  | queued =>
      dsimp only
      cases d.stopped with
      | true => rfl
      | false =>
          -- a thread finds the worker before it starts it
          rw [if_neg Bool.false_ne_true, if_neg Bool.false_ne_true,
            if_neg Bool.false_ne_true, lookUp_snd]
          rfl
  | begun w => exact perform_ledger s.work d
  | ran w failure => rfl
  | ended w failure =>
      -- what is answered makes no difference to the ledger
      show _ = (Ledger.OnEntry.report s.entry w d.ledger).1
      dsimp only
      split
      · next h => rw [h]; rfl
      · next h => rw [h]; rfl
  | reported failure => cases failure <;> rfl
  | faulted | completed | abandoned => rfl

/-- Only a unit that a thread works on is seen in the ledger: in a stopped
pool nothing is taken from the queue. -/
theorem proceed_stopped {u : UnitId} {s : Submitted} {d : Dispatch}
    (stopped : d.stopped = true) (found : d.units[u]? = some s)
    (queued : s.phase = .queued) : (d.proceed u).ledger = d.ledger := by
  rw [proceed_ledger]
  simp only [DispatchOp.moves, DispatchOp.noticed, found, queued,
    if_pos stopped]
  rfl

/-- A submission comes down to its moves. -/
theorem submit_ledger (x : ExecutorId) (w : Work) (d : Dispatch) :
    (d.submit x w).1.ledger
      = (LedgerOp.run ((DispatchOp.submit x w).moves d) d.ledger).1 := by
  simp only [submit, DispatchOp.moves]
  cases d.executors[x]? with
  | none => rfl
  | some e =>
  cases e with
  | direct owner =>
      have time := perform_ledger w d
      dsimp only
      split
      · next h => rw [h] at time; exact time
      · next h => rw [h] at time; exact time
      · next h => rw [h] at time; exact time
  | pooled p =>
      dsimp only
      split
      · next stopped =>
          exact proceed_stopped stopped Array.getElem?_push_size rfl
      · rfl

end Dispatch

namespace DispatchOp

/-- Everything comes down to its moves. -/
theorem ledger_apply (op : DispatchOp) (d : Dispatch) :
    (op.apply d).1.ledger
      = (LedgerOp.run (op.moves d) (op.noticed d)).1 := by
  cases op with
  | onLedger | addExecutor | stop => rfl
  | submit x w => exact d.submit_ledger x w
  | proceed u => exact d.proceed_ledger u
  | beginAwait x =>
      simp only [DispatchOp.apply, Dispatch.beginAwait, moves]
      cases d.pooled? x <;> rfl
  | endAwait x =>
      simp only [DispatchOp.apply, Dispatch.endAwait]
      cases d.pooled? x with
      | none => rfl
      | some p =>
          dsimp only
          by_cases idle : p.outstanding = 0
          · rw [if_pos idle]; rfl
          · rw [if_neg idle]; rfl
  | release x =>
      simp only [DispatchOp.apply, Dispatch.release, moves]
      cases d.pooled? x <;> rfl

/-- A run in two parts. -/
theorem run_append (ops more : List DispatchOp) (d : Dispatch) :
    (run (ops ++ more) d).1 = (run more (run ops d).1).1 := by
  induction ops generalizing d with
  | nil => rfl
  | cons op rest ih => exact ih (op.apply d).1

end DispatchOp

-- =================================================================== notes

/-- What is noted of the operations on a ledger, one after another. -/
def LedgerOp.noted {α : Type} (f : LedgerOp → Ledger → List α) :
    List LedgerOp → Ledger → List α
  | [], _ => []
  | op :: rest, l => f op l ++ noted f rest (op.apply l).1

namespace DispatchOp

/-- What is noted of the moves of a history. -/
def noted {α : Type} (f : LedgerOp → Ledger → List α) :
    List DispatchOp → Dispatch → List α
  | [], _ => []
  | op :: rest, d =>
      LedgerOp.noted f (op.moves d) (op.noticed d)
        ++ noted f rest (op.apply d).1

/-- The moves of a history. -/
def moved : List DispatchOp → Dispatch → List LedgerOp :=
  noted fun op _ => [op]

variable {α : Type} {f : LedgerOp → Ledger → List α}
  {P : List α → Ledger → Prop} {d : Dispatch}

/-- A run of a ledger keeps what every operation keeps together with its
notes. -/
theorem run_noted_keeps
    (step : ∀ {seen : List α} {l : Ledger} (op : LedgerOp), P seen l →
      P (seen ++ f op l) (op.apply l).1)
    (ops : List LedgerOp) {seen : List α} {l : Ledger} (h : P seen l) :
    P (seen ++ LedgerOp.noted f ops l) (LedgerOp.run ops l).1 := by
  induction ops generalizing seen l with
  | nil =>
      rw [LedgerOp.noted, List.append_nil]
      exact h
  | cons op rest ih =>
      have next := ih (step op h)
      rw [List.append_assoc] at next
      exact next

/-- So does a run of a dispatch, if notices do not matter either. -/
theorem noted_keeps
    (notice : ∀ {seen : List α} {l : Ledger} (marks : List Mark)
      (warnings : List Warning), P seen l →
      P seen { l with marks, warnings })
    (step : ∀ {seen : List α} {l : Ledger} (op : LedgerOp), P seen l →
      P (seen ++ f op l) (op.apply l).1)
    (ops : List DispatchOp) (start : P [] d.ledger) :
    P (noted f ops d) (run ops d).1.ledger := by
  suffices h : ∀ seen, P seen d.ledger →
      P (seen ++ noted f ops d) (run ops d).1.ledger from h [] start
  clear start
  induction ops generalizing d with
  | nil =>
      intro seen h
      rw [noted, List.append_nil]
      exact h
  | cons op rest ih =>
      intro seen h
      obtain ⟨marks, warnings, told⟩ := op.noticed_aside d
      have found : P seen (op.noticed d) := by
        rw [told]
        exact notice marks warnings h
      have moved := run_noted_keeps step (op.moves d) found
      rw [← ledger_apply] at moved
      have later := ih _ moved
      rw [List.append_assoc] at later
      exact later

end DispatchOp

end TaskLedger
