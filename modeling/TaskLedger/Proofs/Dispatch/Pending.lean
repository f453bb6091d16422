/-
Which tasks a flush leaves pending.

A flush goes by the status, and the status is the last thing that was said
of the task: that it is done, or that it gave control back. Its span is
written by a flush only if "done" came last. So a task that closes after
the scheduler was done with it is passed over from then on, also when the
last of its workers has ended: its span is written only once it is reported
as done again, or when the build ends. A task whose span was written by
hand stays registered as well, and nothing can be said of it any more.

`Bears` reads the status off what was said. Every operation keeps it for a
task that stays registered (`Heard`): what the scheduler does to the others
spares such a task, and so does a sweep that leaves it where it is.
-/
import TaskLedger.Proofs.Ledger.TaskEffects

namespace TaskLedger

-- ================================================================ signals

/-- What can be said of a task. -/
inductive Signal
  /-- The scheduler is done with it. -/
  | done
  /-- It gave control back. -/
  | closed
  /-- Its span was written by hand. -/
  | written
  deriving DecidableEq, Repr

/-- The status of a task that certain things were said of, in this order. -/
def Bears (said : List Signal) : TaskStatus → Prop
  | .running | .waiting => said = []
  | .closed => .written ∉ said ∧ said.getLast? = some .closed
  | .finished => .written ∉ said ∧ said.getLast? = some .done
  | .spanClosed => .written ∈ said

section

variable {said : List Signal} {task : Task} {now : Instant}

/-- A task is finished exactly if "done" came last and its span was not
written by hand. -/
theorem Bears.finished_iff {status : TaskStatus} (h : Bears said status) :
    status = .finished
      ↔ Signal.written ∉ said ∧ said.getLast? = some .done := by
  cases status with
  | running | waiting =>
      obtain rfl : said = [] := h
      simp
  | closed =>
      obtain ⟨-, last⟩ : _ ∧ _ := h
      simp [last]
  | finished => exact ⟨fun _ => h, fun _ => rfl⟩
  | spanClosed =>
      have mem : Signal.written ∈ said := h
      simp [mem]

/-- An open task was not written by hand. -/
theorem Bears.opened (h : Bears said task.status)
    (opened : task.status.terminal = false) : Signal.written ∉ said := by
  cases status : task.status with
  | running | waiting =>
      rw [status] at h
      obtain rfl : said = [] := h
      exact List.not_mem_nil
  | closed | finished =>
      rw [status] at h
      exact h.1
  | spanClosed =>
      rw [status] at opened
      cases opened

/-- What is over was written, whatever else is said of it. -/
theorem Bears.settled (h : Bears said task.status)
    (terminal : task.status.terminal = true) (more : List Signal) :
    Bears (said ++ more) task.status := by
  cases status : task.status with
  | running | waiting | closed | finished =>
      rw [status] at terminal
      cases terminal
  | spanClosed =>
      rw [status] at h
      exact List.mem_append_left more h

/-- Waiting is not said by a signal, since a task that waits counts as one that
runs. -/
theorem Bears.await (h : Bears said task.status) :
    Bears said task.await.status := by
  unfold Task.await
  split
  · next e => rw [e] at h; exact h
  · next e => rw [e] at h; exact h
  · exact h

/-- A task that gives control back shows it, unless it is over. -/
theorem Bears.close (h : Bears said task.status) :
    Bears (said ++ [.closed]) (task.close now).status := by
  unfold Task.close
  cases isOver : task.status.terminal with
  | true => exact h.settled isOver [.closed]
  | false =>
      have opened := h.opened isOver
      exact ⟨by simp [opened], List.getLast?_concat⟩

/-- A task that the scheduler is done with shows that. -/
theorem Bears.finish (h : Bears said task.status) :
    Bears (said ++ [.done]) (task.finish now).status := by
  unfold Task.finish
  cases isOver : task.status.terminal with
  | true => exact h.settled isOver [.done]
  | false =>
      have opened := h.opened isOver
      exact ⟨by simp [opened], List.getLast?_concat⟩

end

namespace LedgerOp

open Ledger

/-- What an operation says of a task on record. -/
def signal? (t : TaskId) (op : LedgerOp) (l : Ledger) : Option Signal :=
  if t < l.tasks.size then
    match op with
    | finishTask path =>
        if l.registered? path = some t then some .done else none
    | finish e => if e = .task t then some .done else none
    | close e => if e = .task t then some .closed else none
    | conclude e => if e = .task t then some .written else none
    | _ => none
  else none

variable {op : LedgerOp} {l : Ledger} {t : TaskId} {said : List Signal}

/-- What goes on elsewhere is no signal to a task. -/
theorem signal?_other (sched : ∀ path, op ≠ finishTask path)
    (aside : op.entry? ≠ some (.task t)) : op.signal? t l = none := by
  unfold signal?
  split
  · cases op with
    | finishTask path => exact absurd rfl (sched path)
    | finish e | close e | conclude e =>
        exact if_neg fun e => aside (congrArg some e)
    | _ => rfl
  · rfl

/-- Nor is anything one to a task that is not on record. -/
theorem signal?_none (unknown : l.tasks[t]? = none) :
    op.signal? t l = none := by
  unfold signal?
  exact if_neg (Nat.not_lt.mpr (Array.getElem?_eq_none_iff.mp unknown))

-- ================================================================= status

/-- What is not the scheduler's turns the status as it says. -/
theorem bears_apply (others : op.scheduling = false) {task : Task}
    (found : l.tasks[t]? = some task) (h : Bears said task.status) :
    ∃ task', (op.apply l).1.tasks[t]? = some task'
      ∧ Bears (said ++ (op.signal? t l).toList) task'.status := by
  refine ⟨_, task_makes others found, ?_⟩
  have silent : Bears (said ++ (none : Option Signal).toList) task.status :=
    (List.append_nil said).symm ▸ h
  -- what is for the task may say something, the rest is silent
  by_cases aside : op.entry? = some (.task t)
  · have lt : t < l.tasks.size := (Array.getElem?_eq_some_iff.mp found).1
    simp only [signal?, makes, if_pos lt, if_pos aside]
    cases op with
    | await e =>
        rw [Option.toList_none, List.append_nil]
        exact h.await
    | close e =>
        obtain rfl : e = .task t := Option.some.inj aside
        dsimp only
        rw [if_pos rfl]
        exact h.close
    | finish e =>
        obtain rfl : e = .task t := Option.some.inj aside
        dsimp only
        rw [if_pos rfl]
        exact h.finish
    | attach e kind thread start length =>
        unfold Task.attach
        dsimp only
        split <;> exact silent
    | conclude e =>
        obtain rfl : e = .task t := Option.some.inj aside
        dsimp only
        rw [if_pos rfl]
        split
        · next isOver => exact h.settled isOver [.written]
        · exact List.mem_append_right said List.mem_cons_self
    | enlist | lookUp => exact silent
    | report e w =>
        unfold Task.noteReport
        dsimp only
        repeat' split
        all_goals exact silent
    | _ => cases aside
  · rw [makes_aside aside,
      signal?_other (by rintro path rfl; cases others) aside]
    exact silent

end LedgerOp

-- ================================================================== heard

namespace Ledger

/-- A registered task's status is what was said of it, and nothing was said
of a task that is still to come. -/
structure Heard (t : TaskId) (said : List Signal) (l : Ledger) : Prop where
  homed : Homed l
  single : Single l
  fresh : l.tasks[t]? = none → said = []
  bears : ∀ {path : String} {task : Task}, l.registered? path = some t →
    l.tasks[t]? = some task → Bears said task.status

/-- Where nothing is on record, nothing was said. -/
theorem Blank.heard {l : Ledger} (h : l.Blank) (t : TaskId) :
    Heard t [] l where
  homed := h.homed
  single := h.single
  fresh _ := rfl
  bears := by
    intro path task _ found
    simp [h.tasks] at found

variable {t : TaskId} {said : List Signal} {l : Ledger} {op : LedgerOp}

/-- A task that stays registered goes on as what is said of it. -/
theorem Heard.bears_registered (h : Heard t said l) {path : String}
    (before : l.registered? path = some t)
    (after : (op.apply l).1.registered? path = some t) :
    ∃ task, (op.apply l).1.tasks[t]? = some task
      ∧ Bears (said ++ (op.signal? t l).toList) task.status := by
  obtain ⟨task, found, -⟩ := h.homed path t before
  have bears := h.bears before found
  have alone {p : String} (ne : p ≠ path) : l.registered? p ≠ some t :=
    fun there => ne (h.homed.only before there)
  have still (same : (op.apply l).1.tasks[t]? = l.tasks[t]?)
      (silent : op.signal? t l = none) :
      ∃ task, (op.apply l).1.tasks[t]? = some task
        ∧ Bears (said ++ (op.signal? t l).toList) task.status := by
    refine ⟨task, same.trans found, ?_⟩
    rw [silent, Option.toList_none, List.append_nil]
    exact bears
  cases scheduling : op.scheduling with
  | false => exact LedgerOp.bears_apply scheduling found bears
  | true =>
      cases op with
      | startTask p project variant =>
          exact still ((startTask_task p project variant found).trans
            found.symm) (LedgerOp.signal?_other (fun _ e => by cases e)
              (fun e => by cases e))
      | finishTask p =>
          by_cases e : p = path
          · -- it is still registered, so the report only marked it as done
            subst e
            have lt : t < l.tasks.size :=
              (Array.getElem?_eq_some_iff.mp found).1
            have said : (LedgerOp.finishTask p).signal? t l = some .done := by
              simp only [LedgerOp.signal?, if_pos lt, if_pos before]
            rw [said]
            refine ⟨task.finish l.now, ?_, bears.finish⟩
            have finished : (l.finish t).tasks[t]?
                = some (task.finish l.now) := by
              show (l.tasks.modify t _)[t]? = _
              rw [Array.getElem?_modify, if_pos rfl, found]
              rfl
            have after : (l.finishTask p).1.registered? p = some t := after
            show (l.finishTask p).1.tasks[t]? = _
            unfold finishTask at after ⊢
            simp only [before, finished] at after ⊢
            split
            · next idle =>
                rw [if_pos idle, registered?_settle_eq, if_pos rfl] at after
                cases after
            · exact finished
          · have spared : Spared t l (l.finishTask p).1 :=
              spared_finishTask fun u hu => .inl (by
                rintro rfl
                exact alone e hu)
            refine still spared.task ?_
            unfold LedgerOp.signal?
            split
            · exact if_neg (alone e)
            · rfl
      | flush =>
          have after : l.flush.1.registered? path = some t := after
          have spared : Spared t l l.flush.1 := by
            refine spared_flushOver fun p mem there => ?_
            obtain rfl := h.homed.only before there
            have gone := registered?_flushOver l.readyPaths p l
            rw [if_pos mem] at gone
            have after : (l.flushOver l.readyPaths).1.registered? p = some t :=
              after
            rw [gone] at after
            cases after
          exact still spared.task (LedgerOp.signal?_other
            (fun _ e => by cases e) (fun e => by cases e))
      | endBuild =>
          have after : List.lookup path l.endBuild.1.registry = some t := after
          rw [endBuild_registry] at after
          cases after
      | _ => cases scheduling

/-- An operation leaves a registered task with the status that was said last.
The scheduler speaks to the task of a path, any other operation to the task of
its entry. -/
theorem Heard.apply (h : Heard t said l) (op : LedgerOp) :
    Heard t (said ++ (op.signal? t l).toList) (op.apply l).1 where
  homed := LedgerOp.homed_apply h.homed
  single := single_apply h.single
  fresh := by
    intro gone
    have unknown : l.tasks[t]? = none := by
      cases found : l.tasks[t]? with
      | none => rfl
      | some task =>
          obtain ⟨task', ht', -⟩ := LedgerOp.task_apply op found
          rw [gone] at ht'
          cases ht'
    rw [h.fresh unknown, LedgerOp.signal?_none unknown]
    rfl
  bears := by
    intro path task registered found
    rcases LedgerOp.registered_back registered with
      old | ⟨unknown, task', ht', -, running⟩
    · obtain ⟨task', ht', bears⟩ := h.bears_registered old registered
      rw [found] at ht'
      obtain rfl := Option.some.inj ht'
      exact bears
    · rw [found] at ht'
      obtain rfl := Option.some.inj ht'
      rw [h.fresh unknown, LedgerOp.signal?_none unknown, running]
      rfl

end Ledger

-- ================================================================ pending

namespace DispatchOp

open Ledger

/-- What a history says of a task. -/
def signalsTo (t : TaskId) : List DispatchOp → Dispatch → List Signal :=
  noted fun op l => (op.signal? t l).toList

/-- A run of dispatch operations is a run of the ledger, so the same holds along
it. -/
theorem heard_run (t : TaskId) (ops : List DispatchOp) {d : Dispatch}
    (blank : d.ledger.Blank) :
    Heard t (signalsTo t ops d) (run ops d).1.ledger :=
  noted_keeps (P := Heard t)
    (fun _ _ h => ⟨h.homed, h.single, h.fresh, h.bears⟩)
    (fun op h => h.apply op) ops (blank.heard t)

/-- After any history from nothing, a flush leaves a path registered
exactly if its task was registered before and a worker still works for it,
or "done" is not the last that was said of it, or its span was written by
hand. In particular a task that is done and has no worker left at work
stays registered if it closed after that. -/
theorem registered_after_flush (ops : List DispatchOp) (d : Dispatch)
    (blank : d.ledger.Blank) (path : String) (t : TaskId) :
    let m := (run ops d).1.ledger
    let said := signalsTo t ops d
    m.flush.1.registered? path = some t
      ↔ m.registered? path = some t
        ∧ ((∃ task, m.flush.1.tasks[t]? = some task
              ∧ m.flush.1.idle task = false)
          ∨ said.getLast? ≠ some .done ∨ .written ∈ said) := by
  intro m said
  have heard : Heard t said m := heard_run t ops blank
  rw [registered?_flush heard.single]
  refine and_congr_right fun registered => ?_
  obtain ⟨task, found, -⟩ := heard.homed path t registered
  have status := (heard.bears registered found).finished_iff
  -- a flush moves no worker and changes no crew
  have swept := swept_flush heard.single
  have idle : (∃ task, m.flush.1.tasks[t]? = some task
      ∧ m.flush.1.idle task = false) ↔ m.idle task = false := by
    obtain ⟨task', ht', crew⟩ : ∃ task', m.flush.1.tasks[t]? = some task'
        ∧ task'.crew = task.crew := by
      rcases swept.task t with same | ⟨task', ht', -, he⟩
      · exact ⟨task, same.trans found, rfl⟩
      · rw [found] at ht'
        obtain rfl := Option.some.inj ht'
        exact ⟨_, he, rfl⟩
    rw [ht', ← idle_congr swept.workers crew]
    simp
  rw [idle, ready_of found, Bool.and_eq_false_iff, beq_eq_false_iff_ne,
    ne_eq, status]
  by_cases written : Signal.written ∈ said
  · simp [written]
  · simp [written, or_comm]

/-- The scheduler is done with a task while its unit is queued; then the
task closes, and its only worker ends. The flush passes it over. -/
theorem registered_after_flush_closed_late :
    let d : Dispatch := { ledger := { sinks := #[{ outlet := .memory }] } }
    let ops : List DispatchOp :=
      [.onLedger (.startTask ":a" ":app" none),
        .addExecutor (.pooled { owner := ":a", entry := .task 0 }),
        .submit 0 { action := "A", hash := 0, script := { ms := 5 } },
        .onLedger (.finishTask ":a"), .release 0, .proceed 0, .proceed 0,
        .proceed 0, .proceed 0, .proceed 0]
    let m := (run ops d).1.ledger
    signalsTo 0 ops d = [.done, .closed]
      ∧ m.tasks.all (fun task => m.idle task) = true
      ∧ m.flush.1.registered? ":a" = some 0 := by
  intro d ops m
  have said : signalsTo 0 ops d = [.done, .closed] := by decide +kernel
  refine ⟨said, by decide +kernel, ?_⟩
  refine (registered_after_flush ops d ⟨rfl, rfl, rfl, rfl⟩ ":a" 0).mpr
    ⟨by decide +kernel, .inr (.inl ?_)⟩
  rw [said]
  decide

end DispatchOp

end TaskLedger
