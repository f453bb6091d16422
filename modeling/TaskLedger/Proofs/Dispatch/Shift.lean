/-
What the threads of a pool do while the clock stands still comes down to how
far each unit is.

A shift begins when the owner of a pooled executor has no unit out and nobody
else's is on the way. What follows is its own part, in the order in which it
does it: it gives out units, waits, gives control back. Between these, units
proceed as they come. `Shift.ledgerAt` is the ledger that there should be when
the unit that was given out as the i-th has come so many steps: its worker is
the i-th that was hired since, its times are all the present, and as many
lines were written as units reported, whichever these are. That is where an
order of the units goes unseen: a line shows the number of its span, and
beside it nothing of the unit that it is for.

This module says what the operations do to such a ledger. That a pool brings
about no other is shown in `Standing`.
-/
import TaskLedger.Proofs.Ledger.Filing
import TaskLedger.Proofs.Dispatch.Keys
import TaskLedger.Proofs.Dispatch.Refusal

namespace TaskLedger

-- ================================================================ tables

section

variable {α β : Type}

/-- A change behind the front part of a table. -/
theorem modify_append (front back : Array α) (i : Nat) (f : α → α) :
    (front ++ back).modify (front.size + i) f = front ++ back.modify i f := by
  apply Array.ext_getElem?
  intro j
  rw [Array.getElem?_modify, Array.getElem?_append, Array.getElem?_append,
    Array.getElem?_modify]
  by_cases lt : j < front.size
  · rw [if_pos lt, if_pos lt, if_neg (by omega)]
  · rw [if_neg lt, if_neg lt]
    by_cases e : front.size + i = j
    · rw [if_pos e, if_pos (by omega)]
    · rw [if_neg e, if_neg (by omega)]

/-- A change of one place that the rest of the table has been mapped from. -/
theorem modify_map {g : α → β} {f : β → β} {l : List α} {i : Nat} {a b : α}
    (at_ : l[i]? = some a) (same : f (g a) = g b) :
    (l.map g).toArray.modify i f = ((l.set i b).map g).toArray := by
  apply Array.ext_getElem?
  intro j
  rw [Array.getElem?_modify, List.getElem?_toArray, List.getElem?_toArray,
    List.getElem?_map, List.getElem?_map, List.getElem?_set]
  by_cases e : i = j
  · subst e
    have lt := (List.getElem?_eq_some_iff.mp at_).1
    rw [if_pos rfl, if_pos rfl, if_pos lt, at_]
    exact congrArg some same
  · rw [if_neg e, if_neg e]

/-- What does not tell two entries apart does not tell the lists. -/
theorem map_set_same {g : α → β} {l : List α} {i : Nat} {a b : α}
    (at_ : l[i]? = some a) (same : g a = g b) :
    (l.set i b).map g = l.map g := by
  apply List.ext_getElem?
  intro j
  rw [List.getElem?_map, List.getElem?_map, List.getElem?_set]
  by_cases e : i = j
  · subst e
    rw [if_pos rfl, if_pos (List.getElem?_eq_some_iff.mp at_).1, at_]
    exact congrArg some same.symm
  · rw [if_neg e]

/-- Two changes at one place are one change. -/
theorem modify_modify (table : Array α) (i : Nat) (f g : α → α) :
    (table.modify i f).modify i g = table.modify i fun a => g (f a) := by
  apply Array.ext_getElem?
  intro j
  rw [Array.getElem?_modify, Array.getElem?_modify, Array.getElem?_modify]
  split
  · cases table[j]? <;> rfl
  · rfl

theorem modify_same {table : Array α} {i : Nat} {a : α}
    (found : table[i]? = some a) : (table.modify i fun _ => a) = table := by
  apply Array.ext_getElem?
  intro j
  rw [Array.getElem?_modify]
  split
  · next here => rw [← here, found]; rfl
  · rfl

end

-- ================================================================== tasks

namespace Task

/-- A task that took note of a report, or not. -/
def noteIf (now : Instant) (noted : Bool) (t : Task) : Task :=
  t.noteReport now noted

variable (now : Instant) (noted : Bool) (t : Task)

theorem noteIf_false : noteIf now false t = t := by
  unfold noteIf noteReport
  rw [Bool.and_false]
  rfl

theorem noteIf_crew : (noteIf now noted t).crew = t.crew := by
  unfold noteIf noteReport
  split <;> rfl

/-- What is fixed of a task stays so, whether it takes note or not. -/
theorem noteIf_same : t.Same (noteIf now noted t) := by
  unfold noteIf noteReport
  split
  · exact ⟨rfl, rfl, rfl, rfl, rfl, rfl⟩
  · exact .refl t

/-- To take note and to get a new member may come in either order, since the one
looks at the status and the other at the crew. -/
theorem noteIf_enlist (key : String) (w : WorkerId) :
    (noteIf now noted t).enlist key w = noteIf now noted (t.enlist key w) := by
  unfold noteIf noteReport enlist
  dsimp only
  split <;> rfl

/-- A task that has given up control does not wait any more. -/
theorem await_released {t : Task} (released : t.status.released = true) :
    t.await = t := by
  unfold await
  split
  · next status => rw [status] at released; cases released
  · next status => rw [status] at released; cases released
  · rfl

/-- And one that waits has not given it up. -/
theorem await_held {t : Task} (held : t.status.released = false) :
    t.await.status.released = false := by
  unfold await
  split
  · rfl
  · rfl
  · exact held

/-- A task that has control takes no note. -/
theorem noteIf_held {t : Task} (held : t.status.released = false) :
    noteIf now noted t = t := by
  unfold noteIf noteReport
  rw [held]
  rfl

theorem noteIf_status : (noteIf now noted t).status = t.status := by
  unfold noteIf noteReport
  split <;> rfl

/-- A task that waits has not given control back, so it does not matter
whether it took note before or after it began to. -/
theorem noteIf_await :
    (noteIf now noted t).await = noteIf now noted t.await := by
  cases released : t.status.released with
  | true =>
      rw [await_released released, await_released]
      rw [noteIf_status, released]
  | false =>
      rw [noteIf_held now noted released,
        noteIf_held now noted (await_held released)]

/-- To take note twice at one time is to do it once. -/
theorem noteIf_noteReport (idle : Bool) :
    (noteIf now noted t).noteReport now idle
      = noteIf now (noted || idle) t := by
  cases released : t.status.released with
  | false =>
      rw [noteIf_held now noted released, noteIf_held now _ released]
      exact noteIf_held now idle released
  | true =>
      unfold noteIf noteReport
      cases noted <;> cases idle <;> simp only [released, Bool.and_self,
        Bool.and_false, Bool.or_self, Bool.or_false, Bool.false_or, if_true,
        if_false, Bool.false_eq_true]
      cases t.ended with
      | none => simp [Instant.max]
      | some e =>
          have twice : (e.max now).max now = e.max now := by
            unfold Instant.max
            split
            · simp
            · rfl
          simp only [twice]

end Task

-- ================================================================== shifts

/-- The start of a shift: a task on record, its executor on a pool that is
alive, no unit out. -/
structure Shift where
  d : Dispatch
  x : ExecutorId
  p : PooledState
  t : TaskId
  task : Task
  sink : Sink
  live : d.stopped = false
  isOver : ∀ {u : UnitId} {s : Submitted}, d.units[u]? = some s →
    s.phase.over = true
  pooled : d.pooled? x = some p
  entry : p.entry = .task t
  idle : p.outstanding = 0
  found : d.ledger.tasks[t]? = some task
  home : d.ledger.sinks[task.sink]? = some sink
  manned : ∀ m ∈ task.crew, m.2 < d.ledger.workers.size

namespace Shift

variable (S : Shift)

/-- The time that it is all the while. -/
def now : Instant := S.d.ledger.now

/-- The key of the unit given out as the i-th. -/
def keyAt (i : Nat) (w : Work) : String :=
  w.key S.p.owner ++ "#" ++ toString (S.p.sequence + UInt64.ofNat i)

/-- The number of its worker. -/
def handAt (i : Nat) : WorkerId := S.d.ledger.workers.size + i

/-- What is reported for a unit, as far as it is known from the start. -/
def fate (w : Work) : Option String :=
  Dispatch.failureOf w.action (S.d.perform w).2

/-- The phase of a unit after so many steps. -/
def phaseAt (i : Nat) (w : Work) : Nat → Phase
  | 0 => .queued
  | 1 => .begun (S.handAt i)
  | 2 => .ran (S.handAt i) (S.fate w)
  | 3 => .ended (S.handAt i) (S.fate w)
  | 4 => .reported (S.fate w)
  | _ => .completed (S.fate w)

/-- A unit after so many steps. -/
def unitAt (i : Nat) (w : Work) (j : Nat) : Submitted :=
  { executor := S.x, owner := S.p.owner, entry := .task S.t,
    key := S.keyAt i w, work := w, phase := S.phaseAt i w j }

/-- The worker of a unit after so many steps. -/
def workerAt (j : Nat) : Worker :=
  { path := S.task.path, kind := .worker, created := S.now,
    started := if 1 ≤ j then some S.now else none,
    ended := if 3 ≤ j then some S.now else none }

/-- The line of the unit that reported as the n-th. -/
def lineAt (n : Nat) : Write where
  sink := S.task.sink
  origin := .direct
  record := S.task.record
    ((S.workerAt 5).span (UInt64.ofNat (S.sink.last.toNat + n + 1)) S.task.id)
    []

/-- The sink once so many units reported. -/
def sinkAt (n : Nat) : Sink :=
  { S.sink with last := UInt64.ofNat (S.sink.last.toNat + n) }

/-- How many of some units have reported. -/
def reports (steps : List Nat) : Nat := steps.countP (4 ≤ ·)

/-- The ledger when the units have come so many steps and the task is as
given. -/
def ledgerAt (b : Task) (steps : List Nat) : Ledger :=
  { S.d.ledger with
    workers := S.d.ledger.workers ++ (steps.map S.workerAt).toArray
    tasks := S.d.ledger.tasks.modify S.t fun _ => b
    sinks := S.d.ledger.sinks.modify S.task.sink fun _ =>
      S.sinkAt (reports steps)
    journal := S.d.ledger.journal
      ++ (List.range (reports steps)).map S.lineAt }

/-- A task of the shift: the one it began with, with the crew that was hired
since. -/
structure Keeps (b : Task) (works : List Work) : Prop where
  same : S.task.Same b
  find : ∀ {i : Nat} {w : Work}, works[i]? = some w →
    b.crew.lookup (S.keyAt i w) = some (S.handAt i)
  few : ∀ m ∈ b.crew, m.2 < S.handAt works.length

variable {S} {b : Task} {works : List Work} {steps : List Nat} {i j : Nat}
  {w : Work}

-- ================================================================ readings

/-- There is one task that a shift is about, and it is as given. -/
theorem task_ledgerAt : (S.ledgerAt b steps).tasks[S.t]? = some b := by
  show (S.d.ledger.tasks.modify S.t fun _ => b)[S.t]? = _
  rw [Array.getElem?_modify, if_pos rfl, S.found]
  rfl

/-- Each unit has the worker that its count of steps tells. -/
theorem worker_ledgerAt (at_ : steps[i]? = some j) :
    (S.ledgerAt b steps).workers[S.handAt i]? = some (S.workerAt j) := by
  show (S.d.ledger.workers ++ (steps.map S.workerAt).toArray)[S.handAt i]? = _
  unfold handAt
  rw [Array.getElem?_append, if_neg (by omega), Nat.add_sub_cancel_left,
    List.getElem?_toArray, List.getElem?_map, at_]
  rfl

/-- The workers that were there before are as they were. -/
theorem old_ledgerAt {v : WorkerId} (lt : v < S.d.ledger.workers.size) :
    (S.ledgerAt b steps).workers[v]? = S.d.ledger.workers[v]? := by
  show (S.d.ledger.workers ++ (steps.map S.workerAt).toArray)[v]? = _
  rw [Array.getElem?_append, if_pos lt]

/-- The sink has handed out a number for each report. -/
theorem sink_ledgerAt : (S.ledgerAt b steps).sinks[S.task.sink]?
    = some (S.sinkAt (reports steps)) := by
  show (S.d.ledger.sinks.modify S.task.sink fun _ => _)[S.task.sink]? = _
  rw [Array.getElem?_modify, if_pos rfl, S.home]
  rfl

/-- Nobody is at work for the task but on its units. -/
def spare (S : Shift) (b : Task) : Bool :=
  b.crew.all fun m =>
    match S.d.ledger.workers[m.2]? with
    | some k => k.finished
    | none => true

/-- All of its workers have ended exactly if those of its units have, and
nobody else is at work. -/
theorem idle_ledgerAt (keeps : S.Keeps b works)
    (length : steps.length = works.length) :
    (S.ledgerAt b steps).idle b = true
      ↔ S.spare b = true ∧ ∀ j ∈ steps, 3 ≤ j := by
  have finished (j : Nat) : (S.workerAt j).finished = decide (3 ≤ j) := by
    unfold workerAt Worker.finished
    by_cases h : 3 ≤ j <;> simp [h]
  unfold Ledger.idle Worker.allFinished Ledger.crewOf spare
  rw [List.all_eq_true, List.all_eq_true]
  constructor
  · intro all
    -- the old members are idle, and each unit has ended
    constructor
    · intro m mem
      cases hm : S.d.ledger.workers[m.2]? with
      | none => rfl
      | some k =>
          refine all k (List.mem_filterMap.mpr ⟨m, mem, ?_⟩)
          rw [old_ledgerAt (Array.getElem?_eq_some_iff.mp hm).1, hm]
    · intro j mem
      obtain ⟨i, at_⟩ := List.getElem?_of_mem mem
      have lt := (List.getElem?_eq_some_iff.mp at_).1
      rw [length] at lt
      have look := keeps.find (List.getElem?_eq_getElem lt)
      have ended := all (S.workerAt j) (List.mem_filterMap.mpr
        ⟨_, mem_of_lookup look, worker_ledgerAt at_⟩)
      rw [finished] at ended
      exact of_decide_eq_true ended
  -- a member is an old one, or the worker of a unit
  · rintro ⟨others, all⟩ k mem
    obtain ⟨m, mem, hm⟩ := List.mem_filterMap.mp mem
    by_cases lt : m.2 < S.d.ledger.workers.size
    · have done := others m mem
      rw [old_ledgerAt lt] at hm
      rw [hm] at done
      exact done
    · obtain ⟨i, hi⟩ : ∃ i, m.2 = S.handAt i :=
        ⟨_, (Nat.add_sub_cancel' (Nat.le_of_not_lt lt)).symm⟩
      have few := keeps.few m mem
      rw [hi] at few hm
      have lt : i < steps.length := by
        rw [length]
        exact Nat.lt_of_add_lt_add_left few
      rw [worker_ledgerAt (List.getElem?_eq_getElem lt)] at hm
      obtain rfl := Option.some.inj hm
      rw [finished]
      exact decide_eq_true (all _ (List.getElem_mem lt))

/-- At the start it is the ledger that is there. -/
theorem ledgerAt_start : S.ledgerAt S.task [] = S.d.ledger := by
  have sink : S.sinkAt (reports []) = S.sink := by
    show ({ S.sink with last := UInt64.ofNat (S.sink.last.toNat + 0) } : Sink)
      = S.sink
    rw [Nat.add_zero, UInt64.ofNat_toNat]
  unfold ledgerAt
  rw [modify_same S.found, sink, modify_same S.home]
  simp [reports]

-- ============================================================== operations

/-- A step takes part in the count of reports if it is the one that reports. -/
theorem reports_set (at_ : steps[i]? = some j) (j' : Nat) :
    reports (steps.set i j') + (if 4 ≤ j then 1 else 0)
      = reports steps + (if 4 ≤ j' then 1 else 0) := by
  obtain ⟨lt, rfl⟩ := List.getElem?_eq_some_iff.mp at_
  have pos : 4 ≤ steps[i] → 0 < steps.countP (4 ≤ ·) := fun h =>
    List.countP_pos_iff.mpr ⟨_, List.getElem_mem lt, decide_eq_true h⟩
  unfold reports
  rw [List.countP_set lt]
  simp only [decide_eq_true_eq]
  split
  · next h => have := pos h; omega
  · rfl

/-- What is done to the task is seen in the task alone. -/
theorem onTask_ledgerAt (f : Task → Task) :
    (S.ledgerAt b steps).onTask S.t f = S.ledgerAt (f b) steps := by
  unfold Ledger.onTask ledgerAt
  dsimp only
  rw [modify_modify]

/-- A mark on the worker of a unit that takes a step. -/
theorem onWorker_ledgerAt {j' : Nat} {f : Worker → Worker}
    (at_ : steps[i]? = some j) (mark : f (S.workerAt j) = S.workerAt j')
    (silent : 4 ≤ j ↔ 4 ≤ j') :
    (S.ledgerAt b steps).onWorker (S.handAt i) f
      = S.ledgerAt b (steps.set i j') := by
  have same : reports (steps.set i j') = reports steps := by
    have moved := reports_set at_ j'
    simp only [silent] at moved
    omega
  unfold Ledger.onWorker ledgerAt handAt
  dsimp only
  rw [modify_append, modify_map at_ mark, same]

/-- A step that the ledger does not see. -/
theorem ledgerAt_unseen (j' : Nat) (at_ : steps[i]? = some j)
    (mark : S.workerAt j = S.workerAt j') (silent : 4 ≤ j ↔ 4 ≤ j') :
    S.ledgerAt b (steps.set i j') = S.ledgerAt b steps := by
  have moved := reports_set at_ j'
  simp only [silent] at moved
  unfold ledgerAt
  rw [map_set_same at_ mark, show reports (steps.set i j') = reports steps by
    omega]

/-- The second step of a unit starts its worker. -/
theorem startWorker_ledgerAt (at_ : steps[i]? = some 0) :
    (S.ledgerAt b steps).startWorker (S.handAt i)
      = S.ledgerAt b (steps.set i 1) :=
  onWorker_ledgerAt at_ rfl (by omega)

/-- And the third one ends it. -/
theorem endWorker_ledgerAt (at_ : steps[i]? = some 2) :
    (S.ledgerAt b steps).endWorker (S.handAt i)
      = S.ledgerAt b (steps.set i 3) :=
  onWorker_ledgerAt at_ rfl (by omega)

/-- A unit that is given out: its worker comes last. -/
theorem enlist_ledgerAt (same : S.task.Same b) (key : String) :
    (S.ledgerAt b steps).enlist S.t key .worker
      = S.ledgerAt (b.enlist key (S.handAt steps.length)) (steps ++ [0]) := by
  have count : reports (steps ++ [0]) = reports steps := by
    unfold reports
    rw [List.countP_append]
    rfl
  have size : (S.ledgerAt b steps).workers.size = S.handAt steps.length := by
    simp [ledgerAt, handAt]
  have hired : (S.ledgerAt b steps).workers.push (S.workerAt 0)
      = S.d.ledger.workers ++ ((steps ++ [0]).map S.workerAt).toArray := by
    simp [ledgerAt]
  rw [Ledger.enlist_of_found task_ledgerAt, size]
  have worker : (⟨b.path, .worker, false, S.now, none, none⟩ : Worker)
      = S.workerAt 0 := by
    rw [same.path]
    rfl
  have now : (S.ledgerAt b steps).now = S.now := rfl
  rw [now, worker, hired]
  unfold ledgerAt
  dsimp only
  rw [modify_modify, count]
  rfl

/-- A unit finds its worker. -/
theorem lookUp_ledgerAt (look : b.crew.lookup (S.keyAt i w)
      = some (S.handAt i)) :
    (S.ledgerAt b steps).lookUp S.t (S.keyAt i w)
      = (S.ledgerAt b steps, S.handAt i) := by
  unfold Ledger.lookUp
  rw [task_ledgerAt]
  dsimp only [Option.bind_some]
  rw [look]

/-- A clock that does not move from where it is does so in every ledger. -/
theorem advance_still {ms ns : Int} {l m : Ledger} (same : m.now = l.now)
    (still : (l.advance ms ns).1 = l) :
    m.advance ms ns = (m, (l.advance ms ns).2) := by
  unfold Ledger.advance at still ⊢
  rw [same]
  cases h : Duration.ofParts ms ns >>= l.now.shift with
  | error f => rfl
  | ok t =>
      rw [h] at still
      have here : t = l.now := congrArg Ledger.now still
      dsimp only
      rw [here, ← same]

/-- A number from the sink of the shift. -/
theorem next_sinkAt {n total : Nat} (lt : n < total)
    (room : S.sink.last.toNat + total ≤ Sink.largestId.toNat) :
    (S.sinkAt n).next
      = (S.sinkAt (n + 1),
          .ok (UInt64.ofNat (S.sink.last.toNat + n + 1))) := by
  have largest : Sink.largestId.toNat = 18446744073709551615 := rfl
  have last : (S.sinkAt n).last.toNat = S.sink.last.toNat + n := by
    show (UInt64.ofNat _).toNat = _
    rw [UInt64.toNat_ofNat_of_lt']
    show _ < 18446744073709551616
    omega
  have next := (Sink.next_of_lt (k := S.sinkAt n) (n := 0) (by omega)).1
  have one : (S.sinkAt n).last + 1
      = UInt64.ofNat (S.sink.last.toNat + n + 1) := by
    rw [UInt64.ofNat_add]
    rfl
  rw [next, one]
  rfl

/-- A worker that reports. The line is the same whichever it is, and the
task takes note if nobody is at work for it any more. -/
theorem report_ledgerAt {total : Nat} (same : S.task.Same b)
    (at_ : steps[i]? = some 3) (lt : reports steps < total)
    (room : S.sink.last.toNat + total ≤ Sink.largestId.toNat) :
    ((S.ledgerAt b steps).report S.t (S.handAt i)).2 = .ok ()
      ∧ ((S.ledgerAt b steps).report S.t (S.handAt i)).1.Alike
          (S.ledgerAt (b.noteReport S.now ((S.ledgerAt b steps).idle b))
            (steps.set i 4)) := by
  have task : (S.ledgerAt b steps).tasks[S.t]? = some b := task_ledgerAt
  have worker := worker_ledgerAt (S := S) (b := b) at_
  have next := next_sinkAt lt room
  rcases Ledger.report_cases S.t (S.handAt i) (S.ledgerAt b steps) with
    ⟨none, -⟩ | ⟨a, k, f, ha, -, fault, -⟩
      | ⟨a, k, s, id, tree, warnings, ha, hk, hs, hid, he⟩
  -- there is a task, a worker and a number, so the report is made
  · rw [task, worker] at none
    rcases none with none | none
    · cases none
    · cases none
  · rw [task] at ha
    obtain rfl := Option.some.inj ha
    unfold Ledger.allocate at fault
    rw [same.sink, sink_ledgerAt] at fault
    dsimp only at fault
    rw [next] at fault
    cases fault
  · rw [task] at ha
    obtain rfl := Option.some.inj ha
    rw [worker] at hk
    obtain rfl := Option.some.inj hk
    rw [same.sink, sink_ledgerAt] at hs
    obtain rfl := Option.some.inj hs
    rw [next] at hid
    obtain rfl := Except.ok.inj hid
    -- from here on, field by field: the report is the step of the counts
    have count : reports (steps.set i 4) = reports steps + 1 :=
      reports_set at_ 4
    have sinks : ((S.ledgerAt b steps).sinks.modify b.sink fun k => k.next.1)
        = S.d.ledger.sinks.modify S.task.sink fun _ =>
            S.sinkAt (reports (steps.set i 4)) := by
      unfold ledgerAt
      dsimp only
      rw [same.sink, modify_modify, next, count]
    have workers : (S.ledgerAt b steps).workers
        = S.d.ledger.workers
          ++ ((steps.set i 4).map S.workerAt).toArray := by
      have unseen : S.workerAt 3 = S.workerAt 4 := rfl
      rw [map_set_same at_ unseen]
      rfl
    have line : Write.offer ⟨S.task.sink, .worker S.t (S.handAt i),
          b.record ((S.workerAt 3).span
            (UInt64.ofNat (S.sink.last.toNat + reports steps + 1)) b.id) [],
          (S.sinkAt (reports steps)).refuses
            ((S.ledgerAt b steps).journal.countP fun w =>
              w.sink == S.task.sink)
            (b.record ((S.workerAt 3).span
              (UInt64.ofNat (S.sink.last.toNat + reports steps + 1)) b.id) [])⟩
        = (S.lineAt (reports steps)).offer := by
      unfold Write.offer lineAt Task.record
      dsimp only
      rw [same.project, same.variant, same.id]
      rfl
    rw [he]
    refine ⟨rfl, rfl, rfl, congrArg _ sinks, ?_, workers, ?_, rfl, rfl⟩
    · show (S.ledgerAt b steps).tasks.modify S.t _ = _
      unfold ledgerAt
      dsimp only
      rw [modify_modify]
      rfl
    · show ((S.ledgerAt b steps).journal ++ Ledger.notes b.sink _ _ _).map _ = _
      unfold Ledger.notes
      rw [same.sink, sink_ledgerAt]
      dsimp only
      rw [List.map_append, List.map_singleton, line]
      unfold ledgerAt
      dsimp only
      rw [count, List.range_succ, List.map_append, List.map_append,
        List.map_append, List.map_append, List.append_assoc]
      rfl

-- =================================================================== crew

/-- No two units of a shift have one key, as long as the executor's count has
not come round. -/
theorem keys_apart {i' : Nat} {w' : Work} (lt : i < UInt64.size)
    (lt' : i' < UInt64.size) (ne : i ≠ i') : S.keyAt i w ≠ S.keyAt i' w' := by
  intro same
  have number := (UInt64.add_right_inj _).mp (key_number same)
  refine ne ?_
  rw [← UInt64.toNat_ofNat_of_lt' lt, number, UInt64.toNat_ofNat_of_lt' lt']

/-- At the start the crew is the one that was there. -/
theorem keeps_start : S.Keeps S.task [] where
  same := .refl S.task
  find := by intro i w at_; cases at_
  few := S.manned

/-- The crew once another unit was given out. -/
theorem Keeps.enlist (h : S.Keeps b works) (w : Work)
    (lt : works.length < UInt64.size) :
    S.Keeps (b.enlist (S.keyAt works.length w) (S.handAt works.length))
      (works ++ [w]) where
  same := h.same.trans ⟨rfl, rfl, rfl, rfl, rfl, rfl⟩
  find := by
    intro i w' at_
    unfold Task.enlist
    dsimp only
    rw [lookup_replaced]
    rcases Nat.lt_or_ge i works.length with old | ge
    · rw [List.getElem?_append_left old] at at_
      rw [if_neg (keys_apart (Nat.lt_trans old lt) lt (Nat.ne_of_lt old))]
      exact h.find at_
    · rw [List.getElem?_append_right ge] at at_
      obtain ⟨last, rfl⟩ := List.getElem?_eq_some_iff.mp at_
      have here : i = works.length := by
        rw [List.length_singleton] at last
        omega
      subst here
      rw [if_pos]
      simp
  few := by
    intro m mem
    unfold Task.enlist at mem
    rw [List.length_append, List.length_singleton]
    rcases List.mem_append.mp mem with old | new
    · exact Nat.lt_succ_of_lt (h.few m (List.mem_filter.mp old).1)
    · rw [List.mem_singleton.mp new]
      exact Nat.lt_succ_self _

/-- The crew once the task itself moved on. -/
theorem Keeps.turn (h : S.Keeps b works) {f : Task → Task}
    (turn : Task.Turn S.now f) : S.Keeps (f b) works where
  same := h.same.trans (turn.same b)
  find := by
    intro i w at_
    rw [turn.crew]
    exact h.find at_
  few := by
    rw [turn.crew]
    exact h.few

/-- To take note leaves the crew alone. -/
theorem Keeps.noteIf (h : S.Keeps b works) (noted : Bool) :
    S.Keeps (b.noteIf S.now noted) works where
  same := h.same.trans (Task.noteIf_same S.now noted b)
  find := by
    intro i w at_
    rw [Task.noteIf_crew]
    exact h.find at_
  few := by
    rw [Task.noteIf_crew]
    exact h.few

/-- A member of its own takes nobody else's leisure away. -/
theorem spare_enlist (spare : S.spare b = true) (key : String) (n : Nat) :
    S.spare (b.enlist key (S.handAt n)) = true := by
  unfold Shift.spare Task.enlist at *
  rw [List.all_eq_true] at *
  intro m mem
  rcases List.mem_append.mp mem with old | new
  · exact spare m (List.mem_filter.mp old).1
  · rw [List.mem_singleton.mp new]
    have beyond : S.d.ledger.workers[S.handAt n]? = none :=
      Array.getElem?_eq_none_iff.mpr (Nat.le_add_right _ n)
    rw [beyond]

end Shift

end TaskLedger
