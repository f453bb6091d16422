/-
A task that only waits for its span to be written.

Three operations may write it: a report that the task's path is done, a
flush, and the end of the build. They come to the same (`Due.posts`). The
task is finished and has an end, so reporting it as done once more changes
nothing, whatever the clock shows; nobody works for it, so its span does
not depend on the time; and what a sweep does before and after its turn
spares it.

Nor does it matter what happens until then, as long as it happens
elsewhere (`elsewhere`): to other paths, to other tasks, to workers that
are not in the task's crew. The task stays due, with the same crew
(`Due.apply`).
-/
import TaskLedger.Proofs.Ledger.UntouchedTasks
import Mathlib.Data.List.Basic

namespace TaskLedger

namespace Ledger

/-- The record of a task's own span, as it would be written now. -/
def ownRecord (task : Task) (l : Ledger) : SpanRecord :=
  task.record (task.span (l.crewOf task)) task.children

/-- What sinks were offered on behalf of a task, in order. -/
def posted (t : TaskId) (l : Ledger) : List (SinkId × SpanRecord) :=
  (l.linesOf t).map fun line => (line.sink, line.record)

/-- A task whose span can be written: it is finished and has an end, nobody
works for it, and its workers and its sink are there. -/
structure Ripe (t : TaskId) (task : Task) (l : Ledger) : Prop where
  found : l.tasks[t]? = some task
  finished : task.status = .finished
  ended : task.ended.isSome = true
  idle : l.idle task = true
  manned : ∀ key w, (key, w) ∈ task.crew → ∃ k, l.workers[w]? = some k
  sink : ∃ k, l.sinks[task.sink]? = some k

/-- It is registered as well, under one path. -/
structure Due (path : String) (t : TaskId) (task : Task) (l : Ledger) : Prop
    extends Ripe t task l where
  registered : l.registered? path = some t
  only : ∀ other, l.registered? other = some t → other = path

variable {l m : Ledger} {t : TaskId} {task : Task} {path : String}

-- =============================================================== sparing

/-- What was written for a task that is spared is not more. -/
theorem Spared.posted (h : Spared t l m) : m.posted t = l.posted t := by
  unfold Ledger.posted
  rw [h.lines]

theorem Spared.crewOf (h : Spared t l m) (task : Task) :
    m.crewOf task = l.crewOf task := by
  unfold Ledger.crewOf
  rw [h.workers]

theorem Spared.ownRecord (h : Spared t l m) (task : Task) :
    m.ownRecord task = l.ownRecord task := by
  unfold Ledger.ownRecord
  rw [h.crewOf]

/-- A task that is ripe stays so while others are dealt with. -/
theorem Ripe.spared (h : Ripe t task l) (spared : Spared t l m) :
    Ripe t task m where
  found := spared.task.trans h.found
  finished := h.finished
  ended := h.ended
  idle := by
    rw [idle_congr spared.workers rfl]
    exact h.idle
  manned := by
    rw [spared.workers]
    exact h.manned
  sink := by
    rw [spared.sinks]
    exact h.sink

-- =============================================================== writing

/-- A line of the journal is one offer, if there is such a sink. -/
theorem notes_posted (origin : Origin) (r : SpanRecord) {s : SinkId}
    (sink : ∃ k, l.sinks[s]? = some k) :
    (l.notes s origin r).map (fun line => (line.sink, line.record))
        = [(s, r)]
      ∧ ∀ line ∈ l.notes s origin r, line.origin = origin := by
  obtain ⟨k, hk⟩ := sink
  unfold notes
  rw [hk]
  refine ⟨rfl, fun line mem => ?_⟩
  rw [List.mem_singleton.mp mem]

/-- From `l` to `m`, exactly the task's own record was offered on its
behalf, and then it was over. -/
def Posts (t : TaskId) (task : Task) (l m : Ledger) : Prop :=
  m.posted t = l.posted t ++ [(task.sink, l.ownRecord task)] ∧ Over t m

/-- What goes on before and after elsewhere does not matter. -/
theorem Posts.between {before after : Ledger} (h : Posts t task l m)
    (first : Spared t before l) (last : Spared t m after) :
    Posts t task before after := by
  obtain ⟨posted, isOver⟩ := h
  refine ⟨?_, last.isOver isOver⟩
  rw [last.posted, posted, first.posted, first.ownRecord]

/-- A ripe task that is concluded has its record written. -/
theorem Ripe.conclude (h : Ripe t task l) :
    Posts t task l (l.conclude t).1 := by
  refine ⟨?_, conclude_over ⟨task, h.found⟩⟩
  obtain ⟨tree, warnings, he⟩ :=
    conclude_of_open h.found (by rw [h.finished]; rfl)
  obtain ⟨offer, origins⟩ := notes_posted (.task t) (l.ownRecord task)
    h.sink
  have own : ((l.notes task.sink (.task t) (l.ownRecord task)).filter
      fun line => line.origin == .task t)
      = l.notes task.sink (.task t) (l.ownRecord task) :=
    List.filter_eq_self.mpr fun line mem =>
      beq_iff_eq.mpr (origins line mem)
  rw [he]
  show ((l.journal ++ l.notes task.sink (.task t)
    (l.ownRecord task)).filter _).map _ = _
  rw [List.filter_append, own, List.map_append, offer]
  rfl

/-- It has it written by a sweep, too, which marks it besides. -/
theorem Ripe.concludeAndMark (h : Ripe t task l) :
    Posts t task l (l.concludeAndMark t).1 := by
  have posts := h.conclude
  unfold Ledger.concludeAndMark
  split
  · next he =>
      rw [he] at posts
      exact posts.between (.refl t l) (spared_markLength t t _)
  · next he =>
      rw [he] at posts
      exact posts

/-- To report it as done once more changes nothing. -/
theorem Ripe.finish (h : Ripe t task l) : l.finish t = l :=
  onTask_of_fixed h.found (task.finish_of_finished l.now h.finished h.ended)

/-- At the end of the build there is nothing left to do for such a task but
to write its span. -/
theorem Ripe.wrapUp (h : Ripe t task l) : Posts t task l (l.wrapUp t).1 := by
  unfold Ledger.wrapUp
  rw [h.found]
  dsimp only
  rw [if_pos h.idle, h.finish]
  exact h.concludeAndMark

/-- Settling its path writes its span. -/
theorem Due.settle (h : Due path t task l) :
    Posts t task l (l.settle path).1 := by
  have gone : Spared t l (l.unregister path) := ⟨rfl, rfl, rfl, rfl⟩
  unfold Ledger.settle
  rw [h.registered]
  exact (h.toRipe.spared gone).concludeAndMark.between gone (.refl t _)

/-- To report its path as done once more is to settle it. -/
theorem Due.finishTask (h : Due path t task l) :
    Posts t task l (l.finishTask path).1 := by
  unfold Ledger.finishTask
  rw [h.registered]
  dsimp only
  rw [h.toRipe.finish, h.found]
  dsimp only
  rw [if_pos h.idle]
  exact h.settle

theorem Due.ready (h : Due path t task l) : l.ready t = true := by
  rw [ready_of h.found, h.finished, h.idle]
  rfl

/-- A flush comes to its path, and settles it. -/
theorem Due.flush (h : Due path t task l) : Posts t task l l.flush.1 := by
  obtain ⟨before, after, split, fresh⟩ :=
    List.eq_append_cons_of_mem (mem_readyPaths_of h.registered h.ready)
  have first : Spared t l (l.flushOver before).1 :=
    spared_flushOver fun p mem there => by
      rw [h.only p there] at mem
      exact fresh mem
  -- its turn
  have due : Due path t task (l.flushOver before).1 :=
    { h.toRipe.spared first with
      registered := by
        rw [registered?_flushOver, if_neg fresh]
        exact h.registered
      only := by
        intro other there
        rw [registered?_flushOver] at there
        split at there
        · cases there
        · exact h.only other there }
  have posts := due.settle
  have last := spared_flushOver_over after posts.2
  unfold Ledger.flush
  rw [split, flushOver, countOver_append]
  exact posts.between first last

/-- The end of the build comes to the task, and wraps it up. -/
theorem Due.endBuild (h : Due path t task l) :
    Posts t task l l.endBuild.1 := by
  have mem : t ∈ l.byId.map Prod.snd := by
    have sorted : (path, t) ∈ l.byId :=
      List.mem_mergeSort.mpr (mem_of_lookup h.registered)
    exact List.mem_map_of_mem (f := Prod.snd) sorted
  obtain ⟨before, after, split, fresh⟩ := List.eq_append_cons_of_mem mem
  have emptied : Spared t l { l with registry := [] } :=
    ⟨rfl, rfl, rfl, rfl⟩
  have first := emptied.trans (spared_wrapUps before (.inl fresh))
  have posts := (h.toRipe.spared first).wrapUp
  have last := spared_wrapUps after (.inr posts.2)
  unfold Ledger.endBuild drainOver
  rw [split, countOver_append]
  exact posts.between first last

end Ledger

namespace LedgerOp

open Ledger

/-- The operations that write the span of a task that is due under a
path. -/
def finalizes (path : String) : LedgerOp → Bool
  | finishTask p => p == path
  | flush | endBuild => true
  | _ => false

/-- What an operation offers to sinks on behalf of a task. -/
def writtenFor (t : TaskId) (op : LedgerOp) (l : Ledger) :
    List (SinkId × SpanRecord) :=
  ((op.apply l).1.posted t).drop (l.posted t).length

/-- An operation is for other paths than this one, other tasks, and workers
that are not among these. -/
def elsewhere (path : String) (t : TaskId) (crew : List WorkerId)
    (op : LedgerOp) : Bool :=
  match op with
  | startTask p _ _ | finishTask p => p != path
  | flush | endBuild => false
  | startWorker w | endWorker w => !crew.contains w
  | _ => op.entry? != some (.task t)

end LedgerOp

namespace Ledger

variable {l m : Ledger} {t : TaskId} {task : Task} {path : String}
  {op : LedgerOp}

/-- Whichever of them comes writes the task's own record, once. -/
theorem Due.posts (h : Due path t task l) (finalizes : op.finalizes path) :
    Posts t task l (op.apply l).1 := by
  cases op with
  | finishTask p =>
      obtain rfl : p = path := eq_of_beq finalizes
      exact h.finishTask
  | flush => exact h.flush
  | endBuild => exact h.endBuild
  | _ => cases finalizes

/-- The operation that finalizes a due task writes the record it has now. -/
theorem Due.writtenFor (h : Due path t task l)
    (finalizes : op.finalizes path) :
    op.writtenFor t l = [(task.sink, l.ownRecord task)] := by
  unfold LedgerOp.writtenFor
  rw [(h.posts finalizes).1, List.drop_left]

-- ================================================================= frame

/-- A worker that is not among those that an operation is for stays as it
is. -/
theorem worker_elsewhere {crew : List WorkerId} {w : WorkerId} {k : Worker}
    (elsewhere : op.elsewhere path t crew = true) (member : w ∈ crew)
    (found : l.workers[w]? = some k) :
    (op.apply l).1.workers[w]? = some k := by
  rw [LedgerOp.worker_apply op found]
  cases op with
  | startWorker v | endWorker v =>
      have ne : v ≠ w := by
        rintro rfl
        simp [LedgerOp.elsewhere, member] at elsewhere
      simp only [LedgerOp.step?, if_neg ne, Worker.after]
  | report e v =>
      by_cases here : v = w
      · simp only [LedgerOp.step?, if_pos here, Worker.after]
      · simp only [LedgerOp.step?, if_neg here, Worker.after]
  | _ => rfl

/-- A task stays as it is. -/
theorem Due.task_elsewhere (h : Due path t task l) {crew : List WorkerId}
    (elsewhere : op.elsewhere path t crew = true) :
    (op.apply l).1.tasks[t]? = some task := by
  cases scheduling : op.scheduling with
  | true =>
      cases op with
      | startTask p project variant =>
          exact startTask_task p project variant h.found
      | finishTask p =>
          have ne : p ≠ path := bne_iff_ne.mp elsewhere
          have spared : Spared t l (l.finishTask p).1 :=
            spared_finishTask fun u hu => .inl (by
              rintro rfl
              exact ne (h.only p hu))
          exact spared.task.trans h.found
      | flush | endBuild => cases elsewhere
      | _ => cases scheduling
  | false =>
      refine LedgerOp.task_aside scheduling ?_ h.found
      cases op with
      | startTask | finishTask | flush | endBuild => cases scheduling
      | startWorker | endWorker => exact fun e => by cases e
      | _ => exact bne_iff_ne.mp elsewhere

/-- And so does its place in the registry. -/
theorem Due.registered_elsewhere (h : Due path t task l)
    {crew : List WorkerId} (elsewhere : op.elsewhere path t crew = true) :
    (op.apply l).1.registered? path = some t := by
  cases scheduling : op.scheduling with
  | false =>
      unfold registered?
      rw [LedgerOp.registry_apply scheduling]
      exact h.registered
  | true =>
      cases op with
      | startTask p project variant =>
          have ne : path ≠ p := (bne_iff_ne.mp elsewhere).symm
          show (l.startTask p project variant).1.registered? path = _
          rcases startTask_cases p project variant l with ⟨f, he⟩
              | ⟨id, marks, warnings, -, he⟩
          · rw [he]
            exact h.registered
          · rw [he]
            show List.lookup path _ = _
            rw [lookup_replaced, if_neg ne]
            exact h.registered
      | finishTask p =>
          have ne : path ≠ p := (bne_iff_ne.mp elsewhere).symm
          exact (registered?_finishTask_other ne l).trans h.registered
      | flush | endBuild => cases elsewhere
      | _ => cases scheduling

/-- No sink ever goes away. -/
theorem sink_apply (op : LedgerOp) {s : SinkId}
    (h : ∃ k, l.sinks[s]? = some k) :
    ∃ k, (op.apply l).1.sinks[s]? = some k := by
  have kept : Kept (fun _ => True) fun _ l => ∃ k, l.sinks[s]? = some k :=
    .of_change fun h c => by
      obtain ⟨k, hk⟩ := h
      cases c with
      | quiet q =>
          cases q with
          | clock | aside | turned | hired => exact ⟨k, hk⟩
          | number s' => exact modify_old s' hk
          | opened => exact modify_old _ hk
      | concluded | enlisted | started | ended | offered => exact ⟨k, hk⟩
      | reported => exact modify_old _ hk
  exact kept.apply (b := 0) (fun _ _ => trivial) h

/-- A task that is due stays so while things happen elsewhere, with the
same crew. -/
theorem Due.apply (h : Due path t task l)
    (elsewhere : op.elsewhere path t (task.crew.map Prod.snd) = true) :
    Due path t task (op.apply l).1
      ∧ (op.apply l).1.crewOf task = l.crewOf task := by
  have still : ∀ e ∈ task.crew,
      (op.apply l).1.workers[e.2]? = l.workers[e.2]? := by
    rintro ⟨key, w⟩ mem
    obtain ⟨k, hk⟩ := h.manned key w mem
    exact (worker_elsewhere elsewhere (List.mem_map_of_mem mem) hk).trans
      hk.symm
  have crew : (op.apply l).1.crewOf task = l.crewOf task :=
    List.filterMap_congr still
  refine ⟨{
    found := h.task_elsewhere elsewhere
    finished := h.finished
    ended := h.ended
    idle := ?_
    manned := ?_
    sink := sink_apply op h.sink
    registered := h.registered_elsewhere elsewhere
    only := ?_ }, crew⟩
  · unfold idle
    rw [crew]
    exact h.idle
  · intro key w mem
    rw [still (key, w) mem]
    exact h.manned key w mem
  · intro other there
    rcases LedgerOp.registered_back there with old | ⟨unknown, -⟩
    · exact h.only other old
    · rw [h.found] at unknown
      cases unknown

-- ================================================================= sound

/-- In a history from nothing, who is registered is at home there, crews
name workers that are there, a finished task has an end, and a task's sink
is there. -/
structure Sound (l : Ledger) : Prop where
  homed : Homed l
  manned : ∀ {t : TaskId} {task : Task} {key : String} {w : WorkerId},
    l.tasks[t]? = some task → (key, w) ∈ task.crew →
    ∃ k, l.workers[w]? = some k
  ended : ∀ {t : TaskId} {task : Task}, l.tasks[t]? = some task →
    task.status = .finished → task.ended.isSome = true
  sink : ∀ {t : TaskId} {task : Task}, l.tasks[t]? = some task →
    ∃ k, l.sinks[task.sink]? = some k

theorem Blank.sound (h : l.Blank) : Sound l where
  homed := h.homed
  manned := by intro t task key w found; simp [h.tasks] at found
  ended := by intro t task found; simp [h.tasks] at found
  sink := by intro t task found; simp [h.tasks] at found

/-- What is registered and ready is due. -/
theorem Sound.due (h : Sound l) (registered : l.registered? path = some t)
    (ready : l.ready t = true) : ∃ task, Due path t task l := by
  obtain ⟨task, found, -⟩ := h.homed path t registered
  rw [ready_of found, Bool.and_eq_true_iff] at ready
  have finished := eq_of_beq ready.1
  exact ⟨task, {
    found, finished
    ended := h.ended found finished
    idle := ready.2
    manned := fun _ _ mem => h.manned found mem
    sink := h.sink found
    registered
    only := fun _ there => h.homed.only registered there }⟩

end Ledger

/-- A task that is finished after a move of its lifecycle has an end. -/
theorem Task.Turn.ended {now : Instant} {f : Task → Task}
    (turn : Task.Turn now f) {task : Task}
    (before : task.status = .finished → task.ended.isSome = true) :
    (f task).status = .finished → (f task).ended.isSome = true := by
  cases turn with
  | await =>
      unfold Task.await
      split
      · exact fun e => by cases e
      · exact fun e => by cases e
      · exact before
  | close =>
      unfold Task.close
      split
      · exact before
      · exact fun e => by cases e
  | finish =>
      unfold Task.finish
      split
      · exact before
      · exact fun _ => rfl
  | attach =>
      unfold Task.attach
      split <;> exact before

namespace Ledger

variable {l : Ledger} {t : TaskId} {task : Task} {op : LedgerOp}

/-- A single change keeps the ends and the sinks of tasks. -/
theorem ended_kept : Kept (fun _ => True) fun _ l =>
    ∀ (t : TaskId) (task : Task), l.tasks[t]? = some task →
      (task.status = .finished → task.ended.isSome = true)
        ∧ ∃ k, l.sinks[task.sink]? = some k := by
  refine .of_change fun {a l m} h c => ?_
  -- a change of one task that keeps its sink, and its end if it is finished
  have modified {u : TaskId} {f : Task → Task} {t : TaskId} {task : Task}
      (sink : ∀ task, (f task).sink = task.sink)
      (ended : ∀ task, (task.status = .finished → task.ended.isSome = true) →
        (f task).status = .finished → (f task).ended.isSome = true)
      (found : (l.tasks.modify u f)[t]? = some task) :
      (task.status = .finished → task.ended.isSome = true)
        ∧ ∃ k, l.sinks[task.sink]? = some k := by
    rcases modify_cases found with ⟨-, old, ho, rfl⟩ | ⟨-, old⟩
    · obtain ⟨before, there⟩ := h t old ho
      rw [sink]
      exact ⟨ended old before, there⟩
    · exact h t task old
  intro t task found
  cases c with
  | quiet q =>
      cases q with
      | clock | aside | hired => exact h t task found
      | number s =>
          obtain ⟨ended, k, hk⟩ := h t task found
          exact ⟨ended, modify_old s hk⟩
      | opened sink next =>
          rcases push_back found with old | ⟨-, rfl⟩
          · obtain ⟨ended, k, hk⟩ := h t task old
            exact ⟨ended, modify_old _ hk⟩
          · exact ⟨fun e => (by cases e), modify_old _ sink⟩
      | turned u turn =>
          exact modified (fun task => (turn.same task).sink)
            (fun _ before => turn.ended before) found
  | concluded =>
      exact modified (f := Task.concluded) (fun _ => rfl)
        (fun _ _ e => by cases e) found
  | enlisted key =>
      exact modified (f := Task.enlist key l.workers.size) (fun _ => rfl)
        (fun _ before => before) found
  | started | ended | offered => exact h t task found
  | @reported u w reporter =>
      obtain ⟨ended, k, hk⟩ := modified
        (f := Task.noteReport l.now (l.idle reporter))
        (by intro task; unfold Task.noteReport; split <;> rfl)
        (by
          intro task before
          unfold Task.noteReport
          split
          · exact fun _ => rfl
          · exact before) found
      exact ⟨ended, modify_old _ hk⟩

/-- Whatever is done, a ledger that is sound stays sound. -/
theorem Sound.apply (h : Sound l) (op : LedgerOp) :
    Sound (op.apply l).1 := by
  have kept : ∀ (t : TaskId) (task : Task),
      (op.apply l).1.tasks[t]? = some task →
      (task.status = .finished → task.ended.isSome = true)
        ∧ ∃ k, (op.apply l).1.sinks[task.sink]? = some k :=
    ended_kept.apply (b := 0) (fun _ _ => trivial)
      fun _ _ found => ⟨h.ended found, h.sink found⟩
  refine ⟨LedgerOp.homed_apply h.homed, ?_, fun found => (kept _ _ found).1,
    fun found => (kept _ _ found).2⟩
  intro t task key w found mem
  have member : (key, w) ∈ (op.apply l).1.crewAt t := by
    rw [crewAt_of found]
    exact mem
  rcases LedgerOp.member_back member with old | ⟨-, -, path, kind, hired⟩
  · obtain ⟨before, ht⟩ := known_of_member old
    rw [crewAt_of ht] at old
    obtain ⟨k, hk⟩ := h.manned ht old
    exact ⟨_, LedgerOp.worker_apply op hk⟩
  · exact ⟨_, hired⟩

end Ledger

end TaskLedger
