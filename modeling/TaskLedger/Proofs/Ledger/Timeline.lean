/-
What a record says of its crew, told by the history of its workers.

A crew is a table of handles, and a worker can be reached through a handle
that the table no longer has: one that was replaced under its key goes on
being started and ended, and so does a stand-in that was in no table at all.
So the history is told by handles. Each addition notes the handle that came
with it, and the timeline of a key is what happened to the handle that was
added last under it (`timeline?`): when it was added, and when it last started
and ended.

`Tracks` holds through every operation whatever: a crew has under each key the
handle that was added last, and of each handle that was ever added the ledger
knows just what happened to it. What is read off the whole crew is then read
off the timelines, and since the latest, the least and the count of some
numbers do not depend on how these are listed (`max?_perm`, `min?_perm`),
neither the order in which the keys came nor that of the table is seen.
-/
import Mathlib.Data.List.Dedup
import TaskLedger.Proofs.Ledger.TaskEffects
import TaskLedger.Proofs.Ledger.Standstill

namespace TaskLedger

-- ================================================================= events

/-- What can happen to a crew and to workers. -/
inductive CrewEvent
  /-- A worker was added under a key. -/
  | added (key : String) (w : WorkerId) (now : Instant)
  /-- A worker started. -/
  | started (w : WorkerId) (now : Instant)
  /-- A worker ended. -/
  | ended (w : WorkerId) (now : Instant)
  deriving DecidableEq, Repr

/-- When a worker was added, started and ended. -/
structure Timeline where
  created : Instant
  started : Option Instant
  ended : Option Instant
  deriving DecidableEq, Repr

/-- The nanoseconds from the addition to the start; none before it started,
or if the clock went back. -/
def Timeline.wait (line : Timeline) : Int :=
  match line.started with
  | some s => max 0 (s.nanos - line.created.nanos)
  | none => 0

/-- What is known of a worker. -/
def Worker.timeline (k : Worker) : Timeline :=
  ⟨k.created, k.started, k.ended⟩

-- ============================================================== aggregates

/-- The largest of some numbers is the same however they are listed. -/
theorem max?_perm {xs ys : List Int} (h : xs.Perm ys) : xs.max? = ys.max? := by
  cases greatest : ys.max? with
  | none =>
      rw [List.max?_eq_none_iff] at greatest ⊢
      exact (greatest ▸ h).eq_nil
  | some a =>
      rw [List.max?_eq_some_iff] at greatest ⊢
      exact ⟨h.mem_iff.mpr greatest.1,
        fun b mem => greatest.2 b (h.mem_iff.mp mem)⟩

/-- So is the least. -/
theorem min?_perm {xs ys : List Int} (h : xs.Perm ys) : xs.min? = ys.min? := by
  cases least : ys.min? with
  | none =>
      rw [List.min?_eq_none_iff] at least ⊢
      exact (least ▸ h).eq_nil
  | some a =>
      rw [List.min?_eq_some_iff] at least ⊢
      exact ⟨h.mem_iff.mpr least.1,
        fun b mem => least.2 b (h.mem_iff.mp mem)⟩

theorem Instant.max_nanos (a b : Instant) :
    (a.max b).nanos = Max.max a.nanos b.nanos := by
  unfold Instant.max
  split <;> omega

/-- The last of some instants is the one of the most nanoseconds. -/
theorem Instant.latest?_nanos (ts : List Instant) :
    (latest? ts).map nanos = (ts.map nanos).max? := by
  cases ts with
  | nil => rfl
  | cons t rest =>
      rw [List.map_cons, List.max?_cons', latest?, Option.map_some]
      congr 1
      induction rest generalizing t with
      | nil => rfl
      | cons b rest ih =>
          rw [List.foldl_cons, List.map_cons, List.foldl_cons,
            ← max_nanos, ih]

theorem Duration.min_nanos (a b : Duration) :
    (a.min b).nanos = Min.min a.nanos b.nanos := by
  unfold Duration.min
  split <;> omega

theorem Duration.clamp_nanos (d : Duration) :
    d.clamp.nanos = Max.max 0 d.nanos := by
  have none : zero.nanos = 0 := rfl
  unfold clamp Duration.max
  split <;> omega

namespace Worker

theorem wait_nanos (k : Worker) : k.wait.nanos = k.timeline.wait := by
  unfold wait Timeline.wait timeline
  cases k.started with
  | none => rfl
  | some s => exact Duration.clamp_nanos _

variable {crew : List Worker} {lines : List Timeline}
  (same : (crew.map timeline).Perm lines)

include same

/-- All of a crew have finished if each of its timelines has an end. -/
theorem allFinished_iff :
    allFinished crew = true ↔ ∀ line ∈ lines, line.ended.isSome = true := by
  unfold allFinished
  rw [List.all_eq_true]
  constructor
  · intro all line mem
    obtain ⟨k, member, rfl⟩ := List.mem_map.mp (same.mem_iff.mpr mem)
    exact all k member
  · intro all k mem
    exact all k.timeline (same.mem_iff.mp (List.mem_map_of_mem mem))

/-- The crew and its timelines end at the same times, in some order. -/
theorem ends_perm :
    ((crew.filterMap ended).map Instant.nanos).Perm
      ((lines.filterMap Timeline.ended).map Instant.nanos) := by
  have ends := (same.filterMap Timeline.ended).map Instant.nanos
  rwa [List.filterMap_map] at ends

/-- So the last end of the crew is the last in its timelines. -/
theorem lastEnd?_nanos :
    (lastEnd? crew).map Instant.nanos
      = ((lines.filterMap Timeline.ended).map Instant.nanos).max? := by
  unfold lastEnd?
  rw [Instant.latest?_nanos]
  exact max?_perm (ends_perm same)

/-- The least wait of the crew is the least in its timelines. -/
theorem leastWait_nanos :
    (leastWait crew).nanos = ((lines.map Timeline.wait).min?).getD 0 := by
  have waits : (crew.map fun k => k.wait.nanos).Perm
      (lines.map Timeline.wait) := by
    have waits := same.map Timeline.wait
    rw [List.map_map] at waits
    rwa [funext wait_nanos]
  rw [← min?_perm waits]
  cases crew with
  | nil => rfl
  | cons k rest =>
      rw [List.map_cons, List.min?_cons', Option.getD_some, leastWait]
      clear same waits
      generalize k.wait = d
      induction rest generalizing d with
      | nil => rfl
      | cons j rest ih =>
          rw [List.map_cons, List.map_cons, List.foldl_cons, List.foldl_cons,
            ih, Duration.min_nanos]

end Worker

namespace Task

/-- When a task ended is the latest of its own end and its workers'. -/
theorem end?_nanos (task : Task) (crew : List Worker) :
    (task.end? crew).map Instant.nanos
      = ((task.ended.toList ++ crew.filterMap Worker.ended).map
          Instant.nanos).max? := by
  have others := Instant.latest?_nanos (crew.filterMap Worker.ended)
  change (Worker.lastEnd? crew).map Instant.nanos = _ at others
  unfold end?
  cases own : task.ended with
  | none => exact others
  | some a =>
      rw [Option.toList_some, List.cons_append, List.nil_append,
        List.map_cons, List.max?_cons, ← others]
      cases Worker.lastEnd? crew with
      | none => rfl
      | some b => exact congrArg some (Instant.max_nanos a b)

variable {crew : List Worker} {lines : List Timeline}

/-- A task lasts from its start to the last of its own end and its crew's, and
no time at all if the clock went back. -/
theorem duration_nanos (task : Task)
    (same : (crew.map Worker.timeline).Perm lines) :
    (task.duration crew).nanos
      = ((task.ended.toList
          ++ lines.filterMap Timeline.ended).map Instant.nanos).max?.elim 0
          fun last => max 0 (last - task.start.nanos) := by
  have ends : ((task.ended.toList ++ crew.filterMap Worker.ended).map
      Instant.nanos).Perm ((task.ended.toList
        ++ lines.filterMap Timeline.ended).map Instant.nanos) := by
    rw [List.map_append, List.map_append]
    exact (Worker.ends_perm same).append_left _
  rw [← max?_perm ends, ← end?_nanos]
  unfold duration
  cases task.end? crew with
  | none => rfl
  | some e => exact Duration.clamp_nanos _

end Task

namespace CrewEvent

def added? (key : String) : CrewEvent → Option (WorkerId × Instant)
  | added key' w now => if key' = key then some (w, now) else none
  | _ => none

def started? (w : WorkerId) : CrewEvent → Option Instant
  | started v now => if v = w then some now else none
  | _ => none

def ended? (w : WorkerId) : CrewEvent → Option Instant
  | ended v now => if v = w then some now else none
  | _ => none

/-- What the last event says that says something. -/
def last {α : Type} (reads : CrewEvent → Option α) (seen : List CrewEvent) :
    Option α := (seen.filterMap reads).getLast?

/-- The timeline of a key: that of the worker that was added last. -/
def timeline? (key : String) (seen : List CrewEvent) : Option Timeline :=
  (last (added? key) seen).map fun (w, created) =>
    { created, started := last (started? w) seen,
      ended := last (ended? w) seen }

/-- A further event is the last to say something if it says anything. -/
theorem last_more {α : Type} (reads : CrewEvent → Option α)
    (seen : List CrewEvent) (event : Option CrewEvent) :
    last reads (seen ++ event.toList)
      = (event.bind reads).or (last reads seen) := by
  unfold last
  rw [List.filterMap_append]
  cases event with
  | none =>
      rw [Option.toList_none, List.filterMap_nil, List.append_nil]
      rfl
  | some event =>
      rw [Option.toList_some, Option.bind_some]
      cases h : reads event with
      | none =>
          rw [List.filterMap_cons_none h, List.filterMap_nil,
            List.append_nil]
          rfl
      | some a =>
          rw [List.filterMap_cons_some h, List.filterMap_nil,
            List.getLast?_concat]
          rfl

/-- It was said by an event. -/
theorem last_mem {α : Type} {reads : CrewEvent → Option α}
    {seen : List CrewEvent} {a : α} (h : last reads seen = some a) :
    ∃ event ∈ seen, reads event = some a :=
  List.mem_filterMap.mp (List.mem_of_getLast? h)

theorem added_of_last {key : String} {seen : List CrewEvent} {w : WorkerId}
    {now : Instant} (h : last (added? key) seen = some (w, now)) :
    .added key w now ∈ seen := by
  obtain ⟨event, mem, reads⟩ := last_mem h
  cases event with
  | added key' v then_ =>
      obtain ⟨rfl, same⟩ := Option.ite_none_right_eq_some.mp reads
      obtain ⟨rfl, rfl⟩ := Prod.mk.inj (Option.some.inj same)
      exact mem
  | started | ended => cases reads

end CrewEvent

namespace LedgerOp

open Ledger CrewEvent

/-- What an operation notes of the crew of a task and of all workers. -/
def event? (t : TaskId) (op : LedgerOp) (l : Ledger) : Option CrewEvent :=
  match op with
  | enlist e key _ =>
    if e = .task t then some (.added key l.workers.size l.now) else none
  | startWorker w =>
    if w < l.workers.size then some (.started w l.now) else none
  | endWorker w =>
    if w < l.workers.size then some (.ended w l.now) else none
  | _ => none

/-- What a history notes of them. -/
def events (t : TaskId) : List LedgerOp → Ledger → List CrewEvent :=
  noted fun op l => (op.event? t l).toList

variable {op : LedgerOp} {l : Ledger} {t : TaskId} {w : WorkerId}
  {key : String}

/-- Just an entry in the crew adds a worker under a key, with the next handle.
-/
theorem event_adds :
    (op.event? t l).bind (added? key)
      = if op.enters? t = some key then some (l.workers.size, l.now)
        else none := by
  cases op with
  | enlist e key' kind =>
      by_cases here : e = .task t
      · simp [event?, enters?, here, added?]
      · simp [event?, enters?, here]
  | startWorker v | endWorker v =>
      by_cases lt : v < l.workers.size <;> simp [event?, enters?, lt, added?]
  | _ => rfl

/-- Just a start of a worker that is on record says when it started. -/
theorem event_starts (lt : w < l.workers.size) :
    (op.event? t l).bind (started? w)
      = if op.step? w = some .start then some l.now else none := by
  cases op with
  | enlist e key kind =>
      by_cases here : e = .task t <;> simp [event?, step?, here, started?]
  | startWorker v =>
      by_cases same : v = w
      · subst same
        simp [event?, step?, lt, started?]
      · by_cases lt' : v < l.workers.size <;>
          simp [event?, step?, lt', started?, same]
  | endWorker v =>
      by_cases lt' : v < l.workers.size <;>
        by_cases same : v = w <;> simp [event?, step?, lt', started?, same]
  | report e v => by_cases same : v = w <;> simp [event?, step?, same]
  | _ => rfl

/-- Just an end of it says when it ended. -/
theorem event_ends (lt : w < l.workers.size) :
    (op.event? t l).bind (ended? w)
      = if op.step? w = some .stop then some l.now else none := by
  cases op with
  | enlist e key kind =>
      by_cases here : e = .task t <;> simp [event?, step?, here, ended?]
  | endWorker v =>
      by_cases same : v = w
      · subst same
        simp [event?, step?, lt, ended?]
      · by_cases lt' : v < l.workers.size <;>
          simp [event?, step?, lt', ended?, same]
  | startWorker v =>
      by_cases lt' : v < l.workers.size <;>
        by_cases same : v = w <;> simp [event?, step?, lt', ended?, same]
  | report e v => by_cases same : v = w <;> simp [event?, step?, same]
  | _ => rfl

/-- Nothing is noted of a worker that is still to come. -/
theorem event_beyond (le : l.workers.size ≤ w) :
    (op.event? t l).bind (started? w) = none
      ∧ (op.event? t l).bind (ended? w) = none := by
  cases op with
  | enlist e key kind =>
      by_cases here : e = .task t <;> simp [event?, here, started?, ended?]
  | startWorker v | endWorker v =>
      by_cases lt : v < l.workers.size
      · have ne : v ≠ w := fun same => Nat.not_lt.mpr le (same ▸ lt)
        simp [event?, lt, started?, ended?, ne]
      · simp [event?, lt]
  | _ => exact ⟨rfl, rfl⟩

end LedgerOp

namespace Ledger

open CrewEvent LedgerOp

/-- The crew of a task and the workers that were ever in it are as the events
say. -/
structure Tracks (t : TaskId) (seen : List CrewEvent) (l : Ledger) :
    Prop where
  known : Known t l
  single : (l.keysAt t).Nodup
  lookup : ∀ key, (l.crewAt t).lookup key
    = (last (added? key) seen).map Prod.fst
  worker : ∀ key w now, .added key w now ∈ seen →
    ∃ k, l.workers[w]? = some k ∧ k.standIn = false
      ∧ k.timeline = ⟨now, last (started? w) seen, last (ended? w) seen⟩
  beyond : ∀ w, l.workers.size ≤ w →
    last (started? w) seen = none ∧ last (ended? w) seen = none

variable {t : TaskId} {seen : List CrewEvent} {l : Ledger} {op : LedgerOp}

/-- What happens to a worker of the crew is noted. -/
theorem Tracks.step {w : WorkerId} {now : Instant} {k : Worker}
    (found : l.workers[w]? = some k) (real : k.standIn = false)
    (told : k.timeline
      = ⟨now, last (started? w) seen, last (ended? w) seen⟩)
    (op : LedgerOp) (t : TaskId) :
    ∃ k', (op.apply l).1.workers[w]? = some k' ∧ k'.standIn = false
      ∧ k'.timeline
        = ⟨now, last (started? w) (seen ++ (op.event? t l).toList),
            last (ended? w) (seen ++ (op.event? t l).toList)⟩ := by
  have lt : w < l.workers.size := (Array.getElem?_eq_some_iff.mp found).1
  have clock : l.clockOf k = l.now := by
    unfold clockOf
    rw [real]
    rfl
  have found' := op.worker_apply found
  rw [clock] at found'
  obtain ⟨made, starts, ends⟩ := Timeline.mk.inj told
  refine ⟨_, found', ?_, ?_⟩
  · unfold Worker.after
    split <;> exact real
  · rw [last_more, last_more, event_starts lt, event_ends lt]
    unfold Worker.after Worker.timeline
    cases step : op.step? w with
    | none => simp [made, starts, ends]
    | some a => cases a <;> simp [made, starts, ends]

/-- Whatever is done, the crew and its workers stay what the events say of them.
-/
theorem Tracks.apply (h : Tracks t seen l) (op : LedgerOp) :
    Tracks t (seen ++ (op.event? t l).toList) (op.apply l).1 := by
  obtain ⟨task, found⟩ := h.known
  have grown : l.workers.size ≤ (op.apply l).1.workers.size :=
    size_le_of_old fun found => ⟨_, op.worker_apply found⟩
  have crew := crewAt_apply op found
  refine ⟨?_, ?_, ?_, ?_, ?_⟩
  · obtain ⟨task', found', -⟩ := op.task_apply found
    exact ⟨task', found'⟩
  · have single := h.single
    unfold keysAt at single ⊢
    rw [crew]
    split
    · exact nodup_replaced _ _ single
    · exact single
  -- the latest worker under a key is the one that came last
  · intro key
    rw [crew, last_more, event_adds]
    cases entering : op.enters? t with
    | none => exact h.lookup key
    | some key' =>
        dsimp only
        rw [lookup_replaced, h.lookup key]
        by_cases same : key = key'
        · subst same
          rw [if_pos rfl, if_pos rfl]
          rfl
        · rw [if_neg same, if_neg fun e => same (Option.some.inj e).symm]
          rfl
  · intro key w now mem
    rcases List.mem_append.mp mem with old | new
    · obtain ⟨k, there, real, told⟩ := h.worker key w now old
      exact Tracks.step there real told op t
    · -- it came just now, and nothing has happened to it
      have event : op.event? t l = some (.added key w now) :=
        Option.mem_toList.mp new
      cases op with
      | enlist e key' kind =>
          obtain ⟨rfl, same⟩ := Option.ite_none_right_eq_some.mp event
          cases same
          obtain ⟨started, ended⟩ := h.beyond _ (Nat.le_refl l.workers.size)
          have hired : (l.enlist t key kind).workers[l.workers.size]?
              = some { path := task.path, kind, created := l.now } := by
            rw [enlist_of_found found]
            exact Array.getElem?_push_size
          refine ⟨_, hired, rfl, ?_⟩
          rw [last_more, last_more, event, started, ended]
          rfl
      | startWorker v | endWorker v =>
          cases (Option.ite_none_right_eq_some.mp event).2
      | _ => cases event
  -- of a worker that is still to come, nothing is told
  · intro w le
    obtain ⟨started, ended⟩ := h.beyond w (Nat.le_trans grown le)
    obtain ⟨first, second⟩ : (op.event? t l).bind (started? w) = none
        ∧ (op.event? t l).bind (ended? w) = none :=
      event_beyond (Nat.le_trans grown le)
    rw [last_more, last_more, first, second, started, ended]
    exact ⟨rfl, rfl⟩

/-- And so through every history that starts at a new record. -/
theorem tracks_run {task : Task} (found : l.tasks[t]? = some task)
    (new : task.New) (ops : List LedgerOp) :
    Tracks t (events t ops l) (LedgerOp.run ops l).1 := by
  have empty : l.crewAt t = [] := (crewAt_of found).trans new.crew
  have start : Tracks t [] l := {
    known := ⟨task, found⟩
    single := by
      unfold keysAt
      rw [empty]
      exact List.nodup_nil
    lookup := fun key => by
      rw [empty]
      rfl
    worker := fun _ _ _ mem => absurd mem List.not_mem_nil
    beyond := fun _ _ => ⟨rfl, rfl⟩ }
  have after := DispatchOp.run_noted_keeps (P := Tracks t)
    (fun op h => h.apply op) ops start
  rwa [List.nil_append] at after

end Ledger

namespace LedgerOp

open Ledger CrewEvent

variable {t : TaskId} {seen : List CrewEvent} {l : Ledger} {task : Task}

/-- The workers of a crew, in whatever order the table has them, go by the
timelines of their keys. -/
theorem timelines_of_crew (h : Tracks t seen l)
    (found : l.tasks[t]? = some task) {crew : List (String × WorkerId)}
    (perm : crew.Perm task.crew) {keys : List String}
    (all : (task.crew.map Prod.fst).Perm keys) :
    ((l.crewOf { task with crew }).map Worker.timeline).Perm
        (keys.filterMap fun key => timeline? key seen)
      ∧ ∀ key ∈ keys, (timeline? key seen).isSome = true := by
  have lookup := h.lookup
  have single := h.single
  unfold keysAt at single
  rw [crewAt_of found] at lookup single
  -- a member and its key
  have member {key : String} {w : WorkerId} (mem : (key, w) ∈ task.crew) :
      ∃ k, l.workers[w]? = some k
        ∧ timeline? key seen = some k.timeline := by
    have there := (lookup key).symm.trans (lookup_of_mem single mem)
    obtain ⟨⟨v, now⟩, added, rfl⟩ := Option.map_eq_some_iff.mp there
    obtain ⟨k, present, -, told⟩ := h.worker key v now (added_of_last added)
    refine ⟨k, present, ?_⟩
    unfold timeline?
    rw [added, told]
    rfl
  have told : (l.crewOf { task with crew }).map Worker.timeline
      = (crew.map Prod.fst).filterMap fun key => timeline? key seen := by
    unfold crewOf
    rw [List.map_filterMap, List.filterMap_map]
    refine List.filterMap_congr fun (key, w) mem => ?_
    obtain ⟨k, present, line⟩ := member (perm.mem_iff.mp mem)
    dsimp only [Function.comp]
    rw [present, line]
    rfl
  have listed := (perm.map Prod.fst).trans all
  refine ⟨told ▸ listed.filterMap _, fun _ mem => ?_⟩
  obtain ⟨⟨key, w⟩, there, rfl⟩ := List.mem_map.mp (all.mem_iff.mpr mem)
  obtain ⟨k, -, line⟩ := member there
  exact Option.isSome_iff_exists.mpr ⟨_, line⟩

/-- After any history of a new record, with handles of whatever workers, the
count of its workers is that of the different keys that were ever added, and
what it says of the crew as a whole is read off their timelines, in whatever
order the keys are listed and in whatever order the table has them: all have
ended exactly if each timeline has an end; the last end is the latest of
theirs; the least wait is the least of theirs, a worker that did not start
counting as one that did not wait; and the task took the time from its start
to its own end or the last of theirs. -/
theorem aggregates_of_events (ops : List LedgerOp) (l : Ledger) (t : TaskId)
    (task : Task) (found : l.tasks[t]? = some task) (new : task.New) :
    let m := (run ops l).1
    ∃ now, m.tasks[t]? = some now
      ∧ ∀ (keys : List String) (crew : List (String × WorkerId)),
      keys.Perm (entered t ops).dedup → crew.Perm now.crew →
        let record : Task := { now with crew }
        let line (key : String) := timeline? key (events t ops l)
        let ends := (keys.filterMap line).filterMap Timeline.ended
        (∀ key ∈ keys, (line key).isSome = true)
        ∧ record.crew.length = keys.length
        ∧ (m.idle record = true ↔
            ∀ x ∈ keys.filterMap line, x.ended.isSome = true)
        ∧ (Worker.lastEnd? (m.crewOf record)).map Instant.nanos
          = (ends.map Instant.nanos).max?
        ∧ (Worker.leastWait (m.crewOf record)).nanos
          = (((keys.filterMap line).map Timeline.wait).min?).getD 0
        ∧ (record.duration (m.crewOf record)).nanos
          = ((record.ended.toList ++ ends).map Instant.nanos).max?.elim 0
              fun last => max 0 (last - task.start.nanos) := by
  intro m
  have tracks := tracks_run found new ops
  obtain ⟨now, there, fixed⟩ := same_run ops found
  refine ⟨now, there, fun keys crew listed perm => ?_⟩
  intro record line ends
  -- the keys of the crew are the different ones that were ever added
  have all : (now.crew.map Prod.fst).Perm keys := by
    have single := tracks.single
    have mem := mem_keysAt_run ops found
    unfold keysAt at single mem
    rw [crewAt_of there] at single
    rw [crewAt_of found, new.crew, crewAt_of there] at mem
    refine ((List.perm_ext_iff_of_nodup single (List.nodup_dedup _)).mpr
      fun key => ?_).trans listed.symm
    rw [mem key, List.mem_dedup]
    exact or_iff_right List.not_mem_nil
  obtain ⟨same, each⟩ := timelines_of_crew tracks there perm all
  have count : crew.length = keys.length := by
    rw [perm.length_eq, ← List.length_map, all.length_eq]
  refine ⟨each, count, Worker.allFinished_iff same,
    Worker.lastEnd?_nanos same, Worker.leastWait_nanos same, ?_⟩
  rw [Task.duration_nanos record same]
  exact fixed.start ▸ rfl

/-- A key is used again, the worker that it named before goes on, and so does
a stand-in; the clock goes back before the new worker starts, and the other
one ends twice. The keys are listed the other way round. -/
theorem aggregates_of_events_reused :
    let l : Ledger := {
      sinks := #[{ outlet := .memory, last := 1 }]
      tasks := #[{ path := ":a", project := ":app", variant := none, id := 1,
                   sink := 0, start := .epoch }] }
    let ops : List LedgerOp :=
      [.setClock 10, .enlist (.task 0) "a" .worker, .setClock 20,
        .startWorker 0, .enlist (.task 0) "b" .worker, .endWorker 0,
        .setClock 30, .enlist (.task 0) "a" .worker, .startWorker 0,
        .endWorker 0, .lookUp (.task 0) "c", .startWorker 3, .endWorker 3,
        .setClock 25, .startWorker 2, .startWorker 1, .endWorker 1,
        .setClock 40, .endWorker 1]
    let m := (run ops l).1
    let lines := ["b", "a"].filterMap fun key =>
      timeline? key (events 0 ops l)
    lines.map (fun x => (x.created.millis, x.started.map Instant.millis,
          x.ended.map Instant.millis))
        = [(20, some 25, some 40), (30, some 25, none)]
      ∧ ∃ now, m.tasks[0]? = some now ∧ now.crew.length = 2
        ∧ m.idle now = false
        ∧ (Worker.lastEnd? (m.crewOf now)).map Instant.nanos
          = some 40000000
        ∧ (Worker.leastWait (m.crewOf now)).nanos = 0
        ∧ (now.duration (m.crewOf now)).nanos = 40000000 := by
  intro l ops m lines
  refine ⟨by decide +kernel, ?_⟩
  -- the second worker under a key has taken the place of the first, whose marks
  -- do not count
  have open_ : m.tasks[0]?.map Task.ended = some none := by decide +kernel
  have ends : (lines.filterMap Timeline.ended).map Instant.nanos
      = [40000000] := by decide +kernel
  have waits : lines.map Timeline.wait = [5000000, 0] := by decide +kernel
  have busy : ¬ ∀ x ∈ lines, x.ended.isSome = true := by decide +kernel
  obtain ⟨now, there, told⟩ := aggregates_of_events ops l 0 _ rfl
    ⟨rfl, rfl, rfl, rfl, rfl⟩
  obtain ⟨-, count, idle, last, wait, length⟩ :=
    told ["b", "a"] now.crew (by decide +kernel) (.refl _)
  have unset : now.ended = none := by
    rw [there] at open_
    exact Option.some.inj open_
  refine ⟨now, there, count, ?_, ?_, ?_, ?_⟩
  · exact Bool.eq_false_iff.mpr fun all => busy (idle.mp all)
  · exact last.trans (congrArg List.max? ends)
  · exact wait.trans (congrArg (fun ws => (List.min? ws).getD 0) waits)
  · replace length : (now.duration (m.crewOf now)).nanos
        = ((now.ended.toList ++ lines.filterMap Timeline.ended).map
            Instant.nanos).max?.elim 0
          fun last => max 0 (last - Instant.epoch.nanos) := length
    rw [unset, Option.toList_none, List.nil_append, ends] at length
    exact length

end LedgerOp

end TaskLedger
