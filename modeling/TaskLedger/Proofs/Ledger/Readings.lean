/-
What a ledger knows of time is what its clocks showed.

A clock may be set anywhere, from one end of the calendar to the other and
back. All the same, every instant on record was read off it, each in its
moment, and what is computed from them is the difference of two readings, or
none at all (`lapse`). Such a length is not negative and not longer than the
calendar (`Elapsed`), and a span shows it by its exact milliseconds
(`Span.Shows`). `Recorded` says all that of a whole ledger, every operation
keeps it (`Recorded.apply`), and so does every run (`recorded_run`).
-/
import TaskLedger.Proofs.Ledger.ElapsedTime
import TaskLedger.Proofs.Ledger.Timeline

namespace TaskLedger

-- ================================================================== lengths

/-- The nanoseconds from one instant to another one; none if one of them is
missing, or if the clock went back in between. -/
def lapse : Option Instant → Option Instant → Int
  | some a, some b => max 0 (b.nanos - a.nanos)
  | _, _ => 0

/-- So many nanoseconds lie between two of the instants that a clock showed,
or none do: it is not less than none, and not more than the calendar has. -/
structure Elapsed (seen : List Instant) (n : Int) : Prop where
  nonneg : 0 ≤ n
  bounded : n ≤ 16544868105599999 * 1000000 + 999999
  between : n = 0 ∨ ∃ a ∈ seen, ∃ b ∈ seen, n = b.nanos - a.nanos

/-- A span that starts at an instant that a clock showed and is as long as it
measured, the one floored and the other one cut to milliseconds. -/
def Span.Shows (seen : List Instant) (s : Span) : Prop :=
  ∃ start ∈ seen, ∃ n, Elapsed seen n
    ∧ s.startMs.toInt = start.nanos / 1000000
    ∧ s.durationMs.toInt = n / 1000000

section

variable {seen : List Instant}

/-- No time at all is a length, whatever the clocks showed. -/
theorem elapsed_zero : Elapsed seen 0 := ⟨by decide, by decide, .inl rfl⟩

/-- The difference of two readings is a length, and so is what is taken for it
where there are not two. -/
theorem elapsed_lapse {start stop : Option Instant}
    (first : ∀ a, start = some a → a ∈ seen)
    (last : ∀ b, stop = some b → b ∈ seen) :
    Elapsed seen (lapse start stop) := by
  cases start with
  | none => exact elapsed_zero
  | some a =>
  cases stop with
  | none => exact elapsed_zero
  | some b =>
      have low := a.ge
      have high := b.le
      unfold lapse
      dsimp only
      rcases Int.le_total (b.nanos - a.nanos) 0 with back | forth
      · rw [Int.max_eq_left back]
        exact elapsed_zero
      · rw [Int.max_eq_right forth]
        exact ⟨forth, by omega, .inr ⟨a, first a rfl, b, last b rfl, rfl⟩⟩

/-- A span with the times of an interval shows that interval, if it starts at a
reading. -/
theorem Span.shows_interval {start : Instant} {length : Duration}
    (there : start ∈ seen) (elapsed : Elapsed seen length.nanos)
    (kind : SpanKind) {s : Span}
    (startMs : s.startMs = (ofInterval kind start length).startMs)
    (durationMs : s.durationMs = (ofInterval kind start length).durationMs) :
    s.Shows seen := by
  refine ⟨start, there, length.nanos, elapsed, ?_, ?_⟩
  · rw [startMs, toInt_startMs]
  · rw [durationMs, toInt_durationMs kind start elapsed.nonneg]

end

namespace Worker

variable {k : Worker} {seen : List Instant}

/-- How long a worker waited is the difference of its creation and its start, if
it has started. -/
theorem wait_lapse (k : Worker) :
    k.wait.nanos = lapse (some k.created) k.started := by
  rw [wait_nanos]
  unfold Timeline.wait timeline
  cases k.started <;> rfl

/-- How long a worker was at work is the difference of its start and its end, if
it has both. -/
theorem duration_lapse (k : Worker) :
    k.duration.nanos = lapse k.started k.ended := by
  unfold duration
  cases k.started with
  | none => rfl
  | some s =>
      cases k.ended with
      | none => rfl
      | some e => exact Duration.clamp_nanos _

/-- All that is known of a worker's time was seen. -/
structure Knows (seen : List Instant) (k : Worker) : Prop where
  created : k.created ∈ seen
  started : ∀ s, k.started = some s → s ∈ seen
  ended : ∀ e, k.ended = some e → e ∈ seen

/-- So a wait is a length of the clock that the worker goes by. -/
theorem Knows.wait (h : k.Knows seen) : Elapsed seen k.wait.nanos := by
  rw [wait_lapse]
  exact elapsed_lapse (fun _ e => Option.some.inj e ▸ h.created) h.started

/-- And so is the time that it was at work. -/
theorem Knows.duration (h : k.Knows seen) :
    Elapsed seen k.duration.nanos := by
  rw [duration_lapse]
  exact elapsed_lapse h.started h.ended

/-- A worker that knows when it started shows it in its span, whatever number
the span is given. -/
theorem Knows.span (h : k.Knows seen) (id parent : SpanId) :
    (k.span id parent).Shows seen := by
  have start : k.started.getD k.created ∈ seen := by
    cases begun : k.started with
    | none => exact h.created
    | some s => exact h.started s begun
  exact Span.shows_interval start h.duration k.kind rfl rfl

/-- The least wait of a crew, in nanoseconds. -/
theorem leastWait_min (crew : List Worker) :
    (leastWait crew).nanos
      = ((crew.map fun k => k.wait.nanos).min?).getD 0 := by
  rw [leastWait_nanos (.refl _), List.map_map, funext wait_nanos]
  rfl

/-- It is the wait of one of them. -/
theorem leastWait_elapsed {crew : List Worker}
    (each : ∀ k ∈ crew, k.Knows seen) :
    Elapsed seen (leastWait crew).nanos := by
  rw [leastWait_min]
  cases least : (crew.map fun k => k.wait.nanos).min? with
  | none => exact elapsed_zero
  | some n =>
      obtain ⟨k, mem, rfl⟩ :=
        List.mem_map.mp (List.min?_eq_some_iff.mp least).1
      exact (each k mem).wait

end Worker

/-- A task's length is the difference of its start and the last end that is
known, its own or a worker's. -/
theorem Task.duration_lapse (task : Task) (crew : List Worker) :
    (task.duration crew).nanos
      = lapse (some task.start) (task.end? crew) := by
  unfold duration
  cases task.end? crew with
  | none => rfl
  | some e => exact Duration.clamp_nanos _

-- ================================================================ recorded

/-- The clock that a worker reads: stand-ins read the dial on the wall. -/
def Worker.readings (clock dial : List Instant) (k : Worker) : List Instant :=
  if k.standIn then dial else clock

/-- An interval that a task attached in the run, its start floored and its
length cut. -/
def Span.Attached (ops : List LedgerOp) (s : Span) : Prop :=
  ∃ e kind thread start length,
    LedgerOp.attach e kind thread start length ∈ ops
    ∧ s.startMs.toInt = start.nanos / 1000000
    ∧ s.durationMs.toInt = length.nanos.tdiv 1000000

/-- What is on record of a task: its times were read off the clock, its crew
are workers that read it too, and its intervals were attached. -/
structure Task.Recorded (clock : List Instant) (ops : List LedgerOp)
    (staff : Array Worker) (task : Task) : Prop where
  start : task.start ∈ clock
  ended : ∀ e, task.ended = some e → e ∈ clock
  member : ∀ {key : String} {w : WorkerId}, (key, w) ∈ task.crew →
    ∃ k, staff[w]? = some k ∧ k.standIn = false
  child : ∀ s ∈ task.children, s.Attached ops

/-- What a line shows, by whom it was written for. -/
def SpanRecord.Recorded (clock dial : List Instant) (ops : List LedgerOp)
    (staff : Array Worker) (r : SpanRecord) : Origin → Prop
  | .task _ => r.span.Shows clock ∧ ∀ s ∈ r.children, s.Attached ops
  | .worker _ w => (∃ k, staff[w]? = some k
      ∧ r.span.Shows (k.readings clock dial)) ∧ r.children = []
  | .direct => LedgerOp.write r ∈ ops

namespace Ledger

/-- All that a ledger has on record of time was read off its clocks, given
what these showed so far. -/
structure Recorded (clock dial : List Instant) (ops : List LedgerOp)
    (l : Ledger) : Prop where
  now : l.now ∈ clock
  wall : l.wall ∈ dial
  worker : ∀ {w : WorkerId} {k : Worker}, l.workers[w]? = some k →
    k.Knows (k.readings clock dial)
  task : ∀ {t : TaskId} {task : Task}, l.tasks[t]? = some task →
    task.Recorded clock ops l.workers
  line : ∀ line ∈ l.journal,
    line.record.Recorded clock dial ops l.workers line.origin

variable {clock dial : List Instant} {ops : List LedgerOp} {l : Ledger}
  {t : TaskId} {task : Task} {w : WorkerId} {k : Worker}

/-- A ledger on which nothing is on record records nothing that was not read. -/
theorem Blank.recorded (h : l.Blank) (now : l.now ∈ clock)
    (there : l.wall ∈ dial) : Recorded clock dial ops l where
  now := now
  wall := there
  worker found := by
    rw [h.workers] at found
    cases found
  task found := by
    rw [h.tasks] at found
    cases found
  line line mem := by
    rw [h.journal] at mem
    cases mem

namespace Recorded

variable (h : Recorded clock dial ops l)

include h

-- what can be read off

/-- A worker's clock now shows a reading of that worker's clock. -/
theorem clockOf (k : Worker) : l.clockOf k ∈ k.readings clock dial := by
  unfold Ledger.clockOf Worker.readings
  split
  · exact h.wall
  · exact h.now

/-- The crew of a task reads the task's clock. -/
theorem crew (found : l.tasks[t]? = some task) (mem : k ∈ l.crewOf task) :
    k.Knows clock := by
  obtain ⟨key, w, member, there⟩ := LedgerOp.mem_crewOf.mp mem
  obtain ⟨k', there', real⟩ := (h.task found).member member
  rw [there] at there'
  obtain rfl := Option.some.inj there'
  have knows := h.worker there
  unfold Worker.readings at knows
  rwa [if_neg (Bool.eq_false_iff.mp real)] at knows

/-- The end of a task is its own or one of a worker that goes by the same clock,
so its length is a difference of readings. -/
theorem duration (found : l.tasks[t]? = some task) :
    Elapsed clock (task.duration (l.crewOf task)).nanos := by
  rw [Task.duration_lapse]
  refine elapsed_lapse
    (fun _ e => Option.some.inj e ▸ (h.task found).start) fun e last => ?_
  rcases Task.end_cases last with own | ⟨k, mem, ended⟩
  · exact (h.task found).ended e own
  · exact (h.crew found mem).ended e ended

/-- Whatever span is written for a task now, it shows readings only. -/
theorem span (found : l.tasks[t]? = some task) :
    (task.span (l.crewOf task)).Shows clock :=
  Span.shows_interval (h.task found).start (h.duration found) .task rfl rfl

-- what can be changed

/-- Numbers, files, notices and the registry have no times in them. -/
theorem beside {sinks : Array Sink} {tree : Files.Tree} {marks : List Mark}
    {warnings : List Warning} {registry : List (String × TaskId)} :
    Recorded clock dial ops
      { l with sinks, tree, marks, warnings, registry } :=
  ⟨h.now, h.wall, h.worker, h.task, h.line⟩

/-- What is done to a task leaves the times on record true, if it does so for
any task. -/
theorem onTask (t : TaskId) {f : Task → Task}
    (each : ∀ task : Task, task.Recorded clock ops l.workers →
      (f task).Recorded clock ops l.workers) :
    Recorded clock dial ops (l.onTask t f) where
  now := h.now
  wall := h.wall
  worker := h.worker
  task found := by
    rcases modify_cases found with ⟨-, task, old, rfl⟩ | ⟨-, old⟩
    · exact each task (h.task old)
    · exact h.task old
  line := h.line

/-- A line that shows readings may be added to the journal, whether or not the
sink takes it. -/
theorem noted (s : SinkId) (origin : Origin) {r : SpanRecord}
    (shows : r.Recorded clock dial ops l.workers origin) :
    Recorded clock dial ops
      { l with journal := l.journal ++ l.notes s origin r } where
  now := h.now
  wall := h.wall
  worker := h.worker
  task := h.task
  line line mem := by
    rcases List.mem_append.mp mem with old | new
    · exact h.line line old
    · unfold notes at new
      split at new
      · cases new
      · obtain rfl := List.mem_singleton.mp new
        exact shows

/-- Workers may come and may be marked. What they are stays. -/
theorem staffed {staff : Array Worker}
    (stays : ∀ {w : WorkerId} {k : Worker}, l.workers[w]? = some k →
      ∃ k', staff[w]? = some k' ∧ k'.standIn = k.standIn)
    (knows : ∀ {w : WorkerId} {k : Worker}, staff[w]? = some k →
      k.Knows (k.readings clock dial)) :
    Recorded clock dial ops { l with workers := staff } where
  now := h.now
  wall := h.wall
  worker := knows
  task found := by
    have told := h.task found
    refine ⟨told.start, told.ended, fun mem => ?_, told.child⟩
    obtain ⟨k, there, real⟩ := told.member mem
    obtain ⟨k', there', same⟩ := stays there
    exact ⟨k', there', same.trans real⟩
  line line mem := by
    have shows := h.line line mem
    generalize line.origin = origin at shows ⊢
    cases origin with
    | task t => exact shows
    | direct => exact shows
    | worker t w =>
        obtain ⟨⟨k, there, span⟩, children⟩ := shows
        obtain ⟨k', there', same⟩ := stays there
        refine ⟨⟨k', there', ?_⟩, children⟩
        unfold Worker.readings at span ⊢
        rw [same]
        exact span

/-- A worker that comes has been created just now. -/
theorem hired (knows : k.Knows (k.readings clock dial)) :
    Recorded clock dial ops { l with workers := l.workers.push k } := by
  refine h.staffed (fun old => ⟨_, push_old old, rfl⟩) fun found => ?_
  rcases push_back found with old | ⟨-, rfl⟩
  · exact h.worker old
  · exact knows

/-- A worker is moved on if its marks stay readings of the clock that it goes
by; which clock that is does not change. -/
theorem marked (w : WorkerId) {f : Worker → Worker}
    (standIn : ∀ k, (f k).standIn = k.standIn)
    (each : ∀ k : Worker, k.Knows (k.readings clock dial) →
      (f k).Knows (k.readings clock dial)) :
    Recorded clock dial ops (l.onWorker w f) := by
  refine h.staffed (fun {v k} old => ?_) fun {v k'} found => ?_
  · rw [Array.getElem?_modify, old]
    split
    · exact ⟨f k, rfl, standIn k⟩
    · exact ⟨k, rfl, rfl⟩
  · rcases modify_cases found with ⟨-, k, old, rfl⟩ | ⟨-, old⟩
    · have knows := each k (h.worker old)
      unfold Worker.readings at knows ⊢
      rwa [standIn]
    · exact h.worker old

/-- A task that comes starts now. -/
theorem opened (start : task.start = l.now) (new : task.New) :
    Recorded clock dial ops { l with tasks := l.tasks.push task } where
  now := h.now
  wall := h.wall
  worker := h.worker
  task found := by
    rcases push_back found with old | ⟨-, rfl⟩
    · exact h.task old
    · refine ⟨start ▸ h.now, fun e ended => ?_, fun mem => ?_, fun s mem => ?_⟩
      · rw [new.ended] at ended
        cases ended
      · rw [new.crew] at mem
        cases mem
      · rw [new.children] at mem
        cases mem
  line := h.line

end Recorded

end Ledger

namespace Task.Recorded

variable {clock : List Instant} {ops : List LedgerOp} {staff : Array Worker}
  {task : Task} (told : task.Recorded clock ops staff)

include told

/-- Waiting for its workers takes no time of a task's record. -/
theorem await : task.await.Recorded clock ops staff := by
  unfold Task.await
  split
  all_goals exact ⟨told.start, told.ended, told.member, told.child⟩

/-- A task that is closed is closed now. -/
theorem close (now : Instant) : (task.close now).Recorded clock ops staff := by
  unfold Task.close
  split
  · exact told
  · exact ⟨told.start, told.ended, told.member, told.child⟩

/-- A task that is concluded has the times that it had. -/
theorem concluded : task.concluded.Recorded clock ops staff :=
  ⟨told.start, told.ended, told.member, told.child⟩

variable {now : Instant} (there : now ∈ clock)

include there in

/-- The end of a task is now, or what it was already. -/
theorem finish : (task.finish now).Recorded clock ops staff := by
  unfold Task.finish
  split
  · exact told
  · refine ⟨told.start, fun e ended => ?_, told.member, told.child⟩
    obtain rfl := Option.some.inj ended
    cases own : task.ended with
    | none => exact there
    | some e => exact told.ended e own

include there in

/-- A report may give the task an end, which is now or the one that it had. -/
theorem noteReport (idle : Bool) :
    (task.noteReport now idle).Recorded clock ops staff := by
  unfold Task.noteReport
  split
  · refine ⟨told.start, fun e ended => ?_, told.member, told.child⟩
    obtain rfl := Option.some.inj ended
    cases own : task.ended with
    | none => exact there
    | some e =>
        dsimp only
        rcases Instant.max_cases e now with same | same
        · rw [same]
          exact told.ended e own
        · rw [same]
          exact there
  · exact told

/-- The interval that is attached shows what the call was given, and that is
among the operations. -/
theorem attach {e : Entry} {kind : SpanKind} {thread : UInt64}
    {start : Instant} {length : Duration}
    (mem : LedgerOp.attach e kind thread start length ∈ ops) :
    (task.attach kind thread start length).Recorded clock ops staff := by
  unfold Task.attach
  split
  · exact told
  · refine ⟨told.start, told.ended, told.member, fun s child => ?_⟩
    rcases List.mem_append.mp child with old | new
    · exact told.child s old
    · obtain rfl := List.mem_singleton.mp new
      have bounds := length.millis_bounds
      exact ⟨e, kind, thread, start, length, mem,
        toInt_startMs kind start length,
        Int64.toInt_ofInt_of_le (by omega) (by omega)⟩

/-- Only a worker that is no stand-in is in a crew, so a task and its crew go by
one clock. -/
theorem enlist {w : WorkerId} {k : Worker} (here : staff[w]? = some k)
    (real : k.standIn = false) (key : String) :
    (task.enlist key w).Recorded clock ops staff := by
  refine ⟨told.start, told.ended, fun mem => ?_, told.child⟩
  rcases List.mem_append.mp mem with old | new
  · exact told.member (List.mem_of_mem_filter old)
  · obtain ⟨-, rfl⟩ := Prod.mk.inj (List.mem_singleton.mp new)
    exact ⟨k, here, real⟩

end Task.Recorded

-- =============================================================== operations

namespace Ledger

variable {clock dial : List Instant} {ops : List LedgerOp} {l : Ledger}

namespace Recorded

section

variable (h : Recorded clock dial ops l)

include h

/-- A task that is concluded offers its span, which shows the times on record.
-/
theorem conclude (t : TaskId) :
    Recorded clock dial ops (l.conclude t).1 := by
  rcases conclude_cases t l with ⟨-, he⟩
      | ⟨task, tree, warnings, found, -, he⟩
  · rw [he]
    exact h
  · rw [he]
    have told := h.onTask t fun _ told => told.concluded
    have line := told.noted task.sink (.task t)
      (r := task.record (task.span (l.crewOf task)) task.children)
      ⟨h.span found, (h.task found).child⟩
    exact line.beside

/-- A task that is put on record starts now. -/
theorem addTask (path project : String) (variant : Option String) :
    Recorded clock dial ops (l.addTask path project variant l.sink).1 := by
  rcases addTask_cases path project variant l with ⟨_, he⟩ | ⟨_, _, he⟩
  · rw [he]
    exact h.beside
  · rw [he]
    exact (h.opened rfl ⟨rfl, rfl, rfl, rfl, rfl⟩).beside

/-- What else a start does is to the registry and to the warnings. -/
theorem startTask (path project : String) (variant : Option String) :
    Recorded clock dial ops (l.startTask path project variant).1 := by
  rcases startTask_cases path project variant l with ⟨_, he⟩
      | ⟨_, _, _, -, he⟩
  · rw [he]
    exact h.beside
  · rw [he]
    exact (h.opened rfl ⟨rfl, rfl, rfl, rfl, rfl⟩).beside

theorem addWorker (path : String) (kind : SpanKind) :
    Recorded clock dial ops (l.addWorker path kind).1 :=
  h.hired ⟨h.now, fun _ e => (by cases e), fun _ e => (by cases e)⟩

theorem addStandIn : Recorded clock dial ops l.addStandIn.1 :=
  h.hired ⟨h.wall, fun _ e => Option.some.inj e ▸ h.wall,
    fun _ e => (by cases e)⟩

/-- Who looks for a key that nobody is under gets a stand-in, which goes by the
wall clock. -/
theorem lookUp (t : TaskId) (key : String) :
    Recorded clock dial ops (l.lookUp t key).1 := by
  unfold Ledger.lookUp
  split
  · exact h
  · exact h.addStandIn

/-- A member that enters was created just now, and is no stand-in. -/
theorem enlist (t : TaskId) (key : String) (kind : SpanKind) :
    Recorded clock dial ops (l.enlist t key kind) := by
  rcases enlist_cases t key kind l with ⟨-, he⟩ | ⟨task, -, he⟩
  · rw [he]
    exact h
  · rw [he]
    exact (h.addWorker task.path kind).onTask t fun _ told =>
      told.enlist Array.getElem?_push_size rfl key

/-- A report offers the worker's span and may give the task an end; both are of
the clock now or of times on record. -/
theorem report (t : TaskId) (w : WorkerId) :
    Recorded clock dial ops (l.report t w).1 := by
  rcases report_cases t w l with ⟨-, he⟩ | ⟨_, _, _, -, -, -, he⟩
      | ⟨task, k, _, id, _, _, found, present, -, -, he⟩
  · rw [he]
    exact h
  · rw [he]
    exact h.beside
  · rw [he]
    have line := h.noted task.sink (.worker t w)
      (r := task.record (k.span id task.id) [])
      ⟨⟨k, present, (h.worker present).span id task.id⟩, rfl⟩
    exact (line.onTask t fun _ told =>
      told.noteReport h.now (l.idle task)).beside

end

/-- So the scheduler's sweeps, which do these things over and over, keep what is
recorded. -/
theorem tended : Tended (Recorded clock dial ops) where
  aside _ _ _ h := h.beside
  finish t h := h.onTask t fun _ told => told.finish h.now
  conclude t h := h.conclude t

/-- Every operation leaves a ledger with nothing on record that its clocks
have not shown, if they show by now what they show then. -/
theorem apply (h : Recorded clock dial ops l) {op : LedgerOp} (mem : op ∈ ops)
    (now : (op.apply l).1.now ∈ clock) (wall : (op.apply l).1.wall ∈ dial) :
    Recorded clock dial ops (op.apply l).1 := by
  have said {f : TaskId → Ledger → Ledger}
      (each : ∀ t, Recorded clock dial ops (f t l)) (e : Entry) :
      Recorded clock dial ops (OnEntry.does e f l) := by
    cases e with
    | task t => exact each t
    | untracked => exact h
  cases op with
  | setClock ms =>
      have moved : (l.setClock ms).1
          = { l with now := (l.setClock ms).1.now } := by
        unfold Ledger.setClock
        split <;> rfl
      show Recorded clock dial ops (l.setClock ms).1
      rw [moved]
      exact ⟨now, h.wall, h.worker, h.task, h.line⟩
  | advance ms ns =>
      have moved : (l.advance ms ns).1
          = { l with now := (l.advance ms ns).1.now } := by
        unfold Ledger.advance
        split <;> rfl
      show Recorded clock dial ops (l.advance ms ns).1
      rw [moved]
      exact ⟨now, h.wall, h.worker, h.task, h.line⟩
  | setWall t => exact ⟨h.now, wall, h.worker, h.task, h.line⟩
  | startTask path project variant => exact h.startTask path project variant
  | addTask path project variant => exact h.addTask path project variant
  | finishTask path => exact tended.finishTask h path
  | flush => exact tended.flush h
  | endBuild => exact tended.endBuild h
  | await e =>
      exact said (f := Ledger.await)
        (fun t => h.onTask t fun _ told => told.await) e
  | close e =>
      exact said (f := Ledger.close)
        (fun t => h.onTask t fun _ told => told.close l.now) e
  | finish e =>
      exact said (f := Ledger.finish)
        (fun t => h.onTask t fun _ told => told.finish h.now) e
  | attach e kind thread start length =>
      exact said (f := fun t => Ledger.attach t kind thread start length)
        (fun t => h.onTask t fun _ told => told.attach mem) e
  | conclude e =>
      cases e with
      | task t => exact h.conclude t
      | untracked => exact h
  | enlist e key kind =>
      exact said (f := fun t => Ledger.enlist t key kind)
        (fun t => h.enlist t key kind) e
  | lookUp e key =>
      cases e with
      | task t => exact h.lookUp t key
      | untracked => exact h.addStandIn
  | addWorker path kind => exact h.addWorker path kind
  | startWorker w =>
      exact h.marked w (fun _ => rfl) fun k knows =>
        ⟨knows.created, fun _ e => Option.some.inj e ▸ h.clockOf k,
          knows.ended⟩
  | endWorker w =>
      exact h.marked w (fun _ => rfl) fun k knows =>
        ⟨knows.created, knows.started,
          fun _ e => Option.some.inj e ▸ h.clockOf k⟩
  | report e w =>
      cases e with
      | task t => exact h.report t w
      | untracked => exact h
  | allocate =>
      show Recorded clock dial ops (l.allocate l.sink).1
      rw [allocate_fst]
      exact h.beside
  | write r =>
      have line := h.noted l.sink .direct (r := r) mem
      obtain ⟨tree, he⟩ := write_fst l.sink .direct r l
      have written : Recorded clock dial ops (l.write l.sink .direct r).1 := by
        rw [he]
        exact line.beside
      unfold LedgerOp.apply
      dsimp only
      split
      · next he => rwa [he] at written
      · next he => rwa [he] at written

end Recorded

end Ledger

-- ==================================================================== runs

namespace LedgerOp

open Ledger

/-- What a clock shows along a run, from its start on. -/
def shown (read : Ledger → Instant) : List LedgerOp → Ledger → List Instant
  | [], l => [read l]
  | op :: rest, l => read l :: shown read rest (op.apply l).1

variable {clock dial : List Instant} {all : List LedgerOp} {l : Ledger}

/-- What a clock shows at the start of a run is shown in it. -/
theorem mem_shown (read : Ledger → Instant) (ops : List LedgerOp)
    (l : Ledger) : read l ∈ shown read ops l := by
  cases ops with
  | nil => exact List.mem_singleton_self (read l)
  | cons op rest => exact List.mem_cons_self

/-- Every operation of a run keeps what is recorded, as long as the clocks show
what is counted among their readings. -/
theorem recorded_run {ops : List LedgerOp} (among : ops ⊆ all)
    (now : shown Ledger.now ops l ⊆ clock)
    (wall : shown Ledger.wall ops l ⊆ dial)
    (h : Recorded clock dial all l) :
    Recorded clock dial all (run ops l).1 := by
  induction ops generalizing l with
  | nil => exact h
  | cons op rest ih =>
      obtain ⟨mem, among⟩ := List.cons_subset.mp among
      obtain ⟨-, now⟩ := List.cons_subset.mp now
      obtain ⟨-, wall⟩ := List.cons_subset.mp wall
      exact ih among now wall
        (h.apply mem (now (mem_shown _ rest _)) (wall (mem_shown _ rest _)))

end LedgerOp

end TaskLedger
