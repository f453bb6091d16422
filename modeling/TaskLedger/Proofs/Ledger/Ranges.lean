/-
No arithmetic on time leaves its range, wherever the clock goes.

What a ledger computes is the difference of two readings of its clock or none
at all (`Recorded`). The calendar is shorter than the longest duration, and 64
bits hold the milliseconds of both, so there is nothing to overflow. What can
leave its range is a move of the clock itself, which then does not happen
(`Strays`). Besides that only a sink can stop an operation midway, by having
no number left (`fault_apply`).
-/
import TaskLedger.Proofs.Ledger.Emission
import TaskLedger.Proofs.Ledger.Halted
import TaskLedger.Proofs.Ledger.Readings

namespace TaskLedger.LedgerOp

open Ledger

variable {l : Ledger}

-- ================================================================== faults

/-- A move of the clock that would take it out of the calendar, or by more
milliseconds than a length can have. -/
def Strays (now : Instant) : LedgerOp → Prop
  | setClock ms => ms < -8334601228800000 ∨ 8210266876799999 < ms
  | advance ms ns => 9223372036854775807 < ms.natAbs
      ∨ now.nanos + (ms * 1000000 + ns) < -8334601228800000 * 1000000
      ∨ 8210266876799999 * 1000000 + 999999
        < now.nanos + (ms * 1000000 + ns)
  | _ => False

/-- A time that cannot be set lies outside of the calendar. -/
theorem strays_setClock {ms : Int} {f : Fault} {now : Instant}
    (stopped : Instant.ofMillis ms = .error f) : (setClock ms).Strays now := by
  by_contra stays
  simp only [Strays, not_or, Int.not_lt] at stays
  have length : Duration.ofMillis ms
      = .ok ⟨ms * 1000000, by omega, by omega⟩ := by
    unfold Duration.ofMillis Duration.ofNanos?
    rw [dif_pos ⟨by omega, by omega⟩]
  unfold Instant.ofMillis at stopped
  rw [length] at stopped
  simp only [bind, Except.bind] at stopped
  have zero : Instant.epoch.nanos = 0 := rfl
  rw [Instant.shift_ok (by dsimp only; omega) (by dsimp only; omega)]
    at stopped
  cases stopped

/-- A move that cannot be made is too long, or ends outside of the calendar. -/
theorem strays_advance {ms ns : Int} {f : Fault} {now : Instant}
    (stopped : (Duration.ofParts ms ns >>= now.shift) = .error f) :
    (advance ms ns).Strays now := by
  by_contra stays
  simp only [Strays, not_or, Int.not_lt, Nat.not_lt] at stays
  have low := now.ge
  have high := now.le
  rw [Duration.ofParts_ok ms ns stays.1 (by omega) (by omega)] at stopped
  simp only [bind, Except.bind] at stopped
  rw [Instant.shift_ok (by dsimp only; omega) (by dsimp only; omega)]
    at stopped
  cases stopped

/-- A sink that gives no number is out of numbers. -/
theorem fault_allocate {s : SinkId} {f : Fault}
    (stopped : (l.allocate s).2 = .error f) : f = .sumRange := by
  unfold Ledger.allocate at stopped
  cases sink : l.sinks[s]? with
  | none =>
      rw [sink] at stopped
      exact (Except.error.inj stopped).symm
  | some k =>
      rw [sink] at stopped
      change k.next.2 = _ at stopped
      unfold Sink.next at stopped
      split at stopped
      · exact (Except.error.inj stopped).symm
      · cases stopped

theorem fault_addTask {path project : String} {variant : Option String}
    {s : SinkId} {f : Fault}
    (stopped : (l.addTask path project variant s).2 = .error f) :
    f = .sumRange := by
  have number := @fault_allocate l s f
  unfold Ledger.addTask at stopped
  generalize l.allocate s = res at number stopped
  obtain ⟨m, g | id⟩ := res
  · obtain rfl := Except.error.inj stopped
    exact number rfl
  · cases stopped

/-- A start stops midway only for want of a number. -/
theorem fault_startTask {path project : String} {variant : Option String}
    {f : Fault} (stopped : (l.startTask path project variant).2 = .error f) :
    f = .sumRange := by
  have added := @fault_addTask l path project variant l.sink f
  unfold Ledger.startTask at stopped
  generalize l.addTask path project variant l.sink = res at added stopped
  obtain ⟨m, g | t⟩ := res
  · obtain rfl := Except.error.inj stopped
    exact added rfl
  · cases stopped

/-- No other operation stops midway, unless a number is missing. -/
theorem fault_apply {op : LedgerOp} {f : Fault}
    (stopped : (op.apply l).2 = .error f) :
    op.Strays l.now ∨ 0 < op.numbers ∧ f = .sumRange := by
  -- the clock may refuse to move, and a sink may have no number left
  cases op with
  | setClock ms =>
      replace stopped := done_error stopped
      unfold Ledger.setClock at stopped
      split at stopped
      · cases stopped
      · next strayed => exact .inl (strays_setClock strayed)
  | advance ms ns =>
      replace stopped := done_error stopped
      unfold Ledger.advance at stopped
      split at stopped
      · cases stopped
      · next strayed => exact .inl (strays_advance strayed)
  | startTask => exact .inr ⟨Nat.one_pos, fault_startTask (answer_error stopped)⟩
  | addTask => exact .inr ⟨Nat.one_pos, fault_addTask (answer_error stopped)⟩
  | allocate => exact .inr ⟨Nat.one_pos, fault_allocate (answer_error stopped)⟩
  | report e w =>
      refine .inr ⟨Nat.one_pos, ?_⟩
      replace stopped := done_error stopped
      cases e with
      | untracked => cases stopped
      | task t =>
          change (l.report t w).2 = .error f at stopped
          rcases report_cases t w l with ⟨-, he⟩
              | ⟨task, _, g, -, -, refused, he⟩
              | ⟨_, _, _, _, _, _, -, -, -, -, he⟩
          · rw [he] at stopped
            cases stopped
          · rw [he] at stopped
            obtain rfl := Except.error.inj stopped
            exact fault_allocate refused
          · rw [he] at stopped
            cases stopped
  | write r =>
      simp only [apply] at stopped
      split at stopped <;> cases stopped
  | _ => cases stopped

-- ================================================================== ranges

/-- Let a clock go anywhere in the calendar between any two events of a run
from nothing. No operation stops midway but a move out of the calendar and a
number that a sink has not left. At the end of the run, and so at any point
of one, every wait and every length of a worker and of a task is the exact
difference of two instants that its clock showed, or none at all: it is not
negative and not longer than the calendar. Every line shows where its
interval began and how long it was, the milliseconds exactly: for a task and
for a worker, those of an instant that the clock showed and of such a length,
and for an interval inside a task those that the task attached. -/
theorem times_stay_in_range (ops : List LedgerOp) (l : Ledger)
    (blank : l.Blank) :
    let m := (run ops l).1
    let clock := shown Ledger.now ops l
    let dial := shown Ledger.wall ops l
    (∀ (i : Nat) (op : LedgerOp) (f : Fault), ops[i]? = some op →
        (run ops l).2[i]? = some (.error f) →
        op.Strays (run (ops.take i) l).1.now ∨ 0 < op.numbers ∧ f = .sumRange)
    ∧ (∀ (w : WorkerId) (k : Worker), m.workers[w]? = some k →
        let seen := k.readings clock dial
        Elapsed seen k.wait.nanos
        ∧ k.wait.nanos = lapse (some k.created) k.started
        ∧ Elapsed seen k.duration.nanos
        ∧ k.duration.nanos = lapse k.started k.ended
        ∧ ∀ id parent, (k.span id parent).Shows seen)
    ∧ (∀ (t : TaskId) (task : Task), m.tasks[t]? = some task →
        let crew := m.crewOf task
        Elapsed clock (Worker.leastWait crew).nanos
        ∧ (Worker.leastWait crew).nanos
          = ((crew.map fun k => k.wait.nanos).min?).getD 0
        ∧ Elapsed clock (task.duration crew).nanos
        ∧ (task.duration crew).nanos
          = lapse (some task.start) (task.end? crew)
        ∧ (task.span crew).Shows clock)
    ∧ ∀ line ∈ m.journal,
        line.record.Recorded clock dial ops m.workers line.origin := by
  intro m clock dial
  have recorded : Recorded clock dial ops m :=
    recorded_run (List.Subset.refl ops) (List.Subset.refl clock)
      (List.Subset.refl dial)
      (blank.recorded (mem_shown _ ops l) (mem_shown _ ops l))
  refine ⟨?_, ?_, ?_, recorded.line⟩
  -- the first part is about single operations, the others about what is on
  -- record
  · intro i op f here stopped
    rw [answer_at, here, Option.map_some] at stopped
    exact fault_apply (Option.some.inj stopped)
  · intro w k found seen
    have knows := recorded.worker found
    exact ⟨knows.wait, k.wait_lapse, knows.duration, k.duration_lapse,
      knows.span⟩
  · intro t task found crew
    have waits := Worker.leastWait_elapsed fun _ mem => recorded.crew found mem
    exact ⟨waits, Worker.leastWait_min crew, recorded.duration found,
      task.duration_lapse crew, recorded.span found⟩

/-- From the first instant of the calendar to the last one and back: one
worker waits for the whole of it and ends before it started, the other one
works for the whole of it, and in between the clock is asked to go on by one
nanosecond more. -/
theorem times_stay_in_range_end_to_end :
    let l : Ledger := { sinks := #[{ outlet := .memory }] }
    let ops : List LedgerOp :=
      [.setClock (-8334601228800000), .startTask ":a" ":app" none,
        .enlist (.task 0) "k" .worker, .enlist (.task 0) "j" .worker,
        .startWorker 1, .setClock 8210266876799999, .advance 0 999999,
        .startWorker 0, .endWorker 1, .advance 0 1,
        .setClock (-8334601228800000), .endWorker 0, .report (.task 0) 0,
        .report (.task 0) 1, .finishTask ":a"]
    let m := (run ops l).1
    let clock := shown Ledger.now ops l
    let dial := shown Ledger.wall ops l
    let longest : Int := 16544868105599999 * 1000000 + 999999
    (∃ k, m.workers[0]? = some k ∧ (k.wait.nanos, k.duration.nanos)
        = (longest, 0) ∧ Elapsed (k.readings clock dial) k.wait.nanos)
      ∧ (∃ j, m.workers[1]? = some j ∧ (j.wait.nanos, j.duration.nanos)
        = (0, longest) ∧ Elapsed (j.readings clock dial) j.duration.nanos)
      ∧ (∃ task, m.tasks[0]? = some task
        ∧ (task.duration (m.crewOf task)).nanos = longest
        ∧ Elapsed clock (task.duration (m.crewOf task)).nanos)
      ∧ (run ops l).2[9]? = some (.error .instantRange)
      ∧ (advance 0 1).Strays (run (ops.take 9) l).1.now
      ∧ m.journal.map (fun line =>
          (line.record.span.startMs, line.record.span.durationMs))
        = [(8210266876799999, 0), (-8334601228800000, 16544868105599999),
            (-8334601228800000, 16544868105599999)]
      ∧ ∃ line ∈ m.journal, line.origin = .task 0
        ∧ line.record.span.Shows clock := by
  intro l ops m clock dial longest
  obtain ⟨faults, workers, tasks, lines⟩ :=
    times_stay_in_range ops l ⟨rfl, rfl, rfl, rfl⟩
  have first : m.workers[0]?.map (fun k => (k.wait.nanos, k.duration.nanos))
      = some (longest, 0) := by decide +kernel
  have second : m.workers[1]?.map (fun k => (k.wait.nanos, k.duration.nanos))
      = some (0, longest) := by decide +kernel
  have whole : m.tasks[0]?.map (fun task =>
      (task.duration (m.crewOf task)).nanos) = some longest := by
    decide +kernel
  have stopped : (run ops l).2[9]? = some (.error .instantRange) := by rfl
  have own : m.journal.any (fun line => line.origin == .task 0) = true := by
    decide +kernel
  obtain ⟨k, hk, waits⟩ := Option.map_eq_some_iff.mp first
  obtain ⟨j, hj, works⟩ := Option.map_eq_some_iff.mp second
  obtain ⟨task, ht, lasts⟩ := Option.map_eq_some_iff.mp whole
  obtain ⟨line, there, own⟩ := List.any_eq_true.mp own
  have own := eq_of_beq own
  have shows := lines line there
  rw [own] at shows
  exact ⟨⟨k, hk, waits, (workers 0 k hk).1⟩,
    ⟨j, hj, works, (workers 1 j hj).2.2.1⟩,
    ⟨task, ht, lasts, (tasks 0 task ht).2.2.1⟩,
    stopped, (faults 9 _ _ rfl stopped).resolve_right (by decide),
    by decide +kernel, line, there, own, shows.1⟩

end TaskLedger.LedgerOp
