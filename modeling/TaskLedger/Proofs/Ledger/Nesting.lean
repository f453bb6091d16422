/-
A task's span covers the spans of its workers.

The scheduler writes the span of a task that it is done with once nobody
works for the task any more. At that moment every member of the crew has
ended, and an end is never later than the end that the task is given, from
whichever of its parts that comes: the scheduler's report, the last report
of a worker, or the crew itself (`Task.ended_within`). What a worker's own
span shows was settled when the worker ended, so it does not matter that
the span may be written later than the task's.

In milliseconds the ends may cross by one: a start is floored and a length
is cut, so the two errors add up (`within_of_nested`).
-/
import TaskLedger.Proofs.Ledger.Service
import TaskLedger.Proofs.Ledger.Settlement
import TaskLedger.Proofs.Ledger.Sweep

namespace TaskLedger

-- ================================================================== ends

/-- A length that is shown is no shorter than what it is made from. -/
theorem Duration.le_clamp (d : Duration) : d.nanos ≤ d.clamp.nanos := by
  unfold clamp max
  split
  · next le => exact le
  · exact Int.le_refl _

namespace Instant

theorem le_max_left (a b : Instant) : a.nanos ≤ (a.max b).nanos := by
  unfold max
  split
  · next le => exact le
  · exact Int.le_refl _

theorem le_max_right (a b : Instant) : b.nanos ≤ (a.max b).nanos := by
  unfold max
  split
  · exact Int.le_refl _
  · next lt => omega

/-- The later of many instants is no earlier than where the search for it began.
-/
theorem le_foldl_max (ts : List Instant) (a : Instant) :
    a.nanos ≤ (ts.foldl max a).nanos := by
  induction ts generalizing a with
  | nil => exact Int.le_refl _
  | cons b rest ih => exact Int.le_trans (le_max_left a b) (ih (a.max b))

/-- Nor is it earlier than any of them. -/
theorem mem_le_foldl_max {ts : List Instant} {t : Instant} (mem : t ∈ ts)
    (a : Instant) : t.nanos ≤ (ts.foldl max a).nanos := by
  induction ts generalizing a with
  | nil => cases mem
  | cons b rest ih =>
      rcases List.mem_cons.mp mem with rfl | later
      · exact Int.le_trans (le_max_right a t) (le_foldl_max rest (a.max t))
      · exact ih later (a.max b)

theorem le_latest {ts : List Instant} {t : Instant} (mem : t ∈ ts) :
    ∃ last, latest? ts = some last ∧ t.nanos ≤ last.nanos := by
  cases ts with
  | nil => cases mem
  | cons a rest =>
      refine ⟨_, rfl, ?_⟩
      rcases List.mem_cons.mp mem with rfl | later
      · exact le_foldl_max rest t
      · exact mem_le_foldl_max later a

end Instant

namespace Task

variable {crew : List Worker} {k : Worker} {e : Instant}

/-- No member of a crew ended later than the task. -/
theorem le_end (task : Task) (mem : k ∈ crew) (ended : k.ended = some e) :
    ∃ last, task.end? crew = some last ∧ e.nanos ≤ last.nanos := by
  obtain ⟨last, he, le⟩ := Instant.le_latest
    (List.mem_filterMap.mpr ⟨k, mem, ended⟩)
  have he : Worker.lastEnd? crew = some last := he
  unfold end?
  rw [he]
  cases task.ended with
  | none => exact ⟨last, rfl, le⟩
  | some own =>
      exact ⟨_, rfl, Int.le_trans le (Instant.le_max_right own last)⟩

/-- The end of a member of the crew lies within the task's length. -/
theorem ended_within (task : Task) (mem : k ∈ crew)
    (ended : k.ended = some e) :
    e.nanos ≤ task.start.nanos + (task.duration crew).nanos := by
  obtain ⟨last, he, le⟩ := task.le_end mem ended
  have length := Duration.le_clamp (last.since task.start)
  unfold duration
  rw [he]
  dsimp only
  have since : (last.since task.start).nanos
    = last.nanos - task.start.nanos := rfl
  omega

end Task

-- ============================================================== rounding

/-- In milliseconds, `inner` starts no earlier than `outer` and ends at most
one later. -/
def Span.Within (inner outer : Span) : Prop :=
  outer.startMs.toInt ≤ inner.startMs.toInt
    ∧ inner.startMs.toInt + inner.durationMs.toInt
      ≤ outer.startMs.toInt + outer.durationMs.toInt + 1

/-- A span shows the whole milliseconds at which it starts, which 64 bits hold.
-/
theorem toInt_startMs (kind : SpanKind) (start : Instant)
    (length : Duration) :
    (Span.ofInterval kind start length).startMs.toInt
      = start.nanos / 1000000 := by
  have bounds := start.millis_bounds
  exact Int64.toInt_ofInt_of_le (by omega) (by omega)

/-- It shows the whole milliseconds that it lasts. -/
theorem toInt_durationMs (kind : SpanKind) (start : Instant)
    {length : Duration} (nonneg : 0 ≤ length.nanos) :
    (Span.ofInterval kind start length).durationMs.toInt
      = length.nanos / 1000000 := by
  have bounds := length.millis_bounds
  have cut : length.millis = length.nanos / 1000000 :=
    Int.tdiv_eq_ediv_of_nonneg nonneg
  rw [← cut]
  exact Int64.toInt_ofInt_of_le (by omega) (by omega)

/-- The span of a worker that started and ended within an interval lies
within the span of the interval. -/
theorem within_of_nested {k : Worker} {s e start : Instant}
    {length : Duration} (started : k.started = some s)
    (ended : k.ended = some e) (order : s.nanos ≤ e.nanos)
    (after : start.nanos ≤ s.nanos)
    (before : e.nanos ≤ start.nanos + length.nanos) (id parent : SpanId)
    (kind : SpanKind) :
    (k.span id parent).Within (Span.ofInterval kind start length) := by
  have nonneg : 0 ≤ length.nanos := by omega
  have same : k.duration.nanos = e.nanos - s.nanos := by
    have le : (Duration.zero).nanos ≤ (e.since s).nanos := by
      show 0 ≤ e.nanos - s.nanos
      omega
    unfold Worker.duration
    rw [started, ended]
    dsimp only [Duration.clamp, Duration.max]
    split
    · next le' => exact Int.le_antisymm le le'
    · rfl
  have inner : (k.span id parent).startMs.toInt = s.nanos / 1000000 := by
    have at_ : k.started.getD k.created = s := by
      rw [started]
      rfl
    rw [← at_]
    exact toInt_startMs k.kind _ k.duration
  have inner' : (k.span id parent).durationMs.toInt
      = (e.nanos - s.nanos) / 1000000 := by
    rw [← same]
    exact toInt_durationMs k.kind (k.started.getD k.created) (by omega)
  unfold Span.Within
  rw [inner, inner', toInt_startMs, toInt_durationMs _ _ nonneg]
  omega

namespace LedgerOp

open Ledger

variable {l : Ledger}

-- ============================================================== closings

/-- The operations by which the scheduler closes a task before the build
ends. -/
def closes : LedgerOp → Bool
  | finishTask _ | flush => true
  | _ => false

/-- The lines that an operation adds to the journal. -/
def written (op : LedgerOp) (l : Ledger) : List Write :=
  (op.apply l).1.journal.drop l.journal.length

/-- What such an operation writes for a task is the span of an idle task, as
it is left on record. -/
theorem closed_idle {op : LedgerOp} (closes : op.closes = true)
    (single : Single l) {line : Write} {t : TaskId}
    (new : line ∈ op.written l) (own : line.origin = .task t) :
    ∃ task, (op.apply l).1.tasks[t]? = some task
      ∧ (op.apply l).1.idle task = true
      ∧ line.record.span = task.span ((op.apply l).1.crewOf task) := by
  have of_swept {m n : Ledger} (same : m.journal = l.journal)
      (swept : Swept m n) (mem : line ∈ n.journal.drop l.journal.length) :
      ∃ task, n.tasks[t]? = some task ∧ n.idle task = true
        ∧ line.record.span = task.span (n.crewOf task) := by
    obtain ⟨added, journal, lines⟩ := swept.lines
    rw [journal, same, List.drop_left] at mem
    obtain ⟨task, ht, -, idle, span⟩ := lines line mem t own
    exact ⟨task, ht, idle, span⟩
  cases op with
  | finishTask path =>
      obtain ⟨m, -, same, -, swept⟩ := swept_finishTask path l
      exact of_swept same swept new
  | flush => exact of_swept rfl (swept_flush single) new
  | _ => cases closes

/-- So each task has one place in the registry throughout. -/
theorem single_run {ops : List LedgerOp} (h : Single l) :
    Single (run ops l).1 := by
  induction ops generalizing l with
  | nil => exact h
  | cons op rest ih => exact ih (single_apply h)

theorem blank_dated (h : l.Blank) : Dated l where
  start := by intro t task found; simp [h.tasks] at found
  member := by intro t task key w found; simp [h.tasks] at found

/-- In an empty ledger no worker has done anything, and no crew knows one. -/
theorem blank_roster (h : l.Blank) (w : WorkerId) : Roster w [] l where
  fresh := by
    intro _
    refine ⟨rfl, fun u => ?_⟩
    unfold reportsOf
    rw [h.journal]
    rfl
  member := by
    intro t key mem
    obtain ⟨task, ht⟩ := known_of_member mem
    simp [h.tasks] at ht

-- =============================================================== nesting

/-- In a run from nothing whose clock never moves backwards, let the
scheduler close a task and write its span, and let a member of the task's
crew go through its routine, as far as it goes in the run. Then at the end
of the run the member has started and ended within the task's interval, and
every span that was ever written for it lies within the task's span, also one
that is written later. The crew is the one at the moment the task's span is
written: who enters it after that has no part in the end that the span shows,
and need not lie within it. -/
theorem workers_nest_in_tasks (before after : List LedgerOp) (op : LedgerOp)
    (l : Ledger) (blank : l.Blank)
    (forward : Forward (before ++ op :: after) l = true)
    (closes : op.closes = true) (line : Write) (t : TaskId)
    (new : line ∈ op.written (run before l).1)
    (own : line.origin = .task t) :
    let m := (op.apply (run before l).1).1
    let o := (run (before ++ op :: after) l).1
    ∃ task, m.tasks[t]? = some task
      ∧ line.record.span = task.span (m.crewOf task)
      ∧ ∀ key w, (key, w) ∈ task.crew →
        stepsOf w (before ++ op :: after) l <+: routine →
        ∃ k s e, o.workers[w]? = some k ∧ k.started = some s
          ∧ k.ended = some e ∧ s.nanos ≤ e.nanos
          ∧ task.start.nanos ≤ s.nanos
          ∧ e.nanos ≤ task.start.nanos
            + (task.duration (m.crewOf task)).nanos
          ∧ ∀ report ∈ o.journal, ∀ u, report.origin = .worker u w →
            report.record.span.Within line.record.span := by
  intro m o
  have single : Single (run before l).1 := by
    refine single_run ?_
    unfold Single
    rw [blank.registry]
    exact List.nodup_nil
  obtain ⟨task, ht, idle, span⟩ := closed_idle closes single new own
  refine ⟨task, ht, span, ?_⟩
  intro key w mem steps
  -- the run up to the closing operation, and the rest
  have upto : m = (run (before ++ [op]) l).1 :=
    (run_append before [op] l).symm
  have rest : o = (run after m).1 := by
    show (run (before ++ op :: after) l).1 = _
    rw [List.append_cons, run_append, upto]
  rw [List.append_cons, forward_append, Bool.and_eq_true_iff] at forward
  obtain ⟨early, late⟩ := forward
  rw [List.append_cons, stepsOf_append] at steps
  rw [← upto] at late steps
  have first := (List.prefix_append _ _).trans steps
  have dated : Dated m := by
    rw [upto]
    exact dated_run (blank_dated blank) early
  have roster : Roster w (stepsOf w (before ++ [op]) l) m := by
    rw [upto]
    exact roster_run (blank_dated blank) (blank_roster blank w) early first
  have crew : (key, w) ∈ m.crewAt t := by
    rw [Ledger.crewAt_of ht]
    exact mem
  obtain ⟨k, serving⟩ := roster.member crew
  have ended := idle_iff.mp idle key w k mem serving.found
  obtain ⟨e, he⟩ := Option.isSome_iff_exists.mp ended
  obtain ⟨s, hs, born, order⟩ := serving.times he
  obtain ⟨k', hk', -, start⟩ := dated.member ht crew
  obtain rfl : k = k' := by
    rw [serving.found] at hk'
    exact Option.some.inj hk'
  have member : k ∈ m.crewOf task :=
    List.mem_filterMap.mpr ⟨(key, w), mem, serving.found⟩
  have within := task.ended_within member he
  have last := stands_run serving ended late steps
  rw [← rest] at last
  refine ⟨k, s, e, last.found, hs, he, order, Int.le_trans start born,
    within, ?_⟩
  intro report there u origin
  obtain ⟨-, id, parent, shown⟩ := last.lines u report
    (List.mem_filter.mpr ⟨there, beq_iff_eq.mpr origin⟩)
  rw [shown, span]
  exact within_of_nested hs he order (Int.le_trans start born) within id
    parent .task

/-- Before the epoch and between milliseconds, with a worker that reports
only after its task's span was written. -/
theorem workers_nest_in_tasks_late_report :
    let l : Ledger :=
      { now := ⟨-1500001, by decide, by decide⟩
        sinks := #[{ outlet := .memory }] }
    let before : List LedgerOp :=
      [.startTask ":a" "p" none, .advance 0 600000,
        .enlist (.task 0) "k" .worker, .startWorker 0, .close (.task 0),
        .advance 0 700000, .endWorker 0]
    let after : List LedgerOp := [.advance 3 0, .report (.task 0) 0]
    let op : LedgerOp := .finishTask ":a"
    let o := (run (before ++ op :: after) l).1
    ∃ line ∈ op.written (run before l).1, line.origin = .task 0
      ∧ ∃ report ∈ o.journal, report.origin = .worker 0 0
        ∧ report.record.span.Within line.record.span := by
  intro l before after op o
  have some : (op.written (run before l).1).any
      (fun line => line.origin == .task 0) = true := by decide +kernel
  obtain ⟨line, new, own⟩ := List.any_eq_true.mp some
  have own := eq_of_beq own
  have reports : o.journal.any
      (fun line => line.origin == .worker 0 0) = true := by decide +kernel
  obtain ⟨report, there, origin⟩ := List.any_eq_true.mp reports
  have origin := eq_of_beq origin
  obtain ⟨task, ht, -, nest⟩ := workers_nest_in_tasks before after op l
    ⟨rfl, rfl, rfl, rfl⟩ (by decide +kernel) rfl line 0 new own
  have crew : (op.apply (run before l).1).1.crewAt 0 = [("k", 0)] := by
    decide +kernel
  rw [Ledger.crewAt_of ht] at crew
  obtain ⟨_, _, _, -, -, -, -, -, -, within⟩ := nest "k" 0
    (by rw [crew]; exact List.mem_cons_self) (by decide +kernel)
  exact ⟨line, new, own, report, there, origin,
    within report there 0 origin⟩

end LedgerOp

end TaskLedger
