/-
What a summary makes of any span file that can be read.

A row counts the records that name its task, wherever they stand, and adds up
their times exactly, as long as no sum leaves the range of a word on the way
(`Summary.ofRecords_exact`). Sums run in the order of the file, so of two files
with the same records in another order one may have a summary and the other
none.

A task without a number goes by zero, and so it is given the work that names
zero. That is the other thing that keeps a summary from being what it should
be (`Summary.due`).
-/
import TaskLedger.Command.Run
import TaskLedger.Proofs.Command.Tally
import TaskLedger.Proofs.SpanFile.Framing

namespace TaskLedger

open Tally

namespace Summary

variable {rs : List SpanRecord}

/-- The work for a task among some records: the records that are not a task's
and name it as their parent, and the sum of their times. -/
def workAmong (rs : List SpanRecord) (p : SpanId) : Tally :=
  ⟨(workFor p rs).length, millisFor p rs⟩

theorem more_empty (p : SpanId) (rs : List SpanRecord) :
    ({} : Tally).more p rs = workAmong rs p := by
  show (⟨0 + _, 0 + _⟩ : Tally) = _
  rw [Nat.zero_add, Int.zero_add]
  rfl

/-- A task's row with some work on it. -/
def rowWith (work : Tally) (r : SpanRecord) : SummaryRow where
  id := r.span.id.getD 0
  task := r.span.task.getD noName
  variant := r.variant.getD noName
  work := work
  durationMs := r.span.durationMs

/-- The tasks' records, in their order. -/
def tasks (rs : List SpanRecord) : List SpanRecord :=
  rs.filter fun r => r.span.kind == .task

/-- A row for each task, with the work that names the number it goes by. -/
def found (rs : List SpanRecord) : Summary where
  rows := (tasks rs).map fun r =>
    rowWith (workAmong rs (r.span.id.getD 0)) r
  records := rs.length

/-- A row for each task, with the work that names the task's own number. A task
without a number has none. -/
def due (rs : List SpanRecord) : Summary where
  rows := (tasks rs).map fun r =>
    rowWith ((r.span.id.map (workAmong rs)).getD {}) r
  records := rs.length

/-- At no point of the records is a sum of times out of range. -/
def SumsFit (rs : List SpanRecord) : Prop :=
  ∀ n p, fits (workAmong (rs.take n) p).millis = true

/-- The two are the same where nothing names a task without a number. -/
theorem found_eq_due_iff : found rs = due rs ↔
    ∀ r ∈ rs, r.span.kind = .task → r.span.id = none → workFor 0 rs = [] := by
  have rows : found rs = due rs ↔ ∀ r ∈ tasks rs,
      rowWith (workAmong rs (r.span.id.getD 0)) r
        = rowWith ((r.span.id.map (workAmong rs)).getD {}) r := by
    rw [← List.map_inj_left]
    exact ⟨fun same => congrArg Summary.rows same,
      fun same => congrArg (Summary.mk · rs.length) same⟩
  rw [rows]
  constructor
  · intro same r mem kind none_
    have row := congrArg SummaryRow.work
      (same r (List.mem_filter.mpr ⟨mem, by rw [kind]; rfl⟩))
    rw [none_] at row
    exact List.eq_nil_of_length_eq_zero (congrArg Tally.workers row)
  · intro nobody r mem
    obtain ⟨mem, kind⟩ := List.mem_filter.mp mem
    cases id : r.span.id with
    | some p => rfl
    | none =>
        have empty := nobody r mem (eq_of_beq kind) id
        show rowWith ⟨(workFor 0 rs).length, millisFor 0 rs⟩ r = _
        unfold millisFor
        rw [empty]
        rfl

/-- Records have a summary exactly if no sum leaves its range, and the summary
is the one found. -/
theorem ofRecords_exact (rs : List SpanRecord) :
    SumsFit rs ∧ ofRecords rs = .ok (found rs)
      ∨ ¬ SumsFit rs ∧ ofRecords rs = .error .sumRange := by
  have fits_iff : Table.Fits [] rs ↔ SumsFit rs := by
    unfold Table.Fits SumsFit
    refine forall_congr' fun n => forall_congr' fun q => ?_
    rw [show Table.of [] q = {} from rfl, more_empty]
  unfold ofRecords
  rcases addAll_exact [] rs (fun _ => rfl) with
    ⟨fits, t, done, tallies⟩ | ⟨out, fault⟩
  · refine .inl ⟨fits_iff.mp fits, ?_⟩
    rw [done]
    refine congrArg (fun rows => Except.ok (Summary.mk rows rs.length)) ?_
    refine List.map_congr_left fun r _ => ?_
    unfold rowOf rowWith
    dsimp only
    rw [tallies, ← more_empty]
    rfl
  · refine .inr ⟨fun fits => out (fits_iff.mpr fits), ?_⟩
    rw [fault]
    rfl

/-- If no work takes negative time and no sum is too large in the end, then
none is on the way. -/
theorem sumsFit_of_nonneg
    (time : ∀ r ∈ rs, r.span.kind ≠ .task → 0 ≤ r.span.durationMs.toInt)
    (few : ∀ p, millisFor p rs ≤ 9223372036854775807) : SumsFit rs := by
  intro n p
  have nonneg {some_ : List SpanRecord} (sub : some_ ⊆ rs) :
      0 ≤ millisFor p some_ :=
    millisFor_nonneg p fun r mem => time r (sub mem)
  have front := nonneg (List.take_subset n rs)
  have back := nonneg (List.drop_subset n rs)
  have parts := millisFor_append p (rs.take n) (rs.drop n)
  rw [List.take_append_drop] at parts
  have all := few p
  unfold fits workAmong
  simp only [Bool.and_eq_true, decide_eq_true_eq]
  omega

end Summary

namespace Command

/-- A span file that can be read and holds a record is summarized exactly if
no sum of times leaves its range at any point of the file; otherwise nothing is
printed and a fault ends the command. The summary has a row for each task in
the order of the file, with the number of the records that name it and the sum
of their times, wherever they stand. It is the summary that is due exactly if
also nothing names zero where a task has no number. -/
theorem summarize_exactly_where_sums_fit {tree : Files.Tree} {path : String}
    {rs : List SpanRecord} (read : recordsAt tree path = .ok rs)
    (some_ : rs ≠ []) :
    (Summary.SumsFit rs →
        summarize path tree = { tree, printed := [.table (Summary.found rs)] })
      ∧ (¬ Summary.SumsFit rs →
        summarize path tree = { tree, ended := .fault .sumRange })
      ∧ (summarize path tree = { tree, printed := [.table (Summary.due rs)] }
          ↔ Summary.SumsFit rs ∧ ∀ r ∈ rs, r.span.kind = .task →
              r.span.id = none → workFor 0 rs = []) := by
  have goes : summarize path tree = summarized tree [] rs := by
    unfold summarize
    rw [read]
    cases rs with
    | nil => exact absurd rfl some_
    | cons r rest => rfl
  rw [goes]
  unfold summarized
  rcases Summary.ofRecords_exact rs with ⟨fits, done⟩ | ⟨out, fault⟩
  · rw [done]
    refine ⟨fun _ => rfl, fun out => absurd fits out, ?_⟩
    rw [← Summary.found_eq_due_iff]
    constructor
    · intro same
      have printed := congrArg Outcome.printed same
      exact ⟨fits, Section.table.inj (List.cons.inj printed).1⟩
    · rintro ⟨-, same⟩
      rw [same]
      rfl
  · rw [fault]
    refine ⟨fun fits => absurd fits out, fun _ => rfl, ?_, ?_⟩
    · intro same
      cases congrArg Outcome.ended same
    · rintro ⟨fits, -⟩
      exact absurd fits out

/-- What is read of a file of records. -/
theorem recordsAt_lines {tree : Files.Tree} {path : String}
    {rs : List SpanRecord}
    (there : Files.read tree path = .ok (rs.flatMap SpanFile.line)) :
    recordsAt tree path = .ok rs := by
  unfold recordsAt
  rw [there]
  exact SpanFile.records_lines rs

/-- Three workers of one task in two files. The longest word there is comes
first in one of them, so that the sum leaves its range before the third worker
could bring it back; in the other it comes last. -/
theorem summarize_exactly_where_sums_fit_in_turn :
    let work (ms : Int64) : SpanRecord :=
      { project := ":p"
        span :=
          { parent := some 1, kind := .worker, startMs := 0
            durationMs := ms } }
    let task : SpanRecord :=
      { project := ":p"
        span :=
          { id := some 1, kind := .task, startMs := 0, durationMs := 0 } }
    let longest : Int64 := 9223372036854775807
    let tree : Files.Tree :=
      { entries :=
          [(#["a"], .file ([work longest, work 1, work (-1), task].flatMap
              SpanFile.line).toArray),
            (#["b"], .file ([work 1, work (-1), task, work longest].flatMap
              SpanFile.line).toArray)] }
    summarize "a" tree = { tree, ended := .fault .sumRange }
      ∧ ∃ s : Summary,
          summarize "b" tree = { tree, printed := [.table s] }
            ∧ s = Summary.due [work 1, work (-1), task, work longest]
            ∧ s.rows.map SummaryRow.work = [⟨3, 9223372036854775807⟩] := by
  intro work task longest tree
  have first : recordsAt tree "a"
      = .ok [work longest, work 1, work (-1), task] :=
    recordsAt_lines (by decide +kernel)
  have second : recordsAt tree "b"
      = .ok [work 1, work (-1), task, work longest] :=
    recordsAt_lines (by decide +kernel)
  -- in the one order the first sum overflows, in the other one none does
  have out : ¬ Summary.SumsFit [work longest, work 1, work (-1), task] :=
    fun fits => absurd (fits 2 1) (by decide +kernel)
  have fits : Summary.SumsFit [work 1, work (-1), task, work longest] := by
    intro n p
    by_cases one : p = 1
    · subst one
      rcases n with _ | _ | _ | _ | n
      · rfl
      · decide +kernel
      · decide +kernel
      · decide +kernel
      · rw [List.take_of_length_le (by simp)]
        decide +kernel
    · have nobody : workFor p ([work 1, work (-1), task, work longest].take n)
          = [] := by
        refine List.filter_eq_nil_iff.mpr fun r mem => ?_
        have mem := List.take_subset n _ mem
        simp only [List.mem_cons, List.not_mem_nil, or_false] at mem
        rcases mem with rfl | rfl | rfl | rfl <;>
          simp [isWorkFor, work, task, Ne.symm one]
      unfold Summary.workAmong millisFor
      rw [nobody]
      rfl
  refine ⟨(summarize_exactly_where_sums_fit first (List.cons_ne_nil _ _)).2.1
    out, _, (summarize_exactly_where_sums_fit second
      (List.cons_ne_nil _ _)).2.2.mpr ⟨fits, ?_⟩, rfl, by decide +kernel⟩
  intro r mem kind none_
  simp only [List.mem_cons, List.not_mem_nil, or_false] at mem
  rcases mem with rfl | rfl | rfl | rfl
  · cases kind
  · cases kind
  · cases none_
  · cases kind

/-- A task without a number, and a worker that names zero: the task is given
the worker, which is not due to it. -/
theorem numberless_given_work :
    let work : SpanRecord :=
      { project := ":p"
        span :=
          { parent := some 0, kind := .worker, startMs := 0, durationMs := 5 } }
    let task : SpanRecord :=
      { project := ":p"
        span := { kind := .task, startMs := 0, durationMs := 0 } }
    let tree : Files.Tree :=
      { entries := [(#["c"], .file ([task, work].flatMap
          SpanFile.line).toArray)] }
    ∃ s : Summary, summarize "c" tree = { tree, printed := [.table s] }
      ∧ s.rows.map SummaryRow.work = [⟨1, 5⟩]
      ∧ (Summary.due [task, work]).rows.map SummaryRow.work = [⟨0, 0⟩] := by
  intro work task tree
  have read : recordsAt tree "c" = .ok [task, work] :=
    recordsAt_lines (by decide +kernel)
  have done : Summary.ofRecords [task, work]
      = .ok (Summary.found [task, work]) := by decide +kernel
  refine ⟨Summary.found [task, work], ?_, by decide +kernel,
    by decide +kernel⟩
  unfold summarize summarized
  rw [read]
  dsimp only
  rw [done]
  rfl

end Command

end TaskLedger
