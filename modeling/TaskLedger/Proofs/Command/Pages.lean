/-
What a summary makes of records that come in pages.

A page is a task's record with the records of the work that names it. If the
records are those of some pages, put in any order, and no two of the tasks have
one number, then a summary has a row for each page, and the row counts the work
of that page (`Summary.found_of_pages`). Whether there is a summary is a matter
of the times alone: there is one if no page has too many workers for how long
each may take (`Summary.sumsFit_of_pages`).
-/
import Mathlib.Algebra.Order.BigOperators.Group.List
import Mathlib.Algebra.Order.Ring.Int
import Mathlib.Data.List.Perm.Basic
import TaskLedger.Proofs.Command.Totals

namespace TaskLedger

-- ==================================================================== pages

/-- A task's record, and the records of the work that names it. -/
structure Page where
  path : String
  variant : String
  id : SpanId
  own : SpanRecord
  works : List SpanRecord
  kind : own.span.kind = .task
  named : own.span.task = some path
  varied : own.variant = some variant
  numbered : own.span.id = some id
  working : ∀ r ∈ works, r.span.kind ≠ .task ∧ r.span.parent = some id

namespace Page

open Tally

variable {pages : List Page} {p : Page} {q : SpanId} {rs : List SpanRecord}

/-- The records on it. -/
def records (p : Page) : List SpanRecord := p.own :: p.works

/-- All work on a page is for its task. -/
theorem workFor_records (p : Page) (q : SpanId) :
    workFor q p.records = if p.id = q then p.works else [] := by
  have own : isWorkFor q p.own = false := by
    unfold isWorkFor
    rw [p.kind]
    rfl
  unfold records
  rw [workFor_cons, own, if_neg Bool.false_ne_true]
  have each (r : SpanRecord) (mem : r ∈ p.works) :
      isWorkFor q r = decide (p.id = q) := by
    obtain ⟨kind, parent⟩ := p.working r mem
    unfold isWorkFor
    rw [bne_iff_ne.mpr kind, Bool.true_and, parent]
    exact Bool.eq_iff_iff.mpr (by simp)
  unfold workFor
  split
  · next same =>
      exact List.filter_eq_self.mpr fun r mem => by
        rw [each r mem, decide_eq_true same]
  · next other =>
      refine List.filter_eq_nil_iff.mpr fun r mem => ?_
      rw [each r mem, decide_eq_false other]
      exact Bool.false_ne_true

/-- Nobody works for a number that no page has. -/
theorem workFor_absent (absent : q ∉ pages.map Page.id) :
    workFor q (pages.flatMap records) = [] := by
  unfold workFor
  rw [List.filter_flatMap, List.flatMap_eq_nil_iff]
  intro p mem
  have other : p.id ≠ q := fun same =>
    absent (List.mem_map.mpr ⟨p, mem, same⟩)
  exact (p.workFor_records q).trans (if_neg other)

/-- If no two pages have one number, then a page has all work for its
own. -/
theorem workFor_pages (apart : (pages.map Page.id).Nodup) (mem : p ∈ pages) :
    workFor p.id (pages.flatMap records) = p.works := by
  induction pages with
  | nil => cases mem
  | cons first rest ih =>
      obtain ⟨fresh, apart⟩ := List.nodup_cons.mp apart
      have split : workFor p.id ((first :: rest).flatMap records)
          = workFor p.id first.records
            ++ workFor p.id (rest.flatMap records) := by
        unfold workFor
        rw [List.flatMap_cons, List.filter_append]
      rw [split, workFor_records]
      rcases List.mem_cons.mp mem with rfl | mem
      · rw [if_pos rfl, workFor_absent fresh, List.append_nil]
      · have other : first.id ≠ p.id := fun same =>
          fresh (List.mem_map.mpr ⟨p, mem, same.symm⟩)
        rw [if_neg other, List.nil_append]
        exact ih apart mem

/-- The tasks' own records on some pages. -/
theorem own_records (pages : List Page) :
    (pages.flatMap records).filter (fun r => r.span.kind == .task)
      = pages.map Page.own := by
  rw [List.filter_flatMap, List.map_eq_flatMap]
  refine List.flatMap_congr fun p _ => ?_
  have works : p.works.filter (fun r => r.span.kind == .task) = [] :=
    List.filter_eq_nil_iff.mpr fun r mem => by
      simpa using (p.working r mem).1
  unfold records
  rw [List.filter_cons, works, if_pos (by rw [p.kind]; rfl)]

end Page

namespace Summary

open Tally

variable {pages : List Page} {rs : List SpanRecord} {longest : Int}

/-- The work for a task is as much in whatever order the records stand. -/
theorem workFor_length (perm : rs.Perm (pages.flatMap Page.records))
    (q : SpanId) : (workFor q rs).length
      = (workFor q (pages.flatMap Page.records)).length :=
  (perm.filter _).length_eq

/-- The records of some pages, in whatever order, are found to have a row for
each page, which counts the work of that page. -/
theorem found_of_pages (perm : rs.Perm (pages.flatMap Page.records))
    (apart : (pages.map Page.id).Nodup) :
    ((found rs).rows.map fun row =>
      (row.task, row.variant, row.work.workers)).Perm
        (pages.map fun p => (p.path, p.variant, p.works.length)) := by
  have owns := perm.filter fun r => r.span.kind == .task
  rw [Page.own_records] at owns
  unfold found tasks
  refine ((owns.map _).map _).trans (List.Perm.of_eq ?_)
  rw [List.map_map, List.map_map]
  refine List.map_congr_left fun p mem => ?_
  -- the row of a page, part by part
  have workers : (workFor p.id rs).length = p.works.length := by
    rw [workFor_length perm, Page.workFor_pages apart mem]
  simp only [Function.comp_apply, rowWith, workAmong, p.numbered, p.named,
    p.varied, Option.getD_some, workers]

/-- Work that takes no longer than so long each does not take longer than
that many times so long. -/
theorem millisFor_le (q : SpanId)
    (time : ∀ r ∈ rs, r.span.kind ≠ .task →
      r.span.durationMs.toInt ≤ longest) :
    millisFor q rs ≤ (workFor q rs).length * longest := by
  have bound := List.sum_le_card_nsmul
    ((workFor q rs).map fun r => r.span.durationMs.toInt) longest ?_
  · rwa [List.length_map, nsmul_eq_mul] at bound
  · intro millis listed
    obtain ⟨r, works, rfl⟩ := List.mem_map.mp listed
    obtain ⟨mem, work⟩ := List.mem_filter.mp works
    exact time r mem (bne_iff_ne.mp (Bool.and_eq_true_iff.mp work).1)

/-- If no page has so many workers that they could take longer than a word
holds, then no sum leaves its range. -/
theorem sumsFit_of_pages (perm : rs.Perm (pages.flatMap Page.records))
    (apart : (pages.map Page.id).Nodup)
    (time : ∀ r ∈ rs, r.span.kind ≠ .task →
      0 ≤ r.span.durationMs.toInt ∧ r.span.durationMs.toInt ≤ longest)
    (few : ∀ p ∈ pages, p.works.length * longest ≤ 9223372036854775807) :
    SumsFit rs := by
  refine sumsFit_of_nonneg (fun r mem work => (time r mem work).1) fun q => ?_
  have most := millisFor_le q fun r mem work => (time r mem work).2
  rw [workFor_length perm] at most
  by_cases there : q ∈ pages.map Page.id
  · obtain ⟨p, mem, rfl⟩ := List.mem_map.mp there
    rw [Page.workFor_pages apart mem] at most
    exact most.trans (few p mem)
  · rw [Page.workFor_absent there, List.length_nil, Int.natCast_zero,
      Int.zero_mul] at most
    omega

end Summary

end TaskLedger
