/-
The course of a task as a function of what was done to it.

A record has a status and two times, and seven kinds of calls change them.
What they come to is told here without a state, by the list of the deeds
alone (`standing`, `closing`, `ending`): the status is the last that was said,
a wait counts only where nothing else was said, and the span being written
puts an end to it all. The end is the latest of the reports that found nobody
left at work after the task had given up control (`late`), together with the
first time that it was reported as done, if no such report had come before
(`firstDone`).

Each of these is told for one deed more at the end of a list; `Follows` says
that a record is what the deeds make of it, and `Follows.act` is the step. On
a ledger only the operations for the task are deeds, and a report is one only
because a number is left for its span: where none is left, it all stops before
the task takes note.
-/
import Mathlib.Data.List.Basic
import Mathlib.Data.List.Induction
import Mathlib.Data.List.TakeWhile
import TaskLedger.Proofs.Ledger.TaskEffects
import TaskLedger.Proofs.Ledger.Nesting

namespace TaskLedger

/-- One more instant is the latest, or it is not. -/
theorem Instant.latest?_concat (ts : List Instant) (t : Instant) :
    latest? (ts ++ [t])
      = some (match latest? ts with
          | some last => last.max t
          | none => t) := by
  cases ts with
  | nil => rfl
  | cons a rest =>
      simp only [List.cons_append, latest?, List.foldl_append,
        List.foldl_cons, List.foldl_nil]

/-- There is a latest of some instants unless there are none. -/
theorem Instant.latest?_eq_none {ts : List Instant} :
    latest? ts = none ↔ ts = [] := by
  cases ts with
  | nil => simp [latest?]
  | cons a rest => simp [latest?]

-- =================================================================== deeds

/-- What can be done to a task, as far as its course is concerned. -/
inductive Deed
  /-- It blocked on its workers. -/
  | waited
  /-- It gave control back. -/
  | closed (now : Instant)
  /-- The scheduler was done with it. -/
  | finished (now : Instant)
  /-- A worker reported, and all its workers had ended, or not. -/
  | reported (now : Instant) (idle : Bool)
  /-- Its span was written. -/
  | written
  deriving DecidableEq, Repr

namespace Deed

/-- The status that a deed gives whatever the one before was. -/
def status? : Deed → Option TaskStatus
  | closed _ => some .closed
  | finished _ => some .finished
  | _ => none

/-- The time at which control was given back. -/
def closed? : Deed → Option Instant
  | closed now => some now
  | _ => none

/-- The time at which the scheduler was done. -/
def finished? : Deed → Option Instant
  | finished now => some now
  | _ => none

/-- The time of a report after which nobody was left at work. -/
def idled? : Deed → Option Instant
  | reported now true => some now
  | _ => none

/-- The status after some deeds. -/
def standing (deeds : List Deed) : TaskStatus :=
  if .written ∈ deeds then .spanClosed
  else
    match (deeds.filterMap status?).getLast? with
    | some status => status
    | none => if .waited ∈ deeds then .waiting else .running

/-- When control was last given back before the span was written. -/
def closing (deeds : List Deed) : Option Instant :=
  ((deeds.takeWhile (· ≠ .written)).filterMap closed?).getLast?

/-- The times of the reports that were made after the task had given up
control, while its span was still open and nobody was left at work. -/
def late (deeds : List Deed) : List Instant :=
  deeds.zipIdx.filterMap fun (deed, i) =>
    if (standing (deeds.take i)).released then deed.idled? else none

/-- When the scheduler was first done with the task, if that was before its
span was written and no such report had come. -/
def firstDone (deeds : List Deed) : Option Instant :=
  let before := deeds.takeWhile fun deed => deed.finished? = none
  if .written ∉ before ∧ late before = [] then
    (deeds.filterMap finished?).head?
  else none

/-- When the task ended. -/
def ending (deeds : List Deed) : Option Instant :=
  Instant.latest? ((firstDone deeds).toList ++ late deeds)

-- ================================================================ one more

section

variable {deeds : List Deed} {deed : Deed} {now : Instant} {idle : Bool}

/-- Once the span is written, nothing else tells the status. -/
theorem standing_of_written (written : .written ∈ deeds) :
    standing deeds = .spanClosed := if_pos written

/-- What a deed gives is one of two. -/
theorem status_of_last {status : TaskStatus}
    (last : (deeds.filterMap status?).getLast? = some status) :
    status = .closed ∨ status = .finished := by
  obtain ⟨deed, -, gives⟩ :=
    List.mem_filterMap.mp (List.mem_of_getLast? last)
  cases deed with
  | closed => exact .inl (Option.some.inj gives).symm
  | finished => exact .inr (Option.some.inj gives).symm
  | waited | reported | written => cases gives

/-- While the span is open, the status is another one. -/
theorem standing_open (opened : .written ∉ deeds) :
    (standing deeds).terminal = false := by
  unfold standing
  rw [if_neg opened]
  split
  · next status last =>
      rcases status_of_last last with rfl | rfl <;> rfl
  · split <;> rfl

/-- A task is over exactly if its span was written. -/
theorem terminal_standing :
    (standing deeds).terminal = true ↔ .written ∈ deeds := by
  constructor
  · intro terminal
    by_contra opened
    rw [standing_open opened] at terminal
    cases terminal
  · intro written
    rw [standing_of_written written]
    rfl

/-- Only the deed that writes the span writes it. -/
theorem written_snoc (ne : deed ≠ .written) :
    .written ∈ deeds ++ [deed] ↔ .written ∈ deeds := by
  rw [List.mem_append, List.mem_singleton]
  exact or_iff_left fun same => ne same.symm

/-- The last deed that gives a status tells it, as long as the span is open. -/
theorem standing_gives {status : TaskStatus} (opened : .written ∉ deeds)
    (gives : deed.status? = some status) :
    standing (deeds ++ [deed]) = status := by
  have ne : deed ≠ .written := by
    rintro rfl
    cases gives
  unfold standing
  rw [if_neg ((written_snoc ne).not.mpr opened), List.filterMap_append,
    List.filterMap_cons, gives, List.filterMap_nil, List.getLast?_concat]

/-- A wait shows as long as no deed has given a status. -/
theorem standing_waited :
    standing (deeds ++ [.waited])
      = if standing deeds = .running ∨ standing deeds = .waiting
        then .waiting else standing deeds := by
  have same : (deeds ++ [Deed.waited]).filterMap status?
      = deeds.filterMap status? := by
    rw [List.filterMap_append]
    exact List.append_nil _
  unfold standing
  rw [same]
  by_cases written : .written ∈ deeds
  · rw [if_pos (List.mem_append_left _ written), if_pos written]
    rfl
  · rw [if_neg ((written_snoc (by decide)).not.mpr written), if_neg written,
      if_pos (List.mem_append_right deeds List.mem_cons_self)]
    cases last : (deeds.filterMap status?).getLast? with
    | some status =>
        rcases status_of_last last with rfl | rfl <;> rfl
    | none =>
        dsimp only
        split <;> rfl

/-- A report does not change the status. -/
theorem standing_reported :
    standing (deeds ++ [.reported now idle]) = standing deeds := by
  unfold standing
  rw [List.filterMap_append, List.filterMap_cons]
  simp [status?]

/-- What was written stays written. -/
theorem closing_written (written : .written ∈ deeds) :
    closing (deeds ++ [deed]) = closing deeds := by
  unfold closing
  rw [List.takeWhile_append]
  rw [if_neg]
  intro all
  have same := List.takeWhile_eq_self_iff.mp
    ((List.takeWhile_prefix _).eq_of_length all) _ written
  simp at same

/-- As long as the span is open, control is given back by the last deed that
gives it back. -/
theorem closing_open (opened : .written ∉ deeds) :
    closing (deeds ++ [deed])
      = match deed.closed? with
        | some now => some now
        | none => closing deeds := by
  have all : deeds.takeWhile (· ≠ .written) = deeds :=
    List.takeWhile_eq_self_iff.mpr fun d mem => by
      simp only [ne_eq, decide_not, Bool.not_eq_eq_eq_not, Bool.not_true,
        decide_eq_false_iff_not]
      rintro rfl
      exact opened mem
  unfold closing
  rw [List.takeWhile_append, all, if_pos rfl, List.filterMap_append]
  cases deed with
  | closed now => simp [closed?]
  | waited | finished | reported | written => simp [closed?]

/-- Deeds of other sorts do not give control back. -/
theorem closing_other (other : deed.closed? = none) :
    closing (deeds ++ [deed]) = closing deeds := by
  by_cases written : .written ∈ deeds
  · exact closing_written written
  · rw [closing_open written, other]

/-- A report counts by what was done before it. -/
theorem late_snoc :
    late (deeds ++ [deed])
      = late deeds
        ++ if (standing deeds).released then deed.idled?.toList else [] := by
  unfold late
  rw [List.zipIdx_append, List.filterMap_append]
  congr 1
  · refine List.filterMap_congr fun (d, i) mem => ?_
    have lt : i < deeds.length := List.snd_lt_of_mem_zipIdx mem
    show (if (standing ((deeds ++ [deed]).take i)).released then _ else _)
      = _
    rw [List.take_append_of_le_length (Nat.le_of_lt lt)]
  · rw [List.zipIdx_singleton, Nat.zero_add, List.filterMap_cons,
      List.filterMap_nil]
    have same : (deeds ++ [deed]).take deeds.length = deeds :=
      List.take_left' rfl
    dsimp only
    rw [same]
    cases (standing deeds).released with
    | false => rfl
    | true => cases deed.idled? <;> rfl

/-- Only a report that leaves nobody at work comes late. -/
theorem late_other (other : deed.idled? = none) :
    late (deeds ++ [deed]) = late deeds := by
  rw [late_snoc, other]
  split <;> exact List.append_nil _

/-- A late report stays a late report, whatever is done after it. -/
theorem late_grows (some : late deeds ≠ []) :
    late (deeds ++ [deed]) ≠ [] := by
  rw [late_snoc]
  exact List.append_ne_nil_of_left_ne_nil some _

/-- Where the scheduler was never done, it has not been so first. -/
theorem firstDone_none (none : deeds.filterMap finished? = []) :
    firstDone deeds = Option.none := by
  unfold firstDone
  rw [none]
  dsimp only
  split <;> rfl

/-- Only the first time counts. -/
theorem firstDone_old (old : deeds.filterMap finished? ≠ []) :
    firstDone (deeds ++ [deed]) = firstDone deeds := by
  have short : ((deeds.takeWhile fun d => d.finished? = none).length
      = deeds.length) → False := by
    intro all
    refine old (List.filterMap_eq_nil_iff.mpr fun d mem => ?_)
    have holds := List.takeWhile_eq_self_iff.mp
      ((List.takeWhile_prefix _).eq_of_length all) d mem
    exact of_decide_eq_true holds
  have head : ((deeds ++ [deed]).filterMap finished?).head?
      = (deeds.filterMap finished?).head? := by
    rw [List.filterMap_append, List.head?_append_of_ne_nil _ old]
  unfold firstDone
  rw [List.takeWhile_append, if_neg short, head]

/-- The first time that the scheduler is done counts if neither the span is
written nor a report has come late. -/
theorem firstDone_first (none : deeds.filterMap finished? = []) :
    firstDone (deeds ++ [.finished now])
      = if .written ∉ deeds ∧ late deeds = [] then some now
        else Option.none := by
  have all : deeds.takeWhile (fun d => d.finished? = Option.none) = deeds :=
    List.takeWhile_eq_self_iff.mpr fun d mem =>
      decide_eq_true (List.filterMap_eq_nil_iff.mp none d mem)
  unfold firstDone
  rw [List.takeWhile_append, all, if_pos rfl, List.filterMap_append, none]
  simp [finished?]

/-- The first time stays the first one. -/
theorem firstDone_other (other : deed.finished? = none) :
    firstDone (deeds ++ [deed]) = firstDone deeds := by
  by_cases first : deeds.filterMap finished? = []
  · rw [firstDone_none first]
    refine firstDone_none ?_
    rw [List.filterMap_append, first, List.filterMap_cons, other]
    rfl
  · exact firstDone_old first

/-- A task has an end exactly if the scheduler was done first or a report came
late. -/
theorem ending_eq_none :
    ending deeds = none ↔ firstDone deeds = none ∧ late deeds = [] := by
  unfold ending
  rw [Instant.latest?_eq_none, List.append_eq_nil_iff]
  cases firstDone deeds <;> simp

/-- A task whose span is open has an end once it was reported as done. -/
theorem ending_of_finished (opened : .written ∉ deeds)
    (done : deeds.filterMap finished? ≠ []) : ending deeds ≠ none := by
  rw [ne_eq, ending_eq_none, not_and]
  induction deeds using List.reverseRecOn with
  | nil => exact absurd rfl done
  | append_singleton deeds deed ih =>
      have before : .written ∉ deeds :=
        fun mem => opened (List.mem_append_left _ mem)
      by_cases first : deeds.filterMap finished? = []
      · rw [List.filterMap_append, first, List.nil_append] at done
        cases deed with
        | finished now =>
            rw [firstDone_first first, late_other rfl]
            intro unset nobody
            rw [if_pos ⟨before, nobody⟩] at unset
            cases unset
        | waited | closed | reported | written => exact absurd rfl done
      · rw [firstDone_old first]
        exact fun unset => late_grows (ih before first unset)

/-- Other deeds leave the end where it is. -/
theorem ending_other (unfinished : deed.finished? = none)
    (other : deed.idled? = none) :
    ending (deeds ++ [deed]) = ending deeds := by
  unfold ending
  rw [firstDone_other unfinished, late_other other]

/-- The scheduler gives an end to a task that has none, and leaves the one that
is there. Here the first time and the late reports meet: if a report came late,
the first time does not count any more. -/
theorem ending_finished :
    ending (deeds ++ [.finished now])
      = if .written ∈ deeds then ending deeds
        else some ((ending deeds).getD now) := by
  have same : late (deeds ++ [.finished now]) = late deeds :=
    late_other rfl
  by_cases first : deeds.filterMap finished? = []
  · have before : ending deeds = Instant.latest? (late deeds) := by
      unfold ending
      rw [firstDone_none first]
      rfl
    rw [before]
    unfold ending
    rw [firstDone_first first, same]
    by_cases written : .written ∈ deeds
    · rw [if_neg fun h => h.1 written, if_pos written]
      rfl
    · rw [if_neg written]
      by_cases nobody : late deeds = []
      · rw [if_pos ⟨written, nobody⟩, nobody]
        rfl
      · rw [if_neg fun h => nobody h.2]
        cases last : Instant.latest? (late deeds) with
        | none => exact absurd (Instant.latest?_eq_none.mp last) nobody
        | some e => exact last
  · have still : ending (deeds ++ [.finished now]) = ending deeds := by
      unfold ending
      rw [firstDone_old first, same]
    rw [still]
    split
    · rfl
    · next opened =>
        cases last : ending deeds with
        | none => exact absurd last (ending_of_finished opened first)
        | some e => rfl

/-- A report that leaves nobody at work moves the end of a released task to now,
unless it is later. -/
theorem ending_reported :
    ending (deeds ++ [.reported now idle])
      = if (standing deeds).released && idle then
          some (match ending deeds with
            | some e => e.max now
            | none => now)
        else ending deeds := by
  have same : firstDone (deeds ++ [.reported now idle]) = firstDone deeds :=
    firstDone_other rfl
  unfold ending
  rw [same, late_snoc]
  cases idle with
  | false =>
      have silent : (Deed.reported now false).idled?.toList = [] := rfl
      rw [Bool.and_false, if_neg Bool.false_ne_true, silent, ite_self,
        List.append_nil]
  | true =>
      rw [Bool.and_true]
      split
      · exact (List.append_assoc ..).symm ▸ Instant.latest?_concat _ now
      · rw [List.append_nil]

/-- An end stays, or is moved on. -/
theorem ending_keeps {e : Instant} (set : ending deeds = some e)
    (more : List Deed) :
    ∃ e', ending (deeds ++ more) = some e' ∧ e.nanos ≤ e'.nanos := by
  induction more using List.reverseRecOn with
  | nil => exact ⟨e, (List.append_nil deeds).symm ▸ set, Int.le_refl _⟩
  | append_singleton more deed ih =>
      obtain ⟨e', set', le⟩ := ih
      have still {d : Option Instant} (same : d = ending (deeds ++ more)) :
          ∃ e', d = some e' ∧ e.nanos ≤ e'.nanos :=
        ⟨e', same.trans set', le⟩
      rw [← List.append_assoc]
      cases deed with
      | finished now =>
          rw [ending_finished]
          split
          · exact still rfl
          · refine still ?_
            rw [set']
            rfl
      | reported now idle =>
          rw [ending_reported]
          split
          · rw [set']
            exact ⟨_, rfl, Int.le_trans le (Instant.le_max_left e' now)⟩
          · exact still rfl
      | waited | closed | written =>
          exact still (ending_other rfl rfl)

end

-- ================================================================= records

/-- A record is what some deeds make of it. -/
structure Follows (deeds : List Deed) (task : Task) : Prop where
  status : task.status = standing deeds
  closed : task.closed = closing deeds
  ended : task.ended = ending deeds

variable {deeds : List Deed} {deed : Deed} {task : Task} {now : Instant}

/-- So the status of a task that follows some deeds tells if its span was among
them. -/
theorem Follows.terminal (h : Follows deeds task) :
    task.status.terminal = true ↔ .written ∈ deeds := by
  rw [h.status]
  exact terminal_standing

/-- To wait is a deed that changes no end. -/
theorem Follows.await (h : Follows deeds task) :
    Follows (deeds ++ [.waited]) task.await where
  status := by
    rw [standing_waited, ← h.status]
    unfold Task.await
    cases status : task.status <;> simp [status]
  closed := by
    rw [closing_other rfl, ← h.closed]
    unfold Task.await
    split <;> rfl
  ended := by
    rw [ending_other rfl rfl, ← h.ended]
    unfold Task.await
    split <;> rfl

/-- To give control back changes the status and the close, unless the span is
written. -/
theorem Follows.close (h : Follows deeds task) :
    Follows (deeds ++ [.closed now]) (task.close now) := by
  have end_same : ending (deeds ++ [.closed now]) = ending deeds :=
    ending_other rfl rfl
  unfold Task.close
  split
  · next isOver =>
      have written := h.terminal.mp isOver
      refine ⟨?_, ?_, end_same ▸ h.ended⟩
      · rw [h.status, standing_of_written written,
          standing_of_written (List.mem_append_left _ written)]
      · rw [h.closed, closing_written written]
  · next isOpen =>
      have opened := h.terminal.not.mp isOpen
      refine ⟨(standing_gives opened rfl).symm, ?_, end_same ▸ h.ended⟩
      rw [closing_open opened]
      rfl

/-- The scheduler's report changes the status and the end, unless the span is
written. -/
theorem Follows.finish (h : Follows deeds task) :
    Follows (deeds ++ [.finished now]) (task.finish now) := by
  have close_same : closing (deeds ++ [.finished now]) = closing deeds :=
    closing_other rfl
  unfold Task.finish
  split
  · next isOver =>
      have written := h.terminal.mp isOver
      refine ⟨?_, close_same ▸ h.closed, ?_⟩
      · rw [h.status, standing_of_written written,
          standing_of_written (List.mem_append_left _ written)]
      · rw [h.ended, ending_finished, if_pos written]
  · next isOpen =>
      have opened := h.terminal.not.mp isOpen
      refine ⟨(standing_gives opened rfl).symm, close_same ▸ h.closed, ?_⟩
      rw [ending_finished, if_neg opened, ← h.ended]

/-- A worker's report changes the end alone, and that if the task is released
and idle. -/
theorem Follows.report (h : Follows deeds task) (idle : Bool) :
    Follows (deeds ++ [.reported now idle]) (task.noteReport now idle) := by
  have close_same : closing (deeds ++ [.reported now idle]) = closing deeds :=
    closing_other rfl
  have stays : task.status = standing (deeds ++ [.reported now idle]) :=
    h.status.trans standing_reported.symm
  have moved : ending (deeds ++ [.reported now idle])
      = if task.status.released && idle then
          some (match task.ended with
            | some e => e.max now
            | none => now)
        else task.ended := by
    rw [ending_reported, h.status, h.ended]
  unfold Task.noteReport
  split
  · next counts =>
      rw [if_pos counts] at moved
      exact ⟨stays, close_same ▸ h.closed, moved.symm⟩
  · next idles =>
      rw [if_neg idles] at moved
      exact ⟨stays, close_same ▸ h.closed, moved.symm⟩

/-- Writing the span changes the status and nothing else. -/
theorem Follows.written (h : Follows deeds task) :
    Follows (deeds ++ [.written]) task.concluded where
  status :=
    (standing_of_written (List.mem_append_right _ List.mem_cons_self)).symm
  closed := h.closed.trans (closing_other rfl).symm
  ended := h.ended.trans (ending_other rfl rfl).symm

/-- Nothing happens to a task twice that is over. -/
theorem Follows.again (h : Follows deeds task)
    (isOver : task.status.terminal = true) :
    Follows (deeds ++ [.written]) task := by
  have written := h.terminal.mp isOver
  refine ⟨?_, h.closed.trans (closing_other rfl).symm,
    h.ended.trans (ending_other rfl rfl).symm⟩
  rw [h.status, standing_of_written written,
    standing_of_written (List.mem_append_left _ written)]

end Deed

-- ================================================================= numbers

namespace Ledger

/-- A sink has so many numbers left. -/
def Left (s : SinkId) (b : Nat) (l : Ledger) : Prop :=
  ∃ k, l.sinks[s]? = some k ∧ k.last.toNat + b ≤ Sink.largestId.toNat

variable {s : SinkId} {b : Nat} {l : Ledger}

/-- A number that is taken leaves one less, of whatever sink. -/
theorem Left.number (h : Left s (1 + b) l) (s' : SinkId) :
    Left s b { l with sinks := l.sinks.modify s' fun k => k.next.1 } := by
  obtain ⟨k, old, room⟩ := h
  obtain ⟨k', sink, rfl | rfl⟩ := sink_numbered old s'
  · exact ⟨k', sink, by omega⟩
  · obtain ⟨step, value⟩ := Sink.next_of_lt (k := k) (n := b) (by omega)
    refine ⟨k.next.1, sink, ?_⟩
    rw [step]
    dsimp only
    omega

/-- Where numbers are left, one is handed out. -/
theorem Left.allocate (h : Left s (1 + b) l) :
    ∃ id, (l.allocate s).2 = .ok id := by
  obtain ⟨k, sink, room⟩ := h
  obtain ⟨step, -⟩ := Sink.next_of_lt (k := k) (n := b) (by omega)
  refine ⟨k.last + 1, ?_⟩
  unfold Ledger.allocate
  rw [sink]
  dsimp only
  rw [step]

/-- Numbers are left as long as no more were taken than there were: nothing but
taking one makes them fewer. -/
theorem left_kept (s : SinkId) : Kept (fun _ => True) (Left s) where
  spare := fun ⟨k, sink, room⟩ => ⟨k, sink, by omega⟩
  change := by
    intro a b l m h c
    cases c with
    | quiet q =>
        cases q with
        | clock | aside | hired | turned => rwa [Nat.zero_add] at h
        | number s' => exact h.number s'
        | opened => exact h.number l.sink
    | concluded | enlisted | started | ended | offered =>
        rwa [Nat.zero_add] at h
    | reported => exact h.number _

end Ledger

-- =============================================================== histories

/-- A task that is new follows no deeds at all. -/
theorem Task.New.follows {task : Task} (h : task.New) :
    Deed.Follows [] task := ⟨h.status, h.closed, h.ended⟩

namespace LedgerOp

open Ledger Deed

/-- What an operation does to a task on record. -/
def deed? (t : TaskId) (op : LedgerOp) (l : Ledger) : Option Deed :=
  match l.tasks[t]? with
  | none => none
  | some task =>
    if op.entry? = some (.task t) then
      match op with
      | await _ => some .waited
      | close _ => some (.closed l.now)
      | finish _ => some (.finished l.now)
      | report _ w =>
        if w < l.workers.size then some (.reported l.now (l.idle task))
        else none
      | conclude _ => some .written
      | _ => none
    else none

/-- What a history does to a task. -/
def deeds (t : TaskId) : List LedgerOp → Ledger → List Deed :=
  noted fun op l => (op.deed? t l).toList

variable {op : LedgerOp} {l : Ledger} {t : TaskId} {said : List Deed}
  {task : Task} {b : Nat}

/-- One operation. -/
theorem follows_makes (found : l.tasks[t]? = some task)
    (h : Follows said task) (left : Left task.sink (op.draws l + b) l) :
    Follows (said ++ (op.deed? t l).toList) (op.makes t l task) := by
  -- what is done to others is no deed of the task
  by_cases aside : op.entry? = some (.task t)
  · have silent : Follows (said ++ (none : Option Deed).toList) task :=
      (List.append_nil said).symm ▸ h
    simp only [deed?, makes, found, if_pos aside]
    cases op with
    | await => exact h.await
    | close => exact h.close
    | finish => exact h.finish
    | attach e kind thread start length =>
        unfold Task.attach
        dsimp only
        split
        · exact silent
        · exact ⟨silent.status, silent.closed, silent.ended⟩
    | conclude =>
        dsimp only
        split
        · next isOver => exact h.again isOver
        · exact h.written
    | enlist => exact ⟨silent.status, silent.closed, silent.ended⟩
    | report e w =>
        obtain rfl : e = .task t := Option.some.inj aside
        dsimp only
        by_cases present : w < l.workers.size
        · -- there is a number left
          have one : (LedgerOp.report (.task t) w).draws l = 1 := by
            simp [draws, found, present]
          rw [one] at left
          obtain ⟨id, given⟩ := left.allocate
          rw [if_pos present, if_pos ⟨present, by rw [given]; rfl⟩]
          exact h.report (l.idle task)
        · rw [if_neg present, if_neg fun h => present h.1]
          exact silent
    | _ => exact silent
  · have nothing : op.deed? t l = none := by
      simp only [deed?, found, if_neg aside]
    rw [nothing, makes_aside aside, Option.toList_none, List.append_nil]
    exact h

/-- A whole run. -/
theorem follows_run {ops : List LedgerOp}
    (others : ∀ op ∈ ops, op.scheduling = false)
    (found : l.tasks[t]? = some task) (h : Follows said task)
    (left : Left task.sink (drawn ops l) l) :
    ∃ task', (run ops l).1.tasks[t]? = some task'
      ∧ Follows (said ++ deeds t ops l) task' := by
  induction ops generalizing l said task with
  | nil => exact ⟨task, found, (List.append_nil said).symm ▸ h⟩
  | cons op rest ih =>
      rw [drawn] at left
      have alone := others op List.mem_cons_self
      have is := same_makes alone found
      have later := (left_kept task.sink).apply_draws (fun _ _ => trivial) left
      obtain ⟨last, there, told⟩ :=
        ih (fun o mem => others o (List.mem_cons_of_mem op mem))
          (task_makes alone found) (follows_makes found h left)
          (is.sink ▸ later)
      rw [List.append_assoc] at told
      exact ⟨last, there, told⟩

/-- After any calls on a new record, on its workers and on whatever else there
is (the scheduler's own operations, which come down to such calls, are left
out), and as long as its sink has numbers left, its status and its times are
those that the deeds give. Its end is kept or moved on by whatever comes after
that, though the clock may go back. -/
theorem course_of_deeds (ops more : List LedgerOp) (l : Ledger) (t : TaskId)
    (task : Task) (k : Sink) (found : l.tasks[t]? = some task)
    (new : task.New) (others : ∀ op ∈ ops ++ more, op.scheduling = false)
    (sink : l.sinks[task.sink]? = some k)
    (room : k.last.toNat + drawn (ops ++ more) l ≤ Sink.largestId.toNat) :
    let said := deeds t ops l
    ∃ now later, (run ops l).1.tasks[t]? = some now
      ∧ (run (ops ++ more) l).1.tasks[t]? = some later
      ∧ now.status = standing said ∧ now.closed = closing said
      ∧ now.ended = ending said
      ∧ ∀ e, now.ended = some e →
          ∃ e', later.ended = some e' ∧ e.nanos ≤ e'.nanos := by
  intro said
  have first : Left task.sink (drawn ops l) l :=
    ⟨k, sink, by rw [drawn_append] at room; omega⟩
  obtain ⟨now, there, told⟩ :=
    follows_run (fun op mem => others op (List.mem_append_left more mem))
      found new.follows first
  obtain ⟨later, there', told'⟩ :=
    follows_run others found new.follows ⟨k, sink, room⟩
  rw [List.nil_append] at told told'
  refine ⟨now, later, there, there', told.status, told.closed, told.ended,
    fun e set => ?_⟩
  rw [told'.ended, deeds, noted_append]
  exact ending_keeps (told.ended.symm.trans set) _

/-- A task closes, is done and gets its first report of an idle crew, at a
time before both; it closes again and gets another one, and once its span is
written nothing counts any more. -/
theorem course_of_deeds_clock_back :
    let tick (ms : Int) : LedgerOp := .setClock ms
    let l : Ledger := {
      sinks := #[{ outlet := .memory, last := 1 }]
      tasks := #[{ path := ":a", project := ":app", variant := none, id := 1,
                   sink := 0, start := .epoch }] }
    let ops : List LedgerOp :=
      [.enlist (.task 0) "A" .worker, .await (.task 0), .startWorker 0,
        tick 10, .close (.task 0), .report (.task 0) 0, tick 20,
        .finish (.task 0), .endWorker 0, tick 5, .report (.task 0) 0,
        .close (.task 0), .await (.task 0)]
    let more : List LedgerOp :=
      [tick 40, .report (.task 0) 0, tick 30, .finish (.task 0),
        .conclude (.task 0), .report (.task 0) 0, .close (.task 0)]
    let said := deeds 0 ops l
    standing said = .closed ∧ (closing said).map Instant.millis = some 5
      ∧ (ending said).map Instant.millis = some 20
      ∧ standing (deeds 0 (ops ++ more) l) = .spanClosed
      ∧ (ending (deeds 0 (ops ++ more) l)).map Instant.millis = some 40
      ∧ ∃ now later, (run ops l).1.tasks[0]? = some now
          ∧ (run (ops ++ more) l).1.tasks[0]? = some later
          ∧ now.status = standing said ∧ now.closed = closing said
          ∧ now.ended = ending said
          ∧ ∀ e, now.ended = some e →
              ∃ e', later.ended = some e' ∧ e.nanos ≤ e'.nanos := by
  intro tick l ops more said
  refine ⟨by decide +kernel, by decide +kernel, by decide +kernel,
    by decide +kernel, by decide +kernel, ?_⟩
  exact course_of_deeds ops more l 0 _ _ rfl ⟨rfl, rfl, rfl, rfl, rfl⟩
    (by decide) rfl (by decide +kernel)

end LedgerOp

end TaskLedger
