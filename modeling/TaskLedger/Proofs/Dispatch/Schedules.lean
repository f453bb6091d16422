/-
The order in which the units of a pool proceed does not show.

Two runs of a shift in which the owner does the same and every unit gets
through end with ledgers that are alike (`Shift.Standing.meet`) and with the
same causes, in whatever order (`Shift.Standing.answers`). What comes then, a
task that gives control back or the scheduler that is done with it, cannot
tell them apart, and what the sinks hold is a matter of what they were offered
(`Ledger.Holding`). That is `schedules_agree`.

It takes a sink with a number for each unit. Where the numbers run out, the
unit that comes too late is given up and reported as cancelled, though it ran;
and which one that is, the order decides (`schedules_apart`).
-/
import TaskLedger.Proofs.Dispatch.Deferral
import TaskLedger.Proofs.Dispatch.ShiftInvariant
import TaskLedger.Session.View

namespace TaskLedger

open Dispatch

/-- Two answers to a wait that differ in the order of the causes, if at
all. -/
inductive Reordered : Except Error Unit → Except Error Unit → Prop
  | ok : Reordered (.ok ()) (.ok ())
  | failed {causes causes' : List String} (perm : causes.Perm causes') :
      Reordered (.error (.workers causes)) (.error (.workers causes'))

namespace Shift

variable {S : Shift} {b : Task} {works : List Work} {steps steps' : List Nat}
  {noted noted' : Bool} {e e' : Dispatch}

-- ==================================================================== ends

/-- When every unit is over, each has taken its five steps. -/
theorem Standing.through (h : S.Standing b works steps noted e)
    (isOver : ∀ (u : UnitId) (s : Submitted), e.units[u]? = some s →
      s.phase.over = true) : steps = List.replicate works.length 5 := by
  refine List.eq_replicate_iff.mpr ⟨h.length, ?_⟩
  intro j mem
  obtain ⟨i, hj⟩ := List.getElem?_of_mem mem
  have lt := (List.getElem?_eq_some_iff.mp hj).1
  rw [h.length] at lt
  have hw := List.getElem?_eq_getElem lt
  have found : e.units[S.d.units.size + i]?
      = some (S.unitAt i works[i] j) := by
    rw [h.units, Array.getElem?_append, if_neg (by omega),
      Nat.add_sub_cancel_left, List.getElem?_toArray, unitsAt_getElem? hw hj]
  have done := isOver _ _ found
  have near := h.near j mem
  match j with
  | 0 | 1 | 2 | 3 | 4 => cases done
  | 5 => rfl
  | _ + 6 => omega

/-- Then the task took note exactly if there were units and nobody else is at
work for it. -/
theorem Standing.noted_eq (h : S.Standing b works steps noted e)
    (through : steps = List.replicate works.length 5) :
    noted = (!works.isEmpty && S.spare b) := by
  subst through
  have all : ∀ j ∈ List.replicate works.length 5, 4 ≤ j := by
    intro j mem
    rw [(List.mem_replicate.mp mem).2]
    decide
  rw [Bool.eq_iff_iff, Bool.and_eq_true_iff, Bool.not_eq_true',
    List.isEmpty_eq_false_iff]
  constructor
  · intro yes
    obtain ⟨spare, j, mem, -⟩ := h.sound yes
    refine ⟨?_, spare⟩
    rintro rfl
    cases mem
  · rintro ⟨some, spare⟩
    exact h.told some all spare

/-- Two ways to come to the end meet. -/
theorem Standing.meet (h : S.Standing b works steps noted e)
    (h' : S.Standing b works steps' noted' e')
    (through : steps = List.replicate works.length 5)
    (through' : steps' = List.replicate works.length 5) :
    e.ledger.Alike e'.ledger := by
  have same : noted = noted' :=
    (h.noted_eq through).trans (h'.noted_eq through').symm
  have steps_ : steps = steps' := through.trans through'.symm
  subst same
  subst steps_
  exact h.ledger.trans h'.ledger.symm

/-- At the end a wait is over. It tells what was there to tell before, and
then the causes of the units in the order in which they were counted off. -/
theorem Standing.endAwait (h : S.Standing b works steps noted e)
    (through : steps = List.replicate works.length 5) :
    ∃ causes r, e.endAwait S.x = some (e.onPooled S.x cleared, r)
      ∧ (r = if causes.isEmpty then .ok () else .error (.workers causes))
      ∧ causes.Perm (S.p.failures ++ (List.range works.length).flatMap
          fun i => (works[i]?.bind S.fate).toList) := by
  obtain ⟨order, nodup, mem, pooled⟩ := h.pool
  subst through
  have all : order.Perm (List.range works.length) := by
    rw [List.perm_ext_iff_of_nodup nodup List.nodup_range]
    intro i
    rw [mem, List.mem_range, List.getElem?_replicate]
    split <;> simp [*]
  have idle : (S.stateAt works (List.replicate works.length 5)
      order).outstanding = 0 := by
    unfold stateAt
    rw [List.countP_replicate]
    rfl
  refine ⟨_, _, ?_, rfl, (all.flatMap_right _).append_left S.p.failures⟩
  unfold Dispatch.endAwait
  rw [pooled]
  dsimp only
  rw [if_pos idle]
  rfl

/-- After the wait the executor is still the task's. -/
theorem Standing.afterwards (h : S.Standing b works steps noted e) :
    ∃ q, (e.onPooled S.x cleared).pooled? S.x = some q
      ∧ q.entry = .task S.t := by
  obtain ⟨order, -, -, pooled⟩ := h.pool
  rw [pooled?_onPooled, if_pos rfl, pooled]
  exact ⟨_, rfl, S.entry⟩

/-- So two waits answer the same but for the order. -/
theorem Standing.answers (h : S.Standing b works steps noted e)
    (h' : S.Standing b works steps' noted' e')
    (through : steps = List.replicate works.length 5)
    (through' : steps' = List.replicate works.length 5) :
    ∃ r r', e.endAwait S.x = some (e.onPooled S.x cleared, r)
      ∧ e'.endAwait S.x = some (e'.onPooled S.x cleared, r')
      ∧ Reordered r r' := by
  obtain ⟨causes, r, answer, told, perm⟩ := h.endAwait through
  obtain ⟨causes', r', answer', told', perm'⟩ := h'.endAwait through'
  refine ⟨r, r', answer, answer', ?_⟩
  have same : causes.Perm causes' := perm.trans perm'.symm
  rw [told, told']
  cases causes with
  | nil =>
      rw [← same.nil_eq]
      exact .ok
  | cons cause rest =>
      cases causes' with
      | nil => exact absurd same.eq_nil (List.cons_ne_nil _ _)
      | cons => exact .failed same

end Shift

namespace DispatchOp

-- ================================================================== owners

/-- The work that is given out. -/
def work? : DispatchOp → Option Work
  | submit _ w => some w
  | _ => none

/-- One way in which things can go while the owner of an executor does its
part: units proceed in between as they come, to their end, and the owner does
not give control back once one has proceeded. -/
structure Schedule (part ops : List DispatchOp) (d : Dispatch) : Prop where
  order : ops.filter (fun op => !op.isStep) = part
  held : held ops = true
  through : ∀ (u : UnitId) (s : Submitted),
    (run ops d).1.units[u]? = some s → s.phase.over = true

/-- Steps of units are no doing of the owner. -/
theorem foldl_does (S : Shift) (ops : List DispatchOp)
    (s : Task × List Work) :
    ops.foldl S.does s
      = (ops.filter fun op => !op.isStep).foldl S.does s := by
  induction ops generalizing s with
  | nil => rfl
  | cons op rest ih =>
      cases op with
      | proceed u => exact ih s
      | _ => exact ih _

theorem works_does (S : Shift) (part : List DispatchOp)
    (s : Task × List Work) :
    (part.foldl S.does s).2 = s.2 ++ part.filterMap work? := by
  induction part generalizing s with
  | nil => exact (List.append_nil _).symm
  | cons op rest ih =>
      rw [List.foldl_cons, ih]
      cases op with
      | submit x w =>
          have given : (submit x w).work? = some w := rfl
          rw [List.filterMap_cons_some given]
          exact List.append_assoc _ [w] _
      | _ => rw [List.filterMap_cons_none rfl]; rfl

/-- Such a way leads to where things stand after the owner's part. -/
theorem Schedule.standing {S : Shift} {part ops : List DispatchOp}
    (h : Schedule part ops S.d)
    (owner : ∀ op ∈ part, op.ofOwner S.x = true)
    (still : ∀ w ∈ part.filterMap work?, S.Still w)
    (room : S.sink.last.toNat + (part.filterMap work?).length
      ≤ Sink.largestId.toNat) :
    ∃ steps noted, S.Standing (part.foldl S.does (S.task, [])).1
      (part.filterMap work?) steps noted (run ops S.d).1 := by
  have doing : ops.foldl S.does (S.task, [])
      = part.foldl S.does (S.task, []) := by
    rw [foldl_does, h.order]
  have works : (part.foldl S.does (S.task, [])).2 = part.filterMap work? :=
    works_does S part (S.task, [])
  have kinds : ∀ op ∈ ops, op.isStep = true ∨ op.ofOwner S.x = true := by
    intro op mem
    cases step : op.isStep with
    | true => exact .inl rfl
    | false =>
        refine .inr (owner op ?_)
        rw [← h.order]
        exact List.mem_filter.mpr ⟨mem, by simp [step]⟩
  have stands := Shift.run_standing room kinds
    (.inl ⟨fun j mem => (by cases mem), h.held⟩)
    (by rw [doing, works]; exact still)
    (Nat.le_of_eq (by rw [doing, works])) Shift.standing_start
  rw [doing, works] at stands
  exact stands

-- =============================================================== epilogue

/-- What comes after the wait: the task gives control back, if it has not
yet, and the scheduler is done with it. -/
def conclusion (late : Bool) (x : ExecutorId) (path : String) :
    List DispatchOp :=
  (if late then [.release x] else []) ++ [.onLedger (.finishTask path)]

/-- It comes to the same on dispatches whose ledgers are alike. -/
theorem conclusion_alike {d e : Dispatch} {x : ExecutorId}
    {p q : PooledState} (late : Bool) (path : String)
    (alike : d.ledger.Alike e.ledger) (hd : d.pooled? x = some p)
    (he : e.pooled? x = some q) (entry : p.entry = q.entry) :
    (run (conclusion late x path) d).1.ledger.Alike
        (run (conclusion late x path) e).1.ledger
      ∧ (run (conclusion late x path) d).2
        = (run (conclusion late x path) e).2 := by
  have done {l m : Ledger} (h : l.Alike m) := h.finishTask path
  cases late with
  | false =>
      obtain ⟨after, answer⟩ := done alike
      refine ⟨after, ?_⟩
      show [Except.ok (DispatchAnswer.ofLedger (.yes _))]
        = [Except.ok (DispatchAnswer.ofLedger (.yes _))]
      rw [answer]
  | true =>
      have closed : (d.release x).ledger.Alike (e.release x).ledger := by
        unfold Dispatch.release
        rw [hd, he]
        dsimp only
        rw [entry]
        exact LedgerOp.alike_does (fun t _ _ h => h.close t) q.entry alike
      obtain ⟨after, answer⟩ := done closed
      refine ⟨after, ?_⟩
      show [Except.ok DispatchAnswer.done,
          Except.ok (DispatchAnswer.ofLedger (.yes _))]
        = [Except.ok DispatchAnswer.done,
          Except.ok (DispatchAnswer.ofLedger (.yes _))]
      rw [answer]

/-- What a sink holds at the end of two histories that are alike is the
same. -/
theorem taken_alike {b : Dispatch} (blank : b.ledger.Blank)
    (ops ops' : List DispatchOp)
    (alike : (run ops b).1.ledger.Alike (run ops' b).1.ledger) {s : SinkId}
    {k : Sink} (found : b.ledger.sinks[s]? = some k) :
    (run ops b).1.ledger.taken s = (run ops' b).1.ledger.taken s := by
  have fresh : b.ledger.offered s = [] := by
    unfold Ledger.offered
    rw [blank.journal]
    rfl
  rw [(holding_run ops found fresh).taken, (holding_run ops' found fresh).taken,
    alike.offered]

/-- After any history from nothing, let no unit be on the way, and let a
pooled executor of a task on record give out units that leave the clock where
it is, over a sink with a number for each. Take any two ways in which the
units can proceed while the owner does its part, as long as all get through
and the owner does not give control back once one has proceeded. Both waits
are over, with the same answer but for the order of the causes. Then, whether
the task gives control back only now or did so before, the scheduler gets the
same answer when it is done with it, and there is no difference between the
tasks, the workers, the registries, what a task shows, and the records that
the sinks hold, in their order. -/
theorem schedules_agree (history : List DispatchOp) (b d : Dispatch)
    (blank : b.ledger.Blank) (reached : (run history b).1 = d)
    (live : d.stopped = false)
    (quiet : ∀ (u : UnitId) (s : Submitted), d.units[u]? = some s →
      s.phase.over = true)
    (x : ExecutorId) (p : PooledState) (t : TaskId) (task : Task) (k : Sink)
    (pooled : d.pooled? x = some p) (entry : p.entry = .task t)
    (idle : p.outstanding = 0) (found : d.ledger.tasks[t]? = some task)
    (home : d.ledger.sinks[task.sink]? = some k)
    (part : List DispatchOp) (owner : ∀ op ∈ part, op.ofOwner x = true)
    (still : ∀ w ∈ part.filterMap work?,
      (d.ledger.advance w.script.ms w.script.ns).1 = d.ledger)
    (room : k.last.toNat + (part.filterMap work?).length
      ≤ Sink.largestId.toNat)
    (ops₁ ops₂ : List DispatchOp) (one : Schedule part ops₁ d)
    (two : Schedule part ops₂ d) (late : Bool) (path : String) :
    ∃ e₁ r₁ e₂ r₂, (run ops₁ d).1.endAwait x = some (e₁, r₁)
      ∧ (run ops₂ d).1.endAwait x = some (e₂, r₂) ∧ Reordered r₁ r₂
      ∧ let n₁ := run (conclusion late x path) e₁
        let n₂ := run (conclusion late x path) e₂
        n₁.2 = n₂.2
          ∧ n₁.1.ledger.tasks = n₂.1.ledger.tasks
          ∧ n₁.1.ledger.workers = n₂.1.ledger.workers
          ∧ n₁.1.ledger.registry = n₂.1.ledger.registry
          ∧ (∀ a : Task, Session.viewTask n₁.1.ledger a
              = Session.viewTask n₂.1.ledger a)
          ∧ ∀ (s : SinkId) (j : Sink), b.ledger.sinks[s]? = some j →
              n₁.1.ledger.taken s = n₂.1.ledger.taken s := by
  have sound : Ledger.Sound d.ledger := by
    rw [← reached]
    exact sound_run history blank
  let S : Shift :=
    { d, x, p, t, task, sink := k, live, isOver := quiet _ _, pooled, entry, idle,
      found, home,
      manned := by
        intro m mem
        obtain ⟨w, hw⟩ := sound.manned found mem
        exact (Array.getElem?_eq_some_iff.mp hw).1 }
  obtain ⟨steps₁, noted₁, stands₁⟩ :=
    Schedule.standing (S := S) one owner still room
  obtain ⟨steps₂, noted₂, stands₂⟩ :=
    Schedule.standing (S := S) two owner still room
  have through₁ := stands₁.through one.through
  have through₂ := stands₂.through two.through
  obtain ⟨r₁, r₂, answer₁, answer₂, reordered⟩ :=
    stands₁.answers stands₂ through₁ through₂
  have alike := stands₁.meet stands₂ through₁ through₂
  refine ⟨_, r₁, _, r₂, answer₁, answer₂, reordered, ?_⟩
  obtain ⟨q₁, pooled₁, entry₁⟩ := stands₁.afterwards
  obtain ⟨q₂, pooled₂, entry₂⟩ := stands₂.afterwards
  obtain ⟨after, answers⟩ := conclusion_alike late path
    (d := (run ops₁ d).1.onPooled x cleared)
    (e := (run ops₂ d).1.onPooled x cleared)
    alike pooled₁ pooled₂ (entry₁.trans entry₂.symm)
  -- each history as one run from nothing
  have whole {ops : List DispatchOp} {e : Dispatch} {r : Except Error Unit}
      (answer : (run ops d).1.endAwait x = some (e, r)) :
      (run (history ++ (ops ++ .endAwait x :: conclusion late x path)) b).1
        = (run (conclusion late x path) e).1 := by
    have awaited : ((DispatchOp.endAwait x).apply (run ops d).1).1 = e := by
      simp only [apply, answer]
    rw [run_append, reached, run_append]
    show (run _ ((DispatchOp.endAwait x).apply (run ops d).1).1).1 = _
    rw [awaited]
  refine ⟨answers, after.tasks, after.workers, after.registry, ?_, ?_⟩
  · intro a
    unfold Session.viewTask
    rw [after.crewOf]
  · intro s j there
    have taken := taken_alike blank
      (history ++ (ops₁ ++ .endAwait x :: conclusion late x path))
      (history ++ (ops₂ ++ .endAwait x :: conclusion late x path))
      (by rw [whole answer₁, whole answer₂]; exact after) there
    rw [whole answer₁, whole answer₂] at taken
    exact taken

/-- A unit that takes no time leaves the clock where it is. -/
theorem advance_zero (l : Ledger) : (l.advance 0 0).1 = l := by
  have stays : l.now.shift Duration.zero = .ok l.now := by
    unfold Instant.shift Instant.ofNanos?
    rw [dif_pos ⟨by simpa [Duration.zero] using l.now.ge,
      by simpa [Duration.zero] using l.now.le⟩]
    simp [Duration.zero]
  have none : Duration.ofParts 0 0 = .ok Duration.zero := rfl
  have now : Duration.ofParts 0 0 >>= l.now.shift = .ok l.now := by
    rw [none]
    exact stays
  unfold Ledger.advance
  rw [now]

/-- Three units, of which one fails and one panics, and two of the ways they
can go: one after the other before the wait, and across each other during
it. -/
theorem schedules_agree_across :
    let b : Dispatch := { ledger := { sinks := #[{ outlet := .memory }] } }
    let history : List DispatchOp :=
      [.onLedger (.startTask ":a" ":app" none),
        .addExecutor (.pooled { owner := ":a", entry := .task 0 })]
    let d := (run history b).1
    let submits : List DispatchOp :=
      [.submit 0 ⟨"A", 1, {}⟩, .submit 0 ⟨"B", 2, { ending := .failure "no" [] }⟩,
        .submit 0 ⟨"C", 3, { ending := .panic none }⟩]
    let straightOn := submits
      ++ (straight 0 ++ straight 1 ++ straight 2).map .proceed
      ++ [.beginAwait 0]
    let across := submits ++ .beginAwait 0
      :: ([2, 1, 0, 2, 2, 0, 1, 2, 2, 1, 1, 0, 1, 0, 0] : List UnitId).map
        .proceed
    ∃ e₁ r₁ e₂ r₂, (run straightOn d).1.endAwait 0 = some (e₁, r₁)
      ∧ (run across d).1.endAwait 0 = some (e₂, r₂) ∧ Reordered r₁ r₂
      ∧ (run (conclusion true 0 ":a") e₁).1.ledger.taken 0
        = (run (conclusion true 0 ":a") e₂).1.ledger.taken 0 := by
  intro b history d submits straightOn across
  have isOver : ∀ (ops : List DispatchOp), (run ops d).1.units.all
      (fun s => s.phase.over) = true → ∀ (u : UnitId) (s : Submitted),
      (run ops d).1.units[u]? = some s → s.phase.over = true := by
    intro ops all u s found
    obtain ⟨lt, rfl⟩ := Array.getElem?_eq_some_iff.mp found
    exact Array.all_eq_true.mp all u lt
  -- all the work takes no time, so the schedule moves no clock
  let part := submits ++ [.beginAwait 0]
  have instant : ∀ w ∈ part.filterMap work?,
      w.script.ms = 0 ∧ w.script.ns = 0 := by decide +kernel
  obtain ⟨e₁, r₁, e₂, r₂, one, two, reordered, -, -, -, -, -, taken⟩ :=
    schedules_agree history b d ⟨rfl, rfl, rfl, rfl⟩ rfl rfl
      (isOver [] (by decide +kernel)) 0 _ 0 _ _ rfl rfl rfl rfl rfl part
      (by decide +kernel)
      (fun w mem => by
        rw [(instant w mem).1, (instant w mem).2]
        exact advance_zero d.ledger)
      (by decide +kernel) straightOn across
      ⟨by decide +kernel, by decide +kernel, isOver _ (by decide +kernel)⟩
      ⟨by decide +kernel, by decide +kernel, isOver _ (by decide +kernel)⟩
      true ":a"
  exact ⟨e₁, r₁, e₂, r₂, one, two, reordered, taken 0 _ rfl⟩

/-- Without a number for each unit the order shows. Two units are to succeed,
and both are run, but the sink has one number left: the unit that reports
first takes it, and the wait tells of the other that it was cancelled before
it ran. -/
theorem schedules_apart :
    let sink : Sink := { outlet := .memory, last := Sink.largestId - 2 }
    let b : Dispatch := { ledger := { sinks := #[sink] } }
    let way (schedule : List UnitId) : List DispatchOp :=
      [.onLedger (.startTask ":a" ":app" none),
        .addExecutor (.pooled { owner := ":a", entry := .task 0 }),
        .submit 0 ⟨"A", 1, {}⟩, .submit 0 ⟨"B", 2, {}⟩]
        ++ schedule.map .proceed ++ [.beginAwait 0]
    let one := (run (way (straight 0 ++ straight 1)) b).1
    let two := (run (way (straight 1 ++ straight 0)) b).1
    one.units.all (fun s => s.phase.over) = true
      ∧ two.units.all (fun s => s.phase.over) = true
      ∧ one.ran = ["A", "B"] ∧ two.ran = ["B", "A"]
      ∧ (one.endAwait 0).map Prod.snd
        = some (.error (.workers ["B: cancelled before it ran"]))
      ∧ (two.endAwait 0).map Prod.snd
        = some (.error (.workers ["A: cancelled before it ran"]))
      ∧ ¬ Reordered (.error (.workers ["B: cancelled before it ran"]))
        (.error (.workers ["A: cancelled before it ran"])) := by
  refine ⟨by decide +kernel, by decide +kernel, by decide +kernel,
    by decide +kernel, by rfl, by rfl, ?_⟩
  intro h
  cases h with
  | failed perm => exact absurd perm (by decide)

end DispatchOp

end TaskLedger
