/-
What happens at one moment, and how much time there was.

The scheduler and the tasks act at one moment: they move neither clock and no
worker (`atOnce_apply`). So time passes only where somebody lets it pass. As
long as the clock runs forward and nobody sets the wall clock, the times of those
who are at work lie between the start of a stretch of the run and now, those of
stand-ins apart, which all lie at one moment (`Timed`). Hence no line of a worker
shows a longer time than the stretch had (`Timed.apply`), and while nobody is at
work a new stretch may begin (`Timed.anew`).
-/
import TaskLedger.Proofs.Ledger.Nesting

namespace TaskLedger

-- ================================================================== lengths

/-- A length that could be made counts what was asked for. -/
theorem Duration.ofNanos?_eq {n : Int} {d : Duration}
    (h : ofNanos? n = some d) : d.nanos = n := by
  unfold ofNanos? at h
  split at h
  · cases h
    rfl
  · cases h

/-- A length of milliseconds and nanoseconds counts both. -/
theorem Duration.ofParts_eq {ms ns : Int} {d : Duration}
    (h : ofParts ms ns = .ok d) : d.nanos = ms * 1000000 + ns := by
  unfold ofParts ofMillis at h
  cases first : ofNanos? (ms * 1000000) with
  | none =>
      rw [first] at h
      cases h
  | some whole =>
      rw [first] at h
      simp only [bind, Except.bind] at h
      split at h
      · next found =>
          cases h
          rw [ofNanos?_eq found, ofNanos?_eq first]
      · cases h

/-- An instant that could be reached lies as far away as it was told to. -/
theorem Instant.shift_eq {d : Duration} {now t : Instant}
    (h : now.shift d = .ok t) : t.nanos = now.nanos + d.nanos := by
  unfold shift ofNanos? at h
  split at h
  · next found =>
      cases h
      split at found
      · cases found
        rfl
      · cases found
  · cases h

/-- Milliseconds that a length can have, with nanoseconds that do not lead out
of its range. -/
theorem Duration.ofParts_ok (ms ns : Int)
    (whole : ms.natAbs ≤ 9223372036854775807)
    (ge : -(9223372036854775807 * 1000000) ≤ ms * 1000000 + ns)
    (le : ms * 1000000 + ns ≤ 9223372036854775807 * 1000000) :
    ofParts ms ns = .ok ⟨ms * 1000000 + ns, ge, le⟩ := by
  have first : ofMillis ms = .ok ⟨ms * 1000000, by omega, by omega⟩ := by
    unfold ofMillis ofNanos?
    rw [dif_pos ⟨by omega, by omega⟩]
  have both : ofNanos? (ms * 1000000 + ns)
      = some ⟨ms * 1000000 + ns, ge, le⟩ := dif_pos ⟨ge, le⟩
  unfold ofParts
  rw [first]
  simp only [bind, Except.bind]
  rw [both]

/-- A moment that the calendar reaches. -/
theorem Instant.shift_ok {d : Duration} {now : Instant}
    (ge : -8334601228800000 * 1000000 ≤ now.nanos + d.nanos)
    (le : now.nanos + d.nanos ≤ 8210266876799999 * 1000000 + 999999) :
    now.shift d = .ok ⟨now.nanos + d.nanos, ge, le⟩ := by
  unfold shift ofNanos?
  rw [dif_pos ⟨ge, le⟩]

/-- The moment that lies so much time after another one. -/
theorem Instant.after_parts {ms ns : Int} {now t : Instant}
    (h : (Duration.ofParts ms ns >>= now.shift) = .ok t) :
    t.nanos = now.nanos + (ms * 1000000 + ns) := by
  cases length : Duration.ofParts ms ns with
  | error f =>
      rw [length] at h
      cases h
  | ok d =>
      rw [length] at h
      rw [shift_eq h, Duration.ofParts_eq length]

namespace Ledger

-- ================================================================= at once

/-- From `l` to `m`, no clock moved and no worker did. -/
structure AtOnce (l m : Ledger) : Prop where
  now : m.now = l.now
  wall : m.wall = l.wall
  workers : m.workers = l.workers

variable {l m n : Ledger}

theorem AtOnce.refl (l : Ledger) : AtOnce l l := ⟨rfl, rfl, rfl⟩

/-- What happens at one moment may happen in several parts. -/
theorem AtOnce.trans (h : AtOnce l m) (k : AtOnce m n) : AtOnce l n where
  now := k.now.trans h.now
  wall := k.wall.trans h.wall
  workers := k.workers.trans h.workers

/-- A number is taken at once. -/
theorem atOnce_allocate (s : SinkId) (l : Ledger) :
    AtOnce l (l.allocate s).1 := by
  rw [allocate_fst]
  exact ⟨rfl, rfl, rfl⟩

theorem atOnce_write (s : SinkId) (origin : Origin) (r : SpanRecord)
    (l : Ledger) : AtOnce l (l.write s origin r).1 := by
  obtain ⟨tree, written⟩ := write_fst s origin r l
  rw [written]
  exact ⟨rfl, rfl, rfl⟩

/-- A span is written at once, and no worker takes part. -/
theorem atOnce_conclude (t : TaskId) (l : Ledger) :
    AtOnce l (l.conclude t).1 := by
  rcases conclude_cases t l with ⟨-, he⟩ | ⟨_, _, _, -, -, he⟩
  · rw [he]
    exact .refl l
  · rw [he]
    exact ⟨rfl, rfl, rfl⟩

/-- A report is made at once: that a worker reports is noted in the journal and
in the task, not in the worker. -/
theorem atOnce_report (t : TaskId) (w : WorkerId) (l : Ledger) :
    AtOnce l (l.report t w).1 := by
  rcases report_cases t w l with ⟨-, he⟩ | ⟨_, _, _, -, -, -, he⟩
      | ⟨_, _, _, _, _, _, -, -, -, -, he⟩
  · rw [he]
    exact .refl l
  · rw [he]
    exact ⟨rfl, rfl, rfl⟩
  · rw [he]
    exact ⟨rfl, rfl, rfl⟩

theorem atOnce_addTask (path project : String) (variant : Option String)
    (l : Ledger) : AtOnce l (l.addTask path project variant l.sink).1 := by
  rcases addTask_cases path project variant l with ⟨_, he⟩ | ⟨_, _, he⟩
  · rw [he]
    exact ⟨rfl, rfl, rfl⟩
  · rw [he]
    exact ⟨rfl, rfl, rfl⟩

/-- A task starts at once. -/
theorem atOnce_startTask (path project : String) (variant : Option String)
    (l : Ledger) : AtOnce l (l.startTask path project variant).1 := by
  rcases startTask_cases path project variant l with ⟨_, he⟩
      | ⟨_, _, _, -, he⟩
  · rw [he]
    exact ⟨rfl, rfl, rfl⟩
  · rw [he]
    exact ⟨rfl, rfl, rfl⟩

/-- So the scheduler's sweeps take no time, however long they are. -/
theorem tended_atOnce (l : Ledger) : Tended (AtOnce l) where
  aside _ _ _ h := ⟨h.now, h.wall, h.workers⟩
  finish _ h := ⟨h.now, h.wall, h.workers⟩
  conclude t h := h.trans (atOnce_conclude t _)

theorem atOnce_settle (path : String) (l : Ledger) :
    AtOnce l (l.settle path).1 := (tended_atOnce l).settle (.refl l) path

theorem atOnce_finishTask (path : String) (l : Ledger) :
    AtOnce l (l.finishTask path).1 :=
  (tended_atOnce l).finishTask (.refl l) path

/-- Many things that happen at once happen at once. -/
theorem atOnce_countOver {α : Type} {f : α → Ledger → Ledger × Bool}
    (step : ∀ a l, AtOnce l (f a l).1) (as : List α) (l : Ledger) :
    AtOnce l (countOver f as l).1 :=
  countOver_keeps (fun a m h => h.trans (step a m)) as (.refl l)

theorem atOnce_wrapUp (t : TaskId) (l : Ledger) :
    AtOnce l (l.wrapUp t).1 := (tended_atOnce l).wrapUp (.refl l) t

theorem atOnce_endBuild (l : Ledger) : AtOnce l l.endBuild.1 :=
  (tended_atOnce l).endBuild (.refl l)

end Ledger

namespace LedgerOp

open Ledger

variable {op : LedgerOp} {l : Ledger}

/-- The operations that set a clock or let time pass. -/
def takesTime : LedgerOp → Bool
  | setClock _ | advance .. | setWall _ => true
  | _ => false

/-- The operations that bring a worker or mark one. -/
def staffing : LedgerOp → Bool
  | enlist .. | lookUp .. | addWorker .. | startWorker _ | endWorker _ => true
  | _ => false

/-- All others happen at one moment. -/
theorem atOnce_apply (timeless : op.takesTime = false)
    (idle : op.staffing = false) (l : Ledger) : AtOnce l (op.apply l).1 := by
  have said {f : TaskId → Ledger → Ledger}
      (each : ∀ t l, AtOnce l (f t l)) (e : Entry) :
      AtOnce l (OnEntry.does e f l) := by
    cases e with
    | task t => exact each t l
    | untracked => exact .refl l
  -- of what is left, the scheduler's sweeps consist of tasks finished and spans
  -- written
  cases op with
  | setClock | advance | setWall => cases timeless
  | enlist | lookUp | addWorker | startWorker | endWorker => cases idle
  | startTask path project variant =>
      exact atOnce_startTask path project variant l
  | addTask path project variant =>
      exact atOnce_addTask path project variant l
  | finishTask path => exact atOnce_finishTask path l
  | flush => exact (tended_atOnce l).flush (.refl l)
  | endBuild => exact atOnce_endBuild l
  | await e => exact said (f := Ledger.await) (fun _ _ => ⟨rfl, rfl, rfl⟩) e
  | close e => exact said (f := Ledger.close) (fun _ _ => ⟨rfl, rfl, rfl⟩) e
  | finish e => exact said (f := Ledger.finish) (fun _ _ => ⟨rfl, rfl, rfl⟩) e
  | attach e kind thread start length =>
      exact said (f := fun t => Ledger.attach t kind thread start length)
        (fun _ _ => ⟨rfl, rfl, rfl⟩) e
  | conclude e =>
      cases e with
      | task t => exact atOnce_conclude t l
      | untracked => exact .refl l
  | report e w =>
      cases e with
      | task t => exact atOnce_report t w l
      | untracked => exact .refl l
  | allocate => exact atOnce_allocate l.sink l
  | write r =>
      have written := atOnce_write l.sink .direct r l
      unfold apply
      dsimp only
      split
      · next he => rwa [he] at written
      · next he => rwa [he] at written

/-- No clock moves unless somebody moves it. -/
theorem now_apply (timeless : op.takesTime = false) (l : Ledger) :
    (op.apply l).1.now = l.now ∧ (op.apply l).1.wall = l.wall := by
  cases idle : op.staffing with
  | false =>
      have still := atOnce_apply timeless idle l
      exact ⟨still.now, still.wall⟩
  | true =>
      cases op with
      | enlist e key kind =>
          cases e with
          | untracked => exact ⟨rfl, rfl⟩
          | task t =>
              show (l.enlist t key kind).now = _ ∧ (l.enlist t key kind).wall = _
              rcases enlist_cases t key kind l with ⟨-, he⟩ | ⟨_, -, he⟩
              · rw [he]
                exact ⟨rfl, rfl⟩
              · rw [he]
                exact ⟨rfl, rfl⟩
      | lookUp e key =>
          cases e with
          | untracked => exact ⟨rfl, rfl⟩
          | task t =>
              show (l.lookUp t key).1.now = _ ∧ (l.lookUp t key).1.wall = _
              unfold Ledger.lookUp
              split
              · exact ⟨rfl, rfl⟩
              · exact ⟨rfl, rfl⟩
      | addWorker | startWorker | endWorker => exact ⟨rfl, rfl⟩
      | _ => cases idle

/-- Nor does it in a run in which nobody does. -/
theorem now_run {ops : List LedgerOp}
    (timeless : ∀ op ∈ ops, op.takesTime = false) (l : Ledger) :
    (run ops l).1.now = l.now := by
  induction ops generalizing l with
  | nil => rfl
  | cons op rest ih =>
      obtain ⟨first, rest⟩ := List.forall_mem_cons.mp timeless
      exact (ih rest _).trans (now_apply first l).1

/-- Nobody sets a clock, and no time is taken back. -/
def forward : LedgerOp → Bool
  | setClock _ | setWall _ => false
  | advance ms ns => decide (0 ≤ ms) && decide (0 ≤ ns)
  | _ => true

/-- Then the clock runs forward. -/
theorem forward_apply (forward : op.forward = true) (l : Ledger) :
    l.now.nanos ≤ (op.apply l).1.now.nanos
      ∧ (op.apply l).1.wall = l.wall := by
  cases timeless : op.takesTime with
  | false =>
      obtain ⟨now, wall⟩ := now_apply timeless l
      exact ⟨Int.le_of_eq (congrArg Instant.nanos now.symm), wall⟩
  | true =>
      cases op with
      | advance ms ns =>
          obtain ⟨some, more⟩ := Bool.and_eq_true_iff.mp forward
          have some := of_decide_eq_true some
          have more := of_decide_eq_true more
          show l.now.nanos ≤ (l.advance ms ns).1.now.nanos
            ∧ (l.advance ms ns).1.wall = l.wall
          unfold Ledger.advance
          split
          · next t shifted =>
              refine ⟨?_, rfl⟩
              have later := Instant.after_parts shifted
              show l.now.nanos ≤ t.nanos
              omega
          · exact ⟨Int.le_refl _, rfl⟩
      | setClock | setWall => cases forward
      | _ => cases timeless

/-- A worker is an old one, or came just now: as a stand-in, or as one that
did not start. -/
theorem worker_back {w : WorkerId} {k' : Worker}
    (found : (op.apply l).1.workers[w]? = some k') :
    (∃ k, l.workers[w]? = some k)
      ∨ k'.ended = none
        ∧ ∀ s, k'.started = some s → k'.standIn = true ∧ s = l.wall := by
  -- who comes now has not ended, and has started only if it is a stand-in
  have pushed {k : Worker} (ended : k.ended = none)
      (started : ∀ s, k.started = some s → k.standIn = true ∧ s = l.wall)
      (found : (l.workers.push k)[w]? = some k') :
      (∃ k, l.workers[w]? = some k) ∨ k'.ended = none
        ∧ ∀ s, k'.started = some s → k'.standIn = true ∧ s = l.wall := by
    rcases push_back found with old | ⟨-, rfl⟩
    · exact .inl ⟨k', old⟩
    · exact .inr ⟨ended, started⟩
  have marked {v : WorkerId} {f : Worker → Worker}
      (found : (l.workers.modify v f)[w]? = some k') :
      ∃ k, l.workers[w]? = some k := by
    rcases modify_cases found with ⟨-, k, old, -⟩ | ⟨-, old⟩
    · exact ⟨k, old⟩
    · exact ⟨k', old⟩
  have standIn (found : (l.addStandIn).1.workers[w]? = some k') :=
    pushed (k := .forNobody l.wall) rfl
      (fun s started => ⟨rfl, (Option.some.inj started).symm⟩) found
  -- of the operations, three bring a worker and two mark one
  cases timeless : op.takesTime with
  | true =>
      cases op with
      | setClock ms =>
          have same : (l.setClock ms).1.workers = l.workers := by
            unfold Ledger.setClock
            split
            · rfl
            · rfl
          exact .inl ⟨k', same ▸ found⟩
      | advance ms ns =>
          have same : (l.advance ms ns).1.workers = l.workers := by
            unfold Ledger.advance
            split
            · rfl
            · rfl
          exact .inl ⟨k', same ▸ found⟩
      | setWall => exact .inl ⟨k', found⟩
      | _ => cases timeless
  | false =>
  cases idle : op.staffing with
  | false =>
      rw [(atOnce_apply timeless idle l).workers] at found
      exact .inl ⟨k', found⟩
  | true =>
      cases op with
      | enlist e key kind =>
          cases e with
          | untracked => exact .inl ⟨k', found⟩
          | task t =>
              have found : (l.enlist t key kind).workers[w]? = some k' := found
              rcases enlist_cases t key kind l with ⟨-, he⟩ | ⟨task, -, he⟩
              · rw [he] at found
                exact .inl ⟨k', found⟩
              · rw [he] at found
                exact pushed rfl (fun _ started => by cases started) found
      | lookUp e key =>
          cases e with
          | untracked => exact standIn found
          | task t =>
              have found : (l.lookUp t key).1.workers[w]? = some k' := found
              unfold Ledger.lookUp at found
              split at found
              · exact .inl ⟨k', found⟩
              · exact standIn found
      | addWorker path kind =>
          exact pushed rfl (fun _ started => by cases started) found
      | startWorker v => exact .inl (marked found)
      | endWorker v => exact .inl (marked found)
      | _ => cases idle

end LedgerOp

-- ==================================================================== timed

namespace Worker

variable {k : Worker} {s e t : Instant} {step : Option WorkerStep}

/-- A step leaves a worker the stand-in that it is, or is not. -/
theorem after_standIn : (k.after t step).standIn = k.standIn := by
  rcases step with - | step
  · rfl
  · cases step with
    | start | stop | report => rfl

/-- A worker that has started either did so before or does so now. -/
theorem after_started (h : (k.after t step).started = some s) :
    k.started = some s ∨ s = t := by
  rcases step with - | step
  · exact .inl h
  · cases step with
    | start => exact .inr (Option.some.inj h).symm
    | stop | report => exact .inl h

/-- A worker that has ended either did so before or does so now. -/
theorem after_ended (h : (k.after t step).ended = some e) :
    k.ended = some e ∨ e = t := by
  rcases step with - | step
  · exact .inl h
  · cases step with
    | stop => exact .inr (Option.some.inj h).symm
    | start | report => exact .inl h

/-- A worker that started no earlier than one time and ended no later than
another one took no longer than what is between them. -/
theorem duration_within {low high : Int} (forward : low ≤ high)
    (started : ∀ s, k.started = some s → low ≤ s.nanos)
    (ended : ∀ e, k.ended = some e → e.nanos ≤ high) :
    0 ≤ k.duration.nanos ∧ k.duration.nanos ≤ high - low := by
  unfold duration
  cases begin_ : k.started with
  | none => exact ⟨Int.le_refl 0, Int.sub_nonneg.mpr forward⟩
  | some s =>
  cases stop : k.ended with
  | none => exact ⟨Int.le_refl 0, Int.sub_nonneg.mpr forward⟩
  | some e =>
      refine ⟨(e.since s).nonneg_clamp, ?_⟩
      have first := started s begin_
      have last := ended e stop
      dsimp only
      unfold Duration.clamp Duration.max
      split
      · exact Int.sub_nonneg.mpr forward
      · show e.nanos - s.nanos ≤ high - low
        omega

end Worker

namespace Ledger

variable {l m : Ledger} {a : Instant} {op : LedgerOp}

/-- The first moment that a worker can know of, if the run started at `a`. -/
def since (a : Instant) (k : Worker) (l : Ledger) : Instant :=
  if k.standIn then l.wall else a

/-- In a stretch of a run that began at `a`, no worker who is at work started
before that, none ended later than now, and no line of a worker shows a longer
time than `longest`. -/
structure Timed (a : Instant) (longest : Int) (busy : WorkerId → Prop)
    (l : Ledger) : Prop where
  past : a.nanos ≤ l.now.nanos
  started : ∀ {w : WorkerId} {k : Worker} {s : Instant}, busy w →
    l.workers[w]? = some k → k.started = some s →
    (l.since a k).nanos ≤ s.nanos
  ended : ∀ {w : WorkerId} {k : Worker} {e : Instant},
    l.workers[w]? = some k → k.ended = some e →
    e.nanos ≤ (l.clockOf k).nanos
  lines : ∀ {t : TaskId} {w : WorkerId}, ∀ line ∈ l.reportsOf t w,
    0 ≤ line.record.span.durationMs.toInt
      ∧ line.record.span.durationMs.toInt * 1000000 ≤ longest

section

variable {longest : Int} {busy busy' : WorkerId → Prop} {w : WorkerId}

/-- Where nothing is on record, nobody is at work and no line shows any time. -/
theorem Blank.timed (h : l.Blank) (start : l.now = a) :
    Timed a longest busy l where
  past := Int.le_of_eq (congrArg Instant.nanos start.symm)
  started _ found := by
    rw [h.workers] at found
    cases found
  ended found := by
    rw [h.workers] at found
    cases found
  lines line mem := by
    unfold reportsOf at mem
    rw [h.journal] at mem
    cases mem

/-- Those who are done may be forgotten. -/
theorem Timed.fewer (h : Timed a longest busy l)
    (fewer : ∀ w, busy' w → busy w) : Timed a longest busy' l :=
  { h with started := fun here => h.started (fewer _ here) }

/-- While nobody is at work, a new stretch may begin. -/
theorem Timed.anew (h : Timed a longest busy l) :
    Timed l.now longest (fun _ => False) l :=
  { h with
    past := Int.le_refl _
    started := fun none => none.elim }

/-- What an observer is told takes no time. -/
theorem Timed.told (h : Timed a longest busy l) (marks : List Mark)
    (warnings : List Warning) :
    Timed a longest busy { l with marks, warnings } :=
  ⟨h.past, h.started, h.ended, h.lines⟩

/-- A worker who is at work took no longer than there was. -/
theorem Timed.duration (h : Timed a longest busy l) (here : busy w)
    {k : Worker} (found : l.workers[w]? = some k) :
    0 ≤ k.duration.nanos ∧ k.duration.nanos ≤ l.now.nanos - a.nanos := by
  have past := h.past
  have span : (l.since a k).nanos ≤ (l.clockOf k).nanos
      ∧ (l.clockOf k).nanos - (l.since a k).nanos
        ≤ l.now.nanos - a.nanos := by
    unfold since clockOf
    split
    · exact ⟨Int.le_refl _, by omega⟩
    · exact ⟨past, Int.le_refl _⟩
  have took := Worker.duration_within span.1
    (fun _ started => h.started here found started)
    (fun _ ended => h.ended found ended)
  exact ⟨took.1, by omega⟩

/-- Whatever happens while the clock runs forward and the wall clock is left
alone, if only those report who are at work, and not after too long. -/
theorem Timed.apply (h : Timed a longest busy l) (op : LedgerOp)
    (forward : op.forward = true)
    (reports : ∀ w, op.step? w = some .report →
      busy w ∧ l.now.nanos - a.nanos ≤ longest) :
    Timed a longest busy (op.apply l).1 := by
  obtain ⟨later, wall⟩ := LedgerOp.forward_apply forward l
  have past := h.past
  refine {
    past := Int.le_trans past later
    started := fun {w k' s} here found started => ?_
    ended := fun {w k' e} found ended => ?_
    lines := fun {t w} line mem => ?_ }
  · unfold since
    rw [wall]
    -- a worker that has started did so before, or now
    rcases LedgerOp.worker_back found with ⟨k, old⟩ | ⟨-, new⟩
    · rw [LedgerOp.worker_apply op old] at found
      obtain rfl := Option.some.inj found
      rw [Worker.after_standIn]
      rcases Worker.after_started started with started | rfl
      · exact h.started here old started
      · unfold clockOf
        split
        · exact Int.le_refl _
        · exact past
    · obtain ⟨standIn, rfl⟩ := new s started
      exact Int.le_of_eq (congrArg Instant.nanos (if_pos standIn))
  · unfold clockOf
    rw [wall]
    -- and one that has ended likewise
    rcases LedgerOp.worker_back found with ⟨k, old⟩ | ⟨none, -⟩
    · rw [LedgerOp.worker_apply op old] at found
      obtain rfl := Option.some.inj found
      rw [Worker.after_standIn]
      have known : e.nanos ≤ (l.clockOf k).nanos := by
        rcases Worker.after_ended ended with ended | rfl
        · exact h.ended old ended
        · exact Int.le_refl _
      unfold clockOf at known
      split
      · next standIn => rwa [if_pos standIn] at known
      · next real =>
          rw [if_neg real] at known
          exact Int.le_trans known later
    · rw [none] at ended
      cases ended
  · rcases LedgerOp.mem_reportsOf_apply mem with old
        | ⟨report, k, id, parent, found, shown⟩
    · exact h.lines line old
    · -- a new line shows how long its worker took, who was at work
      obtain ⟨here, room⟩ := reports w report
      obtain ⟨low, high⟩ := h.duration here found
      have millis : line.record.span.durationMs.toInt
          = k.duration.nanos / 1000000 := by
        rw [shown]
        exact toInt_durationMs k.kind (k.started.getD k.created) low
      omega

/-- One more is at work: who starts now did not start earlier. -/
theorem Timed.begun (h : Timed a longest busy l) (w : WorkerId) :
    Timed a longest (fun v => v = w ∨ busy v)
      ((LedgerOp.startWorker w).apply l).1 := by
  have all := h.apply (.startWorker w) rfl fun v report => by
    simp only [LedgerOp.step?] at report
    split at report <;> cases report
  refine { all with started := fun {v k' s} here found started => ?_ }
  rcases here with rfl | here
  · rcases LedgerOp.worker_back found with ⟨k, old⟩ | ⟨-, new⟩
    · rw [LedgerOp.worker_apply _ old] at found
      obtain rfl := Option.some.inj found
      have now : s = l.clockOf k := by
        simp only [LedgerOp.step?, if_true, Worker.after] at started
        exact (Option.some.inj started).symm
      have past := h.past
      unfold since
      rw [now, Worker.after_standIn]
      unfold clockOf
      split
      · exact Int.le_refl _
      · exact past
    · obtain ⟨standIn, rfl⟩ := new s started
      exact Int.le_of_eq (congrArg Instant.nanos (if_pos standIn))
  · exact all.started here found started

end

-- ================================================================== passing

/-- Time that the calendar has room for passes. -/
theorem advance_ok {ms : Int} {z : Int} (here : l.now.nanos + ms * 1000000 ≤ z)
    (calendar : z ≤ 8210266876799999 * 1000000 + 999999)
    (length : ms ≤ 9223372036854775807) (forward : 0 ≤ ms) :
    ∃ now : Instant, now.nanos = l.now.nanos + ms * 1000000
      ∧ l.advance ms 0 = ({ l with now }, .ok ()) := by
  have low := l.now.ge
  have length := Duration.ofParts_ok ms 0 (by omega) (by omega) (by omega)
  refine ⟨⟨l.now.nanos + ms * 1000000, by omega, by omega⟩, rfl, ?_⟩
  unfold advance
  rw [length]
  simp only [bind, Except.bind]
  rw [Instant.shift_ok (by dsimp only; omega) (by dsimp only; omega)]
  simp only [Int.add_zero]

end Ledger

end TaskLedger
