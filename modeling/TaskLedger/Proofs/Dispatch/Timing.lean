/-
What the units of a pool take: one step at a time, one number each, and their
time.

While the pool is alive, a step of a unit takes it exactly one phase further
(`proceed_next`). Two of these steps take something that others share. The one
in which the worker reports takes a number, so the units that are still to
report and the numbers that were taken make the same sum all the time
(`proceed_asked`). The one in which the unit is run takes its time, so the
time that it is and the time that is still to be taken make the same sum: it
is known from the start by when everything will be done, and if the calendar
goes so far, then no unit fails for want of time (`OnTime.proceed`). A worker
whose unit is on the way has started since, so no line shows a longer time than
was given (`timed_proceed`).
-/
import Mathlib.Algebra.Order.BigOperators.Group.List
import Mathlib.Algebra.Order.Ring.Int
import TaskLedger.Proofs.Dispatch.Backends
import TaskLedger.Proofs.Dispatch.Untaken
import TaskLedger.Proofs.Ledger.ElapsedTime

namespace TaskLedger

namespace Phase

theorem due_iff_left {p : Phase} : p.due = true ↔ 2 ≤ p.left := by
  cases p <;> simp [due, left]

end Phase

/-- Changing one entry of a list changes a sum by that entry alone. -/
theorem sum_modify {α : Type} {g : α → Int} {f : α → α} {l : List α} {i : Nat}
    {a : α} (h : l[i]? = some a) :
    ((l.modify i f).map g).sum + g a = (l.map g).sum + g (f a) := by
  induction l generalizing i with
  | nil => simp at h
  | cons b rest ih =>
      cases i with
      | zero =>
          obtain rfl : b = a := by simpa using h
          rw [List.modify_zero_cons, List.map_cons, List.map_cons,
            List.sum_cons, List.sum_cons]
          omega
      | succ i =>
          have later := ih (i := i) (by simpa using h)
          rw [List.modify_succ_cons, List.map_cons, List.map_cons,
            List.sum_cons, List.sum_cons]
          omega

namespace Dispatch

variable {d : Dispatch} {u v : UnitId} {s : Submitted} {x : ExecutorId}
  {z rest : Int}

-- =================================================================== steps

/-- While the pool is alive, a unit that is not over goes exactly one step
on, and only it moves. -/
theorem proceed_next (live : d.stopped = false)
    (found : d.units[u]? = some s) (goesOn : s.phase.over = false) :
    ∃ e p, d.proceed u = setPhase u p e ∧ e.units = d.units
      ∧ p.left + 1 = s.phase.left := by
  unfold proceed
  rw [found]
  dsimp only
  cases phase : s.phase with
  | queued =>
      dsimp only
      rw [if_neg (by simp [live])]
      exact ⟨_, _, rfl, rfl, rfl⟩
  | begun w =>
      obtain ⟨l, -, he⟩ := perform_passage s.work d
      exact ⟨_, _, rfl, by rw [he], rfl⟩
  | ran w failure => exact ⟨_, _, rfl, rfl, rfl⟩
  | ended w failure =>
      dsimp only
      split
      · exact ⟨_, _, rfl, rfl, rfl⟩
      · exact ⟨_, _, rfl, rfl, rfl⟩
  | reported failure =>
      cases failure with
      | none => exact ⟨_, _, rfl, rfl, rfl⟩
      | some cause => exact ⟨_, _, rfl, rfl, rfl⟩
  | faulted => exact ⟨_, _, rfl, rfl, rfl⟩
  | completed | abandoned => rw [phase] at goesOn; cases goesOn

/-- What proceeds is a unit that is not over, or else nothing happens. -/
theorem proceed_cases (u : UnitId) (d : Dispatch) :
    d.proceed u = d
      ∨ ∃ s : Submitted, d.units[u]? = some s ∧ s.phase.over = false := by
  cases found : d.units[u]? with
  | none =>
      refine .inl ?_
      unfold proceed
      rw [found]
  | some s =>
      cases isOver : s.phase.over with
      | true => exact .inl (proceed_over found isOver)
      | false => exact .inr ⟨s, rfl, isOver⟩

/-- The numbers that a step takes are those of the units that are no longer
to report. -/
theorem proceed_asked (live : d.stopped = false)
    (found : d.units[u]? = some s) (goesOn : s.phase.over = false) :
    LedgerOp.asked ((DispatchOp.proceed u).moves d) + (d.proceed u).due
      = d.due := by
  have asked : LedgerOp.asked ((DispatchOp.proceed u).moves d)
      = if s.phase.left = 2 then 1 else 0 := by
    simp only [DispatchOp.moves, found]
    cases s.phase with
    | queued =>
        dsimp only
        rw [live]
        rfl
    | _ => rfl
  obtain ⟨e, p, he, units, next⟩ := proceed_next live found goesOn
  have found : e.units[u]? = some s := units ▸ found
  have same : e.due = d.due := by
    unfold due countUnits
    rw [units]
  rw [he, asked, ← same]
  by_cases last : s.phase.left = 2
  · have was : s.phase.due = true := Phase.due_iff_left.mpr (by omega)
    have is : p.due = false := by
      rw [← Bool.not_eq_true, Phase.due_iff_left]
      omega
    rw [if_pos last, ← due_reported found was is, Nat.add_comm]
  · have still : p.due = s.phase.due := by
      rw [Bool.eq_iff_iff, Phase.due_iff_left, Phase.due_iff_left]
      omega
    rw [if_neg last, due_setPhase found still, Nat.zero_add]

-- =============================================================== executors

/-- The entries that the pooled executors work for. -/
def entries (d : Dispatch) : List (Option Entry) :=
  d.executors.toList.map fun
    | .pooled p => some p.entry
    | .direct _ => none

/-- What executors count and collect is not seen in them. -/
theorem entries_of_cores {d e : Dispatch} (same : e.cores = d.cores) :
    e.entries = d.entries := by
  have seen (d : Dispatch) : d.entries = d.cores.toList.map fun
      | .pooled p => some p.entry
      | .direct _ => none := by
    unfold entries cores
    rw [Array.toList_map, List.map_map]
    refine List.map_congr_left fun c _ => ?_
    cases c with
    | pooled | direct => rfl
  rw [seen, seen, same]

/-- Neither is that one was given a unit. -/
theorem entries_charged (x : ExecutorId) (d : Dispatch) :
    (d.onPooled x charged).entries = d.entries := by
  apply List.ext_getElem?
  intro y
  unfold entries onPooled
  rw [List.getElem?_map, List.getElem?_map, Array.getElem?_toList,
    Array.getElem?_toList, Array.getElem?_modify]
  split
  · cases d.executors[y]? with
    | none => rfl
    | some c =>
        cases c with
        | pooled | direct => rfl
  · rfl

/-- An entry is that of an executor that is there. -/
theorem entries_back {o : Option Entry} (h : d.entries[x]? = some o) :
    (∃ p, d.pooled? x = some p ∧ o = some p.entry)
      ∨ ∃ owner, d.executors[x]? = some (.direct owner) ∧ o = none := by
  unfold entries at h
  rw [List.getElem?_map, Array.getElem?_toList] at h
  cases found : d.executors[x]? with
  | none =>
      rw [found] at h
      cases h
  | some c =>
      rw [found] at h
      cases c with
      | direct owner => exact .inr ⟨owner, rfl, (Option.some.inj h).symm⟩
      | pooled p =>
          refine .inl ⟨p, ?_, (Option.some.inj h).symm⟩
          unfold pooled?
          rw [found]

theorem entries_pooled {e : Entry} (h : d.entries[x]? = some (some e)) :
    ∃ p, d.pooled? x = some p ∧ p.entry = e := by
  rcases entries_back h with ⟨p, pooled, same⟩ | ⟨_, -, none⟩
  · exact ⟨p, pooled, (Option.some.inj same).symm⟩
  · cases none

theorem entries_of_pooled {p : PooledState} (h : d.pooled? x = some p) :
    d.entries[x]? = some (some p.entry) := by
  unfold entries
  rw [List.getElem?_map, Array.getElem?_toList, executor_of h]
  rfl

theorem entries_direct (h : d.entries[x]? = some none) :
    ∃ owner, d.executors[x]? = some (.direct owner) := by
  rcases entries_back h with ⟨_, -, some_⟩ | ⟨owner, direct, -⟩
  · cases some_
  · exact ⟨owner, direct⟩

-- ==================================================================== time

end Dispatch

/-- The time that a unit is still to take. -/
def Submitted.toil (s : Submitted) : Int :=
  if 4 ≤ s.phase.left then s.work.script.ms else 0

/-- Work that takes a time, and succeeds. -/
structure Work.Easy (w : Work) : Prop where
  ms : 0 ≤ w.script.ms
  ns : w.script.ns = 0
  success : w.script.ending = .success

namespace Dispatch

variable {d : Dispatch} {u v : UnitId} {s : Submitted} {x : ExecutorId}
  {z rest : Int}

/-- The time that the units are still to take. -/
def toil (d : Dispatch) : Int := (d.units.toList.map Submitted.toil).sum

theorem toil_setPhase (found : d.units[u]? = some s) (p : Phase) :
    (d.setPhase u p).toil + s.toil
      = d.toil + ({ s with phase := p } : Submitted).toil := by
  unfold toil setPhase
  rw [Array.toList_modify]
  exact sum_modify (by rw [Array.getElem?_toList, found])

/-- The units do easy work and have not failed, and the last of them will be
done by `z`, if others are to come that take so many milliseconds. -/
structure OnTime (z rest : Int) (d : Dispatch) : Prop where
  easy : ∀ {u : UnitId} {s : Submitted}, d.units[u]? = some s → s.work.Easy
  good : ∀ {u : UnitId} {s : Submitted} {failure : Option String},
    d.units[u]? = some s → s.phase.outcome? = some failure → failure = none
  clock : d.ledger.now.nanos + (d.toil + rest) * 1000000 ≤ z

/-- No unit takes time back. -/
theorem OnTime.nonneg (h : OnTime z rest d) :
    ∀ t ∈ d.units.toList.map Submitted.toil, 0 ≤ t := by
  intro t mem
  obtain ⟨s, member, rfl⟩ := List.mem_map.mp mem
  obtain ⟨u, found⟩ := List.mem_iff_getElem?.mp member
  rw [Array.getElem?_toList] at found
  have ms := (h.easy found).ms
  unfold Submitted.toil
  split
  · exact ms
  · exact Int.le_refl 0

/-- What a unit is still to take is part of what all are. -/
theorem OnTime.toil_le (h : OnTime z rest d) (found : d.units[u]? = some s) :
    s.toil ≤ d.toil :=
  List.single_le_sum h.nonneg _
    (List.mem_map_of_mem (List.mem_iff_getElem?.mpr
      ⟨u, by rw [Array.getElem?_toList, found]⟩))

/-- Units that are over are not to take any. -/
theorem toil_over
    (isOver : ∀ (u : UnitId) (s : Submitted), d.units[u]? = some s →
      s.phase.over = true) : d.toil = 0 := by
  unfold toil
  refine List.sum_eq_zero fun t mem => ?_
  obtain ⟨s, member, rfl⟩ := List.mem_map.mp mem
  obtain ⟨u, found⟩ := List.mem_iff_getElem?.mp member
  rw [Array.getElem?_toList] at found
  have none := Phase.over_iff_left.mp (isOver u s found)
  unfold Submitted.toil
  rw [if_neg (by omega)]

/-- It is not past that time yet. -/
theorem OnTime.now_le (h : OnTime z rest d) (spare : 0 ≤ rest) :
    d.ledger.now.nanos ≤ z := by
  have clock := h.clock
  have toil : 0 ≤ d.toil := List.sum_nonneg h.nonneg
  omega

/-- Easy work that there is time for succeeds. -/
theorem perform_easy {w : Work} (easy : w.Easy)
    (here : d.ledger.now.nanos + w.script.ms * 1000000 ≤ z)
    (calendar : z ≤ 8210266876799999 * 1000000 + 999999) :
    ∃ now : Instant, now.nanos = d.ledger.now.nanos + w.script.ms * 1000000
      ∧ d.perform w = ({ d with
          ledger := { d.ledger with now }
          ran := d.ran ++ [w.action] }, .ok none) := by
  have low := d.ledger.now.ge
  have ms := easy.ms
  obtain ⟨now, later, passed⟩ := d.ledger.advance_ok here calendar
    (by omega) ms
  refine ⟨now, later, ?_⟩
  unfold perform
  rw [easy.ns]
  dsimp only
  rw [passed, easy.success]

/-- A step that runs nothing takes no time. -/
theorem proceed_now (live : d.stopped = false)
    (found : d.units[u]? = some s) (other : ∀ w, s.phase ≠ .begun w) :
    (d.proceed u).ledger.now = d.ledger.now := by
  obtain ⟨marks, warnings, noticed⟩ := (DispatchOp.proceed u).noticed_aside d
  rw [proceed_ledger, LedgerOp.now_run ?_, noticed]
  simp only [DispatchOp.moves, found]
  cases phase : s.phase with
  | begun w => exact absurd phase (other w)
  | queued =>
      dsimp only
      rw [live]
      simp [LedgerOp.takesTime]
  | _ => simp [LedgerOp.takesTime]

/-- One that runs a unit takes its time, and the unit succeeds. -/
theorem OnTime.runs (h : OnTime z rest d)
    (calendar : z ≤ 8210266876799999 * 1000000 + 999999) (spare : 0 ≤ rest)
    (found : d.units[u]? = some s) {w : WorkerId}
    (phase : s.phase = .begun w) :
    (d.perform s.work).2 = .ok none
      ∧ (d.proceed u).ledger.now.nanos
        = d.ledger.now.nanos + s.work.script.ms * 1000000 := by
  have clock := h.clock
  have part := h.toil_le found
  unfold Submitted.toil at part
  rw [phase] at part
  have part : s.work.script.ms ≤ d.toil := part
  obtain ⟨now, later, done⟩ := perform_easy (d := d)
    (h.easy found) (z := z) (by omega) calendar
  refine ⟨by rw [done], ?_⟩
  rw [proceed_ledger]
  simp only [DispatchOp.moves, DispatchOp.noticed, found, phase]
  have ledger := perform_ledger s.work d
  rw [done] at ledger
  show (d.ledger.advance s.work.script.ms s.work.script.ns).1.now.nanos = _
  rw [← ledger]
  exact later

/-- A step of a unit does not change when everything will be done. -/
theorem OnTime.proceed (h : OnTime z rest d) (live : d.stopped = false)
    (calendar : z ≤ 8210266876799999 * 1000000 + 999999) (spare : 0 ≤ rest)
    (u : UnitId) : OnTime z rest (d.proceed u) := by
  rcases proceed_cases u d with same | ⟨s, found, goesOn⟩
  · rw [same]
    exact h
  obtain ⟨e, p, he, units, next⟩ := proceed_next live found goesOn
  have clock := h.clock
  have found' : e.units[u]? = some s := units ▸ found
  have sum := toil_setPhase found' p
  rw [show e.toil = d.toil by unfold toil; rw [units]] at sum
  refine ⟨?_, ?_, ?_⟩
  · intro v s' there
    rw [he] at there
    rcases setPhase_cases found' there with ⟨-, rfl⟩ | ⟨-, there⟩
    · show s.work.Easy
      exact h.easy found
    · exact h.easy (units ▸ there)
  -- what a unit came to before stands; what it comes to now is its own
  · intro v s' failure there outcome
    obtain ⟨b, before, -, work, old | ⟨w, phase, evs, new⟩⟩ :=
      (turn_proceed live u).outcome_back there outcome
    · exact h.good before old
    · obtain rfl : u = v := DispatchOp.proceed.inj
        (DispatchOp.proceed_of_event evs rfl)
      rw [new, (h.runs calendar spare before phase).1]
      rfl
  · unfold Submitted.toil at sum
    -- time passes only as a unit is run, and then it is the unit's own
    dsimp only at sum
    by_cases running : ∃ w, s.phase = .begun w
    · obtain ⟨w, phase⟩ := running
      have later := (h.runs calendar spare found phase).2
      have four : s.phase.left = 4 := by rw [phase]; rfl
      rw [if_pos (by omega), if_neg (by omega)] at sum
      have toil : (d.proceed u).toil = d.toil - s.work.script.ms := by
        rw [he]
        omega
      rw [later, toil]
      omega
    · -- the unit keeps its time, or has none to keep
      have other (w) : s.phase ≠ .begun w := fun phase => running ⟨w, phase⟩
      have now := congrArg Instant.nanos (proceed_now live found other)
      have four : s.phase.left ≠ 4 := fun four => by
        cases phase : s.phase with
        | begun w => exact other w phase
        | _ => rw [phase] at four; cases four
      have toil : (d.proceed u).toil = d.toil := by
        rw [he]
        split at sum
        · rw [if_pos (by omega)] at sum
          omega
        · rw [if_neg (by omega)] at sum
          omega
      rw [now, toil]
      exact clock

/-- Nor does what is not about units and leaves the clock alone. -/
theorem OnTime.beside (h : OnTime z rest d) {l : Ledger}
    (now : l.now = d.ledger.now) (executors : Array Executor)
    (ran : List String) (stopped : Bool) :
    OnTime z rest { d with ledger := l, executors, ran, stopped } where
  easy := h.easy
  good := h.good
  clock := by
    show l.now.nanos + _ ≤ z
    rw [now]
    exact h.clock

/-- A unit that a pool is given was still to come. -/
theorem OnTime.handed {w : Work} (h : OnTime z (w.script.ms + rest) d)
    (easy : w.Easy) (x : ExecutorId) (p : PooledState) :
    OnTime z rest (d.handed x p w) where
  easy found := by
    rcases push_back found with old | ⟨-, rfl⟩
    · exact h.easy old
    · exact easy
  good found outcome := by
    rcases push_back found with old | ⟨-, rfl⟩
    · exact h.good old outcome
    · cases outcome
  clock := by
    have clock := h.clock
    let op : LedgerOp := .enlist p.entry (p.nextKey w) .worker
    have now : (d.handed x p w).ledger.now = d.ledger.now :=
      (LedgerOp.now_apply (show op.takesTime = false from rfl) d.ledger).1
    have toil : (d.handed x p w).toil = d.toil + w.script.ms := by
      unfold toil Dispatch.handed
      rw [Array.toList_push, List.map_append, List.sum_append]
      exact congrArg _ (Int.add_zero _)
    rw [now, toil]
    omega

/-- So was one that is done where it is given out, and it succeeds. -/
theorem OnTime.direct {w : Work} (h : OnTime z (w.script.ms + rest) d)
    (easy : w.Easy) (calendar : z ≤ 8210266876799999 * 1000000 + 999999)
    (spare : 0 ≤ rest) {owner : String}
    (direct : d.executors[x]? = some (.direct owner)) :
    ∃ ledger ran, ledger
        = ((LedgerOp.advance w.script.ms w.script.ns).apply d.ledger).1
      ∧ d.submit x w = ({ d with ledger, ran }, .ok (.ok ()))
      ∧ OnTime z rest { d with ledger, ran } := by
  have clock := h.clock
  have ms := easy.ms
  have toil : 0 ≤ d.toil := List.sum_nonneg h.nonneg
  obtain ⟨now, later, done⟩ := perform_easy (d := d) easy (z := z) (by omega)
    calendar
  refine ⟨{ d.ledger with now }, d.ran ++ [w.action], ?_, ?_, h.easy, h.good,
    ?_⟩
  · have passed := perform_ledger w d
    rw [done] at passed
    exact passed
  · unfold submit
    rw [direct]
    dsimp only
    rw [done]
  · show now.nanos + (d.toil + rest) * 1000000 ≤ z
    omega

-- ================================================================= workers

/-- A unit is on its way with a worker. -/
def atWork (d : Dispatch) (w : WorkerId) : Prop :=
  ∃ (u : UnitId) (s : Submitted), d.units[u]? = some s
    ∧ s.phase.worker? = some w

/-- Once every unit is over, nobody is. -/
theorem not_atWork_over
    (isOver : ∀ (u : UnitId) (s : Submitted), d.units[u]? = some s →
      s.phase.over = true) (w : WorkerId) : ¬ d.atWork w := by
  rintro ⟨u, s, found, holds⟩
  have ended := isOver u s found
  cases phase : s.phase with
  | completed | abandoned =>
      rw [phase] at holds
      cases holds
  | _ =>
      rw [phase] at ended
      cases ended

/-- Moving a unit to a phase brings at most the worker of that phase. -/
theorem atWork_setPhase (found : d.units[u]? = some s) {p : Phase}
    {w : WorkerId} (h : (d.setPhase u p).atWork w) :
    p.worker? = some w ∨ d.atWork w := by
  obtain ⟨v, s', there, holds⟩ := h
  rcases setPhase_cases found there with ⟨-, rfl⟩ | ⟨-, there⟩
  · exact .inl holds
  · exact .inr ⟨v, s', there, holds⟩

/-- A step of a unit keeps the times of those who are at work, and what it
writes shows no longer time than there was. -/
theorem timed_proceed {a : Instant} {longest : Int}
    (h : d.ledger.Timed a longest d.atWork) (live : d.stopped = false)
    (room : d.ledger.now.nanos - a.nanos ≤ longest)
    (forward : ∀ op ∈ (DispatchOp.proceed u).moves d, op.forward = true) :
    (d.proceed u).ledger.Timed a longest (d.proceed u).atWork := by
  rcases proceed_cases u d with same | ⟨s, found, -⟩
  · rw [same]
    exact h
  have here {w : WorkerId} (holds : s.phase.worker? = some w) :
      d.atWork w := ⟨u, s, found, holds⟩
  -- what a step leaves: another phase, and those at work before
  have step {e : Dispatch} {p : Phase} {busy : WorkerId → Prop}
      (units : e.units = d.units) (timed : e.ledger.Timed a longest busy)
      (mine : ∀ w, p.worker? = some w → busy w)
      (others : ∀ w, d.atWork w → busy w) :
      (setPhase u p e).ledger.Timed a longest (setPhase u p e).atWork := by
    refine timed.fewer fun w at_ => ?_
    rcases atWork_setPhase (units ▸ found) at_ with holds | ⟨v, s', there, is⟩
    · exact mine w holds
    · exact others w ⟨v, s', units ▸ there, is⟩
  unfold proceed
  rw [found]
  dsimp only
  cases phase : s.phase with
  | queued =>
      dsimp only
      rw [if_neg (by simp [live])]
      have looked := (h.told (d.ledger.marks ++ [.unit u])
        d.ledger.warnings).apply (.lookUp s.entry s.key) rfl
          fun w report => by cases report
      exact step rfl (looked.begun _)
        (fun w holds => .inl (Option.some.inj holds).symm) fun w => .inr
  | begun w =>
      obtain ⟨l, -, he⟩ := perform_passage s.work d
      have ran := h.apply (.advance s.work.script.ms s.work.script.ns)
        (forward _ (by simp [DispatchOp.moves, found, phase]))
        fun w report => by cases report
      have same : (d.perform s.work).1.ledger = _ := perform_ledger s.work d
      refine step (by rw [he]) (same ▸ ran) (fun v holds => ?_) fun v => id
      exact here (by rw [phase]; exact holds)
  | ran w failure =>
      have ended := h.apply (.endWorker w) rfl fun v report => by
        simp only [LedgerOp.step?] at report
        split at report <;> cases report
      exact step rfl ended
        (fun v holds => here (by rw [phase]; exact holds)) fun v => id
  | ended w failure =>
      have reported := h.apply (.report s.entry w) rfl
        fun v report => by
          simp only [LedgerOp.step?] at report
          split at report
          · next same => exact ⟨here (by rw [phase, ← same]; rfl), room⟩
          · cases report
      simp only [LedgerOp.apply, LedgerOp.apply.done] at reported
      dsimp only
      split
      · next he =>
          rw [he] at reported
          exact step rfl reported (fun v holds => by cases holds) fun v => id
      · next he =>
          rw [he] at reported
          exact step rfl reported (fun v holds => by cases holds) fun v => id
  | reported failure =>
      cases failure with
      | none =>
          exact step rfl h (fun v holds => by cases holds) fun v => id
      | some cause =>
          exact step rfl (h.told d.ledger.marks _)
            (fun v holds => by cases holds) fun v => id
  | faulted =>
      exact step rfl h (fun v holds => by cases holds) fun v => id
  | completed | abandoned => exact h

end Dispatch

end TaskLedger
