/-
How things stand at any moment of a shift.

`Standing` is the invariant: each unit is where its count of steps puts it,
the ledger is the one that there should be (`Shift.ledgerAt`), the executor
counts the units that are not over and keeps the causes of those that are, in
the order in which they came to be. The one thing that is not a matter of
counts is whether the task took note that nobody is at work for it: units
may have reported before that was so. But once all of them have, it took
note exactly if nobody else is at work (`sound`, `told`), since each had ended
before it reported.

A step of a unit and a doing of the owner each have a lemma, and `run_standing`
is the induction over what happens in a shift. The order of the steps is in
none of this but for the order of the causes.
-/
import TaskLedger.Proofs.Dispatch.Progress
import TaskLedger.Proofs.Dispatch.Shift

namespace TaskLedger

open Dispatch

namespace DispatchOp

/-- A thread of the pool takes a step. -/
def isStep : DispatchOp → Bool
  | proceed _ => true
  | _ => false

/-- What the owner of an executor does with it. -/
def ofOwner (x : ExecutorId) : DispatchOp → Bool
  | submit y _ | beginAwait y | release y => y == x
  | _ => false

/-- An owner gives control back. -/
def isRelease : DispatchOp → Bool
  | release _ => true
  | _ => false

/-- Once a unit has proceeded, no owner gives control back. -/
def held (ops : List DispatchOp) : Bool :=
  (ops.dropWhile fun op => !op.isStep).all fun op => !op.isRelease

end DispatchOp

namespace Shift

variable (S : Shift)

/-- The units that were given out. -/
def unitsAt (works : List Work) (steps : List Nat) : List Submitted :=
  List.zipWith (fun w j => S.unitAt w.2 w.1 j) works.zipIdx steps

/-- The executor once it was given some units, and counted off some of
them in an order. -/
def stateAt (works : List Work) (steps order : List Nat) : PooledState :=
  { owner := S.p.owner, entry := S.p.entry,
    sequence := S.p.sequence + UInt64.ofNat works.length,
    outstanding := steps.countP (· < 5),
    failures := S.p.failures
      ++ order.flatMap fun i => (works[i]?.bind S.fate).toList }

/-- How things stand when some units were given out and have come so many
steps. -/
structure Standing (b : Task) (works : List Work) (steps : List Nat)
    (noted : Bool) (e : Dispatch) : Prop where
  live : e.stopped = false
  length : steps.length = works.length
  near : ∀ j ∈ steps, j ≤ 5
  units : e.units = S.d.units ++ (S.unitsAt works steps).toArray
  ledger : e.ledger.Alike (S.ledgerAt (b.noteIf S.now noted) steps)
  pool : ∃ order : List Nat, order.Nodup
    ∧ (∀ i, i ∈ order ↔ steps[i]? = some 5)
    ∧ e.pooled? S.x = some (S.stateAt works steps order)
  keeps : S.Keeps b works
  sound : noted = true → S.spare b = true ∧ ∃ j ∈ steps, 4 ≤ j
  told : works ≠ [] → (∀ j ∈ steps, 4 ≤ j) → S.spare b = true → noted = true

variable {S} {b : Task} {works : List Work} {steps : List Nat} {noted : Bool}
  {e : Dispatch} {i j : Nat} {w : Work}

-- ================================================================== units

theorem unitsAt_getElem? (hw : works[i]? = some w) (hj : steps[i]? = some j) :
    (S.unitsAt works steps)[i]? = some (S.unitAt i w j) := by
  unfold unitsAt
  rw [List.getElem?_zipWith, List.getElem?_zipIdx, hw, hj]
  simp

/-- A unit that was given out takes a step. -/
theorem unitsAt_set (hw : works[i]? = some w) (hj : steps[i]? = some j)
    (j' : Nat) :
    (S.unitsAt works steps).toArray.modify i
        (fun s => { s with phase := S.phaseAt i w j' })
      = (S.unitsAt works (steps.set i j')).toArray := by
  have lt := (List.getElem?_eq_some_iff.mp hj).1
  apply Array.ext_getElem?
  intro v
  rw [Array.getElem?_modify, List.getElem?_toArray, List.getElem?_toArray]
  by_cases here : i = v
  · subst here
    rw [if_pos rfl, unitsAt_getElem? hw hj,
      unitsAt_getElem? hw (List.getElem?_set_self lt)]
    rfl
  · rw [if_neg here]
    unfold unitsAt
    rw [List.getElem?_zipWith, List.getElem?_zipWith,
      List.getElem?_set_ne here]

theorem unitsAt_append (length : steps.length = works.length) (w : Work) :
    S.unitsAt (works ++ [w]) (steps ++ [0])
      = S.unitsAt works steps ++ [S.unitAt works.length w 0] := by
  unfold unitsAt
  rw [List.zipIdx_append, List.zipWith_append (by simp [length])]
  simp

/-- A unit that is not over is one that was given out in the shift. -/
theorem Standing.at_ (h : S.Standing b works steps noted e) {v : UnitId}
    {s : Submitted} (found : e.units[v]? = some s)
    (goesOn : s.phase.over = false) :
    ∃ i w j, v = S.d.units.size + i ∧ works[i]? = some w
      ∧ steps[i]? = some j ∧ s = S.unitAt i w j ∧ j < 5 := by
  rw [h.units, Array.getElem?_append] at found
  split at found
  · rw [S.isOver found] at goesOn
    cases goesOn
  · next ge =>
      rw [List.getElem?_toArray] at found
      obtain ⟨lt, -⟩ := List.getElem?_eq_some_iff.mp found
      have lt : v - S.d.units.size < steps.length := by
        simp only [unitsAt, List.length_zipWith, List.length_zipIdx,
          h.length, Nat.min_self] at lt
        exact h.length ▸ lt
      have hj := List.getElem?_eq_getElem lt
      have hw := List.getElem?_eq_getElem (h.length ▸ lt)
      rw [unitsAt_getElem? hw hj] at found
      obtain rfl := Option.some.inj found
      refine ⟨_, _, _, (Nat.add_sub_cancel' (Nat.le_of_not_lt ge)).symm, hw,
        hj, rfl, ?_⟩
      refine Nat.lt_of_le_of_ne (h.near _ (List.getElem_mem lt)) fun last => ?_
      rw [last] at goesOn
      cases goesOn

-- ================================================================== steps

/-- A step of a unit takes it to its next place in the table. -/
theorem Standing.setPhase (h : S.Standing b works steps noted e)
    (hw : works[i]? = some w) (hj : steps[i]? = some j) (j' : Nat) :
    (e.setPhase (S.d.units.size + i) (S.phaseAt i w j')).units
      = S.d.units ++ (S.unitsAt works (steps.set i j')).toArray := by
  unfold Dispatch.setPhase
  dsimp only
  rw [h.units, modify_append, unitsAt_set hw hj]

/-- What all units have come to after a step of one of them, the others had
come to before. -/
theorem all_of_set {P Q : Nat → Prop} (hj : steps[i]? = some j) {j' : Nat}
    (all : ∀ k ∈ steps.set i j', P k) (own : Q j) (weak : ∀ k, P k → Q k) :
    ∀ k ∈ steps, Q k := by
  intro k mem
  obtain ⟨v, hv⟩ := List.getElem?_of_mem mem
  by_cases here : i = v
  · subst here
    rw [hj] at hv
    rw [← Option.some.inj hv]
    exact own
  · refine weak k (all k ?_)
    exact List.mem_of_getElem? ((List.getElem?_set_ne here).trans hv)

theorem near_set (near : ∀ j ∈ steps, j ≤ 5) (lt : j < 5) :
    ∀ k ∈ steps.set i (j + 1), k ≤ 5 := by
  intro k mem
  rcases List.mem_or_eq_of_mem_set mem with old | rfl
  · exact near k old
  · exact lt

/-- What an executor knows of its units does not change by a step that is not
the last. -/
theorem Standing.pool_set (h : S.Standing b works steps noted e)
    (hj : steps[i]? = some j) (lt : j < 4) :
    ∃ order : List Nat, order.Nodup
      ∧ (∀ k, k ∈ order ↔ (steps.set i (j + 1))[k]? = some 5)
      ∧ e.pooled? S.x
        = some (S.stateAt works (steps.set i (j + 1)) order) := by
  obtain ⟨order, nodup, mem, pooled⟩ := h.pool
  obtain ⟨bound, rfl⟩ := List.getElem?_eq_some_iff.mp hj
  have count : (steps.set i (steps[i] + 1)).countP (· < 5)
      = steps.countP (· < 5) := by
    have pos : 0 < steps.countP (· < 5) := List.countP_pos_iff.mpr
      ⟨_, List.getElem_mem bound, decide_eq_true (by omega)⟩
    rw [List.countP_set bound, if_pos (decide_eq_true (by omega)),
      if_pos (decide_eq_true (by omega))]
    omega
  refine ⟨order, nodup, ?_, ?_⟩
  · intro k
    rw [mem, List.getElem?_set]
    split
    · next here =>
        subst here
        rw [hj]
        simp only [Option.some.injEq]
        omega
    · rfl
  · rw [pooled]
    unfold stateAt
    rw [count]

/-- Neither does what is known of the task's leisure, as long as the unit
does not report. -/
theorem Standing.told_set (h : S.Standing b works steps noted e)
    (hj : steps[i]? = some j) (lt : j < 3) :
    (noted = true → S.spare b = true ∧ ∃ k ∈ steps.set i (j + 1), 4 ≤ k)
      ∧ (works ≠ [] → (∀ k ∈ steps.set i (j + 1), 4 ≤ k) →
          S.spare b = true → noted = true) := by
  have bound := (List.getElem?_eq_some_iff.mp hj).1
  constructor
  · intro yes
    obtain ⟨spare, k, mem, le⟩ := h.sound yes
    obtain ⟨i', hk⟩ := List.getElem?_of_mem mem
    have ne : i ≠ i' := by
      rintro rfl
      rw [hj] at hk
      have same := Option.some.inj hk
      omega
    refine ⟨spare, k, ?_, le⟩
    exact List.mem_of_getElem? (by rw [List.getElem?_set_ne ne, hk])
  · intro _ all
    have here := all (j + 1) (List.mem_set bound _)
    omega

/-- A step that the executor and its owner do not see. -/
theorem Standing.quiet (h : S.Standing b works steps noted e)
    (hw : works[i]? = some w) (hj : steps[i]? = some j) (lt : j < 3)
    {l : Ledger} (ran : List String)
    (ledger : l.Alike
      (S.ledgerAt (b.noteIf S.now noted) (steps.set i (j + 1)))) :
    S.Standing b works (steps.set i (j + 1)) noted
      ({ e with ledger := l, ran }.setPhase (S.d.units.size + i)
        (S.phaseAt i w (j + 1))) where
  live := h.live
  length := (List.length_set ..).trans h.length
  near := near_set h.near (by omega)
  units := h.setPhase hw hj (j + 1)
  ledger := ledger
  pool := h.pool_set hj (by omega)
  keeps := h.keeps
  sound := (h.told_set hj lt).1
  told := (h.told_set hj lt).2

/-- A thread takes the unit, and its worker starts. -/
theorem Standing.begin_ (h : S.Standing b works steps noted e)
    (hw : works[i]? = some w) (hj : steps[i]? = some 0)
    (found : e.units[S.d.units.size + i]? = some (S.unitAt i w 0)) :
    S.Standing b works (steps.set i 1) noted
      (e.proceed (S.d.units.size + i)) := by
  have look : (S.ledgerAt (b.noteIf S.now noted) steps).lookUp S.t
      (S.keyAt i w) = (S.ledgerAt (b.noteIf S.now noted) steps, S.handAt i) :=
    lookUp_ledgerAt ((h.keeps.noteIf noted).find hw)
  have marked : Ledger.Alike
      { e.ledger with marks := e.ledger.marks ++ [.unit (S.d.units.size + i)] }
      (S.ledgerAt (b.noteIf S.now noted) steps) := { h.ledger with }
  obtain ⟨alike, answer⟩ := marked.lookUp S.t (S.keyAt i w)
  rw [look] at alike answer
  have started := alike.startWorker (S.handAt i)
  rw [startWorker_ledgerAt hj] at started
  have next := h.quiet hw hj (by decide) e.ran started
  unfold proceed
  rw [found]
  dsimp only [unitAt, phaseAt]
  rw [if_neg (by simp [h.live])]
  unfold Ledger.OnEntry.lookUp
  dsimp only
  rw [answer]
  exact next

/-- A unit leaves the clock where it is. -/
def Still (S : Shift) (w : Work) : Prop :=
  (S.d.ledger.advance w.script.ms w.script.ns).1 = S.d.ledger

/-- Then it comes to what it would have come to at the start. -/
theorem perform_still (now : e.ledger.now = S.now) (still : S.Still w) :
    e.perform w
      = ({ e with ran := e.ran ++ [w.action] }, (S.d.perform w).2) := by
  have time := advance_still (m := e.ledger) now still
  unfold perform
  dsimp only
  rw [time]
  cases S.d.ledger.advance w.script.ms w.script.ns with
  | mk l a => cases a <;> rfl

/-- The unit is run. -/
theorem Standing.run_ (h : S.Standing b works steps noted e)
    (still : S.Still w) (hw : works[i]? = some w) (hj : steps[i]? = some 1)
    (found : e.units[S.d.units.size + i]? = some (S.unitAt i w 1)) :
    S.Standing b works (steps.set i 2) noted
      (e.proceed (S.d.units.size + i)) := by
  have ledger := h.ledger
  rw [← ledgerAt_unseen 2 hj rfl (by omega)] at ledger
  have next := h.quiet hw hj (by decide) (e.ran ++ [w.action]) ledger
  unfold proceed
  rw [found]
  dsimp only [unitAt, phaseAt]
  rw [perform_still h.ledger.now still]
  exact next

/-- Its worker ends. -/
theorem Standing.end_ (h : S.Standing b works steps noted e)
    (hw : works[i]? = some w) (hj : steps[i]? = some 2)
    (found : e.units[S.d.units.size + i]? = some (S.unitAt i w 2)) :
    S.Standing b works (steps.set i 3) noted
      (e.proceed (S.d.units.size + i)) := by
  have ended := h.ledger.endWorker (S.handAt i)
  rw [endWorker_ledgerAt hj] at ended
  have next := h.quiet hw hj (by decide) e.ran ended
  unfold proceed
  rw [found]
  exact next

/-- Its worker reports, and the task may take note. -/
theorem Standing.report (h : S.Standing b works steps noted e)
    {total : Nat} (few : works.length ≤ total)
    (room : S.sink.last.toNat + total ≤ Sink.largestId.toNat)
    (hw : works[i]? = some w) (hj : steps[i]? = some 3)
    (found : e.units[S.d.units.size + i]? = some (S.unitAt i w 3)) :
    ∃ noted', S.Standing b works (steps.set i 4) noted'
      (e.proceed (S.d.units.size + i)) := by
  have bound := (List.getElem?_eq_some_iff.mp hj).1
  -- one unit at least has not reported
  have lt : reports steps < total := by
    have moved := reports_set hj 4
    have most : reports (steps.set i 4) ≤ (steps.set i 4).length :=
      List.countP_le_length
    rw [List.length_set, h.length] at most
    simp only [show ¬ 4 ≤ 3 by decide, if_false, Nat.add_zero, Nat.le_refl,
      if_true] at moved
    omega
  have same := (h.keeps.noteIf noted).same
  obtain ⟨ok, noted_⟩ := report_ledgerAt same hj lt room
  obtain ⟨alike, answer⟩ := h.ledger.report S.t (S.handAt i)
  have after := alike.trans noted_
  rw [ok] at answer
  have leisure := idle_ledgerAt (h.keeps.noteIf noted) h.length
  have crew : S.spare (b.noteIf S.now noted) = S.spare b := by
    unfold spare
    rw [Task.noteIf_crew]
  rw [crew] at leisure
  revert after leisure
  generalize Ledger.idle (b.noteIf S.now noted)
    (S.ledgerAt (b.noteIf S.now noted) steps) = idle
  intro after leisure
  rw [Task.noteIf_noteReport] at after
  refine ⟨noted || idle, ?_⟩
  have next : S.Standing b works (steps.set i 4) (noted || idle)
      ({ e with ledger := (e.ledger.report S.t (S.handAt i)).1 }.setPhase
        (S.d.units.size + i) (S.phaseAt i w 4)) := {
    live := h.live
    length := (List.length_set ..).trans h.length
    near := near_set h.near (by decide)
    units := h.setPhase hw hj 4
    ledger := after
    pool := h.pool_set hj (by decide)
    keeps := h.keeps
    sound := by
      intro yes
      have here : 4 ∈ steps.set i 4 := List.mem_set bound 4
      rcases Bool.or_eq_true_iff.mp yes with was | now
      · exact ⟨(h.sound was).1, 4, here, Nat.le_refl 4⟩
      · exact ⟨(leisure.mp now).1, 4, here, Nat.le_refl 4⟩
    told := by
      intro _ all spare
      refine Bool.or_eq_true_iff.mpr (.inr (leisure.mpr ⟨spare, ?_⟩))
      exact all_of_set hj all (Nat.le_refl 3) fun _ le => Nat.le_of_lt le }
  have phase : (S.unitAt i w 3).phase
      = .ended (S.handAt i) (S.fate w) := rfl
  have entry : (S.unitAt i w 3).entry = .task S.t := rfl
  unfold proceed
  rw [found]
  dsimp only
  rw [phase]
  dsimp only
  rw [entry]
  unfold Ledger.OnEntry.report
  dsimp only
  cases hr : e.ledger.report S.t (S.handAt i) with
  | mk l a =>
      rw [hr] at answer next
      dsimp only at answer next
      subst answer
      exact next

/-- The executor counts the unit off. -/
theorem Standing.countOff (h : S.Standing b works steps noted e)
    (hw : works[i]? = some w) (hj : steps[i]? = some 4)
    (found : e.units[S.d.units.size + i]? = some (S.unitAt i w 4)) :
    S.Standing b works (steps.set i 5) noted
      (e.proceed (S.d.units.size + i)) := by
  obtain ⟨bound, here⟩ := List.getElem?_eq_some_iff.mp hj
  obtain ⟨order, nodup, mem, pooled⟩ := h.pool
  have count : (steps.set i 5).countP (· < 5) = steps.countP (· < 5) - 1 := by
    rw [List.countP_set bound, here]
    simp
  -- whatever the warning, one step more of the unit is what there is
  have next (l : Ledger) (alike : l.Alike e.ledger) :
      S.Standing b works (steps.set i 5) noted
        ((Dispatch.countOff S.x (S.fate w) { e with ledger := l }).setPhase
          (S.d.units.size + i) (S.phaseAt i w 5)) := by
    have others : ∀ k ∈ steps, 4 ≤ k → ∃ k' ∈ steps.set i 5, 4 ≤ k' :=
      fun _ _ _ => ⟨5, List.mem_set bound 5, by decide⟩
    refine {
      live := h.live
      length := (List.length_set ..).trans h.length
      near := near_set h.near (by decide)
      units := h.setPhase hw hj 5
      ledger := ?_
      pool := ⟨order ++ [i], ?_, ?_, ?_⟩
      keeps := h.keeps
      sound := ?_
      told := ?_ }
    -- the ledger does not show the step; the executor does
    · show l.Alike _
      rw [ledgerAt_unseen 5 hj rfl (by omega)]
      exact alike.trans h.ledger
    · refine List.nodup_append.mpr ⟨nodup, List.nodup_singleton i, ?_⟩
      intro k old k' new
      rw [List.mem_singleton.mp new]
      rintro rfl
      rw [mem, hj] at old
      cases old
    · intro k
      rw [List.mem_append, mem, List.mem_singleton, List.getElem?_set]
      split
      · next here => simp [here]
      · next ne => simp [Ne.symm ne]
    · show Dispatch.pooled? S.x
        ({ e with ledger := l }.onPooled S.x (credited (S.fate w))) = _
      rw [pooled?_onPooled, if_pos rfl,
        show Dispatch.pooled? S.x { e with ledger := l } = _ from pooled]
      unfold stateAt credited
      dsimp only [Option.map_some]
      rw [count, List.flatMap_append, List.flatMap_singleton, hw,
        List.append_assoc]
      rfl
    · intro yes
      obtain ⟨spare, k, mem, le⟩ := h.sound yes
      exact ⟨spare, others k mem le⟩
    · intro some all spare
      refine h.told some ?_ spare
      exact all_of_set hj all (Nat.le_refl 4) fun _ le => le
  have phase : (S.unitAt i w 4).phase = .reported (S.fate w) := rfl
  have completed : S.phaseAt i w 5 = .completed (S.fate w) := rfl
  rw [completed] at next
  unfold proceed
  rw [found]
  dsimp only
  rw [phase]
  dsimp only
  -- a cause brings a warning, and that nobody sees
  cases fate : S.fate w with
  | none =>
      rw [fate] at next
      exact next e.ledger (.refl e.ledger)
  | some cause =>
      rw [fate] at next
      exact next (e.ledger.warn (.unitFailed S.p.owner (S.keyAt i w) cause))
        { Ledger.Alike.refl e.ledger with }

/-- Whatever unit of the pool proceeds next, things stand as they should. -/
theorem Standing.proceed (h : S.Standing b works steps noted e)
    (still : ∀ w ∈ works, S.Still w) {total : Nat}
    (few : works.length ≤ total)
    (room : S.sink.last.toNat + total ≤ Sink.largestId.toNat) (v : UnitId) :
    ∃ steps' noted', S.Standing b works steps' noted' (e.proceed v) := by
  cases found : e.units[v]? with
  | none =>
      unfold Dispatch.proceed
      rw [found]
      exact ⟨steps, noted, h⟩
  | some s =>
  cases isOver : s.phase.over with
  | true =>
      rw [proceed_over found isOver]
      exact ⟨steps, noted, h⟩
  | false =>
      obtain ⟨i, w, j, rfl, hw, hj, rfl, lt⟩ := h.at_ found isOver
      match j with
      | 0 => exact ⟨_, _, h.begin_ hw hj found⟩
      | 1 =>
          exact ⟨_, _, h.run_ (still w (List.mem_of_getElem? hw)) hw hj found⟩
      | 2 => exact ⟨_, _, h.end_ hw hj found⟩
      | 3 => exact ⟨_, h.report few room hw hj found⟩
      | 4 => exact ⟨_, _, h.countOff hw hj found⟩
      | _ + 5 => omega

-- ================================================================== owner

/-- The owner gives out a unit. -/
theorem Standing.submit (h : S.Standing b works steps noted e) (w : Work)
    (lt : works.length < UInt64.size) :
    S.Standing (b.enlist (S.keyAt works.length w) (S.handAt works.length))
      (works ++ [w]) (steps ++ [0]) noted (e.submit S.x w).1 := by
  obtain ⟨order, nodup, mem, pooled⟩ := h.pool
  have hired := h.ledger.enlist S.t (S.keyAt works.length w) .worker
  rw [enlist_ledgerAt (h.keeps.noteIf noted).same, Task.noteIf_enlist,
    h.length] at hired
  have entry : (S.stateAt works steps order).entry = .task S.t := S.entry
  -- its key takes the next number, and no old unit is told from another
  have state : charged (S.stateAt works steps order)
      = S.stateAt (works ++ [w]) (steps ++ [0]) order := by
    have number : S.p.sequence + UInt64.ofNat works.length + 1
        = S.p.sequence + UInt64.ofNat (works.length + 1) := by
      rw [UInt64.ofNat_add, ← UInt64.add_assoc]
      rfl
    have causes : order.flatMap (fun i => (works[i]?.bind S.fate).toList)
        = order.flatMap
            (fun i => ((works ++ [w])[i]?.bind S.fate).toList) := by
      rw [List.flatMap_def, List.flatMap_def]
      congr 1
      refine List.map_congr_left fun i here => ?_
      have old := (List.getElem?_eq_some_iff.mp ((mem i).mp here)).1
      rw [h.length] at old
      rw [List.getElem?_append_left old]
    unfold charged stateAt
    dsimp only
    rw [number, causes, List.length_append, List.countP_append]
    rfl
  have next : S.Standing
      (b.enlist (S.keyAt works.length w) (S.handAt works.length))
      (works ++ [w]) (steps ++ [0]) noted
      { e with
        ledger := e.ledger.enlist S.t (S.keyAt works.length w) .worker
        executors := (e.onPooled S.x charged).executors
        units := e.units.push (S.unitAt works.length w 0) } := {
    live := h.live
    length := by simp [h.length]
    near := by
      intro j here
      rcases List.mem_append.mp here with old | new
      · exact h.near j old
      · rw [List.mem_singleton.mp new]
        exact Nat.zero_le 5
    units := by
      show e.units.push _ = _
      rw [h.units, unitsAt_append h.length]
      simp
    ledger := hired
    pool := by
      refine ⟨order, nodup, ?_, ?_⟩
      · intro i
        rw [mem]
        rcases Nat.lt_or_ge i steps.length with old | ge
        · rw [List.getElem?_append_left old]
        · rw [List.getElem?_append_right ge, List.getElem?_eq_none ge]
          cases i - steps.length <;> simp
      · show Dispatch.pooled? S.x (e.onPooled S.x charged) = _
        rw [pooled?_onPooled, if_pos rfl, pooled, Option.map_some, state]
    keeps := h.keeps.enlist w lt
    -- it has not reported, so not all have
    sound := by
      intro yes
      obtain ⟨spare, j, here, le⟩ := h.sound yes
      exact ⟨spare_enlist spare _ _, j, List.mem_append_left _ here, le⟩
    told := by
      intro _ all
      have last := all 0 (List.mem_append_right _ (List.mem_singleton_self 0))
      omega }
  unfold Dispatch.submit
  rw [executor_of pooled]
  dsimp only
  rw [if_neg (by simp [onPooled, onLedger, h.live])]
  unfold onLedger Ledger.OnEntry.does
  rw [entry]
  exact next

/-- A change of the task that does not depend on whether it took note. -/
theorem Standing.turned (h : S.Standing b works steps noted e)
    {f : Task → Task} (turn : Task.Turn S.now f)
    (apart : f (b.noteIf S.now noted) = (f b).noteIf S.now noted) :
    S.Standing (f b) works steps noted
      { e with ledger := e.ledger.onTask S.t f } := by
  have crew : S.spare (f b) = S.spare b := by
    unfold spare
    rw [turn.crew]
  have turned := h.ledger.onTask S.t f
  rw [onTask_ledgerAt, apart] at turned
  exact { h with
    ledger := turned
    keeps := h.keeps.turn turn
    sound := by rw [crew]; exact h.sound
    told := by rw [crew]; exact h.told }

/-- The owner begins to wait. -/
theorem Standing.beginAwait (h : S.Standing b works steps noted e) :
    S.Standing b.await works steps noted (e.beginAwait S.x) := by
  obtain ⟨order, -, -, pooled⟩ := h.pool
  have entry : (S.stateAt works steps order).entry = .task S.t := S.entry
  unfold Dispatch.beginAwait
  rw [pooled]
  dsimp only
  rw [entry]
  exact h.turned .await (Task.noteIf_await ..)

/-- The owner gives control back before any unit reported. -/
theorem Standing.release (h : S.Standing b works steps noted e)
    (before : ∀ j ∈ steps, j < 4) :
    S.Standing (b.close S.now) works steps noted (e.release S.x) := by
  obtain ⟨order, -, -, pooled⟩ := h.pool
  have entry : (S.stateAt works steps order).entry = .task S.t := S.entry
  have none : noted = false := by
    refine Bool.eq_false_iff.mpr fun yes => ?_
    obtain ⟨-, j, mem, le⟩ := h.sound yes
    exact absurd (before j mem) (Nat.not_lt.mpr le)
  subst none
  have closed := h.turned .close
    (by rw [Task.noteIf_false, Task.noteIf_false])
  rw [show S.now = e.ledger.now from h.ledger.now.symm] at closed ⊢
  unfold Dispatch.release
  rw [pooled]
  dsimp only
  rw [entry]
  exact closed

-- ===================================================================== run

/-- The task and the units given out once the owner did something. -/
def does (S : Shift) (s : Task × List Work) (op : DispatchOp) :
    Task × List Work :=
  match op with
  | .submit _ w =>
      (s.1.enlist (S.keyAt s.2.length w) (S.handAt s.2.length), s.2 ++ [w])
  | .beginAwait _ => (s.1.await, s.2)
  | .release _ => (s.1.close S.now, s.2)
  | _ => s

theorem does_prefix (ops : List DispatchOp) (s : Task × List Work) :
    s.2 <+: (ops.foldl S.does s).2 := by
  induction ops generalizing s with
  | nil => exact List.prefix_rfl
  | cons op rest ih =>
      refine List.IsPrefix.trans ?_ (ih (S.does s op))
      unfold does
      split
      · exact List.prefix_append s.2 _
      · exact List.prefix_rfl
      · exact List.prefix_rfl
      · exact List.prefix_rfl

/-- Over all that happens in a shift, things stand as they should. -/
theorem run_standing {total : Nat}
    (room : S.sink.last.toNat + total ≤ Sink.largestId.toNat)
    {ops : List DispatchOp}
    (part : ∀ op ∈ ops, op.isStep = true ∨ op.ofOwner S.x = true)
    (closing : (∀ j ∈ steps, j = 0) ∧ DispatchOp.held ops = true
      ∨ ∀ op ∈ ops, op.isRelease = false)
    (still : ∀ w ∈ (ops.foldl S.does (b, works)).2, S.Still w)
    (few : (ops.foldl S.does (b, works)).2.length ≤ total)
    (h : S.Standing b works steps noted e) :
    ∃ steps' noted',
      S.Standing (ops.foldl S.does (b, works)).1
        (ops.foldl S.does (b, works)).2 steps' noted'
        (DispatchOp.run ops e).1 := by
  induction ops generalizing b works steps noted e with
  | nil => exact ⟨steps, noted, h⟩
  | cons op rest ih =>
      rw [List.foldl_cons] at still few ⊢
      have later : ∀ op ∈ rest, op.isStep = true ∨ op.ofOwner S.x = true :=
        fun op mem => part op (List.mem_cons_of_mem _ mem)
      have here := part op List.mem_cons_self
      have given := does_prefix (S := S) rest (S.does (b, works) op)
      have most := given.length_le
      have size : Sink.largestId.toNat < UInt64.size :=
        Sink.largestId.toNat_lt_size
      -- what was given back before a step, unless this is one
      have closing' (still_ : op.isStep = false) (steps' : List Nat)
          (zero : (∀ j ∈ steps, j = 0) → ∀ j ∈ steps', j = 0) :
          (∀ j ∈ steps', j = 0) ∧ DispatchOp.held rest = true
            ∨ ∀ op ∈ rest, op.isRelease = false := by
        rcases closing with ⟨none, held⟩ | none
        · refine .inl ⟨zero none, ?_⟩
          unfold DispatchOp.held at held ⊢
          rw [List.dropWhile_cons_of_pos (by simp [still_])] at held
          exact held
        · exact .inr fun op mem => none op (List.mem_cons_of_mem _ mem)
      cases op with
      | proceed v =>
          have few' : works.length ≤ total := Nat.le_trans most few
          obtain ⟨steps', noted', next⟩ := h.proceed
            (fun w mem => still w (given.subset mem)) few' room v
          refine ih later (.inr ?_) still few next
          rcases closing with ⟨-, held⟩ | none
          · intro op mem
            unfold DispatchOp.held at held
            rw [List.dropWhile_cons_of_neg (by simp [DispatchOp.isStep])]
              at held
            have all := List.all_eq_true.mp held op
              (List.mem_cons_of_mem _ mem)
            simpa using all
          · exact fun op mem => none op (List.mem_cons_of_mem _ mem)
      | submit y w =>
          obtain rfl : y = S.x := by
            simpa [DispatchOp.isStep, DispatchOp.ofOwner] using here
          have lt : works.length < UInt64.size := by
            have more : works.length + 1 ≤ total := by
              refine Nat.le_trans ?_ (Nat.le_trans most few)
              simp [does]
            omega
          refine ih later (closing' rfl (steps ++ [0]) ?_) still few
            (h.submit w lt)
          intro zero j mem
          rcases List.mem_append.mp mem with old | new
          · exact zero j old
          · exact List.mem_singleton.mp new
      | beginAwait y =>
          obtain rfl : y = S.x := by
            simpa [DispatchOp.isStep, DispatchOp.ofOwner] using here
          exact ih later (closing' rfl steps id) still few h.beginAwait
      | release y =>
          obtain rfl : y = S.x := by
            simpa [DispatchOp.isStep, DispatchOp.ofOwner] using here
          have before : ∀ j ∈ steps, j < 4 := by
            rcases closing with ⟨zero, -⟩ | none
            · intro j mem
              rw [zero j mem]
              decide
            · have not := none _ List.mem_cons_self
              cases not
          exact ih later (closing' rfl steps id) still few (h.release before)
      | onLedger | addExecutor | endAwait | stop =>
          simp [DispatchOp.isStep, DispatchOp.ofOwner] at here

/-- How things stand at the start. -/
theorem standing_start : S.Standing S.task [] [] false S.d where
  live := S.live
  length := rfl
  near := by intro j mem; cases mem
  units := by simp [unitsAt]
  ledger := by
    rw [Task.noteIf_false, ledgerAt_start]
    exact .refl S.d.ledger
  pool := by
    refine ⟨[], List.nodup_nil, by intro i; simp, ?_⟩
    have state : S.stateAt [] [] [] = S.p := by
      have count : S.p.sequence + UInt64.ofNat 0 = S.p.sequence :=
        UInt64.add_zero S.p.sequence
      unfold stateAt
      simp only [List.length_nil, count, List.countP_nil, List.flatMap_nil,
        List.append_nil]
      rw [← S.idle]
    rw [S.pooled, state]
  keeps := keeps_start
  sound := by intro no; cases no
  told := by intro no; exact absurd rfl no

end Shift

end TaskLedger
