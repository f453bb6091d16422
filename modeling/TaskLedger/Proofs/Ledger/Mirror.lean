/-
A ledger with many tasks, and one that has only what is for one of them.

Which operations are for a task is told by whom they address (`own`): its path,
the task itself, or workers of its own. In the other ledger they are the same
operations in other places (`recast`). What is for others has nothing to do with
the task, so the two ledgers stay what they are to each other (`Mirror`) whether
it happens or not (`Mirror.aside`); time must pass in both (`Mirror.clock`).

One answer does not depend on the task alone. A path is reported as done for
whoever is registered there, if anybody still is, and that can only be the task
that was last to start there (`Latest`). Both ledgers see the same starts of the
path, so they agree on who that was (`Rivals`). As long as it is the task itself,
or nobody, its registration is all that the answer depends on; where it is
another one, the answer depends on what was done for that one (`compared`).
-/
import TaskLedger.Proofs.Ledger.CopySimulation

namespace TaskLedger

-- ================================================================== recast

/-- An entry in the places of another ledger. -/
def Entry.recast (ts : List TaskId) : Entry → Entry
  | .task t => .task (ts.idxOf t)
  | .untracked => .untracked

/-- An answer in the places of another ledger. -/
def LedgerAnswer.recast (ts : List TaskId) (ws : List WorkerId) :
    LedgerAnswer → LedgerAnswer
  | .task t => .task (ts.idxOf t)
  | .worker w => .worker (ws.idxOf w)
  | a => a

namespace LedgerOp

open Ledger

/-- An operation in the places of another ledger. -/
def recast (ts : List TaskId) (ws : List WorkerId) : LedgerOp → LedgerOp
  | await e => await (e.recast ts)
  | close e => close (e.recast ts)
  | finish e => finish (e.recast ts)
  | attach e kind thread start length =>
      attach (e.recast ts) kind thread start length
  | conclude e => conclude (e.recast ts)
  | enlist e key kind => enlist (e.recast ts) key kind
  | lookUp e key => lookUp (e.recast ts) key
  | startWorker w => startWorker (ws.idxOf w)
  | endWorker w => endWorker (ws.idxOf w)
  | report e w => report (e.recast ts) (ws.idxOf w)
  | op => op

/-- What is for a task of a path, if the workers `ws` are its own: what the
scheduler does for the path or for all, what puts the task on record, and what
addresses the task or one of the workers. Workers of nobody may be its own,
too, if they are `hired`. -/
def own (path : String) (r : TaskId) (hired ws : List WorkerId) (l : Ledger) :
    LedgerOp → Bool
  | startTask p .. | finishTask p => p == path
  | addTask p .. => p == path && l.tasks.size == r
  | flush | endBuild => true
  | startWorker w | endWorker w => ws.contains w
  | addWorker .. | lookUp .untracked _ => hired.contains l.workers.size
  | op => op.entry? == some (.task r)

/-- What is for the task comes when it is on record, and only workers of its
own report to it, or such as are not there. -/
def proper (r : TaskId) (ts : List TaskId) (ws : List WorkerId) (l : Ledger)
    (op : LedgerOp) : Bool :=
  (op.entry? != some (.task r) || ts.contains r)
    && match op with
      | report e w =>
          e != .task r || ws.contains w || decide (l.workers.size ≤ w)
      | _ => true

/-- The task that was last to start under a path, once an operation is done. -/
def latest (path : String) (l : Ledger) (last : Option TaskId)
    (op : LedgerOp) : Option TaskId :=
  match op with
  | startTask p .. => if p = path then (op.opens l).or last else last
  | _ => last

/-- Whether the answer depends on the task alone. That a path is done is
answered for the task that was last to start there. -/
def compared (r : TaskId) (last : Option TaskId) : LedgerOp → Bool
  | finishTask _ => last.all (· == r)
  | flush | endBuild => false
  | _ => true

section

variable {op : LedgerOp} {path : String} {r t : TaskId}
  {hired ws : List WorkerId} {ts : List TaskId} {l : Ledger}

/-- What addresses a task is for that task. -/
theorem own_of_entry (entry : op.entry? = some (.task t)) :
    op.own path r hired ws l = (t == r) := by
  have beq (e : Entry) (is : e = .task t) :
      (some e == some (Entry.task r)) = (t == r) := by
    rw [is]
    cases same : t == r with
    | true => rw [eq_of_beq same, beq_self_eq_true]
    | false =>
        exact beq_false_of_ne fun here => by
          cases here
          rw [beq_self_eq_true] at same
          cases same
  cases op with
  | await e | close e | finish e | attach e | conclude e | enlist e
  | report e => exact beq e (Option.some.inj entry)
  | lookUp e key =>
      cases e with
      | task u => exact beq _ (Option.some.inj entry)
      | untracked => cases entry
  | _ => cases entry

/-- What is not for the task and takes no time is elsewhere. -/
theorem elsewhere_of_not_own (others : op.own path r hired ws l = false) :
    op.elsewhere path r ws = true := by
  cases op with
  | startTask | finishTask =>
      exact bne_iff_ne.mpr (ne_of_beq_false others)
  | flush | endBuild => cases others
  | startWorker w | endWorker w =>
      show (!ws.contains w) = true
      rw [show ws.contains w = false from others]
      rfl
  | lookUp e key =>
      cases e with
      | task t => exact bne_iff_ne.mpr (ne_of_beq_false others)
      | untracked => rfl
  | await | close | finish | attach | conclude | enlist | report =>
      exact bne_iff_ne.mpr (ne_of_beq_false others)
  | setClock | advance | setWall | addTask | addWorker | allocate | write =>
      rfl

/-- A task is an old one, or was put on record just now under its path. -/
theorem opened_back {task : Task}
    (found : (op.apply l).1.tasks[t]? = some task) :
    (∃ old, l.tasks[t]? = some old ∧ old.Same task)
      ∨ t = l.tasks.size ∧ ∃ project variant,
          op = startTask task.path project variant
            ∨ op = addTask task.path project variant := by
  cases before : l.tasks[t]? with
  | some old =>
      obtain ⟨task', found', same⟩ := task_apply op before
      rw [found] at found'
      obtain rfl := Option.some.inj found'
      exact .inl ⟨old, rfl, same⟩
  | none =>
      refine .inr ?_
      -- a task that was not there came last
      have size (same : (op.apply l).1.tasks.size = l.tasks.size) : False := by
        have below := (Array.getElem?_eq_some_iff.mp found).1
        rw [same] at below
        rw [Array.getElem?_eq_getElem below] at before
        cases before
      -- of the operations, two bring one
      cases op with
      | startTask p project variant =>
          rcases startTask_cases p project variant l with ⟨f, he⟩
              | ⟨id, marks, warnings, -, he⟩
          · refine (size ?_).elim
            show (l.startTask p project variant).1.tasks.size = _
            rw [he]
          · have found : (l.startTask p project variant).1.tasks[t]?
                = some task := found
            rw [he] at found
            rcases push_back found with old | ⟨rfl, rfl⟩
            · rw [before] at old
              cases old
            · exact ⟨rfl, project, variant, .inl rfl⟩
      | addTask p project variant =>
          rcases addTask_cases p project variant l with ⟨f, he⟩ | ⟨id, -, he⟩
          · refine (size ?_).elim
            show (l.addTask p project variant l.sink).1.tasks.size = _
            rw [he]
          · have found : (l.addTask p project variant l.sink).1.tasks[t]?
                = some task := found
            rw [he] at found
            rcases push_back found with old | ⟨rfl, rfl⟩
            · rw [before] at old
              cases old
            · exact ⟨rfl, project, variant, .inr rfl⟩
      | allocate =>
          refine (size ?_).elim
          show (l.allocate l.sink).1.tasks.size = _
          rw [allocate_fst]
      | report e w =>
          refine (size ?_).elim
          cases e with
          | untracked => rfl
          | task u =>
              show (l.report u w).1.tasks.size = _
              rcases report_cases u w l with ⟨-, he⟩
                  | ⟨_, _, _, -, -, -, he⟩
                  | ⟨_, _, _, _, _, _, -, -, -, -, he⟩
              · rw [he]
              · rw [he]
              · rw [he]
                exact Array.size_modify
      | _ => exact (size (size_apply rfl l)).elim

end

end LedgerOp

namespace Ledger

variable {refuses : Nat → SpanRecord → Option Error} {path : String}
  {r : TaskId} {hired : List WorkerId} {ts : List TaskId}
  {ws : List WorkerId} {ps qs : Paired} {l l' m m' : Ledger} {op : LedgerOp}

-- ================================================================== latest

/-- If anybody is registered under a path, it is the task that was last to
start there. -/
def Latest (path : String) (last : Option TaskId) (l : Ledger) : Prop :=
  ∀ t, l.registered? path = some t → last = some t

/-- Nobody starts but by the scheduler. -/
theorem latest_of_quiet {last : Option TaskId}
    (quiet : op.scheduling = false) : op.latest path l last = last := by
  cases op with
  | startTask => cases quiet
  | _ => rfl

/-- Only a start registers a task, and it puts the one before it out. -/
theorem Latest.apply {last : Option TaskId} (h : Latest path last l)
    (op : LedgerOp) :
    Latest path (op.latest path l last) (op.apply l).1 := by
  intro t registered
  -- who is registered last is told by the scheduler's starts alone
  cases scheduling : op.scheduling with
  | false =>
      unfold registered? at registered
      rw [LedgerOp.registry_apply scheduling] at registered
      exact (latest_of_quiet scheduling).trans (h t registered)
  | true =>
      cases op with
      | startTask p project variant =>
          unfold LedgerOp.latest
          rcases startTask_cases p project variant l with ⟨f, he⟩
              | ⟨id, marks, warnings, -, he⟩
          · -- no number was left, so nobody started
            simp only [LedgerOp.opens, LedgerOp.apply, LedgerOp.apply.answer,
              he] at registered ⊢
            split
            · exact h t registered
            · exact h t registered
          · simp only [LedgerOp.opens, LedgerOp.apply, LedgerOp.apply.answer,
              he] at registered ⊢
            have registered : List.lookup path _ = some t := registered
            rw [lookup_replaced] at registered
            split at registered
            · next here =>
                rw [if_pos here.symm]
                exact registered
            · next other =>
                rw [if_neg fun here => other here.symm]
                exact h t registered
      | finishTask p => exact h t (registered?_finishTask registered)
      -- what leaves the registry does not come into it
      | flush =>
          have registered :
              (l.flushOver l.readyPaths).1.registered? path = some t :=
            registered
          rw [registered?_flushOver] at registered
          split at registered
          · cases registered
          · exact h t registered
      | endBuild =>
          have registered : List.lookup path l.endBuild.1.registry = some t :=
            registered
          rw [endBuild_registry] at registered
          cases registered
      | _ => cases scheduling

/-- What no scheduler does leaves it at that. -/
theorem Latest.idle {last : Option TaskId} {ops : List LedgerOp}
    (quiet : ∀ op ∈ ops, op.scheduling = false) (h : Latest path last l) :
    Latest path last (LedgerOp.run ops l).1 := by
  induction ops generalizing l with
  | nil => exact h
  | cons op rest ih =>
      obtain ⟨first, others⟩ := List.forall_mem_cons.mp quiet
      have next := h.apply op
      rw [latest_of_quiet first] at next
      exact ih others next

/-- Where there is a number, the one that starts is last in the table. -/
theorem latest_startTask {last : Option TaskId} (h : Fit refuses l)
    (room : l.counter + 1 ≤ Sink.largestId.toNat) (path project : String)
    (variant : Option String) :
    (LedgerOp.startTask path project variant).latest path l last
      = some l.tasks.size := by
  obtain ⟨_, _, _, -, -, started⟩ := h.startTask room path project variant
  unfold LedgerOp.latest
  dsimp only
  rw [if_pos rfl]
  simp only [LedgerOp.opens, LedgerOp.apply, LedgerOp.apply.answer, started]
  rfl

/-- Two ledgers agree on who was last to start under a path, and the one has
that task in the place where the other one has kept it. -/
structure Rivals (path : String) (ts : List TaskId) (last : Option TaskId)
    (l m : Ledger) : Prop where
  left : Latest path last l
  right : Latest path (last.map ts.idxOf) m
  kept : ∀ t, last = some t → t ∈ ts

-- ================================================================== mirror

/-- What holds in a history from nothing. -/
structure Orderly (refuses : Nat → SpanRecord → Option Error) (l : Ledger) :
    Prop extends Fit refuses l where
  sound : Sound l
  single : Single l

theorem Orderly.apply (h : Orderly refuses l) (op : LedgerOp) :
    Orderly refuses (op.apply l).1 where
  toFit := fit_kept.apply (b := 0) (fun _ _ => trivial) h.toFit
  sound := h.sound.apply op
  single := single_apply h.single

/-- A ledger, and another one with only the tasks `ts` and the workers `ws` of
it. If the task `r` is of this path, then it was kept, and only workers of its
own were. -/
structure Mirror (refuses : Nat → SpanRecord → Option Error)
    (path : String) (r : TaskId) (ts : List TaskId) (ws : List WorkerId)
    (ps : Paired) (l m : Ledger) : Prop extends Level ts ws ps l m where
  left : Orderly refuses l
  right : Orderly refuses m
  reflected : r ∈ ts → Reflected refuses path r (ts.idxOf r) ws ps l m
  kept : ∀ task, l.tasks[r]? = some task → task.path = path → r ∈ ts
  strangers : ∀ {t : TaskId} {key : String} {w : WorkerId}, t ≠ r →
    (key, w) ∈ l.crewAt t → w ∉ ws

theorem Mirror.facing (h : Mirror refuses path r ts ws ps l m)
    (mem : r ∈ ts) :
    Facing refuses path r (ts.idxOf r) ts ws ps l m :=
  { h.toLevel, h.reflected mem with
    left := h.left.toFit
    right := h.right.toFit }

/-- What an observer is told, on either side. -/
theorem Mirror.told (h : Mirror refuses path r ts ws ps l m)
    (marks marks' : List Mark) (warnings warnings' : List Warning) :
    Mirror refuses path r ts ws ps { l with marks, warnings }
      { m with marks := marks', warnings := warnings' } where
  toLevel := ⟨h.now, h.wall, h.tasks, h.workers, h.rising, h.below, h.counter⟩
  left := ⟨⟨h.left.sink, h.left.home, h.left.known⟩,
    ⟨h.left.sound.homed, h.left.sound.manned, h.left.sound.ended,
      h.left.sound.sink⟩, h.left.single⟩
  right := ⟨⟨h.right.sink, h.right.home, h.right.known⟩,
    ⟨h.right.sound.homed, h.right.sound.manned, h.right.sound.ended,
      h.right.sound.sink⟩, h.right.single⟩
  reflected mem :=
    let same := h.reflected mem
    ⟨same.task, same.lines, same.registered⟩
  kept := h.kept
  strangers := h.strangers

/-- As long as there are numbers left, the counter does not fall, and the rest
of them is left. -/
theorem Fit.counter_apply (h : Fit refuses l) {n : Nat}
    (room : l.counter + (op.draws l + n) ≤ Sink.largestId.toNat) :
    l.counter ≤ (op.apply l).1.counter
      ∧ (op.apply l).1.counter + n ≤ Sink.largestId.toNat :=
  ((counting_kept l.counter).apply_draws (b := n) (fun _ _ => trivial)
    (h.counting room)).le

/-- What is elsewhere and takes no time. -/
theorem Mirror.aside (h : Mirror refuses path r ts ws ps l m)
    (elsewhere : op.elsewhere path r ws = true)
    (other : ∀ project variant, op = .addTask path project variant →
      l.tasks.size ≠ r)
    (timeless : op.takesTime = false)
    (room : l.counter + op.draws l ≤ Sink.largestId.toNat) :
    Mirror refuses path r ts ws ps (op.apply l).1 m where
  toLevel := h.toLevel.beside
    (LedgerOp.beside_apply timeless elsewhere h.workers.below)
    (h.left.counter_apply (n := 0) room).1
  left := h.left.apply op
  right := h.right
  reflected mem := by
    obtain ⟨a, b, found, -, own, -⟩ := (h.reflected mem).task
    exact (h.reflected mem).apart
      (LedgerOp.apart_apply found h.left.sound.homed own elsewhere)
      (.refl path _ m)
  kept := by
    intro task found own
    rcases LedgerOp.opened_back found with ⟨old, found', same⟩
        | ⟨rfl, project, variant, rfl | rfl⟩
    · exact h.kept old found' (same.path.symm.trans own)
    · exact absurd own (bne_iff_ne.mp elsewhere)
    · rw [own] at other
      exact absurd rfl (other project variant rfl)
  strangers := by
    intro t key w ne mem
    rcases LedgerOp.member_back mem with old | ⟨rfl, -⟩
    · exact h.strangers ne old
    · exact h.workers.fresh

-- ==================================================================== time

theorem clock_cases (now : m.now = l.now) (wall : m.wall = l.wall)
    (time : op.takesTime = true) :
    ∃ now wall, (op.apply l).1 = { l with now, wall }
      ∧ (op.apply m).1 = { m with now, wall }
      ∧ (op.apply m).2 = (op.apply l).2 := by
  cases op with
  | setClock ms =>
      simp only [LedgerOp.apply, setClock]
      cases Instant.ofMillis ms with
      | ok t => exact ⟨t, l.wall, rfl, by rw [← wall]; rfl, rfl⟩
      | error f => exact ⟨l.now, l.wall, rfl, by rw [← wall, ← now]; rfl, rfl⟩
  | advance ms ns =>
      simp only [LedgerOp.apply, advance]
      rw [now]
      cases Duration.ofParts ms ns >>= l.now.shift with
      | ok t => exact ⟨t, l.wall, rfl, by rw [← wall]; rfl, rfl⟩
      | error f => exact ⟨l.now, l.wall, rfl, by rw [← wall, ← now]; rfl, rfl⟩
  | setWall t => exact ⟨l.now, t, rfl, by rw [← now]; rfl, rfl⟩
  | _ => cases time

/-- Time passes in both. -/
theorem Mirror.clock (h : Mirror refuses path r ts ws ps l m)
    (time : op.takesTime = true) :
    Mirror refuses path r ts ws ps (op.apply l).1 (op.apply m).1 := by
  have left := h.left.apply op
  have right := h.right.apply op
  obtain ⟨now, wall, he, he', -⟩ := clock_cases h.now h.wall time
  rw [he] at left ⊢
  rw [he'] at right ⊢
  exact {
    toLevel := ⟨rfl, rfl, h.tasks, h.workers, h.rising, h.below, h.counter⟩
    left, right
    reflected := fun mem =>
      let same := h.reflected mem
      ⟨same.task, same.lines, same.registered⟩
    kept := h.kept
    strangers := h.strangers }

end Ledger

end TaskLedger
