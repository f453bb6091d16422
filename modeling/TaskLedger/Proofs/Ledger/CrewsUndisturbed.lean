/-
What goes on in a ledger beside the workers of its crews.

A calm stretch may put tasks on record, move the clock, conclude tasks and
let stand-ins come; what it leaves alone is who is in a crew, what is known
of a worker, and what workers reported (`Calm`). Every operation is calm
but the four that enter a worker, start it, end it, or let it report
(`LedgerOp.byHand`), so a dispatcher that does these itself is disturbed by
nobody.
-/
import TaskLedger.Proofs.Ledger.Change

namespace TaskLedger

namespace Ledger

-- ================================================================ views

/-- The crew of a task; a task that is not on record has none. -/
def crewAt (t : TaskId) (l : Ledger) : List (String × WorkerId) :=
  (l.tasks[t]?.map Task.crew).getD []

/-- What a worker reported to a task, as the journal has it. -/
def reportsOf (t : TaskId) (w : WorkerId) (l : Ledger) : List Write :=
  l.journal.filter fun line => line.origin == .worker t w

theorem crewAt_of {t : TaskId} {task : Task} {l : Ledger}
    (h : l.tasks[t]? = some task) : l.crewAt t = task.crew := by
  unfold crewAt
  rw [h]
  rfl

/-- A task is idle if every worker of its crew that is on record has ended. -/
theorem idle_iff {l : Ledger} {task : Task} :
    l.idle task = true
      ↔ ∀ key w k, (key, w) ∈ task.crew → l.workers[w]? = some k →
          k.ended.isSome = true := by
  unfold idle Worker.allFinished crewOf
  rw [List.all_eq_true]
  constructor
  · intro all key w k mem hw
    exact all k (List.mem_filterMap.mpr ⟨(key, w), mem, hw⟩)
  · intro all k hk
    obtain ⟨⟨key, w⟩, mem, hw⟩ := List.mem_filterMap.mp hk
    exact all key w k mem hw

/-- A change of one task is seen in its crew alone. -/
theorem crewAt_modify {t u : TaskId} {f : Task → Task} {l m : Ledger}
    (same : m.tasks = l.tasks.modify t f) {task : Task}
    (found : l.tasks[t]? = some task) :
    m.crewAt u = if t = u then (f task).crew else l.crewAt u := by
  unfold crewAt
  rw [same, Array.getElem?_modify]
  by_cases e : t = u
  · subst e
    rw [if_pos rfl, if_pos rfl, found]
    rfl
  · rw [if_neg e, if_neg e]

/-- A change that leaves the crew of its task is seen in no crew. -/
theorem crewAt_modify_of {t : TaskId} {f : Task → Task} {l m : Ledger}
    (same : m.tasks = l.tasks.modify t f)
    (crew : ∀ task : Task, (f task).crew = task.crew) (u : TaskId) :
    m.crewAt u = l.crewAt u := by
  unfold crewAt
  rw [same, Array.getElem?_modify]
  split
  · cases l.tasks[u]? with
    | none => rfl
    | some task => exact crew task
  · rfl

/-- The line of a write is kept apart by its origin. -/
theorem notes_filter {s : SinkId} {origin other : Origin} {r : SpanRecord}
    {l : Ledger} (h : origin ≠ other) :
    ((l.notes s origin r).filter fun line => line.origin == other)
      = [] := by
  unfold notes
  split
  · rfl
  · simp [h]

-- ================================================================= calm

/-- From `l` to `m`, no crew changed, nothing became known of a worker, and
no worker reported. -/
structure Calm (l m : Ledger) : Prop where
  task : ∀ {t : TaskId} {task : Task}, l.tasks[t]? = some task →
    ∃ task', m.tasks[t]? = some task' ∧ task.Same task'
  crew : ∀ t, m.crewAt t = l.crewAt t
  worker : ∀ {w : WorkerId} {k : Worker}, l.workers[w]? = some k →
    m.workers[w]? = some k
  reports : ∀ t w, m.reportsOf t w = l.reportsOf t w

theorem Calm.refl (l : Ledger) : Calm l l :=
  ⟨fun {_ task} h => ⟨task, h, .refl task⟩, fun _ => rfl, fun h => h,
    fun _ _ => rfl⟩

/-- One calm stretch after the other is calm. -/
theorem Calm.trans {l m n : Ledger} (h : Calm l m) (k : Calm m n) :
    Calm l n where
  task := by
    intro t task found
    obtain ⟨task', found', same⟩ := h.task found
    obtain ⟨task'', found'', same'⟩ := k.task found'
    exact ⟨task'', found'', same.trans same'⟩
  crew t := (k.crew t).trans (h.crew t)
  worker found := k.worker (h.worker found)
  reports t w := (k.reports t w).trans (h.reports t w)

theorem Calm.size {l m : Ledger} (h : Calm l m) :
    l.workers.size ≤ m.workers.size :=
  size_le_of_old fun found => ⟨_, h.worker found⟩

/-- A line that is no report and tasks that keep their crews are calm. -/
theorem calm_of {l m : Ledger} (c : ∃ a, Change (fun _ => True) l a m)
    (crew : ∀ t, m.crewAt t = l.crewAt t)
    (worker : ∀ {w : WorkerId} {k : Worker}, l.workers[w]? = some k →
      m.workers[w]? = some k)
    (reports : ∀ t w, m.reportsOf t w = l.reportsOf t w) : Calm l m where
  task := by
    obtain ⟨a, c⟩ := c
    intro t task found
    obtain ⟨task', found', same, -⟩ := c.task found
    exact ⟨task', found', same⟩
  crew := crew
  worker := worker
  reports := reports

/-- A quiet change touches no crew, and the line that it may write is no report.
-/
theorem Quiet.calm {l m : Ledger} {a : Nat} (q : Quiet l a m) :
    Calm l m := by
  refine calm_of ⟨a, .quiet q⟩ ?_ ?_ ?_
  · intro t
    cases q with
    | clock | aside | number | hired => rfl
    | opened sink next =>
        unfold crewAt
        dsimp only
        rw [Array.getElem?_push]
        split
        · next e =>
            have gone : l.tasks[t]? = none :=
              Array.getElem?_eq_none_iff.mpr (Nat.le_of_eq e.symm)
            rw [gone]
            rfl
        · rfl
    | turned u turn => exact crewAt_modify_of rfl turn.crew t
  · intro w k found
    cases q with
    | clock | aside | number | opened | turned => exact found
    | hired => exact push_old found
  · intro t w
    cases q <;> rfl

/-- A conclusion writes the line of a task. -/
theorem concluding_calm {l : Ledger} {t : TaskId} {task : Task}
    (found : l.tasks[t]? = some task)
    (opened : task.status.terminal = false) :
    Calm l (l.concluding t task) := by
  refine calm_of ⟨0, .concluded found opened⟩ ?_ (fun h => h) ?_
  · intro u
    exact crewAt_modify_of (f := Task.concluded) rfl (fun _ => rfl) u
  · intro u w
    show (l.journal ++ _).filter _ = _
    rw [List.filter_append, notes_filter (fun e => by cases e),
      List.append_nil]
    rfl

/-- Settling is quiet changes and conclusions, and both are calm. -/
theorem Settles.calm {l m : Ledger} {n a : Nat} (s : Settles l n a m) :
    Calm l m := by
  obtain ⟨ts, -, course⟩ := s
  refine course.keeps (P := fun _ o => Calm l o) (b := 0) ?_ ?_ (.refl l)
  · intro _ _ o p before q
    exact before.trans q.calm
  · intro _ o t task before found opened
    exact before.trans (concluding_calm found opened)

/-- A span that is filed directly is none of a worker's. -/
theorem write_calm (s : SinkId) (r : SpanRecord) (l : Ledger) :
    Calm l (l.write s .direct r).1 := by
  obtain ⟨tree, he⟩ := write_fst s .direct r l
  rw [he]
  refine ⟨fun {_ task} h => ⟨task, h, .refl task⟩, fun _ => rfl, fun h => h,
    ?_⟩
  intro t w
  show (l.journal ++ _).filter _ = _
  rw [List.filter_append, notes_filter (fun e => by cases e),
    List.append_nil]
  rfl

-- ============================================================= passages

/-- A calm stretch that asks for at most `n` numbers: it keeps whatever
every single change keeps. -/
structure Passage (l : Ledger) (n : Nat) (m : Ledger) : Prop extends
    Calm l m where
  keeps : ∀ {P : Nat → Ledger → Prop}, Kept (fun _ => True) P →
    ∀ {b : Nat}, P (n + b) l → P b m

theorem Passage.refl (l : Ledger) : Passage l 0 l where
  toCalm := .refl l
  keeps := by
    intro P kept b h
    rwa [Nat.zero_add] at h

/-- The numbers that two passages ask for add up. -/
theorem Passage.trans {l m o : Ledger} {n k : Nat} (h : Passage l n m)
    (g : Passage m k o) : Passage l (n + k) o where
  toCalm := h.toCalm.trans g.toCalm
  keeps := by
    intro P kept b hl
    rw [Nat.add_assoc] at hl
    exact g.keeps kept (h.keeps kept hl)

/-- A passage may be allowed more numbers than it asks for. -/
theorem Passage.spare {l m : Ledger} {n : Nat} (h : Passage l n m) :
    Passage l (n + 1) m where
  toCalm := h.toCalm
  keeps := by
    intro P kept b hl
    rw [Nat.add_right_comm] at hl
    exact h.keeps kept (kept.spare hl)

theorem Settles.passage {l m : Ledger} {c n : Nat} (s : Settles l c n m) :
    Passage l n m where
  toCalm := s.calm
  keeps kept := kept.settles s

-- ========================================================== moves by hand

/-- What entering a worker does: the worker is new, and it is under its key
in one crew. -/
theorem enlist_view {t : TaskId} {task : Task} {l : Ledger}
    (found : l.tasks[t]? = some task) (key : String) (kind : SpanKind) :
    (l.enlist t key kind).workers
        = l.workers.push { path := task.path, kind, created := l.now }
      ∧ (∀ u, (l.enlist t key kind).crewAt u
        = if t = u then
            (l.crewAt t).filter (fun m => m.1 != key)
              ++ [(key, l.workers.size)]
          else l.crewAt u)
      ∧ (∀ u w, (l.enlist t key kind).reportsOf u w = l.reportsOf u w)
      ∧ ∀ {u : TaskId} {a : Task}, l.tasks[u]? = some a →
          ∃ a', (l.enlist t key kind).tasks[u]? = some a' ∧ a.Same a' := by
  rw [enlist_of_found found]
  refine ⟨rfl, ?_, fun _ _ => rfl, ?_⟩
  · intro u
    rw [crewAt_modify (f := Task.enlist key l.workers.size) rfl
      found, crewAt_of found]
    rfl
  · intro u a ha
    have change : Change (fun _ => True) l 0 _ :=
      .enlisted key kind found
    obtain ⟨a', ha', same, -⟩ := change.task ha
    exact ⟨a', ha', same⟩

/-- A member of a crew after that is an old one that keeps its key, or the
new one. -/
theorem mem_enlist {t u : TaskId} {task : Task} {l : Ledger}
    (found : l.tasks[t]? = some task) {key key' : String} {kind : SpanKind}
    {w : WorkerId} :
    (key', w) ∈ (l.enlist t key kind).crewAt u
      ↔ (key', w) ∈ l.crewAt u ∧ ¬ (t = u ∧ key' = key)
        ∨ t = u ∧ key' = key ∧ w = l.workers.size := by
  rw [(enlist_view found key kind).2.1]
  by_cases e : t = u
  · subst e
    rw [if_pos rfl, List.mem_append, List.mem_filter, List.mem_singleton,
      Prod.mk.injEq, bne_iff_ne]
    simp
  · rw [if_neg e]
    simp [e]

/-- What a report does: it moves no worker, and no task becomes another. -/
theorem report_view (e : Entry) (w : WorkerId) (l : Ledger) :
    (∀ u, (OnEntry.report e w l).1.crewAt u = l.crewAt u)
      ∧ (OnEntry.report e w l).1.workers = l.workers
      ∧ ∀ {u : TaskId} {a : Task}, l.tasks[u]? = some a →
          ∃ a', (OnEntry.report e w l).1.tasks[u]? = some a'
            ∧ a.Same a' := by
  cases e with
  | untracked => exact ⟨fun _ => rfl, rfl, fun {_ a} ha => ⟨a, ha, .refl a⟩⟩
  | task t =>
      unfold OnEntry.report
      dsimp only
      rcases report_cases t w l with ⟨-, he⟩
          | ⟨_, _, _, -, -, -, he⟩
          | ⟨_, _, _, _, _, _, ht, hw, hk, next, he⟩
      · rw [he]
        exact ⟨fun _ => rfl, rfl, fun {_ a} ha => ⟨a, ha, .refl a⟩⟩
      · rw [he]
        exact ⟨fun _ => rfl, rfl, fun {_ a} ha => ⟨a, ha, .refl a⟩⟩
      · rw [he]
        refine ⟨?_, rfl, ?_⟩
        · intro u
          refine crewAt_modify_of (f := Task.noteReport l.now _) rfl
            ?_ u
          intro task
          unfold Task.noteReport
          split <;> rfl
        · intro u a ha
          have change : Change (fun _ => True) l 1 _ :=
            .reported ht hw hk next
          obtain ⟨a', ha', same, -⟩ := change.task ha
          exact ⟨a', ha', same⟩

end Ledger

namespace LedgerOp

open Ledger

/-- The operations that move a worker or a crew. -/
def byHand : LedgerOp → Bool
  | enlist .. | startWorker _ | endWorker _ | report .. => true
  | _ => false

/-- All others are calm. -/
theorem calm_apply {op : LedgerOp} (h : op.byHand = false) (l : Ledger) :
    Calm l (op.apply l).1 := by
  cases hs : op.single with
  | false => exact (settles_apply hs l).calm
  | true =>
      cases op with
      | write r =>
          have calm := write_calm l.sink r l
          simp only [LedgerOp.apply]
          split
          · next hr => rw [hr] at calm; exact calm
          · next hr => rw [hr] at calm; exact calm
      | enlist | startWorker | endWorker | report => cases h
      | _ => cases hs

/-- What the scheduler does is a passage. -/
theorem passage_apply {op : LedgerOp} (h : op.byHand = false) (l : Ledger) :
    Passage l op.numbers (op.apply l).1 where
  toCalm := calm_apply h l
  keeps kept := kept.apply fun _ _ => trivial

end LedgerOp

end TaskLedger
