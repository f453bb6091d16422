/-
What the scheduler leaves alone of a task that it does not mean.

It acts by paths and, when the build ends, by the tasks' numbers, and it
may go over many at once. Of a task that is not among them, or that is
over, nothing changes, nor does what is known of the workers, and no line
comes on its behalf (`Spared`). A sweep spares what each of its steps
spares (`spared_countOver`).

The other half is the registry itself. What a sweep takes out of it is
said exactly (`registered?_flush`): the tasks that are ready, by their
status, and no other. What is registered after an operation was so before,
or was started by it (`registered_back`), so a task keeps the path it is
registered under (`Homed`).
-/
import TaskLedger.Proofs.Ledger.Settlement
import TaskLedger.Proofs.Ledger.Sweep
import TaskLedger.Proofs.Ledger.Service

namespace TaskLedger

-- ============================================================ two no-ops

namespace Task

variable {task : Task}

/-- A report that a task is done is not heard any more once its span is written.
-/
theorem finish_of_terminal (now : Instant)
    (terminal : task.status.terminal = true) : task.finish now = task := by
  unfold finish
  rw [if_pos terminal]

/-- Reporting a task as done again changes nothing, at whatever time. -/
theorem finish_of_finished (now : Instant)
    (finished : task.status = .finished) (ended : task.ended.isSome = true) :
    task.finish now = task := by
  obtain ⟨e, he⟩ := Option.isSome_iff_exists.mp ended
  unfold finish
  rw [if_neg (by rw [finished]; decide), he]
  obtain ⟨⟩ := task
  simp_all

end Task

namespace Ledger

variable {l m : Ledger} {t u : TaskId}

/-- What leaves a task as it is leaves the ledger as it is. -/
theorem onTask_of_fixed {f : Task → Task} {task : Task}
    (found : l.tasks[t]? = some task) (fixed : f task = task) :
    l.onTask t f = l := by
  have same : l.tasks.modify t f = l.tasks := by
    apply Array.ext_getElem?
    intro i
    rw [Array.getElem?_modify]
    split
    · next e =>
        subst e
        rw [found, Option.map_some, fixed]
    · rfl
  unfold onTask
  rw [same]

-- ================================================================= lines

/-- The lines of the journal that came on behalf of a task. -/
def linesOf (t : TaskId) (l : Ledger) : List Write :=
  l.journal.filter fun line => line.origin == .task t

/-- From `l` to `m`, nothing happened to a task: it is as it was, no worker
moved, and no line came on its behalf. -/
structure Spared (t : TaskId) (l m : Ledger) : Prop where
  task : m.tasks[t]? = l.tasks[t]?
  workers : m.workers = l.workers
  sinks : m.sinks = l.sinks
  lines : m.linesOf t = l.linesOf t

theorem Spared.refl (t : TaskId) (l : Ledger) : Spared t l l :=
  ⟨rfl, rfl, rfl, rfl⟩

/-- What spares a task in every part spares it altogether. -/
theorem Spared.trans {n : Ledger} (h : Spared t l m) (k : Spared t m n) :
    Spared t l n :=
  ⟨k.task.trans h.task, k.workers.trans h.workers, k.sinks.trans h.sinks,
    k.lines.trans h.lines⟩

/-- A task that was spared is over if it was. -/
theorem Spared.isOver (h : Spared t l m) (isOver : Over t l) : Over t m := by
  unfold Over
  rw [h.task]
  exact isOver

/-- An act on a task spares another one, and one that is over. -/
def Aside (u t : TaskId) (l : Ledger) : Prop := u ≠ t ∨ Over t l

/-- What was aside of a task stays aside while the task is spared. -/
theorem Spared.aside (h : Spared t l m) (aside : Aside u t l) :
    Aside u t m := by
  rcases aside with ne | isOver
  · exact .inl ne
  · exact .inr (h.isOver isOver)

-- ============================================================ single acts

/-- The report that one task is done spares every other task, and one that is
over. -/
theorem spared_finish (aside : Aside u t l) : Spared t l (l.finish u) := by
  refine ⟨?_, rfl, rfl, rfl⟩
  show (l.tasks.modify u (Task.finish l.now))[t]? = _
  rw [Array.getElem?_modify]
  split
  · next e =>
      rcases aside with ne | ⟨task, ht, terminal⟩
      · exact absurd e ne
      · rw [ht, Option.map_some, Task.finish_of_terminal l.now terminal]
  · rfl

/-- So does a span that is written: its line comes on behalf of the task whose
span it is. -/
theorem spared_conclude (aside : Aside u t l) :
    Spared t l (l.conclude u).1 := by
  rcases conclude_cases u l with ⟨-, he⟩
      | ⟨task, tree, warnings, found, opened, he⟩
  · rw [he]
    exact .refl t l
  · have ne : u ≠ t := by
      rintro rfl
      rcases aside with ne | ⟨task', ht, terminal⟩
      · exact ne rfl
      · rw [found] at ht
        obtain rfl := Option.some.inj ht
        rw [opened] at terminal
        cases terminal
    rw [he]
    refine ⟨?_, rfl, rfl, ?_⟩
    · show (l.tasks.modify u Task.concluded)[t]? = _
      rw [Array.getElem?_modify, if_neg ne]
    · show (l.journal ++ _).filter _ = _
      rw [List.filter_append,
        notes_filter (fun e => ne (Origin.task.inj e)), List.append_nil]
      rfl

/-- A mark is nobody's business. -/
theorem spared_markLength (t u : TaskId) (l : Ledger) :
    Spared t l (l.markLength u) := by
  unfold markLength
  split
  · exact .refl t l
  · exact ⟨rfl, rfl, rfl, rfl⟩

/-- And so does the notice of its length. -/
theorem spared_concludeAndMark (aside : Aside u t l) :
    Spared t l (l.concludeAndMark u).1 := by
  have concluded := spared_conclude aside
  unfold concludeAndMark
  split
  · next h =>
      rw [h] at concluded
      exact concluded.trans (spared_markLength t u _)
  · next h =>
      rw [h] at concluded
      exact concluded

/-- A path that is settled spares every task but the one that it leads to. -/
theorem spared_settle {path : String}
    (aside : ∀ u, l.registered? path = some u → Aside u t l) :
    Spared t l (l.settle path).1 := by
  unfold settle
  split
  · exact .refl t l
  · next u registered =>
      have gone : Spared t l (l.unregister path) := ⟨rfl, rfl, rfl, rfl⟩
      exact gone.trans
        (spared_concludeAndMark (gone.aside (aside u registered)))

/-- A start puts a task on record and changes no other. -/
theorem startTask_task {task : Task} (path project : String)
    (variant : Option String) (found : l.tasks[t]? = some task) :
    (l.startTask path project variant).1.tasks[t]? = some task := by
  rcases startTask_cases path project variant l with ⟨f, he⟩
      | ⟨id, marks, warnings, -, he⟩
  · rw [he]
    exact found
  · rw [he]
    exact push_old found

/-- A report that the task of a path is done spares every task but that one. -/
theorem spared_finishTask {path : String}
    (aside : ∀ u, l.registered? path = some u → Aside u t l) :
    Spared t l (l.finishTask path).1 := by
  unfold finishTask
  cases registered : l.registered? path with
  | none => exact .refl t l
  | some u =>
      have finished := spared_finish (aside u registered)
      dsimp only
      split
      · exact finished
      · split
        · refine finished.trans (spared_settle fun v hv => ?_)
          exact finished.aside (aside v hv)
        · exact finished

/-- Wrapping up one task spares the others. -/
theorem spared_wrapUp (aside : Aside u t l) : Spared t l (l.wrapUp u).1 := by
  unfold wrapUp
  split
  · exact .refl t l
  · next task _ =>
      dsimp only
      have warned : Spared t l
          (if l.idle task then l else l.warn (.stillRunning task.path)) := by
        split
        · exact .refl t l
        · exact ⟨rfl, rfl, rfl, rfl⟩
      have finished := warned.trans (spared_finish (warned.aside aside))
      exact finished.trans (spared_concludeAndMark (finished.aside aside))

-- ================================================================ sweeps

section

variable {α : Type} {f : α → Ledger → Ledger × Bool}

/-- A sweep may be cut in two anywhere. -/
theorem countOver_append (f : α → Ledger → Ledger × Bool) (as bs : List α)
    (l : Ledger) :
    (countOver f (as ++ bs) l).1
      = (countOver f bs (countOver f as l).1).1 := by
  induction as generalizing l with
  | nil => rfl
  | cons a rest ih => exact ih (f a l).1

/-- Going over a list spares what every step spares, as long as each leaves
the ground for the next. -/
theorem spared_countOver {as : List α} {G : Ledger → Prop}
    (step : ∀ a ∈ as, ∀ l, G l → Spared t l (f a l).1 ∧ G (f a l).1)
    (h : G l) : Spared t l (countOver f as l).1 := by
  induction as generalizing l with
  | nil => exact .refl t l
  | cons a rest ih =>
      obtain ⟨spared, next⟩ := step a List.mem_cons_self l h
      exact spared.trans
        (ih (fun b hb => step b (List.mem_cons_of_mem a hb)) next)

end

/-- Going over paths spares a task that is registered under none of them. -/
theorem spared_flushOver {paths : List String}
    (other : ∀ path ∈ paths, l.registered? path ≠ some t) :
    Spared t l (l.flushOver paths).1 := by
  refine spared_countOver
    (G := fun m => ∀ path ∈ paths, m.registered? path ≠ some t) ?_ other
  intro path mem m ground
  refine ⟨spared_settle fun u hu => .inl ?_, ?_⟩
  · rintro rfl
    exact ground path mem hu
  · intro p hp registered
    exact ground p hp (registered?_settle registered)

/-- And one that is over, whatever the paths are. -/
theorem spared_flushOver_over (paths : List String) (isOver : Over t l) :
    Spared t l (l.flushOver paths).1 := by
  refine spared_countOver (G := Over t) ?_ isOver
  intro path _ m isOver
  have spared : Spared t m (m.settle path).1 :=
    spared_settle fun _ _ => .inr isOver
  exact ⟨spared, spared.isOver isOver⟩

/-- Wrapping up some tasks spares one that is not among them, and one that
is over. -/
theorem spared_wrapUps (ts : List TaskId) (aside : t ∉ ts ∨ Over t l) :
    Spared t l (countOver wrapUp ts l).1 := by
  refine spared_countOver (G := fun m => t ∉ ts ∨ Over t m) ?_ aside
  intro u mem m aside
  have act : Aside u t m := by
    rcases aside with none | isOver
    · refine .inl ?_
      rintro rfl
      exact none mem
    · exact .inr isOver
  have spared := spared_wrapUp act
  exact ⟨spared, aside.imp_right spared.isOver⟩

-- ============================================================== registry

/-- A settled path leads nowhere, and every other one leads where it led. -/
theorem registered?_settle_eq (path other : String) (l : Ledger) :
    (l.settle path).1.registered? other
      = if other = path then none else l.registered? other := by
  unfold settle
  cases registered : l.registered? path with
  | none =>
      dsimp only
      split
      · next e => rw [e, registered]
      · rfl
  | some u =>
      unfold registered?
      rw [concludeAndMark_registry]
      exact registered?_unregister path other l

/-- What is registered after a report that a path is done was before. -/
theorem registered?_finishTask {path other : String}
    (h : (l.finishTask path).1.registered? other = some t) :
    l.registered? other = some t := by
  unfold finishTask at h
  split at h
  · exact h
  · dsimp only at h
    split at h
    · exact h
    · split at h
      · have before := registered?_settle h
        exact before
      · exact h

/-- Such a report takes no other path out of the registry. -/
theorem registered?_finishTask_other {path other : String}
    (ne : other ≠ path) (l : Ledger) :
    (l.finishTask path).1.registered? other = l.registered? other := by
  unfold finishTask
  split
  · rfl
  · next u _ =>
      dsimp only
      split
      · rfl
      · split
        · rw [registered?_settle_eq, if_neg ne]
          rfl
        · rfl

/-- Going over paths takes these out of the registry and no other. -/
theorem registered?_flushOver (paths : List String) (other : String)
    (l : Ledger) :
    (l.flushOver paths).1.registered? other
      = if other ∈ paths then none else l.registered? other := by
  unfold flushOver
  induction paths generalizing l with
  | nil => rfl
  | cons path rest ih =>
      show (countOver settle rest (l.settle path).1).1.registered? other = _
      rw [ih, registered?_settle_eq]
      by_cases later : other ∈ rest
      · simp [later]
      · by_cases here : other = path <;> simp [later, here]

/-- A task is ready if the scheduler is done with it and its crew is idle. -/
theorem ready_of {task : Task} (found : l.tasks[t]? = some task) :
    l.ready t = (task.status == .finished && l.idle task) := by
  unfold ready
  rw [found]

/-- The path of a registered task that is ready is among those that a flush goes
over. -/
theorem mem_readyPaths_of {path : String}
    (registered : l.registered? path = some t) (ready : l.ready t = true) :
    path ∈ l.readyPaths := by
  have sorted : (path, t) ∈ l.byId :=
    List.mem_mergeSort.mpr (mem_of_lookup registered)
  exact List.mem_map.mpr ⟨_, List.mem_filter.mpr ⟨sorted, ready⟩, rfl⟩

/-- The paths of a flush are those of the tasks that are ready. -/
theorem mem_readyPaths {path : String} (single : Single l) :
    path ∈ l.readyPaths
      ↔ ∃ t, l.registered? path = some t ∧ l.ready t = true := by
  constructor
  · intro mem
    obtain ⟨⟨path, t⟩, chosen, rfl⟩ := List.mem_map.mp mem
    obtain ⟨sorted, ready⟩ := List.mem_filter.mp chosen
    have entered : (path, t) ∈ l.registry := List.mem_mergeSort.mp sorted
    exact ⟨t, lookup_of_mem single entered, ready⟩
  · rintro ⟨t, registered, ready⟩
    exact mem_readyPaths_of registered ready

/-- A flush leaves the tasks registered that are not ready. -/
theorem registered?_flush {path : String} (single : Single l) :
    l.flush.1.registered? path = some t
      ↔ l.registered? path = some t ∧ l.ready t = false := by
  unfold flush
  rw [registered?_flushOver]
  by_cases mem : path ∈ l.readyPaths
  · rw [if_pos mem]
    obtain ⟨u, registered, ready⟩ := (mem_readyPaths single).mp mem
    refine ⟨fun h => by (cases h), ?_⟩
    rintro ⟨registered', not⟩
    rw [registered] at registered'
    obtain rfl := Option.some.inj registered'
    rw [ready] at not
    cases not
  · rw [if_neg mem]
    refine ⟨fun registered => ⟨registered, ?_⟩, And.left⟩
    cases ready : l.ready t with
    | false => rfl
    | true => exact absurd (mem_readyPaths_of registered ready) mem

-- ================================================================= homed

/-- Who is registered is on record, and its path is the one that it is
registered under. -/
def Homed (l : Ledger) : Prop :=
  ∀ (path : String) (t : TaskId), l.registered? path = some t →
    ∃ task, l.tasks[t]? = some task ∧ task.path = path

/-- No task is registered under two paths. -/
theorem Homed.only (h : Homed l) {path other : String}
    (here : l.registered? path = some t)
    (there : l.registered? other = some t) : other = path := by
  obtain ⟨task, ht, rfl⟩ := h path t here
  obtain ⟨task', ht', rfl⟩ := h other t there
  rw [ht] at ht'
  rw [Option.some.inj ht']

/-- Nobody is registered in a ledger on which nothing is on record. -/
theorem Blank.homed (h : l.Blank) : Homed l := by
  intro path t registered
  unfold registered? at registered
  rw [h.registry] at registered
  cases registered

theorem Blank.single (h : l.Blank) : Single l := by
  unfold Single
  rw [h.registry]
  exact List.nodup_nil

end Ledger

namespace LedgerOp

open Ledger

variable {op : LedgerOp} {l : Ledger} {t : TaskId} {path : String}

/-- Who is registered was so before, or started just now. -/
theorem registered_back
    (h : (op.apply l).1.registered? path = some t) :
    l.registered? path = some t
      ∨ l.tasks[t]? = none ∧ ∃ task, (op.apply l).1.tasks[t]? = some task
          ∧ task.path = path ∧ task.status = .running := by
  cases scheduling : op.scheduling with
  | false =>
      unfold registered? at h ⊢
      rw [registry_apply scheduling] at h
      exact .inl h
  | true =>
      cases op with
      | startTask p project variant =>
          rcases startTask_cases p project variant l with ⟨f, he⟩
              | ⟨id, marks, warnings, -, he⟩
          · simp only [LedgerOp.apply, apply.answer, he] at h
            exact .inl h
          · simp only [LedgerOp.apply, apply.answer, he] at h ⊢
            have h : List.lookup path _ = _ := h
            rw [lookup_replaced] at h
            split at h
            · next e =>
                obtain rfl := Option.some.inj h
                exact .inr ⟨Array.getElem?_eq_none_iff.mpr (Nat.le_refl _),
                  _, Array.getElem?_push_size, e.symm, rfl⟩
            · exact .inl h
      | finishTask p =>
          exact .inl (registered?_finishTask h)
      | flush =>
          have h : (l.flushOver l.readyPaths).1.registered? path = some t := h
          rw [registered?_flushOver] at h
          split at h
          · cases h
          · exact .inl h
      | endBuild =>
          have h : List.lookup path l.endBuild.1.registry = some t := h
          rw [endBuild_registry] at h
          cases h
      | _ => cases scheduling

/-- Whatever the operation, a task is registered under its own path alone. -/
theorem homed_apply (h : Homed l) : Homed (op.apply l).1 := by
  intro path t registered
  rcases registered_back registered with old | ⟨-, task, ht, home, -⟩
  · obtain ⟨task, ht, home⟩ := h path t old
    obtain ⟨task', ht', same⟩ := task_apply op ht
    exact ⟨task', ht', same.path.trans home⟩
  · exact ⟨task, ht, home⟩

-- ================================================================= frame

/-- The entry that an operation is for. -/
def entry? : LedgerOp → Option Entry
  | await e | close e | finish e | attach e .. | conclude e | enlist e ..
  | lookUp e _ | report e _ => some e
  | _ => none

/-- What is not the scheduler's leaves a task alone that it is not for. -/
theorem task_aside (others : op.scheduling = false)
    (aside : op.entry? ≠ some (.task t)) {task : Task}
    (found : l.tasks[t]? = some task) :
    (op.apply l).1.tasks[t]? = some task := by
  have modified {u : TaskId} {f : Task → Task} (ne : u ≠ t) :
      (l.tasks.modify u f)[t]? = some task := by
    rw [Array.getElem?_modify, if_neg ne]
    exact found
  have ne {e : Entry} {u : TaskId} (he : e = .task u)
      (aside : some e ≠ some (.task t)) : u ≠ t := by
    rintro rfl
    exact aside (congrArg some he)
  -- what has an entry has another one, and what has none changes no task
  cases op with
  | startTask | finishTask | flush | endBuild => cases others
  | setWall | addWorker | startWorker | endWorker => exact found
  | setClock ms =>
      show (l.setClock ms).1.tasks[t]? = _
      unfold Ledger.setClock
      split <;> exact found
  | advance ms ns =>
      show (l.advance ms ns).1.tasks[t]? = _
      unfold Ledger.advance
      split <;> exact found
  | addTask path project variant =>
      rcases addTask_cases path project variant l with ⟨f, he⟩ | ⟨id, -, he⟩
      · simp only [LedgerOp.apply, apply.answer, he]
        exact found
      · simp only [LedgerOp.apply, apply.answer, he]
        exact push_old found
  | await e | close e | finish e | attach e =>
      cases e with
      | untracked => exact found
      | task u => exact modified (ne rfl aside)
  | conclude e =>
      cases e with
      | untracked => exact found
      | task u =>
          have spared := spared_conclude (l := l) (.inl (ne rfl aside))
          exact spared.task.trans found
  | enlist e key kind =>
      cases e with
      | untracked => exact found
      | task u =>
          show (l.enlist u key kind).tasks[t]? = _
          rcases enlist_cases u key kind l with ⟨-, he⟩ | ⟨_, -, he⟩
          · rw [he]
            exact found
          · rw [he]
            exact modified (ne rfl aside)
  | lookUp e key =>
      cases e with
      | untracked => exact found
      | task u =>
          show (l.lookUp u key).1.tasks[t]? = _
          unfold Ledger.lookUp
          split <;> exact found
  | report e w =>
      cases e with
      | untracked => exact found
      | task u =>
          show (l.report u w).1.tasks[t]? = _
          rcases report_cases u w l with ⟨-, he⟩ | ⟨_, _, _, -, -, -, he⟩
              | ⟨_, _, _, _, _, _, -, -, -, -, he⟩
          · rw [he]
            exact found
          · rw [he]
            exact found
          · rw [he]
            exact modified (ne rfl aside)
  | allocate =>
      show (l.allocate l.sink).1.tasks[t]? = _
      rw [allocate_fst]
      exact found
  | write r =>
      obtain ⟨tree, he⟩ := write_fst l.sink .direct r l
      have same : (l.write l.sink .direct r).1.tasks[t]? = some task := by
        rw [he]
        exact found
      simp only [LedgerOp.apply]
      split
      · next hr => rw [hr] at same; exact same
      · next hr => rw [hr] at same; exact same

end LedgerOp

end TaskLedger
