/-
What the scheduler concludes before the build ends: only tasks that nobody
works for.

`Swept` says it of a stretch in which the scheduler goes over paths: no
worker moves, a task is as it was or has been concluded while it was idle,
and every line that came on behalf of a task is the span that the task has
now. A single path is such a stretch if its task is idle (`swept_settle`),
and so is a whole sweep, since a task that is idle stays so while others
are concluded.

A sweep goes by paths and looks them up again, so it finds the tasks that
it meant only because no path is registered twice (`Single`).
-/
import TaskLedger.Proofs.Ledger.CrewsUndisturbed
import TaskLedger.Proofs.Ledger.Registered

namespace TaskLedger

namespace Ledger

variable {l m : Ledger} {t : TaskId}

-- ================================================================ registry

/-- No path is registered twice. -/
def Single (l : Ledger) : Prop := (l.registry.map Prod.fst).Nodup

theorem Single.sublist (h : Single l) (sub : m.registry.Sublist l.registry) :
    Single m :=
  List.Nodup.sublist (sub.map Prod.fst) h

/-- Settling a path takes it out of the registry, or nothing. -/
theorem settle_registry (path : String) (l : Ledger) :
    (l.settle path).1.registry.Sublist l.registry := by
  unfold settle
  split
  · exact List.Sublist.refl _
  · rw [concludeAndMark_registry]
    exact List.filter_sublist

theorem finishTask_registry (path : String) (l : Ledger) :
    (l.finishTask path).1.registry.Sublist l.registry := by
  unfold finishTask
  split
  · exact List.Sublist.refl _
  · next t _ =>
      dsimp only
      split
      · exact List.Sublist.refl _
      · split
        · exact settle_registry path (l.finish t)
        · exact List.Sublist.refl _

theorem flush_registry (l : Ledger) :
    l.flush.1.registry.Sublist l.registry :=
  countOver_keeps (P := fun m => m.registry.Sublist l.registry)
    (fun path m h => (settle_registry path m).trans h) l.readyPaths
    (List.Sublist.refl _)

/-- No operation gives a task a second place in the registry. -/
theorem single_apply {op : LedgerOp} (h : Single l) :
    Single (op.apply l).1 := by
  cases scheduling : op.scheduling with
  | false =>
      unfold Single
      rw [LedgerOp.registry_apply scheduling]
      exact h
  | true =>
      cases op with
      | startTask path project variant =>
          show Single (l.startTask path project variant).1
          rcases startTask_cases path project variant l with ⟨f, he⟩
              | ⟨id, marks, warnings, -, he⟩
          · rw [he]
            exact h
          · rw [he]
            unfold Single
            rw [List.map_append, List.nodup_append]
            refine ⟨List.Nodup.sublist (List.filter_sublist.map Prod.fst) h,
              List.nodup_cons.mpr ⟨List.not_mem_nil, List.nodup_nil⟩, ?_⟩
            intro p hp q hq
            obtain ⟨e, he, rfl⟩ := List.mem_map.mp hp
            obtain rfl : q = path := List.mem_singleton.mp hq
            exact bne_iff_ne.mp (List.mem_filter.mp he).2
      | finishTask path => exact h.sublist (finishTask_registry path l)
      | flush => exact h.sublist (flush_registry l)
      | endBuild =>
          show ((l.endBuild.1.registry).map Prod.fst).Nodup
          rw [endBuild_registry]
          exact List.nodup_nil
      | _ => cases scheduling

-- =================================================================== sweeps

/-- From `l` to `m` no worker moved, tasks were concluded only while they
were idle, and what was written for a task is the span that it has in the
end. -/
structure Swept (l m : Ledger) : Prop where
  workers : m.workers = l.workers
  task : ∀ t : TaskId, m.tasks[t]? = l.tasks[t]?
    ∨ ∃ task : Task, l.tasks[t]? = some task
        ∧ task.status.terminal = false ∧ m.tasks[t]? = some task.concluded
  lines : ∃ added, m.journal = l.journal ++ added
    ∧ ∀ line ∈ added, ∀ t : TaskId, line.origin = .task t →
      ∃ task, m.tasks[t]? = some task ∧ task.status.terminal = true
        ∧ m.idle task = true ∧ line.record.span = task.span (m.crewOf task)

/-- Whether a task is idle depends on its crew and on the workers. -/
theorem idle_congr {task task' : Task} (workers : m.workers = l.workers)
    (crew : task'.crew = task.crew) : m.idle task' = l.idle task := by
  unfold idle crewOf
  rw [workers, crew]

theorem Swept.refl (l : Ledger) : Swept l l :=
  ⟨rfl, fun _ => .inl rfl, [], (List.append_nil _).symm, by
    intro line mem
    cases mem⟩

/-- One sweep after the other is a sweep, since what is over stays over. -/
theorem Swept.trans {n : Ledger} (h : Swept l m) (k : Swept m n) :
    Swept l n where
  workers := k.workers.trans h.workers
  task := by
    intro t
    rcases k.task t with same | ⟨task, ht, opened, he⟩
    · rw [same]
      exact h.task t
    · rcases h.task t with same | ⟨task', ht', opened', he'⟩
      · exact .inr ⟨task, same.symm.trans ht, opened, he⟩
      · -- what is concluded is not concluded again
        rw [he'] at ht
        obtain rfl := Option.some.inj ht
        cases opened
  lines := by
    obtain ⟨first, hfirst, old⟩ := h.lines
    obtain ⟨second, hsecond, new⟩ := k.lines
    refine ⟨first ++ second, ?_, ?_⟩
    · rw [hsecond, hfirst, List.append_assoc]
    · intro line mem t origin
      rcases List.mem_append.mp mem with early | late
      · obtain ⟨task, ht, terminal, idle, span⟩ := old line early t origin
        refine ⟨task, ?_, terminal, ?_, ?_⟩
        · rcases k.task t with same | ⟨task', ht', opened, -⟩
          · rw [same]
            exact ht
          · rw [ht] at ht'
            obtain rfl := Option.some.inj ht'
            rw [terminal] at opened
            cases opened
        · rw [idle_congr k.workers rfl]
          exact idle
        · unfold crewOf at span ⊢
          rw [k.workers]
          exact span
      · exact new line late t origin

/-- The conclusion of an idle task. -/
theorem swept_concluding {task : Task} (found : l.tasks[t]? = some task)
    (opened : task.status.terminal = false) (idle : l.idle task = true)
    (tree : Files.Tree) (marks : List Mark) (warnings : List Warning)
    (registry : List (String × TaskId)) :
    Swept l { l.concluding t task with tree, marks, warnings, registry } where
  workers := rfl
  task := by
    intro u
    show (l.tasks.modify t Task.concluded)[u]? = _ ∨ _
    rw [Array.getElem?_modify]
    by_cases e : t = u
    · subst e
      refine .inr ⟨task, found, opened, ?_⟩
      show (l.tasks.modify t Task.concluded)[t]? = _
      rw [Array.getElem?_modify, if_pos rfl, found]
      rfl
    · rw [if_neg e]
      exact .inl rfl
  lines := by
    refine ⟨_, rfl, ?_⟩
    intro line mem u origin
    unfold notes at mem
    split at mem
    · cases mem
    · obtain rfl := List.mem_singleton.mp mem
      obtain rfl := Origin.task.inj origin
      refine ⟨task.concluded, ?_, rfl, idle, rfl⟩
      show (l.tasks.modify t Task.concluded)[t]? = _
      rw [Array.getElem?_modify, if_pos rfl, found]
      rfl

/-- What is beside the tasks, the workers and the journal. -/
theorem swept_aside (marks : List Mark) (registry : List (String × TaskId)) :
    Swept l { l with marks, registry } :=
  ⟨rfl, fun _ => .inl rfl, [], (List.append_nil _).symm, by
    intro line mem
    cases mem⟩

/-- An idle task that is concluded and marked is swept. -/
theorem swept_concludeAndMark
    (idle : ∀ task, l.tasks[t]? = some task → l.idle task = true) :
    Swept l (l.concludeAndMark t).1 := by
  unfold concludeAndMark
  rcases conclude_cases t l with ⟨-, he⟩
      | ⟨task, tree, warnings, found, opened, he⟩
  · rw [he]
    exact .refl l
  · rw [he]
    have written := swept_concluding found opened (idle task found) tree
      l.marks warnings l.registry
    refine written.trans ?_
    dsimp only
    unfold markLength
    split
    · exact .refl _
    · exact swept_aside _ _

/-- Settling the path of an idle task. -/
theorem swept_settle {path : String}
    (idle : ∀ t task, l.registered? path = some t →
      l.tasks[t]? = some task → l.idle task = true) :
    Swept l (l.settle path).1 := by
  unfold settle
  split
  · exact .refl l
  · next t registered =>
      have gone : Swept l (l.unregister path) := swept_aside l.marks _
      exact gone.trans (swept_concludeAndMark fun task found =>
        idle t task registered found)

/-- What is registered after settling a path was before. -/
theorem registered?_settle {path other : String}
    (h : (l.settle path).1.registered? other = some t) :
    l.registered? other = some t := by
  unfold settle at h
  split at h
  · exact h
  · unfold registered? at h
    rw [concludeAndMark_registry] at h
    have h : (l.unregister path).registered? other = some t := h
    rw [registered?_unregister] at h
    split at h
    · cases h
    · exact h

/-- Going over the paths of idle tasks. -/
theorem swept_flushOver {paths : List String}
    (idle : ∀ path ∈ paths, ∀ t task, l.registered? path = some t →
      l.tasks[t]? = some task → l.idle task = true) :
    Swept l (l.flushOver paths).1 := by
  unfold flushOver
  induction paths generalizing l with
  | nil => exact .refl l
  | cons path rest ih =>
      have first := swept_settle (idle path List.mem_cons_self)
      refine first.trans (ih ?_)
      intro other mem t task registered found
      have before := idle other (List.mem_cons_of_mem path mem) t
      rcases first.task t with same | ⟨task', ht', -, he⟩
      · rw [same] at found
        rw [idle_congr first.workers rfl]
        exact before task (registered?_settle registered) found
      · rw [he] at found
        obtain rfl := Option.some.inj found
        have crew : task'.concluded.crew = task'.crew := rfl
        rw [idle_congr first.workers crew]
        exact before task' (registered?_settle registered) ht'

/-- A flush concludes only idle tasks. -/
theorem swept_flush (single : Single l) : Swept l l.flush.1 := by
  refine swept_flushOver ?_
  intro path mem t task registered found
  obtain ⟨⟨path, u⟩, chosen, rfl⟩ := List.mem_map.mp mem
  obtain ⟨sorted, ready⟩ := List.mem_filter.mp chosen
  have entered : (path, u) ∈ l.registry := List.mem_mergeSort.mp sorted
  have here : l.registered? path = some u := lookup_of_mem single entered
  rw [registered] at here
  obtain rfl := Option.some.inj here
  have ready : l.ready t = true := ready
  unfold Ledger.ready at ready
  rw [found] at ready
  exact (Bool.and_eq_true_iff.mp ready).2

/-- The scheduler reports a task as done, and its span is written at once
only if it is idle. -/
theorem swept_finishTask (path : String) (l : Ledger) :
    ∃ m, Settles l 0 0 m ∧ m.journal = l.journal ∧ m.workers = l.workers
      ∧ Swept m (l.finishTask path).1 := by
  unfold finishTask
  cases registered : l.registered? path with
  | none => exact ⟨l, .refl l, rfl, rfl, .refl l⟩
  | some t =>
      refine ⟨l.finish t, settles_onTask t .finish, rfl, rfl, ?_⟩
      dsimp only
      split
      · exact .refl _
      · next task found =>
          split
          · next idle =>
              refine swept_settle ?_
              intro u task' registered' found'
              have registered' : l.registered? path = some u := registered'
              rw [registered] at registered'
              obtain rfl := Option.some.inj registered'
              rw [found] at found'
              obtain rfl := Option.some.inj found'
              exact idle
          · exact .refl _

end Ledger

end TaskLedger
