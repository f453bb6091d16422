/-
No started task is lost: until its span is written, a task stays in the
registry, unless a start of its path puts another one in its place.

`Held` is what carries this. Leaving the registry and writing the span are
separate acts, so every operation that takes a path out is shown to
conclude the task that was there (`settle_held`, `endBuild_over`). After
the build has ended nothing is registered, so what was held is concluded.

The accounts of a run, which tasks it started and which of them lost their
place (`opened`, `displaced`), are read off its operations one by one.
-/
import TaskLedger.Proofs.Ledger.Change

namespace TaskLedger

namespace Ledger

/-- A task is on record. -/
def Known (t : TaskId) (l : Ledger) : Prop :=
  ∃ task, l.tasks[t]? = some task

/-- A task is concluded. -/
def Over (t : TaskId) (l : Ledger) : Prop :=
  ∃ task, l.tasks[t]? = some task ∧ task.status.terminal = true

/-- A task is concluded, or on record and registered. -/
def Held (t : TaskId) (l : Ledger) : Prop :=
  Over t l ∨ Known t l ∧ ∃ path, l.registered? path = some t

section

variable {t u : TaskId} {l m : Ledger} {n a : Nat}

/-- Nothing takes a task off the record. -/
theorem known_kept (t : TaskId) :
    Kept (fun _ => True) fun _ l => Known t l :=
  .of_change fun h c => by
    obtain ⟨task, ht⟩ := h
    obtain ⟨task', ht', -⟩ := c.task ht
    exact ⟨task', ht'⟩

/-- Nothing opens a task again. -/
theorem over_kept (t : TaskId) : Kept (fun _ => True) fun _ l => Over t l :=
  .of_change fun h c => by
    obtain ⟨task, ht, terminal⟩ := h
    obtain ⟨task', ht', -, still⟩ := c.task ht
    exact ⟨task', ht', still terminal⟩

theorem Known.settles (h : Known t l) (s : Settles l n a m) : Known t m :=
  (known_kept t).settles (b := 0) s h

theorem Over.settles (h : Over t l) (s : Settles l n a m) : Over t m :=
  (over_kept t).settles (b := 0) s h

/-- A task is held by a change that keeps it on record and leaves the registry
as it is. -/
theorem Held.same (h : Held t l) (known : Known t l → Known t m)
    (isOver : Over t l → Over t m) (registry : m.registry = l.registry) :
    Held t m := by
  rcases h with done | ⟨here, path, hp⟩
  · exact .inl (isOver done)
  · refine .inr ⟨known here, path, ?_⟩
    unfold registered?
    rw [registry]
    exact hp

-- ================================================== the registry's moves

/-- A path that is taken out leads nowhere, and every other one leads where it
led. -/
theorem registered?_unregister (path other : String) (l : Ledger) :
    (l.unregister path).registered? other
      = if other = path then none else l.registered? other :=
  lookup_without path other l.registry

theorem write_registry (s : SinkId) (origin : Origin) (r : SpanRecord)
    (l : Ledger) : (l.write s origin r).1.registry = l.registry := by
  obtain ⟨tree, h⟩ := write_fst s origin r l
  rw [h]

theorem allocate_registry (s : SinkId) (l : Ledger) :
    (l.allocate s).1.registry = l.registry := by
  rw [allocate_fst]

/-- A report does not look at the registry, so a task that is reported to may be
anywhere. -/
theorem report_registry (t : TaskId) (w : WorkerId) (l : Ledger) :
    (l.report t w).1.registry = l.registry := by
  rcases report_cases t w l with ⟨-, he⟩ | ⟨_, _, _, -, -, -, he⟩
      | ⟨_, _, _, _, _, _, -, -, -, -, he⟩
  · rw [he]
  · rw [he]
  · rw [he]

/-- Nor does writing a span: the scheduler takes the path out before it asks for
the span. -/
theorem conclude_registry (t : TaskId) (l : Ledger) :
    (l.conclude t).1.registry = l.registry := by
  rcases conclude_cases t l with ⟨-, he⟩ | ⟨_, _, _, -, -, he⟩
  · rw [he]
  · rw [he]
    rfl

theorem concludeAndMark_registry (t : TaskId) (l : Ledger) :
    (l.concludeAndMark t).1.registry = l.registry := by
  have h := conclude_registry t l
  unfold concludeAndMark
  split
  · next l' hc =>
      rw [hc] at h
      unfold markLength
      split
      · exact h
      · exact h
  · next hc => rw [hc] at h; exact h

-- ========================================================== conclusions

/-- Writing the span of a task on record leaves it concluded, whether or
not this is what wrote it. -/
theorem conclude_over (h : Known t l) : Over t (l.conclude t).1 := by
  obtain ⟨task, ht⟩ := h
  rcases conclude_cases t l with ⟨terminal, he⟩
      | ⟨task', tree, warnings, ht', -, he⟩
  · rw [he]
    exact ⟨task, ht, terminal task ht⟩
  · rw [he]
    refine ⟨task'.concluded, ?_, rfl⟩
    show (l.tasks.modify t Task.concluded)[t]? = _
    rw [Array.getElem?_modify, if_pos rfl, ht']
    rfl

/-- Whoever asks for the span of a task that is on record, the task is over
afterwards. -/
theorem concludeAndMark_over (h : Known t l) :
    Over t (l.concludeAndMark t).1 := by
  have done := conclude_over h
  unfold concludeAndMark
  split
  · next hc =>
      rw [hc] at done
      unfold markLength
      split
      · exact done
      · exact done
  · next hc => rw [hc] at done; exact done

-- ============================================================== settling

/-- Settling a path takes it out of the registry, and concludes the task
that was there. Every other task keeps its place. -/
theorem settle_held (path : String) (h : Held t l) :
    Held t (l.settle path).1 := by
  have course := settles_settle path l
  rcases h with isOver | ⟨known, p, hp⟩
  · exact .inl (isOver.settles course)
  · unfold settle at course ⊢
    split
    · exact .inr ⟨known, p, hp⟩
    · next u hu =>
        by_cases same : p = path
        · subst same
          obtain rfl : u = t := by rw [hu] at hp; exact Option.some.inj hp
          exact .inl (concludeAndMark_over known)
        · rw [hu] at course
          refine .inr ⟨known.settles course, p, ?_⟩
          unfold registered?
          rw [concludeAndMark_registry]
          show (l.unregister path).registered? p = some t
          rw [registered?_unregister, if_neg same]
          exact hp

/-- That the scheduler is done with some task leaves every task where it is. -/
theorem finish_held (u : TaskId) (h : Held t l) : Held t (l.finish u) :=
  have course : Settles l 0 0 (l.finish u) := settles_onTask u .finish
  h.same (fun k => k.settles course) (fun o => o.settles course) rfl

/-- A task leaves the registry by a report that it is done only as it is
concluded. -/
theorem finishTask_held (path : String) (h : Held t l) :
    Held t (l.finishTask path).1 := by
  unfold finishTask
  split
  · exact h
  · next u _ =>
      have finished := finish_held u h
      dsimp only
      split
      · exact finished
      · split
        · exact settle_held path finished
        · exact finished

/-- And so it does by a flush. -/
theorem flush_held (h : Held t l) : Held t l.flush.1 :=
  countOver_keeps (fun path _ => settle_held path) l.readyPaths h

/-- What the end of a build wraps up is over. -/
theorem wrapUp_over (h : Known t l) : Over t (l.wrapUp t).1 := by
  obtain ⟨task, ht⟩ := h
  unfold wrapUp
  rw [ht]
  dsimp only
  have warned : Known t
      (if l.idle task then l else l.warn (.stillRunning task.path)) := by
    split
    · exact ⟨task, ht⟩
    · exact ⟨task, ht⟩
  exact concludeAndMark_over (warned.settles (settles_onTask t .finish))

/-- It takes the paths out beforehand, all at once. -/
theorem wrapUp_registry (t : TaskId) (l : Ledger) :
    (l.wrapUp t).1.registry = l.registry := by
  unfold wrapUp
  split
  · rfl
  · dsimp only
    rw [concludeAndMark_registry]
    show (if _ then l else _ : Ledger).registry = _
    split
    · rfl
    · rfl

/-- If a task is among those that are wrapped up, it is over in the end: once it
is so, none of the later ones opens it again. -/
theorem countOver_wrapUp_over {ts : List TaskId} (mem : t ∈ ts)
    (h : Known t l) : Over t (countOver wrapUp ts l).1 := by
  induction ts generalizing l with
  | nil => cases mem
  | cons u rest ih =>
      show Over t (countOver wrapUp rest (l.wrapUp u).1).1
      rcases List.mem_cons.mp mem with rfl | later
      · exact countOver_keeps
          (fun v _ o => o.settles (settles_wrapUp v _)) rest (wrapUp_over h)
      · exact ih later (h.settles (settles_wrapUp u l))

/-- No task that was held is left open by the end of a build. -/
theorem endBuild_over (h : Held t l) : Over t l.endBuild.1 := by
  rcases h with isOver | ⟨known, path, hp⟩
  · exact isOver.settles (settles_endBuild l)
  · refine countOver_wrapUp_over ?_ known
    obtain ⟨before, after, split, -⟩ := List.lookup_eq_some_iff.mp hp
    have mem : (path, t) ∈ l.registry := by
      rw [split]
      exact List.mem_append_right before List.mem_cons_self
    have sorted : (path, t) ∈ l.byId := List.mem_mergeSort.mpr mem
    exact List.mem_map_of_mem (f := Prod.snd) sorted

/-- And none is registered. -/
theorem endBuild_registry (l : Ledger) : l.endBuild.1.registry = [] :=
  countOver_keeps (P := fun m => m.registry = [])
    (fun u m hm => by rw [wrapUp_registry]; exact hm) _ rfl

-- ============================================================== starting

/-- Putting a task on record takes a number in vain, or the task comes last
in the table and starts now. -/
theorem addTask_cases (path project : String) (variant : Option String)
    (l : Ledger) :
    (∃ f, l.addTask path project variant l.sink
        = ({ l with sinks := l.sinks.modify l.sink fun k => k.next.1 },
            .error f))
      ∨ ∃ (id : SpanId), (l.allocate l.sink).2 = .ok id
          ∧ l.addTask path project variant l.sink
            = ({ l with
                  sinks := l.sinks.modify l.sink fun k => k.next.1
                  tasks := l.tasks.push
                    { path, project, variant, id, sink := l.sink,
                      start := l.now } }, .ok l.tasks.size) := by
  have hfst := allocate_fst l.sink l
  unfold addTask
  generalize l.allocate l.sink = res at hfst ⊢
  obtain ⟨l', _ | id⟩ := res
  · dsimp only at hfst
    subst hfst
    exact .inl ⟨_, rfl⟩
  · dsimp only at hfst
    subst hfst
    exact .inr ⟨id, rfl, rfl⟩

/-- A start takes a number in vain, or puts a task on record and registers
it. -/
theorem startTask_cases (path project : String) (variant : Option String)
    (l : Ledger) :
    (∃ f, l.startTask path project variant
        = ({ l with sinks := l.sinks.modify l.sink fun k => k.next.1 },
            .error f))
      ∨ ∃ (id : SpanId) (marks : List Mark) (warnings : List Warning),
          (l.allocate l.sink).2 = .ok id
          ∧ l.startTask path project variant
            = ({ l with
                  sinks := l.sinks.modify l.sink fun k => k.next.1
                  tasks := l.tasks.push
                    { path, project, variant, id, sink := l.sink,
                      start := l.now }
                  registry := l.registry.filter (fun e => e.1 != path)
                    ++ [(path, l.tasks.size)]
                  marks, warnings }, .ok l.tasks.size) := by
  unfold startTask
  rcases addTask_cases path project variant l with ⟨f, he⟩ | ⟨id, next, he⟩
  · rw [he]
    exact .inl ⟨f, rfl⟩
  · rw [he]
    dsimp only
    split
    · exact .inr ⟨id, _, _, next, rfl⟩
    · exact .inr ⟨id, _, _, next, rfl⟩

end

end Ledger

-- ============================================================== accounts

namespace LedgerOp

open Ledger

/-- The task that an operation starts for the scheduler. -/
def opens (op : LedgerOp) (l : Ledger) : Option TaskId :=
  match op, (op.apply l).2 with
  | startTask .., .ok (.task t) => some t
  | _, _ => none

/-- The task that an operation throws out of the registry by starting
another one of its path. -/
def displaces (op : LedgerOp) (l : Ledger) : Option TaskId :=
  match op, op.opens l with
  | startTask path .., some _ => l.registered? path
  | _, _ => none

/-- What an account says of each operation of a run, put together. -/
def account (f : LedgerOp → Ledger → Option TaskId) :
    List LedgerOp → Ledger → List TaskId
  | [], _ => []
  | op :: rest, l => (f op l).toList ++ account f rest (op.apply l).1

/-- The tasks that a run starts for the scheduler. -/
def opened : List LedgerOp → Ledger → List TaskId := account opens

/-- The tasks that a run throws out of the registry. -/
def displaced : List LedgerOp → Ledger → List TaskId := account displaces

/-- Of the operations, only the scheduler's look at the registry. -/
def scheduling : LedgerOp → Bool
  | startTask .. | finishTask _ | flush | endBuild => true
  | _ => false

section

variable {t : TaskId} {l : Ledger}

/-- Only the scheduler acts on the registry. -/
theorem registry_apply {op : LedgerOp} (h : op.scheduling = false)
    (l : Ledger) : (op.apply l).1.registry = l.registry := by
  cases op with
  -- what is left acts on tasks, workers or sinks, and not on the registry
  | startTask | finishTask | flush | endBuild => cases h
  | setClock ms =>
      show (l.setClock ms).1.registry = _
      unfold Ledger.setClock
      split <;> rfl
  | advance ms ns =>
      show (l.advance ms ns).1.registry = _
      unfold Ledger.advance
      split <;> rfl
  | setWall | addWorker | startWorker | endWorker => rfl
  | addTask path project variant =>
      show (l.addTask path project variant l.sink).1.registry = _
      have same := allocate_registry l.sink l
      unfold Ledger.addTask
      split
      · next ha => rw [ha] at same; exact same
      · next ha => rw [ha] at same; exact same
  | await e | close e | finish e | attach e =>
      cases e with
      | task t => rfl
      | untracked => rfl
  | conclude e =>
      cases e with
      | task t => exact conclude_registry t l
      | untracked => rfl
  | enlist e key kind =>
      cases e with
      | task t =>
          show (l.enlist t key kind).registry = _
          rcases enlist_cases t key kind l with ⟨-, he⟩ | ⟨_, -, he⟩
          · rw [he]
          · rw [he]
      | untracked => rfl
  | lookUp e key =>
      cases e with
      | task t =>
          show (l.lookUp t key).1.registry = _
          unfold Ledger.lookUp
          split <;> rfl
      | untracked => rfl
  | report e w =>
      cases e with
      | task t => exact report_registry t w l
      | untracked => rfl
  | allocate => exact allocate_registry l.sink l
  | write r =>
      have same := write_registry l.sink .direct r l
      simp only [LedgerOp.apply]
      split
      · next hr => rw [hr] at same; exact same
      · next hr => rw [hr] at same; exact same

/-- A task that is started is held, whoever had its path before. -/
theorem held_of_opens {op : LedgerOp} (h : op.opens l = some t) :
    Held t (op.apply l).1 := by
  cases op with
  | startTask path project variant =>
      rcases startTask_cases path project variant l with ⟨f, he⟩
          | ⟨id, marks, warnings, -, he⟩
      · simp only [opens, LedgerOp.apply, apply.answer, he] at h
        cases h
      · simp only [opens, LedgerOp.apply, apply.answer, he] at h ⊢
        obtain rfl := Option.some.inj h
        refine .inr ⟨⟨_, Array.getElem?_push_size⟩, path, ?_⟩
        show List.lookup path _ = _
        rw [lookup_replaced, if_pos rfl]
  | _ => simp [opens] at h

/-- A held task stays held, unless it is displaced. -/
theorem held_apply {op : LedgerOp} (h : Held t l)
    (kept : op.displaces l ≠ some t) : Held t (op.apply l).1 := by
  cases hs : op.scheduling with
  | false =>
      refine h.same ?_ ?_ (registry_apply hs l)
      · exact (known_kept t).apply (fun _ _ => trivial) (b := 0)
      · exact (over_kept t).apply (fun _ _ => trivial) (b := 0)
  | true =>
      cases op with
      | finishTask path => exact finishTask_held path h
      | flush => exact flush_held h
      | endBuild => exact .inl (endBuild_over h)
      | startTask path project variant =>
          have known : Known t l →
              Known t ((startTask path project variant).apply l).1 :=
            (known_kept t).apply (b := 0) (fun _ _ => trivial)
          have isOver : Over t l →
              Over t ((startTask path project variant).apply l).1 :=
            (over_kept t).apply (b := 0) (fun _ _ => trivial)
          rcases h with done | ⟨here, p, hp⟩
          · exact .inl (isOver done)
          · refine .inr ⟨known here, p, ?_⟩
            rcases startTask_cases path project variant l with ⟨f, he⟩
                | ⟨id, marks, warnings, -, he⟩
            · simp only [LedgerOp.apply, apply.answer, he]
              exact hp
            · simp only [displaces, opens, LedgerOp.apply, apply.answer, he]
                at kept ⊢
              have free : p ≠ path := by
                rintro rfl
                exact kept hp
              show List.lookup p _ = _
              rw [lookup_replaced, if_neg free]
              exact hp
      | _ => cases hs

/-- So a task is held through a run, as long as no later start takes its path
from it. -/
theorem held_run {ops : List LedgerOp} (h : Held t l)
    (kept : t ∉ displaced ops l) : Held t (run ops l).1 := by
  induction ops generalizing l with
  | nil => exact h
  | cons op rest ih =>
      unfold displaced account at kept
      rw [List.mem_append, not_or] at kept
      refine ih (held_apply h ?_) kept.2
      intro e
      rw [e] at kept
      exact kept.1 (List.mem_singleton_self t)

/-- A task that a run started is held at its end, unless it was displaced. -/
theorem held_of_opened {ops : List LedgerOp} (h : t ∈ opened ops l)
    (kept : t ∉ displaced ops l) : Held t (run ops l).1 := by
  induction ops generalizing l with
  | nil => cases h
  | cons op rest ih =>
      unfold opened account at h
      have later : t ∉ displaced rest (op.apply l).1 := by
        intro e
        unfold displaced account at kept
        exact kept (List.mem_append_right _ e)
      show Held t (run rest (op.apply l).1).1
      rcases List.mem_append.mp h with now | soon
      · exact held_run (held_of_opens (Option.mem_toList.mp now)) later
      · exact ih soon later

end

end LedgerOp

end TaskLedger
