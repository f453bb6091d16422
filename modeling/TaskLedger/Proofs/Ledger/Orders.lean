/-
Sweeps in any order.

A flush and the end of the build go over the registry one task at a time,
and nothing says in which order. What one task comes to does not depend on
the others: its workers stay as they are, its record is its own, and the
clock does not move. So what is left of a ledger after some tasks are
wrapped up can be told without going over them (`Wrapped`): each of them is
finished and concluded, and the journal has one line more for each that was
not concluded before. Two stretches over different tasks make one
(`Wrapped.append`), and of two lists with the same tasks in them only the
order of the new lines can be told apart (`Wrapped.alike`).

A flush is such a stretch as well (`wrapped_flushOver`): a task that is
ready has been finished, and to finish it once more is to do nothing.
-/
import Mathlib.Data.List.Nodup
import TaskLedger.Proofs.Ledger.ReadyToWrite

namespace TaskLedger

/-- What is left of a task once it is wrapped up. -/
def Task.wrapped (now : Instant) (task : Task) : Task :=
  (task.finish now).concluded

/-- What a line of the journal offers, and to whom. -/
abbrev Offer := SinkId × Origin × SpanRecord

/-- A line without the sink's answer. -/
def Write.toOffer (line : Write) : Offer := (line.sink, line.origin, line.record)

namespace Task

/-- A task that is over is wrapped up already. -/
theorem wrapped_of_terminal {task : Task} (now : Instant)
    (terminal : task.status.terminal = true) : task.wrapped now = task := by
  have closed : task.status = .spanClosed := by
    revert terminal
    cases task.status <;> decide
  unfold wrapped finish
  rw [if_pos terminal]
  obtain ⟨⟩ := task
  simp_all [concluded]

end Task

namespace Ledger

variable {l m n : Ledger} {t : TaskId} {task : Task} {ts us : List TaskId}
  {path : String}

-- ================================================================= dues

/-- What is offered for a task once it is wrapped up: the record of its own
span, unless that has been written. -/
def duesOf (l : Ledger) (t : TaskId) : List Offer :=
  match l.tasks[t]? with
  | none => []
  | some task =>
    if task.status.terminal then []
    else [(task.sink, .task t, l.ownRecord (task.finish l.now))]

/-- What is offered for some tasks. -/
def dues (l : Ledger) (ts : List TaskId) : List Offer := ts.flatMap l.duesOf

theorem duesOf_of (found : l.tasks[t]? = some task)
    (opened : task.status.terminal = false) :
    l.duesOf t = [(task.sink, .task t, l.ownRecord (task.finish l.now))] := by
  unfold duesOf
  rw [found]
  exact if_neg (by rw [opened]; decide)

/-- For a task that is over, or not on record, nothing is offered any more. -/
theorem duesOf_nil
    (isOver : ∀ task, l.tasks[t]? = some task →
      task.status.terminal = true) : l.duesOf t = [] := by
  unfold duesOf
  split
  · rfl
  · next task found => exact if_pos (isOver task found)

/-- The sink judged a record on its own, wherever in the journal it came. -/
def Judged (l : Ledger) (line : Write) : Prop :=
  ∃ k position, l.sinks[line.sink]? = some k
    ∧ line.refused = k.refuses position line.record

-- ============================================================== wrapping up

/-- From `l` to `m`, some tasks were wrapped up, and `count` of them had
their spans written. -/
structure Wrapped (ts : List TaskId) (count : Nat) (l m : Ledger) : Prop where
  now : m.now = l.now
  wall : m.wall = l.wall
  sink : m.sink = l.sink
  sinks : m.sinks = l.sinks
  workers : m.workers = l.workers
  task : ∀ t, m.tasks[t]?
    = if t ∈ ts then l.tasks[t]?.map (Task.wrapped l.now) else l.tasks[t]?
  lines : ∃ added, m.journal = l.journal ++ added
    ∧ added.map Write.toOffer = l.dues ts ∧ ∀ line ∈ added, l.Judged line
  count : count = (l.dues ts).length

theorem Wrapped.refl (l : Ledger) : Wrapped [] 0 l l where
  now := rfl
  wall := rfl
  sink := rfl
  sinks := rfl
  workers := rfl
  task := fun t => (if_neg List.not_mem_nil).symm
  lines := ⟨[], (List.append_nil _).symm, rfl, by
    intro line mem
    cases mem⟩
  count := rfl

/-- What a task comes to does not depend on others that were wrapped up. -/
theorem Wrapped.duesOf_other {count : Nat} (h : Wrapped ts count l m)
    (other : t ∉ ts) : m.duesOf t = l.duesOf t := by
  have same := h.task t
  rw [if_neg other] at same
  unfold duesOf ownRecord crewOf
  rw [same, h.now, h.workers]

/-- Two stretches over different tasks. -/
theorem Wrapped.append {a b : Nat} (h : Wrapped ts a l m)
    (k : Wrapped us b m n) (apart : ∀ t ∈ us, t ∉ ts) :
    Wrapped (ts ++ us) (a + b) l n := by
  have later : m.dues us = l.dues us :=
    List.flatMap_congr fun t mem => h.duesOf_other (apart t mem)
  have both : l.dues (ts ++ us) = l.dues ts ++ l.dues us :=
    List.flatMap_append
  exact {
    now := k.now.trans h.now
    wall := k.wall.trans h.wall
    sink := k.sink.trans h.sink
    sinks := k.sinks.trans h.sinks
    workers := k.workers.trans h.workers
    task := by
      intro t
      rw [k.task, h.task, h.now]
      by_cases second : t ∈ us
      · rw [if_pos second, if_neg (apart t second),
          if_pos (List.mem_append_right ts second)]
      · rw [if_neg second]
        simp only [List.mem_append, second, or_false]
    lines := by
      obtain ⟨first, hfirst, offers, judged⟩ := h.lines
      obtain ⟨second, hsecond, offers', judged'⟩ := k.lines
      refine ⟨first ++ second, ?_, ?_, ?_⟩
      · rw [hsecond, hfirst, List.append_assoc]
      · rw [List.map_append, offers, offers', later, both]
      · intro line mem
        rcases List.mem_append.mp mem with early | late
        · exact judged line early
        · have there := judged' line late
          unfold Judged at there ⊢
          rw [h.sinks] at there
          exact there
    count := by
      rw [both, List.length_append, h.count, k.count, later] }

/-- Notices and the registry are no part of it. -/
theorem Wrapped.of_aside {count : Nat} {warnings : List Warning}
    {registry : List (String × TaskId)}
    (h : Wrapped ts count { l with warnings, registry } m) :
    Wrapped ts count l m :=
  ⟨h.now, h.wall, h.sink, h.sinks, h.workers, h.task, h.lines, h.count⟩

/-- What no step of a sweep looks at may be anything afterwards. -/
theorem Wrapped.to_aside {count : Nat} (h : Wrapped ts count l m)
    (tree : Files.Tree) (marks : List Mark) (warnings : List Warning)
    (registry : List (String × TaskId)) :
    Wrapped ts count l { m with tree, marks, warnings, registry } :=
  ⟨h.now, h.wall, h.sink, h.sinks, h.workers, h.task, h.lines, h.count⟩

-- ============================================================== one by one

/-- A line of the journal is one offer, if there is such a sink, and the
sink has judged it. -/
theorem notes_offered {s : SinkId} (origin : Origin) (r : SpanRecord)
    (sink : ∃ k, l.sinks[s]? = some k) :
    (l.notes s origin r).map Write.toOffer = [(s, origin, r)]
      ∧ ∀ line ∈ l.notes s origin r, l.Judged line := by
  obtain ⟨k, hk⟩ := sink
  unfold notes
  rw [hk]
  refine ⟨rfl, fun line mem => ?_⟩
  obtain rfl := List.mem_singleton.mp mem
  exact ⟨k, _, hk, rfl⟩

/-- A task whose span is written has nothing more to come. -/
theorem wrapped_none
    (isOver : ∀ task, l.tasks[t]? = some task →
      task.status.terminal = true) : Wrapped [t] 0 l l where
  now := rfl
  wall := rfl
  sink := rfl
  sinks := rfl
  workers := rfl
  task := by
    intro u
    split
    · next mem =>
        obtain rfl := List.mem_singleton.mp mem
        cases found : l.tasks[u]? with
        | none => rfl
        | some task =>
            rw [Option.map_some,
              Task.wrapped_of_terminal l.now (isOver task found)]
    · rfl
  lines := by
    refine ⟨[], (List.append_nil _).symm, ?_, by intro line mem; cases mem⟩
    unfold dues
    rw [List.flatMap_singleton, duesOf_nil isOver]
    rfl
  count := by
    unfold dues
    rw [List.flatMap_singleton, duesOf_nil isOver]
    rfl

/-- A task is finished, and its span is written. -/
theorem wrapped_one (found : l.tasks[t]? = some task)
    (opened : task.status.terminal = false)
    (sink : ∃ k, l.sinks[task.sink]? = some k) :
    Wrapped [t] 1 l ((l.finish t).concluding t (task.finish l.now)) where
  now := rfl
  wall := rfl
  sink := rfl
  sinks := rfl
  workers := rfl
  task := by
    intro u
    show ((l.tasks.modify t (Task.finish l.now)).modify t
      Task.concluded)[u]? = _
    rw [Array.getElem?_modify, Array.getElem?_modify]
    by_cases here : t = u
    · subst here
      rw [if_pos rfl, if_pos rfl, if_pos (List.mem_singleton_self t), found]
      rfl
    · have other : u ∉ [t] := fun mem => here (List.mem_singleton.mp mem).symm
      rw [if_neg here, if_neg here, if_neg other]
  lines := by
    have same : (task.finish l.now).sink = task.sink :=
      (Task.Turn.finish.same task).sink
    rw [← same] at sink
    obtain ⟨offer, judged⟩ := notes_offered (.task t)
      (l.ownRecord (task.finish l.now)) sink
    refine ⟨_, rfl, offer.trans ?_, judged⟩
    unfold dues
    rw [List.flatMap_singleton, duesOf_of found opened, same]
  count := by
    unfold dues
    rw [List.flatMap_singleton, duesOf_of found opened]
    rfl

/-- A task that waits for its span has it written, and the notice of its length
is filled in; any other one is left alone. -/
theorem concludeAndMark_cases (t : TaskId) (l : Ledger) :
    ((∀ task, l.tasks[t]? = some task → task.status.terminal = true)
        ∧ l.concludeAndMark t = (l, false))
      ∨ ∃ (task : Task) (tree : Files.Tree) (marks : List Mark)
          (warnings : List Warning),
          l.tasks[t]? = some task ∧ task.status.terminal = false
          ∧ l.concludeAndMark t
            = ({ l.concluding t task with tree, marks, warnings }, true) := by
  unfold concludeAndMark
  rcases conclude_cases t l with ⟨isOver, he⟩
      | ⟨task, tree, warnings, found, opened, he⟩
  · rw [he]
    exact .inl ⟨isOver, rfl⟩
  · rw [he]
    dsimp only
    unfold markLength
    split
    · exact .inr ⟨task, tree, l.marks, warnings, found, opened, rfl⟩
    · exact .inr ⟨task, tree, _, warnings, found, opened, rfl⟩

/-- A task is reported as done and its span is written, if that is still to
come. -/
theorem wrapped_concludeAndMark (found : l.tasks[t]? = some task)
    (sink : ∃ k, l.sinks[task.sink]? = some k) :
    Wrapped [t] ((l.finish t).concludeAndMark t).2.toNat l
      ((l.finish t).concludeAndMark t).1 := by
  have there : (l.finish t).tasks[t]? = some (task.finish l.now) := by
    show (l.tasks.modify t (Task.finish l.now))[t]? = _
    rw [Array.getElem?_modify, if_pos rfl, found]
    rfl
  have same : (task.finish l.now).status.terminal = task.status.terminal :=
    Task.Turn.finish.terminal task
  rcases concludeAndMark_cases t (l.finish t) with ⟨isOver, he⟩
      | ⟨task', tree, marks, warnings, found', opened, he⟩
  · -- to finish a concluded task is to do nothing
    have terminal : task.status.terminal = true :=
      same.symm.trans (isOver _ there)
    have still : l.finish t = l := onTask_of_fixed found (if_pos terminal)
    rw [he, still]
    refine wrapped_none fun task' found' => ?_
    rw [found] at found'
    obtain rfl := Option.some.inj found'
    exact terminal
  · rw [there] at found'
    obtain rfl := Option.some.inj found'
    rw [same] at opened
    rw [he]
    exact (wrapped_one found opened sink).to_aside tree marks warnings
      l.registry

/-- A task's sink is there. -/
def Housed (l : Ledger) : Prop :=
  ∀ (t : TaskId) (task : Task), l.tasks[t]? = some task →
    ∃ k, l.sinks[task.sink]? = some k

/-- Wrapping up registers nobody, so everybody keeps the path that he is
registered under. -/
theorem Wrapped.housed {count : Nat} (h : Wrapped ts count l m)
    (housed : Housed l) : Housed m := by
  intro t task found
  rw [h.task] at found
  rw [h.sinks]
  split at found
  · obtain ⟨old, before, rfl⟩ := Option.map_eq_some_iff.mp found
    have same : (old.wrapped l.now).sink = old.sink :=
      (Task.Turn.finish.same old).sink
    rw [same]
    exact housed t old before
  · exact housed t task found

/-- The end of a build wraps a task up. -/
theorem wrapped_wrapUp (t : TaskId) (housed : Housed l) :
    Wrapped [t] (l.wrapUp t).2.toNat l (l.wrapUp t).1 := by
  unfold wrapUp
  cases found : l.tasks[t]? with
  | none =>
      refine wrapped_none fun task found' => ?_
      rw [found] at found'
      cases found'
  | some task =>
      dsimp only
      split
      · exact wrapped_concludeAndMark found (housed t task found)
      · exact (wrapped_concludeAndMark (l := l.warn _) found
          (housed t task found)).of_aside

/-- Settling the path of a task that is ready is to wrap it up. -/
theorem Due.wrapped_settle (h : Due path t task l) :
    Wrapped [t] 1 l (l.settle path).1 ∧ (l.settle path).2 = true := by
  have gone : Spared t l (l.unregister path) := ⟨rfl, rfl, rfl, rfl⟩
  have ripe := h.toRipe.spared gone
  have wrapped := wrapped_concludeAndMark ripe.found ripe.sink
  rw [ripe.finish] at wrapped
  have yes : ((l.unregister path).concludeAndMark t).2 = true := by
    rcases concludeAndMark_cases t (l.unregister path) with ⟨isOver, -⟩
        | ⟨_, _, _, _, -, -, he⟩
    · have terminal := isOver task ripe.found
      rw [h.finished] at terminal
      cases terminal
    · rw [he]
  rw [yes] at wrapped
  unfold Ledger.settle
  rw [h.registered]
  exact ⟨wrapped.of_aside, yes⟩

/-- A task that is ready stays so while the path of another is settled. -/
theorem Due.settle_other (h : Due path t task l) {p : String}
    (other : path ≠ p) : Due path t task (l.settle p).1 :=
  { h.toRipe.spared (spared_settle fun u hu => .inl (by
      rintro rfl
      exact other (h.only p hu).symm)) with
    registered := by
      rw [registered?_settle_eq, if_neg other]
      exact h.registered
    only := by
      intro q there
      rw [registered?_settle_eq] at there
      split at there
      · cases there
      · exact h.only q there }

-- ============================================================= one by one

/-- And so with one task after another, as long as none comes twice: what is
done to the earlier ones is no part of what the later ones offer. -/
theorem wrapped_wrapUps (fresh : ts.Nodup) (housed : Housed l) :
    Wrapped ts (countOver wrapUp ts l).2 l (countOver wrapUp ts l).1 := by
  induction ts generalizing l with
  | nil => exact .refl l
  | cons t rest ih =>
      obtain ⟨first, fresh⟩ := List.nodup_cons.mp fresh
      have here := wrapped_wrapUp t housed
      have later := ih fresh (here.housed housed)
      have apart : ∀ u ∈ rest, u ∉ [t] := by
        intro u mem same
        rw [List.mem_singleton.mp same] at mem
        exact first mem
      have count : (countOver wrapUp (t :: rest) l).2
          = (l.wrapUp t).2.toNat
            + (countOver wrapUp rest (l.wrapUp t).1).2 := by
        show (if (l.wrapUp t).2 then _ else _) = _
        cases (l.wrapUp t).2 with
        | false => exact (Nat.zero_add _).symm
        | true => exact Nat.add_comm _ 1
      rw [count]
      exact here.append later apart

/-- A flush wraps up the tasks whose paths it was given, if they only wait for
that and none comes twice. -/
theorem wrapped_flushOver {es : List (String × TaskId)}
    (paths : (es.map Prod.fst).Nodup) (ids : (es.map Prod.snd).Nodup)
    (due : ∀ e ∈ es, ∃ task, Due e.1 e.2 task l) :
    Wrapped (es.map Prod.snd) (l.flushOver (es.map Prod.fst)).2 l
      (l.flushOver (es.map Prod.fst)).1 := by
  induction es generalizing l with
  | nil => exact .refl l
  | cons e rest ih =>
      obtain ⟨path, t⟩ := e
      obtain ⟨freshPath, paths⟩ := List.nodup_cons.mp paths
      obtain ⟨freshId, ids⟩ := List.nodup_cons.mp ids
      obtain ⟨task, here⟩ := due (path, t) List.mem_cons_self
      obtain ⟨wrapped, yes⟩ := here.wrapped_settle
      have later := ih (l := (l.settle path).1) paths ids fun e mem => by
        obtain ⟨task, due⟩ := due e (List.mem_cons_of_mem _ mem)
        refine ⟨task, due.settle_other fun same => freshPath ?_⟩
        exact List.mem_map.mpr ⟨e, mem, same⟩
      have apart : ∀ u ∈ rest.map Prod.snd, u ∉ [t] := by
        intro u mem same
        rw [List.mem_singleton.mp same] at mem
        exact freshId mem
      have count : (l.flushOver (((path, t) :: rest).map Prod.fst)).2
          = 1 + ((l.settle path).1.flushOver (rest.map Prod.fst)).2 := by
        show (if (l.settle path).2 then _ else _) = _
        rw [yes, Nat.add_comm]
        rfl
      rw [count]
      exact wrapped.append later apart

-- =============================================================== registry

/-- A path leaves the registry as its task is settled, whatever comes of that.
-/
theorem settle_registry_eq (path : String) (l : Ledger) :
    (l.settle path).1.registry
      = l.registry.filter fun e => e.1 != path := by
  unfold settle
  split
  · next none_ =>
      refine (List.filter_eq_self.mpr fun e mem => ?_).symm
      have other := List.lookup_eq_none_iff.mp none_ e mem
      simpa [bne, BEq.comm] using other
  · rw [concludeAndMark_registry]
    rfl

/-- After a flush the registry holds the paths that it did not go over, in the
order that they had. -/
theorem flushOver_registry (paths : List String) (l : Ledger) :
    (l.flushOver paths).1.registry
      = l.registry.filter fun e => !paths.contains e.1 := by
  unfold flushOver
  induction paths generalizing l with
  | nil => exact (List.filter_eq_self.mpr fun _ _ => rfl).symm
  | cons path rest ih =>
      show (countOver settle rest (l.settle path).1).1.registry = _
      rw [ih, settle_registry_eq, List.filter_filter]
      refine List.filter_congr fun e _ => ?_
      rw [List.contains_cons, Bool.not_or, Bool.and_comm]
      rfl

/-- No task is registered under two paths. -/
theorem Homed.nodup_ids (homed : Homed l) (single : Single l) :
    (l.registry.map Prod.snd).Nodup := by
  refine List.Nodup.map_on ?_ (List.Nodup.of_map _ single)
  rintro ⟨path, t⟩ mem ⟨other, u⟩ mem' same
  obtain rfl : t = u := same
  have here : l.registered? path = some t := lookup_of_mem single mem
  have there : l.registered? other = some t := lookup_of_mem single mem'
  rw [homed.only here there]

-- ================================================================= orders

/-- The order by number is an order of the registry. -/
theorem byId_perm (l : Ledger) : l.byId.Perm l.registry :=
  List.mergeSort_perm _ _

variable {order : List (String × TaskId)}

/-- In whatever order a flush goes over the registry, it wraps up those that are
ready, in that order. -/
theorem Sound.wrapped_flushBy (sound : Sound l) (single : Single l)
    (perm : order.Perm l.registry) :
    Wrapped ((order.filter fun e => l.ready e.2).map Prod.snd)
      (l.flushBy order).2 l (l.flushBy order).1 := by
  have paths := (perm.map Prod.fst).nodup_iff.mpr single
  have ids := (perm.map Prod.snd).nodup_iff.mpr
    (sound.homed.nodup_ids single)
  refine wrapped_flushOver
    (paths.sublist (List.filter_sublist.map Prod.fst))
    (ids.sublist (List.filter_sublist.map Prod.snd)) ?_
  rintro ⟨path, t⟩ mem
  obtain ⟨entered, ready⟩ := List.mem_filter.mp mem
  exact sound.due (lookup_of_mem single (perm.mem_iff.mp entered)) ready

/-- And the end of a build wraps up all of them. -/
theorem Sound.wrapped_endBuildBy (sound : Sound l) (single : Single l)
    (perm : order.Perm l.registry) :
    Wrapped (order.map Prod.snd) (l.endBuildBy order).2 l
      (l.endBuildBy order).1 := by
  have ids := (perm.map Prod.snd).nodup_iff.mpr
    (sound.homed.nodup_ids single)
  have housed : Housed { l with registry := [] } :=
    fun t task found => sound.sink found
  exact (wrapped_wrapUps ids housed).of_aside

/-- A flush leaves what is not ready, in whatever order it goes. -/
theorem flushBy_registry (single : Single l) (perm : order.Perm l.registry) :
    (l.flushBy order).1.registry
      = l.registry.filter fun e => !l.ready e.2 := by
  unfold flushBy
  rw [flushOver_registry]
  refine List.filter_congr fun e mem => congrArg _ ?_
  rw [Bool.eq_iff_iff, List.contains_iff_mem, List.mem_map]
  constructor
  · rintro ⟨e', chosen, same⟩
    obtain ⟨entered, ready⟩ := List.mem_filter.mp chosen
    have entered := perm.mem_iff.mp entered
    rw [← List.inj_on_of_nodup_map single entered mem same]
    exact ready
  · intro ready
    exact ⟨e, List.mem_filter.mpr ⟨perm.mem_iff.mpr mem, ready⟩, rfl⟩

/-- In whatever order the end of a build goes, nobody is registered after it. -/
theorem endBuildBy_registry (order : List (String × TaskId)) (l : Ledger) :
    (l.endBuildBy order).1.registry = [] :=
  countOver_keeps (P := fun m => m.registry = [])
    (fun u m hm => by rw [wrapUp_registry]; exact hm) _ rfl

-- ========================================================= what is the same

/-- What was written from one moment to another. -/
def news (l m : Ledger) : List Write := m.journal.drop l.journal.length

/-- Every sink judges a record on its own, and not by how many came before
it. -/
def Fair (l : Ledger) : Prop :=
  ∀ (s : SinkId) (k : Sink), l.sinks[s]? = some k →
    ∀ (i j : Nat) (r : SpanRecord), k.refuses i r = k.refuses j r

/-- Two outcomes of going over the tasks of `l` that differ in nothing but
the order of what was written. Sinks were offered the same records, and
where they are fair they took the same. -/
structure SameSweep (l : Ledger) (a b : Ledger × Nat) : Prop where
  count : a.2 = b.2
  registry : a.1.registry = b.1.registry
  tasks : a.1.tasks = b.1.tasks
  workers : a.1.workers = b.1.workers
  sinks : a.1.sinks = b.1.sinks
  now : a.1.now = b.1.now
  offered : ((l.news a.1).map Write.toOffer).Perm
    ((l.news b.1).map Write.toOffer)
  taken : l.Fair →
    (((l.news a.1).filter Write.taken).map Write.toOffer).Perm
      (((l.news b.1).filter Write.taken).map Write.toOffer)

/-- What a fair sink makes of an offer. -/
def accepts (l : Ledger) (o : Offer) : Bool :=
  match l.sinks[o.1]? with
  | some k => (k.refuses 0 o.2.2).isNone
  | none => false

/-- The lines that a sweep added are those that its tasks were to offer, and
each was judged by its sink on its own. -/
theorem Wrapped.news {count : Nat} (h : Wrapped ts count l m) :
    (l.news m).map Write.toOffer = l.dues ts
      ∧ ∀ line ∈ l.news m, l.Judged line := by
  obtain ⟨added, same, offers, judged⟩ := h.lines
  have new : l.news m = added := by
    unfold Ledger.news
    rw [same, List.drop_left]
  rw [new]
  exact ⟨offers, judged⟩

/-- Fair sinks can be asked beforehand. -/
theorem Wrapped.taken {count : Nat} (h : Wrapped ts count l m)
    (fair : l.Fair) :
    ((l.news m).filter Write.taken).map Write.toOffer
      = (l.dues ts).filter l.accepts := by
  obtain ⟨offers, judged⟩ := h.news
  rw [← offers, List.filter_map]
  refine congrArg _ (List.filter_congr fun line mem => ?_)
  obtain ⟨k, position, there, refused⟩ := judged line mem
  show line.refused.isNone = l.accepts line.toOffer
  unfold accepts Write.toOffer
  rw [there, refused, fair _ k there position 0]

/-- Two sweeps over the same tasks differ in the order alone. What each offers
depends on the state before both, so the offers are the same up to their order;
a fair sink takes the same ones of them, and the tables cannot tell which was
first. -/
theorem Wrapped.same {a b : Nat} (h : Wrapped ts a l m)
    (k : Wrapped us b l n) (perm : ts.Perm us)
    (registry : m.registry = n.registry) : SameSweep l (m, a) (n, b) := by
  have offers : (l.dues ts).Perm (l.dues us) := perm.flatMap_right l.duesOf
  exact {
    count := by
      show a = b
      rw [h.count, k.count, offers.length_eq]
    registry := registry
    tasks := by
      refine Array.ext_getElem? fun t => ?_
      rw [h.task, k.task]
      simp only [perm.mem_iff]
    workers := h.workers.trans k.workers.symm
    sinks := h.sinks.trans k.sinks.symm
    now := h.now.trans k.now.symm
    offered := by
      rw [h.news.1, k.news.1]
      exact offers
    taken := by
      intro fair
      rw [h.taken fair, k.taken fair]
      exact offers.filter _ }

/-- What a task is ready for is nobody else's business. -/
theorem Wrapped.ready_other {count : Nat} (h : Wrapped ts count l m)
    (other : t ∉ ts) : m.ready t = l.ready t := by
  have same := h.task t
  rw [if_neg other] at same
  unfold ready idle crewOf
  rw [same, h.workers]

variable {again : List (String × TaskId)}

/-- What a flush leaves was not ready, and is not. -/
theorem Sound.not_ready (sound : Sound l) (single : Single l)
    (perm : order.Perm l.registry) :
    ∀ e ∈ (l.flushBy order).1.registry,
      e.2 ∉ (order.filter fun e => l.ready e.2).map Prod.snd
      ∧ (l.flushBy order).1.ready e.2 = false := by
  rw [flushBy_registry single perm]
  intro e mem
  obtain ⟨entered, idle⟩ := List.mem_filter.mp mem
  have other : e.2 ∉ (order.filter fun e => l.ready e.2).map Prod.snd := by
    intro chosen
    obtain ⟨e', chosen, same⟩ := List.mem_map.mp chosen
    have ready := (List.mem_filter.mp chosen).2
    rw [same] at ready
    rw [ready] at idle
    cases idle
  refine ⟨other, ?_⟩
  rw [(sound.wrapped_flushBy single perm).ready_other other]
  exact Bool.not_eq_true' _ |>.mp idle

/-- A second flush right after the first has nothing to do. -/
theorem Sound.flush_again (sound : Sound l) (single : Single l)
    (perm : order.Perm l.registry)
    (rest : again.Perm (l.flushBy order).1.registry) :
    (l.flushBy order).1.flushBy again = ((l.flushBy order).1, 0) := by
  have none_ : (again.filter fun e => (l.flushBy order).1.ready e.2) = [] := by
    rw [List.filter_eq_nil_iff]
    intro e mem
    rw [(sound.not_ready single perm e (rest.mem_iff.mp mem)).2]
    exact Bool.false_ne_true
  unfold flushBy at none_ ⊢
  rw [none_]
  rfl

/-- To flush before the end of the build makes no difference in the end. -/
theorem Sound.flush_endBuild (sound : Sound l) (single : Single l)
    (perm : order.Perm l.registry)
    (rest : again.Perm (l.flushBy order).1.registry) :
    SameSweep l
      (((l.flushBy order).1.endBuildBy again).1,
        (l.flushBy order).2 + ((l.flushBy order).1.endBuildBy again).2)
      l.endBuild := by
  have first := sound.wrapped_flushBy single perm
  have left := flushBy_registry single perm
  have apart : ∀ t ∈ again.map Prod.snd,
      t ∉ (order.filter fun e => l.ready e.2).map Prod.snd := by
    intro t mem
    obtain ⟨e, entered, rfl⟩ := List.mem_map.mp mem
    exact (sound.not_ready single perm e (rest.mem_iff.mp entered)).1
  have ids : (again.map Prod.snd).Nodup := by
    rw [(rest.map Prod.snd).nodup_iff, left]
    exact (sound.homed.nodup_ids single).sublist
      (List.filter_sublist.map Prod.snd)
  have housed : Housed { (l.flushBy order).1 with registry := [] } :=
    first.housed fun t task found => sound.sink found
  have second := (wrapped_wrapUps ids housed).of_aside
  -- what was ready and what was not make up the registry
  have parts : ((order.filter fun e => l.ready e.2) ++ again).Perm
      l.registry := by
    rw [left] at rest
    exact ((perm.filter _).append rest).trans
      (List.filter_append_perm (fun e => l.ready e.2) l.registry)
  have whole := (parts.trans l.byId_perm.symm).map Prod.snd
  rw [List.map_append] at whole
  exact (first.append second apart).same
    (sound.wrapped_endBuildBy single l.byId_perm) whole
    ((endBuildBy_registry again _).trans (endBuildBy_registry _ l).symm)

/-- An outcome of wrapping up the tasks of some entries, in one order or
another. -/
def WrapsUp (l : Ledger) (es : List (String × TaskId)) (a : Ledger × Nat) :
    Prop :=
  ∃ ts : List TaskId, ts.Perm (es.map Prod.snd) ∧ Wrapped ts a.2 l a.1

/-- A flush wraps up the tasks that are ready. -/
theorem Sound.flush_wrapsUp (sound : Sound l) (single : Single l) :
    l.WrapsUp (l.registry.filter fun e => l.ready e.2) l.flush :=
  ⟨_, (l.byId_perm.filter _).map Prod.snd,
    sound.wrapped_flushBy single l.byId_perm⟩

/-- The end of a build wraps up every task that is registered. -/
theorem Sound.endBuild_wrapsUp (sound : Sound l) (single : Single l) :
    l.WrapsUp l.registry l.endBuild :=
  ⟨_, l.byId_perm.map Prod.snd, sound.wrapped_endBuildBy single l.byId_perm⟩

/-- A flush comes to the same in every order of the registry. -/
theorem Sound.flush_same (sound : Sound l) (single : Single l)
    (perm : order.Perm l.registry) :
    SameSweep l (l.flushBy order) l.flush :=
  (sound.wrapped_flushBy single perm).same
    (sound.wrapped_flushBy single l.byId_perm)
    (((perm.trans l.byId_perm.symm).filter _).map Prod.snd)
    ((flushBy_registry single perm).trans
      (flushBy_registry single l.byId_perm).symm)

/-- And so does the end of a build. -/
theorem Sound.endBuild_same (sound : Sound l) (single : Single l)
    (perm : order.Perm l.registry) :
    SameSweep l (l.endBuildBy order) l.endBuild :=
  (sound.wrapped_endBuildBy single perm).same
    (sound.wrapped_endBuildBy single l.byId_perm)
    ((perm.trans l.byId_perm.symm).map Prod.snd)
    ((endBuildBy_registry order l).trans (endBuildBy_registry _ l).symm)

end Ledger

end TaskLedger
