/-
What a pool that stops leaves behind.

The executor's count is kept by every operation, the pool stopped or not
(`Counted`): it is the number of units that are not over, and a dropped one is
over. So a wait ends although units were dropped, and from then on every unit
of the executor is over as long as it is given no new one (`Through`).

The ledger's account of the same units is another one. A worker that was
entered for a unit ends only when the unit was run, so the dropped units, and
no others, leave workers that never end (`unfinished_exactly_where_dropped`).
-/
import TaskLedger.Proofs.Dispatch.Untaken
import TaskLedger.Proofs.Ledger.Sweep

namespace TaskLedger

namespace Dispatch

variable {d e : Dispatch} {us : List UnitId} {x : ExecutorId} {u : UnitId}
  {s : Submitted} {p : PooledState}

-- ================================================================ counted

/-- An executor counts the units that are not over. -/
structure Counted (d : Dispatch) : Prop where
  count : ∀ x, d.outstandingAt x = d.countUnits (open_ x)
  owner : ∀ {u : UnitId} {s : Submitted}, d.units[u]? = some s →
    ∃ p, d.pooled? s.executor = some p

/-- Where nothing was handed in, nothing has to be counted. -/
theorem Blank.counted (h : d.Blank) : Counted d where
  count := h.account.count
  owner := by
    intro u s found
    rw [h.units] at found
    cases found

theorem Counted.beside (h : Counted d) (l : Ledger) (ran : List String)
    (stopped : Bool) : Counted { d with ledger := l, ran, stopped } :=
  ⟨h.count, h.owner⟩

/-- A unit may move between two phases that are both over or both not. -/
theorem Counted.goOn (h : Counted d) {q : Phase}
    (found : d.units[u]? = some s) (isOver : q.over = s.phase.over) :
    Counted (d.setPhase u q) where
  count := Tallied.goOn h.count found isOver
  owner := by
    intro v s' found'
    rcases setPhase_cases found found' with ⟨-, rfl⟩ | ⟨-, still⟩
    · exact h.owner (s := s) found
    · exact h.owner still

/-- An executor that is pooled stays so. -/
theorem pooled_onPooled (f : PooledState → PooledState) (x : ExecutorId)
    {y : ExecutorId} (h : d.pooled? y = some p) :
    ∃ q, (d.onPooled x f).pooled? y = some q := by
  rw [pooled?_onPooled, h]
  split
  · exact ⟨_, rfl⟩
  · exact ⟨_, rfl⟩

/-- A unit that is counted off is over. -/
theorem Counted.countOff (h : Counted d) {q : Phase}
    (failure : Option String) (found : d.units[u]? = some s)
    (goesOn : s.phase.over = false) (isOver : q.over = true) :
    Counted ((d.countOff s.executor failure).setPhase u q) where
  count :=
    let ⟨_, pooled⟩ := h.owner found
    Tallied.countOff h.count failure pooled found goesOn isOver
  owner := by
    have kept {v : UnitId} {r : Submitted} (there : d.units[v]? = some r) :
        ∃ p, (d.countOff s.executor failure).pooled? r.executor
          = some p := by
      obtain ⟨p, pooled⟩ := h.owner there
      exact pooled_onPooled (credited failure) s.executor pooled
    intro v s' found'
    rcases setPhase_cases (d := d.countOff s.executor failure) found found'
      with ⟨-, rfl⟩ | ⟨-, still⟩
    · exact kept (r := s) found
    · exact kept still

/-- So it stays through every step of a unit. -/
theorem Counted.proceed (h : Counted d) (u : UnitId) :
    Counted (d.proceed u) := by
  cases found : d.units[u]? with
  | none =>
      unfold Dispatch.proceed
      rw [found]
      exact h
  | some s =>
  cases isOver : s.phase.over with
  | true => rw [proceed_over found isOver]; exact h
  | false =>
  unfold Dispatch.proceed
  rw [found]
  dsimp only
  -- a unit counts until it is counted off, and it is dropped only from the
  -- queue
  cases phase : s.phase with
  | queued =>
      dsimp only
      split
      · exact h.countOff _ found isOver rfl
      · exact (h.beside _ d.ran d.stopped).goOn found (by rw [phase]; rfl)
  | begun w =>
      obtain ⟨l, -, he⟩ := perform_passage s.work d
      dsimp only
      rw [he]
      exact (h.beside l _ d.stopped).goOn found (by rw [phase]; rfl)
  | ran w failure =>
      exact (h.beside _ d.ran d.stopped).goOn found (by rw [phase]; rfl)
  | ended w failure =>
      dsimp only
      split
      · exact (h.beside _ d.ran d.stopped).goOn found (by rw [phase]; rfl)
      · exact (h.beside _ d.ran d.stopped).goOn found (by rw [phase]; rfl)
  | reported failure =>
      cases failure with
      | none => exact h.countOff _ found isOver rfl
      | some cause =>
          exact (h.beside _ d.ran d.stopped).countOff (some cause) found
            isOver rfl
  | faulted => exact h.countOff _ found isOver rfl
  | completed | abandoned => rw [phase] at isOver; cases isOver

/-- A unit that comes is counted. -/
theorem Counted.handed (h : Counted d) (pooled : d.pooled? x = some p)
    (w : Work) : Counted (d.handed x p w) where
  count := Tallied.handed h.count pooled w _
  owner := by
    intro u s found
    rcases push_back found with prior | ⟨-, rfl⟩
    · obtain ⟨q, there⟩ := h.owner prior
      exact pooled_onPooled charged x there
    · exact pooled_onPooled charged x pooled

/-- So it stays through everything that can happen. -/
theorem Counted.apply {op : DispatchOp} (h : Counted d)
    (stoppable : op.stoppable d = true) : Counted (op.apply d).1 := by
  -- only a unit that is handed in or moves, a new executor, and a wait that
  -- ends have a part in the counts
  cases op with
  | onLedger op => exact h.beside _ d.ran d.stopped
  | stop => exact h.beside d.ledger d.ran true
  | proceed u => exact h.proceed u
  | addExecutor c =>
      have fresh (p) (pooled : c = .pooled p) :
          DispatchOp.freshFor p d.ledger = true := by
        subst pooled
        exact stoppable
      refine ⟨fun x => (at_push x c fresh).1.trans (h.count x), ?_⟩
      intro u s found
      obtain ⟨p, pooled⟩ := h.owner found
      refine ⟨p, ?_⟩
      show pooled? s.executor { d with executors := d.executors.push c } = _
      rw [pooled?_push, if_neg, pooled]
      intro beyond
      rw [pooled?_beyond (Nat.le_of_eq beyond.symm)] at pooled
      cases pooled
  | submit x w =>
      show Counted (d.submit x w).1
      cases pooled : d.pooled? x with
      | none =>
          obtain ⟨l, ran, later⟩ := submit_aside pooled w
          rw [later]
          exact h.beside l ran d.stopped
      | some p =>
          rw [submit_pooled (executor_of pooled)]
          split
          · exact (h.handed pooled w).proceed _
          · exact h.handed pooled w
  | beginAwait x =>
      show Counted (d.beginAwait x)
      unfold beginAwait
      split
      · exact h.beside _ d.ran d.stopped
      · exact h
  | release x =>
      show Counted (d.release x)
      unfold release
      split
      · exact h.beside _ d.ran d.stopped
      · exact h
  | endAwait x =>
      simp only [DispatchOp.apply, endAwait]
      cases pooled : d.pooled? x with
      | none => exact h
      | some p =>
          dsimp only
          by_cases idle : p.outstanding = 0
          · rw [if_pos idle]
            refine ⟨fun y => ?_, fun found => ?_⟩
            · exact (outstandingAt_cleared pooled y).trans (h.count y)
            · obtain ⟨q, there⟩ := h.owner found
              exact pooled_onPooled cleared x there
          · rw [if_neg idle]
            exact h

/-- A run leaves the units counted, whenever the pool stops in it. -/
theorem counted_run (ops : List DispatchOp) (h : Counted d)
    (stoppable : DispatchOp.Stoppable ops d = true) :
    Counted (DispatchOp.run ops d).1 := by
  induction ops generalizing d with
  | nil => exact h
  | cons op rest ih =>
      obtain ⟨first, others⟩ := Bool.and_eq_true_iff.mp stoppable
      exact ih (h.apply first) others

-- =============================================================== waited for

/-- Every unit of an executor is over. -/
def Through (x : ExecutorId) (d : Dispatch) : Prop :=
  ∀ (u : UnitId) (s : Submitted), d.units[u]? = some s → s.executor = x →
    s.phase.over = true

/-- A wait that ends has no unit left to wait for. -/
theorem Counted.through (h : Counted d)
    (ends : (d.endAwait x).isSome = true) : Through x d := by
  intro u s found own
  obtain ⟨p, pooled⟩ := h.owner found
  rw [own] at pooled
  exact (Tallied.endAwait_iff h.count pooled).mp ends u s found own

/-- No step brings back a unit that is over. -/
theorem Through.proceed (h : Through x d) (u : UnitId) :
    Through x (d.proceed u) := by
  intro v s' found' own
  have lt := (Array.getElem?_eq_some_iff.mp found').1
  rw [proceed_size] at lt
  obtain ⟨p, after, nearer⟩ :=
    proceed_left u (Array.getElem?_eq_getElem lt)
  rw [found'] at after
  obtain rfl := Option.some.inj after
  have none := Phase.over_iff_left.mp
    (h v _ (Array.getElem?_eq_getElem lt) own)
  rw [none, Nat.zero_sub] at nearer
  exact Phase.over_iff_left.mpr (Nat.le_zero.mp nearer)

/-- Without a new unit it stays so. -/
theorem Through.apply (h : Through x d) {op : DispatchOp}
    (other : ∀ w, op ≠ .submit x w) : Through x (op.apply d).1 := by
  cases op with
  | onLedger | addExecutor | stop => exact h
  | proceed u => exact h.proceed u
  | submit y w =>
      show Through x (d.submit y w).1
      cases pooled : d.pooled? y with
      | none =>
          obtain ⟨l, ran, later⟩ := submit_aside pooled w
          rw [later]
          exact h
      | some p =>
          have come : Through x (d.handed y p w) := by
            intro u s found own
            rcases push_back found with prior | ⟨-, rfl⟩
            · exact h u s prior own
            · obtain rfl : y = x := own
              exact absurd rfl (other w)
          rw [submit_pooled (executor_of pooled)]
          split
          · exact come.proceed _
          · exact come
  | beginAwait y =>
      show Through x (d.beginAwait y)
      unfold beginAwait
      split <;> exact h
  | release y =>
      show Through x (d.release y)
      unfold release
      split <;> exact h
  | endAwait y =>
      obtain ⟨executors, later, -⟩ := endAwait_executors y d
      rw [later]
      exact h

/-- And no run does, if none is handed in. -/
theorem through_run (ops : List DispatchOp) (h : Through x d)
    (rest : ∀ w, DispatchOp.submit x w ∉ ops) :
    Through x (DispatchOp.run ops d).1 := by
  induction ops generalizing d with
  | nil => exact h
  | cons op later ih =>
      refine ih (h.apply fun w same => rest w ?_) fun w mem => rest w ?_
      · rw [same]
        exact List.mem_cons_self
      · exact List.mem_cons_of_mem _ mem

-- ============================================================= left at work

/-- A unit that is over has ended its worker, or was dropped before it had one.
-/
theorem Phase.finished_of_over {p : Phase} (h : p.over = true) :
    p.finished = true := by
  cases p with
  | completed | abandoned => rfl
  | _ => cases h

/-- A unit is alone among the same keys, whether some of them were dropped or
not. -/
theorem Untaken.alone (h : Untaken us d e) {q : Phase} (alone : Alone u s d) :
    Alone u { s with phase := q } e := by
  intro v s' found entry key
  obtain ⟨p, there⟩ := h.unit_back found
  exact alone there entry key

/-- Of a unit that is over, alone and a task's, the worker has ended exactly
if the unit was not dropped. -/
theorem Untaken.worker (h : Untaken us d e) (settled : Settled e)
    {t : TaskId} (found : d.units[u]? = some s) (entry : s.entry = .task t)
    (isOver : s.phase.over = true) (alone : Alone u s d) :
    ∃ w k, (d.ledger.crewAt t).lookup s.key = some w
      ∧ d.ledger.workers[w]? = some k ∧ (k.finished = true ↔ u ∉ us) := by
  obtain ⟨p, there, kept, dropped⟩ := h.unit found
  obtain ⟨w, k, mem, hw, -, -, ended, -⟩ :=
    settled.own.holds there entry (h.alone alone)
  have mem := settled.roll.lookup.mpr mem
  rw [h.ledger] at mem hw
  refine ⟨w, k, mem, hw, ?_⟩
  show k.ended.isSome = true ↔ _
  rw [ended]
  constructor
  · intro finished gone
    rw [(dropped gone).1] at finished
    cases finished
  · intro stayed
    rw [kept stayed]
    exact Phase.finished_of_over isOver

/-- Both have the same units of the same owners, in whatever phases. -/
theorem Untaken.owners (h : Untaken us d e) : e.owners = d.owners := by
  refine List.ext_getElem? fun u => ?_
  unfold Dispatch.owners
  rw [List.getElem?_map, List.getElem?_map, Array.getElem?_toList,
    Array.getElem?_toList]
  by_cases mem : u ∈ us
  · obtain ⟨s, hd, he⟩ := h.dropped mem
    rw [hd, he]
    rfl
  · rw [h.kept mem]

/-- A task all of whose units are one executor's and over is idle exactly if
none of them was dropped. -/
theorem Untaken.idle (h : Untaken us d e) (settled : Settled e)
    (keyed : Keyed e) {t : TaskId} {task : Task}
    (found : d.ledger.tasks[t]? = some task)
    (one : ∀ s ∈ d.unitsOf t, s.executor = x)
    (few : d.owners.count x ≤ UInt64.size) (through : Through x d) :
    d.ledger.idle task = true
      ↔ ∀ (u : UnitId) (s : Submitted), d.units[u]? = some s →
          s.entry = .task t → u ∉ us := by
  have distinct : (e.keysOf t).Nodup := by
    refine nodup_of_one_executor keyed (x := x) ?_
      (by rw [h.owners]; exact few)
    intro s mem
    obtain ⟨u, he, entry⟩ := mem_unitsOf.mp mem
    obtain ⟨p, hd⟩ := h.unit_back he
    exact one { s with phase := p } (mem_unitsOf.mpr ⟨u, hd, entry⟩)
  have found' : e.ledger.tasks[t]? = some task := by rw [h.ledger, found]
  have idle := idle_iff_finished settled found' distinct
  rw [h.ledger] at idle
  rw [idle]
  constructor
  · intro finished u s hd entry gone
    obtain ⟨p, he, -, dropped⟩ := h.unit hd
    have finished := finished _ (mem_unitsOf.mpr ⟨u, he, entry⟩)
    rw [(dropped gone).1] at finished
    cases finished
  · intro stayed s mem
    obtain ⟨u, he, entry⟩ := mem_unitsOf.mp mem
    obtain ⟨p, hd⟩ := h.unit_back he
    have there := h.kept (stayed u _ hd entry)
    rw [he, hd] at there
    obtain rfl : p = s.phase :=
      congrArg Submitted.phase (Option.some.inj there).symm
    exact Phase.finished_of_over
      (through u s hd (one s (mem_unitsOf.mpr ⟨u, hd, entry⟩)))

end Dispatch

-- ================================================================ reported

namespace Ledger

/-- To report a path as done writes its task's span exactly if the task is
idle, unless the span is written. -/
theorem finishTask_idle {path : String} {t : TaskId} {task : Task}
    {l : Ledger} (registered : l.registered? path = some t)
    (found : l.tasks[t]? = some task)
    (opened : task.status.terminal = false) :
    (l.finishTask path).2 = l.idle task := by
  have finished : (l.finish t).tasks[t]? = some (task.finish l.now) := by
    show (l.tasks.modify t (Task.finish l.now))[t]? = _
    rw [Array.getElem?_modify, if_pos rfl, found]
    rfl
  have idle : (l.finish t).idle (task.finish l.now) = l.idle task :=
    idle_congr rfl (Task.Turn.finish.crew task)
  unfold finishTask
  rw [registered]
  dsimp only
  rw [finished]
  dsimp only
  rw [idle]
  cases l.idle task with
  | false => rfl
  | true =>
      have again : (l.finish t).registered? path = some t := registered
      unfold settle concludeAndMark
      rw [if_pos rfl, again]
      dsimp only
      rcases conclude_cases t ((l.finish t).unregister path)
        with ⟨isOver, -⟩ | ⟨task', tree, warnings, -, -, he⟩
      · have terminal := isOver _ finished
        rw [Task.Turn.finish.terminal, opened] at terminal
        cases terminal
      · rw [he]

end Ledger

-- ============================================================= left at work

namespace DispatchOp

open Dispatch

/-- In a run from nothing whose pool may stop at any time, for an executor
whose owner's wait is over and that was given no unit since: every unit of the
executor is over, and the worker that was entered for it has ended exactly if
the unit was not dropped. A task whose units are all the executor's is idle
exactly if none of them was dropped; and if it is registered and its span not
written, then a report that it is done has the span written exactly if none of
them was dropped. -/
theorem unfinished_exactly_where_dropped (before after : List DispatchOp)
    (d : Dispatch) (blank : d.Blank) (x : ExecutorId)
    (stoppable : Stoppable (before ++ .endAwait x :: after) d = true)
    (ends : ((run before d).1.endAwait x).isSome = true)
    (rest : ∀ w, submit x w ∉ after) :
    let ops := before ++ .endAwait x :: after
    let m := (run ops d).1
    (∀ (u : UnitId) (s : Submitted), m.units[u]? = some s → s.executor = x →
        s.phase.over = true
          ∧ ∀ t, s.entry = .task t → Alone u s m →
            ∃ w k, (m.ledger.crewAt t).lookup s.key = some w
              ∧ m.ledger.workers[w]? = some k
              ∧ (k.finished = true ↔ u ∉ dropped ops d))
      ∧ ∀ (t : TaskId) (task : Task), m.ledger.tasks[t]? = some task →
          (∀ s ∈ m.unitsOf t, s.executor = x) →
          m.owners.count x ≤ UInt64.size →
          let none := ∀ (u : UnitId) (s : Submitted), m.units[u]? = some s →
            s.entry = .task t → u ∉ dropped ops d
          (m.ledger.idle task = true ↔ none)
            ∧ ∀ path, m.ledger.registered? path = some t →
              task.status.terminal = false →
              ((m.ledger.finishTask path).2 = true ↔ none) := by
  intro ops m
  obtain ⟨quiet, ordinary, untaken⟩ :=
    untaken_run ops (.refl blank.stopped) stoppable
  rw [List.nil_append] at untaken
  have settled := settled_run blank ordinary
  -- the wait found every unit over, and none came after it
  have through : Through x m := by
    have first := stoppable
    rw [stoppable_append] at first
    have counted := counted_run before blank.counted
      (Bool.and_eq_true_iff.mp first).1
    have waited : Through x ((endAwait x).apply (run before d).1).1 :=
      (counted.through ends).apply fun w same => by cases same
    have later := through_run after waited rest
    show Through x (run (before ++ .endAwait x :: after) d).1
    rw [run_append]
    exact later
  refine ⟨fun u s found own => ?_, fun t task found one few => ?_⟩
  · have isOver := through u s found own
    exact ⟨isOver, fun t entry alone =>
      untaken.worker settled found entry isOver alone⟩
  · have idle := untaken.idle settled (keyed_run blank ordinary) found one few
      through
    refine ⟨idle, fun path registered opened => ?_⟩
    rw [Ledger.finishTask_idle registered found opened]
    exact idle

/-- One unit runs, then the pool stops with another one in the queue, and a
third one is submitted to it. The wait ends with two workers that never do,
and the task is not done when it is said to be. -/
theorem unfinished_exactly_where_dropped_two_of_three :
    let d : Dispatch := { ledger := { sinks := #[{ outlet := .memory }] } }
    let work (n : UInt64) : Work := { action := "Compile", hash := n }
    let before : List DispatchOp :=
      [.onLedger (.startTask ":a" "p" none),
        .addExecutor (.pooled { owner := ":a", entry := .task 0 }),
        .submit 0 (work 1), .submit 0 (work 2)]
        ++ (straight 0).map .proceed
        ++ [.stop, .proceed 1, .submit 0 (work 3), .beginAwait 0]
    let ops := before ++ [.endAwait 0]
    let m := (run ops d).1
    dropped ops d = [1, 2]
      ∧ (∀ (u : UnitId) (s : Submitted), m.units[u]? = some s →
          ∃ w k, (m.ledger.crewAt 0).lookup s.key = some w
            ∧ m.ledger.workers[w]? = some k
            ∧ (k.finished = true ↔ u ∉ [1, 2]))
      ∧ (m.ledger.finishTask ":a").2 = false := by
  intro d work before ops m
  have blank : d.Blank := ⟨rfl, rfl, rfl, rfl, rfl, rfl⟩
  have lost : dropped ops d = [1, 2] := by decide +kernel
  have own : ∀ s ∈ m.units.toList, s.executor = 0 ∧ s.entry = .task 0 := by
    decide +kernel
  have distinct : (m.keysOf 0).Nodup := by decide +kernel
  have opened : m.ledger.tasks[0]?.any fun k => !k.status.terminal := by
    decide +kernel
  have few : m.owners.count 0 ≤ UInt64.size := by decide +kernel
  have registered : m.ledger.registered? ":a" = some 0 := by decide +kernel
  have three : m.units.size = 3 := by decide +kernel
  obtain ⟨units, tasks⟩ := unfinished_exactly_where_dropped before [] d blank 0
    (by decide +kernel) (by decide +kernel) fun w mem => by cases mem
  rw [show before ++ [.endAwait 0] = ops from rfl,
    show (run ops d).1 = m from rfl, lost] at units tasks
  -- from here on it does not matter what the run was
  clear_value m
  have mine {u : UnitId} {s : Submitted} (found : m.units[u]? = some s) :
      s.executor = 0 ∧ s.entry = .task 0 :=
    own s (List.mem_of_getElem? (Array.getElem?_toList.trans found))
  refine ⟨lost, fun u s found => ?_, ?_⟩
  · obtain ⟨executor, entry⟩ := mine found
    exact (units u s found executor).2 0 entry
      (nodup_keysOf.mp distinct found entry)
  · obtain ⟨task, found, opened⟩ := (Option.any_eq_true _ _).mp opened
    obtain ⟨-, done⟩ := tasks 0 task found
      (fun s mem => (own s (List.mem_of_mem_filter mem)).1) few
    obtain ⟨s, unit⟩ : ∃ s, m.units[1]? = some s :=
      ⟨_, Array.getElem?_eq_getElem (by omega)⟩
    refine Bool.eq_false_iff.mpr fun answer => ?_
    exact (done ":a" registered (by simpa using opened)).mp answer 1 s unit
      (mine unit).2 (by decide)

end DispatchOp

end TaskLedger
