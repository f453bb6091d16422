/-
When a task counts as idle: what the keys of its units have to do with it.

A task counts as idle when every member of its crew has ended, and a crew
has one member for each key. So the test is right exactly where keys are
distinct (`idle_exactly_where_distinct`). Then there is one member for each
unit, and the task is idle when every unit was run. Where two units share a
key, the later submission takes the earlier one's member out of the crew;
one of the two can be run while the other one is queued, and the task then
counts as idle (`exists_schedule`).

The units of one executor have distinct keys, so it takes two executors of
one task. Each of them starts to count at zero, and the counts are all that
tells equal units apart.
-/
import Mathlib.Data.List.Dedup
import TaskLedger.Proofs.Dispatch.Keys
import TaskLedger.Proofs.Dispatch.OwnWorker

namespace TaskLedger

namespace Dispatch

/-- The units that were submitted for a task. -/
def unitsOf (t : TaskId) (d : Dispatch) : List Submitted :=
  d.units.toList.filter fun s => s.entry == .task t

/-- Their keys. -/
def keysOf (t : TaskId) (d : Dispatch) : List String :=
  (d.unitsOf t).map Submitted.key

variable {d d' : Dispatch} {t : TaskId}

-- ================================================================= keys

/-- The units of a task are those with its entry. -/
theorem mem_unitsOf {s : Submitted} :
    s ∈ d.unitsOf t
      ↔ ∃ u : UnitId, d.units[u]? = some s ∧ s.entry = .task t := by
  unfold unitsOf
  rw [List.mem_filter, List.mem_iff_getElem?, beq_iff_eq]
  constructor
  · rintro ⟨⟨u, hu⟩, entry⟩
    rw [Array.getElem?_toList] at hu
    exact ⟨u, hu, entry⟩
  · rintro ⟨u, hu, entry⟩
    rw [← Array.getElem?_toList] at hu
    exact ⟨⟨u, hu⟩, entry⟩

/-- Keys are distinct when every unit of the task is alone. -/
theorem nodup_keysOf :
    (d.keysOf t).Nodup
      ↔ ∀ {u : UnitId} {s : Submitted}, d.units[u]? = some s →
          s.entry = .task t → Alone u s d := by
  unfold keysOf unitsOf List.Nodup
  rw [List.pairwise_map, List.pairwise_filter, List.pairwise_iff_getElem]
  have list {u : UnitId} {s : Submitted} (hu : d.units[u]? = some s) :
      ∃ h : u < d.units.toList.length, d.units.toList[u] = s := by
    rw [← Array.getElem?_toList] at hu
    exact List.getElem?_eq_some_iff.mp hu
  constructor
  · intro distinct u s hu entry v s' hv entry' key
    obtain ⟨lt, rfl⟩ := list hu
    obtain ⟨lt', rfl⟩ := list hv
    rcases Nat.lt_trichotomy u v with before | e | after
    · exact absurd key.symm (distinct u v lt lt' before (beq_iff_eq.mpr entry)
        (beq_iff_eq.mpr (entry'.trans entry)))
    · exact e.symm
    · exact absurd key (distinct v u lt' lt after
        (beq_iff_eq.mpr (entry'.trans entry)) (beq_iff_eq.mpr entry))
  · intro alone u v lt lt' before entry entry' key
    have hu : d.units[u]? = some d.units.toList[u] := by
      rw [← Array.getElem?_toList, List.getElem?_eq_getElem lt]
    have hv : d.units[v]? = some d.units.toList[v] := by
      rw [← Array.getElem?_toList, List.getElem?_eq_getElem lt']
    have same := (eq_of_beq entry').trans (eq_of_beq entry).symm
    exact absurd (alone hu (eq_of_beq entry) hv same key.symm)
      (Nat.ne_of_gt before)

/-- Units that one executor was given have different keys, as long as its count
has not come round. -/
theorem nodup_of_one_executor (keyed : Keyed d) {x : ExecutorId}
    (one : ∀ s ∈ d.unitsOf t, s.executor = x)
    (few : d.owners.count x ≤ UInt64.size) : (d.keysOf t).Nodup := by
  rw [nodup_keysOf]
  intro u s hu entry v s' hv entry' key
  have own := one s (mem_unitsOf.mpr ⟨u, hu, entry⟩)
  have own' := one s' (mem_unitsOf.mpr ⟨v, hv, entry'.trans entry⟩)
  exact keyed.unit_inj few hv hu own' own key

/-- A crew has one member for each key, however many units were handed in under
it. -/
theorem crew_length (roll : Roll d) {task : Task}
    (found : d.ledger.tasks[t]? = some task) :
    task.crew.length = (d.keysOf t).dedup.length := by
  have crew : d.ledger.crewAt t = task.crew := Ledger.crewAt_of found
  have same : (task.crew.map Prod.fst).Perm (d.keysOf t).dedup := by
    rw [← crew]
    refine (List.perm_ext_iff_of_nodup (roll.single t)
      (List.nodup_dedup _)).mpr ?_
    intro key
    rw [List.mem_dedup, List.mem_map]
    unfold keysOf
    rw [List.mem_map]
    constructor
    · rintro ⟨⟨key, w⟩, mem, rfl⟩
      obtain ⟨u, s, hu, entry, hkey⟩ := roll.unit mem
      exact ⟨s, mem_unitsOf.mpr ⟨u, hu, entry⟩, hkey⟩
    · rintro ⟨s, hs, rfl⟩
      obtain ⟨u, hu, entry⟩ := mem_unitsOf.mp hs
      obtain ⟨w, mem⟩ := roll.entered hu entry
      exact ⟨(s.key, w), mem, rfl⟩
  rw [← same.length_eq, List.length_map]

/-- A crew has as many members as there are units exactly if no two units
share a key. -/
theorem crew_length_iff (roll : Roll d) {task : Task}
    (found : d.ledger.tasks[t]? = some task) :
    task.crew.length = (d.unitsOf t).length ↔ (d.keysOf t).Nodup := by
  have units : (d.keysOf t).length = (d.unitsOf t).length := by
    unfold keysOf
    exact List.length_map _
  rw [crew_length roll found, ← units]
  constructor
  · intro same
    have all := (List.dedup_sublist (d.keysOf t)).eq_of_length same
    rw [← all]
    exact List.nodup_dedup _
  · intro distinct
    rw [List.dedup_eq_self.mpr distinct]

-- ================================================================= idle

/-- Where keys are distinct, a task is idle when its units were run. -/
theorem idle_iff_finished (settled : Settled d) {task : Task}
    (found : d.ledger.tasks[t]? = some task)
    (distinct : (d.keysOf t).Nodup) :
    d.ledger.idle task = true
      ↔ ∀ s ∈ d.unitsOf t, s.phase.finished = true := by
  have crew : d.ledger.crewAt t = task.crew := Ledger.crewAt_of found
  rw [nodup_keysOf] at distinct
  rw [Ledger.idle_iff]
  constructor
  · intro ended s hs
    obtain ⟨u, hu, entry⟩ := mem_unitsOf.mp hs
    obtain ⟨w, k, mem, hw, -, -, finished, -⟩ :=
      settled.own.holds hu entry (distinct hu entry)
    rw [crew] at mem
    rw [← finished]
    exact ended s.key w k mem hw
  · intro all key w k mem hw
    rw [← crew] at mem
    obtain ⟨u, s, hu, entry, rfl⟩ := settled.roll.unit mem
    obtain ⟨w', k', mem', hw', -, -, finished, -⟩ :=
      settled.own.holds hu entry (distinct hu entry)
    have here := settled.roll.lookup.mpr mem
    rw [settled.roll.lookup.mpr mem'] at here
    obtain rfl := Option.some.inj here
    rw [hw] at hw'
    obtain rfl := Option.some.inj hw'
    rw [finished]
    exact all s (mem_unitsOf.mpr ⟨u, hu, entry⟩)

-- ============================================================ schedules

/-- Later in a run of units: tasks and crews are as they were, and who has
ended has ended. -/
structure Later (l m : Ledger) : Prop where
  task : ∀ {t : TaskId} {task : Task}, l.tasks[t]? = some task →
    ∃ task', m.tasks[t]? = some task'
  crew : ∀ t, m.crewAt t = l.crewAt t
  ended : ∀ {w : WorkerId} {k : Worker}, l.workers[w]? = some k →
    ∃ k', m.workers[w]? = some k'
      ∧ (k.ended.isSome = true → k'.ended.isSome = true)

/-- Nothing happened, so no end was lost. -/
theorem Later.refl (l : Ledger) : Later l l :=
  ⟨fun {_ task} h => ⟨task, h⟩, fun _ => rfl, fun {_ k} h => ⟨k, h, id⟩⟩

theorem Later.trans {l m n : Ledger} (h : Later l m) (k : Later m n) :
    Later l n where
  task := by
    intro t task found
    obtain ⟨task', found'⟩ := h.task found
    exact k.task found'
  crew t := (k.crew t).trans (h.crew t)
  ended := by
    intro w a hw
    obtain ⟨b, hb, still⟩ := h.ended hw
    obtain ⟨c, hc, still'⟩ := k.ended hb
    exact ⟨c, hc, fun e => still' (still e)⟩

/-- What goes on beside the crews ends no worker and takes no end back. -/
theorem later_of_calm {l m : Ledger} (h : l.Calm m) : Later l m where
  task := by
    intro t task found
    obtain ⟨task', found', -⟩ := h.task found
    exact ⟨task', found'⟩
  crew := h.crew
  ended := by
    intro w k hw
    exact ⟨k, h.worker hw, id⟩

/-- What keeps a worker's end keeps it in the whole ledger. -/
theorem later_onWorker (w : WorkerId) {f : Worker → Worker}
    (still : ∀ k : Worker, k.ended.isSome = true → (f k).ended.isSome = true)
    (l : Ledger) : Later l (l.onWorker w f) where
  task := fun {_ task} found => ⟨task, found⟩
  crew := fun _ => rfl
  ended := by
    intro w' k hw
    show ∃ k', (l.workers.modify w f)[w']? = some k' ∧ _
    rw [Array.getElem?_modify, hw]
    split
    · exact ⟨f k, rfl, still k⟩
    · exact ⟨k, rfl, id⟩

theorem startWorker_later (w : WorkerId) (l : Ledger) :
    Later l (l.startWorker w) :=
  later_onWorker w
    (f := fun k => { k with started := some (l.clockOf k) })
    (fun _ still => still) l

theorem endWorker_later (w : WorkerId) (l : Ledger) :
    Later l (l.endWorker w) :=
  later_onWorker w (f := fun k => { k with ended := some (l.clockOf k) })
    (fun _ _ => rfl) l

/-- One unit moved to a phase, and no other unit moved. -/
structure Moved (u : UnitId) (p : Phase) (d d' : Dispatch) : Prop where
  stopped : d'.stopped = d.stopped
  later : Later d.ledger d'.ledger
  it : ∀ {s : Submitted}, d.units[u]? = some s →
    d'.units[u]? = some { s with phase := p }
  other : ∀ {v : UnitId}, v ≠ u → d'.units[v]? = d.units[v]?

/-- Moving one unit moves no other. -/
theorem moved_setPhase (u : UnitId) (p : Phase) {l : Ledger}
    (later : Later d.ledger l) (ran : List String) :
    Moved u p d ({ d with ledger := l, ran }.setPhase u p) where
  stopped := rfl
  later := later
  it := fun found => setPhase_self (d := { d with ledger := l, ran }) found p
  other := fun ne => setPhase_other ne p { d with ledger := l, ran }

/-- A unit that moves on and on moves no other. -/
theorem Moved.trans {u : UnitId} {p q : Phase} {d'' : Dispatch}
    (h : Moved u p d d') (k : Moved u q d' d'') : Moved u q d d'' where
  stopped := k.stopped.trans h.stopped
  later := h.later.trans k.later
  it := fun {s} found => k.it (s := { s with phase := p }) (h.it found)
  other := fun ne => (k.other ne).trans (h.other ne)

/-- A queued unit that goes three steps has been run, and the worker under
its key has ended. -/
theorem three_steps (live : d.stopped = false) {u : UnitId} {s : Submitted}
    {w : WorkerId} (found : d.units[u]? = some s) (queued : s.phase = .queued)
    (entry : s.entry = .task t)
    (own : (d.ledger.crewAt t).lookup s.key = some w)
    (present : w < d.ledger.workers.size) :
    ∃ p k, Moved u p d (d.follow (List.replicate 3 u))
      ∧ (d.follow (List.replicate 3 u)).ledger.workers[w]? = some k
      ∧ k.ended.isSome = true := by
  obtain ⟨l, w', calm, finds, first⟩ := proceed_queued live found queued
  obtain rfl : w' = w := by
    rcases finds with ⟨t', entry', own'⟩ | ⟨none, -⟩
    · obtain rfl : t' = t := Entry.task.inj (entry'.symm.trans entry)
      rw [own] at own'
      exact (Option.some.inj own').symm
    · rw [none t entry] at own
      cases own
  have begun : Moved u (.begun w') d (d.proceed u) := by
    rw [first]
    exact moved_setPhase u _
      ((later_of_calm calm.toCalm).trans (startWorker_later w' l)) d.ran
  obtain ⟨m, calm', second⟩ := proceed_begun (begun.it found) rfl
  obtain ⟨failure, ran⟩ : ∃ failure,
      Moved u (.ran w' failure) (d.proceed u) ((d.proceed u).proceed u) := by
    rw [second]
    exact ⟨_, moved_setPhase u _ (later_of_calm calm'.toCalm) _⟩
  have third := proceed_ran (ran.it (begun.it found)) rfl
  have ended : Moved u (.ended w' failure) ((d.proceed u).proceed u)
      (((d.proceed u).proceed u).proceed u) := by
    rw [third]
    exact moved_setPhase u _ (endWorker_later w' _) _
  -- the worker was there all along, and the third step ended it
  obtain ⟨k, hk, -⟩ := (begun.trans ran).later.ended
    (Array.getElem?_eq_getElem present)
  refine ⟨_, { k with ended := some (((d.proceed u).proceed u).ledger.clockOf k)
    }, (begun.trans ran).trans ended, ?_, rfl⟩
  show (((d.proceed u).proceed u).proceed u).ledger.workers[w']? = _
  rw [third]
  show (Array.modify _ w' _)[w']? = _
  rw [Array.getElem?_modify, if_pos rfl, hk]
  rfl

/-- Queued units of one task that go three steps each, one after another:
the worker under each one's key has ended, and no other unit moved. -/
theorem follow_three (live : d.stopped = false) {us : List UnitId}
    (distinct : us.Nodup)
    (queued : ∀ u ∈ us, ∃ (s : Submitted) (w : WorkerId),
      d.units[u]? = some s ∧ s.phase = .queued ∧ s.entry = .task t
        ∧ (s.key, w) ∈ d.ledger.crewAt t)
    (single : ((d.ledger.crewAt t).map Prod.fst).Nodup)
    (present : ∀ key w, (key, w) ∈ d.ledger.crewAt t →
      ∃ k : Worker, d.ledger.workers[w]? = some k) :
    Later d.ledger (d.follow (us.flatMap (List.replicate 3))).ledger
      ∧ (∀ v, v ∉ us → (d.follow (us.flatMap (List.replicate 3))).units[v]?
          = d.units[v]?)
      ∧ ∀ u ∈ us, ∀ s : Submitted, d.units[u]? = some s →
          ∀ w, (s.key, w) ∈ d.ledger.crewAt t →
          ∃ k, (d.follow (us.flatMap (List.replicate 3))).ledger.workers[w]?
              = some k ∧ k.ended.isSome = true := by
  induction us generalizing d with
  | nil =>
      exact ⟨.refl d.ledger, fun _ _ => rfl, fun u mem => by cases mem⟩
  | cons u rest ih =>
      obtain ⟨fresh, distinct⟩ := List.nodup_cons.mp distinct
      obtain ⟨s, w, found, phase, entry, mem⟩ := queued u List.mem_cons_self
      obtain ⟨worker, hw⟩ := present s.key w mem
      obtain ⟨p, k, moved, ended, done⟩ := three_steps live found phase entry
        (lookup_of_mem single mem) (Array.getElem?_eq_some_iff.mp hw).1
      have crew := moved.later.crew t
      have split : d.follow ((u :: rest).flatMap (List.replicate 3))
          = (d.follow (List.replicate 3 u)).follow
              (rest.flatMap (List.replicate 3)) := by
        unfold follow
        rw [List.flatMap_cons, List.foldl_append]
      rw [split]
      -- the rest of the units wait where they waited
      obtain ⟨later, others, all⟩ := ih (d := d.follow (List.replicate 3 u))
        (moved.stopped.trans live) distinct (by
          intro v hv
          have ne : v ≠ u := by
            rintro rfl
            exact fresh hv
          rw [moved.other ne, crew]
          exact queued v (List.mem_cons_of_mem u hv))
        (by rw [crew]; exact single)
        (by
          intro key w' mem'
          rw [crew] at mem'
          obtain ⟨k', hk'⟩ := present key w' mem'
          obtain ⟨k'', hk'', -⟩ := moved.later.ended hk'
          exact ⟨k'', hk''⟩)
      refine ⟨moved.later.trans later, ?_, ?_⟩
      · intro v hv
        obtain ⟨ne, hv⟩ := not_or.mp (mt List.mem_cons.mpr hv)
        rw [others v hv]
        exact moved.other ne
      · intro v hv s' found' w' mem'
        rcases List.mem_cons.mp hv with rfl | waiting
        · rw [found] at found'
          obtain rfl := Option.some.inj found'
          have here := lookup_of_mem single mem'
          rw [lookup_of_mem single mem] at here
          obtain rfl := Option.some.inj here
          obtain ⟨k', hk', still⟩ := later.ended ended
          exact ⟨k', hk', still done⟩
        · have ne : v ≠ u := by
            rintro rfl
            exact fresh waiting
          refine all v waiting s' ?_ w' ?_
          · rw [moved.other ne]
            exact found'
          · rw [crew]
            exact mem'

/-- Where two queued units of a task share a key, all others can be run and
the task counts as idle, with one of the two still queued. -/
theorem exists_schedule (settled : Settled d) (live : d.stopped = false)
    {task : Task} (found : d.ledger.tasks[t]? = some task)
    (shared : ¬ (d.keysOf t).Nodup)
    (queued : ∀ s ∈ d.unitsOf t, s.phase = .queued) :
    ∃ schedule task', (d.follow schedule).ledger.tasks[t]? = some task'
      ∧ (d.follow schedule).ledger.idle task' = true
      ∧ ∃ s ∈ (d.follow schedule).unitsOf t, s.phase = .queued := by
  obtain ⟨u, s, v, s', hu, entry, hv, entry', key, ne⟩ :
      ∃ (u : UnitId) (s : Submitted) (v : UnitId) (s' : Submitted),
        d.units[u]? = some s ∧ s.entry = .task t ∧ d.units[v]? = some s'
          ∧ s'.entry = .task t ∧ s'.key = s.key ∧ v ≠ u := by
    rw [nodup_keysOf] at shared
    apply Classical.byContradiction
    intro none
    apply shared
    intro u s hu entry v s' hv entry' key
    apply Classical.byContradiction
    intro ne
    exact none ⟨u, s, v, s', hu, entry, hv, entry'.trans entry, key, ne⟩
  -- everybody but `u` is seen through
  let us := (List.range d.units.size).filter fun v =>
    v != u && d.units[v]?.any fun s => s.entry == .task t
  have mem_us {v : UnitId} {s : Submitted} (hv : d.units[v]? = some s)
      (entry : s.entry = .task t) (ne : v ≠ u) : v ∈ us := by
    refine List.mem_filter.mpr ⟨List.mem_range.mpr ?_, ?_⟩
    · exact (Array.getElem?_eq_some_iff.mp hv).1
    · rw [hv]
      simp [ne, entry]
  have roll := settled.roll
  obtain ⟨later, others, all⟩ := follow_three (t := t) live
    (show us.Nodup from List.nodup_range.filter _) (by
      intro v hv
      obtain ⟨mem, keep⟩ := List.mem_filter.mp hv
      have lt := List.mem_range.mp mem
      have hv : d.units[v]? = some d.units[v] := Array.getElem?_eq_getElem lt
      rw [hv] at keep
      have entry : d.units[v].entry = .task t := by
        simpa using (Bool.and_eq_true_iff.mp keep).2
      obtain ⟨w, mem⟩ := roll.entered hv entry
      exact ⟨_, w, hv, queued _ (mem_unitsOf.mpr ⟨v, hv, entry⟩), entry, mem⟩)
    (roll.single t) (by
      intro key w mem
      exact ⟨_, Array.getElem?_eq_getElem (roll.below mem)⟩)
  obtain ⟨task', found'⟩ := later.task found
  have still : (d.follow (us.flatMap (List.replicate 3))).units[u]?
      = some s := by
    rw [others u (by
      intro mem
      simpa using (List.mem_filter.mp mem).2), hu]
  refine ⟨us.flatMap (List.replicate 3), task', found', ?_, s,
    mem_unitsOf.mpr ⟨u, still, entry⟩,
    queued s (mem_unitsOf.mpr ⟨u, hu, entry⟩)⟩
  rw [Ledger.idle_iff]
  intro key' w k mem hw
  rw [← Ledger.crewAt_of found', later.crew] at mem
  obtain ⟨v', s₀, hv', entry₀, rfl⟩ := roll.unit mem
  -- a unit under this key that was seen through, whoever it is
  have seen : ∃ v₁ ∈ us, ∃ s₁ : Submitted, d.units[v₁]? = some s₁
      ∧ s₁.key = s₀.key := by
    by_cases same : v' = u
    · subst same
      rw [hu] at hv'
      obtain rfl := Option.some.inj hv'
      exact ⟨v, mem_us hv entry' ne, s', hv, key⟩
    · exact ⟨v', mem_us hv' entry₀ same, s₀, hv', rfl⟩
  obtain ⟨v₁, hv₁, s₁, hs₁, key₁⟩ := seen
  obtain ⟨k', hk', ended⟩ := all v₁ hv₁ s₁ hs₁ w (by rw [key₁]; exact mem)
  rw [hw] at hk'
  obtain rfl := Option.some.inj hk'
  exact ended

-- ================================================== where the test is right

/-- In an ordinary run from nothing, for a task on record: its crew has as
many members as units were submitted for it exactly if their keys are
distinct. If they are, the task counts as idle exactly when all its units
were run. If they are not and none was begun, there is a schedule after
which the task counts as idle and a unit is still queued. The units of a
single executor have distinct keys, up to 2^64 of them. -/
theorem idle_exactly_where_distinct (ops : List DispatchOp) (d : Dispatch)
    (blank : d.Blank) (ordinary : DispatchOp.Ordinary ops d = true)
    (t : TaskId) (task : Task)
    (found : (DispatchOp.run ops d).1.ledger.tasks[t]? = some task) :
    let m := (DispatchOp.run ops d).1
    (task.crew.length = (m.unitsOf t).length ↔ (m.keysOf t).Nodup)
      ∧ ((m.keysOf t).Nodup →
          (m.ledger.idle task = true
            ↔ ∀ s ∈ m.unitsOf t, s.phase.finished = true))
      ∧ (¬ (m.keysOf t).Nodup → (∀ s ∈ m.unitsOf t, s.phase = .queued) →
          ∃ schedule task', (m.follow schedule).ledger.tasks[t]? = some task'
            ∧ (m.follow schedule).ledger.idle task' = true
            ∧ ∃ s ∈ (m.follow schedule).unitsOf t, s.phase = .queued)
      ∧ ∀ x, (∀ s ∈ m.unitsOf t, s.executor = x) →
          m.owners.count x ≤ UInt64.size → (m.keysOf t).Nodup := by
  intro m
  have settled : Settled m := settled_run blank ordinary
  have live : m.stopped = false := run_stopped blank.stopped ordinary
  refine ⟨crew_length_iff settled.roll found,
    idle_iff_finished settled found,
    exists_schedule settled live found, ?_⟩
  intro x one few
  exact nodup_of_one_executor (keyed_run blank ordinary) one few

/-- Two executors of one task are given the same unit: one member for two
units, and a task that counts as idle while one of them is queued. -/
theorem idle_exactly_where_distinct_two_executors :
    let d : Dispatch := { ledger := { sinks := #[{ outlet := .memory }] } }
    let work : Work := { action := "Compile", hash := 1 }
    let ops : List DispatchOp :=
      [.onLedger (.startTask ":a" "p" none),
        .addExecutor (.pooled { owner := ":a", entry := .task 0 }),
        .addExecutor (.pooled { owner := ":a", entry := .task 0 }),
        .submit 0 work, .submit 1 work]
    let m := (DispatchOp.run ops d).1
    (m.unitsOf 0).length = 2
      ∧ ∃ schedule task', (m.follow schedule).ledger.tasks[0]? = some task'
        ∧ (m.follow schedule).ledger.idle task' = true
        ∧ ∃ s ∈ (m.follow schedule).unitsOf 0, s.phase = .queued := by
  intro d work ops m
  obtain ⟨task, found⟩ : ∃ task, m.ledger.tasks[0]? = some task := ⟨_, rfl⟩
  have h := idle_exactly_where_distinct ops d ⟨rfl, rfl, rfl, rfl, rfl, rfl⟩
    (by decide +kernel) 0 task found
  exact ⟨by decide +kernel, h.2.2.1 (by decide +kernel) (by decide +kernel)⟩

end Dispatch

end TaskLedger
