/-
A simulated build between any two of its moves.

`Site` is what holds then, and also between any two steps of the pool: it is
told by how many tasks were started, which executors were given units, and
which numbers and how much time are still set aside. A step of a unit spends
what was set aside for it (`Site.proceed`). What the build does by itself
spends its own: a task that starts takes a number (`Site.start`), and a unit
that is given out its time, and a number if a pool takes it (`Site.handed`,
`Site.direct`). A wait drains the pool, so after it every unit is over
(`Site.await`).
-/
import TaskLedger.Proofs.Command.BuildLedger
import TaskLedger.Proofs.Dispatch.Timing

namespace TaskLedger

open Dispatch Simulate

-- ==================================================================== site

/-- The entry that the executor of a task works for. -/
def Simulate.entryFor (b : Backend) (t : Nat) : Option Entry :=
  match b with
  | .direct => none
  | .pooled _ => some (.task t)

/-- When the units of a task will be done that started at a time. -/
def Ground.until (G : Ground) (a : Instant) : Int :=
  a.nanos + G.longest * 1000000

/-- What holds of a build that goes on from `G`, once `t` tasks were started,
the last of them at `a`, and some executors were given units, while `k` numbers
and, for that task, `rest` milliseconds are still set aside. -/
structure Site (G : Ground) (b : Backend) (a : Instant) (t : Nat)
    (given : List ExecutorId) (k rest : Nat) (d : Dispatch) : Prop where
  live : d.stopped = false
  overseen : ∃ seen, Overseen G.numbers k seen d
  footing : Footing G t (d.due + k) d.ledger
  onTime : OnTime (G.until a) rest d
  timed : d.ledger.Timed a (G.longest * 1000000) d.atWork
  owners : d.owners = given
  entries : d.entries = (List.range t).map (entryFor b)

namespace Site

variable {G : Ground} {b : Backend} {a : Instant} {t k rest : Nat}
  {given : List ExecutorId} {d : Dispatch} {u : UnitId} {s : Submitted}
  {x : ExecutorId}

/-- Since the task that was started last, there was no more time than its units
take. -/
theorem within (h : Site G b a t given k rest d) :
    d.ledger.now.nanos - a.nanos ≤ G.longest * 1000000 := by
  have late := h.onTime.now_le (Int.natCast_nonneg rest)
  unfold Ground.until at late
  omega

/-- No cause is kept, since no unit failed. -/
theorem failures (h : Site G b a t given k rest d) (x : ExecutorId) :
    d.failuresAt x = [] := by
  obtain ⟨seen, overseen⟩ := h.overseen
  rw [overseen.account.kept, causesOver, List.flatMap_eq_nil_iff]
  intro u _
  cases found : d.units[u]? with
  | none =>
      rw [(overseen.account.unknown
        (Array.getElem?_eq_none_iff.mp found)).1]
      rfl
  | some s =>
      rw [overseen.account.ran found]
      cases outcome : s.phase.outcome? with
      | none => rfl
      | some failure =>
          rw [h.onTime.good found outcome]
          rfl

-- =================================================================== steps

/-- What the steps of a unit come down to. -/
theorem domestic_proceed (h : OnTime (G.until a) rest d) (u : UnitId) :
    ∀ op ∈ (DispatchOp.proceed u).moves d, op.domestic = true := by
  simp only [DispatchOp.moves]
  cases found : d.units[u]? with
  | none => exact fun _ mem => by cases mem
  | some s =>
      dsimp only
      cases s.phase with
      | queued =>
          dsimp only
          split
          · exact fun _ mem => by cases mem
          · simp [LedgerOp.domestic, LedgerOp.forward]
      | begun w =>
          have easy := h.easy found
          simp [LedgerOp.domestic, LedgerOp.forward, easy.ms, easy.ns]
      | _ => simp [LedgerOp.domestic, LedgerOp.forward]

/-- A step of a unit. -/
theorem proceed (h : Site G b a t given k rest d)
    (calendar : G.until a ≤ 8210266876799999 * 1000000 + 999999) (u : UnitId) :
    Site G b a t given k rest (d.proceed u) := by
  rcases proceed_cases u d with same | ⟨s, found, goesOn⟩
  · rw [same]
    exact h
  obtain ⟨seen, overseen⟩ := h.overseen
  have turn := turn_proceed h.live u
  have numbers := proceed_asked h.live found goesOn
  obtain ⟨marks, warnings, noticed⟩ := (DispatchOp.proceed u).noticed_aside d
  refine ⟨turn.stopped.trans h.live,
    ⟨_, (show Overseen G.numbers (0 + k) seen d by
      rwa [Nat.zero_add]).turn turn⟩, ?_,
    h.onTime.proceed h.live calendar (Int.natCast_nonneg rest) u,
    timed_proceed h.timed h.live h.within fun op mem =>
      LedgerOp.forward_of_domestic (domestic_proceed h.onTime u op mem),
    ?_, ?_⟩
  · rw [proceed_ledger, noticed]
    refine Footing.run ?_ (domestic_proceed h.onTime u)
    rw [← Nat.add_assoc, numbers]
    exact h.footing.noticed marks warnings
  · obtain ⟨e, p, he, units, -⟩ := proceed_next h.live found goesOn
    rw [he, owners_setPhase, ← h.owners]
    unfold Dispatch.owners
    rw [units]
  · rw [entries_of_cores (cores_proceed u d)]
    exact h.entries

/-- The steps of a schedule. -/
theorem follow (h : Site G b a t given k rest d)
    (calendar : G.until a ≤ 8210266876799999 * 1000000 + 999999)
    (schedule : List UnitId) :
    Site G b a t given k rest (d.follow schedule) := by
  induction schedule generalizing d with
  | nil => exact h
  | cons u others ih => exact ih (h.proceed calendar u)

-- =================================================================== moves

/-- What a task or the scheduler does at one moment, without a number. -/
theorem onLedger (h : Site G b a t given k rest d) (op : LedgerOp)
    (domestic : op.domestic = true) (timeless : op.takesTime = false)
    (free : op.numbers = 0) (hand : op.byHand = false) :
    Site G b a t given k rest { d with ledger := (op.apply d.ledger).1 } := by
  obtain ⟨seen, overseen⟩ := h.overseen
  have passage := LedgerOp.passage_apply hand d.ledger
  rw [free] at passage
  have turn : Turn d 0 [] { d with ledger := (op.apply d.ledger).1 } :=
    .aside passage
  refine ⟨h.live, ⟨_, (show Overseen G.numbers (0 + k) seen d by
      rwa [Nat.zero_add]).turn turn⟩, ?_,
    h.onTime.beside (LedgerOp.now_apply timeless d.ledger).1 d.executors
      d.ran d.stopped,
    h.timed.apply _ (LedgerOp.forward_of_domestic domestic) fun w report =>
      absurd (report.symm.trans (LedgerOp.step?_of_calm hand w)) nofun,
    h.owners, h.entries⟩
  exact Footing.apply (by rw [free, Nat.zero_add]; exact h.footing) domestic

/-- What an executor says to its owner's task. -/
theorem said (h : Site G b a t given k rest d) {f : TaskId → Ledger → Ledger}
    (op : Entry → LedgerOp)
    (is : ∀ e l, ((op e).apply l).1 = Ledger.OnEntry.does e f l)
    (domestic : ∀ e, (op e).domestic = true)
    (timeless : ∀ e, (op e).takesTime = false)
    (free : ∀ e, (op e).numbers = 0) (hand : ∀ e, (op e).byHand = false)
    (x : ExecutorId) :
    Site G b a t given k rest
      (match d.pooled? x with
        | some p => d.onLedger (Ledger.OnEntry.does p.entry f)
        | none => d) := by
  cases d.pooled? x with
  | none => exact h
  | some p =>
      have done := h.onLedger (op p.entry) (domestic p.entry) (timeless p.entry)
        (free p.entry) (hand p.entry)
      rw [is] at done
      exact done

/-- The owner begins to wait. -/
theorem beginAwait (h : Site G b a t given k rest d) (x : ExecutorId) :
    Site G b a t given k rest (d.beginAwait x) :=
  h.said .await (fun _ _ => rfl) (fun _ => rfl) (fun _ => rfl)
    (fun _ => rfl) (fun _ => rfl) x

/-- The owner gives control back. -/
theorem release (h : Site G b a t given k rest d) (x : ExecutorId) :
    Site G b a t given k rest (d.release x) :=
  h.said .close (fun _ _ => rfl) (fun _ => rfl) (fun _ => rfl)
    (fun _ => rfl) (fun _ => rfl) x

/-- A wait that is over tells of no failure. -/
theorem endAwait (h : Site G b a t given k rest d) (x : ExecutorId) :
    ∃ e, (d.endAwait x).getD (d, .ok ()) = (e, .ok ())
      ∧ Site G b a t given k rest e ∧ e.units = d.units := by
  obtain ⟨seen, overseen⟩ := h.overseen
  have turn := turn_endAwait (d := d) x
  obtain ⟨executors, he, cores⟩ := endAwait_executors x d
  have site : Site G b a t given k rest { d with executors } := by
    rw [he] at turn
    refine ⟨h.live, ⟨_, (show Overseen G.numbers (0 + k) seen d by
        rwa [Nat.zero_add]).turn turn⟩, h.footing,
      h.onTime.beside rfl executors d.ran d.stopped, h.timed, h.owners, ?_⟩
    rw [entries_of_cores cores]
    exact h.entries
  simp only [DispatchOp.apply] at he
  cases ends : d.endAwait x with
  | none => exact ⟨d, rfl, h, rfl⟩
  | some answer =>
      obtain ⟨e, r⟩ := answer
      rw [ends] at he
      have he : e = { d with executors } := he
      refine ⟨e, ?_, he ▸ site, by rw [he]⟩
      cases pooled : d.pooled? x with
      | none =>
          unfold Dispatch.endAwait at ends
          rw [pooled] at ends
          cases ends
          rfl
      | some p =>
          have none : p.failures = [] :=
            (at_of pooled).2.symm.trans (h.failures x)
          have told := (endAwait_answer pooled ends).2
          rw [none] at told
          rw [told]
          rfl

-- ================================================================== drain

/-- Draining the pool sees every unit through. -/
theorem drain_over (d : Dispatch) {u : UnitId} {s : Submitted}
    (after : d.drain.units[u]? = some s) : s.phase.over = true := by
  have after : (d.follow ((d.unitsIn fun p => !p.over).flatMap
    straight)).units[u]? = some s := after
  have before : ∃ s₀, d.units[u]? = some s₀ := by
    have lt := (Array.getElem?_eq_some_iff.mp after).1
    rw [follow_size] at lt
    exact ⟨_, Array.getElem?_eq_getElem lt⟩
  obtain ⟨s₀, found⟩ := before
  cases isOver : s₀.phase.over with
  | true =>
      obtain ⟨p, found', less⟩ := follow_nearer _ found
      rw [after] at found'
      obtain rfl := Option.some.inj found'
      have none := Phase.over_iff_left.mp isOver
      exact Phase.over_iff_left.mpr (by dsimp only; omega)
  | false =>
      -- it is on the list, and is named five times for that
      have mem : u ∈ d.unitsIn fun p => !p.over := by
        unfold unitsIn
        refine List.mem_filterMap.mpr ⟨(s₀, u), ?_, by simp [isOver]⟩
        rw [List.mem_zipIdx_iff_getElem?, Array.getElem?_toList]
        exact found
      refine follow_over ?_ after
      obtain ⟨front, back, split⟩ := List.append_of_mem mem
      rw [split, List.flatMap_append, List.flatMap_cons, List.count_append,
        List.count_append]
      have five : (straight u).count u = 5 := List.count_replicate_self
      omega

/-- A wait goes well, and leaves no unit on the way. -/
theorem await (h : Site G b a t given k rest d)
    (calendar : G.until a ≤ 8210266876799999 * 1000000 + 999999) (x : ExecutorId) :
    ∃ e, d.drainAndAwait x = (e, .ok ())
      ∧ Site G b a t given k rest e
      ∧ ∀ (u : UnitId) (s : Submitted), e.units[u]? = some s →
          s.phase.over = true := by
  have drained : Site G b a t given k rest d.drain := h.follow calendar _
  obtain ⟨e, done, site, units⟩ := (drained.beginAwait x).endAwait x
  refine ⟨e, done, site, fun u s found => ?_⟩
  refine drain_over d (u := u) ?_
  rw [units] at found
  rw [← found]
  unfold Dispatch.beginAwait
  split
  · rfl
  · rfl

-- ================================================================= units

/-- A unit is handed to a pool. -/
theorem handed {w : Work} {ms : Nat} (time : w.script.ms = ms) (easy : w.Easy)
    (h : Site G b a t given (1 + k) (ms + rest) d) {p : PooledState}
    (pooled : d.pooled? x = some p) :
    (d.submit x w).2 = .ok (.ok ())
      ∧ Site G b a t (given ++ [x]) k rest (d.submit x w).1 := by
  obtain ⟨seen, overseen⟩ := h.overseen
  have live := h.live
  have submitted : (d.submit x w).1 = d.handed x p w := by
    rw [submit_pooled (executor_of pooled), live]
    rfl
  have turn := turn_submit live x w
  have answer : (d.submit x w).2 = .ok (.ok ()) := by
    unfold Dispatch.submit
    rw [executor_of pooled]
  rw [submitted] at turn ⊢
  refine ⟨answer, turn.stopped.trans live, ⟨_, overseen.turn turn⟩, ?_, ?_,
    ?_, ?_, ?_⟩
  -- its number is set aside now, and its time is on the way
  · have due : (d.handed x p w).due + k = d.due + (1 + k) := by
      unfold due countUnits
      show (d.units.push _).toList.countP _ + k = _
      rw [countUnits_push]
      show _ + 1 + k = _
      omega
    rw [due]
    let op : LedgerOp := .enlist p.entry (p.nextKey w) .worker
    have footing : Footing G t (op.numbers + (d.due + (1 + k))) d.ledger :=
      (Nat.zero_add _).symm ▸ h.footing
    exact footing.apply rfl
  · refine OnTime.handed ?_ easy x p
    rw [time, ← Int.natCast_add]
    exact h.onTime
  · -- the unit is queued, so nobody is at work for it yet
    have enlisted := h.timed.apply
      (.enlist p.entry (p.nextKey w) .worker) rfl
      fun v report => by cases report
    refine enlisted.fewer fun v at_ => ?_
    obtain ⟨u, s, found, holds⟩ := at_
    rcases push_back found with old | ⟨-, rfl⟩
    · exact ⟨u, s, old, holds⟩
    · cases holds
  · show (d.units.push _).toList.map _ = _
    rw [Array.toList_push, List.map_append, ← h.owners]
    rfl
  · rw [← h.entries]
    exact entries_charged x d

/-- A unit is done where it is given out. -/
theorem direct {w : Work} {ms : Nat} (time : w.script.ms = ms) (easy : w.Easy)
    (h : Site G b a t given k (ms + rest) d)
    (calendar : G.until a ≤ 8210266876799999 * 1000000 + 999999) {owner : String}
    (direct : d.executors[x]? = some (.direct owner)) :
    ∃ e, d.submit x w = (e, .ok (.ok ()))
      ∧ Site G b a t given k rest e := by
  obtain ⟨seen, overseen⟩ := h.overseen
  have onTime := h.onTime
  rw [Int.natCast_add, ← time] at onTime
  obtain ⟨ledger, ran, passed, done, onTime⟩ :=
    onTime.direct easy calendar (Int.natCast_nonneg rest) direct
  let op : LedgerOp := .advance w.script.ms w.script.ns
  have passage := LedgerOp.passage_apply (show op.byHand = false from rfl)
    d.ledger
  have footing : Footing G t (op.numbers + (d.due + k)) d.ledger :=
    (Nat.zero_add (d.due + k)).symm ▸ h.footing
  have domestic : op.domestic = true := by
    simp [op, LedgerOp.domestic, LedgerOp.forward, easy.ms, easy.ns]
  have footing := footing.apply domestic
  have timed := h.timed.apply _ (LedgerOp.forward_of_domestic domestic)
    fun w report => by cases report
  rw [← passed] at passage footing timed
  have turn : Turn d 0 [] { d with ledger, ran } := .aside passage
  exact ⟨_, done, h.live, ⟨_, (show Overseen G.numbers (0 + k) seen d by
    rwa [Nat.zero_add]).turn turn⟩, footing, onTime, timed, h.owners,
    h.entries⟩

-- ================================================================= starts

/-- Once every unit is over, the time of the next task may begin. -/
theorem anew (h : Site G b a t given k rest d)
    (isOver : ∀ (u : UnitId) (s : Submitted), d.units[u]? = some s →
      s.phase.over = true) :
    Site G b d.ledger.now t given k G.longest d :=
  { h with
    onTime :=
      { h.onTime with
        clock := by
          unfold Ground.until
          rw [toil_over isOver, Int.zero_add] }
    timed := h.timed.anew.fewer fun w at_ => not_atWork_over isOver w at_ }

/-- A task starts, and gets an executor. -/
theorem start (h : Site G b a t given (1 + k) rest d) (unitMs : Nat) :
    ∃ e, (Move.start t).make b unitMs d = (e, .ok ())
      ∧ Site G b a (t + 1) given k rest e := by
  obtain ⟨seen, overseen⟩ := h.overseen
  have size := h.footing.tasks
  obtain ⟨l, done, registered, now, footing⟩ :=
    Footing.start (G := G) (t := t) (b := d.due + k) (l := d.ledger)
      (by rw [Nat.add_left_comm]; exact h.footing)
  let op : LedgerOp := .startTask (pathOf t) ":app" (some "debug")
  have applied : (op.apply d.ledger).1 = l := congrArg Prod.fst done
  have passage := LedgerOp.passage_apply (show op.byHand = false from rfl)
    d.ledger
  have timed := h.timed.apply op rfl fun w report => by cases report
  rw [applied] at passage timed
  have turn : Turn d 1 [] { d with ledger := l } := .aside passage
  -- the executor is obtained for the task that was just registered
  have entry : l.entryOf (pathOf t) = .task t := by
    unfold Ledger.entryOf
    rw [registered]
  have joined : Turn { d with ledger := l } 0 []
      { d with
        ledger := l
        executors := d.executors.push
          (executorOf b t { d with ledger := l }) } := by
    refine .joined _ fun p is => ?_
    cases b with
    | direct => cases is
    | pooled n =>
        cases is
        have fresh : DispatchOp.freshFor
            ⟨pathOf t, l.entryOf (pathOf t), 0, 0, []⟩ l = true := by
          rw [entry]
          simp [DispatchOp.freshFor, footing.tasks]
        exact fresh
  have site : Site G b a (t + 1) given k rest
      { d with
        ledger := l
        executors := d.executors.push
          (executorOf b t { d with ledger := l }) } := by
    refine ⟨h.live, ⟨_, (show Overseen G.numbers (0 + k) _ _ by
      rw [Nat.zero_add]; exact overseen.turn turn).turn joined⟩, footing,
      h.onTime.beside now _ d.ran d.stopped, timed, h.owners, ?_⟩
    show (d.executors.push _).toList.map _ = _
    rw [Array.toList_push, List.map_append, List.range_succ, List.map_append,
      ← h.entries]
    cases b with
    | direct => rfl
    | pooled n =>
        show _ ++ [some (l.entryOf (pathOf t))] = _
        rw [entry]
        rfl
  refine ⟨_, ?_, site⟩
  unfold Move.make
  dsimp only
  rw [done]
  rfl

end Site

end TaskLedger
