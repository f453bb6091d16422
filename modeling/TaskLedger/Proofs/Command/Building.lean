/-
A simulated build goes through, whatever the threads of the pool do meanwhile.

The moves of a build fall into the turns of its tasks (`moves_turns`): each task
starts, gives out its units, and is waited for. Once it has started, a move
spends what was set aside for it (`Site.make`) and goes well if it comes when it
may (`Simulate.Move.Ready`), and so do all of them, under every pace
(`Site.makeMoves`).

A task starts only after the wait for the one before it. No unit is on the way
then, so its time begins anew (`Site.turn`), and no worker takes longer than the
units of its own task do together. After the last wait every unit is over, and
the end of the build leaves no task unwritten (`Site.ends`).
-/
import TaskLedger.Proofs.Command.BuildInvariant

namespace TaskLedger

open Dispatch Simulate

-- =================================================================== moves

namespace Simulate.Move

/-- The executor that is given a unit which it enters into the ledger. -/
def gives (b : Backend) : Move → List ExecutorId
  | submit t _ =>
      match b with
      | .direct => []
      | .pooled _ => [t]
  | _ => []

/-- How long the unit takes that is given out. -/
def millis (unitMs : Nat) : Move → Nat
  | submit _ u => (unitTime unitMs u).toOption.getD 0
  | _ => 0

/-- A move comes when it may while `t` tasks have started: it is no start, and a
unit is given out, if its time is a word, for one of these tasks. -/
def Ready (unitMs t : Nat) : Move → Prop
  | start _ => False
  | submit i u => i < t ∧ ∃ ms, unitTime unitMs u = .ok ms
  | _ => True

end Simulate.Move

namespace Simulate

/-- The executors that are given units by some moves. -/
def givenBy (b : Backend) (ms : List Move) : List ExecutorId :=
  ms.flatMap (Move.gives b)

/-- How long the units take that some moves give out. -/
def millisOf (unitMs : Nat) (ms : List Move) : Nat :=
  (ms.map (Move.millis unitMs)).sum

/-- How many units of a task are entered into the ledger. -/
def crewSize (b : Backend) (units : Nat) : Nat :=
  match b with
  | .direct => 0
  | .pooled _ => units

/-- How long the units of a task take. -/
def taskMillis (unitMs units : Nat) : Nat :=
  ((List.range units).map fun u => (unitTime unitMs u).toOption.getD 0).sum

/-- What a task does from its start until it is reported as done. -/
def bodyMoves (units t : Nat) : List Move :=
  (List.range units).map (.submit t) ++ [.release t, .finish t]

/-- The turn of a task: it starts, does what it has to, and is waited for. -/
def turnMoves (units t : Nat) : List Move :=
  .start t :: (bodyMoves units t ++ [.await t])

/-- A build consists of the turns of its tasks and of its end. -/
theorem moves_turns (tasks units : Nat) :
    moves tasks units
      = (List.range tasks).flatMap (turnMoves units) ++ [.flush, .endBuild] := by
  unfold moves
  congr 1
  -- the wait for a task belongs to the moves of the next one
  induction tasks with
  | zero => rfl
  | succ n ih =>
      rw [List.range_succ, List.flatMap_append, List.flatMap_append,
        List.flatMap_singleton, List.flatMap_singleton, ← ih]
      unfold taskMoves turnMoves bodyMoves
      rw [if_neg (Nat.succ_ne_zero n), Nat.add_sub_cancel]
      simp only [List.append_assoc, List.cons_append]

/-- The units of a task, given out one after another. -/
theorem givenBy_body (b : Backend) (units t : Nat) :
    givenBy b (bodyMoves units t) = List.replicate (crewSize b units) t := by
  have submits : givenBy b ((List.range units).map (Move.submit t))
      = List.replicate (crewSize b units) t := by
    unfold givenBy
    rw [List.flatMap_map]
    cases b with
    | direct => exact List.flatMap_eq_nil_iff.mpr fun _ _ => rfl
    | pooled n =>
        have each : (List.range units).flatMap
              (fun u => (Move.submit t u).gives (.pooled n))
            = (List.range units).map fun _ => t :=
          List.map_eq_flatMap.symm
        rw [each, List.map_const', List.length_range]
        rfl
  unfold bodyMoves givenBy
  rw [List.flatMap_append]
  exact (List.append_nil _).trans submits

/-- They take the time of a task. -/
theorem millisOf_body (unitMs units t : Nat) :
    millisOf unitMs (bodyMoves units t) = taskMillis unitMs units := by
  unfold millisOf bodyMoves
  rw [List.map_append, List.sum_append, List.map_map]
  rfl

/-- They are given out after the start of the task. -/
theorem ready_body {unitMs units t : Nat}
    (time : ∀ u < units, ∃ ms, unitTime unitMs u = .ok ms) :
    ∀ m ∈ bodyMoves units t, m.Ready unitMs (t + 1) := by
  intro m mem
  rcases List.mem_append.mp mem with given | last
  · obtain ⟨u, lt, rfl⟩ := List.mem_map.mp given
    exact ⟨Nat.lt_succ_self t, time u (List.mem_range.mp lt)⟩
  · rcases List.mem_pair.mp last with rfl | rfl
    · trivial
    · trivial

/-- Moves that go well are followed by the moves after them. -/
theorem makeMoves_append {pace : Pace} {b : Backend} {unitMs n : Nat}
    {ms more : List Move} {d e : Dispatch}
    (done : makeMoves pace b unitMs n ms d = (e, .ok ())) :
    makeMoves pace b unitMs n (ms ++ more) d
      = makeMoves pace b unitMs (n + ms.length) more e := by
  induction ms generalizing n d with
  | nil =>
      obtain rfl : d = e := congrArg Prod.fst done
      rfl
  | cons m ms ih =>
      rw [makeMoves] at done
      rw [List.cons_append, makeMoves]
      split at done
      · rw [ih done, List.length_cons, Nat.add_assoc, Nat.add_comm 1]
      · cases congrArg Prod.snd done

end Simulate

-- ================================================================ one move

namespace Site

variable {G : Ground} {b : Backend} {a : Instant} {t k rest unitMs : Nat}
  {given : List ExecutorId} {d : Dispatch} {m : Move} {ms : List Move}

theorem easy_workOf (t u ms : Nat) : (workOf t u ms).Easy where
  ms := Int.natCast_nonneg ms
  ns := rfl
  success := rfl

/-- A unit is given out. -/
theorem submit {i u : Nat}
    (h : Site G b a t given (((Move.submit i u).gives b).length + k)
      ((Move.submit i u).millis unitMs + rest) d)
    (calendar : G.until a ≤ 8210266876799999 * 1000000 + 999999)
    (ready : (Move.submit i u).Ready unitMs t) :
    ∃ e, (Move.submit i u).make b unitMs d = (e, .ok ())
      ∧ Site G b a t (given ++ (Move.submit i u).gives b) k rest e := by
  obtain ⟨lt, ms, time⟩ := ready
  have entry : d.entries[i]? = some (entryFor b i) := by
    rw [h.entries, List.getElem?_map, List.getElem?_range lt]
    rfl
  have millis : (Move.submit i u).millis unitMs = ms := by
    simp only [Move.millis, time]
    rfl
  rw [millis] at h
  unfold Move.make
  dsimp only
  rw [time]
  cases b with
  | direct =>
      obtain ⟨owner, direct⟩ := entries_direct entry
      obtain ⟨e, done, site⟩ := Site.direct (w := workOf i u ms) rfl
        (easy_workOf i u ms) (Nat.zero_add k ▸ h) calendar direct
      refine ⟨e, ?_, (List.append_nil given).symm ▸ site⟩
      dsimp only
      rw [done]
      rfl
  | pooled n =>
      obtain ⟨p, pooled, -⟩ := entries_pooled entry
      obtain ⟨answer, site⟩ := Site.handed (w := workOf i u ms) rfl
        (easy_workOf i u ms) h pooled
      refine ⟨_, ?_, site⟩
      dsimp only
      rw [show d.submit i (workOf i u ms)
        = ((d.submit i (workOf i u ms)).1, .ok (.ok ())) from
          Prod.ext rfl answer]
      rfl

/-- A move that comes when it may goes well. -/
theorem make
    (h : Site G b a t given ((m.gives b).length + k)
      (m.millis unitMs + rest) d)
    (calendar : G.until a ≤ 8210266876799999 * 1000000 + 999999)
    (ready : m.Ready unitMs t) :
    ∃ e, m.make b unitMs d = (e, .ok ())
      ∧ Site G b a t (given ++ m.gives b) k rest e := by
  -- a move without numbers and time
  have plain {k' rest' : Nat} (k0 : k' = 0) (rest0 : rest' = 0)
      (h : Site G b a t given (k' + k) (rest' + rest) d) :
      Site G b a t given k rest d := by
    rw [k0, rest0, Nat.zero_add, Nat.zero_add] at h
    exact h
  cases m with
  | start i => exact ready.elim
  | await x =>
      obtain ⟨e, done, site, -⟩ := (plain rfl rfl h).await calendar x
      refine ⟨e, ?_, (List.append_nil given).symm ▸ site⟩
      unfold Move.make
      dsimp only
      rw [done]
      rfl
  | submit i u => exact h.submit calendar ready
  | release x =>
      exact ⟨_, rfl, (List.append_nil given).symm ▸
        (plain rfl rfl h).release x⟩
  | finish i =>
      exact ⟨_, rfl, (List.append_nil given).symm ▸
        (plain rfl rfl h).onLedger (.finishTask (pathOf i)) rfl rfl rfl rfl⟩
  | flush =>
      exact ⟨_, rfl, (List.append_nil given).symm ▸
        (plain rfl rfl h).onLedger .flush rfl rfl rfl rfl⟩
  | endBuild =>
      exact ⟨_, rfl, (List.append_nil given).symm ▸
        (plain rfl rfl h).onLedger .endBuild rfl rfl rfl rfl⟩

/-- Moves that come when they may go well, under every pace. -/
theorem makeMoves
    (h : Site G b a t given ((givenBy b ms).length + k)
      (millisOf unitMs ms + rest) d)
    (calendar : G.until a ≤ 8210266876799999 * 1000000 + 999999)
    (ready : ∀ m ∈ ms, m.Ready unitMs t) (pace : Pace) (n : Nat) :
    ∃ e, Simulate.makeMoves pace b unitMs n ms d = (e, .ok ())
      ∧ Site G b a t (given ++ givenBy b ms) k rest e := by
  induction ms generalizing given d n with
  | nil =>
      refine ⟨d, rfl, ?_⟩
      have h : Site G b a t given (0 + k) (0 + rest) d := h
      rw [Nat.zero_add, Nat.zero_add] at h
      exact (List.append_nil given).symm ▸ h
  | cons m ms ih =>
      obtain ⟨first, others⟩ := List.forall_mem_cons.mp ready
      have gives : givenBy b (m :: ms) = m.gives b ++ givenBy b ms :=
        List.flatMap_cons
      have millis : millisOf unitMs (m :: ms) + rest
          = m.millis unitMs + (millisOf unitMs ms + rest) :=
        Nat.add_assoc _ _ _
      rw [gives, List.length_append, Nat.add_assoc, millis] at h
      -- the pool is at work before the move is made
      obtain ⟨e, made, site⟩ :=
        (h.follow calendar (pace n)).make calendar first
      obtain ⟨e', done, site'⟩ := ih site others (n + 1)
      refine ⟨e', ?_, ?_⟩
      · unfold Simulate.makeMoves
        rw [made]
        exact done
      · rw [List.append_assoc, ← gives] at site'
        exact site'

-- ================================================================ one turn

/-- Where every unit is over, no schedule changes anything. -/
theorem follow_still
    (isOver : ∀ (u : UnitId) (s : Submitted), d.units[u]? = some s →
      s.phase.over = true) (schedule : List UnitId) :
    d.follow schedule = d := by
  have still (u : UnitId) : d.proceed u = d := by
    rcases proceed_cases u d with same | ⟨s, found, goesOn⟩
    · exact same
    · rw [isOver u s found] at goesOn
      cases goesOn
  induction schedule with
  | nil => rfl
  | cons u others ih =>
      show (d.proceed u).follow others = d
      rw [still, ih]

/-- A wait is a move, and leaves no unit on the way. -/
theorem waits (h : Site G b a t given k rest d)
    (calendar : G.until a ≤ 8210266876799999 * 1000000 + 999999)
    (x : ExecutorId) (pace : Pace) (unitMs n : Nat) :
    ∃ e, Simulate.makeMoves pace b unitMs n [.await x] d = (e, .ok ())
      ∧ Site G b a t given k rest e
      ∧ ∀ (u : UnitId) (s : Submitted), e.units[u]? = some s →
          s.phase.over = true := by
  obtain ⟨e, done, site, isOver⟩ :=
    (h.follow calendar (pace n)).await calendar x
  refine ⟨e, ?_, site, isOver⟩
  simp only [Simulate.makeMoves, Move.make]
  rw [done]
  rfl

/-- A task has its turn while no unit is on the way, and none is on the way
after it. -/
theorem turn {units : Nat}
    (h : Site G b a t given (crewSize b units + 1 + k) rest d)
    (isOver : ∀ (u : UnitId) (s : Submitted), d.units[u]? = some s →
      s.phase.over = true)
    (longest : G.longest = taskMillis unitMs units)
    (calendar : G.until d.ledger.now ≤ 8210266876799999 * 1000000 + 999999)
    (time : ∀ u < units, ∃ ms, unitTime unitMs u = .ok ms) (pace : Pace)
    (n : Nat) :
    ∃ e, Simulate.makeMoves pace b unitMs n (turnMoves units t) d
        = (e, .ok ())
      ∧ Site G b d.ledger.now (t + 1)
          (given ++ List.replicate (crewSize b units) t) k 0 e
      ∧ ∀ (u : UnitId) (s : Submitted), e.units[u]? = some s →
          s.phase.over = true := by
  have ready : Site G b d.ledger.now t given (1 + (crewSize b units + k))
      G.longest d := by
    have anew := h.anew isOver
    rwa [Nat.add_comm (crewSize b units) 1, Nat.add_assoc] at anew
  obtain ⟨d₁, started, site₁⟩ := ready.start unitMs
  -- the units take all of the time that was set aside for the task
  have body : Site G b d.ledger.now (t + 1) given
      ((givenBy b (bodyMoves units t)).length + k)
      (millisOf unitMs (bodyMoves units t) + 0) d₁ := by
    rw [givenBy_body, List.length_replicate, millisOf_body, Nat.add_zero,
      ← longest]
    exact site₁
  obtain ⟨d₂, made, site₂⟩ :=
    body.makeMoves calendar (ready_body time) pace (n + 1)
  rw [givenBy_body] at site₂
  obtain ⟨d₃, waited, site₃, isOver'⟩ := site₂.waits
    calendar t pace unitMs (n + 1 + (bodyMoves units t).length)
  refine ⟨d₃, ?_, site₃, isOver'⟩
  unfold turnMoves Simulate.makeMoves
  rw [follow_still isOver, started]
  dsimp only
  rw [makeMoves_append made]
  exact waited

/-- The tasks have their turns one after another, each in its own time. -/
theorem turns {tasks units : Nat}
    (h : Site G b a 0 [] (tasks * (crewSize b units + 1) + k) rest d)
    (isOver : ∀ (u : UnitId) (s : Submitted), d.units[u]? = some s →
      s.phase.over = true)
    (longest : G.longest = taskMillis unitMs units)
    (calendar : d.ledger.now.nanos
      + ((tasks * taskMillis unitMs units : Nat) : Int) * 1000000
        ≤ 8210266876799999 * 1000000 + 999999)
    (time : ∀ u < units, ∃ ms, unitTime unitMs u = .ok ms) (pace : Pace) :
    ∃ e a' rest', Simulate.makeMoves pace b unitMs 0
        ((List.range tasks).flatMap (turnMoves units)) d = (e, .ok ())
      ∧ Site G b a' tasks
          ((List.range tasks).flatMap (List.replicate (crewSize b units)))
          k rest' e
      ∧ (∀ (u : UnitId) (s : Submitted), e.units[u]? = some s →
          s.phase.over = true)
      ∧ e.ledger.now.nanos ≤ d.ledger.now.nanos
          + ((tasks * taskMillis unitMs units : Nat) : Int) * 1000000 := by
  induction tasks generalizing k with
  | zero =>
      refine ⟨d, a, rest, rfl, ?_, isOver, by omega⟩
      rwa [Nat.zero_mul, Nat.zero_add] at h
  | succ n ih =>
      rw [Nat.succ_mul, Nat.add_assoc] at h
      rw [Nat.succ_mul] at calendar
      obtain ⟨e, a', rest', made, site, isOver', now⟩ := ih h (by omega)
      have until_ : G.until e.ledger.now
          ≤ d.ledger.now.nanos + ((n * taskMillis unitMs units
            + taskMillis unitMs units : Nat) : Int) * 1000000 := by
        unfold Ground.until
        rw [longest]
        omega
      obtain ⟨e', turned, site', isOver''⟩ := site.turn isOver' longest
        (until_.trans calendar) time pace
        (0 + ((List.range n).flatMap (turnMoves units)).length)
      have now' := site'.onTime.now_le (Int.le_refl 0)
      refine ⟨e', e.ledger.now, 0, ?_, ?_, isOver'', ?_⟩
      · rw [List.range_succ, List.flatMap_append, List.flatMap_singleton,
          makeMoves_append made]
        exact turned
      · rw [List.range_succ, List.flatMap_append, List.flatMap_singleton]
        exact site'
      · rw [Nat.succ_mul]
        exact now'.trans until_

-- ============================================================== the build

/-- At the end of the build no task is left unwritten. -/
theorem ends (h : Site G b a t given k rest d)
    (isOver : ∀ (u : UnitId) (s : Submitted), d.units[u]? = some s →
      s.phase.over = true) (pace : Pace) (unitMs n : Nat) :
    ∃ e, Simulate.makeMoves pace b unitMs n [.flush, .endBuild] d
        = (e, .ok ())
      ∧ Site G b a t given k rest e ∧ e.units = d.units
      ∧ ∀ i < t, Ledger.Over i e.ledger := by
  have flushed := h.onLedger .flush rfl rfl rfl rfl
  have ended := flushed.onLedger .endBuild rfl rfl rfl rfl
  refine ⟨_, ?_, ended, rfl, fun i lt => ?_⟩
  · simp only [Simulate.makeMoves, Move.make]
    rw [follow_still isOver, follow_still (by exact isOver)]
    rfl
  · exact Ledger.endBuild_over (flushed.footing.held i lt)

/-- A build goes through. In the end every task that it started has its line,
and every unit that it gave out is over. -/
theorem build {tasks units : Nat}
    (h : Site G b a 0 [] (tasks * (crewSize b units + 1)) rest d)
    (isOver : ∀ (u : UnitId) (s : Submitted), d.units[u]? = some s →
      s.phase.over = true)
    (longest : G.longest = taskMillis unitMs units)
    (calendar : d.ledger.now.nanos
      + ((tasks * taskMillis unitMs units : Nat) : Int) * 1000000
        ≤ 8210266876799999 * 1000000 + 999999)
    (time : ∀ u < units, ∃ ms, unitTime unitMs u = .ok ms) (pace : Pace) :
    ∃ e a' rest', Simulate.makeMoves pace b unitMs 0 (moves tasks units) d
        = (e, .ok ())
      ∧ Site G b a' tasks
          ((List.range tasks).flatMap (List.replicate (crewSize b units)))
          0 rest' e
      ∧ (∀ (u : UnitId) (s : Submitted), e.units[u]? = some s →
          s.phase.over = true)
      ∧ ∀ i < tasks, Ledger.Over i e.ledger := by
  obtain ⟨d₁, a', rest', made, site₁, isOver₁, -⟩ :=
    turns (k := 0) h isOver longest calendar time pace
  obtain ⟨e, done, site, units', written⟩ := site₁.ends isOver₁ pace unitMs
    (0 + ((List.range tasks).flatMap (turnMoves units)).length)
  refine ⟨e, a', rest', ?_, site,
    fun u s found => isOver₁ u s (units' ▸ found), written⟩
  rw [moves_turns, makeMoves_append made]
  exact done

end Site

end TaskLedger
