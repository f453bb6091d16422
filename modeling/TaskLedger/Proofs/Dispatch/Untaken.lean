/-
To the ledger, a unit that is dropped is one that no thread ever takes.

A pool that stops drops its queue and whatever is submitted later. A dropped
unit is counted off by its executor, and that is all that becomes of it: the
ledger hears nothing. `Untaken` puts two dispatches side by side, one with the
dropped units and one that still has them in its queue and whose pool is
alive. Whatever happens to the first one happens to the second one in an
ordinary run (`untaken_run`), and their ledgers are the same. So what is known
of ordinary runs tells what a run with stops leaves in the ledger.
-/
import TaskLedger.Proofs.Dispatch.Idle
import TaskLedger.Proofs.Dispatch.Progress
import TaskLedger.Proofs.Dispatch.Moves

namespace TaskLedger

-- ================================================================ dropping

namespace DispatchOp

/-- The workers are left to the pool, which may stop. -/
def stoppable (op : DispatchOp) (d : Dispatch) : Bool :=
  match op with
  | stop => true
  | op => op.ordinary d

/-- A run of such operations. -/
def Stoppable : List DispatchOp → Dispatch → Bool
  | [], _ => true
  | op :: rest, d => op.stoppable d && Stoppable rest (op.apply d).1

/-- The units that an operation drops: a stopped pool drops what is queued
when its turn comes, and what is submitted at once. -/
def drops (op : DispatchOp) (d : Dispatch) : List UnitId :=
  match op with
  | proceed u =>
      if d.stopped && d.units[u]?.any fun s => s.phase == .queued then [u]
      else []
  | submit x _ =>
      if d.stopped && (d.pooled? x).isSome then [d.units.size] else []
  | _ => []

/-- The units that a run drops. -/
def dropped : List DispatchOp → Dispatch → List UnitId
  | [], _ => []
  | op :: rest, d => op.drops d ++ dropped rest (op.apply d).1

/-- A run in which the pool may stop may be cut in two anywhere. -/
theorem stoppable_append (ops more : List DispatchOp) (d : Dispatch) :
    Stoppable (ops ++ more) d
      = (Stoppable ops d && Stoppable more (run ops d).1) := by
  induction ops generalizing d with
  | nil => rfl
  | cons op rest ih =>
      show (_ && Stoppable (rest ++ more) _) = (_ && _ && Stoppable more _)
      rw [ih, Bool.and_assoc]
      rfl

end DispatchOp

namespace Dispatch

variable {d e : Dispatch} {us : List UnitId} {x : ExecutorId} {u : UnitId}
  {s : Submitted} {p : PooledState}

-- =============================================================== executors

/-- An executor without what it counts and collects. -/
def coreOf : Executor → Executor
  | .pooled p => .pooled { p with outstanding := 0, failures := [] }
  | .direct owner => .direct owner

/-- The executors without that. -/
def cores (d : Dispatch) : Array Executor := d.executors.map coreOf

/-- What changes an executor, as far as it is seen. -/
theorem cores_onPooled {f : PooledState → PooledState}
    {g : Executor → Executor}
    (pooled : ∀ p, coreOf (.pooled (f p)) = g (coreOf (.pooled p)))
    (direct : ∀ owner, g (.direct owner) = .direct owner) (x : ExecutorId)
    (d : Dispatch) : (d.onPooled x f).cores = d.cores.modify x g := by
  refine Array.ext_getElem? fun y => ?_
  simp only [cores, onPooled, Array.getElem?_map, Array.getElem?_modify]
  split
  · cases d.executors[y]? with
    | none => rfl
    | some e =>
        cases e with
        | direct owner => exact congrArg some (direct owner).symm
        | pooled p => exact congrArg some (pooled p)
  · rfl

/-- Counting and collecting is not seen. -/
theorem cores_counting {f : PooledState → PooledState}
    (keep : ∀ p, coreOf (.pooled (f p)) = coreOf (.pooled p))
    (x : ExecutorId) (d : Dispatch) : (d.onPooled x f).cores = d.cores := by
  rw [cores_onPooled (g := id) keep fun _ => rfl]
  refine Array.ext_getElem? fun y => ?_
  rw [Array.getElem?_modify]
  split
  · exact congrFun Option.map_id _
  · rfl

/-- Counting a unit off does not change the core of its executor. -/
theorem cores_countOff (x : ExecutorId) (failure : Option String)
    (d : Dispatch) : (d.countOff x failure).cores = d.cores :=
  cores_counting (f := credited failure) (fun _ => rfl) x d

/-- Nor does any other step that a unit takes. -/
theorem cores_proceed (u : UnitId) (d : Dispatch) :
    (d.proceed u).cores = d.cores := by
  unfold proceed
  cases d.units[u]? with
  | none => rfl
  | some s =>
  dsimp only
  cases s.phase with
  | queued =>
      dsimp only
      split
      · exact cores_countOff _ _ d
      · rfl
  | begun w =>
      obtain ⟨l, -, he⟩ := perform_passage s.work d
      dsimp only
      rw [he]
      rfl
  | ran w failure => rfl
  | ended w failure =>
      dsimp only
      split <;> rfl
  | reported failure =>
      cases failure with
      | none => exact cores_countOff _ _ d
      | some cause => exact cores_countOff _ _ (d.onLedger _)
  | faulted => exact cores_countOff _ _ d
  | completed | abandoned => rfl

/-- The end of a wait is not seen, and touches nothing else. -/
theorem endAwait_executors (x : ExecutorId) (d : Dispatch) :
    ∃ executors, ((DispatchOp.endAwait x).apply d).1 = { d with executors }
      ∧ cores { d with executors } = d.cores := by
  simp only [DispatchOp.apply, endAwait]
  cases d.pooled? x with
  | none => exact ⟨d.executors, rfl, rfl⟩
  | some p =>
      dsimp only
      by_cases idle : p.outstanding = 0
      · rw [if_pos idle]
        exact ⟨_, rfl, cores_counting (f := cleared) (fun _ => rfl) x d⟩
      · rw [if_neg idle]
        exact ⟨d.executors, rfl, rfl⟩

/-- Of two dispatches with such executors, a place has a pooled one in both
or in neither. -/
theorem core_cases (same : e.cores = d.cores) (x : ExecutorId) :
    (d.pooled? x = none ∧ e.pooled? x = none
        ∧ e.executors[x]? = d.executors[x]?)
      ∨ ∃ p q, d.executors[x]? = some (.pooled p)
          ∧ e.executors[x]? = some (.pooled q) ∧ q.entry = p.entry
          ∧ ∀ w, unitOf x q w = unitOf x p w := by
  have here : e.executors[x]?.map coreOf = d.executors[x]?.map coreOf := by
    rw [← Array.getElem?_map, ← Array.getElem?_map]
    exact congrArg (·[x]?) same
  unfold pooled?
  cases hd : d.executors[x]? with
  | none =>
      rw [hd] at here
      have he := Option.map_eq_none_iff.mp here
      rw [he]
      exact .inl ⟨rfl, rfl, rfl⟩
  | some c =>
      rw [hd] at here
      obtain ⟨c', he, core⟩ := Option.map_eq_some_iff.mp here
      rw [he]
      cases c with
      | direct owner =>
          cases c' with
          | direct owner' => cases core; exact .inl ⟨rfl, rfl, rfl⟩
          | pooled q => cases core
      | pooled p =>
          cases c' with
          | direct owner' => cases core
          | pooled q =>
              cases p with | mk owner entry sequence =>
              cases q with | mk owner' entry' sequence' =>
              cases core
              exact .inr ⟨_, _, rfl, rfl, rfl, fun _ => rfl⟩

-- ================================================================= untaken

/-- A dispatch, and what it would be if its pool were alive and the units
that were dropped still in the queue. -/
structure Untaken (us : List UnitId) (d e : Dispatch) : Prop where
  live : e.stopped = false
  ledger : e.ledger = d.ledger
  executors : e.cores = d.cores
  size : e.units.size = d.units.size
  kept : ∀ {u : UnitId}, u ∉ us → e.units[u]? = d.units[u]?
  dropped : ∀ {u : UnitId}, u ∈ us → ∃ s : Submitted,
    d.units[u]? = some { s with phase := .abandoned }
      ∧ e.units[u]? = some { s with phase := .queued }

/-- As long as no unit was dropped, there is nothing to tell the two apart. -/
theorem Untaken.refl (live : d.stopped = false) : Untaken [] d d where
  live := live
  ledger := rfl
  executors := rfl
  size := rfl
  kept := fun _ => rfl
  dropped := fun mem => by cases mem

/-- What moves no unit and no executor does not touch it. -/
theorem Untaken.beside (h : Untaken us d e) (l : Ledger)
    {ran ran' : List String} {stopped : Bool} :
    Untaken us { d with ledger := l, ran, stopped }
      { e with ledger := l, ran := ran' } :=
  ⟨h.live, rfl, h.executors, h.size, h.kept, h.dropped⟩

/-- Executors may count and keep what they like on either side, if their cores
are the same. -/
theorem Untaken.executed (h : Untaken us d e)
    {executors executors' : Array Executor}
    (same : executors'.map coreOf = executors.map coreOf) :
    Untaken us { d with executors } { e with executors := executors' } :=
  ⟨h.live, h.ledger, same, h.size, h.kept, h.dropped⟩

/-- What an executor says to its owner's task. -/
theorem Untaken.said (h : Untaken us d e) (x : ExecutorId)
    (f : TaskId → Ledger → Ledger) :
    Untaken us
      (match d.pooled? x with
        | some p => d.onLedger (Ledger.OnEntry.does p.entry f)
        | none => d)
      (match e.pooled? x with
        | some p => e.onLedger (Ledger.OnEntry.does p.entry f)
        | none => e) := by
  rcases core_cases h.executors x with ⟨none, none', -⟩
      | ⟨p, q, hd, he, entry, -⟩
  · rw [none, none']
    exact h
  · have pooled : d.pooled? x = some p ∧ e.pooled? x = some q := by
      unfold pooled?
      rw [hd, he]
      exact ⟨rfl, rfl⟩
    rw [pooled.1, pooled.2]
    dsimp only [onLedger]
    rw [entry, h.ledger]
    exact h.beside _

/-- A unit of either one is a unit of the other one. -/
theorem Untaken.unit (h : Untaken us d e) (found : d.units[u]? = some s) :
    ∃ p, e.units[u]? = some { s with phase := p }
      ∧ (u ∉ us → p = s.phase)
      ∧ (u ∈ us → p = .queued ∧ s.phase = .abandoned) := by
  by_cases mem : u ∈ us
  · obtain ⟨s', hd, he⟩ := h.dropped mem
    rw [hd] at found
    obtain rfl := Option.some.inj found
    exact ⟨.queued, he, fun other => absurd mem other, fun _ => ⟨rfl, rfl⟩⟩
  · exact ⟨s.phase, by rw [h.kept mem, found], fun _ => rfl,
      fun mem' => absurd mem' mem⟩

/-- A unit that is queued on the one side is there on the other, where it may
have been dropped. -/
theorem Untaken.unit_back (h : Untaken us d e)
    (found : e.units[u]? = some s) :
    ∃ p, d.units[u]? = some { s with phase := p } := by
  by_cases mem : u ∈ us
  · obtain ⟨s', hd, he⟩ := h.dropped mem
    rw [he] at found
    obtain rfl := Option.some.inj found
    exact ⟨.abandoned, hd⟩
  · exact ⟨s.phase, by rw [← h.kept mem, found]⟩

/-- To drop a unit is to leave it in the queue. -/
theorem Untaken.drop (h : Untaken us d e) (stopped : d.stopped = true)
    (found : d.units[u]? = some s) (queued : s.phase = .queued) :
    Untaken (us ++ [u]) (d.proceed u) e := by
  have fresh : u ∉ us := by
    intro mem
    obtain ⟨s', hd, -⟩ := h.dropped mem
    rw [found] at hd
    obtain rfl := Option.some.inj hd
    cases queued
  have units : (d.proceed u).units = (d.setPhase u .abandoned).units := by
    unfold proceed
    rw [found]
    dsimp only
    rw [queued]
    dsimp only
    rw [if_pos stopped]
    rfl
  refine ⟨h.live, ?_, ?_, ?_, ?_, ?_⟩
  · rw [proceed_stopped stopped found queued, h.ledger]
  · rw [cores_proceed, h.executors]
  · rw [proceed_size, h.size]
  · intro v other
    obtain ⟨other, ne⟩ := not_or.mp (mt List.mem_append.mpr other)
    rw [units, setPhase_other fun same => ne (List.mem_singleton.mpr same)]
    exact h.kept other
  · intro v mem
    rw [units]
    rcases List.mem_append.mp mem with mem | own
    · obtain ⟨s', hd, he⟩ := h.dropped mem
      have ne : v ≠ u := fun same => fresh (same ▸ mem)
      exact ⟨s', by rw [setPhase_other ne, hd], he⟩
    · obtain rfl := List.mem_singleton.mp own
      refine ⟨s, setPhase_self found _, ?_⟩
      rw [h.kept fresh, found, ← queued]

/-- What running a unit comes to does not depend on the units. -/
theorem perform_answer (ledger : e.ledger = d.ledger) (w : Work) :
    (e.perform w).2 = (d.perform w).2 := by
  unfold perform
  dsimp only
  rw [ledger]
  split <;> rfl

/-- A unit that no pool has dropped makes the same step in both. -/
theorem Untaken.proceed_units (h : Untaken us d e) (other : u ∉ us)
    (found : d.units[u]? = some s)
    (goesOn : s.phase.over = false)
    (awake : s.phase = .queued → d.stopped = false) :
    ∃ p, (d.proceed u).units = (d.setPhase u p).units
      ∧ (e.proceed u).units = (e.setPhase u p).units := by
  have found' : e.units[u]? = some s := by rw [h.kept other, found]
  unfold proceed
  rw [found, found']
  dsimp only
  cases phase : s.phase with
  | queued =>
      dsimp only
      rw [if_neg (by rw [awake phase]; exact Bool.false_ne_true),
        if_neg (by rw [h.live]; exact Bool.false_ne_true), h.ledger]
      exact ⟨_, rfl, rfl⟩
  | begun w =>
      obtain ⟨l, -, hd⟩ := perform_passage s.work d
      obtain ⟨m, -, he⟩ := perform_passage s.work e
      dsimp only
      rw [perform_answer h.ledger, hd, he]
      exact ⟨_, rfl, rfl⟩
  | ran w failure => exact ⟨_, rfl, rfl⟩
  | ended w failure =>
      dsimp only
      rw [h.ledger]
      split
      · exact ⟨_, rfl, rfl⟩
      · exact ⟨_, rfl, rfl⟩
  | reported failure => cases failure <;> exact ⟨_, rfl, rfl⟩
  | faulted => exact ⟨_, rfl, rfl⟩
  | completed | abandoned => rw [phase] at goesOn; cases goesOn

/-- A step of a unit that was not dropped is the same step on both sides. A
queued unit is taken up on either, since it is there that a stopped pool would
drop it. -/
theorem Untaken.proceed (h : Untaken us d e) (other : u ∉ us)
    (awake : ∀ s : Submitted, d.units[u]? = some s → s.phase = .queued →
      d.stopped = false) :
    Untaken us (d.proceed u) (e.proceed u) := by
  cases found : d.units[u]? with
  | none =>
      have found' : e.units[u]? = none := by rw [h.kept other, found]
      unfold Dispatch.proceed
      rw [found, found']
      exact h
  | some s =>
  have found' : e.units[u]? = some s := by rw [h.kept other, found]
  cases isOver : s.phase.over with
  | true =>
      rw [proceed_over found isOver, proceed_over found' isOver]
      exact h
  | false =>
  -- the unit goes on, and where it is queued, the pool is alive on both sides
  have awake := awake s found
  obtain ⟨p, hd, he⟩ := h.proceed_units other found isOver awake
  refine ⟨?_, ?_, ?_, ?_, ?_, ?_⟩
  · rw [(turn_proceed h.live u).stopped, h.live]
  -- the operations on the ledger are the same, and so are their answers
  · have moves : (DispatchOp.proceed u).moves e
        = (DispatchOp.proceed u).moves d := by
      simp only [DispatchOp.moves, found, found', h.ledger, h.live]
      cases phase : s.phase with
      | queued => rw [awake phase]
      | _ => rfl
    have noticed : (DispatchOp.proceed u).noticed e
        = (DispatchOp.proceed u).noticed d := by
      simp only [DispatchOp.noticed, found, found', h.ledger, h.live]
      cases phase : s.phase with
      | queued => rw [awake phase]
      | reported failure => cases failure <;> rfl
      | _ => rfl
    rw [proceed_ledger, proceed_ledger, moves, noticed]
  · rw [cores_proceed, cores_proceed, h.executors]
  · rw [proceed_size, proceed_size, h.size]
  · intro v mem
    rw [hd, he, getElem?_setPhase, getElem?_setPhase, h.kept mem]
  · intro v mem
    have ne : v ≠ u := by rintro rfl; exact other mem
    rw [hd, he, setPhase_other ne, setPhase_other ne]
    exact h.dropped mem

/-- A dispatch whose executor was given one more unit. -/
def handed (x : ExecutorId) (p : PooledState) (w : Work) (d : Dispatch) :
    Dispatch :=
  { d with
    ledger := Ledger.OnEntry.does p.entry
      (fun t => Ledger.enlist t (p.nextKey w) .worker) d.ledger
    executors := (d.onPooled x charged).executors
    units := d.units.push (unitOf x p w) }

/-- A unit that is handed to a pool is queued, and dropped at once if the pool
was stopped. -/
theorem submit_pooled (found : d.executors[x]? = some (.pooled p))
    (w : Work) :
    (d.submit x w).1
      = if d.stopped then (d.handed x p w).proceed d.units.size
        else d.handed x p w := by
  unfold submit
  rw [found]
  rfl

/-- Without a pooled executor no unit comes. -/
theorem submit_aside (none : d.pooled? x = none) (w : Work) :
    ∃ l ran, (d.submit x w).1 = { d with ledger := l, ran } := by
  unfold submit
  cases found : d.executors[x]? with
  | none => exact ⟨d.ledger, d.ran, rfl⟩
  | some c =>
      cases c with
      | pooled p =>
          unfold pooled? at none
          rw [found] at none
          cases none
      | direct owner =>
          obtain ⟨l, -, he⟩ := perform_passage w d
          dsimp only
          split
          · next h => rw [h] at he; exact ⟨_, _, he⟩
          · next h => rw [h] at he; exact ⟨_, _, he⟩
          · next h => rw [h] at he; exact ⟨_, _, he⟩

/-- A unit that comes, as both see it. -/
theorem Untaken.handed (h : Untaken us d e) (x : ExecutorId) {q : PooledState}
    (w : Work) (entry : q.entry = p.entry)
    (same : unitOf x q w = unitOf x p w) :
    Untaken us (d.handed x p w) (e.handed x q w) where
  live := h.live
  ledger := by
    have key : q.nextKey w = p.nextKey w := congrArg Submitted.key same
    unfold Dispatch.handed
    rw [h.ledger, entry, key]
  executors := by
    let bump : Executor → Executor
      | .pooled p => .pooled { p with sequence := p.sequence + 1 }
      | .direct owner => .direct owner
    have seen (d : Dispatch) : (d.onPooled x charged).cores
        = d.cores.modify x bump :=
      cores_onPooled (g := bump) (fun _ => rfl) (fun _ => rfl) x d
    show (e.onPooled x charged).cores = (d.onPooled x charged).cores
    rw [seen, seen, h.executors]
  size := by
    simp only [Dispatch.handed, Array.size_push, h.size]
  kept := by
    intro u other
    simp only [Dispatch.handed, Array.getElem?_push, h.size, h.kept other,
      same]
  dropped := by
    intro u mem
    obtain ⟨s', hd, he⟩ := h.dropped mem
    exact ⟨s', push_old hd, push_old he⟩

/-- A submission brings the same unit to both, and a pool that has stopped
drops it at once. -/
theorem Untaken.submit (h : Untaken us d e) (x : ExecutorId) (w : Work) :
    Untaken (us ++ (DispatchOp.submit x w).drops d) (d.submit x w).1
      (e.submit x w).1 := by
  rcases core_cases h.executors x with ⟨none, none', aside⟩
      | ⟨p, q, hd, he, entry, same⟩
  · have moves : (DispatchOp.submit x w).moves e
        = (DispatchOp.submit x w).moves d := by
      simp only [DispatchOp.moves, aside]
    have ledger : (e.submit x w).1.ledger = (d.submit x w).1.ledger := by
      rw [submit_ledger, submit_ledger, moves, h.ledger]
    have nothing : (DispatchOp.submit x w).drops d = [] := by
      simp [DispatchOp.drops, none]
    obtain ⟨l, ran, later⟩ := submit_aside none w
    obtain ⟨m, ran', later'⟩ := submit_aside none' w
    rw [later, later'] at ledger
    obtain rfl : m = l := ledger
    rw [nothing, List.append_nil, later, later']
    exact h.beside m
  · have pooled : d.pooled? x = some p := by unfold pooled?; rw [hd]
    have both := h.handed x w entry (same w)
    rw [submit_pooled hd, submit_pooled he, h.live, if_neg Bool.false_ne_true]
    cases stopped : d.stopped with
    | false =>
        have nothing : (DispatchOp.submit x w).drops d = [] := by
          simp [DispatchOp.drops, stopped]
        rw [if_neg Bool.false_ne_true, nothing, List.append_nil]
        exact both
    | true =>
        have one : (DispatchOp.submit x w).drops d = [d.units.size] := by
          simp [DispatchOp.drops, stopped, pooled]
        rw [if_pos rfl, one]
        exact both.drop (u := d.units.size) stopped
          Array.getElem?_push_size rfl

/-- What happens to a dispatch that drops units happens, in an ordinary run
of no or one operation, to the one that does not. -/
theorem Untaken.apply {op : DispatchOp} (h : Untaken us d e)
    (stoppable : op.stoppable d = true) :
    ∃ quiet, DispatchOp.Ordinary quiet e = true
      ∧ Untaken (us ++ op.drops d) (op.apply d).1
          (DispatchOp.run quiet e).1 := by
  have one (ordinary : op.ordinary e = true)
      (both : Untaken (us ++ op.drops d) (op.apply d).1 (op.apply e).1) :
      ∃ quiet, DispatchOp.Ordinary quiet e = true
        ∧ Untaken (us ++ op.drops d) (op.apply d).1
            (DispatchOp.run quiet e).1 := by
    refine ⟨[op], ?_, both⟩
    show (op.ordinary e && true) = true
    rw [ordinary]
    rfl
  -- what the pool does on the one side it does on the other, but for the units
  -- that it drops
  cases op with
  | onLedger op =>
      refine one stoppable ?_
      simp only [DispatchOp.drops, DispatchOp.apply, List.append_nil,
        h.ledger]
      exact h.beside _
  | addExecutor c =>
      refine one ?_ ?_
      · cases c with
        | direct => rfl
        | pooled p =>
            show DispatchOp.freshFor p e.ledger = true
            rw [h.ledger]
            exact stoppable
      · simp only [DispatchOp.drops, List.append_nil]
        refine h.executed ?_
        simp only [Array.map_push]
        exact congrArg (·.push (coreOf c)) h.executors
  | submit x w => exact one rfl (h.submit x w)
  | proceed u =>
      -- a unit that was dropped takes no step, so there is none on the other
      -- side
      by_cases mem : u ∈ us
      · obtain ⟨s, hd, -⟩ := h.dropped mem
        refine ⟨[], rfl, ?_⟩
        have nothing : (DispatchOp.proceed u).drops d = [] := by
          simp [DispatchOp.drops, hd]
        show Untaken _ (d.proceed u) e
        rw [nothing, List.append_nil, proceed_over hd rfl]
        exact h
      -- a unit that is dropped now stays queued there
      · by_cases taken : (d.stopped
            && d.units[u]?.any fun s => s.phase == .queued) = true
        · obtain ⟨stopped, queued⟩ := Bool.and_eq_true_iff.mp taken
          obtain ⟨s, found, queued⟩ := (Option.any_eq_true _ _).mp queued
          refine ⟨[], rfl, ?_⟩
          simp only [DispatchOp.drops, if_pos taken]
          exact h.drop stopped found (eq_of_beq queued)
        · refine one rfl ?_
          simp only [DispatchOp.drops, if_neg taken, List.append_nil]
          refine h.proceed mem fun s found queued => ?_
          cases stopped : d.stopped with
          | false => rfl
          | true => exact absurd (by simp [stopped, found, queued]) taken
  | beginAwait x =>
      refine one rfl ?_
      simp only [DispatchOp.drops, List.append_nil]
      exact h.said x Ledger.await
  | endAwait x =>
      refine one rfl ?_
      obtain ⟨c, hd, seen⟩ := endAwait_executors x d
      obtain ⟨c', he, seen'⟩ := endAwait_executors x e
      rw [hd, he]
      simp only [DispatchOp.drops, List.append_nil]
      exact h.executed (seen'.trans (h.executors.trans seen.symm))
  | release x =>
      refine one rfl ?_
      simp only [DispatchOp.drops, List.append_nil]
      exact h.said x Ledger.close
  | stop =>
      refine ⟨[], rfl, ?_⟩
      simp only [DispatchOp.drops, List.append_nil]
      exact ⟨h.live, h.ledger, h.executors, h.size, h.kept, h.dropped⟩

/-- A run that drops units is, to the ledger, an ordinary run in which no
thread takes them. -/
theorem untaken_run (ops : List DispatchOp) (h : Untaken us d e)
    (stoppable : DispatchOp.Stoppable ops d = true) :
    ∃ quiet, DispatchOp.Ordinary quiet e = true
      ∧ Untaken (us ++ DispatchOp.dropped ops d) (DispatchOp.run ops d).1
          (DispatchOp.run quiet e).1 := by
  induction ops generalizing us d e with
  | nil => exact ⟨[], rfl, (List.append_nil us).symm ▸ h⟩
  | cons op rest ih =>
      obtain ⟨first, others⟩ := Bool.and_eq_true_iff.mp stoppable
      obtain ⟨quiet, ordinary, here⟩ := h.apply first
      obtain ⟨more, ordinary', later⟩ := ih here others
      refine ⟨quiet ++ more, ?_, ?_⟩
      · rw [ordinary_append, ordinary, ordinary']
        rfl
      · rw [DispatchOp.run_append, DispatchOp.dropped, ← List.append_assoc]
        exact later

end Dispatch

end TaskLedger
