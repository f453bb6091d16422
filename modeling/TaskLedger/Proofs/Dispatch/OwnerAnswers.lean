/-
What the owner of a pooled executor is answered.

An owner hands in units, gives control back and waits (`Call`). If what each
unit comes to is its own affair, then so is what the owner is told: a wait that
is over tells of the units handed in since the last one, and of nothing else
(`expected`). The pool's threads decide the order of the causes and no more.

What carries this is that the causes that an executor keeps, together with those
that its units on the way will come to, are what it owes its owner (`Owes`).
Every turn keeps that, except where a unit is given up. No unit is while the
sink of its task has numbers, and none that belongs to no task ever is
(`Plain`), so the books of the owner do not show in what it is answered
(`answered`).
-/
import TaskLedger.Proofs.Dispatch.Backends
import TaskLedger.Proofs.Dispatch.Schedules
import TaskLedger.Proofs.Dispatch.Shutdown

namespace TaskLedger

-- =================================================================== calls

/-- What an owner calls its executor for. -/
inductive Call
  | submit (w : Work)
  | close
  /-- A wait, once it is over. -/
  | await
  deriving DecidableEq, Repr

namespace DispatchOp

open Dispatch

/-- The call of the owner of an executor that an operation ends, if it is a
pooled one. -/
def call? (x : ExecutorId) (op : DispatchOp) (d : Dispatch) : Option Call :=
  if (d.pooled? x).isNone then none
  else
    match op with
    | submit y w => if y = x then some (.submit w) else none
    | release y => if y = x then some .close else none
    | endAwait y =>
        if y = x ∧ (d.endAwait x).isSome then some .await else none
    | _ => none

/-- The calls of a run, in order. -/
def calls (x : ExecutorId) : List DispatchOp → Dispatch → List Call
  | [], _ => []
  | op :: rest, d =>
      (op.call? x d).toList ++ calls x rest (op.apply d).1

/-- What came of them. -/
def replies (x : ExecutorId) :
    List DispatchOp → Dispatch → List (Except Fault DispatchAnswer)
  | [], _ => []
  | op :: rest, d =>
      (op.call? x d).toList.map (fun _ => (op.apply d).2)
        ++ replies x rest (op.apply d).1

/-- What a wait tells of some causes. -/
def telling (causes : List String) : Except Error Unit :=
  if causes.isEmpty then .ok () else .error (.workers causes)

/-- What is to come of calls if every unit comes to its fate; some units were
handed in since the last wait. -/
def expected (fate : Work → Option String) :
    List Call → List Work → List (Except Fault DispatchAnswer)
  | [], _ => []
  | .submit w :: rest, since =>
      .ok (.submitted (.ok ())) :: expected fate rest (since ++ [w])
  | .close :: rest, since => .ok .done :: expected fate rest since
  | .await :: rest, since =>
      .ok (.awaited (telling (since.filterMap fate)))
        :: expected fate rest []

/-- The same, but for the order of causes. -/
inductive Agree : Except Fault DispatchAnswer → Except Fault DispatchAnswer →
    Prop
  | same (a : Except Fault DispatchAnswer) : Agree a a
  | awaited {r r' : Except Error Unit} (reordered : Reordered r r') :
      Agree (.ok (.awaited r)) (.ok (.awaited r'))

/-- A unit that an operation runs for an executor comes to its fate. -/
def fated (fate : Work → Option String) (x : ExecutorId) (op : DispatchOp)
    (d : Dispatch) : Bool :=
  (op.runs? x d).all fun w => failureOf w.action (d.perform w).2 == fate w

end DispatchOp

/-- A list of causes in another order is in another order the other way round.
-/
theorem Reordered.symm {r r' : Except Error Unit} (h : Reordered r r') :
    Reordered r' r := by
  cases h with
  | ok => exact .ok
  | failed perm => exact .failed perm.symm

/-- To be in another order twice is to be in another order. -/
theorem Reordered.trans {r r' r'' : Except Error Unit} (h : Reordered r r')
    (h' : Reordered r' r'') : Reordered r r'' := by
  cases h with
  | ok => exact h'
  | failed perm =>
      cases h' with
      | failed perm' => exact .failed (perm.trans perm')

/-- Causes in another order are told in another order. -/
theorem reordered_telling {causes causes' : List String}
    (perm : causes.Perm causes') :
    Reordered (DispatchOp.telling causes) (DispatchOp.telling causes') := by
  unfold DispatchOp.telling
  cases causes with
  | nil =>
      rw [List.nil_perm.mp perm]
      exact .ok
  | cons cause rest =>
      cases causes' with
      | nil => exact absurd perm.symm (List.nil_perm.not.mpr (by simp))
      | cons cause' rest' => exact .failed perm

namespace DispatchOp

/-- Answers agree either way round. -/
theorem Agree.symm {a b : Except Fault DispatchAnswer} (h : Agree a b) :
    Agree b a := by
  cases h with
  | same => exact .same _
  | awaited reordered => exact .awaited reordered.symm

/-- Answers that agree with one answer agree. -/
theorem Agree.trans {a b c : Except Fault DispatchAnswer} (h : Agree a b)
    (h' : Agree b c) : Agree a c := by
  cases h with
  | same => exact h'
  | awaited reordered =>
      cases h' with
      | same => exact .awaited reordered
      | awaited more => exact .awaited (reordered.trans more)

theorem agree_symm {as bs : List (Except Fault DispatchAnswer)}
    (h : List.Forall₂ Agree as bs) : List.Forall₂ Agree bs as :=
  h.flip.imp fun _ _ agree => agree.symm

theorem agree_trans {as bs cs : List (Except Fault DispatchAnswer)}
    (h : List.Forall₂ Agree as bs) (h' : List.Forall₂ Agree bs cs) :
    List.Forall₂ Agree as cs := by
  induction h generalizing cs with
  | nil => exact h'
  | cons agree _ ih =>
      cases h' with
      | cons agree' more => exact .cons (agree.trans agree') (ih more)

end DispatchOp

namespace Dispatch

open DispatchOp

variable {fate : Work → Option String} {x : ExecutorId} {since : List Work}
  {d d' : Dispatch} {n : Nat} {evs : List Event} {u : UnitId} {s : Submitted}

-- ================================================================= waiting

/-- A wait is over once every unit of the executor is. -/
theorem Counted.endAwait_iff (h : Counted d) :
    (d.endAwait x).isSome = true ↔ Through x d := by
  refine ⟨h.through, fun through => ?_⟩
  cases pooled : d.pooled? x with
  | none =>
      unfold endAwait
      rw [pooled]
      rfl
  | some p => exact (Tallied.endAwait_iff h.count pooled).mpr through

-- =================================================================== owing

/-- An element of a list is changed. -/
theorem flatMap_modify {α β : Type} {f : α → α} {g : α → List β} {l : List α}
    {i : Nat} {a : α} (found : l[i]? = some a) :
    ((l.modify i f).flatMap g ++ g a).Perm (l.flatMap g ++ g (f a)) := by
  induction l generalizing i with
  | nil => cases found
  | cons b rest ih =>
      cases i with
      | zero =>
          obtain rfl : b = a := Option.some.inj found
          rw [List.modify_zero_cons, List.flatMap_cons, List.flatMap_cons,
            List.append_assoc, List.append_assoc]
          refine (List.perm_append_comm).trans ?_
          rw [List.append_assoc]
          exact List.perm_append_comm_assoc _ _ _
      | succ i =>
          rw [List.modify_succ_cons, List.flatMap_cons, List.flatMap_cons,
            List.append_assoc, List.append_assoc]
          exact (ih found).append_left _

/-- The cause that an executor's unit on the way will come to. -/
def owed (fate : Work → Option String) (x : ExecutorId) (s : Submitted) :
    List String :=
  if open_ x s then (fate s.work).toList else []

/-- As long as a unit of an executor goes on, its owner is still to be told what
it comes to. -/
theorem owed_open (own : s.executor = x) (goesOn : s.phase.over = false) :
    owed fate x s = (fate s.work).toList :=
  if_pos (by simp [open_, own, goesOn])

/-- The owner of another executor is not. -/
theorem owed_other (other : s.executor ≠ x) : owed fate x s = [] :=
  if_neg (by simp [open_, other])

/-- Nor is anybody told of a unit that is over. -/
theorem owed_over (isOver : s.phase.over = true) : owed fate x s = [] :=
  if_neg (by simp [open_, isOver])

/-- The causes that an executor keeps and those that its units on the way will
come to are what it owes its owner for the units handed in since the last
wait. -/
structure Owes (fate : Work → Option String) (x : ExecutorId)
    (since : List Work) (d : Dispatch) : Prop where
  counted : Counted d
  come : ∀ {u : UnitId} {s : Submitted} {failure : Option String},
    d.units[u]? = some s → s.executor = x →
    s.phase.outcome? = some failure → failure = fate s.work
  kept : (d.failuresAt x ++ d.units.toList.flatMap (owed fate x)).Perm
    (since.filterMap fate)

/-- Where no unit was handed in, nobody is to be told anything. -/
theorem Blank.owes (h : d.Blank) : Owes fate x [] d where
  counted := h.counted
  come := by
    intro u s failure found
    rw [h.units] at found
    cases found
  kept := by
    unfold failuresAt
    rw [h.pooled?, h.units]
    exact .nil

/-- The units that were handed in since the last wait, after some events. -/
def handedIn (x : ExecutorId) : List Event → List Work → List Work
  | [], since => since
  | .submitted y w :: rest, since =>
      handedIn x rest (if y = x then since ++ [w] else since)
  | .told y _ :: rest, since => handedIn x rest (if y = x then [] else since)
  | _ :: rest, since => handedIn x rest since

/-- A unit goes on. -/
theorem owed_setPhase (fate : Work → Option String) (x : ExecutorId)
    (found : d.units[u]? = some s) (q : Phase) :
    ((d.setPhase u q).units.toList.flatMap (owed fate x)
        ++ owed fate x s).Perm
      (d.units.toList.flatMap (owed fate x)
        ++ owed fate x { s with phase := q }) := by
  unfold setPhase
  rw [Array.toList_modify]
  exact flatMap_modify (by rw [Array.getElem?_toList, found])

/-- A unit that is not over goes on and is not over. -/
theorem owed_goOn (fate : Work → Option String) (x : ExecutorId)
    (found : d.units[u]? = some s) {q : Phase}
    (isOver : q.over = s.phase.over) :
    ((d.setPhase u q).units.toList.flatMap (owed fate x)).Perm
      (d.units.toList.flatMap (owed fate x)) := by
  have same : owed fate x { s with phase := q } = owed fate x s := by
    unfold owed open_
    rw [isOver]
  have perm := owed_setPhase fate x found q
  rw [same] at perm
  exact (List.perm_append_right_iff _).mp perm

/-- Once an executor counts no unit any more, nothing is left to be told. -/
theorem Owes.none_owed (h : Owes fate x since d) {p : PooledState}
    (pooled : d.pooled? x = some p) (idle : p.outstanding = 0) :
    d.units.toList.flatMap (owed fate x) = [] := by
  have none : d.countUnits (open_ x) = 0 := by
    rw [← h.counted.count, (at_of pooled).1, idle]
  refine List.flatMap_eq_nil_iff.mpr fun s mem => ?_
  unfold owed
  rw [if_neg (List.countP_eq_zero.mp none s mem)]

/-- No unit of an executor was given up. -/
def Kept (x : ExecutorId) (d : Dispatch) : Prop :=
  ∀ (u : UnitId) (s : Submitted), d.units[u]? = some s → s.executor = x →
    s.phase.intact = true

/-- A unit that was given up stays so. -/
theorem Turn.givenUp (turn : Turn d n evs d') (found : d.units[u]? = some s)
    (lost : s.phase.intact = false) :
    ∃ s', d'.units[u]? = some s' ∧ s'.executor = s.executor
      ∧ s'.phase.intact = false := by
  -- whoever takes another step was not given up
  have apart {v : UnitId} {s₀ : Submitted} (hv : d.units[v]? = some s₀)
      (kept : s₀.phase.intact = true) : u ≠ v := by
    rintro rfl
    rw [hv] at found
    obtain rfl := Option.some.inj found
    rw [kept] at lost
    cases lost
  cases turn with
  | aside | joined | told => exact ⟨s, found, rfl, lost⟩
  | submitted => exact ⟨s, push_old found, rfl, lost⟩
  | begun other phase | performed other phase | ended other phase
  | reported other phase | faulted other phase | completed other phase =>
      have ne := apart other (by rw [phase]; rfl)
      exact ⟨s, (setPhase_other ne _ _).trans found, rfl, lost⟩
  | @abandoned v s₀ other phase =>
      by_cases here : u = v
      · subst here
        exact ⟨_, setPhase_self (d := d.onPooled _ _) found _, rfl, rfl⟩
      · exact ⟨s, (setPhase_other here _ _).trans found, rfl, lost⟩

/-- A unit that is kept whole up to a later moment was kept whole before: what
is given up stays so. -/
theorem Kept.back (h : Kept x d') (turn : Turn d n evs d') : Kept x d := by
  intro u s found own
  cases lost : s.phase.intact with
  | true => rfl
  | false =>
      obtain ⟨s', found', executor, lost'⟩ := turn.givenUp found lost
      rw [h u s' found' (executor.trans own)] at lost'
      cases lost'

/-- What is owed when a unit is counted off. -/
theorem owes_off {d : Dispatch} {failure : Option String} {q : Phase}
    {p : PooledState} (found : d.units[u]? = some s)
    (goesOn : s.phase.over = false) (isOver : q.over = true)
    (pooled : d.pooled? s.executor = some p)
    (fated : s.executor = x → failure = fate s.work)
    (kept : (d.failuresAt x ++ d.units.toList.flatMap (owed fate x)).Perm
      (since.filterMap fate)) :
    (((d.onPooled s.executor (credited failure)).setPhase u q).failuresAt x
      ++ ((d.onPooled s.executor (credited failure)).setPhase u
        q).units.toList.flatMap (owed fate x)).Perm
      (since.filterMap fate) := by
  have perm := owed_setPhase fate x
    (d := d.onPooled s.executor (credited failure)) found q
  rw [owed_over (s := { s with phase := q }) isOver, List.append_nil] at perm
  refine List.Perm.trans ?_ kept
  refine List.Perm.trans ?_ (perm.append_left (d.failuresAt x))
  show ((d.onPooled s.executor (credited failure)).failuresAt x ++ _).Perm _
  by_cases own : s.executor = x
  · subst own
    rw [(at_self pooled _).2, (at_of pooled).2, owed_open rfl goesOn,
      ← fated rfl]
    show (p.failures ++ failure.toList ++ _).Perm _
    rw [List.append_assoc]
    exact List.perm_append_comm.append_left _
  · rw [(at_other own _ d).2, owed_other own, List.append_nil]

/-- One turn leaves what is owed to an owner as it should be. A unit that is
handed in comes to what is owed, and one that goes on owes the same; where a
unit is counted off, what it owed goes over to the causes that the executor
keeps, and where these are told, to the owner. -/
theorem Owes.turn (h : Owes fate x since d) (turn : Turn d n evs d')
    (counted : Counted d') (whole : Kept x d)
    (runs : ∀ (u : UnitId) (s : Submitted) (w : WorkerId)
      (failure : Option String), d.units[u]? = some s → s.executor = x →
      s.phase = .begun w → evs = [.performed u failure] →
      failureOf s.work.action (d.perform s.work).2 = fate s.work) :
    Owes fate x (handedIn x evs since) d' where
  counted := counted
  come := by
    intro u s' failure found' own outcome
    obtain ⟨s, found, executor, work, before | ⟨w, phase, event, now⟩⟩ :=
      turn.outcome_back found' outcome
    · rw [work]
      exact h.come found (executor.symm.trans own) before
    · rw [work, now]
      exact runs u s w failure found (executor.symm.trans own) phase event
  kept := by
    -- a step that does not end the unit leaves everything as it is
    have goes {u : UnitId} {s : Submitted} {q : Phase} {e : Dispatch}
        (found : d.units[u]? = some s) (isOver : q.over = s.phase.over)
        (units : e.units = d.units)
        (failures : e.failuresAt x = d.failuresAt x) :
        ((e.setPhase u q).failuresAt x
          ++ (e.setPhase u q).units.toList.flatMap (owed fate x)).Perm
          (since.filterMap fate) := by
      have perm := owed_goOn fate x
        (show e.units[u]? = some s by rw [units]; exact found) isOver
      rw [show (e.setPhase u q).failuresAt x = d.failuresAt x from failures]
      rw [units] at perm
      exact (perm.append_left _).trans h.kept
    -- the causes move only as a unit comes, as it goes off, and as they are
    -- told
    cases turn with
    | aside => exact h.kept
    | joined y fresh =>
        rw [(at_push x y fresh).2]
        exact h.kept
    | @told y p pooled idle =>
        unfold handedIn
        by_cases own : y = x
        · subst own
          rw [if_pos rfl, (at_self pooled _).2]
          show ([] ++ d.units.toList.flatMap (owed fate y)).Perm _
          rw [h.none_owed pooled idle]
          exact .nil
        · rw [if_neg own, (at_other own _ d).2]
          exact h.kept
    | @submitted y p w pooled =>
        unfold handedIn
        rw [Array.toList_push, List.flatMap_append, List.flatMap_singleton]
        show ((d.onPooled y charged).failuresAt x ++ _).Perm _
        rw [failuresAt_charged pooled, ← List.append_assoc]
        by_cases own : y = x
        · have one : [w].filterMap fate = (fate w).toList := by
            rw [List.filterMap_cons]
            cases fate w <;> rfl
          rw [if_pos own, owed_open (s := unitOf y p w) own rfl]
          show (_ ++ (fate w).toList).Perm ((since ++ [w]).filterMap fate)
          rw [List.filterMap_append, one]
          exact h.kept.append_right _
        · rw [if_neg own, owed_other (s := unitOf y p w) own, List.append_nil]
          exact h.kept
    | begun found queued =>
        exact goes found (by rw [queued]; rfl) rfl rfl
    | performed found phase | ended found phase | reported found phase
    | faulted found phase =>
        exact goes found (by rw [phase]; rfl) rfl rfl
    | @completed u s l failure found phase =>
        obtain ⟨p, pooled⟩ := h.counted.owner found
        exact owes_off (d := { d with ledger := l }) found
          (by rw [phase]; rfl) rfl pooled
          (fun own => h.come found own (by rw [phase]; rfl)) h.kept
    | @abandoned u s found phase =>
        obtain ⟨p, pooled⟩ := h.counted.owner found
        refine owes_off found (by rw [phase]; rfl) rfl pooled
          (fun own => ?_) h.kept
        have kept := whole u s found own
        rw [phase] at kept
        cases kept

/-- When none of its units is on the way, an executor keeps all that it
owes. -/
theorem Owes.told (h : Owes fate x since d) {p : PooledState}
    (pooled : d.pooled? x = some p) (idle : p.outstanding = 0) :
    p.failures.Perm (since.filterMap fate) := by
  have kept := h.kept
  rw [h.none_owed pooled idle, List.append_nil, (at_of pooled).2] at kept
  exact kept

end Dispatch

namespace DispatchOp

open Dispatch

variable {fate : Work → Option String} {x : ExecutorId} {since : List Work}
  {d : Dispatch} {op : DispatchOp}

-- ================================================================== replies

/-- The units that were handed in since the last wait, after a call. -/
def Call.handedIn : Option Call → List Work → List Work
  | some (.submit w), since => since ++ [w]
  | some .await, _ => []
  | _, since => since

/-- An executor that is not pooled has no calls. -/
theorem call?_none (none : d.pooled? x = none) (op : DispatchOp) :
    op.call? x d = Option.none := by
  unfold call?
  rw [none]
  rfl

/-- What is a call for a pooled executor names that executor. -/
theorem call?_some {p : PooledState} (pooled : d.pooled? x = some p)
    (op : DispatchOp) :
    op.call? x d = match op with
      | submit y w => if y = x then some (.submit w) else none
      | release y => if y = x then some .close else none
      | endAwait y =>
          if y = x ∧ (d.endAwait x).isSome then some .await else none
      | _ => none := by
  unfold call?
  rw [pooled]
  rfl

/-- An operation notes of an executor what its owner called it for. -/
theorem handedIn_events (op : DispatchOp) (d : Dispatch)
    (since : List Work) :
    Dispatch.handedIn x (op.events d) since
      = Call.handedIn (op.call? x d) since := by
  have uncalled (same : ∀ {p : PooledState}, d.pooled? x = some p →
      op.call? x d = none) : Call.handedIn (op.call? x d) since = since := by
    cases pooled : d.pooled? x with
    | none => rw [call?_none pooled]; rfl
    | some p => rw [same pooled]; rfl
  cases op with
  | submit y w =>
      by_cases own : y = x
      · subst own
        cases pooled : d.pooled? y with
        | none =>
            rw [call?_none pooled]
            simp only [events, pooled]
            rfl
        | some p =>
            have noted : (submit y w).events d = [.submitted y w] := by
              simp only [events, pooled]
            rw [call?_some pooled, noted]
            dsimp only
            rw [if_pos rfl]
            exact if_pos rfl
      · rw [uncalled fun pooled => by rw [call?_some pooled]; exact if_neg own]
        simp only [events]
        cases d.pooled? y with
        | none => rfl
        | some p => exact if_neg own
  | proceed u =>
      rw [uncalled fun pooled => call?_some pooled _]
      simp only [events]
      cases d.units[u]? with
      | none => rfl
      | some s =>
          dsimp only
          cases s.phase <;> rfl
  | endAwait y =>
      by_cases own : y = x
      · subst own
        cases pooled : d.pooled? y with
        | none =>
            rw [call?_none pooled]
            simp only [events, pooled]
            rfl
        | some p =>
            rw [call?_some pooled]
            dsimp only
            cases ends : d.endAwait y with
            | none =>
                simp only [events, pooled, ends]
                rw [if_neg fun both => by cases both.2]
                rfl
            | some done =>
                have noted : (DispatchOp.endAwait y).events d
                    = [.told y (causesOf done.2)] := by
                  simp only [events, pooled, ends]
                rw [noted, if_pos ⟨rfl, rfl⟩]
                exact if_pos rfl
      · rw [uncalled fun pooled => by
          rw [call?_some pooled]
          exact if_neg fun both => own both.1]
        simp only [events]
        cases d.pooled? y with
        | none => rfl
        | some p =>
            cases d.endAwait y with
            | none => rfl
            | some done => exact if_neg own
  | release y =>
      cases pooled : d.pooled? x with
      | none => rw [call?_none pooled]; rfl
      | some p =>
          rw [call?_some pooled]
          dsimp only
          split <;> rfl
  | onLedger | addExecutor | beginAwait | stop =>
      rw [uncalled fun pooled => call?_some pooled _]
      rfl

/-- What came of a call, if the executor owes what its owner is to be told. -/
theorem reply_agrees (owes : Owes fate x since d) {c : Call}
    (called : op.call? x d = some c) (rest : List Call) :
    ∃ a, expected fate (c :: rest) since
        = a :: expected fate rest (Call.handedIn (some c) since)
      ∧ Agree (op.apply d).2 a := by
  cases pooled : d.pooled? x with
  | none =>
      rw [call?_none pooled] at called
      cases called
  | some p =>
  rw [call?_some pooled] at called
  -- a call is one of three, and each names the executor
  cases op with
  | submit y w =>
      dsimp only at called
      by_cases own : y = x
      · rw [if_pos own] at called
        cases called
        subst own
        have found := executor_of pooled
        refine ⟨_, rfl, ?_⟩
        simp only [apply, Dispatch.submit, found]
        exact .same _
      · rw [if_neg own] at called
        cases called
  | release y =>
      dsimp only at called
      by_cases own : y = x
      · rw [if_pos own] at called
        cases called
        exact ⟨_, rfl, .same _⟩
      · rw [if_neg own] at called
        cases called
  | endAwait y =>
      dsimp only at called
      by_cases own : y = x ∧ (d.endAwait x).isSome = true
      · rw [if_pos own] at called
        cases called
        obtain ⟨rfl, ends⟩ := own
        refine ⟨_, rfl, ?_⟩
        obtain ⟨done, answer⟩ := Option.isSome_iff_exists.mp ends
        obtain ⟨idle, is⟩ := endAwait_answer pooled answer
        -- what the owner is told is what it is owed
        simp only [apply, answer]
        rw [is]
        exact .awaited (reordered_telling (owes.told pooled idle))
      · rw [if_neg own] at called
        cases called
  | _ => cases called

/-- An ordinary operation is one during which the pool may stop. -/
theorem stoppable_of_ordinary (h : op.ordinary d = true) :
    op.stoppable d = true := by
  cases op with
  | stop => rfl
  | _ => exact h

/-- So what is shown of a pool that may stop holds of an ordinary run. -/
theorem stoppable_of_all {ops : List DispatchOp}
    (h : Ordinary ops d = true) : Stoppable ops d = true := by
  induction ops generalizing d with
  | nil => rfl
  | cons op rest ih =>
      obtain ⟨here, later⟩ := Bool.and_eq_true_iff.mp h
      exact Bool.and_eq_true_iff.mpr ⟨stoppable_of_ordinary here, ih later⟩

/-- What was not given up in a run was not before. -/
theorem kept_back {ops : List DispatchOp} (live : d.stopped = false)
    (ordinary : Ordinary ops d = true) (whole : Kept x (run ops d).1) :
    Kept x d := by
  induction ops generalizing d with
  | nil => exact whole
  | cons op rest ih =>
      obtain ⟨here, later⟩ := Bool.and_eq_true_iff.mp ordinary
      have turn := turn_apply live here
      exact (ih (turn.stopped.trans live) later whole).back turn

/-- As long as no unit of it is given up, the owner of an executor is answered
as if the units came to their fates by themselves. -/
theorem answered {ops : List DispatchOp} (live : d.stopped = false)
    (ordinary : Ordinary ops d = true)
    (fates : Throughout (fated fate x) ops d = true)
    (whole : Kept x (run ops d).1) (owes : Owes fate x since d) :
    List.Forall₂ Agree (replies x ops d)
      (expected fate (calls x ops d) since) := by
  induction ops generalizing d since with
  | nil => exact .nil
  | cons op rest ih =>
      have kept := kept_back live ordinary whole
      obtain ⟨here, later⟩ := Bool.and_eq_true_iff.mp ordinary
      obtain ⟨now, then_⟩ := Bool.and_eq_true_iff.mp fates
      have turn := turn_apply live here
      have counted := owes.counted.apply (stoppable_of_ordinary here)
      have next : Owes fate x (Dispatch.handedIn x (op.events d) since)
          (op.apply d).1 := by
        refine owes.turn turn counted kept fun u s w failure found own phase
          event => ?_
        obtain rfl := proceed_of_event event rfl
        subst own
        unfold fated at now
        rw [runs?_proceed found phase] at now
        exact eq_of_beq now
      rw [handedIn_events] at next
      have others := ih (turn.stopped.trans live) later then_ whole next
      unfold replies calls
      cases called : op.call? x d with
      | none =>
          rw [called] at others
          exact others
      | some c =>
          rw [called] at others
          obtain ⟨a, is, agrees⟩ :=
            reply_agrees owes called (calls x rest (op.apply d).1)
          show List.Forall₂ Agree
            ((op.apply d).2 :: replies x rest (op.apply d).1)
            (expected fate (c :: calls x rest (op.apply d).1) since)
          rw [is]
          exact .cons agrees others

/-- While the sink has a number for each report, no unit is given up. -/
theorem kept_of_room {ops : List DispatchOp} (blank : d.Blank)
    (ordinary : Ordinary ops d = true) {k : Sink}
    (sink : d.ledger.sinks[d.ledger.sink]? = some k)
    (room : k.last.toNat + asked ops ≤ Sink.largestId.toNat) :
    Kept x (run ops d).1 :=
  fun _ _ found _ => (account_run blank ordinary sink room).2.unit found

end DispatchOp

end TaskLedger
