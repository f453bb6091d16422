/-
What a task may rely on when it waits for the units of its executor.

`Overseen` puts the invariants of an ordinary run together: the sink has a
number for every unit that is still to report, crews and units agree, keys
tell units apart, no unit is given up, the books are in order and so is
the account. How a unit turned out is traced back to the step of the run that
ran it (`outcome_traced`), and what it comes to there is its `Verdict`.
`await_accounts` reads off what they come to when a wait is over: all
units were seen through, and the owner is told of each that failed, once
and as soon as it waits.
-/
import Mathlib.Data.List.Nodup
import TaskLedger.Proofs.Dispatch.Performed

namespace TaskLedger

-- ============================================================== outcomes

/-- How a unit can turn out that is run over a ledger: as its script says,
unless its time cannot pass there, which is like giving up. -/
inductive Verdict (w : Work) (l : Ledger) : Option String → Prop
  | success (time : (l.advance w.script.ms w.script.ns).2 = .ok ())
      (h : w.script.ending = .success) : Verdict w l none
  | failure {root : String} {contexts : List String}
      (time : (l.advance w.script.ms w.script.ns).2 = .ok ())
      (h : w.script.ending = .failure root contexts) :
      Verdict w l (some (w.action ++ ": " ++ Ending.cause root contexts))
  | panic {message : Option String}
      (time : (l.advance w.script.ms w.script.ns).2 = .ok ())
      (h : w.script.ending = .panic message) :
      Verdict w l
        (some (w.action ++ ": panicked: " ++ (Fault.raised message).message))
  | timeless {f : Fault}
      (h : (l.advance w.script.ms w.script.ns).2 = .error f) :
      Verdict w l (some (w.action ++ ": panicked: " ++ f.message))

namespace Dispatch

variable {d d' : Dispatch} {n b : Nat} {evs seen : List Event}

/-- What a unit comes to is what its work says, or a fault that the ledger
stopped it with, as it was at that moment. -/
theorem verdict_perform (w : Work) (d : Dispatch) :
    Verdict w d.ledger (failureOf w.action (d.perform w).2) := by
  unfold perform
  dsimp only
  split
  · next h => exact .timeless (by rw [h])
  · next h =>
      have time : (d.ledger.advance w.script.ms w.script.ns).2 = .ok () := by
        rw [h]
      cases ending : w.script.ending with
      | success => exact .success time ending
      | failure root contexts => exact .failure time ending
      | panic message => exact .panic time ending

-- ============================================================== overseen

/-- A turn brings no more units than it asks for numbers. -/
theorem Turn.units_size (turn : Turn d n evs d') :
    d'.units.size ≤ d.units.size + n := by
  cases turn with
  | aside | joined | told => exact Nat.le_add_right _ _
  | @submitted x p w => exact Nat.le_of_eq (Array.size_push (unitOf x p w))
  | begun | performed | ended | reported | faulted | completed | abandoned =>
      exact Nat.le_of_eq Array.size_modify

/-- All that holds after the events `seen` of an ordinary run that asks for
`total` numbers, `b` of them later. -/
structure Overseen (total b : Nat) (seen : List Event) (d : Dispatch) :
    Prop where
  stocked : d.ledger.Stocked (d.due + b)
  settled : Settled d
  keyed : Keyed d
  intact : Intact d
  booked : Booked d
  account : Account seen d
  few : d.units.size + b ≤ total

/-- Where nothing happened, all the numbers that are there are left for what
will. -/
theorem Blank.overseen (h : d.Blank) {total : Nat}
    (supply : Ledger.Supplies d.ledger.sink total d.ledger) :
    Overseen total total [] d where
  stocked := by
    have none : d.due = 0 := by
      unfold due countUnits
      rw [h.units]
      rfl
    rw [none, Nat.zero_add]
    exact ⟨supply, by intro t task found; simp [h.tasks] at found⟩
  settled := h.settled
  keyed := h.keyed
  intact := ⟨by intro u s found; simp [h.units] at found⟩
  booked := h.booked
  account := h.account
  few := by
    rw [h.units]
    exact Nat.le_of_eq (Nat.zero_add total)

/-- A turn takes as many numbers as it needs from those that are set aside, and
everything else that is overseen stays so. -/
theorem Overseen.turn {total : Nat} (h : Overseen total (n + b) seen d)
    (turn : Turn d n evs d') : Overseen total b (seen ++ evs) d' := by
  have intact' := h.intact.turn h.settled h.stocked turn
  exact {
    stocked := turn.stocked h.stocked
    settled := h.settled.turn turn
    keyed := h.keyed.turn h.settled.linked turn
    intact := intact'
    booked := h.booked.turn h.settled h.intact h.stocked turn
    account := h.account.turn h.settled.linked h.intact intact' turn
    few := by
      have le := turn.units_size
      have few := h.few
      omega }

/-- So after an ordinary run everything is overseen that it noted. -/
theorem overseen_run {ops : List DispatchOp} (blank : d.Blank)
    (ordinary : DispatchOp.Ordinary ops d = true)
    (supply : Ledger.Supplies d.ledger.sink (DispatchOp.asked ops) d.ledger) :
    Overseen (DispatchOp.asked ops) 0 (DispatchOp.history ops d)
      (DispatchOp.run ops d).1 :=
  run_keeps (P := Overseen (DispatchOp.asked ops)) Overseen.turn
    blank.stopped ordinary (blank.overseen supply)

-- ============================================================ one executor

/-- Units of a task's only executor are alone. -/
theorem Overseen.alone {total : Nat} (h : Overseen total b seen d)
    (room : total ≤ Sink.largestId.toNat) {x : ExecutorId} {t : TaskId}
    (only : ∀ y q, d.pooled? y = some q → q.entry = .task t → y = x)
    {u : UnitId} {s : Submitted} (found : d.units[u]? = some s)
    (entry : s.entry = .task t) : Alone u s d := by
  have member {v : UnitId} {s' : Submitted} (hv : d.units[v]? = some s')
      (entry' : s'.entry = .task t) : s'.executor = x := by
    obtain ⟨q, hq, -, he⟩ := h.settled.linked.unit hv
    exact only _ q hq (he.trans entry')
  intro v s' hv entry' key
  refine h.keyed.unit_inj ?_ hv found (member hv (entry'.trans entry))
    (member found entry) key
  have size : d.owners.length = d.units.size := by
    unfold owners
    rw [List.length_map, Array.length_toList]
  have largest : Sink.largestId.toNat < UInt64.size :=
    Sink.largestId.toNat_lt_size
  have few := h.few
  have le : d.owners.count x ≤ d.owners.length := List.count_le_length
  omega

/-- What has come of a unit that a run from `d` saw through: it was run once,
at a step of the run where it turned out as it can, and counted off once, its
worker has ended, and what the sink holds of this worker is one span under the
task's. -/
structure SeenThrough (ops : List DispatchOp) (d : Dispatch) (t : TaskId)
    (task : Task) (u : UnitId) (s : Submitted) : Prop where
  ran : ∃ failure i, outcomes u (DispatchOp.history ops d) = [failure]
    ∧ ops[i]? = some (.proceed u)
    ∧ Verdict s.work (DispatchOp.run (ops.take i) d).1.ledger failure
  off : (completions s.executor (DispatchOp.history ops d)).count u = 1
  worker : ∃ w k, task.crew.lookup s.key = some w
    ∧ (DispatchOp.run ops d).1.ledger.workers[w]? = some k
    ∧ k.finished = true
    ∧ ∃ line, (DispatchOp.run ops d).1.ledger.reportsOf t w = [line]
      ∧ line.taken = true ∧ line.sink = task.sink
      ∧ line.record.span.kind = .worker
      ∧ line.record.span.parent = some task.id

/-- A unit that is alone and over was seen through. -/
theorem Overseen.seenThrough {total : Nat} {ops : List DispatchOp}
    (blank : d.Blank) (ordinary : DispatchOp.Ordinary ops d = true)
    (h : Overseen total b (DispatchOp.history ops d) (DispatchOp.run ops d).1)
    {t : TaskId} {task : Task}
    (ht : (DispatchOp.run ops d).1.ledger.tasks[t]? = some task)
    {u : UnitId} {s : Submitted}
    (found : (DispatchOp.run ops d).1.units[u]? = some s)
    (entry : s.entry = .task t) (alone : Alone u s (DispatchOp.run ops d).1)
    (isOver : s.phase.over = true) : SeenThrough ops d t task u s := by
  obtain ⟨failure, phase⟩ : ∃ failure, s.phase = .completed failure := by
    have intact := h.intact.unit found
    cases phase : s.phase with
    | completed failure => exact ⟨failure, rfl⟩
    | abandoned => rw [phase] at intact; cases intact
    | _ => rw [phase] at isOver; cases isOver
  have outcome : s.phase.outcome? = some failure := by
    rw [phase]
    rfl
  -- there were no units before the run, so it has the step that ran this one
  obtain ⟨i, at_, is⟩ : ∃ i, ops[i]? = some (.proceed u)
      ∧ failure = failureOf s.work.action
        ((DispatchOp.run (ops.take i) d).1.perform s.work).2 := by
    rcases outcome_traced blank.stopped ordinary found outcome with
      ⟨s₀, before, -⟩ | here
    · rw [blank.units] at before
      cases before
    · exact here
  refine ⟨⟨failure, i, ?_, at_, ?_⟩, ?_, ?_⟩
  · rw [h.account.ran found, outcome]
    rfl
  · rw [is]
    exact verdict_perform s.work _
  · rw [h.account.off found, if_pos ⟨rfl, isOver⟩]
  · obtain ⟨w, k, mem, hk, -, -, ended, kind⟩ :=
      h.settled.own.holds found entry alone
    obtain ⟨a, k', id, ha, hk', line⟩ :=
      (h.booked.alone.holds found entry alone w mem).line (by rw [phase]; rfl)
    rw [ht] at ha
    obtain rfl := Option.some.inj ha
    rw [hk] at hk'
    obtain rfl := Option.some.inj hk'
    have look := h.settled.roll.lookup.mpr mem
    rw [Ledger.crewAt_of ht] at look
    refine ⟨w, k, look, hk, ?_, _, line, rfl, rfl, kind, rfl⟩
    show k.ended.isSome = true
    rw [ended, phase]
    rfl

/-- While one of its units is not over, an executor waits for somebody. -/
theorem Account.waits (h : Account seen d) {x : ExecutorId} {p : PooledState}
    (pooled : d.pooled? x = some p) {u : UnitId} {s : Submitted}
    (found : d.units[u]? = some s) (own : s.executor = x)
    (goesOn : s.phase.over = false) : 0 < p.outstanding :=
  Tallied.waits h.count pooled found own goesOn

/-- No unit is counted off twice. -/
theorem Account.completions_nodup (h : Account seen d) (x : ExecutorId) :
    (completions x seen).Nodup := by
  rw [List.nodup_iff_count_le_one]
  intro u
  rcases Nat.lt_or_ge u d.units.size with lt | ge
  · rw [h.off (Array.getElem?_eq_getElem lt)]
    split
    · exact Nat.le_refl 1
    · exact Nat.zero_le 1
  · rw [List.count_eq_zero.mpr ((h.unknown ge).2 x)]
    exact Nat.zero_le 1

-- ================================================================= waiting

/-- In an ordinary run from nothing, over a sink that takes everything and
has enough numbers, for a task and its only pooled executor: the executor
waits for as many units as were submitted and not counted off, none is
counted off twice, and it waits for one at least while a unit is not over.
A wait is over only when it waits for none. Then every unit that it was
given was seen through, each with a worker of its own; in the list of what was
run, the units of the executor are those that it was given, each as often. The
owner is told the causes of the units that were counted off since the last time,
and what it was told so far are the causes of all, in that order. -/
theorem await_accounts (ops : List DispatchOp) (d : Dispatch)
    (blank : d.Blank) (ordinary : DispatchOp.Ordinary ops d = true)
    (supply : Ledger.Supplies d.ledger.sink (DispatchOp.asked ops) d.ledger)
    (x : ExecutorId) (p : PooledState) (t : TaskId)
    (pooled : (DispatchOp.run ops d).1.pooled? x = some p)
    (entry : p.entry = .task t)
    (only : ∀ y q, (DispatchOp.run ops d).1.pooled? y = some q →
      q.entry = .task t → y = x) :
    let m := (DispatchOp.run ops d).1
    let seen := DispatchOp.history ops d
    p.outstanding + (completions x seen).length
        = (submissions x seen).length
      ∧ (completions x seen).Nodup
      ∧ (∀ (u : UnitId) (s : Submitted), m.units[u]? = some s →
          s.executor = x → s.phase.over = false → 0 < p.outstanding)
      ∧ m.ran = d.ran
        ++ (DispatchOp.performed ops d).map (fun e => e.2.action)
      ∧ ∀ m' r, m.endAwait x = some (m', r) →
        p.outstanding = 0
          ∧ m.worksOf x = submissions x seen
          ∧ (DispatchOp.performedFor x ops d).Perm (submissions x seen)
          ∧ causesOf r = causesOver (recent x seen) seen
          ∧ toldTo x seen ++ causesOf r
            = causesOver (completions x seen) seen
          ∧ ∃ task, m.ledger.tasks[t]? = some task
            ∧ (∀ (u : UnitId) (s : Submitted), m.units[u]? = some s →
                s.executor = x → SeenThrough ops d t task u s)
            ∧ ∀ (u v : UnitId) (s s' : Submitted), m.units[u]? = some s →
                m.units[v]? = some s' → s.executor = x → s'.executor = x →
                task.crew.lookup s.key = task.crew.lookup s'.key → u = v := by
  intro m seen
  have overseen : Overseen _ 0 seen m := overseen_run blank ordinary supply
  have account := overseen.account
  have waits {u : UnitId} {s : Submitted} (found : m.units[u]? = some s)
      (own : s.executor = x) (goesOn : s.phase.over = false) :
      0 < p.outstanding := account.waits pooled found own goesOn
  have room : DispatchOp.asked ops ≤ Sink.largestId.toNat := by
    obtain ⟨k, -, -, room⟩ := supply
    exact Nat.le_trans (Nat.le_add_left _ _) room
  have entry_of {u : UnitId} {s : Submitted} (found : m.units[u]? = some s)
      (own : s.executor = x) : s.entry = .task t := by
    obtain ⟨q, hq, -, he⟩ := overseen.settled.linked.unit found
    rw [own, pooled] at hq
    obtain rfl := Option.some.inj hq
    exact he.symm.trans entry
  have alone {u : UnitId} {s : Submitted} (found : m.units[u]? = some s)
      (own : s.executor = x) : Alone u s m :=
    overseen.alone room only found (entry_of found own)
  refine ⟨?_, account.completions_nodup x, fun _ _ => waits,
    DispatchOp.ran_run ops d, ?_⟩
  · rw [← (at_of pooled).1]
    exact account.balance x
  intro m' r answer
  obtain ⟨idle, is⟩ := endAwait_answer pooled answer
  have causes : causesOf r = p.failures := by
    rw [is]
    exact causesOf_answer p.failures
  obtain ⟨task, ht⟩ := overseen.settled.linked.entry pooled entry
  have crew : m.ledger.crewAt t = task.crew := Ledger.crewAt_of ht
  have isOver {u : UnitId} {s : Submitted} (found : m.units[u]? = some s)
      (own : s.executor = x) : s.phase.over = true := by
    cases goesOn : s.phase.over with
    | true => rfl
    | false => exact absurd (waits found own goesOn) (by omega)
  refine ⟨idle, account.given x, ?_, ?_, ?_, task, ht, ?_, ?_⟩
  · have ran : RanFor x ([] ++ DispatchOp.performedFor x ops d) m :=
      (blank.ranFor x).run blank.stopped ordinary (not_direct pooled)
    rw [← account.given x]
    exact ran.perm fun _ _ => isOver
  · rw [causes, ← account.kept x, (at_of pooled).2]
  · rw [causes, ← account.told x, (at_of pooled).2]
  · intro u s found own
    exact Overseen.seenThrough blank ordinary overseen ht found
      (entry_of found own) (alone found own) (isOver found own)
  · intro u v s s' hu hv own own' same
    obtain ⟨w, mem⟩ := overseen.settled.roll.entered hu (entry_of hu own)
    have look := overseen.settled.roll.lookup.mpr mem
    rw [crew, same, ← crew] at look
    have mem' := overseen.settled.roll.lookup.mp look
    obtain ⟨-, key⟩ := overseen.settled.roll.apart mem mem'
    exact alone hv own' hu ((entry_of hu own).trans (entry_of hv own').symm)
      key

/-- A unit that fails, a wait, a unit that gives up, and another wait: each
wait tells of the unit that came before it. -/
theorem await_accounts_second_wait :
    let d : Dispatch := { ledger := { sinks := #[{ outlet := .memory }] } }
    let fails : Work :=
      { action := "Link", hash := 1, script := { ending := .failure "no" [] } }
    let panics : Work :=
      { action := "Test", hash := 2,
        script := { ending := .panic (some "boom") } }
    let ops : List DispatchOp :=
      [.onLedger (.startTask ":a" "p" none),
        .addExecutor (.pooled { owner := ":a", entry := .task 0 }),
        .submit 0 fails] ++ (straight 0).map .proceed
        ++ [.endAwait 0, .submit 0 panics] ++ (straight 1).map .proceed
    let m := (DispatchOp.run ops d).1
    let seen := DispatchOp.history ops d
    ∃ m' r, m.endAwait 0 = some (m', r)
      ∧ causesOf r = ["Test: panicked: boom"]
      ∧ toldTo 0 seen ++ causesOf r = ["Link: no", "Test: panicked: boom"] := by
  intro d fails panics ops m seen
  have its : (m.pooled? 0).map PooledState.entry = some (.task 0) := by
    decide +kernel
  obtain ⟨p, pooled, entry⟩ := Option.map_eq_some_iff.mp its
  have one : m.executors.size = 1 := by decide +kernel
  -- no other executor has units of the task, since there is no other
  have only : ∀ y q, m.pooled? y = some q → q.entry = .task 0 → y = 0 := by
    intro y q found _
    cases y with
    | zero => rfl
    | succ y =>
        have beyond : m.executors.size ≤ y + 1 := by
          rw [one]
          exact Nat.le_add_left 1 y
        rw [pooled?_beyond beyond] at found
        cases found
  have blank : d.Blank := ⟨rfl, rfl, rfl, rfl, rfl, rfl⟩
  obtain ⟨-, -, -, -, ended⟩ := await_accounts ops d blank (by decide +kernel)
    ⟨_, rfl, fun _ _ => rfl, by decide +kernel⟩ 0 p 0 pooled entry only
  have ends : (m.endAwait 0).isSome = true := by decide +kernel
  obtain ⟨⟨m', r⟩, answer⟩ := Option.isSome_iff_exists.mp ends
  obtain ⟨-, -, -, now, sofar, -⟩ := ended m' r answer
  refine ⟨m', r, answer, now.trans ?_, sofar.trans ?_⟩
  · decide +kernel
  · decide +kernel

end Dispatch

end TaskLedger
