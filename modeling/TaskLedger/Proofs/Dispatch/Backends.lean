/-
A unit comes to the same on either kind of executor.

A direct executor runs a unit where it is submitted and answers with what it
came to. A pooled one answers at once, books the unit into the ledger, lets
it run some time later, and keeps its cause until its owner waits. Both run
every unit once (`perform`), and whether a unit that does not give up fails,
and with which cause, is its own affair (`Work.cause?`). So the wait tells
what the submissions of the direct run would have answered, in the order in
which the units were counted off; and with a single thread this is the order
in which they were submitted (`InOrder`).

None of this hinges on what the sinks take. `account_run` gets the account of
a run from the one over willing sinks, since a refusal is not seen in it.
-/
import TaskLedger.Proofs.Dispatch.Progress
import TaskLedger.Proofs.Dispatch.Refusal

namespace TaskLedger

namespace Work

/-- The cause that it ends with, if it does not give up. -/
def cause? (w : Work) : Option String :=
  match w.script.ending with
  | .failure root contexts => some (Ending.cause root contexts)
  | .success | .panic _ => none

/-- The same, as a pooled executor reports it. -/
def failure? (w : Work) : Option String :=
  w.cause?.map fun cause => w.action ++ ": " ++ cause

/-- What a direct executor answers to it. -/
def result (w : Work) : Except Error Unit :=
  match w.cause? with
  | none => .ok ()
  | some cause => .error (.unit w.action cause)

/-- A piece of work has no cause to tell exactly if its result is good. -/
theorem failure?_eq_none {w : Work} : w.failure? = none ↔ w.result = .ok () := by
  unfold failure? result
  cases w.cause? with
  | none => exact ⟨fun _ => rfl, fun _ => rfl⟩
  | some cause =>
      constructor
      · intro h; cases h
      · intro h; cases h

end Work

namespace DispatchOp

open Dispatch

/-- Something is so of every operation of a run, where it happens. -/
def Throughout (f : DispatchOp → Dispatch → Bool) :
    List DispatchOp → Dispatch → Bool
  | [], _ => true
  | op :: rest, d => f op d && Throughout f rest (op.apply d).1

/-- What an operation runs for an executor does not give up, and its time can
pass. -/
def steady (x : ExecutorId) (op : DispatchOp) (d : Dispatch) : Bool :=
  (op.runs? x d).all fun w => (d.perform w).2.isOk

/-- A step is one of the first unit that is not over: the pool has one
thread, and it takes the units in the order of the queue. -/
def inTurn (op : DispatchOp) (d : Dispatch) : Bool :=
  match op with
  | proceed u => (d.units.toList.take u).all fun s => s.phase.over
  | _ => true

/-- The failure in the answer to a submission, as the owner of a pooled
executor is told of it. -/
def failureIn : Except Fault DispatchAnswer → Option String
  | .ok (.submitted (.error (.unit action message))) =>
      some (action ++ ": " ++ message)
  | _ => none

variable {d e : Dispatch}

-- ================================================================ lockstep

/-- What is noted of an operation is the same on alike dispatches. -/
theorem events_alike (op : DispatchOp) (h : Alike d e) :
    op.events d = op.events e := by
  cases op with
  | submit x w =>
      simp only [events]
      rw [h.pooled?]
  | proceed u =>
      simp only [events]
      rw [h.units]
      cases e.units[u]? with
      | none => rfl
      | some s =>
          dsimp only
          rw [(h.perform s.work).answer]
  | endAwait x =>
      have answer := (h.endAwait x).1
      simp only [events]
      rw [h.pooled?]
      cases e.pooled? x with
      | none => rfl
      | some p =>
          cases hd : d.endAwait x <;> cases he : e.endAwait x
          · rfl
          · simp [hd, he] at answer
          · simp [hd, he] at answer
          · rw [hd, he] at answer
            dsimp only
            rw [show _ = _ from Option.some.inj answer]
  | onLedger | addExecutor | beginAwait | release | stop => rfl

/-- What happens in a run is what happens in one like it. -/
theorem history_alike (ops : List DispatchOp) (h : Alike d e) :
    history ops d = history ops e := by
  induction ops generalizing d e with
  | nil => rfl
  | cons op rest ih =>
      unfold history
      rw [events_alike op h, ih (alike_apply op h).1]

/-- What is the same on alike dispatches is so throughout both runs. -/
theorem throughout_alike {f : DispatchOp → Dispatch → Bool}
    (same : ∀ (op : DispatchOp) (d e : Dispatch), Alike d e →
      f op d = f op e) (ops : List DispatchOp) (h : Alike d e) :
    Throughout f ops d = Throughout f ops e := by
  induction ops generalizing d e with
  | nil => rfl
  | cons op rest ih =>
      unfold Throughout
      rw [same op d e h, ih (alike_apply op h).1]

/-- A run is ordinary if each of its operations is so where it comes. -/
theorem ordinary_throughout (ops : List DispatchOp) (d : Dispatch) :
    Ordinary ops d = Throughout ordinary ops d := by
  induction ops generalizing d with
  | nil => rfl
  | cons op rest ih =>
      unfold Ordinary Throughout
      rw [ih]

/-- Whether an operation is ordinary does not depend on what sinks refuse. -/
theorem ordinary_alike (op : DispatchOp) (h : Alike d e) :
    op.ordinary d = op.ordinary e := by
  cases op with
  | addExecutor x =>
      cases x with
      | direct owner => rfl
      | pooled p =>
          simp only [ordinary, freshFor]
          rw [h.ledger.tasks]
  | _ => rfl

theorem ordinary_run_alike (ops : List DispatchOp) (h : Alike d e) :
    Ordinary ops d = Ordinary ops e := by
  rw [ordinary_throughout, ordinary_throughout]
  exact throughout_alike (fun op _ _ => ordinary_alike op) ops h

/-- Nor does it matter for the order in which units take their turns. -/
theorem inTurn_alike (op : DispatchOp) (h : Alike d e) :
    op.inTurn d = op.inTurn e := by
  cases op with
  | proceed u =>
      simp only [inTurn]
      rw [h.units]
  | _ => rfl

-- ==================================================================== runs

/-- The induction on ordinary runs of which something is so throughout. -/
theorem run_along {f : DispatchOp → Dispatch → Bool}
    {P : Nat → List Event → Dispatch → Prop}
    (step : ∀ {b : Nat} {seen : List Event} {op : DispatchOp} {d : Dispatch},
      Turn d op.numbers (op.events d) (op.apply d).1 → f op d = true →
      P (op.numbers + b) seen d →
      P b (seen ++ op.events d) (op.apply d).1)
    {ops : List DispatchOp} (live : d.stopped = false)
    (ordinary : Ordinary ops d = true) (along : Throughout f ops d = true)
    {b : Nat} (start : P (asked ops + b) [] d) :
    P b (history ops d) (run ops d).1 := by
  suffices h : ∀ seen, P (asked ops + b) seen d →
      P b (seen ++ history ops d) (run ops d).1 from h [] start
  clear start
  induction ops generalizing d with
  | nil =>
      intro seen h
      rw [asked, Nat.zero_add] at h
      rw [show history [] d = [] from rfl, List.append_nil]
      exact h
  | cons op rest ih =>
      intro seen h
      rw [asked, Nat.add_assoc] at h
      obtain ⟨here, later⟩ := Bool.and_eq_true_iff.mp ordinary
      obtain ⟨now, then_⟩ := Bool.and_eq_true_iff.mp along
      have turn := turn_apply live here
      have next := ih (turn.stopped.trans live) later then_ _
        (step turn now h)
      rw [List.append_assoc] at next
      exact next

end DispatchOp

namespace Dispatch

open DispatchOp

variable {d d' e : Dispatch} {x : ExecutorId} {seen : List Event}

/-- Where nothing is on record, nothing is so if sinks refuse nothing. -/
theorem Blank.willing (h : d.Blank) : d.willing.Blank :=
  ⟨h.tasks, h.workers, h.journal, h.executors, h.units, h.stopped⟩

/-- Over willing sinks with numbers enough, all that an ordinary run keeps
holds from the start. -/
theorem Blank.overseen_willing (h : d.Blank) {total : Nat} {k : Sink}
    (sink : d.ledger.sinks[d.ledger.sink]? = some k)
    (room : k.last.toNat + total ≤ Sink.largestId.toNat) :
    Overseen total total [] d.willing := by
  refine h.willing.overseen ⟨k.willing, ?_, fun _ _ => rfl, room⟩
  show (d.ledger.sinks.map Sink.willing)[d.ledger.sink]? = _
  rw [Array.getElem?_map, sink]
  rfl

/-- The account of an ordinary run from nothing whose sink has numbers
enough, be it willing or not, and no unit of it is given up. -/
theorem account_run {ops : List DispatchOp} (blank : d.Blank)
    (ordinary : Ordinary ops d = true) {k : Sink}
    (sink : d.ledger.sinks[d.ledger.sink]? = some k)
    (room : k.last.toNat + asked ops ≤ Sink.largestId.toNat) :
    Account (history ops d) (run ops d).1 ∧ Intact (run ops d).1 := by
  have alike := d.alike_willing
  rw [ordinary_run_alike ops alike] at ordinary
  have overseen : Overseen _ 0 _ _ :=
    run_keeps (P := Overseen (asked ops)) Overseen.turn blank.willing.stopped
      ordinary (blank.overseen_willing sink room)
  rw [← history_alike ops alike] at overseen
  obtain ⟨l, he, -⟩ := (alike_run ops alike).two_ledgers
  rw [he] at overseen
  exact ⟨overseen.account.beside (run ops d).1.ledger (run ops d).1.ran,
    overseen.intact.beside (run ops d).1.ledger (run ops d).1.executors
      (run ops d).1.ran⟩

-- =============================================================== outcomes

/-- Work that stops nowhere comes to what it says it comes to. -/
theorem perform_steady {w : Work} (h : (d.perform w).2.isOk = true) :
    (d.perform w).2 = .ok w.cause? := by
  unfold perform at h ⊢
  dsimp only at h ⊢
  unfold Work.cause?
  split
  · next hl => rw [hl] at h; cases h
  · next hl =>
      rw [hl] at h
      dsimp only at h ⊢
      cases ending : w.script.ending with
      | success | failure => rfl
      | panic => rw [ending] at h; cases h

/-- So what is noted of it is its own failure. -/
theorem failureOf_steady {w : Work} (h : (d.perform w).2.isOk = true) :
    failureOf w.action (d.perform w).2 = w.failure? := by
  rw [perform_steady h]
  unfold Work.failure?
  cases w.cause? with
  | none => rfl
  | some cause => rfl

/-- The units of an executor that were run came to what they come to. -/
structure Faithful (x : ExecutorId) (d : Dispatch) : Prop where
  unit : ∀ {u : UnitId} {s : Submitted} {failure : Option String},
    d.units[u]? = some s → s.executor = x →
    s.phase.outcome? = some failure → failure = s.work.failure?

/-- A turn leaves it so that units come to their own failures, as long as no
clock stops them on their way. -/
theorem Faithful.turn (h : Faithful x d) {op : DispatchOp}
    (turn : Turn d op.numbers (op.events d) (op.apply d).1)
    (steady : op.steady x d = true) : Faithful x (op.apply d).1 where
  unit := by
    intro u s' failure found' own outcome
    obtain ⟨s, found, executor, work, before | ⟨w, phase, event, now⟩⟩ :=
      turn.outcome_back found' outcome
    · rw [work]
      exact h.unit found (executor.symm.trans own) before
    · obtain rfl := proceed_of_event event rfl
      obtain rfl := executor.symm.trans own
      unfold DispatchOp.steady at steady
      rw [runs?_proceed found phase] at steady
      rw [now, work, failureOf_steady steady]

/-- And so does a whole run. -/
theorem faithful_run {ops : List DispatchOp} (blank : d.Blank)
    (ordinary : Ordinary ops d = true)
    (steady : Throughout (steady x) ops d = true) :
    Faithful x (run ops d).1 :=
  run_along (P := fun _ _ d => Faithful x d) (b := 0)
    (fun turn now h => h.turn turn now) blank.stopped ordinary steady
    ⟨by intro u s failure found; simp [blank.units] at found⟩

-- ================================================================== order

/-- A unit that is over was so before, or this is its last step. -/
theorem Turn.over_back {n : Nat} {evs : List Event} {u : UnitId}
    {s' : Submitted} (turn : Turn d n evs d')
    (found' : d'.units[u]? = some s') (isOver : s'.phase.over = true) :
    ∃ s, d.units[u]? = some s
      ∧ (s.phase.over = true ∨ ∃ y, evs = [.countedOff y u]) := by
  cases turn with
  | aside | joined | told => exact ⟨s', found', .inl isOver⟩
  | submitted =>
      rcases push_back found' with prior | ⟨-, rfl⟩
      · exact ⟨s', prior, .inl isOver⟩
      · cases isOver
  | begun found | performed found | ended found | reported found
  | faulted found =>
      rcases setPhase_cases (by exact found) found' with
        ⟨-, rfl⟩ | ⟨-, still⟩
      · cases isOver
      · exact ⟨s', still, .inl isOver⟩
  | @completed _ s _ _ found | @abandoned _ s found =>
      rcases setPhase_cases (by exact found) found' with
        ⟨rfl, rfl⟩ | ⟨-, still⟩
      · exact ⟨s, found, .inr ⟨_, rfl⟩⟩
      · exact ⟨s', still, .inl isOver⟩

/-- A unit that is over stays so. -/
theorem Turn.over {n : Nat} {evs : List Event} {u : UnitId}
    {s s' : Submitted} (turn : Turn d n evs d')
    (found : d.units[u]? = some s) (isOver : s.phase.over = true)
    (found' : d'.units[u]? = some s') : s'.phase.over = true := by
  have same {v : UnitId} {s₀ : Submitted} {p : Phase} {e : Dispatch}
      (hv : d.units[v]? = some s₀) (goesOn : s₀.phase.over = false)
      (units : e.units = d.units)
      (after : (e.setPhase v p).units[u]? = some s') :
      s'.phase.over = true := by
    rcases setPhase_cases (by rw [units]; exact hv) after with
      ⟨rfl, -⟩ | ⟨-, still⟩
    · rw [hv] at found
      obtain rfl := Option.some.inj found
      rw [isOver] at goesOn
      cases goesOn
    · rw [units, found] at still
      obtain rfl := Option.some.inj still
      exact isOver
  cases turn with
  | aside | joined | told =>
      obtain rfl := Option.some.inj (found.symm.trans found')
      exact isOver
  | submitted =>
      rw [push_old found] at found'
      obtain rfl := Option.some.inj found'
      exact isOver
  | begun hv phase => exact same hv (by rw [phase]; rfl) rfl found'
  | performed hv phase | ended hv phase | reported hv phase
  | faulted hv phase | completed hv phase | abandoned hv phase =>
      exact same hv (by rw [phase]; rfl) rfl found'

/-- What an executor counts off in one turn is a unit that was not over. -/
theorem Turn.off {n : Nat} {evs : List Event} (turn : Turn d n evs d')
    (x : ExecutorId) :
    completions x evs = []
      ∨ ∃ u s, completions x evs = [u] ∧ d.units[u]? = some s
        ∧ s.phase.over = false := by
  cases turn with
  | aside | joined | told | submitted | begun | performed | ended | reported
  | faulted => exact .inl rfl
  | @completed u s l failure found phase | @abandoned u s found phase =>
      by_cases own : s.executor = x
      · refine .inr ⟨u, s, ?_, found, by rw [phase]; rfl⟩
        simp [completions, Event.off, own]
      · refine .inl ?_
        simp [completions, Event.off, own]

/-- Units are over in the order in which they were submitted, and are counted
off in this order. -/
structure InOrder (x : ExecutorId) (seen : List Event) (d : Dispatch) :
    Prop where
  isOver : ∀ {u v : UnitId} {s s' : Submitted}, u < v →
    d.units[u]? = some s → d.units[v]? = some s' → s'.phase.over = true →
    s.phase.over = true
  sorted : (completions x seen).Pairwise (· < ·)

/-- The causes come in the order of the units, as long as a unit takes no step
while an earlier one goes on: the one that is counted off is then the first of
those on the way. -/
theorem InOrder.turn (h : InOrder x seen d) (account : Account seen d)
    {op : DispatchOp}
    (turn : Turn d op.numbers (op.events d) (op.apply d).1)
    (inTurn : op.inTurn d = true) :
    InOrder x (seen ++ op.events d) (op.apply d).1 where
  isOver := by
    intro u v s s' lt hu hv isOver
    obtain ⟨s₀', hv₀, before⟩ := turn.over_back hv isOver
    have lt' : u < d.units.size :=
      Nat.lt_trans lt (Array.getElem?_eq_some_iff.mp hv₀).1
    have hu₀ := Array.getElem?_eq_getElem lt'
    refine turn.over hu₀ ?_ hu
    rcases before with was | ⟨y, event⟩
    · exact h.isOver lt hu₀ hv₀ was
    · obtain rfl := proceed_of_event event rfl
      refine List.all_eq_true.mp inTurn _ ?_
      refine List.mem_of_getElem? (i := u) ?_
      rw [List.getElem?_take, if_pos lt, Array.getElem?_toList, hu₀]
  sorted := by
    have apart : completions x (seen ++ op.events d)
        = completions x seen ++ completions x (op.events d) :=
      List.flatMap_append
    rw [apart]
    rcases turn.off x with none | ⟨u, s, one, found, goesOn⟩
    · rw [none, List.append_nil]
      exact h.sorted
    · rw [one]
      refine List.pairwise_append.mpr
        ⟨h.sorted, List.pairwise_singleton _ _, ?_⟩
      intro v mem u' here
      obtain rfl := List.mem_singleton.mp here
      -- the units counted off before are over, and this one is not
      have known : v < d.units.size := by
        refine Nat.lt_of_not_le fun beyond => ?_
        exact (account.unknown beyond).2 x mem
      have hv := Array.getElem?_eq_getElem known
      have isOver : d.units[v].phase.over = true := by
        have count := account.off hv x
        have some : 0 < (completions x seen).count v :=
          List.count_pos_iff.mpr mem
        split at count
        · next both => exact both.2
        · omega
      rcases Nat.lt_trichotomy v u' with lt | rfl | gt
      · exact lt
      · rw [hv] at found
        rw [Option.some.inj found, goesOn] at isOver
        cases isOver
      · rw [h.isOver gt found hv isOver] at goesOn
        cases goesOn

/-- With a single thread, the units of an executor are counted off in the
order in which they were submitted. -/
theorem sorted_run {ops : List DispatchOp} (blank : d.Blank)
    (ordinary : Ordinary ops d = true) {k : Sink}
    (sink : d.ledger.sinks[d.ledger.sink]? = some k)
    (room : k.last.toNat + asked ops ≤ Sink.largestId.toNat)
    (inTurn : Throughout inTurn ops d = true) :
    (completions x (history ops d)).Pairwise (· < ·) := by
  have alike := d.alike_willing
  rw [ordinary_run_alike ops alike] at ordinary
  rw [throughout_alike (fun op _ _ => inTurn_alike op) ops alike] at inTurn
  have both := run_along (b := 0)
    (P := fun b seen d => Overseen (asked ops) b seen d ∧ InOrder x seen d)
    (fun turn now h => ⟨h.1.turn turn, h.2.turn h.1.account turn now⟩)
    blank.willing.stopped ordinary inTurn
    ⟨blank.overseen_willing sink room,
      by intro u v s s' lt found; simp [blank.willing.units] at found,
      List.Pairwise.nil⟩
  rw [history_alike ops alike]
  exact both.2.sorted

-- =============================================================== all units

/-- The units of an executor, as they were submitted. -/
def unitsAt (x : ExecutorId) (d : Dispatch) : List UnitId :=
  (d.units.toList.zipIdx.filter fun e => e.1.executor == x).map Prod.snd

/-- The units of an executor are those that it was given. -/
theorem mem_unitsAt {u : UnitId} :
    u ∈ d.unitsAt x ↔ ∃ s, d.units[u]? = some s ∧ s.executor = x := by
  simp only [unitsAt, List.mem_map, List.mem_filter, beq_iff_eq, Prod.exists,
    List.mem_zipIdx_iff_getElem?, Array.getElem?_toList, exists_eq_right]

/-- They are listed in the order in which they came. -/
theorem sorted_unitsAt (x : ExecutorId) (d : Dispatch) :
    (d.unitsAt x).Pairwise (· < ·) := by
  have sub : (d.unitsAt x).Sublist (d.units.toList.zipIdx.map Prod.snd) :=
    List.filter_sublist.map Prod.snd
  rw [List.zipIdx_map_snd] at sub
  exact List.Pairwise.sublist sub List.pairwise_lt_range'

/-- Once every unit of an executor is over, it has counted them all off. -/
theorem Account.completions_perm (h : Account seen d)
    (isOver : ∀ (u : UnitId) (s : Submitted), d.units[u]? = some s →
      s.executor = x → s.phase.over = true) :
    (completions x seen).Perm (d.unitsAt x) := by
  have nodup : (d.unitsAt x).Nodup :=
    (sorted_unitsAt x d).imp Nat.ne_of_lt
  rw [List.perm_ext_iff_of_nodup (h.completions_nodup x) nodup]
  intro u
  rw [mem_unitsAt, ← List.count_pos_iff]
  rcases Nat.lt_or_ge u d.units.size with lt | ge
  · have found := Array.getElem?_eq_getElem lt
    rw [h.off found x]
    constructor
    · intro pos
      split at pos
      · next both => exact ⟨_, found, both.1⟩
      · exact absurd pos (Nat.lt_irrefl 0)
    · rintro ⟨s, hs, own⟩
      rw [found] at hs
      obtain rfl := Option.some.inj hs
      rw [if_pos ⟨own, isOver u _ found own⟩]
      exact Nat.one_pos
  · constructor
    · intro pos
      exact absurd (List.count_pos_iff.mp pos) ((h.unknown ge).2 x)
    · rintro ⟨s, hs, -⟩
      exact absurd (Array.getElem?_eq_some_iff.mp hs).1 (Nat.not_lt.mpr ge)

/-- The causes of its units are those of its works. -/
theorem causesOver_unitsAt
    (outcome : ∀ (u : UnitId) (s : Submitted), d.units[u]? = some s →
      s.executor = x → outcomes u seen = [s.work.failure?]) :
    causesOver (d.unitsAt x) seen
      = (d.worksOf x).filterMap Work.failure? := by
  have listed : ∀ e ∈ d.units.toList.zipIdx, e.1.executor = x →
      outcomes e.2 seen = [e.1.work.failure?] := by
    intro e mem own
    refine outcome e.2 e.1 ?_ own
    rw [← Array.getElem?_toList]
    exact List.mem_zipIdx_iff_getElem?.mp mem
  have works : d.worksOf x = (d.units.toList.zipIdx.map Prod.fst).flatMap
      fun s => if s.executor = x then [s.work] else [] := by
    rw [List.zipIdx_map_fst]
    rfl
  rw [works]
  unfold unitsAt causesOver
  generalize d.units.toList.zipIdx = entries at listed
  induction entries with
  | nil => rfl
  | cons e rest ih =>
      have later := ih fun e' mem => listed e' (List.mem_cons_of_mem e mem)
      rw [List.map_cons, List.flatMap_cons, List.filterMap_append, ← later]
      by_cases own : e.1.executor = x
      · rw [List.filter_cons_of_pos (by simpa using own), if_pos own,
          List.map_cons, List.flatMap_cons, listed e List.mem_cons_self own,
          List.flatMap_singleton]
        refine congrArg (· ++ _) ?_
        cases h : e.1.work.failure? <;> simp [h]
      · rw [List.filter_cons_of_neg (by simpa using own), if_neg own]
        rfl

-- ================================================================= waits

/-- From anywhere in such a run, every schedule that names each unit five
times ends a wait. -/
theorem fair_ends {ops : List DispatchOp} (blank : d.Blank)
    (ordinary : Ordinary ops d = true) {k : Sink}
    (sink : d.ledger.sinks[d.ledger.sink]? = some k)
    (room : k.last.toNat + asked ops ≤ Sink.largestId.toNat)
    {p : PooledState} (pooled : (run ops d).1.pooled? x = some p)
    {schedule : List UnitId}
    (often : ∀ u < (run ops d).1.units.size, 5 ≤ schedule.count u) :
    (((run ops d).1.follow schedule).endAwait x).isSome = true := by
  -- the schedule is the end of a longer run
  have longer : (run (ops ++ schedule.map .proceed) d).1
      = (run ops d).1.follow schedule := by
    rw [run_append, run_schedule]
  have ordinary' : Ordinary (ops ++ schedule.map .proceed) d = true := by
    rw [ordinary_append, ordinary, ordinary_schedule, Bool.and_self]
  have room' : k.last.toNat + asked (ops ++ schedule.map .proceed)
      ≤ Sink.largestId.toNat := by
    rw [asked_append, asked_schedule]
    exact room
  obtain ⟨account, -⟩ := account_run blank ordinary' sink room'
  rw [longer] at account
  obtain ⟨q, pooled'⟩ :=
    follow_pooled (run_stopped blank.stopped ordinary) schedule pooled
  refine (account.endAwait_iff pooled').mpr ?_
  intro u s found own
  refine follow_over (often u ?_) found
  have lt := (Array.getElem?_eq_some_iff.mp found).1
  rw [follow_size] at lt
  exact lt

/-- A unit that is over was run once, and came to what it comes to. -/
theorem Account.outcome_once (h : Account seen d) (intact : Intact d)
    (faithful : Faithful x d) {u : UnitId} {s : Submitted}
    (found : d.units[u]? = some s) (own : s.executor = x)
    (isOver : s.phase.over = true) :
    outcomes u seen = [s.work.failure?] := by
  have given := intact.unit found
  rw [h.ran found]
  cases phase : s.phase with
  | completed failure =>
      have came : failure = s.work.failure? :=
        faithful.unit found own (by rw [phase]; rfl)
      rw [came]
      rfl
  | abandoned => rw [phase] at given; cases given
  | _ => rw [phase] at isOver; cases isOver

-- ============================================================= one by one

/-- A direct run: every unit is run as it is submitted and answers what it
came to. Beside the clock nothing of the ledger moves. -/
theorem direct_run {owner : String} (works : List Work)
    (direct : d.executors[x]? = some (.direct owner))
    (steady : Throughout (steady x) (works.map (.submit x)) d = true) :
    ∃ now, DispatchOp.run (works.map (.submit x)) d
      = ({ d with ledger := { d.ledger with now }
                  ran := d.ran ++ works.map Work.action },
          works.map fun w => .ok (.submitted w.result)) := by
  induction works generalizing d with
  | nil =>
      refine ⟨d.ledger.now, ?_⟩
      rw [List.map_nil, List.map_nil, List.append_nil]
      rfl
  | cons w rest ih =>
      obtain ⟨here, later⟩ := Bool.and_eq_true_iff.mp steady
      have ends : (d.perform w).2.isOk = true := by
        unfold DispatchOp.steady at here
        rw [runs?_submit direct] at here
        exact here
      -- the unit itself: time passes, and the answer is its result
      have one : ∃ now, (DispatchOp.submit x w).apply d
          = ({ d with ledger := { d.ledger with now }
                      ran := d.ran ++ [w.action] },
              .ok (.submitted w.result)) := by
        have answer := perform_steady ends
        obtain ⟨now, time⟩ := perform_clock w d
        refine ⟨now, ?_⟩
        unfold DispatchOp.apply submit
        dsimp only
        rw [direct]
        dsimp only
        rw [show d.perform w = (_, _) from Prod.ext time answer]
        unfold Work.result
        cases w.cause? with
        | none => rfl
        | some cause => rfl
      obtain ⟨now, one⟩ := one
      rw [one] at later
      obtain ⟨now', rest_⟩ := ih (d := { d with
        ledger := { d.ledger with now }, ran := d.ran ++ [w.action] })
        direct later
      refine ⟨now', ?_⟩
      rw [List.map_cons, DispatchOp.run, one]
      dsimp only
      rw [rest_, List.append_assoc]
      rfl

end Dispatch

namespace DispatchOp

open Dispatch

/-- Submit some units one by one to a direct executor, and the same ones to a
pooled executor whose pool is alive and whose sink has numbers left, with
anything ordinary around them and in any order of the units' steps; none of
them gives up. The direct run runs each once, answers each with success or
with its own failure, and leaves the ledger as it was but for the clock. In
the pooled run each is run once by the time the wait is over: the works in the
list of what was run are those that were submitted, and each came to what it
comes to. However far the run has come, every schedule that names each unit five
times ends the wait. The wait succeeds exactly when every direct submission did.
If it does not, its causes are those of the direct answers in some order, and in
the same order if the pool has one thread that takes the units as they come. -/
theorem backends_agree (works : List Work)
    (e : Dispatch) (x : ExecutorId) (owner : String)
    (direct : e.executors[x]? = some (.direct owner))
    (steady : Throughout (steady x) (works.map (.submit x)) e = true)
    (ops : List DispatchOp) (d : Dispatch) (blank : d.Blank)
    (ordinary : Ordinary ops d = true) (k : Sink)
    (sink : d.ledger.sinks[d.ledger.sink]? = some k)
    (room : k.last.toNat + asked ops ≤ Sink.largestId.toNat)
    (y : ExecutorId) (p : PooledState)
    (pooled : (run ops d).1.pooled? y = some p)
    (given : submissions y (history ops d) = works)
    (steady' : Throughout (DispatchOp.steady y) ops d = true)
    (first : toldTo y (history ops d) = []) :
    let one := run (works.map (.submit x)) e
    let m := (run ops d).1
    (∃ now, one.1 = { e with ledger := { e.ledger with now }
                             ran := e.ran ++ works.map Work.action })
      ∧ one.2 = works.map (fun w => .ok (.submitted w.result))
      ∧ m.ran = d.ran ++ (performed ops d).map (fun e => e.2.action)
      ∧ (∀ schedule : List UnitId,
          (∀ u < m.units.size, 5 ≤ schedule.count u) →
          ((m.follow schedule).endAwait y).isSome = true)
      ∧ ∀ m' r, m.endAwait y = some (m', r) →
          m.worksOf y = works
          ∧ (performedFor y ops d).Perm works
          ∧ (∀ (u : UnitId) (s : Submitted), m.units[u]? = some s →
              s.executor = y →
              outcomes u (history ops d) = [s.work.failure?])
          ∧ (r = .ok () ↔ ∀ a ∈ one.2, a = .ok (.submitted (.ok ())))
          ∧ (r ≠ .ok () → ∃ causes, r = .error (.workers causes)
              ∧ causes.Perm (one.2.filterMap failureIn)
              ∧ (Throughout inTurn ops d = true →
                  causes = one.2.filterMap failureIn)) := by
  intro one m
  obtain ⟨now, ran⟩ := direct_run works direct steady
  have answers : one.2 = works.map fun w => .ok (.submitted w.result) :=
    congrArg Prod.snd ran
  -- the direct executor fails with what the works say
  have failures : one.2.filterMap failureIn
      = works.filterMap Work.failure? := by
    rw [answers, List.filterMap_map]
    refine List.filterMap_congr fun w _ => ?_
    show failureIn (.ok (.submitted w.result)) = w.failure?
    unfold Work.result Work.failure?
    cases w.cause? with
    | none => rfl
    | some cause => rfl
  obtain ⟨account, intact⟩ := account_run blank ordinary sink room
  have faithful : Faithful y m := faithful_run blank ordinary steady'
  refine ⟨⟨now, congrArg Prod.fst ran⟩, answers, ran_run ops d,
    fun _ => fair_ends blank ordinary sink room pooled, ?_⟩
  intro m' r answer
  have isOver := (account.endAwait_iff pooled).mp (by rw [answer]; rfl)
  have outcome (u : UnitId) (s : Submitted) (found : m.units[u]? = some s)
      (own : s.executor = y) : outcomes u (history ops d) = [s.work.failure?] :=
    account.outcome_once intact faithful found own (isOver u s found own)
  have worked : m.worksOf y = works := (account.given y).trans given
  -- so does the pooled one, if the causes are read in the order of the units
  have listed : causesOver (m.unitsAt y) (history ops d)
      = one.2.filterMap failureIn := by
    rw [causesOver_unitsAt outcome, worked, failures]
  have kept : p.failures
      = causesOver (completions y (history ops d)) (history ops d) := by
    rw [← account.told, first, (at_of pooled).2]
    rfl
  -- the units come off in another order, and the causes with them
  have counted := account.completions_perm isOver
  have perm : p.failures.Perm (one.2.filterMap failureIn) := by
    rw [kept, ← listed]
    exact counted.flatMap_right _
  have all : one.2.filterMap failureIn = []
      ↔ ∀ a ∈ one.2, a = .ok (.submitted (.ok ())) := by
    rw [failures, List.filterMap_eq_nil_iff, answers]
    simp only [List.forall_mem_map, Except.ok.injEq,
      DispatchAnswer.submitted.injEq, Work.failure?_eq_none]
  have told := (endAwait_answer pooled answer).2
  -- each was performed, since each is over, and none twice
  have once : (performedFor y ops d).Perm works := by
    have counted : RanFor y ([] ++ performedFor y ops d) m :=
      (blank.ranFor y).run blank.stopped ordinary (not_direct pooled)
    rw [← worked]
    exact counted.perm isOver
  refine ⟨worked, once, outcome, ?_, ?_⟩
  · rw [← all, told]
    split
    · next none =>
        rw [List.isEmpty_iff.mp none] at perm
        exact ⟨fun _ => perm.nil_eq.symm, fun _ => rfl⟩
    · next some =>
        refine ⟨fun h => (by cases h), fun none => absurd ?_ some⟩
        rw [none] at perm
        exact List.isEmpty_iff.mpr perm.eq_nil
  · intro failed
    have some : ¬ p.failures.isEmpty = true := by
      intro none
      rw [told, if_pos none] at failed
      exact failed rfl
    refine ⟨p.failures, by rw [told, if_neg some], perm, ?_⟩
    -- in turn, the order in which they come off is that of the units
    intro inTurn
    have same : completions y (history ops d) = m.unitsAt y :=
      counted.eq_of_pairwise (fun _ _ _ _ lt gt => absurd lt (Nat.lt_asymm gt))
        (sorted_run blank ordinary sink room inTurn) (sorted_unitsAt y m)
    rw [kept, same, listed]

/-- Three units, two of which fail, over a sink that refuses the spans of
workers. Two threads get the last one through first, and the wait tells its
cause first; a single thread tells the causes as the direct run answers
them. -/
theorem backends_agree_two_threads :
    let works : List Work :=
      [{ action := "A", hash := 0,
         script := { ms := 5, ending := .failure "no" [] } },
        { action := "B", hash := 1, script := { ms := 3 } },
        { action := "C", hash := 2,
          script := { ending := .failure "io" ["disk"] } }]
    let e : Dispatch := { executors := #[.direct ":a"] }
    let sink : Sink :=
      { outlet := .memory, refuses := Sink.refusingKinds [.worker] }
    let d : Dispatch := { ledger := { sinks := #[sink] } }
    let ops (schedule : List UnitId) : List DispatchOp :=
      [.onLedger (.startTask ":a" ":app" none),
        .addExecutor (.pooled { owner := ":a", entry := .task 0 })]
        ++ works.map (.submit 0) ++ [.beginAwait 0] ++ schedule.map .proceed
    let failures := (run (works.map (.submit 0)) e).2.filterMap failureIn
    failures = ["A: no", "C: disk: io"]
      ∧ (∃ m' causes, (run (ops [0, 2, 0, 2, 2, 2, 2, 1, 0, 1, 0, 0, 1, 1, 1])
            d).1.endAwait 0 = some (m', .error (.workers causes))
          ∧ causes.Perm failures ∧ causes = ["C: disk: io", "A: no"])
      ∧ ∃ m', (run (ops (straight 0 ++ straight 1 ++ straight 2)) d).1.endAwait 0
          = some (m', .error (.workers failures)) := by
  intro works e sink d ops failures
  have blank : d.Blank := ⟨rfl, rfl, rfl, rfl, rfl, rfl⟩
  have told : failures = ["A: no", "C: disk: io"] := by decide +kernel
  refine ⟨told, ?_, ?_⟩
  · let apart := ops [0, 2, 0, 2, 2, 2, 2, 1, 0, 1, 0, 0, 1, 1, 1]
    have its : ((run apart d).1.pooled? 0).isSome = true := by decide +kernel
    obtain ⟨p, pooled⟩ := Option.isSome_iff_exists.mp its
    obtain ⟨-, -, -, -, isOver⟩ := backends_agree works e 0 ":a" rfl
      (by decide +kernel) apart d blank (by decide +kernel) _ rfl
      (by decide +kernel) 0 p pooled (by decide +kernel) (by decide +kernel)
      (by decide +kernel)
    have ends : ((run apart d).1.endAwait 0).isSome = true := by decide +kernel
    obtain ⟨⟨m', r⟩, answer⟩ := Option.isSome_iff_exists.mp ends
    have all : ((run apart d).1.endAwait 0).map (fun a => causesOf a.2)
        = some ["C: disk: io", "A: no"] := by decide +kernel
    rw [answer] at all
    obtain ⟨-, -, -, -, some⟩ := isOver m' r answer
    obtain ⟨causes, rfl, perm, -⟩ :=
      some (fun ok => by rw [ok] at all; simp [causesOf] at all)
    exact ⟨m', causes, answer, perm, Option.some.inj all⟩
  · let straightOn := ops (straight 0 ++ straight 1 ++ straight 2)
    have its : ((run straightOn d).1.pooled? 0).isSome = true := by
      decide +kernel
    obtain ⟨p, pooled⟩ := Option.isSome_iff_exists.mp its
    obtain ⟨-, -, -, -, isOver⟩ := backends_agree works e 0 ":a" rfl
      (by decide +kernel) straightOn d blank (by decide +kernel) _ rfl
      (by decide +kernel) 0 p pooled (by decide +kernel) (by decide +kernel)
      (by decide +kernel)
    have ends : ((run straightOn d).1.endAwait 0).isSome = true := by
      decide +kernel
    obtain ⟨⟨m', r⟩, answer⟩ := Option.isSome_iff_exists.mp ends
    obtain ⟨-, -, -, success, some⟩ := isOver m' r answer
    have failed : r ≠ .ok () := by
      intro ok
      have none : (run (works.map (.submit 0)) e).2.all
          (fun a => (failureIn a).isNone) = true := by
        refine List.all_eq_true.mpr fun a mem => ?_
        rw [success.mp ok a mem]
        rfl
      revert none
      decide +kernel
    obtain ⟨causes, rfl, -, same⟩ := some failed
    refine ⟨m', answer.trans ?_⟩
    rw [same (by decide +kernel)]

end DispatchOp

end TaskLedger
