/-
A sink that refuses writes keeps less, and that is all that comes of it.

Two dispatches are alike if their ledgers are and nothing else differs.
Whatever happens to both, they stay alike, and each operation but a write on
nobody's behalf answers the same (`alike_apply`). So a history over sinks
that refuse runs in lockstep with the history over the same sinks made
willing: tasks, workers, registries and counters agree after every
operation, and so do the executors and their units. A sweep may go over the
registry in any order while that is so, as long as it is the same for both
(`SweepOp`).

What the sinks hold is the other half. `Holding` says of one of them that it
holds what it takes of all that it was offered; that is kept by every single
change, and the two histories offer the same.
-/
import TaskLedger.Proofs.Ledger.Alike
import TaskLedger.Proofs.Dispatch.Moves
import TaskLedger.Proofs.Dispatch.Turn

namespace TaskLedger

/-- The records that a sink takes of those that it is offered one after
another, when so many were offered before. -/
def Sink.takes (k : Sink) : Nat → List SpanRecord → List SpanRecord
  | _, [] => []
  | n, r :: rest =>
      if (k.refuses n r).isNone then r :: k.takes (n + 1) rest
      else k.takes (n + 1) rest

/-- A sink takes what it takes of one part and then of the other, where it goes
on counting from the first. -/
theorem Sink.takes_append (k : Sink) (n : Nat) (rs more : List SpanRecord) :
    k.takes n (rs ++ more) = k.takes n rs ++ k.takes (n + rs.length) more := by
  induction rs generalizing n with
  | nil => rfl
  | cons r rest ih =>
      have next : n + 1 + rest.length = n + (r :: rest).length := by
        rw [List.length_cons]
        omega
      simp only [List.cons_append, Sink.takes, ih, next]
      split <;> rfl

/-- A willing sink takes everything. -/
theorem Sink.takes_willing (k : Sink) (n : Nat) (rs : List SpanRecord) :
    k.willing.takes n rs = rs := by
  induction rs generalizing n with
  | nil => rfl
  | cons r rest ih =>
      show r :: k.willing.takes (n + 1) rest = r :: rest
      rw [ih]

/-- What a sink makes of one line. -/
theorem Sink.takes_one (k : Sink) (s : SinkId) (o : Origin) (n : Nat)
    (r : SpanRecord) :
    ([⟨s, o, r, k.refuses n r⟩].filter Write.taken).map Write.record
      = k.takes n [r] := by
  unfold Sink.takes
  rw [List.filter_cons]
  unfold Write.taken
  split <;> rfl

namespace Ledger

variable {s : SinkId} {k : Sink} {l m : Ledger}

-- ================================================================ holding

/-- A sink that refuses what `k` refuses holds what `k` takes of all that
it was offered. -/
structure Holding (s : SinkId) (k : Sink) (l : Ledger) : Prop where
  sink : ∃ j, l.sinks[s]? = some j ∧ j.refuses = k.refuses
  taken : l.taken s = k.takes 0 ((l.offered s).map Write.record)

/-- A sink that was offered nothing yet holds nothing. -/
theorem holding_of_fresh (found : l.sinks[s]? = some k)
    (fresh : l.offered s = []) : Holding s k l := by
  refine ⟨⟨k, found, rfl⟩, ?_⟩
  unfold Ledger.taken
  rw [fresh]
  rfl

/-- A number that is taken is no record that is offered. -/
theorem Holding.number (h : Holding s k l) (s' : SinkId) :
    Holding s k { l with sinks := l.sinks.modify s' fun k => k.next.1 } := by
  refine ⟨?_, h.taken⟩
  obtain ⟨j, hj, same⟩ := h.sink
  obtain ⟨i, hi⟩ := modify_old (f := fun k : Sink => k.next.1) s' hj
  refine ⟨i, hi, ?_⟩
  rcases modify_cases hi with ⟨-, j', hj', rfl⟩ | ⟨-, hj'⟩
  · rw [hj] at hj'
    obtain rfl := Option.some.inj hj'
    rw [refuses_next, same]
  · rw [hj] at hj'
    obtain rfl := Option.some.inj hj'
    exact same

/-- A write to another sink is not seen; one to this sink is taken or
refused. -/
theorem Holding.append (h : Holding s k l) (s' : SinkId) (o : Origin)
    (r : SpanRecord) :
    Holding s k { l with journal := l.journal ++ l.notes s' o r } := by
  refine ⟨h.sink, ?_⟩
  have before := h.taken
  obtain ⟨j, hj, same⟩ := h.sink
  unfold Ledger.taken Ledger.offered at before ⊢
  dsimp only
  rw [List.filter_append, List.filter_append, List.map_append,
    List.map_append, Sink.takes_append, before]
  refine congrArg (k.takes 0 _ ++ ·) ?_
  by_cases e : s' = s
  · subst e
    have count : 0 + ((l.journal.filter fun w => w.sink == s').map
        Write.record).length = l.journal.countP fun w => w.sink == s' := by
      rw [Nat.zero_add, List.length_map, List.countP_eq_length_filter]
    have line : l.notes s' o r
        = [⟨s', o, r, k.refuses (l.journal.countP fun w => w.sink == s') r⟩] := by
      unfold notes
      rw [hj]
      dsimp only
      rw [same]
    rw [count, line, List.filter_cons_of_pos (by simp), List.filter_nil]
    exact k.takes_one s' o _ r
  · have none : (l.notes s' o r).filter (fun w => w.sink == s) = [] := by
      unfold notes
      cases l.sinks[s']? with
      | none => rfl
      | some i => simp [e]
    rw [none]
    rfl

/-- What a sink holds is what it took of what it was offered: no operation
offers it anything without noting that, or notes anything that was not offered.
-/
theorem holding_kept (s : SinkId) (k : Sink) :
    Kept (fun _ => True) fun _ l => Holding s k l := by
  refine .of_change fun {a l m} h c => ?_
  cases c with
  | quiet q =>
      cases q with
      | clock | aside | turned | hired => exact ⟨h.sink, h.taken⟩
      | number s' => exact h.number s'
      | opened => exact ⟨(h.number l.sink).sink, h.taken⟩
  | @concluded t task found opened =>
      have written := h.append task.sink (.task t)
        (task.record (task.span (l.crewOf task)) task.children)
      exact ⟨written.sink, written.taken⟩
  | enlisted | started | ended => exact ⟨h.sink, h.taken⟩
  | @reported t w task worker j id found present sink next =>
      have written := h.append task.sink (.worker t w)
        (task.record (worker.span id task.id) [])
      exact ⟨(h.number task.sink).sink, written.taken⟩
  | offered => exact h.append _ _ _

/-- Alike ledgers offered a sink the same records. -/
theorem Alike.offered (h : Alike l m) (s : SinkId) :
    (l.offered s).map Write.record = (m.offered s).map Write.record := by
  have same (l : Ledger) : (l.offered s).map Write.record
      = ((l.journal.map Write.offer).filter fun o => o.1 == s).map
          Prod.snd := by
    unfold Ledger.offered
    rw [List.filter_map, List.map_map]
    rfl
  rw [same, same, h.journal]

/-- The ledger if no sink of it refused anything. -/
def willing (l : Ledger) : Ledger :=
  { l with sinks := l.sinks.map Sink.willing }

/-- A ledger is like one whose sinks refuse nothing. -/
theorem alike_willing (l : Ledger) : Alike l l.willing := by
  refine { Alike.refl l with sinks := ?_ }
  show _ = (l.sinks.map Sink.willing).map Sink.willing
  rw [Array.map_map]
  rfl

end Ledger

-- =============================================================== lockstep

namespace Dispatch

/-- Two dispatches that are alike in their ledgers and the same in all
else. -/
structure Alike (d e : Dispatch) : Prop where
  ledger : d.ledger.Alike e.ledger
  executors : d.executors = e.executors
  units : d.units = e.units
  stopped : d.stopped = e.stopped
  ran : d.ran = e.ran

/-- Two outcomes: alike dispatches and the same answer. -/
structure Agree {α : Type} (r s : Dispatch × α) : Prop where
  dispatch : Alike r.1 s.1
  answer : r.2 = s.2

variable {d e : Dispatch}

namespace Alike

/-- Dispatches stay alike while their ledgers are. -/
theorem setLedger (h : Alike d e) {l m : Ledger} (alike : l.Alike m) :
    Alike { d with ledger := l } { e with ledger := m } :=
  { h with ledger := alike }

theorem setPhase (h : Alike d e) (u : UnitId) (p : Phase) :
    Alike (d.setPhase u p) (e.setPhase u p) := by
  refine { h with units := ?_ }
  unfold Dispatch.setPhase
  rw [h.units]

theorem onPooled (h : Alike d e) (x : ExecutorId)
    (f : PooledState → PooledState) :
    Alike (d.onPooled x f) (e.onPooled x f) := by
  refine { h with executors := ?_ }
  unfold Dispatch.onPooled
  rw [h.executors]

theorem pooled? (h : Alike d e) (x : ExecutorId) :
    d.pooled? x = e.pooled? x := by
  unfold Dispatch.pooled?
  rw [h.executors]

/-- A unit is run with the same outcome: it does not see the sinks. -/
theorem perform (h : Alike d e) (w : Work) :
    Agree (d.perform w) (e.perform w) := by
  have time := h.ledger.advance w.script.ms w.script.ns
  have noted : Alike { d with ran := d.ran ++ [w.action] }
      { e with ran := e.ran ++ [w.action] } := by
    refine { h with ran := ?_ }
    dsimp only
    rw [h.ran]
  unfold Dispatch.perform
  dsimp only
  cases hd : d.ledger.advance w.script.ms w.script.ns with
  | mk l a =>
  cases he : e.ledger.advance w.script.ms w.script.ns with
  | mk m b =>
  rw [hd, he] at time
  obtain ⟨alike, answer⟩ := time
  dsimp only at alike answer
  subst answer
  cases a with
  | error f => exact ⟨noted.setLedger alike, rfl⟩
  | ok => exact ⟨noted.setLedger alike, rfl⟩

/-- Alike dispatches are one dispatch with two ledgers. -/
theorem two_ledgers (h : Alike d e) :
    ∃ m, e = { d with ledger := m } ∧ d.ledger.Alike m := by
  obtain ⟨l, executors, units, stopped, ran⟩ := d
  obtain ⟨m, executors', units', stopped', ran'⟩ := e
  obtain ⟨alike, rfl, rfl, rfl, rfl⟩ := h
  exact ⟨m, rfl, alike⟩

/-- Two ledgers that are alike make alike dispatches. -/
theorem of_ledgers {l m : Ledger} (d : Dispatch) (alike : l.Alike m) :
    Alike { d with ledger := l } { d with ledger := m } :=
  ⟨alike, rfl, rfl, rfl, rfl⟩

/-- The next step of a unit is the same in both. -/
theorem proceed (h : Alike d e) (u : UnitId) :
    Alike (d.proceed u) (e.proceed u) := by
  obtain ⟨m, rfl, alike⟩ := h.two_ledgers
  unfold Dispatch.proceed
  dsimp only
  cases d.units[u]? with
  | none => exact h
  | some s =>
  dsimp only
  cases s.phase with
  | queued =>
      dsimp only
      split
      · exact (h.onPooled _ _).setPhase u _
      · have found := LedgerOp.agree_lookUp
          (alike.aside d.ledger.tree m.tree (d.ledger.marks ++ [.unit u])
            (m.marks ++ [.unit u]) d.ledger.warnings m.warnings)
          s.entry s.key
        rw [found.answer]
        exact (of_ledgers d (found.ledger.startWorker _)).setPhase u _
  | begun w =>
      have done := h.perform s.work
      dsimp only
      rw [done.answer]
      exact done.dispatch.setPhase u _
  | ran w failure => exact (of_ledgers d (alike.endWorker w)).setPhase u _
  | ended w failure =>
      -- the sink may take the report on one side only, and the unit goes on all
      -- the same
      obtain ⟨after, answer⟩ := LedgerOp.agree_report alike s.entry w
      dsimp only
      cases hd : Ledger.OnEntry.report s.entry w d.ledger with
      | mk l a =>
      cases he : Ledger.OnEntry.report s.entry w m with
      | mk m' b =>
      rw [hd, he] at after answer
      dsimp only at after answer
      subst answer
      cases a with
      | ok => exact (of_ledgers d after).setPhase u _
      | error f => exact (of_ledgers d after).setPhase u _
  | reported failure =>
      cases failure with
      | none => exact (h.onPooled _ _).setPhase u _
      | some cause =>
          exact ((of_ledgers d (alike.warn _ _)).onPooled _ _).setPhase u _
  | faulted => exact (h.onPooled _ _).setPhase u _
  | completed failure => exact h
  | abandoned => exact h

/-- So is a submission. -/
theorem submit (h : Alike d e) (x : ExecutorId) (w : Work) :
    Agree (d.submit x w) (e.submit x w) := by
  obtain ⟨m, rfl, alike⟩ := h.two_ledgers
  unfold Dispatch.submit
  dsimp only
  cases d.executors[x]? with
  | none => exact ⟨h, rfl⟩
  | some executor =>
  cases executor with
  | direct owner =>
      obtain ⟨after, answer⟩ := h.perform w
      dsimp only
      cases hd : d.perform w with
      | mk d' a =>
      cases he : Dispatch.perform w { d with ledger := m } with
      | mk e' b =>
      rw [hd, he] at after answer
      dsimp only at after answer
      subst answer
      rcases a with f | failure
      · exact ⟨after, rfl⟩
      · cases failure with
        | none => exact ⟨after, rfl⟩
        | some cause => exact ⟨after, rfl⟩
  | pooled p =>
      have enlisted := LedgerOp.alike_does
        (fun t _ _ h => h.enlist t (p.nextKey w) .worker) p.entry alike
      have queued := of_ledgers
        { d.onPooled x charged with units := d.units.push (unitOf x p w) }
        enlisted
      refine ⟨?_, rfl⟩
      show Alike (if d.stopped then _ else _) (if d.stopped then _ else _)
      by_cases stopped : d.stopped = true
      · rw [if_pos stopped, if_pos stopped]
        exact queued.proceed d.units.size
      · rw [if_neg stopped, if_neg stopped]
        exact queued

/-- An owner starts to wait on both sides, or finds no task to wait for on
either. -/
theorem beginAwait (h : Alike d e) (x : ExecutorId) :
    Alike (d.beginAwait x) (e.beginAwait x) := by
  unfold Dispatch.beginAwait
  rw [h.pooled?]
  cases e.pooled? x with
  | none => exact h
  | some p =>
      exact h.setLedger (LedgerOp.alike_does (fun t _ _ h => h.onTask t _)
        p.entry h.ledger)

/-- It gives control back on both sides. -/
theorem release (h : Alike d e) (x : ExecutorId) :
    Alike (d.release x) (e.release x) := by
  unfold Dispatch.release
  rw [h.pooled?]
  cases e.pooled? x with
  | none => exact h
  | some p =>
      exact h.setLedger (LedgerOp.alike_does (fun t _ _ h => h.close t)
        p.entry h.ledger)

/-- A wait ends on both sides or on neither, and with the same answer: the
causes are what units came to, and no refusal is among them. -/
theorem endAwait (h : Alike d e) (x : ExecutorId) :
    (d.endAwait x).map Prod.snd = (e.endAwait x).map Prod.snd
      ∧ ∀ d' r e' r', d.endAwait x = some (d', r) →
          e.endAwait x = some (e', r') → Alike d' e' := by
  unfold Dispatch.endAwait
  rw [h.pooled?]
  cases e.pooled? x with
  | none =>
      refine ⟨rfl, ?_⟩
      rintro _ _ _ _ ⟨rfl, rfl⟩ ⟨rfl, rfl⟩
      exact h
  | some p =>
      dsimp only
      split
      · refine ⟨rfl, ?_⟩
        intro d' r e' r' hd he
        obtain ⟨rfl, -⟩ := Prod.mk.inj (Option.some.inj hd)
        obtain ⟨rfl, -⟩ := Prod.mk.inj (Option.some.inj he)
        exact h.onPooled x _
      · refine ⟨rfl, ?_⟩
        intro d' r e' r' hd
        cases hd

end Alike

/-- The dispatch if no sink of its ledger refused anything. -/
def willing (d : Dispatch) : Dispatch := d.onLedger Ledger.willing

/-- A dispatch is like one whose sinks refuse nothing. -/
theorem alike_willing (d : Dispatch) : Alike d d.willing :=
  ⟨d.ledger.alike_willing, rfl, rfl, rfl, rfl⟩

end Dispatch

namespace DispatchOp

open Dispatch

variable {d e : Dispatch}

/-- A write on nobody's behalf. -/
def byNobody : DispatchOp → Bool
  | onLedger op => op.byNobody
  | _ => false

/-- Whatever happens to alike dispatches, they stay alike, and it answers
the same on both unless it is a write on nobody's behalf. -/
theorem alike_apply (op : DispatchOp) (h : Alike d e) :
    Alike (op.apply d).1 (op.apply e).1
      ∧ (op.byNobody = false → (op.apply d).2 = (op.apply e).2) := by
  cases op with
  | onLedger op =>
      obtain ⟨alike, answer⟩ := LedgerOp.alike_apply op h.ledger
      refine ⟨h.setLedger alike, fun other => ?_⟩
      simp only [apply]
      rw [answer other]
  | addExecutor x =>
      obtain ⟨m, rfl, alike⟩ := h.two_ledgers
      exact ⟨Alike.of_ledgers (d.addExecutor x).1 alike, fun _ => rfl⟩
  | submit x w =>
      obtain ⟨alike, answer⟩ := h.submit x w
      refine ⟨alike, fun _ => ?_⟩
      simp only [apply]
      rw [answer]
  | proceed u => exact ⟨h.proceed u, fun _ => rfl⟩
  | beginAwait x => exact ⟨h.beginAwait x, fun _ => rfl⟩
  | endAwait x =>
      obtain ⟨answer, after⟩ := h.endAwait x
      simp only [apply]
      cases hd : d.endAwait x with
      | none =>
          cases he : e.endAwait x with
          | none => exact ⟨h, fun _ => rfl⟩
          | some r => simp [hd, he] at answer
      | some r =>
          cases he : e.endAwait x with
          | none => simp [hd, he] at answer
          | some r' =>
              rw [hd, he] at answer
              refine ⟨after _ _ _ _ hd he, fun _ => ?_⟩
              exact congrArg (fun a => Except.ok (DispatchAnswer.awaited a))
                (Option.some.inj answer)
  | release x => exact ⟨h.release x, fun _ => rfl⟩
  | stop => exact ⟨{ h with stopped := rfl }, fun _ => rfl⟩

end DispatchOp

-- ============================================================= any order

/-- Something that happens to a dispatch, where a sweep goes over the registry
in an order of its own. -/
inductive SweepOp
  | plain (op : DispatchOp)
  | flushBy (order : List (String × TaskId))
  | endBuildBy (order : List (String × TaskId))

namespace SweepOp

open Dispatch

/-- Lets it happen. -/
def apply (op : SweepOp) (d : Dispatch) :
    Dispatch × Except Fault DispatchAnswer :=
  match op with
  | plain op => op.apply d
  | flushBy order => swept d (d.ledger.flushBy order)
  | endBuildBy order => swept d (d.ledger.endBuildBy order)
where
  /-- A sweep answers how many spans it had written. -/
  swept (d : Dispatch) (r : Ledger × Nat) :
      Dispatch × Except Fault DispatchAnswer :=
    ({ d with ledger := r.1 }, .ok (.ofLedger (.count r.2)))

/-- Lets things happen one after another and lists what came of them. -/
def run : List SweepOp → Dispatch →
    Dispatch × List (Except Fault DispatchAnswer)
  | [], d => (d, [])
  | op :: rest, d =>
      let (d, a) := op.apply d
      let (d, as) := run rest d
      (d, a :: as)

/-- A write on nobody's behalf. -/
def byNobody : SweepOp → Bool
  | plain op => op.byNobody
  | _ => false

variable {d e : Dispatch}

/-- The sweeps of a history can be left to go by the numbers of the tasks'
spans. -/
theorem run_plain (ops : List DispatchOp) (d : Dispatch) :
    run (ops.map plain) d = DispatchOp.run ops d := by
  induction ops generalizing d with
  | nil => rfl
  | cons op rest ih =>
      exact congrArg (fun r => (r.1, (op.apply d).2 :: r.2))
        (ih (op.apply d).1)

/-- An order makes no difference to whether dispatches stay alike: it tells
which task is next, not what is done to it. -/
theorem alike_apply (op : SweepOp) (h : Alike d e) :
    Alike (op.apply d).1 (op.apply e).1
      ∧ (op.byNobody = false → (op.apply d).2 = (op.apply e).2) := by
  have swept {r s : Ledger × Nat} (agree : Ledger.Agree r s) :
      Alike (apply.swept d r).1 (apply.swept e s).1
        ∧ (apply.swept d r).2 = (apply.swept e s).2 := by
    unfold apply.swept
    rw [agree.answer]
    exact ⟨h.setLedger agree.ledger, rfl⟩
  cases op with
  | plain op => exact DispatchOp.alike_apply op h
  | flushBy order =>
      obtain ⟨alike, answer⟩ := swept (h.ledger.flushBy order)
      exact ⟨alike, fun _ => answer⟩
  | endBuildBy order =>
      obtain ⟨alike, answer⟩ := swept (h.ledger.endBuildBy order)
      exact ⟨alike, fun _ => answer⟩

/-- Over a whole history they stay alike. -/
theorem alike_run (ops : List SweepOp) (h : Alike d e) :
    Alike (run ops d).1 (run ops e).1 := by
  induction ops generalizing d e with
  | nil => exact h
  | cons op rest ih => exact ih (alike_apply op h).1

/-- And each operation of it answers the same. -/
theorem answer_run (ops : List SweepOp) (h : Alike d e) {i : Nat}
    {op : SweepOp} (at_ : ops[i]? = some op)
    (other : op.byNobody = false) : (run ops d).2[i]? = (run ops e).2[i]? := by
  induction ops generalizing d e i with
  | nil => cases at_
  | cons first rest ih =>
      obtain ⟨alike, answer⟩ := alike_apply first h
      cases i with
      | zero =>
          obtain rfl := Option.some.inj at_
          exact congrArg some (answer other)
      | succ i => exact ih alike at_

/-- What a sink holds stays what it takes of its offers. -/
theorem holding_apply (op : SweepOp) {s : SinkId} {k : Sink}
    (h : d.ledger.Holding s k) : (op.apply d).1.ledger.Holding s k := by
  have kept := Ledger.holding_kept s k
  cases op with
  | plain op =>
      exact DispatchOp.noted_keeps (f := fun _ _ => ([] : List Unit))
        (P := fun _ l => l.Holding s k)
        (fun _ _ h => ⟨h.sink, h.taken⟩)
        (fun _ h => kept.apply (b := 0) (fun _ _ => trivial) h) [op] h
  | flushBy order => exact kept.settles (b := 0) (Ledger.settles_flushBy _ _) h
  | endBuildBy order =>
      exact kept.settles (b := 0) (Ledger.settles_endBuildBy _ _) h

/-- What a sink holds after a history: what it takes of all that it was
offered. -/
theorem holding_run (ops : List SweepOp) {s : SinkId} {k : Sink}
    (h : d.ledger.Holding s k) : (run ops d).1.ledger.Holding s k := by
  induction ops generalizing d with
  | nil => exact h
  | cons op rest ih => exact ih (holding_apply op h)

end SweepOp

namespace DispatchOp

open Dispatch

variable {d e : Dispatch}

/-- Over a whole history they stay alike. -/
theorem alike_run (ops : List DispatchOp) (h : Alike d e) :
    Alike (run ops d).1 (run ops e).1 := by
  rw [← SweepOp.run_plain, ← SweepOp.run_plain]
  exact SweepOp.alike_run _ h

/-- What a sink holds after a history that began with nothing: what it takes of
all that it was offered. -/
theorem holding_run (ops : List DispatchOp) {s : SinkId} {k : Sink}
    (found : d.ledger.sinks[s]? = some k) (fresh : d.ledger.offered s = []) :
    (run ops d).1.ledger.Holding s k := by
  rw [← SweepOp.run_plain]
  exact SweepOp.holding_run _ (Ledger.holding_of_fresh found fresh)

end DispatchOp

namespace SweepOp

open Dispatch

/-- Compare any history over sinks that refuse writes as they please with the
same one over sinks that refuse none, in whatever order each sweep goes over the
registry. After every operation the two dispatches are alike: clock, tasks,
workers, registry and the counters of all sinks agree, and so do the executors
and their units. Every operation answers the same, a write on nobody's behalf
apart, whose answer is the refusal. And a sink that starts with nothing ends with
exactly the records that the willing one has, less the ones that it refused, in
that order. -/
theorem refusals_unseen (ops : List SweepOp) (d : Dispatch) :
    (∀ n, Alike (run (ops.take n) d).1 (run (ops.take n) d.willing).1)
      ∧ (∀ (i : Nat) (op : SweepOp), ops[i]? = some op →
          op.byNobody = false →
          (run ops d).2[i]? = (run ops d.willing).2[i]?)
      ∧ ∀ s k, d.ledger.sinks[s]? = some k → d.ledger.offered s = [] →
          (run ops d).1.ledger.taken s
            = k.takes 0 ((run ops d.willing).1.ledger.taken s) := by
  refine ⟨?_, ?_, ?_⟩
  · intro n
    exact alike_run (ops.take n) d.alike_willing
  · intro i op at_ other
    exact answer_run ops d.alike_willing at_ other
  · intro s k found fresh
    have found' : d.willing.ledger.sinks[s]? = some k.willing := by
      show (d.ledger.sinks.map Sink.willing)[s]? = _
      rw [Array.getElem?_map, found]
      rfl
    have held := holding_run ops (Ledger.holding_of_fresh found fresh)
    have all := holding_run (d := d.willing) ops
      (Ledger.holding_of_fresh found' fresh)
    rw [held.taken, (alike_run ops d.alike_willing).ledger.offered,
      all.taken, Sink.takes_willing]

/-- A sink that refuses every second write loses the span of one unit, and that
of one of the tasks that a flush takes from the back. The tasks are finished all
the same, and their spans go on with the next number. -/
theorem refusals_unseen_every_second :
    let odd : Sink :=
      { outlet := .memory,
        refuses := fun n _ => if n % 2 = 1 then some (.other "full") else none }
    let d : Dispatch := { ledger := { sinks := #[odd] } }
    let before : List DispatchOp :=
      [.onLedger (.startTask ":a" ":app" none),
        .onLedger (.startTask ":b" ":app" none),
        .addExecutor (.pooled { owner := ":a", entry := .task 0 }),
        .submit 0 { action := "A", hash := 0, script := { ms := 5 } },
        .submit 0 { action := "B", hash := 1 }]
        ++ (straight 0 ++ straight 1).map .proceed
        ++ [.endAwait 0, .release 0, .onLedger (.finish (.task 0)),
          .onLedger (.finish (.task 1))]
    let ops := before.map .plain ++ [.flushBy [(":b", 1), (":a", 0)]]
    let m := (run ops d).1.ledger
    let n := (run ops d.willing).1.ledger
    m.tasks = n.tasks ∧ m.workers = n.workers ∧ m.registry = n.registry
      ∧ (run ops d).2[19]? = (run ops d.willing).2[19]?
      ∧ (n.taken 0).map (fun r => r.span.id) = [some 3, some 4, some 2, some 1]
      ∧ (m.taken 0).map (fun r => r.span.id) = [some 3, some 2] := by
  intro odd d before ops m n
  obtain ⟨alike, answers, held⟩ := refusals_unseen ops d
  have all : Alike (run ops d).1 (run ops d.willing).1 := alike ops.length
  have kept : m.taken 0 = odd.takes 0 (n.taken 0) := held 0 odd rfl rfl
  refine ⟨all.ledger.tasks, all.ledger.workers, all.ledger.registry,
    answers 19 (.flushBy [(":b", 1), (":a", 0)]) rfl rfl,
    by decide +kernel, ?_⟩
  rw [kept]
  decide +kernel

end SweepOp

end TaskLedger
