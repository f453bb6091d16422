/-
The span of a task is written once, with the children it had by then.

As long as nothing has asked for it, a task is open, no line has come on its
behalf, and its children are the intervals that were attached to it, in the
order of the calls (`Awaited`). An operation leaves that so, or it writes one
line, whatever the sink makes of it, and the task is closed as the line shows it
(`Signed`); there is no third (`awaited_apply`). It does not matter which one
that is: a call that asks for the span, the scheduler's report that the task is
done, a flush, or the end of the build. From then on the task is over: a line on
its behalf is written only as it is concluded (`Change.linesOf`), so there is no
other one, later calls answer no, and neither they nor further intervals
change anything at all, not even the part of the ledger that no one else
looks at.
-/
import TaskLedger.Proofs.Ledger.ReadyToWrite
import TaskLedger.Proofs.Ledger.TaskEffects

namespace TaskLedger

namespace Ledger

variable {Offer : SpanRecord → Prop} {l m : Ledger} {t : TaskId}

/-- A line comes on behalf of a task only as it is concluded. -/
theorem Change.linesOf {a : Nat} (c : Change Offer l a m) :
    m.linesOf t = l.linesOf t ∨ ¬ Over t l ∧ Over t m := by
  have beside {s : SinkId} {origin : Origin} {r : SpanRecord} {n : Ledger}
      (journal : n.journal = l.journal ++ l.notes s origin r)
      (other : origin ≠ .task t) : n.linesOf t = l.linesOf t := by
    unfold Ledger.linesOf
    rw [journal, List.filter_append, notes_filter other, List.append_nil]
  cases c with
  | quiet q => cases q <;> exact .inl rfl
  | @concluded u task found opened =>
      by_cases same : u = t
      · subst same
        refine .inr
          ⟨fun ⟨task', found', isOver⟩ => ?_, task.concluded, ?_, rfl⟩
        · rw [found] at found'
          obtain rfl := Option.some.inj found'
          rw [opened] at isOver
          cases isOver
        · show (l.tasks.modify u Task.concluded)[u]? = _
          rw [Array.getElem?_modify, if_pos rfl, found]
          rfl
      · exact .inl (beside rfl fun e => same (Origin.task.inj e))
  | enlisted | started | ended => exact .inl rfl
  | reported | offered => exact .inl (beside rfl nofun)

/-- As long as a task is open, no line comes on its behalf. -/
theorem unwritten_kept (t : TaskId) (lines : List Write) :
    Kept (fun _ => True) fun _ m => Over t m ∨ m.linesOf t = lines :=
  .of_change fun h c => by
    rcases h with isOver | rfl
    · exact .inl ((over_kept t).change (b := 0) isOver c)
    · rcases c.linesOf with same | ⟨-, isOver⟩
      · exact .inr same
      · exact .inl isOver

/-- Once it is over, no other one does. -/
theorem written_kept (t : TaskId) (lines : List Write) :
    Kept (fun _ => True) fun _ m => Over t m ∧ m.linesOf t = lines :=
  .of_change fun ⟨isOver, lines⟩ c => by
    refine ⟨(over_kept t).change (b := 0) isOver c, ?_⟩
    rcases c.linesOf with same | ⟨opened, -⟩
    · exact same.trans lines
    · exact absurd isOver opened

/-- A sink refuses what it refused before. -/
theorem verdict_kept (s : SinkId)
    (refuses : Nat → SpanRecord → Option Error) :
    Kept (fun _ => True) fun _ m =>
      ∃ k, m.sinks[s]? = some k ∧ k.refuses = refuses :=
  .of_change fun {_ l _} h c => by
    have numbered (s' : SinkId) : ∃ k,
        (l.sinks.modify s' fun k => k.next.1)[s]? = some k
          ∧ k.refuses = refuses := by
      obtain ⟨k, old, same⟩ := h
      obtain ⟨k', sink, rfl | rfl⟩ := sink_numbered old s'
      · exact ⟨k', sink, same⟩
      · exact ⟨k.next.1, sink, (refuses_next k).trans same⟩
    cases c with
    | quiet q =>
        cases q with
        | clock | aside | hired | turned => exact h
        | number s' => exact numbered s'
        | opened => exact numbered l.sink
    | concluded | enlisted | started | ended | offered => exact h
    | reported => exact numbered _

end Ledger

namespace LedgerOp

open Ledger

variable {op : LedgerOp} {l : Ledger} {t : TaskId} {task : Task}
  {ops : List LedgerOp}

-- ================================================================ children

/-- The interval that an operation attaches to a task with this number. -/
def child? (t : TaskId) (id : SpanId) : LedgerOp → Option Span
  | attach (.task u) kind thread start length =>
    if u = t then
      some { kind, parent := some id, thread := some thread,
             startMs := Int64.ofInt (start.nanos / 1000000),
             durationMs := Int64.ofInt (length.nanos.tdiv 1000000) }
    else none
  | _ => none

theorem children_makes (opened : task.status.terminal = false) :
    (op.makes t l task).children
      = task.children ++ (op.child? t task.id).toList := by
  by_cases aside : op.entry? = some (.task t)
  · unfold makes
    rw [if_pos aside]
    cases op with
    | attach e kind thread start length =>
        obtain rfl : e = .task t := Option.some.inj aside
        simp only [Task.attach, opened, child?, if_pos]
        rfl
    | await =>
        unfold Task.await
        dsimp only
        split <;> exact (List.append_nil _).symm
    | close =>
        simp only [Task.close, opened]
        exact (List.append_nil _).symm
    | finish =>
        simp only [Task.finish, opened]
        exact (List.append_nil _).symm
    | conclude =>
        simp only [opened]
        exact (List.append_nil _).symm
    | report =>
        unfold Task.noteReport
        dsimp only
        repeat' split
        all_goals exact (List.append_nil _).symm
    | _ => exact (List.append_nil _).symm
  · have none : op.child? t task.id = none := by
      unfold child?
      split
      · next u _ _ _ _ =>
          exact if_neg fun e => aside (congrArg (some ∘ Entry.task) e)
      · rfl
    rw [makes_aside aside, none, Option.toList_none, List.append_nil]

/-- Only a call that asks for the span closes a task for good. -/
theorem terminal_makes (other : op ≠ conclude (.task t)) :
    (op.makes t l task).status.terminal = task.status.terminal := by
  by_cases aside : op.entry? = some (.task t)
  · have turned {f : Task → Task} (turn : Task.Turn l.now f) :
        (f task).status.terminal = task.status.terminal := turn.terminal task
    unfold makes
    rw [if_pos aside]
    cases op with
    | await => exact turned .await
    | close => exact turned .close
    | finish => exact turned .finish
    | attach => exact turned (.attach ..)
    | conclude e =>
        exact absurd (congrArg conclude (Option.some.inj aside)) other
    | report =>
        unfold Task.noteReport
        dsimp only
        repeat' split
        all_goals rfl
    | _ => rfl
  · rw [makes_aside aside]

end LedgerOp

-- ================================================================= writing

namespace Ledger

variable {t u : TaskId} {task : Task} {refuses : Nat → SpanRecord → Option Error}
  {kids : List Span} {lines : List Write} {l m : Ledger}

/-- Nothing has been written for a task yet: it is open, what was fixed of it is
as in `task`, its children are `kids`, and its sink refuses what it did. -/
structure Awaited (t : TaskId) (task : Task)
    (refuses : Nat → SpanRecord → Option Error) (kids : List Span)
    (lines : List Write) (l : Ledger) : Prop where
  found : ∃ now, l.tasks[t]? = some now ∧ task.Same now
    ∧ now.status.terminal = false ∧ now.children = kids
  sink : ∃ k, l.sinks[task.sink]? = some k ∧ k.refuses = refuses
  lines : l.linesOf t = lines

/-- The line that is written for a task after those before it. -/
def ownLine (t : TaskId) (task : Task)
    (refuses : Nat → SpanRecord → Option Error) (before : List Write)
    (r : SpanRecord) : Write where
  sink := task.sink
  origin := .task t
  record := r
  refused := refuses (before.countP fun w => w.sink == task.sink) r

/-- The span of a task was written: it is closed, and one line was added for it,
which shows the task as it is. -/
structure Signed (t : TaskId) (task : Task)
    (refuses : Nat → SpanRecord → Option Error) (kids : List Span)
    (lines : List Write) (now : Task) (before after : List Write) (l : Ledger) :
    Prop where
  found : l.tasks[t]? = some now
  same : task.Same now
  closed : now.status = .spanClosed
  children : now.children = kids
  journal : l.journal
    = before ++ ownLine t task refuses before (l.ownRecord now) :: after
  earlier : before.filter (fun line => line.origin == .task t) = lines
  later : after.filter (fun line => line.origin == .task t) = []

namespace Signed

variable {now : Task} {before after : List Write}

/-- Its line is the one that came on its behalf. -/
theorem linesOf (h : Signed t task refuses kids lines now before after l) :
    l.linesOf t
      = lines ++ [ownLine t task refuses before (l.ownRecord now)] := by
  unfold Ledger.linesOf
  rw [h.journal, List.filter_append, h.earlier,
    List.filter_cons_of_pos (by exact beq_self_eq_true (Origin.task t)),
    h.later]

theorem terminal (h : Signed t task refuses kids lines now before after l) :
    now.status.terminal = true := by
  rw [h.closed]
  rfl

theorem isOver (h : Signed t task refuses kids lines now before after l) :
    Over t l := ⟨now, h.found, h.terminal⟩

end Signed

/-- A call that asks for the span of a task that waits for it writes it. -/
theorem Awaited.conclude (h : Awaited t task refuses kids lines l) :
    ∃ now, Signed t task refuses kids lines now l.journal [] (l.conclude t).1
      ∧ (l.conclude t).2 = true := by
  obtain ⟨now, found, same, opened, children⟩ := h.found
  obtain ⟨k, sink, verdict⟩ := h.sink
  obtain ⟨tree, warnings, he⟩ := conclude_of_open found opened
  rw [he]
  refine ⟨now.concluded, {
    found := ?_
    same := ⟨same.path, same.project, same.variant, same.id, same.sink,
      same.start⟩
    closed := rfl
    children := children
    journal := ?_
    earlier := h.lines
    later := rfl }, rfl⟩
  · show (l.tasks.modify t Task.concluded)[t]? = _
    rw [Array.getElem?_modify, if_pos rfl, found]
    rfl
  · show l.journal ++ l.notes now.sink (.task t) (l.ownRecord now) = _
    unfold Ledger.notes
    rw [same.sink, sink]
    dsimp only
    rw [verdict]
    rfl

/-- What is done to others, and what says again that the task is done, leaves
it waiting, or written as it was. -/
theorem tended_awaited (t : TaskId) (task : Task)
    (refuses : Nat → SpanRecord → Option Error) (kids : List Span)
    (lines : List Write) :
    Tended fun l => Awaited t task refuses kids lines l
      ∨ ∃ now before after,
          Signed t task refuses kids lines now before after l where
  aside := by
    rintro l marks warnings registry (waits | ⟨now, before, after, signed⟩)
    · exact .inl ⟨waits.found, waits.sink, waits.lines⟩
    · exact .inr ⟨now, before, after, { signed with }⟩
  finish := by
    rintro l u (waits | ⟨now, before, after, signed⟩)
    · obtain ⟨now, found, same, opened, children⟩ := waits.found
      refine .inl ⟨?_, waits.sink, waits.lines⟩
      show ∃ now', (l.tasks.modify u (Task.finish l.now))[t]? = some now' ∧ _
      rw [Array.getElem?_modify, found]
      split
      · refine ⟨now.finish l.now, rfl,
          same.trans (Task.Turn.finish.same now),
          (Task.Turn.finish.terminal now).trans opened, ?_⟩
        unfold Task.finish
        rw [if_neg (by rw [opened]; exact Bool.false_ne_true)]
        exact children
      · exact ⟨now, rfl, same, opened, children⟩
    · refine .inr ⟨now, before, after, { signed with found := ?_ }⟩
      show (l.tasks.modify u (Task.finish l.now))[t]? = _
      rw [Array.getElem?_modify, signed.found]
      split
      · exact congrArg some (Task.finish_of_terminal l.now signed.terminal)
      · rfl
  conclude := by
    intro l u h
    by_cases own : u = t
    · subst own
      rcases h with waits | ⟨now, before, after, signed⟩
      · obtain ⟨now, signed, -⟩ := waits.conclude
        exact .inr ⟨now, _, _, signed⟩
      · rw [conclude_of_terminal signed.found signed.terminal]
        exact .inr ⟨now, before, after, signed⟩
    · rcases conclude_cases u l with ⟨-, he⟩ | ⟨other, tree, warnings, -, -, he⟩
      · rw [he]
        exact h
      -- another task is closed, and the line is on behalf of that one
      have still (f : Task → Task) :
          (l.tasks.modify u f)[t]? = l.tasks[t]? := by
        rw [Array.getElem?_modify, if_neg own]
      have others {s : SinkId} {r : SpanRecord} :
          (l.notes s (.task u) r).filter (fun line => line.origin == .task t)
            = [] := notes_filter fun e => own (Origin.task.inj e)
      rw [he]
      rcases h with waits | ⟨now, before, after, signed⟩
      · refine .inl ⟨?_, waits.sink, ?_⟩
        · obtain ⟨now, found, rest⟩ := waits.found
          exact ⟨now, (still _).trans found, rest⟩
        · show (l.journal ++ _).filter _ = _
          rw [List.filter_append, others, List.append_nil]
          exact waits.lines
      · refine .inr ⟨now, before, after ++ l.notes other.sink (.task u)
            (l.ownRecord other), { signed with
          found := (still _).trans signed.found
          journal := ?_
          later := ?_ }⟩
        · show l.journal ++ _ = _
          rw [signed.journal, List.append_assoc]
          rfl
        · rw [List.filter_append, signed.later, others]
          rfl

end Ledger

namespace LedgerOp

open Ledger

variable {op : LedgerOp} {l : Ledger} {t : TaskId} {task : Task}
  {ops : List LedgerOp} {refuses : Nat → SpanRecord → Option Error}
  {kids : List Span} {lines : List Write}

/-- No operation changes what the sink of a task refuses. -/
theorem verdict_apply (op : LedgerOp) (h : Awaited t task refuses kids lines l) :
    ∃ k, (op.apply l).1.sinks[task.sink]? = some k ∧ k.refuses = refuses :=
  (verdict_kept task.sink refuses).apply (b := 0) (fun _ _ => trivial) h.sink

/-- What the scheduler does not do leaves a task waiting with what is attached
to it, unless it asks for the span. -/
theorem awaited_unscheduled (h : Awaited t task refuses kids lines l)
    (others : op.scheduling = false) (asks : op ≠ conclude (.task t)) :
    Awaited t task refuses (kids ++ (op.child? t task.id).toList) lines
      (op.apply l).1 := by
  obtain ⟨now, found, same, opened, children⟩ := h.found
  have there := task_makes others found
  have waits : (op.makes t l now).status.terminal = false :=
    (terminal_makes asks).trans opened
  refine ⟨⟨op.makes t l now, there, same.trans (same_makes others found),
    waits, ?_⟩, verdict_apply op h, ?_⟩
  · rw [children_makes opened, children, same.id]
  · have kept : Over t (op.apply l).1 ∨ (op.apply l).1.linesOf t = lines :=
      (unwritten_kept t lines).apply (b := 0) (fun _ _ => trivial)
        (.inr h.lines)
    rcases kept with ⟨now', found', isOver⟩ | same
    · -- it is not over, since it waits
      rw [there] at found'
      obtain rfl := Option.some.inj found'
      rw [waits] at isOver
      cases isOver
    · exact same

/-- What the scheduler does leaves a task waiting, or writes its span. -/
theorem awaited_scheduled (h : Awaited t task refuses kids lines l)
    (scheduling : op.scheduling = true) :
    Awaited t task refuses kids lines (op.apply l).1
      ∨ ∃ now before after,
          Signed t task refuses kids lines now before after (op.apply l).1 := by
  have tended := tended_awaited t task refuses kids lines
  cases op with
  | startTask path project variant =>
      obtain ⟨now, found, rest⟩ := h.found
      refine .inl ⟨⟨now, startTask_task path project variant found, rest⟩,
        verdict_apply _ h, ?_⟩
      have journal : (l.startTask path project variant).1.journal
          = l.journal := by
        rcases startTask_cases path project variant l with
          ⟨f, he⟩ | ⟨id, marks, warnings, -, he⟩ <;> rw [he]
      show (l.startTask path project variant).1.journal.filter _ = _
      rw [journal]
      exact h.lines
  | finishTask path => exact tended.finishTask (.inl h) path
  | flush => exact tended.flush (.inl h)
  | endBuild => exact tended.endBuild (.inl h)
  | _ => cases scheduling

/-- An operation leaves a task waiting with what it attaches to it, or it writes
the span: a call that asks for it, or one of the scheduler's. -/
theorem awaited_apply (op : LedgerOp)
    (h : Awaited t task refuses kids lines l) :
    Awaited t task refuses (kids ++ (op.child? t task.id).toList) lines
        (op.apply l).1
      ∧ op ≠ conclude (.task t)
    ∨ (op = conclude (.task t) ∨ op.scheduling = true)
      ∧ ∃ now before after,
          Signed t task refuses kids lines now before after (op.apply l).1 := by
  by_cases asks : op = conclude (.task t)
  · subst asks
    obtain ⟨now, signed, -⟩ := h.conclude
    exact .inr ⟨.inl rfl, now, _, _, signed⟩
  cases scheduling : op.scheduling with
  | false => exact .inl ⟨awaited_unscheduled h scheduling asks, asks⟩
  | true =>
      -- the scheduler attaches nothing
      have nothing : kids ++ (op.child? t task.id).toList = kids := by
        cases op with
        | attach => cases scheduling
        | _ => exact List.append_nil kids
      rw [nothing]
      rcases awaited_scheduled h scheduling with waits | signed
      · exact .inl ⟨waits, asks⟩
      · exact .inr ⟨.inr rfl, signed⟩

end LedgerOp

namespace Ledger

open LedgerOp

/-- An operation after which a task that waited is over wrote its span; a call
that asks for it writes nothing else. -/
theorem Awaited.signed {t : TaskId} {task : Task}
    {refuses : Nat → SpanRecord → Option Error} {kids : List Span}
    {lines : List Write} {l : Ledger} {op : LedgerOp}
    (h : Awaited t task refuses kids lines l) (isOver : Over t (op.apply l).1) :
    ∃ now before after,
      Signed t task refuses kids lines now before after (op.apply l).1
        ∧ (op = LedgerOp.conclude (.task t) →
          before = l.journal ∧ after = []) := by
  by_cases asks : op = LedgerOp.conclude (.task t)
  · subst asks
    obtain ⟨now, signed, -⟩ := h.conclude
    exact ⟨now, _, _, signed, fun _ => ⟨rfl, rfl⟩⟩
  rcases awaited_apply op h with ⟨waits, -⟩ | ⟨-, now, before, after, signed⟩
  · obtain ⟨now, there, -, opened, -⟩ := waits.found
    obtain ⟨last, there', terminal⟩ := isOver
    rw [there] at there'
    obtain rfl := Option.some.inj there'
    rw [opened] at terminal
    cases terminal
  · exact ⟨now, before, after, signed, fun is => absurd is asks⟩

end Ledger

namespace LedgerOp

open Ledger

variable {op : LedgerOp} {l : Ledger} {t : TaskId} {task : Task}
  {ops : List LedgerOp} {refuses : Nat → SpanRecord → Option Error}
  {kids : List Span} {lines : List Write}

/-- Along a history a task waits to the end, or there is one place at which its
span is written. Up to there nobody asked for it. -/
theorem awaited_run (ops : List LedgerOp)
    (h : Awaited t task refuses kids lines l) :
    Awaited t task refuses (kids ++ ops.filterMap (child? t task.id)) lines
        (run ops l).1
      ∧ conclude (.task t) ∉ ops
    ∨ ∃ j op, ops[j]? = some op
        ∧ (op = conclude (.task t) ∨ op.scheduling = true)
        ∧ conclude (.task t) ∉ ops.take j
        ∧ Awaited t task refuses
          (kids ++ (ops.take j).filterMap (child? t task.id)) lines
          (run (ops.take j) l).1
        ∧ ∃ now before after, Signed t task refuses
            (kids ++ (ops.take j).filterMap (child? t task.id)) lines now before
            after (op.apply (run (ops.take j) l).1).1 := by
  induction ops generalizing l kids with
  | nil =>
      rw [List.filterMap_nil, List.append_nil]
      exact .inl ⟨h, List.not_mem_nil⟩
  | cons op rest ih =>
      have attached (more : List LedgerOp) :
          kids ++ (op :: more).filterMap (child? t task.id)
            = kids ++ (op.child? t task.id).toList
              ++ more.filterMap (child? t task.id) := by
        rw [List.filterMap_cons, List.append_assoc]
        cases op.child? t task.id <;> rfl
      rcases awaited_apply op h with ⟨waits, other⟩ | ⟨which, signed⟩
      · rcases ih waits with ⟨last, never⟩
            | ⟨j, o, at_, which, never, until_, signed⟩
        · rw [attached]
          exact .inl ⟨last, List.not_mem_cons_of_ne_of_not_mem
            (Ne.symm other) never⟩
        · refine .inr ⟨j + 1, o, at_, which, ?_, ?_⟩
          · rw [List.take_succ_cons]
            exact List.not_mem_cons_of_ne_of_not_mem (Ne.symm other) never
          · rw [List.take_succ_cons, attached]
            exact ⟨until_, signed⟩
      · refine .inr ⟨0, op, rfl, which, List.not_mem_nil, ?_, ?_⟩
        · rw [List.take_zero, List.filterMap_nil, List.append_nil]
          exact h
        · rw [List.take_zero, List.filterMap_nil, List.append_nil]
          exact signed

/-- A run answers at each place what the operation there answers to what those
before it left. -/
theorem answer_at (ops : List LedgerOp) (l : Ledger) (i : Nat) :
    (run ops l).2[i]?
      = ops[i]?.map fun op => (op.apply (run (ops.take i) l).1).2 := by
  induction ops generalizing l i with
  | nil => rfl
  | cons op rest ih =>
      cases i with
      | zero => rfl
      | succ i => exact ih (op.apply l).1 i

/-- A task that is over is left alone by the calls that ask for its span and
by those that attach to it. -/
theorem apply_of_over (isOver : Over t l)
    (late : op = conclude (.task t)
      ∨ ∃ kind thread start length,
          op = attach (.task t) kind thread start length) :
    (op.apply l).1 = l := by
  obtain ⟨task, found, terminal⟩ := isOver
  rcases late with rfl | ⟨kind, thread, start, length, rfl⟩
  · show (l.conclude t).1 = l
    rw [conclude_of_terminal found terminal]
  · exact onTask_of_fixed found (if_pos terminal)

/-- And such a call answers no. -/
theorem answer_of_over (isOver : Over t l) :
    ((conclude (.task t)).apply l).2 = .ok (.yes false) := by
  obtain ⟨task, found, terminal⟩ := isOver
  show Except.ok (LedgerAnswer.yes (l.conclude t).2) = _
  rw [conclude_of_terminal found terminal]

/-- Let a new record go through any history in which its span is asked for, by
a call or by the scheduler as it reports the task as done, flushes, or ends the
build. There is one place at which the span is written, and it is the first call
for it unless the scheduler comes first. Up to that place nothing is written on
behalf of the task; there one record is offered to the sink, whether or not the
sink takes it, and nothing is written after that, whatever follows. The record
shows the task's own number, path, project, variant and start, its length as of
that moment, and as children just what was attached to it before, in the order of
the calls. A call that asks for the span answers yes only there, and what asks
for the span or attaches to the task after it changes nothing. -/
theorem span_written_once (ops : List LedgerOp) (l : Ledger) (t : TaskId)
    (task : Task) (k : Sink) (found : l.tasks[t]? = some task)
    (new : task.New) (sink : l.sinks[task.sink]? = some k)
    (asked : conclude (.task t) ∈ ops ∨ Over t (run ops l).1) :
    ∃ j op, ops[j]? = some op
      ∧ (op = conclude (.task t) ∨ op.scheduling = true)
      ∧ conclude (.task t) ∉ ops.take j
      ∧ let m := (run (ops.take j) l).1
        let n := (op.apply m).1
        ∃ now before after, n.tasks[t]? = some now
          ∧ let record : SpanRecord := {
              project := task.project, variant := task.variant
              span := {
                id := some task.id, kind := .task, task := some task.path
                startMs := Int64.ofInt (task.start.nanos / 1000000)
                durationMs := Int64.ofInt
                  ((now.duration (n.crewOf now)).nanos.tdiv 1000000) }
              children := (ops.take j).filterMap (child? t task.id) }
            let line : Write := {
              sink := task.sink, origin := .task t, record
              refused := k.refuses
                (before.countP fun w => w.sink == task.sink) record }
            m.linesOf t = l.linesOf t
            ∧ n.journal = before ++ line :: after
            ∧ (op = conclude (.task t) → before = m.journal ∧ after = [])
            ∧ n.linesOf t = l.linesOf t ++ [line]
            ∧ (run ops l).1.linesOf t = l.linesOf t ++ [line]
            ∧ (∀ i, ops[i]? = some (conclude (.task t)) →
                (run ops l).2[i]?
                  = some (Except.ok (LedgerAnswer.yes (i == j))))
            ∧ ∀ i op, j < i → ops[i]? = some op →
                (op = conclude (.task t) ∨ ∃ kind thread start length,
                  op = attach (.task t) kind thread start length) →
                (op.apply (run (ops.take i) l).1).1
                  = (run (ops.take i) l).1 := by
  have start : Awaited t task k.refuses [] (l.linesOf t) l :=
    ⟨⟨task, found, .refl task, by rw [new.status]; rfl, new.children⟩,
      ⟨k, sink, rfl⟩, rfl⟩
  obtain ⟨j, op, at_, which, never, until_, signed⟩ := (awaited_run ops start
    ).resolve_left fun ⟨waits, never⟩ => by
      obtain ⟨now, there, -, opened, -⟩ := waits.found
      rcases asked with asks | ⟨last, there', isOver⟩
      · exact never asks
      · rw [there] at there'
        obtain rfl := Option.some.inj there'
        rw [opened] at isOver
        cases isOver
  rw [List.nil_append] at until_ signed
  obtain ⟨_, _, _, signed⟩ := signed
  obtain ⟨now, before, after, signed, exactly⟩ := until_.signed signed.isOver
  refine ⟨j, op, at_, which, never, ?_⟩
  intro m n
  refine ⟨now, before, after, signed.found, ?_⟩
  intro record line
  have shown : n.ownRecord now = record := by
    unfold ownRecord Task.record Task.span
    rw [signed.same.project, signed.same.variant, signed.same.id,
      signed.same.path, signed.same.start, signed.children]
    rfl
  have own : ownLine t task k.refuses before (n.ownRecord now) = line := by
    rw [shown]
    rfl
  have one : n.linesOf t = l.linesOf t ++ [line] := own ▸ signed.linesOf
  -- and from then on
  have left {i : Nat} (beyond : j < i) :
      (run (ops.take i) l).1 = (run ((ops.drop (j + 1)).take (i - (j + 1))) n).1
        := by
    have parts : ops.take i
        = ops.take j ++ op :: (ops.drop (j + 1)).take (i - (j + 1)) := by
      obtain ⟨lt, is⟩ := List.getElem?_eq_some_iff.mp at_
      rw [← is, ← List.take_append_drop j (ops.take i), List.take_take,
        Nat.min_eq_left (Nat.le_of_lt beyond), List.drop_take,
        List.drop_eq_getElem_cons lt,
        show i - j = i - (j + 1) + 1 by omega, List.take_succ_cons]
    rw [parts, run_append]
    rfl
  have later (rest : List LedgerOp) :=
    (written_kept t (l.linesOf t ++ [line])).run (b := 0)
      (fun op (_ : op ∈ rest) _ _ => trivial) ⟨signed.isOver, one⟩
  have behind {i : Nat} (beyond : j < i) :
      Over t (run (ops.take i) l).1
        ∧ (run (ops.take i) l).1.linesOf t = l.linesOf t ++ [line] := by
    rw [left beyond]
    exact later _
  have short : j < ops.length := (List.getElem?_eq_some_iff.mp at_).1
  have all := (behind short).2
  rw [List.take_length] at all
  refine ⟨until_.lines, own ▸ signed.journal, exactly, one, all, ?_, ?_⟩
  · intro i asks
    rw [answer_at, asks, Option.map_some]
    rcases Nat.lt_trichotomy i j with lt | rfl | gt
    · refine absurd (List.mem_of_getElem? (i := i) ?_) never
      rw [List.getElem?_take_of_lt lt]
      exact asks
    · rw [asks] at at_
      obtain rfl := Option.some.inj at_
      obtain ⟨_, -, yes⟩ := until_.conclude
      rw [beq_self_eq_true]
      exact congrArg (fun b => some (Except.ok (LedgerAnswer.yes b))) yes
    · rw [answer_of_over (behind gt).1,
        beq_eq_false_iff_ne.mpr (Nat.ne_of_gt gt)]
  · intro i op beyond _ late
    exact apply_of_over (behind beyond).1 late

/-- A sink that refuses the spans of tasks is offered one, and once: its
children are the two intervals that came before, the second of which runs
backwards, and neither the call that follows nor the sweep makes it a second
time. Where the task is reported as done instead, the sweep offers it. -/
theorem span_written_once_refused :
    let l : Ledger := {
      now := ⟨7500000, by decide, by decide⟩
      sinks := #[{ outlet := .memory, last := 1,
                   refuses := Sink.refusingKinds [.task] }]
      tasks := #[{ path := ":a", project := ":app", variant := none, id := 1,
                   sink := 0, start := .epoch }]
      registry := [(":a", 0)] }
    let inner (ns : Int) (h : -2000000 ≤ ns ∧ ns ≤ 2000000) : LedgerOp :=
      .attach (.task 0) .thread 4 l.now ⟨ns, by omega, by omega⟩
    let before : List LedgerOp :=
      [inner 1999999 (by decide), .close (.task 0),
        inner (-1999999) (by decide)]
    let ops := before ++ [.conclude (.task 0), inner 5 (by decide),
      .finish (.task 0), .conclude (.task 0), .flush]
    let swept := before ++ [.finish (.task 0), .flush]
    before.filterMap (child? 0 1)
        = [{ kind := .thread, parent := some 1, thread := some 4,
             startMs := 7, durationMs := 1 },
           { kind := .thread, parent := some 1, thread := some 4,
             startMs := 7, durationMs := -1 }]
      ∧ (∃ line, (run ops l).1.linesOf 0 = [line] ∧ line.refused.isSome
          ∧ line.record.children = before.filterMap (child? 0 1))
      ∧ (run ops l).2[6]? = some (Except.ok (.yes false))
      ∧ ∃ line, (run swept l).1.linesOf 0 = [line] ∧ line.refused.isSome := by
  intro l inner before ops swept
  have new : Task.New { path := ":a", project := ":app", variant := none
                        id := 1, sink := 0, start := .epoch } :=
    ⟨rfl, rfl, rfl, rfl, rfl⟩
  refine ⟨by decide +kernel, ?_⟩
  -- the span is asked for, and the first call is the one that answers yes
  obtain ⟨j, _, -, -, -, _, _, _, -, -, -, -, -, all, answers, -⟩ :=
    span_written_once ops l 0 _ _ rfl new rfl (.inl (by decide))
  have first : (run ops l).2[3]? = some (Except.ok (.yes true)) := by
    decide +kernel
  obtain rfl : j = 3 := by
    have yes := (answers 3 rfl).symm.trans first
    simp only [Option.some.injEq, Except.ok.injEq, LedgerAnswer.yes.injEq]
      at yes
    exact (eq_of_beq yes).symm
  refine ⟨⟨_, all, rfl, rfl⟩, answers 6 rfl, ?_⟩
  have isOver : ((run swept l).1.tasks[0]?).any
      (fun task => task.status.terminal) = true := by decide +kernel
  obtain ⟨task, found, terminal⟩ := (Option.any_eq_true _ _).mp isOver
  -- or it is not, and the sweep writes it
  obtain ⟨_, _, -, -, -, _, _, _, -, -, -, -, -, all, -⟩ :=
    span_written_once swept l 0 _ _ rfl new rfl (.inr ⟨task, found, terminal⟩)
  exact ⟨_, all, rfl⟩

end LedgerOp

end TaskLedger
