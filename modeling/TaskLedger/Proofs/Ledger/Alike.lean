/-
What a sink refuses is nobody's business but an observer's.

Two ledgers are alike if they differ in nothing but the files, the notices,
and which writes were refused and for whom they were made. An operation
takes alike ledgers to alike ledgers and answers the same on both; the only
one that answers otherwise is a write on nobody's behalf, since its answer
is the refusal.

The lemmas follow the definitions of the operations one by one. `Agree` is
what each of them says: alike ledgers in, alike ledgers and equal answers
out. Where an operation writes, the branch for a refusal differs from the
other in a warning only, and that is why it goes through.
-/
import TaskLedger.Proofs.Ledger.Change

namespace TaskLedger

/-- The sink if it refused nothing. -/
def Sink.willing (k : Sink) : Sink := { k with refuses := fun _ _ => none }

/-- What was offered, and where. -/
def Write.offer (w : Write) : SinkId × SpanRecord := (w.sink, w.record)

namespace Ledger

/-- Two ledgers that differ only in the files, the notices, and which writes
were refused and for whom they were made. -/
structure Alike (l m : Ledger) : Prop where
  now : l.now = m.now
  wall : l.wall = m.wall
  sinks : l.sinks.map Sink.willing = m.sinks.map Sink.willing
  tasks : l.tasks = m.tasks
  workers : l.workers = m.workers
  journal : l.journal.map Write.offer = m.journal.map Write.offer
  sink : l.sink = m.sink
  registry : l.registry = m.registry

/-- Two outcomes of one operation: alike ledgers and the same answer. -/
structure Agree {α : Type} (r s : Ledger × α) : Prop where
  ledger : Alike r.1 s.1
  answer : r.2 = s.2

/-- What is seen of a table after a change of one place, if the change is
seen too. -/
theorem map_modify {α β : Type} {g : α → β} (f : α → α) (f' : β → β)
    (seen : ∀ a, g (f a) = f' (g a)) (table : Array α) (i : Nat) :
    (table.modify i f).map g = (table.map g).modify i f' := by
  apply Array.ext_getElem?
  intro j
  rw [Array.getElem?_map, Array.getElem?_modify, Array.getElem?_modify,
    Array.getElem?_map]
  split
  · cases table[j]? with
    | none => rfl
    | some a => exact congrArg some (seen a)
  · rfl

theorem Alike.refl (l : Ledger) : Alike l l :=
  ⟨rfl, rfl, rfl, rfl, rfl, rfl, rfl, rfl⟩

variable {l m n : Ledger}

theorem Alike.symm (h : Alike l m) : Alike m l :=
  ⟨h.now.symm, h.wall.symm, h.sinks.symm, h.tasks.symm, h.workers.symm,
    h.journal.symm, h.sink.symm, h.registry.symm⟩

theorem Alike.trans (h : Alike l m) (k : Alike m n) : Alike l n :=
  ⟨h.now.trans k.now, h.wall.trans k.wall, h.sinks.trans k.sinks,
    h.tasks.trans k.tasks, h.workers.trans k.workers,
    h.journal.trans k.journal, h.sink.trans k.sink,
    h.registry.trans k.registry⟩

-- ============================================================== readings

namespace Alike

/-- A sink that one ledger has is in the other, the same but for what it
refuses. -/
theorem sinkAt (h : Alike l m) (s : SinkId) :
    l.sinks[s]?.map Sink.willing = m.sinks[s]?.map Sink.willing := by
  rw [← Array.getElem?_map, ← Array.getElem?_map, h.sinks]

/-- A crew has the same workers, since they are on record in both. -/
theorem crewOf (h : Alike l m) (task : Task) :
    l.crewOf task = m.crewOf task := by
  unfold Ledger.crewOf
  rw [h.workers]

theorem idle (h : Alike l m) (task : Task) : l.idle task = m.idle task := by
  unfold Ledger.idle
  rw [h.crewOf]

/-- Both registries are the same list, so a path leads to the same task. -/
theorem registered? (h : Alike l m) (path : String) :
    l.registered? path = m.registered? path := by
  unfold Ledger.registered?
  rw [h.registry]

/-- A task is ready in both or in neither: readiness goes by its status and its
crew. -/
theorem ready (h : Alike l m) (t : TaskId) : l.ready t = m.ready t := by
  unfold Ledger.ready
  rw [h.tasks]
  cases m.tasks[t]? with
  | none => rfl
  | some task => simp only [h.idle]

/-- The order in which a sweep goes over the registry does not look at the
sinks. -/
theorem byId (h : Alike l m) : l.byId = m.byId := by
  unfold Ledger.byId Ledger.spanIdOf
  rw [h.registry, h.tasks]

-- ======================================================= single functions

/-- What only concerns an observer, and the files, may change. -/
theorem aside (h : Alike l m) (tree tree' : Files.Tree)
    (marks marks' : List Mark) (warnings warnings' : List Warning) :
    Alike { l with tree, marks, warnings }
      { m with tree := tree', marks := marks', warnings := warnings' } :=
  { h with }

/-- Two warnings may differ, since nobody's answer depends on one. -/
theorem warn (h : Alike l m) (w v : Warning) : Alike (l.warn w) (m.warn v) :=
  { h with }

theorem setTasks (h : Alike l m) (tasks : Array Task) :
    Alike { l with tasks } { m with tasks } :=
  { h with tasks := rfl }

theorem setRegistry (h : Alike l m) (registry : List (String × TaskId)) :
    Alike { l with registry } { m with registry } :=
  { h with registry := rfl }

theorem onTask (h : Alike l m) (t : TaskId) (f : Task → Task) :
    Alike (l.onTask t f) (m.onTask t f) := by
  unfold Ledger.onTask
  rw [h.tasks]
  exact h.setTasks _

theorem onWorker (h : Alike l m) (w : WorkerId) (f : Worker → Worker) :
    Alike (l.onWorker w f) (m.onWorker w f) := by
  unfold Ledger.onWorker
  rw [h.workers]
  exact { h with workers := rfl }

/-- A worker comes at the same place, with the number that is next in both. -/
theorem addWorker (h : Alike l m) (path : String) (kind : SpanKind) :
    Agree (l.addWorker path kind) (m.addWorker path kind) := by
  constructor
  · refine { h with workers := ?_ }
    show l.workers.push _ = m.workers.push _
    rw [h.workers, h.now]
  · exact congrArg Array.size h.workers

theorem addStandIn (h : Alike l m) : Agree l.addStandIn m.addStandIn := by
  constructor
  · refine { h with workers := ?_ }
    show l.workers.push _ = m.workers.push _
    rw [h.workers, h.wall]
  · exact congrArg Array.size h.workers

/-- A member enters the crew under the same key, in the place that the same
worker has. -/
theorem enlist (h : Alike l m) (t : TaskId) (key : String)
    (kind : SpanKind) : Alike (l.enlist t key kind) (m.enlist t key kind) := by
  unfold Ledger.enlist
  rw [h.tasks]
  cases m.tasks[t]? with
  | none => exact h
  | some task =>
      have hired := h.addWorker task.path kind
      dsimp only
      rw [hired.answer]
      exact hired.ledger.onTask t _

/-- The thread that looks a key up finds the same worker, or else a stand-in
that comes at the same place. -/
theorem lookUp (h : Alike l m) (t : TaskId) (key : String) :
    Agree (l.lookUp t key) (m.lookUp t key) := by
  unfold Ledger.lookUp
  rw [h.tasks]
  cases m.tasks[t]?.bind fun task => task.crew.lookup key with
  | none => exact h.addStandIn
  | some w => exact ⟨h, rfl⟩

theorem startWorker (h : Alike l m) (w : WorkerId) :
    Alike (l.startWorker w) (m.startWorker w) := by
  unfold Ledger.startWorker Ledger.clockOf
  rw [h.wall, h.now]
  exact h.onWorker w _

theorem endWorker (h : Alike l m) (w : WorkerId) :
    Alike (l.endWorker w) (m.endWorker w) := by
  unfold Ledger.endWorker Ledger.clockOf
  rw [h.wall, h.now]
  exact h.onWorker w _

/-- The clock goes where it is set, or both calls fail for the same reason. -/
theorem setClock (h : Alike l m) (ms : Int) :
    Agree (l.setClock ms) (m.setClock ms) := by
  unfold Ledger.setClock
  cases Instant.ofMillis ms with
  | ok t => exact ⟨{ h with now := rfl }, rfl⟩
  | error f => exact ⟨h, rfl⟩

/-- Time passes on both sides, or on neither: what stops it is the end of the
calendar, which is the same. -/
theorem advance (h : Alike l m) (ms ns : Int) :
    Agree (l.advance ms ns) (m.advance ms ns) := by
  unfold Ledger.advance
  rw [h.now]
  cases Duration.ofParts ms ns >>= m.now.shift with
  | ok t => exact ⟨{ h with now := rfl }, rfl⟩
  | error f => exact ⟨h, rfl⟩

/-- A number is taken from a sink whatever it refuses. -/
theorem next_willing (k : Sink) : k.next.1.willing = k.willing.next.1 := by
  unfold Sink.next Sink.willing
  dsimp only
  split <;> rfl

/-- So the next number, or that there is none, is told by what is alike in two
sinks. -/
theorem next_answer {j k : Sink} (h : j.willing = k.willing) :
    j.next.2 = k.next.2 := by
  have last : j.willing.last = k.willing.last := congrArg Sink.last h
  replace last : j.last = k.last := last
  unfold Sink.next
  rw [last]
  split <;> rfl

/-- A number comes from the counter, and refusals do not move it. -/
theorem allocate (h : Alike l m) (s : SinkId) :
    Agree (l.allocate s) (m.allocate s) := by
  constructor
  · rw [allocate_fst, allocate_fst]
    refine { h with sinks := ?_ }
    dsimp only
    rw [map_modify _ (fun k : Sink => k.next.1) next_willing,
      map_modify _ (fun k : Sink => k.next.1) next_willing, h.sinks]
  · have same := h.sinkAt s
    unfold Ledger.allocate
    cases hl : l.sinks[s]? with
    | none =>
        cases hm : m.sinks[s]? with
        | none => rfl
        | some k => simp [hl, hm] at same
    | some j =>
        cases hm : m.sinks[s]? with
        | none => simp [hl, hm] at same
        | some k =>
            rw [hl, hm] at same
            exact next_answer (Option.some.inj same)

/-- What is offered to a sink does not depend on whom it is for, nor on whether
it is taken. -/
theorem notes (h : Alike l m) (s : SinkId) (o o' : Origin) (r : SpanRecord) :
    (l.notes s o r).map Write.offer = (m.notes s o' r).map Write.offer := by
  have at_ := h.sinkAt s
  unfold Ledger.notes
  cases hl : l.sinks[s]? with
  | none =>
      cases hm : m.sinks[s]? with
      | none => rfl
      | some k => simp [hl, hm] at at_
  | some j =>
      cases hm : m.sinks[s]? with
      | none => simp [hl, hm] at at_
      | some k => rfl

/-- Journals go on alike if the same is offered on both sides. -/
theorem append (h : Alike l m) {new new' : List Write}
    (same : new.map Write.offer = new'.map Write.offer) :
    Alike { l with journal := l.journal ++ new }
      { m with journal := m.journal ++ new' } := by
  refine { h with journal := ?_ }
  rw [List.map_append, List.map_append, h.journal, same]

/-- A record that is refused on one side and taken on the other leaves ledgers
alike: it stands in the journal of both. -/
theorem write (h : Alike l m) (s : SinkId) (o o' : Origin) (r : SpanRecord) :
    Alike (l.write s o r).1 (m.write s o' r).1 := by
  obtain ⟨tree, he⟩ := write_fst s o r l
  obtain ⟨tree', he'⟩ := write_fst s o' r m
  rw [he, he']
  exact (h.append (h.notes s o o' r)).aside tree tree' l.marks m.marks
    l.warnings m.warnings

/-- A task comes with the same number, or there is none left on either side. -/
theorem addTask (h : Alike l m) (path project : String)
    (variant : Option String) (s : SinkId) :
    Agree (l.addTask path project variant s)
      (m.addTask path project variant s) := by
  have number := h.allocate s
  unfold Ledger.addTask
  cases hl : l.allocate s with
  | mk l' a =>
  cases hm : m.allocate s with
  | mk m' b =>
  rw [hl, hm] at number
  obtain ⟨alike, answer⟩ := number
  dsimp only at alike answer
  subst answer
  cases a with
  | error f => exact ⟨alike, rfl⟩
  | ok id =>
      refine ⟨{ alike with tasks := ?_ }, ?_⟩
      · dsimp only
        rw [alike.tasks, alike.now]
      · dsimp only
        rw [alike.tasks]

/-- A conclusion is one whether or not its span is refused. -/
theorem conclude (h : Alike l m) (t : TaskId) :
    Agree (l.conclude t) (m.conclude t) := by
  rcases conclude_cases t l with ⟨closed, he⟩
      | ⟨task, tree, warnings, found, opened, he⟩
  · rcases conclude_cases t m with ⟨-, he'⟩ | ⟨task, _, _, found, opened, -⟩
    · rw [he, he']
      exact ⟨h, rfl⟩
    · rw [← h.tasks] at found
      rw [closed task found] at opened
      cases opened
  · obtain ⟨tree', warnings', he'⟩ :=
      conclude_of_open (l := m) (by rw [← h.tasks, found]) opened
    rw [he, he']
    refine ⟨?_, rfl⟩
    have written := h.append (h.notes task.sink (.task t) (.task t)
      (task.record (task.span (m.crewOf task)) task.children))
    refine { written with tasks := ?_, journal := ?_ }
    · show l.tasks.modify t Task.concluded = m.tasks.modify t Task.concluded
      rw [h.tasks]
    · show (l.concluding t task).journal.map Write.offer = _
      unfold concluding
      rw [h.crewOf]
      exact written.journal

/-- So is a report. -/
theorem report (h : Alike l m) (t : TaskId) (w : WorkerId) :
    Agree (l.report t w) (m.report t w) := by
  unfold Ledger.report
  rw [h.tasks, h.workers]
  cases m.tasks[t]? with
  | none => exact ⟨h, rfl⟩
  | some task =>
  cases m.workers[w]? with
  | none => exact ⟨h, rfl⟩
  | some worker =>
  dsimp only
  -- both sides take the same number, or none
  have number := h.allocate task.sink
  cases hl : l.allocate task.sink with
  | mk l' a =>
  cases hm : m.allocate task.sink with
  | mk m' b =>
  rw [hl, hm] at number
  obtain ⟨alike, answer⟩ := number
  dsimp only at alike answer
  subst answer
  cases a with
  | error f => exact ⟨alike, rfl⟩
  | ok id =>
      have written := alike.write task.sink (.worker t w) (.worker t w)
        (task.record (worker.span id task.id) [])
      dsimp only
      generalize l'.write task.sink (.worker t w)
        (task.record (worker.span id task.id) []) = res at written ⊢
      generalize m'.write task.sink (.worker t w)
        (task.record (worker.span id task.id) []) = res' at written ⊢
      obtain ⟨l₂, a⟩ := res
      obtain ⟨m₂, b⟩ := res'
      refine ⟨?_, rfl⟩
      have noted {l m : Ledger} (h : Alike l m) :
          Alike (l.onTask t (Task.noteReport l.now (l.idle task)))
            (m.onTask t (Task.noteReport m.now (m.idle task))) := by
        rw [h.now, h.idle]
        exact h.onTask t _
      -- the two answers may differ; the task takes note in either case
      cases a with
      | ok =>
          cases b with
          | ok => exact noted written
          | error f => exact noted { written with }
      | error e =>
          cases b with
          | ok => exact noted { written with }
          | error f => exact noted { written with }

-- ========================================================= the scheduler

/-- What is registered under the path before is put out of the registry on both
sides, with a warning on each. -/
theorem startTask (h : Alike l m) (path project : String)
    (variant : Option String) :
    Agree (l.startTask path project variant)
      (m.startTask path project variant) := by
  have added := h.addTask path project variant m.sink
  unfold Ledger.startTask
  rw [h.sink]
  cases hl : l.addTask path project variant m.sink with
  | mk l' a =>
  cases hm : m.addTask path project variant m.sink with
  | mk m' b =>
  rw [hl, hm] at added
  obtain ⟨alike, answer⟩ := added
  dsimp only at alike answer
  subst answer
  cases a with
  | error f => exact ⟨alike, rfl⟩
  | ok t =>
      dsimp only
      refine ⟨?_, rfl⟩
      unfold Ledger.register
      rw [alike.registered?, alike.registry]
      split
      · exact { alike with registry := rfl }
      · exact { alike with registry := rfl }

/-- Only a notice is left of the length that is marked. -/
theorem markLength (h : Alike l m) (t : TaskId) :
    Alike (l.markLength t) (m.markLength t) := by
  unfold Ledger.markLength
  rw [show l.tasks[t]? = m.tasks[t]? by rw [h.tasks]]
  cases m.tasks[t]? with
  | none => exact h
  | some task => exact { h with }

/-- A span is written on both sides or on neither, since the status decides it.
-/
theorem concludeAndMark (h : Alike l m) (t : TaskId) :
    Agree (l.concludeAndMark t) (m.concludeAndMark t) := by
  obtain ⟨alike, answer⟩ := h.conclude t
  unfold Ledger.concludeAndMark
  cases hl : l.conclude t with
  | mk l' a =>
  cases hm : m.conclude t with
  | mk m' b =>
  rw [hl, hm] at alike answer
  dsimp only at alike answer
  subst answer
  cases a with
  | true => exact ⟨alike.markLength t, rfl⟩
  | false => exact ⟨alike, rfl⟩

/-- A path that is registered is given up on both sides, and its task concluded.
-/
theorem settle (h : Alike l m) (path : String) :
    Agree (l.settle path) (m.settle path) := by
  unfold Ledger.settle
  rw [h.registered?]
  cases m.registered? path with
  | none => exact ⟨h, rfl⟩
  | some t =>
      dsimp only
      unfold Ledger.unregister
      rw [h.registry]
      exact (h.setRegistry _).concludeAndMark t

theorem finish (h : Alike l m) (t : TaskId) :
    Alike (l.finish t) (m.finish t) := by
  unfold Ledger.finish
  rw [h.now]
  exact h.onTask t _

theorem close (h : Alike l m) (t : TaskId) :
    Alike (l.close t) (m.close t) := by
  unfold Ledger.close
  rw [h.now]
  exact h.onTask t _

/-- A report that the task of a path is done is answered the same: the path
leads to the same task, with the same status and crew. -/
theorem finishTask (h : Alike l m) (path : String) :
    Agree (l.finishTask path) (m.finishTask path) := by
  unfold Ledger.finishTask
  rw [h.registered?]
  cases m.registered? path with
  | none => exact ⟨h, rfl⟩
  | some t =>
      have done := h.finish t
      dsimp only
      rw [done.tasks]
      cases (m.finish t).tasks[t]? with
      | none => exact ⟨done, rfl⟩
      | some task =>
          dsimp only
          rw [done.idle]
          split
          · exact done.settle path
          · exact ⟨done, rfl⟩

/-- A sweep counts the same if each of its steps does: the induction is on what
it goes over, and the ledgers stay alike from step to step. -/
theorem countOver {α : Type} {f : α → Ledger → Ledger × Bool}
    (step : ∀ (a : α) {l m : Ledger}, Alike l m → Agree (f a l) (f a m))
    (as : List α) (h : Alike l m) :
    Agree (Ledger.countOver f as l) (Ledger.countOver f as m) := by
  induction as generalizing l m with
  | nil => exact ⟨h, rfl⟩
  | cons a rest ih =>
      have here := step a h
      have later := ih here.ledger
      refine ⟨later.ledger, ?_⟩
      simp only [Ledger.countOver]
      rw [here.answer, later.answer]

/-- A flush goes the same way in both, by whatever order. -/
theorem flushBy (h : Alike l m) (order : List (String × TaskId)) :
    Agree (l.flushBy order) (m.flushBy order) := by
  unfold Ledger.flushBy Ledger.flushOver
  simp only [h.ready]
  exact countOver (fun path _ _ h => h.settle path) _ h

/-- A flush goes over the tasks in the order that both have. -/
theorem flush (h : Alike l m) : Agree l.flush m.flush := by
  rw [flush_by, flush_by, h.byId]
  exact h.flushBy m.byId

/-- A task that is left at the end of a build counts as done and is concluded,
on both sides; whether it draws a warning is told by its crew. -/
theorem wrapUp (h : Alike l m) (t : TaskId) :
    Agree (l.wrapUp t) (m.wrapUp t) := by
  unfold Ledger.wrapUp
  rw [h.tasks]
  cases m.tasks[t]? with
  | none => exact ⟨h, rfl⟩
  | some task =>
      dsimp only
      rw [h.idle]
      split
      · exact (h.finish t).concludeAndMark t
      · exact ((h.warn _ _).finish t).concludeAndMark t

/-- The end of the build, too. -/
theorem endBuildBy (h : Alike l m) (order : List (String × TaskId)) :
    Agree (l.endBuildBy order) (m.endBuildBy order) :=
  countOver (fun t _ _ h => h.wrapUp t) _ (h.setRegistry [])

/-- The end of a build goes over the tasks in the order that both have, and
empties both registries. -/
theorem endBuild (h : Alike l m) : Agree l.endBuild m.endBuild := by
  rw [endBuild_by, endBuild_by, h.byId]
  exact h.endBuildBy m.byId

end Alike

end Ledger

-- ============================================================ operations

namespace LedgerOp

open Ledger

variable {l m : Ledger}

/-- A write on nobody's behalf. -/
def byNobody : LedgerOp → Bool
  | write _ => true
  | _ => false

/-- What is done for an entry is done for its task, or for nobody. -/
theorem alike_does {f : TaskId → Ledger → Ledger}
    (step : ∀ (t : TaskId) {l m : Ledger}, Alike l m → Alike (f t l) (f t m))
    (e : Entry) (h : Alike l m) :
    Alike (OnEntry.does e f l) (OnEntry.does e f m) := by
  cases e with
  | task t => exact step t h
  | untracked => exact h

theorem agree_lookUp (h : Alike l m) (e : Entry) (key : String) :
    Agree (OnEntry.lookUp e key l) (OnEntry.lookUp e key m) := by
  cases e with
  | task t => exact h.lookUp t key
  | untracked => exact h.addStandIn

/-- A report is answered the same; whether the sink takes the span is not part
of the answer. -/
theorem agree_report (h : Alike l m) (e : Entry) (w : WorkerId) :
    Agree (OnEntry.report e w l) (OnEntry.report e w m) := by
  cases e with
  | task t => exact h.report t w
  | untracked => exact ⟨h, rfl⟩

/-- Whether a span was written is answered by the status of the task. -/
theorem agree_conclude (h : Alike l m) (e : Entry) :
    Agree (OnEntry.conclude e l) (OnEntry.conclude e m) := by
  cases e with
  | task t => exact h.conclude t
  | untracked => exact ⟨h, rfl⟩

theorem agree_plain {α : Type} (f : α → LedgerAnswer) {r s : Ledger × α}
    (h : Agree r s) : Agree (apply.plain f r) (apply.plain f s) :=
  ⟨h.ledger, by unfold apply.plain; rw [h.answer]⟩

theorem agree_answer {α : Type} (f : α → LedgerAnswer)
    {r s : Ledger × Except Fault α} (h : Agree r s) :
    Agree (apply.answer f r) (apply.answer f s) :=
  ⟨h.ledger, by unfold apply.answer; rw [h.answer]⟩

/-- Alike ledgers stay alike, and every operation answers the same on both
unless it is a write on nobody's behalf. -/
theorem alike_apply (op : LedgerOp) (h : Alike l m) :
    Alike (op.apply l).1 (op.apply m).1
      ∧ (op.byNobody = false → (op.apply l).2 = (op.apply m).2) := by
  have agree {r s : Ledger × Except Fault LedgerAnswer} (h : Agree r s) :
      Alike r.1 s.1 ∧ (op.byNobody = false → r.2 = s.2) :=
    ⟨h.ledger, fun _ => h.answer⟩
  -- all but a write on nobody's behalf answer the same
  cases op with
  | setClock ms => exact agree (agree_answer (fun _ => .done) (h.setClock ms))
  | advance ms ns =>
      exact agree (agree_answer (fun _ => .done) (h.advance ms ns))
  | setWall t => exact agree ⟨{ h with wall := rfl }, rfl⟩
  | startTask path project variant =>
      exact agree (agree_answer _ (h.startTask path project variant))
  | addTask path project variant =>
      have added := h.addTask path project variant m.sink
      rw [← h.sink] at added
      refine agree ?_
      simp only [apply]
      rw [← h.sink]
      exact agree_answer _ added
  | finishTask path => exact agree (agree_plain _ (h.finishTask path))
  | flush => exact agree (agree_plain _ h.flush)
  | endBuild => exact agree (agree_plain _ h.endBuild)
  | await e => exact agree ⟨alike_does (fun t _ _ h => h.onTask t _) e h, rfl⟩
  | close e => exact agree ⟨alike_does (fun t _ _ h => h.close t) e h, rfl⟩
  | finish e => exact agree ⟨alike_does (fun t _ _ h => h.finish t) e h, rfl⟩
  | attach e kind thread start length =>
      exact agree ⟨alike_does (fun t _ _ h => h.onTask t _) e h, rfl⟩
  | conclude e => exact agree (agree_plain _ (agree_conclude h e))
  | enlist e key kind =>
      exact agree ⟨alike_does (fun t _ _ h => h.enlist t key kind) e h, rfl⟩
  | lookUp e key => exact agree (agree_plain _ (agree_lookUp h e key))
  | addWorker path kind => exact agree (agree_plain _ (h.addWorker path kind))
  | startWorker w => exact agree ⟨h.startWorker w, rfl⟩
  | endWorker w => exact agree ⟨h.endWorker w, rfl⟩
  | report e w =>
      exact agree (agree_answer (fun _ => .done) (agree_report h e w))
  | allocate =>
      refine agree ?_
      simp only [apply]
      rw [h.sink]
      exact agree_answer _ (h.allocate m.sink)
  | write r =>
      have written := h.write m.sink .direct .direct r
      refine ⟨?_, fun no => by cases no⟩
      have fst (l : Ledger) :
          ((LedgerOp.write r).apply l).1 = (l.write l.sink .direct r).1 := by
        simp only [apply]
        split
        · next e => rw [e]
        · next e => rw [e]
      rw [fst, fst, h.sink]
      exact written

end LedgerOp

end TaskLedger
