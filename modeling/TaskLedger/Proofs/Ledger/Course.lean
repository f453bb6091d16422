/-
What an operation can do to a ledger, said once. An operation takes a
course: a chain of single changes, each of which is one record update
(`Quiet`), and of conclusions, each of which writes one task's span
(`concluding`). A course lists the tasks that it concludes.

Five operations are left out, since they are single changes already and
the theory asks which of them happened (`LedgerOp.single`): entering a
worker into a crew, starting it, ending it, its report, and a write on
nobody's behalf. What a quiet change leaves alone is exactly what these
five move: no crew changes, no worker's times change, and nothing is
written.

`settles_apply` is the accounting half: an operation answers as many spans
as its course has conclusions. The other account is of the numbers that a
course asks sinks for.

A property that a course says too little for is followed through the sweeps
by itself: they only report tasks as done and write their spans (`Tended`).
-/
import TaskLedger.Ledger.Op

namespace TaskLedger

-- ===================================================== changes of a task

/-- The changes of one task by its lifecycle, at the time `now`. -/
inductive Task.Turn (now : Instant) : (Task → Task) → Prop
  | await : Turn now Task.await
  | close : Turn now (Task.close now)
  | finish : Turn now (Task.finish now)
  | attach (kind : SpanKind) (thread : UInt64) (start : Instant)
      (length : Duration) : Turn now (Task.attach kind thread start length)

/-- Two states of one task: everything that is fixed when it is put on
record agrees. -/
structure Task.Same (a b : Task) : Prop where
  path : b.path = a.path
  project : b.project = a.project
  variant : b.variant = a.variant
  id : b.id = a.id
  sink : b.sink = a.sink
  start : b.start = a.start

namespace Task

variable {now : Instant} {f : Task → Task}

theorem Same.refl (t : Task) : Same t t := ⟨rfl, rfl, rfl, rfl, rfl, rfl⟩

/-- What is fixed of a task stays fixed over any number of changes. -/
theorem Same.trans {a b c : Task} (h : Same a b) (k : Same b c) : Same a c :=
  ⟨k.path.trans h.path, k.project.trans h.project,
    k.variant.trans h.variant, k.id.trans h.id, k.sink.trans h.sink,
    k.start.trans h.start⟩

/-- A move of a task's lifecycle changes nothing of what is fixed. -/
theorem Turn.same (h : Turn now f) (t : Task) : Same t (f t) := by
  cases h with
  | await => unfold Task.await; split <;> constructor <;> rfl
  | close => unfold Task.close; split <;> constructor <;> rfl
  | finish => unfold Task.finish; split <;> constructor <;> rfl
  | attach => unfold Task.attach; split <;> constructor <;> rfl

/-- Nor does it change the crew. -/
theorem Turn.crew (h : Turn now f) (t : Task) : (f t).crew = t.crew := by
  cases h with
  | await => unfold Task.await; split <;> rfl
  | close => unfold Task.close; split <;> rfl
  | finish => unfold Task.finish; split <;> rfl
  | attach => unfold Task.attach; split <;> rfl

/-- A lifecycle change neither opens a concluded task nor concludes an
open one. -/
theorem Turn.terminal (h : Turn now f) (t : Task) :
    (f t).status.terminal = t.status.terminal := by
  cases h with
  | await => unfold Task.await; split <;> simp_all [TaskStatus.terminal]
  | close => unfold Task.close; split <;> simp_all [TaskStatus.terminal]
  | finish => unfold Task.finish; split <;> simp_all [TaskStatus.terminal]
  | attach => unfold Task.attach; split <;> simp_all [TaskStatus.terminal]

end Task

namespace Ledger

-- ====================================================== changes of a ledger

/-- The lines that a write adds to the journal: one, unless there is no
such sink. -/
def notes (s : SinkId) (origin : Origin) (r : SpanRecord) (l : Ledger) :
    List Write :=
  match l.sinks[s]? with
  | none => []
  | some k =>
      [⟨s, origin, r, k.refuses (l.journal.countP fun w => w.sink == s) r⟩]

/-- One change that touches no crew, no worker's times and no task's
conclusion, with the count of numbers it asks a sink for. -/
inductive Quiet (l : Ledger) : Nat → Ledger → Prop
  /-- The clock moves. -/
  | clock (t : Instant) : Quiet l 0 { l with now := t }
  /-- What no task and no worker looks at. -/
  | aside (wall : Instant) (tree : Files.Tree) (marks : List Mark)
      (warnings : List Warning) (registry : List (String × TaskId)) :
      Quiet l 0 { l with wall, tree, marks, warnings, registry }
  /-- A number is taken from a sink, or refused. -/
  | number (s : SinkId) :
      Quiet l 1 { l with sinks := l.sinks.modify s fun k => k.next.1 }
  /-- A task is put on record with a number of its own. -/
  | opened {path project : String} {variant : Option String} {k : Sink}
      {id : SpanId} (sink : l.sinks[l.sink]? = some k)
      (next : k.next.2 = .ok id) :
      Quiet l 1
        { l with
          sinks := l.sinks.modify l.sink fun k => k.next.1
          tasks := l.tasks.push
            { path, project, variant, id, sink := l.sink, start := l.now } }
  /-- A task goes on in its lifecycle. -/
  | turned (t : TaskId) {f : Task → Task} (turn : Task.Turn l.now f) :
      Quiet l 0 { l with tasks := l.tasks.modify t f }
  /-- A worker that is in no crew. -/
  | hired (w : Worker) (ended : w.ended = none)
      (born : w.standIn = false → w.started = none ∧ w.created = l.now) :
      Quiet l 0 { l with workers := l.workers.push w }

/-- A task that is on record as `task` is concluded: its span is written. -/
def concluding (t : TaskId) (task : Task) (l : Ledger) : Ledger :=
  { l with
    tasks := l.tasks.modify t Task.concluded
    journal := l.journal ++ l.notes task.sink (.task t)
      (task.record (task.span (l.crewOf task)) task.children) }

/-- A chain of quiet changes and of conclusions: the tasks it concludes
and the count of numbers it asks for. -/
inductive Course : List TaskId → Nat → Ledger → Ledger → Prop
  | stay (l : Ledger) : Course [] 0 l l
  | quiet {ts : List TaskId} {a b : Nat} {l m n : Ledger} :
      Quiet l a m → Course ts b m n → Course ts (a + b) l n
  | conclude {ts : List TaskId} {b : Nat} {l n : Ledger} {t : TaskId}
      {task : Task} (found : l.tasks[t]? = some task)
      (opened : task.status.terminal = false) :
      Course ts b (l.concluding t task) n → Course (t :: ts) b l n

theorem Quiet.course {a : Nat} {l m : Ledger} (h : Quiet l a m) :
    Course [] a l m :=
  .quiet h (.stay m)

/-- Courses are put together: they conclude what both conclude, and take what
both take. -/
theorem Course.trans {ts us : List TaskId} {a b : Nat} {l m n : Ledger}
    (h : Course ts a l m) (k : Course us b m n) :
    Course (ts ++ us) (a + b) l n := by
  induction h with
  | stay => rw [Nat.zero_add]; exact k
  | quiet q _ ih => rw [Nat.add_assoc]; exact .quiet q (ih k)
  | conclude found opened _ ih => exact .conclude found opened (ih k)

/-- What every quiet change and every conclusion keeps, a course keeps. The
property may speak of the numbers that are still to be asked for. -/
theorem Course.keeps {P : Nat → Ledger → Prop}
    (quiet : ∀ a b l m, P (a + b) l → Quiet l a m → P b m)
    (conclude : ∀ b l t task, P b l → l.tasks[t]? = some task →
      task.status.terminal = false → P b (l.concluding t task))
    {ts : List TaskId} {a b : Nat} {l n : Ledger} (h : Course ts a l n)
    (hl : P (a + b) l) : P b n := by
  induction h with
  | stay => rw [Nat.zero_add] at hl; exact hl
  | quiet q _ ih =>
      rw [Nat.add_assoc] at hl
      exact ih (quiet _ _ _ _ hl q)
  | conclude found opened _ ih => exact ih (conclude _ _ _ _ hl found opened)

/-- A course that concludes `n` tasks and asks for `a` numbers leads from
`l` to `m`. -/
def Settles (l : Ledger) (n a : Nat) (m : Ledger) : Prop :=
  ∃ ts, ts.length = n ∧ Course ts a l m

theorem Settles.refl (l : Ledger) : Settles l 0 0 l := ⟨[], rfl, .stay l⟩

theorem Quiet.settles {a : Nat} {l m : Ledger} (h : Quiet l a m) :
    Settles l 0 a m :=
  ⟨[], rfl, h.course⟩

/-- Two stretches that settle their tasks settle them one after the other. -/
theorem Settles.trans {l m o : Ledger} {n p a b : Nat}
    (h : Settles l n a m) (k : Settles m p b o) :
    Settles l (n + p) (a + b) o := by
  obtain ⟨ts, rfl, ct⟩ := h
  obtain ⟨us, rfl, cu⟩ := k
  exact ⟨ts ++ us, List.length_append, ct.trans cu⟩

/-- What leads on from a place that was reached without a conclusion or a
number. -/
theorem Settles.then {l m o : Ledger} {n a : Nat} (h : Settles l 0 0 m)
    (k : Settles m n a o) : Settles l n a o := by
  have t := h.trans k
  rwa [Nat.zero_add, Nat.zero_add] at t

-- ======================================================= single functions

/-- Of a ledger only the counter moves as a number is taken, also if there is
none left. -/
theorem allocate_fst (s : SinkId) (l : Ledger) :
    (l.allocate s).1
      = { l with sinks := l.sinks.modify s fun k => k.next.1 } := by
  unfold allocate
  cases h : l.sinks[s]? with
  | none =>
      -- a sink that is not there gives no number and stays away
      have same : (l.sinks.modify s fun k => k.next.1) = l.sinks := by
        apply Array.ext_getElem?
        intro i
        rw [Array.getElem?_modify]
        split
        · next e => subst e; simp [h]
        · rfl
      simp [same]
  | some k =>
      have same : l.sinks.setIfInBounds s k.next.1
          = l.sinks.modify s fun k => k.next.1 := by
        apply Array.ext_getElem?
        intro i
        rw [Array.getElem?_modify, Array.getElem?_setIfInBounds]
        split
        · next e =>
            subst e
            rw [h]
            simp [(Array.getElem?_eq_some_iff.mp h).1]
        · rfl
      simp [same]

/-- A number that was handed out came from a sink that is there, by that sink's
counter. -/
theorem allocate_ok {s : SinkId} {l : Ledger} {id : SpanId}
    (h : (l.allocate s).2 = .ok id) :
    ∃ k, l.sinks[s]? = some k ∧ k.next.2 = .ok id := by
  unfold allocate at h
  cases hk : l.sinks[s]? with
  | none => simp [hk] at h
  | some k => exact ⟨k, rfl, by simpa [hk] using h⟩

/-- A write adds its lines to the journal and may let a file grow. -/
theorem write_fst (s : SinkId) (origin : Origin) (r : SpanRecord)
    (l : Ledger) :
    ∃ tree, (l.write s origin r).1
      = { l with journal := l.journal ++ l.notes s origin r, tree } := by
  unfold write notes
  cases h : l.sinks[s]? with
  | none => exact ⟨l.tree, by simp⟩
  | some k =>
      dsimp only
      split
      · exact ⟨l.tree, by simp_all⟩
      · next place _ _ =>
          exact ⟨l.tree.append place (SpanFile.line r), by simp_all⟩
      · exact ⟨l.tree, by simp_all⟩

/-- The clock moves, or the call fails and nothing does. -/
theorem settles_setClock (ms : Int) (l : Ledger) :
    Settles l 0 0 (l.setClock ms).1 := by
  unfold setClock
  split
  · exact (Quiet.clock _).settles
  · exact .refl l

theorem settles_advance (ms ns : Int) (l : Ledger) :
    Settles l 0 0 (l.advance ms ns).1 := by
  unfold advance
  split
  · exact (Quiet.clock _).settles
  · exact .refl l

/-- One number is taken at most. -/
theorem settles_allocate (s : SinkId) (l : Ledger) :
    Settles l 0 1 (l.allocate s).1 := by
  rw [allocate_fst]
  exact (Quiet.number s).settles

theorem settles_warn (w : Warning) (l : Ledger) : Settles l 0 0 (l.warn w) :=
  (Quiet.aside l.wall l.tree l.marks _ l.registry).settles

/-- A task takes one number for its span. Where there is none left, it is not
put on record. -/
theorem settles_addTask (path project : String) (variant : Option String)
    (l : Ledger) :
    Settles l 0 1 (l.addTask path project variant l.sink).1 := by
  have hfst := allocate_fst l.sink l
  unfold addTask
  split
  · next l' f h =>
      rw [h] at hfst
      rw [hfst]
      exact (Quiet.number l.sink).settles
  · next l' id h =>
      rw [h] at hfst
      obtain ⟨k, hk, hnext⟩ := allocate_ok (s := l.sink) (l := l) (by rw [h])
      dsimp only at hfst ⊢
      rw [hfst]
      exact (Quiet.opened hk hnext).settles

theorem settles_onTask (t : TaskId) {f : Task → Task} {l : Ledger}
    (h : Task.Turn l.now f) : Settles l 0 0 (l.onTask t f) :=
  (Quiet.turned t h).settles

/-- Writing a task's span does nothing for a task that is not on record or
is concluded; otherwise it is a conclusion, up to what it tells an observer
and to the file it wrote. -/
theorem conclude_cases (t : TaskId) (l : Ledger) :
    ((∀ task, l.tasks[t]? = some task → task.status.terminal = true)
        ∧ l.conclude t = (l, false))
      ∨ ∃ (task : Task) (tree : Files.Tree) (warnings : List Warning),
          l.tasks[t]? = some task ∧ task.status.terminal = false
          ∧ l.conclude t
            = ({ l.concluding t task with tree, warnings }, true) := by
  unfold conclude
  cases found : l.tasks[t]? with
  | none => exact .inl ⟨fun task h => (by cases h), rfl⟩
  | some task =>
      dsimp only
      split
      · next terminal =>
          refine .inl ⟨?_, rfl⟩
          intro task' h
          obtain rfl := Option.some.inj h
          exact terminal
      · next opened =>
          obtain ⟨tree, h⟩ := write_fst task.sink (.task t)
            (task.record (task.span (crewOf task (l.onTask t Task.concluded)))
              task.children) (l.onTask t Task.concluded)
          refine .inr ⟨task, tree, ?_⟩
          split
          · next l' hw =>
              rw [hw] at h
              subst h
              exact ⟨l.warnings, rfl, by simpa using opened, rfl⟩
          · next l' e hw =>
              rw [hw] at h
              subst h
              exact ⟨_, rfl, by simpa using opened, rfl⟩

/-- One that is concluded is left alone. -/
theorem conclude_of_terminal {t : TaskId} {l : Ledger} {task : Task}
    (found : l.tasks[t]? = some task)
    (terminal : task.status.terminal = true) :
    l.conclude t = (l, false) := by
  rcases conclude_cases t l with ⟨-, he⟩ | ⟨task', _, _, found', opened, -⟩
  · exact he
  · rw [found] at found'
    obtain rfl := Option.some.inj found'
    rw [opened] at terminal
    cases terminal

/-- One that is open is concluded. -/
theorem conclude_of_open {t : TaskId} {l : Ledger} {task : Task}
    (found : l.tasks[t]? = some task)
    (opened : task.status.terminal = false) :
    ∃ (tree : Files.Tree) (warnings : List Warning),
      l.conclude t = ({ l.concluding t task with tree, warnings }, true) := by
  rcases conclude_cases t l with ⟨terminal, -⟩
      | ⟨task', tree, warnings, found', -, he⟩
  · rw [terminal task found] at opened
    cases opened
  · rw [found] at found'
    obtain rfl := Option.some.inj found'
    exact ⟨tree, warnings, he⟩

/-- Concluding a task by hand settles one task exactly when it answers
yes. -/
theorem settles_conclude (t : TaskId) (l : Ledger) :
    Settles l (l.conclude t).2.toNat 0 (l.conclude t).1 := by
  rcases conclude_cases t l with ⟨-, he⟩
      | ⟨task, tree, warnings, found, opened, he⟩
  · rw [he]
    exact .refl l
  · rw [he]
    exact ⟨[t], rfl, .conclude found opened
      (Quiet.aside l.wall tree l.marks warnings l.registry).course⟩

/-- A worker takes no number before it reports. -/
theorem settles_addWorker (path : String) (kind : SpanKind) (l : Ledger) :
    Settles l 0 0 (l.addWorker path kind).1 :=
  (Quiet.hired _ rfl fun _ => ⟨rfl, rfl⟩).settles

theorem settles_addStandIn (l : Ledger) : Settles l 0 0 l.addStandIn.1 :=
  (Quiet.hired _ rfl fun h => by simp [Worker.forNobody] at h).settles

/-- A key that nobody is under brings a stand-in, and no task has any part in
that. -/
theorem settles_lookUp (e : Entry) (key : String) (l : Ledger) :
    Settles l 0 0 (OnEntry.lookUp e key l).1 := by
  unfold OnEntry.lookUp
  cases e with
  | untracked => exact settles_addStandIn l
  | task t =>
      dsimp only
      unfold lookUp
      split
      · exact .refl l
      · exact settles_addStandIn l

-- ========================================================= the scheduler

/-- A start puts one task on record, and if another one is under the same path,
leaves a warning and takes its registration. -/
theorem settles_startTask (path project : String) (variant : Option String)
    (l : Ledger) : Settles l 0 1 (l.startTask path project variant).1 := by
  have h := settles_addTask path project variant l
  unfold startTask
  split
  · next l' f hadd => rw [hadd] at h; exact h
  · next l' t hadd =>
      rw [hadd] at h
      dsimp only
      split
      · exact h.trans (Quiet.aside l'.wall l'.tree _ _ _).settles
      · exact h.trans (Quiet.aside l'.wall l'.tree _ l'.warnings _).settles

/-- A span is written if the task waits for it, and then the length is marked.
-/
theorem settles_concludeAndMark (t : TaskId) (l : Ledger) :
    Settles l (l.concludeAndMark t).2.toNat 0 (l.concludeAndMark t).1 := by
  have h := settles_conclude t l
  unfold concludeAndMark
  split
  · next l' hc =>
      rw [hc] at h
      have marked : Settles l' 0 0 (l'.markLength t) := by
        unfold markLength
        split
        · exact .refl l'
        · exact (Quiet.aside l'.wall l'.tree _ l'.warnings l'.registry).settles
      exact h.trans marked
  · next l' hc => rw [hc] at h; exact h

/-- A path that is registered is given up and its task concluded; any other one
is left as it is. -/
theorem settles_settle (path : String) (l : Ledger) :
    Settles l (l.settle path).2.toNat 0 (l.settle path).1 := by
  unfold settle
  split
  · exact .refl l
  · next t _ =>
      have h := settles_concludeAndMark t (l.unregister path)
      exact (Quiet.aside l.wall l.tree l.marks l.warnings _).settles.then h

/-- The report that a task is done finishes it; its span is written if nobody is
at work for it any more. -/
theorem settles_finishTask (path : String) (l : Ledger) :
    Settles l (l.finishTask path).2.toNat 0 (l.finishTask path).1 := by
  unfold finishTask
  split
  · exact .refl l
  · next t _ =>
      have turned : Settles l 0 0 (l.finish t) := settles_onTask t .finish
      dsimp only
      split
      · exact turned
      · split
        · exact turned.then (settles_settle path (l.finish t))
        · exact turned

/-- Going over a list settles as many tasks as it counts, if every single
step does. -/
theorem settles_countOver {α : Type} {f : α → Ledger → Ledger × Bool}
    (step : ∀ a l, Settles l (f a l).2.toNat 0 (f a l).1) (as : List α)
    (l : Ledger) :
    Settles l (countOver f as l).2 0 (countOver f as l).1 := by
  induction as generalizing l with
  | nil => exact .refl l
  | cons a rest ih =>
      have h := (step a l).trans (ih (f a l).1)
      simp only [countOver]
      cases hb : (f a l).2
      · simpa [hb] using h
      · simpa [hb, Nat.add_comm] using h

/-- A flush that goes over the registry in some order. -/
def flushBy (order : List (String × TaskId)) (l : Ledger) : Ledger × Nat :=
  l.flushOver ((order.filter fun e => l.ready e.2).map Prod.fst)

/-- A flush goes by the numbers of the tasks' spans. -/
theorem flush_by (l : Ledger) : l.flush = l.flushBy l.byId := rfl

/-- A sweep concludes what each of its steps concludes, in any order. -/
theorem settles_flushBy (order : List (String × TaskId)) (l : Ledger) :
    Settles l (l.flushBy order).2 0 (l.flushBy order).1 :=
  settles_countOver settles_settle _ l

theorem settles_flush (l : Ledger) : Settles l l.flush.2 0 l.flush.1 := by
  rw [flush_by]
  exact settles_flushBy l.byId l

/-- What the end of a build does to one task is to finish it and to write its
span, with a warning if somebody still works for it. -/
theorem settles_wrapUp (t : TaskId) (l : Ledger) :
    Settles l (l.wrapUp t).2.toNat 0 (l.wrapUp t).1 := by
  unfold wrapUp
  split
  · exact .refl l
  · next task _ =>
      dsimp only
      have warned : Settles l 0 0
          (if l.idle task then l else l.warn (.stillRunning task.path)) := by
        split
        · exact .refl l
        · exact settles_warn _ l
      exact (warned.then (settles_onTask t .finish)).then
        (settles_concludeAndMark t _)

/-- The end of the build, by some order of the registry. -/
def endBuildBy (order : List (String × TaskId)) (l : Ledger) : Ledger × Nat :=
  l.drainOver (order.map Prod.snd)

/-- The end of the build goes by the numbers of the tasks' spans, too. -/
theorem endBuild_by (l : Ledger) : l.endBuild = l.endBuildBy l.byId := rfl

/-- At the end of a build the registry is emptied, which concludes nothing. -/
theorem settles_endBuildBy (order : List (String × TaskId)) (l : Ledger) :
    Settles l (l.endBuildBy order).2 0 (l.endBuildBy order).1 := by
  have h := settles_countOver settles_wrapUp (order.map Prod.snd)
    { l with registry := [] }
  exact (Quiet.aside l.wall l.tree l.marks l.warnings []).settles.then h

theorem settles_endBuild (l : Ledger) :
    Settles l l.endBuild.2 0 l.endBuild.1 := by
  rw [endBuild_by]
  exact settles_endBuildBy l.byId l

-- ================================================================== tended

/-- What each step of a sweep keeps, the sweep keeps. -/
theorem countOver_keeps {α : Type} {f : α → Ledger → Ledger × Bool}
    {P : Ledger → Prop} (step : ∀ a l, P l → P (f a l).1) (as : List α)
    {l : Ledger} (h : P l) : P (countOver f as l).1 := by
  induction as generalizing l with
  | nil => exact h
  | cons a rest ih => exact ih (step a l h)

/-- What is kept as tasks are reported as done and have their spans written,
and does not look at marks, warnings and the registry. The scheduler's sweeps
do nothing else. -/
structure Tended (P : Ledger → Prop) : Prop where
  aside : ∀ {l : Ledger} (marks : List Mark) (warnings : List Warning)
    (registry : List (String × TaskId)),
    P l → P { l with marks, warnings, registry }
  finish : ∀ {l : Ledger} (t : TaskId), P l → P (l.finish t)
  conclude : ∀ {l : Ledger} (t : TaskId), P l → P (l.conclude t).1

namespace Tended

variable {P : Ledger → Prop} {l : Ledger}

/-- The notice of a length is aside. -/
theorem concludeAndMark (h : Tended P) (hl : P l) (t : TaskId) :
    P (l.concludeAndMark t).1 := by
  have written := h.conclude t hl
  unfold Ledger.concludeAndMark
  split
  · next m he =>
      rw [he] at written
      unfold markLength
      split
      · exact written
      · exact h.aside _ m.warnings m.registry written
  · next he =>
      rw [he] at written
      exact written

theorem settle (h : Tended P) (hl : P l) (path : String) :
    P (l.settle path).1 := by
  unfold Ledger.settle
  split
  · exact hl
  · next t _ =>
      have out : P (l.unregister path) := h.aside l.marks l.warnings _ hl
      exact h.concludeAndMark out t

/-- A task is finished before its span is written, if it is found under the path
at all. -/
theorem finishTask (h : Tended P) (hl : P l) (path : String) :
    P (l.finishTask path).1 := by
  unfold Ledger.finishTask
  split
  · exact hl
  · next t _ =>
      have said := h.finish t hl
      dsimp only
      split
      · exact said
      · split
        · exact h.settle said path
        · exact said

/-- The end of a build finishes what it concludes. -/
theorem wrapUp (h : Tended P) (hl : P l) (t : TaskId) :
    P (l.wrapUp t).1 := by
  unfold Ledger.wrapUp
  split
  · exact hl
  · next task _ =>
      have warned : P (if l.idle task then l
          else l.warn (.stillRunning task.path)) := by
        split
        · exact hl
        · exact h.aside l.marks _ l.registry hl
      exact h.concludeAndMark (h.finish t warned) t

theorem flush (h : Tended P) (hl : P l) : P l.flush.1 :=
  countOver_keeps (P := P) (fun path _ hm => h.settle hm path) l.readyPaths
    hl

theorem endBuild (h : Tended P) (hl : P l) : P l.endBuild.1 :=
  countOver_keeps (P := P) (fun t _ hm => h.wrapUp hm t)
    (l.byId.map Prod.snd) (h.aside l.marks l.warnings [] hl)

end Tended

end Ledger

-- ============================================================ operations

namespace LedgerOp

open Ledger

/-- The operations that are single changes of their own: the four that move
a worker or a crew, and a write on nobody's behalf. -/
def single : LedgerOp → Bool
  | enlist .. | startWorker _ | endWorker _ | report .. | write _ => true
  | _ => false

/-- How many numbers an operation asks a sink for. A report asks for one if
it finds its task and its worker. -/
def numbers : LedgerOp → Nat
  | startTask .. | addTask .. | allocate | report .. => 1
  | _ => 0

/-- How many numbers a run asks sinks for. -/
def asked : List LedgerOp → Nat
  | [] => 0
  | op :: rest => op.numbers + asked rest

/-- How many tasks an answer says were concluded. -/
def spansOf : Except Fault LedgerAnswer → Nat
  | .ok (.yes b) => b.toNat
  | .ok (.count n) => n
  | _ => 0

/-- How many tasks some answers say were concluded. -/
def answered : List (Except Fault LedgerAnswer) → Nat
  | [] => 0
  | a :: rest => spansOf a + answered rest

/-- An operation on an entry settles what it settles for each task, and nothing
for nobody. -/
theorem settles_does {f : TaskId → Ledger → Ledger}
    (h : ∀ t l, Settles l 0 0 (f t l)) (e : Entry) (l : Ledger) :
    Settles l 0 0 (OnEntry.does e f l) := by
  cases e with
  | task t => exact h t l
  | untracked => exact .refl l

/-- An operation that may stop midway settles nothing, whatever it answers
otherwise. -/
theorem settles_answer {α : Type} {f : α → LedgerAnswer}
    (hf : ∀ a, spansOf (.ok (f a)) = 0) {l : Ledger}
    {r : Ledger × Except Fault α} {a : Nat} (h : Settles l 0 a r.1) :
    Settles l (spansOf (apply.answer f r).2) a (apply.answer f r).1 := by
  obtain ⟨m, _ | a⟩ := r
  · exact h
  · show Settles l (spansOf (.ok (f a))) _ m
    rw [hf a]
    exact h

/-- Every other operation takes a course, and it answers how many tasks the
course concludes. -/
theorem settles_apply {op : LedgerOp} (h : op.single = false) (l : Ledger) :
    Settles l (spansOf (op.apply l).2) op.numbers (op.apply l).1 := by
  cases op with
  | setClock ms =>
      exact settles_answer (f := fun _ => .done) (fun _ => rfl)
        (settles_setClock ms l)
  | advance ms ns =>
      exact settles_answer (f := fun _ => .done) (fun _ => rfl)
        (settles_advance ms ns l)
  | setWall t =>
      exact (Quiet.aside t l.tree l.marks l.warnings l.registry).settles
  | startTask path project variant =>
      exact settles_answer (fun _ => rfl)
        (settles_startTask path project variant l)
  | addTask path project variant =>
      exact settles_answer (fun _ => rfl)
        (settles_addTask path project variant l)
  | finishTask path => exact settles_finishTask path l
  | flush => exact settles_flush l
  | endBuild => exact settles_endBuild l
  | await e => exact settles_does (fun t _ => settles_onTask t .await) e l
  | close e => exact settles_does (fun t _ => settles_onTask t .close) e l
  | finish e => exact settles_does (fun t _ => settles_onTask t .finish) e l
  | attach e kind thread start length =>
      exact settles_does
        (fun t _ => settles_onTask t (.attach kind thread start length)) e l
  | conclude e =>
      cases e with
      | task t => exact settles_conclude t l
      | untracked => exact .refl l
  | lookUp e key => exact settles_lookUp e key l
  | addWorker path kind => exact settles_addWorker path kind l
  | allocate =>
      exact settles_answer (fun _ => rfl) (settles_allocate l.sink l)
  | enlist | startWorker | endWorker | report | write => cases h

end LedgerOp

end TaskLedger
