/-
A ledger, and another one in which only some of its tasks and workers are.

The other one has its own places for them, which follow in the order in which
they came (`Places`), and its own numbers. What both share, the clocks and what
is known of the workers, is the same in both (`Level`). One task is looked at:
where it was kept, the other ledger has a copy of it, with copies of the lines
about it, and the one is registered where the other one is (`Reflected`).

What neither of them has a part in leaves this alone (`Level.beside`,
`Reflected.apart`). A worker that comes in both comes last in both
(`Level.hired`), and a number that is taken in both is the next one on either
side, so that the pairs go on rising (`Level.numbered`).
-/
import TaskLedger.Proofs.Ledger.Apart
import TaskLedger.Proofs.Ledger.TaskCopies

namespace TaskLedger

-- ================================================================== tables

/-- Some places of a table, in the order of those that stand for them in a
table that has no others. -/
structure Places (kept : List Nat) (size size' : Nat) : Prop where
  nodup : kept.Nodup
  below : ∀ i ∈ kept, i < size
  size : size' = kept.length

namespace Places

variable {kept : List Nat} {size size' n i : Nat}

/-- The next index is not kept yet. -/
theorem fresh (h : Places kept size size') : size ∉ kept :=
  fun mem => Nat.lt_irrefl _ (h.below _ mem)

/-- Indices that are passed over leave all places as they are. -/
theorem more (h : Places kept size size') (le : size ≤ n) :
    Places kept n size' :=
  { h with below := fun i mem => Nat.lt_of_lt_of_le (h.below i mem) le }

/-- One more comes last in both. -/
theorem push (h : Places kept size size') :
    Places (kept ++ [size]) (size + 1) (size' + 1) where
  nodup := by
    refine List.nodup_append.mpr ⟨h.nodup, List.pairwise_singleton _ _, ?_⟩
    intro i mem j here same
    rw [List.mem_singleton.mp here] at same
    exact h.fresh (same ▸ mem)
  below := by
    intro i mem
    rcases List.mem_append.mp mem with old | new
    · exact Nat.lt_succ_of_lt (h.below i old)
    · rw [List.mem_singleton.mp new]
      exact Nat.lt_succ_self size
  size := by rw [List.length_append, List.length_singleton, h.size]

theorem idxOf_lt (h : Places kept size size') (mem : i ∈ kept) :
    kept.idxOf i < size' := by
  rw [h.size]
  exact List.idxOf_lt_length_iff.mpr mem

/-- The index that was kept last has the last place. -/
theorem idxOf_last (h : Places kept size size') :
    (kept ++ [size]).idxOf size = size' := by
  rw [List.idxOf_append_of_notMem h.fresh, List.idxOf_cons_self, h.size,
    Nat.add_zero]

/-- An index that is still to come has the place that is still to come. -/
theorem idxOf_beyond (h : Places kept size size') (beyond : size ≤ i) :
    kept.idxOf i = size' := by
  rw [h.size, List.idxOf_eq_length_iff]
  exact fun mem => Nat.not_lt_of_le beyond (h.below i mem)

end Places

/-- The places of a table are there for good, so the new ones that are kept
come last. -/
def grown (kept : List Nat) (before after : Nat) : List Nat :=
  kept ++ List.range' before (after - before)

@[simp] theorem grown_same (kept : List Nat) (n : Nat) :
    grown kept n n = kept := by
  unfold grown
  rw [Nat.sub_self]
  exact List.append_nil kept

/-- A table that grows by one keeps the place that is new. -/
@[simp] theorem grown_succ (kept : List Nat) (n : Nat) :
    grown kept n (n + 1) = kept ++ [n] := by
  unfold grown
  rw [Nat.add_sub_cancel_left]
  rfl

/-- What stands at these places, and what stands for it. -/
structure Copied {α β : Type} (R : α → β → Prop) (kept : List Nat)
    (table : Array α) (table' : Array β) : Prop
    extends Places kept table.size table'.size where
  copy : ∀ {i : Nat}, i ∈ kept →
    ∃ a b, table[i]? = some a ∧ table'[kept.idxOf i]? = some b ∧ R a b

namespace Copied

variable {α β : Type} {R S : α → β → Prop} {kept : List Nat}
  {table table₂ : Array α} {table' : Array β} {i : Nat}

theorem mono (h : Copied R kept table table')
    (weaker : ∀ a b, R a b → S a b) : Copied S kept table table' :=
  { h with copy := fun mem =>
      let ⟨a, b, here, there, both⟩ := h.copy mem
      ⟨a, b, here, there, weaker a b both⟩ }

/-- What happens elsewhere in the one table. -/
theorem beside (h : Copied R kept table table')
    (same : ∀ i ∈ kept, table₂[i]? = table[i]?)
    (le : table.size ≤ table₂.size) : Copied R kept table₂ table' :=
  { h.toPlaces.more le with copy := fun {i} mem =>
      let ⟨a, b, here, there, both⟩ := h.copy mem
      ⟨a, b, (same i mem).trans here, there, both⟩ }

/-- One more comes last in both. -/
theorem push (h : Copied R kept table table') {a : α} {b : β}
    (both : R a b) :
    Copied R (kept ++ [table.size]) (table.push a) (table'.push b) where
  toPlaces := by
    rw [Array.size_push, Array.size_push]
    exact h.toPlaces.push
  copy := by
    intro i mem
    rcases List.mem_append.mp mem with old | new
    · obtain ⟨a, b, here, there, both⟩ := h.copy old
      rw [List.idxOf_append_of_mem old]
      exact ⟨a, b, push_old here, push_old there, both⟩
    · rw [List.mem_singleton.mp new, h.toPlaces.idxOf_last]
      exact ⟨a, b, Array.getElem?_push_size, Array.getElem?_push_size, both⟩

/-- One is changed in both. -/
theorem modify (h : Copied R kept table table') {f : α → α} {g : β → β}
    (mem : i ∈ kept)
    (both : ∀ a b, table[i]? = some a → R a b → R (f a) (g b)) :
    Copied R kept (table.modify i f) (table'.modify (kept.idxOf i) g) where
  toPlaces := by
    rw [Array.size_modify, Array.size_modify]
    exact h.toPlaces
  copy := by
    intro j mem'
    obtain ⟨a, b, here, there, related⟩ := h.copy mem'
    rw [Array.getElem?_modify, Array.getElem?_modify, here, there]
    by_cases same : i = j
    · subst same
      rw [if_pos rfl, if_pos rfl]
      exact ⟨f a, g b, rfl, rfl, both a b here related⟩
    · rw [if_neg same, if_neg fun there =>
        same ((List.idxOf_inj mem).mp there)]
      exact ⟨a, b, rfl, rfl, related⟩

end Copied

namespace Ledger

variable {refuses : Nat → SpanRecord → Option Error} {path : String}
  {r : TaskId} {ts : List TaskId} {ws : List WorkerId} {ps qs : Paired}
  {l l' m m' : Ledger}

-- ===================================================================== fit

/-- In a history from nothing, all tasks go by the ledger's sink, which
refuses as it did, and no line is about a task that is not on record. -/
structure Fit (refuses : Nat → SpanRecord → Option Error) (l : Ledger) :
    Prop where
  sink : ∃ k, l.sinks[l.sink]? = some k ∧ k.refuses = refuses
  home : ∀ {t : TaskId} {task : Task}, l.tasks[t]? = some task →
    task.sink = l.sink
  known : ∀ line ∈ l.journal, ∀ t, line.about? = some t → t < l.tasks.size

theorem Fit.lines (h : Fit refuses l) (beyond : l.tasks.size ≤ r) :
    l.linesAbout r = [] :=
  List.filter_eq_nil_iff.mpr fun line mem about =>
    Nat.not_lt_of_le beyond (h.known line mem r (eq_of_beq about))

/-- The default sink is there after it has given a number, and refuses as
before. -/
theorem Fit.number (h : Fit refuses l) (s : SinkId) :
    ∃ k, (l.sinks.modify s fun k => k.next.1)[l.sink]? = some k
      ∧ k.refuses = refuses := by
  obtain ⟨k, old, same⟩ := h.sink
  obtain ⟨k', sink, rfl | rfl⟩ := sink_numbered old s
  · exact ⟨k', sink, same⟩
  · exact ⟨k.next.1, sink, (refuses_next k).trans same⟩

/-- A change of a task fits, if the task stays with its sink. -/
theorem Fit.modify (h : Fit refuses l) (t : TaskId) {f : Task → Task}
    (same : ∀ task : Task, (f task).sink = task.sink)
    {sinks : Array Sink}
    (sink : ∃ k, sinks[l.sink]? = some k ∧ k.refuses = refuses)
    {journal : List Write}
    (known : ∀ line ∈ journal, ∀ t, line.about? = some t →
      t < l.tasks.size) (workers : Array Worker) :
    Fit refuses { l with
      sinks, journal, workers, tasks := l.tasks.modify t f } where
  sink := sink
  home := by
    intro u task' found
    rcases modify_cases found with ⟨-, task, old, rfl⟩ | ⟨-, old⟩
    · exact (same task).trans (h.home old)
    · exact h.home old
  known := by
    intro line mem u about
    rw [Array.size_modify]
    exact known line mem u about

/-- A line that fits the tasks may be appended. -/
theorem Fit.appended (h : Fit refuses l) {s : SinkId} {origin : Origin}
    {record : SpanRecord}
    (known : ∀ t : TaskId, (origin = .task t ∨ ∃ w, origin = .worker t w) →
      t < l.tasks.size) :
    ∀ line ∈ l.journal ++ l.notes s origin record, ∀ t,
      line.about? = some t → t < l.tasks.size := by
  intro line mem t about
  rcases List.mem_append.mp mem with old | new
  · exact h.known line old t about
  · rw [notes_about new] at about
    cases origin with
    | task u =>
        obtain rfl := Option.some.inj about
        exact known u (.inl rfl)
    | worker u w =>
        obtain rfl := Option.some.inj about
        exact known u (.inr ⟨w, rfl⟩)
    | direct => cases about

/-- Each single change leaves a ledger that fits. -/
theorem fit_kept : Kept (fun _ => True) fun _ l => Fit refuses l :=
  .of_change fun {_ l _} h c => by
    -- a task that comes is in this sink, and every line is about a task that is
    -- there
    cases c with
    | quiet q =>
        cases q with
        | clock | aside | hired => exact ⟨h.sink, h.home, h.known⟩
        | number s => exact ⟨h.number s, h.home, h.known⟩
        | opened sink next =>
            refine ⟨h.number l.sink, ?_, ?_⟩
            · intro t task found
              rcases push_back found with old | ⟨-, rfl⟩
              · exact h.home old
              · rfl
            · intro line mem t about
              rw [Array.size_push]
              exact Nat.lt_succ_of_lt (h.known line mem t about)
        | turned t turn =>
            exact h.modify t (fun task => (turn.same task).sink) h.sink
              h.known l.workers
    | @concluded t task found =>
        refine h.modify t (f := Task.concluded) (fun _ => rfl) h.sink
          (h.appended ?_) l.workers
        rintro u (is | ⟨_, is⟩)
        · cases is
          exact (Array.getElem?_eq_some_iff.mp found).1
        · cases is
    | enlisted key kind found =>
        exact h.modify _ (f := Task.enlist key _) (fun _ => rfl) h.sink
          h.known _
    | started | ended => exact ⟨h.sink, h.home, h.known⟩
    | @reported t w task worker k id found =>
        refine h.modify t (fun task => ?_) (h.number task.sink)
          (h.appended ?_) l.workers
        · unfold Task.noteReport
          split <;> rfl
        · rintro u (is | ⟨_, is⟩)
          · cases is
          · cases is
            exact (Array.getElem?_eq_some_iff.mp found).1
    | offered =>
        refine ⟨h.sink, h.home, h.appended ?_⟩
        rintro u (is | ⟨_, is⟩)
        · cases is
        · cases is

/-- What is written for a task is one line. -/
theorem Fit.noted (h : Fit refuses l) {task : Task}
    (found : l.tasks[r]? = some task) (origin : Origin)
    (record : SpanRecord) :
    ∃ n, l.notes task.sink origin record
      = [⟨task.sink, origin, record, refuses n record⟩] := by
  obtain ⟨k, sink, rfl⟩ := h.sink
  refine ⟨l.journal.countP fun w => w.sink == task.sink, ?_⟩
  unfold notes
  rw [h.home found, sink]

/-- There are numbers left. -/
theorem Fit.counting (h : Fit refuses l) {n : Nat}
    (room : l.counter + n ≤ Sink.largestId.toNat) :
    Counting l.counter n l := by
  obtain ⟨k, sink, -⟩ := h.sink
  have last : l.counter = k.last.toNat := by
    unfold counter
    rw [sink]
    rfl
  exact ⟨k, sink, Nat.le_of_eq last, last ▸ room⟩

/-- As long as there are numbers left, a report of a worker that is there
takes the next one and is one line. -/
theorem Fit.report (h : Fit refuses l) {w : WorkerId} {task : Task}
    {worker : Worker} (found : l.tasks[r]? = some task)
    (present : l.workers[w]? = some worker)
    (room : l.counter + 1 ≤ Sink.largestId.toNat) :
    ∃ (id : SpanId) (n : Nat) (tree : Files.Tree) (warnings : List Warning),
      id.toNat = l.counter + 1
        ∧ counter { l with
            sinks := l.sinks.modify l.sink fun k => k.next.1 }
          = l.counter + 1
        ∧ l.report r w
          = ({ l with
                sinks := l.sinks.modify l.sink fun k => k.next.1
                journal := l.journal ++
                  [⟨l.sink, .worker r w,
                    task.record (worker.span id task.id) [],
                    refuses n (task.record (worker.span id task.id) [])⟩]
                tasks := l.tasks.modify r
                  (Task.noteReport l.now (l.idle task))
                tree, warnings }, .ok ()) := by
  have home := h.home found
  obtain ⟨id, k, allocated, value, next, sink, given⟩ :=
    allocate_counting (h.counting room)
  -- there is a task, a worker and a number, so the line is written
  rcases report_cases r w l with ⟨none | none, -⟩
      | ⟨_, _, f, there, -, fails, -⟩
      | ⟨_, _, _, _, tree, warnings, there, there', sink', given', he⟩
  · rw [found] at none
    cases none
  · rw [present] at none
    cases none
  · rw [found] at there
    obtain rfl := Option.some.inj there
    rw [home, allocated] at fails
    cases fails
  · rw [found] at there
    rw [present] at there'
    obtain rfl := Option.some.inj there
    obtain rfl := Option.some.inj there'
    rw [home, sink] at sink'
    obtain rfl := Option.some.inj sink'
    rw [given] at given'
    obtain rfl := Except.ok.inj given'
    obtain ⟨n, note⟩ := h.noted found (.worker r w)
      (task.record (worker.span id task.id) [])
    rw [note, home] at he
    exact ⟨id, n, tree, warnings, value, next, he⟩

/-- So does a task that is put on record, which comes last. -/
theorem Fit.addTask (h : Fit refuses l)
    (room : l.counter + 1 ≤ Sink.largestId.toNat) (path project : String)
    (variant : Option String) :
    ∃ id : SpanId, id.toNat = l.counter + 1
      ∧ counter { l with
          sinks := l.sinks.modify l.sink fun k => k.next.1 }
        = l.counter + 1
      ∧ l.addTask path project variant l.sink
        = ({ l with
              sinks := l.sinks.modify l.sink fun k => k.next.1
              tasks := l.tasks.push
                { path, project, variant, id, sink := l.sink,
                  start := l.now } }, .ok l.tasks.size) := by
  obtain ⟨id, k, allocated, value, next, -, -⟩ :=
    allocate_counting (h.counting room)
  refine ⟨id, value, next, ?_⟩
  unfold Ledger.addTask
  rw [allocated]

/-- What a start does while there are numbers: the next one is given, and the
ledger that comes out fits. -/
theorem Fit.startTask (h : Fit refuses l)
    (room : l.counter + 1 ≤ Sink.largestId.toNat) (path project : String)
    (variant : Option String) :
    ∃ (id : SpanId) (marks : List Mark) (warnings : List Warning),
      id.toNat = l.counter + 1
        ∧ counter { l with
            sinks := l.sinks.modify l.sink fun k => k.next.1 }
          = l.counter + 1
        ∧ l.startTask path project variant
          = ({ l with
                sinks := l.sinks.modify l.sink fun k => k.next.1
                tasks := l.tasks.push
                  { path, project, variant, id, sink := l.sink,
                    start := l.now }
                registry := l.registry.filter (fun e => e.1 != path)
                  ++ [(path, l.tasks.size)]
                marks, warnings }, .ok l.tasks.size) := by
  obtain ⟨id, value, next, added⟩ := h.addTask room path project variant
  unfold Ledger.startTask
  rw [added]
  dsimp only
  split
  · exact ⟨id, _, _, value, next, rfl⟩
  · exact ⟨id, _, _, value, next, rfl⟩

-- =================================================================== level

/-- The clocks are the same, and so is what is known of the workers that were
kept. The numbers that were handed out on both sides, pair by pair, rise on
both sides. -/
structure Level (ts : List TaskId) (ws : List WorkerId) (ps : Paired)
    (l m : Ledger) : Prop where
  now : m.now = l.now
  wall : m.wall = l.wall
  tasks : Places ts l.tasks.size m.tasks.size
  workers : Copied Eq ws l.workers m.workers
  rising : ps.Rising
  below : ∀ x ∈ ps, x.1.toNat ≤ l.counter ∧ x.2.toNat ≤ m.counter
  counter : m.counter ≤ l.counter

/-- What goes on beside the workers that were kept. -/
theorem Level.beside (h : Level ts ws ps l m) (beside : Beside ws l l')
    (counter : l.counter ≤ l'.counter) : Level ts ws ps l' m where
  now := h.now.trans beside.now.symm
  wall := h.wall.trans beside.wall.symm
  tasks := h.tasks.more beside.tasks
  workers := h.workers.beside beside.workers beside.staff
  rising := h.rising
  below := fun x mem =>
    ⟨Nat.le_trans (h.below x mem).1 counter, (h.below x mem).2⟩
  counter := Nat.le_trans h.counter counter

/-- What takes no number and is not about workers. -/
theorem Level.still (h : Level ts ws ps l m) (left : Still l l')
    (right : Still m m') : Level ts ws ps l' m' where
  now := by rw [left.now, right.now, h.now]
  wall := by rw [left.wall, right.wall, h.wall]
  tasks := by
    rw [left.size, right.size]
    exact h.tasks
  workers := by
    rw [left.workers, right.workers]
    exact h.workers
  rising := h.rising
  below := by
    rw [left.counter, right.counter]
    exact h.below
  counter := by
    rw [left.counter, right.counter]
    exact h.counter

/-- One more worker comes, the same on both sides. -/
theorem Level.hired (h : Level ts ws ps l m) (k : Worker)
    {tasks tasks' : Array Task} (size : tasks.size = l.tasks.size)
    (size' : tasks'.size = m.tasks.size) :
    Level ts (ws ++ [l.workers.size]) ps
      { l with workers := l.workers.push k, tasks }
      { m with workers := m.workers.push k, tasks := tasks' } where
  now := h.now
  wall := h.wall
  tasks := by
    rw [size, size']
    exact h.tasks
  workers := h.workers.push rfl
  rising := h.rising
  below := h.below
  counter := h.counter

/-- A worker that was kept is marked on both sides. -/
theorem Level.marked (h : Level ts ws ps l m) {w : WorkerId} (mem : w ∈ ws)
    (f : Worker → Worker) :
    Level ts ws ps (l.onWorker w f) (m.onWorker (ws.idxOf w) f) where
  now := h.now
  wall := h.wall
  tasks := h.tasks
  workers := h.workers.modify mem fun _ _ _ same => congrArg f same
  rising := h.rising
  below := h.below
  counter := h.counter

/-- A number is taken on both sides. It is the next one. -/
theorem Level.numbered (h : Level ts ws ps l m) {id id' : SpanId}
    {sinks sinks' : Array Sink} (value : id.toNat = l.counter + 1)
    (value' : id'.toNat = m.counter + 1)
    (next : Ledger.counter { l with sinks } = l.counter + 1)
    (next' : Ledger.counter { m with sinks := sinks' } = m.counter + 1) :
    Level ts ws (ps ++ [(id, id')]) { l with sinks }
      { m with sinks := sinks' } where
  now := h.now
  wall := h.wall
  tasks := h.tasks
  workers := h.workers
  rising := by
    refine Paired.rising_append h.rising fun x mem => ?_
    obtain ⟨low, low'⟩ := h.below x mem
    rw [UInt64.lt_iff_toNat_lt, UInt64.lt_iff_toNat_lt]
    omega
  below := by
    intro x mem
    rw [next, next']
    rcases List.mem_append.mp mem with old | new
    · obtain ⟨low, low'⟩ := h.below x old
      omega
    · rw [List.mem_singleton.mp new]
      exact ⟨Nat.le_of_eq value, Nat.le_of_eq value'⟩
  counter := by
    rw [next, next']
    exact Nat.succ_le_succ h.counter

/-- The crews of a task and of its copy are the same. -/
theorem Level.crewOf (h : Level ts ws ps l m) {a b : Task}
    (twin : a.Twin ps ws b) : m.crewOf b = l.crewOf a := by
  unfold Ledger.crewOf
  rw [twin.crew, List.filterMap_map]
  refine List.filterMap_congr fun c mem => ?_
  obtain ⟨k, k', here, there, same⟩ := h.workers.copy (twin.manned c mem)
  show m.workers[ws.idxOf c.2]? = l.workers[c.2]?
  rw [here, there, same]

/-- A task and its copy are idle together. -/
theorem Level.idle (h : Level ts ws ps l m) {a b : Task}
    (twin : a.Twin ps ws b) : m.idle b = l.idle a := by
  unfold Ledger.idle
  rw [h.crewOf twin]

-- =============================================================== reflected

/-- A task and its copy, with the lines about them and their places in the
registry. -/
structure Reflected (refuses : Nat → SpanRecord → Option Error)
    (path : String) (r r' : TaskId) (ws : List WorkerId) (ps : Paired)
    (l m : Ledger) : Prop where
  task : ∃ a b, l.tasks[r]? = some a ∧ m.tasks[r']? = some b
    ∧ a.path = path ∧ a.Twin ps ws b
  lines : List.Forall₂ (Write.Twin refuses ps) (l.linesAbout r)
    (m.linesAbout r')
  registered : l.registered? path = some r ↔ m.registered? path = some r'

variable {r' : TaskId} {ws' : List WorkerId}

/-- What leaves them alone. -/
theorem Reflected.apart (h : Reflected refuses path r r' ws ps l m)
    (left : Apart path r l l') (right : Apart path r' m m') :
    Reflected refuses path r r' ws ps l' m' where
  task := by
    rw [left.task, right.task]
    exact h.task
  lines := by
    rw [left.lines, right.lines]
    exact h.lines
  registered := by
    rw [left.registered, right.registered]
    exact h.registered

/-- More workers may come, and more numbers. -/
theorem Reflected.mono (h : Reflected refuses path r r' ws ps l m)
    (sub : ps ⊆ qs) (more : List WorkerId) :
    Reflected refuses path r r' (ws ++ more) qs l m where
  task :=
    let ⟨a, b, found, found', own, twin⟩ := h.task
    ⟨a, b, found, found', own, (twin.mono sub).more more⟩
  lines := h.lines.imp fun _ _ twin => twin.mono sub
  registered := h.registered

/-- A step of the task, with what is written about it. -/
theorem Reflected.step (h : Reflected refuses path r r' ws ps l m)
    {f g : Task → Task} (tasks : l'.tasks = l.tasks.modify r f)
    (tasks' : m'.tasks = m.tasks.modify r' g)
    (both : ∀ a b, l.tasks[r]? = some a → m.tasks[r']? = some b →
      a.Twin ps ws b → (f a).path = a.path ∧ (f a).Twin qs ws' (g b))
    (sub : ps ⊆ qs) {v w : List Write}
    (lines : l'.linesAbout r = l.linesAbout r ++ v)
    (lines' : m'.linesAbout r' = m.linesAbout r' ++ w)
    (twins : List.Forall₂ (Write.Twin refuses qs) v w)
    (registry : l'.registry = l.registry)
    (registry' : m'.registry = m.registry) :
    Reflected refuses path r r' ws' qs l' m' where
  task := by
    obtain ⟨a, b, found, found', own, twin⟩ := h.task
    obtain ⟨same, twin'⟩ := both a b found found' twin
    refine ⟨f a, g b, ?_, ?_, same.trans own, twin'⟩
    · rw [tasks, Array.getElem?_modify, if_pos rfl, found]
      rfl
    · rw [tasks', Array.getElem?_modify, if_pos rfl, found']
      rfl
  lines := by
    rw [lines, lines']
    exact List.rel_append (h.lines.imp fun _ _ twin => twin.mono sub) twins
  registered := by
    unfold registered?
    rw [registry, registry']
    exact h.registered

end Ledger

end TaskLedger
