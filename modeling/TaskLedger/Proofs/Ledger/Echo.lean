/-
Every operation that is for a task has an echo in the ledger that has only what
is for it.

The echo is the same operation in other places. What it leaves is what the
operation leaves, and what it answers is the same answer in other places
(`Echoes`); what is new in the tables of the one ledger is new in those of the
other one, and comes last in both. So a mirror stays one (`Mirror.echo`).
-/
import TaskLedger.Proofs.Ledger.Mirror

namespace TaskLedger

namespace Ledger

variable {refuses : Nat → SpanRecord → Option Error} {path : String}
  {r : TaskId} {hired : List WorkerId} {ts : List TaskId}
  {ws : List WorkerId} {ps qs : Paired} {l l' m m' : Ledger} {op : LedgerOp}

-- ================================================================== echoes

/-- What an operation and its echo leave of a mirror. What is new in the tables
was kept. -/
structure Echo (refuses : Nat → SpanRecord → Option Error) (path : String)
    (r : TaskId) (ts : List TaskId) (ws : List WorkerId) (qs : Paired)
    (l l' m' : Ledger) : Prop where
  level : Level (grown ts l.tasks.size l'.tasks.size)
    (grown ws l.workers.size l'.workers.size) qs l' m'
  reflected : r ∈ grown ts l.tasks.size l'.tasks.size →
    Reflected refuses path r ((grown ts l.tasks.size l'.tasks.size).idxOf r)
      (grown ws l.workers.size l'.workers.size) qs l' m'

/-- Nothing is new. -/
theorem echo_still (tasks : l'.tasks.size = l.tasks.size)
    (workers : l'.workers.size = l.workers.size)
    (level : Level ts ws qs l' m')
    (reflected : r ∈ ts →
      Reflected refuses path r (ts.idxOf r) ws qs l' m') :
    Echo refuses path r ts ws qs l l' m' := by
  refine ⟨?_, ?_⟩
  · rw [tasks, workers, grown_same, grown_same]
    exact level
  · rw [tasks, workers, grown_same, grown_same]
    exact reflected

/-- A worker is new. -/
theorem echo_hired (tasks : l'.tasks.size = l.tasks.size)
    (workers : l'.workers.size = l.workers.size + 1)
    (level : Level ts (ws ++ [l.workers.size]) qs l' m')
    (reflected : r ∈ ts →
      Reflected refuses path r (ts.idxOf r) (ws ++ [l.workers.size]) qs l'
        m') :
    Echo refuses path r ts ws qs l l' m' := by
  refine ⟨?_, ?_⟩
  · rw [tasks, workers, grown_same, grown_succ]
    exact level
  · rw [tasks, workers, grown_same, grown_succ]
    exact reflected

/-- What the scheduler or the lifecycle does at one moment. -/
theorem Mirror.swift (h : Mirror refuses path r ts ws ps l m)
    (left : Swift l l') (right : Swift m m')
    (reflected : r ∈ ts →
      Reflected refuses path r (ts.idxOf r) ws ps l' m') :
    Echo refuses path r ts ws ps l l' m' :=
  echo_still left.still.size (congrArg Array.size left.workers)
    (h.toLevel.still left.still right.still) reflected

/-- An outcome and its echo, with the answers where they are compared. -/
def Echoed (refuses : Nat → SpanRecord → Option Error) (path : String)
    (r : TaskId) (ts : List TaskId) (ws : List WorkerId) (ps : Paired)
    (compared : Prop) (l : Ledger)
    (x y : Ledger × Except Fault LedgerAnswer) : Prop :=
  ∃ qs, ps ⊆ qs ∧ Echo refuses path r ts ws qs l x.1 y.1
    ∧ (compared →
        y.2 = x.2.map (LedgerAnswer.recast
          (grown ts l.tasks.size x.1.tasks.size)
          (grown ws l.workers.size x.1.workers.size)))

/-- The answers are to be the same: what is answered depends on the task alone
and, where a path is done, both ledgers know who was last to start there. -/
def Compared (path : String) (r : TaskId) (ts : List TaskId)
    (op : LedgerOp) (l m : Ledger) : Prop :=
  ∃ last, op.compared r last = true
    ∧ ∀ p, op = .finishTask p → Rivals path ts last l m

/-- Where no path is done, it does not matter who was last to start. -/
theorem compared_other (alone : op.compared r none = true)
    (other : ∀ p, op ≠ .finishTask p) : Compared path r ts op l m :=
  ⟨none, alone, fun p is => absurd is (other p)⟩

/-- An operation has its echo. -/
abbrev Echoes (refuses : Nat → SpanRecord → Option Error) (path : String)
    (r : TaskId) (ts : List TaskId) (ws : List WorkerId) (ps : Paired)
    (op : LedgerOp) (l m : Ledger) : Prop :=
  Echoed refuses path r ts ws ps (Compared path r ts op l m) l (op.apply l)
    ((op.recast ts ws).apply m)

namespace Mirror

/-- Where no other task started after it, the task is registered in both or
nobody is. -/
theorem registered_both (h : Mirror refuses path r ts ws ps l m)
    {last : Option TaskId} (rivals : Rivals path ts last l m)
    (own : last.all (· == r) = true) :
    (l.registered? path = some r ∧ m.registered? path = some (ts.idxOf r)
        ∧ r ∈ ts)
      ∨ l.registered? path = none ∧ m.registered? path = none := by
  have alone {t : TaskId} (is : last = some t) : t = r := by
    rw [is] at own
    exact eq_of_beq own
  cases here : l.registered? path with
  | some t =>
      obtain rfl := alone (rivals.left t here)
      obtain ⟨task, found, path'⟩ := h.left.sound.homed path t here
      have mem := h.kept task found path'
      exact .inl ⟨rfl, (h.reflected mem).registered.mp here, mem⟩
  | none =>
      refine .inr ⟨rfl, ?_⟩
      cases there : m.registered? path with
      | none => rfl
      | some t' =>
          obtain ⟨t, is, rfl⟩ :=
            Option.map_eq_some_iff.mp (rivals.right t' there)
          obtain rfl := alone is
          have back := (h.reflected (rivals.kept t is)).registered.mpr there
          rw [here] at back
          cases back

/-- The path is reported as done. -/
theorem finishTask (h : Mirror refuses path r ts ws ps l m) :
    Echoes refuses path r ts ws ps (.finishTask path) l m := by
  have left : Swift l (l.finishTask path).1 :=
    LedgerOp.swift_apply (o := .finishTask path) rfl rfl rfl rfl l
  have right : Swift m (m.finishTask path).1 :=
    LedgerOp.swift_apply (o := .finishTask path) rfl rfl rfl rfl m
  refine ⟨ps, fun _ mem => mem, h.swift left right fun mem => ?_,
    fun compared => ?_⟩
  · have facing := h.facing mem
    by_cases here : l.registered? path = some r
    · exact (facing.finishTask here).1.toReflected
    · exact (facing.passed (passed_finishTask here)
        (passed_finishTask fun there =>
          here (facing.registered.mpr there))).toReflected
  · obtain ⟨last, own, rivals⟩ := compared
    have same : (m.finishTask path).2 = (l.finishTask path).2 := by
      rcases h.registered_both (rivals path rfl) own with ⟨here, -, mem⟩
          | ⟨nobody, nobody'⟩
      · exact ((h.facing mem).finishTask here).2
      · unfold Ledger.finishTask
        rw [nobody, nobody']
    show Except.ok (LedgerAnswer.yes (m.finishTask path).2) = _
    rw [same]
    rfl

theorem flush (h : Mirror refuses path r ts ws ps l m) :
    Echoes refuses path r ts ws ps .flush l m :=
  ⟨ps, fun _ mem => mem,
    h.swift (LedgerOp.swift_apply (o := .flush) rfl rfl rfl rfl l)
      (LedgerOp.swift_apply (o := .flush) rfl rfl rfl rfl m)
      fun mem => ((h.facing mem).flush h.left.sound.homed h.right.sound.homed
        h.left.single h.right.single).toReflected,
    fun ⟨_, compared, _⟩ => by cases compared⟩

theorem endBuild (h : Mirror refuses path r ts ws ps l m) :
    Echoes refuses path r ts ws ps .endBuild l m :=
  ⟨ps, fun _ mem => mem,
    h.swift (LedgerOp.swift_apply (o := .endBuild) rfl rfl rfl rfl l)
      (LedgerOp.swift_apply (o := .endBuild) rfl rfl rfl rfl m)
      fun mem => ((h.facing mem).endBuild h.left.sound.homed
        h.right.sound.homed h.left.single h.right.single).toReflected,
    fun ⟨_, compared, _⟩ => by cases compared⟩

/-- The task goes on in its lifecycle. -/
theorem turned (h : Mirror refuses path r ts ws ps l m) (mem : r ∈ ts)
    {f : Task → Task} (turn : Task.Turn l.now f) :
    Echo refuses path r ts ws ps l (l.onTask r f)
      (m.onTask (ts.idxOf r) f) :=
  have facing := (h.facing mem).turned turn
  echo_still Array.size_modify rfl facing.toLevel fun _ => facing.toReflected

theorem conclude (h : Mirror refuses path r ts ws ps l m) (mem : r ∈ ts) :
    Echoes refuses path r ts ws ps (.conclude (.task r)) l m := by
  obtain ⟨facing, same⟩ := (h.facing mem).conclude
  refine ⟨ps, fun _ mem => mem,
    h.swift
      { atOnce_conclude r l with settles := ⟨_, settles_conclude r l⟩ }
      { atOnce_conclude _ m with settles := ⟨_, settles_conclude _ m⟩ }
      fun _ => facing.toReflected, fun _ => ?_⟩
  show Except.ok (LedgerAnswer.yes (m.conclude (ts.idxOf r)).2) = _
  rw [same]
  rfl

-- ================================================================= workers

/-- A worker that is new in both comes last in both. -/
theorem hires (h : Mirror refuses path r ts ws ps l m) (k : Worker) :
    Echo refuses path r ts ws ps l { l with workers := l.workers.push k }
        { m with workers := m.workers.push k }
      ∧ (grown ws l.workers.size (l.workers.push k).size).idxOf
          l.workers.size = m.workers.size := by
  refine ⟨echo_hired rfl (Array.size_push k) (h.hired k rfl rfl) fun mem => ?_,
    ?_⟩
  · have same := (h.reflected mem).mono (fun _ mem => mem) [l.workers.size]
    exact ⟨same.task, same.lines, same.registered⟩
  · rw [Array.size_push, grown_succ]
    exact h.workers.idxOf_last

theorem addWorker (h : Mirror refuses path r ts ws ps l m) (p : String)
    (kind : SpanKind) :
    Echoes refuses path r ts ws ps (.addWorker p kind) l m := by
  have same : ({ path := p, kind, created := m.now } : Worker)
      = { path := p, kind, created := l.now } := by rw [h.now]
  obtain ⟨echo, last⟩ := h.hires { path := p, kind, created := l.now }
  refine ⟨ps, fun _ mem => mem, ?_, fun _ => ?_⟩
  · show Echo _ _ _ _ _ _ _ _ { m with
      workers := m.workers.push { path := p, kind, created := m.now } }
    rw [same]
    exact echo
  · show Except.ok (LedgerAnswer.worker m.workers.size) = _
    rw [← last]
    rfl

/-- A look-up for nobody brings a stand-in. -/
theorem standIn (h : Mirror refuses path r ts ws ps l m) (key : String) :
    Echoes refuses path r ts ws ps (.lookUp .untracked key) l m := by
  have same : Worker.forNobody m.wall = Worker.forNobody l.wall := by
    rw [h.wall]
  obtain ⟨echo, last⟩ := h.hires (Worker.forNobody l.wall)
  refine ⟨ps, fun _ mem => mem, ?_, fun _ => ?_⟩
  · show Echo _ _ _ _ _ _ _ _ { m with
      workers := m.workers.push (Worker.forNobody m.wall) }
    rw [same]
    exact echo
  · show Except.ok (LedgerAnswer.worker m.workers.size) = _
    rw [← last]
    rfl

/-- A look-up for the task finds the same worker, or a stand-in. -/
theorem lookUp (h : Mirror refuses path r ts ws ps l m) (mem : r ∈ ts)
    (key : String) :
    Echoes refuses path r ts ws ps (.lookUp (.task r) key) l m := by
  obtain ⟨a, b, found, found', -, twin⟩ := (h.reflected mem).task
  have copy := twin.lookup key
  show Echoed refuses path r ts ws ps _ l
    (LedgerOp.apply.plain .worker (l.lookUp r key))
    (LedgerOp.apply.plain .worker (m.lookUp (ts.idxOf r) key))
  unfold Ledger.lookUp
  rw [found, found', Option.bind_some, Option.bind_some, copy]
  cases a.crew.lookup key with
  | none =>
      obtain ⟨qs, sub, echo, answer⟩ := h.standIn key
      exact ⟨qs, sub, echo, fun _ => answer (compared_other rfl nofun)⟩
  | some w =>
      refine ⟨ps, fun _ mem => mem, echo_still rfl rfl h.toLevel h.reflected,
        fun _ => ?_⟩
      show Except.ok (LedgerAnswer.worker (ws.idxOf w)) = _
      dsimp only [LedgerOp.apply.plain]
      rw [grown_same, grown_same]
      rfl

theorem enlist (h : Mirror refuses path r ts ws ps l m) (mem : r ∈ ts)
    (key : String) (kind : SpanKind) :
    Echoes refuses path r ts ws ps (.enlist (.task r) key kind) l m := by
  have facing := (h.facing mem).enlist key kind
  obtain ⟨a, -, found, -⟩ := (h.reflected mem).task
  have sizes : (l.enlist r key kind).tasks.size = l.tasks.size
      ∧ (l.enlist r key kind).workers.size = l.workers.size + 1 := by
    rw [enlist_of_found found]
    exact ⟨Array.size_modify, Array.size_push _⟩
  exact ⟨ps, fun _ mem => mem,
    echo_hired sizes.1 sizes.2 facing.toLevel fun _ => facing.toReflected,
    fun _ => rfl⟩

/-- A worker of its own is marked. -/
theorem marked (h : Mirror refuses path r ts ws ps l m) {w : WorkerId}
    (own : w ∈ ws) (f : Worker → Worker) :
    Echo refuses path r ts ws ps l (l.onWorker w f)
      (m.onWorker (ws.idxOf w) f) :=
  echo_still rfl Array.size_modify (h.toLevel.marked own f) fun mem =>
    have same := h.reflected mem
    ⟨same.task, same.lines, same.registered⟩

/-- Both clocks show a worker the same. -/
theorem clockOf (h : Mirror refuses path r ts ws ps l m) (k : Worker) :
    m.clockOf k = l.clockOf k := by
  unfold Ledger.clockOf
  rw [h.wall, h.now]

/-- Nobody is new after a report. -/
theorem report_sizes (t : TaskId) (w : WorkerId) (l : Ledger) :
    (l.report t w).1.tasks.size = l.tasks.size
      ∧ (l.report t w).1.workers.size = l.workers.size := by
  refine ⟨?_, congrArg Array.size (atOnce_report t w l).workers⟩
  rcases report_cases t w l with ⟨-, he⟩ | ⟨_, _, _, -, -, -, he⟩
      | ⟨_, _, _, _, _, _, -, -, -, -, he⟩
  · rw [he]
  · rw [he]
  · rw [he]
    exact Array.size_modify

theorem report (h : Mirror refuses path r ts ws ps l m) (mem : r ∈ ts)
    {w : WorkerId} (own : w ∈ ws ∨ l.workers.size ≤ w)
    (room : l.counter + (LedgerOp.report (.task r) w).draws l
      ≤ Sink.largestId.toNat) :
    Echoes refuses path r ts ws ps (.report (.task r) w) l m := by
  obtain ⟨a, b, found, found', -, twin⟩ := (h.reflected mem).task
  -- a worker of the task has its copy, any other number stands for nobody
  rcases own with own | beyond
  · obtain ⟨k, -, present, -, -⟩ := h.workers.copy own
    have one : (LedgerOp.report (.task r) w).draws l = 1 := by
      unfold LedgerOp.draws
      dsimp only
      rw [found, present]
      rfl
    rw [one] at room
    obtain ⟨qs, sub, facing, same⟩ := (h.facing mem).report own room
    obtain ⟨tasks, workers⟩ := report_sizes r w l
    refine ⟨qs, sub, echo_still tasks workers facing.toLevel
      fun _ => facing.toReflected, fun _ => ?_⟩
    show (LedgerOp.apply.done (m.report (ts.idxOf r) (ws.idxOf w))).2
      = (LedgerOp.apply.done (l.report r w)).2.map _
    unfold LedgerOp.apply.done
    dsimp only
    rw [same]
    cases (l.report r w).2 <;> rfl
  · have left : l.report r w = (l, .ok ()) := by
      unfold Ledger.report
      rw [Array.getElem?_eq_none beyond]
      split
      · next none => cases none
      · rfl
    have right : m.report (ts.idxOf r) (ws.idxOf w) = (m, .ok ()) := by
      rw [h.workers.idxOf_beyond beyond]
      unfold Ledger.report
      rw [Array.getElem?_eq_none (Nat.le_refl _)]
      split
      · next none => cases none
      · rfl
    show Echoed refuses path r ts ws ps _ l
      (LedgerOp.apply.done (l.report r w))
      (LedgerOp.apply.done (m.report (ts.idxOf r) (ws.idxOf w)))
    rw [left, right]
    exact ⟨ps, fun _ mem => mem, echo_still rfl rfl h.toLevel h.reflected,
      fun _ => rfl⟩

-- ================================================================== starts

/-- A task of the path that is new in both comes last in both. It may be the
one that is looked at. -/
theorem opens (h : Mirror refuses path r ts ws ps l m) {id id' : SpanId}
    (value : id.toNat = l.counter + 1) (value' : id'.toNat = m.counter + 1)
    {sinks sinks' : Array Sink}
    (next : counter { l with sinks } = l.counter + 1)
    (next' : counter { m with sinks := sinks' } = m.counter + 1)
    (project : String) (variant : Option String)
    {registry registry' : List (String × TaskId)}
    (old : r ∈ ts → (registry.lookup path = some r
      ↔ registry'.lookup path = some (ts.idxOf r)))
    (new : r = l.tasks.size → (registry.lookup path = some r
      ↔ registry'.lookup path = some m.tasks.size))
    (marks marks' : List Mark) (warnings warnings' : List Warning) :
    Echo refuses path r ts ws (ps ++ [(id, id')]) l
      { l with
        sinks, registry, marks, warnings
        tasks := l.tasks.push
          { path, project, variant, id, sink := l.sink, start := l.now } }
      { m with
        sinks := sinks', registry := registry', marks := marks'
        warnings := warnings'
        tasks := m.tasks.push
          { path, project, variant, id := id', sink := m.sink,
            start := m.now } } := by
  have numbered := h.numbered value value' next next'
  refine ⟨?_, ?_⟩
  · dsimp only
    rw [Array.size_push, grown_succ, grown_same]
    refine ⟨numbered.now, numbered.wall, ?_, numbered.workers,
      numbered.rising, numbered.below, numbered.counter⟩
    rw [Array.size_push, Array.size_push]
    exact h.tasks.push
  · dsimp only
    rw [Array.size_push, grown_succ, grown_same]
    intro mem
    -- the task is an old one, and nothing about it is new
    rcases List.mem_append.mp mem with mem | is
    · rw [List.idxOf_append_of_mem mem]
      have same := (h.reflected mem).mono
        (List.subset_append_left ps [(id, id')]) []
      rw [List.append_nil] at same
      obtain ⟨a, b, found, found', rest⟩ := same.task
      exact ⟨⟨a, b, push_old found, push_old found', rest⟩, same.lines,
        old mem⟩
    -- or it is the new one, and nothing is about it yet
    · obtain rfl := List.mem_singleton.mp is
      rw [h.tasks.idxOf_last]
      refine ⟨⟨_, _, Array.getElem?_push_size, Array.getElem?_push_size, rfl,
        ?_⟩, ?_, new rfl⟩
      · exact {
          path := rfl
          project := rfl
          variant := rfl
          start := h.now
          status := rfl
          ended := rfl
          closed := rfl
          id := List.mem_append_right ps (List.mem_singleton_self _)
          crew := rfl
          manned := fun c mem => by cases mem
          children := .nil }
      · show List.Forall₂ _ (l.linesAbout l.tasks.size)
          (m.linesAbout m.tasks.size)
        rw [h.left.lines (Nat.le_refl _), h.right.lines (Nat.le_refl _)]
        exact .nil

/-- Its place in the other ledger is that of the new one. -/
theorem opened (h : Mirror refuses path r ts ws ps l m) {task : Task} :
    (grown ts l.tasks.size (l.tasks.push task).size).idxOf l.tasks.size
      = m.tasks.size := by
  rw [Array.size_push, grown_succ]
  exact h.tasks.idxOf_last

theorem startTask (h : Mirror refuses path r ts ws ps l m)
    (project : String) (variant : Option String)
    (room : l.counter + 1 ≤ Sink.largestId.toNat) :
    Echoes refuses path r ts ws ps (.startTask path project variant) l m := by
  obtain ⟨id, marks, warnings, value, next, left⟩ :=
    h.left.startTask room path project variant
  obtain ⟨id', marks', warnings', value', next', right⟩ :=
    h.right.startTask (Nat.le_trans (Nat.succ_le_succ h.counter) room) path
      project variant
  show Echoed refuses path r ts ws ps _ l
    (LedgerOp.apply.answer .task (l.startTask path project variant))
    (LedgerOp.apply.answer .task (m.startTask path project variant))
  rw [left, right]
  refine ⟨_, List.subset_append_left ps [(id, id')],
    h.opens value value' next next' project variant (fun mem => ?_)
      (fun is => ?_) marks marks' warnings warnings', fun _ => ?_⟩
  · rw [lookup_replaced, if_pos rfl, lookup_replaced, if_pos rfl]
    constructor
    · intro here
      rw [← Option.some.inj here] at mem
      exact absurd mem h.tasks.fresh
    · intro there
      have below := h.tasks.idxOf_lt mem
      rw [Option.some.inj there] at below
      exact absurd below (Nat.lt_irrefl _)
  · rw [lookup_replaced, if_pos rfl, lookup_replaced, if_pos rfl, is]
    exact ⟨fun _ => rfl, fun _ => rfl⟩
  · show Except.ok (LedgerAnswer.task m.tasks.size) = _
    rw [← h.opened]
    rfl

theorem addTask (h : Mirror refuses path r ts ws ps l m) (project : String)
    (variant : Option String)
    (room : l.counter + 1 ≤ Sink.largestId.toNat) :
    Echoes refuses path r ts ws ps (.addTask path project variant) l m := by
  obtain ⟨id, value, next, left⟩ :=
    h.left.addTask room path project variant
  obtain ⟨id', value', next', right⟩ :=
    h.right.addTask (Nat.le_trans (Nat.succ_le_succ h.counter) room) path
      project variant
  show Echoed refuses path r ts ws ps _ l
    (LedgerOp.apply.answer .task (l.addTask path project variant l.sink))
    (LedgerOp.apply.answer .task (m.addTask path project variant m.sink))
  rw [left, right]
  have absent {k : Ledger} (sound : Sound k) :
      k.registered? path ≠ some k.tasks.size := by
    intro here
    obtain ⟨task, found, -⟩ := sound.homed path _ here
    rw [Array.getElem?_eq_none (Nat.le_refl _)] at found
    cases found
  refine ⟨_, List.subset_append_left ps [(id, id')],
    h.opens value value' next next' project variant
      (fun mem => (h.reflected mem).registered)
      (fun is => ⟨fun here => absurd (is ▸ here) (absent h.left.sound),
        fun there => absurd there (absent h.right.sound)⟩)
      l.marks m.marks l.warnings m.warnings, fun _ => ?_⟩
  show Except.ok (LedgerAnswer.task m.tasks.size) = _
  rw [← h.opened]
  rfl

-- ================================================================ assembly

/-- Whatever is for the task has its echo. -/
theorem echoes (h : Mirror refuses path r ts ws ps l m)
    (own : op.own path r hired ws l = true)
    (proper : op.proper r ts ws l = true)
    (room : l.counter + op.draws l ≤ Sink.largestId.toNat) :
    Echoes refuses path r ts ws ps op l m := by
  obtain ⟨there, reporter⟩ := Bool.and_eq_true _ _ ▸ proper
  -- what addresses a task addresses this one, which is on record
  have entry {e : Entry} (is : (some e == some (Entry.task r)) = true)
      (there : (some e != some (Entry.task r) || ts.contains r) = true) :
      e = .task r ∧ r ∈ ts := by
    refine ⟨Option.some.inj (eq_of_beq is), ?_⟩
    rcases Bool.or_eq_true _ _ ▸ there with other | mem
    · rw [bne, is] at other
      cases other
    · exact List.contains_iff_mem.mp mem
  cases op with
  | setClock | advance | setWall | allocate | write => cases own
  | startTask p project variant =>
      obtain rfl := eq_of_beq own
      exact h.startTask project variant room
  | addTask p project variant =>
      obtain rfl := eq_of_beq (Bool.and_eq_true _ _ ▸ own).1
      exact h.addTask project variant room
  | finishTask p =>
      obtain rfl := eq_of_beq own
      exact h.finishTask
  | flush => exact h.flush
  | endBuild => exact h.endBuild
  | await e =>
      obtain ⟨rfl, mem⟩ := entry own there
      exact ⟨ps, fun _ mem => mem, h.turned mem .await, fun _ => rfl⟩
  | close e =>
      obtain ⟨rfl, mem⟩ := entry own there
      have echo := h.turned mem (f := Task.close l.now) .close
      refine ⟨ps, fun _ mem => mem, ?_, fun _ => rfl⟩
      show Echo _ _ _ _ _ _ _ _ (m.onTask _ (Task.close m.now))
      rw [h.now]
      exact echo
  | finish e =>
      obtain ⟨rfl, mem⟩ := entry own there
      have echo := h.turned mem (f := Task.finish l.now) .finish
      refine ⟨ps, fun _ mem => mem, ?_, fun _ => rfl⟩
      show Echo _ _ _ _ _ _ _ _ (m.onTask _ (Task.finish m.now))
      rw [h.now]
      exact echo
  | attach e kind thread start length =>
      obtain ⟨rfl, mem⟩ := entry own there
      exact ⟨ps, fun _ mem => mem,
        h.turned mem (.attach kind thread start length), fun _ => rfl⟩
  | conclude e =>
      obtain ⟨rfl, mem⟩ := entry own there
      exact h.conclude mem
  | enlist e key kind =>
      obtain ⟨rfl, mem⟩ := entry own there
      exact h.enlist mem key kind
  | lookUp e key =>
      cases e with
      | untracked => exact h.standIn key
      | task t =>
          obtain ⟨is, mem⟩ := entry own there
          rw [is]
          exact h.lookUp mem key
  | addWorker p kind => exact h.addWorker p kind
  | startWorker w =>
      have echo := h.marked (List.contains_iff_mem.mp own)
        fun k => { k with started := some (l.clockOf k) }
      refine ⟨ps, fun _ mem => mem, ?_, fun _ => rfl⟩
      show Echo _ _ _ _ _ _ _ _ (m.onWorker _ fun k =>
        { k with started := some (m.clockOf k) })
      simp only [h.clockOf]
      exact echo
  | endWorker w =>
      have echo := h.marked (List.contains_iff_mem.mp own)
        fun k => { k with ended := some (l.clockOf k) }
      refine ⟨ps, fun _ mem => mem, ?_, fun _ => rfl⟩
      show Echo _ _ _ _ _ _ _ _ (m.onWorker _ fun k =>
        { k with ended := some (m.clockOf k) })
      simp only [h.clockOf]
      exact echo
  | report e w =>
      obtain ⟨rfl, mem⟩ := entry own there
      refine h.report mem ?_ room
      dsimp only at reporter
      rw [bne_self_eq_false, Bool.false_or, Bool.or_eq_true] at reporter
      exact reporter.imp List.contains_iff_mem.mp of_decide_eq_true

/-- Who enters a crew does so because the task is addressed. -/
theorem entered {t : TaskId} {key : String} (sound : Sound l)
    (known : ∃ task, l.tasks[t]? = some task)
    (new : (key, l.workers.size) ∈ (op.apply l).1.crewAt t) :
    op.entry? = some (.task t) := by
  obtain ⟨task, found⟩ := known
  have absent {k : Worker} (there : l.workers[l.workers.size]? = some k) :
      False := by
    rw [Array.getElem?_eq_none (Nat.le_refl _)] at there
    cases there
  by_contra aside
  cases scheduling : op.scheduling with
  | false =>
      rw [crewAt_of (LedgerOp.task_aside scheduling aside found)] at new
      obtain ⟨k, there⟩ := sound.manned found new
      exact absent there
  | true =>
      obtain ⟨task', found', -⟩ := LedgerOp.task_apply op found
      rw [crewAt_of found'] at new
      obtain ⟨k, there⟩ := (sound.apply op).manned found' new
      have workers : (op.apply l).1.workers = l.workers := by
        cases op with
        | startTask | finishTask | flush | endBuild =>
            exact (LedgerOp.atOnce_apply rfl rfl l).workers
        | _ => cases scheduling
      rw [workers] at there
      exact absent there

/-- A mirror stays one after an operation and its echo. -/
theorem echo (h : Mirror refuses path r ts ws ps l m)
    (own : op.own path r hired ws l = true)
    (proper : op.proper r ts ws l = true)
    (room : l.counter + op.draws l ≤ Sink.largestId.toNat) :
    ∃ qs, ps ⊆ qs
      ∧ Mirror refuses path r
          (grown ts l.tasks.size (op.apply l).1.tasks.size)
          (grown ws l.workers.size (op.apply l).1.workers.size) qs
          (op.apply l).1 ((op.recast ts ws).apply m).1
      ∧ (Compared path r ts op l m →
          ((op.recast ts ws).apply m).2
            = (op.apply l).2.map (LedgerAnswer.recast
                (grown ts l.tasks.size (op.apply l).1.tasks.size)
                (grown ws l.workers.size (op.apply l).1.workers.size))) := by
  obtain ⟨qs, sub, echo, answer⟩ := h.echoes own proper room
  refine ⟨qs, sub, { toLevel := echo.level, left := h.left.apply op
                     right := h.right.apply _, reflected := echo.reflected
                     kept := ?_, strangers := ?_ }, answer⟩
  · intro task found here
    rcases LedgerOp.opened_back found with ⟨old, before, same⟩ | ⟨rfl, -⟩
    · exact List.mem_append_left _
        (h.kept old before (same.path.symm.trans here))
    · have below := (Array.getElem?_eq_some_iff.mp found).1
      exact List.mem_append_right _ (List.mem_range'_1.mpr ⟨Nat.le_refl _,
        by omega⟩)
  · intro t key w ne mem
    have fresh (new : w ∈ List.range' l.workers.size
        ((op.apply l).1.workers.size - l.workers.size)) :
        l.workers.size ≤ w := (List.mem_range'_1.mp new).1
    rcases LedgerOp.member_back mem with old | ⟨rfl, known, -⟩
    · intro here
      rcases List.mem_append.mp here with before | new
      · exact h.strangers ne old before
      · obtain ⟨task, found⟩ := known_of_member old
        rw [crewAt_of found] at old
        obtain ⟨k, there⟩ := h.left.sound.manned found old
        exact absurd (Array.getElem?_eq_some_iff.mp there).1
          (Nat.not_lt_of_le (fresh new))
    · have entry := entered h.left.sound known mem
      rw [LedgerOp.own_of_entry entry] at own
      exact absurd (eq_of_beq own) ne

end Mirror

end Ledger

end TaskLedger
