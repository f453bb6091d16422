/-
A task and its copy do the same.

The one is in a ledger with others, its copy in one with few (`Facing`). The
moves of its lifecycle, what it writes, its workers' reports and what the
scheduler does with it lead from such a pair to such a pair, with the same
answers. A sweep comes to both or to neither, whatever else it comes to: the
lemmas on what it passes by say that its turn is all that matters
(`Facing.flush`, `Facing.endBuild`).
-/
import TaskLedger.Proofs.Ledger.SubLedger

namespace TaskLedger

namespace Ledger

variable {refuses : Nat → SpanRecord → Option Error} {path : String}
  {r r' : TaskId} {ts : List TaskId} {ws : List WorkerId} {ps : Paired}
  {l l' m m' : Ledger}

-- ================================================================== facing

/-- A ledger in which a task was kept, and the other one. -/
structure Facing (refuses : Nat → SpanRecord → Option Error)
    (path : String) (r r' : TaskId) (ts : List TaskId) (ws : List WorkerId)
    (ps : Paired) (l m : Ledger) : Prop
    extends Level ts ws ps l m, Reflected refuses path r r' ws ps l m where
  left : Fit refuses l
  right : Fit refuses m

namespace Facing

theorem swift (h : Facing refuses path r r' ts ws ps l m)
    (left : Swift l l') (right : Swift m m')
    (reflected : Reflected refuses path r r' ws ps l' m') :
    Facing refuses path r r' ts ws ps l' m' :=
  { h.toLevel.still left.still right.still, reflected with
    left :=
      let ⟨_, settles⟩ := left.settles
      fit_kept.settles (b := 0) settles h.left
    right :=
      let ⟨_, settles⟩ := right.settles
      fit_kept.settles (b := 0) settles h.right }

/-- What the scheduler does for others. -/
theorem passed (h : Facing refuses path r r' ts ws ps l m)
    (left : Passed path r l l') (right : Passed path r' m m') :
    Facing refuses path r r' ts ws ps l' m' :=
  h.swift left.toSwift right.toSwift
    (h.toReflected.apart left.toApart right.toApart)

/-- What neither the tasks nor the workers look at, on either side. -/
theorem aside (h : Facing refuses path r r' ts ws ps l m)
    (marks marks' : List Mark) (warnings warnings' : List Warning)
    {registry registry' : List (String × TaskId)}
    (registered : registry.lookup path = some r
      ↔ registry'.lookup path = some r') :
    Facing refuses path r r' ts ws ps { l with marks, warnings, registry }
      { m with
        marks := marks', warnings := warnings', registry := registry' } where
  toLevel := ⟨h.now, h.wall, h.tasks, h.workers, h.rising, h.below, h.counter⟩
  toReflected := ⟨h.task, h.lines, registered⟩
  left := ⟨h.left.sink, h.left.home, h.left.known⟩
  right := ⟨h.right.sink, h.right.home, h.right.known⟩

/-- What an observer is told. -/
theorem told (h : Facing refuses path r r' ts ws ps l m)
    (marks marks' : List Mark) (warnings warnings' : List Warning) :
    Facing refuses path r r' ts ws ps { l with marks, warnings }
      { m with marks := marks', warnings := warnings' } :=
  h.aside marks marks' warnings warnings' h.registered

/-- The next move of its lifecycle. -/
theorem turned (h : Facing refuses path r r' ts ws ps l m)
    {f : Task → Task} (turn : Task.Turn l.now f) :
    Facing refuses path r r' ts ws ps (l.onTask r f) (m.onTask r' f) := by
  have quiet {k : Ledger} {t : TaskId} (turn : Task.Turn k.now f) :
      Swift k (k.onTask t f) :=
    { now := rfl, wall := rfl, workers := rfl
      settles := ⟨0, settles_onTask t turn⟩ }
  refine h.swift (quiet turn) (quiet (h.now ▸ turn)) ?_
  refine h.toReflected.step (f := f) (g := f) (v := []) (w := []) rfl rfl
    (fun a b _ _ twin => ⟨(turn.same a).path, twin.turn turn⟩)
    (fun _ mem => mem) ?_ ?_ .nil rfl rfl
  · rw [List.append_nil]
    rfl
  · rw [List.append_nil]
    rfl

/-- Its span is written in both, or was. -/
theorem conclude (h : Facing refuses path r r' ts ws ps l m) :
    Facing refuses path r r' ts ws ps (l.conclude r).1 (m.conclude r').1
      ∧ (m.conclude r').2 = (l.conclude r).2 := by
  have left : Swift l (l.conclude r).1 :=
    { atOnce_conclude r l with settles := ⟨_, settles_conclude r l⟩ }
  have right : Swift m (m.conclude r').1 :=
    { atOnce_conclude r' m with settles := ⟨_, settles_conclude r' m⟩ }
  obtain ⟨a, b, found, found', own, twin⟩ := h.task
  cases terminal : a.status.terminal with
  | true =>
      -- what is over stays as it is on both sides
      rw [conclude_of_terminal found terminal,
        conclude_of_terminal found' (by rw [twin.status, terminal])]
      exact ⟨h, rfl⟩
  | false =>
      -- each side writes one line, with the record of its own copy
      obtain ⟨tree, warnings, he⟩ := conclude_of_open found terminal
      obtain ⟨tree', warnings', he'⟩ :=
        conclude_of_open found' (by rw [twin.status, terminal])
      obtain ⟨n, note⟩ := h.left.noted found (.task r)
        (a.record (a.span (l.crewOf a)) a.children)
      obtain ⟨n', note'⟩ := h.right.noted found' (.task r')
        (b.record (b.span (m.crewOf b)) b.children)
      rw [he] at left ⊢
      rw [he'] at right ⊢
      refine ⟨h.swift left right ?_, rfl⟩
      refine h.toReflected.step (f := Task.concluded) (g := Task.concluded)
        rfl rfl (fun _ _ _ _ twin => ⟨rfl, twin.concluded⟩) (fun _ mem => mem)
        (linesAbout_own rfl fun _ mem => notes_about mem)
        (linesAbout_own rfl fun _ mem => notes_about mem) ?_ rfl rfl
      rw [note, note', h.crewOf twin]
      exact .cons ⟨twin.record _, ⟨n, rfl⟩, ⟨n', rfl⟩⟩ .nil

-- ================================================================= workers

/-- A worker enters its crew. -/
theorem enlist (h : Facing refuses path r r' ts ws ps l m) (key : String)
    (kind : SpanKind) :
    Facing refuses path r r' ts (ws ++ [l.workers.size]) ps
      (l.enlist r key kind) (m.enlist r' key kind) := by
  obtain ⟨a, b, found, found', -, twin⟩ := h.task
  have left := fit_kept.change₀ (b := 0) h.left (.enlisted key kind found)
  have right := fit_kept.change₀ (b := 0) h.right (.enlisted key kind found')
  have same : ({ path := b.path, kind, created := m.now } : Worker)
      = { path := a.path, kind, created := l.now } := by
    rw [twin.path, h.now]
  rw [enlist_of_found found, enlist_of_found found']
  refine { toLevel := ?_, toReflected := ?_, left := left, right := right }
  · rw [same]
    exact h.hired _ Array.size_modify Array.size_modify
  · refine h.toReflected.step (f := Task.enlist key l.workers.size)
      (g := Task.enlist key m.workers.size) (v := []) (w := []) rfl rfl
      (fun a b _ _ twin => ⟨rfl, ?_⟩) (fun _ mem => mem) ?_ ?_ .nil rfl rfl
    · rw [h.workers.size]
      exact twin.enlist key h.workers.fresh
    · rw [List.append_nil]
      rfl
    · rw [List.append_nil]
      rfl

/-- A worker reports to it. Both take a number for that. -/
theorem report (h : Facing refuses path r r' ts ws ps l m) {w : WorkerId}
    (mem : w ∈ ws) (room : l.counter + 1 ≤ Sink.largestId.toNat) :
    ∃ qs, ps ⊆ qs
      ∧ Facing refuses path r r' ts ws qs (l.report r w).1
          (m.report r' (ws.idxOf w)).1
      ∧ (m.report r' (ws.idxOf w)).2 = (l.report r w).2 := by
  obtain ⟨a, b, found, found', -, twin⟩ := h.task
  obtain ⟨k, _, present, present', rfl⟩ := h.workers.copy mem
  obtain ⟨id, n, tree, warnings, value, next, he⟩ :=
    h.left.report found present room
  obtain ⟨id', n', tree', warnings', value', next', he'⟩ :=
    h.right.report found' present'
      (Nat.le_trans (Nat.succ_le_succ h.counter) room)
  have left := fit_kept.report (b := 0) (t := r) (w := w) h.left
  have right := fit_kept.report (b := 0) (t := r') (w := ws.idxOf w) h.right
  have sub : ps ⊆ ps ++ [(id, id')] := List.subset_append_left _ _
  have new : (id, id') ∈ ps ++ [(id, id')] :=
    List.mem_append_right ps (List.mem_singleton_self _)
  rw [he] at left
  rw [he'] at right
  refine ⟨_, sub, ?_, by rw [he, he']⟩
  rw [he, he']
  refine { toLevel := ?_, toReflected := ?_, left := left, right := right }
  -- the number that each gave is a new pair
  · have numbered := h.numbered value value' next next'
    refine ⟨numbered.now, numbered.wall, ?_, numbered.workers,
      numbered.rising, numbered.below, numbered.counter⟩
    rw [Array.size_modify, Array.size_modify]
    exact numbered.tasks
  -- and both copies note the report under it
  · refine h.toReflected.step (f := Task.noteReport l.now (l.idle a))
      (g := Task.noteReport m.now (m.idle b)) rfl rfl
      (fun _ _ _ _ twin₁ => ⟨?_, ?_⟩) sub
      (linesAbout_own rfl fun line mem => ?_)
      (linesAbout_own rfl fun line mem => ?_)
      (.cons ⟨(twin.mono sub).report k new, ⟨n, rfl⟩, ⟨n', rfl⟩⟩ .nil) rfl rfl
    · unfold Task.noteReport
      split <;> rfl
    · rw [h.now, h.idle twin]
      exact (twin₁.noteReport _).mono sub
    · rw [List.mem_singleton.mp mem]
      rfl
    · rw [List.mem_singleton.mp mem]
      rfl

-- =============================================================== scheduler

/-- A mark is nobody's business. -/
theorem markLength_told (t : TaskId) (l : Ledger) :
    ∃ marks, l.markLength t = { l with marks } := by
  unfold markLength
  split
  · exact ⟨_, rfl⟩
  · exact ⟨_, rfl⟩

theorem concludeAndMark (h : Facing refuses path r r' ts ws ps l m) :
    Facing refuses path r r' ts ws ps (l.concludeAndMark r).1
        (m.concludeAndMark r').1
      ∧ (m.concludeAndMark r').2 = (l.concludeAndMark r).2 := by
  obtain ⟨facing, same⟩ := h.conclude
  unfold Ledger.concludeAndMark
  generalize l.conclude r = x at facing same
  generalize m.conclude r' = y at facing same
  obtain ⟨l₁, wrote⟩ := x
  obtain ⟨m₁, wrote'⟩ := y
  dsimp only at facing same
  subst same
  cases wrote' with
  | false => exact ⟨facing, rfl⟩
  | true =>
      obtain ⟨marks, he⟩ := markLength_told r l₁
      obtain ⟨marks', he'⟩ := markLength_told r' m₁
      dsimp only
      rw [he, he']
      exact ⟨facing.told marks marks' l₁.warnings m₁.warnings, rfl⟩

/-- Its path is settled in both. -/
theorem settle (h : Facing refuses path r r' ts ws ps l m)
    (here : l.registered? path = some r) :
    Facing refuses path r r' ts ws ps (l.settle path).1 (m.settle path).1
      ∧ (m.settle path).2 = (l.settle path).2 := by
  have out : Facing refuses path r r' ts ws ps (l.unregister path)
      (m.unregister path) := by
    refine h.aside l.marks m.marks l.warnings m.warnings ?_
    rw [lookup_without, if_pos rfl, lookup_without, if_pos rfl]
    exact ⟨fun none => (by cases none), fun none => (by cases none)⟩
  unfold Ledger.settle
  rw [here, h.registered.mp here]
  exact out.concludeAndMark

theorem finish (h : Facing refuses path r r' ts ws ps l m) :
    Facing refuses path r r' ts ws ps (l.finish r) (m.finish r') := by
  have turned := h.turned (f := Task.finish l.now) .finish
  unfold Ledger.finish
  rwa [← h.now] at turned ⊢

/-- The scheduler is done with it. -/
theorem finishTask (h : Facing refuses path r r' ts ws ps l m)
    (here : l.registered? path = some r) :
    Facing refuses path r r' ts ws ps (l.finishTask path).1
        (m.finishTask path).1
      ∧ (m.finishTask path).2 = (l.finishTask path).2 := by
  have done := h.finish
  obtain ⟨a, b, found, found', -, twin⟩ := done.task
  unfold Ledger.finishTask
  rw [here, h.registered.mp here]
  dsimp only
  rw [found, found']
  dsimp only
  rw [done.idle twin]
  split
  · exact done.settle here
  · exact ⟨done, rfl⟩

/-- The build ended. -/
theorem wrapUp (h : Facing refuses path r r' ts ws ps l m) :
    Facing refuses path r r' ts ws ps (l.wrapUp r).1 (m.wrapUp r').1 := by
  obtain ⟨a, b, found, found', -, twin⟩ := h.task
  unfold Ledger.wrapUp
  rw [found, found']
  dsimp only
  rw [h.idle twin]
  split
  · exact h.finish.concludeAndMark.1
  · exact (h.told l.marks m.marks _ _).finish.concludeAndMark.1

theorem ready (h : Facing refuses path r r' ts ws ps l m) :
    m.ready r' = l.ready r := by
  obtain ⟨a, b, found, found', -, twin⟩ := h.task
  rw [ready_of found, ready_of found', twin.status, h.idle twin]

/-- Both are registered under their path, or under none. -/
theorem nowhere (h : Facing refuses path r r' ts ws ps l m)
    (homed : Homed l) (homed' : Homed m)
    (other : l.registered? path ≠ some r) :
    (∀ q, l.registered? q ≠ some r) ∧ ∀ q, m.registered? q ≠ some r' := by
  obtain ⟨a, b, found, found', own, twin⟩ := h.task
  refine ⟨fun q here => ?_, fun q here => ?_⟩
  · obtain ⟨task, same, there⟩ := homed q r here
    rw [found] at same
    obtain rfl := Option.some.inj same
    exact other (own.symm.trans there ▸ here)
  · obtain ⟨task, same, there⟩ := homed' q r' here
    rw [found'] at same
    obtain rfl := Option.some.inj same
    refine other (h.registered.mpr ?_)
    rw [← own, ← twin.path, there]
    exact here

/-- A flush comes to both or to neither. -/
theorem flush (h : Facing refuses path r r' ts ws ps l m)
    (homed : Homed l) (homed' : Homed m) (single : Single l)
    (single' : Single m) :
    Facing refuses path r r' ts ws ps l.flush.1 m.flush.1 := by
  by_cases here : l.registered? path = some r
  · cases ready : l.ready r with
    | false =>
        exact h.passed (passed_flush single fun _ _ => ready)
          (passed_flush single' fun _ _ => h.ready.trans ready)
    | true =>
        obtain ⟨l₁, first, last⟩ := flush_parts homed here ready
        obtain ⟨m₁, first', last'⟩ := flush_parts homed'
          (h.registered.mp here) (h.ready.trans ready)
        have thus := h.passed first first'
        exact (thus.settle (first.registered.mpr here)).1.passed last last'
  · obtain ⟨nowhere, nowhere'⟩ := h.nowhere homed homed' here
    exact h.passed (passed_flush single fun q there => absurd there (nowhere q))
      (passed_flush single' fun q there => absurd there (nowhere' q))

/-- So does the end of the build. -/
theorem endBuild (h : Facing refuses path r r' ts ws ps l m)
    (homed : Homed l) (homed' : Homed m) (single : Single l)
    (single' : Single m) :
    Facing refuses path r r' ts ws ps l.endBuild.1 m.endBuild.1 := by
  by_cases here : l.registered? path = some r
  · obtain ⟨a, b, found, found', -⟩ := h.task
    obtain ⟨l₁, first, last⟩ := endBuild_parts ⟨a, found⟩ here
    obtain ⟨m₁, first', last'⟩ := endBuild_parts ⟨b, found'⟩
      (h.registered.mp here)
    have emptied : Facing refuses path r r' ts ws ps { l with registry := [] }
        { m with registry := [] } :=
      h.aside l.marks m.marks l.warnings m.warnings
        ⟨fun none => (by cases none), fun none => (by cases none)⟩
    exact (emptied.passed first first').wrapUp.passed last last'
  · obtain ⟨nowhere, nowhere'⟩ := h.nowhere homed homed' here
    exact h.passed (passed_endBuild single nowhere)
      (passed_endBuild single' nowhere')

end Facing

end Ledger

end TaskLedger
