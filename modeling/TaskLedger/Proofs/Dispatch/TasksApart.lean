/-
Tasks that share a dispatch do not interfere.

A dispatch on which nothing is on record is a mirror of itself
(`Blank.mirror`). What is for a task has its echo in the run that has only what
is for it, and of the rest only the time counts there, so the two runs stay
mirrors of each other to their ends (`mirror_run`). What a mirror shows of the
task is then what is known of it in both (`tasks_apart`).

Two things are left out (`others_show`). A path is reported as done for whoever
was last to start there. That may be a later task, and neither its workers nor
what it did by itself are there when the run is repeated; nor are the workers of
others that report to the task. Who was last to start is the same in both runs
(`rivals_again`), so this is left out only where it was another one.
-/
import TaskLedger.Proofs.Dispatch.Echo
import TaskLedger.Proofs.Dispatch.Rivals
import TaskLedger.Session.View

namespace TaskLedger

deriving instance DecidableEq for DispatchAnswer

/-- Whether a sink refuses a record is told by what is in it, whatever its
numbers are and whatever came before. -/
def Sink.Steady (refuses : Nat → SpanRecord → Option Error) : Prop :=
  ∀ (i j : Nat) (f : SpanId → SpanId) (r : SpanRecord),
    refuses i (r.renumber f) = refuses j r

namespace Dispatch

variable {refuses : Nat → SpanRecord → Option Error} {path : String}
  {r : TaskId} {hired : List WorkerId} {c : Cast} {ps : Paired}
  {d e : Dispatch}

-- =================================================================== start

/-- Where nothing is on record, the ledger has one sink and everything in it is
in order. -/
theorem Blank.orderly (h : d.Blank) (registry : d.ledger.registry = [])
    {k : Sink} (sink : d.ledger.sinks[d.ledger.sink]? = some k) :
    Ledger.Orderly k.refuses d.ledger :=
  have blank : d.ledger.Blank := ⟨h.tasks, h.workers, h.journal, registry⟩
  { sink := ⟨k, sink, rfl⟩
    home := by
      intro t task found
      rw [h.tasks] at found
      cases found
    known := by
      intro line mem
      rw [h.journal] at mem
      cases mem
    sound := blank.sound
    single := blank.single }

/-- Nothing of an empty table was kept. -/
theorem copied_nil {α β : Type} {R : α → β → Prop} {table : Array α}
    {table' : Array β} (empty : table' = #[]) : Copied R [] table table' where
  nodup := List.nodup_nil
  below := fun i mem => by cases mem
  size := by rw [empty]; rfl
  copy := fun mem => by cases mem

/-- Before anything happens, a dispatch is a mirror of itself. -/
theorem Blank.mirror (h : d.Blank) (registry : d.ledger.registry = [])
    {k : Sink} (sink : d.ledger.sinks[d.ledger.sink]? = some k) :
    Mirror k.refuses path r {} [] d d where
  ledger := {
    now := rfl
    wall := rfl
    tasks := (copied_nil (R := Eq) h.tasks).toPlaces
    workers := copied_nil h.workers
    rising := List.Pairwise.nil
    below := fun x mem => by cases mem
    counter := Nat.le_refl _
    left := h.orderly registry sink
    right := h.orderly registry sink
    reflected := fun mem => by cases mem
    kept := by
      intro task found
      rw [h.tasks] at found
      cases found
    strangers := by
      intro t key w _ mem other
      cases other }
  stopped := rfl
  executors := copied_nil h.executors
  units := copied_nil h.units
  others := by
    intro x p found
    rw [h.pooled?] at found
    cases found
  strange := by
    intro u s found
    rw [h.units] at found
    cases found

end Dispatch

namespace DispatchOp

open Dispatch

variable {refuses : Nat → SpanRecord → Option Error} {path : String}
  {r : TaskId} {hired : List WorkerId} {c : Cast} {ps : Paired}
  {d e : Dispatch}

-- ==================================================================== runs

/-- What of a run is there again at its end. -/
def cast (path : String) (r : TaskId) (hired : List WorkerId) :
    List DispatchOp → Cast → Dispatch → Cast
  | [], c, _ => c
  | op :: rest, c, d =>
      cast path r hired rest (op.casting path r hired c d) (op.apply d).1

/-- A run answers in one part and then in the other. -/
theorem answers_append (ops more : List DispatchOp) (d : Dispatch) :
    (run (ops ++ more) d).2
      = (run ops d).2 ++ (run more (run ops d).1).2 := by
  induction ops generalizing d with
  | nil => rfl
  | cons op rest ih => exact congrArg _ (ih (op.apply d).1)

/-- What came of something that happened again is what was listed with it, if
anything was. -/
def Answers (x : DispatchOp × Option (Except Fault DispatchAnswer))
    (a : Except Fault DispatchAnswer) : Prop :=
  ∀ b, x.2 = some b → a = b

/-- Nothing is listed with what others take of the time. -/
theorem answers_idle (ops : List LedgerOp) (e : Dispatch) :
    List.Forall₂ Answers (ops.map fun o => (onLedger o, none))
      (run (ops.map .onLedger) e).2 := by
  induction ops generalizing e with
  | nil => exact .nil
  | cons o rest ih => exact .cons (fun b listed => by cases listed) (ih _)

-- =================================================================== again

/-- What happens again for one thing that happened leaves the mirror a mirror,
and the same comes of it. -/
theorem mirror_again (h : Mirror refuses path r c ps d e)
    {last : Option TaskId}
    (rivals : Ledger.Rivals path c.tasks last d.ledger e.ledger)
    (hired : List WorkerId) {op : DispatchOp}
    (proper : op.proper r c d = true) :
    let again := op.again path r hired c last d
    ∃ qs, ps ⊆ qs
      ∧ Mirror refuses path r (op.casting path r hired c d) qs (op.apply d).1
          (run (again.map Prod.fst) e).1
      ∧ List.Forall₂ Answers again (run (again.map Prod.fst) e).2 := by
  dsimp only
  unfold casting again
  by_cases own : op.own path r hired c d = true
  · rw [if_pos own, if_pos own]
    obtain ⟨qs, sub, mirror, answer⟩ := h.echo own proper
    refine ⟨qs, sub, mirror, .cons (fun b listed => ?_) .nil⟩
    dsimp only at listed
    split at listed
    · next compared =>
        cases listed
        exact answer last rivals compared
    · cases listed
  · rw [if_neg own, if_neg own]
    have room := of_decide_eq_true (Bool.and_eq_true _ _ ▸ proper).2
    rw [List.map_map]
    exact ⟨ps, fun _ mem => mem,
      h.bystander (Bool.eq_false_iff.mpr own) room, answers_idle _ e⟩

/-- A run and the run that has only what is for the task stay mirrors of each
other. The induction is on the run, and what it goes over is either for the
task, where the other run takes a step too, or not, where it takes none. -/
theorem mirror_run {ops : List DispatchOp}
    (h : Mirror refuses path r c ps d e) {last : Option TaskId}
    (rivals : Ledger.Rivals path c.tasks last d.ledger e.ledger)
    (proper : Proper path r hired ops c d = true) :
    let again := replay path r hired ops c last d
    ∃ qs, Mirror refuses path r (cast path r hired ops c d) qs (run ops d).1
          (run (again.map Prod.fst) e).1
      ∧ List.Forall₂ Answers again (run (again.map Prod.fst) e).2 := by
  dsimp only
  induction ops generalizing c ps d e last with
  | nil => exact ⟨ps, h, .nil⟩
  | cons op rest ih =>
      obtain ⟨first, later⟩ := Bool.and_eq_true _ _ ▸ proper
      obtain ⟨qs, -, mirror, answers⟩ := mirror_again h rivals hired first
      obtain ⟨ss, final, more⟩ :=
        ih mirror (rivals_again h rivals hired first) later
      refine ⟨ss, ?_, ?_⟩
      · unfold replay
        rw [List.map_append, run_append]
        exact final
      · unfold replay
        rw [List.map_append, answers_append]
        exact List.rel_append answers more

-- ============================================================ what is shown

/-- The numbers that the lines about a task show. -/
def shown (r : TaskId) (l : Ledger) : List SpanId :=
  (l.linesAbout r).flatMap fun line => line.record.numbers

/-- What is written for the copy of a task is what is written for the task, with
the numbers that stand for its own, and they are in the same order. -/
theorem lines_renumbered {r' : TaskId} {l m : Ledger}
    (lines : List.Forall₂ (Write.Twin refuses ps) (l.linesAbout r)
      (m.linesAbout r')) (rising : ps.Rising) :
    (m.linesAbout r').map Write.record
        = (l.linesAbout r).map (fun line => line.record.renumber ps.image)
      ∧ (∀ a ∈ shown r l, ∀ b ∈ shown r l, a < b → ps.image a < ps.image b)
      ∧ (Sink.Steady refuses → (m.linesAbout r').map Write.refused
          = (l.linesAbout r).map Write.refused) := by
  have paired : ∀ a ∈ shown r l, ∃ b, (a, b) ∈ ps := by
    unfold shown
    generalize l.linesAbout r = vs, m.linesAbout r' = ws at lines
    induction lines with
    | nil => intro a mem; cases mem
    | cons twin _ ih =>
        intro a mem
        rcases List.mem_append.mp (List.flatMap_cons ▸ mem) with here | later
        · exact (twin.record.renumber rising).2 a here
        · exact ih a later
  refine ⟨?_, fun a mem b mem' less => ?_, fun steady => ?_⟩
  · generalize l.linesAbout r = vs, m.linesAbout r' = ws at lines
    induction lines with
    | nil => rfl
    | cons twin _ ih =>
        rw [List.map_cons, List.map_cons, ih,
          (twin.record.renumber rising).1]
  · obtain ⟨a', here⟩ := paired a mem
    obtain ⟨b', there⟩ := paired b mem'
    rw [Paired.image_of_mem rising here, Paired.image_of_mem rising there]
    exact Paired.lt_of_lt rising here there less
  · generalize l.linesAbout r = vs, m.linesAbout r' = ws at lines
    induction lines with
    | nil => rfl
    | cons twin _ ih =>
        obtain ⟨i, refused⟩ := twin.refused
        obtain ⟨j, refused'⟩ := twin.refused'
        rw [List.map_cons, List.map_cons, ih, refused, refused',
          (twin.record.renumber rising).1, steady j i]

/-- From a dispatch on which nothing is on record, let any history of tasks,
units and a scheduler go on in which only workers of its own, or of nobody,
report to a task and the numbers do not run out. Let then only the clock go on
as it did, the scheduler do what it does for all, and happen again what was for
that task. Then the same comes of all that happens again, except that its path
may be reported as done when another task was the last to start there. The task
is left in the same state, with the same workers and durations, and the same is
written for it in the same order, but for the numbers, whose order is kept. -/
theorem tasks_apart (ops : List DispatchOp) (d : Dispatch) (path : String)
    (r : TaskId) (hired : List WorkerId) (k : Sink) (blank : d.Blank)
    (registry : d.ledger.registry = [])
    (sink : d.ledger.sinks[d.ledger.sink]? = some k)
    (proper : Proper path r hired ops {} d = true) :
    let again := replay path r hired ops {} none d
    let m := (run ops d).1.ledger
    let n := (run (again.map Prod.fst) d).1.ledger
    let r' := (cast path r hired ops {} d).tasks.idxOf r
    List.Forall₂ Answers again (run (again.map Prod.fst) d).2
      ∧ ∀ a, m.tasks[r]? = some a → a.path = path →
          ∃ b f, n.tasks[r']? = some b
            ∧ Session.viewTask n b = Session.viewTask m a
            ∧ b.crew.map Prod.fst = a.crew.map Prod.fst
            ∧ n.crewOf b = m.crewOf a
            ∧ (n.linesAbout r').map Write.record
              = (m.linesAbout r).map (fun line => line.record.renumber f)
            ∧ (∀ i ∈ shown r m, ∀ j ∈ shown r m, i < j → f i < f j)
            ∧ (Sink.Steady k.refuses → (n.linesAbout r').map Write.refused
                = (m.linesAbout r).map Write.refused) := by
  intro again m n r'
  have nobody : Ledger.Latest path none d.ledger := by
    intro t here
    unfold Ledger.registered? at here
    rw [registry] at here
    cases here
  -- nothing is on record, so the run starts as a mirror of itself
  obtain ⟨qs, mirror, answers⟩ := mirror_run (blank.mirror registry sink)
    ⟨nobody, nobody, fun t is => by cases is⟩ proper
  refine ⟨answers, fun a found own => ?_⟩
  have kept := mirror.ledger.kept a found own
  obtain ⟨task, lines, -⟩ := mirror.ledger.reflected kept
  obtain ⟨a', b, found', copy, -, twin⟩ := task
  obtain rfl : a' = a := Option.some.inj (found'.symm.trans found)
  have crew : n.crewOf b = m.crewOf a' := mirror.ledger.crewOf twin
  refine ⟨b, qs.image, copy, ?_, ?_, crew,
    lines_renumbered lines mirror.ledger.rising⟩
  · unfold Session.viewTask
    dsimp only
    rw [crew, twin.status, twin.ended, twin.closed, twin.duration, twin.crew,
      List.length_map]
  · rw [twin.crew, List.map_map]
    rfl

/-- Two tasks have their units run in turn, and each ends in its own time. The
second one alone has smaller numbers, and the same to show. -/
theorem tasks_apart_interleaved :
    let d : Dispatch := { ledger := { sinks := #[{ outlet := .memory }] } }
    let ops : List DispatchOp :=
      [.onLedger (.startTask ":b" ":app" none),
        .onLedger (.startTask ":a" ":app" none),
        .addExecutor (.pooled { owner := ":b", entry := .task 0 }),
        .addExecutor (.pooled { owner := ":a", entry := .task 1 }),
        .submit 0 { action := "B", hash := 0, script := { ms := 5 } },
        .submit 1 { action := "A", hash := 0, script := { ms := 7 } }]
        ++ [0, 1, 0, 1, 0, 1, 0, 1, 0, 1].map .proceed
        ++ [.release 1, .onLedger (.finishTask ":a"), .release 0,
          .onLedger (.finishTask ":b")]
    let again := replay ":a" 1 [] ops {} none d
    let m := (run ops d).1.ledger
    let n := (run (again.map Prod.fst) d).1.ledger
    let r' := (cast ":a" 1 [] ops {} d).tasks.idxOf 1
    again.length = 11 ∧ r' = 0
      ∧ (m.linesAbout 1).map (fun line => line.record.span.id)
        = [some 4, some 2]
      ∧ ∃ f, (n.linesAbout r').map Write.record
          = (m.linesAbout 1).map (fun line => line.record.renumber f)
        ∧ f 2 < f 4 := by
  intro d ops again m n r'
  obtain ⟨-, same⟩ := tasks_apart ops d ":a" 1 [] _
    ⟨rfl, rfl, rfl, rfl, rfl, rfl⟩ rfl rfl (by decide +kernel)
  have own : ((run ops d).1.ledger.tasks[1]?).map Task.path = some ":a" := by
    decide +kernel
  obtain ⟨a, found, path⟩ := Option.map_eq_some_iff.mp own
  obtain ⟨b, f, -, -, -, -, records, rising, -⟩ := same a found path
  have shows : 2 ∈ shown 1 m ∧ 4 ∈ shown 1 m := by decide +kernel
  refine ⟨by decide +kernel, by decide +kernel, by decide +kernel, f, ?_,
    rising 2 shows.1 4 shows.2 (by decide)⟩
  dsimp only [m, n, again, r']
  exact records

/-- Three ways in which another task shows. A path is started twice, and a
worker is there for the second task; the path is then reported as done, the
second task is not idle, and nothing is written for it. Where only what is for
the first task happens again, the second one has no worker, and its span is
written. Or the second task is finished by itself and written by a sweep, and
nobody is registered when the path is reported as done; where it is not finished
by itself, no sweep takes it, and it is written then. And a worker of another
task that reports is not there at all when only what is for the task happens
again, so nothing is written for it then. -/
theorem others_show :
    let d : Dispatch := { ledger := { sinks := #[{ outlet := .memory }] } }
    let again (ops : List DispatchOp) :=
      (replay ":a" 0 [] ops {} none d).map Prod.fst
    let twice : List DispatchOp :=
      [.onLedger (.startTask ":a" ":app" none),
        .onLedger (.startTask ":a" ":app" none)]
    let busy := twice ++ [.onLedger (.enlist (.task 1) "k" .worker),
      .onLedger (.finishTask ":a")]
    let swept := twice ++ [.onLedger (.finish (.task 1)), .onLedger .flush,
      .onLedger (.finishTask ":a")]
    let lent : List DispatchOp :=
      [.onLedger (.startTask ":a" ":app" none),
        .onLedger (.startTask ":b" ":app" none),
        .onLedger (.enlist (.task 1) "k" .worker),
        .onLedger (.report (.task 0) 0)]
    (again busy = twice ++ [.onLedger (.finishTask ":a")]
      ∧ (run busy d).2.getLast? = some (.ok (.ofLedger (.yes false)))
      ∧ (run (again busy) d).2.getLast? = some (.ok (.ofLedger (.yes true))))
    ∧ (again swept
          = twice ++ [.onLedger .flush, .onLedger (.finishTask ":a")]
      ∧ (run swept d).2.getLast? = some (.ok (.ofLedger (.yes false)))
      ∧ (run (again swept) d).2.getLast?
        = some (.ok (.ofLedger (.yes true))))
    ∧ again lent = [.onLedger (.startTask ":a" ":app" none),
        .onLedger (.report (.task 0) 0)]
      ∧ ((run lent d).1.ledger.linesAbout 0).length = 1
      ∧ (run (again lent) d).1.ledger.linesAbout 0 = [] := by
  decide +kernel

end DispatchOp

end TaskLedger
