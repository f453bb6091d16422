/-
A step that stops midway does no harm.

Whatever the step was, and wherever it stopped, the records, the workers,
the registry and what the sink holds are as they were before it. A number
is asked for before anything is put on record, so of the ledger only a
counter that was full can be told from what it was (`LedgerOp.halted`).

The clock is the one exception, and only to one sort of step: a unit that a
direct executor runs can itself move the clock before it panics, and the
clock stays there. That unit has also been run, which is answered at once
and makes no difference to anything later (`run_behind`).
-/
import TaskLedger.Proofs.Dispatch.Bystander
import TaskLedger.Proofs.Ledger.Halted
import TaskLedger.Proofs.Session.PriorRuns

namespace TaskLedger

-- ============================================================ executors

/-- To hand a unit to an executor can only stop midway where a direct
executor runs it. -/
theorem Dispatch.submit_halts {d : Dispatch} {x : ExecutorId} {w : Work}
    {f : Fault} (stopped : (d.submit x w).2 = .error f) :
    (∃ owner, d.executors[x]? = some (.direct owner))
      ∧ (d.submit x w).1 = (d.perform w).1 := by
  unfold Dispatch.submit at stopped ⊢
  cases found : d.executors[x]? with
  | none =>
      rw [found] at stopped
      cases stopped
  | some e =>
      rw [found] at stopped
      cases e with
      | pooled p => cases stopped
      | direct owner =>
          refine ⟨⟨owner, rfl⟩, ?_⟩
          dsimp only at stopped ⊢
          split at stopped
          · next h => rw [h]
          · cases stopped
          · cases stopped

namespace Session

-- =============================================================== answers

/-- The fault that an answer reports. -/
def Answer.fault? : Answer → Option Fault
  | .fault f => some f
  | .submitted (.error f) _ _ => some f
  | _ => none

/-- A name stands for a direct executor. -/
def Direct (s : Session) (name : Handle) : Prop :=
  ∃ x kind owner, s.executors.lookup name = some (x, kind)
    ∧ s.dispatch.executors[x]? = some (.direct owner)

/-- No answer reports a fault. -/
def Answers (h : Session → Session × Answer) : Prop :=
  ∀ s, (h s).2.fault? = none

/-- If the answer is a fault, nothing happened but that a counter started
over. -/
def Halts (h : Session → Session × Answer) : Prop :=
  ∀ s f, (h s).2.fault? = some f →
    ∃ l, Ledger.Halted s.ledger l ∧ (h s).1 = s.withLedger l

variable {h : Session → Session × Answer} {op : LedgerOp}
  {reply : Session → LedgerAnswer → Session × Answer}

-- ================================================================= parts

/-- What never answers a fault halts in no way. -/
theorem Answers.halts (answers : Answers h) : Halts h := by
  intro s f stopped
  rw [answers s] at stopped
  cases stopped

/-- What a target has become is told without a fault. -/
theorem after_answers (s : Session) (target : Target) (wrote : Option Bool) :
    (s.after target wrote).fault? = none := by
  cases target with
  | record name =>
      dsimp only [after]
      split <;> rfl
  | entry name =>
      dsimp only [after]
      split <;> rfl

theorem viewWorker_answers (w : WorkerId) (s : Session) :
    (s.viewWorker w).fault? = none := by
  unfold viewWorker
  split <;> rfl

/-- To name a task is answered without a fault. -/
theorem nameTask_answers {name : Handle} {s : Session} {a : LedgerAnswer} :
    (s.nameTask name a).2.fault? = none := by
  cases a with
  | task t =>
      dsimp only [nameTask]
      split <;> rfl
  | _ => rfl

theorem nameWorker_answers {name : Handle} {s : Session} {a : LedgerAnswer} :
    (s.nameWorker name a).2.fault? = none := by
  cases a with
  | worker w => exact viewWorker_answers w _
  | _ => rfl

/-- So is what an executor looks like. -/
theorem describe_answers (x : ExecutorId) (kind : ExecutorKind)
    (s : Session) : (s.describe x kind).fault? = none := by
  unfold describe
  split <;> rfl

/-- And so is what a sink holds. -/
theorem held_answers (asLines : Bool) (s : Session) :
    (s.held asLines).fault? = none := by
  unfold held
  split <;> rfl

/-- A step that carries out an operation halts with it, if what it makes of the
answer is no fault. -/
theorem Halts.perform (answers : ∀ a, Answers fun s => reply s a) :
    Halts (Session.perform op reply) := by
  intro s f stopped
  have halted := @LedgerOp.halted s.ledger f op
  unfold Session.perform at stopped ⊢
  generalize op.apply s.ledger = r at halted stopped ⊢
  obtain ⟨l, outcome⟩ := r
  cases outcome with
  | error g =>
      obtain rfl := Option.some.inj stopped
      exact ⟨l, halted rfl, rfl⟩
  | ok a =>
      rw [answers a (s.withLedger l)] at stopped
      cases stopped

theorem Halts.sweep (answers : ∀ a, Answers fun s => reply s a) :
    Halts (Session.sweep op reply) :=
  fun s => Halts.perform (fun a t => answers a (t.withLedger _)) s

/-- A step on a target halts with the operation on it. -/
theorem Halts.onTarget {target : Target} {op : Entry → LedgerOp} :
    Halts (Session.onTarget target op) := by
  intro s
  unfold Session.onTarget
  cases s.entryAt? target with
  | none => exact fun f stopped => nomatch stopped
  | some e =>
      exact Halts.perform (fun a t => after_answers t target _) s

/-- A step on a worker halts if it does so for each worker. -/
theorem Halts.withWorker {name : Handle}
    {h : WorkerId → Session → Session × Answer}
    (each : ∀ w, Halts (h w)) : Halts (Session.withWorker name h) := by
  intro s
  unfold Session.withWorker
  cases s.workers.lookup name with
  | none => exact fun f stopped => nomatch stopped
  | some w => exact each w s

-- ================================================================= steps

/-- A step that hands no unit to an executor and stops midway has done
nothing, except that a counter that was full may have started over. -/
theorem halts_step {st : Step}
    (other : ∀ name work, st ≠ .submit name work) : Halts (step st) := by
  cases st with
  | submit name work => exact absurd rfl (other name work)
  | now | pending | stop | trace | entry | runNext =>
      exact Answers.halts fun _ => rfl
  | records | text => exact Answers.halts fun s => held_answers _ s
  | view target => exact Answers.halts fun s => after_answers s target none
  | setClock | advance =>
      unfold step
      exact .perform fun a s => rfl
  | finishTask =>
      refine .perform fun a s => ?_
      cases a <;> rfl
  | allocate =>
      unfold step
      refine .perform fun a s => ?_
      cases a <;> rfl
  | startTask | addTask =>
      refine .perform fun a s => ?_
      exact nameTask_answers
  | addWorker =>
      refine .perform fun a s => ?_
      exact nameWorker_answers
  | flush | endBuild =>
      unfold step
      exact fun s => Halts.sweep (fun a s => rfl) s
  | await | close | finish | conclude | enlist => exact .onTarget
  | attach target spec =>
      intro s
      unfold step
      dsimp only
      split
      -- The span has no times, so nothing was begun.
      · exact fun f _ => ⟨s.ledger, .refl _, rfl⟩
      · exact Halts.onTarget s
  | report =>
      refine .withWorker fun w => ?_
      exact .onTarget
  | lookUp target key name =>
      intro s
      unfold step
      dsimp only
      split
      · exact fun f stopped => nomatch stopped
      · exact Halts.perform (fun a t => nameWorker_answers) s
  | startWorker | endWorker =>
      refine .withWorker fun w => .perform fun a s => ?_
      exact viewWorker_answers w s
  | showWorker =>
      refine .withWorker fun w => Answers.halts fun s => ?_
      exact viewWorker_answers w s
  | debugWorker | spanOfWorker =>
      refine .withWorker fun w => Answers.halts fun s => ?_
      dsimp only
      split <;> rfl
  | write project variant span children =>
      intro s
      unfold step
      dsimp only
      split
      · exact fun f _ => ⟨s.ledger, .refl _, rfl⟩
      · refine Halts.perform (fun a t => ?_) s
        cases a <;> rfl
  | entryOf | info | length | reopen | addExecutor =>
      refine Answers.halts fun s => ?_
      unfold step
      dsimp only
      split <;> first | rfl | (split <;> rfl)
  | awaitAll name | release name | describe name =>
      refine Answers.halts fun s => ?_
      show (withExecutor name _ s).2.fault? = none
      unfold withExecutor
      split
      · first | rfl | exact describe_answers _ _ s
      · rfl

/-- A unit that panics in a direct executor has been run, and that is
answered. -/
theorem submit_halts {s : Session} {name : Handle} {work : Work} {f : Fault}
    (stopped : (step (.submit name work) s).2.fault? = some f) :
    s.Direct name ∧ (step (.submit name work) s).1
      = ((s.withDispatch (s.dispatch.perform work).1).untold).1 := by
  unfold step at stopped ⊢
  dsimp only at stopped ⊢
  unfold withExecutor at stopped ⊢
  cases named : s.executors.lookup name with
  | none =>
      rw [named] at stopped
      cases stopped
  | some e =>
      obtain ⟨x, kind⟩ := e
      rw [named] at stopped
      dsimp only at stopped ⊢
      cases answer : (s.dispatch.submit x work).2 with
      | ok r =>
          rw [answer] at stopped
          cases stopped
      | error g =>
          obtain ⟨⟨owner, found⟩, left⟩ := Dispatch.submit_halts answer
          exact ⟨⟨x, kind, owner, named, found⟩, by rw [left]⟩

-- =============================================================== sessions

section

variable {l m : Ledger}

/-- Halting leaves every sink the outlet that it has. -/
theorem outlet_halted (halted : Ledger.Halted l m) (k : SinkId) :
    m.sinks[k]?.map Sink.outlet = l.sinks[k]?.map Sink.outlet := by
  obtain ⟨sinks, rewound, rfl⟩ := halted
  rcases rewound k with same | ⟨was, before, -, after⟩
  · exact congrArg (Option.map Sink.outlet) same
  · show sinks[k]?.map Sink.outlet = _
    rw [after, before]
    rfl

/-- So it announces what it announced. -/
theorem announces_halted (halted : Ledger.Halted l m) (k : SinkId) :
    announces m k = announces l k := by
  have read (n : Ledger) : announces n k
      = ((n.sinks[k]?.map Sink.outlet).map (· == .events)).getD false := by
    unfold announces
    cases n.sinks[k]? <;> rfl
  rw [read, read, outlet_halted halted]

/-- And it holds what it held, in memory or in its file: a counter that started
over is not part of that. -/
theorem contents_halted (halted : Ledger.Halted l m) (asLines : Bool) :
    contents m asLines = contents l asLines := by
  have announced : announces m = announces l :=
    funext (announces_halted halted)
  obtain ⟨sinks, rewound, rfl⟩ := halted
  unfold contents
  rw [announced]
  dsimp only
  rcases rewound l.sink with same | ⟨was, before, -, after⟩
  · rw [same]
    rfl
  · rw [after, before]
    rfl

end

/-- What a step leaves of a session when it stops midway. -/
structure Unharmed (st : Step) (s s' : Session) : Prop where
  /-- Names, executors and units are the same; what was run may be more. -/
  session : s'.withLedger s.ledger = { s with
    dispatch := { s.dispatch with ran := s'.dispatch.ran }
    told := s'.told }
  /-- Of the ledger, the clock and the counters may differ. -/
  ledger : s'.ledger
    = { s.ledger with now := s'.ledger.now, sinks := s'.ledger.sinks }
  /-- A counter differs only where it was full and starts over. -/
  counters : Ledger.Rewound s.ledger.sinks s'.ledger.sinks
  /-- The clock differs only where a unit of a direct executor moved it. -/
  clock : s'.ledger.now = s.ledger.now
    ∨ ∃ name work, st = .submit name work ∧ s.Direct name
      ∧ s'.ledger.now
        = (s.ledger.advance work.script.ms work.script.ns).1.now
  /-- The sink holds the same. -/
  held : ∀ asLines, s'.held asLines = s.held asLines
  /-- All that comes later is answered as it would have been had the session
  stood as before, but for that clock and that counter. -/
  later : ∀ sts, (run sts s').2 = (run sts (s.withLedger s'.ledger)).2

/-- What is held is shown the same after a halt. -/
theorem held_halted {s : Session} {l : Ledger}
    (halted : Ledger.Halted s.ledger l) (asLines : Bool) :
    (s.withLedger l).held asLines = s.held asLines := by
  unfold held
  rw [show (s.withLedger l).ledger = l from rfl, contents_halted halted]

/-- A step that halts leaves a session unharmed but for a counter that may have
started over. -/
theorem Unharmed.halted {st : Step} {s : Session} {l : Ledger}
    (halted : Ledger.Halted s.ledger l) : Unharmed st s (s.withLedger l) where
  session := rfl
  ledger := by
    obtain ⟨sinks, -, rfl⟩ := halted
    rfl
  counters := by
    obtain ⟨sinks, rewound, rfl⟩ := halted
    exact rewound
  clock := by
    obtain ⟨sinks, -, rfl⟩ := halted
    exact .inl rfl
  held := held_halted halted
  later _ := rfl

/-- Time has passed and an action was run, which has been answered. -/
def performed (now : Instant) (action : String) (s : Session) : Session :=
  { s with
    dispatch := { s.dispatch with
      ledger := { s.ledger with now }
      ran := s.dispatch.ran ++ [action] }
    told := (s.dispatch.ran ++ [action]).length }

/-- What a run of further steps answers does not depend on what was run before,
once that was told of; only the clock is another one. -/
theorem performed_later {s : Session} (told : s.Told) (now : Instant)
    (action : String) (sts : List Step) :
    (run sts (s.performed now action)).2
      = (run sts (s.withLedger { s.ledger with now })).2 := by
  have told' : (s.withLedger { s.ledger with now }).Told := told
  rw [run_afresh (s := s.performed now action) rfl, run_afresh told']
  rfl

/-- All that a unit does to the ledger is to move its clock. -/
theorem perform_told (s : Session) (work : Work) :
    ((s.withDispatch (s.dispatch.perform work).1).untold).1
      = s.performed (s.ledger.advance work.script.ms work.script.ns).1.now
        work.action := by
  have clock : (s.ledger.advance work.script.ms work.script.ns).1
      = { s.ledger with
        now := (s.ledger.advance work.script.ms work.script.ns).1.now } := by
    unfold Ledger.advance
    split <;> rfl
  rw [Dispatch.perform_fst]
  exact congrArg (fun l => { s with
    dispatch := { s.dispatch with
      ledger := l
      ran := s.dispatch.ran ++ [work.action] }
    told := (s.dispatch.ran ++ [work.action]).length }) clock

/-- A unit that a direct executor ran into a fault leaves a session unharmed but
for the clock, which the unit may have moved before. -/
theorem Unharmed.performed {s : Session} {name : Handle} {work : Work}
    (told : s.Told) (direct : s.Direct name) :
    Unharmed (.submit name work) s
      (s.performed (s.ledger.advance work.script.ms work.script.ns).1.now
        work.action) where
  session := rfl
  ledger := rfl
  counters _ := .inl rfl
  clock := .inr ⟨name, work, rfl, direct, rfl⟩
  held _ := rfl
  later sts := performed_later told _ work.action sts

/-- Whatever the session has come to, a step that stops midway does no
harm. -/
theorem unharmed_by_fault {setup : Setup} {s₀ : Session}
    (begun : begin setup = .ok s₀) (before : List Step) {st : Step}
    {f : Fault}
    (stopped : (step st (run before s₀).1).2.fault? = some f) :
    Unharmed st (run before s₀).1 (step st (run before s₀).1).1 := by
  have told : (run before s₀).1.Told := told_run (told_begin begun)
  by_cases submits : ∃ name work, st = .submit name work
  · obtain ⟨name, work, rfl⟩ := submits
    obtain ⟨direct, left⟩ := submit_halts stopped
    rw [left, perform_told]
    exact .performed told direct
  · have other (name : Handle) (work : Work) : st ≠ .submit name work :=
      fun same => submits ⟨name, work, same⟩
    obtain ⟨l, halted, left⟩ := halts_step other _ f stopped
    rw [left]
    exact .halted halted

/-- A unit that works for five milliseconds and panics. -/
def panicking : Work :=
  { action := "A", hash := 0
    script := { ms := 5, ending := .panic (some "boom") } }

/-- A direct executor runs it. -/
theorem unharmed_by_fault_of_a_unit :
    ∃ s, begin {} = .ok s
      ∧ Unharmed (.submit "e" panicking)
        (run [.addExecutor .direct ":a" none "e"] s).1
        (step (.submit "e" panicking)
          (run [.addExecutor .direct ":a" none "e"] s).1).1 :=
  ⟨_, rfl, unharmed_by_fault (f := .raised (some "boom"))
    (rfl : begin {} = .ok _) [.addExecutor .direct ":a" none "e"] rfl⟩

/-- The clock stays where the unit moved it. -/
theorem clock_moved_by_fault :
    ∃ s, begin {} = .ok s
      ∧ (step (.submit "e" panicking)
          (run [.addExecutor .direct ":a" none "e"] s).1).2.fault?
        = some (.raised (some "boom"))
      ∧ (step (.submit "e" panicking)
          (run [.addExecutor .direct ":a" none "e"] s).1).1.ledger.now
        ≠ (run [.addExecutor .direct ":a" none "e"] s).1.ledger.now :=
  ⟨_, rfl, rfl, by decide +kernel⟩

end Session

end TaskLedger
