/-
What a session has been told of is past.

A session keeps the actions that were run and how many of them it has
answered, and looks at those only that it has not. So a past may be put in
front of both (`behind`): a step answers the same, and what it leaves has
the same past in front of it. `Forgetful` says this of a step, with the
other half of the account: right after a step that runs anything, everything
that was run has been answered. Steps are put together from parts, and so
are these facts about them, part by part.
-/
import TaskLedger.Session.Run

namespace TaskLedger

namespace Dispatch

/-- The same, with actions that were run before. -/
def behind (past : List String) (d : Dispatch) : Dispatch :=
  { d with ran := past ++ d.ran }

variable {past : List String} {d : Dispatch} {x : ExecutorId} {u : UnitId}

@[simp] theorem behind_ledger : (d.behind past).ledger = d.ledger := rfl

@[simp] theorem behind_executors :
    (d.behind past).executors = d.executors := rfl

@[simp] theorem behind_units : (d.behind past).units = d.units := rfl

@[simp] theorem behind_stopped : (d.behind past).stopped = d.stopped := rfl

@[simp] theorem behind_pooled? : (d.behind past).pooled? x = d.pooled? x :=
  rfl

/-- A piece of work runs the same behind a past: it only adds to what was run.
-/
theorem perform_behind (w : Work) :
    (d.behind past).perform w
      = ((d.perform w).1.behind past, (d.perform w).2) := by
  have ran : past ++ d.ran ++ [w.action] = past ++ (d.ran ++ [w.action]) :=
    List.append_assoc past d.ran [w.action]
  unfold perform behind
  dsimp only
  rw [ran]
  split <;> rfl

/-- So does a step of a unit. -/
theorem proceed_behind :
    (d.behind past).proceed u = (d.proceed u).behind past := by
  unfold proceed
  rw [behind_units]
  cases d.units[u]? with
  | none => rfl
  | some s =>
      dsimp only
      cases s.phase with
      | queued =>
          dsimp only
          rw [behind_stopped]
          split <;> rfl
      | begun w =>
          dsimp only
          rw [perform_behind]
          rfl
      | ended w failure =>
          dsimp only
          rw [behind_ledger]
          generalize Ledger.OnEntry.report s.entry w d.ledger = res
          obtain ⟨l, f | ok⟩ := res <;> rfl
      | reported failure => cases failure <;> rfl
      | ran | faulted | completed | abandoned => rfl

/-- And so do the steps of a schedule, one after another. -/
theorem follow_behind (schedule : List UnitId) :
    (d.behind past).follow schedule = (d.follow schedule).behind past := by
  induction schedule generalizing d with
  | nil => rfl
  | cons u rest ih =>
      show ((d.behind past).proceed u).follow rest = _
      rw [proceed_behind, ih]
      rfl

theorem seeThrough_behind (us : List UnitId) :
    (d.behind past).seeThrough us = (d.seeThrough us).behind past :=
  follow_behind _

theorem drain_behind : (d.behind past).drain = d.drain.behind past :=
  seeThrough_behind _

/-- A unit is handed in the same, whether it is run at once or queued. -/
theorem submit_behind (w : Work) :
    (d.behind past).submit x w
      = ((d.submit x w).1.behind past, (d.submit x w).2) := by
  unfold submit
  rw [behind_executors]
  cases d.executors[x]? with
  | none => rfl
  | some e =>
      cases e with
      | direct owner =>
          dsimp only
          rw [perform_behind]
          generalize d.perform w = res
          obtain ⟨d', f | o⟩ := res
          · rfl
          · cases o <;> rfl
      | pooled s =>
          dsimp only
          refine Prod.ext ?_ rfl
          show (if d.stopped then _ else _)
            = behind past (if d.stopped then _ else _)
          split
          · refine Eq.trans ?_ proceed_behind
            rfl
          · rfl

/-- An owner starts to wait without a look at what was run. -/
theorem beginAwait_behind :
    (d.behind past).beginAwait x = (d.beginAwait x).behind past := by
  unfold beginAwait
  rw [behind_pooled?]
  cases d.pooled? x <;> rfl

theorem release_behind :
    (d.behind past).release x = (d.release x).behind past := by
  unfold release
  rw [behind_pooled?]
  cases d.pooled? x <;> rfl

/-- What was run is not touched as control comes back. -/
theorem release_ran : (d.release x).ran = d.ran := by
  unfold release
  cases d.pooled? x <;> rfl

/-- What a wait answers is told by the executor alone. -/
theorem endAwait_behind :
    (d.behind past).endAwait x
      = (d.endAwait x).map fun p => (p.1.behind past, p.2) := by
  unfold endAwait
  rw [behind_pooled?]
  cases d.pooled? x with
  | none => rfl
  | some s =>
      dsimp only
      split <;> rfl

theorem drainAndAwait_behind :
    (d.behind past).drainAndAwait x
      = ((d.drainAndAwait x).1.behind past, (d.drainAndAwait x).2) := by
  unfold drainAndAwait
  dsimp only
  rw [drain_behind, beginAwait_behind, endAwait_behind]
  cases (d.drain.beginAwait x).endAwait x <;> rfl

end Dispatch

namespace Session

/-- The same, with actions that were run and answered before. -/
def behind (past : List String) (s : Session) : Session :=
  { s with
    dispatch := s.dispatch.behind past
    told := past.length + s.told }

/-- Everything that was run has been answered. -/
def Told (s : Session) : Prop := s.told = s.dispatch.ran.length

/-- What was run and answered before makes no difference, and what is run
is answered at once. -/
structure Forgetful (f : Session → Session × Answer) : Prop where
  behind : ∀ (past : List String) (s : Session),
    f (s.behind past) = ((f s).1.behind past, (f s).2)
  told : ∀ s : Session, s.Told → (f s).1.Told

section

variable {past : List String} {s : Session}

@[simp] theorem behind_ledger : (s.behind past).ledger = s.ledger := rfl

@[simp] theorem behind_tasks : (s.behind past).tasks = s.tasks := rfl

/-- A name leads to what it led to. -/
@[simp] theorem behind_entryAt? (target : Target) :
    (s.behind past).entryAt? target = s.entryAt? target := by
  cases target <;> rfl

/-- What an answer says of a write is told by the ledger. -/
@[simp] theorem behind_after (target : Target) (wrote : Option Bool) :
    (s.behind past).after target wrote = s.after target wrote := by
  cases target <;> rfl

/-- An executor is found for an owner by its kind and by the registry. -/
@[simp] theorem behind_executorFor (kind : ExecutorKind) (owner : String)
    (entry : Option Handle) :
    (s.behind past).executorFor kind owner entry
      = s.executorFor kind owner entry := by
  cases kind <;> cases entry <;> rfl

/-- What was run is answered, and what was answered before is not. -/
theorem behind_untold :
    (s.behind past).untold = (s.untold.1.behind past, s.untold.2) := by
  have length : (past ++ s.dispatch.ran).length
      = past.length + s.dispatch.ran.length := List.length_append
  have rest : (past ++ s.dispatch.ran).drop (past.length + s.told)
      = s.dispatch.ran.drop s.told := by
    rw [← List.drop_drop, List.drop_left]
  refine Prod.ext ?_ rest
  show { s.behind past with told := (past ++ s.dispatch.ran).length } = _
  rw [length]
  rfl

end

-- ================================================================= parts

section

variable {f : Session → Session × Answer} {op : LedgerOp}
  {reply : Session → LedgerAnswer → Session × Answer}

/-- To look at something else. -/
theorem Forgetful.view {g : Session → Answer}
    (same : ∀ past s, g (s.behind past) = g s) :
    Forgetful fun s => (s, g s) where
  behind past s := Prod.ext rfl (same past s)
  told _ told := told

/-- To go on by what is seen of something else: for each thing it may be,
the step is one that is forgetful. -/
theorem Forgetful.look {β : Type} (g : Session → β)
    (same : ∀ past s, g (s.behind past) = g s)
    (each : ∀ b, ∃ h, Forgetful h ∧ ∀ s, g s = b → f s = h s) :
    Forgetful f where
  behind past s := by
    obtain ⟨h, forgetful, here⟩ := each (g s)
    rw [here (s.behind past) (same past s), here s rfl]
    exact forgetful.behind past s
  told s told := by
    obtain ⟨h, forgetful, here⟩ := each (g s)
    rw [here s rfl]
    exact forgetful.told s told

/-- To put another ledger first. -/
theorem Forgetful.put (each : Forgetful f) (l : Session → Ledger)
    (same : ∀ past s, l (s.behind past) = l s) :
    Forgetful fun s => f (s.withLedger (l s)) where
  behind past s := by
    show f ((s.behind past).withLedger (l (s.behind past))) = _
    rw [same]
    exact each.behind past (s.withLedger (l s))
  told s told := each.told (s.withLedger (l s)) told

/-- A step that carries out an operation forgets the past if what it makes of
each answer does. -/
theorem Forgetful.perform (each : ∀ a, Forgetful fun s => reply s a) :
    Forgetful (Session.perform op reply) := by
  refine .look (fun s => op.apply s.ledger) (fun _ _ => rfl) fun r => ?_
  obtain ⟨l, outcome⟩ := r
  cases outcome with
  | error f =>
      refine ⟨fun s => (s.withLedger l, .fault f), ?_, fun s applied => ?_⟩
      · exact ⟨fun _ _ => rfl, fun _ told => told⟩
      · unfold Session.perform
        rw [applied]
  | ok a =>
      refine ⟨_, (each a).put (fun _ => l) fun _ _ => rfl,
        fun s applied => ?_⟩
      unfold Session.perform
      rw [applied]

/-- A sweep runs nothing, so it forgets the past with what it makes of the
count. -/
theorem Forgetful.sweep (each : ∀ a, Forgetful fun s => reply s a) :
    Forgetful (Session.sweep op reply) := by
  refine .look (fun s => s.ledger.warnings.length) (fun _ _ => rfl)
    fun before => ⟨Session.perform op fun s a =>
      reply (s.withLedger { s.ledger with
        warnings := s.ledger.warnings.take before
          ++ inOrder (s.ledger.warnings.drop before) }) a, ?_, ?_⟩
  · refine .perform fun a => ?_
    exact (each a).put _ fun _ _ => rfl
  · rintro s rfl
    rfl

theorem Forgetful.unknown : Forgetful fun s => (s, Answer.unknown) :=
  .view fun _ _ => rfl

/-- A step on a target does one operation on it, or finds none. -/
theorem Forgetful.onTarget {target : Target} {op : Entry → LedgerOp} :
    Forgetful (Session.onTarget target op) := by
  refine .look (fun s => s.entryAt? target)
    (fun _ _ => behind_entryAt? target) fun entry => ?_
  cases entry with
  | none =>
      refine ⟨_, .unknown, fun s found => ?_⟩
      unfold Session.onTarget
      rw [found]
  | some e =>
      refine ⟨_, .perform fun a => .view fun past s => ?_, fun s found => by
        unfold Session.onTarget
        rw [found]⟩
      exact behind_after target _

/-- A step on a worker forgets the past if it does so for each worker. -/
theorem Forgetful.withWorker {name : Handle}
    {h : WorkerId → Session → Session × Answer}
    (each : ∀ w, Forgetful (h w)) : Forgetful (Session.withWorker name h) := by
  refine .look (fun s => s.workers.lookup name) (fun _ _ => rfl)
    fun worker => ?_
  cases worker with
  | none =>
      refine ⟨_, .unknown, fun s found => ?_⟩
      unfold Session.withWorker
      rw [found]
  | some w =>
      refine ⟨_, each w, fun s found => ?_⟩
      unfold Session.withWorker
      rw [found]

/-- A step on an executor forgets the past if it does so for each executor. -/
theorem Forgetful.withExecutor {name : Handle}
    {h : ExecutorId → ExecutorKind → Session → Session × Answer}
    (each : ∀ x kind, Forgetful (h x kind)) :
    Forgetful (Session.withExecutor name h) := by
  refine .look (fun s => s.executors.lookup name) (fun _ _ => rfl)
    fun executor => ?_
  cases executor with
  | none =>
      refine ⟨_, .unknown, fun s found => ?_⟩
      unfold Session.withExecutor
      rw [found]
  | some e =>
      refine ⟨_, each e.1 e.2, fun s found => ?_⟩
      unfold Session.withExecutor
      rw [found]

theorem Forgetful.nameTask {name : Handle} {a : LedgerAnswer} :
    Forgetful fun s => s.nameTask name a := by
  cases a <;> exact ⟨fun _ _ => rfl, fun _ told => told⟩

theorem Forgetful.nameWorker {name : Handle} {a : LedgerAnswer} :
    Forgetful fun s => s.nameWorker name a := by
  cases a <;> exact ⟨fun _ _ => rfl, fun _ told => told⟩

/-- To run something, and to answer what was run. -/
theorem Forgetful.run {α : Type} (act : Dispatch → Dispatch × α)
    (reply : α → List String → Session → Answer)
    (same : ∀ past d, act (d.behind past) = ((act d).1.behind past, (act d).2))
    (view : ∀ past a ran s, reply a ran (s.behind past) = reply a ran s) :
    Forgetful fun s =>
      let t := (s.withDispatch (act s.dispatch).1).untold
      (t.1, reply (act s.dispatch).2 t.2 t.1) where
  behind past s := by
    have put : (s.behind past).withDispatch ((act s.dispatch).1.behind past)
        = (s.withDispatch (act s.dispatch).1).behind past := rfl
    show (let r := act (s.dispatch.behind past)
      let t := ((s.behind past).withDispatch r.1).untold
      (t.1, reply r.2 t.2 t.1)) = _
    dsimp only
    rw [same, put, behind_untold]
    exact Prod.ext rfl (view past _ _ _)
  told _ _ := rfl

end

-- ================================================================= steps

/-- No step looks at what was run and answered before. -/
theorem forgetful_step (st : Step) : Forgetful (step st) := by
  cases st with
  | now | pending | records | text | trace =>
      exact .view fun _ _ => rfl
  | view target => exact .view fun _ _ => behind_after target none
  | setClock | advance | finishTask | allocate =>
      unfold step
      refine .perform fun a => ?_
      exact .view fun _ _ => rfl
  | startTask | addTask =>
      refine .perform fun a => ?_
      exact .nameTask
  | addWorker =>
      unfold step
      refine .perform fun a => ?_
      exact .nameWorker
  | flush =>
      unfold step
      refine .sweep fun a => ?_
      exact .view fun _ _ => rfl
  | endBuild =>
      refine .look (fun s => s.lines.length) (fun _ _ => rfl) fun before =>
        ⟨Session.sweep .endBuild fun s a =>
          (s, .built (step.countOf a) (s.lines.drop before)), ?_, ?_⟩
      · refine .sweep fun a => ?_
        exact .view fun _ _ => rfl
      · rintro s rfl
        rfl
  | entry path name =>
      exact ⟨fun _ _ => by cases path <;> rfl, fun _ told => told⟩
  | entryOf | info | length | reopen | addExecutor =>
      -- Each goes by one thing it sees, and a past does not change that.
      refine ⟨fun past s => ?_, fun s told => ?_⟩
      · simp only [step, behind_tasks, behind_ledger, behind_executorFor]
        split <;> rfl
      · unfold step
        dsimp only
        split <;> exact told
  | await | close | finish | conclude | enlist => exact .onTarget
  | attach target spec =>
      refine .look (fun _ => spec.times) (fun _ _ => rfl) fun times => ?_
      cases times with
      | error f =>
          refine ⟨fun s => (s, .fault f), .view fun _ _ => rfl,
            fun s times => ?_⟩
          simp only [step, times]
      | ok interval =>
          exact ⟨_, .onTarget, fun s times => by
            unfold step
            dsimp only
            rw [times]⟩
  | report =>
      refine .withWorker fun w => ?_
      exact .onTarget
  | lookUp target key name =>
      refine .look (fun s => s.entryAt? target)
        (fun _ _ => behind_entryAt? target) fun entry => ?_
      cases entry with
      | none =>
          refine ⟨_, .unknown, fun s found => ?_⟩
          simp only [step, found]
      | some e =>
          exact ⟨_, .perform fun a => .nameWorker, fun s found => by
            unfold step
            dsimp only
            rw [found]⟩
  | startWorker | endWorker =>
      refine .withWorker fun w => .perform fun a => ?_
      exact .view fun _ _ => rfl
  | showWorker | debugWorker | spanOfWorker =>
      refine .withWorker fun w => ?_
      exact .view fun _ _ => rfl
  | write project variant span children =>
      refine .look (fun _ => span.withChildren children) (fun _ _ => rfl)
        fun made => ?_
      cases made with
      | error f =>
          refine ⟨fun s => (s, .fault f), .view fun _ _ => rfl,
            fun s made => ?_⟩
          simp only [step, made]
      | ok spans =>
          refine ⟨_, .perform fun a => .view fun _ _ => ?_, fun s made => by
            unfold step
            dsimp only
            rw [made]⟩
          rfl
  | submit executor work =>
      refine .withExecutor fun x _ => ?_
      exact .run (fun d => d.submit x work)
        (fun r ran s => .submitted r ran s.ledger.now)
        (fun _ _ => Dispatch.submit_behind work) fun _ _ _ _ => rfl
  | runNext n =>
      exact .run
        (fun d =>
          (d.seeThrough (d.queue.take n), (d.queue.take n).length))
        (fun m ran s => .stepped m ran s.ledger.now)
        (fun _ _ => Prod.ext (Dispatch.seeThrough_behind _) rfl)
        fun _ _ _ _ => rfl
  | awaitAll executor =>
      refine .withExecutor fun x _ => ?_
      exact .run (fun d => d.drainAndAwait x)
        (fun r ran s => .submitted (.ok r) ran s.ledger.now)
        (fun _ _ => Dispatch.drainAndAwait_behind) fun _ _ _ _ => rfl
  | release executor =>
      refine .withExecutor fun x _ => ⟨fun past s => ?_, fun s told => ?_⟩
      · refine Prod.ext ?_ rfl
        show (s.behind past).withDispatch ((s.dispatch.behind past).release x)
          = _
        rw [Dispatch.release_behind]
        rfl
      · show s.told = (s.dispatch.release x).ran.length
        rw [Dispatch.release_ran]
        exact told
  | stop =>
      exact .run (fun d => (d.drain.stop, ()))
        (fun _ ran _ => .ran ran)
        (fun _ _ => Prod.ext (congrArg Dispatch.stop Dispatch.drain_behind) rfl)
        fun _ _ _ _ => rfl
  | describe executor =>
      refine .withExecutor fun x kind => ?_
      exact .view fun _ _ => by cases kind <;> rfl

/-- Nor does a run. -/
theorem run_behind (past : List String) (sts : List Step) (s : Session) :
    run sts (s.behind past)
      = ((run sts s).1.behind past, (run sts s).2) := by
  induction sts generalizing s with
  | nil => rfl
  | cons st rest ih =>
      show (let r := step st (s.behind past)
        let t := run rest r.1
        (t.1, r.2 :: t.2)) = _
      dsimp only
      rw [(forgetful_step st).behind past s, ih]
      rfl

/-- The same, with nothing run yet. -/
def afresh (s : Session) : Session :=
  { s with dispatch := { s.dispatch with ran := [] }, told := 0 }

/-- A session that has told of everything is one that starts afresh, behind what
it has run. -/
theorem Told.afresh {s : Session} (told : s.Told) :
    s.afresh.behind s.dispatch.ran = s := by
  have ran : s.dispatch.ran ++ [] = s.dispatch.ran := List.append_nil _
  unfold Session.afresh Session.behind Dispatch.behind
  dsimp only
  rw [ran, Nat.add_zero, ← told]

/-- Where everything that was run has been answered, the answers are those
of a session in which nothing was. -/
theorem run_afresh {s : Session} (told : s.Told) (sts : List Step) :
    (run sts s).2 = (run sts s.afresh).2 := by
  have past := run_behind s.dispatch.ran sts s.afresh
  rw [told.afresh] at past
  rw [past]

/-- A run ends with everything told of, if it starts so: the induction is on its
steps. -/
theorem told_run {sts : List Step} {s : Session} (told : s.Told) :
    (run sts s).1.Told := by
  induction sts generalizing s with
  | nil => exact told
  | cons st rest ih => exact ih ((forgetful_step st).told s told)

/-- A session that begins has run nothing, so there is nothing to tell of. -/
theorem told_begin {setup : Setup} {s : Session}
    (begun : begin setup = .ok s) : s.Told := by
  simp only [begin, bind, Except.bind] at begun
  repeat' split at begun
  all_goals cases begun
  all_goals rfl

end Session

end TaskLedger
