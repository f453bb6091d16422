/-
What stands still once a task's span is written, and what does not.

Nothing that is said of such a task is heard any more: its status, its end,
its close and its children stay (`Change.fixed`). Two ways in remain. A
worker may still enter the crew, under a new key or in the place of another
one; and the crew's workers may still end, since whoever runs them holds them
by their numbers and not through the task.

So the count of workers stands exactly if no new key comes. While nobody
enters, the task is idle once all that were at work have ended, and it takes
as long as its span says exactly if they all ended within that time
(`written_stands`).
-/
import Mathlib.Data.List.Nodup
import Mathlib.Data.List.Perm.Subperm
import TaskLedger.Proofs.Ledger.Emission
import TaskLedger.Proofs.Ledger.Nesting

namespace TaskLedger

-- ================================================================ lengths

namespace Instant

theorem max_cases (a b : Instant) : a.max b = a ∨ a.max b = b := by
  unfold max
  split
  · exact .inr rfl
  · exact .inl rfl

theorem foldl_max_mem (ts : List Instant) (a : Instant) :
    ts.foldl max a ∈ a :: ts := by
  induction ts generalizing a with
  | nil => exact List.mem_singleton_self a
  | cons b rest ih =>
      rw [List.foldl_cons]
      rcases List.mem_cons.mp (ih (a.max b)) with here | later
      · rw [here]
        rcases max_cases a b with e | e <;> simp [e]
      · exact List.mem_cons_of_mem a (List.mem_cons_of_mem b later)

/-- The latest of some instants is one of them. -/
theorem latest_mem {ts : List Instant} {last : Instant}
    (h : latest? ts = some last) : last ∈ ts := by
  cases ts with
  | nil => cases h
  | cons t ts =>
      obtain rfl := Option.some.inj h
      exact foldl_max_mem ts t

end Instant

namespace Task

variable {task : Task} {crew : List Worker} {n : Int}

/-- The end of a task is its own or a worker's. -/
theorem end_cases {last : Instant} (h : task.end? crew = some last) :
    task.ended = some last ∨ ∃ k ∈ crew, k.ended = some last := by
  have among {last : Instant} (h : Worker.lastEnd? crew = some last) :
      ∃ k ∈ crew, k.ended = some last :=
    List.mem_filterMap.mp (Instant.latest_mem h)
  unfold end? at h
  split at h
  · next a b own others =>
      rw [← h]
      rcases Instant.max_cases a b with e | e <;> rw [e]
      · exact .inl own
      · exact .inr (among others)
  · next own _ => exact .inl (own.trans h)
  · exact .inr (among h)

/-- A task took no longer than some time exactly if it and its workers ended
within it. -/
theorem duration_le_iff :
    (task.duration crew).nanos ≤ n
      ↔ 0 ≤ n
        ∧ (∀ e, task.ended = some e → e.nanos - task.start.nanos ≤ n)
        ∧ ∀ k ∈ crew, ∀ e, k.ended = some e →
            e.nanos - task.start.nanos ≤ n := by
  have nonneg : 0 ≤ (task.duration crew).nanos := by
    unfold duration
    split
    · exact Duration.nonneg_clamp _
    · exact Int.le_refl _
  constructor
  · intro le
    refine ⟨Int.le_trans nonneg le, fun e own => ?_, fun k mem e ended => ?_⟩
    -- the last end is not before the task's own
    · have last : ∃ last, task.end? crew = some last
          ∧ e.nanos ≤ last.nanos := by
        unfold end?
        rw [own]
        cases Worker.lastEnd? crew with
        | none => exact ⟨e, rfl, Int.le_refl _⟩
        | some b => exact ⟨_, rfl, Instant.le_max_left e b⟩
      obtain ⟨last, he, before⟩ := last
      have length := Duration.le_clamp (last.since task.start)
      have since : (last.since task.start).nanos
        = last.nanos - task.start.nanos := rfl
      unfold duration at le
      rw [he] at le
      dsimp only at le
      omega
    · have within := task.ended_within mem ended
      omega
  · rintro ⟨zero, own, others⟩
    unfold duration
    cases he : task.end? crew with
    | none => exact zero
    | some last =>
        have since : (last.since task.start).nanos
          = last.nanos - task.start.nanos := rfl
        have bound : last.nanos - task.start.nanos ≤ n := by
          -- the last end is the task's own or a worker's
          rcases end_cases he with e | ⟨k, mem, e⟩
          · exact own last e
          · exact others k mem last e
        dsimp only [Duration.clamp, Duration.max]
        split
        · exact zero
        · omega

end Task

-- ================================================================= fixed

namespace Task

variable {now : Instant} {f : Task → Task} {task : Task}

/-- Nothing is heard of what is said of a task whose span is written. -/
theorem Turn.fixed (turn : Task.Turn now f)
    (terminal : task.status.terminal = true) : f task = task := by
  cases turn with
  | await =>
      unfold Task.await
      split
      · next running => rw [running] at terminal; cases terminal
      · next waiting => rw [waiting] at terminal; cases terminal
      · rfl
  | close => unfold Task.close; rw [if_pos terminal]
  | finish => exact Task.finish_of_terminal now terminal
  | attach => unfold Task.attach; rw [if_pos terminal]

/-- Nor of a report. -/
theorem noteReport_fixed (now : Instant) (idle : Bool)
    (terminal : task.status.terminal = true) :
    task.noteReport now idle = task := by
  have held : task.status.released = false := by
    cases status : task.status <;> simp_all [TaskStatus.terminal,
      TaskStatus.released]
  unfold noteReport
  rw [held]
  rfl

end Task

namespace Ledger

variable {Offer : SpanRecord → Prop} {l m : Ledger} {t : TaskId} {task : Task}

/-- A change leaves a task whose span is written as it was, but for the
crew. -/
theorem Change.fixed {a : Nat} (c : Change Offer l a m)
    (found : l.tasks[t]? = some task)
    (terminal : task.status.terminal = true) :
    ∃ crew, m.tasks[t]? = some { task with crew } := by
  have stays : ∃ crew, some task = some { task with crew } := ⟨_, rfl⟩
  have modified {u : TaskId} {f : Task → Task}
      (fixed : u = t → ∃ crew, f task = { task with crew }) :
      ∃ crew, (l.tasks.modify u f)[t]? = some { task with crew } := by
    rw [Array.getElem?_modify, found]
    split
    · next here =>
        obtain ⟨crew, same⟩ := fixed here
        exact ⟨crew, congrArg some same⟩
    · exact stays
  have same {u : TaskId} {f : Task → Task} (fixed : f task = task) :
      ∃ crew, (l.tasks.modify u f)[t]? = some { task with crew } :=
    modified fun _ => ⟨_, fixed⟩
  cases c with
  | quiet q =>
      cases q with
      | clock | aside | number | hired => exact ⟨_, found⟩
      | opened => exact ⟨_, push_old found⟩
      | turned u turn => exact same (turn.fixed terminal)
  | @concluded u other there opened =>
      refine modified fun here => ?_
      subst here
      rw [found] at there
      obtain rfl := Option.some.inj there
      rw [opened] at terminal
      cases terminal
  | enlisted key => exact modified fun _ => ⟨_, rfl⟩
  | started | ended | offered => exact ⟨_, found⟩
  | reported => exact same (Task.noteReport_fixed _ _ terminal)

-- ================================================================== crews

/-- The keys of a crew. -/
def keysAt (t : TaskId) (l : Ledger) : List String :=
  (l.crewAt t).map Prod.fst

/-- In every crew there is one member for a key. -/
theorem keys_kept : Kept (fun _ => True) fun _ l =>
    ∀ (t : TaskId) (task : Task), l.tasks[t]? = some task →
      (task.crew.map Prod.fst).Nodup := by
  refine .of_change fun {a l m} h c => ?_
  intro t task found
  have modified {u : TaskId} {f : Task → Task}
      (single : ∀ task : Task, (task.crew.map Prod.fst).Nodup →
        ((f task).crew.map Prod.fst).Nodup)
      (found : (l.tasks.modify u f)[t]? = some task) :
      (task.crew.map Prod.fst).Nodup := by
    rcases modify_cases found with ⟨-, old, ho, rfl⟩ | ⟨-, old⟩
    · exact single old (h _ old ho)
    · exact h t task old
  cases c with
  | quiet q =>
      cases q with
      | clock | aside | number | hired => exact h t task found
      | opened =>
          rcases push_back found with old | ⟨-, rfl⟩
          · exact h t task old
          · exact List.nodup_nil
      | turned u turn =>
          refine modified (fun task single => ?_) found
          rw [turn.crew]
          exact single
  | concluded =>
      exact modified (f := Task.concluded) (fun _ single => single) found
  | enlisted key =>
      exact modified (f := Task.enlist key l.workers.size)
        (fun _ single => nodup_replaced key l.workers.size single) found
  | started | ended | offered => exact h t task found
  | @reported u w reporter =>
      refine modified (f := Task.noteReport l.now (l.idle reporter))
        (fun task single => ?_) found
      unfold Task.noteReport
      split <;> exact single

end Ledger

namespace LedgerOp

open Ledger

variable {l : Ledger} {t : TaskId} {w : WorkerId} {k : Worker} {task : Task}
  {op : LedgerOp}

/-- The key under which an operation enters a worker into a crew. -/
def enters? (t : TaskId) : LedgerOp → Option String
  | enlist e key _ => if e = .task t then some key else none
  | _ => none

/-- The keys under which operations enter workers into a crew. -/
def entered (t : TaskId) (ops : List LedgerOp) : List String :=
  ops.filterMap (enters? t)

/-- A crew changes by the worker that enters it. -/
theorem crewAt_apply (op : LedgerOp) (found : l.tasks[t]? = some task) :
    (op.apply l).1.crewAt t
      = match op.enters? t with
        | some key =>
            (l.crewAt t).filter (fun m => m.1 != key)
              ++ [(key, l.workers.size)]
        | none => l.crewAt t := by
  cases hand : op.byHand with
  | false =>
      rw [(calm_apply hand l).crew]
      cases op with
      | enlist | startWorker | endWorker | report => cases hand
      | _ => rfl
  | true =>
      cases op with
      | startWorker | endWorker => rfl
      | report e w => exact (report_view e w l).1 t
      | enlist e key kind =>
          cases e with
          | untracked => rfl
          | task u =>
              show (l.enlist u key kind).crewAt t = _
              by_cases here : u = t
              · subst here
                have entering : enters? u (enlist (.task u) key kind)
                    = some key := if_pos rfl
                rw [entering]
                rw [enlist_of_found found,
                  crewAt_modify (f := Task.enlist key l.workers.size)
                    rfl found, if_pos rfl, crewAt_of found]
                rfl
              · have aside : enters? t (enlist (.task u) key kind) = none :=
                  if_neg fun e => here (Entry.task.inj e)
                rw [aside]
                rcases enlist_cases u key kind l with ⟨-, he⟩ | ⟨_, there, he⟩
                · rw [he]
                · rw [he, crewAt_modify (f := Task.enlist key l.workers.size)
                    rfl there, if_neg here]
      | _ => cases hand

/-- The keys of a crew after a run are those before and those entered. -/
theorem mem_keysAt_run (ops : List LedgerOp)
    (found : l.tasks[t]? = some task) (key : String) :
    key ∈ (run ops l).1.keysAt t
      ↔ key ∈ l.keysAt t ∨ key ∈ entered t ops := by
  induction ops generalizing l task with
  | nil => simp [run, entered]
  | cons op rest ih =>
      obtain ⟨task', found', -⟩ := task_apply op found
      show key ∈ (run rest (op.apply l).1).1.keysAt t ↔ _
      rw [ih found']
      unfold entered keysAt
      rw [crewAt_apply op found]
      cases entering : op.enters? t with
      | none => rw [List.filterMap_cons_none entering]
      | some key' =>
          rw [List.filterMap_cons_some entering]
          by_cases here : key = key'
          · simp [here]
          · rw [List.map_append, List.mem_append, List.mem_cons,
              or_iff_right here]
            refine or_congr_left ⟨?_, ?_⟩
            · rintro (old | new)
              · obtain ⟨e, kept, rfl⟩ := List.mem_map.mp old
                exact List.mem_map_of_mem (List.mem_filter.mp kept).1
              · exact absurd (List.mem_singleton.mp new) here
            · intro mem
              obtain ⟨e, old, rfl⟩ := List.mem_map.mp mem
              exact .inl (List.mem_map_of_mem
                (List.mem_filter.mpr ⟨old, bne_iff_ne.mpr here⟩))

/-- While nobody enters, a crew stays. -/
theorem crewAt_run {ops : List LedgerOp} (found : l.tasks[t]? = some task)
    (nobody : entered t ops = []) :
    (run ops l).1.crewAt t = l.crewAt t := by
  induction ops generalizing l task with
  | nil => rfl
  | cons op rest ih =>
      obtain ⟨task', found', -⟩ := task_apply op found
      have first : op.enters? t = none := by
        cases entering : op.enters? t with
        | none => rfl
        | some key =>
            rw [entered, List.filterMap_cons_some entering] at nobody
            cases nobody
      rw [entered, List.filterMap_cons_none first] at nobody
      show (run rest (op.apply l).1).1.crewAt t = _
      rw [ih found' nobody, crewAt_apply op found, first]

/-- An operation that does not end a worker leaves its end alone. -/
theorem ended_after (now : Instant) (other : op ≠ endWorker w) :
    (k.after now (op.step? w)).ended = k.ended := by
  cases op with
  | endWorker v =>
      have ne : v ≠ w := fun e => other (congrArg endWorker e)
      simp [step?, ne, Worker.after]
  | startWorker v | report e v =>
      by_cases here : v = w <;> simp [step?, here, Worker.after]
  | _ => rfl

/-- A worker ends by the operations that end it, and by no other. -/
theorem ended_run (ops : List LedgerOp) (found : l.workers[w]? = some k) :
    ∃ k', (run ops l).1.workers[w]? = some k'
      ∧ (k'.ended.isSome = true
        ↔ k.ended.isSome = true ∨ endWorker w ∈ ops)
      ∧ (endWorker w ∉ ops → k'.ended = k.ended) := by
  induction ops generalizing l k with
  | nil => exact ⟨k, found, by simp, fun _ => rfl⟩
  | cons op rest ih =>
      obtain ⟨k', found', ends, stays⟩ := ih (worker_apply op found)
      refine ⟨k', found', ?_, ?_⟩
      · rw [ends, List.mem_cons]
        by_cases here : op = endWorker w
        · subst here
          simp [step?, Worker.after]
        · rw [ended_after (l.clockOf k) here, or_iff_right (Ne.symm here)]
      · intro not
        rw [List.mem_cons, not_or] at not
        rw [stays not.2, ended_after (l.clockOf k) (Ne.symm not.1)]

/-- Through every run a task whose span is written stays as it is, but for
the crew. -/
theorem fixed_run (ops : List LedgerOp) (found : l.tasks[t]? = some task)
    (terminal : task.status.terminal = true) :
    ∃ crew, (run ops l).1.tasks[t]? = some { task with crew } := by
  have kept : Kept (fun _ => True) fun _ m =>
      ∃ crew, m.tasks[t]? = some { task with crew } :=
    .of_change fun h c => by
      obtain ⟨crew, there⟩ := h
      obtain ⟨crew', stays⟩ := c.fixed there terminal
      exact ⟨crew', stays⟩
  exact kept.run (b := 0) (fun _ _ _ _ => trivial) ⟨task.crew, found⟩

-- =============================================================== standing

theorem sound_run (ops : List LedgerOp) (h : Sound l) :
    Sound (run ops l).1 := by
  induction ops generalizing l with
  | nil => exact h
  | cons op rest ih => exact ih (h.apply op)

/-- A crew whose workers are there, member by member. -/
theorem mem_crewOf {task : Task} {l : Ledger} :
    k ∈ l.crewOf task
      ↔ ∃ key w, (key, w) ∈ task.crew ∧ l.workers[w]? = some k := by
  unfold crewOf
  rw [List.mem_filterMap]
  constructor
  · rintro ⟨⟨key, w⟩, mem, there⟩
    exact ⟨key, w, mem, there⟩
  · rintro ⟨key, w, mem, there⟩
    exact ⟨(key, w), mem, there⟩

/-- Keys that are never given up are as many as before exactly if no new one
came. -/
theorem length_eq_iff {before after new : List String}
    (single : before.Nodup) (single' : after.Nodup)
    (keys : ∀ key, key ∈ after ↔ key ∈ before ∨ key ∈ new) :
    after.length = before.length ↔ ∀ key ∈ new, key ∈ before := by
  have old : before.Subperm after :=
    single.subperm fun key mem => (keys key).mpr (.inl mem)
  constructor
  · intro same key mem
    have perm := old.perm_of_length_le (Nat.le_of_eq same)
    exact perm.mem_iff.mpr ((keys key).mpr (.inr mem))
  · intro known
    refine Nat.le_antisymm (List.Subperm.length_le ?_) old.length_le
    refine single'.subperm fun key mem => ?_
    rcases (keys key).mp mem with here | came
    · exact here
    · exact known key came

/-- A crew that nobody enters is idle once all that were at work ended. -/
theorem idle_run {ops : List LedgerOp}
    (manned : ∀ key w, (key, w) ∈ task.crew → ∃ k, l.workers[w]? = some k) :
    (run ops l).1.idle task = true
      ↔ ∀ key w k, (key, w) ∈ task.crew → l.workers[w]? = some k →
          k.ended.isSome = true ∨ endWorker w ∈ ops := by
  rw [idle_iff]
  constructor
  · intro idle key w k mem found
    obtain ⟨k', found', ends, -⟩ := ended_run ops found
    exact ends.mp (idle key w k' mem found')
  · intro ended key w k' mem found'
    obtain ⟨k, found⟩ := manned key w mem
    obtain ⟨later, there, ends, -⟩ := ended_run ops found
    rw [found'] at there
    obtain rfl := Option.some.inj there
    exact ends.mpr (ended key w k mem found)

/-- If none of its workers ends twice, the task takes as long as before
exactly if all of them ended within that time. -/
theorem duration_run {ops : List LedgerOp}
    (once : ∀ key w k, (key, w) ∈ task.crew → l.workers[w]? = some k →
      k.ended.isSome = true → endWorker w ∉ ops) :
    task.duration ((run ops l).1.crewOf task) = task.duration (l.crewOf task)
      ↔ ∀ key w k e, (key, w) ∈ task.crew →
          (run ops l).1.workers[w]? = some k → k.ended = some e →
          e.nanos ≤ task.start.nanos
            + (task.duration (l.crewOf task)).nanos := by
  constructor
  · intro same key w k e mem there ended
    rw [← same]
    exact task.ended_within (mem_crewOf.mpr ⟨key, w, mem, there⟩) ended
  · intro within
    obtain ⟨nonneg, own, -⟩ :=
      Task.duration_le_iff.mp (Int.le_refl (task.duration (l.crewOf task)).nanos)
    have le : (task.duration ((run ops l).1.crewOf task)).nanos
        ≤ (task.duration (l.crewOf task)).nanos := by
      refine Task.duration_le_iff.mpr ⟨nonneg, own, fun k mem e ended => ?_⟩
      obtain ⟨key, w, member, there⟩ := mem_crewOf.mp mem
      have bound := within key w k e member there ended
      omega
    -- who had ended before has the same end now
    have ge : (task.duration (l.crewOf task)).nanos
        ≤ (task.duration ((run ops l).1.crewOf task)).nanos := by
      obtain ⟨nonneg', own', others⟩ := Task.duration_le_iff.mp
        (Int.le_refl (task.duration ((run ops l).1.crewOf task)).nanos)
      refine Task.duration_le_iff.mpr ⟨nonneg', own', fun k mem e ended => ?_⟩
      obtain ⟨key, w, member, found⟩ := mem_crewOf.mp mem
      obtain ⟨k', there, -, stays⟩ := ended_run ops found
      have same := stays
        (once key w k member found (Option.isSome_iff_exists.mpr ⟨e, ended⟩))
      exact others k' (mem_crewOf.mpr ⟨key, w, member, there⟩) e
        (same.trans ended)
    have same := Int.le_antisymm le ge
    revert same
    cases task.duration ((run ops l).1.crewOf task)
    cases task.duration (l.crewOf task)
    rintro rfl
    rfl

/-- From nothing let operations go on until one writes the span of a task: a call
that asks for it, the scheduler's report that the task is done, a flush, or the
end of the build. Then let more of them go on. The status, the end, the close and
the children of the task are what they were when its span was written. The count
of its workers is the same exactly if nobody entered its crew under a new key. If
nobody entered at all, the task is idle exactly if every worker that was at work
has ended since; and if none ended twice, the task takes as long as its span says
exactly if all of them ended within that time. -/
theorem written_stands (before after : List LedgerOp) (op : LedgerOp)
    (l : Ledger) (blank : l.Blank) (t : TaskId) (open_ : Task)
    (there : (run before l).1.tasks[t]? = some open_)
    (opened : open_.status.terminal = false)
    (wrote : Over t (op.apply (run before l).1).1) :
    let m := (op.apply (run before l).1).1
    let n := (run after m).1
    ∃ task crew line, m.tasks[t]? = some task ∧ task.status = .spanClosed
      ∧ m.linesOf t = (run before l).1.linesOf t ++ [line]
      ∧ line.sink = task.sink ∧ line.record = m.ownRecord task
      ∧ (op = conclude (.task t) → m.journal = (run before l).1.journal
        ++ (run before l).1.notes task.sink (.task t) (m.ownRecord task))
      ∧ n.tasks[t]? = some { task with crew }
      ∧ (crew.length = task.crew.length
        ↔ ∀ key ∈ entered t after, key ∈ task.crew.map Prod.fst)
      ∧ (entered t after = [] →
          (n.idle { task with crew } = true
            ↔ ∀ key w k, (key, w) ∈ task.crew → m.workers[w]? = some k →
                k.ended.isSome = true ∨ endWorker w ∈ after)
          ∧ ((∀ key w k, (key, w) ∈ task.crew → m.workers[w]? = some k →
                k.ended.isSome = true → endWorker w ∉ after) →
              (Task.duration { task with crew } (n.crewOf { task with crew })
                  = task.duration (m.crewOf task)
                ↔ ∀ key w k e, (key, w) ∈ task.crew →
                    n.workers[w]? = some k → k.ended = some e →
                    e.nanos ≤ task.start.nanos
                      + (task.duration (m.crewOf task)).nanos))) := by
  intro m n
  have sound₀ : Sound (run before l).1 := sound_run before blank.sound
  have sound : Sound m := sound₀.apply op
  have single : ∀ (t : TaskId) (task : Task), m.tasks[t]? = some task →
      (task.crew.map Prod.fst).Nodup := by
    have nobody : ∀ (t : TaskId) (task : Task), l.tasks[t]? = some task →
        (task.crew.map Prod.fst).Nodup := by
      intro t task found
      simp [blank.tasks] at found
    have first := keys_kept.run (b := 0)
      (fun op (_ : op ∈ before) _ _ => trivial) nobody
    exact keys_kept.apply (b := 0) (fun _ _ => trivial) first
  have single' : ∀ (t : TaskId) (task : Task), n.tasks[t]? = some task →
      (task.crew.map Prod.fst).Nodup :=
    keys_kept.run (b := 0) (fun _ _ _ _ => trivial) single
  -- the task waited for its span, and the operation wrote it
  obtain ⟨k, sink⟩ := sound₀.sink there
  have waits : Awaited t open_ k.refuses open_.children
      ((run before l).1.linesOf t) (run before l).1 :=
    ⟨⟨open_, there, .refl open_, opened, rfl⟩, ⟨k, sink, rfl⟩, rfl⟩
  obtain ⟨task, xs, ys, signed, exactly⟩ := waits.signed wrote
  obtain ⟨crew, found'⟩ := fixed_run after signed.found signed.terminal
  refine ⟨task, crew, _, signed.found, signed.closed, signed.linesOf,
    signed.same.sink.symm, rfl, ?_, found', ?_, ?_⟩
  · intro asks
    obtain ⟨rfl, rfl⟩ := exactly asks
    refine signed.journal.trans ?_
    unfold Ledger.notes
    rw [signed.same.sink, sink]
    rfl
  · have keys := mem_keysAt_run after signed.found
    unfold keysAt at keys
    rw [crewAt_of signed.found, crewAt_of found'] at keys
    have count :=
      length_eq_iff (single t task signed.found) (single' t _ found') keys
    rwa [List.length_map, List.length_map] at count
  · intro nobody
    have same := crewAt_run signed.found nobody
    rw [crewAt_of signed.found, crewAt_of found'] at same
    obtain rfl : crew = task.crew := same
    have manned : ∀ key w, (key, w) ∈ task.crew →
        ∃ k, m.workers[w]? = some k :=
      fun _ _ mem => sound.manned signed.found mem
    exact ⟨idle_run manned, duration_run⟩

/-- A task's span is written while a worker is at work, and shows no time at
all. Once the worker has ended, the task is idle and takes five milliseconds;
once another worker has entered instead, it has two, and so it has if the span
was written by the end of the build. -/
theorem written_stands_worker_outlives :
    let l : Ledger := { sinks := #[{ outlet := .memory }] }
    let before : List LedgerOp :=
      [.startTask ":a" ":app" none, .enlist (.task 0) "k" .worker,
        .startWorker 0]
    let asked := ((conclude (.task 0)).apply (run before l).1).1
    let later := (run [.advance 5 0, .endWorker 0] asked).1
    let more := (run [.enlist (.task 0) "j" .worker] asked).1
    let swept := (endBuild.apply (run before l).1).1
    let joined := (run [.enlist (.task 0) "j" .worker] swept).1
    (∃ task crew, asked.tasks[0]? = some task
        ∧ later.tasks[0]? = some { task with crew }
        ∧ asked.idle task = false ∧ later.idle { task with crew } = true
        ∧ Task.duration { task with crew }
            (later.crewOf { task with crew })
          ≠ task.duration (asked.crewOf task))
      ∧ (∃ task crew, asked.tasks[0]? = some task
        ∧ more.tasks[0]? = some { task with crew }
        ∧ crew.length ≠ task.crew.length)
      ∧ ∃ task crew, swept.tasks[0]? = some task
        ∧ joined.tasks[0]? = some { task with crew }
        ∧ crew.length ≠ task.crew.length := by
  intro l before asked later more swept joined
  have blank : l.Blank := ⟨rfl, rfl, rfl, rfl⟩
  have opened : (run before l).1.tasks[0]?.any
      (fun task => !task.status.terminal) = true := by decide +kernel
  obtain ⟨open_, there, waits⟩ := (Option.any_eq_true _ _).mp opened
  rw [Bool.not_eq_true'] at waits
  -- the span is written by either of the two operations
  have closed_over {m : Ledger} (closed : m.tasks[0]?.any
      (fun task => task.status.terminal) = true) : Over 0 m :=
    (Option.any_eq_true _ _).mp closed
  have wrote : Over 0 asked := closed_over (by decide +kernel)
  have seen : asked.tasks[0]?.all (fun task => task.crew == [("k", 0)]
      && !asked.idle task && task.start.nanos
        + (task.duration (asked.crewOf task)).nanos == 0) = true := by
    decide +kernel
  have atWork : asked.workers[0]?.all (fun k => k.ended.isNone) = true := by
    decide +kernel
  have late : (later.workers[0]?.bind Worker.ended).any
      (fun e => e.nanos == 5000000) = true := by decide +kernel
  obtain ⟨e, last, five⟩ := (Option.any_eq_true _ _).mp late
  obtain ⟨k, present, at_⟩ := Option.bind_eq_some_iff.mp last
  refine ⟨?_, ?_, ?_⟩
  · obtain ⟨task, crew, _, found, -, -, -, -, -, found', -, nobody⟩ :=
      written_stands before [.advance 5 0, .endWorker 0] (conclude (.task 0)) l
        blank 0 open_ there waits wrote
    obtain ⟨idle, length⟩ := nobody rfl
    rw [found, Option.all_some, Bool.and_eq_true, Bool.and_eq_true,
      Bool.not_eq_true', beq_iff_eq, beq_iff_eq] at seen
    obtain ⟨⟨only, busy⟩, zero⟩ := seen
    refine ⟨task, crew, found, found', busy, idle.mpr ?_, fun same => ?_⟩
    · intro key w k mem _
      rw [only] at mem
      cases List.mem_singleton.mp mem
      exact .inr (by decide)
    · have within := (length ?_).mp same "k" 0 k e
        (by rw [only]; exact List.mem_singleton_self _) present at_
      · rw [zero, eq_of_beq five] at within
        exact absurd within (by decide)
      · intro key w k mem present ended
        rw [only] at mem
        cases List.mem_singleton.mp mem
        rw [present, Option.all_some, Option.isNone_iff_eq_none] at atWork
        rw [atWork] at ended
        cases ended
  · obtain ⟨task, crew, _, found, -, -, -, -, -, found', count, -⟩ :=
      written_stands before [.enlist (.task 0) "j" .worker]
        (conclude (.task 0)) l blank 0 open_ there waits wrote
    rw [found, Option.all_some, Bool.and_eq_true, Bool.and_eq_true,
      beq_iff_eq] at seen
    refine ⟨task, crew, found, found', fun same => ?_⟩
    have known := count.mp same "j" (List.mem_singleton_self _)
    rw [seen.1.1] at known
    exact absurd known (by decide)
  · obtain ⟨task, crew, _, found, -, -, -, -, -, found', count, -⟩ :=
      written_stands before [.enlist (.task 0) "j" .worker] endBuild l blank 0
        open_ there waits (closed_over (by decide +kernel))
    have alone : swept.tasks[0]?.all (fun task => task.crew == [("k", 0)])
        = true := by decide +kernel
    rw [found, Option.all_some, beq_iff_eq] at alone
    refine ⟨task, crew, found, found', fun same => ?_⟩
    have known := count.mp same "j" (List.mem_singleton_self _)
    rw [alone] at known
    exact absurd known (by decide)

end LedgerOp

end TaskLedger
