/-
What goes on apart from a task.

Three things of a ledger concern a task: what is on record of it, which lines
of the journal are about it, and whether it is registered under its path
(`Apart`). Beside these there is what all tasks share: the clocks, the sink,
and the tables, of which some workers may matter (`Beside`). An operation that
is for others leaves both alone (`beside_apply`, `apart_apply`), and so does a
sweep that does not come to the task, or one that comes to it up to there and
from there on (`flush_parts`, `endBuild_parts`).

The counter of the sink is shared, too. As long as there are numbers left it
only rises (`counter_apply`).
-/
import TaskLedger.Proofs.Ledger.ReadyToWrite
import TaskLedger.Proofs.Ledger.ElapsedTime
import TaskLedger.Proofs.Ledger.Numbering

namespace TaskLedger

namespace Ledger

variable {l m n : Ledger} {t u : TaskId} {path : String}

-- =================================================================== lines

/-- The lines about a task, in order. -/
def linesAbout (t : TaskId) (l : Ledger) : List Write :=
  l.journal.filter fun line => line.about? == some t

/-- Lines about others are no lines about a task. -/
theorem linesAbout_append {new : List Write}
    (journal : m.journal = l.journal ++ new)
    (others : ∀ line ∈ new, line.about? ≠ some t) :
    m.linesAbout t = l.linesAbout t := by
  have none : new.filter (fun line => line.about? == some t) = [] :=
    List.filter_eq_nil_iff.mpr fun line mem about =>
      others line mem (eq_of_beq about)
  unfold linesAbout
  rw [journal, List.filter_append, none, List.append_nil]

theorem linesAbout_same (journal : m.journal = l.journal) :
    m.linesAbout t = l.linesAbout t := by
  unfold linesAbout
  rw [journal]

/-- Lines about the task come last. -/
theorem linesAbout_own {new : List Write}
    (journal : m.journal = l.journal ++ new)
    (own : ∀ line ∈ new, line.about? = some t) :
    m.linesAbout t = l.linesAbout t ++ new := by
  have all : new.filter (fun line => line.about? == some t) = new :=
    List.filter_eq_self.mpr fun line mem => beq_iff_eq.mpr (own line mem)
  unfold linesAbout
  rw [journal, List.filter_append, all]

/-- The line of a write is about whom it is for. -/
theorem notes_about {s : SinkId} {origin : Origin} {r : SpanRecord}
    {line : Write} (mem : line ∈ l.notes s origin r) :
    line.about? = (⟨s, origin, r, none⟩ : Write).about? := by
  unfold notes at mem
  split at mem
  · cases mem
  · rw [List.mem_singleton.mp mem]
    rfl

/-- The journal only grows. -/
theorem journal_kept (l : Ledger) :
    Kept (fun _ => True) fun _ m => l.journal <+: m.journal :=
  .of_change fun {_ m _} h c => by
    cases c with
    | quiet q => cases q <;> exact h
    | enlisted | started | ended => exact h
    | concluded | reported | offered =>
        exact h.trans (List.prefix_append _ _)

/-- Where neither a line of the task comes nor a report to it, the lines about
it stay. -/
theorem linesAbout_of_parts (grows : l.journal <+: m.journal)
    (own : m.linesOf t = l.linesOf t)
    (reports : ∀ w, m.reportsOf t w = l.reportsOf t w) :
    m.linesAbout t = l.linesAbout t := by
  obtain ⟨new, journal⟩ := grows
  have gone {p : Write → Bool}
      (same : m.journal.filter p = l.journal.filter p) :
      ∀ line ∈ new, p line = false := by
    rw [← journal, List.filter_append] at same
    have none := List.append_right_eq_self.mp same
    intro line mem
    exact Bool.eq_false_iff.mpr (List.filter_eq_nil_iff.mp none line mem)
  refine linesAbout_append journal.symm fun line mem about => ?_
  unfold Write.about? at about
  cases origin : line.origin with
  | direct =>
      rw [origin] at about
      cases about
  | task u =>
      rw [origin] at about
      obtain rfl := Option.some.inj about
      have other := gone own line mem
      rw [origin, beq_self_eq_true] at other
      cases other
  | worker u w =>
      rw [origin] at about
      obtain rfl := Option.some.inj about
      have other := gone (reports w) line mem
      rw [origin, beq_self_eq_true] at other
      cases other

-- =================================================================== apart

/-- From `l` to `m`, nothing happened to a task: it is as it was, no line came
about it, and it kept its place in the registry, if it had one. -/
structure Apart (path : String) (t : TaskId) (l m : Ledger) : Prop where
  task : m.tasks[t]? = l.tasks[t]?
  lines : m.linesAbout t = l.linesAbout t
  registered : m.registered? path = some t ↔ l.registered? path = some t

theorem Apart.refl (path : String) (t : TaskId) (l : Ledger) :
    Apart path t l l :=
  ⟨rfl, rfl, .rfl⟩

theorem Apart.trans (h : Apart path t l m) (k : Apart path t m n) :
    Apart path t l n :=
  ⟨k.task.trans h.task, k.lines.trans h.lines,
    k.registered.trans h.registered⟩

/-- From `l` to `m`, no clock moved, and nothing happened to some workers.
Others may have come, and tasks. -/
structure Beside (ws : List WorkerId) (l m : Ledger) : Prop where
  now : m.now = l.now
  wall : m.wall = l.wall
  workers : ∀ w ∈ ws, m.workers[w]? = l.workers[w]?
  tasks : l.tasks.size ≤ m.tasks.size
  staff : l.workers.size ≤ m.workers.size

/-- The ledger's sink is the same all the time. -/
theorem sink_kept (l : Ledger) :
    Kept (fun _ => True) fun _ m => m.sink = l.sink :=
  .of_change fun {_ m _} h c => by
    cases c with
    | quiet q => cases q <;> exact h
    | _ => exact h

/-- Without a number, no sink changes and no task comes. -/
theorem tables_kept (l : Ledger) :
    Kept (fun _ => True) fun b m =>
      b = 0 ∧ m.sinks = l.sinks ∧ m.tasks.size = l.tasks.size where
  spare := fun h => absurd h.1 (Nat.succ_ne_zero _)
  change := by
    rintro a b k m ⟨none, sinks, size⟩ c
    obtain ⟨rfl, rfl⟩ := Nat.add_eq_zero_iff.mp none
    refine ⟨rfl, ?_⟩
    cases c with
    | quiet q =>
        cases q with
        | clock | aside | hired => exact ⟨sinks, size⟩
        | turned => exact ⟨sinks, Array.size_modify.trans size⟩
    | concluded | enlisted => exact ⟨sinks, Array.size_modify.trans size⟩
    | started | ended | offered => exact ⟨sinks, size⟩

/-- From `l` to `m`, no clock moved, no worker did, no task came, and no number
was taken. -/
structure Still (l m : Ledger) : Prop extends AtOnce l m where
  sinks : m.sinks = l.sinks
  sink : m.sink = l.sink
  size : m.tasks.size = l.tasks.size

theorem Still.counter (h : Still l m) : m.counter = l.counter := by
  unfold Ledger.counter
  rw [h.sinks, h.sink]

/-- What happens at one moment and takes no number. -/
structure Swift (l m : Ledger) : Prop extends AtOnce l m where
  settles : ∃ n, Settles l n 0 m

theorem Swift.trans (h : Swift l m) (k : Swift m n) : Swift l n :=
  { h.toAtOnce.trans k.toAtOnce with
    settles :=
      let ⟨_, first⟩ := h.settles
      let ⟨_, last⟩ := k.settles
      ⟨_, first.trans last⟩ }

theorem Swift.still (h : Swift l m) : Still l m :=
  let ⟨_, settles⟩ := h.settles
  have tables := (tables_kept l).settles (b := 0) settles ⟨rfl, rfl, rfl⟩
  { h.toAtOnce with
    sinks := tables.2.1
    sink := (sink_kept l).settles (b := 0) settles rfl
    size := tables.2.2 }

/-- It passes a task by if it leaves that alone. -/
structure Passed (path : String) (t : TaskId) (l m : Ledger) : Prop
    extends Apart path t l m, Swift l m

theorem Passed.trans (h : Passed path t l m) (k : Passed path t m n) :
    Passed path t l n :=
  { h.toApart.trans k.toApart, h.toSwift.trans k.toSwift with }

theorem passed_of_spared {a : Nat} (spared : Spared t l m)
    (settles : Settles l a 0 m) (atOnce : AtOnce l m)
    (registered : m.registered? path = some t ↔ l.registered? path = some t) :
    Passed path t l m :=
  { atOnce with
    task := spared.task
    lines := linesAbout_of_parts
      ((journal_kept l).settles (b := 0) settles (List.prefix_refl _))
      spared.lines (settles.calm.reports t)
    registered
    settles := ⟨a, settles⟩ }

-- ================================================================== sweeps

/-- Going over paths under which the task is not registered. -/
theorem passed_flushOver {paths : List String}
    (other : ∀ q ∈ paths, l.registered? q ≠ some t) :
    Passed path t l (l.flushOver paths).1 := by
  refine passed_of_spared (spared_flushOver other)
    (settles_countOver settles_settle paths l)
    (atOnce_countOver atOnce_settle paths l) ?_
  rw [registered?_flushOver]
  split
  · next mem =>
      exact ⟨fun none => (by cases none), fun here => absurd here (other _ mem)⟩
  · exact .rfl

/-- Wrapping up other tasks. -/
theorem passed_wrapUps {ts : List TaskId} (other : t ∉ ts ∨ Over t l) :
    Passed path t l (countOver wrapUp ts l).1 := by
  refine passed_of_spared (spared_wrapUps ts other)
    (settles_countOver settles_wrapUp ts l)
    (atOnce_countOver atOnce_wrapUp ts l) ?_
  have same : (countOver wrapUp ts l).1.registry = l.registry :=
    countOver_keeps (P := fun m => m.registry = l.registry)
      (fun u m h => (wrapUp_registry u m).trans h) ts rfl
  unfold registered?
  rw [same]

/-- A report that a path is done under which the task is not registered. -/
theorem passed_finishTask {q : String} (other : l.registered? q ≠ some t) :
    Passed path t l (l.finishTask q).1 := by
  refine passed_of_spared
    (spared_finishTask fun u registered => .inl fun same =>
      other (same ▸ registered))
    (settles_finishTask q l) (atOnce_finishTask q l) ?_
  by_cases same : path = q
  · subst same
    exact ⟨registered?_finishTask, fun here => absurd here other⟩
  · rw [registered?_finishTask_other same]

/-- A flush passes a task by that is not ready. -/
theorem passed_flush (single : Single l)
    (other : ∀ q, l.registered? q = some t → l.ready t = false) :
    Passed path t l l.flush.1 := by
  refine passed_flushOver fun q mem here => ?_
  obtain ⟨u, registered, ready⟩ := (mem_readyPaths single).mp mem
  rw [here] at registered
  obtain rfl := Option.some.inj registered
  rw [other q here] at ready
  cases ready

/-- Where it comes to the task, it passes it by before and after. -/
theorem flush_parts (homed : Homed l) (here : l.registered? path = some t)
    (ready : l.ready t = true) :
    ∃ l₁, Passed path t l l₁
      ∧ Passed path t (l₁.settle path).1 l.flush.1 := by
  obtain ⟨before, after, split, fresh⟩ :=
    List.eq_append_cons_of_mem (mem_readyPaths_of here ready)
  refine ⟨(l.flushOver before).1, passed_flushOver fun q mem there => ?_, ?_⟩
  · rw [homed.only here there] at mem
    exact fresh mem
  · unfold flush
    rw [split]
    unfold flushOver
    rw [countOver_append]
    refine passed_flushOver (l := ((l.flushOver before).1.settle path).1)
      fun q _ there => ?_
    rw [registered?_settle_eq] at there
    split at there
    · cases there
    · next ne =>
        rw [registered?_flushOver] at there
        split at there
        · cases there
        · exact ne (homed.only here there)

/-- A registry that the task is not in may as well be empty. -/
theorem passed_emptied (other : l.registered? path ≠ some t) :
    Passed path t l { l with registry := [] } where
  task := rfl
  lines := rfl
  registered := ⟨fun none => (by cases none), fun here => absurd here other⟩
  now := rfl
  wall := rfl
  workers := rfl
  settles := ⟨0, (Quiet.aside l.wall l.tree l.marks l.warnings []).settles⟩

/-- The end of the build passes a task by that is not registered. -/
theorem passed_endBuild (single : Single l)
    (other : ∀ q, l.registered? q ≠ some t) :
    Passed path t l l.endBuild.1 := by
  refine (passed_emptied (other path)).trans (passed_wrapUps (.inl ?_))
  intro mem
  obtain ⟨⟨q, u⟩, listed, rfl⟩ := List.mem_map.mp mem
  exact other q (lookup_of_mem single (List.mem_mergeSort.mp listed))

/-- Where it comes to the task, the registry is empty already. -/
theorem endBuild_parts (known : Known t l)
    (here : l.registered? path = some t) :
    ∃ l₁, Passed path t { l with registry := [] } l₁
      ∧ Passed path t (l₁.wrapUp t).1 l.endBuild.1 := by
  have mem : t ∈ l.byId.map Prod.snd := by
    have sorted : (path, t) ∈ l.byId :=
      List.mem_mergeSort.mpr (mem_of_lookup here)
    exact List.mem_map_of_mem (f := Prod.snd) sorted
  obtain ⟨before, after, split, fresh⟩ := List.eq_append_cons_of_mem mem
  have first : Passed path t { l with registry := [] }
      (countOver wrapUp before { l with registry := [] }).1 :=
    passed_wrapUps (.inl fresh)
  refine ⟨_, first, ?_⟩
  unfold endBuild drainOver
  rw [split, countOver_append]
  refine passed_wrapUps (.inr (wrapUp_over ?_))
  obtain ⟨task, found⟩ := known
  exact ⟨task, by rw [first.task]; exact found⟩

-- =============================================================== operations

end Ledger

namespace LedgerOp

open Ledger

variable {op : LedgerOp} {l : Ledger} {t : TaskId} {path : String}
  {ws : List WorkerId}

/-- What moves no clock and is elsewhere goes on beside these workers. -/
theorem beside_apply (timeless : op.takesTime = false)
    (elsewhere : op.elsewhere path t ws = true)
    (present : ∀ w ∈ ws, w < l.workers.size) :
    Beside ws l (op.apply l).1 where
  now := (now_apply timeless l).1
  wall := (now_apply timeless l).2
  workers := by
    intro w mem
    have found := Array.getElem?_eq_getElem (present w mem)
    rw [worker_elsewhere elsewhere mem found, found]
  tasks := size_le_of_old fun found =>
    let ⟨task, found, _⟩ := task_apply op found
    ⟨task, found⟩
  staff := size_le_of_old fun found => ⟨_, worker_apply op found⟩

/-- What moves no clock and no worker and takes no number. -/
theorem swift_apply {o : LedgerOp} (timeless : o.takesTime = false)
    (idle : o.staffing = false) (others : o.single = false)
    (free : o.numbers = 0) (l : Ledger) : Swift l (o.apply l).1 :=
  { atOnce_apply timeless idle l with
    settles := ⟨_, free ▸ settles_apply others l⟩ }

/-- What is not the scheduler's brings a line about a task only if it is for
the task. -/
theorem linesAbout_apply (others : op.scheduling = false)
    (aside : op.entry? ≠ some (.task t)) :
    (op.apply l).1.linesAbout t = l.linesAbout t := by
  have ne {u : TaskId} (is : op.entry? = some (.task u)) : u ≠ t := by
    rintro rfl
    exact aside is
  -- a line comes by a report, by a span that is written, or by hand
  cases op with
  | startTask | finishTask | flush | endBuild => cases others
  | setClock ms =>
      refine linesAbout_same ?_
      show (l.setClock ms).1.journal = _
      unfold Ledger.setClock
      split <;> rfl
  | advance ms ns =>
      refine linesAbout_same ?_
      show (l.advance ms ns).1.journal = _
      unfold Ledger.advance
      split <;> rfl
  | setWall | addWorker | startWorker | endWorker => rfl
  | addTask path project variant =>
      refine linesAbout_same ?_
      show (l.addTask path project variant l.sink).1.journal = _
      rcases addTask_cases path project variant l with ⟨f, he⟩ | ⟨id, -, he⟩
      · rw [he]
      · rw [he]
  | await e | close e | finish e | attach e => cases e <;> rfl
  | conclude e =>
      cases e with
      | untracked => rfl
      | task u =>
          show (l.conclude u).1.linesAbout t = _
          rcases conclude_cases u l with ⟨-, he⟩ | ⟨_, _, _, -, -, he⟩
          · rw [he]
          · rw [he]
            refine linesAbout_append rfl fun line mem about => ?_
            rw [notes_about mem] at about
            exact ne rfl (Option.some.inj about)
  | enlist e key kind =>
      cases e with
      | untracked => rfl
      | task u =>
          refine linesAbout_same ?_
          show (l.enlist u key kind).journal = _
          rcases enlist_cases u key kind l with ⟨-, he⟩ | ⟨_, -, he⟩
          · rw [he]
          · rw [he]
  | lookUp e key =>
      refine linesAbout_same ?_
      cases e with
      | untracked => rfl
      | task u =>
          show (l.lookUp u key).1.journal = _
          unfold Ledger.lookUp
          split <;> rfl
  | report e w =>
      cases e with
      | untracked => rfl
      | task u =>
          show (l.report u w).1.linesAbout t = _
          rcases report_cases u w l with ⟨-, he⟩
              | ⟨_, _, _, -, -, -, he⟩ | ⟨_, _, _, _, _, _, -, -, -, -, he⟩
          · rw [he]
          · rw [he]
            exact linesAbout_same rfl
          · rw [he]
            refine linesAbout_append rfl fun line mem about => ?_
            rw [notes_about mem] at about
            exact ne rfl (Option.some.inj about)
  | allocate =>
      refine linesAbout_same ?_
      show (l.allocate l.sink).1.journal = _
      rw [allocate_fst]
  | write r =>
      obtain ⟨tree, he⟩ := write_fst l.sink .direct r l
      have written : (l.write l.sink .direct r).1.linesAbout t
          = l.linesAbout t := by
        rw [he]
        refine linesAbout_append rfl fun line mem about => ?_
        rw [notes_about mem] at about
        cases about
      unfold apply
      dsimp only
      split
      · next is => rwa [is] at written
      · next is => rwa [is] at written

/-- An operation for other tasks and other paths goes on apart from a task
that is at home under its path. -/
theorem apart_apply {task : Task} (found : l.tasks[t]? = some task)
    (homed : Homed l) (own : task.path = path)
    (elsewhere : op.elsewhere path t ws = true) :
    Apart path t l (op.apply l).1 := by
  -- by hand, to another entry; by the scheduler, to another path
  cases scheduling : op.scheduling with
  | false =>
      have aside : op.entry? ≠ some (.task t) := by
        cases op with
        | startTask | finishTask | flush | endBuild => cases scheduling
        | startWorker | endWorker => exact fun is => by cases is
        | _ => exact bne_iff_ne.mp elsewhere
      refine ⟨?_, linesAbout_apply scheduling aside, ?_⟩
      · rw [task_aside scheduling aside found, found]
      · unfold registered?
        rw [registry_apply scheduling]
  | true =>
      cases op with
      | startTask p project variant =>
          have ne : path ≠ p := (bne_iff_ne.mp elsewhere).symm
          show Apart path t l (l.startTask p project variant).1
          refine ⟨(startTask_task p project variant found).trans found.symm,
            ?_, ?_⟩
          · rcases startTask_cases p project variant l with ⟨f, he⟩
                | ⟨id, marks, warnings, -, he⟩
            · rw [he]
              rfl
            · rw [he]
              rfl
          · rcases startTask_cases p project variant l with ⟨f, he⟩
                | ⟨id, marks, warnings, -, he⟩
            · rw [he]
              rfl
            · rw [he]
              show List.lookup path _ = _ ↔ _
              rw [lookup_replaced, if_neg ne]
              rfl
      | finishTask p =>
          have ne : p ≠ path := bne_iff_ne.mp elsewhere
          refine (passed_finishTask fun here => ?_).toApart
          obtain ⟨other, found', there⟩ := homed p t here
          rw [found] at found'
          obtain rfl := Option.some.inj found'
          exact ne (there.symm.trans own)
      | flush | endBuild => cases elsewhere
      | _ => cases scheduling

end LedgerOp

-- ================================================================= counter

namespace Ledger

/-- The sink is there, `c` of its numbers and more were handed out, and `b`
are left. -/
def Counting (c b : Nat) (l : Ledger) : Prop :=
  ∃ k, l.sinks[l.sink]? = some k ∧ c ≤ k.last.toNat
    ∧ k.last.toNat + b ≤ Sink.largestId.toNat

variable {l : Ledger} {c b : Nat}

theorem Counting.number (h : Counting c (1 + b) l) (s : SinkId) :
    Counting c b { l with
      sinks := l.sinks.modify s fun k => k.next.1 } := by
  obtain ⟨k, old, low, room⟩ := h
  obtain ⟨k', sink, rfl | rfl⟩ := sink_numbered old s
  · exact ⟨k', sink, low, by omega⟩
  · obtain ⟨step, value⟩ := Sink.next_of_lt (k := k) (n := b) (by omega)
    refine ⟨k.next.1, sink, ?_, ?_⟩
    · rw [step]
      dsimp only
      omega
    · rw [step]
      dsimp only
      omega

theorem counting_kept (c : Nat) : Kept (fun _ => True) (Counting c) where
  spare := fun ⟨k, sink, low, room⟩ => ⟨k, sink, low, by omega⟩
  change := by
    intro a b l m h c
    cases c with
    | quiet q =>
        cases q with
        | clock | aside | hired | turned => rwa [Nat.zero_add] at h
        | number s => exact h.number s
        | opened => exact h.number l.sink
    | concluded | enlisted | started | ended | offered =>
        rwa [Nat.zero_add] at h
    | reported => exact h.number _

/-- The number that is handed out next. -/
theorem allocate_counting (h : Counting c 1 l) :
    ∃ id k, l.allocate l.sink
        = ({ l with sinks := l.sinks.modify l.sink fun k => k.next.1 },
            .ok id)
      ∧ id.toNat = l.counter + 1
      ∧ counter { l with sinks := l.sinks.modify l.sink fun k => k.next.1 }
        = l.counter + 1
      ∧ l.sinks[l.sink]? = some k ∧ k.next.2 = .ok id := by
  obtain ⟨k, sink, -, room⟩ := h
  obtain ⟨step, value⟩ := Sink.next_of_lt (k := k) (n := 0) (by omega)
  have first := allocate_fst l.sink l
  refine ⟨k.last + 1, k, ?_, ?_, ?_, sink, congrArg Prod.snd step⟩
  · refine Prod.ext first ?_
    unfold allocate
    rw [sink]
    dsimp only
    rw [step]
  · unfold counter
    rw [sink]
    exact value
  · unfold counter
    dsimp only
    rw [Array.getElem?_modify, if_pos rfl, sink, Option.map_some,
      Option.map_some, Option.map_some, step]
    exact value

theorem Counting.le (h : Counting c b l) :
    c ≤ l.counter ∧ l.counter + b ≤ Sink.largestId.toNat := by
  obtain ⟨k, sink, low, room⟩ := h
  unfold counter
  rw [sink]
  exact ⟨low, room⟩

end Ledger

end TaskLedger
