/-
What holds of a ledger all through a simulated build.

The tasks of a build are numbered as they are started, and each has the path
of its number (`Footing.named`), so no start puts another task out of the
registry. Whatever the threads of the pool and the scheduler do keeps the rest
(`Footing.apply`): numbers and lines are in order as long as there are numbers,
and the file has a line for each entry of the journal. A start brings one task
more (`Footing.start`).
-/
import Std.Data.String.ToNat
import TaskLedger.Command.Simulate
import TaskLedger.Proofs.Ledger.ElapsedTime
import TaskLedger.Proofs.Ledger.UntouchedTasks
import TaskLedger.Proofs.Ledger.SessionLinks

namespace TaskLedger

open Simulate

/-- Different tasks have different paths. -/
theorem pathOf_inj {s t : Nat} (same : pathOf s = pathOf t) : s = t := by
  have digits : (":app:step" : String).toList ++ (Nat.repr s).toList
      = (":app:step" : String).toList ++ (Nat.repr t).toList := by
    have same := congrArg String.toList same
    simpa [pathOf] using same
  exact Nat.repr_inj.mp
    (String.toList_inj.mp (List.append_cancel_left digits))

namespace Ledger

-- ================================================================== worded

/-- A task's own line is about it. -/
def Worded (l : Ledger) : Prop :=
  ∀ w ∈ l.journal, ∀ t, w.origin = .task t →
    ∃ task, l.tasks[t]? = some task ∧ w.record.span.kind = .task
      ∧ w.record.span.task = some task.path ∧ w.record.variant = task.variant

theorem Worded.append {l m : Ledger} (h : Worded l) {new : List Write}
    (tasks : ∀ {t : TaskId} {task : Task}, l.tasks[t]? = some task →
      ∃ task', m.tasks[t]? = some task' ∧ task.Same task')
    (journal : m.journal = l.journal ++ new)
    (own : ∀ w ∈ new, ∀ t, w.origin = .task t →
      ∃ task, l.tasks[t]? = some task ∧ w.record.span.kind = .task
        ∧ w.record.span.task = some task.path
        ∧ w.record.variant = task.variant) : Worded m := by
  intro w mem t origin
  have known : ∃ task, l.tasks[t]? = some task ∧ w.record.span.kind = .task
      ∧ w.record.span.task = some task.path
      ∧ w.record.variant = task.variant := by
    rw [journal] at mem
    rcases List.mem_append.mp mem with old | new
    · exact h w old t origin
    · exact own w new t origin
  obtain ⟨task, found, kind, path, variant⟩ := known
  obtain ⟨task', found', same⟩ := tasks found
  exact ⟨task', found', kind, path.trans (congrArg some same.path.symm),
    variant.trans same.variant.symm⟩

theorem worded_kept : Kept (fun _ => True) fun _ l => Worded l :=
  .of_change fun {a l m} h c => by
    have tasks {t : TaskId} {task : Task} (found : l.tasks[t]? = some task) :
        ∃ task', m.tasks[t]? = some task' ∧ task.Same task' := by
      obtain ⟨task', found', same, -⟩ := c.task found
      exact ⟨task', found', same⟩
    have bare {s : SinkId} {o : Origin} {r : SpanRecord}
        (other : ∀ t, o ≠ .task t) : ∀ w ∈ l.notes s o r, ∀ t,
        w.origin = .task t → ∃ task, l.tasks[t]? = some task
          ∧ w.record.span.kind = .task
          ∧ w.record.span.task = some task.path
          ∧ w.record.variant = task.variant := by
      intro w mem t origin
      unfold notes at mem
      split at mem
      · cases mem
      · obtain rfl := List.mem_singleton.mp mem
        exact absurd origin (other t)
    cases c with
    | quiet q =>
        have journal : m.journal = l.journal := by cases q <;> rfl
        exact h.append tasks (journal.trans (List.append_nil _).symm)
          fun w mem => by cases mem
    | @concluded t task found opened =>
        refine h.append tasks rfl fun w mem t' origin => ?_
        unfold notes at mem
        split at mem
        · cases mem
        · obtain rfl := List.mem_singleton.mp mem
          obtain rfl := Origin.task.inj origin
          exact ⟨task, found, rfl, rfl, rfl⟩
    | enlisted | started | ended =>
        exact h.append tasks (List.append_nil _).symm
          fun w mem => by cases mem
    | reported => exact h.append tasks rfl (bare fun _ e => by cases e)
    | offered => exact h.append tasks rfl (bare fun _ e => by cases e)

/-- Where the sink has a number, a task that starts comes last in the table
and is registered. -/
theorem startTask_stocked {b : Nat} {l : Ledger} (h : Stocked (1 + b) l)
    (path project : String) (variant : Option String) :
    ∃ l' id, l.startTask path project variant = (l', .ok l.tasks.size)
      ∧ l'.tasks = l.tasks.push
          { path, project, variant, id, sink := l.sink, start := l.now }
      ∧ l'.registered? path = some l.tasks.size ∧ l'.now = l.now := by
  rcases startTask_cases path project variant l with ⟨f, he⟩
      | ⟨id, marks, warnings, -, he⟩
  · obtain ⟨k, sink, -, room⟩ := h.supply
    rw [Nat.add_comm] at room
    have next : (l.allocate l.sink).2 = .ok (k.last + 1) := by
      unfold allocate
      rw [sink]
      exact congrArg Prod.snd (Sink.next_of_lt (n := b) (by omega)).1
    unfold startTask addTask at he
    cases taken : l.allocate l.sink with
    | mk m answer =>
        rw [taken] at next he
        rw [show answer = .ok (k.last + 1) from next] at he
        dsimp only at he
        split at he
        · cases congrArg Prod.snd he
        · cases congrArg Prod.snd he
  · refine ⟨_, id, he, rfl, ?_, rfl⟩
    show List.lookup path _ = _
    rw [lookup_replaced, if_pos rfl]

end Ledger

-- ================================================================= footing

namespace LedgerOp

/-- What threads, tasks and the scheduler do, starts apart. -/
def domestic : LedgerOp → Bool
  | startTask .. | addTask .. | allocate | write _ => false
  | op => op.forward

variable {op : LedgerOp}

theorem forward_of_domestic (h : op.domestic = true) : op.forward = true := by
  cases op with
  | startTask | addTask | allocate | write => cases h
  | _ => exact h

/-- Beside starts nothing brings a task. -/
theorem size_of_domestic (h : op.domestic = true) (l : Ledger) :
    (op.apply l).1.tasks.size = l.tasks.size := by
  cases op with
  | startTask | addTask | allocate | write => cases h
  | report e w =>
      cases e with
      | untracked => rfl
      | task t =>
          show (l.report t w).1.tasks.size = _
          rcases Ledger.report_cases t w l with ⟨-, he⟩
              | ⟨_, _, _, -, -, -, he⟩ | ⟨_, _, _, _, _, _, -, -, -, -, he⟩
          · rw [he]
          · rw [he]
          · rw [he]
            exact Array.size_modify
  | _ => exact size_apply rfl l

end LedgerOp

/-- What a build goes on from: which file it writes to and what is in it, the
last number that was handed out, how many numbers the build takes, and how many
milliseconds the units of one task take together. -/
structure Ground where
  path : String
  place : Files.Place
  old : List SpanRecord
  last : Nat
  numbers : Nat
  longest : Nat

/-- What holds of the ledger of a build once `t` tasks were started, while
`b` more numbers are asked for. -/
structure Footing (G : Ground) (t b : Nat) (l : Ledger) : Prop where
  tasks : l.tasks.size = t
  named : ∀ {i : TaskId} {task : Task}, l.tasks[i]? = some task →
    task.path = pathOf i ∧ task.variant = some "debug"
  homed : l.Homed
  held : ∀ i < t, Ledger.Held i l
  filed : l.Filed b
  numbered : l.Numbered G.last (G.last + G.numbers) b
  inscribed : Stint.Inscribed G.path G.place G.old l
  worded : l.Worded

namespace Footing

open Ledger

variable {G : Ground} {t b : Nat} {l : Ledger} {op : LedgerOp}

/-- At the start nothing is on record. -/
theorem start_ (blank : l.Blank) {k : Sink}
    (sinks : l.sinks = #[k]) (sink : l.sink = 0)
    (outlet : k.outlet = .file G.path G.place)
    (takes : ∀ n r, k.refuses n r = none) (last : k.last.toNat = G.last)
    (room : G.last + G.numbers ≤ Sink.largestId.toNat)
    (file : Files.Settled l.tree G.path G.place
      (G.old.flatMap SpanFile.line)) : Footing G 0 G.numbers l where
  tasks := by rw [blank.tasks]; rfl
  named found := by
    rw [blank.tasks] at found
    cases found
  homed := blank.homed
  held i lt := absurd lt (Nat.not_lt_zero i)
  filed := blank.filed ⟨k, by rw [sinks, sink]; rfl, takes, by
    rw [last]; exact room⟩
  numbered := by
    have counter : l.counter = G.last := by
      unfold counter
      rw [sinks, sink, ← last]
      rfl
    exact blank.numbered (Nat.le_of_eq counter.symm)
      (Nat.le_of_eq (by rw [counter]))
  inscribed := ⟨⟨k, sinks, outlet, takes⟩, by
    rw [blank.journal, List.map_nil, List.append_nil]
    exact file⟩
  worded w mem := by
    rw [blank.journal] at mem
    cases mem

/-- What is beside the tasks, the workers, the lines and the file does not
matter. -/
theorem noticed (h : Footing G t b l) (marks : List Mark)
    (warnings : List Warning) :
    Footing G t b { l with marks, warnings } := by
  have change : Change (fun _ => False) l 0 { l with marks, warnings } :=
    .quiet (.aside l.wall l.tree marks warnings l.registry)
  obtain ⟨filed, numbered⟩ := (numbered_kept G.last (G.last + G.numbers)).change₀
    ⟨h.filed, h.numbered⟩ change
  exact {
    tasks := h.tasks
    named := h.named
    homed := h.homed
    held := h.held
    filed
    numbered
    inscribed := (Stint.inscribed_tidy G.path G.place G.old).aside h.inscribed
      rfl rfl rfl
    worded := h.worded }

/-- Whatever threads, tasks and the scheduler do, starts apart. -/
theorem apply (h : Footing G t (op.numbers + b) l)
    (domestic : op.domestic = true) : Footing G t b (op.apply l).1 := by
  have size := LedgerOp.size_of_domestic domestic l
  have ours (r : SpanRecord) (is : op = .write r) : False := by
    subst is
    cases domestic
  have kept := numbered_kept G.last (G.last + G.numbers)
  obtain ⟨filed, numbered⟩ := kept.apply ours ⟨h.filed, h.numbered⟩
  refine {
    tasks := size.trans h.tasks
    named := ?_
    homed := LedgerOp.homed_apply h.homed
    held := fun i lt => LedgerOp.held_apply (h.held i lt) ?_
    filed
    numbered
    inscribed := (Stint.inscribed_tidy G.path G.place G.old).apply
      h.inscribed op
    worded := worded_kept.apply (b := b) (fun _ _ => trivial) h.worded }
  · intro i task' found
    have lt : i < l.tasks.size := by
      rw [← size]
      exact (Array.getElem?_eq_some_iff.mp found).1
    have old : l.tasks[i]? = some l.tasks[i] := Array.getElem?_eq_getElem lt
    obtain ⟨task, found', same⟩ := LedgerOp.task_apply op old
    obtain rfl : task = task' := Option.some.inj (found'.symm.trans found)
    obtain ⟨path, variant⟩ := h.named old
    exact ⟨same.path.trans path, same.variant.trans variant⟩
  · cases op with
    | startTask => cases domestic
    | _ => exact fun e => by cases e

/-- A whole list of such doings. -/
theorem run {ops : List LedgerOp}
    (h : Footing G t (LedgerOp.asked ops + b) l)
    (domestic : ∀ op ∈ ops, op.domestic = true) :
    Footing G t b (LedgerOp.run ops l).1 := by
  induction ops generalizing l with
  | nil => rwa [LedgerOp.asked, Nat.zero_add] at h
  | cons op rest ih =>
      obtain ⟨first, rest⟩ := List.forall_mem_cons.mp domestic
      rw [LedgerOp.asked, Nat.add_assoc] at h
      exact ih (h.apply first) rest

/-- The next task starts. -/
theorem start (h : Footing G t (1 + b) l) :
    ∃ l', l.startTask (pathOf t) ":app" (some "debug") = (l', .ok t)
      ∧ l'.registered? (pathOf t) = some t ∧ l'.now = l.now
      ∧ Footing G (t + 1) b l' := by
  have size := h.tasks
  obtain ⟨l', id, done, tasks, registered, now⟩ :=
    startTask_stocked h.filed.toStocked (pathOf t) ":app" (some "debug")
  rw [size] at done registered
  obtain ⟨op, is⟩ : ∃ op, op = LedgerOp.startTask (pathOf t) ":app"
    (some "debug") := ⟨_, rfl⟩
  have applied : (op.apply l).1 = l' := by
    subst is
    exact congrArg Prod.fst done
  have opens : op.opens l = some t := by
    subst is
    simp only [LedgerOp.opens, LedgerOp.apply, LedgerOp.apply.answer, done]
    rfl
  -- nobody else goes by the path of the task that starts
  have displaces (i : TaskId) (lt : i < t) : op.displaces l ≠ some i := by
    unfold LedgerOp.displaces
    rw [opens, is]
    intro registered
    obtain ⟨task, found, path⟩ := h.homed _ _ registered
    rw [(h.named found).1] at path
    exact Nat.ne_of_lt lt (pathOf_inj path)
  have ours (r : SpanRecord) (write : op = .write r) : False := by
    rw [is] at write
    cases write
  have room : l.Filed (op.numbers + b)
      ∧ l.Numbered G.last (G.last + G.numbers) (op.numbers + b) := by
    rw [is]
    exact ⟨h.filed, h.numbered⟩
  have kept := numbered_kept G.last (G.last + G.numbers)
  obtain ⟨filed, numbered⟩ := kept.apply ours room
  refine ⟨l', done, registered, now, ?_⟩
  rw [← applied] at tasks ⊢
  refine {
    tasks := by rw [tasks, Array.size_push, size]
    named := fun {i task} found => ?_
    homed := LedgerOp.homed_apply h.homed
    held := fun i lt => ?_
    filed
    numbered
    inscribed := (Stint.inscribed_tidy G.path G.place G.old).apply
      h.inscribed op
    worded := worded_kept.apply (b := 0) (fun _ _ => trivial) h.worded }
  · rw [tasks] at found
    rcases push_back found with old | ⟨rfl, rfl⟩
    · exact h.named old
    · exact ⟨by rw [size], rfl⟩
  · rcases Nat.lt_succ_iff_lt_or_eq.mp lt with lt | rfl
    · exact LedgerOp.held_apply (h.held i lt) (displaces i lt)
    · exact LedgerOp.held_of_opens opens

end Footing

end TaskLedger
