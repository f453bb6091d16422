/-
Every task that the scheduler starts gets its span, and gets it once.

Three accounts are kept of a run, and `task_spans_conserved` says that
they agree: the spans with a task's path that the sink took, the answers
that say a span was written, and the tasks that were started. The first
two agree at every moment. The third agrees whenever the build has just
ended: the registry is empty then, and a started task is without a span
only if a later start of its path threw it out of the registry.

The numbers come from `Filed`, the places in the registry from `Held`. Of
a task that is held when nothing is registered only one line is left to
say: it is concluded, so exactly one line of the journal is its own.
-/
import TaskLedger.Proofs.Ledger.Filing
import TaskLedger.Proofs.Ledger.Registered

namespace TaskLedger

namespace Ledger

/-- Nothing is on record yet. -/
structure Blank (l : Ledger) : Prop where
  tasks : l.tasks = #[]
  workers : l.workers = #[]
  journal : l.journal = []
  registry : l.registry = []

/-- The tasks' own spans among those that the ledger's sink took. -/
def taskSpans (l : Ledger) : List Span :=
  ((l.taken l.sink).map SpanRecord.span).filter fun s => s.task.isSome

-- ============================================================ the two counts

/-- The journal's lines with a task's path. -/
def ownLines (l : Ledger) : Nat :=
  l.journal.countP fun w => w.record.span.task.isSome

/-- An empty ledger is in order. -/
theorem Blank.filed {b : Nat} {l : Ledger} (h : l.Blank)
    (supply : Supplies l.sink b l) : Filed b l where
  toStocked := ⟨supply, by intro t task ht; simp [h.tasks] at ht⟩
  below := by intro t task k ht; simp [h.tasks] at ht
  rising := by intro t u a c ht; simp [h.tasks] at ht
  kept := by intro w hw; simp [h.journal] at hw
  named := by intro w hw; simp [h.journal] at hw
  own := by intro w hw; simp [h.journal] at hw
  once := by intro t task ht; simp [h.tasks] at ht

variable {b : Nat} {l : Ledger}

/-- Where the sink takes everything, it holds what the journal holds. -/
theorem Filed.taken (h : Filed b l) :
    l.taken l.sink = l.journal.map Write.record := by
  unfold Ledger.taken offered
  rw [List.filter_filter, List.filter_eq_self.mpr]
  intro w hw
  obtain ⟨home, free⟩ := h.kept w hw
  simp [home, Write.taken, free]

/-- Counting spans is counting lines. -/
theorem Filed.countP_taskSpans (h : Filed b l) (p : Span → Bool) :
    l.taskSpans.countP p
      = l.journal.countP fun w =>
          p w.record.span && w.record.span.task.isSome := by
  unfold taskSpans
  rw [h.taken, List.countP_filter, List.countP_map, List.countP_map]
  rfl

theorem Filed.length_taskSpans (h : Filed b l) :
    l.taskSpans.length = l.ownLines := by
  rw [← List.countP_true, h.countP_taskSpans]
  simp [ownLines]

/-- A task's lines are those with its number and a path. -/
theorem Filed.countP_id (h : Filed b l) {t : TaskId} {task : Task}
    (ht : l.tasks[t]? = some task) :
    l.taskSpans.countP (fun s => s.id == some task.id)
      = l.journal.countP fun w => w.origin == .task t := by
  rw [h.countP_taskSpans]
  refine List.countP_congr fun w hw => ?_
  rw [Bool.and_eq_true, beq_iff_eq, beq_iff_eq]
  constructor
  · rintro ⟨hid, path⟩
    obtain ⟨u, origin⟩ := h.named w hw path
    obtain ⟨other, hu, hid', -⟩ := h.own w hw u origin
    rw [hid] at hid'
    rw [origin, h.id_inj ht hu (Option.some.inj hid')]
  · intro origin
    obtain ⟨other, hu, hid, path⟩ := h.own w hw t origin
    rw [ht] at hu
    obtain rfl := Option.some.inj hu
    exact ⟨hid, path⟩

/-- No number is on two of the tasks' spans. -/
theorem Filed.nodup_ids (h : Filed b l) :
    (l.taskSpans.map Span.id).Nodup := by
  rw [List.nodup_iff_count]
  intro id
  rw [List.count, List.countP_map]
  by_cases some : ∃ s ∈ l.taskSpans, s.id = id
  · -- the number is that of the task whose line it is on
    obtain ⟨s, hs, rfl⟩ := some
    unfold taskSpans at hs
    rw [h.taken, List.mem_filter, List.mem_map] at hs
    obtain ⟨⟨r, hr, rfl⟩, path⟩ := hs
    obtain ⟨w, hw, rfl⟩ := List.mem_map.mp hr
    obtain ⟨t, origin⟩ := h.named w hw path
    obtain ⟨task, ht, hid, -⟩ := h.own w hw t origin
    rw [hid]
    refine Nat.le_trans (Nat.le_of_eq (h.countP_id ht)) ?_
    rw [h.once ht]
    split <;> omega
  · have none : l.taskSpans.countP ((fun i => i == id) ∘ Span.id) = 0 := by
      rw [List.countP_eq_zero]
      intro s hs e
      exact some ⟨s, hs, eq_of_beq e⟩
    omega

/-- Where nothing is registered, a held task has exactly one span. -/
theorem Held.one_span {t : TaskId} (held : Held t l)
    (filed : Filed b l) (empty : l.registry = []) :
    l.taskSpans.countP (fun s => s.id == some (l.spanIdOf t)) = 1 := by
  have isOver : Over t l := by
    rcases held with isOver | ⟨-, path, hp⟩
    · exact isOver
    · unfold registered? at hp
      rw [empty] at hp
      cases hp
  obtain ⟨task, ht, terminal⟩ := isOver
  have id : l.spanIdOf t = task.id := by
    unfold spanIdOf
    rw [ht]
    rfl
  rw [id, filed.countP_id ht, filed.once ht, if_pos terminal]

/-- A course adds a line for each task it concludes. -/
theorem Course.ownLines {ts : List TaskId} {a : Nat} {m : Ledger}
    (course : Course ts a l m) (h : Filed (a + b) l) :
    m.ownLines = l.ownLines + ts.length := by
  induction course generalizing b with
  | stay => rfl
  | quiet q rest ih =>
      rw [Nat.add_assoc] at h
      have next := filed_kept.change h (.quiet q)
      rw [ih next]
      cases q <;> rfl
  | @conclude ts a l n t task found opened rest ih =>
      rw [ih (h.concluded found opened)]
      have line : (l.concluding t task).ownLines = l.ownLines + 1 := by
        unfold concluding Ledger.ownLines
        rw [h.home found, h.supply.notes, List.countP_append]
        rfl
      rw [line, List.length_cons]
      omega

end Ledger

namespace LedgerOp

open Ledger

variable {b : Nat} {l : Ledger}

/-- An operation adds as many lines with a task's path as it answers. -/
theorem ownLines_apply {op : LedgerOp}
    (bare : ∀ r, op = .write r → r.span.task = none)
    (h : Filed (op.numbers + b) l) :
    (op.apply l).1.ownLines = l.ownLines + spansOf (op.apply l).2 := by
  cases hs : op.single with
  | false =>
      obtain ⟨ts, hlen, course⟩ := settles_apply hs l
      rw [course.ownLines h, hlen]
  | true =>
      -- a report writes a worker's line, and that is nobody's own
      cases op with
      | enlist e key kind =>
          cases e with
          | untracked => rfl
          | task t =>
              show (l.enlist t key kind).ownLines = _
              rcases enlist_cases t key kind l with ⟨-, he⟩ | ⟨_, -, he⟩
              · rw [he]; rfl
              · rw [he]; rfl
      | startWorker w => rfl
      | endWorker w => rfl
      | report e w =>
          cases e with
          | untracked => rfl
          | task t =>
              have answer : spansOf ((report (.task t) w).apply l).2 = 0 := by
                show spansOf ((l.report t w).2.map _) = 0
                cases (l.report t w).2 <;> rfl
              rw [answer]
              show (l.report t w).1.ownLines = _
              rcases report_cases t w l with ⟨-, he⟩
                  | ⟨task, _, _, -, -, -, he⟩
                  | ⟨task, worker, k, id, tree, warnings, ht, -, -, -, he⟩
              · rw [he]; rfl
              · rw [he]; rfl
              · rw [he]
                unfold Ledger.ownLines
                rw [h.home ht, h.supply.notes, List.countP_append]
                rfl
      | write r =>
          obtain ⟨tree, he⟩ := write_fst l.sink .direct r l
          have line : (l.write l.sink .direct r).1.ownLines = l.ownLines := by
            rw [he]
            unfold Ledger.ownLines
            rw [h.supply.notes, List.countP_append, List.countP_singleton]
            simp [bare r rfl]
          simp only [LedgerOp.apply]
          split
          · next hr => rw [hr] at line; exact line
          · next hr => rw [hr] at line; exact line
      | _ => cases hs

/-- Over a run, the lines with a task's path add up to the answers. -/
theorem ownLines_run {ops : List LedgerOp}
    (bare : ∀ op ∈ ops, ∀ r, op = .write r → r.span.task = none)
    (h : Filed (asked ops + b) l) :
    (run ops l).1.ownLines
      = l.ownLines + answered (run ops l).2 := by
  induction ops generalizing l with
  | nil => rfl
  | cons op rest ih =>
      rw [asked, Nat.add_assoc] at h
      have here := ownLines_apply (bare op List.mem_cons_self) h
      have next := filed_kept.apply (bare op List.mem_cons_self) h
      have later := ih (fun o ho => bare o (List.mem_cons_of_mem op ho)) next
      show (run rest (op.apply l).1).1.ownLines
        = _ + (spansOf (op.apply l).2
          + answered (run rest (op.apply l).1).2)
      rw [later, here]
      omega

/-- A run in two parts. -/
theorem run_append (ops more : List LedgerOp) (l : Ledger) :
    (run (ops ++ more) l).1 = (run more (run ops l).1).1 := by
  induction ops generalizing l with
  | nil => rfl
  | cons op rest ih => exact ih (op.apply l).1

-- ===================================================== the accounts agree

/-- From an empty ledger whose sink takes everything and has numbers left,
a run has as many spans of tasks in the sink as its answers say, and no two
of them under one number. If the build has just ended, nothing is
registered, and each task that was started and not displaced has exactly
one span. -/
theorem task_spans_conserved (ops : List LedgerOp) (l : Ledger)
    (blank : l.Blank) (supply : Supplies l.sink (asked ops) l)
    (bare : ∀ op ∈ ops, ∀ r, op = .write r → r.span.task = none) :
    (run ops l).1.taskSpans.length = answered (run ops l).2
      ∧ ((run ops l).1.taskSpans.map Span.id).Nodup
      ∧ ∀ before, ops = before ++ [.endBuild] →
          (run ops l).1.registry = []
          ∧ ∀ t ∈ opened ops l, t ∉ displaced ops l →
              (run ops l).1.taskSpans.countP (fun s =>
                s.id == some ((run ops l).1.spanIdOf t)) = 1 := by
  have start : Filed (asked ops + 0) l := blank.filed supply
  have filed : Filed 0 (run ops l).1 := filed_kept.run bare start
  refine ⟨?_, filed.nodup_ids, ?_⟩
  · have none : l.ownLines = 0 := by
      unfold ownLines
      rw [blank.journal]
      rfl
    rw [filed.length_taskSpans, ownLines_run bare start, none, Nat.zero_add]
  · intro before ended
    have empty : (run ops l).1.registry = [] := by
      rw [ended, run_append]
      exact endBuild_registry _
    refine ⟨empty, ?_⟩
    intro t started kept
    exact (held_of_opened started kept).one_span filed empty

/-- A path is started twice and another one finished, and then the build
ends: three starts, two spans. -/
theorem task_spans_conserved_restarted :
    let l : Ledger := { sinks := #[{ outlet := .memory }] }
    let ops : List LedgerOp :=
      [.startTask "a" "p" none, .startTask "b" "p" none,
        .startTask "a" "p" none, .finishTask "b", .endBuild]
    opened ops l = [0, 1, 2] ∧ displaced ops l = [0]
      ∧ (run ops l).1.taskSpans.length = 2 := by
  intro l ops
  have h := task_spans_conserved ops l ⟨rfl, rfl, rfl, rfl⟩
    ⟨_, rfl, fun _ _ => rfl, by decide⟩
    (by intro op hop r e; subst e; simp [ops] at hop)
  refine ⟨by decide +kernel, by decide +kernel, ?_⟩
  rw [h.1]
  decide +kernel

end LedgerOp

end TaskLedger
