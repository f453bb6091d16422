/-
What the journal holds on behalf of tasks: exactly one line for a task
that is concluded, none for one that is open, and no two lines under one
number.

The invariant (`Filed`) stands on the sink. As long as the sink takes
everything and has numbers left (`Supplies`), numbers only grow, so the
numbers of the tasks rise with their place in the table; a wrapped counter
would hand out a number twice. Hence the invariant counts the numbers that
are still to come. The sink's own part of it (`Stocked`) holds whatever is
written, and a dispatch needs no more than that.
-/
import TaskLedger.Proofs.Ledger.Change

namespace TaskLedger

-- ================================================================ sinks

/-- While numbers are left, a sink gives the next one. -/
theorem Sink.next_of_lt {k : Sink} {n : Nat}
    (h : k.last.toNat + (n + 1) ≤ largestId.toNat) :
    k.next = ({ k with last := k.last + 1 }, .ok (k.last + 1))
      ∧ (k.last + 1).toNat = k.last.toNat + 1 := by
  have hmax : largestId.toNat = 18446744073709551615 := rfl
  constructor
  · unfold Sink.next
    rw [if_neg]
    intro e
    rw [e] at h
    omega
  · rw [UInt64.toNat_add]
    have one : (1 : UInt64).toNat = 1 := rfl
    omega

namespace Ledger

/-- A sink takes every record and has `n` numbers left. -/
def Supplies (s : SinkId) (n : Nat) (l : Ledger) : Prop :=
  ∃ k, l.sinks[s]? = some k ∧ (∀ i r, k.refuses i r = none)
    ∧ k.last.toNat + n ≤ Sink.largestId.toNat

theorem Supplies.mono {s : SinkId} {n p : Nat} {l : Ledger}
    (h : Supplies s n l) (le : p ≤ n) : Supplies s p l := by
  obtain ⟨k, hk, accepts, room⟩ := h
  exact ⟨k, hk, accepts, by omega⟩

/-- A write to a sink that takes everything is one line, and not refused. -/
theorem Supplies.notes {s : SinkId} {n : Nat} {l : Ledger}
    (h : Supplies s n l) (origin : Origin) (r : SpanRecord) :
    l.notes s origin r = [⟨s, origin, r, none⟩] := by
  obtain ⟨k, hk, accepts, -⟩ := h
  unfold Ledger.notes
  rw [hk]
  simp only [accepts]

/-- Taking a number, from whichever sink, leaves one less. -/
theorem Supplies.number {s : SinkId} {n : Nat} {l : Ledger}
    (h : Supplies s (1 + n) l) (s' : SinkId) :
    Supplies s n { l with sinks := l.sinks.modify s' fun k => k.next.1 } := by
  obtain ⟨k, hk, accepts, room⟩ := h
  obtain ⟨k', sink, rfl | rfl⟩ := sink_numbered hk s'
  · exact ⟨k', sink, accepts, by omega⟩
  · have next := Sink.next_of_lt (k := k) (n := n) (by omega)
    refine ⟨k.next.1, sink, ?_, ?_⟩
    · rw [refuses_next]; exact accepts
    · rw [next.1]
      show (k.last + 1).toNat + n ≤ _
      rw [next.2]
      omega

/-- The ledger's sink takes everything and has `b` numbers left, and every
task writes to it. -/
structure Stocked (b : Nat) (l : Ledger) : Prop where
  supply : Supplies l.sink b l
  home : ∀ {t : TaskId} {task : Task}, l.tasks[t]? = some task →
    task.sink = l.sink

namespace Stocked

variable {b : Nat} {l : Ledger}

theorem spare (h : Stocked (b + 1) l) : Stocked b l :=
  ⟨h.supply.mono (Nat.le_succ b), h.home⟩

/-- A number that is taken is one less to come. -/
theorem number (h : Stocked (1 + b) l) (s : SinkId) :
    Stocked b { l with sinks := l.sinks.modify s fun k => k.next.1 } :=
  ⟨h.supply.number s, h.home⟩

/-- A change of a task that stays with its sink takes none. -/
theorem modify (h : Stocked b l) (t : TaskId) {f : Task → Task}
    (same : ∀ task : Task, (f task).sink = task.sink) :
    Stocked b { l with tasks := l.tasks.modify t f } := by
  refine ⟨h.supply, ?_⟩
  intro u task' hu
  have hu : (l.tasks.modify t f)[u]? = some task' := hu
  rcases modify_cases hu with ⟨-, task, ht, rfl⟩ | ⟨-, prior⟩
  · rw [same]
    exact h.home ht
  · exact h.home prior

/-- A new record takes one, which is its own. -/
theorem opened (h : Stocked (1 + b) l) {task : Task}
    (home : task.sink = l.sink) :
    Stocked b { l with
      sinks := l.sinks.modify l.sink fun k => k.next.1
      tasks := l.tasks.push task } := by
  refine ⟨h.supply.number l.sink, ?_⟩
  intro t c ht
  rcases push_back ht with prior | ⟨-, rfl⟩
  · exact h.home prior
  · exact home

end Stocked

/-- The sink stays stocked through every change, whatever is written to
it. -/
theorem stocked_kept : Kept (fun _ => True) Stocked where
  spare := Stocked.spare
  change := by
    intro a b l m h c
    cases c with
    | quiet q =>
        cases q with
        | clock | aside | hired => rw [Nat.zero_add] at h; exact { h with }
        | number s => exact h.number s
        | opened => exact h.opened rfl
        | turned t turn =>
            rw [Nat.zero_add] at h
            exact h.modify t fun task => (turn.same task).sink
    | @concluded t task =>
        rw [Nat.zero_add] at h
        exact { h.modify t (f := Task.concluded) (fun _ => rfl) with }
    | @enlisted t task key kind =>
        rw [Nat.zero_add] at h
        exact { h.modify t (f := Task.enlist key l.workers.size)
          (fun _ => rfl) with }
    | started | ended | offered => rw [Nat.zero_add] at h; exact { h with }
    | @reported t w task worker k id found present sink next =>
        have noted := (h.number task.sink).modify t
          (f := Task.noteReport l.now (l.idle task)) (fun task => by
            unfold Task.noteReport
            split <;> rfl)
        exact { noted with }

-- ============================================================ the invariant

/-- The journal and the table of tasks agree, while the ledger's sink takes
everything and has `b` numbers left. -/
structure Filed (b : Nat) (l : Ledger) : Prop extends Stocked b l where
  below : ∀ {t : TaskId} {task : Task} {k : Sink},
    l.tasks[t]? = some task → l.sinks[l.sink]? = some k →
    task.id.toNat ≤ k.last.toNat
  rising : ∀ {t u : TaskId} {a c : Task}, l.tasks[t]? = some a →
    l.tasks[u]? = some c → t < u → a.id.toNat < c.id.toNat
  kept : ∀ w ∈ l.journal, w.sink = l.sink ∧ w.refused = none
  /-- Only a task's own line has a task's path. -/
  named : ∀ w ∈ l.journal, w.record.span.task.isSome = true →
    ∃ t, w.origin = .task t
  own : ∀ w ∈ l.journal, ∀ t, w.origin = .task t →
    ∃ task, l.tasks[t]? = some task ∧ w.record.span.id = some task.id
      ∧ w.record.span.task.isSome = true
  once : ∀ {t : TaskId} {task : Task}, l.tasks[t]? = some task →
    l.journal.countP (fun w => w.origin == .task t)
      = if task.status.terminal then 1 else 0

namespace Filed

variable {b : Nat} {l : Ledger}

/-- Two tasks are never known by one number. -/
theorem id_inj (h : Filed b l) {t u : TaskId} {a c : Task}
    (ha : l.tasks[t]? = some a) (hc : l.tasks[u]? = some c)
    (same : a.id = c.id) : t = u := by
  rcases Nat.lt_trichotomy t u with lt | rfl | gt
  · have := h.rising ha hc lt
    rw [same] at this
    omega
  · rfl
  · have := h.rising hc ha gt
    rw [same] at this
    omega

theorem spare (h : Filed (b + 1) l) : Filed b l :=
  { h with toStocked := h.toStocked.spare }

/-- A number leaves the invariant alone: the tasks' numbers are below the
counter all the more. -/
theorem number (h : Filed (1 + b) l) (s : SinkId) :
    Filed b { l with sinks := l.sinks.modify s fun k => k.next.1 } where
  toStocked := h.toStocked.number s
  below := by
    intro t task k ht hk
    obtain ⟨k₀, hk₀, -, room⟩ := h.supply
    have le := h.below ht hk₀
    have next := Sink.next_of_lt (k := k₀) (n := b) (by omega)
    dsimp only at hk
    rw [Array.getElem?_modify, hk₀] at hk
    split at hk
    · obtain rfl : k₀.next.1 = k := by simpa using hk
      rw [next.1]
      show task.id.toNat ≤ (k₀.last + 1).toNat
      rw [next.2]
      omega
    · obtain rfl : k₀ = k := by simpa using hk
      exact le
  rising := h.rising
  kept := h.kept
  named := h.named
  own := h.own
  once := h.once

section

variable {t u v : TaskId} {f : Task → Task} {a c : Task} {k : Sink}

/-- Where a task is changed and stays the one it is, every entry of the new
table goes back to one of the old. -/
theorem modified_back (same : ∀ task : Task, task.Same (f task))
    (hu : (l.tasks.modify t f)[u]? = some a) :
    ∃ task, l.tasks[u]? = some task ∧ task.Same a := by
  rcases modify_cases hu with ⟨-, task, ht, rfl⟩ | ⟨-, prior⟩
  · exact ⟨task, ht, same task⟩
  · exact ⟨a, prior, .refl a⟩

/-- No task has a number that is still to be given, also after a change. -/
theorem below_modify (h : Filed b l)
    (same : ∀ task : Task, task.Same (f task))
    (hu : (l.tasks.modify t f)[u]? = some a)
    (hk : l.sinks[l.sink]? = some k) : a.id.toNat ≤ k.last.toNat := by
  obtain ⟨task, prior, s⟩ := modified_back same hu
  rw [s.id]
  exact h.below prior hk

/-- The numbers of tasks rise with their handles, also after a change. -/
theorem rising_modify (h : Filed b l)
    (same : ∀ task : Task, task.Same (f task))
    (hu : (l.tasks.modify t f)[u]? = some a)
    (hv : (l.tasks.modify t f)[v]? = some c) (lt : u < v) :
    a.id.toNat < c.id.toNat := by
  obtain ⟨_, hu, sa⟩ := modified_back same hu
  obtain ⟨_, hv, sc⟩ := modified_back same hv
  rw [sa.id, sc.id]
  exact h.rising hu hv lt

end

/-- A change of one task that leaves it the one it is, and open or
concluded as before, leaves the invariant alone. -/
theorem modify (h : Filed b l) (t : TaskId) {f : Task → Task}
    (same : ∀ task : Task, task.Same (f task))
    (terminal : ∀ task : Task,
      (f task).status.terminal = task.status.terminal) :
    Filed b { l with tasks := l.tasks.modify t f } := by
  refine { h with toStocked := h.toStocked.modify t fun c => (same c).sink,
                  below := h.below_modify same,
                  rising := h.rising_modify same, own := ?_, once := ?_ }
  · intro w hw u origin
    obtain ⟨task, hu, hid, path⟩ := h.own w hw u origin
    dsimp only
    rw [Array.getElem?_modify, hu]
    split
    · exact ⟨f task, rfl, by rw [hid, (same task).id], path⟩
    · exact ⟨task, rfl, hid, path⟩
  · intro u task' hu
    rcases modify_cases hu with ⟨-, task, ht, rfl⟩ | ⟨-, prior⟩
    · rw [terminal]
      exact h.once ht
    · exact h.once prior

/-- A line that is no task's own and has no task's path leaves the
invariant alone. -/
theorem append (h : Filed b l) {o : Origin} {r : SpanRecord}
    (other : ∀ t, o ≠ .task t) (bare : r.span.task = none) :
    Filed b { l with
      journal := l.journal ++ l.notes l.sink o r } := by
  rw [h.supply.notes]
  refine { h with kept := ?_, named := ?_, own := ?_, once := ?_ }
  · exact List.forall_mem_append.mpr
      ⟨h.kept, List.forall_mem_singleton.mpr ⟨rfl, rfl⟩⟩
  · refine List.forall_mem_append.mpr
      ⟨h.named, List.forall_mem_singleton.mpr fun path => ?_⟩
    simp [bare] at path
  · exact List.forall_mem_append.mpr
      ⟨h.own, List.forall_mem_singleton.mpr fun t origin =>
        absurd origin (other t)⟩
  · intro t task ht
    have zero : List.countP (fun w : Write => w.origin == .task t)
        [⟨l.sink, o, r, none⟩] = 0 := by
      simp [other t]
    show (l.journal ++ _).countP _ = _
    rw [List.countP_append, zero]
    exact h.once ht

/-- A new task has a number above all others and no line yet. -/
theorem opened (h : Filed (1 + b) l) {k : Sink} {task : Task}
    (sink : l.sinks[l.sink]? = some k) (next : k.next.2 = .ok task.id)
    (home : task.sink = l.sink) (opened : task.status.terminal = false) :
    Filed b { l with
      sinks := l.sinks.modify l.sink fun k => k.next.1
      tasks := l.tasks.push task } := by
  have numbered := h.number l.sink
  obtain ⟨k', hk', -, room⟩ := h.supply
  obtain rfl : k' = k := by rw [sink] at hk'; exact (Option.some.inj hk').symm
  have step := Sink.next_of_lt (k := k') (n := b) (by omega)
  have id_eq : k'.last + 1 = task.id := by
    rw [step.1] at next
    exact Except.ok.inj next
  rw [id_eq] at step
  -- the new number is above all the others, since the sink counts up
  have old {t : TaskId} {task : Task} (ht : l.tasks[t]? = some task) :
      t < l.tasks.size := (Array.getElem?_eq_some_iff.mp ht).1
  refine { numbered with toStocked := h.toStocked.opened home, below := ?_,
                         rising := ?_, own := ?_, once := ?_ }
  · intro t c k ht hk
    rcases push_back ht with prior | ⟨-, rfl⟩
    · exact numbered.below prior hk
    · dsimp only at hk
      rw [Array.getElem?_modify, if_pos rfl, sink] at hk
      obtain rfl : k'.next.1 = k := by simpa using hk
      exact Nat.le_of_eq (by rw [step.1])
  · intro t u a c ht hu lt
    rcases push_back ht with prior | ⟨here, rfl⟩
    · rcases push_back hu with prior' | ⟨-, rfl⟩
      · exact h.rising prior prior' lt
      · have := h.below prior sink
        omega
    · rcases push_back hu with prior' | ⟨here', -⟩
      · rw [here] at lt
        exact absurd lt (Nat.lt_asymm (old prior'))
      · rw [here, here'] at lt
        exact absurd lt (Nat.lt_irrefl _)
  · intro w hw t origin
    obtain ⟨c, ht, rest⟩ := h.own w hw t origin
    exact ⟨c, push_old ht, rest⟩
  · intro t c ht
    rcases push_back ht with prior | ⟨here, rfl⟩
    · exact h.once prior
    · rw [opened]
      show l.journal.countP _ = 0
      rw [List.countP_eq_zero]
      intro w hw e
      obtain ⟨c, prior, -⟩ := h.own w hw t (eq_of_beq e)
      exact absurd here (Nat.ne_of_lt (old prior))

/-- A conclusion writes the line that was missing. -/
theorem concluded (h : Filed b l) {t : TaskId} {task : Task}
    (found : l.tasks[t]? = some task)
    (opened : task.status.terminal = false) :
    Filed b (l.concluding t task) := by
  -- the sink takes the line
  have lines : l.notes task.sink (.task t)
      (task.record (task.span (l.crewOf task)) task.children)
      = [⟨l.sink, .task t,
          task.record (task.span (l.crewOf task)) task.children, none⟩] := by
    rw [h.home found]
    exact h.supply.notes _ _
  have same (task : Task) : task.Same task.concluded :=
    ⟨rfl, rfl, rfl, rfl, rfl, rfl⟩
  unfold concluding
  rw [lines]
  have stocked := h.toStocked.modify t (f := Task.concluded) (fun _ => rfl)
  refine { toStocked := { stocked with }, below := h.below_modify same,
           rising := h.rising_modify same, kept := ?_, named := ?_,
           own := ?_, once := ?_ }
  · exact List.forall_mem_append.mpr
      ⟨h.kept, List.forall_mem_singleton.mpr ⟨rfl, rfl⟩⟩
  · exact List.forall_mem_append.mpr
      ⟨h.named, List.forall_mem_singleton.mpr fun _ => ⟨t, rfl⟩⟩
  -- every line has its task, and the new one has this task
  · intro w hw u origin
    have kept {task₀ : Task} (hu : l.tasks[u]? = some task₀) :
        ∃ task', (l.tasks.modify t Task.concluded)[u]? = some task'
          ∧ task'.id = task₀.id := by
      rw [Array.getElem?_modify, hu]
      split
      · exact ⟨task₀.concluded, rfl, rfl⟩
      · exact ⟨task₀, rfl, rfl⟩
    rcases List.mem_append.mp hw with old | new
    · obtain ⟨task₀, hu, hid, path⟩ := h.own w old u origin
      obtain ⟨task', hu', e⟩ := kept hu
      exact ⟨task', hu', by rw [hid, e], path⟩
    · obtain rfl := List.mem_singleton.mp new
      obtain rfl : t = u := Origin.task.inj origin
      obtain ⟨task', hu', e⟩ := kept found
      exact ⟨task', hu', congrArg some e.symm, rfl⟩
  -- and every task that is over has one line
  · intro u task' hu
    show (l.journal ++ _).countP _ = _
    rw [List.countP_append, List.countP_singleton]
    rcases modify_cases hu with ⟨rfl, task₀, ht, rfl⟩ | ⟨ne, prior⟩
    · obtain rfl : task = task₀ := by rw [found] at ht; exact Option.some.inj ht
      rw [h.once ht, opened]
      simp [Task.concluded, TaskStatus.terminal]
    · rw [h.once prior]
      simp [ne]

end Filed

/-- The journal and the table agree through every change, as long as no
record with a task's path is written on nobody's behalf. -/
theorem filed_kept : Kept (fun r => r.span.task = none) Filed where
  spare := Filed.spare
  change := by
    -- only a number that is taken, a span and a report have a part in the files
    intro a b l m h c
    cases c with
    | quiet q =>
        cases q with
        | clock | aside | hired => rw [Nat.zero_add] at h; exact { h with }
        | number s => exact h.number s
        | opened sink next => exact h.opened sink next rfl rfl
        | turned t turn =>
            rw [Nat.zero_add] at h
            exact h.modify t turn.same turn.terminal
    | concluded found opened =>
        rw [Nat.zero_add] at h
        exact h.concluded found opened
    | @enlisted t task key kind found =>
        rw [Nat.zero_add] at h
        have entered := h.modify t (f := Task.enlist key l.workers.size)
          (fun _ => ⟨rfl, rfl, rfl, rfl, rfl, rfl⟩) (fun _ => rfl)
        exact { entered with }
    | started | ended => rw [Nat.zero_add] at h; exact { h with }
    | @reported t w task worker k id found present sink next =>
        have line := (h.number task.sink).append
          (o := .worker t w)
          (r := task.record (worker.span id task.id) [])
          (fun _ e => by cases e) rfl
        rw [notes_number] at line
        have noted := line.modify t (f := Task.noteReport l.now (l.idle task))
          (fun task => by
            unfold Task.noteReport
            split <;> exact ⟨rfl, rfl, rfl, rfl, rfl, rfl⟩)
          (fun task => by unfold Task.noteReport; split <;> rfl)
        rw [h.home found] at noted ⊢
        exact noted
    | offered offer =>
        rw [Nat.zero_add] at h
        exact h.append (fun _ e => by cases e) offer

end Ledger

end TaskLedger
