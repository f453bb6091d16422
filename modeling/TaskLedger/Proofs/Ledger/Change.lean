/-
The changes that move a worker or a crew, and what a whole run keeps.

`Change` adds to the quiet changes and the conclusions the five that
`Course` leaves out. A report is one change: its number, its line in the
journal and the task's note of it come together or, without a number, not
at all. Which records are written on nobody's behalf is up to the caller,
so it is a parameter (`Offer`).

`Kept.apply` and `Kept.run` are the induction of this theory, done once: a
property that every single change keeps holds after every operation and
after every run. It may speak of the numbers still to be asked for, so
that a sink which has enough of them never wraps around.
-/
import TaskLedger.Proofs.Ledger.Course

namespace TaskLedger

-- =============================================================== tables

section

variable {α : Type} {table : Array α} {a b : α} {i : Nat}

theorem push_old (h : table[i]? = some a) : (table.push b)[i]? = some a := by
  have lt := (Array.getElem?_eq_some_iff.mp h).1
  rw [Array.getElem?_push, if_neg (Nat.ne_of_lt lt), h]

/-- What is in a table that something was added to was there before, or is
what was added. -/
theorem push_back (h : (table.push b)[i]? = some a) :
    table[i]? = some a ∨ i = table.size ∧ a = b := by
  rw [Array.getElem?_push] at h
  split at h
  · next e => exact .inr ⟨e, (Option.some.inj h).symm⟩
  · exact .inl h

/-- What is in a table after a change of one place is the changed entry, or
stands elsewhere as before. -/
theorem modify_cases {f : α → α} {j : Nat}
    (h : (table.modify i f)[j]? = some b) :
    i = j ∧ (∃ a, table[j]? = some a ∧ b = f a)
      ∨ i ≠ j ∧ table[j]? = some b := by
  rw [Array.getElem?_modify] at h
  split at h
  · next e =>
      obtain ⟨a, ha, rfl⟩ := Option.map_eq_some_iff.mp h
      exact .inl ⟨e, a, ha, rfl⟩
  · next ne => exact .inr ⟨ne, h⟩

theorem modify_old {f : α → α} (j : Nat) (h : table[i]? = some a) :
    ∃ b, (table.modify j f)[i]? = some b := by
  rw [Array.getElem?_modify, h]
  split
  · exact ⟨f a, rfl⟩
  · exact ⟨a, rfl⟩

theorem size_le_of_old {table' : Array α}
    (old : ∀ {i : Nat} {a : α}, table[i]? = some a → ∃ b, table'[i]? = some b) :
    table.size ≤ table'.size := by
  rcases Nat.eq_zero_or_pos table.size with zero | pos
  · rw [zero]
    exact Nat.zero_le _
  · obtain ⟨b, last⟩ := old (Array.getElem?_eq_getElem
      (Nat.sub_lt pos Nat.one_pos))
    have lt := (Array.getElem?_eq_some_iff.mp last).1
    omega

end

section

variable {κ α : Type} [DecidableEq κ] (key other : κ) (v : α)

/-- What is found in a table once a key was taken out. -/
theorem lookup_without (table : List (κ × α)) :
    (table.filter fun e => e.1 != key).lookup other
      = if other = key then none else table.lookup other := by
  induction table with
  | nil => simp
  | cons e rest ih =>
      obtain ⟨k, w⟩ := e
      by_cases out : k = key
      · subst out
        rw [List.filter_cons_of_neg (by simp), ih]
        by_cases h : other = k
        · rw [if_pos h, if_pos h]
        · rw [if_neg h, if_neg h, List.lookup_cons,
            beq_eq_false_iff_ne.mpr h]
      · rw [List.filter_cons_of_pos (by simp [out]), List.lookup_cons,
          List.lookup_cons, ih]
        by_cases h : other = k
        · subst h
          simp [out]
        · rw [beq_eq_false_iff_ne.mpr h]

/-- What is found in a table once a key was given a value of its own. -/
theorem lookup_replaced (table : List (κ × α)) :
    (table.filter (fun e => e.1 != key) ++ [(key, v)]).lookup other
      = if other = key then some v else table.lookup other := by
  rw [List.lookup_append, lookup_without]
  by_cases h : other = key
  · subst h
    simp
  · rw [if_neg h, if_neg h, List.lookup_cons, beq_eq_false_iff_ne.mpr h]
    simp

/-- A key that was given a value of its own is there once. -/
theorem nodup_replaced {table : List (κ × α)}
    (single : (table.map Prod.fst).Nodup) :
    ((table.filter (fun e => e.1 != key) ++ [(key, v)]).map
      Prod.fst).Nodup := by
  rw [List.map_append]
  refine List.nodup_append.mpr
    ⟨(List.filter_sublist.map Prod.fst).nodup single,
      List.pairwise_singleton _ _, ?_⟩
  rintro key' mem other mem' rfl
  obtain ⟨e, kept, rfl⟩ := List.mem_map.mp mem
  have ne := bne_iff_ne.mp (List.mem_filter.mp kept).2
  exact ne (List.mem_singleton.mp mem')

end

section

variable {α : Type}

theorem lookup_of_mem {table : List (String × α)} {key : String} {v : α}
    (single : (table.map Prod.fst).Nodup) (mem : (key, v) ∈ table) :
    table.lookup key = some v := by
  induction table with
  | nil => cases mem
  | cons e rest ih =>
      obtain ⟨k, w⟩ := e
      obtain ⟨fresh, single⟩ := List.nodup_cons.mp single
      rcases List.mem_cons.mp mem with here | later
      · obtain ⟨rfl, rfl⟩ := Prod.mk.inj here
        exact List.lookup_cons_self
      · rw [List.lookup_cons]
        have ne : (key == k) = false := by
          rw [beq_eq_false_iff_ne]
          rintro rfl
          exact fresh (List.mem_map.mpr ⟨_, later, rfl⟩)
        rw [ne]
        exact ih single later

theorem mem_of_lookup {table : List (String × α)} {key : String} {v : α}
    (h : table.lookup key = some v) : (key, v) ∈ table := by
  obtain ⟨before, after, e, -⟩ := List.lookup_eq_some_iff.mp h
  rw [e]
  exact List.mem_append_right before List.mem_cons_self

end

namespace Ledger

-- ============================================================== changes

/-- One change of a ledger, with the count of numbers it asks a sink for.
Records that `Offer` holds of may be written on nobody's behalf. -/
inductive Change (Offer : SpanRecord → Prop) (l : Ledger) :
    Nat → Ledger → Prop
  | quiet {a : Nat} {m : Ledger} (q : Quiet l a m) : Change Offer l a m
  | concluded {t : TaskId} {task : Task} (found : l.tasks[t]? = some task)
      (opened : task.status.terminal = false) :
      Change Offer l 0 (l.concluding t task)
  /-- A new worker enters a crew. -/
  | enlisted {t : TaskId} {task : Task} (key : String) (kind : SpanKind)
      (found : l.tasks[t]? = some task) :
      Change Offer l 0
        { l with
          workers := l.workers.push
            { path := task.path, kind, created := l.now }
          tasks := l.tasks.modify t (Task.enlist key l.workers.size) }
  | started (w : WorkerId) : Change Offer l 0 (l.startWorker w)
  | ended (w : WorkerId) : Change Offer l 0 (l.endWorker w)
  /-- A worker's span is written and its task takes note. -/
  | reported {t : TaskId} {w : WorkerId} {task : Task} {worker : Worker}
      {k : Sink} {id : SpanId} (found : l.tasks[t]? = some task)
      (present : l.workers[w]? = some worker)
      (sink : l.sinks[task.sink]? = some k) (next : k.next.2 = .ok id) :
      Change Offer l 1
        { l with
          sinks := l.sinks.modify task.sink fun k => k.next.1
          journal := l.journal ++ l.notes task.sink (.worker t w)
            (task.record (worker.span id task.id) [])
          tasks := l.tasks.modify t (Task.noteReport l.now (l.idle task)) }
  /-- A record is offered to a sink on nobody's behalf. -/
  | offered {r : SpanRecord} (offer : Offer r) :
      Change Offer l 0
        { l with journal := l.journal ++ l.notes l.sink .direct r }

/-- A new member comes last in its crew, in place of the one with its key. -/
theorem enlist_of_found {t : TaskId} {task : Task} {l : Ledger}
    (found : l.tasks[t]? = some task) (key : String) (kind : SpanKind) :
    l.enlist t key kind
      = { l with
          workers := l.workers.push
            { path := task.path, kind, created := l.now }
          tasks := l.tasks.modify t (Task.enlist key l.workers.size) } := by
  unfold enlist
  rw [found]
  rfl

/-- For a task that is not on record nothing happens. -/
theorem enlist_cases (t : TaskId) (key : String) (kind : SpanKind)
    (l : Ledger) :
    (l.tasks[t]? = none ∧ l.enlist t key kind = l)
      ∨ ∃ task, l.tasks[t]? = some task ∧ l.enlist t key kind
        = { l with
            workers := l.workers.push
              { path := task.path, kind, created := l.now }
            tasks := l.tasks.modify t (Task.enlist key l.workers.size) } := by
  cases h : l.tasks[t]? with
  | none =>
      refine .inl ⟨rfl, ?_⟩
      unfold enlist
      rw [h]
  | some task => exact .inr ⟨task, rfl, enlist_of_found h key kind⟩

theorem refuses_next (k : Sink) : k.next.1.refuses = k.refuses := by
  unfold Sink.next
  split <;> rfl

/-- Wherever a number is taken, a sink stays as it is, or it was asked. -/
theorem sink_numbered {sinks : Array Sink} {s : SinkId} {k : Sink}
    (sink : sinks[s]? = some k) (s' : SinkId) :
    ∃ k', (sinks.modify s' fun k => k.next.1)[s]? = some k'
      ∧ (k' = k ∨ k' = k.next.1) := by
  rw [Array.getElem?_modify, sink]
  split
  · exact ⟨k.next.1, rfl, .inr rfl⟩
  · exact ⟨k, rfl, .inl rfl⟩

/-- A number that was taken before a write is not seen by the write. -/
theorem notes_number (s s' : SinkId) (origin : Origin) (r : SpanRecord)
    (l : Ledger) :
    notes s origin r { l with sinks := l.sinks.modify s' fun k => k.next.1 }
      = l.notes s origin r := by
  unfold notes
  simp only [Array.getElem?_modify]
  by_cases e : s' = s
  · rw [if_pos e]
    cases l.sinks[s]? with
    | none => rfl
    | some k => simp only [Option.map_some, refuses_next]
  · rw [if_neg e]

/-- A report does nothing, or only takes a number in vain, or is a change
as a whole, up to what it tells an observer and to the file it wrote. -/
theorem report_cases (t : TaskId) (w : WorkerId) (l : Ledger) :
    ((l.tasks[t]? = none ∨ l.workers[w]? = none)
        ∧ l.report t w = (l, .ok ()))
      ∨ (∃ (task : Task) (worker : Worker) (f : Fault),
          l.tasks[t]? = some task ∧ l.workers[w]? = some worker
          ∧ (l.allocate task.sink).2 = .error f
          ∧ l.report t w
            = ({ l with sinks := l.sinks.modify task.sink fun k => k.next.1 },
                .error f))
      ∨ ∃ (task : Task) (worker : Worker) (k : Sink) (id : SpanId)
          (tree : Files.Tree) (warnings : List Warning),
          l.tasks[t]? = some task ∧ l.workers[w]? = some worker
          ∧ l.sinks[task.sink]? = some k ∧ k.next.2 = .ok id
          ∧ l.report t w
            = ({ l with
                  sinks := l.sinks.modify task.sink fun k => k.next.1
                  journal := l.journal ++ l.notes task.sink (.worker t w)
                    (task.record (worker.span id task.id) [])
                  tasks := l.tasks.modify t
                    (Task.noteReport l.now (l.idle task))
                  tree, warnings }, .ok ()) := by
  unfold report
  cases ht : l.tasks[t]? with
  | none => exact .inl ⟨.inl rfl, rfl⟩
  | some task =>
  cases hw : l.workers[w]? with
  | none => exact .inl ⟨.inr rfl, rfl⟩
  | some worker =>
  refine .inr ?_
  -- the number is taken first, and if there is none, that is all
  have hfst := allocate_fst task.sink l
  dsimp only
  split
  · next l₁ f ha =>
      rw [ha] at hfst
      dsimp only at hfst
      exact .inl ⟨task, worker, f, rfl, rfl, by rw [ha], by rw [hfst]⟩
  · next l₁ id ha =>
      rw [ha] at hfst
      dsimp only at hfst
      obtain ⟨k, hk, hnext⟩ := allocate_ok (s := task.sink) (l := l)
        (by rw [ha])
      subst hfst
      obtain ⟨tree, hwrite⟩ := write_fst task.sink (.worker t w)
        (task.record (worker.span id task.id) [])
        { l with sinks := l.sinks.modify task.sink fun k => k.next.1 }
      rw [notes_number] at hwrite
      refine .inr ⟨task, worker, k, id, tree, ?_⟩
      generalize write task.sink (.worker t w)
        (task.record (worker.span id task.id) [])
        { l with sinks := l.sinks.modify task.sink fun k => k.next.1 }
          = res at hwrite ⊢
      obtain ⟨l₂, answer⟩ := res
      dsimp only at hwrite
      subst hwrite
      cases answer with
      | ok u => exact ⟨l.warnings, rfl, rfl, hk, hnext, rfl⟩
      | error e => exact ⟨_, rfl, rfl, hk, hnext, rfl⟩

-- ============================================================ what stays

section

variable {Offer : SpanRecord → Prop} {a : Nat} {l m : Ledger}

/-- A task stays on record as the one it is, and a concluded one stays
concluded. -/
theorem Change.task (c : Change Offer l a m) {t : TaskId} {task : Task}
    (h : l.tasks[t]? = some task) :
    ∃ task', m.tasks[t]? = some task' ∧ task.Same task'
      ∧ (task.status.terminal = true → task'.status.terminal = true) := by
  have stay : ∃ task', l.tasks[t]? = some task' ∧ task.Same task'
      ∧ (task.status.terminal = true → task'.status.terminal = true) :=
    ⟨task, h, .refl task, id⟩
  have modified (u : TaskId) (f : Task → Task) (same : task.Same (f task))
      (terminal : task.status.terminal = true →
        (f task).status.terminal = true) :
      ∃ task', (l.tasks.modify u f)[t]? = some task' ∧ task.Same task'
        ∧ (task.status.terminal = true → task'.status.terminal = true) := by
    rw [Array.getElem?_modify, h]
    split
    · exact ⟨f task, rfl, same, terminal⟩
    · exact ⟨task, rfl, .refl task, id⟩
  cases c with
  | quiet q =>
      cases q with
      | clock | aside | number | hired => exact stay
      | opened =>
          exact ⟨task, push_old h, .refl task, id⟩
      | turned u turn =>
          exact modified u _ (turn.same task) (by rw [turn.terminal]; exact id)
  | concluded found opened =>
      exact modified _ _ ⟨rfl, rfl, rfl, rfl, rfl, rfl⟩ (fun _ => rfl)
  | enlisted key kind found =>
      exact modified _ _ ⟨rfl, rfl, rfl, rfl, rfl, rfl⟩ id
  | started | ended | offered => exact stay
  | reported found present sink next =>
      refine modified _ _ ?_ ?_
      · unfold Task.noteReport
        split <;> exact ⟨rfl, rfl, rfl, rfl, rfl, rfl⟩
      · unfold Task.noteReport
        split <;> exact id

end

-- =============================================================== keeping

/-- What every single change keeps. The property may speak of the numbers
still to be asked for; having some to spare does it no harm. -/
structure Kept (Offer : SpanRecord → Prop) (P : Nat → Ledger → Prop) :
    Prop where
  change : ∀ {a b : Nat} {l m : Ledger}, P (a + b) l →
    Change Offer l a m → P b m
  spare : ∀ {b : Nat} {l : Ledger}, P (b + 1) l → P b l

variable {Offer : SpanRecord → Prop} {P : Nat → Ledger → Prop}

theorem Kept.settles (h : Kept Offer P) {l m : Ledger} {n a b : Nat}
    (s : Settles l n a m) (hl : P (a + b) l) : P b m := by
  obtain ⟨ts, -, course⟩ := s
  refine course.keeps (P := P) ?_ ?_ hl
  · intro a b l m hp q
    exact h.change hp (.quiet q)
  · intro b l t task hp found opened
    rw [← Nat.zero_add b] at hp
    exact h.change hp (.concluded found opened)

theorem Kept.change₀ (h : Kept Offer P) {b : Nat} {l m : Ledger} (hl : P b l)
    (c : Change Offer l 0 m) : P b m :=
  h.change (by rwa [Nat.zero_add]) c

theorem Kept.report (h : Kept Offer P) {t : TaskId} {w : WorkerId} {b : Nat}
    {l : Ledger} (hl : P (1 + b) l) : P b (l.report t w).1 := by
  rcases report_cases t w l with ⟨-, he⟩ | ⟨task, _, _, -, -, -, he⟩
      | ⟨_, _, _, _, tree, warnings, ht, hw, hk, hnext, he⟩
  · rw [he]
    exact h.spare (by rwa [Nat.add_comm] at hl)
  · rw [he]
    exact h.change hl (.quiet (.number task.sink))
  · rw [he]
    exact h.change₀ (h.change hl (.reported ht hw hk hnext))
      (.quiet (.aside l.wall tree l.marks warnings l.registry))

/-- An operation keeps what every single change keeps. -/
theorem Kept.apply (h : Kept Offer P) {op : LedgerOp}
    (offer : ∀ r, op = .write r → Offer r) {b : Nat} {l : Ledger}
    (hl : P (op.numbers + b) l) : P b (op.apply l).1 := by
  cases hh : op.single with
  | false => exact h.settles (LedgerOp.settles_apply hh l) hl
  | true =>
      cases op with
      | enlist e key kind =>
          replace hl : P b l := by simpa [LedgerOp.numbers] using hl
          cases e with
          | untracked => exact hl
          | task t =>
              show P b (l.enlist t key kind)
              rcases enlist_cases t key kind l with ⟨-, he⟩ | ⟨task, ht, he⟩
              · rw [he]; exact hl
              · rw [he]; exact h.change₀ hl (.enlisted key kind ht)
      | startWorker w =>
          replace hl : P b l := by simpa [LedgerOp.numbers] using hl
          exact h.change₀ hl (.started w)
      | endWorker w =>
          replace hl : P b l := by simpa [LedgerOp.numbers] using hl
          exact h.change₀ hl (.ended w)
      | report e w =>
          cases e with
          | untracked => exact h.spare (by rwa [Nat.add_comm] at hl)
          | task t => exact h.report hl
      | write r =>
          replace hl : P b l := by simpa [LedgerOp.numbers] using hl
          have written := h.change₀ hl (.offered (offer r rfl))
          obtain ⟨tree, he⟩ := write_fst l.sink .direct r l
          have hw : P b (l.write l.sink .direct r).1 := by
            rw [he]
            exact h.change₀ written
              (.quiet (.aside l.wall tree l.marks l.warnings l.registry))
          simp only [LedgerOp.apply]
          split
          · next hr => rw [hr] at hw; exact hw
          · next hr => rw [hr] at hw; exact hw
      | _ => cases hh

/-- A run keeps what every single change keeps. -/
theorem Kept.run (h : Kept Offer P) {ops : List LedgerOp}
    (offer : ∀ op ∈ ops, ∀ r, op = .write r → Offer r) {b : Nat} {l : Ledger}
    (hl : P (LedgerOp.asked ops + b) l) :
    P b (LedgerOp.run ops l).1 := by
  induction ops generalizing l with
  | nil =>
      rw [LedgerOp.asked, Nat.zero_add] at hl
      exact hl
  | cons op rest ih =>
      rw [LedgerOp.asked, Nat.add_assoc] at hl
      exact ih (fun o ho => offer o (List.mem_cons_of_mem op ho))
        (h.apply (offer op List.mem_cons_self) hl)

/-- A property that does not speak of numbers is kept if every change keeps
it. -/
theorem Kept.of_change {Q : Ledger → Prop}
    (change : ∀ {a : Nat} {l m : Ledger}, Q l → Change Offer l a m → Q m) :
    Kept Offer fun _ l => Q l :=
  ⟨fun hl c => change hl c, fun hl => hl⟩

end Ledger

end TaskLedger
