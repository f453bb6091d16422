/-
The numbers in the lines of a ledger that is the only writer of its sink.

Every line shows one number: a task's line the task's, a worker's line one
that was handed out for it, later than its task's, and that no task has
(`Line`). So no number is shown twice, and a worker's line names its task and
no other (`Numbered`). The bounds are part of the invariant: all numbers lie
above the counter that the ledger started from, and the counter rises by no
more than the numbers that are asked for.

Which of these are handed out depends on the run: a report asks for a number
only if its task and its worker are on record (`LedgerOp.draws`).
-/
import TaskLedger.Proofs.Ledger.Settlement

namespace TaskLedger

/-- What a task measures itself is given no number. -/
theorem Task.Turn.children {now : Instant} {f : Task → Task}
    (h : Task.Turn now f) (task : Task) :
    ∀ s ∈ (f task).children, s ∈ task.children ∨ s.id = none := by
  cases h with
  | await => unfold Task.await; split <;> exact fun s mem => .inl mem
  | close => unfold Task.close; split <;> exact fun s mem => .inl mem
  | finish => unfold Task.finish; split <;> exact fun s mem => .inl mem
  | attach =>
      unfold Task.attach
      split
      · exact fun s mem => .inl mem
      · intro s mem
        rcases List.mem_append.mp mem with old | new
        · exact .inl old
        · rw [List.mem_singleton.mp new]
          exact .inr rfl

/-- The task that a line is about: the one that wrote it, or the one that its
worker reported to. -/
def Write.about? (l : Write) : Option TaskId :=
  match l.origin with
  | .task t | .worker t _ => some t
  | .direct => none

namespace LedgerOp

-- ================================================================= drawing

/-- How many numbers an operation really asks a sink for. -/
def draws (op : LedgerOp) (l : Ledger) : Nat :=
  match op with
  | report (.task t) w =>
      if l.tasks[t]?.isSome && l.workers[w]?.isSome then 1 else 0
  | report .untracked _ => 0
  | op => op.numbers

/-- How many numbers a run really asks sinks for. -/
def drawn : List LedgerOp → Ledger → Nat
  | [], _ => 0
  | op :: rest, l => op.draws l + drawn rest (op.apply l).1

/-- An operation that asks for fewer numbers than it may is a report that
finds nothing. -/
theorem draws_cases (op : LedgerOp) (l : Ledger) :
    op.draws l = op.numbers ∨ op.draws l = 0 ∧ (op.apply l).1 = l := by
  cases op with
  | report e w =>
      cases e with
      | untracked => exact .inr ⟨rfl, rfl⟩
      | task t =>
          unfold draws
          dsimp only
          split
          · exact .inl rfl
          · next absent =>
              refine .inr ⟨rfl, ?_⟩
              show (l.report t w).1 = l
              unfold Ledger.report
              cases ht : l.tasks[t]? with
              | none => rfl
              | some task =>
                  cases hw : l.workers[w]? with
                  | none => rfl
                  | some worker => simp [ht, hw] at absent
  | _ => exact .inl rfl

/-- No run asks for more numbers than it may. -/
theorem drawn_le (ops : List LedgerOp) (l : Ledger) :
    drawn ops l ≤ asked ops := by
  induction ops generalizing l with
  | nil => exact Nat.le_refl 0
  | cons op rest ih =>
      have later := ih (op.apply l).1
      rw [drawn, asked]
      rcases op.draws_cases l with same | ⟨none, -⟩
      · omega
      · omega

end LedgerOp

namespace Ledger

section

variable {Offer : SpanRecord → Prop} {P : Nat → Ledger → Prop} {l : Ledger}
  {b : Nat}

/-- Less may be written on nobody's behalf than is allowed. -/
theorem Change.mono {More : SpanRecord → Prop} {a : Nat} {m : Ledger}
    (h : Change Offer l a m) (more : ∀ r, Offer r → More r) :
    Change More l a m := by
  cases h with
  | quiet q => exact .quiet q
  | concluded found opened => exact .concluded found opened
  | enlisted key kind found => exact .enlisted key kind found
  | started w => exact .started w
  | ended w => exact .ended w
  | reported found present sink next =>
      exact .reported found present sink next
  | offered offer => exact .offered (more _ offer)

/-- An operation keeps what every single change keeps, and counts only the
numbers it really asks for. -/
theorem Kept.apply_draws (h : Kept Offer P) {op : LedgerOp}
    (offer : ∀ r, op = .write r → Offer r) (hl : P (op.draws l + b) l) :
    P b (op.apply l).1 := by
  rcases op.draws_cases l with same | ⟨none, still⟩
  · rw [same] at hl
    exact h.apply offer hl
  · rw [none, Nat.zero_add] at hl
    rw [still]
    exact hl

/-- So does a run. -/
theorem Kept.run_drawn (h : Kept Offer P) {ops : List LedgerOp}
    (offer : ∀ op ∈ ops, ∀ r, op = .write r → Offer r)
    (hl : P (LedgerOp.drawn ops l + b) l) : P b (LedgerOp.run ops l).1 := by
  induction ops generalizing l with
  | nil =>
      rw [LedgerOp.drawn, Nat.zero_add] at hl
      exact hl
  | cons op rest ih =>
      rw [LedgerOp.drawn, Nat.add_assoc] at hl
      exact ih (fun o ho => offer o (List.mem_cons_of_mem op ho))
        (h.apply_draws (offer op List.mem_cons_self) hl)

end

-- =================================================================== lines

/-- The last number that the ledger's sink handed out. -/
def counter (l : Ledger) : Nat :=
  (l.sinks[l.sink]?.map fun k => k.last.toNat).getD 0

/-- A task's line shows the task's number. A worker's line shows a number
that came after its task's and that no task has, and names its task. -/
inductive Line (l : Ledger) (w : Write) : Prop
  | task {t : TaskId} {task : Task} (origin : w.origin = .task t)
      (found : l.tasks[t]? = some task) (ids : w.record.ids = [task.id])
      (parent : w.record.span.parent = none)
  | worker {t : TaskId} {x : WorkerId} {task : Task} {id : SpanId}
      (origin : w.origin = .worker t x) (found : l.tasks[t]? = some task)
      (ids : w.record.ids = [id])
      (parent : w.record.span.parent = some task.id)
      (bare : w.record.span.task = none) (after : task.id.toNat < id.toNat)
      (below : id.toNat ≤ l.counter)
      (own : ∀ {u : TaskId} {other : Task}, l.tasks[u]? = some other →
        other.id ≠ id)

/-- A line stays what it is while tasks keep their numbers, new ones get
numbers above the counter, and the counter does not fall. -/
theorem Line.mono {l m : Ledger} {w : Write} (h : Line l w)
    (tasks : ∀ {t : TaskId} {task : Task}, l.tasks[t]? = some task →
      ∃ task', m.tasks[t]? = some task' ∧ task'.id = task.id)
    (back : ∀ {t : TaskId} {task' : Task}, m.tasks[t]? = some task' →
      (∃ task, l.tasks[t]? = some task ∧ task'.id = task.id)
        ∨ l.counter < task'.id.toNat)
    (counter : l.counter ≤ m.counter) : Line m w := by
  cases h with
  | task origin found ids parent =>
      obtain ⟨task', found', same⟩ := tasks found
      exact .task origin found' (by rw [ids, same]) parent
  | @worker t x task id origin found ids parent bare after below own =>
      obtain ⟨task', found', same⟩ := tasks found
      refine .worker origin found' ids (by rw [parent, same]) bare
        (by rw [same]; exact after) (Nat.le_trans below counter) ?_
      intro u other hu e
      rcases back hu with ⟨task, ht, same⟩ | above
      · exact own ht (same.symm.trans e)
      · rw [e] at above
        omega

-- =========================================================== the invariant

/-- What holds of the numbers while `b` more are asked for, if the counter
started at `c` and does not pass `n`. -/
structure Numbered (c n b : Nat) (l : Ledger) : Prop where
  start : c ≤ l.counter
  room : l.counter + b ≤ n
  fresh : ∀ {t : TaskId} {task : Task}, l.tasks[t]? = some task →
    c < task.id.toNat
  /-- What a task measured itself has no number. -/
  bare : ∀ {t : TaskId} {task : Task}, l.tasks[t]? = some task →
    ∀ s ∈ task.children, s.id = none
  lines : ∀ w ∈ l.journal, Line l w
  apart : (l.journal.flatMap fun w => w.record.ids).Nodup

/-- Before anything happens there is nothing to be numbered. -/
theorem Blank.numbered {c n b : Nat} {l : Ledger} (h : l.Blank)
    (start : c ≤ l.counter) (room : l.counter + b ≤ n) :
    Numbered c n b l where
  start := start
  room := room
  fresh := by intro t task ht; simp [h.tasks] at ht
  bare := by intro t task ht; simp [h.tasks] at ht
  lines := by intro w hw; simp [h.journal] at hw
  apart := by simp [h.journal]

/-- Taking a number moves the counter by one at most. -/
theorem counter_number {b : Nat} {l : Ledger} (h : Stocked (1 + b) l)
    (s : SinkId) :
    l.counter ≤ counter { l with
        sinks := l.sinks.modify s fun k => k.next.1 }
      ∧ counter { l with sinks := l.sinks.modify s fun k => k.next.1 }
        ≤ l.counter + 1 := by
  obtain ⟨k, hk, -, room⟩ := h.supply
  obtain ⟨step, value⟩ := Sink.next_of_lt (k := k) (n := b) (by omega)
  unfold counter
  dsimp only
  rw [Array.getElem?_modify, hk]
  split
  · rw [Option.map_some, Option.map_some, Option.map_some, step]
    dsimp only [Option.getD_some]
    rw [value]
    omega
  · exact ⟨Nat.le_refl _, Nat.le_succ _⟩

/-- The number that is handed out is the next one. -/
theorem counter_next {b : Nat} {l : Ledger} (h : Stocked (1 + b) l) {k : Sink}
    {id : SpanId} (sink : l.sinks[l.sink]? = some k)
    (next : k.next.2 = .ok id) :
    id.toNat = l.counter + 1
      ∧ counter { l with
          sinks := l.sinks.modify l.sink fun k => k.next.1 }
        = l.counter + 1 := by
  obtain ⟨k', hk', -, room⟩ := h.supply
  obtain rfl : k' = k := by rw [sink] at hk'; exact (Option.some.inj hk').symm
  obtain ⟨step, value⟩ := Sink.next_of_lt (k := k') (n := b) (by omega)
  rw [step] at next
  obtain rfl := Except.ok.inj next
  unfold counter
  dsimp only
  rw [Array.getElem?_modify, if_pos rfl, sink, Option.map_some,
    Option.map_some, Option.map_some, step]
  exact ⟨value, value⟩

/-- No task's number is above the counter. -/
theorem Filed.le_counter {b : Nat} {l : Ledger} (h : Filed b l) {t : TaskId}
    {task : Task} (found : l.tasks[t]? = some task) :
    task.id.toNat ≤ l.counter := by
  obtain ⟨k, hk, -, -⟩ := h.supply
  unfold counter
  rw [hk]
  exact h.below found hk

namespace Numbered

variable {c n b : Nat} {l : Ledger}

/-- A line shows only numbers that were handed out. -/
theorem shown_le (h : Numbered c n b l) (filed : Filed b l) {w : Write}
    (mem : w ∈ l.journal) {id : SpanId} (shown : id ∈ w.record.ids) :
    c < id.toNat ∧ id.toNat ≤ l.counter := by
  cases h.lines w mem with
  | task origin found ids parent =>
      rw [ids, List.mem_singleton] at shown
      rw [shown]
      exact ⟨h.fresh found, filed.le_counter found⟩
  | worker origin found ids parent bare after below own =>
      rw [ids, List.mem_singleton] at shown
      have := h.fresh found
      rw [shown]
      exact ⟨by omega, below⟩

/-- The number of a task that is open is shown by no line. -/
theorem unshown (h : Numbered c n b l) (filed : Filed b l) {t : TaskId}
    {task : Task} (found : l.tasks[t]? = some task)
    (opened : task.status.terminal = false) :
    ∀ w ∈ l.journal, task.id ∉ w.record.ids := by
  intro w mem shown
  cases h.lines w mem with
  | task origin found' ids parent =>
      rw [ids, List.mem_singleton] at shown
      obtain rfl := filed.id_inj found found' shown
      have none := filed.once found
      rw [opened, if_neg Bool.false_ne_true, List.countP_eq_zero] at none
      exact none w mem (beq_iff_eq.mpr origin)
  | worker origin found' ids parent bare after below own =>
      rw [ids, List.mem_singleton] at shown
      exact own found shown

/-- Only the tasks, the counter and the lines matter. -/
theorem aside (h : Numbered c n b l) {m : Ledger} (tasks : m.tasks = l.tasks)
    (counter : m.counter = l.counter) (journal : m.journal = l.journal) :
    Numbered c n b m where
  start := by rw [counter]; exact h.start
  room := by rw [counter]; exact h.room
  fresh := by rw [tasks]; exact h.fresh
  bare := by rw [tasks]; exact h.bare
  lines := by
    intro w mem
    rw [journal] at mem
    exact (h.lines w mem).mono (by rw [tasks]; exact fun ht => ⟨_, ht, rfl⟩)
      (by rw [tasks]; exact fun ht => .inl ⟨_, ht, rfl⟩)
      (Nat.le_of_eq counter.symm)
  apart := by rw [journal]; exact h.apart

theorem spare (h : Numbered c n (b + 1) l) : Numbered c n b l :=
  { h with room := by have := h.room; omega }

/-- A change that leaves the tasks the ones they are, and what they measured
themselves without numbers, leaves the numbers alone. -/
theorem modify (h : Numbered c n b l) (t : TaskId) {f : Task → Task}
    (same : ∀ task : Task, (f task).id = task.id)
    (children : ∀ task : Task, ∀ s ∈ (f task).children,
      s ∈ task.children ∨ s.id = none) :
    Numbered c n b { l with tasks := l.tasks.modify t f } := by
  have back {u : TaskId} {task' : Task}
      (hu : (l.tasks.modify t f)[u]? = some task') :
      ∃ task, l.tasks[u]? = some task ∧ task'.id = task.id
        ∧ ∀ s ∈ task'.children, s ∈ task.children ∨ s.id = none := by
    rcases modify_cases hu with ⟨-, task, ht, rfl⟩ | ⟨-, prior⟩
    · exact ⟨task, ht, same task, children task⟩
    · exact ⟨task', prior, rfl, fun s mem => .inl mem⟩
  refine { h with fresh := ?_, bare := ?_, lines := ?_ }
  · intro u task' hu
    obtain ⟨task, ht, id, -⟩ := back hu
    rw [id]
    exact h.fresh ht
  · intro u task' hu s mem
    obtain ⟨task, ht, -, children⟩ := back hu
    rcases children s mem with old | none
    · exact h.bare ht s old
    · exact none
  · intro w mem
    refine (h.lines w mem).mono ?_ ?_ (Nat.le_refl _)
    · intro u task hu
      dsimp only
      rw [Array.getElem?_modify, hu]
      split
      · exact ⟨f task, rfl, same task⟩
      · exact ⟨task, rfl, rfl⟩
    · intro u task' hu
      obtain ⟨task, ht, id, -⟩ := back hu
      exact .inl ⟨task, ht, id⟩

/-- A number that nothing is done with is shown nowhere. -/
theorem number (h : Numbered c n (1 + b) l) (stocked : Stocked (1 + b) l)
    (s : SinkId) :
    Numbered c n b { l with
      sinks := l.sinks.modify s fun k => k.next.1 } := by
  obtain ⟨up, one⟩ := counter_number stocked s
  have start := h.start
  have room := h.room
  refine { h with start := by omega, room := by omega, lines := ?_ }
  intro w mem
  exact (h.lines w mem).mono (fun ht => ⟨_, ht, rfl⟩)
    (fun ht => .inl ⟨_, ht, rfl⟩) up

/-- A new task has a number that no line shows. -/
theorem opened (h : Numbered c n (1 + b) l) (stocked : Stocked (1 + b) l)
    {k : Sink} {task : Task} (sink : l.sinks[l.sink]? = some k)
    (next : k.next.2 = .ok task.id) (bare : task.children = []) :
    Numbered c n b { l with
      sinks := l.sinks.modify l.sink fun k => k.next.1
      tasks := l.tasks.push task } := by
  obtain ⟨value, up⟩ := counter_next stocked sink next
  have start := h.start
  have room := h.room
  have counter : counter { l with
      sinks := l.sinks.modify l.sink fun k => k.next.1
      tasks := l.tasks.push task } = l.counter + 1 := up
  refine { start := by omega, room := by omega, fresh := ?_, bare := ?_,
           lines := ?_, apart := h.apart }
  · intro t other ht
    rcases push_back ht with prior | ⟨-, rfl⟩
    · exact h.fresh prior
    · omega
  · intro t other ht s mem
    rcases push_back ht with prior | ⟨-, rfl⟩
    · exact h.bare prior s mem
    · rw [bare] at mem
      cases mem
  · intro w mem
    refine (h.lines w mem).mono (fun ht => ⟨_, push_old ht, rfl⟩) ?_
      (by omega)
    intro t other ht
    rcases push_back ht with prior | ⟨-, rfl⟩
    · exact .inl ⟨other, prior, rfl⟩
    · exact .inr (by omega)

/-- A line is added whose number no line shows so far. -/
theorem append (h : Numbered c n b l) {w : Write} (line : Line l w)
    {id : SpanId} (ids : w.record.ids = [id])
    (new : ∀ v ∈ l.journal, id ∉ v.record.ids) :
    Numbered c n b { l with journal := l.journal ++ [w] } := by
  refine { h with lines := ?_, apart := ?_ }
  · intro v mem
    have held : Line l v := by
      rcases List.mem_append.mp mem with old | here
      · exact h.lines v old
      · rw [List.mem_singleton.mp here]
        exact line
    exact held.mono (fun ht => ⟨_, ht, rfl⟩) (fun ht => .inl ⟨_, ht, rfl⟩)
      (Nat.le_refl _)
  · rw [List.flatMap_append, List.flatMap_singleton, ids]
    refine List.nodup_append.mpr ⟨h.apart, by simp, ?_⟩
    rintro a mem b here rfl
    obtain ⟨v, old, shown⟩ := List.mem_flatMap.mp mem
    rw [List.mem_singleton.mp here] at shown
    exact new v old shown

/-- A task's line is the only one that shows its number. -/
theorem concluded (h : Numbered c n b l) (filed : Filed b l) {t : TaskId}
    {task : Task} (found : l.tasks[t]? = some task)
    (opened : task.status.terminal = false) :
    Numbered c n b (l.concluding t task) := by
  have ids : (task.record (task.span (l.crewOf task)) task.children).ids
      = [task.id] := by
    have none : task.children.filterMap Span.id = [] :=
      List.filterMap_eq_nil_iff.mpr (h.bare found)
    show (task.span (l.crewOf task) :: task.children).filterMap Span.id
      = [task.id]
    rw [List.filterMap_cons, none]
    rfl
  have written := h.append (w := ⟨l.sink, .task t,
    task.record (task.span (l.crewOf task)) task.children, none⟩)
    (.task rfl found ids rfl) ids (h.unshown filed found opened)
  unfold concluding
  rw [filed.home found, filed.supply.notes]
  exact written.modify t (fun _ => rfl) fun _ s mem => .inl mem

/-- A worker's line shows a number that was handed out for it. -/
theorem reported (h : Numbered c n (1 + b) l) (filed : Filed (1 + b) l)
    {t : TaskId} {x : WorkerId} {task : Task} {worker : Worker} {k : Sink}
    {id : SpanId} (found : l.tasks[t]? = some task)
    (sink : l.sinks[l.sink]? = some k) (next : k.next.2 = .ok id) :
    Numbered c n b { l with
      sinks := l.sinks.modify l.sink fun k => k.next.1
      journal := l.journal ++ [⟨l.sink, .worker t x,
        task.record (worker.span id task.id) [], none⟩] } := by
  obtain ⟨value, up⟩ := counter_next filed.toStocked sink next
  refine (h.number filed.toStocked l.sink).append
    (.worker rfl found rfl rfl rfl ?_ ?_ ?_) rfl ?_
  · have := filed.le_counter found
    omega
  · omega
  · intro u other hu same
    have le := filed.le_counter hu
    rw [same] at le
    omega
  · intro w mem shown
    have le := (h.shown_le filed mem shown).2
    omega

end Numbered

/-- Every single change keeps the numbers in order, as long as nothing is
written on nobody's behalf. -/
theorem numbered_kept (c n : Nat) :
    Kept (fun _ => False) fun b l => Filed b l ∧ Numbered c n b l where
  spare := fun ⟨filed, h⟩ => ⟨filed.spare, h.spare⟩
  change := by
    rintro a b l m ⟨filed, h⟩ change
    refine ⟨filed_kept.change filed (change.mono fun _ no => no.elim), ?_⟩
    -- numbers rise as they are taken, and lines show only what was taken
    cases change with
    | quiet q =>
        cases q with
        | clock | aside | hired =>
            rw [Nat.zero_add] at h
            exact h.aside rfl rfl rfl
        | number s => exact h.number filed.toStocked s
        | opened sink next => exact h.opened filed.toStocked sink next rfl
        | turned t turn =>
            rw [Nat.zero_add] at h
            refine h.modify t (fun task => (turn.same task).id) ?_
            exact fun task => turn.children task
    | concluded found opened =>
        rw [Nat.zero_add] at h filed
        exact h.concluded filed found opened
    | @enlisted t task key kind found =>
        rw [Nat.zero_add] at h
        have entered := h.modify t (f := Task.enlist key l.workers.size)
          (fun _ => rfl) (fun _ s mem => .inl mem)
        exact entered.aside rfl rfl rfl
    | started | ended =>
        rw [Nat.zero_add] at h
        exact h.aside rfl rfl rfl
    | @reported t w task worker k id found present sink next =>
        rw [filed.home found] at sink ⊢
        rw [filed.supply.notes]
        refine (h.reported filed found sink next).modify t ?_ ?_
        · intro task
          unfold Task.noteReport
          split <;> rfl
        · intro task s mem
          unfold Task.noteReport at mem
          split at mem <;> exact .inl mem
    | offered offer => exact offer.elim

end Ledger

end TaskLedger
