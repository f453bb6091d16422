/-
What an operation leaves that stops midway.

There are two sorts of reasons. The clock would leave its range: then
nothing has been touched. Or a sink has no number left: then its counter
starts over, and that is all, because a number is asked for before anything
is put on record (`LedgerOp.halted`). So of a whole ledger only the counter
of one sink can be told from what it was (`Rewound`).
-/
import TaskLedger.Proofs.Ledger.Registered

namespace TaskLedger

/-- A number is refused only where the counter is full, and then it starts
over. -/
theorem Sink.next_refused {k : Sink} {f : Fault}
    (refused : k.next.2 = .error f) :
    k.last = largestId ∧ k.next.1 = { k with last := 0 } := by
  unfold next at refused ⊢
  by_cases full : k.last = largestId
  · rw [if_pos full]
    exact ⟨full, rfl⟩
  · rw [if_neg full] at refused
    cases refused

namespace Ledger

/-- The sinks are as they were, except that a counter that was full may have
started over. -/
def Rewound (before after : Array Sink) : Prop :=
  ∀ s : SinkId, after[s]? = before[s]?
    ∨ ∃ k, before[s]? = some k ∧ k.last = Sink.largestId
      ∧ after[s]? = some { k with last := 0 }

/-- From `l` to `m`, nothing happened but that a counter started over. -/
def Halted (l m : Ledger) : Prop :=
  ∃ sinks, Rewound l.sinks sinks ∧ m = { l with sinks }

/-- An operation that stops before it asks for a number leaves everything. -/
theorem Halted.refl (l : Ledger) : Halted l l :=
  ⟨l.sinks, fun _ => .inl rfl, rfl⟩

variable {l m : Ledger} {f : Fault}

/-- The clock is not set to a time that is none. -/
theorem halted_setClock {ms : Int} (stopped : (l.setClock ms).2 = .error f) :
    Halted l (l.setClock ms).1 := by
  unfold setClock at stopped ⊢
  split at stopped
  · cases stopped
  · exact .refl l

/-- Nor is it moved out of its range. -/
theorem halted_advance {ms ns : Int}
    (stopped : (l.advance ms ns).2 = .error f) :
    Halted l (l.advance ms ns).1 := by
  unfold advance at stopped ⊢
  split at stopped
  · cases stopped
  · exact .refl l

/-- If a number is refused, the counter starts over. -/
theorem halted_modify {s : SinkId} (stopped : (l.allocate s).2 = .error f) :
    Halted l { l with sinks := l.sinks.modify s fun k => k.next.1 } := by
  refine ⟨_, fun i => ?_, rfl⟩
  rw [Array.getElem?_modify]
  by_cases here : s = i
  · subst here
    rw [if_pos rfl]
    cases there : l.sinks[s]? with
    | none => exact .inl rfl
    | some k =>
        have refused : k.next.2 = .error f := by
          unfold allocate at stopped
          rw [there] at stopped
          exact stopped
        obtain ⟨full, left⟩ := Sink.next_refused refused
        exact .inr ⟨k, rfl, full, congrArg some left⟩
  · rw [if_neg here]
    exact .inl rfl

theorem halted_allocate {s : SinkId}
    (stopped : (l.allocate s).2 = .error f) : Halted l (l.allocate s).1 := by
  rw [allocate_fst]
  exact halted_modify stopped

/-- The task is put on record only after its number is there. -/
theorem halted_addTask {path project : String} {variant : Option String}
    {s : SinkId} (stopped : (l.addTask path project variant s).2 = .error f) :
    Halted l (l.addTask path project variant s).1 := by
  have halted := halted_allocate (l := l) (s := s) (f := f)
  unfold addTask at stopped ⊢
  generalize l.allocate s = res at halted stopped ⊢
  obtain ⟨l', g | id⟩ := res
  · obtain rfl := Except.error.inj stopped
    exact halted rfl
  · cases stopped

theorem halted_startTask {path project : String} {variant : Option String}
    (stopped : (l.startTask path project variant).2 = .error f) :
    Halted l (l.startTask path project variant).1 := by
  have halted := @halted_addTask l f path project variant l.sink
  unfold startTask at stopped ⊢
  generalize l.addTask path project variant l.sink = res
    at halted stopped ⊢
  obtain ⟨l', g | t⟩ := res
  · obtain rfl := Except.error.inj stopped
    exact halted rfl
  · cases stopped

/-- A report asks for its number before it notes anything. -/
theorem halted_report {t : TaskId} {w : WorkerId}
    (stopped : (l.report t w).2 = .error f) : Halted l (l.report t w).1 := by
  rcases report_cases t w l with ⟨-, he⟩
      | ⟨task, _, g, -, -, refused, he⟩ | ⟨_, _, _, _, _, _, -, -, -, -, he⟩
  · rw [he] at stopped
    cases stopped
  · rw [he]
    exact halted_modify refused
  · rw [he] at stopped
    cases stopped

end Ledger

namespace LedgerOp

open Ledger

variable {l : Ledger} {f : Fault}

/-- What an operation answers when it stops is what the function said. -/
theorem done_error {r : Ledger × Except Fault Unit}
    (stopped : (apply.done r).2 = .error f) : r.2 = .error f := by
  obtain ⟨m, g | a⟩ := r
  · exact congrArg Except.error (Except.error.inj stopped)
  · cases stopped

/-- What an answer is made from has failed if the answer has. -/
theorem answer_error {α : Type} {g : α → LedgerAnswer}
    {r : Ledger × Except Fault α}
    (stopped : (apply.answer g r).2 = .error f) : r.2 = .error f := by
  obtain ⟨m, g | a⟩ := r
  · exact congrArg Except.error (Except.error.inj stopped)
  · cases stopped

/-- An operation that stops midway has done nothing, except that a counter
that was full may have started over. -/
theorem halted {op : LedgerOp} (stopped : (op.apply l).2 = .error f) :
    Halted l (op.apply l).1 := by
  cases op with
  | setClock ms => exact halted_setClock (done_error stopped)
  | advance ms ns => exact halted_advance (done_error stopped)
  | startTask path project variant =>
      exact halted_startTask (answer_error stopped)
  | addTask path project variant => exact halted_addTask (answer_error stopped)
  | allocate => exact halted_allocate (answer_error stopped)
  | report e w =>
      cases e with
      | task t => exact halted_report (done_error stopped)
      | untracked => cases done_error stopped
  | write r =>
      simp only [apply] at stopped
      split at stopped <;> cases stopped
  | _ => cases stopped

end LedgerOp

end TaskLedger
