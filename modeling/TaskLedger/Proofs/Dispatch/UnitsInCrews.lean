/-
Units and the crews of their tasks.

A unit on the pool and the worker it is booked under meet only through the
task's crew: the submission enters a worker under the unit's key, and the
thread that takes the unit looks the key up again. `Roll` is what holds of
the two tables whatever the keys are. No worker is in two places, every
unit has an entry under its key, every entry has a unit, and a worker that
a unit holds is in no crew unless it is under that unit's key.
-/
import TaskLedger.Proofs.Dispatch.Frame

namespace TaskLedger

-- =============================================================== phases

namespace Phase

/-- The worker that a unit holds. -/
def worker? : Phase → Option WorkerId
  | .begun w | .ran w _ | .ended w _ => some w
  | _ => none

end Phase

namespace Dispatch

variable {d d' : Dispatch} {n : Nat} {evs : List Event}

-- ================================================================== roll

/-- The crews and the units agree. -/
structure Roll (d : Dispatch) : Prop where
  below : ∀ {t : TaskId} {key : String} {w : WorkerId},
    (key, w) ∈ d.ledger.crewAt t → w < d.ledger.workers.size
  apart : ∀ {t t' : TaskId} {key key' : String} {w : WorkerId},
    (key, w) ∈ d.ledger.crewAt t → (key', w) ∈ d.ledger.crewAt t' →
    t = t' ∧ key = key'
  single : ∀ t, ((d.ledger.crewAt t).map Prod.fst).Nodup
  entered : ∀ {u : UnitId} {s : Submitted} {t : TaskId},
    d.units[u]? = some s → s.entry = .task t →
    ∃ w, (s.key, w) ∈ d.ledger.crewAt t
  unit : ∀ {t : TaskId} {key : String} {w : WorkerId},
    (key, w) ∈ d.ledger.crewAt t →
    ∃ (u : UnitId) (s : Submitted), d.units[u]? = some s
      ∧ s.entry = .task t ∧ s.key = key
  held : ∀ {u : UnitId} {s : Submitted} {w : WorkerId},
    d.units[u]? = some s → s.phase.worker? = some w →
    w < d.ledger.workers.size ∧ ∀ t key, (key, w) ∈ d.ledger.crewAt t →
      s.entry = .task t ∧ s.key = key

/-- Since keys come once, looking one up finds the only member under it. -/
theorem Roll.lookup (h : Roll d) {t : TaskId} {key : String} {w : WorkerId} :
    (d.ledger.crewAt t).lookup key = some w
      ↔ (key, w) ∈ d.ledger.crewAt t :=
  ⟨mem_of_lookup, lookup_of_mem (h.single t)⟩

/-- Where there are no units and no tasks, the roll is empty. -/
theorem Blank.roll (h : d.Blank) : Roll d := by
  have none (t : TaskId) : d.ledger.crewAt t = [] := by
    unfold Ledger.crewAt
    rw [h.tasks]
    rfl
  exact {
    below := by intro t key w mem; rw [none] at mem; cases mem
    apart := by intro t t' key key' w mem; rw [none] at mem; cases mem
    single := by intro t; rw [none]; exact List.nodup_nil
    entered := by intro u s t found; simp [h.units] at found
    unit := by intro t key w mem; rw [none] at mem; cases mem
    held := by intro u s w found; simp [h.units] at found }

/-- What changes no crew and forgets no worker does not touch the roll. -/
theorem Roll.beside (h : Roll d) {l : Ledger}
    (crew : ∀ t, l.crewAt t = d.ledger.crewAt t)
    (size : d.ledger.workers.size ≤ l.workers.size)
    (executors : Array Executor) (ran : List String) :
    Roll { d with ledger := l, executors, ran } where
  below := by
    intro t key w mem
    rw [crew] at mem
    exact Nat.lt_of_lt_of_le (h.below mem) size
  apart := by
    intro t t' key key' w mem mem'
    rw [crew] at mem mem'
    exact h.apart mem mem'
  single := by
    intro t
    rw [crew]
    exact h.single t
  entered := by
    intro u s t found entry
    rw [crew]
    exact h.entered found entry
  unit := by
    intro t key w mem
    rw [crew] at mem
    exact h.unit mem
  held := by
    intro u s w found holds
    obtain ⟨lt, own⟩ := h.held found holds
    refine ⟨Nat.lt_of_lt_of_le lt size, ?_⟩
    intro t key mem
    rw [crew] at mem
    exact own t key mem

/-- A unit may move to a phase with the worker it finds under its key, or
with one that is in no crew. -/
theorem Roll.setPhase (h : Roll d) {u : UnitId} {s : Submitted} {p : Phase}
    (found : d.units[u]? = some s)
    (holds : ∀ w, p.worker? = some w → w < d.ledger.workers.size
      ∧ ∀ t key, (key, w) ∈ d.ledger.crewAt t →
        s.entry = .task t ∧ s.key = key) :
    Roll (d.setPhase u p) := by
  refine { below := h.below, apart := h.apart, single := h.single,
           entered := ?_, unit := ?_, held := ?_ }
  · intro v s' t found' entry
    obtain ⟨s₀, hs, e⟩ := setPhase_unit_back found'
    rw [e] at entry ⊢
    exact h.entered (s := s₀) hs entry
  · intro t key w mem
    obtain ⟨v, s₀, hs, entry, hkey⟩ := h.unit mem
    obtain ⟨q, hs'⟩ := setPhase_unit u p hs
    exact ⟨v, _, hs', entry, hkey⟩
  · intro v s' w found' holds'
    rcases setPhase_cases found found' with ⟨rfl, rfl⟩ | ⟨-, still⟩
    · exact holds w holds'
    · exact h.held still holds'

/-- A unit that goes on with the worker it holds, or lets it go. -/
theorem Roll.goOn (h : Roll d) {u : UnitId} {s : Submitted} {p : Phase}
    (found : d.units[u]? = some s)
    (same : ∀ w, p.worker? = some w → s.phase.worker? = some w) :
    Roll (d.setPhase u p) :=
  h.setPhase found fun w holds => h.held found (same w holds)

/-- A submission enters a new worker under the key of the new unit. -/
theorem Roll.submit (h : Roll d) {x : ExecutorId} {p : PooledState}
    {t : TaskId} {task : Task} (entry : p.entry = .task t)
    (found : d.ledger.tasks[t]? = some task) (w : Work)
    (executors : Array Executor) :
    Roll { d with
      ledger := d.ledger.enlist t (p.nextKey w) .worker
      executors
      units := d.units.push (unitOf x p w) } := by
  obtain ⟨workers, crew, -⟩ := Ledger.enlist_view found (p.nextKey w) .worker
  have size : (d.ledger.enlist t (p.nextKey w) .worker).workers.size
      = d.ledger.workers.size + 1 := by
    rw [workers, Array.size_push]
  refine { below := ?_, apart := ?_, single := ?_, entered := ?_, unit := ?_,
           held := ?_ }
  -- the new worker is in the new place, and that is beyond all the old ones
  · intro u key w' mem
    show w' < (d.ledger.enlist t (p.nextKey w) .worker).workers.size
    rw [size]
    rcases (Ledger.mem_enlist found).mp mem with ⟨mem, -⟩ | ⟨-, -, rfl⟩
    · exact Nat.lt_succ_of_lt (h.below mem)
    · exact Nat.lt_succ_self _
  · intro u u' key key' w' mem mem'
    rcases (Ledger.mem_enlist found).mp mem with ⟨old, -⟩ | ⟨rfl, rfl, rfl⟩
    · rcases (Ledger.mem_enlist found).mp mem' with ⟨old', -⟩ | ⟨-, -, rfl⟩
      · exact h.apart old old'
      · exact absurd (h.below old) (Nat.lt_irrefl _)
    · rcases (Ledger.mem_enlist found).mp mem' with ⟨old', -⟩ | ⟨rfl, rfl, -⟩
      · exact absurd (h.below old') (Nat.lt_irrefl _)
      · exact ⟨rfl, rfl⟩
  · intro u
    show (((d.ledger.enlist t (p.nextKey w) .worker).crewAt u).map _).Nodup
    rw [crew]
    split
    -- the key that comes was taken out before
    · rw [List.map_append, List.nodup_append]
      refine ⟨(h.single t).sublist (List.filter_sublist.map Prod.fst),
        List.pairwise_singleton _ _, ?_⟩
      intro key mem key' mem'
      obtain rfl := List.mem_singleton.mp mem'
      obtain ⟨m, hm, rfl⟩ := List.mem_map.mp mem
      simpa using (List.mem_filter.mp hm).2
    · exact h.single u
  · intro u s t' hs entry'
    show ∃ w', (s.key, w') ∈ (d.ledger.enlist t _ .worker).crewAt t'
    rcases push_back hs with prior | ⟨-, rfl⟩
    -- whom the key belonged to, the new worker has it now
    · obtain ⟨w', mem⟩ := h.entered prior entry'
      by_cases here : t = t' ∧ s.key = p.nextKey w
      · exact ⟨_, (Ledger.mem_enlist found).mpr (.inr ⟨here.1, here.2, rfl⟩)⟩
      · exact ⟨w', (Ledger.mem_enlist found).mpr (.inl ⟨mem, here⟩)⟩
    · have e : t = t' := Entry.task.inj (entry.symm.trans entry')
      exact ⟨_, (Ledger.mem_enlist found).mpr (.inr ⟨e, rfl, rfl⟩)⟩
  · intro u key w' mem
    rcases (Ledger.mem_enlist found).mp mem with ⟨mem, -⟩ | ⟨rfl, rfl, -⟩
    · obtain ⟨v, s, hs, rest⟩ := h.unit mem
      exact ⟨v, s, push_old hs, rest⟩
    · exact ⟨d.units.size, unitOf x p w, Array.getElem?_push_size, entry, rfl⟩
  · intro u s w' hs holds
    rcases push_back hs with prior | ⟨-, rfl⟩
    · obtain ⟨lt, own⟩ := h.held prior holds
      refine ⟨?_, ?_⟩
      · show w' < (d.ledger.enlist t (p.nextKey w) .worker).workers.size
        rw [size]
        exact Nat.lt_succ_of_lt lt
      · intro t' key mem
        rcases (Ledger.mem_enlist found).mp mem with ⟨mem, -⟩ | ⟨-, -, rfl⟩
        · exact own t' key mem
        · exact absurd lt (Nat.lt_irrefl _)
    · cases holds

/-- The roll stays right through every turn. -/
theorem Roll.turn (linked : Linked d) (h : Roll d) (turn : Turn d n evs d') :
    Roll d' := by
  cases turn with
  | aside calm => exact h.beside calm.crew calm.size _ _
  | joined e fresh => exact h.beside (fun _ => rfl) (Nat.le_refl _) _ _
  | told => exact h.beside (fun _ => rfl) (Nat.le_refl _) _ _
  | @submitted x p w pooled =>
      cases entry : p.entry with
      | task t =>
          obtain ⟨task, ht⟩ := linked.entry pooled entry
          exact h.submit entry ht w _
      | untracked =>
          -- nobody is entered for a unit of no task
          refine { below := h.below, apart := h.apart, single := h.single,
                   entered := ?_, unit := ?_, held := ?_ }
          · intro u s t hs e
            rcases push_back hs with prior | ⟨-, rfl⟩
            · exact h.entered prior e
            · rw [show (unitOf x p w).entry = p.entry from rfl, entry] at e
              cases e
          · intro t key w' mem
            obtain ⟨v, s, hs, rest⟩ := h.unit mem
            exact ⟨v, s, push_old hs, rest⟩
          · intro u s w' hs holds
            rcases push_back hs with prior | ⟨-, rfl⟩
            · exact h.held prior holds
            · cases holds
  | @begun u s m w found queued calm finds =>
      have started : (m.startWorker w).workers.size = m.workers.size :=
        Array.size_modify
      have beside : Roll { d with ledger := m.startWorker w } :=
        h.beside (l := m.startWorker w) calm.crew
          (by rw [started]; exact calm.size) _ _
      refine beside.setPhase found ?_
      rintro w' holds
      obtain rfl : w = w' := Option.some.inj holds
      have crew (t : TaskId) : (m.startWorker w).crewAt t
          = d.ledger.crewAt t := calm.crew t
      dsimp only
      rw [started]
      rcases finds with ⟨t, entry, hw⟩ | ⟨-, rfl, lt⟩
      · have mem := mem_of_lookup hw
        refine ⟨Nat.lt_of_lt_of_le (h.below mem) calm.size, ?_⟩
        intro t' key mem'
        rw [crew] at mem'
        obtain ⟨rfl, rfl⟩ := h.apart mem mem'
        exact ⟨entry, rfl⟩
      · refine ⟨lt, ?_⟩
        intro t key mem
        rw [crew] at mem
        exact absurd (h.below mem) (Nat.lt_irrefl _)
  | @performed u s w l ran found phase calm noted =>
      refine (h.beside calm.crew calm.size _ _).goOn found ?_
      intro w' holds
      rw [phase]
      exact holds
  | @ended u s w failure found phase =>
      have size : d.ledger.workers.size
          ≤ (d.ledger.endWorker w).workers.size :=
        Nat.le_of_eq Array.size_modify.symm
      have beside : Roll (d.onLedger (Ledger.endWorker w)) :=
        h.beside (l := d.ledger.endWorker w) (fun _ => rfl) size d.executors
          d.ran
      refine beside.goOn found ?_
      intro w' holds
      rw [phase]
      exact holds
  | @reported u s w failure found phase answer =>
      obtain ⟨crew, workers, -⟩ := Ledger.report_view s.entry w d.ledger
      exact (h.beside crew (Nat.le_of_eq (by rw [workers])) _ _).goOn found
        (fun w' holds => by cases holds)
  | @faulted u s w f failure found phase answer =>
      obtain ⟨crew, workers, -⟩ := Ledger.report_view s.entry w d.ledger
      exact (h.beside crew (Nat.le_of_eq (by rw [workers])) _ _).goOn found
        (fun w' holds => by cases holds)
  | @completed u s l failure found phase calm =>
      have beside : Roll ({ d with ledger := l }.onPooled s.executor
          (credited failure)) := h.beside calm.crew calm.size _ d.ran
      exact beside.goOn found (fun w' holds => by cases holds)
  | @abandoned u s found phase =>
      have beside : Roll (d.onPooled s.executor
          (credited (some s.cancelled))) :=
        h.beside (fun _ => rfl) (Nat.le_refl _) _ d.ran
      exact beside.goOn found (fun w' holds => by cases holds)

end Dispatch

end TaskLedger
