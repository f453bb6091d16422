/-
Owners with books and owners without.

An executor whose owner is on record books its units: each has a worker in the
crew of the task, and its report takes a number of the task's sink and has a
line written. One whose owner is not on record does none of this
(`Untouched`), and none of its units can be given up (`Plain`).

The owner of either is answered the same (`books_unseen`), by what a unit
comes to and nothing else, as long as no unit is given up for want of a number.
Where one is, the owner is told that a unit was cancelled that ran and succeeded
(`books_seen`).
-/
import TaskLedger.Proofs.Dispatch.OwnerAnswers

namespace TaskLedger

namespace Ledger

-- =============================================================== untouched

/-- No task, no worker of a task and nothing of the sinks has changed. -/
structure Untouched (l m : Ledger) : Prop where
  tasks : m.tasks = l.tasks
  crews : ∀ {t : TaskId} {task : Task}, l.tasks[t]? = some task →
    m.crewOf task = l.crewOf task
  registry : m.registry = l.registry
  sinks : m.sinks = l.sinks
  sink : m.sink = l.sink
  journal : m.journal = l.journal
  tree : m.tree = l.tree

namespace Untouched

variable {l m n : Ledger}

theorem refl (l : Ledger) : Untouched l l :=
  ⟨rfl, fun _ => rfl, rfl, rfl, rfl, rfl, rfl⟩

/-- What is not touched in two parts is not touched in both. -/
theorem trans (h : Untouched l m) (h' : Untouched m n) : Untouched l n where
  tasks := h'.tasks.trans h.tasks
  crews := by
    intro t task found
    have there : m.tasks[t]? = some task := by
      rw [h.tasks]
      exact found
    exact (h'.crews there).trans (h.crews found)
  registry := h'.registry.trans h.registry
  sinks := h'.sinks.trans h.sinks
  sink := h'.sink.trans h.sink
  journal := h'.journal.trans h.journal
  tree := h'.tree.trans h.tree

/-- Time passes, and observers are told something. -/
theorem told (l : Ledger) (now : Instant) (marks : List Mark)
    (warnings : List Warning) : Untouched l { l with now, marks, warnings } :=
  ⟨rfl, fun _ => rfl, rfl, rfl, rfl, rfl, rfl⟩

/-- Workers come or go on that are in no crew. -/
theorem workers (l : Ledger) (marks : List Mark) {ws : Array Worker}
    (same : ∀ {t : TaskId} {key : String} {w : WorkerId},
      (key, w) ∈ l.crewAt t → ws[w]? = l.workers[w]?) :
    Untouched l { l with workers := ws, marks } where
  tasks := rfl
  crews := by
    intro t task found
    unfold crewOf
    refine List.filterMap_congr fun c mem => ?_
    have here : (c.1, c.2) ∈ l.crewAt t := by
      rw [crewAt_of found]
      exact mem
    exact same here
  registry := rfl
  sinks := rfl
  sink := rfl
  journal := rfl
  tree := rfl

end Untouched

end Ledger

namespace Dispatch

open DispatchOp

variable {x : ExecutorId} {d d' : Dispatch} {n : Nat} {evs : List Event}
  {u : UnitId} {s : Submitted}

-- =================================================================== plain

/-- An executor whose owner is not on record, and none of its units was given
up. -/
structure Plain (x : ExecutorId) (d : Dispatch) : Prop where
  owner : ∀ {p : PooledState}, d.pooled? x = some p → p.entry = .untracked
  kept : Kept x d

/-- Where no executor is, none is tracked. -/
theorem Blank.plain (h : d.Blank) (x : ExecutorId) : Plain x d where
  owner found := by
    rw [h.pooled?] at found
    cases found
  kept u s found := by
    rw [h.units] at found
    cases found

/-- A unit of an untracked owner has no task. -/
theorem Plain.unit (h : Plain x d) (linked : Linked d)
    (found : d.units[u]? = some s) (own : s.executor = x) :
    s.entry = .untracked := by
  obtain ⟨p, pooled, -, entry⟩ := linked.unit found
  exact entry.symm.trans (h.owner (own ▸ pooled))

/-- The units of nobody report without fail. -/
theorem Plain.turn (h : Plain x d) (linked : Linked d)
    (turn : Turn d n evs d')
    (owner : ∀ {p : PooledState}, d'.pooled? x = some p →
      p.entry = .untracked) : Plain x d' where
  owner := owner
  kept := by
    intro v s' found' own
    have moved {u : UnitId} {s : Submitted} {q : Phase} {e : Dispatch}
        (found : d.units[u]? = some s) (units : e.units = d.units)
        (intact : s.executor = x → q.intact = true)
        (after : (e.setPhase u q).units[v]? = some s') :
        s'.phase.intact = true := by
      rcases setPhase_cases (by rw [units]; exact found) after with
        ⟨rfl, rfl⟩ | ⟨-, still⟩
      · exact intact own
      · rw [units] at still
        exact h.kept v s' still own
    cases turn with
    | aside | joined | told => exact h.kept v s' found' own
    | submitted =>
        rcases push_back found' with old | ⟨-, rfl⟩
        · exact h.kept v s' old own
        · rfl
    | begun found | performed found | ended found | reported found
    | completed found => exact moved found rfl (fun _ => rfl) found'
    | @faulted u s w f failure found phase answer =>
        refine moved found rfl (fun own => ?_) found'
        rw [h.unit linked found own] at answer
        cases answer
    | @abandoned u s found phase =>
        refine moved (e := d.onPooled _ _) found rfl (fun own => ?_) found'
        have kept := h.kept u s found own
        rw [phase] at kept
        cases kept

end Dispatch

namespace DispatchOp

open Dispatch

variable {x : ExecutorId} {d : Dispatch} {op : DispatchOp}

/-- What is done for an executor: its owner calls it, or one of its units goes
on. -/
def serves (x : ExecutorId) (op : DispatchOp) (d : Dispatch) : Bool :=
  match op with
  | submit y _ | beginAwait y | endAwait y | release y => y == x
  | proceed u => d.units[u]?.any fun s => s.executor == x
  | _ => false

/-- A unit of nobody goes on. -/
theorem untouched_proceed (settled : Settled d) (live : d.stopped = false)
    {u : UnitId} {s : Submitted} (found : d.units[u]? = some s)
    (nobody : s.entry = .untracked) :
    Ledger.Untouched d.ledger (d.proceed u).ledger := by
  -- the worker of such a unit is in no crew
  have apart {w : WorkerId} (holds : s.phase.worker? = some w) {t : TaskId}
      {key : String} {v : WorkerId} (mem : (key, v) ∈ d.ledger.crewAt t) :
      w ≠ v := by
    rintro rfl
    have own := (settled.roll.held found holds).2 t key mem
    rw [nobody] at own
    cases own.1
  cases phase : s.phase with
  | queued =>
      simp only [Dispatch.proceed, found, phase]
      rw [if_neg (by rw [live]; exact Bool.false_ne_true), nobody]
      refine .workers _ _ fun {t key w} mem => ?_
      have below := settled.roll.below mem
      show ((d.ledger.workers.push (Worker.forNobody d.ledger.wall)).modify
        d.ledger.workers.size _)[w]? = _
      rw [Array.getElem?_modify, if_neg (Nat.ne_of_lt below).symm,
        Array.getElem?_push, if_neg (Nat.ne_of_lt below)]
  | begun w =>
      simp only [Dispatch.proceed, found, phase]
      obtain ⟨now, he⟩ := perform_clock s.work d
      rw [he]
      exact .told _ now _ _
  | ran w failure =>
      simp only [Dispatch.proceed, found, phase]
      refine .workers _ _ fun {t key v} mem => ?_
      show (d.ledger.workers.modify w _)[v]? = _
      rw [Array.getElem?_modify, if_neg (apart (by rw [phase]; rfl) mem)]
  | ended w failure =>
      simp only [Dispatch.proceed, found, phase, nobody]
      exact .refl _
  | reported failure =>
      simp only [Dispatch.proceed, found, phase]
      cases failure with
      | none => exact .refl _
      | some cause => exact .told _ _ _ _
  | faulted | completed | abandoned =>
      simp only [Dispatch.proceed, found, phase]
      exact .refl _

/-- What is done for an executor of nobody leaves all the books alone. -/
theorem untouched_apply (settled : Settled d) (live : d.stopped = false)
    (plain : Plain x d) (serves : op.serves x d = true) :
    Ledger.Untouched d.ledger (op.apply d).1.ledger := by
  have named {y : ExecutorId} (same : (y == x) = true) {p : PooledState}
      (pooled : d.pooled? y = some p) : p.entry = .untracked :=
    plain.owner (eq_of_beq same ▸ pooled)
  -- whatever serves an untracked owner goes to the clock, or to nobody
  cases op with
  | submit y w =>
      show Ledger.Untouched d.ledger (d.submit y w).1.ledger
      cases found : d.executors[y]? with
      | none =>
          simp only [Dispatch.submit, found]
          exact .refl _
      | some c =>
      cases c with
      | direct owner =>
          rw [submit_direct found]
          obtain ⟨now, he⟩ := perform_clock w d
          rw [he]
          exact .told _ now _ _
      | pooled p =>
          have nobody : p.entry = .untracked := named serves (by
            unfold Dispatch.pooled?
            rw [found])
          rw [submit_pooled found,
            if_neg (by rw [live]; exact Bool.false_ne_true)]
          show Ledger.Untouched d.ledger
            (Ledger.OnEntry.does p.entry _ d.ledger)
          rw [nobody]
          exact .refl _
  | proceed u =>
      replace serves : d.units[u]?.any (fun s => s.executor == x) = true :=
        serves
      cases found : d.units[u]? with
      | none =>
          rw [found] at serves
          cases serves
      | some s =>
          rw [found] at serves
          exact untouched_proceed settled live found
            (plain.unit settled.linked found (eq_of_beq serves))
  | beginAwait y =>
      show Ledger.Untouched d.ledger (d.beginAwait y).ledger
      cases pooled : d.pooled? y with
      | none =>
          simp only [Dispatch.beginAwait, pooled]
          exact .refl _
      | some p =>
          simp only [Dispatch.beginAwait, pooled, named serves pooled]
          exact .refl _
  | release y =>
      show Ledger.Untouched d.ledger (d.release y).ledger
      cases pooled : d.pooled? y with
      | none =>
          simp only [Dispatch.release, pooled]
          exact .refl _
      | some p =>
          simp only [Dispatch.release, pooled, named serves pooled]
          exact .refl _
  | endAwait y =>
      have same : ((DispatchOp.endAwait y).apply d).1.ledger = d.ledger := by
        unfold DispatchOp.apply Dispatch.endAwait
        dsimp only
        cases d.pooled? y with
        | none => rfl
        | some p =>
            dsimp only
            by_cases idle : p.outstanding = 0
            · rw [if_pos idle]
              rfl
            · rw [if_neg idle]
      rw [same]
      exact .refl _
  | onLedger | addExecutor | stop => cases serves

-- ==================================================================== runs

/-- The owner of an executor stays the same. -/
theorem owner_run {ops : List DispatchOp} {p : PooledState}
    (live : d.stopped = false) (ordinary : Ordinary ops d = true)
    (pooled : d.pooled? x = some p) :
    ∃ q, (run ops d).1.pooled? x = some q ∧ q.entry = p.entry :=
  run_holds (P := fun d => ∃ q, d.pooled? x = some q ∧ q.entry = p.entry)
    (fun ⟨_, before, same⟩ turn =>
      let ⟨q, after, _, same'⟩ := turn.pooled before
      ⟨q, after, same'.trans same⟩)
    live ordinary ⟨p, pooled, rfl⟩

/-- An executor of nobody at the end was one all along. -/
theorem owner_back {ops : List DispatchOp} (live : d.stopped = false)
    (ordinary : Ordinary ops d = true)
    (owner : ∀ {q : PooledState}, (run ops d).1.pooled? x = some q →
      q.entry = .untracked) {p : PooledState}
    (pooled : d.pooled? x = some p) : p.entry = .untracked := by
  obtain ⟨q, after, same⟩ := owner_run live ordinary pooled
  exact same.symm.trans (owner after)

/-- An owner that is untracked in the end was so all along, for an executor
keeps its entry. -/
theorem plain_run {ops : List DispatchOp} (settled : Settled d)
    (live : d.stopped = false) (ordinary : Ordinary ops d = true)
    (plain : Plain x d)
    (owner : ∀ {q : PooledState}, (run ops d).1.pooled? x = some q →
      q.entry = .untracked) : Plain x (run ops d).1 := by
  induction ops generalizing d with
  | nil => exact plain
  | cons op rest ih =>
      obtain ⟨here, later⟩ := Bool.and_eq_true_iff.mp ordinary
      have turn := turn_apply live here
      have live' := turn.stopped.trans live
      exact ih (settled.turn turn) live' later
        (plain.turn settled.linked turn (owner_back live' later owner)) owner

/-- A stretch of a run in which everything is done for an executor of nobody
leaves all the books alone. -/
theorem untouched_run {ops : List DispatchOp} (settled : Settled d)
    (live : d.stopped = false) (ordinary : Ordinary ops d = true)
    (plain : Plain x d)
    (owner : ∀ {q : PooledState}, (run ops d).1.pooled? x = some q →
      q.entry = .untracked)
    (serving : Throughout (serves x) ops d = true) :
    Ledger.Untouched d.ledger (run ops d).1.ledger := by
  induction ops generalizing d with
  | nil => exact .refl _
  | cons op rest ih =>
      obtain ⟨here, later⟩ := Bool.and_eq_true_iff.mp ordinary
      obtain ⟨now, then_⟩ := Bool.and_eq_true_iff.mp serving
      have turn := turn_apply live here
      have live' := turn.stopped.trans live
      exact (untouched_apply settled live plain now).trans
        (ih (settled.turn turn) live' later
          (plain.turn settled.linked turn (owner_back live' later owner))
          owner then_)

/-- Let two pools stay alive, one executor of each be called for the same in
the same order, and what its units come to be their own affair. Let the owner of
the one be anybody, as long as no unit is given up, and the owner of the other
be nobody. Whatever else happens in either run, and in whatever order the units
go on, both owners are answered the same, but for the order of the causes; and
each wait tells of the units that were handed in since the last one and failed,
and of no other. In both a wait is over once every unit is. And what is done for
the executor of nobody, by its owner or by the pool, changes no task and no
worker of one, and nothing of the registry and of the sinks. -/
theorem books_unseen (fate : Work → Option String)
    (ops : List DispatchOp) (d : Dispatch) (x : ExecutorId) (blank : d.Blank)
    (ordinary : Ordinary ops d = true)
    (fates : Throughout (fated fate x) ops d = true)
    (whole : Kept x (run ops d).1)
    (ops' : List DispatchOp) (e : Dispatch) (y : ExecutorId)
    (blank' : e.Blank) (ordinary' : Ordinary ops' e = true)
    (fates' : Throughout (fated fate y) ops' e = true) (q : PooledState)
    (pooled : (run ops' e).1.pooled? y = some q)
    (nobody : q.entry = .untracked)
    (same : calls x ops d = calls y ops' e) :
    List.Forall₂ Agree (replies x ops d) (replies y ops' e)
      ∧ List.Forall₂ Agree (replies x ops d)
        (expected fate (calls x ops d) [])
      ∧ (((run ops d).1.endAwait x).isSome = true ↔ Through x (run ops d).1)
      ∧ (((run ops' e).1.endAwait y).isSome = true
          ↔ Through y (run ops' e).1)
      ∧ ∀ before stretch after, ops' = before ++ stretch ++ after →
          Throughout (serves y) stretch (run before e).1 = true →
          Ledger.Untouched (run before e).1.ledger
            (run (before ++ stretch) e).1.ledger := by
  have owner {p : PooledState} (found : (run ops' e).1.pooled? y = some p) :
      p.entry = .untracked := by
    rw [pooled] at found
    obtain rfl := Option.some.inj found
    exact nobody
  have plain : Plain y (run ops' e).1 :=
    plain_run blank'.settled blank'.stopped ordinary' (blank'.plain y) owner
  have one := answered blank.stopped ordinary fates whole blank.owes
  have other := answered blank'.stopped ordinary' fates' plain.kept blank'.owes
  refine ⟨?_, one, ?_, ?_, ?_⟩
  · rw [same] at one
    exact agree_trans one (agree_symm other)
  · exact (counted_run ops blank.counted
      (stoppable_of_all ordinary)).endAwait_iff
  · exact (counted_run ops' blank'.counted
      (stoppable_of_all ordinary')).endAwait_iff
  · rintro before stretch after rfl serving
    rw [ordinary_append, ordinary_append] at ordinary'
    obtain ⟨both, last⟩ := Bool.and_eq_true_iff.mp ordinary'
    obtain ⟨first, middle⟩ := Bool.and_eq_true_iff.mp both
    have live := run_stopped blank'.stopped first
    have settled : Settled (run before e).1 := settled_run blank' first
    rw [run_append] at last
    rw [run_append, run_append] at owner
    have owner' {p : PooledState} := owner_back (p := p)
      (run_stopped live middle) last owner
    have owner'' {p : PooledState} := owner_back (p := p) live middle owner'
    rw [run_append]
    exact untouched_run settled live middle
      (plain_run blank'.settled blank'.stopped first (blank'.plain y) owner'')
      owner' serving

/-- A unit that succeeds, one that fails and, after a wait, one that gives up:
for a task, across each other, and for nobody, one after the other. -/
theorem books_unseen_two_waits :
    let fate : Work → Option String := fun w =>
      if w.action = "B" then some "B: no"
      else if w.action = "C" then some "C: panicked: boom" else none
    let d : Dispatch := { ledger := { sinks := #[{ outlet := .memory }] } }
    let hand (n : Nat) (schedule : List UnitId) (works : List Work) :
        List DispatchOp :=
      works.map (.submit n) ++ schedule.map .proceed
        ++ [.beginAwait n, .endAwait n]
    let first : List Work :=
      [⟨"A", 1, { ms := 3 }⟩, ⟨"B", 2, { ending := .failure "no" [] }⟩]
    let second : List Work := [⟨"C", 3, { ending := .panic (some "boom") }⟩]
    let ops : List DispatchOp :=
      [.onLedger (.startTask ":a" ":app" none),
        .addExecutor (.pooled { owner := ":a", entry := .task 0 })]
        ++ hand 0 [1, 0, 1, 0, 1, 0, 1, 0, 1, 0] first
        ++ hand 0 (straight 2) second
    let before : List DispatchOp :=
      [.addExecutor (.pooled { owner := ":z", entry := .untracked })]
    let stretch := hand 0 (straight 0 ++ straight 1) first
      ++ hand 0 (straight 2) second
    calls 0 ops d = [.submit ⟨"A", 1, { ms := 3 }⟩,
        .submit ⟨"B", 2, { ending := .failure "no" [] }⟩, .await,
        .submit ⟨"C", 3, { ending := .panic (some "boom") }⟩, .await]
      ∧ List.Forall₂ Agree (replies 0 ops d)
        (replies 0 (before ++ stretch) d)
      ∧ List.Forall₂ Agree (replies 0 ops d)
        (expected fate (calls 0 ops d) [])
      ∧ Ledger.Untouched (run before d).1.ledger
        (run (before ++ stretch) d).1.ledger := by
  intro fate d hand first second ops before stretch
  -- the first run has a number for each report, so no unit is given up
  have kept : Kept 0 (run ops d).1 :=
    kept_of_room ⟨rfl, rfl, rfl, rfl, rfl, rfl⟩ (by decide +kernel) rfl
      (by decide +kernel)
  have owner : ((run (before ++ stretch) d).1.pooled? 0).map
      PooledState.entry = some .untracked := by decide +kernel
  obtain ⟨q, pooled, nobody⟩ := Option.map_eq_some_iff.mp owner
  obtain ⟨agree, told, -, -, untouched⟩ :=
    books_unseen fate ops d 0 ⟨rfl, rfl, rfl, rfl, rfl, rfl⟩
      (by decide +kernel) (by decide +kernel) kept (before ++ stretch) d 0
      ⟨rfl, rfl, rfl, rfl, rfl, rfl⟩ (by decide +kernel) (by decide +kernel)
      q pooled nobody (by decide +kernel)
  exact ⟨by decide +kernel, agree, told,
    untouched before stretch [] (List.append_nil _).symm (by decide +kernel)⟩

/-- Without a number for each report the books show. Two units are run and
succeed, but the sink of the task has one number left: the task is told that one
of them was cancelled before it ran. Nobody is told that both succeeded. -/
theorem books_seen :
    let sink : Sink := { outlet := .memory, last := Sink.largestId - 2 }
    let b : Dispatch := { ledger := { sinks := #[sink] } }
    let way (entry : Entry) : List DispatchOp :=
      [.onLedger (.startTask ":a" ":app" none),
        .addExecutor (.pooled { owner := ":a", entry }),
        .submit 0 ⟨"A", 1, {}⟩, .submit 0 ⟨"B", 2, {}⟩]
        ++ (straight 0 ++ straight 1).map .proceed ++ [.beginAwait 0]
    let one := (run (way (.task 0)) b).1
    let other := (run (way .untracked) b).1
    one.ran = ["A", "B"] ∧ other.ran = ["A", "B"]
      ∧ (one.endAwait 0).map Prod.snd
        = some (.error (.workers ["B: cancelled before it ran"]))
      ∧ (other.endAwait 0).map Prod.snd = some (.ok ()) :=
  ⟨by decide +kernel, by decide +kernel, by rfl, by rfl⟩

end DispatchOp

end TaskLedger
