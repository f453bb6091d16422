/-
What a build has written when it is over.

Each task has one line of its own, and one for each unit that it was given
(`Finished.taskLines`): a unit that is over was seen through, and the workers
of different units are different, since no two units of one executor share a
key. So there are at least as many lines as numbers were set aside. There are
not more either, as each line shows a number of its own (`Finished.shown`).
Hence these are all lines, in some order (`Finished.pages`), and they show just
the numbers that were set aside (`Finished.numbers_perm`).
-/
import Mathlib.Data.List.FinRange
import TaskLedger.Proofs.Command.Building
import TaskLedger.Proofs.Command.Pages

namespace TaskLedger

open Dispatch Simulate

/-- Different numbers between two bounds are some of all that lie there. -/
theorem subperm_range_of_nodup {ns : List Nat} {c n : Nat} (apart : ns.Nodup)
    (within : ∀ i ∈ ns, c < i ∧ i ≤ c + n) :
    ns.Subperm (List.range' (c + 1) n) := by
  refine List.subperm_of_subset apart fun i mem => ?_
  obtain ⟨low, high⟩ := within i mem
  exact List.mem_range'_1.mpr ⟨by omega, by omega⟩

theorem count_flatMap_replicate (n w t : Nat) :
    ((List.range n).flatMap (List.replicate w)).count t
      = if t < n then w else 0 := by
  induction n with
  | zero => rfl
  | succ n ih =>
      rw [List.range_succ, List.flatMap_append, List.count_append, ih,
        List.flatMap_singleton, List.count_replicate]
      simp only [beq_iff_eq]
      split_ifs <;> omega

/-- A build that is over: `n` tasks were started and `w` units of each given
out, every task has its line, and every unit is over. -/
structure Finished (G : Ground) (b : Backend) (a : Instant) (rest n w : Nat)
    (d : Dispatch) : Prop where
  site : Site G b a n ((List.range n).flatMap (List.replicate w)) 0 rest d
  isOver : ∀ (u : UnitId) (s : Submitted), d.units[u]? = some s →
    s.phase.over = true
  written : ∀ i < n, Ledger.Over i d.ledger
  numbers : G.numbers = n * (w + 1)
  room : G.last + G.numbers ≤ Sink.largestId.toNat

namespace Finished

variable {G : Ground} {b : Backend} {a : Instant} {rest n w : Nat}
  {d : Dispatch}
  {t : TaskId} {u : UnitId} {s : Submitted}

theorem filed (h : Finished G b a rest n w d) : d.ledger.Filed (d.due + 0) :=
  h.site.footing.filed

/-- A task's own line. -/
theorem ownLine (h : Finished G b a rest n w d) (lt : t < n) :
    ∃ task line, d.ledger.tasks[t]? = some task ∧ line ∈ d.ledger.journal
      ∧ line.origin = .task t ∧ line.record.span.kind = .task
      ∧ line.record.span.task = some (pathOf t)
      ∧ line.record.variant = some "debug"
      ∧ line.record.span.id = some task.id ∧ line.record.ids = [task.id] := by
  obtain ⟨task, found, terminal⟩ := h.written t lt
  have one := h.filed.once found
  rw [if_pos terminal] at one
  obtain ⟨line, mem, origin⟩ :=
    List.countP_pos_iff.mp (Nat.lt_of_lt_of_eq Nat.zero_lt_one one.symm)
  have origin := eq_of_beq origin
  obtain ⟨task', found', id, -⟩ := h.filed.own line mem t origin
  rw [found] at found'
  obtain rfl := Option.some.inj found'
  obtain ⟨task', found', kind, path, variant⟩ :=
    h.site.footing.worded line mem t origin
  rw [found] at found'
  obtain rfl := Option.some.inj found'
  obtain ⟨named, debug⟩ := h.site.footing.named found
  refine ⟨task, line, found, mem, origin, kind, path.trans (by rw [named]),
    variant.trans debug, id, ?_⟩
  cases h.site.footing.numbered.lines line mem with
  | task origin' found' ids =>
      rw [origin] at origin'
      obtain rfl := Origin.task.inj origin'
      rw [found] at found'
      obtain rfl := Option.some.inj found'
      exact ids
  | worker origin' =>
      rw [origin] at origin'
      cases origin'

/-- A unit works for the task whose executor it was given to. -/
theorem entry (h : Finished G b a rest n w d) (found : d.units[u]? = some s) :
    s.executor < n ∧ s.entry = .task s.executor
      ∧ ∀ y q, d.pooled? y = some q → q.entry = .task s.executor →
          y = s.executor := by
  obtain ⟨seen, overseen⟩ := h.site.overseen
  have each {x : ExecutorId} {p : PooledState} (pooled : d.pooled? x = some p) :
      x < n ∧ p.entry = .task x := by
    have here := entries_of_pooled pooled
    rw [h.site.entries, List.getElem?_map] at here
    rcases Nat.lt_or_ge x n with lt | ge
    · rw [List.getElem?_range lt] at here
      refine ⟨lt, ?_⟩
      cases b with
      | direct => cases here
      | pooled => exact (Option.some.inj (Option.some.inj here)).symm
    · rw [List.getElem?_eq_none (by rwa [List.length_range])] at here
      cases here
  obtain ⟨p, pooled, -, same⟩ := overseen.settled.linked.unit found
  obtain ⟨lt, entry⟩ := each pooled
  refine ⟨lt, same ▸ entry, fun y q other entry' => ?_⟩
  have := (each other).2.symm.trans entry'
  exact Entry.task.inj this

/-- No other unit of the task has the key of one. -/
theorem alone (h : Finished G b a rest n w d) (found : d.units[u]? = some s) :
    Alone u s d := by
  obtain ⟨seen, overseen⟩ := h.site.overseen
  obtain ⟨-, entry, only⟩ := h.entry found
  have room := h.room
  intro v s'
  exact overseen.alone (by omega) only found entry

/-- The line of a unit. -/
theorem unitLine (h : Finished G b a rest n w d) (found : d.units[u]? = some s)
    {task : Task} (owner : d.ledger.tasks[s.executor]? = some task) :
    ∃ x line id, (s.key, x) ∈ d.ledger.crewAt s.executor
      ∧ line ∈ d.ledger.journal ∧ line.origin = .worker s.executor x
      ∧ line.record.span.kind = .worker
      ∧ line.record.span.parent = some task.id
      ∧ line.record.span.id = some id ∧ line.record.ids = [id] := by
  obtain ⟨seen, overseen⟩ := h.site.overseen
  obtain ⟨-, entry, -⟩ := h.entry found
  have alone : Alone u s d := by
    intro v s'
    exact h.alone found
  obtain ⟨x, k, mem, present, -, -, -, kind⟩ :=
    overseen.settled.own.holds found entry alone
  have phase : s.phase.due = false := by
    have isOver := h.isOver u s found
    cases phase : s.phase with
    | completed | abandoned => rfl
    | _ => rw [phase] at isOver; cases isOver
  obtain ⟨task', k', id, found', present', line⟩ :=
    (overseen.booked.alone.holds found entry alone x mem).line phase
  rw [present] at present'
  obtain rfl := Option.some.inj present'
  rw [owner] at found'
  obtain rfl := Option.some.inj found'
  have there : reportLine s.executor x task k id
      ∈ d.ledger.reportsOf s.executor x := by
    rw [line]
    exact List.mem_singleton_self _
  exact ⟨x, _, id, mem, (List.mem_filter.mp there).1, rfl, kind, rfl, rfl, rfl⟩

/-- Two units of one executor have different workers. -/
theorem worker_inj (h : Finished G b a rest n w d) {v : UnitId} {s' : Submitted}
    (found : d.units[u]? = some s) (found' : d.units[v]? = some s')
    (own : s.executor = t) (own' : s'.executor = t) {x : WorkerId}
    (mem : (s.key, x) ∈ d.ledger.crewAt t)
    (mem' : (s'.key, x) ∈ d.ledger.crewAt t) : u = v := by
  obtain ⟨seen, overseen⟩ := h.site.overseen
  obtain ⟨-, entry, -⟩ := h.entry found
  obtain ⟨-, entry', -⟩ := h.entry found'
  have key := (overseen.settled.roll.apart mem mem').2
  exact (h.alone found found' (by rw [entry, entry', own, own'])
    key.symm).symm

/-- How many units each task was given. -/
theorem length_unitsAt (h : Finished G b a rest n w d) (lt : t < n) :
    (d.unitsAt t).length = w := by
  have owned : (d.unitsAt t).length = d.owners.count t := by
    unfold unitsAt owners
    rw [List.length_map, List.count_eq_countP, List.countP_map,
      ← List.countP_eq_length_filter]
    conv_rhs => rw [← List.zipIdx_map_fst 0 d.units.toList, List.countP_map]
    rfl
  rw [owned, h.site.owners, count_flatMap_replicate, if_pos lt]

-- =================================================================== lines

/-- The lines of a task and of the units that it was given. -/
structure TaskLines (w : Nat) (d : Dispatch) (t : TaskId) where
  page : Page
  lines : List Write
  path : page.path = pathOf t
  variant : page.variant = "debug"
  works : page.works.length = w
  records : lines.map Write.record = page.records
  among : ∀ line ∈ lines, line ∈ d.ledger.journal
  apart : lines.Nodup
  length : lines.length = w + 1
  about : ∀ line ∈ lines, line.about? = some t
  shown : ∀ line ∈ lines, ∃ id, line.record.span.id = some id
    ∧ line.record.ids = [id]

/-- Each task has them. -/
theorem taskLines (h : Finished G b a rest n w d) (lt : t < n) :
    Nonempty (TaskLines w d t) := by
  obtain ⟨task, own, found, mem, origin, kind, path, variant, id, ids⟩ :=
    h.ownLine lt
  -- each unit has one line, which one worker wrote
  have each (u : {u // u ∈ d.unitsAt t}) :
      ∃ (line : Write) (x : WorkerId) (s : Submitted), d.units[u.1]? = some s
        ∧ s.executor = t ∧ (s.key, x) ∈ d.ledger.crewAt t
        ∧ line ∈ d.ledger.journal ∧ line.origin = .worker t x
        ∧ line.record.span.kind = .worker
        ∧ line.record.span.parent = some task.id
        ∧ ∃ id, line.record.span.id = some id ∧ line.record.ids = [id] := by
    obtain ⟨s, there, rfl⟩ := mem_unitsAt.mp u.2
    obtain ⟨x, line, id, crew, mem, origin, kind, parent, shown⟩ :=
      h.unitLine there found
    exact ⟨line, x, s, there, rfl, crew, mem, origin, kind, parent, id, shown⟩
  choose line x s there own' crew among origins kinds parents shown using each
  -- two units do not share one, since they do not share a worker
  have inj : Function.Injective line := by
    intro u v same
    have worker := origins v
    rw [← same, origins u] at worker
    obtain ⟨-, same⟩ := Origin.worker.inj worker
    exact Subtype.ext (h.worker_inj (there u) (there v) (own' u) (own' v)
      (crew u) (same ▸ crew v))
  let units := (d.unitsAt t).attach.map line
  have length : units.length = w := by
    rw [List.length_map, List.length_attach, h.length_unitsAt lt]
  have unit {l : Write} (mem : l ∈ units) : ∃ u, line u = l := by
    obtain ⟨u, -, is⟩ := List.mem_map.mp mem
    exact ⟨u, is⟩
  refine ⟨{
    page := {
      path := pathOf t, variant := "debug", id := task.id, own := own.record
      works := units.map Write.record
      kind, named := path, varied := variant, numbered := id
      working := ?_ }
    lines := own :: units
    path := rfl, variant := rfl
    works := by rw [List.length_map, length]
    records := rfl
    among := ?_, apart := ?_
    length := by rw [List.length_cons, length]
    about := ?_, shown := ?_ }⟩
  · intro r worked
    obtain ⟨l, here, rfl⟩ := List.mem_map.mp worked
    obtain ⟨u, rfl⟩ := unit here
    exact ⟨by rw [kinds u]; decide, parents u⟩
  · intro l listed
    rcases List.mem_cons.mp listed with rfl | here
    · exact mem
    · obtain ⟨u, rfl⟩ := unit here
      exact among u
  · refine List.nodup_cons.mpr ⟨fun here => ?_, ?_⟩
    · obtain ⟨u, rfl⟩ := unit here
      rw [origins u] at origin
      cases origin
    · exact (List.nodup_attach.mpr ((sorted_unitsAt t d).imp Nat.ne_of_lt)).map
        inj
  · intro l listed
    unfold Write.about?
    rcases List.mem_cons.mp listed with rfl | here
    · rw [origin]
    · obtain ⟨u, rfl⟩ := unit here
      rw [origins u]
  · intro l listed
    rcases List.mem_cons.mp listed with rfl | here
    · exact ⟨task.id, id, ids⟩
    · obtain ⟨u, rfl⟩ := unit here
      exact shown u

/-- Each line shows one number, and no two show the same. -/
theorem shown (h : Finished G b a rest n w d) :
    let ids := (d.ledger.journal.flatMap fun l => l.record.ids).map
      UInt64.toNat
    ids.length = d.ledger.journal.length ∧ ids.Nodup
      ∧ ∀ i ∈ ids, G.last < i ∧ i ≤ G.last + n * (w + 1) := by
  have numbered := h.site.footing.numbered
  have one : ∀ line ∈ d.ledger.journal, line.record.ids.length = 1 := by
    intro line mem
    cases numbered.lines line mem with
    | task origin found ids | worker origin found ids => rw [ids]; rfl
  refine ⟨?_, numbered.apart.map fun _ _ => UInt64.toNat.inj, ?_⟩
  · rw [List.length_map, List.length_flatMap, List.map_congr_left one,
      List.map_const']
    simp
  · intro i mem
    obtain ⟨id, listed, rfl⟩ := List.mem_map.mp mem
    obtain ⟨line, here, shown⟩ := List.mem_flatMap.mp listed
    obtain ⟨above, le⟩ := numbered.shown_le h.filed here shown
    have room := numbered.room
    rw [h.numbers] at room
    exact ⟨above, by omega⟩

/-- The lines of the tasks are all there are: each is on the page of its task,
and shows one number. -/
theorem pages (h : Finished G b a rest n w d) :
    ∃ pages : List Page,
      (d.ledger.journal.map Write.record).Perm (pages.flatMap Page.records)
        ∧ pages.map (fun p => (p.path, p.variant, p.works.length))
          = (List.range n).map (fun t => (pathOf t, "debug", w))
        ∧ d.ledger.journal.length = n * (w + 1)
        ∧ ∀ line ∈ d.ledger.journal, ∃ id, line.record.span.id = some id
            ∧ line.record.ids = [id] := by
  obtain ⟨listed, different, within⟩ := h.shown
  have few := (subperm_range_of_nodup different within).length_le
  rw [listed, List.length_range'] at few
  let of (i : Fin n) : TaskLines w d i := (h.taskLines i.isLt).some
  let all := (List.finRange n).flatMap fun i => (of i).lines
  have apart : all.Nodup := by
    refine List.nodup_flatMap.mpr ⟨fun i _ => (of i).apart, ?_⟩
    refine (List.nodup_finRange n).imp fun {i j} ne line here there => ?_
    have same := ((of i).about line here).symm.trans ((of j).about line there)
    exact ne (Fin.ext (Option.some.inj same))
  have length : all.length = n * (w + 1) := by
    rw [List.length_flatMap, List.map_congr_left fun i _ => (of i).length,
      List.map_const']
    simp
  have perm : all.Perm d.ledger.journal :=
    (List.subperm_of_subset apart fun line mem => by
      obtain ⟨i, -, here⟩ := List.mem_flatMap.mp mem
      exact (of i).among line here).perm_of_length_le
        (length ▸ few)
  refine ⟨(List.finRange n).map fun i => (of i).page, ?_, ?_,
    perm.length_eq ▸ length, fun line mem => ?_⟩
  · refine (perm.symm.map _).trans (.of_eq ?_)
    rw [List.map_flatMap, List.flatMap_map]
    exact List.flatMap_congr fun i _ => (of i).records
  · rw [List.map_map, ← List.map_coe_finRange_eq_range, List.map_map]
    refine List.map_congr_left fun i _ => ?_
    simp only [Function.comp_apply, (of i).path, (of i).variant, (of i).works]
  · obtain ⟨i, -, here⟩ := List.mem_flatMap.mp (perm.mem_iff.mpr mem)
    exact (of i).shown line here

/-- The numbers that the lines show are those that were set aside. -/
theorem numbers_perm (h : Finished G b a rest n w d) :
    ((d.ledger.journal.flatMap fun l => l.record.ids).map UInt64.toNat).Perm
      (List.range' (G.last + 1) (n * (w + 1))) := by
  obtain ⟨-, -, -, all, -⟩ := h.pages
  obtain ⟨listed, different, within⟩ := h.shown
  exact (subperm_range_of_nodup different within).perm_of_length_le
    (by rw [listed, all, List.length_range'])

/-- No work took longer than the units of its task do together. -/
theorem times (h : Finished G b a rest n w d) {line : Write}
    (mem : line ∈ d.ledger.journal) (work : line.record.span.kind ≠ .task) :
    0 ≤ line.record.span.durationMs.toInt
      ∧ line.record.span.durationMs.toInt ≤ G.longest := by
  have footing := h.site.footing
  cases footing.numbered.lines line mem with
  | @task t task origin found =>
      obtain ⟨_, _, kind, -⟩ := footing.worded line mem t origin
      exact absurd kind work
  | @worker t x task id origin found =>
      have here : line ∈ d.ledger.reportsOf t x :=
        List.mem_filter.mpr ⟨mem, by rw [origin]; exact beq_self_eq_true _⟩
      obtain ⟨low, high⟩ := h.site.timed.lines line here
      exact ⟨low, by omega⟩

end Finished

end TaskLedger
