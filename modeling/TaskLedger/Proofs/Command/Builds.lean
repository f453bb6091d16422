/-
Builds one after another that write to one file.

A build finds the file as the one before it left it, and goes on after the
largest number in it. As its own records show just the numbers that come next
(`Finished.numbers_perm`), the file has no gap, and a record of one build never
names a task of another. So what a file has after some builds is told by their
number (`Shelf`), and the summary of each counts right (`Shelf.rows`).

What each build does is `Site.build`. It goes through if the calendar reaches
the moment at which all of its units would be done one after another. Neither
this can be spared, nor that there are as many numbers as records, nor a path at
which a file can be made (`builds_fall_short`). The file is then left with its
records in any case. Its summary is printed unless the times of some task's
workers add up to more than a word holds (`Summary.SumsFit`), which they cannot
if each could take as long as all units of the task do (`Shelf.sumsFit`).
-/
import TaskLedger.Command.Run
import TaskLedger.Proofs.Command.Written

namespace TaskLedger

open Simulate
open Command (SimulateArguments Outcome configFor recordsAt recordsAt_lines
  simulate)

-- =================================================================== shelf

/-- What a file has after `i` builds of `n` tasks with `w` workers each, if
none of these takes longer than `longest` milliseconds. -/
structure Shelf (n w longest i : Nat) (rs : List SpanRecord) : Prop where
  pages : ∃ pages : List Page, rs.Perm (pages.flatMap Page.records)
    ∧ pages.map (fun p => (p.path, p.variant, p.works.length))
      = (List.range i).flatMap fun _ =>
          (List.range n).map fun t => (pathOf t, "debug", w)
  length : rs.length = i * (n * (w + 1))
  shown : ∀ r ∈ rs, ∃ id, r.span.id = some id ∧ r.ids = [id]
  numbers : ((rs.flatMap SpanRecord.ids).map UInt64.toNat).Perm
    (List.range' 1 (i * (n * (w + 1))))
  times : ∀ r ∈ rs, r.span.kind ≠ .task →
    0 ≤ r.span.durationMs.toInt ∧ r.span.durationMs.toInt ≤ longest

namespace Shelf

variable {n w longest i : Nat} {rs more : List SpanRecord}

/-- Before the first build there is nothing. -/
theorem empty (n w longest : Nat) : Shelf n w longest 0 [] where
  pages := ⟨[], .refl _, rfl⟩
  length := by rw [Nat.zero_mul]; rfl
  shown r mem := by cases mem
  numbers := by rw [Nat.zero_mul]; exact .refl _
  times r mem := by cases mem

/-- The largest number in the file is the number of the records. -/
theorem lastId (h : Shelf n w longest i rs) :
    (SpanFile.lastId rs).toNat = i * (n * (w + 1)) := by
  have within (k : Nat) : k ∈ (rs.flatMap SpanRecord.ids).map UInt64.toNat
      ↔ 1 ≤ k ∧ k < 1 + i * (n * (w + 1)) := by
    rw [h.numbers.mem_iff, List.mem_range'_1]
  refine Nat.le_antisymm ?_ ?_
  · refine SpanFile.foldl_id_le (Nat.zero_le _) fun id mem => ?_
    have := ((within _).mp (List.mem_map_of_mem mem)).2
    omega
  · rcases Nat.eq_zero_or_pos (i * (n * (w + 1))) with zero | some
    · rw [zero]
      exact Nat.zero_le _
    · obtain ⟨id, mem, is⟩ := List.mem_map.mp
        ((within (i * (n * (w + 1)))).mpr ⟨some, by omega⟩)
      rw [← is]
      exact SpanFile.mem_le_foldl_id mem 0

/-- What the records are known by. -/
theorem ids_perm (h : Shelf n w longest i rs) :
    (rs.map fun r => r.span.id).Perm
      ((List.range' 1 (i * (n * (w + 1)))).map fun k =>
        some (UInt64.ofNat k)) := by
  have each : (rs.map fun r => r.span.id)
      = (rs.flatMap SpanRecord.ids).map some := by
    rw [List.map_flatMap, ← List.flatMap_singleton' (rs.map _),
      List.flatMap_map]
    refine List.flatMap_congr fun r mem => ?_
    obtain ⟨id, known, ids⟩ := h.shown r mem
    rw [known, ids]
    rfl
  have back := h.numbers.map fun k => some (UInt64.ofNat k)
  rw [List.map_map] at back
  rw [each]
  refine (List.Perm.of_eq (List.map_congr_left fun id _ => ?_)).trans back
  simp

/-- The tasks' own records are on pages with numbers of their own. -/
theorem apart {pages : List Page} (h : Shelf n w longest i rs)
    (perm : rs.Perm (pages.flatMap Page.records)) :
    (pages.map Page.id).Nodup := by
  have nodup : (rs.flatMap SpanRecord.ids).Nodup :=
    .of_map _ (h.numbers.nodup_iff.mpr List.nodup_range')
  have own : pages.map Page.id
      = (pages.map Page.own).flatMap SpanRecord.ids := by
    rw [List.flatMap_map, ← List.flatMap_singleton' (pages.map _),
      List.flatMap_map]
    refine List.flatMap_congr fun p mem => ?_
    obtain ⟨id, known, ids⟩ := h.shown p.own (perm.mem_iff.mpr
      (List.mem_flatMap.mpr ⟨p, mem, List.mem_cons_self⟩))
    rw [ids, ← Option.some.inj (p.numbered.symm.trans known)]
  rw [own, ← Page.own_records]
  obtain ⟨each, apart⟩ :=
    List.nodup_flatMap.mp ((perm.flatMap_right _).nodup_iff.mp nodup)
  exact List.nodup_flatMap.mpr
    ⟨fun r mem => each r (List.mem_filter.mp mem).1, apart.filter _⟩

/-- What is found in such a file is a row for each task of each build. -/
theorem rows (h : Shelf n w longest i rs) :
    ((Summary.found rs).rows.map fun row =>
      (row.task, row.variant, row.work.workers)).Perm
        ((List.range i).flatMap fun _ =>
          (List.range n).map fun t => (pathOf t, "debug", w)) := by
  obtain ⟨pages, perm, are⟩ := h.pages
  exact are ▸ Summary.found_of_pages perm (h.apart perm)

/-- The times in such a file can be summed up if the workers of one task could
take as long as they may. -/
theorem sumsFit (h : Shelf n w longest i rs)
    (sums : w * longest ≤ 9223372036854775807) : Summary.SumsFit rs := by
  obtain ⟨pages, perm, are⟩ := h.pages
  have works : ∀ p ∈ pages, p.works.length = w := by
    intro p mem
    have listed := List.mem_map_of_mem
      (f := fun p : Page => (p.path, p.variant, p.works.length)) mem
    rw [are] at listed
    obtain ⟨_, -, listed⟩ := List.mem_flatMap.mp listed
    obtain ⟨t, -, same⟩ := List.mem_map.mp listed
    exact congrArg (fun e => e.2.2) same.symm
  exact Summary.sumsFit_of_pages perm (h.apart perm) h.times fun p mem => by
    rw [works p mem, ← Int.natCast_mul]
    exact_mod_cast sums

/-- One more build. -/
theorem add {G : Ground} {b : Backend} {a : Instant} {rest : Nat}
    {d : Dispatch} (h : Shelf n w G.longest i rs)
    (done : Finished G b a rest n w d) (last : G.last = i * (n * (w + 1))) :
    Shelf n w G.longest (i + 1) (rs ++ d.ledger.journal.map Write.record) := by
  obtain ⟨pages, perm, are⟩ := h.pages
  obtain ⟨pages', perm', are', length, shown⟩ := done.pages
  exact {
    pages := by
      refine ⟨pages ++ pages', ?_, ?_⟩
      · rw [List.flatMap_append]
        exact perm.append perm'
      · rw [List.map_append, are, are', List.range_succ, List.flatMap_append,
          List.flatMap_singleton]
    length := by
      rw [List.length_append, List.length_map, h.length, length, Nat.succ_mul]
    shown := by
      intro r mem
      rcases List.mem_append.mp mem with old | new
      · exact h.shown r old
      · obtain ⟨line, here, rfl⟩ := List.mem_map.mp new
        exact shown line here
    numbers := by
      have new := done.numbers_perm
      rw [last] at new
      rw [List.flatMap_append, List.map_append, List.flatMap_map, Nat.succ_mul,
        ← List.range'_append_1, Nat.add_comm 1]
      exact h.numbers.append new
    times := by
      intro r mem work
      rcases List.mem_append.mp mem with old | new
      · exact h.times r old work
      · obtain ⟨line, here, rfl⟩ := List.mem_map.mp new
        exact done.times here work }

end Shelf

-- =============================================================== one build

section

variable {path : String} {p : Files.Place} {tree : Files.Tree}
  {rs : List SpanRecord} {b : Backend} {tasks units unitMs : Nat}

/-- What a build goes on from that opens a file of records. -/
def groundOf (path : String) (p : Files.Place) (rs : List SpanRecord)
    (numbers longest : Nat) : Ground where
  path := path
  place := p
  old := rs
  last := (SpanFile.lastId rs).toNat
  numbers := numbers
  longest := longest

/-- A build that has opened such a file is finished, under every pace. -/
theorem finished_build (s : Stint)
    (settled : Files.Settled tree path p (rs.flatMap SpanFile.line))
    (room : (SpanFile.lastId rs).toNat + tasks * (crewSize b units + 1)
      ≤ Sink.largestId.toNat)
    (time : ∀ u < units, ∃ ms, unitTime unitMs u = .ok ms)
    (calendar : s.now.nanos
      + ((tasks * taskMillis unitMs units : Nat) : Int) * 1000000
        ≤ 8210266876799999 * 1000000 + 999999) (pace : Pace) :
    ∃ e a rest, makeMoves pace b unitMs 0 (moves tasks units)
        { ledger := s.begun tree
            { outlet := .file path p, last := SpanFile.lastId rs } }
        = (e, .ok ())
      ∧ Finished (groundOf path p rs (tasks * (crewSize b units + 1))
          (taskMillis unitMs units)) b a rest tasks (crewSize b units) e := by
  let l := s.begun tree { outlet := .file path p, last := SpanFile.lastId rs }
  let G := groundOf path p rs (tasks * (crewSize b units + 1))
    (taskMillis unitMs units)
  have blank : l.Blank := ⟨rfl, rfl, rfl, rfl⟩
  have nothing : ({ ledger := l } : Dispatch).Blank :=
    ⟨rfl, rfl, rfl, rfl, rfl, rfl⟩
  have supply : Ledger.Supplies l.sink G.numbers l :=
    ⟨_, rfl, fun _ _ => rfl, room⟩
  have footing : Footing G 0 G.numbers l :=
    .start_ blank rfl rfl rfl (fun _ _ => rfl) rfl room settled
  have none : ({ ledger := l } : Dispatch).due = 0 := rfl
  have isOver (u : UnitId) (s : Submitted)
      (found : ({ ledger := l } : Dispatch).units[u]? = some s) :
      s.phase.over = true := by cases found
  -- before the first move everything that the build needs is set aside
  have site : Site G b l.now 0 [] (tasks * (crewSize b units + 1)) G.longest
      { ledger := l } := {
    live := rfl
    overseen := ⟨[], nothing.overseen supply⟩
    footing := by
      rw [none, Nat.zero_add]
      exact footing
    onTime := {
      easy := fun found => by cases found
      good := fun found => by cases found
      clock := by
        unfold Ground.until
        rw [Dispatch.toil_over isOver, Int.zero_add] }
    timed := blank.timed rfl
    owners := rfl
    entries := rfl }
  obtain ⟨e, a, rest, done, site, isOver, written⟩ :=
    site.build isOver rfl calendar time pace
  exact ⟨e, a, rest, done, site, isOver, written, rfl, room⟩

variable {a : SimulateArguments} {c : Config} {i : Nat}

/-- How many units of each task of a build are entered into the ledger. -/
abbrev workersOf (b : Backend) (a : SimulateArguments) : Nat :=
  crewSize b a.units.toNat

/-- How many milliseconds the units of a task of a build take together. -/
abbrev millisOfTask (a : SimulateArguments) : Nat :=
  taskMillis a.unitMs.toNat a.units.toNat

/-- How many milliseconds a build takes that does its units one after another. -/
def millisOfBuild (a : SimulateArguments) : Nat :=
  a.tasks.toNat * millisOfTask a

/-- The command simulates one more build, and writes its records behind those
that are there. If the times in all of them can be summed up, the summary is
printed. -/
theorem simulate_adds (output : (configFor a c).output = some path)
    (backend : (configFor a c).execution.backend = .ok b)
    (time : ∀ u < a.units.toNat, ∃ ms, unitTime a.unitMs.toNat u = .ok ms)
    (shelf : Shelf a.tasks.toNat (workersOf b a) (millisOfTask a) i rs)
    (opens : Stint.Opens path p rs tree)
    (numbers : (i + 1) * (a.tasks.toNat * (workersOf b a + 1))
      ≤ Sink.largestId.toNat)
    {now : Instant} (calendar : ∃ z,
      (Duration.ofParts (millisOfBuild a) 0 >>= now.shift) = .ok z)
    (pace : Pace) (name : String) (environment : Environment) :
    let o := simulate pace a c { environment, tree, now, name }
    ∃ new, Files.Settled o.tree path p ((rs ++ new).flatMap SpanFile.line)
      ∧ Shelf a.tasks.toNat (workersOf b a) (millisOfTask a) (i + 1)
          (rs ++ new)
      ∧ (Summary.SumsFit (rs ++ new) → o.ended = .good
        ∧ o.printed = [.build name (configFor a c).usesPool, .written path,
            .table (Summary.found (rs ++ new))]) := by
  obtain ⟨tree', settled, opening⟩ := opens
  let s : Stint := { now, ops := [] }
  obtain ⟨z, reached⟩ := calendar
  have clock := Instant.after_parts reached
  have room : (SpanFile.lastId rs).toNat
      + a.tasks.toNat * (crewSize b a.units.toNat + 1)
        ≤ Sink.largestId.toNat := by
    rw [shelf.lastId, ← Nat.succ_mul]
    exact numbers
  have reach : s.now.nanos + ((a.tasks.toNat
      * taskMillis a.unitMs.toNat a.units.toNat : Nat) : Int) * 1000000
        ≤ 8210266876799999 * 1000000 + 999999 := by
    show now.nanos + ((millisOfBuild a : Nat) : Int) * 1000000 ≤ _
    have le := z.le
    omega
  obtain ⟨e, at_, rest, made, done⟩ :=
    finished_build s settled room time reach pace
  have file : Files.Settled e.ledger.tree path p
      ((rs ++ e.ledger.journal.map Write.record).flatMap SpanFile.line) :=
    done.site.footing.inscribed.file
  have read : recordsAt e.ledger.tree path
      = .ok (rs ++ e.ledger.journal.map Write.record) :=
    recordsAt_lines file.read
  -- what the program does is what the finished build left, printed
  have is : simulate pace a c { environment, tree, now, name }
      = Command.summarized e.ledger.tree
          [.build name (configFor a c).usesPool, .written path]
          (rs ++ e.ledger.journal.map Write.record) := by
    have opened := opening s
    unfold Stint.opening at opened
    unfold simulate Command.sinkOf
    dsimp only
    rw [output]
    dsimp only
    rw [opened, backend]
    dsimp only
    unfold Simulate.run
    rw [made]
    dsimp only
    unfold Command.report
    rw [output]
    dsimp only
    rw [read]
    rfl
  dsimp only
  rw [is]
  unfold Command.summarized
  refine ⟨e.ledger.journal.map Write.record, ?_,
    shelf.add done shelf.lastId, fun fits => ?_⟩
  · -- the file stays whether it is summed up or not
    split <;> exact file
  -- the table comes out of the file, if the sums in it fit
  · rcases Summary.ofRecords_exact (rs ++ e.ledger.journal.map Write.record)
      with ⟨-, summed⟩ | ⟨out, -⟩
    · rw [summed]
      exact ⟨rfl, rfl⟩
    · exact absurd fits out

end

-- ================================================================= builds

/-- What differs from build to build: what the threads of the pool do, when
the build starts, and which name it is given. -/
structure Occasion where
  pace : Pace := .lazy
  now : Instant := .epoch
  name : String := ""

/-- Builds with the same arguments and settings one after another. Each finds
the files as the one before it left them. -/
def builds (a : SimulateArguments) (c : Config) :
    List Occasion → Files.Tree → List Outcome
  | [], _ => []
  | o :: rest, tree =>
      let done := simulate o.pace a c { tree, now := o.now, name := o.name }
      done :: builds a c rest done.tree

variable {path : String} {tree : Files.Tree} {b : Backend}
  {a : SimulateArguments} {c : Config}

/-- What a build leaves that was the last of `i`, and what it reports if the
times of the workers can be summed up. That they can is sure if the workers of a
task could all take as long as its units do together. -/
structure AddsUp (path : String) (b : Backend) (a : SimulateArguments)
    (c : Config) (i : Nat) (name : String) (rs : List SpanRecord)
    (o : Outcome) : Prop where
  read : recordsAt o.tree path = .ok rs
  length : rs.length = i * (a.tasks.toNat * (workersOf b a + 1))
  ids : (rs.map fun r => r.span.id).Perm
    ((List.range' 1 (i * (a.tasks.toNat * (workersOf b a + 1)))).map
      fun k => some (UInt64.ofNat k))
  rows : ((Summary.found rs).rows.map fun row =>
    (row.task, row.variant, row.work.workers)).Perm
      ((List.range i).flatMap fun _ => (List.range a.tasks.toNat).map
        fun t => (pathOf t, "debug", workersOf b a))
  summary : Summary.SumsFit rs → o.ended = .good
    ∧ o.printed = [.build name (configFor a c).usesPool, .written path,
        .table (Summary.found rs)]
  sums : workersOf b a * millisOfTask a ≤ 9223372036854775807
    → Summary.SumsFit rs

/-- Builds that go on from a file with the records of `i` earlier ones. -/
theorem builds_go_on (output : (configFor a c).output = some path)
    (backend : (configFor a c).execution.backend = .ok b)
    (time : ∀ u < a.units.toNat, ∃ ms, unitTime a.unitMs.toNat u = .ok ms)
    {os : List Occasion} (calendar : ∀ o ∈ os, ∃ z,
      (Duration.ofParts (millisOfBuild a) 0 >>= o.now.shift) = .ok z)
    {i : Nat} (numbers : (i + os.length)
        * (a.tasks.toNat * (workersOf b a + 1)) ≤ Sink.largestId.toNat)
    {p : Files.Place} {rs : List SpanRecord}
    (shelf : Shelf a.tasks.toNat (workersOf b a) (millisOfTask a) i rs)
    (opens : Stint.Opens path p rs tree) {j : Nat} {o : Occasion}
    (here : os[j]? = some o) :
    ∃ done all, (builds a c os tree)[j]? = some done
      ∧ AddsUp path b a c (i + j + 1) o.name all done := by
  -- over the builds: each leaves a shelf and a file for the next
  induction os generalizing i j rs tree with
  | nil => cases here
  | cons first rest ih =>
      have later : i + (first :: rest).length = i + 1 + rest.length := by
        rw [List.length_cons]
        omega
      rw [later] at numbers
      have enough : (i + 1) * (a.tasks.toNat * (workersOf b a + 1))
          ≤ Sink.largestId.toNat :=
        (Nat.mul_le_mul_right _ (Nat.le_add_right _ _)).trans numbers
      obtain ⟨new, settled, shelf', printed⟩ :=
        simulate_adds output backend time shelf opens enough
          (calendar first List.mem_cons_self) first.pace first.name []
      cases j with
      | zero =>
          obtain rfl := Option.some.inj here
          exact ⟨_, rs ++ new, rfl, {
            read := recordsAt_lines settled.read
            length := shelf'.length
            ids := shelf'.ids_perm
            rows := shelf'.rows
            summary := printed
            sums := shelf'.sumsFit }⟩
      | succ j =>
          have := ih (fun o mem => calendar o (List.mem_cons_of_mem _ mem))
            numbers shelf' (Stint.opens_settled settled) here
          rwa [show i + 1 + j + 1 = i + (j + 1) + 1 by omega] at this

/-- Let builds with the same arguments and settings run one after another,
with whatever order their pools do the units in, and write to a path at which
nothing is yet and a file can be made. Let the time of a unit be a word, let
there be a number for each record, and let the calendar go as far as each build
takes. Then the file has after the `i`-th build a record for each task and for
each unit of a pool that was given out so far, and these are numbered from one on
without a gap. What is found in it is a row for each step of each build, which
counts the units of that step: none unless there is a pool. This is what the
build prints before it ends well, unless the times of the workers cannot be
summed up. -/
theorem builds_add_up (output : (configFor a c).output = some path)
    (backend : (configFor a c).execution.backend = .ok b)
    (vacant : Files.Vacant tree path)
    (time : ∀ u < a.units.toNat, ∃ ms, unitTime a.unitMs.toNat u = .ok ms)
    {os : List Occasion} (calendar : ∀ o ∈ os, ∃ z,
      (Duration.ofParts (millisOfBuild a) 0 >>= o.now.shift) = .ok z)
    (numbers : os.length * (a.tasks.toNat * (workersOf b a + 1))
      ≤ Sink.largestId.toNat) {i : Nat} {o : Occasion}
    (here : os[i]? = some o) :
    ∃ done rs, (builds a c os tree)[i]? = some done
      ∧ AddsUp path b a c (i + 1) o.name rs done := by
  obtain ⟨p, opens⟩ := Stint.opens_vacant vacant
  have goOn := builds_go_on output backend time calendar (i := 0)
    (by rw [Nat.zero_add]; exact numbers) (.empty _ _ _) opens here
  rwa [Nat.zero_add] at goOn

/-- Two builds of two tasks with three units each. In the second one the pool
is at work while units are still given out, the last ones first. -/
theorem builds_add_up_twice :
    let a : SimulateArguments :=
      { tasks := 2, units := 3, unitMs := 20, output := some "spans" }
    let eager : Occasion := { pace := fun n => [2, 1, 2, n, 0, 2] }
    workersOf (.pooled none) a * millisOfTask a ≤ 9223372036854775807
      ∧ ∃ done rs, (builds a {} [{}, eager] {})[1]? = some done
        ∧ AddsUp "spans" (.pooled none) a {} 2 "" rs done := by
  intro a eager
  have above : (Files.makeParents {} "spans").2.toOption = some () := by
    decide +kernel
  have free : (Files.spot (Files.makeParents {} "spans").1 "spans").toOption
      = some (.free #["spans"]) := by decide +kernel
  have time : ∀ u < a.units.toNat, (unitTime a.unitMs.toNat u).isOk = true := by
    decide
  have reach : (Duration.ofParts (millisOfBuild a) 0
      >>= Instant.epoch.shift).isOk = true := by decide +kernel
  -- whether a number is fit is decided, so the conditions need no witnesses
  have isOk {ε α : Type} {e : Except ε α} (h : e.isOk = true) :
      ∃ x, e = .ok x := by
    cases e with
    | ok x => exact ⟨x, rfl⟩
    | error _ => cases h
  have vacant : Files.Vacant {} "spans" :=
    ⟨_, _, Prod.ext rfl (Stint.ok_of_toOption above),
      Stint.ok_of_toOption free⟩
  have output : (configFor a {}).output = some "spans" := rfl
  have backend : (configFor a {}).execution.backend = .ok (.pooled none) := rfl
  have numbers : [({} : Occasion), eager].length
      * (a.tasks.toNat * (workersOf (.pooled none) a + 1))
        ≤ Sink.largestId.toNat := by decide
  refine ⟨by decide, builds_add_up output backend vacant
    (fun u lt => isOk (time u lt)) ?_ numbers (i := 1) (o := eager) rfl⟩
  intro o mem
  have epoch : o.now = Instant.epoch := by
    rcases List.mem_cons.mp mem with rfl | mem
    · rfl
    · rw [List.mem_singleton.mp mem]
  rw [epoch]
  exact isOk reach

/-- None of the conditions can be spared. Where a file lies in the way of the
path there is no file to write to. A unit whose time is a word can still lead out
of the calendar: a pool reports that as a failure, whose task is then never
written, and without a pool the build breaks off. And there are fewer numbers
than records of some builds that could be asked for. -/
theorem builds_fall_short :
    (let a : SimulateArguments :=
        { tasks := 1, units := 0, unitMs := 0, output := some "f/x" }
      let tree : Files.Tree := ({} : Files.Tree).put #["f"] (.file #[])
      let done := simulate .lazy a {} { tree }
      Files.isThere tree "f/x" = false ∧ done.ended.code = 1
        ∧ (recordsAt done.tree "f/x").toOption = none)
    ∧ (let a : SimulateArguments :=
        { tasks := 1, units := 1, unitMs := 9000000000000000
          output := some "spans" }
      let pooled := simulate .lazy { a with pool := true } {} {}
      let direct := simulate .lazy { a with direct := true } {} {}
      (unitTime a.unitMs.toNat 0).isOk = true
        ∧ pooled.ended.code = 1 ∧ direct.ended.code = 101
        ∧ (recordsAt pooled.tree "spans").toOption.map List.length = some 1
        ∧ (recordsAt direct.tree "spans").toOption.map List.length = some 0)
    ∧ (let a : SimulateArguments := { tasks := 9223372036854775808, units := 1 }
      let records := 1 * (a.tasks.toNat * (workersOf (.pooled none) a + 1))
      ∀ rs : List SpanRecord,
        ¬ (rs.map fun r => r.span.id.map UInt64.toNat).Perm
          ((List.range' 1 records).map some)) := by
  refine ⟨by decide +kernel, by decide +kernel, fun rs perm => ?_⟩
  have last : some 18446744073709551616 ∈ (List.range' 1
      (1 * (9223372036854775808 * (1 + 1)))).map some :=
    List.mem_map_of_mem (List.mem_range'_1.mpr (by omega))
  obtain ⟨r, -, shows⟩ := List.mem_map.mp (perm.mem_iff.mpr last)
  obtain ⟨id, -, is⟩ := Option.map_eq_some_iff.mp shows
  have := id.toNat_lt
  omega

end TaskLedger
