/-
Sessions one after another on one file.

Each session opens the file that the one before it left and goes on after the
largest number in it. Numbers that were handed out and never written are
forgotten, and may be handed out again; so a session's lines are told from
another's by where they lie. All that a session shows, its own numbers and the
numbers of the tasks that its workers name, lies above the counter it started
from, and all that the file shows then lies at or below it (`Book`). Hence no
number is shown twice, and a worker's line that names a task of the file was
written in the session of that task, by a worker that reported to it.

That the file can be opened again, and that it holds the lines of all sessions
so far, is the other half: a session only ever appends to it (`Inscribed`).
-/
import Mathlib.Data.List.Basic
import TaskLedger.Proofs.Files.Reopening
import TaskLedger.Proofs.Ledger.Alike
import TaskLedger.Proofs.Ledger.FileInvariants
import TaskLedger.Proofs.Ledger.Numbering
import TaskLedger.Proofs.SpanFile.Framing

namespace TaskLedger

namespace SpanFile

-- ========================================================= largest numbers

section

variable {ids : List SpanId} {a id : SpanId} {n : Nat}

theorem le_foldl_id (ids : List SpanId) (a : SpanId) :
    a ≤ ids.foldl (fun a b => if a ≤ b then b else a) a := by
  induction ids generalizing a with
  | nil => exact UInt64.le_refl a
  | cons b rest ih =>
      refine UInt64.le_trans ?_ (ih (if a ≤ b then b else a))
      split
      · next le => exact le
      · exact UInt64.le_refl a

theorem mem_le_foldl_id (mem : id ∈ ids) (a : SpanId) :
    id ≤ ids.foldl (fun a b => if a ≤ b then b else a) a := by
  induction ids generalizing a with
  | nil => cases mem
  | cons b rest ih =>
      rcases List.mem_cons.mp mem with rfl | later
      · refine UInt64.le_trans ?_ (le_foldl_id rest (if a ≤ id then id else a))
        split
        · exact UInt64.le_refl id
        · next above => exact UInt64.le_of_lt (UInt64.not_le.mp above)
      · exact ih later (if a ≤ b then b else a)

theorem foldl_id_le (start : a.toNat ≤ n)
    (below : ∀ id ∈ ids, id.toNat ≤ n) :
    (ids.foldl (fun a b => if a ≤ b then b else a) a).toNat ≤ n := by
  induction ids generalizing a with
  | nil => exact start
  | cons b rest ih =>
      refine ih ?_ fun id mem => below id (List.mem_cons_of_mem b mem)
      dsimp only
      split
      · exact below b List.mem_cons_self
      · exact start

end

/-- The largest number of a file is there with what was appended, or less. -/
theorem lastId_append (rs more : List SpanRecord) :
    lastId rs ≤ lastId (rs ++ more)
      ∧ (∀ r ∈ more, ∀ id ∈ r.ids, id ≤ lastId (rs ++ more))
      ∧ ∀ n, (lastId rs).toNat ≤ n →
          (∀ r ∈ more, ∀ id ∈ r.ids, id.toNat ≤ n) →
          (lastId (rs ++ more)).toNat ≤ n := by
  unfold lastId
  rw [List.flatMap_append, List.foldl_append]
  refine ⟨le_foldl_id _ _, ?_, ?_⟩
  · intro r mem id shown
    exact mem_le_foldl_id (List.mem_flatMap.mpr ⟨r, mem, shown⟩) _
  · intro n start below
    refine foldl_id_le start fun id mem => ?_
    obtain ⟨r, mem, shown⟩ := List.mem_flatMap.mp mem
    exact below r mem id shown

end SpanFile

-- ================================================================ chapters

/-- What a session wrote, when the counter started at `c` and stayed at `n`
or below: its numbers lie between the two, no two are the same, and a line
that names a parent is a worker's. The parent lies between `c` and the
worker's own number, and if a task's line shows it, it is the task that the
worker reported to. -/
structure Chapter (c n : Nat) (ws : List Write) : Prop where
  within : ∀ w ∈ ws, ∀ id ∈ w.record.ids, c < id.toNat ∧ id.toNat ≤ n
  apart : (ws.flatMap fun w => w.record.ids).Nodup
  parent : ∀ w ∈ ws, ∀ p, w.record.span.parent = some p →
    ∃ t x id, w.origin = .worker t x ∧ id ∈ w.record.ids
      ∧ c < p.toNat ∧ p.toNat < id.toNat
      ∧ ∀ v ∈ ws, v.record.span.task.isSome = true →
          v.record.span.id = some p → v.origin = .task t

/-- The lines of a ledger whose numbers are in order are a chapter. -/
theorem Ledger.Numbered.chapter {c n b : Nat} {l : Ledger}
    (h : Ledger.Numbered c n b l) (filed : Ledger.Filed b l) :
    Chapter c n l.journal where
  within := by
    intro w mem id shown
    obtain ⟨above, le⟩ := h.shown_le filed mem shown
    have room := h.room
    exact ⟨above, by omega⟩
  apart := h.apart
  parent := by
    intro w mem p named
    cases h.lines w mem with
    | task origin found ids parent => rw [parent] at named; cases named
    | @worker t x task id origin found ids parent bare after below own =>
        rw [parent] at named
        obtain rfl := Option.some.inj named
        refine ⟨t, x, id, origin, by rw [ids]; exact List.mem_singleton_self id,
          h.fresh found, after, ?_⟩
        intro v mem' path shown
        obtain ⟨u, origin'⟩ := filed.named v mem' path
        obtain ⟨other, found', id', -⟩ := filed.own v mem' u origin'
        rw [id'] at shown
        rw [origin', filed.id_inj found' found (Option.some.inj shown)]

/-- The chapters of one file in the order they were written, when the counter
stood at `c` before the first: a chapter starts where no number so far is
above it. -/
inductive Book : Nat → List (List Write) → Prop
  | nil (c : Nat) : Book c []
  | cons {c n c' : Nat} {ws : List Write} {rest : List (List Write)}
      (chapter : Chapter c n ws) (later : c ≤ c')
      (below : ∀ w ∈ ws, ∀ id ∈ w.record.ids, id.toNat ≤ c')
      (more : Book c' rest) : Book c (ws :: rest)

namespace Book

variable {c : Nat} {chapters : List (List Write)} {ws vs : List Write}
  {w v : Write} {p : SpanId}

/-- All numbers lie above the counter before the first chapter. -/
theorem above (h : Book c chapters) (here : ws ∈ chapters) (mem : w ∈ ws) :
    (∀ id ∈ w.record.ids, c < id.toNat)
      ∧ ∀ p, w.record.span.parent = some p → c < p.toNat := by
  induction h with
  | nil => cases here
  | cons chapter later below more ih =>
      rcases List.mem_cons.mp here with rfl | after
      · refine ⟨fun id shown => (chapter.within w mem id shown).1, ?_⟩
        intro p named
        obtain ⟨_, _, _, -, -, above, -⟩ := chapter.parent w mem p named
        exact above
      · obtain ⟨ids, parents⟩ := ih after
        exact ⟨fun id shown => Nat.lt_of_le_of_lt later (ids id shown),
          fun p named => Nat.lt_of_le_of_lt later (parents p named)⟩

/-- No number is shown twice in all chapters. -/
theorem apart (h : Book c chapters) :
    (chapters.flatten.flatMap fun w => w.record.ids).Nodup := by
  induction h with
  | nil => exact List.nodup_nil
  | @cons c n c' ws rest chapter later below more ih =>
      rw [List.flatten_cons, List.flatMap_append]
      refine List.nodup_append.mpr ⟨chapter.apart, ih, ?_⟩
      rintro a here b there rfl
      obtain ⟨w, mem, shown⟩ := List.mem_flatMap.mp here
      obtain ⟨v, mem', shown'⟩ := List.mem_flatMap.mp there
      obtain ⟨vs, after, mem'⟩ := List.mem_flatten.mp mem'
      have le := below w mem a shown
      have lt := (more.above after mem').1 a shown'
      omega

/-- A line that names a task's line as its parent is in the chapter of that
line and belongs to a worker that reported to that task. -/
theorem parent (h : Book c chapters) {i j : Nat}
    (here : chapters[i]? = some ws) (there : chapters[j]? = some vs)
    (mem : w ∈ ws) (mem' : v ∈ vs)
    (path : v.record.span.task.isSome = true)
    (named : w.record.span.parent = some p)
    (shown : v.record.span.id = some p) :
    i = j ∧ ∃ t x, w.origin = .worker t x ∧ v.origin = .task t := by
  have listed : p ∈ v.record.ids :=
    List.mem_filterMap.mpr ⟨_, List.mem_cons_self, shown⟩
  induction h generalizing i j with
  | nil => cases here
  | @cons c n c' first rest chapter later below more ih =>
      cases i with
      | zero =>
          obtain rfl := Option.some.inj here
          obtain ⟨t, x, id, origin, own, -, before, only⟩ :=
            chapter.parent w mem p named
          cases j with
          | zero =>
              obtain rfl := Option.some.inj there
              exact ⟨rfl, t, x, origin, only v mem' path shown⟩
          | succ j =>
              have le := below w mem id own
              have lt := (more.above (List.mem_of_getElem? there) mem').1 p
                listed
              omega
      | succ i =>
          have after : ws ∈ rest := List.mem_of_getElem? here
          cases j with
          | zero =>
              obtain rfl := Option.some.inj there
              have le := below v mem' p listed
              have lt := (more.above after mem).2 p named
              omega
          | succ j =>
              obtain ⟨same, origins⟩ := ih here there
              exact ⟨congrArg (· + 1) same, origins⟩

end Book

-- ================================================================ sessions

/-- A session: what the clocks show when it opens the file, and what is done
from then on. -/
structure Stint where
  now : Instant := .epoch
  wall : Instant := .epoch
  ops : List LedgerOp

namespace Stint

/-- A session opens the file of a path. Nothing is on record yet. -/
def opening (path : String) (s : Stint) (tree : Files.Tree) :
    Ledger × Except Error Unit :=
  ({ now := s.now, wall := s.wall, tree } : Ledger).attachSink (.file path)

/-- The ledger that a session ends with. -/
def ending (path : String) (s : Stint) (tree : Files.Tree) : Ledger :=
  (LedgerOp.run s.ops (s.opening path tree).1).1

/-- Sessions one after another. Each finds the files as the one before it
left them. -/
def inTurn (path : String) : List Stint → Files.Tree →
    Except Error (List Ledger)
  | [], _ => .ok []
  | s :: rest, tree =>
      (s.opening path tree).2.bind fun _ =>
        (inTurn path rest (s.ending path tree).tree).map
          (s.ending path tree :: ·)

/-- How many numbers they take in all. -/
def allocated (path : String) : List Stint → Files.Tree → Nat
  | [], _ => 0
  | s :: rest, tree =>
      LedgerOp.drawn s.ops (s.opening path tree).1
        + allocated path rest (s.ending path tree).tree

/-- They take no more numbers than their operations can ask for. -/
theorem allocated_le (path : String) (ss : List Stint) (tree : Files.Tree) :
    allocated path ss tree
      ≤ ss.foldr (fun s n => LedgerOp.asked s.ops + n) 0 := by
  induction ss generalizing tree with
  | nil => exact Nat.le_refl 0
  | cons s rest ih =>
      rw [allocated, List.foldr_cons]
      exact Nat.add_le_add (LedgerOp.drawn_le s.ops _) (ih _)

variable {path : String} {tree : Files.Tree} {p : Files.Place}
  {rs : List SpanRecord}

/-- A session that has opened its file: what it knows is the one sink. -/
def begun (s : Stint) (tree : Files.Tree) (k : Sink) : Ledger :=
  { now := s.now, wall := s.wall, tree, sinks := #[k] }

/-- Whoever opens the path is given a sink on a file with the lines of some
records, and goes on after the largest number in it. -/
def Opens (path : String) (p : Files.Place) (rs : List SpanRecord)
    (tree : Files.Tree) : Prop :=
  ∃ tree', Files.Settled tree' path p (rs.flatMap SpanFile.line)
    ∧ ∀ s : Stint, s.opening path tree
      = (s.begun tree' { outlet := .file path p, last := SpanFile.lastId rs },
          .ok ())

/-- A file of records opens, and nothing else changes. -/
theorem opens_settled
    (settled : Files.Settled tree path p (rs.flatMap SpanFile.line)) :
    Opens path p rs tree := by
  refine ⟨tree, settled, fun s => ?_⟩
  unfold opening Ledger.attachSink Ledger.prepare Ledger.openFile
  dsimp only
  rw [settled.above]
  dsimp only
  rw [settled.isThere, settled.read, settled.openFile]
  dsimp only
  rw [if_pos rfl, SpanFile.records_lines]
  rfl

/-- Where nothing is yet, an empty file opens. -/
theorem opens_vacant (vacant : Files.Vacant tree path) :
    ∃ p, Opens path p [] tree := by
  obtain ⟨t, p, above, free⟩ := vacant
  have nothing : Files.isThere t path = false := by
    unfold Files.isThere
    rw [free]
  have made : Files.openFile t path = (t.put p (.file #[]), .ok p) := by
    unfold Files.openFile
    rw [free]
  refine ⟨p, _, Files.settled_put above free, fun s => ?_⟩
  unfold opening Ledger.attachSink Ledger.prepare Ledger.openFile
  dsimp only
  rw [above]
  dsimp only
  rw [nothing, made]
  rfl

-- ================================================================= the file

/-- The only sink appends to the file of a path, which holds the lines of
some records and of all that is in the journal. -/
structure Inscribed (path : String) (p : Files.Place) (rs : List SpanRecord)
    (l : Ledger) : Prop where
  sink : ∃ k, l.sinks = #[k] ∧ k.outlet = .file path p
    ∧ ∀ n r, k.refuses n r = none
  file : Files.Settled l.tree path p
    ((rs ++ l.journal.map Write.record).flatMap SpanFile.line)

theorem inscribed_tidy (path : String) (p : Files.Place)
    (rs : List SpanRecord) : Ledger.Tidy (Inscribed path p rs) where
  aside := by
    intro l m h sinks journal tree
    exact ⟨by rw [sinks]; exact h.sink, by rw [journal, tree]; exact h.file⟩
  number := by
    intro l s h
    obtain ⟨k, only, outlet, takes⟩ := h.sink
    unfold Ledger.allocate
    rw [only]
    cases s with
    | succ s => exact h
    | zero =>
        refine ⟨⟨k.next.1, rfl, ?_, ?_⟩, h.file⟩
        · unfold Sink.next
          split <;> exact outlet
        · rw [Ledger.refuses_next]
          exact takes
  write := by
    intro l s o r h
    obtain ⟨k, only, outlet, takes⟩ := h.sink
    unfold Ledger.write
    rw [only]
    cases s with
    | succ s => exact h
    | zero =>
        have at_ : (#[k])[0]? = some k := rfl
        rw [at_]
        dsimp only
        rw [takes, outlet]
        refine ⟨⟨k, rfl, outlet, takes⟩, ?_⟩
        have file := h.file.append (SpanFile.line r)
        dsimp only
        rw [List.map_append, ← List.append_assoc, List.flatMap_append]
        simpa using file

-- ============================================================= in turn

/-- A session writes one chapter, behind what the file had. -/
theorem ending_of_opens (s : Stint) (opens : Opens path p rs tree)
    (ours : ∀ op ∈ s.ops, op.byNobody = false)
    (room : (SpanFile.lastId rs).toNat
      + LedgerOp.drawn s.ops (s.opening path tree).1
        ≤ Sink.largestId.toNat) :
    (s.opening path tree).2 = .ok ()
      ∧ Files.Settled (s.ending path tree).tree path p
          ((rs ++ (s.ending path tree).journal.map Write.record).flatMap
            SpanFile.line)
      ∧ Chapter (SpanFile.lastId rs).toNat
          ((SpanFile.lastId rs).toNat
            + LedgerOp.drawn s.ops (s.opening path tree).1)
          (s.ending path tree).journal := by
  obtain ⟨tree', settled, opening⟩ := opens
  have opened := opening s
  have blank : (s.begun tree'
      { outlet := .file path p, last := SpanFile.lastId rs }).Blank :=
    ⟨rfl, rfl, rfl, rfl⟩
  unfold ending
  rw [opened] at room ⊢
  refine ⟨rfl, ?_, ?_⟩
  · refine ((inscribed_tidy path p rs).run ?_ s.ops).file
    refine ⟨⟨_, rfl, rfl, fun _ _ => rfl⟩, ?_⟩
    show Files.Settled tree' path p ((rs ++ []).flatMap SpanFile.line)
    rw [List.append_nil]
    exact settled
  · obtain ⟨filed, numbered⟩ := (Ledger.numbered_kept _ _).run_drawn (b := 0)
      (fun op mem r e => by
        have other := ours op mem
        rw [e] at other
        cases other)
      ⟨blank.filed ⟨_, rfl, fun _ _ => rfl, room⟩,
        blank.numbered (Nat.le_refl _) (Nat.le_refl _)⟩
    exact numbered.chapter filed

/-- Sessions in turn all open their file, and they write a book. -/
theorem inTurn_of_opens (ss : List Stint) (opens : Opens path p rs tree)
    (ours : ∀ s ∈ ss, ∀ op ∈ s.ops, op.byNobody = false)
    (room : (SpanFile.lastId rs).toNat + allocated path ss tree
      ≤ Sink.largestId.toNat) :
    ∃ ends, inTurn path ss tree = .ok ends ∧ ends.length = ss.length
      ∧ Book (SpanFile.lastId rs).toNat (ends.map Ledger.journal)
      ∧ ∀ l, ends.getLast? = some l →
          Files.Settled l.tree path p ((rs ++ ends.flatMap fun l =>
            l.journal.map Write.record).flatMap SpanFile.line) := by
  induction ss generalizing tree rs with
  | nil => exact ⟨[], rfl, rfl, .nil _, fun l last => by cases last⟩
  | cons s rest ih =>
      rw [allocated] at room
      obtain ⟨opened, settled, chapter⟩ := s.ending_of_opens opens
        (ours s List.mem_cons_self) (by omega)
      obtain ⟨later, below, least⟩ := SpanFile.lastId_append rs
        ((s.ending path tree).journal.map Write.record)
      have spent := least ((SpanFile.lastId rs).toNat
          + LedgerOp.drawn s.ops (s.opening path tree).1)
        (Nat.le_add_right _ _) (by
          intro r mem id shown
          obtain ⟨w, old, rfl⟩ := List.mem_map.mp mem
          exact (chapter.within w old id shown).2)
      obtain ⟨ends, done, length, book, final⟩ := ih (opens_settled settled)
        (fun s mem => ours s (List.mem_cons_of_mem _ mem)) (by omega)
      refine ⟨s.ending path tree :: ends, ?_, ?_, ?_, ?_⟩
      · rw [inTurn, opened]
        show (inTurn path rest (s.ending path tree).tree).map _ = _
        rw [done]
        rfl
      · rw [List.length_cons, List.length_cons, length]
      · refine .cons chapter (UInt64.le_iff_toNat_le.mp later) ?_ book
        intro w mem id shown
        exact UInt64.le_iff_toNat_le.mp
          (below w.record (List.mem_map_of_mem mem) id shown)
      · intro m last
        rw [List.flatMap_cons, ← List.append_assoc]
        cases ends with
        | nil =>
            obtain rfl := Option.some.inj last
            rw [List.flatMap_nil, List.append_nil]
            exact settled
        | cons first others =>
            rw [List.getLast?_cons_cons] at last
            exact final m last

/-- Let sessions run one after another on a path that nothing is at yet, each
opening the file that the one before it left and then doing whatever the
scheduler, tasks and workers do, and let them take fewer numbers in all than
there are. Then every session can open the file, which in the end has the
records of all their journals in order. No number is in it twice. And
whenever a record names as its parent the number that a record with a task's
path shows, the two were written by one session: the one by a worker that
reported to a task, the other by that task. -/
theorem links_unambiguous (path : String) (tree : Files.Tree)
    (ss : List Stint) (vacant : Files.Vacant tree path)
    (ours : ∀ s ∈ ss, ∀ op ∈ s.ops, op.byNobody = false)
    (few : allocated path ss tree < Sink.largestId.toNat) :
    ∃ ends, inTurn path ss tree = .ok ends ∧ ends.length = ss.length
      ∧ (∀ l, ends.getLast? = some l → ∃ bytes,
          Files.read l.tree path = .ok bytes
            ∧ SpanFile.records bytes
              = .ok (ends.flatMap fun l => l.journal.map Write.record))
      ∧ ((ends.flatMap fun l => l.journal.map Write.record).flatMap
          SpanRecord.ids).Nodup
      ∧ ∀ (i j : Nat) (l m : Ledger) (w v : Write) (id : SpanId),
          ends[i]? = some l → ends[j]? = some m → w ∈ l.journal →
          v ∈ m.journal → w.record.span.parent = some id →
          v.record.span.id = some id → v.record.span.task.isSome = true →
          i = j ∧ ∃ t x, w.origin = .worker t x ∧ v.origin = .task t := by
  obtain ⟨p, opens⟩ := opens_vacant vacant
  have least : (SpanFile.lastId []).toNat = 0 := rfl
  obtain ⟨ends, done, length, book, final⟩ :=
    inTurn_of_opens ss opens ours (by omega)
  refine ⟨ends, done, length, ?_, ?_, ?_⟩
  · intro l last
    refine ⟨_, (final l last).read, ?_⟩
    rw [List.nil_append, SpanFile.records_lines]
  · have apart := book.apart
    rw [← List.flatMap_def, List.flatMap_assoc] at apart
    rw [List.flatMap_assoc]
    simpa only [List.flatMap_map] using apart
  · intro i j l m w v id here there mem mem' named shown path
    exact book.parent (by rw [List.getElem?_map, here]; rfl)
      (by rw [List.getElem?_map, there]; rfl) mem mem' path named shown

theorem ok_of_toOption {ε α : Type} {e : Except ε α} {a : α}
    (h : e.toOption = some a) : e = .ok a := by
  cases e with
  | error e => cases h
  | ok b => exact congrArg Except.ok (Option.some.inj h)

/-- The first session leaves two tasks unwritten, and the number of the
second one with them. The next session hands that number out again, and only
its own worker names it. -/
theorem links_unambiguous_number_again :
    let first : Stint :=
      { ops :=
          [.startTask ":a" "" none, .addWorker ":a" .worker,
            .report (.task 0) 0, .startTask ":b" "" none] }
    let second : Stint :=
      { ops :=
          [.startTask ":c" "" none, .addWorker ":c" .worker,
            .report (.task 0) 0, .finishTask ":c"] }
    ∃ l m, inTurn "s" [first, second] {} = .ok [l, m]
      ∧ (l.spanIdOf 1, m.spanIdOf 0) = (3, 3)
      ∧ (∀ w ∈ l.journal, w.record.span.parent ≠ some 3)
      ∧ ∀ w ∈ m.journal, w.record.span.parent = some 3 →
          ∃ x, w.origin = .worker 0 x := by
  intro first second
  have above : (Files.makeParents {} "s").2.toOption = some () := by
    decide +kernel
  have free : (Files.spot (Files.makeParents {} "s").1 "s").toOption
      = some (.free #["s"]) := by decide +kernel
  obtain ⟨ends, done, length, -, -, links⟩ :=
    links_unambiguous "s" {} [first, second]
      ⟨_, _, Prod.ext rfl (ok_of_toOption above), ok_of_toOption free⟩
      (by decide)
      (Nat.lt_of_le_of_lt (allocated_le "s" [first, second] {}) (by decide))
  obtain ⟨l, m, rfl⟩ := List.length_eq_two.mp length
  -- the second session starts over at the number that the first one never wrote
  have seen : (inTurn "s" [first, second] {}).toOption.all (fun ends =>
      ends.map (Ledger.spanIdOf 1) == [3, 0]
        && ends.map (Ledger.spanIdOf 0) == [1, 3]
        && (ends.drop 1).all fun m => m.journal.any fun v =>
            v.origin == .task 0 && v.record.span.id == some 3
              && v.record.span.task.isSome) = true := by
    decide +kernel
  rw [done] at seen
  simp only [Except.toOption, Option.all_some, List.map_cons, List.map_nil,
    List.drop_succ_cons, List.drop_zero, List.all_cons, List.all_nil,
    Bool.and_true, Bool.and_eq_true, beq_iff_eq, List.cons.injEq,
    List.any_eq_true] at seen
  obtain ⟨⟨⟨second_, -⟩, -, third, -⟩, v, mem', ⟨own, shown⟩, path⟩ := seen
  refine ⟨l, m, done, Prod.ext second_ third, ?_, ?_⟩
  -- a worker of the first session would have to be of the same session
  · intro w mem named
    obtain ⟨same, -⟩ := links 0 1 l m w v 3 rfl rfl mem mem' named shown path
    cases same
  · intro w mem named
    obtain ⟨-, t, x, origin, own'⟩ :=
      links 1 1 m m w v 3 rfl rfl mem mem' named shown path
    rw [own] at own'
    obtain rfl := Origin.task.inj own'
    exact ⟨x, origin⟩

end Stint

end TaskLedger
