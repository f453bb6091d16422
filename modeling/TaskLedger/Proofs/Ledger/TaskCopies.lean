/-
Two copies of one task, in two ledgers that hand out numbers of their own.

The numbers of the one copy stand for those of the other. Which stand for which
is a list of pairs that grows at its end, and both sides of it rise
(`Paired.Rising`), so that going from one side to the other keeps the order
(`Paired.lt_of_lt`). A copy of a span, of a record or of a task is the same but
for the numbers (`Span.Twin`, `SpanRecord.Twin`, `Task.Twin`), and the workers
of a task stand in the place that they have in a list.

Whatever a task does leaves copies copies: each of its moves looks at what both
have in common.
-/
import Mathlib.Data.List.Basic
import Mathlib.Data.List.Forall2
import TaskLedger.Proofs.Ledger.Change

namespace TaskLedger

-- ================================================================= numbers

/-- Numbers with the numbers that stand for them. -/
abbrev Paired := List (SpanId × SpanId)

namespace Paired

variable {ps : Paired} {a b c d : SpanId}

/-- Both sides rise. -/
def Rising (ps : Paired) : Prop :=
  ps.Pairwise fun x y => x.1 < y.1 ∧ x.2 < y.2

/-- The number that stands for one. -/
def image (ps : Paired) (a : SpanId) : SpanId := (ps.lookup a).getD 0

/-- The partner of a number is found by it. -/
theorem image_of_mem (rising : ps.Rising) (mem : (a, b) ∈ ps) :
    ps.image a = b := by
  unfold image
  induction ps with
  | nil => cases mem
  | cons x rest ih =>
      obtain ⟨first, later⟩ := List.pairwise_cons.mp rising
      rcases List.mem_cons.mp mem with rfl | mem
      · rw [List.lookup_cons_self]
        rfl
      -- numbers rise, so the first pair is not in the way of a later one
      · have ne : (a == x.1) = false :=
          beq_false_of_ne (UInt64.ne_of_lt (first _ mem).1).symm
        rw [List.lookup_cons, ne]
        exact ih later mem

/-- Partners come in the same order as the numbers. -/
theorem lt_of_lt (rising : ps.Rising) (mem : (a, b) ∈ ps)
    (mem' : (c, d) ∈ ps) (lt : a < c) : b < d := by
  have both := List.Pairwise.forall_of_forall_of_flip
    (R := fun x y : SpanId × SpanId => x.1 < y.1 → x.2 < y.2)
    (fun x _ lt => absurd lt (UInt64.lt_irrefl _))
    (rising.imp fun h _ => h.2)
    (rising.imp fun h lt => absurd lt (UInt64.lt_asymm h.1))
  exact both mem mem' lt

/-- Greater numbers come last. -/
theorem rising_append (rising : ps.Rising)
    (greater : ∀ x ∈ ps, x.1 < a ∧ x.2 < b) : Rising (ps ++ [(a, b)]) := by
  refine List.pairwise_append.mpr
    ⟨rising, List.pairwise_singleton _ _, fun x mem y here => ?_⟩
  rw [List.mem_singleton.mp here]
  exact greater x mem

end Paired

-- =================================================================== spans

/-- A span with other numbers. -/
def Span.renumber (f : SpanId → SpanId) (s : Span) : Span :=
  { s with id := s.id.map f, parent := s.parent.map f }

/-- A record with other numbers. -/
def SpanRecord.renumber (f : SpanId → SpanId) (r : SpanRecord) : SpanRecord :=
  { r with
    span := r.span.renumber f
    children := r.children.map (Span.renumber f) }

/-- The numbers that a record shows, those of parents included. -/
def SpanRecord.numbers (r : SpanRecord) : List SpanId :=
  (r.span :: r.children).flatMap fun s => s.id.toList ++ s.parent.toList

/-- Both have no number, or one stands for the other. -/
inductive Paired.Match (ps : Paired) : Option SpanId → Option SpanId → Prop
  | none : Match ps none none
  | some {a b : SpanId} (mem : (a, b) ∈ ps) : Match ps (some a) (some b)

/-- A span and its copy. -/
structure Span.Twin (ps : Paired) (s s' : Span) : Prop where
  same : s' = { s with id := s'.id, parent := s'.parent }
  id : ps.Match s.id s'.id
  parent : ps.Match s.parent s'.parent

/-- A record and its copy. -/
structure SpanRecord.Twin (ps : Paired) (r r' : SpanRecord) : Prop where
  project : r'.project = r.project
  variant : r'.variant = r.variant
  span : r.span.Twin ps r'.span
  children : List.Forall₂ (Span.Twin ps) r.children r'.children

section

variable {ps qs : Paired} {s s' : Span} {r r' : SpanRecord}

/-- More pairs match whatever fewer do. -/
theorem Paired.Match.mono {a b : Option SpanId} (h : ps.Match a b)
    (sub : ps ⊆ qs) : qs.Match a b := by
  cases h with
  | none => exact .none
  | some mem => exact .some (sub mem)

/-- What matches is the partner, if there is anything to match. -/
theorem Paired.Match.image {a b : Option SpanId} (h : ps.Match a b)
    (rising : ps.Rising) :
    b = a.map ps.image ∧ ∀ i ∈ a, ∃ j, (i, j) ∈ ps := by
  cases h with
  | none => exact ⟨rfl, fun i mem => by cases mem⟩
  | some mem =>
      refine ⟨congrArg _ (Paired.image_of_mem rising mem).symm, fun i here => ?_⟩
      obtain rfl := Option.some.inj here
      exact ⟨_, mem⟩

theorem Span.Twin.mono (h : s.Twin ps s') (sub : ps ⊆ qs) : s.Twin qs s' :=
  ⟨h.same, h.id.mono sub, h.parent.mono sub⟩

/-- A record stays a copy of the other when more pairs are known. -/
theorem SpanRecord.Twin.mono (h : r.Twin ps r') (sub : ps ⊆ qs) :
    r.Twin qs r' :=
  ⟨h.project, h.variant, h.span.mono sub,
    h.children.imp fun _ _ twin => twin.mono sub⟩

/-- A copy of a span is the span with the numbers that stand for its own. -/
theorem Span.Twin.renumber (h : s.Twin ps s') (rising : ps.Rising) :
    s' = s.renumber ps.image
      ∧ ∀ i ∈ s.id.toList ++ s.parent.toList, ∃ j, (i, j) ∈ ps := by
  obtain ⟨id, ids⟩ := h.id.image rising
  obtain ⟨parent, parents⟩ := h.parent.image rising
  refine ⟨?_, fun i mem => ?_⟩
  · rw [h.same, id, parent]
    rfl
  · rcases List.mem_append.mp mem with here | here
    · exact ids i (Option.mem_toList.mp here)
    · exact parents i (Option.mem_toList.mp here)

/-- So is a copy of a record. -/
theorem SpanRecord.Twin.renumber (h : r.Twin ps r') (rising : ps.Rising) :
    r' = r.renumber ps.image ∧ ∀ i ∈ r.numbers, ∃ j, (i, j) ∈ ps := by
  obtain ⟨span, shown⟩ := h.span.renumber rising
  have children : r'.children = r.children.map (Span.renumber ps.image)
      ∧ ∀ s ∈ r.children, ∀ i ∈ s.id.toList ++ s.parent.toList,
          ∃ j, (i, j) ∈ ps := by
    have twins := h.children
    generalize r.children = as, r'.children = bs at twins
    induction twins with
    | nil => exact ⟨rfl, fun s mem => by cases mem⟩
    | cons twin _ ih =>
        obtain ⟨is, here⟩ := twin.renumber rising
        refine ⟨?_, fun s mem => ?_⟩
        · rw [List.map_cons, is, ih.1]
        · rcases List.mem_cons.mp mem with rfl | mem
          · exact here
          · exact ih.2 s mem
  refine ⟨?_, fun i mem => ?_⟩
  · unfold SpanRecord.renumber
    rw [← span, ← children.1, ← h.project, ← h.variant]
  · obtain ⟨s, listed, here⟩ := List.mem_flatMap.mp mem
    rcases List.mem_cons.mp listed with rfl | listed
    · exact shown i here
    · exact children.2 s listed i here

end

-- =================================================================== tasks

/-- A task and its copy. The workers of the copy are where those of the task
stand in a list. -/
structure Task.Twin (ps : Paired) (ws : List WorkerId) (a b : Task) :
    Prop where
  path : b.path = a.path
  project : b.project = a.project
  variant : b.variant = a.variant
  start : b.start = a.start
  status : b.status = a.status
  ended : b.ended = a.ended
  closed : b.closed = a.closed
  id : (a.id, b.id) ∈ ps
  crew : b.crew = a.crew.map fun c => (c.1, ws.idxOf c.2)
  manned : ∀ c ∈ a.crew, c.2 ∈ ws
  children : List.Forall₂ (Span.Twin ps) a.children b.children

namespace Task.Twin

variable {ps qs : Paired} {ws : List WorkerId} {a b : Task} {now : Instant}

/-- More numbers may come. -/
theorem mono (h : a.Twin ps ws b) (sub : ps ⊆ qs) : a.Twin qs ws b :=
  { h with
    id := sub h.id
    children := h.children.imp fun _ _ twin => twin.mono sub }

/-- And more workers. -/
theorem more (h : a.Twin ps ws b) (more : List WorkerId) :
    a.Twin ps (ws ++ more) b :=
  { h with
    crew := by
      rw [h.crew]
      refine List.map_congr_left fun c mem => ?_
      rw [List.idxOf_append_of_mem (h.manned c mem)]
    manned := fun c mem => List.mem_append_left more (h.manned c mem) }

/-- To wait makes copies of copies, and so do the calls below: each goes by what
the two tasks share. -/
theorem await (h : a.Twin ps ws b) : a.await.Twin ps ws b.await := by
  unfold Task.await
  rw [h.status]
  split
  · exact { h with status := rfl }
  · exact { h with status := rfl }
  · exact h

theorem close (h : a.Twin ps ws b) :
    (a.close now).Twin ps ws (b.close now) := by
  unfold Task.close
  rw [h.status]
  split
  · exact h
  · exact { h with status := rfl, closed := rfl }

theorem finish (h : a.Twin ps ws b) :
    (a.finish now).Twin ps ws (b.finish now) := by
  unfold Task.finish
  rw [h.status]
  split
  · exact h
  · exact { h with status := rfl, ended := by rw [h.ended] }

theorem concluded (h : a.Twin ps ws b) :
    a.concluded.Twin ps ws b.concluded :=
  { h with status := rfl }

theorem noteReport (h : a.Twin ps ws b) (idle : Bool) :
    (a.noteReport now idle).Twin ps ws (b.noteReport now idle) := by
  unfold Task.noteReport
  rw [h.status, h.ended]
  split
  · exact { h with status := rfl, ended := rfl }
  · exact h

theorem attach (h : a.Twin ps ws b) (kind : SpanKind) (thread : UInt64)
    (start : Instant) (length : Duration) :
    (a.attach kind thread start length).Twin ps ws
      (b.attach kind thread start length) := by
  unfold Task.attach
  rw [h.status]
  split
  · exact h
  · exact { h with
      status := rfl
      children := List.rel_append h.children
        (.cons ⟨rfl, .none, .some h.id⟩ .nil) }

/-- Whatever comes next in its lifecycle. -/
theorem turn (h : a.Twin ps ws b) {f : Task → Task}
    (turn : Task.Turn now f) : (f a).Twin ps ws (f b) := by
  cases turn with
  | await => exact h.await
  | close => exact h.close
  | finish => exact h.finish
  | attach kind thread start length => exact h.attach kind thread start length

/-- The new worker comes last in the list as well. -/
theorem enlist (h : a.Twin ps ws b) (key : String) {w : WorkerId}
    (new : w ∉ ws) :
    (a.enlist key w).Twin ps (ws ++ [w]) (b.enlist key ws.length) := by
  have crew := (h.more [w]).crew
  refine { h.more [w] with crew := ?_, manned := ?_ }
  · show b.crew.filter _ ++ _ = (a.crew.filter _ ++ _).map _
    have last : (ws ++ [w]).idxOf w = ws.length := by
      rw [List.idxOf_append_of_notMem new, List.idxOf_cons_self,
        Nat.add_zero]
    rw [crew, List.map_append, List.filter_map, List.map_singleton, last]
    rfl
  · intro c mem
    rcases List.mem_append.mp mem with old | new
    · exact List.mem_append_left [w]
        (h.manned c (List.mem_filter.mp old).1)
    · rw [List.mem_singleton.mp new]
      exact List.mem_append_right ws (List.mem_singleton_self w)

/-- Who is found under a key. -/
theorem lookup (h : a.Twin ps ws b) (key : String) :
    b.crew.lookup key = (a.crew.lookup key).map ws.idxOf := by
  rw [h.crew]
  generalize a.crew = crew
  induction crew with
  | nil => rfl
  | cons c rest ih =>
      obtain ⟨k, w⟩ := c
      rw [List.map_cons, List.lookup_cons, List.lookup_cons]
      cases key == k with
      | true => rfl
      | false => exact ih

/-- Whoever is found in the crew is one of the common workers. -/
theorem mem_of_lookup (h : a.Twin ps ws b) {key : String} {w : WorkerId}
    (found : a.crew.lookup key = some w) : w ∈ ws :=
  h.manned _ (TaskLedger.mem_of_lookup found)

/-- Copies last equally long, since they share crew and times. -/
theorem duration (h : a.Twin ps ws b) (crew : List Worker) :
    b.duration crew = a.duration crew := by
  unfold Task.duration Task.end?
  rw [h.ended, h.start]

/-- What is written for it, if the same is known of its crew. -/
theorem record (h : a.Twin ps ws b) (crew : List Worker) :
    (a.record (a.span crew) a.children).Twin ps
      (b.record (b.span crew) b.children) where
  project := h.project
  variant := h.variant
  span := {
    same := by
      unfold Task.record Task.span
      rw [h.duration, h.start, h.path]
    id := .some h.id
    parent := .none }
  children := h.children

/-- What is written for a worker that reports to it. -/
theorem report (h : a.Twin ps ws b) (k : Worker) {i j : SpanId}
    (mem : (i, j) ∈ ps) :
    (a.record (k.span i a.id) []).Twin ps (b.record (k.span j b.id) []) where
  project := h.project
  variant := h.variant
  span := ⟨rfl, .some mem, .some h.id⟩
  children := .nil

end Task.Twin

-- =================================================================== lines

/-- A line and its copy. Whether a sink refuses one depends on what it is
given, and on when. -/
structure Write.Twin (refuses : Nat → SpanRecord → Option Error)
    (ps : Paired) (v w : Write) : Prop where
  record : v.record.Twin ps w.record
  refused : ∃ n, v.refused = refuses n v.record
  refused' : ∃ n, w.refused = refuses n w.record

/-- A line of the journal stays a copy when more pairs are known. -/
theorem Write.Twin.mono {refuses : Nat → SpanRecord → Option Error}
    {ps qs : Paired} {v w : Write} (h : v.Twin refuses ps w)
    (sub : ps ⊆ qs) : v.Twin refuses qs w :=
  { h with record := h.record.mono sub }

end TaskLedger
