/-
Requests for numbers to a sink that was opened on a file.

The counter of a sink is a word, and every request moves it on by one, the one
that finds no number too (`Sink.next_eq`). So the answers are known in
advance: the numbers behind the largest of the file in order, a fault where
the word is full, and then the numbers from one on (`answers_requests`).

Whoever stops at the fault has numbers that rise and that the file does not
show. Whoever goes on is given the one, which the file shows or lies below
what it shows, unless no number of the file is above zero; and then it was
handed out before.
-/
import Mathlib.Algebra.Group.Nat.Defs
import TaskLedger.Proofs.Ledger.FileSink
import TaskLedger.Proofs.Ledger.SessionLinks

namespace TaskLedger

/-- The largest number of some records is shown by one of them, unless it is
zero. -/
theorem SpanFile.exists_lastId {rs : List SpanRecord} (some_ : lastId rs ≠ 0) :
    ∃ r ∈ rs, lastId rs ∈ r.ids := by
  have from_ (ids : List SpanId) (a : SpanId) :
      ids.foldl (fun a b => if a ≤ b then b else a) a = a
        ∨ ids.foldl (fun a b => if a ≤ b then b else a) a ∈ ids := by
    induction ids generalizing a with
    | nil => exact .inl rfl
    | cons b rest ih =>
        rw [List.foldl_cons]
        rcases ih (if a ≤ b then b else a) with same | mem
        · rw [same]
          by_cases le : a ≤ b
          · rw [if_pos le]
            exact .inr List.mem_cons_self
          · rw [if_neg le]
            exact .inl rfl
        · exact .inr (List.mem_cons_of_mem b mem)
  rcases from_ (rs.flatMap SpanRecord.ids) 0 with none_ | mem
  · exact absurd none_ some_
  · exact List.mem_flatMap.mp mem

namespace Sink

-- ================================================================ counter

/-- What the request is answered that brings the counter to `n`. A word that
is full comes to zero, which is no number. -/
def numberAt (n : Nat) : Except Fault SpanId :=
  if UInt64.ofNat n = 0 then .error .sumRange else .ok (UInt64.ofNat n)

theorem ofNat_eq_zero_iff {n : Nat} : UInt64.ofNat n = 0 ↔ n % 2 ^ 64 = 0 := by
  rw [← UInt64.toNat_inj, UInt64.toNat_ofNat']
  rfl

/-- A request moves the counter on, whatever it is answered. -/
theorem next_eq (k : Sink) :
    k.next = ({ k with last := UInt64.ofNat (k.last.toNat + 1) },
      numberAt (k.last.toNat + 1)) := by
  have step : UInt64.ofNat (k.last.toNat + 1) = k.last + 1 := by
    rw [UInt64.ofNat_add, UInt64.ofNat_toNat]
    rfl
  unfold next numberAt
  rw [step]
  by_cases full : k.last = largestId
  · rw [if_pos full, full]
    rfl
  · have some_ : ¬ k.last + 1 = 0 := by
      rw [← step, ofNat_eq_zero_iff]
      have lt := k.last.toNat_lt
      have ne : k.last.toNat ≠ largestId.toNat :=
        fun same => full (UInt64.toNat_inj.mp same)
      have : largestId.toNat = 2 ^ 64 - 1 := rfl
      omega
    rw [if_neg full, if_neg some_]

/-- Only the word of a counter matters. -/
theorem numberAt_word (n m : Nat) :
    numberAt ((UInt64.ofNat n).toNat + m) = numberAt (n + m) := by
  unfold numberAt
  rw [UInt64.ofNat_add, UInt64.ofNat_toNat, ← UInt64.ofNat_add]

theorem numberAt_of_pos {n : Nat} (pos : 0 < n % 2 ^ 64) :
    numberAt n = .ok (UInt64.ofNat n) := by
  unfold numberAt
  rw [if_neg]
  rw [ofNat_eq_zero_iff]
  omega

/-- A number is what the counter comes to, and not zero. -/
theorem toNat_of_numberAt {n : Nat} {id : SpanId} (h : numberAt n = .ok id) :
    id.toNat = n % 2 ^ 64 ∧ 0 < id.toNat := by
  unfold numberAt at h
  split at h
  · cases h
  · next some_ =>
    obtain rfl := Except.ok.inj h
    rw [ofNat_eq_zero_iff] at some_
    rw [UInt64.toNat_ofNat']
    omega

end Sink

namespace Ledger

-- =============================================================== requests

/-- So many requests to the sink in charge, and what each is answered. -/
def requests (n : Nat) (l : Ledger) : List (Except Fault LedgerAnswer) :=
  (LedgerOp.run (List.replicate n .allocate) l).2

/-- The number that a request is answered, if it is. -/
def number? : Except Fault LedgerAnswer → Option SpanId
  | .ok (.number id) => some id
  | _ => none

/-- The numbers that so many requests are answered. -/
def handedOut (n : Nat) (l : Ledger) : List SpanId :=
  (l.requests n).filterMap number?

/-- The answers to requests are the numbers behind the counter. -/
theorem answers_requests {l : Ledger} {k : Sink}
    (sink : l.sinks[l.sink]? = some k) (n : Nat) :
    l.requests n = (List.range n).map fun i =>
      (Sink.numberAt (k.last.toNat + 1 + i)).map .number := by
  induction n generalizing l k with
  | zero => rfl
  | succ n ih =>
      have here : l.allocate l.sink
          = ({ l with sinks := l.sinks.setIfInBounds l.sink k.next.1 },
              k.next.2) := by
        unfold allocate
        rw [sink]
      have lt : l.sink < l.sinks.size :=
        (Array.getElem?_eq_some_iff.mp sink).1
      have there := ih
        (l := { l with sinks := l.sinks.setIfInBounds l.sink k.next.1 })
        (k := k.next.1) (by simp [lt])
      unfold requests at there ⊢
      rw [List.replicate_succ, LedgerOp.run, List.range_succ_eq_map,
        List.map_cons, List.map_map]
      unfold LedgerOp.apply LedgerOp.apply.answer
      dsimp only
      rw [here]
      dsimp only
      rw [there, k.next_eq]
      refine congrArg _ (List.map_congr_left fun i _ => ?_)
      rw [Nat.add_assoc, Sink.numberAt_word]
      simp only [Function.comp_apply, Nat.succ_eq_add_one]
      congr 2
      omega

theorem handedOut_eq {l : Ledger} {k : Sink}
    (sink : l.sinks[l.sink]? = some k) (n : Nat) :
    l.handedOut n = (List.range n).filterMap fun i =>
      (Sink.numberAt (k.last.toNat + 1 + i)).toOption := by
  unfold handedOut
  rw [answers_requests sink, List.filterMap_map]
  refine List.filterMap_congr fun i _ => ?_
  rw [Function.comp_apply]
  cases Sink.numberAt (k.last.toNat + 1 + i) <;> rfl

/-- A number that was handed out was so by one of the requests. -/
theorem mem_handedOut {l : Ledger} {k : Sink}
    (sink : l.sinks[l.sink]? = some k) {n : Nat} {id : SpanId} :
    id ∈ l.handedOut n ↔
      ∃ i < n, Sink.numberAt (k.last.toNat + 1 + i) = .ok id := by
  rw [handedOut_eq sink, List.mem_filterMap]
  constructor
  · rintro ⟨i, mem, answer⟩
    exact ⟨i, List.mem_range.mp mem, Stint.ok_of_toOption answer⟩
  · rintro ⟨i, lt, answer⟩
    exact ⟨i, List.mem_range.mpr lt, by rw [answer]; rfl⟩

-- ================================================================ numbers

/-- Numbers that rise and lie above all that some records show. -/
structure Fresh (old : List SpanRecord) (ids : List SpanId) : Prop where
  rising : ids.Pairwise (· < ·)
  above : ∀ id ∈ ids, ∀ r ∈ old, ∀ shown ∈ r.ids, shown < id

section

variable {l : Ledger} {k : Sink} {old : List SpanRecord} {n : Nat}

/-- As long as the word is not left behind, numbers are fresh. -/
theorem fresh_of_room (sink : l.sinks[l.sink]? = some k)
    (last : k.last = SpanFile.lastId old)
    (room : k.last.toNat + n ≤ 2 ^ 64) : Fresh old (l.handedOut n) where
  rising := by
    rw [handedOut_eq sink, List.pairwise_filterMap,
      List.pairwise_iff_getElem]
    intro i j hi hj before a here b there
    rw [List.length_range] at hi hj
    rw [List.getElem_range] at here there
    obtain ⟨first, pos⟩ := Sink.toNat_of_numberAt (Stint.ok_of_toOption here)
    obtain ⟨second, pos'⟩ := Sink.toNat_of_numberAt (Stint.ok_of_toOption there)
    rw [UInt64.lt_iff_toNat_lt]
    omega
  above := by
    intro id mem r shows shown there
    obtain ⟨i, lt, answer⟩ := (mem_handedOut sink).mp mem
    obtain ⟨value, pos⟩ := Sink.toNat_of_numberAt answer
    have most : shown ≤ SpanFile.lastId old :=
      (SpanFile.lastId_append [] old).2.1 r shows shown there
    rw [← last, UInt64.le_iff_toNat_le] at most
    rw [UInt64.lt_iff_toNat_lt]
    omega

/-- Behind the full word the one is handed out, which is not fresh. -/
theorem room_of_fresh (sink : l.sinks[l.sink]? = some k)
    (last : k.last = SpanFile.lastId old)
    (fresh : Fresh old (l.handedOut n)) : k.last.toNat + n ≤ 2 ^ 64 := by
  by_contra beyond
  have lt := k.last.toNat_lt
  have one {m : Nat} (word : m % 2 ^ 64 = 1) :
      Sink.numberAt m = .ok 1 := by
    rw [Sink.numberAt_of_pos (by omega)]
    refine congrArg Except.ok (UInt64.toNat_inj.mp ?_)
    rw [UInt64.toNat_ofNat', word]
    rfl
  by_cases empty : k.last.toNat = 0
  · -- the one was handed out first
    have rising := fresh.rising
    rw [handedOut_eq sink, List.pairwise_filterMap,
      List.pairwise_iff_getElem] at rising
    have again := rising 0 (2 ^ 64) (by rw [List.length_range]; omega)
      (by rw [List.length_range]; omega) (by omega) 1
      (by rw [List.getElem_range, one (by omega)]; rfl) 1
      (by rw [List.getElem_range, one (by omega)]; rfl)
    exact absurd again (by decide)
  · -- the file shows a number that is one or more
    have some_ : SpanFile.lastId old ≠ 0 := fun none_ =>
      empty (by rw [last, none_]; rfl)
    obtain ⟨r, shows, shown⟩ := SpanFile.exists_lastId some_
    have under := fresh.above 1
      ((mem_handedOut sink).mpr ⟨2 ^ 64 - k.last.toNat, by omega,
        one (by omega)⟩) r shows _ shown
    rw [← last, UInt64.lt_iff_toNat_lt] at under
    have : (1 : UInt64).toNat = 1 := rfl
    omega

/-- That no request follows a refused one means that the word is not left
behind. -/
theorem refused_last_iff (sink : l.sinks[l.sink]? = some k) (n : Nat) :
    (∀ i, i + 1 < n → (l.requests n)[i]? ≠ some (.error .sumRange))
      ↔ k.last.toNat + n ≤ 2 ^ 64 := by
  have lt := k.last.toNat_lt
  have answer (i : Nat) (before : i < n) : (l.requests n)[i]?
      = some ((Sink.numberAt (k.last.toNat + 1 + i)).map .number) := by
    rw [answers_requests sink, List.getElem?_map,
      List.getElem?_range before, Option.map_some]
  constructor
  · intro none_
    by_contra beyond
    refine none_ (2 ^ 64 - 1 - k.last.toNat) (by omega) ?_
    rw [answer _ (by omega)]
    unfold Sink.numberAt
    rw [if_pos (Sink.ofNat_eq_zero_iff.mpr (by omega))]
    rfl
  · intro room i before refused
    rw [answer i (by omega), Sink.numberAt_of_pos (by omega)] at refused
    cases refused

end

/-- Let a file sink open, and let numbers be asked of it one after another,
also after a request that was refused. The answers are the numbers behind the
largest of the file as far as the word goes, then one refusal, and then the
numbers from one on. Those that are handed out rise and lie above every
number that a record of the file or a part of it shows, exactly as long as
nobody asks again after a refusal: that is, as long as the requests and the
largest number of the file together are no more than there are words. -/
theorem numbers_fresh_until_refused {l l' : Ledger} {path : String}
    (opened : l.attachSink (.file path) = (l', .ok ())) :
    ∃ old, (∀ bytes, Files.read l.tree path = .ok bytes →
          SpanFile.records bytes = .ok old)
      ∧ SpanFile.records (l.onFile path) = .ok old
      ∧ ∀ n,
          (l'.requests n = (List.range n).map fun i =>
              (Sink.numberAt ((SpanFile.lastId old).toNat + 1 + i)).map
                .number)
            ∧ (Fresh old (l'.handedOut n) ↔
                ∀ i, i + 1 < n →
                  (l'.requests n)[i]? ≠ some (.error .sumRange))
            ∧ (Fresh old (l'.handedOut n) ↔
                (SpanFile.lastId old).toNat + n ≤ 2 ^ 64) := by
  obtain ⟨old, place, read, sink, -⟩ := attachSink_opens opened
  refine ⟨old, ?_, read, fun n => ?_⟩
  · intro bytes there
    rw [← onFile_of_read there]
    exact read
  · have fresh : Fresh old (l'.handedOut n) ↔
        (SpanFile.lastId old).toNat + n ≤ 2 ^ 64 :=
      ⟨room_of_fresh sink rfl, fresh_of_room sink rfl⟩
    refine ⟨answers_requests sink n, ?_, fresh⟩
    rw [fresh]
    exact (refused_last_iff sink n).symm

/-- The largest number but one is shown by a part of a record. One request is
answered, one is refused, and whoever asks again is given the one. -/
theorem numbers_fresh_until_refused_asked_again :
    let part : Span :=
      { id := some 18446744073709551614, kind := .thread, startMs := 0
        durationMs := 0 }
    let r : SpanRecord :=
      { project := ":p"
        span := { id := some 1, kind := .task, startMs := 0, durationMs := 0 }
        children := [part] }
    let l : Ledger :=
      { tree :=
          { entries := [(#["spans.jsonl"],
              .file (SpanFile.line r).toArray)] } }
    ∃ l', l.attachSink (.file "spans.jsonl") = (l', .ok ())
      ∧ l'.requests 3 = [.ok (.number 18446744073709551615),
          .error .sumRange, .ok (.number 1)]
      ∧ Fresh [r] (l'.handedOut 2) ∧ ¬ Fresh [r] (l'.handedOut 3) := by
  intro part r l
  obtain ⟨l', opened⟩ := attachSink_of_isOk
    (show (l.attachSink (.file "spans.jsonl")).2.isOk = true by decide +kernel)
  obtain ⟨old, before, -, asked⟩ := numbers_fresh_until_refused opened
  have there : Files.read l.tree "spans.jsonl" = .ok (SpanFile.line r) :=
    Stint.ok_of_toOption (by decide +kernel)
  have one : SpanFile.records (SpanFile.line r) = .ok [r] := by
    have lines := SpanFile.records_lines [r]
    rwa [List.flatMap_singleton] at lines
  obtain rfl := Except.ok.inj ((before _ there).symm.trans one)
  have last : (SpanFile.lastId [r]).toNat = 18446744073709551614 := rfl
  refine ⟨l', opened, ?_, (asked 2).2.2.mpr (by omega), fun fresh => ?_⟩
  · rw [(asked 3).1, last]
    decide +kernel
  · have := (asked 3).2.2.mp fresh
    omega

end Ledger

end TaskLedger
