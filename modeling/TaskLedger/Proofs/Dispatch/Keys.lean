/-
The keys of a pooled executor: no two of its units share one, as long as
its counter has not come around.

A key ends in a number sign and the counter in decimal. The digits have no
number sign, so the counter can be read back from a key (`key_number`),
whatever the owner, the action and the hash are. The counter counts the
executor's units, so it tells them apart. It says nothing about the units
of two executors: each has a counter of its own, which starts at zero.
-/
import TaskLedger.Proofs.Dispatch.Frame
import Std.Data.String.ToNat

namespace TaskLedger

-- ============================================================ the number

/-- What follows the last number sign. -/
def afterSign (cs : List Char) : List Char :=
  (cs.reverse.takeWhile fun c => c != '#').reverse

/-- What stands behind the last sign of a key is found, if no sign is in it. -/
theorem afterSign_append (front : List Char) {back : List Char}
    (plain : '#' ∉ back) : afterSign (front ++ '#' :: back) = back := by
  have all : ∀ c ∈ back.reverse, (c != '#') = true := by
    intro c hc
    rw [bne_iff_ne]
    rintro rfl
    exact plain (List.mem_reverse.mp hc)
  have rev : (front ++ '#' :: back).reverse
      = back.reverse ++ '#' :: front.reverse := by simp
  unfold afterSign
  rw [rev, List.takeWhile_append_of_pos all]
  simp

/-- The digits of a number have no number sign. -/
theorem sign_not_mem_digits (n : UInt64) : '#' ∉ (toString n).toList := by
  have digits : (toString n).toList = Nat.toDigits 10 n.toNat :=
    Nat.toList_repr
  rw [digits]
  intro mem
  have digit := Nat.isDigit_of_mem_toDigits (by decide) (by decide) mem
  revert digit
  decide

/-- The number at the end of a key. -/
theorem key_number {front front' : String} {m n : UInt64}
    (same : front ++ "#" ++ toString m = front' ++ "#" ++ toString n) :
    m = n := by
  have read (s : String) (k : UInt64) :
      afterSign (s ++ "#" ++ toString k).toList = (toString k).toList := by
    rw [String.toList_append, String.toList_append, List.append_assoc]
    exact afterSign_append s.toList (sign_not_mem_digits k)
  have digits : (toString m).toList = (toString n).toList := by
    rw [← read front m, ← read front' n, same]
  exact UInt64.toNat.inj (Nat.repr_inj.mp (String.toList_inj.mp digits))

namespace Dispatch

-- ============================================================== counting

/-- The executors of the units, in order of submission. -/
def owners (d : Dispatch) : List ExecutorId :=
  d.units.toList.map Submitted.executor

/-- How many units an executor was given before one of them. -/
def rank (u : UnitId) (x : ExecutorId) (d : Dispatch) : Nat :=
  (d.owners.take u).count x

variable {d d' : Dispatch} {n : Nat} {evs : List Event}

/-- A unit's owner is found at the unit's place. -/
theorem owners_getElem? {u : UnitId} {s : Submitted}
    (found : d.units[u]? = some s) : d.owners[u]? = some s.executor := by
  unfold owners
  rw [List.getElem?_map, Array.getElem?_toList, found]
  rfl

theorem map_setPhase {α : Type} {f : Submitted → α}
    (keep : ∀ s p, f { s with phase := p } = f s) (u : UnitId) (p : Phase)
    (d : Dispatch) :
    (d.setPhase u p).units.toList.map f = d.units.toList.map f := by
  apply List.ext_getElem?
  intro v
  rw [List.getElem?_map, List.getElem?_map, Array.getElem?_toList,
    Array.getElem?_toList, getElem?_setPhase]
  split
  · cases d.units[v]? with
    | none => rfl
    | some s => exact congrArg some (keep s p)
  · rfl

/-- That a unit goes on does not change whose it is. -/
theorem owners_setPhase (u : UnitId) (p : Phase) (d : Dispatch) :
    (d.setPhase u p).owners = d.owners :=
  map_setPhase (fun _ _ => rfl) u p d

/-- Units of one executor are numbered in the order in which they were handed
in. -/
theorem rank_lt {u v : UnitId} {x : ExecutorId}
    (here : d.owners[u]? = some x) (lt : u < v) :
    d.rank u x < d.rank v x := by
  have upto : (d.owners.take (u + 1)).count x = d.rank u x + 1 := by
    unfold rank
    rw [List.take_add_one, here, List.count_append]
    simp
  have sub : (d.owners.take (u + 1)).count x ≤ d.rank v x :=
    (List.take_sublist_take_left lt).count_le x
  omega

/-- And each number is one of those that the executor gave. -/
theorem rank_lt_count {u : UnitId} {x : ExecutorId}
    (here : d.owners[u]? = some x) : d.rank u x < d.owners.count x := by
  have lt := (List.getElem?_eq_some_iff.mp here).1
  have all : d.rank d.owners.length x = d.owners.count x := by
    unfold rank
    rw [List.take_length]
  rw [← all]
  exact rank_lt here lt

-- ================================================================= keyed

/-- An executor's counter counts its units, and the key of a unit ends in
its rank. -/
structure Keyed (d : Dispatch) : Prop where
  sequence : ∀ {x : ExecutorId} {p : PooledState}, d.pooled? x = some p →
    p.sequence = UInt64.ofNat (d.owners.count x)
  key : ∀ {u : UnitId} {s : Submitted}, d.units[u]? = some s →
    s.key = s.work.key s.owner ++ "#"
      ++ toString (UInt64.ofNat (d.rank u s.executor))

/-- Where there are no units, no keys have been given. -/
theorem Blank.keyed (h : d.Blank) : Keyed d where
  sequence := by intro x p found; rw [h.pooled?] at found; cases found
  key := by intro u s found; simp [h.units] at found

theorem Keyed.beside (h : Keyed d) (l : Ledger) (ran : List String) :
    Keyed { d with ledger := l, ran } :=
  ⟨h.sequence, h.key⟩

theorem Keyed.setPhase (h : Keyed d) (u : UnitId) (p : Phase) :
    Keyed (d.setPhase u p) where
  sequence := by
    intro x q found
    rw [owners_setPhase]
    exact h.sequence found
  key := by
    intro v s' found
    obtain ⟨s, hs, e⟩ := setPhase_unit_back found
    have key := h.key hs
    unfold rank
    rw [owners_setPhase, e]
    exact key

/-- What an executor counts off does not matter for the keys that it gives. -/
theorem Keyed.onPooled (h : Keyed d) {f : PooledState → PooledState}
    (keep : ∀ p, (f p).sequence = p.sequence) (x : ExecutorId) :
    Keyed (d.onPooled x f) where
  sequence := by
    intro y p' found
    rw [pooled?_onPooled] at found
    split at found
    · obtain ⟨p, hp, rfl⟩ := Option.map_eq_some_iff.mp found
      rw [keep]
      exact h.sequence hp
    · exact h.sequence found
  key := h.key

/-- A turn gives at most one key, and that by the executor's own count. -/
theorem Keyed.turn (linked : Linked d) (h : Keyed d)
    (turn : Turn d n evs d') : Keyed d' := by
  -- an executor that just came was given no unit
  have unused (x : ExecutorId) (none : d.pooled? x = none) :
      d.owners.count x = 0 := by
    rw [List.count_eq_zero]
    intro mem
    obtain ⟨s, hs, rfl⟩ := List.mem_map.mp mem
    obtain ⟨u, hu⟩ := List.getElem?_of_mem hs
    rw [Array.getElem?_toList] at hu
    obtain ⟨p, hp, -⟩ := linked.unit hu
    rw [none] at hp
    cases hp
  cases turn with
  | aside => exact h.beside _ _
  | joined e fresh =>
      refine ⟨?_, h.key⟩
      intro x p found
      rw [pooled?_push] at found
      split at found
      · next here =>
          cases e with
          | direct => cases found
          | pooled q =>
              obtain rfl := Option.some.inj found
              have zero : q.sequence = 0 := by
                have fresh := (Bool.and_eq_true_iff.mp (fresh q rfl)).1
                rw [eq_of_beq fresh]
              show q.sequence = UInt64.ofNat (d.owners.count x)
              rw [zero, unused]
              · rfl
              · exact pooled?_beyond (Nat.le_of_eq here.symm)
      · exact h.sequence found
  | told => exact h.onPooled (f := cleared) (fun _ => rfl) _
  | @submitted x p w pooled =>
      have owners : (d.units.push (unitOf x p w)).toList.map
          Submitted.executor = d.owners ++ [x] := by
        rw [Array.toList_push, List.map_append]
        rfl
      refine ⟨?_, ?_⟩
      · intro y q found
        unfold Dispatch.owners
        dsimp only
        rw [owners, List.count_append]
        have found : (d.onPooled x charged).pooled? y = some q := found
        rw [pooled?_onPooled] at found
        split at found
        · next e =>
            subst e
            obtain ⟨q', hq, rfl⟩ := Option.map_eq_some_iff.mp found
            show q'.sequence + 1 = _
            rw [h.sequence hq, List.count_singleton_self]
            rw [UInt64.ofNat_add]
            rfl
        · next e =>
            rw [List.count_singleton, beq_eq_false_iff_ne.mpr e]
            exact h.sequence found
      · intro u s found
        unfold rank Dispatch.owners
        dsimp only
        rw [owners]
        have size : d.owners.length = d.units.size := by
          unfold Dispatch.owners
          rw [List.length_map, Array.length_toList]
        rcases push_back found with prior | ⟨rfl, rfl⟩
        · have lt := (Array.getElem?_eq_some_iff.mp prior).1
          rw [List.take_append_of_le_length (by omega)]
          exact h.key prior
        · rw [← size, List.take_left]
          show p.nextKey w = _
          unfold PooledState.nextKey
          rw [h.sequence pooled]
          rfl
  | begun | performed | ended | reported | faulted =>
      exact (h.beside _ _).setPhase _ _
  | @completed u s l failure found phase calm =>
      exact ((h.beside l d.ran).onPooled (f := credited failure)
        (fun _ => rfl) _).setPhase _ _
  | @abandoned u s found phase =>
      exact (h.onPooled (f := credited (some s.cancelled)) (fun _ => rfl)
        _).setPhase _ _

/-- So after an ordinary run every unit has the key that its place among those
of its executor tells. -/
theorem keyed_run {ops : List DispatchOp} (blank : d.Blank)
    (ordinary : DispatchOp.Ordinary ops d = true) :
    Keyed (DispatchOp.run ops d).1 :=
  (run_holds (P := fun d => Linked d ∧ Keyed d)
    (fun h turn => ⟨h.1.turn turn, h.2.turn h.1 turn⟩) blank.stopped ordinary
    ⟨blank.linked, blank.keyed⟩).2

/-- Two units of one executor have different keys, unless it was given more
than 2^64 of them. -/
theorem Keyed.unit_inj (h : Keyed d) {x : ExecutorId}
    (few : d.owners.count x ≤ UInt64.size) {u v : UnitId} {s s' : Submitted}
    (hu : d.units[u]? = some s) (hv : d.units[v]? = some s')
    (own : s.executor = x) (own' : s'.executor = x)
    (same : s.key = s'.key) : u = v := by
  have here : d.owners[u]? = some x := by rw [owners_getElem? hu, own]
  have there : d.owners[v]? = some x := by rw [owners_getElem? hv, own']
  rw [h.key hu, h.key hv, own, own'] at same
  have number := congrArg UInt64.toNat (key_number same)
  have below := rank_lt_count here
  have below' := rank_lt_count there
  rw [UInt64.toNat_ofNat_of_lt' (by omega),
    UInt64.toNat_ofNat_of_lt' (by omega)] at number
  rcases Nat.lt_trichotomy u v with lt | e | gt
  · have := rank_lt here lt
    omega
  · exact e
  · have := rank_lt there gt
    omega

end Dispatch

end TaskLedger
