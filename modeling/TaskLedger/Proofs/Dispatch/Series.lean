/-
The keys that a pooled executor hands out, one after another, whatever is
done to the dispatch: the pool may stop, workers may be moved by hand, and
the executor may have counted before.

`Dispatch.Keys` reads a key's number off an ordinary run from nothing. Here
the keys are listed as the executor makes them (`PooledState.keys`), and
`Issued` says what came between two moments: the units it was given and, on
its list, the keys they were given. One operation issues at most one key
(`issued_apply`), and runs put these together (`issued_run`). Two keys of a
list agree only if their numbers do, and then what stands before the number
sign agrees as well, whatever the texts are (`keys_getElem?_inj`).
-/
import TaskLedger.Proofs.Dispatch.Account
import TaskLedger.Proofs.Dispatch.Untaken

namespace TaskLedger

-- ================================================================ the keys

namespace PooledState

variable {p q : PooledState}

/-- The keys of the units that an executor is given one after another. -/
def keys (p : PooledState) : List Work → List String
  | [] => []
  | w :: rest =>
      p.nextKey w :: keys { p with sequence := p.sequence + 1 } rest

theorem keys_length (works : List Work) (p : PooledState) :
    (p.keys works).length = works.length := by
  induction works generalizing p with
  | nil => rfl
  | cons w rest ih => exact congrArg (· + 1) (ih _)

/-- The keys are made of the owner and the number alone. -/
theorem keys_congr (owner : q.owner = p.owner)
    (sequence : q.sequence = p.sequence) (works : List Work) :
    q.keys works = p.keys works := by
  induction works generalizing p q with
  | nil => rfl
  | cons w rest ih =>
      have here : q.nextKey w = p.nextKey w := by
        unfold nextKey
        rw [owner, sequence]
      show q.nextKey w :: _ = p.nextKey w :: _
      rw [here]
      exact congrArg _ (ih owner (congrArg (· + 1) sequence))

/-- The number of a unit is the first one and its place. -/
theorem sequence_cons (m : UInt64) (i : Nat) :
    m + 1 + UInt64.ofNat i = m + UInt64.ofNat (i + 1) := by
  rw [UInt64.ofNat_add, UInt64.add_assoc, UInt64.add_comm 1]
  rfl

/-- Once it has handed out some keys, an executor goes on with the ones that
come behind them. -/
theorem keys_append {works more : List Work} (owner : q.owner = p.owner)
    (sequence : q.sequence = p.sequence + UInt64.ofNat works.length) :
    p.keys (works ++ more) = p.keys works ++ q.keys more := by
  induction works generalizing p with
  | nil =>
      exact (keys_congr owner (sequence.trans (UInt64.add_zero _)) more).symm
  | cons w rest ih =>
      rw [List.length_cons, ← sequence_cons] at sequence
      exact congrArg (p.nextKey w :: ·)
        (@ih { p with sequence := p.sequence + 1 } owner sequence)

theorem keys_getElem? (works : List Work) (i : Nat) (p : PooledState) :
    (p.keys works)[i]? = works[i]?.map fun w =>
      w.key p.owner ++ "#" ++ toString (p.sequence + UInt64.ofNat i) := by
  induction works generalizing p i with
  | nil => rfl
  | cons w rest ih =>
      cases i with
      | zero =>
          have first : p.sequence + UInt64.ofNat 0 = p.sequence :=
            UInt64.add_zero _
          rw [first]
          rfl
      | succ i =>
          have later := ih i { p with sequence := p.sequence + 1 }
          dsimp only at later
          rw [sequence_cons] at later
          exact later

/-- Two keys agree if the texts before the sign agree and the places are the
same but for whole rounds of the counter, and only then: the digits after the
last sign tell the number, and what is left in front of it is the text. -/
theorem keys_getElem?_inj {works : List Work} {i j : Nat} {v w : Work}
    (hv : works[i]? = some v) (hw : works[j]? = some w) :
    (p.keys works)[i]? = (p.keys works)[j]?
      ↔ v.key p.owner = w.key p.owner ∧ i % UInt64.size = j % UInt64.size := by
  have number : p.sequence + UInt64.ofNat i = p.sequence + UInt64.ofNat j
      ↔ i % UInt64.size = j % UInt64.size := by
    rw [UInt64.add_right_inj, UInt64.ofNat_eq_iff_mod_eq_toNat,
      UInt64.toNat_ofNat']
  rw [keys_getElem?, keys_getElem?, hv, hw, ← number]
  dsimp only [Option.map_some]
  rw [Option.some_inj]
  constructor
  · intro same
    have last := key_number same
    rw [last, String.append_left_inj, String.append_left_inj] at same
    exact ⟨same, last⟩
  · rintro ⟨text, last⟩
    rw [text, last]

/-- Within a round of the counter no key comes twice. -/
theorem keys_nodup {works : List Work} (few : works.length ≤ UInt64.size) :
    (p.keys works).Nodup := by
  rw [List.nodup_iff_getElem?_ne_getElem?]
  intro i j lt bound same
  rw [keys_length] at bound
  have hi := List.getElem?_eq_getElem (Nat.lt_trans lt bound)
  have hj := List.getElem?_eq_getElem bound
  have round := ((keys_getElem?_inj hi hj).mp same).2
  rw [Nat.mod_eq_of_lt (by omega), Nat.mod_eq_of_lt (by omega)] at round
  omega

end PooledState

-- ============================================================== the series

namespace Dispatch

variable {d d' e : Dispatch} {x : ExecutorId} {p : PooledState}
  {works more : List Work}

/-- The keys of the units of an executor, in order of submission. -/
def keysBy (x : ExecutorId) (d : Dispatch) : List String :=
  (d.units.toList.filter fun s => s.executor == x).map Submitted.key

/-- The keys are a reading that a unit's phase does not enter. -/
theorem keysBy_eq (x : ExecutorId) (d : Dispatch) :
    d.keysBy x
      = ((d.units.toList.map fun s => (s.executor, s.key)).filter
          fun k => k.1 == x).map Prod.snd := by
  unfold keysBy
  rw [List.filter_map, List.map_map]
  rfl

/-- A unit that takes a step is what it was but for its phase. -/
theorem map_proceed {α : Type} {f : Submitted → α}
    (keep : ∀ s p, f { s with phase := p } = f s) (u : UnitId)
    (d : Dispatch) :
    (d.proceed u).units.toList.map f = d.units.toList.map f := by
  apply List.ext_getElem?
  intro v
  rw [List.getElem?_map, List.getElem?_map, Array.getElem?_toList,
    Array.getElem?_toList]
  cases found : d.units[v]? with
  | none =>
      rw [Array.getElem?_eq_none_iff] at found
      rw [Array.getElem?_eq_none_iff.mpr (by rw [proceed_size]; exact found)]
  | some s =>
      obtain ⟨q, here, -⟩ := proceed_left u found
      rw [here]
      exact congrArg some (keep s q)

theorem keysBy_proceed (x : ExecutorId) (u : UnitId) (d : Dispatch) :
    (d.proceed u).keysBy x = d.keysBy x := by
  rw [keysBy_eq, map_proceed (fun _ _ => rfl) u d, ← keysBy_eq]

/-- The units that an executor was given between two moments, with the keys
they were given; its counter went on by as many. -/
structure Issued (x : ExecutorId) (p : PooledState) (works : List Work)
    (d d' : Dispatch) : Prop where
  executor : ∃ q, d'.pooled? x = some q ∧ q.owner = p.owner
    ∧ q.sequence = p.sequence + UInt64.ofNat works.length
  keys : d'.keysBy x = d.keysBy x ++ p.keys works

/-- What counts and collects at most issues nothing. -/
theorem Issued.nothing (found : d.pooled? x = some p)
    (executors : d'.cores = d.cores) (keys : d'.keysBy x = d.keysBy x) :
    Issued x p [] d d' where
  executor := by
    rcases core_cases executors x with ⟨none, -, -⟩
        | ⟨p', q, hd, he, -, same⟩
    · rw [none] at found
      cases found
    · have here : d.pooled? x = some p' := by unfold pooled?; rw [hd]
      rw [found] at here
      obtain rfl := Option.some.inj here
      -- the units that the two would queue have the same key
      let w : Work := { action := "", hash := 0 }
      have owner : q.owner = p.owner := congrArg Submitted.owner (same w)
      have key : q.nextKey w = p.nextKey w := congrArg Submitted.key (same w)
      refine ⟨q, by unfold pooled?; rw [he], owner, ?_⟩
      exact (key_number key).trans (UInt64.add_zero _).symm
  keys := keys.trans (List.append_nil _).symm

theorem Issued.trans {q : PooledState} (first : Issued x p works d d')
    (there : d'.pooled? x = some q) (later : Issued x q more d' e) :
    Issued x p (works ++ more) d e := by
  obtain ⟨q', here, owner, sequence⟩ := first.executor
  rw [there] at here
  obtain rfl := Option.some.inj here
  obtain ⟨r, hr, owner', sequence'⟩ := later.executor
  refine ⟨⟨r, hr, owner'.trans owner, ?_⟩, ?_⟩
  · rw [sequence', sequence, List.length_append, UInt64.ofNat_add,
      UInt64.add_assoc]
  · rw [later.keys, first.keys, List.append_assoc,
      PooledState.keys_append owner sequence]

/-- A unit that comes is given the next key of its executor. -/
theorem issued_handed (found : d.pooled? x = some p) {y : ExecutorId}
    {q : PooledState} (other : d.pooled? y = some q) (w : Work) :
    Issued x p (if y = x then [w] else []) d (d.handed y q w) where
  executor := by
    show ∃ r, (d.onPooled y charged).pooled? x = some r ∧ _
    rw [pooled?_onPooled, found]
    by_cases own : y = x
    · rw [if_pos own, if_pos own]
      exact ⟨_, rfl, rfl, rfl⟩
    · rw [if_neg own, if_neg own]
      exact ⟨p, rfl, rfl, (UInt64.add_zero _).symm⟩
  keys := by
    unfold keysBy handed
    dsimp only
    rw [Array.toList_push, List.filter_append, List.map_append]
    by_cases own : y = x
    · subst own
      rw [found] at other
      obtain rfl := Option.some.inj other
      have mine : ((unitOf y p w).executor == y) = true :=
        beq_self_eq_true y
      rw [if_pos rfl, List.filter_cons, if_pos mine]
      rfl
    · have theirs : ¬((unitOf y q w).executor == x) = true :=
        fun same => own (eq_of_beq same)
      rw [if_neg own, List.filter_cons, if_neg theirs]
      rfl

/-- A step of a unit issues nothing. -/
theorem issued_proceed (found : d.pooled? x = some p) (u : UnitId) :
    Issued x p [] d (d.proceed u) :=
  .nothing found (cores_proceed u d) (keysBy_proceed x u d)

theorem issued_submit (found : d.pooled? x = some p) (y : ExecutorId)
    (w : Work) :
    Issued x p (submissions x ((DispatchOp.submit y w).events d)) d
      (d.submit y w).1 := by
  cases other : d.pooled? y with
  | none =>
      have none : submissions x ((DispatchOp.submit y w).events d) = [] := by
        simp only [DispatchOp.events, other]
        rfl
      obtain ⟨l, ran, after⟩ := submit_aside other w
      rw [none, after]
      exact .nothing found rfl rfl
  | some q =>
      have one : submissions x ((DispatchOp.submit y w).events d)
          = if y = x then [w] else [] := by
        simp only [DispatchOp.events, other]
        exact List.append_nil _
      have came := issued_handed found other w
      rw [one, submit_pooled (executor_of other) w]
      by_cases stopped : d.stopped
      · rw [if_pos stopped]
        -- a stopped pool drops the unit, which has its key by then
        obtain ⟨q', there, -⟩ := came.executor
        have dropped := came.trans there (issued_proceed there d.units.size)
        rwa [List.append_nil] at dropped
      · rw [if_neg stopped]
        exact came

end Dispatch

namespace DispatchOp

open Dispatch

variable {d : Dispatch} {x : ExecutorId} {p : PooledState}

/-- One operation, whichever it is. -/
theorem issued_apply (found : d.pooled? x = some p) (op : DispatchOp) :
    Issued x p (submissions x (op.events d)) d (op.apply d).1 := by
  -- only a submission issues a key
  cases op with
  | onLedger op => exact .nothing found rfl rfl
  | stop => exact .nothing found rfl rfl
  | addExecutor c =>
      refine ⟨⟨p, ?_, rfl, (UInt64.add_zero _).symm⟩,
        (List.append_nil _).symm⟩
      show pooled? x { d with executors := d.executors.push c } = some p
      rw [pooled?_push, if_neg]
      · exact found
      · intro beyond
        rw [pooled?_beyond (Nat.le_of_eq beyond.symm)] at found
        cases found
  | submit y w => exact issued_submit found y w
  | proceed u =>
      have none : submissions x ((DispatchOp.proceed u).events d) = [] := by
        simp only [events]
        split
        · rfl
        · split <;> rfl
      rw [none]
      exact issued_proceed found u
  | beginAwait y =>
      show Issued x p [] d (d.beginAwait y)
      unfold Dispatch.beginAwait
      split
      · exact .nothing found rfl rfl
      · exact .nothing found rfl rfl
  | endAwait y =>
      have none : submissions x ((DispatchOp.endAwait y).events d) = [] := by
        simp only [events]
        split <;> rfl
      obtain ⟨executors, after, same⟩ := endAwait_executors y d
      rw [none, after]
      exact .nothing found same rfl
  | release y =>
      show Issued x p [] d (d.release y)
      unfold Dispatch.release
      split
      · exact .nothing found rfl rfl
      · exact .nothing found rfl rfl

/-- A run issues the keys of all the units that it hands an executor. -/
theorem issued_run (found : d.pooled? x = some p) (ops : List DispatchOp) :
    Issued x p (submissions x (history ops d)) d (run ops d).1 := by
  induction ops generalizing d p with
  | nil => exact .nothing found rfl rfl
  | cons op rest ih =>
      have first := issued_apply found op
      obtain ⟨q, there, -⟩ := first.executor
      have both := first.trans there (ih there)
      have all : submissions x (history (op :: rest) d)
          = submissions x (op.events d)
            ++ submissions x (history rest (op.apply d).1) :=
        List.flatMap_append
      rw [all]
      exact both

/-- Whatever is done to a dispatch, an executor gives its units the keys of
its list, one each and in order. Two of them agree only if the owner's, the
action's and the hash's texts agree in a row and the units came a whole
number of rounds of the counter apart. So as long as the counter has not
come around no key is given twice, whatever the owner and the actions are
called: not to equal units, and not to those whose texts run into each
other. -/
theorem keys_never_repeat (ops : List DispatchOp) (d : Dispatch)
    (x : ExecutorId) (p : PooledState) (found : d.pooled? x = some p) :
    let works := submissions x (history ops d)
    let keys := p.keys works
    (run ops d).1.keysBy x = d.keysBy x ++ keys
      ∧ (∀ (i j : Nat) (v w : Work), works[i]? = some v →
          works[j]? = some w →
          (keys[i]? = keys[j]?
            ↔ v.key p.owner = w.key p.owner ∧ i % UInt64.size = j % UInt64.size))
      ∧ (works.length ≤ UInt64.size → keys.Nodup) := by
  intro works keys
  exact ⟨(issued_run found ops).keys,
    fun _ _ _ _ hv hw => PooledState.keys_getElem?_inj hv hw,
    PooledState.keys_nodup⟩

/-- Texts that run into each other, a unit that comes twice, one without a
name and one that is called like a key, with steps of the threads in between
and the last ones after the pool has stopped. A second executor of the same
owner counts for itself and gives the first one's first key once more. -/
theorem keys_never_repeat_overlapping :
    let d : Dispatch :=
      { executors := #[.pooled { owner := "o", entry := .untracked },
          .pooled { owner := "o", entry := .untracked }] }
    let works : List Work :=
      [{ action := "A", hash := 12 }, { action := "A1", hash := 2 },
        { action := "A", hash := 12 }, { action := "A12#0#", hash := 0 },
        { action := "", hash := 0 }]
    let ops : List DispatchOp :=
      [.submit 0 { action := "A", hash := 12 }, .proceed 0, .proceed 0,
        .submit 0 { action := "A1", hash := 2 },
        .submit 1 { action := "A", hash := 12 }, .beginAwait 0,
        .submit 0 { action := "A", hash := 12 }, .proceed 3, .stop,
        .submit 0 { action := "A12#0#", hash := 0 }, .proceed 1,
        .submit 0 { action := "", hash := 0 }, .endAwait 0]
    let p : PooledState := { owner := "o", entry := .untracked }
    submissions 0 (history ops d) = works
      ∧ p.keys works = ["oA12#0", "oA12#1", "oA12#2", "oA12#0#0#3", "o0#4"]
      ∧ (p.keys works).Nodup ∧ (run ops d).1.keysBy 0 = p.keys works
      ∧ (run ops d).1.keysBy 1 = ["oA12#0"]
      ∧ ((p.keys works)[0]? = (p.keys works)[1]?
          ↔ "oA12" = "oA12" ∧ 0 % UInt64.size = 1 % UInt64.size) := by
  intro d works ops p
  have given : submissions 0 (history ops d) = works := by decide +kernel
  obtain ⟨issued, agree, distinct⟩ := keys_never_repeat ops d 0 p rfl
  rw [given] at issued agree distinct
  exact ⟨given, by decide +kernel, distinct (by decide), issued,
    by decide +kernel, agree 0 1 _ _ rfl rfl⟩

end DispatchOp

end TaskLedger
