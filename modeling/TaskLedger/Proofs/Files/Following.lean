/-
Where a path leads while a tree changes. A path only ever goes through
folders, so as long as the folders stay (`Tree.Leads`) it ends at the place
where it ended before, and finds what that place holds now (`spot_again`).
That one lemma serves every change: folders are made where nothing is, an
empty file is put where nothing is, bytes are appended to a file.
-/
import TaskLedger.Files.Tree

namespace TaskLedger.Files

namespace Tree

-- ============================================================== places

/-- What is at the places once something is put where nothing was. -/
theorem get?_put_free {t : Tree} {p : Place} (free : t.get? p = none)
    (n : Node) (q : Place) :
    (t.put p n).get? q = if q = p then some n else t.get? q := by
  have outside : p.isPrefixOf t.home = false := by
    unfold get? at free
    split at free
    · cases free
    · next h => exact Bool.eq_false_iff.mpr h
  split
  · next same => rw [same, get?_put t p n outside]
  · next other =>
    -- the entries that are left out are entries of that place
    have entries (es : List (Place × Node)) :
        (es.filter fun e => e.1 != p).lookup q = es.lookup q := by
      induction es with
      | nil => rfl
      | cons e es ih =>
          obtain ⟨x, m⟩ := e
          by_cases h : x = p
          · have skip : (q == x) = false := by
              rw [h]
              exact beq_eq_false_iff_ne.mpr other
            rw [List.filter_cons_of_neg (by simp [h]), ih, List.lookup_cons,
              skip]
          · rw [List.filter_cons_of_pos (by simp [h]), List.lookup_cons,
              List.lookup_cons, ih]
    unfold get? put
    dsimp only
    rw [List.lookup_cons, beq_eq_false_iff_ne.mpr other, entries]

/-- Every folder of a tree is one in another with the same working folder. -/
structure Leads (t t' : Tree) : Prop where
  home : t'.home = t.home
  folders : ∀ p, t.get? p = some .folder → t'.get? p = some .folder

/-- Nothing of a tree is gone from another or changed in it. -/
structure Grown (t t' : Tree) : Prop where
  home : t'.home = t.home
  keeps : ∀ p n, t.get? p = some n → t'.get? p = some n

theorem Grown.leads {t t' : Tree} (h : Grown t t') : Leads t t' :=
  ⟨h.home, fun p => h.keeps p .folder⟩

theorem Grown.refl (t : Tree) : Grown t t := ⟨rfl, fun _ _ h => h⟩

theorem Grown.trans {t t' t'' : Tree} (h : Grown t t') (h' : Grown t' t'') :
    Grown t t'' :=
  ⟨h'.home.trans h.home, fun p n at_ => h'.keeps p n (h.keeps p n at_)⟩

theorem grown_put {t : Tree} {p : Place} (free : t.get? p = none) (n : Node) :
    Grown t (t.put p n) := by
  refine ⟨rfl, fun q m at_ => ?_⟩
  rw [get?_put_free free, if_neg]
  · exact at_
  · rintro rfl
    rw [free] at at_
    cases at_

/-- A folder stays one, whatever is appended anywhere. -/
theorem leads_append (t : Tree) (p : Place) (more : List UInt8) :
    Leads t (t.append p more) := by
  refine ⟨rfl, fun q at_ => ?_⟩
  by_cases above : q.isPrefixOf t.home
  · unfold get? append
    rw [if_pos above]
  · have lookup (es : List (Place × Node)) (h : es.lookup q = some .folder) :
        (es.map fun e => if e.1 == p then (e.1, e.2.grow more) else e).lookup q
          = some .folder := by
      induction es with
      | nil => cases h
      | cons e es ih =>
          obtain ⟨x, m⟩ := e
          rw [List.lookup_cons] at h
          rw [List.map_cons]
          by_cases here : q == x
          · rw [here] at h
            obtain rfl := Option.some.inj h
            split
            · rw [List.lookup_cons, here]
              rfl
            · rw [List.lookup_cons, here]
          · rw [Bool.eq_false_iff.mpr here] at h
            have more := ih h
            split
            · rw [List.lookup_cons, Bool.eq_false_iff.mpr here]
              exact more
            · rw [List.lookup_cons, Bool.eq_false_iff.mpr here]
              exact more
    unfold get? at at_ ⊢
    unfold append
    dsimp only
    rw [if_neg above] at at_ ⊢
    exact lookup t.entries at_

/-- A file that is appended to. -/
theorem get?_append_file {t : Tree} {p : Place} {bytes : Array UInt8}
    (at_ : t.get? p = some (.file bytes)) (more : List UInt8) :
    (t.append p more).get? p = some (.file (bytes ++ more)) := by
  have outside : p.isPrefixOf t.home = false := by
    unfold get? at at_
    split at at_
    · cases at_
    · next h => exact Bool.eq_false_iff.mpr h
  rw [get?_append t p more outside, at_]
  rfl

end Tree

open TaskLedger.Files.Tree

-- =========================================================== following

/-- The place of a file, or where one could be. -/
def Spot.place? : Spot → Option Place
  | .file p _ => some p
  | .free p => some p
  | _ => none

/-- What is there. -/
def Spot.node? : Spot → Option Node
  | .file _ bytes => some (.file bytes)
  | _ => none

/-- The last name of a path leads to its place, and no slash is behind it. -/
theorem arrive_place {closed : Bool} {p q : Place} {n : Option Node} {s : Spot}
    (h : arrive closed p (.ok n) = .ok s) (at_ : s.place? = some q) :
    closed = false ∧ p = q ∧ n = s.node? := by
  cases n with
  | none =>
      cases closed with
      | true => obtain rfl := Except.ok.inj h; cases at_
      | false =>
          obtain rfl := Except.ok.inj h
          exact ⟨rfl, Option.some.inj at_, rfl⟩
  | some n =>
      cases n with
      | folder => obtain rfl := Except.ok.inj h; cases at_
      | file bytes =>
          cases closed with
          | true => obtain rfl := Except.ok.inj h; cases at_
          | false =>
              obtain rfl := Except.ok.inj h
              exact ⟨rfl, Option.some.inj at_, rfl⟩

/-- Names that led to a place lead there again while the folders stay, and
find what is there now. -/
theorem walk_again {t t' : Tree} (leads : Leads t t') {closed : Bool}
    {p q : Place} {ns : List String} {s : Spot}
    (h : walk t closed p ns = .ok s) (at_ : s.place? = some q) :
    t.get? q = s.node?
      ∧ walk t' closed p ns = arrive false q (.ok (t'.get? q)) := by
  fun_induction walk t closed p ns with
  | case1 p => obtain rfl := Except.ok.inj h; cases at_
  | case2 p rest ih => exact ih h
  | case3 p rest ih => exact ih h
  | case4 p name rest up down here last =>
      unfold look at h
      split at h
      · next long =>
        cases closed with
        | true => obtain rfl := Except.ok.inj h; cases at_
        | false => cases h
      · next short =>
        obtain ⟨rfl, rfl, node⟩ := arrive_place h at_
        refine ⟨node, ?_⟩
        rw [walk, if_pos last, look, if_neg short]
        · exact up
        · exact down
  | case5 p name rest up down here more found ih =>
      obtain ⟨node, again⟩ := ih h
      refine ⟨node, ?_⟩
      have there : look t' here name = .ok (some .folder) := by
        unfold look at found ⊢
        split at found
        · cases found
        · next short =>
          rw [if_neg short, leads.folders here (Except.ok.inj found)]
      rw [walk, if_neg more, there]
      · exact again
      · exact up
      · exact down
  | case6 | case7 | case8 => cases h

/-- A path that led to a place leads there again while the folders stay, and
finds what is there now. -/
theorem spot_again {t t' : Tree} (leads : Leads t t') {path : String}
    {q : Place} {s : Spot} (h : spot t path = .ok s)
    (at_ : s.place? = some q) :
    t.get? q = s.node?
      ∧ spot t' path = arrive false q (.ok (t'.get? q)) := by
  have same : start t' path = start t path := by
    unfold start
    rw [leads.home]
  unfold spot at h ⊢
  split at h
  · cases h
  · next zero =>
    rw [if_neg zero]
    split at h
    · cases h
    · next empty =>
      rw [if_neg empty]
      split at h
      · cases h
      · next long =>
        rw [if_neg long, same]
        exact walk_again leads h at_

/-- A file is found where it was, as far as nothing is changed. -/
theorem spot_grown {t t' : Tree} (grown : Grown t t') {path : String}
    {p : Place} {bytes : Array UInt8} (h : spot t path = .ok (.file p bytes)) :
    spot t' path = .ok (.file p bytes) := by
  obtain ⟨node, again⟩ := spot_again grown.leads h rfl
  rw [again, grown.keeps p _ node]
  rfl

/-- An appended file is found with what was appended. -/
theorem spot_append {t : Tree} {path : String} {p : Place}
    {bytes : Array UInt8} (h : spot t path = .ok (.file p bytes))
    (more : List UInt8) :
    spot (t.append p more) path = .ok (.file p (bytes ++ more)) := by
  obtain ⟨node, again⟩ := spot_again (leads_append t p more) h rfl
  rw [again, get?_append_file node]
  rfl

/-- The bytes of the file a path leads to. -/
theorem read_of_spot {t : Tree} {path : String} {p : Place}
    {bytes : Array UInt8} (h : spot t path = .ok (.file p bytes)) :
    read t path = .ok bytes.toList := by
  unfold read
  rw [h]
  rfl

/-- What can be read is a file. -/
theorem spot_of_read {t : Tree} {path : String} {bytes : List UInt8}
    (h : read t path = .ok bytes) :
    ∃ p, spot t path = .ok (.file p bytes.toArray) := by
  unfold read at h
  cases found : spot t path with
  | error e => rw [found] at h; cases h
  | ok s =>
      rw [found] at h
      cases s with
      | folder p => cases h
      | free p => cases h
      | barred e => cases h
      | file p bytes' =>
          obtain rfl := Except.ok.inj h
          exact ⟨p, rfl⟩

-- ============================================================= opening

/-- Making folders takes nothing away. -/
theorem makeFolders_grown (t : Tree) (made : Bool) (p : Place)
    (ns : List String) : Grown t (makeFolders t made p ns).1 := by
  fun_induction makeFolders t made p ns with
  | case1 | case5 | case7 => exact .refl _
  | case2 | case3 | case4 => assumption
  | case6 t made p name rest up down here free ih =>
      refine Grown.trans (grown_put ?_ .folder) ih
      unfold look at free
      split at free
      · cases free
      · exact Except.ok.inj free

theorem makeParents_grown (t : Tree) (path : String) :
    Grown t (makeParents t path).1 := by
  unfold makeParents
  dsimp only
  split
  · exact .refl t
  · split
    · exact .refl t
    · exact makeFolders_grown t false (start t path) _

/-- What a path leads to, as bytes: none where nothing can be read. -/
def content (t : Tree) (path : String) : List UInt8 :=
  match read t path with
  | .ok bytes => bytes
  | .error _ => []

/-- An opened file is found at its place with what was there, or empty. -/
theorem openFile_spot {t t' : Tree} {path : String} {p : Place}
    (h : openFile t path = (t', .ok p)) :
    spot t' path = .ok (.file p (content t path).toArray) := by
  unfold openFile at h
  split at h
  · next q bytes found =>
    obtain ⟨rfl, same⟩ := Prod.mk.inj h
    obtain rfl := Except.ok.inj same
    unfold content
    rw [found, read_of_spot found]
  · cases (Prod.mk.inj h).2
  · next q found =>
    obtain ⟨rfl, same⟩ := Prod.mk.inj h
    obtain rfl := Except.ok.inj same
    have free : t.get? q = none :=
      (spot_again (Grown.refl t).leads found rfl).1
    obtain ⟨-, again⟩ :=
      spot_again (grown_put free (.file #[])).leads found rfl
    rw [again, get?_put_free free, if_pos rfl]
    unfold content read
    rw [found]
    rfl
  · cases (Prod.mk.inj h).2
  · cases (Prod.mk.inj h).2

end TaskLedger.Files
