/-
A path that was opened can be opened again.

Where the folders above a path could be made, they are found later as long
as no folder goes, and nothing is made a second time (`makeParents_again`).
So a file that was opened once is found by everyone who opens it after that
(`Settled`), however much was appended meanwhile, and opening it leaves the
tree alone.
-/
import TaskLedger.Proofs.Files.Following

namespace TaskLedger.Files

open TaskLedger.Files.Tree

/-- Folders that could be made are found again while the folders stay. -/
theorem makeFolders_again {t t' t'' : Tree} {made : Bool} {p : Place}
    {ns : List String} (done : makeFolders t made p ns = (t', .ok ()))
    (leads : Leads t' t'') (made' : Bool) :
    makeFolders t'' made' p ns = (t'', .ok ()) := by
  -- a folder that was made then is still there
  have found {t : Tree} {made : Bool} {p here : Place} {ns : List String}
      {name : String} (short : ¬ longestName < name.utf8ByteSize)
      (folder : t.get? here = some .folder)
      (done : makeFolders t made p ns = (t', .ok ())) :
      look t'' here name = .ok (some .folder) := by
    have grown := makeFolders_grown t made p ns
    rw [done] at grown
    unfold look
    rw [if_neg short, leads.folders here (grown.keeps here .folder folder)]
  -- the induction follows the folders, name by name
  fun_induction makeFolders t made p ns with
  | case1 => rw [makeFolders]
  | case2 t made p rest ih =>
      rw [makeFolders]
      exact ih done
  | case3 t made p rest ih =>
      rw [makeFolders]
      exact ih done
  | case4 t made p name rest up down here there ih =>
      unfold look at there
      split at there
      · cases there
      · next short =>
        rw [makeFolders, found short (Except.ok.inj there) done]
        · exact ih done
        · exact up
        · exact down
  | case5 => cases (Prod.mk.inj done).2
  | case6 t made p name rest up down here free ih =>
      unfold look at free
      split at free
      · cases free
      · next short =>
        have folder : (t.put here .folder).get? here = some .folder := by
          rw [get?_put_free (Except.ok.inj free), if_pos rfl]
        rw [makeFolders, found short folder done]
        · exact ih done
        · exact up
        · exact down
  | case7 => cases (Prod.mk.inj done).2

/-- So are the folders above a path. -/
theorem makeParents_again {t t' t'' : Tree} {path : String}
    (done : makeParents t path = (t', .ok ())) (leads : Leads t' t'') :
    makeParents t'' path = (t'', .ok ()) := by
  have grown := makeParents_grown t path
  rw [done] at grown
  have same : start t'' path = start t path := by
    unfold start
    rw [leads.home, grown.home]
  unfold makeParents at done ⊢
  dsimp only at done ⊢
  split at done
  · cases (Prod.mk.inj done).2
  · next zero =>
    rw [if_neg zero]
    split at done
    · cases (Prod.mk.inj done).2
    · next long =>
      rw [if_neg long, same]
      exact makeFolders_again done leads false

/-- Nothing is at the end of a path yet, and a file could be put there: the
folders above it can be made. -/
def Vacant (t : Tree) (path : String) : Prop :=
  ∃ t' p, makeParents t path = (t', .ok ()) ∧ spot t' path = .ok (.free p)

/-- The folders above a path are there, and at its end is a file with these
bytes. -/
structure Settled (t : Tree) (path : String) (p : Place)
    (bytes : List UInt8) : Prop where
  above : makeParents t path = (t, .ok ())
  file : spot t path = .ok (.file p bytes.toArray)

namespace Settled

variable {t : Tree} {path : String} {p : Place} {bytes : List UInt8}

/-- An append leaves the file in its place, longer by what was appended. -/
theorem append (h : Settled t path p bytes) (more : List UInt8) :
    Settled (t.append p more) path p (bytes ++ more) where
  above := makeParents_again h.above (leads_append t p more)
  file := by
    rw [spot_append h.file, List.toArray_appendList]

theorem read (h : Settled t path p bytes) :
    Files.read t path = .ok bytes := read_of_spot h.file

/-- To open it again changes nothing. -/
theorem openFile (h : Settled t path p bytes) :
    Files.openFile t path = (t, .ok p) := by
  unfold Files.openFile
  rw [h.file]

theorem isThere (h : Settled t path p bytes) :
    Files.isThere t path = true := by
  unfold Files.isThere
  rw [h.file]

end Settled

/-- A file that is put where nothing was is settled there. -/
theorem settled_put {t t' : Tree} {path : String} {p : Place}
    (done : makeParents t path = (t', .ok ()))
    (free : spot t' path = .ok (.free p)) :
    Settled (t'.put p (.file #[])) path p [] := by
  have none : t'.get? p = none := (spot_again (Grown.refl t').leads free rfl).1
  have leads : Leads t' (t'.put p (.file #[])) := (grown_put none _).leads
  refine ⟨makeParents_again done leads, ?_⟩
  rw [(spot_again leads free rfl).2, get?_put_free none, if_pos rfl]
  rfl

end TaskLedger.Files
