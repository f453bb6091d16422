/-
A tree of folders and files, and the folder in it that a program works
in.

A place is the sequence of names from the root down. A path that starts
with a slash starts at the root, any other at the working folder.
Following a path (`spot`) answers with what is there, or where something
could be put, or why the path leads nowhere; every operation is a case
split on that answer.
-/
import TaskLedger.Error
import TaskLedger.Files.Path

namespace TaskLedger.Files

/-- The names from the root down. -/
abbrev Place := Array String

/-- What a place holds. -/
inductive Node
  | folder
  | file (bytes : Array UInt8)
  deriving DecidableEq, Repr

/-- What it is with more bytes at its end, if it is a file. -/
def Node.grow (more : List UInt8) : Node → Node
  | .folder => .folder
  | .file bytes => .file (bytes ++ more)

/-- A working folder, and what is at the places. The working folder and
those above it are there without an entry. -/
structure Tree where
  home : Place := #[]
  entries : List (Place × Node) := []
  deriving DecidableEq, Repr

namespace Tree

/-- What is at a place. -/
def get? (t : Tree) (p : Place) : Option Node :=
  if p.isPrefixOf t.home then some .folder else t.entries.lookup p

/-- Puts something at a place, in front of what is there. -/
def put (t : Tree) (p : Place) (n : Node) : Tree :=
  { t with entries := (p, n) :: t.entries.filter fun e => e.1 != p }

theorem get?_put (t : Tree) (p : Place) (n : Node) (h : p.isPrefixOf t.home = false) :
    (t.put p n).get? p = some n := by
  simp [get?, put, h]

/-- Appends to the file at a place. -/
def append (t : Tree) (p : Place) (more : List UInt8) : Tree :=
  { t with entries := t.entries.map fun e => if e.1 == p then (e.1, e.2.grow more) else e }

theorem get?_append (t : Tree) (p : Place) (more : List UInt8) (h : p.isPrefixOf t.home = false) :
    (t.append p more).get? p = (t.get? p).map (Node.grow more) := by
  have lookup (es : List (Place × Node)) :
      (es.map fun e => if e.1 == p then (e.1, e.2.grow more) else e).lookup p
        = (es.lookup p).map (Node.grow more) := by
    induction es with
    | nil => rfl
    | cons e es ih => by_cases he : p = e.1 <;> grind
  simp only [get?, append, h, lookup, Bool.false_eq_true, if_false]

end Tree

-- =========================================================== following

/-- The place that a path starts at. -/
def start (t : Tree) (path : String) : Place := if path.startsWith "/" then #[] else t.home

/-- What a path leads to. -/
inductive Spot
  | folder (p : Place)
  | file (p : Place) (bytes : Array UInt8)
  /-- Nothing, in a folder that is there. -/
  | free (p : Place)
  /-- No folder, though a slash at the end asks for one. What is wrong
  there is for those who would only look. -/
  | barred (fault : FileFault)
  deriving DecidableEq, Repr

/-- What is at a place, if its last name is one that a place can have. -/
def look (t : Tree) (p : Place) (name : String) : Except FileFault (Option Node) :=
  if longestName < name.utf8ByteSize then .error .nameTooLong else .ok (t.get? p)

/-- What the last name of a path leads to. -/
def arrive (closed : Bool) (p : Place) : Except FileFault (Option Node) → Except FileFault Spot
  | .ok (some .folder) => .ok (.folder p)
  | .ok (some (.file bytes)) => .ok (if closed then .barred .notFolder else .file p bytes)
  | .ok none => .ok (if closed then .barred .notFound else .free p)
  | .error e => if closed then .ok (.barred e) else .error e

/-- Follows names. The root has itself above it. -/
def walk (t : Tree) (closed : Bool) : Place → List String → Except FileFault Spot
  | p, [] => .ok (.folder p)
  | p, "." :: rest => walk t closed p rest
  | p, ".." :: rest => walk t closed p.pop rest
  | p, name :: rest =>
    let here := p.push name
    if rest.isEmpty then arrive closed here (look t here name)
    else match look t here name with
      | .ok (some .folder) => walk t closed here rest
      | .ok (some (.file _)) => .error .notFolder
      | .ok none => .error .notFound
      | .error e => .error e

/-- What a path leads to, or why it leads nowhere. -/
def spot (t : Tree) (path : String) : Except FileFault Spot :=
  if path.toList.contains '\x00' then .error .zeroInPath
  else if path.isEmpty then .error .notFound
  else if longestPath < path.utf8ByteSize then .error .nameTooLong
  else walk t (isClosed path) (start t path) (names path)

/-- Something is there. -/
def isThere (t : Tree) (path : String) : Bool :=
  match spot t path with
  | .ok (.folder _) => true
  | .ok (.file _ _) => true
  | _ => false

/-- The bytes of the file a path leads to. -/
def read (t : Tree) (path : String) : Except FileFault (List UInt8) := do
  match ← spot t path with
  | .folder _ => .error .isFolder
  | .file _ bytes => .ok bytes.toList
  | .free _ => .error .notFound
  | .barred fault => .error fault

-- ============================================================= changes

/-- Makes the folders that some names lead through, as far as they are
missing. `made` once one was made: from then on a file in the way is
found where a folder was to be made. -/
def makeFolders (t : Tree) (made : Bool) : Place → List String → Tree × Except FileFault Unit
  | _, [] => (t, .ok ())
  | p, "." :: rest => makeFolders t made p rest
  | p, ".." :: rest => makeFolders t made p.pop rest
  | p, name :: rest =>
    let here := p.push name
    match look t here name with
    | .ok (some .folder) => makeFolders t made here rest
    | .ok (some (.file _)) =>
      (t, .error (if made || rest.isEmpty then .alreadyThere else .notFolder))
    | .ok none => makeFolders (t.put here .folder) true here rest
    | .error e => (t, .error e)

/-- Makes the folders above the place a path leads to. -/
def makeParents (t : Tree) (path : String) : Tree × Except FileFault Unit :=
  let parent := above path
  if parent.toList.contains '\x00' then (t, .error .zeroInPath)
  else if longestPath < parent.utf8ByteSize then (t, .error .nameTooLong)
  else makeFolders t false (start t path) (names parent)

/-- The place of the file a path leads to, made empty if nothing is there. -/
def openFile (t : Tree) (path : String) : Tree × Except FileFault Place :=
  match spot t path with
  | .ok (.file p _) => (t, .ok p)
  | .ok (.folder _) => (t, .error .isFolder)
  | .ok (.free p) => (t.put p (.file #[]), .ok p)
  | .ok (.barred _) => (t, .error .isFolder)
  | .error e => (t, .error e)

end TaskLedger.Files
