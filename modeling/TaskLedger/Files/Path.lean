/-
Paths: texts that lead through a tree of folders. Slashes separate names;
between two slashes there may be nothing, which stays where it is, as a
dot does, and two dots go up. A slash at the end says that the last name
is meant as a folder.
-/
namespace TaskLedger.Files

/-- The bytes that a path can have. -/
def longestPath : Nat := 4095

/-- The bytes that a name can have. -/
def longestName : Nat := 255

/-- What stands between the slashes of a path. -/
def parts (path : String) : List String := (path.toList.splitOn '/').map String.ofList

/-- The names of a path, dots included. -/
def names (path : String) : List String := (parts path).filter fun s => !s.isEmpty

/-- The last name is meant as a folder. -/
def isClosed (path : String) : Bool := path.endsWith "/"

/-- Names that stay where they are, dropped from the end. -/
def dropStays (parts : List String) : List String :=
  (parts.reverse.dropWhile fun s => s.isEmpty || s == ".").reverse

/-- The path of the folder that holds what a path leads to. -/
def above (path : String) : String :=
  String.intercalate "/" (dropStays (dropStays (parts path)).dropLast)

end TaskLedger.Files
