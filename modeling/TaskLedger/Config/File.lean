/-
Settings from a file of TOML, with one member for each setting. Members
are looked at in their order in the text and the first that does not fit
is the error; after all of them, a pool without threads is one.
-/
import TaskLedger.Config.Basic
import TaskLedger.Files.Tree
import TaskLedger.Text.Utf8
import TaskLedger.Toml.Document

namespace TaskLedger

/-- How a message names a value of TOML. -/
def Toml.Node.found : Toml.Node → Found
  | .string s => .string s
  | .integer n => .integer n
  | .real x => .real x.text
  | .bool b => .bool b
  | .date => .map
  | .list _ => .sequence
  | .table _ _ => .map
  | .tables _ _ => .sequence

namespace Config

-- =============================================================== members

/-- A yes or a no. -/
def boolOf : Toml.Node → Except Mismatch Bool
  | .bool b => .ok b
  | v => .error (.kind v.found "a boolean")

/-- A count. -/
def countOf : Toml.Node → Except Mismatch UInt64
  | .integer n =>
    if 0 ≤ n then .ok (UInt64.ofNat n.toNat) else .error (.range (.integer n) "usize")
  | v => .error (.kind v.found "usize")

/-- A text. -/
def textOf (expected : String) : Toml.Node → Except Mismatch String
  | .string s => .ok s
  | v => .error (.kind v.found expected)

/-- The names of the members. -/
def memberNames : List String :=
  ["use_worker_pool", "worker_threads", "span_output", "otel_endpoint", "log_level"]

/-- Takes in one member. -/
def takeMember (c : Config) (m : String × Toml.Node) : Except Mismatch Config :=
  match m.1 with
  | "use_worker_pool" => (boolOf m.2).map fun b => { c with usesPool := b }
  | "worker_threads" => (countOf m.2).map fun n => { c with threads := some n }
  | "span_output" => (textOf "path string" m.2).map fun s => { c with output := some s }
  | "otel_endpoint" => (textOf "a string" m.2).map fun s => { c with endpoint := some s }
  | "log_level" => (textOf "a string" m.2).map fun s => { c with logLevel := s }
  | name => .error (.unknownField name memberNames)

/-- Takes in members one after another. -/
def takeMembers : List (String × Toml.Node) → Config → Except Mismatch Config
  | [], c => .ok c
  | m :: ms, c => do takeMembers ms (← takeMember c m)

-- ================================================================= texts

/-- The error of a text that does not read, with what is told about it. -/
def unreadable (told : String) : Error := .config s!"TOML parse error\n{told}"

/-- The settings of a text. -/
def ofText (text : List Char) : Except Error Config :=
  match Toml.read text with
  | .error f => .error (unreadable f.message)
  | .ok ms =>
    match takeMembers ms {} with
    | .error m => .error (unreadable m.message)
    | .ok c => if c.threads = some 0 then .error noThreads else .ok c

/-- The settings of the file at a path. -/
def ofFile (tree : Files.Tree) (path : String) : Except Error Config :=
  match (Files.read tree path).bind decoded with
  | .error f => .error (.config s!"cannot read {path}: {f.message}")
  | .ok text => (ofText text).mapError fun e => .config s!"bad config {path}: {e.message}"
where
  /-- The text of some bytes. -/
  decoded (bytes : List UInt8) : Except FileFault (List Char) :=
    match Text.Utf8.decode? bytes with
    | some text => .ok text
    | none => .error .notText

end Config

end TaskLedger
