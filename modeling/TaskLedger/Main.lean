/-
The command line. It gathers what a run starts from, and carries out what
the run leaves behind: the files, the lines and the code. The time of a
simulated build is counted and not spent.

A run looks at few files, and one of them can name the next, so they are
gathered in rounds: what the environment says depends on one file at
most, and which span file is meant on one more.
-/
import Std.Time.DateTime.Timestamp
import TaskLedger.Command.BuildName
import TaskLedger.Command.Run

namespace TaskLedger.Command

-- ============================================================ gathering

/-- The path of a place. -/
def pathOf (p : Files.Place) : String := "/" ++ String.intercalate "/" p.toList

/-- What is on disk at a place, none if it cannot be read. -/
def nodeAt (p : Files.Place) : IO (Option Files.Node) := do
  let path := (← IO.currentDir) / pathOf p
  try
    if ← path.isDir then return some .folder
    return some (.file (← IO.FS.readBinFile path).data)
  catch _ => return none

/-- Adds what the names of a path lead through. -/
def gather : Files.Place → List String → Files.Tree → IO Files.Tree
  | _, [], t => return t
  | p, "." :: rest, t => gather p rest t
  | p, ".." :: rest, t => gather p.pop rest t
  | p, name :: rest, t => do
    match ← nodeAt (p.push name) with
    | some n => gather (p.push name) rest (t.put (p.push name) n)
    | none => return t

/-- Adds what the paths of a run lead through. -/
def gatherPaths (args : List String) (w : World) : IO World := do
  let mut tree := w.tree
  for path in paths args w do
    tree ← gather (Files.start tree path) (Files.names path) tree
  return { w with tree }

/-- The names that can matter: those of the settings, and whatever the
environment file could mean by a name. -/
def variableNames (tree : Files.Tree) : List String :=
  let text := (Files.read tree environmentFile).toOption.bind Text.Utf8.decode?
  let words := (text.getD []).splitBy fun a b => EnvFile.inName a && EnvFile.inName b
  [Config.poolVariable, Config.threadsVariable, Config.outputVariable, Config.endpointVariable,
    Config.logLevelVariable] ++ words.map String.ofList

/-- What the variables of some names hold. -/
def environmentOf (names : List String) : IO Environment :=
  names.filterMapM fun name =>
    return (← IO.getEnv name).map fun value => (name, Text.Utf8.ofString value)

/-- The time, the epoch if the calendar does not reach it. -/
def now : IO Instant := do
  let t ← Std.Time.Timestamp.now
  return (Instant.ofNanos? t.toNanosecondsSinceUnixEpoch.val).getD .epoch

/-- What a run starts from. -/
def world (args : List String) : IO World := do
  let home := (Files.names (← IO.currentDir).toString).toArray
  let name := BuildName.ofBytes (← IO.getRandomBytes 16).toList
  let w ← gatherPaths args { tree := { home }, now := ← now, name }
  let w := { w with environment := ← environmentOf (variableNames w.tree) }
  let w ← gatherPaths args w
  gatherPaths args w

-- ========================================================= carrying out

/-- Writes what a run changed, the oldest changes first. -/
def keep (before after : Files.Tree) : IO Unit := do
  for (place, node) in after.entries.reverse do
    if before.get? place != some node then
      match node with
      | .folder => IO.FS.createDirAll (pathOf place)
      | .file bytes => IO.FS.writeBinFile (pathOf place) ⟨bytes⟩

/-- What is reported apart from the lines that are printed. -/
def End.report : End → Option String
  | .good => none
  | .error e => some s!"Error: {e.message}"
  | .misuse => some "usage: [--config FILE] (simulate [OPTIONS] | summarize FILE)"
  | .fault f => some f.message

end TaskLedger.Command

open TaskLedger Command in
/-- Runs the command on the machine at hand. -/
def main (args : List String) : IO UInt32 := do
  let w ← world args
  let o := Command.run .lazy args w
  keep w.tree o.tree
  for line in o.printed.flatMap Section.lines do
    IO.println line
  if let some text := o.ended.report then
    IO.eprintln text
  return UInt32.ofNat o.ended.code
