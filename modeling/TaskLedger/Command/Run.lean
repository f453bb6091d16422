/-
The command as a whole: what it prints, what it leaves in the files, and
with which code it ends, as a function of its arguments, its environment,
the files, the time and a name for the build.

Zero is a good end. An error ends it with one and is reported; arguments
that do not fit end it with two; a fault ends it with 101. What was
printed before that stays printed.
-/
import TaskLedger.Command.Simulate
import TaskLedger.Command.Summary
import TaskLedger.Config.File
import TaskLedger.EnvFile.Load

namespace TaskLedger.Command

/-- A part of what is printed. -/
inductive Section
  /-- A build by its name, and its backend. -/
  | build (name : String) (pooled : Bool)
  /-- The span file that was written. -/
  | written (path : String)
  | table (s : Summary)
  | noRecords
  deriving DecidableEq, Repr

/-- The lines of a part. -/
def Section.lines : Section → List String
  | build name pooled =>
    let backend := if pooled then "pooled" else "direct"
    [s!"Build {name} ({backend} backend)"]
  | written path => [s!"Spans written to {path}"]
  | table s => s.lines
  | noRecords => ["No span records found."]

/-- How the command ended. -/
inductive End
  | good
  | error (e : Error)
  | misuse
  | fault (f : Fault)
  deriving DecidableEq, Repr

/-- The code that tells how the command ended. -/
def End.code : End → Nat
  | good => 0
  | error _ => 1
  | misuse => 2
  | fault _ => 101

/-- The end that a halt brings about. -/
def End.ofHalt : Halt → End
  | .fault f => .fault f
  | .error e => .error e

/-- What the command leaves behind. -/
structure Outcome where
  tree : Files.Tree
  printed : List Section := []
  ended : End := .good

/-- What the command starts from. -/
structure World where
  environment : Environment := []
  tree : Files.Tree := {}
  now : Instant := .epoch
  /-- A name for the build. -/
  name : String := ""

/-- The file in the working folder that adds to the environment. -/
def environmentFile : String := ".env"

/-- The environment with what the environment file adds. A file that is
not there or cannot be read adds nothing. -/
def loadEnvironment (w : World) : Except Fault Environment :=
  match Files.read w.tree environmentFile with
  | .ok bytes => EnvFile.load bytes w.environment
  | .error _ => .ok w.environment

/-- The records of the span file at a path. -/
def recordsAt (tree : Files.Tree) (path : String) : Except Error (List SpanRecord) :=
  match Files.read tree path with
  | .error f => .error (.file f)
  | .ok bytes => SpanFile.records bytes

/-- Prints the summary of some records after what was printed before. -/
def summarized (tree : Files.Tree) (printed : List Section) (rs : List SpanRecord) : Outcome :=
  match Summary.ofRecords rs with
  | .ok s => { tree, printed := printed ++ [.table s] }
  | .error f => { tree, printed, ended := .fault f }

/-- Summarizes a span file. -/
def summarize (path : String) (tree : Files.Tree) : Outcome :=
  match recordsAt tree path with
  | .error e => { tree, ended := .error e }
  | .ok [] => { tree, printed := [.noRecords] }
  | .ok rs => summarized tree [] rs

/-- The settings of a build: its arguments win. -/
def configFor (a : SimulateArguments) (c : Config) : Config :=
  { c with
    usesPool := if a.pool then true else if a.direct then false else c.usesPool
    output := a.output.or c.output }

/-- The sink of a build. -/
def sinkOf (c : Config) : SinkSpec :=
  match c.output with
  | some path => .file path
  | none => .memory

/-- Prints what a build left in its sink. -/
def report (c : Config) (printed : List Section) (l : Ledger) : Outcome :=
  match c.output with
  | none => summarized l.tree printed (l.taken l.sink)
  | some path =>
    let printed := printed ++ [.written path]
    match recordsAt l.tree path with
    | .error e => { tree := l.tree, printed, ended := .error e }
    | .ok rs => summarized l.tree printed rs

/-- Simulates a build. -/
def simulate (pace : Simulate.Pace) (a : SimulateArguments) (c : Config) (w : World) : Outcome :=
  let c := configFor a c
  match ({ now := w.now, tree := w.tree } : Ledger).attachSink (sinkOf c) with
  | (l, .error e) => { tree := l.tree, ended := .error e }
  | (l, .ok ()) =>
    match c.execution.backend with
    | .error h => { tree := l.tree, ended := .ofHalt h }
    | .ok b =>
      let printed := [Section.build w.name c.usesPool]
      match Simulate.run pace b a l with
      | (l, .error h) => { tree := l.tree, printed, ended := .ofHalt h }
      | (l, .ok ()) => report c printed l

/-- The settings: those of the file that the arguments name, or else of
the environment. -/
def settings (config : Option String) (env : Environment) (tree : Files.Tree) :
    Except Error Config :=
  match config with
  | some path => Config.ofFile tree path
  | none => Config.ofEnvironment env

/-- The paths that a run looks at, as far as the files at hand tell: one
file can name the next. -/
def paths (args : List String) (w : World) : List String :=
  environmentFile :: match loadEnvironment w, read args with
    | .ok env, .ok a =>
      a.config.toList ++ match a.job, settings a.config env w.tree with
        | .summarize file, _ => [file]
        | .simulate s, .ok c => (configFor s c).output.toList
        | .simulate _, .error _ => []
    | _, _ => []

/-- Runs the command. -/
def run (pace : Simulate.Pace) (args : List String) (w : World) : Outcome :=
  match loadEnvironment w with
  | .error f => { tree := w.tree, ended := .fault f }
  | .ok env =>
    match read args with
    | .error .help => { tree := w.tree }
    | .error .misuse => { tree := w.tree, ended := .misuse }
    | .ok a =>
      match settings a.config env w.tree with
      | .error e => { tree := w.tree, ended := .error e }
      | .ok c =>
        match a.job with
        | .simulate s => simulate pace s c w
        | .summarize file => summarize file w.tree

end TaskLedger.Command
