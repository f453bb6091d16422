/-
The arguments of the command.

They are taken from left to right, and the first thing that ends the
matter decides: a request for help, or an argument that cannot stand where
it does. An option takes the next argument as its value unless that looks
like an option itself; after an equals sign anything goes. What can be
judged only when all arguments are known (options that exclude each other,
a file that is missing) is judged last.
-/
import TaskLedger.Number.Word

namespace TaskLedger.Command

/-- Why arguments are not carried out. -/
inductive Stop
  /-- Help was asked for. -/
  | help
  /-- They do not fit together. -/
  | misuse
  deriving DecidableEq, Repr

/-- The settings of a simulated build. -/
structure SimulateArguments where
  tasks : UInt64 := 4
  units : UInt64 := 8
  unitMs : UInt64 := 20
  pool : Bool := false
  direct : Bool := false
  output : Option String := none
  deriving DecidableEq, Repr

/-- What the command is to do. -/
inductive Job
  | simulate (a : SimulateArguments)
  | summarize (file : String)
  deriving DecidableEq, Repr

/-- The arguments, understood. -/
structure Arguments where
  config : Option String := none
  job : Job
  deriving DecidableEq, Repr

-- ============================================================== options

/-- The options of the command and of its jobs. -/
inductive Choice
  | config
  | tasks
  | units
  | unitMs
  | output
  | pool
  | direct
  | help
  deriving DecidableEq, Repr

/-- The word of an option. -/
def Choice.word : Choice → String
  | config => "config"
  | tasks => "tasks"
  | units => "units"
  | unitMs => "unit-ms"
  | output => "output"
  | pool => "pool"
  | direct => "direct"
  | help => "help"

/-- It takes a value. -/
def Choice.takesValue : Choice → Bool
  | pool | direct | help => false
  | _ => true

/-- The options that stand before the job. -/
def outerChoices : List Choice := [.config, .help]

/-- The options of a simulated build. -/
def simulateChoices : List Choice :=
  [.tasks, .units, .unitMs, .pool, .direct, .output, .config, .help]

/-- The options of a summary. -/
def summarizeChoices : List Choice := [.config, .help]

/-- What one argument is, given the options there are. -/
inductive Item
  /-- An option, with what stands after its equals sign. -/
  | choice (c : Choice) (attached : Option (List Char))
  /-- From here on nothing is an option. -/
  | divider
  | plain (s : List Char)
  | unknown
  deriving DecidableEq, Repr

/-- What one argument is. -/
def classify (choices : List Choice) (arg : List Char) : Item :=
  match arg with
  | ['-', '-'] => .divider
  | '-' :: '-' :: r =>
    let word := String.ofList (r.takeWhile (· != '='))
    let attached := match r.dropWhile (· != '=') with
      | [] => none
      | _ :: v => some v
    match choices.find? fun c => c.word == word with
    | some c => .choice c attached
    | none => .unknown
  | '-' :: 'h' :: _ => .choice .help none
  | '-' :: _ :: _ => .unknown
  | s => .plain s

-- =============================================================== reading

/-- What has been read of the arguments of one level. -/
structure Draft where
  config : Option String := none
  simulate : SimulateArguments := {}
  seen : List Choice := []
  file : Option String := none
  deriving DecidableEq, Repr

namespace Draft

/-- A path has to have a name. -/
def path? (s : List Char) : Option String := if s.isEmpty then none else some (String.ofList s)

/-- Takes in the value of an option. -/
def takeValue (c : Choice) (v : List Char) (d : Draft) : Option Draft :=
  match c with
  | .config => (path? v).map fun p => { d with config := some p }
  | .output => (path? v).map fun p => { d with simulate.output := some p }
  | .tasks => (Word.read? v).map fun n => { d with simulate.tasks := n }
  | .units => (Word.read? v).map fun n => { d with simulate.units := n }
  | .unitMs => (Word.read? v).map fun n => { d with simulate.unitMs := n }
  | _ => none

/-- Takes in an option. None is given twice. -/
def takeChoice (c : Choice) (v : Option (List Char)) (d : Draft) : Except Stop Draft :=
  if c = .help then .error .help
  else if d.seen.contains c then .error .misuse
  else
    let d := { d with seen := c :: d.seen }
    match c, v with
    | .pool, _ => .ok { d with simulate.pool := true }
    | .direct, _ => .ok { d with simulate.direct := true }
    | _, some v =>
      match d.takeValue c v with
      | some d => .ok d
      | none => .error .misuse
    | _, none => .error .misuse

/-- Takes in an argument that is no option: the file of a summary. -/
def takePlain (wantsFile : Bool) (s : List Char) (d : Draft) : Except Stop Draft :=
  if wantsFile && d.file.isNone then
    match path? s with
    | some p => .ok { d with file := some p }
    | none => .error .misuse
  else .error .misuse

end Draft

/-- The arguments of a job. `divided` after the divider. -/
def readJob (choices : List Choice) (wantsFile : Bool) :
    Bool → Draft → List (List Char) → Except Stop Draft
  | _, d, [] => .ok d
  | true, d, arg :: rest => do
    readJob choices wantsFile true (← d.takePlain wantsFile arg) rest
  | false, d, arg :: rest =>
    match classify choices arg with
    | .unknown => .error .misuse
    | .divider => readJob choices wantsFile true d rest
    | .plain s => do readJob choices wantsFile false (← d.takePlain wantsFile s) rest
    | .choice c attached =>
      match c.takesValue, attached with
      | false, some _ => .error .misuse
      | false, none => do readJob choices wantsFile false (← d.takeChoice c none) rest
      | true, some v => do readJob choices wantsFile false (← d.takeChoice c (some v)) rest
      | true, none =>
        match rest with
        | [] => .error .misuse
        | v :: rest =>
          match classify choices v with
          | .plain v => do readJob choices wantsFile false (← d.takeChoice c (some v)) rest
          | _ => .error .misuse

/-- The arguments of a simulated build. -/
def readSimulate (args : List (List Char)) : Except Stop Arguments := do
  let d ← readJob simulateChoices false false {} args
  if d.simulate.pool && d.simulate.direct then .error .misuse
  else .ok { config := d.config, job := .simulate d.simulate }

/-- The arguments of a summary. -/
def readSummarize (args : List (List Char)) : Except Stop Arguments := do
  let d ← readJob summarizeChoices true false {} args
  match d.file with
  | some file => .ok { config := d.config, job := .summarize file }
  | none => .error .misuse

/-- A request for help, on the whole or on one job. -/
def readHelp : List (List Char) → Stop
  | [] => .help
  | [name] =>
    if ["simulate", "summarize", "help"].contains (String.ofList name) then .help else .misuse
  | _ => .misuse

/-- The job that an argument names, with the arguments after it. -/
def readNamed (name : List Char) (rest : List (List Char)) : Except Stop Arguments :=
  match String.ofList name with
  | "simulate" => readSimulate rest
  | "summarize" => readSummarize rest
  | "help" => .error (readHelp rest)
  | _ => .error .misuse

/-- The arguments before the job, and then the job's. A file of settings
named after the job wins over one named before it. -/
def readOuter (d : Draft) : List (List Char) → Except Stop Arguments
  | [] => .error .misuse
  | arg :: rest =>
    match classify outerChoices arg with
    | .plain name => do
      let a ← readNamed name rest
      .ok { a with config := a.config.or d.config }
    | .choice .help none => .error .help
    | .choice .config (some v) => do readOuter (← d.takeChoice .config (some v)) rest
    | .choice .config none =>
      match rest with
      | [] => .error .misuse
      | v :: rest =>
        match classify outerChoices v with
        | .plain v => do readOuter (← d.takeChoice .config (some v)) rest
        | _ => .error .misuse
    | _ => .error .misuse

/-- The arguments of the command. -/
def read (args : List String) : Except Stop Arguments := readOuter {} (args.map String.toList)

end TaskLedger.Command
