/-
Loading an environment file. An entry sets its variable if that holds no
text yet, so what was set before wins, and so does an earlier entry. The
first entry that is wrong ends the loading; what was set stays set.
-/
import TaskLedger.Config.Environment
import TaskLedger.EnvFile.Lines
import TaskLedger.EnvFile.Value
import TaskLedger.Fault

namespace TaskLedger.EnvFile

/-- The text of a variable. -/
def textOf? (env : Environment) (name : String) : Option String :=
  (env.lookup name).bind Text.Utf8.string?

/-- The text that a name in a value stands for. An equals sign ends the
name of the variable; what is after it must be how that variable's text
starts, up to one more equals sign, and the text from there on is meant. -/
def meaning (env : Environment) (name : List Char) : List Char :=
  let outer := name.takeWhile (· != '=')
  let text := ((textOf? env (String.ofList outer)).getD "").toList
  match name.drop outer.length with
  | [] => text
  | _ :: start => ((start ++ ['=']).isPrefixOf? text).getD []

/-- A character that a name can start with. -/
def startsName (c : Char) : Bool := c.isAlpha || c == '_'

/-- A character that a name can go on with. -/
def inName (c : Char) : Bool := c.isAlphanum || c == '_' || c == '.'

/-- A name, and what follows it. -/
def name? : List Char → Option (List Char × List Char)
  | c :: r =>
    if startsName c then some ((c :: r).takeWhile inName, (c :: r).dropWhile inName) else none
  | [] => none

/-- What follows an equals sign, blanks before it allowed. -/
def afterEquals? (s : List Char) : Option (List Char) :=
  match Text.trimStart s with
  | '=' :: r => some r
  | _ => none

/-- The name that an entry sets, and what follows its equals sign. The
word `export` before the name is dropped. -/
def setting? (s : List Char) : Option (List Char × List Char) := do
  let (name, r) ← name? s
  match afterEquals? r with
  | some r => some (name, r)
  | none =>
    if name = "export".toList then do
      let (name, r) ← name? (Text.trimStart r)
      some (name, ← afterEquals? r)
    else none

/-- What an entry says: nothing, or the name and the value that it sets. -/
def entry? (env : Environment) (s : List Char) : Option (Option (List Char × List Char)) :=
  let s := Text.trim s
  if s.isEmpty || s.head? == some '#' then some none
  else do
    let (name, r) ← setting? s
    let r := Text.trimStart r
    if r.isEmpty || r.head? == some '#' then some (some (name, []))
    else do some (some (name, ← value? (meaning env) r))

/-- Takes in entries one after another. -/
def loadEntries : List (Option (List Char)) → Environment → Except Fault Environment
  | [], env => .ok env
  | none :: _, env => .ok env
  | some s :: rest, env =>
    match entry? env s with
    | none => .ok env
    | some none => loadEntries rest env
    | some (some (name, value)) =>
      let name := String.ofList name
      if (textOf? env name).isSome then loadEntries rest env
      else if value.contains '\x00' then .error .zeroInText
      else loadEntries rest ((name, Text.Utf8.encode value) :: env)

/-- The environment with what a file adds to it. -/
def load (bytes : List UInt8) (env : Environment) : Except Fault Environment :=
  loadEntries (entries bytes) env

end TaskLedger.EnvFile
