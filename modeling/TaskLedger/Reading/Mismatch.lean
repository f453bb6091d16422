/-
What a well-formed text can have wrong: a value of another kind than its
place asks for, a number out of range, a name nobody knows, a field
twice or not at all. The readers of span files and of settings share
these causes, and with them the wording.
-/
import TaskLedger.Text.Quoted

namespace TaskLedger

/-- What stood where something else was expected. -/
inductive Found
  | null
  | bool (b : Bool)
  | integer (n : Int)
  /-- A number with a point, an exponent or too many digits, as it is shown. -/
  | real (text : String)
  | string (s : String)
  | sequence
  | map
  deriving DecidableEq, Repr

/-- How a message names what was found. -/
def Found.describe : Found → String
  | .null => "null"
  | .bool b => s!"boolean `{b}`"
  | .integer n => s!"integer `{n}`"
  | .real text => s!"floating point `{text}`"
  | .string s => "string " ++ Text.quote s
  | .sequence => "sequence"
  | .map => "map"

/-- A well-formed text that does not fit. -/
inductive Mismatch
  /-- A value of the wrong kind. -/
  | kind (found : Found) (expected : String)
  /-- A value of the right kind that is out of range. -/
  | range (found : Found) (expected : String)
  /-- A name that is none of a fixed list. -/
  | unknownVariant (name : String) (known : List String)
  /-- A field that is none of a fixed list. -/
  | unknownField (name : String) (known : List String)
  /-- A required field that is not there. -/
  | missingField (name : String)
  /-- A field that is there twice. -/
  | duplicateField (name : String)
  /-- A list of fields that ends too early. -/
  | length (n : Nat) (expected : String)
  deriving DecidableEq, Repr

/-- Names in back quotes, separated by commas. -/
def Mismatch.listing (names : List String) : String :=
  String.intercalate ", " (names.map fun n => s!"`{n}`")

/-- The text of a mismatch. -/
def Mismatch.message : Mismatch → String
  | .kind found expected => s!"invalid type: {found.describe}, expected {expected}"
  | .range found expected => s!"invalid value: {found.describe}, expected {expected}"
  | .unknownVariant name known => s!"unknown variant `{name}`, expected one of {listing known}"
  | .unknownField name known => s!"unknown field `{name}`, expected one of {listing known}"
  | .missingField name => s!"missing field `{name}`"
  | .duplicateField name => s!"duplicate field `{name}`"
  | .length n expected => s!"invalid length {n}, expected {expected}"

end TaskLedger
