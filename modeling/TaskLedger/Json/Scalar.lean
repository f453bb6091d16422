/-
Values somebody asks for: words of 64 bits, strings, fixed names, and
any of these or null. What stands there instead is named in the fault,
which means it is read first; a value broken in itself is reported as
broken, not as the wrong one.
-/
import TaskLedger.Json.Skip

namespace TaskLedger.Json

/-- The fault of a value that is not what was asked for. Brackets are
not looked into. -/
def unexpected (expected : String) (s : List Char) : Fault :=
  let named (found : Found) : Except Fault (List Char) → Fault
    | .ok _ => .mismatch (.kind found expected)
    | .error e => e
  let number : Except Fault (Numeral × List Char) → Fault
    | .ok (n, _) => .mismatch (.kind n.found expected)
    | .error e => e
  match s with
  | [] => .truncated
  | 'n' :: r => named .null (word ['u', 'l', 'l'] r)
  | 't' :: r => named (.bool true) (word ['r', 'u', 'e'] r)
  | 'f' :: r => named (.bool false) (word ['a', 'l', 's', 'e'] r)
  | '-' :: r => number (Numeral.read true r)
  | '\x22' :: r =>
    match Quoted.read r with
    | .ok (t, _) => .mismatch (.kind (.string (String.ofList t)) expected)
    | .error e => e
  | '[' :: _ => .mismatch (.kind .sequence expected)
  | '\x7b' :: _ => .mismatch (.kind .map expected)
  | c :: r => if c.isDigit then number (Numeral.read false (c :: r)) else .malformed

/-- The value of a number in the range of a field. -/
def fit {α : Type} (expected : String) (ofInt? : Int → Option α) (x : Numeral) : Except Fault α :=
  let inRange (n : Int) : Except Fault α :=
    match ofInt? n with
    | some a => .ok a
    | none => .error (.mismatch (.range (.integer n) expected))
  match x with
  | .whole n => inRange n
  | .negative n => inRange n
  | .real _ => .error (.mismatch (.kind x.found expected))

/-- A number that fits the range of a field. -/
def readNumber {α : Type} (expected : String) (ofInt? : Int → Option α) : Reader α := fun s =>
  let number (negative : Bool) (r : List Char) : Except Fault (α × List Char) := do
    let (x, r) ← Numeral.read negative r
    .ok (← fit expected ofInt? x, r)
  match skipGap s with
  | '-' :: r => number true r
  | c :: r =>
    if c.isDigit then number false (c :: r)
    else .error (unexpected expected (c :: r))
  | [] => .error .truncated

/-- The word of an integer in the range of unsigned words. -/
def unsigned? (n : Int) : Option UInt64 :=
  if 0 ≤ n ∧ n < 18446744073709551616 then some (UInt64.ofNat n.toNat) else none

/-- The word of an integer in the range of signed words. -/
def signed? (n : Int) : Option Int64 :=
  if -9223372036854775808 ≤ n ∧ n ≤ 9223372036854775807 then some (Int64.ofInt n) else none

/-- An unsigned word. -/
def readUnsigned : Reader UInt64 := readNumber "u64" unsigned?

/-- A signed word. -/
def readSigned : Reader Int64 := readNumber "i64" signed?

/-- A string. -/
def readString : Reader String := fun s =>
  match skipGap s with
  | '\x22' :: r => do
    let (t, r) ← Quoted.read r
    .ok (String.ofList t, r)
  | r => .error (unexpected "a string" r)

/-- A value or null. -/
def readOptional {α : Type} (read : Reader α) : Reader (Option α) := fun s =>
  match skipGap s with
  | 'n' :: r => do .ok (none, ← word ['u', 'l', 'l'] r)
  | r => do
    let (a, r) ← read r
    .ok (some a, r)

/-- The value of a name out of a list of named ones. -/
def named {α : Type} (all : List α) (name : α → String) (t : List Char) : Except Fault α :=
  match all.find? fun a => name a == String.ofList t with
  | some a => .ok a
  | none => .error (.mismatch (.unknownVariant (String.ofList t) (all.map name)))

/-- One of a list of named values: its name, or an object whose only
member has that name and holds null. -/
def readNamed {α : Type} (all : List α) (name : α → String) : Reader α := fun s =>
  match skipGap s with
  | [] => .error .truncated
  | '\x22' :: r => do
    let (t, r) ← Quoted.read r
    .ok (← named all name t, r)
  | '\x7b' :: r =>
    match skipGap r with
    | [] => .error .truncated
    | '\x22' :: r => do
      let (t, r) ← Quoted.read r
      let a ← named all name t
      let r ← colon r
      match skipGap r with
      | 'n' :: r =>
        let r ← word ['u', 'l', 'l'] r
        match skipGap r with
        | [] => .error .truncated
        | '\x7d' :: r => .ok (a, r)
        | _ => .error .malformed
      | r => .error (unexpected "unit" r)
    | _ => .error .malformed
  | _ => .error .malformed

/-- The value a whole text spells, blanks around it allowed. -/
def readAll {α : Type} (read : Reader α) (s : List Char) : Except Fault α := do
  let (a, r) ← read s
  if (skipGap r).isEmpty then .ok a else .error .malformed

end TaskLedger.Json
