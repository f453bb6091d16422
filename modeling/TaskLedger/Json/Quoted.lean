/-
Strings of JSON. The writer has one spelling for each character: five
controls have a letter, quote and backslash have a backslash, the other
controls have their number, and everything else stands for itself. The
reader knows every spelling, and of the numbered ones it joins the two
halves of a character above U+FFFF.

A string whose value nobody asks for is skipped by a reader of its own
(`skip`), which lets a half stand alone.
-/
import TaskLedger.Json.Fault

namespace TaskLedger.Json.Quoted

-- ============================================================== writing

/-- The lower-case digit to base sixteen. -/
def hexDigit (n : Nat) : Char := Nat.digitChar n

/-- How one character stands inside a string. -/
def escape (c : Char) : List Char :=
  if c = '\x22' then ['\\', '\x22']
  else if c = '\\' then ['\\', '\\']
  else if c = '\x08' then ['\\', 'b']
  else if c = '\x0c' then ['\\', 'f']
  else if c = '\n' then ['\\', 'n']
  else if c = '\r' then ['\\', 'r']
  else if c = '\t' then ['\\', 't']
  else if c.toNat < 0x20 then
    ['\\', 'u', '0', '0', hexDigit (c.toNat / 16), hexDigit (c.toNat % 16)]
  else [c]

/-- A string with its quotes. -/
def write (s : List Char) : List Char := '\x22' :: (s.flatMap escape ++ ['\x22'])

-- ============================================================== reading

/-- The value of a digit to base sixteen, of either case. -/
def hexValue? (c : Char) : Option Nat :=
  if '0' ≤ c ∧ c ≤ '9' then some (c.toNat - 48)
  else if 'a' ≤ c ∧ c ≤ 'f' then some (c.toNat - 87)
  else if 'A' ≤ c ∧ c ≤ 'F' then some (c.toNat - 55)
  else none

/-- The number of four digits. -/
def hex4? (a b c d : Char) : Option Nat := do
  let a ← hexValue? a
  let b ← hexValue? b
  let c ← hexValue? c
  let d ← hexValue? d
  some (((a * 16 + b) * 16 + c) * 16 + d)

/-- The fault of a text too short for four digits: fewer than four bytes
are a text that ends too early, more are digits that are none. -/
def shortHex (s : List Char) : Fault :=
  if (String.ofList s).utf8ByteSize < 4 then .truncated else .malformed

/-- The character of a letter after a backslash. -/
def letter? (c : Char) : Option Char :=
  if c = '\x22' ∨ c = '\\' ∨ c = '/' then some c
  else if c = 'b' then some '\x08'
  else if c = 'f' then some '\x0c'
  else if c = 'n' then some '\n'
  else if c = 'r' then some '\r'
  else if c = 't' then some '\t'
  else none

/-- A first half of a character above U+FFFF. -/
def isHigh (n : Nat) : Bool := 0xD800 ≤ n && n ≤ 0xDBFF

/-- A second half of a character above U+FFFF. -/
def isLow (n : Nat) : Bool := 0xDC00 ≤ n && n ≤ 0xDFFF

/-- The character of two halves. -/
def join (high low : Nat) : Char :=
  Char.ofNat ((high - 0xD800) * 1024 + (low - 0xDC00) + 0x10000)

/-- Puts a character before what was read after it. -/
def push (c : Char) : Except Fault (List Char × List Char) → Except Fault (List Char × List Char)
  | .ok (s, rest) => .ok (c :: s, rest)
  | .error e => .error e

/-- The rest of a string, from after its opening quote to its closing one. -/
def read : Reader (List Char)
  | [] => .error .truncated
  | '\x22' :: r => .ok ([], r)
  | '\\' :: r =>
    match r with
    | [] => .error .truncated
    | 'u' :: r =>
      match r with
      | a :: b :: c :: d :: r =>
        match hex4? a b c d with
        | none => .error .malformed
        | some n =>
          if isLow n then .error .malformed
          else if !isHigh n then push (Char.ofNat n) (read r)
          else match r with
            | [] => .error .truncated
            | '\\' :: [] => .error .truncated
            | '\\' :: 'u' :: r =>
              match r with
              | a :: b :: c :: d :: r =>
                match hex4? a b c d with
                | none => .error .malformed
                | some m => if isLow m then push (join n m) (read r) else .error .malformed
              | r => .error (shortHex r)
            | _ => .error .malformed
      | r => .error (shortHex r)
    | e :: r =>
      match letter? e with
      | some c => push c (read r)
      | none => .error .malformed
  | c :: r => if c.toNat < 0x20 then .error .malformed else push c (read r)

/-- What follows a string nobody asks for. -/
def skip : List Char → Except Fault (List Char)
  | [] => .error .truncated
  | '\x22' :: r => .ok r
  | '\\' :: r =>
    match r with
    | [] => .error .truncated
    | 'u' :: r =>
      match r with
      | a :: b :: c :: d :: r => if (hex4? a b c d).isSome then skip r else .error .malformed
      | r => .error (shortHex r)
    | e :: r => if (letter? e).isSome then skip r else .error .malformed
  | c :: r => if c.toNat < 0x20 then .error .malformed else skip r

end TaskLedger.Json.Quoted
