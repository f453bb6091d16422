/-
Values nobody asks for: what an unknown field holds is passed over
whatever it is, at any depth. The open brackets are kept in a list, so
depth costs no nesting of calls; each round of the loop reads at least
one character, which bounds it by the length of the text.
-/
import TaskLedger.Json.Numeral
import TaskLedger.Json.Quoted

namespace TaskLedger.Json

/-- The four blanks of JSON. -/
def isGap (c : Char) : Bool := c == ' ' || c == '\n' || c == '\t' || c == '\r'

/-- Drops the blanks in front. -/
def skipGap (s : List Char) : List Char := s.dropWhile isGap

/-- What follows a fixed word. -/
def word : List Char → List Char → Except Fault (List Char)
  | [], s => .ok s
  | _ :: _, [] => .error .truncated
  | a :: w, c :: s => if a = c then word w s else .error .malformed

/-- What follows a colon, blanks before it allowed. -/
def colon (s : List Char) : Except Fault (List Char) :=
  match skipGap s with
  | [] => .error .truncated
  | ':' :: r => .ok r
  | _ => .error .malformed

/-- An open bracket. -/
inductive Bracket
  | list
  | object
  deriving DecidableEq, Repr

/-- What follows a value that opens no bracket. -/
def skipScalar (c : Char) (r : List Char) : Except Fault (List Char) :=
  if c = 'n' then word ['u', 'l', 'l'] r
  else if c = 't' then word ['r', 'u', 'e'] r
  else if c = 'f' then word ['a', 'l', 's', 'e'] r
  else if c = '-' then Numeral.skip r
  else if c.isDigit then Numeral.skip (c :: r)
  else if c = '\x22' then Quoted.skip r
  else .error .malformed

/-- What follows a member's name and its colon. -/
def skipName (s : List Char) : Except Fault (List Char) :=
  match skipGap s with
  | [] => .error .truncated
  | '\x22' :: r => do colon (← Quoted.skip r)
  | _ => .error .malformed

/-- Where the loop over nested values stands. -/
inductive SkipPhase
  /-- A value has to start. -/
  | item
  /-- A value has just ended. -/
  | after

/-- Passes over values until the open brackets are closed. -/
def skipLoop : Nat → SkipPhase → List Bracket → List Char → Except Fault (List Char)
  | 0, _, _, _ => .error .truncated
  | n + 1, .item, open_, s =>
    match skipGap s with
    | [] => .error .truncated
    | '[' :: r =>
      match skipGap r with
      | ']' :: r => skipLoop n .after open_ r
      | r => skipLoop n .item (.list :: open_) r
    | '\x7b' :: r =>
      match skipGap r with
      | '\x7d' :: r => skipLoop n .after open_ r
      | r => do skipLoop n .item (.object :: open_) (← skipName r)
    | c :: r => do skipLoop n .after open_ (← skipScalar c r)
  | _ + 1, .after, [], s => .ok s
  | n + 1, .after, .list :: open_, s =>
    match skipGap s with
    | [] => .error .truncated
    | ',' :: r => skipLoop n .item (.list :: open_) r
    | ']' :: r => skipLoop n .after open_ r
    | _ => .error .malformed
  | n + 1, .after, .object :: open_, s =>
    match skipGap s with
    | [] => .error .truncated
    | ',' :: r => do skipLoop n .item (.object :: open_) (← skipName r)
    | '\x7d' :: r => skipLoop n .after open_ r
    | _ => .error .malformed

/-- What follows a value nobody asks for. -/
def skipValue (s : List Char) : Except Fault (List Char) :=
  skipLoop (2 * s.length + 2) .item [] s

end TaskLedger.Json
