/-
A text between quotes, so that a reader of a message sees where it
starts, where it ends and what is in it. Four controls have a letter, a
quote and a backslash have a backslash, and whatever would not show is
written by its number in braces.
-/
import TaskLedger.Text.Combining
import TaskLedger.Text.Unprintable

namespace TaskLedger.Text

/-- The digits of a number to base sixteen. -/
def hex (n : Nat) : List Char := Nat.toDigits 16 n

/-- How one character stands between quotes. -/
def quoteChar (c : Char) : List Char :=
  if c = '\t' then ['\\', 't']
  else if c = '\r' then ['\\', 'r']
  else if c = '\n' then ['\\', 'n']
  else if c = '\x00' then ['\\', '0']
  else if c = '\\' then ['\\', '\\']
  else if c = '\x22' then ['\\', '\x22']
  else if isCombining c || isUnprintable c then
    ['\\', 'u', '\x7b'] ++ hex c.toNat ++ ['\x7d']
  else [c]

/-- A text between quotes. -/
def quote (s : String) : String :=
  String.ofList ('\x22' :: (s.toList.flatMap quoteChar ++ ['\x22']))

end TaskLedger.Text
