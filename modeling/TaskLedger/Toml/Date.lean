/-
Dates and times of TOML. Their values are not kept: no setting is a date,
so all that matters is where one ends.

Four digits and a dash are the start of a date, and an hour and a colon
that of a time; so are a sign and what may follow a time. What starts as
one has to be one, and what does not can still be a number.
-/
import TaskLedger.Toml.Fault
import TaskLedger.Toml.Lexical

namespace TaskLedger.Toml.Date

/-- Exactly so many digits. -/
def number? (width : Nat) (s : List Char) : Option (Nat × List Char) :=
  let ds := s.take width
  if ds.length = width ∧ ds.all Char.isDigit then
    some (Nat.ofDigitChars 10 ds 0, s.drop width)
  else none

/-- Two digits in a range. -/
def two? (low high : Nat) (s : List Char) : Option (Nat × List Char) :=
  (number? 2 s).filter fun p => low ≤ p.1 && p.1 ≤ high

/-- What follows a character. -/
def mark? (c : Char) : List Char → Option (List Char)
  | a :: r => if a = c then some r else none
  | [] => none

/-- The year has a leap day. -/
def isLeap (year : Nat) : Bool := year % 4 == 0 && (year % 100 != 0 || year % 400 == 0)

/-- The days of a month. -/
def daysIn (year month : Nat) : Nat :=
  if month = 2 then (if isLeap year then 29 else 28)
  else if month = 4 ∨ month = 6 ∨ month = 9 ∨ month = 11 then 30
  else 31

/-- What follows the month and the day of a year. -/
def monthAndDay? (year : Nat) (s : List Char) : Option (List Char) := do
  let (month, r) ← two? 1 12 s
  let r ← mark? '-' r
  let (day, r) ← two? 1 31 r
  if day ≤ daysIn year month then some r else none

/-- What follows a day of the calendar, none if there is none. -/
def day (s : List Char) : Except Fault (Option (List Char)) :=
  match number? 4 s with
  | some (year, '-' :: r) => (orMalformed (monthAndDay? year r)).map some
  | _ => .ok none

/-- Drops a fraction of a second. -/
def dropFraction : List Char → List Char
  | '.' :: c :: r => if c.isDigit then r.dropWhile Char.isDigit else '.' :: c :: r
  | s => s

/-- What follows the minute and the second of an hour. -/
def minuteAndSecond? (s : List Char) : Option (List Char) := do
  let (_, r) ← two? 0 59 s
  let r ← mark? ':' r
  let (_, r) ← two? 0 60 r
  some (dropFraction r)

/-- What follows a time of day, none if there is none. -/
def time (s : List Char) : Except Fault (Option (List Char)) :=
  match two? 0 23 s with
  | some (_, ':' :: r) => (orMalformed (minuteAndSecond? r)).map some
  | _ => .ok none

/-- What follows an hour and a minute. -/
def hourAndMinute? (s : List Char) : Option (List Char) := do
  let (_, r) ← two? 0 23 s
  let r ← mark? ':' r
  let (_, r) ← two? 0 59 r
  some r

/-- Drops a difference to UTC in front. -/
def dropZone : List Char → Except Fault (List Char)
  | c :: r =>
    if c = 'Z' ∨ c = 'z' then .ok r
    else if c = '+' ∨ c = '-' then orMalformed (hourAndMinute? r)
    else .ok (c :: r)
  | [] => .ok []

/-- Drops a time of day in front, and what parts it from a date. -/
def dropTime : List Char → Except Fault (List Char)
  | c :: r =>
    if c = 'T' ∨ c = 't' ∨ c = ' ' then do
      match ← time r with
      | some r => dropZone r
      | none => .ok (c :: r)
    else .ok (c :: r)
  | [] => .ok []

/-- What follows a date, a time, or both, none if there is neither. -/
def read (s : List Char) : Except Fault (Option (List Char)) := do
  match ← day s with
  | some r => return some (← dropTime r)
  | none => time s

end TaskLedger.Toml.Date
