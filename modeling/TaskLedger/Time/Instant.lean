/-
Instants and durations, counted in nanoseconds.

Both carry their range as proof fields, so a difference of two instants
needs no check: every such difference is a duration, and `since` is a
plain function. What can leave the range is a shift (`Instant.shift`)
and a sum (`Duration.ofParts`), and these alone answer with a fault.

Milliseconds are what the span files hold. An instant is floored to
them, a duration is cut toward zero; the nanoseconds that remain are
`subMillis`.
-/
import TaskLedger.Fault

namespace TaskLedger

-- ============================================================ durations

/-- A signed length of time; the longest has 2^63 - 1 milliseconds, either
way. -/
structure Duration where
  nanos : Int
  ge : -(9223372036854775807 * 1000000) ≤ nanos
  le : nanos ≤ 9223372036854775807 * 1000000
  deriving DecidableEq, Repr

namespace Duration

/-- No time at all. -/
def zero : Duration := ⟨0, by decide, by decide⟩

instance : Inhabited Duration := ⟨zero⟩

/-- Whole milliseconds, cut toward zero. -/
def millis (d : Duration) : Int := d.nanos.tdiv 1000000

/-- What the whole milliseconds leave, with the sign of the duration. -/
def subMillis (d : Duration) : Int := d.nanos.tmod 1000000

/-- The duration of that many nanoseconds, if there is one. -/
def ofNanos? (n : Int) : Option Duration :=
  if h : -(9223372036854775807 * 1000000) ≤ n ∧ n ≤ 9223372036854775807 * 1000000 then
    some ⟨n, h.1, h.2⟩
  else none

/-- The duration of that many milliseconds. -/
def ofMillis (ms : Int) : Except Fault Duration :=
  match ofNanos? (ms * 1000000) with
  | some d => .ok d
  | none => .error .millisRange

/-- Milliseconds and nanoseconds together. The milliseconds have to be a
duration by themselves. -/
def ofParts (ms ns : Int) : Except Fault Duration := do
  let whole ← ofMillis ms
  match ofNanos? (whole.nanos + ns) with
  | some d => .ok d
  | none => .error .durationRange

/-- The longer of two durations. -/
def max (a b : Duration) : Duration := if a.nanos ≤ b.nanos then b else a

/-- The shorter of two durations. -/
def min (a b : Duration) : Duration := if a.nanos ≤ b.nanos then a else b

/-- A duration that would run backwards counts as none. -/
def clamp (d : Duration) : Duration := max d zero

theorem nonneg_clamp (d : Duration) : 0 ≤ d.clamp.nanos := by
  unfold clamp max
  split
  · exact Int.le_refl _
  · simp only [zero] at *
    omega

/-- The milliseconds of a duration fit 64 bits. -/
theorem millis_bounds (d : Duration) :
    -9223372036854775807 ≤ d.millis ∧ d.millis ≤ 9223372036854775807 := by
  have h1 := d.ge
  have h2 := d.le
  unfold millis
  rw [Int.tdiv_eq_ediv]
  have h3 : (1000000 : Int).sign = 1 := rfl
  split <;> omega

end Duration

-- ============================================================= instants

/-- A point in time, as nanoseconds since the start of 1970 (UTC). -/
structure Instant where
  nanos : Int
  ge : -8334601228800000 * 1000000 ≤ nanos
  le : nanos ≤ 8210266876799999 * 1000000 + 999999
  deriving DecidableEq, Repr

namespace Instant

/-- The start of 1970. -/
def epoch : Instant := ⟨0, by decide, by decide⟩

instance : Inhabited Instant := ⟨epoch⟩

/-- Milliseconds since the epoch, floored. -/
def millis (t : Instant) : Int := t.nanos / 1000000

/-- Nanoseconds above the floored milliseconds. -/
def subMillis (t : Instant) : Int := t.nanos % 1000000

/-- The instant of that many nanoseconds, if the calendar reaches it. -/
def ofNanos? (n : Int) : Option Instant :=
  if h : -8334601228800000 * 1000000 ≤ n ∧ n ≤ 8210266876799999 * 1000000 + 999999 then
    some ⟨n, h.1, h.2⟩
  else none

/-- The instant a duration later (or earlier, for a negative one). -/
def shift (t : Instant) (d : Duration) : Except Fault Instant :=
  match ofNanos? (t.nanos + d.nanos) with
  | some t' => .ok t'
  | none => .error .instantRange

/-- The instant at those milliseconds since the epoch. -/
def ofMillis (ms : Int) : Except Fault Instant := do
  epoch.shift (← Duration.ofMillis ms)

/-- Milliseconds first, then nanoseconds: each step has to be an instant. -/
def ofParts (ms ns : Int) : Except Fault Instant := do
  (← ofMillis ms).shift (← Duration.ofParts 0 ns)

/-- How much later `b` is than `a`. -/
def since (b a : Instant) : Duration :=
  ⟨b.nanos - a.nanos,
    by have := b.ge; have := a.le; omega,
    by have := b.le; have := a.ge; omega⟩

/-- The later of two instants. -/
def max (a b : Instant) : Instant := if a.nanos ≤ b.nanos then b else a

/-- The latest instant of a list. -/
def latest? : List Instant → Option Instant
  | [] => none
  | t :: ts => some (ts.foldl max t)

/-- The milliseconds of an instant fit 64 bits. -/
theorem millis_bounds (t : Instant) :
    -8334601228800000 ≤ t.millis ∧ t.millis ≤ 8210266876799999 := by
  have h1 := t.ge
  have h2 := t.le
  unfold millis
  omega

end Instant

end TaskLedger
