/-
Batches: tasks one after another, each of which submits its units, waits
for them twice and gives control back, over a sink in memory and a clock
that stands still.

How the threads of a pool take turns cannot be seen in what a batch
reports, but for the order in which the causes of failed units come. That
order is the order of submission with one thread; otherwise it is left
open, and the report lists the causes sorted.
-/
import TaskLedger.Config.Basic
import TaskLedger.Session.Run

namespace TaskLedger.Batch

/-- A task of a batch. -/
structure Item where
  path : String
  project : String
  variant : Option String := none
  /-- The scheduler starts it; otherwise its units are nobody's. -/
  started : Bool := true
  units : List Work := []
  /-- It gives control back before any unit runs. -/
  closesFirst : Bool := false
  /-- No task comes after it. -/
  last : Bool := false
  deriving DecidableEq, Repr

/-- What came of a task. -/
structure ItemReport where
  submits : List (Except Error Unit)
  await : Except Error Unit
  awaitAgain : Except Error Unit
  entry : Session.EntryView
  finished : Bool

/-- What came of a batch. -/
structure Report where
  pool : Bool
  /-- The causes of failed units are in order of submission. -/
  ordered : Bool
  items : List ItemReport
  pending : List String
  written : Nat
  records : List SpanRecord

/-- The executor that a backend has for an owner. -/
def executorOf (b : Backend) (owner : String) (d : Dispatch) : Executor :=
  match b with
  | .direct => .direct owner
  | .pooled _ => .pooled { owner, entry := d.ledger.entryOf owner }

/-- Submits units one after another, up to a fault. -/
def submitAll (x : ExecutorId) :
    List Work → Dispatch → Except Fault (Dispatch × List (Except Error Unit))
  | [], d => .ok (d, [])
  | w :: ws, d => do
    let (d, r) := d.submit x w
    let r ← r
    let (d, rs) ← submitAll x ws d
    .ok (d, r :: rs)

/-- Runs one task. -/
def runItem (b : Backend) (i : Item) (d : Dispatch) : Except Fault (Dispatch × ItemReport) := do
  let d ← if i.started then
      let (l, r) := d.ledger.startTask i.path i.project i.variant
      r.map fun _ => { d with ledger := l }
    else .ok d
  let (d, x) := d.addExecutor (executorOf b i.path d)
  let (d, submits) ← submitAll x i.units d
  let d := if i.closesFirst then d.release x else d
  let (d, await) := d.drainAndAwait x
  let (d, awaitAgain) := d.drainAndAwait x
  let d := if i.closesFirst then d else d.release x
  let entry := Session.viewEntry d.ledger (d.ledger.entryOf i.path)
  let (l, finished) := d.ledger.finishTask i.path
  .ok ({ d with ledger := l }, { submits, await, awaitAgain, entry, finished })

/-- Runs tasks one after another, up to one that is the last. -/
def runItems (b : Backend) : List Item → Dispatch → Except Fault (Dispatch × List ItemReport)
  | [], d => .ok (d, [])
  | i :: rest, d => do
    let (d, r) ← runItem b i d
    if i.last then .ok (d, [r])
    else
      let (d, rs) ← runItems b rest d
      .ok (d, r :: rs)

/-- Records in the order of their spans' numbers. -/
def byId (rs : List SpanRecord) : List SpanRecord :=
  rs.mergeSort fun a b => decide (a.span.id.getD 0 ≤ b.span.id.getD 0)

/-- Causes in order. -/
def sorted : Except Error Unit → Except Error Unit
  | .error (.workers causes) => .error (.workers causes.mergeSort)
  | r => r

/-- Runs a batch with the clock at some milliseconds. -/
def run (e : Execution) (nowMs : Int) (items : List Item) : Except Halt Report := do
  let now ← (Instant.ofMillis nowMs).mapError .fault
  let b ← e.backend
  let l : Ledger := { now, sinks := #[{ outlet := .memory }] }
  let (d, rs) ← (runItems b items { ledger := l }).mapError .fault
  let ordered := e.threads == some 1
  let rs := if ordered then rs
    else rs.map fun r => { r with await := sorted r.await, awaitAgain := sorted r.awaitAgain }
  let pending := d.ledger.pending
  let (l, written) := d.ledger.endBuild
  .ok {
    pool := b ≠ .direct
    ordered, items := rs, pending, written
    records := byId (l.taken l.sink) }

end TaskLedger.Batch
