/-
Span records read from JSON. A field is a name, a place in the list
spelling and a slot of a draft; a draft that has all it needs is a span.

An id, a parent, a thread, a task path and a variant may be left out or
null. Children may be left out but not null.
-/
import TaskLedger.Json.Fields
import TaskLedger.Ledger.Status
import TaskLedger.Span.Basic

namespace TaskLedger

open Json

-- ================================================================ spans

/-- What of a span has been read. -/
structure Span.Draft where
  id : Option (Option SpanId) := none
  parent : Option (Option SpanId) := none
  kind : Option SpanKind := none
  startMs : Option Int64 := none
  durationMs : Option Int64 := none
  thread : Option (Option UInt64) := none
  task : Option (Option String) := none
  deriving Repr

namespace Span

/-- Stores what a reader reads. -/
def Draft.store {σ α : Type} (read : Reader α) (put : α → σ) : Reader σ := fun s => do
  let (a, r) ← read s
  .ok (put a, r)

/-- A kind of span by its name. -/
def readKind : Reader SpanKind := readNamed SpanKind.all SpanKind.name

/-- The fields of a span in order. -/
def shape : Shape Draft where
  name := "Span"
  fields := [
    ⟨"id", false, (·.id.isSome),
      fun d => Draft.store (readOptional readUnsigned) fun a => { d with id := some a }⟩,
    ⟨"parent_id", false, (·.parent.isSome),
      fun d => Draft.store (readOptional readUnsigned) fun a => { d with parent := some a }⟩,
    ⟨"execution_type", false, (·.kind.isSome),
      fun d => Draft.store readKind fun a => { d with kind := some a }⟩,
    ⟨"start_time_ms", false, (·.startMs.isSome),
      fun d => Draft.store readSigned fun a => { d with startMs := some a }⟩,
    ⟨"duration_ms", false, (·.durationMs.isSome),
      fun d => Draft.store readSigned fun a => { d with durationMs := some a }⟩,
    ⟨"thread_id", true, (·.thread.isSome),
      fun d => Draft.store (readOptional readUnsigned) fun a => { d with thread := some a }⟩,
    ⟨"task_path", true, (·.task.isSome),
      fun d => Draft.store (readOptional readString) fun a => { d with task := some a }⟩]

/-- The span of a draft, or the first field it lacks. -/
def ofDraft (d : Draft) : Except Mismatch Span :=
  match d.kind, d.startMs, d.durationMs with
  | none, _, _ => .error (.missingField "execution_type")
  | _, none, _ => .error (.missingField "start_time_ms")
  | _, _, none => .error (.missingField "duration_ms")
  | some kind, some startMs, some durationMs =>
    .ok { id := d.id.join, parent := d.parent.join, kind, startMs, durationMs,
          thread := d.thread.join, task := d.task.join }

/-- A span. -/
def read : Reader Span := shape.read {} ofDraft

end Span

-- ============================================================== records

/-- What of a record has been read. -/
structure SpanRecord.Draft where
  project : Option String := none
  variant : Option (Option String) := none
  span : Option Span := none
  children : Option (List Span) := none
  deriving Repr

namespace SpanRecord

/-- The fields of a record in order. -/
def shape : Shape Draft where
  name := "SpanRecord"
  fields := [
    ⟨"project_path", false, (·.project.isSome),
      fun d => Span.Draft.store readString fun a => { d with project := some a }⟩,
    ⟨"variant", true, (·.variant.isSome),
      fun d => Span.Draft.store (readOptional readString) fun a => { d with variant := some a }⟩,
    ⟨"span", false, (·.span.isSome),
      fun d => Span.Draft.store Span.read fun a => { d with span := some a }⟩,
    ⟨"children", true, (·.children.isSome),
      fun d => Span.Draft.store (readList Span.read) fun a => { d with children := some a }⟩]

/-- The record of a draft, or the first field it lacks. -/
def ofDraft (d : Draft) : Except Mismatch SpanRecord :=
  match d.project, d.span with
  | none, _ => .error (.missingField "project_path")
  | _, none => .error (.missingField "span")
  | some project, some span =>
    .ok { project, variant := d.variant.join, span, children := d.children.getD [] }

/-- A record. -/
def read : Reader SpanRecord := shape.read {} ofDraft

/-- The record a text spells. -/
def ofText (s : List Char) : Except Json.Fault SpanRecord := readAll read s

end SpanRecord

/-- A status by its name. -/
def TaskStatus.read : Reader TaskStatus := readNamed TaskStatus.all TaskStatus.name

end TaskLedger
