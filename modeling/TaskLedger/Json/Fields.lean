/-
Records of named fields. Such a record has two spellings: an object,
with its members in any order and others among them, and a list of the
fields in order, of which the last may be left out.

A record's reader is data: for each field its name, whether a list may
end before it, whether it has been read, and how it is read into what
has been read so far. The two spellings share that data.
-/
import TaskLedger.Json.Scalar

namespace TaskLedger.Json

/-- One field of a record, over the type of half-read records. -/
structure Field (σ : Type) where
  name : String
  /-- A list of fields may end before it. -/
  trailing : Bool
  /-- It has been read already. -/
  present : σ → Bool
  /-- Reads it into what has been read. -/
  read : σ → Reader σ

/-- The reader of a record: its name in messages, its fields in order. -/
structure Shape (σ : Type) where
  name : String
  fields : List (Field σ)

namespace Shape

variable {σ : Type}

/-- The field of a name. -/
def field? (shape : Shape σ) (name : List Char) : Option (Field σ) :=
  shape.fields.find? fun f => f.name == String.ofList name

/-- One member of an object, from after the quote that opens its name. -/
def readMember (shape : Shape σ) (st : σ) : Reader σ := fun s => do
  let (name, r) ← Quoted.read s
  match shape.field? name with
  | some f =>
    if f.present st then .error (.mismatch (.duplicateField f.name))
    else do
      let r ← colon r
      f.read st r
  | none => do
    let r ← colon r
    .ok (st, ← skipValue r)

/-- The members of an object up to its brace; `first` while none is read.
Each round reads at least one character. -/
def readMembers (shape : Shape σ) : Nat → Bool → σ → Reader σ
  | 0, _, _, _ => .error .truncated
  | n + 1, first, st, s =>
    match skipGap s with
    | [] => .error .truncated
    | '\x7d' :: r => .ok (st, r)
    | ',' :: r =>
      if first then .error .malformed
      else match skipGap r with
        | [] => .error .truncated
        | '\x22' :: r => do
          let (st, r) ← shape.readMember st r
          shape.readMembers n false st r
        | _ => .error .malformed
    | '\x22' :: r =>
      if first then do
        let (st, r) ← shape.readMember st r
        shape.readMembers n false st r
      else .error .malformed
    | _ => .error .malformed

/-- Whether a list goes on, and where its next element is: `none` before
the bracket that ends it. -/
def nextElement (first : Bool) (s : List Char) : Except Fault (Option (List Char)) :=
  match skipGap s with
  | [] => .error .truncated
  | ']' :: _ => .ok none
  | ',' :: r =>
    if first then .ok (some (',' :: r))
    else match skipGap r with
      | [] => .error .truncated
      | ']' :: _ => .error .malformed
      | r => .ok (some r)
  | r => if first then .ok (some r) else .error .malformed

/-- What follows the bracket that ends a list. -/
def endList (s : List Char) : Except Fault (List Char) :=
  match skipGap s with
  | [] => .error .truncated
  | ']' :: r => .ok r
  | _ => .error .malformed

/-- The fields of a list in order, from the `i`-th on. -/
def readElements (shape : Shape σ) : List (Field σ) → Nat → Bool → σ → Reader σ
  | [], _, _, st, s => do .ok (st, ← endList s)
  | f :: fs, i, first, st, s => do
    match ← nextElement first s with
    | some r =>
      let (st, r) ← f.read st r
      shape.readElements fs (i + 1) false st r
    | none =>
      if f.trailing then shape.readElements fs (i + 1) first st s
      else
        let expected := s!"struct {shape.name} with {shape.fields.length} elements"
        .error (.mismatch (.length i expected))

/-- A record, in either spelling. `finish` turns what has been read into
a value, or names what is missing. -/
def read {α : Type} (shape : Shape σ) (start : σ) (finish : σ → Except Mismatch α) : Reader α :=
  let close : σ × List Char → Except Fault (α × List Char)
    | (st, r) =>
      match finish st with
      | .ok a => .ok (a, r)
      | .error m => .error (.mismatch m)
  fun s =>
    match skipGap s with
    | [] => .error .truncated
    | '[' :: r => do close (← shape.readElements shape.fields 0 true start r)
    | '\x7b' :: r => do close (← shape.readMembers (r.length + 1) true start r)
    | r => .error (unexpected s!"struct {shape.name}" r)

end Shape

/-- The elements of a list of any length. Each round reads at least one
character. -/
def readItems {α : Type} (read : Reader α) : Nat → Bool → Reader (List α)
  | 0, _, _ => .error .truncated
  | n + 1, first, s => do
    match ← Shape.nextElement first s with
    | none => .ok ([], ← Shape.endList s)
    | some r =>
      let (a, r) ← read r
      let (as, r) ← readItems read n false r
      .ok (a :: as, r)

/-- A list of any length. -/
def readList {α : Type} (read : Reader α) : Reader (List α) := fun s =>
  match skipGap s with
  | '[' :: r => readItems read (r.length + 1) true r
  | r => .error (unexpected "a sequence" r)

end TaskLedger.Json
