/-
The entries of an environment file, before they are understood. An entry
is a line, or more than one if a quote is still open at the line's end.
A hash after a blank starts a comment, but not within quotes; a line that
starts with a hash is a comment as a whole.
-/
import TaskLedger.SpanFile.Lines
import TaskLedger.Text.Blank
import TaskLedger.Text.Utf8

namespace TaskLedger.EnvFile

/-- Where in an entry a reader stands. -/
inductive Place
  | plain
  /-- After a blank outside quotes: here a comment can start. -/
  | blank
  | escape
  | strong
  | strongEscape
  | weak
  | weakEscape
  deriving DecidableEq, Repr

/-- The place after a character; `none` where a comment starts. -/
def Place.next? (p : Place) (c : Char) : Option Place :=
  let outside : Place :=
    if c = '\\' then .escape
    else if c = '\x22' then .weak
    else if c = '\x27' then .strong
    else .plain
  match p with
  | .blank => if c = '#' then none else some outside
  | .plain =>
    if Text.isBlank c && c != '\n' && c != '\r' then some .blank else some outside
  | .escape => some .plain
  | .weak =>
    if c = '\\' then some .weakEscape
    else if c = '\x22' then some .plain
    else some .weak
  | .weakEscape => some .weak
  | .strong =>
    if c = '\\' then some .strongEscape
    else if c = '\x27' then some .plain
    else some .strong
  | .strongEscape => some .strong

/-- Goes through a text up to a comment. Answers what stands before the
comment, and the place at the end if there is no comment. -/
def scan : Place → List Char → List Char × Option Place
  | p, [] => ([], some p)
  | p, c :: r =>
    match p.next? c with
    | none => ([], none)
    | some p =>
      let (kept, stop) := scan p r
      (c :: kept, stop)

/-- Drops the end of a line. -/
def dropLineEnd (s : List Char) : List Char :=
  match s.reverse with
  | '\n' :: '\r' :: r => r.reverse
  | '\n' :: r => r.reverse
  | _ => s

/-- The entries of some lines, `open_` being what has been read of the
first. `none` stands for a line that is no text, or for an entry that is
not closed at the end; nothing follows it. -/
def entriesFrom (open_ : List Char) : Place → List (List UInt8) → List (Option (List Char))
  | p, [] => if p = .plain then [] else [none]
  | p, line :: rest =>
    match Text.Utf8.decode? line with
    | none => [none]
    | some text =>
      let all := open_ ++ text
      if (Text.trimStart all).head? = some '#' then some [] :: entriesFrom [] .plain rest
      else match scan p text with
        | (kept, none) => some (open_ ++ kept) :: entriesFrom [] .plain rest
        | (_, some .plain) => some (dropLineEnd all) :: entriesFrom [] .plain rest
        | (_, some p) => entriesFrom all p rest

/-- Drops the three bytes of a byte order mark. -/
def dropMark : List UInt8 → List UInt8
  | 0xEF :: 0xBB :: 0xBF :: r => r
  | bytes => bytes

/-- The entries of a file. -/
def entries (bytes : List UInt8) : List (Option (List Char)) :=
  entriesFrom [] .plain (SpanFile.lines (dropMark bytes))

end TaskLedger.EnvFile
