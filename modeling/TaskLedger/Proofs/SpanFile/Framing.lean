/-
What is behind a line feed is read on its own: a file that is empty or ends
in one (`Ended`) keeps its records, whatever is appended (`records_append`).
So a file of written records is read record by record, since the text of a
record has no line feed in it.

In general a file is an ended one and a last line without its line feed
(`unfinished`), and what is appended goes on with that line.
-/
import TaskLedger.Proofs.Span.RoundTrip
import TaskLedger.Proofs.Text.Utf8
import TaskLedger.SpanFile.Read

namespace TaskLedger.SpanFile

-- =============================================================== lines

/-- Nothing, or bytes that end in a line feed. -/
def Ended (bytes : List UInt8) : Prop :=
  bytes = [] ∨ ∃ front, bytes = front ++ [lineFeed]

/-- The bytes behind the last line feed. -/
def unfinished (bytes : List UInt8) : List UInt8 :=
  (bytes.reverse.takeWhile (· != lineFeed)).reverse

theorem lineFeed_notMem_unfinished (bytes : List UInt8) :
    lineFeed ∉ unfinished bytes := by
  intro mem
  have other := List.all_takeWhile (l := bytes.reverse) (p := (· != lineFeed))
  rw [List.all_eq_true] at other
  have := other lineFeed (List.mem_reverse.mp mem)
  exact absurd rfl (bne_iff_ne.mp this)

/-- A file is an ended one and its unfinished line. -/
theorem exists_ended (bytes : List UInt8) :
    ∃ front, Ended front ∧ bytes = front ++ unfinished bytes := by
  refine ⟨(bytes.reverse.dropWhile (· != lineFeed)).reverse, ?_, ?_⟩
  · cases h : bytes.reverse.dropWhile (· != lineFeed) with
    | nil => exact .inl rfl
    | cons b rest =>
        have first : b = lineFeed := by
          have := List.head?_dropWhile_not (· != lineFeed) bytes.reverse
          rw [h] at this
          simpa using this
        refine .inr ⟨rest.reverse, ?_⟩
        rw [List.reverse_cons, first]
  · unfold unfinished
    rw [← List.reverse_append, List.takeWhile_append_dropWhile,
      List.reverse_reverse]

/-- The lines of an ended file stay as they are. -/
theorem lines_append {front : List UInt8} (ended : Ended front)
    (back : List UInt8) : lines (front ++ back) = lines front ++ lines back := by
  obtain rfl | ⟨front, rfl⟩ := ended
  · rfl
  · induction front with
    | nil => rfl
    | cons b front ih =>
        simp only [List.cons_append, lines] at ih ⊢
        rw [ih]
        split
        · rfl
        · -- an ended file that is not empty has a first line
          cases h : lines (front ++ [lineFeed]) with
          | nil =>
              have all := flatten_lines (front ++ [lineFeed])
              rw [h] at all
              exact absurd all.symm (List.append_ne_nil_of_right_ne_nil front
                (List.cons_ne_nil _ _))
          | cons l ls => rfl

/-- Bytes without a line feed are one line, and so they are with one behind
them. -/
theorem lines_single {line : List UInt8} (one : lineFeed ∉ line) :
    lines (line ++ [lineFeed]) = [line ++ [lineFeed]]
      ∧ (line ≠ [] → lines line = [line]) := by
  induction line with
  | nil => exact ⟨rfl, fun h => absurd rfl h⟩
  | cons b rest ih =>
      rw [List.mem_cons, not_or] at one
      have first : b ≠ lineFeed := Ne.symm one.1
      obtain ⟨with_, without⟩ := ih one.2
      constructor
      · rw [List.cons_append, lines, if_neg first, with_]
      · intro _
        rw [lines, if_neg first]
        cases rest with
        | nil => rfl
        | cons c rest => rw [without (List.cons_ne_nil _ _)]

/-- The line feed and what is before it, unless that is a carriage return. -/
theorem body_ended {line : List UInt8} {b : UInt8}
    (other : b ≠ carriageReturn) :
    body (line ++ [b] ++ [lineFeed]) = line ++ [b] := by
  unfold body
  rw [List.reverse_append, List.reverse_append]
  simp only [List.reverse_cons, List.reverse_nil, List.nil_append,
    List.cons_append, if_neg other, List.reverse_reverse]
  exact if_pos trivial

/-- A line without a line feed is all body. -/
theorem body_unfinished {line : List UInt8} (one : lineFeed ∉ line) :
    body line = line := by
  unfold body
  split
  · next a b r back =>
    have mem : a ∈ line :=
      List.mem_reverse.mp (by rw [back]; exact List.mem_cons_self)
    rw [if_neg]
    rintro rfl
    exact one mem
  · next a back =>
    have mem : a ∈ line :=
      List.mem_reverse.mp (by rw [back]; exact List.mem_cons_self)
    rw [if_neg]
    rintro rfl
    exact one mem
  · rfl

-- ============================================================= records

theorem recordsOfLines_append (front back : List (List UInt8)) :
    recordsOfLines (front ++ back)
      = (recordsOfLines front).bind fun rs =>
          (recordsOfLines back).map (rs ++ ·) := by
  induction front with
  | nil =>
      rw [List.nil_append]
      cases recordsOfLines back <;> rfl
  | cons l ls ih =>
      rw [List.cons_append, recordsOfLines, recordsOfLines, ih]
      dsimp only [bind, Except.bind]
      cases recordOfLine l with
      | error e => rfl
      | ok r =>
          dsimp only
          cases recordsOfLines ls with
          | error e => rfl
          | ok rs =>
              dsimp only
              cases recordsOfLines back with
              | error e => rfl
              | ok more =>
                  dsimp only [Except.map]
                  rw [List.append_assoc]

/-- The records of an ended file come first, whatever is appended. -/
theorem records_append {front : List UInt8} (ended : Ended front)
    (back : List UInt8) :
    records (front ++ back)
      = (records front).bind fun rs => (records back).map (rs ++ ·) := by
  unfold records
  rw [lines_append ended, recordsOfLines_append]

/-- One line holds at most one record. -/
theorem records_single {bytes : List UInt8} (one : lineFeed ∉ bytes) :
    records (bytes ++ [lineFeed])
        = (recordOfLine (bytes ++ [lineFeed])).map Option.toList
      ∧ records bytes = (recordOfLine bytes).map Option.toList := by
  have single (l : List UInt8) :
      recordsOfLines [l] = (recordOfLine l).map Option.toList := by
    rw [recordsOfLines, recordsOfLines]
    dsimp only [bind, Except.bind]
    cases recordOfLine l with
    | error e => rfl
    | ok o =>
        dsimp only [Except.map]
        rw [List.append_nil]
  obtain ⟨with_, without⟩ := lines_single one
  unfold records
  refine ⟨by rw [with_, single], ?_⟩
  cases bytes with
  | nil => rfl
  | cons b bytes => rw [without (List.cons_ne_nil b bytes), single]

/-- The text of a record has no control character among its bytes. -/
theorem plain_encode_write (r : SpanRecord) :
    ∀ b ∈ Text.Utf8.encode r.write, 0x20 ≤ b := by
  intro b mem
  have := Text.Utf8.no_control_encode r.plain_write mem
  exact UInt8.le_iff_toNat_le.mpr this

theorem lineFeed_notMem_write (r : SpanRecord) :
    lineFeed ∉ Text.Utf8.encode r.write :=
  fun mem => absurd (plain_encode_write r lineFeed mem) (by decide)

/-- The text of a record ends in a brace. -/
theorem encode_write_ends (r : SpanRecord) :
    ∃ front, Text.Utf8.encode r.write = front ++ [0x7d] := by
  refine ⟨Text.Utf8.encode ('\x7b' :: Json.commaSeparated r.members), ?_⟩
  unfold SpanRecord.write Json.writeObject
  rw [← List.cons_append, Text.Utf8.encode_append]
  rfl

/-- What is read of a record's line is the text of the record, and what was
before it on that line. -/
theorem body_line (front : List UInt8) (r : SpanRecord) :
    body (front ++ line r) = front ++ Text.Utf8.encode r.write := by
  obtain ⟨text, ends⟩ := encode_write_ends r
  unfold line
  rw [ends, ← List.append_assoc, ← List.append_assoc]
  exact body_ended (by decide)

/-- A line that is the text of a record holds that record. -/
theorem recordOfLine_of_body {l : List UInt8} {r : SpanRecord}
    (text : body l = Text.Utf8.encode r.write) :
    recordOfLine l = .ok (some r) := by
  unfold recordOfLine
  rw [text, Text.Utf8.decode?_encode]
  dsimp only
  rw [r.write_not_blank, r.ofText_write]
  rfl

/-- The line of a record holds that record. -/
theorem recordOfLine_line (r : SpanRecord) :
    recordOfLine (line r) = .ok (some r) :=
  recordOfLine_of_body (body_line [] r)

/-- So does its text alone. -/
theorem recordOfLine_text (r : SpanRecord) :
    recordOfLine (Text.Utf8.encode r.write) = .ok (some r) :=
  recordOfLine_of_body (body_unfinished (lineFeed_notMem_write r))

/-- The lines of records hold those records. -/
theorem records_lines (rs : List SpanRecord) :
    records (rs.flatMap line) = .ok rs := by
  induction rs with
  | nil => rfl
  | cons r rs ih =>
      have ended : Ended (line r) := .inr ⟨_, rfl⟩
      have one : records (line r) = .ok [r] := by
        have single := (records_single (lineFeed_notMem_write r)).1
        change records (line r) = (recordOfLine (line r)).map _ at single
        rw [single, recordOfLine_line]
        rfl
      rw [List.flatMap_cons, records_append ended, one, ih]
      rfl

end TaskLedger.SpanFile
