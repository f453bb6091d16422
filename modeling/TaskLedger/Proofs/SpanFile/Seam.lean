/-
Where a file goes on. A record that is appended to an unfinished line shares
that line with what was there. If that is blanks of JSON, the line holds the
record (`Appendable`); if it is a record, or blanks of any other sort, the
line holds nothing that can be read (`recordOfLine_clash`).

That two records do not share a line rests on the reader: a record ends by
itself, so behind one there is a brace where nothing may be.
-/
import Mathlib.Data.List.TakeWhile
import TaskLedger.Proofs.Json.Closing
import TaskLedger.Proofs.SpanFile.Framing

namespace TaskLedger

open Json

-- ============================================================= records

theorem Span.Draft.store_keeps {σ α : Type} {read : Reader α}
    (keeps : Keeps read) (put : α → σ) : Keeps (Span.Draft.store read put) := by
  intro s b r h left more
  unfold Span.Draft.store at h ⊢
  obtain ⟨⟨a, t⟩, taken, h⟩ := bind_ok h
  obtain ⟨rfl, rfl⟩ := Prod.mk.inj (Except.ok.inj h)
  rw [keeps taken left more]
  rfl

theorem Span.steady : Span.shape.Steady := by
  have word : Keeps (readOptional readUnsigned) :=
    readOptional_keeps (readNumber_keeps _ _) (by rintro x ⟨⟩)
  have string : Keeps (readOptional readString) :=
    readOptional_keeps readString_closes.keeps (by rintro x ⟨⟩)
  have kind : Keeps Span.readKind := (readNamed_closes _ _).keeps
  have signed : Keeps readSigned := readNumber_keeps _ _
  intro f mem st
  simp only [Span.shape, List.mem_cons, List.not_mem_nil, or_false] at mem
  rcases mem with rfl | rfl | rfl | rfl | rfl | rfl | rfl <;> dsimp only
  · exact Span.Draft.store_keeps word _
  · exact Span.Draft.store_keeps word _
  · exact Span.Draft.store_keeps kind _
  · exact Span.Draft.store_keeps signed _
  · exact Span.Draft.store_keeps signed _
  · exact Span.Draft.store_keeps word _
  · exact Span.Draft.store_keeps string _

theorem Span.read_closes : Closes Span.read :=
  Shape.read_closes Span.steady {} Span.ofDraft

theorem SpanRecord.steady : SpanRecord.shape.Steady := by
  have string : Keeps readString := readString_closes.keeps
  have variant : Keeps (readOptional readString) :=
    readOptional_keeps string (by rintro x ⟨⟩)
  have span : Keeps Span.read := Span.read_closes.keeps
  have children : Keeps (readList Span.read) := (readList_closes span).keeps
  intro f mem st
  simp only [SpanRecord.shape, List.mem_cons, List.not_mem_nil, or_false]
    at mem
  rcases mem with rfl | rfl | rfl | rfl <;> dsimp only
  · exact Span.Draft.store_keeps string _
  · exact Span.Draft.store_keeps variant _
  · exact Span.Draft.store_keeps span _
  · exact Span.Draft.store_keeps children _

theorem SpanRecord.read_closes : Closes SpanRecord.read :=
  Shape.read_closes SpanRecord.steady {} SpanRecord.ofDraft

/-- Behind a record nothing may stand but blanks. -/
theorem SpanRecord.ofText_clash {s : List Char} {r : SpanRecord}
    (h : ofText s = .ok r) {c : Char} (solid : isGap c = false)
    (more : List Char) : ofText (s ++ c :: more) = .error .malformed := by
  unfold ofText readAll at h ⊢
  obtain ⟨⟨a, t⟩, taken, h⟩ := bind_ok h
  rw [SpanRecord.read_closes taken (c :: more)]
  dsimp only [bind, Except.bind]
  have some_ : skipGap (t ++ c :: more) ≠ [] := by
    unfold skipGap
    intro none_
    have all := List.dropWhile_eq_nil_iff.mp none_ c
      (List.mem_append_right t List.mem_cons_self)
    rw [solid] at all
    cases all
  rw [if_neg]
  exact fun empty => some_ (List.isEmpty_iff.mp empty)

/-- Blanks of JSON in front of a record are passed over. -/
theorem SpanRecord.ofText_behind_gap {gap : List Char}
    (all : gap.all isGap = true) (s : List Char) :
    ofText (gap ++ s) = ofText s := by
  have same : skipGap (gap ++ s) = skipGap s := by
    unfold skipGap
    rw [List.dropWhile_append_of_pos (List.all_eq_true.mp all)]
  unfold ofText readAll SpanRecord.read Shape.read
  dsimp only
  rw [same]

/-- Any other blank in front of a record is in its way. -/
theorem SpanRecord.ofText_behind_blank {front : List Char}
    (blank : Text.allBlank front = true) (other : front.all isGap = false)
    (s : List Char) : ∃ e, ofText (front ++ s) = .error e := by
  have notEmpty : front.dropWhile isGap ≠ [] := by
    intro none_
    have := List.dropWhile_eq_nil_iff.mp none_
    rw [List.all_eq_true.mpr this] at other
    cases other
  obtain ⟨c, t, first⟩ := List.exists_cons_of_ne_nil notEmpty
  have gap : skipGap front = c :: t := first
  have mem : c ∈ front := by
    have := List.dropWhile_sublist isGap (l := front)
    rw [first] at this
    exact this.subset List.mem_cons_self
  -- a blank opens neither an object nor a list
  have space : Text.isBlank c = true := List.all_eq_true.mp blank c mem
  unfold ofText readAll SpanRecord.read Shape.read
  dsimp only
  rw [skipGap_append gap]
  split
  · next e => cases e
  · next e =>
    obtain ⟨rfl, -⟩ := List.cons.inj e
    cases space
  · next e =>
    obtain ⟨rfl, -⟩ := List.cons.inj e
    cases space
  · exact ⟨_, rfl⟩

namespace SpanFile

-- ================================================================ lines

/-- The last line of a file is finished, or has nothing on it but blanks of
JSON. -/
def Appendable (bytes : List UInt8) : Prop :=
  ∃ t, Text.Utf8.decode? (unfinished bytes) = some t ∧ t.all isGap = true

/-- What an unfinished line is read as, with a record behind it. -/
theorem recordOfLine_behind {front : List UInt8} {t : List Char}
    (text : Text.Utf8.decode? front = some t) (r : SpanRecord) :
    recordOfLine (front ++ line r)
      = match SpanRecord.ofText (t ++ r.write) with
        | .ok r => .ok (some r)
        | .error e => .error (.json e) := by
  unfold recordOfLine
  rw [body_line, Text.Utf8.decode?_append text, Text.Utf8.decode?_encode]
  dsimp only [Option.map_some]
  have blank : Text.allBlank (t ++ r.write) = false := by
    have := r.write_not_blank
    unfold Text.allBlank at this ⊢
    rw [List.all_append, this, Bool.and_false]
  rw [blank]
  rfl

/-- A record on a line with blanks of JSON is read. -/
theorem recordOfLine_behind_gap {front : List UInt8} {t : List Char}
    (text : Text.Utf8.decode? front = some t) (all : t.all isGap = true)
    (r : SpanRecord) : recordOfLine (front ++ line r) = .ok (some r) := by
  rw [recordOfLine_behind text, SpanRecord.ofText_behind_gap all,
    r.ofText_write]

/-- A record on a line with anything else is not, even if what was there
could be read. -/
theorem recordOfLine_clash {front : List UInt8} {o : Option SpanRecord}
    (one : lineFeed ∉ front) (read : recordOfLine front = .ok o)
    (other : ∀ t, Text.Utf8.decode? front = some t → t.all isGap = false)
    (r : SpanRecord) : ∃ e, recordOfLine (front ++ line r) = .error e := by
  unfold recordOfLine at read
  rw [body_unfinished one] at read
  cases text : Text.Utf8.decode? front with
  | none => rw [text] at read; cases read
  | some t =>
      rw [text] at read
      rw [recordOfLine_behind text]
      dsimp only at read
      split at read
      · next blank =>
        obtain ⟨e, fault⟩ :=
          SpanRecord.ofText_behind_blank blank (other t text) r.write
        rw [fault]
        exact ⟨_, rfl⟩
      · split at read
        · next found =>
          have clash := SpanRecord.ofText_clash found
            (show isGap '\x7b' = false by decide)
            (commaSeparated r.members ++ ['\x7d'])
          change SpanRecord.ofText (t ++ r.write) = _ at clash
          rw [clash]
          exact ⟨_, rfl⟩
        · cases read

-- ================================================================ files

/-- A file and records behind it: the records of its finished lines, of the
line that both share, and of the lines behind that. -/
theorem records_shared {front tail : List UInt8} (ended : Ended front)
    (one : lineFeed ∉ tail) (r : SpanRecord) (rs : List SpanRecord) :
    records (front ++ tail ++ (r :: rs).flatMap line)
      = (records front).bind fun before =>
          (recordOfLine (tail ++ line r)).map fun o =>
            before ++ (o.toList ++ rs) := by
  have plain : lineFeed ∉ tail ++ Text.Utf8.encode r.write := by
    rw [List.mem_append, not_or]
    exact ⟨one, lineFeed_notMem_write r⟩
  have single := (records_single plain).1
  rw [List.append_assoc] at single
  change records (tail ++ line r) = (recordOfLine (tail ++ line r)).map _
    at single
  have shared : Ended (tail ++ line r) :=
    .inr ⟨tail ++ Text.Utf8.encode r.write, (List.append_assoc ..).symm⟩
  rw [List.append_assoc, records_append ended, List.flatMap_cons,
    ← List.append_assoc, records_append shared, records_lines, single]
  cases records front with
  | error e => rfl
  | ok before => cases recordOfLine (tail ++ line r) <;> rfl

/-- A blank of JSON is a blank. -/
theorem allBlank_of_gap {t : List Char} (all : t.all isGap = true) :
    Text.allBlank t = true := by
  refine List.all_eq_true.mpr fun c mem => ?_
  have gap := List.all_eq_true.mp all c mem
  unfold isGap at gap
  simp only [Bool.or_eq_true, beq_iff_eq] at gap
  rcases gap with ((rfl | rfl) | rfl) | rfl <;> decide

/-- Records are appended to a file of records exactly where its last line is
finished or has nothing on it. Anywhere else no record of the file is read
any more. -/
theorem records_behind {bytes : List UInt8} {old : List SpanRecord}
    (read : records bytes = .ok old) (r : SpanRecord) (rs : List SpanRecord) :
    (Appendable bytes →
        records (bytes ++ (r :: rs).flatMap line) = .ok (old ++ r :: rs))
      ∧ (¬ Appendable bytes →
        ∃ e, records (bytes ++ (r :: rs).flatMap line) = .error e) := by
  obtain ⟨front, ended, parts⟩ := exists_ended bytes
  have one := lineFeed_notMem_unfinished bytes
  unfold Appendable
  generalize unfinished bytes = tail at parts one
  subst parts
  rw [records_append ended, (records_single one).2] at read
  rw [records_shared ended one]
  cases before : records front with
  | error e => rw [before] at read; cases read
  | ok rs' =>
      rw [before] at read
      cases last : recordOfLine tail with
      | error e => rw [last] at read; cases read
      | ok o =>
          rw [last] at read
          obtain rfl := Except.ok.inj read
          constructor
          · rintro ⟨t, text, gap⟩
            -- a line of blanks holds no record of its own
            have none_ : recordOfLine tail = .ok none := by
              unfold recordOfLine
              rw [body_unfinished one, text]
              exact if_pos (allBlank_of_gap gap)
            obtain rfl := Except.ok.inj (last.symm.trans none_)
            rw [recordOfLine_behind_gap text gap]
            dsimp only [Except.bind, Except.map]
            rw [Option.toList_none, List.append_nil]
            rfl
          · intro other
            obtain ⟨e, clash⟩ := recordOfLine_clash one last
              (fun t text => Bool.eq_false_iff.mpr fun gap =>
                other ⟨t, text, gap⟩) r
            rw [clash]
            exact ⟨e, rfl⟩

end SpanFile

end TaskLedger
