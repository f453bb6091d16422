/-
A sink that was opened on a file appends to that file. The place of the file
is looked up once, when the sink is opened; from then on what the path leads
to is what was there (`onFile`) and the lines written since
(`Appends.run`). Opening it means that what was there could be read
(`attachSink_file`).

So the records of a file that was empty are the ones that were written to
it, and a file of records has those and then the ones that were written, if
its last line was finished.
-/
import TaskLedger.Ledger.Op
import TaskLedger.Proofs.Files.Following
import TaskLedger.Proofs.SpanFile.Seam

namespace TaskLedger

namespace Ledger

-- ============================================================= opening

/-- What a file sink of a path goes on from: the bytes that the path leads
to once the folders above it are made, none where there is no file. -/
def onFile (path : String) (l : Ledger) : List UInt8 :=
  Files.content (Files.makeParents l.tree path).1 path

/-- A file that can be read is what a sink goes on from. -/
theorem onFile_of_read {l : Ledger} {path : String} {bytes : List UInt8}
    (h : Files.read l.tree path = .ok bytes) : l.onFile path = bytes := by
  obtain ⟨p, found⟩ := Files.spot_of_read h
  have grown := Files.makeParents_grown l.tree path
  unfold onFile Files.content
  rw [Files.read_of_spot (Files.spot_grown grown found)]

/-- The sink in charge appends to the file of a path, which holds these
bytes. -/
def Appends (path : String) (bytes : List UInt8) (l : Ledger) : Prop :=
  ∃ place last,
    l.sinks[l.sink]? = some { outlet := .file path place, last := last }
      ∧ Files.spot l.tree path = .ok (.file place bytes.toArray)

theorem Appends.read {path : String} {bytes : List UInt8} {l : Ledger}
    (h : Appends path bytes l) : Files.read l.tree path = .ok bytes := by
  obtain ⟨place, last, -, found⟩ := h
  exact Files.read_of_spot found

/-- A sink that can be opened is opened. -/
theorem attachSink_of_isOk {l : Ledger} {spec : SinkSpec}
    (h : (l.attachSink spec).2.isOk = true) :
    ∃ l', l.attachSink spec = (l', .ok ()) := by
  refine ⟨(l.attachSink spec).1, Prod.ext rfl ?_⟩
  cases done : (l.attachSink spec).2 with
  | error e => rw [done] at h; cases h
  | ok u => rfl

/-- A file sink that opens goes on from records, and from their largest
number. -/
theorem attachSink_opens {l l' : Ledger} {path : String}
    (opened : l.attachSink (.file path) = (l', .ok ())) :
    ∃ old place, SpanFile.records (l.onFile path) = .ok old
      ∧ l'.sinks[l'.sink]?
        = some { outlet := .file path place, last := SpanFile.lastId old }
      ∧ Files.spot l'.tree path
        = .ok (.file place (l.onFile path).toArray) := by
  unfold attachSink prepare openFile at opened
  dsimp only at opened
  unfold onFile
  split at opened
  · cases (Prod.mk.inj opened).2
  · next m k prepared =>
    split at prepared
    · cases (Prod.mk.inj prepared).2
    · next tree folders =>
      rw [folders]
      dsimp only at prepared ⊢
      split at prepared
      · cases (Prod.mk.inj prepared).2
      · cases (Prod.mk.inj prepared).2
      · next last tree' place first made =>
        obtain ⟨rfl, same⟩ := Prod.mk.inj prepared
        obtain rfl := Except.ok.inj same
        obtain ⟨rfl, -⟩ := Prod.mk.inj opened
        have there := Files.openFile_spot made
        suffices ∃ old, SpanFile.records (Files.content tree path) = .ok old
            ∧ SpanFile.lastId old = last by
          obtain ⟨old, read, rfl⟩ := this
          exact ⟨old, place, read, Array.getElem?_push_size, there⟩
        unfold Files.content
        split at first
        · -- what is there was read before the file was opened
          split at first
          · cases first
          · next bytes found =>
            rw [found]
            dsimp only
            cases h : SpanFile.records bytes with
            | error e => rw [h] at first; cases first
            | ok old =>
                rw [h] at first
                exact ⟨old, rfl, Except.ok.inj first⟩
        · next nothing =>
          -- no file is there, so none can be read
          cases found : Files.read tree path with
          | error e => exact ⟨[], rfl, Except.ok.inj first⟩
          | ok bytes =>
              obtain ⟨p, there⟩ := Files.spot_of_read found
              unfold Files.isThere at nothing
              rw [there] at nothing
              exact absurd rfl nothing

/-- So it appends to a file of records. -/
theorem attachSink_file {l l' : Ledger} {path : String}
    (opened : l.attachSink (.file path) = (l', .ok ())) :
    (∃ old, SpanFile.records (l.onFile path) = .ok old)
      ∧ Appends path (l.onFile path) l' := by
  obtain ⟨old, place, read, sink, there⟩ := attachSink_opens opened
  exact ⟨⟨old, read⟩, place, _, sink, there⟩

-- ============================================================= writing

/-- A record that is written goes behind what is there. -/
theorem Appends.write {path : String} {bytes : List UInt8} {l : Ledger}
    (h : Appends path bytes l) (r : SpanRecord) :
    Appends path (bytes ++ SpanFile.line r) ((LedgerOp.write r).apply l).1
      ∧ ((LedgerOp.write r).apply l).2 = .ok .done := by
  obtain ⟨place, last, sink, found⟩ := h
  have written : l.write l.sink .direct r
      = ({ l with
            journal := l.journal ++ [⟨l.sink, .direct, r, none⟩]
            tree := l.tree.append place (SpanFile.line r) }, .ok ()) := by
    unfold Ledger.write
    rw [sink]
  unfold LedgerOp.apply
  dsimp only
  rw [written]
  refine ⟨⟨place, last, sink, ?_⟩, rfl⟩
  have after := Files.spot_append found (SpanFile.line r)
  rw [List.toArray_appendList] at after
  exact after

/-- Records that are written go behind what is there, in their order. -/
theorem Appends.run {path : String} {bytes : List UInt8} {l : Ledger}
    (h : Appends path bytes l) (rs : List SpanRecord) :
    Appends path (bytes ++ rs.flatMap SpanFile.line)
        (LedgerOp.run (rs.map .write) l).1
      ∧ (LedgerOp.run (rs.map .write) l).2 = rs.map fun _ => .ok .done := by
  induction rs generalizing bytes l with
  | nil =>
      rw [List.flatMap_nil, List.append_nil]
      exact ⟨h, rfl⟩
  | cons r rs ih =>
      obtain ⟨here, answer⟩ := h.write r
      obtain ⟨more, answers⟩ := ih here
      rw [List.flatMap_cons, ← List.append_assoc]
      refine ⟨more, ?_⟩
      rw [List.map_cons, List.map_cons, LedgerOp.run]
      dsimp only
      rw [answer, answers]

end Ledger

namespace SpanFile

/-- What is written of a record is text without control characters that is
not blank, and it spells that record. So lines of records are read as those
records, and records that are written to a file with nothing in it are the
records of that file. -/
theorem written_records_read_back (rs : List SpanRecord) :
    (∀ r : SpanRecord,
        (∀ b ∈ Text.Utf8.encode r.write, 0x20 ≤ b)
          ∧ Text.allBlank r.write = false
          ∧ Text.Utf8.decode? (Text.Utf8.encode r.write) = some r.write
          ∧ SpanRecord.ofText r.write = .ok r)
      ∧ records (rs.flatMap line) = .ok rs
      ∧ ∀ (l l' : Ledger) (path : String),
          l.attachSink (.file path) = (l', .ok ()) → l.onFile path = [] →
          (LedgerOp.run (rs.map .write) l').2 = rs.map (fun _ => .ok .done)
            ∧ ∃ bytes,
                Files.read (LedgerOp.run (rs.map .write) l').1.tree path
                    = .ok bytes
                  ∧ records bytes = .ok rs := by
  refine ⟨fun r => ⟨plain_encode_write r, r.write_not_blank,
    Text.Utf8.decode?_encode r.write, r.ofText_write⟩, records_lines rs, ?_⟩
  intro l l' path opened fresh
  obtain ⟨-, empty⟩ := Ledger.attachSink_file opened
  rw [fresh] at empty
  obtain ⟨after, answers⟩ := empty.run rs
  exact ⟨answers, _, after.read, records_lines rs⟩

/-- A record with a quote, a backslash, controls and a character of four
bytes, and with numbers at both ends of their range. -/
theorem written_records_read_back_at_the_ends :
    let r : SpanRecord :=
      { project := "\\\x22\n\x01\u2028😀", variant := some ""
        span :=
          { id := some 18446744073709551615, kind := .task
            startMs := -9223372036854775808, durationMs := 9223372036854775807
            thread := some 0, task := some ":a" }
        children := [{ kind := .thread, startMs := -1, durationMs := 0 }] }
    ∃ l', (({} : Ledger).attachSink (.file "spans.jsonl")) = (l', .ok ())
      ∧ ∃ bytes,
          Files.read (LedgerOp.run [.write r, .write r] l').1.tree "spans.jsonl"
              = .ok bytes
            ∧ records bytes = .ok [r, r] := by
  intro r
  obtain ⟨l', opened⟩ := Ledger.attachSink_of_isOk
    (show (({} : Ledger).attachSink (.file "spans.jsonl")).2.isOk = true by
      decide +kernel)
  have fresh : ({} : Ledger).onFile "spans.jsonl" = [] := by decide +kernel
  exact ⟨l', opened,
    ((written_records_read_back [r, r]).2.2 _ _ _ opened fresh).2⟩

/-- A file sink that opens on a file of records appends to it without a
fault. Afterwards the file has its records and then the written ones,
exactly where its last line was finished or had only blanks of JSON on it;
anywhere else no record of it is read any more. -/
theorem appended_read_back_where_appendable {l l' : Ledger} {path : String}
    (opened : l.attachSink (.file path) = (l', .ok ()))
    (rs : List SpanRecord) :
    ∃ old after,
      (∀ bytes, Files.read l.tree path = .ok bytes → l.onFile path = bytes)
        ∧ records (l.onFile path) = .ok old
        ∧ (LedgerOp.run (rs.map .write) l').2 = rs.map (fun _ => .ok .done)
        ∧ Files.read (LedgerOp.run (rs.map .write) l').1.tree path = .ok after
        ∧ (rs = [] ∨ Appendable (l.onFile path) →
            records after = .ok (old ++ rs))
        ∧ (rs ≠ [] → ¬ Appendable (l.onFile path) →
            ∃ e, records after = .error e) := by
  obtain ⟨⟨old, before⟩, appends⟩ := Ledger.attachSink_file opened
  obtain ⟨after, answers⟩ := appends.run rs
  refine ⟨old, _, fun bytes => Ledger.onFile_of_read, before, answers,
    after.read, ?_⟩
  cases rs with
  | nil =>
      rw [List.flatMap_nil, List.append_nil, List.append_nil]
      exact ⟨fun _ => before, fun some_ => absurd rfl some_⟩
  | cons r rs =>
      obtain ⟨joined, clash⟩ := records_behind before r rs
      refine ⟨fun h => joined (h.resolve_left (List.cons_ne_nil r rs)), ?_⟩
      exact fun _ => clash

/-- A file of one record without a line feed behind it, and a second record:
the file cannot be read any more. -/
theorem appended_read_back_where_appendable_unfinished :
    let r : SpanRecord :=
      { project := ":p"
        span := { id := some 1, kind := .task, startMs := 0, durationMs := 0 } }
    let l : Ledger :=
      { tree :=
          { entries := [(#["spans.jsonl"],
              .file (Text.Utf8.encode r.write).toArray)] } }
    records (l.onFile "spans.jsonl") = .ok [r]
      ∧ ∃ l', l.attachSink (.file "spans.jsonl") = (l', .ok ())
        ∧ ∃ after e,
            Files.read (LedgerOp.run [.write r] l').1.tree "spans.jsonl"
                = .ok after
              ∧ records after = .error e := by
  intro r l
  have bytes : l.onFile "spans.jsonl" = Text.Utf8.encode r.write := by
    decide +kernel
  have old : records (l.onFile "spans.jsonl") = .ok [r] := by
    rw [bytes, (records_single (lineFeed_notMem_write r)).2, recordOfLine_text]
    rfl
  obtain ⟨l', opened⟩ := Ledger.attachSink_of_isOk
    (show (l.attachSink (.file "spans.jsonl")).2.isOk = true by decide +kernel)
  obtain ⟨-, after, -, -, -, read, -, clash⟩ :=
    appended_read_back_where_appendable opened [r]
  have unfinished_ : ¬ Appendable (l.onFile "spans.jsonl") := by
    rintro ⟨t, text, gap⟩
    have same : Text.Utf8.decode? (unfinished (l.onFile "spans.jsonl"))
        = some r.write := by decide +kernel
    obtain rfl := Option.some.inj (same.symm.trans text)
    revert gap
    decide +kernel
  obtain ⟨e, fault⟩ := clash (List.cons_ne_nil r []) unfinished_
  exact ⟨old, l', opened, after, e, read, fault⟩

end SpanFile

end TaskLedger
