/-
A file is read line by line, so what is read of it is put together from what
is read of its parts (`reading_composes`): lines of blanks may stand between
any two lines, and the first line that holds no record decides.

How a line ends shows in one case only. A carriage return before the line
feed is dropped, but a second one before that stays; it is a blank behind a
record, and a fault inside of a string that is never closed. So a line with a
carriage return more is read the same up to which fault is found in it
(`Alike`). That the record stays rests on the spelling of a record, which
ends in a bracket and so is told apart from the blank behind it.
-/
import TaskLedger.Proofs.Span.Spelling
import TaskLedger.Proofs.SpanFile.Framing

namespace TaskLedger

open Json

-- ============================================================= records

namespace SpanRecord

theorem spelling_ends {v : List Char} {r : SpanRecord} (h : spelling v r) :
    ∃ u, ∃ b : Bracket, v = u ++ [b.closing] := by
  rcases h with ⟨es, ⟨ms, -, u, -, rfl⟩, -⟩ | ⟨vs, ⟨u, -, rfl⟩, -⟩
  · exact ⟨_ :: u, .object, rfl⟩
  · exact ⟨_ :: u, .list, rfl⟩

/-- A blank of JSON behind a text makes no difference to its record. -/
theorem ofText_snoc_gap {t : List Char} {c : Char} (blank : isGap c = true)
    {r : SpanRecord} : ofText (t ++ [c]) = .ok r ↔ ofText t = .ok r := by
  unfold ofText
  rw [read_recognizes.readAll_iff, read_recognizes.readAll_iff]
  constructor
  · rintro ⟨g, v, g', gap, gap', spells, same⟩
    rcases List.eq_nil_or_concat' g' with rfl | ⟨g', d, rfl⟩
    · -- a record ends in a bracket, which is no blank
      obtain ⟨u, b, rfl⟩ := spelling_ends spells
      rw [List.append_nil, ← List.append_assoc] at same
      obtain rfl := List.singleton_inj.mp (List.append_inj' same rfl).2
      cases b <;> cases blank
    · rw [← List.append_assoc, ← List.append_assoc] at same
      obtain rfl := (List.append_inj' same rfl).1
      refine ⟨g, v, g', gap, fun d mem => ?_, spells, List.append_assoc ..⟩
      exact gap' d (List.mem_append_left _ mem)
  · rintro ⟨g, v, g', gap, gap', spells, rfl⟩
    refine ⟨g, v, g' ++ [c], gap, gap'.append ?_, spells, ?_⟩
    · exact List.forall_mem_singleton.mpr blank
    · simp only [List.append_assoc]

end SpanRecord

namespace SpanFile

-- =============================================================== lines

/-- A carriage return before the line feed is dropped. -/
theorem body_carriageReturn (l : List UInt8) :
    body (l ++ [carriageReturn, lineFeed]) = l := by
  unfold body
  rw [List.reverse_append]
  simp [carriageReturn, lineFeed]

/-- Without one, all that is before the line feed stays. -/
theorem body_lineFeed {l : List UInt8}
    (last : l.getLast? ≠ some carriageReturn) : body (l ++ [lineFeed]) = l := by
  rcases List.eq_nil_or_concat' l with rfl | ⟨l, b, rfl⟩
  · rfl
  · rw [List.getLast?_concat] at last
    exact body_ended fun same => last (congrArg some same)

/-- A line is read for what its body holds. -/
theorem recordOfLine_congr {l l' : List UInt8} (same : body l = body l') :
    recordOfLine l = recordOfLine l' := by
  unfold recordOfLine
  rw [same]

theorem allBlank_carriageReturn (t : List Char) :
    Text.allBlank (t ++ ['\r']) = Text.allBlank t := by
  unfold Text.allBlank
  rw [List.all_append]
  exact Bool.and_true _

/-- The same, or a fault in the text of a line in either. -/
def Alike {α : Type} (x y : Except Error α) : Prop :=
  x = y ∨ ∃ e e', x = .error (.json e) ∧ y = .error (.json e')

theorem Alike.bind {α β : Type} {x y : Except Error α} (h : Alike x y)
    (f : α → Except Error β) : Alike (x.bind f) (y.bind f) := by
  rcases h with rfl | ⟨e, e', rfl, rfl⟩
  · exact .inl rfl
  · exact .inr ⟨e, e', rfl, rfl⟩

/-- Behind the same, the alike is alike. -/
theorem Alike.behind {α β : Type} (x : Except Error α)
    {f g : α → Except Error β} (h : ∀ a, Alike (f a) (g a)) :
    Alike (x.bind f) (x.bind g) := by
  cases x with
  | error e => exact .inl rfl
  | ok a => exact h a

/-- The record of the text of a line, none for a blank one. -/
def recordOfText (t : List Char) : Except Error (Option SpanRecord) :=
  if Text.allBlank t then .ok none
  else ((SpanRecord.ofText t).mapError Error.json).map some

theorem recordOfText_blank {t : List Char} (blank : Text.allBlank t = true) :
    recordOfText t = .ok none := if_pos blank

/-- A carriage return more at the end of a text changes at most which fault is
found. -/
theorem recordOfText_carriageReturn (t : List Char) :
    Alike (recordOfText (t ++ ['\r'])) (recordOfText t) := by
  -- the texts hold the same record, or none in either
  have same (r : SpanRecord) : SpanRecord.ofText (t ++ ['\r']) = .ok r
      ↔ SpanRecord.ofText t = .ok r := SpanRecord.ofText_snoc_gap rfl
  unfold recordOfText
  rw [allBlank_carriageReturn]
  split
  · exact .inl rfl
  · cases first : SpanRecord.ofText t with
    | ok r => rw [(same r).mpr first]; exact .inl rfl
    | error e =>
        cases second : SpanRecord.ofText (t ++ ['\r']) with
        | ok r => rw [(same r).mp second] at first; cases first
        | error e' => exact .inr ⟨e', e, rfl, rfl⟩

theorem recordOfLine_of_decode {l : List UInt8} {t : List Char}
    (text : Text.Utf8.decode? (body l) = some t) :
    recordOfLine l = recordOfText t := by
  unfold recordOfLine recordOfText
  rw [text]
  dsimp only
  congr 1
  cases SpanRecord.ofText t <;> rfl

/-- A carriage return more before the line feed changes at most which fault
is found. -/
theorem recordOfLine_alike (l : List UInt8) :
    Alike (recordOfLine (l ++ [carriageReturn, lineFeed]))
      (recordOfLine (l ++ [lineFeed])) := by
  by_cases last : l.getLast? = some carriageReturn
  · obtain ⟨m, rfl⟩ := List.getLast?_eq_some_iff.mp last
    have with_ := body_carriageReturn (m ++ [carriageReturn])
    have without : body (m ++ [carriageReturn] ++ [lineFeed]) = m := by
      rw [List.append_assoc]
      exact body_carriageReturn m
    have text := Text.Utf8.decode?_snoc m (b := carriageReturn) (by decide)
    cases plain : Text.Utf8.decode? m with
    | none =>
        rw [plain, ← with_] at text
        rw [← without] at plain
        unfold recordOfLine
        rw [plain, text]
        exact .inl rfl
    | some t =>
        rw [plain, ← with_] at text
        rw [← without] at plain
        rw [recordOfLine_of_decode text, recordOfLine_of_decode plain]
        exact recordOfText_carriageReturn t
  · refine .inl (recordOfLine_congr ?_)
    rw [body_carriageReturn, body_lineFeed last]

-- ============================================================= records

/-- What is read of one line among others. -/
theorem records_line {front line : List UInt8} (ended : Ended front)
    (one : lineFeed ∉ line) (back : List UInt8) :
    records (front ++ (line ++ [lineFeed] ++ back))
      = (records front).bind fun before =>
          (recordOfLine (line ++ [lineFeed])).bind fun o =>
            (records back).map fun after => before ++ (o.toList ++ after) := by
  have whole : Ended (line ++ [lineFeed]) := .inr ⟨line, rfl⟩
  rw [records_append ended, records_append whole, (records_single one).1]
  cases records front with
  | error e => rfl
  | ok before =>
      cases recordOfLine (line ++ [lineFeed]) with
      | error e => rfl
      | ok o => cases records back <;> rfl

/-- The fault of a file is that of its first faulty line. -/
theorem recordsOfLines_error_iff {ls : List (List UInt8)} {e : Error} :
    recordsOfLines ls = .error e
      ↔ ∃ before line after, ls = before ++ line :: after
        ∧ (∀ l ∈ before, ∃ o, recordOfLine l = .ok o)
        ∧ recordOfLine line = .error e := by
  induction ls with
  | nil =>
      constructor
      · rintro ⟨⟩
      · rintro ⟨before, line, after, same, -, -⟩
        cases before <;> cases same
  | cons l ls ih =>
      have step : recordsOfLines (l :: ls) = (recordOfLine l).bind fun o =>
          (recordsOfLines ls).map (o.toList ++ ·) := by
        rw [recordsOfLines]
        cases recordOfLine l with
        | error e => rfl
        | ok o => cases recordsOfLines ls <;> rfl
      rw [step]
      cases here : recordOfLine l with
      | error e' =>
          constructor
          · rintro ⟨⟩
            exact ⟨[], l, ls, rfl, List.forall_mem_nil _, here⟩
          · rintro ⟨before, line, after, same, good, bad⟩
            cases before with
            | nil =>
                obtain ⟨rfl, -⟩ := List.cons.inj same
                obtain rfl := Except.error.inj (here.symm.trans bad)
                rfl
            | cons b before =>
                obtain ⟨rfl, -⟩ := List.cons.inj same
                obtain ⟨o, ok⟩ := good l List.mem_cons_self
                rw [here] at ok
                cases ok
      | ok o =>
          have rest : (Except.ok o : Except Error (Option SpanRecord)).bind
              (fun o => (recordsOfLines ls).map (o.toList ++ ·)) = .error e
              ↔ recordsOfLines ls = .error e := by
            cases recordsOfLines ls <;> simp [Except.bind, Except.map]
          rw [rest, ih]
          constructor
          · rintro ⟨before, line, after, rfl, good, bad⟩
            exact ⟨l :: before, line, after, rfl,
              List.forall_mem_cons.mpr ⟨⟨o, here⟩, good⟩, bad⟩
          · rintro ⟨before, line, after, same, good, bad⟩
            cases before with
            | nil =>
                obtain ⟨rfl, -⟩ := List.cons.inj same
                rw [here] at bad
                cases bad
            | cons b before =>
                obtain ⟨-, rfl⟩ := List.cons.inj same
                exact ⟨before, line, after, rfl,
                  fun l mem => good l (List.mem_cons_of_mem _ mem), bad⟩

-- =============================================================== blanks

theorem lineFeed_notMem_encode {t : List Char} (one : '\n' ∉ t) :
    lineFeed ∉ Text.Utf8.encode t := by
  intro mem
  obtain ⟨c, there, mem⟩ := List.mem_flatMap.mp mem
  rcases Text.Utf8.mem_encodeChar mem with same | high
  · have newline : c = '\n' := Char.toNat_inj.mp same.symm
    exact one (newline ▸ there)
  · exact absurd high (by decide)

/-- A line is read as its text is, whether or not it ends in a carriage
return. -/
theorem recordOfLine_encode {t : List Char} {o : Option SpanRecord}
    (h : recordOfText t = .ok o) :
    recordOfLine (Text.Utf8.encode t ++ [lineFeed]) = .ok o := by
  have longer := recordOfLine_of_decode
    (l := Text.Utf8.encode t ++ [carriageReturn, lineFeed]) (t := t) (by
      rw [body_carriageReturn, Text.Utf8.decode?_encode])
  rw [h] at longer
  rcases recordOfLine_alike (Text.Utf8.encode t) with same | ⟨e, -, fault, -⟩
  · rw [← same, longer]
  · rw [longer] at fault
    cases fault

/-- There are no records in lines of blanks. -/
theorem records_blank {w : List Char} (blank : Text.allBlank w = true) :
    records (Text.Utf8.encode w) = .ok [] := by
  induction n : w.length using Nat.strongRecOn generalizing w with
  | ind n ih =>
      by_cases more : '\n' ∈ w
      · obtain ⟨u, v, rfl, one⟩ := List.eq_append_cons_of_mem more
        have parts := blank
        unfold Text.allBlank at parts
        rw [List.all_append, List.all_cons, Bool.and_eq_true,
          Bool.and_eq_true] at parts
        obtain ⟨first, -, rest⟩ := parts
        have bytes : Text.Utf8.encode (u ++ '\n' :: v)
            = [] ++ (Text.Utf8.encode u ++ [lineFeed] ++ Text.Utf8.encode v) := by
          rw [Text.Utf8.encode_append, Text.Utf8.encode_cons, List.nil_append,
            List.append_assoc]
          rfl
        have here : recordOfLine (Text.Utf8.encode u ++ [lineFeed]) = .ok none :=
          recordOfLine_encode (recordOfText_blank first)
        have later := ih v.length (by
          rw [← n, List.length_append, List.length_cons]
          omega) rest rfl
        rw [bytes, records_line (.inl rfl) (lineFeed_notMem_encode one), here,
          later]
        rfl
      · have one := lineFeed_notMem_encode more
        rw [(records_single one).2, recordOfLine_of_decode (t := w) (by
          rw [body_unfinished one, Text.Utf8.decode?_encode]),
          recordOfText_blank blank]
        rfl

-- ========================================================= compositions

/-- What is read of a file, where it may be cut in two: the records of both
parts, or the first fault of the two. Lines of blanks at the cut make no
difference. Nor does a carriage return before a line feed, if the line had
none; where it had one, the records stay, and only one fault in the text of a
line may stand for another. The fault is that of the first faulty line,
whatever comes after it. -/
theorem reading_composes {front : List UInt8} (ended : Ended front)
    (back : List UInt8) :
    records (front ++ back)
        = ((records front).bind fun before =>
            (records back).map fun after => before ++ after)
    ∧ (∀ w, Text.allBlank w = true →
        Ended (Text.Utf8.encode w) ∨ back = [] →
        records (front ++ (Text.Utf8.encode w ++ back))
          = records (front ++ back))
    ∧ (∀ line, lineFeed ∉ line →
        Alike (records (front ++ (line ++ [carriageReturn, lineFeed] ++ back)))
            (records (front ++ (line ++ [lineFeed] ++ back)))
          ∧ (line.getLast? ≠ some carriageReturn →
            records (front ++ (line ++ [carriageReturn, lineFeed] ++ back))
              = records (front ++ (line ++ [lineFeed] ++ back))))
    ∧ ∀ e, records (front ++ back) = .error e
        ↔ ∃ before line after, lines (front ++ back) = before ++ line :: after
          ∧ (∀ l ∈ before, ∃ o, recordOfLine l = .ok o)
          ∧ recordOfLine line = .error e := by
  refine ⟨records_append ended back, ?_, ?_, ?_⟩
  · intro w blank cut
    rw [records_append ended, records_append ended]
    congr 1
    funext before
    rcases cut with whole | rfl
    · rw [records_append whole, records_blank blank]
      cases records back <;> rfl
    · rw [List.append_nil, records_blank blank]
      rfl
  · intro line one
    have longer : lineFeed ∉ line ++ [carriageReturn] := by
      rw [List.mem_append, not_or]
      exact ⟨one, by decide⟩
    have split : line ++ [carriageReturn, lineFeed]
        = line ++ [carriageReturn] ++ [lineFeed] := by
      rw [List.append_assoc]
      rfl
    have alike := recordOfLine_alike line
    rw [split] at alike ⊢
    rw [records_line ended longer, records_line ended one]
    refine ⟨.behind _ fun before => alike.bind _, fun last => ?_⟩
    have same : body (line ++ [carriageReturn] ++ [lineFeed])
        = body (line ++ [lineFeed]) := by
      rw [← split, body_carriageReturn, body_lineFeed last]
    rw [recordOfLine_congr same]
  · intro e
    exact recordsOfLines_error_iff

/-- Behind a line that is blank only by the wider notion, a byte that is no
text. -/
theorem reading_composes_behind_blank_line :
    Ended [0xC2, 0xA0, 0x0D, 0x0A]
      ∧ records ([0xC2, 0xA0, 0x0D, 0x0A] ++ [0xFF])
        = .error (.file .notText) := by
  have ended : Ended [0xC2, 0xA0, 0x0D, 0x0A] := .inr ⟨[0xC2, 0xA0, 0x0D], rfl⟩
  refine ⟨ended, ?_⟩
  rw [(reading_composes ended [0xFF]).1]
  rfl

/-- A string that is never closed, with a carriage return behind it: one more
before the line feed, and it is no longer that the text ends too early. -/
theorem carriage_return_told_apart :
    records ([0x5B, 0x22, 0x61, 0x0D] ++ [carriageReturn, lineFeed])
      ≠ records ([0x5B, 0x22, 0x61, 0x0D] ++ [lineFeed]) := by
  have longer : records ([0x5B, 0x22, 0x61, 0x0D] ++ [carriageReturn, lineFeed])
      = .error (.json .malformed) := rfl
  have plain : records ([0x5B, 0x22, 0x61, 0x0D] ++ [lineFeed])
      = .error (.json .truncated) := rfl
  rw [longer, plain]
  rintro ⟨⟩

end SpanFile

end TaskLedger
