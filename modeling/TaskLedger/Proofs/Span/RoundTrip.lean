/-
Spans and records that were written are read back as they were.

A written span fills a draft field by field (`Span.fills`), an optional field
only where it is set; the draft it ends at differs from a draft with all
fields in nothing that the span made of it shows. A record is the same, with
spans as values.

Every written text is free of control characters, and starts with a brace,
which is no blank.
-/
import TaskLedger.Proofs.Json.Members
import TaskLedger.Span.Reader
import TaskLedger.Text.Blank

namespace TaskLedger

open Json

-- ============================================================== drafts

/-- What is stored is what was read. -/
theorem Span.Draft.store_reads {σ α : Type} {read : Reader α}
    {text : List Char} {a : α} (reads : Reads read text a) (put : α → σ) :
    Reads (Span.Draft.store read put) text (put a) := by
  intro r ends
  unfold Span.Draft.store
  rw [reads r ends]
  rfl

/-- Members that fill a draft one after another fill it together. -/
theorem Json.Fills.append {σ : Type} {shape : Shape σ} {st next last : σ}
    {front back : List (List Char)} (before : Fills shape st front next)
    (after : Fills shape next back last) :
    Fills shape st (front ++ back) last := by
  induction before with
  | done st => exact after
  | member known open_ reads more ih => exact .member known open_ reads (ih after)

-- =============================================================== spans

namespace Span

/-- The draft that a written span fills. -/
def draft (s : Span) : Draft where
  id := some s.id
  parent := some s.parent
  kind := some s.kind
  startMs := some s.startMs
  durationMs := some s.durationMs
  thread := s.thread.map some
  task := s.task.map some

/-- Nothing of a span is lost in its draft. -/
theorem ofDraft_draft (s : Span) : ofDraft s.draft = .ok s := by
  obtain ⟨id, parent, kind, startMs, durationMs, thread, task⟩ := s
  cases thread <;> cases task <;> rfl

/-- A kind is read off its written name. -/
theorem readKind_write (kind : SpanKind) :
    Reads readKind (writeString kind.name) kind := by
  refine readNamed_write ?_
  unfold named
  rw [String.ofList_toList]
  cases kind <;> rfl

/-- A written span fills a draft with all that the span has. -/
theorem fills (s : Span) : Fills shape {} s.members s.draft := by
  have always : Fills shape {}
      [writeMember "id" ((s.id.map writeUnsigned).getD nullWord),
        writeMember "parent_id" ((s.parent.map writeUnsigned).getD nullWord),
        writeMember "execution_type" (writeString s.kind.name),
        writeMember "start_time_ms" (writeSigned s.startMs),
        writeMember "duration_ms" (writeSigned s.durationMs)]
      { s.draft with thread := none, task := none } := by
    -- what each field is read into, as far as it is filled by then
    refine .member rfl rfl (Draft.store_reads (readOptional_unsigned s.id)
      fun a => show Draft from { id := some a }) ?_
    refine .member rfl rfl (Draft.store_reads (readOptional_unsigned s.parent)
      fun a => show Draft from { id := some s.id, parent := some a }) ?_
    refine .member rfl rfl (Draft.store_reads (readKind_write s.kind)
      fun a => show Draft from
        { id := some s.id, parent := some s.parent, kind := some a }) ?_
    refine .member rfl rfl (Draft.store_reads (readSigned_write s.startMs)
      fun a => show Draft from
        { id := some s.id, parent := some s.parent, kind := some s.kind,
          startMs := some a }) ?_
    refine .member rfl rfl (Draft.store_reads (readSigned_write s.durationMs)
      fun a => show Draft from
        { s.draft with durationMs := some a, thread := none, task := none }) ?_
    exact .done _
  have thread : Fills shape { s.draft with thread := none, task := none }
      (s.thread.map fun t => writeMember "thread_id" (writeUnsigned t)).toList
      { s.draft with task := none } := by
    unfold draft
    cases s.thread with
    | none => exact .done _
    | some t =>
        exact .member rfl rfl
          (Draft.store_reads (readOptional_unsigned (some t))
            fun a => { s.draft with thread := some a, task := none })
          (.done _)
  have task : Fills shape { s.draft with task := none }
      (s.task.map fun t => writeMember "task_path" (writeString t)).toList
      s.draft := by
    cases h : s.task with
    | none =>
        have same : { s.draft with task := none } = s.draft := by
          unfold draft
          rw [h]
          rfl
        rw [same]
        exact .done _
    | some t =>
        have same : { s.draft with task := some (some t) } = s.draft := by
          unfold draft
          rw [h]
          rfl
        rw [← same]
        exact .member rfl rfl (Draft.store_reads (readOptional_string t)
            fun a => { s.draft with task := some a })
          (.done _)
  exact (always.append thread).append task

/-- A span is read off what is written for it, and the reader stops right behind
it. -/
theorem read_write (s : Span) (r : List Char) :
    read (s.write ++ r) = .ok (s, r) :=
  read_object s.fills s.ofDraft_draft r

/-- What is written for a span starts like a value. -/
theorem starts_write (s : Span) : Starts s.write :=
  ⟨_, _, rfl, by decide, by decide, by decide⟩

end Span

-- ============================================================= records

namespace SpanRecord

/-- The draft that a written record fills. -/
def draft (r : SpanRecord) : Draft where
  project := some r.project
  variant := r.variant.map some
  span := some r.span
  children := if r.children.isEmpty then none else some r.children

/-- Nothing of a record is lost in its draft. -/
theorem ofDraft_draft (r : SpanRecord) : ofDraft r.draft = .ok r := by
  obtain ⟨project, variant, span, children⟩ := r
  cases variant <;> cases children <;> rfl

/-- A written record fills a draft with all that the record has. -/
theorem fills (r : SpanRecord) : Fills shape {} r.members r.draft := by
  -- member by member, and what is not there is not written
  have project : Fills shape {}
      [writeMember "project_path" (writeString r.project)]
      { project := some r.project } :=
    .member rfl rfl (Span.Draft.store_reads (readString_write r.project)
        fun a => show Draft from { project := some a })
      (.done _)
  have variant : Fills shape { project := some r.project }
      (r.variant.map fun v => writeMember "variant" (writeString v)).toList
      { project := some r.project, variant := r.variant.map some } := by
    cases r.variant with
    | none => exact .done _
    | some v =>
        exact .member rfl rfl
          (Span.Draft.store_reads (readOptional_string v)
            fun a => show Draft from
              { project := some r.project, variant := some a })
          (.done _)
  have span : Fills shape
      { project := some r.project, variant := r.variant.map some }
      [writeMember "span" r.span.write] { r.draft with children := none } :=
    .member rfl rfl
      (Span.Draft.store_reads (fun rest _ => r.span.read_write rest)
        fun a => show Draft from { r.draft with span := some a, children := none })
      (.done _)
  have children : Fills shape { r.draft with children := none }
      (if r.children.isEmpty then []
        else [writeMember "children" (writeList (r.children.map Span.write))])
      r.draft := by
    have list : Reads (readList Span.read)
        (writeList (r.children.map Span.write)) r.children :=
      readList_write Span.starts_write fun s _ rest _ => s.read_write rest
    unfold draft
    split
    · exact .done _
    · exact .member rfl rfl
        (Span.Draft.store_reads list
          fun a => show Draft from { r.draft with children := some a })
        (.done _)
  exact ((project.append variant).append span).append children

/-- A record is read off what is written for it, and the reader stops right
behind it. -/
theorem read_write (r : SpanRecord) (rest : List Char) :
    read (r.write ++ rest) = .ok (r, rest) :=
  read_object r.fills r.ofDraft_draft rest

/-- The text of a record spells that record. -/
theorem ofText_write (r : SpanRecord) : ofText r.write = .ok r := by
  have read := r.read_write []
  rw [List.append_nil] at read
  unfold ofText readAll
  rw [read]
  rfl

end SpanRecord

-- ====================================================== plain characters

/-- No character of a text is a control character. -/
def Json.Plain (text : List Char) : Prop := ∀ c ∈ text, 0x20 ≤ c.toNat

namespace Json

theorem Plain.append {s t : List Char} (front : Plain s) (back : Plain t) :
    Plain (s ++ t) := by
  intro c mem
  rcases List.mem_append.mp mem with mem | mem
  · exact front c mem
  · exact back c mem

theorem Plain.cons {c : Char} {t : List Char} (plain : 0x20 ≤ c.toNat)
    (back : Plain t) : Plain (c :: t) :=
  List.forall_mem_cons.mpr ⟨plain, back⟩

/-- Decimal digits are plain. -/
theorem Plain.digits (n : Nat) : Plain (Nat.toDigits 10 n) := by
  intro c mem
  have digit := Numeral.isDigit_toDigits c mem
  rw [Char.isDigit_iff_toNat] at digit
  have : '0'.toNat = 48 := rfl
  omega

/-- A string is plain however it goes, since control characters in it are
escaped. -/
theorem Plain.string (s : String) : Plain (writeString s) := by
  refine .cons (by decide) (.append ?_ ?_)
  · intro c mem
    obtain ⟨d, -, mem⟩ := List.mem_flatMap.mp mem
    exact Quoted.plain_of_mem_escape mem
  · exact List.forall_mem_singleton.mpr (by decide)

theorem Plain.signed (n : Int64) : Plain (writeSigned n) := by
  unfold writeSigned
  split
  · exact .cons (by decide) (.digits _)
  · exact .digits _

theorem Plain.optional (n : Option UInt64) :
    Plain ((n.map writeUnsigned).getD nullWord) := by
  cases n with
  | none =>
      have all : nullWord.all (fun c => decide (0x20 ≤ c.toNat)) = true := rfl
      exact fun c mem => of_decide_eq_true (List.all_eq_true.mp all c mem)
  | some n => exact .digits n.toNat

/-- A member is plain if its value is: its name is a string. -/
theorem Plain.member (name : String) {value : List Char} (h : Plain value) :
    Plain (writeMember name value) :=
  .append (.string name) (.cons (by decide) h)

/-- Texts with commas between them are plain if they are. -/
theorem Plain.commaSeparated {texts : List (List Char)}
    (h : ∀ t ∈ texts, Plain t) : Plain (commaSeparated texts) := by
  cases texts with
  | nil => exact List.forall_mem_nil _
  | cons a rest =>
      rw [commaSeparated_cons]
      refine .append (h a List.mem_cons_self) ?_
      intro c mem
      obtain ⟨t, ht, mem⟩ := List.mem_flatMap.mp mem
      exact Plain.cons (by decide) (h t (List.mem_cons_of_mem a ht)) c mem

theorem Plain.object {members : List (List Char)} (h : ∀ t ∈ members, Plain t) :
    Plain (writeObject members) :=
  .cons (by decide) (.append (.commaSeparated h)
    (List.forall_mem_singleton.mpr (by decide)))

theorem Plain.list {items : List (List Char)} (h : ∀ t ∈ items, Plain t) :
    Plain (writeList items) :=
  .cons (by decide) (.append (.commaSeparated h)
    (List.forall_mem_singleton.mpr (by decide)))

end Json

/-- So a span has no line feed in it, nor any other control character. -/
theorem Span.plain_write (s : Span) : Plain s.write := by
  refine .object fun t mem => ?_
  unfold Span.members at mem
  rcases List.mem_append.mp mem with mem | mem
  · rcases List.mem_append.mp mem with mem | mem
    · simp only [List.mem_cons, List.not_mem_nil, or_false] at mem
      rcases mem with rfl | rfl | rfl | rfl | rfl
      · exact .member _ (.optional s.id)
      · exact .member _ (.optional s.parent)
      · exact .member _ (.string s.kind.name)
      · exact .member _ (.signed s.startMs)
      · exact .member _ (.signed s.durationMs)
    · obtain ⟨n, -, rfl⟩ := Option.map_eq_some_iff.mp (Option.mem_toList.mp mem)
      exact .member _ (.digits n.toNat)
  · obtain ⟨s, -, rfl⟩ := Option.map_eq_some_iff.mp (Option.mem_toList.mp mem)
    exact .member _ (.string s)

/-- And neither has a record, which is why it fits on a line. -/
theorem SpanRecord.plain_write (r : SpanRecord) : Plain r.write := by
  refine .object fun t mem => ?_
  unfold SpanRecord.members at mem
  rcases List.mem_append.mp mem with mem | mem
  · rcases List.mem_append.mp mem with mem | mem
    · rcases List.mem_append.mp mem with mem | mem
      · obtain rfl := List.mem_singleton.mp mem
        exact .member _ (.string r.project)
      · obtain ⟨v, -, rfl⟩ :=
          Option.map_eq_some_iff.mp (Option.mem_toList.mp mem)
        exact .member _ (.string v)
    · obtain rfl := List.mem_singleton.mp mem
      exact .member _ r.span.plain_write
  · split at mem
    · cases mem
    · obtain rfl := List.mem_singleton.mp mem
      refine .member _ (.list fun t mem => ?_)
      obtain ⟨child, -, rfl⟩ := List.mem_map.mp mem
      exact child.plain_write

/-- A written record is not blank. -/
theorem SpanRecord.write_not_blank (r : SpanRecord) :
    Text.allBlank r.write = false :=
  rfl

end TaskLedger
