/-
The texts that spell a record, and that a record is read from these texts and
no others (`SpanRecord.ofText_iff_spelled`).

A span or a record is an object or a list (`FromObject`, `FromList`). The
members of an object stand in any order, those that may be left out are left
out or not, and others stand among them. A list has the fields in order, of
which the last may be left out.

The reader fills a draft. Each of its slots is filled by one field and left
alone by the others (`Span.keeps`), so what the members of an object make of
a draft does not depend on their order.
-/
import TaskLedger.Proofs.Json.Slots
import TaskLedger.Span.Reader

namespace TaskLedger

open Json

-- ============================================================= spellings

namespace Span

/-- The names of the fields of a span. -/
def fieldNames : List String :=
  ["id", "parent_id", "execution_type", "start_time_ms", "duration_ms",
    "thread_id", "task_path"]

/-- Names and values, in any order, that are a span's. -/
structure FromObject (es : List (String × List Char)) (s : Span) : Prop where
  fields : Fielded fieldNames es
  id : Defaulted es "id" (.optional .unsigned) none s.id
  parent : Defaulted es "parent_id" (.optional .unsigned) none s.parent
  kind : Given es "execution_type" (.named SpanKind.name) s.kind
  startMs : Given es "start_time_ms" .signed s.startMs
  durationMs : Given es "duration_ms" .signed s.durationMs
  thread : Defaulted es "thread_id" (.optional .unsigned) none s.thread
  task : Defaulted es "task_path" (.optional .string) none s.task

/-- Values in the order of the fields that are a span's: all of them, or all
but the task path, or all but that and the thread. -/
def FromList (vs : List (List Char)) (s : Span) : Prop :=
  ∃ id parent kind start duration rest,
    vs = id :: parent :: kind :: start :: duration :: rest
    ∧ Spelling.optional .unsigned id s.id
    ∧ Spelling.optional .unsigned parent s.parent
    ∧ Spelling.named SpanKind.name kind s.kind
    ∧ Spelling.signed start s.startMs
    ∧ Spelling.signed duration s.durationMs
    ∧ ((∃ thread task, rest = [thread, task]
        ∧ Spelling.optional .unsigned thread s.thread
        ∧ Spelling.optional .string task s.task)
      ∨ (∃ thread, rest = [thread]
        ∧ Spelling.optional .unsigned thread s.thread ∧ s.task = none)
      ∨ rest = [] ∧ s.thread = none ∧ s.task = none)

/-- The texts of a span. -/
def spelling : Spelling Span := fun v s =>
  (∃ es, Spelling.object v es ∧ FromObject es s)
    ∨ ∃ vs, Enclosed .list vs v ∧ FromList vs s

end Span

namespace SpanRecord

/-- The names of the fields of a record. -/
def fieldNames : List String := ["project_path", "variant", "span", "children"]

/-- Names and values, in any order, that are a record's. -/
structure FromObject (es : List (String × List Char)) (r : SpanRecord) :
    Prop where
  fields : Fielded fieldNames es
  project : Given es "project_path" .string r.project
  variant : Defaulted es "variant" (.optional .string) none r.variant
  span : Given es "span" Span.spelling r.span
  children : Defaulted es "children" (.list Span.spelling) [] r.children

/-- Values in the order of the fields that are a record's, the children among
them or not. -/
def FromList (vs : List (List Char)) (r : SpanRecord) : Prop :=
  ∃ project variant span rest, vs = project :: variant :: span :: rest
    ∧ Spelling.string project r.project
    ∧ Spelling.optional .string variant r.variant
    ∧ Span.spelling span r.span
    ∧ ((∃ children, rest = [children]
        ∧ Spelling.list Span.spelling children r.children)
      ∨ rest = [] ∧ r.children = [])

/-- The texts of a record. -/
def spelling : Spelling SpanRecord := fun v r =>
  (∃ es, Spelling.object v es ∧ FromObject es r)
    ∨ ∃ vs, Enclosed .list vs v ∧ FromList vs r

/-- A text that spells a record, blanks around it allowed. -/
def Spelled (t : List Char) (r : SpanRecord) : Prop :=
  ∃ g v g', Gap g ∧ Gap g' ∧ spelling v r ∧ t = g ++ (v ++ g')

end SpanRecord

-- ================================================================ stores

section

variable {σ β : Type} {rd : Reader β} {T : Spelling β} {put : β → σ}

/-- A member is stored as its value is read, and nothing else is read of it. -/
theorem Span.Draft.store_ok {s r : List Char} {st : σ}
    (h : Span.Draft.store rd put s = .ok (st, r)) :
    ∃ b, rd s = .ok (b, r) ∧ st = put b := by
  obtain ⟨⟨b, u⟩, taken, h⟩ := bind_ok h
  obtain ⟨rfl, rfl⟩ := Prod.mk.inj (Except.ok.inj h)
  exact ⟨b, taken, rfl⟩

/-- What is stored is what the text spells. -/
theorem Span.Draft.store_recognizes (h : Recognizes rd T) (put : β → σ) :
    Recognizes (Span.Draft.store rd put) fun v st => ∃ b, T v b ∧ st = put b
    where
  reads := by
    rintro v st ⟨b, spells, rfl⟩
    obtain ⟨starts, reads⟩ := h.reads spells
    refine ⟨starts, fun g r gap ends => ?_⟩
    unfold Span.Draft.store
    rw [reads g r gap ends]
    rfl
  spelt := by
    intro s st r taken
    obtain ⟨b, value, rfl⟩ := store_ok taken
    obtain ⟨g, v, gap, spells, same⟩ := h.spelt value
    exact ⟨g, v, gap, ⟨b, spells, rfl⟩, same⟩

/-- What is spelled by a member's value is what is stored. -/
theorem Span.Draft.means_store (h : Recognizes rd T) {v : List Char} {st : σ} :
    Means (Span.Draft.store rd put) v st ↔ ∃ b, T v b ∧ st = put b :=
  (store_recognizes h put).means_iff

/-- So whatever the value is, it was stored. -/
theorem Span.Draft.stored {v : List Char} {st : σ}
    (means : Means (Span.Draft.store rd put) v st) : ∃ b, st = put b := by
  obtain ⟨b, -, same⟩ := store_ok (means.2 [] [] Gap.nil NumberEnds.nil)
  exact ⟨b, same⟩

/-- A field that stores what it reads has the slot that it stores into. -/
theorem Json.Shape.Slot.of_store {shape : Shape σ} {f : Json.Field σ}
    {slot : σ → Option β} (h : Recognizes rd T) (put : σ → β → σ)
    (known : shape.field? f.name.toList = some f)
    (present : ∀ st, f.present st = (slot st).isSome)
    (reads : ∀ st, f.read st = Span.Draft.store rd (put st))
    (holds : ∀ st b, slot (put st b) = some b)
    (keeps : ∀ {g}, g ∈ shape.fields → g.name ≠ f.name →
      ∀ {st v next}, Means (g.read st) v next → slot next = slot st) :
    Shape.Slot shape f slot T where
  known := known
  present := present
  fills {st v next} means := by
    rw [reads, Span.Draft.means_store h] at means
    obtain ⟨b, spells, rfl⟩ := means
    exact ⟨b, spells, holds st b⟩
  takes st {v b} spells := by
    rw [reads]
    exact ⟨_, (Span.Draft.means_store h).mpr ⟨b, spells, rfl⟩⟩
  unique := h.unique
  keeps := keeps

section

variable {name : String} {present : σ → Bool} {put : σ → β → σ}
  {fs : List (Json.Field σ)} {st last : σ} {vs : List (List Char)}

/-- A field that stores what it reads takes the next value of a list. -/
theorem Json.Shape.takesInOrder_required (h : Recognizes rd T) :
    Shape.TakesInOrder
        (⟨name, false, present, fun st => Span.Draft.store rd (put st)⟩ :: fs)
        st vs last
      ↔ ∃ v rest b, vs = v :: rest ∧ T v b
          ∧ Shape.TakesInOrder fs (put st b) rest last := by
  constructor
  · rintro (- | ⟨means, more⟩ | ⟨⟨⟩, -⟩)
    obtain ⟨b, spells, rfl⟩ := (Span.Draft.means_store h).mp means
    exact ⟨_, _, b, rfl, spells, more⟩
  · rintro ⟨v, rest, b, rfl, spells, more⟩
    exact .field ((Span.Draft.means_store h).mpr ⟨b, spells, rfl⟩) more

/-- One that may be left out takes none where the list has ended. -/
theorem Json.Shape.takesInOrder_trailing (h : Recognizes rd T) :
    Shape.TakesInOrder
        (⟨name, true, present, fun st => Span.Draft.store rd (put st)⟩ :: fs)
        st vs last
      ↔ (∃ v rest b, vs = v :: rest ∧ T v b
          ∧ Shape.TakesInOrder fs (put st b) rest last)
        ∨ vs = [] ∧ Shape.TakesInOrder fs st [] last := by
  constructor
  · rintro (- | ⟨means, more⟩ | ⟨-, more⟩)
    · obtain ⟨b, spells, rfl⟩ := (Span.Draft.means_store h).mp means
      exact .inl ⟨_, _, b, rfl, spells, more⟩
    · exact .inr ⟨rfl, more⟩
  · rintro (⟨v, rest, b, rfl, spells, more⟩ | ⟨rfl, more⟩)
    · exact .field ((Span.Draft.means_store h).mpr ⟨b, spells, rfl⟩) more
    · exact .left rfl more

end

/-- A list without fields is one that is at its end. -/
theorem Json.Shape.takesInOrder_nil {st last : σ} {vs : List (List Char)} :
    Shape.TakesInOrder [] st vs last ↔ vs = [] ∧ st = last := by
  constructor
  · rintro ⟨⟩
    exact ⟨rfl, rfl⟩
  · rintro ⟨rfl, rfl⟩
    exact .done st

end

-- ================================================================ values

/-- A number, or null for none. -/
theorem optionalUnsigned_recognizes :
    Recognizes (readOptional readUnsigned) (.optional .unsigned) := by
  refine readOptional_recognizes readUnsigned_recognizes fun t a spells => ?_
  obtain ⟨c, ds, digits, digit⟩ := toDigits_cons a.toNat
  have same : 'n' :: t = c :: ds := spells.trans digits
  rw [← (List.cons.inj same).1] at digit
  cases digit

/-- A string, or null for none. -/
theorem optionalString_recognizes :
    Recognizes (readOptional readString) (.optional .string) := by
  refine readOptional_recognizes readString_recognizes ?_
  rintro t a ⟨q, -, same⟩
  cases same

-- ================================================================= spans

namespace Span

/-- The kind of a span is read by its name, and only by one of the names that
there are. -/
theorem readKind_recognizes :
    Recognizes readKind (.named SpanKind.name) := by
  refine readNamed_recognizes fun t kind => ⟨fun found => ?_, ?_⟩
  · unfold named at found
    split at found
    · next a found' =>
      obtain rfl := Except.ok.inj found
      have same := List.find?_some found'
      rw [eq_of_beq same, String.toList_ofList]
    · cases found
  · rintro rfl
    unfold named
    rw [String.ofList_toList]
    cases kind <;> rfl

/-- Every field of a span is read off what spells its value, whatever comes
behind that. -/
theorem steadfast : shape.Steadfast := by
  intro f mem st
  simp only [shape, List.mem_cons, List.not_mem_nil, or_false] at mem
  rcases mem with rfl | rfl | rfl | rfl | rfl | rfl | rfl <;> dsimp only
  · exact (Draft.store_recognizes optionalUnsigned_recognizes _).means
  · exact (Draft.store_recognizes optionalUnsigned_recognizes _).means
  · exact (Draft.store_recognizes readKind_recognizes _).means
  · exact (Draft.store_recognizes readSigned_recognizes _).means
  · exact (Draft.store_recognizes readSigned_recognizes _).means
  · exact (Draft.store_recognizes optionalUnsigned_recognizes _).means
  · exact (Draft.store_recognizes optionalString_recognizes _).means

/-- A field fills its own slot and leaves the others alone. -/
theorem keeps {f : Json.Field Draft} (mem : f ∈ shape.fields) {st next : Draft}
    {v : List Char} (means : Means (f.read st) v next) :
    (f.name ≠ "id" → next.id = st.id)
    ∧ (f.name ≠ "parent_id" → next.parent = st.parent)
    ∧ (f.name ≠ "execution_type" → next.kind = st.kind)
    ∧ (f.name ≠ "start_time_ms" → next.startMs = st.startMs)
    ∧ (f.name ≠ "duration_ms" → next.durationMs = st.durationMs)
    ∧ (f.name ≠ "thread_id" → next.thread = st.thread)
    ∧ (f.name ≠ "task_path" → next.task = st.task) := by
  simp only [shape, List.mem_cons, List.not_mem_nil, or_false] at mem
  rcases mem with rfl | rfl | rfl | rfl | rfl | rfl | rfl <;>
    dsimp only at means <;> obtain ⟨a, rfl⟩ := Draft.stored means <;>
    refine ⟨?_, ?_, ?_, ?_, ?_, ?_, ?_⟩ <;> intro other <;>
    first | rfl | exact absurd rfl other

/-- The slots of a span, field by field: what is spelled behind a name is what
the draft has in the place of that name, and every other field leaves it alone.
-/
theorem slot_id : shape.Slot (shape.fields.get ⟨0, by decide⟩) (·.id)
    (.optional .unsigned) :=
  .of_store optionalUnsigned_recognizes (fun st b => { st with id := some b })
    rfl (fun _ => rfl) (fun _ => rfl) (fun _ _ => rfl)
    fun mem other _ _ _ means => (keeps mem means).1 other

theorem slot_parent : shape.Slot (shape.fields.get ⟨1, by decide⟩) (·.parent)
    (.optional .unsigned) :=
  .of_store optionalUnsigned_recognizes
    (fun st b => { st with parent := some b })
    rfl (fun _ => rfl) (fun _ => rfl) (fun _ _ => rfl)
    fun mem other _ _ _ means => (keeps mem means).2.1 other

theorem slot_kind : shape.Slot (shape.fields.get ⟨2, by decide⟩) (·.kind)
    (.named SpanKind.name) :=
  .of_store readKind_recognizes (fun st b => { st with kind := some b })
    rfl (fun _ => rfl) (fun _ => rfl) (fun _ _ => rfl)
    fun mem other _ _ _ means => (keeps mem means).2.2.1 other

theorem slot_startMs : shape.Slot (shape.fields.get ⟨3, by decide⟩)
    (·.startMs) .signed :=
  .of_store readSigned_recognizes (fun st b => { st with startMs := some b })
    rfl (fun _ => rfl) (fun _ => rfl) (fun _ _ => rfl)
    fun mem other _ _ _ means => (keeps mem means).2.2.2.1 other

theorem slot_durationMs : shape.Slot (shape.fields.get ⟨4, by decide⟩)
    (·.durationMs) .signed :=
  .of_store readSigned_recognizes
    (fun st b => { st with durationMs := some b })
    rfl (fun _ => rfl) (fun _ => rfl) (fun _ _ => rfl)
    fun mem other _ _ _ means => (keeps mem means).2.2.2.2.1 other

theorem slot_thread : shape.Slot (shape.fields.get ⟨5, by decide⟩) (·.thread)
    (.optional .unsigned) :=
  .of_store optionalUnsigned_recognizes
    (fun st b => { st with thread := some b })
    rfl (fun _ => rfl) (fun _ => rfl) (fun _ _ => rfl)
    fun mem other _ _ _ means => (keeps mem means).2.2.2.2.2.1 other

theorem slot_task : shape.Slot (shape.fields.get ⟨6, by decide⟩) (·.task)
    (.optional .string) :=
  .of_store optionalString_recognizes (fun st b => { st with task := some b })
    rfl (fun _ => rfl) (fun _ => rfl) (fun _ _ => rfl)
    fun mem other _ _ _ means => (keeps mem means).2.2.2.2.2.2 other

/-- Together they tell everything that a draft holds. -/
theorem slotted : shape.Slotted := by
  intro f mem
  simp only [shape, List.mem_cons, List.not_mem_nil, or_false] at mem
  rcases mem with rfl | rfl | rfl | rfl | rfl | rfl | rfl
  · exact ⟨_, _, _, slot_id⟩
  · exact ⟨_, _, _, slot_parent⟩
  · exact ⟨_, _, _, slot_kind⟩
  · exact ⟨_, _, _, slot_startMs⟩
  · exact ⟨_, _, _, slot_durationMs⟩
  · exact ⟨_, _, _, slot_thread⟩
  · exact ⟨_, _, _, slot_task⟩

/-- What a draft has to hold to make a span. -/
theorem ofDraft_ok_iff {d : Draft} {s : Span} :
    ofDraft d = .ok s
      ↔ d.id.getD none = s.id ∧ d.parent.getD none = s.parent
        ∧ d.kind = some s.kind ∧ d.startMs = some s.startMs
        ∧ d.durationMs = some s.durationMs ∧ d.thread.getD none = s.thread
        ∧ d.task.getD none = s.task := by
  obtain ⟨id, parent, kind, startMs, durationMs, thread, task⟩ := d
  obtain ⟨id', parent', kind', startMs', durationMs', thread', task'⟩ := s
  have join {α : Type} (x : Option (Option α)) : x.join = x.getD none := by
    cases x <;> rfl
  cases kind <;> cases startMs <;> cases durationMs <;>
    simp [ofDraft, join]

/-- The members of an object make a draft of a span if they are the span's. -/
theorem takes_iff_fromObject {es : List (String × List Char)} {s : Span} :
    (∃ last, ofDraft last = .ok s ∧ shape.Takes {} es last)
      ↔ FromObject es s := by
  constructor
  · rintro ⟨last, made, takes⟩
    obtain ⟨id, parent, kind, start, duration, thread, task⟩ :=
      ofDraft_ok_iff.mp made
    exact ⟨takes.fielded slotted,
      (takes.defaulted_iff slotted slot_id rfl).mpr id,
      (takes.defaulted_iff slotted slot_parent rfl).mpr parent,
      (takes.given_iff slotted slot_kind rfl).mpr kind,
      (takes.given_iff slotted slot_startMs rfl).mpr start,
      (takes.given_iff slotted slot_durationMs rfl).mpr duration,
      (takes.defaulted_iff slotted slot_thread rfl).mpr thread,
      (takes.defaulted_iff slotted slot_task rfl).mpr task⟩
  · intro h
    obtain ⟨last, takes⟩ : ∃ last, shape.Takes {} es last := by
      refine Shape.exists_takes slotted h.fields fun f mem => ?_
      simp only [shape, List.mem_cons, List.not_mem_nil, or_false] at mem
      rcases mem with rfl | rfl | rfl | rfl | rfl | rfl | rfl
      · exact slot_id.ready_default h.fields h.id rfl
      · exact slot_parent.ready_default h.fields h.parent rfl
      · exact slot_kind.ready h.fields h.kind rfl
      · exact slot_startMs.ready h.fields h.startMs rfl
      · exact slot_durationMs.ready h.fields h.durationMs rfl
      · exact slot_thread.ready_default h.fields h.thread rfl
      · exact slot_task.ready_default h.fields h.task rfl
    exact ⟨last, ofDraft_ok_iff.mpr
      ⟨(takes.defaulted_iff slotted slot_id rfl).mp h.id,
        (takes.defaulted_iff slotted slot_parent rfl).mp h.parent,
        (takes.given_iff slotted slot_kind rfl).mp h.kind,
        (takes.given_iff slotted slot_startMs rfl).mp h.startMs,
        (takes.given_iff slotted slot_durationMs rfl).mp h.durationMs,
        (takes.defaulted_iff slotted slot_thread rfl).mp h.thread,
        (takes.defaulted_iff slotted slot_task rfl).mp h.task⟩, takes⟩

/-- The first five fields take a value each. -/
theorem takesInOrder_front {vs : List (List Char)} {last : Draft} :
    Shape.TakesInOrder shape.fields {} vs last
      ↔ ∃ id parent kind start duration rest a b c d e,
        vs = id :: parent :: kind :: start :: duration :: rest
        ∧ Spelling.optional .unsigned id a ∧ Spelling.optional .unsigned parent b
        ∧ Spelling.named SpanKind.name kind c ∧ Spelling.signed start d
        ∧ Spelling.signed duration e
        ∧ Shape.TakesInOrder (shape.fields.drop 5)
          { id := some a, parent := some b, kind := some c, startMs := some d,
            durationMs := some e } rest last := by
  constructor
  · intro takes
    obtain ⟨id, _, a, rfl, first, takes⟩ :=
      (Shape.takesInOrder_required optionalUnsigned_recognizes).mp takes
    obtain ⟨parent, _, b, rfl, second, takes⟩ :=
      (Shape.takesInOrder_required optionalUnsigned_recognizes).mp takes
    obtain ⟨kind, _, c, rfl, third, takes⟩ :=
      (Shape.takesInOrder_required readKind_recognizes).mp takes
    obtain ⟨start, _, d, rfl, fourth, takes⟩ :=
      (Shape.takesInOrder_required readSigned_recognizes).mp takes
    obtain ⟨duration, rest, e, rfl, fifth, takes⟩ :=
      (Shape.takesInOrder_required readSigned_recognizes).mp takes
    exact ⟨id, parent, kind, start, duration, rest, a, b, c, d, e, rfl, first,
      second, third, fourth, fifth, takes⟩
  · rintro ⟨id, parent, kind, start, duration, rest, a, b, c, d, e, rfl, first,
      second, third, fourth, fifth, takes⟩
    refine (Shape.takesInOrder_required optionalUnsigned_recognizes).mpr
      ⟨_, _, _, rfl, first, ?_⟩
    refine (Shape.takesInOrder_required optionalUnsigned_recognizes).mpr
      ⟨_, _, _, rfl, second, ?_⟩
    refine (Shape.takesInOrder_required readKind_recognizes).mpr
      ⟨_, _, _, rfl, third, ?_⟩
    refine (Shape.takesInOrder_required readSigned_recognizes).mpr
      ⟨_, _, _, rfl, fourth, ?_⟩
    exact (Shape.takesInOrder_required readSigned_recognizes).mpr
      ⟨_, _, _, rfl, fifth, takes⟩

/-- The last two fields take a value while there is one. -/
theorem takesInOrder_back {st last : Draft} {vs : List (List Char)} :
    Shape.TakesInOrder (shape.fields.drop 5) st vs last
      ↔ (∃ thread task a b, vs = [thread, task]
          ∧ Spelling.optional .unsigned thread a
          ∧ Spelling.optional .string task b
          ∧ last = { st with thread := some a, task := some b })
        ∨ (∃ thread a, vs = [thread] ∧ Spelling.optional .unsigned thread a
          ∧ last = { st with thread := some a })
        ∨ vs = [] ∧ last = st := by
  constructor
  · intro takes
    rcases (Shape.takesInOrder_trailing optionalUnsigned_recognizes).mp takes
      with ⟨thread, _, a, rfl, sixth, more⟩ | ⟨rfl, more⟩
    · rcases (Shape.takesInOrder_trailing optionalString_recognizes).mp more
        with ⟨task, _, b, rfl, seventh, done⟩ | ⟨rfl, done⟩
      · obtain ⟨rfl, rfl⟩ := Shape.takesInOrder_nil.mp done
        exact .inl ⟨thread, task, a, b, rfl, sixth, seventh, rfl⟩
      · obtain ⟨-, rfl⟩ := Shape.takesInOrder_nil.mp done
        exact .inr (.inl ⟨thread, a, rfl, sixth, rfl⟩)
    · rcases (Shape.takesInOrder_trailing optionalString_recognizes).mp more
        with ⟨task, _, b, ⟨⟩, -, -⟩ | ⟨-, done⟩
      obtain ⟨-, rfl⟩ := Shape.takesInOrder_nil.mp done
      exact .inr (.inr ⟨rfl, rfl⟩)
  · rintro (⟨thread, task, a, b, rfl, sixth, seventh, rfl⟩
      | ⟨thread, a, rfl, sixth, rfl⟩ | ⟨rfl, rfl⟩)
    · refine (Shape.takesInOrder_trailing optionalUnsigned_recognizes).mpr
        (.inl ⟨_, _, _, rfl, sixth, ?_⟩)
      exact (Shape.takesInOrder_trailing optionalString_recognizes).mpr
        (.inl ⟨_, _, _, rfl, seventh, .done _⟩)
    · refine (Shape.takesInOrder_trailing optionalUnsigned_recognizes).mpr
        (.inl ⟨_, _, _, rfl, sixth, ?_⟩)
      exact .left rfl (.done _)
    · exact .left rfl (.left rfl (.done _))

/-- The entries of a list make a draft of a span if they are the span's. -/
theorem takesInOrder_iff_fromList {vs : List (List Char)} {s : Span} :
    (∃ last, ofDraft last = .ok s
        ∧ Shape.TakesInOrder shape.fields {} vs last) ↔ FromList vs s := by
  simp only [takesInOrder_front, takesInOrder_back]
  constructor
  · rintro ⟨last, made, id, parent, kind, start, duration, rest, a, b, c, d, e,
      rfl, first, second, third, fourth, fifth, back⟩
    refine ⟨id, parent, kind, start, duration, rest, rfl, ?_⟩
    rcases back with ⟨thread, task, f, g, rfl, sixth, seventh, rfl⟩
      | ⟨thread, f, rfl, sixth, rfl⟩ | ⟨rfl, rfl⟩
    · obtain rfl := Except.ok.inj made
      exact ⟨first, second, third, fourth, fifth,
        .inl ⟨thread, task, rfl, sixth, seventh⟩⟩
    · obtain rfl := Except.ok.inj made
      exact ⟨first, second, third, fourth, fifth,
        .inr (.inl ⟨thread, rfl, sixth, rfl⟩)⟩
    · obtain rfl := Except.ok.inj made
      exact ⟨first, second, third, fourth, fifth, .inr (.inr ⟨rfl, rfl, rfl⟩)⟩
  · rintro ⟨id, parent, kind, start, duration, rest, rfl, first, second, third,
      fourth, fifth, back⟩
    obtain ⟨a, b, c, d, e, f, g⟩ := s
    -- what the draft holds depends on where the list ends
    rcases back with ⟨thread, task, rfl, sixth, seventh⟩
      | ⟨thread, rfl, sixth, same⟩ | ⟨rfl, same, same'⟩
    · exact ⟨_, rfl, id, parent, kind, start, duration, _, a, b, c, d, e, rfl,
        first, second, third, fourth, fifth,
        .inl ⟨thread, task, f, g, rfl, sixth, seventh, rfl⟩⟩
    · obtain rfl : g = none := same
      exact ⟨_, rfl, id, parent, kind, start, duration, _, a, b, c, d, e, rfl,
        first, second, third, fourth, fifth,
        .inr (.inl ⟨thread, f, rfl, sixth, rfl⟩)⟩
    · obtain rfl : f = none := same
      obtain rfl : g = none := same'
      exact ⟨_, rfl, id, parent, kind, start, duration, _, a, b, c, d, e, rfl,
        first, second, third, fourth, fifth, .inr (.inr ⟨rfl, rfl⟩)⟩

/-- A span is read from its texts and from no others. -/
theorem read_recognizes : Recognizes read spelling :=
  Shape.read_recognizes steadfast takes_iff_fromObject takesInOrder_iff_fromList

end Span

-- =============================================================== records

namespace SpanRecord

/-- And so is every field of a record, where a span or a list of spans is a
value too. -/
theorem steadfast : shape.Steadfast := by
  intro f mem st
  simp only [shape, List.mem_cons, List.not_mem_nil, or_false] at mem
  rcases mem with rfl | rfl | rfl | rfl <;> dsimp only
  · exact (Span.Draft.store_recognizes readString_recognizes _).means
  · exact (Span.Draft.store_recognizes optionalString_recognizes _).means
  · exact (Span.Draft.store_recognizes Span.read_recognizes _).means
  · exact (Span.Draft.store_recognizes
      (readList_recognizes Span.read_recognizes) _).means

/-- A field fills its own slot and leaves the others alone. -/
theorem keeps {f : Json.Field Draft} (mem : f ∈ shape.fields) {st next : Draft}
    {v : List Char} (means : Means (f.read st) v next) :
    (f.name ≠ "project_path" → next.project = st.project)
    ∧ (f.name ≠ "variant" → next.variant = st.variant)
    ∧ (f.name ≠ "span" → next.span = st.span)
    ∧ (f.name ≠ "children" → next.children = st.children) := by
  simp only [shape, List.mem_cons, List.not_mem_nil, or_false] at mem
  rcases mem with rfl | rfl | rfl | rfl <;>
    dsimp only at means <;> obtain ⟨a, rfl⟩ := Span.Draft.stored means <;>
    refine ⟨?_, ?_, ?_, ?_⟩ <;> intro other <;>
    first | rfl | exact absurd rfl other

/-- The slots of a record. The variant and the children may be left out. -/
theorem slot_project : shape.Slot (shape.fields.get ⟨0, by decide⟩)
    (·.project) .string :=
  .of_store readString_recognizes (fun st b => { st with project := some b })
    rfl (fun _ => rfl) (fun _ => rfl) (fun _ _ => rfl)
    fun mem other _ _ _ means => (keeps mem means).1 other

theorem slot_variant : shape.Slot (shape.fields.get ⟨1, by decide⟩)
    (·.variant) (.optional .string) :=
  .of_store optionalString_recognizes
    (fun st b => { st with variant := some b })
    rfl (fun _ => rfl) (fun _ => rfl) (fun _ _ => rfl)
    fun mem other _ _ _ means => (keeps mem means).2.1 other

theorem slot_span : shape.Slot (shape.fields.get ⟨2, by decide⟩) (·.span)
    Span.spelling :=
  .of_store Span.read_recognizes (fun st b => { st with span := some b })
    rfl (fun _ => rfl) (fun _ => rfl) (fun _ _ => rfl)
    fun mem other _ _ _ means => (keeps mem means).2.2.1 other

theorem slot_children : shape.Slot (shape.fields.get ⟨3, by decide⟩)
    (·.children) (.list Span.spelling) :=
  .of_store (readList_recognizes Span.read_recognizes)
    (fun st b => { st with children := some b })
    rfl (fun _ => rfl) (fun _ => rfl) (fun _ _ => rfl)
    fun mem other _ _ _ means => (keeps mem means).2.2.2 other

/-- Together they tell everything that the draft of a record holds. -/
theorem slotted : shape.Slotted := by
  intro f mem
  simp only [shape, List.mem_cons, List.not_mem_nil, or_false] at mem
  rcases mem with rfl | rfl | rfl | rfl
  · exact ⟨_, _, _, slot_project⟩
  · exact ⟨_, _, _, slot_variant⟩
  · exact ⟨_, _, _, slot_span⟩
  · exact ⟨_, _, _, slot_children⟩

/-- What a draft has to hold to make a record. -/
theorem ofDraft_ok_iff {d : Draft} {r : SpanRecord} :
    ofDraft d = .ok r
      ↔ d.project = some r.project ∧ d.variant.getD none = r.variant
        ∧ d.span = some r.span ∧ d.children.getD [] = r.children := by
  obtain ⟨project, variant, span, children⟩ := d
  obtain ⟨project', variant', span', children'⟩ := r
  have join {α : Type} (x : Option (Option α)) : x.join = x.getD none := by
    cases x <;> rfl
  cases project <;> cases span <;> simp [ofDraft, join]

/-- The members of an object make a draft of a record if they are the
record's. -/
theorem takes_iff_fromObject {es : List (String × List Char)}
    {r : SpanRecord} :
    (∃ last, ofDraft last = .ok r ∧ shape.Takes {} es last)
      ↔ FromObject es r := by
  constructor
  · rintro ⟨last, made, takes⟩
    obtain ⟨project, variant, span, children⟩ := ofDraft_ok_iff.mp made
    exact ⟨takes.fielded slotted,
      (takes.given_iff slotted slot_project rfl).mpr project,
      (takes.defaulted_iff slotted slot_variant rfl).mpr variant,
      (takes.given_iff slotted slot_span rfl).mpr span,
      (takes.defaulted_iff slotted slot_children rfl).mpr children⟩
  · intro h
    obtain ⟨last, takes⟩ : ∃ last, shape.Takes {} es last := by
      refine Shape.exists_takes slotted h.fields fun f mem => ?_
      simp only [shape, List.mem_cons, List.not_mem_nil, or_false] at mem
      rcases mem with rfl | rfl | rfl | rfl
      · exact slot_project.ready h.fields h.project rfl
      · exact slot_variant.ready_default h.fields h.variant rfl
      · exact slot_span.ready h.fields h.span rfl
      · exact slot_children.ready_default h.fields h.children rfl
    exact ⟨last, ofDraft_ok_iff.mpr
      ⟨(takes.given_iff slotted slot_project rfl).mp h.project,
        (takes.defaulted_iff slotted slot_variant rfl).mp h.variant,
        (takes.given_iff slotted slot_span rfl).mp h.span,
        (takes.defaulted_iff slotted slot_children rfl).mp h.children⟩, takes⟩

/-- The entries of a list make a draft of a record if they are the
record's. -/
theorem takesInOrder_iff_fromList {vs : List (List Char)} {r : SpanRecord} :
    (∃ last, ofDraft last = .ok r
        ∧ Shape.TakesInOrder shape.fields {} vs last) ↔ FromList vs r := by
  have list := readList_recognizes Span.read_recognizes
  constructor
  · rintro ⟨last, made, takes⟩
    obtain ⟨project, _, a, rfl, first, takes⟩ :=
      (Shape.takesInOrder_required readString_recognizes).mp takes
    rcases (Shape.takesInOrder_trailing optionalString_recognizes).mp takes
      with ⟨variant, _, b, rfl, second, more⟩ | ⟨rfl, more⟩
    · obtain ⟨span, _, c, rfl, third, more⟩ :=
        (Shape.takesInOrder_required Span.read_recognizes).mp more
      refine ⟨project, variant, span, _, rfl, ?_⟩
      rcases (Shape.takesInOrder_trailing list).mp more
        with ⟨children, _, d, rfl, fourth, done⟩ | ⟨rfl, done⟩
      · obtain ⟨rfl, rfl⟩ := Shape.takesInOrder_nil.mp done
        obtain rfl := Except.ok.inj made
        exact ⟨first, second, third, .inl ⟨children, rfl, fourth⟩⟩
      · obtain ⟨-, rfl⟩ := Shape.takesInOrder_nil.mp done
        obtain rfl := Except.ok.inj made
        exact ⟨first, second, third, .inr ⟨rfl, rfl⟩⟩
    · -- a list that ends before the variant lacks the span
      obtain ⟨span, _, c, ⟨⟩, -, -⟩ :=
        (Shape.takesInOrder_required Span.read_recognizes).mp more
  · rintro ⟨project, variant, span, rest, rfl, first, second, third, back⟩
    obtain ⟨a, b, c, d⟩ := r
    have front {last : Draft} (takes : Shape.TakesInOrder (shape.fields.drop 3)
        { project := some a, variant := some b, span := some c } rest last) :
        Shape.TakesInOrder shape.fields {}
          (project :: variant :: span :: rest) last := by
      refine (Shape.takesInOrder_required readString_recognizes).mpr
        ⟨_, _, _, rfl, first, ?_⟩
      refine (Shape.takesInOrder_trailing optionalString_recognizes).mpr
        (.inl ⟨_, _, _, rfl, second, ?_⟩)
      exact (Shape.takesInOrder_required Span.read_recognizes).mpr
        ⟨_, _, _, rfl, third, takes⟩
    rcases back with ⟨children, rfl, fourth⟩ | ⟨rfl, same⟩
    · exact ⟨⟨some a, some b, some c, some d⟩, rfl,
        front ((Shape.takesInOrder_trailing list).mpr
          (.inl ⟨_, _, _, rfl, fourth, .done _⟩))⟩
    · obtain rfl : d = [] := same
      exact ⟨⟨some a, some b, some c, none⟩, rfl,
        front (.left rfl (.done _))⟩

/-- A record is read from its texts and from no others. -/
theorem read_recognizes : Recognizes read spelling :=
  Shape.read_recognizes steadfast takes_iff_fromObject takesInOrder_iff_fromList

/-- A text is read as a record if it spells that record, and only then:
members in any order, at both levels, those that may be left out there or
not, others among them that hold anything well formed, lists in place of
objects, any blanks, and any spelling of a string. -/
theorem ofText_iff_spelled (t : List Char) (r : SpanRecord) :
    ofText t = .ok r ↔ Spelled t r :=
  read_recognizes.readAll_iff

/-- A list of lists, and a character spelled by its two halves. -/
example : (ofText ("[\"\\ud83d\\ude00\", null,"
      ++ " [null, 7, \"task_execution\", -5, 0]]").toList).toOption
    = some { project := "😀", span :=
        { parent := some 7, kind := .task, startMs := -5, durationMs := 0 } } :=
  by
  decide +kernel

end SpanRecord

end TaskLedger
