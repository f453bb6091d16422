/-
What an environment has to hold for settings to come of it.

The rules are said of texts (`SpellsFlag`, `SpellsCount`) and of variables
(`Holds`, `Absent`) without a word about reading. A variable holds a text
if its bytes are the text's, and if there is more in the text than blanks;
any other variable is absent, whatever its bytes are. Each reader accepts
exactly the texts of its rule, so the settings that an environment denotes
(`Denoted`) are those it is read as, and there are none exactly if one of
the two variables with a rule breaks it.
-/
import TaskLedger.Config.Environment
import TaskLedger.Proofs.Text.Blank
import TaskLedger.Proofs.Text.Utf8

namespace TaskLedger

-- ================================================================ numbers

namespace Word

/-- Digits, with a plus before them or not, that make a certain number. -/
def Spells (n : UInt64) (s : List Char) : Prop :=
  ∃ plus digits, s = plus ++ digits ∧ (plus = [] ∨ plus = ['+'])
    ∧ digits ≠ [] ∧ (∀ c ∈ digits, c.isDigit = true)
    ∧ Nat.ofDigitChars 10 digits 0 = n.toNat

/-- A word is what its digits count, if there are digits only and few enough of
them for a word. -/
theorem ofDigits?_iff {ds : List Char} {n : UInt64} :
    ofDigits? ds = some n
      ↔ ds ≠ [] ∧ (∀ c ∈ ds, c.isDigit = true)
        ∧ Nat.ofDigitChars 10 ds 0 = n.toNat := by
  unfold ofDigits?
  by_cases digits : ds.isEmpty || !ds.all Char.isDigit
  · rw [if_pos digits]
    constructor
    · intro h
      cases h
    · rintro ⟨some_, all, -⟩
      rw [List.all_eq_true.mpr all, Bool.not_true, Bool.or_false,
        List.isEmpty_iff] at digits
      exact absurd digits some_
  · rw [if_neg digits]
    simp only [Bool.or_eq_true, not_or, List.isEmpty_iff, Bool.not_eq_true',
      Bool.not_eq_false, List.all_eq_true] at digits
    have bound := n.toNat_lt_size
    dsimp only
    constructor
    · intro h
      obtain ⟨small, h⟩ := Option.ite_none_right_eq_some.mp h
      obtain rfl := Option.some.inj h
      exact ⟨digits.1, digits.2, (UInt64.toNat_ofNat_of_lt' small).symm⟩
    · rintro ⟨-, -, value⟩
      rw [value, if_pos bound, UInt64.ofNat_toNat]

/-- So a word is read off what spells it: with a plus or without one. -/
theorem read?_iff {s : List Char} {n : UInt64} :
    read? s = some n ↔ Spells n s := by
  constructor
  · intro h
    unfold read? at h
    split at h
    · next ds => exact ⟨['+'], ds, rfl, .inr rfl, ofDigits?_iff.mp h⟩
    · exact ⟨[], s, rfl, .inl rfl, ofDigits?_iff.mp h⟩
  · rintro ⟨plus, ds, rfl, rfl | rfl, digits⟩
    · unfold read?
      split
      · next rest e =>
        -- a plus is no digit
        have mem : '+' ∈ ds := by
          rw [← List.nil_append ds, e]
          exact List.mem_cons_self
        have plus := digits.2.1 '+' mem
        cases plus
      · exact ofDigits?_iff.mpr digits
    · exact ofDigits?_iff.mpr digits

end Word

namespace Config

-- ============================================================== variables

/-- The bytes of a variable are those of a text, and there is more in the
text than blanks. -/
def Holds (env : Environment) (name s : String) : Prop :=
  env.lookup name = some (Text.Utf8.ofString s)
    ∧ ∃ c ∈ s.toList, Text.isBlank c = false

/-- A variable that holds no text: it is not set, its bytes are no text, or
the text is blank. -/
def Absent (env : Environment) (name : String) : Prop :=
  ∀ s, ¬ Holds env name s

variable {env : Environment} {name s : String}

/-- A text is held under a name if the bytes that are set there spell it, and
something in it is no blank. -/
theorem textIn?_eq_some_iff : textIn? env name = some s ↔ Holds env name s := by
  unfold textIn? Holds
  rw [Option.bind_eq_some_iff]
  have more : (!Text.allBlank s.toList) = true
      ↔ ∃ c ∈ s.toList, Text.isBlank c = false := by
    simp [Text.allBlank]
  constructor
  · rintro ⟨bytes, set, h⟩
    rw [Option.filter_eq_some_iff, Text.Utf8.string?_eq_some_iff] at h
    rw [h.1]
    exact ⟨set, more.mp h.2⟩
  · rintro ⟨set, solid⟩
    refine ⟨_, set, Option.filter_eq_some_iff.mpr ⟨?_, more.mpr solid⟩⟩
    exact Text.Utf8.string?_eq_some_iff.mpr rfl

/-- None is held where nothing is set, or bytes that are no text, or blanks
alone. -/
theorem textIn?_eq_none_iff : textIn? env name = none ↔ Absent env name := by
  unfold Absent
  rw [Option.eq_none_iff_forall_ne_some]
  exact forall_congr' fun s => not_congr textIn?_eq_some_iff

/-- A variable is taken as its text says, or is absent and something holds
by default. -/
def Taken (env : Environment) (name : String) (rule : String → Prop)
    (default : Prop) : Prop :=
  (∃ s, Holds env name s ∧ rule s) ∨ Absent env name ∧ default

/-- Where a text is held, it is for the rule to say what is taken. -/
theorem taken_of_some {rule : String → Prop} {default : Prop}
    (h : textIn? env name = some s) :
    Taken env name rule default ↔ rule s := by
  have holds := textIn?_eq_some_iff.mp h
  constructor
  · rintro (⟨s', holds', said⟩ | ⟨absent, -⟩)
    · rw [textIn?_eq_some_iff.mpr holds'] at h
      obtain rfl := Option.some.inj h
      exact said
    · exact absurd holds (absent s)
  · exact fun said => .inl ⟨s, holds, said⟩

/-- Where none is held, the default is taken. -/
theorem taken_of_none {rule : String → Prop} {default : Prop}
    (h : textIn? env name = none) :
    Taken env name rule default ↔ default := by
  have absent := textIn?_eq_none_iff.mp h
  constructor
  · rintro (⟨s, holds, -⟩ | ⟨-, byDefault⟩)
    · exact absurd holds (absent s)
    · exact byDefault
  · exact fun byDefault => .inr ⟨absent, byDefault⟩

-- ================================================================== flags

/-- The words for a yes or a no. -/
def wordsFor : Bool → List String
  | true => yesWords
  | false => noWords

/-- A text that says yes or no: one of the words, in letters of whatever
size, with blanks around it or not. -/
def SpellsFlag (b : Bool) (s : String) : Prop :=
  ∃ word, Text.Around word s.toList
    ∧ String.ofList (lowercase word) ∈ wordsFor b

/-- A letter is no blank, so a blank stays as it is. -/
theorem toLower_blank {c : Char} (blank : Text.isBlank c = true) :
    c.toLower = c := by
  unfold Char.toLower
  rw [dif_neg]
  rintro ⟨low, high⟩
  have low : 65 ≤ c.toNat := UInt32.le_iff_toNat_le.mp low
  have high : c.toNat ≤ 90 := UInt32.le_iff_toNat_le.mp high
  unfold Text.isBlank at blank
  simp only [Bool.or_eq_true, Bool.and_eq_true, decide_eq_true_eq,
    beq_iff_eq] at blank
  omega

/-- No flag has a blank in it, so trimming one leaves nothing to trim. -/
theorem solid_of_flag {b : Bool} {word : List Char}
    (h : String.ofList (lowercase word) ∈ wordsFor b) : Text.Solid word := by
  have table : ∀ b, ∀ w ∈ wordsFor b,
      w.toList.any Text.isBlank = false := by decide
  intro c mem
  have small := List.any_eq_false.mp (table b _ h) c.toLower (by
    rw [String.toList_ofList]
    exact List.mem_map_of_mem mem)
  cases blank : Text.isBlank c with
  | false => rfl
  | true =>
      rw [toLower_blank blank] at small
      exact absurd blank small

/-- A text spells a flag if it is one of the words for it, with blanks around
and in letters of any case. -/
theorem spellsFlag_iff {b : Bool} :
    SpellsFlag b s
      ↔ String.ofList (lowercase (Text.trim s.toList)) ∈ wordsFor b := by
  constructor
  · rintro ⟨word, around, h⟩
    rw [Text.trim_around around (solid_of_flag h)]
    exact h
  · exact fun h => ⟨_, Text.around_trim s.toList, h⟩

/-- What is told of a flag that is none: the variable, and what its word
was taken for. -/
def badFlag (name s : String) : Error :=
  .config (name ++ " must be a boolean, got "
    ++ Text.quote (String.ofList (lowercase (Text.trim s.toList))))

-- ================================================================ readers

/-- A reader that accepts exactly the texts of a rule, and has an error for
each of the others. -/
structure Judges {α : Type} (read : String → Except Error α)
    (spells : α → String → Prop) (bad : String → Error) : Prop where
  accepts : ∀ {a : α} {s : String}, spells a s → read s = .ok a
  rejects : ∀ {s : String}, (∀ a, ¬ spells a s) → read s = .error (bad s)

/-- The reader of flags accepts what spells one and names the variable in its
complaint about anything else. -/
theorem readFlag_judges (name : String) :
    Judges (readFlag name) SpellsFlag (badFlag name) where
  accepts := by
    intro b s spelt
    rw [spellsFlag_iff] at spelt
    unfold readFlag
    dsimp only
    generalize String.ofList (lowercase (Text.trim s.toList)) = word at spelt
    cases b with
    | true => exact if_pos (List.contains_iff_mem.mpr spelt)
    | false =>
        have other : ∀ w ∈ noWords, ¬ yesWords.contains w = true := by decide
        rw [if_neg (other word spelt)]
        exact if_pos (List.contains_iff_mem.mpr spelt)
  rejects := by
    intro s none_
    simp only [spellsFlag_iff] at none_
    unfold readFlag badFlag
    dsimp only
    generalize String.ofList (lowercase (Text.trim s.toList)) = word at none_
    have yes : ¬ yesWords.contains word = true :=
      fun h => none_ true (List.contains_iff_mem.mp h)
    have no : ¬ noWords.contains word = true :=
      fun h => none_ false (List.contains_iff_mem.mp h)
    rw [if_neg yes, if_neg no]
    rfl

/-- A text that says how many threads: a number that is not zero, with
blanks around it or not. -/
def SpellsCount (n : UInt64) (s : String) : Prop :=
  ∃ word, Text.Around word s.toList ∧ Word.Spells n word ∧ n ≠ 0

/-- Nor has a number a blank in it. -/
theorem solid_of_count {n : UInt64} {word : List Char}
    (h : Word.Spells n word) : Text.Solid word := by
  have small {c : Char} (low : 43 ≤ c.toNat) (high : c.toNat ≤ 57) :
      Text.isBlank c = false := by
    unfold Text.isBlank
    simp only [Bool.or_eq_false_iff, Bool.and_eq_false_iff,
      decide_eq_false_iff_not, beq_eq_false_iff_ne]
    omega
  obtain ⟨plus, digits, rfl, sign, -, all, -⟩ := h
  intro c mem
  rcases List.mem_append.mp mem with front | back
  · rcases sign with rfl | rfl
    · cases front
    · obtain rfl := List.mem_singleton.mp front
      exact small (by decide) (by decide)
  · have digit := Char.isDigit_iff_toNat.mp (all c back)
    have low : '0'.toNat = 48 := rfl
    have high : '9'.toNat = 57 := rfl
    exact small (by omega) (by omega)

/-- The reader of the number of threads accepts what spells a number but zero.
-/
theorem readThreads_judges :
    Judges readThreads SpellsCount readThreads.bad where
  accepts := by
    rintro n s ⟨word, around, spelt, some_⟩
    unfold readThreads
    rw [Text.trim_around around (solid_of_count spelt),
      Word.read?_iff.mpr spelt]
    exact if_neg some_
  rejects := by
    intro s none_
    unfold readThreads
    split
    · next n h =>
        refine if_pos (Classical.byContradiction fun some_ => ?_)
        exact none_ n ⟨_, Text.around_trim s.toList, Word.read?_iff.mp h, some_⟩
    · rfl

section

variable {α : Type} {read : String → Except Error α}
  {spells : α → String → Prop} {bad : String → Error}

/-- A variable that keeps to a rule, or is absent. -/
def Fits (env : Environment) (name : String) (spells : α → String → Prop) :
    Prop :=
  Taken env name (fun s => ∃ a, spells a s) True

/-- What a reader accepts is told by what spells a value. -/
theorem Judges.read_ok (h : Judges read spells bad) {o : Option α} :
    (read s).map some = .ok o ↔ ∃ a, o = some a ∧ spells a s := by
  constructor
  · intro accepted
    by_cases fits : ∃ a, spells a s
    · obtain ⟨a, spelt⟩ := fits
      rw [h.accepts spelt] at accepted
      exact ⟨a, (Except.ok.inj accepted).symm, spelt⟩
    · rw [h.rejects fun a spelt => fits ⟨a, spelt⟩] at accepted
      cases accepted
  · rintro ⟨a, rfl, spelt⟩
    rw [h.accepts spelt]
    rfl

/-- What it complains about is told by what spells none. -/
theorem Judges.read_error (h : Judges read spells bad) {e : Error} :
    (read s).map some = .error e ↔ (∀ a, ¬ spells a s) ∧ e = bad s := by
  constructor
  · intro refused
    have none_ : ∀ a, ¬ spells a s := by
      intro a spelt
      rw [h.accepts spelt] at refused
      cases refused
    rw [h.rejects none_] at refused
    exact ⟨none_, (Except.error.inj refused).symm⟩
  · rintro ⟨none_, rfl⟩
    rw [h.rejects none_]
    rfl

/-- A variable is accepted if it is not given, or spells a value. -/
theorem Judges.given_ok (h : Judges read spells bad) {o : Option α} :
    given read (textIn? env name) = .ok o
      ↔ Taken env name (fun s => ∃ a, o = some a ∧ spells a s) (o = none) := by
  cases there : textIn? env name with
  | none =>
      rw [taken_of_none there]
      exact ⟨fun e => (Except.ok.inj e).symm, fun e => e ▸ rfl⟩
  | some s =>
      rw [taken_of_some there]
      exact h.read_ok

/-- And it is complained about if it is given and spells none. -/
theorem Judges.given_error (h : Judges read spells bad) {e : Error} :
    given read (textIn? env name) = .error e
      ↔ ∃ s, Holds env name s ∧ (∀ a, ¬ spells a s) ∧ e = bad s := by
  constructor
  · intro refused
    cases there : textIn? env name with
    | none =>
        rw [there] at refused
        cases refused
    | some s =>
        rw [there] at refused
        exact ⟨s, textIn?_eq_some_iff.mp there, h.read_error.mp refused⟩
  · rintro ⟨s, holds, refused⟩
    rw [textIn?_eq_some_iff.mpr holds]
    exact h.read_error.mpr refused

/-- A variable keeps to the rule exactly if it is read. -/
theorem Judges.fits_iff (h : Judges read spells bad) :
    Fits env name spells ↔ ∃ o, given read (textIn? env name) = .ok o := by
  constructor
  · rintro (⟨s, holds, a, spelt⟩ | ⟨absent, -⟩)
    · exact ⟨some a, h.given_ok.mpr (.inl ⟨s, holds, a, rfl, spelt⟩)⟩
    · exact ⟨none, h.given_ok.mpr (.inr ⟨absent, rfl⟩)⟩
  · rintro ⟨o, accepted⟩
    rcases h.given_ok.mp accepted with ⟨s, holds, a, -, spelt⟩ | ⟨absent, -⟩
    · exact .inl ⟨s, holds, a, spelt⟩
    · exact .inr ⟨absent, trivial⟩

end

-- =============================================================== settings

/-- The settings that an environment denotes: what its variables say, and
the defaults for those that are absent. -/
structure Denoted (env : Environment) (c : Config) : Prop where
  usesPool : Taken env poolVariable (SpellsFlag c.usesPool)
    (c.usesPool = true)
  threads : Taken env threadsVariable
    (fun s => ∃ n, c.threads = some n ∧ SpellsCount n s) (c.threads = none)
  output : Taken env outputVariable (fun s => c.output = some s)
    (c.output = none)
  endpoint : Taken env endpointVariable (fun s => c.endpoint = some s)
    (c.endpoint = none)
  logLevel : Taken env logLevelVariable (fun s => c.logLevel = s)
    (c.logLevel = "info")

/-- A text is taken as it is. -/
theorem textIn?_taken {o : Option String} :
    o = textIn? env name
      ↔ Taken env name (fun s => o = some s) (o = none) := by
  cases there : textIn? env name with
  | none => rw [taken_of_none there]
  | some s => rw [taken_of_some there]

/-- A text that is not given is its default. -/
theorem textIn?_taken_default {default : String} :
    s = (textIn? env name).getD default
      ↔ Taken env name (fun s' => s = s') (s = default) := by
  cases there : textIn? env name with
  | none => rw [taken_of_none there]; rfl
  | some s' => rw [taken_of_some there]; rfl

/-- The settings of an environment, once the two variables with a rule are
read. -/
def settingsOf (env : Environment) (usesPool : Option Bool)
    (threads : Option UInt64) : Config where
  usesPool := usesPool.getD true
  threads := threads
  output := textIn? env outputVariable
  endpoint := textIn? env endpointVariable
  logLevel := (textIn? env logLevelVariable).getD "info"

/-- The pool's variable is read before that of the threads, and after both
there is nothing left that could go wrong. -/
theorem ofEnvironment_cases (env : Environment) :
    let pool := given (readFlag poolVariable) (textIn? env poolVariable)
    let count := given readThreads (textIn? env threadsVariable)
    (∃ e, pool = .error e ∧ ofEnvironment env = .error e)
      ∨ (∃ usesPool e, pool = .ok usesPool ∧ count = .error e
          ∧ ofEnvironment env = .error e)
      ∨ ∃ usesPool threads, pool = .ok usesPool ∧ count = .ok threads
          ∧ ofEnvironment env = .ok (settingsOf env usesPool threads) := by
  intro pool count
  have steps : ofEnvironment env = pool.bind fun usesPool =>
      count.bind fun threads => .ok (settingsOf env usesPool threads) := rfl
  rw [steps]
  cases pool with
  | error e => exact .inl ⟨e, rfl, rfl⟩
  | ok usesPool =>
  cases count with
  | error e => exact .inr (.inl ⟨usesPool, e, rfl, rfl, rfl⟩)
  | ok threads => exact .inr (.inr ⟨usesPool, threads, rfl, rfl, rfl⟩)

/-- A value of its own or the default, by what was read or not. -/
theorem taken_getD {α : Type} {spells : α → String → Prop} {a default : α}
    (h : Taken env name (spells a) (a = default)) :
    ∃ o : Option α, a = o.getD default
      ∧ Taken env name (fun s => ∃ a, o = some a ∧ spells a s) (o = none) := by
  rcases h with ⟨s, holds, spelt⟩ | ⟨absent, rfl⟩
  · exact ⟨some a, rfl, .inl ⟨s, holds, a, rfl, spelt⟩⟩
  · exact ⟨none, rfl, .inr ⟨absent, rfl⟩⟩

/-- A value that is not given is its default. -/
theorem taken_of_getD {α : Type} {spells : α → String → Prop} {default : α}
    {o : Option α}
    (h : Taken env name (fun s => ∃ a, o = some a ∧ spells a s) (o = none)) :
    Taken env name (spells (o.getD default)) (o.getD default = default) := by
  rcases h with ⟨s, holds, a, rfl, spelt⟩ | ⟨absent, rfl⟩
  · exact .inl ⟨s, holds, spelt⟩
  · exact .inr ⟨absent, rfl⟩

/-- What an environment is read as is what it denotes. -/
theorem ofEnvironment_ok {c : Config} :
    ofEnvironment env = .ok c ↔ Denoted env c := by
  have flag := readFlag_judges poolVariable
  constructor
  · intro h
    rcases ofEnvironment_cases env with ⟨e, -, he⟩ | ⟨_, e, -, -, he⟩
        | ⟨usesPool, threads, hp, ht, he⟩
    · rw [h] at he
      cases he
    · rw [h] at he
      cases he
    · rw [h] at he
      obtain rfl := Except.ok.inj he
      exact ⟨taken_of_getD (flag.given_ok.mp hp),
        readThreads_judges.given_ok.mp ht, textIn?_taken.mp rfl,
        textIn?_taken.mp rfl, textIn?_taken_default.mp rfl⟩
  · intro h
    obtain ⟨usesPool, e, pool⟩ := taken_getD h.usesPool
    have hp := flag.given_ok.mpr pool
    have ht := readThreads_judges.given_ok.mpr h.threads
    have read : ofEnvironment env
        = .ok (settingsOf env usesPool c.threads) := by
      show Except.bind _ _ = _
      rw [hp, ht]
      rfl
    rw [read]
    unfold settingsOf
    rw [← e, ← textIn?_taken.mpr h.output, ← textIn?_taken.mpr h.endpoint,
      ← textIn?_taken_default.mpr h.logLevel]

/-- The first of the two variables that breaks its rule is told of. -/
theorem ofEnvironment_error {e : Error} (h : ofEnvironment env = .error e) :
    (¬ Fits env poolVariable SpellsFlag
        ∧ ∃ s, Holds env poolVariable s ∧ e = badFlag poolVariable s)
      ∨ Fits env poolVariable SpellsFlag
        ∧ ∃ s, Holds env threadsVariable s ∧ e = readThreads.bad s := by
  have flag := readFlag_judges poolVariable
  rcases ofEnvironment_cases env with ⟨e', hp, he⟩ | ⟨usesPool, e', hp, ht, he⟩
      | ⟨_, _, -, -, he⟩
  · rw [h] at he
    obtain rfl := Except.error.inj he
    obtain ⟨s, holds, -, told⟩ := flag.given_error.mp hp
    refine .inl ⟨fun fits => ?_, s, holds, told⟩
    obtain ⟨o, accepted⟩ := flag.fits_iff.mp fits
    rw [hp] at accepted
    cases accepted
  · rw [h] at he
    obtain rfl := Except.error.inj he
    obtain ⟨s, holds, -, told⟩ := readThreads_judges.given_error.mp ht
    exact .inr ⟨flag.fits_iff.mpr ⟨usesPool, hp⟩, s, holds, told⟩
  · rw [h] at he
    cases he

/-- Settings come of an environment exactly if the variable of the pool is
absent or says yes or no, and that of the threads is absent or says a number
of them. They are what the environment denotes. Otherwise the error tells of
the pool's variable if that one breaks its rule, and else of the threads'. -/
theorem environment_accepted_exactly (env : Environment) :
    ((∃ c, ofEnvironment env = .ok c)
      ↔ Fits env poolVariable SpellsFlag
        ∧ Fits env threadsVariable SpellsCount)
    ∧ (∀ c, ofEnvironment env = .ok c ↔ Denoted env c)
    ∧ ∀ e, ofEnvironment env = .error e →
        (¬ Fits env poolVariable SpellsFlag →
          ∃ s, Holds env poolVariable s ∧ e = badFlag poolVariable s)
        ∧ (Fits env poolVariable SpellsFlag →
          ∃ s, Holds env threadsVariable s ∧ e = readThreads.bad s) := by
  have flag := readFlag_judges poolVariable
  refine ⟨?_, fun c => ofEnvironment_ok, ?_⟩
  · rw [flag.fits_iff, readThreads_judges.fits_iff]
    constructor
    · rintro ⟨c, h⟩
      rcases ofEnvironment_cases env with ⟨e, -, he⟩ | ⟨_, e, -, -, he⟩
          | ⟨usesPool, threads, hp, ht, -⟩
      · rw [h] at he
        cases he
      · rw [h] at he
        cases he
      · exact ⟨⟨usesPool, hp⟩, threads, ht⟩
    · rintro ⟨⟨usesPool, hp⟩, threads, ht⟩
      refine ⟨settingsOf env usesPool threads, ?_⟩
      show Except.bind _ _ = _
      rw [hp, ht]
      rfl
  · intro e h
    rcases ofEnvironment_error h with ⟨broken, told⟩ | ⟨fits, told⟩
    · exact ⟨fun _ => told, fun fits => absurd fits broken⟩
    · exact ⟨fun broken => absurd fits broken, fun _ => told⟩

/-- Blanks around a number, a plus and zeros in front: seven threads. -/
example : ofEnvironment
    [(threadsVariable, Text.Utf8.ofString "\u00a0+007\t")]
      = .ok { threads := some 7 } := by
  cbv

end Config

end TaskLedger
