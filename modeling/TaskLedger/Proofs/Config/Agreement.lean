/-
The same settings from the environment and from a text.

A choice of settings (`Choice`) gives some of the five a value and leaves
out the others. An environment sets it if its variables spell the values and
nothing else is set (`Sets`); a text assigns it, in whatever order, if its
members are those of the choice. What both come to are the settings of the
choice: its values, and the defaults where it has none. On the environment's
side that is what the variables denote; on the text's side it holds in every
order because the members are put into different fields.
-/
import Mathlib.Data.List.Nodup
import TaskLedger.Config.File
import TaskLedger.Proofs.Config.Variables
import TaskLedger.Proofs.Toml.Reading

namespace TaskLedger.Config

-- ============================================================== settings

/-- One of the settings, with a value. -/
inductive Setting
  | usesPool (b : Bool)
  | threads (n : UInt64)
  | output (s : String)
  | endpoint (s : String)
  | logLevel (s : String)
  deriving DecidableEq, Repr

namespace Setting

/-- The member that a text assigns. -/
def member : Setting → String × Toml.Node
  | usesPool b => ("use_worker_pool", .bool b)
  | threads n => ("worker_threads", .integer n.toNat)
  | output s => ("span_output", .string s)
  | endpoint s => ("otel_endpoint", .string s)
  | logLevel s => ("log_level", .string s)

/-- Settings with this one put in. -/
def put (c : Config) : Setting → Config
  | usesPool b => { c with usesPool := b }
  | threads n => { c with threads := some n }
  | output s => { c with output := some s }
  | endpoint s => { c with endpoint := some s }
  | logLevel s => { c with logLevel := s }

end Setting

/-- Some of the settings, with their values. -/
structure Choice where
  usesPool : Option Bool := none
  threads : Option UInt64 := none
  output : Option String := none
  endpoint : Option String := none
  logLevel : Option String := none
  deriving DecidableEq, Repr

namespace Choice

/-- What a choice gives, one by one. -/
def listed (ch : Choice) : List Setting :=
  ch.usesPool.toList.map .usesPool ++ ch.threads.toList.map .threads
    ++ ch.output.toList.map .output ++ ch.endpoint.toList.map .endpoint
    ++ ch.logLevel.toList.map .logLevel

/-- The settings of a choice: its values, and the defaults where it has
none. -/
def settings (ch : Choice) : Config where
  usesPool := ch.usesPool.getD true
  threads := ch.threads
  output := ch.output
  endpoint := ch.endpoint
  logLevel := ch.logLevel.getD "info"

end Choice

-- =========================================================== environment

/-- A variable holds a text that spells a value, or is not set where there
is none. -/
def SetTo {α : Type} (env : Environment) (name : String)
    (spells : α → String → Prop) : Option α → Prop
  | some a => ∃ s, env.lookup name = some (Text.Utf8.ofString s) ∧ spells a s
  | none => env.lookup name = none

/-- A text that says a number, also if it is zero: blanks, an optional plus,
digits, and blanks. -/
def SpellsNumber (n : UInt64) (s : String) : Prop :=
  ∃ word, Text.Around word s.toList ∧ Word.Spells n word

/-- A text that stands for itself. There is more in it than blanks. -/
def Verbatim (t s : String) : Prop :=
  s = t ∧ ∃ c ∈ t.toList, Text.isBlank c = false

/-- The environment sets exactly this choice. -/
structure Sets (env : Environment) (ch : Choice) : Prop where
  usesPool : SetTo env poolVariable SpellsFlag ch.usesPool
  threads : SetTo env threadsVariable SpellsNumber ch.threads
  output : SetTo env outputVariable Verbatim ch.output
  endpoint : SetTo env endpointVariable Verbatim ch.endpoint
  logLevel : SetTo env logLevelVariable Verbatim ch.logLevel

variable {env : Environment} {name s : String} {ch : Choice}

/-- What holds a word is not blank. -/
theorem solid_of_word {word : List Char} (around : Text.Around word s.toList)
    (solid : Text.Solid word) (some_ : word ≠ []) :
    ∃ c ∈ s.toList, Text.isBlank c = false := by
  obtain ⟨before, after, same, -, -⟩ := around
  obtain ⟨c, r, rfl⟩ := List.exists_cons_of_ne_nil some_
  refine ⟨c, ?_, solid c List.mem_cons_self⟩
  rw [same]
  simp

theorem SpellsFlag.solid {b : Bool} (spelt : SpellsFlag b s) :
    ∃ c ∈ s.toList, Text.isBlank c = false := by
  obtain ⟨word, around, spelt⟩ := spelt
  refine solid_of_word around (solid_of_flag spelt) ?_
  rintro rfl
  revert spelt
  cases b <;> decide

theorem SpellsNumber.solid {n : UInt64} (spelt : SpellsNumber n s) :
    ∃ c ∈ s.toList, Text.isBlank c = false := by
  obtain ⟨word, around, spelt⟩ := spelt
  refine solid_of_word around (solid_of_count spelt) ?_
  obtain ⟨plus, digits, rfl, -, some_, -⟩ := spelt
  exact List.append_ne_nil_of_right_ne_nil plus some_

theorem Verbatim.solid {t : String} (spelt : Verbatim t s) :
    ∃ c ∈ s.toList, Text.isBlank c = false := by
  obtain ⟨rfl, solid⟩ := spelt
  exact solid

/-- A text spells one number at most. -/
theorem SpellsNumber.unique {n m : UInt64} (one : SpellsNumber n s)
    (other : SpellsNumber m s) : n = m := by
  obtain ⟨word, around, spelt⟩ := one
  obtain ⟨word', around', spelt'⟩ := other
  have trim := Text.trim_around around (solid_of_count spelt)
  obtain rfl := trim.symm.trans
    (Text.trim_around around' (solid_of_count spelt'))
  exact Option.some.inj
    ((Word.read?_iff.mpr spelt).symm.trans (Word.read?_iff.mpr spelt'))

section

variable {α : Type} {spells : α → String → Prop} {o : Option α}

/-- A variable that is set to a value is taken for it, and one that is not
set is absent. -/
theorem SetTo.taken (set : SetTo env name spells o)
    (solid : ∀ {a s}, spells a s → ∃ c ∈ s.toList, Text.isBlank c = false) :
    Taken env name (fun s => ∃ a, o = some a ∧ spells a s) (o = none) := by
  cases o with
  | some a =>
      obtain ⟨s, set, spelt⟩ := set
      exact .inl ⟨s, ⟨set, solid spelt⟩, a, rfl, spelt⟩
  | none =>
      refine .inr ⟨?_, rfl⟩
      rintro s ⟨set', -⟩
      cases Eq.trans (Eq.symm set) set'

/-- A variable that is taken by one rule is taken by a weaker one. -/
theorem Taken.imp {rule rule' : String → Prop} {default default' : Prop}
    (taken : Taken env name rule default) (h : ∀ s, rule s → rule' s)
    (h' : default → default') : Taken env name rule' default' := by
  rcases taken with ⟨s, holds, said⟩ | ⟨absent, byDefault⟩
  · exact .inl ⟨s, holds, h s said⟩
  · exact .inr ⟨absent, h' byDefault⟩

end

/-- Such an environment denotes the settings of the choice, unless it is one
of no threads. -/
theorem Sets.denoted (sets : Sets env ch) (some_ : ch.threads ≠ some 0) :
    Denoted env ch.settings where
  usesPool := taken_of_getD (sets.usesPool.taken SpellsFlag.solid)
  threads := by
    refine (sets.threads.taken SpellsNumber.solid).imp ?_ id
    rintro s ⟨n, given, word, around, spelt⟩
    refine ⟨n, given, word, around, spelt, ?_⟩
    rintro rfl
    exact some_ given
  output := by
    refine (sets.output.taken Verbatim.solid).imp ?_ id
    rintro s ⟨t, given, rfl, -⟩
    exact given
  endpoint := by
    refine (sets.endpoint.taken Verbatim.solid).imp ?_ id
    rintro s ⟨t, given, rfl, -⟩
    exact given
  logLevel := by
    refine (taken_of_getD (sets.logLevel.taken Verbatim.solid)).imp ?_ id
    rintro s ⟨same, -⟩
    exact same.symm

/-- No threads are refused. -/
theorem Sets.no_threads (sets : Sets env ch) (none_ : ch.threads = some 0) :
    ∃ s, Holds env threadsVariable s
      ∧ ofEnvironment env = .error (readThreads.bad s) := by
  have set := sets.threads
  rw [none_] at set
  obtain ⟨s, set, spelt⟩ := set
  have holds : Holds env threadsVariable s := ⟨set, spelt.solid⟩
  have flag := readFlag_judges poolVariable
  have pool := flag.given_ok.mpr (sets.usesPool.taken SpellsFlag.solid)
  have count : given readThreads (textIn? env threadsVariable)
      = .error (readThreads.bad s) := by
    refine readThreads_judges.given_error.mpr ⟨s, holds, ?_, rfl⟩
    rintro n ⟨word, around, said, some_⟩
    exact some_ (SpellsNumber.unique ⟨word, around, said⟩ spelt)
  refine ⟨s, holds, ?_⟩
  show Except.bind _ _ = _
  rw [pool]
  show Except.bind _ _ = _
  rw [count]
  rfl

-- ================================================================== text

/-- A member that spells a setting is taken as this setting. -/
theorem takeMember_member (c : Config) (st : Setting) :
    takeMember c st.member = .ok (st.put c) := by
  cases st with
  | threads n =>
      have count : countOf (.integer n.toNat) = .ok n := by
        unfold countOf
        dsimp only
        rw [if_pos (Int.natCast_nonneg _), Int.toNat_natCast,
          UInt64.ofNat_toNat]
      have here : takeMember c (Setting.threads n).member
          = (countOf (.integer n.toNat)).map
            fun n => { c with threads := some n } := rfl
      rw [here, count]
      rfl
  | usesPool | output | endpoint | logLevel => rfl

/-- Members that spell settings are taken in their order. -/
theorem takeMembers_members (sts : List Setting) (c : Config) :
    takeMembers (sts.map Setting.member) c = .ok (sts.foldl Setting.put c) := by
  induction sts generalizing c with
  | nil => rfl
  | cons st sts ih =>
      rw [List.map_cons, takeMembers, takeMember_member]
      exact ih (st.put c)

/-- Members of different names go into different fields. -/
theorem Setting.put_comm {st st' : Setting}
    (other : st.member.1 ≠ st'.member.1) (c : Config) :
    st'.put (st.put c) = st.put (st'.put c) := by
  cases st <;> cases st' <;> first | rfl | exact absurd rfl other

/-- Each setting is given at most once. -/
theorem Setting.names_sublist {α : Type} (give : α → Setting) {name : String}
    (named : ∀ a, (give a).member.1 = name) (o : Option α) :
    ((o.toList.map give).map fun st => st.member.1).Sublist [name] := by
  cases o with
  | none => exact List.nil_sublist [name]
  | some a =>
      rw [Option.toList_some, List.map_singleton, List.map_singleton, named a]

/-- No setting is given twice. -/
theorem Choice.distinct (ch : Choice) :
    (ch.listed.map fun st => st.member.1).Nodup := by
  have names : (ch.listed.map fun st => st.member.1).Sublist memberNames := by
    have one := Setting.names_sublist .usesPool (fun _ => rfl) ch.usesPool
    have two := Setting.names_sublist .threads (fun _ => rfl) ch.threads
    have three := Setting.names_sublist .output (fun _ => rfl) ch.output
    have four := Setting.names_sublist .endpoint (fun _ => rfl) ch.endpoint
    have five := Setting.names_sublist .logLevel (fun _ => rfl) ch.logLevel
    unfold listed
    simp only [List.map_append]
    exact (((one.append two).append three).append four).append five
  exact names.nodup (by decide)

/-- The settings of a choice are put one by one. -/
theorem Choice.foldl_listed (ch : Choice) :
    ch.listed.foldl Setting.put {} = ch.settings := by
  obtain ⟨usesPool, threads, output, endpoint, logLevel⟩ := ch
  cases usesPool <;> cases threads <;> cases output <;> cases endpoint
    <;> cases logLevel <;> rfl

/-- The order in which a choice is assigned makes no difference. -/
theorem Choice.foldl_perm {sts : List Setting} (order : sts.Perm ch.listed) :
    sts.foldl Setting.put {} = ch.settings := by
  rw [← ch.foldl_listed]
  have distinct := (order.map fun st => st.member.1).nodup_iff.mpr ch.distinct
  refine order.foldl_eq' (fun st mem st' mem' c => ?_) _
  by_cases same : st = st'
  · rw [same]
  · refine Setting.put_comm (fun names => same ?_) c
    exact List.inj_on_of_nodup_map distinct mem mem' names

/-- The settings of a text that assigns a choice, in any order. -/
theorem ofText_members {sts : List Setting} {text : List Char}
    (order : sts.Perm ch.listed)
    (assigned : Toml.read text = .ok (sts.map Setting.member)) :
    ofText text
      = if ch.threads = some 0 then .error noThreads else .ok ch.settings := by
  unfold ofText
  rw [assigned]
  dsimp only
  rw [takeMembers_members, Choice.foldl_perm order]
  rfl

-- ============================================================= agreement

/-- An environment and a text that give the same choice of settings come to
the same. A choice of no threads is refused by both; of any other both make
the same settings, those of the choice with the defaults for the rest. The
text may assign the settings in any order, and it may be any text that is
read as those members, as every flat text that spells them is. -/
theorem environment_agrees_with_text {env : Environment} {ch : Choice}
    {sts : List Setting} (sets : Sets env ch) (order : sts.Perm ch.listed) :
    (∀ text, Toml.Document text (sts.map Setting.member) →
        Toml.read text = .ok (sts.map Setting.member))
    ∧ ∀ text, Toml.read text = .ok (sts.map Setting.member) →
        (ch.threads = some 0 →
          (∃ s, Holds env threadsVariable s
            ∧ ofEnvironment env = .error (readThreads.bad s))
          ∧ ofText text = .error noThreads)
        ∧ (ch.threads ≠ some 0 →
          ofEnvironment env = .ok ch.settings
          ∧ ofText text = .ok ch.settings) := by
  constructor
  -- a text that spells them is read as them, since their names are distinct
  · intro text spelt
    refine Toml.read_document spelt ?_
    rw [List.map_map]
    exact (order.map _).nodup_iff.mpr ch.distinct
  · intro text assigned
    have fromText := ofText_members order assigned
    constructor
    -- each side refuses a choice of no threads in its own way
    · intro none_
      rw [if_pos none_] at fromText
      exact ⟨sets.no_threads none_, fromText⟩
    · intro some_
      rw [if_neg some_] at fromText
      exact ⟨ofEnvironment_ok.mpr (sets.denoted some_), fromText⟩

/-- Three of the settings: blanks, a plus and capitals in the variables, and
a text in another order, with a comment. -/
theorem environment_agrees_with_text_three_settings :
    Sets [(poolVariable, Text.Utf8.ofString " NO\t"),
        (threadsVariable, Text.Utf8.ofString "+007"),
        (logLevelVariable, Text.Utf8.ofString " debug")]
      { usesPool := some false, threads := some 7, logLevel := some " debug" }
    ∧ ofEnvironment [(poolVariable, Text.Utf8.ofString " NO\t"),
        (threadsVariable, Text.Utf8.ofString "+007"),
        (logLevelVariable, Text.Utf8.ofString " debug")]
      = .ok { usesPool := false, threads := some 7, logLevel := " debug" }
    ∧ ofText ("log_level = ' debug'\n\nworker_threads=7\r\n"
        ++ "\x22use_worker_pool\x22 = false # none").toList
      = .ok { usesPool := false, threads := some 7, logLevel := " debug" } := by
  have sets : Sets [(poolVariable, Text.Utf8.ofString " NO\t"),
      (threadsVariable, Text.Utf8.ofString "+007"),
      (logLevelVariable, Text.Utf8.ofString " debug")]
      { usesPool := some false, threads := some 7,
        logLevel := some " debug" } := by
    refine ⟨⟨" NO\t", rfl, ['N', 'O'], ?_, ?_⟩,
      ⟨"+007", rfl, ['+', '0', '0', '7'], ?_, ?_⟩, rfl, rfl,
      ⟨" debug", rfl, rfl, ?_⟩⟩
    · exact ⟨[' '], ['\t'], by decide⟩
    · decide
    · exact ⟨[], [], by decide⟩
    · exact ⟨['+'], ['0', '0', '7'], rfl, .inr rfl, by decide,
        List.all_eq_true.mp rfl, rfl⟩
    · exact ⟨'d', by decide⟩
  have agree := @environment_agrees_with_text _ _
    [.logLevel " debug", .threads 7, .usesPool false] sets (by decide)
  exact ⟨sets, (agree.2 _ (by rfl)).2 (by decide)⟩

end TaskLedger.Config
