/-
**Flags on the command line.**

A flag is an option as it is given, with its value behind an equals sign or in the next argument. A
command line of flags is read by adding one after the other (`parseFrom_words`), so what it comes to
depends on their order only where options add up.

`Flag.edit` writes a flag into the settings, if it is about them. Settings that the arguments
override are the settings with all flags written into them, one after the other
(`override_of_parse`), and without the flags about settings the rest of the command line is read as
before (`parse_filter`).
-/

import Phrasebook.CommandLine.Run

namespace Phrasebook.CommandLine

/-! ### Flags and their words -/

/-- The name of an option. -/
def ValueOption.name : ValueOption → String
  | .config => "config"
  | .buildDirectory => "build-dir"
  | .utterances => "utterances"
  | .entities => "entities"
  | .intent => "intent"
  | .genericIntent => "generic-intent"

/-- An option as it is given. -/
inductive Flag where
  | pretty
  /-- An option with its value, which is attached by an equals sign or is the next argument. -/
  | valued (option : ValueOption) (value : String) (attached : Bool)
  deriving DecidableEq, Repr

namespace Flag

/-- The arguments that give the flag. -/
def words : Flag → List String
  | .pretty => ["--pretty"]
  | .valued option value true => ["--" ++ option.name ++ "=" ++ value]
  | .valued option value false => ["--" ++ option.name, value]

/-- Whether the flag is about something that the settings say as well. -/
def isSetting : Flag → Bool
  | .pretty => false
  | .valued option _ _ =>
    match option with
    | .config | .buildDirectory => false
    | .utterances | .entities | .intent | .genericIntent => true

/-- The arguments with one more flag, unless it is refused. -/
def add? (arguments : Arguments) : Flag → Option Arguments
  | .pretty => if arguments.pretty then none else some { arguments with pretty := true }
  | .valued option value attached =>
    if attached = true ∨ Token.of value = .plain value then arguments.set option value else none

/-- The settings with the flag written into them. -/
def edit (settings : Settings) : Flag → Settings
  | .pretty => settings
  | .valued option value _ =>
    match option with
    | .config | .buildDirectory => settings
    | .utterances => { settings with templateDirectory := ⟨value⟩ }
    | .entities => { settings with entityFile := some ⟨value⟩ }
    | .intent => { settings with intents := settings.intents ++ [value] }
    | .genericIntent =>
      { settings with
        genericIntents := settings.genericIntents ++ (GenericIntent.ofName? value).toList }

end Flag

/-! ### Reading flags -/

theorem token_attached (option : ValueOption) (value : String) :
    Token.of ("--" ++ option.name ++ "=" ++ value) = .long option.name (some value) := by
  cases option <;> simp [Token.of, ValueOption.name]

theorem token_name (option : ValueOption) :
    Token.of ("--" ++ option.name) = .long option.name none := by
  cases option <;> decide +kernel

theorem eq_of_token_plain {argument text : String} (plain : Token.of argument = .plain text) :
    text = argument := by
  unfold Token.of at plain
  split at plain
  · cases plain
  · split at plain <;> cases plain
  · cases plain
  · cases plain; rfl

variable {arguments given : Arguments} {flags : List Flag}

theorem parseFrom_attached (option : ValueOption) (value : String) (rest : List String) :
    parseFrom arguments (("--" ++ option.name ++ "=" ++ value) :: rest) =
      match arguments.set option value with
      | some next => parseFrom next rest
      | none => .misuse := by
  rw [parseFrom, token_attached]
  cases option <;> rfl

theorem parseFrom_name (option : ValueOption) (value : String) (rest : List String) :
    parseFrom arguments (("--" ++ option.name) :: value :: rest) =
      match Token.of value with
      | .plain value =>
        match arguments.set option value with
        | some next => parseFrom next rest
        | none => .misuse
      | _ => .misuse := by
  rw [parseFrom, token_name]
  cases option <;> rfl

/-- The first flag is read first. -/
theorem parseFrom_flag (flag : Flag) (rest : List String) :
    parseFrom arguments (flag.words ++ rest) =
      match flag.add? arguments with
      | some next => parseFrom next rest
      | none => .misuse := by
  cases flag with
  | pretty =>
    have token : Token.of "--pretty" = .long "pretty" none := by decide +kernel
    show parseFrom arguments ("--pretty" :: rest) = _
    rw [parseFrom, token, Flag.add?]
    cases arguments.pretty <;> rfl
  | valued option value attached =>
    cases attached with
    | true =>
      rw [Flag.words, List.singleton_append, parseFrom_attached, Flag.add?, if_pos (.inl rfl)]
    | false =>
      show parseFrom arguments (("--" ++ option.name) :: value :: rest) = _
      rw [parseFrom_name, Flag.add?]
      cases token : Token.of value with
      | plain text =>
        obtain rfl := eq_of_token_plain token
        simp
      | _ => simp

/-- **Flags are read one after the other.** -/
theorem parseFrom_words (flags : List Flag) (arguments : Arguments) :
    parseFrom arguments (flags.flatMap Flag.words) =
      match flags.foldlM Flag.add? arguments with
      | some given => .run given
      | none => .misuse := by
  induction flags generalizing arguments with
  | nil => rfl
  | cons flag flags ih =>
    rw [List.flatMap_cons, parseFrom_flag, List.foldlM_cons]
    cases flag.add? arguments with
    | none => rfl
    | some next => exact ih next

/-! ### Flags about settings -/

/-- The arguments without those that the settings say as well. -/
def Arguments.withoutSettings (arguments : Arguments) : Arguments :=
  { arguments with utterances := none, entities := none, intents := [], genericIntents := [] }

variable {next : Arguments} {flag : Flag}

/-- What the flag of an option adds, if it is not refused. -/
theorem set_of_add? {option : ValueOption} {value : String} {attached : Bool}
    (added : (Flag.valued option value attached).add? arguments = some next) :
    arguments.set option value = some next := by
  rw [Flag.add?, Option.ite_none_right_eq_some] at added
  exact added.2

theorem newPath_eq_some_iff {old path : Option Path} {value : String} :
    newPath old value = some path ↔ old = none ∧ value ≠ "" ∧ path = some ⟨value⟩ := by
  rw [newPath]
  cases old with
  | some older => simp
  | none =>
    by_cases empty : value = ""
    · simp [empty]
    · simp [empty, @eq_comm _ path]

/-- A flag about settings adds nothing else. -/
theorem withoutSettings_of_add? (isSetting : flag.isSetting = true)
    (added : flag.add? arguments = some next) :
    next.withoutSettings = arguments.withoutSettings := by
  cases flag with
  | pretty => cases isSetting
  | valued option value attached =>
    have set := set_of_add? added
    cases option with
    | config | buildDirectory => cases isSetting
    | utterances | entities | genericIntent =>
      obtain ⟨_, _, rfl⟩ := Option.map_eq_some_iff.mp set
      rfl
    | intent =>
      cases set
      rfl

/-- Another flag is added whether or not there are flags about settings. -/
theorem add?_withoutSettings (other : flag.isSetting = false)
    (added : flag.add? arguments = some next) :
    flag.add? arguments.withoutSettings = some next.withoutSettings := by
  cases flag with
  | pretty =>
    rw [Flag.add?, Option.ite_none_left_eq_some] at added
    obtain ⟨first, same⟩ := added
    cases same
    exact if_neg first
  | valued option value attached =>
    rw [Flag.add?, Option.ite_none_right_eq_some] at added ⊢
    refine ⟨added.1, ?_⟩
    have set := added.2
    cases option with
    | config | buildDirectory =>
      obtain ⟨path, new, rfl⟩ := Option.map_eq_some_iff.mp set
      exact Option.map_eq_some_iff.mpr ⟨path, new, rfl⟩
    | utterances | entities | intent | genericIntent => cases other

/-- To override settings by one more flag is to write the flag into them. -/
theorem override_of_add? (added : flag.add? arguments = some next) (settings : Settings) :
    next.override settings = flag.edit (arguments.override settings) := by
  cases flag with
  | pretty =>
    rw [Flag.add?, Option.ite_none_left_eq_some] at added
    cases added.2
    rfl
  | valued option value attached =>
    have set := set_of_add? added
    cases option with
    | config | buildDirectory =>
      obtain ⟨_, _, rfl⟩ := Option.map_eq_some_iff.mp set
      rfl
    | utterances | entities =>
      obtain ⟨_, new, rfl⟩ := Option.map_eq_some_iff.mp set
      obtain ⟨_, _, rfl⟩ := newPath_eq_some_iff.mp new
      rfl
    | intent =>
      cases set
      simp [Arguments.override, Flag.edit]
    | genericIntent =>
      obtain ⟨intent, known, rfl⟩ := Option.map_eq_some_iff.mp set
      simp [Arguments.override, Flag.edit, known]

theorem foldlM_filter (added : flags.foldlM Flag.add? arguments = some given) :
    (flags.filter fun flag => !flag.isSetting).foldlM Flag.add? arguments.withoutSettings =
      some given.withoutSettings := by
  induction flags generalizing arguments with
  | nil =>
    cases added
    rfl
  | cons flag flags ih =>
    rw [List.foldlM_cons] at added
    obtain ⟨next, first, rest⟩ := Option.bind_eq_some_iff.mp added
    cases kind : flag.isSetting with
    | true =>
      rw [List.filter_cons_of_neg (by simp [kind]), ← withoutSettings_of_add? kind first]
      exact ih rest
    | false =>
      rw [List.filter_cons_of_pos (by simp [kind]), List.foldlM_cons,
        add?_withoutSettings kind first]
      exact ih rest

theorem override_foldlM (added : flags.foldlM Flag.add? arguments = some given)
    (settings : Settings) :
    given.override settings = flags.foldl Flag.edit (arguments.override settings) := by
  induction flags generalizing arguments with
  | nil =>
    cases added
    rfl
  | cons flag flags ih =>
    rw [List.foldlM_cons] at added
    obtain ⟨next, first, rest⟩ := Option.bind_eq_some_iff.mp added
    rw [ih rest, override_of_add? first, List.foldl_cons]

/-! ### Whole command lines -/

theorem override_none (settings : Settings) : ({} : Arguments).override settings = settings := by
  simp [Arguments.override]

/-- The arguments with the file of settings from the environment, if no flag names one. -/
def Arguments.completed? (environment : Option String) (arguments : Arguments) :
    Option Arguments :=
  match environment with
  | none => some arguments
  | some value =>
    if arguments.config.isSome then some arguments
    else (newPath none value).map fun path => { arguments with config := path }

variable {environment : Option String}

theorem parse_words_eq_run_iff : parse (flags.flatMap Flag.words) environment = .run given ↔
    ∃ read, flags.foldlM Flag.add? {} = some read ∧ read.completed? environment = some given := by
  unfold parse
  rw [parseFrom_words]
  cases flags.foldlM Flag.add? {} with
  | none => simp
  | some read =>
    cases environment with
    | none => simp [Arguments.completed?]
    | some value =>
      simp only [Option.some.injEq, exists_eq_left', Arguments.completed?]
      cases read.config with
      | some path => simp
      | none => cases newPath none value <;> simp

theorem completed?_withoutSettings (completed : arguments.completed? environment = some given) :
    arguments.withoutSettings.completed? environment = some given.withoutSettings := by
  cases environment with
  | none =>
    cases completed
    rfl
  | some value =>
    rw [Arguments.completed?] at completed ⊢
    show (if arguments.config.isSome then _ else _) = _
    split at completed
    next named =>
      cases completed
      exact if_pos named
    next unnamed =>
      obtain ⟨path, new, rfl⟩ := Option.map_eq_some_iff.mp completed
      rw [if_neg unnamed]
      exact Option.map_eq_some_iff.mpr ⟨path, new, rfl⟩

theorem override_of_completed? (completed : arguments.completed? environment = some given)
    (settings : Settings) : given.override settings = arguments.override settings := by
  cases environment with
  | none =>
    cases completed
    rfl
  | some value =>
    rw [Arguments.completed?] at completed
    split at completed
    next =>
      cases completed
      rfl
    next =>
      obtain ⟨path, _, rfl⟩ := Option.map_eq_some_iff.mp completed
      rfl

/-- **Overriding the settings is editing them**, flag by flag. -/
theorem override_of_parse (parsed : parse (flags.flatMap Flag.words) environment = .run given)
    (settings : Settings) : given.override settings = flags.foldl Flag.edit settings := by
  obtain ⟨read, added, completed⟩ := parse_words_eq_run_iff.mp parsed
  rw [override_of_completed? completed, override_foldlM added, override_none]

/-- **Without the flags about settings** the rest of the command line is read as before. -/
theorem parse_filter (parsed : parse (flags.flatMap Flag.words) environment = .run given) :
    parse ((flags.filter fun flag => !flag.isSetting).flatMap Flag.words) environment =
      .run given.withoutSettings := by
  obtain ⟨read, added, completed⟩ := parse_words_eq_run_iff.mp parsed
  exact parse_words_eq_run_iff.mpr
    ⟨read.withoutSettings, foldlM_filter added, completed?_withoutSettings completed⟩

end Phrasebook.CommandLine
