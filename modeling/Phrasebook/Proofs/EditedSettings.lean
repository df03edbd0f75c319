/-
**Flags come to the same as edits of the settings.**

A run with flags about settings, and a run without them whose file of settings has the flags written
into it, work with the same settings as long as paths mean the same in that file as on the command
line (`Path.ReadsAlikeIn`). They do if the file is named without a directory. From then on the runs
can differ only where they read the file once more, as the entity catalog or as a template file. A
text of settings is neither (`Settings.noTable`), so both runs fail then, and each words the fault
that it finds in its own text.

`flags_edit_settings` says so of whole runs, and `runs_tell_flags_from_edits` that neither limit can
be left out: a directory in front of a path shows in reports and can make the path too long
(`exitCodes_of_long_path`), and a report on the file of settings quotes it.
-/

import Phrasebook.Proofs.Flags
import Phrasebook.Proofs.RoundTrip
import Phrasebook.Proofs.Twins

namespace Phrasebook

open FileTree Json

/-! ### A text of settings is no table -/

theorem read_eq_ok_of_readText {α : Type} {format : Format α} {text : String} {value : α}
    (read : format.readText text = .ok value) :
    format.read (Draft.ofText text).1 = .ok value := by
  rw [Format.readText] at read
  generalize Draft.ofText text = drafted at read ⊢
  obtain ⟨draft, complete⟩ := drafted
  obtain ⟨found, fine, same⟩ := bind_eq_ok_iff.mp read
  rw [fine]
  cases complete with
  | false => cases same
  | true => exact same

theorem readText_eq_error {α : Type} {format : Format α} {text : String} {fault : Fault}
    (fails : format.read (Draft.ofText text).1 = .error fault) :
    format.readText text = .error fault :=
  bind_eq_error_iff.mpr (.inl fails)

/-- No dictionary has a member that its values cannot be read from. -/
theorem exists_fault_of_mem {α : Type} {format : Format α} {key : String} {draft : Draft}
    (refused : ∃ fault, format.read draft = .error fault) {members : List (Option String × Draft)}
    (member : (some key, draft) ∈ members) (dictionary : Dictionary String α) :
    ∃ fault, Format.readEntries format dictionary members = .error fault := by
  induction members generalizing dictionary with
  | nil => cases member
  | cons head members ih =>
    obtain ⟨name, value⟩ := head
    cases name with
    | none => exact ⟨_, rfl⟩
    | some name =>
      rw [Format.readEntries]
      rcases List.mem_cons.mp member with same | later
      · cases same
        obtain ⟨fault, fails⟩ := refused
        exact ⟨fault, by rw [fails]; rfl⟩
      · cases format.read value with
        | error fault => exact ⟨fault, rfl⟩
        | ok entry => exact ih later _

namespace Settings

/-- A field that says where the templates are is read from a string. -/
theorem string_of_read {field : Field Settings Fields} (among : field ∈ record.fields)
    {draft : Draft} {collected next : Fields} (read : field.read draft collected = .ok next) :
    next.templateDirectory = collected.templateDirectory ∨
      ∃ text, draft = .string (some text) := by
  simp only [record, List.mem_cons, List.not_mem_nil, or_false] at among
  rcases among with rfl | rfl | rfl | rfl | rfl
  · right
    cases draft with
    | string text =>
      cases text with
      | some text => exact ⟨text, rfl⟩
      | none => cases read
    | _ => cases read
  all_goals
    left
    obtain ⟨value, _, rfl⟩ := map_eq_ok_iff.mp read
    rfl

/-- Members that say where the templates are have a string among them. -/
theorem exists_string_of_readMembers {members : List (Option String × Draft)}
    {collected last : Fields}
    (read : RecordFormat.readMembers record.fields collected members = .ok last)
    (before : collected.templateDirectory = none) (after : last.templateDirectory ≠ none) :
    ∃ key text, (some key, .string (some text)) ∈ members := by
  induction members generalizing collected with
  | nil =>
    cases read
    exact absurd before after
  | cons member members ih =>
    obtain ⟨name, draft⟩ := member
    have later {next : Fields}
        (read : RecordFormat.readMembers record.fields next members = .ok last)
        (before : next.templateDirectory = none) :
        ∃ key text, (some key, .string (some text)) ∈ (name, draft) :: members := by
      obtain ⟨key, text, among⟩ := ih read before
      exact ⟨key, text, List.mem_cons_of_mem _ among⟩
    cases name with
    | none => cases read
    | some key =>
      rcases (RecordFormat.readMembers_cons_eq_ok_iff (by decide)).mp read with
        ⟨_, _, rest⟩ | ⟨field, among, _, _, next, first, rest⟩
      · exact later rest before
      · rcases string_of_read among first with same | ⟨text, rfl⟩
        · exact later rest (same.trans before)
        · exact ⟨key, text, List.mem_cons_self⟩

/-- A dictionary of things that are no strings is not read from a draft of settings. -/
theorem exists_fault_of_read {α : Type} {value : Format α}
    (refused : ∀ text, ∃ fault, value.read (.string (some text)) = .error fault) {draft : Draft}
    {settings : Settings} (read : format.read draft = .ok settings) :
    ∃ fault, (Format.dictionary value).read draft = .error fault := by
  cases draft with
  | object members closed =>
    obtain ⟨last, fine, finished⟩ := bind_eq_ok_iff.mp read
    have set : last.templateDirectory ≠ none := by
      intro unset
      split at finished
      · cases finished
      · simp [RecordFormat.missing?, record, Field.of, unset] at finished
    obtain ⟨key, text, member⟩ := exists_string_of_readMembers fine rfl set
    obtain ⟨fault, fails⟩ := exists_fault_of_mem (refused text) member .empty
    exact ⟨fault, by rw [Format.dictionary]; simp only [fails]; rfl⟩
  | _ => exact ⟨_, rfl⟩

/-- **A text of settings is no table.** -/
theorem noTable {text : String} {settings : Settings}
    (read : format.readText text = .ok settings) : NoTable text := by
  have drafted := read_eq_ok_of_readText read
  constructor
  · have refused (text : String) :
        ∃ fault, Entity.format.read (.string (some text)) = .error fault := ⟨_, rfl⟩
    obtain ⟨fault, fails⟩ := exists_fault_of_read refused drafted
    exact ⟨fault, readText_eq_error fails⟩
  · have refused (text : String) :
        ∃ fault, (Format.list .string).read (.string (some text)) = .error fault := ⟨_, rfl⟩
    obtain ⟨fault, fails⟩ := exists_fault_of_read refused drafted
    exact ⟨fault, readText_eq_error fails⟩

end Settings

/-! ### Paths in the settings and on the command line -/

/-- The path means the same in a file of settings as it does on the command line. -/
def Path.ReadsAlikeIn (config path : Path) : Prop :=
  ∀ directory, config.parent? = some directory → directory.join path = path

/-- Every path reads alike in a file that is named without a directory. -/
theorem Path.readsAlikeIn_of_not_mem {config : Path} (bare : '/' ∉ config.text.toList)
    (path : Path) : config.ReadsAlikeIn path := by
  intro directory parent
  have single : config.parts = [config.text.toList] := Text.splitOn_of_not_mem bare
  rw [parent?, single] at parent
  cases name : config.text.toList with
  | nil =>
    rw [name] at parent
    cases parent
  | cons head rest =>
    rw [name] at parent
    cases parent
    simp [join]

/-- An absolute path reads alike everywhere. -/
theorem Path.readsAlikeIn_of_isAbsolute (config : Path) {path : Path}
    (absolute : path.isAbsolute = true) : config.ReadsAlikeIn path :=
  fun directory _ => by rw [join, if_pos absolute]

/-- The settings as they are seen from where the command line stands. -/
def Settings.seenFrom (settings : Settings) (config : Path) : Settings :=
  (config.parent?.map settings.rebase).getD settings

theorem Settings.load_eq {tree : FileTree} {config : Path} {text : String} {settings : Settings}
    (read : tree.readText config = .ok text) (fine : format.readText text = .ok settings) :
    load tree config = .ok (settings.seenFrom config) := by
  simp only [load, read, fine]
  rfl

namespace CommandLine

theorem override_seenFrom {given : Arguments} {config : Path}
    (alike : ∀ path, given.utterances = some path ∨ given.entities = some path →
      config.ReadsAlikeIn path) (settings : Settings) :
    given.override (settings.seenFrom config) = (given.override settings).seenFrom config := by
  unfold Settings.seenFrom
  cases above : config.parent? with
  | none => rfl
  | some directory =>
    have templates : given.utterances.getD (directory.join settings.templateDirectory) =
        directory.join (given.utterances.getD settings.templateDirectory) := by
      cases named : given.utterances with
      | none => rfl
      | some path => exact (alike path (.inl named) directory above).symm
    have entities : given.entities.or (settings.entityFile.map directory.join) =
        (given.entities.or settings.entityFile).map directory.join := by
      cases named : given.entities with
      | none => rfl
      | some path =>
        exact congrArg some (alike path (.inr named) directory above).symm
    show ({ settings with
      templateDirectory := given.utterances.getD (directory.join settings.templateDirectory)
      entityFile := given.entities.or (settings.entityFile.map directory.join)
      intents := settings.intents ++ given.intents
      genericIntents := settings.genericIntents ++ given.genericIntents } : Settings) = _
    rw [templates, entities]
    rfl

theorem override_withoutSettings (given : Arguments) (settings : Settings) :
    given.withoutSettings.override settings = settings := by
  simp [Arguments.override, Arguments.withoutSettings]

/-! ### Runs -/

/-- The run of a command line of flags. -/
def runOf (flags : List Flag) (environment : Option String) (tree : FileTree) : Outcome :=
  perform (parse (flags.flatMap Flag.words) environment) tree

/-- What two runs report on standard error: the same, or that the file at the place is malformed, be
it as an entity catalog or as a template file. -/
inductive SameReport (place : Location) (tree : FileTree) : String → String → Prop where
  | same (report : String) : SameReport place tree report report
  | catalog {path : Path} (mine theirs : Fault) : tree.locate path = .ok place →
      SameReport place tree (errorLine (.malformedSettings path mine))
        (errorLine (.malformedSettings path theirs))
  | templates {path : Path} (mine theirs : Fault) : tree.locate path = .ok place →
      SameReport place tree (errorLine (.malformedTemplates path mine))
        (errorLine (.malformedTemplates path theirs))

/-- Two runs come to the same, but for the bytes of the file at the place and what is found in
them. -/
structure SameRun (place : Location) (tree : FileTree) (own other : ByteArray)
    (first second : Outcome) : Prop where
  exitCode : first.exitCode = second.exitCode
  stdout : first.stdout = second.stdout
  stderr : SameReport place tree first.stderr second.stderr
  trees : Twins place own other first.tree second.tree

variable {given : Arguments} {config : Path} {tree : FileTree} {place : Location}
  {text edited : String} {settings : Settings}

theorem settings_eq (named : given.config = some config)
    (located : tree.locate config = .ok place)
    (found : tree.find? place = some (.file text.toUTF8))
    (read : Settings.format.readText text = .ok settings) :
    given.settings tree = .ok (given.override (settings.seenFrom config)) := by
  simp only [Arguments.settings, named]
  rw [Settings.load_eq (readText_eq_ok located found) read]
  rfl

/-- A build with options about settings and one with edited settings. -/
theorem build_withoutSettings (named : given.config = some config)
    (alike : ∀ path, given.utterances = some path ∨ given.entities = some path →
      config.ReadsAlikeIn path)
    (located : tree.locate config = .ok place)
    (found : tree.find? place = some (.file text.toUTF8))
    (read : Settings.format.readText text = .ok settings)
    (readEdited : Settings.format.readText edited = .ok (given.override settings)) :
    SameReading place tree (given.build tree).1
        (given.withoutSettings.build (tree.place place (.file edited.toUTF8))).1 ∧
      Twins place text.toUTF8 edited.toUTF8 (given.build tree).2
        (given.withoutSettings.build (tree.place place (.file edited.toUTF8))).2 := by
  have twins : Twins place text.toUTF8 edited.toUTF8 tree _ := .edited found
  have mine := Settings.noTable read
  have theirs := Settings.noTable readEdited
  have settled := settings_eq named located found read
  rw [override_seenFrom alike] at settled
  have settledEdited : given.withoutSettings.settings _ = _ := settings_eq named
    ((twins.alike.locate_eq config).trans located) (by rw [find?_edited found, if_pos rfl])
    readEdited
  rw [override_withoutSettings] at settledEdited
  simp only [Arguments.build, settled, settledEdited]
  generalize (given.override settings).seenFrom config = effective
  have loaded : SameReading place tree (Arguments.loadEntities effective tree)
      (Arguments.loadEntities effective (tree.place place (.file edited.toUTF8))) := by
    rw [Arguments.loadEntities, Arguments.loadEntities]
    cases effective.entityFile with
    | none => exact .same _
    | some path => exact loadEntityTable_edited found mine theirs path
  generalize Arguments.loadEntities effective tree = one at loaded
  generalize Arguments.loadEntities effective (tree.place place _) = two at loaded
  cases loaded with
  | catalog mine theirs located => exact ⟨.catalog _ _ located, twins⟩
  | templates mine theirs located => exact ⟨.templates _ _ located, twins⟩
  | same =>
    cases one with
    | error error => exact ⟨.same _, twins⟩
    | ok entities =>
      exact Project.build_edited (List.forall_mem_singleton.mpr (Generator.keepsTwins_json _)) _
        found mine theirs

/-- **Flags come to the same as edits of the settings.** The first run is given all flags, the second
one only those that are not about settings, while the text of its file of settings reads as the
settings with the other flags written into them, one after the other. Then the runs exit alike, print
the same, and leave trees that are equal but for the file of settings, which is in both as before or
was written anew with the same bytes. The reports of a failure are the same too, unless they are
about the file of settings itself, where it is used as a catalog or a template file. -/
theorem flags_edit_settings {flags : List Flag} {environment : Option String}
    (parsed : parse (flags.flatMap Flag.words) environment = .run given)
    (named : given.config = some config)
    (alike : ∀ path, given.utterances = some path ∨ given.entities = some path →
      config.ReadsAlikeIn path)
    (located : tree.locate config = .ok place)
    (found : tree.find? place = some (.file text.toUTF8))
    (read : Settings.format.readText text = .ok settings)
    (readEdited : Settings.format.readText edited = .ok (flags.foldl Flag.edit settings)) :
    SameRun place tree text.toUTF8 edited.toUTF8 (runOf flags environment tree)
      (runOf (flags.filter fun flag => !flag.isSetting) environment
        (tree.place place (.file edited.toUTF8))) := by
  rw [← override_of_parse parsed] at readEdited
  obtain ⟨reading, trees⟩ := build_withoutSettings named alike located found read readEdited
  rw [runOf, runOf, parsed, parse_filter parsed]
  simp only [perform]
  generalize given.build tree = one at reading trees
  generalize given.withoutSettings.build _ = two at reading trees
  obtain ⟨result, first⟩ := one
  obtain ⟨other, second⟩ := two
  cases reading with
  | catalog mine theirs located => exact ⟨rfl, rfl, .catalog _ _ located, trees⟩
  | templates mine theirs located => exact ⟨rfl, rfl, .templates _ _ located, trees⟩
  | same =>
    cases result with
    | ok summaries => exact ⟨rfl, rfl, .same _, trees⟩
    | error error => exact ⟨rfl, rfl, .same _, trees⟩

/-- Flags of all kinds in no order. -/
theorem mixed_flags_edit_settings :
    let flags : List Flag := [.valued .genericIntent "stop" true, .valued .intent "B" false,
      .valued .config "c.json" false, .valued .utterances "t" true, .pretty,
      .valued .genericIntent "yes" false, .valued .entities "e.json" true,
      .valued .intent "A" true, .valued .buildDirectory "out" false]
    let settings : Settings := ⟨⟨"u"⟩, "f.json", none, ["C"], [.help]⟩
    let text := Settings.format.text settings
    let edited := Settings.format.text
      ⟨⟨"t"⟩, "f.json", some ⟨"e.json"⟩, ["C", "B", "A"], [.help, .stop, .yes]⟩
    let tree : FileTree := ⟨.ofList [(["c.json"], .file text.toUTF8),
      (["e.json"], .file "\x7b\x7d".toUTF8), (["t"], .directory), (["t", "en"], .directory),
      (["t", "en", "f.json"], .file "\x7b\x7d".toUTF8)], []⟩
    (runOf flags none tree).exitCode = 0 ∧
      SameRun ["c.json"] tree text.toUTF8 edited.toUTF8 (runOf flags none tree)
        (runOf [.valued .config "c.json" false, .pretty, .valued .buildDirectory "out" false] none
          (tree.place ["c.json"] (.file edited.toUTF8))) := by
  intro flags settings text edited tree
  have parsed : parse (flags.flatMap Flag.words) none = .run
      ⟨some ⟨"c.json"⟩, some ⟨"out"⟩, some ⟨"t"⟩, some ⟨"e.json"⟩, ["B", "A"], [.stop, .yes],
        true⟩ := by decide +kernel
  have bare : '/' ∉ "c.json".toList := by decide
  refine ⟨by decide +kernel, flags_edit_settings parsed rfl
    (fun path _ => Path.readsAlikeIn_of_not_mem bare path) (by decide +kernel) (by decide +kernel)
    (restores_settings.readText_text settings) (restores_settings.readText_text _)⟩

/-! ### Where flags are no edits -/

/-- A path of a dot and slashes behind it, which leads nowhere else. -/
def dotSlashes (slashes : Nat) : Path := ⟨String.ofList ('.' :: List.replicate slashes '/')⟩

theorem steps_dotSlashes (slashes : Nat) :
    (dotSlashes slashes).steps = .stay :: List.replicate slashes .skip := by
  have split : Text.splitOn '/' (List.replicate slashes '/') = [] :: List.replicate slashes [] := by
    induction slashes with
    | zero => rfl
    | succ slashes ih => rw [List.replicate_succ, Text.splitOn, if_pos rfl, ih, List.replicate_succ]
  rw [dotSlashes, Path.steps, Path.parts, String.toList_ofList, Text.splitOn, if_neg (by decide),
    split]
  simp [Path.stepOf, Path.Step.of]

theorem utf8ByteSize_dotSlashes (slashes : Nat) :
    (dotSlashes slashes).text.utf8ByteSize = slashes + 1 := by
  have counted : (String.ofList (List.replicate slashes '/')).utf8ByteSize = slashes := by
    induction slashes with
    | zero => rfl
    | succ slashes ih =>
      rw [List.replicate_succ, String.ofList_cons, String.utf8ByteSize_append, ih, Nat.add_comm]
      rfl
  rw [dotSlashes, String.ofList_cons, String.utf8ByteSize_append, counted, Nat.add_comm]
  rfl

theorem locate_dotSlashes (tree : FileTree) {slashes : Nat} (short : slashes < Path.longestPath) :
    tree.locate (dotSlashes slashes) = .ok tree.workingDirectory := by
  have sound : pathFault? (dotSlashes slashes) = none := by
    rw [pathFault?, utf8ByteSize_dotSlashes]
    simp [dotSlashes]
    omega
  refine locate_eq_ok_iff.mpr (resolve_eq_ok_iff.mpr ⟨sound, ?_⟩)
  rw [steps_dotSlashes, walkLinks_stay,
    walkLinks_slashes fun step member => (List.mem_replicate.mp member).2]
  simp [start, Path.isAbsolute, dotSlashes]

theorem locate_join_dotSlashes (tree : FileTree) {slashes : Nat}
    (long : Path.longestPath < slashes + 3) :
    tree.locate (Path.join ⟨"."⟩ (dotSlashes slashes)) = .error .nameTooLong := by
  have joined : Path.join ⟨"."⟩ (dotSlashes slashes) = ⟨"./" ++ (dotSlashes slashes).text⟩ := by
    simp [Path.join, Path.isAbsolute, dotSlashes, ← String.append_assoc]
  have size : ("./" ++ (dotSlashes slashes).text).utf8ByteSize = slashes + 3 := by
    rw [String.utf8ByteSize_append, utf8ByteSize_dotSlashes, Nat.add_comm]
    rfl
  have fault : pathFault? (Path.join ⟨"."⟩ (dotSlashes slashes)) = some .nameTooLong := by
    rw [joined, pathFault?, size, if_pos long]
    simp [dotSlashes]
  rw [locate, resolve_eq, fault]
  rfl

/-- Without an entity catalog a run fails if the templates cannot be scanned, and succeeds if there is
no language. -/
theorem exitCode_of_scan {given : Arguments} {tree : FileTree} {settings : Settings}
    (settled : given.settings tree = .ok settings) (plain : settings.entityFile = none) :
    ((∃ fault, LanguageTable.scan tree settings.templateDirectory = .error fault) →
        (perform (.run given) tree).exitCode = 1) ∧
      (LanguageTable.scan tree settings.templateDirectory = .ok [] →
        (perform (.run given) tree).exitCode = 0) := by
  simp only [perform, Arguments.build, settled, Arguments.loadEntities, plain, Project.build,
    Arguments.project, LanguageTable.load]
  constructor
  · rintro ⟨fault, scanned⟩
    rw [scanned]
    rfl
  · intro scanned
    rw [scanned]
    rfl

/-- The tree with nothing but a file of settings. -/
def settingsOnly (settings : Settings) : FileTree :=
  ⟨.ofList [(["c.json"], .file (Settings.format.text settings).toUTF8)], []⟩

/-- The run of the flags that are not about settings, where the others are written into the file. -/
def editedRun (flags : List Flag) (settings : Settings) : Outcome :=
  runOf (flags.filter fun flag => !flag.isSetting) none
    ((settingsOnly settings).place ["c.json"]
      (.file (Settings.format.text (flags.foldl Flag.edit settings)).toUTF8))

/-- A path that is nearly as long as paths may be is too long behind the directory of the file of
settings. -/
theorem exitCodes_of_long_path {slashes : Nat} (short : slashes < Path.longestPath)
    (long : Path.longestPath < slashes + 3) (settings : Settings)
    (plain : settings.entityFile = none) :
    let flags : List Flag := [.valued .config "./c.json" true,
      .valued .utterances (dotSlashes slashes).text true]
    (runOf flags none (settingsOnly settings)).exitCode = 0 ∧
      (editedRun flags settings).exitCode = 1 := by
  intro flags
  have parsed : parse (flags.flatMap Flag.words) none = .run
      { config := some ⟨"./c.json"⟩, utterances := some (dotSlashes slashes) } := by
    have written : (dotSlashes slashes).text ≠ "" := fun empty => by
      have size := utf8ByteSize_dotSlashes slashes
      rw [empty] at size
      cases size
    refine parse_words_eq_run_iff.mpr ⟨_, ?_, rfl⟩
    simp [flags, Flag.add?, Arguments.set, newPath, written]
  have located : (settingsOnly settings).locate ⟨"./c.json"⟩ = .ok ["c.json"] := rfl
  have found : (settingsOnly settings).find? ["c.json"] =
      some (.file (Settings.format.text settings).toUTF8) := rfl
  have twins : Twins ["c.json"] _
      (Settings.format.text (flags.foldl Flag.edit settings)).toUTF8 _ _ := .edited found
  have seen (settings : Settings) : settings.seenFrom ⟨"./c.json"⟩ = settings.rebase ⟨"."⟩ := by
    have parent : Path.parent? ⟨"./c.json"⟩ = some ⟨"."⟩ := by decide +kernel
    rw [Settings.seenFrom, parent]
    rfl
  rw [runOf, editedRun, runOf, parsed, parse_filter parsed]
  constructor
  · have settled : Arguments.settings
        { config := some ⟨"./c.json"⟩, utterances := some (dotSlashes slashes) } _ = _ :=
      settings_eq rfl located found (restores_settings.readText_text settings)
    refine (exitCode_of_scan settled ?_).2 ?_
    · rw [seen]
      exact congrArg (Option.map _) plain
    · show LanguageTable.scan _ (dotSlashes slashes) = _
      rw [LanguageTable.scan, locate_dotSlashes _ short]
      rfl
  · have settled : Arguments.settings { config := some ⟨"./c.json"⟩ } _ = _ :=
      settings_eq rfl ((twins.alike.locate_eq _).trans located)
        (by rw [find?_edited found, if_pos rfl]) (restores_settings.readText_text _)
    refine (exitCode_of_scan settled ?_).1 ?_
    · rw [seen]
      exact congrArg (Option.map _) plain
    · rw [seen]
      show ∃ fault, LanguageTable.scan _ (Path.join ⟨"."⟩ (dotSlashes slashes)) = .error fault
      rw [LanguageTable.scan, locate_join_dotSlashes _ long]
      exact ⟨_, rfl⟩

/-- **Flags are no edits** where the file of settings is named with its directory, since the paths in
it are read with that directory in front: a path may become too long, and a report shows it. Nor are
they where the file of settings is itself read as the catalog, since the report quotes it. -/
theorem runs_tell_flags_from_edits :
    let settings : Settings := .ofDirectory ⟨"u"⟩
    let long : List Flag := [.valued .config "./c.json" true,
      .valued .utterances (dotSlashes 4094).text true]
    let shown : List Flag := [.valued .config "./c.json" true, .valued .utterances "t" true]
    let quoted : List Flag := [.valued .config "c.json" true, .valued .utterances "t" true,
      .valued .entities "c.json" true]
    (settingsOnly settings).locate ⟨"./c.json"⟩ = .ok ["c.json"] ∧
      (∀ settings, Settings.format.readText (Settings.format.text settings) = .ok settings) ∧
      (runOf long none (settingsOnly settings)).exitCode ≠ (editedRun long settings).exitCode ∧
      (runOf shown none (settingsOnly settings)).stderr ≠ (editedRun shown settings).stderr ∧
      (runOf quoted none (settingsOnly settings)).stderr ≠ (editedRun quoted settings).stderr := by
  intro settings long shown quoted
  obtain ⟨succeeds, fails⟩ : (runOf long none (settingsOnly settings)).exitCode = 0 ∧
      (editedRun long settings).exitCode = 1 :=
    exitCodes_of_long_path (by decide) (by decide) settings rfl
  refine ⟨by decide +kernel, restores_settings.readText_text, ?_, by decide +kernel,
    by decide +kernel⟩
  rw [succeeds, fails]
  decide

end CommandLine

end Phrasebook
