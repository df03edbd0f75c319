/-
**What a build leaves behind.**

A build whose generators write manifests or nothing changes a tree in two ways only: it creates the
output directories with what is missing above them, and it writes the manifests of languages that
compile (`TakeTurns.changes`). What happens in one turn stays as it is in later ones, as long as no
other language has its manifest in the same place:

* `build_touches_only_output` says what is there after a build, whatever has failed in it;
* `manifests_are_faithful` reads the manifests back after a build that succeeds and in which one
  generator writes them.
-/

import Phrasebook.CommandLine.Run
import Phrasebook.Proofs.Build
import Phrasebook.Proofs.OutputDirectories
import Phrasebook.Proofs.RoundTrip

namespace Phrasebook

open FileTree Project

/-! ### Generators -/

/-- The generator leaves all files alone. -/
def Generator.IsQuiet (generator : Generator) : Prop :=
  ∀ delivery tree, (generator.run delivery tree).2 = tree

theorem Generator.isQuiet_silent (name : String) (reason? : String → Option String) :
    (silent name reason?).IsQuiet := by
  intro delivery tree
  simp only [silent]
  cases reason? delivery.language <;> rfl

/-- The generator of manifests does not leave all files alone. -/
theorem Generator.not_isQuiet_json (pretty : Bool) : ¬(json pretty).IsQuiet := by
  intro quiet
  have kept : (((json pretty).run ⟨"", ⟨"."⟩, []⟩ ⟨.empty, []⟩).2.find? [manifestFileName]).isSome =
      false := by
    rw [quiet]
    rfl
  revert kept
  cases pretty <;> decide +kernel

/-- The generator writes the manifest, or nothing at all. -/
def Generator.WritesManifestAtMost (generator : Generator) : Prop :=
  (∃ pretty, generator = .json pretty) ∨ generator.IsQuiet

/-- The run of a generator wrote the manifest. -/
def WroteManifest (run : Generator × Except String Unit) : Prop :=
  ∃ pretty, run = (.json pretty, .ok ())

/-- The path of the manifest of a delivery. -/
def Delivery.manifestPath (delivery : Delivery) : Path :=
  delivery.outputDirectory.join ⟨Generator.manifestFileName⟩

/-- The text of the manifest of a delivery. -/
def Delivery.manifestText (delivery : Delivery) (pretty : Bool) : String :=
  Generator.manifestText pretty
    (Manifest.ofConfigurations delivery.language delivery.configurations)

section Runs

variable {delivery : Delivery} {tree next last : FileTree}

theorem run_json_eq (delivery : Delivery) (pretty : Bool) (tree : FileTree) :
    (Generator.json pretty).run delivery tree =
      match tree.writeText delivery.manifestPath (delivery.manifestText pretty) with
      | .ok tree => (.ok (), tree)
      | .error error => (.error error.message, tree) := rfl

theorem writeText_of_run {pretty : Bool}
    (ran : (Generator.json pretty).run delivery tree = (.ok (), next)) :
    tree.writeText delivery.manifestPath (delivery.manifestText pretty) = .ok next := by
  rw [run_json_eq] at ran
  split at ran
  next written =>
    cases ran
    exact written
  next => cases ran

/-- A generator that runs leaves the files alone or writes the manifest. -/
theorem run_cases {generator : Generator} {result : Except String Unit}
    (modest : generator.WritesManifestAtMost) (ran : generator.run delivery tree = (result, next)) :
    next = tree ∨ ∃ pretty, (generator, result) = (.json pretty, .ok ()) ∧
      tree.writeText delivery.manifestPath (delivery.manifestText pretty) = .ok next := by
  rcases modest with ⟨pretty, rfl⟩ | quiet
  · have given := ran
    rw [run_json_eq] at ran
    split at ran
    next =>
      cases ran
      exact .inr ⟨pretty, rfl, writeText_of_run given⟩
    next =>
      cases ran
      exact .inl rfl
  · have left := quiet delivery tree
    rw [ran] at left
    exact .inl left

theorem Project.Runs.append {before after : List (Generator × Except String Unit)}
    (ran : Runs delivery tree (before ++ after) last) :
    ∃ next, Runs delivery tree before next ∧ Runs delivery next after last := by
  induction before generalizing tree with
  | nil => exact ⟨tree, .nil, ran⟩
  | cons run before ih =>
    cases ran with
    | cons here rest =>
      obtain ⟨next, first, second⟩ := ih rest
      exact ⟨next, .cons here first, second⟩

/-- Generators change nothing but the manifest of the delivery. -/
theorem Project.Runs.changes {runs : List (Generator × Except String Unit)}
    {made : Path → Prop} {written : Path → String → Prop}
    (ran : Runs delivery tree runs last) (rooted : tree.Rooted)
    (modest : ∀ run ∈ runs, run.1.WritesManifestAtMost)
    (areWritten : ∀ pretty, (Generator.json pretty, Except.ok ()) ∈ runs →
      written delivery.manifestPath (delivery.manifestText pretty)) :
    Changes made written tree last := by
  induction ran with
  | nil => exact .refl _
  | cons here rest ih =>
    obtain ⟨first, others⟩ := List.forall_mem_cons.mp modest
    have later := fun rooted => ih rooted others fun pretty member =>
      areWritten pretty (List.mem_cons_of_mem _ member)
    rcases run_cases first here with rfl | ⟨pretty, same, written⟩
    · exact later rooted
    · have change : Changes made _ _ _ :=
        changes_writeText rooted written (areWritten pretty (same ▸ List.mem_cons_self))
      exact change.trans (later (change.rooted rooted))

theorem Project.Runs.eq_of_not_wroteManifest {runs : List (Generator × Except String Unit)}
    (ran : Runs delivery tree runs last) (modest : ∀ run ∈ runs, run.1.WritesManifestAtMost)
    (none : ∀ run ∈ runs, ¬WroteManifest run) : last = tree := by
  induction ran with
  | nil => rfl
  | cons here rest ih =>
    obtain ⟨first, others⟩ := List.forall_mem_cons.mp modest
    obtain ⟨notHere, notLater⟩ := List.forall_mem_cons.mp none
    rcases run_cases first here with rfl | ⟨pretty, same, _⟩
    · exact ih others notLater
    · exact absurd ⟨pretty, same⟩ notHere

/-- The manifest that is written last is there when all generators have run. -/
theorem Project.Runs.manifest_written {before after : List (Generator × Except String Unit)}
    {pretty : Bool}
    (ran : Runs delivery tree (before ++ (.json pretty, .ok ()) :: after) last)
    (rooted : tree.Rooted)
    (modest : ∀ run ∈ before ++ (.json pretty, .ok ()) :: after, run.1.WritesManifestAtMost)
    (isLast : ∀ run ∈ after, ¬WroteManifest run) :
    ∃ location, last.locate delivery.manifestPath = .ok location ∧
      last.find? location = some (.file (delivery.manifestText pretty).toUTF8) := by
  obtain ⟨between, first, second⟩ := ran.append
  have start : Changes (fun _ => False) (fun _ _ => True) tree between :=
    first.changes rooted (fun run member => modest run (List.mem_append_left _ member))
      fun _ _ => trivial
  cases second with
  | cons here rest =>
    obtain rfl := rest.eq_of_not_wroteManifest (fun run member =>
      modest run (List.mem_append_right _ (List.mem_cons_of_mem _ member))) isLast
    obtain ⟨location, fits, rfl, located⟩ :=
      writeText_eq_ok (start.rooted rooted) (writeText_of_run here)
    exact ⟨location, located, find?_place_self fits.below _⟩

end Runs

/-! ### Turns -/

/-- The directories that a turn may create. -/
def Turn.Makes (root : Path) (turn : Turn) (path : Path) : Prop :=
  path ∈ (outputDirectory root turn.language).ancestors

/-- The manifests that a turn writes. -/
def Turn.Writes (root : Path) (turn : Turn) (path : Path) (text : String) : Prop :=
  ∃ compilation runs pretty, turn.course = .delivered compilation runs ∧
    (.json pretty, .ok ()) ∈ runs ∧ path = manifestPath root turn.language ∧
    text = Generator.manifestText pretty
      (Manifest.ofConfigurations turn.language compilation.configurations)

namespace Project

variable {project : Project} {root : Path} {tree next last : FileTree} {turn : Turn}
  {turns : List Turn}

theorem modest_runs (modest : ∀ generator ∈ project.generators, generator.WritesManifestAtMost)
    {runs : List (Generator × Except String Unit)}
    (all : runs.map Prod.fst = project.generators) :
    ∀ run ∈ runs, run.1.WritesManifestAtMost :=
  fun _ member => modest _ (all ▸ List.mem_map_of_mem member)

/-- A turn changes nothing but its directory and its manifest. -/
theorem Takes.changes (takes : project.Takes root tree turn next) (rooted : tree.Rooted)
    (modest : ∀ generator ∈ project.generators, generator.WritesManifestAtMost) :
    Changes (turn.Makes root) (turn.Writes root) tree next := by
  cases takes with
  | noDirectory created => exact changes_createAlong rooted created fun _ member => member
  | notCompiled created _ => exact changes_createAlong rooted created fun _ member => member
  | @delivered between _ language templates compilation runs created compiled all ran =>
    have start : Changes (Turn.Makes root ⟨language, templates, .delivered compilation runs⟩)
        (Turn.Writes root ⟨language, templates, .delivered compilation runs⟩) tree between :=
      changes_createAlong rooted created fun _ member => member
    refine start.trans (ran.changes (start.rooted rooted) (modest_runs modest all) ?_)
    exact fun pretty member => ⟨compilation, runs, pretty, rfl, member, rfl, rfl⟩

/-- **A build changes nothing but output directories and manifests.** -/
theorem TakeTurns.changes (taken : project.TakeTurns root tree turns last) (rooted : tree.Rooted)
    (modest : ∀ generator ∈ project.generators, generator.WritesManifestAtMost) :
    Changes (fun path => ∃ turn ∈ turns, turn.Makes root path)
      (fun path text => ∃ turn ∈ turns, turn.Writes root path text) tree last := by
  induction taken with
  | nil => exact .refl _
  | cons takes _ ih =>
    have here := takes.changes rooted modest
    refine (here.imp ?_ ?_).trans ((ih (here.rooted rooted)).imp ?_ ?_)
    · exact fun path makes => ⟨_, List.mem_cons_self, makes⟩
    · exact fun path text writes => ⟨_, List.mem_cons_self, writes⟩
    · exact fun path ⟨turn, member, makes⟩ => ⟨turn, List.mem_cons_of_mem _ member, makes⟩
    · exact fun path text ⟨turn, member, writes⟩ => ⟨turn, List.mem_cons_of_mem _ member, writes⟩

theorem TakeTurns.split {before after : List Turn}
    (taken : project.TakeTurns root tree (before ++ turn :: after) last) :
    ∃ one two, project.TakeTurns root tree before one ∧ project.Takes root one turn two ∧
      project.TakeTurns root two after last := by
  induction before generalizing tree with
  | nil =>
    cases taken with
    | cons here later => exact ⟨_, _, .nil, here, later⟩
  | cons first before ih =>
    cases taken with
    | cons here later =>
      obtain ⟨one, two, earlier, takes, rest⟩ := ih later
      exact ⟨one, two, .cons here earlier, takes, rest⟩

/-- The output directory is there after the turn, unless it could not be created. -/
theorem Takes.isDirectory (takes : project.Takes root tree turn next) (rooted : tree.Rooted)
    (isName : Path.IsName turn.language)
    (modest : ∀ generator ∈ project.generators, generator.WritesManifestAtMost)
    (created : ∀ error, turn.course ≠ .noDirectory error) :
    next.isDirectory (outputDirectory root turn.language) = true := by
  have named := text_outputDirectory_ne_empty root isName
  cases takes with
  | noDirectory => exact absurd rfl (created _)
  | notCompiled made _ => exact isDirectory_of_createAlong rooted made named
  | delivered made _ all ran =>
    have start : Changes (fun _ => True) (fun _ _ => False) tree _ :=
      changes_createAlong rooted made fun _ _ => trivial
    have later : Changes (fun _ => False) (fun _ _ => True) _ next :=
      ran.changes (start.rooted rooted) (modest_runs modest all) fun _ _ => trivial
    exact later.grown.isDirectory (isDirectory_of_createAlong rooted made named)

/-! ### What is there in the end -/

/-- What a turn comes to in the tree that a build leaves. -/
structure Leaves (root : Path) (tree last : FileTree) (turn : Turn) : Prop where
  /-- A language has its directory, unless just that was refused. -/
  directory : (∀ error, turn.course ≠ .noDirectory error) →
    last.isDirectory (outputDirectory root turn.language) = true
  /-- A language that is not compiled keeps the manifest that it has. -/
  kept : (∀ compilation runs, turn.course ≠ .delivered compilation runs) → ∀ content,
    tree.readBytes (manifestPath root turn.language) = .ok content →
      last.readBytes (manifestPath root turn.language) = .ok content
  /-- The manifest that is written last is the one that stays, whatever fails besides. In the list of
  the runs the generators have their own order; only of a single one that writes manifests is it
  known to be the last in every order. -/
  written : ∀ compilation before pretty after,
    turn.course = .delivered compilation (before ++ (.json pretty, .ok ()) :: after) →
      (∀ run ∈ after, ¬WroteManifest run) →
        last.readText (manifestPath root turn.language) = .ok (Generator.manifestText pretty
          (Manifest.ofConfigurations turn.language compilation.configurations))

/-- No other language has its manifest where this one has it. -/
def Alone (root : Path) (last : FileTree) (languages : List String) (language : String) : Prop :=
  ∀ other ∈ languages, ∀ location, last.locate (manifestPath root language) = .ok location →
    last.locate (manifestPath root other) = .ok location → other = language

/-- Of languages that follow each other once, a later one is another. -/
theorem Alone.later {before after : List Turn}
    (alone : Alone root last ((before ++ turn :: after).map Turn.language) turn.language)
    (distinct : ((before ++ turn :: after).map Turn.language).Nodup) :
    ∀ other ∈ after, ∀ location,
      last.locate (manifestPath root turn.language) = .ok location →
        last.locate (manifestPath root other.language) ≠ .ok location := by
  intro other member location here there
  have equal : other.language = turn.language :=
    alone other.language (List.mem_map_of_mem (List.mem_append_right _
      (List.mem_cons_of_mem _ member))) location here there
  have among : other.language ∈ after.map Turn.language := List.mem_map_of_mem member
  rw [List.map_append, List.nodup_append, List.map_cons, List.nodup_cons] at distinct
  rw [equal] at among
  exact distinct.2.1.1 among

theorem alone_of_noLinksBelow (noLinks : last.NoLinksBelow root) {languages : List String}
    (names : ∀ language ∈ languages, Path.IsName language) {language : String}
    (member : language ∈ languages) : Alone root last languages language :=
  fun other among _ here there =>
    manifestPath_injective noLinks (names other among) (names language member) there here

/-- The turns of other languages leave the manifest of a language alone. -/
theorem TakeTurns.keeps (taken : project.TakeTurns root tree turns last) (rooted : tree.Rooted)
    (modest : ∀ generator ∈ project.generators, generator.WritesManifestAtMost)
    {location : Location} {content : ByteArray}
    (file : tree.find? location = some (.file content))
    (apart : ∀ turn ∈ turns, (∃ compilation runs, turn.course = .delivered compilation runs) →
      last.locate (manifestPath root turn.language) ≠ .ok location) :
    last.find? location = some (.file content) := by
  refine (taken.changes rooted modest).keeps file ?_
  rintro path text ⟨turn, member, compilation, runs, pretty, course, _, rfl, _⟩
  exact apart turn member ⟨compilation, runs, course⟩

/-- The manifest written in a turn is there in the end, if no later turn has its own in the same
place. -/
theorem TakeTurns.manifest_written {before after : List Turn}
    (taken : project.TakeTurns root tree (before ++ turn :: after) last) (rooted : tree.Rooted)
    (modest : ∀ generator ∈ project.generators, generator.WritesManifestAtMost)
    (alone : ∀ other ∈ after, ∀ location,
      last.locate (manifestPath root turn.language) = .ok location →
        last.locate (manifestPath root other.language) ≠ .ok location)
    {compilation : Compilation} {earlier later : List (Generator × Except String Unit)}
    {pretty : Bool}
    (course : turn.course = .delivered compilation (earlier ++ (.json pretty, .ok ()) :: later))
    (isLast : ∀ run ∈ later, ¬WroteManifest run) :
    last.readText (manifestPath root turn.language) = .ok (Generator.manifestText pretty
      (Manifest.ofConfigurations turn.language compilation.configurations)) := by
  obtain ⟨one, two, first, takes, rest⟩ := taken.split
  have oneRooted := (first.changes rooted modest).rooted rooted
  have twoRooted := (takes.changes oneRooted modest).rooted oneRooted
  obtain ⟨language, templates, _⟩ := turn
  subst course
  cases takes with
  | @delivered between _ _ _ _ _ created compiled all ran =>
    have made : Changes (fun _ => True) (fun _ _ => False) one between :=
      changes_createAlong oneRooted created fun _ _ => trivial
    obtain ⟨location, located, found⟩ :=
      ran.manifest_written (made.rooted oneRooted) (modest_runs modest all) isLast
    have there := (rest.changes twoRooted modest).grown.locate_eq located
    exact readText_eq_ok there (rest.keeps twoRooted modest found fun other member _ =>
      alone other member location there)

/-- **Whatever has failed in a build**, each turn has left what it should. -/
theorem TakeTurns.leaves (taken : project.TakeTurns root tree turns last) (rooted : tree.Rooted)
    (modest : ∀ generator ∈ project.generators, generator.WritesManifestAtMost)
    (names : ∀ turn ∈ turns, Path.IsName turn.language)
    (distinct : (turns.map Turn.language).Nodup) (noLinks : last.NoLinksBelow root) :
    ∀ turn ∈ turns, Leaves root tree last turn := by
  intro turn member
  have isName := names turn member
  have all : ∀ language ∈ turns.map Turn.language, Path.IsName language :=
    List.forall_mem_map.mpr names
  obtain ⟨before, after, rfl⟩ := List.append_of_mem member
  obtain ⟨one, two, first, takes, rest⟩ := taken.split
  have start := first.changes rooted modest
  have oneRooted := start.rooted rooted
  have here := takes.changes oneRooted modest
  refine ⟨fun created => ?_, fun idle content readable => ?_, fun compilation earlier pretty later
    course isLast => ?_⟩
  · exact (rest.changes (here.rooted oneRooted) modest).grown.isDirectory
      (takes.isDirectory oneRooted isName modest created)
  · obtain ⟨location, located, found⟩ := readBytes_eq_ok_iff.mp readable
    have there := (taken.changes rooted modest).grown.locate_eq located
    refine readBytes_eq_ok_iff.mpr ⟨location, there, taken.keeps rooted modest found ?_⟩
    rintro other among ⟨compilation, runs, course⟩ same
    have equal : other.language = turn.language :=
      manifestPath_injective noLinks (names other among) isName same there
    have unique : other = turn :=
      List.inj_on_of_nodup_map distinct among member equal
    exact idle compilation runs (unique ▸ course)
  · exact taken.manifest_written rooted modest
      ((alone_of_noLinksBelow noLinks all (List.mem_map_of_mem member)).later distinct) course
      isLast

/-! ### Builds -/

variable (project root tree) in
/-- Nothing is done without templates; with them, all languages take their turns. -/
theorem build_turns {table : LanguageTable}
    (loaded : LanguageTable.load tree project.templateDirectory project.templateFile = .ok table) :
    ∃ turns : List Turn, turns.map Turn.entry = table.entries ∧
      turns.map Turn.language = table.keys ∧
      project.TakeTurns root tree turns (project.build root tree).2 ∧
      (project.build root tree).1 = outcomeOf root turns := by
  have started : project.build root tree = project.buildAll root table.entries tree := by
    rw [build, loaded]
  obtain ⟨turns, same, taken, told⟩ := project.buildAll_eq root table.entries tree
  refine ⟨turns, same, ?_, started ▸ taken, started ▸ told⟩
  rw [Dictionary.keys, ← same, List.map_map]
  rfl

/-- A build only adds to the tree. -/
theorem build_grown (root : Path) (rooted : tree.Rooted)
    (modest : ∀ generator ∈ project.generators, generator.WritesManifestAtMost) :
    tree.Extends (project.build root tree).2 := by
  cases loaded : LanguageTable.load tree project.templateDirectory project.templateFile with
  | error error =>
    rw [build, loaded]
    exact .refl tree
  | ok table =>
    obtain ⟨turns, _, _, taken, _⟩ := project.build_turns root tree loaded
    exact (taken.changes rooted modest).grown

/-- A build makes no links. -/
theorem noLinksBelow_build (root : Path) (rooted : tree.Rooted)
    (modest : ∀ generator ∈ project.generators, generator.WritesManifestAtMost)
    (linkless : ∀ location target, tree.find? location ≠ some (.link target)) :
    (project.build root tree).2.NoLinksBelow root :=
  fun _ _ _ _ target found => linkless _ target ((build_grown root rooted modest).of_link found)

/-- Whether the entry is a link. -/
def isLink : Entry → Bool
  | .link _ => true
  | _ => false

theorem not_link_of_all (linkless : tree.entries.entries.all fun entry => !isLink entry.2)
    (location : Location) (target : Target) : tree.find? location ≠ some (.link target) := by
  intro found
  cases location with
  | nil => cases found
  | cons name names =>
    have listed := Dictionary.find?_eq_some_iff.mp found
    have free := List.all_eq_true.mp linkless _ listed
    cases free

/-- A build does nothing without templates. -/
theorem build_of_load_error {error : BuildError}
    (failed : LanguageTable.load tree project.templateDirectory project.templateFile =
      .error error) : (project.build root tree).2 = tree := by
  rw [build, failed]

section CommandLine

open CommandLine

theorem perform_run_tree (arguments : Arguments) (tree : FileTree) :
    (perform (.run arguments) tree).tree = (arguments.build tree).2 := by
  rw [perform]
  split <;> simp [*]

/-- A build from the command line does nothing before it has its settings, its catalog and its
templates. -/
theorem arguments_build_eq {arguments : Arguments} (touched : (arguments.build tree).2 ≠ tree) :
    ∃ settings entities table, arguments.settings tree = .ok settings ∧
      Arguments.loadEntities settings tree = .ok entities ∧
      LanguageTable.load tree settings.templateDirectory settings.templateFile = .ok table ∧
      (arguments.build tree).2 = ((arguments.project settings entities).build
        (arguments.buildDirectory.getD defaultBuildDirectory) tree).2 := by
  rw [Arguments.build] at touched ⊢
  cases found : arguments.settings tree with
  | error error =>
    rw [found] at touched
    exact absurd rfl touched
  | ok settings =>
    rw [found] at touched
    cases read : Arguments.loadEntities settings tree with
    | error error =>
      simp only [read] at touched
      exact absurd rfl touched
    | ok entities =>
      simp only [read] at touched ⊢
      cases loaded :
          LanguageTable.load tree settings.templateDirectory settings.templateFile with
      | error error => exact absurd (build_of_load_error loaded) touched
      | ok table => exact ⟨settings, entities, table, rfl, read, loaded, rfl⟩

end CommandLine

open CommandLine in
/-- **What a run may touch.** A run of the command line changes nothing before it has its settings,
its catalog and its templates, and a build changes nothing without templates. Otherwise it creates
the output directories with what is missing above them, writes manifests of languages that compile,
and changes nothing else, whether it succeeds or fails. A language that does not compile has its
directory and keeps its manifest; a manifest that was written stays whatever fails besides.

A build root that is missing leads somewhere only once it is created. So links below it are looked
for after the build, which makes none (`Extends.noLinksBelow`, `noLinksBelow_build`). -/
theorem build_touches_only_output (project : Project) (root : Path) (tree : FileTree)
    (proper : tree.Proper)
    (modest : ∀ generator ∈ project.generators, generator.WritesManifestAtMost)
    (noLinks : (project.build root tree).2.NoLinksBelow root) :
    (∀ request, (perform request tree).tree ≠ tree →
      ∃ arguments settings entities table, request = .run arguments ∧
        arguments.settings tree = .ok settings ∧
        Arguments.loadEntities settings tree = .ok entities ∧
        LanguageTable.load tree settings.templateDirectory settings.templateFile = .ok table ∧
        (perform request tree).tree = ((arguments.project settings entities).build
          (arguments.buildDirectory.getD defaultBuildDirectory) tree).2) ∧
    (∀ error,
      LanguageTable.load tree project.templateDirectory project.templateFile = .error error →
        (project.build root tree).2 = tree) ∧
    ∀ table, LanguageTable.load tree project.templateDirectory project.templateFile = .ok table →
      ∃ turns : List Turn, turns.map Turn.entry = table.entries ∧
        project.TakeTurns root tree turns (project.build root tree).2 ∧
        Changes (fun path => ∃ turn ∈ turns, turn.Makes root path)
          (fun path text => ∃ turn ∈ turns, turn.Writes root path text)
          tree (project.build root tree).2 ∧
        ∀ turn ∈ turns, Leaves root tree (project.build root tree).2 turn := by
  refine ⟨fun request touched => ?_, fun error failed => ?_, fun table loaded => ?_⟩
  · cases request with
    | misuse | version | help => exact absurd rfl touched
    | run arguments =>
      rw [perform_run_tree] at touched ⊢
      obtain ⟨settings, entities, table, found⟩ := arguments_build_eq touched
      exact ⟨arguments, settings, entities, table, rfl, found⟩
  · exact build_of_load_error failed
  · obtain ⟨turns, same, languages, taken, _⟩ := project.build_turns root tree loaded
    have distinct : (turns.map Turn.language).Nodup := languages ▸ table.keys_nodup
    have names : ∀ turn ∈ turns, Path.IsName turn.language := fun turn member =>
      LanguageTable.isName_of_load proper loaded (languages ▸ List.mem_map_of_mem member)
    exact ⟨turns, same, taken, taken.changes proper.rooted modest,
      taken.leaves proper.rooted modest names distinct noLinks⟩

/-- A tree with the template files of two languages, and what else there is. -/
def sampleTree (german english : String) (others : List (Location × Entry)) : FileTree :=
  ⟨.ofList ((["u"], .directory) :: (["u", "de"], .directory) ::
    (["u", "de", "t.json"], .file german.toUTF8) :: (["u", "en"], .directory) ::
    (["u", "en", "t.json"], .file english.toUTF8) :: others), []⟩

/-- One language does not compile, another has its manifest although a generator fails for it. -/
theorem failures_leave_their_traces :
    let tree : FileTree := sampleTree "\x7b\"BookIntent\":[\"\x7b\x7bx\x7d\x7d\"]\x7d"
      "\x7b\"BookIntent\":[\"seats\"]\x7d" [(["out"], .directory), (["out", "de"], .directory),
        (["out", "de", "intents.json"], .file "old".toUTF8)]
    let project : Project := ⟨⟨"u"⟩, "t.json", EntityTable.catalog .empty, [.explicit "Book"], [],
      [.json true, .silent "late" fun _ => some "no space"]⟩
    let outcome := (project.build ⟨"out"⟩ tree).1
    let last := (project.build ⟨"out"⟩ tree).2
    outcome.errors.map BuildError.code = ["UC-ERR-ENTITY-001", "UC-ERR-PLUGIN-001"] ∧
      tree.Proper ∧ last.NoLinksBelow ⟨"out"⟩ ∧
      ∃ turns : List Turn, turns.map Turn.language = ["de", "en"] ∧
        project.TakeTurns ⟨"out"⟩ tree turns last ∧
        ∀ turn ∈ turns, Leaves ⟨"out"⟩ tree last turn := by
  intro tree project outcome last
  have proper : tree.Proper := by decide +kernel
  have modest : ∀ generator ∈ project.generators, generator.WritesManifestAtMost := by
    refine List.forall_mem_cons.mpr ⟨.inl ⟨true, rfl⟩, List.forall_mem_singleton.mpr (.inr ?_)⟩
    exact Generator.isQuiet_silent _ _
  have linkless : tree.entries.entries.all (fun entry => !isLink entry.2) := by decide +kernel
  have located : tree.locate (groundPath ⟨"out"⟩) = .ok ["out"] := by decide +kernel
  have noLinks : last.NoLinksBelow ⟨"out"⟩ :=
    (build_grown ⟨"out"⟩ proper.rooted modest).noLinksBelow located
      fun _ _ _ _ target => not_link_of_all linkless _ target
  have loaded : LanguageTable.load tree ⟨"u"⟩ "t.json" =
      .ok (.ofList [("de", .ofList [("BookIntent", ["\x7b\x7bx\x7d\x7d"])]),
        ("en", .ofList [("BookIntent", ["seats"])])]) :=
    LanguageTable.load_eq_ok (by decide +kernel)
  obtain ⟨turns, same, taken, _, leaves⟩ :=
    (build_touches_only_output project ⟨"out"⟩ tree proper modest noLinks).2.2 _ loaded
  refine ⟨by decide +kernel, proper, noLinks, turns, ?_, taken, leaves⟩
  have languages := congrArg (List.map Prod.fst) same
  rwa [List.map_map] at languages

/-! ### Manifests -/

/-- The file that the path leads to reads as the manifest. -/
def HoldsManifest (tree : FileTree) (path : Path) (manifest : Manifest) : Prop :=
  ∃ text, tree.readText path = .ok text ∧ Manifest.format.readText text = .ok manifest

/-- A manifest is read back whichever way it was written. -/
theorem readText_manifestText (pretty : Bool) (manifest : Manifest) :
    Manifest.format.readText (Generator.manifestText pretty manifest) = .ok manifest := by
  cases pretty with
  | false => exact restores_manifest.readText_text manifest
  | true => exact restores_manifest.readText_pretty manifest

/-- Generators are modest if one writes manifests and the others nothing. -/
theorem modest_of_writer {others more : List Generator} {pretty : Bool}
    (writer : project.generators = others ++ .json pretty :: more)
    (quiet : ∀ other ∈ others ++ more, other.IsQuiet) :
    ∀ generator ∈ project.generators, generator.WritesManifestAtMost := by
  rw [writer]
  intro generator member
  rcases List.mem_append.mp member with member | member
  · exact .inr (quiet _ (List.mem_append_left _ member))
  · rcases List.mem_cons.mp member with rfl | member
    · exact .inl ⟨pretty, rfl⟩
    · exact .inr (quiet _ (List.mem_append_right _ member))

/-- A turn that succeeds leaves the manifest of what the language compiles to, if one generator
writes manifests and no later turn has its own in the same place. -/
theorem TakeTurns.holdsManifest {before after : List Turn} {others more : List Generator}
    {pretty : Bool} (taken : project.TakeTurns root tree (before ++ turn :: after) last)
    (rooted : tree.Rooted) (writer : project.generators = others ++ .json pretty :: more)
    (quiet : ∀ other ∈ others ++ more, other.IsQuiet) (succeeds : turn.Succeeds) :
    ∃ compilation, project.compile turn.language turn.templates = .ok compilation ∧
      (turn.outcome root).summaries = [.ofConfigurations turn.language
        (outputDirectory root turn.language) compilation.configurations] ∧
      ((∀ other ∈ after, ∀ location,
          last.locate (manifestPath root turn.language) = .ok location →
            last.locate (manifestPath root other.language) ≠ .ok location) →
        HoldsManifest last (manifestPath root turn.language) ⟨turn.language,
          fingerprintOf compilation.configurations, compilation.configurations⟩) := by
  obtain ⟨one, two, _, takes, _⟩ := taken.split
  obtain ⟨language, templates, _⟩ := turn
  obtain ⟨compilation, runs, rfl, fine⟩ := succeeds
  obtain ⟨compiled, all⟩ : project.compile language templates = .ok compilation ∧
      runs.map Prod.fst = project.generators := by
    cases takes with
    | delivered _ compiled all _ => exact ⟨compiled, all⟩
  refine ⟨compilation, compiled, rfl, fun alone => ?_⟩
  obtain ⟨earlier, rest, rfl, rfl, split⟩ := List.map_eq_append_iff.mp (all.trans writer)
  obtain ⟨⟨_, result⟩, later, rfl, rfl, rfl⟩ := List.map_eq_cons_iff.mp split
  obtain rfl : result = .ok () := fine _ (List.mem_append_right _ List.mem_cons_self)
  have isLast : ∀ run ∈ later, ¬WroteManifest run := by
    rintro _ member ⟨other, rfl⟩
    exact Generator.not_isQuiet_json other
      (quiet _ (List.mem_append_right _ (List.mem_map_of_mem member)))
  exact ⟨_, taken.manifest_written rooted (modest_of_writer writer quiet) alone rfl isLast,
    readText_manifestText pretty _⟩

/-- **Manifests are faithful.** The text of a manifest, indented or not, reads as the manifest, and
so does the file that a generator writes. After a build that succeeds and in which one generator
writes manifests, what stands in the manifest of a language are the configurations that it compiles
to, with the fingerprint of its summary, unless another language has its manifest in the same
place. -/
theorem manifests_are_faithful (project : Project) (root : Path) (tree : FileTree)
    (proper : tree.Proper) {others more : List Generator} {style : Bool}
    (writer : project.generators = others ++ .json style :: more)
    (quiet : ∀ other ∈ others ++ more, other.IsQuiet) :
    (∀ pretty language configurations, Manifest.format.readText
        (Generator.manifestText pretty (.ofConfigurations language configurations)) =
          .ok ⟨language, fingerprintOf configurations, configurations⟩) ∧
    (∀ pretty delivery next, (Generator.json pretty).run delivery tree = (.ok (), next) →
      HoldsManifest next delivery.manifestPath
        ⟨delivery.language, fingerprintOf delivery.configurations, delivery.configurations⟩) ∧
    ∀ table summaries,
      LanguageTable.load tree project.templateDirectory project.templateFile = .ok table →
      (project.build root tree).1.result = .ok summaries →
        ∀ language templates, (language, templates) ∈ table.entries →
          ∃ compilation, project.compile language templates = .ok compilation ∧
            ∃ summary ∈ summaries, summary.language = language ∧
              summary.fingerprint = fingerprintOf compilation.configurations ∧
              (Alone root (project.build root tree).2 table.keys language →
                HoldsManifest (project.build root tree).2 (manifestPath root language)
                  ⟨language, summary.fingerprint, compilation.configurations⟩) := by
  refine ⟨fun pretty language configurations => readText_manifestText pretty _,
    fun pretty delivery next ran => ?_, fun table summaries loaded done language templates member =>
      ?_⟩
  · obtain ⟨location, fits, rfl, located⟩ :=
      writeText_eq_ok proper.rooted (writeText_of_run ran)
    exact ⟨_, readText_eq_ok located (find?_place_self fits.below _),
      readText_manifestText pretty _⟩
  · obtain ⟨turns, same, languages, taken, told⟩ := project.build_turns root tree loaded
    obtain ⟨noErrors, rfl⟩ := result_eq_ok_iff.mp done
    obtain ⟨turn, among, entry⟩ := List.mem_map.mp (same ▸ member)
    have succeeds : turn.Succeeds := by
      rw [told, outcomeOf, List.flatMap_eq_nil_iff] at noErrors
      exact Turn.errors_eq_nil_iff.mp (noErrors turn among)
    obtain ⟨before, after, rfl⟩ := List.append_of_mem among
    obtain ⟨compilation, compiled, told', holds⟩ :=
      taken.holdsManifest proper.rooted writer quiet succeeds
    cases entry
    refine ⟨compilation, compiled, .ofConfigurations turn.language
      (outputDirectory root turn.language) compilation.configurations, ?_, rfl, rfl,
      fun alone => ?_⟩
    · rw [told, outcomeOf, List.mem_flatMap]
      exact ⟨turn, among, told' ▸ List.mem_singleton_self _⟩
    · exact holds ((languages ▸ alone :
        Alone root _ ((before ++ turn :: after).map Turn.language) turn.language).later
          (languages ▸ table.keys_nodup))

/-- Two languages below a build root that is not there before, and another generator. -/
theorem plain_directories_hold_manifests :
    let tree : FileTree := sampleTree "\x7b\"BookIntent\":[\"platz\"]\x7d"
      "\x7b\"BookIntent\":[\"seat\",\"row\"]\x7d" []
    let table : LanguageTable := .ofList [("de", .ofList [("BookIntent", ["platz"])]),
      ("en", .ofList [("BookIntent", ["seat", "row"])])]
    let project : Project := ⟨⟨"u"⟩, "t.json", EntityTable.catalog .empty, [.explicit "Book"], [],
      [.silent "idle" fun _ => none, .json true]⟩
    tree.Proper ∧ LanguageTable.load tree ⟨"u"⟩ "t.json" = .ok table ∧
      ∀ language templates, (language, templates) ∈ table.entries →
        ∃ compilation, project.compile language templates = .ok compilation ∧
          HoldsManifest (project.build ⟨"out"⟩ tree).2 (manifestPath ⟨"out"⟩ language) ⟨language,
            fingerprintOf compilation.configurations, compilation.configurations⟩ := by
  intro tree table project
  have proper : tree.Proper := by decide +kernel
  have linkless : tree.entries.entries.all (fun entry => !isLink entry.2) := by decide +kernel
  have writer : project.generators = [.silent "idle" fun _ => none] ++ .json true :: [] := rfl
  have quiet : ∀ other ∈ [Generator.silent "idle" fun _ => none] ++ [], other.IsQuiet :=
    List.forall_mem_singleton.mpr (Generator.isQuiet_silent _ _)
  have noLinks : (project.build ⟨"out"⟩ tree).2.NoLinksBelow ⟨"out"⟩ :=
    noLinksBelow_build ⟨"out"⟩ proper.rooted (modest_of_writer writer quiet)
      (not_link_of_all linkless)
  have fine : (project.build ⟨"out"⟩ tree).1.errors.length = 0 := by decide +kernel
  have loaded : LanguageTable.load tree ⟨"u"⟩ "t.json" = .ok table :=
    LanguageTable.load_eq_ok (by decide +kernel)
  refine ⟨proper, loaded, fun language templates member => ?_⟩
  obtain ⟨compilation, compiled, summary, _, _, fingerprint, held⟩ :=
    (manifests_are_faithful project ⟨"out"⟩ tree proper writer quiet).2.2 table _ loaded
      (result_eq_ok_iff.mpr ⟨List.length_eq_zero_iff.mp fine, rfl⟩) language templates member
  have alone := alone_of_noLinksBelow noLinks
    (fun _ key => LanguageTable.isName_of_load proper loaded key) (List.mem_map_of_mem member)
  exact ⟨compilation, compiled, fingerprint ▸ held alone⟩

theorem HoldsManifest.unique {path other : Path} {first second : Manifest}
    (here : HoldsManifest tree path first) (shared : tree.locate path = tree.locate other)
    (there : HoldsManifest tree other second) : first = second := by
  obtain ⟨text, read, parsed⟩ := here
  obtain ⟨again, reread, reparsed⟩ := there
  have same : text = again := by
    rw [readText, readBytes, shared] at read
    exact Except.ok.inj (read.symm.trans reread)
  rw [same, reparsed] at parsed
  exact (Except.ok.inj parsed).symm

/-- **A link below the build root lets two languages share a manifest**: the directory of one leads
to that of the other, so after a build that succeeds the file cannot hold the manifests of both,
whichever was written first. -/
theorem linked_directories_share_manifest :
    let tree : FileTree := sampleTree "\x7b\x7d" "\x7b\x7d" [(["out"], .directory),
      (["out", "de"], .link ⟨"en"⟩), (["out", "en"], .directory)]
    let project : Project := ⟨⟨"u"⟩, "t.json", EntityTable.catalog .empty, [], [], [.json false]⟩
    tree.Proper ∧
      (∃ summaries, (project.build ⟨"out"⟩ tree).1.result = .ok summaries ∧
        summaries.map (·.language) = ["de", "en"]) ∧
      ∀ german english : Manifest, german.language = "de" → english.language = "en" →
        ¬(HoldsManifest (project.build ⟨"out"⟩ tree).2 (manifestPath ⟨"out"⟩ "de") german ∧
          HoldsManifest (project.build ⟨"out"⟩ tree).2 (manifestPath ⟨"out"⟩ "en") english) := by
  intro tree project
  have fine : (project.build ⟨"out"⟩ tree).1.errors.length = 0 := by decide +kernel
  have shared : (project.build ⟨"out"⟩ tree).2.locate (manifestPath ⟨"out"⟩ "de") =
      (project.build ⟨"out"⟩ tree).2.locate (manifestPath ⟨"out"⟩ "en") := by decide +kernel
  refine ⟨by decide +kernel, ⟨_, result_eq_ok_iff.mpr ⟨List.length_eq_zero_iff.mp fine, rfl⟩,
    by decide +kernel⟩, ?_⟩
  rintro german english isGerman isEnglish ⟨here, there⟩
  rw [here.unique shared there, isEnglish] at isGerman
  exact absurd isGerman (by decide)

end Project

end Phrasebook
