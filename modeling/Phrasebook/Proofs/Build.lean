/-
**What a build comes to.**

A build gives each language a turn: it creates the output directory, compiles the language and runs
the generators, each on the files that the one before it left. `Turn` records how a turn went, and
`Project.Takes` says which record is the true one. A turn that goes wrong keeps no other from its
place, so a build is a row of turns, one for each language and in the order of the languages
(`Project.TakeTurns`).

All that is told about a build is read off these records (`Turn.outcome`, `buildAll_eq`):

* the generators are called for exactly the languages whose directory is there and whose templates
  compile, each generator once for each of them;
* the build succeeds exactly if every turn does, and then sums up each language in its place;
* it fails with the first failure of the first turn that has one.

`Accounts` puts this down, and `build_accounts_for_turns` proves it of every build.
-/

import Phrasebook.Build
import Mathlib.Data.List.Forall2
import Mathlib.Data.List.Nodup

namespace Phrasebook

/-! ### Turns -/

/-- How the turn of a language went. -/
inductive Course where
  /-- The output directory could not be created. -/
  | noDirectory (error : FileError)
  /-- The templates do not compile. -/
  | notCompiled (error : BuildError)
  /-- The generators ran, each with its result. -/
  | delivered (compilation : Compilation) (runs : List (Generator × Except String Unit))

/-- A language with its templates, and how its turn went. -/
structure Turn where
  language : String
  templates : TemplateTable
  course : Course

namespace Turn

/-- The language as it stands in the table. -/
def entry (turn : Turn) : String × TemplateTable := (turn.language, turn.templates)

/-- What the generators were given, if they ran. -/
def delivery? (root : Path) (turn : Turn) : Option Delivery :=
  match turn.course with
  | .delivered compilation _ =>
    some ⟨turn.language, Project.outputDirectory root turn.language, compilation.configurations⟩
  | _ => none

/-- The generators ran, and none failed. -/
def Succeeds (turn : Turn) : Prop :=
  ∃ compilation runs, turn.course = .delivered compilation runs ∧ ∀ run ∈ runs, run.2 = .ok ()

/-- The turn has this failure, and no earlier one. -/
inductive Fails (root : Path) : Turn → BuildError → Prop where
  | noDirectory {language : String} {templates : TemplateTable} {error : FileError} :
      Fails root ⟨language, templates, .noDirectory error⟩
        (.file .createBuildDirectory (Project.outputDirectory root language) error)
  | notCompiled {language : String} {templates : TemplateTable} {error : BuildError} :
      Fails root ⟨language, templates, .notCompiled error⟩ error
  | generator {language : String} {templates : TemplateTable} {compilation : Compilation}
      {before after : List (Generator × Except String Unit)} {generator : Generator}
      {reason : String} :
      (∀ earlier ∈ before, earlier.2 = .ok ()) →
      Fails root ⟨language, templates,
          .delivered compilation (before ++ (generator, .error reason) :: after)⟩
        (.generatorFailed generator.name language reason)

end Turn

namespace Project

/-- Generators run one after the other, each on the files that the one before it left. -/
inductive Runs (delivery : Delivery) :
    FileTree → List (Generator × Except String Unit) → FileTree → Prop where
  | nil {tree : FileTree} : Runs delivery tree [] tree
  | cons {tree next last : FileTree} {generator : Generator} {result : Except String Unit}
      {runs : List (Generator × Except String Unit)} :
      generator.run delivery tree = (result, next) → Runs delivery next runs last →
      Runs delivery tree ((generator, result) :: runs) last

/-- The turn is what becomes of the language on the first tree, and it leaves the second. -/
inductive Takes (project : Project) (root : Path) : FileTree → Turn → FileTree → Prop where
  | noDirectory {tree next : FileTree} {language : String} {templates : TemplateTable}
      {error : FileError} :
      tree.createDirectories (outputDirectory root language) = (some error, next) →
      Takes project root tree ⟨language, templates, .noDirectory error⟩ next
  | notCompiled {tree next : FileTree} {language : String} {templates : TemplateTable}
      {error : BuildError} :
      tree.createDirectories (outputDirectory root language) = (none, next) →
      project.compile language templates = .error error →
      Takes project root tree ⟨language, templates, .notCompiled error⟩ next
  | delivered {tree next last : FileTree} {language : String} {templates : TemplateTable}
      {compilation : Compilation} {runs : List (Generator × Except String Unit)} :
      tree.createDirectories (outputDirectory root language) = (none, next) →
      project.compile language templates = .ok compilation →
      runs.map Prod.fst = project.generators →
      Runs ⟨language, outputDirectory root language, compilation.configurations⟩ next runs last →
      Takes project root tree ⟨language, templates, .delivered compilation runs⟩ last

/-- The turns are taken one after the other, whatever comes of each. -/
inductive TakeTurns (project : Project) (root : Path) :
    FileTree → List Turn → FileTree → Prop where
  | nil {tree : FileTree} : TakeTurns project root tree [] tree
  | cons {tree next last : FileTree} {turn : Turn} {turns : List Turn} :
      project.Takes root tree turn next → TakeTurns project root next turns last →
      TakeTurns project root tree (turn :: turns) last

end Project

/-! ### What is told about the turns -/

/-- The failure of a generator that ran, if it failed. -/
def failure? (language : String) : Generator × Except String Unit → Option BuildError
  | (_, .ok _) => none
  | (generator, .error reason) => some (.generatorFailed generator.name language reason)

/-- What is told about a turn. -/
def Turn.outcome (root : Path) (turn : Turn) : BuildOutcome :=
  let directory := Project.outputDirectory root turn.language
  match turn.course with
  | .noDirectory error => { errors := [.file .createBuildDirectory directory error] }
  | .notCompiled error => { errors := [error] }
  | .delivered compilation runs =>
    let delivery := ⟨turn.language, directory, compilation.configurations⟩
    { summaries := [.ofConfigurations turn.language directory compilation.configurations]
      errors := runs.filterMap (failure? turn.language)
      calls := (List.range runs.length).map fun position => ⟨position, delivery⟩
      warnings := warningsOf turn.language (.ok compilation) }

/-- What is told about turns in a row. -/
def outcomeOf (root : Path) (turns : List Turn) : BuildOutcome where
  summaries := turns.flatMap fun turn => (turn.outcome root).summaries
  errors := turns.flatMap fun turn => (turn.outcome root).errors
  calls := turns.flatMap fun turn => (turn.outcome root).calls
  warnings := turns.flatMap fun turn => (turn.outcome root).warnings

theorem outcomeOf_cons (root : Path) (turn : Turn) (turns : List Turn) :
    outcomeOf root (turn :: turns) = (turn.outcome root).append (outcomeOf root turns) := rfl

/-! ### Each language takes its turn -/

namespace Project

/-- A delivery runs every generator, whether or not others fail. -/
theorem deliver_eq (delivery : Delivery) (position : Nat) (generators : List Generator)
    (tree : FileTree) :
    ∃ runs, runs.map Prod.fst = generators ∧
      Runs delivery tree runs (deliver delivery position generators tree).2 ∧
      (deliver delivery position generators tree).1 =
        { errors := runs.filterMap (failure? delivery.language)
          calls := (List.range' position runs.length).map fun place => ⟨place, delivery⟩ } := by
  induction generators generalizing position tree with
  | nil => exact ⟨[], rfl, .nil, rfl⟩
  | cons generator generators ih =>
    obtain ⟨result, next, ran⟩ : ∃ result next, generator.run delivery tree = (result, next) :=
      ⟨_, _, rfl⟩
    obtain ⟨runs, same, rest, told⟩ := ih (position + 1) next
    refine ⟨(generator, result) :: runs, ?_, ?_, ?_⟩
    · rw [List.map_cons, same]
    · rw [deliver, ran]
      exact .cons ran rest
    · rw [deliver, ran]
      cases result with
      | ok _ => simp [told, BuildOutcome.append, List.filterMap_cons, failure?, List.range'_succ]
      | error reason => simp [told, BuildOutcome.append, failure?, List.range'_succ]

variable (project : Project) (root : Path)

theorem buildOne_eq (language : String) (templates : TemplateTable) (tree : FileTree) :
    ∃ turn : Turn, turn.entry = (language, templates) ∧
      project.Takes root tree turn (project.buildOne root language templates tree).2 ∧
      (project.buildOne root language templates tree).1 = turn.outcome root := by
  rw [buildOne]
  cases created : tree.createDirectories (outputDirectory root language) with
  | mk failed next =>
    cases failed with
    | some error =>
      exact ⟨⟨language, templates, .noDirectory error⟩, rfl, .noDirectory created, rfl⟩
    | none =>
      cases compiled : project.compile language templates with
      | error error =>
        exact ⟨⟨language, templates, .notCompiled error⟩, rfl, .notCompiled created compiled, rfl⟩
      | ok compilation =>
        let delivery : Delivery :=
          ⟨language, outputDirectory root language, compilation.configurations⟩
        obtain ⟨runs, all, ran, told⟩ := deliver_eq delivery 0 project.generators next
        refine ⟨⟨language, templates, .delivered compilation runs⟩, rfl,
          .delivered created compiled all ran, ?_⟩
        show BuildOutcome.append _ (deliver delivery 0 project.generators next).1 = _
        rw [told]
        simp [BuildOutcome.append, Turn.outcome, List.range_eq_range', delivery]

theorem buildAll_eq (languages : List (String × TemplateTable)) (tree : FileTree) :
    ∃ turns : List Turn, turns.map Turn.entry = languages ∧
      project.TakeTurns root tree turns (project.buildAll root languages tree).2 ∧
      (project.buildAll root languages tree).1 = outcomeOf root turns := by
  induction languages generalizing tree with
  | nil => exact ⟨[], rfl, .nil, rfl⟩
  | cons entry languages ih =>
    obtain ⟨language, templates⟩ := entry
    obtain ⟨turn, here, taken, told⟩ := project.buildOne_eq root language templates tree
    obtain ⟨turns, there, later, rest⟩ := ih (project.buildOne root language templates tree).2
    refine ⟨turn :: turns, ?_, .cons taken later, ?_⟩
    · rw [List.map_cons, here, there]
    · rw [buildAll, outcomeOf_cons, ← told, ← rest]

end Project

/-! ### The account of the turns -/

/-- How many utterances the configurations have together. -/
def utteranceCount : List Configuration → Nat
  | [] => 0
  | configuration :: configurations =>
    configuration.utterances.length + utteranceCount configurations

theorem length_flatMap_utterances (configurations : List Configuration) :
    (configurations.flatMap (·.utterances)).length = utteranceCount configurations := by
  induction configurations with
  | nil => rfl
  | cons configuration configurations ih =>
    rw [List.flatMap_cons, List.length_append, ih, utteranceCount]

/-- The summary is that of the delivery. -/
structure Reports (delivery : Delivery) (summary : LanguageSummary) : Prop where
  language_eq : summary.language = delivery.language
  outputDirectory_eq : summary.outputDirectory = delivery.outputDirectory
  intents_eq : summary.intents = delivery.configurations.length
  utterances_eq : summary.utterances = utteranceCount delivery.configurations
  fingerprint_eq : summary.fingerprint = fingerprintOf delivery.configurations

/-- What the outcome of a build says about the turns of its languages. -/
structure Accounts (generators : List Generator) (root : Path) (turns : List Turn)
    (outcome : BuildOutcome) : Prop where
  /-- Every generator is called for every delivery, and for nothing else. -/
  mem_calls : ∀ call, call ∈ outcome.calls ↔ call.position < generators.length ∧
    ∃ turn ∈ turns, turn.delivery? root = some call.delivery
  /-- None is called twice for the same. -/
  once : outcome.calls.Nodup
  /-- The build succeeds if all turns do, and has a summary for each. -/
  ok_iff : ∀ summaries, outcome.result = .ok summaries ↔ (∀ turn ∈ turns, turn.Succeeds) ∧
    List.Forall₂ (fun turn summary => ∃ delivery, turn.delivery? root = some delivery ∧
      Reports delivery summary) turns summaries
  /-- The first failure in the order of the turns is the result. -/
  error_iff : ∀ error, outcome.result = .error error ↔
    ∃ before turn after, turns = before ++ turn :: after ∧
      (∀ earlier ∈ before, earlier.Succeeds) ∧ turn.Fails root error

theorem reports_iff {delivery : Delivery} {summary : LanguageSummary} :
    Reports delivery summary ↔ summary =
      .ofConfigurations delivery.language delivery.outputDirectory delivery.configurations := by
  rw [LanguageSummary.ofConfigurations, length_flatMap_utterances]
  constructor
  · rintro ⟨language, directory, intents, utterances, fingerprint⟩
    show LanguageSummary.mk summary.language summary.outputDirectory summary.intents
      summary.utterances summary.fingerprint = _
    rw [language, directory, intents, utterances, fingerprint]
  · rintro rfl
    exact ⟨rfl, rfl, rfl, rfl, rfl⟩

theorem failure?_eq_none_iff {language : String} {run : Generator × Except String Unit} :
    failure? language run = none ↔ run.2 = .ok () := by
  obtain ⟨generator, _ | _⟩ := run <;> simp [failure?]

namespace Turn

variable {root : Path}

theorem errors_eq_nil_iff {turn : Turn} : (turn.outcome root).errors = [] ↔ turn.Succeeds := by
  obtain ⟨language, templates, _ | _ | ⟨compilation, runs⟩⟩ := turn
  · simp [outcome, Succeeds]
  · simp [outcome, Succeeds]
  · simp [outcome, Succeeds, failure?_eq_none_iff, List.filterMap_eq_nil_iff]

theorem errors_head?_eq_some_iff {turn : Turn} {error : BuildError} :
    (turn.outcome root).errors.head? = some error ↔ turn.Fails root error := by
  constructor
  · obtain ⟨language, templates, reason | reason | ⟨compilation, runs⟩⟩ := turn
    · rintro ⟨⟩
      exact .noDirectory
    · rintro ⟨⟩
      exact .notCompiled
    · intro first
      rw [outcome, List.head?_filterMap, List.findSome?_eq_some_iff] at first
      obtain ⟨before, ⟨generator, _ | reason⟩, after, rfl, failed, earlier⟩ := first
      · cases failed
        exact .generator fun run member => failure?_eq_none_iff.mp (earlier run member)
      · cases failed
  · rintro (_ | _ | earlier)
    · rfl
    · rfl
    · rw [outcome, List.head?_filterMap, List.findSome?_eq_some_iff]
      exact ⟨_, _, _, rfl, rfl, fun run member => failure?_eq_none_iff.mpr (earlier run member)⟩

/-- A turn that succeeds has the summary of its delivery. -/
theorem Succeeds.exists_delivery {turn : Turn} (succeeds : turn.Succeeds) (root : Path) :
    ∃ delivery, turn.delivery? root = some delivery ∧ (turn.outcome root).summaries =
      [.ofConfigurations delivery.language delivery.outputDirectory delivery.configurations] := by
  obtain ⟨language, templates, course⟩ := turn
  obtain ⟨compilation, runs, rfl, _⟩ := succeeds
  exact ⟨_, rfl, rfl⟩

/-- The generators are all of them, if they ran. -/
def Complete (generators : List Generator) (turn : Turn) : Prop :=
  ∀ compilation runs, turn.course = .delivered compilation runs → runs.map Prod.fst = generators

theorem mem_calls {generators : List Generator} {turn : Turn} (complete : turn.Complete generators)
    {call : Call} :
    call ∈ (turn.outcome root).calls ↔
      call.position < generators.length ∧ turn.delivery? root = some call.delivery := by
  obtain ⟨language, templates, _ | _ | ⟨compilation, runs⟩⟩ := turn
  · simp [outcome, delivery?]
  · simp [outcome, delivery?]
  · obtain ⟨position, delivery⟩ := call
    have all : runs.map Prod.fst = generators := complete compilation runs rfl
    simp [outcome, delivery?, ← all]

theorem calls_nodup (turn : Turn) : (turn.outcome root).calls.Nodup := by
  obtain ⟨language, templates, _ | _ | ⟨compilation, runs⟩⟩ := turn
  · exact List.nodup_nil
  · exact List.nodup_nil
  · exact List.nodup_range.map fun first second same => (Call.mk.inj same).1

theorem language_of_delivery? {turn : Turn} {delivery : Delivery}
    (delivered : turn.delivery? root = some delivery) : delivery.language = turn.language := by
  obtain ⟨language, templates, _ | _ | ⟨compilation, runs⟩⟩ := turn
  · cases delivered
  · cases delivered
  · cases delivered
    rfl

end Turn

theorem result_eq_ok_iff {outcome : BuildOutcome} {summaries : List LanguageSummary} :
    outcome.result = .ok summaries ↔ outcome.errors = [] ∧ outcome.summaries = summaries := by
  obtain ⟨told, _ | ⟨error, errors⟩, calls, warnings⟩ := outcome <;> simp [BuildOutcome.result]

theorem result_eq_error_iff {outcome : BuildOutcome} {error : BuildError} :
    outcome.result = .error error ↔ outcome.errors.head? = some error := by
  obtain ⟨told, _ | ⟨first, errors⟩, calls, warnings⟩ := outcome <;> simp [BuildOutcome.result]

section Rows

variable {root : Path}

theorem summaries_outcomeOf_iff {turns : List Turn} (succeed : ∀ turn ∈ turns, turn.Succeeds)
    {summaries : List LanguageSummary} :
    (outcomeOf root turns).summaries = summaries ↔
      List.Forall₂ (fun turn summary => ∃ delivery, turn.delivery? root = some delivery ∧
        Reports delivery summary) turns summaries := by
  induction turns generalizing summaries with
  | nil => simp [outcomeOf, eq_comm]
  | cons turn turns ih =>
    obtain ⟨here, later⟩ := List.forall_mem_cons.mp succeed
    obtain ⟨delivery, delivered, told⟩ := here.exists_delivery root
    rw [outcomeOf_cons, BuildOutcome.append, told, List.singleton_append,
      List.forall₂_cons_left_iff]
    constructor
    · rintro rfl
      exact ⟨_, _, ⟨delivery, delivered, reports_iff.mpr rfl⟩, (ih later).mp rfl, rfl⟩
    · rintro ⟨summary, rest, ⟨other, same, reports⟩, all, rfl⟩
      obtain rfl : delivery = other := Option.some.inj (delivered.symm.trans same)
      rw [reports_iff.mp reports, (ih later).mpr all]

/-- **What is told about turns in a row** accounts for them. -/
theorem accounts_outcomeOf {generators : List Generator} {turns : List Turn}
    (complete : ∀ turn ∈ turns, turn.Complete generators)
    (distinct : (turns.map Turn.language).Nodup) :
    Accounts generators root turns (outcomeOf root turns) where
  mem_calls call := by
    rw [outcomeOf, List.mem_flatMap]
    constructor
    · rintro ⟨turn, member, made⟩
      obtain ⟨placed, delivered⟩ := (Turn.mem_calls (complete turn member)).mp made
      exact ⟨placed, turn, member, delivered⟩
    · rintro ⟨placed, turn, member, delivered⟩
      exact ⟨turn, member, (Turn.mem_calls (complete turn member)).mpr ⟨placed, delivered⟩⟩
  once := by
    refine List.nodup_flatMap.mpr ⟨fun turn _ => turn.calls_nodup, ?_⟩
    refine (List.pairwise_map.mp distinct).imp_of_mem fun {first second} one two apart => ?_
    intro call early late
    have before := Turn.language_of_delivery? ((Turn.mem_calls (complete first one)).mp early).2
    have behind := Turn.language_of_delivery? ((Turn.mem_calls (complete second two)).mp late).2
    exact apart (before.symm.trans behind)
  ok_iff summaries := by
    have errors : (outcomeOf root turns).errors = [] ↔ ∀ turn ∈ turns, turn.Succeeds := by
      simp only [outcomeOf, List.flatMap_eq_nil_iff, Turn.errors_eq_nil_iff]
    rw [result_eq_ok_iff, errors]
    exact and_congr_right fun succeed => summaries_outcomeOf_iff succeed
  error_iff error := by
    rw [result_eq_error_iff, outcomeOf, List.head?_flatMap, List.findSome?_eq_some_iff]
    simp only [Turn.errors_head?_eq_some_iff, List.head?_eq_none_iff, Turn.errors_eq_nil_iff]
    constructor
    · rintro ⟨before, turn, after, split, fails, fine⟩
      exact ⟨before, turn, after, split, fine, fails⟩
    · rintro ⟨before, turn, after, split, fine, fails⟩
      exact ⟨before, turn, after, split, fails, fine⟩

/-- The summaries stand in the order of the turns. -/
theorem Accounts.languages {generators : List Generator} {turns : List Turn}
    {outcome : BuildOutcome} (accounts : Accounts generators root turns outcome)
    {summaries : List LanguageSummary} (done : outcome.result = .ok summaries) :
    summaries.map (·.language) = turns.map Turn.language := by
  have pairs := ((accounts.ok_iff summaries).mp done).2
  have same : List.Forall₂ (fun turn summary => turn.language = summary.language)
      turns summaries :=
    pairs.imp fun turn summary ⟨delivery, delivered, reports⟩ => by
      rw [reports.language_eq, Turn.language_of_delivery? delivered]
  rw [eq_comm, ← List.forall₂_eq_eq_eq, List.forall₂_map_left_iff, List.forall₂_map_right_iff]
  exact same

end Rows

namespace Project

theorem Takes.complete {project : Project} {root : Path} {tree next : FileTree} {turn : Turn}
    (takes : project.Takes root tree turn next) : turn.Complete project.generators := by
  intro compilation runs same
  cases takes with
  | noDirectory => cases same
  | notCompiled => cases same
  | delivered _ _ all _ =>
    cases same
    exact all

theorem TakeTurns.complete {project : Project} {root : Path} {tree last : FileTree}
    {turns : List Turn} (taken : project.TakeTurns root tree turns last) :
    ∀ turn ∈ turns, turn.Complete project.generators := by
  induction taken with
  | nil => exact List.forall_mem_nil _
  | cons takes _ ih => exact List.forall_mem_cons.mpr ⟨takes.complete, ih⟩

/-- **A build gives every language its turn and accounts for it**, in the order of the languages.
Without templates, nothing is done. -/
theorem build_accounts_for_turns (project : Project) (root : Path) (tree : FileTree) :
    (∀ error,
      LanguageTable.load tree project.templateDirectory project.templateFile = .error error →
        (project.build root tree).1.result = .error error ∧
          (project.build root tree).1.calls = [] ∧ (project.build root tree).2 = tree) ∧
      ∀ table,
        LanguageTable.load tree project.templateDirectory project.templateFile = .ok table →
          ∃ turns : List Turn, turns.map Turn.entry = table.entries ∧
            project.TakeTurns root tree turns (project.build root tree).2 ∧
            Accounts project.generators root turns (project.build root tree).1 ∧
            ∀ summaries, (project.build root tree).1.result = .ok summaries →
              summaries.map (·.language) = table.keys := by
  constructor
  · intro error failed
    rw [build, failed]
    exact ⟨rfl, rfl, rfl⟩
  · intro table loaded
    have started : project.build root tree = project.buildAll root table.entries tree := by
      rw [build, loaded]
    obtain ⟨turns, same, taken, told⟩ := project.buildAll_eq root table.entries tree
    have languages : turns.map Turn.language = table.keys := by
      rw [Dictionary.keys, ← same, List.map_map]
      rfl
    have accounts : Accounts project.generators root turns (outcomeOf root turns) :=
      accounts_outcomeOf taken.complete (languages ▸ table.keys_nodup)
    rw [started, told, ← languages]
    exact ⟨turns, same, taken, accounts, fun summaries done => accounts.languages done⟩

/-- The first generator fails for the first language. The second one has its turn all the same, and
so has the other language. -/
example :
    let generators : List Generator :=
      [.silent "first" fun language => if language = "de" then some "no space" else none,
        .silent "second" fun _ => none]
    let project : Project := ⟨⟨""⟩, "", EntityTable.catalog .empty, [], [], generators⟩
    let outcome := (project.buildAll ⟨"out"⟩ [("de", .empty), ("en", .empty)] (.bare [])).1
    outcome.calls.map (fun call => (call.position, call.delivery.language)) =
        [(0, "de"), (1, "de"), (0, "en"), (1, "en")] ∧
      outcome.errors.map BuildError.code = ["UC-ERR-PLUGIN-001"] := by
  decide +kernel

end Project

end Phrasebook
