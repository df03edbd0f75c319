/-
**Building all languages.**

`build` loads the templates and takes the languages in ascending order. For each it creates the
output directory, compiles the language and hands the configurations to every generator. No failure
keeps another language or generator from its turn; the first one in order is the result. Only when
the templates cannot be loaded is nothing done at all.
-/

import Phrasebook.Compilation
import Phrasebook.Generator
import Phrasebook.LanguageTable

namespace Phrasebook

/-- All that a build needs to know besides the files. -/
structure Project where
  templateDirectory : Path
  templateFile : String
  catalog : Catalog
  intents : List Intent
  services : List TemplateService
  generators : List Generator

namespace Project

/-- Compiles the templates of a language. -/
def compile (project : Project) (language : String) (base : TemplateTable) :
    Except BuildError Compilation :=
  compileTemplates project.intents project.services project.catalog language base

end Project

/-- What is told about a language that was built. -/
structure LanguageSummary where
  language : String
  outputDirectory : Path
  intents : Nat
  utterances : Nat
  fingerprint : String
  deriving DecidableEq, Repr

/-- The summary of the configurations of a language. -/
def LanguageSummary.ofConfigurations (language : String) (outputDirectory : Path)
    (configurations : List Configuration) : LanguageSummary where
  language := language
  outputDirectory := outputDirectory
  intents := configurations.length
  utterances := (configurations.flatMap (·.utterances)).length
  fingerprint := fingerprintOf configurations

/-- A generator that was called, by its position, and what it was given. -/
structure Call where
  position : Nat
  delivery : Delivery
  deriving DecidableEq, Repr

/-- What a build, or the part of it for one language, came to. -/
structure BuildOutcome where
  summaries : List LanguageSummary := []
  /-- The failures, in the order of languages and generators. -/
  errors : List BuildError := []
  calls : List Call := []
  warnings : List Warning := []

/-- Two outcomes one after the other. -/
def BuildOutcome.append (first second : BuildOutcome) : BuildOutcome where
  summaries := first.summaries ++ second.summaries
  errors := first.errors ++ second.errors
  calls := first.calls ++ second.calls
  warnings := first.warnings ++ second.warnings

namespace Project

/-- Hands a delivery to the generators, of which the first has the given position. They may run side
by side: the order of the list is one of those that are possible, and what is in a file in the end
is told by it only if just one of them writes that file. -/
def deliver (delivery : Delivery) : Nat → List Generator → FileTree → BuildOutcome × FileTree
  | _, [], tree => ({}, tree)
  | position, generator :: generators, tree =>
    let (result, tree) := generator.run delivery tree
    let errors := match result with
      | .ok _ => []
      | .error reason => [.generatorFailed generator.name delivery.language reason]
    let (outcome, tree) := deliver delivery (position + 1) generators tree
    (.append { calls := [⟨position, delivery⟩], errors } outcome, tree)

/-- The output directory of a language. -/
def outputDirectory (buildRoot : Path) (language : String) : Path := buildRoot.join ⟨language⟩

/-- Builds one language. -/
def buildOne (project : Project) (buildRoot : Path) (language : String) (base : TemplateTable)
    (tree : FileTree) : BuildOutcome × FileTree :=
  let directory := outputDirectory buildRoot language
  match tree.createDirectories directory with
  | (some error, tree) => ({ errors := [.file .createBuildDirectory directory error] }, tree)
  | (none, tree) =>
    let result := project.compile language base
    let warnings := warningsOf language result
    match result with
    | .error error => ({ errors := [error], warnings }, tree)
    | .ok compilation =>
      let delivery := ⟨language, directory, compilation.configurations⟩
      let summary := LanguageSummary.ofConfigurations language directory compilation.configurations
      let (outcome, tree) := deliver delivery 0 project.generators tree
      (.append { summaries := [summary], warnings } outcome, tree)

/-- Builds languages one after the other. -/
def buildAll (project : Project) (buildRoot : Path) :
    List (String × TemplateTable) → FileTree → BuildOutcome × FileTree
  | [], tree => ({}, tree)
  | (language, base) :: languages, tree =>
    let (first, tree) := project.buildOne buildRoot language base tree
    let (rest, tree) := project.buildAll buildRoot languages tree
    (first.append rest, tree)

/-- Builds all languages below the build root. -/
def build (project : Project) (buildRoot : Path) (tree : FileTree) : BuildOutcome × FileTree :=
  match LanguageTable.load tree project.templateDirectory project.templateFile with
  | .error error => ({ errors := [error] }, tree)
  | .ok table => project.buildAll buildRoot table.entries tree

end Project

/-- The summaries of all languages, or the first failure. -/
def BuildOutcome.result (outcome : BuildOutcome) : Except BuildError (List LanguageSummary) :=
  match outcome.errors with
  | [] => .ok outcome.summaries
  | error :: _ => .error error

end Phrasebook
