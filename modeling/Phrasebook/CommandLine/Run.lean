/-
**Runs of the command line.**

A run reads the settings and the catalog, builds all languages, and reports on each of them on a
line of its own, or the first failure. `perform` says what a run prints, how it exits, and what
the file tree is like afterwards.

Left out is what is logged: the lines with a time that a run puts on the standard output besides the
summaries, and the one about a failure with its code and guarantee. The wording of the usage is this
library's own, and no argument is other than a text.
-/

import Phrasebook.Build
import Phrasebook.CommandLine.Arguments
import Phrasebook.Settings

namespace Phrasebook.CommandLine

/-- What a run leaves behind. -/
structure Outcome where
  exitCode : Nat
  stdout : String := ""
  stderr : String := ""
  tree : FileTree
  /-- The failure that is reported, if any. -/
  error : Option BuildError := none

/-- The environment variable that may name the file of settings. -/
def configVariable : String := "UTTERANCE_COMPILER_CONFIG"

/-- The name and version of the program. -/
def versionText : String := "utterance-compiler 0.1.0\n"

/-- How the program is called. -/
def usageText : String :=
  "Usage: utterance-compiler [OPTIONS]\n\n" ++
  "Options:\n" ++
  "  --config <PATH>          settings of the build, as JSON\n" ++
  "  --build-dir <PATH>       where the languages are built [default: build]\n" ++
  "  --utterances <PATH>      directory with one directory for each language\n" ++
  "  --entities <PATH>        entity catalog, as JSON\n" ++
  "  --intent <NAME>          one more explicit intent\n" ++
  "  --generic-intent <NAME>  one more generic intent\n" ++
  "  --pretty                 write indented JSON\n" ++
  "  -h, --help               print this help\n" ++
  "  -V, --version            print the version\n"

/-- The build root unless another one is given. -/
def defaultBuildDirectory : Path := ⟨"build"⟩

/-- The directory of the templates when neither the settings nor an option name one. -/
def defaultTemplateDirectory : Path := ⟨"utterances"⟩

namespace Arguments

/-- The settings changed by the options: paths take the place of those there, intents add up. -/
def override (arguments : Arguments) (settings : Settings) : Settings :=
  { settings with
    templateDirectory := arguments.utterances.getD settings.templateDirectory
    entityFile := arguments.entities.or settings.entityFile
    intents := settings.intents ++ arguments.intents
    genericIntents := settings.genericIntents ++ arguments.genericIntents }

/-- The settings of a run. -/
def settings (arguments : Arguments) (tree : FileTree) : Except BuildError Settings :=
  match arguments.config with
  | some path => (Settings.load tree path).map arguments.override
  | none => .ok (arguments.override (.ofDirectory defaultTemplateDirectory))

/-- The entity table of a run, empty when there is no file for it. -/
def loadEntities (settings : Settings) (tree : FileTree) : Except BuildError EntityTable :=
  match settings.entityFile with
  | some path => EntityTable.load tree path
  | none => .ok .empty

/-- The project of a run. -/
def project (arguments : Arguments) (settings : Settings) (entities : EntityTable) : Project where
  templateDirectory := settings.templateDirectory
  templateFile := settings.templateFile
  catalog := entities.catalog
  intents := settings.declared
  services := []
  generators := [.json arguments.pretty]

/-- Builds as the arguments say. -/
def build (arguments : Arguments) (tree : FileTree) :
    Except BuildError (List LanguageSummary) × FileTree :=
  match arguments.settings tree with
  | .error error => (.error error, tree)
  | .ok settings =>
    match loadEntities settings tree with
    | .error error => (.error error, tree)
    | .ok entities =>
      let (outcome, tree) := (arguments.project settings entities).build
        (arguments.buildDirectory.getD defaultBuildDirectory) tree
      (outcome.result, tree)

end Arguments

/-- The line about a language. -/
def summaryLine (summary : LanguageSummary) : String :=
  summary.language ++ ": " ++ toString summary.intents ++ " intents, " ++
    toString summary.utterances ++ " utterances (" ++ summary.fingerprint ++ ")\n"

/-- The line about a failure. -/
def errorLine (error : BuildError) : String :=
  "error[" ++ error.code ++ "]: " ++ error.message ++ "\n"

/-- Does what the command line asks for. -/
def perform (request : Request) (tree : FileTree) : Outcome :=
  match request with
  | .misuse => { exitCode := 2, stderr := usageText, tree }
  | .version => { exitCode := 0, stdout := versionText, tree }
  | .help => { exitCode := 0, stdout := usageText, tree }
  | .run arguments =>
    match arguments.build tree with
    | (.ok summaries, tree) =>
      { exitCode := 0, stdout := String.join (summaries.map summaryLine), tree }
    | (.error error, tree) =>
      { exitCode := 1, stderr := errorLine error, tree, error := some error }

end Phrasebook.CommandLine
