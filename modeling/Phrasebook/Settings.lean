/-
**Settings of a build.**

The settings say where the templates are, how the template files are called, where the entity
catalog is, and which intents are declared. They are read from a JSON file, in which relative paths
start from the directory of that file.
-/

import Phrasebook.BuildError
import Phrasebook.FileTree.Operations
import Phrasebook.Formats.Entity
import Phrasebook.Formats.Intent

namespace Phrasebook

open Json

/-- What a build is to work on. -/
structure Settings where
  /-- The directory with one directory for each language. -/
  templateDirectory : Path
  templateFile : String
  /-- The file of the entity catalog. -/
  entityFile : Option Path
  /-- The names of the explicit intents. -/
  intents : List String
  genericIntents : List GenericIntent
  deriving DecidableEq, Repr

/-- The name of template files unless the settings have another one. -/
def defaultTemplateFile : String := "utterances.json"

/-- The format of paths. -/
def Path.format : Format Path := .renamed .string Path.text Path.mk

namespace Settings

/-- The settings with nothing but the directory of the templates. -/
def ofDirectory (templateDirectory : Path) : Settings :=
  ⟨templateDirectory, defaultTemplateFile, none, [], []⟩

/-- The explicit intents, then the generic ones, in the order of declaration. -/
def declared (settings : Settings) : List Intent :=
  settings.intents.map .explicit ++ settings.genericIntents.map .generic

/-- The fields of settings read so far. -/
structure Fields where
  templateDirectory : Option Path := none
  templateFile : Option String := none
  entityFile : Option (Option Path) := none
  intents : Option (List String) := none
  genericIntents : Option (List GenericIntent) := none

/-- Settings need the directory of the templates; all else has a default. -/
def record : RecordFormat Settings Fields where
  title := "settings"
  fields := [
    .of "utterancePath" true Path.format (·.templateDirectory) (·.templateDirectory)
      fun path fields => { fields with templateDirectory := some path },
    .of "templateFileName" false .string (·.templateFile) (·.templateFile)
      fun name fields => { fields with templateFile := some name },
    .of "entitiesPath" false (.optional Path.format) (·.entityFile) (·.entityFile)
      fun path fields => { fields with entityFile := some path },
    .of "intents" false (.list .string) (·.intents) (·.intents) fun intents fields =>
      { fields with intents := some intents },
    .of "genericIntents" false (.list GenericIntent.format) (·.genericIntents) (·.genericIntents)
      fun intents fields => { fields with genericIntents := some intents }]
  start := {}
  finish fields := do
    return ⟨← fields.templateDirectory, fields.templateFile.getD defaultTemplateFile,
      fields.entityFile.join, fields.intents.getD [], fields.genericIntents.getD []⟩

/-- The format of settings. -/
def format : Format Settings := record.format

/-- The settings with relative paths starting from a directory. -/
def rebase (settings : Settings) (directory : Path) : Settings :=
  { settings with
    templateDirectory := directory.join settings.templateDirectory
    entityFile := settings.entityFile.map directory.join }

/-- The settings in a file. -/
def load (tree : FileTree) (path : Path) : Except BuildError Settings :=
  match tree.readText path with
  | .error error => .error (.file .readConfiguration path error)
  | .ok text =>
    match format.readText text with
    | .error fault => .error (.malformedSettings path fault)
    | .ok settings => .ok ((path.parent?.map settings.rebase).getD settings)

end Settings

/-- The entity table in a file. -/
def EntityTable.load (tree : FileTree) (path : Path) : Except BuildError EntityTable :=
  match tree.readText path with
  | .error error => .error (.file .readCatalog path error)
  | .ok text =>
    match EntityTable.format.readText text with
    | .error fault => .error (.malformedSettings path fault)
    | .ok table => .ok table

end Phrasebook
