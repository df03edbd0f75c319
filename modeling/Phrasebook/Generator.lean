/-
**Generators.**

A generator turns the configurations of a language into the files of a platform. It gets a delivery
and the file tree, and gives back the changed tree and a reason if it failed. The JSON generator
writes the manifest of the configurations, a silent one writes nothing.
-/

import Phrasebook.FileTree.Operations
import Phrasebook.Manifest

namespace Phrasebook

/-- What a generator is given. -/
structure Delivery where
  language : String
  outputDirectory : Path
  configurations : List Configuration
  deriving DecidableEq, Repr

/-- A backend for a platform. -/
structure Generator where
  name : String
  run : Delivery → FileTree → Except String Unit × FileTree

namespace Generator

/-- The name of the manifest's file. -/
def manifestFileName : String := "intents.json"

/-- The text of a manifest. -/
def manifestText (pretty : Bool) (manifest : Manifest) : String :=
  if pretty then (Manifest.format.write manifest).pretty else Manifest.format.text manifest

/-- The generator that writes the manifest into the output directory. -/
def json (pretty : Bool) : Generator where
  name := "json"
  run delivery tree :=
    let manifest := Manifest.ofConfigurations delivery.language delivery.configurations
    let path := delivery.outputDirectory.join ⟨manifestFileName⟩
    match tree.writeText path (manifestText pretty manifest) with
    | .ok tree => (.ok (), tree)
    | .error error => (.error error.message, tree)

/-- A generator that writes nothing. It fails for the languages that it has a reason for. -/
def silent (name : String) (reason? : String → Option String) : Generator where
  name := name
  run delivery tree :=
    match reason? delivery.language with
    | none => (.ok (), tree)
    | some reason => (.error reason, tree)

end Generator

end Phrasebook
