/-
**Compiling values in memory.**

`compileValues` compiles one language for a host program that has the templates and the entities as
JSON values and the intents as names. It gives the configurations as a JSON value, or the first
complaint: about the templates, the entities, a generic intent's name, or the compilation.
-/

import Phrasebook.Compilation
import Phrasebook.Formats.Entity
import Phrasebook.Manifest

namespace Phrasebook

open Json

/-- Reads a value in memory, or gives the fault in words. -/
def readOrExplain {α : Type} (format : Format α) (value : Json) : Except String α :=
  (format.readValue value).mapError Fault.message

/-- Compiles the templates of a language for explicit intents, then generic ones. -/
def compileValues (language : String) (templates entities : Json)
    (intents genericIntents : List String) : Except String Json := do
  let templates ← readOrExplain TemplateTable.format templates
  let table ← readOrExplain EntityTable.format entities
  let generics ← genericIntents.mapM GenericIntent.parse
  let declared := intents.map Intent.explicit ++ generics.map Intent.generic
  match compileTemplates declared [] table.catalog language templates with
  | .ok compilation => return configurationsFormat.write compilation.configurations
  | .error error => .error error.message

end Phrasebook
