/-
**Compiling one language.**

`compileTemplates` adds the templates of all services to those of the language, expands them, and
makes one configuration for each declared intent, in declaration order. It fails at the first intent
that refers to an entity the catalog does not know, or has an utterance with a placeholder left in
it. Templates that no declared intent uses do no harm; their keys are noted.
-/

import Phrasebook.Intent
import Phrasebook.Phrase
import Phrasebook.TemplateTable

namespace Phrasebook

/-! ### Checks -/

/-- Fails at the first name that the catalog does not know. -/
def checkNames (intent : Intent) (language : String) (names : List String) (catalog : Catalog) :
    Except BuildError Unit :=
  match names.find? fun name => (catalog.find? name).isNone with
  | none => .ok ()
  | some name => .error <|
    .unknownEntity name intent.title language (catalog.names.mergeSort (· ≤ ·))

/-- Fails at the first utterance with a placeholder left in it. -/
def checkUtterances (intent : Intent) (language : String) (utterances : List String) :
    Except BuildError Unit :=
  match utterances.find? hasStrayBrace with
  | none => .ok ()
  | some utterance => .error (.leftoverPlaceholder utterance intent.title language)

/-! ### Configurations -/

/-- The configurations of a language, and the keys of the templates that none of them uses. -/
structure Compilation where
  configurations : List Configuration
  unusedKeys : List String
  deriving DecidableEq, Repr

/-- The configuration of an intent with the given templates. -/
def configure (intent : Intent) (expansion : Expansion) (language : String) (catalog : Catalog) :
    Except BuildError Configuration := do
  checkNames intent language expansion.names catalog
  checkUtterances intent language expansion.utterances
  return ⟨intent, expansion.utterances, expansion.names⟩

/-- The configuration of an intent, which is empty when there are no templates under its key. -/
def configureFrom (expansions : Dictionary String Expansion) (language : String) (catalog : Catalog)
    (intent : Intent) : Except BuildError Configuration :=
  match expansions.find? intent.key with
  | none => .ok (.bare intent)
  | some expansion => configure intent expansion language catalog

/-- The configurations of the intents, in order, from the expansions under their keys. -/
def compileExpansions (intents : List Intent) (expansions : Dictionary String Expansion)
    (language : String) (catalog : Catalog) : Except BuildError Compilation := do
  let configurations ← intents.mapM (configureFrom expansions language catalog)
  let used := intents.map Intent.key
  return ⟨configurations, expansions.keys.filter fun key => !used.contains key⟩

/-- Compiles the templates of a language for the declared intents. -/
def compileTemplates (intents : List Intent) (services : List TemplateService)
    (catalog : Catalog) (language : String) (base : TemplateTable) :
    Except BuildError Compilation := do
  let table ← base.withServices services language
  let expansions := table.mapValues fun _ templates =>
    Expansion.ofTemplates templates language catalog
  compileExpansions intents expansions language catalog

/-! ### Warnings -/

/-- A note on templates that no declared intent uses. -/
structure Warning where
  language : String
  key : String
  deriving DecidableEq, Repr

/-- What a warning says. -/
def Warning.message (_ : Warning) : String := "Templates not used by any declared intent"

/-- The warnings of a compilation; a failed one has none. -/
def warningsOf (language : String) (result : Except BuildError Compilation) : List Warning :=
  match result with
  | .ok compilation => compilation.unusedKeys.map fun key => ⟨language, key⟩
  | .error _ => []

end Phrasebook
