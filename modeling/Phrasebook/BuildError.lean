/-
**Build errors.**

Each error has a code, a message, and the guarantee of a build that does not hold.
-/

import Phrasebook.FileTree.Basic
import Phrasebook.Json.Fault
import Phrasebook.Json.PlacedReason

namespace Phrasebook

/-- What a file operation was for. -/
inductive FilePurpose where
  | readConfiguration
  | readCatalog
  | readTemplates
  | createBuildDirectory
  deriving DecidableEq, Repr

/-- The purpose in words. -/
def FilePurpose.words : FilePurpose → String
  | readConfiguration => "read configuration"
  | readCatalog => "read entity catalog"
  | readTemplates => "read template file"
  | createBuildDirectory => "create build directory"

/-- Why a directory could not be scanned. -/
inductive ScanFault where
  | file (path : Path) (error : FileError)
  | loop (path ancestor : Path)
  deriving DecidableEq, Repr

/-- The fault in words. -/
def ScanFault.message : ScanFault → String
  | file path error => "IO error for operation on " ++ path.text ++ ": " ++ error.message
  | loop path ancestor =>
    "File system loop found: " ++ path.text ++ " points to an ancestor " ++ ancestor.text

/-- Why a build failed. -/
inductive BuildError where
  | unknownEntity (entity intent language : String) (known : List String)
  | leftoverPlaceholder (utterance intent language : String)
  | file (purpose : FilePurpose) (path : Path) (error : FileError)
  | scan (directory : Path) (fault : ScanFault)
  | malformedTemplates (path : Path) (fault : Json.Fault)
  | malformedSettings (path : Path) (fault : Json.Fault)
  | generatorFailed (generator language reason : String)
  | serviceFailed (service language reason : String)
  | notWritable (reason : Json.PlacedReason)

namespace BuildError

/-- The code of the error. -/
def code : BuildError → String
  | unknownEntity .. => "UC-ERR-ENTITY-001"
  | leftoverPlaceholder .. => "UC-ERR-TEMPLATE-002"
  | file .. => "UC-ERR-IO-001"
  | scan .. => "UC-ERR-IO-002"
  | malformedTemplates .. => "UC-ERR-TEMPLATE-001"
  | malformedSettings .. => "UC-ERR-CONFIG-001"
  | generatorFailed .. => "UC-ERR-PLUGIN-001"
  | serviceFailed .. => "UC-ERR-PLUGIN-002"
  | notWritable .. => "UC-ERR-SERIALIZE-001"

/-- The guarantee that does not hold. -/
def guarantee : BuildError → String
  | unknownEntity .. =>
    "Every entity referenced by an utterance has a mapping in the entity catalog."
  | leftoverPlaceholder .. =>
    "Utterances handed to platform generators contain no unresolved placeholders."
  | file .. | scan .. => "Template files and output directories are accessible."
  | malformedTemplates .. => "Template files map intent keys to lists of template strings."
  | malformedSettings .. => "Compiler configuration and entity catalog files are well-formed."
  | generatorFailed .. => "Every platform generator completes for every language."
  | serviceFailed .. => "Every template service contributes templates for every language."
  | notWritable .. => "Intent configurations are serializable."

/-- The message without the fault inside a malformed file. -/
def summary : BuildError → String
  | unknownEntity entity intent language known =>
    "Unknown entity '" ++ entity ++ "' found in utterances of intent '" ++ intent ++
      "' (language '" ++ language ++ "'). Either you misspelled your entity in one of the " ++
      "intents utterances or you did not define a type mapping for it. Your configured entity " ++
      "mappings are: " ++ Text.quotedList known
  | leftoverPlaceholder utterance intent language =>
    "Unresolved placeholder in utterance '" ++ utterance ++ "' of intent '" ++ intent ++
      "' (language '" ++ language ++ "'). Slot groups need at least one alternative and entity " ++
      "names may only contain letters, digits and underscores."
  | file purpose path error =>
    "Failed to " ++ purpose.words ++ " " ++ path.text ++ ": " ++ error.message
  | scan directory fault => "Failed to scan " ++ directory.text ++ ": " ++ fault.message
  | malformedTemplates path _ => "Invalid utterance template file " ++ path.text
  | malformedSettings path _ => "Invalid configuration file " ++ path.text
  | generatorFailed generator language reason =>
    "Platform generator '" ++ generator ++ "' failed for language '" ++ language ++ "': " ++ reason
  | serviceFailed service language reason =>
    "Utterance template service '" ++ service ++ "' failed for language '" ++ language ++ "': " ++
      reason
  | notWritable reason => "Failed to serialize intent configurations: " ++ reason.text

/-- The fault inside a malformed file. -/
def fault? : BuildError → Option Json.Fault
  | malformedTemplates _ fault | malformedSettings _ fault => some fault
  | _ => none

/-- The error in words. -/
def message (error : BuildError) : String :=
  match error.fault? with
  | some fault => error.summary ++ ": " ++ fault.message
  | none => error.summary

end BuildError

end Phrasebook
