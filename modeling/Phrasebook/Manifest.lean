/-
**Fingerprints and manifests.**

The fingerprint of a list of configurations is the SHA-256 digest of their JSON text without white
space. A manifest is the file that holds the configurations of a language with their fingerprint.
-/

import Phrasebook.Formats.Intent
import Phrasebook.Sha256

namespace Phrasebook

open Json

/-- The format of lists of configurations. -/
def configurationsFormat : Format (List Configuration) := .list Configuration.format

/-- The digest that identifies a list of configurations. -/
def fingerprintOf (configurations : List Configuration) : String :=
  Sha256.hex (configurationsFormat.text configurations).toUTF8

/-- The configurations of a language with their fingerprint. -/
structure Manifest where
  language : String
  fingerprint : String
  intents : List Configuration
  deriving DecidableEq, Repr

namespace Manifest

/-- The manifest of the configurations of a language. -/
def ofConfigurations (language : String) (configurations : List Configuration) : Manifest :=
  ⟨language, fingerprintOf configurations, configurations⟩

/-- The fields of a manifest read so far. -/
structure Fields where
  language : Option String := none
  fingerprint : Option String := none
  intents : Option (List Configuration) := none

/-- A manifest is its language, its fingerprint and its configurations. -/
def record : RecordFormat Manifest Fields where
  title := "an intents manifest"
  fields := [
    .of "language" true .string (·.language) (·.language) fun language fields =>
      { fields with language := some language },
    .of "fingerprint" true .string (·.fingerprint) (·.fingerprint) fun fingerprint fields =>
      { fields with fingerprint := some fingerprint },
    .of "intents" true configurationsFormat (·.intents) (·.intents) fun intents fields =>
      { fields with intents := some intents }]
  start := {}
  finish fields := do return ⟨← fields.language, ← fields.fingerprint, ← fields.intents⟩

/-- The format of manifests. -/
def format : Format Manifest := record.format

end Manifest

end Phrasebook
