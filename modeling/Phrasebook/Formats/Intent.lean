/-
**The JSON formats of intents and configurations.**

An intent is an object with one member, whose key says whether the intent is explicit or generic.
-/

import Phrasebook.Intent
import Phrasebook.Json.Format

namespace Phrasebook

open Json

/-- The format of generic intents, which are written by their code and read from any spelling of
their names. -/
def GenericIntent.format : Format GenericIntent :=
  .refined .string GenericIntent.code GenericIntent.parse

namespace Intent

/-- What kinds of intent there are, in words. -/
def variants : String := "`explicit` or `generic`"

/-- Reads what stands under the key that says the kind of intent. -/
def readVariant (key : String) (draft : Draft) : Except Fault Intent :=
  if key = "explicit" then (Format.string.read draft).map .explicit
  else if key = "generic" then (GenericIntent.format.read draft).map .generic
  else .error (.unknownVariant key variants)

/-- Reads an intent. Of an object with several members only the first is looked at before the object
is refused. -/
def read : Draft → Except Fault Intent
  | .object ((some key, draft) :: members) closed => do
    let intent ← readVariant key draft
    if members.isEmpty && closed then .ok intent else .error .malformed
  | .string (some name) =>
    if name = "explicit" ∨ name = "generic" then .error (.wrongType .bareVariant "an intent")
    else .error (.unknownVariant name variants)
  | _ => .error .malformed

/-- The intent as an object. -/
def write : Intent → Json
  | explicit name => .object [("explicit", .string name)]
  | generic intent => .object [("generic", GenericIntent.format.write intent)]

/-- The format of intents. -/
def format : Format Intent := ⟨write, read⟩

end Intent

namespace Configuration

/-- The fields of a configuration read so far. -/
structure Fields where
  intent : Option Intent := none
  utterances : Option (List String) := none
  entities : Option (List String) := none

/-- A configuration is its intent, its utterances and its entities. -/
def record : RecordFormat Configuration Fields where
  title := "an intent configuration"
  fields := [
    .of "intent" true Intent.format (·.intent) (·.intent) fun intent fields =>
      { fields with intent := some intent },
    .of "utterances" true (.list .string) (·.utterances) (·.utterances) fun utterances fields =>
      { fields with utterances := some utterances },
    .of "entities" true (.list .string) (·.entities) (·.entities) fun entities fields =>
      { fields with entities := some entities }]
  start := {}
  finish fields := do return ⟨← fields.intent, ← fields.utterances, ← fields.entities⟩

/-- The format of configurations. -/
def format : Format Configuration := record.format

end Configuration

end Phrasebook
