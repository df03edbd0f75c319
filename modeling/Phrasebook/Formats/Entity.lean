/-
**The JSON formats of entities, their tables, and template tables.**
-/

import Phrasebook.Entity
import Phrasebook.Json.Format
import Phrasebook.TemplateTable

namespace Phrasebook

open Json

/-- The fields of an entity value read so far. -/
structure Entity.Value.Fields where
  value : Option String := none
  synonyms : Option (List String) := none

/-- An entity value is its value and, unless there are none, its synonyms. -/
def Entity.Value.record : RecordFormat Entity.Value Entity.Value.Fields where
  title := "an entity value"
  fields := [
    .of "value" true .string (·.value) (·.value) fun value fields =>
      { fields with value := some value },
    .of "synonyms" false (.list .string) (·.synonyms) (·.synonyms) fun synonyms fields =>
      { fields with synonyms := some synonyms }]
  start := {}
  finish fields := do return ⟨← fields.value, fields.synonyms.getD []⟩

/-- The format of entity values. -/
def Entity.Value.format : Format Entity.Value := Entity.Value.record.format

/-- The fields of an entity read so far. -/
structure Entity.Fields where
  kind : Option String := none
  values : Option (Option (Dictionary String (List Entity.Value))) := none

/-- An entity is its kind and, where they are enumerated, its values by language. -/
def Entity.record : RecordFormat Entity Entity.Fields where
  title := "an entity"
  fields := [
    .of "type" true .string (·.kind) (·.kind) fun kind fields => { fields with kind := some kind },
    .of "values" false (.optional (.dictionary (.list Entity.Value.format))) (·.values) (·.values)
      (fun values fields => { fields with values := some values }) Option.isNone]
  start := {}
  finish fields := do return ⟨← fields.kind, fields.values.join⟩

/-- The format of entities. -/
def Entity.format : Format Entity := Entity.record.format

/-- The format of entity tables. -/
def EntityTable.format : Format EntityTable := .dictionary Entity.format

/-- The format of template tables. -/
def TemplateTable.format : Format TemplateTable := .dictionary (.list .string)

end Phrasebook
