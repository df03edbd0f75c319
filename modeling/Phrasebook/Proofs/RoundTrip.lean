/-
**What is written is read back.**

Every type that is written to files restores its values (`restores_entityTable`,
`restores_manifest`, `restores_settings` and the others), so it reads them back from its texts
(`written_values_read_back`). In particular the text that is hashed for a fingerprint tells the
configurations.
-/

import Phrasebook.Proofs.RecordLayouts

namespace Phrasebook

open Json

theorem restores_configurations : configurationsFormat.Restores :=
  Configuration.follows_layout.restores.list

theorem restores_manifest : Manifest.format.Restores := Manifest.follows.format.restores

theorem restores_entityValue : Entity.Value.format.Restores :=
  Entity.Value.follows_layout.restores

theorem restores_entity : Entity.format.Restores := Entity.follows.format.restores

theorem restores_entityTable : EntityTable.format.Restores := restores_entity.dictionary

theorem restores_templateTable : TemplateTable.format.Restores :=
  Format.restores_string.list.dictionary

theorem restores_settings : Settings.format.Restores := Settings.follows.format.restores

/-! ### Reading back -/

/-- The format reads each value back from its text without white space. -/
def Json.Format.ReadsBack {α : Type} (format : Format α) : Prop :=
  ∀ value, format.readText (format.text value) = .ok value

/-- **Every value that is written is read back from its text**, whatever characters stand in its
texts and however long its lists are; and the bytes that are hashed for a fingerprint are those of
one list of configurations only. -/
theorem written_values_read_back :
    GenericIntent.format.ReadsBack ∧ Intent.format.ReadsBack ∧ configurationsFormat.ReadsBack ∧
      Manifest.format.ReadsBack ∧ TemplateTable.format.ReadsBack ∧
      Entity.Value.format.ReadsBack ∧ Entity.format.ReadsBack ∧ EntityTable.format.ReadsBack ∧
      Settings.format.ReadsBack ∧
      Function.Injective fun configurations => (configurationsFormat.text configurations).toUTF8 :=
  ⟨restores_genericIntent.readText_text, restores_intent.readText_text,
    restores_configurations.readText_text, restores_manifest.readText_text,
    restores_templateTable.readText_text, restores_entityValue.readText_text,
    restores_entity.readText_text, restores_entityTable.readText_text,
    restores_settings.readText_text, fun _ _ same =>
      restores_configurations.text_injective (String.toByteArray_inj.mp same)⟩

/-- Quotes, backslashes, control characters and characters beyond ASCII. -/
example :
    let values := [Entity.Value.mk "\"\\\n\x01" ["ä", ""]]
    let entity : Entity := ⟨"", some (Dictionary.empty.insert "日本" values)⟩
    Entity.format.text entity = "\x7b\"type\":\"\",\"values\":\x7b\"日本\":[\x7b\"value\":" ++
      "\"\\\"\\\\\\n\\u0001\",\"synonyms\":[\"ä\",\"\"]\x7d]\x7d\x7d" := by
  decide +kernel

end Phrasebook
