/-
**Records are read from all of their layouts.**

Entity values, entities, configurations, manifests and settings are written with all their fields in
order. They may be read from much else: `fieldLayouts` says for each of them how a field is laid out
and which default it has, and the layouts of records inside are layouts of these, in lists,
dictionaries and optional values.

`records_ignore_layout` says that each of the five is read as the same value from every text that
holds one of its layouts, however what is written was edited, and is refused wherever a field stands
twice.
-/

import Phrasebook.Manifest
import Phrasebook.Proofs.RecordReaders
import Phrasebook.Settings

namespace Phrasebook

open Json Draft

/-! ### Texts -/

/-- The record is read from its layouts, and refused where a field is repeated. -/
structure Json.RecordFormat.IgnoresLayout {α σ : Type} (record : RecordFormat α σ)
    (fields : List (FieldLayout α)) : Prop where
  /-- Edits of the members that are written lay out the same value. -/
  edited : ∀ value members, EditedMembers fields value (writeFields record.fields value) members →
    (Layout.record fields).lays value (exact (.object members))
  /-- So does the array of the fields in their order. -/
  items : ∀ value,
    (Layout.record fields).lays value (exact (.array (fieldItems record.fields value)))
  /-- A text that holds a layout of a value is read as the value. -/
  reads : ∀ value text, (Layout.record fields).lays value (Draft.ofText text).1 →
    (Draft.ofText text).2 = true → record.format.readText text = .ok value
  /-- So is every text that writes a layout, with white space as one likes. -/
  readsSpelled : ∀ value json text before after, (Layout.record fields).lays value (exact json) →
    Spells json text → IsGap before → IsGap after →
      record.format.readText (String.ofList (before ++ (text ++ after))) = .ok value
  /-- No text is read in which a field stands twice, here or in a record inside. -/
  refuses : ∀ text, (Layout.record fields).repeats (Draft.ofText text).1 →
    ∃ fault, record.format.readText text = .error fault

theorem Json.RecordFormat.Follows.ignoresLayout {α σ : Type} {record : RecordFormat α σ}
    {fields : List (FieldLayout α)} {held : α → (String → Bool) → σ}
    (follows : record.Follows fields held) (distinct : (fields.map (·.name)).Nodup) :
    record.IgnoresLayout fields where
  edited value members edits :=
    .inl ⟨_, rfl, (follows.membersLay_write value).edited distinct edits⟩
  items value := .inr ⟨_, rfl, itemsLay_fieldItems follows.fields value⟩
  reads value text lays complete :=
    Format.readText_eq_ok_iff.mpr ⟨complete, follows.format.accepts lays⟩
  readsSpelled value json text before after lays spelled beforeWhite afterWhite := by
    rw [Format.readText, spelled.ofText_eq beforeWhite afterWhite]
    exact bind_eq_ok_iff.mpr ⟨value, follows.format.accepts lays, rfl⟩
  refuses text repeats := by
    cases read : record.format.readText text with
    | error fault => exact ⟨fault, rfl⟩
    | ok value =>
      exact absurd (Format.readText_eq_ok_iff.mp read).2 (follows.format.refuses repeats)

/-! ### Parts of records -/

theorem GenericIntent.parse_code (intent : GenericIntent) : parse intent.code = .ok intent := by
  cases intent <;> rfl

theorem restores_genericIntent : GenericIntent.format.Restores :=
  Format.restores_string.refined GenericIntent.parse_code

theorem restores_intent : Intent.format.Restores := by
  rintro (name | intent)
  · rfl
  · have read : Intent.readVariant "generic" (.exact (GenericIntent.format.write intent)) =
        .ok (.generic intent) := by
      rw [Intent.readVariant, if_neg (by decide), if_pos rfl, restores_genericIntent intent]
      rfl
    exact bind_eq_ok_iff.mpr ⟨.generic intent, read, rfl⟩

theorem restores_path : Path.format.Restores := Format.restores_string.renamed fun _ => rfl

/-! ### Parts that were read -/

section Taken

variable {β : Type} {read : Bool}

/-- A part that must not be missing is there. -/
theorem taken_of_needed {part : β} (needed : read = false → none = some part) :
    taken read part = some part := by
  cases read with
  | false => cases needed rfl
  | true => rfl

/-- A part that was left out is the default. -/
theorem getD_taken {part default : β} (left : read = false → some default = some part) :
    (taken read part).getD default = part := by
  cases read with
  | false => exact Option.some.inj (left rfl)
  | true => rfl

theorem join_taken {part : Option β} (left : read = false → some none = some part) :
    (taken read part).join = part := by
  cases read with
  | false => exact Option.some.inj (left rfl)
  | true => rfl

end Taken

/-! ### Entities -/

namespace Entity.Value

/-- An entity value of which the fields with the names in `seen` were read. -/
def held (value : Entity.Value) (seen : String → Bool) : Entity.Value.Fields where
  value := taken (seen "value") value.value
  synonyms := taken (seen "synonyms") value.synonyms

/-- The fields of an entity value; the synonyms may be left out. -/
def fieldLayouts : List (FieldLayout Entity.Value) := [
  .of "value" (·.value) (.written .string) none,
  .of "synonyms" (·.synonyms) (.written (.list .string)) (some [])]

theorem marks : ∀ field ∈ record.fields, field.Marks record.fields := by
  simp only [record, List.forall_mem_cons]
  exact ⟨.of (by simp [Field.of]), .of (by simp [Field.of]), List.forall_mem_nil _⟩

theorem follows : record.Follows fieldLayouts held where
  distinct := by decide
  start_eq _ := rfl
  fields :=
    .cons (.of Format.restores_string.follows (fun _ _ => rfl) (fun _ _ => rfl) nofun
      fun _ => rfl) <|
    .cons (.of Format.restores_string.list.follows (fun _ _ => rfl) (fun _ _ => rfl) nofun
      nofun) .nil
  marks := marks
  finish_eq value seen missing := by
    simp only [fieldLayouts, List.forall_mem_cons] at missing
    obtain ⟨text, synonyms, _⟩ := missing
    have text : taken (seen "value") value.value = some value.value := taken_of_needed text
    have synonyms : (taken (seen "synonyms") value.synonyms).getD [] = value.synonyms :=
      getD_taken synonyms
    simp only [record, held, text, synonyms]
    rfl

/-- How an entity value is laid out. -/
def layout : Layout Entity.Value := .record fieldLayouts

theorem follows_layout : format.Follows layout := follows.format

end Entity.Value

namespace Entity

/-- An entity of which the fields with the names in `seen` were read. -/
def held (entity : Entity) (seen : String → Bool) : Entity.Fields where
  kind := taken (seen "type") entity.kind
  values := taken (seen "values") entity.values

/-- The fields of an entity; the values may be left out. -/
def fieldLayouts : List (FieldLayout Entity) := [
  .of "type" (·.kind) (.written .string) none,
  .of "values" (·.values) (.optional (.dictionary (.list Entity.Value.layout))) (some none)]

theorem follows_enumeration : Format.Follows
    (.optional (.dictionary (.list Entity.Value.format)))
    (.optional (.dictionary (.list Entity.Value.layout))) :=
  Entity.Value.follows_layout.list.dictionary.optional
    (by rintro _ ⟨_, _, impossible, _⟩; cases impossible)
    (by rintro ⟨_, _, impossible, _⟩; cases impossible)

theorem marks : ∀ field ∈ record.fields, field.Marks record.fields := by
  simp only [record, List.forall_mem_cons]
  exact ⟨.of (by simp [Field.of]), .of (by simp [Field.of]), List.forall_mem_nil _⟩

theorem follows : record.Follows fieldLayouts held where
  distinct := by decide
  start_eq _ := rfl
  fields :=
    .cons (.of Format.restores_string.follows (fun _ _ => rfl) (fun _ _ => rfl) nofun
      fun _ => rfl) <|
    .cons (.of follows_enumeration (fun _ _ => rfl) (fun _ _ => rfl)
      (fun _ hidden => by obtain rfl := Option.isNone_iff_eq_none.mp hidden; exact ⟨rfl, rfl⟩)
      nofun) .nil
  marks := marks
  finish_eq entity seen missing := by
    simp only [fieldLayouts, List.forall_mem_cons] at missing
    obtain ⟨kind, values, _⟩ := missing
    have kind : taken (seen "type") entity.kind = some entity.kind := taken_of_needed kind
    have values : (taken (seen "values") entity.values).join = entity.values := join_taken values
    simp only [record, held, kind, values]
    rfl

end Entity

/-! ### Configurations and manifests -/

namespace Configuration

/-- A configuration of which the fields with the names in `seen` were read. -/
def held (configuration : Configuration) (seen : String → Bool) :
    Configuration.Fields where
  intent := taken (seen "intent") configuration.intent
  utterances := taken (seen "utterances") configuration.utterances
  entities := taken (seen "entities") configuration.entities

/-- The fields of a configuration, all of which are needed. -/
def fieldLayouts : List (FieldLayout Configuration) := [
  .of "intent" (·.intent) (.written Intent.format) none,
  .of "utterances" (·.utterances) (.written (.list .string)) none,
  .of "entities" (·.entities) (.written (.list .string)) none]

theorem marks : ∀ field ∈ record.fields, field.Marks record.fields := by
  simp only [record, List.forall_mem_cons]
  exact ⟨.of (by simp [Field.of]), .of (by simp [Field.of]), .of (by simp [Field.of]),
    List.forall_mem_nil _⟩

theorem follows : record.Follows fieldLayouts held where
  distinct := by decide
  start_eq _ := rfl
  fields :=
    .cons (.of restores_intent.follows (fun _ _ => rfl) (fun _ _ => rfl) nofun fun _ => rfl) <|
    .cons (.of Format.restores_string.list.follows (fun _ _ => rfl) (fun _ _ => rfl) nofun
      fun _ => rfl) <|
    .cons (.of Format.restores_string.list.follows (fun _ _ => rfl) (fun _ _ => rfl) nofun
      fun _ => rfl) .nil
  marks := marks
  finish_eq configuration seen missing := by
    simp only [fieldLayouts, List.forall_mem_cons] at missing
    obtain ⟨intent, utterances, entities, _⟩ := missing
    have intent : taken (seen "intent") configuration.intent = some configuration.intent :=
      taken_of_needed intent
    have utterances : taken (seen "utterances") configuration.utterances =
      some configuration.utterances := taken_of_needed utterances
    have entities : taken (seen "entities") configuration.entities =
      some configuration.entities := taken_of_needed entities
    simp only [record, held, intent, utterances, entities]
    rfl

/-- How a configuration is laid out. -/
def layout : Layout Configuration := .record fieldLayouts

theorem follows_layout : format.Follows layout := follows.format

end Configuration

namespace Manifest

/-- A manifest of which the fields with the names in `seen` were read. -/
def held (manifest : Manifest) (seen : String → Bool) : Manifest.Fields where
  language := taken (seen "language") manifest.language
  fingerprint := taken (seen "fingerprint") manifest.fingerprint
  intents := taken (seen "intents") manifest.intents

/-- The fields of a manifest, all of which are needed. -/
def fieldLayouts : List (FieldLayout Manifest) := [
  .of "language" (·.language) (.written .string) none,
  .of "fingerprint" (·.fingerprint) (.written .string) none,
  .of "intents" (·.intents) (.list Configuration.layout) none]

theorem marks : ∀ field ∈ record.fields, field.Marks record.fields := by
  simp only [record, List.forall_mem_cons]
  exact ⟨.of (by simp [Field.of]), .of (by simp [Field.of]), .of (by simp [Field.of]),
    List.forall_mem_nil _⟩

theorem follows : record.Follows fieldLayouts held where
  distinct := by decide
  start_eq _ := rfl
  fields :=
    .cons (.of Format.restores_string.follows (fun _ _ => rfl) (fun _ _ => rfl) nofun
      fun _ => rfl) <|
    .cons (.of Format.restores_string.follows (fun _ _ => rfl) (fun _ _ => rfl) nofun
      fun _ => rfl) <|
    .cons (.of Configuration.follows_layout.list (fun _ _ => rfl) (fun _ _ => rfl) nofun
      fun _ => rfl) .nil
  marks := marks
  finish_eq manifest seen missing := by
    simp only [fieldLayouts, List.forall_mem_cons] at missing
    obtain ⟨language, fingerprint, intents, _⟩ := missing
    have language : taken (seen "language") manifest.language = some manifest.language :=
      taken_of_needed language
    have fingerprint : taken (seen "fingerprint") manifest.fingerprint =
      some manifest.fingerprint := taken_of_needed fingerprint
    have intents : taken (seen "intents") manifest.intents = some manifest.intents :=
      taken_of_needed intents
    simp only [record, held, language, fingerprint, intents]
    rfl

end Manifest

/-! ### Settings -/

namespace Settings

/-- Settings of which the fields with the names in `seen` were read. -/
def held (settings : Settings) (seen : String → Bool) : Settings.Fields where
  templateDirectory := taken (seen "utterancePath") settings.templateDirectory
  templateFile := taken (seen "templateFileName") settings.templateFile
  entityFile := taken (seen "entitiesPath") settings.entityFile
  intents := taken (seen "intents") settings.intents
  genericIntents := taken (seen "genericIntents") settings.genericIntents

/-- The fields of settings; all but the directory of the templates may be left out. -/
def fieldLayouts : List (FieldLayout Settings) := [
  .of "utterancePath" (·.templateDirectory) (.written Path.format) none,
  .of "templateFileName" (·.templateFile) (.written .string) (some defaultTemplateFile),
  .of "entitiesPath" (·.entityFile) (.written (.optional Path.format)) (some none),
  .of "intents" (·.intents) (.written (.list .string)) (some []),
  .of "genericIntents" (·.genericIntents) (.written (.list GenericIntent.format)) (some [])]

theorem marks : ∀ field ∈ record.fields, field.Marks record.fields := by
  simp only [record, List.forall_mem_cons]
  exact ⟨.of (by simp [Field.of]), .of (by simp [Field.of]), .of (by simp [Field.of]),
    .of (by simp [Field.of]), .of (by simp [Field.of]), List.forall_mem_nil _⟩

theorem follows : record.Follows fieldLayouts held where
  distinct := by decide
  start_eq _ := rfl
  fields :=
    .cons (.of restores_path.follows (fun _ _ => rfl) (fun _ _ => rfl) nofun fun _ => rfl) <|
    .cons (.of Format.restores_string.follows (fun _ _ => rfl) (fun _ _ => rfl) nofun nofun) <|
    .cons (.of (restores_path.optional nofun).follows (fun _ _ => rfl) (fun _ _ => rfl) nofun
      nofun) <|
    .cons (.of Format.restores_string.list.follows (fun _ _ => rfl) (fun _ _ => rfl) nofun nofun) <|
    .cons (.of restores_genericIntent.list.follows (fun _ _ => rfl) (fun _ _ => rfl) nofun
      nofun) .nil
  marks := marks
  finish_eq settings seen missing := by
    simp only [fieldLayouts, List.forall_mem_cons] at missing
    obtain ⟨directory, file, entities, intents, generics, _⟩ := missing
    have directory : taken (seen "utterancePath") settings.templateDirectory =
      some settings.templateDirectory := taken_of_needed directory
    have file : (taken (seen "templateFileName") settings.templateFile).getD defaultTemplateFile =
      settings.templateFile := getD_taken file
    have entities : (taken (seen "entitiesPath") settings.entityFile).join = settings.entityFile :=
      join_taken entities
    have intents : (taken (seen "intents") settings.intents).getD [] = settings.intents :=
      getD_taken intents
    have generics : (taken (seen "genericIntents") settings.genericIntents).getD [] =
      settings.genericIntents := getD_taken generics
    simp only [record, held, directory, file, entities, intents, generics]
    rfl

end Settings

/-! ### Reading -/

/-- **Reading does not mind the layout.** Entity values, entities, configurations, manifests and
settings are read as the same value from every text that holds a layout of it, such as what comes of
permuting the written members, leaving out those at their default and putting others in between, or
the array of the fields; and no text is read in which a field stands twice. -/
theorem records_ignore_layout :
    Entity.Value.record.IgnoresLayout Entity.Value.fieldLayouts ∧
      Entity.record.IgnoresLayout Entity.fieldLayouts ∧
      Configuration.record.IgnoresLayout Configuration.fieldLayouts ∧
      Manifest.record.IgnoresLayout Manifest.fieldLayouts ∧
      Settings.record.IgnoresLayout Settings.fieldLayouts :=
  ⟨Entity.Value.follows.ignoresLayout (by decide), Entity.follows.ignoresLayout (by decide),
    Configuration.follows.ignoresLayout (by decide), Manifest.follows.ignoresLayout (by decide),
    Settings.follows.ignoresLayout (by decide)⟩

/-- Settings in another order, without what is at its default and with other members between. -/
theorem settings_among_other_members :
    let settings : Settings := ⟨⟨"u"⟩, defaultTemplateFile, none, [], [.help]⟩
    let members : List (String × Json) := [("x", .array [.object [("y", .null)]]),
      ("genericIntents", .array [.string "help"]), ("utterancePath", .string "u"), ("x", .null)]
    Settings.format.readText (Json.compact (.object members)) = .ok settings ∧
      ∃ fault, Settings.format.readText
        (Json.compact (.object (("utterancePath", .null) :: members))) = .error fault := by
  intro settings members
  have lays : MembersLay Settings.fieldLayouts settings (exactMembers members) := by
    refine ⟨⟨by decide, ?_, ?_⟩, ?_⟩
    · have written : exact (.string "u") = exact (Path.format.write settings.templateDirectory) ∧
          exact (.array [.string "help"]) =
            exact ((Format.list GenericIntent.format).write settings.genericIntents) := ⟨rfl, rfl⟩
      simpa [Settings.fieldLayouts, FieldLayout.of, Layout.written, members, exactMembers]
    · have whole : (exact (.array [.object [("y", .null)]])).isWhole = true ∧
          (exact .null).isWhole = true := ⟨isWhole_exact _, isWhole_exact _⟩
      simpa [Settings.fieldLayouts, FieldLayout.of, members, exactMembers]
    · have default : defaultTemplateFile = settings.templateFile ∧ none = settings.entityFile ∧
          settings.intents = [] := ⟨rfl, rfl, rfl⟩
      simpa [Settings.fieldLayouts, FieldLayout.of, members, exactMembers]
  have drafted (members : List (String × Json)) :
      Draft.ofText (Json.compact (.object members)) = (exact (.object members), true) := by
    have scanned := (spells_writeCompact (.object members)).ofText_eq isGap_nil isGap_nil
    rwa [List.append_nil] at scanned
  obtain ⟨_, _, _, _, ignores⟩ := records_ignore_layout
  constructor
  · refine ignores.reads settings _ ?_ ?_ <;> rw [drafted]
    exact .inl ⟨_, rfl, lays⟩
  · refine ignores.refuses _ ?_
    rw [drafted]
    exact .inl ⟨_, true, rfl, _, List.mem_cons_self, .inl (by decide)⟩

end Phrasebook
