/-
**Values in memory read like their texts.**

A host program keeps the members of an object in key order, and of members with the same key only the
last (`Json.kept`). Reading such a value is reading its text (`Format.readText_keptText`): every
format accepts the one exactly if it accepts the other, with the same result, and finds the same
fault otherwise. This holds of all formats at once, so records written as arrays, fields that are
missing or null and fields that nobody asked for need no word of their own.

So compiling values in memory is compiling what their texts say, and `Reply` lists what may come of
it: the first complaint about the templates, the entities, a generic intent or the compilation, and
the configurations when there is none (`compileValues_eq_iff`).
-/

import Phrasebook.InMemory
import Phrasebook.Proofs.Formats

namespace Phrasebook

/-! ### Dictionaries with other values -/

namespace Dictionary

variable {κ α β : Type} [Ord κ]

theorem insertEntry_map (change : α → β) (key : κ) (value : α) (entries : List (κ × α)) :
    insertEntry key (change value) (entries.map fun entry => (entry.1, change entry.2)) =
      (insertEntry key value entries).map fun entry => (entry.1, change entry.2) := by
  induction entries with
  | nil => rfl
  | cons entry entries ih =>
    rw [List.map_cons, insertEntry, insertEntry]
    cases compare key entry.1 with
    | lt => rfl
    | eq => rfl
    | gt => exact congrArg (_ :: ·) ih

variable [Std.TransOrd κ] [Std.LawfulEqOrd κ]

theorem insert_mapValues (change : α → β) (dictionary : Dictionary κ α) (key : κ) (value : α) :
    (dictionary.mapValues fun _ value => change value).insert key (change value) =
      (dictionary.insert key value).mapValues fun _ value => change value :=
  ext (insertEntry_map change key value dictionary.entries)

/-- Values can be changed before the entries are put into a dictionary, or after. -/
theorem ofList_map (change : α → β) (entries : List (κ × α)) :
    ofList (entries.map fun entry => (entry.1, change entry.2)) =
      (ofList entries).mapValues fun _ value => change value := by
  have put : ∀ start : Dictionary κ α,
      (entries.map fun entry => (entry.1, change entry.2)).foldl
          (fun dictionary entry => dictionary.insert entry.1 entry.2)
          (start.mapValues fun _ value => change value) =
        (entries.foldl (fun dictionary entry => dictionary.insert entry.1 entry.2)
          start).mapValues fun _ value => change value := by
    induction entries with
    | nil => exact fun _ => rfl
    | cons entry entries ih =>
      intro start
      rw [List.map_cons, List.foldl_cons, List.foldl_cons, insert_mapValues, ih]
  exact put empty

end Dictionary

/-! ### Values as they are kept -/

namespace Json

mutual

/-- The value as a host program keeps it: the members of an object in key order, and of members with
the same key only the last. -/
def kept : Json → Json
  | .null => .null
  | .bool value => .bool value
  | .number value => .number value
  | .string text => .string text
  | .array items => .array (keptItems items)
  | .object members => .object (Dictionary.ofList (keptMembers members)).entries

/-- Items as they are kept. -/
def keptItems : List Json → List Json
  | [] => []
  | item :: items => kept item :: keptItems items

/-- Members with their values as they are kept. -/
def keptMembers : List (String × Json) → List (String × Json)
  | [] => []
  | (key, value) :: members => (key, kept value) :: keptMembers members

end

/-- The text of a value that is kept in memory. -/
def keptText (value : Json) : String := value.kept.compact

mutual

/-- A value in memory is drafted as it is kept. -/
theorem ofJson_eq_exact : ∀ value : Json, Draft.ofJson value = Draft.exact value.kept
  | .null => rfl
  | .bool _ => rfl
  | .number _ => rfl
  | .string _ => rfl
  | .array items => congrArg (Draft.array · true) (ofItems_eq_exact items)
  | .object members => by
    rw [Draft.ofJson, ofMembers_eq_exact members, Dictionary.ofList_map, kept, Draft.exact,
      Draft.exactMembers_eq]
    simp only [Dictionary.mapValues, List.map_map]
    rfl

theorem ofItems_eq_exact :
    ∀ items : List Json, Draft.ofItems items = Draft.exactItems (keptItems items)
  | [] => rfl
  | item :: items => by
    rw [Draft.ofItems, ofJson_eq_exact item, ofItems_eq_exact items]
    rfl

theorem ofMembers_eq_exact : ∀ members : List (String × Json),
    Draft.ofMembers members =
      (keptMembers members).map fun member => (member.1, Draft.exact member.2)
  | [] => rfl
  | (key, value) :: members => by
    rw [Draft.ofMembers, ofJson_eq_exact value, ofMembers_eq_exact members]
    rfl

end

/-- **Reading a value in memory is reading its text.** -/
theorem Format.readText_keptText {α : Type} (format : Format α) (value : Json) :
    format.readText value.keptText = format.readValue value := by
  have drafted := (spells_writeCompact value.kept).ofText_eq isGap_nil isGap_nil
  rw [List.nil_append, List.append_nil] at drafted
  rw [readValue, ofJson_eq_exact, readText, keptText, compact, drafted]
  simp only [if_true]
  cases format.read (Draft.exact value.kept) <;> rfl

end Json

/-! ### Compiling -/

open Json

/-- What comes of compiling values in memory: the first complaint, or the configurations. -/
inductive Reply (language : String) (templates entities : Json)
    (intents genericIntents : List String) : Except String Json → Prop where
  | badTemplates {fault : Fault} :
      TemplateTable.format.readText templates.keptText = .error fault →
      Reply language templates entities intents genericIntents (.error fault.message)
  | badEntities {table : TemplateTable} {fault : Fault} :
      TemplateTable.format.readText templates.keptText = .ok table →
      EntityTable.format.readText entities.keptText = .error fault →
      Reply language templates entities intents genericIntents (.error fault.message)
  | unknownIntent {table : TemplateTable} {entityTable : EntityTable} {before after : List String}
      {name : String} :
      TemplateTable.format.readText templates.keptText = .ok table →
      EntityTable.format.readText entities.keptText = .ok entityTable →
      genericIntents = before ++ name :: after →
      (∀ earlier ∈ before, ∃ intent, GenericIntent.ofName? earlier = some intent) →
      GenericIntent.ofName? name = none →
      Reply language templates entities intents genericIntents
        (.error (GenericIntent.unknownMessage name))
  | notCompiled {table : TemplateTable} {entityTable : EntityTable} {generics : List GenericIntent}
      {error : BuildError} :
      TemplateTable.format.readText templates.keptText = .ok table →
      EntityTable.format.readText entities.keptText = .ok entityTable →
      List.Forall₂ (fun name intent => GenericIntent.ofName? name = some intent)
        genericIntents generics →
      compileTemplates (intents.map .explicit ++ generics.map .generic) [] entityTable.catalog
        language table = .error error →
      Reply language templates entities intents genericIntents (.error error.message)
  | compiled {table : TemplateTable} {entityTable : EntityTable} {generics : List GenericIntent}
      {compilation : Compilation} :
      TemplateTable.format.readText templates.keptText = .ok table →
      EntityTable.format.readText entities.keptText = .ok entityTable →
      List.Forall₂ (fun name intent => GenericIntent.ofName? name = some intent)
        genericIntents generics →
      compileTemplates (intents.map .explicit ++ generics.map .generic) [] entityTable.catalog
        language table = .ok compilation →
      Reply language templates entities intents genericIntents
        (.ok (configurationsFormat.write compilation.configurations))

theorem parse_eq_ok_iff {name : String} {intent : GenericIntent} :
    GenericIntent.parse name = .ok intent ↔ GenericIntent.ofName? name = some intent := by
  rw [GenericIntent.parse]
  cases GenericIntent.ofName? name <;> simp

theorem parse_eq_error_iff {name message : String} :
    GenericIntent.parse name = .error message ↔
      GenericIntent.ofName? name = none ∧ message = GenericIntent.unknownMessage name := by
  rw [GenericIntent.parse]
  cases GenericIntent.ofName? name <;> simp [eq_comm]

theorem mapM_parse_eq_ok_iff {names : List String} {generics : List GenericIntent} :
    names.mapM GenericIntent.parse = .ok generics ↔
      List.Forall₂ (fun name intent => GenericIntent.ofName? name = some intent)
        names generics := by
  simp only [mapM_eq_ok_iff, parse_eq_ok_iff]

theorem mapM_parse_eq_error_iff {names : List String} {message : String} :
    names.mapM GenericIntent.parse = .error message ↔
      ∃ before name after, names = before ++ name :: after ∧
        (∀ earlier ∈ before, ∃ intent, GenericIntent.ofName? earlier = some intent) ∧
        GenericIntent.ofName? name = none ∧ message = GenericIntent.unknownMessage name := by
  simp only [mapM_eq_error_iff, parse_eq_ok_iff, parse_eq_error_iff]

theorem readOrExplain_eq {α : Type} (format : Format α) (value : Json) :
    readOrExplain format value = (format.readText value.keptText).mapError Fault.message := by
  rw [readOrExplain, format.readText_keptText]

variable {language : String} {templates entities : Json} {intents genericIntents : List String}

/-- What comes of compiling is one of the replies. -/
theorem reply_compileValues : Reply language templates entities intents genericIntents
    (compileValues language templates entities intents genericIntents) := by
  rw [compileValues, readOrExplain_eq, readOrExplain_eq]
  cases first : TemplateTable.format.readText templates.keptText with
  | error fault => exact .badTemplates first
  | ok table =>
  cases second : EntityTable.format.readText entities.keptText with
  | error fault => exact .badEntities first second
  | ok entityTable =>
  cases third : genericIntents.mapM GenericIntent.parse with
  | error message =>
    obtain ⟨before, name, after, split, fine, unknown, rfl⟩ := mapM_parse_eq_error_iff.mp third
    exact .unknownIntent first second split fine unknown
  | ok generics =>
  have known := mapM_parse_eq_ok_iff.mp third
  cases fourth : compileTemplates (intents.map .explicit ++ generics.map .generic) []
      entityTable.catalog language table with
  | error error =>
    have fails := Reply.notCompiled first second known fourth
    simpa [bind, Except.bind, Except.mapError, fourth] using fails
  | ok compilation =>
    have succeeds := Reply.compiled first second known fourth
    simpa [bind, Except.bind, pure, Except.pure, Except.mapError, fourth] using succeeds

/-- No other reply is possible. -/
theorem Reply.compileValues_eq {reply : Except String Json}
    (replies : Reply language templates entities intents genericIntents reply) :
    compileValues language templates entities intents genericIntents = reply := by
  rw [compileValues, readOrExplain_eq, readOrExplain_eq]
  cases replies with
  | badTemplates first =>
    rw [first]
    rfl
  | badEntities first second =>
    rw [first, second]
    rfl
  | unknownIntent first second split fine unknown =>
    rw [first, second, mapM_parse_eq_error_iff.mpr ⟨_, _, _, split, fine, unknown, rfl⟩]
    rfl
  | notCompiled first second known fourth =>
    rw [first, second, mapM_parse_eq_ok_iff.mpr known]
    simp [bind, Except.bind, Except.mapError, fourth]
  | compiled first second known fourth =>
    rw [first, second, mapM_parse_eq_ok_iff.mpr known]
    simp [bind, Except.bind, pure, Except.pure, Except.mapError, fourth]

/-- **Compiling values in memory agrees with reading their texts and compiling.** -/
theorem compileValues_eq_iff {language : String} {templates entities : Json}
    {intents genericIntents : List String} {reply : Except String Json} :
    compileValues language templates entities intents genericIntents = reply ↔
      Reply language templates entities intents genericIntents reply :=
  ⟨fun same => same ▸ reply_compileValues, Reply.compileValues_eq⟩

end Phrasebook
