/-
**Formats: how a type is written as JSON and read back.**

A format writes values and reads drafts. Strings, lists, dictionaries and optional values have
formats of their own, and `RecordFormat` makes one for a structure out of its fields: an object with
the fields in any order and other members between them, or an array of the fields in their order.

`Format.readText` reads a whole text, `Format.readValue` a value in memory.
-/

import Phrasebook.Json.Fault

namespace Phrasebook.Json

/-- How a type is written as JSON and read back. -/
structure Format (α : Type) where
  write : α → Json
  read : Draft → Except Fault α

namespace Format

variable {α β : Type}

/-- Reads a text that holds one value and nothing else. -/
def readText (format : Format α) (text : String) : Except Fault α := do
  let (draft, complete) := Draft.ofText text
  let value ← format.read draft
  if complete then .ok value else .error .malformed

/-- Reads a value in memory. -/
def readValue (format : Format α) (value : Json) : Except Fault α := format.read (.ofJson value)

/-- The text of a value without white space. -/
def text (format : Format α) (value : α) : String := (format.write value).compact

/-! ### Plain types -/

/-- Texts, as strings. -/
def string : Format String where
  write := .string
  read
    | .string (some text) => .ok text
    | draft => .error (.unexpected draft "a string")

/-- Lists, as arrays. -/
def list (item : Format α) : Format (List α) where
  write values := .array (values.map item.write)
  read
    | .array items closed => do
      let values ← items.mapM item.read
      if closed then .ok values else .error .malformed
    | draft => .error (.unexpected draft "an array")

/-- The dictionary of members put into `dictionary` one after the other. -/
def readEntries (value : Format α) (dictionary : Dictionary String α) :
    List (Option String × Draft) → Except Fault (Dictionary String α)
  | [] => .ok dictionary
  | (none, _) :: _ => .error .malformed
  | (some key, draft) :: members => do
    let entry ← value.read draft
    readEntries value (dictionary.insert key entry) members

/-- Dictionaries, as objects; of members with the same key the last one counts. -/
def dictionary (value : Format α) : Format (Dictionary String α) where
  write values := .object (values.entries.map fun (key, entry) => (key, value.write entry))
  read
    | .object members closed => do
      let values ← readEntries value .empty members
      if closed then .ok values else .error .malformed
    | draft => .error (.unexpected draft "an object")

/-- Values that may be missing, as themselves or null. -/
def optional (value : Format α) : Format (Option α) where
  write
    | none => .null
    | some present => value.write present
  read
    | .null => .ok none
    | draft => (value.read draft).map some

/-- A type that is written like another one, of which not all values need to be accepted. -/
def refined (format : Format α) (toWritten : β → α) (ofWritten : α → Except String β) :
    Format β where
  write value := format.write (toWritten value)
  read draft := do
    match ofWritten (← format.read draft) with
    | .ok value => .ok value
    | .error reason => .error (.rejected reason)

/-- A type that is written like another one with the same values. -/
def renamed (format : Format α) (toWritten : β → α) (ofWritten : α → β) : Format β where
  write value := format.write (toWritten value)
  read draft := (format.read draft).map ofWritten

end Format

/-! ### Records -/

/-- A field of a record `α`, whose fields are collected in a `σ` while they are read. -/
structure Field (α σ : Type) where
  name : String
  /-- Whether the record cannot do without the field. -/
  required : Bool
  /-- Whether the field was read already. -/
  isSet : σ → Bool
  /-- Reads the field. -/
  read : Draft → σ → Except Fault σ
  /-- What is written for the field, if anything is. -/
  write : α → Option Json

/-- The field that is taken from a record by `get` and collected under `slot`. -/
def Field.of {α β σ : Type} (name : String) (required : Bool) (format : Format β) (get : α → β)
    (slot : σ → Option β) (fill : β → σ → σ) (hidden : β → Bool := fun _ => false) : Field α σ where
  name := name
  required := required
  isSet collected := (slot collected).isSome
  read draft collected := (format.read draft).map (fill · collected)
  write record := if hidden (get record) then none else some (format.write (get record))

/-- A record by its fields. -/
structure RecordFormat (α σ : Type) where
  /-- What the record is, in words. -/
  title : String
  fields : List (Field α σ)
  /-- The collection before any field is read. -/
  start : σ
  /-- The record made of the collected fields, once all that it needs are there. -/
  finish : σ → Option α

namespace RecordFormat

variable {α σ : Type}

/-- The members of an object, in the order of the fields. -/
def writeFields (fields : List (Field α σ)) (record : α) : List (String × Json) :=
  fields.filterMap fun field => (field.write record).map (field.name, ·)

/-- Reads the members of an object. A member that is no field is skipped if it is well formed. -/
def readMembers (fields : List (Field α σ)) (collected : σ) :
    List (Option String × Draft) → Except Fault σ
  | [] => .ok collected
  | (none, _) :: _ => .error .malformed
  | (some key, draft) :: members =>
    match fields.find? (·.name == key) with
    | some field =>
      if field.isSet collected then .error (.duplicateField key)
      else do readMembers fields (← field.read draft collected) members
    | none =>
      if draft.isWhole then readMembers fields collected members else .error .malformed

/-- The first field that the record cannot do without and that was not read. -/
def missing? (fields : List (Field α σ)) (collected : σ) : Option (Field α σ) :=
  fields.find? fun field => field.required && !field.isSet collected

/-- Reads the items of an array as the fields in their order, and gives the items left over. -/
def readItems (fields : List (Field α σ)) (collected : σ) (items : List Draft) :
    Except Fault (σ × List Draft) :=
  match fields, items with
  | field :: fields, item :: items => do readItems fields (← field.read item collected) items
  | _, items => .ok (collected, items)

/-- The record of the collected fields. -/
def complete (record : RecordFormat α σ) (collected : σ) : Except Fault α :=
  match record.finish collected with
  | some value => .ok value
  | none => .error .malformed

/-- The format of a record. -/
def format (record : RecordFormat α σ) : Format α where
  write value := .object (writeFields record.fields value)
  read
    | .object members closed => do
      let collected ← readMembers record.fields record.start members
      if !closed then .error .malformed
      else match missing? record.fields collected with
        | some field => .error (.missingField field.name)
        | none => record.complete collected
    | .array items closed => do
      let (collected, surplus) ← readItems record.fields record.start items
      if !surplus.isEmpty then .error (.surplusItems items.length)
      else if !closed then .error .malformed
      else match missing? record.fields collected with
        | some field =>
          .error (.missingItem (record.fields.findIdx (·.name == field.name)) record.title)
        | none => record.complete collected
    | draft => .error (.unexpected draft record.title)

end RecordFormat

end Phrasebook.Json
