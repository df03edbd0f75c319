/-
**Entities and catalogs.**

An entity has a kind and, for some languages, values with synonyms. A catalog is asked only for the
entity of a name and for the names that it knows. `EntityTable` is the catalog kept as a dictionary,
in which a name is known exactly if it has an entity.
-/

import Phrasebook.Dictionary

namespace Phrasebook

/-- A value of an entity and other words for it. -/
structure Entity.Value where
  value : String
  synonyms : List String
  deriving DecidableEq, Repr

/-- An entity: its kind, and its values by language where they are enumerated. -/
structure Entity where
  kind : String
  values : Option (Dictionary String (List Entity.Value))
  deriving DecidableEq

namespace Entity

/-- An entity whose values are not enumerated. -/
def ofKind (kind : String) : Entity := ⟨kind, none⟩

/-- The entity with the values for a language, instead of older ones. -/
def setValues (entity : Entity) (language : String) (values : List Entity.Value) : Entity :=
  { entity with values := some ((entity.values.getD .empty).insert language values) }

/-- The values for a language, if they are enumerated. -/
def valuesIn? (entity : Entity) (language : String) : Option (List Entity.Value) :=
  entity.values.bind (·.find? language)

end Entity

/-- The words for the values, the synonyms of each before the value itself. -/
def choices (values : List Entity.Value) : List String :=
  values.flatMap fun value => value.synonyms ++ [value.value]

/-- What is asked about entities. -/
structure Catalog where
  find? : String → Option Entity
  names : List String

/-- The values of an entity for a language, if it is known and they are enumerated. -/
def Catalog.valuesIn? (catalog : Catalog) (name language : String) : Option (List Entity.Value) :=
  (catalog.find? name).bind (·.valuesIn? language)

/-- Entities by name. -/
abbrev EntityTable := Dictionary String Entity

namespace EntityTable

/-- The catalog that answers from the table. -/
def catalog (table : EntityTable) : Catalog := ⟨table.find?, table.keys⟩

/-- The table with the values of an entity for a language, if the entity is in it. -/
def setValues? (table : EntityTable) (name language : String) (values : List Entity.Value) :
    Option EntityTable :=
  (table.find? name).map fun entity => table.insert name (entity.setValues language values)

end EntityTable

end Phrasebook
