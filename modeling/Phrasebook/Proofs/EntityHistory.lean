/-
**What a table of entities remembers of its making.**

A table is built step by step: an entity is declared with its kind, and its values for a language
are given. To declare an entity again forgets its values, and to give values again forgets the older
ones; values for an entity that was not declared are ignored. So of all the steps only these leave a
trace: the last declaration of a name (`LastKind`), and the last values for a name and a language
that came behind it (`LastValues`).

`kindOf?_take_iff` and `valuesIn?_take_iff` say what one step does to the look-ups,
`kindOf?_built_iff` and `valuesIn?_built_iff` what a run of steps comes to. Tables with the same
look-ups are equal (`HasNoEmptyValues.eq_of_sameLookups`), so they are written alike, however they
were built (`built_remembers_last`).
-/

import Phrasebook.Proofs.RoundTrip

namespace Phrasebook

/-! ### Steps -/

/-- A step in the making of a table of entities. -/
inductive TableStep where
  | declare (name kind : String)
  | give (name language : String) (values : List Entity.Value)

namespace TableStep

/-- The table after the step. -/
def take (table : EntityTable) : TableStep → EntityTable
  | declare name kind => table.insert name (.ofKind kind)
  | give name language values => (table.setValues? name language values).getD table

/-- The step declares the name, with whatever kind. -/
def Declares (name : String) (step : TableStep) : Prop := ∃ kind, step = .declare name kind

/-- The step gives values for the name in the language. -/
def Gives (name language : String) (step : TableStep) : Prop :=
  ∃ values, step = .give name language values

end TableStep

/-- The table that steps build. -/
def EntityTable.built (steps : List TableStep) : EntityTable := steps.foldl TableStep.take .empty

namespace EntityTable

theorem built_concat (steps : List TableStep) (step : TableStep) :
    built (steps ++ [step]) = step.take (built steps) :=
  List.foldl_concat _ _ _ _

end EntityTable

/-! ### The last of its kind -/

section Last

variable {α : Type}

/-- Of the elements that are marked, this one is the last. -/
def IsLast (Marked : α → Prop) (element : α) (list : List α) : Prop :=
  ∃ before after, list = before ++ element :: after ∧ ∀ later ∈ after, ¬ Marked later

/-- What stands behind an element of a longer list is nothing, or it ends as the list does. -/
theorem concat_eq_append_cons_iff {list before after : List α} {last element : α} :
    list ++ [last] = before ++ element :: after ↔
      (after = [] ∧ last = element ∧ list = before) ∨
        ∃ inner, after = inner ++ [last] ∧ list = before ++ element :: inner := by
  constructor
  · intro same
    rcases List.eq_nil_or_concat' after with rfl | ⟨inner, final, rfl⟩
    · obtain ⟨rest, final⟩ := List.append_inj' same rfl
      exact .inl ⟨rfl, List.singleton_inj.mp final, rest⟩
    · rw [← List.cons_append, ← List.append_assoc] at same
      obtain ⟨rest, final⟩ := List.append_inj' same rfl
      exact .inr ⟨inner, by rw [final], rest⟩
  · rintro (⟨rfl, rfl, rfl⟩ | ⟨inner, rfl, rfl⟩)
    · rfl
    · rw [← List.cons_append, ← List.append_assoc]

variable {Marked : α → Prop} {element last : α} {list : List α}

theorem isLast_concat_iff :
    IsLast Marked element (list ++ [last]) ↔
      last = element ∨ (¬ Marked last ∧ IsLast Marked element list) := by
  simp only [IsLast, concat_eq_append_cons_iff]
  constructor
  · rintro ⟨before, after, ⟨rfl, same, rfl⟩ | ⟨inner, rfl, rfl⟩, none⟩
    · exact .inl same
    · obtain ⟨earlier, final⟩ := List.forall_mem_append.mp none
      exact .inr ⟨final last List.mem_cons_self, before, inner, rfl, earlier⟩
  · rintro (rfl | ⟨unmarked, before, inner, rfl, none⟩)
    · exact ⟨list, [], .inl ⟨rfl, rfl, rfl⟩, List.forall_mem_nil _⟩
    · refine ⟨before, inner ++ [last], .inr ⟨inner, rfl, rfl⟩,
        List.forall_mem_append.mpr ⟨none, ?_⟩⟩
      exact List.forall_mem_singleton.mpr unmarked

theorem exists_isLast_iff :
    (∃ element, Marked element ∧ IsLast Marked element list) ↔
      ∃ element ∈ list, Marked element := by
  constructor
  · rintro ⟨element, marked, before, after, rfl, _⟩
    exact ⟨element, List.mem_append_right _ List.mem_cons_self, marked⟩
  · intro some
    induction list using List.reverseRecOn with
    | nil => simp at some
    | append_singleton list last ih =>
      by_cases marked : Marked last
      · exact ⟨last, marked, isLast_concat_iff.mpr (.inl rfl)⟩
      · obtain ⟨element, member, here⟩ := some
        have earlier : element ∈ list := by
          rcases List.mem_append.mp member with earlier | final
          · exact earlier
          · exact absurd (List.mem_singleton.mp final ▸ here) marked
        obtain ⟨element, here, found⟩ := ih ⟨element, earlier, here⟩
        exact ⟨element, here, isLast_concat_iff.mpr (.inr ⟨marked, found⟩)⟩

end Last

/-! ### What is remembered -/

section History

variable (steps : List TableStep)

/-- The last declaration of the name gives it the kind. -/
def LastKind (name kind : String) : Prop :=
  IsLast (TableStep.Declares name) (.declare name kind) steps

/-- Behind the last declaration of the name, these are the last values for the language. -/
def LastValues (name language : String) (values : List Entity.Value) : Prop :=
  ∃ before kind behind, steps = before ++ .declare name kind :: behind ∧
    (∀ step ∈ behind, ¬ step.Declares name) ∧
    IsLast (TableStep.Gives name language) (.give name language values) behind

variable {steps} {step : TableStep} {name kind language : String} {values : List Entity.Value}

theorem lastKind_concat_iff :
    LastKind (steps ++ [step]) name kind ↔
      step = .declare name kind ∨ (¬ step.Declares name ∧ LastKind steps name kind) :=
  isLast_concat_iff

/-- A name that is declared at all has a last kind. -/
theorem exists_lastKind_iff :
    (∃ kind, LastKind steps name kind) ↔ ∃ kind, .declare name kind ∈ steps := by
  have last : (∃ step, TableStep.Declares name step ∧ IsLast (TableStep.Declares name) step steps) ↔
      ∃ step ∈ steps, TableStep.Declares name step := exists_isLast_iff
  constructor
  · rintro ⟨kind, found⟩
    obtain ⟨_, member, other, rfl⟩ := last.mp ⟨_, ⟨kind, rfl⟩, found⟩
    exact ⟨other, member⟩
  · rintro ⟨kind, member⟩
    obtain ⟨_, ⟨other, rfl⟩, found⟩ := last.mpr ⟨_, member, kind, rfl⟩
    exact ⟨other, found⟩

theorem lastValues_concat_iff :
    LastValues (steps ++ [step]) name language values ↔
      (step = .give name language values ∧ ∃ kind, LastKind steps name kind) ∨
        (¬ step.Declares name ∧ ¬ step.Gives name language ∧
          LastValues steps name language values) := by
  simp only [LastValues, concat_eq_append_cons_iff]
  constructor
  · rintro ⟨before, kind, behind, ⟨rfl, _, _⟩ | ⟨inner, rfl, rfl⟩, none, given⟩
    · obtain ⟨_, _, split, _⟩ := given
      simp at split
    · obtain ⟨earlier, final⟩ := List.forall_mem_append.mp none
      rcases isLast_concat_iff.mp given with same | ⟨other, given⟩
      · exact .inl ⟨same, kind, before, inner, rfl, earlier⟩
      · exact .inr ⟨final step List.mem_cons_self, other, before, kind, inner, rfl, earlier, given⟩
  · rintro (⟨rfl, kind, before, inner, rfl, none⟩ |
      ⟨undeclared, other, before, kind, inner, rfl, none, given⟩)
    · refine ⟨before, kind, inner ++ [.give name language values], .inr ⟨inner, rfl, rfl⟩,
        List.forall_mem_append.mpr ⟨none, List.forall_mem_singleton.mpr ?_⟩,
        isLast_concat_iff.mpr (.inl rfl)⟩
      rintro ⟨kind, ⟨⟩⟩
    · exact ⟨before, kind, inner ++ [step], .inr ⟨inner, rfl, rfl⟩,
        List.forall_mem_append.mpr ⟨none, List.forall_mem_singleton.mpr undeclared⟩,
        isLast_concat_iff.mpr (.inr ⟨other, given⟩)⟩

end History

/-! ### Steps and look-ups -/

theorem Entity.valuesIn?_setValues (entity : Entity) (language other : String)
    (values : List Entity.Value) :
    (entity.setValues language values).valuesIn? other =
      if other = language then some values else entity.valuesIn? other := by
  obtain ⟨kind, given⟩ := entity
  simp only [Entity.valuesIn?, Entity.setValues, Option.bind_some, Dictionary.find?_insert,
    Std.compare_eq_iff_eq]
  cases given <;> rfl

/-- Values that are looked up alike are the same, once there is nothing without a language. -/
theorem Entity.eq_of_valuesIn? {entity other : Entity} (fine : entity.values ≠ some .empty)
    (otherFine : other.values ≠ some .empty) (kind : entity.kind = other.kind)
    (same : ∀ language, entity.valuesIn? language = other.valuesIn? language) : entity = other := by
  obtain ⟨_, values⟩ := entity
  obtain ⟨_, others⟩ := other
  cases kind
  have empty {given : Dictionary String (List Entity.Value)}
      (nothing : ∀ language, given.find? language = none) : given = .empty :=
    Dictionary.ext_find? nothing
  refine congrArg (Entity.mk _) ?_
  cases values with
  | none =>
    cases others with
    | none => rfl
    | some others =>
      exact absurd (congrArg some (empty fun language => (same language).symm)) otherFine
  | some values =>
    cases others with
    | none => exact absurd (congrArg some (empty same)) fine
    | some others => exact congrArg some (Dictionary.ext_find? same)

namespace EntityTable

variable {table : EntityTable}

theorem find?_take_declare (other kind name : String) :
    (TableStep.take table (.declare other kind)).find? name =
      if name = other then some (.ofKind kind) else table.find? name := by
  simp only [TableStep.take, Dictionary.find?_insert, Std.compare_eq_iff_eq]

theorem find?_take_give (other language name : String) (values : List Entity.Value) :
    (TableStep.take table (.give other language values)).find? name =
      if name = other then (table.find? name).map (·.setValues language values)
      else table.find? name := by
  simp only [TableStep.take, setValues?]
  cases known : table.find? other with
  | none =>
    show table.find? name = _
    split
    next same => rw [same, known]; rfl
    next => rfl
  | some entity =>
    simp only [Option.map_some, Option.getD_some, Dictionary.find?_insert, Std.compare_eq_iff_eq]
    split
    next same => rw [same, known]; rfl
    next => rfl

/-- The kind of an entity, if it is in the table. -/
def kindOf? (table : EntityTable) (name : String) : Option String :=
  (table.find? name).map (·.kind)

variable {step : TableStep} {name kind language : String} {values : List Entity.Value}

theorem kindOf?_take_iff :
    kindOf? (step.take table) name = some kind ↔
      step = .declare name kind ∨ (¬ step.Declares name ∧ table.kindOf? name = some kind) := by
  cases step with
  | declare other kind =>
    simp only [kindOf?, find?_take_declare, TableStep.Declares, TableStep.declare.injEq]
    by_cases same : name = other
    · simp [same, Entity.ofKind]
    · simp [same, Ne.symm same]
  | give other language values =>
    simp only [kindOf?, find?_take_give, TableStep.Declares]
    by_cases same : name = other
    · simp [same, Function.comp_def, Entity.setValues]
    · simp [same]

theorem valuesIn?_take_iff :
    (catalog (step.take table)).valuesIn? name language = some values ↔
      (step = .give name language values ∧ ∃ kind, table.kindOf? name = some kind) ∨
        (¬ step.Declares name ∧ ¬ step.Gives name language ∧
          table.catalog.valuesIn? name language = some values) := by
  cases step with
  | declare other kind =>
    simp only [Catalog.valuesIn?, catalog, find?_take_declare, TableStep.Declares,
      TableStep.Gives, TableStep.declare.injEq]
    by_cases same : name = other
    · simp [same, Entity.ofKind, Entity.valuesIn?]
    · simp [same, Ne.symm same]
  | give other tongue given =>
    simp only [kindOf?, Catalog.valuesIn?, catalog, find?_take_give, TableStep.Declares,
      TableStep.Gives, TableStep.give.injEq]
    by_cases same : name = other
    · cases known : table.find? other with
      | none => simp [same, known]
      | some entity =>
        by_cases tongues : language = tongue
        · simp [same, known, tongues, Entity.valuesIn?_setValues]
        · simp [same, known, tongues, Ne.symm tongues, Entity.valuesIn?_setValues]
    · simp [same, Ne.symm same]

end EntityTable

/-! ### What a run of steps comes to -/

namespace EntityTable

/-- No entity of the table has values without a language. -/
def HasNoEmptyValues (table : EntityTable) : Prop :=
  ∀ name entity, table.find? name = some entity → entity.values ≠ some .empty

theorem HasNoEmptyValues.take {table : EntityTable} (fine : table.HasNoEmptyValues)
    (step : TableStep) : HasNoEmptyValues (step.take table) := by
  intro name entity found
  cases step with
  | declare other kind =>
    rw [find?_take_declare] at found
    split at found
    · cases found
      nofun
    · exact fine name entity found
  | give other language values =>
    rw [find?_take_give] at found
    split at found
    · obtain ⟨older, _, rfl⟩ := Option.map_eq_some_iff.mp found
      intro same
      have listed : (older.setValues language values).valuesIn? language = some values := by
        rw [Entity.valuesIn?_setValues, if_pos rfl]
      rw [Entity.valuesIn?, same] at listed
      cases listed
    · exact fine name entity found

theorem hasNoEmptyValues_built (steps : List TableStep) : (built steps).HasNoEmptyValues := by
  induction steps using List.reverseRecOn with
  | nil => nofun
  | append_singleton steps step ih =>
    rw [built_concat]
    exact ih.take step

variable {steps : List TableStep} {name kind language : String} {values : List Entity.Value}

theorem kindOf?_built_iff : (built steps).kindOf? name = some kind ↔ LastKind steps name kind := by
  induction steps using List.reverseRecOn with
  | nil => simp [LastKind, IsLast, built, kindOf?]
  | append_singleton steps step ih =>
    rw [built_concat, kindOf?_take_iff, lastKind_concat_iff, ih]

theorem valuesIn?_built_iff :
    (built steps).catalog.valuesIn? name language = some values ↔
      LastValues steps name language values := by
  induction steps using List.reverseRecOn with
  | nil => simp [LastValues, built, Catalog.valuesIn?, catalog]
  | append_singleton steps step ih =>
    rw [built_concat, valuesIn?_take_iff, lastValues_concat_iff, ih]
    simp only [kindOf?_built_iff]

/-- The tables give the same kind for every name, and the same values for it in every language. -/
def SameLookups (table other : EntityTable) : Prop :=
  ∀ name, table.kindOf? name = other.kindOf? name ∧
    ∀ language, table.catalog.valuesIn? name language = other.catalog.valuesIn? name language

/-- Nothing but the look-ups is left of how a table was built. -/
theorem HasNoEmptyValues.eq_of_sameLookups {table other : EntityTable}
    (fine : table.HasNoEmptyValues) (otherFine : other.HasNoEmptyValues)
    (same : table.SameLookups other) : table = other := by
  refine Dictionary.ext_find? fun name => ?_
  obtain ⟨kinds, values⟩ := same name
  simp only [kindOf?, Catalog.valuesIn?, catalog] at kinds values
  cases found : table.find? name with
  | none =>
    rw [found] at kinds
    exact (Option.map_eq_none_iff.mp kinds.symm).symm
  | some entity =>
    rw [found] at kinds values
    obtain ⟨second, there, kind⟩ := Option.map_eq_some_iff.mp kinds.symm
    rw [there] at values ⊢
    exact congrArg some (Entity.eq_of_valuesIn? (fine name entity found)
      (otherFine name second there) kind.symm values)

/-- The names of a table ascend by their characters. -/
theorem names_ascending (table : EntityTable) : table.catalog.names.Pairwise (· < ·) :=
  table.keys_ascending.imp compareOfLessAndEq_eq_lt.mp

end EntityTable

/-- **A table remembers the last declarations and the last values behind them.** A name is in it
exactly if some step declares it, and its entity has the kind of the last declaration and in each
language the last values behind that, if any. The names that it knows ascend, without repeats. What
was forgotten leaves no trace: tables are written alike exactly if all look-ups in them are
alike. -/
theorem built_remembers_last (steps : List TableStep) :
    (∀ name, ((EntityTable.built steps).catalog.find? name).isSome ↔
        ∃ kind, .declare name kind ∈ steps) ∧
      (∀ name kind, ((EntityTable.built steps).catalog.find? name).map (·.kind) = some kind ↔
        LastKind steps name kind) ∧
      (∀ name language values,
        (EntityTable.built steps).catalog.valuesIn? name language = some values ↔
          LastValues steps name language values) ∧
      (EntityTable.built steps).catalog.names.Pairwise (· < ·) ∧
      (∀ name, name ∈ (EntityTable.built steps).catalog.names ↔
        ((EntityTable.built steps).catalog.find? name).isSome) ∧
      (EntityTable.built steps).size = (EntityTable.built steps).catalog.names.length ∧
      ∀ others, (EntityTable.built steps).SameLookups (EntityTable.built others) ↔
        EntityTable.format.text (EntityTable.built steps) =
          EntityTable.format.text (EntityTable.built others) := by
  refine ⟨fun name => ?_, fun _ _ => EntityTable.kindOf?_built_iff,
    fun _ _ _ => EntityTable.valuesIn?_built_iff, EntityTable.names_ascending _,
    fun name => Dictionary.find?_isSome_iff.symm, (List.length_map _).symm,
    fun others => ⟨fun same => ?_, fun same => ?_⟩⟩
  · rw [← exists_lastKind_iff, Option.isSome_iff_exists]
    simp only [← EntityTable.kindOf?_built_iff, EntityTable.kindOf?, Option.map_eq_some_iff]
    constructor
    · exact fun ⟨entity, found⟩ => ⟨entity.kind, entity, found, rfl⟩
    · exact fun ⟨_, entity, found, _⟩ => ⟨entity, found⟩
  · rw [(EntityTable.hasNoEmptyValues_built steps).eq_of_sameLookups
      (EntityTable.hasNoEmptyValues_built others) same]
  · rw [restores_entityTable.text_injective same]
    exact fun _ => ⟨rfl, fun _ => rfl⟩

/-- To declare `n` again forgets the values for `en`, and nobody declared `m`. -/
example :
    let steps : List TableStep := [.declare "n" "T", .give "n" "en" [⟨"2", ["two"]⟩],
      .give "m" "en" [], .declare "n" "U", .give "n" "de" [], .give "n" "de" [⟨"zwei", []⟩]]
    EntityTable.format.text (EntityTable.built steps) =
      "\x7b\"n\":\x7b\"type\":\"U\",\"values\":\x7b" ++
        "\"de\":[\x7b\"value\":\"zwei\",\"synonyms\":[]\x7d]\x7d\x7d\x7d" := by
  decide +kernel

end Phrasebook
