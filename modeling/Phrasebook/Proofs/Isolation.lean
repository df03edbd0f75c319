/-
**What a compilation depends on.**

A compilation of a language asks a catalog which entities it knows and which words it lists for them
in that language, and it asks a service what it offers for that language. Catalogs that agree in the
language (`Catalog.AgreeIn`) and services that are alike in it (`AlikeIn`) can take each other's
place. `Catalog.only` and `TemplateService.only` forget all else: the kinds of entities, the values
for other languages, and whether an entity has values at all when it has none for the language.
What is left of a catalog agrees with it (`Catalog.agreeIn_only`), so nothing that is forgotten
matters (`languages_are_isolated`).

Intents are configured one by one, each from its own templates in the merged table
(`compileConfigurations_eq`), so they do not touch each other either (`intents_are_isolated`).
-/

import Phrasebook.Proofs.Compilation

namespace Phrasebook

/-! ### Catalogs and services in one language -/

/-- The catalogs know the same entities and list the same words for them in the language. -/
structure Catalog.AgreeIn (language : String) (catalog other : Catalog) : Prop where
  known : ∀ name, (catalog.find? name).isSome = (other.find? name).isSome
  names : catalog.names.Perm other.names
  values : ∀ name, catalog.valuesIn? name language = other.valuesIn? name language

/-- The services have the same names and offer the same for the language. -/
def AlikeIn (language : String) (services others : List TemplateService) : Prop :=
  List.Forall₂ (fun service other =>
    service.name = other.name ∧ service.offer language = other.offer language) services others

section Agreement

variable {language : String} {catalog other : Catalog} (agree : catalog.AgreeIn language other)

include agree

theorem Catalog.AgreeIn.utterancesOf_eq (phrase : String) :
    utterancesOf phrase language catalog = utterancesOf phrase language other := by
  have options : requestOptions catalog language = requestOptions other language := by
    funext name
    unfold requestOptions
    rw [agree.values]
  unfold utterancesOf
  rw [fillRequests_eq, fillRequests_eq, options]

theorem Catalog.AgreeIn.ofTemplates_eq (templates : List String) :
    Expansion.ofTemplates templates language catalog =
      Expansion.ofTemplates templates language other := by
  unfold Expansion.ofTemplates
  simp only [agree.utterancesOf_eq]

theorem Catalog.AgreeIn.checkNames_eq (intent : Intent) (names : List String) :
    checkNames intent language names catalog = checkNames intent language names other := by
  have unknown : (fun name => (catalog.find? name).isNone) =
      fun name => (other.find? name).isNone := by
    funext name
    rw [← Option.not_isSome, ← Option.not_isSome, agree.known]
  have sorted : catalog.names.mergeSort (· ≤ ·) = other.names.mergeSort (· ≤ ·) := by
    obtain ⟨permuted, ordered⟩ := eq_mergeSort_iff.mp (Eq.refl (catalog.names.mergeSort (· ≤ ·)))
    exact eq_mergeSort_iff.mpr ⟨permuted.trans agree.names, ordered⟩
  unfold checkNames
  rw [unknown, sorted]

theorem Catalog.AgreeIn.configureFrom_eq (expansions : Dictionary String Expansion)
    (intent : Intent) :
    configureFrom expansions language catalog intent =
      configureFrom expansions language other intent := by
  unfold configureFrom configure
  simp only [agree.checkNames_eq]

theorem Catalog.AgreeIn.compileTemplates_eq (intents : List Intent)
    (services : List TemplateService) (base : TemplateTable) :
    compileTemplates intents services catalog language base =
      compileTemplates intents services other language base := by
  have configured : ∀ expansions, configureFrom expansions language catalog =
      configureFrom expansions language other :=
    fun expansions => funext (agree.configureFrom_eq expansions)
  unfold compileTemplates compileExpansions
  simp only [agree.ofTemplates_eq, configured]

end Agreement

theorem AlikeIn.withServices_eq {language : String} {services others : List TemplateService}
    (alike : AlikeIn language services others) (base : TemplateTable) :
    base.withServices services language = base.withServices others language := by
  have offered : ∀ service other : TemplateService, service.name = other.name ∧
      service.offer language = other.offer language →
        service.contribution language = other.contribution language := by
    rintro service other ⟨name, offer⟩
    unfold TemplateService.contribution
    rw [name, offer]
  induction alike generalizing base with
  | nil => rfl
  | cons same _ ih =>
    rw [withServices_cons, withServices_cons, offered _ _ same]
    simp only [ih]

/-! ### What is left of a catalog in one language -/

/-- The entity without its kind and without the values for other languages. -/
def Entity.only (language : String) (entity : Entity) : Entity where
  kind := ""
  values := (entity.valuesIn? language).map fun values => Dictionary.empty.insert language values

/-- The catalog of the entities that are left, with the names in order. -/
def Catalog.only (language : String) (catalog : Catalog) : Catalog where
  find? name := (catalog.find? name).map (Entity.only language)
  names := catalog.names.mergeSort (· ≤ ·)

/-- The service that offers nothing for other languages. -/
def TemplateService.only (language : String) (service : TemplateService) : TemplateService where
  name := service.name
  offer tongue := if tongue = language then service.offer language else .ok .empty

theorem Entity.valuesIn?_only (language : String) (entity : Entity) :
    (entity.only language).valuesIn? language = entity.valuesIn? language := by
  unfold Entity.only
  cases listed : entity.valuesIn? language with
  | none => rfl
  | some values => exact Dictionary.find?_insert_self ..

theorem Catalog.agreeIn_only (language : String) (catalog : Catalog) :
    catalog.AgreeIn language (catalog.only language) where
  known name := (Option.isSome_map ..).symm
  names := (List.mergeSort_perm _ _).symm
  values name := by
    unfold Catalog.valuesIn? Catalog.only
    rw [Option.bind_map]
    refine congrArg _ (funext fun entity => ?_)
    exact (entity.valuesIn?_only language).symm

theorem alikeIn_only (language : String) (services : List TemplateService) :
    AlikeIn language services (services.map (·.only language)) := by
  unfold AlikeIn
  rw [List.forall₂_map_right_iff, List.forall₂_same]
  exact fun service _ => ⟨rfl, (if_pos rfl).symm⟩

/-- **Languages are isolated.** Catalogs that agree in a language, and services that are alike in
it, give the same result for the language; so it is the result with the kinds of entities and all
that is said about other languages left out. -/
theorem languages_are_isolated (language : String) (intents : List Intent) (base : TemplateTable) :
    (∀ services others catalog other, AlikeIn language services others →
        Catalog.AgreeIn language catalog other →
          compileTemplates intents services catalog language base =
            compileTemplates intents others other language base) ∧
      ∀ services catalog, compileTemplates intents services catalog language base =
        compileTemplates intents (services.map (·.only language)) (catalog.only language) language
          base := by
  have isolated : ∀ services others catalog other, AlikeIn language services others →
      Catalog.AgreeIn language catalog other →
        compileTemplates intents services catalog language base =
          compileTemplates intents others other language base := by
    intro services others catalog other alike agree
    rw [agree.compileTemplates_eq]
    unfold compileTemplates
    rw [alike.withServices_eq]
  exact ⟨isolated, fun services catalog =>
    isolated _ _ _ _ (alikeIn_only language services) (catalog.agreeIn_only language)⟩

/-- Kinds, another language, and values only for that language make no difference. -/
theorem english_seats_alike :
    let seats : TemplateTable := Dictionary.empty.insert "BookIntent"
      ["\x7b\x7b-|n\x7d\x7d in \x7b\x7b-|m\x7d\x7d"]
    let values : Dictionary String (List Entity.Value) :=
      Dictionary.empty.insert "en" [⟨"2", ["two"]⟩]
    let services : List TemplateService := [⟨"seats", fun _ => .ok seats⟩]
    let others : List TemplateService :=
      [⟨"seats", fun language => if language = "en" then .ok seats else .error "no seats"⟩]
    let catalog := EntityTable.catalog
      ((Dictionary.empty.insert "n" ⟨"T", some values⟩).insert "m" (.ofKind "T"))
    let other : Catalog :=
      { EntityTable.catalog
          ((Dictionary.empty.insert "n" ⟨"U", some (values.insert "de" [])⟩).insert "m"
            ⟨"U", some (Dictionary.empty.insert "de" [⟨"zwei", []⟩])⟩) with names := ["n", "m"] }
    AlikeIn "en" services others ∧ Catalog.AgreeIn "en" catalog other ∧
      compileTemplates [.explicit "Book"] others other "en" .empty =
        .ok ⟨[⟨.explicit "Book", ["\x7b\x7btwo|n\x7d\x7d in \x7b\x7bm\x7d\x7d",
          "\x7b\x7b2|n\x7d\x7d in \x7b\x7bm\x7d\x7d"], ["n", "m"]⟩], []⟩ := by
  intro seats values services others catalog other
  have alike : AlikeIn "en" services others := .cons ⟨rfl, rfl⟩ .nil
  have known : ∀ name, (catalog.find? name).isSome = (other.find? name).isSome := by
    intro name
    simp only [catalog, other, EntityTable.catalog, Dictionary.find?_insert]
    split
    · rfl
    · split <;> rfl
  have listed : ∀ name, catalog.valuesIn? name "en" = other.valuesIn? name "en" := by
    intro name
    simp only [Catalog.valuesIn?, catalog, other, EntityTable.catalog, Dictionary.find?_insert]
    split
    · rfl
    · split <;> rfl
  have agree : Catalog.AgreeIn "en" catalog other := ⟨known, List.Perm.swap "n" "m" [], listed⟩
  refine ⟨alike, agree, ?_⟩
  have same := (languages_are_isolated "en" [.explicit "Book"] .empty).1 services others catalog
    other alike agree
  rw [← same]
  rfl

/-! ### Intents -/

/-- The configurations of a language, without the keys that no intent uses. -/
def compileConfigurations (intents : List Intent) (services : List TemplateService)
    (catalog : Catalog) (language : String) (base : TemplateTable) :
    Except BuildError (List Configuration) :=
  (compileTemplates intents services catalog language base).map (·.configurations)

section Intents

variable {catalog : Catalog} {language : String}

theorem map_configurations_compileExpansions (intents : List Intent)
    (expansions : Dictionary String Expansion) :
    (compileExpansions intents expansions language catalog).map (·.configurations) =
      intents.mapM (configureFrom expansions language catalog) := by
  unfold compileExpansions
  cases intents.mapM (configureFrom expansions language catalog) <;> rfl

/-- Each intent is configured by itself, from its templates in the merged table. -/
theorem compileConfigurations_eq (intents : List Intent) (services : List TemplateService)
    (base : TemplateTable) :
    compileConfigurations intents services catalog language base =
      base.withServices services language >>= fun table => intents.mapM fun intent =>
        configure intent (expansionOf catalog language table intent) language catalog := by
  unfold compileConfigurations compileTemplates
  cases base.withServices services language with
  | error error => rfl
  | ok table =>
    have configured : configureFrom (table.mapValues fun _ templates =>
        Expansion.ofTemplates templates language catalog) language catalog =
          fun intent => configure intent (expansionOf catalog language table intent) language
            catalog := by
      funext intent
      exact configureFrom_eq catalog language table intent
    show Except.map _ (compileExpansions intents _ language catalog) = List.mapM _ intents
    rw [map_configurations_compileExpansions, configured]

/-- Tables with the same templates for the intents give the same configurations. -/
theorem compileConfigurations_congr {intents : List Intent} {services others : List TemplateService}
    {base other table more : TemplateTable}
    (merged : base.withServices services language = .ok table)
    (again : other.withServices others language = .ok more)
    (same : ∀ intent ∈ intents, table.templatesFor intent = more.templatesFor intent) :
    compileConfigurations intents services catalog language base =
      compileConfigurations intents others catalog language other := by
  rw [compileConfigurations_eq, compileConfigurations_eq, merged, again]
  refine mapM_congr fun intent declared => ?_
  unfold expansionOf
  rw [same intent declared]

end Intents

/-- **Intents are isolated.** Intents in a row compile one after the other: with the configurations
of both rows, or else with the failure of the first row that has one. Only the templates under their
keys matter, where a missing key counts as one without templates. -/
theorem intents_are_isolated (catalog : Catalog) (language : String) :
    (∀ services base first second configurations,
        compileConfigurations (first ++ second) services catalog language base =
            .ok configurations ↔
          ∃ early late, configurations = early ++ late ∧
            compileConfigurations first services catalog language base = .ok early ∧
            compileConfigurations second services catalog language base = .ok late) ∧
      (∀ services base first second error,
        compileConfigurations (first ++ second) services catalog language base = .error error ↔
          compileConfigurations first services catalog language base = .error error ∨
            (∃ early, compileConfigurations first services catalog language base = .ok early) ∧
              compileConfigurations second services catalog language base = .error error) ∧
      ∀ intents services others base other table more,
        TemplateTable.withServices base services language = .ok table →
        TemplateTable.withServices other others language = .ok more →
        (∀ intent ∈ intents,
          TemplateTable.templatesFor table intent = TemplateTable.templatesFor more intent) →
          compileConfigurations intents services catalog language base =
            compileConfigurations intents others catalog language other := by
  refine ⟨fun services base first second configurations => ?_,
    fun services base first second error => ?_, ?_⟩
  · simp only [compileConfigurations_eq]
    cases base.withServices services language with
    | error error => simp [bind, Except.bind]
    | ok table => exact mapM_append_eq_ok_iff
  · simp only [compileConfigurations_eq]
    cases base.withServices services language with
    | error failure => simp [bind, Except.bind]
    | ok table => exact mapM_append_eq_error_iff
  · intro intents services others base other table more merged again same
    exact compileConfigurations_congr merged again same

/-- Odd templates that no intent uses, and a key without templates, change nothing. -/
theorem odd_templates_change_nothing :
    let intents : List Intent := [.explicit "Book", .generic .help]
    let catalog := EntityTable.catalog .empty
    let base : TemplateTable := Dictionary.empty.insert "BookIntent" ["\x7ba|b\x7d"]
    let other := (base.insert "Odd" ["\x7b\x7bx\x7d\x7d \x7b"]).insert "helpGenericIntent" []
    (∀ intent ∈ intents, base.templatesFor intent =
        TemplateTable.templatesFor other intent) ∧
      compileConfigurations intents [] catalog "en" other =
        .ok [⟨.explicit "Book", ["a", "b"], []⟩, ⟨.generic .help, [], []⟩] := by
  intro intents catalog base other
  have same : ∀ intent ∈ intents, base.templatesFor intent =
      TemplateTable.templatesFor other intent := by decide +kernel
  have alone : compileConfigurations intents [] catalog "en" base =
      .ok [⟨.explicit "Book", ["a", "b"], []⟩, ⟨.generic .help, [], []⟩] := rfl
  have equal := (intents_are_isolated catalog "en").2.2 intents [] [] base other base other rfl rfl
    same
  exact ⟨same, equal.symm.trans alone⟩

end Phrasebook
