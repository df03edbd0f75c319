/-
**What compiling a language comes to.**

Three things can stop a compilation: a service fails, an intent's templates mention an entity that
the catalog does not know, or an utterance has a stray brace. Each stage is described by an
equivalence of its own:

* `withServices_eq_ok_iff`, `withServices_eq_error_iff`: merging the tables of the services;
* `configure_eq_ok_iff`, `configure_eq_error_iff`: one intent, which is `Faultless` or has an
  `IntentFault`;
* `compileTemplates_eq_ok_iff`: a compilation that succeeds.

`Outcome` puts them together in the order in which they count: the first failing service, else the
first intent at fault, else the configurations of all intents and a warning for each unused key.
-/

import Phrasebook.Compilation
import Phrasebook.Proofs.Phrase
import Phrasebook.Proofs.Sequence

namespace Phrasebook

/-! ### The merged table -/

/-- The templates that an intent finds in a table; there are none under a missing key. -/
def TemplateTable.templatesFor (table : TemplateTable) (intent : Intent) : List String :=
  (table.find? intent.key).getD []

/-- A table with other tables behind it, in their order. -/
def TemplateTable.merged (base : TemplateTable) (tables : List TemplateTable) : TemplateTable :=
  tables.foldl TemplateTable.append base

theorem contribution_eq_ok_iff {service : TemplateService} {language : String}
    {table : TemplateTable} :
    service.contribution language = .ok table ↔ service.offer language = .ok table := by
  rw [TemplateService.contribution]
  cases service.offer language <;> simp

theorem contribution_eq_error_iff {service : TemplateService} {language : String}
    {error : BuildError} :
    service.contribution language = .error error ↔
      ∃ reason, service.offer language = .error reason ∧
        error = .serviceFailed service.name language reason := by
  rw [TemplateService.contribution]
  cases service.offer language <;> simp [eq_comm]

section Services

variable {language : String}

theorem withServices_cons (base : TemplateTable) (service : TemplateService)
    (services : List TemplateService) :
    base.withServices (service :: services) language =
      service.contribution language >>= fun table =>
        (base.append table).withServices services language := by
  rw [TemplateTable.withServices, List.foldlM_cons]
  cases service.contribution language <;> rfl

/-- The tables of the services can be collected first and merged later. -/
theorem withServices_eq (base : TemplateTable) (services : List TemplateService) :
    base.withServices services language =
      services.mapM (·.contribution language) >>= fun tables => .ok (base.merged tables) := by
  induction services generalizing base with
  | nil => rfl
  | cons service services ih =>
    rw [withServices_cons, List.mapM_cons]
    cases service.contribution language with
    | error error => rfl
    | ok table =>
      show (base.append table).withServices services language = _
      rw [ih]
      cases services.mapM (·.contribution language) <;> rfl

theorem withServices_eq_ok_iff {base table : TemplateTable} {services : List TemplateService} :
    base.withServices services language = .ok table ↔
      ∃ tables : List TemplateTable, services.map (·.offer language) = tables.map .ok ∧
        table = base.merged tables := by
  rw [withServices_eq, bind_eq_ok_iff]
  refine exists_congr fun tables => and_congr ?_ ?_
  · rw [mapM_eq_ok_iff, ← List.forall₂_eq_eq_eq, List.forall₂_map_left_iff,
      List.forall₂_map_right_iff]
    simp only [contribution_eq_ok_iff]
  · rw [Except.ok.injEq, eq_comm]

/-- The first failing service decides, whatever the templates are. -/
theorem withServices_eq_error_iff {base : TemplateTable} {services : List TemplateService}
    {error : BuildError} :
    base.withServices services language = .error error ↔
      ∃ before service after reason, services = before ++ service :: after ∧
        (∀ earlier ∈ before, ∃ table, earlier.offer language = .ok table) ∧
        service.offer language = .error reason ∧
        error = .serviceFailed service.name language reason := by
  rw [withServices_eq, bind_eq_error_iff, mapM_eq_error_iff]
  simp only [contribution_eq_ok_iff, contribution_eq_error_iff]
  constructor
  · rintro (⟨before, service, after, split, fine, reason, refused, same⟩ | ⟨_, _, impossible⟩)
    · exact ⟨before, service, after, reason, split, fine, refused, same⟩
    · cases impossible
  · rintro ⟨before, service, after, reason, split, fine, refused, same⟩
    exact .inl ⟨before, service, after, split, fine, reason, refused, same⟩

end Services

/-! ### One intent -/

/-- The names that the phrases refer to, in reading order and with repeats. -/
def Expansion.mentions (expansion : Expansion) : List String :=
  expansion.phrases.flatMap fun phrase => (references phrase).map (·.name)

theorem Expansion.names_eq (expansion : Expansion) :
    expansion.names = expansion.mentions.eraseDups := rfl

theorem Expansion.mem_mentions {expansion : Expansion} {name : String} :
    name ∈ expansion.mentions ↔ ∃ phrase ∈ expansion.phrases, name ∈ namesIn phrase.toList := by
  simp only [Expansion.mentions, List.mem_flatMap, names_references]

theorem Expansion.mem_names {expansion : Expansion} {name : String} :
    name ∈ expansion.names ↔ name ∈ expansion.mentions := List.mem_eraseDups

/-- The catalog knows all entities, and no utterance has a stray brace. -/
structure Faultless (catalog : Catalog) (expansion : Expansion) : Prop where
  known : ∀ name ∈ expansion.mentions, (catalog.find? name).isSome
  clean : ∀ utterance ∈ expansion.utterances, hasStrayBrace utterance = false

/-- What is wrong with an intent's templates: the first name, in reading order, that the catalog
does not know, or else the first utterance with a stray brace. -/
inductive IntentFault (catalog : Catalog) (language : String) (intent : Intent)
    (expansion : Expansion) : BuildError → Prop where
  | unknownEntity {seen later known : List String} {name : String} :
      expansion.mentions = seen ++ name :: later →
      (∀ earlier ∈ seen, (catalog.find? earlier).isSome) → catalog.find? name = none →
      known.Perm catalog.names → known.Pairwise (· ≤ ·) →
      IntentFault catalog language intent expansion
        (.unknownEntity name intent.title language known)
  | leftoverPlaceholder {seen later : List String} {utterance : String} :
      (∀ name ∈ expansion.mentions, (catalog.find? name).isSome) →
      expansion.utterances = seen ++ utterance :: later →
      (∀ earlier ∈ seen, hasStrayBrace earlier = false) → hasStrayBrace utterance = true →
      IntentFault catalog language intent expansion
        (.leftoverPlaceholder utterance intent.title language)

/-- Sorting is the only way to put names in ascending order. -/
theorem eq_mergeSort_iff {known names : List String} :
    known = names.mergeSort (· ≤ ·) ↔ known.Perm names ∧ known.Pairwise (· ≤ ·) := by
  have sorted : (names.mergeSort (· ≤ ·)).Pairwise (· ≤ ·) := by
    have pairs := @List.pairwise_mergeSort String (fun first second => first ≤ second)
      (fun _ _ _ => by simpa using String.le_trans) (fun _ _ => by simpa using String.le_total _ _)
      names
    simpa using pairs
  constructor
  · rintro rfl
    exact ⟨List.mergeSort_perm _ _, sorted⟩
  · rintro ⟨permuted, ordered⟩
    exact (permuted.trans (List.mergeSort_perm names _).symm).eq_of_pairwise
      (fun _ _ _ _ => String.le_antisymm) ordered sorted

section Intents

variable {catalog : Catalog} {language : String} {intent : Intent} {expansion : Expansion}

theorem checkNames_eq_ok_iff :
    checkNames intent language expansion.names catalog = .ok () ↔
      ∀ name ∈ expansion.mentions, (catalog.find? name).isSome := by
  rw [checkNames, Expansion.names_eq, find?_eraseDups]
  split
  next found =>
    have all := List.find?_eq_none.mp found
    simpa [Option.ne_none_iff_isSome] using all
  next name found =>
    obtain ⟨unknown, seen, later, split, _⟩ := List.find?_eq_some_iff_append.mp found
    simp only [reduceCtorEq, false_iff]
    intro known
    have here := known name (split ▸ List.mem_append_right _ List.mem_cons_self)
    simp_all

theorem checkNames_eq_error_iff {error : BuildError} :
    checkNames intent language expansion.names catalog = .error error ↔
      ∃ seen name later known, expansion.mentions = seen ++ name :: later ∧
        (∀ earlier ∈ seen, (catalog.find? earlier).isSome) ∧ catalog.find? name = none ∧
        known.Perm catalog.names ∧ known.Pairwise (· ≤ ·) ∧
        error = .unknownEntity name intent.title language known := by
  rw [checkNames, Expansion.names_eq, find?_eraseDups]
  constructor
  · intro fails
    split at fails
    · cases fails
    next name found =>
      cases fails
      obtain ⟨unknown, seen, later, split, fine⟩ := List.find?_eq_some_iff_append.mp found
      obtain ⟨permuted, ordered⟩ := eq_mergeSort_iff.mp (Eq.refl (catalog.names.mergeSort (· ≤ ·)))
      exact ⟨seen, name, later, _, split, by simpa [Option.isSome_iff_ne_none] using fine,
        by simpa using unknown, permuted, ordered, rfl⟩
  · rintro ⟨seen, name, later, known, split, fine, unknown, permuted, ordered, rfl⟩
    have found : (expansion.mentions.find? fun name => (catalog.find? name).isNone) = some name :=
      List.find?_eq_some_iff_append.mpr ⟨by simp [unknown], seen, later, split, fun earlier member =>
        by simpa [Option.isSome_iff_ne_none] using fine earlier member⟩
    rw [found, eq_mergeSort_iff.mpr ⟨permuted, ordered⟩]

theorem checkUtterances_eq_ok_iff {utterances : List String} :
    checkUtterances intent language utterances = .ok () ↔
      ∀ utterance ∈ utterances, hasStrayBrace utterance = false := by
  rw [checkUtterances]
  cases found : utterances.find? hasStrayBrace with
  | none => simpa using found
  | some utterance =>
    simp only [reduceCtorEq, false_iff]
    intro clean
    have here := clean utterance (List.mem_of_find?_eq_some found)
    rw [List.find?_some found] at here
    cases here

theorem checkUtterances_eq_error_iff {utterances : List String} {error : BuildError} :
    checkUtterances intent language utterances = .error error ↔
      ∃ seen utterance later, utterances = seen ++ utterance :: later ∧
        (∀ earlier ∈ seen, hasStrayBrace earlier = false) ∧ hasStrayBrace utterance = true ∧
        error = .leftoverPlaceholder utterance intent.title language := by
  rw [checkUtterances]
  constructor
  · intro fails
    split at fails
    · cases fails
    next utterance found =>
      cases fails
      obtain ⟨stray, seen, later, split, fine⟩ := List.find?_eq_some_iff_append.mp found
      exact ⟨seen, utterance, later, split, by simpa using fine, stray, rfl⟩
  · rintro ⟨seen, utterance, later, split, fine, stray, rfl⟩
    have found : utterances.find? hasStrayBrace = some utterance :=
      List.find?_eq_some_iff_append.mpr ⟨stray, seen, later, split, by simpa using fine⟩
    rw [found]

theorem configure_eq_ok_iff {configuration : Configuration} :
    configure intent expansion language catalog = .ok configuration ↔
      Faultless catalog expansion ∧
        configuration = ⟨intent, expansion.utterances, expansion.names⟩ := by
  rw [configure, bind_eq_ok_iff]
  constructor
  · rintro ⟨_, known, rest⟩
    obtain ⟨_, clean, same⟩ := bind_eq_ok_iff.mp rest
    cases same
    exact ⟨⟨checkNames_eq_ok_iff.mp known, checkUtterances_eq_ok_iff.mp clean⟩, rfl⟩
  · rintro ⟨faultless, rfl⟩
    exact ⟨(), checkNames_eq_ok_iff.mpr faultless.known, bind_eq_ok_iff.mpr
      ⟨(), checkUtterances_eq_ok_iff.mpr faultless.clean, rfl⟩⟩

theorem configure_eq_error_iff {error : BuildError} :
    configure intent expansion language catalog = .error error ↔
      IntentFault catalog language intent expansion error := by
  rw [configure, bind_eq_error_iff, checkNames_eq_error_iff]
  constructor
  · rintro (⟨seen, name, later, known, split, fine, unknown, permuted, ordered, rfl⟩ |
      ⟨_, known, rest⟩)
    · exact .unknownEntity split fine unknown permuted ordered
    · rcases bind_eq_error_iff.mp rest with fails | ⟨_, _, impossible⟩
      · obtain ⟨seen, utterance, later, split, fine, stray, rfl⟩ :=
          checkUtterances_eq_error_iff.mp fails
        exact .leftoverPlaceholder (checkNames_eq_ok_iff.mp known) split fine stray
      · cases impossible
  · rintro (⟨split, fine, unknown, permuted, ordered⟩ | ⟨known, split, fine, stray⟩)
    · exact .inl ⟨_, _, _, _, split, fine, unknown, permuted, ordered, rfl⟩
    · exact .inr ⟨(), checkNames_eq_ok_iff.mpr known, bind_eq_error_iff.mpr (.inl
        (checkUtterances_eq_error_iff.mpr ⟨_, _, _, split, fine, stray, rfl⟩))⟩

end Intents

/-! ### All intents -/

/-- What the templates of an intent come to. -/
def expansionOf (catalog : Catalog) (language : String) (table : TemplateTable) (intent : Intent) :
    Expansion :=
  Expansion.ofTemplates (table.templatesFor intent) language catalog

/-- A missing key counts as a key without templates. -/
theorem configureFrom_eq (catalog : Catalog) (language : String) (table : TemplateTable)
    (intent : Intent) :
    configureFrom (table.mapValues fun _ templates =>
        Expansion.ofTemplates templates language catalog) language catalog intent =
      configure intent (expansionOf catalog language table intent) language catalog := by
  have found := table.find?_mapValues
    (fun _ templates => Expansion.ofTemplates templates language catalog) intent.key
  rw [configureFrom, found, expansionOf, TemplateTable.templatesFor]
  cases table.find? intent.key <;> rfl

/-- The configuration of an intent that is not at fault. -/
def configurationOf (catalog : Catalog) (language : String) (table : TemplateTable)
    (intent : Intent) : Configuration where
  intent := intent
  utterances := (expansionOf catalog language table intent).utterances
  entities := (expansionOf catalog language table intent).names

/-- The keys of a table that no intent uses. -/
def unusedKeysOf (table : TemplateTable) (intents : List Intent) : List String :=
  table.keys.filter fun key => !(intents.map Intent.key).contains key

theorem mem_unusedKeysOf {table : TemplateTable} {intents : List Intent} {key : String} :
    key ∈ unusedKeysOf table intents ↔
      key ∈ table.keys ∧ ∀ intent ∈ intents, intent.key ≠ key := by
  simp [unusedKeysOf]

section Tables

variable {catalog : Catalog} {language : String} {intents : List Intent}
  {services : List TemplateService} {base : TemplateTable}

theorem configureFrom_eq_ok_iff {table : TemplateTable} {intent : Intent}
    {configuration : Configuration} :
    configureFrom (table.mapValues fun _ templates =>
        Expansion.ofTemplates templates language catalog) language catalog intent =
          .ok configuration ↔
      Faultless catalog (expansionOf catalog language table intent) ∧
        configuration = configurationOf catalog language table intent := by
  rw [configureFrom_eq, configure_eq_ok_iff]
  rfl

/-- **A compilation succeeds** exactly if all services offer a table and no intent is at fault. -/
theorem compileTemplates_eq_ok_iff {compilation : Compilation} :
    compileTemplates intents services catalog language base = .ok compilation ↔
      ∃ tables : List TemplateTable, services.map (·.offer language) = tables.map .ok ∧
        (∀ intent ∈ intents,
          Faultless catalog (expansionOf catalog language (base.merged tables) intent)) ∧
        compilation = ⟨intents.map (configurationOf catalog language (base.merged tables)),
          unusedKeysOf (base.merged tables) intents⟩ := by
  simp only [compileTemplates, compileExpansions, bind_eq_ok_iff, withServices_eq_ok_iff,
    mapM_eq_ok_iff, configureFrom_eq_ok_iff, forall₂_and_eq_iff, Dictionary.keys_mapValues]
  constructor
  · rintro ⟨_, ⟨tables, offers, rfl⟩, configurations, ⟨faultless, rfl⟩, same⟩
    cases same
    exact ⟨tables, offers, faultless, rfl⟩
  · rintro ⟨tables, offers, faultless, rfl⟩
    exact ⟨_, ⟨tables, offers, rfl⟩, _, ⟨faultless, rfl⟩, rfl⟩

/-- What all configurations of a compilation have, if it succeeds, is what those of intents that are
not at fault have. -/
theorem forall_configurations_iff {Holds : Configuration → Prop} :
    (∀ compilation, compileTemplates intents services catalog language base = .ok compilation →
        ∀ configuration ∈ compilation.configurations, Holds configuration) ↔
      ∀ tables : List TemplateTable, services.map (·.offer language) = tables.map .ok →
        (∀ intent ∈ intents,
          Faultless catalog (expansionOf catalog language (base.merged tables) intent)) →
        ∀ intent ∈ intents, Holds (configurationOf catalog language (base.merged tables) intent) := by
  constructor
  · intro holds tables offers faultless intent declared
    have compiled := compileTemplates_eq_ok_iff.mpr ⟨tables, offers, faultless, rfl⟩
    exact holds _ compiled _ (List.mem_map_of_mem declared)
  · intro holds compilation compiled configuration made
    obtain ⟨tables, offers, faultless, rfl⟩ := compileTemplates_eq_ok_iff.mp compiled
    obtain ⟨intent, declared, rfl⟩ := List.mem_map.mp made
    exact holds tables offers faultless intent declared

/-- **A compilation fails** with the first failing service, or else with the first intent at
fault. -/
theorem compileTemplates_eq_error_iff {error : BuildError} :
    compileTemplates intents services catalog language base = .error error ↔
      (∃ before service after reason, services = before ++ service :: after ∧
        (∀ earlier ∈ before, ∃ table, earlier.offer language = .ok table) ∧
        service.offer language = .error reason ∧
        error = .serviceFailed service.name language reason) ∨
      ∃ tables : List TemplateTable, services.map (·.offer language) = tables.map .ok ∧
        ∃ before intent after, intents = before ++ intent :: after ∧
          (∀ earlier ∈ before,
            Faultless catalog (expansionOf catalog language (base.merged tables) earlier)) ∧
          IntentFault catalog language intent
            (expansionOf catalog language (base.merged tables) intent) error := by
  simp only [compileTemplates, compileExpansions, bind_eq_error_iff, withServices_eq_error_iff,
    withServices_eq_ok_iff, mapM_eq_error_iff, configureFrom_eq, configure_eq_error_iff]
  constructor
  · rintro (fails | ⟨_, ⟨tables, offers, rfl⟩, fails | ⟨_, _, impossible⟩⟩)
    · exact .inl fails
    · obtain ⟨before, intent, after, split, fine, fault⟩ := fails
      exact .inr ⟨tables, offers, before, intent, after, split,
        fun earlier member => by
          obtain ⟨_, done⟩ := fine earlier member
          exact (configure_eq_ok_iff.mp done).1, fault⟩
    · cases impossible
  · rintro (fails | ⟨tables, offers, before, intent, after, split, fine, fault⟩)
    · exact .inl fails
    · exact .inr ⟨_, ⟨tables, offers, rfl⟩, .inl ⟨before, intent, after, split,
        fun earlier member => ⟨_, configure_eq_ok_iff.mpr ⟨fine earlier member, rfl⟩⟩, fault⟩⟩

section Offers

variable {tables : List TemplateTable} (offers : services.map (·.offer language) = tables.map .ok)

include offers

/-- When all services offer a table, only the intents matter. -/
theorem compileTemplates_eq_ok_iff_of_offers {compilation : Compilation} :
    compileTemplates intents services catalog language base = .ok compilation ↔
      (∀ intent ∈ intents,
        Faultless catalog (expansionOf catalog language (base.merged tables) intent)) ∧
        compilation = ⟨intents.map (configurationOf catalog language (base.merged tables)),
          unusedKeysOf (base.merged tables) intents⟩ := by
  rw [compileTemplates_eq_ok_iff]
  constructor
  · rintro ⟨others, same, rest⟩
    have equal : others = tables :=
      List.map_injective_iff.mpr (fun _ _ => Except.ok.inj) (same.symm.trans offers)
    exact equal ▸ rest
  · exact fun rest => ⟨tables, offers, rest⟩

theorem compileTemplates_eq_error_iff_of_offers {error : BuildError} :
    compileTemplates intents services catalog language base = .error error ↔
      ∃ before intent after, intents = before ++ intent :: after ∧
        (∀ earlier ∈ before,
          Faultless catalog (expansionOf catalog language (base.merged tables) earlier)) ∧
        IntentFault catalog language intent
          (expansionOf catalog language (base.merged tables) intent) error := by
  rw [compileTemplates_eq_error_iff]
  constructor
  · rintro (fails | ⟨others, same, rest⟩)
    · have done : base.withServices services language = .ok (base.merged tables) :=
        withServices_eq_ok_iff.mpr ⟨tables, offers, rfl⟩
      have failed : base.withServices services language = .error error :=
        withServices_eq_error_iff.mpr fails
      rw [done] at failed
      cases failed
    · have equal : others = tables :=
        List.map_injective_iff.mpr (fun _ _ => Except.ok.inj) (same.symm.trans offers)
      exact equal ▸ rest
  · exact fun rest => .inr ⟨tables, offers, rest⟩

end Offers

end Tables

/-! ### The outcome -/

/-- What a configuration is to the expansion of its intent: it has all the utterances, and each
entity that the phrases mention, once and in the order of first mention. -/
structure Configured (intent : Intent) (expansion : Expansion) (configuration : Configuration) :
    Prop where
  intent_eq : configuration.intent = intent
  utterances_eq : configuration.utterances = expansion.utterances
  mem_entities : ∀ name, name ∈ configuration.entities ↔ name ∈ expansion.mentions
  distinct : configuration.entities.Nodup
  ordered : configuration.entities.Pairwise fun first second =>
    expansion.mentions.idxOf first < expansion.mentions.idxOf second

theorem configured_iff {catalog : Catalog} {language : String} {table : TemplateTable}
    {intent : Intent} {configuration : Configuration} :
    Configured intent (expansionOf catalog language table intent) configuration ↔
      configuration = configurationOf catalog language table intent := by
  constructor
  · rintro ⟨sameIntent, sameUtterances, members, _, ordered⟩
    have sameEntities := eq_eraseDups_iff.mpr ⟨members, ordered⟩
    show Configuration.mk configuration.intent configuration.utterances configuration.entities = _
    rw [sameIntent, sameUtterances, sameEntities]
    rfl
  · rintro rfl
    obtain ⟨members, ordered⟩ := eq_eraseDups_iff.mp
      (Expansion.names_eq (expansionOf catalog language table intent))
    exact ⟨rfl, rfl, members, nodup_of_pairwise_idxOf ordered, ordered⟩

theorem eq_unusedKeysOf_iff {table : TemplateTable} {intents : List Intent} {keys : List String} :
    keys = unusedKeysOf table intents ↔
      (∀ key, key ∈ keys ↔ key ∈ table.keys ∧ ∀ intent ∈ intents, intent.key ≠ key) ∧
        keys.Pairwise fun first second => compare first second = .lt := by
  have sorted : (unusedKeysOf table intents).Pairwise fun first second =>
      compare first second = .lt := table.keys_ascending.filter _
  constructor
  · rintro rfl
    exact ⟨fun key => mem_unusedKeysOf, sorted⟩
  · rintro ⟨members, ascending⟩
    have permuted : keys.Perm (unusedKeysOf table intents) :=
      (List.perm_ext_iff_of_nodup (Dictionary.nodup_of_ascending ascending)
        (Dictionary.nodup_of_ascending sorted)).mpr fun key => by rw [members, mem_unusedKeysOf]
    refine permuted.eq_of_pairwise (fun first second _ _ before after => ?_) ascending sorted
    have turned : compare second first = .gt := Std.OrientedCmp.gt_iff_lt.mpr before
    rw [after] at turned
    cases turned

/-- An intent at fault has templates under its key. -/
theorem IntentFault.exists_templates {catalog : Catalog} {language : String}
    {table : TemplateTable} {intent : Intent} {error : BuildError}
    (fault : IntentFault catalog language intent (expansionOf catalog language table intent)
      error) : ∃ templates, table.find? intent.key = some templates := by
  rw [expansionOf, TemplateTable.templatesFor] at fault
  cases found : table.find? intent.key with
  | some templates => exact ⟨templates, rfl⟩
  | none =>
    rw [found] at fault
    rcases fault with ⟨split, _⟩ | ⟨_, split, _⟩
    · exact absurd split (by simp [Expansion.mentions, Expansion.ofTemplates, phrasesOfAll])
    · exact absurd split (by simp [Expansion.ofTemplates, phrasesOfAll])

/-- **What a compilation comes to**, with its warnings. -/
inductive Outcome (intents : List Intent) (services : List TemplateService) (catalog : Catalog)
    (language : String) (base : TemplateTable) :
    Except BuildError Compilation → List Warning → Prop where
  /-- The first failing service decides, whatever the templates are. -/
  | serviceFails {before after : List TemplateService} {service : TemplateService}
      {reason : String} :
      services = before ++ service :: after →
      (∀ earlier ∈ before, ∃ table, earlier.offer language = .ok table) →
      service.offer language = .error reason →
      Outcome intents services catalog language base
        (.error (.serviceFailed service.name language reason)) []
  /-- The first intent at fault decides, whatever templates no intent uses. -/
  | intentFails {tables : List TemplateTable} {before after : List Intent} {intent : Intent}
      {templates : List String} {error : BuildError} :
      services.map (·.offer language) = tables.map .ok →
      intents = before ++ intent :: after →
      (∀ earlier ∈ before,
        Faultless catalog (expansionOf catalog language (base.merged tables) earlier)) →
      (base.merged tables).find? intent.key = some templates →
      IntentFault catalog language intent (.ofTemplates templates language catalog) error →
      Outcome intents services catalog language base (.error error) []
  /-- Each intent has its configuration, and each key that no intent uses its warning. -/
  | compiles {tables : List TemplateTable} {configurations : List Configuration}
      {unused : List String} :
      services.map (·.offer language) = tables.map .ok →
      (∀ intent ∈ intents,
        Faultless catalog (expansionOf catalog language (base.merged tables) intent)) →
      List.Forall₂ (fun intent configuration => Configured intent
        (expansionOf catalog language (base.merged tables) intent) configuration)
        intents configurations →
      (∀ key, key ∈ unused ↔
        key ∈ (base.merged tables).keys ∧ ∀ intent ∈ intents, intent.key ≠ key) →
      unused.Pairwise (fun first second => compare first second = .lt) →
      Outcome intents services catalog language base (.ok ⟨configurations, unused⟩)
        (unused.map fun key => ⟨language, key⟩)

section Outcomes

variable {catalog : Catalog} {language : String} {intents : List Intent}
  {services : List TemplateService} {base : TemplateTable}

/-- Configurations of all intents, none of them at fault, are the ones that are made. -/
theorem forall₂_configured_iff {table : TemplateTable} {configurations : List Configuration} :
    List.Forall₂ (fun intent configuration => Configured intent
        (expansionOf catalog language table intent) configuration) intents configurations ↔
      configurations = intents.map (configurationOf catalog language table) := by
  simp only [configured_iff]
  have pairs := @forall₂_and_eq_iff Intent Configuration (fun _ => True)
    (configurationOf catalog language table) intents configurations
  simpa using pairs

/-- **The outcome of a compilation** is the one result that it has, with the warnings of that
result. -/
theorem outcome_iff_compileTemplates {result : Except BuildError Compilation}
    {warnings : List Warning} :
    Outcome intents services catalog language base result warnings ↔
      compileTemplates intents services catalog language base = result ∧
        warningsOf language result = warnings := by
  constructor
  · rintro (⟨split, fine, refused⟩ | ⟨offers, split, fine, found, fault⟩ |
      ⟨offers, faultless, configured, members, ascending⟩)
    · exact ⟨compileTemplates_eq_error_iff.mpr
        (.inl ⟨_, _, _, _, split, fine, refused, rfl⟩), rfl⟩
    · refine ⟨compileTemplates_eq_error_iff.mpr
        (.inr ⟨_, offers, _, _, _, split, fine, ?_⟩), rfl⟩
      rwa [expansionOf, TemplateTable.templatesFor, found]
    · obtain rfl := forall₂_configured_iff.mp configured
      obtain rfl := eq_unusedKeysOf_iff.mpr ⟨members, ascending⟩
      exact ⟨compileTemplates_eq_ok_iff.mpr ⟨_, offers, faultless, rfl⟩, rfl⟩
  · rintro ⟨compiled, rfl⟩
    cases result with
    | error error =>
      rcases compileTemplates_eq_error_iff.mp compiled with
        ⟨_, _, _, _, split, fine, refused, rfl⟩ | ⟨tables, offers, _, intent, _, split, fine, fault⟩
      · exact .serviceFails split fine refused
      · obtain ⟨templates, found⟩ := fault.exists_templates
        rw [expansionOf, TemplateTable.templatesFor, found] at fault
        exact .intentFails offers split fine found fault
    | ok compilation =>
      obtain ⟨tables, offers, faultless, rfl⟩ := compileTemplates_eq_ok_iff.mp compiled
      obtain ⟨members, ascending⟩ := eq_unusedKeysOf_iff.mp
        (Eq.refl (unusedKeysOf (base.merged tables) intents))
      exact .compiles offers faultless (forall₂_configured_iff.mpr rfl) members ascending

end Outcomes

end Phrasebook
