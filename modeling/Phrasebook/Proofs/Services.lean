/-
**Template services only append.**

The table of a service is merged behind the tables before it, key by key: `find?_append` says what
two tables hold together, `under_merged` and `mem_keys_merged` what any number of them do. No other
table holds the same (`eq_merged_iff`), so `withServices_iff` says all that there is to say about
merging the tables of services.

More templates for an intent put their utterances behind those that are there, and of their names
those that are not listed yet (`Expansion.names_append`); they cannot cure a fault
(`Faultless.of_append`).

So when a language compiles with more services, it compiles with the first of them alone, and each
configuration is an extension of the one that it has then (`services_only_append`).
-/

import Phrasebook.Proofs.Compilation

namespace Phrasebook

open Text

/-! ### Templates behind templates -/

namespace TemplateTable

/-- Entries under distinct keys are put behind what is there under their keys. -/
theorem find?_appendEntries (table : TemplateTable) {entries : List (String × List String)}
    (distinct : (entries.map Prod.fst).Nodup) (key : String) :
    (table.appendEntries entries).find? key =
      match Dictionary.findIn? key entries with
      | none => table.find? key
      | some more => some ((table.find? key).getD [] ++ more) := by
  induction entries generalizing table with
  | nil => rfl
  | cons entry entries ih =>
    obtain ⟨other, more⟩ := entry
    rw [List.map_cons, List.nodup_cons] at distinct
    rw [appendEntries, ih _ distinct.2, Dictionary.find?_update, Dictionary.findIn?]
    by_cases same : key = other
    · subst same
      rw [Dictionary.findIn?_eq_none_iff.mpr distinct.1]
      simp
    · simp [same]

theorem find?_append (table more : TemplateTable) (key : String) :
    (table.append more).find? key =
      match more.find? key with
      | none => table.find? key
      | some added => some ((table.find? key).getD [] ++ added) :=
  find?_appendEntries table more.keys_nodup key

/-- The templates under a key; there are none under a missing one. -/
def under (table : TemplateTable) (key : String) : List String := (table.find? key).getD []

theorem under_append (table more : TemplateTable) (key : String) :
    (table.append more).under key = table.under key ++ more.under key := by
  unfold under
  rw [find?_append]
  cases more.find? key with
  | none => simp
  | some added => simp

/-- A key without templates is a key all the same. -/
theorem mem_keys_append {table more : TemplateTable} {key : String} :
    key ∈ (table.append more).keys ↔ key ∈ table.keys ∨ key ∈ more.keys := by
  simp only [← Dictionary.find?_isSome_iff, find?_append]
  cases more.find? key <;> simp

theorem merged_append (base : TemplateTable) (first second : List TemplateTable) :
    base.merged (first ++ second) = (base.merged first).merged second :=
  List.foldl_append

theorem under_merged (base : TemplateTable) (tables : List TemplateTable) (key : String) :
    (base.merged tables).under key = base.under key ++ tables.flatMap (·.under key) := by
  induction tables generalizing base with
  | nil => simp [merged]
  | cons table tables ih =>
    show ((base.append table).merged tables).under key = _
    rw [ih, under_append, List.append_assoc, List.flatMap_cons]

theorem mem_keys_merged {base : TemplateTable} {tables : List TemplateTable} {key : String} :
    key ∈ (base.merged tables).keys ↔ key ∈ base.keys ∨ ∃ table ∈ tables, key ∈ table.keys := by
  induction tables generalizing base with
  | nil => simp [merged]
  | cons table tables ih =>
    show key ∈ ((base.append table).merged tables).keys ↔ _
    rw [ih, mem_keys_append, List.exists_mem_cons_iff, or_assoc]

/-- **An intent finds the templates of all tables**, one table after the other. -/
theorem templatesFor_merged (base : TemplateTable) (tables : List TemplateTable) (intent : Intent) :
    (base.merged tables).templatesFor intent =
      base.templatesFor intent ++ tables.flatMap fun table => table.templatesFor intent :=
  base.under_merged tables intent.key

/-- Tables with the same keys and the same templates under them are equal. -/
theorem ext_under {first second : TemplateTable} (keys : ∀ key, key ∈ first.keys ↔ key ∈ second.keys)
    (templates : ∀ key, first.under key = second.under key) : first = second := by
  refine Dictionary.ext_find? fun key => ?_
  have present : (first.find? key).isSome ↔ (second.find? key).isSome := by
    simpa only [Dictionary.find?_isSome_iff] using keys key
  have same := templates key
  unfold under at same
  cases one : first.find? key with
  | none =>
    rw [one] at present
    cases two : second.find? key with
    | none => rfl
    | some more => simp [two] at present
  | some listed =>
    rw [one] at present same
    obtain ⟨more, two⟩ := Option.isSome_iff_exists.mp (present.mp rfl)
    rw [two] at same ⊢
    exact congrArg some same

/-- **What merged tables come to**: all their keys, and under each key the templates of all of them,
one table after the other. -/
theorem eq_merged_iff {base merged : TemplateTable} {tables : List TemplateTable} :
    merged = base.merged tables ↔
      (∀ key, key ∈ merged.keys ↔ key ∈ base.keys ∨ ∃ table ∈ tables, key ∈ table.keys) ∧
        ∀ key, merged.under key = base.under key ++ tables.flatMap (·.under key) := by
  constructor
  · rintro rfl
    exact ⟨fun key => mem_keys_merged, base.under_merged tables⟩
  · rintro ⟨keys, templates⟩
    exact ext_under (fun key => (keys key).trans mem_keys_merged.symm)
      fun key => (templates key).trans (base.under_merged tables key).symm

/-- The services in a row can be asked in two rows. -/
theorem withServices_append (base : TemplateTable) (first second : List TemplateService)
    (language : String) :
    base.withServices (first ++ second) language =
      base.withServices first language >>= fun merged => merged.withServices second language :=
  List.foldlM_append

/-- **Merging the tables of services.** It fails exactly if some service fails, with the name and the
reason of the first one that does. Otherwise the keys are those of the base and of all contributed
tables, those without templates included, and under each key stand the templates of the base and then
those of each service, in the order of the services. Services can be merged part by part. -/
theorem withServices_iff (base : TemplateTable) (services : List TemplateService)
    (language : String) :
    (∀ error, base.withServices services language = .error error ↔
      ∃ before service after reason, services = before ++ service :: after ∧
        (∀ earlier ∈ before, ∃ table, earlier.offer language = .ok table) ∧
        service.offer language = .error reason ∧
        error = .serviceFailed service.name language reason) ∧
      (∀ merged, base.withServices services language = .ok merged ↔
        ∃ tables : List TemplateTable, services.map (·.offer language) = tables.map .ok ∧
          (∀ key, key ∈ merged.keys ↔ key ∈ base.keys ∨ ∃ table ∈ tables, key ∈ table.keys) ∧
          ∀ key, merged.under key = base.under key ++ tables.flatMap (·.under key)) ∧
      ∀ first second : List TemplateService,
        base.withServices (first ++ second) language =
          base.withServices first language >>= fun merged =>
            merged.withServices second language := by
  refine ⟨fun error => withServices_eq_error_iff, fun merged => ?_, fun first second => ?_⟩
  · simp only [withServices_eq_ok_iff, eq_merged_iff]
  · exact base.withServices_append first second language

end TemplateTable

/-! ### Expansions behind expansions -/

namespace Expansion

variable (first second : List String) (language : String) (catalog : Catalog)

theorem phrases_append : (ofTemplates (first ++ second) language catalog).phrases =
    (ofTemplates first language catalog).phrases ++
      (ofTemplates second language catalog).phrases :=
  List.flatMap_append

theorem utterances_append : (ofTemplates (first ++ second) language catalog).utterances =
    (ofTemplates first language catalog).utterances ++
      (ofTemplates second language catalog).utterances := by
  show (phrasesOfAll (first ++ second)).flatMap _ = _
  rw [phrasesOfAll, List.flatMap_append, List.flatMap_append]
  rfl

theorem mentions_append : (ofTemplates (first ++ second) language catalog).mentions =
    (ofTemplates first language catalog).mentions ++
      (ofTemplates second language catalog).mentions := by
  rw [mentions, phrases_append, List.flatMap_append]
  rfl

/-- More templates add the names that are not listed yet. -/
theorem names_append : (ofTemplates (first ++ second) language catalog).names =
    (ofTemplates first language catalog).names ++
      (ofTemplates second language catalog).names.filter fun name =>
        name ∉ (ofTemplates first language catalog).names := by
  simp only [names_eq, mentions_append, eraseDups_append_eq, List.mem_eraseDups]

end Expansion

/-- Fewer templates are at fault less. -/
theorem Faultless.of_append {first second : List String} {language : String} {catalog : Catalog}
    (faultless : Faultless catalog (Expansion.ofTemplates (first ++ second) language catalog)) :
    Faultless catalog (Expansion.ofTemplates first language catalog) := by
  refine ⟨fun name mentioned => faultless.known name ?_, fun utterance listed =>
    faultless.clean utterance ?_⟩
  · rw [Expansion.mentions_append]
    exact List.mem_append_left _ mentioned
  · rw [Expansion.utterances_append]
    exact List.mem_append_left _ listed

/-! ### Compilations with more services -/

/-- A configuration with the utterances of more templates behind its own, and with the entities that
they mention and it did not list yet. -/
structure Configuration.Extends (more : Expansion) (earlier later : Configuration) : Prop where
  intent_eq : later.intent = earlier.intent
  utterances_eq : later.utterances = earlier.utterances ++ more.utterances
  entities_eq : later.entities =
    earlier.entities ++ more.names.filter fun name => name ∉ earlier.entities
  distinct : later.entities.Nodup

theorem extends_configurationOf (catalog : Catalog) (language : String) (base : TemplateTable)
    (tables : List TemplateTable) (intent : Intent) :
    Configuration.Extends
      (.ofTemplates (tables.flatMap fun table => table.templatesFor intent) language catalog)
      (configurationOf catalog language base intent)
      (configurationOf catalog language (base.merged tables) intent) := by
  have templates := base.templatesFor_merged tables intent
  refine ⟨rfl, ?_, ?_, nodup_of_pairwise_idxOf (pairwise_idxOf_eraseDups _)⟩
  · show (expansionOf catalog language (base.merged tables) intent).utterances = _
    rw [expansionOf, templates, Expansion.utterances_append]
    rfl
  · show (expansionOf catalog language (base.merged tables) intent).names = _
    rw [expansionOf, templates, Expansion.names_append]
    rfl

section Compilations

variable {catalog : Catalog} {language : String} {intents : List Intent}
  {first second : List TemplateService} {base : TemplateTable}

/-- **Services only append.** When a language compiles with more services behind the first ones, it
compiles with these alone, and each configuration is extended by what the further services offer for
its intent, in their order. -/
theorem services_only_append {whole : Compilation}
    (compiled : compileTemplates intents (first ++ second) catalog language base = .ok whole) :
    ∃ (tables : List TemplateTable) (part : Compilation),
      second.map (·.offer language) = tables.map .ok ∧
        compileTemplates intents first catalog language base = .ok part ∧
        List.Forall₂ (fun earlier later => Configuration.Extends
            (.ofTemplates (tables.flatMap fun table => table.templatesFor earlier.intent)
              language catalog) earlier later)
          part.configurations whole.configurations := by
  obtain ⟨all, offers, faultless, rfl⟩ := compileTemplates_eq_ok_iff.mp compiled
  rw [List.map_append] at offers
  -- The offers split where the services do.
  obtain ⟨early, late, rfl, before, behind⟩ := List.map_eq_append_iff.mp offers.symm
  rw [TemplateTable.merged_append] at faultless
  refine ⟨late, _, behind.symm, compileTemplates_eq_ok_iff.mpr
    ⟨early, before.symm, fun intent declared => ?_, rfl⟩, ?_⟩
  · have fine := faultless intent declared
    rw [expansionOf, TemplateTable.templatesFor_merged] at fine
    exact fine.of_append
  · rw [TemplateTable.merged_append, List.forall₂_map_left_iff, List.forall₂_map_right_iff,
      List.forall₂_same]
    exact fun intent _ => extends_configurationOf catalog language (base.merged early) late intent

/-- The second service mentions an entity that is listed already, and one that is not. -/
theorem more_seats_append :
    let catalog := EntityTable.catalog
      ((Dictionary.empty.insert "n" (.ofKind "T")).insert "m" (.ofKind "T"))
    let base : TemplateTable := Dictionary.empty.insert "BookIntent" ["\x7ba|b\x7d"]
    let offer (template : String) : TemplateService :=
      ⟨"seats", fun _ => .ok (Dictionary.empty.insert "BookIntent" [template])⟩
    let seats := offer "\x7b\x7bn\x7d\x7d"
    let more := offer "\x7b\x7bn\x7d\x7d \x7b\x7bm\x7d\x7d"
    let whole : Compilation := ⟨[⟨.explicit "Book", ["a", "b", "\x7b\x7bn\x7d\x7d",
      "\x7b\x7bn\x7d\x7d \x7b\x7bm\x7d\x7d"], ["n", "m"]⟩, ⟨.generic .help, [], []⟩], []⟩
    compileTemplates [.explicit "Book", .generic .help] ([seats] ++ [more]) catalog "en" base =
        .ok whole ∧
      ∃ (tables : List TemplateTable) (part : Compilation),
        [more].map (·.offer "en") = tables.map .ok ∧
          compileTemplates [.explicit "Book", .generic .help] [seats] catalog "en" base = .ok part ∧
          List.Forall₂ (fun earlier later => Configuration.Extends
              (.ofTemplates (tables.flatMap fun table => table.templatesFor earlier.intent)
                "en" catalog) earlier later)
            part.configurations whole.configurations := by
  refine ⟨rfl, services_only_append ?_⟩
  rfl

end Compilations

end Phrasebook
