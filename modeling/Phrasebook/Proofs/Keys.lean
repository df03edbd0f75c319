/-
**Which intents share their templates.**

An intent finds its templates under its key. Explicit keys are made of any name and generic keys of
the titles, so the keys of two intents can meet although the intents differ: an explicit intent
whose name is the title of a generic one, in lower case at the front and with `Generic` behind it,
`Doubles` the generic one. `Intent.key_eq_key_iff` says that keys meet in no other way.

The templates under a key feed an intent if its configuration is made of them, whatever they are;
those under its own key do, and no others (`feeds_iff`). So two intents of a compilation are fed by
the same templates only if one doubles the other (`shared_keys_iff`).
-/

import Phrasebook.Proofs.Compilation
import Phrasebook.Proofs.RoundTrip

namespace Phrasebook

/-! ### Generic keys -/

namespace GenericIntent

/-- Only the front of a text is changed. -/
theorem decapitalize_append {text : String} (nonempty : text ≠ "") (behind : String) :
    decapitalize (text ++ behind) = decapitalize text ++ behind := by
  have characters : text.toList ≠ [] := fun empty => nonempty (String.toList_eq_nil_iff.mp empty)
  obtain ⟨first, rest, split⟩ := List.exists_cons_of_ne_nil characters
  simp only [decapitalize, String.toList_append, split, List.cons_append]
  exact String.ext (by simp)

theorem title_ne_empty (intent : GenericIntent) : intent.title ≠ "" := by
  cases intent <;> decide

theorem key_eq (intent : GenericIntent) :
    intent.key = decapitalize intent.title ++ "Generic" ++ "Intent" := by
  rw [key, decapitalize_append intent.title_ne_empty, String.append_assoc]
  rfl

/-- The name in files, and so the key, tells the generic intent. -/
theorem code_injective : Function.Injective code := by
  intro first second same
  have read := first.parse_code
  rw [same, second.parse_code] at read
  exact (Except.ok.inj read).symm

theorem key_injective : Function.Injective key := by
  intro first second same
  rw [key_eq, key_eq, String.append_left_inj, String.append_left_inj] at same
  exact code_injective same

end GenericIntent

/-! ### Keys that meet -/

namespace Intent

/-- The name of the explicit intent is what the key of the generic one has in front of `Intent`. -/
inductive Doubles : Intent → Intent → Prop where
  | named (generic : GenericIntent) :
      Doubles (.explicit (GenericIntent.decapitalize generic.title ++ "Generic")) (.generic generic)

theorem explicit_key_eq_iff {name : String} {generic : GenericIntent} :
    (explicit name).key = (Intent.generic generic).key ↔
      Doubles (explicit name) (.generic generic) := by
  have keys : (explicit name).key = (Intent.generic generic).key ↔
      name = GenericIntent.decapitalize generic.title ++ "Generic" := by
    show name ++ "Intent" = generic.key ↔ _
    rw [generic.key_eq, String.append_left_inj]
  rw [keys]
  constructor
  · rintro rfl
    exact .named generic
  · rintro ⟨⟩
    rfl

/-- **Keys meet** only for equal intents and for doubles. -/
theorem key_eq_key_iff {first second : Intent} :
    first.key = second.key ↔ first = second ∨ Doubles first second ∨ Doubles second first := by
  cases first with
  | explicit name =>
    cases second with
    | explicit other =>
      show name ++ "Intent" = other ++ "Intent" ↔ _
      rw [String.append_left_inj]
      constructor
      · rintro rfl
        exact .inl rfl
      · rintro (same | ⟨⟨⟩⟩ | ⟨⟨⟩⟩)
        exact Intent.explicit.inj same
    | generic intent =>
      rw [explicit_key_eq_iff]
      constructor
      · exact fun doubles => .inr (.inl doubles)
      · rintro (⟨⟨⟩⟩ | doubles | ⟨⟨⟩⟩)
        exact doubles
  | generic intent =>
    cases second with
    | explicit name =>
      rw [eq_comm, explicit_key_eq_iff]
      constructor
      · exact fun doubles => .inr (.inr doubles)
      · rintro (⟨⟨⟩⟩ | ⟨⟨⟩⟩ | doubles)
        exact doubles
    | generic other =>
      show intent.key = other.key ↔ _
      constructor
      · intro same
        exact .inl (congrArg _ (GenericIntent.key_injective same))
      · rintro (same | ⟨⟨⟩⟩ | ⟨⟨⟩⟩)
        rw [Intent.generic.inj same]

end Intent

/-! ### Templates under a key -/

section Tables

variable (catalog : Catalog) (language : String) (table : TemplateTable)

/-- The configuration of the intent is made of the templates under the key, whatever these are. -/
def Feeds (key : String) (intent : Intent) : Prop :=
  ∀ templates, configurationOf catalog language (table.insert key templates) intent =
    ⟨intent, (Expansion.ofTemplates templates language catalog).utterances,
      (Expansion.ofTemplates templates language catalog).names⟩

variable {table}

theorem configurationOf_insert_self (intent : Intent) (templates : List String) :
    configurationOf catalog language (table.insert intent.key templates) intent =
      ⟨intent, (Expansion.ofTemplates templates language catalog).utterances,
        (Expansion.ofTemplates templates language catalog).names⟩ := by
  have found : TemplateTable.templatesFor (table.insert intent.key templates) intent =
      templates := by
    rw [TemplateTable.templatesFor, Dictionary.find?_insert_self]
    rfl
  rw [configurationOf, expansionOf, found]

/-- Templates that are put under another key are not seen. -/
theorem configurationOf_insert_of_ne {key : String} {intent : Intent} (apart : intent.key ≠ key)
    (templates : List String) :
    configurationOf catalog language (table.insert key templates) intent =
      configurationOf catalog language table intent := by
  have found : TemplateTable.templatesFor (table.insert key templates) intent =
      table.templatesFor intent := by
    rw [TemplateTable.templatesFor, Dictionary.find?_insert,
      if_neg (mt Std.compare_eq_iff_eq.mp apart)]
    rfl
  rw [configurationOf, configurationOf, expansionOf, expansionOf, found]

/-- There are templates with as many utterances as one likes. -/
theorem length_utterances_replicate (count : Nat) :
    (Expansion.ofTemplates (List.replicate count "") language catalog).utterances.length =
      count := by
  induction count with
  | zero => rfl
  | succ count ih => exact congrArg (· + 1) ih

/-- An intent is fed by the templates under its key and by no others. -/
theorem feeds_iff {key : String} {intent : Intent} :
    Feeds catalog language table key intent ↔ intent.key = key := by
  constructor
  · intro feeds
    by_contra apart
    -- The utterances are the same whatever stands under the key, so one more does not show.
    have same := feeds
      (List.replicate ((configurationOf catalog language table intent).utterances.length + 1) "")
    rw [configurationOf_insert_of_ne catalog language apart] at same
    have counted := congrArg (fun configuration => configuration.utterances.length) same
    simp only [length_utterances_replicate] at counted
    omega
  · rintro rfl
    exact configurationOf_insert_self catalog language intent

end Tables

/-- **Keys meet only for doubles.** Two intents have the same key exactly if they are equal or one
of them doubles the other; so of the intents that a language compiles for, two different ones are
fed by the templates under one key in that case and in no other. -/
theorem shared_keys_iff :
    (∀ first second : Intent, first.key = second.key ↔
        first = second ∨ Intent.Doubles first second ∨ Intent.Doubles second first) ∧
      ∀ intents services catalog language base compilation,
        compileTemplates intents services catalog language base = .ok compilation →
          ∃ table, base.withServices services language = .ok table ∧
            compilation.configurations = intents.map (configurationOf catalog language table) ∧
            ∀ first ∈ intents, ∀ second ∈ intents, first ≠ second →
              ((∃ key, Feeds catalog language table key first ∧
                  Feeds catalog language table key second) ↔
                Intent.Doubles first second ∨ Intent.Doubles second first) := by
  refine ⟨fun first second => Intent.key_eq_key_iff, ?_⟩
  intro intents services catalog language base compilation compiled
  obtain ⟨tables, offers, _, rfl⟩ := compileTemplates_eq_ok_iff.mp compiled
  refine ⟨base.merged tables, withServices_eq_ok_iff.mpr ⟨tables, offers, rfl⟩, rfl, ?_⟩
  intro first _ second _ different
  have met : first.key = second.key ↔ first = second ∨ Intent.Doubles first second ∨
      Intent.Doubles second first := Intent.key_eq_key_iff
  simp only [different, false_or] at met
  simp only [feeds_iff, exists_eq_left']
  rw [← met, eq_comm]

/-- An intent that is called as the generic one for help, and gets its templates. -/
theorem help_is_doubled :
    let intents : List Intent := [.explicit "helpGeneric", .generic .help]
    let catalog := EntityTable.catalog .empty
    let base : TemplateTable := Dictionary.empty.insert "helpGenericIntent" ["\x7bhelp|what\x7d"]
    let compilation : Compilation := ⟨[⟨.explicit "helpGeneric", ["help", "what"], []⟩,
      ⟨.generic .help, ["help", "what"], []⟩], []⟩
    compileTemplates intents [] catalog "en" base = .ok compilation ∧
      ∃ table, TemplateTable.withServices base [] "en" = .ok table ∧
        ∃ key, Feeds catalog "en" table key (.explicit "helpGeneric") ∧
          Feeds catalog "en" table key (.generic .help) := by
  intro intents catalog base compilation
  have compiled : compileTemplates intents [] catalog "en" base = .ok compilation := rfl
  obtain ⟨table, merged, _, fed⟩ := shared_keys_iff.2 intents [] catalog "en" base compilation
    compiled
  have doubled := fed (.explicit "helpGeneric") List.mem_cons_self (.generic .help)
    (List.mem_cons_of_mem _ List.mem_cons_self) (by decide)
  exact ⟨compiled, table, merged, doubled.mpr (.inl (.named .help))⟩

end Phrasebook
