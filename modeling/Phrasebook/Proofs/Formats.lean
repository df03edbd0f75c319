/-
**Formats restore what they write.**

A format restores its values if it reads each of them back from the draft of what it writes
(`Format.Restores`). Renaming and refining a format keeps that; the formats of lists, dictionaries,
optional values and records restore their values because they read them from any of their layouts.

A format that restores its values reads them from every text that writes them
(`Format.Restores.readText_eq`), from the one without white space (`readText_text`) as from the
indented one (`readText_pretty`).

The formats of texts and lists read nothing else (`Format.ReadsExactly`), and a dictionary is read
from every object whose members the format of its values reads
(`Format.ReadsExactly.readText_dictionary_eq_ok_iff`).
-/

import Phrasebook.Json.Format
import Phrasebook.Proofs.JsonText
import Phrasebook.Proofs.Sequence

namespace Phrasebook.Json

open Draft

/-- The format reads each value back from the draft of what it writes. -/
def Format.Restores {α : Type} (format : Format α) : Prop :=
  ∀ value, format.read (exact (format.write value)) = .ok value

namespace Draft

theorem exactItems_eq (items : List Json) : exactItems items = items.map exact := by
  induction items with
  | nil => rfl
  | cons item items ih => rw [exactItems, ih, List.map_cons]

theorem exactMembers_eq (members : List (String × Json)) :
    exactMembers members = members.map fun (key, value) => (some key, exact value) := by
  induction members with
  | nil => rfl
  | cons member members ih => rw [exactMembers, ih, List.map_cons]

end Draft

namespace Format

variable {α β : Type} {format : Format α}

/-! ### Texts -/

/-- **A format reads its values from every text that writes them.** -/
theorem Restores.readText_eq (restores : format.Restores) {value : α}
    {text before after : List Char} (spelled : Spells (format.write value) text)
    (beforeWhite : IsGap before) (afterWhite : IsGap after) :
    format.readText (String.ofList (before ++ (text ++ after))) = .ok value := by
  rw [readText, spelled.ofText_eq beforeWhite afterWhite]
  exact bind_eq_ok_iff.mpr ⟨value, restores value, rfl⟩

theorem Restores.readText_text (restores : format.Restores) (value : α) :
    format.readText (format.text value) = .ok value := by
  have read := restores.readText_eq (spells_writeCompact (format.write value)) isGap_nil isGap_nil
  rwa [List.append_nil] at read

theorem Restores.readText_pretty (restores : format.Restores) (value : α) :
    format.readText (format.write value).pretty = .ok value := by
  have read := restores.readText_eq (spells_writePretty 0 (format.write value)) isGap_nil isGap_nil
  rwa [List.append_nil] at read

/-- A text tells the value that it was written for. -/
theorem Restores.text_injective (restores : format.Restores) : Function.Injective format.text := by
  intro first second same
  have read := restores.readText_text first
  rw [same, restores.readText_text second] at read
  cases read
  rfl

/-! ### Plain types -/

theorem restores_string : Format.string.Restores := fun _ => rfl

theorem Restores.refined (restores : format.Restores) {toWritten : β → α}
    {ofWritten : α → Except String β} (inverse : ∀ value, ofWritten (toWritten value) = .ok value) :
    (Format.refined format toWritten ofWritten).Restores := by
  intro value
  refine bind_eq_ok_iff.mpr ⟨toWritten value, restores (toWritten value), ?_⟩
  rw [inverse value]

theorem Restores.renamed (restores : format.Restores) {toWritten : β → α} {ofWritten : α → β}
    (inverse : ∀ value, ofWritten (toWritten value) = value) :
    (Format.renamed format toWritten ofWritten).Restores := by
  intro value
  show (format.read (exact (format.write (toWritten value)))).map ofWritten = _
  rw [restores (toWritten value), Except.map, inverse value]

end Format

/-! ### What is read -/

theorem toItems?_eq_some_iff {items : List Draft} {values : List Json} :
    toItems? items = some values ↔
      List.Forall₂ (fun item value => item.toJson? = some value) items values := by
  induction items generalizing values with
  | nil => cases values <;> simp [toItems?]
  | cons item items ih =>
    rw [toItems?, List.forall₂_cons_left_iff]
    simp only [bind, Option.bind_eq_some_iff, pure, Option.some.injEq]
    constructor
    · rintro ⟨value, here, values, rest, rfl⟩
      exact ⟨value, values, here, ih.mp rest, rfl⟩
    · rintro ⟨value, values, here, rest, rfl⟩
      exact ⟨value, here, values, ih.mpr rest, rfl⟩

namespace Format

variable {α : Type} {format : Format α}

/-- The format reads a draft exactly if the draft describes what the format writes. -/
def ReadsExactly (format : Format α) : Prop :=
  ∀ draft value, format.read draft = .ok value ↔ draft.toJson? = some (format.write value)

theorem readsExactly_string : string.ReadsExactly := by
  intro draft value
  cases draft with
  | string text => cases text <;> simp [string, toJson?]
  | array items closed => cases closed <;> simp [string, toJson?]
  | object members closed => cases closed <;> simp [string, toJson?]
  | _ => simp [string, toJson?]

theorem ReadsExactly.list (exact : format.ReadsExactly) : (Format.list format).ReadsExactly := by
  intro draft values
  cases draft with
  | array items closed =>
    have each : items.mapM format.read = .ok values ↔
        toItems? items = some (values.map format.write) := by
      rw [mapM_eq_ok_iff, toItems?_eq_some_iff, List.forall₂_map_right_iff]
      simp only [exact _ _]
    cases closed with
    | true =>
      simp only [Format.list, toJson?, if_true, bind_eq_ok_iff, Except.ok.injEq, exists_eq_right,
        each]
      simp
    | false => simp [Format.list, toJson?, bind_eq_ok_iff]
  | object members closed => cases closed <;> simp [Format.list, toJson?]
  | string text => cases text <;> simp [Format.list, toJson?]
  | _ => simp [Format.list, toJson?]

/-- The members of an object, with their values written. -/
def writeEntries (format : Format α) (entries : List (String × α)) : List (String × Json) :=
  entries.map fun entry => (entry.1, format.write entry.2)

theorem ReadsExactly.readEntries_eq_ok_iff (exact : format.ReadsExactly)
    {members : List (Option String × Draft)} {start result : Dictionary String α} :
    readEntries format start members = .ok result ↔
      ∃ entries, toMembers? members = some (writeEntries format entries) ∧
        result = entries.foldl (fun dictionary entry => dictionary.insert entry.1 entry.2) start := by
  induction members generalizing start with
  | nil =>
    constructor
    · rintro same
      cases same
      exact ⟨[], rfl, rfl⟩
    · rintro ⟨entries, none, rfl⟩
      obtain rfl : entries = [] := by simpa [toMembers?, writeEntries] using none
      rfl
  | cons member members ih =>
    obtain ⟨key, draft⟩ := member
    cases key with
    | none => simp [readEntries, toMembers?]
    | some key =>
      rw [readEntries, bind_eq_ok_iff]
      constructor
      · rintro ⟨value, here, rest⟩
        obtain ⟨entries, described, rfl⟩ := ih.mp rest
        refine ⟨(key, value) :: entries, ?_, rfl⟩
        simp [toMembers?, (exact _ _).mp here, described, writeEntries]
      · rintro ⟨entries, described, rfl⟩
        simp only [toMembers?, bind, Option.bind_eq_some_iff, pure, Option.some.injEq] at described
        obtain ⟨_, rfl, json, here, jsons, rest, same⟩ := described
        cases entries with
        | nil => cases same
        | cons entry entries =>
          obtain ⟨other, value⟩ := entry
          simp only [writeEntries, List.map_cons, List.cons.injEq, Prod.mk.injEq] at same
          obtain ⟨⟨rfl, rfl⟩, rfl⟩ := same
          exact ⟨value, (exact _ _).mpr here, ih.mpr ⟨entries, rest, rfl⟩⟩

theorem ReadsExactly.read_dictionary_eq_ok_iff (exact : format.ReadsExactly) {draft : Draft}
    {result : Dictionary String α} :
    (Format.dictionary format).read draft = .ok result ↔
      ∃ entries, draft.toJson? = some (.object (writeEntries format entries)) ∧
        result = .ofList entries := by
  cases draft with
  | object members closed =>
    cases closed with
    | true =>
      simp only [Format.dictionary, toJson?, if_true, bind_eq_ok_iff, Except.ok.injEq,
        exists_eq_right, exact.readEntries_eq_ok_iff]
      simp [Dictionary.ofList]
    | false => simp [Format.dictionary, toJson?, bind_eq_ok_iff]
  | array items closed => cases closed <;> simp [Format.dictionary, toJson?]
  | string text => cases text <;> simp [Format.dictionary, toJson?]
  | _ => simp [Format.dictionary, toJson?]

theorem readText_eq_ok_iff {text : String} {value : α} :
    format.readText text = .ok value ↔
      (Draft.ofText text).2 = true ∧ format.read (Draft.ofText text).1 = .ok value := by
  rw [readText, bind_eq_ok_iff]
  cases (Draft.ofText text).2 <;> simp

/-- The dictionaries that a text describes are those of the objects that the text is. -/
theorem ReadsExactly.readText_dictionary_eq_ok_iff (exact : format.ReadsExactly) {text : String}
    {result : Dictionary String α} :
    (Format.dictionary format).readText text = .ok result ↔
      ∃ entries, parse? text = some (.object (writeEntries format entries)) ∧
        result = .ofList entries := by
  rw [readText_eq_ok_iff, exact.read_dictionary_eq_ok_iff, parse?]
  cases complete : (Draft.ofText text).2 <;> simp [complete]

end Format

end Phrasebook.Json
