/-
**The phrases of a template, by its slot groups.**

A slot group is told by its surroundings alone: a brace, text without braces, and a brace, with no
opening brace before it and no closing one behind it (`GroupAt`). Two of them never overlap, so the
search of the parser finds every one (`mem_places_group_iff`).

`phrasesOf_by_number` defines the expansion anew from there: the text has as many phrases as the
numbers of alternatives multiply to, and the phrase of a number is the text with each group replaced
by the alternative of its digit. The way of the expansion itself, by way of parts and numbered slots,
comes to the same (`phrasesOf_eq_map_selections`), and no slot lacks its choice
(`index_lt_of_mem_selections`).
-/

import Phrasebook.Proofs.Selections
import Phrasebook.Proofs.TemplateForm

namespace Phrasebook

open Text

/-- A slot group with the content begins at the place. -/
def GroupAt (text : List Char) (place : Nat) (content : List Char) : Prop :=
  ∃ front behind, text = front ++ '{' :: (content ++ '}' :: behind) ∧ front.length = place ∧
    content ≠ [] ∧ BraceFree content ∧ front.getLast? ≠ some '{' ∧ behind.head? ≠ some '}'

/-- The alternatives of each of the groups. -/
def alternativeLists (groups : List (Nat × List Char)) : List (List (List Char)) :=
  groups.map fun group => alternatives group.2

/-- No slot group begins inside another one. -/
theorem groupPattern_exclusive : groupPattern.Exclusive := by
  intro previous front rest content found nonempty short
  obtain ⟨_, _, free, _⟩ := groupContent?_eq_some_iff.mp found
  obtain ⟨head, middle, behind, cut, rfl⟩ :=
    Pattern.exists_cut groupPattern_faithful found short
  refine Option.eq_none_iff_forall_not_mem.mpr fun other inner => ?_
  obtain ⟨_, _, _, _, shape, _⟩ := groupContent?_eq_some_iff.mp inner
  obtain rfl : head = '{' := (List.cons.inj shape).1
  obtain ⟨first, front, rfl⟩ := List.exists_cons_of_ne_nil nonempty
  have body : content ++ ['}'] = front ++ '{' :: middle := (List.cons.inj cut).2
  have member : '{' ∈ content ++ ['}'] := body ▸ List.mem_append_right front List.mem_cons_self
  simp [free.openBrace_not_mem] at member

/-- **The search finds every slot group**, and nothing else. -/
theorem mem_places_group_iff {text content : List Char} {place : Nat} :
    (place, content) ∈ groupPattern.places text ↔ GroupAt text place content := by
  rw [Pattern.mem_places_iff groupPattern_faithful groupPattern_exclusive]
  constructor
  · rintro ⟨front, rest, rfl, counted, found⟩
    obtain ⟨notOpen, nonempty, free, behind, rfl, single⟩ := groupContent?_eq_some_iff.mp found
    rw [lastOr_eq_or, Option.or_none] at notOpen
    exact ⟨front, behind, rfl, counted, nonempty, free, notOpen, single⟩
  · rintro ⟨front, behind, rfl, counted, nonempty, free, notOpen, single⟩
    refine ⟨front, _, rfl, counted, groupContent?_eq_some_iff.mpr ?_⟩
    rw [lastOr_eq_or, Option.or_none]
    exact ⟨notOpen, nonempty, free, behind, rfl, single⟩

theorem listsPlaces_group (text : List Char) :
    ListsPlaces (GroupAt text) (groupPattern.places text) where
  ordered := Pattern.pairwise_places groupPattern_faithful text
  exact _ _ := mem_places_group_iff

/-- The phrases select an alternative for each group and put it in the group's place. -/
theorem phrasesOf_eq_map_selections (text : String) :
    phrasesOf text =
      (selections (alternativeLists (groupPattern.places text.toList))).map fun choice =>
        String.ofList (rewrite text.toList 0
          (groupPattern.edits (groupPattern.places text.toList) choice)) := by
  have lists : (occurrences (groupPattern.pieces text.toList)).map alternatives =
      alternativeLists (groupPattern.places text.toList) := by
    rw [← Pattern.map_snd_places, List.map_map]
    rfl
  rw [phrasesOf_eq, fillings_eq_map_selections, lists, List.map_map]
  refine List.map_congr_left fun choice member => ?_
  have enough : choice.length = (groupPattern.places text.toList).length :=
    (length_of_mem_selections member).trans (List.length_map _)
  rw [Pattern.rewrite_places groupPattern_faithful enough]
  rfl

/-- A text without groups stands for itself. -/
theorem phrasesOf_of_places_eq_nil {text : String} (none : groupPattern.places text.toList = []) :
    phrasesOf text = [text] := by
  rw [phrasesOf_eq_map_selections, none]
  show [String.ofList text.toList] = [text]
  rw [String.ofList_toList]

/-- The slots of a template are its groups, by their alternatives. -/
theorem slots_parse (text : String) :
    (Template.parse text).slots =
      (alternativeLists (groupPattern.places text.toList)).map (·.map String.ofList) := by
  rw [alternativeLists, List.map_map]
  have listed (pieces : List (Piece (List Char))) : Template.slotsOf pieces =
      (occurrences pieces).map fun content => (alternatives content).map String.ofList := by
    rw [Template.slotsOf, occurrences, List.map_filterMap]
    refine List.filterMap_congr fun piece _ => ?_
    cases piece <;> rfl
  rw [Template.parse, listed, ← Pattern.map_snd_places, List.map_map]
  rfl

/-- A template has slots exactly if there is a group in its text. -/
theorem slots_parse_eq_nil_iff {text : String} :
    (Template.parse text).slots = [] ↔ ¬ HasGroup text.toList := by
  rw [slots_parse, alternativeLists, List.map_eq_nil_iff, List.map_eq_nil_iff,
    List.eq_nil_iff_forall_not_mem]
  constructor
  · rintro none ⟨front, content, behind, split, group⟩
    exact none _ (mem_places_group_iff.mpr ⟨front, behind, split, rfl, group⟩)
  · rintro none ⟨place, content⟩ listed
    obtain ⟨front, behind, split, _, group⟩ := mem_places_group_iff.mp listed
    exact none ⟨front, content, behind, split, group⟩

/-- Each slot of a template has its choice in every selection. -/
theorem index_lt_of_mem_selections {text : String} {choice : List String}
    (member : choice ∈ selections (Template.parse text).slots) {index : Nat}
    (inside : .slot index ∈ (Template.parse text).parts) : index < choice.length := by
  have numbered : index ∈ (Template.parse text).parts.filterMap Template.Part.index? :=
    List.mem_filterMap.mpr ⟨_, inside, rfl⟩
  rw [(Template.wellFormed_parse text).numbered, List.mem_range] at numbered
  rwa [length_of_mem_selections member]

/-- **Phrases by their number.** Let `groups` be all slot groups of the text, from left to right. Then
the text has as many phrases as the numbers of their alternatives multiply to, which is never zero;
the phrase of a number is the text with each group replaced by the alternative that its digit of the
number chooses, the first digit being the most significant; the slots of the template are the groups,
and none is without its choice; and a text without groups stands for itself. -/
theorem phrasesOf_by_number (text : String) :
    ∃ groups, ListsPlaces (GroupAt text.toList) groups ∧
      let sizes := (alternativeLists groups).map List.length
      (phrasesOf text).length = sizes.prod ∧ sizes.prod ≠ 0 ∧
        (∀ number < sizes.prod, ∃ choice,
          chosen? (alternativeLists groups) (digits sizes number) = some choice ∧
            (phrasesOf text)[number]? = some
              (String.ofList (rewrite text.toList 0 (groupPattern.edits groups choice)))) ∧
        (Template.parse text).slots = (alternativeLists groups).map (·.map String.ofList) ∧
        (∀ choice ∈ selections (Template.parse text).slots,
          ∀ index, .slot index ∈ (Template.parse text).parts → index < choice.length) ∧
        (groups = [] → phrasesOf text = [text]) := by
  have phrases := phrasesOf_eq_map_selections text
  have counted : (phrasesOf text).length =
      ((alternativeLists (groupPattern.places text.toList)).map List.length).prod := by
    rw [phrases, List.length_map, length_selections]
  refine ⟨groupPattern.places text.toList, listsPlaces_group text.toList, counted, ?_, ?_,
    slots_parse text, ?_, ?_⟩
  · rw [← counted]
    exact mt List.eq_nil_of_length_eq_zero (phrasesOf_ne_nil text)
  · intro number small
    obtain ⟨choice, _, chosen, taken⟩ := exists_chosen small
    refine ⟨choice, chosen, ?_⟩
    rw [phrases, List.getElem?_map, taken]
    rfl
  · exact fun choice member index inside => index_lt_of_mem_selections member inside
  · exact phrasesOf_of_places_eq_nil

/-- What stands between double braces is no group, and an alternative may be empty. -/
example : phrasesOf "\x7ba|b\x7d\x7b\x7bc\x7d\x7d\x7b|d\x7d" =
    ["a\x7b\x7bc\x7d\x7d", "a\x7b\x7bc\x7d\x7dd",
      "b\x7b\x7bc\x7d\x7d", "b\x7b\x7bc\x7d\x7dd"] := by
  decide +kernel

end Phrasebook
