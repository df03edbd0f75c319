/-
**Templates and the phrases they stand for.**

`groupContent?_eq_some_iff` says where a slot group stands: a brace, text without braces, and a
brace, with no opening brace in front and no closing brace behind. `phrasesOf_eq` describes the
phrases of any template by its pieces: each group is replaced by its alternatives, the first group
varying slowest.

`IsTemplate` is the grammar of well-formed templates: text, slot groups and references, in any
order. Whatever stands next to what, the search for groups sees the groups of the grammar and
nothing else, so that every phrase of such a template is an utterance with the references of the
template (`IsTemplate.isUtterance_of_mem_phrasesOf`). An utterance has no slot group left
(`IsUtterance.phrasesOf_eq`).
-/

import Phrasebook.Proofs.Utterance

namespace Phrasebook

open Text

/-! ### Where a slot group stands -/

theorem groupContent?_eq_some_iff {previous : Option Char} {text content : List Char} :
    groupContent? previous text = some content ↔
      previous ≠ some '{' ∧ content ≠ [] ∧ BraceFree content ∧
        ∃ behind, text = '{' :: (content ++ '}' :: behind) ∧ behind.head? ≠ some '}' := by
  constructor
  · intro found
    unfold groupContent? at found
    split at found
    · cases found
    next rest notOpen =>
      split at found
      · cases found
      · cases found
      next behind notDouble closed nonempty =>
        cases found
        have whole := List.takeWhile_append_dropWhile (p := isPlain) (l := rest)
        rw [closed] at whole
        refine ⟨notOpen, nonempty, braceFree_takeWhile rest, behind, by rw [whole], fun double => ?_⟩
        obtain ⟨tail, shape⟩ := List.head?_eq_some_iff.mp double
        exact notDouble tail shape
      · cases found
    · cases found
  · rintro ⟨notOpen, nonempty, free, behind, rfl, single⟩
    obtain ⟨taken, dropped⟩ := free.takeWhile_append behind
    unfold groupContent?
    split
    · exact absurd rfl notOpen
    next rest _ same =>
      obtain rfl : content ++ '}' :: behind = rest := (List.cons.inj same).2
      rw [taken, dropped]
      split
      · exact absurd rfl nonempty
      next double =>
        rw [(List.cons.inj double).2] at single
        exact absurd rfl single
      · rfl
      next closing => exact absurd rfl (closing behind)
    next others => exact (others _ rfl).elim

/-! ### Stretches that a search for groups reads -/

theorem piecesFrom_group_text {characters : List Char} (free : BraceFree characters)
    (previous : Option Char) (behind : List Char) :
    groupPattern.piecesFrom 0 previous (characters ++ behind) =
      characters.map .plain ++ groupPattern.piecesFrom 0 (lastOr previous characters) behind := by
  refine Pattern.piecesFrom_map_plain fun before front character tail split _ => ?_
  refine Option.eq_none_iff_forall_not_mem.mpr fun content found => ?_
  obtain ⟨_, _, _, _, shape, _⟩ := groupContent?_eq_some_iff.mp found
  have plain := free character (split ▸ List.mem_append_right _ List.mem_cons_self)
  rw [(List.cons.inj shape).1] at plain
  exact absurd plain (by decide)

/-- No opening brace stands before what follows plain text. -/
theorem BraceFree.lastOr_ne {characters : List Char} (free : BraceFree characters)
    {previous : Option Char} (notOpen : characters = [] → previous ≠ some '{') :
    lastOr previous characters ≠ some '{' := by
  cases characters with
  | nil => exact notOpen rfl
  | cons character rest =>
    have plain : ∀ before ∈ character :: rest, some before ≠ some '{' := fun before member => by
      simpa using (isPlain_iff.mp (free before member)).1
    rcases lastOr_eq (some character) rest with same | ⟨last, member, same⟩
    · rw [lastOr, same]
      exact plain character List.mem_cons_self
    · rw [lastOr, same]
      exact plain last (List.mem_cons_of_mem _ member)

/-- Plain text between double braces. -/
def doubled (content : List Char) : List Char := '{' :: '{' :: (content ++ ['}', '}'])

/-- Double braces around plain text are no slot group, whatever stands in front. -/
theorem piecesFrom_group_doubled {content : List Char} (free : BraceFree content)
    (previous : Option Char) (behind : List Char) :
    groupPattern.piecesFrom 0 previous (doubled content ++ behind) =
      (doubled content).map .plain ++ groupPattern.piecesFrom 0 (some '}') behind := by
  have skipped : groupPattern.piecesFrom 0 previous (doubled content ++ behind) =
      (doubled content).map .plain ++
        groupPattern.piecesFrom 0 (lastOr previous (doubled content)) behind := by
    refine Pattern.piecesFrom_map_plain fun before front character tail split same => ?_
    refine Option.eq_none_iff_forall_not_mem.mpr fun other found => ?_
    obtain ⟨notOpen, nonempty, plain, rest, shape, _⟩ := groupContent?_eq_some_iff.mp found
    obtain ⟨rfl, body⟩ := List.cons.inj shape
    match front, split with
    | [], split =>
      -- The second brace would have to be in the group.
      rw [List.nil_append, doubled] at split
      rw [(List.cons.inj split).2, List.cons_append] at body
      obtain ⟨head, other, rfl⟩ := List.exists_cons_of_ne_nil nonempty
      rw [← (List.cons.inj body).1] at plain
      exact absurd (braceFree_cons.mp plain).1 (by decide)
    | [_], split =>
      -- The second brace stands behind the first.
      obtain ⟨rfl, _⟩ := List.cons.inj split
      exact notOpen same
    | _ :: _ :: front, split =>
      -- There is no third opening brace.
      have inside : content ++ ['}', '}'] = front ++ '{' :: tail :=
        (List.cons.inj (List.cons.inj split).2).2.symm
      have member : '{' ∈ content ++ ['}', '}'] :=
        inside ▸ List.mem_append_right _ List.mem_cons_self
      simp [free.openBrace_not_mem] at member
  have last : lastOr previous (doubled content) = some '}' := by
    have shape : doubled content = '{' :: '{' :: content ++ ['}', '}'] := by simp [doubled]
    rw [shape, lastOr_append]
    rfl
  rw [skipped, last]

theorem piecesFrom_group_reference {reference : Reference} (valid : reference.Valid)
    (previous : Option Char) (behind : List Char) :
    groupPattern.piecesFrom 0 previous (reference.write ++ behind) =
      reference.write.map .plain ++ groupPattern.piecesFrom 0 (some '}') behind :=
  piecesFrom_group_doubled valid.content_braceFree previous behind

theorem piecesFrom_group_group {previous : Option Char} (notOpen : previous ≠ some '{')
    {content behind : List Char} (nonempty : content ≠ []) (free : BraceFree content)
    (single : behind.head? ≠ some '}') :
    groupPattern.piecesFrom 0 previous ('{' :: (content ++ '}' :: behind)) =
      .found content :: groupPattern.piecesFrom 0 (some '}') behind := by
  have found : groupPattern.here? previous (groupPattern.write content ++ behind) = some content :=
    groupContent?_eq_some_iff.mpr ⟨notOpen, nonempty, free, behind, by simp [groupPattern], single⟩
  have written : '{' :: (content ++ '}' :: behind) = groupPattern.write content ++ behind := by
    simp [groupPattern]
  have last : lastOr previous (groupPattern.write content) = some '}' := by
    have shape : groupPattern.write content = '{' :: content ++ ['}'] := rfl
    rw [shape, lastOr_append]
    rfl
  rw [written, Pattern.piecesFrom_write (List.cons_ne_nil _ _) found, last]

/-! ### Phrases are fillings -/

/-- The alternatives that the content of a slot group lists. -/
def alternatives (content : List Char) : List (List Char) := splitOn '|' content

/-- The text of pieces in which the groups are replaced by the choices, one after the other. -/
def chosenText : List (Piece (List Char)) → List String → List Char
  | [], _ => []
  | .plain character :: pieces, choice => character :: chosenText pieces choice
  | .found _ :: pieces, choice => (choice.head?.getD "").toList ++ chosenText pieces choice.tail

/-- A part of a template with the choices put in. -/
def Template.Part.filled (choice : List String) : Template.Part → String
  | .fixed text => text
  | .slot index => choice[index]?.getD ""

theorem filled_fixedOf (choice : List String) (collected : List Char) :
    ((Template.fixedOf collected).flatMap fun part => (part.filled choice).toList) =
      collected.reverse := by
  cases collected with
  | nil => rfl
  | cons character rest => simp [Template.fixedOf, Template.Part.filled]

/-- Numbered slots take the choices in their order, from the number `next` on. -/
theorem filled_partsOf (choice : List String) (collected : List Char) (next : Nat)
    (pieces : List (Piece (List Char))) :
    ((Template.partsOf collected next pieces).flatMap fun part => (part.filled choice).toList) =
      collected.reverse ++ chosenText pieces (choice.drop next) := by
  induction pieces generalizing collected next with
  | nil => simp [Template.partsOf, filled_fixedOf, chosenText]
  | cons piece pieces ih =>
    cases piece with
    | plain character => simp [Template.partsOf, ih, chosenText]
    | found content =>
      rw [Template.partsOf, List.flatMap_append, filled_fixedOf, List.flatMap_cons, ih]
      simp [Template.Part.filled, chosenText]

theorem toList_fill_parse (text : String) (choice : List String) :
    ((Template.parse text).fill choice).toList =
      chosenText (groupPattern.pieces text.toList) choice := by
  have parts := filled_partsOf choice [] 0 (groupPattern.pieces text.toList)
  rw [List.drop_zero, List.reverse_nil, List.nil_append] at parts
  rw [← parts, Template.fill, String.toList_join, List.flatMap_map]
  rfl

/-- Choosing for all slots at once fills the groups one after the other. -/
theorem map_chosenText_selections (pieces : List (Piece (List Char))) :
    (selections (Template.slotsOf pieces)).map (chosenText pieces) =
      fillings alternatives pieces := by
  induction pieces with
  | nil => rfl
  | cons piece pieces ih =>
    cases piece with
    | plain character =>
      have slots : Template.slotsOf (.plain character :: pieces) = Template.slotsOf pieces := rfl
      rw [slots, fillings, ← ih, List.map_map]
      rfl
    | found content =>
      have slots : Template.slotsOf (.found content :: pieces) =
          (alternatives content).map String.ofList :: Template.slotsOf pieces := rfl
      rw [slots, selections, fillings, ← ih, List.map_flatMap, List.flatMap_map]
      refine congrArg (List.flatMap · _) (funext fun alternative => ?_)
      rw [List.map_map, List.map_map]
      refine List.map_congr_left fun choice _ => ?_
      simp [chosenText]

/-- **The phrases of a text**: each slot group is replaced by one of its alternatives, those of the
first group varying slowest, and all else stays as it is. -/
theorem phrasesOf_eq (text : String) :
    phrasesOf text =
      (fillings alternatives (groupPattern.pieces text.toList)).map String.ofList := by
  rw [← map_chosenText_selections, List.map_map, phrasesOf, Template.phrases]
  refine List.map_congr_left fun choice _ => ?_
  rw [Function.comp_apply, ← toList_fill_parse, String.ofList_toList]

theorem mem_phrasesOf {text phrase : String} :
    phrase ∈ phrasesOf text ↔
      phrase.toList ∈ fillings alternatives (groupPattern.pieces text.toList) := by
  rw [phrasesOf_eq, List.mem_map]
  constructor
  · rintro ⟨characters, member, rfl⟩
    rwa [String.toList_ofList]
  · exact fun member => ⟨_, member, String.ofList_toList⟩

theorem mem_phrasesOfAll {texts : List String} {phrase : String} :
    phrase ∈ phrasesOfAll texts ↔ ∃ text ∈ texts, phrase ∈ phrasesOf text :=
  List.mem_flatMap

theorem phrasesOf_ne_nil (text : String) : phrasesOf text ≠ [] := by
  rw [phrasesOf_eq, Ne, List.map_eq_nil_iff]
  exact fillings_ne_nil_iff.mpr fun content _ => splitOn_ne_nil '|' content

/-! ### An utterance has no slot group -/

theorem IsUtterance.piecesFrom_group {characters : List Char} (utterance : IsUtterance characters)
    (previous : Option Char) :
    groupPattern.piecesFrom 0 previous characters = characters.map .plain := by
  induction utterance generalizing previous with
  | nil => rfl
  | text free _ ih => rw [piecesFrom_group_text free, ih, List.map_append]
  | reference valid _ ih => rw [piecesFrom_group_reference valid, ih, List.map_append]

theorem IsUtterance.slots_parse {text : String} (utterance : IsUtterance text.toList) :
    (Template.parse text).slots = [] := by
  have pieces : groupPattern.pieces text.toList = text.toList.map .plain :=
    utterance.piecesFrom_group none
  simp [Template.parse, pieces, Template.slotsOf]

/-- An utterance stands for itself only. -/
theorem IsUtterance.phrasesOf_eq {text : String} (utterance : IsUtterance text.toList) :
    phrasesOf text = [text] := by
  have pieces : groupPattern.pieces text.toList = text.toList.map .plain :=
    utterance.piecesFrom_group none
  rw [Phrasebook.phrasesOf_eq, pieces, fillings_plain, List.map_singleton, String.ofList_toList]

/-! ### Well-formed templates -/

/-- Text without braces, slot groups and references, one after the other. -/
inductive IsTemplate : List Char → Prop where
  | nil : IsTemplate []
  | text {characters rest : List Char} :
      BraceFree characters → IsTemplate rest → IsTemplate (characters ++ rest)
  | group {content rest : List Char} :
      content ≠ [] → BraceFree content → IsTemplate rest →
        IsTemplate ('{' :: (content ++ '}' :: rest))
  | reference {reference : Reference} {rest : List Char} :
      reference.Valid → IsTemplate rest → IsTemplate (reference.write ++ rest)

/-- The text has a reference to the entity, with a well-formed template on either side. -/
def RefersTo (characters : List Char) (name : String) : Prop :=
  ∃ front reference behind, IsTemplate front ∧ Reference.Valid reference ∧ IsTemplate behind ∧
    reference.name = name ∧ characters = front ++ reference.write ++ behind

namespace IsTemplate

/-- No closing brace comes first, so none follows a group. -/
theorem head?_ne {characters : List Char} (template : IsTemplate characters) :
    characters.head? ≠ some '}' := by
  induction template with
  | nil => simp
  | @text characters rest free _ ih =>
    cases characters with
    | nil => exact ih
    | cons character characters =>
      have plain := (braceFree_cons.mp free).1
      simpa using (isPlain_iff.mp plain).2
  | group => simp
  | reference => simp [Reference.write]

theorem namesIn_group {content rest : List Char} (nonempty : content ≠ [])
    (free : BraceFree content) : namesIn ('{' :: (content ++ '}' :: rest)) = namesIn rest := by
  obtain ⟨head, content, rfl⟩ := List.exists_cons_of_ne_nil nonempty
  have plain := (isPlain_iff.mp (braceFree_cons.mp free).1).1
  have opened := referencePattern_doubleBraced.pieces_openBrace_cons plain (content ++ '}' :: rest)
  have closed := referencePattern_doubleBraced.pieces_cons (show '}' ≠ '{' by decide) rest
  have inner : namesIn (head :: (content ++ '}' :: rest)) = namesIn ('}' :: rest) :=
    namesIn_text_append free ('}' :: rest)
  rw [namesIn] at inner
  rw [List.cons_append, namesIn, opened, List.filterMap_cons_none rfl, inner, namesIn, closed,
    List.filterMap_cons_none rfl]
  rfl

/-- **Filling the groups of a well-formed template gives an utterance with the references of the
template.** -/
theorem isUtterance_of_mem_fillings {characters filling : List Char}
    (template : IsTemplate characters) {previous : Option Char} (notOpen : previous ≠ some '{')
    (filled : filling ∈ fillings alternatives (groupPattern.piecesFrom 0 previous characters)) :
    IsUtterance filling ∧ namesIn filling = namesIn characters := by
  induction template generalizing previous filling with
  | nil =>
    obtain rfl : filling = [] := by simpa [Pattern.piecesFrom, fillings] using filled
    exact ⟨.nil, rfl⟩
  | @text characters rest free _ ih =>
    rw [piecesFrom_group_text free, fillings_map_plain, List.mem_map] at filled
    obtain ⟨later, filled, rfl⟩ := filled
    have still : lastOr previous characters ≠ some '{' := free.lastOr_ne fun _ => notOpen
    obtain ⟨utterance, names⟩ := ih still filled
    exact ⟨.text free utterance, by rw [namesIn_text_append free, namesIn_text_append free, names]⟩
  | @group content rest nonempty free template ih =>
    rw [piecesFrom_group_group notOpen nonempty free template.head?_ne, mem_fillings_found] at filled
    obtain ⟨alternative, listed, later, filled, rfl⟩ := filled
    obtain ⟨utterance, names⟩ := ih (by decide) filled
    have plain : BraceFree alternative := fun character member =>
      free character (mem_of_mem_splitOn listed member).1
    exact ⟨.text plain utterance, by
      rw [namesIn_text_append plain, namesIn_group nonempty free, names]⟩
  | @reference reference rest valid _ ih =>
    rw [piecesFrom_group_reference valid, fillings_map_plain, List.mem_map] at filled
    obtain ⟨later, filled, rfl⟩ := filled
    obtain ⟨utterance, names⟩ := ih (by decide) filled
    exact ⟨.reference valid utterance, by
      rw [namesIn_reference_append valid, namesIn_reference_append valid, names]⟩

theorem isUtterance_of_mem_phrasesOf {text phrase : String} (template : IsTemplate text.toList)
    (member : phrase ∈ phrasesOf text) :
    IsUtterance phrase.toList ∧ namesIn phrase.toList = namesIn text.toList :=
  template.isUtterance_of_mem_fillings (by decide) (mem_phrasesOf.mp member)

/-- A template refers to the entities of the references that it is made of. -/
theorem mem_namesIn_iff {characters : List Char} (template : IsTemplate characters)
    {name : String} : name ∈ namesIn characters ↔ RefersTo characters name := by
  constructor
  · intro mentioned
    induction template with
    | nil => cases mentioned
    | @text characters rest free _ ih =>
      rw [namesIn_text_append free] at mentioned
      obtain ⟨front, reference, behind, before, valid, after, same, rfl⟩ := ih mentioned
      exact ⟨characters ++ front, reference, behind, .text free before, valid, after, same, by simp⟩
    | @group content rest nonempty free _ ih =>
      rw [namesIn_group nonempty free] at mentioned
      obtain ⟨front, reference, behind, before, valid, after, same, rfl⟩ := ih mentioned
      exact ⟨'{' :: (content ++ '}' :: front), reference, behind, .group nonempty free before, valid,
        after, same, by simp⟩
    | @reference first rest valid template ih =>
      rw [namesIn_reference_append valid] at mentioned
      rcases List.mem_cons.mp mentioned with same | later
      · exact ⟨[], first, rest, .nil, valid, template, same.symm, rfl⟩
      · obtain ⟨front, reference, behind, before, found, after, same, rfl⟩ := ih later
        exact ⟨first.write ++ front, reference, behind, .reference valid before, found, after, same,
          by simp⟩
  · rintro ⟨front, reference, behind, _, valid, _, rfl, rfl⟩
    rw [namesIn_between, namesIn_reference valid]
    simp

/-- The phrases of well-formed templates mention the entities that the templates refer to. -/
theorem mem_mentionedNames_phrases {texts : List String}
    (templates : ∀ text ∈ texts, IsTemplate text.toList) {name : String} :
    name ∈ mentionedNames (phrasesOfAll texts) ↔ ∃ text ∈ texts, RefersTo text.toList name := by
  simp only [mem_mentionedNames, mem_phrasesOfAll]
  constructor
  · rintro ⟨phrase, ⟨text, listed, member⟩, named⟩
    have same := ((templates text listed).isUtterance_of_mem_phrasesOf member).2
    exact ⟨text, listed, (templates text listed).mem_namesIn_iff.mp (same ▸ named)⟩
  · rintro ⟨text, listed, refers⟩
    obtain ⟨phrase, member⟩ := List.exists_mem_of_ne_nil _ (phrasesOf_ne_nil text)
    have same := ((templates text listed).isUtterance_of_mem_phrasesOf member).2
    have named := (templates text listed).mem_namesIn_iff.mpr refers
    exact ⟨phrase, ⟨text, listed, member⟩, same.symm ▸ named⟩

end IsTemplate

end Phrasebook
