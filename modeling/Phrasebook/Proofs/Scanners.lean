/-
**Three searches that see the same references.**

References are looked for with an expression that reports the name (`mentionExpression`), with one
that reports the value as well (`annotationExpression`), and the requests among them with one that
begins with the lone hyphen (`requestExpression`). Each could in principle pass over braces that
another one takes. They do not: what an expression describes is the content between two double
braces, so all of them find the stretches that `IsContent` allows, wherever these stand
(`ScansAgree`).
-/

import Mathlib.Data.List.DropRight
import Phrasebook.Proofs.Answers
import Phrasebook.Proofs.Expression

namespace Phrasebook

open Text

/-! ### The expressions -/

/-- A reference with the expression for its value, and its name as the group of the number. -/
def referenceExpression (value : Expression) (number : Nat) : Expression :=
  .both (.word ['{', '{']) <| .both (.optional (.both value (.word ['|']))) <|
    .both (.group number (.run 1 isWord)) (.word ['}', '}'])

/-- References, with the name as the only group. -/
def mentionExpression : Expression := referenceExpression (.run 0 isPlain) 1

/-- References, with the value as the first and the name as the second group. -/
def annotationExpression : Expression := referenceExpression (.group 1 (.run 0 isPlain)) 2

/-- Requests, with the name as the only group. -/
def requestExpression : Expression :=
  .both (.word ['{', '{', '-', '|']) <| .both (.group 1 (.run 1 isWord)) (.word ['}', '}'])

/-! ### What they describe -/

/-- The match of a reference, with the groups that are reported for its value. -/
def matchOf (groups : List Char → List (Nat × List Char)) (number : Nat) (reference : Reference) :
    Match :=
  ⟨reference.write,
    (reference.value.elim [] fun value => groups value.toList) ++
      [(number, reference.name.toList)]⟩

/-- The match of a request. -/
def matchOfRequest (name : String) : Match := ⟨requestPattern.write name, [(1, name.toList)]⟩

theorem describes_plain_iff {found : Match} :
    (Expression.run 0 isPlain).Describes found ↔
      ∃ value : String, BraceFree value.toList ∧ found = ⟨value.toList, []⟩ := by
  obtain ⟨taken, groups⟩ := found
  simp only [Expression.Describes, Match.mk.injEq]
  constructor
  · rintro ⟨free, -, rfl⟩
    exact ⟨String.ofList taken, by rwa [String.toList_ofList], String.toList_ofList.symm, rfl⟩
  · rintro ⟨value, free, rfl, rfl⟩
    exact ⟨free, Nat.zero_le _, rfl⟩

theorem describes_name_iff {found : Match} :
    (Expression.run 1 isWord).Describes found ↔
      ∃ name : String, isName name.toList = true ∧ found = ⟨name.toList, []⟩ := by
  obtain ⟨taken, groups⟩ := found
  simp only [Expression.Describes, Match.mk.injEq]
  constructor
  · rintro ⟨words, long, rfl⟩
    refine ⟨String.ofList taken, ?_, String.toList_ofList.symm, rfl⟩
    rw [String.toList_ofList, isName, Bool.and_eq_true, List.all_eq_true]
    exact ⟨by simpa using List.ne_nil_of_length_pos long, words⟩
  · rintro ⟨name, named, rfl, rfl⟩
    exact ⟨isName.words named, List.length_pos_iff.mpr (isName.ne_nil named), rfl⟩

/-- The expression describes the references, if its part for the value describes plain text. -/
theorem describes_reference_iff {value : Expression} {groups : List Char → List (Nat × List Char)}
    (plain : ∀ found, value.Describes found ↔
      ∃ value : String, BraceFree value.toList ∧ found = ⟨value.toList, groups value.toList⟩)
    {number : Nat} {found : Match} :
    (referenceExpression value number).Describes found ↔
      ∃ reference : Reference, reference.Valid ∧ found = matchOf groups number reference := by
  simp only [referenceExpression, Expression.describes_both_iff, Expression.describes_optional_iff,
    Expression.describes_group_iff, Expression.describes_word_iff, plain, describes_name_iff]
  constructor
  · rintro ⟨_, _, rfl, ⟨_, _, annotated | rfl, ⟨_, _, ⟨_, ⟨name, named, rfl⟩, rfl⟩, rfl, rfl⟩, rfl⟩,
      rfl⟩
    · obtain ⟨_, _, ⟨value, free, rfl⟩, rfl, rfl⟩ := annotated
      refine ⟨⟨some value, name⟩, Reference.valid_annotated named free, ?_⟩
      simp [Match.append, Match.grouped, matchOf, Reference.write, Reference.content]
    · refine ⟨⟨none, name⟩, Reference.valid_bare named, ?_⟩
      simp [Match.append, Match.grouped, Match.empty, matchOf, Reference.write, Reference.content]
  · rintro ⟨⟨_ | value, name⟩, valid, rfl⟩
    · refine ⟨_, _, rfl, ⟨_, _, .inr rfl,
        ⟨_, _, ⟨_, ⟨name, valid.isName, rfl⟩, rfl⟩, rfl, rfl⟩, rfl⟩, ?_⟩
      simp [Match.append, Match.grouped, Match.empty, matchOf, Reference.write, Reference.content]
    · refine ⟨_, _, rfl, ⟨_, _, .inl ⟨_, _, ⟨value, valid.braceFree value rfl, rfl⟩, rfl, rfl⟩,
        ⟨_, _, ⟨_, ⟨name, valid.isName, rfl⟩, rfl⟩, rfl, rfl⟩, rfl⟩, ?_⟩
      simp [Match.append, Match.grouped, matchOf, Reference.write, Reference.content]

theorem describes_request_iff {found : Match} :
    requestExpression.Describes found ↔
      ∃ name : String, isName name.toList = true ∧ found = matchOfRequest name := by
  simp only [requestExpression, Expression.describes_both_iff, Expression.describes_group_iff,
    Expression.describes_word_iff, describes_name_iff]
  constructor
  · rintro ⟨_, _, rfl, ⟨_, _, ⟨_, ⟨name, named, rfl⟩, rfl⟩, rfl, rfl⟩, rfl⟩
    exact ⟨name, named, rfl⟩
  · rintro ⟨name, named, rfl⟩
    exact ⟨_, _, rfl, ⟨_, _, ⟨_, ⟨name, named, rfl⟩, rfl⟩, rfl, rfl⟩, rfl⟩

/-! ### What they find -/

/-- The match of a reference that reports its name alone. -/
def matchOfMention : Reference → Match := matchOf (fun _ => []) 1

/-- The match of a reference that reports its value and its name. -/
def matchOfAnnotated : Reference → Match := matchOf (fun value => [(1, value)]) 2

theorem found_mention (text : List Char) :
    mentionExpression.found text =
      (referencePattern.places text).map fun found => (found.1, matchOfMention found.2) :=
  (Expression.retells referencePattern_doubleBraced
    (fun _ => describes_reference_iff fun _ => describes_plain_iff) fun _ => rfl).places_eq text

theorem describes_value_iff {found : Match} :
    (Expression.group 1 (.run 0 isPlain)).Describes found ↔
      ∃ value : String, BraceFree value.toList ∧
        found = ⟨value.toList, [(1, value.toList)]⟩ := by
  rw [Expression.Describes]
  constructor
  · rintro ⟨_, described, rfl⟩
    obtain ⟨value, free, rfl⟩ := describes_plain_iff.mp described
    exact ⟨value, free, rfl⟩
  · rintro ⟨value, free, rfl⟩
    exact ⟨_, describes_plain_iff.mpr ⟨value, free, rfl⟩, rfl⟩

theorem found_annotated (text : List Char) :
    annotationExpression.found text =
      (referencePattern.places text).map fun found => (found.1, matchOfAnnotated found.2) :=
  (Expression.retells referencePattern_doubleBraced
    (fun _ => describes_reference_iff fun _ => describes_value_iff) fun _ => rfl).places_eq text

theorem found_request (text : List Char) :
    requestExpression.found text =
      (requestPattern.places text).map fun found => (found.1, matchOfRequest found.2) :=
  (Expression.retells requestPattern_doubleBraced (fun _ => describes_request_iff)
    fun _ => rfl).places_eq text

theorem matchOfMention_name (reference : Reference) :
    (matchOfMention reference).group? 1 = some reference.name.toList := by
  obtain ⟨_ | value, name⟩ := reference <;> rfl

theorem matchOfAnnotated_value (reference : Reference) :
    (matchOfAnnotated reference).group? 1 = reference.value.map String.toList := by
  obtain ⟨_ | value, name⟩ := reference <;> rfl

theorem matchOfAnnotated_name (reference : Reference) :
    (matchOfAnnotated reference).group? 2 = some reference.name.toList := by
  obtain ⟨_ | value, name⟩ := reference <;> rfl

/-! ### Where references stand -/

/-- The stretch stands in the text at the place. -/
def StandsAt (text : List Char) (place : Nat) (stretch : List Char) : Prop :=
  ∃ front behind, text = front ++ stretch ++ behind ∧ front.length = place

/-- The text between double braces. -/
def doubleBraced (content : List Char) : List Char := '{' :: '{' :: (content ++ ['}', '}'])

/-- What may stand between the braces of a reference: a name, or a value, a bar and a name. -/
def IsContent (content : List Char) : Prop :=
  BraceFree content ∧ (isName content = true ∨
    ∃ value name, content = value ++ '|' :: name ∧ isName name = true)

/-- What stands behind the last bar, or everything if there is no bar. -/
def behindLastBar (content : List Char) : List Char := content.rtakeWhile (· != '|')

theorem Reference.Valid.isContent {reference : Reference} (valid : reference.Valid) :
    IsContent reference.content := by
  refine ⟨valid.content_braceFree, ?_⟩
  obtain ⟨_ | value, name⟩ := reference
  · exact .inl valid.isName
  · exact .inr ⟨value.toList, name.toList, rfl, valid.isName⟩

/-- The contents of references are those that the definition of a content allows. -/
theorem isContent_iff {content : List Char} :
    IsContent content ↔ ∃ reference : Reference, reference.Valid ∧ reference.content = content := by
  constructor
  · rintro ⟨free, named | ⟨value, name, rfl, named⟩⟩
    · exact ⟨⟨none, String.ofList content⟩, Reference.valid_bare (by rwa [String.toList_ofList]),
        String.toList_ofList⟩
    · refine ⟨⟨some (String.ofList value), String.ofList name⟩,
        Reference.valid_annotated ?_ ?_, ?_⟩
      · rwa [String.toList_ofList]
      · rw [String.toList_ofList]
        exact (braceFree_append.mp free).1
      · simp [Reference.content]
  · rintro ⟨reference, valid, rfl⟩
    exact valid.isContent

theorem behindLastBar_of_bar_not_mem {name : List Char} (noBar : '|' ∉ name) :
    behindLastBar name = name :=
  List.rtakeWhile_eq_self_iff.mpr fun _ member => bne_iff_ne.mpr fun bar => noBar (bar ▸ member)

theorem behindLastBar_append {name : List Char} (noBar : '|' ∉ name) (value : List Char) :
    behindLastBar (value ++ '|' :: name) = name := by
  have before : ∀ character ∈ name.reverse, (character != '|') = true := fun _ member =>
    bne_iff_ne.mpr fun bar => noBar (bar ▸ List.mem_reverse.mp member)
  rw [behindLastBar, List.rtakeWhile, List.reverse_append, List.reverse_cons, List.append_assoc,
    List.takeWhile_append_of_pos before]
  simp

theorem Reference.Valid.behindLastBar_content {reference : Reference} (valid : reference.Valid) :
    behindLastBar reference.content = reference.name.toList := by
  have noBar := isName.bar_not_mem valid.isName
  obtain ⟨_ | value, name⟩ := reference
  · exact behindLastBar_of_bar_not_mem noBar
  · exact behindLastBar_append noBar value.toList

namespace Text.Pattern

variable {α : Type} {pattern : Pattern α} {IsOccurrence : α → Prop}

/-- A search for plain text between double braces finds it wherever it stands. -/
theorem DoubleBraced.mem_places_iff (braced : pattern.DoubleBraced IsOccurrence)
    {text : List Char} {place : Nat} {occurrence : α} :
    (place, occurrence) ∈ pattern.places text ↔
      IsOccurrence occurrence ∧ StandsAt text place (pattern.write occurrence) := by
  rw [Pattern.mem_places_iff braced.faithful braced.exclusive]
  constructor
  · rintro ⟨front, rest, rfl, counted, found⟩
    obtain ⟨valid, behind, rfl⟩ := braced.here_iff.mp found
    exact ⟨valid, front, behind, (List.append_assoc _ _ _).symm, counted⟩
  · rintro ⟨valid, front, behind, rfl, counted⟩
    exact ⟨front, _, List.append_assoc _ _ _, counted,
      braced.here_iff.mpr ⟨valid, List.prefix_append _ _⟩⟩

/-- No find of a search reaches beyond the beginning of the next one. -/
theorem apart_placesFrom (pattern : Pattern α) (start : Nat) (pieces : List (Piece α)) :
    (pattern.placesFrom start pieces).Pairwise fun first second =>
      first.1 + (pattern.write first.2).length ≤ second.1 := by
  induction pieces generalizing start with
  | nil => exact .nil
  | cons piece pieces ih =>
    cases piece with
    | plain character => exact ih (start + 1)
    | found occurrence =>
      refine List.pairwise_cons.mpr ⟨fun place member => ?_, ih _⟩
      obtain ⟨before, behind, _, same⟩ := mem_placesFrom.mp member
      dsimp only
      omega

end Text.Pattern

/-! ### The requests among the references -/

/-- There is only one list of what there is at the places of a text. -/
theorem Text.ListsPlaces.unique {α : Type} {At : Nat → α → Prop} {places others : List (Nat × α)}
    (first : ListsPlaces At places) (second : ListsPlaces At others) : places = others := by
  have nodup {places : List (Nat × α)} (lists : ListsPlaces At places) : places.Nodup := by
    refine List.Pairwise.imp ?_ lists.ordered
    rintro one _ before rfl
    exact Nat.lt_irrefl one.1 before
  have permuted : places.Perm others :=
    (List.perm_ext_iff_of_nodup (nodup first) (nodup second)).mpr fun ⟨place, occurrence⟩ =>
      (first.exact place occurrence).trans (second.exact place occurrence).symm
  exact permuted.eq_of_pairwise
    (fun _ _ _ _ before after => absurd before (Nat.lt_asymm after)) first.ordered second.ordered

/-- The search for requests finds the references whose value is a lone hyphen. -/
theorem places_request_eq (text : List Char) :
    requestPattern.places text =
      ((referencePattern.places text).filter fun found => found.2.value == some "-").map
        fun found => (found.1, found.2.name) := by
  refine (listsPlaces_request text).unique ⟨?_, fun place name => ?_⟩
  · refine List.pairwise_map.mpr (List.Pairwise.sublist List.filter_sublist ?_)
    exact Pattern.pairwise_places referencePattern_doubleBraced.faithful text
  · rw [← mem_places_request_iff, requestPattern_doubleBraced.mem_places_iff, List.mem_map]
    constructor
    · rintro ⟨⟨_, ⟨_ | value, _⟩⟩, member, same⟩
      · simp at member
      · cases same
        obtain ⟨member, hyphen⟩ := List.mem_filter.mp member
        obtain rfl : value = "-" := by simpa using hyphen
        obtain ⟨valid, stands⟩ := referencePattern_doubleBraced.mem_places_iff.mp member
        exact ⟨valid.isName, stands⟩
    · rintro ⟨named, stands⟩
      refine ⟨(place, ⟨some "-", name⟩), List.mem_filter.mpr ⟨?_, by simp⟩, rfl⟩
      exact referencePattern_doubleBraced.mem_places_iff.mpr ⟨request_valid named, stands⟩

/-! ### What a search reports -/

/-- A find as it is reported: where it is, the stretch that was matched, and the name in it. -/
structure Sighting where
  place : Nat
  stretch : List Char
  name : Option (List Char)
  deriving DecidableEq, Repr

/-- A find with the group of the number for its name. -/
def sightingOf (number : Nat) (find : Nat × Match) : Sighting :=
  ⟨find.1, find.2.taken, find.2.group? number⟩

/-- What a search reports of a text, with the group of the number for the names. -/
def sightings (expression : Expression) (number : Nat) (text : List Char) : List Sighting :=
  (expression.found text).map (sightingOf number)

/-- The sighting of a reference. -/
def sightingOfReference (found : Nat × Reference) : Sighting :=
  ⟨found.1, found.2.write, some found.2.name.toList⟩

theorem sightings_mention (text : List Char) :
    sightings mentionExpression 1 text =
      (referencePattern.places text).map sightingOfReference := by
  rw [sightings, found_mention, List.map_map]
  refine List.map_congr_left fun found _ => ?_
  rw [Function.comp_apply, sightingOf, matchOfMention_name]
  rfl

theorem sightings_annotated (text : List Char) :
    sightings annotationExpression 2 text =
      (referencePattern.places text).map sightingOfReference := by
  rw [sightings, found_annotated, List.map_map]
  refine List.map_congr_left fun found _ => ?_
  rw [Function.comp_apply, sightingOf, matchOfAnnotated_name]
  rfl

theorem sightings_request (text : List Char) :
    sightings requestExpression 1 text =
      (requestPattern.places text).map fun found =>
        sightingOfReference (found.1, ⟨some "-", found.2⟩) := by
  rw [sightings, found_request, List.map_map]
  rfl

/-- **The searches see the same references** in the text. -/
structure ScansAgree (text : List Char) : Prop where
  /-- The same stretches are found, with the same names. -/
  same : sightings mentionExpression 1 text = sightings annotationExpression 2 text
  /-- They stand one behind the other, from left to right. -/
  apart : (sightings mentionExpression 1 text).Pairwise fun first second =>
    first.place + first.stretch.length ≤ second.place
  /-- They are all contents between double braces, with what is behind the last bar for the name. -/
  exact : ∀ sighting, sighting ∈ sightings mentionExpression 1 text ↔
    ∃ content, IsContent content ∧ sighting.stretch = doubleBraced content ∧
      StandsAt text sighting.place sighting.stretch ∧ sighting.name = some (behindLastBar content)
  /-- The value that is reported is what stands before that bar. -/
  values : ∀ find ∈ annotationExpression.found text, ∃ name, find.2.group? 2 = some name ∧
    find.2.taken = doubleBraced (match find.2.group? 1 with
      | none => name
      | some value => value ++ '|' :: name)
  /-- Requests are the references whose value is a lone hyphen. -/
  requests : sightings requestExpression 1 text =
    ((annotationExpression.found text).filter fun find => find.2.group? 1 == some ['-']).map
      (sightingOf 2)

theorem scansAgree_exact {text : List Char} {sighting : Sighting} :
    sighting ∈ sightings mentionExpression 1 text ↔
      ∃ content, IsContent content ∧ sighting.stretch = doubleBraced content ∧
        StandsAt text sighting.place sighting.stretch ∧
        sighting.name = some (behindLastBar content) := by
  rw [sightings_mention, List.mem_map]
  constructor
  · rintro ⟨⟨place, reference⟩, member, rfl⟩
    obtain ⟨valid, stands⟩ := referencePattern_doubleBraced.mem_places_iff.mp member
    exact ⟨reference.content, valid.isContent, rfl, stands,
      congrArg some valid.behindLastBar_content.symm⟩
  · obtain ⟨place, stretch, name⟩ := sighting
    rintro ⟨_, content, rfl, stands, rfl⟩
    obtain ⟨reference, valid, rfl⟩ := isContent_iff.mp content
    refine ⟨(place, reference), ?_, ?_⟩
    · exact referencePattern_doubleBraced.mem_places_iff.mpr ⟨valid, stands⟩
    rw [valid.behindLastBar_content]
    rfl

theorem scansAgree_requests (text : List Char) :
    sightings requestExpression 1 text =
      ((annotationExpression.found text).filter fun find => find.2.group? 1 == some ['-']).map
        (sightingOf 2) := by
  have hyphen (value : Option String) :
      (value.map String.toList == some ['-']) = (value == some "-") := by
    cases value with
    | none => rfl
    | some value =>
      rw [Option.map_some, Bool.eq_iff_iff, beq_iff_eq, beq_iff_eq, Option.some_inj,
        Option.some_inj, ← String.toList_inj]
      rfl
  rw [sightings_request, places_request_eq, found_annotated, List.filter_map, List.map_map,
    List.map_map]
  have kept : ((fun find : Nat × Match => find.2.group? 1 == some ['-']) ∘
      fun found : Nat × Reference => (found.1, matchOfAnnotated found.2)) =
        fun found => found.2.value == some "-" := by
    funext found
    rw [Function.comp_apply, matchOfAnnotated_value, hyphen]
  rw [kept]
  refine List.map_congr_left fun found member => ?_
  obtain ⟨place, ⟨value, name⟩⟩ := found
  obtain rfl : value = some "-" := by simpa using (List.mem_filter.mp member).2
  rfl

theorem scansAgree (text : List Char) : ScansAgree text where
  same := (sightings_mention text).trans (sightings_annotated text).symm
  apart := by
    rw [sightings_mention]
    exact List.pairwise_map.mpr (referencePattern.apart_placesFrom 0 _)
  exact _ := scansAgree_exact
  values := by
    rw [found_annotated]
    intro find member
    obtain ⟨⟨place, reference⟩, _, rfl⟩ := List.mem_map.mp member
    refine ⟨_, matchOfAnnotated_name reference, ?_⟩
    rw [matchOfAnnotated_value]
    obtain ⟨_ | value, name⟩ := reference <;> rfl
  requests := scansAgree_requests text

end Phrasebook
