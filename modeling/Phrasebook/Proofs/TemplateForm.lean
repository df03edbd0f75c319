/-
**Templates and their written form.**

A template is cut out of a text by a search for slot groups, so between the two stand the pieces of
that search. `Template.pieces` are the pieces of a template:

* `Template.pieces_parse`: the template of a text has the pieces that the search found in it;
* `Template.WellFormed.stable_pieces`: those of a well-formed template are found again in the text
  that it is printed as;
* `Template.WellFormed.parts_eq`, `Template.WellFormed.slots_eq`: and they give back its parts and
  slots.

`parse_print_inverse` puts these together: texts and well-formed templates stand for each other.
-/

import Mathlib.Data.List.Chain
import Phrasebook.Proofs.Template

namespace Phrasebook

open Text

/-! ### Slot groups in a stretch of text -/

/-- Somewhere in the text there is a slot group. -/
def HasGroup (text : List Char) : Prop :=
  ∃ front content behind, text = front ++ '{' :: (content ++ '}' :: behind) ∧ content ≠ [] ∧
    BraceFree content ∧ front.getLast? ≠ some '{' ∧ behind.head? ≠ some '}'

theorem groupPattern_faithful : groupPattern.Faithful where
  written found := by
    obtain ⟨_, _, _, behind, rfl, _⟩ := groupContent?_eq_some_iff.mp found
    exact ⟨behind, by simp [groupPattern]⟩
  nonempty _ := List.cons_ne_nil _ _

theorem lastOr_eq_or (previous : Option Char) (characters : List Char) :
    lastOr previous characters = characters.getLast?.or previous := by
  induction characters generalizing previous with
  | nil => rfl
  | cons character rest ih =>
    rw [lastOr, ih, List.getLast?_cons]
    cases rest.getLast? <;> rfl

section Stretches

variable {previous : Option Char} {stretch : List Char} {rest : List (Piece (List Char))}

/-- A stretch in which the search found nothing has no slot group of its own, when it is not cut off
inside double braces. -/
theorem not_hasGroup_of_stable (notOpen : previous ≠ some '{')
    (single : (groupPattern.text rest).head? ≠ some '}')
    (stable : groupPattern.Stable previous (stretch.map .plain ++ rest)) : ¬ HasGroup stretch := by
  rintro ⟨front, content, behind, rfl, nonempty, free, before, after⟩
  rw [List.map_append, List.append_assoc] at stable
  have later := stable.of_append groupPattern_faithful
  rw [Pattern.text_map_plain, List.map_cons, List.cons_append] at later
  have nothing := (Pattern.stable_plain_iff.mp later).1
  have found : groupContent? (lastOr previous front)
      ('{' :: (content ++ '}' :: (behind ++ groupPattern.text rest))) = some content := by
    refine groupContent?_eq_some_iff.mpr ⟨?_, nonempty, free, _, rfl, ?_⟩
    · rw [lastOr_eq_or]
      cases last : front.getLast? with
      | none => exact notOpen
      | some character => rwa [last] at before
    · cases behind with
      | nil => exact single
      | cons character behind => exact after
  rw [Pattern.text_append, Pattern.text_map_plain, List.append_assoc, List.cons_append] at nothing
  exact absurd (found.symm.trans nothing) (Option.some_ne_none content)

/-- A group that is found in a stretch lies in it when nothing or an opening brace follows. -/
theorem hasGroup_of_found {front tail behind content : List Char}
    (opens : ∀ character ∈ behind.head?, character = '{')
    (found : groupContent? (lastOr previous front) ('{' :: (tail ++ behind)) = some content) :
    HasGroup (front ++ '{' :: tail) := by
  obtain ⟨notOpen, nonempty, free, after, shape, single⟩ := groupContent?_eq_some_iff.mp found
  have body : tail ++ behind = content ++ '}' :: after := (List.cons.inj shape).2
  rcases List.append_eq_append_iff.mp body with ⟨beyond, rfl, follows⟩ | ⟨more, inside, closing⟩
  · -- The first character behind the stretch would belong to the group, or end it.
    exfalso
    cases beyond with
    | nil => exact absurd (opens '}' (by simp [follows])) (by decide)
    | cons head others =>
      obtain rfl := opens head (by simp [follows])
      exact free.openBrace_not_mem (List.mem_append_right _ List.mem_cons_self)
  cases more with
  | nil =>
    rw [List.nil_append] at closing
    exact absurd (opens '}' (by simp [← closing])) (by decide)
  | cons head more =>
    obtain ⟨rfl, rfl⟩ := List.cons.inj closing
    refine ⟨front, content, more, by rw [inside], nonempty, free, fun last => ?_, fun next => ?_⟩
    · rw [lastOr_eq_or, last] at notOpen
      exact notOpen rfl
    · obtain ⟨others, rfl⟩ := List.head?_eq_some_iff.mp next
      exact single rfl

/-- A stretch without a slot group of its own is passed over, up to the next group. -/
theorem stable_of_not_hasGroup (noGroup : ¬ HasGroup stretch)
    (opens : ∀ character ∈ (groupPattern.text rest).head?, character = '{')
    (stable : groupPattern.Stable (lastOr previous stretch) rest) :
    groupPattern.Stable previous (stretch.map .plain ++ rest) := by
  have passed : groupPattern.piecesFrom 0 previous (stretch ++ groupPattern.text rest) =
      stretch.map .plain ++
        groupPattern.piecesFrom 0 (lastOr previous stretch) (groupPattern.text rest) := by
    refine Pattern.piecesFrom_map_plain fun before front character tail split same => ?_
    refine Option.eq_none_iff_forall_not_mem.mpr fun content found => ?_
    obtain ⟨_, _, _, _, shape, _⟩ := groupContent?_eq_some_iff.mp found
    obtain rfl : character = '{' := (List.cons.inj shape).1
    rw [same] at found
    exact noGroup (split ▸ hasGroup_of_found opens found)
  rw [Pattern.Stable, Pattern.text_append, Pattern.text_map_plain, passed, stable]

theorem lastOr_write_group (previous : Option Char) (content : List Char) :
    lastOr previous (groupPattern.write content) = some '}' := by
  have shape : groupPattern.write content = '{' :: content ++ ['}'] := rfl
  rw [shape, lastOr_append]
  rfl

/-- When a slot group is found again in front of other pieces. -/
theorem stable_group_iff {content : List Char} :
    groupPattern.Stable previous (.found content :: rest) ↔
      previous ≠ some '{' ∧ content ≠ [] ∧ BraceFree content ∧
        (groupPattern.text rest).head? ≠ some '}' ∧ groupPattern.Stable (some '}') rest := by
  have written : groupPattern.write content ++ groupPattern.text rest =
      '{' :: (content ++ '}' :: groupPattern.text rest) := by simp [groupPattern]
  have here : groupPattern.here? previous (groupPattern.write content ++ groupPattern.text rest) =
      some content ↔ previous ≠ some '{' ∧ content ≠ [] ∧ BraceFree content ∧
        (groupPattern.text rest).head? ≠ some '}' := by
    rw [written]
    refine groupContent?_eq_some_iff.trans ⟨?_, ?_⟩
    · rintro ⟨notOpen, nonempty, free, behind, shape, single⟩
      have same := List.append_cancel_left (List.cons.inj shape).2
      exact ⟨notOpen, nonempty, free, (List.cons.inj same).2 ▸ single⟩
    · rintro ⟨notOpen, nonempty, free, single⟩
      exact ⟨notOpen, nonempty, free, _, rfl, single⟩
  rw [Pattern.stable_found_iff groupPattern_faithful, here, lastOr_write_group]
  simp only [and_assoc]

end Stretches

/-! ### The form of a template -/

namespace Template

/-- The number of a slot. -/
def Part.index? : Part → Option Nat
  | .fixed _ => none
  | .slot index => some index

/-- What may stand side by side: no two texts, which would be one, and a text beside a slot only if
it does not double the slot's brace. -/
def Part.MayPrecede : Part → Part → Prop
  | .fixed _, .fixed _ => False
  | .fixed text, .slot _ => text.toList.getLast? ≠ some '{'
  | .slot _, .fixed text => text.toList.head? ≠ some '}'
  | .slot _, .slot _ => True

/-- The alternatives of a slot that can be written as a group: there is something to write, and none
of them has a brace or a bar. -/
structure Writable (alternatives : List String) : Prop where
  listed : alternatives ≠ []
  nonempty : alternatives ≠ [""]
  plain : ∀ alternative ∈ alternatives,
    '{' ∉ alternative.toList ∧ '}' ∉ alternative.toList ∧ '|' ∉ alternative.toList

/-- The templates that texts stand for. -/
structure WellFormed (template : Template) : Prop where
  /-- The slots are numbered from left to right, and each has its alternatives. -/
  numbered : template.parts.filterMap Part.index? = List.range template.slots.length
  sideBySide : template.parts.IsChain Part.MayPrecede
  fixed : ∀ text, .fixed text ∈ template.parts → text ≠ "" ∧ ¬ HasGroup text.toList
  writable : ∀ alternatives ∈ template.slots, Writable alternatives

/-! ### The pieces of a template -/

/-- The content of the slot group that lists the alternatives. -/
def contentOf (alternatives : List String) : List Char :=
  joinWith '|' (alternatives.map String.toList)

/-- The pieces of a part, whose alternatives are looked up among those of all slots. -/
def Part.pieces (slots : List (List String)) : Part → List (Piece (List Char))
  | .fixed text => text.toList.map .plain
  | .slot index => [.found (contentOf (slots[index]?.getD []))]

/-- The pieces of a template. -/
def pieces (template : Template) : List (Piece (List Char)) :=
  template.parts.flatMap (Part.pieces template.slots)

theorem toList_print (template : Template) :
    template.print.toList = groupPattern.text template.pieces := by
  rw [print, String.toList_ofList, pieces, Pattern.text, List.flatMap_assoc]
  refine congrArg (List.flatMap · _) (funext fun part => ?_)
  cases part with
  | fixed text => exact (Pattern.text_map_plain text.toList).symm
  | slot index => exact (List.append_nil _).symm

/-- The alternatives of a group as texts. -/
def alternativesOf (content : List Char) : List String := (splitOn '|' content).map String.ofList

theorem contentOf_alternativesOf (content : List Char) :
    contentOf (alternativesOf content) = content := by
  rw [contentOf, alternativesOf, List.map_map]
  have same : String.toList ∘ String.ofList = id := funext fun part => String.toList_ofList
  rw [same, List.map_id, joinWith_splitOn]

theorem alternativesOf_contentOf {alternatives : List String} (writable : Writable alternatives) :
    alternativesOf (contentOf alternatives) = alternatives := by
  have free : ∀ part ∈ alternatives.map String.toList, '|' ∉ part := by
    rw [List.forall_mem_map]
    exact fun alternative member => (writable.plain alternative member).2.2
  have listed : alternatives.map String.toList ≠ [] := by simpa using writable.listed
  rw [alternativesOf, contentOf, splitOn_joinWith listed free, List.map_map]
  have same : String.ofList ∘ String.toList = id := funext fun text => String.ofList_toList
  rw [same, List.map_id]

/-- The alternatives of a group can be written again. -/
theorem writable_alternativesOf {content : List Char} (nonempty : content ≠ [])
    (free : BraceFree content) : Writable (alternativesOf content) where
  listed := by simpa [alternativesOf] using splitOn_ne_nil '|' content
  nonempty empty := by
    have spelled := contentOf_alternativesOf content
    rw [empty] at spelled
    exact nonempty spelled.symm
  plain alternative member := by
    obtain ⟨part, listed, rfl⟩ := List.mem_map.mp member
    rw [String.toList_ofList]
    refine ⟨fun opening => ?_, fun closing => ?_, fun bar => ?_⟩
    · exact free.openBrace_not_mem (mem_of_mem_splitOn listed opening).1
    · exact free.closeBrace_not_mem (mem_of_mem_splitOn listed closing).1
    · exact (mem_of_mem_splitOn listed bar).2 rfl

theorem Writable.content_ne_nil {alternatives : List String} (writable : Writable alternatives) :
    contentOf alternatives ≠ [] := by
  intro empty
  have listed := alternativesOf_contentOf writable
  rw [empty] at listed
  exact writable.nonempty listed.symm

theorem Writable.content_braceFree {alternatives : List String}
    (writable : Writable alternatives) : BraceFree (contentOf alternatives) := by
  intro character member
  rcases mem_joinWith member with rfl | ⟨part, listed, inside⟩
  · decide
  · obtain ⟨alternative, member, rfl⟩ := List.mem_map.mp listed
    obtain ⟨noOpen, noClose, _⟩ := writable.plain alternative member
    exact braceFree_iff.mpr ⟨noOpen, noClose⟩ character inside

/-! ### From a text to its template -/

theorem pieces_fixedOf (slots : List (List String)) (collected : List Char) :
    (fixedOf collected).flatMap (Part.pieces slots) = collected.reverse.map .plain := by
  cases collected with
  | nil => rfl
  | cons character rest => simp [fixedOf, Part.pieces]

/-- The parts of pieces have these pieces, from the slot with the number `next` on. -/
theorem pieces_partsOf {slots : List (List String)} {next : Nat} {pieces : List (Piece (List Char))}
    (numbered : slots.drop next = slotsOf pieces) (collected : List Char) :
    (partsOf collected next pieces).flatMap (Part.pieces slots) =
      collected.reverse.map .plain ++ pieces := by
  induction pieces generalizing collected next with
  | nil => rw [partsOf, pieces_fixedOf, List.append_nil]
  | cons piece pieces ih =>
    cases piece with
    | plain character =>
      rw [partsOf, ih numbered]
      simp
    | found content =>
      have this : slots.drop next = alternativesOf content :: slotsOf pieces := numbered
      have here : slots[next]? = some (alternativesOf content) := by
        rw [← List.head?_drop, this, List.head?_cons]
      have later : slots.drop (next + 1) = slotsOf pieces := by
        rw [← List.tail_drop, this, List.tail_cons]
      rw [partsOf, List.flatMap_append, List.flatMap_cons, pieces_fixedOf, ih later, Part.pieces,
        here, Option.getD_some, contentOf_alternativesOf]
      rfl

/-- The template of a text has the pieces that the search found in the text. -/
theorem pieces_parse (text : String) : (parse text).pieces = groupPattern.pieces text.toList :=
  pieces_partsOf rfl []

theorem index?_fixedOf (collected : List Char) :
    (fixedOf collected).filterMap Part.index? = [] := by
  cases collected <;> rfl

theorem index?_partsOf (collected : List Char) (next : Nat) (pieces : List (Piece (List Char))) :
    (partsOf collected next pieces).filterMap Part.index? =
      List.range' next (slotsOf pieces).length := by
  induction pieces generalizing collected next with
  | nil => exact index?_fixedOf collected
  | cons piece pieces ih =>
    cases piece with
    | plain character => exact ih (character :: collected) next
    | found content =>
      have slot : Part.index? (.slot next) = some next := rfl
      rw [partsOf, List.filterMap_append, index?_fixedOf, List.filterMap_cons_some slot, ih]
      rfl

theorem mem_slotsOf {pieces : List (Piece (List Char))} {alternatives : List String}
    (listed : alternatives ∈ slotsOf pieces) :
    ∃ content, .found content ∈ pieces ∧ alternatives = alternativesOf content := by
  obtain ⟨piece, member, shown⟩ := List.mem_filterMap.mp listed
  cases piece with
  | plain character => cases shown
  | found content => exact ⟨content, member, (Option.some.inj shown).symm⟩

/-- Parts begin with the text that was collected, or with the first character of the pieces. -/
theorem head?_partsOf {collected : List Char} {next : Nat} {pieces : List (Piece (List Char))}
    {text : String} (first : (partsOf collected next pieces).head? = some (.fixed text)) :
    text.toList.head? = (collected.reverse ++ groupPattern.text pieces).head? := by
  induction pieces generalizing collected with
  | nil =>
    cases collected with
    | nil => cases first
    | cons character rest =>
      obtain rfl := Part.fixed.inj (Option.some.inj first)
      simp
  | cons piece pieces ih =>
    cases piece with
    | plain character =>
      have shifted := ih first
      simpa using shifted
    | found content =>
      cases collected with
      | nil => cases first
      | cons character rest =>
        obtain rfl := Part.fixed.inj (Option.some.inj first)
        simp

/-- Parts stand side by side as they may, when the pieces are found again behind the text that was
collected. -/
theorem sideBySide_partsOf {before : Option Char} {collected : List Char} {next : Nat}
    {pieces : List (Piece (List Char))}
    (stable : groupPattern.Stable before (collected.reverse.map .plain ++ pieces)) :
    (partsOf collected next pieces).IsChain Part.MayPrecede := by
  induction pieces generalizing before collected next with
  | nil => cases collected <;> simp [partsOf, fixedOf]
  | cons piece pieces ih =>
    cases piece with
    | plain character => exact ih (by simpa using stable)
    | found content =>
      have here := stable.of_append groupPattern_faithful
      rw [Pattern.text_map_plain] at here
      obtain ⟨notOpen, _, _, single, later⟩ := stable_group_iff.mp here
      have rest : groupPattern.Stable (some '}') (([] : List Char).reverse.map .plain ++ pieces) :=
        later
      have behind : (Part.slot next :: partsOf [] (next + 1) pieces).IsChain Part.MayPrecede := by
        refine List.isChain_cons.mpr ⟨fun part first => ?_, ih rest⟩
        cases part with
        | slot index => trivial
        | fixed text => rwa [Part.MayPrecede, head?_partsOf first]
      cases collected with
      | nil => exact behind
      | cons character rest =>
        refine List.isChain_cons_cons.mpr ⟨?_, behind⟩
        rw [lastOr_eq_or] at notOpen
        simpa [Part.MayPrecede] using notOpen

theorem fixed_fixedOf {before : Option Char} (notOpen : before ≠ some '{') {collected : List Char}
    {rest : List (Piece (List Char))} (single : (groupPattern.text rest).head? ≠ some '}')
    (stable : groupPattern.Stable before (collected.reverse.map .plain ++ rest)) {text : String}
    (member : .fixed text ∈ fixedOf collected) : text ≠ "" ∧ ¬ HasGroup text.toList := by
  cases collected with
  | nil => cases member
  | cons character others =>
    obtain rfl := Part.fixed.inj (List.mem_singleton.mp member)
    refine ⟨by simp [← String.toList_inj], ?_⟩
    rw [String.toList_ofList]
    exact not_hasGroup_of_stable notOpen single stable

/-- The fixed parts are stretches without a slot group. -/
theorem fixed_partsOf {before : Option Char} (notOpen : before ≠ some '{') {collected : List Char}
    {next : Nat} {pieces : List (Piece (List Char))}
    (stable : groupPattern.Stable before (collected.reverse.map .plain ++ pieces)) {text : String}
    (member : .fixed text ∈ partsOf collected next pieces) :
    text ≠ "" ∧ ¬ HasGroup text.toList := by
  induction pieces generalizing before collected next with
  | nil => exact fixed_fixedOf notOpen (by simp) stable member
  | cons piece pieces ih =>
    cases piece with
    | plain character => exact ih notOpen (by simpa using stable) member
    | found content =>
      rcases List.mem_append.mp member with here | later
      · exact fixed_fixedOf notOpen (by simp [groupPattern]) stable here
      · have found := stable.of_append groupPattern_faithful
        rw [Pattern.text_map_plain] at found
        have rest : groupPattern.Stable (some '}')
            (([] : List Char).reverse.map .plain ++ pieces) := (stable_group_iff.mp found).2.2.2.2
        have inside : .fixed text ∈ partsOf [] (next + 1) pieces := by simpa using later
        exact ih (by decide) rest inside

/-- **The template of a text is well-formed.** -/
theorem wellFormed_parse (text : String) : (parse text).WellFormed where
  numbered := by
    rw [List.range_eq_range']
    exact index?_partsOf [] 0 _
  sideBySide := sideBySide_partsOf (Pattern.stable_pieces groupPattern_faithful text.toList)
  fixed stretch member :=
    fixed_partsOf (by decide) (Pattern.stable_pieces groupPattern_faithful text.toList) member
  writable alternatives listed := by
    obtain ⟨content, member, rfl⟩ := mem_slotsOf listed
    obtain ⟨previous, tail, found⟩ := Pattern.exists_here?_of_mem_piecesFrom member
    obtain ⟨_, nonempty, free, _⟩ := groupContent?_eq_some_iff.mp found
    exact writable_alternativesOf nonempty free

/-! ### From a template to its text -/

/-- The first character of a part as it is written. -/
def Part.first? : Part → Option Char
  | .fixed text => text.toList.head?
  | .slot _ => some '{'

theorem head?_text_parts {slots : List (List String)} {parts : List Part}
    (nonempty : ∀ text, .fixed text ∈ parts → text ≠ "") :
    (groupPattern.text (parts.flatMap (Part.pieces slots))).head? =
      parts.head?.bind Part.first? := by
  cases parts with
  | nil => rfl
  | cons part rest =>
    rw [List.flatMap_cons, Pattern.text_append, List.head?_cons, Option.bind_some]
    cases part with
    | slot index => rfl
    | fixed text =>
      have listed : text.toList ≠ [] := by simpa using nonempty text List.mem_cons_self
      rw [Part.pieces, Pattern.text_map_plain, List.head?_append_of_ne_nil _ listed]
      rfl

/-- Well-formed parts are found again in the text that they are printed as. -/
theorem stable_parts {slots : List (List String)} {parts : List Part} {previous : Option Char}
    (sideBySide : parts.IsChain Part.MayPrecede)
    (fixed : ∀ text, .fixed text ∈ parts → text ≠ "" ∧ ¬ HasGroup text.toList)
    (writable : ∀ index, .slot index ∈ parts → Writable (slots[index]?.getD []))
    (starts : ∀ index, parts.head? = some (.slot index) → previous ≠ some '{') :
    groupPattern.Stable previous (parts.flatMap (Part.pieces slots)) := by
  induction parts generalizing previous with
  | nil => rfl
  | cons part rest ih =>
    obtain ⟨next, chained⟩ := List.isChain_cons.mp sideBySide
    have later {before : Option Char}
        (starts : ∀ index, rest.head? = some (.slot index) → before ≠ some '{') :
        groupPattern.Stable before (rest.flatMap (Part.pieces slots)) :=
      ih chained (fun text member => fixed text (List.mem_cons_of_mem _ member))
        (fun index member => writable index (List.mem_cons_of_mem _ member)) starts
    have head : (groupPattern.text (rest.flatMap (Part.pieces slots))).head? =
        rest.head?.bind Part.first? :=
      head?_text_parts fun text member => (fixed text (List.mem_cons_of_mem part member)).1
    rw [List.flatMap_cons]
    cases part with
    | fixed text =>
      obtain ⟨nonempty, noGroup⟩ := fixed text List.mem_cons_self
      refine stable_of_not_hasGroup noGroup (fun character first => ?_)
        (later fun index first => ?_)
      · rw [head] at first
        obtain ⟨part, same, begins⟩ := Option.bind_eq_some_iff.mp first
        cases part with
        | fixed other => exact (next _ same).elim
        | slot index => exact (Option.some.inj begins).symm
      · have ends : text.toList.getLast? ≠ some '{' := next _ first
        rw [lastOr_eq_or]
        cases last : text.toList.getLast? with
        | none => exact absurd (List.getLast?_eq_none_iff.mp last) (by simpa using nonempty)
        | some character => rwa [last] at ends
    | slot index =>
      have content := writable index List.mem_cons_self
      rw [Part.pieces, List.singleton_append]
      refine stable_group_iff.mpr ⟨starts index rfl, content.content_ne_nil,
        content.content_braceFree, fun first => ?_, later fun _ _ => by decide⟩
      rw [head] at first
      obtain ⟨part, same, begins⟩ := Option.bind_eq_some_iff.mp first
      cases part with
      | fixed text => exact next _ same begins
      | slot other => cases begins

theorem WellFormed.mem_slots_of_mem_parts {template : Template} (wellFormed : template.WellFormed)
    {index : Nat} (member : .slot index ∈ template.parts) :
    template.slots[index]?.getD [] ∈ template.slots := by
  have numbered : index ∈ template.parts.filterMap Part.index? :=
    List.mem_filterMap.mpr ⟨_, member, rfl⟩
  rw [wellFormed.numbered, List.mem_range] at numbered
  rw [List.getElem?_eq_getElem numbered, Option.getD_some]
  exact List.getElem_mem numbered

theorem WellFormed.stable_pieces {template : Template} (wellFormed : template.WellFormed) :
    groupPattern.Stable none template.pieces :=
  stable_parts wellFormed.sideBySide wellFormed.fixed
    (fun _ member => wellFormed.writable _ (wellFormed.mem_slots_of_mem_parts member))
    fun _ _ => by decide

theorem slotsOf_pieces (slots : List (List String)) (parts : List Part) :
    slotsOf (parts.flatMap (Part.pieces slots)) =
      (parts.filterMap Part.index?).map fun index =>
        alternativesOf (contentOf (slots[index]?.getD [])) := by
  induction parts with
  | nil => rfl
  | cons part rest ih =>
    rw [List.flatMap_cons, slotsOf, List.filterMap_append, ← slotsOf, ← slotsOf, ih]
    cases part with
    | slot index => rfl
    | fixed text =>
      have none : slotsOf (text.toList.map .plain) = [] := by
        rw [slotsOf, List.filterMap_map]
        exact List.filterMap_eq_nil_iff.mpr fun _ _ => rfl
      rw [Part.pieces, none]
      rfl

/-- The pieces of a well-formed template give back its slots. -/
theorem WellFormed.slots_eq {template : Template} (wellFormed : template.WellFormed) :
    slotsOf template.pieces = template.slots := by
  rw [pieces, slotsOf_pieces, wellFormed.numbered]
  refine List.ext_getElem (by simp) fun index _ inside => ?_
  have listed := wellFormed.writable _ (List.getElem_mem inside)
  simp [List.getElem?_eq_getElem inside, alternativesOf_contentOf listed]

theorem partsOf_map_plain (stretch collected : List Char) (next : Nat)
    (pieces : List (Piece (List Char))) :
    partsOf collected next (stretch.map .plain ++ pieces) =
      partsOf (stretch.reverse ++ collected) next pieces := by
  induction stretch generalizing collected with
  | nil => rfl
  | cons character rest ih =>
    rw [List.map_cons, List.cons_append, partsOf, ih, List.reverse_cons, List.append_assoc]
    rfl

theorem partsOf_pieces {slots : List (List String)} {parts : List Part} {next count : Nat}
    (numbered : parts.filterMap Part.index? = List.range' next count)
    (sideBySide : parts.IsChain Part.MayPrecede)
    (nonempty : ∀ text, .fixed text ∈ parts → text ≠ "") :
    partsOf [] next (parts.flatMap (Part.pieces slots)) = parts := by
  induction parts generalizing next count with
  | nil => rfl
  | cons part rest ih =>
    obtain ⟨beside, chained⟩ := List.isChain_cons.mp sideBySide
    have later : ∀ text, .fixed text ∈ rest → text ≠ "" :=
      fun text member => nonempty text (List.mem_cons_of_mem part member)
    cases part with
    | slot index =>
      have first : Part.index? (.slot index) = some index := rfl
      rw [List.filterMap_cons_some first] at numbered
      cases count with
      | zero => cases numbered
      | succ count =>
        rw [List.range'_succ] at numbered
        obtain ⟨rfl, numbered⟩ := List.cons.inj numbered
        rw [List.flatMap_cons, Part.pieces, List.singleton_append, partsOf,
          ih numbered chained later]
        rfl
    | fixed text =>
      have behind := ih numbered chained later
      have whole : fixedOf text.toList.reverse = [.fixed text] := by
        have listed : text.toList.reverse ≠ [] := by simpa using nonempty text List.mem_cons_self
        obtain ⟨character, others, shape⟩ := List.exists_cons_of_ne_nil listed
        rw [shape, fixedOf, ← shape, List.reverse_reverse, String.ofList_toList]
        simp
      rw [List.flatMap_cons, Part.pieces, partsOf_map_plain, List.append_nil]
      cases rest with
      | nil => exact whole
      | cons other more =>
        cases other with
        | fixed _ => exact (beside _ rfl).elim
        | slot index =>
          rw [List.flatMap_cons, Part.pieces, List.singleton_append, partsOf] at behind ⊢
          rw [whole]
          exact congrArg (Part.fixed text :: ·) behind

/-- The pieces of a well-formed template give back its parts. -/
theorem WellFormed.parts_eq {template : Template} (wellFormed : template.WellFormed) :
    partsOf [] 0 template.pieces = template.parts :=
  partsOf_pieces (wellFormed.numbered.trans List.range_eq_range') wellFormed.sideBySide
    fun text member => (wellFormed.fixed text member).1

/-! ### Both ways -/

/-- **Texts and well-formed templates stand for each other.** Every text is its template as it is
written, and that template is well-formed; every well-formed template is the template of the text
that it is written as. -/
theorem parse_print_inverse :
    (∀ text, (parse text).print = text ∧ (parse text).WellFormed) ∧
      ∀ template, WellFormed template → parse template.print = template := by
  refine ⟨fun text => ⟨?_, wellFormed_parse text⟩, fun template wellFormed => ?_⟩
  · rw [← String.toList_inj, toList_print, pieces_parse]
    exact Pattern.text_pieces groupPattern_faithful text.toList
  · have found : groupPattern.pieces template.print.toList = template.pieces := by
      rw [toList_print]
      exact wellFormed.stable_pieces
    rw [parse, found, wellFormed.parts_eq, wellFormed.slots_eq]

/-- A slot beside a brace of its own kind is not well-formed: as it is written, it is plain text. -/
example :
    (parse (print ⟨[.fixed "\x7b", .slot 0], [["a"]]⟩)).parts = [.fixed "\x7b\x7ba\x7d"] := by
  decide +kernel

end Template

end Phrasebook
