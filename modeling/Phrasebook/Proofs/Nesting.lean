/-
**Slot groups inside slot groups.**

The alternatives of a slot group have no braces, but what stands around the group may: in `{ {a} }`
the inner braces are a group and the outer ones are not, and once the group is replaced by its
alternative the outer ones have become a group. `NestsGroup` describes such a text, and
`hasGroup_iff_nestsGroup` says that there is no other way for a phrase to have a group: all phrases
of a text that nests groups have one, and no phrase of any other text.

So expanding a second time changes nothing exactly if no template nests groups
(`phrases_settle_iff`). Templates that are made of marks do not (`not_nestsGroup_written`).
-/

import Phrasebook.Proofs.Markup
import Phrasebook.Proofs.SlotGroups

namespace Phrasebook

open Text

/-! ### Fillings in parts -/

namespace Text

variable {α : Type} {options : α → List (List Char)}

theorem mem_fillings_append {first second : List (Piece α)} {text : List Char} :
    text ∈ fillings options (first ++ second) ↔
      ∃ front ∈ fillings options first, ∃ behind ∈ fillings options second,
        text = front ++ behind := by
  simp only [fillings_append, List.mem_flatMap, List.mem_map, eq_comm]

/-- A character that is in none of the options was there before they were put in. -/
theorem exists_plain_of_mem_fillings {pieces : List (Piece α)} {character : Char}
    (without : ∀ occurrence, .found occurrence ∈ pieces →
      ∀ option ∈ options occurrence, character ∉ option)
    {front behind : List Char} (filled : front ++ character :: behind ∈ fillings options pieces) :
    ∃ before after, pieces = before ++ .plain character :: after ∧
      front ∈ fillings options before ∧ behind ∈ fillings options after := by
  induction pieces generalizing front with
  | nil => simp [fillings] at filled
  | cons piece pieces ih =>
    have later : ∀ occurrence, .found occurrence ∈ pieces →
        ∀ option ∈ options occurrence, character ∉ option :=
      fun occurrence member => without occurrence (List.mem_cons_of_mem _ member)
    cases piece with
    | plain first =>
      obtain ⟨rest, inner, split⟩ := mem_fillings_plain.mp filled
      cases front with
      | nil =>
        obtain ⟨rfl, rfl⟩ := List.cons.inj split
        exact ⟨[], pieces, rfl, List.mem_singleton.mpr rfl, inner⟩
      | cons head front =>
        obtain ⟨rfl, rfl⟩ := List.cons.inj split
        obtain ⟨before, after, rfl, one, two⟩ := ih later inner
        exact ⟨.plain head :: before, after, rfl, mem_fillings_plain.mpr ⟨front, one, rfl⟩, two⟩
    | found first =>
      obtain ⟨option, listed, rest, inner, split⟩ := mem_fillings_found.mp filled
      have absent := without first List.mem_cons_self option listed
      -- The option ends before the character.
      have cut : ∃ more, front = option ++ more ∧ rest = more ++ character :: behind := by
        rcases List.append_eq_append_iff.mp split with ⟨more, whole, follows⟩ | apart
        · cases more with
          | nil => exact ⟨[], by simp [whole], follows.symm⟩
          | cons head more =>
            obtain ⟨rfl, _⟩ := List.cons.inj follows
            exact absurd (whole ▸ List.mem_append_right front List.mem_cons_self) absent
        · exact apart
      obtain ⟨more, rfl, rfl⟩ := cut
      obtain ⟨before, after, rfl, one, two⟩ := ih later inner
      exact ⟨.found first :: before, after, rfl,
        mem_fillings_found.mpr ⟨option, listed, more, one, rfl⟩, two⟩

end Text

/-! ### The pieces of a text, and their fillings -/

theorem valid_of_mem_pieces {skip : Nat} {previous : Option Char} {characters content : List Char}
    (member : .found content ∈ groupPattern.piecesFrom skip previous characters) :
    content ≠ [] ∧ BraceFree content := by
  obtain ⟨_, _, found⟩ := Pattern.exists_here?_of_mem_piecesFrom member
  obtain ⟨_, nonempty, free, _⟩ := groupContent?_eq_some_iff.mp found
  exact ⟨nonempty, free⟩

/-- The groups among pieces that are found again have contents without braces. -/
theorem valid_of_stable {previous : Option Char} {pieces : List (Piece (List Char))}
    (stable : groupPattern.Stable previous pieces) {content : List Char}
    (member : .found content ∈ pieces) : content ≠ [] ∧ BraceFree content := by
  rw [← stable] at member
  exact valid_of_mem_pieces member

/-- No brace is next to a group that is found again and doubles a brace of it. -/
theorem single_of_stable {previous : Option Char} {before behind : List (Piece (List Char))}
    {content : List Char}
    (stable : groupPattern.Stable previous (before ++ .found content :: behind)) :
    lastOr previous (groupPattern.text before) ≠ some '{' ∧
      (groupPattern.text behind).head? ≠ some '}' :=
  let ⟨notOpen, _, _, single, _⟩ := stable_group_iff.mp (stable.of_append groupPattern_faithful)
  ⟨notOpen, single⟩

/-- A brace in a filling was there before. -/
theorem exists_brace_of_mem_fillings {pieces : List (Piece (List Char))}
    (free : ∀ content, .found content ∈ pieces → BraceFree content) {brace : Char}
    (isBrace : isPlain brace = false) {front rest : List Char}
    (filled : front ++ brace :: rest ∈ fillings alternatives pieces) :
    ∃ before after, pieces = before ++ .plain brace :: after ∧
      front ∈ fillings alternatives before ∧ rest ∈ fillings alternatives after := by
  refine exists_plain_of_mem_fillings (fun content member alternative listed inside => ?_) filled
  have plain := braceFree_of_mem_alternatives (free content member) listed
  exact absurd (plain brace inside) (by simp [isBrace])

/-- Nothing but a group can be filled with nothing. -/
theorem nil_mem_fillings_cons {piece : Piece (List Char)} {pieces : List (Piece (List Char))}
    (filled : [] ∈ fillings alternatives (piece :: pieces)) :
    ∃ content, piece = .found content := by
  cases piece with
  | found content => exact ⟨content, rfl⟩
  | plain character =>
    obtain ⟨_, _, impossible⟩ := mem_fillings_plain.mp filled
    cases impossible

section Fillings

variable {previous : Option Char} {before behind : List (Piece (List Char))} {filling : List Char}

/-- A filling ends in an opening brace exactly if the text does: no group that stands behind one can
be filled with nothing. -/
theorem getLast?_filling_iff (stable : groupPattern.Stable previous (before ++ behind))
    (filled : filling ∈ fillings alternatives before) :
    filling.getLast? = some '{' ↔ (groupPattern.text before).getLast? = some '{' := by
  constructor
  · intro last
    obtain ⟨front, rfl⟩ := List.getLast?_eq_some_iff.mp last
    have free : ∀ content, .found content ∈ before → BraceFree content := fun content member =>
      (valid_of_stable stable (List.mem_append_left _ member)).2
    obtain ⟨front, after, rfl, _, nothing⟩ := exists_brace_of_mem_fillings free rfl filled
    cases after with
    | nil => simp [Pattern.text_append]
    | cons piece after =>
      obtain ⟨content, rfl⟩ := nil_mem_fillings_cons nothing
      have cut : (front ++ .plain '{' :: .found content :: after) ++ behind =
          (front ++ [.plain '{']) ++ .found content :: (after ++ behind) := by simp
      rw [cut] at stable
      have notOpen := (single_of_stable stable).1
      rw [Pattern.text_append, lastOr_append] at notOpen
      exact absurd rfl notOpen
  · intro last
    rcases List.eq_nil_or_concat before with rfl | ⟨front, piece, rfl⟩
    · cases last
    rw [List.concat_eq_append, Pattern.text_append] at last
    rw [List.concat_eq_append] at filled
    obtain ⟨early, _, late, inner, rfl⟩ := mem_fillings_append.mp filled
    cases piece with
    | plain character =>
      obtain rfl : late = [character] := by simpa [fillings] using inner
      rw [List.getLast?_concat]
      exact (List.getLast?_concat (l := groupPattern.text front)).symm.trans last
    | found content =>
      have closing : groupPattern.text [.found content] = ('{' :: content) ++ ['}'] := by
        simp [groupPattern]
      rw [closing, ← List.append_assoc, List.getLast?_concat] at last
      cases last

/-- A filling begins with a closing brace exactly if the text does: no group that stands before one
can be filled with nothing. -/
theorem head?_filling_iff (stable : groupPattern.Stable previous behind)
    (filled : filling ∈ fillings alternatives behind) :
    filling.head? = some '}' ↔ (groupPattern.text behind).head? = some '}' := by
  constructor
  · intro first
    obtain ⟨rest, rfl⟩ := List.head?_eq_some_iff.mp first
    have free : ∀ content, .found content ∈ behind → BraceFree content := fun content member =>
      (valid_of_stable stable member).2
    obtain ⟨front, after, rfl, nothing, _⟩ :=
      exists_brace_of_mem_fillings free rfl (show [] ++ '}' :: rest ∈ _ from filled)
    rcases List.eq_nil_or_concat front with rfl | ⟨front, piece, rfl⟩
    · rfl
    rw [List.concat_eq_append] at nothing stable
    obtain ⟨_, _, late, inner, split⟩ := mem_fillings_append.mp nothing
    obtain ⟨_, rfl⟩ := List.append_eq_nil_iff.mp split.symm
    obtain ⟨content, rfl⟩ := nil_mem_fillings_cons inner
    rw [List.append_assoc] at stable
    exact absurd rfl (single_of_stable stable).2
  · intro first
    cases behind with
    | nil => cases first
    | cons piece behind =>
      cases piece with
      | plain character =>
        obtain ⟨rest, _, rfl⟩ := mem_fillings_plain.mp filled
        exact first
      | found content => cases first

/-- What is found among pieces is all that can keep their filling from being their text. -/
theorem eq_text_of_mem_fillings {pieces : List (Piece (List Char))}
    (groupless : ∀ content, .found content ∉ pieces) (filled : filling ∈ fillings alternatives pieces) :
    filling = groupPattern.text pieces := by
  induction pieces generalizing filling with
  | nil => exact List.mem_singleton.mp filled
  | cons piece pieces ih =>
    cases piece with
    | found content => exact absurd List.mem_cons_self (groupless content)
    | plain character =>
      obtain ⟨rest, inner, rfl⟩ := mem_fillings_plain.mp filled
      rw [Pattern.text_plain,
        ih (fun content member => groupless content (List.mem_cons_of_mem _ member)) inner]

theorem mem_filling_of_plain {pieces : List (Piece (List Char))} {character : Char}
    (member : .plain character ∈ pieces) (filled : filling ∈ fillings alternatives pieces) :
    character ∈ filling := by
  obtain ⟨before, after, rfl⟩ := List.append_of_mem member
  obtain ⟨front, _, rest, inner, rfl⟩ := mem_fillings_append.mp filled
  obtain ⟨later, _, rfl⟩ := mem_fillings_plain.mp inner
  exact List.mem_append_right _ List.mem_cons_self

/-- Braces come from plain pieces only. -/
theorem braceFree_filling {pieces : List (Piece (List Char))}
    (plain : ∀ character, .plain character ∈ pieces → isPlain character = true)
    (free : ∀ content, .found content ∈ pieces → BraceFree content)
    (filled : filling ∈ fillings alternatives pieces) : BraceFree filling := by
  intro character member
  by_contra brace
  obtain ⟨front, rest, rfl⟩ := List.append_of_mem member
  obtain ⟨before, after, rfl, _⟩ :=
    exists_brace_of_mem_fillings free (Bool.eq_false_iff.mpr brace) filled
  exact brace (plain character (List.mem_append_right _ List.mem_cons_self))

end Fillings

/-! ### Braces around groups -/

/-- Whether the mark is text or a slot group. -/
def Mark.isSingle : Mark → Bool
  | .text _ | .group _ => true
  | .doubled _ => false

/-- Single braces stand around text and slot groups, among them at least one group. No brace of theirs
is doubled. -/
structure Nests (front : List Char) (marks : List Mark) (behind : List Char) : Prop where
  valid : ∀ mark ∈ marks, mark.Valid
  single : ∀ mark ∈ marks, mark.isSingle = true
  grouped : ∃ mark ∈ marks, mark.isGroup = true
  notOpen : front.getLast? ≠ some '{'
  opens : (written marks).head? ≠ some '{'
  closes : (written marks).getLast? ≠ some '}'
  notClosed : behind.head? ≠ some '}'

/-- Somewhere in the text, single braces stand around a slot group. -/
def NestsGroup (text : List Char) : Prop :=
  ∃ front marks behind, text = front ++ '{' :: (written marks ++ '}' :: behind) ∧
    Nests front marks behind

/-- A piece as a mark. -/
def markOf : Piece (List Char) → Mark
  | .plain character => .text [character]
  | .found content => .group content

theorem written_map_markOf (pieces : List (Piece (List Char))) :
    written (pieces.map markOf) = groupPattern.text pieces := by
  induction pieces with
  | nil => rfl
  | cons piece pieces ih =>
    rw [List.map_cons, written_cons, ih]
    cases piece <;> rfl

section Around

variable {early between late : List (Piece (List Char))}
  (stable : groupPattern.Stable none (early ++ .plain '{' :: (between ++ .plain '}' :: late)))

include stable

/-- Plain braces that are not doubled, with nothing but text between them, would be a group. -/
theorem exists_found_between {inner : List Char} (nonempty : inner ≠ []) (plain : BraceFree inner)
    (filled : inner ∈ fillings alternatives between)
    (notOpen : (groupPattern.text early).getLast? ≠ some '{')
    (notClosed : (groupPattern.text late).head? ≠ some '}') :
    ∃ content, .found content ∈ between := by
  by_contra none
  have spelled := eq_text_of_mem_fillings (not_exists.mp none) filled
  obtain ⟨nothing, _⟩ := Pattern.stable_plain_iff.mp (stable.of_append groupPattern_faithful)
  have found : groupContent? (lastOr Option.none (groupPattern.text early))
      ('{' :: groupPattern.text (between ++ .plain '}' :: late)) = some inner := by
    refine groupContent?_eq_some_iff.mpr ⟨?_, nonempty, plain, groupPattern.text late, ?_, notClosed⟩
    · rwa [lastOr_eq_or, Option.or_none]
    · rw [Pattern.text_append, ← spelled, Pattern.text_plain]
  exact absurd (found.symm.trans nothing) (Option.some_ne_none inner)

theorem nests_between (plain : ∀ character, .plain character ∈ between → isPlain character = true)
    (grouped : ∃ content, .found content ∈ between)
    (notOpen : (groupPattern.text early).getLast? ≠ some '{')
    (notClosed : (groupPattern.text late).head? ≠ some '}') :
    Nests (groupPattern.text early) (between.map markOf) (groupPattern.text late) where
  valid := by
    refine List.forall_mem_map.mpr fun piece member => ?_
    cases piece with
    | plain character => exact List.forall_mem_singleton.mpr (plain character member)
    | found content =>
      exact valid_of_stable stable
        (List.mem_append_right _ (List.mem_cons_of_mem _ (List.mem_append_left _ member)))
  single := List.forall_mem_map.mpr fun piece _ => by cases piece <;> rfl
  grouped :=
    let ⟨content, member⟩ := grouped
    ⟨.group content, List.mem_map_of_mem (f := markOf) member, rfl⟩
  notOpen := notOpen
  opens := by
    rw [written_map_markOf]
    intro first
    cases between with
    | nil => cases first
    | cons piece between =>
      cases piece with
      | plain character =>
        obtain rfl : character = '{' := Option.some.inj first
        exact absurd (plain '{' List.mem_cons_self) (by decide)
      | found content =>
        -- The group would stand behind an opening brace.
        have cut : early ++ .plain '{' :: (.found content :: between ++ .plain '}' :: late) =
            (early ++ [.plain '{']) ++ .found content :: (between ++ .plain '}' :: late) := by simp
        rw [cut] at stable
        have apart := (single_of_stable stable).1
        rw [Pattern.text_append, lastOr_append] at apart
        exact apart rfl
  closes := by
    rw [written_map_markOf]
    intro last
    rcases List.eq_nil_or_concat between with rfl | ⟨front, piece, rfl⟩
    · cases last
    rw [List.concat_eq_append, Pattern.text_append] at last
    cases piece with
    | plain character =>
      obtain rfl : character = '}' := Option.some.inj (List.getLast?_concat.symm.trans last)
      exact absurd (plain '}' (by simp)) (by decide)
    | found content =>
      -- The group would stand before a closing brace.
      have cut : early ++ .plain '{' :: (front.concat (.found content) ++ .plain '}' :: late) =
          (early ++ .plain '{' :: front) ++ .found content :: (.plain '}' :: late) := by simp
      rw [cut] at stable
      exact (single_of_stable stable).2 rfl
  notClosed := notClosed

end Around

/-- A group in a phrase has braces that stood around a group before. -/
theorem nestsGroup_of_hasGroup {text filling : List Char}
    (filled : filling ∈ fillings alternatives (groupPattern.pieces text))
    (has : HasGroup filling) : NestsGroup text := by
  obtain ⟨front, inner, rest, rfl, nonempty, plain, before, after⟩ := has
  have stable := Pattern.stable_pieces groupPattern_faithful text
  have spelled := Pattern.text_pieces groupPattern_faithful text
  generalize groupPattern.pieces text = pieces at filled stable spelled
  have free : ∀ content, .found content ∈ pieces → BraceFree content :=
    fun content member => (valid_of_stable stable member).2
  -- Both braces of the group stood in the text, with the pieces that fill the group between them.
  obtain ⟨early, others, rfl, first, filled⟩ := exists_brace_of_mem_fillings free rfl filled
  have later : ∀ content, .found content ∈ others → BraceFree content := fun content member =>
    free content (List.mem_append_right _ (List.mem_cons_of_mem _ member))
  obtain ⟨between, late, rfl, second, third⟩ := exists_brace_of_mem_fillings later rfl filled
  have inside := (Pattern.stable_plain_iff.mp (stable.of_append groupPattern_faithful)).2
  have ending := (Pattern.stable_plain_iff.mp (inside.of_append groupPattern_faithful)).2
  have notOpen := mt (getLast?_filling_iff stable first).mpr before
  have notClosed := mt (head?_filling_iff ending third).mpr after
  refine ⟨groupPattern.text early, between.map markOf, groupPattern.text late, ?_, ?_⟩
  · rw [← spelled, written_map_markOf]
    simp [Pattern.text_append]
  · exact nests_between stable
      (fun character member => plain character (mem_filling_of_plain member second))
      (exists_found_between stable nonempty plain second notOpen notClosed) notOpen notClosed

/-- No group reaches over an opening brace. -/
theorem apart_openBrace (first rest : List Char) : groupPattern.Apart first ('{' :: rest) := by
  intro previous tail nonempty _
  obtain ⟨head, tail, rfl⟩ := List.exists_cons_of_ne_nil nonempty
  refine Option.ext fun content => ?_
  constructor
  · intro found
    obtain ⟨notOpen, inhabited, free, behind, shape, single⟩ := groupContent?_eq_some_iff.mp found
    obtain ⟨rfl, body⟩ := List.cons.inj shape
    refine groupContent?_eq_some_iff.mpr ⟨notOpen, inhabited, free, ?_⟩
    rcases List.append_eq_append_iff.mp body with ⟨more, rfl, follows⟩ | ⟨more, rfl, follows⟩
    · cases more with
      | nil => cases follows
      | cons next more =>
        obtain ⟨rfl, _⟩ := List.cons.inj follows
        exact absurd (List.mem_append_right tail List.mem_cons_self) free.openBrace_not_mem
    · cases more with
      | nil => cases follows
      | cons next more =>
        obtain ⟨rfl, rfl⟩ := List.cons.inj follows
        refine ⟨more, rfl, fun doubled => ?_⟩
        obtain ⟨others, rfl⟩ := List.head?_eq_some_iff.mp doubled
        exact single rfl
  · intro found
    obtain ⟨notOpen, inhabited, free, behind, shape, single⟩ := groupContent?_eq_some_iff.mp found
    obtain ⟨rfl, rfl⟩ := List.cons.inj shape
    refine groupContent?_eq_some_iff.mpr
      ⟨notOpen, inhabited, free, behind ++ '{' :: rest, by simp, ?_⟩
    cases behind with
    | nil => exact fun impossible => by cases impossible
    | cons next behind => exact single

/-- Marks with a group among them have an opening brace before any closing one. -/
theorem exists_openBrace {marks : List Mark} (valid : ∀ mark ∈ marks, mark.Valid)
    (grouped : ∃ mark ∈ marks, mark.isGroup = true) :
    ∃ lead rest, BraceFree lead ∧ written marks = lead ++ '{' :: rest := by
  induction marks with
  | nil => simp at grouped
  | cons mark marks ih =>
    obtain ⟨here, later⟩ := List.forall_mem_cons.mp valid
    cases mark with
    | group content => exact ⟨[], _, braceFree_nil, rfl⟩
    | doubled content => exact ⟨[], _, braceFree_nil, rfl⟩
    | text characters =>
      obtain ⟨lead, rest, free, same⟩ := ih later (by simpa [Mark.isGroup] using grouped)
      refine ⟨characters ++ lead, rest, braceFree_append.mpr ⟨here, free⟩, ?_⟩
      rw [written_cons, same, List.append_assoc]
      rfl

theorem isPlain_of_mem_piecesOf {marks : List Mark} (valid : ∀ mark ∈ marks, mark.Valid)
    (single : ∀ mark ∈ marks, mark.isSingle = true) {character : Char}
    (member : .plain character ∈ piecesOf marks) : isPlain character = true := by
  obtain ⟨mark, listed, inside⟩ := List.mem_flatMap.mp member
  cases mark with
  | doubled content => cases single _ listed
  | group content => cases List.mem_singleton.mp inside
  | text characters =>
    obtain ⟨_, among, same⟩ := List.mem_map.mp inside
    cases same
    exact valid _ listed _ among

section Outside

variable {front behind : List Char} {marks : List Mark} (nests : Nests front marks behind)

include nests

/-- The search passes over the outer braces. -/
theorem Nests.pieces_eq :
    groupPattern.pieces (front ++ '{' :: (written marks ++ '}' :: behind)) =
      groupPattern.pieces front ++ .plain '{' ::
        (piecesOf marks ++ .plain '}' :: groupPattern.piecesFrom 0 (some '}') behind) := by
  have opening : groupPattern.here? (lastOr none front)
      ('{' :: (written marks ++ '}' :: behind)) = none := by
    refine Option.eq_none_iff_forall_not_mem.mpr fun content found => ?_
    obtain ⟨_, _, free, rest, shape, _⟩ := groupContent?_eq_some_iff.mp found
    obtain ⟨lead, more, plain, spelled⟩ := exists_openBrace nests.valid nests.grouped
    have body := (List.cons.inj shape).2
    rw [spelled, List.append_assoc] at body
    have cut := congrArg (List.dropWhile isPlain) body
    rw [(free.takeWhile_append rest).2, List.dropWhile_append_of_pos plain] at cut
    cases cut
  have closing (previous : Option Char) : groupPattern.here? previous ('}' :: behind) = none := by
    refine Option.eq_none_iff_forall_not_mem.mpr fun content found => ?_
    obtain ⟨_, _, _, _, shape, _⟩ := groupContent?_eq_some_iff.mp found
    cases shape
  have between : groupPattern.piecesFrom 0 (some '{') (written marks ++ '}' :: behind) =
      piecesOf marks ++
        groupPattern.piecesFrom 0 (lastOr (some '{') (written marks)) ('}' :: behind) :=
    piecesFrom_written nests.valid (fun first => absurd first nests.opens)
      fun last => absurd last nests.closes
  rw [Pattern.pieces, Pattern.piecesFrom_append groupPattern_faithful (apart_openBrace _ _)
    (Nat.zero_le _), Pattern.piecesFrom, opening]
  dsimp only
  rw [between, Pattern.piecesFrom, closing]
  rfl

/-- Something stands between the outer braces, whatever is chosen: what comes first there is not a
group. -/
theorem Nests.nil_not_mem_fillings : [] ∉ fillings alternatives (piecesOf marks) := by
  intro filled
  have spelled := text_piecesOf marks
  cases pieces : piecesOf marks with
  | nil =>
    obtain ⟨lead, more, _, same⟩ := exists_openBrace nests.valid nests.grouped
    rw [pieces, same] at spelled
    simp at spelled
  | cons piece others =>
    rw [pieces] at filled spelled
    obtain ⟨content, rfl⟩ := nil_mem_fillings_cons filled
    exact nests.opens (spelled ▸ rfl)

/-- Whatever is chosen for the groups inside them, the outer braces become a group. -/
theorem Nests.hasGroup {filling : List Char} (filled : filling ∈ fillings alternatives
    (groupPattern.pieces (front ++ '{' :: (written marks ++ '}' :: behind)))) :
    HasGroup filling := by
  have stable := Pattern.stable_pieces groupPattern_faithful
    (front ++ '{' :: (written marks ++ '}' :: behind))
  rw [nests.pieces_eq] at filled stable
  obtain ⟨early, first, _, opened, rfl⟩ := mem_fillings_append.mp filled
  obtain ⟨_, body, rfl⟩ := mem_fillings_plain.mp opened
  obtain ⟨inner, second, _, closed, rfl⟩ := mem_fillings_append.mp body
  obtain ⟨late, third, rfl⟩ := mem_fillings_plain.mp closed
  have inside := (Pattern.stable_plain_iff.mp (stable.of_append groupPattern_faithful)).2
  have ending := (Pattern.stable_plain_iff.mp (inside.of_append groupPattern_faithful)).2
  refine ⟨early, inner, late, rfl, ?_, ?_, ?_, ?_⟩
  · rintro rfl
    exact nests.nil_not_mem_fillings second
  · exact braceFree_filling (fun _ => isPlain_of_mem_piecesOf nests.valid nests.single)
      (fun content member => (valid_of_stable inside (List.mem_append_left _ member)).2) second
  · refine mt (getLast?_filling_iff stable first).mp ?_
    rw [Pattern.text_pieces groupPattern_faithful]
    exact nests.notOpen
  · refine mt (head?_filling_iff ending third).mp ?_
    rw [Pattern.text_piecesFrom groupPattern_faithful, List.drop_zero]
    exact nests.notClosed

end Outside

/-- **A phrase has a group exactly if its text nests groups**, whichever alternatives it chooses. -/
theorem hasGroup_iff_nestsGroup {text phrase : String} (member : phrase ∈ phrasesOf text) :
    HasGroup phrase.toList ↔ NestsGroup text.toList := by
  have filled := mem_phrasesOf.mp member
  constructor
  · exact nestsGroup_of_hasGroup filled
  · rintro ⟨front, marks, behind, split, nests⟩
    rw [split] at filled
    exact nests.hasGroup filled

/-! ### Expanding again -/

/-- Each group that is replaced takes an opening brace with it. -/
theorem count_openBrace_filling {pieces : List (Piece (List Char))}
    (free : ∀ content, .found content ∈ pieces → BraceFree content) {filling : List Char}
    (filled : filling ∈ fillings alternatives pieces) :
    filling.count '{' + (occurrences pieces).length = (groupPattern.text pieces).count '{' := by
  induction pieces generalizing filling with
  | nil =>
    obtain rfl := List.mem_singleton.mp filled
    rfl
  | cons piece pieces ih =>
    have later : ∀ content, .found content ∈ pieces → BraceFree content :=
      fun content member => free content (List.mem_cons_of_mem _ member)
    cases piece with
    | plain character =>
      obtain ⟨rest, inner, rfl⟩ := mem_fillings_plain.mp filled
      rw [Pattern.text_plain, List.count_cons, List.count_cons, ← ih later inner]
      simp only [occurrences, List.filterMap_cons]
      omega
    | found content =>
      obtain ⟨alternative, listed, rest, inner, rfl⟩ := mem_fillings_found.mp filled
      have whole := free content List.mem_cons_self
      have chosen := braceFree_of_mem_alternatives whole listed
      rw [Pattern.text_found, List.count_append, List.count_append, ← ih later inner,
        List.count_eq_zero_of_not_mem chosen.openBrace_not_mem]
      have one : (groupPattern.write content).count '{' = 1 := by
        simp [groupPattern, List.count_eq_zero_of_not_mem whole.openBrace_not_mem]
      simp only [occurrences, List.filterMap_cons, List.length_cons, one]
      omega

/-- Exactly the texts without groups stand for themselves. -/
theorem phrasesOf_eq_self_iff {text : String} :
    phrasesOf text = [text] ↔ ¬ HasGroup text.toList := by
  rw [← slots_parse_eq_nil_iff, slots_parse, alternativeLists, List.map_eq_nil_iff,
    List.map_eq_nil_iff]
  refine ⟨fun itself => ?_, phrasesOf_of_places_eq_nil⟩
  have filled := mem_phrasesOf.mp (itself ▸ List.mem_singleton_self text)
  have free : ∀ content, .found content ∈ groupPattern.pieces text.toList → BraceFree content :=
    fun _ member => (valid_of_mem_pieces member).2
  have counted := count_openBrace_filling free filled
  rw [Pattern.text_pieces groupPattern_faithful, ← Pattern.map_snd_places, List.length_map]
    at counted
  exact List.eq_nil_of_length_eq_zero (by omega)

theorem length_le_phrasesOfAll (texts : List String) :
    texts.length ≤ (phrasesOfAll texts).length := by
  have each := List.length_le_sum_of_one_le (texts.map fun text => (phrasesOf text).length)
    (List.forall_mem_map.mpr fun text _ => List.length_pos_iff.mpr (phrasesOf_ne_nil text))
  rwa [List.length_map, ← List.length_flatMap] at each

/-- A list of texts stands for itself exactly if each of them does. -/
theorem phrasesOfAll_eq_self_iff {texts : List String} :
    phrasesOfAll texts = texts ↔ ∀ text ∈ texts, phrasesOf text = [text] := by
  induction texts with
  | nil => simp [phrasesOfAll]
  | cons text texts ih =>
    rw [List.forall_mem_cons, ← ih]
    constructor
    · intro same
      have split : phrasesOf text ++ phrasesOfAll texts = text :: texts := same
      have sizes := congrArg List.length split
      have some := List.length_pos_iff.mpr (phrasesOf_ne_nil text)
      have rest := length_le_phrasesOfAll texts
      rw [List.length_append, List.length_cons] at sizes
      exact List.append_inj split (show _ = [text].length by rw [List.length_singleton]; omega)
    · rintro ⟨here, rest⟩
      rw [phrasesOfAll] at rest
      rw [phrasesOfAll, List.flatMap_cons, here, rest]
      rfl

/-- What fills a mark is a mark again, and no group. -/
theorem Mark.Valid.exists_groupless {mark : Mark} (valid : mark.Valid) {filling : List Char}
    (filled : filling ∈ fillings alternatives mark.pieces) :
    ∃ other : Mark, other.Valid ∧ other.isGroup = false ∧ filling = other.write := by
  have itself {characters : List Char}
      (filled : filling ∈ fillings alternatives (characters.map .plain)) : filling = characters := by
    have spelled := eq_text_of_mem_fillings (by simp) filled
    rwa [Pattern.text_map_plain] at spelled
  cases mark with
  | text characters => exact ⟨.text characters, valid, rfl, itself filled⟩
  | doubled content => exact ⟨.doubled content, valid, rfl, itself filled⟩
  | group content =>
    obtain ⟨alternative, listed, _, rest, rfl⟩ := mem_fillings_found.mp filled
    obtain rfl := List.mem_singleton.mp rest
    exact ⟨.text alternative, braceFree_of_mem_alternatives valid.2 listed, rfl, List.append_nil _⟩

theorem exists_groupless {marks : List Mark} (valid : ∀ mark ∈ marks, mark.Valid)
    {filling : List Char} (filled : filling ∈ fillings alternatives (piecesOf marks)) :
    ∃ others, (∀ mark ∈ others, mark.Valid ∧ mark.isGroup = false) ∧ filling = written others := by
  induction marks generalizing filling with
  | nil => exact ⟨[], List.forall_mem_nil _, List.mem_singleton.mp filled⟩
  | cons mark marks ih =>
    obtain ⟨here, later⟩ := List.forall_mem_cons.mp valid
    rw [piecesOf_cons] at filled
    obtain ⟨front, first, rest, inner, rfl⟩ := mem_fillings_append.mp filled
    obtain ⟨other, valid, single, rfl⟩ := here.exists_groupless first
    obtain ⟨others, all, rfl⟩ := ih later inner
    exact ⟨other :: others, List.forall_mem_cons.mpr ⟨⟨valid, single⟩, all⟩, (written_cons _ _).symm⟩

/-- Marks nest no groups, whatever stands next to what. -/
theorem not_nestsGroup_written {marks : List Mark} (valid : ∀ mark ∈ marks, mark.Valid) :
    ¬ NestsGroup (written marks) := by
  obtain ⟨phrase, member⟩ := List.exists_mem_of_ne_nil _ (phrasesOf_ne_nil (templateOf marks))
  have settles := hasGroup_iff_nestsGroup member
  rw [templateOf, String.toList_ofList] at settles
  rw [← settles, ← phrasesOf_eq_self_iff]
  rw [phrasesOf_templateOf valid] at member
  obtain ⟨filling, filled, rfl⟩ := List.mem_map.mp member
  obtain ⟨others, all, rfl⟩ := exists_groupless valid filled
  have plain := piecesOf_eq_map_plain fun mark listed => (all mark listed).2
  have alone := phrasesOf_templateOf fun mark listed => (all mark listed).1
  rw [plain, ← List.append_nil ((written others).map Piece.plain), fillings_map_plain] at alone
  simpa [fillings, templateOf] using alone

/-- **What expansion leaves of slot groups.** The phrases of a template have no slots, and stand for
themselves, exactly if the template does not nest groups. So expanding the phrases of a list of
templates changes nothing exactly if none of them nests groups. -/
theorem phrases_settle_iff (templates : List String) :
    (∀ template ∈ templates, ∀ phrase ∈ phrasesOf template,
      ((Template.parse phrase).slots = [] ↔ ¬ NestsGroup template.toList) ∧
        (phrasesOf phrase = [phrase] ↔ ¬ NestsGroup template.toList)) ∧
      (phrasesOfAll (phrasesOfAll templates) = phrasesOfAll templates ↔
        ∀ template ∈ templates, ¬ NestsGroup template.toList) := by
  have settled {template phrase : String} (member : phrase ∈ phrasesOf template) :
      phrasesOf phrase = [phrase] ↔ ¬ NestsGroup template.toList :=
    phrasesOf_eq_self_iff.trans (not_congr (hasGroup_iff_nestsGroup member))
  refine ⟨fun template _ phrase member => ⟨?_, settled member⟩, ?_⟩
  · exact slots_parse_eq_nil_iff.trans (not_congr (hasGroup_iff_nestsGroup member))
  · rw [phrasesOfAll_eq_self_iff]
    constructor
    · intro all template listed
      obtain ⟨phrase, member⟩ := List.exists_mem_of_ne_nil _ (phrasesOf_ne_nil template)
      exact (settled member).mp (all phrase (mem_phrasesOfAll.mpr ⟨template, listed, member⟩))
    · intro settles phrase among
      obtain ⟨template, listed, member⟩ := mem_phrasesOfAll.mp among
      exact (settled member).mpr (settles template listed)

/-- The inner braces are a group, and when it is replaced the outer ones are. -/
theorem nested_group_survives :
    "\x7b a \x7d" ∈ phrasesOf "\x7b \x7ba\x7d \x7d" ∧
      (Template.parse "\x7b a \x7d").slots = [[" a "]] ∧
      phrasesOf "\x7b a \x7d" = [" a "] ∧
      phrasesOfAll (phrasesOfAll ["\x7b \x7ba\x7d \x7d"]) ≠ phrasesOfAll ["\x7b \x7ba\x7d \x7d"] := by
  decide +kernel

end Phrasebook
