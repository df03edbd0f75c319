/-
**Where a search finds its occurrences.**

A search reads from left to right and goes on behind each occurrence that it takes, so it could pass
over one that begins inside another. Where that cannot happen, the pattern is `Exclusive`, and the
search finds an occurrence at a place exactly if the pattern does (`Pattern.mem_places_iff`). Both
slot groups and what stands between double braces are such (`DoubleBraced.exclusive`).

`rewrite` replaces stretches of a text that are given by where they begin and how long they are. When
these are the places of a search, it puts the new texts in for the pieces (`rewrite_places`), so what
an expansion writes can be told without the search.
-/

import Phrasebook.Proofs.Reference

namespace Phrasebook.Text

/-! ### Replacing stretches of a text -/

/-- A stretch of a text, by where it begins and how long it is, and what replaces it. -/
structure Edit where
  start : Nat
  length : Nat
  new : List Char
  deriving DecidableEq, Repr

/-- The text from a place on, with the stretches replaced and all else as it is. -/
def rewrite (text : List Char) : Nat → List Edit → List Char
  | place, [] => text.drop place
  | place, edit :: edits =>
    (text.drop place).take (edit.start - place) ++ edit.new ++
      rewrite text (edit.start + edit.length) edits

/-! ### Places -/

/-- The list of all that there is at the places of a text, in the order of the places. -/
structure ListsPlaces {α : Type} (At : Nat → α → Prop) (places : List (Nat × α)) : Prop where
  ordered : places.Pairwise fun first second => first.1 < second.1
  exact : ∀ place occurrence, (place, occurrence) ∈ places ↔ At place occurrence

section Pieces

variable {α : Type}

/-- The occurrences among pieces. -/
def occurrences (pieces : List (Piece α)) : List α :=
  pieces.filterMap fun
    | .plain _ => none
    | .found occurrence => some occurrence

/-- The text of pieces with the occurrences replaced, one after the other. -/
def filled : List (Piece α) → List (List Char) → List Char
  | [], _ => []
  | .plain character :: pieces, news => character :: filled pieces news
  | .found _ :: pieces, news => news.headD [] ++ filled pieces news.tail

theorem occurrences_plain (character : Char) (pieces : List (Piece α)) :
    occurrences (.plain character :: pieces) = occurrences pieces := rfl

theorem occurrences_found (occurrence : α) (pieces : List (Piece α)) :
    occurrences (.found occurrence :: pieces) = occurrence :: occurrences pieces := rfl

end Pieces

namespace Pattern

variable {α : Type} {pattern : Pattern α}

/-- The occurrences among pieces with where they begin, when the pieces begin at `place`. -/
def placesFrom (pattern : Pattern α) : Nat → List (Piece α) → List (Nat × α)
  | _, [] => []
  | place, .plain _ :: pieces => pattern.placesFrom (place + 1) pieces
  | place, .found occurrence :: pieces =>
    (place, occurrence) ::
      pattern.placesFrom (place + (pattern.write occurrence).length) pieces

/-- Where a search finds the occurrences in a text. -/
def places (pattern : Pattern α) (text : List Char) : List (Nat × α) :=
  pattern.placesFrom 0 (pattern.pieces text)

/-- The edits that put new texts in the places of occurrences. -/
def edits (pattern : Pattern α) (places : List (Nat × α)) (news : List (List Char)) : List Edit :=
  List.zipWith (fun place new => ⟨place.1, (pattern.write place.2).length, new⟩) places news

/-- No occurrence begins inside another one. -/
def Exclusive (pattern : Pattern α) : Prop :=
  ∀ previous front rest occurrence, pattern.here? previous (front ++ rest) = some occurrence →
    front ≠ [] → front.length < (pattern.write occurrence).length →
      pattern.here? (lastOr previous front) rest = none

theorem map_snd_placesFrom (place : Nat) (pieces : List (Piece α)) :
    (pattern.placesFrom place pieces).map Prod.snd = occurrences pieces := by
  induction pieces generalizing place with
  | nil => rfl
  | cons piece pieces ih =>
    cases piece with
    | plain character => exact ih (place + 1)
    | found occurrence => rw [placesFrom, List.map_cons, ih, occurrences_found]

theorem map_snd_places (text : List Char) :
    (pattern.places text).map Prod.snd = occurrences (pattern.pieces text) :=
  map_snd_placesFrom 0 _

/-- A place is where the pieces before the occurrence end. -/
theorem mem_placesFrom {start place : Nat} {occurrence : α} {pieces : List (Piece α)} :
    (place, occurrence) ∈ pattern.placesFrom start pieces ↔
      ∃ before behind, pieces = before ++ .found occurrence :: behind ∧
        place = start + (pattern.text before).length := by
  induction pieces generalizing start with
  | nil => simp [placesFrom]
  | cons piece pieces ih =>
    cases piece with
    | plain character =>
      rw [placesFrom, ih]
      constructor
      · rintro ⟨before, behind, rfl, rfl⟩
        refine ⟨.plain character :: before, behind, rfl, ?_⟩
        rw [text_plain, List.length_cons]
        omega
      · rintro ⟨_ | ⟨first, before⟩, behind, split, same⟩
        · cases split
        · obtain ⟨rfl, rfl⟩ := List.cons.inj split
          rw [text_plain, List.length_cons] at same
          exact ⟨before, behind, rfl, by omega⟩
    | found first =>
      rw [placesFrom, List.mem_cons, ih]
      constructor
      · rintro (same | ⟨before, behind, rfl, rfl⟩)
        · cases same
          exact ⟨[], pieces, rfl, rfl⟩
        · refine ⟨.found first :: before, behind, rfl, ?_⟩
          rw [text_found, List.length_append]
          omega
      · rintro ⟨_ | ⟨head, before⟩, behind, split, same⟩
        · cases split
          exact .inl (by rw [same]; rfl)
        · obtain ⟨rfl, rfl⟩ := List.cons.inj split
          rw [text_found, List.length_append] at same
          exact .inr ⟨before, behind, rfl, by omega⟩

theorem pairwise_placesFrom {pieces : List (Piece α)}
    (nonempty : ∀ occurrence, .found occurrence ∈ pieces → pattern.write occurrence ≠ [])
    (start : Nat) :
    (pattern.placesFrom start pieces).Pairwise fun first second => first.1 < second.1 := by
  induction pieces generalizing start with
  | nil => exact .nil
  | cons piece pieces ih =>
    have later := ih fun occurrence member => nonempty occurrence (List.mem_cons_of_mem _ member)
    cases piece with
    | plain character => exact later (start + 1)
    | found occurrence =>
      have long := List.length_pos_iff.mpr (nonempty occurrence List.mem_cons_self)
      refine List.pairwise_cons.mpr ⟨fun place member => ?_, later _⟩
      obtain ⟨before, behind, _, same⟩ := mem_placesFrom.mp member
      omega

/-- The places of a text stand in their order. -/
theorem pairwise_places (faithful : pattern.Faithful) (text : List Char) :
    (pattern.places text).Pairwise fun first second => first.1 < second.1 := by
  refine pairwise_placesFrom (fun occurrence member => ?_) 0
  obtain ⟨previous, tail, found⟩ := exists_here?_of_mem_piecesFrom member
  exact faithful.nonempty found

/-! ### Everything is found -/

/-- Stable pieces have an occurrence wherever the pattern finds one. -/
theorem Stable.exists_split (faithful : pattern.Faithful) (exclusive : pattern.Exclusive)
    {pieces : List (Piece α)} {previous : Option Char} (stable : pattern.Stable previous pieces)
    {front rest : List Char} (split : pattern.text pieces = front ++ rest) {occurrence : α}
    (found : pattern.here? (lastOr previous front) rest = some occurrence) :
    ∃ before behind, pieces = before ++ .found occurrence :: behind ∧
      pattern.text before = front := by
  have nonempty : rest ≠ [] := by
    rintro rfl
    exact faithful.nonempty found (List.prefix_nil.mp (faithful.written found))
  induction pieces generalizing previous front with
  | nil => exact absurd (List.append_eq_nil_iff.mp split.symm).2 nonempty
  | cons piece pieces ih =>
    cases piece with
    | plain character =>
      obtain ⟨nothing, later⟩ := stable_plain_iff.mp stable
      cases front with
      | nil =>
        have here : character :: pattern.text pieces = rest := split
        rw [here] at nothing
        exact absurd (found.symm.trans nothing) (Option.some_ne_none occurrence)
      | cons head front =>
        obtain ⟨rfl, behind⟩ := List.cons.inj split
        obtain ⟨before, after, rfl, same⟩ := ih later behind found
        exact ⟨.plain character :: before, after, rfl, by rw [text_plain, same]⟩
    | found first =>
      obtain ⟨here, later⟩ := (stable_found_iff faithful).mp stable
      rw [text_found] at split
      by_cases inside : front.length < (pattern.write first).length
      · cases front with
        | nil =>
          have whole : pattern.write first ++ pattern.text pieces = rest := split
          rw [whole] at here
          obtain rfl := Option.some.inj (here.symm.trans found)
          exact ⟨[], pieces, rfl, rfl⟩
        | cons head front =>
          rw [split] at here
          have nothing := exclusive _ _ _ _ here (List.cons_ne_nil _ _) inside
          exact absurd (found.symm.trans nothing) (Option.some_ne_none occurrence)
      · obtain ⟨tail, rfl⟩ : pattern.write first <+: front :=
          List.prefix_of_prefix_length_le (List.prefix_append _ _)
            (split ▸ List.prefix_append front rest) (Nat.le_of_not_lt inside)
        rw [List.append_assoc] at split
        rw [lastOr_append] at found
        obtain ⟨before, behind, rfl, same⟩ := ih later (List.append_cancel_left split) found
        exact ⟨.found first :: before, behind, rfl, by rw [text_found, same]⟩

/-- **A search finds an occurrence at a place exactly if the pattern does.** -/
theorem mem_places_iff (faithful : pattern.Faithful) (exclusive : pattern.Exclusive)
    {text : List Char} {place : Nat} {occurrence : α} :
    (place, occurrence) ∈ pattern.places text ↔
      ∃ front rest, text = front ++ rest ∧ front.length = place ∧
        pattern.here? (lastOr none front) rest = some occurrence := by
  have stable := stable_pieces faithful text
  have spelled := text_pieces faithful text
  rw [places, mem_placesFrom]
  constructor
  · rintro ⟨before, behind, split, rfl⟩
    rw [split] at stable spelled
    refine ⟨pattern.text before, pattern.text (.found occurrence :: behind), ?_, by simp, ?_⟩
    · rw [← text_append, spelled]
    · exact ((stable_found_iff faithful).mp (stable.of_append faithful)).1
  · rintro ⟨front, rest, split, rfl, found⟩
    obtain ⟨before, behind, same, rfl⟩ :=
      stable.exists_split faithful exclusive (spelled.trans split) found
    exact ⟨before, behind, same, by simp⟩

/-- A place inside an occurrence cuts it in two. -/
theorem exists_cut (faithful : pattern.Faithful) {previous : Option Char} {front rest : List Char}
    {occurrence : α} (found : pattern.here? previous (front ++ rest) = some occurrence)
    (short : front.length < (pattern.write occurrence).length) :
    ∃ head middle behind, pattern.write occurrence = front ++ head :: middle ∧
      rest = head :: (middle ++ behind) := by
  obtain ⟨behind, split⟩ := faithful.written found
  obtain ⟨middle, same⟩ : front <+: pattern.write occurrence :=
    List.prefix_of_prefix_length_le (List.prefix_append front rest)
      (split ▸ List.prefix_append _ behind) (Nat.le_of_lt short)
  rw [← same, List.append_assoc] at split
  cases middle with
  | nil => simp [← same] at short
  | cons head middle =>
    exact ⟨head, middle, behind, same.symm, (List.append_cancel_left split).symm⟩

/-- Between double braces no other double braces begin. -/
theorem DoubleBraced.exclusive {IsOccurrence : α → Prop}
    (braced : pattern.DoubleBraced IsOccurrence) : pattern.Exclusive := by
  intro previous front rest occurrence found nonempty short
  obtain ⟨content, inhabited, free, written⟩ := braced.shape (braced.here_iff.mp found).1
  obtain ⟨head, middle, behind, cut, rfl⟩ := exists_cut braced.faithful found short
  refine Option.eq_none_iff_forall_not_mem.mpr fun other inner => ?_
  obtain ⟨isOther, starts⟩ := braced.here_iff.mp inner
  obtain ⟨_, _, _, otherWritten⟩ := braced.shape isOther
  rw [otherWritten, List.cons_prefix_cons] at starts
  obtain ⟨rfl, starts⟩ := starts
  obtain ⟨first, front, rfl⟩ := List.exists_cons_of_ne_nil nonempty
  have body : '{' :: (content ++ ['}', '}']) = front ++ '{' :: middle :=
    (List.cons.inj (written.symm.trans cut)).2
  cases front with
  | nil =>
    -- The other one would begin at the second brace, with the content for its own second brace.
    obtain ⟨character, content, rfl⟩ := List.exists_cons_of_ne_nil inhabited
    rw [← (List.cons.inj body).2, List.cons_append, List.cons_append, List.cons_prefix_cons]
      at starts
    exact free.openBrace_not_mem (starts.1 ▸ List.mem_cons_self)
  | cons second front =>
    -- Behind its first two braces there is no third opening brace.
    have member : '{' ∈ content ++ ['}', '}'] :=
      (List.cons.inj body).2 ▸ List.mem_append_right front List.mem_cons_self
    simp [free.openBrace_not_mem] at member

/-! ### Edits in the places of a search -/

/-- Edits in the places of pieces that begin behind the place, with all of the text up to them. -/
theorem rewrite_placesFrom {text : List Char} {pieces : List (Piece α)} {place start : Nat}
    (before : place ≤ start) (behind : text.drop start = pattern.text pieces)
    {news : List (List Char)} (enough : news.length = (occurrences pieces).length) :
    rewrite text place (pattern.edits (pattern.placesFrom start pieces) news) =
      (text.drop place).take (start - place) ++ filled pieces news := by
  induction pieces generalizing place start news with
  | nil =>
    have rest : (text.drop place).drop (start - place) = [] := by
      rw [List.drop_drop, Nat.add_sub_cancel' before]
      exact behind
    have whole := List.take_append_drop (start - place) (text.drop place)
    rw [rest] at whole
    exact whole.symm
  | cons piece pieces ih =>
    cases piece with
    | plain character =>
      rw [text_plain] at behind
      have next : text.drop (start + 1) = pattern.text pieces := by
        rw [← List.drop_drop, behind]
        rfl
      have here : (text.drop place)[start - place]? = some character := by
        rw [List.getElem?_drop, Nat.add_sub_cancel' before, ← List.head?_drop, behind]
        rfl
      rw [placesFrom, ih (Nat.le_succ_of_le before) next enough, filled,
        Nat.succ_sub before, List.take_add_one, here, List.append_assoc]
      rfl
    | found occurrence =>
      rw [text_found] at behind
      have next : text.drop (start + (pattern.write occurrence).length) = pattern.text pieces := by
        rw [← List.drop_drop, behind, List.drop_left]
      cases news with
      | nil => cases enough
      | cons new news =>
        have later := ih (Nat.le_refl _) next (Nat.succ.inj enough)
        rw [Nat.sub_self, List.take_zero, List.nil_append] at later
        rw [edits] at later
        rw [placesFrom, edits, List.zipWith_cons_cons, rewrite, later, List.append_assoc]
        rfl

/-- **Edits in the places of a search** put the new texts in for the occurrences. -/
theorem rewrite_places (faithful : pattern.Faithful) {text : List Char} {news : List (List Char)}
    (enough : news.length = (pattern.places text).length) :
    rewrite text 0 (pattern.edits (pattern.places text) news) =
      filled (pattern.pieces text) news := by
  have counted : news.length = (occurrences (pattern.pieces text)).length := by
    rw [enough, ← map_snd_places, List.length_map]
  exact rewrite_placesFrom (Nat.le_refl 0) (text_pieces faithful text).symm counted

end Pattern

end Phrasebook.Text
