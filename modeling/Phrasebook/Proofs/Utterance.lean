/-
**The grammar of utterances.**

An utterance that is fit for a platform is text without braces, with references in between:
`IsUtterance`. This module ties the three ways to read a text to that grammar:

* `isUtterance_iff`: the check for stray braces accepts exactly the utterances;
* `braceFree_spoken_iff`: what a reader sees of a text is free of braces exactly if it is one;
* `namesIn_between`, `strayIn_between`, `spokenIn_between`: what is referred to, whether a brace is
  stray, and what a reader sees can be told part by part, cut at any text between double braces.
-/

import Phrasebook.Proofs.Reference

namespace Phrasebook

open Text

/-- Text without braces and references, one after the other. -/
inductive IsUtterance : List Char → Prop where
  | nil : IsUtterance []
  | text {characters rest : List Char} :
      BraceFree characters → IsUtterance rest → IsUtterance (characters ++ rest)
  | reference {reference : Reference} {rest : List Char} :
      reference.Valid → IsUtterance rest → IsUtterance (reference.write ++ rest)

/-! ### What a search for references shows -/

/-- Whether the piece is a brace outside all references. -/
def Text.Piece.isStray : Piece Reference → Bool
  | .plain character => !isPlain character
  | .found _ => false

/-- The name that the piece refers to. -/
def Text.Piece.name? : Piece Reference → Option String
  | .plain _ => none
  | .found reference => some reference.name

/-- What a reader sees of the piece. -/
def Text.Piece.spoken : Piece Reference → List Char
  | .plain character => [character]
  | .found reference => reference.plain.toList

/-- Whether a brace is left outside the references in the text. -/
def strayIn (characters : List Char) : Bool := (referencePattern.pieces characters).any Piece.isStray

/-- What a reader sees of the text. -/
def spokenIn (characters : List Char) : List Char :=
  (referencePattern.pieces characters).flatMap Piece.spoken

/-- The names that the text refers to, from left to right and with repeats. -/
def namesIn (characters : List Char) : List String :=
  (referencePattern.pieces characters).filterMap Piece.name?

theorem hasStrayBrace_eq (utterance : String) :
    hasStrayBrace utterance = strayIn utterance.toList := rfl

theorem spokenText_eq (utterance : String) :
    spokenText utterance = String.ofList (spokenIn utterance.toList) := rfl

theorem names_references (text : String) :
    (references text).map (·.name) = namesIn text.toList := by
  rw [references, namesIn, List.map_filterMap]
  congr 1
  funext piece
  cases piece <;> rfl

theorem mem_mentionedNames {texts : List String} {name : String} :
    name ∈ mentionedNames texts ↔ ∃ text ∈ texts, name ∈ namesIn text.toList := by
  simp only [mentionedNames, List.mem_eraseDups, List.mem_flatMap, names_references]

theorem mem_mentionedNames_singleton {text name : String} :
    name ∈ mentionedNames [text] ↔ name ∈ namesIn text.toList := by
  simp [mem_mentionedNames]

/-! ### Reading part by part -/

@[simp] theorem namesIn_nil : namesIn [] = [] := rfl

@[simp] theorem strayIn_nil : strayIn [] = false := rfl

/-- Text between double braces is read by itself, whatever it is and whatever stands around it. -/
theorem namesIn_between (front : List Char) (reference : Reference) (behind : List Char) :
    namesIn (front ++ reference.write ++ behind) =
      namesIn front ++ namesIn reference.write ++ namesIn behind := by
  rw [namesIn, Reference.write, referencePattern_doubleBraced.pieces_between,
    List.filterMap_append, List.filterMap_append]
  rfl

theorem strayIn_between (front : List Char) (reference : Reference) (behind : List Char) :
    strayIn (front ++ reference.write ++ behind) =
      (strayIn front || strayIn reference.write || strayIn behind) := by
  rw [strayIn, Reference.write, referencePattern_doubleBraced.pieces_between, List.any_append,
    List.any_append]
  rfl

theorem spokenIn_between (front : List Char) (reference : Reference) (behind : List Char) :
    spokenIn (front ++ reference.write ++ behind) =
      spokenIn front ++ spokenIn reference.write ++ spokenIn behind := by
  rw [spokenIn, Reference.write, referencePattern_doubleBraced.pieces_between, List.flatMap_append,
    List.flatMap_append]
  rfl

theorem pieces_reference {reference : Reference} (valid : reference.Valid) (behind : List Char) :
    referencePattern.pieces (reference.write ++ behind) =
      .found reference :: referencePattern.pieces behind :=
  referencePattern_doubleBraced.pieces_write valid behind

theorem pieces_text {characters : List Char} (free : BraceFree characters) (behind : List Char) :
    referencePattern.pieces (characters ++ behind) =
      characters.map .plain ++ referencePattern.pieces behind :=
  referencePattern_doubleBraced.pieces_braceFree_append free behind

theorem namesIn_reference_append {reference : Reference} (valid : reference.Valid)
    (behind : List Char) :
    namesIn (reference.write ++ behind) = reference.name :: namesIn behind := by
  rw [namesIn, pieces_reference valid]
  rfl

theorem strayIn_reference_append {reference : Reference} (valid : reference.Valid)
    (behind : List Char) : strayIn (reference.write ++ behind) = strayIn behind := by
  rw [strayIn, pieces_reference valid]
  rfl

theorem namesIn_text_append {characters : List Char} (free : BraceFree characters)
    (behind : List Char) : namesIn (characters ++ behind) = namesIn behind := by
  have none : (characters.map (Piece.plain (α := Reference))).filterMap Piece.name? = [] := by
    rw [List.filterMap_map]
    exact List.filterMap_eq_nil_iff.mpr fun _ _ => rfl
  rw [namesIn, pieces_text free, List.filterMap_append, none]
  rfl

theorem strayIn_text_append {characters : List Char} (free : BraceFree characters)
    (behind : List Char) : strayIn (characters ++ behind) = strayIn behind := by
  have none : (characters.map (Piece.plain (α := Reference))).any Piece.isStray = false := by
    rw [List.any_map]
    exact List.any_eq_false.mpr fun character member => by
      simp [Piece.isStray, free character member]
  rw [strayIn, pieces_text free, List.any_append, none]
  rfl

/-- A reference has the one name, and no brace of it is stray. -/
theorem namesIn_reference {reference : Reference} (valid : reference.Valid) :
    namesIn reference.write = [reference.name] := by
  simpa using namesIn_reference_append valid []

theorem strayIn_reference {reference : Reference} (valid : reference.Valid) :
    strayIn reference.write = false := by
  simpa using strayIn_reference_append valid []

/-- A reference shows its value, or its name where there is none. -/
theorem spokenIn_reference {reference : Reference} (valid : reference.Valid) :
    spokenIn reference.write = reference.plain.toList := by
  have pieces : referencePattern.pieces reference.write = [.found reference] :=
    referencePattern_doubleBraced.pieces_write_self valid
  rw [spokenIn, pieces]
  exact List.append_nil _

/-! ### The check accepts exactly the utterances -/

theorem IsUtterance.strayIn_eq_false {characters : List Char} (utterance : IsUtterance characters) :
    strayIn characters = false := by
  induction utterance with
  | nil => rfl
  | text free _ ih => rw [strayIn_text_append free, ih]
  | reference valid _ ih => rw [strayIn_reference_append valid, ih]

/-- Pieces without a stray brace spell an utterance. -/
theorem isUtterance_text {pieces : List (Piece Reference)}
    (valid : ∀ reference, .found reference ∈ pieces → reference.Valid)
    (clean : ∀ piece ∈ pieces, piece.isStray = false) :
    IsUtterance (referencePattern.text pieces) := by
  induction pieces with
  | nil => exact .nil
  | cons piece pieces ih =>
    have rest := ih (fun reference member => valid reference (List.mem_cons_of_mem _ member))
      fun piece member => clean piece (List.mem_cons_of_mem _ member)
    cases piece with
    | plain character =>
      have free : BraceFree [character] := by
        simpa [Piece.isStray] using clean _ List.mem_cons_self
      exact .text free rest
    | found reference => exact .reference (valid reference List.mem_cons_self) rest

theorem isUtterance_iff {characters : List Char} :
    IsUtterance characters ↔ strayIn characters = false := by
  refine ⟨IsUtterance.strayIn_eq_false, fun clean => ?_⟩
  rw [← Pattern.text_pieces referencePattern_doubleBraced.faithful characters]
  refine isUtterance_text (fun reference member => ?_) fun piece member => ?_
  · exact referencePattern_doubleBraced.isOccurrence member
  · simpa using List.any_eq_false.mp clean piece member

/-! ### What a reader sees -/

theorem Reference.Valid.plain_braceFree {reference : Reference} (valid : reference.Valid) :
    BraceFree reference.plain.toList := by
  obtain ⟨_ | value, name⟩ := reference
  · exact isName.braceFree valid.isName
  · exact valid.braceFree value rfl

/-- A piece shows a brace exactly if it is a stray one. -/
theorem braceFree_spoken_piece {characters : List Char} {piece : Piece Reference}
    (member : piece ∈ referencePattern.pieces characters) :
    BraceFree piece.spoken ↔ piece.isStray = false := by
  cases piece with
  | plain character => simp [Piece.spoken, Piece.isStray]
  | found reference =>
    have valid := referencePattern_doubleBraced.isOccurrence member
    simpa [Piece.spoken, Piece.isStray] using valid.plain_braceFree

theorem braceFree_spoken_iff {utterance : String} :
    BraceFree (spokenText utterance).toList ↔ hasStrayBrace utterance = false := by
  rw [spokenText_eq, String.toList_ofList, spokenIn, hasStrayBrace_eq, strayIn, List.any_eq_false]
  constructor
  · intro free piece member
    have shown : BraceFree piece.spoken := fun character inside =>
      free character (List.mem_flatMap_of_mem member inside)
    simpa using (braceFree_spoken_piece member).mp shown
  · intro clean character shown
    obtain ⟨piece, member, inside⟩ := List.mem_flatMap.mp shown
    exact (braceFree_spoken_piece member).mpr (by simpa using clean piece member) character inside

/-- A text without braces is shown as it is. -/
theorem spokenText_of_braceFree {text : String} (free : BraceFree text.toList) :
    spokenText text = text := by
  have whole := pieces_text free []
  rw [List.append_nil] at whole
  rw [spokenText_eq, spokenIn, whole]
  simp [Pattern.pieces, Pattern.piecesFrom, List.flatMap_map, Piece.spoken]

end Phrasebook
