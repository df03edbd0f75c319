/-
**Searching a text part by part.**

A search reads from left to right and never looks back further than one character, so its pieces
can be computed part by part. `piecesFrom_write` steps over one occurrence, `piecesFrom_map_plain`
over a stretch in which the pattern finds nothing, and `piecesFrom_append` cuts a text in two
wherever the pattern keeps the parts `Apart`: no occurrence of the whole reaches over the boundary.

Pieces that a search finds again in the text that they spell are `Stable`; so are the pieces of every
text, and any of them behind or, where the text can be cut, in front of others.

`fillings` is what expanding does with the pieces: each occurrence is replaced by one of its
options, the options of the first occurrence varying slowest.
-/

import Phrasebook.Text.Search

namespace Phrasebook.Text

/-- The character before what follows `characters`, when `previous` comes before them. -/
def lastOr (previous : Option Char) : List Char → Option Char
  | [] => previous
  | character :: rest => lastOr (some character) rest

theorem lastOr_append (previous : Option Char) (first second : List Char) :
    lastOr previous (first ++ second) = lastOr (lastOr previous first) second := by
  induction first generalizing previous with
  | nil => rfl
  | cons character rest ih => exact ih (some character)

/-- The character before the position comes from the characters, or was there before them. -/
theorem lastOr_eq (previous : Option Char) (characters : List Char) :
    lastOr previous characters = previous ∨
      ∃ character ∈ characters, lastOr previous characters = some character := by
  induction characters generalizing previous with
  | nil => exact .inl rfl
  | cons character rest ih =>
    right
    rcases ih (some character) with same | ⟨later, member, same⟩
    · exact ⟨character, List.mem_cons_self, same⟩
    · exact ⟨later, List.mem_cons_of_mem _ member, same⟩

namespace Pattern

variable {α : Type} {pattern : Pattern α}

/-! ### Steps of a search -/

theorem piecesFrom_length_append (previous : Option Char) (skipped behind : List Char) :
    pattern.piecesFrom skipped.length previous (skipped ++ behind) =
      pattern.piecesFrom 0 (lastOr previous skipped) behind := by
  induction skipped generalizing previous with
  | nil => rfl
  | cons character rest ih => exact ih (some character)

/-- A found occurrence becomes a piece, and the search goes on behind it. -/
theorem piecesFrom_write {previous : Option Char} {occurrence : α} {behind : List Char}
    (nonempty : pattern.write occurrence ≠ [])
    (found : pattern.here? previous (pattern.write occurrence ++ behind) = some occurrence) :
    pattern.piecesFrom 0 previous (pattern.write occurrence ++ behind) =
      .found occurrence ::
        pattern.piecesFrom 0 (lastOr previous (pattern.write occurrence)) behind := by
  obtain ⟨head, tail, shape⟩ := List.exists_cons_of_ne_nil nonempty
  rw [shape, List.cons_append] at found ⊢
  rw [piecesFrom, found]
  simp only [shape, List.length_cons, Nat.add_sub_cancel]
  rw [piecesFrom_length_append]
  rfl

/-- A stretch in which the pattern finds nothing stays as it is. -/
theorem piecesFrom_map_plain {stretch behind : List Char} {previous : Option Char}
    (nothing : ∀ before front character tail, front ++ character :: tail = stretch →
      before = lastOr previous front →
      pattern.here? before (character :: (tail ++ behind)) = none) :
    pattern.piecesFrom 0 previous (stretch ++ behind) =
      stretch.map .plain ++ pattern.piecesFrom 0 (lastOr previous stretch) behind := by
  induction stretch generalizing previous with
  | nil => rfl
  | cons character rest ih =>
    have here := nothing previous [] character rest rfl rfl
    rw [List.cons_append, piecesFrom, here]
    refine congrArg (Piece.plain character :: ·) (ih fun before front next tail split same => ?_)
    exact nothing before (character :: front) next tail (congrArg _ split) same

/-! ### Cutting a text in two -/

/-- The parts of a text can be searched one after the other: at no position in the first does it
matter that the second follows. -/
def Apart (pattern : Pattern α) (first second : List Char) : Prop :=
  ∀ previous tail, tail ≠ [] → tail <:+ first →
    pattern.here? previous (tail ++ second) = pattern.here? previous tail

theorem Apart.of_append {front first second : List Char}
    (apart : pattern.Apart (front ++ first) second) : pattern.Apart first second :=
  fun previous tail nonempty suffix =>
    apart previous tail nonempty (suffix.trans (List.suffix_append _ _))

theorem Apart.of_cons {character : Char} {first second : List Char}
    (apart : pattern.Apart (character :: first) second) : pattern.Apart first second :=
  Apart.of_append (show pattern.Apart ([character] ++ first) second from apart)

theorem piecesFrom_append (faithful : pattern.Faithful) {first second : List Char}
    (apart : pattern.Apart first second) {skip : Nat} (within : skip ≤ first.length)
    (previous : Option Char) :
    pattern.piecesFrom skip previous (first ++ second) =
      pattern.piecesFrom skip previous first ++
        pattern.piecesFrom 0 (lastOr previous first) second := by
  induction first generalizing skip previous with
  | nil =>
    have none : skip = 0 := Nat.le_zero.mp within
    subst none
    rfl
  | cons character rest ih =>
    have later := apart.of_cons
    cases skip with
    | succ skip => exact ih later (Nat.le_of_succ_le_succ within) (some character)
    | zero =>
      have here := apart previous (character :: rest) (List.cons_ne_nil _ _) List.suffix_rfl
      rw [List.cons_append] at here
      rw [List.cons_append, piecesFrom, piecesFrom, here]
      split
      next occurrence found =>
        have fits := (faithful.written found).length_le
        rw [List.length_cons] at fits
        rw [ih later (by omega)]
        rfl
      next =>
        rw [ih later (Nat.zero_le _)]
        rfl

/-- Every reported occurrence was found at some position. -/
theorem exists_here?_of_mem_piecesFrom {skip : Nat} {previous : Option Char}
    {characters : List Char} {occurrence : α}
    (member : .found occurrence ∈ pattern.piecesFrom skip previous characters) :
    ∃ before tail, pattern.here? before tail = some occurrence := by
  induction characters generalizing skip previous with
  | nil => simp [piecesFrom] at member
  | cons character rest ih =>
    cases skip with
    | succ skip => exact ih member
    | zero =>
      rw [piecesFrom] at member
      split at member
      next found =>
        rcases List.mem_cons.mp member with same | later
        · cases same
          exact ⟨_, _, found⟩
        · exact ih later
      next =>
        rcases List.mem_cons.mp member with same | later
        · cases same
        · exact ih later

/-! ### Patterns that do not look back -/

/-- What the pattern finds at a position does not depend on the character before it. -/
def Forward (pattern : Pattern α) : Prop :=
  ∀ previous other text, pattern.here? previous text = pattern.here? other text

theorem piecesFrom_forward (forward : pattern.Forward) (skip : Nat) (previous other : Option Char)
    (characters : List Char) :
    pattern.piecesFrom skip previous characters = pattern.piecesFrom skip other characters := by
  cases characters with
  | nil => rw [piecesFrom, piecesFrom]
  | cons character rest =>
    cases skip with
    | succ skip => rfl
    | zero => rw [piecesFrom, piecesFrom, forward previous other]

theorem pieces_append (faithful : pattern.Faithful) (forward : pattern.Forward)
    {first second : List Char} (apart : pattern.Apart first second) :
    pattern.pieces (first ++ second) = pattern.pieces first ++ pattern.pieces second := by
  rw [pieces, piecesFrom_append faithful apart (Nat.zero_le _),
    piecesFrom_forward forward 0 (lastOr none first) none]
  rfl

theorem text_append (first second : List (Piece α)) :
    pattern.text (first ++ second) = pattern.text first ++ pattern.text second :=
  List.flatMap_append

/-! ### Stable pieces -/

@[simp] theorem text_nil : pattern.text [] = [] := rfl

@[simp] theorem text_plain (character : Char) (pieces : List (Piece α)) :
    pattern.text (.plain character :: pieces) = character :: pattern.text pieces := rfl

@[simp] theorem text_found (occurrence : α) (pieces : List (Piece α)) :
    pattern.text (.found occurrence :: pieces) = pattern.write occurrence ++ pattern.text pieces :=
  rfl

theorem text_map_plain (characters : List Char) :
    pattern.text (characters.map .plain) = characters := by
  induction characters with
  | nil => rfl
  | cons character rest ih => rw [List.map_cons, text_plain, ih]

/-- The pieces are what a search finds in the text that they spell. -/
def Stable (pattern : Pattern α) (previous : Option Char) (pieces : List (Piece α)) : Prop :=
  pattern.piecesFrom 0 previous (pattern.text pieces) = pieces

theorem stable_pieces (faithful : pattern.Faithful) (characters : List Char) :
    pattern.Stable none (pattern.pieces characters) := by
  rw [Stable, text_pieces faithful]
  rfl

theorem Stable.forward (forward : pattern.Forward) {previous : Option Char}
    {pieces : List (Piece α)} (stable : pattern.Stable previous pieces) (other : Option Char) :
    pattern.Stable other pieces := by
  rw [Stable, piecesFrom_forward forward 0 other previous]
  exact stable

theorem stable_plain_iff {previous : Option Char} {character : Char} {pieces : List (Piece α)} :
    pattern.Stable previous (.plain character :: pieces) ↔
      pattern.here? previous (character :: pattern.text pieces) = none ∧
        pattern.Stable (some character) pieces := by
  rw [Stable, text_plain, piecesFrom]
  split
  next occurrence found => simp [found]
  next nothing => simp [nothing, Stable]

theorem stable_found_iff (faithful : pattern.Faithful) {previous : Option Char} {occurrence : α}
    {pieces : List (Piece α)} :
    pattern.Stable previous (.found occurrence :: pieces) ↔
      pattern.here? previous (pattern.write occurrence ++ pattern.text pieces) = some occurrence ∧
        pattern.Stable (lastOr previous (pattern.write occurrence)) pieces := by
  rw [Stable, text_found]
  constructor
  · intro stable
    have found : pattern.here? previous (pattern.write occurrence ++ pattern.text pieces) =
        some occurrence := by
      cases text : pattern.write occurrence ++ pattern.text pieces with
      | nil => simp [text, piecesFrom] at stable
      | cons character rest =>
        rw [text, piecesFrom] at stable
        split at stable
        next other here => rw [here, Piece.found.inj (List.cons.inj stable).1]
        next => cases (List.cons.inj stable).1
    rw [piecesFrom_write (faithful.nonempty found) found] at stable
    exact ⟨found, (List.cons.inj stable).2⟩
  · rintro ⟨found, stable⟩
    rw [piecesFrom_write (faithful.nonempty found) found, stable]

/-- Behind stable pieces the search finds the ones that follow. -/
theorem Stable.of_append {previous : Option Char} {first second : List (Piece α)}
    (faithful : pattern.Faithful) (stable : pattern.Stable previous (first ++ second)) :
    pattern.Stable (lastOr previous (pattern.text first)) second := by
  induction first generalizing previous with
  | nil => exact stable
  | cons piece first ih =>
    cases piece with
    | plain character => exact ih (stable_plain_iff.mp stable).2
    | found occurrence =>
      have here := (stable_found_iff faithful).mp stable
      rw [text_found, lastOr_append]
      exact ih here.2

/-- Where the search can be cut, the pieces before the cut are stable by themselves. -/
theorem Stable.left_of_append {previous : Option Char} {first second : List (Piece α)}
    (faithful : pattern.Faithful) (apart : pattern.Apart (pattern.text first) (pattern.text second))
    (stable : pattern.Stable previous (first ++ second)) : pattern.Stable previous first := by
  induction first generalizing previous with
  | nil => rfl
  | cons piece first ih =>
    rw [List.cons_append] at stable
    cases piece with
    | plain character =>
      obtain ⟨nothing, later⟩ := stable_plain_iff.mp stable
      have here := apart previous (character :: pattern.text first) (List.cons_ne_nil _ _)
        List.suffix_rfl
      rw [text_append, ← List.cons_append, here] at nothing
      exact stable_plain_iff.mpr ⟨nothing, ih apart.of_cons later⟩
    | found occurrence =>
      obtain ⟨found, later⟩ := (stable_found_iff faithful).mp stable
      have here := apart previous (pattern.write occurrence ++ pattern.text first)
        (List.append_ne_nil_of_left_ne_nil (faithful.nonempty found) _) List.suffix_rfl
      rw [text_append, ← List.append_assoc, here] at found
      exact (stable_found_iff faithful).mpr ⟨found, ih apart.of_append later⟩

end Pattern

/-! ### Filling the occurrences -/

section Fillings

variable {α : Type}

/-- The texts of pieces with each occurrence replaced by one of its options. -/
def fillings (options : α → List (List Char)) : List (Piece α) → List (List Char)
  | [] => [[]]
  | .plain character :: pieces => (fillings options pieces).map (character :: ·)
  | .found occurrence :: pieces =>
    (options occurrence).flatMap fun option => (fillings options pieces).map (option ++ ·)

variable {options : α → List (List Char)}

theorem mem_fillings_plain {character : Char} {pieces : List (Piece α)} {text : List Char} :
    text ∈ fillings options (.plain character :: pieces) ↔
      ∃ rest ∈ fillings options pieces, text = character :: rest := by
  simp only [fillings, List.mem_map, eq_comm]

theorem mem_fillings_found {occurrence : α} {pieces : List (Piece α)} {text : List Char} :
    text ∈ fillings options (.found occurrence :: pieces) ↔
      ∃ option ∈ options occurrence, ∃ rest ∈ fillings options pieces, text = option ++ rest := by
  simp only [fillings, List.mem_flatMap, List.mem_map, eq_comm]

theorem fillings_map_plain (characters : List Char) (pieces : List (Piece α)) :
    fillings options (characters.map .plain ++ pieces) =
      (fillings options pieces).map (characters ++ ·) := by
  induction characters with
  | nil => simp
  | cons character rest ih => simp [fillings, ih, Function.comp_def]

/-- Pieces without an occurrence have one filling. -/
theorem fillings_plain (characters : List Char) :
    fillings options (characters.map .plain) = [characters] := by
  have whole : fillings options (characters.map .plain ++ []) = [characters ++ []] :=
    fillings_map_plain characters []
  simpa using whole

/-- The fillings of the first pieces vary slower than those of the later ones. -/
theorem fillings_append (first second : List (Piece α)) :
    fillings options (first ++ second) =
      (fillings options first).flatMap fun text => (fillings options second).map (text ++ ·) := by
  induction first with
  | nil => simp [fillings]
  | cons piece first ih =>
    cases piece with
    | plain character =>
      rw [List.cons_append, fillings, fillings, ih, List.map_flatMap, List.flatMap_map]
      simp [Function.comp_def]
    | found occurrence =>
      rw [List.cons_append, fillings, fillings, ih, List.flatMap_assoc]
      simp [List.map_flatMap, List.flatMap_map, Function.comp_def]

/-- There is a filling exactly if every occurrence has an option. -/
theorem fillings_ne_nil_iff {pieces : List (Piece α)} :
    fillings options pieces ≠ [] ↔
      ∀ occurrence, .found occurrence ∈ pieces → options occurrence ≠ [] := by
  induction pieces with
  | nil => simp [fillings]
  | cons piece pieces ih =>
    cases piece with
    | plain character => simp [fillings, ih]
    | found occurrence =>
      have both : fillings options (.found occurrence :: pieces) ≠ [] ↔
          options occurrence ≠ [] ∧ fillings options pieces ≠ [] := by
        simp only [fillings, ne_eq, List.flatMap_eq_nil_iff, List.map_eq_nil_iff]
        constructor
        · intro inhabited
          exact ⟨fun empty => inhabited (by simp [empty]), fun empty => inhabited fun _ _ => empty⟩
        · rintro ⟨given, rest⟩ empty
          obtain ⟨option, member⟩ := List.exists_mem_of_ne_nil _ given
          exact rest (empty option member)
      simp only [both, ih, List.mem_cons, Piece.found.injEq, forall_eq_or_imp]

/-- Where there is a filling at all, each option of each occurrence is in one of them. -/
theorem exists_filling_of_mem {pieces : List (Piece α)} {occurrence : α} {option : List Char}
    (inhabited : fillings options pieces ≠ []) (found : .found occurrence ∈ pieces)
    (listed : option ∈ options occurrence) :
    ∃ before behind, before ++ option ++ behind ∈ fillings options pieces := by
  induction pieces with
  | nil => cases found
  | cons piece pieces ih =>
    obtain ⟨filling, filled⟩ := List.exists_mem_of_ne_nil _ inhabited
    cases piece with
    | plain character =>
      obtain ⟨rest, inner, _⟩ := mem_fillings_plain.mp filled
      have later : .found occurrence ∈ pieces := by simpa using found
      obtain ⟨before, behind, member⟩ := ih (List.ne_nil_of_mem inner) later
      exact ⟨character :: before, behind, mem_fillings_plain.mpr ⟨_, member, rfl⟩⟩
    | found first =>
      obtain ⟨choice, chosen, rest, inner, _⟩ := mem_fillings_found.mp filled
      rcases List.mem_cons.mp found with same | later
      · obtain rfl : occurrence = first := Piece.found.inj same
        exact ⟨[], rest, mem_fillings_found.mpr ⟨option, listed, rest, inner, rfl⟩⟩
      · obtain ⟨before, behind, member⟩ := ih (List.ne_nil_of_mem inner) later
        exact ⟨choice ++ before, behind,
          mem_fillings_found.mpr ⟨choice, chosen, _, member, by simp⟩⟩

end Fillings

end Phrasebook.Text
