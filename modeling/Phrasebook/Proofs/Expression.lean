/-
**Patterns that are written as expressions.**

An expression describes stretches of text: words, runs of characters of a class, optional parts, one
part behind another, and numbered groups whose text is reported. At the front of a text it may match
in several ways; `Expression.ways` lists them, the preferred way first, where a run prefers to be
long and an optional part to be there. A search takes the preferred way at the first place that has
one and goes on behind it (`Expression.found`).

Which stretches an expression describes does not depend on what stands around them
(`Expression.Describes`), and its ways are the described stretches that the text begins with
(`mem_ways_iff`). So an expression that describes exactly the occurrences of a pattern finds what
the pattern finds, and tells it in its own words (`Expression.retells`, `Retells.places_eq`).
-/

import Mathlib.Data.List.Infix
import Phrasebook.Proofs.Occurrences

namespace Phrasebook.Text

/-! ### Expressions -/

/-- A description of stretches of text. -/
inductive Expression where
  | word (characters : List Char)
  /-- A run of at least so many characters of the class. -/
  | run (least : Nat) (admits : Char → Bool)
  | optional (inner : Expression)
  | both (first second : Expression)
  | group (number : Nat) (inner : Expression)

/-- A stretch that was matched, and the texts of the groups in it. -/
structure Match where
  taken : List Char
  groups : List (Nat × List Char)
  deriving DecidableEq, Repr

namespace Match

/-- The match of nothing. -/
def empty : Match := ⟨[], []⟩

/-- A match right behind another one. -/
def append (first second : Match) : Match :=
  ⟨first.taken ++ second.taken, first.groups ++ second.groups⟩

/-- The match with all of its text as a group. -/
def grouped (number : Nat) (inner : Match) : Match :=
  ⟨inner.taken, inner.groups ++ [(number, inner.taken)]⟩

/-- The text of a group, if the group took part. -/
def group? (found : Match) (number : Nat) : Option (List Char) :=
  (found.groups.find? (·.1 == number)).map (·.2)

end Match

namespace Expression

/-- The ways to match at the front of a text, with what follows, the preferred way first. -/
def ways : Expression → List Char → List (Match × List Char)
  | word characters, text =>
    if characters <+: text then [(⟨characters, []⟩, text.drop characters.length)] else []
  | run least admits, text =>
    ((text.takeWhile admits).inits.reverse.filter fun taken => least ≤ taken.length).map
      fun taken => (⟨taken, []⟩, text.drop taken.length)
  | optional inner, text => inner.ways text ++ [(.empty, text)]
  | both first second, text =>
    (first.ways text).flatMap fun (start, rest) =>
      (second.ways rest).map fun (behind, rest) => (start.append behind, rest)
  | group number inner, text =>
    (inner.ways text).map fun (found, rest) => (found.grouped number, rest)

/-- What a search for the expression looks for. -/
def pattern (expression : Expression) : Pattern Match where
  here? _ text := ((expression.ways text).head?).map Prod.fst
  write := Match.taken

/-- The matches that a search finds in a text, with their places. -/
def found (expression : Expression) (text : List Char) : List (Nat × Match) :=
  expression.pattern.places text

/-! ### What an expression describes -/

/-- The match is of the described form. -/
def Describes : Expression → Match → Prop
  | word characters, found => found = ⟨characters, []⟩
  | run least admits, found =>
    (∀ character ∈ found.taken, admits character = true) ∧ least ≤ found.taken.length ∧
      found.groups = []
  | optional inner, found => inner.Describes found ∨ found = .empty
  | both first second, found =>
    ∃ start behind, first.Describes start ∧ second.Describes behind ∧ found = start.append behind
  | group number inner, found => ∃ whole, inner.Describes whole ∧ found = whole.grouped number

section Describes

variable {first second inner : Expression} {found : Match}

theorem describes_word_iff {characters : List Char} :
    (word characters).Describes found ↔ found = ⟨characters, []⟩ := Iff.rfl

theorem describes_optional_iff :
    (optional inner).Describes found ↔ inner.Describes found ∨ found = .empty := Iff.rfl

theorem describes_both_iff : (both first second).Describes found ↔
    ∃ start behind, first.Describes start ∧ second.Describes behind ∧
      found = start.append behind := Iff.rfl

theorem describes_group_iff {number : Nat} : (group number inner).Describes found ↔
    ∃ whole, inner.Describes whole ∧ found = whole.grouped number := Iff.rfl

end Describes

theorem isPrefix_takeWhile_iff {admits : Char → Bool} {taken text : List Char} :
    taken <+: text.takeWhile admits ↔
      taken <+: text ∧ ∀ character ∈ taken, admits character = true := by
  constructor
  · intro starts
    exact ⟨starts.trans (List.takeWhile_prefix admits), fun character member =>
      List.mem_takeWhile_imp (starts.subset member)⟩
  · rintro ⟨⟨rest, rfl⟩, all⟩
    rw [List.takeWhile_append_of_pos all]
    exact List.prefix_append _ _

/-- **The ways to match** are the described stretches that the text begins with. -/
theorem mem_ways_iff {expression : Expression} {text rest : List Char} {found : Match} :
    (found, rest) ∈ expression.ways text ↔
      expression.Describes found ∧ text = found.taken ++ rest := by
  induction expression generalizing text rest found with
  | word characters =>
    rw [ways, Describes]
    split
    next starts =>
      obtain ⟨behind, rfl⟩ := starts
      simp only [List.drop_left, List.mem_singleton, Prod.mk.injEq]
      refine and_congr_right ?_
      rintro rfl
      rw [List.append_cancel_left_eq, eq_comm]
    next other =>
      simp only [List.not_mem_nil, false_iff]
      rintro ⟨rfl, rfl⟩
      exact other (List.prefix_append _ _)
  | run least admits =>
    simp only [ways, Describes, List.mem_map, List.mem_filter, List.mem_reverse, List.mem_inits,
      isPrefix_takeWhile_iff, decide_eq_true_eq, Prod.mk.injEq]
    constructor
    · rintro ⟨taken, ⟨⟨starts, all⟩, long⟩, rfl, rfl⟩
      exact ⟨⟨all, long, rfl⟩, (List.prefix_append_drop starts)⟩
    · obtain ⟨taken, groups⟩ := found
      rintro ⟨⟨all, long, rfl⟩, rfl⟩
      exact ⟨taken, ⟨⟨List.prefix_append _ _, all⟩, long⟩, rfl, List.drop_left⟩
  | optional inner ih =>
    rw [ways, List.mem_append, ih, List.mem_singleton, Prod.mk.injEq, Describes, or_and_right]
    refine or_congr_right (and_congr_right ?_)
    rintro rfl
    exact eq_comm
  | both first second ihFirst ihSecond =>
    simp only [ways, Describes, List.mem_flatMap, List.mem_map, Prod.exists, ihFirst, ihSecond,
      Prod.mk.injEq]
    constructor
    · rintro ⟨start, _, ⟨here, rfl⟩, behind, _, ⟨later, rfl⟩, rfl, rfl⟩
      exact ⟨⟨start, behind, here, later, rfl⟩, (List.append_assoc _ _ _).symm⟩
    · rintro ⟨⟨start, behind, here, later, rfl⟩, rfl⟩
      exact ⟨start, _, ⟨here, List.append_assoc _ _ _⟩, behind, rest, ⟨later, rfl⟩, rfl, rfl⟩
  | group number inner ih =>
    simp only [ways, Describes, List.mem_map, Prod.exists, ih, Prod.mk.injEq]
    constructor
    · rintro ⟨whole, _, ⟨here, rfl⟩, rfl, rfl⟩
      exact ⟨⟨whole, here, rfl⟩, rfl⟩
    · rintro ⟨⟨whole, here, rfl⟩, rfl⟩
      exact ⟨whole, rest, ⟨here, rfl⟩, rfl, rfl⟩

end Expression

/-! ### The same finds, told in other words -/

/-- A piece with its occurrence told in other words. -/
def Piece.told {α β : Type} (tell : α → β) : Piece α → Piece β
  | .plain character => .plain character
  | .found occurrence => .found (tell occurrence)

namespace Pattern

variable {α β : Type} {pattern : Pattern α} {other : Pattern β} {tell : α → β}

/-- The second pattern finds what the first one does and tells it in other words. -/
structure Retells (other : Pattern β) (pattern : Pattern α) (tell : α → β) : Prop where
  here_eq : ∀ previous text, other.here? previous text = (pattern.here? previous text).map tell
  write_eq : ∀ occurrence, other.write (tell occurrence) = pattern.write occurrence

theorem Retells.piecesFrom_eq (same : other.Retells pattern tell) (skip : Nat)
    (previous : Option Char) (text : List Char) :
    other.piecesFrom skip previous text =
      (pattern.piecesFrom skip previous text).map (.told tell) := by
  induction text generalizing skip previous with
  | nil => rw [piecesFrom, piecesFrom, List.map_nil]
  | cons character rest ih =>
    cases skip with
    | succ skip => exact ih skip (some character)
    | zero =>
      rw [piecesFrom, piecesFrom, same.here_eq]
      cases pattern.here? previous (character :: rest) with
      | none => exact congrArg (Piece.plain character :: ·) (ih 0 (some character))
      | some occurrence =>
        simp only [Option.map_some, List.map_cons, Piece.told, same.write_eq, ih]

theorem Retells.placesFrom_eq (same : other.Retells pattern tell) (place : Nat)
    (pieces : List (Piece α)) :
    other.placesFrom place (pieces.map (.told tell)) =
      (pattern.placesFrom place pieces).map fun found => (found.1, tell found.2) := by
  induction pieces generalizing place with
  | nil => rfl
  | cons piece pieces ih =>
    cases piece with
    | plain character => exact ih (place + 1)
    | found occurrence =>
      simp only [List.map_cons, Piece.told, placesFrom, same.write_eq, ih]

theorem Retells.places_eq (same : other.Retells pattern tell) (text : List Char) :
    other.places text = (pattern.places text).map fun found => (found.1, tell found.2) := by
  rw [places, pieces, same.piecesFrom_eq, same.placesFrom_eq]
  rfl

end Pattern

namespace Expression

variable {α : Type} {pattern : Pattern α} {IsOccurrence : α → Prop} {expression : Expression}
  {tell : α → Match}

/-- **An expression that describes the occurrences of a pattern** finds what the pattern finds: its
ways to match are all the same. -/
theorem retells (braced : pattern.DoubleBraced IsOccurrence)
    (describes : ∀ found, expression.Describes found ↔
      ∃ occurrence, IsOccurrence occurrence ∧ found = tell occurrence)
    (taken : ∀ occurrence, (tell occurrence).taken = pattern.write occurrence) :
    expression.pattern.Retells pattern tell := by
  refine ⟨fun previous text => ?_, taken⟩
  -- What a way matches, the pattern finds.
  have found_of_way : ∀ way ∈ expression.ways text, ∃ occurrence,
      pattern.here? previous text = some occurrence ∧ way.1 = tell occurrence := by
    rintro ⟨_, rest⟩ member
    obtain ⟨described, rfl⟩ := mem_ways_iff.mp member
    obtain ⟨occurrence, valid, rfl⟩ := (describes _).mp described
    exact ⟨occurrence, braced.here_iff.mpr ⟨valid, taken occurrence ▸ List.prefix_append _ _⟩, rfl⟩
  show ((expression.ways text).head?).map Prod.fst = _
  cases here : pattern.here? previous text with
  | none =>
    have empty : expression.ways text = [] := by
      refine List.eq_nil_iff_forall_not_mem.mpr fun way member => ?_
      obtain ⟨occurrence, impossible, _⟩ := found_of_way way member
      rw [here] at impossible
      cases impossible
    rw [empty]
    rfl
  | some occurrence =>
    obtain ⟨valid, rest, split⟩ := braced.here_iff.mp here
    have member : (tell occurrence, rest) ∈ expression.ways text :=
      mem_ways_iff.mpr ⟨(describes _).mpr ⟨occurrence, valid, rfl⟩, by rw [taken, split]⟩
    obtain ⟨way, ways, shape⟩ := List.exists_cons_of_ne_nil (List.ne_nil_of_mem member)
    obtain ⟨first, found, same⟩ := found_of_way way (shape ▸ List.mem_cons_self)
    rw [here] at found
    cases found
    rw [shape, List.head?_cons, Option.map_some, same]
    rfl

end Expression

end Phrasebook.Text
