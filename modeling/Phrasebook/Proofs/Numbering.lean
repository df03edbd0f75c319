/-
**Fillings by their number.**

The fillings of pieces are listed with the options of the first occurrence varying slowest, as
numerals are that have a digit for each occurrence. Each digit has a size of its own, the number of
options, and the first digit is the most significant. `digits` writes a number that way, `filling?`
puts in the options that the digits choose, and `getElem?_fillings` says that the filling of a
number is the one of its digits. `length_fillings` counts the fillings.
-/

import Mathlib.Algebra.BigOperators.Group.List.Basic
import Phrasebook.Proofs.Search

namespace Phrasebook.Text

/-! ### Numerals -/

/-- The digits of a number where each digit has a size of its own, the first one most
significant. -/
def digits : List Nat → Nat → List Nat
  | [], _ => []
  | _ :: sizes, number => number / sizes.prod :: digits sizes (number % sizes.prod)

section Lists

variable {α β : Type}

/-- Where all parts have one length, a place is found by division. -/
theorem getElem?_flatMap_of_length {elements : List α} {part : α → List β} {length : Nat}
    (even : ∀ element, (part element).length = length) (place : Nat) :
    (elements.flatMap part)[place]? =
      elements[place / length]?.bind fun element => (part element)[place % length]? := by
  induction elements generalizing place with
  | nil => simp
  | cons element elements ih =>
    rw [List.flatMap_cons]
    by_cases inside : place < length
    · rw [List.getElem?_append_left (by rw [even]; exact inside), Nat.div_eq_of_lt inside,
        Nat.mod_eq_of_lt inside]
      rfl
    · have beyond : length ≤ place := Nat.le_of_not_lt inside
      rw [List.getElem?_append_right (by rw [even]; exact beyond), even, ih]
      by_cases empty : length = 0
      · -- All parts are empty, and neither list has a place.
        have nothing : ∀ element, part element = [] := fun element =>
          List.eq_nil_of_length_eq_zero ((even element).trans empty)
        simp [nothing]
      · have positive : 0 < length := Nat.pos_of_ne_zero empty
        rw [Nat.div_eq_sub_div positive beyond, List.getElem?_cons_succ, Nat.mod_eq_sub_mod beyond]

end Lists

section Numbered

variable {α : Type} (options : α → List (List Char))

/-- How many options each occurrence has. -/
def optionCounts (pieces : List (Piece α)) : List Nat :=
  pieces.filterMap fun
    | .plain _ => none
    | .found occurrence => some (options occurrence).length

/-- The text of pieces with each occurrence replaced by the option of its number, if there are just
as many numbers as occurrences and each has its option. -/
def filling? : List (Piece α) → List Nat → Option (List Char)
  | [], [] => some []
  | .plain character :: pieces, numbers => (filling? pieces numbers).map (character :: ·)
  | .found occurrence :: pieces, number :: numbers =>
    (options occurrence)[number]?.bind fun option => (filling? pieces numbers).map (option ++ ·)
  | _, _ => none

theorem optionCounts_found (occurrence : α) (pieces : List (Piece α)) :
    optionCounts options (.found occurrence :: pieces) =
      (options occurrence).length :: optionCounts options pieces := rfl

theorem length_fillings (pieces : List (Piece α)) :
    (fillings options pieces).length = (optionCounts options pieces).prod := by
  induction pieces with
  | nil => rfl
  | cons piece pieces ih =>
    cases piece with
    | plain character =>
      rw [fillings, List.length_map, ih]
      rfl
    | found occurrence =>
      rw [fillings, List.length_flatMap, optionCounts_found, List.prod_cons, ← ih]
      simp

/-- **A filling is found by the digits of its number.** -/
theorem getElem?_fillings {pieces : List (Piece α)} {number : Nat}
    (small : number < (fillings options pieces).length) :
    (fillings options pieces)[number]? =
      filling? options pieces (digits (optionCounts options pieces) number) := by
  induction pieces generalizing number with
  | nil =>
    obtain rfl : number = 0 := by simpa [fillings] using small
    rfl
  | cons piece pieces ih =>
    cases piece with
    | plain character =>
      rw [fillings, List.length_map] at small
      rw [fillings, List.getElem?_map, ih small]
      rfl
    | found occurrence =>
      have positive : 0 < (optionCounts options pieces).prod := by
        refine Nat.pos_of_ne_zero fun none => ?_
        rw [length_fillings, optionCounts_found, List.prod_cons, none, Nat.mul_zero] at small
        exact Nat.not_lt_zero _ small
      have rest :
          number % (optionCounts options pieces).prod < (fillings options pieces).length := by
        rw [length_fillings]
        exact Nat.mod_lt _ positive
      rw [fillings, getElem?_flatMap_of_length (fun _ => List.length_map _), length_fillings,
        optionCounts_found, digits, filling?, ← ih rest]
      simp only [List.getElem?_map]

end Numbered

end Phrasebook.Text
