/-
**Selections by their number.**

`selections` takes one element of each list in every way, those of the first list varying slowest, as
numerals do that have a digit for each list: the selection of a number is the one that its digits
choose (`getElem?_selections`), and there are as many as the sizes of the lists multiply to
(`length_selections`). Filling the occurrences of a text in every way is to select an option for each
of them (`fillings_eq_map_selections`).
-/

import Phrasebook.Proofs.Numbering
import Phrasebook.Proofs.Occurrences

namespace Phrasebook

open Text

variable {α : Type}

/-- The elements that numbers choose from lists, if there are just as many numbers as lists and each
list has its element. -/
def chosen? : List (List α) → List Nat → Option (List α)
  | [], [] => some []
  | list :: lists, number :: numbers =>
    list[number]?.bind fun element => (chosen? lists numbers).map (element :: ·)
  | _, _ => none

theorem length_selections (lists : List (List α)) :
    (selections lists).length = (lists.map List.length).prod := by
  induction lists with
  | nil => rfl
  | cons list lists ih =>
    rw [selections, List.length_flatMap, List.map_cons, List.prod_cons, ← ih]
    simp

theorem length_of_mem_selections {lists : List (List α)} {selection : List α}
    (member : selection ∈ selections lists) : selection.length = lists.length := by
  induction lists generalizing selection with
  | nil =>
    obtain rfl : selection = [] := List.mem_singleton.mp member
    rfl
  | cons list lists ih =>
    obtain ⟨element, _, inner⟩ := List.mem_flatMap.mp member
    obtain ⟨rest, selected, rfl⟩ := List.mem_map.mp inner
    rw [List.length_cons, ih selected, List.length_cons]

/-- **A selection is found by the digits of its number.** -/
theorem getElem?_selections {lists : List (List α)} {number : Nat}
    (small : number < (lists.map List.length).prod) :
    (selections lists)[number]? = chosen? lists (digits (lists.map List.length) number) := by
  induction lists generalizing number with
  | nil =>
    obtain rfl : number = 0 := by simpa using small
    rfl
  | cons list lists ih =>
    rw [List.map_cons, List.prod_cons] at small
    have positive : 0 < (lists.map List.length).prod :=
      Nat.pos_of_ne_zero fun none => by simp [none] at small
    rw [selections, getElem?_flatMap_of_length (fun _ => List.length_map _), length_selections,
      List.map_cons, digits, chosen?, ← ih (Nat.mod_lt _ positive)]
    simp only [List.getElem?_map]

/-- Where a number is not too large, its digits choose something. -/
theorem exists_chosen {lists : List (List α)} {number : Nat}
    (small : number < (lists.map List.length).prod) :
    ∃ selection ∈ selections lists,
      chosen? lists (digits (lists.map List.length) number) = some selection ∧
        (selections lists)[number]? = some selection := by
  have inside : number < (selections lists).length := by rwa [length_selections]
  have here := List.getElem?_eq_getElem inside
  exact ⟨_, List.getElem_mem inside, (getElem?_selections small).symm.trans here, here⟩

/-- **To fill the occurrences in every way** is to select an option for each of them. -/
theorem fillings_eq_map_selections (options : α → List (List Char)) (pieces : List (Piece α)) :
    fillings options pieces =
      (selections ((occurrences pieces).map options)).map (filled pieces) := by
  induction pieces with
  | nil => rfl
  | cons piece pieces ih =>
    cases piece with
    | plain character =>
      rw [fillings, ih, occurrences_plain, List.map_map]
      rfl
    | found occurrence =>
      rw [fillings, ih, occurrences_found, List.map_cons, selections, List.map_flatMap]
      refine congrArg (List.flatMap · _) (funext fun option => ?_)
      rw [List.map_map, List.map_map]
      rfl

end Phrasebook
