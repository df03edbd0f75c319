/-
**First failures and first appearances.**

A list that is worked off in `Except` fails with the failure of its first failing element
(`mapM_eq_error_iff`) and succeeds with the results of all (`mapM_eq_ok_iff`); two lists in a row
can be worked off one after the other (`mapM_append_eq_ok_iff`, `mapM_append_eq_error_iff`). In a list
in ascending order the first failure is the least (`exists_first_failure`).

Removing repeats keeps the first appearance of each element: `pairwise_idxOf_eraseDups` gives the
order, `eq_eraseDups_iff` says that order and membership leave no choice, and `find?_eraseDups` that
a search does not notice. Repeats may be removed part by part (`eraseDups_append_congr`), and copies
of a part make no difference (`eraseDups_copies`).
-/

import Mathlib.Data.List.Forall2
import Mathlib.Data.List.Induction
import Mathlib.Data.List.Nodup
import Mathlib.Data.List.ReduceOption

namespace Phrasebook

/-! ### Working in `Except` -/

section Failures

variable {α β ε κ : Type}

theorem bind_eq_ok_iff {first : Except ε α} {next : α → Except ε β} {result : β} :
    (first >>= next) = .ok result ↔ ∃ value, first = .ok value ∧ next value = .ok result := by
  cases first <;> simp [bind, Except.bind]

theorem bind_eq_error_iff {first : Except ε α} {next : α → Except ε β} {failure : ε} :
    (first >>= next) = .error failure ↔
      first = .error failure ∨ ∃ value, first = .ok value ∧ next value = .error failure := by
  cases first <;> simp [bind, Except.bind]

theorem map_eq_ok_iff {result : Except ε α} {change : α → β} {changed : β} :
    result.map change = .ok changed ↔ ∃ value, result = .ok value ∧ change value = changed := by
  cases result <;> simp [Except.map]

theorem map_eq_error_iff {result : Except ε α} {change : α → β} {failure : ε} :
    result.map change = .error failure ↔ result = .error failure := by
  cases result <;> simp [Except.map]

theorem mapM_eq_ok_iff {work : α → Except ε β} {elements : List α} {results : List β} :
    elements.mapM work = .ok results ↔
      List.Forall₂ (fun element result => work element = .ok result) elements results := by
  induction elements generalizing results with
  | nil =>
    cases results with
    | nil => simp [pure, Except.pure]
    | cons _ _ => simp [pure, Except.pure]
  | cons element elements ih =>
    rw [List.mapM_cons, bind_eq_ok_iff]
    constructor
    · rintro ⟨result, here, rest⟩
      obtain ⟨later, done, same⟩ := bind_eq_ok_iff.mp rest
      cases same
      exact .cons here (ih.mp done)
    · rintro (_ | ⟨here, rest⟩)
      exact ⟨_, here, bind_eq_ok_iff.mpr ⟨_, ih.mpr rest, rfl⟩⟩

/-- Pairs of which each second one is computed from the first. -/
theorem forall₂_and_eq_iff {Holds : α → Prop} {value : α → β} {elements : List α}
    {results : List β} :
    List.Forall₂ (fun element result => Holds element ∧ result = value element) elements results ↔
      (∀ element ∈ elements, Holds element) ∧ results = elements.map value := by
  induction elements generalizing results with
  | nil => simp
  | cons element elements ih =>
    rw [List.forall₂_cons_left_iff]
    constructor
    · rintro ⟨_, later, ⟨holds, rfl⟩, rest, rfl⟩
      obtain ⟨all, rfl⟩ := ih.mp rest
      exact ⟨List.forall_mem_cons.mpr ⟨holds, all⟩, rfl⟩
    · rintro ⟨all, rfl⟩
      obtain ⟨holds, rest⟩ := List.forall_mem_cons.mp all
      exact ⟨_, _, ⟨holds, rfl⟩, ih.mpr ⟨rest, rfl⟩, rfl⟩

/-- The first failing element decides. -/
theorem mapM_eq_error_iff {work : α → Except ε β} {elements : List α} {failure : ε} :
    elements.mapM work = .error failure ↔
      ∃ before element after, elements = before ++ element :: after ∧
        (∀ earlier ∈ before, ∃ result, work earlier = .ok result) ∧
        work element = .error failure := by
  induction elements with
  | nil => simp [pure, Except.pure]
  | cons element elements ih =>
    rw [List.mapM_cons, bind_eq_error_iff]
    constructor
    · rintro (here | ⟨result, here, rest⟩)
      · exact ⟨[], element, elements, rfl, by simp, here⟩
      · rcases bind_eq_error_iff.mp rest with later | ⟨_, _, impossible⟩
        · obtain ⟨before, failing, after, rfl, fine, fails⟩ := ih.mp later
          refine ⟨element :: before, failing, after, rfl, fun earlier member => ?_, fails⟩
          rcases List.mem_cons.mp member with rfl | member
          · exact ⟨result, here⟩
          · exact fine earlier member
        · cases impossible
    · rintro ⟨before, failing, after, split, fine, fails⟩
      cases before with
      | nil =>
        obtain ⟨rfl, rfl⟩ := List.cons.inj split
        exact .inl fails
      | cons first before =>
        obtain ⟨rfl, rfl⟩ := List.cons.inj split
        obtain ⟨result, here⟩ := fine element List.mem_cons_self
        refine .inr ⟨result, here, bind_eq_error_iff.mpr (.inl (ih.mpr ?_))⟩
        exact ⟨before, failing, after, rfl, fun earlier member =>
          fine earlier (List.mem_cons_of_mem _ member), fails⟩

theorem mapM_congr {work other : α → Except ε β} {elements : List α}
    (same : ∀ element ∈ elements, work element = other element) :
    elements.mapM work = elements.mapM other := by
  induction elements with
  | nil => rfl
  | cons element elements ih =>
    obtain ⟨here, later⟩ := List.forall_mem_cons.mp same
    rw [List.mapM_cons, List.mapM_cons, here, ih later]

/-- Two lists in a row succeed together, with the results of both in a row. -/
theorem mapM_append_eq_ok_iff {work : α → Except ε β} {first second : List α} {results : List β} :
    (first ++ second).mapM work = .ok results ↔
      ∃ early late, results = early ++ late ∧ first.mapM work = .ok early ∧
        second.mapM work = .ok late := by
  rw [List.mapM_append, bind_eq_ok_iff]
  constructor
  · rintro ⟨early, before, rest⟩
    obtain ⟨late, behind, same⟩ := bind_eq_ok_iff.mp rest
    cases same
    exact ⟨early, late, rfl, before, behind⟩
  · rintro ⟨early, late, rfl, before, behind⟩
    exact ⟨early, before, bind_eq_ok_iff.mpr ⟨late, behind, rfl⟩⟩

/-- The second list has its failure told only when the first one succeeds. -/
theorem mapM_append_eq_error_iff {work : α → Except ε β} {first second : List α} {failure : ε} :
    (first ++ second).mapM work = .error failure ↔
      first.mapM work = .error failure ∨
        (∃ early, first.mapM work = .ok early) ∧ second.mapM work = .error failure := by
  rw [List.mapM_append, bind_eq_error_iff]
  refine or_congr_right ?_
  constructor
  · rintro ⟨early, before, rest⟩
    rcases bind_eq_error_iff.mp rest with fails | ⟨_, _, impossible⟩
    · exact ⟨⟨early, before⟩, fails⟩
    · cases impossible
  · rintro ⟨⟨early, before⟩, fails⟩
    exact ⟨early, before, bind_eq_error_iff.mpr (.inl fails)⟩

theorem mem_of_mapM {work : α → Except ε β} {elements : List α} {results : List β}
    (done : elements.mapM work = .ok results) {result : β} :
    result ∈ results ↔ ∃ element ∈ elements, work element = .ok result := by
  have pairs := mapM_eq_ok_iff.mp done
  clear done
  induction pairs with
  | nil => simp
  | @cons element first elements results here _ ih => simp [ih, here, eq_comm (a := result)]

theorem exists_ok_of_mapM {work : α → Except ε β} {elements : List α} {results : List β}
    (done : elements.mapM work = .ok results) {element : α} (member : element ∈ elements) :
    ∃ result, work element = .ok result := by
  have pairs := mapM_eq_ok_iff.mp done
  clear done
  induction pairs with
  | nil => cases member
  | cons here _ ih =>
    rcases List.mem_cons.mp member with rfl | later
    · exact ⟨_, here⟩
    · exact ih later

/-- What is kept stands in the order of the elements that it is kept of. -/
theorem sublist_reduceOption {work : α → Except ε (Option β)} {elements : List α}
    {kept : List (Option β)} (done : elements.mapM work = .ok kept) {key : β → κ} {keyOf : α → κ}
    (named : ∀ element result, work element = .ok (some result) → key result = keyOf element) :
    (kept.reduceOption.map key).Sublist (elements.map keyOf) := by
  have pairs := mapM_eq_ok_iff.mp done
  clear done
  induction pairs with
  | nil => exact .slnil
  | @cons element first elements results here _ ih =>
    cases first with
    | none => exact (List.reduceOption_cons_of_none results ▸ ih).cons _
    | some result =>
      rw [List.reduceOption_cons_of_some, List.map_cons, List.map_cons, named _ _ here]
      exact ih.cons_cons _

/-- In a list that ascends, the first failing element comes before all others that fail. -/
theorem exists_first_failure {work : α → Except ε β} {elements : List α} {failure : ε}
    [Ord κ] [Std.TransOrd κ] (key : α → κ)
    (ascending : (elements.map key).Pairwise fun first second => compare first second = .lt)
    (failed : elements.mapM work = .error failure) :
    ∃ element ∈ elements, work element = .error failure ∧
      ∀ earlier ∈ elements, compare (key earlier) (key element) = .lt →
        ∃ result, work earlier = .ok result := by
  obtain ⟨before, element, after, rfl, fine, fails⟩ := mapM_eq_error_iff.mp failed
  refine ⟨element, List.mem_append_right _ List.mem_cons_self, fails, fun other member less => ?_⟩
  rw [List.map_append, List.map_cons, List.pairwise_append, List.pairwise_cons] at ascending
  rcases List.mem_append.mp member with early | late
  · exact fine other early
  exfalso
  rcases List.mem_cons.mp late with rfl | late
  · cases less.symm.trans Std.ReflCmp.compare_self
  · have behind := ascending.2.1.1 (key other) (List.mem_map_of_mem late)
    rw [← Std.OrientedCmp.gt_iff_lt, less] at behind
    cases behind

end Failures

/-! ### Removing repeats -/

section Repeats

variable {α : Type} [DecidableEq α]

theorem eraseDups_concat (elements : List α) (last : α) :
    (elements ++ [last]).eraseDups =
      if last ∈ elements then elements.eraseDups else elements.eraseDups ++ [last] := by
  rw [List.eraseDups_append]
  split
  next member => simp [List.removeAll, member]
  next fresh => simp [List.removeAll, fresh, List.eraseDups_cons]

/-- What is left stands in the order of the first appearances. -/
theorem pairwise_idxOf_eraseDups (elements : List α) :
    elements.eraseDups.Pairwise fun first second =>
      elements.idxOf first < elements.idxOf second := by
  induction elements using List.reverseRecOn with
  | nil => simp
  | append_singleton elements last ih =>
    have kept : elements.eraseDups.Pairwise fun first second =>
        (elements ++ [last]).idxOf first < (elements ++ [last]).idxOf second := by
      refine ih.imp_of_mem fun {first second} one two before => ?_
      rw [List.idxOf_append_of_mem (List.mem_eraseDups.mp one),
        List.idxOf_append_of_mem (List.mem_eraseDups.mp two)]
      exact before
    rw [eraseDups_concat]
    split
    · exact kept
    next fresh =>
      refine List.pairwise_append.mpr ⟨kept, List.pairwise_singleton _ _, ?_⟩
      intro first one second two
      obtain rfl : second = last := by simpa using two
      have inside := List.mem_eraseDups.mp one
      rw [List.idxOf_append_of_mem inside, List.idxOf_append_of_notMem fresh]
      exact Nat.lt_add_right _ (List.idxOf_lt_length_of_mem inside)

theorem nodup_of_pairwise_idxOf {elements listed : List α}
    (ordered : listed.Pairwise fun first second =>
      elements.idxOf first < elements.idxOf second) : listed.Nodup :=
  ordered.imp fun {first second} before same => by
    rw [same] at before
    exact Nat.lt_irrefl _ before

/-- **The elements without repeats** are the list that has the same elements, in the order of their
first appearances. -/
theorem eq_eraseDups_iff {elements listed : List α} :
    listed = elements.eraseDups ↔
      (∀ element, element ∈ listed ↔ element ∈ elements) ∧
        listed.Pairwise fun first second => elements.idxOf first < elements.idxOf second := by
  constructor
  · rintro rfl
    exact ⟨fun element => List.mem_eraseDups, pairwise_idxOf_eraseDups elements⟩
  · rintro ⟨same, ordered⟩
    have reference := pairwise_idxOf_eraseDups elements
    have permuted : listed.Perm elements.eraseDups :=
      (List.perm_ext_iff_of_nodup (nodup_of_pairwise_idxOf ordered)
        (nodup_of_pairwise_idxOf reference)).mpr fun element => by
          rw [same, List.mem_eraseDups]
    exact permuted.eq_of_pairwise
      (fun _ _ _ _ before after => absurd before (Nat.lt_asymm after)) ordered reference

theorem find?_eraseDups (test : α → Bool) (elements : List α) :
    elements.eraseDups.find? test = elements.find? test := by
  induction elements using List.reverseRecOn with
  | nil => rfl
  | append_singleton elements last ih =>
    rw [eraseDups_concat, List.find?_append]
    split
    next member =>
      rw [ih]
      cases found : elements.find? test with
      | some _ => rfl
      | none =>
        have fails := List.find?_eq_none.mp found last member
        simp [fails]
    next => rw [List.find?_append, ih]

/-- The second list adds what the first one lacks. -/
theorem eraseDups_append_eq (first second : List α) :
    (first ++ second).eraseDups =
      first.eraseDups ++ second.eraseDups.filter fun element => element ∉ first := by
  induction second using List.reverseRecOn with
  | nil => simp
  | append_singleton second last ih =>
    rw [← List.append_assoc, eraseDups_concat, eraseDups_concat, ih]
    by_cases early : last ∈ first
    · by_cases late : last ∈ second <;> simp [early, late]
    · by_cases late : last ∈ second <;> simp [early, late]

theorem eraseDups_append_congr {first other second more : List α}
    (same : first.eraseDups = other.eraseDups) (alike : second.eraseDups = more.eraseDups) :
    (first ++ second).eraseDups = (other ++ more).eraseDups := by
  have members : ∀ element, element ∈ first ↔ element ∈ other := fun element => by
    rw [← List.mem_eraseDups, same, List.mem_eraseDups]
  rw [eraseDups_append_eq, eraseDups_append_eq, same, alike]
  simp only [members]

theorem eraseDups_flatMap_congr {β : Type} {elements : List β} {first second : β → List α}
    (same : ∀ element ∈ elements, (first element).eraseDups = (second element).eraseDups) :
    (elements.flatMap first).eraseDups = (elements.flatMap second).eraseDups := by
  induction elements with
  | nil => rfl
  | cons element elements ih =>
    obtain ⟨here, later⟩ := List.forall_mem_cons.mp same
    rw [List.flatMap_cons, List.flatMap_cons]
    exact eraseDups_append_congr here (ih later)

/-- Copies of a list add nothing to the first one. -/
theorem eraseDups_copies {β : Type} {elements : List β} (nonempty : elements ≠ [])
    (copy : List α) : (elements.flatMap fun _ => copy).eraseDups = copy.eraseDups := by
  obtain ⟨element, elements, rfl⟩ := List.exists_cons_of_ne_nil nonempty
  have added :
      ((elements.flatMap fun _ => copy).eraseDups.filter fun later => later ∉ copy) = [] := by
    refine List.filter_eq_nil_iff.mpr fun later member => ?_
    obtain ⟨_, _, inside⟩ := List.mem_flatMap.mp (List.mem_eraseDups.mp member)
    simpa using inside
  rw [List.flatMap_cons, eraseDups_append_eq, added, List.append_nil]

end Repeats

end Phrasebook
