/-
**Splitting a text at a separator.**

`splitOn` cuts a text at every occurrence of a character and `joinWith` puts the parts together
again; `joinWith_splitOn` says that nothing else changes, and `splitOn_joinWith` that parts without
the separator are found again. The same goes for bytes.
-/

namespace Phrasebook.Text

variable {α : Type}

/-- The parts with a separator between each two. -/
def joinWith (separator : α) : List (List α) → List α
  | [] => []
  | [part] => part
  | part :: parts => part ++ separator :: joinWith separator parts

theorem joinWith_cons_of_ne_nil (separator : α) (part : List α) {parts : List (List α)}
    (nonempty : parts ≠ []) :
    joinWith separator (part :: parts) = part ++ separator :: joinWith separator parts := by
  cases parts with
  | nil => exact absurd rfl nonempty
  | cons _ _ => rfl

theorem mem_joinWith {separator character : α} {parts : List (List α)}
    (member : character ∈ joinWith separator parts) :
    character = separator ∨ ∃ part ∈ parts, character ∈ part := by
  induction parts with
  | nil => cases member
  | cons part more ih =>
    cases more with
    | nil => exact .inr ⟨part, List.mem_cons_self, member⟩
    | cons next more =>
      rw [joinWith_cons_of_ne_nil _ _ (List.cons_ne_nil _ _), List.mem_append, List.mem_cons]
        at member
      rcases member with here | same | later
      · exact .inr ⟨part, List.mem_cons_self, here⟩
      · exact .inl same
      · exact (ih later).imp_right fun ⟨other, listed, inside⟩ =>
          ⟨other, List.mem_cons_of_mem _ listed, inside⟩

variable [DecidableEq α]

/-- The parts of a text between the separators; a text without one is its own only part. -/
def splitOn (separator : α) : List α → List (List α)
  | [] => [[]]
  | character :: rest =>
    if character = separator then [] :: splitOn separator rest
    else match splitOn separator rest with
      | [] => [[character]]
      | part :: parts => (character :: part) :: parts

theorem splitOn_ne_nil (separator : α) (text : List α) : splitOn separator text ≠ [] := by
  cases text with
  | nil => simp [splitOn]
  | cons character rest =>
    rw [splitOn]
    split
    · simp
    · split <;> simp

/-- Splitting loses nothing but the separators. -/
theorem joinWith_splitOn (separator : α) (text : List α) :
    joinWith separator (splitOn separator text) = text := by
  induction text with
  | nil => rfl
  | cons character rest ih =>
    rw [splitOn]
    split
    next same =>
      rw [joinWith_cons_of_ne_nil _ _ (splitOn_ne_nil _ _), ih, same, List.nil_append]
    next =>
      cases parts : splitOn separator rest with
      | nil => exact absurd parts (splitOn_ne_nil _ _)
      | cons part more =>
        rw [parts] at ih
        cases more with
        | nil => simpa [joinWith] using ih
        | cons _ _ => simpa [joinWith] using ih

/-- The parts hold the characters of the text, the separators left out. -/
theorem mem_of_mem_splitOn {separator character : α} {text part : List α}
    (listed : part ∈ splitOn separator text) (member : character ∈ part) :
    character ∈ text ∧ character ≠ separator := by
  induction text generalizing part with
  | nil => simp_all [splitOn]
  | cons head rest ih =>
    have later {part : List α} (listed : part ∈ splitOn separator rest)
        (member : character ∈ part) : character ∈ head :: rest ∧ character ≠ separator :=
      ⟨List.mem_cons_of_mem _ (ih listed member).1, (ih listed member).2⟩
    rw [splitOn] at listed
    split at listed
    · rcases List.mem_cons.mp listed with rfl | listed
      · cases member
      · exact later listed member
    next other =>
      split at listed
      next split => exact absurd split (splitOn_ne_nil _ _)
      next first others split =>
        rcases List.mem_cons.mp listed with rfl | listed
        · rcases List.mem_cons.mp member with rfl | inside
          · exact ⟨List.mem_cons_self, other⟩
          · exact later (split ▸ List.mem_cons_self) inside
        · exact later (split ▸ List.mem_cons_of_mem _ listed) member

theorem splitOn_of_not_mem {separator : α} {part : List α} (free : separator ∉ part) :
    splitOn separator part = [part] := by
  induction part with
  | nil => rfl
  | cons character rest ih =>
    rw [List.mem_cons, not_or] at free
    rw [splitOn, if_neg (Ne.symm free.1), ih free.2]

theorem splitOn_append {separator : α} {part : List α} (free : separator ∉ part)
    (behind : List α) :
    splitOn separator (part ++ separator :: behind) = part :: splitOn separator behind := by
  induction part with
  | nil => rw [List.nil_append, splitOn, if_pos rfl]
  | cons character rest ih =>
    rw [List.mem_cons, not_or] at free
    rw [List.cons_append, splitOn, if_neg (Ne.symm free.1), ih free.2]

/-- Parts without the separator are found again. -/
theorem splitOn_joinWith {separator : α} {parts : List (List α)} (nonempty : parts ≠ [])
    (free : ∀ part ∈ parts, separator ∉ part) :
    splitOn separator (joinWith separator parts) = parts := by
  induction parts with
  | nil => exact absurd rfl nonempty
  | cons part more ih =>
    obtain ⟨here, later⟩ := List.forall_mem_cons.mp free
    cases more with
    | nil => exact splitOn_of_not_mem here
    | cons next more =>
      rw [joinWith_cons_of_ne_nil _ _ (List.cons_ne_nil _ _), splitOn_append here,
        ih (List.cons_ne_nil _ _) later]

end Phrasebook.Text
