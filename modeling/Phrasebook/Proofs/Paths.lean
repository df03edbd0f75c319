/-
**What joining and shortening do to the steps of a path.**

`join` puts a name behind a path, so the steps of the whole are those that lead to the directory
(`Path.approach`), which are the same for every name, and then the name (`steps_join`). So a name
that a directory lists is followed like its path (`locateIn_eq_locate`).
-/

import Phrasebook.FileTree.Basic

namespace Phrasebook

open Text

theorem Text.splitOn_append_separator (separator : Char) (text behind : List Char) :
    splitOn separator (text ++ separator :: behind) =
      splitOn separator text ++ splitOn separator behind := by
  induction text with
  | nil =>
    rw [List.nil_append]
    show (if separator = separator then _ else _) = _
    rw [if_pos rfl]
    rfl
  | cons character rest ih =>
    rw [List.cons_append, splitOn, splitOn, ih]
    split
    · rfl
    · cases parts : splitOn separator rest with
      | nil => exact absurd parts (splitOn_ne_nil _ _)
      | cons part more => rfl

theorem Text.joinWith_append (separator : Char) {front behind : List (List Char)}
    (some : front ≠ []) (more : behind ≠ []) :
    joinWith separator (front ++ behind) =
      joinWith separator front ++ separator :: joinWith separator behind := by
  induction front with
  | nil => exact absurd rfl some
  | cons part rest ih =>
    rw [List.cons_append]
    cases rest with
    | nil => exact joinWith_cons_of_ne_nil _ _ more
    | cons next rest =>
      rw [joinWith_cons_of_ne_nil _ _ (by simp), ih (List.cons_ne_nil _ _),
        joinWith_cons_of_ne_nil _ _ (List.cons_ne_nil _ _), List.append_assoc, List.cons_append]

namespace Path

/-- A name that an entry of a directory can have. -/
structure IsName (name : String) : Prop where
  nonempty : name.toList ≠ []
  notStay : name.toList ≠ ['.']
  notUp : name.toList ≠ ['.', '.']
  oneStep : '/' ∉ name.toList

instance (name : String) : Decidable (IsName name) :=
  decidable_of_iff (name.toList ≠ [] ∧ name.toList ≠ ['.'] ∧ name.toList ≠ ['.', '.'] ∧
      '/' ∉ name.toList)
    ⟨fun ⟨nonempty, notStay, notUp, oneStep⟩ => ⟨nonempty, notStay, notUp, oneStep⟩,
      fun ⟨nonempty, notStay, notUp, oneStep⟩ => ⟨nonempty, notStay, notUp, oneStep⟩⟩

theorem IsName.stepOf_eq {name : String} (isName : IsName name) :
    stepOf name.toList = .enter name := by
  have apart (other : String) (differs : name.toList ≠ other.toList) :
      RawText.of name ≠ RawText.of other :=
    fun same => differs (congrArg String.toList (RawText.of_inj.mp same))
  rw [stepOf, String.ofList_toList, Step.of, if_neg (apart "" isName.nonempty),
    if_neg (apart "." isName.notStay), if_neg (apart ".." isName.notUp)]

variable {base : Path} {name : String}

theorem isAbsolute_of_not_mem (oneStep : '/' ∉ name.toList) : isAbsolute ⟨name⟩ = false := by
  rw [isAbsolute, beq_eq_false_iff_ne]
  intro first
  exact oneStep (List.mem_of_mem_head? first)

theorem join_eq (oneStep : '/' ∉ name.toList) :
    base.join ⟨name⟩ =
      if base.isOpen then ⟨base.text ++ name⟩ else ⟨base.text ++ "/" ++ name⟩ := by
  rw [join, isAbsolute_of_not_mem oneStep]
  rfl

theorem parts_join (oneStep : '/' ∉ name.toList) :
    (base.join ⟨name⟩).parts = base.leading ++ [name.toList] := by
  rw [join_eq oneStep, leading]
  split
  next opened =>
    show splitOn '/' (base.text ++ name).toList = _
    rw [isOpen, Bool.or_eq_true, beq_iff_eq] at opened
    rw [String.toList_append]
    rcases opened with empty | slash
    · rw [String.isEmpty_iff.mp empty, parts, String.isEmpty_iff.mp empty]
      exact splitOn_of_not_mem oneStep
    · obtain ⟨front, split⟩ := List.getLast?_eq_some_iff.mp slash
      rw [parts, split, List.append_assoc, List.singleton_append, splitOn_append_separator,
        splitOn_append_separator, splitOn_of_not_mem oneStep]
      show _ = (splitOn '/' front ++ [[]]).dropLast ++ [name.toList]
      rw [List.dropLast_concat]
  next =>
    show splitOn '/' (base.text ++ "/" ++ name).toList = _
    rw [String.toList_append, String.toList_append, List.append_assoc]
    show splitOn '/' (base.text.toList ++ '/' :: name.toList) = _
    rw [splitOn_append_separator, splitOn_of_not_mem oneStep, parts]

theorem steps_join (isName : IsName name) :
    (base.join ⟨name⟩).steps = base.approach ++ [.enter name] := by
  rw [steps, parts_join isName.oneStep, List.map_append, approach, List.map_singleton,
    isName.stepOf_eq]

theorem isAbsolute_join (oneStep : '/' ∉ name.toList) :
    (base.join ⟨name⟩).isAbsolute = base.isAbsolute := by
  have free := isAbsolute_of_not_mem oneStep
  cases characters : base.text.toList with
  | nil =>
    have empty : base.text = "" := String.toList_eq_nil_iff.mp characters
    rw [join_eq oneStep, if_pos (by rw [isOpen, empty]; rfl), empty, String.empty_append, free,
      isAbsolute, characters]
    rfl
  | cons first rest =>
    rw [join_eq oneStep]
    split <;> simp [isAbsolute, characters]

/-- Names are put behind the same text. -/
theorem exists_text_join (base : Path) : ∃ gap : String, ∀ name : String, '/' ∉ name.toList →
    (base.join ⟨name⟩).text = base.text ++ gap ++ name := by
  cases opened : base.isOpen with
  | true =>
    exact ⟨"", fun name oneStep => by rw [join_eq oneStep, if_pos opened, String.append_empty]⟩
  | false => exact ⟨"/", fun name oneStep => by rw [join_eq oneStep, opened, if_neg nofun]⟩

theorem isOpen_join (isName : IsName name) : (base.join ⟨name⟩).isOpen = false := by
  obtain ⟨gap, written⟩ := exists_text_join base
  have characters : (base.join ⟨name⟩).text.toList = (base.text ++ gap).toList ++ name.toList := by
    rw [written name isName.oneStep, String.toList_append]
  have last : (base.join ⟨name⟩).text.toList.getLast? = name.toList.getLast? := by
    rw [characters, List.getLast?_append, List.getLast?_eq_some_getLast isName.nonempty]
    rfl
  have nonempty : (base.join ⟨name⟩).text.isEmpty = false := by
    rw [Bool.eq_false_iff, ne_eq, String.isEmpty_iff, ← String.toList_eq_nil_iff, characters]
    exact fun empty => isName.nonempty (List.append_eq_nil_iff.mp empty).2
  rw [isOpen, nonempty, last, Bool.false_or, beq_eq_false_iff_ne]
  exact fun slash => isName.oneStep (List.mem_of_getLast? slash)

theorem approach_join (isName : IsName name) :
    (base.join ⟨name⟩).approach = base.approach ++ [.enter name] := by
  rw [approach, leading, isOpen_join isName, if_neg nofun]
  exact steps_join isName

/-! ### Parents -/

/-- The part asks for no move. -/
abbrev IsIdle (part : List Char) : Prop := part = [] ∨ part = ['.']

theorem dropIdle_eq (parts : List (List Char)) :
    ∃ idle, parts = idle ++ dropIdle parts ∧ ∀ part ∈ idle, IsIdle part := by
  induction parts using dropIdle.induct with
  | case1 part earlier rest isIdle ih =>
    obtain ⟨idle, same, idles⟩ := ih
    rw [dropIdle, if_pos isIdle]
    exact ⟨part :: idle, by rw [List.cons_append, ← same], List.forall_mem_cons.mpr ⟨isIdle, idles⟩⟩
  | case2 part earlier rest moves =>
    rw [dropIdle, if_neg moves]
    exact ⟨[], rfl, List.forall_mem_nil _⟩
  | case3 parts short =>
    refine ⟨[], ?_, List.forall_mem_nil _⟩
    rw [dropIdle, List.nil_append]
    exact short

theorem not_isIdle_of_dropIdle {parts : List (List Char)} {part earlier : List Char}
    {rest : List (List Char)} (left : dropIdle parts = part :: earlier :: rest) :
    ¬IsIdle part := by
  induction parts using dropIdle.induct with
  | case1 part earlier rest isIdle ih =>
    rw [dropIdle, if_pos isIdle] at left
    exact ih left
  | case2 part earlier rest moves =>
    rw [dropIdle, if_neg moves] at left
    cases left
    exact moves
  | case3 parts short =>
    rw [dropIdle] at left
    · exact absurd left (short _ _ _)
    · exact short

theorem dropIdle_cons {part : List Char} (moves : ¬IsIdle part) (rest : List (List Char)) :
    dropIdle (part :: rest) = part :: rest := by
  cases rest with
  | nil => rfl
  | cons earlier rest => rw [dropIdle, if_neg moves]

theorem dropIdle_ne_nil {parts : List (List Char)} (nonempty : parts ≠ []) :
    dropIdle parts ≠ [] := by
  induction parts using dropIdle.induct with
  | case1 part earlier rest isIdle ih =>
    rw [dropIdle, if_pos isIdle]
    exact ih (List.cons_ne_nil _ _)
  | case2 part earlier rest moves =>
    rw [dropIdle, if_neg moves]
    exact List.cons_ne_nil _ _
  | case3 parts short =>
    rw [dropIdle]
    · exact nonempty
    · exact short

/-- The path that the parts before the last step make. -/
def enclosing (front : List (List Char)) : Path :=
  match front.reverse with
  | [] => ⟨""⟩
  | earlier =>
    match dropIdle earlier with
    | [[]] => ⟨"/"⟩
    | parts => ofParts parts.reverse

theorem parent?_eq (path : Path) :
    path.parent? = match dropIdle path.parts.reverse with
      | [] | [[]] => none
      | _ :: earlier => some (enclosing earlier.reverse) := by
  rw [parent?]
  split
  next left => rw [left]
  next left => rw [left]
  next part notRoot left =>
    rw [left]
    cases part with
    | nil => exact absurd rfl notRoot
    | cons _ _ => rfl
  next part earlier notRoot notLone left =>
    rw [left]
    cases earlier with
    | nil => exact absurd rfl notLone
    | cons next rest =>
      have chosen : (match part :: next :: rest with
          | [] | [[]] => none
          | _ :: earlier => some (enclosing earlier.reverse)) =
          some (enclosing (next :: rest).reverse) := by
        cases part <;> rfl
      rw [chosen, enclosing, List.reverse_reverse]
      show _ = some (match dropIdle (next :: rest) with
        | [[]] => Path.mk "/"
        | parts => ofParts parts.reverse)
      cases dropIdle (next :: rest) with
      | nil => rfl
      | cons head tail => cases head <;> cases tail <;> rfl

theorem parts_ofParts {parts : List (List Char)} (nonempty : parts ≠ [])
    (free : ∀ part ∈ parts, '/' ∉ part) : (ofParts parts).parts = parts := by
  rw [Path.parts, ofParts, String.toList_ofList]
  exact splitOn_joinWith nonempty free

theorem joinWith_parts (path : Path) : joinWith '/' path.parts = path.text.toList :=
  joinWith_splitOn '/' _

theorem parts_ne_nil (path : Path) : path.parts ≠ [] := splitOn_ne_nil _ _

theorem text_eq_empty_iff {path : Path} : path.text = "" ↔ path.parts = [[]] := by
  rw [← String.toList_eq_nil_iff]
  constructor
  · intro empty
    rw [parts, empty]
    rfl
  · intro lone
    rw [← joinWith_parts, lone]
    rfl

theorem isAbsolute_iff {path : Path} :
    path.isAbsolute = true ↔ ∃ rest, rest ≠ [] ∧ path.parts = [] :: rest := by
  rw [isAbsolute, beq_iff_eq]
  constructor
  · intro first
    obtain ⟨rest, split⟩ := List.head?_eq_some_iff.mp first
    refine ⟨splitOn '/' rest, splitOn_ne_nil _ _, ?_⟩
    rw [parts, split, splitOn, if_pos rfl]
  · rintro ⟨rest, nonempty, split⟩
    rw [← joinWith_parts, split, joinWith_cons_of_ne_nil _ _ nonempty]
    rfl

/-- What makes the parts before the last step: nothing, the root, or a path that they begin with. -/
theorem enclosing_cases {front : List (List Char)} (free : ∀ part ∈ front, '/' ∉ part) :
    (front = [] ∧ enclosing front = ⟨""⟩) ∨ ∃ idle, (∀ part ∈ idle, IsIdle part) ∧
      ((front = [] :: idle ∧ enclosing front = ⟨"/"⟩) ∨
        (front = (enclosing front).parts ++ idle ∧ (enclosing front).text ≠ "")) := by
  by_cases empty : front = []
  · rw [empty]
    exact .inl ⟨rfl, rfl⟩
  have reversed : front.reverse ≠ [] := by simpa using empty
  obtain ⟨idle, same, idles⟩ := dropIdle_eq front.reverse
  have left := dropIdle_ne_nil reversed
  have whole : front = (dropIdle front.reverse).reverse ++ idle.reverse := by
    rw [← List.reverse_append, ← same, List.reverse_reverse]
  have chosen : enclosing front = match dropIdle front.reverse with
      | [[]] => ⟨"/"⟩
      | parts => ofParts parts.reverse := by
    rw [enclosing]
    cases back : front.reverse with
    | nil => exact absurd back reversed
    | cons _ _ => rfl
  refine .inr ⟨idle.reverse, fun part member => idles part (List.mem_reverse.mp member), ?_⟩
  by_cases root : dropIdle front.reverse = [[]]
  · rw [root] at whole chosen
    exact .inl ⟨whole, chosen⟩
  · right
    have made : enclosing front = ofParts (dropIdle front.reverse).reverse := by
      rw [chosen]
      split
      next same => exact absurd same root
      next => rfl
    have found : (enclosing front).parts = (dropIdle front.reverse).reverse := by
      rw [made]
      refine parts_ofParts (by simpa using left) fun part member => free part ?_
      rw [whole]
      exact List.mem_append_left _ member
    refine ⟨by rw [found]; exact whole, fun empty => root ?_⟩
    rw [text_eq_empty_iff, found] at empty
    rw [← List.reverse_reverse (dropIdle front.reverse), empty]
    rfl

/-- The path, as one that goes on from another. -/
theorem goes_on {path base : Path} {more : List (List Char)} (named : base.text ≠ "")
    (nonempty : more ≠ []) (split : path.parts = base.parts ++ more) :
    path.isAbsolute = base.isAbsolute ∧ ∃ rest : String, path.text = base.text ++ rest := by
  constructor
  · rw [Bool.eq_iff_iff, isAbsolute_iff, isAbsolute_iff, split]
    cases parts : base.parts with
    | nil => exact absurd parts base.parts_ne_nil
    | cons first others =>
      constructor
      · rintro ⟨rest, _, same⟩
        cases same
        refine ⟨others, ?_, rfl⟩
        rintro rfl
        exact named (text_eq_empty_iff.mpr parts)
      · rintro ⟨rest, _, same⟩
        cases same
        exact ⟨others ++ more, by simp [nonempty], rfl⟩
  · refine ⟨String.ofList ('/' :: joinWith '/' more), String.ext ?_⟩
    rw [String.toList_append, String.toList_ofList, ← joinWith_parts path, split,
      joinWith_append _ base.parts_ne_nil nonempty, joinWith_parts]

theorem not_isIdle {name : String} (isName : IsName name) : ¬IsIdle name.toList := by
  rintro (empty | stay)
  · exact isName.nonempty empty
  · exact isName.notStay stay

/-- The parent does not depend on the name. -/
theorem parent?_join (isName : IsName name) :
    (base.join ⟨name⟩).parent? = some (enclosing base.leading) := by
  rw [parent?_eq, parts_join isName.oneStep, List.reverse_append, List.reverse_singleton,
    List.singleton_append, dropIdle_cons (not_isIdle isName)]
  cases characters : name.toList with
  | nil => exact absurd characters isName.nonempty
  | cons first rest =>
    show some (enclosing base.leading.reverse.reverse) = _
    rw [List.reverse_reverse]

/-- The paths above those that a name is joined to. -/
def above (base : Path) : List Path :=
  ancestorsWithin (base.leading.length + 1) (enclosing base.leading)

theorem ancestors_join (isName : IsName name) :
    (base.join ⟨name⟩).ancestors = base.join ⟨name⟩ :: base.above := by
  rw [ancestors, parts_join isName.oneStep, List.length_append, List.length_singleton,
    ancestorsWithin, parent?_join isName]
  rfl

end Path

/-! ### Names in a directory -/

/-- A name in a directory leads where its path does, if it has one. -/
theorem FileTree.locateIn_eq_locate (tree : FileTree) (directory : Path) {name : String}
    (isName : Path.IsName name) (noNul : '\x00' ∉ name.toList) :
    tree.locateIn directory name = tree.locate (directory.join ⟨name⟩) := by
  obtain ⟨gap, written⟩ := Path.exists_text_join directory
  have named : ¬(directory.join ⟨name⟩).text.isEmpty = true := by
    rw [String.isEmpty_iff, written name isName.oneStep, ← String.toList_eq_nil_iff,
      String.toList_append]
    exact fun empty => isName.nonempty (List.append_eq_nil_iff.mp empty).2
  have size : (directory.join ⟨name⟩).text.utf8ByteSize =
      (directory.join ⟨""⟩).text.utf8ByteSize + (RawText.of name).size := by
    rw [written name isName.oneStep, written "" (by decide), String.append_empty,
      String.utf8ByteSize_append, RawText.size_of]
  have nul : (directory.join ⟨name⟩).text.toList.contains '\x00' =
      directory.text.toList.contains '\x00' := by
    rw [Path.join_eq isName.oneStep]
    split <;> simp [noNul]
  rw [locate, resolve, if_neg named, resolveSteps, nul, Path.steps_join isName, size,
    Path.isAbsolute_join isName.oneStep]
  rfl

end Phrasebook
