/-
**Work at one place.**

Where the build root leads to a directory, the rest of a build is work at single places: an output
directory is created in its place below the build root, a manifest is written in its place below
that (`directoryTouch`, `manifestTouch`). Such an operation looks at its place and at nothing else
(`FileTree.Touch`), so two of them at different places can be done in either order
(`Touch.apply_comm`).
-/

import Phrasebook.Proofs.BuildRoot

namespace Phrasebook

open FileTree

variable {tree : FileTree}

/-! ### Operations at one place -/

namespace FileTree

/-- An operation that looks at one location and may put an entry there. -/
structure Touch (α : Type) where
  location : Location
  /-- What is told, by what stands at the location. -/
  result : Option Entry → α
  /-- What is put there, by what stands at the location. -/
  entry? : Option Entry → Option Entry

variable {α β : Type}

/-- Does the operation. -/
def Touch.apply (touch : Touch α) (tree : FileTree) : α × FileTree :=
  (touch.result (tree.find? touch.location),
    match touch.entry? (tree.find? touch.location) with
    | some entry => tree.place touch.location entry
    | none => tree)

/-- The operation, of which something else is told. -/
def Touch.map (f : α → β) (touch : Touch α) : Touch β where
  location := touch.location
  result standing := f (touch.result standing)
  entry? := touch.entry?

theorem Touch.apply_map (f : α → β) (touch : Touch α) :
    (touch.map f).apply tree = (f (touch.apply tree).1, (touch.apply tree).2) := rfl

theorem Touch.find?_apply_of_ne {touch : Touch α} (tree : FileTree) (below : touch.location ≠ [])
    {probe : Location} (apart : probe ≠ touch.location) :
    (touch.apply tree).2.find? probe = tree.find? probe := by
  rw [apply]
  split
  · rw [find?_place below, if_neg apart]
  · rfl

/-- **Operations at two places can change places.** -/
theorem Touch.apply_comm {first : Touch α} {second : Touch β} (tree : FileTree)
    (firstBelow : first.location ≠ []) (secondBelow : second.location ≠ [])
    (apart : first.location ≠ second.location) :
    (second.apply (first.apply tree).2).1 = (second.apply tree).1 ∧
      (second.apply (first.apply tree).2).2 = (first.apply (second.apply tree).2).2 := by
  have secondSame := find?_apply_of_ne tree firstBelow (Ne.symm apart)
  have firstSame := find?_apply_of_ne tree secondBelow apart
  constructor
  · show second.result ((first.apply tree).2.find? second.location) = _
    rw [secondSame]
    rfl
  · unfold apply at secondSame firstSame ⊢
    simp only at secondSame firstSame ⊢
    rw [secondSame, firstSame]
    split
    · split
      · exact place_comm apart _ _
      · rfl
    · rfl

end FileTree

/-! ### Output directories -/

namespace Project

variable {root : Path} {language : String} {ground : Location}

/-- Why the output directory of a language cannot be created below the build root, by what stands in
its place. -/
def directoryFault? (root : Path) (language : String) (standing : Option Entry) :
    Option FileError :=
  (pathFault? (outputDirectory root language)).or
    (if Path.longestName < language.utf8ByteSize then some .nameTooLong
    else match standing with
      | some (.file _) => some .exists
      | _ => none)

/-- The creation of an output directory below the build root. -/
def directoryTouch (ground : Location) (root : Path) (language : String) :
    Touch (Option FileError) where
  location := ground ++ [(language : Name)]
  result := directoryFault? root language
  entry? standing :=
    if directoryFault? root language standing = none ∧ standing = none then some .directory
    else none

/-- In a tree where the build root leads to a directory, what becomes of an output directory is
decided below it. -/
theorem createDirectories_of_ready (isName : Path.IsName language)
    (ready : tree.locate (groundPath root) = .ok ground)
    (linkless : ∀ target, tree.find? (ground ++ [(language : Name)]) ≠ some (.link target)) :
    tree.createDirectories (outputDirectory root language) =
      (directoryTouch ground root language).apply tree := by
  have named := text_outputDirectory_ne_empty root isName
  cases fault : pathFault? (outputDirectory root language) with
  | some error =>
    rw [createDirectories_of_fault isName fault]
    simp [Touch.apply, directoryTouch, directoryFault?, fault]
  | none =>
  obtain ⟨left, leads, _⟩ := leads_of_locate ready
  have resolved (aim : Aim) : tree.resolve aim (outputDirectory root language) =
      tree.walkLinks aim left ground [.enter language] :=
    (resolve_outputDirectory tree isName fault aim).trans (leads aim _ (.inr (goes_enter _ _)))
  rw [createDirectories_outputDirectory isName]
  simp only [Touch.apply, directoryTouch, directoryFault?, fault, Option.none_or]
  by_cases long : Path.longestName < language.utf8ByteSize
  · have refused (aim : Aim) : tree.resolve aim (outputDirectory root language) =
        .error .nameTooLong := by
      rw [resolved aim, walkLinks_enter, if_neg (by simp [endsInSlash]), RawText.size_of,
        if_pos long]
    rw [createAlong_of_refused _ named refused (by decide)]
    simp [long]
  · have found (aim : Aim) : tree.resolve aim (outputDirectory root language) =
        .ok (if tree.find? (ground ++ [(language : Name)]) = none then .vacant ground language
          else .existing (ground ++ [(language : Name)])) :=
      (resolved aim).trans (walkLinks_lastName aim left long linkless)
    cases standing : tree.find? (ground ++ [(language : Name)]) with
    | none =>
      have created : tree.createDirectory (outputDirectory root language) =
          .ok (tree.place (ground ++ [(language : Name)]) .directory) := by
        rw [createDirectory, found, if_pos standing]
        rfl
      rw [createAlong_iff.mpr (.created named created)]
      simp [long]
    | some entry =>
      have occupied : tree.find? (ground ++ [(language : Name)]) ≠ none := by simp [standing]
      have refused : tree.createDirectory (outputDirectory root language) = .error .exists := by
        rw [createDirectory, found, if_neg occupied]
        rfl
      have located : tree.locate (outputDirectory root language) =
          .ok (ground ++ [(language : Name)]) := by
        rw [locate_eq_ok_iff, found, if_neg occupied]
      have creates : CreatesAlong tree (outputDirectory root language) root.above _ tree :=
        .refused named refused (by decide)
      rw [createAlong_iff.mpr creates, isDirectory, target?, located]
      cases entry with
      | directory => simp [long, standing]
      | file content => simp [long, standing]
      | link target => exact absurd standing (linkless target)

/-! ### Writing manifests -/

/-- Why the manifest of a language cannot be written below the build root, by what stands in its
place. -/
def manifestFault? (root : Path) (language : String) (standing : Option Entry) :
    Option FileError :=
  (pathFault? (manifestPath root language)).or
    (if Path.longestName < language.utf8ByteSize then some .nameTooLong
    else if standing = some .directory then some .isADirectory
    else none)

/-- The writing of a manifest below the build root. -/
def manifestTouch (ground : Location) (root : Path) (language text : String) :
    Touch (Option FileError) where
  location := ground ++ ([language, Generator.manifestFileName] : Location)
  result := manifestFault? root language
  entry? standing :=
    if manifestFault? root language standing = none then some (.file text.toUTF8) else none

/-- What becomes of a tree that was to be changed. -/
def changed (tree : FileTree) : Except FileError FileTree → Option FileError × FileTree
  | .ok next => (none, next)
  | .error error => (some error, tree)

/-- A text goes where a last name is missing or stands for no directory. -/
theorem writeText_of_lastName {path : Path} {here : Location} {name : Name}
    (found : tree.resolve .writeFile path =
      .ok (if tree.find? (here ++ [name]) = none then .vacant here name
        else .existing (here ++ [name]))) (text : String) :
    tree.writeText path text =
      if tree.find? (here ++ [name]) = some .directory then .error .isADirectory
      else .ok (tree.place (here ++ [name]) (.file text.toUTF8)) := by
  rw [writeText, found]
  cases standing : tree.find? (here ++ [name]) with
  | none =>
    rw [if_pos rfl, if_neg (by simp)]
    rfl
  | some entry =>
    rw [if_neg (Option.some_ne_none entry)]
    show (if tree.find? (here ++ [name]) = some .directory then _ else _) = _
    rw [standing]

/-- Where the output directory is, what becomes of the manifest is decided in it. -/
theorem writeText_of_ready (isName : Path.IsName language)
    (ready : tree.locate (groundPath root) = .ok ground)
    (directory : tree.find? (ground ++ [(language : Name)]) = some .directory)
    (linkless : ∀ target,
      tree.find? (ground ++ ([language, Generator.manifestFileName] : Location)) ≠
        some (.link target))
    (text : String) :
    changed tree (tree.writeText (manifestPath root language) text) =
      (manifestTouch ground root language text).apply tree := by
  have refuses {error : FileError}
      (refused : tree.resolve .writeFile (manifestPath root language) = .error error) :
      tree.writeText (manifestPath root language) text = .error error := by
    rw [writeText, refused]
    rfl
  cases fault : pathFault? (manifestPath root language) with
  | some error =>
    rw [refuses (resolve_eq_error fault)]
    simp [changed, Touch.apply, manifestTouch, manifestFault?, fault]
  | none =>
  obtain ⟨left, leads, _⟩ := leads_of_locate ready
  have same : ground ++ [(language : Name)] ++ [(Generator.manifestFileName : Name)] =
      ground ++ ([language, Generator.manifestFileName] : Location) := List.append_assoc ..
  have short : ¬Path.longestName < Generator.manifestFileName.utf8ByteSize := by decide
  have resolved := (resolve_manifestPath tree isName fault .writeFile).trans
    (leads _ _ (.inr (goes_enter _ _)))
  rw [walkLinks_enter, (goes_enter _ _).endsInSlash_eq, Bool.and_false,
    if_neg Bool.false_ne_true, directory, RawText.size_of] at resolved
  by_cases long : Path.longestName < language.utf8ByteSize
  · rw [if_pos long] at resolved
    rw [refuses resolved]
    simp [changed, Touch.apply, manifestTouch, manifestFault?, fault, long]
  · rw [if_neg long] at resolved
    have found := resolved.trans
      (walkLinks_lastName .writeFile left short (same.symm ▸ linkless))
    rw [writeText_of_lastName found, same]
    by_cases standing :
        tree.find? (ground ++ ([language, Generator.manifestFileName] : Location)) = some .directory
    · simp [changed, Touch.apply, manifestTouch, manifestFault?, fault, long, standing]
    · simp [changed, Touch.apply, manifestTouch, manifestFault?, fault, long, standing]

end Project

end Phrasebook
