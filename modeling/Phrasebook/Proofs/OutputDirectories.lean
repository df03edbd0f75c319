/-
**Where the output directories are.**

The paths of all output directories begin with the same steps, so they all lead below one place,
which is where the build root leads as a directory (`Project.groundPath`, `leads_of_locate`). If no
link stands below it, the manifest of each language has a place of its own (`locate_manifestPath`).
-/

import Phrasebook.Build
import Phrasebook.Proofs.Loading
import Phrasebook.Proofs.Paths

namespace Phrasebook

open FileTree

/-! ### Names -/

/-- The tree is like one on a disk: every entry stands in a directory, and a name that is a text can
be the name of an entry. -/
structure FileTree.Proper (tree : FileTree) : Prop where
  rooted : tree.Rooted
  names : ∀ location ∈ tree.entries.keys, ∀ name ∈ location, ∀ text ∈ name.text?, Path.IsName text

instance (tree : FileTree) : Decidable tree.Proper :=
  decidable_of_iff (tree.Rooted ∧ ∀ location ∈ tree.entries.keys, ∀ name ∈ location,
      ∀ text ∈ name.text?, Path.IsName text)
    ⟨fun ⟨rooted, names⟩ => ⟨rooted, names⟩, fun ⟨rooted, names⟩ => ⟨rooted, names⟩⟩

/-- Languages have the names of directories. -/
theorem LanguageTable.isName_of_load {tree : FileTree} (proper : tree.Proper) {directory : Path}
    {fileName : String} {table : LanguageTable} (loaded : load tree directory fileName = .ok table)
    {language : String} (member : language ∈ table.keys) : Path.IsName language := by
  have loading := loading_load tree directory fileName
  rw [loaded] at loading
  cases loading with
  | loaded _ _ _ found =>
    obtain ⟨templates, inside⟩ :=
      Option.isSome_iff_exists.mp (Dictionary.find?_isSome_iff.mpr member)
    obtain ⟨_, holds, _⟩ := (found language templates).mp inside
    obtain ⟨entry, root, _, _, standing⟩ := holds.1.lists
    have occupied : tree.find? (root ++ [(language : Name)]) ≠ none := by rw [standing]; nofun
    have key := (find?_ne_none_iff.mp occupied).resolve_left (List.concat_ne_nil _ _)
    exact proper.names _ key language (List.mem_append_right _ List.mem_cons_self) language
      (RawText.text?_of language)

/-! ### Paths without fault -/

theorem pathFault?_eq_none_iff {path : Path} : pathFault? path = none ↔
    path.text ≠ "" ∧ '\x00' ∉ path.text.toList ∧
      path.text.utf8ByteSize ≤ Path.longestPath := by
  rw [pathFault?]
  by_cases empty : path.text.isEmpty = true
  · simp [String.isEmpty_iff.mp empty]
  · rw [if_neg empty, ne_eq, ← String.isEmpty_iff]
    by_cases nul : '\x00' ∈ path.text.toList <;> simp [empty, nul]

variable {base root : Path} {name language : String}

/-- A path is without fault where a longer one is. -/
theorem pathFault?_of_join (oneStep : '/' ∉ name.toList) (named : base.text ≠ "")
    (sound : pathFault? (base.join ⟨name⟩) = none) : pathFault? base = none := by
  obtain ⟨gap, written⟩ := Path.exists_text_join base
  obtain ⟨_, nul, short⟩ := pathFault?_eq_none_iff.mp sound
  rw [written name oneStep] at nul short
  rw [String.toList_append, String.toList_append] at nul
  rw [String.utf8ByteSize_append, String.utf8ByteSize_append] at short
  refine pathFault?_eq_none_iff.mpr ⟨named, fun inside => nul ?_, by omega⟩
  exact List.mem_append_left _ (List.mem_append_left _ inside)

/-- The build root as a directory, on the way to the output directories. The empty path is where
the run is. -/
def Project.groundPath (root : Path) : Path := root.join ⟨"."⟩

/-- The path of the manifest of a language. -/
def Project.manifestPath (root : Path) (language : String) : Path :=
  (outputDirectory root language).join ⟨Generator.manifestFileName⟩

namespace Project

theorem pathFault?_groundPath (isName : Path.IsName language)
    (sound : pathFault? (outputDirectory root language) = none) :
    pathFault? (groundPath root) = none := by
  obtain ⟨gap, written⟩ := Path.exists_text_join root
  obtain ⟨_, nul, short⟩ := pathFault?_eq_none_iff.mp sound
  rw [outputDirectory, written language isName.oneStep] at nul short
  rw [String.toList_append] at nul
  rw [String.utf8ByteSize_append] at short
  have size : 0 < language.utf8ByteSize := by
    rw [Nat.pos_iff_ne_zero, ne_eq, String.utf8ByteSize_eq_zero_iff]
    rintro rfl
    exact isName.nonempty rfl
  have dot : (groundPath root).text = root.text ++ gap ++ "." := written "." (by decide)
  have one : (".").utf8ByteSize = 1 := by decide
  refine pathFault?_eq_none_iff.mpr ⟨?_, ?_, ?_⟩
  · rw [dot, ne_eq, ← String.toList_eq_nil_iff, String.toList_append]
    exact fun empty => absurd (List.append_eq_nil_iff.mp empty).2 (by decide)
  · rw [dot, String.toList_append]
    intro inside
    rcases List.mem_append.mp inside with inside | inside
    · exact nul (List.mem_append_left _ inside)
    · exact absurd inside (by decide)
  · rw [dot, String.utf8ByteSize_append, one]
    omega

theorem isName_manifestFileName : Path.IsName Generator.manifestFileName := by
  decide

theorem text_outputDirectory_ne_empty (root : Path) (isName : Path.IsName language) :
    (outputDirectory root language).text ≠ "" := by
  obtain ⟨gap, written⟩ := Path.exists_text_join root
  rw [outputDirectory, written language isName.oneStep, ne_eq, ← String.toList_eq_nil_iff,
    String.toList_append]
  exact fun empty => isName.nonempty (List.append_eq_nil_iff.mp empty).2

theorem pathFault?_outputDirectory (isName : Path.IsName language)
    (sound : pathFault? (manifestPath root language) = none) :
    pathFault? (outputDirectory root language) = none := by
  exact pathFault?_of_join isName_manifestFileName.oneStep
    (text_outputDirectory_ne_empty root isName) sound

/-! ### The steps to an output directory -/

theorem steps_groundPath (root : Path) : (groundPath root).steps = root.approach ++ [.stay] := by
  rw [groundPath, Path.steps, Path.parts_join (by decide), List.map_append]
  rfl

theorem steps_outputDirectory (isName : Path.IsName language) :
    (outputDirectory root language).steps = root.approach ++ [.enter language] :=
  Path.steps_join isName

theorem steps_manifestPath (isName : Path.IsName language) :
    (manifestPath root language).steps =
      root.approach ++ [.enter language, .enter Generator.manifestFileName] := by
  rw [manifestPath, Path.steps_join isName_manifestFileName, outputDirectory,
    Path.approach_join isName, List.append_assoc]
  rfl

variable {tree : FileTree}

theorem start_join (tree : FileTree) (oneStep : '/' ∉ name.toList) :
    tree.start (root.join ⟨name⟩) = tree.start root := by
  rw [start, start, Path.isAbsolute_join oneStep]

theorem start_manifestPath (tree : FileTree) (isName : Path.IsName language) :
    tree.start (manifestPath root language) = tree.start root := by
  rw [manifestPath, start_join tree isName_manifestFileName.oneStep, outputDirectory,
    start_join tree isName.oneStep]

theorem resolve_outputDirectory (tree : FileTree) (isName : Path.IsName language)
    (sound : pathFault? (outputDirectory root language) = none) (aim : Aim) :
    tree.resolve aim (outputDirectory root language) =
      tree.walkLinks aim linkLimit (tree.start root) (root.approach ++ [.enter language]) := by
  rw [resolve_eq, sound, steps_outputDirectory isName, outputDirectory,
    start_join tree isName.oneStep]

theorem resolve_manifestPath (tree : FileTree) (isName : Path.IsName language)
    (sound : pathFault? (manifestPath root language) = none) (aim : Aim) :
    tree.resolve aim (manifestPath root language) =
      tree.walkLinks aim linkLimit (tree.start root)
        (root.approach ++ [.enter language, .enter Generator.manifestFileName]) := by
  rw [resolve_eq, sound, steps_manifestPath isName, start_manifestPath tree isName]

/-- **The steps that all output directories have in common** fail alike, or lead to where the build
root leads. -/
theorem approach_leads (tree : FileTree) (root : Path)
    (sound : pathFault? (groundPath root) = none) :
    (∃ error, tree.locate (groundPath root) = .error error ∧
      tree.Fails linkLimit (tree.start root) root.approach error) ∨
    ∃ left ground, tree.locate (groundPath root) = .ok ground ∧
      tree.Leads linkLimit (tree.start root) root.approach left ground ∧
      (tree.Rooted → tree.find? ground = some .directory) := by
  have resolved : tree.resolve .find (groundPath root) =
      tree.walkLinks .find linkLimit (tree.start root) (root.approach ++ [.stay]) := by
    rw [resolve_eq, sound, steps_groundPath, groundPath, start_join tree (by decide)]
  rcases tree.fails_or_leads linkLimit (tree.start root) root.approach with
    ⟨error, fails⟩ | ⟨left, ground, leads, ends⟩
  · refine .inl ⟨error, ?_, fails⟩
    rw [locate, resolved, fails .find [.stay] goes_stay]
    rfl
  · refine .inr ⟨left, ground, ?_, leads, fun rooted => ends rooted (rooted.start root)⟩
    rw [locate_eq_ok_iff, resolved, leads .find [.stay] (.inl rfl), walkLinks_stay, walkLinks_nil]

theorem leads_of_locate {ground : Location} (located : tree.locate (groundPath root) = .ok ground) :
    ∃ left, tree.Leads linkLimit (tree.start root) root.approach left ground ∧
      (tree.Rooted → tree.find? ground = some .directory) := by
  have sound := (resolve_eq_ok_iff.mp (locate_eq_ok_iff.mp located)).1
  rcases approach_leads tree root sound with ⟨error, fails, _⟩ | ⟨left, there, leads, rest⟩
  · rw [located] at fails
    cases fails
  · rw [located] at leads
    cases leads
    exact ⟨left, rest⟩

end Project

/-! ### Places of their own -/

/-- No symbolic link stands below the directory that the build root leads to. -/
def FileTree.NoLinksBelow (tree : FileTree) (root : Path) : Prop :=
  ∀ ground, tree.locate (Project.groundPath root) = .ok ground →
    ∀ names, names ≠ [] → ∀ target, tree.find? (ground ++ names) ≠ some (.link target)

/-- For a build root that is there before, it does not matter when one looks for links. -/
theorem FileTree.Extends.noLinksBelow {tree later : FileTree} (grown : tree.Extends later)
    {ground : Location} (located : tree.locate (Project.groundPath root) = .ok ground)
    (noLinks : tree.NoLinksBelow root) : later.NoLinksBelow root := by
  intro there leads names below target found
  rw [grown.locate_eq located] at leads
  cases leads
  exact noLinks ground located names below target (grown.of_link found)

namespace Project

variable {tree : FileTree}

/-- **Without links below the build root**, the manifest of a language is found where it should
be. -/
theorem locate_manifestPath (noLinks : tree.NoLinksBelow root) (isName : Path.IsName language)
    {location : Location} (located : tree.locate (manifestPath root language) = .ok location) :
    ∃ ground, tree.locate (groundPath root) = .ok ground ∧
      location = ground ++ ([language, Generator.manifestFileName] : Location) := by
  have walked := locate_eq_ok_iff.mp located
  have sound := (resolve_eq_ok_iff.mp walked).1
  rw [resolve_manifestPath tree isName sound] at walked
  rcases approach_leads tree root
      (pathFault?_groundPath isName (pathFault?_outputDirectory isName sound)) with
    ⟨error, _, fails⟩ | ⟨left, ground, there, leads, _⟩
  · rw [fails .find _ (goes_enter _ _)] at walked
    cases walked
  refine ⟨ground, there, ?_⟩
  rw [leads .find _ (.inl rfl)] at walked
  have free (names : Location) (nonempty : names ≠ []) := noLinks ground there names nonempty
  cases (enters_of_walkLinks walked).2 with
  | file found last => cases eq_nil_of_isLast last nofun
  | lastLink _ other => cases other
  | link target _ found => exact absurd found (free _ (by simp) target)
  | directory _ walked =>
    have same : ground ++ [(language : Name)] ++ [(Generator.manifestFileName : Name)] =
        ground ++ ([language, Generator.manifestFileName] : Location) := List.append_assoc ..
    cases (enters_of_walkLinks walked).2 with
    | file => exact same
    | lastLink _ other => cases other
    | link target _ found =>
      rw [same] at found
      exact absurd found (free _ (by simp) target)
    | directory _ walked =>
      rw [walkLinks_nil] at walked
      cases walked
      exact same

/-- Manifests of two languages are apart. -/
theorem manifestPath_injective (noLinks : tree.NoLinksBelow root) {first second : String}
    (firstName : Path.IsName first) (secondName : Path.IsName second) {location : Location}
    (firstThere : tree.locate (manifestPath root first) = .ok location)
    (secondThere : tree.locate (manifestPath root second) = .ok location) : first = second := by
  obtain ⟨ground, there, same⟩ := locate_manifestPath noLinks firstName firstThere
  obtain ⟨other, there', same'⟩ := locate_manifestPath noLinks secondName secondThere
  obtain rfl : ground = other := by
    rw [there] at there'
    cases there'
    rfl
  have tails := List.append_cancel_left (same.symm.trans same')
  exact RawText.of_inj.mp (List.cons.inj tails).1

end Project

end Phrasebook
