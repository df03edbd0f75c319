/-
**What the operations on file trees change.**

Writing a file and creating a directory each put one entry at the place that their path leads to
afterwards (`writeText_eq_ok`, `createDirectory_eq_ok`). `FileTree.Changes` says of two trees that
the second differs from the first in nothing but what is found by certain paths: new directories,
and files with certain texts. Changes add up (`Changes.trans`), so a whole run is told by the paths
that its steps are given.
-/

import Phrasebook.Proofs.Resolution
import Phrasebook.Proofs.Sequence

namespace Phrasebook.FileTree

variable {tree next later : FileTree} {aim : Aim} {path : Path} {location : Location}

/-! ### Resolving -/

/-- What is wrong with a path as it is written. -/
def pathFault? (path : Path) : Option FileError :=
  if path.text.isEmpty then some .notFound
  else if path.text.toList.contains '\x00' then some .nulInPath
  else if Path.longestPath < path.text.utf8ByteSize then some .nameTooLong
  else none

/-- Where the steps of a path begin. -/
def start (tree : FileTree) (path : Path) : Location :=
  if path.isAbsolute then [] else tree.workingDirectory

theorem resolve_eq (tree : FileTree) (aim : Aim) (path : Path) :
    tree.resolve aim path =
      match pathFault? path with
      | some error => .error error
      | none => tree.walkLinks aim linkLimit (tree.start path) path.steps := by
  unfold resolve pathFault?
  by_cases empty : path.text.isEmpty = true
  · rw [if_pos empty, if_pos empty]
  rw [if_neg empty, if_neg empty, resolveSteps]
  by_cases nul : path.text.toList.contains '\x00' = true
  · rw [if_pos nul, if_pos nul]
  rw [if_neg nul, if_neg nul]
  by_cases long : Path.longestPath < path.text.utf8ByteSize
  · rw [if_pos long, if_pos long]
  rw [if_neg long, if_neg long]
  rfl

theorem resolve_eq_ok_iff {spot : Spot} : tree.resolve aim path = .ok spot ↔
    pathFault? path = none ∧
      tree.walkLinks aim linkLimit (tree.start path) path.steps = .ok spot := by
  rw [resolve_eq]
  cases pathFault? path <;> simp

theorem Extends.start_eq (grown : tree.Extends later) (path : Path) :
    later.start path = tree.start path := by
  rw [start, start, grown.workingDirectory_eq]

theorem Rooted.start (rooted : tree.Rooted) (path : Path) :
    tree.find? (tree.start path) = some .directory := by
  rw [FileTree.start]
  split
  · rfl
  · exact rooted.workingDirectory

/-- A path that does not stop at a missing name leads to the same in a tree that has grown. -/
theorem Extends.resolve_eq (grown : tree.Extends later)
    (settled : Settled (tree.resolve aim path)) :
    later.resolve aim path = tree.resolve aim path := by
  rw [FileTree.resolve_eq] at settled ⊢
  rw [FileTree.resolve_eq, grown.start_eq]
  cases fault : pathFault? path with
  | some error => rfl
  | none =>
    rw [fault] at settled
    exact grown.walkLinks_eq _ _ _ _ settled

theorem locate_eq_ok_iff :
    tree.locate path = .ok location ↔ tree.resolve .find path = .ok (.existing location) := by
  rw [locate]
  cases tree.resolve .find path with
  | error error => exact iff_of_false nofun nofun
  | ok spot =>
    cases spot with
    | existing other =>
      show Except.ok other = .ok location ↔ _
      simp
    | vacant directory name =>
      show Except.error FileError.notFound = .ok location ↔ _
      simp

/-- What a path leads to stays where it is. -/
theorem Extends.locate_eq (grown : tree.Extends later) (located : tree.locate path = .ok location) :
    later.locate path = .ok location := by
  rw [locate_eq_ok_iff] at located ⊢
  rw [grown.resolve_eq (by rw [located]; trivial), located]

theorem target?_eq_some_iff {entry : Entry} : tree.target? path = some entry ↔
    ∃ location, tree.locate path = .ok location ∧ tree.find? location = some entry := by
  rw [target?]
  cases tree.locate path with
  | error error => exact iff_of_false nofun nofun
  | ok location => simp

theorem isDirectory_iff : tree.isDirectory path = true ↔
    ∃ location, tree.locate path = .ok location ∧ tree.find? location = some .directory := by
  rw [isDirectory, beq_iff_eq, target?_eq_some_iff]

theorem Extends.isDirectory (grown : tree.Extends later) (before : tree.isDirectory path = true) :
    later.isDirectory path = true := by
  obtain ⟨location, located, directory⟩ := isDirectory_iff.mp before
  exact isDirectory_iff.mpr ⟨location, grown.locate_eq located, grown.directory directory⟩

theorem readBytes_eq_ok_iff {content : ByteArray} : tree.readBytes path = .ok content ↔
    ∃ location, tree.locate path = .ok location ∧
      tree.find? location = some (.file content) := by
  rw [readBytes, bind_eq_ok_iff]
  refine exists_congr fun location => and_congr_right fun _ => ?_
  cases tree.find? location with
  | none => exact iff_of_false nofun nofun
  | some entry => cases entry <;> simp

/-- The file that a path leads to has a text. -/
theorem readText_eq_ok {text : String} (located : tree.locate path = .ok location)
    (found : tree.find? location = some (.file text.toUTF8)) :
    tree.readText path = .ok text := by
  refine bind_eq_ok_iff.mpr ⟨text.toUTF8, readBytes_eq_ok_iff.mpr ⟨_, located, found⟩, ?_⟩
  rw [String.fromUTF8?, String.toUTF8_eq_toByteArray, dif_pos text.isValidUTF8]
  rfl

/-! ### Putting one entry -/

/-- The entry can be put at the location: into a directory, at a free name or instead of a file. -/
structure Fits (tree : FileTree) (location : Location) (entry : Entry) : Prop where
  below : location ≠ []
  above : tree.find? location.dropLast = some .directory
  grows : Grows (tree.find? location) (some entry)

theorem Fits.extends {entry : Entry} (fits : tree.Fits location entry) :
    tree.Extends (tree.place location entry) :=
  extends_place fits.below fits.grows

theorem Fits.rooted {entry : Entry} (fits : tree.Fits location entry) (rooted : tree.Rooted) :
    (tree.place location entry).Rooted := by
  refine ⟨fun probe occupied => fits.extends.directory ?_,
    fits.extends.directory rooted.workingDirectory⟩
  by_cases same : probe = location
  · rw [same]
    exact fits.above
  · rw [find?_place fits.below, if_neg same] at occupied
    exact rooted.above probe occupied

theorem fits_vacant {directory : Location} {name : Name} (entry : Entry)
    (spot : (Spot.vacant directory name).StandsIn tree aim)
    (notLink : ∀ target, entry ≠ .link target) : tree.Fits (directory ++ [name]) entry where
  below := by simp
  above := by
    rw [List.dropLast_concat]
    exact spot.1
  grows := by
    rw [spot.2]
    cases entry with
    | directory => exact .newDirectory
    | file content => exact .newFile
    | link target => exact absurd rfl (notLink target)

theorem writeText_eq_ok (rooted : tree.Rooted) {text : String}
    (written : tree.writeText path text = .ok next) :
    ∃ location, tree.Fits location (.file text.toUTF8) ∧
      next = tree.place location (.file text.toUTF8) ∧ next.locate path = .ok location := by
  rw [writeText] at written
  obtain ⟨spot, resolved, written⟩ := bind_eq_ok_iff.mp written
  obtain ⟨sound, walked⟩ := resolve_eq_ok_iff.mp resolved
  have stands := rooted.standsIn _ _ _ _ (rooted.start path) walked
  cases spot with
  | vacant directory name =>
    cases written
    have fits := fits_vacant (.file text.toUTF8) stands nofun
    refine ⟨_, fits, rfl, locate_eq_ok_iff.mpr (resolve_eq_ok_iff.mpr ⟨sound, ?_⟩)⟩
    rw [fits.extends.start_eq]
    exact walkLinks_of_vacant _ _ _ _ walked fits.extends (find?_place_self fits.below _)
      (.inr ⟨nofun, _, rfl⟩)
  | existing location =>
    have written : (if tree.find? location = some .directory
      then Except.error FileError.isADirectory
      else .ok (tree.place location (.file text.toUTF8))) = .ok next := written
    split at written
    next => cases written
    next noDirectory =>
    cases written
    rcases stands with directory | ⟨older, found⟩ | ⟨other, _⟩
    · exact absurd directory noDirectory
    · have fits : tree.Fits location (.file text.toUTF8) := by
        refine ⟨?_, rooted.above location (by rw [found]; nofun), by rw [found]; exact .newContent⟩
        rintro rfl
        cases found
      refine ⟨location, fits, rfl, fits.extends.locate_eq ?_⟩
      exact locate_eq_ok_iff.mpr (resolve_eq_ok_iff.mpr
        ⟨sound, walkLinks_find_of_writeFile _ _ _ walked⟩)
    · cases other

theorem createDirectory_eq_ok (rooted : tree.Rooted)
    (created : tree.createDirectory path = .ok next) :
    ∃ location, tree.find? location = none ∧ tree.Fits location .directory ∧
      next = tree.place location .directory ∧ next.locate path = .ok location := by
  rw [createDirectory] at created
  obtain ⟨spot, resolved, created⟩ := bind_eq_ok_iff.mp created
  obtain ⟨sound, walked⟩ := resolve_eq_ok_iff.mp resolved
  have stands := rooted.standsIn _ _ _ _ (rooted.start path) walked
  cases spot with
  | existing location => cases created
  | vacant directory name =>
    cases created
    have fits := fits_vacant .directory stands nofun
    refine ⟨_, stands.2, fits, rfl, locate_eq_ok_iff.mpr (resolve_eq_ok_iff.mpr ⟨sound, ?_⟩)⟩
    rw [fits.extends.start_eq]
    exact walkLinks_of_vacant _ _ _ _ walked fits.extends (find?_place_self fits.below _) (.inl rfl)

/-! ### Changes -/

/-- The second tree differs from the first only in directories that are found by the paths `made`
and were missing before, and in files that are found by the paths `written` with their texts. -/
structure Changes (made : Path → Prop) (written : Path → String → Prop) (tree next : FileTree) :
    Prop where
  grown : tree.Extends next
  rooted : tree.Rooted → next.Rooted
  differs : ∀ location, next.find? location ≠ tree.find? location →
    (tree.find? location = none ∧ next.find? location = some .directory ∧
      ∃ path, made path ∧ next.locate path = .ok location) ∨
    ∃ path text, written path text ∧ next.locate path = .ok location ∧
      next.find? location = some (.file text.toUTF8)

variable {made : Path → Prop} {written : Path → String → Prop}

theorem Changes.refl (tree : FileTree) : Changes made written tree tree :=
  ⟨.refl tree, id, fun _ differs => absurd rfl differs⟩

theorem Changes.trans (first : Changes made written tree next)
    (second : Changes made written next later) : Changes made written tree later := by
  refine ⟨first.grown.trans second.grown, second.rooted ∘ first.rooted, fun location differs => ?_⟩
  by_cases late : later.find? location = next.find? location
  · rw [late] at differs ⊢
    rcases first.differs location differs with
      ⟨missing, found, path, isMade, located⟩ | ⟨path, text, isWritten, located, found⟩
    · exact .inl ⟨missing, found, path, isMade, second.grown.locate_eq located⟩
    · exact .inr ⟨path, text, isWritten, second.grown.locate_eq located, found⟩
  · rcases second.differs location late with ⟨missing, found, other⟩ | file
    · refine .inl ⟨?_, found, other⟩
      exact (missing ▸ first.grown.grows location).of_none
    · exact .inr file

theorem Changes.imp {made' : Path → Prop} {written' : Path → String → Prop}
    (changes : Changes made written tree next) (moreMade : ∀ path, made path → made' path)
    (moreWritten : ∀ path text, written path text → written' path text) :
    Changes made' written' tree next :=
  ⟨changes.grown, changes.rooted, fun location differs => by
    rcases changes.differs location differs with
      ⟨missing, found, path, isMade, located⟩ | ⟨path, text, isWritten, located, found⟩
    · exact .inl ⟨missing, found, path, moreMade path isMade, located⟩
    · exact .inr ⟨path, text, moreWritten path text isWritten, located, found⟩⟩

/-- A file keeps its content if nothing is written to where it is. -/
theorem Changes.keeps (changes : Changes made written tree next) {content : ByteArray}
    (file : tree.find? location = some (.file content))
    (apart : ∀ path text, written path text → next.locate path ≠ .ok location) :
    next.find? location = some (.file content) := by
  by_cases same : next.find? location = tree.find? location
  · rw [same, file]
  · rcases changes.differs location same with ⟨missing, _⟩ | ⟨path, text, isWritten, located, _⟩
    · rw [file] at missing
      cases missing
    · exact absurd located (apart path text isWritten)

theorem find?_of_ne_place {entry : Entry} {probe : Location} (fits : tree.Fits location entry)
    (differs : (tree.place location entry).find? probe ≠ tree.find? probe) : probe = location := by
  by_cases same : probe = location
  · exact same
  · rw [find?_place fits.below, if_neg same] at differs
    exact absurd rfl differs

theorem changes_writeText (rooted : tree.Rooted) {text : String}
    (done : tree.writeText path text = .ok next) (isWritten : written path text) :
    Changes made written tree next := by
  obtain ⟨location, fits, rfl, located⟩ := writeText_eq_ok rooted done
  refine ⟨fits.extends, fits.rooted, fun probe differs => ?_⟩
  obtain rfl := find?_of_ne_place fits differs
  exact .inr ⟨path, text, isWritten, located, find?_place_self fits.below _⟩

theorem changes_createDirectory (rooted : tree.Rooted)
    (done : tree.createDirectory path = .ok next) (isMade : made path) :
    Changes made written tree next := by
  obtain ⟨location, missing, fits, rfl, located⟩ := createDirectory_eq_ok rooted done
  refine ⟨fits.extends, fits.rooted, fun probe differs => ?_⟩
  obtain rfl := find?_of_ne_place fits differs
  exact .inl ⟨missing, find?_place_self fits.below _, path, isMade, located⟩

/-! ### Creating directories along a way -/

/-- What comes of a path, with those above it, when they are created. -/
inductive CreatesAlong (tree : FileTree) (path : Path) (parents : List Path) :
    Option FileError → FileTree → Prop where
  | nothing : path.text = "" → CreatesAlong tree path parents none tree
  | created {next : FileTree} : path.text ≠ "" → tree.createDirectory path = .ok next →
      CreatesAlong tree path parents none next
  | refused {error : FileError} : path.text ≠ "" → tree.createDirectory path = .error error →
      error ≠ .notFound →
      CreatesAlong tree path parents (if tree.isDirectory path then none else some error) tree
  | stopped {error : FileError} {next : FileTree} : path.text ≠ "" →
      tree.createDirectory path = .error .notFound →
      tree.createAlong parents = (some error, next) →
      CreatesAlong tree path parents (some error) next
  | createdBelow {next last : FileTree} : path.text ≠ "" →
      tree.createDirectory path = .error .notFound → tree.createAlong parents = (none, next) →
      next.createDirectory path = .ok last → CreatesAlong tree path parents none last
  | refusedBelow {error : FileError} {next : FileTree} : path.text ≠ "" →
      tree.createDirectory path = .error .notFound → tree.createAlong parents = (none, next) →
      next.createDirectory path = .error error →
      CreatesAlong tree path parents (if next.isDirectory path then none else some error) next

theorem createAlong_iff {parents : List Path} {failed : Option FileError} :
    tree.createAlong (path :: parents) = (failed, next) ↔
      CreatesAlong tree path parents failed next := by
  constructor
  · intro done
    rw [createAlong] at done
    by_cases empty : path.text.isEmpty = true
    · rw [if_pos empty] at done
      cases done
      exact .nothing (String.isEmpty_iff.mp empty)
    rw [if_neg empty] at done
    have named : path.text ≠ "" := mt String.isEmpty_iff.mpr empty
    split at done
    next created =>
      cases done
      exact .created named created
    next missing =>
      split at done
      next stopped =>
        cases done
        exact .stopped named missing stopped
      next along =>
        split at done
        next created =>
          cases done
          exact .createdBelow named missing along created
        next refused =>
          cases done
          exact .refusedBelow named missing along refused
    next other refused =>
      cases done
      exact .refused named refused other
  · intro creates
    rw [createAlong]
    cases creates with
    | nothing empty => rw [if_pos (String.isEmpty_iff.mpr empty)]
    | created named created => rw [if_neg (mt String.isEmpty_iff.mp named), created]
    | refused named refused other =>
      rw [if_neg (mt String.isEmpty_iff.mp named), refused]
      split <;> simp_all
    | stopped named missing stopped =>
      rw [if_neg (mt String.isEmpty_iff.mp named), missing]
      simp only [stopped]
    | createdBelow named missing along created =>
      rw [if_neg (mt String.isEmpty_iff.mp named), missing]
      simp only [along, created]
    | refusedBelow named missing along refused =>
      rw [if_neg (mt String.isEmpty_iff.mp named), missing]
      simp only [along, refused]

/-- Only the paths themselves are created, also where not all can be. -/
theorem changes_createAlong (rooted : tree.Rooted) {paths : List Path} {failed : Option FileError}
    (done : tree.createAlong paths = (failed, next)) (areMade : ∀ path ∈ paths, made path) :
    Changes made written tree next := by
  induction paths generalizing tree failed next with
  | nil =>
    cases done
    exact .refl tree
  | cons path parents ih =>
    obtain ⟨isMade, parentsMade⟩ := List.forall_mem_cons.mp areMade
    cases createAlong_iff.mp done with
    | nothing => exact .refl tree
    | created _ created => exact changes_createDirectory rooted created isMade
    | refused => exact .refl tree
    | stopped _ _ stopped => exact ih rooted stopped parentsMade
    | createdBelow _ _ along created =>
      have first := ih rooted along parentsMade
      exact first.trans (changes_createDirectory (first.rooted rooted) created isMade)
    | refusedBelow _ _ along _ => exact ih rooted along parentsMade

theorem isDirectory_of_createDirectory (rooted : tree.Rooted)
    (created : tree.createDirectory path = .ok next) : next.isDirectory path = true := by
  obtain ⟨location, _, fits, rfl, located⟩ := createDirectory_eq_ok rooted created
  exact isDirectory_iff.mpr ⟨location, located, find?_place_self fits.below _⟩

/-- The first of the paths is a directory once it has been created. -/
theorem isDirectory_of_createAlong (rooted : tree.Rooted) {parents : List Path}
    (done : tree.createAlong (path :: parents) = (none, next)) (named : path.text ≠ "") :
    next.isDirectory path = true := by
  have isDirectory {tree : FileTree} {error : FileError}
      (result : (if tree.isDirectory path then none else some error) = none) :
      tree.isDirectory path = true := by
    rw [ite_eq_left_iff] at result
    exact Bool.of_not_eq_false fun other => absurd (result (by simp [other])) nofun
  generalize result : (none : Option FileError) = failed at done
  cases createAlong_iff.mp done with
  | nothing empty => exact absurd empty named
  | created _ created => exact isDirectory_of_createDirectory rooted created
  | refused => exact isDirectory result.symm
  | stopped => cases result
  | createdBelow _ _ along created =>
    have first : Changes (fun _ => True) (fun _ _ => False) tree _ :=
      changes_createAlong rooted along fun _ _ => trivial
    exact isDirectory_of_createDirectory (first.rooted rooted) created
  | refusedBelow => exact isDirectory result.symm

end Phrasebook.FileTree
