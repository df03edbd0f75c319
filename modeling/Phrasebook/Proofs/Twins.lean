/-
**Trees that differ in the bytes of one file.**

Two trees are twins if they are equal, or if the second is the first with other bytes in the file at
a certain location (`FileTree.Twins`). Paths lead to the same in both, since no walk looks into a file
(`FileTree.Alike.walkLinks_eq`), and the same directories are found in both
(`LanguageTable.scan_of_twins`). So only to read the file can tell twins apart: every operation that
changes trees fails alike on twins or leaves twins behind, equal ones when it writes that file
(`FileTree.Twins.put`).

A build reads files only while it loads the templates. Where that comes to the same on twins, so does
the whole build (`Project.build_edited`).
-/

import Phrasebook.Build
import Phrasebook.Proofs.Scan
import Phrasebook.Settings

namespace Phrasebook

namespace FileTree

/-! ### Trees alike for walks -/

/-- What stands in one place of two trees, of which a walk cannot tell the difference. -/
inductive AlikeEntry : Option Entry → Option Entry → Prop where
  | same (entry : Option Entry) : AlikeEntry entry entry
  | files (first second : ByteArray) : AlikeEntry (some (.file first)) (some (.file second))

/-- The trees differ in nothing but the bytes of files. -/
structure Alike (first second : FileTree) : Prop where
  workingDirectory : second.workingDirectory = first.workingDirectory
  entries : ∀ location, AlikeEntry (first.find? location) (second.find? location)

variable {first second tree : FileTree} {aim : Aim} {path : Path} {location : Location}

/-- **No walk looks into a file.** -/
theorem Alike.walkLinks_eq (alike : Alike first second) (links : Nat) (here : Location)
    (steps : List Path.Step) :
    second.walkLinks aim links here steps = first.walkLinks aim links here steps := by
  induction links, here, steps using walk_induction with
  | nil links here => simp
  | skip links here steps ih => simpa using ih
  | stay links here steps ih => simpa using ih
  | up links here steps ih => simpa using ih
  | enter links here name steps inside beyond =>
    rw [walkLinks_enter, walkLinks_enter]
    have standing := alike.entries (here ++ [name])
    generalize first.find? (here ++ [name]) = old at standing
    generalize second.find? (here ++ [name]) = new at standing
    cases standing with
    | files older newer => rfl
    | same =>
      cases old with
      | none => rfl
      | some entry =>
        cases entry with
        | file content => rfl
        | directory => rw [inside]
        | link target =>
          cases links with
          | zero => rfl
          | succ fewer => simp only [follow, beyond fewer _ target rfl]

theorem Alike.resolve_eq (alike : Alike first second) (aim : Aim) (path : Path) :
    second.resolve aim path = first.resolve aim path := by
  rw [FileTree.resolve_eq, FileTree.resolve_eq, FileTree.start, FileTree.start,
    alike.workingDirectory, alike.walkLinks_eq]

theorem Alike.locateIn_eq (alike : Alike first second) (directory : Path) (name : Name) :
    second.locateIn directory name = first.locateIn directory name := by
  simp only [locateIn, resolveSteps, alike.workingDirectory, alike.walkLinks_eq]

theorem Alike.locate_eq (alike : Alike first second) (path : Path) :
    second.locate path = first.locate path := by
  rw [locate, locate, alike.resolve_eq]

theorem Alike.directory_iff (alike : Alike first second) (location : Location) :
    second.find? location = some .directory ↔ first.find? location = some .directory := by
  have standing := alike.entries location
  generalize first.find? location = old at standing
  generalize second.find? location = new at standing
  cases standing with
  | same => rfl
  | files older newer => exact iff_of_false nofun nofun

theorem Alike.isFile_eq (alike : Alike first second) (path : Path) :
    second.isFile path = first.isFile path := by
  rw [isFile, isFile, target?, target?, alike.locate_eq]
  cases first.locate path with
  | error error => rfl
  | ok location =>
    have standing := alike.entries location
    simp only
    generalize first.find? location = old at standing
    generalize second.find? location = new at standing
    cases standing <;> rfl

theorem Alike.isDirectory_eq (alike : Alike first second) (path : Path) :
    second.isDirectory path = first.isDirectory path := by
  rw [Bool.eq_iff_iff, isDirectory_iff, isDirectory_iff, alike.locate_eq]
  simp only [alike.directory_iff]

/-! ### Twins -/

/-- The trees are equal, or the second is the first with other bytes in the file at the place. -/
inductive Twins (place : Location) (own other : ByteArray) : FileTree → FileTree → Prop where
  | equal (tree : FileTree) : Twins place own other tree tree
  | edited {tree : FileTree} : tree.find? place = some (.file own) →
      Twins place own other tree (tree.place place (.file other))

variable {place : Location} {own other : ByteArray}

theorem ne_nil_of_file {content : ByteArray} (found : tree.find? location = some (.file content)) :
    location ≠ [] := by
  rintro rfl
  cases found

/-- The tree with other bytes in a file. -/
theorem find?_edited (found : tree.find? place = some (.file own)) (probe : Location) :
    (tree.place place (.file other)).find? probe =
      if probe = place then some (.file other) else tree.find? probe :=
  find?_place (ne_nil_of_file found) _ _

theorem Twins.alike (twins : Twins place own other first second) : Alike first second := by
  cases twins with
  | equal => exact ⟨rfl, fun location => .same _⟩
  | edited found =>
    refine ⟨rfl, fun location => ?_⟩
    rw [find?_edited found]
    split
    next same => rw [same, found]; exact .files own other
    next => exact .same _

/-- Apart from the place twins are the same. -/
theorem Twins.find?_eq (twins : Twins place own other first second) (apart : location ≠ place) :
    second.find? location = first.find? location := by
  cases twins with
  | equal => rfl
  | edited found => rw [find?_edited found, if_neg apart]

/-- What is put in both keeps twins; at the place it makes them equal. -/
theorem Twins.put (twins : Twins place own other first second) (below : location ≠ [])
    (entry : Entry) :
    Twins place own other (first.place location entry) (second.place location entry) := by
  cases twins with
  | equal => exact .equal _
  | edited found =>
    by_cases apart : location = place
    · rw [apart, place_place]
      exact .equal _
    · rw [place_comm (Ne.symm apart)]
      refine .edited ?_
      rw [find?_place below, if_neg (Ne.symm apart), found]

/-! ### Operations on twins -/

/-- Results that are the same, with trees that are twins. -/
def TwinResults {α : Type} (place : Location) (own other : ByteArray)
    (first second : α × FileTree) : Prop :=
  first.1 = second.1 ∧ Twins place own other first.2 second.2

/-- What comes of changing one tree or the other. -/
inductive TwinChanges (place : Location) (own other : ByteArray) :
    Except FileError FileTree → Except FileError FileTree → Prop where
  | failed (error : FileError) : TwinChanges place own other (.error error) (.error error)
  | changed {first second : FileTree} : Twins place own other first second →
      TwinChanges place own other (.ok first) (.ok second)

theorem Twins.writeText (twins : Twins place own other first second) (path : Path)
    (text : String) :
    TwinChanges place own other (first.writeText path text) (second.writeText path text) := by
  rw [FileTree.writeText, FileTree.writeText, twins.alike.resolve_eq]
  cases first.resolve .writeFile path with
  | error error => exact .failed error
  | ok spot =>
    cases spot with
    | vacant directory name => exact .changed (twins.put (by simp) _)
    | existing location =>
      show TwinChanges place own other
        (if first.find? location = some .directory then .error .isADirectory else .ok _)
        (if second.find? location = some .directory then .error .isADirectory else .ok _)
      simp only [twins.alike.directory_iff]
      split
      next => exact .failed _
      next noDirectory =>
        refine .changed (twins.put ?_ _)
        rintro rfl
        exact noDirectory rfl

theorem Twins.createDirectory (twins : Twins place own other first second) (path : Path) :
    TwinChanges place own other (first.createDirectory path) (second.createDirectory path) := by
  rw [FileTree.createDirectory, FileTree.createDirectory, twins.alike.resolve_eq]
  cases first.resolve .createDirectory path with
  | error error => exact .failed error
  | ok spot =>
    cases spot with
    | vacant directory name => exact .changed (twins.put (by simp) _)
    | existing location => exact .failed _

theorem Twins.createAlong (twins : Twins place own other first second) (paths : List Path) :
    TwinResults place own other (first.createAlong paths) (second.createAlong paths) := by
  induction paths with
  | nil => exact ⟨rfl, twins⟩
  | cons path parents ih =>
    rw [FileTree.createAlong, FileTree.createAlong, twins.alike.isDirectory_eq]
    split
    next => exact ⟨rfl, twins⟩
    next =>
    have made := twins.createDirectory path
    generalize first.createDirectory path = one at made
    generalize second.createDirectory path = two at made
    cases made with
    | changed later => exact ⟨rfl, later⟩
    | failed error =>
      by_cases missing : error = .notFound
      · subst missing
        obtain ⟨same, later⟩ := ih
        generalize first.createAlong parents = one at same later
        generalize second.createAlong parents = two at same later
        obtain ⟨failed, first⟩ := one
        obtain ⟨_, second⟩ := two
        obtain rfl : failed = _ := same
        cases failed with
        | some error => exact ⟨rfl, later⟩
        | none =>
          have made := later.createDirectory path
          have standing := later.alike.isDirectory_eq path
          simp only at made standing ⊢
          generalize first.createDirectory path = one at made
          generalize second.createDirectory path = two at made
          cases made with
          | changed last => exact ⟨rfl, last⟩
          | failed error =>
            simp only [standing]
            exact ⟨rfl, later⟩
      · cases error with
        | notFound => exact absurd rfl missing
        | _ => exact ⟨rfl, twins⟩

theorem Twins.createDirectories (twins : Twins place own other first second) (path : Path) :
    TwinResults place own other (first.createDirectories path) (second.createDirectories path) :=
  twins.createAlong path.ancestors

end FileTree

open FileTree

/-! ### Scanning twins -/

section Scanning

variable {first second tree : FileTree} {place : Location} {own other : ByteArray}

/-- The trees list the same names in a place, for things that a walk cannot tell apart. -/
def SameListing (first second : List (Name × Entry)) : Prop :=
  List.Forall₂ (fun one two => one.1 = two.1 ∧ AlikeEntry (some one.2) (some two.2)) first second

theorem entries_edited (found : tree.find? place = some (.file own)) :
    (tree.entries.insert place (.file other)).entries = tree.entries.entries.map fun entry =>
      (entry.1, if entry.1 = place then .file other else entry.2) := by
  have listed : tree.entries.find? place = some (.file own) := by
    cases place with
    | nil => cases found
    | cons name names => exact found
  have changed : tree.entries.insert place (.file other) =
      tree.entries.mapValues fun location entry =>
        if location = place then .file other else entry := by
    refine Dictionary.ext_find? fun probe => ?_
    rw [Dictionary.find?_insert, Dictionary.find?_mapValues]
    by_cases same : probe = place
    · rw [same, if_pos Std.ReflCmp.compare_self, listed, Option.map_some, if_pos rfl]
    · rw [if_neg (mt Std.compare_eq_iff_eq.mp same)]
      simp [same]
  rw [changed]
  rfl

theorem FileTree.Twins.children (twins : Twins place own other first second) (directory : Location) :
    SameListing (first.children directory) (second.children directory) := by
  cases twins with
  | equal => exact List.forall₂_same.mpr fun _ _ => ⟨rfl, .same _⟩
  | edited found =>
    have below := ne_nil_of_file found
    have alike : List.Forall₂ (fun one two => one.1 = two.1 ∧ AlikeEntry (some one.2) (some two.2))
        first.entries.entries (first.entries.insert place (.file other)).entries := by
      rw [entries_edited found, List.forall₂_map_right_iff, List.forall₂_same]
      rintro ⟨location, entry⟩ listed
      refine ⟨rfl, ?_⟩
      show AlikeEntry (some entry) (some (if location = place then .file other else entry))
      split
      next same =>
        have standing : first.find? place = some entry := by
          cases place with
          | nil => exact absurd rfl below
          | cons name names => exact Dictionary.find?_eq_some_iff.mpr (same ▸ listed)
        cases found.symm.trans standing
        exact .files own other
      next => exact .same _
    rw [children_eq, children_eq]
    refine List.rel_filterMap (fun one two related => ?_) alike
    obtain ⟨location, old⟩ := one
    obtain ⟨_, new⟩ := two
    obtain ⟨rfl, standing⟩ := related
    simp only [childOf]
    cases location.getLast? with
    | none => exact .none
    | some name =>
      show Option.Rel _ (if location.dropLast = directory then some (name, old) else none)
        (if location.dropLast = directory then some (name, new) else none)
      split
      · exact .some ⟨rfl, standing⟩
      · exact .none

namespace LanguageTable

theorem scanEntry_of_alike (alike : Alike first second) (directory : Path) (root : Location)
    (name : Name) {old new : Entry} (standing : AlikeEntry (some old) (some new)) :
    scanEntry second directory root name new = scanEntry first directory root name old := by
  cases standing with
  | files => rfl
  | same =>
    cases old with
    | directory => rfl
    | file content => rfl
    | link target =>
      simp only [scanEntry, alike.locateIn_eq, alike.directory_iff]

theorem scanEntries_of_alike (alike : Alike first second) (directory : Path) (root : Location)
    {old new : List (Name × Entry)} (listing : SameListing old new) :
    scanEntries second directory root new = scanEntries first directory root old := by
  induction listing with
  | nil => rfl
  | cons related _ ih =>
    obtain ⟨same, standing⟩ := related
    rw [scanEntries, scanEntries, ← same, scanEntry_of_alike alike _ _ _ standing, ih]

/-- The same directories are found in twins. -/
theorem scan_of_twins (twins : Twins place own other first second) (directory : Path) :
    scan second directory = scan first directory := by
  rw [scan, scan, twins.alike.locate_eq]
  cases first.locate directory with
  | error error => rfl
  | ok root =>
    simp only [twins.alike.directory_iff,
      scanEntries_of_alike twins.alike directory root (twins.children root)]

end LanguageTable

end Scanning

/-! ### Reading the file -/

/-- What comes of reading files in one tree or the other: the same, or a fault in the file at the
place. -/
inductive SameReading {α : Type} (place : Location) (tree : FileTree) :
    Except BuildError α → Except BuildError α → Prop where
  | same (result : Except BuildError α) : SameReading place tree result result
  | catalog {path : Path} (mine theirs : Json.Fault) : tree.locate path = .ok place →
      SameReading place tree (.error (.malformedSettings path mine))
        (.error (.malformedSettings path theirs))
  | templates {path : Path} (mine theirs : Json.Fault) : tree.locate path = .ok place →
      SameReading place tree (.error (.malformedTemplates path mine))
        (.error (.malformedTemplates path theirs))

section Reading

variable {α β : Type} {tree : FileTree} {place : Location} {text edited : String}

theorem SameReading.bind {first second : Except BuildError α} {next : α → Except BuildError β}
    {other : α → Except BuildError β} (reading : SameReading place tree first second)
    (later : ∀ value, SameReading place tree (next value) (other value)) :
    SameReading place tree (first >>= next) (second >>= other) := by
  cases reading with
  | same =>
    cases first with
    | error error => exact .same _
    | ok value => exact later value
  | catalog mine theirs located => exact .catalog mine theirs located
  | templates mine theirs located => exact .templates mine theirs located

theorem SameReading.map {first second : Except BuildError α}
    (reading : SameReading place tree first second) (change : α → β) :
    SameReading place tree (first.map change) (second.map change) := by
  cases reading with
  | same => exact .same _
  | catalog mine theirs located => exact .catalog mine theirs located
  | templates mine theirs located => exact .templates mine theirs located

/-- To read a file of twins is to read the same, or the file at the place. -/
theorem readText_edited (found : tree.find? place = some (.file text.toUTF8)) (path : Path) :
    (tree.place place (.file edited.toUTF8)).readText path = tree.readText path ∨
      tree.locate path = .ok place ∧ tree.readText path = .ok text ∧
        (tree.place place (.file edited.toUTF8)).readText path = .ok edited := by
  have twins : Twins place text.toUTF8 edited.toUTF8 tree _ := .edited found
  by_cases here : tree.locate path = .ok place
  · have there := (twins.alike.locate_eq path).trans here
    exact .inr ⟨here, readText_eq_ok here found,
      readText_eq_ok there (by rw [find?_edited found, if_pos rfl])⟩
  · have bytes : (tree.place place (.file edited.toUTF8)).readBytes path = tree.readBytes path := by
      rw [readBytes, readBytes, twins.alike.locate_eq]
      cases located : tree.locate path with
      | error error => rfl
      | ok location =>
        have apart : location ≠ place := fun same => here (same ▸ located)
        simp only [bind, Except.bind, twins.find?_eq apart]
    exact .inl (by rw [readText, readText, bytes])

/-- The text reads neither as an entity table nor as a template table. -/
structure NoTable (text : String) : Prop where
  entities : ∃ fault, EntityTable.format.readText text = .error fault
  templates : ∃ fault, TemplateTable.format.readText text = .error fault

variable (found : tree.find? place = some (.file text.toUTF8)) (mine : NoTable text)
  (theirs : NoTable edited)
include found mine theirs

theorem loadEntityTable_edited (path : Path) :
    SameReading place tree (EntityTable.load tree path)
      (EntityTable.load (tree.place place (.file edited.toUTF8)) path) := by
  rcases readText_edited found path with same | ⟨located, readMine, readTheirs⟩
  · rw [EntityTable.load, EntityTable.load, same]
    exact .same _
  · obtain ⟨faultMine, failsMine⟩ := mine.entities
    obtain ⟨faultTheirs, failsTheirs⟩ := theirs.entities
    simp only [EntityTable.load, readMine, readTheirs, failsMine, failsTheirs]
    exact .catalog _ _ located

namespace LanguageTable

theorem readTemplates_edited (path : Path) :
    SameReading place tree (readTemplates tree path)
      (readTemplates (tree.place place (.file edited.toUTF8)) path) := by
  rcases readText_edited found path with same | ⟨located, readMine, readTheirs⟩
  · rw [readTemplates, readTemplates, same]
    exact .same _
  · obtain ⟨faultMine, failsMine⟩ := mine.templates
    obtain ⟨faultTheirs, failsTheirs⟩ := theirs.templates
    simp only [readTemplates, readMine, readTheirs, failsMine, failsTheirs]
    exact .templates _ _ located

theorem readLanguages_edited (directory : Path) (fileName : String) (names : List Name) :
    SameReading place tree (readLanguages tree directory fileName names)
      (readLanguages (tree.place place (.file edited.toUTF8)) directory fileName names) := by
  induction names with
  | nil => exact .same _
  | cons name names ih =>
    have twins : Twins place text.toUTF8 edited.toUTF8 tree _ := .edited found
    rw [readLanguages, readLanguages]
    cases name.text? with
    | none => exact ih
    | some language =>
      simp only [twins.alike.isFile_eq]
      split
      next =>
        exact (readTemplates_edited found mine theirs _).bind fun templates =>
          ih.bind fun rest => .same _
      next => exact ih

theorem load_edited (directory : Path) (fileName : String) :
    SameReading place tree (load tree directory fileName)
      (load (tree.place place (.file edited.toUTF8)) directory fileName) := by
  rw [load, load, scan_of_twins (.edited found)]
  cases scan tree directory with
  | error fault => exact .same _
  | ok names =>
    exact (readLanguages_edited found mine theirs directory fileName names).map Dictionary.ofList

end LanguageTable

end Reading

/-! ### Builds on twins -/

/-- The generator treats twins alike and leaves twins. -/
def Generator.KeepsTwins (generator : Generator) : Prop :=
  ∀ place own other delivery first second, Twins place own other first second →
    TwinResults place own other (generator.run delivery first) (generator.run delivery second)

theorem Generator.keepsTwins_json (pretty : Bool) : (json pretty).KeepsTwins := by
  intro place own other delivery first second twins
  have written := twins.writeText (delivery.outputDirectory.join ⟨manifestFileName⟩)
    (manifestText pretty (Manifest.ofConfigurations delivery.language delivery.configurations))
  simp only [json]
  generalize first.writeText _ _ = one at written
  generalize second.writeText _ _ = two at written
  cases written with
  | failed error => exact ⟨rfl, twins⟩
  | changed later => exact ⟨rfl, later⟩

namespace Project

variable {project : Project} {place : Location} {own other : ByteArray} {first second : FileTree}

theorem deliver_of_twins (delivery : Delivery) (position : Nat) {generators : List Generator}
    (keep : ∀ generator ∈ generators, generator.KeepsTwins)
    (twins : Twins place own other first second) :
    TwinResults place own other (deliver delivery position generators first)
      (deliver delivery position generators second) := by
  induction generators generalizing position first second with
  | nil => exact ⟨rfl, twins⟩
  | cons generator generators ih =>
    obtain ⟨ran, later⟩ := keep generator List.mem_cons_self _ _ _ delivery _ _ twins
    obtain ⟨rest, last⟩ :=
      ih (position + 1) (fun other member => keep other (List.mem_cons_of_mem _ member)) later
    simp only [deliver]
    exact ⟨by rw [ran, rest], last⟩

theorem buildOne_of_twins (keep : ∀ generator ∈ project.generators, generator.KeepsTwins)
    (root : Path) (language : String) (base : TemplateTable)
    (twins : Twins place own other first second) :
    TwinResults place own other (project.buildOne root language base first)
      (project.buildOne root language base second) := by
  obtain ⟨created, later⟩ := twins.createDirectories (outputDirectory root language)
  simp only [buildOne]
  generalize first.createDirectories _ = one at created later
  generalize second.createDirectories _ = two at created later
  obtain ⟨failed, first⟩ := one
  obtain ⟨_, second⟩ := two
  obtain rfl : failed = _ := created
  cases failed with
  | some error => exact ⟨rfl, later⟩
  | none =>
    cases project.compile language base with
    | error error => exact ⟨rfl, later⟩
    | ok compilation =>
      obtain ⟨delivered, last⟩ := deliver_of_twins
        ⟨language, outputDirectory root language, compilation.configurations⟩ 0 keep later
      exact ⟨congrArg (BuildOutcome.append _) delivered, last⟩

theorem buildAll_of_twins (keep : ∀ generator ∈ project.generators, generator.KeepsTwins)
    (root : Path) (languages : List (String × TemplateTable))
    (twins : Twins place own other first second) :
    TwinResults place own other (project.buildAll root languages first)
      (project.buildAll root languages second) := by
  induction languages generalizing first second with
  | nil => exact ⟨rfl, twins⟩
  | cons entry languages ih =>
    obtain ⟨language, base⟩ := entry
    obtain ⟨built, later⟩ := buildOne_of_twins keep root language base twins
    obtain ⟨rest, last⟩ := ih later
    simp only [buildAll]
    exact ⟨by rw [built, rest], last⟩

/-- **A build on twins** comes to the same, unless it reads the file in which they differ, and leaves
twins. -/
theorem build_edited (keep : ∀ generator ∈ project.generators, generator.KeepsTwins)
    (root : Path) {tree : FileTree} {text edited : String}
    (found : tree.find? place = some (.file text.toUTF8)) (mine : NoTable text)
    (theirs : NoTable edited) :
    SameReading place tree (project.build root tree).1.result
        (project.build root (tree.place place (.file edited.toUTF8))).1.result ∧
      Twins place text.toUTF8 edited.toUTF8 (project.build root tree).2
        (project.build root (tree.place place (.file edited.toUTF8))).2 := by
  have twins : Twins place text.toUTF8 edited.toUTF8 tree _ := .edited found
  have loaded := LanguageTable.load_edited found mine theirs project.templateDirectory
    project.templateFile
  rw [build, build]
  generalize LanguageTable.load tree _ _ = one at loaded
  generalize LanguageTable.load (tree.place place _) _ _ = two at loaded
  cases loaded with
  | catalog mine theirs located => exact ⟨.catalog _ _ located, twins⟩
  | templates mine theirs located => exact ⟨.templates _ _ located, twins⟩
  | same =>
    cases one with
    | error error => exact ⟨.same _, twins⟩
    | ok table =>
      obtain ⟨built, later⟩ := buildAll_of_twins keep root table.entries twins
      refine ⟨?_, later⟩
      show SameReading place tree (project.buildAll root table.entries tree).1.result
        (project.buildAll root table.entries (tree.place place _)).1.result
      rw [built]
      exact .same _

end Project

end Phrasebook
