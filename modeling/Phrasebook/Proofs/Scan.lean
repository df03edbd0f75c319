/-
**What a scan finds in a directory.**

A directory lists the names under which something stands in it (`mem_children_iff`), each once and in
their order (`children_ascending`). A scan follows the links among them. Either one of these cannot be
followed, and the scan fails at the first such name (`exists_unfollowed_of_scan`); or it finds the
subdirectories (`names_of_scan`).
-/

import Phrasebook.LanguageTable
import Phrasebook.Proofs.Changes
import Phrasebook.Proofs.Sequence

namespace Phrasebook

/-! ### The names in a directory -/

/-- What a directory lists an entry of the tree as, if it is one of its own. -/
def childOf (directory : Location) (entry : Location × Entry) : Option (Name × Entry) :=
  match entry.1.getLast? with
  | some name => if entry.1.dropLast = directory then some (name, entry.2) else none
  | none => none

theorem childOf_eq_some_iff {directory location : Location} {standing entry : Entry}
    {name : Name} : childOf directory (location, standing) = some (name, entry) ↔
      location = directory ++ [name] ∧ standing = entry := by
  rw [childOf]
  dsimp only
  rcases List.eq_nil_or_concat location with rfl | ⟨front, last, rfl⟩
  · simp
  · have apart : front ++ [last] = directory ++ [name] ↔ front = directory ∧ last = name :=
      ⟨fun same => (List.append_inj' same rfl).imp_right List.singleton_inj.mp,
        by rintro ⟨rfl, rfl⟩; rfl⟩
    simp [List.concat_eq_append, apart, and_assoc]

namespace FileTree

variable {tree : FileTree} {directory : Location}

theorem children_eq (tree : FileTree) (directory : Location) :
    tree.children directory = tree.entries.entries.filterMap (childOf directory) := rfl

/-- A directory has exactly the names under which something stands in it. -/
theorem mem_children_iff {name : Name} {entry : Entry} :
    (name, entry) ∈ tree.children directory ↔ tree.find? (directory ++ [name]) = some entry := by
  have below : tree.find? (directory ++ [name]) = tree.entries.find? (directory ++ [name]) := by
    cases directory <;> rfl
  rw [below, Dictionary.find?_eq_some_iff, children_eq, List.mem_filterMap]
  constructor
  · rintro ⟨⟨location, standing⟩, listed, chosen⟩
    obtain ⟨rfl, rfl⟩ := childOf_eq_some_iff.mp chosen
    exact listed
  · exact fun listed => ⟨_, listed, childOf_eq_some_iff.mpr ⟨rfl, rfl⟩⟩

theorem compare_append (location : Location) (first second : Name) :
    compare (location ++ [first]) (location ++ [second]) = compare first second := by
  induction location with
  | nil =>
    show compare [first] [second] = _
    rw [List.compare_cons_cons]
    cases compare first second <;> rfl
  | cons name location ih =>
    rw [List.cons_append, List.cons_append, List.compare_cons_cons, ih,
      Dictionary.compare_self]
    rfl

/-- A directory lists its names in their order, each of them once. -/
theorem children_ascending (tree : FileTree) (directory : Location) :
    ((tree.children directory).map Prod.fst).Pairwise fun first second =>
      compare first second = .lt := by
  rw [List.pairwise_map, children_eq, List.pairwise_filterMap]
  refine tree.entries.ascending.imp ?_
  rintro ⟨location, standing⟩ ⟨other, entry⟩ before ⟨name, _⟩ chosen ⟨next, _⟩ selected
  obtain ⟨rfl, -⟩ := childOf_eq_some_iff.mp chosen
  obtain ⟨rfl, -⟩ := childOf_eq_some_iff.mp selected
  rwa [compare_append] at before

end FileTree

/-! ### What stands in a directory -/

namespace LanguageTable

open FileTree

section Sources

variable (tree : FileTree) (directory : Path)

/-- The name stands for the entry in the directory that the path leads to. -/
def Lists (name : Name) (entry : Entry) : Prop :=
  ∃ root, tree.locate directory = .ok root ∧ tree.find? root = some .directory ∧
    tree.find? (root ++ [name]) = some entry

/-- The name is that of a link which cannot be followed: it leads nowhere, or back to the
directory. -/
inductive Unfollowed (name : Name) : ScanFault → Prop where
  | broken {target : Target} {error : FileError} : Lists tree directory name (.link target) →
      tree.locateIn directory name = .error error →
      Unfollowed name (.file (directory.join ⟨name.shown⟩) error)
  | loop {target : Target} : Lists tree directory name (.link target) →
      tree.locateIn directory name = tree.locate directory →
      Unfollowed name (.loop (directory.join ⟨name.shown⟩) directory)

/-- The name stands for a directory, or for a link to one. -/
inductive Subdirectory (name : Name) : Prop where
  | itself : Lists tree directory name .directory → Subdirectory name
  | linked {target : Target} {location : Location} : Lists tree directory name (.link target) →
      tree.locateIn directory name = .ok location → tree.find? location = some .directory →
      Subdirectory name

end Sources

section Unique

variable {tree : FileTree} {directory : Path} {name : Name}

theorem Lists.unique {one two : Entry} (first : Lists tree directory name one)
    (second : Lists tree directory name two) : one = two := by
  obtain ⟨root, located, _, found⟩ := first
  obtain ⟨_, again, _, also⟩ := second
  cases located.symm.trans again
  exact Option.some.inj (found.symm.trans also)

theorem Unfollowed.unique {one two : ScanFault} (first : Unfollowed tree directory name one)
    (second : Unfollowed tree directory name two) : one = two := by
  cases first with
  | broken listed failed =>
    cases second with
    | broken _ again =>
      cases failed.symm.trans again
      rfl
    | loop _ back =>
      obtain ⟨root, located, _⟩ := listed
      cases failed.symm.trans (back.trans located)
  | loop listed back =>
    cases second with
    | broken _ failed =>
      obtain ⟨root, located, _⟩ := listed
      cases failed.symm.trans (back.trans located)
    | loop => rfl

end Unique

/-! ### The first of several names -/

/-- The name is the first, in the order of names, for which something holds. -/
structure IsFirst (holds : Name → Prop) (name : Name) : Prop where
  here : holds name
  notBefore : ∀ earlier, compare earlier name = .lt → ¬ holds earlier

theorem IsFirst.unique {holds : Name → Prop} {one two : Name} (first : IsFirst holds one)
    (second : IsFirst holds two) : one = two := by
  cases order : compare one two with
  | lt => exact absurd first.here (second.notBefore one order)
  | eq => exact Std.LawfulEqCmp.eq_of_compare order
  | gt => exact absurd second.here (first.notBefore two (Std.OrientedCmp.gt_iff_lt.mp order))

theorem IsFirst.congr {holds others : Name → Prop} {name : Name}
    (same : ∀ name, holds name ↔ others name) (first : IsFirst holds name) :
    IsFirst others name where
  here := (same name).mp first.here
  notBefore earlier less := mt (same earlier).mpr (first.notBefore earlier less)

/-! ### The scan -/

section Scanning

variable {tree : FileTree} {directory : Path} {root : Location} {name : Name} {entry : Entry}
  (located : tree.locate directory = .ok root) (isRoot : tree.find? root = some .directory)
  (listed : tree.find? (root ++ [name]) = some entry)

include located isRoot listed

theorem scanEntry_eq_error_iff {fault : ScanFault} :
    scanEntry tree directory root name entry = .error fault ↔
      Unfollowed tree directory name fault := by
  have lists : Lists tree directory name entry := ⟨root, located, isRoot, listed⟩
  constructor
  · intro failed
    cases entry with
    | directory => cases failed
    | file content => cases failed
    | link target =>
      rw [scanEntry] at failed
      cases leads : tree.locateIn directory name with
      | error error =>
        simp only [leads] at failed
        cases failed
        exact .broken lists leads
      | ok location =>
        simp only [leads] at failed
        split at failed
        · split at failed
          next back =>
            cases failed
            exact .loop lists (by rw [leads, back, located])
          next => cases failed
        · cases failed
  · intro unfollowed
    cases unfollowed with
    | broken again failed =>
      cases lists.unique again
      simp only [scanEntry, failed]
    | loop again back =>
      cases lists.unique again
      simp only [scanEntry, back, located, isRoot, if_true]

theorem subdirectory_iff_of_scanEntry {isDirectory : Bool}
    (scanned : scanEntry tree directory root name entry = .ok isDirectory) :
    isDirectory = true ↔ Subdirectory tree directory name := by
  have lists : Lists tree directory name entry := ⟨root, located, isRoot, listed⟩
  cases entry with
  | directory =>
    cases scanned
    exact iff_of_true rfl (.itself lists)
  | file content =>
    cases scanned
    refine iff_of_false nofun fun subdirectory => ?_
    cases subdirectory with
    | itself again => cases lists.unique again
    | linked again => cases lists.unique again
  | link target =>
    have directory_iff : Subdirectory tree directory name ↔ ∃ location,
        tree.locateIn directory name = .ok location ∧ tree.find? location = some .directory := by
      refine ⟨fun subdirectory => ?_, fun ⟨_, leads, found⟩ => .linked lists leads found⟩
      cases subdirectory with
      | itself again => cases lists.unique again
      | linked _ leads found => exact ⟨_, leads, found⟩
    rw [directory_iff]
    rw [scanEntry] at scanned
    cases leads : tree.locateIn directory name with
    | error error =>
      simp only [leads] at scanned
      cases scanned
    | ok location =>
      simp only [leads] at scanned
      split at scanned
      next found =>
        split at scanned
        · cases scanned
        · cases scanned
          exact iff_of_true rfl ⟨location, rfl, found⟩
      next other =>
        cases scanned
        refine iff_of_false nofun ?_
        rintro ⟨_, same, found⟩
        cases same
        exact other found

end Scanning

/-- The name of an entry, if it stands for a directory. -/
def directoryName? (tree : FileTree) (directory : Path) (root : Location)
    (entry : Name × Entry) : Except ScanFault (Option Name) :=
  (scanEntry tree directory root entry.1 entry.2).map fun isDirectory =>
    if isDirectory then some entry.1 else none

theorem scanEntries_eq (tree : FileTree) (directory : Path) (root : Location)
    (entries : List (Name × Entry)) : scanEntries tree directory root entries =
      (entries.mapM (directoryName? tree directory root)).map List.reduceOption := by
  induction entries with
  | nil => rfl
  | cons entry entries ih =>
    rw [scanEntries, ih, List.mapM_cons, directoryName?]
    cases scanEntry tree directory root entry.1 entry.2 with
    | error fault => rfl
    | ok isDirectory =>
      cases entries.mapM (directoryName? tree directory root) with
      | error fault => rfl
      | ok names => cases isDirectory <;> rfl

theorem directoryName?_eq_ok_some_iff {tree : FileTree} {directory : Path} {root : Location}
    {entry : Name × Entry} {name : Name} :
    directoryName? tree directory root entry = .ok (some name) ↔
      scanEntry tree directory root entry.1 entry.2 = .ok true ∧ entry.1 = name := by
  rw [directoryName?]
  cases scanEntry tree directory root entry.1 entry.2 with
  | error fault => simp [Except.map]
  | ok isDirectory => cases isDirectory <;> simp [Except.map]

section Scan

variable {tree : FileTree} {directory : Path} {root : Location} {name : Name}

theorem Unfollowed.lists {fault : ScanFault} (unfollowed : Unfollowed tree directory name fault) :
    ∃ target, Lists tree directory name (.link target) := by
  cases unfollowed with
  | broken listed => exact ⟨_, listed⟩
  | loop listed => exact ⟨_, listed⟩

theorem Unfollowed.located {fault : ScanFault} (unfollowed : Unfollowed tree directory name fault) :
    ∃ root, tree.locate directory = .ok root :=
  let ⟨_, root, located, _⟩ := unfollowed.lists
  ⟨root, located⟩

theorem Subdirectory.lists (subdirectory : Subdirectory tree directory name) :
    ∃ entry, Lists tree directory name entry := by
  cases subdirectory with
  | itself listed => exact ⟨_, listed⟩
  | linked listed => exact ⟨_, listed⟩

theorem Lists.mem_children {entry : Entry} (lists : Lists tree directory name entry)
    (located : tree.locate directory = .ok root) : (name, entry) ∈ tree.children root := by
  obtain ⟨_, again, _, found⟩ := lists
  cases located.symm.trans again
  exact mem_children_iff.mpr found

/-- A scan fails at the first link that cannot be followed. -/
theorem exists_unfollowed_of_scan (located : tree.locate directory = .ok root) {fault : ScanFault}
    (failed : scan tree directory = .error fault) :
    ∃ name, IsFirst (fun name => ∃ fault, Unfollowed tree directory name fault) name ∧
      Unfollowed tree directory name fault := by
  rw [scan, located] at failed
  dsimp only at failed
  split at failed
  next isRoot =>
    rw [scanEntries_eq, map_eq_error_iff] at failed
    obtain ⟨⟨name, entry⟩, member, fails, fine⟩ :=
      exists_first_failure Prod.fst (children_ascending tree root) failed
    have unfollowed := (scanEntry_eq_error_iff located isRoot (mem_children_iff.mp member)).mp
      (map_eq_error_iff.mp fails)
    refine ⟨name, ⟨⟨fault, unfollowed⟩, fun earlier less => ?_⟩, unfollowed⟩
    rintro ⟨other, sooner⟩
    obtain ⟨target, lists⟩ := sooner.lists
    have child := lists.mem_children located
    obtain ⟨result, done⟩ := fine _ child less
    obtain ⟨_, scanned, _⟩ := map_eq_ok_iff.mp done
    have faulty := (scanEntry_eq_error_iff located isRoot (mem_children_iff.mp child)).mpr sooner
    cases scanned.symm.trans faulty
  next => cases failed

section Children

variable (located : tree.locate directory = .ok root) (isRoot : tree.find? root = some .directory)
  {kept : List (Option Name)}
  (done : (tree.children root).mapM (directoryName? tree directory root) = .ok kept)

include located done

theorem exists_scanEntry_eq_ok {entry : Entry} (lists : Lists tree directory name entry) :
    ∃ isDirectory, scanEntry tree directory root name entry = .ok isDirectory := by
  obtain ⟨_, work⟩ := exists_ok_of_mapM done (lists.mem_children located)
  obtain ⟨isDirectory, scanned, _⟩ := map_eq_ok_iff.mp work
  exact ⟨isDirectory, scanned⟩

include isRoot

theorem not_unfollowed_of_children {fault : ScanFault} :
    ¬ Unfollowed tree directory name fault := by
  intro unfollowed
  obtain ⟨target, lists⟩ := unfollowed.lists
  obtain ⟨isDirectory, scanned⟩ := exists_scanEntry_eq_ok located done lists
  have child := mem_children_iff.mp (lists.mem_children located)
  cases scanned.symm.trans ((scanEntry_eq_error_iff located isRoot child).mpr unfollowed)

theorem mem_reduceOption_iff_subdirectory :
    name ∈ kept.reduceOption ↔ Subdirectory tree directory name := by
  rw [List.reduceOption_mem_iff, mem_of_mapM done]
  constructor
  · rintro ⟨⟨_, entry⟩, member, work⟩
    obtain ⟨scanned, rfl⟩ := directoryName?_eq_ok_some_iff.mp work
    have child := mem_children_iff.mp member
    exact (subdirectory_iff_of_scanEntry located isRoot child scanned).mp rfl
  · intro subdirectory
    obtain ⟨entry, lists⟩ := subdirectory.lists
    obtain ⟨isDirectory, scanned⟩ := exists_scanEntry_eq_ok located done lists
    have child := mem_children_iff.mp (lists.mem_children located)
    obtain rfl :=
      (subdirectory_iff_of_scanEntry located isRoot child scanned).mpr subdirectory
    exact ⟨_, lists.mem_children located, directoryName?_eq_ok_some_iff.mpr ⟨scanned, rfl⟩⟩

end Children

theorem exists_located_of_scan {names : List Name} (scanned : scan tree directory = .ok names) :
    ∃ root, tree.locate directory = .ok root := by
  cases located : tree.locate directory with
  | error error =>
    rw [scan, located] at scanned
    cases scanned
  | ok root => exact ⟨root, rfl⟩

/-- A scan that follows all links finds the subdirectories, in their order. -/
theorem names_of_scan (located : tree.locate directory = .ok root) {names : List Name}
    (scanned : scan tree directory = .ok names) :
    (∀ name fault, ¬ Unfollowed tree directory name fault) ∧
      (names.Pairwise fun first second => compare first second = .lt) ∧
      ∀ name, name ∈ names ↔ Subdirectory tree directory name := by
  rw [scan, located] at scanned
  dsimp only at scanned
  split at scanned
  next isRoot =>
    rw [scanEntries_eq] at scanned
    obtain ⟨kept, done, rfl⟩ := map_eq_ok_iff.mp scanned
    refine ⟨fun _ _ => not_unfollowed_of_children located isRoot done, ?_,
      fun _ => mem_reduceOption_iff_subdirectory located isRoot done⟩
    have sublist := sublist_reduceOption done fun entry name found =>
      (directoryName?_eq_ok_some_iff.mp found).2.symm
    rw [List.map_id'] at sublist
    exact (children_ascending tree root).sublist sublist
  next other =>
    cases scanned
    have nothing {name : Name} {entry : Entry} : ¬ Lists tree directory name entry := by
      rintro ⟨_, again, isRoot, _⟩
      cases located.symm.trans again
      exact other isRoot
    refine ⟨fun name fault unfollowed => ?_, .nil, fun name => iff_of_false nofun fun inside => ?_⟩
    · obtain ⟨target, lists⟩ := unfollowed.lists
      exact nothing lists
    · obtain ⟨entry, lists⟩ := inside.lists
      exact nothing lists

end Scan

end LanguageTable

end Phrasebook
