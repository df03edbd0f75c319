/-
**Creating the build root.**

The paths above an output directory are the same for all languages (`Path.above`), so the first
language that is built creates them for all. `Project.withBuildRoot` gives the tree in which this
was tried. Either the build root leads to a directory there, or it never does:

* creating the same paths again changes nothing and fails if it did before, though perhaps for
  another reason (`createAlong_again`);
* a language whose output directory is not written as a path is refused everywhere
  (`createDirectories_of_fault`);
* every other language tries the build root first. If it leads to a directory then, the language
  goes on from there, otherwise it is refused (`attempt_of_sound`).
-/

import Phrasebook.Proofs.OutputDirectories

namespace Phrasebook

open FileTree

variable {tree next : FileTree}

/-! ### The way to a directory -/

theorem FileTree.Fails.not_leads {links left : Nat} {here there : Location} {steps : List Path.Step}
    {error : FileError} (fails : tree.Fails links here steps error) :
    ¬tree.Leads links here steps left there := by
  intro leads
  have refused := fails .find [.stay] goes_stay
  rw [leads .find [.stay] (.inl rfl), walkLinks_stay, walkLinks_nil] at refused
  cases refused

theorem walkLinks_idle {aim : Aim} {links : Nat} {here : Location} {idle : List (List Char)}
    (idles : ∀ part ∈ idle, Path.IsIdle part) (more : List Path.Step) :
    tree.walkLinks aim links here (idle.map Path.stepOf ++ more) =
      tree.walkLinks aim links here more := by
  induction idle with
  | nil => rfl
  | cons part idle ih =>
    obtain ⟨isIdle, rest⟩ := List.forall_mem_cons.mp idles
    rw [List.map_cons, List.cons_append]
    rcases isIdle with rfl | rfl
    · exact walkLinks_skip.trans (ih rest)
    · exact walkLinks_stay.trans (ih rest)

/-- Idle steps at the end make no difference to where steps lead. -/
theorem leads_append_idle_iff {links : Nat} {here : Location} {steps : List Path.Step}
    {idle : List (List Char)} (idles : ∀ part ∈ idle, Path.IsIdle part) :
    (∃ left there, tree.Leads links here (steps ++ idle.map Path.stepOf) left there) ↔
      ∃ left there, tree.Leads links here steps left there := by
  constructor
  · rintro ⟨left, there, leads⟩
    rcases tree.fails_or_leads links here steps with ⟨error, fails⟩ | ⟨left, there, leads, _⟩
    · have all : tree.Fails links here (steps ++ idle.map Path.stepOf) error := by
        intro aim more goes
        rw [List.append_assoc]
        exact fails aim _ (goes.append _)
      exact absurd leads all.not_leads
    · exact ⟨left, there, leads⟩
  · rintro ⟨left, there, leads⟩
    refine ⟨left, there, fun aim more passes => ?_⟩
    rw [List.append_assoc, leads aim _ (passes.append _), walkLinks_idle idles]

/-- A path leads to a directory exactly if one can go on from there. -/
theorem isDirectory_iff_leads {path : Path} (rooted : tree.Rooted)
    (sound : pathFault? path = none) :
    tree.isDirectory path = true ↔
      ∃ left there, tree.Leads linkLimit (tree.start path) path.steps left there := by
  rcases tree.fails_or_leads linkLimit (tree.start path) path.steps with
    ⟨error, fails⟩ | ⟨left, there, leads, ends⟩
  · refine iff_of_false (fun isDirectory => ?_) fun ⟨_, _, leads⟩ => fails.not_leads leads
    obtain ⟨location, located, directory⟩ := isDirectory_iff.mp isDirectory
    have walked := (resolve_eq_ok_iff.mp (locate_eq_ok_iff.mp located)).2
    have stays := walkLinks_find_stay _ _ _ walked directory
    rw [fails .find [.stay] goes_stay] at stays
    cases stays
  · refine iff_of_true ?_ ⟨left, there, leads⟩
    have walked := leads .find [] (.inl rfl)
    rw [List.append_nil, walkLinks_nil] at walked
    exact isDirectory_iff.mpr ⟨there, locate_eq_ok_iff.mpr (resolve_eq_ok_iff.mpr ⟨sound, walked⟩),
      ends rooted (rooted.start path)⟩

theorem isDirectory_slash (tree : FileTree) : tree.isDirectory ⟨"/"⟩ = true := by
  have walked : tree.walkLinks .find linkLimit (tree.start ⟨"/"⟩) (Path.mk "/").steps =
      .ok (.existing []) := by
    have steps : (Path.mk "/").steps = [.skip, .skip] := by decide
    have start : tree.start ⟨"/"⟩ = [] := rfl
    rw [steps, start, walkLinks_skip, walkLinks_skip, walkLinks_nil]
  exact isDirectory_iff.mpr
    ⟨[], locate_eq_ok_iff.mpr (resolve_eq_ok_iff.mpr ⟨by decide, walked⟩), rfl⟩

theorem pathFault?_of_append {base path : Path} {rest : String} (named : base.text ≠ "")
    (written : path.text = base.text ++ rest) (sound : pathFault? path = none) :
    pathFault? base = none := by
  obtain ⟨_, nul, short⟩ := pathFault?_eq_none_iff.mp sound
  rw [written, String.toList_append] at nul
  rw [written, String.utf8ByteSize_append] at short
  exact pathFault?_eq_none_iff.mpr
    ⟨named, fun inside => nul (List.mem_append_left _ inside), by omega⟩

/-- The path that the first parts of a path make is a directory exactly if one can go on there. -/
theorem isDirectory_enclosing_iff {path : Path} {front rest : List (List Char)}
    (rooted : tree.Rooted) (split : path.parts = front ++ rest) (more : rest ≠ [])
    (sound : pathFault? path = none) :
    ((Path.enclosing front).text = "" ∨ tree.isDirectory (Path.enclosing front) = true) ↔
      ∃ left there,
        tree.Leads linkLimit (tree.start path) (front.map Path.stepOf) left there := by
  have free : ∀ part ∈ front, '/' ∉ part := by
    intro part member inside
    have listed : part ∈ path.parts := by
      rw [split]
      exact List.mem_append_left _ member
    exact (Text.mem_of_mem_splitOn listed inside).2 rfl
  rcases Path.enclosing_cases free with ⟨rfl, none⟩ | ⟨idle, idles, ⟨rfl, slash⟩ | ⟨goes, named⟩⟩
  · exact iff_of_true (.inl (none ▸ rfl)) ⟨linkLimit, tree.start path, fun _ _ _ => rfl⟩
  · refine iff_of_true (.inr (slash ▸ isDirectory_slash tree))
      ⟨linkLimit, tree.start path, fun aim more _ => ?_⟩
    exact walkLinks_idle (List.forall_mem_cons.mpr ⟨.inl rfl, idles⟩) more
  · generalize Path.enclosing front = base at goes named
    rw [goes, List.append_assoc] at split
    obtain ⟨absolute, text, written⟩ := Path.goes_on named (by simp [more]) split
    have start : tree.start path = tree.start base := by rw [start, start, absolute]
    rw [or_iff_right named,
      isDirectory_iff_leads rooted (pathFault?_of_append named written sound), goes,
      List.map_append, leads_append_idle_iff idles, start]
    rfl

/-- A path goes on from its parent. -/
theorem parent?_split {path parent : Path} (above : path.parent? = some parent) :
    ∃ front rest, path.parts = front ++ rest ∧ rest ≠ [] ∧ Goes (rest.map Path.stepOf) ∧
      parent = Path.enclosing front := by
  rw [Path.parent?_eq] at above
  obtain ⟨idle, same, _⟩ := Path.dropIdle_eq path.parts.reverse
  have whole : path.parts = (Path.dropIdle path.parts.reverse).reverse ++ idle.reverse := by
    rw [← List.reverse_append, ← same, List.reverse_reverse]
  split at above
  next => cases above
  next => cases above
  next part earlier notLone left =>
    cases above
    have moves : part ≠ [] := by
      rintro rfl
      cases earlier with
      | nil => exact notLone rfl rfl
      | cons _ _ => exact Path.not_isIdle_of_dropIdle left (.inl rfl)
    refine ⟨earlier.reverse, part :: idle.reverse, ?_, List.cons_ne_nil _ _,
      ⟨Path.stepOf part, List.mem_cons_self, ?_⟩, rfl⟩
    · rw [whole, left, List.reverse_cons, List.append_assoc, List.singleton_append]
    · have named : RawText.of (String.ofList part) ≠ RawText.of "" := fun same =>
        moves (String.ofList_injective (RawText.of_inj.mp same))
      rw [Path.stepOf, Path.Step.of, if_neg named]
      split
      · decide
      · split
        · decide
        · simp

/-- What is found along a path is found below its parent. -/
theorem isDirectory_parent {path parent : Path} {aim : Aim} {spot : Spot} (rooted : tree.Rooted)
    (above : path.parent? = some parent) (resolved : tree.resolve aim path = .ok spot) :
    parent.text = "" ∨ tree.isDirectory parent = true := by
  obtain ⟨sound, walked⟩ := resolve_eq_ok_iff.mp resolved
  obtain ⟨front, rest, split, more, goes, rfl⟩ := parent?_split above
  rw [isDirectory_enclosing_iff rooted split more sound]
  rcases tree.fails_or_leads linkLimit (tree.start path) (front.map Path.stepOf) with
    ⟨error, fails⟩ | ⟨left, there, leads, _⟩
  · rw [Path.steps, split, List.map_append, fails aim _ goes] at walked
    cases walked
  · exact ⟨left, there, leads⟩

/-! ### Creating the same paths again -/

theorem createDirectory_of_isDirectory {path : Path} (isDirectory : tree.isDirectory path = true) :
    tree.createDirectory path = .error .exists := by
  obtain ⟨location, located, directory⟩ := isDirectory_iff.mp isDirectory
  obtain ⟨sound, walked⟩ := resolve_eq_ok_iff.mp (locate_eq_ok_iff.mp located)
  obtain ⟨other, found⟩ := walkLinks_createDirectory_of_find _ _ _ walked directory
  have resolved : tree.resolve .createDirectory path = .ok (.existing other) :=
    resolve_eq_ok_iff.mpr ⟨sound, found⟩
  rw [createDirectory, resolved]
  rfl

theorem text_ne_empty_of_isDirectory {path : Path} (isDirectory : tree.isDirectory path = true) :
    path.text ≠ "" := by
  obtain ⟨location, located, _⟩ := isDirectory_iff.mp isDirectory
  exact (pathFault?_eq_none_iff.mp (resolve_eq_ok_iff.mp (locate_eq_ok_iff.mp located)).1).1

theorem createAlong_of_isDirectory {path : Path} (isDirectory : tree.isDirectory path = true)
    (parents : List Path) : tree.createAlong (path :: parents) = (none, tree) := by
  have refused : CreatesAlong tree path parents _ tree :=
    .refused (text_ne_empty_of_isDirectory isDirectory)
      (createDirectory_of_isDirectory isDirectory) nofun
  rw [if_pos isDirectory] at refused
  exact createAlong_iff.mpr refused

/-- The paths above a path, at most `fuel` many. -/
def parentsWithin (fuel : Nat) (path : Path) : List Path :=
  match path.parent? with
  | none => []
  | some parent => Path.ancestorsWithin fuel parent

theorem ancestorsWithin_succ (fuel : Nat) (path : Path) :
    Path.ancestorsWithin (fuel + 1) path = path :: parentsWithin fuel path := rfl

/-- Nothing is found along a path whose parent is no directory. -/
theorem resolve_ne_ok_of_parent {path parent : Path} (rooted : tree.Rooted)
    (above : path.parent? = some parent) (named : parent.text ≠ "")
    (other : tree.isDirectory parent = false) (aim : Aim) (spot : Spot) :
    tree.resolve aim path ≠ .ok spot := by
  intro resolved
  rcases isDirectory_parent rooted above resolved with empty | directory
  · exact named empty
  · rw [other] at directory
    cases directory

theorem isDirectory_eq_false_of_parent {path parent : Path} (rooted : tree.Rooted)
    (above : path.parent? = some parent) (named : parent.text ≠ "")
    (other : tree.isDirectory parent = false) : tree.isDirectory path = false := by
  rw [← Bool.not_eq_true]
  intro isDirectory
  obtain ⟨location, located, _⟩ := isDirectory_iff.mp isDirectory
  exact resolve_ne_ok_of_parent rooted above named other _ _ (locate_eq_ok_iff.mp located)

theorem isDirectory_of_ite {path : Path} {first second : FileError}
    (failed : (if tree.isDirectory path then none else some first) = some second) :
    tree.isDirectory path = false := by
  cases isDirectory : tree.isDirectory path with
  | false => rfl
  | true =>
    rw [isDirectory] at failed
    cases failed

/-- Creation stops at a parent that cannot be created, or for lack of parents. -/
theorem stopped_cases {fuel : Nat} {path : Path} {error : FileError}
    (stopped : tree.createAlong (parentsWithin fuel path) = (some error, next)) :
    next = tree ∨ ∃ fewer parent, fuel = fewer + 1 ∧ path.parent? = some parent ∧
      tree.createAlong (Path.ancestorsWithin (fewer + 1) parent) = (some error, next) := by
  rw [parentsWithin] at stopped
  split at stopped
  next =>
    cases stopped
    exact .inl rfl
  next parent above =>
    cases fuel with
    | zero =>
      cases stopped
      exact .inl rfl
    | succ fewer => exact .inr ⟨fewer, parent, rfl, above, stopped⟩

/-- Where a path cannot be created with those above it, it is no directory afterwards. -/
theorem not_isDirectory_of_failed (fuel : Nat) {path : Path} {error : FileError}
    (rooted : tree.Rooted)
    (done : tree.createAlong (Path.ancestorsWithin (fuel + 1) path) = (some error, next)) :
    path.text ≠ "" ∧ next.isDirectory path = false := by
  have nextRooted : next.Rooted :=
    (changes_createAlong rooted done fun _ _ => trivial :
      Changes (fun _ => True) (fun _ _ => False) tree next).rooted rooted
  induction fuel using Nat.strongRecOn generalizing path error with
  | ind fuel ih =>
    rw [ancestorsWithin_succ] at done
    generalize result : some error = failed at done
    cases createAlong_iff.mp done with
    | nothing => cases result
    | created => cases result
    | createdBelow => cases result
    | refused named => exact ⟨named, isDirectory_of_ite result.symm⟩
    | refusedBelow named => exact ⟨named, isDirectory_of_ite result.symm⟩
    | stopped named missing stopped =>
      refine ⟨named, ?_⟩
      rcases stopped_cases stopped with rfl | ⟨fewer, parent, rfl, above, stopped⟩
      · rw [← Bool.not_eq_true]
        intro isDirectory
        rw [createDirectory_of_isDirectory isDirectory] at missing
        cases missing
      · obtain ⟨parentNamed, other⟩ := ih fewer (by omega) stopped
        exact isDirectory_eq_false_of_parent nextRooted above parentNamed other

/-- Where the paths above cannot be created and the parent is no directory, the path cannot be
created either, and the attempt leaves no trace. -/
theorem createAlong_of_stopped {fuel : Nat} {path parent : Path} {reason : FileError}
    (rooted : tree.Rooted) (above : path.parent? = some parent) (parentNamed : parent.text ≠ "")
    (parentOther : tree.isDirectory parent = false) (named : path.text ≠ "")
    (stopped : tree.createAlong (parentsWithin fuel path) = (some reason, tree)) :
    ∃ error, tree.createAlong (path :: parentsWithin fuel path) = (some error, tree) := by
  have other := isDirectory_eq_false_of_parent rooted above parentNamed parentOther
  cases once : tree.createDirectory path with
  | ok last =>
    obtain ⟨spot, resolved, _⟩ := bind_eq_ok_iff.mp once
    exact absurd resolved (resolve_ne_ok_of_parent rooted above parentNamed parentOther _ _)
  | error refusal =>
    by_cases lacking : refusal = .notFound
    · exact ⟨reason, createAlong_iff.mpr (.stopped named (lacking ▸ once) stopped)⟩
    · have refused : CreatesAlong tree path (parentsWithin fuel path) _ tree :=
        .refused named once lacking
      rw [other] at refused
      exact ⟨refusal, createAlong_iff.mpr refused⟩

/-- **Creating the paths again changes nothing**, and fails if it did before. -/
theorem createAlong_again (fuel : Nat) {path : Path} {failed : Option FileError}
    (rooted : tree.Rooted)
    (done : tree.createAlong (Path.ancestorsWithin fuel path) = (failed, next)) :
    ∃ again, next.createAlong (Path.ancestorsWithin fuel path) = (again, next) ∧
      (again = none ↔ failed = none) := by
  -- The paths above a path are those of its parent: the induction is on how many are taken.
  have nextRooted : next.Rooted :=
    (changes_createAlong rooted done fun _ _ => trivial :
      Changes (fun _ => True) (fun _ _ => False) tree next).rooted rooted
  induction fuel using Nat.strongRecOn generalizing path failed with
  | ind fuel ih =>
  cases fuel with
  | zero =>
    cases done
    exact ⟨_, rfl, Iff.rfl⟩
  | succ fuel =>
  rw [ancestorsWithin_succ] at done ⊢
  cases failed with
  | none =>
    refine ⟨none, ?_, Iff.rfl⟩
    by_cases empty : path.text = ""
    · exact createAlong_iff.mpr (.nothing empty)
    · exact createAlong_of_isDirectory (isDirectory_of_createAlong rooted done empty) _
  | some error =>
  generalize result : some error = failed at done
  cases createAlong_iff.mp done with
  | nothing => cases result
  | created => cases result
  | createdBelow => cases result
  | refused => exact ⟨_, done, by rw [← result]⟩
  | stopped named missing stopped =>
    rcases stopped_cases stopped with rfl | ⟨fewer, parent, rfl, above, stopped'⟩
    · exact ⟨_, done, Iff.rfl⟩
    · obtain ⟨parentNamed, parentOther⟩ := not_isDirectory_of_failed fewer rooted stopped'
      obtain ⟨again, stoppedAgain, same⟩ := ih (fewer + 1) (by omega) stopped'
      cases again with
      | none => exact absurd (same.mp rfl) nofun
      | some reason =>
      have stays : next.createAlong (parentsWithin (fewer + 1) path) = (some reason, next) := by
        rw [parentsWithin, above]
        exact stoppedAgain
      obtain ⟨refusal, refused⟩ :=
        createAlong_of_stopped nextRooted above parentNamed parentOther named stays
      exact ⟨some refusal, refused, by simp⟩
  | @refusedBelow reason _ named missing along refused =>
    by_cases lacking : reason = .notFound
    · have below : next.createAlong (parentsWithin fuel path) = (none, next) := by
        rw [parentsWithin] at along ⊢
        split at along
        next => cases along
        next parent above =>
          obtain ⟨again, once, same⟩ := ih fuel (by omega) along
          rw [once, same.mpr rfl]
      exact ⟨_, createAlong_iff.mpr (.refusedBelow named (lacking ▸ refused) below refused),
        Iff.rfl⟩
    · exact ⟨_, createAlong_iff.mpr (.refused named refused lacking), Iff.rfl⟩

/-! ### The build root -/

namespace Project

variable {root : Path} {language : String} {ground : Location}

/-- The tree in which the creation of the build root has been tried, where it is missing. -/
def withBuildRoot (root : Path) (tree : FileTree) : FileTree :=
  match tree.locate (groundPath root) with
  | .error .notFound => (tree.createAlong root.above).2
  | _ => tree

theorem changes_above (rooted : tree.Rooted) {failed : Option FileError}
    (done : tree.createAlong root.above = (failed, next)) :
    Changes (fun _ => True) (fun _ _ => False) tree next :=
  changes_createAlong rooted done fun _ _ => trivial

/-- The build root leads to a directory exactly if the paths above the output directories do. -/
theorem ready_iff (rooted : tree.Rooted) (sound : pathFault? (groundPath root) = none) :
    (∃ ground, tree.locate (groundPath root) = .ok ground) ↔
      (Path.enclosing root.leading).text = "" ∨
        tree.isDirectory (Path.enclosing root.leading) = true := by
  have split : (groundPath root).parts = root.leading ++ [['.']] :=
    Path.parts_join (by decide)
  have start : tree.start (groundPath root) = tree.start root := start_join tree (by decide)
  rw [isDirectory_enclosing_iff rooted split (List.cons_ne_nil _ _) sound, start]
  rcases approach_leads tree root sound with
    ⟨error, refused, fails⟩ | ⟨left, there, located, leads, _⟩
  · refine iff_of_false ?_ fun ⟨_, _, leads⟩ => fails.not_leads leads
    rintro ⟨ground, located⟩
    rw [refused] at located
    cases located
  · exact iff_of_true ⟨there, located⟩ ⟨left, there, leads⟩

theorem ready_of_created (rooted : tree.Rooted) (sound : pathFault? (groundPath root) = none)
    (done : tree.createAlong root.above = (none, next)) :
    ∃ ground, next.locate (groundPath root) = .ok ground := by
  rw [ready_iff ((changes_above rooted done).rooted rooted) sound]
  by_cases empty : (Path.enclosing root.leading).text = ""
  · exact .inl empty
  · exact .inr (isDirectory_of_createAlong rooted done empty)

theorem not_ready_of_failed (rooted : tree.Rooted) (sound : pathFault? (groundPath root) = none)
    {error : FileError} (done : tree.createAlong root.above = (some error, next))
    (ground : Location) : next.locate (groundPath root) ≠ .ok ground := by
  intro located
  obtain ⟨named, other⟩ := not_isDirectory_of_failed _ rooted done
  rcases (ready_iff ((changes_above rooted done).rooted rooted) sound).mp ⟨ground, located⟩ with
    empty | isDirectory
  · exact named empty
  · rw [other] at isDirectory
    cases isDirectory

theorem withBuildRoot_of_ready (ready : tree.locate (groundPath root) = .ok ground) :
    withBuildRoot root tree = tree := by
  rw [withBuildRoot, ready]

theorem withBuildRoot_changes (root : Path) (rooted : tree.Rooted) :
    Changes (fun _ => True) (fun _ _ => False) tree (withBuildRoot root tree) := by
  rw [withBuildRoot]
  split
  · exact changes_above rooted rfl
  · exact .refl tree

/-- What was tried need not be tried again. -/
theorem withBuildRoot_withBuildRoot (root : Path) (rooted : tree.Rooted) :
    withBuildRoot root (withBuildRoot root tree) = withBuildRoot root tree := by
  have again (next : FileTree) (same : (tree.createAlong root.above).2 = next) :
      (next.createAlong root.above).2 = next := by
    obtain ⟨_, once, _⟩ := createAlong_again _ rooted
      (Prod.ext rfl same : tree.createAlong root.above = (_, next))
    exact congrArg Prod.snd once
  have stays (next : FileTree) (same : (tree.createAlong root.above).2 = next) :
      withBuildRoot root next = next := by
    rw [withBuildRoot]
    split
    · exact again next same
    · rfl
  rw [withBuildRoot.eq_def root tree]
  split
  next => exact stays _ rfl
  next other =>
    rw [withBuildRoot]
    split
    next missing => exact absurd missing other
    next => rfl

theorem createDirectories_outputDirectory (isName : Path.IsName language) :
    tree.createDirectories (outputDirectory root language) =
      tree.createAlong (outputDirectory root language :: root.above) := by
  rw [createDirectories, outputDirectory, Path.ancestors_join isName]

theorem resolve_eq_error {aim : Aim} {path : Path} {error : FileError}
    (fault : pathFault? path = some error) : tree.resolve aim path = .error error := by
  rw [resolve_eq, fault]

theorem isDirectory_eq_false {path : Path} {error : FileError}
    (refused : tree.resolve .find path = .error error) : tree.isDirectory path = false := by
  rw [isDirectory, target?, locate, refused]
  rfl

theorem createDirectory_eq_error {path : Path} {error : FileError}
    (refused : tree.resolve .createDirectory path = .error error) :
    tree.createDirectory path = .error error := by
  rw [createDirectory, refused]
  rfl

/-- A path that fails for another reason than a missing name is not created. -/
theorem createAlong_of_refused {path : Path} {error : FileError} (parents : List Path)
    (named : path.text ≠ "") (refused : ∀ aim, tree.resolve aim path = .error error)
    (other : error ≠ .notFound) : tree.createAlong (path :: parents) = (some error, tree) := by
  have creates : CreatesAlong tree path parents _ tree :=
    .refused named (createDirectory_eq_error (refused _)) other
  rw [isDirectory_eq_false (refused _)] at creates
  exact createAlong_iff.mpr creates

theorem ne_notFound_of_pathFault? {path : Path} {error : FileError} (named : path.text ≠ "")
    (fault : pathFault? path = some error) : error ≠ .notFound := by
  rw [pathFault?, if_neg (mt String.isEmpty_iff.mp named)] at fault
  split at fault
  · cases fault
    decide
  · split at fault
    · cases fault
      decide
    · cases fault

/-- A language whose output directory is not written as a path is refused everywhere. -/
theorem createDirectories_of_fault (isName : Path.IsName language) {error : FileError}
    (fault : pathFault? (outputDirectory root language) = some error) :
    tree.createDirectories (outputDirectory root language) = (some error, tree) := by
  have named := text_outputDirectory_ne_empty root isName
  rw [createDirectories_outputDirectory isName]
  exact createAlong_of_refused _ named (fun _ => resolve_eq_error fault)
    (ne_notFound_of_pathFault? named fault)

/-- Where the build root leads to a directory, nothing is missing on the way to an output
directory. -/
theorem createDirectory_ne_notFound (isName : Path.IsName language)
    (ready : tree.locate (groundPath root) = .ok ground) :
    tree.createDirectory (outputDirectory root language) ≠ .error .notFound := by
  intro missing
  have named := text_outputDirectory_ne_empty root isName
  cases fault : pathFault? (outputDirectory root language) with
  | some error =>
    rw [createDirectory_eq_error (resolve_eq_error fault)] at missing
    exact ne_notFound_of_pathFault? named fault (Except.error.inj missing)
  | none =>
  obtain ⟨left, leads, _⟩ := leads_of_locate ready
  have resolved := (resolve_outputDirectory tree isName fault .createDirectory).trans
    (leads _ _ (.inr (goes_enter _ _)))
  rw [walkLinks_enter, if_neg (by simp [endsInSlash])] at resolved
  rw [createDirectory, resolved] at missing
  split at missing
  · cases missing
  · cases standing : tree.find? (ground ++ [(language : Name)]) with
    | none =>
      rw [standing] at missing
      cases missing
    | some entry =>
      rw [standing] at missing
      cases entry with
      | directory =>
        simp only [walkLinks_nil] at missing
        cases missing
      | file content => cases missing
      | link target => cases missing

/-- What becomes of an output directory, by where the build root leads after the attempt to create
it. -/
inductive Attempt (root : Path) (tree : FileTree) (language : String) : Prop where
  | goesOn {ground : Location} :
    (withBuildRoot root tree).locate (groundPath root) = .ok ground →
    tree.createDirectories (outputDirectory root language) =
      (withBuildRoot root tree).createDirectories (outputDirectory root language) →
    Attempt root tree language
  | blocked (error : FileError) :
    (∀ ground, (withBuildRoot root tree).locate (groundPath root) ≠ .ok ground) →
    tree.createDirectories (outputDirectory root language) =
      (some error, withBuildRoot root tree) →
    Attempt root tree language

/-- Where names are missing on the way to the build root, an output directory is created after
them. -/
theorem attempt_of_missing (rooted : tree.Rooted) (isName : Path.IsName language)
    (sound : pathFault? (outputDirectory root language) = none)
    (refused : tree.locate (groundPath root) = .error .notFound)
    (missing : tree.createDirectory (outputDirectory root language) = .error .notFound) :
    Attempt root tree language := by
  have named := text_outputDirectory_ne_empty root isName
  have groundSound := pathFault?_groundPath isName sound
  cases along : tree.createAlong root.above with
  | mk failed next =>
  have tried : withBuildRoot root tree = next := by rw [withBuildRoot, refused, along]
  cases failed with
  | some reason =>
    refine .blocked reason ?_ ?_
    · rw [tried]
      exact not_ready_of_failed rooted groundSound along
    · rw [createDirectories_outputDirectory isName, tried]
      exact createAlong_iff.mpr (.stopped named missing along)
  | none =>
    obtain ⟨ground, ready⟩ := ready_of_created rooted groundSound along
    refine .goesOn (tried.symm ▸ ready) ?_
    rw [createDirectories_outputDirectory isName, createDirectories_outputDirectory isName, tried]
    cases once : next.createDirectory (outputDirectory root language) with
    | ok last =>
      rw [createAlong_iff.mpr (.created named once),
        createAlong_iff.mpr (.createdBelow named missing along once)]
    | error reason =>
      have other : reason ≠ .notFound := fun lacking =>
        createDirectory_ne_notFound isName ready (lacking ▸ once)
      rw [createAlong_iff.mpr (.refused named once other),
        createAlong_iff.mpr (.refusedBelow named missing along once)]

/-- **Creating an output directory** tries the build root first, and goes on from there if it leads
to a directory then. -/
theorem attempt_of_sound (rooted : tree.Rooted) (isName : Path.IsName language)
    (sound : pathFault? (outputDirectory root language) = none) :
    Attempt root tree language := by
  have groundSound := pathFault?_groundPath isName sound
  rcases approach_leads tree root groundSound with
    ⟨error, refused, fails⟩ | ⟨_, ground, ready, _, _⟩
  · have resolved (aim : Aim) : tree.resolve aim (outputDirectory root language) = .error error :=
      (resolve_outputDirectory tree isName sound aim).trans (fails aim _ (goes_enter _ _))
    by_cases lacking : error = .notFound
    · subst lacking
      exact attempt_of_missing rooted isName sound refused
        (createDirectory_eq_error (resolved .createDirectory))
    · have same : withBuildRoot root tree = tree := by
        rw [withBuildRoot, refused]
        split
        next missing => exact absurd (Except.error.inj missing) lacking
        next => rfl
      refine .blocked error (fun ground located => ?_) ?_
      · rw [same, refused] at located
        cases located
      · rw [createDirectories_outputDirectory isName, same]
        exact createAlong_of_refused _ (text_outputDirectory_ne_empty root isName) resolved lacking
  · have same : withBuildRoot root tree = tree := withBuildRoot_of_ready ready
    have there : (withBuildRoot root tree).locate (groundPath root) = .ok ground := by
      rw [same, ready]
    exact .goesOn there (by rw [same])

end Project

end Phrasebook
