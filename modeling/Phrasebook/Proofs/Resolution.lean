/-
**Where paths lead in a tree that grows.**

A walk along the steps of a path asks for one entry after the other, so it is followed step by step
(`walk_induction`), through the links as well:

* the steps before the last name lead into a directory or nowhere, whatever comes behind them and
  whatever the path is resolved for (`fails_or_leads`);
* a walk that finds what it looks for, or fails for another reason than a missing name, goes the
  same way in every tree that has grown from this one (`Extends.walkLinks_eq`);
* what is put where a name is missing is found there (`walkLinks_place`).

`FileTree.Extends` says how a tree may grow: new directories and files stand at free names, and new
bytes may stand in a file. In a tree of which every entry stands in a directory (`FileTree.Rooted`)
a walk from a directory ends at a directory or a file, or at a free name in a directory.
-/

import Phrasebook.FileTree.Operations

namespace Phrasebook.FileTree

variable {tree later : FileTree} {aim : Aim} {links : Nat} {here : Location}
  {steps more : List Path.Step}

/-! ### Growing -/

/-- What becomes of what stands at a location while a tree grows. -/
inductive Grows : Option Entry → Option Entry → Prop where
  | same {entry : Option Entry} : Grows entry entry
  | newDirectory : Grows none (some .directory)
  | newFile {content : ByteArray} : Grows none (some (.file content))
  | newContent {older newer : ByteArray} : Grows (some (.file older)) (some (.file newer))

theorem Grows.trans {first second third : Option Entry} (early : Grows first second)
    (late : Grows second third) : Grows first third := by
  cases early with
  | same => exact late
  | newDirectory =>
    cases late
    exact .newDirectory
  | newFile => cases late <;> exact .newFile
  | newContent => cases late <;> exact .newContent

/-- The later tree has grown from the tree. -/
structure Extends (tree later : FileTree) : Prop where
  workingDirectory_eq : later.workingDirectory = tree.workingDirectory
  grows : ∀ location, Grows (tree.find? location) (later.find? location)

theorem Extends.refl (tree : FileTree) : tree.Extends tree := ⟨rfl, fun _ => .same⟩

theorem Extends.trans {next : FileTree} (first : tree.Extends next) (second : next.Extends later) :
    tree.Extends later :=
  ⟨second.workingDirectory_eq.trans first.workingDirectory_eq, fun location =>
    (first.grows location).trans (second.grows location)⟩

theorem Grows.of_none {entry : Option Entry} (grows : Grows entry none) : entry = none := by
  cases grows
  rfl

theorem Grows.directory {entry : Option Entry} (grows : Grows (some .directory) entry) :
    entry = some .directory := by
  cases grows
  rfl

theorem Grows.link {entry : Option Entry} {target : Target}
    (grows : Grows (some (.link target)) entry) : entry = some (.link target) := by
  cases grows
  rfl

theorem Grows.of_link {entry : Option Entry} {target : Target}
    (grows : Grows entry (some (.link target))) : entry = some (.link target) := by
  cases grows
  rfl

theorem Grows.file {entry : Option Entry} {older : ByteArray}
    (grows : Grows (some (.file older)) entry) : ∃ newer, entry = some (.file newer) := by
  cases grows
  · exact ⟨older, rfl⟩
  · exact ⟨_, rfl⟩

theorem Extends.directory (grown : tree.Extends later) {location : Location}
    (directory : tree.find? location = some .directory) :
    later.find? location = some .directory :=
  (directory ▸ grown.grows location).directory

theorem Extends.link (grown : tree.Extends later) {location : Location} {target : Target}
    (link : tree.find? location = some (.link target)) :
    later.find? location = some (.link target) :=
  (link ▸ grown.grows location).link

theorem Extends.of_link (grown : tree.Extends later) {location : Location} {target : Target}
    (link : later.find? location = some (.link target)) :
    tree.find? location = some (.link target) :=
  (link ▸ grown.grows location).of_link

theorem find?_place {location : Location} (below : location ≠ []) (entry : Entry)
    (probe : Location) :
    (tree.place location entry).find? probe =
      if probe = location then some entry else tree.find? probe := by
  cases probe with
  | nil => rw [if_neg (Ne.symm below)]; rfl
  | cons name names =>
    show (tree.entries.insert location entry).find? (name :: names) = _
    rw [Dictionary.find?_insert]
    by_cases same : name :: names = location
    · rw [if_pos same, if_pos (Std.compare_eq_iff_eq.mpr same)]
    · rw [if_neg same, if_neg (mt Std.compare_eq_iff_eq.mp same)]
      rfl

theorem find?_place_self {location : Location} (below : location ≠ []) (entry : Entry) :
    (tree.place location entry).find? location = some entry := by
  rw [find?_place below, if_pos rfl]

theorem place_place (location : Location) (early late : Entry) :
    (tree.place location early).place location late = tree.place location late := by
  refine congrArg (FileTree.mk · tree.workingDirectory) (Dictionary.ext_find? fun probe => ?_)
  show ((tree.entries.insert location early).insert location late).find? probe =
    (tree.entries.insert location late).find? probe
  rw [Dictionary.find?_insert, Dictionary.find?_insert, Dictionary.find?_insert]
  split <;> rfl

theorem place_comm {first second : Location} (apart : first ≠ second) (early late : Entry) :
    (tree.place first early).place second late = (tree.place second late).place first early := by
  refine congrArg (FileTree.mk · tree.workingDirectory) (Dictionary.ext_find? fun probe => ?_)
  show ((tree.entries.insert first early).insert second late).find? probe =
    ((tree.entries.insert second late).insert first early).find? probe
  rw [Dictionary.find?_insert, Dictionary.find?_insert, Dictionary.find?_insert,
    Dictionary.find?_insert]
  by_cases one : compare probe first = .eq
  · by_cases two : compare probe second = .eq
    · exact absurd ((Std.compare_eq_iff_eq.mp one).symm.trans (Std.compare_eq_iff_eq.mp two)) apart
    · rw [if_pos one, if_neg two, if_pos one]
  · rw [if_neg one, if_neg one]

theorem extends_place {location : Location} (below : location ≠ []) {entry : Entry}
    (grows : Grows (tree.find? location) (some entry)) :
    tree.Extends (tree.place location entry) := by
  refine ⟨rfl, fun probe => ?_⟩
  rw [find?_place below]
  split
  next same => rwa [same]
  next => exact .same

/-! ### One step of a walk -/

/-- Takes steps from where a link leads, if one more may be followed. -/
def follow (tree : FileTree) (aim : Aim) :
    Nat → Location → List Path.Step → Except FileError Spot
  | 0, _, _ => .error .tooManyLinks
  | links + 1, here, steps => tree.walkLinks aim links here steps

theorem walkLinks_eq_walk (tree : FileTree) (aim : Aim) (links : Nat) :
    tree.walkLinks aim links = tree.walk aim (tree.follow aim links) := by
  cases links <;> rfl

@[simp] theorem walkLinks_nil : tree.walkLinks aim links here [] = .ok (.existing here) := by
  cases links <;> rfl

@[simp] theorem walkLinks_skip :
    tree.walkLinks aim links here (.skip :: steps) = tree.walkLinks aim links here steps := by
  cases links <;> rfl

@[simp] theorem walkLinks_stay :
    tree.walkLinks aim links here (.stay :: steps) = tree.walkLinks aim links here steps := by
  cases links <;> rfl

@[simp] theorem walkLinks_up : tree.walkLinks aim links here (.up :: steps) =
    tree.walkLinks aim links here.dropLast steps := by
  cases links <;> rfl

theorem walkLinks_enter (name : Name) :
    tree.walkLinks aim links here (.enter name :: steps) =
      if aim == .writeFile && endsInSlash steps then .error .isADirectory
      else if Path.longestName < name.size then .error .nameTooLong
      else match tree.find? (here ++ [name]) with
        | none => if isLast aim steps then .ok (.vacant here name) else .error .notFound
        | some .directory => tree.walkLinks aim links (here ++ [name]) steps
        | some (.file _) =>
          if isLast aim steps then .ok (.existing (here ++ [name])) else .error .notADirectory
        | some (.link target) =>
          if aim == .createDirectory && isLast aim steps then .ok (.existing (here ++ [name]))
          else tree.follow aim links (if target.isAbsolute then [] else here)
            (target.steps ++ steps) := by
  rw [walkLinks_eq_walk]
  rfl

/-- Follows a walk: behind a name it goes on in the directory, or where a link leads with one link
less to follow. -/
theorem walk_induction {motive : Nat → Location → List Path.Step → Prop}
    (nil : ∀ links here, motive links here [])
    (skip : ∀ links here steps, motive links here steps → motive links here (.skip :: steps))
    (stay : ∀ links here steps, motive links here steps → motive links here (.stay :: steps))
    (up : ∀ links here steps, motive links here.dropLast steps →
      motive links here (.up :: steps))
    (enter : ∀ links here name steps, motive links (here ++ [name]) steps →
      (∀ fewer there (target : Target), links = fewer + 1 →
        motive fewer there (target.steps ++ steps)) →
      motive links here (.enter name :: steps))
    (links : Nat) (here : Location) (steps : List Path.Step) : motive links here steps := by
  induction links using Nat.strongRecOn generalizing here steps with
  | ind links fewerLinks =>
    induction steps generalizing here with
    | nil => exact nil links here
    | cons step steps ih =>
      cases step with
      | skip => exact skip links here steps (ih here)
      | stay => exact stay links here steps (ih here)
      | up => exact up links here steps (ih here.dropLast)
      | enter name =>
        refine enter links here name steps (ih (here ++ [name])) fun fewer there target same => ?_
        exact fewerLinks fewer (by omega) there (target.steps ++ steps)

/-! ### The steps before the last name -/

/-- There is more to do than to pass slashes. -/
def Goes (steps : List Path.Step) : Prop := ∃ step ∈ steps, step ≠ .skip

theorem Goes.append (goes : Goes more) (steps : List Path.Step) : Goes (steps ++ more) := by
  obtain ⟨step, member, moves⟩ := goes
  exact ⟨step, List.mem_append_right _ member, moves⟩

theorem goes_enter (name : Name) (steps : List Path.Step) : Goes (.enter name :: steps) :=
  ⟨_, List.mem_cons_self, nofun⟩

theorem goes_stay : Goes [.stay] := ⟨_, List.mem_cons_self, by decide⟩

theorem Goes.endsInSlash_eq (goes : Goes more) : endsInSlash more = false := by
  obtain ⟨step, member, moves⟩ := goes
  have some : ∃ step ∈ more, ¬(step == .skip) = true := ⟨step, member, by simpa using moves⟩
  rw [endsInSlash, Bool.and_eq_false_iff, List.all_eq_false]
  exact .inr some

theorem Goes.isLast_eq (goes : Goes more) (aim : Aim) : isLast aim more = false := by
  have nonempty : more.isEmpty = false := by
    obtain ⟨step, member, _⟩ := goes
    cases more with
    | nil => cases member
    | cons _ _ => rfl
  rw [isLast, nonempty, goes.endsInSlash_eq, Bool.and_false]
  rfl

/-- Nothing behind a name makes a difference to how it is passed. -/
def Passes (aim : Aim) (more : List Path.Step) : Prop := aim = .find ∨ Goes more

theorem Passes.append (passes : Passes aim more) (steps : List Path.Step) :
    Passes aim (steps ++ more) :=
  passes.imp_right fun goes => goes.append steps

theorem Passes.file_eq (passes : Passes aim more) :
    (aim == .writeFile && endsInSlash more) = false := by
  rcases passes with rfl | goes
  · rfl
  · rw [goes.endsInSlash_eq, Bool.and_false]

theorem Passes.link_eq (passes : Passes aim more) :
    (aim == .createDirectory && isLast aim more) = false := by
  rcases passes with rfl | goes
  · rfl
  · rw [goes.isLast_eq, Bool.and_false]

/-- Every entry stands in a directory, and so does the run. -/
structure Rooted (tree : FileTree) : Prop where
  above : ∀ location, tree.find? location ≠ none →
    tree.find? location.dropLast = some .directory
  workingDirectory : tree.find? tree.workingDirectory = some .directory

theorem find?_ne_none_iff {location : Location} :
    tree.find? location ≠ none ↔ location = [] ∨ location ∈ tree.entries.keys := by
  cases location with
  | nil => exact iff_of_true nofun (.inl rfl)
  | cons name names =>
    rw [Option.ne_none_iff_isSome, or_iff_right nofun]
    exact Dictionary.find?_isSome_iff

instance (tree : FileTree) : Decidable tree.Rooted :=
  decidable_of_iff ((∀ location ∈ tree.entries.keys,
      tree.find? location.dropLast = some .directory) ∧
      tree.find? tree.workingDirectory = some .directory)
    ⟨fun ⟨above, working⟩ => ⟨fun location occupied => by
      rcases find?_ne_none_iff.mp occupied with rfl | key
      · rfl
      · exact above location key, working⟩,
    fun rooted => ⟨fun location key => rooted.above location (find?_ne_none_iff.mpr (.inr key)),
      rooted.workingDirectory⟩⟩

theorem Rooted.up (rooted : tree.Rooted) (directory : tree.find? here = some .directory) :
    tree.find? here.dropLast = some .directory :=
  rooted.above here (by rw [directory]; nofun)

/-- The steps fail in the same way whatever comes behind them. -/
def Fails (tree : FileTree) (links : Nat) (here : Location) (steps : List Path.Step)
    (error : FileError) : Prop :=
  ∀ aim more, Goes more → tree.walkLinks aim links here (steps ++ more) = .error error

/-- The steps lead to a place, and the rest is taken from there with the links that are left. -/
def Leads (tree : FileTree) (links : Nat) (here : Location) (steps : List Path.Step) (left : Nat)
    (there : Location) : Prop :=
  ∀ aim more, Passes aim more →
    tree.walkLinks aim links here (steps ++ more) = tree.walkLinks aim left there more

/-- **The steps before the last name** fail alike whatever comes behind them, or lead into a
directory from which the rest is taken. -/
theorem fails_or_leads (tree : FileTree) (links : Nat) (here : Location)
    (steps : List Path.Step) :
    (∃ error, tree.Fails links here steps error) ∨
      ∃ left there, tree.Leads links here steps left there ∧
        (tree.Rooted → tree.find? here = some .directory →
          tree.find? there = some .directory) := by
  induction links, here, steps using walk_induction with
  | nil links here => exact .inr ⟨links, here, fun _ _ _ => rfl, fun _ directory => directory⟩
  | skip links here steps ih => simpa [Fails, Leads] using ih
  | stay links here steps ih => simpa [Fails, Leads] using ih
  | up links here steps ih =>
    rcases ih with ⟨error, fails⟩ | ⟨left, there, leads, ends⟩
    · exact .inl ⟨error, by simpa [Fails] using fails⟩
    · exact .inr ⟨left, there, by simpa [Leads] using leads, fun rooted directory =>
        ends rooted (rooted.up directory)⟩
  | enter links here name steps inside beyond =>
    simp only [Fails, Leads, List.cons_append]
    by_cases long : Path.longestName < name.size
    · refine .inl ⟨.nameTooLong, fun aim more goes => ?_⟩
      rw [walkLinks_enter, (Passes.append (.inr goes) steps).file_eq, if_pos long]
      rfl
    · cases found : tree.find? (here ++ [name]) with
      | none =>
        refine .inl ⟨.notFound, fun aim more goes => ?_⟩
        rw [walkLinks_enter, (Passes.append (.inr goes) steps).file_eq, if_neg long, found,
          (goes.append steps).isLast_eq]
        rfl
      | some entry =>
        cases entry with
        | directory =>
          have into (aim : Aim) (more : List Path.Step) (passes : Passes aim more) :
              tree.walkLinks aim links here (.enter name :: (steps ++ more)) =
                tree.walkLinks aim links (here ++ [name]) (steps ++ more) := by
            rw [walkLinks_enter, (passes.append steps).file_eq, if_neg long, found]
            rfl
          rcases inside with ⟨error, fails⟩ | ⟨left, there, leads, ends⟩
          · exact .inl ⟨error, fun aim more goes =>
              (into aim more (.inr goes)).trans (fails aim more goes)⟩
          · exact .inr ⟨left, there, fun aim more passes =>
              (into aim more passes).trans (leads aim more passes),
              fun rooted _ => ends rooted found⟩
        | file content =>
          refine .inl ⟨.notADirectory, fun aim more goes => ?_⟩
          rw [walkLinks_enter, (Passes.append (.inr goes) steps).file_eq, if_neg long, found,
            (goes.append steps).isLast_eq]
          rfl
        | link target =>
          have away (aim : Aim) (more : List Path.Step) (passes : Passes aim more) :
              tree.walkLinks aim links here (.enter name :: (steps ++ more)) =
                tree.follow aim links (if target.isAbsolute then [] else here)
                  ((target.steps ++ steps) ++ more) := by
            rw [walkLinks_enter, (passes.append steps).file_eq, if_neg long, found,
              (passes.append steps).link_eq, List.append_assoc]
            rfl
          cases links with
          | zero => exact .inl ⟨.tooManyLinks, fun aim more goes => away aim more (.inr goes)⟩
          | succ fewer =>
            rcases beyond fewer (if target.isAbsolute then [] else here) target rfl with
              ⟨error, fails⟩ | ⟨left, there, leads, ends⟩
            · exact .inl ⟨error, fun aim more goes =>
                (away aim more (.inr goes)).trans (fails aim more goes)⟩
            · refine .inr ⟨left, there, fun aim more passes =>
                (away aim more passes).trans (leads aim more passes), fun rooted directory => ?_⟩
              refine ends rooted ?_
              split
              · rfl
              · exact directory

/-! ### Walks in a tree that has grown -/

/-- The walk did not stop at a missing name. -/
def Settled : Except FileError Spot → Prop
  | .ok (.existing _) => True
  | .ok (.vacant _ _) => False
  | .error error => error ≠ .notFound

theorem not_settled_missing (last : Bool) (directory : Location) (name : Name) :
    ¬Settled (if last then .ok (.vacant directory name) else .error .notFound) := by
  cases last
  · exact fun settled => settled rfl
  · exact fun settled => settled

/-- **A walk that does not stop at a missing name** goes the same way in a tree that has grown. -/
theorem Extends.walkLinks_eq (grown : tree.Extends later) (aim : Aim) (links : Nat)
    (here : Location) (steps : List Path.Step)
    (settled : Settled (tree.walkLinks aim links here steps)) :
    later.walkLinks aim links here steps = tree.walkLinks aim links here steps := by
  induction links, here, steps using walk_induction with
  | nil links here => simp
  | skip links here steps ih => simpa using ih (by simpa using settled)
  | stay links here steps ih => simpa using ih (by simpa using settled)
  | up links here steps ih => simpa using ih (by simpa using settled)
  | enter links here name steps inside beyond =>
    rw [walkLinks_enter] at settled ⊢
    rw [walkLinks_enter]
    split
    next => rfl
    next noFile =>
    split
    next => rfl
    next fits =>
    rw [if_neg noFile, if_neg fits] at settled
    have grows := grown.grows (here ++ [name])
    cases found : tree.find? (here ++ [name]) with
    | none =>
      rw [found] at settled
      exact absurd settled (not_settled_missing _ _ _)
    | some entry =>
      rw [found] at settled grows
      cases entry with
      | directory =>
        rw [grows.directory]
        exact inside settled
      | file content =>
        obtain ⟨newer, same⟩ := grows.file
        rw [same]
      | link target =>
        rw [grows.link]
        show (if _ then _ else _) = (if _ then _ else _)
        split
        next => rfl
        next follows =>
        cases links with
        | zero => rfl
        | succ fewer =>
          refine beyond fewer _ target rfl ?_
          have settled : Settled (if _ then _ else _) := settled
          rwa [if_neg follows] at settled

/-! ### Where a walk ends -/

/-- How a walk that begins with a name comes to its end. -/
inductive Enters (tree : FileTree) (aim : Aim) (links : Nat) (here : Location) (name : Name)
    (steps : List Path.Step) : Spot → Prop where
  | vacant : tree.find? (here ++ [name]) = none → isLast aim steps = true →
      Enters tree aim links here name steps (.vacant here name)
  | directory {spot : Spot} : tree.find? (here ++ [name]) = some .directory →
      tree.walkLinks aim links (here ++ [name]) steps = .ok spot →
      Enters tree aim links here name steps spot
  | file {content : ByteArray} : tree.find? (here ++ [name]) = some (.file content) →
      isLast aim steps = true →
      Enters tree aim links here name steps (.existing (here ++ [name]))
  | lastLink {target : Target} : tree.find? (here ++ [name]) = some (.link target) →
      aim = .createDirectory → Enters tree aim links here name steps (.existing (here ++ [name]))
  | link (target : Target) (fewer : Nat) {spot : Spot} :
      tree.find? (here ++ [name]) = some (.link target) → links = fewer + 1 →
      tree.walkLinks aim fewer (if target.isAbsolute then [] else here)
        (target.steps ++ steps) = .ok spot →
      Enters tree aim links here name steps spot

theorem enters_of_walkLinks {name : Name} {spot : Spot}
    (ends : tree.walkLinks aim links here (.enter name :: steps) = .ok spot) :
    ¬Path.longestName < name.size ∧ Enters tree aim links here name steps spot := by
  rw [walkLinks_enter] at ends
  split at ends
  next => cases ends
  next =>
  split at ends
  next => cases ends
  next fits =>
  refine ⟨fits, ?_⟩
  cases found : tree.find? (here ++ [name]) with
  | none =>
    rw [found] at ends
    cases last : isLast aim steps with
    | false =>
      rw [last] at ends
      cases ends
    | true =>
      rw [last] at ends
      cases ends
      exact .vacant found last
  | some entry =>
    rw [found] at ends
    cases entry with
    | directory => exact .directory found ends
    | file content =>
      cases last : isLast aim steps with
      | false =>
        rw [last] at ends
        cases ends
      | true =>
        rw [last] at ends
        cases ends
        exact .file found last
    | link target =>
      have ends : (if _ then _ else _) = Except.ok spot := ends
      split at ends
      next last =>
        cases ends
        rw [Bool.and_eq_true, beq_iff_eq] at last
        exact .lastLink found last.1
      next =>
      cases links with
      | zero => cases ends
      | succ fewer => exact .link target fewer found rfl ends

/-- What stands where a walk from a directory ends, if every entry stands in a directory. -/
def Spot.StandsIn (tree : FileTree) (aim : Aim) : Spot → Prop
  | .existing location => tree.find? location = some .directory ∨
      (∃ content, tree.find? location = some (.file content)) ∨
      aim = .createDirectory ∧ ∃ target, tree.find? location = some (.link target)
  | .vacant directory name =>
    tree.find? directory = some .directory ∧ tree.find? (directory ++ [name]) = none

theorem Rooted.standsIn (rooted : tree.Rooted) (aim : Aim) (links : Nat) (here : Location)
    (steps : List Path.Step) (directory : tree.find? here = some .directory) {spot : Spot}
    (ends : tree.walkLinks aim links here steps = .ok spot) : spot.StandsIn tree aim := by
  induction links, here, steps using walk_induction with
  | nil links here =>
    rw [walkLinks_nil] at ends
    cases ends
    exact .inl directory
  | skip links here steps ih => exact ih directory (by simpa using ends)
  | stay links here steps ih => exact ih directory (by simpa using ends)
  | up links here steps ih => exact ih (rooted.up directory) (by simpa using ends)
  | enter links here name steps inside beyond =>
    cases (enters_of_walkLinks ends).2 with
    | vacant missing _ => exact ⟨directory, missing⟩
    | directory found ends => exact inside found ends
    | file found _ => exact .inr (.inl ⟨_, found⟩)
    | lastLink found last => exact .inr (.inr ⟨last, _, found⟩)
    | link target fewer found same follows =>
      refine beyond fewer _ target same ?_ follows
      split
      · rfl
      · exact directory

theorem walkLinks_slashes (slashes : ∀ step ∈ steps, step = .skip) :
    tree.walkLinks aim links here steps = .ok (.existing here) := by
  induction steps with
  | nil => exact walkLinks_nil
  | cons step steps ih =>
    obtain ⟨rfl, rest⟩ := List.forall_mem_cons.mp slashes
    rw [walkLinks_skip, ih rest]

theorem slashes_of_isLast (last : isLast aim steps = true) : ∀ step ∈ steps, step = .skip := by
  rw [isLast, Bool.or_eq_true, Bool.and_eq_true, endsInSlash, Bool.and_eq_true,
    List.all_eq_true] at last
  rcases last with empty | ⟨_, _, slashes⟩
  · rw [List.isEmpty_iff.mp empty]
    exact List.forall_mem_nil _
  · exact fun step member => beq_iff_eq.mp (slashes step member)

theorem eq_nil_of_isLast (last : isLast aim steps = true) (other : aim ≠ .createDirectory) :
    steps = [] := by
  rw [isLast, beq_eq_false_iff_ne.mpr other, Bool.false_and, Bool.or_false] at last
  exact List.isEmpty_iff.mp last

/-- A last name that is no link is found, or free. -/
theorem walkLinks_lastName (aim : Aim) (links : Nat) {name : Name}
    (short : ¬Path.longestName < name.size)
    (linkless : ∀ target, tree.find? (here ++ [name]) ≠ some (.link target)) :
    tree.walkLinks aim links here [.enter name] =
      .ok (if tree.find? (here ++ [name]) = none then .vacant here name
        else .existing (here ++ [name])) := by
  rw [walkLinks_enter, if_neg (by simp [endsInSlash]), if_neg short]
  cases standing : tree.find? (here ++ [name]) with
  | none => rfl
  | some entry =>
    rw [if_neg (Option.some_ne_none entry)]
    cases entry with
    | directory => exact walkLinks_nil
    | file content => rfl
    | link target => exact absurd standing (linkless target)

/-- **What is put where a name is missing is found there.** -/
theorem walkLinks_of_vacant (aim : Aim) (links : Nat) (here : Location) (steps : List Path.Step)
    {directory : Location} {name : Name} {entry : Entry}
    (missing : tree.walkLinks aim links here steps = .ok (.vacant directory name))
    (grown : tree.Extends later) (placed : later.find? (directory ++ [name]) = some entry)
    (fits : entry = .directory ∨
      aim ≠ .createDirectory ∧ ∃ content, entry = .file content) :
    later.walkLinks .find links here steps = .ok (.existing (directory ++ [name])) := by
  induction links, here, steps using walk_induction with
  | nil links here =>
    rw [walkLinks_nil] at missing
    cases missing
  | skip links here steps ih => simpa using ih (by simpa using missing)
  | stay links here steps ih => simpa using ih (by simpa using missing)
  | up links here steps ih => simpa using ih (by simpa using missing)
  | enter links here next steps inside beyond =>
    obtain ⟨short, enters⟩ := enters_of_walkLinks missing
    rw [walkLinks_enter, if_neg (by simp), if_neg short]
    cases enters with
    | vacant _ last =>
      rw [placed]
      rcases fits with rfl | ⟨other, content, rfl⟩
      · exact walkLinks_slashes (slashes_of_isLast last)
      · rw [eq_nil_of_isLast last other]
        rfl
    | directory found ends =>
      rw [grown.directory found]
      exact inside ends
    | link target fewer found same follows =>
      subst same
      rw [grown.link found]
      exact beyond fewer _ target rfl follows

/-- What is found to be there is there for whoever wants to write it. -/
theorem walkLinks_find_of_writeFile (links : Nat) (here : Location) (steps : List Path.Step)
    {location : Location}
    (ends : tree.walkLinks .writeFile links here steps = .ok (.existing location)) :
    tree.walkLinks .find links here steps = .ok (.existing location) := by
  induction links, here, steps using walk_induction with
  | nil links here => simpa using ends
  | skip links here steps ih => simpa using ih (by simpa using ends)
  | stay links here steps ih => simpa using ih (by simpa using ends)
  | up links here steps ih => simpa using ih (by simpa using ends)
  | enter links here name steps inside beyond =>
    obtain ⟨short, enters⟩ := enters_of_walkLinks ends
    rw [walkLinks_enter, if_neg (by simp), if_neg short]
    cases enters with
    | directory found ends =>
      rw [found]
      exact inside ends
    | file found last =>
      rw [found, eq_nil_of_isLast last nofun]
      rfl
    | lastLink _ other => cases other
    | link target fewer found same follows =>
      subst same
      rw [found]
      exact beyond fewer _ target rfl follows

/-- No directory is created where one is found. -/
theorem walkLinks_createDirectory_of_find (links : Nat) (here : Location)
    (steps : List Path.Step) {location : Location}
    (ends : tree.walkLinks .find links here steps = .ok (.existing location))
    (directory : tree.find? location = some .directory) :
    ∃ other, tree.walkLinks .createDirectory links here steps = .ok (.existing other) := by
  induction links, here, steps using walk_induction with
  | nil links here => exact ⟨here, walkLinks_nil⟩
  | skip links here steps ih => simpa using ih (by simpa using ends)
  | stay links here steps ih => simpa using ih (by simpa using ends)
  | up links here steps ih => simpa using ih (by simpa using ends)
  | enter links here name steps inside beyond =>
    obtain ⟨short, enters⟩ := enters_of_walkLinks ends
    rw [walkLinks_enter, if_neg (by simp), if_neg short]
    cases enters with
    | directory found ends =>
      rw [found]
      exact inside ends
    | file found _ =>
      rw [found] at directory
      cases directory
    | lastLink _ other => cases other
    | link target fewer found same follows =>
      subst same
      rw [found]
      by_cases last : (Aim.createDirectory == .createDirectory && isLast .createDirectory steps)
      · simp only [last, if_true]
        exact ⟨here ++ [name], rfl⟩
      · simp only [last]
        exact beyond fewer _ target rfl follows

/-- Where a directory is found, a walk can stay. -/
theorem walkLinks_find_stay (links : Nat) (here : Location) (steps : List Path.Step)
    {location : Location}
    (ends : tree.walkLinks .find links here steps = .ok (.existing location))
    (directory : tree.find? location = some .directory) :
    tree.walkLinks .find links here (steps ++ [.stay]) = .ok (.existing location) := by
  induction links, here, steps using walk_induction with
  | nil links here => simpa using ends
  | skip links here steps ih => simpa using ih (by simpa using ends)
  | stay links here steps ih => simpa using ih (by simpa using ends)
  | up links here steps ih => simpa using ih (by simpa using ends)
  | enter links here name steps inside beyond =>
    obtain ⟨short, enters⟩ := enters_of_walkLinks ends
    rw [List.cons_append, walkLinks_enter, if_neg (by simp), if_neg short]
    cases enters with
    | directory found ends =>
      rw [found]
      exact inside ends
    | file found _ =>
      rw [found] at directory
      cases directory
    | lastLink _ other => cases other
    | link target fewer found same follows =>
      subst same
      rw [found]
      show tree.walkLinks .find fewer _ (target.steps ++ (steps ++ [.stay])) = _
      rw [← List.append_assoc]
      exact beyond fewer _ target rfl follows

end Phrasebook.FileTree
