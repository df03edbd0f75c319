/-
**File trees.**

A file tree says what stands at which location: directories, files with their bytes, and symbolic
links with their target. A location is the list of names that leads from the root to it; the root is
a directory. `resolve` finds the location of a path, going through the symbolic links on its way.

Every file stands at one location: that it may have several names, by hard links, is left out, and
so are permissions and whatever is neither a directory nor a file nor a link. Names in the tree and
targets of links may be any bytes, but the paths that are resolved are texts.
-/

import Phrasebook.Dictionary
import Phrasebook.FileTree.Path

namespace Phrasebook

/-- The names that lead from the root of a tree to a place in it. -/
abbrev Location := List Name

/-- The names of a location as they are shown, without the first ones. -/
def Location.drop (location : Location) (count : Nat) : List String :=
  (List.drop count location).map RawText.shown

/-- What stands at a location. -/
inductive Entry where
  | directory
  | file (content : ByteArray)
  | link (target : Target)

instance : DecidableEq Entry
  | .directory, .directory => isTrue rfl
  | .file first, .file second =>
    if same : first.data = second.data then isTrue (congrArg Entry.file (ByteArray.ext same))
    else isFalse fun equal => same (by cases equal; rfl)
  | .link first, .link second =>
    if same : first = second then isTrue (congrArg Entry.link same)
    else isFalse fun equal => same (by cases equal; rfl)
  | .directory, .file _ | .directory, .link _ | .file _, .directory | .file _, .link _
  | .link _, .directory | .link _, .file _ => isFalse nofun

/-- The entries below the root, and the location that relative paths begin at. -/
structure FileTree where
  entries : Dictionary Location Entry
  workingDirectory : Location
  deriving DecidableEq

/-- Why an operation on files failed. -/
inductive FileError where
  | notFound
  | exists
  | notADirectory
  | isADirectory
  | nameTooLong
  | tooManyLinks
  | nulInPath
  | notText
  | other (reason : String)
  deriving DecidableEq, Repr

/-- The failure in words. -/
def FileError.message : FileError → String
  | .notFound => "No such file or directory (os error 2)"
  | .exists => "File exists (os error 17)"
  | .notADirectory => "Not a directory (os error 20)"
  | .isADirectory => "Is a directory (os error 21)"
  | .nameTooLong => "File name too long (os error 36)"
  | .tooManyLinks => "Too many levels of symbolic links (os error 40)"
  | .nulInPath => "file name contained an unexpected NUL byte"
  | .notText => "stream did not contain valid UTF-8"
  | .other reason => reason

namespace FileTree

/-- The locations that the way to a location leads through, the last one included. -/
def waypoints : Location → List Location
  | [] => []
  | name :: names => [name] :: (waypoints names).map (name :: ·)

/-- The tree that holds nothing but the way to its working directory. -/
def bare (workingDirectory : Location) : FileTree where
  entries := .ofList ((waypoints workingDirectory).map fun location => (location, .directory))
  workingDirectory := workingDirectory

/-- What stands at a location. -/
def find? (tree : FileTree) : Location → Option Entry
  | [] => some .directory
  | location => tree.entries.find? location

/-- The names in a directory with what they stand for, in ascending order. -/
def children (tree : FileTree) (directory : Location) : List (Name × Entry) :=
  tree.entries.entries.filterMap fun (location, entry) =>
    match location.getLast? with
    | some name => if location.dropLast = directory then some (name, entry) else none
    | none => none

/-- The tree with something put at a location. -/
def place (tree : FileTree) (location : Location) (entry : Entry) : FileTree :=
  { tree with entries := tree.entries.insert location entry }

/-! ### Resolving paths -/

/-- Where a path leads: to something, or to a free name in a directory. -/
inductive Spot where
  | existing (location : Location)
  | vacant (directory : Location) (name : Name)
  deriving DecidableEq, Repr

/-- What a path is resolved for: to find what it leads to, to write a file there, or to create a
directory there. -/
inductive Aim where
  | find
  | writeFile
  | createDirectory
  deriving DecidableEq, Repr

/-- Whether nothing but slashes follows the last name of a path, and at least one. -/
def endsInSlash (steps : List Path.Step) : Bool := !steps.isEmpty && steps.all (· == .skip)

/-- Whether a name is the last of a path, given the steps behind it. Slashes there ask for a
directory, so they make no difference where one is to be created. -/
def isLast (aim : Aim) (steps : List Path.Step) : Bool :=
  steps.isEmpty || (aim == .createDirectory && endsInSlash steps)

/-- Takes steps from a directory. A link is handed to `onLink`, with the directory and the steps to
take from there instead; in place of a link that is the last name no directory can be created. No
file can be written where slashes follow the last name. -/
def walk (tree : FileTree) (aim : Aim)
    (onLink : Location → List Path.Step → Except FileError Spot) :
    Location → List Path.Step → Except FileError Spot
  | here, [] => .ok (.existing here)
  | here, .skip :: steps => walk tree aim onLink here steps
  | here, .stay :: steps => walk tree aim onLink here steps
  | here, .up :: steps => walk tree aim onLink here.dropLast steps
  | here, .enter name :: steps =>
    if aim == .writeFile && endsInSlash steps then .error .isADirectory
    else if Path.longestName < name.size then .error .nameTooLong
    else
      let location := here ++ [name]
      match tree.find? location with
      | none => if isLast aim steps then .ok (.vacant here name) else .error .notFound
      | some .directory => walk tree aim onLink location steps
      | some (.file _) =>
        if isLast aim steps then .ok (.existing location) else .error .notADirectory
      | some (.link target) =>
        if aim == .createDirectory && isLast aim steps then .ok (.existing location)
        else onLink (if target.isAbsolute then [] else here) (target.steps ++ steps)

/-- Takes steps from a directory, through at most `links` symbolic links. -/
def walkLinks (tree : FileTree) (aim : Aim) :
    Nat → Location → List Path.Step → Except FileError Spot
  | 0 => walk tree aim fun _ _ => .error .tooManyLinks
  | links + 1 => walk tree aim fun here steps => walkLinks tree aim links here steps

/-- The number of symbolic links that a path may lead through. -/
def linkLimit : Nat := 40

/-- Where steps lead that are taken from the beginning of a path, if as many bytes may be asked
for. -/
def resolveSteps (tree : FileTree) (aim : Aim) (path : Path) (steps : List Path.Step)
    (size : Nat) : Except FileError Spot :=
  if path.text.toList.contains '\x00' then .error .nulInPath
  else if Path.longestPath < size then .error .nameTooLong
  else walkLinks tree aim linkLimit (if path.isAbsolute then [] else tree.workingDirectory) steps

/-- Where a path leads. -/
def resolve (tree : FileTree) (aim : Aim) (path : Path) : Except FileError Spot :=
  if path.text.isEmpty then .error .notFound
  else tree.resolveSteps aim path path.steps path.text.utf8ByteSize

/-- The location of a spot, if something is there. -/
def Spot.location : Spot → Except FileError Location
  | .existing location => .ok location
  | .vacant _ _ => .error .notFound

/-- The location of what a path leads to, links followed. -/
def locate (tree : FileTree) (path : Path) : Except FileError Location := do
  (← tree.resolve .find path).location

/-- The location of what a name in a directory leads to, links followed. -/
def locateIn (tree : FileTree) (directory : Path) (name : Name) : Except FileError Location := do
  let steps := directory.approach ++ [.enter name]
  let size := (directory.join ⟨""⟩).text.utf8ByteSize + name.size
  (← tree.resolveSteps .find directory steps size).location

/-- What a path leads to, links followed. -/
def target? (tree : FileTree) (path : Path) : Option Entry :=
  match tree.locate path with
  | .ok location => tree.find? location
  | .error _ => none

/-- Whether a path leads to a file. -/
def isFile (tree : FileTree) (path : Path) : Bool :=
  match tree.target? path with
  | some (.file _) => true
  | _ => false

/-- Whether a path leads to a directory. -/
def isDirectory (tree : FileTree) (path : Path) : Bool := tree.target? path == some .directory

end FileTree

end Phrasebook
