/-
**The program.**

`main` learns from the disk what a run can get to see, lets `perform` do the run on the file tree
learned, and carries out on the disk what has changed in that tree.
-/

import Phrasebook.CommandLine.Run

namespace Phrasebook.CommandLine

/-- The path of a location on the disk. -/
def diskPath (location : Location) : String := "/" ++ "/".intercalate (location.drop 0)

/-- The target given to links that lead nowhere, which is below no directory. -/
def nowhere : Target := ⟨"/\x00/\x00"⟩

/-- What stands at a location on the disk, a link with the place where it leads in the end. -/
def entryOnDisk (location : Location) : IO (Option Entry) := do
  let path := (← IO.currentDir) / diskPath location
  match ← path.symlinkMetadata.toBaseIO with
  | .error _ => return none
  | .ok data =>
    match data.type with
    | .dir => return some .directory
    | .symlink =>
      match ← (IO.FS.realPath path).toBaseIO with
      | .ok target => return some (.link ⟨target.toString⟩)
      | .error _ => return some (.link nowhere)
    | _ => return some (.file (← IO.FS.readBinFile path))

/-- Learns what stands along steps that are taken from a directory. -/
partial def learnSteps (tree : FileTree) (here : Location) : List Path.Step → IO FileTree
  | [] => return tree
  | .skip :: steps | .stay :: steps => learnSteps tree here steps
  | .up :: steps => learnSteps tree here.dropLast steps
  | .enter name :: steps => do
    let location := here ++ [name]
    let some entry ← entryOnDisk location | return tree
    let tree := tree.place location entry
    match entry with
    | .directory => learnSteps tree location steps
    | .link target => learnSteps tree [] (target.steps ++ steps)
    | .file _ => return tree

/-- Learns what stands along a path. -/
def learn (tree : FileTree) (path : Path) : IO FileTree :=
  if path.text.isEmpty || path.text.toList.contains '\x00' then return tree
  else learnSteps tree (if path.isAbsolute then [] else tree.workingDirectory) path.steps

/-- The names in the directory that a path leads to. -/
def namesIn (tree : FileTree) (path : Path) : IO (List String) := do
  match tree.locate path with
  | .error _ => return []
  | .ok location =>
    let directory := (← IO.currentDir) / diskPath location
    match ← directory.readDir.toBaseIO with
    | .ok children => return (children.map (·.fileName)).toList
    | .error _ => return []

/-- Learns what a build with the given settings can get to see. -/
def learnBuild (tree : FileTree) (settings : Settings) (buildRoot : Path) : IO FileTree := do
  let tree ← settings.entityFile.toList.foldlM learn tree
  let tree ← learn tree settings.templateDirectory
  let tree ← learn tree buildRoot
  let languages ← namesIn tree settings.templateDirectory
  languages.foldlM (fun tree language => do
    let output := Project.outputDirectory buildRoot language
    [settings.templateDirectory.join ⟨language⟩,
      LanguageTable.templatePath settings.templateDirectory language settings.templateFile,
      output, output.join ⟨Generator.manifestFileName⟩].foldlM learn tree) tree

/-- Learns what a run with the given arguments can get to see. -/
def learnRun (tree : FileTree) (arguments : Arguments) : IO FileTree := do
  let tree ← arguments.config.toList.foldlM learn tree
  match arguments.settings tree with
  | .ok settings =>
    learnBuild tree settings (arguments.buildDirectory.getD defaultBuildDirectory)
  | .error _ => return tree

/-- The tree of which nothing but the working directory is known. -/
def startingTree : IO FileTree := do
  let steps := (Path.mk (← IO.currentDir).toString).steps
  return .bare (steps.filterMap fun
    | .enter name => some name
    | _ => none)

/-- Carries out on the disk what differs between two trees. -/
def carryOut (before after : FileTree) : IO Unit := do
  for (location, entry) in after.entries.entries do
    unless before.find? location = some entry do
      match entry with
      | .directory => IO.FS.createDir (diskPath location)
      | .file content => IO.FS.writeBinFile (diskPath location) content
      | .link _ => pure ()

end Phrasebook.CommandLine

open Phrasebook.CommandLine

/-- Runs the program with the arguments of its command line. -/
def main (arguments : List String) : IO UInt32 := do
  let request := parse arguments (← IO.getEnv configVariable)
  let start ← startingTree
  let before ← match request with
    | .run given => learnRun start given
    | _ => pure start
  let outcome := perform request before
  carryOut before outcome.tree
  IO.print outcome.stdout
  IO.eprint outcome.stderr
  return outcome.exitCode.toUInt32
