/-
**Operations on file trees.**

Reading a text, writing a file and creating directories. Each operation that changes the tree gives
the tree back, unchanged where it failed; only `createDirectories` may have created some of the
directories before it fails.
-/

import Phrasebook.FileTree.Basic

namespace Phrasebook.FileTree

/-- The bytes of the file that a path leads to. -/
def readBytes (tree : FileTree) (path : Path) : Except FileError ByteArray := do
  let location ← tree.locate path
  match tree.find? location with
  | some (.file content) => .ok content
  | some .directory => .error .isADirectory
  | _ => .error .notFound

/-- The text of the file that a path leads to, which must be UTF-8. -/
def readText (tree : FileTree) (path : Path) : Except FileError String := do
  match String.fromUTF8? (← tree.readBytes path) with
  | some text => .ok text
  | none => .error .notText

/-- Writes a file, instead of an older one or as a new one in an existing directory. -/
def writeText (tree : FileTree) (path : Path) (text : String) : Except FileError FileTree := do
  match ← tree.resolve .writeFile path with
  | .vacant directory name => .ok (tree.place (directory ++ [name]) (.file text.toUTF8))
  | .existing location =>
    if tree.find? location = some .directory then .error .isADirectory
    else .ok (tree.place location (.file text.toUTF8))

/-- Creates a directory in an existing one. -/
def createDirectory (tree : FileTree) (path : Path) : Except FileError FileTree := do
  match ← tree.resolve .createDirectory path with
  | .vacant directory name => .ok (tree.place (directory ++ [name]) .directory)
  | .existing _ => .error .exists

/-- Creates the first of the paths as a directory, and before that the ones behind it where they are
missing. The path without any step is where one is already. -/
def createAlong (tree : FileTree) : List Path → Option FileError × FileTree
  | [] => (some .notFound, tree)
  | path :: parents =>
    if path.text.isEmpty then (none, tree)
    else match tree.createDirectory path with
      | .ok tree => (none, tree)
      | .error .notFound =>
        match tree.createAlong parents with
        | (some error, tree) => (some error, tree)
        | (none, tree) =>
          match tree.createDirectory path with
          | .ok tree => (none, tree)
          | .error error => (if tree.isDirectory path then none else some error, tree)
      | .error error => (if tree.isDirectory path then none else some error, tree)

/-- Creates a directory and those above it, where they are missing. -/
def createDirectories (tree : FileTree) (path : Path) : Option FileError × FileTree :=
  tree.createAlong path.ancestors

end Phrasebook.FileTree
