/-
**Paths as they are written.**

A path is shown exactly as it was given, so it is kept as text; nothing is simplified in it. `join`
appends a path, unless that is absolute, and `parent?` leaves out the last step together with the
idle ones beside it. Paths that a program is given are texts here; names in a directory and the
targets of links may be any bytes.
-/

import Phrasebook.FileTree.RawText
import Phrasebook.Text.Split

namespace Phrasebook

open Text

/-- The name of an entry of a directory. -/
abbrev Name := RawText

/-- A path as it is written, its steps separated by slashes. -/
structure Path where
  text : String
  deriving DecidableEq, Repr, Inhabited

namespace Path

/-- What one part of a path asks for. An empty part, before or behind a slash, asks for nothing. -/
inductive Step where
  | skip
  | stay
  | up
  | enter (name : Name)
  deriving DecidableEq, Repr

/-- The step that a part of a path asks for. -/
def Step.of (part : RawText) : Step :=
  if part = .of "" then .skip
  else if part = .of "." then .stay
  else if part = .of ".." then .up
  else .enter part

/-- The parts of the path between the slashes. -/
def parts (path : Path) : List (List Char) := splitOn '/' path.text.toList

/-- The path of parts. -/
def ofParts (parts : List (List Char)) : Path := ⟨String.ofList (joinWith '/' parts)⟩

/-- The step of a part. -/
def stepOf (part : List Char) : Step := .of (String.ofList part)

/-- The steps of the path. -/
def steps (path : Path) : List Step := path.parts.map stepOf

/-- The size of the longest name of an entry, in bytes. -/
def longestName : Nat := 255

/-- The size of the longest path, in UTF-8 bytes. -/
def longestPath : Nat := 4095

/-- Whether the path begins at the root of the tree. -/
def isAbsolute (path : Path) : Bool := path.text.toList.head? == some '/'

/-- `other` as seen from `base`: an absolute path stays, any other is put behind `base`. -/
def join (base other : Path) : Path :=
  if other.isAbsolute then other
  else if base.text.isEmpty || base.text.toList.getLast? == some '/' then ⟨base.text ++ other.text⟩
  else ⟨base.text ++ "/" ++ other.text⟩

/-- Whether a name can be put right behind the path, without another slash. -/
def isOpen (base : Path) : Bool := base.text.isEmpty || base.text.toList.getLast? == some '/'

/-- The parts of a path that come before the name that is joined to it. -/
def leading (base : Path) : List (List Char) :=
  if base.isOpen then base.parts.dropLast else base.parts

/-- The steps of a path that come before the name that is joined to it. -/
def approach (base : Path) : List Step := base.leading.map stepOf

/-- The parts, last one first, without the idle ones at the end; the first part of a path stays. -/
def dropIdle : List (List Char) → List (List Char)
  | part :: earlier :: rest =>
    if part = [] ∨ part = ['.'] then dropIdle (earlier :: rest) else part :: earlier :: rest
  | parts => parts

/-- The path without its last step, if it has any. -/
def parent? (path : Path) : Option Path :=
  match dropIdle path.parts.reverse with
  | [] | [[]] => none
  | [_] => some ⟨""⟩
  | _ :: earlier =>
    match dropIdle earlier with
    | [[]] => some ⟨"/"⟩
    | parts => some (ofParts parts.reverse)

/-- The path and those that it runs through, the longest first, at most `fuel` many. -/
def ancestorsWithin : Nat → Path → List Path
  | 0, _ => []
  | fuel + 1, path =>
    path :: match path.parent? with
      | none => []
      | some parent => ancestorsWithin fuel parent

/-- The path and those that it runs through, the longest first. -/
def ancestors (path : Path) : List Path := ancestorsWithin (path.parts.length + 1) path

end Path

/-- Where a link leads, as a path that may be any bytes. -/
structure Target where
  raw : RawText
  deriving DecidableEq, Repr

namespace Target

/-- The byte between the steps of a target. -/
def slash : UInt8 := 0x2F

/-- Whether the target begins at the root of the tree. -/
def isAbsolute (target : Target) : Bool := target.raw.bytes.head? == some slash

/-- The steps of the target. -/
def steps (target : Target) : List Path.Step :=
  (splitOn slash target.raw.bytes).map fun part => .of ⟨part⟩

end Target

end Phrasebook
