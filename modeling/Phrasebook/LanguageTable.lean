/-
**The templates of all languages.**

Below a directory, each directory stands for a language and may hold a template file. `load` first
goes through all names in the directory, in their order, and fails if one cannot be followed; then
it reads the template files in the same order and fails at the first that is not one. Languages
without a template file are left out, and so are directories whose name is not a text.
-/

import Phrasebook.FileTree.Operations
import Phrasebook.Formats.Entity

namespace Phrasebook

open FileTree

/-- The template table of each language. -/
abbrev LanguageTable := Dictionary String TemplateTable

namespace LanguageTable

/-! ### Scanning -/

/-- Whether the name in a directory at `root` stands for a directory, links followed. It is a fault
when a link leads nowhere, or back to the directory itself. -/
def scanEntry (tree : FileTree) (directory : Path) (root : Location) (name : Name)
    (entry : Entry) : Except ScanFault Bool :=
  match entry with
  | .directory => .ok true
  | .file _ => .ok false
  | .link _ =>
    let path := directory.join ⟨name.shown⟩
    match tree.locateIn directory name with
    | .error error => .error (.file path error)
    | .ok location =>
      if tree.find? location = some .directory then
        if location = root then .error (.loop path directory) else .ok true
      else .ok false

/-- The names of those entries that stand for directories. -/
def scanEntries (tree : FileTree) (directory : Path) (root : Location) :
    List (Name × Entry) → Except ScanFault (List Name)
  | [] => .ok []
  | (name, entry) :: entries => do
    let isDirectory ← scanEntry tree directory root name entry
    let names ← scanEntries tree directory root entries
    return if isDirectory then name :: names else names

/-- The names of the directories in a directory, in their order. A file has none. -/
def scan (tree : FileTree) (directory : Path) : Except ScanFault (List Name) :=
  match tree.locate directory with
  | .error error => .error (.file directory error)
  | .ok root =>
    if tree.find? root = some .directory then
      scanEntries tree directory root (tree.children root)
    else .ok []

/-! ### Loading -/

/-- The path of a language's template file. -/
def templatePath (directory : Path) (language fileName : String) : Path :=
  (directory.join ⟨language⟩).join ⟨fileName⟩

/-- The template table in a file. -/
def readTemplates (tree : FileTree) (path : Path) : Except BuildError TemplateTable :=
  match tree.readText path with
  | .error error => .error (.file .readTemplates path error)
  | .ok text =>
    match TemplateTable.format.readText text with
    | .error fault => .error (.malformedTemplates path fault)
    | .ok templates => .ok templates

/-- The templates of those languages that have a template file, from the names of directories. -/
def readLanguages (tree : FileTree) (directory : Path) (fileName : String) :
    List Name → Except BuildError (List (String × TemplateTable))
  | [] => .ok []
  | name :: names =>
    match name.text? with
    | none => readLanguages tree directory fileName names
    | some language => do
      let path := templatePath directory language fileName
      if tree.isFile path then
        let templates ← readTemplates tree path
        return (language, templates) :: (← readLanguages tree directory fileName names)
      else readLanguages tree directory fileName names

/-- The templates below a directory, from the files of the given name. -/
def load (tree : FileTree) (directory : Path) (fileName : String) :
    Except BuildError LanguageTable :=
  match scan tree directory with
  | .error fault => .error (.scan directory fault)
  | .ok names => (readLanguages tree directory fileName names).map .ofList

end LanguageTable

end Phrasebook
