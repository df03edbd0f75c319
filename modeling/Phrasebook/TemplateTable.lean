/-
**Templates by key, and who contributes them.**

A template table lists the templates under each key. Template services add to the table of a
language; `TemplateTable.withServices` asks them in order and stops at the first that fails.
-/

import Phrasebook.BuildError

namespace Phrasebook

/-- Templates by template key. -/
abbrev TemplateTable := Dictionary String (List String)

/-- A contributor of templates for a language, which may fail with a reason. -/
structure TemplateService where
  name : String
  offer : String → Except String TemplateTable

namespace TemplateTable

/-- The table with the entries put behind what is there under their keys. -/
def appendEntries (templates : TemplateTable) : List (String × List String) → TemplateTable
  | [] => templates
  | (key, more) :: entries =>
    appendEntries (templates.update key fun there => there.getD [] ++ more) entries

/-- The table with the templates of another one put behind its own. -/
def append (templates more : TemplateTable) : TemplateTable := templates.appendEntries more.entries

end TemplateTable

/-- The templates of a service for a language. -/
def TemplateService.contribution (service : TemplateService) (language : String) :
    Except BuildError TemplateTable :=
  match service.offer language with
  | .ok templates => .ok templates
  | .error reason => .error (.serviceFailed service.name language reason)

/-- The templates with those of all services for a language behind them. -/
def TemplateTable.withServices (base : TemplateTable) (services : List TemplateService)
    (language : String) : Except BuildError TemplateTable :=
  services.foldlM (fun templates service =>
    (service.contribution language).map templates.append) base

end Phrasebook
