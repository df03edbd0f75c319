/-
**Slot groups as shorthand.**

A template as its author means it is a list of marks: text without braces, slot groups, and text
between double braces, such as references. Whatever stands next to what, the search for groups sees
the groups among the marks and nothing else (`pieces_written`).

So a slot group is shorthand for writing the template out once for each alternative, with the
alternative as text in the place of the group (`phrasesOf_group`). Only the phrases of the templates
under a key matter to a compilation (`compileTemplates_congr`), so writing one of them out changes
nothing (`group_is_shorthand`).
-/

import Phrasebook.Proofs.Services
import Phrasebook.Proofs.TemplateForm

namespace Phrasebook

open Text

/-! ### Marks -/

/-- A stretch of a template as its author means it. -/
inductive Mark where
  | text (characters : List Char)
  | group (content : List Char)
  | doubled (content : List Char)
  deriving DecidableEq

namespace Mark

/-- No text has braces, and no group is empty. -/
def Valid : Mark → Prop
  | .text characters => BraceFree characters
  | .group content => content ≠ [] ∧ BraceFree content
  | .doubled content => BraceFree content

instance : DecidablePred Valid
  | .text characters => inferInstanceAs (Decidable (BraceFree characters))
  | .group content => inferInstanceAs (Decidable (content ≠ [] ∧ BraceFree content))
  | .doubled content => inferInstanceAs (Decidable (BraceFree content))

/-- Whether the mark is a slot group. -/
def isGroup : Mark → Bool
  | .group _ => true
  | .text _ | .doubled _ => false

/-- The mark as it is written. -/
def write : Mark → List Char
  | .text characters => characters
  | .group content => groupPattern.write content
  | .doubled content => Phrasebook.doubled content

/-- What the search for groups finds in the mark. -/
def pieces : Mark → List (Piece (List Char))
  | .text characters => characters.map .plain
  | .group content => [.found content]
  | .doubled content => (Phrasebook.doubled content).map .plain

end Mark

/-- The marks as they are written, one after the other. -/
def written (marks : List Mark) : List Char := marks.flatMap Mark.write

/-- The pieces of the marks, one after the other. -/
def piecesOf (marks : List Mark) : List (Piece (List Char)) := marks.flatMap Mark.pieces

@[simp] theorem written_nil : written [] = [] := rfl

@[simp] theorem written_cons (mark : Mark) (marks : List Mark) :
    written (mark :: marks) = mark.write ++ written marks := List.flatMap_cons

@[simp] theorem piecesOf_nil : piecesOf [] = [] := rfl

@[simp] theorem piecesOf_cons (mark : Mark) (marks : List Mark) :
    piecesOf (mark :: marks) = mark.pieces ++ piecesOf marks := List.flatMap_cons

theorem piecesOf_append (first second : List Mark) :
    piecesOf (first ++ second) = piecesOf first ++ piecesOf second := List.flatMap_append

/-- The pieces of marks spell what is written. -/
theorem text_piecesOf (marks : List Mark) : groupPattern.text (piecesOf marks) = written marks := by
  induction marks with
  | nil => rfl
  | cons mark marks ih =>
    rw [piecesOf_cons, written_cons, Pattern.text_append, ih]
    cases mark with
    | text characters => rw [Mark.pieces, Pattern.text_map_plain, Mark.write]
    | group content => simp [Mark.pieces, Mark.write]
    | doubled content => rw [Mark.pieces, Pattern.text_map_plain, Mark.write]

section Marks

variable {marks : List Mark}

/-- No closing brace comes first, so none follows a group. -/
theorem head?_written_ne (valid : ∀ mark ∈ marks, mark.Valid) :
    (written marks).head? ≠ some '}' := by
  induction marks with
  | nil => simp
  | cons mark marks ih =>
    obtain ⟨here, later⟩ := List.forall_mem_cons.mp valid
    rw [written_cons]
    cases mark with
    | text characters =>
      cases characters with
      | nil => exact ih later
      | cons character characters =>
        have plain := (braceFree_cons.mp here).1
        simpa [Mark.write] using (isPlain_iff.mp plain).2
    | group content => simp [Mark.write, groupPattern]
    | doubled content => simp [Mark.write, Phrasebook.doubled]

/-- **The search for groups sees the marks**, unless what stands around them doubles the brace of a
group. -/
theorem piecesFrom_written (valid : ∀ mark ∈ marks, mark.Valid) {previous : Option Char}
    {behind : List Char} (start : (written marks).head? = some '{' → previous ≠ some '{')
    (stop : (written marks).getLast? = some '}' → behind.head? ≠ some '}') :
    groupPattern.piecesFrom 0 previous (written marks ++ behind) =
      piecesOf marks ++ groupPattern.piecesFrom 0 (lastOr previous (written marks)) behind := by
  induction marks generalizing previous with
  | nil => rfl
  | cons mark marks ih =>
    obtain ⟨here, later⟩ := List.forall_mem_cons.mp valid
    have ends : (written marks).getLast? = some '}' → behind.head? ≠ some '}' := by
      intro last
      refine stop ?_
      rw [written_cons, List.getLast?_append, last]
      rfl
    have closed : some '}' ≠ some '{' := by decide
    rw [written_cons] at start stop
    rw [written_cons, piecesOf_cons, List.append_assoc, List.append_assoc, lastOr_append]
    cases mark with
    | text characters =>
      have begins (first : (written marks).head? = some '{') :
          lastOr previous characters ≠ some '{' := by
        refine here.lastOr_ne fun none => start ?_
        rw [Mark.write, none]
        exact first
      rw [Mark.write, piecesFrom_group_text here, ih later begins ends]
      rfl
    | group content =>
      have single : (written marks ++ behind).head? ≠ some '}' := by
        cases rest : written marks with
        | nil =>
          refine stop ?_
          rw [rest, List.append_nil]
          exact List.getLast?_concat (l := '{' :: content)
        | cons character characters =>
          have apart := head?_written_ne later
          rwa [rest] at apart
      have shape : (Mark.group content).write ++ (written marks ++ behind) =
          '{' :: (content ++ '}' :: (written marks ++ behind)) := by simp [Mark.write, groupPattern]
      rw [shape, piecesFrom_group_group (start rfl) here.1 here.2 single,
        ih later (fun _ => closed) ends, Mark.write, lastOr_write_group]
      rfl
    | doubled content =>
      have last : lastOr previous (Phrasebook.doubled content) = some '}' := by
        have shape : Phrasebook.doubled content = '{' :: '{' :: content ++ ['}', '}'] := by
          simp [Phrasebook.doubled]
        rw [shape, lastOr_append]
        rfl
      rw [Mark.write, piecesFrom_group_doubled here, ih later (fun _ => closed) ends, last]
      rfl

theorem pieces_written (valid : ∀ mark ∈ marks, mark.Valid) :
    groupPattern.pieces (written marks) = piecesOf marks := by
  have found : groupPattern.piecesFrom 0 none (written marks ++ []) =
      piecesOf marks ++ groupPattern.piecesFrom 0 (lastOr none (written marks)) [] :=
    piecesFrom_written valid (fun _ => (Option.some_ne_none '{').symm)
      fun _ => (Option.some_ne_none '}').symm
  rw [List.append_nil] at found
  rw [Pattern.pieces, found, Pattern.piecesFrom, List.append_nil]

/-- Marks without a group are plain text to the search. -/
theorem piecesOf_eq_map_plain (groupless : ∀ mark ∈ marks, mark.isGroup = false) :
    piecesOf marks = (written marks).map .plain := by
  induction marks with
  | nil => rfl
  | cons mark marks ih =>
    obtain ⟨here, later⟩ := List.forall_mem_cons.mp groupless
    rw [piecesOf_cons, written_cons, List.map_append, ih later]
    cases mark with
    | group content => cases here
    | text characters => rfl
    | doubled content => rfl

/-- The template of marks. -/
def templateOf (marks : List Mark) : String := String.ofList (written marks)

theorem phrasesOf_templateOf (valid : ∀ mark ∈ marks, mark.Valid) :
    phrasesOf (templateOf marks) = (fillings alternatives (piecesOf marks)).map String.ofList := by
  rw [phrasesOf_eq, templateOf, String.toList_ofList, pieces_written valid]

end Marks

/-- Well-formed templates are made of marks. -/
theorem IsTemplate.exists_marks {characters : List Char} (template : IsTemplate characters) :
    ∃ marks, (∀ mark ∈ marks, mark.Valid) ∧ characters = written marks := by
  induction template with
  | nil => exact ⟨[], List.forall_mem_nil _, rfl⟩
  | @text characters _ free _ ih =>
    obtain ⟨marks, valid, rfl⟩ := ih
    exact ⟨.text characters :: marks, List.forall_mem_cons.mpr ⟨free, valid⟩, rfl⟩
  | @group content _ nonempty free _ ih =>
    obtain ⟨marks, valid, rfl⟩ := ih
    exact ⟨.group content :: marks, List.forall_mem_cons.mpr ⟨⟨nonempty, free⟩, valid⟩,
      by simp [Mark.write, groupPattern]⟩
  | @reference reference _ valid _ ih =>
    obtain ⟨marks, others, rfl⟩ := ih
    exact ⟨.doubled reference.content :: marks,
      List.forall_mem_cons.mpr ⟨valid.content_braceFree, others⟩, rfl⟩

/-! ### Writing a group out -/

theorem braceFree_of_mem_alternatives {content alternative : List Char} (free : BraceFree content)
    (listed : alternative ∈ alternatives content) : BraceFree alternative :=
  fun character member => free character (mem_of_mem_splitOn listed member).1

/-- The templates in which the group between two lists of marks is replaced by each of its
alternatives. -/
def writtenOut (front : List Mark) (content : List Char) (behind : List Mark) : List String :=
  (alternatives content).map fun alternative =>
    templateOf (front ++ .text alternative :: behind)

section WrittenOut

variable {front behind : List Mark} {content : List Char}

/-- **A slot group is shorthand** for the templates in which it is written out: they have its
phrases, one template after the other. -/
theorem phrasesOf_group (valid : ∀ mark ∈ front ++ .group content :: behind, mark.Valid)
    (first : ∀ mark ∈ front, mark.isGroup = false) :
    phrasesOf (templateOf (front ++ .group content :: behind)) =
      phrasesOfAll (writtenOut front content behind) := by
  obtain ⟨before, here, after⟩ := List.forall_mem_append.mp valid |>.imp_right List.forall_mem_cons.mp
  have each : ∀ alternative ∈ alternatives content,
      phrasesOf (templateOf (front ++ .text alternative :: behind)) =
        (fillings alternatives (piecesOf behind)).map fun rest =>
          String.ofList (written front ++ (alternative ++ rest)) := by
    intro alternative listed
    have replaced : ∀ mark ∈ front ++ .text alternative :: behind, mark.Valid :=
      List.forall_mem_append.mpr ⟨before,
        List.forall_mem_cons.mpr ⟨braceFree_of_mem_alternatives here.2 listed, after⟩⟩
    rw [phrasesOf_templateOf replaced, piecesOf_append, piecesOf_cons, piecesOf_eq_map_plain first,
      Mark.pieces, fillings_map_plain, fillings_map_plain, List.map_map, List.map_map]
    rfl
  rw [phrasesOf_templateOf valid, piecesOf_append, piecesOf_cons, piecesOf_eq_map_plain first,
    Mark.pieces, fillings_map_plain, List.singleton_append, fillings, phrasesOfAll, writtenOut,
    List.flatMap_map, List.map_map, List.map_flatMap]
  refine List.flatMap_congr fun alternative listed => ?_
  rw [each alternative listed, List.map_map]
  rfl

end WrittenOut

/-! ### What a compilation sees of templates -/

theorem phrasesOfAll_append (first second : List String) :
    phrasesOfAll (first ++ second) = phrasesOfAll first ++ phrasesOfAll second :=
  List.flatMap_append

namespace TemplateTable

/-- The tables have the same keys, and under each key templates with the same phrases. -/
def SamePhrases (table other : TemplateTable) : Prop :=
  ∀ key, (table.find? key).map phrasesOfAll = (other.find? key).map phrasesOfAll

variable {table other more others : TemplateTable}

theorem SamePhrases.refl (table : TemplateTable) : table.SamePhrases table := fun _ => rfl

theorem SamePhrases.under_eq (same : table.SamePhrases other) (key : String) :
    phrasesOfAll (table.under key) = phrasesOfAll (other.under key) := by
  have phrases (table : TemplateTable) :
      phrasesOfAll (table.under key) = ((table.find? key).map phrasesOfAll).getD [] := by
    unfold under
    cases table.find? key <;> rfl
  rw [phrases, phrases, same key]

theorem SamePhrases.append (same : table.SamePhrases other) (alike : more.SamePhrases others) :
    (table.append more).SamePhrases (other.append others) := by
  intro key
  have added := alike key
  rw [find?_append, find?_append]
  cases one : more.find? key with
  | none =>
    rw [one] at added
    rw [Option.map_eq_none_iff.mp added.symm]
    exact same key
  | some listed =>
    rw [one] at added
    obtain ⟨again, two, phrases⟩ := Option.map_eq_some_iff.mp added.symm
    rw [two]
    refine congrArg some ?_
    rw [phrasesOfAll_append, phrasesOfAll_append, phrases]
    exact congrArg (· ++ _) (same.under_eq key)

/-- Templates with the same phrases can take the place of those under a key. -/
theorem samePhrases_insert {key : String} {templates rewritten : List String}
    (found : table.find? key = some templates)
    (same : phrasesOfAll rewritten = phrasesOfAll templates) :
    SamePhrases (table.insert key rewritten) table := by
  intro probe
  rw [Dictionary.find?_insert]
  split
  next equal =>
    rw [Std.LawfulEqCmp.eq_of_compare equal, found]
    exact congrArg some same
  next => rfl

theorem SamePhrases.expansions_eq (same : table.SamePhrases other) (language : String)
    (catalog : Catalog) :
    (table.mapValues fun _ templates => Expansion.ofTemplates templates language catalog) =
      other.mapValues fun _ templates => Expansion.ofTemplates templates language catalog := by
  have phrases (table : TemplateTable) (key : String) :
      (table.mapValues fun _ templates =>
          Expansion.ofTemplates templates language catalog).find? key =
        ((table.find? key).map phrasesOfAll).map fun phrases =>
          ⟨phrases, phrases.flatMap fun phrase => utterancesOf phrase language catalog⟩ := by
    rw [Dictionary.find?_mapValues, Option.map_map]
    rfl
  refine Dictionary.ext_find? fun key => ?_
  rw [phrases, phrases, same key]

end TemplateTable

/-- The services fail alike, or they offer tables with the same phrases. -/
inductive OffersAlike (language : String) (service other : TemplateService) : Prop where
  | same : service.contribution language = other.contribution language →
      OffersAlike language service other
  | phrases {table more : TemplateTable} : service.offer language = .ok table →
      other.offer language = .ok more → table.SamePhrases more → OffersAlike language service other

section Compilations

variable {intents : List Intent} {catalog : Catalog} {language : String}

theorem compileTemplates_cons (service : TemplateService) (services : List TemplateService)
    (base : TemplateTable) :
    compileTemplates intents (service :: services) catalog language base =
      service.contribution language >>= fun table =>
        compileTemplates intents services catalog language (base.append table) := by
  unfold compileTemplates
  rw [withServices_cons]
  cases service.contribution language <;> rfl

/-- **Only the phrases matter** of the templates under a key, those of the base and those of the
services. -/
theorem compileTemplates_congr {services others : List TemplateService}
    (alike : List.Forall₂ (OffersAlike language) services others) {base other : TemplateTable}
    (same : base.SamePhrases other) :
    compileTemplates intents services catalog language base =
      compileTemplates intents others catalog language other := by
  induction alike generalizing base other with
  | nil =>
    show compileExpansions intents _ language catalog = compileExpansions intents _ language catalog
    rw [same.expansions_eq language catalog]
  | @cons service another services others offers _ ih =>
    rw [compileTemplates_cons, compileTemplates_cons]
    cases offers with
    | same equal =>
      rw [← equal]
      cases service.contribution language with
      | error error => rfl
      | ok table => exact ih (same.append (TemplateTable.SamePhrases.refl table))
    | @phrases table more offered again phrases =>
      rw [contribution_eq_ok_iff.mpr offered, contribution_eq_ok_iff.mpr again]
      exact ih (same.append phrases)

theorem forall₂_offersAlike (services : List TemplateService) :
    List.Forall₂ (OffersAlike language) services services :=
  List.forall₂_same.mpr fun _ _ => .same rfl

end Compilations

/-- **Slot groups are shorthand.** The phrases of a template are those of the templates in which its
first group is written out, and a compilation comes to the same, faults and warnings included, when
these stand in the place of the template, in the base or in what a service offers. -/
theorem group_is_shorthand {front behind : List Mark} {content : List Char}
    (valid : ∀ mark ∈ front ++ .group content :: behind, mark.Valid)
    (first : ∀ mark ∈ front, mark.isGroup = false) :
    let template := templateOf (front ++ .group content :: behind)
    let templates := writtenOut front content behind
    phrasesOf template = phrasesOfAll templates ∧
      (∀ intents services catalog language (base : TemplateTable) key before after,
        base.find? key = some (before ++ template :: after) →
          compileTemplates intents services catalog language
              (base.insert key (before ++ templates ++ after)) =
            compileTemplates intents services catalog language base) ∧
      ∀ intents early (service : TemplateService) late catalog language base
          (table : TemplateTable) key before after,
        service.offer language = .ok table →
          table.find? key = some (before ++ template :: after) →
            compileTemplates intents (early ++ ⟨service.name, fun _ =>
                .ok (table.insert key (before ++ templates ++ after))⟩ :: late) catalog language base =
              compileTemplates intents (early ++ service :: late) catalog language base := by
  intro template templates
  have phrases : phrasesOf template = phrasesOfAll templates := phrasesOf_group valid first
  have same (before after : List String) :
      phrasesOfAll (before ++ templates ++ after) = phrasesOfAll (before ++ template :: after) := by
    rw [phrasesOfAll_append, phrasesOfAll_append, phrasesOfAll_append, ← phrases, List.append_assoc]
    rfl
  refine ⟨phrases, ?_, ?_⟩
  · intro intents services catalog language base key before after found
    exact compileTemplates_congr (forall₂_offersAlike services)
      (TemplateTable.samePhrases_insert found (same before after))
  · intro intents early service late catalog language base table key before after offered found
    have alike : OffersAlike language ⟨service.name, fun _ =>
        .ok (table.insert key (before ++ templates ++ after))⟩ service :=
      .phrases rfl offered (TemplateTable.samePhrases_insert found (same before after))
    exact compileTemplates_congr (List.rel_append (forall₂_offersAlike early)
      (.cons alike (forall₂_offersAlike late)))
      (TemplateTable.SamePhrases.refl base)

/-- An empty alternative, and a group and references beside the group that is written out. -/
theorem seats_written_out :
    let front : List Mark := [.text "in ".toList, .doubled "n".toList]
    let behind : List Mark := [.group "p|q".toList, .doubled "-|n".toList]
    let catalog := EntityTable.catalog (Dictionary.empty.insert "n" (.ofKind "T"))
    let seats (templates : List String) : TemplateTable :=
      Dictionary.empty.insert "BookIntent" (["hi"] ++ templates ++ ["bye"])
    let template := "in \x7b\x7bn\x7d\x7d\x7bx||y\x7d\x7bp|q\x7d\x7b\x7b-|n\x7d\x7d"
    let templates := ["in \x7b\x7bn\x7d\x7dx\x7bp|q\x7d\x7b\x7b-|n\x7d\x7d",
      "in \x7b\x7bn\x7d\x7d\x7bp|q\x7d\x7b\x7b-|n\x7d\x7d",
      "in \x7b\x7bn\x7d\x7dy\x7bp|q\x7d\x7b\x7b-|n\x7d\x7d"]
    (∀ mark ∈ front ++ .group "x||y".toList :: behind, mark.Valid) ∧
      (∀ mark ∈ front, mark.isGroup = false) ∧
      templateOf (front ++ .group "x||y".toList :: behind) = template ∧
      writtenOut front "x||y".toList behind = templates ∧
      phrasesOf template = phrasesOfAll templates ∧
      compileTemplates [.explicit "Book"] [] catalog "en" (seats templates) =
        compileTemplates [.explicit "Book"] [] catalog "en" (seats [template]) ∧
      compileTemplates [.explicit "Book"] [⟨"seats", fun _ => .ok (seats templates)⟩] catalog "en"
          .empty =
        compileTemplates [.explicit "Book"] [⟨"seats", fun _ => .ok (seats [template])⟩] catalog "en"
          .empty := by
  intro front behind catalog seats template templates
  have valid : ∀ mark ∈ front ++ .group "x||y".toList :: behind, mark.Valid := by decide +kernel
  have first : ∀ mark ∈ front, mark.isGroup = false := by decide +kernel
  obtain ⟨phrases, inBase, inService⟩ := group_is_shorthand valid first
  refine ⟨valid, first, by decide +kernel, by decide +kernel, phrases, ?_, ?_⟩
  · exact inBase [.explicit "Book"] [] catalog "en" (seats [template]) "BookIntent" ["hi"] ["bye"] rfl
  · exact inService [.explicit "Book"] [] ⟨"seats", fun _ => .ok (seats [template])⟩ [] catalog "en"
      .empty (seats [template]) "BookIntent" ["hi"] ["bye"] rfl rfl

end Phrasebook
