/-
**What comes of loading templates.**

Loading scans a directory and then reads the files in its subdirectories. `Loading` says what comes of
it without the two passes: a directory that is missing; or else the first name that cannot be followed;
or else the first file that is not a template file; and if there is none of these, the tables of the
subdirectories that hold a file. These are the ones whose name is a text, the language, and whose path
with the file name behind it leads to a file. Nothing else in the directory is mentioned, and
`load_iff` says that nothing else matters; `load_goes_by_texts_and_paths` shows what this leaves out
and takes in.

Whether a file is a template file is told by its bytes alone: they must be the text of a JSON object of
lists of strings (`Describes`).
-/

import Phrasebook.Proofs.Formats
import Phrasebook.Proofs.Scan

namespace Phrasebook

namespace LanguageTable

open FileTree

/-! ### What there is to load -/

/-- The subdirectory that is named for the language holds a file with the bytes: the path of the file
leads to it. -/
def Holds (tree : FileTree) (directory : Path) (fileName language : String)
    (content : ByteArray) : Prop :=
  Subdirectory tree directory language ∧
    tree.target? (templatePath directory language fileName) = some (.file content)

/-- The JSON object of lists of templates. -/
def jsonOf (entries : List (String × List String)) : Json :=
  .object (entries.map fun entry => (entry.1, .array (entry.2.map .string)))

/-- The bytes are the text of a JSON object of lists of strings, which make up the table. -/
def Describes (content : ByteArray) (table : TemplateTable) : Prop :=
  ∃ text entries, content = String.toUTF8 text ∧ Json.parse? text = some (jsonOf entries) ∧
    table = .ofList entries

/-- The error of a template file that is none: it has no text, or one that is not the JSON object of
lists of strings. -/
inductive Malformed (path : Path) (content : ByteArray) : BuildError → Prop where
  | notText : (∀ text, content ≠ String.toUTF8 text) →
      Malformed path content (.file .readTemplates path .notText)
  | notTemplates {text : String} {fault : Json.Fault} : content = text.toUTF8 →
      (∀ entries, Json.parse? text ≠ some (jsonOf entries)) →
      TemplateTable.format.readText text = .error fault →
      Malformed path content (.malformedTemplates path fault)

/-- The subdirectory of the name, which is a text, holds a file that is not a template file. -/
def Unreadable (tree : FileTree) (directory : Path) (fileName : String) (name : Name) : Prop :=
  ∃ language content, name.text? = some language ∧
    Holds tree directory fileName language content ∧ ∀ table, ¬ Describes content table

/-- What comes of loading the templates in a directory. -/
inductive Loading (tree : FileTree) (directory : Path) (fileName : String) :
    Except BuildError LanguageTable → Prop where
  | missing {error : FileError} : tree.locate directory = .error error →
      Loading tree directory fileName (.error (.scan directory (.file directory error)))
  | unfollowed {name : Name} {fault : ScanFault} :
      IsFirst (fun name => ∃ fault, Unfollowed tree directory name fault) name →
      Unfollowed tree directory name fault →
      Loading tree directory fileName (.error (.scan directory fault))
  | malformed {language : String} {content : ByteArray} {error : BuildError} :
      (∀ name fault, ¬ Unfollowed tree directory name fault) →
      IsFirst (Unreadable tree directory fileName) language →
      Holds tree directory fileName language content →
      Malformed (templatePath directory language fileName) content error →
      Loading tree directory fileName (.error error)
  | loaded {root : Location} {table : LanguageTable} : tree.locate directory = .ok root →
      (∀ name fault, ¬ Unfollowed tree directory name fault) →
      (∀ name, ¬ Unreadable tree directory fileName name) →
      (∀ language templates, table.find? language = some templates ↔
        ∃ content, Holds tree directory fileName language content ∧ Describes content templates) →
      Loading tree directory fileName (.ok table)

theorem Holds.unique {tree : FileTree} {directory : Path} {fileName language : String}
    {one two : ByteArray} (first : Holds tree directory fileName language one)
    (second : Holds tree directory fileName language two) : one = two := by
  cases first.2.symm.trans second.2
  rfl

/-! ### The files -/

theorem readTable_eq_ok_iff {text : String} {table : TemplateTable} :
    TemplateTable.format.readText text = .ok table ↔
      ∃ entries, Json.parse? text = some (jsonOf entries) ∧ table = .ofList entries :=
  Json.Format.readsExactly_string.list.readText_dictionary_eq_ok_iff

theorem Describes.unique {content : ByteArray} {one two : TemplateTable}
    (first : Describes content one) (second : Describes content two) : one = two := by
  obtain ⟨text, entries, spelled, parsed⟩ := first
  obtain ⟨other, others, again, also⟩ := second
  obtain rfl : text = other := String.toByteArray_inj.mp (spelled.symm.trans again)
  cases (readTable_eq_ok_iff.mpr ⟨_, parsed⟩).symm.trans (readTable_eq_ok_iff.mpr ⟨_, also⟩)
  rfl

section Malformations

variable {path : Path} {content : ByteArray}

theorem Malformed.not_describes {error : BuildError} (malformed : Malformed path content error)
    (table : TemplateTable) : ¬ Describes content table := by
  rintro ⟨text, entries, spelled, parsed, -⟩
  cases malformed with
  | notText textless => exact textless text spelled
  | notTemplates again other =>
    obtain rfl := String.toByteArray_inj.mp (spelled.symm.trans again)
    exact other entries parsed

theorem Malformed.unique {one two : BuildError} (first : Malformed path content one)
    (second : Malformed path content two) : one = two := by
  cases first with
  | notText textless =>
    cases second with
    | notText => rfl
    | notTemplates spelled => exact absurd spelled (textless _)
  | notTemplates spelled _ failed =>
    cases second with
    | notText textless => exact absurd spelled (textless _)
    | notTemplates again _ also =>
      obtain rfl := String.toByteArray_inj.mp (spelled.symm.trans again)
      cases failed.symm.trans also
      rfl

end Malformations

section Files

variable {tree : FileTree} {path : Path} {content : ByteArray}
  (held : tree.target? path = some (.file content))

include held

theorem readText_of_text {text : String} (spelled : content = text.toUTF8) :
    tree.readText path = .ok text := by
  obtain ⟨location, located, found⟩ := target?_eq_some_iff.mp held
  exact readText_eq_ok located (spelled ▸ found)

theorem readText_of_textless (textless : ∀ text, content ≠ String.toUTF8 text) :
    tree.readText path = .error .notText := by
  have bytes := readBytes_eq_ok_iff.mpr (target?_eq_some_iff.mp held)
  have invalid : ¬ content.IsValidUTF8 :=
    fun valid => textless (String.ofByteArray content valid) rfl
  have none : String.fromUTF8? content = none := dif_neg invalid
  simp only [readText, bytes, bind, Except.bind, none]

/-- A file is a template file, or it has the error that it is none for. -/
theorem readTemplates_cases :
    (∃ table, readTemplates tree path = .ok table ∧ Describes content table) ∨
      ∃ error, readTemplates tree path = .error error ∧ Malformed path content error := by
  by_cases spelled : ∃ text, content = String.toUTF8 text
  · obtain ⟨text, spelled⟩ := spelled
    have source := readText_of_text held spelled
    cases read : TemplateTable.format.readText text with
    | ok table =>
      obtain ⟨entries, parsed⟩ := readTable_eq_ok_iff.mp read
      exact .inl ⟨table, by simp only [readTemplates, source, read],
        text, entries, spelled, parsed⟩
    | error fault =>
      have other entries : Json.parse? text ≠ some (jsonOf entries) := by
        intro parsed
        cases read.symm.trans (readTable_eq_ok_iff.mpr ⟨entries, parsed, rfl⟩)
      exact .inr ⟨_, by simp only [readTemplates, source, read], .notTemplates spelled other read⟩
  · have textless := not_exists.mp spelled
    have source := readText_of_textless held textless
    exact .inr ⟨_, by simp only [readTemplates, source], .notText textless⟩

end Files

theorem isFile_iff {tree : FileTree} {path : Path} :
    tree.isFile path = true ↔ ∃ content, tree.target? path = some (.file content) := by
  rw [FileTree.isFile]
  rcases tree.target? path with _ | _ | _ | _ <;> simp

/-- The table of the language that a directory is named for, with the language, if there is one and
it has a file. -/
def tableOf? (tree : FileTree) (directory : Path) (fileName : String) (name : Name) :
    Except BuildError (Option (String × TemplateTable)) :=
  match name.text? with
  | none => .ok none
  | some language =>
    if tree.isFile (templatePath directory language fileName) then
      (readTemplates tree (templatePath directory language fileName)).map fun templates =>
        some (language, templates)
    else .ok none

theorem readLanguages_eq (tree : FileTree) (directory : Path) (fileName : String)
    (names : List Name) : readLanguages tree directory fileName names =
      (names.mapM (tableOf? tree directory fileName)).map List.reduceOption := by
  induction names with
  | nil => rfl
  | cons name names ih =>
    rw [readLanguages, ih, List.mapM_cons, tableOf?]
    cases name.text? with
    | none => cases names.mapM (tableOf? tree directory fileName) <;> rfl
    | some language =>
      dsimp only
      split
      · cases readTemplates tree (templatePath directory language fileName) with
        | error error => rfl
        | ok templates => cases names.mapM (tableOf? tree directory fileName) <;> rfl
      · cases names.mapM (tableOf? tree directory fileName) <;> rfl

section Reading

variable {tree : FileTree} {directory : Path} {fileName language : String} {name : Name}

theorem malformed_of_tableOf? {error : BuildError}
    (failed : tableOf? tree directory fileName name = .error error) :
    ∃ (language : String) (content : ByteArray), name = language ∧
      tree.target? (templatePath directory language fileName) = some (.file content) ∧
      Malformed (templatePath directory language fileName) content error := by
  rw [tableOf?] at failed
  split at failed
  next => cases failed
  next language named =>
    split at failed
    next isFile =>
      obtain ⟨content, held⟩ := isFile_iff.mp isFile
      rcases readTemplates_cases held with ⟨table, read, _⟩ | ⟨other, read, malformed⟩
      · rw [read] at failed
        cases failed
      · rw [read] at failed
        cases failed
        exact ⟨language, content, RawText.text?_eq_some_iff.mp named, held, malformed⟩
    next => cases failed

theorem describes_of_tableOf? {content : ByteArray} {kept : Option (String × TemplateTable)}
    (held : tree.target? (templatePath directory language fileName) = some (.file content))
    (done : tableOf? tree directory fileName language = .ok kept) :
    ∃ templates, Describes content templates ∧ kept = some (language, templates) := by
  rw [tableOf?, RawText.text?_of] at done
  dsimp only at done
  rw [if_pos (isFile_iff.mpr ⟨content, held⟩)] at done
  obtain ⟨templates, read, rfl⟩ := map_eq_ok_iff.mp done
  rcases readTemplates_cases held with ⟨table, again, describes⟩ | ⟨error, again, _⟩
  · cases read.symm.trans again
    exact ⟨templates, describes, rfl⟩
  · cases read.symm.trans again

theorem exists_held_of_tableOf? {templates : TemplateTable}
    (done : tableOf? tree directory fileName name = .ok (some (language, templates))) :
    name = language ∧ ∃ content,
      tree.target? (templatePath directory language fileName) = some (.file content) := by
  rw [tableOf?] at done
  split at done
  next => cases done
  next named =>
    split at done
    next isFile =>
      obtain ⟨_, _, same⟩ := map_eq_ok_iff.mp done
      cases same
      exact ⟨RawText.text?_eq_some_iff.mp named, isFile_iff.mp isFile⟩
    next => cases done

end Reading

/-! ### Loading -/

variable {tree : FileTree} {directory : Path} {fileName : String}

theorem Holds.located {language : String} {content : ByteArray}
    (holds : Holds tree directory fileName language content) :
    ∃ root, tree.locate directory = .ok root :=
  let ⟨_, root, located, _⟩ := holds.1.lists
  ⟨root, located⟩

/-- Loading can come to one thing only. -/
theorem Loading.unique {one two : Except BuildError LanguageTable}
    (first : Loading tree directory fileName one) (second : Loading tree directory fileName two) :
    one = two := by
  cases first with
  | missing failed =>
    cases second with
    | missing also =>
      cases failed.symm.trans also
      rfl
    | unfollowed _ unfollowed =>
      obtain ⟨_, located⟩ := unfollowed.located
      cases failed.symm.trans located
    | malformed _ _ holds =>
      obtain ⟨_, located⟩ := holds.located
      cases failed.symm.trans located
    | loaded located => cases failed.symm.trans located
  | unfollowed first unfollowed =>
    cases second with
    | missing failed =>
      obtain ⟨_, located⟩ := unfollowed.located
      cases failed.symm.trans located
    | unfollowed second other =>
      cases first.unique second
      rw [unfollowed.unique other]
    | malformed followed => exact absurd unfollowed (followed _ _)
    | loaded _ followed => exact absurd unfollowed (followed _ _)
  | malformed followed first holds malformed =>
    cases second with
    | missing failed =>
      obtain ⟨_, located⟩ := holds.located
      cases failed.symm.trans located
    | unfollowed _ unfollowed => exact absurd unfollowed (followed _ _)
    | malformed _ second again other =>
      obtain rfl := RawText.of_inj.mp (first.unique second)
      cases holds.unique again
      rw [malformed.unique other]
    | loaded _ _ readable => exact absurd first.here (readable _)
  | loaded located followed readable found =>
    cases second with
    | missing failed => cases failed.symm.trans located
    | unfollowed _ unfollowed => exact absurd unfollowed (followed _ _)
    | malformed _ second => exact absurd second.here (readable _)
    | loaded _ _ _ also =>
      refine congrArg Except.ok (Dictionary.ext_find? fun language => Option.ext fun templates => ?_)
      exact (found language templates).trans (also language templates).symm

section Languages

variable {names : List Name} (members : ∀ name, name ∈ names ↔ Subdirectory tree directory name)
  {kept : List (Option (String × TemplateTable))}
  (done : names.mapM (tableOf? tree directory fileName) = .ok kept)

include members done

theorem describes_of_holds {language : String} {content : ByteArray}
    (holds : Holds tree directory fileName language content) : ∃ templates,
      Describes content templates ∧
        tableOf? tree directory fileName language = .ok (some (language, templates)) := by
  obtain ⟨_, work⟩ := exists_ok_of_mapM done ((members language).mpr holds.1)
  obtain ⟨templates, describes, rfl⟩ := describes_of_tableOf? holds.2 work
  exact ⟨templates, describes, work⟩

theorem mem_reduceOption_iff_holds {language : String} {templates : TemplateTable} :
    (language, templates) ∈ kept.reduceOption ↔
      ∃ content, Holds tree directory fileName language content ∧ Describes content templates := by
  rw [List.reduceOption_mem_iff, mem_of_mapM done]
  constructor
  · rintro ⟨_, member, work⟩
    obtain ⟨rfl, content, held⟩ := exists_held_of_tableOf? work
    obtain ⟨_, describes, same⟩ := describes_of_tableOf? held work
    cases same
    exact ⟨content, ⟨(members language).mp member, held⟩, describes⟩
  · rintro ⟨content, holds, describes⟩
    obtain ⟨_, again, work⟩ := describes_of_holds members done holds
    cases describes.unique again
    exact ⟨language, (members language).mpr holds.1, work⟩

end Languages

/-- Loading comes to what it should. -/
theorem loading_load (tree : FileTree) (directory : Path) (fileName : String) :
    Loading tree directory fileName (load tree directory fileName) := by
  cases located : tree.locate directory with
  | error error =>
    have failed : scan tree directory = .error (.file directory error) := by rw [scan, located]
    rw [load, failed]
    exact .missing located
  | ok root =>
  cases scanned : scan tree directory with
  | error fault =>
    obtain ⟨name, first, unfollowed⟩ := exists_unfollowed_of_scan located scanned
    rw [load, scanned]
    exact .unfollowed first unfollowed
  | ok names =>
  obtain ⟨followed, ascending, members⟩ := names_of_scan located scanned
  rw [← List.map_id names] at ascending
  rw [load, scanned]
  dsimp only
  rw [readLanguages_eq]
  cases done : names.mapM (tableOf? tree directory fileName) with
  | error error =>
    obtain ⟨name, member, fails, fine⟩ := exists_first_failure id ascending done
    obtain ⟨language, content, rfl, held, malformed⟩ := malformed_of_tableOf? fails
    have holds : Holds tree directory fileName language content :=
      ⟨(members language).mp member, held⟩
    refine .malformed followed
      ⟨⟨language, content, RawText.text?_of language, holds, malformed.not_describes⟩, ?_⟩ holds
      malformed
    rintro earlier less ⟨other, bytes, named, sooner, undescribed⟩
    obtain rfl := RawText.text?_eq_some_iff.mp named
    obtain ⟨_, work⟩ := fine other ((members other).mpr sooner.1) less
    obtain ⟨templates, describes, _⟩ := describes_of_tableOf? sooner.2 work
    exact undescribed templates describes
  | ok kept =>
    have named : (kept.reduceOption.map fun entry => (entry.1 : Name)).Sublist (names.map id) :=
      sublist_reduceOption done fun name entry work => (exists_held_of_tableOf? work).1.symm
    have distinct : (kept.reduceOption.map Prod.fst).Nodup := by
      refine List.Nodup.of_map RawText.of ?_
      rw [List.map_map]
      exact (Dictionary.nodup_of_ascending ascending).sublist named
    refine .loaded located followed ?_ fun language templates => ?_
    · rintro name ⟨language, content, _, holds, undescribed⟩
      obtain ⟨templates, describes, _⟩ := describes_of_holds members done holds
      exact undescribed templates describes
    · rw [Dictionary.find?_ofList_eq_some_iff distinct]
      exact mem_reduceOption_iff_holds members done

/-- The directory is missing in both trees or in none, the same names in it cannot be followed, and
the same subdirectories hold the same files. -/
structure SameSources (tree other : FileTree) (directory : Path) (fileName : String) : Prop where
  missing : ∀ error,
    tree.locate directory = .error error ↔ other.locate directory = .error error
  unfollowed : ∀ name fault,
    Unfollowed tree directory name fault ↔ Unfollowed other directory name fault
  held : ∀ language content,
    Holds tree directory fileName language content ↔ Holds other directory fileName language content

/-- The sources are the same if both scans succeed and there are the same files under the names that
they find. -/
theorem sameSources_of_scan {other : FileTree} {names others : List Name}
    (scanned : scan tree directory = .ok names) (also : scan other directory = .ok others)
    (files : ∀ (language : String) content, (language : Name) ∈ names ∧
        tree.target? (templatePath directory language fileName) = some (.file content) ↔
      (language : Name) ∈ others ∧
        other.target? (templatePath directory language fileName) = some (.file content)) :
    SameSources tree other directory fileName := by
  obtain ⟨root, located⟩ := exists_located_of_scan scanned
  obtain ⟨place, there⟩ := exists_located_of_scan also
  obtain ⟨followed, _, members⟩ := names_of_scan located scanned
  obtain ⟨followedToo, _, membersToo⟩ := names_of_scan there also
  refine ⟨fun error => ?_, fun name fault => ?_, fun language content => ?_⟩
  · rw [located, there]
    exact iff_of_false nofun nofun
  · exact iff_of_false (followed name fault) (followedToo name fault)
  · rw [Holds, Holds, ← members, ← membersToo]
    exact files language content

theorem SameSources.unreadable_iff {other : FileTree}
    (same : SameSources tree other directory fileName) {name : Name} :
    Unreadable tree directory fileName name ↔ Unreadable other directory fileName name :=
  exists₂_congr fun language content =>
    and_congr_right fun _ => and_congr_left fun _ => same.held language content

theorem SameSources.loading {other : FileTree} (same : SameSources tree other directory fileName)
    {result : Except BuildError LanguageTable} (loading : Loading tree directory fileName result) :
    Loading other directory fileName result := by
  have followed (none : ∀ name fault, ¬ Unfollowed tree directory name fault) name fault :
      ¬ Unfollowed other directory name fault := mt (same.unfollowed name fault).mpr (none name fault)
  cases loading with
  | missing failed => exact .missing ((same.missing _).mp failed)
  | unfollowed first unfollowed =>
    exact .unfollowed (first.congr fun name => exists_congr (same.unfollowed name))
      ((same.unfollowed _ _).mp unfollowed)
  | malformed none first holds malformed =>
    exact .malformed (followed none) (first.congr fun _ => same.unreadable_iff)
      ((same.held _ _).mp holds) malformed
  | loaded located none readable found =>
    cases there : other.locate directory with
    | error error => cases located.symm.trans ((same.missing error).mpr there)
    | ok root =>
      refine .loaded there (followed none) (fun name => mt same.unreadable_iff.mpr (readable name))
        fun language templates => (found language templates).trans ?_
      exact exists_congr fun content => and_congr_left fun _ => same.held language content

/-- **Loading the templates of all languages.** `Loading` says exactly what comes of it, and nothing
that stands in the directory has a say in it but the names that cannot be followed and the files of
the name in the subdirectories. -/
theorem load_iff (tree : FileTree) (directory : Path) (fileName : String) :
    (∀ result, load tree directory fileName = result ↔ Loading tree directory fileName result) ∧
      ∀ other, SameSources tree other directory fileName →
        load other directory fileName = load tree directory fileName := by
  refine ⟨fun result => ⟨?_, (loading_load tree directory fileName).unique⟩, fun other same => ?_⟩
  · rintro rfl
    exact loading_load tree directory fileName
  · exact (loading_load other directory fileName).unique
      (same.loading (loading_load tree directory fileName))

/-- What loading comes to can be computed where it succeeds. -/
theorem load_eq_ok {table : LanguageTable}
    (loaded : (load tree directory fileName).toOption = some table) :
    load tree directory fileName = .ok table := by
  cases result : load tree directory fileName with
  | error error =>
    rw [result] at loaded
    cases loaded
  | ok found =>
    rw [result] at loaded
    cases loaded
    rfl

/-- A plain file, a link to it, a subdirectory without the file and one whose name is not a text make
no difference; a link to a subdirectory does. A link that leads nowhere comes before a file that is
not a template file, though its name comes after. -/
theorem idle_names_make_no_difference :
    let file : Entry := .file "\x7b\"byIntent\":[\"bye\"]\x7d".toUTF8
    let sources : List (Location × Entry) := [(["u"], .directory), (["u", "de"], .link ⟨"en"⟩),
      (["u", "en"], .directory), (["u", "en", "t.json"], file)]
    let idle : List (Location × Entry) := [(["u", "empty"], .directory), (["u", "notes"], file),
      (["u", "pointer"], .link ⟨"notes"⟩), (["u", ⟨[0xFF]⟩], .directory),
      (["u", ⟨[0xFF]⟩, "t.json"], file)]
    let faulty : List (Location × Entry) := [(["u"], .directory), (["u", "en"], .directory),
      (["u", "en", "t.json"], .file "[]".toUTF8), (["u", "lost"], .link ⟨"nowhere"⟩)]
    let tree : FileTree := ⟨.ofList (sources ++ idle), []⟩
    let other : FileTree := ⟨.ofList sources, []⟩
    let broken : FileTree := ⟨.ofList faulty, []⟩
    let table : LanguageTable := .ofList [("de", .ofList [("byIntent", ["bye"])]),
      ("en", .ofList [("byIntent", ["bye"])])]
    let fault : ScanFault := .file ⟨"u/lost"⟩ .notFound
    (SameSources tree other ⟨"u"⟩ "t.json" ∧
      load other ⟨"u"⟩ "t.json" = load tree ⟨"u"⟩ "t.json") ∧
    (load tree ⟨"u"⟩ "t.json" = .ok table ∧ Loading tree ⟨"u"⟩ "t.json" (.ok table)) ∧
    (Unreadable broken ⟨"u"⟩ "t.json" "en" ∧
      load broken ⟨"u"⟩ "t.json" = .error (.scan ⟨"u"⟩ fault) ∧
      Loading broken ⟨"u"⟩ "t.json" (.error (.scan ⟨"u"⟩ fault))) := by
  intro file sources idle faulty tree other broken table fault
  have scanned : scan tree ⟨"u"⟩ = .ok ["de", "empty", "en", ⟨[0xFF]⟩] := by decide +kernel
  have also : scan other ⟨"u"⟩ = .ok ["de", "en"] := by decide +kernel
  have german : tree.target? (templatePath ⟨"u"⟩ "de" "t.json") =
      other.target? (templatePath ⟨"u"⟩ "de" "t.json") := by decide +kernel
  have english : tree.target? (templatePath ⟨"u"⟩ "en" "t.json") =
      other.target? (templatePath ⟨"u"⟩ "en" "t.json") := by decide +kernel
  have missing : tree.target? (templatePath ⟨"u"⟩ "empty" "t.json") = none := by decide +kernel
  have textless (language : String) : (language : Name) ≠ ⟨[0xFF]⟩ := fun same => by
    have none : RawText.text? ⟨[0xFF]⟩ = none := by decide +kernel
    cases none.symm.trans (RawText.text?_eq_some_iff.mpr same.symm)
  have same : SameSources tree other ⟨"u"⟩ "t.json" := by
    refine sameSources_of_scan scanned also fun language content => ?_
    simp only [List.mem_cons, List.not_mem_nil, or_false, RawText.of_inj, textless language]
    constructor
    · rintro ⟨rfl | rfl | rfl, held⟩
      · exact ⟨.inl rfl, german.symm.trans held⟩
      · cases missing.symm.trans held
      · exact ⟨.inr rfl, english.symm.trans held⟩
    · rintro ⟨rfl | rfl, held⟩
      · exact ⟨.inl rfl, german.trans held⟩
      · exact ⟨.inr (.inr rfl), english.trans held⟩
  have loaded : load tree ⟨"u"⟩ "t.json" = .ok table := load_eq_ok (by decide +kernel)
  have failed : load broken ⟨"u"⟩ "t.json" = .error (.scan ⟨"u"⟩ fault) := by
    have faulty : scan broken ⟨"u"⟩ = .error fault := by decide +kernel
    rw [load, faulty]
  have unreadable : Unreadable broken ⟨"u"⟩ "t.json" "en" := by
    have lists : Lists broken ⟨"u"⟩ "en" .directory :=
      ⟨["u"], by decide +kernel, by decide +kernel, by decide +kernel⟩
    refine ⟨"en", "[]".toUTF8, RawText.text?_of "en", ⟨.itself lists, by decide +kernel⟩, ?_⟩
    rintro table ⟨text, entries, spelled, parsed, rfl⟩
    obtain rfl := String.toByteArray_inj.mp spelled
    have refused : (TemplateTable.format.readText "[]").toOption = none := by decide +kernel
    rw [readTable_eq_ok_iff.mpr ⟨entries, parsed, rfl⟩] at refused
    cases refused
  exact ⟨⟨same, (load_iff tree ⟨"u"⟩ "t.json").2 other same⟩,
    ⟨loaded, ((load_iff tree ⟨"u"⟩ "t.json").1 _).mp loaded⟩,
    unreadable, failed, ((load_iff broken ⟨"u"⟩ "t.json").1 _).mp failed⟩

/-- **Loading goes by texts and paths.** A subdirectory whose name is not a text is passed over,
although the file in it is a template file. And the file name may lead out of a subdirectory again,
to a plain file of the directory, which makes a difference then. -/
theorem load_goes_by_texts_and_paths :
    let file : Entry := .file "\x7b\"k\":[\"a\"]\x7d".toUTF8
    let unnamed : FileTree := ⟨.ofList [(["u"], .directory), (["u", ⟨[0xFF]⟩], .directory),
      (["u", ⟨[0xFF]⟩, "t.json"], file)], []⟩
    let bare : FileTree := ⟨.ofList [(["u"], .directory), (["u", "en"], .directory)], []⟩
    let plain : FileTree := ⟨.ofList [(["u"], .directory), (["u", "en"], .directory),
      (["u", "x.json"], file)], []⟩
    (Subdirectory unnamed ⟨"u"⟩ ⟨[0xFF]⟩ ∧
      unnamed.find? ["u", ⟨[0xFF]⟩, "t.json"] = some file ∧
      load unnamed ⟨"u"⟩ "t.json" = .ok .empty) ∧
    (Lists plain ⟨"u"⟩ "x.json" file ∧ load bare ⟨"u"⟩ "../x.json" = .ok .empty ∧
      load plain ⟨"u"⟩ "../x.json" = .ok (.ofList [("en", .ofList [("k", ["a"])])])) := by
  intro file unnamed bare plain
  have located : unnamed.locate ⟨"u"⟩ = .ok ["u"] := by decide +kernel
  refine ⟨⟨.itself ⟨["u"], located, by decide +kernel, by decide +kernel⟩, by decide +kernel,
    load_eq_ok (by decide +kernel)⟩, ⟨["u"], ?_, ?_, ?_⟩, load_eq_ok ?_, load_eq_ok ?_⟩
  all_goals decide +kernel

end LanguageTable

end Phrasebook
