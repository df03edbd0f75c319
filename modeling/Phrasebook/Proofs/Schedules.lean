/-
**A build comes to the same in every order.**

Where the build root leads to a directory, jobs can change places and all schedules come to the same
(`workAll_eq_of_ready`). Where it does not lead to a directory even after the attempt to create it,
every language is refused in every schedule (`Refused`). The reason may be another one for the
language that makes the attempt than for those after it, and that is all in which schedules can
differ. `schedules_agree` puts this together.
-/

import Phrasebook.Proofs.Exchange

namespace Phrasebook

open FileTree

namespace Project

variable {project : Project} {root : Path} {table : LanguageTable} {tree : FileTree} {site : Site}
  {job : Job} {language : String}

/-! ### Refused languages -/

/-- The output directory of the language is refused with this error, before or after the attempt to
create the build root. -/
def RefusedWith (root : Path) (tree : FileTree) (language : String) (error : FileError) : Prop :=
  (tree.createDirectories (outputDirectory root language)).1 = some error ∨
    ((withBuildRoot root tree).createDirectories (outputDirectory root language)).1 = some error

/-- Nothing was done but to try to create the build root. -/
structure Refused (root : Path) (start : FileTree) (site : Site) : Prop where
  tree : site.tree = start ∧
      (∀ language, IsSound root language → site.board (.prepare language) = none) ∨
    site.tree = withBuildRoot root start ∧
      ∃ language, IsSound root language ∧ site.board (.prepare language) ≠ none
  refused : ∀ language report, site.board (.prepare language) = some report →
    ∃ error, report = .noDirectory error ∧ RefusedWith root start language error
  calls : site.calls = 0

variable {start : FileTree}

/-- The attempt to create the build root makes no links. -/
theorem noLinksBelow_withBuildRoot (root : Path) (rooted : tree.Rooted)
    (linkless : ∀ location target, tree.find? location ≠ some (.link target)) :
    (withBuildRoot root tree).NoLinksBelow root :=
  fun _ _ _ _ target found =>
    linkless _ target ((withBuildRoot_changes root rooted).grown.of_link found)

/-- Where the build root leads nowhere even after the attempt to create it, a language is refused
and the attempt is all that is done. -/
theorem createDirectories_of_blocked (rooted : start.Rooted) (isName : Path.IsName language)
    (sound : IsSound root language)
    (blocked : ∀ ground, (withBuildRoot root start).locate (groundPath root) ≠ .ok ground)
    (there : tree = start ∨ tree = withBuildRoot root start) :
    ∃ error, RefusedWith root start language error ∧
      tree.createDirectories (outputDirectory root language) =
        (some error, withBuildRoot root start) := by
  have again : withBuildRoot root (withBuildRoot root start) = withBuildRoot root start :=
    withBuildRoot_withBuildRoot root rooted
  rcases there with rfl | rfl
  · rcases attempt_of_sound rooted isName sound with ⟨ready, _⟩ | ⟨error, _, tried⟩
    · exact absurd ready (blocked _)
    · exact ⟨error, .inl (congrArg Prod.fst tried), tried⟩
  · have later := (withBuildRoot_changes root rooted).rooted rooted
    rcases attempt_of_sound later isName sound with ⟨ready, _⟩ | ⟨error, _, tried⟩
    · rw [again] at ready
      exact absurd ready (blocked _)
    · rw [again] at tried
      exact ⟨error, .inr (congrArg Prod.fst tried), tried⟩

/-- Work goes on being refused. -/
theorem refused_work (rooted : start.Rooted) (isName : Path.IsName job.language)
    (blocked : IsSound root job.language →
      ∀ ground, (withBuildRoot root start).locate (groundPath root) ≠ .ok ground)
    (refused : Refused root start site) :
    Refused root start (project.work root table site job) := by
  cases job with
  | call language position =>
    rw [work_call_of_not_compiled fun compilation compiled => ?_]
    · exact refused
    · obtain ⟨_, same, _⟩ := refused.refused language _ compiled
      cases same
  | prepare language =>
    have isName : Path.IsName language := isName
    rw [work_prepare]
    have pinned {error : FileError} (refusal : RefusedWith root start language error)
        (probe : String) (report : Report)
        (there : Function.update site.board (.prepare language)
          (some (project.prepared table language (some error))) (.prepare probe) = some report) :
        ∃ error, report = .noDirectory error ∧ RefusedWith root start probe error := by
      by_cases same : probe = language
      · subst same
        rw [Function.update_self] at there
        exact ⟨error, (Option.some.inj there).symm, refusal⟩
      · rw [Function.update_of_ne (by simpa using same)] at there
        exact refused.refused probe report there
    cases fault : pathFault? (outputDirectory root language) with
    | some error =>
      have failed (tree : FileTree) : tree.createDirectories (outputDirectory root language) =
          (some error, tree) := createDirectories_of_fault isName fault
      have other {probe : String} (sound : IsSound root probe) :
          Job.prepare probe ≠ .prepare language := by
        rintro ⟨⟩
        rw [IsSound, fault] at sound
        cases sound
      rw [failed]
      refine ⟨?_, pinned (.inl (congrArg Prod.fst (failed start))), refused.calls⟩
      rcases refused.tree with ⟨same, untried⟩ | ⟨same, probe, sound, tried⟩
      · refine .inl ⟨same, fun probe sound => ?_⟩
        exact (Function.update_of_ne (other sound) _ _).trans (untried probe sound)
      · refine .inr ⟨same, probe, sound, ?_⟩
        exact (Function.update_of_ne (other sound) _ _).trans_ne tried
    | none =>
      obtain ⟨error, refusal, tried⟩ := createDirectories_of_blocked rooted isName fault
        (blocked fault) (refused.tree.imp And.left And.left)
      rw [tried]
      refine ⟨.inr ⟨rfl, language, fault, ?_⟩, pinned refusal, refused.calls⟩
      simp

theorem refused_foldl (rooted : start.Rooted) {jobs : List Job}
    (names : ∀ job ∈ jobs, Path.IsName job.language)
    (blocked : ∀ job ∈ jobs, IsSound root job.language →
      ∀ ground, (withBuildRoot root start).locate (groundPath root) ≠ .ok ground)
    (refused : Refused root start site) :
    Refused root start (jobs.foldl (project.work root table) site) := by
  induction jobs generalizing site with
  | nil => exact refused
  | cons job jobs ih =>
    obtain ⟨isName, otherNames⟩ := List.forall_mem_cons.mp names
    obtain ⟨here, later⟩ := List.forall_mem_cons.mp blocked
    exact ih otherNames later (refused_work rooted isName here refused)

/-- A language has been prepared if that was among the jobs. -/
theorem foldl_board_eq_none_iff {jobs : List Job} :
    (jobs.foldl (project.work root table) site).board (.prepare language) = none ↔
      site.board (.prepare language) = none ∧ .prepare language ∉ jobs := by
  induction jobs generalizing site with
  | nil => simp
  | cons job jobs ih =>
    rw [List.foldl_cons, ih, List.mem_cons, not_or]
    by_cases same : Job.prepare language = job
    · subst same
      simp [work_prepare]
    · rw [board_work_of_ne same]
      exact and_congr_right fun _ => (and_iff_right same).symm

theorem refused_workAll (rooted : tree.Rooted)
    (names : ∀ language ∈ table.keys, Path.IsName language)
    (blocked : ∀ language ∈ table.keys, IsSound root language →
      ∀ ground, (withBuildRoot root tree).locate (groundPath root) ≠ .ok ground)
    {schedule : List Job} (isSchedule : project.IsSchedule table schedule) :
    Refused root tree (project.workAll root table schedule tree) :=
  refused_foldl rooted (fun _ member => names _ (isSchedule.language_mem member))
    (fun _ member => blocked _ (isSchedule.language_mem member))
    ⟨.inl ⟨rfl, fun _ _ => rfl⟩, nofun, rfl⟩

theorem board_workAll_eq_none_iff {schedule : List Job}
    (isSchedule : project.IsSchedule table schedule) :
    (project.workAll root table schedule tree).board (.prepare language) = none ↔
      language ∉ table.keys := by
  rw [workAll, foldl_board_eq_none_iff, isSchedule.prepare_mem_iff]
  exact and_iff_right rfl

/-! ### The same in every order -/

/-- The build root could not be made a directory, although something was created on the way to it.
Every language is refused then, and the reason that is told for the first one may differ. -/
structure RefusedPartway (project : Project) (root : Path) (table : LanguageTable)
    (start : FileTree) (first second : Site) : Prop where
  partway : first.tree ≠ start
  nowhere : ∀ ground, first.tree.locate (groundPath root) ≠ .ok ground
  uncalled : first.calls = 0
  refused : ∃ language reason other, table.keys.head? = some language ∧
    project.resultAt root table first =
      .error (.file .createBuildDirectory (outputDirectory root language) reason) ∧
    project.resultAt root table second =
      .error (.file .createBuildDirectory (outputDirectory root language) other)

/-- Two orders of the work come to the same: files, calls and the result. -/
structure Agree (project : Project) (root : Path) (table : LanguageTable) (start : FileTree)
    (first second : Site) : Prop where
  tree : first.tree = second.tree
  calls : first.calls = second.calls
  result : project.resultAt root table first = project.resultAt root table second ∨
    RefusedPartway project root table start first second

theorem resultAt_of_refused {error : FileError} (first : table.keys.head? = some language)
    (refused : site.board (.prepare language) = some (.noDirectory error)) :
    project.resultAt root table site =
      .error (.file .createBuildDirectory (outputDirectory root language) error) := by
  obtain ⟨entries, ascending⟩ := table
  cases entries with
  | nil => cases first
  | cons entry entries =>
    cases first
    have turn : project.turnAt site entry = some ⟨entry.1, entry.2, .noDirectory error⟩ := by
      rw [turnAt, refused]
    rw [resultAt, List.filterMap_cons_some turn, outcomeOf_cons]
    rfl

/-- A language that is refused for two reasons is refused only once the attempt to create the build
root has changed something. -/
theorem RefusedWith.ne_start {error other : FileError} (isName : Path.IsName language)
    (here : RefusedWith root start language error) (there : RefusedWith root start language other)
    (apart : error ≠ other) : IsSound root language ∧ withBuildRoot root start ≠ start := by
  refine ⟨?_, fun same => ?_⟩
  · cases fault : pathFault? (outputDirectory root language) with
    | none => exact fault
    | some only =>
      have failed (tree : FileTree) : tree.createDirectories (outputDirectory root language) =
          (some only, tree) := createDirectories_of_fault isName fault
      rw [RefusedWith, failed, failed, or_self, Option.some.injEq] at here there
      exact absurd (here.symm.trans there) apart
  · rw [RefusedWith, same, or_self] at here there
    exact absurd (Option.some.inj (here.symm.trans there)) apart

theorem agree_of_refused {first second : Site} (firstRefused : Refused root start first)
    (secondRefused : Refused root start second)
    (blocked : ∀ language ∈ table.keys, IsSound root language →
      ∀ ground, (withBuildRoot root start).locate (groundPath root) ≠ .ok ground)
    (names : ∀ language ∈ table.keys, Path.IsName language)
    (firstDone : ∀ language, first.board (.prepare language) = none ↔ language ∉ table.keys)
    (secondDone : ∀ language, second.board (.prepare language) = none ↔ language ∉ table.keys) :
    Agree project root table start first second := by
  have done (language : String) :
      first.board (.prepare language) = none ↔ second.board (.prepare language) = none := by
    rw [firstDone, secondDone]
  have trees : first.tree = second.tree := by
    rcases firstRefused.tree with ⟨here, untried⟩ | ⟨here, language, sound, tried⟩
    · rcases secondRefused.tree with ⟨there, _⟩ | ⟨_, language, sound, tried⟩
      · rw [here, there]
      · exact absurd ((done language).mp (untried language sound)) tried
    · rcases secondRefused.tree with ⟨_, untried⟩ | ⟨there, _⟩
      · exact absurd ((done language).mpr (untried language sound)) tried
      · rw [here, there]
  refine ⟨trees, firstRefused.calls.trans secondRefused.calls.symm, ?_⟩
  cases head : table.keys.head? with
  | none =>
    have empty : table.entries = [] := by simpa [Dictionary.keys] using head
    rw [resultAt, resultAt, empty]
    exact .inl rfl
  | some language =>
    have key : language ∈ table.keys := List.mem_of_head? head
    obtain ⟨report, here⟩ := Option.ne_none_iff_exists'.mp
      (mt (firstDone language).mp (not_not_intro key))
    obtain ⟨other, there⟩ := Option.ne_none_iff_exists'.mp
      (mt (secondDone language).mp (not_not_intro key))
    obtain ⟨error, rfl, refusal⟩ := firstRefused.refused language report here
    obtain ⟨otherError, rfl, otherRefusal⟩ := secondRefused.refused language other there
    have firstResult : project.resultAt root table first = _ := resultAt_of_refused head here
    have secondResult : project.resultAt root table second = _ := resultAt_of_refused head there
    by_cases same : error = otherError
    · exact .inl (firstResult.trans (same ▸ secondResult.symm))
    · obtain ⟨sound, moved⟩ := refusal.ne_start (names language key) otherRefusal same
      have left : first.tree = withBuildRoot root start := by
        rcases firstRefused.tree with ⟨_, untried⟩ | ⟨left, _⟩
        · rw [untried language sound] at here
          cases here
        · exact left
      refine .inr ⟨left ▸ moved, left ▸ blocked language key sound, firstRefused.calls, ?_⟩
      exact ⟨language, error, otherError, head, firstResult, secondResult⟩

/-- **All orders agree.** To do the work of a build language by language is a schedule, and what it
comes to is the build. If no link stands below the build root once it has been created, and one
generator writes manifests at most, every two schedules come to the same files, calls and result.
Only the reason for which the first language is refused may differ, where the build root cannot be
made a directory but something is created on the way to it. -/
theorem schedules_agree (project : Project) (root : Path) (tree : FileTree) (proper : tree.Proper)
    (oneWriter : OneWriter project.generators)
    (noLinks : (withBuildRoot root tree).NoLinksBelow root) {table : LanguageTable}
    (loaded : LanguageTable.load tree project.templateDirectory project.templateFile = .ok table) :
    project.IsSchedule table (project.jobs table) ∧
    (project.workAll root table (project.jobs table) tree).tree = (project.build root tree).2 ∧
    (project.workAll root table (project.jobs table) tree).calls =
      ↑(project.build root tree).1.calls ∧
    project.resultAt root table (project.workAll root table (project.jobs table) tree) =
      (project.build root tree).1.result ∧
    ∀ first second, project.IsSchedule table first → project.IsSchedule table second →
      Agree project root table tree (project.workAll root table first tree)
        (project.workAll root table second tree) := by
  obtain ⟨files, calls, result⟩ := workAll_jobs root loaded
  refine ⟨isSchedule_jobs project table, files, calls, result, fun first second
    firstSchedule secondSchedule => ?_⟩
  have names : ∀ language ∈ table.keys, Path.IsName language :=
    fun language key => LanguageTable.isName_of_load proper loaded key
  by_cases ready : ∃ language ∈ table.keys, IsSound root language ∧
      ∃ ground, (withBuildRoot root tree).locate (groundPath root) = .ok ground
  · obtain ⟨language, key, sound, ground, located⟩ := ready
    have same : project.workAll root table first tree = project.workAll root table second tree :=
      workAll_eq_of_ready oneWriter proper.rooted names ⟨language, key, sound⟩ located noLinks
        firstSchedule secondSchedule
    rw [same]
    exact ⟨rfl, rfl, .inl rfl⟩
  · have blocked : ∀ language ∈ table.keys, IsSound root language →
        ∀ ground, (withBuildRoot root tree).locate (groundPath root) ≠ .ok ground :=
      fun language key sound ground located => ready ⟨language, key, sound, ground, located⟩
    exact agree_of_refused (refused_workAll proper.rooted names blocked firstSchedule)
      (refused_workAll proper.rooted names blocked secondSchedule) blocked names
      (fun _ => board_workAll_eq_none_iff firstSchedule)
      fun _ => board_workAll_eq_none_iff secondSchedule

/-- What is loaded where both languages have an empty table. -/
def sampleTable : LanguageTable := .ofList [("de", .empty), ("en", .empty)]

/-- A generator fails while another writes, and the languages get in each other's way. -/
theorem mixed_schedule_agrees :
    let tree : FileTree := sampleTree "\x7b\x7d" "\x7b\x7d" []
    let project : Project := ⟨⟨"u"⟩, "t.json", EntityTable.catalog .empty, [], [],
      [.json true, .silent "late" fun _ => some "no space"]⟩
    let mixed : List Job := [.prepare "en", .call "en" 1, .prepare "de", .call "de" 0,
      .call "en" 0, .call "de" 1]
    tree.Proper ∧ OneWriter project.generators ∧ (withBuildRoot ⟨"out"⟩ tree).NoLinksBelow ⟨"out"⟩ ∧
      ∃ table, LanguageTable.load tree ⟨"u"⟩ "t.json" = .ok table ∧
        project.IsSchedule table mixed ∧
        Agree project ⟨"out"⟩ table tree
          (project.workAll ⟨"out"⟩ table (project.jobs table) tree)
          (project.workAll ⟨"out"⟩ table mixed tree) := by
  intro tree project mixed
  have proper : tree.Proper := by decide +kernel
  have linkless : tree.entries.entries.all (fun entry => !isLink entry.2) := by decide +kernel
  have noLinks : (withBuildRoot ⟨"out"⟩ tree).NoLinksBelow ⟨"out"⟩ :=
    noLinksBelow_withBuildRoot _ proper.rooted (not_link_of_all linkless)
  have onlyFirst (position : Nat) (pretty : Bool)
      (there : project.generators[position]? = some (.json pretty)) : position = 0 := by
    match position with
    | 0 => rfl
    | 1 =>
      have same : "late" = "json" := congrArg Generator.name (Option.some.inj there)
      exact absurd same (by decide)
    | _ + 2 => cases there
  have oneWriter : OneWriter project.generators :=
    { kinds := List.forall_mem_cons.mpr ⟨.inl ⟨true, rfl⟩,
        List.forall_mem_singleton.mpr (.inr (Generator.isBlind_silent _ _))⟩
      single := fun first second pretty other here there =>
        (onlyFirst first pretty here).trans (onlyFirst second other there).symm }
  have loaded : LanguageTable.load tree ⟨"u"⟩ "t.json" = .ok sampleTable :=
    LanguageTable.load_eq_ok (by decide +kernel)
  have listed : project.jobs sampleTable = [.prepare "de", .call "de" 0, .call "de" 1,
    .prepare "en", .call "en" 0, .call "en" 1] := rfl
  have isSchedule : project.IsSchedule sampleTable mixed :=
    ⟨listed ▸ List.isPerm_iff.mp (by decide), by decide⟩
  obtain ⟨inOrder, _, _, _, agree⟩ := schedules_agree project ⟨"out"⟩ tree proper oneWriter noLinks
    loaded
  exact ⟨proper, oneWriter, noLinks, sampleTable, loaded, isSchedule, agree _ _ inOrder isSchedule⟩

/-- **The reason may depend on the order**: the way to the build root leads through a directory that
is missing to a file. The language that comes first creates the directory and finds the file, the
other one finds that it cannot go through the file. -/
theorem order_decides_reason :
    let tree : FileTree := sampleTree "\x7b\x7d" "\x7b\x7d" [(["f"], .file "x".toUTF8)]
    let project : Project := ⟨⟨"u"⟩, "t.json", EntityTable.catalog .empty, [], [], []⟩
    let root : Path := ⟨"n/../f"⟩
    tree.Proper ∧ (withBuildRoot root tree).NoLinksBelow root ∧
      ∃ table, LanguageTable.load tree ⟨"u"⟩ "t.json" = .ok table ∧
        ∃ first second, project.IsSchedule table first ∧ project.IsSchedule table second ∧
          project.resultAt root table (project.workAll root table first tree) ≠
            project.resultAt root table (project.workAll root table second tree) := by
  intro tree project root
  have proper : tree.Proper := by decide +kernel
  have linkless : tree.entries.entries.all (fun entry => !isLink entry.2) := by decide +kernel
  have loaded : LanguageTable.load tree ⟨"u"⟩ "t.json" = .ok sampleTable :=
    LanguageTable.load_eq_ok (by decide +kernel)
  have head : sampleTable.keys.head? = some "de" := rfl
  have listed : project.jobs sampleTable = [.prepare "de", .prepare "en"] := rfl
  have alone : (tree.createDirectories (outputDirectory root "de")).1 = some .exists := by
    decide +kernel
  have late : ((tree.createDirectories (outputDirectory root "en")).2.createDirectories
      (outputDirectory root "de")).1 = some .notADirectory := by
    decide +kernel
  have first : project.resultAt root sampleTable
      (project.workAll root sampleTable [.prepare "de", .prepare "en"] tree) =
        .error (.file .createBuildDirectory (outputDirectory root "de") .exists) := by
    refine resultAt_of_refused head ?_
    have apart : Job.prepare "de" ≠ .prepare "en" := by decide
    rw [workAll, List.foldl_cons, List.foldl_cons, List.foldl_nil, board_work_of_ne apart,
      work_prepare]
    simp only [alone]
    exact Function.update_self _ _ _
  have second : project.resultAt root sampleTable
      (project.workAll root sampleTable [.prepare "en", .prepare "de"] tree) =
        .error (.file .createBuildDirectory (outputDirectory root "de") .notADirectory) := by
    refine resultAt_of_refused head ?_
    rw [workAll, List.foldl_cons, List.foldl_cons, List.foldl_nil, work_prepare, work_prepare]
    simp only [late]
    exact Function.update_self _ _ _
  refine ⟨proper, noLinksBelow_withBuildRoot _ proper.rooted (not_link_of_all linkless),
    sampleTable, loaded, [.prepare "de", .prepare "en"], [.prepare "en", .prepare "de"],
    ⟨listed ▸ .refl _, by decide⟩, ⟨listed ▸ .swap _ _ _, by decide⟩, ?_⟩
  rw [first, second]
  rintro ⟨⟩

end Project

end Phrasebook
