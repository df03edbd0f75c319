/-
**The jobs of a build.**

The work of a build is made of jobs: each language is prepared, which takes its directory and its
compilation, and then each generator is called for it. What a job does depends on the files and on
how its language was prepared. What it comes to is pinned up in its place (`Site`), and the result
of a build is read off the places, in the order of languages and generators.

A schedule is any order of all jobs in which each language is prepared before its generators are
called (`Project.IsSchedule`). A build does the jobs in one of these orders, language by language
(`Project.workAll_jobs`).
-/

import Mathlib.Data.Multiset.AddSub
import Phrasebook.Proofs.Effects

namespace Phrasebook

/-! ### Jobs -/

/-- A piece of the work of a build. -/
inductive Job where
  /-- To create the directory of a language and to compile it. -/
  | prepare (language : String)
  /-- To call the generator at a position for a language. -/
  | call (language : String) (position : Nat)
  deriving DecidableEq

namespace Job

/-- The language that a job is for. -/
def language : Job → String
  | prepare language => language
  | call language _ => language

/-- The preparation of a language comes before its calls. -/
def Precedes (early late : Job) : Prop := early = .prepare late.language ∧ early ≠ late

instance (early late : Job) : Decidable (early.Precedes late) :=
  inferInstanceAs (Decidable (_ ∧ _))

end Job

/-- No item comes before one that precedes it. -/
def Respects {ι : Type} (Precedes : ι → ι → Prop) (order : List ι) : Prop :=
  order.Pairwise fun early late => ¬Precedes late early

instance {ι : Type} (Precedes : ι → ι → Prop) [DecidableRel Precedes] (order : List ι) :
    Decidable (Respects Precedes order) :=
  inferInstanceAs (Decidable (order.Pairwise _))

/-- What a job came to. -/
inductive Report where
  | noDirectory (error : FileError)
  | notCompiled (error : BuildError)
  | compiled (compilation : Compilation)
  | called (result : Except String Unit)

/-- The files, what the jobs done so far came to, each in its place, and the calls made. -/
structure Site where
  tree : FileTree
  board : Job → Option Report := fun _ => none
  calls : Multiset Call := 0

/-- What there is to do in a job. -/
structure Task where
  act : FileTree → Report × FileTree
  calls : Multiset Call

namespace Project

variable (project : Project) (root : Path) (table : LanguageTable)

/-- What the preparation of a language comes to, by how the creation of its directory failed. -/
def prepared (language : String) : Option FileError → Report
  | some error => .noDirectory error
  | none =>
    match project.compile language ((table.find? language).getD .empty) with
    | .error error => .notCompiled error
    | .ok compilation => .compiled compilation

/-- To create the directory of a language and to compile it. -/
def preparation (language : String) : Task where
  act tree :=
    let (failed, tree) := tree.createDirectories (outputDirectory root language)
    (project.prepared table language failed, tree)
  calls := 0

/-- To call a generator with what a language was compiled to. -/
def calling (call : Call) (generator : Generator) : Task where
  act tree :=
    let (result, tree) := generator.run call.delivery tree
    (.called result, tree)
  calls := {call}

/-- The delivery of a language that was compiled. -/
def deliveryOf (language : String) (compilation : Compilation) : Delivery :=
  ⟨language, outputDirectory root language, compilation.configurations⟩

/-- What there is to do in a job, by what the preparation of its language came to. There is nothing
to do for a language that was not compiled. -/
def task (prepared? : Option Report) : Job → Option Task
  | .prepare language => some (project.preparation root table language)
  | .call language position =>
    match prepared?, project.generators[position]? with
    | some (.compiled compilation), some generator =>
      some (calling ⟨position, deliveryOf root language compilation⟩ generator)
    | _, _ => none

/-- Does one job. -/
def work (site : Site) (job : Job) : Site :=
  match project.task root table (site.board (.prepare job.language)) job with
  | none => site
  | some task =>
    let (report, tree) := task.act site.tree
    { tree
      board := Function.update site.board job (some report)
      calls := site.calls + task.calls }

/-- Does jobs one after the other. -/
def workAll (jobs : List Job) (tree : FileTree) : Site :=
  jobs.foldl (project.work root table) { tree }

/-- The jobs of a language, in the order of the generators. -/
def jobsOf (language : String) : List Job :=
  .prepare language :: (List.range project.generators.length).map (.call language)

/-- All jobs, in the order of the languages. -/
def jobs : List Job := table.keys.flatMap project.jobsOf

/-- The jobs are all of the build, each once, and every call comes after its preparation. -/
structure IsSchedule (schedule : List Job) : Prop where
  complete : schedule.Perm (project.jobs table)
  respects : Respects Job.Precedes schedule

/-- The run of a generator, read off its place. -/
def runAt (site : Site) (language : String) :
    Generator × Nat → Option (Generator × Except String Unit)
  | (generator, position) =>
    match site.board (.call language position) with
    | some (.called result) => some (generator, result)
    | _ => none

/-- How the turn of a language went, read off the places of its jobs. -/
def turnAt (site : Site) (entry : String × TemplateTable) : Option Turn :=
  match site.board (.prepare entry.1) with
  | some (.noDirectory error) => some ⟨entry.1, entry.2, .noDirectory error⟩
  | some (.notCompiled error) => some ⟨entry.1, entry.2, .notCompiled error⟩
  | some (.compiled compilation) =>
    some ⟨entry.1, entry.2, .delivered compilation
      (project.generators.zipIdx.filterMap (runAt site entry.1))⟩
  | _ => none

/-- The result of a build, read off the places. -/
def resultAt (site : Site) : Except BuildError (List LanguageSummary) :=
  (outcomeOf root (table.entries.filterMap (project.turnAt site))).result

variable {project root table}

/-! ### All jobs -/

theorem mem_jobsOf {language : String} {job : Job} : job ∈ project.jobsOf language ↔
    job.language = language ∧ ∀ position, job = .call language position →
      position < project.generators.length := by
  cases job with
  | prepare other => simp [jobsOf, Job.language]
  | call other position =>
    simp only [jobsOf, List.mem_cons, List.mem_map, List.mem_range, reduceCtorEq, false_or,
      Job.call.injEq, Job.language]
    constructor
    · rintro ⟨_, short, rfl, rfl⟩
      exact ⟨rfl, fun _ same => same.2 ▸ short⟩
    · rintro ⟨rfl, short⟩
      exact ⟨position, short position ⟨rfl, rfl⟩, rfl, rfl⟩

theorem mem_jobs {job : Job} : job ∈ project.jobs table ↔
    job.language ∈ table.keys ∧ ∀ language position, job = .call language position →
      position < project.generators.length := by
  rw [jobs, List.mem_flatMap]
  constructor
  · rintro ⟨language, key, member⟩
    obtain ⟨rfl, short⟩ := mem_jobsOf.mp member
    refine ⟨key, fun language position same => ?_⟩
    subst same
    exact short position rfl
  · rintro ⟨key, short⟩
    exact ⟨_, key, mem_jobsOf.mpr ⟨rfl, fun position same => short _ position same⟩⟩

theorem prepare_mem_jobs {language : String} :
    .prepare language ∈ project.jobs table ↔ language ∈ table.keys := by
  rw [mem_jobs]
  exact and_iff_left fun _ _ same => nomatch same

theorem jobs_nodup (project : Project) (table : LanguageTable) : (project.jobs table).Nodup := by
  refine List.nodup_flatMap.mpr ⟨fun language _ => ?_, ?_⟩
  · refine List.nodup_cons.mpr ⟨by simp, List.nodup_range.map fun _ _ same => ?_⟩
    cases same
    rfl
  · refine table.keys_nodup.imp fun apart => ?_
    intro job first second
    exact apart ((mem_jobsOf.mp first).1.symm.trans (mem_jobsOf.mp second).1)

/-- To go through the languages one by one is a schedule. -/
theorem isSchedule_jobs (project : Project) (table : LanguageTable) :
    project.IsSchedule table (project.jobs table) := by
  refine ⟨.refl _, List.pairwise_flatMap.mpr ⟨fun language _ => ?_, ?_⟩⟩
  · refine List.pairwise_cons.mpr ⟨fun job member precedes => ?_, ?_⟩
    · obtain ⟨position, _, rfl⟩ := List.mem_map.mp member
      cases precedes.1
    · refine List.pairwise_map.mpr (List.pairwise_of_forall fun early late precedes => ?_)
      cases precedes.1
  · refine table.keys_nodup.imp fun apart => ?_
    intro early first late second precedes
    rw [← (mem_jobsOf.mp first).1, ← (mem_jobsOf.mp second).1, precedes.1] at apart
    exact apart rfl

namespace IsSchedule

variable {schedule : List Job} (isSchedule : project.IsSchedule table schedule)
include isSchedule

theorem nodup : schedule.Nodup := isSchedule.complete.nodup_iff.mpr (project.jobs_nodup table)

theorem language_mem {job : Job} (member : job ∈ schedule) : job.language ∈ table.keys :=
  (mem_jobs.mp (isSchedule.complete.mem_iff.mp member)).1

theorem prepare_mem_iff {language : String} :
    .prepare language ∈ schedule ↔ language ∈ table.keys := by
  rw [isSchedule.complete.mem_iff, prepare_mem_jobs]

end IsSchedule

/-! ### The jobs in order -/

variable {language : String} {site after : Site}

theorem work_of_task {job : Job} {task : Task}
    (found : project.task root table (site.board (.prepare job.language)) job = some task) :
    project.work root table site job =
      ⟨(task.act site.tree).2, Function.update site.board job (some (task.act site.tree).1),
        site.calls + task.calls⟩ := by
  rw [work, found]

theorem work_prepare (project : Project) (root : Path) (table : LanguageTable) (site : Site)
    (language : String) :
    project.work root table site (.prepare language) =
      ⟨(site.tree.createDirectories (outputDirectory root language)).2,
        Function.update site.board (.prepare language) (some (project.prepared table language
          (site.tree.createDirectories (outputDirectory root language)).1)), site.calls⟩ := by
  simp [work, task, preparation]

/-- There is something to do in a call if the language was compiled. -/
theorem task_call_eq_some_iff {prepared? : Option Report} {position : Nat} {task : Task} :
    project.task root table prepared? (.call language position) = some task ↔
      ∃ compilation generator, prepared? = some (.compiled compilation) ∧
        project.generators[position]? = some generator ∧
        task = calling ⟨position, deliveryOf root language compilation⟩ generator := by
  show (match prepared?, project.generators[position]? with
    | some (.compiled compilation), some generator =>
      some (calling ⟨position, deliveryOf root language compilation⟩ generator)
    | _, _ => none) = some task ↔ _
  constructor
  · intro found
    split at found
    next compilation generator there =>
      cases found
      exact ⟨compilation, generator, rfl, there, rfl⟩
    next => cases found
  · rintro ⟨compilation, generator, rfl, there, rfl⟩
    rw [there]

/-- Nothing is done for a language that was not compiled. -/
theorem work_call_of_not_compiled {position : Nat}
    (idle : ∀ compilation, site.board (.prepare language) ≠ some (.compiled compilation)) :
    project.work root table site (.call language position) = site := by
  have nothing : project.task root table
      (site.board (.prepare (Job.call language position).language)) (.call language position) =
        none := by
    refine Option.eq_none_iff_forall_ne_some.mpr fun task found => ?_
    obtain ⟨compilation, _, compiled, _⟩ := task_call_eq_some_iff.mp found
    exact idle compilation compiled
  rw [work, nothing]

theorem foldl_calls_of_not_compiled
    (idle : ∀ compilation, site.board (.prepare language) ≠ some (.compiled compilation))
    (positions : List Nat) :
    (positions.map (.call language)).foldl (project.work root table) site = site := by
  induction positions with
  | nil => rfl
  | cons position positions ih =>
    rw [List.map_cons, List.foldl_cons, work_call_of_not_compiled idle, ih]

/-- The calls of a language in order are the runs of its turn. -/
theorem foldl_calls {compilation : Compilation} {tree last : FileTree}
    {runs : List (Generator × Except String Unit)}
    (ran : Runs (deliveryOf root language compilation) tree runs last)
    {position : Nat} (rest : project.generators.drop position = runs.map Prod.fst)
    (there : site.tree = tree)
    (compiled : site.board (.prepare language) = some (.compiled compilation)) :
    ∃ after, ((List.range' position runs.length).map (.call language)).foldl
        (project.work root table) site = after ∧
      after.tree = last ∧
      after.calls = site.calls + ↑((List.range' position runs.length).map fun place =>
        Call.mk place (deliveryOf root language compilation)) ∧
      (∀ job, (∀ place, position ≤ place → job ≠ .call language place) →
        after.board job = site.board job) ∧
      ((runs.map Prod.fst).zipIdx position).filterMap (runAt after language) = runs := by
  induction runs generalizing tree position site with
  | nil =>
    cases ran
    exact ⟨site, rfl, there, by simp, fun _ _ => rfl, rfl⟩
  | cons run runs ih =>
    obtain ⟨generator, result⟩ := run
    cases ran with
    | @cons _ next _ _ _ _ here later =>
    subst there
    have first : project.generators[position]? = some generator := by
      have head : (project.generators.drop position)[0]? = project.generators[position + 0]? :=
        List.getElem?_drop
      rw [rest] at head
      exact head.symm
    have others : project.generators.drop (position + 1) = runs.map Prod.fst := by
      rw [← List.tail_drop, rest]
      rfl
    let middle : Site :=
      ⟨next, Function.update site.board (.call language position) (some (.called result)),
        site.calls + {⟨position, deliveryOf root language compilation⟩}⟩
    have called : project.work root table site (.call language position) = middle := by
      rw [work_of_task
        (task_call_eq_some_iff.mpr ⟨compilation, generator, compiled, first, rfl⟩)]
      simp only [calling, here, middle]
    have another : Job.prepare language ≠ .call language position := nofun
    have pinnedUp : middle.board = Function.update site.board (.call language position)
        (some (.called result)) := rfl
    have still : middle.board (.prepare language) = some (.compiled compilation) := by
      rw [pinnedUp, Function.update_of_ne another, compiled]
    obtain ⟨after, whole, tree, calls, board, runsAt⟩ := ih later others rfl still
    have pinned : after.board (.call language position) = some (.called result) := by
      rw [board _ fun place late same => by cases same; omega]
      exact Function.update_self _ _ _
    refine ⟨after, ?_, tree, ?_, fun job other => ?_, ?_⟩
    · rw [List.length_cons, List.range'_succ, List.map_cons, List.foldl_cons, called, whole]
    · rw [calls, List.length_cons, List.range'_succ, List.map_cons, ← Multiset.cons_coe,
        ← Multiset.singleton_add, Multiset.add_assoc]
    · rw [board job fun place late => other place (by omega)]
      exact Function.update_of_ne (other position le_rfl) _ _
    · have read : runAt after language (generator, position) = some (generator, result) := by
        rw [runAt, pinned]
      rw [List.map_cons, List.zipIdx_cons, List.filterMap_cons_some read, runsAt]

/-- The jobs of a language in order are its turn. -/
theorem foldl_jobsOf {turn : Turn} {next : FileTree}
    (takes : project.Takes root site.tree turn next)
    (templates : (table.find? turn.language).getD .empty = turn.templates) :
    ∃ after, (project.jobsOf turn.language).foldl (project.work root table) site = after ∧
      after.tree = next ∧ project.turnAt after turn.entry = some turn ∧
      after.calls = site.calls + ↑(turn.outcome root).calls ∧
      ∀ job, job.language ≠ turn.language → after.board job = site.board job := by
  obtain ⟨language, base, course⟩ := turn
  simp only at templates
  have apart {report : Report} (job : Job) (other : job.language ≠ language) :
      Function.update site.board (.prepare language) (some report) job = site.board job :=
    Function.update_of_ne (fun same => other (congrArg Job.language same)) _ _
  rw [jobsOf, List.foldl_cons]
  cases takes with
  | noDirectory created =>
    rw [work_prepare, created, foldl_calls_of_not_compiled]
    · refine ⟨_, rfl, rfl, ?_, (Multiset.add_zero _).symm, apart⟩
      simp [turnAt, Turn.entry, prepared]
    · simp [prepared]
  | @notCompiled _ _ _ error created failed =>
    have told : project.prepared table language none = .notCompiled error := by
      rw [prepared, templates, failed]
    rw [work_prepare, created, told, foldl_calls_of_not_compiled]
    · refine ⟨_, rfl, rfl, ?_, (Multiset.add_zero _).symm, apart⟩
      simp [turnAt, Turn.entry]
    · simp
  | @delivered between _ _ _ compilation runs created compiled all ran =>
    have told : project.prepared table language none = .compiled compilation := by
      rw [prepared, templates, compiled]
    have length : project.generators.length = runs.length := by
      rw [← all, List.length_map]
    rw [work_prepare, created, told, length, List.range_eq_range']
    let middle : Site :=
      ⟨between, Function.update site.board (.prepare language) (some (.compiled compilation)),
        site.calls⟩
    have pinned : middle.board (.prepare language) = some (.compiled compilation) :=
      Function.update_self _ _ _
    have fromStart : project.generators.drop 0 = runs.map Prod.fst := all.symm
    obtain ⟨after, whole, tree, calls, board, runsAt⟩ :=
      foldl_calls ran fromStart (rfl : middle.tree = between) pinned
    refine ⟨after, whole, tree, ?_, ?_, fun job other => ?_⟩
    · have still := (board (.prepare language) fun _ _ => nofun).trans pinned
      simp only [turnAt, Turn.entry, still, ← all, runsAt]
    · rw [calls, ← List.range_eq_range']
      rfl
    · rw [board job fun place _ same => other (congrArg Job.language same)]
      exact apart job other

theorem turnAt_congr {entry : String × TemplateTable}
    (same : ∀ job, job.language = entry.1 → after.board job = site.board job) :
    project.turnAt after entry = project.turnAt site entry := by
  have runs : runAt after entry.1 = runAt site entry.1 := by
    funext run
    rw [runAt, runAt, same _ rfl]
  rw [turnAt, turnAt, same _ rfl, runs]

/-- The jobs of languages in order are their turns. -/
theorem foldl_jobs {tree last : FileTree} {turns : List Turn}
    (taken : project.TakeTurns root tree turns last) (there : site.tree = tree)
    (distinct : (turns.map Turn.language).Nodup)
    (templates : ∀ turn ∈ turns, (table.find? turn.language).getD .empty = turn.templates) :
    ∃ after, ((turns.map Turn.language).flatMap project.jobsOf).foldl
        (project.work root table) site = after ∧
      after.tree = last ∧ (turns.map Turn.entry).filterMap (project.turnAt after) = turns ∧
      after.calls = site.calls + ↑(outcomeOf root turns).calls ∧
      ∀ job, job.language ∉ turns.map Turn.language → after.board job = site.board job := by
  induction taken generalizing site with
  | nil => exact ⟨site, rfl, there, rfl, by simp [outcomeOf], fun _ _ => rfl⟩
  | @cons _ next last turn turns takes _ ih =>
    subst there
    obtain ⟨first, others⟩ := List.nodup_cons.mp distinct
    obtain ⟨here, later⟩ := List.forall_mem_cons.mp templates
    obtain ⟨middle, start, tree, turnThere, calls, board⟩ := foldl_jobsOf takes here
    obtain ⟨after, whole, left, turnsThere, allCalls, allBoard⟩ := ih tree others later
    refine ⟨after, ?_, left, ?_, ?_, fun job other => ?_⟩
    · rw [List.map_cons, List.flatMap_cons, List.foldl_append, start, whole]
    · have kept : project.turnAt after turn.entry = project.turnAt middle turn.entry :=
        turnAt_congr fun job same => allBoard job (same ▸ first)
      rw [List.map_cons, List.filterMap_cons_some (kept.trans turnThere), turnsThere]
    · rw [allCalls, calls, outcomeOf_cons, BuildOutcome.append, ← Multiset.coe_add,
        Multiset.add_assoc]
    · rw [List.map_cons, List.mem_cons, not_or] at other
      rw [allBoard job other.2, board job other.1]

/-- **A build does all jobs in order.** -/
theorem workAll_jobs (root : Path) {tree : FileTree} (loaded : LanguageTable.load tree
    project.templateDirectory project.templateFile = .ok table) :
    (project.workAll root table (project.jobs table) tree).tree = (project.build root tree).2 ∧
      (project.workAll root table (project.jobs table) tree).calls =
        ↑(project.build root tree).1.calls ∧
      project.resultAt root table (project.workAll root table (project.jobs table) tree) =
        (project.build root tree).1.result := by
  obtain ⟨turns, same, languages, taken, told⟩ := project.build_turns root tree loaded
  have templates : ∀ turn ∈ turns,
      (table.find? turn.language).getD .empty = turn.templates := by
    intro turn member
    have listed : turn.entry ∈ table.entries := same ▸ List.mem_map_of_mem member
    rw [Dictionary.find?_eq_some_iff.mpr listed]
    rfl
  obtain ⟨after, whole, left, turnsThere, calls, _⟩ :=
    foldl_jobs taken (rfl : Site.tree { tree } = tree) (languages ▸ table.keys_nodup) templates
  rw [languages] at whole
  have done : project.workAll root table (project.jobs table) tree = after := whole
  rw [done, told, resultAt, ← same, turnsThere]
  exact ⟨left, calls.trans (Multiset.zero_add _), rfl⟩

end Project

end Phrasebook
