/-
**Jobs that change places.**

Where the build root leads to a directory, every job of a build touches a place of its own below it,
as long as no link stands there and only one generator writes (`act_cases`). So jobs that need not
follow each other can change places (`exchange_work`), and it makes no difference which of them
creates the build root (`foldl_work_withBuildRoot`). All schedules come to the same then
(`workAll_eq_of_ready`).

That steps in all orders come to the same if they can change places is a fact about any steps
(`Exchange.foldl_eq`).
-/

import Phrasebook.Proofs.Jobs
import Phrasebook.Proofs.Touches

namespace Phrasebook

open FileTree Project

/-! ### Orders of steps -/

section Orders

variable {σ ι : Type}

/-- Steps that need not come one before the other can change places, in all states that are met. -/
structure Exchange (step : σ → ι → σ) (Met : σ → Prop) (Item : ι → Prop)
    (Precedes : ι → ι → Prop) : Prop where
  keeps : ∀ state item, Met state → Item item → Met (step state item)
  swap : ∀ state first second, Met state → Item first → Item second → first ≠ second →
    ¬Precedes first second → ¬Precedes second first →
      step (step state first) second = step (step state second) first

variable {step : σ → ι → σ} {Met : σ → Prop} {Item : ι → Prop} {Precedes : ι → ι → Prop}

theorem Exchange.foldl_append (exchange : Exchange step Met Item Precedes) {item : ι}
    {before after : List ι} (isItem : Item item) (items : ∀ other ∈ before, Item other)
    (free : ∀ other ∈ before, other ≠ item ∧ ¬Precedes other item ∧ ¬Precedes item other)
    {state : σ} (met : Met state) :
    (before ++ item :: after).foldl step state = (item :: (before ++ after)).foldl step state := by
  induction before generalizing state with
  | nil => rfl
  | cons other before ih =>
    obtain ⟨isOther, others⟩ := List.forall_mem_cons.mp items
    obtain ⟨⟨apart, notBefore, notAfter⟩, rest⟩ := List.forall_mem_cons.mp free
    rw [List.cons_append, List.foldl_cons, ih others rest (exchange.keeps _ _ met isOther),
      List.foldl_cons, exchange.swap _ _ _ met isOther isItem apart notBefore notAfter]
    rfl

/-- **All orders come to the same.** -/
theorem Exchange.foldl_eq (exchange : Exchange step Met Item Precedes) {first second : List ι}
    (same : first.Perm second) (distinct : first.Nodup) (items : ∀ item ∈ first, Item item)
    (firstRespects : Respects Precedes first) (secondRespects : Respects Precedes second)
    {state : σ} (met : Met state) : first.foldl step state = second.foldl step state := by
  induction first generalizing second state with
  | nil => rw [List.nil_perm.mp same]
  | cons item rest ih =>
    obtain ⟨before, after, rfl⟩ := List.append_of_mem (same.mem_iff.mp List.mem_cons_self)
    obtain ⟨isItem, others⟩ := List.forall_mem_cons.mp items
    have remaining : rest.Perm (before ++ after) :=
      (same.trans List.perm_middle).cons_inv
    obtain ⟨early, late⟩ := List.pairwise_cons.mp firstRespects
    have inRest {other : ι} (member : other ∈ before) : other ∈ rest :=
      remaining.mem_iff.mpr (List.mem_append_left _ member)
    have free : ∀ other ∈ before,
        other ≠ item ∧ ¬Precedes other item ∧ ¬Precedes item other := by
      intro other member
      refine ⟨?_, early other (inRest member), ?_⟩
      · rintro rfl
        exact (List.nodup_cons.mp distinct).1 (inRest member)
      · exact (List.pairwise_append.mp secondRespects).2.2 other member item List.mem_cons_self
    rw [exchange.foldl_append isItem (fun other member => others other (inRest member)) free met,
      List.foldl_cons, List.foldl_cons]
    refine ih remaining (List.nodup_cons.mp distinct).2 others late ?_
      (exchange.keeps _ _ met isItem)
    exact secondRespects.sublist
      (List.Sublist.append (List.Sublist.refl _) (List.sublist_cons_self _ _))

end Orders

/-! ### Generators -/

/-- The generator neither looks at files nor writes any. -/
def Generator.IsBlind (generator : Generator) : Prop :=
  ∃ answer : Delivery → Except String Unit,
    ∀ delivery tree, generator.run delivery tree = (answer delivery, tree)

theorem Generator.isBlind_silent (name : String) (reason? : String → Option String) :
    (silent name reason?).IsBlind := by
  refine ⟨fun delivery => (reason? delivery.language).elim (.ok ()) .error,
    fun delivery tree => ?_⟩
  simp only [silent]
  cases reason? delivery.language <;> rfl

theorem Generator.IsBlind.isQuiet {generator : Generator} (blind : generator.IsBlind) :
    generator.IsQuiet := by
  intro delivery tree
  obtain ⟨answer, answers⟩ := blind
  rw [answers]

/-- Of the generators one writes manifests at most, and the others have nothing to do with files. -/
structure OneWriter (generators : List Generator) : Prop where
  kinds : ∀ generator ∈ generators, (∃ pretty, generator = .json pretty) ∨ generator.IsBlind
  single : ∀ (first second : Nat) (pretty other : Bool),
    generators[first]? = some (.json pretty) → generators[second]? = some (.json other) →
      first = second

theorem OneWriter.modest {generators : List Generator} (oneWriter : OneWriter generators) :
    ∀ generator ∈ generators, generator.WritesManifestAtMost :=
  fun generator member => (oneWriter.kinds generator member).imp_right fun blind => blind.isQuiet

/-! ### Jobs below a build root -/

/-- The build root leads to the directory at `ground`, and no link stands below it. -/
structure FileTree.Ready (root : Path) (ground : Location) (tree : FileTree) : Prop where
  rooted : tree.Rooted
  located : tree.locate (groundPath root) = .ok ground
  linkless : ∀ names, names ≠ [] → ∀ target, tree.find? (ground ++ names) ≠ some (.link target)

theorem FileTree.Ready.changes {root : Path} {ground : Location} {tree next : FileTree}
    {made : Path → Prop} {written : Path → String → Prop} (ready : Ready root ground tree)
    (changes : Changes made written tree next) : Ready root ground next where
  rooted := changes.rooted ready.rooted
  located := changes.grown.locate_eq ready.located
  linkless names below target link :=
    ready.linkless names below target (changes.grown.of_link link)

/-- The build root is ready, and so are the directories of all languages that were compiled. -/
structure Site.Ready (root : Path) (ground : Location) (site : Site) : Prop where
  tree : site.tree.Ready root ground
  directories : ∀ language compilation,
    site.board (.prepare language) = some (.compiled compilation) →
      site.tree.find? (ground ++ [(language : Name)]) = some .directory

/-- The place that a job touches, as seen from the build root. -/
def Job.place : Job → Location
  | .prepare language => [language]
  | .call language _ => [language, Generator.manifestFileName]

namespace Project

variable {project : Project} {root : Path} {table : LanguageTable} {ground : Location}
  {tree : FileTree} {site : Site} {job : Job} {language : String}

/-- A task changes directories and manifests only. -/
theorem changes_of_task (oneWriter : OneWriter project.generators) (rooted : tree.Rooted)
    {prepared? : Option Report} {task : Task}
    (found : project.task root table prepared? job = some task) :
    Changes (fun _ => True) (fun _ _ => True) tree (task.act tree).2 := by
  cases job with
  | prepare language =>
    cases found
    exact changes_createAlong rooted
      (rfl : tree.createDirectories (outputDirectory root language) = _) fun _ _ => trivial
  | call language position =>
    obtain ⟨compilation, generator, _, there, rfl⟩ := task_call_eq_some_iff.mp found
    have ran : Runs (deliveryOf root language compilation) tree [(generator, _)] _ :=
      .cons rfl .nil
    refine ran.changes rooted ?_ fun _ _ => trivial
    exact List.forall_mem_singleton.mpr
      (oneWriter.modest generator (List.mem_of_getElem? there))

/-- The report of a call, by how the writing failed. -/
def calledReport : Option FileError → Report
  | none => .called (.ok ())
  | some error => .called (.error error.message)

/-- A call of the generator that writes is work at one place. -/
theorem calling_json_act {compilation : Compilation} {pretty : Bool} {position : Nat}
    (isName : Path.IsName language) (ready : tree.Ready root ground)
    (directory : tree.find? (ground ++ [(language : Name)]) = some .directory) :
    (calling ⟨position, deliveryOf root language compilation⟩ (.json pretty)).act tree =
      ((manifestTouch ground root language
        ((deliveryOf root language compilation).manifestText pretty)).map calledReport).apply
          tree := by
  have written := writeText_of_ready isName ready.located directory
    (ready.linkless _ (List.cons_ne_nil _ _))
    ((deliveryOf root language compilation).manifestText pretty)
  rw [Touch.apply_map, ← written]
  show (Report.called ((Generator.json pretty).run (deliveryOf root language compilation) tree).1,
    ((Generator.json pretty).run (deliveryOf root language compilation) tree).2) = _
  have path : (deliveryOf root language compilation).manifestPath = manifestPath root language :=
    rfl
  rw [run_json_eq, path]
  cases tree.writeText (manifestPath root language)
    ((deliveryOf root language compilation).manifestText pretty) <;> rfl

/-- In a ready tree, a task does not touch files at all or is work at the place of its job. -/
theorem act_cases (oneWriter : OneWriter project.generators) (isName : Path.IsName job.language)
    {prepared? : Option Report} {task : Task}
    (found : project.task root table prepared? job = some task) :
    (∃ report, ∀ tree, task.act tree = (report, tree)) ∨
    (∀ language position, job = .call language position →
      ∃ pretty, project.generators[position]? = some (.json pretty)) ∧
    ∃ touch : Touch Report, touch.location = ground ++ job.place ∧
      ∀ site : Site, site.Ready root ground → site.board (.prepare job.language) = prepared? →
        task.act site.tree = touch.apply site.tree := by
  cases job with
  | prepare language =>
    cases found
    refine .inr ⟨fun _ _ => nofun,
      (directoryTouch ground root language).map (project.prepared table language), rfl,
      fun site ready _ => ?_⟩
    have created : site.tree.createDirectories (outputDirectory root language) = _ :=
      createDirectories_of_ready isName ready.tree.located
        (ready.tree.linkless _ (List.cons_ne_nil _ _))
    rw [Touch.apply_map, ← created]
    rfl
  | call language position =>
    obtain ⟨compilation, generator, rfl, there, rfl⟩ := task_call_eq_some_iff.mp found
    rcases oneWriter.kinds generator (List.mem_of_getElem? there) with ⟨pretty, rfl⟩ | blind
    · refine .inr ⟨?_, _, rfl, fun site ready compiled => calling_json_act isName ready.tree
        (ready.directories language compilation compiled)⟩
      intro _ _ same
      cases same
      exact ⟨pretty, there⟩
    · obtain ⟨answer, answers⟩ := blind
      refine .inl ⟨.called (answer (deliveryOf root language compilation)), fun tree => ?_⟩
      show (Report.called (generator.run (deliveryOf root language compilation) tree).1,
        (generator.run (deliveryOf root language compilation) tree).2) = _
      rw [answers]

/-- Where the creation of a directory does not fail, there is one. -/
theorem find?_directoryTouch
    (linkless : ∀ target, tree.find? (ground ++ [(language : Name)]) ≠ some (.link target))
    (created : ((directoryTouch ground root language).apply tree).1 = none) :
    ((directoryTouch ground root language).apply tree).2.find? (ground ++ [(language : Name)]) =
      some .directory := by
  have fine : directoryFault? root language (tree.find? (ground ++ [(language : Name)])) = none :=
    created
  simp only [Touch.apply, directoryTouch, fine, true_and]
  cases standing : tree.find? (ground ++ [(language : Name)]) with
  | none =>
    simp only [if_true]
    exact find?_place_self (by simp) _
  | some entry =>
    simp only [reduceCtorEq, if_false, standing]
    cases entry with
    | directory => rfl
    | link target => exact absurd standing (linkless target)
    | file content =>
      rw [standing, directoryFault?, Option.or_eq_none_iff] at fine
      have refused := fine.2
      split at refused <;> cases refused

/-- **Work keeps the site ready.** -/
theorem ready_work (oneWriter : OneWriter project.generators)
    (isName : Path.IsName job.language) (ready : site.Ready root ground) :
    (project.work root table site job).Ready root ground := by
  cases found : project.task root table (site.board (.prepare job.language)) job with
  | none =>
    rw [work, found]
    exact ready
  | some task =>
    have changes := changes_of_task oneWriter ready.tree.rooted found
    rw [work_of_task found]
    refine ⟨ready.tree.changes changes, fun language compilation pinned => ?_⟩
    simp only at pinned
    by_cases same : job = .prepare language
    · subst same
      cases found
      have linkless := ready.tree.linkless [language] (List.cons_ne_nil _ _)
      have tried : site.tree.createDirectories (outputDirectory root language) =
          (directoryTouch ground root language).apply site.tree :=
        createDirectories_of_ready isName ready.tree.located linkless
      rw [Function.update_self] at pinned
      have told : project.prepared table language
          (site.tree.createDirectories (outputDirectory root language)).1 =
            .compiled compilation := Option.some.inj pinned
      show (site.tree.createDirectories (outputDirectory root language)).2.find? _ = _
      rw [tried] at told ⊢
      refine find?_directoryTouch linkless ?_
      cases failed : ((directoryTouch ground root language).apply site.tree).1 with
      | none => rfl
      | some error =>
        rw [failed] at told
        cases told
    · rw [Function.update_of_ne (Ne.symm same)] at pinned
      exact changes.grown.directory (ready.directories language compilation pinned)

/-! ### Jobs that change places -/

/-- Two operations on a tree can be done in either order. -/
structure Commute (first second : FileTree → Report × FileTree) (tree : FileTree) : Prop where
  early : (first (second tree).2).1 = (first tree).1
  late : (second (first tree).2).1 = (second tree).1
  tree : (second (first tree).2).2 = (first (second tree).2).2

theorem place_injective (oneWriter : OneWriter project.generators) {first second : Job}
    (apart : first ≠ second)
    (firstWrites : ∀ language position, first = .call language position →
      ∃ pretty, project.generators[position]? = some (.json pretty))
    (secondWrites : ∀ language position, second = .call language position →
      ∃ pretty, project.generators[position]? = some (.json pretty)) :
    ground ++ first.place ≠ ground ++ second.place := by
  intro same
  have places := List.append_cancel_left same
  cases first with
  | prepare language =>
    cases second with
    | prepare other =>
      obtain rfl := RawText.of_inj.mp (List.cons.inj places).1
      exact apart rfl
    | call other position => cases (List.cons.inj places).2
  | call language position =>
    cases second with
    | prepare other => cases (List.cons.inj places).2
    | call other place =>
      obtain rfl := RawText.of_inj.mp (List.cons.inj places).1
      obtain ⟨pretty, here⟩ := firstWrites _ _ rfl
      obtain ⟨other, there⟩ := secondWrites _ _ rfl
      exact apart (oneWriter.single _ _ _ _ here there ▸ rfl)

/-- A job is pinned up in its own place. -/
theorem board_work_of_ne {other : Job} (apart : other ≠ job) :
    (project.work root table site job).board other = site.board other := by
  rw [work]
  split
  next => rfl
  next => exact Function.update_of_ne apart _ _

/-- A job looks at the preparation of its own language only. -/
theorem board_of_not_precedes {first second : Job} (apart : first ≠ second)
    (free : ¬first.Precedes second) (site : Site) :
    (project.work root table site first).board (.prepare second.language) =
      site.board (.prepare second.language) :=
  board_work_of_ne fun same => free ⟨same.symm, apart⟩

/-- Tasks of jobs that need not follow each other can be done in either order. -/
theorem commute_act (oneWriter : OneWriter project.generators) {first second : Job}
    (ready : site.Ready root ground) (firstName : Path.IsName first.language)
    (secondName : Path.IsName second.language) (apart : first ≠ second)
    (notBefore : ¬first.Precedes second) (notAfter : ¬second.Precedes first)
    {firstTask secondTask : Task}
    (firstFound : project.task root table (site.board (.prepare first.language)) first =
      some firstTask)
    (secondFound : project.task root table (site.board (.prepare second.language)) second =
      some secondTask) : Commute firstTask.act secondTask.act site.tree := by
  rcases act_cases oneWriter firstName firstFound with
    ⟨report, blind⟩ | ⟨firstWrites, firstTouch, firstPlace, firstActs⟩
  · constructor <;> simp only [blind]
  rcases act_cases oneWriter secondName secondFound with
    ⟨report, blind⟩ | ⟨secondWrites, secondTouch, secondPlace, secondActs⟩
  · constructor <;> simp only [blind]
  have afterFirst : (project.work root table site first).Ready root ground :=
    ready_work oneWriter firstName ready
  have afterSecond : (project.work root table site second).Ready root ground :=
    ready_work oneWriter secondName ready
  have secondLater := secondActs _ afterFirst (board_of_not_precedes apart notBefore site)
  have firstLater := firstActs _ afterSecond (board_of_not_precedes apart.symm notAfter site)
  rw [work_of_task firstFound] at secondLater
  rw [work_of_task secondFound] at firstLater
  simp only [firstActs site ready rfl] at secondLater
  simp only [secondActs site ready rfl] at firstLater
  have places : firstTouch.location ≠ secondTouch.location := by
    rw [firstPlace, secondPlace]
    exact place_injective oneWriter apart firstWrites secondWrites
  have below (job : Job) : ground ++ job.place ≠ [] := by cases job <;> simp [Job.place]
  have firstBelow : firstTouch.location ≠ [] := firstPlace ▸ below first
  have secondBelow : secondTouch.location ≠ [] := secondPlace ▸ below second
  obtain ⟨late, trees⟩ := Touch.apply_comm site.tree firstBelow secondBelow places
  obtain ⟨early, _⟩ := Touch.apply_comm site.tree secondBelow firstBelow places.symm
  constructor
  · rw [secondActs site ready rfl, firstLater, firstActs site ready rfl, early]
  · rw [firstActs site ready rfl, secondLater, secondActs site ready rfl, late]
  · rw [firstActs site ready rfl, secondLater, secondActs site ready rfl, firstLater, trees]

/-- **Jobs that need not follow each other can change places.** -/
theorem exchange_work (oneWriter : OneWriter project.generators) :
    Exchange (project.work root table) (Site.Ready root ground)
      (fun job => Path.IsName job.language) Job.Precedes where
  keeps _ _ ready isName := ready_work oneWriter isName ready
  swap site first second ready firstName secondName apart notBefore notAfter := by
    have secondBoard : (project.work root table site first).board _ = _ :=
      board_of_not_precedes apart notBefore site
    have firstBoard : (project.work root table site second).board _ = _ :=
      board_of_not_precedes apart.symm notAfter site
    cases firstFound : project.task root table (site.board (.prepare first.language)) first with
    | none =>
      have idle (other : Site)
          (same : other.board (.prepare first.language) = site.board (.prepare first.language)) :
          project.work root table other first = other := by
        rw [work, same, firstFound]
      rw [idle site rfl, idle _ firstBoard]
    | some firstTask =>
      cases secondFound :
          project.task root table (site.board (.prepare second.language)) second with
      | none =>
        have idle (other : Site) (same : other.board (.prepare second.language) =
              site.board (.prepare second.language)) :
            project.work root table other second = other := by
          rw [work, same, secondFound]
        rw [idle site rfl, idle _ secondBoard]
      | some secondTask =>
        obtain ⟨early, late, tree⟩ := commute_act oneWriter ready firstName secondName apart
          notBefore notAfter firstFound secondFound
        have secondStill := secondBoard.symm ▸ secondFound
        have firstStill := firstBoard.symm ▸ firstFound
        rw [work_of_task secondStill, work_of_task firstStill, work_of_task firstFound,
          work_of_task secondFound]
        simp only [early, late, tree]
        rw [Function.update_comm apart, Multiset.add_assoc, Multiset.add_assoc,
          Multiset.add_comm firstTask.calls]

/-! ### Creating the build root -/

/-- The output directory of the language is written as a path. -/
def IsSound (root : Path) (language : String) : Prop :=
  pathFault? (outputDirectory root language) = none

/-- It makes no difference whether the first job that needs the build root creates it, or whether
this was done before. -/
theorem foldl_work_withBuildRoot {start : FileTree} (rooted : start.Rooted)
    (ready : (withBuildRoot root start).locate (groundPath root) = .ok ground) {jobs : List Job}
    (names : ∀ job ∈ jobs, Path.IsName job.language)
    (tries : ∃ language, .prepare language ∈ jobs ∧ IsSound root language)
    (there : site.tree = start)
    (idle : ∀ language compilation, site.board (.prepare language) ≠ some (.compiled compilation)) :
    jobs.foldl (project.work root table) site =
      jobs.foldl (project.work root table) { site with tree := withBuildRoot root start } := by
  induction jobs generalizing site with
  | nil =>
    obtain ⟨_, member, _⟩ := tries
    cases member
  | cons job jobs ih =>
    subst there
    obtain ⟨isName, others⟩ := List.forall_mem_cons.mp names
    obtain ⟨language, member, sound⟩ := tries
    rw [List.foldl_cons, List.foldl_cons]
    cases job with
    | call other position =>
      have later : .prepare language ∈ jobs := (List.mem_cons.mp member).resolve_left nofun
      let ready : Site := { site with tree := withBuildRoot root site.tree }
      have idleThere : ∀ compilation, ready.board (.prepare other) ≠ some (.compiled compilation) :=
        idle other
      rw [work_call_of_not_compiled (idle other), work_call_of_not_compiled idleThere]
      exact ih others ⟨language, later, sound⟩ rfl idle
    | prepare other =>
      rw [work_prepare, work_prepare]
      have isName : Path.IsName other := isName
      cases fault : pathFault? (outputDirectory root other) with
      | none =>
        -- From here on there is no difference at all.
        rcases attempt_of_sound rooted isName fault with ⟨_, same⟩ | ⟨_, blocked, _⟩
        · simp only [same]
        · exact absurd ready (blocked ground)
      | some error =>
        have refused (tree : FileTree) : tree.createDirectories _ = (some error, tree) :=
          createDirectories_of_fault isName fault
        have later : .prepare language ∈ jobs := by
          refine (List.mem_cons.mp member).resolve_left fun same => ?_
          cases same
          rw [IsSound, fault] at sound
          cases sound
        rw [refused, refused]
        refine ih others ⟨language, later, sound⟩ rfl fun probe compilation => ?_
        by_cases same : Job.prepare probe = .prepare other
        · simp [same, prepared]
        · simp only [Function.update_of_ne same]
          exact idle probe compilation

/-- **Below a build root that leads to a directory**, all schedules come to the same. -/
theorem workAll_eq_of_ready (oneWriter : OneWriter project.generators) (rooted : tree.Rooted)
    (names : ∀ language ∈ table.keys, Path.IsName language)
    (sound : ∃ language ∈ table.keys, IsSound root language)
    (located : (withBuildRoot root tree).locate (groundPath root) = .ok ground)
    (noLinks : (withBuildRoot root tree).NoLinksBelow root) {first second : List Job}
    (firstSchedule : project.IsSchedule table first)
    (secondSchedule : project.IsSchedule table second) :
    project.workAll root table first tree = project.workAll root table second tree := by
  have jobNames {schedule : List Job} (isSchedule : project.IsSchedule table schedule) :
      ∀ job ∈ schedule, Path.IsName job.language :=
    fun job member => names _ (isSchedule.language_mem member)
  have started {schedule : List Job} (isSchedule : project.IsSchedule table schedule) :
      project.workAll root table schedule tree =
        project.workAll root table schedule (withBuildRoot root tree) := by
    obtain ⟨language, key, sound⟩ := sound
    exact foldl_work_withBuildRoot rooted located (jobNames isSchedule)
      ⟨language, isSchedule.prepare_mem_iff.mpr key, sound⟩ rfl fun _ _ => nofun
  have met : Site.Ready root ground { tree := withBuildRoot root tree } :=
    ⟨⟨(withBuildRoot_changes root rooted).rooted rooted, located, noLinks ground located⟩,
      fun _ _ => nofun⟩
  rw [started firstSchedule, started secondSchedule]
  exact (exchange_work oneWriter).foldl_eq
    (firstSchedule.complete.trans secondSchedule.complete.symm) firstSchedule.nodup
    (jobNames firstSchedule) firstSchedule.respects secondSchedule.respects met

end Project

end Phrasebook
