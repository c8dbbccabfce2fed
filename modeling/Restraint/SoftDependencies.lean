import Restraint.DependencyVisits
import Restraint.PackagePhase

/-! The soft dependencies of a task and those of the repositories that it requires. The record
of a nested resolution is a copy with the packages and the repositories of its own metadata; its
soft dependencies are still those of the task. -/
namespace Restraint.SoftDependencies
open CString Transition Dependency Descent DependencyVisits
open Restraint.PackagePhase (batchCommand marked unmarked removeRpms_eq installRpms_eq
  batchCommand_of_eq_nil batchCommand_of_ne_nil mark)

/-- A package command for a repository, or for the task. -/
structure Attempt where
  node : Option Text
  callback : Callback
  command : Text
  deriving DecidableEq

/-- The package command that is under way. -/
def attempt (s : Resolver) : Option Attempt :=
  match s.pending with
  | some (.package callback command) => some ⟨owner s.stack.tail, callback, command⟩
  | _ => none

/-- Every operation succeeds. -/
abbrev succeeding (graph : Text → Option MetaData) (s : Resolver) (answer : Answer) : Prop :=
  serves graph s answer = true ∧ answer.error = none ∧ answer.pidResult = 0

/-- The package commands of a run, in order. -/
def attempts (graph : Text → Option MetaData) (s : Resolver) (answers : List Answer) : List Attempt :=
  trace (only step (succeeding graph)) (fun s _ => attempt s) s answers

/-- The commands for the hard dependencies of a node. -/
def hard (node : Option Text) (dependencies : List Text) : List Attempt :=
  (batchCommand "rstrnt-package remove" (marked dependencies)).map (⟨node, .batchRemove, ·⟩) ++
    (batchCommand "rstrnt-package install" (unmarked dependencies)).map (⟨node, .batchInstall, ·⟩)

/-- The commands for the soft dependencies of a node. -/
def soft (node : Option Text) (softdependencies : List Text) : List Attempt :=
  softdependencies.map fun package => ⟨node, .soft, packageCommand package⟩

/-- The commands for what a node has in its own metadata. -/
def own (node : Option Text) (metadata : MetaData) : List Attempt :=
  hard node metadata.dependencies ++ soft node metadata.softdependencies

/-- The same with the soft dependencies of another node. -/
def mixed (node : Option Text) (softdependencies : List Text) (metadata : MetaData) : List Attempt :=
  hard node metadata.dependencies ++ soft node softdependencies

variable {graph : Text → Option MetaData} {basePath : Text} {url : FetchUrl}
  {reports : List (Option Error)} {below : List DependencyData} {dd : DependencyData}
  {P : List Attempt → Resolver → Prop} {visits : List (Visit Text)} {answer : Answer} {path : Text}

/-! ## One record -/

theorem leads_started {operation : Operation}
    (after : ∀ answer, succeeding graph ⟨dd :: below, some operation, reports⟩ answer →
      Leads step (succeeding graph) (fun s _ => attempt s)
        (fun list => P ((attempt ⟨dd :: below, some operation, reports⟩).toList ++ list))
        (complete reports dd below answer operation)) :
    Leads step (succeeding graph) (fun s _ => attempt s) P
      (resume reports below (.started operation dd)) := by
  refine .next (fun _ _ => ⟨_, rfl⟩) ?_
  intro answer t success stepped
  cases stepped
  exact after answer success

/-- A command for the node that the records below belong to. -/
theorem leads_command {callback : Callback} {command : Text} (control : Control)
    (done : ∀ answer : Answer, answer.error = none → answer.pidResult = 0 →
      packageDone dd answer callback = .inr control)
    (after : Leads step (succeeding graph) (fun s _ => attempt s)
      (fun list => P (⟨owner below, callback, command⟩ :: list)) (resume reports below control)) :
    Leads step (succeeding graph) (fun s _ => attempt s) P
      (resume reports below (.started (.package callback command) dd)) := by
  apply leads_started
  intro answer success
  simp only [complete, done answer success.2.1 success.2.2]
  exact after

theorem leads_soft (state : dd.state = .softRpm) :
    Leads step (succeeding graph) (fun s _ => attempt s)
      (fun list t => list = soft (owner below) dd.softdependencies ∧ t = finish reports none below)
      (resume reports below (dependencySoftRpm dd)) := by
  generalize left : dd.softdependencies = packages
  induction packages generalizing dd with
  | nil =>
    simp only [dependencySoftRpm, left]
    exact .here ⟨rfl, rfl⟩
  | cons package packages ih =>
    simp only [dependencySoftRpm, left]
    refine leads_command (dependencySoftRpm { dd with softdependencies := packages }) ?_ ?_
    · intro answer error _
      simp [packageDone, error, dependencyHandler, state, left]
    · refine Leads.mono (ih ?_ ?_) ?_
      · exact state
      · rfl
      · rintro list t ⟨rfl, there⟩
        exact ⟨rfl, there⟩

theorem leads_batchInstall (dependencies : List Text)
    (list : dd.installRpms.getD [] = installRpms dependencies) :
    Leads step (succeeding graph) (fun s _ => attempt s)
      (fun list t => list =
          (batchCommand "rstrnt-package install" (unmarked dependencies)).map
            (⟨owner below, .batchInstall, ·⟩) ++ soft (owner below) dd.softdependencies ∧
        t = finish reports none below)
      (resume reports below (dependencyBatchInstall dd)) := by
  rw [installRpms_eq] at list
  have softOnly {record : DependencyData}
      (softdependencies : record.softdependencies = dd.softdependencies)
      (state : record.state = .softRpm) (empty : dd.installRpms.getD [] = []) :
      Leads step (succeeding graph) (fun s _ => attempt s)
        (fun list t => list =
            (batchCommand "rstrnt-package install" (unmarked dependencies)).map
              (⟨owner below, .batchInstall, ·⟩) ++ soft (owner below) dd.softdependencies ∧
          t = finish reports none below)
        (resume reports below (dependencySoftRpm record)) := by
    rw [batchCommand_of_eq_nil (list.symm.trans empty), List.map_nil, List.nil_append,
      ← softdependencies]
    exact leads_soft state
  unfold dependencyBatchInstall
  split
  · rename_i empty
    exact softOnly rfl rfl (by rw [empty, Option.getD_some])
  · rename_i text more held
    rw [held, Option.getD_some] at list
    rw [batchCommand_of_ne_nil list.symm more]
    refine leads_command
      (dependencySoftRpm { dd with
        installRpms := none
        dependencies := []
        state := .softRpm }) ?_ ?_
    · intro answer error zero
      simp [packageDone, dependencyProcessErrors, error, zero, dependencyHandler]
    · refine Leads.mono (leads_soft ?_) ?_
      · rfl
      · rintro list t ⟨rfl, there⟩
        exact ⟨rfl, there⟩
  · rename_i none
    exact softOnly rfl rfl (by rw [none, Option.getD_none])

/-- The commands of a record: its own packages, and the soft dependencies that it has. -/
theorem leads_rpm : Leads step (succeeding graph) (fun s _ => attempt s)
    (fun list t => list = hard (owner below) dd.dependencies ++
        soft (owner below) dd.softdependencies ∧
      t = finish reports none below)
    (resume reports below (dependencyRpm dd)) := by
  unfold dependencyRpm
  split
  · rename_i none
    rw [none]
    refine Leads.mono (leads_soft ?_) fun _ _ => id
    rfl
  unfold dependencyBatchRpms
  split
  · rename_i empty
    have none : batchCommand "rstrnt-package remove" (marked dd.dependencies) = [] :=
      batchCommand_of_eq_nil (removeRpms_eq.symm.trans (Option.some.inj empty))
    rw [hard, none]
    refine Leads.mono (leads_batchInstall dd.dependencies ?_) ?_
    · rfl
    · rintro list t ⟨rfl, there⟩
      exact ⟨rfl, there⟩
  · rename_i text more held
    rw [hard, batchCommand_of_ne_nil (removeRpms_eq.symm.trans (Option.some.inj held)) more]
    refine leads_command
      (dependencyBatchInstall { dd with
        removeRpms := none
        installRpms := some (installRpms dd.dependencies) }) ?_ ?_
    · intro answer error zero
      simp [packageDone, dependencyProcessErrors, error, zero, dependencyBatchRpms]
    · refine Leads.mono (leads_batchInstall dd.dependencies ?_) ?_
      · rfl
      · rintro list t ⟨rfl, there⟩
        exact ⟨rfl, there⟩
  · rename_i none
    cases none

/-! ## The repositories -/

/-- The commands for a repository, with soft dependencies. -/
def attempted (graph : Text → Option MetaData) (softdependencies : List Text) (path : Text) :
    List Attempt :=
  (graph path).elim [] (mixed (some path) softdependencies)

/-- What the commands of a record are with the repositories at these paths, and how it ends. -/
def Resolves (graph : Text → Option MetaData) (reports : List (Option Error))
    (below : List DependencyData) (dd : DependencyData) (paths : List Text) (list : List Attempt)
    (t : Resolver) : Prop :=
  list = paths.flatMap (attempted graph dd.softdependencies) ++
      (hard (owner below) dd.dependencies ++ soft (owner below) dd.softdependencies) ∧
    t = finish reports none below

/-- A repository that was processed before is fetched and left. -/
theorem leads_old {repo : Text} {repos : List Text} (list : dd.repodeps = repo :: repos)
    (old : repoPath dd repo ∈ dd.processedDeps)
    (after : Leads step (succeeding graph) (fun s _ => attempt s) P (resume reports below (nextRepo dd))) :
    Leads step (succeeding graph) (fun s _ => attempt s) P
      (resume reports below (restraintFetchRepodeps dd)) := by
  simp only [restraintFetchRepodeps, list]
  apply leads_started
  intro answer success
  simp only [complete, success.2.1, old, if_true]
  exact after

/-- A repository that was not processed before is fetched, and its metadata is read. -/
theorem leads_new {repo : Text} {repos : List Text} (list : dd.repodeps = repo :: repos)
    (new : repoPath dd repo ∉ dd.processedDeps)
    (after : Leads step (succeeding graph) (fun s _ => attempt s) P
      (complete reports { dd with processedDeps := repoPath dd repo :: dd.processedDeps } below
        ⟨none, 0, graph (repoPath dd repo)⟩ (.metadata (repoPath dd repo)))) :
    Leads step (succeeding graph) (fun s _ => attempt s) P
      (resume reports below (restraintFetchRepodeps dd)) := by
  simp only [restraintFetchRepodeps, list]
  apply leads_started
  intro answer success
  simp only [complete, success.2.1, new, if_false]
  apply leads_started
  intro answer success
  have found : answer.metadata = graph (repoPath dd repo) := by
    simpa [serves, success.2.1] using success.1
  simp only [complete, success.2.1, found]
  exact after

/-- The repositories of a record one after the other; each is resolved like the record itself. -/
theorem leads_repos (unpacks : Unpacks basePath url dd)
    (descent : Visits (required graph basePath url) dd.processedDeps
      (dd.repodeps.map (repoAt basePath url)) visits) :
    Leads step (succeeding graph) (fun s _ => attempt s) (Resolves graph reports below dd (left visits))
      (resume reports below (restraintFetchRepodeps dd)) := by
  generalize processed : dd.processedDeps = seen at descent
  generalize paths : dd.repodeps.map (repoAt basePath url) = todo at descent
  induction descent generalizing dd below with
  | nil =>
    rw [List.map_eq_nil_iff] at paths
    simp only [restraintFetchRepodeps, paths]
    apply Leads.mono leads_rpm
    rintro list t ⟨rfl, there⟩
    exact ⟨rfl, there⟩
  | @skip seen path todo visits old later ih =>
    obtain ⟨repo, repos, list, rfl, rest⟩ := List.map_eq_cons_iff.mp paths
    rw [← unpacks.repoPath, ← processed] at old
    apply leads_old list old
    refine Leads.mono (ih ?_ ?_ ?_) fun _ _ => id
    · exact ⟨unpacks.state, unpacks.basePath, unpacks.fetchUrl⟩
    · exact processed
    · simp [list, rest]
  | @enter seen path deeper todo further new later below' ihBelow ihLater =>
    obtain ⟨repo, repos, list, rfl, rest⟩ := List.map_eq_cons_iff.mp paths
    rw [← unpacks.repoPath] at new ihBelow ihLater later ⊢
    rw [← processed] at new ihBelow ihLater
    have went : left (.enter (repoPath dd repo) :: deeper ++ .leave (repoPath dd repo) :: further) =
        left deeper ++ repoPath dd repo :: left further := by
      simp [left, List.filterMap_append]
    have tail : Leads step (succeeding graph) (fun s _ => attempt s)
        (Resolves graph reports below dd (left further))
        (resume reports below (nextRepo
          { dd with processedDeps := repoPath dd repo :: dd.processedDeps })) := by
      refine Leads.mono (ihLater ?_ ?_ ?_) fun _ _ => id
      · exact ⟨unpacks.state, unpacks.basePath, unpacks.fetchUrl⟩
      · rfl
      · simp [list, rest]
    rw [went]
    apply leads_new list new
    cases has : graph (repoPath dd repo) with
    | none =>
      -- nothing is required there
      rw [required, has] at later
      cases later
      apply tail.mono
      rintro list t ⟨rfl, there⟩
      exact ⟨by simp [left, attempted, has], there⟩
    | some metadata =>
      have here : attempted graph dd.softdependencies (repoPath dd repo) =
          mixed (some (repoPath dd repo)) dd.softdependencies metadata := by
        rw [attempted, has, Option.elim_some]
      refine Leads.trans (Leads.mono (ihBelow ?_ ?_ ?_) ?_)
      · exact ⟨unpacks.state, unpacks.basePath, unpacks.fetchUrl⟩
      · rfl
      · simp [required, has]
      · rintro list t ⟨rfl, rfl⟩
        apply tail.mono
        rintro more u ⟨rfl, there⟩
        exact ⟨by simp [here, mixed, owner], there⟩

/-! ## What the commands tell -/

theorem mark_eq_some {package name : Text} : mark package = some name ↔ package = '-' :: name := by
  unfold mark
  split
  · simp
  · rename_i plain
    simpa using fun same => plain name same

private theorem packageCommand_eq (package : Text) : packageCommand package =
    (mark package).elim ("rstrnt-package install ".toList ++ package)
      ("rstrnt-package remove ".toList ++ ·) := by
  unfold packageCommand
  split
  · rw [mark, Option.elim_some]
  · rename_i plain
    cases found : mark package with
    | none => rw [Option.elim_none]
    | some name => exact absurd (mark_eq_some.mp found) (plain name)

private theorem packageCommand_injective : Function.Injective packageCommand := by
  intro package other same
  rw [packageCommand_eq, packageCommand_eq] at same
  cases first : mark package with
  | none =>
    cases second : mark other with
    | none => simpa [first, second] using same
    | some name => simp [first, second] at same
  | some name =>
    cases second : mark other with
    | none => simp [first, second] at same
    | some name' =>
      rw [first, second, Option.elim_some, Option.elim_some] at same
      rw [mark_eq_some.mp first, mark_eq_some.mp second, List.append_cancel_left same]

private theorem soft_injective (node : Option Text) : Function.Injective (soft node) := by
  apply List.map_injective_iff.mpr
  intro package other same
  exact packageCommand_injective (congrArg Attempt.command same)

private theorem node_mixed {node : Option Text} {softdependencies : List Text} {metadata : MetaData} :
    ∀ attempt ∈ mixed node softdependencies metadata, attempt.node = node := by
  simp [mixed, hard, soft, or_imp, forall_and]

/-- Lists that are put together from parts with the names of the parts on them. -/
theorem parts_eq {parts others : Text → List Attempt} {paths : List Text}
    (named : ∀ path, ∀ attempt ∈ parts path, attempt.node = some path)
    (named' : ∀ path, ∀ attempt ∈ others path, attempt.node = some path)
    (same : paths.flatMap parts = paths.flatMap others) : ∀ path ∈ paths, parts path = others path := by
  intro path member
  have filtered {parts : Text → List Attempt}
      (named : ∀ path, ∀ attempt ∈ parts path, attempt.node = some path) :
      (paths.flatMap parts).filter (fun attempt => attempt.node = some path) =
        (List.replicate (paths.count path) (parts path)).flatten := by
    clear same member
    induction paths with
    | nil => rfl
    | cons first paths ih =>
      rw [List.flatMap_cons, List.filter_append, ih]
      by_cases here : first = path
      · subst here
        have all : (parts first).filter (fun attempt => attempt.node = some first) = parts first :=
          List.filter_eq_self.mpr fun attempt held => decide_eq_true (named first attempt held)
        rw [all, List.count_cons_self, List.replicate_succ, List.flatten_cons]
      · have none : (parts first).filter (fun attempt => attempt.node = some path) = [] := by
          apply List.filter_eq_nil_iff.mpr
          intro attempt held
          simp [named first attempt held, here]
        rw [none, List.nil_append, List.count_cons_of_ne here]
  have whole := congrArg (List.filter fun attempt : Attempt => attempt.node = some path) same
  rw [filtered named, filtered named'] at whole
  obtain ⟨count, some⟩ := Nat.exists_eq_succ_of_ne_zero (List.count_pos_iff.mpr member).ne'
  rw [some] at whole
  have lengths : (parts path).length = (others path).length := by
    have total := congrArg List.length whole
    exact Nat.eq_of_mul_eq_mul_left (Nat.succ_pos count) (by simpa using total)
  rw [List.replicate_succ, List.replicate_succ, List.flatten_cons, List.flatten_cons] at whole
  exact (List.append_inj whole lengths).1

/-! ## The whole resolution -/

/-- The paths of the repositories that a task requires. -/
def roots (metadata : MetaData) (basePath : Text) : FetchMethod → List Text
  | .unpack url => metadata.repodeps.map (repoAt basePath url)
  | .installPackage => []

/-- The paths of the repositories that a repository requires. -/
def edges (graph : Text → Option MetaData) (basePath : Text) : FetchMethod → Text → List Text
  | .unpack url => required graph basePath url
  | .installPackage => fun _ => []

/-- The commands when every node has its own: the repositories in the order in which they are
left, and the task at the end, its soft dependencies last. -/
def owned (graph : Text → Option MetaData) (metadata : MetaData) (paths : List Text) : List Attempt :=
  paths.flatMap (fun path => (graph path).elim [] (own (some path))) ++ own none metadata

private theorem leads_install (metadata : MetaData) (basePath : Text) (rhtsCompat : Bool)
    (fetchMethod : FetchMethod)
    (descent : Visits (edges graph basePath fetchMethod) [] (roots metadata basePath fetchMethod)
      visits) :
    Leads step (succeeding graph) (fun s _ => attempt s)
      (fun list t => list =
          (left visits).flatMap (attempted graph metadata.softdependencies) ++ own none metadata ∧
        t = finish [] none [])
      (restraintInstallDependencies metadata basePath rhtsCompat fetchMethod) := by
  cases fetchMethod with
  | installPackage =>
    cases descent
    apply Leads.mono leads_rpm
    rintro list t ⟨rfl, there⟩
    exact ⟨rfl, there⟩
  | unpack url =>
    change Leads _ _ _ _ (resume [] [] (restraintFetchRepodeps _))
    refine Leads.mono (leads_repos ⟨rfl, rfl, rfl⟩ descent) ?_
    rintro list t ⟨rfl, there⟩
    exact ⟨rfl, there⟩

private theorem exists_success (graph : Text → Option MetaData) (s : Resolver) :
    ∃ answer, succeeding graph s answer := by
  cases under : s.pending with
  | none => exact ⟨⟨none, 0, none⟩, by simp [serves, under], rfl, rfl⟩
  | some operation =>
    cases operation with
    | fetch path => exact ⟨⟨none, 0, none⟩, by simp [serves, under], rfl, rfl⟩
    | metadata path => exact ⟨⟨none, 0, graph path⟩, by simp [serves, under], rfl, rfl⟩
    | package callback command => exact ⟨⟨none, 0, none⟩, by simp [serves, under], rfl, rfl⟩

theorem exists_visits {metadata : MetaData} (basePath : Text) (fetchMethod : FetchMethod)
    (finite : Finite graph metadata) :
    ∃ visits, Visits (edges graph basePath fetchMethod) [] (roots metadata basePath fetchMethod)
      visits := by
  cases fetchMethod with
  | installPackage => exact ⟨[], .nil⟩
  | unpack url => exact exists_descent basePath url finite

/-- The commands are those that every node should have, if each repository has the soft
dependencies of the task, and only then. -/
theorem attempted_eq_owned {metadata : MetaData} {paths : List Text} :
    paths.flatMap (attempted graph metadata.softdependencies) ++ own none metadata =
        owned graph metadata paths ↔
      ∀ path ∈ paths, ∀ found ∈ graph path, found.softdependencies = metadata.softdependencies := by
  have each (path : Text) : attempted graph metadata.softdependencies path =
      (graph path).elim [] (own (some path)) ↔
        ∀ found ∈ graph path, found.softdependencies = metadata.softdependencies := by
    rw [attempted]
    cases graph path with
    | none => simp
    | some found =>
      simp only [Option.elim_some, mixed, own, List.append_cancel_left_eq, Option.mem_some_iff,
        forall_eq']
      exact (soft_injective _).eq_iff.trans eq_comm
  constructor
  · intro same path member
    have named (softdependencies : MetaData → List Text) (path : Text) :
        ∀ attempt ∈ (graph path).elim [] (fun found => mixed (some path) (softdependencies found) found),
          attempt.node = some path := by
      cases graph path with
      | none => simp
      | some found => exact node_mixed
    exact (each path).mp (parts_eq (named fun _ => metadata.softdependencies)
      (named MetaData.softdependencies) (List.append_cancel_right same) path member)
  · intro agree
    rw [owned]
    congr 1
    exact List.flatMap_congr fun path member => (each path).mpr (agree path member)

/-- **When everything succeeds, every node has its own soft dependencies attempted if and only
if each repository with metadata that can be reached from the task has those of the task.** -/
theorem soft_own (graph : Text → Option MetaData) (metadata : MetaData) (basePath : Text)
    (rhtsCompat : Bool) (fetchMethod : FetchMethod) (finite : Finite graph metadata) :
    ∃ visits, Visits (edges graph basePath fetchMethod) [] (roots metadata basePath fetchMethod)
        visits ∧
      (∃ answers s, run (only step (succeeding graph))
        (restraintInstallDependencies metadata basePath rhtsCompat fetchMethod) answers = some s ∧
        s.pending = none) ∧
      ((∀ answers s, run (only step (succeeding graph))
          (restraintInstallDependencies metadata basePath rhtsCompat fetchMethod) answers = some s →
          s.pending = none →
          attempts graph (restraintInstallDependencies metadata basePath rhtsCompat fetchMethod)
            answers = owned graph metadata (left visits)) ↔
        ∀ path, Reaches (edges graph basePath fetchMethod) (roots metadata basePath fetchMethod) path →
          ∀ found ∈ graph path, found.softdependencies = metadata.softdependencies) := by
  obtain ⟨visits, descent⟩ := exists_visits basePath fetchMethod finite
  have leads := leads_install metadata basePath rhtsCompat fetchMethod descent
  obtain ⟨answers, s, ran, together, rfl⟩ := leads.exists (exists_success graph)
  refine ⟨visits, descent, ⟨answers, _, ran, rfl⟩, ?_⟩
  have condition : (∀ path, Reaches (edges graph basePath fetchMethod)
        (roots metadata basePath fetchMethod) path →
        ∀ found ∈ graph path, found.softdependencies = metadata.softdependencies) ↔
      ∀ path ∈ left visits, ∀ found ∈ graph path,
        found.softdependencies = metadata.softdependencies := by
    apply forall_congr'
    intro path
    rw [descent.left_perm.mem_iff, descent.mem_entered]
  rw [condition, ← attempted_eq_owned]
  constructor
  · intro owns
    exact together.symm.trans (owns answers _ ran rfl)
  · intro same answers s ran ended
    have stuck : ∀ answer, step s answer = none := fun answer => by simp [step, ended]
    obtain ⟨commands, -⟩ := leads.complete (exists_success graph)
      (by rintro list t ⟨-, rfl⟩ answer; rfl) ran stuck
    exact commands.trans same

/-- A repository that requires itself and has the soft dependencies of the task. -/
theorem soft_own_same : ∃ visits,
    Visits (required (fun _ => some selfRequired) "/mnt/tests".toList tests) []
      [repoAt "/mnt/tests".toList tests "common".toList] visits ∧
    ∀ answers s, run (only step (succeeding fun _ => some selfRequired))
        (restraintInstallDependencies selfRequired "/mnt/tests".toList false (.unpack tests)) answers =
          some s →
      s.pending = none →
      attempts (fun _ => some selfRequired)
        (restraintInstallDependencies selfRequired "/mnt/tests".toList false (.unpack tests)) answers =
          owned (fun _ => some selfRequired) selfRequired (left visits) := by
  have finite : Finite (fun _ => some selfRequired) selfRequired :=
    ⟨{"common".toList}, by simp [selfRequired], by simp [selfRequired]⟩
  obtain ⟨visits, descent, -, owns⟩ :=
    soft_own (fun _ => some selfRequired) selfRequired "/mnt/tests".toList false (.unpack tests) finite
  exact ⟨visits, descent, owns.mpr (by simp)⟩

/-- A task with a soft dependency that requires a repository without any. -/
def softTask : MetaData := ⟨[], ["perl".toList], ["common".toList]⟩

def plainRepo (_ : Text) : Option MetaData := some ⟨[], [], []⟩

/-- The soft dependency of the task is attempted for the repository, too. -/
theorem soft_twice : Finite plainRepo softTask ∧
    (run (only step (succeeding plainRepo))
      (restraintInstallDependencies softTask "/mnt/tests".toList false (.unpack tests))
      [⟨none, 0, none⟩, ⟨none, 0, plainRepo []⟩, ⟨none, 0, none⟩, ⟨none, 0, none⟩]).map
        Resolver.reports = some [none] ∧
    attempts plainRepo
      (restraintInstallDependencies softTask "/mnt/tests".toList false (.unpack tests))
      [⟨none, 0, none⟩, ⟨none, 0, plainRepo []⟩, ⟨none, 0, none⟩, ⟨none, 0, none⟩] =
        [⟨some (repoAt "/mnt/tests".toList tests "common".toList), .soft,
            "rstrnt-package install perl".toList⟩,
          ⟨none, .soft, "rstrnt-package install perl".toList⟩] := by
  refine ⟨⟨{"common".toList}, by simp [softTask], ?_⟩, by decide +kernel, by decide +kernel⟩
  intro path found has repo member
  cases has
  cases member

end Restraint.SoftDependencies
