import Restraint.Dependency
import Restraint.Lib.Leads

/-! The packages of a task that requires no repositories. The commands are put together from
the exit codes: a list to remove, a list to install, one package at a time after a list has
failed, and the soft dependencies. -/
namespace Restraint.PackagePhase
open CString Transition Dependency

/-- A package command that was run, and what it exited with. -/
structure Ran where
  command : Text
  exit : Int
  deriving DecidableEq

/-- The package command that is over with this answer. -/
def ran (s : Resolver) (answer : Answer) : Option Ran :=
  match s.pending with
  | some (.package _ command) => some ⟨command, answer.pidResult⟩
  | _ => none

/-- The commands of a run, in order. -/
def commands (s : Resolver) (answers : List Answer) : List Ran := trace step ran s answers

/-- Every command exited with 0. -/
def succeeded (runs : List Ran) : Prop := ∀ run ∈ runs, run.exit = 0

instance (runs : List Ran) : Decidable (succeeded runs) :=
  inferInstanceAs (Decidable (∀ run ∈ runs, run.exit = 0))

/-- The name of a package that is marked for removal. -/
def mark : Text → Option Text
  | '-' :: name => some name
  | _ => none

/-- The names that are marked for removal, without the mark. -/
def marked (dependencies : List Text) : List Text := dependencies.filterMap mark

/-- The names that are not marked. -/
def unmarked (dependencies : List Text) : List Text :=
  dependencies.filter fun package => (mark package).isNone

/-- The command for a list of packages; there is none for the empty list. -/
def batchCommand (command : String) (names : List Text) : List Text :=
  if names = [] then [] else [command.toList ++ names.flatMap (' ' :: ·)]

/-- What the commands are and what `finish_cb` gets. The packages are attempted one at a time
only with rhts compatibility, in which no exit code is an error. -/
structure Phases (rhtsCompat : Bool) (metadata : MetaData) (error : Option Error)
    (removed installed singles soft : List Ran) : Prop where
  removes : removed.map Ran.command = batchCommand "rstrnt-package remove" (marked metadata.dependencies)
  installs : installed.map Ran.command =
    if succeeded removed then batchCommand "rstrnt-package install" (unmarked metadata.dependencies)
    else []
  singly : singles.map Ran.command =
    if rhtsCompat ∧ ¬succeeded (removed ++ installed) then metadata.dependencies.map packageCommand
    else []
  softly : soft.map Ran.command =
    if rhtsCompat ∨ succeeded (removed ++ installed) then
      metadata.softdependencies.map packageCommand
    else []
  reports : error = none ↔ rhtsCompat ∨ succeeded (removed ++ installed)

variable {reports : List (Option Error)} {below : List DependencyData} {dd : DependencyData}
  {P : List Ran → Resolver → Prop} {names dependencies : List Text} {answer : Answer}

/-! ## The lists of packages -/

theorem mark_eq_none {package : Text} (plain : ∀ name, package ≠ '-' :: name) :
    mark package = none := by
  unfold mark
  split
  · rename_i name
    exact absurd rfl (plain name)
  · rfl

/-- A list of names, each after a space, is that of the names that are chosen. -/
theorem flatMap_names {written : Text → Text} {choose : Text → Option Text}
    (each : ∀ package, written package = ((choose package).map (' ' :: ·)).getD []) :
    dependencies.flatMap written = (dependencies.filterMap choose).flatMap (' ' :: ·) := by
  induction dependencies with
  | nil => rfl
  | cons package packages ih =>
    rw [List.flatMap_cons, ih, each, List.filterMap_cons]
    cases choose package <;> rfl

theorem removeRpms_eq : removeRpms dependencies = (marked dependencies).flatMap (' ' :: ·) := by
  refine flatMap_names fun package => ?_
  split
  · rfl
  · rename_i plain
    rw [mark_eq_none plain]
    rfl

theorem installRpms_eq : installRpms dependencies = (unmarked dependencies).flatMap (' ' :: ·) := by
  rw [unmarked, ← List.filterMap_eq_filter]
  refine flatMap_names fun package => ?_
  split
  · rfl
  · rename_i plain
    rw [Option.guard, mark_eq_none plain]
    rfl

private theorem names_eq_nil : names.flatMap (' ' :: ·) = [] ↔ names = [] := by
  cases names <;> simp

theorem batchCommand_of_eq_nil {command : String} (none : names.flatMap (' ' :: ·) = []) :
    batchCommand command names = [] :=
  if_pos (names_eq_nil.mp none)

theorem batchCommand_of_ne_nil {command : String} {text : Text}
    (same : names.flatMap (' ' :: ·) = text) (some : text ≠ []) :
    batchCommand command names = [command.toList ++ text] := by
  subst same
  exact if_neg fun none => some (names_eq_nil.mpr none)

private theorem succeeded_append {runs more : List Ran} :
    succeeded (runs ++ more) ↔ succeeded runs ∧ succeeded more := List.forall_mem_append

private theorem succeeded_nil : succeeded [] := List.forall_mem_nil _

private theorem succeeded_singleton {run : Ran} :
    succeeded [run] ↔ run.exit = 0 := List.forall_mem_singleton

/-! ## One command after the other -/

/-- Nothing goes wrong but the exit codes. -/
abbrev clean (_ : Resolver) (answer : Answer) : Prop := answer.error = none

/-- A command was started. -/
theorem leads_command {callback : Callback} {command : Text}
    (after : ∀ answer, answer.error = none →
      Leads step clean ran (fun list => P (⟨command, answer.pidResult⟩ :: list))
        (complete reports dd below answer (.package callback command))) :
    Leads step clean ran P (resume reports below (.started (.package callback command) dd)) := by
  refine .next (fun _ _ => ⟨_, rfl⟩) ?_
  intro answer t permitted stepped
  cases stepped
  exact after answer permitted

theorem leads_soft (state : dd.state = .softRpm) : Leads step clean ran
    (fun list t => list.map Ran.command = dd.softdependencies.map packageCommand ∧
      t = finish reports none below)
    (resume reports below (dependencySoftRpm dd)) := by
  generalize left : dd.softdependencies = packages
  induction packages generalizing dd with
  | nil =>
    simp only [dependencySoftRpm, left]
    exact .here ⟨rfl, rfl⟩
  | cons package packages ih =>
    simp only [dependencySoftRpm, left]
    apply leads_command
    intro answer permitted
    simp only [complete, packageDone, permitted, dependencyHandler, state]
    refine Leads.mono (ih ?_ ?_) ?_
    · rfl
    · rw [left, List.tail_cons]
    · rintro list t ⟨same, there⟩
      exact ⟨by rw [List.map_cons, List.map_cons, same], there⟩

private theorem leads_single (compat : dd.ignoreFailedInstall = true) (state : dd.state = .singleRpm) :
    Leads step clean ran
      (fun list t => ∃ singles soft, list = singles ++ soft ∧
        singles.map Ran.command = dd.dependencies.map packageCommand ∧
        soft.map Ran.command = dd.softdependencies.map packageCommand ∧ t = finish reports none below)
      (resume reports below (dependencySingleRpm dd)) := by
  generalize left : dd.dependencies = packages
  induction packages generalizing dd with
  | nil =>
    simp only [dependencySingleRpm, left]
    apply (leads_soft rfl).mono
    rintro list t ⟨same, there⟩
    exact ⟨[], list, rfl, rfl, same, there⟩
  | cons package packages ih =>
    simp only [dependencySingleRpm, left]
    apply leads_command
    intro answer permitted
    simp only [complete, packageDone, dependencyProcessErrors, permitted, compat, Bool.true_eq_false,
      false_and, if_false, dependencyHandler, state]
    refine Leads.mono (ih ?_ ?_ ?_) ?_
    · rfl
    · rfl
    · rw [left, List.tail_cons]
    · rintro list t ⟨singles, soft, rfl, same, others, there⟩
      exact ⟨_ :: singles, soft, rfl, by rw [List.map_cons, List.map_cons, same], others, there⟩

/-! ## The lists -/

/-- The record of a task. -/
structure Holds (rhtsCompat : Bool) (metadata : MetaData) (dd : DependencyData) : Prop where
  dependencies : dd.dependencies = metadata.dependencies
  softdependencies : dd.softdependencies = metadata.softdependencies
  ignoreFailedInstall : dd.ignoreFailedInstall = rhtsCompat

/-- What comes after the list to remove. -/
def Rest (rhtsCompat : Bool) (metadata : MetaData) (reports : List (Option Error))
    (below : List DependencyData) (removed list : List Ran) (t : Resolver) : Prop :=
  ∃ error installed singles soft, list = installed ++ singles ++ soft ∧
    Phases rhtsCompat metadata error removed installed singles soft ∧ t = finish reports error below

variable {rhtsCompat : Bool} {metadata : MetaData} {removed : List Ran}

/-- The lists that were to be run have succeeded. -/
theorem leads_softOnly (installed : List Ran)
    (softdependencies : dd.softdependencies = metadata.softdependencies) (state : dd.state = .softRpm)
    (removes : removed.map Ran.command =
      batchCommand "rstrnt-package remove" (marked metadata.dependencies))
    (installs : installed.map Ran.command =
      batchCommand "rstrnt-package install" (unmarked metadata.dependencies))
    (ok : succeeded (removed ++ installed)) :
    Leads step clean ran
      (fun list => Rest rhtsCompat metadata reports below removed (installed ++ list))
      (resume reports below (dependencySoftRpm dd)) := by
  apply (leads_soft state).mono
  rintro list t ⟨commands, there⟩
  refine ⟨none, installed, [], list, by rw [List.append_nil], ⟨removes, ?_, ?_, ?_, ?_⟩, there⟩
  · rw [if_pos (succeeded_append.mp ok).1, installs]
  · rw [if_neg fun both => both.2 ok, List.map_nil]
  · rw [if_pos (.inr ok), commands, softdependencies]
  · exact iff_of_true rfl (.inr ok)

/-- A list has failed. With rhts compatibility the packages are attempted one at a time. -/
theorem leads_failed (installed : List Ran) {callback : Callback} {command : Text}
    (list : callback = .batchRemove ∨ callback = .batchInstall)
    (holds : Holds rhtsCompat metadata dd) (permitted : answer.error = none)
    (nonzero : answer.pidResult ≠ 0)
    (removes : removed.map Ran.command =
      batchCommand "rstrnt-package remove" (marked metadata.dependencies))
    (installs : installed.map Ran.command =
      if succeeded removed then batchCommand "rstrnt-package install" (unmarked metadata.dependencies)
      else [])
    (failed : ¬succeeded (removed ++ installed)) :
    Leads step clean ran
      (fun list => Rest rhtsCompat metadata reports below removed (installed ++ list))
      (complete reports dd below answer (.package callback command)) := by
  cases rhtsCompat with
  | true =>
    have done : packageDone dd answer callback = .inr (fallBack dd) := by
      rcases list with rfl | rfl <;>
        simp [packageDone, dependencyProcessErrors, permitted, nonzero, holds.ignoreFailedInstall]
    simp only [complete, done]
    refine Leads.mono (leads_single ?_ ?_) ?_
    · exact holds.ignoreFailedInstall
    · rfl
    · rintro list t ⟨singles, soft, rfl, same, others, there⟩
      refine ⟨none, installed, singles, soft, by rw [List.append_assoc], ⟨removes, installs, ?_, ?_, ?_⟩,
        there⟩
      · rw [if_pos ⟨rfl, failed⟩, same, ← holds.dependencies]
      · rw [if_pos (.inl rfl), others, ← holds.softdependencies]
      · exact iff_of_true rfl (.inl rfl)
  | false =>
    have done : packageDone dd answer callback = .inl (.returnCode answer.pidResult) := by
      rcases list with rfl | rfl <;>
        simp [packageDone, dependencyProcessErrors, permitted, nonzero, holds.ignoreFailedInstall]
    simp only [complete, done]
    refine .here ⟨some (.returnCode answer.pidResult), installed, [], [], by simp,
      ⟨removes, installs, ?_, ?_, ?_⟩, rfl⟩
    · simp
    · simp [failed]
    · simp [failed]

theorem leads_batchInstall (holds : Holds rhtsCompat metadata dd)
    (list : dd.installRpms.getD [] = installRpms metadata.dependencies)
    (removes : removed.map Ran.command =
      batchCommand "rstrnt-package remove" (marked metadata.dependencies))
    (ok : succeeded removed) :
    Leads step clean ran (Rest rhtsCompat metadata reports below removed)
      (resume reports below (dependencyBatchInstall dd)) := by
  rw [installRpms_eq] at list
  have softOnly {record : DependencyData}
      (softdependencies : record.softdependencies = metadata.softdependencies)
      (state : record.state = .softRpm) (empty : dd.installRpms.getD [] = []) :
      Leads step clean ran (Rest rhtsCompat metadata reports below removed)
        (resume reports below (dependencySoftRpm record)) := by
    refine leads_softOnly [] softdependencies state removes ?_ (by rwa [List.append_nil])
    rw [batchCommand_of_eq_nil (list.symm.trans empty), List.map_nil]
  unfold dependencyBatchInstall
  split
  · rename_i empty
    exact softOnly holds.softdependencies rfl (by rw [empty, Option.getD_some])
  · rename_i text some held
    rw [held, Option.getD_some] at list
    apply leads_command
    intro answer permitted
    have installs : [Ran.mk ("rstrnt-package install".toList ++ text) answer.pidResult].map Ran.command =
        batchCommand "rstrnt-package install" (unmarked metadata.dependencies) :=
      (batchCommand_of_ne_nil list.symm some).symm
    by_cases zero : answer.pidResult = 0
    · have both : succeeded (removed ++ [⟨"rstrnt-package install".toList ++ text, answer.pidResult⟩]) :=
        succeeded_append.mpr ⟨ok, succeeded_singleton.mpr zero⟩
      have done : packageDone dd answer .batchInstall = .inr (dependencySoftRpm { dd with
          installRpms := none
          dependencies := []
          state := .softRpm }) := by
        simp [packageDone, dependencyProcessErrors, permitted, zero, dependencyHandler]
      simp only [complete, done]
      refine leads_softOnly _ ?_ ?_ removes installs both
      · exact holds.softdependencies
      · rfl
    · refine leads_failed _ (.inr rfl) holds permitted zero removes (by rw [if_pos ok, installs]) ?_
      exact fun both => zero (succeeded_singleton.mp (succeeded_append.mp both).2)
  · rename_i none
    exact softOnly holds.softdependencies rfl (by rw [none, Option.getD_none])

/-- A list to remove was run, or there was none. -/
theorem leads_batchRpms (holds : Holds rhtsCompat metadata dd)
    (removal : dd.removeRpms = some (removeRpms metadata.dependencies))
    (list : dd.installRpms = some (installRpms metadata.dependencies)) :
    Leads step clean ran
      (fun list t => ∃ removed rest, list = removed ++ rest ∧
        Rest rhtsCompat metadata reports below removed rest t)
      (resume reports below (dependencyBatchRpms dd)) := by
  have onward : Holds rhtsCompat metadata { dd with removeRpms := none } :=
    ⟨holds.dependencies, holds.softdependencies, holds.ignoreFailedInstall⟩
  rw [removeRpms_eq] at removal
  unfold dependencyBatchRpms
  split
  · rename_i empty
    have removes : ([] : List Ran).map Ran.command =
        batchCommand "rstrnt-package remove" (marked metadata.dependencies) :=
      (batchCommand_of_eq_nil (Option.some.inj (removal.symm.trans empty))).symm
    apply (leads_batchInstall onward (by rw [list, Option.getD_some]) removes succeeded_nil).mono
    exact fun list t rest => ⟨[], list, rfl, rest⟩
  · rename_i text some held
    have same := Option.some.inj (removal.symm.trans held)
    apply leads_command
    intro answer permitted
    have removes : [Ran.mk ("rstrnt-package remove".toList ++ text) answer.pidResult].map Ran.command =
        batchCommand "rstrnt-package remove" (marked metadata.dependencies) :=
      (batchCommand_of_ne_nil same some).symm
    by_cases zero : answer.pidResult = 0
    · have ok : succeeded [⟨"rstrnt-package remove".toList ++ text, answer.pidResult⟩] :=
        succeeded_singleton.mpr zero
      have done : packageDone dd answer .batchRemove =
          .inr (dependencyBatchInstall { dd with removeRpms := none }) := by
        simp [packageDone, dependencyProcessErrors, permitted, zero, dependencyBatchRpms]
      simp only [complete, done]
      apply (leads_batchInstall onward (by rw [list, Option.getD_some]) removes ok).mono
      exact fun list t rest => ⟨_, list, rfl, rest⟩
    · have failed : ¬succeeded
          ([⟨"rstrnt-package remove".toList ++ text, answer.pidResult⟩] ++ []) :=
        fun both => zero (succeeded_singleton.mp (succeeded_append.mp both).1)
      refine (leads_failed [] (.inl rfl) holds permitted zero removes ?_ failed).mono ?_
      · rw [if_neg fun ok => zero (succeeded_singleton.mp ok), List.map_nil]
      · exact fun list t rest => ⟨_, list, rfl, rest⟩
  · rename_i none
    rw [removal] at none
    cases none

theorem leads_rpm (holds : Holds rhtsCompat metadata dd) :
    Leads step clean ran
      (fun list t => ∃ removed rest, list = removed ++ rest ∧
        Rest rhtsCompat metadata reports below removed rest t)
      (resume reports below (dependencyRpm dd)) := by
  unfold dependencyRpm
  split
  · rename_i none
    have none : metadata.dependencies = [] := holds.dependencies.symm.trans none
    have removes : ([] : List Ran).map Ran.command =
        batchCommand "rstrnt-package remove" (marked metadata.dependencies) := by
      simp [none, marked, batchCommand]
    have installs : ([] : List Ran).map Ran.command =
        batchCommand "rstrnt-package install" (unmarked metadata.dependencies) := by
      simp [none, unmarked, batchCommand]
    have softly : Leads step clean ran (Rest rhtsCompat metadata reports below [])
        (resume reports below (dependencySoftRpm { dd with state := .softRpm })) :=
      leads_softOnly [] holds.softdependencies rfl removes installs succeeded_nil
    exact softly.mono fun list t rest => ⟨[], list, rfl, rest⟩
  · rw [holds.dependencies]
    refine leads_batchRpms ?_ rfl rfl
    exact ⟨rfl, holds.softdependencies, holds.ignoreFailedInstall⟩

/-- **The packages of a task that requires no repositories.** Whatever the commands exit with,
the resolution ends, and the commands and the error are those of the phases. -/
theorem package_phases (metadata : MetaData) (basePath : Text) (rhtsCompat : Bool)
    (fetchMethod : FetchMethod) (none : metadata.repodeps = []) (answers : Nat → Answer)
    (clean : ∀ n, (answers n).error = Option.none) :
    ∃ n s error removed installed singles soft,
      run step (restraintInstallDependencies metadata basePath rhtsCompat fetchMethod)
        (first answers n) = some s ∧
      s.pending = Option.none ∧ s.reports = [error] ∧
      commands (restraintInstallDependencies metadata basePath rhtsCompat fetchMethod)
        (first answers n) = removed ++ installed ++ singles ++ soft ∧
      Phases rhtsCompat metadata error removed installed singles soft := by
  have starts : ∃ dd, Holds rhtsCompat metadata dd ∧
      restraintInstallDependencies metadata basePath rhtsCompat fetchMethod =
        resume [] [] (dependencyRpm dd) := by
    obtain ⟨dependencies, softdependencies, repodeps⟩ := metadata
    cases none
    cases fetchMethod with
    | installPackage => exact ⟨_, ⟨rfl, rfl, rfl⟩, rfl⟩
    | unpack url => exact ⟨_, ⟨rfl, rfl, rfl⟩, rfl⟩
  obtain ⟨dd, holds, starts⟩ := starts
  rw [starts]
  obtain ⟨n, t, reached, removed, rest, together, error, installed, singles, soft, rfl, phases, rfl⟩ :=
    (leads_rpm holds).reached answers fun _ => clean
  refine ⟨n, _, error, removed, installed, singles, soft, reached, rfl, rfl, ?_, phases⟩
  rw [commands, together, List.append_assoc, List.append_assoc, List.append_assoc]

/-- A package to install, one to remove and a soft dependency. -/
def editors : MetaData := ⟨["gcc".toList, "-vim".toList], ["perl".toList], []⟩

/-- The second command fails. -/
def secondFails (n : Nat) : Answer := ⟨none, if n = 1 then 1 else 0, none⟩

/-- With rhts compatibility a list that fails is attempted again one package at a time. -/
theorem package_phases_again : ∃ n s error removed installed singles soft,
    run step (restraintInstallDependencies editors "/mnt/tests".toList true .installPackage)
      (first secondFails n) = some s ∧
    s.pending = none ∧ s.reports = [error] ∧
    commands (restraintInstallDependencies editors "/mnt/tests".toList true .installPackage)
      (first secondFails n) = removed ++ installed ++ singles ++ soft ∧
    Phases true editors error removed installed singles soft :=
  package_phases editors _ true .installPackage rfl secondFails fun _ => rfl

example : (commands (restraintInstallDependencies editors "/mnt/tests".toList true .installPackage)
    (first secondFails 5)).map Ran.command =
      ["rstrnt-package remove vim".toList, "rstrnt-package install gcc".toList,
        "rstrnt-package install gcc".toList, "rstrnt-package remove vim".toList,
        "rstrnt-package install perl".toList] := by decide +kernel

end Restraint.PackagePhase
