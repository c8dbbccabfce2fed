import Restraint.Dependency
import Restraint.Lib.Inevitable
import Mathlib.Data.Finset.Card
import Mathlib.Data.Finset.Image

/-! The resolution of dependencies ends and reports once. A record is done with
after finitely many operations, by induction on the repositories it has not seen:
the record of a nested resolution starts with one more that is processed. -/
namespace Restraint.Dependency
open CString Transition

/-- Only these repositories are mentioned in the metadata of repositories. -/
def Mentions (names : Finset Text) (answer : Answer) : Prop :=
  ∀ metadata ∈ answer.metadata, ∀ repo ∈ metadata.repodeps, repo ∈ names

/-- The commands that a callback stands for and that are given a whole list of packages. -/
def batch : Callback → List Callback
  | .batchRemove => [.batchRemove]
  | .batchInstall => [.batchInstall]
  | .single | .soft => []

/-- A property of a record that installs its packages. It holds when the record is done with,
and while a command is under way if it holds of all that the callback goes on with. The list
has the commands with a whole list of packages that may still come. -/
structure Installs (reports : List (Option Error)) (below : List DependencyData)
    (Good : List Callback → Resolver → Prop) : Prop where
  finished : ∀ {commands}, Good commands (finish reports none below)
  fewer : ∀ {command commands s}, Good commands s → Good (command :: commands) s
  package : ∀ callback commands {command dd},
    (∀ answer control, packageDone dd answer callback = .inr control →
      Good commands (resume reports below control)) →
    Good (batch callback ++ commands) (resume reports below (.started (.package callback command) dd))

variable {names : Finset Text} {reports : List (Option Error)} {below : List DependencyData}
  {dd : DependencyData} {Good : List Callback → Resolver → Prop} {commands : List Callback}

/-- A callback that takes one package after the other from a list. -/
structure Serial (callback : Callback) (state : DependencyState) (remaining : DependencyData → List Text)
    (next : DependencyData → DependencyData) : Prop where
  alone : batch callback = []
  starts : ∀ {dd package packages}, dd.state = state → remaining dd = package :: packages →
    dependencyHandler dd = .started (.package callback (packageCommand package)) dd
  goesOn : ∀ {dd answer control}, packageDone dd answer callback = .inr control →
    control = dependencyHandler (next dd)
  tail : ∀ dd, remaining (next dd) = (remaining dd).tail
  keeps : ∀ dd, (next dd).state = dd.state

private theorem serial_soft : Serial .soft .softRpm DependencyData.softdependencies fun dd =>
    { dd with softdependencies := dd.softdependencies.tail } where
  alone := rfl
  starts state left := by simp only [dependencyHandler, state, dependencySoftRpm, left]
  goesOn done := by
    simp only [packageDone] at done
    split at done
    · cases done
    · exact (Sum.inr.inj done).symm
  tail _ := rfl
  keeps _ := rfl

private theorem serial_single : Serial .single .singleRpm DependencyData.dependencies fun dd =>
    { dd with dependencies := dd.dependencies.tail } where
  alone := rfl
  starts state left := by simp only [dependencyHandler, state, dependencySingleRpm, left]
  goesOn done := by
    simp only [packageDone] at done
    split at done
    · cases done
    · exact (Sum.inr.inj done).symm
  tail _ := rfl
  keeps _ := rfl

/-- The packages of a list are done with, by induction on those that are left. -/
theorem Installs.serial {callback : Callback} {state : DependencyState}
    {remaining : DependencyData → List Text} {next : DependencyData → DependencyData}
    (installs : Installs reports below Good) (serial : Serial callback state remaining next)
    (ends : ∀ dd, dd.state = state → remaining dd = [] →
      Good commands (resume reports below (dependencyHandler dd)))
    (here : dd.state = state) : Good commands (resume reports below (dependencyHandler dd)) := by
  generalize left : remaining dd = packages
  induction packages generalizing dd with
  | nil => exact ends dd here left
  | cons package packages ih =>
    rw [serial.starts here left, ← List.nil_append commands, ← serial.alone]
    refine installs.package callback commands fun answer control done => ?_
    rw [serial.goesOn done]
    exact ih ((serial.keeps dd).trans here) (by rw [serial.tail, left, List.tail_cons])

theorem Installs.soft (installs : Installs reports below Good) (state : dd.state = .softRpm) :
    Good commands (resume reports below (dependencySoftRpm dd)) := by
  have handled : dependencyHandler dd = dependencySoftRpm dd := by rw [dependencyHandler, state]
  rw [← handled]
  refine installs.serial serial_soft (fun dd here left => ?_) state
  simp only [dependencyHandler, here, dependencySoftRpm, left]
  exact installs.finished

theorem Installs.single (installs : Installs reports below Good) (state : dd.state = .singleRpm) :
    Good commands (resume reports below (dependencySingleRpm dd)) := by
  have handled : dependencyHandler dd = dependencySingleRpm dd := by rw [dependencyHandler, state]
  rw [← handled]
  refine installs.serial serial_single (fun dd here left => ?_) state
  simp only [dependencyHandler, here, dependencySingleRpm, left]
  exact installs.soft rfl

theorem Installs.fallBack (installs : Installs reports below Good) :
    Good commands (resume reports below (fallBack dd)) :=
  installs.single rfl

theorem Installs.batchInstall (installs : Installs reports below Good) :
    Good [.batchInstall] (resume reports below (dependencyBatchInstall dd)) := by
  unfold dependencyBatchInstall
  split
  · exact installs.soft rfl
  · apply installs.package .batchInstall []
    intro answer control done
    simp only [packageDone] at done
    split at done
    · cases done
    · split at done
      · cases done
        exact installs.fallBack
      · cases done
        exact installs.soft rfl
  · exact installs.soft rfl

theorem Installs.batchRpms (installs : Installs reports below Good) :
    Good [.batchRemove, .batchInstall] (resume reports below (dependencyBatchRpms dd)) := by
  unfold dependencyBatchRpms
  split
  · exact installs.fewer installs.batchInstall
  · apply installs.package .batchRemove [.batchInstall]
    intro answer control done
    simp only [packageDone] at done
    split at done
    · cases done
    · split at done
      · cases done
        exact installs.fallBack
      · cases done
        exact installs.batchInstall
  · exact installs.fewer installs.batchInstall

/-- The packages of a record: a list to remove, then one to install, at most. -/
theorem Installs.rpm (installs : Installs reports below Good) :
    Good [.batchRemove, .batchInstall] (resume reports below (dependencyRpm dd)) := by
  unfold dependencyRpm
  split
  · exact installs.soft rfl
  · exact installs.batchRpms

/-- Sooner or later the finish callback of the record above these is called. -/
def Ends (names : Finset Text) (reports : List (Option Error)) (below : List DependencyData) :
    Resolver → Prop :=
  Inevitable step (Mentions names) fun t => ∃ error, t = finish reports error below

private theorem ends_finish (error : Option Error) :
    Ends names reports below (finish reports error below) :=
  .here ⟨error, rfl⟩

private theorem ends_finished : Ends names reports below (resume reports below .finished) :=
  ends_finish none

/-- A record ends if it does after every answer to the operation under way. -/
theorem ends_started {operation : Operation}
    (after : ∀ answer, Mentions names answer →
      Ends names reports below (complete reports dd below answer operation)) :
    Ends names reports below (resume reports below (.started operation dd)) := by
  refine .next (fun answer _ => ⟨_, rfl⟩) ?_
  intro answer t mentions stepped
  cases stepped
  exact after answer mentions

private theorem ends_package {callback : Callback} {command : Text}
    (after : ∀ answer control, packageDone dd answer callback = .inr control →
      Ends names reports below (resume reports below control)) :
    Ends names reports below (resume reports below (.started (.package callback command) dd)) := by
  apply ends_started
  intro answer _
  simp only [complete]
  split
  · exact ends_finish _
  · exact after answer _ ‹_›

private theorem ends_rpm : Ends names reports below (resume reports below (dependencyRpm dd)) := by
  have installs : Installs reports below fun _ => Ends names reports below :=
    ⟨ends_finished, id, fun _ _ => ends_package⟩
  exact installs.rpm

/-- The paths of repositories that a record has not processed. -/
def unseen (names : Finset Text) (dd : DependencyData) : Finset Text :=
  names.image (repoPath dd) \ dd.processedDeps.toFinset

/-- A path that is processed now was not seen before. -/
theorem unseen_processed {repo : Text} (mentioned : repo ∈ names)
    (fresh : repoPath dd repo ∉ dd.processedDeps) :
    (unseen names { dd with processedDeps := repoPath dd repo :: dd.processedDeps }).card <
      (unseen names dd).card := by
  apply Finset.card_lt_card
  rw [Finset.ssubset_iff_of_subset]
  · refine ⟨repoPath dd repo, ?_, ?_⟩
    · simpa [unseen] using ⟨⟨repo, mentioned, rfl⟩, fresh⟩
    · simp [unseen]
  · intro path member
    simp only [unseen, Finset.mem_sdiff, List.mem_toFinset, List.mem_cons, not_or] at member ⊢
    exact ⟨member.1, member.2.2⟩

/-- A record that the nested one reports to goes on or ends as well. -/
theorem ends_nested {s : Resolver}
    (inner : Ends names reports (dd :: below) s)
    (outer : Ends names reports below (resume reports below (nextRepo dd))) :
    Ends names reports below s := by
  apply inner.trans
  rintro t ⟨error, rfl⟩
  cases error with
  | some error => exact ends_finish (some error)
  | none => exact outer

private theorem ends_repos (state : dd.state = .repo) (mentioned : ∀ repo ∈ dd.repodeps, repo ∈ names) :
    Ends names reports below (resume reports below (restraintFetchRepodeps dd)) := by
  -- the repositories not seen yet come first, then the list of this record
  generalize bound : (unseen names dd).card = u
  generalize list : dd.repodeps = repos
  induction u using Nat.strong_induction_on generalizing dd repos below with
  | _ u fewer =>
  induction repos generalizing dd with
  | nil =>
    simp only [restraintFetchRepodeps, list]
    exact ends_rpm
  | cons repo repos shorter =>
    obtain ⟨here, later⟩ := List.forall_mem_cons.mp (list ▸ mentioned)
    have tail : dd.repodeps.tail = repos := by rw [list, List.tail_cons]
    rw [← tail] at later
    simp only [restraintFetchRepodeps, list]
    apply ends_started
    intro answer _
    simp only [complete]
    split
    · exact ends_finish _
    · split
      case isTrue seen =>
        exact shorter state later bound tail
      case isFalse fresh =>
        have less := bound ▸ unseen_processed here fresh
        have onward : Ends names reports below (resume reports below (nextRepo
            { dd with processedDeps := repoPath dd repo :: dd.processedDeps })) :=
          fewer _ less state later rfl _ rfl
        apply ends_started
        intro answer mentions
        simp only [complete]
        split
        · exact ends_finish _
        · rename_i metadata _ read
          exact ends_nested (fewer _ less state (mentions metadata read) rfl _ rfl) onward
        · exact onward

private theorem ends_handler (state : dd.state = .repo ∨ dd.state = .rpm)
    (mentioned : ∀ repo ∈ dd.repodeps, repo ∈ names) :
    Ends names reports below (resume reports below (dependencyHandler dd)) := by
  rcases state with state | state
  · simp only [dependencyHandler, state]
    exact ends_repos state mentioned
  · simp only [dependencyHandler, state]
    exact ends_rpm

/-- The task's callback is called when no record is left, and not before. -/
structure Open (s : Resolver) : Prop where
  reports : s.reports = [] ∧ s.pending.isSome ∨
    s.stack = [] ∧ s.pending = none ∧ s.reports.length = 1

private theorem finish_open (error : Option Error) : Open (finish [] error below) := by
  induction below generalizing error with
  | nil => exact ⟨.inr ⟨rfl, rfl, rfl⟩⟩
  | cons parent below ih =>
    cases error with
    | some error => exact ih (some error)
    | none =>
      simp only [finish]
      split
      · exact ⟨.inl ⟨rfl, rfl⟩⟩
      · exact ih none

private theorem resume_open (control : Control) : Open (resume [] below control) := by
  cases control with
  | started operation dd => exact ⟨.inl ⟨rfl, rfl⟩⟩
  | finished => exact finish_open none

private theorem complete_open {answer : Answer} {operation : Operation} :
    Open (complete [] dd below answer operation) := by
  cases operation with
  | fetch path =>
    simp only [complete]
    split
    · exact finish_open _
    · split <;> exact resume_open _
  | metadata path =>
    simp only [complete]
    split
    · exact finish_open _
    · exact resume_open _
    · exact resume_open _
  | package callback command =>
    simp only [complete]
    split
    · exact finish_open _
    · exact resume_open _

private theorem step_open {s t : Resolver} {answer : Answer} (here : Open s)
    (stepped : step s answer = some t) : Open t := by
  unfold step at stepped
  split at stepped
  · rename_i dd below operation stack pending
    cases stepped
    obtain ⟨none, -⟩ | ⟨empty, -⟩ := here.reports
    · rw [none]
      exact complete_open
    · rw [stack] at empty
      cases empty
  · cases stepped

/-- **The resolution ends, and the task's callback is called exactly once.** The
repositories that are mentioned anywhere are finitely many; they may depend on
each other in any way. -/
theorem install_dependencies_reports_once (metadata : MetaData) (basePath : Text)
    (rhtsCompat : Bool) (fetchMethod : FetchMethod) (answers : Nat → Answer)
    (mentioned : ∃ names : Finset Text, (∀ repo ∈ metadata.repodeps, repo ∈ names) ∧
      ∀ n, Mentions names (answers n)) :
    ∃ n s, run step (restraintInstallDependencies metadata basePath rhtsCompat fetchMethod)
        (first answers n) = some s ∧
      s.pending = none ∧ s.reports.length = 1 ∧
      ∀ m t, run step (restraintInstallDependencies metadata basePath rhtsCompat fetchMethod)
        (first answers m) = some t → m ≤ n ∧ (m < n → t.reports = []) := by
  obtain ⟨names, root, nested⟩ := mentioned
  have ends : Ends names [] [] (restraintInstallDependencies metadata basePath rhtsCompat
      fetchMethod) := by
    refine ends_handler ?_ root
    cases fetchMethod with
    | unpack url => exact .inl rfl
    | installPackage => exact .inr rfl
  obtain ⟨n, s, ran, error, rfl⟩ := ends.reached answers nested
  have stuck : ∀ answer, step (finish [] error []) answer = none := fun _ => rfl
  refine ⟨n, _, ran, rfl, rfl, ?_⟩
  intro m t other
  refine ⟨run_stuck ran stuck other, fun before => ?_⟩
  have here : Open t := run_keeps (fun _ _ _ => step_open) (resume_open _) other
  obtain ⟨none, -⟩ | ⟨empty, -⟩ := here.reports
  · exact none
  · -- with no record left the run could not go on
    have ended : ∀ answer, step t answer = none := fun answer => by simp [step, empty]
    have longest := run_stuck other ended ran
    omega

/-- The metadata of a repository that requires itself. -/
def selfRequired : MetaData := ⟨["gcc".toList, "-vim".toList], ["perl".toList], ["common".toList]⟩

theorem install_dependencies_reports_once_cycle :
    ∃ n s, run step (restraintInstallDependencies selfRequired "/mnt/tests".toList false
        (.unpack ⟨"localhost".toList, "/git/tests".toList⟩))
        (first (fun _ => ⟨none, 0, some selfRequired⟩) n) = some s ∧
      s.pending = none ∧ s.reports.length = 1 := by
  have mentioned : ∃ names : Finset Text, (∀ repo ∈ selfRequired.repodeps, repo ∈ names) ∧
      ∀ _ : Nat, Mentions names ⟨none, 0, some selfRequired⟩ :=
    ⟨{"common".toList}, by simp [selfRequired], fun _ => by simp [Mentions, selfRequired]⟩
  obtain ⟨n, s, ran, ended, once, -⟩ := install_dependencies_reports_once selfRequired _ false
    (.unpack _) (fun _ => ⟨none, 0, some selfRequired⟩) mentioned
  exact ⟨n, s, ran, ended, once⟩

end Restraint.Dependency
