import Restraint.DependencyProofs
import Restraint.Lib.Descent
import Restraint.Lib.Trace

/-! What the resolution of dependencies does for each repository. The paths that were
processed are handed down to a nested resolution, but what a nested resolution processes is
not handed back: the record above goes on with the list it had. -/
namespace Restraint.DependencyVisits
open CString Transition Dependency Descent

/-- What is done for a repository that is required. The packages that are installed one at
a time after a list has failed are not handed over as a list. -/
inductive Handling where
  /-- Its metadata is read. -/
  | read (path : Text)
  /-- Its packages with a dash are removed. -/
  | remove (path : Text)
  /-- Its other packages are installed. -/
  | install (path : Text)
  deriving DecidableEq

/-- The repository whose packages are those of the record above these. -/
def owner (below : List DependencyData) : Option Text :=
  below.head?.bind fun parent => parent.processedDeps.head?

/-- What a package command hands over for the repository that the packages are from. -/
def handed (repo : Option Text) : Callback → Option Handling
  | .batchRemove => repo.map .remove
  | .batchInstall => repo.map .install
  | .single | .soft => none

/-- What is under way for a repository. -/
def handling (s : Resolver) : Option Handling :=
  match s.pending with
  | some (.metadata path) => some (.read path)
  | some (.package callback _) => handed (owner s.stack.tail) callback
  | _ => none

/-- Every fetch succeeds, and so does every read of metadata: it finds what the graph has. -/
def serves (graph : Text → Option MetaData) (s : Resolver) (answer : Answer) : Bool :=
  match s.pending with
  | some (.fetch _) => answer.error = none
  | some (.metadata path) => answer.error = none ∧ answer.metadata = graph path
  | _ => true

/-- Where a repository is unpacked for a task. -/
def repoAt (basePath : Text) (url : FetchUrl) (repo : Text) : Text :=
  gBuildFilename [basePath, url.host, url.path, repo]

/-- The paths of the repositories that one requires. -/
def required (graph : Text → Option MetaData) (basePath : Text) (url : FetchUrl) (path : Text) :
    List Text :=
  ((graph path).elim [] MetaData.repodeps).map (repoAt basePath url)

/-- The repositories that are mentioned anywhere are finitely many. -/
def Finite (graph : Text → Option MetaData) (metadata : MetaData) : Prop :=
  ∃ names : Finset Text, (∀ repo ∈ metadata.repodeps, repo ∈ names) ∧
    ∀ path, ∀ found ∈ graph path, ∀ repo ∈ found.repodeps, repo ∈ names

/-- The answers of a run in which every fetch and every read of metadata succeeds. -/
abbrev served (graph : Text → Option MetaData) : Step Resolver Answer :=
  only step fun s answer => serves graph s answer = true

/-- What a run does for repositories, in order. -/
def handled (graph : Text → Option MetaData) (s : Resolver) (answers : List Answer) :
    List Handling :=
  trace (served graph) (fun s _ => handling s) s answers

/-- The lists of packages of a repository. -/
def lists (repo : Option Text) (commands : List Callback) : List Handling :=
  commands.filterMap (handed repo)

/-- What is done for a repository where the resolution comes to it and where it leaves it. -/
def expand : Visit Text → List Handling
  | .enter path => [.read path]
  | .leave path => lists (some path) [.batchRemove, .batchInstall]

variable {graph : Text → Option MetaData} {basePath : Text} {url : FetchUrl}
  {reports : List (Option Error)} {below : List DependencyData} {dd : DependencyData}
  {list more : List Handling} {visits : List (Visit Text)} {path : Text}

/-! ## No more than the visits -/

/-- Until the finish callback of the record above these is called, no more than a list is done. -/
def AtMost (graph : Text → Option MetaData) (reports : List (Option Error))
    (below : List DependencyData) : List Handling → Resolver → Prop :=
  Within (served graph) (fun s _ => handling s) fun t => ∃ error, t = finish reports error below

private theorem atMost_finish (error : Option Error) :
    AtMost graph reports below list (finish reports error below) :=
  .here ⟨error, rfl⟩

private theorem atMost_started (operation : Operation) (more : List Handling)
    (after : ∀ answer, serves graph ⟨dd :: below, some operation, reports⟩ answer = true →
      AtMost graph reports below more (complete reports dd below answer operation)) :
    AtMost graph reports below ((handling ⟨dd :: below, some operation, reports⟩).toList ++ more)
      (resume reports below (.started operation dd)) := by
  refine .next (fun _ => .refl _) ?_
  intro answer t taken
  obtain ⟨success, stepped⟩ := only_eq_some.mp taken
  cases stepped
  exact after answer success

private theorem atMost_fetch
    (after : ∀ answer, answer.error = none →
      AtMost graph reports below list (complete reports dd below answer (.fetch path))) :
    AtMost graph reports below list (resume reports below (.started (.fetch path) dd)) :=
  atMost_started (.fetch path) list fun answer success => after answer (by simpa [serves] using success)

private theorem atMost_metadata
    (after : ∀ answer, answer.error = none → answer.metadata = graph path →
      AtMost graph reports below list (complete reports dd below answer (.metadata path))) :
    AtMost graph reports below (.read path :: list)
      (resume reports below (.started (.metadata path) dd)) := by
  apply atMost_started (.metadata path) list
  intro answer success
  obtain ⟨error, found⟩ : answer.error = none ∧ answer.metadata = graph path := by
    simpa [serves] using success
  exact after answer error found

private theorem atMost_installs : Installs reports below fun commands =>
    AtMost graph reports below (lists (owner below) commands) where
  finished := atMost_finish none
  fewer {command commands s} within := by
    apply within.mono
    exact (List.sublist_cons_self command commands).filterMap _
  package callback commands command dd after := by
    have same : lists (owner below) (batch callback ++ commands) =
        (handling ⟨dd :: below, some (.package callback command), reports⟩).toList ++
          lists (owner below) commands := by
      rw [lists, List.filterMap_append]
      congr 1
      cases callback <;> cases found : owner below <;> simp [batch, handling, handed, found]
    rw [same]
    apply atMost_started _ _
    intro answer _
    simp only [complete]
    split
    · exact atMost_finish _
    · exact after answer _ ‹_›

/-- The record of a task that is unpacked, or a copy of it. -/
structure Unpacks (basePath : Text) (url : FetchUrl) (dd : DependencyData) : Prop where
  state : dd.state = .repo
  basePath : dd.basePath = basePath
  fetchUrl : dd.fetchUrl = some url

theorem Unpacks.repoPath (unpacks : Unpacks basePath url dd) (repo : Text) :
    repoPath dd repo = repoAt basePath url repo := by
  simp [Dependency.repoPath, repoAt, unpacks.basePath, unpacks.fetchUrl]

/-- A record that the nested one reports to. -/
theorem atMost_nested {s : Resolver}
    (inner : AtMost graph reports (dd :: below) list s)
    (outer : AtMost graph reports below more (resume reports below (nextRepo dd))) :
    AtMost graph reports below (list ++ more) s := by
  apply inner.trans
  rintro t ⟨error, rfl⟩
  cases error with
  | some error => exact atMost_finish (some error)
  | none => exact outer

private theorem atMost_repos (unpacks : Unpacks basePath url dd)
    (descent : Visits (required graph basePath url) dd.processedDeps
      (dd.repodeps.map (repoAt basePath url)) visits) :
    AtMost graph reports below
      (visits.flatMap expand ++ lists (owner below) [.batchRemove, .batchInstall])
      (resume reports below (restraintFetchRepodeps dd)) := by
  generalize processed : dd.processedDeps = seen at descent
  generalize paths : dd.repodeps.map (repoAt basePath url) = todo at descent
  induction descent generalizing dd below with
  | nil =>
    rw [List.map_eq_nil_iff] at paths
    simp only [restraintFetchRepodeps, paths]
    exact atMost_installs.rpm
  | @skip seen path todo visits old later ih =>
    obtain ⟨repo, repos, list, rfl, rest⟩ := List.map_eq_cons_iff.mp paths
    simp only [restraintFetchRepodeps, list]
    apply atMost_fetch
    intro answer success
    have tail : AtMost graph reports below
        (visits.flatMap expand ++ lists (owner below) [.batchRemove, .batchInstall])
        (resume reports below (nextRepo dd)) :=
      ih ⟨unpacks.state, unpacks.basePath, unpacks.fetchUrl⟩ processed (by simp [list, rest])
    rw [← unpacks.repoPath, ← processed] at old
    simpa [complete, success, old] using tail
  | @enter seen path deeper todo further new later below' ihBelow ihLater =>
    obtain ⟨repo, repos, list, rfl, rest⟩ := List.map_eq_cons_iff.mp paths
    rw [← unpacks.repoPath] at new ihBelow ihLater ⊢
    rw [← processed] at new ihBelow ihLater
    simp only [restraintFetchRepodeps, list]
    apply atMost_fetch
    intro answer success
    simp only [complete, success, new, if_false]
    have tail : AtMost graph reports below
        (further.flatMap expand ++ lists (owner below) [.batchRemove, .batchInstall])
        (resume reports below (nextRepo
          { dd with processedDeps := repoPath dd repo :: dd.processedDeps })) :=
      ihLater ⟨unpacks.state, unpacks.basePath, unpacks.fetchUrl⟩ rfl (by simp [list, rest])
    have split : (Visit.enter (repoPath dd repo) :: deeper ++ .leave (repoPath dd repo) ::
          further).flatMap expand ++ lists (owner below) [.batchRemove, .batchInstall] =
        .read (repoPath dd repo) ::
          ((deeper.flatMap expand ++ lists (some (repoPath dd repo)) [.batchRemove, .batchInstall]) ++
            (further.flatMap expand ++ lists (owner below) [.batchRemove, .batchInstall])) := by
      simp [expand]
    rw [split]
    apply atMost_metadata
    intro answer success found
    simp only [complete, success, found]
    split
    · -- cannot be: the read succeeds
      contradiction
    · rename_i metadata _ has
      refine atMost_nested ?_ tail
      exact ihBelow ⟨unpacks.state, unpacks.basePath, unpacks.fetchUrl⟩ rfl
        (by simp [required, has])
    · exact tail.mono (List.sublist_append_right _ _)

private theorem nodup_expand (nodup : visits.Nodup) : (visits.flatMap expand).Nodup := by
  refine List.nodup_flatMap.mpr ⟨?_, nodup.imp ?_⟩
  · rintro (path | path) - <;> simp [expand, lists, handed]
  · rintro (path | path) (other | other) different <;>
      simp_all [expand, lists, handed, Function.onFun, List.disjoint_left, eq_comm]

/-! ## A run with all the reads -/

/-- The path of a read. -/
def asRead : Handling → Option Text
  | .read path => some path
  | _ => none

/-- Some run gets to a state in which the record is done with, and reads these paths. -/
def Reads (graph : Text → Option MetaData) (paths : List Text) : Resolver → Resolver → Prop :=
  Shows (served graph) (fun s _ => (handling s).bind asRead) paths

private theorem reads_started {operation : Operation} {answer : Answer} {paths : List Text}
    {t : Resolver}
    (success : serves graph ⟨dd :: below, some operation, reports⟩ answer = true)
    (rest : Reads graph paths (complete reports dd below answer operation) t) :
    Reads graph (((handling ⟨dd :: below, some operation, reports⟩).bind asRead).toList ++ paths)
      (resume reports below (.started operation dd)) t :=
  Shows.cons (only_eq_some.mpr ⟨success, rfl⟩) rest

private theorem packageDone_zero (dd : DependencyData) (callback : Callback) :
    ∃ control, packageDone dd ⟨none, 0, none⟩ callback = .inr control := by
  cases callback <;> simp [packageDone, dependencyProcessErrors]

private theorem reads_installs : Installs reports below fun _ s =>
    Reads graph [] s (finish reports none below) where
  finished := .refl
  fewer := id
  package callback _ command dd after := by
    obtain ⟨control, done⟩ := packageDone_zero dd callback
    have silent : (handling ⟨dd :: below, some (.package callback command), reports⟩).bind asRead =
        none := by
      cases callback <;> cases found : owner below <;> simp [handling, handed, found, asRead]
    have rest : Reads graph []
        (complete reports dd below ⟨none, 0, none⟩ (.package callback command))
        (finish reports none below) := by
      simpa [complete, done] using after _ _ done
    have whole := reads_started rfl rest
    rwa [silent] at whole

/-- When all goes well the metadata is read at every node that is entered. -/
theorem reads_repos (unpacks : Unpacks basePath url dd)
    (descent : Visits (required graph basePath url) dd.processedDeps
      (dd.repodeps.map (repoAt basePath url)) visits) :
    Reads graph (entered visits) (resume reports below (restraintFetchRepodeps dd))
      (finish reports none below) := by
  generalize processed : dd.processedDeps = seen at descent
  generalize paths : dd.repodeps.map (repoAt basePath url) = todo at descent
  induction descent generalizing dd below with
  | nil =>
    rw [List.map_eq_nil_iff] at paths
    simp only [restraintFetchRepodeps, paths]
    exact reads_installs.rpm
  | @skip seen path todo visits old later ih =>
    obtain ⟨repo, repos, list, rfl, rest⟩ := List.map_eq_cons_iff.mp paths
    simp only [restraintFetchRepodeps, list]
    have tail : Reads graph (entered visits) (resume reports below (nextRepo dd))
        (finish reports none below) :=
      ih ⟨unpacks.state, unpacks.basePath, unpacks.fetchUrl⟩ processed (by simp [list, rest])
    rw [← unpacks.repoPath, ← processed] at old
    have fetched : Reads graph (entered visits)
        (complete reports dd below ⟨none, 0, none⟩ (.fetch (repoPath dd repo)))
        (finish reports none below) := by
      simpa [complete, old] using tail
    exact reads_started rfl fetched
  | @enter seen path deeper todo further new later below' ihBelow ihLater =>
    obtain ⟨repo, repos, list, rfl, rest⟩ := List.map_eq_cons_iff.mp paths
    rw [← unpacks.repoPath] at new ihBelow ihLater later ⊢
    rw [← processed] at new ihBelow ihLater
    simp only [restraintFetchRepodeps, list]
    have tail : Reads graph (entered further) (resume reports below (nextRepo
          { dd with processedDeps := repoPath dd repo :: dd.processedDeps }))
        (finish reports none below) :=
      ihLater ⟨unpacks.state, unpacks.basePath, unpacks.fetchUrl⟩ rfl (by simp [list, rest])
    have nested : Reads graph (entered deeper ++ entered further)
        (complete reports { dd with processedDeps := repoPath dd repo :: dd.processedDeps } below
          ⟨none, 0, graph (repoPath dd repo)⟩ (.metadata (repoPath dd repo)))
        (finish reports none below) := by
      cases has : graph (repoPath dd repo) with
      | none =>
        -- nothing is required there
        rw [required, has] at later
        cases later
        exact tail
      | some metadata =>
        refine Shows.trans (t := finish reports none (_ :: below)) ?_ tail
        exact ihBelow ⟨unpacks.state, unpacks.basePath, unpacks.fetchUrl⟩ rfl
          (by simp [required, has])
    have read : Reads graph (repoPath dd repo :: (entered deeper ++ entered further))
        (complete reports dd below ⟨none, 0, none⟩ (.fetch (repoPath dd repo)))
        (finish reports none below) := by
      simp only [complete, new, if_false]
      exact reads_started (by simp [serves]) nested
    have split : entered (.enter (repoPath dd repo) :: deeper ++ .leave (repoPath dd repo) :: further) =
        repoPath dd repo :: (entered deeper ++ entered further) := by
      simp [entered, List.filterMap_append]
    rw [split]
    exact reads_started rfl read

/-! ## The whole resolution -/

theorem finish_stuck (t : Resolver) (ended : ∃ error, t = finish [] error []) (answer : Answer) :
    served graph t answer = none := by
  obtain ⟨error, rfl⟩ := ended
  simp [only, finish, step]

theorem exists_descent {metadata : MetaData} (basePath : Text) (url : FetchUrl)
    (finite : Finite graph metadata) :
    ∃ visits, Visits (required graph basePath url) []
      (metadata.repodeps.map (repoAt basePath url)) visits := by
  obtain ⟨names, root, nested⟩ := finite
  refine exists_visits (names.image (repoAt basePath url)) ?_ ?_
  · intro path other member
    obtain ⟨repo, held, rfl⟩ := List.mem_map.mp member
    cases has : graph path with
    | none => simp [has] at held
    | some found =>
      exact Finset.mem_image_of_mem _ (nested path found has repo (by simpa [has] using held))
  · intro other member
    obtain ⟨repo, held, rfl⟩ := List.mem_map.mp member
    exact Finset.mem_image_of_mem _ (root repo held)

private theorem install_unpack (metadata : MetaData) (basePath : Text) (rhtsCompat : Bool)
    (url : FetchUrl) :
    ∃ dd, Unpacks basePath url dd ∧ dd.processedDeps = [] ∧ dd.repodeps = metadata.repodeps ∧
      restraintInstallDependencies metadata basePath rhtsCompat (.unpack url) =
        resume [] [] (restraintFetchRepodeps dd) :=
  ⟨_, ⟨rfl, rfl, rfl⟩, rfl, rfl, rfl⟩

/-- **Each required repository is handled once if and only if no two routes lead from the task
to one path.** A route goes from a repository to one that it requires, past what is listed
before; it does not come to what it has passed. -/
theorem handled_once (graph : Text → Option MetaData) (metadata : MetaData) (basePath : Text)
    (rhtsCompat : Bool) (fetchMethod : FetchMethod) (finite : Finite graph metadata) :
    (∀ answers s, run (served graph)
        (restraintInstallDependencies metadata basePath rhtsCompat fetchMethod) answers = some s →
      (handled graph (restraintInstallDependencies metadata basePath rhtsCompat fetchMethod)
        answers).Nodup) ↔
    ∀ url, fetchMethod = .unpack url →
      Single (required graph basePath url) [] (metadata.repodeps.map (repoAt basePath url)) := by
  constructor
  · rintro once url rfl
    obtain ⟨visits, descent⟩ := exists_descent basePath url finite
    obtain ⟨dd, unpacks, processed, repodeps, starts⟩ :=
      install_unpack metadata basePath rhtsCompat url
    rw [starts] at once
    have whole := descent
    rw [← processed, ← repodeps] at whole
    obtain ⟨answers, ran, reads⟩ : Reads graph (entered visits) _ (finish [] none []) :=
      reads_repos unpacks whole
    rw [← descent.nodup_iff, ← reads, ← trace_filterMap]
    apply (once answers _ ran).filterMap
    rintro (path | path | path) (other | other | other) read <;> simp_all [asRead]
  · intro single answers s ran
    cases fetchMethod with
    | installPackage =>
      have within : AtMost graph [] [] (lists (owner []) [.batchRemove, .batchInstall])
          (restraintInstallDependencies metadata basePath rhtsCompat .installPackage) :=
        atMost_installs.rpm
      exact (within.sublist finish_stuck ran).nodup .nil
    | unpack url =>
      obtain ⟨visits, descent⟩ := exists_descent basePath url finite
      have nodup := nodup_expand (descent.nodup (single url rfl))
      obtain ⟨dd, unpacks, processed, repodeps, starts⟩ :=
        install_unpack metadata basePath rhtsCompat url
      rw [← processed, ← repodeps] at descent
      rw [starts] at ran ⊢
      have within : AtMost graph [] [] _ _ := atMost_repos unpacks descent
      rw [show lists (owner []) [.batchRemove, .batchInstall] = [] from rfl, List.append_nil] at within
      exact (within.sublist finish_stuck ran).nodup nodup

/-- The repository of the tests below. -/
def tests : FetchUrl := ⟨"localhost".toList, "/git/tests".toList⟩

/-- A repository that requires itself is handled once. -/
theorem handled_once_cycle :
    Single (required (fun _ => some selfRequired) "/mnt/tests".toList tests) []
      [repoAt "/mnt/tests".toList tests "common".toList] ∧
    ∀ answers s, run (served fun _ => some selfRequired) (restraintInstallDependencies selfRequired
        "/mnt/tests".toList false (.unpack tests)) answers = some s →
      (handled (fun _ => some selfRequired) (restraintInstallDependencies selfRequired
        "/mnt/tests".toList false (.unpack tests)) answers).Nodup := by
  have finite : Finite (fun _ => some selfRequired) selfRequired :=
    ⟨{"common".toList}, by simp [selfRequired], by simp [selfRequired]⟩
  have single : Single (required (fun _ => some selfRequired) "/mnt/tests".toList tests) []
      [repoAt "/mnt/tests".toList tests "common".toList] :=
    (Visits.enter List.not_mem_nil (.skip List.mem_cons_self .nil) .nil).nodup_iff.mp (by decide)
  refine ⟨single, (handled_once _ selfRequired _ false (.unpack tests) finite).mpr ?_⟩
  intro url same
  cases same
  exact single

/-- Two repositories that require a third one, which has a package. -/
def diamond (path : Text) : Option MetaData :=
  if path = repoAt "/mnt/tests".toList tests "a".toList ∨
      path = repoAt "/mnt/tests".toList tests "b".toList then
    some ⟨[], [], ["c".toList]⟩
  else if path = repoAt "/mnt/tests".toList tests "c".toList then some ⟨["gcc".toList], [], []⟩
  else none

/-- A task that requires both. -/
def diamondTask : Resolver :=
  restraintInstallDependencies ⟨[], [], ["a".toList, "b".toList]⟩ "/mnt/tests".toList false
    (.unpack tests)

/-- The answers with which both are resolved. -/
def diamondAnswers : List Answer :=
  let required : List Answer := [⟨none, 0, none⟩, ⟨none, 0, some ⟨[], [], ["c".toList]⟩⟩,
    ⟨none, 0, none⟩, ⟨none, 0, some ⟨["gcc".toList], [], []⟩⟩, ⟨none, 0, none⟩]
  required ++ required

/-- What two repositories require is read twice and its packages are installed twice. -/
theorem handled_twice : Finite diamond ⟨[], [], ["a".toList, "b".toList]⟩ ∧
    (run (served diamond) diamondTask diamondAnswers).map Resolver.reports = some [none] ∧
    (handled diamond diamondTask diamondAnswers).count
      (.read (repoAt "/mnt/tests".toList tests "c".toList)) = 2 ∧
    (handled diamond diamondTask diamondAnswers).count
      (.install (repoAt "/mnt/tests".toList tests "c".toList)) = 2 := by
  refine ⟨⟨{"a".toList, "b".toList, "c".toList}, by decide, ?_⟩, by decide +kernel, by decide +kernel,
    by decide +kernel⟩
  intro path found has repo held
  simp only [diamond] at has
  split at has
  · cases has
    simp_all
  · split at has
    · cases has
      cases held
    · cases has

end Restraint.DependencyVisits
