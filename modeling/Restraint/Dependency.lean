import Restraint.Lib.CString
import Restraint.Lib.Transition

/-! `dependency.c`: the repositories, packages and soft dependencies of a task are
fetched and installed one operation at a time. The metadata of a repository is
resolved by a copy of the record, so the records form a stack, the innermost
first; each calls `ldep_finish_cb` of the next one, and the last one the
callback that was given to `restraint_install_dependencies`. -/
namespace Restraint.Dependency
open CString

/-- `DependencyState`. -/
inductive DependencyState where
  | repo
  | rpm
  | singleRpm
  | softRpm
  | done
  deriving DecidableEq

/-- A `GError`: that of an operation, or `RESTRAINT_TASK_RUNNER_RC_ERROR`. -/
inductive Error where
  | operation (code : Nat)
  | returnCode (code : Int)
  deriving DecidableEq

/-- The lists of a `MetaData`. -/
structure MetaData where
  dependencies : List Text
  softdependencies : List Text
  repodeps : List Text
  deriving DecidableEq

/-- The parts of a `SoupURI` that a path is built from. -/
structure FetchUrl where
  host : Text
  path : Text
  deriving DecidableEq

structure DependencyData where
  dependencies : List Text
  softdependencies : List Text
  repodeps : List Text
  processedDeps : List Text
  /-- Set for a task that is unpacked. -/
  fetchUrl : Option FetchUrl
  basePath : Text
  ignoreFailedInstall : Bool
  state : DependencyState
  installRpms : Option Text
  removeRpms : Option Text
  deriving DecidableEq

/-- The callback of a package command. -/
inductive Callback where
  /-- `dependency_callback`. -/
  | single
  /-- `dependency_batch_remove_cb`. -/
  | batchRemove
  /-- `dependency_batch_install_cb`. -/
  | batchInstall
  /-- `softdependency_callback`. -/
  | soft
  deriving DecidableEq

/-- An operation that was started. -/
inductive Operation where
  /-- `restraint_fetch_git` or `restraint_fetch_uri`; calls
  `fetch_repodeps_finish_callback`. -/
  | fetch (path : Text)
  /-- `restraint_get_metadata`; calls `dep_mtdata_finish_cb`. -/
  | metadata (path : Text)
  /-- `process_run`. -/
  | package (callback : Callback) (command : Text)
  deriving DecidableEq

/-- What an operation calls back with. -/
structure Answer where
  error : Option Nat
  pidResult : Int
  metadata : Option MetaData
  deriving DecidableEq

/-- The records, the operation that is under way for the first of them, and what
the callback of `restraint_install_dependencies` was called with, in order. -/
structure Resolver where
  stack : List DependencyData
  pending : Option Operation
  reports : List (Option Error)
  deriving DecidableEq

/-- What a handler does with a record: it starts an operation or is done. -/
inductive Control where
  | started (operation : Operation) (record : DependencyData)
  | finished

/-- The command for one package; a name that starts with a dash is removed. -/
def packageCommand : Text → Text
  | '-' :: name => "rstrnt-package remove ".toList ++ name
  | name => "rstrnt-package install ".toList ++ name

/-- `dependency_soft_rpm`. -/
def dependencySoftRpm (dd : DependencyData) : Control :=
  match dd.softdependencies with
  | package :: _ => .started (.package .soft (packageCommand package)) dd
  | [] => .finished

/-- `dependency_single_rpm`. -/
def dependencySingleRpm (dd : DependencyData) : Control :=
  match dd.dependencies with
  | package :: _ => .started (.package .single (packageCommand package)) dd
  | [] => dependencySoftRpm { dd with state := .softRpm }

/-- `dependency_batch_rpms` once there is nothing to remove. -/
def dependencyBatchInstall (dd : DependencyData) : Control :=
  match dd.installRpms with
  | some [] => dependencySoftRpm { dd with
      installRpms := none
      state := .softRpm }
  | some rpms => .started (.package .batchInstall ("rstrnt-package install".toList ++ rpms)) dd
  | none => dependencySoftRpm { dd with state := .softRpm }

/-- `dependency_batch_rpms`. -/
def dependencyBatchRpms (dd : DependencyData) : Control :=
  match dd.removeRpms with
  | some [] => dependencyBatchInstall { dd with removeRpms := none }
  | some rpms => .started (.package .batchRemove ("rstrnt-package remove".toList ++ rpms)) dd
  | none => dependencyBatchInstall dd

/-- The packages to remove, each after a space. -/
def removeRpms (dependencies : List Text) : Text :=
  dependencies.flatMap fun package =>
    match package with
    | '-' :: name => ' ' :: name
    | _ => []

/-- The packages to install, each after a space. -/
def installRpms (dependencies : List Text) : Text :=
  dependencies.flatMap fun package =>
    match package with
    | '-' :: _ => []
    | name => ' ' :: name

/-- `dependency_rpm`. -/
def dependencyRpm (dd : DependencyData) : Control :=
  if dd.dependencies = [] then dependencySoftRpm { dd with state := .softRpm }
  else
    dependencyBatchRpms { dd with
      installRpms := some (installRpms dd.dependencies)
      removeRpms := some (removeRpms dd.dependencies) }

/-- Where a repository is unpacked. -/
def repoPath (dd : DependencyData) (repo : Text) : Text :=
  gBuildFilename (dd.basePath :: dd.fetchUrl.elim [] (fun url => [url.host, url.path]) ++ [repo])

/-- `restraint_fetch_repodeps`. -/
def restraintFetchRepodeps (dd : DependencyData) : Control :=
  match dd.repodeps with
  | repo :: _ => .started (.fetch (repoPath dd repo)) dd
  | [] => dependencyRpm { dd with state := .rpm }

/-- `dependency_handler`. -/
def dependencyHandler (dd : DependencyData) : Control :=
  match dd.state with
  | .repo => restraintFetchRepodeps dd
  | .rpm => dependencyRpm dd
  | .singleRpm => dependencySingleRpm dd
  | .softRpm => dependencySoftRpm dd
  | .done => .finished

/-- The next repository of a record. -/
def nextRepo (dd : DependencyData) : Control :=
  restraintFetchRepodeps { dd with repodeps := dd.repodeps.tail }

/-- The `finish_cb` of the record above these is called: `ldep_finish_cb`, or the
callback of `restraint_install_dependencies` if there is no other record. -/
def finish (reports : List (Option Error)) (error : Option Error) :
    List DependencyData → Resolver
  | [] => ⟨[], none, reports ++ [error]⟩
  | parent :: below =>
    match error with
    | some error => finish reports (some error) below
    | none =>
      match nextRepo parent with
      | .started operation dd => ⟨dd :: below, some operation, reports⟩
      | .finished => finish reports none below

/-- The first record goes on as its handler says. -/
def resume (reports : List (Option Error)) (below : List DependencyData) : Control → Resolver
  | .started operation dd => ⟨dd :: below, some operation, reports⟩
  | .finished => finish reports none below

/-- `dependency_process_errors`: the error that ends the record. -/
def dependencyProcessErrors (dd : DependencyData) (answer : Answer) : Option Error :=
  match answer.error with
  | some code => some (.operation code)
  | none =>
    if dd.ignoreFailedInstall = false ∧ answer.pidResult ≠ 0 then some (.returnCode answer.pidResult)
    else none

/-- Back to one package at a time. -/
def fallBack (dd : DependencyData) : Control :=
  dependencyHandler { dd with
    removeRpms := none
    installRpms := none
    state := .singleRpm }

/-- The callbacks of the package commands: the record's error, or how it goes on. -/
def packageDone (dd : DependencyData) (answer : Answer) : Callback → Error ⊕ Control
  | .soft =>
    match answer.error with
    | some code => .inl (.operation code)
    | none => .inr (dependencyHandler { dd with softdependencies := dd.softdependencies.tail })
  | .single =>
    match dependencyProcessErrors dd answer with
    | some error => .inl error
    | none => .inr (dependencyHandler { dd with dependencies := dd.dependencies.tail })
  | .batchRemove =>
    match dependencyProcessErrors dd answer with
    | some error => .inl error
    | none =>
      if answer.pidResult ≠ 0 then .inr (fallBack dd)
      else .inr (dependencyBatchRpms { dd with removeRpms := none })
  | .batchInstall =>
    match dependencyProcessErrors dd answer with
    | some error => .inl error
    | none =>
      if answer.pidResult ≠ 0 then .inr (fallBack dd)
      else
        .inr (dependencyHandler { dd with
          installRpms := none
          dependencies := []
          state := .softRpm })

/-- An operation for the first record is over. -/
def complete (reports : List (Option Error)) (dd : DependencyData) (below : List DependencyData)
    (answer : Answer) : Operation → Resolver
  | .fetch path =>
    match answer.error with
    | some code => finish reports (some (.operation code)) below
    | none =>
      if path ∈ dd.processedDeps then resume reports below (nextRepo dd)
      else
        resume reports below
          (.started (.metadata path) { dd with processedDeps := path :: dd.processedDeps })
  | .metadata _ =>
    match answer.error, answer.metadata with
    | some code, _ => finish reports (some (.operation code)) below
    | none, some metadata =>
      -- the copy keeps the soft dependencies of the task
      resume reports (dd :: below)
        (restraintFetchRepodeps { dd with
          dependencies := metadata.dependencies
          repodeps := metadata.repodeps })
    | none, none => resume reports below (nextRepo dd)
  | .package callback _ =>
    match packageDone dd answer callback with
    | .inl error => finish reports (some error) below
    | .inr control => resume reports below control

/-- The operation that is under way calls back. -/
def step (s : Resolver) (answer : Answer) : Option Resolver :=
  match s.stack, s.pending with
  | dd :: below, some operation => some (complete s.reports dd below answer operation)
  | _, _ => none

/-- `TaskFetchMethod`, with the URL of a task that is unpacked. -/
inductive FetchMethod where
  | installPackage
  | unpack (url : FetchUrl)
  deriving DecidableEq

/-- `restraint_install_dependencies`. -/
def restraintInstallDependencies (metadata : MetaData) (basePath : Text) (rhtsCompat : Bool)
    (fetchMethod : FetchMethod) : Resolver :=
  let dd : DependencyData :=
    { dependencies := metadata.dependencies
      softdependencies := metadata.softdependencies
      repodeps := metadata.repodeps
      processedDeps := []
      fetchUrl := match fetchMethod with
        | .unpack url => some url
        | .installPackage => none
      basePath := basePath
      ignoreFailedInstall := rhtsCompat
      state := match fetchMethod with
        | .unpack _ => .repo
        | .installPackage => .rpm
      installRpms := none
      removeRpms := none }
  resume [] [] (dependencyHandler dd)

end Restraint.Dependency
