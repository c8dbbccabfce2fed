import Restraint.Dependency
import Mathlib.Algebra.Ring.Nat

/-! The script `rstrnt-package`: packages are installed and removed, with retries. What the commands
exit with comes from outside. The attempts are numbered, and an oracle gives the exit code of each,
so that the loop over them is the only thing that is modelled. `rpm-ostree` has one counter for all
packages, `yum` one for each call. -/
namespace Restraint.RstrntPackage
open CString (Text)

/-! ## The script -/

/-- What a user can set of what the script reads, with its defaults. -/
structure Settings where
  pkgCmd : Text := "yum".toList
  pkgInstall : Text := "install".toList
  pkgRemove : Text := "remove".toList
  retry : Int := 5

/-- A command of the script. -/
inductive Command where
  /-- `rpm -q --whatprovides`. -/
  | provides (packages : List Text)
  /-- `$pkg_cmd $pkg_args $opr $package`. -/
  | manage (opr : Text) (packages : List Text)
  /-- `$pkg_cmd ${pkg_download} ${pkg_download_dest}${tmpdir} ${package}`. -/
  | download (packages : List Text)
  /-- `${pkg_manual_install} ${tmpdir}/*`. -/
  | manualInstall
  deriving DecidableEq

/-- The commands that were run, with what they exited with. -/
abbrev Ran := List (Command × Nat)

/-- What the commands of one round of `_pkg_cmd` exit with. -/
structure Attempt where
  manage : Nat
  download : Nat
  manualInstall : Nat

/-- The `while` loop of `_pkg_cmd` with as many rounds left, and its `success`. -/
def pkgRetry (opr : Text) (packages : List Text) : Nat → (Nat → Attempt) → Nat × Ran
  | 0, _ => (1, [])
  | left + 1, attempts =>
    let managed := (.manage opr packages, (attempts 0).manage)
    if (attempts 0).manage = 0 then (0, [managed])
    else
      let fallback := [managed, (.download packages, (attempts 0).download),
        (.manualInstall, (attempts 0).manualInstall)]
      if (attempts 0).manualInstall = 0 then (0, fallback)
      else
        let (success, ran) := pkgRetry opr packages left fun k => attempts (k + 1)
        (success, fallback ++ ran)

/-- `_pkg_cmd`; `try` starts at 0. -/
def pkgCmd (settings : Settings) (opr : Text) (packages : List Text) (attempts : Nat → Attempt) :
    Nat × Ran :=
  pkgRetry opr packages settings.retry.toNat attempts

/-- What the commands for one package in `_ostree_cmd` exit with: the query, and each attempt to
install it. -/
structure Statuses where
  provides : Nat
  install : Nat → Nat

/-- The variables `success` and `try` of `_ostree_cmd`. -/
structure Vars where
  success : Nat
  tries : Int

/-- The inner loop of `_ostree_cmd` with as many rounds left, and what its commands exited with. -/
def ostreeRetry : Nat → (Nat → Nat) → Vars → Vars × List Nat
  | 0, _, s => (s, [])
  | left + 1, install, s =>
    if install 0 = 0 then ({ s with success := 0 }, [0])
    else
      let (s, tried) := ostreeRetry left (fun k => install (k + 1)) { s with tries := s.tries + 1 }
      (s, install 0 :: tried)

/-- What was done for a package: what the query and the attempts to install it exited with. -/
structure Done where
  package : Text
  provides : Nat
  tried : List Nat

/-- The `for` loop of `_ostree_cmd`. -/
def ostreePackages (retry : Int) : List (Text × Statuses) → Vars → Vars × List Done
  | [], s => (s, [])
  | (package, statuses) :: rest, s =>
    let (s, tried) :=
      if statuses.provides ≠ 0 then ostreeRetry (retry - s.tries).toNat statuses.install s
      else (s, [])
    let (s, done) := ostreePackages retry rest s
    (s, ⟨package, statuses.provides, tried⟩ :: done)

/-- `_ostree_cmd`: what it returns, and what it did for each package. -/
def ostreeCmd (settings : Settings) (packages : List (Text × Statuses)) : Nat × List Done :=
  let (s, done) := ostreePackages settings.retry packages ⟨0, 0⟩
  (s.success, done)

/-- The commands for a package. -/
def Done.ran (opr : Text) (done : Done) : Ran :=
  (.provides [done.package], done.provides) :: done.tried.map fun status =>
    (.manage opr [done.package], status)

/-- What the commands of a run of the script exit with. -/
structure World where
  /-- For the packages in their order, where `rpm-ostree` installs them. -/
  ostree : Nat → Statuses
  remove : Nat → Attempt
  install : Nat → Attempt
  /-- `rpm -q --whatprovides` for all packages. -/
  provides : Nat
  /-- `rm -rf $tmpdir`. -/
  rm : Nat

/-- The packages, each with what its commands exit with. -/
def World.listed (w : World) (packages : List Text) : List (Text × Statuses) :=
  packages.zipIdx.map fun (package, i) => (package, w.ostree i)

/-- The check of what `yum` has installed; it replaces `RC`. -/
def checkYum (settings : Settings) (packages : List Text) (w : World) (installed : Nat × Ran) :
    Option Nat × Ran :=
  if installed.1 = 0 ∧ settings.pkgCmd = "yum".toList then
    (some w.provides, installed.2 ++ [(.provides packages, w.provides)])
  else (some installed.1, installed.2)

/-- `RC` after the operation, which is not set in every branch, and the commands. -/
def operate (settings : Settings) (operation : Text) (packages : List Text) (w : World) :
    Option Nat × Ran :=
  if operation = "install".toList then
    if settings.pkgCmd = "rpm-ostree".toList then
      (none, (ostreeCmd settings (w.listed packages)).2.flatMap (Done.ran settings.pkgInstall))
    else checkYum settings packages w (pkgCmd settings settings.pkgInstall packages w.install)
  else if operation = "remove".toList then
    let (rc, ran) := pkgCmd settings settings.pkgRemove packages w.remove
    (some rc, ran)
  else if operation = "reinstall".toList then
    let (_, removed) := pkgCmd settings settings.pkgRemove packages w.remove
    let (rc, ran) :=
      checkYum settings packages w (pkgCmd settings settings.pkgInstall packages w.install)
    (rc, removed ++ ran)
  else (some 2, [])

/-- `rstrnt-package` with an operation and the packages in `$*`: what it exits with, and the commands.
Where `RC` is not set, `exit` takes what `rm` exited with. -/
def rstrntPackage (settings : Settings) (operation : Text) (packages : List Text) (w : World) :
    Nat × Ran :=
  let (rc, ran) := operate settings operation packages w
  (rc.getD w.rm, ran)

variable {settings : Settings} {opr : Text} {packages : List Text} {w : World} {left limit : Nat}
  {attempts : Nat → Attempt} {install : Nat → Nat} {s : Vars}

/-! ## Remove -/

theorem pkgRetry_first (succeeds : (attempts 0).manage = 0) :
    pkgRetry opr packages (left + 1) attempts = (0, [(.manage opr packages, 0)]) := by
  simp only [pkgRetry, succeeds, ↓reduceIte]

/-- Where the first attempt fails, the manual install is run. -/
theorem pkgRetry_fallback (fails : (attempts 0).manage ≠ 0) :
    (.manualInstall, (attempts 0).manualInstall) ∈
      (pkgRetry opr packages (left + 1) attempts).2 := by
  unfold pkgRetry
  simp only [fails, ↓reduceIte]
  split
  · simp
  · simp

private theorem rstrntPackage_remove : rstrntPackage settings "remove".toList packages w =
    pkgCmd settings settings.pkgRemove packages w.remove := by
  unfold rstrntPackage operate
  rw [if_neg (by decide), if_pos rfl]
  rfl

/-- Some attempt of the removal succeeded. -/
def Removed (settings : Settings) (packages : List Text) (ran : Ran) : Prop :=
  (.manage settings.pkgRemove packages, 0) ∈ ran

/-- What `waitpid` gives for an exit code. -/
def waitStatus (code : Nat) : Int := (code % 256 : Nat) * 256

/-- The removal of packages only removes: there is no manual install, and 0 stands for a removal, also
where `dependency_batch_remove_cb` sees it. -/
structure OnlyRemoves (settings : Settings) (packages : List Text) (exited : Nat × Ran) : Prop where
  manual : ∀ status, (.manualInstall, status) ∉ exited.2
  exit : exited.1 = 0 → Removed settings packages exited.2
  seen : ∀ answer : Dependency.Answer, answer.pidResult = waitStatus exited.1 →
    answer.pidResult = 0 → Removed settings packages exited.2
  /-- Where failures count, the callback goes on only after a removal. -/
  goesOn : ∀ (dd : Dependency.DependencyData) (answer : Dependency.Answer) control,
    answer.pidResult = waitStatus exited.1 → dd.ignoreFailedInstall = false →
    Dependency.packageDone dd answer .batchRemove = .inr control → Removed settings packages exited.2

private theorem batchRemove_goesOn {dd : Dependency.DependencyData} {answer : Dependency.Answer}
    {control : Dependency.Control} (counts : dd.ignoreFailedInstall = false)
    (done : Dependency.packageDone dd answer .batchRemove = .inr control) : answer.pidResult = 0 := by
  by_contra failed
  unfold Dependency.packageDone Dependency.dependencyProcessErrors at done
  cases error : answer.error <;> simp [error, counts, failed] at done

private theorem waitStatus_eq_zero_iff {code : Nat} (small : code < 256) :
    waitStatus code = 0 ↔ code = 0 := by
  unfold waitStatus
  omega

/-- The callback adds nothing to what the exit code says. -/
theorem onlyRemoves_of {exited : Nat × Ran} (manual : ∀ status, (.manualInstall, status) ∉ exited.2)
    (exit : exited.1 = 0 → Removed settings packages exited.2) (small : exited.1 < 256) :
    OnlyRemoves settings packages exited where
  manual := manual
  exit := exit
  seen _ same zero := exit ((waitStatus_eq_zero_iff small).mp (same.symm.trans zero))
  goesOn _ _ _ same counts done :=
    exit ((waitStatus_eq_zero_iff small).mp (same.symm.trans (batchRemove_goesOn counts done)))

/-- What cannot be removed is installed. -/
def installsInstead : World where
  ostree _ := ⟨0, fun _ => 0⟩
  remove _ := ⟨1, 0, 0⟩
  install _ := ⟨0, 0, 0⟩
  provides := 0
  rm := 0

/-- The removal fails, the package is installed once more, and the script exits with 0. -/
theorem remove_installs :
    (rstrntPackage {} "remove".toList ["a".toList] installsInstead).1 = 0 ∧
      ¬OnlyRemoves {} ["a".toList]
        (rstrntPackage {} "remove".toList ["a".toList] installsInstead) := by
  refine ⟨rfl, fun only => ?_⟩
  exact only.manual 0 (by decide)

/-- A removal only removes exactly where its first attempt succeeds, or no attempt is made. -/
theorem remove_only_removes_iff (settings : Settings) (packages : List Text) (w : World) :
    OnlyRemoves settings packages (rstrntPackage settings "remove".toList packages w) ↔
      settings.retry ≤ 0 ∨ (w.remove 0).manage = 0 := by
  rw [rstrntPackage_remove, pkgCmd]
  constructor
  · intro only
    by_contra other
    obtain ⟨tries, fails⟩ := not_or.mp other
    obtain ⟨left, rounds⟩ := Nat.exists_eq_succ_of_ne_zero (n := settings.retry.toNat) (by omega)
    rw [rounds] at only
    exact only.manual _ (pkgRetry_fallback fails)
  · intro fine
    cases rounds : settings.retry.toNat with
    | zero =>
      apply onlyRemoves_of
      · exact fun status => List.not_mem_nil
      · exact fun zero => absurd zero Nat.one_ne_zero
      · exact (by decide : 1 < 256)
    | succ left =>
      have succeeds : (w.remove 0).manage = 0 := fine.resolve_left (by omega)
      rw [pkgRetry_first succeeds]
      apply onlyRemoves_of
      · intro status member
        cases List.mem_singleton.mp member
      · exact fun _ => List.mem_singleton_self _
      · exact (by decide : 0 < 256)

/-! ## Install with `rpm-ostree` -/

/-- How many attempts fail before the first that succeeds, if only so many are made. -/
def failures : Nat → (Nat → Nat) → Nat
  | 0, _ => 0
  | limit + 1, install =>
    if install 0 = 0 then 0 else failures limit (fun k => install (k + 1)) + 1

/-- With fewer attempts, no more fail. -/
theorem failures_min (fewer : left ≤ limit) :
    failures left install = min left (failures limit install) := by
  induction left generalizing limit install with
  | zero => simp [failures]
  | succ left ih =>
    obtain ⟨limit, rfl⟩ := Nat.exists_eq_add_of_le' (Nat.lt_of_lt_of_le (Nat.succ_pos _) fewer)
    unfold failures
    split
    · simp
    · have fewer : left ≤ limit := Nat.le_of_succ_le_succ fewer
      rw [ih fewer]
      omega

/-- The inner loop counts the failures, and ends with the first success. -/
theorem ostreeRetry_tried :
    (ostreeRetry left install s).1.tries = s.tries + failures left install ∧
      (0 ∈ (ostreeRetry left install s).2 ↔ failures left install < left) ∧
      (0 ∉ (ostreeRetry left install s).2 → (ostreeRetry left install s).2.length = left) := by
  induction left generalizing install s with
  | zero => simp [ostreeRetry, failures]
  | succ left ih =>
    unfold ostreeRetry failures
    by_cases succeeds : install 0 = 0
    · simp [succeeds]
    · obtain ⟨tries, success, all⟩ := @ih (fun k => install (k + 1)) { s with tries := s.tries + 1 }
      simp only [succeeds, ↓reduceIte, List.mem_cons, Ne.symm succeeds, false_or]
      refine ⟨?_, ?_, ?_⟩
      · rw [tries]
        dsimp only
        omega
      · rw [success]
        omega
      · intro never
        rw [List.length_cons, all never]

/-- The packages that are not provided: how many of their attempts fail. -/
def failing (limit : Nat) (packages : List (Text × Statuses)) : List Nat :=
  (packages.filter fun package => package.2.provides ≠ 0).map fun package =>
    failures limit package.2.install

/-- The package was provided, or an attempt to install it succeeded. -/
def InPlace (done : Done) : Prop := done.provides = 0 ∨ 0 ∈ done.tried

/-- A package that is not provided is tried until it is installed, or as often as allowed. -/
def FullyTried (limit : Nat) (done : Done) : Prop :=
  done.provides ≠ 0 → 0 ∈ done.tried ∨ done.tried.length = limit

/-- All failures together leave an attempt over. -/
def Spare (limit : Nat) (counts : List Nat) : Prop := counts = [] ∨ counts.sum < limit

section Ostree
variable {package : Text} {statuses : Statuses} {rest listed : List (Text × Statuses)} {retry : Int}
  {spent : Nat}

private theorem failing_cons : failing limit ((package, statuses) :: rest) =
    if statuses.provides = 0 then failing limit rest
    else failures limit statuses.install :: failing limit rest := by
  unfold failing
  rw [List.filter_cons]
  by_cases provided : statuses.provides = 0
  · simp [provided]
  · simp [provided]

private theorem ostreePackages_provided (provided : statuses.provides = 0) :
    (ostreePackages retry ((package, statuses) :: rest) s).2 =
      ⟨package, 0, []⟩ :: (ostreePackages retry rest s).2 := by
  simp only [ostreePackages, provided, ne_eq, not_true_eq_false, ↓reduceIte]

/-- The counter goes on from package to package. -/
theorem ostreePackages_tried (package : Text) (rest : List (Text × Statuses))
    (below : spent ≤ retry.toNat) (count : s.tries = spent) (unprovided : statuses.provides ≠ 0) :
    ∃ tried s', (ostreePackages retry ((package, statuses) :: rest) s).2 =
        ⟨package, statuses.provides, tried⟩ :: (ostreePackages retry rest s').2 ∧
      s'.tries = (min retry.toNat (spent + failures retry.toNat statuses.install) : Nat) ∧
      (0 ∈ tried ↔ spent + failures retry.toNat statuses.install < retry.toNat) ∧
      (0 ∉ tried → tried.length = retry.toNat - spent) := by
  have rounds : (retry - s.tries).toNat = retry.toNat - spent := by omega
  have fewer : failures (retry.toNat - spent) statuses.install = _ :=
    failures_min (Nat.sub_le retry.toNat spent)
  obtain ⟨tries, success, all⟩ := @ostreeRetry_tried (retry.toNat - spent) statuses.install s
  refine ⟨_, (ostreeRetry (retry.toNat - spent) statuses.install s).1, ?_, ?_, success.trans ?_, all⟩
  · simp only [ostreePackages, unprovided, ne_eq, not_false_eq_true, ↓reduceIte, rounds]
  · rw [tries, fewer, count]
    omega
  · rw [fewer]
    omega

/-- There is a record for each package. -/
theorem ostreePackages_package :
    (ostreePackages retry listed s).2.map Done.package = listed.map Prod.fst := by
  induction listed generalizing s with
  | nil => rfl
  | cons entry rest ih => exact congrArg (entry.1 :: ·) ih

private theorem ostreePackages_inPlace (below : spent ≤ retry.toNat) (count : s.tries = spent) :
    (∀ done ∈ (ostreePackages retry listed s).2, InPlace done) ↔
      failing retry.toNat listed = [] ∨ spent + (failing retry.toNat listed).sum < retry.toNat := by
  induction listed generalizing s spent with
  | nil => simp [ostreePackages, failing]
  | cons entry rest ih =>
    obtain ⟨package, statuses⟩ := entry
    rw [failing_cons]
    by_cases provided : statuses.provides = 0
    · rw [ostreePackages_provided provided, List.forall_mem_cons, ih below count, if_pos provided]
      exact and_iff_right (.inl rfl)
    · obtain ⟨tried, s', done, count', success, -⟩ :=
        ostreePackages_tried package rest below count provided
      have inPlace : InPlace ⟨package, statuses.provides, tried⟩ ↔
          spent + failures retry.toNat statuses.install < retry.toNat := by
        rw [← success]
        exact or_iff_right provided
      rw [done, List.forall_mem_cons, ih (Nat.min_le_left _ _) count', if_neg provided, inPlace,
        List.sum_cons]
      cases failing retry.toNat rest with
      | nil => simp
      | cons more later =>
        simp only [reduceCtorEq, false_or]
        omega

/-- Every package has its full number of attempts where no attempt is allowed, where all failures
together leave one over, or where none but the last package needs more than one. -/
theorem ostreePackages_fullyTried (below : spent ≤ retry.toNat) (count : s.tries = spent) :
    (∀ done ∈ (ostreePackages retry listed s).2, FullyTried retry.toNat done) ↔
      retry.toNat = 0 ∨ failing retry.toNat listed = [] ∨
        spent + (failing retry.toNat listed).sum < retry.toNat ∨
        spent + (failing retry.toNat listed).dropLast.sum = 0 := by
  induction listed generalizing s spent with
  | nil => simp [ostreePackages, failing]
  | cons entry rest ih =>
    obtain ⟨package, statuses⟩ := entry
    rw [failing_cons]
    by_cases provided : statuses.provides = 0
    · rw [ostreePackages_provided provided, List.forall_mem_cons, ih below count, if_pos provided]
      exact and_iff_right fun unprovided => absurd rfl unprovided
    · obtain ⟨tried, s', done, count', success, all⟩ :=
        ostreePackages_tried package rest below count provided
      have full : FullyTried retry.toNat ⟨package, statuses.provides, tried⟩ ↔
          spent + failures retry.toNat statuses.install < retry.toNat ∨ spent = 0 ∨
            retry.toNat = 0 := by
        rw [← success]
        constructor
        · intro full
          rcases full provided with success | length
          · exact .inl success
          · by_cases some : 0 ∈ tried
            · exact .inl some
            · have spare := all some
              dsimp only at length
              omega
        · rintro spare -
          by_cases some : 0 ∈ tried
          · exact .inl some
          · have length := all some
            have none := spare.resolve_left some
            exact .inr (by dsimp only; omega)
      rw [done, List.forall_mem_cons, ih (Nat.min_le_left _ _) count', if_neg provided, full,
        List.sum_cons]
      cases failing retry.toNat rest with
      | nil =>
        simp only [List.sum_nil, List.dropLast_singleton, true_or, or_true, and_true, reduceCtorEq,
          false_or]
        omega
      | cons more later =>
        simp only [reduceCtorEq, false_or, List.dropLast_cons_cons, List.sum_cons]
        omega

end Ostree

private theorem listed_fst : (w.listed packages).map Prod.fst = packages := by
  unfold World.listed
  rw [List.map_map]
  exact List.zipIdx_map_fst 0 packages

/-- Without `RC` the script exits with what `rm` did. -/
theorem rstrntPackage_ostree (ostree : settings.pkgCmd = "rpm-ostree".toList) :
    rstrntPackage settings "install".toList packages w =
      (w.rm, (ostreeCmd settings (w.listed packages)).2.flatMap (Done.ran settings.pkgInstall)) := by
  unfold rstrntPackage operate
  rw [if_pos rfl, if_pos ostree]
  rfl

/-- An install with `rpm-ostree`: it exits with 0 only if every package is in place, and each one is
fully tried. -/
structure EachInstalled (settings : Settings) (packages : List Text) (w : World) : Prop where
  listed : (ostreeCmd settings (w.listed packages)).2.map Done.package = packages
  exit : (rstrntPackage settings "install".toList packages w).1 = 0 →
    ∀ done ∈ (ostreeCmd settings (w.listed packages)).2, InPlace done
  tried : ∀ done ∈ (ostreeCmd settings (w.listed packages)).2, FullyTried settings.retry.toNat done

/-- The package is not there, and so many attempts to install it fail. -/
def installsAfter (many : Nat) : World where
  ostree _ := ⟨1, fun k => if k < many then 1 else 0⟩
  remove _ := ⟨0, 0, 0⟩
  install _ := ⟨0, 0, 0⟩
  provides := 0
  rm := 0

/-- No attempt to install the package succeeds, and the script exits with 0. -/
theorem ostree_install_fails :
    (rstrntPackage { pkgCmd := "rpm-ostree".toList } "install".toList ["a".toList]
      (installsAfter 5)).1 = 0 ∧
      ¬EachInstalled { pkgCmd := "rpm-ostree".toList } ["a".toList] (installsAfter 5) := by
  refine ⟨rfl, fun each => ?_⟩
  rcases each.exit rfl _ List.mem_cons_self with provided | success
  · exact absurd provided (by decide)
  · exact absurd success (by decide)

/-- Every package is in place after an install with `rpm-ostree` that exits with 0, and has its own
attempts, exactly where all failures together leave one of them over, or where `rm` fails and the
counter does not matter: there is nothing to try, or only the last package fails. -/
theorem ostree_install_iff (ostree : settings.pkgCmd = "rpm-ostree".toList) (packages : List Text)
    (w : World) : EachInstalled settings packages w ↔
      (w.rm ≠ 0 ∨ Spare settings.retry.toNat (failing settings.retry.toNat (w.listed packages))) ∧
      (settings.retry.toNat = 0 ∨
        Spare settings.retry.toNat (failing settings.retry.toNat (w.listed packages)) ∨
        (failing settings.retry.toNat (w.listed packages)).dropLast.sum = 0) := by
  have listed : (ostreePackages settings.retry (w.listed packages) ⟨0, 0⟩).2.map Done.package =
      packages := ostreePackages_package.trans listed_fst
  have inPlace : (∀ done ∈ (ostreePackages settings.retry (w.listed packages) ⟨0, 0⟩).2,
      InPlace done) ↔ _ := ostreePackages_inPlace (Nat.zero_le _) rfl
  have fullyTried : (∀ done ∈ (ostreePackages settings.retry (w.listed packages) ⟨0, 0⟩).2,
      FullyTried settings.retry.toNat done) ↔ _ := ostreePackages_fullyTried (Nat.zero_le _) rfl
  rw [Nat.zero_add] at inPlace
  rw [Nat.zero_add, Nat.zero_add] at fullyTried
  have exits : (rstrntPackage settings "install".toList packages w).1 = w.rm :=
    congrArg Prod.fst (rstrntPackage_ostree ostree)
  unfold Spare
  rw [or_assoc, ← fullyTried, ← inPlace]
  constructor
  · rintro ⟨-, exit, tried⟩
    refine ⟨?_, tried⟩
    by_cases removed : w.rm = 0
    · exact .inr (exit (exits.trans removed))
    · exact .inl removed
  · rintro ⟨placed, tried⟩
    exact ⟨listed, fun exit => placed.resolve_left (not_not.mpr (exits.symm.trans exit)), tried⟩

/-- Each of two packages fails once. -/
theorem ostree_install_iff_two :
    EachInstalled { pkgCmd := "rpm-ostree".toList } ["a".toList, "b".toList] (installsAfter 1) :=
  (ostree_install_iff rfl _ _).mpr ⟨.inr (.inr (by decide)), .inr (.inl (.inr (by decide)))⟩

end Restraint.RstrntPackage
