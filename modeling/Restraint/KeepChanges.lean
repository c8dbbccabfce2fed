import Restraint.FetchGit
import Restraint.FetchUnpack

/-! Fetching with `keepchanges` onto a disk that has some of the files already. The fetch over
HTTP takes an archive of which it extracts nothing for a failure; the fetch from a git daemon
does not. -/
namespace Restraint.KeepChanges
open CString (Text gBuildFilename)
open Restraint.Fetch Restraint.FetchUri Restraint.FetchUnpack
open Restraint.FetchGit (gitArchiveReadCallback)

universe u
variable {File : Type u} {write : Disk File → Text → File → Disk File} {disk : Disk File}
  {list : List (Item File)} {archive : List (Entry File)} {path : Text} {file : File}
  {fetch : FetchData}

/-- A fetch that keeps changes finishes without error; what is there is left as it is, and what
is missing is extracted. -/
structure KeepsChanges (write : Disk File → Text → File → Disk File) (disk : Disk File)
    (list : List (Item File)) (unpacked : Unpacked File) : Prop where
  error : unpacked.fetch.error = none
  extracted : unpacked.extracted = (place write true disk list).1
  missing : ∀ entry ∈ unpacked.extracted, disk entry.2 = none
  complete : ∀ item ∈ list, ∀ path ∈ item.target, unpacked.disk path ≠ none
  untouched : ∀ path file, disk path = some file → unpacked.disk path = some file

/-! ## What is placed -/

theorem present_eq_false : present disk path = false ↔ disk path = none := by
  rw [present, Option.isSome_eq_false_iff, Option.isNone_iff_eq_none]

/-- The entries, one after the other. -/
theorem place_cons {item : Item File} : place write true disk (item :: list) =
    match item.target with
    | none => place write true disk list
    | some path =>
      if disk path = none then
        ((item.pathname, path) :: (place write true (write disk path item.file) list).1,
          (place write true (write disk path item.file) list).2)
      else place write true disk list := by
  rw [place]
  cases item.target with
  | none => rfl
  | some path => simp only [Bool.true_eq_false, false_or, present_eq_false]

private theorem write_untouched (writes : Writes write) {other : Text} (missing : disk other = none)
    (there : disk path = some file) {more : File} : write disk other more path = some file := by
  refine writes.others disk other more path file ?_ there
  rintro rfl
  rw [there] at missing
  cases missing

private theorem place_untouched (writes : Writes write) (there : disk path = some file) :
    (place write true disk list).2 path = some file := by
  induction list generalizing disk with
  | nil => exact there
  | cons item list ih =>
    rw [place_cons]
    split
    · exact ih there
    · split
      · rename_i missing
        exact ih (write_untouched writes missing there)
      · exact ih there

private theorem place_missing (writes : Writes write) :
    ∀ entry ∈ (place write true disk list).1, disk entry.2 = none := by
  induction list generalizing disk with
  | nil => exact fun entry member => (List.not_mem_nil member).elim
  | cons item list ih =>
    rw [place_cons]
    split
    · exact ih
    · rename_i path _
      split
      · rename_i missing
        refine List.forall_mem_cons.mpr ⟨missing, fun later member => ?_⟩
        -- what an earlier entry brought would be there
        have after := ih later member
        cases before : disk later.2 with
        | none => rfl
        | some file =>
          rw [write_untouched writes missing before] at after
          cases after
      · exact ih

private theorem place_complete (writes : Writes write) : ∀ item ∈ list, ∀ path ∈ item.target,
    (place write true disk list).2 path ≠ none := by
  induction list generalizing disk with
  | nil => exact fun entry member => (List.not_mem_nil member).elim
  | cons item list ih =>
    intro other member path held
    rw [place_cons]
    rcases List.mem_cons.mp member with rfl | later
    · rw [Option.mem_def.mp held]
      simp only
      split
      · rw [place_untouched writes (writes.target disk path other.file)]
        exact Option.some_ne_none _
      · rename_i there
        obtain ⟨file, there⟩ := Option.ne_none_iff_exists'.mp there
        rw [place_untouched writes there]
        exact Option.some_ne_none _
    · split
      · exact ih other later path held
      · split <;> exact ih other later path held

/-- Nothing is placed if and only if nothing is missing. -/
theorem place_eq_nil : (place write true disk list).1 = [] ↔
    ∀ item ∈ list, ∀ path ∈ item.target, disk path ≠ none := by
  induction list generalizing disk with
  | nil => exact iff_of_true rfl fun item member => (List.not_mem_nil member).elim
  | cons item list ih =>
    rw [place_cons, List.forall_mem_cons]
    cases held : item.target with
    | none => simp [ih]
    | some path =>
      by_cases missing : disk path = none
      · simp [missing]
      · simp [missing, ih]

/-- What was placed completely is not placed again. -/
theorem place_again (writes : Writes write) :
    (place write true (place write true disk list).2 list).1 = [] :=
  place_eq_nil.mpr (place_complete writes)

/-! ## The fetches -/

/-- A fetch over HTTP that keeps changes. -/
def fetchUri (write : Disk File → Text → File → Disk File) (fragment : Option Text)
    (basePath : Text) (disk : Disk File) (archive : List (Entry File)) : Unpacked File :=
  unpack httpArchiveReadCallback write ⟨fragment, basePath, true, none, 0, 0⟩ disk archive

/-- A fetch from a git daemon that keeps changes. -/
def fetchGit (write : Disk File → Text → File → Disk File) (fragment : Option Text)
    (basePath : Text) (disk : Disk File) (archive : List (Entry File)) : Unpacked File :=
  unpack gitArchiveReadCallback write ⟨fragment, basePath, true, none, 0, 0⟩ disk archive

/-- The entries with their targets, when they match the fragment. -/
def uriItems (fragment : Option Text) (basePath : Text) (archive : List (Entry File)) :
    List (Item File) :=
  items (newPath ⟨fragment, basePath, true, none, 0, 0⟩) archive

/-- All entries with their targets. -/
def gitItems (basePath : Text) (archive : List (Entry File)) : List (Item File) :=
  items (fun entryPath => some (gBuildFilename [basePath, entryPath])) archive

private theorem keepsChanges_iff (writes : Writes write) :
    KeepsChanges write disk list
        ⟨fetch, (place write true disk list).2, (place write true disk list).1⟩ ↔
      fetch.error = none :=
  ⟨KeepsChanges.error, fun good => ⟨good, rfl, place_missing writes, place_complete writes,
    fun _ _ => place_untouched writes⟩⟩

/-- What a call of `git_archive_read_callback` comes to. -/
theorem git_read {entryPath : Text} {access : Text → Bool} :
    gitArchiveReadCallback fetch (.entry entryPath) access none =
      if fetch.keepchanges = false ∨ access (gBuildFilename [fetch.basePath, entryPath]) = false then
        ⟨{ fetch with matchCnt := fetch.matchCnt + 1 }, true,
          some (gBuildFilename [fetch.basePath, entryPath]), some entryPath⟩
      else ⟨fetch, true, none, some entryPath⟩ := rfl

private theorem unpack_git (archive : List (Entry File)) (fetch : FetchData) (disk : Disk File)
    (keeps : fetch.keepchanges = true) :
    ∃ matchCnt, unpack gitArchiveReadCallback write fetch disk archive =
      ⟨{ fetch with matchCnt := matchCnt }, (place write true disk (gitItems fetch.basePath archive)).2,
        (place write true disk (gitItems fetch.basePath archive)).1⟩ := by
  induction archive generalizing fetch disk with
  | nil => exact ⟨fetch.matchCnt, rfl⟩
  | cons entry archive ih =>
    rw [unpack, gitItems, items, List.map_cons, place_cons, git_read]
    simp only [keeps, Bool.true_eq_false, false_or, present_eq_false]
    let path := gBuildFilename [fetch.basePath, entry.pathname]
    by_cases missing : disk path = none
    · obtain ⟨matchCnt, same⟩ :=
        ih { fetch with matchCnt := fetch.matchCnt + 1 } (write disk path entry.file) keeps
      refine ⟨matchCnt, ?_⟩
      simp only [path, keeps] at missing same
      simp only [if_pos missing, same]
      rfl
    · obtain ⟨matchCnt, same⟩ := ih fetch disk keeps
      refine ⟨matchCnt, ?_⟩
      simp only [path, keeps] at missing same
      simp only [if_neg missing, same]
      rfl

/-- A fetch from a git daemon keeps changes. -/
theorem fetchGit_keeps (writes : Writes write) (fragment : Option Text) (basePath : Text) :
    KeepsChanges write disk (gitItems basePath archive)
      (fetchGit write fragment basePath disk archive) := by
  obtain ⟨matchCnt, same⟩ : ∃ matchCnt, fetchGit write fragment basePath disk archive = _ :=
    unpack_git archive ⟨fragment, basePath, true, none, 0, 0⟩ disk rfl
  rw [same, keepsChanges_iff writes]

/-- What a fetch over HTTP comes to. -/
theorem fetchUri_eq (fragment : Option Text) (basePath : Text) :
    fetchUri write fragment basePath disk archive =
      ⟨atEnd (counted ⟨fragment, basePath, true, none, 0, 0⟩
          (place write true disk (uriItems fragment basePath archive)).1.length
          (archive.countP fun entry =>
            (newPath ⟨fragment, basePath, true, none, 0, 0⟩ entry.pathname).isNone)),
        (place write true disk (uriItems fragment basePath archive)).2,
        (place write true disk (uriItems fragment basePath archive)).1⟩ := unpack_http

/-- A fetch over HTTP that is repeated fails. -/
theorem fetchUri_again (writes : Writes write) (fragment : Option Text) (basePath : Text) :
    (fetchUri write fragment basePath (fetchUri write fragment basePath disk archive).disk
      archive).fetch.error =
        some ⟨ARCHIVE_WARN, "Nothing was extracted from archive".toList⟩ := by
  rw [fetchUri_eq, fetchUri_eq, place_again writes]
  rfl

/-- **A fetch over HTTP keeps changes as one from a git daemon does if and only if the number of
matching files that are missing is not a multiple of `2 ^ 32`**, such as 0. -/
theorem keeps_changes_iff (write : Disk File → Text → File → Disk File) (writes : Writes write)
    (fragment : Option Text) (basePath : Text) (disk : Disk File) (archive : List (Entry File)) :
    KeepsChanges write disk (uriItems fragment basePath archive)
          (fetchUri write fragment basePath disk archive) ∧
        KeepsChanges write disk (gitItems basePath archive)
          (fetchGit write fragment basePath disk archive) ↔
      ¬2 ^ 32 ∣ (place write true disk (uriItems fragment basePath archive)).1.length := by
  rw [and_iff_left (fetchGit_keeps writes fragment basePath), fetchUri_eq, keepsChanges_iff writes]
  generalize (place write true disk (uriItems fragment basePath archive)).1.length = n
  have zero : (0 : UInt32) + UInt32.ofNat n = 0 ↔ 2 ^ 32 ∣ n := by
    rw [UInt32.zero_add, ← UInt32.toNat_inj, UInt32.toNat_ofNat', Nat.dvd_iff_mod_eq_zero]
    rfl
  simp only [atEnd, counted, zero]
  split
  · rename_i wraps
    exact iff_of_false (by simp [FetchData.setError]) (not_not_intro wraps)
  · rename_i some
    exact iff_of_true rfl some

private theorem plainWrites : Writes plainWrite where
  target _ _ _ := Function.update_self ..
  others _ _ _ _ _ other there := (Function.update_of_ne other ..).trans there

/-- Two files in an archive, of which the first is on the disk. -/
def twoFiles : List (Entry Nat) := [⟨"a".toList, 1⟩, ⟨"b".toList, 2⟩]

def firstOnly : Disk Nat := Function.update (fun _ => none) "/tmp/a".toList (some 7)

theorem keeps_changes_iff_first :
    KeepsChanges plainWrite firstOnly (uriItems none "/tmp".toList twoFiles)
        (fetchUri plainWrite none "/tmp".toList firstOnly twoFiles) ∧
      KeepsChanges plainWrite firstOnly (gitItems "/tmp".toList twoFiles)
        (fetchGit plainWrite none "/tmp".toList firstOnly twoFiles) :=
  (keeps_changes_iff plainWrite plainWrites none "/tmp".toList firstOnly twoFiles).mpr (by decide)

/-- When both files are there the fetch over HTTP fails. -/
theorem keeps_changes_fails :
    (fetchUri plainWrite none "/tmp".toList (fun _ => some 7) twoFiles).fetch.error =
        some ⟨ARCHIVE_WARN, "Nothing was extracted from archive".toList⟩ ∧
      ¬KeepsChanges plainWrite (fun _ => some 7) (uriItems none "/tmp".toList twoFiles)
        (fetchUri plainWrite none "/tmp".toList (fun _ => some 7) twoFiles) ∧
      (fetchGit plainWrite none "/tmp".toList (fun _ => some 7) twoFiles).fetch.error = none := by
  have failed : (fetchUri plainWrite none "/tmp".toList (fun _ => some 7) twoFiles).fetch.error =
      some ⟨ARCHIVE_WARN, "Nothing was extracted from archive".toList⟩ := by decide
  refine ⟨failed, fun keeps => ?_, by decide⟩
  rw [keeps.error] at failed
  cases failed

end Restraint.KeepChanges
