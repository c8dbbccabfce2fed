import Restraint.FetchOnce

/-! The archive of a fetch over HTTP, from its first entry to the call of `finish_callback`. Each
read takes one entry; the counters and the disk after it are those of the whole archive up to there.
The last read finds the end, and the counters are those that `finish_callback` gets. -/
namespace Restraint.FetchUnpack
open CString (Text)
open Restraint.Fetch Restraint.FetchUri
open Transition (run run_cons run_append run_nil)

universe u
variable {File : Type u} {write : Disk File → Text → File → Disk File} {fetch : FetchData}
  {disk : Disk File} {entries : List (Entry File)} {path entryPath : Text} {access : Text → Bool}

/-! ## One entry -/

theorem read_other (other : newPath fetch entryPath = none) :
    httpArchiveReadCallback fetch (.entry entryPath) access none =
      ⟨{ fetch with nonmatchCnt := fetch.nonmatchCnt + 1 }, true, none, none⟩ := by
  rw [httpArchiveReadCallback, other]

private theorem read_extracted (some : newPath fetch entryPath = some path)
    (missing : fetch.keepchanges = false ∨ access path = false) :
    httpArchiveReadCallback fetch (.entry entryPath) access none =
      ⟨{ fetch with matchCnt := fetch.matchCnt + 1 }, true, path, strbegin fetch path⟩ := by
  rw [httpArchiveReadCallback, some]
  simp only [if_pos missing]

private theorem read_kept (some : newPath fetch entryPath = some path)
    (there : ¬(fetch.keepchanges = false ∨ access path = false)) :
    httpArchiveReadCallback fetch (.entry entryPath) access none = ⟨fetch, true, none, none⟩ := by
  rw [httpArchiveReadCallback, some]
  simp only [if_neg there]

/-! ## All entries -/

/-- The counts that an archive adds. -/
def counted (fetch : FetchData) (matching others : Nat) : FetchData :=
  { fetch with
    matchCnt := fetch.matchCnt + UInt32.ofNat matching
    nonmatchCnt := fetch.nonmatchCnt + UInt32.ofNat others }

/-- The end of the archive. -/
def atEnd (fetch : FetchData) : FetchData :=
  if fetch.matchCnt = 0 then
    fetch.setError ARCHIVE_WARN "Nothing was extracted from archive".toList
  else fetch

private theorem counted_zero : counted fetch 0 0 = fetch := by
  simp [counted]

private theorem counted_match {m n : Nat} :
    counted { fetch with matchCnt := fetch.matchCnt + 1 } m n = counted fetch (m + 1) n := by
  simp [counted, UInt32.ofNat_add, UInt32.add_assoc, UInt32.add_comm]

private theorem counted_nonmatch {m n : Nat} :
    counted { fetch with nonmatchCnt := fetch.nonmatchCnt + 1 } m n = counted fetch m (n + 1) := by
  simp [counted, UInt32.ofNat_add, UInt32.add_assoc, UInt32.add_comm]

/-- What comes of an archive when nothing fails. -/
theorem unpack_http : unpack httpArchiveReadCallback write fetch disk entries =
    ⟨atEnd (counted fetch
        (place write fetch.keepchanges disk (items (newPath fetch) entries)).1.length
        (entries.countP fun entry => (newPath fetch entry.pathname).isNone)),
      (place write fetch.keepchanges disk (items (newPath fetch) entries)).2,
      (place write fetch.keepchanges disk (items (newPath fetch) entries)).1⟩ := by
  induction entries generalizing fetch disk with
  | nil =>
    rw [items, List.map_nil, place, List.countP_nil, List.length_nil, counted_zero]
    rfl
  | cons entry entries ih =>
    rw [unpack, items, List.map_cons, place]
    cases target : newPath fetch entry.pathname with
    | none =>
      rw [read_other target, List.countP_cons_of_pos (by rw [target]; rfl), ← counted_nonmatch]
      exact ih
    | some path =>
      rw [List.countP_cons_of_neg (by simp [target])]
      by_cases missing : fetch.keepchanges = false ∨ present disk path = false
      · rw [read_extracted target missing]
        simp only [if_pos missing, List.length_cons, ← counted_match, ih]
        rfl
      · rw [read_kept target missing]
        simp only [if_neg missing, ih]
        rfl

/-! ## On the main loop -/

/-- What the disk is after the entry that was read. -/
def afterRead (write : Disk File → Text → File → Disk File) (disk : Disk File) (entry : Entry File)
    (read : Read) : Disk File :=
  match read.extracted with
  | none => disk
  | some path => write disk path entry.file

/-- The answers to the calls of `http_archive_read_callback` for an archive. -/
def answers (write : Disk File → Text → File → Disk File) :
    FetchData → Disk File → List (Entry File) → List World
  | _, disk, [] => [⟨FetchOnce.noAction, none, .eof, present disk, none⟩]
  | fetch, disk, entry :: entries =>
    let read := httpArchiveReadCallback fetch (.entry entry.pathname) (present disk) none
    ⟨FetchOnce.noAction, none, .entry entry.pathname, present disk, none⟩ ::
      answers write read.fetch (afterRead write disk entry read) entries

private theorem read_more :
    (httpArchiveReadCallback fetch (.entry entryPath) access none).more = true := by
  cases target : newPath fetch entryPath with
  | none => rw [read_other target]
  | some path =>
    by_cases missing : fetch.keepchanges = false ∨ access path = false
    · rw [read_extracted target missing]
    · rw [read_kept target missing]

variable {s : State} {id : Nat}

/-- One call of `http_archive_read_callback` that does not fail. -/
theorem step_read (found : s.loop.find? id = some .read) (safe : s.crashed = false)
    (here : s.fetch = some fetch) (header : Header) (access : Text → Bool) (good : ∀ failure, header ≠ .failed failure) :
    step s (id, ⟨FetchOnce.noAction, none, header, access, none⟩) =
      let read := httpArchiveReadCallback fetch header access none
      some (if read.more then { s with fetch := read.fetch }
        else { s with fetch := read.fetch, loop := (s.loop.add .finish).remove id }) := by
  have fine : readFails fetch ⟨FetchOnce.noAction, none, header, access, none⟩ = false := by
    cases header with
    | eof => rfl
    | failed failure => exact absurd rfl (good failure)
    | entry entryPath =>
      cases target : newPath fetch entryPath <;> simp [readFails, target]
  simp only [step, safe, found, dispatch, archiveRead, here, fine, Bool.or_false, Option.map_some]
  cases (httpArchiveReadCallback fetch header access none).more <;> rfl

/-- The main loop reads the whole archive. -/
theorem run_answers (found : s.loop.find? id = some .read) (safe : s.crashed = false)
    (here : s.fetch = some fetch) :
    run step s ((answers write fetch disk entries).map (id, ·)) =
      some { s with
        fetch := (unpack httpArchiveReadCallback write fetch disk entries).fetch
        loop := (s.loop.add .finish).remove id } := by
  induction entries generalizing s fetch disk with
  | nil =>
    rw [answers, List.map_singleton, run_cons]
    exact ⟨_, step_read found safe here .eof _ (fun _ same => by cases same), run_nil.mpr rfl⟩
  | cons entry entries ih =>
    have read := step_read found safe here (.entry entry.pathname) (present disk)
      (fun _ same => by cases same)
    simp only [read_more, if_true] at read
    rw [answers, List.map_cons, run_cons]
    refine ⟨_, read, ?_⟩
    apply Eq.trans (ih _ _ rfl)
    · rw [unpack, afterRead]
      cases (httpArchiveReadCallback fetch (.entry entry.pathname) (present disk) none).extracted <;> rfl
    · exact found
    · exact safe

/-- What `finish_callback` gets of an archive. -/
theorem finished_unpack (found : s.loop.find? id = some .read) (safe : s.crashed = false)
    (here : s.fetch = some fetch) (live : s.privateData.isSome = true) (world : World) :
    ∃ t, run step s ((answers write fetch disk entries).map (id, ·) ++ [(s.loop.next, world)]) =
        some t ∧
      t.finished = s.finished ++
        [⟨(unpack httpArchiveReadCallback write fetch disk entries).fetch.error,
          (unpack httpArchiveReadCallback write fetch disk entries).fetch.matchCnt,
          (unpack httpArchiveReadCallback write fetch disk entries).fetch.nonmatchCnt⟩] := by
  obtain ⟨cd, live⟩ := Option.isSome_iff_exists.mp live
  have next : ((s.loop.add .finish).remove id).find? s.loop.next = some .finish := by
    rw [MainLoop.find?_eq_some, MainLoop.mem_remove, MainLoop.mem_add]
    exact ⟨.inr rfl, (MainLoop.ne_next found).symm⟩
  let fetch := (unpack httpArchiveReadCallback write fetch disk entries).fetch
  refine ⟨{ s with
    loop := ((s.loop.add .finish).remove id).remove s.loop.next
    fetch := none
    privateData := none
    finished := s.finished ++ [⟨fetch.error, fetch.matchCnt, fetch.nonmatchCnt⟩] }, ?_, rfl⟩
  refine run_append.mpr ⟨_, run_answers found safe here, run_cons.mpr ⟨_, ?_, run_nil.mpr rfl⟩⟩
  simp only [step, safe, next, dispatch, archiveFinishCallback, live, Option.map_some]
  rfl

/-- A disk on which nothing else comes with a file. -/
def plainWrite (disk : Disk Nat) (path : Text) (file : Nat) : Disk Nat :=
  Function.update disk path (some file)

end Restraint.FetchUnpack
