import Restraint.Lib.CString

/-! What the ways to fetch share: the data of `fetch.h`, and an archive that is read entry by entry
onto the disk. Which paths an entry gets and when it is written differ between HTTP and git; what is
on the disk at the end is compared through one function of the archive, so that the two ways need
not be taken step by step. -/
namespace Restraint.Fetch
open CString (Text gBuildFilename)

/-- An error of the domain `RESTRAINT_FETCH_LIBARCHIVE_ERROR`. -/
structure GError where
  code : Int
  message : Text
  deriving DecidableEq

/-- `FetchData`. -/
structure FetchData where
  /-- `url->fragment`. -/
  fragment : Option Text
  basePath : Text
  keepchanges : Bool
  error : Option GError
  matchCnt : UInt32
  nonmatchCnt : UInt32
  deriving DecidableEq

/-- `g_set_error`: an error that is set stays. -/
def FetchData.setError (fetch : FetchData) (code : Int) (message : Text) : FetchData :=
  { fetch with error := fetch.error <|> some ⟨code, message⟩ }

/-- A call of libarchive that fails: its result, and the text of `archive_error_string`. -/
structure Failure where
  r : Int
  text : Text
  deriving DecidableEq

/-- The answer of `archive_read_next_header`. -/
inductive Header where
  | eof
  | entry (pathname : Text)
  | failed (failure : Failure)
  deriving DecidableEq

/-- What a call of a function comes to that reads an entry. -/
structure Read where
  fetch : FetchData
  /-- It is called again; otherwise the fetch finishes. -/
  more : Bool
  /-- The pathname under which an entry was extracted. -/
  extracted : Option Text
  /-- What `archive_entry_callback` was told. -/
  reported : Option Text

/-! ## A whole archive -/

universe u

/-- What is on the disk: the files under their paths. -/
abbrev Disk (File : Type u) := Text → Option File

variable {File : Type u}

/-- Whether `access` finds a path. -/
def present (disk : Disk File) (path : Text) : Bool := (disk path).isSome

/-- An entry of an archive. -/
structure Entry (File : Type u) where
  pathname : Text
  file : File

/-- How libarchive puts a file on the disk: it is under its path afterwards, and what was there
under other paths is still there. Directories above it may come with it. -/
structure Writes (write : Disk File → Text → File → Disk File) : Prop where
  target : ∀ disk path file, write disk path file path = some file
  others : ∀ disk path file other old, other ≠ path → disk other = some old →
    write disk path file other = some old

/-- What came of an archive: the entries that were extracted stand with their new paths. -/
structure Unpacked (File : Type u) where
  fetch : FetchData
  disk : Disk File
  extracted : List (Text × Text)

section
variable (callback : FetchData → Header → (Text → Bool) → Option Failure → Read)
variable (write : Disk File → Text → File → Disk File)

/-- The calls for the entries of an archive and for its end, when nothing fails. -/
def unpack : FetchData → Disk File → List (Entry File) → Unpacked File
  | fetch, disk, [] => ⟨(callback fetch .eof (present disk) none).fetch, disk, []⟩
  | fetch, disk, entry :: entries =>
    let read := callback fetch (.entry entry.pathname) (present disk) none
    match read.extracted with
    | none => unpack read.fetch disk entries
    | some path =>
      let rest := unpack read.fetch (write disk path entry.file) entries
      { rest with extracted := (entry.pathname, path) :: rest.extracted }

end

/-- An entry with the path that it has to go to, if it has to go anywhere. -/
structure Item (File : Type u) where
  pathname : Text
  target : Option Text
  file : File

def items (target : Text → Option Text) (entries : List (Entry File)) : List (Item File) :=
  entries.map fun entry => ⟨entry.pathname, target entry.pathname, entry.file⟩

/-- What there is to extract: the entries that have a target, without those whose target is
there already if changes are kept. -/
def place (write : Disk File → Text → File → Disk File) (keepchanges : Bool) :
    Disk File → List (Item File) → List (Text × Text) × Disk File
  | disk, [] => ([], disk)
  | disk, item :: items =>
    match item.target with
    | none => place write keepchanges disk items
    | some path =>
      if keepchanges = false ∨ present disk path = false then
        let rest := place write keepchanges (write disk path item.file) items
        ((item.pathname, path) :: rest.1, rest.2)
      else place write keepchanges disk items

end Restraint.Fetch
