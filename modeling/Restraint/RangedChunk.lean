import Restraint.UploadReplace

/-! What `tasks_logs_cb` does to the file of a log for a chunk with a range. The checks come before the
file is touched; what they let pass is cut to the announced size and written at its place. What range
the text of a header denotes is said apart from the numbers that the client reads in it, for it reads
some also where a number is missing or has a sign, and it reads large ones as others. -/
namespace Restraint.RangedChunk
open CString Restraint.Client Restraint.UploadReplace

variable {c c' : RecipeData} {path filename logPath header : Text} {headers : Text → Option Text}
  {data : List UInt8} {start stop total offset : Int} {file : Option (SparseFile UInt8)}

/-! ## The range of a header -/

/-- The range of a Content-Range header, its end included, and the length of the whole. -/
structure ContentRange where
  first : Nat
  last : Nat
  total : Option Nat
  deriving DecidableEq

/-- The range that the text of a header denotes: digits on both sides of the dash, and behind the
slash digits or an asterisk. There may be more than one blank behind the unit. -/
def denoted (header : Text) : Option ContentRange :=
  if "bytes ".toList.isPrefixOf header = false then none
  else
    match ((header.drop 6).dropWhile gAsciiIsspace).splitOn '-' with
    | [first, rest] =>
      match rest.splitOn '/' with
      | [last, total] =>
        (Decimal.number first).bind fun first => (Decimal.number last).bind fun last =>
          if total = ['*'] then some ⟨first, last, none⟩
          else (Decimal.number total).map fun total => ⟨first, last, some total⟩
      | _ => none
    | _ => none

/-- What the client makes of a number: `g_ascii_strtoull` saturates, and a `goffset` has a sign. -/
def goffsetOf (n : Nat) : Int := toGoffset (min n (2 ^ 64 - 1))

private theorem goffsetOf_eq {n : Nat} (bound : n < 2 ^ 63) : goffsetOf n = n := by
  unfold goffsetOf toGoffset
  rw [Nat.min_eq_left (by omega), if_pos bound]

private theorem goffsetOf_neg {n : Nat} (large : 2 ^ 63 ≤ n) : goffsetOf n < 0 := by
  unfold goffsetOf toGoffset
  rw [if_neg (by omega)]
  omega

/-- A text with one separator is the two pieces around it. -/
private theorem eq_of_splitOn {text left right : Text} {separator : Char}
    (pieces : text.splitOn separator = [left, right]) : text = left ++ separator :: right := by
  have joined : [separator].intercalate (text.splitOn separator) = text :=
    List.intercalate_splitOn separator
  rw [← joined, pieces]
  simp [List.intercalate]

/-- What a text that denotes a range consists of. -/
private theorem denoted_parts {range : ContentRange} (denotes : denoted header = some range) :
    ∃ first last total, "bytes ".toList.isPrefixOf header = true ∧
      (header.drop 6).dropWhile gAsciiIsspace = first ++ '-' :: (last ++ '/' :: total) ∧
      Decimal.number first = some range.first ∧ Decimal.number last = some range.last ∧
      (total = ['*'] ∧ range.total = none ∨
        ∃ n, Decimal.number total = some n ∧ range.total = some n) := by
  unfold denoted at denotes
  split at denotes
  · cases denotes
  rename_i unit
  split at denotes
  · rename_i first rest outer
    split at denotes
    · rename_i last total inner
      simp only [Option.bind_eq_some_iff] at denotes
      obtain ⟨low, readLow, high, readHigh, rest⟩ := denotes
      have shape := eq_of_splitOn outer
      rw [eq_of_splitOn inner] at shape
      refine ⟨first, last, total, eq_true_of_ne_false unit, shape, ?_⟩
      split at rest
      · rename_i unknown
        obtain rfl := Option.some.inj rest
        exact ⟨readLow, readHigh, .inl ⟨unknown, rfl⟩⟩
      · obtain ⟨n, readTotal, rfl⟩ := Option.map_eq_some_iff.mp rest
        exact ⟨readLow, readHigh, .inr ⟨n, readTotal, rfl⟩⟩
    · cases denotes
  · cases denotes

/-- Where the text denotes a range, the client reads its numbers. -/
theorem headersGetContentRange_denoted {range : ContentRange} (denotes : denoted header = some range)
    (held : headers "Content-Range".toList = some header) :
    headersGetContentRange headers = some (goffsetOf range.first, goffsetOf range.last,
      (range.total.map goffsetOf).getD (-1)) := by
  obtain ⟨first, last, total, unit, body, readFirst, readLast, ending⟩ := denoted_parts denotes
  obtain ⟨c, digits, shape, digit⟩ := Decimal.number_eq_cons readFirst
  have numeric : (first ++ '-' :: (last ++ '/' :: total)).head?.any Char.isDigit = true := by
    rw [shape]
    exact digit
  have low : Decimal.strtoull (first ++ '-' :: (last ++ '/' :: total)) =
      (min range.first (2 ^ 64 - 1), '-' :: (last ++ '/' :: total)) :=
    Decimal.strtoull_number readFirst (by simp)
  have high : Decimal.strtoull (last ++ '/' :: total) =
      (min range.last (2 ^ 64 - 1), '/' :: total) :=
    Decimal.strtoull_number readLast (by simp)
  unfold headersGetContentRange
  simp only [held, unit, body, numeric, low, high, Bool.true_eq_false, ↓reduceIte]
  rcases ending with ⟨rfl, unknown⟩ | ⟨n, readTotal, known⟩
  · rw [unknown]
    rfl
  · obtain ⟨c, digits, shape, digit⟩ := Decimal.number_eq_cons readTotal
    have size : Decimal.strtoull total = (min n (2 ^ 64 - 1), []) := by
      have read : Decimal.strtoull (total ++ []) = (min n (2 ^ 64 - 1), []) :=
        Decimal.strtoull_number readTotal (by simp)
      rwa [List.append_nil] at read
    have other : c ≠ '*' := by
      rintro rfl
      exact absurd digit (by decide)
    rw [known]
    split
    · rename_i star
      rw [shape] at star
      cases star
      exact absurd rfl other
    · rename_i slash
      cases slash
      rw [size]
      rfl
    · rename_i neither
      exact absurd rfl (neither _ _)

/-! ## The calls for the file -/

inductive FileOp where
  /-- `truncate`, if the file is there. -/
  | truncate (size : Nat)
  /-- `g_open` with `O_CREAT`. -/
  | create
  /-- `write` at an offset. -/
  | write (offset : Nat) (data : List UInt8)
  deriving DecidableEq

def FileOp.perform (file : Option (SparseFile UInt8)) : FileOp → Option (SparseFile UInt8)
  | .truncate size => file.map (·.truncate size)
  | .create => some (file.getD [])
  | .write offset data => file.map (·.write offset data)

/-- The calls in order. -/
def performed (ops : List FileOp) (file : Option (SparseFile UInt8)) : Option (SparseFile UInt8) :=
  ops.foldl FileOp.perform file

/-- The calls of `update_chunk`: no byte is written where `lseek` fails, or for an empty chunk. -/
def updateOps (data : List UInt8) (offset : Int) : List FileOp :=
  .create :: if offset < 0 ∨ data = [] then [] else [.write offset.toNat data]

/-- The two checks of a range: the length of the body, and the end against the total. -/
def Passes (start stop total : Int) (data : List UInt8) : Prop :=
  (data.length : Int) = (stop - start + 1) % 2 ^ 64 ∧ ¬(0 < total ∧ total < stop)

instance : Decidable (Passes start stop total data) := inferInstanceAs (Decidable (_ ∧ _))

/-- The calls for a chunk with a range. -/
def rangedOps (start stop total : Int) (data : List UInt8) : List FileOp :=
  if Passes start stop total data then
    (if 0 < total then [.truncate total.toNat] else []) ++ updateOps data start
  else []

/-- The task of the path is one of the client's. -/
def known (c : RecipeData) (path : Text) : Bool :=
  (gStrsplit path)[4]?.any fun taskId => c.tasks.any (·.id = taskId)

/-- The calls of `tasks_logs_cb`. -/
def logOps (c : RecipeData) (path : Text) (start stop total : Int) (data : List UInt8) : List FileOp :=
  if known c path then rangedOps start stop total data else []

/-- The name of the file. -/
def logName (c : RecipeData) (path : Text) : Text :=
  c.runDir ++ '/' :: gStrjoinv ((gStrsplit path).drop 1)

/-! ## The calls are those of the client -/

theorem updateChunk_files : (updateChunk c filename data offset).files =
    Function.update c.files filename (performed (updateOps data offset) (c.files filename)) := by
  unfold updateChunk updateOps
  by_cases nothing : offset < 0 ∨ data = []
  · simp only [nothing, ↓reduceIte]
    rfl
  · simp only [nothing, ↓reduceIte]
    rfl

private theorem performed_append {ops more : List FileOp} :
    performed (ops ++ more) file = performed more (performed ops file) := List.foldl_append

/-- A file that was cut, perhaps, and then written to. -/
theorem updateChunk_after {cut : List FileOp}
    (same : c'.files = Function.update c.files filename (performed cut (c.files filename))) :
    (updateChunk c' filename data offset).files =
      Function.update c.files filename
        (performed (cut ++ updateOps data offset) (c.files filename)) := by
  rw [updateChunk_files, same, Function.update_self, Function.update_idem, performed_append]

private theorem storeLog_files {logsXpath : LogsXpath} {shortPath : Option Text}
    (range : headersGetContentRange headers = some (start, stop, total)) :
    (storeLog c logPath filename logsXpath shortPath headers data).files =
      Function.update c.files filename
        (performed (rangedOps start stop total data) (c.files filename)) := by
  unfold storeLog rangedOps
  simp only [range]
  by_cases length : (data.length : Int) = (stop - start + 1) % 2 ^ 64
  · by_cases beyond : 0 < total ∧ total < stop
    · have refused : ¬Passes start stop total data := fun passes => passes.2 beyond
      simp only [length, beyond, refused, ne_eq, not_true_eq_false, and_self, ↓reduceIte]
      exact (Function.update_eq_self _ _).symm
    · have passes : Passes start stop total data := ⟨length, beyond⟩
      rw [if_neg (not_not.mpr length), if_neg beyond, if_pos passes]
      apply updateChunk_after
      have recorded (c : RecipeData) :
          (if start = 0 then recordLog c logsXpath ⟨logPath, shortPath⟩ else c).files = c.files := by
        split
        · exact recordLog_files
        · rfl
      rw [recorded]
      split
      · rfl
      · exact (Function.update_eq_self _ _).symm
  · have refused : ¬Passes start stop total data := fun passes => length passes.1
    simp only [length, refused, ne_eq, not_false_eq_true, ↓reduceIte]
    exact (Function.update_eq_self _ _).symm

/-- The file after a chunk is what the calls make of it, and the other files are as before. -/
theorem tasksLogsCb_files (range : headersGetContentRange headers = some (start, stop, total))
    (called : tasksLogsCb c path headers (.string data) = some c') :
    c'.files = Function.update c.files (logName c path)
      (performed (logOps c path start stop total data) (c.files (logName c path))) := by
  unfold tasksLogsCb at called
  unfold logOps known
  cases fourth : (gStrsplit path)[4]? with
  | none => simp [fourth] at called
  | some taskId =>
    simp only [fourth, Option.any_some] at called ⊢
    split at called
    · rename_i unknown
      obtain rfl := Option.some.inj called
      rw [if_neg (by simp [unknown])]
      exact (Function.update_eq_self _ _).symm
    · rename_i present
      rw [if_pos (eq_true_of_ne_false present)]
      split at called
      · obtain rfl := Option.some.inj called
        exact storeLog_files range
      · split at called
        · cases called
        · obtain rfl := Option.some.inj called
          exact storeLog_files range

/-! ## What is checked -/

/-- A range of the length of the body, before the end of a total that it gives. -/
structure InRange (range : ContentRange) (data : List UInt8) : Prop where
  ordered : range.first ≤ range.last
  length : range.last - range.first + 1 = data.length
  total : ∀ total ∈ range.total, range.last < total

/-- The file is touched only for a header that denotes a range as it should be, a written file is no
longer than the total, and for a chunk that is not written it is left alone. -/
structure Guarded (ops : List FileOp) (header : Text) (data : List UInt8)
    (file file' : Option (SparseFile UInt8)) : Prop where
  checked : ops ≠ [] → ∃ range ∈ denoted header, InRange range data
  bounded : (∃ offset bytes, .write offset bytes ∈ ops) → ∀ range ∈ denoted header,
    ∀ total ∈ range.total, ∀ stored ∈ file', stored.length ≤ total
  rejected : (∀ offset bytes, .write offset bytes ∉ ops) → ops = [] ∧ file' = file

/-- What the two checks leave out, of a range that the header denotes: a start that is negative as a
`goffset`, an empty body, lengths that agree only modulo `2 ^ 64`, and a total that is 0 or just the
end, or that is not beyond an end which is negative as a `goffset`. -/
structure Sound (range : ContentRange) (data : List UInt8) : Prop where
  inside : range.first < 2 ^ 63
  occupied : data ≠ []
  length : range.first + data.length = range.last + 1
  total : ∀ total ∈ range.total,
    total ≠ 0 ∧ total ≠ range.last ∧ (2 ^ 63 ≤ range.last → range.last < total)

private theorem guarded_nil : Guarded [] header data file file where
  checked := fun touched => absurd rfl touched
  bounded := by
    rintro ⟨offset, bytes, member⟩
    cases member
  rejected := fun _ => ⟨rfl, rfl⟩

private theorem mem_updateOps {place : Nat} {bytes : List UInt8} :
    .write place bytes ∈ updateOps data start ↔
      0 ≤ start ∧ data ≠ [] ∧ place = start.toNat ∧ bytes = data := by
  unfold updateOps
  by_cases nothing : start < 0 ∨ data = []
  · have none : ¬(0 ≤ start ∧ data ≠ [] ∧ place = start.toNat ∧ bytes = data) := by
      rintro ⟨inside, occupied, -⟩
      exact nothing.elim (by omega) occupied
    simp [nothing, none]
  · obtain ⟨inside, occupied⟩ := not_or.mp nothing
    simp [inside, occupied, Int.not_lt.mp inside]

private theorem mem_rangedOps {place : Nat} {bytes : List UInt8}
    (passes : Passes start stop total data) :
    .write place bytes ∈ rangedOps start stop total data ↔
      0 ≤ start ∧ data ≠ [] ∧ place = start.toNat ∧ bytes = data := by
  rw [rangedOps, if_pos passes, List.mem_append, mem_updateOps]
  apply or_iff_right
  split <;> simp

section Checks
variable {range : ContentRange}

/-- A sound range that passes the checks ends before its total. -/
theorem Sound.before_total (sound : Sound range data)
    (passes : Passes (goffsetOf range.first) (goffsetOf range.last)
      ((range.total.map goffsetOf).getD (-1)) data) :
    ∀ total ∈ range.total, range.last < total := by
  intro total given
  obtain ⟨positive, apart, beyond⟩ := sound.total total given
  by_cases large : 2 ^ 63 ≤ range.last
  · exact beyond large
  by_cases huge : 2 ^ 63 ≤ total
  · omega
  have checked := passes.2
  rw [given, Option.map_some, Option.getD_some, goffsetOf_eq (by omega), goffsetOf_eq (by omega)]
    at checked
  omega

/-- A chunk with a sound range makes the file no longer than the total. -/
theorem performed_bounded (sound : Sound range data)
    (passes : Passes (goffsetOf range.first) (goffsetOf range.last)
      ((range.total.map goffsetOf).getD (-1)) data)
    (fits : ∀ stored ∈ file, stored.length < 2 ^ 63) :
    ∀ total ∈ range.total, ∀ stored ∈ performed (rangedOps (goffsetOf range.first)
      (goffsetOf range.last) ((range.total.map goffsetOf).getD (-1)) data) file,
      stored.length ≤ total := by
  intro total given
  have below := sound.before_total passes total given
  obtain ⟨inside, occupied, length, -⟩ := sound
  have written : ¬(goffsetOf range.first < 0 ∨ data = []) := by
    rw [goffsetOf_eq inside]
    exact not_or.mpr ⟨by omega, occupied⟩
  rw [rangedOps, if_pos passes, updateOps, if_neg written, goffsetOf_eq inside, given,
    Option.map_some, Option.getD_some]
  by_cases small : total < 2 ^ 63
  · rw [goffsetOf_eq small, if_pos (by omega)]
    rintro stored ⟨⟩
    rw [Int.toNat_natCast, Int.toNat_natCast]
    have cut : ((FileOp.perform file (.truncate total)).getD []).length ≤ total := by
      cases file with
      | none => exact Nat.zero_le _
      | some file => exact Nat.le_of_eq SparseFile.length_truncate
    rw [SparseFile.length_write]
    omega
  · rw [if_neg (by have := goffsetOf_neg (Nat.le_of_not_lt small); omega)]
    rintro stored ⟨⟩
    have short : (file.getD []).length < 2 ^ 63 := by
      cases file with
      | none => decide
      | some file => exact fits file rfl
    rw [SparseFile.length_write, Int.toNat_natCast]
    omega

private theorem rangedOps_guarded_iff (held : headers "Content-Range".toList = some header)
    (read : headersGetContentRange headers = some (start, stop, total))
    (passes : Passes start stop total data) (fits : ∀ stored ∈ file, stored.length < 2 ^ 63) :
    Guarded (rangedOps start stop total data) header data file
        (performed (rangedOps start stop total data) file) ↔
      ∃ range ∈ denoted header, Sound range data := by
  have touched : rangedOps start stop total data ≠ [] := by
    rw [rangedOps, if_pos passes]
    exact List.append_ne_nil_of_right_ne_nil _ (List.cons_ne_nil _ _)
  constructor
  · rintro ⟨checked, -, rejected⟩
    obtain ⟨range, denotes, ordered, length, limits⟩ := checked touched
    have written : 0 ≤ start ∧ data ≠ [] := by
      by_contra unwritten
      refine touched (rejected fun place bytes member => ?_).1
      obtain ⟨inside, occupied, -⟩ := (mem_rangedOps passes).mp member
      exact unwritten ⟨inside, occupied⟩
    have numbers := read.symm.trans (headersGetContentRange_denoted denotes held)
    simp only [Option.some.injEq, Prod.mk.injEq] at numbers
    obtain ⟨rfl, -, -⟩ := numbers
    refine ⟨range, denotes, ?_, written.2, by omega, fun total given => ?_⟩
    · by_contra large
      exact absurd (goffsetOf_neg (Nat.le_of_not_lt large)) (Int.not_lt.mpr written.1)
    · have below := limits total given
      omega
  · rintro ⟨range, denotes, sound⟩
    have numbers := read.symm.trans (headersGetContentRange_denoted denotes held)
    simp only [Option.some.injEq, Prod.mk.injEq] at numbers
    obtain ⟨rfl, rfl, rfl⟩ := numbers
    have positive := List.length_pos_iff.mpr sound.occupied
    have length := sound.length
    refine ⟨fun _ => ⟨range, denotes, by omega, by omega, sound.before_total passes⟩, ?_, ?_⟩
    · rintro - other denotes' total given
      obtain rfl := Option.some.inj (denotes.symm.trans denotes')
      exact performed_bounded sound passes fits total given
    · intro unwritten
      have inside : (0 : Int) ≤ goffsetOf range.first := by
        rw [goffsetOf_eq sound.inside]
        omega
      exact absurd ((mem_rangedOps passes).mpr ⟨inside, sound.occupied, rfl, rfl⟩) (unwritten _ _)

end Checks

/-- **A chunk with a range is checked before it touches the file, and the file is no longer than the
total, exactly where it is refused, or else its header denotes a range of those that the two checks
do not leave out.** A file is at most as long as the largest `goffset`. -/
theorem ranged_chunk_checked_iff (held : headers "Content-Range".toList = some header)
    (read : headersGetContentRange headers = some (start, stop, total))
    (fits : ∀ stored ∈ c.files (logName c path), stored.length < 2 ^ 63)
    (called : tasksLogsCb c path headers (.string data) = some c') :
    c'.files = Function.update c.files (logName c path)
        (performed (logOps c path start stop total data) (c.files (logName c path))) ∧
      (Guarded (logOps c path start stop total data) header data
          (c.files (logName c path)) (c'.files (logName c path)) ↔
        (known c path = true → Passes start stop total data →
          ∃ range ∈ denoted header, Sound range data)) := by
  have files := tasksLogsCb_files read called
  refine ⟨files, ?_⟩
  rw [files, Function.update_self]
  unfold logOps
  by_cases found : known c path = true
  · rw [if_pos found]
    by_cases passes : Passes start stop total data
    · rw [rangedOps_guarded_iff held read passes fits]
      exact ⟨fun sound _ _ => sound, fun sound => sound found passes⟩
    · rw [rangedOps, if_neg passes]
      exact ⟨fun _ _ passed => absurd passed passes, fun _ => guarded_nil⟩
  · rw [if_neg found]
    exact ⟨fun _ present => absurd present found, fun _ => guarded_nil⟩

/-! ## One byte too many -/

def exampleHeaders (range : Text) (key : Text) : Option Text :=
  if key = "Content-Range".toList then some range else none

theorem ranged_chunk_checked_iff_byte :
    ∃ c', tasksLogsCb exampleClient "/recipes/1/tasks/2/logs/a".toList
        (exampleHeaders "bytes 0-0/1".toList) (.string [1]) = some c' ∧
      Guarded (logOps exampleClient "/recipes/1/tasks/2/logs/a".toList 0 0 1 [1])
        "bytes 0-0/1".toList [1]
        (exampleClient.files (logName exampleClient "/recipes/1/tasks/2/logs/a".toList))
        (c'.files (logName exampleClient "/recipes/1/tasks/2/logs/a".toList)) :=
  have held : exampleHeaders "bytes 0-0/1".toList "Content-Range".toList = some "bytes 0-0/1".toList :=
    rfl
  ⟨_, rfl, (ranged_chunk_checked_iff held (by decide) (by rintro stored ⟨⟩) rfl).2.mpr
    fun _ _ => ⟨⟨0, 0, some 1⟩, by decide, by decide, by decide, by decide, by decide⟩⟩

/-- Two bytes are written where the total is one, and a byte where the header has no end. -/
theorem end_at_total_written :
    (∃ c', tasksLogsCb exampleClient "/recipes/1/tasks/2/logs/a".toList
        (exampleHeaders "bytes 0-1/1".toList) (.string [1, 2]) = some c' ∧
      headersGetContentRange (exampleHeaders "bytes 0-1/1".toList) = some (0, 1, 1) ∧
      c'.files (logName exampleClient "/recipes/1/tasks/2/logs/a".toList) = some [some 1, some 2] ∧
      ¬Guarded (logOps exampleClient "/recipes/1/tasks/2/logs/a".toList 0 1 1 [1, 2])
        "bytes 0-1/1".toList [1, 2]
        (exampleClient.files (logName exampleClient "/recipes/1/tasks/2/logs/a".toList))
        (c'.files (logName exampleClient "/recipes/1/tasks/2/logs/a".toList))) ∧
    ∃ c', tasksLogsCb exampleClient "/recipes/1/tasks/2/logs/a".toList
        (exampleHeaders "bytes 0-/1".toList) (.string [1]) = some c' ∧
      headersGetContentRange (exampleHeaders "bytes 0-/1".toList) = some (0, 0, 1) ∧
      c'.files (logName exampleClient "/recipes/1/tasks/2/logs/a".toList) = some [some 1] ∧
      ¬Guarded (logOps exampleClient "/recipes/1/tasks/2/logs/a".toList 0 0 1 [1])
        "bytes 0-/1".toList [1]
        (exampleClient.files (logName exampleClient "/recipes/1/tasks/2/logs/a".toList))
        (c'.files (logName exampleClient "/recipes/1/tasks/2/logs/a".toList)) := by
  refine ⟨⟨_, rfl, by decide, rfl, fun guarded => ?_⟩, _, rfl, by decide, rfl, fun guarded => ?_⟩
  · obtain ⟨range, denotes, inRange⟩ := guarded.checked (by decide)
    have shown : denoted "bytes 0-1/1".toList = some ⟨0, 1, some 1⟩ := by decide
    obtain rfl := Option.some.inj (shown.symm.trans denotes)
    exact absurd (inRange.total 1 rfl) (by decide)
  · obtain ⟨range, denotes, -⟩ := guarded.checked (by decide)
    have shown : denoted "bytes 0-/1".toList = none := by decide
    cases shown.symm.trans denotes

end Restraint.RangedChunk
