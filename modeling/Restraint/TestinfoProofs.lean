import Restraint.Testinfo

/-! A `testinfo.desc` is parsed by its lines, however `read` cuts it, and which lines the parser
does not survive. What a line does to the metadata is left as it is; the buffer, the pieces and the
end of the file are what is proved away. A line that the parser does not survive is told by its
first byte, its key and its colon. -/
namespace Restraint.TestinfoProofs
open CString (Text)
open Restraint.TimeString Restraint.Testinfo
open Lines

/-- The lines that have ended, without a carriage return at the end and without the empty ones. -/
def endedLines (content : Text) : List Text :=
  ((ended '\n' content).map eraseCr).filter (· ≠ [])

/-- The lines of a content: those that a newline ends, and what comes behind the last newline. -/
def contentLines (content : Text) : List Text :=
  endedLines content ++ [unfinished '\n' content].filter (· ≠ [])

/-- The reads give a content and then the end of the file. Some of them may be interrupted. -/
inductive Splits : List Read → Text → Prop
  | nil : Splits [] []
  | eof (reads : List Read) : Splits (.data [] :: reads) []
  | data {bytes content : Text} {reads : List Read} (nonempty : bytes ≠ [])
      (later : Splits reads content) : Splits (.data bytes :: reads) (bytes ++ content)
  | again {errno : Nat} {strerror content : Text} {reads : List Read}
      (temporary : errno = EINTR ∨ errno = EAGAIN) (later : Splits reads content) :
      Splits (.failed errno strerror :: reads) content

variable {p : Parsing} {s : Parser} {buffer data line content : Text} {lines : List Text}
  {reads : List Read}

/-! ## Lines in a buffer -/

@[simp] theorem endedLines_of_not_mem (inside : '\n' ∉ content) : endedLines content = [] := by
  rw [endedLines, ended_of_not_mem inside]
  rfl

private theorem endedLines_line (inside : '\n' ∉ line) :
    endedLines (line ++ '\n' :: data) = [eraseCr line].filter (· ≠ []) ++ endedLines data := by
  rw [endedLines, ended_line inside, List.map_cons, List.filter_cons, endedLines]
  split <;> simp_all

private theorem endedLines_append (content data : Text) : endedLines (content ++ data) =
    endedLines content ++ endedLines (unfinished '\n' content ++ data) := by
  rw [endedLines, ended_append, List.map_append, List.filter_append, endedLines, endedLines]

/-- A flush parses the buffer, unless it is empty. -/
theorem flushParseBuffer_eq : flushParseBuffer ⟨p, buffer⟩ =
    (([buffer].filter (· ≠ [])).foldlM parseLine p).map fun parsing => ⟨parsing, []⟩ := by
  unfold flushParseBuffer
  by_cases empty : buffer = []
  · subst empty
    rfl
  · simp only [ne_eq, empty, not_false_eq_true, if_true, List.filter_cons, decide_true,
      List.filter_nil, List.foldlM_cons, List.foldlM_nil]
    cases parseLine p buffer <;> rfl

/-- The data go through the lines that end in it, and the rest stays in the buffer. -/
theorem fileParseData_eq (unended : '\n' ∉ s.parseBuffer) :
    fileParseData s data =
      ((endedLines (s.parseBuffer ++ data)).foldlM parseLine s.parsing).map fun parsing =>
        ⟨parsing, unfinished '\n' (s.parseBuffer ++ data)⟩ := by
  induction s, data using fileParseData.induct with
  | case1 s =>
    rw [fileParseData, List.append_nil, endedLines_of_not_mem unended, unfinished_of_not_mem unended]
    rfl
  | case2 s rest ih =>
    rw [fileParseData, if_pos rfl, flushParseBuffer_eq, endedLines_line unended,
      List.foldlM_append, unfinished_append_cons]
    cases flushed : ([eraseCr s.parseBuffer].filter (· ≠ [])).foldlM parseLine s.parsing with
    | error fault => rfl
    | ok parsing => exact ih ⟨parsing, []⟩ List.not_mem_nil
  | case3 s c rest other ih =>
    rw [fileParseData, if_neg other]
    have taken : '\n' ∉ s.parseBuffer ++ c :: rest.takeWhile (· != '\n') := by
      have stopped := List.all_eq_true.mp (List.all_takeWhile (p := (· != '\n')) (l := rest))
      simp only [List.mem_append, List.mem_cons, not_or]
      refine ⟨unended, Ne.symm other, fun member => ?_⟩
      simpa using stopped '\n' member
    have whole : s.parseBuffer ++ c :: rest.takeWhile (· != '\n') ++ rest.dropWhile (· != '\n') =
        s.parseBuffer ++ c :: rest := by
      rw [List.append_assoc, List.cons_append, List.takeWhile_append_dropWhile]
    rw [ih taken, whole]

/-! ## The whole file -/

/-- What is read before the end of the file or an error. -/
def taken : List Read → Text
  | [] | .data [] :: _ => []
  | .data (c :: bytes) :: reads => c :: bytes ++ taken reads
  | .failed errno _ :: reads => if errno = EINTR ∨ errno = EAGAIN then taken reads else []

/-- The error that ends the reading. -/
def failure : List Read → Option GError
  | [] | .data [] :: _ => none
  | .data (_ :: _) :: reads => failure reads
  | .failed errno strerror :: reads =>
    if errno = EINTR ∨ errno = EAGAIN then failure reads else some ⟨.file errno, strerror⟩

theorem Splits.taken_eq (splits : Splits reads content) :
    taken reads = content ∧ failure reads = none := by
  induction splits with
  | nil => exact ⟨rfl, rfl⟩
  | eof reads => exact ⟨rfl, rfl⟩
  | @data bytes content reads nonempty later ih =>
    obtain ⟨c, bytes, rfl⟩ := List.exists_cons_of_ne_nil nonempty
    exact ⟨by rw [taken, ih.1], ih.2⟩
  | again temporary later ih => simpa only [taken, failure, if_pos temporary] using ih

/-- However the content is cut, it goes through its lines. -/
theorem readOn_eq (unended : '\n' ∉ s.parseBuffer) :
    readOn s reads =
      ((endedLines (s.parseBuffer ++ taken reads)).foldlM parseLine s.parsing).bind fun parsing =>
        match failure reads with
        | none => .ok ⟨parsing, unfinished '\n' (s.parseBuffer ++ taken reads)⟩
        | some error => .error (.error error) := by
  induction reads generalizing s with
  | nil =>
    rw [readOn, taken, List.append_nil, endedLines_of_not_mem unended, unfinished_of_not_mem unended]
    rfl
  | cons read reads ih =>
    cases read with
    | data bytes =>
      cases bytes with
      | nil =>
        rw [readOn, taken, List.append_nil, endedLines_of_not_mem unended,
          unfinished_of_not_mem unended]
        rfl
      | cons c bytes =>
        rw [readOn, fileParseData_eq unended, taken, failure, ← List.append_assoc,
          endedLines_append (s.parseBuffer ++ c :: bytes), List.foldlM_append]
        cases (endedLines (s.parseBuffer ++ c :: bytes)).foldlM parseLine s.parsing with
        | error fault => rfl
        | ok parsing =>
          rw [unfinished_append (s.parseBuffer ++ c :: bytes)]
          exact @ih ⟨parsing, _⟩ not_mem_unfinished
    | failed errno strerror =>
      by_cases temporary : errno = EINTR ∨ errno = EAGAIN
      · simp only [readOn, taken, failure, if_pos temporary]
        exact ih unended
      · simp only [readOn, taken, failure, if_neg temporary]
        rw [List.append_nil, endedLines_of_not_mem unended]
        rfl

/-- The lines that the parser comes to. -/
def linesRead (reads : List Read) : List Text :=
  if failure reads = none then contentLines (taken reads) else endedLines (taken reads)

private theorem restraintParseTestinfo_eq {timeUnits : Nat → Char} :
    restraintParseTestinfo timeUnits ⟨none, none, true, reads⟩ =
      ((linesRead reads).foldlM parseLine ⟨.new, timeUnits⟩).bind fun parsing =>
        match failure reads with
        | none => .ok parsing.metadata
        | some error => .error (.error error) := by
  simp only [restraintParseTestinfo, parseTestinfoFromFd, Bool.true_eq_false, if_false]
  rw [readOn_eq List.not_mem_nil, List.nil_append, linesRead]
  cases failed : failure reads with
  | some error =>
    rw [if_neg (Option.some_ne_none error)]
    cases (endedLines (taken reads)).foldlM parseLine ⟨.new, timeUnits⟩ <;> rfl
  | none =>
    rw [if_pos rfl, contentLines, List.foldlM_append]
    cases ran : (endedLines (taken reads)).foldlM parseLine ⟨.new, timeUnits⟩ with
    | error fault => rfl
    | ok parsing =>
      show ((flushParseBuffer ⟨parsing, unfinished '\n' (taken reads)⟩).bind _).map _ =
        (([unfinished '\n' (taken reads)].filter (· ≠ [])).foldlM parseLine parsing).bind _
      rw [flushParseBuffer_eq]
      cases ([unfinished '\n' (taken reads)].filter (· ≠ [])).foldlM parseLine parsing <;> rfl

/-! ## One line -/

/-- The key of a line, in capitals. -/
def lineKey (line : Text) : Text := gAsciiStrup (gStrstrip ((cString line).takeWhile (· != ':')))

/-- What follows the first colon of a line. -/
def lineValue (line : Text) : Text := gStrstrip (((cString line).dropWhile (· != ':')).drop 1)

/-- The keys whose value is split. -/
def splitKeys : List Text :=
  ["REQUIRES".toList, "RHTSREQUIRES".toList, "REPOREQUIRES".toList, "ENVIRONMENT".toList]

/-- The line is not empty up to its first NUL, and has a colon there unless its key is another. -/
def Sound (line : Text) : Prop :=
  cString line ≠ [] ∧ (':' ∈ cString line ∨ lineKey line ∉ splitKeys)

/-- The line has a time that is turned down. -/
def Rejected (timeUnit : Char) (line : Text) : Prop :=
  ':' ∈ cString line ∧ lineKey line = "TESTTIME".toList ∧
    (parseTimeString timeUnit (some (lineValue line))).2 ≠ none

/-- Every line is sound up to the first one with a time that is turned down. -/
def Safe (timeUnits : Nat → Char) : List Text → Prop
  | [] => True
  | line :: lines =>
    Sound line ∧ (Rejected (timeUnits 0) line ∨ Safe (fun n => timeUnits (n + 1)) lines)

section
variable {timeUnit : Char} {metadata : MetaData} {key : Text} {value : Option Text}

/-- The pieces of a line around its first colon, as the code takes them. -/
theorem parseLine_eq : parseLine p line =
    if cString line = [] then .error .crash
    else
      (setValue (p.timeUnits 0) p.metadata (some (lineKey line))
        (if ':' ∈ cString line then some (lineValue line) else none)).map fun metadata =>
          { metadata := metadata, timeUnits := fun n => p.timeUnits (n + 1) } := by
  unfold parseLine gStrsplitTwo lineKey lineValue
  by_cases empty : cString line = []
  · simp only [if_pos empty]
    rfl
  simp only [if_neg empty]
  cases behind : (cString line).dropWhile (· != ':') with
  | nil =>
    have all := List.dropWhile_eq_nil_iff.mp behind
    have absent : ':' ∉ cString line := fun member => by simpa using all ':' member
    have whole : (cString line).takeWhile (· != ':') = cString line :=
      List.takeWhile_eq_self_iff.mpr all
    have cut : (cString line).dropWhile (fun c => !(c == ':')) = [] := behind
    simp only [cut, if_neg absent, whole]
    rfl
  | cons c rest =>
    have colon : ':' ∈ cString line := by
      have stopped := List.head?_dropWhile_not (· != ':') (cString line)
      have inside : c ∈ cString line :=
        (List.dropWhile_sublist _).subset (behind ▸ List.mem_cons_self)
      simp only [behind, List.head?_cons, bne_eq_false_iff_eq] at stopped
      exact stopped ▸ inside
    have cut : (cString line).dropWhile (fun c => !(c == ':')) = c :: rest := behind
    simp only [cut, if_pos colon]
    rfl

private theorem map_eq_error {α β : Type} {x : Except Fault α} {f : α → β} {fault : Fault} :
    x.map f = .error fault ↔ x = .error fault := by
  cases x with
  | error other => exact ⟨by rintro ⟨⟩; rfl, by rintro ⟨⟩; rfl⟩
  | ok a => exact iff_of_false (by rintro ⟨⟩) (by rintro ⟨⟩)

private theorem dereferenced_eq_crash {vector : Option (List Text)} :
    dereferenced vector = .error .crash ↔ vector = none := by
  cases vector with
  | none => exact iff_of_true rfl rfl
  | some vector => exact iff_of_false (by rintro ⟨⟩) (Option.some_ne_none vector)

private theorem dereferenced_ne_error {vector : Option (List Text)} {error : GError} :
    dereferenced vector ≠ .error (.error error) := by
  cases vector <;> rintro ⟨⟩

/-- Only the split of a missing value is dereferenced. -/
theorem setValue_crash : setValue timeUnit metadata (some key) value = .error .crash ↔
    value = none ∧ key ∈ splitKeys := by
  unfold setValue
  simp only [Option.some.injEq]
  split_ifs with testtime name usePty requires repo environment
  · subst testtime
    refine iff_of_false ?_ fun crash => absurd crash.2 (by decide)
    split <;> rintro ⟨⟩
  · subst name
    exact iff_of_false (by rintro ⟨⟩) fun crash => absurd crash.2 (by decide)
  · subst usePty
    exact iff_of_false (by rintro ⟨⟩) fun crash => absurd crash.2 (by decide)
  · have listed : key ∈ splitKeys := by rcases requires with rfl | rfl <;> decide
    rw [map_eq_error, dereferenced_eq_crash, Option.map_eq_none_iff, and_iff_left listed]
  · have listed : key ∈ splitKeys := by subst repo; decide
    rw [map_eq_error, dereferenced_eq_crash, Option.map_eq_none_iff, and_iff_left listed]
  · have listed : key ∈ splitKeys := by subst environment; decide
    rw [map_eq_error, dereferenced_eq_crash, Option.map_eq_none_iff, and_iff_left listed]
  · refine iff_of_false (by rintro ⟨⟩) fun crash => ?_
    obtain ⟨-, listed⟩ := crash
    simp only [splitKeys, List.mem_cons, List.not_mem_nil, or_false] at listed
    rcases listed with same | same | same | same
    · exact requires (.inl same)
    · exact requires (.inr same)
    · exact repo same
    · exact environment same

/-- An error is a time that is turned down. -/
theorem setValue_error : (∃ error, setValue timeUnit metadata (some key) value = .error (.error error)) ↔
    key = "TESTTIME".toList ∧ (parseTimeString timeUnit value).2 ≠ none := by
  unfold setValue
  simp only [Option.some.injEq]
  split_ifs with testtime name usePty requires repo environment
  · rw [and_iff_right testtime]
    rcases parseTimeString timeUnit value with ⟨time, - | error⟩
    · exact iff_of_false (by rintro ⟨error, ⟨⟩⟩) (fun some => some rfl)
    · exact iff_of_true ⟨error, rfl⟩ (Option.some_ne_none error)
  · exact iff_of_false (by rintro ⟨error, ⟨⟩⟩) fun bad => testtime bad.1
  · exact iff_of_false (by rintro ⟨error, ⟨⟩⟩) fun bad => testtime bad.1
  · exact iff_of_false (fun ⟨error, bad⟩ => dereferenced_ne_error (map_eq_error.mp bad)) fun bad =>
      testtime bad.1
  · exact iff_of_false (fun ⟨error, bad⟩ => dereferenced_ne_error (map_eq_error.mp bad)) fun bad =>
      testtime bad.1
  · exact iff_of_false (fun ⟨error, bad⟩ => dereferenced_ne_error (map_eq_error.mp bad)) fun bad =>
      testtime bad.1
  · exact iff_of_false (by rintro ⟨error, ⟨⟩⟩) fun bad => testtime bad.1

end

/-- The parser crashes at a line exactly when it is not sound. -/
theorem parseLine_crash : parseLine p line = .error .crash ↔ ¬Sound line := by
  rw [parseLine_eq, Sound]
  by_cases empty : cString line = []
  · rw [if_pos empty]
    exact iff_of_true rfl fun sound => sound.1 empty
  rw [if_neg empty, map_eq_error, setValue_crash]
  by_cases colon : ':' ∈ cString line
  · rw [if_pos colon]
    exact iff_of_false (fun crash => Option.some_ne_none _ crash.1)
      fun unsound => unsound ⟨empty, .inl colon⟩
  · rw [if_neg colon, and_iff_right rfl]
    constructor
    · rintro listed ⟨-, present | other⟩
      · exact colon present
      · exact other listed
    · intro unsound
      by_contra other
      exact unsound ⟨empty, .inr other⟩

/-- A line that is sound is parsed, or its time is turned down. -/
theorem parseLine_sound (sound : Sound line) :
    (Rejected (p.timeUnits 0) line ∧ ∃ error, parseLine p line = .error (.error error)) ∨
      (¬Rejected (p.timeUnits 0) line ∧ ∃ metadata, parseLine p line =
        .ok { metadata := metadata, timeUnits := fun n => p.timeUnits (n + 1) }) := by
  have fails := @setValue_error (p.timeUnits 0) p.metadata (lineKey line)
    (if ':' ∈ cString line then some (lineValue line) else none)
  have rejected : Rejected (p.timeUnits 0) line ↔ lineKey line = "TESTTIME".toList ∧
      (parseTimeString (p.timeUnits 0)
        (if ':' ∈ cString line then some (lineValue line) else none)).2 ≠ none := by
    rw [Rejected]
    split_ifs with colon
    · exact and_iff_right colon
    · exact iff_of_false (fun bad => colon bad.1) fun bad => bad.2 rfl
  have survives : parseLine p line ≠ .error .crash := fun crash => parseLine_crash.mp crash sound
  rw [parseLine_eq, if_neg sound.1, ne_eq, map_eq_error] at survives
  rw [parseLine_eq, if_neg sound.1, rejected, ← fails]
  cases set : setValue (p.timeUnits 0) p.metadata (some (lineKey line))
      (if ':' ∈ cString line then some (lineValue line) else none) with
  | error fault =>
    cases fault with
    | crash => exact absurd set survives
    | error error => exact .inl ⟨⟨error, rfl⟩, error, rfl⟩
  | ok metadata => exact .inr ⟨by rintro ⟨error, ⟨⟩⟩, metadata, rfl⟩

/-! ## The lines -/

theorem foldlM_crash : lines.foldlM parseLine p = .error .crash ↔ ¬Safe p.timeUnits lines := by
  induction lines generalizing p with
  | nil => exact iff_of_false (by rintro ⟨⟩) (fun unsafeLines => unsafeLines trivial)
  | cons line lines ih =>
    rw [List.foldlM_cons, Safe]
    by_cases sound : Sound line
    · rw [and_iff_right sound]
      obtain ⟨rejected, error, failed⟩ | ⟨accepted, metadata, parsed⟩ := parseLine_sound sound
      · rw [failed]
        exact iff_of_false (by rintro ⟨⟩) fun bad => bad (.inl rejected)
      · rw [parsed, or_iff_right accepted]
        exact ih
    · rw [parseLine_crash.mpr sound]
      exact iff_of_true rfl fun safe => sound safe.1

/-- **However the file is read, its metadata or the error is what its lines give in order.** -/
theorem testinfo_by_lines (timeUnits : Nat → Char) (content : Text) (reads : List Read)
    (splits : Splits reads content)
    (shaped : ∀ line ∈ contentLines content, ':' ∈ line ∧ NUL ∉ line) :
    restraintParseTestinfo timeUnits ⟨none, none, true, reads⟩ =
        ((contentLines content).foldlM parseLine ⟨.new, timeUnits⟩).map Parsing.metadata ∧
      restraintParseTestinfo timeUnits ⟨none, none, true, reads⟩ ≠ .error .crash := by
  obtain ⟨rfl, ended⟩ := splits.taken_eq
  have lines : linesRead reads = contentLines (taken reads) := if_pos ended
  have parsed : restraintParseTestinfo timeUnits ⟨none, none, true, reads⟩ =
      ((contentLines (taken reads)).foldlM parseLine ⟨.new, timeUnits⟩).map Parsing.metadata := by
    rw [restraintParseTestinfo_eq, ended, lines]
    cases (contentLines (taken reads)).foldlM parseLine ⟨.new, timeUnits⟩ <;> rfl
  refine ⟨parsed, ?_⟩
  have sound : ∀ line ∈ contentLines (taken reads), Sound line := by
    intro line member
    obtain ⟨colon, clean⟩ := shaped line member
    have whole : cString line = line :=
      List.takeWhile_eq_self_iff.mpr fun c inside => by
        simpa using fun same : c = NUL => clean (same ▸ inside)
    rw [Sound, whole]
    exact ⟨List.ne_nil_of_mem colon, .inl colon⟩
  have safe : ∀ (lines : List Text) (timeUnits : Nat → Char), (∀ line ∈ lines, Sound line) →
      Safe timeUnits lines := by
    intro lines
    induction lines with
    | nil => exact fun _ _ => trivial
    | cons line lines ih =>
      intro timeUnits all
      exact ⟨all line List.mem_cons_self, .inr (ih _ fun line member => all line (.tail _ member))⟩
  rw [parsed]
  cases ran : (contentLines (taken reads)).foldlM parseLine ⟨.new, timeUnits⟩ with
  | ok parsing => rintro ⟨⟩
  | error fault =>
    rintro ⟨⟩
    exact foldlM_crash.mp ran (safe _ _ sound)

/-- A read that ends between a carriage return and its newline, and one that is interrupted. -/
def cutReads : List Read :=
  [.data "Name: a\r".toList, .failed EINTR [], .data "\nTestTime: 5m".toList]

theorem testinfo_by_lines_cut :
    restraintParseTestinfo (fun _ => 'x') ⟨none, none, true, cutReads⟩ =
      .ok { MetaData.new with name := some "a".toList, maxTime := 300 } := by
  have splits : Splits cutReads ("Name: a\r".toList ++ ("\nTestTime: 5m".toList ++ [])) :=
    .data (by decide) (.again (.inl rfl) (.data (by decide) .nil))
  exact (testinfo_by_lines (fun _ => 'x') _ cutReads splits (by decide)).1.trans (by decide)

/-- The lines of a file that the parser comes to. -/
def linesOf (file : File) : List Text :=
  if file.openError = none ∧ file.fstatError = none ∧ file.regular = true then linesRead file.reads
  else []

/-- **The parser survives a file exactly when its lines are safe.** -/
theorem testinfo_survives_iff (timeUnits : Nat → Char) (file : File) :
    restraintParseTestinfo timeUnits file ≠ .error .crash ↔ Safe timeUnits (linesOf file) := by
  obtain ⟨openError, fstatError, regular, reads⟩ := file
  by_cases opened : openError = none ∧ fstatError = none ∧ regular = true
  · obtain ⟨rfl, rfl, rfl⟩ := opened
    rw [linesOf, if_pos ⟨rfl, rfl, rfl⟩, restraintParseTestinfo_eq, ← not_iff_not, not_not]
    rw [← @foldlM_crash ⟨.new, timeUnits⟩]
    cases (linesRead reads).foldlM parseLine ⟨.new, timeUnits⟩ with
    | error fault => exact ⟨by rintro ⟨⟩; rfl, by rintro ⟨⟩; rfl⟩
    | ok parsing =>
      refine iff_of_false ?_ (by rintro ⟨⟩)
      cases failure reads <;> rintro ⟨⟩
  · rw [linesOf, if_neg opened]
    refine iff_of_true ?_ trivial
    unfold restraintParseTestinfo parseTestinfoFromFd
    rcases openError with - | ⟨errno, strerror⟩
    · rcases fstatError with - | ⟨errno, strerror⟩
      · cases regular with
        | false => rintro ⟨⟩
        | true => exact absurd ⟨rfl, rfl, rfl⟩ opened
      · rintro ⟨⟩
    · rintro ⟨⟩

/-- A line without a colon whose key has its value split, and a line that starts with a NUL. -/
theorem testinfo_crashes :
    restraintParseTestinfo (fun _ => 'x') ⟨none, none, true, [.data "Requires\n".toList]⟩ =
      .error .crash ∧
    restraintParseTestinfo (fun _ => 'x') ⟨none, none, true, [.data [NUL, '\n']]⟩ =
      .error .crash := by
  rw [restraintParseTestinfo_eq, restraintParseTestinfo_eq]
  exact ⟨rfl, rfl⟩

end Restraint.TestinfoProofs
