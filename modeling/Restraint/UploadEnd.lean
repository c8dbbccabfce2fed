import Restraint.Lib.Inevitable
import Restraint.Lib.Tiling
import Restraint.Upload

/-! When an upload ends, and what it has sent then. The size is asked for once, before the first
read; the file may be another in every round. Nothing is assumed of the reads but what `read`
promises. An upload of a file that shrinks can go on for ever, and that is one side of the
equivalence. -/
namespace Restraint.UploadEnd
open CString (Text)
open Restraint.Upload Tiling Transition

variable {answer : Answer} {answers rest : List Answer} {filesize uploaded bytesLeft : Nat}
  {uri : Text} {s s' : Sending} {sent : List Put}

/-! ## A round -/

/-- What a read asks for. -/
def count (bytesLeft : Nat) : Nat :=
  if bytesLeft < readBufferSize then bytesLeft else readBufferSize

/-- How much a read finds where as much is asked for. -/
def size (answer : Answer) : Nat :=
  match answer.available with
  | .error _ => 0
  | .ok available => min available.length readBufferSize

/-- The read fails, or it finds something and the message with it is not taken. -/
def Fails (answer : Answer) : Prop :=
  match answer.available, answer.response with
  | .error _, _ => True
  | .ok available, .error _ => available ≠ []
  | .ok _, .ok () => False

/-- The message with a piece of the file. -/
def message (uri : Text) (filesize : Nat) (piece : Piece UInt8) : Put :=
  ⟨uri, contentRange piece.1 (piece.1 + piece.2.length - 1) filesize, piece.2⟩

private theorem uploadChunk_fails (filesize : Nat) (uri : Text) (s : Sending) (more : 0 < bytesLeft)
    (fails : Fails answer) :
    ∃ s' message, uploadChunk filesize bytesLeft uri answer s = (s', .error message) := by
  have asked : count bytesLeft ≠ 0 := by
    unfold count readBufferSize
    split <;> omega
  unfold Fails at fails
  unfold uploadChunk
  cases found : answer.available with
  | error message => exact ⟨_, _, rfl⟩
  | ok available =>
    cases response : answer.response with
    | ok _ => simp [found, response] at fails
    | error reason =>
      simp only [found, response] at fails
      have data : available.take (count bytesLeft) ≠ [] := by simp [fails, asked]
      unfold count at data
      simp only [data, ↓reduceIte]
      exact ⟨_, _, rfl⟩

/-- A round that does not fail goes on by what was read. -/
theorem uploadChunk_ok (filesize bytesLeft : Nat) (uri : Text) (s : Sending) (fine : ¬Fails answer) :
    ∃ available, answer.available = .ok available ∧
      uploadChunk filesize bytesLeft uri answer s =
        (if available.take (count bytesLeft) = [] then s
          else ⟨s.offset + (available.take (count bytesLeft)).length,
            s.sent ++ [message uri filesize (s.offset, available.take (count bytesLeft))]⟩,
          .ok (available.take (count bytesLeft)).length) := by
  unfold Fails at fine
  cases found : answer.available with
  | error message => simp [found] at fine
  | ok available =>
    refine ⟨available, rfl, ?_⟩
    unfold uploadChunk
    by_cases data : available.take (count bytesLeft) = []
    · unfold count at data ⊢
      simp only [found, data, ↓reduceIte, List.length_nil]
    · have nonempty : available ≠ [] := by
        rintro rfl
        exact data List.take_nil
      cases response : answer.response with
      | error reason =>
        simp only [found, response] at fine
        exact absurd nonempty fine
      | ok _ =>
        unfold count at data ⊢
        simp only [found, data, ↓reduceIte, message]

/-! ## When the loop ends -/

/-- Some round fails, or the reads find all that was announced. -/
def Enough (filesize : Nat) (answers : List Answer) : Prop :=
  (∃ answer ∈ answers, Fails answer) ∨ filesize ≤ (answers.map size).sum

/-- The reads do not find the end of the file before the announced size for ever. -/
def Ends (filesize : Nat) (answers : Nat → Answer) : Prop :=
  ∃ n, Enough filesize (first answers n)

theorem length_take_count (bytesLeft : Nat) {available : List UInt8} (found : answer.available = .ok available) :
    (available.take (count bytesLeft)).length = min bytesLeft (size answer) := by
  have sized : size answer = min available.length readBufferSize := by
    unfold size
    rw [found]
  unfold count
  rw [sized, List.length_take]
  split <;> omega

private theorem uploadChunks_stops_iff :
    (uploadChunks filesize uri answers uploaded s).2.isSome = true ↔
      (∃ answer ∈ answers, Fails answer) ∨ filesize ≤ uploaded + (answers.map size).sum := by
  induction answers generalizing uploaded s with
  | nil =>
    unfold uploadChunks
    split
    · simpa using Nat.lt_of_lt_of_le ‹_› (Nat.le_refl _)
    · simpa using Nat.le_of_not_lt ‹_›
  | cons answer rest ih =>
    unfold uploadChunks
    rw [List.exists_mem_cons_iff, List.map_cons, List.sum_cons]
    split
    · rename_i more
      by_cases fails : Fails answer
      · obtain ⟨s', message, failed⟩ :=
          uploadChunk_fails filesize uri s (Nat.sub_pos_of_lt more) fails
        simp only [failed, Option.isSome_some, fails, true_or]
      · obtain ⟨available, found, read⟩ :=
          uploadChunk_ok filesize (filesize - uploaded) uri s fails
        simp only [read, ih, length_take_count _ found, fails, false_or]
        -- the read is cut at what is left, and then the loop is at its end
        have cut : filesize ≤ uploaded + min (filesize - uploaded) (size answer) +
            (rest.map size).sum ↔ filesize ≤ uploaded + (size answer + (rest.map size).sum) := by
          omega
        rw [cut]
    · rename_i ended
      have enough : filesize ≤ uploaded + (size answer + (rest.map size).sum) := by omega
      simp only [Option.isSome_some, enough, or_true]

/-! ## What the messages carry -/

/-- What the stream gives: each read that finds something, with the place in the file where it is
made. -/
def reads (filesize : Nat) : List Answer → Nat → List (Piece UInt8)
  | [], _ => []
  | answer :: rest, position =>
    match answer.available with
    | .error _ => []
    | .ok available =>
      let data := available.take (count (filesize - position))
      if data = [] then reads filesize rest position
      else (position, data) :: reads filesize rest (position + data.length)

/-- The messages have one read each, and their ranges go from 0 to the end of the announced size
without gap. -/
structure Tiled (uri : Text) (filesize : Nat) (answers : List Answer) (sent : List Put) : Prop where
  sent : sent = (reads filesize answers 0).map (message uri filesize)
  tiles : Tiles ((reads filesize answers 0).map Prod.snd).flatten 0 (reads filesize answers 0)
    filesize

theorem reads_end (ended : ¬uploaded < filesize) : reads filesize answers uploaded = [] := by
  induction answers with
  | nil => rfl
  | cons answer rest ih =>
    have none : count (filesize - uploaded) = 0 := by
      unfold count readBufferSize
      split <;> omega
    unfold reads
    split
    · rfl
    · simp only [none, List.take_zero, ↓reduceIte]
      exact ih

theorem uploadChunks_tiled (before : List UInt8) (here : before.length = uploaded)
    (below : uploaded ≤ filesize)
    (ran : uploadChunks filesize uri answers uploaded ⟨uploaded, sent⟩ = (s, some (.ok true))) :
    s.sent = sent ++ (reads filesize answers uploaded).map (message uri filesize) ∧
      Tiles (before ++ ((reads filesize answers uploaded).map Prod.snd).flatten) uploaded
        (reads filesize answers uploaded) filesize := by
  induction answers generalizing uploaded sent before with
  | nil =>
    unfold uploadChunks at ran
    split at ran
    · cases ran
    · obtain ⟨rfl, -⟩ := Prod.mk.inj ran
      exact ⟨(List.append_nil _).symm, Nat.le_antisymm below (Nat.le_of_not_lt ‹_›)⟩
  | cons answer rest ih =>
    unfold uploadChunks at ran
    split at ran
    · rename_i more
      by_cases fails : Fails answer
      · obtain ⟨s', message, failed⟩ :=
          uploadChunk_fails filesize uri ⟨uploaded, sent⟩ (Nat.sub_pos_of_lt more) fails
        simp [failed] at ran
      · obtain ⟨available, found, read⟩ :=
          uploadChunk_ok filesize (filesize - uploaded) uri ⟨uploaded, sent⟩ fails
        have within := length_take_count (filesize - uploaded) found
        simp only [read] at ran
        unfold reads
        simp only [found]
        generalize available.take (count (filesize - uploaded)) = data at ran within ⊢
        by_cases empty : data = []
        · subst empty
          simp only [↓reduceIte, List.length_nil, Nat.add_zero] at ran ⊢
          exact ih _ here below ran
        · simp only [empty, ↓reduceIte] at ran ⊢
          have further : (before ++ data).length = uploaded + data.length := by
            rw [List.length_append, here]
          obtain ⟨sends, tiles⟩ := ih _ further (by omega) ran
          refine ⟨?_, tiles_cons.mpr ⟨rfl, empty, ?_, ?_⟩⟩
          · rw [sends, List.map_cons, List.append_assoc]
            rfl
          · rw [← here, List.drop_left, List.map_cons, List.flatten_cons]
            exact List.prefix_append _ _
          · rw [List.map_cons, List.flatten_cons, ← List.append_assoc]
            exact tiles
    · rename_i ended
      obtain ⟨rfl, -⟩ := Prod.mk.inj ran
      rw [reads_end ended]
      exact ⟨(List.append_nil _).symm, Nat.le_antisymm below (Nat.le_of_not_lt ended)⟩

/-! ## The whole upload -/

section Whole
variable {filepath filename resultsUri : Text} {file : File}

private theorem uploadFile_stops_iff :
    (uploadFile filepath filename resultsUri file answers s).2.isSome = true ↔
      ∀ filesize, file.size = .ok filesize → file.opened = .ok () → Enough filesize answers := by
  obtain ⟨size, opened⟩ := file
  unfold uploadFile
  cases size with
  | error message => simp
  | ok filesize =>
    cases opened with
    | error message => simp
    | ok _ =>
      have loop : (uploadChunks filesize (resultLogUri resultsUri filename) answers 0 s).2.isSome =
          true ↔ _ := uploadChunks_stops_iff
      rw [Nat.zero_add] at loop
      simp only [Except.ok.injEq, forall_eq', forall_const]
      rw [Enough, ← loop]
      generalize uploadChunks filesize (resultLogUri resultsUri filename) answers 0 s = result
      obtain ⟨s', ended⟩ := result
      rcases ended with - | message | uploaded <;> rfl

private theorem uploadFile_tiled
    (ran : uploadFile filepath filename resultsUri file answers ⟨0, []⟩ = (s, some (.ok true))) :
    ∃ filesize, file.size = .ok filesize ∧
      Tiled (resultLogUri resultsUri filename) filesize answers s.sent := by
  obtain ⟨size, opened⟩ := file
  unfold uploadFile at ran
  cases size with
  | error message => simp at ran
  | ok filesize =>
    cases opened with
    | error message => simp at ran
    | ok _ =>
      refine ⟨filesize, rfl, ?_⟩
      dsimp only at ran
      split at ran
      · simp at ran
      · rename_i loop
        rw [ran] at loop
        obtain ⟨sends, tiles⟩ :=
          uploadChunks_tiled [] List.length_nil (Nat.zero_le _) loop
        exact ⟨sends, tiles⟩

end Whole

/-- The file is emptied after its size is known, and stays so: the loop has no end. -/
theorem uploadFile_never_stops : ¬∃ n, (uploadFile "/tmp/log".toList "log".toList
    "http://localhost/recipes/1/tasks/2/logs/".toList ⟨.ok 1, .ok ()⟩
    (first (fun _ => ⟨.ok [], .ok ()⟩) n) ⟨0, []⟩).2.isSome = true := by
  rintro ⟨n, stopped⟩
  rcases uploadFile_stops_iff.mp stopped 1 rfl rfl with ⟨answer, member, fails⟩ | enough
  · obtain ⟨k, -, rfl⟩ := List.mem_map.mp member
    exact fails
  · simp [first, size] at enough

/-- An upload ends, and where it comes to TRUE its chunks tile the file, exactly where some round
fails or the reads find together what was announced. -/
theorem uploadFile_stops_and_tiles_iff (filepath filename resultsUri : Text) (file : File)
    (answers : Nat → Answer) :
    ((∀ s, ∃ n, (uploadFile filepath filename resultsUri file (first answers n) s).2.isSome) ∧
      ∀ n s, uploadFile filepath filename resultsUri file (first answers n) ⟨0, []⟩ =
          (s, some (.ok true)) →
        ∃ filesize, file.size = .ok filesize ∧
          Tiled (resultLogUri resultsUri filename) filesize (first answers n) s.sent) ↔
      ∀ filesize, file.size = .ok filesize → file.opened = .ok () → Ends filesize answers := by
  constructor
  · rintro ⟨stops, -⟩ filesize known opened
    obtain ⟨n, stopped⟩ := stops ⟨0, []⟩
    exact ⟨n, uploadFile_stops_iff.mp stopped filesize known opened⟩
  · intro ends
    refine ⟨fun s => ?_, fun n s ran => uploadFile_tiled ran⟩
    by_cases begins : ∃ filesize, file.size = .ok filesize ∧ file.opened = .ok ()
    · obtain ⟨filesize, known, opened⟩ := begins
      obtain ⟨n, enough⟩ := ends filesize known opened
      refine ⟨n, uploadFile_stops_iff.mpr fun other same _ => ?_⟩
      rw [known] at same
      exact Except.ok.inj same ▸ enough
    · exact ⟨0, uploadFile_stops_iff.mpr fun filesize known opened =>
        absurd ⟨filesize, known, opened⟩ begins⟩

end Restraint.UploadEnd
