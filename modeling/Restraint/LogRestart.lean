import Restraint.LoggingProofs

/-! The offsets in the config file and the lab controller. An upload writes the
offset of what it has only queued, so a crash before the delivery loses the
chunk for good. The offset in the config file stays behind what the lab
controller has acknowledged exactly as long as no upload gets ahead of it. -/
namespace Restraint.LogRestart
open Restraint.Message Restraint.Logging Restraint.LoggingProofs Transition

variable {s t : Logs} {e : Logging.Event} {es : List Logging.Event} {type : LogType}
  {initial : LogType → List UInt8}

/-- No offset in the config file is ahead of the lab controller. -/
def Behind (s : Logs) : Prop := ∀ type, persisted s type ≤ acknowledged s type

/-- An upload of this log that can write the config file finds nothing new, or
nothing the lab controller has not acknowledged already. -/
def covered (s : Logs) (type : LogType) (written : Bool) : Prop :=
  let length := ((rstrntFlushLogs s).files type).length
  written = true → length ≤ offsetOf s type ∨ length ≤ acknowledged s type

instance (s : Logs) (type : LogType) (written : Bool) : Decidable (covered s type written) :=
  inferInstanceAs (Decidable (_ → _))

/-- No upload writes an offset ahead of the lab controller. -/
def cautious (s : Logs) (e : Logging.Event) : Prop :=
  match e with
  | .tick taskWritten harnessWritten =>
    covered s .task taskWritten ∧ covered s .harness harnessWritten
  | .complete taskWritten harnessWritten =>
    covered s .task taskWritten ∧ covered s .harness harnessWritten
  | _ => True

instance (s : Logs) (e : Logging.Event) : Decidable (cautious s e) := by
  unfold cautious
  cases e <;> infer_instance

/-! ## What one step writes -/

theorem persisted_update {offset : Nat} {other : LogType} :
    (Function.update s.config (rstrntLogTypeGetPath other) (some offset)
        (rstrntLogTypeGetPath type)).getD 0 =
      if type = other then offset else persisted s type := by
  unfold persisted
  by_cases same : type = other
  · simp [same]
  · have apart := mt path_inj.mp same
    simp [same, apart]

/-- An upload writes the length of the log, if there is anything new. -/
theorem upload_persisted {other : LogType} {written : Bool} :
    persisted (rstrntUploadLog s other written) type =
      if type = other ∧ written = true ∧ offsetOf s other < (s.files other).length
      then (s.files other).length else persisted s type := by
  unfold rstrntUploadLog offsetOf
  dsimp only
  split
  · rename_i stale
    rw [if_neg (fun fresh => Nat.not_lt.mpr stale fresh.2.2)]
    rfl
  · rename_i fresh
    cases written with
    | true =>
      have new := Nat.lt_of_not_le fresh
      simp only [persisted, ↓reduceIte, new, and_true]
      exact persisted_update
    | false => simp [persisted]

@[simp] theorem upload_server {other : LogType} {written : Bool} :
    (rstrntUploadLog s other written).server = s.server := by
  unfold rstrntUploadLog
  dsimp only
  split <;> rfl

/-- Whether the upload of a log can write the config file. -/
def writes (taskWritten harnessWritten : Bool) : LogType → Bool
  | .task => taskWritten
  | .harness => harnessWritten

/-- The offsets in the config file after both uploads of a tick. -/
theorem uploads_persisted {taskWritten harnessWritten : Bool} :
    persisted (rstrntUploadLogs s taskWritten harnessWritten) type =
      if writes taskWritten harnessWritten type = true ∧
          offsetOf s type < ((rstrntFlushLogs s).files type).length
      then ((rstrntFlushLogs s).files type).length else persisted s type := by
  have offsets : ∀ type, offsetOf (rstrntFlushLogs s) type = offsetOf s type := by
    intro type
    rw [flush_eq]
    rfl
  have config : ∀ type, persisted (rstrntFlushLogs s) type = persisted s type := by
    intro type
    rw [flush_eq]
    rfl
  unfold rstrntUploadLogs
  rw [upload_persisted, upload_persisted, upload_files]
  cases type with
  | task =>
    simp only [reduceCtorEq, false_and, ↓reduceIte, true_and, offsets, config, writes]
    rfl
  | harness =>
    simp only [reduceCtorEq, false_and, ↓reduceIte, true_and, ne_eq, not_false_eq_true,
      upload_frame, offsets, config, writes]
    rfl

@[simp] theorem uploads_acknowledged {taskWritten harnessWritten : Bool} :
    acknowledged (rstrntUploadLogs s taskWritten harnessWritten) type = acknowledged s type := by
  simp [acknowledged, rstrntUploadLogs, flush_eq]

/-! ## The step lemma -/

theorem uploads_behind {taskWritten harnessWritten : Bool} (behind : Behind s)
    (careful : ∀ type, covered s type (writes taskWritten harnessWritten type)) :
    Behind (rstrntUploadLogs s taskWritten harnessWritten) := by
  intro type
  rw [uploads_persisted, uploads_acknowledged]
  split
  · rename_i fresh
    rcases careful type fresh.1 with stale | known
    · exact absurd fresh.2 (Nat.not_lt.mpr stale)
    · exact known
  · exact behind type

/-- An upload that is not covered puts its offset ahead. -/
theorem uploads_covered {taskWritten harnessWritten : Bool}
    (behind : Behind (rstrntUploadLogs s taskWritten harnessWritten)) :
    ∀ type, covered s type (writes taskWritten harnessWritten type) := by
  intro type written
  by_contra ahead
  rw [not_or, Nat.not_le, Nat.not_le] at ahead
  have now := behind type
  rw [uploads_persisted, uploads_acknowledged, if_pos ⟨written, ahead.1⟩] at now
  omega

private theorem covered_both {taskWritten harnessWritten : Bool} :
    (∀ type, covered s type (writes taskWritten harnessWritten type)) ↔
      covered s .task taskWritten ∧ covered s .harness harnessWritten := by
  constructor
  · exact fun both => ⟨both .task, both .harness⟩
  · rintro ⟨task, harness⟩ (- | -)
    · exact task
    · exact harness

/-- Stopping the uploader changes no log. -/
theorem covered_stopped {written : Bool} :
    covered { s with uploader := false } type written ↔ covered s type written := by
  unfold covered
  rw [flush_eq, flush_eq]
  rfl

/-- A delivery only adds to what the lab controller has. -/
theorem acknowledge_grows {server : LogType → SparseFile UInt8} {message : Outgoing} :
    (server type).solid ≤ (acknowledge server message type).solid := by
  unfold acknowledge
  split
  · rename_i chunk
    by_cases same : type = chunk.type
    · subst same
      rw [Function.update_self]
      exact SparseFile.solid_le_write
    · exact Nat.le_of_eq (by rw [Function.update_of_ne same])
  · exact Nat.le_refl _

/-- A step that writes no offset keeps the config file behind. -/
theorem Behind.of_same (behind : Behind s) (config : t.config = s.config)
    (server : ∀ type, acknowledged s type ≤ acknowledged t type) : Behind t := by
  intro type
  have old := behind type
  unfold persisted at old ⊢
  rw [config]
  exact Nat.le_trans old (server type)

private theorem cautious_behind (s : Logs) (e : Logging.Event) (t : Logs) (behind : Behind s)
    (careful : cautious s e) (stepped : Logging.step s e = some t) : Behind t := by
  cases e with
  | log type data =>
    cases stepped
    unfold restraintLogTask
    split <;> exact behind
  | write =>
    simp only [Logging.step] at stepped
    split at stepped
    · cases stepped
      rw [write_eq]
      exact behind
    · cases stepped
  | tick taskWritten harnessWritten =>
    simp only [Logging.step] at stepped
    split at stepped
    · cases stepped
      exact uploads_behind behind (covered_both.mpr careful)
    · cases stepped
  | complete taskWritten harnessWritten =>
    cases stepped
    have stopped := covered_both.mpr careful
    exact uploads_behind (s := { s with uploader := false }) behind
      fun type => covered_stopped.mpr (stopped type)
  | post tag =>
    cases stepped
    exact behind
  | dispatch id =>
    simp only [Logging.step, Option.map_eq_some_iff] at stepped
    obtain ⟨queue, -, rfl⟩ := stepped
    exact behind
  | deliver index status tags =>
    simp only [Logging.step] at stepped
    split at stepped
    · cases stepped
    · simp only [Option.map_eq_some_iff] at stepped
      obtain ⟨queue, -, rfl⟩ := stepped
      refine behind.of_same rfl fun type => ?_
      simp only [acknowledged]
      split
      · exact acknowledge_grows
      · exact Nat.le_refl _
  | crash =>
    cases stepped
    exact behind

private theorem incautious_ahead (s : Logs) (e : Logging.Event) (t : Logs)
    (careless : ¬cautious s e) (stepped : Logging.step s e = some t) : ¬Behind t := by
  cases e with
  | tick taskWritten harnessWritten =>
    simp only [Logging.step] at stepped
    split at stepped
    · cases stepped
      exact fun behind => careless (covered_both.mp (uploads_covered behind))
    · cases stepped
  | complete taskWritten harnessWritten =>
    cases stepped
    intro behind
    have stopped := uploads_covered (s := { s with uploader := false }) behind
    exact careless (covered_both.mp fun type => covered_stopped.mp (stopped type))
  | _ => exact absurd trivial careless

/-! ## The theorem -/

theorem start_behind : Behind (start initial) := fun type => by simp [persisted, start]

/-- **The config file stays behind the lab controller exactly when every
upload is careful.** Along a run, crashes included, no persisted offset is ever
beyond what the lab controller has acknowledged, and a restart at any point
resumes the upload without a gap, if and only if each upload that writes the
config file finds nothing new or nothing unacknowledged. -/
theorem offsets_behind_iff (ran : run Logging.step (start initial) es = some s) :
    (∀ before after middle, es = before ++ after →
      run Logging.step (start initial) before = some middle →
      ∀ type, persisted middle type ≤ acknowledged middle type ∧
        offsetOf (restart middle) type ≤ acknowledged (restart middle) type) ↔
      run (only Logging.step cautious) (start initial) es = some s := by
  rw [← always_iff_only (fun _ behind => behind) start_behind cautious_behind
    (fun s e t _ careless stepped => incautious_ahead s e t careless stepped) ran]
  constructor
  · exact fun always before after middle split reached type =>
      (always before after middle split reached type).1
  · intro always before after middle split reached type
    have behind := always before after middle split reached type
    exact ⟨behind, behind⟩

/-- An offset that could not be written is not ahead; the upload after a restart
starts again from the beginning. -/
theorem offsets_behind_iff_unwritten :
    ∃ s, run Logging.step (start fun _ => [])
        [.log .task [1, 2, 3], .tick false false, .crash] = some s ∧
      persisted s .task ≤ acknowledged s .task := by
  refine ⟨_, rfl, ?_⟩
  have ran : run Logging.step (start fun _ => [])
      [.log .task [1, 2, 3], .tick false false, .crash] = some _ := rfl
  exact ((offsets_behind_iff ran).mpr rfl _ [] _ (List.append_nil _).symm ran .task).1

/-- A tick queues three bytes and writes their offset, and the daemon crashes
before they are delivered. The upload after the restart leaves a hole where
they belong. -/
theorem offsets_ahead_after_crash :
    (∃ s, run Logging.step (start fun _ => []) [.log .task [1, 2, 3], .tick true true] = some s ∧
        persisted s .task = 3 ∧ acknowledged s .task = 0) ∧
      ∃ s, run Logging.step (start fun _ => [])
          [.log .task [1, 2, 3], .tick true true, .crash, .log .task [4, 5], .tick true true,
            .dispatch 1, .deliver 0 200 []] = some s ∧
        s.server .task = [none, none, none, some 4, some 5] :=
  ⟨⟨_, rfl, by decide, by decide⟩, ⟨_, rfl, by decide⟩⟩

end Restraint.LogRestart
