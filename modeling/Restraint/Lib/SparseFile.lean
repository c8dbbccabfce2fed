import Mathlib.Data.List.Basic

/-! Files written at offsets, where a write past the end leaves a hole. A byte in a hole is nothing,
so that what was really written can be told from zeros. Truncating cuts or extends, and writing at
the end of what is solid goes on with it. -/

universe u
variable {β : Type u}

/-- The content of a file; `none` is a byte that was never written. -/
abbrev SparseFile (β : Type u) := List (Option β)

namespace SparseFile

/-- Seeks to `offset` and writes the bytes there. -/
def write (file : SparseFile β) (offset : Nat) (bytes : List β) : SparseFile β :=
  (file ++ List.replicate (offset - file.length) none).take offset ++ bytes.map some ++
    file.drop (offset + bytes.length)

/-- Cuts the file to `size`, or fills it up to there with a hole. -/
def truncate (file : SparseFile β) (size : Nat) : SparseFile β :=
  (file ++ List.replicate (size - file.length) none).take size

/-- How many bytes there are before the first hole. -/
def solid (file : SparseFile β) : Nat := (file.takeWhile Option.isSome).length

variable {file : SparseFile β} {content bytes : List β} {offset n : Nat}

/-- Writing at the end appends. -/
theorem write_end : write (content.map some) content.length bytes = (content ++ bytes).map some := by
  have past : (content.map some).drop (content.length + bytes.length) = [] :=
    List.drop_eq_nil_of_le (by simp)
  simp only [write, past, List.length_map, Nat.sub_self, List.replicate_zero, List.append_nil,
    List.map_append]
  rw [List.take_of_length_le (by simp)]

@[simp] theorem length_truncate : (truncate file n).length = n := by
  simp only [truncate, List.length_take, List.length_append, List.length_replicate]
  omega

/-- What stands before both ends stays when a file is cut or filled up. -/
theorem take_truncate {size : Nat} (inside : n ≤ file.length) (below : n ≤ size) :
    (truncate file size).take n = file.take n := by
  rw [truncate, List.take_take, Nat.min_eq_left below, List.take_append_of_le_length inside]

/-- A write that leaves no hole keeps what stands before it. -/
theorem take_write (inside : offset ≤ file.length) :
    (write file offset bytes).take (offset + bytes.length) = file.take offset ++ bytes.map some := by
  have whole : (file.take offset ++ bytes.map some).length = offset + bytes.length := by
    rw [List.length_append, List.length_take, List.length_map, Nat.min_eq_left inside]
  rw [write, Nat.sub_eq_zero_of_le inside, List.replicate_zero, List.append_nil, ← whole,
    List.take_left]

theorem length_write :
    (write file offset bytes).length = max file.length (offset + bytes.length) := by
  simp only [write, List.length_append, List.length_take, List.length_replicate, List.length_map,
    List.length_drop]
  omega

private theorem le_solid_iff : n ≤ solid file ↔ ∀ i < n, ∃ byte, file[i]? = some (some byte) := by
  unfold solid
  induction file generalizing n with
  | nil =>
    cases n with
    | zero => simp
    | succ n =>
      simp only [List.takeWhile_nil, List.length_nil, List.getElem?_nil]
      constructor
      · omega
      · exact fun filled => absurd (filled 0 (Nat.succ_pos _)) (by simp)
  | cons entry rest ih =>
    cases n with
    | zero => simp
    | succ n =>
      cases entry with
      | none =>
        constructor
        · simp
        · exact fun filled => absurd (filled 0 (Nat.succ_pos _)) (by simp)
      | some byte =>
        simp only [List.takeWhile_cons, Option.isSome_some, ↓reduceIte, List.length_cons,
          Nat.add_le_add_iff_right, ih]
        constructor
        · rintro filled (- | i) bound
          · exact ⟨byte, rfl⟩
          · exact filled i (by omega)
        · exact fun filled i bound => filled (i + 1) (by omega)

/-- A byte that was there is there after a write, at its place or replaced. -/
theorem getElem?_write {i : Nat} {byte : β} (held : file[i]? = some (some byte)) :
    ∃ byte, (write file offset bytes)[i]? = some (some byte) := by
  have inside : i < file.length := (List.getElem?_eq_some_iff.mp held).1
  have padded : ((file ++ List.replicate (offset - file.length) none).take offset).length =
      offset := by
    simp only [List.length_take, List.length_append, List.length_replicate]
    omega
  unfold write
  rw [List.append_assoc]
  by_cases before : i < offset
  · rw [List.getElem?_append_left (by omega), List.getElem?_take_of_lt before,
      List.getElem?_append_left inside]
    exact ⟨byte, held⟩
  · rw [List.getElem?_append_right (by omega), padded]
    by_cases written : i - offset < bytes.length
    · rw [List.getElem?_append_left (by simpa using written)]
      exact ⟨bytes[i - offset], by simp [written]⟩
    · rw [List.getElem?_append_right (by simpa using written), List.length_map, List.getElem?_drop,
        show offset + bytes.length + (i - offset - bytes.length) = i by omega]
      exact ⟨byte, held⟩

/-- What was written stays written. -/
theorem solid_le_write : solid file ≤ solid (write file offset bytes) := by
  have filled := le_solid_iff.mp (Nat.le_refl (solid file))
  apply le_solid_iff.mpr
  intro i bound
  obtain ⟨byte, held⟩ := filled i bound
  exact getElem?_write held

end SparseFile
