import Restraint.SyncServer

/-! When `block` sees its event. The server sends PINGs and then the event, but `recv` gives
the stream in any pieces; the loop puts every piece at the start of the buffer and compares
the buffer with the event. -/
namespace Restraint.SyncClient
open CString (Text)
open Restraint.Sync
open Restraint.SyncServer (ready)

/-- What is at a place of the buffer after some pieces: the byte of the last piece that is long
enough. -/
def held (received : List (List Char)) (i : Nat) : Char := (received.filterMap (·[i]?)).getLastD NUL

/-- The pieces that `recv` gives. -/
def Pieces (received : List (List Char)) : Prop :=
  ∀ bytes ∈ received, bytes ≠ [] ∧ bytes.length ≤ BUFSIZE

/-- What the server sends to a client that it answers, in pieces. -/
structure Delivery (name : Name) (received : List (List Char)) : Prop where
  pieces : Pieces received
  stream : ∃ n, received.flatten = (List.replicate n ping).flatten ++ message name.text

variable {name : Name} {word text : Text} {buf bytes : List Char} {received : List (List Char)} {i : Nat}

/-! ## The buffer -/

theorem getElem?_overlay : (overlay buf bytes)[i]? = (bytes[i]?).or buf[i]? := by
  rw [overlay, List.getElem?_append]
  split
  · rename_i inside
    rw [List.getElem?_eq_getElem inside, Option.some_or]
  · rename_i outside
    have there : bytes.length + (i - bytes.length) = i := by omega
    rw [List.getElem?_drop, there, List.getElem?_eq_none (Nat.not_lt.mp outside), Option.none_or]

private theorem held_concat : held (received ++ [bytes]) i = (bytes[i]?).getD (held received i) := by
  rw [held, List.filterMap_append]
  cases found : bytes[i]? with
  | none => simp [found, held]
  | some c => simp [found]

/-- The buffer after some pieces. -/
theorem getElem?_received (inside : i < BUFSIZE) :
    (received.foldl overlay (List.replicate BUFSIZE NUL))[i]? = some (held received i) := by
  induction received using List.reverseRecOn with
  | nil => simp [held, inside]
  | append_singleton received bytes ih =>
    rw [List.foldl_append, List.foldl_cons, List.foldl_nil, getElem?_overlay, ih, held_concat]
    cases bytes[i]? <;> rfl

private theorem sameString_iff : sameString word buf = true ↔
    ∀ (i : Nat) (c : Char), (message word)[i]? = some c → buf[i]? = some c := by
  rw [sameString, List.isPrefixOf_iff_prefix, List.prefix_iff_getElem?]
  constructor
  · intro same i c here
    obtain ⟨inside, rfl⟩ := List.getElem?_eq_some_iff.mp here
    exact same i inside
  · intro same i inside
    exact same i _ (List.getElem?_eq_getElem inside)

/-- The buffer holds one string only. -/
theorem sameString_unique (noNul : NUL ∉ word) (noNul' : NUL ∉ text)
    (same : sameString word buf = true) (same' : sameString text buf = true) : word = text := by
  have cut {word : Text} (noNul : NUL ∉ word) (same : sameString word buf = true) :
      buf.takeWhile (· ≠ NUL) = word := by
    obtain ⟨rest, rfl⟩ := List.isPrefixOf_iff_prefix.mp same
    rw [message, List.append_assoc, List.takeWhile_append_of_pos]
    · simp
    · intro c member
      rw [decide_eq_true_iff]
      rintro rfl
      exact noNul member
  exact (cut noNul same).symm.trans (cut noNul' same')

private theorem not_ping (same : sameString name.text buf = true) :
    sameString "PING".toList buf = false := by
  cases pinged : sameString "PING".toList buf with
  | false => rfl
  | true => exact absurd (sameString_unique name.noNul (by decide) same pinged) name.notPing

/-! ## The loop -/

/-- The loop ends with success when the buffer holds the event after a piece. -/
theorem blockLoop_eq_zero (pieces : Pieces received) : blockLoop name.text buf received = 0 ↔
    ∃ before, before ≠ [] ∧ before <+: received ∧
      sameString name.text (before.foldl overlay buf) = true := by
  induction received generalizing buf with
  | nil => simp [blockLoop]
  | cons bytes rest ih =>
    obtain ⟨nonempty, -⟩ := pieces bytes List.mem_cons_self
    have later : Pieces rest := fun bytes member => pieces bytes (List.mem_cons_of_mem _ member)
    simp only [blockLoop, if_neg nonempty]
    by_cases same : sameString name.text (overlay buf bytes) = true
    · rw [if_pos ⟨not_ping same, same⟩]
      refine iff_of_true rfl ⟨[bytes], List.cons_ne_nil _ _, ?_, same⟩
      exact ⟨rest, rfl⟩
    · rw [if_neg fun both => same both.2, ih later]
      constructor
      · rintro ⟨before, -, begins, ends⟩
        exact ⟨bytes :: before, List.cons_ne_nil _ _, (List.prefix_cons_inj _).mpr begins, ends⟩
      · rintro ⟨before, some, begins, ends⟩
        obtain ⟨first, before, rfl⟩ := List.exists_cons_of_ne_nil some
        obtain ⟨rfl, onward⟩ := List.cons_prefix_cons.mp begins
        refine ⟨before, ?_, onward, ends⟩
        rintro rfl
        exact same ends

/-- **`block` ends with success if and only if the event and its NUL are at the start of the
buffer after one of the pieces**, where every place holds the byte of the last piece that was
long enough. -/
theorem block_eq_zero (pieces : Pieces received) : block name.text received = 0 ↔
    ∃ before, before ≠ [] ∧ before <+: received ∧
      ∀ i c, (message name.text)[i]? = some c → held before i = c := by
  rw [block, blockLoop_eq_zero pieces]
  have same (before : List (List Char)) :
      sameString name.text (before.foldl overlay (List.replicate BUFSIZE NUL)) = true ↔
        ∀ i c, (message name.text)[i]? = some c → held before i = c := by
    rw [sameString_iff]
    apply forall₃_congr
    intro i c here
    have inside : i < BUFSIZE := by
      have within := (List.getElem?_eq_some_iff.mp here).1
      rw [message, List.length_append] at within
      have short := name.short
      simp only [List.length_singleton] at within
      omega
    rw [getElem?_received inside, Option.some_inj]
  simp only [same]

/-- A piece that starts with the whole event is enough. -/
theorem block_of_whole (pieces : Pieces received) {rest : List Char}
    (whole : message name.text ++ rest ∈ received) : block name.text received = 0 := by
  obtain ⟨before, after, rfl⟩ := List.append_of_mem whole
  refine (block_eq_zero pieces).mpr
    ⟨before ++ [message name.text ++ rest], by simp, ⟨after, by simp⟩, fun i c here => ?_⟩
  have inside := (List.getElem?_eq_some_iff.mp here).1
  rw [held_concat, List.getElem?_append_left inside, here, Option.getD_some]

/-- One PING, and the event in a piece of its own. -/
theorem block_ready : Delivery ready [ping, message ready.text] ∧
    ∃ before, before ≠ [] ∧ before <+: [ping, message ready.text] ∧
      ∀ i c, (message ready.text)[i]? = some c → held before i = c := by
  have delivery : Delivery ready [ping, message ready.text] :=
    ⟨by unfold Pieces; decide, 1, by decide⟩
  exact ⟨delivery, (block_eq_zero delivery.pieces).mp (by decide)⟩

/-- When the PING and the event come in one piece, the event is not seen. -/
theorem block_misses : Delivery ready [ping ++ message ready.text] ∧
    block ready.text [ping ++ message ready.text] = 1 :=
  ⟨⟨by unfold Pieces; decide, 1, by decide⟩, by decide⟩

end Restraint.SyncClient
