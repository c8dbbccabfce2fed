import Restraint.LogTransferProofs
import Restraint.LoggingProofs
import Mathlib.Data.List.Chain

/-! The vector of messages that `rstrnt_chunk_log` allocates and fills, with the integers that it
computes in. The slots are counted by a division before the loop takes the bytes. That the loop
fills these slots and no others, and that the messages are those of the simpler model of the log,
are theorems here and not assumptions. -/
namespace Restraint.ChunkVector
open Restraint.Client (toGoffset)
open Restraint.Logging (Chunk LogType chunkLoop msgc)
open Restraint.LoggingProofs Tiling

/-- The content in memory. No object in memory is larger than a pointer difference can be. -/
structure Content where
  bytes : List UInt8
  bound : bytes.length < 2 ^ 63

/-- A message: the range that its header gives, both ends included, and its body. -/
structure SoupMessage where
  start : Int
  stop : Int
  data : List UInt8
  deriving DecidableEq

/-- What a `gsize` makes of a number. -/
def toGsize (n : Int) : Nat := (n % 2 ^ 64).toNat

/-- What an `int` makes of a number. -/
def toInt (n : Nat) : Int := (n : Int).bmod (2 ^ 32)

/-- The vector; a slot without a message is NULL. -/
abbrev Vector := List (Option SoupMessage)

/-- The loop of `rstrnt_chunk_log` with `left` bytes left, at a slot of the vector; `none` where it
touches a slot or a byte that is not there, or takes more rounds than `fuel`. -/
def fillLoop (content : Content) (offset : Int) (contentLen chunkLen : Nat) :
    Nat → Nat → Nat → Vector → Option Vector
  | 0, left, _, msgv => if left = 0 then some msgv else none
  | fuel + 1, left, slot, msgv =>
    if left = 0 then some msgv
    else
      let msgLen := if left > chunkLen then chunkLen else left
      let start := toGoffset (toGsize (offset + contentLen - left))
      let stop := toGoffset (toGsize (start + msgLen - 1))
      let data := (content.bytes.drop start.toNat).take msgLen
      if slot < msgv.length ∧ 0 ≤ start ∧ data.length = msgLen then
        fillLoop content offset contentLen chunkLen fuel (left - msgLen) (slot + 1)
          (msgv.set slot (some ⟨start, stop, data⟩))
      else none

/-- `rstrnt_chunk_log`: the vector and `*msgc`, or NULL where an argument is refused. -/
def rstrntChunkLog (content : Content) (offset : Int) (chunkLen : Nat) :
    Option (Option (Vector × Int)) :=
  let contentLen := content.bytes.length
  if contentLen = 0 ∨ contentLen ≤ toGsize offset ∨ chunkLen = 0 then some none
  else
    let contentLen := toGsize (contentLen - offset)
    let count := toInt (msgc contentLen chunkLen)
    if count < 0 then none
    else
      (fillLoop content offset contentLen chunkLen contentLen contentLen 0
        (List.replicate count.toNat none)).map fun msgv => some (msgv, count)

variable {content : Content} {chunkLen left fuel : Nat} {offset : Int}

/-! ## The integers -/

theorem toGsize_of_lt {n : Nat} (small : n < 2 ^ 64) : toGsize n = n := by
  unfold toGsize
  omega

private theorem toInt_of_lt {n : Nat} (small : n < 2 ^ 31) : toInt n = n := by
  unfold toInt
  rw [Int.bmod_eq_of_le] <;> omega

/-! ## The vector -/

/-- A chunk as the message with it. -/
def toMessage (chunk : Chunk) : SoupMessage := ⟨chunk.start, chunk.stop, chunk.bytes⟩

/-- The messages of the chunks that are left. -/
def messages (content : Content) (offset chunkLen fuel left : Nat) : List SoupMessage :=
  (chunkLoop .task content.bytes offset (content.bytes.length - offset) chunkLen fuel left).map
    toMessage

/-- A message goes into the first free slot. -/
theorem set_slot (done : List SoupMessage) (message : SoupMessage) (free : Nat) :
    (done.map some ++ List.replicate (free + 1) none).set done.length (some message) =
      (done ++ [message]).map some ++ List.replicate free none := by
  have here : done.length = (done.map some).length := (List.length_map some).symm
  rw [here, List.set_append_right _ _ (Nat.le_refl _), Nat.sub_self, List.replicate_succ,
    List.set_cons_zero, List.map_append, List.append_assoc]
  rfl

/-- What is left is put into the free slots, and fills them. -/
theorem fillLoop_fills {offset : Nat} (done : List SoupMessage) (positive : 0 < chunkLen)
    (enough : left ≤ fuel) (inside : left ≤ content.bytes.length - offset)
    (below : offset ≤ content.bytes.length) :
    fillLoop content offset (content.bytes.length - offset) chunkLen fuel left done.length
        (done.map some ++ List.replicate (msgc left chunkLen) none) =
      some ((done ++ messages content offset chunkLen fuel left).map some) := by
  induction fuel generalizing left done with
  | zero =>
    have none : left = 0 := by omega
    simp [fillLoop, messages, chunkLoop, msgc, none]
  | succ fuel ih =>
    by_cases nothing : left = 0
    · simp [fillLoop, messages, chunkLoop, msgc, nothing]
    have bound := content.bound
    have taken : (if left > chunkLen then chunkLen else left) = min left chunkLen := by
      split <;> omega
    have place : offset + (content.bytes.length - offset) - left = content.bytes.length - left := by
      omega
    have start : toGoffset (toGsize ((offset : Int) + (content.bytes.length - offset : Nat) - left)) =
        (content.bytes.length - left : Nat) := by
      have number : (offset : Int) + (content.bytes.length - offset : Nat) - left =
          (content.bytes.length - left : Nat) := by omega
      rw [number, toGsize_of_lt (by omega), LogTransferProofs.toGoffset_of_lt (by omega)]
    have stop : toGoffset (toGsize (((content.bytes.length - left : Nat) : Int) +
          (min left chunkLen : Nat) - 1)) =
        (content.bytes.length - left + min left chunkLen - 1 : Nat) := by
      have number : ((content.bytes.length - left : Nat) : Int) + (min left chunkLen : Nat) - 1 =
          (content.bytes.length - left + min left chunkLen - 1 : Nat) := by omega
      rw [number, toGsize_of_lt (by omega), LogTransferProofs.toGoffset_of_lt (by omega)]
    have length : ((content.bytes.drop (content.bytes.length - left)).take
        (min left chunkLen)).length = min left chunkLen := by
      rw [List.length_take, List.length_drop]
      omega
    unfold fillLoop messages
    rw [chunkLoop_succ nothing, msgc_eq_succ positive nothing, List.map_cons]
    simp only [nothing, ↓reduceIte, taken, start, stop, Int.toNat_natCast, length]
    rw [if_pos, set_slot]
    · have further := @ih (left - min left chunkLen)
        (done ++ [toMessage ⟨.task, content.bytes.length - left,
          content.bytes.length - left + min left chunkLen - 1,
          (content.bytes.drop (content.bytes.length - left)).take (min left chunkLen)⟩])
        (by omega) (by omega)
      rw [List.length_append, List.length_singleton] at further
      rw [place]
      refine further.trans ?_
      rw [List.append_assoc]
      rfl
    · refine ⟨?_, Int.natCast_nonneg _, trivial⟩
      simp

/-! ## The messages -/

/-- The messages cut the content into consecutive ranges from the offset to the end, none empty and
none longer than a chunk, each with the bytes of its range. -/
structure Chunked (content : List UInt8) (offset : Int) (chunkLen : Nat)
    (messages : List SoupMessage) : Prop where
  first : ∃ message ∈ messages.head?, message.start = offset
  next : messages.IsChain fun message following => following.start = message.stop + 1
  last : ∃ message ∈ messages.getLast?, message.stop = content.length - 1
  size : ∀ message ∈ messages, 1 ≤ message.data.length ∧ message.data.length ≤ chunkLen
  carries : ∀ message ∈ messages, 0 ≤ message.start ∧
    message.stop - message.start + 1 = message.data.length ∧
    message.data = (content.drop message.start.toNat).take message.data.length

private theorem chunked_of_tiles {content : List UInt8} {offset : Nat} {chunks : List Chunk}
    (tiles : Tiles content offset (chunks.map Chunk.piece) content.length)
    (cut : ∀ chunk ∈ chunks, chunk.bytes.length ≤ chunkLen ∧
      chunk.stop + 1 = chunk.start + chunk.bytes.length)
    (below : offset < content.length) : Chunked content offset chunkLen (chunks.map toMessage) where
  first := by
    obtain ⟨piece, head, start⟩ := tiles.head (Nat.ne_of_lt below)
    rw [List.head?_map] at head
    obtain ⟨chunk, first, rfl⟩ := Option.map_eq_some_iff.mp head
    refine ⟨toMessage chunk, ?_, congrArg Nat.cast start⟩
    rw [List.head?_map, first]
    rfl
  next := by
    have chain := (List.isChain_map _).mp tiles.isChain
    rw [List.isChain_map]
    apply chain.imp_of_mem_imp
    intro chunk following member _ start
    have stop := (cut chunk member).2
    simp only [Chunk.piece] at start
    simp only [toMessage]
    omega
  last := by
    have nonempty : chunks ≠ [] := by
      rintro rfl
      exact absurd tiles (Nat.ne_of_lt below)
    refine ⟨toMessage (chunks.getLast nonempty), ?_, ?_⟩
    · rw [List.getLast?_map, List.getLast?_eq_some_getLast nonempty]
      rfl
    · have piece : (chunks.getLast nonempty).piece ∈ (chunks.map Chunk.piece).getLast? := by
        rw [List.getLast?_map, List.getLast?_eq_some_getLast nonempty]
        rfl
      have ended := tiles.getLast _ piece
      have stop := (cut _ (List.getLast_mem nonempty)).2
      simp only [Chunk.piece] at ended
      simp only [toMessage]
      omega
  size := by
    intro message member
    obtain ⟨chunk, here, rfl⟩ := List.mem_map.mp member
    have nonempty := (tiles.mem (List.mem_map_of_mem here)).1
    exact ⟨List.length_pos_iff.mpr nonempty, (cut chunk here).1⟩
  carries := by
    intro message member
    obtain ⟨chunk, here, rfl⟩ := List.mem_map.mp member
    have stop := (cut chunk here).2
    have bytes := (tiles.mem (List.mem_map_of_mem here)).2
    refine ⟨Int.natCast_nonneg _, ?_, bytes⟩
    simp only [toMessage]
    omega

/-- **The loop of `rstrnt_chunk_log` fills every slot of the vector that it allocates, touches no
other, and the messages are the content from the offset on, cut into chunks.** -/
theorem chunk_log_fills (content : Content) (offset : Int) (chunkLen : Nat) (inside : 0 ≤ offset)
    (below : offset < content.bytes.length) (positive : 0 < chunkLen)
    (fits : msgc (content.bytes.length - offset.toNat) chunkLen < 2 ^ 31) :
    ∃ messages, rstrntChunkLog content offset chunkLen =
        some (some (messages.map some, (messages.length : Int))) ∧
      Chunked content.bytes offset chunkLen messages := by
  obtain ⟨offset, rfl⟩ := Int.eq_ofNat_of_zero_le inside
  rw [Int.toNat_natCast] at fits
  have below : offset < content.bytes.length := Int.ofNat_lt.mp below
  have bound := content.bound
  have count : (messages content offset chunkLen (content.bytes.length - offset)
      (content.bytes.length - offset)).length = msgc (content.bytes.length - offset) chunkLen :=
    (List.length_map _).trans (chunkLog_length positive)
  have chunked : Chunked content.bytes offset chunkLen (messages content offset chunkLen
      (content.bytes.length - offset) (content.bytes.length - offset)) :=
    chunked_of_tiles (chunkLog_tiles positive below.le)
      (fun chunk member => (chunkLoop_chunk positive (Nat.le_refl _) (by omega) chunk member).2) below
  refine ⟨_, ?_, chunked⟩
  have taken : ¬(content.bytes.length = 0 ∨ content.bytes.length ≤ toGsize offset ∨ chunkLen = 0) := by
    rw [toGsize_of_lt (by omega)]
    omega
  have left : toGsize ((content.bytes.length : Int) - offset) = content.bytes.length - offset := by
    have number : (content.bytes.length : Int) - offset =
        (content.bytes.length - offset : Nat) := by omega
    rw [number, toGsize_of_lt (by omega)]
  have fills : fillLoop content offset (content.bytes.length - offset) chunkLen
      (content.bytes.length - offset) (content.bytes.length - offset) 0
      (List.replicate (msgc (content.bytes.length - offset) chunkLen) none) = _ :=
    fillLoop_fills [] positive (Nat.le_refl _) (Nat.le_refl _) below.le
  have slots : ¬(msgc (content.bytes.length - offset) chunkLen : Int) < 0 := by omega
  unfold rstrntChunkLog
  simp only [taken, ↓reduceIte, left, toInt_of_lt fits, slots, Int.toNat_natCast, fills,
    Option.map_some]
  rw [count]
  rfl

/-- The 28 bytes of a log in chunks of ten, from the eighth on. -/
theorem chunk_log_fills_three :
    ∃ messages, rstrntChunkLog ⟨List.replicate 28 0, by decide⟩ 8 10 =
        some (some (messages.map some, (messages.length : Int))) ∧
      Chunked (List.replicate 28 0) 8 10 messages :=
  chunk_log_fills ⟨List.replicate 28 0, by decide⟩ 8 10 (by decide) (by decide) (by decide) (by decide)

end Restraint.ChunkVector
