import Restraint.FetchGit

/-! Lines in packets: what is written is read back, and whatever is read, nothing is stored beyond
the buffer. The length that a packet announces is not trusted: the reader is followed for every
stream, those that end early or fail included. -/
namespace Restraint.PktLine
open CString (Text)
open Restraint.FetchGit

/-- A text that fits into a packet and into the buffer of the reader. -/
structure Fits (size : Nat) (payload : Text) : Prop where
  nonempty : payload ≠ []
  noNul : NUL ∉ payload
  short : payload.length < size
  header : payload.length + HDR_LEN_SIZE < 16 ^ HDR_LEN_SIZE

/-- `packet_write` of one text after the other. -/
def packetWrites : OStream → List Text → Except PacketError Unit × OStream
  | ostream, [] => (.ok (), ostream)
  | ostream, payload :: payloads =>
    match packetWrite ostream payload with
    | (.error error, ostream) => (.error error, ostream)
    | (.ok (), ostream) => packetWrites ostream payloads

/-- `packet_read_line` so many times, with what it leaves in the buffer each time. -/
def packetReadLines : Nat → IStream → List Char → Option (List (Except PacketError Text) × IStream)
  | 0, istream, _ => some ([], istream)
  | n + 1, istream, buffer =>
    (packetReadLine istream buffer).bind fun line =>
      (packetReadLines n line.rest line.buffer).map fun later =>
        (line.result.map (line.buffer.take ·) :: later.1, later.2)

variable {istream rest : IStream} {buffer bytes : List Char} {payload : Text} {payloads : List Text}
  {n : Nat}

/-! ## Streams and buffers -/

theorem length_readAll : (readAll n istream).bytes.length ≤ n := by
  induction n generalizing istream with
  | zero => exact Nat.le_refl 0
  | succ n ih =>
    cases istream with
    | nil => exact Nat.zero_le _
    | cons item istream =>
      cases item with
      | error message => exact Nat.zero_le _
      | ok c => exact Nat.succ_le_succ ih

/-- Enough bytes are there. -/
theorem readAll_append (enough : bytes.length = n) :
    readAll n (bytes.map .ok ++ rest) = ⟨bytes, none, rest⟩ := by
  subst enough
  induction bytes with
  | nil => rfl
  | cons c bytes ih =>
    rw [List.length_cons, List.map_cons, List.cons_append, readAll, ih]

/-- What fits is stored, and the buffer keeps its length. -/
theorem store_some (buffer : List Char) (place : Nat) (bytes : List Char)
    (fits : place + bytes.length ≤ buffer.length) :
    ∃ stored, store buffer place bytes = some stored ∧ stored.length = buffer.length := by
  refine ⟨_, if_pos fits, ?_⟩
  simp only [List.length_append, List.length_take, List.length_drop]
  omega

private theorem packetLength_eq {linelen : List Char} : packetLength linelen = Hex.value 0 linelen := by
  have step (len val : Nat) : (len <<< HDR_LEN_SIZE) + val = 16 * len + val := by
    rw [Nat.shiftLeft_eq, HDR_LEN_SIZE, Nat.mul_comm]
  rw [packetLength, Hex.value]
  simp only [step]

/-! ## One packet -/

/-- A packet: the length with the header, and the payload. -/
def packet (payload : Text) : List Char :=
  Hex.print HDR_LEN_SIZE (payload.length + HDR_LEN_SIZE) ++ payload

theorem packetWrite_packet {bytes : List Char}
    (header : payload.length + HDR_LEN_SIZE < 16 ^ HDR_LEN_SIZE) :
    packetWrite ⟨bytes, none⟩ payload = (.ok (), ⟨bytes ++ packet payload, none⟩) := by
  have length := (Hex.length_print (by decide)).mpr header
  rw [packetWrite, if_neg (by omega)]
  simp only [writeAll, packet, List.append_assoc]

/-- A payload and a NUL, stored at the start of the buffer. -/
theorem store_payload (short : payload.length < buffer.length) :
    ∃ stored, store buffer 0 payload = some stored ∧
      store stored payload.length [NUL] =
        some (payload ++ NUL :: buffer.drop (payload.length + 1)) := by
  refine ⟨payload ++ buffer.drop payload.length, ?_, ?_⟩
  · rw [store, if_pos (by omega)]
    simp
  · rw [store, if_pos (by simp; omega)]
    simp [List.drop_append]

/-- The payload of a packet comes to the start of the buffer, with a NUL behind it. -/
theorem packetReadLine_packet (short : payload.length < buffer.length)
    (header : payload.length + HDR_LEN_SIZE < 16 ^ HDR_LEN_SIZE) :
    packetReadLine ((packet payload).map .ok ++ rest) buffer =
      some ⟨.ok payload.length, payload ++ NUL :: buffer.drop (payload.length + 1), rest⟩ := by
  have length := (Hex.length_print (by decide)).mpr header
  have first : readAll HDR_LEN_SIZE ((packet payload).map .ok ++ rest) =
      ⟨Hex.print HDR_LEN_SIZE (payload.length + HDR_LEN_SIZE), none, payload.map .ok ++ rest⟩ := by
    rw [packet, List.map_append, List.append_assoc, readAll_append length]
  have value : packetLength (Hex.print HDR_LEN_SIZE (payload.length + HDR_LEN_SIZE)) =
      some (payload.length + 4) := packetLength_eq.trans Hex.value_print
  obtain ⟨stored, storing, ending⟩ := store_payload short
  rw [packetReadLine, first]
  simp only [length, Nat.lt_irrefl, if_false, value, Nat.add_sub_cancel, readAll_append rfl]
  rw [if_neg (by omega), if_neg (by omega), if_neg (by omega), storing, Option.bind_some, ending]
  rfl

/-- A flush packet has no payload, and nothing is stored. -/
def flush : List Char := "0000".toList

/-- Reading comes to an end without a store beyond the buffer, with an error or a length that
the buffer has room for. -/
def Stays (buffer : List Char) (read : Option Line) : Prop :=
  ∃ line, read = some line ∧ line.buffer.length = buffer.length ∧
    ∀ len, line.result = .ok len → len = 0 ∨ len < buffer.length

private theorem stays_error {stored : List Char} {error : PacketError}
    (length : stored.length = buffer.length) :
    Stays buffer (some ⟨.error error, stored, rest⟩) :=
  ⟨_, rfl, length, fun _ same => by cases same⟩

private theorem stays_ok {stored : List Char} {len : Nat} (length : stored.length = buffer.length)
    (room : len = 0 ∨ len < buffer.length) : Stays buffer (some ⟨.ok len, stored, rest⟩) :=
  ⟨_, rfl, length, fun _ same => by cases same; exact room⟩

/-- Whatever comes, nothing is stored beyond the buffer. -/
theorem packetReadLine_stays (istream : IStream) (buffer : List Char) :
    Stays buffer (packetReadLine istream buffer) := by
  unfold packetReadLine
  dsimp only
  split
  · exact stays_error rfl
  split
  · exact stays_error rfl
  split
  · exact stays_error rfl
  rename_i len _
  split
  · exact stays_ok rfl (.inl rfl)
  split
  · exact stays_error rfl
  split
  · exact stays_error rfl
  rename_i room
  -- the body is shorter than the buffer
  have short : (readAll (len - 4) (readAll HDR_LEN_SIZE istream).rest).bytes.length ≤ len - 4 :=
    length_readAll
  obtain ⟨stored, storing, length⟩ := store_some buffer 0
    (readAll (len - 4) (readAll HDR_LEN_SIZE istream).rest).bytes (by omega)
  rw [storing, Option.bind_some]
  split
  · exact stays_error length
  split
  · exact stays_error length
  obtain ⟨ended, ending, same⟩ := store_some stored (len - 4) [NUL] (by
    rw [length, List.length_singleton]
    omega)
  rw [ending]
  exact stays_ok (same.trans length) (.inr (by omega))

/-! ## All packets -/

theorem packetWrites_packets (fits : ∀ payload ∈ payloads, Fits n payload) :
    packetWrites ⟨bytes, none⟩ payloads = (.ok (), ⟨bytes ++ payloads.flatMap packet, none⟩) := by
  induction payloads generalizing bytes with
  | nil => rw [packetWrites, List.flatMap_nil, List.append_nil]
  | cons payload payloads ih =>
    obtain ⟨here, later⟩ := List.forall_mem_cons.mp fits
    rw [packetWrites, packetWrite_packet here.header, List.flatMap_cons, ← List.append_assoc]
    exact ih later

private theorem packetReadLines_packets (fits : ∀ payload ∈ payloads, Fits buffer.length payload) :
    packetReadLines payloads.length ((payloads.flatMap packet).map .ok ++ rest) buffer =
      some (payloads.map .ok, rest) := by
  induction payloads generalizing buffer with
  | nil => rfl
  | cons payload payloads ih =>
    obtain ⟨here, later⟩ := List.forall_mem_cons.mp fits
    have short := here.short
    have same : (payload ++ NUL :: buffer.drop (payload.length + 1)).length = buffer.length := by
      simp only [List.length_append, List.length_cons, List.length_drop]
      omega
    rw [List.length_cons, packetReadLines, List.flatMap_cons, List.map_append, List.append_assoc,
      packetReadLine_packet here.short here.header, Option.bind_some,
      ih fun other member => same.symm ▸ later other member]
    simp only [Option.map_some, Except.map, List.take_left, List.map_cons]

/-- **What `packet_write` writes, `packet_read_line` reads back**, payload by payload and nothing
more; **and whatever it reads, it stores nothing beyond its buffer** and comes to an error or to a
length. -/
theorem pkt_line (buffer : List Char) (payloads : List Text) (rest istream : IStream)
    (fits : ∀ payload ∈ payloads, Fits buffer.length payload) :
    (∃ bytes, packetWrites ⟨[], none⟩ payloads = (.ok (), ⟨bytes, none⟩) ∧
      packetReadLines payloads.length (bytes.map .ok ++ rest) buffer =
        some (payloads.map .ok, rest)) ∧
    Stays buffer (packetReadLine istream buffer) :=
  ⟨⟨_, packetWrites_packets fits, packetReadLines_packets fits⟩, packetReadLine_stays istream buffer⟩

/-- Two payloads, of which the second just fits. -/
theorem pkt_line_two :
    (∃ bytes, packetWrites ⟨[], none⟩ ["want".toList, "done\n".toList] = (.ok (), ⟨bytes, none⟩) ∧
      packetReadLines 2 (bytes.map .ok ++ []) (List.replicate 6 NUL) =
        some ([.ok "want".toList, .ok "done\n".toList], [])) ∧
    Stays (List.replicate 6 NUL) (packetReadLine [.ok '0', .error "reset".toList] (List.replicate 6 NUL)) := by
  apply pkt_line (List.replicate 6 NUL) ["want".toList, "done\n".toList] [] _
  intro payload member
  rcases List.mem_pair.mp member with rfl | rfl <;>
    exact ⟨by decide, by decide, by decide, by decide⟩

end Restraint.PktLine
