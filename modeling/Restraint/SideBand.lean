import Restraint.PktLine

/-! The archive that comes over the side band. `myread` hands libarchive the payload of one packet
after the other; the length 0 means the end of the file to libarchive, and a packet without
payload has it as well as the flush packet. -/
namespace Restraint.SideBand
open CString (Text)
open Restraint.FetchGit Restraint.PktLine

/-- The side band of the archive. -/
def ARCHIVE_BAND : Char := '\x01'

/-- Packets of the side band, and a flush packet behind them. -/
def sideBand (payloads : List (List Char)) : List Char :=
  payloads.flatMap (fun payload => packet (ARCHIVE_BAND :: payload)) ++ flush

/-- What libarchive has obtained when it stops reading. -/
structure Obtained where
  bytes : List Char
  error : Option Text
  /-- What was not read. -/
  rest : IStream
  deriving DecidableEq

/-- libarchive calls `myread` until it answers 0 for the end of the file or an error. -/
def obtain? : Nat → IStream → List Char → Option Obtained
  | 0, _, _ => none
  | n + 1, istream, buf =>
    (myread istream buf).bind fun (answer, buf, rest) =>
      if answer.len = 0 then some ⟨[], none, rest⟩
      else if answer.len < 0 then some ⟨[], answer.error, rest⟩
      else (obtain? n rest buf).map fun later => { later with bytes := answer.bytes ++ later.bytes }

variable {istream rest : IStream} {buf payload : List Char} {payloads : List (List Char)} {n : Nat}

/-- A packet of the archive's band. -/
theorem myread_packet (payload : List Char) (rest : IStream) (length : buf.length = LARGE_PACKET_MAX)
    (fits : payload.length + 1 < LARGE_PACKET_MAX) :
    ∃ buf', buf'.length = LARGE_PACKET_MAX ∧
      myread ((packet (ARCHIVE_BAND :: payload)).map .ok ++ rest) buf =
        some (⟨payload.length, payload, none⟩, buf', rest) := by
  have short : (ARCHIVE_BAND :: payload).length < buf.length := by rw [length]; exact fits
  refine ⟨ARCHIVE_BAND :: payload ++ NUL :: buf.drop (payload.length + 1 + 1), ?_, ?_⟩
  · rw [← length]
    simp only [List.length_append, List.length_cons, List.length_drop] at short ⊢
    omega
  · have header : (ARCHIVE_BAND :: payload).length + HDR_LEN_SIZE < 16 ^ HDR_LEN_SIZE := by
      rw [List.length_cons]
      unfold LARGE_PACKET_MAX at fits
      unfold HDR_LEN_SIZE
      omega
    have band : ARCHIVE_BAND.toNat % 256 = 1 := rfl
    rw [myread, packetReadLine_packet short header, Option.map_some]
    simp [band]

/-- The flush packet. -/
theorem myread_flush : myread (flush.map .ok ++ rest) buf = some (⟨0, [], none⟩, buf, rest) := rfl

private theorem sideBand_cons : (sideBand (payload :: payloads)).map .ok ++ rest =
    (packet (ARCHIVE_BAND :: payload)).map .ok ++ ((sideBand payloads).map .ok ++ rest) := by
  simp [sideBand]

/-- At a packet without payload libarchive stops reading. -/
theorem obtain_empty (n : Nat) (payloads : List (List Char)) (rest : IStream)
    (length : buf.length = LARGE_PACKET_MAX) :
    obtain? (n + 1) ((sideBand ([] :: payloads)).map .ok ++ rest) buf =
      some ⟨[], none, (sideBand payloads).map .ok ++ rest⟩ := by
  obtain ⟨buf', -, read⟩ := myread_packet [] ((sideBand payloads).map .ok ++ rest) length (by decide)
  rw [sideBand_cons, obtain?, read]
  rfl

/-- What is behind a packet without payload is not read. -/
theorem sideBand_unread : (sideBand payloads).map .ok ++ rest ≠ rest := by
  intro same
  have lengths := congrArg List.length same
  simp only [sideBand, flush, List.length_append, List.length_map] at lengths
  simp at lengths

/-- **The archive is delivered whole, and its end is signalled at the flush packet, if and only if
no packet is without payload.** -/
theorem side_band_iff (buf : List Char) (length : buf.length = LARGE_PACKET_MAX)
    (payloads : List (List Char)) (fits : ∀ payload ∈ payloads, payload.length + 1 < LARGE_PACKET_MAX)
    (rest : IStream) (n : Nat) (enough : payloads.length < n) :
    obtain? n ((sideBand payloads).map .ok ++ rest) buf = some ⟨payloads.flatten, none, rest⟩ ↔
      ∀ payload ∈ payloads, payload ≠ [] := by
  induction payloads generalizing n buf with
  | nil =>
    obtain ⟨n, rfl⟩ := Nat.exists_eq_succ_of_ne_zero (Nat.ne_of_gt enough)
    refine iff_of_true ?_ fun payload member => (List.not_mem_nil member).elim
    rw [sideBand, List.flatMap_nil, List.nil_append, obtain?, myread_flush]
    rfl
  | cons payload payloads ih =>
    obtain ⟨n, rfl⟩ := Nat.exists_eq_succ_of_ne_zero (Nat.ne_of_gt (Nat.zero_lt_of_lt enough))
    obtain ⟨here, later⟩ := List.forall_mem_cons.mp fits
    rw [List.forall_mem_cons]
    cases payload with
    | nil =>
      -- the end of the file is signalled here, and the flush packet is still to come
      rw [obtain_empty n payloads rest length]
      refine iff_of_false (fun same => ?_) fun nonempty => nonempty.1 rfl
      exact sideBand_unread (congrArg Obtained.rest (Option.some.inj same))
    | cons c payload =>
      obtain ⟨buf', length', read⟩ :=
        myread_packet (c :: payload) ((sideBand payloads).map .ok ++ rest) length here
      have positive : ((c :: payload).length : Int) ≠ 0 := by simp; omega
      have signed : ¬((c :: payload).length : Int) < 0 := by omega
      rw [sideBand_cons, obtain?, read, Option.bind_some]
      simp only [if_neg positive, if_neg signed]
      rw [and_iff_right (List.cons_ne_nil _ _), ← ih buf' length' later n (Nat.succ_lt_succ_iff.mp enough)]
      cases obtain? n ((sideBand payloads).map .ok ++ rest) buf' with
      | none => simp
      | some obtained =>
        cases obtained
        simp

/-- The buffer of a fetch. -/
def emptyBuf : List Char := List.replicate LARGE_PACKET_MAX NUL

theorem length_emptyBuf : emptyBuf.length = LARGE_PACKET_MAX := List.length_replicate

theorem side_band_iff_two :
    obtain? 3 ((sideBand ["ab".toList, "c".toList]).map .ok ++ []) emptyBuf =
      some ⟨"abc".toList, none, []⟩ :=
  (side_band_iff emptyBuf length_emptyBuf ["ab".toList, "c".toList] (by decide) [] 3 (by decide)).mpr
    (by decide)

/-- The first packet has no payload: nothing of the archive is delivered. -/
theorem side_band_stops :
    obtain? 3 ((sideBand [[], "abc".toList]).map .ok ++ []) emptyBuf =
        some ⟨[], none, (sideBand ["abc".toList]).map .ok ++ []⟩ ∧
      obtain? 3 ((sideBand [[], "abc".toList]).map .ok ++ []) emptyBuf ≠
        some ⟨[[], "abc".toList].flatten, none, []⟩ := by
  have stops := obtain_empty 2 ["abc".toList] [] length_emptyBuf
  refine ⟨stops, fun whole => ?_⟩
  have same := Option.some.inj (stops.symm.trans whole)
  exact absurd (congrArg Obtained.bytes same) (by decide)

end Restraint.SideBand
