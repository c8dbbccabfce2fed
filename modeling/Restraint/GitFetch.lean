import Restraint.Lib.MainLoop
import Restraint.Lib.Transition
import Restraint.SideBand

/-! A fetch from a git daemon: what `myopen` asks for and which answers it takes, and how
`restraint_fetch_git` comes to its end. Packets are taken as framed bytes with no regard to how they
are cut on the way. What opens is said of the stream of the daemon alone; the requests that were
sent and the buffer are results, not conditions. -/
namespace Restraint.GitFetch
open CString (Text gBuildFilename)
open Restraint.Fetch Restraint.FetchGit Restraint.PktLine Restraint.SideBand
open Transition (run run_keeps)

/-! ## The connection -/

def GIT_PORT : Nat := 9418
def GIT_BRANCH : Text := "master".toList

/-- What is used of a `SoupURI`. -/
structure SoupURI where
  host : Text
  port : Nat
  path : Text
  query : Option Text
  fragment : Option Text

/-- The texts that `myopen` sends. Each ends where its format has a NUL, so that the host and the
side band are not named. -/
def requests (url : SoupURI) : List Text :=
  let pathOffset := if "~".toList.isPrefixOf (url.path.drop 1) then 1 else 0
  let fragment := url.fragment.getD []
  let fragmentOffset := if "/".toList.isPrefixOf fragment then 1 else 0
  ["git-upload-archive ".toList ++ url.path.drop pathOffset,
    "argument ".toList ++ url.query.getD GIT_BRANCH ++ ':' :: fragment.drop fragmentOffset, []]

/-- `g_propagate_prefixed_error`. -/
def prefixedError (pre : Text) : PacketError → PacketError
  | .fetch code message => .fetch code (pre ++ message)
  | .stream message => .stream (pre ++ message)

def protocolError (message : String) : PacketError := .fetch .gitProtocol message.toList

/-- What `myopen` says to the text of the first line. -/
def refusal (text : Text) (len : Nat) : Option PacketError :=
  if text = "ACK".toList then none
  else if 5 < len ∧ "NACK ".toList.isPrefixOf text then
    some (.fetch .gitNak ("Refused by remote git daemon: ".toList ++ text))
  else if 4 < len ∧ "ERR ".toList.isPrefixOf text then
    some (.fetch .gitRemote ("Error from remote git daemon: ".toList ++ text.drop 4))
  else some (protocolError "Expected ACK/NAK from git daemon")

/-- The first line is in the buffer, of a length that is not 0; a newline at its end is taken away
there. -/
def acknowledge (buf : List Char) (len : Nat) : Option (Option PacketError × List Char) :=
  if buf[len - 1]? = some '\n' then
    (store buf (len - 1) [NUL]).map fun buf => (refusal (buf.takeWhile (· ≠ NUL)) (len - 1), buf)
  else some (refusal (buf.takeWhile (· ≠ NUL)) len, buf)

/-- What `myopen` comes to. -/
structure Opened where
  result : Except PacketError Unit
  ostream : OStream
  rest : IStream
  buf : List Char

/-- The second half of `myopen`, when everything was sent: the first line has to be an acknowledgement,
the second one a flush packet. -/
def readAnswer (ostream : OStream) (istream : IStream) (buf : List Char) : Option Opened :=
  (packetReadLine istream buf).bind fun line =>
    match line.result with
    | .error error => some ⟨.error error, ostream, line.rest, line.buffer⟩
    | .ok 0 =>
      some ⟨.error (protocolError "Expected ACK/NAK from git daemon, got EOF"), ostream, line.rest,
        line.buffer⟩
    | .ok len =>
      (acknowledge line.buffer len).bind fun (error, buf) =>
        match error with
        | some error => some ⟨.error error, ostream, line.rest, buf⟩
        | none =>
          (packetReadLine line.rest buf).map fun line =>
            match line.result with
            | .error error => ⟨.error error, ostream, line.rest, line.buffer⟩
            | .ok 0 => ⟨.ok (), ostream, line.rest, line.buffer⟩
            | .ok _ => ⟨.error (protocolError "Expected a flush"), ostream, line.rest, line.buffer⟩

/-- `myopen`; `connect` is how `g_socket_client_connect_to_host` fails, if it does. -/
def myopen (connect : Option Text) (url : SoupURI) (ostream : OStream) (istream : IStream)
    (buf : List Char) : Option Opened :=
  let port := if url.port ≠ 0 then url.port else GIT_PORT
  match connect with
  | some message =>
    some ⟨.error (prefixedError ("While connecting to ".toList ++ url.host ++ ':' ::
      (Decimal.print port ++ ": ".toList)) (.stream message)), ostream, istream, buf⟩
  | none =>
    match packetWrites ostream (requests url) with
    | (.error error, ostream) =>
      some ⟨.error (prefixedError ("While writing to ".toList ++ url.host ++ ": ".toList) error), ostream,
        istream, buf⟩
    | (.ok (), ostream) => readAnswer ostream istream buf

variable {url : SoupURI} {istream rest : IStream} {buf bytes payload reply gap : List Char}
  {ostream : OStream} {n len : Nat} {line : Line}

/-! ## Lines that are read -/

/-- A packet as a daemon can write it: the digits of its length are of any case. -/
def Framed (packet payload : List Char) : Prop := ∃ header, header.length = HDR_LEN_SIZE ∧
  packetLength header = some (payload.length + HDR_LEN_SIZE) ∧ packet = header ++ payload

/-- The flush packet, or a packet without payload. -/
def Gap (packet : List Char) : Prop := Framed packet [] ∨
  packet.length = HDR_LEN_SIZE ∧ packetLength packet = some 0

private theorem readAll_whole (clean : (readAll n istream).failure = none)
    (enough : (readAll n istream).bytes.length = n) :
    istream = (readAll n istream).bytes.map .ok ++ (readAll n istream).rest := by
  induction n generalizing istream with
  | zero => rfl
  | succ n ih =>
    cases istream with
    | nil => cases enough
    | cons item istream =>
      cases item with
      | error message => cases clean
      | ok c => exact congrArg (List.cons (Except.ok c)) (ih clean (Nat.succ.inj enough))

private theorem packetReadLine_framed {packet : List Char} (framed : Framed packet payload)
    (short : payload.length < buf.length) : packetReadLine (packet.map .ok ++ rest) buf =
      some ⟨.ok payload.length, payload ++ NUL :: buf.drop (payload.length + 1), rest⟩ := by
  obtain ⟨header, four, value, rfl⟩ := framed
  obtain ⟨stored, storing, ending⟩ := store_payload short
  have value : packetLength header = some (payload.length + 4) := value
  rw [packetReadLine, List.map_append, List.append_assoc, readAll_append four]
  simp only [four, Nat.lt_irrefl, if_false, value, Nat.add_sub_cancel, readAll_append rfl]
  rw [if_neg (by omega), if_neg (by omega), if_neg (by omega), storing, Option.bind_some, ending]
  rfl

/-- A line that was read has come in a packet, or there was a flush packet. -/
theorem packetReadLine_inv {stored : List Char}
    (read : packetReadLine istream buf = some ⟨.ok len, stored, rest⟩) :
    (len = 0 ∧ stored = buf ∧ ∃ header, header.length = HDR_LEN_SIZE ∧ packetLength header = some 0 ∧
      istream = header.map .ok ++ rest) ∨
    ∃ packet payload, Framed packet payload ∧ istream = packet.map .ok ++ rest ∧
      payload.length = len ∧ len < buf.length ∧ stored = payload ++ NUL :: buf.drop (len + 1) := by
  unfold packetReadLine at read
  dsimp only at read
  split at read
  · cases read
  rename_i clean
  split at read
  · cases read
  rename_i whole
  have four : (readAll HDR_LEN_SIZE istream).bytes.length = HDR_LEN_SIZE :=
    Nat.le_antisymm length_readAll (Nat.le_of_not_lt whole)
  have begins := readAll_whole clean four
  generalize (readAll HDR_LEN_SIZE istream).bytes = header at four begins read
  generalize (readAll HDR_LEN_SIZE istream).rest = more at begins read
  split at read
  · cases read
  rename_i size value
  split at read
  · rename_i zero
    cases read
    exact .inl ⟨rfl, rfl, header, four, zero ▸ value, begins⟩
  split at read
  · cases read
  rename_i large
  split at read
  · cases read
  obtain ⟨stored', storing, read⟩ := Option.bind_eq_some_iff.mp read
  split at read
  · cases read
  rename_i fine
  split at read
  · cases read
  rename_i all
  have enough : (readAll (size - 4) more).bytes.length = size - 4 :=
    Nat.le_antisymm length_readAll (Nat.le_of_not_lt all)
  have body := readAll_whole fine enough
  obtain ⟨ended, ending, same⟩ := Option.map_eq_some_iff.mp read
  cases same
  generalize (readAll (size - 4) more).bytes = payload at storing enough body
  have room : payload.length < buf.length := by omega
  obtain ⟨stored'', storing', ending'⟩ := store_payload room
  obtain rfl := Option.some.inj (storing.symm.trans storing')
  rw [enough] at ending'
  obtain rfl := Option.some.inj (ending.symm.trans ending')
  refine .inr ⟨header ++ payload, payload, ⟨header, four, ?_, rfl⟩, ?_, enough, by omega, rfl⟩
  · rw [value, enough, HDR_LEN_SIZE, Nat.sub_add_cancel (Nat.le_of_not_lt large)]
  · rw [List.map_append, List.append_assoc, ← body, ← begins]

/-! ## The answer of the daemon -/

/-- A line without the newline at its end. -/
def withoutNewline (line : List Char) : List Char :=
  if line.getLast? = some '\n' then line.dropLast else line

private theorem takeWhile_nul :
    (bytes ++ NUL :: payload).takeWhile (· ≠ NUL) = bytes.takeWhile (· ≠ NUL) := by
  induction bytes with
  | nil => rfl
  | cons c bytes ih =>
    rw [List.cons_append, List.takeWhile_cons, List.takeWhile_cons, ih]

private theorem acknowledge_eq (more : List Char) (any : payload ≠ []) :
    ∃ stored : List Char, stored.length = (payload ++ NUL :: more).length ∧
      acknowledge (payload ++ NUL :: more) payload.length =
        some (refusal ((withoutNewline payload).takeWhile (· ≠ NUL)) (withoutNewline payload).length,
          stored) := by
  obtain none | ⟨line, c, rfl⟩ := List.eq_nil_or_concat' payload
  · exact absurd none any
  have last : ((line ++ [c]) ++ NUL :: more)[(line ++ [c]).length - 1]? = some c := by
    rw [List.append_assoc, List.getElem?_append_right (by simp)]
    simp
  unfold acknowledge
  rw [last]
  by_cases newline : c = '\n'
  · subst newline
    have room : line.length + [NUL].length ≤ ((line ++ ['\n']) ++ NUL :: more).length := by simp
    obtain ⟨stored, storing, length⟩ := store_some ((line ++ ['\n']) ++ NUL :: more) line.length [NUL] room
    have shape : stored = line ++ NUL :: NUL :: more := by
      rw [store, if_pos room] at storing
      rw [← Option.some.inj storing]
      simp
    have own : withoutNewline (line ++ ['\n']) = line := by simp [withoutNewline]
    refine ⟨stored, length, ?_⟩
    rw [if_pos rfl, List.length_append, List.length_singleton, Nat.add_sub_cancel, storing, own,
      Option.map_some, shape, takeWhile_nul]
  · have own : withoutNewline (line ++ [c]) = line ++ [c] := by simp [withoutNewline, newline]
    refine ⟨_, rfl, ?_⟩
    rw [if_neg (by simpa using newline), own, takeWhile_nul]

/-- A line that is taken for an acknowledgement. -/
def Acks (payload : List Char) : Prop := (withoutNewline payload).takeWhile (· ≠ NUL) = "ACK".toList

instance : Decidable (Acks payload) := inferInstanceAs (Decidable (_ = _))

private theorem refusal_eq_none {text : Text} : refusal text len = none ↔ text = "ACK".toList := by
  unfold refusal
  split
  · rename_i same
    exact iff_of_true rfl same
  · rename_i differ
    refine iff_of_false (fun none => ?_) differ
    split at none
    · cases none
    split at none <;> cases none

theorem Acks.ne_nil (acks : Acks payload) : payload ≠ [] := by
  rintro rfl
  have none : ¬ (withoutNewline []).takeWhile (· ≠ NUL) = "ACK".toList := by decide
  exact none acks

/-! ## The requests -/

/-- All texts are sent if and only if each has a length of four digits. -/
theorem packetWrites_ok_iff {texts : List Text} :
    (∃ ostream, packetWrites ⟨bytes, none⟩ texts = (.ok (), ostream)) ↔
      ∀ text ∈ texts, text.length + HDR_LEN_SIZE < 16 ^ HDR_LEN_SIZE := by
  induction texts generalizing bytes with
  | nil => simp [packetWrites]
  | cons text texts ih =>
    rw [List.forall_mem_cons]
    by_cases fits : text.length + HDR_LEN_SIZE < 16 ^ HDR_LEN_SIZE
    · rw [and_iff_right fits, ← ih, packetWrites, packetWrite_packet fits]
    · have long : HDR_LEN_SIZE < (Hex.print HDR_LEN_SIZE (text.length + HDR_LEN_SIZE)).length := by
        have least : HDR_LEN_SIZE ≤ (Hex.print HDR_LEN_SIZE (text.length + HDR_LEN_SIZE)).length := by
          simp [Hex.print, List.leftpad]
          omega
        have other := mt (Hex.length_print (by decide)).mp fits
        omega
      refine iff_of_false ?_ fun both => fits both.1
      rintro ⟨ostream, sent⟩
      rw [packetWrites, packetWrite, if_pos long] at sent
      cases (Prod.mk.inj sent).1

private theorem packetWrites_sent {texts : List Text}
    (fits : ∀ text ∈ texts, text.length + HDR_LEN_SIZE < 16 ^ HDR_LEN_SIZE) :
    packetWrites ⟨bytes, none⟩ texts = (.ok (), ⟨bytes ++ texts.flatMap packet, none⟩) := by
  induction texts generalizing bytes with
  | nil => rw [packetWrites, List.flatMap_nil, List.append_nil]
  | cons text texts ih =>
    obtain ⟨here, later⟩ := List.forall_mem_cons.mp fits
    rw [packetWrites, packetWrite_packet here, List.flatMap_cons, ← List.append_assoc]
    exact ih later

/-! ## What opens -/

/-- What a daemon sends that lets the archive come. -/
structure Opens (istream rest : IStream) : Prop where
  answer : ∃ reply payload gap, Framed reply payload ∧ payload.length < LARGE_PACKET_MAX ∧
    Acks payload ∧ Gap gap ∧ istream = reply.map .ok ++ (gap.map .ok ++ rest)

private theorem packetReadLine_gap (gap : Gap bytes) (room : 0 < buf.length) :
    ∃ stored, packetReadLine (bytes.map .ok ++ rest) buf = some ⟨.ok 0, stored, rest⟩ := by
  rcases gap with framed | ⟨four, value⟩
  · exact ⟨_, packetReadLine_framed framed room⟩
  · refine ⟨buf, ?_⟩
    rw [packetReadLine, readAll_append four]
    simp only [four, Nat.lt_irrefl, if_false, value, if_true]

private theorem gap_of_packetReadLine {stored : List Char}
    (read : packetReadLine istream buf = some ⟨.ok 0, stored, rest⟩) :
    ∃ gap, Gap gap ∧ istream = gap.map .ok ++ rest := by
  obtain ⟨-, -, header, four, value, shape⟩ | ⟨packet, payload, framed, shape, length, -⟩ :=
    packetReadLine_inv read
  · exact ⟨header, .inr ⟨four, value⟩, shape⟩
  · obtain rfl := List.eq_nil_of_length_eq_zero length
    exact ⟨packet, .inl framed, shape⟩

/-- Each line fits into the buffer, which is never left. -/
theorem readAnswer_iff (length : buf.length = LARGE_PACKET_MAX) :
    (∃ stored, readAnswer ostream istream buf = some ⟨.ok (), ostream, rest, stored⟩) ↔
      Opens istream rest := by
  constructor
  · rintro ⟨stored, opened⟩
    obtain ⟨⟨result, first, more⟩, read, opened⟩ := Option.bind_eq_some_iff.mp opened
    rcases result with error | _ | len
    · cases opened
    · cases opened
    obtain ⟨⟨error, second⟩, said, opened⟩ := Option.bind_eq_some_iff.mp opened
    cases error with
    | some error => cases opened
    | none =>
      obtain ⟨⟨result, third, last⟩, flushed, opened⟩ := Option.map_eq_some_iff.mp opened
      rcases result with error | _ | len
      · cases opened
      · cases opened
        obtain ⟨zero, -⟩ | ⟨reply, payload, framed, shape, size, room, rfl⟩ := packetReadLine_inv read
        · cases zero
        obtain ⟨gap, isGap, rfl⟩ := gap_of_packetReadLine flushed
        have some : payload ≠ [] := List.ne_nil_of_length_pos (by omega)
        obtain ⟨stored', -, own⟩ := acknowledge_eq (buf.drop (len + 1 + 1)) some
        rw [size] at own
        have acks := refusal_eq_none.mp (congrArg Prod.fst (Option.some.inj (own.symm.trans said)))
        exact ⟨reply, payload, gap, framed, by omega, acks, isGap, shape⟩
      · cases opened
  · rintro ⟨reply, payload, gap, framed, short, acks, isGap, rfl⟩
    have read : packetReadLine (reply.map .ok ++ (gap.map .ok ++ rest)) buf = _ :=
      packetReadLine_framed framed (length ▸ short)
    obtain ⟨second, same, said⟩ := acknowledge_eq (buf.drop (payload.length + 1)) acks.ne_nil
    have room : 0 < second.length := by
      have positive := List.length_pos_of_ne_nil acks.ne_nil
      rw [same, List.length_append]
      omega
    obtain ⟨third, flushed⟩ : ∃ stored, packetReadLine (gap.map .ok ++ rest) second = _ :=
      packetReadLine_gap isGap room
    refine ⟨third, ?_⟩
    obtain ⟨c, line, rfl⟩ := List.exists_cons_of_ne_nil acks.ne_nil
    rw [refusal_eq_none.mpr acks] at said
    rw [readAnswer, read, Option.bind_some]
    simp only [List.length_cons] at said ⊢
    rw [said, Option.bind_some]
    simp only [flushed, Option.map_some]

/-- A line of a length that the buffer has room for. -/
theorem acknowledge_stays (positive : 0 < len) (room : len < buf.length) :
    ∃ error stored, acknowledge buf len = some (error, stored) ∧ stored.length = buf.length := by
  unfold acknowledge
  split
  · obtain ⟨stored, storing, length⟩ := store_some buf (len - 1) [NUL] (by
      rw [List.length_singleton]
      omega)
    rw [storing]
    exact ⟨_, stored, rfl, length⟩
  · exact ⟨_, buf, rfl, rfl⟩

/-- Whatever a daemon sends, nothing is stored beyond the buffer, and nothing more is sent. -/
theorem readAnswer_stays (ostream : OStream) (istream : IStream) (buf : List Char) :
    ∃ opened, readAnswer ostream istream buf = some opened ∧ opened.buf.length = buf.length ∧
      opened.ostream = ostream := by
  obtain ⟨⟨result, first, more⟩, read, length, bound⟩ := packetReadLine_stays istream buf
  rw [readAnswer, read, Option.bind_some]
  rcases result with error | _ | len
  · exact ⟨_, rfl, length, rfl⟩
  · exact ⟨_, rfl, length, rfl⟩
  have room : len + 1 < first.length := by
    have short := (bound (len + 1) rfl).resolve_left (by omega)
    exact length ▸ short
  obtain ⟨error, second, said, same⟩ := acknowledge_stays (by omega) room
  simp only [said, Option.bind_some]
  cases error with
  | some error => exact ⟨_, rfl, same.trans length, rfl⟩
  | none =>
    obtain ⟨⟨result, third, last⟩, flushed, kept, -⟩ := packetReadLine_stays more second
    simp only [flushed, Option.map_some]
    have whole : third.length = buf.length := kept.trans (same.trans length)
    rcases result with error | _ | len
    · exact ⟨_, rfl, whole, rfl⟩
    · exact ⟨_, rfl, whole, rfl⟩
    · exact ⟨_, rfl, whole, rfl⟩

private theorem myopen_stays (connect : Option Text) (url : SoupURI) (ostream : OStream)
    (istream : IStream)
    (buf : List Char) :
    ∃ opened, myopen connect url ostream istream buf = some opened ∧ opened.buf.length = buf.length := by
  unfold myopen
  dsimp only
  split
  · exact ⟨_, rfl, rfl⟩
  split
  · exact ⟨_, rfl, rfl⟩
  · obtain ⟨opened, answer, length, -⟩ := readAnswer_stays _ istream buf
    exact ⟨opened, answer, length⟩

/-- Requests that are too long are an error, and the daemon is not asked. -/
theorem myopen_fits {sent : OStream} {stored : List Char}
    (opened : myopen none url ⟨[], none⟩ istream buf = some ⟨.ok (), sent, rest, stored⟩) :
    (∀ text ∈ requests url, text.length + HDR_LEN_SIZE < 16 ^ HDR_LEN_SIZE) ∧
      readAnswer ⟨(requests url).flatMap packet, none⟩ istream buf =
        some ⟨.ok (), sent, rest, stored⟩ := by
  unfold myopen at opened
  dsimp only at opened
  split at opened
  · cases opened
  rename_i after written
  have fits := packetWrites_ok_iff.mp ⟨after, written⟩
  rw [packetWrites_sent fits, List.nil_append] at written
  obtain rfl := (Prod.mk.inj written).2
  exact ⟨fits, opened⟩

/-- **A fetch from a git daemon opens if and only if its requests fit into packets and the daemon
acknowledges and flushes**; then the daemon was sent the requests, and what libarchive gets of it is
the whole archive. Whatever comes, nothing is stored beyond the buffer. -/
theorem git_opens (length : buf.length = LARGE_PACKET_MAX) (connect : Option Text) (url : SoupURI)
    (ostream : OStream) (istream rest : IStream) :
    (∃ opened, myopen connect url ostream istream buf = some opened ∧
      opened.buf.length = LARGE_PACKET_MAX) ∧
    ((∃ sent stored, myopen none url ⟨[], none⟩ istream buf = some ⟨.ok (), sent, rest, stored⟩) ↔
      (∀ text ∈ requests url, text.length + HDR_LEN_SIZE < 16 ^ HDR_LEN_SIZE) ∧ Opens istream rest) ∧
    ∀ sent stored, myopen none url ⟨[], none⟩ istream buf = some ⟨.ok (), sent, rest, stored⟩ →
      sent.bytes = (requests url).flatMap packet ∧
      ∀ (payloads : List (List Char)) (behind : IStream) (n : Nat),
        (∀ payload ∈ payloads, payload ≠ [] ∧ payload.length + 1 < LARGE_PACKET_MAX) →
        rest = (sideBand payloads).map .ok ++ behind → payloads.length < n →
        obtain? n rest stored = some ⟨payloads.flatten, none, behind⟩ := by
  refine ⟨?_, ⟨?_, ?_⟩, ?_⟩
  · obtain ⟨opened, same, kept⟩ := myopen_stays connect url ostream istream buf
    exact ⟨opened, same, kept.trans length⟩
  · rintro ⟨sent, stored, opened⟩
    obtain ⟨fits, answer⟩ := myopen_fits opened
    obtain ⟨other, same, -, own⟩ :=
      readAnswer_stays ⟨(requests url).flatMap packet, none⟩ istream buf
    obtain rfl := Option.some.inj (same.symm.trans answer)
    exact ⟨fits, (readAnswer_iff length).mp ⟨stored, own ▸ answer⟩⟩
  · rintro ⟨fits, opens⟩
    obtain ⟨stored, answer⟩ := (readAnswer_iff length).mpr opens
    refine ⟨⟨[] ++ (requests url).flatMap packet, none⟩, stored, ?_⟩
    rw [myopen]
    simp only [packetWrites_sent fits]
    exact answer
  · intro sent stored opened
    obtain ⟨-, answer⟩ := myopen_fits opened
    obtain ⟨other, same, kept, own⟩ :=
      readAnswer_stays ⟨(requests url).flatMap packet, none⟩ istream buf
    obtain rfl := Option.some.inj (same.symm.trans answer)
    refine ⟨congrArg OStream.bytes own, ?_⟩
    rintro payloads behind n all rfl enough
    exact (side_band_iff stored (kept.trans length) payloads (fun payload member => (all payload member).2)
      behind n enough).mpr fun payload member => (all payload member).1

/-- A daemon that acknowledges, flushes and sends an archive of one packet. -/
theorem git_opens_archive : ∃ sent stored,
    myopen none ⟨"git.example".toList, 0, "/tests".toList, none, some "/kernel".toList⟩ ⟨[], none⟩
        (("0008ACK\n0004".toList ++ sideBand ["tar".toList]).map .ok) emptyBuf =
      some ⟨.ok (), sent, (sideBand ["tar".toList]).map .ok, stored⟩ ∧
    sent.bytes = "001dgit-upload-archive /tests001aargument master:kernel0004".toList ∧
    obtain? 2 ((sideBand ["tar".toList]).map .ok) stored = some ⟨"tar".toList, none, []⟩ := by
  have opens := git_opens length_emptyBuf none
    ⟨"git.example".toList, 0, "/tests".toList, none, some "/kernel".toList⟩ ⟨[], none⟩
    (("0008ACK\n0004".toList ++ sideBand ["tar".toList]).map .ok) ((sideBand ["tar".toList]).map .ok)
  have answer : Opens (("0008ACK\n0004".toList ++ sideBand ["tar".toList]).map .ok)
      ((sideBand ["tar".toList]).map .ok) :=
    ⟨⟨"0008ACK\n".toList, "ACK\n".toList, "0004".toList,
      ⟨"0008".toList, by decide, by decide, by decide⟩, by decide, by decide,
      .inl ⟨"0004".toList, by decide, by decide, by decide⟩, by decide⟩⟩
  obtain ⟨sent, stored, opened⟩ := opens.2.1.mpr ⟨by decide, answer⟩
  obtain ⟨bytes, archive⟩ := opens.2.2 sent stored opened
  refine ⟨sent, stored, opened, bytes.trans (by decide), ?_⟩
  exact archive ["tar".toList] [] 2 (by decide) (by simp) (by decide)

/-! ## The fetch -/

inductive Source where
  /-- The idle with `git_archive_read_callback`. -/
  | read
  /-- The idle with `archive_finish_callback`. -/
  | finish
  deriving DecidableEq

/-- The error of a fetch: of `myopen`, or of libarchive. -/
inductive FetchError where
  | connection (error : PacketError)
  | archive (error : GError)
  deriving DecidableEq

/-- A call of `finish_callback`. -/
structure Finish where
  error : Option FetchError
  matchCnt : UInt32
  deriving DecidableEq

structure State where
  loop : MainLoop Source
  /-- None once it is freed. -/
  fetch : Option FetchData
  /-- The error of `myopen`. -/
  connection : Option PacketError
  /-- The calls of `finish_callback`. -/
  finished : List Finish
  /-- Memory was used that is not there. -/
  crashed : Bool
  /-- A call has failed; the code does not keep this, nor what follows. -/
  failed : Bool
  /-- What libarchive said for the headers. -/
  headers : List Header
  /-- The paths of what was extracted. -/
  extracted : List Text

/-- The answers to the calls of `restraint_fetch_git`. -/
structure Setup where
  archiveReadNew : Bool
  archiveWriteDiskNew : Bool
  /-- How `myopen` fails, if it does. -/
  opened : Option PacketError
  /-- How `archive_read_open` fails, if it does. -/
  readOpen : Option Failure

/-- The answers to the calls of one callback. -/
structure World where
  header : Header
  access : Text → Bool
  extract2 : Option Failure

def State.attach (s : State) (source : Source) : State := { s with loop := s.loop.add source }

/-- `g_set_error` of an error of libarchive, and the idle that finishes. -/
def State.fail (s : State) (fetch : FetchData) (code : Int) (message : Text) : State :=
  State.attach { s with
    fetch := some (fetch.setError code message)
    failed := true } .finish

/-- `restraint_fetch_git`. The removal of the base path is left to the disk. -/
def restraintFetchGit (fragment : Option Text) (basePath : Text) (keepchanges : Bool) (setup : Setup) :
    State :=
  let fetch : FetchData := ⟨fragment, basePath, keepchanges, none, 0, 0⟩
  let s : State :=
    { loop := .empty
      fetch := some fetch
      connection := none
      finished := []
      crashed := false
      failed := false
      headers := []
      extracted := [] }
  if setup.archiveReadNew = false then s.fail fetch 0 "archive_read_new failed".toList
  else if setup.archiveWriteDiskNew = false then s.fail fetch 0 "archive_write_disk_new failed".toList
  else
    match setup.opened, setup.readOpen with
    | some error, _ => State.attach { s with connection := some error, failed := true } .finish
    | none, some failure =>
      s.fail fetch failure.r ("archive_read_open failed: ".toList ++ failure.text)
    | none, none => s.attach .read

/-- A call of `git_archive_read_callback` fails. What is kept is not extracted. -/
def World.fails (w : World) (fetch : FetchData) : Bool :=
  match w.header with
  | .eof => false
  | .failed _ => true
  | .entry entryPath =>
    (!fetch.keepchanges || !w.access (gBuildFilename [fetch.basePath, entryPath])) && w.extract2.isSome

/-- `git_archive_read_callback` with its idle, and `archive_finish_callback`. -/
def dispatch (s : State) (w : World) : Source → Option (State × Bool)
  | .read => s.fetch.map fun fetch =>
    let read := gitArchiveReadCallback fetch w.header w.access w.extract2
    let t := { s with
      fetch := some read.fetch
      failed := s.failed || w.fails fetch
      headers := s.headers ++ [w.header]
      extracted := s.extracted ++ read.extracted.toList }
    if read.more then (t, true) else (t.attach .finish, false)
  | .finish => s.fetch.map fun fetch =>
    ({ s with
      fetch := none
      finished := s.finished ++
        [⟨(s.connection.map .connection).or (fetch.error.map .archive), fetch.matchCnt⟩] }, false)

/-- The main loop dispatches an attached source; nothing happens after a crash. -/
def step : Transition.Step State (Nat × World) := fun s (id, w) =>
  if s.crashed then none
  else
    (s.loop.find? id).map fun source =>
      match dispatch s w source with
      | none => { s with crashed := true }
      | some (t, more) => if more then t else { t with loop := t.loop.remove id }

variable {s t : State} {w : World} {fetch : FetchData} {events : List (Nat × World)}

/-- What is left of a fetch: to read, to finish, or nothing. -/
inductive Phase (s : State) : Prop where
  | reading (id : Nat) (fetch : FetchData) (paths : List Text) (source : s.loop.sources = [(id, .read)])
      (held : s.fetch = some fetch) (connection : s.connection = none) (error : fetch.error = none)
      (failed : s.failed = false) (finished : s.finished = []) (headers : s.headers = paths.map .entry)
      (count : fetch.matchCnt = UInt32.ofNat s.extracted.length)
  | finishing (id : Nat) (fetch : FetchData) (source : s.loop.sources = [(id, .finish)])
      (held : s.fetch = some fetch)
      (error : s.failed = true ↔ s.connection.isSome = true ∨ fetch.error.isSome = true)
      (finished : s.finished = [])
      (headers : s.failed = false → ∃ paths : List Text, s.headers = paths.map .entry ++ [.eof])
      (count : fetch.matchCnt = UInt32.ofNat s.extracted.length)
  | ended (finish : Finish) (source : s.loop.sources = []) (finished : s.finished = [finish])
      (error : s.failed = true ↔ finish.error ≠ none)
      (headers : s.failed = false → ∃ paths : List Text, s.headers = paths.map .entry ++ [.eof])
      (count : finish.matchCnt = UInt32.ofNat s.extracted.length)

/-- A fetch is in one phase, and uses no memory that is not there. -/
structure Sound (s : State) : Prop where
  phase : Phase s
  safe : s.crashed = false

private theorem sources_add_remove {loop : MainLoop Source} {id : Nat} {source : Source}
    (only : loop.sources = [(id, source)]) (next : Source) :
    ((loop.add next).remove id).sources = [(loop.next, next)] := by
  have below : id < loop.next := loop.below (id, source) (by simp [only])
  simp [MainLoop.remove, only, Nat.ne_of_gt below]

private theorem sound_start (fragment : Option Text) (basePath : Text) (keepchanges : Bool)
    (setup : Setup) :
    Sound (restraintFetchGit fragment basePath keepchanges setup) := by
  unfold restraintFetchGit
  dsimp only
  split
  · exact ⟨.finishing 1 _ rfl rfl (by simp [State.fail, State.attach, FetchData.setError]) rfl
      (fun none => by cases none) rfl, rfl⟩
  split
  · exact ⟨.finishing 1 _ rfl rfl (by simp [State.fail, State.attach, FetchData.setError]) rfl
      (fun none => by cases none) rfl, rfl⟩
  split
  · exact ⟨.finishing 1 _ rfl rfl (by simp [State.attach]) rfl (fun none => by cases none) rfl, rfl⟩
  · exact ⟨.finishing 1 _ rfl rfl (by simp [State.fail, State.attach, FetchData.setError]) rfl
      (fun none => by cases none) rfl, rfl⟩
  · exact ⟨.reading 1 _ [] rfl rfl rfl rfl rfl rfl rfl rfl, rfl⟩

/-- What one call of `git_archive_read_callback` does. -/
theorem read_cases (fetch : FetchData) (w : World) :
    (w.header = .eof ∧ w.fails fetch = false ∧
      gitArchiveReadCallback fetch w.header w.access w.extract2 = ⟨fetch, false, none, none⟩) ∨
    (∃ path extracted count, w.header = .entry path ∧ w.fails fetch = false ∧
      gitArchiveReadCallback fetch w.header w.access w.extract2 =
        ⟨{ fetch with matchCnt := count }, true, extracted, some path⟩ ∧
      count = fetch.matchCnt + UInt32.ofNat extracted.toList.length) ∨
    (∃ code message reported, w.fails fetch = true ∧
      gitArchiveReadCallback fetch w.header w.access w.extract2 =
        ⟨fetch.setError code message, false, none, reported⟩) := by
  unfold World.fails gitArchiveReadCallback
  cases header : w.header with
  | eof => exact .inl ⟨rfl, rfl, rfl⟩
  | failed failure => exact .inr (.inr ⟨_, _, none, rfl, rfl⟩)
  | entry path =>
    dsimp only
    by_cases extracts : fetch.keepchanges = false ∨
        w.access (gBuildFilename [fetch.basePath, path]) = false
    · have taken : (!fetch.keepchanges || !w.access (gBuildFilename [fetch.basePath, path])) = true := by
        simpa using extracts
      rw [if_pos extracts, taken, Bool.true_and]
      cases result : w.extract2 with
      | none => exact .inr (.inl ⟨path, _, _, rfl, rfl, rfl, rfl⟩)
      | some failure => exact .inr (.inr ⟨_, _, some path, rfl, rfl⟩)
    · have kept : (!fetch.keepchanges || !w.access (gBuildFilename [fetch.basePath, path])) = false := by
        simpa using extracts
      rw [if_neg extracts, kept, Bool.false_and]
      exact .inr (.inl ⟨path, none, fetch.matchCnt, rfl, rfl, rfl, by simp⟩)

theorem find?_only {loop : MainLoop Source} {id i : Nat} {source other : Source}
    (only : loop.sources = [(id, source)]) (found : loop.find? i = some other) : i = id ∧ other = source := by
  have member := MainLoop.find?_eq_some.mp found
  rw [only, List.mem_singleton] at member
  exact Prod.mk.inj member

theorem step_sound (sound : Sound s) (stepped : step s event = some t) : Sound t := by
  obtain ⟨phase, safe⟩ := sound
  obtain ⟨i, w⟩ := event
  rw [step, safe] at stepped
  simp only [Bool.false_eq_true, if_false] at stepped
  obtain ⟨other, found, rfl⟩ := Option.map_eq_some_iff.mp stepped
  cases phase with
  | reading id fetch paths source held connection error failed finished headers count =>
    obtain ⟨rfl, rfl⟩ := find?_only source found
    simp only [dispatch, held, Option.map_some]
    obtain ⟨header, fine, read⟩ | ⟨path, extracted, n, header, fine, read, more⟩ |
      ⟨code, message, reported, fails, read⟩ := read_cases fetch w
    · rw [read]
      simp only [Bool.false_eq_true, if_false]
      refine ⟨.finishing s.loop.next fetch (sources_add_remove source .finish) rfl ?_ finished
        (fun _ => ⟨paths, ?_⟩) ?_, safe⟩
      · simp [State.attach, failed, fine, connection, error]
      · simp [State.attach, headers, header]
      · simpa [State.attach] using count
    · rw [read]
      simp only [if_true]
      refine ⟨.reading i _ (paths ++ [path]) source rfl connection error ?_ finished ?_ ?_, safe⟩
      · simp [failed, fine]
      · simp [headers, header]
      · simp [more, count, UInt32.ofNat_add]
    · rw [read]
      simp only [Bool.false_eq_true, if_false]
      refine ⟨.finishing s.loop.next _ (sources_add_remove source .finish) rfl ?_ finished
        (fun none => ?_) ?_, safe⟩
      · simp [State.attach, fails, FetchData.setError, error]
      · simp [State.attach, fails] at none
      · simpa [State.attach, FetchData.setError] using count
  | finishing id fetch source held error finished headers count =>
    obtain ⟨rfl, rfl⟩ := find?_only source found
    simp only [dispatch, held, Option.map_some, Bool.false_eq_true, if_false]
    refine ⟨.ended _ ?_ (by rw [finished]; rfl) ?_ headers count, safe⟩
    · simp [MainLoop.remove, source]
    · rw [error]
      cases s.connection <;> cases fetch.error <;> simp
  | ended finish source finished error headers count =>
    have member := MainLoop.find?_eq_some.mp found
    rw [source] at member
    cases member

/-- **A fetch from a git daemon finishes once**, whatever libarchive answers: until then one idle is
attached, and afterwards none. It finishes without an error if and only if no call failed; then
the archive was read to its end. -/
theorem git_finishes_once (fragment : Option Text) (basePath : Text) (keepchanges : Bool) (setup : Setup)
    (ran : run step (restraintFetchGit fragment basePath keepchanges setup) events = some s) :
    s.crashed = false ∧
    ((∃ id source, s.loop.sources = [(id, source)] ∧ s.finished = []) ∨
      ∃ finish, s.loop.sources = [] ∧ s.finished = [finish] ∧
        (finish.error = none ↔ s.failed = false) ∧
        finish.matchCnt = UInt32.ofNat s.extracted.length ∧
        (finish.error = none → ∃ paths : List Text, s.headers = paths.map .entry ++ [.eof])) := by
  obtain ⟨phase, safe⟩ := run_keeps (fun _ _ _ => step_sound) (sound_start ..) ran
  refine ⟨safe, ?_⟩
  cases phase with
  | reading id fetch paths source _ _ _ _ finished => exact .inl ⟨id, _, source, finished⟩
  | finishing id fetch source _ _ finished => exact .inl ⟨id, _, source, finished⟩
  | ended finish source finished error headers count =>
    have iff : finish.error = none ↔ s.failed = false := by
      rw [← Bool.not_eq_true, error, not_not]
    exact .inr ⟨finish, source, finished, iff, count, fun none => headers (iff.mp none)⟩

theorem git_finishes_once_entry : ∃ s finish,
    run step (restraintFetchGit none "/mnt/tests".toList true ⟨true, true, none, none⟩)
      [(1, ⟨.entry "Makefile".toList, fun _ => false, none⟩),
        (1, ⟨.entry "runtest.sh".toList, fun _ => true, some ⟨-30, "read".toList⟩⟩),
        (1, ⟨.eof, fun _ => true, none⟩), (2, ⟨.eof, fun _ => true, none⟩)] = some s ∧
    s.finished = [finish] ∧ finish = ⟨none, 1⟩ := by
  have runs : ((run step (restraintFetchGit none "/mnt/tests".toList true ⟨true, true, none, none⟩)
      [(1, ⟨.entry "Makefile".toList, fun _ => false, none⟩),
        (1, ⟨.entry "runtest.sh".toList, fun _ => true, some ⟨-30, "read".toList⟩⟩),
        (1, ⟨.eof, fun _ => true, none⟩), (2, ⟨.eof, fun _ => true, none⟩)]).map fun s =>
        (s.failed, s.extracted.length, s.loop.sources)) = some (false, 1, []) := by
    decide +kernel
  obtain ⟨s, ran, seen⟩ := Option.map_eq_some_iff.mp runs
  obtain ⟨failed, extracted, sources⟩ := by simpa only [Prod.mk.injEq] using seen
  obtain ⟨-, ⟨id, source, attached, -⟩ | ⟨finish, -, finished, error, count, -⟩⟩ := git_finishes_once _ _ _ _ ran
  · rw [sources] at attached
    cases attached
  · refine ⟨s, finish, ran, finished, ?_⟩
    obtain ⟨error', count'⟩ := finish
    obtain rfl : error' = none := error.mpr failed
    rw [extracted] at count
    rw [show count' = 1 from count]

end Restraint.GitFetch
