import Telegravim.Foundation.Incremental
import Telegravim.Mtproto.TlsSocket

set_option autoImplicit false

/-!
# Records in the disguise of TLS

Behind the greeting the stream is a list of records. Their payload is what the socket returns, in whatever pieces it
comes and is read; a record with another header ends it. What is written is again a list of records.

## Main definitions

* `Tls.records` — a reader of records, byte by byte.
* `Tls.payload`, `Tls.Broken` — the payload of a stream, and whether a record with another header stands in it.
* `Tls.left` — what a reader would still make of the buffer of a socket.
* `Tls.Written` — what is written is records with the payload.

## Main results

* `Tls.checkNextPacket_spec`, `Tls.read_spec` — marking a record and reading payload lose nothing.
* `Tls.writeParts_written` — what is written has the payload, in records of a limited size.
-/

namespace Tls

open Positional (bigEndian ofBigEndian)

/-! ### The payload of a stream -/

lemma CheckPart_append {data check : Bytes} (h : check.length ≤ data.length) (more : Bytes) :
    CheckPart (data ++ more) check = CheckPart data check := by
  rw [CheckPart, CheckPart, if_neg (by rw [List.length_append]; omega), if_neg (by omega),
    List.take_append_of_le_length h]

lemma ReadPartLength_append {data : Bytes} {offset : ℕ} (h : offset + kLengthSize ≤ data.length) (more : Bytes) :
    ReadPartLength (data ++ more) offset = ReadPartLength data offset := by
  rw [ReadPartLength, ReadPartLength, List.drop_append_of_le_length (by omega),
    List.take_append_of_le_length (by rw [List.length_drop]; omega)]

lemma ReadPartLength_lt (data : Bytes) (offset : ℕ) : ReadPartLength data offset < 65536 := by
  have hlt := Positional.ofBigEndian_lt ((data.drop offset).take kLengthSize)
  have hlength : ((data.drop offset).take kLengthSize).length ≤ 2 := List.length_take_le _ _
  exact lt_of_lt_of_le hlt (Nat.pow_le_pow_right (by decide) hlength)

lemma CheckPart_eq_true {data check : Bytes} (h : CheckPart data check = true) : data.take check.length = check := by
  rw [CheckPart] at h
  split_ifs at h
  exact of_decide_eq_true h

/-- Two bytes are the length that they stand for. -/
lemma bigEndian_ReadPartLength {data : Bytes} {offset : ℕ} (h : offset + 2 ≤ data.length) :
    bigEndian kLengthSize (ReadPartLength data offset) = (data.drop offset).take kLengthSize := by
  have hlength : ((data.drop offset).take kLengthSize).length = kLengthSize := by
    rw [List.length_take, List.length_drop, kLengthSize]
    omega
  have hbytes := Positional.bigEndian_ofBigEndian ((data.drop offset).take kLengthSize)
  rwa [hlength] at hbytes

/-- What a reader of records does at the start of some bytes, where so many of a record are left. -/
def recordStep : ℕ → Bytes → Incremental.Outcome ℕ UInt8
  | 0, bytes =>
    if bytes.length ≤ 5 then .wait
    else if CheckPart bytes kServerHeader = false then .stop []
    else .take 5 (ReadPartLength bytes 3) []
  | _ + 1, [] => .wait
  | remaining + 1, byte :: _ => .take 1 remaining [byte]

lemma recordStep_append (remaining : ℕ) (bytes more : Bytes) (h : recordStep remaining bytes ≠ .wait) :
    recordStep remaining (bytes ++ more) = recordStep remaining bytes := by
  cases remaining with
  | zero =>
    rw [recordStep] at h
    by_cases hshort : bytes.length ≤ 5
    · exact absurd (if_pos hshort) h
    · have hheader : kServerHeader.length ≤ bytes.length := le_trans (by decide) (Nat.lt_of_not_le hshort).le
      rw [recordStep, recordStep, if_neg (by rw [List.length_append]; omega), if_neg hshort,
        CheckPart_append hheader, ReadPartLength_append (by rw [kLengthSize]; omega)]
  | succ remaining =>
    cases bytes with
    | nil => exact absurd rfl h
    | cons byte bytes => rfl

lemma recordStep_take (remaining : ℕ) (bytes : Bytes) (count next : ℕ) (out : Bytes)
    (h : recordStep remaining bytes = .take count next out) : 0 < count ∧ count ≤ bytes.length := by
  cases remaining with
  | zero =>
    rw [recordStep] at h
    split_ifs at h
    cases h
    omega
  | succ remaining =>
    cases bytes with
    | nil => cases h
    | cons byte bytes =>
      cases h
      rw [List.length_cons]
      omega

/-- **A reader of records**, byte by byte: it keeps how much of a record is left, and gives out the payload. -/
def records : Incremental UInt8 ℕ UInt8 where
  step := recordStep
  stable := recordStep_append
  progress := recordStep_take

/-- **The payload of a stream** of records. -/
def payload (stream : Bytes) : Bytes := (records.run 0 stream).1

/-- Whether a record with another header stands in a stream. -/
def Broken (stream : Bytes) : Prop := (records.run 0 stream).2 = none

/-- Something given out before a result. -/
def after (given : Bytes) (result : Bytes × Option (ℕ × Bytes)) : Bytes × Option (ℕ × Bytes) :=
  (given ++ result.1, result.2)

lemma after_after (given more : Bytes) (result : Bytes × Option (ℕ × Bytes)) :
    after given (after more result) = after (given ++ more) result := by
  rw [after, after, after, List.append_assoc]

/-- Within a record the bytes are payload. -/
lemma run_within (remaining : ℕ) {bytes : Bytes} {count : ℕ} (hremaining : count ≤ remaining)
    (hbytes : count ≤ bytes.length) :
    records.run remaining bytes = after (bytes.take count) (records.run (remaining - count) (bytes.drop count)) := by
  induction count generalizing remaining bytes with
  | zero => rfl
  | succ count ih =>
    rcases remaining with - | remaining
    · omega
    rcases bytes with - | ⟨byte, bytes⟩
    · exact absurd hbytes (Nat.not_succ_le_zero _)
    have hstep : records.step (remaining + 1) (byte :: bytes) = .take 1 remaining [byte] := rfl
    have hbytes' : count ≤ bytes.length := by
      rw [List.length_cons] at hbytes
      omega
    rw [Incremental.run_take hstep, List.drop_succ_cons, List.drop_zero, ih remaining (by omega) hbytes',
      Nat.add_sub_add_right, List.drop_succ_cons, List.take_succ_cons]
    rfl

/-- A header, of a record that is empty or not. -/
lemma run_header {bytes : Bytes} (hlong : ¬bytes.length ≤ 5) (hheader : CheckPart bytes kServerHeader ≠ false) :
    records.run 0 bytes = records.run (ReadPartLength bytes 3) (bytes.drop 5) := by
  have hstep : records.step 0 bytes = .take 5 (ReadPartLength bytes 3) [] :=
    (if_neg hlong).trans (if_neg hheader)
  rw [Incremental.run_take hstep]
  rfl

lemma run_broken {bytes : Bytes} (hlong : ¬bytes.length ≤ 5) (hheader : CheckPart bytes kServerHeader = false) :
    records.run 0 bytes = ([], none) :=
  Incremental.run_stop ((if_neg hlong).trans (if_pos hheader))

lemma run_short {bytes : Bytes} (hshort : bytes.length ≤ 5) : records.run 0 bytes = ([], some (0, bytes)) :=
  Incremental.run_wait (if_pos hshort)

/-! ### What is left in the buffer -/

/-- What a reader would still make of the buffer of a socket. -/
def left (socket : TlsSocket) : Bytes × Option (ℕ × Bytes) :=
  if socket.incomingGoodDataLimit = 0 then records.run 0 socket.incoming
  else records.run socket.incomingGoodDataLimit (socket.incoming.drop socket.incomingGoodDataOffset)

/-- The place of the payload is in the buffer, and there is none without a limit. -/
structure Marked (socket : TlsSocket) : Prop where
  none : socket.incomingGoodDataLimit = 0 → socket.incomingGoodDataOffset = 0
  some : socket.incomingGoodDataOffset ≤ socket.incoming.length

/-- A socket with another place and another buffer. -/
def place (socket : TlsSocket) (incoming : Bytes) (offset limit : ℕ) : TlsSocket :=
  { socket with incoming := incoming, incomingGoodDataOffset := offset, incomingGoodDataLimit := limit }

/-- More bytes in the buffer. -/
lemma left_append {socket : TlsSocket} (hmarked : Marked socket) (more : Bytes) :
    left { socket with incoming := socket.incoming ++ more } = records.feed (left socket) more := by
  rw [left, left]
  split_ifs with hlimit
  · exact records.run_append 0 socket.incoming more
  · rw [← records.run_append, List.drop_append_of_le_length hmarked.some]

lemma shiftIncomingBy_eq {socket : TlsSocket} (hoffset : socket.incomingGoodDataOffset = 0)
    (hlimit : socket.incomingGoodDataLimit = 0) (amount : ℕ) :
    shiftIncomingBy socket amount = some { socket with incoming := socket.incoming.drop amount } := by
  rw [shiftIncomingBy, if_neg (by rw [hoffset, hlimit]; exact not_or.mpr ⟨fun h => h rfl, fun h => h rfl⟩)]
  split_ifs with hlong
  · rfl
  · rw [List.drop_eq_nil_of_le (Nat.le_of_not_lt hlong)]

/-- What marking the next record makes of a socket: nothing is lost; there is a record with another header, or the rest
waits for more, or a record is marked. -/
inductive Marks (socket : TlsSocket) (stream : Bytes × Option (ℕ × Bytes)) : Bool × TlsSocket → Prop
  | broken (stream_eq : stream = ([], none)) : Marks socket stream (false, socket)
  | short (rest : Bytes) (stream_eq : stream = ([], some (0, rest))) : Marks socket stream (true, socket)
  | marked (incoming : Bytes) (limit : ℕ) (positive : 0 < limit) (long : 5 < incoming.length)
    (stream_eq : stream = records.run limit (incoming.drop 5)) :
    Marks socket stream (true, place socket incoming 5 limit)

/-- **Empty records are skipped** from an offset on, and the next record is marked. -/
theorem checkNextPacketFrom_marks {socket : TlsSocket} {offset : ℕ} (hoffset : socket.incomingGoodDataOffset = 0)
    (hlimit : socket.incomingGoodDataLimit = 0) (hle : offset ≤ socket.incoming.length) :
    ∃ result, checkNextPacketFrom socket offset = some result ∧
      Marks socket (records.run 0 (socket.incoming.drop offset)) result := by
  have hheader : kServerHeader.length + kLengthSize = 5 := rfl
  have hthree : kServerHeader.length = 3 := rfl
  induction hn : socket.incoming.length - offset using Nat.strongRecOn generalizing offset with
  | _ n ih =>
    have hdrop := List.length_drop (i := offset) (l := socket.incoming)
    have hlength : ReadPartLength socket.incoming (offset + 3) = ReadPartLength (socket.incoming.drop offset) 3 := by
      rw [ReadPartLength, ReadPartLength, List.drop_drop]
    rw [checkNextPacketFrom, if_neg (not_not_intro hlimit)]
    dsimp only
    rw [hheader, hthree, hlength]
    by_cases hshort : socket.incoming.length ≤ offset + 5
    · rw [if_pos hshort, run_short (by omega)]
      exact ⟨_, rfl, .short _ rfl⟩
    rw [if_neg hshort]
    by_cases hcheck : CheckPart (socket.incoming.drop offset) kServerHeader = false
    · rw [if_pos hcheck, run_broken (by omega) hcheck]
      exact ⟨_, rfl, .broken rfl⟩
    rw [if_neg hcheck, run_header (by omega) hcheck]
    by_cases hpositive : ReadPartLength (socket.incoming.drop offset) 3 > 0
    · have hshift : (if offset > 0 then shiftIncomingBy socket offset else some socket) =
          some { socket with incoming := socket.incoming.drop offset } := by
        split_ifs with hzero
        · exact shiftIncomingBy_eq hoffset hlimit offset
        · rw [Nat.eq_zero_of_not_pos hzero]
          rfl
      have hlong : 5 < (socket.incoming.drop offset).length := by omega
      rw [if_pos hpositive, hshift, Option.map_some]
      exact ⟨_, rfl, .marked _ _ hpositive hlong rfl⟩
    · have hzero := Nat.eq_zero_of_not_pos hpositive
      rw [if_neg hpositive, hzero, Nat.add_zero, List.drop_drop]
      exact ih (socket.incoming.length - (offset + 5)) (by omega) (by omega) rfl

/-- **Marking the next record** loses nothing. -/
theorem checkNextPacket_spec {socket : TlsSocket} (hmarked : Marked socket) :
    ∃ ok incoming offset limit, checkNextPacket socket = some (ok, place socket incoming offset limit) ∧
      left (place socket incoming offset limit) = left socket ∧ Marked (place socket incoming offset limit) ∧
      (ok = false → left socket = ([], none) ∧ limit = 0) ∧
      (ok = true → limit = 0 → (left socket).1 = [] ∧ (left socket).2 ≠ none) := by
  by_cases hlimit : socket.incomingGoodDataLimit = 0
  · obtain ⟨⟨ok, next⟩, hresult, hmarks⟩ := checkNextPacketFrom_marks (hmarked.none hlimit) hlimit (Nat.zero_le _)
    have hleft : left socket = records.run 0 (socket.incoming.drop 0) := if_pos hlimit
    rw [checkNextPacket, hresult]
    cases hmarks with
    | broken hstream =>
      refine ⟨false, socket.incoming, socket.incomingGoodDataOffset, socket.incomingGoodDataLimit, rfl, rfl, hmarked,
        fun _ => ⟨hleft.trans hstream, hlimit⟩, nofun⟩
    | short rest hstream =>
      refine ⟨true, socket.incoming, socket.incomingGoodDataOffset, socket.incomingGoodDataLimit, rfl, rfl, hmarked,
        nofun, fun _ _ => ?_⟩
      rw [hleft, hstream]
      exact ⟨rfl, nofun⟩
    | marked incoming limit hpositive hlong hstream =>
      refine ⟨true, incoming, 5, limit, rfl, ?_, ⟨fun h => absurd h (Nat.pos_iff_ne_zero.mp hpositive), hlong.le⟩, nofun,
        fun _ h => absurd h (Nat.pos_iff_ne_zero.mp hpositive)⟩
      rw [hleft, hstream]
      exact if_neg (Nat.pos_iff_ne_zero.mp hpositive)
  · refine ⟨true, socket.incoming, socket.incomingGoodDataOffset, socket.incomingGoodDataLimit, ?_, rfl, hmarked, nofun,
      fun _ h => absurd h hlimit⟩
    rw [checkNextPacket, checkNextPacketFrom, if_pos hlimit]
    rfl

/-- What reading payload makes of a socket: another place, where a record is marked or nothing is left before the rest
has come, or the error at a record with another header. -/
inductive Reads (socket : TlsSocket) : TlsSocket → Prop
  | same : Reads socket socket
  | placed (incoming : Bytes) (offset limit : ℕ)
    (idle : limit = 0 → (left (place socket incoming offset limit)).1 = [] ∧
      (left (place socket incoming offset limit)).2 ≠ none) :
    Reads socket (place socket incoming offset limit)
  | broken (incoming : Bytes) (offset : ℕ) (stream : left (place socket incoming offset 0) = ([], none)) :
    Reads socket (invokeQueued { place socket incoming offset 0 with state := .Error } .handleError)

lemma Reads.trans_place {socket next : TlsSocket} {incoming : Bytes} {offset limit : ℕ}
    (h : Reads (place socket incoming offset limit) next)
    (hidle : limit = 0 → (left (place socket incoming offset limit)).1 = [] ∧
      (left (place socket incoming offset limit)).2 ≠ none) : Reads socket next := by
  cases h with
  | same => exact .placed incoming offset limit hidle
  | placed incoming' offset' limit' hidle' => exact .placed incoming' offset' limit' hidle'
  | broken incoming' offset' hstream => exact .broken incoming' offset' hstream

/-- **Reading payload** gives out what a reader would make of the buffer. -/
theorem read_spec {socket : TlsSocket} (hmarked : Marked socket) (size : ℕ) :
    ∃ bytes next, read socket size = some (bytes, next) ∧ left socket = after bytes (left next) ∧ Marked next ∧
      Reads socket next := by
  induction size using Nat.strongRecOn generalizing socket with
  | _ size ih =>
    rw [read]
    by_cases hlimit : socket.incomingGoodDataLimit = 0
    · rw [if_pos hlimit]
      exact ⟨[], socket, rfl, rfl, hmarked, .same⟩
    rw [if_neg hlimit]
    dsimp only
    have hlength := List.length_drop (i := socket.incomingGoodDataOffset) (l := socket.incoming)
    generalize havailable : min socket.incomingGoodDataLimit
      (socket.incoming.length - socket.incomingGoodDataOffset) = available
    generalize hwrite : min available size = write
    have hsome := hmarked.some
    have hleft : left socket = after ((socket.incoming.drop socket.incomingGoodDataOffset).take write)
        (records.run (socket.incomingGoodDataLimit - write)
          (socket.incoming.drop (socket.incomingGoodDataOffset + write))) := by
      have hwithin : write ≤ socket.incomingGoodDataLimit := by omega
      have hcome : write ≤ (socket.incoming.drop socket.incomingGoodDataOffset).length := by omega
      rw [left, if_neg hlimit, run_within _ hwithin hcome, List.drop_drop]
    split_ifs with hnone hzero hrest
    · exact ⟨[], socket, rfl, rfl, hmarked, .same⟩
    · exact ⟨[], socket, rfl, rfl, hmarked, .same⟩
    · refine ⟨_, place socket socket.incoming (socket.incomingGoodDataOffset + write)
        (socket.incomingGoodDataLimit - write), rfl, ?_, ⟨fun h => absurd h hrest, ?_⟩,
        .placed _ _ _ fun h => absurd h hrest⟩
      · rw [hleft]
        exact congrArg (after _) (if_neg hrest).symm
      · exact show socket.incomingGoodDataOffset + write ≤ socket.incoming.length by omega
    · have hdone : socket.incomingGoodDataLimit - write = 0 := not_not.mp hrest
      rw [hdone] at hleft ⊢
      rw [shiftIncomingBy_eq rfl rfl]
      have hshifted : Marked (place socket (socket.incoming.drop (socket.incomingGoodDataOffset + write)) 0 0) :=
        ⟨fun _ => rfl, Nat.zero_le _⟩
      obtain ⟨ok, incoming, offset, limit, hcheck, hsame, hmarked', hbroken, hidle⟩ := checkNextPacket_spec hshifted
      have hcheck' : checkNextPacket
          { { socket with incomingGoodDataLimit := 0, incomingGoodDataOffset := 0 } with
            incoming := socket.incoming.drop (socket.incomingGoodDataOffset + write) } =
          some (ok, place socket incoming offset limit) := hcheck
      have hrun : records.run 0 (socket.incoming.drop (socket.incomingGoodDataOffset + write)) =
          left (place socket incoming offset limit) := hsame.symm
      dsimp only
      rw [hcheck']
      cases ok with
      | false =>
        obtain ⟨hstream, rfl⟩ := hbroken rfl
        refine ⟨_, _, rfl, ?_, ?_, .broken incoming offset (hsame.trans hstream)⟩
        · rw [hleft, hrun]
          rfl
        · exact ⟨hmarked'.none, hmarked'.some⟩
      | true =>
        have hmarkedPlace : Marked (place socket incoming offset limit) := ⟨hmarked'.none, hmarked'.some⟩
        obtain ⟨more, next, hnext, hmore, hmarkedNext, hreads⟩ := ih (size - write) (by omega) hmarkedPlace
        dsimp only
        rw [hnext, Option.map_some]
        refine ⟨_, next, rfl, ?_, hmarkedNext, hreads.trans_place fun hlimit => ?_⟩
        · rw [hleft, hrun, hmore, after_after]
        · rw [← hrun]
          exact hidle rfl hlimit

/-! ### What is written -/

/-- **What is written is records**: each has between one byte and the size of a part as its payload, and its length in its
header. Between them may stand the message that comes before a start. -/
inductive Written : Bytes → Bytes → Prop
  | nil : Written [] []
  | clientPrefix {written sent : Bytes} (before : Written written sent) : Written (written ++ kClientPrefix) sent
  | record {written sent : Bytes} (before : Written written sent) (data : Bytes) (nonempty : 1 ≤ data.length)
    (small : data.length ≤ kClientPartSize) :
    Written (written ++ (kClientHeader ++ bigEndian kLengthSize data.length ++ data)) (sent ++ data)

/-- **A buffer is written in records**, with the start in the first of them. -/
theorem writeParts_written {written sent start buffer : Bytes} (h : Written written sent)
    (hstart : start.length ≤ kClientPartSize) (hbuffer : buffer ≠ []) :
    Written (written ++ writeParts start buffer) (sent ++ (start ++ buffer)) := by
  induction hn : start.length + buffer.length using Nat.strongRecOn generalizing written sent start buffer with
  | _ n ih =>
    have hpositive := List.length_pos_iff.mpr hbuffer
    rw [writeParts, if_neg hbuffer, Cursor.difference, if_pos hstart]
    dsimp only
    generalize hwrite : min (kClientPartSize - start.length) buffer.length = write
    have hdata : (start ++ buffer.take write).length = start.length + write := by
      rw [List.length_append, List.length_take]
      omega
    have hone : 1 ≤ (start ++ buffer.take write).length := by
      rw [hdata]
      rcases start with - | ⟨byte, start⟩
      · rw [List.length_nil, kClientPartSize] at hwrite
        omega
      · rw [List.length_cons]
        omega
    have hsmall : (start ++ buffer.take write).length ≤ kClientPartSize := by
      rw [hdata]
      omega
    have hrecord := h.record (start ++ buffer.take write) hone hsmall
    rw [hdata] at hone hrecord
    have hsent : sent ++ (start ++ buffer) = sent ++ (start ++ buffer.take write) ++ buffer.drop write := by
      rw [List.append_assoc, List.append_assoc, List.take_append_drop]
    have hwritten : written ++ (kClientHeader ++ bigEndian kLengthSize (start.length + write) ++ start ++
        buffer.take write ++ writeParts [] (buffer.drop write)) =
        written ++ (kClientHeader ++ bigEndian kLengthSize (start.length + write) ++ (start ++ buffer.take write)) ++
          writeParts [] (buffer.drop write) := by
      simp only [List.append_assoc]
    rw [hsent, hwritten]
    by_cases hrest : buffer.drop write = []
    · rw [hrest, List.append_nil, writeParts, if_pos rfl, List.append_nil]
      exact hrecord
    · have hempty : ([] : Bytes).length ≤ kClientPartSize := Nat.zero_le _
      have hless : ([] : Bytes).length + (buffer.drop write).length < n := by
        rw [List.length_nil, List.length_drop]
        omega
      have hnext := ih _ hless hrecord hempty hrest rfl
      rw [List.nil_append] at hnext
      exact hnext

/-- What `write` writes. -/
lemma write_written {socket next : TlsSocket} {start buffer : Bytes} (hstart : start.length ≤ kClientPartSize)
    (hwrite : write socket start buffer = some next) {sent : Bytes} (h : Written socket.written sent) :
    Written next.written (sent ++ if isConnected socket then start ++ buffer else []) := by
  rw [write] at hwrite
  split_ifs at hwrite with hbuffer hconnected hempty
  · cases hwrite
    rw [hconnected, if_neg nofun, List.append_nil]
    exact h
  · cases hwrite
    rw [if_pos (Bool.eq_true_of_not_eq_false hconnected), List.append_nil]
    exact writeParts_written h hstart hbuffer
  · cases hwrite
    rw [if_pos (Bool.eq_true_of_not_eq_false hconnected)]
    exact writeParts_written h.clientPrefix hstart hbuffer

end Tls
