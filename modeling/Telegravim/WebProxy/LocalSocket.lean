import Telegravim.Foundation.Incremental
import Telegravim.Foundation.WebSocket
import Telegravim.WebProxy.Transport

set_option autoImplicit false

/-!
# The web socket of the local server

The browser talks to the local server through a web socket. The server puts the parts of a message together again, which
may come with control frames between them, answers pings of a client that it knows, and closes the connection at the
first frame that breaks a rule. What comes after a close is not followed here.

## Main definitions

* `WebProxy.LocalSocket.readFrame` — the frame at the start of the input.
* `WebProxy.LocalSocket.reader` — what is done frame by frame.
* `WebProxy.LocalSocket.processWebSocket`, `WebProxy.LocalSocket.clientReadyRead` — input has come.

## Main results

* `WebProxy.LocalSocket.clientReadyRead_processWebSocket` — input may come in pieces.
* `WebProxy.LocalSocket.readFrame_bytes` — a frame is read where it has come.
-/

namespace WebProxy.LocalSocket

open WebSocket (Mask masked number)

def kMaxLocalWebSocketPayload : ℕ := 2 * 1024 * 1024

/-! ### Frames -/

/-- What stands at the start of the input: not enough, something at which the connection is closed, or a frame of so
many bytes. -/
inductive Parsed where
  | wait
  | close (code : ℕ)
  | frame (fin : Bool) (opcode : UInt8) (payload : Bytes) (full : ℕ)
  deriving DecidableEq

/-- A frame whose length has been read. -/
def readPayload (input : Bytes) (fin : Bool) (opcode : UInt8) (size header : ℕ) : Parsed :=
  if size > kMaxLocalWebSocketPayload ∨ (opcode &&& 0x08 ≠ 0 ∧ (fin = false ∨ size > 125)) then .close 1009
  else if input.length < header + 4 + size then .wait
  else
    .frame fin opcode (masked ((input.drop header).take 4) ((input.drop (header + 4)).take size)) (header + 4 + size)

/-- The length of a payload and the number of bytes before the mask, as far as they have come. -/
inductive Length where
  | wait
  | close
  | known (size header : ℕ)

/-- The length of a payload, by the seven bits in the second byte and the bytes behind it. It has to be written in the
shortest form. -/
def readLength (size : ℕ) (rest : Bytes) : Length :=
  if size = 126 then
    if rest.length < 2 then .wait
    else if number (rest.take 2) < 126 then .close
    else .known (number (rest.take 2)) 4
  else if size = 127 then
    if rest.length < 8 then .wait
    else if rest.headD 0 &&& 0x80 ≠ 0 then .close
    else if number (rest.take 8) ≤ 0xFFFF then .close
    else .known (number (rest.take 8)) 10
  else .known size 2

/-- **The frame at the start of the input.** -/
def readFrame : Bytes → Parsed
  | [] => .wait
  | [_] => .wait
  | data0 :: data1 :: rest =>
    if data0 &&& 0x70 ≠ 0 ∨ data1 &&& 0x80 = 0 then .close 1002
    else
      match readLength (data1 &&& 0x7F).toNat rest with
      | .wait => .wait
      | .close => .close 1002
      | .known size header =>
        readPayload (data0 :: data1 :: rest) (data0 &&& 0x80 ≠ 0) (data0 &&& 0x0F) size header

/-! ### Clients -/

/-- The rest of the server, with a state of its own: whether the client is authenticated and is the browser, and what is
done about a text of the browser and about a payload for the relay. Either may close the connection with a code. -/
structure Host (H : Type) where
  authenticated : H → Bool
  isBrowser : H → Bool
  processBrowserControl : H → Bytes → H × Option ℕ
  processRelayPayload : H → Bytes → H × Option ℕ

/-- A client, besides its input. The opcode is zero where no message is in parts. -/
structure Client (H : Type) where
  fragmented : Bytes
  fragmentedOpcode : UInt8
  host : H

/-- What is done for a client: a message is delivered, a pong is sent, or the connection is closed. -/
inductive Event where
  | message (opcode : UInt8) (payload : Bytes)
  | pong (payload : Bytes)
  | close (payload : Bytes)
  deriving DecidableEq

/-- The connection is closed with a code. -/
def closeWebSocket (code : ℕ) : Event := .close [UInt8.ofNat (code >>> 8), UInt8.ofNat code]

variable {H : Type} (server : Host H)

def processWebSocketMessage (host : H) (opcode : UInt8) (payload : Bytes) : H × Option ℕ :=
  if opcode = 0x01 then server.processBrowserControl host payload
  else if server.authenticated host = false ∨ server.isBrowser host = false then (host, some 1008)
  else server.processRelayPayload host payload

/-- A message is delivered, and the connection goes on unless it is closed over it. -/
def deliver (client : Client H) (opcode : UInt8) (payload : Bytes) (full : ℕ) :
    Incremental.Outcome (Client H) Event :=
  match processWebSocketMessage server client.host opcode payload with
  | (host, none) => .take full { client with host := host } [.message opcode payload]
  | (_, some code) => .stop [.message opcode payload, closeWebSocket code]

/-- What is done about the start of the input. -/
def react (client : Client H) : Parsed → Incremental.Outcome (Client H) Event
  | .wait => .wait
  | .close code => .stop [closeWebSocket code]
  | .frame fin opcode payload full =>
    if opcode = 0x08 then
      if payload.length = 1 then .stop [closeWebSocket 1002] else .stop [.close (payload.take 125)]
    else if opcode = 0x09 then
      .take full client (if server.authenticated client.host then [.pong payload] else [])
    else if opcode = 0x0A then .take full client []
    else if opcode = 0x00 then
      if client.fragmentedOpcode = 0 then .stop [closeWebSocket 1002]
      else
        let fragmented := client.fragmented ++ payload
        if fragmented.length > kMaxLocalWebSocketPayload then .stop [closeWebSocket 1009]
        else if fin then
          deliver server { client with fragmented := [], fragmentedOpcode := 0 } client.fragmentedOpcode fragmented full
        else .take full { client with fragmented := fragmented } []
    else if opcode = 0x01 ∨ opcode = 0x02 then
      if client.fragmentedOpcode ≠ 0 then .stop [closeWebSocket 1002]
      else if fin then deliver server client opcode payload full
      else .take full { client with fragmented := payload, fragmentedOpcode := opcode } []
    else .stop [closeWebSocket 1002]

/-! ### More input changes nothing at the start -/

lemma take_append {bytes : Bytes} {count : ℕ} (h : ¬bytes.length < count) (more : Bytes) :
    (bytes ++ more).take count = bytes.take count :=
  List.take_append_of_le_length (Nat.le_of_not_lt h)

lemma readPayload_append {input : Bytes} {fin : Bool} {opcode : UInt8} {size header : ℕ}
    (h : readPayload input fin opcode size header ≠ .wait) (more : Bytes) :
    readPayload (input ++ more) fin opcode size header = readPayload input fin opcode size header := by
  rw [readPayload] at h ⊢
  rw [readPayload]
  refine ite_congr rfl (fun _ => rfl) fun hsmall => ?_
  rw [if_neg hsmall] at h
  by_cases hwait : input.length < header + 4 + size
  · exact absurd (if_pos hwait) h
  · rw [if_neg (by rw [List.length_append]; omega), if_neg hwait, List.drop_append_of_le_length (by omega),
      List.drop_append_of_le_length (by omega), take_append (by rw [List.length_drop]; omega),
      take_append (by rw [List.length_drop]; omega)]

lemma readLength_append {size : ℕ} {rest : Bytes} (h : readLength size rest ≠ .wait) (more : Bytes) :
    readLength size (rest ++ more) = readLength size rest := by
  rw [readLength] at h ⊢
  rw [readLength]
  refine ite_congr rfl (fun hmiddle => ?_) fun hmiddle => ite_congr rfl (fun hlong => ?_) fun _ => rfl
  · rw [if_pos hmiddle] at h
    by_cases hwait : rest.length < 2
    · exact absurd (if_pos hwait) h
    · rw [if_neg (by rw [List.length_append]; omega), if_neg hwait, take_append hwait]
  · rw [if_neg hmiddle, if_pos hlong] at h
    by_cases hwait : rest.length < 8
    · exact absurd (if_pos hwait) h
    · have hhead : (rest ++ more).headD 0 = rest.headD 0 := by
        cases rest with
        | nil => exact absurd (by decide) hwait
        | cons byte rest => rfl
      rw [if_neg (by rw [List.length_append]; omega), if_neg hwait, take_append hwait, hhead]

/-- What stands at the start is not changed by more input. -/
lemma readFrame_append {input : Bytes} (h : readFrame input ≠ .wait) (more : Bytes) :
    readFrame (input ++ more) = readFrame input := by
  rcases input with - | ⟨data0, - | ⟨data1, rest⟩⟩
  · exact absurd rfl h
  · exact absurd rfl h
  rw [List.cons_append, List.cons_append]
  rw [readFrame] at h ⊢
  rw [readFrame]
  refine ite_congr rfl (fun _ => rfl) fun hallowed => ?_
  rw [if_neg hallowed] at h
  rcases hlength : readLength (data1 &&& 0x7F).toNat rest with - | - | ⟨size, header⟩
  · rw [hlength] at h
    exact absurd rfl h
  · rw [readLength_append (by rw [hlength]; exact nofun), hlength]
  · rw [hlength] at h
    rw [readLength_append (by rw [hlength]; exact nofun), hlength]
    exact readPayload_append h more

lemma readPayload_frame {input payload : Bytes} {fin last : Bool} {opcode kind : UInt8} {size header full : ℕ}
    (h : readPayload input fin opcode size header = .frame last kind payload full) :
    0 < full ∧ full ≤ input.length := by
  rw [readPayload] at h
  split_ifs at h
  cases h
  omega

lemma readFrame_frame {input payload : Bytes} {fin : Bool} {opcode : UInt8} {full : ℕ}
    (h : readFrame input = .frame fin opcode payload full) : 0 < full ∧ full ≤ input.length := by
  rcases input with - | ⟨data0, - | ⟨data1, rest⟩⟩
  · cases h
  · cases h
  rw [readFrame] at h
  split_ifs at h with hallowed
  split at h
  · cases h
  · cases h
  · exact readPayload_frame h

/-- Nothing is taken before a frame has come whole. -/
lemma deliver_take {client next : Client H} {opcode : UInt8} {payload : Bytes} {full count : ℕ} {out : List Event}
    (h : deliver server client opcode payload full = .take count next out) : count = full := by
  rw [deliver] at h
  split at h <;> cases h
  rfl

lemma react_take {client next : Client H} {parsed : Parsed} {count : ℕ} {out : List Event}
    (h : react server client parsed = .take count next out) :
    ∃ fin opcode payload, parsed = .frame fin opcode payload count := by
  rcases parsed with - | code | ⟨fin, opcode, payload, full⟩
  · cases h
  · cases h
  · refine ⟨fin, opcode, payload, ?_⟩
    rw [react] at h
    dsimp only at h
    split_ifs at h
    all_goals first | cases h; rfl | rw [deliver_take server h]

/-- **What is done frame by frame.** -/
def reader : Incremental UInt8 (Client H) Event where
  step client input := react server client (readFrame input)
  stable client input more h := by
    rw [readFrame_append ?_ more]
    intro hwait
    rw [hwait] at h
    exact h rfl
  progress client input count next out h := by
    obtain ⟨fin, opcode, payload, hframe⟩ := react_take server h
    exact readFrame_frame hframe

/-! ### Input that comes -/

/-- A connection: what was done for the client, and the client with its input unless the connection is closed. -/
abbrev Connection (H : Type) : Type := List Event × Option (Client H × Bytes)

/-- **All frames of the input** are taken one after the other. -/
def processWebSocket (client : Client H) (input : Bytes) : Connection H := (reader server).run client input

/-- Some input is read and processed. -/
def readChunk (connection : Connection H) (chunk : Bytes) : Connection H := (reader server).feed connection chunk

/-- **Input has come.** It is read in chunks of a limited size while the connection is open. -/
def clientReadyRead (connection : Connection H) (available : Bytes) : Connection H :=
  if available = [] ∨ connection.2.isNone then connection
  else clientReadyRead (readChunk server connection (available.take kDataFrameSize)) (available.drop kDataFrameSize)
termination_by available.length
decreasing_by
  rename_i h
  have hpositive := List.length_pos_iff.mpr (not_or.mp h).1
  rw [List.length_drop, kDataFrameSize]
  omega

lemma readChunk_processWebSocket (client : Client H) (input chunk : Bytes) :
    readChunk server (processWebSocket server client input) chunk = processWebSocket server client (input ++ chunk) :=
  ((reader server).run_append client input chunk).symm

/-- Input that comes goes on where the input before has been left. -/
theorem clientReadyRead_processWebSocket (client : Client H) (input available : Bytes) :
    clientReadyRead server (processWebSocket server client input) available =
      processWebSocket server client (input ++ available) := by
  induction hn : available.length using Nat.strongRecOn generalizing input available with
  | _ n ih =>
    rw [clientReadyRead]
    split_ifs with hstop
    · rcases hstop with rfl | hclosed
      · rw [List.append_nil]
      · rw [← readChunk_processWebSocket, readChunk, Incremental.feed, Option.isNone_iff_eq_none.mp hclosed]
    · have hpositive := List.length_pos_iff.mpr (not_or.mp hstop).1
      rw [readChunk_processWebSocket, ih (available.drop kDataFrameSize).length ?_ _ _ rfl, List.append_assoc,
        List.take_append_drop]
      rw [List.length_drop, kDataFrameSize]
      omega

/-! ### Frames that have come -/

/-- The length of a frame is read, where it is written in the shortest form. -/
lemma readLength_lengthBytes {size : ℕ} (hsize : size < 2 ^ 63) (rest : Bytes) :
    readLength (WebSocket.lengthBits size) (WebSocket.lengthBytes size ++ rest) =
      .known size (2 + (WebSocket.lengthBytes size).length) := by
  rcases WebSocket.length_cases hsize with ⟨hshort, hbits, hnone⟩ | ⟨hmiddle, -, hbits, htwo, hnumber⟩ |
    ⟨hlong, hbits, height, hnumber⟩
  · rw [hbits, hnone, readLength, if_neg (by omega), if_neg (by omega)]
    rfl
  · have htake : (WebSocket.lengthBytes size ++ rest).take 2 = WebSocket.lengthBytes size := List.take_left' htwo
    rw [hbits, readLength, if_pos rfl, if_neg (by rw [List.length_append]; omega), htake, hnumber,
      if_neg (by omega), htwo]
  · have htake : (WebSocket.lengthBytes size ++ rest).take 8 = WebSocket.lengthBytes size := List.take_left' height
    rw [hbits, readLength, if_neg (by decide), if_pos rfl, if_neg (by rw [List.length_append]; omega),
      if_neg (not_not_intro (WebSocket.headD_lengthBytes hlong hsize rest)), htake, hnumber, if_neg (by omega), height]

/-- **A frame is read** where it has come, unless it is too long. -/
theorem readFrame_bytes {frame : WebSocket.Frame} {mask : Mask} (hmask : frame.mask = some mask)
    (hlength : frame.payload.length < 2 ^ 63) (more : Bytes) :
    readFrame (frame.bytes ++ more) =
      if frame.payload.length > kMaxLocalWebSocketPayload ∨
          (UInt8.ofNat frame.opcode &&& 0x08 ≠ 0 ∧ (frame.fin = false ∨ frame.payload.length > 125)) then .close 1009
      else .frame frame.fin (UInt8.ofNat frame.opcode) frame.payload frame.bytes.length := by
  have hfin : decide (frame.first &&& 0x80 ≠ 0) = frame.fin := by
    rw [Bool.eq_iff_iff, decide_eq_true_iff]
    exact frame.first_and_fin
  have hmasked : frame.second &&& 0x80 ≠ 0 := frame.second_and_mask.mpr (by rw [hmask]; rfl)
  have hheader : frame.header = 2 + (WebSocket.lengthBytes frame.payload.length).length + 4 := by
    rw [WebSocket.Frame.header, WebSocket.Frame.length_maskBytes, hmask]
    rfl
  have hsplit : frame.bytes ++ more = frame.first :: frame.second ::
      (WebSocket.lengthBytes frame.payload.length ++ (frame.maskBytes ++ frame.body ++ more)) := by
    rw [WebSocket.Frame.bytes, List.cons_append, List.cons_append, List.append_assoc]
  have hpayload : readFrame (frame.bytes ++ more) =
      readPayload (frame.bytes ++ more) frame.fin (UInt8.ofNat frame.opcode) frame.payload.length
        (2 + (WebSocket.lengthBytes frame.payload.length).length) := by
    rw [hsplit, readFrame, if_neg (not_or.mpr ⟨not_not_intro frame.first_and_reserved, hmasked⟩),
      frame.second_and_length, readLength_lengthBytes hlength, frame.first_and_opcode, hfin]
  have htake := WebSocket.Frame.take_drop_mask frame hmask more
  rw [hheader, Nat.add_sub_cancel] at htake
  rw [hpayload, readPayload, ← hheader, frame.take_drop_header, htake, WebSocket.Frame.body, hmask,
    frame.length_bytes, if_neg (show ¬(frame.bytes ++ more).length < frame.header + frame.payload.length by
      rw [List.length_append, frame.length_bytes]; omega)]
  refine congrArg (ite _ _) ?_
  exact congrArg (Parsed.frame frame.fin (UInt8.ofNat frame.opcode) · _) (WebSocket.masked_masked _ _)

end WebProxy.LocalSocket
