import Telegravim.Foundation.Base64
import Telegravim.Foundation.Cursor
import Telegravim.Foundation.Incremental
import Telegravim.Foundation.WebSocket

set_option autoImplicit false

/-!
# The socket of a passkey tunnel

The tunnel to the phone goes through a web socket. The socket waits for the answer to its upgrade request, then it takes
frames off what has come: it hands the payload of data frames to its owner, answers pings and stops at anything else.
What is read past the end of the buffer is an outcome of its own.

## Main definitions

* `Passkey.TunnelSocket` — the socket.
* `Passkey.TunnelSocket.parseFrames` — what has come taken apart.
* `Passkey.TunnelSocket.writeFrame` — the bytes of a frame that is sent.
* `Passkey.TunnelSocket.onReadyRead` — bytes have come.

## Main results

* `Passkey.TunnelSocket.parseFrame_eq` — nothing is read past the end.
* `Passkey.TunnelSocket.onReadyRead_connected` — the socket is a reader by its steps.
-/

namespace Passkey

open Text (u toLatin1)

namespace TunnelSocket

/-! ### The socket -/

def kOpcodeContinuation : UInt8 := 0x0

def kOpcodeText : UInt8 := 0x1

def kOpcodeBinary : UInt8 := 0x2

def kOpcodeClose : UInt8 := 0x8

def kOpcodePing : UInt8 := 0x9

def kOpcodePong : UInt8 := 0xA

def kMaxFramePayload : ℕ := 4 * 1024 * 1024

def kMaxUpgradeResponse : ℕ := 8 * 1024

def kAcceptGuid : Bytes := toLatin1 (u "258EAFA5-E914-47DA-95CA-C5AB0DC85B11")

inductive State where
  | Idle | Connecting | WaitingUpgrade | Connected | Closed
  deriving DecidableEq

/-- What a socket does: it calls its owner, or it writes a frame. -/
inductive Event where
  | onConnected
  | onBinary (message : Bytes)
  | onClosed
  | writeFrame (payload : Bytes) (opcode : UInt8)
  deriving DecidableEq

/-- What the owner of a socket does when it is called: whether it closes the socket in `onConnected`, and in `onBinary`
by all messages that it has been given. -/
structure Handlers where
  closesConnected : Bool
  closesBinary : List Bytes → Bool

end TunnelSocket

/-- **The socket**: its fields, and what it has done. -/
structure TunnelSocket where
  key : Bytes
  incoming : Bytes
  state : TunnelSocket.State
  failed : Bool
  events : List TunnelSocket.Event
  deriving DecidableEq

namespace TunnelSocket

def Event.message : Event → Option Bytes
  | .onBinary message => some message
  | _ => none

def Event.pong : Event → Option Bytes
  | .writeFrame payload opcode => if opcode = kOpcodePong then some payload else none
  | _ => none

/-- All messages that `onBinary` has been given. -/
def handed (socket : TunnelSocket) : List Bytes := socket.events.filterMap Event.message

/-- The payloads of all pongs written. -/
def pongs (socket : TunnelSocket) : List Bytes := socket.events.filterMap Event.pong

def emit (socket : TunnelSocket) (event : Event) : TunnelSocket :=
  { socket with events := socket.events ++ [event] }

def close (socket : TunnelSocket) : TunnelSocket :=
  let socket := if socket.state = .Connected then socket.emit (.writeFrame [] kOpcodeClose) else socket
  { socket with state := .Closed }

def fail (socket : TunnelSocket) : TunnelSocket :=
  if socket.failed = true ∨ socket.state = .Closed then socket
  else { socket with failed := true, state := .Closed }.emit .onClosed

/-! ### The answer to the upgrade request -/

/-- Where some bytes first stand in others. -/
def indexOf (needle : Bytes) : Bytes → Option ℕ
  | [] => if needle = [] then some 0 else none
  | byte :: rest => if needle.isPrefixOf (byte :: rest) then some 0 else (indexOf needle rest).map (· + 1)

def isSpace (byte : UInt8) : Bool := byte = 32 ∨ (9 ≤ byte ∧ byte ≤ 13)

def trimmed (line : Bytes) : Bytes := ((line.dropWhile isSpace).reverse.dropWhile isSpace).reverse

def toLower (line : Bytes) : Bytes := line.map fun byte => if 65 ≤ byte ∧ byte ≤ 90 then byte + 32 else byte

/-- Whether the first header with the name for it has the value that is expected. -/
def accepted (expected : Bytes) : List Bytes → Bool
  | [] => false
  | line :: lines =>
    match line.idxOf? 58 with
    | none => accepted expected lines
    | some colon =>
      if toLower (trimmed (line.take colon)) ≠ toLatin1 (u "sec-websocket-accept") then accepted expected lines
      else trimmed (line.drop (colon + 1)) = expected

/-- The answer to the upgrade request is read, where all of it has come. -/
def readUpgradeResponse (Sha1Digest : Bytes → Bytes) (handlers : Handlers) (socket : TunnelSocket) :
    Bool × TunnelSocket :=
  match indexOf [13, 10, 13, 10] socket.incoming with
  | none => (socket.incoming.length < kMaxUpgradeResponse, socket)
  | some last =>
    let lines := (socket.incoming.take last).splitOn 10
    let status := trimmed (lines.headD [])
    if indexOf (toLatin1 (u " 101")) status = none then (false, socket)
    else
      let expected := Base64.toBase64 (Sha1Digest (socket.key ++ kAcceptGuid))
      if accepted expected lines = false then (false, socket)
      else
        let socket := { socket with incoming := socket.incoming.drop (last + 4), state := .Connected }.emit .onConnected
        (true, if handlers.closesConnected then socket.close else socket)

/-! ### Frames -/

/-- What stands at an offset: not enough for a frame, something that is refused, or a frame of so many bytes. -/
inductive Found where
  | wait
  | refused
  | frame (opcode : UInt8) (payload : Bytes) (size : ℕ)
  deriving DecidableEq

/-- A frame with so many bytes before its payload, if all of it has come. -/
def readPayload (incoming : Bytes) (offset : ℕ) (opcode : UInt8) (masked : Bool) (length header : ℕ) : Option Found :=
  if incoming.length - offset < header + length then some .wait
  else
    (Cursor.copy incoming (offset + header) length).bind fun payload =>
      if masked then
        (Cursor.copy incoming (offset + header - 4) 4).map fun mask =>
          .frame opcode (WebSocket.masked mask payload) (header + length)
      else some (.frame opcode payload (header + length))

/-- A frame whose length has been read. -/
def checkLength (incoming : Bytes) (offset : ℕ) (opcode : UInt8) (masked : Bool) (length header : ℕ) : Option Found :=
  if kMaxFramePayload < length then some .refused
  else readPayload incoming offset opcode masked length (if masked then header + 4 else header)

/-- **The frame at an offset.** There is no outcome where a byte past the end is read. -/
def parseFrame (incoming : Bytes) (offset : ℕ) : Option Found :=
  if incoming.length - offset < 2 then some .wait
  else
    incoming[offset]?.bind fun first => incoming[offset + 1]?.bind fun second =>
      let opcode := first &&& 0x0F
      let masked := decide (second &&& 0x80 ≠ 0)
      let length := (second &&& 0x7F).toNat
      if length = 126 then
        if incoming.length - offset < 4 then some .wait
        else
          (Cursor.copy incoming (offset + 2) 2).bind fun bytes =>
            checkLength incoming offset opcode masked (WebSocket.number bytes) 4
      else if length = 127 then
        if incoming.length - offset < 10 then some .wait
        else
          (Cursor.copy incoming (offset + 2) 8).bind fun bytes =>
            checkLength incoming offset opcode masked (WebSocket.number bytes) 10
      else checkLength incoming offset opcode masked length 2

/-! ### Nothing is read past the end -/

/-- The frame that some bytes start with, where its length has been read. -/
def foundPayload (bytes : Bytes) (opcode : UInt8) (masked : Bool) (length header : ℕ) : Found :=
  if bytes.length < header + length then .wait
  else
    let payload := (bytes.drop header).take length
    .frame opcode (if masked then WebSocket.masked ((bytes.drop (header - 4)).take 4) payload else payload)
      (header + length)

def foundLength (bytes : Bytes) (opcode : UInt8) (masked : Bool) (length header : ℕ) : Found :=
  if kMaxFramePayload < length then .refused
  else foundPayload bytes opcode masked length (if masked then header + 4 else header)

/-- What some bytes start with. -/
def found : Bytes → Found
  | [] => .wait
  | [_] => .wait
  | first :: second :: rest =>
    let opcode := first &&& 0x0F
    let masked := decide (second &&& 0x80 ≠ 0)
    let length := (second &&& 0x7F).toNat
    let bytes := first :: second :: rest
    if length = 126 then
      if rest.length < 2 then .wait else foundLength bytes opcode masked (WebSocket.number (rest.take 2)) 4
    else if length = 127 then
      if rest.length < 8 then .wait else foundLength bytes opcode masked (WebSocket.number (rest.take 8)) 10
    else foundLength bytes opcode masked length 2

lemma copy_drop {incoming : Bytes} {offset start count : ℕ} (h : start + count ≤ (incoming.drop offset).length)
    (hoffset : offset ≤ incoming.length) :
    Cursor.copy incoming (offset + start) count = some (((incoming.drop offset).drop start).take count) := by
  rw [List.length_drop] at h
  rw [Cursor.copy, if_pos (by omega), List.drop_drop]

lemma checkLength_eq {incoming : Bytes} {offset : ℕ} (hoffset : offset ≤ incoming.length) (opcode : UInt8)
    (masked : Bool) (length header : ℕ) :
    checkLength incoming offset opcode masked length header =
      some (foundLength (incoming.drop offset) opcode masked length header) := by
  rw [checkLength, foundLength]
  split_ifs with hlarge hmasked
  · rfl
  all_goals
    rw [readPayload, foundPayload, ← List.length_drop]
    split_ifs with hwait
    · rfl
    rw [copy_drop (by omega) hoffset, Option.bind_some]
  have hmask : offset + (header + 4) - 4 = offset + header := by omega
  rw [hmask, copy_drop (by omega) hoffset, Option.map_some, Nat.add_sub_cancel]

/-- **Nothing is read past the end**, and what stands at an offset is said by the bytes from there on. -/
theorem parseFrame_eq {incoming : Bytes} {offset : ℕ} (hoffset : offset ≤ incoming.length) :
    parseFrame incoming offset = some (found (incoming.drop offset)) := by
  have hfirst : incoming[offset]? = (incoming.drop offset)[0]? := by rw [List.getElem?_drop, Nat.add_zero]
  have hsecond : incoming[offset + 1]? = (incoming.drop offset)[1]? := by rw [List.getElem?_drop]
  have hlength : incoming.length - offset = (incoming.drop offset).length := List.length_drop.symm
  rw [parseFrame, hfirst, hsecond, hlength]
  simp only [checkLength_eq hoffset]
  rcases hbytes : incoming.drop offset with - | ⟨first, - | ⟨second, rest⟩⟩
  · rfl
  · rfl
  have hcopy (count : ℕ) (hcount : count ≤ rest.length) :
      Cursor.copy incoming (offset + 2) count = some (rest.take count) := by
    rw [copy_drop (by rw [hbytes, List.length_cons, List.length_cons]; omega) hoffset, hbytes]
    rfl
  simp only [List.length_cons, List.getElem?_cons_zero, List.getElem?_cons_succ, Option.bind_some, found]
  rw [if_neg (by omega)]
  split_ifs with hmiddle hwait hwait hlong hwait hwait
  · rfl
  · omega
  · omega
  · rw [hcopy 2 (by omega), Option.bind_some]
  · rfl
  · omega
  · omega
  · rw [hcopy 8 (by omega), Option.bind_some]
  · rfl

lemma foundLength_frame {bytes : Bytes} {opcode kind : UInt8} {masked : Bool} {length header size : ℕ}
    {payload : Bytes} (h : foundLength bytes opcode masked length header = .frame kind payload size) :
    header ≤ size ∧ size ≤ bytes.length := by
  rw [foundLength, foundPayload] at h
  split_ifs at h <;> cases h <;> omega

lemma found_frame {bytes payload : Bytes} {opcode : UInt8} {size : ℕ} (h : found bytes = .frame opcode payload size) :
    2 ≤ size ∧ size ≤ bytes.length := by
  rcases bytes with - | ⟨first, - | ⟨second, rest⟩⟩
  · cases h
  · cases h
  rw [found] at h
  split_ifs at h
  all_goals
    have hsize := foundLength_frame h
    omega

lemma parseFrame_frame {incoming : Bytes} {offset : ℕ} {opcode : UInt8} {payload : Bytes} {size : ℕ}
    (h : parseFrame incoming offset = some (.frame opcode payload size)) :
    2 ≤ size ∧ offset + size ≤ incoming.length := by
  rcases Nat.lt_or_ge incoming.length offset with hpast | hoffset
  · rw [parseFrame, if_pos (by omega)] at h
    cases h
  rw [parseFrame_eq hoffset, Option.some.injEq] at h
  have hsize := found_frame h
  rw [List.length_drop] at hsize
  omega

/-! ### The loop -/

/-- The loop over the frames from an offset on: whether all went well, the offset behind the last frame and the
socket. -/
def parseLoop (handlers : Handlers) (socket : TunnelSocket) (offset : ℕ) : Option (Bool × ℕ × TunnelSocket) :=
  match _hframe : parseFrame socket.incoming offset with
  | none => none
  | some .wait => some (true, offset, socket)
  | some .refused => some (false, offset, socket)
  | some (.frame opcode payload size) =>
    if opcode = kOpcodeContinuation ∨ opcode = kOpcodeBinary then
      if payload = [] then parseLoop handlers socket (offset + size)
      else
        let called := socket.emit (.onBinary payload)
        if handlers.closesBinary called.handed then some (true, offset + size, called.close)
        else parseLoop handlers called (offset + size)
    else if opcode = kOpcodeClose then some (false, offset + size, socket)
    else if opcode = kOpcodePing then
      parseLoop handlers (socket.emit (.writeFrame payload kOpcodePong)) (offset + size)
    else if opcode = kOpcodePong ∨ opcode = kOpcodeText then parseLoop handlers socket (offset + size)
    else some (false, offset + size, socket)
termination_by socket.incoming.length - offset
decreasing_by
  all_goals
    have hsize := parseFrame_frame _hframe
    exact Nat.sub_lt_sub_left (m := socket.incoming.length) (by omega) (by omega)

/-- **What has come is taken apart.** -/
def parseFrames (handlers : Handlers) (socket : TunnelSocket) : Option (Bool × TunnelSocket) :=
  (parseLoop handlers socket 0).map fun (ok, offset, socket) =>
    (ok, if ok then { socket with incoming := socket.incoming.drop offset } else socket)

/-- The frames among what has come are taken off, or the socket fails. -/
def parse (handlers : Handlers) (socket : TunnelSocket) : Option TunnelSocket :=
  (parseFrames handlers socket).map fun (ok, socket) => if ok then socket else socket.fail

/-- **Bytes have come.** -/
def onReadyRead (Sha1Digest : Bytes → Bytes) (handlers : Handlers) (socket : TunnelSocket) (read : Bytes) :
    Option TunnelSocket :=
  let appended := { socket with incoming := socket.incoming ++ read }
  match socket.state with
  | .WaitingUpgrade =>
    let (ok, upgraded) := readUpgradeResponse Sha1Digest handlers appended
    if ok = false then some upgraded.fail
    else if upgraded.state ≠ .Connected then some upgraded
    else parse handlers upgraded
  | .Connected => parse handlers appended
  | _ => some socket

/-- **Nothing is read past the end** by the loop. -/
theorem parseFrames_isSome (handlers : Handlers) (socket : TunnelSocket) : (parseFrames handlers socket).isSome := by
  have hloop : ∀ offset ≤ socket.incoming.length, (parseLoop handlers socket offset).isSome := by
    intro offset hoffset
    fun_induction parseLoop handlers socket offset with
    | case1 socket offset hframe =>
      rw [parseFrame_eq hoffset] at hframe
      cases hframe
    | case4 socket offset opcode size hdata hframe ih => exact ih (parseFrame_frame hframe).2
    | case6 socket offset opcode payload size hframe hdata hpayload called hcloses ih =>
      exact ih (parseFrame_frame hframe).2
    | case8 socket offset payload size hframe hdata hclose ih => exact ih (parseFrame_frame hframe).2
    | case9 socket offset opcode payload size hframe hdata hclose hping hignored ih =>
      exact ih (parseFrame_frame hframe).2
    | _ => rfl
  rw [parseFrames, Option.isSome_map]
  exact hloop 0 (Nat.zero_le _)

/-! ### A reader by its steps -/

/-- What the socket does about what stands at the start of its bytes. -/
def react (handlers : Handlers) (handed : List Bytes) : Found → Incremental.Outcome (List Bytes) Event
  | .wait => .wait
  | .refused => .stop [.onClosed]
  | .frame opcode payload size =>
    if opcode = kOpcodeContinuation ∨ opcode = kOpcodeBinary then
      if payload = [] then .take size handed []
      else if handlers.closesBinary (handed ++ [payload]) then .stop [.onBinary payload, .writeFrame [] kOpcodeClose]
      else .take size (handed ++ [payload]) [.onBinary payload]
    else if opcode = kOpcodeClose then .stop [.onClosed]
    else if opcode = kOpcodePing then .take size handed [.writeFrame payload kOpcodePong]
    else if opcode = kOpcodePong ∨ opcode = kOpcodeText then .take size handed []
    else .stop [.onClosed]

lemma react_wait {handlers : Handlers} {handed : List Bytes} {what : Found} (h : react handlers handed what ≠ .wait) :
    what ≠ .wait := by
  rintro rfl
  exact h rfl

lemma react_take {handlers : Handlers} {handed next : List Bytes} {what : Found} {count : ℕ} {out : List Event}
    (h : react handlers handed what = .take count next out) : ∃ opcode payload, what = .frame opcode payload count := by
  rcases what with - | - | ⟨opcode, payload, size⟩
  · cases h
  · cases h
  · rw [react] at h
    split_ifs at h <;> cases h <;> exact ⟨_, _, rfl⟩

lemma foundPayload_append {bytes : Bytes} {opcode : UInt8} {masked : Bool} {length header : ℕ}
    (hmask : masked = true → 4 ≤ header) (h : foundPayload bytes opcode masked length header ≠ .wait) (more : Bytes) :
    foundPayload (bytes ++ more) opcode masked length header = foundPayload bytes opcode masked length header := by
  rw [foundPayload] at h
  have hall : header + length ≤ bytes.length := by
    by_contra hwait
    exact h (if_pos (by omega))
  have hpayload : ((bytes ++ more).drop header).take length = (bytes.drop header).take length := by
    rw [List.drop_append_of_le_length (by omega), List.take_append_of_le_length (by rw [List.length_drop]; omega)]
  rw [foundPayload, foundPayload, if_neg (by rw [List.length_append]; omega), if_neg (by omega), hpayload]
  cases masked with
  | false => rfl
  | true =>
    have hheader := hmask rfl
    rw [List.drop_append_of_le_length (by omega), List.take_append_of_le_length (by rw [List.length_drop]; omega)]

lemma foundLength_append {bytes : Bytes} {opcode : UInt8} {masked : Bool} {length header : ℕ}
    (h : foundLength bytes opcode masked length header ≠ .wait) (more : Bytes) :
    foundLength (bytes ++ more) opcode masked length header = foundLength bytes opcode masked length header := by
  rw [foundLength] at h ⊢
  rw [foundLength]
  split_ifs at h ⊢ with hlarge hmasked
  · rfl
  · exact foundPayload_append (fun _ => by omega) h more
  · exact foundPayload_append (fun hmask => absurd hmask hmasked) h more

/-- What stands at the start is not changed by more bytes. -/
lemma found_append {bytes : Bytes} (h : found bytes ≠ .wait) (more : Bytes) : found (bytes ++ more) = found bytes := by
  rcases bytes with - | ⟨first, - | ⟨second, rest⟩⟩
  · exact absurd rfl h
  · exact absurd rfl h
  rw [List.cons_append, List.cons_append]
  rw [found] at h ⊢
  rw [found]
  split_ifs at h ⊢ with hmiddle hwait hwait hlong hwait hwait
  all_goals try exact absurd rfl h
  all_goals try rw [List.length_append] at *; omega
  · rw [List.take_append_of_le_length (by omega)]
    exact foundLength_append h more
  · rw [List.take_append_of_le_length (by omega)]
    exact foundLength_append h more
  · exact foundLength_append h more

/-- **The socket as a reader by its steps**: it keeps the messages that it has handed over. -/
def reader (handlers : Handlers) : Incremental UInt8 (List Bytes) Event where
  step handed bytes := react handlers handed (found bytes)
  stable _ _ more h := by rw [found_append (react_wait h) more]
  progress _ _ _ _ _ h := by
    obtain ⟨opcode, payload, hfound⟩ := react_take h
    have hsize := found_frame hfound
    omega

/-- What a socket has done, and what is left to it: the messages handed over and the bytes that wait, unless it is
closed. -/
inductive Holds (socket : TunnelSocket) : List Event × Option (List Bytes × Bytes) → Prop
  | opened (connected : socket.state = .Connected) (sound : socket.failed = false) :
    Holds socket (socket.events, some (socket.handed, socket.incoming))
  | closed (closed : socket.state = .Closed) : Holds socket (socket.events, none)

lemma handed_emit_message (socket : TunnelSocket) (message : Bytes) :
    (socket.emit (.onBinary message)).handed = socket.handed ++ [message] :=
  List.filterMap_append

lemma handed_emit_frame (socket : TunnelSocket) (payload : Bytes) (opcode : UInt8) :
    (socket.emit (.writeFrame payload opcode)).handed = socket.handed := by
  rw [handed, emit, List.filterMap_append]
  exact List.append_nil _

/-- The socket after the loop. -/
def finish : Bool × ℕ × TunnelSocket → TunnelSocket
  | (true, offset, socket) => { socket with incoming := socket.incoming.drop offset }
  | (false, _, socket) => socket.fail

lemma holds_fail {socket : TunnelSocket} (hconnected : socket.state = .Connected) (hsound : socket.failed = false) :
    Holds socket.fail (socket.events ++ [.onClosed], none) := by
  have hfail : socket.fail = { socket with failed := true, state := .Closed }.emit .onClosed := by
    rw [fail, if_neg]
    rw [hconnected, hsound]
    exact not_or.mpr ⟨nofun, nofun⟩
  rw [hfail]
  exact .closed rfl

/-- What the reader does where a socket finds something. -/
lemma step_reader (handlers : Handlers) {socket : TunnelSocket} {offset : ℕ} {what : Found}
    (hoffset : offset ≤ socket.incoming.length) (h : parseFrame socket.incoming offset = some what) :
    (reader handlers).step socket.handed (socket.incoming.drop offset) = react handlers socket.handed what := by
  rw [parseFrame_eq hoffset, Option.some.injEq] at h
  rw [← h]
  rfl

/-- The run of the reader from an offset on, for a socket. -/
def runFrom (handlers : Handlers) (socket : TunnelSocket) (offset : ℕ) : List Event × Option (List Bytes × Bytes) :=
  let run := (reader handlers).run socket.handed (socket.incoming.drop offset)
  (socket.events ++ run.1, run.2)

/-- The run goes on behind a frame with what the socket has become. -/
lemma runFrom_take {handlers : Handlers} {socket : TunnelSocket}
    (called : TunnelSocket) {offset size : ℕ} {out : List Event}
    (h : (reader handlers).step socket.handed (socket.incoming.drop offset) = .take size called.handed out)
    (hevents : called.events = socket.events ++ out) (hincoming : called.incoming = socket.incoming) :
    runFrom handlers socket offset = runFrom handlers called (offset + size) := by
  simp only [runFrom, Incremental.run_take h, List.drop_drop, hevents, hincoming, List.append_assoc]

lemma runFrom_stop {handlers : Handlers} {socket : TunnelSocket} {offset : ℕ} {out : List Event}
    (h : (reader handlers).step socket.handed (socket.incoming.drop offset) = .stop out) :
    runFrom handlers socket offset = (socket.events ++ out, none) := by
  simp only [runFrom, Incremental.run_stop h]

/-- **The loop runs the reader** from the offset on. -/
theorem parseLoop_holds (handlers : Handlers) {socket : TunnelSocket} {offset : ℕ}
    (hconnected : socket.state = .Connected) (hsound : socket.failed = false)
    (hoffset : offset ≤ socket.incoming.length) :
    ∃ result, parseLoop handlers socket offset = some result ∧
      Holds (finish result) (runFrom handlers socket offset) := by
  fun_induction parseLoop handlers socket offset with
  | case1 socket offset hframe =>
    rw [parseFrame_eq hoffset] at hframe
    cases hframe
  | case2 socket offset hframe =>
    have hwait : runFrom handlers socket offset =
      (socket.events, some (socket.handed, socket.incoming.drop offset)) := by
      simp only [runFrom, Incremental.run_wait (step_reader handlers hoffset hframe), List.append_nil]
    rw [hwait]
    refine ⟨_, rfl, ?_⟩
    exact Holds.opened hconnected hsound
  | case3 socket offset hframe =>
    rw [runFrom_stop (step_reader handlers hoffset hframe)]
    exact ⟨_, rfl, holds_fail hconnected hsound⟩
  | case4 socket offset opcode size hdata hframe ih =>
    have hstep := step_reader handlers hoffset hframe
    rw [react, if_pos hdata, if_pos rfl] at hstep
    rw [runFrom_take socket hstep (List.append_nil _).symm rfl]
    exact ih hconnected hsound (parseFrame_frame hframe).2
  | case5 socket offset opcode payload size hframe hdata hpayload called hcloses =>
    have hstep := step_reader handlers hoffset hframe
    rw [handed_emit_message] at hcloses
    rw [react, if_pos hdata, if_neg hpayload, if_pos hcloses] at hstep
    have hevents : called.close.events = socket.events ++ [.onBinary payload, .writeFrame [] kOpcodeClose] := by
      rw [close, if_pos (show called.state = .Connected from hconnected)]
      exact List.append_assoc _ _ _
    rw [runFrom_stop hstep, ← hevents]
    refine ⟨_, rfl, ?_⟩
    exact Holds.closed rfl
  | case6 socket offset opcode payload size hframe hdata hpayload called hcloses ih =>
    have hstep := step_reader handlers hoffset hframe
    rw [handed_emit_message] at hcloses
    rw [react, if_pos hdata, if_neg hpayload, if_neg hcloses, ← handed_emit_message] at hstep
    rw [runFrom_take called hstep rfl rfl]
    exact ih hconnected hsound (parseFrame_frame hframe).2
  | case7 socket offset payload size hframe hdata =>
    have hstep := step_reader handlers hoffset hframe
    rw [react, if_neg hdata, if_pos rfl] at hstep
    rw [runFrom_stop hstep]
    exact ⟨_, rfl, holds_fail hconnected hsound⟩
  | case8 socket offset payload size hframe hdata hclose ih =>
    have hstep := step_reader handlers hoffset hframe
    rw [react, if_neg hdata, if_neg hclose, if_pos rfl] at hstep
    have hhanded := handed_emit_frame socket payload kOpcodePong
    rw [runFrom_take (socket.emit (.writeFrame payload kOpcodePong)) (by rw [hstep, hhanded]) rfl rfl]
    exact ih hconnected hsound (parseFrame_frame hframe).2
  | case9 socket offset opcode payload size hframe hdata hclose hping hignored ih =>
    have hstep := step_reader handlers hoffset hframe
    rw [react, if_neg hdata, if_neg hclose, if_neg hping, if_pos hignored] at hstep
    rw [runFrom_take socket hstep (List.append_nil _).symm rfl]
    exact ih hconnected hsound (parseFrame_frame hframe).2
  | case10 socket offset opcode payload size hframe hdata hclose hping hignored =>
    have hstep := step_reader handlers hoffset hframe
    rw [react, if_neg hdata, if_neg hclose, if_neg hping, if_neg hignored] at hstep
    rw [runFrom_stop hstep]
    exact ⟨_, rfl, holds_fail hconnected hsound⟩

lemma parse_eq (handlers : Handlers) (socket : TunnelSocket) :
    parse handlers socket = (parseLoop handlers socket 0).map finish := by
  rw [parse, parseFrames, Option.map_map]
  refine congrArg (Option.map · _) (funext fun result => ?_)
  rcases result with ⟨- | -, offset, socket⟩ <;> rfl

lemma parse_holds (handlers : Handlers) (socket : TunnelSocket) (hconnected : socket.state = .Connected)
    (hsound : socket.failed = false) :
    ∃ next, parse handlers socket = some next ∧ Holds next (runFrom handlers socket 0) := by
  obtain ⟨result, hresult, hholds⟩ := parseLoop_holds handlers hconnected hsound (Nat.zero_le _)
  refine ⟨finish result, ?_, hholds⟩
  rw [parse_eq, hresult, Option.map_some]

/-- **One more read** is one more piece for the reader, unless the socket is closed. -/
theorem onReadyRead_holds (Sha1Digest : Bytes → Bytes) (handlers : Handlers) {socket : TunnelSocket}
    {given : List Event × Option (List Bytes × Bytes)} (h : Holds socket given) (read : Bytes) :
    ∃ next, onReadyRead Sha1Digest handlers socket read = some next ∧
      Holds next ((reader handlers).feed given read) := by
  cases h with
  | opened hconnected hsound =>
    obtain ⟨next, hnext, hholds⟩ :=
      parse_holds handlers { socket with incoming := socket.incoming ++ read } hconnected hsound
    refine ⟨next, ?_, hholds⟩
    rw [hconnected] at hnext
    rw [onReadyRead, hconnected]
    exact hnext
  | closed hclosed =>
    refine ⟨socket, ?_, .closed hclosed⟩
    rw [onReadyRead, hclosed]

/-- **All reads** are one run over what has come. -/
theorem reads_hold (Sha1Digest : Bytes → Bytes) (handlers : Handlers) {socket : TunnelSocket}
    {given : List Event × Option (List Bytes × Bytes)} (h : Holds socket given) (reads : List Bytes) :
    ∃ last, reads.foldlM (onReadyRead Sha1Digest handlers) socket = some last ∧
      Holds last (reads.foldl (reader handlers).feed given) := by
  induction reads generalizing socket given with
  | nil => exact ⟨socket, rfl, h⟩
  | cons read reads ih =>
    obtain ⟨next, hnext, hholds⟩ := onReadyRead_holds Sha1Digest handlers h read
    obtain ⟨last, hlast, hholds⟩ := ih hholds
    refine ⟨last, ?_, hholds⟩
    rw [List.foldlM_cons, hnext]
    exact hlast

/-! ### The upgrade in pieces -/

lemma length_of_indexOf {needle bytes : Bytes} {i : ℕ} (h : indexOf needle bytes = some i) :
    i + needle.length ≤ bytes.length := by
  induction bytes generalizing i with
  | nil =>
    rw [indexOf] at h
    split_ifs at h with hneedle
    cases h
    rw [hneedle, Nat.zero_add]
  | cons byte rest ih =>
    rw [indexOf] at h
    split_ifs at h with hprefix
    · cases h
      rw [Nat.zero_add]
      exact (List.isPrefixOf_iff_prefix.mp hprefix).length_le
    · obtain ⟨i, hi, rfl⟩ := Option.map_eq_some_iff.mp h
      have hlength := ih hi
      rw [List.length_cons]
      omega

lemma indexOf_append {needle bytes : Bytes} {i : ℕ} (h : indexOf needle bytes = some i) (more : Bytes) :
    indexOf needle (bytes ++ more) = some i := by
  induction bytes generalizing i with
  | nil =>
    rw [indexOf] at h
    split_ifs at h with hneedle
    cases h
    subst hneedle
    cases more <;> rfl
  | cons byte rest ih =>
    have hlength := length_of_indexOf h
    have hprefix : needle.isPrefixOf (byte :: (rest ++ more)) = needle.isPrefixOf (byte :: rest) := by
      rw [Bool.eq_iff_iff, List.isPrefixOf_iff_prefix, List.isPrefixOf_iff_prefix, ← List.cons_append]
      exact ⟨fun hmore => List.prefix_of_prefix_length_le hmore (List.prefix_append _ _) (by omega),
        fun hrest => hrest.trans (List.prefix_append _ _)⟩
    rw [indexOf] at h
    rw [List.cons_append, indexOf, hprefix]
    split_ifs at h ⊢ with hstart
    · exact h
    · obtain ⟨i, hi, rfl⟩ := Option.map_eq_some_iff.mp h
      rw [ih hi, Option.map_some]

/-- A socket that has sent its upgrade request. -/
def waiting (key incoming : Bytes) : TunnelSocket where
  key := key
  incoming := incoming
  state := .WaitingUpgrade
  failed := false
  events := []

/-- A socket after the upgrade. -/
def upgraded (key incoming : Bytes) : TunnelSocket where
  key := key
  incoming := incoming
  state := .Connected
  failed := false
  events := [.onConnected]

/-- Some bytes are a whole answer that is accepted, of a size that the socket waits for. -/
structure Answers (Sha1Digest : Bytes → Bytes) (handlers : Handlers) (key response : Bytes) : Prop where
  accepts : readUpgradeResponse Sha1Digest handlers (waiting key response) = (true, upgraded key [])
  small : response.length ≤ kMaxUpgradeResponse

section Upgrade

variable {Sha1Digest : Bytes → Bytes} {handlers : Handlers} {key response : Bytes}

/-- The checks that an accepted answer passes. -/
lemma Answers.checks (h : Answers Sha1Digest handlers key response) :
    ∃ last, indexOf [13, 10, 13, 10] response = some last ∧ last + 4 = response.length ∧
      indexOf (toLatin1 (u " 101")) (trimmed (((response.take last).splitOn 10).headD [])) ≠ none ∧
      accepted (Base64.toBase64 (Sha1Digest (key ++ kAcceptGuid))) ((response.take last).splitOn 10) ≠ false ∧
      handlers.closesConnected = false := by
  have haccepts := h.accepts
  rw [readUpgradeResponse] at haccepts
  rcases hlast : indexOf [13, 10, 13, 10] (waiting key response).incoming with - | last
  · rw [hlast] at haccepts
    cases congrArg (fun result => result.2.state) haccepts
  have hlength := length_of_indexOf hlast
  rw [hlast] at haccepts
  dsimp only at haccepts
  split_ifs at haccepts with hstatus haccepted hcloses
  · cases congrArg Prod.fst haccepts
  · cases congrArg Prod.fst haccepts
  · cases congrArg (fun result => result.2.state) haccepts
  · have hrest : response.drop (last + 4) = [] := congrArg (fun result => result.2.incoming) haccepts
    rw [List.drop_eq_nil_iff] at hrest
    exact ⟨last, hlast, le_antisymm hlength hrest, hstatus, haccepted, Bool.eq_false_iff.mpr hcloses⟩

/-- What comes behind the answer is kept. -/
lemma Answers.append (h : Answers Sha1Digest handlers key response) (more : Bytes) :
    readUpgradeResponse Sha1Digest handlers (waiting key (response ++ more)) = (true, upgraded key more) := by
  obtain ⟨last, hlast, hlength, hstatus, haccepted, hopen⟩ := h.checks
  have hincoming : (waiting key (response ++ more)).incoming = response ++ more := rfl
  have hkey : (waiting key (response ++ more)).key = key := rfl
  have htake : (response ++ more).take last = response.take last := List.take_append_of_le_length (by omega)
  have hdrop : (response ++ more).drop (last + 4) = more := by rw [hlength, List.drop_left]
  rw [readUpgradeResponse, hincoming, indexOf_append hlast]
  dsimp only
  rw [htake, hdrop, hkey, if_neg hstatus, if_neg haccepted, hopen]
  rfl

/-- Before all of the answer has come the socket waits. -/
lemma Answers.part (h : Answers Sha1Digest handlers key response) {part more : Bytes} (hpart : part ++ more = response)
    (hmore : more ≠ []) :
    readUpgradeResponse Sha1Digest handlers (waiting key part) = (true, waiting key part) := by
  obtain ⟨last, hlast, hlength, -⟩ := h.checks
  have hsmall := h.small
  have hpositive := List.length_pos_iff.mpr hmore
  rw [← hpart, List.length_append] at hlength hsmall
  have hnone : indexOf [13, 10, 13, 10] (waiting key part).incoming = none := by
    rcases hfound : indexOf [13, 10, 13, 10] part with - | i
    · exact hfound
    · have hbound := length_of_indexOf hfound
      rw [← hpart, indexOf_append hfound, Option.some.injEq] at hlast
      rw [hlast, List.length_cons, List.length_cons, List.length_cons, List.length_singleton] at hbound
      omega
  have hwaits : part.length < kMaxUpgradeResponse := by omega
  rw [readUpgradeResponse, hnone]
  exact Prod.ext (decide_eq_true hwaits) rfl

/-- **The answer and what follows it may be cut anywhere**: in the end the frames are read that came behind the
answer. -/
theorem Answers.reads_hold (h : Answers Sha1Digest handlers key response)
    (part : Bytes) {stream : Bytes} {reads : List Bytes}
    (hpart : part.length < response.length) (hreads : part ++ reads.flatten = response ++ stream) :
    ∃ last, reads.foldlM (onReadyRead Sha1Digest handlers) (waiting key part) = some last ∧
      Holds last (.onConnected :: ((reader handlers).run [] stream).1, ((reader handlers).run [] stream).2) := by
  induction reads generalizing part with
  | nil =>
    have hlength := congrArg List.length hreads
    rw [List.flatten_nil, List.append_nil, List.length_append] at hlength
    omega
  | cons read reads ih =>
    rw [List.flatten_cons, ← List.append_assoc] at hreads
    have hread : onReadyRead Sha1Digest handlers (waiting key part) read =
        if (readUpgradeResponse Sha1Digest handlers (waiting key (part ++ read))).1 = false then
          some (readUpgradeResponse Sha1Digest handlers (waiting key (part ++ read))).2.fail
        else if (readUpgradeResponse Sha1Digest handlers (waiting key (part ++ read))).2.state ≠ .Connected then
          some (readUpgradeResponse Sha1Digest handlers (waiting key (part ++ read))).2
        else parse handlers (readUpgradeResponse Sha1Digest handlers (waiting key (part ++ read))).2 := rfl
    rcases Nat.lt_or_ge (part ++ read).length response.length with hshort | hlong
    · obtain ⟨more, hmore⟩ := List.prefix_of_prefix_length_le ⟨_, hreads⟩ (List.prefix_append _ _) hshort.le
      have hne : more ≠ [] := by
        rintro rfl
        rw [List.append_nil] at hmore
        rw [hmore] at hshort
        exact Nat.lt_irrefl _ hshort
      rw [h.part hmore hne, if_neg nofun, if_pos nofun] at hread
      obtain ⟨last, hlast, hholds⟩ := ih (part ++ read) hshort hreads
      refine ⟨last, ?_, hholds⟩
      rw [List.foldlM_cons, hread]
      exact hlast
    · obtain ⟨head, hhead⟩ := List.prefix_of_prefix_length_le (List.prefix_append _ _) ⟨_, hreads⟩ hlong
      rw [← hhead, List.append_assoc] at hreads
      have hstream := List.append_cancel_left hreads
      rw [← hhead, h.append head, if_neg nofun, if_neg (fun hne => hne rfl)] at hread
      obtain ⟨next, hnext, hholds⟩ := parse_holds handlers (upgraded key head) rfl rfl
      obtain ⟨last, hlast, hholds⟩ := TunnelSocket.reads_hold Sha1Digest handlers hholds reads
      refine ⟨last, ?_, ?_⟩
      · rw [List.foldlM_cons, hread, hnext]
        exact hlast
      · rw [runFrom, Incremental.foldl_feed_append] at hholds
        rw [← hstream, ← Incremental.foldl_feed]
        exact hholds

end Upgrade

/-- **The bytes of a frame that is sent**, under a mask drawn for it. -/
def writeFrame (mask : WebSocket.Mask) (payload : Bytes) (opcode : UInt8) : Bytes :=
  let length := payload.length
  let frame := [0x80 ||| opcode]
  let frame := frame ++
    if length < 126 then [0x80 ||| UInt8.ofNat length]
    else if length ≤ 0xFFFF then
      [0x80 ||| 126, UInt8.ofNat ((length >>> 8) &&& 0xFF), UInt8.ofNat (length &&& 0xFF)]
    else (0x80 ||| 127) :: (List.range 8).reverse.map fun i => UInt8.ofNat ((length >>> (i * 8)) &&& 0xFF)
  frame ++ mask.bytes ++ WebSocket.masked mask.bytes payload

end TunnelSocket

end Passkey
