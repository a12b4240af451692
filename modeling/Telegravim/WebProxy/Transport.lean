import Mathlib.Data.Finset.Basic
import Telegravim.Foundation.OrdMap
import Telegravim.WebProxy.Frame

set_option autoImplicit false

/-!
# Web proxy: the transport

Streams share one carrier, a browser or a web view. Data of a stream waits until the relay grants a window
and the carrier has room; control frames go ahead of data. What waits is paid from a budget of the owner.

The timers of the source do not ask for a state of their own here: what a timer does may happen at any
time.

## Main definitions

* `WebProxy.Stream`, `WebProxy.Transport` — streams, and `Transport::Private` with its owner.
* `WebProxy.registerStream`, `WebProxy.closeStream`, `WebProxy.sendData`, `WebProxy.grantWindow` — what
  streams ask for.
* `WebProxy.flushStreams`, `WebProxy.flushControlFrames` — what is written to the carrier.
* `WebProxy.processRelayFrame` — what the relay says.
-/

namespace WebProxy

def kMaxPendingStreamBytes : ℤ := 8 * 1024 * 1024
def kMaxPendingStreamItems : ℕ := 1024
def kMaxPendingTransportBytes : ℤ := 64 * 1024 * 1024
def kMaxPendingTransportItems : ℤ := 8192
def kMaxLocalSocketPendingBytes : ℤ := 4 * 1024 * 1024
def kLocalSocketControlReserve : ℤ := 64 * 1024
def kMaxPendingControlBytes : ℤ := 64 * 1024
def kMaxPendingControlFrames : ℕ := 1024
def kMaxFlushFramesPerTurn : ℕ := 256
def kDataFrameSize : ℕ := 64 * 1024
def kMaxClosedStreamIds : ℕ := 4096
def kMaxWebviewPendingItems : ℤ := 512
def kWebviewItemsControlReserve : ℤ := 64
def kWindowFlushBytes : ℕ := 256 * 1024

/-- The largest value of a window. -/
def kMaxWindow : ℕ := 2 ^ 32 - 1

/-- Data that waits, and how much of it was sent. -/
structure Pending where
  data : List UInt8
  offset : ℕ := 0

structure Stream where
  pending : List Pending := []
  sendWindow : ℕ := kInitialStreamWindow
  receiveWindow : ℕ := kInitialStreamWindow
  pendingWindow : ℕ := 0
  pendingBytes : ℤ := 0
  opened : Bool := false

inductive State where
  | idle | waitingForBrowser | connecting | connected | failed
  deriving DecidableEq

/-- What is asked of a transport from other threads. -/
inductive Call where
  | registerStream (streamId : ℕ)
  | sendData (streamId : ℕ) (data : List UInt8)
  | grantWindow (streamId amount : ℕ)
  | webviewStarting (generation : ℕ)
  | webviewReady (generation : ℕ)
  | webviewPayload (generation : ℕ) (payload : List UInt8)
  | webviewWritten (generation : ℕ) (bytes : ℤ)
  | webviewFailed (generation : ℕ)
  | webviewUnavailable

/-- What happens: streams are registered, their data is accepted and written, their handlers are called, and
their ids are remembered as closed. The transport does not read it. -/
inductive Event where
  | registered (streamId : ℕ)
  | accepted (streamId : ℕ) (data : List UInt8)
  | written (frame : Frame)
  | connected (streamId : ℕ)
  | data (streamId : ℕ) (data : List UInt8)
  | disconnected (streamId : ℕ)
  | failed (streamId : ℕ)
  | closed (streamId : ℕ)
  | protocolError

/-- `Transport::Private`, and the budget of its owner with the calls that wait. -/
structure Transport where
  streams : OrdMap ℕ Stream := ∅
  readyStreams : List ℕ := []
  readySet : Finset ℕ := ∅
  closedStreams : Finset ℕ := ∅
  closedStreamOrder : List ℕ := []
  controlFrames : List Frame := []
  controlBytes : ℤ := 0
  browserSocket : Option ℕ := none
  /-- What the socket of the browser has to write. -/
  bytesToWrite : ℤ := 0
  proxy : Option ℕ := none
  state : State := .idle
  webviewCandidateGeneration : ℕ := 0
  webviewGeneration : ℕ := 0
  webviewPendingBytes : ℤ := 0
  webviewPendingItems : ℤ := 0
  welcomed : Bool := false
  browserWriteFailed : Bool := false
  ownerPendingBytes : ℤ := 0
  ownerPendingItems : ℤ := 0
  queue : List Call := []
  log : List Event := []

namespace Transport

def note (t : Transport) (event : Event) : Transport := { t with log := t.log ++ [event] }

def setStream (t : Transport) (streamId : ℕ) (stream : Stream) : Transport :=
  { t with streams := t.streams.insert streamId stream }

/-- `Transport::releasePending`. -/
def releaseOwner (t : Transport) (bytes items : ℤ) : Transport :=
  { t with ownerPendingBytes := t.ownerPendingBytes - bytes, ownerPendingItems := t.ownerPendingItems - items }

/-- `releasePending` of a stream that is gone. -/
def releasePending (t : Transport) (stream : Stream) : Transport :=
  t.releaseOwner stream.pendingBytes stream.pending.length

def setState (t : Transport) (state : State) : Transport := { t with state := state }

end Transport

/-! ### The carrier -/

def carrierAvailable (t : Transport) : Bool := t.webviewGeneration ≠ 0 || t.browserSocket.isSome

def carrierPendingBytes (t : Transport) : ℤ :=
  if t.webviewGeneration ≠ 0 then t.webviewPendingBytes
  else if t.browserSocket.isSome then t.bytesToWrite
  else 0

def carrierPendingItems (t : Transport) : ℤ := if t.webviewGeneration ≠ 0 then t.webviewPendingItems else 0

def webSocketHeaderSize (payloadSize : ℕ) : ℕ :=
  if payloadSize < 126 then 2 else if payloadSize ≤ 0xFFFF then 4 else 10

def carrierFrameSize (t : Transport) (payloadSize : ℕ) : ℤ :=
  payloadSize + if t.webviewGeneration ≠ 0 then 0 else webSocketHeaderSize payloadSize

def carrierAccepts (t : Transport) (frameSize : ℕ) (control : Bool) : Bool :=
  let bytesLimit := if control then kMaxLocalSocketPendingBytes
    else kMaxLocalSocketPendingBytes - kLocalSocketControlReserve
  let itemsLimit := if control then kMaxWebviewPendingItems
    else kMaxWebviewPendingItems - kWebviewItemsControlReserve
  carrierPendingBytes t ≤ bytesLimit - carrierFrameSize t frameSize && carrierPendingItems t < itemsLimit

def writeCarrierFrame (t : Transport) (frame : Frame) : Transport :=
  if t.webviewGeneration ≠ 0 then
    Transport.note { t with
      webviewPendingBytes := t.webviewPendingBytes + frame.size
      webviewPendingItems := t.webviewPendingItems + 1 } (.written frame)
  else if t.browserSocket.isSome then
    Transport.note { t with
      bytesToWrite := t.bytesToWrite + (frame.size + webSocketHeaderSize frame.size : ℕ) } (.written frame)
  else t

/-! ### Control frames -/

/-- Control frames wait when the carrier has no room. When too many of them wait, the carrier is given up. -/
def queueControlFrame (t : Transport) (frame : Frame) : Transport :=
  if !carrierAvailable t || t.browserWriteFailed then t
  else if t.controlFrames = [] ∧ carrierAccepts t frame.size true then writeCarrierFrame t frame
  else if (frame.size : ℤ) > kMaxPendingControlBytes ∨
      t.controlFrames.length ≥ kMaxPendingControlFrames ∨
      t.controlBytes > kMaxPendingControlBytes - frame.size then
    { t with browserWriteFailed := true }
  else { t with controlBytes := t.controlBytes + frame.size, controlFrames := t.controlFrames ++ [frame] }

def sendFrame (t : Transport) (type : FrameType) (streamId : ℕ) (payload : List UInt8) : Transport :=
  if !carrierAvailable t then t else queueControlFrame t ⟨type, streamId, payload⟩

/-- The loop of `flushControlFrames`. -/
def flushControl (t : Transport) : List Frame → Transport
  | [] => { t with controlFrames := [] }
  | frame :: rest =>
    if carrierAvailable t && carrierAccepts t frame.size true then
      let written := writeCarrierFrame t frame
      flushControl { written with controlBytes := written.controlBytes - frame.size } rest
    else { t with controlFrames := frame :: rest }

def flushControlFrames (t : Transport) : Transport := flushControl t t.controlFrames

/-! ### Streams that are ready -/

def markStreamReady (t : Transport) (streamId : ℕ) : Transport :=
  match t.streams.find streamId with
  | none => t
  | some stream =>
    if !stream.opened || stream.sendWindow = 0 || stream.pending.isEmpty || streamId ∈ t.readySet then t
    else { t with
      readySet := insert streamId t.readySet
      readyStreams := t.readyStreams ++ [streamId] }

def unmarkStreamReady (t : Transport) (streamId : ℕ) : Transport :=
  { t with readySet := t.readySet.erase streamId }

/-- How much of the first data of a stream is sent. -/
def takeSize (stream : Stream) (front : Pending) (localAllowance : ℤ) : ℕ :=
  min (min stream.sendWindow (front.data.length - front.offset))
    (min kDataFrameSize (localAllowance - kFrameHeaderSize - 10).toNat)

/-- A stream after a part of its first data was sent. -/
def takeFront (stream : Stream) (front : Pending) (rest : List Pending) (take : ℕ) : Stream :=
  { stream with
    pending := if front.offset + take = front.data.length then rest
      else { front with offset := front.offset + take } :: rest
    pendingBytes := stream.pendingBytes - take
    sendWindow := stream.sendWindow - take }

/-- One frame of data is written. -/
def flushStream (t : Transport) (streamId : ℕ) : Transport :=
  match t.streams.find streamId with
  | none => t
  | some stream =>
    if !stream.opened || !carrierAvailable t then t
    else
      match stream.pending with
      | [] => t
      | front :: rest =>
        if stream.sendWindow = 0 || t.browserWriteFailed then t
        else
          let localAllowance := kMaxLocalSocketPendingBytes - kLocalSocketControlReserve -
            carrierPendingBytes t
          if localAllowance ≤ kFrameHeaderSize + 10 || !carrierAccepts t (kFrameHeaderSize + 1) false then t
          else
            let take := takeSize stream front localAllowance
            let written := writeCarrierFrame t ⟨.data, streamId, (front.data.drop front.offset).take take⟩
            let sent := written.setStream streamId (takeFront stream front rest take)
            sent.releaseOwner take (if front.offset + take = front.data.length then 1 else 0)

/-- The loop of `flushStreams`. Streams that are not ready any more are passed over, and do not count. -/
def flushReady : ℕ → Transport → Transport
  | 0, t => t
  | turns + 1, t =>
    if carrierAccepts t (kFrameHeaderSize + 1) false then
      match t.readyStreams.dropWhile (· ∉ t.readySet) with
      | [] => { t with readyStreams := [] }
      | streamId :: rest =>
        let taken : Transport := { t with readyStreams := rest, readySet := t.readySet.erase streamId }
        flushReady turns (markStreamReady (flushStream taken streamId) streamId)
    else t

def flushStreams (t : Transport) : Transport :=
  if !carrierAvailable t || t.browserWriteFailed then t
  else
    let flushed := flushControlFrames t
    if flushed.controlFrames ≠ [] then flushed else flushReady kMaxFlushFramesPerTurn flushed

/-! ### The end of streams -/

/-- Only the last ids are remembered. -/
def rememberClosedStream (t : Transport) (streamId : ℕ) : Transport :=
  if streamId ∈ t.closedStreams then t
  else
    let order := t.closedStreamOrder ++ [streamId]
    let closed := insert streamId t.closedStreams
    let remembered : Transport :=
      if order.length > kMaxClosedStreamIds then
        { t with closedStreams := closed.erase (order.headD 0), closedStreamOrder := order.tail }
      else { t with closedStreams := closed, closedStreamOrder := order }
    remembered.note (.closed streamId)

/-- A stream is taken out, and what waits for it is given back. -/
def removeStream (t : Transport) (streamId : ℕ) (stream : Stream) : Transport :=
  (unmarkStreamReady { t with streams := t.streams.erase streamId } streamId).releasePending stream

/-- The client gives a stream up. -/
def dropStream (t : Transport) (streamId : ℕ) (stream : Stream) : Transport :=
  removeStream (if stream.opened then rememberClosedStream (sendFrame t .close streamId []) streamId else t)
    streamId stream

def closeStream (t : Transport) (streamId : ℕ) : Transport :=
  match t.streams.find streamId with
  | none => t
  | some stream => dropStream t streamId stream

def failStream (t : Transport) (streamId : ℕ) : Transport :=
  match t.streams.find streamId with
  | none => t
  | some stream => (dropStream t streamId stream).note (.failed streamId)

def closeAllStreams (t : Transport) (failed : Bool) : Transport :=
  t.streams.entries.foldl
    (fun t entry => (t.releasePending entry.2).note
      (if failed then .failed entry.1 else .disconnected entry.1))
    { t with streams := ∅, readyStreams := [], readySet := ∅ }

/-! ### The end of carriers -/

def loseBrowser (t : Transport) (failed : Bool) : Transport :=
  let closed := closeAllStreams { t with welcomed := false } failed
  { closed with
    readyStreams := []
    readySet := ∅
    controlFrames := []
    controlBytes := 0
    closedStreams := ∅
    closedStreamOrder := []
    state := if closed.webviewCandidateGeneration ≠ 0 then .connecting
      else if failed then .failed else .waitingForBrowser }

/-- `clientDisconnected`, of the client that is the browser. -/
def clientDisconnected (t : Transport) : Transport :=
  if t.browserSocket.isSome then
    loseBrowser { t with
      browserSocket := none
      browserWriteFailed := false
      controlFrames := []
      controlBytes := 0 } (t.state = .failed)
  else t

/-- `writeWebSocket`, to the browser; `size` is that of the frame. -/
def writeWebSocket (t : Transport) (size : ℤ) : Transport :=
  if t.browserWriteFailed ∨ size > kMaxLocalSocketPendingBytes ∨
      t.bytesToWrite > kMaxLocalSocketPendingBytes - size then
    { t with browserWriteFailed := true }
  else { t with bytesToWrite := t.bytesToWrite + size }

/-- `closeWebSocket`, of the browser. The socket may say at once that it is disconnected; where this is the
last thing to do, it may as well say so next. -/
def closeWebSocket (t : Transport) (atOnce : Bool) : Transport :=
  let written := writeWebSocket t 4
  if atOnce then clientDisconnected written else written

/-- `webviewFailed`, of the web view that is the carrier. -/
def forgetWebview (t : Transport) : Transport :=
  let closed := closeAllStreams { t with
    webviewGeneration := 0
    webviewPendingBytes := 0
    webviewPendingItems := 0
    welcomed := false } false
  { closed with
    readyStreams := []
    readySet := ∅
    controlFrames := []
    controlBytes := 0
    browserWriteFailed := false
    closedStreams := ∅
    closedStreamOrder := [] }

def webviewFailed (t : Transport) (generation : ℕ) : Transport :=
  let candidate := t.webviewCandidateGeneration = generation
  let active := t.webviewGeneration = generation
  if ¬candidate ∧ ¬active then t
  else
    let t := if candidate then { t with webviewCandidateGeneration := 0 } else t
    let t := if active then forgetWebview t else t
    if t.browserSocket.isNone ∧ t.state ≠ .waitingForBrowser then t.setState .connecting else t

def protocolError (t : Transport) (atOnce : Bool) : Transport :=
  let t := t.note .protocolError
  if t.webviewGeneration ≠ 0 then webviewFailed (closeAllStreams t true) t.webviewGeneration
  else
    let closed := closeAllStreams t true
    let failed : Transport := { closed with
      readyStreams := []
      readySet := ∅
      controlFrames := []
      controlBytes := 0
      closedStreams := ∅
      closedStreamOrder := []
      welcomed := false
      state := .failed }
    if failed.browserSocket.isSome then closeWebSocket failed atOnce else failed

/-! ### What streams ask for -/

/-- The stream is opened, and says so. -/
def openStream (t : Transport) (streamId : ℕ) (stream : Stream) : Transport :=
  (sendFrame (t.setStream streamId { stream with opened := true }) .open streamId []).note (.connected streamId)

def registerStream (t : Transport) (streamId : ℕ) : Transport :=
  if t.proxy.isNone || t.streams.contains streamId || streamId ∈ t.closedStreams then
    t.note (.failed streamId)
  else
    let registered := (t.setStream streamId {}).note (.registered streamId)
    if registered.welcomed then openStream registered streamId {} else registered

/-- Whether data is added to the last data that waits. -/
def coalesces (stream : Stream) (data : List UInt8) : Bool :=
  match stream.pending.getLast? with
  | none => false
  | some back => back.offset = 0 && back.data.length + data.length ≤ kDataFrameSize

/-- A stream with more data. -/
def appendData (stream : Stream) (data : List UInt8) : Stream :=
  { stream with
    pendingBytes := stream.pendingBytes + data.length
    pending := match stream.pending.getLast? with
      | none => [{ data := data }]
      | some back =>
        if coalesces stream data then stream.pending.dropLast ++ [{ back with data := back.data ++ data }]
        else stream.pending ++ [{ data := data }] }

def sendData (t : Transport) (streamId : ℕ) (data : List UInt8) : Transport :=
  match t.streams.find streamId with
  | none => t.releaseOwner data.length (if data = [] then 0 else 1)
  | some stream =>
    if data = [] then t.releaseOwner data.length 0
    else if stream.pendingBytes + data.length > kMaxPendingStreamBytes ∨
        coalesces stream data = false ∧ stream.pending.length ≥ kMaxPendingStreamItems then
      (dropStream (t.releaseOwner data.length 1) streamId stream).note (.failed streamId)
    else
      let added := (t.setStream streamId (appendData stream data)).note (.accepted streamId data)
      let paid := if coalesces stream data then added.releaseOwner 0 1 else added
      flushStreams (markStreamReady paid streamId)

/-- The windows of a stream that were granted and not sent are sent. -/
def sendWindow (t : Transport) (streamId : ℕ) (stream : Stream) : Transport :=
  sendFrame (t.setStream streamId { stream with pendingWindow := 0 }) .window streamId
    (windowPayload stream.pendingWindow)

def grantWindow (t : Transport) (streamId amount : ℕ) : Transport :=
  match t.streams.find streamId with
  | none => t
  | some stream =>
    if !stream.opened || amount = 0 then t
    else if amount > kInitialStreamWindow - stream.receiveWindow then protocolError t false
    else
      let granted := { stream with
        receiveWindow := stream.receiveWindow + amount
        pendingWindow := stream.pendingWindow + amount }
      if granted.pendingWindow ≥ kWindowFlushBytes then sendWindow t streamId granted
      else t.setStream streamId granted

/-- `flushWindows`, after `scheduleWindowFlush`. -/
def flushWindows (t : Transport) : Transport :=
  t.streams.entries.foldl
    (fun t entry => if entry.2.opened && entry.2.pendingWindow ≠ 0 then sendWindow t entry.1 entry.2 else t) t

/-! ### What the relay says -/

def welcome (t : Transport) (atOnce : Bool) : Transport :=
  if t.welcomed || !carrierAvailable t then protocolError t atOnce
  else
    flushStreams (t.streams.entries.foldl
      (fun t entry => markStreamReady (openStream t entry.1 entry.2) entry.1)
      { t with welcomed := true, state := .connected })

/-- A frame that is about a stream that is closed. -/
def closedStreamFrame (frame : Frame) : Bool :=
  match frame.type with
  | .data => !frame.payload.isEmpty
  | .window => frame.payload.length = 4 && readWindow frame.payload ≠ 0
  | .close => frame.payload.isEmpty
  | _ => false

/-- A frame that is about a stream that is open. -/
def openStreamFrame (t : Transport) (stream : Stream) (frame : Frame) : Transport × Bool :=
  match frame.type with
  | .data =>
    if frame.payload.isEmpty || frame.payload.length > stream.receiveWindow then (t, false)
    else
      let received := { stream with receiveWindow := stream.receiveWindow - frame.payload.length }
      ((t.setStream frame.streamId received).note (.data frame.streamId frame.payload), true)
  | .window =>
    if frame.payload.length ≠ 4 ∨ readWindow frame.payload = 0 then (t, false)
    else
      let granted := { stream with
        sendWindow := min (stream.sendWindow + readWindow frame.payload) kMaxWindow }
      (flushStreams (markStreamReady (t.setStream frame.streamId granted) frame.streamId), true)
  | .close =>
    if !frame.payload.isEmpty then (t, false)
    else
      let removed := removeStream (rememberClosedStream t frame.streamId) frame.streamId stream
      (removed.note (.disconnected frame.streamId), true)
  | _ => (t, false)

/-- A frame that is about the carrier. -/
def carrierFrame (t : Transport) (frame : Frame) (atOnce : Bool) : Transport × Bool :=
  match frame.type with
  | .welcome =>
    if t.welcomed || !frame.payload.isEmpty then (t, false) else (welcome t atOnce, true)
  | .ping =>
    if frame.payload.length > 64 then (t, false) else (sendFrame t .pong 0 frame.payload, true)
  | .bye =>
    let lost := if t.webviewGeneration ≠ 0 then webviewFailed t t.webviewGeneration else loseBrowser t true
    (if lost.browserSocket.isSome then closeWebSocket lost atOnce else lost, true)
  | _ => (t, false)

def processRelayFrame (t : Transport) (frame : Frame) (atOnce : Bool) : Transport × Bool :=
  if !t.welcomed && (frame.type ≠ .welcome || frame.streamId ≠ 0) then (t, false)
  else if frame.streamId = 0 then carrierFrame t frame atOnce
  else
    match t.streams.find frame.streamId with
    | none => if frame.streamId ∈ t.closedStreams then (t, closedStreamFrame frame) else (t, false)
    | some stream => if !stream.opened then (t, false) else openStreamFrame t stream frame

/-- The frames of a payload, one after the other, until one is refused. -/
def processRelayFrames (atOnce : Bool) : Transport → List Frame → Transport
  | t, [] => t
  | t, frame :: rest =>
    let processed := processRelayFrame t frame atOnce
    if processed.2 then processRelayFrames atOnce processed.1 rest else protocolError processed.1 atOnce

def processRelayPayload (t : Transport) (payload : List UInt8) (atOnce : Bool) : Transport :=
  match parseFrames payload [] with
  | none => protocolError t atOnce
  | some (frames, rest) =>
    if rest ≠ [] ∨ frames = [] then protocolError t atOnce else processRelayFrames atOnce t frames

end WebProxy
