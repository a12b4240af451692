import Telegravim.WebProxy.Transport

set_option autoImplicit false

/-!
# Web proxy: the owner of the transport

Streams and carriers ask the owner from other threads. What they ask for is queued, and data and payloads
are paid from the budget of the owner until they are written or given up.

## Main definitions

* `WebProxy.reservePending` — the budget.
* `WebProxy.ask`, `WebProxy.call` — a call is queued, and a call is made.
* `WebProxy.Step`, `WebProxy.step`, `WebProxy.Reachable` — the runs of a transport.
-/

namespace WebProxy

/-! ### Carriers come and go -/

def deactivate (t : Transport) : Transport :=
  let closed := closeAllStreams t false
  { closed with
    browserSocket := none
    closedStreams := ∅
    closedStreamOrder := []
    readyStreams := []
    readySet := ∅
    controlFrames := []
    controlBytes := 0
    webviewCandidateGeneration := 0
    webviewGeneration := 0
    webviewPendingBytes := 0
    webviewPendingItems := 0
    welcomed := false
    browserWriteFailed := false
    proxy := none
    state := .idle }

def configure (t : Transport) (proxy : ℕ) : Transport :=
  if t.proxy = some proxy then t else { deactivate t with proxy := some proxy, state := .connecting }

/-- `authenticateBrowser`, with the token that is expected. The socket has something to write already, and
the answer is of size `bridgeControl`. -/
def authenticateBrowser (t : Transport) (socket : ℕ) (bytesToWrite bridgeControl : ℤ) (atOnce : Bool) :
    Transport :=
  if t.webviewGeneration ≠ 0 then t
  else
    let t := if t.browserSocket.isSome ∧ t.browserSocket ≠ some socket then
      closeWebSocket (closeAllStreams t false) atOnce else t
    let adopted : Transport := { t with
      browserSocket := some socket
      bytesToWrite := bytesToWrite
      browserWriteFailed := false
      controlFrames := []
      controlBytes := 0
      closedStreams := ∅
      closedStreamOrder := []
      welcomed := false
      state := .connecting }
    sendFrame (writeWebSocket adopted bridgeControl) .hello 0 [1]

/-- `processBrowserControl`, when the browser says that it failed. -/
def browserFailed (t : Transport) (atOnce : Bool) : Transport :=
  if t.browserSocket.isSome then closeWebSocket (loseBrowser t true) atOnce else t

def browserBytesWritten (t : Transport) (bytes : ℤ) : Transport :=
  if t.browserSocket.isSome then
    flushStreams (flushControlFrames { t with bytesToWrite := t.bytesToWrite - bytes })
  else t

def webviewStarting (t : Transport) (generation : ℕ) : Transport :=
  if t.proxy.isNone ∨ generation = 0 then t
  else
    let t : Transport := { t with webviewCandidateGeneration := generation }
    if carrierAvailable t = false ∧ t.state ≠ .waitingForBrowser then t.setState .connecting else t

def webviewReady (t : Transport) (generation : ℕ) : Transport :=
  if t.webviewCandidateGeneration ≠ generation ∨ t.webviewGeneration ≠ 0 then t
  else
    let t : Transport := { t with webviewCandidateGeneration := 0 }
    let t := if t.browserSocket.isSome && t.welcomed then closeAllStreams t false else t
    welcome { t with
      browserSocket := none
      browserWriteFailed := false
      controlFrames := []
      controlBytes := 0
      welcomed := false
      webviewGeneration := generation
      webviewPendingBytes := 0
      webviewPendingItems := 0 } false

def webviewPayload (t : Transport) (generation : ℕ) (payload : List UInt8) : Transport :=
  if t.webviewGeneration = generation then processRelayPayload t payload false else t

def webviewWritten (t : Transport) (generation : ℕ) (bytes : ℤ) : Transport :=
  if t.webviewGeneration ≠ generation then t
  else if bytes ≤ 0 ∨ bytes > t.webviewPendingBytes ∨ t.webviewPendingItems ≤ 0 then protocolError t false
  else
    flushStreams (flushControlFrames { t with
      webviewPendingBytes := t.webviewPendingBytes - bytes
      webviewPendingItems := t.webviewPendingItems - 1 })

def webviewUnavailable (t : Transport) : Transport :=
  if t.proxy.isNone ∨ t.browserSocket.isSome ∨ t.webviewGeneration ≠ 0 then t
  else t.setState .waitingForBrowser

/-! ### Calls -/

/-- `reservePending`, unless there is no budget left. -/
def reservePending (t : Transport) (bytes : ℤ) : Option Transport :=
  if t.ownerPendingItems ≥ kMaxPendingTransportItems ∨
      t.ownerPendingBytes > kMaxPendingTransportBytes - bytes then none
  else some { t with
    ownerPendingBytes := t.ownerPendingBytes + bytes
    ownerPendingItems := t.ownerPendingItems + 1 }

def enqueue (t : Transport) (call : Call) : Transport := { t with queue := t.queue ++ [call] }

/-- The owner is asked. Data and payloads need a budget. -/
def ask (t : Transport) : Call → Transport
  | .sendData streamId data =>
    if data = [] then t
    else match reservePending t data.length with
      | none => failStream t streamId
      | some reserved => enqueue reserved (.sendData streamId data)
  | .webviewPayload generation payload =>
    if payload = [] then enqueue t (.webviewFailed generation)
    else match reservePending t payload.length with
      | none => enqueue t (.webviewFailed generation)
      | some reserved => enqueue reserved (.webviewPayload generation payload)
  | other => enqueue t other

/-- A call is made. -/
def call (t : Transport) : Call → Transport
  | .registerStream streamId => registerStream t streamId
  | .sendData streamId data => sendData t streamId data
  | .grantWindow streamId amount => grantWindow t streamId amount
  | .webviewStarting generation => webviewStarting t generation
  | .webviewReady generation => webviewReady t generation
  | .webviewPayload generation payload =>
    (webviewPayload t generation payload).releaseOwner payload.length 1
  | .webviewWritten generation bytes => webviewWritten t generation bytes
  | .webviewFailed generation => webviewFailed t generation
  | .webviewUnavailable => webviewUnavailable t

/-- The first call of the queue is made. -/
def callNext (t : Transport) : Transport :=
  match t.queue with
  | [] => t
  | first :: rest => call { t with queue := rest } first

/-! ### Runs -/

/-- What happens to a transport. -/
inductive Step where
  | ask (call : Call)
  | callNext
  | closeStream (streamId : ℕ)
  | configure (proxy : ℕ)
  | deactivate
  | authenticateBrowser (socket : ℕ) (bytesToWrite bridgeControl : ℤ) (atOnce : Bool)
  | browserFailed (atOnce : Bool)
  | browserPayload (payload : List UInt8) (atOnce : Bool)
  | browserBytesWritten (bytes : ℤ)
  | closeBrowser (atOnce : Bool)
  | clientDisconnected
  | flushWindows
  /-- The carrier did not say welcome in time, made no progress, or has no room left. -/
  | giveUp (atOnce : Bool)

def step (t : Transport) : Step → Transport
  | .ask call => ask t call
  | .callNext => callNext t
  | .closeStream streamId => WebProxy.closeStream t streamId
  | .configure proxy => WebProxy.configure t proxy
  | .deactivate => WebProxy.deactivate t
  | .authenticateBrowser socket bytesToWrite bridgeControl atOnce =>
    WebProxy.authenticateBrowser t socket bytesToWrite bridgeControl atOnce
  | .browserFailed atOnce => WebProxy.browserFailed t atOnce
  | .browserPayload payload atOnce =>
    if t.browserSocket.isSome then processRelayPayload t payload atOnce else t
  | .browserBytesWritten bytes => WebProxy.browserBytesWritten t bytes
  | .closeBrowser atOnce => if t.browserSocket.isSome then closeWebSocket t atOnce else t
  | .clientDisconnected => WebProxy.clientDisconnected t
  | .flushWindows => WebProxy.flushWindows t
  | .giveUp atOnce => if carrierAvailable t then protocolError t atOnce else t

/-- The states of the runs of a transport. -/
inductive Reachable : Transport → Prop
  | start : Reachable {}
  | step {t : Transport} (next : Step) : Reachable t → Reachable (step t next)

end WebProxy
