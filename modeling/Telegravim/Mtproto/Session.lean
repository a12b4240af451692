import Mathlib.Algebra.GroupWithZero.Nat
import Telegravim.Foundation.OrdMap

set_option autoImplicit false

/-!
# MTProto sessions: sending requests

A request waits in `toSend` under its request id. `tryToSend` gives it a message id, puts it into
`haveSent` under that id, and writes it, alone or with others in a container. Requests are shared: the maps
hold references to them, and the message id is stored in the request.

## Main definitions

* `Mtproto.RequestData`, `Mtproto.Session` — requests, and the queues of a session.
* `Mtproto.prepareToSend`, `Mtproto.replaceMsgId` — the message id of a request.
* `Mtproto.tryToSend` — what is sent.

## Main results

* `Mtproto.unusedMsgId_of_not_contains` — an id that is not taken is used as it is.
-/

namespace Mtproto

def kIdsBufferSize : ℕ := 400

def kCutContainerOnSize : ℕ := 16 * 1024

def kSentContainerLives : ℕ := 600 * 1000

def kCheckSentRequestTimeout : ℕ := 10 * 1000

def kPingSendAfter : ℕ := 30 * 1000

/-! ### Requests -/

/-- A serialized request: what is read of its buffer, and what is kept with it. Service requests have no
request id, and a request that was not sent has no message id. -/
structure RequestData where
  requestId : ℕ := 0
  msgId : ℕ := 0
  seqNo : ℕ := 0
  size : ℕ := 0
  needAck : Bool := true
  needsLayer : Bool := false
  after : Option ℕ := none
  lastSentTime : ℕ := 0
  forceSendInContainer : Bool := false

structure SentContainer where
  sent : ℕ
  messages : List ℕ

/-- A message as it is written. -/
structure Message where
  msgId : ℕ
  seqNo : ℕ
  requestId : ℕ
  invokeAfter : Option ℕ := none
  withLayer : Bool := false

inductive Packet where
  | single (message : Message)
  | container (header : Message) (messages : List Message)

structure Response where
  reply : List UInt32
  outerMsgId : ℕ
  requestId : ℕ := 0

/-- What happened to requests: what was written, which requests that need an answer were given, cancelled and
erased by `requestsAcked`, which request was last sent under an id, and whether an insertion into `toSend` or
`haveSent` met a key that was taken. The session does not read it. -/
structure Log where
  wire : List Packet := []
  given : List ℕ := []
  cancelled : List ℕ := []
  erased : List ℕ := []
  sentUnder : OrdMap ℕ ℕ := ∅
  dropped : Bool := false

structure Session where
  requests : ℕ → RequestData := fun _ => {}
  /-- References from here on are not in use. -/
  nextRequest : ℕ := 0
  /-- How many message ids were made. -/
  issued : ℕ := 0
  toSend : OrdMap ℕ ℕ := ∅
  haveSent : OrdMap ℕ ℕ := ∅
  resendingIds : OrdMap ℕ ℕ := ∅
  ackedIds : OrdMap ℕ ℕ := ∅
  stateAndResendRequests : OrdMap ℕ ℕ := ∅
  sentContainers : OrdMap ℕ SentContainer := ∅
  ackRequestData : List ℕ := []
  resendRequestData : List ℕ := []
  stateRequestData : OrdMap ℕ Unit := ∅
  pingId : ℕ := 0
  pingIdToSend : ℕ := 0
  pingSendAt : ℕ := 0
  pingMsgId : ℕ := 0
  bindMsgId : ℕ := 0
  bindMessageSent : ℕ := 0
  messagesCounter : ℕ := 0
  sessionMarkedAsStarted : Bool := false
  haveReceived : List Response := []
  log : Log := {}

namespace Session

/-- Change a request. -/
def setRequest (s : Session) (request : ℕ) (change : RequestData → RequestData) : Session :=
  { s with requests := Function.update s.requests request (change (s.requests request)) }

/-- A new request. -/
def makeRequest (s : Session) (data : RequestData) : Session × ℕ :=
  ({ s with requests := Function.update s.requests s.nextRequest data, nextRequest := s.nextRequest + 1 },
    s.nextRequest)

/-- Insert into `toSend`. -/
def emplaceToSend (s : Session) (requestId request : ℕ) : Session :=
  { s with
    toSend := s.toSend.emplace requestId request
    log := { s.log with dropped := s.log.dropped || s.toSend.contains requestId } }

/-- Insert into `haveSent`. -/
def emplaceHaveSent (s : Session) (msgId request : ℕ) : Session :=
  { s with
    haveSent := s.haveSent.emplace msgId request
    log := { s.log with dropped := s.log.dropped || s.haveSent.contains msgId } }

/-- `nextRequestSeqNumber`. -/
def nextRequestSeqNumber (s : Session) (needAck : Bool) : Session × ℕ :=
  ({ s with messagesCounter := s.messagesCounter + (if needAck then 1 else 0) },
    s.messagesCounter * 2 + (if needAck then 1 else 0))

/-- `markSessionAsStarted`. -/
def markSessionAsStarted (s : Session) : Session × Bool :=
  if s.sessionMarkedAsStarted then (s, false) else ({ s with sessionMarkedAsStarted := true }, true)

/-- Give a request its message id and the next sequence number. -/
def setIds (s : Session) (request msgId : ℕ) : Session :=
  let next := s.nextRequestSeqNumber (s.requests request).needAck
  next.1.setRequest request fun data => { data with msgId := msgId, seqNo := next.2 }

end Session

/-- The message ids that `base::unixtime::mtproto_msg_id` makes, one after the other. -/
structure MsgIds where
  id : ℕ → ℕ
  strictMono : StrictMono id
  pos : ∀ n, 0 < id n

section Send

variable (ids : MsgIds)

/-- `mtproto_msg_id`. -/
def mtprotoMsgId (s : Session) : Session × ℕ := ({ s with issued := s.issued + 1 }, ids.id s.issued)

/-- The loop of `replaceMsgId`: ids that are taken are left out. -/
def unusedMsgId : ℕ → Session → ℕ → Session × ℕ
  | 0, s, newId => (s, newId)
  | fuel + 1, s, newId =>
    if s.resendingIds.contains newId || s.ackedIds.contains newId || s.haveSent.contains newId then
      unusedMsgId fuel (mtprotoMsgId ids s).1 (mtprotoMsgId ids s).2
    else (s, newId)

/-- Move an entry to another key. -/
def moveKey (entries : OrdMap ℕ ℕ) (oldId newId : ℕ) : OrdMap ℕ ℕ :=
  match entries.find oldId with
  | none => entries
  | some value => (entries.erase oldId).emplace newId value

/-- Move an entry of `haveSent`. -/
def moveHaveSent (s : Session) (oldId newId : ℕ) : Session :=
  match s.haveSent.find oldId with
  | none => s
  | some request => Session.emplaceHaveSent { s with haveSent := s.haveSent.erase oldId } newId request

/-- The messages of a container after one has another id. -/
def replaceInner (oldId newId : ℕ) (container : SentContainer) : SentContainer :=
  { container with messages := container.messages.map fun innerMsgId =>
    if innerMsgId = oldId then newId else innerMsgId }

/-- Another id for a request, in all places that mention it. -/
def moveMsgId (s : Session) (request oldId newId : ℕ) : Session :=
  let moved : Session := { s with
    resendingIds := moveKey s.resendingIds oldId newId
    ackedIds := moveKey s.ackedIds oldId newId }
  let sent := moveHaveSent moved oldId newId
  let replaced : Session := { sent with
    sentContainers := sent.sentContainers.mapValues fun _ => replaceInner oldId newId }
  replaced.setIds request newId

/-- `replaceMsgId`. -/
def replaceMsgId (s : Session) (request newId : ℕ) : Session × ℕ :=
  let oldId := (s.requests request).msgId
  if oldId = newId then (s, newId)
  else
    let unused := unusedMsgId ids
      (s.resendingIds.entries.length + s.ackedIds.entries.length + s.haveSent.entries.length + 1) s newId
    (moveMsgId unused.1 request oldId unused.2, unused.2)

/-- `prepareToSend`. -/
def prepareToSend (s : Session) (request currentLastId : ℕ) (forceNewMsgId : Bool) : Session × ℕ :=
  let msgId := (s.requests request).msgId
  if msgId ≠ 0 then
    let s := { s with resendingIds := s.resendingIds.erase msgId }
    if forceNewMsgId || msgId > currentLastId then replaceMsgId ids s request currentLastId
    else (s, msgId)
  else (s.setIds request currentLastId, currentLastId)

/-- The id that `WrapInvokeAfter` names: that of a request that was sent and is not answered. -/
def invokeAfterId (s : Session) (request : ℕ) : Option ℕ :=
  match (s.requests request).after with
  | none => none
  | some after =>
    let afterId := (s.requests after).msgId
    if afterId ≠ 0 ∧ s.haveSent.contains afterId = true then some afterId else none

/-- A request that was prepared is remembered: until it is answered, or as acknowledged when it needs no
acknowledgement. -/
def rememberSent (s : Session) (now request msgId : ℕ) : Session :=
  if (s.requests request).requestId = 0 then s
  else
    let s := { s with log := { s.log with
      sentUnder := s.log.sentUnder.insert msgId (s.requests request).requestId } }
    if (s.requests request).needAck then
      (s.setRequest request fun data => { data with lastSentTime := now }).emplaceHaveSent msgId request
    else { s with ackedIds := s.ackedIds.emplace msgId (s.requests request).requestId }

/-- The message of a request as it is written. -/
def messageOf (s : Session) (needsLayer : Bool) (request msgId : ℕ) : Message :=
  let data := s.requests request
  let wrapped := data.requestId ≠ 0 && data.needAck
  { msgId := msgId
    seqNo := data.seqNo
    requestId := data.requestId
    invokeAfter := if wrapped then invokeAfterId s request else none
    withLayer := wrapped && needsLayer && data.needsLayer }

/-! ### `tryToSend` -/

/-- What `tryToSend` finds around it. -/
structure SendContext where
  /-- There is a connection, and the key is known. -/
  ready : Bool := true
  connected : Bool := true
  connectionInited : Bool := true
  keyCreator : Bool := false
  readyToBind : Bool := false
  isMainSession : Bool := true
  usingHttpWait : Bool := false
  now : ℕ := 0
  randomPingId : ℕ := 1

/-- The service requests of a call. -/
structure Service where
  ping : Option ℕ := none
  ack : Option ℕ := none
  resend : Option ℕ := none
  state : Option ℕ := none
  httpWait : Option ℕ := none
  bind : Option ℕ := none

/-- The service requests in the order in which they are looked at. -/
def Service.list (service : Service) : List ℕ :=
  service.ping.toList ++ service.ack.toList ++ service.resend.toList ++ service.state.toList ++
    service.httpWait.toList ++ service.bind.toList

/-- A service request, when there is something to say. -/
def makeService (s : Session) (needed needAck : Bool) (now : ℕ) : Session × Option ℕ :=
  if needed then
    let made := s.makeRequest { needAck := needAck, lastSentTime := now }
    (made.1, some made.2)
  else (s, none)

/-- The request that binds the key is made with its message id in it. -/
def makeBind (s : Session) (needed : Bool) (now : ℕ) : Session × Option ℕ :=
  if needed then
    let next := mtprotoMsgId ids s
    let made := next.1.makeRequest { msgId := next.2, lastSentTime := now }
    let seq := made.1.nextRequestSeqNumber true
    (seq.1.setRequest made.2 fun data => { data with seqNo := seq.2 }, some made.2)
  else (s, none)

/-- The service requests that are made. -/
def makeServices (context : SendContext) (s : Session) : Session × Service :=
  let sendOnlyFirstPing := !context.connected
  let (s, ping) := makeService s (s.pingIdToSend ≠ 0) true context.now
  let s := if ping.isSome then { s with
    pingSendAt := context.now + kPingSendAfter, pingId := s.pingIdToSend, pingIdToSend := 0 } else s
  let (s, ack) := makeService s (!sendOnlyFirstPing && s.ackRequestData ≠ []) false context.now
  let s := if ack.isSome then { s with ackRequestData := [] } else s
  let (s, resend) := makeService s (!sendOnlyFirstPing && s.resendRequestData ≠ []) true context.now
  let s := if resend.isSome then { s with resendRequestData := [] } else s
  let (s, state) := makeService s (!sendOnlyFirstPing && s.stateRequestData.entries ≠ []) true context.now
  let s := if state.isSome then { s with stateRequestData := ∅ } else s
  let (s, httpWait) := makeService s (!sendOnlyFirstPing && context.usingHttpWait) false context.now
  let (s, bind) := makeBind ids s
    (!sendOnlyFirstPing && s.bindMsgId = 0 && context.keyCreator && context.readyToBind) context.now
  (s, { ping := ping, ack := ack, resend := resend, state := state, httpWait := httpWait, bind := bind })

/-- The first requests that fit into one container. -/
def cutRange (size : ℕ → ℕ) : ℕ → List (ℕ × ℕ) → List (ℕ × ℕ)
  | _, [] => []
  | combinedLength, entry :: rest =>
    if combinedLength + size entry.2 ≥ kCutContainerOnSize then [entry]
    else entry :: cutRange size (combinedLength + size entry.2) rest

/-- Take requests out of `toSend`. -/
def eraseRange (toSend : OrdMap ℕ ℕ) (range : List (ℕ × ℕ)) : OrdMap ℕ ℕ :=
  range.foldl (fun toSend entry => toSend.erase entry.1) toSend

/-- A service request that was sent is remembered. -/
def rememberService (s : Session) (service : Service) (now msgId : ℕ) : Session :=
  if service.bind.isSome then { s with bindMsgId := msgId, bindMessageSent := now }
  else if service.ping.isSome then { s with pingMsgId := msgId }
  else match service.state.or service.resend with
    | some request =>
      { s with stateAndResendRequests := s.stateAndResendRequests.emplace msgId request }
    | none => s

/-- Send a single request. -/
def sendSingle (context : SendContext) (s : Session) (service : Service) (range : List (ℕ × ℕ))
    (first : ℕ) (forceNewMsgId : Bool) : Session :=
  let s := { s with toSend := eraseRange s.toSend range }
  let next := mtprotoMsgId ids s
  let prepared := prepareToSend ids next.1 first next.2 (forceNewMsgId && !service.bind.isSome)
  let s := rememberService prepared.1 service context.now prepared.2
  let s := rememberSent s context.now first prepared.2
  { s with log := { s.log with
    wire := s.log.wire ++ [.single (messageOf s (!context.connectionInited) first prepared.2)] } }

/-- A container that is being filled: an id above those of its messages, the ids of the messages that it
answers for, and the messages. -/
structure Filling where
  session : Session
  bigMsgId : ℕ
  sentIds : List ℕ := []
  messages : List Message := []

/-- Prepare a request for the container. -/
def Filling.prepare (filling : Filling) (request : ℕ) (forceNewMsgId : Bool) : Filling × ℕ :=
  let prepared := prepareToSend ids filling.session request filling.bigMsgId forceNewMsgId
  if prepared.2 ≥ filling.bigMsgId then
    let next := mtprotoMsgId ids prepared.1
    ({ filling with session := next.1, bigMsgId := next.2 }, prepared.2)
  else ({ filling with session := prepared.1 }, prepared.2)

/-- `placeToContainer`, and what is done with the id afterwards. -/
def Filling.place (filling : Filling) (request : Option ℕ) (forceNewMsgId : Bool)
    (remember : Session → ℕ → ℕ → Session) (answered : Bool) : Filling :=
  match request with
  | none => filling
  | some request =>
    let prepared := filling.prepare ids request forceNewMsgId
    let s := remember prepared.1.session request prepared.2
    { prepared.1 with
      session := s
      sentIds := if answered then prepared.1.sentIds ++ [prepared.2] else prepared.1.sentIds
      messages := prepared.1.messages ++ [messageOf s false request prepared.2] }

/-- Place a request of the queue. -/
def Filling.placeRequest (context : SendContext) (forceNewMsgId : Bool) (filling : Filling)
    (entry : ℕ × ℕ) : Filling :=
  let request := entry.2
  let prepared := filling.prepare ids request forceNewMsgId
  let s := prepared.1.session
  let data := s.requests request
  { prepared.1 with
    session := rememberSent s context.now request prepared.2
    sentIds := if data.requestId ≠ 0 && data.needAck then prepared.1.sentIds ++ [prepared.2]
      else prepared.1.sentIds
    messages := prepared.1.messages ++ [messageOf s (!context.connectionInited) request prepared.2] }

/-- Send a container. -/
def sendContainer (context : SendContext) (s : Session) (service : Service) (range : List (ℕ × ℕ))
    (forceNewMsgId : Bool) : Session :=
  let next := mtprotoMsgId ids s
  let filling : Filling := { session := next.1, bigMsgId := next.2 }
  let filling := filling.place ids service.bind false
    (fun s _ msgId => { s with bindMsgId := msgId, bindMessageSent := context.now }) true
  let filling := filling.place ids service.ping forceNewMsgId
    (fun s _ msgId => { s with pingMsgId := msgId }) true
  let filling := range.foldl (Filling.placeRequest ids context forceNewMsgId) filling
  let filling := { filling with session := { filling.session with
    toSend := eraseRange filling.session.toSend range } }
  let rememberState := fun (s : Session) request msgId =>
    { s with stateAndResendRequests := s.stateAndResendRequests.emplace msgId request }
  let filling := filling.place ids service.state forceNewMsgId rememberState false
  let filling := filling.place ids service.resend forceNewMsgId rememberState false
  let filling := filling.place ids service.ack forceNewMsgId (fun s _ _ => s) false
  let filling := filling.place ids service.httpWait forceNewMsgId (fun s _ _ => s) false
  let made := filling.session.makeRequest { needAck := false, lastSentTime := context.now }
  let prepared := prepareToSend ids made.1 made.2 filling.bigMsgId forceNewMsgId
  let s := prepared.1
  { s with
    sentContainers := s.sentContainers.emplace prepared.2 ⟨context.now, filling.sentIds⟩
    log := { s.log with
      wire := s.log.wire ++ [.container (messageOf s false made.2 prepared.2) filling.messages] } }

/-- `tryToSend`. -/
def tryToSend (context : SendContext) (s : Session) : Session :=
  let sendOnlyFirstPing := !context.connected
  let sendAll := !sendOnlyFirstPing && !context.keyCreator
  if !context.ready then s
  else if sendOnlyFirstPing && s.pingIdToSend = 0 then s
  else
    let s := if context.isMainSession && !sendOnlyFirstPing && s.pingIdToSend = 0 && s.pingId = 0 &&
        s.pingSendAt ≤ context.now then { s with pingIdToSend := context.randomPingId } else s
    let started := if sendAll then s.markSessionAsStarted else (s, false)
    let made := makeServices ids context started.1
    let s := made.1
    let service := made.2
    let range := if sendAll then cutRange (fun request => (s.requests request).size) 0 s.toSend.entries
      else []
    match service.list ++ range.map Prod.snd with
    | [] => s
    | first :: rest =>
      if rest = [] ∧ (s.requests first).forceSendInContainer = false then
        sendSingle ids context s service range first started.2
      else sendContainer ids context s service range started.2

end Send

/-- An id that is not taken is used as it is. -/
lemma unusedMsgId_of_not_contains (ids : MsgIds) {s : Session} {newId : ℕ}
    (hresending : s.resendingIds.find newId = none) (hacked : s.ackedIds.find newId = none)
    (hsent : s.haveSent.find newId = none) (fuel : ℕ) : unusedMsgId ids fuel s newId = (s, newId) := by
  cases fuel with
  | zero => rfl
  | succ fuel =>
    unfold unusedMsgId
    rw [if_neg]
    simp [OrdMap.contains, hresending, hacked, hsent]

end Mtproto
