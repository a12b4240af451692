import Mathlib.Algebra.GroupWithZero.Nat
import Mathlib.Data.Finset.Basic
import Mathlib.Data.Prod.Lex
import Telegravim.Foundation.OrdMap

set_option autoImplicit false

/-!
# Chat requests: the requests of histories

Requests about a chat are sent at once, except that what loads its history waits while something is being
deleted there: it is cancelled and sent again when the deletions are done. The entry of a chat in the list
of chats is requested for many chats together, and once more when something was sent meanwhile that changes
it. Messages are marked as read up to an id, with at most one id that waits to be sent.

What a request does with its answer is part of the request. Callbacks of others are called after the step.

## Main definitions

* `ChatRequests.Histories` — `Data::Histories`, with what the server was asked for.
* `ChatRequests.sendRequest`, `ChatRequests.cancelRequest`, `ChatRequests.finishSentRequest` — requests.
* `ChatRequests.requestDialogEntry`, `ChatRequests.sendDialogRequests`, `ChatRequests.dialogEntryApplied` —
  entries.
* `ChatRequests.readInboxTill`, `ChatRequests.sendReadRequests` — marks of what was read.
* `ChatRequests.step`, `ChatRequests.Reachable` — the runs.
-/

namespace ChatRequests

abbrev PeerId := ℕ

abbrev MsgId := ℕ

def peerIsChat (peer : PeerId) : Bool := peer / 2 ^ 48 % 256 = 1

def peerIsChannel (peer : PeerId) : Bool := peer / 2 ^ 48 % 256 = 2

def serverMaxMsgId : MsgId := 2 ^ 56

def isServerMsgId (id : MsgId) : Bool := 0 < id && id < serverMaxMsgId

def kReadRequestTimeout : ℤ := 3 * 1000

/-- `RequestType`, but `None`, which is not sent. -/
inductive RequestType where
  | history | readInbox | delete | send
  deriving DecidableEq

/-- What `deleteAllMessages` was called with. -/
structure DeleteAll where
  deleteTillId : MsgId
  justClear : Bool
  revoke : Bool
  deriving DecidableEq

/-- What a request does with its answer: all but one of them finish, and some ask again first. -/
inductive Generator where
  | plain
  | readInbox (tillId : MsgId)
  | deleteChannel
  | deleteChat (args : DeleteAll)
  | deleteHistory (args : DeleteAll)
  | deleteByDates (minDate maxDate : ℤ) (revoke : Bool)
  deriving DecidableEq

structure SentRequest where
  generator : Generator
  id : ℕ
  type : RequestType

structure State where
  postponed : OrdMap ℕ Generator := ∅
  sent : OrdMap ℕ SentRequest := ∅
  willReadTill : MsgId := 0
  sentReadTill : MsgId := 0
  willReadWhen : ℤ := 0
  sentReadDone : Bool := false
  postponedRequestEntry : Bool := false

/-- What is known of a chat itself. -/
structure Chat where
  inboxReadBefore : Option MsgId := none
  unreadCount : Option ℕ := none

/-- What the server was asked for. -/
inductive ApiRequest where
  | chat (history : PeerId) (id : ℕ) (generator : Generator)
  | addChatUser (history : PeerId) (args : DeleteAll)
  | peerDialogs (histories : List PeerId)

/-- `Data::Histories`, the chats, and the requests that the server has not answered. The last three fields
are what happened: the ids that were answered or cancelled, the states that were erased, and whether an
assertion failed. Nothing reads them. -/
structure Histories where
  states : OrdMap PeerId State := ∅
  historyByRequest : OrdMap ℕ PeerId := ∅
  requestAutoincrement : ℕ := 0
  dialogRequests : OrdMap PeerId (List ℕ) := ∅
  dialogRequestsPending : OrdMap PeerId (List ℕ) := ∅
  creatingTopics : OrdMap (PeerId ×ₗ MsgId) (List ℕ) := ∅
  creatingTopicRequests : Finset ℕ := ∅
  chats : OrdMap PeerId Chat := ∅
  requests : OrdMap ℕ ApiRequest := ∅
  lastRequestId : ℕ := 0
  called : List ℕ := []
  ended : Finset ℕ := ∅
  erased : List State := []
  failed : Bool := false

/-- What a step finds outside: the time, what may be marked as read, and what else is known of the chat. -/
structure World where
  now : ℤ
  allowed : PeerId → MsgId → Bool
  trackUnreadMessages : Bool
  countStillUnreadLocal : Option ℕ
  lastServerMessage : Option MsgId
  isCommunity : Bool
  amCreator : Bool

/-! ### States -/

/-- The state of a history. One that is not there is empty. -/
def state (h : Histories) (history : PeerId) : State := (h.states.find history).getD {}

def setState (h : Histories) (history : PeerId) (state : State) : Histories :=
  { h with states := h.states.insert history state }

/-- What `checkEmptyState` looks at. -/
def State.empty (state : State) : Bool :=
  state.postponed.entries.isEmpty && !state.postponedRequestEntry && state.sent.entries.isEmpty &&
    state.willReadTill = 0 && state.sentReadTill = 0

def checkEmptyState (h : Histories) (history : PeerId) : Histories :=
  match h.states.find history with
  | none => h
  | some state =>
    if state.empty then { h with states := h.states.erase history, erased := h.erased ++ [state] } else h

def postponeHistoryRequest (state : State) : Bool := state.sent.entries.any fun entry => entry.2.type = .delete

def postponeEntryRequest (state : State) : Bool := state.sent.entries.any fun entry => entry.2.type ≠ .history

def chat (h : Histories) (history : PeerId) : Chat := (h.chats.find history).getD {}

def setInboxReadTill (h : Histories) (history : PeerId) (upTo : MsgId) : Histories :=
  let before := match (chat h history).inboxReadBefore with
    | none => upTo + 1
    | some before => max before (upTo + 1)
  { h with chats := h.chats.insert history { chat h history with inboxReadBefore := some before } }

def setUnreadCount (h : Histories) (history : PeerId) (count : Option ℕ) : Histories :=
  { h with chats := h.chats.insert history { chat h history with unreadCount := count } }

def readInboxTillNeedsRequest (h : Histories) (history : PeerId) (tillId : MsgId) : Bool :=
  isServerMsgId tillId && (chat h history).inboxReadBefore.getD 1 ≤ tillId

def unreadCountRefreshNeeded (h : Histories) (history : PeerId) (readTillId : MsgId) : Bool :=
  (chat h history).unreadCount.isNone || readTillId + 1 > (chat h history).inboxReadBefore.getD 0

/-! ### Requests -/

/-- The server is asked. -/
def request (h : Histories) (asked : ApiRequest) : Histories :=
  { h with
    requests := h.requests.insert (h.lastRequestId + 1) asked
    lastRequestId := h.lastRequestId + 1 }

/-- The answer of the server will not be heard. -/
def cancel (h : Histories) (requestId : ℕ) : Histories := { h with requests := h.requests.erase requestId }

/-- `resendHistoryRequest`: a request for the history is cancelled, and waits. -/
def resendHistoryRequest (history : PeerId) (h : Histories) (id : ℕ) : Histories :=
  let current := state h history
  match current.sent.find id with
  | none => h
  | some sent =>
    if sent.type ≠ .history then h
    else
      cancel (setState h history { current with
        postponed := current.postponed.emplace id sent.generator
        sent := current.sent.erase id }) sent.id

/-- A request is made, and is one of those that were sent. -/
def emplaceSent (h : Histories) (history : PeerId) (id : ℕ) (type : RequestType) (generator : Generator) :
    Histories :=
  let current := state h history
  request (setState h history { current with
    sent := current.sent.emplace id ⟨generator, h.lastRequestId + 1, type⟩ }) (.chat history id generator)

/-- The entry of a chat is to be requested once more, when it was requested already. -/
def postponeEntry (h : Histories) (history : PeerId) : Histories :=
  let current := state h history
  if !current.postponedRequestEntry && postponeEntryRequest current && h.dialogRequests.contains history then
    setState h history { current with postponedRequestEntry := true }
  else h

/-- The id of a new request. -/
def register (h : Histories) (history : PeerId) : Histories :=
  { setState h history (state h history) with
    requestAutoincrement := h.requestAutoincrement + 1
    historyByRequest := h.historyByRequest.emplace (h.requestAutoincrement + 1) history }

/-- What is sent. It may be a reason for others to wait. -/
def sendNow (h : Histories) (history : PeerId) (id : ℕ) (type : RequestType) (generator : Generator) :
    Histories :=
  let sent := postponeEntry (emplaceSent h history id type generator) history
  if postponeHistoryRequest (state sent history) then
    (state sent history).sent.keys.foldl (resendHistoryRequest history) sent
  else sent

/-- A request for the history waits. -/
def emplacePostponed (h : Histories) (history : PeerId) (id : ℕ) (generator : Generator) : Histories :=
  let current := state h history
  setState h history { current with postponed := current.postponed.emplace id generator }

/-- `sendRequest`. The id of the request is the new value of the counter. -/
def sendRequest (h : Histories) (history : PeerId) (type : RequestType) (generator : Generator) : Histories :=
  let registered := register h history
  let id := registered.requestAutoincrement
  if type = .history ∧ postponeHistoryRequest (state registered history) = true then
    emplacePostponed registered history id generator
  else sendNow registered history id type generator

/-- What waited is sent. -/
def sendPostponed (history : PeerId) (h : Histories) (id : ℕ) : Histories :=
  let current := state h history
  match current.postponed.find id with
  | none => h
  | some generator =>
    emplaceSent (setState h history { current with postponed := current.postponed.erase id }) history id .history
      generator

/-- The entry of a chat is requested once more. -/
def requestEntryAgain (h : Histories) (history : PeerId) : Histories :=
  match h.dialogRequests.find history with
  | none => { h with failed := true }
  | some callbacks =>
    if h.dialogRequestsPending.contains history then { h with failed := true }
    else
      setState { h with
        dialogRequestsPending := h.dialogRequestsPending.insert history callbacks
        dialogRequests := h.dialogRequests.erase history } history
        { state h history with postponedRequestEntry := false }

/-- A request is not one of those that were sent any more. -/
def takeSent (h : Histories) (history : PeerId) (id : ℕ) : Histories :=
  let current := state h history
  match current.sent.find id with
  | none => h
  | some sent => setState (cancel h sent.id) history { current with sent := current.sent.erase id }

/-- What waited for deletions is sent when there are none. -/
def restartPostponed (h : Histories) (history : PeerId) : Histories :=
  let current := state h history
  if !current.postponed.entries.isEmpty && !postponeHistoryRequest current then
    current.postponed.keys.foldl (sendPostponed history) h
  else h

/-- An entry that was to be requested once more is requested. -/
def restartEntry (h : Histories) (history : PeerId) : Histories :=
  let current := state h history
  if current.postponedRequestEntry && !postponeEntryRequest current then requestEntryAgain h history else h

def finishSentRequest (h : Histories) (history : PeerId) (id : ℕ) : Histories :=
  let taken := takeSent { h with historyByRequest := h.historyByRequest.erase id } history id
  checkEmptyState (restartEntry (restartPostponed taken history) history) history

def checkPostponed (h : Histories) (history : PeerId) (id : ℕ) : Histories :=
  if h.states.contains history then finishSentRequest h history id else h

/-- `cancelDelayedByTopicRequest`. -/
def cancelDelayedByTopicRequest (h : Histories) (id : ℕ) : Histories :=
  { h with
    creatingTopics := h.creatingTopics.mapValues fun _ messages => messages.filter (· ≠ id)
    creatingTopicRequests := h.creatingTopicRequests.erase id }

/-- A request ends: it is answered, or cancelled. -/
def noteEnd (h : Histories) (id : ℕ) : Histories := { h with ended := insert id h.ended }

def cancelRequest (h : Histories) (id : ℕ) : Histories :=
  if id = 0 then h
  else if id ∈ h.creatingTopicRequests then noteEnd (cancelDelayedByTopicRequest h id) id
  else
    match h.historyByRequest.find id with
    | none => h
    | some history =>
      let taken : Histories := { h with historyByRequest := h.historyByRequest.erase id }
      if taken.states.contains history then
        let current := state taken history
        noteEnd (finishSentRequest (setState taken history { current with
          postponed := current.postponed.erase id }) history id) id
      else noteEnd taken id

/-! ### Messages to topics that are being created -/

/-- `sendPreparedMessage`. A message to a topic that is being created waits for it. -/
def sendPreparedMessage (h : Histories) (history : PeerId) (topicRootId : MsgId) (isCreatingTopic : Bool) :
    Histories :=
  if isCreatingTopic then
    let id := h.requestAutoincrement + 1
    let messages := (h.creatingTopics.find (toLex (history, topicRootId))).getD []
    { h with
      requestAutoincrement := id
      creatingTopics := h.creatingTopics.insert (toLex (history, topicRootId)) (messages ++ [id])
      creatingTopicRequests := insert id h.creatingTopicRequests }
  else sendRequest h history .send .plain

def checkTopicCreated (h : Histories) (history : PeerId) (rootId realRoot : MsgId) (isCreatingTopic : Bool) :
    Histories :=
  match h.creatingTopics.find (toLex (history, rootId)) with
  | none => h
  | some scheduled =>
    scheduled.foldl
      (fun h id => sendPreparedMessage { h with creatingTopicRequests := h.creatingTopicRequests.erase id }
        history realRoot isCreatingTopic)
      { h with creatingTopics := h.creatingTopics.erase (toLex (history, rootId)) }

/-! ### Entries -/

/-- `requestDialogEntry`, with the callback that there may be. -/
def requestDialogEntry (h : Histories) (history : PeerId) (callback : Option ℕ) (isCommunity : Bool) :
    Histories :=
  if peerIsChannel history && isCommunity then h
  else
    match h.dialogRequests.find history with
    | some callbacks =>
      { h with dialogRequests := h.dialogRequests.insert history (callbacks ++ callback.toList) }
    | none =>
      let callbacks := (h.dialogRequestsPending.find history).getD []
      { h with dialogRequestsPending := h.dialogRequestsPending.insert history (callbacks ++ callback.toList) }

/-- Whether an entry is requested now. -/
def entryReady (h : Histories) (history : PeerId) : Bool :=
  match h.states.find history with
  | none => true
  | some state => !postponeEntryRequest state

/-- What is not requested now is requested later. -/
def markEntry (h : Histories) (history : PeerId) : Histories :=
  if entryReady h history then h
  else setState h history { state h history with postponedRequestEntry := true }

/-- A chat that waits for its entry is one that is requested. -/
def emplaceDialogRequest (h : Histories) (entry : PeerId × List ℕ) : Histories :=
  { h with dialogRequests := h.dialogRequests.emplace entry.1 entry.2 }

def sendDialogRequests (h : Histories) : Histories :=
  if h.dialogRequestsPending.entries.isEmpty then h
  else
    let histories := h.dialogRequestsPending.keys.filter (entryReady h)
    let marked := h.dialogRequestsPending.keys.foldl markEntry h
    let moved := h.dialogRequestsPending.entries.foldl emplaceDialogRequest
      { marked with dialogRequestsPending := ∅ }
    request moved (.peerDialogs histories)

def dialogEntryApplied (h : Histories) (history : PeerId) : Histories :=
  if (state h history).postponedRequestEntry then h
  else
    let current := state h history
    let called : Histories := { h with
      called := h.called ++ (h.dialogRequestsPending.find history).getD [] ++
        (h.dialogRequests.find history).getD []
      dialogRequestsPending := h.dialogRequestsPending.erase history
      dialogRequests := h.dialogRequests.erase history }
    if current.sentReadTill ≠ 0 ∧ current.sentReadDone = true then
      checkEmptyState (setState (setInboxReadTill called history current.sentReadTill) history
        { current with sentReadTill := 0 }) history
    else called

/-- What the server says of a chat. -/
structure Dialog where
  history : PeerId
  maxInboxRead : MsgId
  unreadCount : ℕ
  skipUnreadUpdate : Bool

/-- `applyDialog` of a history: `applyDialogFields`, and `dialogEntryApplied`. -/
def applyDialog (h : Histories) (dialog : Dialog) : Histories :=
  let applied :=
    if !dialog.skipUnreadUpdate &&
        dialog.maxInboxRead + 1 ≥ (chat h dialog.history).inboxReadBefore.getD 1 then
      setInboxReadTill (setUnreadCount h dialog.history (some dialog.unreadCount)) dialog.history
        dialog.maxInboxRead
    else h
  dialogEntryApplied applied dialog.history

/-- `finalize` of `sendDialogRequests`. -/
def finalize (h : Histories) (histories : List PeerId) : Histories :=
  histories.foldl dialogEntryApplied h

/-! ### What was read -/

def sendReadRequest (h : Histories) (history : PeerId) : Histories :=
  let current := state h history
  if current.sentReadTill < current.willReadTill then
    sendRequest (setState h history { current with
      sentReadTill := current.willReadTill
      willReadTill := 0
      willReadWhen := 0
      sentReadDone := false }) history .readInbox (.readInbox current.willReadTill)
  else { h with failed := true }

/-- The loop of `sendReadRequests`. -/
def sendReadRequestOf (world : World) (h : Histories) (history : PeerId) : Histories :=
  let current := state h history
  if !world.allowed history current.willReadTill then
    setState h history { current with willReadTill := 0, willReadWhen := 0 }
  else if current.willReadTill ≠ 0 ∧ current.willReadWhen ≤ world.now then sendReadRequest h history
  else h

/-- `sendReadRequests`. Its timer may call it at any time. -/
def sendReadRequests (h : Histories) (world : World) : Histories :=
  h.states.keys.foldl (sendReadRequestOf world) h

def sendPendingReadInbox (h : Histories) (history : PeerId) (world : World) : Histories :=
  match h.states.find history with
  | none => h
  | some current =>
    if current.willReadTill ≠ 0 ∧ current.willReadWhen ≠ 0 then
      sendReadRequests (setState h history { current with willReadWhen := 0 }) world
    else h

/-- The last part of `readInboxTill`: the id is one to read till. -/
def willReadTill (h : Histories) (history : PeerId) (tillId : MsgId) (force : Bool) (world : World) :
    Histories :=
  let current := { state h history with willReadTill := tillId }
  let marked := fun (h : Histories) => match world.countStillUnreadLocal with
    | none => h
    | some stillUnread => setUnreadCount (setInboxReadTill h history tillId) history (some stillUnread)
  if force || world.countStillUnreadLocal.getD 0 = 0 then
    marked (sendReadRequests (setState h history { current with willReadWhen := 0 }) world)
  else if current.willReadWhen = 0 then
    marked (setState h history { current with willReadWhen := world.now + kReadRequestTimeout })
  else marked (setState h history current)

/-- `readInboxTill`, but what it does at last. -/
def readInboxTillRequest (h : Histories) (history : PeerId) (tillId : MsgId) (force : Bool) (world : World) :
    Histories :=
  let needsRequest := readInboxTillNeedsRequest h history tillId
  if !needsRequest && !force then h
  else if !world.trackUnreadMessages then h
  else if h.states.contains history && (state h history).sentReadTill ≥ tillId then h
  else if h.states.contains history && (state h history).willReadTill ≥ tillId then
    if force then sendPendingReadInbox h history world else h
  else if !needsRequest && (state h history).willReadTill = 0 then h
  else if !force && world.countStillUnreadLocal.isSome &&
      world.countStillUnreadLocal = (chat h history).unreadCount then setInboxReadTill h history tillId
  else willReadTill h history tillId force world

def readInboxTill (h : Histories) (history : PeerId) (tillId : MsgId) (force : Bool) (world : World) :
    Histories :=
  if !world.allowed history tillId then h
  else
    let read := readInboxTillRequest h history tillId force world
    if (chat read history).unreadCount.getD 0 > 0 ∧ world.lastServerMessage = some tillId then
      setUnreadCount read history (some 0)
    else read

/-- The answer to a request of `sendReadRequest`, before it finishes. -/
def readFinished (h : Histories) (history : PeerId) (tillId : MsgId) (world : World) : Histories :=
  match h.states.find history with
  | none => { h with failed := true }
  | some current =>
    let answered :=
      if current.sentReadTill = tillId then
        let done := setState h history { current with sentReadDone := true }
        if unreadCountRefreshNeeded h history tillId then
          requestDialogEntry done history none world.isCommunity
        else setState done history { current with sentReadDone := true, sentReadTill := 0 }
      else if current.sentReadTill = 0 ∨ tillId < current.sentReadTill then h
      else { h with failed := true }
    sendReadRequests answered world

/-! ### Deletions -/

def deleteMessages (h : Histories) (history : PeerId) : Histories := sendRequest h history .delete .plain

def deleteAllMessages (h : Histories) (history : PeerId) (args : DeleteAll) (amCreator : Bool) : Histories :=
  sendRequest h history .delete
    (if !args.justClear && args.revoke && peerIsChannel history && amCreator then .deleteChannel
    else if peerIsChannel history then .plain
    else if !args.justClear && args.revoke && peerIsChat history && amCreator then .deleteChat args
    else .deleteHistory args)

def deleteMessagesByDates (h : Histories) (history : PeerId) (minDate maxDate : ℤ) (revoke : Bool) :
    Histories :=
  sendRequest h history .delete (.deleteByDates minDate maxDate revoke)

/-! ### Answers -/

/-- What the server answers: for messages that are deleted, where to go on, and for entries, what is known of
the chats. -/
inductive Answer where
  | done (offset : ℤ) (dialogs : List Dialog)
  | fail (error : String)

/-- What a request does with its answer before it finishes. -/
def answered (h : Histories) (history : PeerId) (generator : Generator) (answer : Answer) (world : World) :
    Histories :=
  match generator, answer with
  | .readInbox tillId, _ => readFinished h history tillId world
  | .deleteChat args, .fail error =>
    if error = "PEER_ID_INVALID" then request h (.addChatUser history args) else h
  | .deleteHistory args, .done offset _ =>
    if offset > 0 then deleteAllMessages h history args world.amCreator else h
  | .deleteByDates minDate maxDate revoke, .done offset _ =>
    if offset > 0 then deleteMessagesByDates h history minDate maxDate revoke else h
  | _, _ => h

/-- The server answers a request. -/
def answer (h : Histories) (requestId : ℕ) (answer : Answer) (world : World) : Histories :=
  match h.requests.find requestId with
  | none => h
  | some asked =>
    let heard := cancel h requestId
    match asked with
    | .chat history id generator =>
      -- the request that deletes a channel does not finish
      if generator = .deleteChannel then noteEnd heard id
      else noteEnd (checkPostponed (answered heard history generator answer world) history id) id
    | .addChatUser history args =>
      match answer with
      | .done _ _ => deleteAllMessages heard history args world.amCreator
      | .fail _ => heard
    | .peerDialogs histories =>
      match answer with
      | .done _ dialogs => finalize (dialogs.foldl applyDialog heard) histories
      | .fail _ => finalize heard histories

/-! ### Runs -/

inductive Step where
  | sendRequest (history : PeerId) (type : RequestType)
  | sendPreparedMessage (history : PeerId) (topicRootId : MsgId) (isCreatingTopic : Bool)
  | checkTopicCreated (history : PeerId) (rootId realRoot : MsgId) (isCreatingTopic : Bool)
  | cancelRequest (id : ℕ)
  | deleteMessages (history : PeerId)
  | deleteAllMessages (history : PeerId) (args : DeleteAll) (amCreator : Bool)
  | deleteMessagesByDates (history : PeerId) (minDate maxDate : ℤ) (revoke : Bool)
  | readInboxTill (history : PeerId) (tillId : MsgId) (force : Bool) (world : World)
  | sendReadRequests (world : World)
  | sendPendingReadInbox (history : PeerId) (world : World)
  | requestDialogEntry (history : PeerId) (callback : Option ℕ) (isCommunity : Bool)
  | sendDialogRequests
  | applyDialog (dialog : Dialog)
  | dialogEntryApplied (history : PeerId)
  | answer (requestId : ℕ) (answer : Answer) (world : World)
  /-- The chat learns what was read elsewhere, and how much is unread. -/
  | inboxRead (history : PeerId) (upTo : MsgId) (unreadCount : Option ℕ)

def step (h : Histories) : Step → Histories
  | .sendRequest history type => sendRequest h history type .plain
  | .sendPreparedMessage history topicRootId isCreatingTopic =>
    sendPreparedMessage h history topicRootId isCreatingTopic
  | .checkTopicCreated history rootId realRoot isCreatingTopic =>
    checkTopicCreated h history rootId realRoot isCreatingTopic
  | .cancelRequest id => cancelRequest h id
  | .deleteMessages history => deleteMessages h history
  | .deleteAllMessages history args amCreator => deleteAllMessages h history args amCreator
  | .deleteMessagesByDates history minDate maxDate revoke => deleteMessagesByDates h history minDate maxDate revoke
  | .readInboxTill history tillId force world => readInboxTill h history tillId force world
  | .sendReadRequests world => sendReadRequests h world
  | .sendPendingReadInbox history world => sendPendingReadInbox h history world
  | .requestDialogEntry history callback isCommunity => requestDialogEntry h history callback isCommunity
  | .sendDialogRequests => sendDialogRequests h
  | .applyDialog dialog => applyDialog h dialog
  | .dialogEntryApplied history => dialogEntryApplied h history
  | .answer requestId result world => answer h requestId result world
  | .inboxRead history upTo unreadCount => setInboxReadTill (setUnreadCount h history unreadCount) history upTo

/-- The states of the runs whose steps are all of a kind. -/
inductive Reachable (allowed : Step → Prop) : Histories → Prop
  | start : Reachable allowed {}
  | step {h : Histories} (next : Step) : Reachable allowed h → allowed next → Reachable allowed (step h next)

end ChatRequests
