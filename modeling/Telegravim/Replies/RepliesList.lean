import Mathlib.Data.Int.Basic
import Telegravim.Foundation.OrdMap

set_option autoImplicit false

/-!
# The list of replies of a thread

A `RepliesList` keeps one block of the messages of a thread, newest first, with what is known of the number
of messages on both sides of the block. Viewers ask for slices around a message: what is missing is asked
from the server, by a request for the place (`loadAround`) or by one for each end of the block (`loadBefore`,
`loadAfter`). The first and the second kind share the field `beforeId`; `loadingAround` remembers the place.

An answer is merged into the block by `processMessagesIsEmpty`. A cancelled request is not answered. An
assertion of the source that fails is `none`.

## Main definitions

* `Replies.RepliesList` — the list, with its requests that are on their way.
* `Replies.loadAround`, `Replies.loadBefore`, `Replies.loadAfter` — the requests.
* `Replies.processMessagesIsEmpty` — an answer is merged.
* `Replies.buildFromData` — the slice of a viewer.
* `Replies.applyUpdate` — a message is added or destroyed.
-/

namespace Replies

/-- The id of a message. -/
abbrev MsgId := ℤ

/-- The number of messages of a page. -/
def kMessagesPerPage : ℤ := 50

/-- The id of the general topic of a forum, `Data::ForumTopic::kGeneralId`. -/
def kGeneralId : MsgId := 1

/-- The place of a viewer that starts at what was not read. -/
def ShowAtUnreadMsgId : MsgId := 0

/-! ### The list -/

/-- A `messages.getReplies` request: what its answer is for. -/
inductive Request
  /-- Made by `loadAround`, for a place. -/
  | around (id : MsgId)
  /-- Made by `loadBefore`, for what is older than the last message. -/
  | before (last : MsgId)
  /-- Made by `loadAfter`, for what is newer than the first message. -/
  | after (first : MsgId)
  deriving DecidableEq, Repr

/-- The arguments `offset_id`, `add_offset` and `limit` of a request. -/
def Request.arguments : Request → MsgId × ℤ × ℤ
  | .around id => (id, if id ≠ 0 then -(kMessagesPerPage / 2) else 0, kMessagesPerPage)
  | .before last => (last, 0, kMessagesPerPage)
  | .after first => (first + 1, -kMessagesPerPage, kMessagesPerPage)

/-- An answer that was merged: for which request, into which list, and which request of `loadAround` was
the last one made. Nothing of the source reads it. -/
structure Merge where
  /-- The id of the request. -/
  id : ℕ
  /-- The request. -/
  request : Request
  /-- The list the messages are merged into. -/
  list : List MsgId
  /-- The id of the last request of `loadAround`. -/
  lastAround : ℕ
  deriving DecidableEq, Repr

/-- `RepliesList`, with its requests that `Histories` has on their way. -/
structure RepliesList where
  /-- The topic is not on the server yet. -/
  creating : Bool
  /-- The first message of the thread. -/
  rootId : MsgId
  /-- The block, newest first. -/
  list : List MsgId := []
  /-- How many messages are older than the block, if known. -/
  skippedBefore : Option ℤ := none
  /-- How many messages are newer than the block, if known. -/
  skippedAfter : Option ℤ := none
  /-- How many messages the thread has, if known. -/
  fullCount : Option ℤ := none
  /-- The place that is being loaded. -/
  loadingAround : Option MsgId := none
  /-- The request for a place or for what is older. -/
  beforeId : ℕ := 0
  /-- The request for what is newer. -/
  afterId : ℕ := 0
  /-- The requests on their way. -/
  requests : OrdMap ℕ Request := OrdMap.empty
  /-- The id of the last request of `Histories`. -/
  requestAutoincrement : ℕ := 0
  /-- The id of the last request of `loadAround`; nothing of the source reads it. -/
  lastAround : ℕ := 0
  /-- `loadBefore` cancelled the last request of `loadAround`; nothing of the source reads it. -/
  dropped : Bool := false
  /-- The answers that were merged; nothing of the source reads it. -/
  merges : List Merge := []

/-- `Histories::sendRequest`: a request is on its way under a new id. -/
def sendRequest (h : RepliesList) (request : Request) : RepliesList :=
  { h with
    requestAutoincrement := h.requestAutoincrement + 1
    requests := h.requests.insert (h.requestAutoincrement + 1) request }

/-- `Histories::cancelRequest`. -/
def cancelRequest (h : RepliesList) (id : ℕ) : RepliesList :=
  if id = 0 then h else { h with requests := h.requests.erase id }

/-- `histories().cancelRequest(base::take(_beforeId))`. -/
def cancelBefore (h : RepliesList) : RepliesList :=
  { cancelRequest h h.beforeId with beforeId := 0 }

/-- `histories().cancelRequest(base::take(_afterId))`. -/
def cancelAfter (h : RepliesList) : RepliesList :=
  { cancelRequest h h.afterId with afterId := 0 }

/-! ### Requests -/

/-- A request of `loadAround` is sent. -/
def sendAround (h : RepliesList) (id : MsgId) : RepliesList :=
  { sendRequest h (.around id) with
    loadingAround := some id
    beforeId := h.requestAutoincrement + 1
    lastAround := h.requestAutoincrement + 1
    dropped := false }

/-- A place is asked for, unless it is being loaded. -/
def loadAround (h : RepliesList) (id : MsgId) : Option RepliesList :=
  if h.creating then none
  else if h.loadingAround = some id then some h
  else some (sendAround (cancelAfter (cancelBefore h)) id)

/-- A request of `loadBefore` is sent. -/
def sendBefore (h : RepliesList) (last : MsgId) : RepliesList :=
  { sendRequest h (.before last) with beforeId := h.requestAutoincrement + 1 }

/-- What is older than the block is asked for. -/
def loadBefore (h : RepliesList) : Option RepliesList :=
  match h.list.getLast? with
  | none => none
  | some last =>
    if h.loadingAround.isSome then some (sendBefore { cancelBefore h with dropped := true } last)
    else if h.beforeId ≠ 0 then some h
    else some (sendBefore h last)

/-- A request of `loadAfter` is sent. -/
def sendAfter (h : RepliesList) (first : MsgId) : RepliesList :=
  { sendRequest h (.after first) with afterId := h.requestAutoincrement + 1 }

/-- What is newer than the block is asked for. -/
def loadAfter (h : RepliesList) : Option RepliesList :=
  match h.list.head? with
  | none => none
  | some first => if h.afterId ≠ 0 then some h else some (sendAfter h first)

/-! ### Answers -/

/-- A message of an answer: its id, whether an item is made of it and whether that is in the thread. -/
structure Message where
  /-- The id. -/
  id : MsgId
  /-- `owner.addNewMessage` gives an item. -/
  created : Bool
  /-- The item is in the thread. -/
  inThread : Bool
  deriving DecidableEq, Repr

/-- `MTPmessages_Messages`. -/
inductive Answer
  /-- `messages.messagesNotModified`. -/
  | messagesNotModified
  /-- `messages.messages`. -/
  | messages (vmessages : List Message)
  /-- `messages.messagesSlice`. -/
  | messagesSlice (vmessages : List Message) (vcount : ℤ)
  /-- `messages.channelMessages`. -/
  | channelMessages (vmessages : List Message) (vcount : ℤ)
  deriving DecidableEq, Repr

/-- The messages of an answer. -/
def Answer.list : Answer → List Message
  | .messagesNotModified => []
  | .messages vmessages => vmessages
  | .messagesSlice vmessages _ => vmessages
  | .channelMessages vmessages _ => vmessages

/-- The number of messages of the thread, as an answer has it. -/
def Answer.fullCount : Answer → ℤ
  | .messagesNotModified => 0
  | .messages vmessages => vmessages.length
  | .messagesSlice _ vcount => vcount
  | .channelMessages _ vcount => vcount

/-- What the loop of `processMessagesIsEmpty` keeps. -/
structure Adding where
  /-- The list. -/
  list : List MsgId
  /-- Newer messages, to stand before the list. -/
  refreshed : List MsgId := []
  /-- How many messages are not in the thread. -/
  skipped : ℕ := 0

/-- One message of an answer. -/
def addMessage (toFront : Bool) (a : Adding) (message : Message) : Adding :=
  if message.created && message.inThread then
    if toFront && a.list.head?.any (· < message.id) then
      { a with refreshed := a.refreshed ++ [message.id] }
    else if a.list.getLast?.all (message.id < ·) then
      { a with list := a.list ++ [message.id] }
    else a
  else { a with skipped := a.skipped + 1 }

/-- The counts of what is skipped, from the side the list grew on and the other one. -/
def countSkipped (decrementFrom correct : Option ℤ) (grown checkedCount nowSize : ℤ) :
    Option (Option ℤ × Option ℤ) :=
  match decrementFrom.map fun d => max (d - grown) 0, correct with
  | some d, some _ =>
    let correct := max (checkedCount - d - nowSize) 0
    let d := checkedCount - correct - nowSize
    if 0 ≤ d then some (some d, some correct) else none
  | some d, none =>
    let d := min d (checkedCount - nowSize)
    some (some d, some (checkedCount - d - nowSize))
  | none, some c =>
    let c := min c (checkedCount - nowSize)
    some (some (checkedCount - c - nowSize), some c)
  | none, none => some (none, none)

/-- An answer is merged into the list. The result says whether it has no message of the thread. -/
def processMessagesIsEmpty (h : RepliesList) (result : Answer) : Option (Bool × RepliesList) :=
  match result.list with
  | [] => some (true, h)
  | message :: _ =>
    let maxId := message.id
    let wasSize : ℤ := h.list.length
    let toFront := h.list.head?.any (· < maxId)
    let added := result.list.foldl (addMessage toFront) { list := h.list }
    let list := if toFront then added.refreshed ++ added.list else added.list
    let nowSize : ℤ := list.length
    let checkedCount := max (result.fullCount - added.skipped) nowSize
    let isEmpty := decide (result.list.length = added.skipped)
    if toFront then
      match countSkipped h.skippedAfter h.skippedBefore (nowSize - wasSize) checkedCount nowSize with
      | none => none
      | some (skippedAfter, skippedBefore) =>
        some (isEmpty, { h with
          list := list
          skippedAfter := skippedAfter
          skippedBefore := skippedBefore
          fullCount := some checkedCount })
    else
      match countSkipped h.skippedBefore h.skippedAfter (nowSize - wasSize) checkedCount nowSize with
      | none => none
      | some (skippedBefore, skippedAfter) =>
        some (isEmpty, { h with
          list := list
          skippedBefore := skippedBefore
          skippedAfter := skippedAfter
          fullCount := some checkedCount })

/-- An answer of the request `id` is about to be merged. -/
def recordMerge (h : RepliesList) (id : ℕ) (request : Request) : RepliesList :=
  { h with
    merges := h.merges ++ [{ id := id, request := request, list := h.list, lastAround := h.lastAround }] }

/-- The answer of a request of `loadAround` that is not empty says which ends were reached. -/
def checkAround (h : RepliesList) (id : MsgId) : Option RepliesList :=
  if id = 0 then some h
  else
    match h.list.head?, h.list.getLast? with
    | some front, some back =>
      some (if front ≤ id then { h with skippedAfter := some 0 }
        else if id ≤ back then { h with skippedBefore := some 0 }
        else h)
    | _, _ => none

/-- The request of `loadAround` is answered: the list starts anew. -/
def aroundDone (h : RepliesList) (requestId : ℕ) (id : MsgId) (result : Answer) : Option RepliesList :=
  let h := { h with
    beforeId := 0
    loadingAround := none
    skippedAfter := if id = 0 then some 0 else none
    skippedBefore := none
    list := [] }
  match processMessagesIsEmpty (recordMerge h requestId (.around id)) result with
  | none => none
  | some (true, h) => some { h with fullCount := some 0, skippedBefore := some 0, skippedAfter := some 0 }
  | some (false, h) => checkAround h id

/-- The request of `loadBefore` is answered: it is made again when the last message is another one. -/
def beforeDone (h : RepliesList) (requestId : ℕ) (last : MsgId) (result : Answer) : Option RepliesList :=
  let h := { h with beforeId := 0 }
  match h.list.getLast? with
  | none => some h
  | some back =>
    if back ≠ last then loadBefore h
    else
      match processMessagesIsEmpty (recordMerge h requestId (.before last)) result with
      | none => none
      | some (true, h) =>
        let h := { h with skippedBefore := some 0 }
        some (if h.skippedAfter = some 0 then { h with fullCount := some h.list.length } else h)
      | some (false, h) => some h

/-- The request of `loadAfter` is answered: it is made again when the first message is another one. -/
def afterDone (h : RepliesList) (requestId : ℕ) (first : MsgId) (result : Answer) : Option RepliesList :=
  let h := { h with afterId := 0 }
  match h.list.head? with
  | none => some h
  | some front =>
    if front ≠ first then loadAfter h
    else
      match processMessagesIsEmpty (recordMerge h requestId (.after first)) result with
      | none => none
      | some (true, h) =>
        let h := { h with skippedAfter := some 0 }
        some (if h.skippedBefore = some 0 then { h with fullCount := some h.list.length } else h)
      | some (false, h) => some h

/-- A request on its way is answered. The answer of a request that was cancelled is not heard. -/
def requestDone (h : RepliesList) (requestId : ℕ) (result : Answer) : Option RepliesList :=
  let finished := { h with requests := h.requests.erase requestId }
  match h.requests.find requestId with
  | none => some h
  | some (.around id) => aroundDone finished requestId id result
  | some (.before last) => beforeDone finished requestId last result
  | some (.after first) => afterDone finished requestId first result

/-- A request on its way fails. -/
def requestFail (h : RepliesList) (requestId : ℕ) : RepliesList :=
  let finished := { h with requests := h.requests.erase requestId }
  match h.requests.find requestId with
  | none => h
  | some (.around _) => { finished with beforeId := 0, loadingAround := none }
  | some (.before _) => { finished with beforeId := 0 }
  | some (.after _) => { finished with afterId := 0 }

/-! ### Updates -/

/-- What `MessageUpdate` tells of a message. -/
structure MessageUpdate where
  /-- The id of the message. -/
  id : MsgId
  /-- The message is of the history of the list, and not a local one. -/
  regular : Bool
  /-- The message is in the thread. -/
  inThread : Bool
  /-- The flag `Destroyed`; one of the flags of an added message otherwise. -/
  destroyed : Bool
  deriving DecidableEq, Repr

/-- `ranges::lower_bound(_list, id, std::greater<>())` of a list that is sorted. -/
def lowerBound (list : List MsgId) (id : MsgId) : ℕ :=
  (list.takeWhile (id < ·)).length

/-- A message was added to the thread or destroyed. The result says whether the list changed. -/
def applyUpdate (h : RepliesList) (update : MessageUpdate) : Bool × RepliesList :=
  if !update.regular then (false, h)
  else
    let i := lowerBound h.list update.id
    let found := decide (h.list[i]? = some update.id)
    if update.destroyed then
      if !found then (false, h)
      else
        let h := { h with list := h.list.eraseIdx i }
        match h.skippedBefore, h.skippedAfter, h.fullCount with
        | some before, some after, _ =>
          (true, { h with fullCount := some (before + h.list.length + after) })
        | _, _, some known => (true, if 0 < known then { h with fullCount := some (known - 1) } else h)
        | _, _, none => (true, h)
    else if !update.inThread then (false, h)
    else if h.skippedAfter ≠ some 0 || found then (false, h)
    else
      let h := { h with list := h.list.insertIdx i update.id }
      match h.skippedBefore, h.skippedAfter, h.fullCount with
      | some before, some after, _ =>
        (true, { h with fullCount := some (before + h.list.length + after) })
      | _, _, some known => (true, { h with fullCount := some (known + 1) })
      | _, _, none => (true, h)

/-- Updates were lost: what is newer is not known. -/
def applyDifferenceTooLong (h : RepliesList) : RepliesList :=
  if !h.creating && h.skippedAfter.isSome then { h with skippedAfter := none } else h

/-! ### Viewers -/

/-- `MessagesSlice`. -/
structure MessagesSlice where
  /-- The messages, oldest first. -/
  ids : List MsgId := []
  /-- The message to show. -/
  nearestToAround : MsgId := 0
  /-- How many messages are older, if known. -/
  skippedBefore : Option ℤ := none
  /-- How many messages are newer, if known. -/
  skippedAfter : Option ℤ := none
  /-- How many messages there are, if known. -/
  fullCount : Option ℤ := none
  deriving DecidableEq, Repr

/-- `RepliesList::Viewer`. -/
structure Viewer where
  /-- What the viewer shows. -/
  slice : MessagesSlice := {}
  /-- The place. -/
  around : MsgId
  /-- How many older messages to show. -/
  limitBefore : ℕ
  /-- How many newer messages to show. -/
  limitAfter : ℕ
  /-- How many messages of the slice are of the root. -/
  injectedForRoot : ℤ := 0
  deriving DecidableEq, Repr

/-- The first message of the thread, when it is loaded. -/
structure Root where
  /-- The topic it is in. -/
  topicRootId : MsgId
  /-- The messages of its album. -/
  group : Option (List MsgId)
  deriving DecidableEq, Repr

/-- What a viewer reads besides the list. -/
structure World where
  /-- `lookupRoot`. -/
  root : Option Root
  /-- The list is the one of a topic. -/
  owningTopic : Bool
  /-- `computeInboxReadTillFull`. -/
  inboxReadTillFull : MsgId
  /-- The divider after the first message. -/
  divider : MsgId
  deriving DecidableEq, Repr

/-- The first message is shown above the others when all of them are. -/
def injectRootMessage (world : World) (h : RepliesList) (viewer : Viewer) : Viewer :=
  let viewer := { viewer with injectedForRoot := 0 }
  if viewer.slice.skippedBefore ≠ some 0 then viewer
  else
    match world.root with
    | none => viewer
    | some root =>
      if h.rootId = kGeneralId || root.topicRootId ≠ kGeneralId then viewer
      else
        let slice := { viewer.slice with ids := viewer.slice.ids ++ [world.divider] }
        match root.group with
        | some items =>
          -- the size of an album is added to the count here and once more below
          { viewer with
            slice := { slice with
              ids := slice.ids ++ items.reverse
              fullCount := slice.fullCount.map fun count => count + items.length + items.length }
            injectedForRoot := items.length }
        | none =>
          { viewer with
            slice := { slice with
              ids := slice.ids ++ [h.rootId]
              fullCount := slice.fullCount.map (· + 1) }
            injectedForRoot := 1 }

/-- The messages of a slice are put in their order, with the first one. -/
def injectRootMessageAndReverse (world : World) (h : RepliesList) (viewer : Viewer) : Viewer :=
  let viewer := injectRootMessage world h viewer
  { viewer with slice := { viewer.slice with ids := viewer.slice.ids.reverse } }

/-- The place of a viewer. -/
def computeAround (world : World) (viewer : Viewer) : MsgId :=
  if viewer.around ≠ ShowAtUnreadMsgId then viewer.around
  else if world.root.isSome then world.inboxReadTillFull
  else if world.owningTopic then world.inboxReadTillFull
  else viewer.around

/-- The message to show: the one before the first message that is older than the place. -/
def nearestToAround (rootId around : MsgId) : Option MsgId → List MsgId → Option MsgId
  | _, [] => none
  | previous, id :: rest =>
    if id ≠ rootId ∧ id < around then some (previous.getD id)
    else nearestToAround rootId around (some id) rest

/-- The place of a viewer is not in the block. -/
def needsAround (h : RepliesList) (around : MsgId) : Bool :=
  match h.list.head?, h.list.getLast? with
  | some front, some back =>
    (decide (around = 0) && decide (h.skippedAfter ≠ some 0))
      || (decide (front < around) && decide (h.skippedAfter ≠ some 0))
      || (decide (0 < around) && decide (around < back) && decide (h.skippedBefore ≠ some 0))
  | _, _ => true

/-- How many messages of the block are not older than the place: those before it in the list. -/
def availableAfter (h : RepliesList) (around : MsgId) : ℕ :=
  if around ≠ 0 then lowerBound h.list around else h.list.length

/-- The slice of a viewer whose place is in the block. -/
def fillSlice (world : World) (h : RepliesList) (viewer : Viewer) (around : MsgId) (useBefore useAfter : ℕ) :
    Viewer :=
  let i := availableAfter h around
  let availableBefore := h.list.length - i
  let used := (h.list.drop (i - useAfter)).take (useAfter + useBefore)
  let ids := used.filter (· ≠ h.rootId)
  injectRootMessageAndReverse world h { viewer with
    slice := {
      ids := ids
      nearestToAround :=
        (nearestToAround h.rootId around none used).getD (ids.getLast?.getD 0)
      skippedBefore :=
        match h.skippedBefore with
        | some skipped => some (skipped + ((availableBefore - useBefore : ℕ) : ℤ))
        | none => viewer.slice.skippedBefore
      skippedAfter :=
        match h.skippedAfter with
        | some skipped => some (skipped + ((i - useAfter : ℕ) : ℤ))
        | none => viewer.slice.skippedAfter
      fullCount := h.fullCount } }

/-- What is missing at the ends of the slice is asked for. -/
def loadEnds (h : RepliesList) (viewer : Viewer) (useBefore useAfter : ℕ) : Option RepliesList :=
  let before :=
    if h.skippedBefore ≠ some 0 ∧ useBefore < viewer.limitBefore + 1 then loadBefore h else some h
  before.bind fun h =>
    if h.skippedAfter ≠ some 0 ∧ useAfter < viewer.limitAfter then loadAfter h else some h

/-- **The slice of a viewer** is built, when the block has its place, and what is missing is asked for. The
result says whether the slice was built. -/
def buildFromData (world : World) (h : RepliesList) (viewer : Viewer) :
    Option (Bool × Viewer × RepliesList) :=
  if h.creating || (h.list.isEmpty && h.skippedBefore = some 0 && h.skippedAfter = some 0) then
    some (true, injectRootMessageAndReverse world h { viewer with
      slice := { ids := [], nearestToAround := 0, fullCount := some 0, skippedBefore := some 0,
                 skippedAfter := some 0 }
      injectedForRoot := 0 }, h)
  else
    let around := computeAround world viewer
    if needsAround h around then (loadAround h around).map fun h => (false, viewer, h)
    else
      let useBefore := min (h.list.length - availableAfter h around) (viewer.limitBefore + 1)
      let useAfter := min (availableAfter h around) viewer.limitAfter
      (loadEnds h viewer useBefore useAfter).map fun loading =>
        (true, fillSlice world h viewer around useBefore useAfter, loading)

end Replies
