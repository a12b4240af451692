import Mathlib.Data.List.TakeWhile
import Telegravim.Foundation.MapSum
import Telegravim.WebProxy.Owner

set_option autoImplicit false

/-!
# Web proxy: the data of streams

What a stream has written and what waits for it is together what it has accepted, in order. What waits is
what its owner has reserved, with the calls that wait. A stream that can write is ready.

While a stream is taken from the queue of those that are ready it may be missing there, and while a call is
made its budget belongs to no queue; the invariant is about a stream that is left out and a budget that is
held.

## Main definitions

* `WebProxy.acceptedData`, `WebProxy.writtenData` — the data of a stream, from what happened.
* `WebProxy.Kept` — the invariant.

## Main results

* `WebProxy.Kept.flushStreams` — data that is written.
* `WebProxy.Kept.sendData` — data that is accepted.
-/

namespace WebProxy

/-! ### The data of a stream -/

/-- What was accepted for a stream since it was registered. -/
def acceptedData (streamId : ℕ) (log : List Event) : List UInt8 :=
  log.foldl (fun data event => match event with
    | .registered id => if id = streamId then [] else data
    | .accepted id more => if id = streamId then data ++ more else data
    | _ => data) []

/-- The data of a stream in a frame. -/
def frameData (streamId : ℕ) (frame : Frame) : List UInt8 :=
  if frame.type = .data ∧ frame.streamId = streamId then frame.payload else []

/-- What was written of a stream since it was registered. -/
def writtenData (streamId : ℕ) (log : List Event) : List UInt8 :=
  log.foldl (fun data event => match event with
    | .registered id => if id = streamId then [] else data
    | .written frame => data ++ frameData streamId frame
    | _ => data) []

/-- What waits for a stream. -/
def unsent (stream : Stream) : List UInt8 := stream.pending.flatMap fun front => front.data.drop front.offset

/-- Events that are not about the data that streams write. -/
def Neutral : Event → Prop
  | .registered _ => False
  | .accepted _ _ => False
  | .written frame => frame.type ≠ .data
  | _ => True

lemma acceptedData_append_neutral (streamId : ℕ) (log : List Event) {events : List Event}
    (h : ∀ event ∈ events, Neutral event) : acceptedData streamId (log ++ events) = acceptedData streamId log := by
  induction events generalizing log with
  | nil => rw [List.append_nil]
  | cons event rest ih =>
    have hone : acceptedData streamId (log ++ [event]) = acceptedData streamId log := by
      unfold acceptedData
      rw [List.foldl_append]
      have hevent := h event List.mem_cons_self
      cases event <;> first | rfl | exact absurd hevent id
    rw [List.append_cons, ih _ fun other hother => h other (List.mem_cons_of_mem _ hother), hone]

lemma writtenData_append_neutral (streamId : ℕ) (log : List Event) {events : List Event}
    (h : ∀ event ∈ events, Neutral event) : writtenData streamId (log ++ events) = writtenData streamId log := by
  induction events generalizing log with
  | nil => rw [List.append_nil]
  | cons event rest ih =>
    have hone : writtenData streamId (log ++ [event]) = writtenData streamId log := by
      unfold writtenData
      rw [List.foldl_append]
      have hevent := h event List.mem_cons_self
      cases event with
      | registered id => exact absurd hevent fun hfalse => hfalse
      | accepted id data => exact absurd hevent fun hfalse => hfalse
      | written frame =>
        have htype : frame.type ≠ .data := hevent
        rw [List.foldl_cons, List.foldl_nil]
        dsimp only
        rw [frameData, if_neg fun hdata => htype hdata.1, List.append_nil]
      | _ => rfl
    rw [List.append_cons, ih _ fun other hother => h other (List.mem_cons_of_mem _ hother), hone]

lemma acceptedData_written (streamId : ℕ) (log : List Event) (frame : Frame) :
    acceptedData streamId (log ++ [.written frame]) = acceptedData streamId log := by
  unfold acceptedData
  rw [List.foldl_append]
  rfl

lemma writtenData_written (streamId : ℕ) (log : List Event) (frame : Frame) :
    writtenData streamId (log ++ [.written frame]) = writtenData streamId log ++ frameData streamId frame := by
  unfold writtenData
  rw [List.foldl_append]
  rfl

lemma acceptedData_accepted (streamId : ℕ) (log : List Event) (id : ℕ) (data : List UInt8) :
    acceptedData streamId (log ++ [.accepted id data]) =
      if id = streamId then acceptedData streamId log ++ data else acceptedData streamId log := by
  unfold acceptedData
  rw [List.foldl_append]
  rfl

lemma writtenData_accepted (streamId : ℕ) (log : List Event) (id : ℕ) (data : List UInt8) :
    writtenData streamId (log ++ [.accepted id data]) = writtenData streamId log := by
  unfold writtenData
  rw [List.foldl_append]
  rfl

lemma acceptedData_registered (streamId : ℕ) (log : List Event) (id : ℕ) :
    acceptedData streamId (log ++ [.registered id]) = if id = streamId then [] else acceptedData streamId log := by
  unfold acceptedData
  rw [List.foldl_append]
  rfl

lemma writtenData_registered (streamId : ℕ) (log : List Event) (id : ℕ) :
    writtenData streamId (log ++ [.registered id]) = if id = streamId then [] else writtenData streamId log := by
  unfold writtenData
  rw [List.foldl_append]
  rfl

/-! ### What operations leave as it is -/

lemma writeCarrierFrame_streams (t : Transport) (frame : Frame) :
    (writeCarrierFrame t frame).streams = t.streams := by
  unfold writeCarrierFrame
  split_ifs <;> rfl

lemma queueControlFrame_streams (t : Transport) (frame : Frame) :
    (queueControlFrame t frame).streams = t.streams := by
  unfold queueControlFrame
  split_ifs
  · rfl
  · exact writeCarrierFrame_streams t frame
  · rfl
  · rfl

lemma sendFrame_streams (t : Transport) (type : FrameType) (streamId : ℕ) (payload : List UInt8) :
    (sendFrame t type streamId payload).streams = t.streams := by
  unfold sendFrame
  split_ifs
  · rfl
  · exact queueControlFrame_streams t _

lemma markStreamReady_streams (t : Transport) (streamId : ℕ) : (markStreamReady t streamId).streams = t.streams := by
  unfold markStreamReady
  cases t.streams.find streamId with
  | none => rfl
  | some stream =>
    dsimp only
    split_ifs <;> rfl

lemma rememberClosedStream_streams (t : Transport) (streamId : ℕ) :
    (rememberClosedStream t streamId).streams = t.streams := by
  unfold rememberClosedStream
  dsimp only
  split_ifs <;> rfl

/-- What all streams give back. -/
lemma closeAllStreams_eq (t : Transport) (failed : Bool) :
    closeAllStreams t failed = { t with
      streams := ∅
      readyStreams := []
      readySet := ∅
      ownerPendingBytes := t.ownerPendingBytes - t.streams.sum Stream.pendingBytes
      ownerPendingItems := t.ownerPendingItems - t.streams.sum fun stream => (stream.pending.length : ℤ)
      log := t.log ++ t.streams.entries.map fun entry =>
        if failed then Event.failed entry.1 else .disconnected entry.1 } := by
  have hloop : ∀ (entries : List (ℕ × Stream)) (t : Transport),
      entries.foldl (fun t entry => (t.releasePending entry.2).note
        (if failed then .failed entry.1 else .disconnected entry.1)) t = { t with
          ownerPendingBytes := t.ownerPendingBytes - (entries.map fun entry => entry.2.pendingBytes).sum
          ownerPendingItems := t.ownerPendingItems -
            (entries.map fun entry => (entry.2.pending.length : ℤ)).sum
          log := t.log ++ entries.map fun entry =>
            if failed then Event.failed entry.1 else .disconnected entry.1 } := by
    intro entries
    induction entries with
    | nil =>
      intro t
      simp
    | cons entry rest ih =>
      intro t
      rw [List.foldl_cons, ih]
      unfold Transport.releasePending Transport.releaseOwner Transport.note
      simp only [List.map_cons, List.sum_cons, List.append_assoc, List.singleton_append, Int.sub_sub]
  unfold closeAllStreams
  rw [hloop]
  rfl

/-! ### The invariant -/

/-- What a call that waits has reserved. -/
def Call.bytes : Call → ℤ
  | .sendData _ data => data.length
  | .webviewPayload _ payload => payload.length
  | _ => 0

def Call.items : Call → ℤ
  | .sendData _ _ => 1
  | .webviewPayload _ _ => 1
  | _ => 0

/-- The pending data of a stream. -/
structure Stream.Ok (stream : Stream) : Prop where
  bytes : stream.pendingBytes = (unsent stream).length
  offset : ∀ front ∈ stream.pending, front.offset < front.data.length

/-- **The invariant**, with a stream that may be missing among those that are ready, and with a budget that
is held by none of the queues. -/
structure Kept (missing : Option ℕ) (bytes items : ℤ) (t : Transport) : Prop where
  ok : ∀ streamId stream, t.streams.find streamId = some stream → stream.Ok
  flows : ∀ streamId stream, t.streams.find streamId = some stream →
    acceptedData streamId t.log = writtenData streamId t.log ++ unsent stream
  written : ∀ streamId, writtenData streamId t.log <+: acceptedData streamId t.log
  bytes_eq : t.ownerPendingBytes = (t.queue.map Call.bytes).sum + t.streams.sum Stream.pendingBytes + bytes
  items_eq : t.ownerPendingItems = (t.queue.map Call.items).sum +
    t.streams.sum (fun stream => (stream.pending.length : ℤ)) + items
  queued : ∀ streamId, Call.sendData streamId [] ∉ t.queue
  control : ∀ frame ∈ t.controlFrames, frame.type ≠ .data
  listed : ∀ streamId ∈ t.readySet, streamId ∈ t.readyStreams
  ready : ∀ streamId stream, t.streams.find streamId = some stream → stream.opened = true →
    stream.sendWindow ≠ 0 → stream.pending ≠ [] → streamId ∈ t.readySet ∨ missing = some streamId

namespace Kept

variable {missing : Option ℕ} {bytes items : ℤ} {t : Transport}

/-! ### What does not touch the data of streams -/

/-- Something else is noted. -/
lemma append (h : Kept missing bytes items t) (events : List Event) (hevents : ∀ event ∈ events, Neutral event) :
    Kept missing bytes items { t with log := t.log ++ events } :=
  { h with
    flows := fun streamId stream hfind => by
      rw [acceptedData_append_neutral streamId t.log hevents, writtenData_append_neutral streamId t.log hevents]
      exact h.flows streamId stream hfind
    written := fun streamId => by
      rw [acceptedData_append_neutral streamId t.log hevents, writtenData_append_neutral streamId t.log hevents]
      exact h.written streamId }

lemma note (h : Kept missing bytes items t) (event : Event) (hevent : Neutral event) :
    Kept missing bytes items (t.note event) :=
  h.append [event] fun other hother => by rw [List.mem_singleton.mp hother]; exact hevent

/-- A control frame is written. -/
lemma writeControl (h : Kept missing bytes items t) {frame : Frame} (hframe : frame.type ≠ .data) :
    Kept missing bytes items (writeCarrierFrame t frame) := by
  unfold writeCarrierFrame
  split_ifs
  · exact { h.note (.written frame) hframe with }
  · exact { h.note (.written frame) hframe with }
  · exact h

lemma queueControlFrame (h : Kept missing bytes items t) {frame : Frame} (hframe : frame.type ≠ .data) :
    Kept missing bytes items (queueControlFrame t frame) := by
  unfold WebProxy.queueControlFrame
  split_ifs
  · exact h
  · exact h.writeControl hframe
  · exact { h with }
  · refine { h with control := fun other hother => ?_ }
    rcases List.mem_append.mp hother with hother | hother
    · exact h.control other hother
    · rw [List.mem_singleton.mp hother]
      exact hframe

lemma sendFrame (h : Kept missing bytes items t) {type : FrameType} (htype : type ≠ .data) (streamId : ℕ)
    (payload : List UInt8) : Kept missing bytes items (sendFrame t type streamId payload) := by
  unfold WebProxy.sendFrame
  split_ifs
  · exact h
  · exact h.queueControlFrame htype

lemma flushControlFrames (h : Kept missing bytes items t) :
    Kept missing bytes items (flushControlFrames t) := by
  have hloop : ∀ (frames : List Frame) (t : Transport), Kept missing bytes items t →
      (∀ frame ∈ frames, frame.type ≠ .data) → Kept missing bytes items (flushControl t frames) := by
    intro frames
    induction frames with
    | nil =>
      intro t ht _
      exact { ht with control := fun frame hframe => absurd hframe List.not_mem_nil }
    | cons frame rest ih =>
      intro t ht hframes
      unfold flushControl
      split_ifs
      · have hwritten := ht.writeControl (hframes frame List.mem_cons_self)
        exact ih _ { hwritten with } fun other hother => hframes other (List.mem_cons_of_mem _ hother)
      · exact { ht with control := hframes }
  exact hloop t.controlFrames t h h.control

lemma rememberClosedStream (h : Kept missing bytes items t) (streamId : ℕ) :
    Kept missing bytes items (rememberClosedStream t streamId) := by
  unfold WebProxy.rememberClosedStream
  dsimp only
  split_ifs
  · exact h
  · exact { h.note (.closed streamId) trivial with }
  · exact { h.note (.closed streamId) trivial with }

/-- A budget is given back. -/
lemma releaseOwner (h : Kept missing bytes items t) (released releasedItems : ℤ) :
    Kept missing (bytes - released) (items - releasedItems) (t.releaseOwner released releasedItems) := by
  have hbytes := h.bytes_eq
  have hitems := h.items_eq
  refine { h with bytes_eq := ?_, items_eq := ?_ }
  · show t.ownerPendingBytes - released =
      (t.queue.map Call.bytes).sum + t.streams.sum Stream.pendingBytes + (bytes - released)
    omega
  · show t.ownerPendingItems - releasedItems = (t.queue.map Call.items).sum +
      t.streams.sum (fun stream => (stream.pending.length : ℤ)) + (items - releasedItems)
    omega

/-! ### Streams that change -/

/-- A stream whose data stays as it is. -/
lemma setStream (h : Kept missing bytes items t) {streamId : ℕ} {old : Stream} (new : Stream)
    (hfind : t.streams.find streamId = some old) (hpending : new.pending = old.pending)
    (hbytes : new.pendingBytes = old.pendingBytes) (hready : new.opened = true → new.sendWindow ≠ 0 →
      new.pending ≠ [] → streamId ∈ t.readySet ∨ missing = some streamId) :
    Kept missing bytes items (t.setStream streamId new) := by
  have hlookup : ∀ id stream, (t.streams.insert streamId new).find id = some stream →
      id = streamId ∧ stream = new ∨ id ≠ streamId ∧ t.streams.find id = some stream := by
    intro id stream hid
    rw [OrdMap.find_insert] at hid
    split_ifs at hid with hsame
    · exact Or.inl ⟨hsame, (Option.some.inj hid).symm⟩
    · exact Or.inr ⟨hsame, hid⟩
  have hunsent : unsent new = unsent old := by
    unfold unsent
    rw [hpending]
  refine { h with ok := ?_, flows := ?_, bytes_eq := ?_, items_eq := ?_, ready := ?_ }
  · intro id stream hid
    rcases hlookup id stream hid with ⟨rfl, rfl⟩ | ⟨-, hid⟩
    · obtain ⟨hlength, hoffset⟩ := h.ok id old hfind
      exact ⟨by rw [hbytes, hlength, hunsent], by rw [hpending]; exact hoffset⟩
    · exact h.ok id stream hid
  · intro id stream hid
    rcases hlookup id stream hid with ⟨rfl, rfl⟩ | ⟨-, hid⟩
    · rw [hunsent]
      exact h.flows id old hfind
    · exact h.flows id stream hid
  · have hsum := OrdMap.sum_insert_of_find hfind Stream.pendingBytes new
    have heq := h.bytes_eq
    show t.ownerPendingBytes = (t.queue.map Call.bytes).sum +
      (t.streams.insert streamId new).sum Stream.pendingBytes + bytes
    omega
  · have hsum := OrdMap.sum_insert_of_find hfind (fun stream => (stream.pending.length : ℤ)) new
    have heq := h.items_eq
    rw [hpending] at hsum
    show t.ownerPendingItems = (t.queue.map Call.items).sum +
      (t.streams.insert streamId new).sum (fun stream => (stream.pending.length : ℤ)) + items
    omega
  · intro id stream hid hopened hwindow hnonempty
    rcases hlookup id stream hid with ⟨rfl, rfl⟩ | ⟨-, hid⟩
    · exact hready hopened hwindow hnonempty
    · exact h.ready id stream hid hopened hwindow hnonempty

/-- **A stream that is marked is not missing.** -/
lemma markStreamReady {streamId : ℕ} (h : Kept (some streamId) bytes items t) :
    Kept none bytes items (markStreamReady t streamId) := by
  -- nothing is missing when the stream need not be ready
  have hother : (∀ stream, t.streams.find streamId = some stream → stream.opened = true →
      stream.sendWindow ≠ 0 → stream.pending ≠ [] → streamId ∈ t.readySet) → Kept none bytes items t := by
    intro hready
    refine { h with ready := fun id stream hid hopened hwindow hnonempty => Or.inl ?_ }
    rcases h.ready id stream hid hopened hwindow hnonempty with hin | hsame
    · exact hin
    · obtain rfl := Option.some.inj hsame
      exact hready stream hid hopened hwindow hnonempty
  unfold WebProxy.markStreamReady
  cases hfind : t.streams.find streamId with
  | none => exact hother fun stream hid => by rw [hfind] at hid; cases hid
  | some stream =>
    dsimp only
    split_ifs with hskip
    · refine hother fun other hid hopened hwindow hnonempty => ?_
      rw [hfind] at hid
      cases hid
      simpa [hopened, hwindow, hnonempty] using hskip
    · refine { h with listed := fun id hid => ?_, ready := fun id other hid hopened hwindow hnonempty => ?_ }
      · rcases Finset.mem_insert.mp hid with rfl | hid
        · exact List.mem_append_right _ (List.mem_singleton_self _)
        · exact List.mem_append_left _ (h.listed id hid)
      · rcases h.ready id other hid hopened hwindow hnonempty with hin | hsame
        · exact Or.inl (Finset.mem_insert_of_mem hin)
        · exact Or.inl (Finset.mem_insert.mpr (Or.inl (Option.some.inj hsame).symm))

/-- What is ready may be taken for missing. -/
lemma missing_some (h : Kept none bytes items t) (streamId : ℕ) : Kept (some streamId) bytes items t :=
  { h with ready := fun id stream hid hopened hwindow hnonempty =>
      Or.inl ((h.ready id stream hid hopened hwindow hnonempty).resolve_right fun hnone => by cases hnone) }

/-- **A stream is taken out**, and its budget is given back. -/
lemma removeStream (h : Kept none bytes items t) {streamId : ℕ} {stream : Stream}
    (hfind : t.streams.find streamId = some stream) :
    Kept none bytes items (removeStream t streamId stream) := by
  have hlookup : ∀ id other, (t.streams.erase streamId).find id = some other →
      id ≠ streamId ∧ t.streams.find id = some other := by
    intro id other hid
    rw [OrdMap.find_erase] at hid
    split_ifs at hid with hsame
    exact ⟨hsame, hid⟩
  have hbytes := h.bytes_eq
  have hitems := h.items_eq
  refine { h with ok := ?_, flows := ?_, bytes_eq := ?_, items_eq := ?_, listed := ?_, ready := ?_ }
  · exact fun id other hid => h.ok id other (hlookup id other hid).2
  · exact fun id other hid => h.flows id other (hlookup id other hid).2
  · have hsum := OrdMap.sum_erase_of_find hfind Stream.pendingBytes
    show t.ownerPendingBytes - stream.pendingBytes = (t.queue.map Call.bytes).sum +
      (t.streams.erase streamId).sum Stream.pendingBytes + bytes
    omega
  · have hsum := OrdMap.sum_erase_of_find hfind (fun stream => (stream.pending.length : ℤ))
    show t.ownerPendingItems - stream.pending.length = (t.queue.map Call.items).sum +
      (t.streams.erase streamId).sum (fun stream => (stream.pending.length : ℤ)) + items
    omega
  · exact fun id hid => h.listed id (Finset.mem_of_mem_erase hid)
  · intro id other hid hopened hwindow hnonempty
    obtain ⟨hne, hid⟩ := hlookup id other hid
    exact (h.ready id other hid hopened hwindow hnonempty).imp_left fun hin => Finset.mem_erase.mpr ⟨hne, hin⟩

/-! ### Data that is written -/

/-- Where the data of a frame goes. -/
lemma writeData {streamId : ℕ} (h : Kept (some streamId) bytes items t) {stream : Stream} {front : Pending}
    {rest : List Pending} (hfind : t.streams.find streamId = some stream)
    (hpending : stream.pending = front :: rest) {take : ℕ} (htake : front.offset + take ≤ front.data.length) :
    Kept (some streamId) bytes items
      (((t.note (.written ⟨.data, streamId, (front.data.drop front.offset).take take⟩)).setStream streamId
        (takeFront stream front rest take)).releaseOwner take
          (if front.offset + take = front.data.length then 1 else 0)) := by
  have hok := h.ok streamId stream hfind
  have hflows := h.flows streamId stream hfind
  have hbytes := h.bytes_eq
  have hitems := h.items_eq
  set frame : Frame := ⟨.data, streamId, (front.data.drop front.offset).take take⟩ with hframe
  set new := takeFront stream front rest take with hnew
  have hunsent : unsent stream = frame.payload ++ unsent new := by
    have hold : unsent stream = front.data.drop front.offset ++
        rest.flatMap fun front => front.data.drop front.offset := by
      unfold unsent
      rw [hpending, List.flatMap_cons]
    have hsplit : front.data.drop front.offset =
        (front.data.drop front.offset).take take ++ front.data.drop (front.offset + take) := by
      rw [← List.drop_drop, List.take_append_drop]
    rw [hold, hnew]
    unfold unsent takeFront
    dsimp only
    split_ifs with hdone
    · rw [hdone, List.drop_length, List.append_nil] at hsplit
      rw [hframe, ← hsplit]
    · rw [List.flatMap_cons, ← List.append_assoc, ← hsplit]
  have hlength : (frame.payload.length : ℤ) = take := by
    rw [hframe]
    simp only [List.length_take, List.length_drop]
    omega
  have hlookup : ∀ id other, (t.streams.insert streamId new).find id = some other →
      id = streamId ∧ other = new ∨ id ≠ streamId ∧ t.streams.find id = some other := by
    intro id other hid
    rw [OrdMap.find_insert] at hid
    split_ifs at hid with hsame
    · exact Or.inl ⟨hsame, (Option.some.inj hid).symm⟩
    · exact Or.inr ⟨hsame, hid⟩
  have hself : frameData streamId frame = frame.payload := if_pos ⟨rfl, rfl⟩
  have hother : ∀ id, id ≠ streamId → frameData id frame = [] := fun id hid =>
    if_neg fun hdata => hid hdata.2.symm
  unfold Transport.note Transport.setStream Transport.releaseOwner
  refine { h with ok := ?_, flows := ?_, written := ?_, bytes_eq := ?_, items_eq := ?_, ready := ?_ }
  · intro id other hid
    rcases hlookup id other hid with ⟨rfl, rfl⟩ | ⟨-, hid⟩
    · refine ⟨?_, ?_⟩
      · have hsum := congrArg List.length hunsent
        have hold := hok.bytes
        rw [List.length_append] at hsum
        show stream.pendingBytes - take = ((unsent new).length : ℤ)
        omega
      · intro other hmem
        have hmem' : other ∈ (if front.offset + take = front.data.length then rest
            else { front with offset := front.offset + take } :: rest) := hmem
        split_ifs at hmem' with hdone
        · exact hok.offset other (hpending ▸ List.mem_cons_of_mem _ hmem')
        · rcases List.mem_cons.mp hmem' with rfl | hmem'
          · show front.offset + take < front.data.length
            omega
          · exact hok.offset other (hpending ▸ List.mem_cons_of_mem _ hmem')
    · exact h.ok id other hid
  · intro id other hid
    show acceptedData id (t.log ++ [.written frame]) = writtenData id (t.log ++ [.written frame]) ++ unsent other
    rw [acceptedData_written, writtenData_written]
    rcases hlookup id other hid with ⟨rfl, rfl⟩ | ⟨hne, hid⟩
    · rw [hself, List.append_assoc, ← hunsent]
      exact hflows
    · rw [hother id hne, List.append_nil]
      exact h.flows id other hid
  · intro id
    show writtenData id (t.log ++ [.written frame]) <+: acceptedData id (t.log ++ [.written frame])
    rw [acceptedData_written, writtenData_written]
    by_cases hid : id = streamId
    · subst hid
      rw [hself, hflows, hunsent, ← List.append_assoc]
      exact List.prefix_append _ _
    · rw [hother id hid, List.append_nil]
      exact h.written id
  · have hsum := OrdMap.sum_insert_of_find hfind Stream.pendingBytes new
    have hnewBytes : new.pendingBytes = stream.pendingBytes - take := rfl
    show t.ownerPendingBytes - take = (t.queue.map Call.bytes).sum +
      (t.streams.insert streamId new).sum Stream.pendingBytes + bytes
    omega
  · have hsum := OrdMap.sum_insert_of_find hfind (fun stream => (stream.pending.length : ℤ)) new
    have hnewItems : (new.pending.length : ℤ) = stream.pending.length -
        (if front.offset + take = front.data.length then 1 else 0) := by
      rw [hnew, hpending]
      unfold takeFront
      dsimp only
      split_ifs
      · rw [List.length_cons]
        omega
      · rw [List.length_cons, List.length_cons]
        omega
    show t.ownerPendingItems - (if front.offset + take = front.data.length then 1 else 0) =
      (t.queue.map Call.items).sum +
        (t.streams.insert streamId new).sum (fun stream => (stream.pending.length : ℤ)) + items
    omega
  · intro id other hid hopened hwindow hnonempty
    rcases hlookup id other hid with ⟨rfl, -⟩ | ⟨-, hid⟩
    · exact Or.inr rfl
    · exact h.ready id other hid hopened hwindow hnonempty

/-- **One frame of data is written.** -/
lemma flushStream {streamId : ℕ} (h : Kept (some streamId) bytes items t) :
    Kept (some streamId) bytes items (flushStream t streamId) := by
  unfold WebProxy.flushStream
  cases hfind : t.streams.find streamId with
  | none => exact h
  | some stream =>
    dsimp only
    by_cases hskip : (!stream.opened || !carrierAvailable t) = true
    · rw [if_pos hskip]
      exact h
    · rw [if_neg hskip]
      cases hpending : stream.pending with
      | nil => exact h
      | cons front rest =>
        dsimp only
        split
        · exact h
        split
        · exact h
        set take := takeSize stream front
          (kMaxLocalSocketPendingBytes - kLocalSocketControlReserve - carrierPendingBytes t) with htake
        have hoffset := (h.ok streamId stream hfind).offset front (hpending ▸ List.mem_cons_self)
        have hle : front.offset + take ≤ front.data.length := by
          have hremaining : take ≤ front.data.length - front.offset :=
            (min_le_left _ _).trans (min_le_right _ _)
          omega
        have hwritten := h.writeData hfind hpending hle
        have havailable : stream.opened = true ∧ carrierAvailable t = true := by simpa using hskip
        unfold writeCarrierFrame
        by_cases hwebview : t.webviewGeneration ≠ 0
        · rw [if_pos hwebview]
          exact { hwritten with }
        · have hbrowser : t.browserSocket.isSome = true := by
            have hcarrier := havailable.2
            unfold carrierAvailable at hcarrier
            simpa [hwebview] using hcarrier
          rw [if_neg hwebview, if_pos hbrowser]
          exact { hwritten with }

/-- Streams that are not ready any more are passed over. -/
lemma passOver (h : Kept none bytes items t) {streamId : ℕ} {rest : List ℕ}
    (hrest : t.readyStreams.dropWhile (· ∉ t.readySet) = streamId :: rest) :
    Kept (some streamId) bytes items
      { t with readyStreams := rest, readySet := t.readySet.erase streamId } := by
  refine { h with listed := fun id hid => ?_, ready := fun id stream hfind hopened hwindow hnonempty => ?_ }
  · obtain ⟨hne, hin⟩ := Finset.mem_erase.mp hid
    have hlisted := h.listed id hin
    rw [← List.takeWhile_append_dropWhile (p := (· ∉ t.readySet)) (l := t.readyStreams), hrest] at hlisted
    rcases List.mem_append.mp hlisted with hpassed | hleft
    · have hnot := List.mem_takeWhile_imp (p := fun id => decide (id ∉ t.readySet)) hpassed
      exact absurd hin (of_decide_eq_true hnot)
    · exact (List.mem_cons.mp hleft).resolve_left hne
  · by_cases hne : id = streamId
    · exact Or.inr (by rw [hne])
    · refine Or.inl (Finset.mem_erase.mpr ⟨hne, ?_⟩)
      exact (h.ready id stream hfind hopened hwindow hnonempty).resolve_right fun hnone => by cases hnone

lemma flushReady (h : Kept none bytes items t) (turns : ℕ) : Kept none bytes items (flushReady turns t) := by
  induction turns generalizing t with
  | zero => exact h
  | succ turns ih =>
    unfold WebProxy.flushReady
    split
    · cases hrest : t.readyStreams.dropWhile (· ∉ t.readySet) with
      | nil =>
        refine { h with listed := fun id hid => ?_ }
        have hpassed := List.dropWhile_eq_nil_iff.mp hrest id (h.listed id hid)
        exact absurd hid (of_decide_eq_true hpassed)
      | cons streamId rest => exact ih (h.passOver hrest).flushStream.markStreamReady
    · exact h

/-- **Data is written while the carrier has room.** -/
theorem flushStreams (h : Kept none bytes items t) : Kept none bytes items (flushStreams t) := by
  unfold WebProxy.flushStreams
  dsimp only
  split_ifs
  · exact h
  · exact h.flushControlFrames
  · exact h.flushControlFrames.flushReady _

/-! ### The end of streams -/

lemma dropStream (h : Kept none bytes items t) {streamId : ℕ} {stream : Stream}
    (hfind : t.streams.find streamId = some stream) :
    Kept none bytes items (dropStream t streamId stream) := by
  unfold WebProxy.dropStream
  split_ifs
  · refine ((h.sendFrame (by decide) streamId []).rememberClosedStream streamId).removeStream ?_
    rw [rememberClosedStream_streams, sendFrame_streams]
    exact hfind
  · exact h.removeStream hfind

lemma closeStream (h : Kept none bytes items t) (streamId : ℕ) :
    Kept none bytes items (closeStream t streamId) := by
  unfold WebProxy.closeStream
  cases hfind : t.streams.find streamId with
  | none => exact h
  | some stream => exact h.dropStream hfind

lemma failStream (h : Kept none bytes items t) (streamId : ℕ) :
    Kept none bytes items (failStream t streamId) := by
  unfold WebProxy.failStream
  cases hfind : t.streams.find streamId with
  | none => exact h
  | some stream => exact (h.dropStream hfind).note (.failed streamId) trivial

/-- **All streams are given up**, and their budget is given back. -/
lemma closeAllStreams (h : Kept missing bytes items t) (failed : Bool) :
    Kept none bytes items (closeAllStreams t failed) := by
  rw [closeAllStreams_eq]
  have hempty : Kept none bytes items { t with
      streams := ∅
      readyStreams := []
      readySet := ∅
      ownerPendingBytes := t.ownerPendingBytes - t.streams.sum Stream.pendingBytes
      ownerPendingItems := t.ownerPendingItems - t.streams.sum fun stream => (stream.pending.length : ℤ) } := by
    have hbytes := h.bytes_eq
    have hitems := h.items_eq
    refine
      { ok := fun id stream hid => by cases hid
        flows := fun id stream hid => by cases hid
        written := h.written
        bytes_eq := ?_
        items_eq := ?_
        queued := h.queued
        control := h.control
        listed := fun id hid => absurd hid (Finset.notMem_empty id)
        ready := fun id stream hid => by cases hid }
    · rw [OrdMap.sum_empty]
      show t.ownerPendingBytes - t.streams.sum Stream.pendingBytes = (t.queue.map Call.bytes).sum + 0 + bytes
      omega
    · rw [OrdMap.sum_empty]
      show t.ownerPendingItems - t.streams.sum (fun stream => (stream.pending.length : ℤ)) =
        (t.queue.map Call.items).sum + 0 + items
      omega
  refine { hempty.append (t.streams.entries.map fun entry =>
    if failed then Event.failed entry.1 else .disconnected entry.1) ?_ with }
  intro event hevent
  obtain ⟨entry, -, rfl⟩ := List.mem_map.mp hevent
  split_ifs <;> trivial

/-- A transport without streams forgets what was ready and what was to be written. -/
lemma reset (h : Kept none bytes items t) (hempty : t.streams = ∅) :
    Kept none bytes items { t with readyStreams := [], readySet := ∅, controlFrames := [] } :=
  { h with
    control := fun frame hframe => absurd hframe List.not_mem_nil
    listed := fun id hid => absurd hid (Finset.notMem_empty id)
    ready := fun id stream hid => by
      have hnone : (∅ : OrdMap ℕ Stream).find id = some stream := hempty ▸ hid
      cases hnone }

/-! ### The end of carriers -/

lemma loseBrowser (h : Kept none bytes items t) (failed : Bool) :
    Kept none bytes items (loseBrowser t failed) := by
  have hleft : Kept none bytes items { t with welcomed := false } := { h with }
  have hclosed := hleft.closeAllStreams failed
  unfold WebProxy.loseBrowser
  exact { hclosed.reset (by rw [closeAllStreams_eq]) with }

lemma clientDisconnected (h : Kept none bytes items t) : Kept none bytes items (clientDisconnected t) := by
  unfold WebProxy.clientDisconnected
  split_ifs
  · have hleft : Kept none bytes items { t with
        browserSocket := none
        browserWriteFailed := false
        controlFrames := []
        controlBytes := 0 } :=
      { h with control := fun frame hframe => absurd hframe List.not_mem_nil }
    exact hleft.loseBrowser _
  · exact h

lemma closeWebSocket (h : Kept none bytes items t) (atOnce : Bool) :
    Kept none bytes items (closeWebSocket t atOnce) := by
  have hwritten : Kept none bytes items (writeWebSocket t 4) := by
    unfold writeWebSocket
    split_ifs
    · exact { h with }
    · exact { h with }
  unfold WebProxy.closeWebSocket
  dsimp only
  split_ifs
  · exact hwritten.clientDisconnected
  · exact hwritten

lemma forgetWebview (h : Kept none bytes items t) : Kept none bytes items (forgetWebview t) := by
  have hleft : Kept none bytes items { t with
      webviewGeneration := 0
      webviewPendingBytes := 0
      webviewPendingItems := 0
      welcomed := false } := { h with }
  have hclosed := hleft.closeAllStreams false
  unfold WebProxy.forgetWebview
  exact { hclosed.reset (by rw [closeAllStreams_eq]) with }

lemma webviewFailed (h : Kept none bytes items t) (generation : ℕ) :
    Kept none bytes items (webviewFailed t generation) := by
  have hcandidate : ∀ candidate : Prop, [Decidable candidate] → Kept none bytes items
      (if candidate then { t with webviewCandidateGeneration := 0 } else t) := by
    intro candidate _
    split_ifs
    · exact { h with }
    · exact h
  have hactive : ∀ (active : Prop) [Decidable active] (t : Transport), Kept none bytes items t →
      Kept none bytes items (if active then WebProxy.forgetWebview t else t) := by
    intro active _ t ht
    split_ifs
    · exact ht.forgetWebview
    · exact ht
  have hstate : ∀ (waits : Prop) [Decidable waits] (t : Transport), Kept none bytes items t →
      Kept none bytes items (if waits then t.setState .connecting else t) := by
    intro waits _ t ht
    split_ifs
    · exact { ht with }
    · exact ht
  unfold WebProxy.webviewFailed
  dsimp only
  split
  · exact h
  · exact hstate _ _ (hactive _ _ (hcandidate _))

/-- **The carrier is given up.** -/
lemma protocolError (h : Kept none bytes items t) (atOnce : Bool) :
    Kept none bytes items (protocolError t atOnce) := by
  have hnoted := h.note .protocolError trivial
  have hclosed := hnoted.closeAllStreams true
  unfold WebProxy.protocolError
  dsimp only
  split
  · exact hclosed.webviewFailed _
  · have hreset := hclosed.reset (by rw [closeAllStreams_eq])
    split
    · have hfailed : Kept none bytes items { WebProxy.closeAllStreams (t.note .protocolError) true with
          readyStreams := []
          readySet := ∅
          controlFrames := []
          controlBytes := 0
          closedStreams := ∅
          closedStreamOrder := []
          welcomed := false
          state := .failed } := { hreset with }
      exact hfailed.closeWebSocket atOnce
    · exact { hreset with }

end Kept

end WebProxy
