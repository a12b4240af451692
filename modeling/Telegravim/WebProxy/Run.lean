import Telegravim.WebProxy.Streams

set_option autoImplicit false

/-!
# Web proxy: runs of the transport

Whatever streams, the relay, the carriers and their owner do keeps the invariant. So in every state of every
run the data that a stream has written is a prefix of the data that it has accepted, the budget is that of
what waits, and a stream that can write is ready.

## Main results

* `WebProxy.Kept.sendData`, `WebProxy.Kept.processRelayFrame` — what streams ask for, and what the relay says.
* `WebProxy.Reachable.kept` — every state of a run keeps the invariant.
* `WebProxy.reachable_streams` — no data is lost, duplicated or reordered, and no stream is forgotten.
-/

namespace WebProxy

namespace Kept

variable {missing : Option ℕ} {bytes items : ℤ} {t : Transport}

/-! ### All streams, one after the other -/

/-- Something is done with every stream that changes no other. -/
lemma foldStreams (h : Kept none bytes items t) {change : Transport → ℕ × Stream → Transport}
    (hchange : ∀ (t : Transport) (entry : ℕ × Stream), Kept none bytes items t →
      t.streams.find entry.1 = some entry.2 → Kept none bytes items (change t entry) ∧
        ∀ id, id ≠ entry.1 → (change t entry).streams.find id = t.streams.find id) :
    Kept none bytes items (t.streams.entries.foldl change t) := by
  have hloop : ∀ (entries : List (ℕ × Stream)) (t : Transport), Kept none bytes items t →
      (entries.map Prod.fst).Nodup → (∀ entry ∈ entries, t.streams.find entry.1 = some entry.2) →
      Kept none bytes items (entries.foldl change t) := by
    intro entries
    induction entries with
    | nil => exact fun t ht _ _ => ht
    | cons entry rest ih =>
      intro t ht hnodup hfind
      rw [List.map_cons, List.nodup_cons] at hnodup
      obtain ⟨hkept, hother⟩ := hchange t entry ht (hfind entry List.mem_cons_self)
      refine ih _ hkept hnodup.2 fun other hmem => ?_
      rw [hother other.1 fun hsame => hnodup.1 (List.mem_map.mpr ⟨other, hmem, hsame⟩)]
      exact hfind other (List.mem_cons_of_mem _ hmem)
  exact hloop _ t h t.streams.nodup_keys fun entry hentry => OrdMap.find_eq_some_iff.mpr hentry

/-! ### What streams ask for -/

/-- A stream is opened. It is not ready yet. -/
lemma openStream (h : Kept none bytes items t) {streamId : ℕ} {stream : Stream}
    (hfind : t.streams.find streamId = some stream) :
    Kept (some streamId) bytes items (openStream t streamId stream) := by
  have hset : Kept (some streamId) bytes items (t.setStream streamId { stream with opened := true }) :=
    (h.missing_some streamId).setStream _ hfind rfl rfl fun _ _ _ => Or.inr rfl
  exact (hset.sendFrame (by decide) streamId []).note (.connected streamId) trivial

lemma openStream_streams (t : Transport) (streamId : ℕ) (stream : Stream) :
    (WebProxy.openStream t streamId stream).streams = t.streams.insert streamId { stream with opened := true } :=
  sendFrame_streams _ _ _ _

/-- **A stream is registered.** Its data starts anew. -/
theorem registerStream (h : Kept none bytes items t) (streamId : ℕ) :
    Kept none bytes items (registerStream t streamId) := by
  unfold WebProxy.registerStream
  split
  · exact h.note (.failed streamId) trivial
  · rename_i hnew
    have hnone : t.streams.find streamId = none := by
      refine OrdMap.contains_eq_false_iff.mp (Bool.eq_false_iff.mpr fun hcontains => hnew ?_)
      rw [hcontains]
      simp
    have hregistered : Kept none bytes items ((t.setStream streamId {}).note (.registered streamId)) := by
      have hlookup : ∀ id stream, (t.streams.insert streamId {}).find id = some stream →
          id = streamId ∧ stream = {} ∨ id ≠ streamId ∧ t.streams.find id = some stream := by
        intro id stream hid
        rw [OrdMap.find_insert] at hid
        split_ifs at hid with hsame
        · exact Or.inl ⟨hsame, (Option.some.inj hid).symm⟩
        · exact Or.inr ⟨hsame, hid⟩
      have hbytes := h.bytes_eq
      have hitems := h.items_eq
      unfold Transport.setStream Transport.note
      refine { h with ok := ?_, flows := ?_, written := ?_, bytes_eq := ?_, items_eq := ?_, ready := ?_ }
      · intro id stream hid
        rcases hlookup id stream hid with ⟨rfl, rfl⟩ | ⟨-, hid⟩
        · exact ⟨rfl, fun front hfront => absurd hfront List.not_mem_nil⟩
        · exact h.ok id stream hid
      · intro id stream hid
        show acceptedData id (t.log ++ [.registered streamId]) =
          writtenData id (t.log ++ [.registered streamId]) ++ unsent stream
        rw [acceptedData_registered, writtenData_registered]
        rcases hlookup id stream hid with ⟨rfl, rfl⟩ | ⟨hne, hid⟩
        · rw [if_pos rfl, if_pos rfl]
          rfl
        · rw [if_neg hne.symm, if_neg hne.symm]
          exact h.flows id stream hid
      · intro id
        show writtenData id (t.log ++ [.registered streamId]) <+: acceptedData id (t.log ++ [.registered streamId])
        rw [acceptedData_registered, writtenData_registered]
        split_ifs
        · exact List.prefix_refl _
        · exact h.written id
      · have hsum := OrdMap.sum_insert_of_find_eq_none hnone Stream.pendingBytes {}
        have hzero : ({} : Stream).pendingBytes = 0 := rfl
        show t.ownerPendingBytes = (t.queue.map Call.bytes).sum +
          (t.streams.insert streamId {}).sum Stream.pendingBytes + bytes
        omega
      · have hsum := OrdMap.sum_insert_of_find_eq_none hnone (fun stream => (stream.pending.length : ℤ)) {}
        have hzero : (({} : Stream).pending.length : ℤ) = 0 := rfl
        show t.ownerPendingItems = (t.queue.map Call.items).sum +
          (t.streams.insert streamId {}).sum (fun stream => (stream.pending.length : ℤ)) + items
        omega
      · intro id stream hid hopened hwindow hnonempty
        rcases hlookup id stream hid with ⟨rfl, rfl⟩ | ⟨-, hid⟩
        · exact absurd rfl hnonempty
        · exact h.ready id stream hid hopened hwindow hnonempty
    dsimp only
    split
    · have hfind : (t.streams.insert streamId {}).find streamId = some ({} : Stream) :=
        OrdMap.find_insert_self _ _ _
      have hopened := hregistered.openStream hfind
      -- a new stream has nothing to write
      refine { hopened with ready := fun id stream hid hopen hwindow hnonempty => ?_ }
      refine (hopened.ready id stream hid hopen hwindow hnonempty).imp_right fun hsame => ?_
      rw [openStream_streams, Option.some.inj hsame, OrdMap.find_insert_self] at hid
      exact absurd (congrArg Stream.pending (Option.some.inj hid)).symm hnonempty
    · exact hregistered

/-- What waits after more data. -/
lemma appendData_eq (stream : Stream) (data : List UInt8) :
    unsent (appendData stream data) = unsent stream ++ data ∧
      ((appendData stream data).pending.length : ℤ) =
        stream.pending.length + (if coalesces stream data then 0 else 1) := by
  unfold appendData coalesces unsent
  dsimp only
  cases hlast : stream.pending.getLast? with
  | none =>
    rw [List.getLast?_eq_none_iff] at hlast
    rw [hlast]
    simp
  | some back =>
    obtain ⟨front, hfront⟩ : ∃ front, stream.pending = front ++ [back] := List.getLast?_eq_some_iff.mp hlast
    rw [hfront]
    dsimp only
    by_cases hfits : (decide (back.offset = 0) && decide (back.data.length + data.length ≤ kDataFrameSize)) = true
    · have hoffset : back.offset = 0 := by simpa using (Bool.and_eq_true_iff.mp hfits).1
      rw [if_pos hfits, if_pos hfits, List.dropLast_concat]
      simp [hoffset]
    · rw [if_neg hfits, if_neg hfits]
      simp
      omega

/-- What is added was not sent yet. -/
lemma appendData_offset {stream : Stream} (h : stream.Ok) {data : List UInt8} (hdata : data ≠ []) :
    ∀ front ∈ (appendData stream data).pending, front.offset < front.data.length := by
  have hpositive : 0 < data.length := List.length_pos_of_ne_nil hdata
  unfold appendData
  dsimp only
  cases hlast : stream.pending.getLast? with
  | none =>
    intro front hfront
    rw [List.mem_singleton.mp hfront]
    exact hpositive
  | some back =>
    obtain ⟨front, hfront⟩ : ∃ front, stream.pending = front ++ [back] := List.getLast?_eq_some_iff.mp hlast
    have hold := h.offset
    rw [hfront] at hold
    intro other hother
    dsimp only at hother
    rw [hfront] at hother
    split_ifs at hother
    · rw [List.dropLast_concat] at hother
      rcases List.mem_append.mp hother with hother | hother
      · exact hold other (List.mem_append_left _ hother)
      · have hback := hold back (List.mem_append_right _ (List.mem_singleton_self _))
        rw [List.mem_singleton.mp hother]
        show back.offset < (back.data ++ data).length
        rw [List.length_append]
        omega
    · rcases List.mem_append.mp hother with hother | hother
      · exact hold other hother
      · rw [List.mem_singleton.mp hother]
        exact hpositive

/-- Data is accepted. Its budget is now that of the stream. -/
lemma acceptData {data : List UInt8} (h : Kept none (bytes + data.length) (items + 1) t) {streamId : ℕ}
    {stream : Stream} (hfind : t.streams.find streamId = some stream) (hdata : data ≠ []) :
    Kept (some streamId) bytes (items + if coalesces stream data then 1 else 0)
      ((t.setStream streamId (appendData stream data)).note (.accepted streamId data)) := by
  obtain ⟨hunsent, hlength⟩ := appendData_eq stream data
  have hok := h.ok streamId stream hfind
  set new := appendData stream data with hnew
  have hlookup : ∀ id other, (t.streams.insert streamId new).find id = some other →
      id = streamId ∧ other = new ∨ id ≠ streamId ∧ t.streams.find id = some other := by
    intro id other hid
    rw [OrdMap.find_insert] at hid
    split_ifs at hid with hsame
    · exact Or.inl ⟨hsame, (Option.some.inj hid).symm⟩
    · exact Or.inr ⟨hsame, hid⟩
  have hpending : new.pendingBytes = stream.pendingBytes + data.length := rfl
  have hbytes := h.bytes_eq
  have hitems := h.items_eq
  unfold Transport.setStream Transport.note
  refine { h with ok := ?_, flows := ?_, written := ?_, bytes_eq := ?_, items_eq := ?_, ready := ?_ }
  · intro id other hid
    rcases hlookup id other hid with ⟨rfl, rfl⟩ | ⟨-, hid⟩
    · refine ⟨?_, appendData_offset hok hdata⟩
      rw [hpending, hok.bytes, hunsent, List.length_append]
      omega
    · exact h.ok id other hid
  · intro id other hid
    show acceptedData id (t.log ++ [.accepted streamId data]) =
      writtenData id (t.log ++ [.accepted streamId data]) ++ unsent other
    rw [acceptedData_accepted, writtenData_accepted]
    rcases hlookup id other hid with ⟨rfl, rfl⟩ | ⟨hne, hid⟩
    · rw [if_pos rfl, hunsent, ← List.append_assoc, h.flows id stream hfind]
    · rw [if_neg hne.symm]
      exact h.flows id other hid
  · intro id
    show writtenData id (t.log ++ [.accepted streamId data]) <+: acceptedData id (t.log ++ [.accepted streamId data])
    rw [acceptedData_accepted, writtenData_accepted]
    split_ifs
    · exact (h.written id).trans (List.prefix_append _ _)
    · exact h.written id
  · have hsum := OrdMap.sum_insert_of_find hfind Stream.pendingBytes new
    show t.ownerPendingBytes = (t.queue.map Call.bytes).sum +
      (t.streams.insert streamId new).sum Stream.pendingBytes + bytes
    omega
  · have hsum := OrdMap.sum_insert_of_find hfind (fun stream => (stream.pending.length : ℤ)) new
    show t.ownerPendingItems = (t.queue.map Call.items).sum +
      (t.streams.insert streamId new).sum (fun stream => (stream.pending.length : ℤ)) +
        (items + if coalesces stream data then 1 else 0)
    split_ifs at hlength ⊢
    · omega
    · omega
  · intro id other hid hopened hwindow hnonempty
    rcases hlookup id other hid with ⟨rfl, -⟩ | ⟨-, hid⟩
    · exact Or.inr rfl
    · exact (h.ready id other hid hopened hwindow hnonempty).imp_right fun hnone => by cases hnone

/-- **A stream sends data**, which was reserved. -/
theorem sendData {data : List UInt8} (h : Kept none (bytes + data.length) (items + 1) t) (hdata : data ≠ [])
    (streamId : ℕ) : Kept none bytes items (sendData t streamId data) := by
  have hreleased : Kept none bytes items (t.releaseOwner data.length 1) := by
    have hpaid := h.releaseOwner data.length 1
    rwa [Int.add_sub_cancel, Int.add_sub_cancel] at hpaid
  unfold WebProxy.sendData
  cases hfind : t.streams.find streamId with
  | none =>
    dsimp only
    rw [if_neg hdata]
    exact hreleased
  | some stream =>
    dsimp only
    rw [if_neg hdata]
    split
    · exact (hreleased.dropStream hfind).note (.failed streamId) trivial
    · have haccepted := h.acceptData hfind hdata
      refine (markStreamReady ?_).flushStreams
      split_ifs at haccepted ⊢
      · have hpaid := haccepted.releaseOwner 0 1
        rwa [Int.sub_zero, Int.add_sub_cancel] at hpaid
      · rwa [Int.add_zero] at haccepted

/-- A window is sent. -/
lemma sendWindow (h : Kept none bytes items t) {streamId : ℕ} {old stream : Stream}
    (hfind : t.streams.find streamId = some old) (hpending : stream.pending = old.pending)
    (hbytes : stream.pendingBytes = old.pendingBytes) (hwindow : stream.sendWindow = old.sendWindow)
    (hopened : stream.opened = old.opened) : Kept none bytes items (sendWindow t streamId stream) := by
  have hset : Kept none bytes items (t.setStream streamId { stream with pendingWindow := 0 }) := by
    refine h.setStream _ hfind hpending hbytes fun hopen hpositive hnonempty => ?_
    exact h.ready streamId old hfind (hopened ▸ hopen) (hwindow ▸ hpositive) (hpending ▸ hnonempty)
  exact hset.sendFrame (by decide) streamId _

theorem grantWindow (h : Kept none bytes items t) (streamId amount : ℕ) :
    Kept none bytes items (grantWindow t streamId amount) := by
  unfold WebProxy.grantWindow
  cases hfind : t.streams.find streamId with
  | none => exact h
  | some stream =>
    dsimp only
    split_ifs
    · exact h
    · exact h.protocolError false
    · exact h.sendWindow hfind rfl rfl rfl rfl
    · exact h.setStream _ hfind rfl rfl (h.ready streamId stream hfind)

theorem flushWindows (h : Kept none bytes items t) : Kept none bytes items (flushWindows t) := by
  refine h.foldStreams fun t entry ht hfind => ?_
  split_ifs
  · refine ⟨ht.sendWindow hfind rfl rfl rfl rfl, fun id hid => ?_⟩
    unfold WebProxy.sendWindow
    rw [sendFrame_streams]
    exact OrdMap.find_insert_of_ne hid _ _
  · exact ⟨ht, fun _ _ => rfl⟩

/-! ### What the relay says -/

theorem welcome (h : Kept none bytes items t) (atOnce : Bool) : Kept none bytes items (welcome t atOnce) := by
  unfold WebProxy.welcome
  split
  · exact h.protocolError atOnce
  · have hconnected : Kept none bytes items { t with welcomed := true, state := .connected } := { h with }
    refine flushStreams (hconnected.foldStreams fun t entry ht hfind => ?_)
    refine ⟨(ht.openStream hfind).markStreamReady, fun id hid => ?_⟩
    rw [markStreamReady_streams, openStream_streams]
    exact OrdMap.find_insert_of_ne hid _ _

/-- A frame about a stream that is open. -/
lemma openStreamFrame (h : Kept none bytes items t) {frame : Frame} {stream : Stream}
    (hfind : t.streams.find frame.streamId = some stream) :
    Kept none bytes items (openStreamFrame t stream frame).1 := by
  unfold WebProxy.openStreamFrame
  cases frame.type with
  | data =>
    dsimp only
    split
    · exact h
    · exact (h.setStream { stream with receiveWindow := stream.receiveWindow - frame.payload.length }
        hfind rfl rfl (h.ready _ stream hfind)).note (.data _ _) trivial
  | window =>
    dsimp only
    split
    · exact h
    · have hset := (h.missing_some frame.streamId).setStream
        { stream with sendWindow := min (stream.sendWindow + readWindow frame.payload) kMaxWindow }
        hfind rfl rfl fun _ _ _ => Or.inr rfl
      exact hset.markStreamReady.flushStreams
  | close =>
    dsimp only
    split
    · exact h
    · refine ((h.rememberClosedStream _).removeStream ?_).note (.disconnected _) trivial
      rw [rememberClosedStream_streams]
      exact hfind
  | _ => exact h

lemma carrierFrame (h : Kept none bytes items t) (frame : Frame) (atOnce : Bool) :
    Kept none bytes items (carrierFrame t frame atOnce).1 := by
  have hlost : Kept none bytes items (if t.webviewGeneration ≠ 0 then
      WebProxy.webviewFailed t t.webviewGeneration else WebProxy.loseBrowser t true) := by
    split_ifs
    · exact h.webviewFailed _
    · exact h.loseBrowser true
  unfold WebProxy.carrierFrame
  cases frame.type with
  | welcome =>
    dsimp only
    split
    · exact h
    · exact h.welcome atOnce
  | ping =>
    dsimp only
    split
    · exact h
    · exact h.sendFrame (by decide) 0 frame.payload
  | bye =>
    dsimp only
    generalize (if t.webviewGeneration ≠ 0 then WebProxy.webviewFailed t t.webviewGeneration
      else WebProxy.loseBrowser t true) = lost at hlost
    split
    · exact hlost.closeWebSocket atOnce
    · exact hlost
  | _ => exact h

/-- **The relay says something.** -/
theorem processRelayFrame (h : Kept none bytes items t) (frame : Frame) (atOnce : Bool) :
    Kept none bytes items (processRelayFrame t frame atOnce).1 := by
  unfold WebProxy.processRelayFrame
  split
  · exact h
  split
  · exact h.carrierFrame frame atOnce
  cases hfind : t.streams.find frame.streamId with
  | none =>
    dsimp only
    split <;> exact h
  | some stream =>
    dsimp only
    split
    · exact h
    · exact h.openStreamFrame hfind

lemma processRelayFrames (h : Kept none bytes items t) (atOnce : Bool) (frames : List Frame) :
    Kept none bytes items (processRelayFrames atOnce t frames) := by
  induction frames generalizing t with
  | nil => exact h
  | cons frame rest ih =>
    unfold WebProxy.processRelayFrames
    dsimp only
    split
    · exact ih (h.processRelayFrame frame atOnce)
    · exact (h.processRelayFrame frame atOnce).protocolError atOnce

theorem processRelayPayload (h : Kept none bytes items t) (payload : List UInt8) (atOnce : Bool) :
    Kept none bytes items (processRelayPayload t payload atOnce) := by
  unfold WebProxy.processRelayPayload
  cases parseFrames payload [] with
  | none => exact h.protocolError atOnce
  | some parsed =>
    dsimp only
    split
    · exact h.protocolError atOnce
    · exact h.processRelayFrames atOnce _

/-! ### The owner -/

lemma deactivate (h : Kept none bytes items t) : Kept none bytes items (deactivate t) := by
  have hclosed := h.closeAllStreams false
  unfold WebProxy.deactivate
  exact { hclosed.reset (by rw [closeAllStreams_eq]) with }

lemma authenticateBrowser (h : Kept none bytes items t) (socket : ℕ) (bytesToWrite bridgeControl : ℤ)
    (atOnce : Bool) : Kept none bytes items (authenticateBrowser t socket bytesToWrite bridgeControl atOnce) := by
  have hold : Kept none bytes items (if t.browserSocket.isSome ∧ t.browserSocket ≠ some socket then
      WebProxy.closeWebSocket (WebProxy.closeAllStreams t false) atOnce else t) := by
    split_ifs
    · exact (h.closeAllStreams false).closeWebSocket atOnce
    · exact h
  unfold WebProxy.authenticateBrowser
  split
  · exact h
  · dsimp only
    generalize (if t.browserSocket.isSome ∧ t.browserSocket ≠ some socket then
      WebProxy.closeWebSocket (WebProxy.closeAllStreams t false) atOnce else t) = old at hold
    refine sendFrame ?_ (by decide) 0 [1]
    unfold writeWebSocket
    split
    · exact { hold with control := fun frame hframe => absurd hframe List.not_mem_nil }
    · exact { hold with control := fun frame hframe => absurd hframe List.not_mem_nil }

lemma browserBytesWritten (h : Kept none bytes items t) (written : ℤ) :
    Kept none bytes items (browserBytesWritten t written) := by
  unfold WebProxy.browserBytesWritten
  split
  · have hwritten : Kept none bytes items { t with bytesToWrite := t.bytesToWrite - written } := { h with }
    exact hwritten.flushControlFrames.flushStreams
  · exact h

lemma webviewStarting (h : Kept none bytes items t) (generation : ℕ) :
    Kept none bytes items (webviewStarting t generation) := by
  unfold WebProxy.webviewStarting
  dsimp only
  split_ifs
  · exact h
  · exact { h with }
  · exact { h with }

lemma webviewReady (h : Kept none bytes items t) (generation : ℕ) :
    Kept none bytes items (webviewReady t generation) := by
  have hstarted : Kept none bytes items { t with webviewCandidateGeneration := 0 } := { h with }
  have hreplaced : Kept none bytes items (if t.browserSocket.isSome && t.welcomed then
      WebProxy.closeAllStreams { t with webviewCandidateGeneration := 0 } false
      else { t with webviewCandidateGeneration := 0 }) := by
    split_ifs
    · exact hstarted.closeAllStreams false
    · exact hstarted
  unfold WebProxy.webviewReady
  split
  · exact h
  · dsimp only
    generalize (if t.browserSocket.isSome && t.welcomed then
      WebProxy.closeAllStreams { t with webviewCandidateGeneration := 0 } false
      else { t with webviewCandidateGeneration := 0 }) = old at hreplaced
    have hadopted : Kept none bytes items { old with
        browserSocket := none
        browserWriteFailed := false
        controlFrames := []
        controlBytes := 0
        welcomed := false
        webviewGeneration := generation
        webviewPendingBytes := 0
        webviewPendingItems := 0 } :=
      { hreplaced with control := fun frame hframe => absurd hframe List.not_mem_nil }
    exact hadopted.welcome false

lemma webviewWritten (h : Kept none bytes items t) (generation : ℕ) (written : ℤ) :
    Kept none bytes items (webviewWritten t generation written) := by
  unfold WebProxy.webviewWritten
  split
  · exact h
  split
  · exact h.protocolError false
  · have hwritten : Kept none bytes items { t with
        webviewPendingBytes := t.webviewPendingBytes - written
        webviewPendingItems := t.webviewPendingItems - 1 } := { h with }
    exact hwritten.flushControlFrames.flushStreams

/-- A call is queued, with the budget that was reserved for it. -/
lemma enqueue {call : Call} (hdata : ∀ streamId, call ≠ .sendData streamId [])
    (h : Kept none call.bytes call.items t) : Kept none 0 0 (enqueue t call) := by
  have hbytes := h.bytes_eq
  have hitems := h.items_eq
  unfold WebProxy.enqueue
  refine { h with bytes_eq := ?_, items_eq := ?_, queued := fun streamId hmem => ?_ }
  · rw [List.map_append, List.sum_append, List.map_singleton, List.sum_singleton]
    show t.ownerPendingBytes = (t.queue.map Call.bytes).sum + call.bytes + t.streams.sum Stream.pendingBytes + 0
    omega
  · rw [List.map_append, List.sum_append, List.map_singleton, List.sum_singleton]
    show t.ownerPendingItems = (t.queue.map Call.items).sum + call.items +
      t.streams.sum (fun stream => (stream.pending.length : ℤ)) + 0
    omega
  · rcases List.mem_append.mp hmem with hmem | hmem
    · exact h.queued streamId hmem
    · exact hdata streamId (List.mem_singleton.mp hmem).symm

lemma reservePending (h : Kept none 0 0 t) {reserved : ℤ} {t' : Transport}
    (ht : reservePending t reserved = some t') : Kept none reserved 1 t' := by
  have hbytes := h.bytes_eq
  have hitems := h.items_eq
  unfold WebProxy.reservePending at ht
  split at ht
  · cases ht
  · cases ht
    refine { h with bytes_eq := ?_, items_eq := ?_ }
    · show t.ownerPendingBytes + reserved =
        (t.queue.map Call.bytes).sum + t.streams.sum Stream.pendingBytes + reserved
      omega
    · show t.ownerPendingItems + 1 = (t.queue.map Call.items).sum +
        t.streams.sum (fun stream => (stream.pending.length : ℤ)) + 1
      omega

/-- **The owner is asked.** -/
theorem ask (h : Kept none 0 0 t) (call : Call) : Kept none 0 0 (ask t call) := by
  unfold WebProxy.ask
  cases call with
  | sendData streamId data =>
    dsimp only
    split
    · exact h
    · rename_i hdata
      cases hreserved : WebProxy.reservePending t data.length with
      | none => exact h.failStream streamId
      | some t' =>
        refine enqueue (fun other hsame => hdata ?_) (h.reservePending hreserved)
        cases hsame
        rfl
  | webviewPayload generation payload =>
    dsimp only
    split
    · refine enqueue (fun streamId hsame => ?_) h
      cases hsame
    · cases hreserved : WebProxy.reservePending t payload.length with
      | none =>
        refine enqueue (fun streamId hsame => ?_) h
        cases hsame
      | some t' =>
        refine enqueue (fun streamId hsame => ?_) (h.reservePending hreserved)
        cases hsame
  | _ =>
    refine enqueue (fun streamId hsame => ?_) h
    cases hsame

/-- **A call is made**, with the budget that was reserved for it. -/
theorem call {asked : Call} (h : Kept none asked.bytes asked.items t)
    (hdata : ∀ streamId, asked ≠ .sendData streamId []) : Kept none 0 0 (WebProxy.call t asked) := by
  cases asked with
  | registerStream streamId => exact h.registerStream streamId
  | sendData streamId data =>
    have hheld : Kept none (0 + data.length) (0 + 1) t := by
      rw [Int.zero_add, Int.zero_add]
      exact h
    exact hheld.sendData (fun hempty => hdata streamId (hempty ▸ rfl)) streamId
  | grantWindow streamId amount => exact h.grantWindow streamId amount
  | webviewStarting generation => exact h.webviewStarting generation
  | webviewReady generation => exact h.webviewReady generation
  | webviewPayload generation payload =>
    have hprocessed : Kept none payload.length 1 (WebProxy.webviewPayload t generation payload) := by
      unfold WebProxy.webviewPayload
      split
      · exact Kept.processRelayPayload h payload false
      · exact h
    have hpaid := hprocessed.releaseOwner payload.length 1
    rwa [Int.sub_self, Int.sub_self] at hpaid
  | webviewWritten generation written => exact h.webviewWritten generation written
  | webviewFailed generation => exact h.webviewFailed generation
  | webviewUnavailable =>
    show Kept none 0 0 (webviewUnavailable t)
    unfold webviewUnavailable
    split
    · exact h
    · exact { h with }

/-- **The first call of the queue is made.** -/
theorem callNext (h : Kept none 0 0 t) : Kept none 0 0 (callNext t) := by
  unfold WebProxy.callNext
  cases hqueue : t.queue with
  | nil => exact h
  | cons first rest =>
    have hbytes := h.bytes_eq
    have hitems := h.items_eq
    have hqueued := h.queued
    rw [hqueue] at hbytes hitems hqueued
    rw [List.map_cons, List.sum_cons] at hbytes hitems
    have hheld : Kept none first.bytes first.items { t with queue := rest } := by
      refine { h with bytes_eq := ?_, items_eq := ?_, queued := fun streamId hmem => ?_ }
      · show t.ownerPendingBytes = (rest.map Call.bytes).sum + t.streams.sum Stream.pendingBytes + first.bytes
        omega
      · show t.ownerPendingItems = (rest.map Call.items).sum +
          t.streams.sum (fun stream => (stream.pending.length : ℤ)) + first.items
        omega
      · exact hqueued streamId (List.mem_cons_of_mem _ hmem)
    exact hheld.call fun streamId hsame => hqueued streamId (hsame ▸ List.mem_cons_self)

theorem step (h : Kept none 0 0 t) (next : Step) : Kept none 0 0 (step t next) := by
  cases next with
  | ask call => exact h.ask call
  | callNext => exact h.callNext
  | closeStream streamId => exact h.closeStream streamId
  | configure proxy =>
    show Kept none 0 0 (configure t proxy)
    unfold configure
    split
    · exact h
    · exact { h.deactivate with }
  | deactivate => exact h.deactivate
  | authenticateBrowser socket bytesToWrite bridgeControl atOnce =>
    exact h.authenticateBrowser socket bytesToWrite bridgeControl atOnce
  | browserFailed atOnce =>
    show Kept none 0 0 (browserFailed t atOnce)
    unfold browserFailed
    split
    · exact (h.loseBrowser true).closeWebSocket atOnce
    · exact h
  | browserPayload payload atOnce =>
    show Kept none 0 0 (if t.browserSocket.isSome then WebProxy.processRelayPayload t payload atOnce else t)
    split
    · exact h.processRelayPayload payload atOnce
    · exact h
  | browserBytesWritten written => exact h.browserBytesWritten written
  | closeBrowser atOnce =>
    show Kept none 0 0 (if t.browserSocket.isSome then WebProxy.closeWebSocket t atOnce else t)
    split
    · exact h.closeWebSocket atOnce
    · exact h
  | clientDisconnected => exact h.clientDisconnected
  | flushWindows => exact h.flushWindows
  | giveUp atOnce =>
    show Kept none 0 0 (if carrierAvailable t then WebProxy.protocolError t atOnce else t)
    split
    · exact h.protocolError atOnce
    · exact h

end Kept

/-! ### Runs -/

lemma kept_start : Kept none 0 0 {} where
  ok := fun _ _ hid => by cases hid
  flows := fun _ _ hid => by cases hid
  written := fun _ => List.prefix_refl _
  bytes_eq := rfl
  items_eq := rfl
  queued := fun _ => List.not_mem_nil
  control := fun _ hframe => absurd hframe List.not_mem_nil
  listed := fun _ hid => absurd hid (Finset.notMem_empty _)
  ready := fun _ _ hid => by cases hid

/-- **Every state of a run keeps the invariant.** -/
theorem Reachable.kept {t : Transport} (h : Reachable t) : Kept none 0 0 t := by
  induction h with
  | start => exact kept_start
  | step next _ ih => exact ih.step next

/-- What a call that waits has reserved is not negative. -/
lemma Call.reserved_nonneg (call : Call) : 0 ≤ call.bytes ∧ 0 ≤ call.items := by
  cases call with
  | sendData streamId data => exact ⟨Int.natCast_nonneg _, Int.one_nonneg⟩
  | webviewPayload generation payload => exact ⟨Int.natCast_nonneg _, Int.one_nonneg⟩
  | _ => exact ⟨le_rfl, le_rfl⟩

/-- What holds of the streams of a transport in every state. -/
structure Faithful (t : Transport) : Prop where
  /-- What was written of a stream is a prefix of what was accepted. -/
  written : ∀ streamId, writtenData streamId t.log <+: acceptedData streamId t.log
  pendingBytes : ∀ streamId stream, t.streams.find streamId = some stream →
    stream.pendingBytes = (unsent stream).length
  ownerBytes : t.ownerPendingBytes = (t.queue.map Call.bytes).sum + t.streams.sum Stream.pendingBytes ∧
    0 ≤ t.ownerPendingBytes
  ownerItems : t.ownerPendingItems = (t.queue.map Call.items).sum +
    t.streams.sum (fun stream => (stream.pending.length : ℤ)) ∧ 0 ≤ t.ownerPendingItems
  ready : ∀ streamId stream, t.streams.find streamId = some stream → stream.opened = true →
    0 < stream.sendWindow → stream.pending ≠ [] → streamId ∈ t.readySet ∧ streamId ∈ t.readyStreams

/-- **No data is lost, duplicated or reordered, and no stream is forgotten.**

**Proof sketch.** The states of a run keep the invariant, which says of every stream that what it has
accepted is what it has written and what waits; the rest of it is what is claimed. -/
theorem reachable_streams {t : Transport} (h : Reachable t) : Faithful t := by
  have hkept := h.kept
  have hbytes := hkept.bytes_eq
  have hitems := hkept.items_eq
  have hqueueBytes : 0 ≤ (t.queue.map Call.bytes).sum := by
    refine List.sum_nonneg fun reserved hmem => ?_
    obtain ⟨call, -, rfl⟩ := List.mem_map.mp hmem
    exact call.reserved_nonneg.1
  have hqueueItems : 0 ≤ (t.queue.map Call.items).sum := by
    refine List.sum_nonneg fun reserved hmem => ?_
    obtain ⟨call, -, rfl⟩ := List.mem_map.mp hmem
    exact call.reserved_nonneg.2
  have hstreamBytes : 0 ≤ t.streams.sum Stream.pendingBytes :=
    OrdMap.sum_nonneg fun streamId stream hfind => by
      rw [(hkept.ok streamId stream hfind).bytes]
      exact Int.natCast_nonneg _
  have hstreamItems : 0 ≤ t.streams.sum (fun stream => (stream.pending.length : ℤ)) :=
    OrdMap.sum_nonneg fun _ _ _ => Int.natCast_nonneg _
  exact
    { written := hkept.written
      pendingBytes := fun streamId stream hfind => (hkept.ok streamId stream hfind).bytes
      ownerBytes := ⟨by omega, by omega⟩
      ownerItems := ⟨by omega, by omega⟩
      ready := fun streamId stream hfind hopened hwindow hnonempty => by
        have hready := hkept.ready streamId stream hfind hopened hwindow.ne' hnonempty
        have hin := hready.resolve_right fun hnone => by cases hnone
        exact ⟨hin, hkept.listed streamId hin⟩ }

lemma reachable_foldl (steps : List Step) {t : Transport} (h : Reachable t) : Reachable (steps.foldl step t) := by
  induction steps generalizing t with
  | nil => exact h
  | cons next rest ih => exact ih (h.step next)

/-- A web view is ready, a stream is registered, and writes a part of its data. -/
def firstBytes : Transport :=
  [.configure 1, .ask (.webviewStarting 1), .callNext, .ask (.webviewReady 1), .callNext,
    .ask (.registerStream 5), .callNext, .ask (.sendData 5 [1, 2]), .callNext,
    .ask (.sendData 5 [3])].foldl step {}

theorem firstBytes_faithful : writtenData 5 firstBytes.log = [1, 2] ∧ firstBytes.ownerPendingBytes = 1 ∧
    Faithful firstBytes :=
  ⟨by decide +kernel, by decide +kernel, reachable_streams (reachable_foldl _ .start)⟩

end WebProxy
