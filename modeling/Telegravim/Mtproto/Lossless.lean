import Telegravim.Mtproto.Sending

set_option autoImplicit false

/-!
# MTProto sessions lose nothing

In every state of every run of a session, a request that needs an acknowledgement and is neither cancelled
nor acknowledged is in one of the queues and in one only, and an answer finds the request that was sent
under its message id.

Of the ids that were acknowledged only the largest `kIdsBufferSize` are remembered. An answer is looked up
after its id was added to them, so what is said of answers is said of ids that have fewer larger ones.

## Main definitions

* `Mtproto.Lossless` — what holds in every state.

## Main results

* `Mtproto.Reachable.good` — every state of a run keeps the invariant.
* `Mtproto.reachable_lossless` — no request is lost, and none is in two places.
-/

namespace Mtproto

variable {ids : MsgIds}

/-! ### Runs -/

theorem Good.step {s : Session} (h : Good ids s) {next : Step} (hallowed : Allowed s next) :
    Good ids (step ids s next) := by
  cases next with
  | sendPrepared data => exact (h.sound.sendPrepared hallowed.1 hallowed.2.1 hallowed.2.2).good
  | cancel request known => exact (h.sound.cancel request known).good
  | tryToSend context => exact tryToSend_keeps h context
  | requestsAcked hasCallback msgIds byResponse =>
    exact (h.sound.requestsAcked hasCallback msgIds byResponse).good
  | msgsStates hasCallback now msgIds states =>
    exact (h.sound.handleMsgsStates hasCallback now msgIds states).good
  | resend now msgId => exact (h.sound.resend now msgId).good
  | resendAll now => exact (h.sound.resendAll now).good
  | clearOldContainers now => exact (h.sound.clearOldContainers now).good
  | checkSentRequests now => exact (h.sound.checkSentRequests now).good
  | rpcResult hasCallback keyCreator result => exact (h.sound.handleRpcResult hasCallback keyCreator result).good
  | newSession now firstMsgId outerMsgId update =>
    exact (h.sound.handleNewSession now firstMsgId outerMsgId update).good
  | resetSession => exact h.sound.resetSession.good
  | queue acks resends pingIdToSend => exact (h.sound.queue acks resends pingIdToSend).good

/-- A session that was not used. -/
lemma good_start : Good ids {} where
  fresh := fun _ _ => ⟨rfl, rfl⟩
  lt := fun _ => ids.pos 0
  requestId_lt := fun _ => Nat.two_pow_pos 31
  msgId_inj := fun _ _ h _ => absurd rfl h
  requestId_inj := fun _ _ h _ => absurd rfl h
  waits := fun _ _ h => by cases h
  sent := fun _ _ h => by cases h
  resending := fun _ _ h => by cases h
  resendingWaits := fun _ _ h => by cases h
  acked := fun _ _ h => by cases h
  service := by
    rintro m (hm | hm | hm | hm) hm0
    · exact absurd hm hm0
    · exact absurd hm hm0
    · cases hm
    · cases hm
  given := fun _ h => absurd h List.not_mem_nil
  givenAck := fun _ h => absurd h List.not_mem_nil
  dropped := rfl
  under := fun _ h => absurd rfl h
  above := fun _ _ h => absurd h List.not_mem_nil

/-- **Every state of a run keeps the invariant.** -/
theorem Reachable.good {s : Session} (h : Reachable ids s) : Good ids s := by
  induction h with
  | start => exact good_start
  | step next _ hallowed ih => exact ih.step hallowed

/-! ### Answers -/

lemma find_foldl_erase_of_not_mem {keys : List ℕ} {key : ℕ} (h : key ∉ keys) (entries : OrdMap ℕ ℕ) :
    (keys.foldl OrdMap.erase entries).find key = entries.find key := by
  induction keys generalizing entries with
  | nil => rfl
  | cons first rest ih =>
    rw [List.mem_cons, not_or] at h
    rw [List.foldl_cons, ih h.2, OrdMap.find_erase, if_neg h.1]

/-- The ids that are remembered as acknowledged and are larger than one. -/
def largerAcked (ackedIds : OrdMap ℕ ℕ) (msgId : ℕ) : ℕ := (ackedIds.keys.filter (msgId < ·)).length

/-- **An id is not forgotten while few larger ones are remembered.** -/
lemma find_trimAcked {ackedIds : OrdMap ℕ ℕ} {msgId : ℕ} (h : largerAcked ackedIds msgId < kIdsBufferSize) :
    (trimAcked ackedIds).find msgId = ackedIds.find msgId := by
  refine find_foldl_erase_of_not_mem (fun hmem => ?_) ackedIds
  set forgotten := ackedIds.entries.length - kIdsBufferSize with hforgotten
  have hsorted : ackedIds.keys.Pairwise (· < ·) := List.pairwise_map.mpr ackedIds.sorted
  rw [← List.take_append_drop forgotten ackedIds.keys, List.pairwise_append] at hsorted
  have hlarger : (ackedIds.keys.drop forgotten).filter (msgId < ·) = ackedIds.keys.drop forgotten :=
    List.filter_eq_self.mpr fun other hother => decide_eq_true (hsorted.2.2 msgId hmem other hother)
  have hle : (ackedIds.keys.drop forgotten).length ≤ largerAcked ackedIds msgId := by
    rw [← hlarger]
    exact ((List.drop_sublist forgotten ackedIds.keys).filter _).length_le
  have hlength : ackedIds.keys.length = ackedIds.entries.length := List.length_map _
  have hpos : 0 < forgotten := by
    rcases Nat.eq_zero_or_pos forgotten with hzero | hpos
    · rw [hzero, List.take_zero] at hmem
      exact absurd hmem List.not_mem_nil
    · exact hpos
  rw [List.length_drop] at hle
  omega

/-- An id is not larger than itself. -/
lemma largerAcked_emplace (ackedIds : OrdMap ℕ ℕ) (msgId requestId : ℕ) :
    largerAcked (ackedIds.emplace msgId requestId) msgId = largerAcked ackedIds msgId := by
  unfold largerAcked OrdMap.emplace
  split_ifs with hcontains
  · rfl
  · have hnone := OrdMap.contains_eq_false_iff.mp (Bool.eq_false_iff.mpr hcontains)
    have hperm := (OrdMap.entries_insert_perm hnone requestId).map Prod.fst
    have hlength := (hperm.filter (msgId < ·)).length_eq
    unfold OrdMap.keys
    rw [hlength, List.map_cons, List.filter_cons_of_neg (by simp)]

/-- A request is no service message. -/
lemma Inv.not_isService {bound : ℕ} {waiting : OrdMap ℕ ℕ} {s : Session} (h : Inv bound waiting s)
    {r : ℕ} (hmsgId : (s.requests r).msgId ≠ 0) (hrequestId : (s.requests r).requestId ≠ 0) :
    ¬IsService s (s.requests r).msgId := by
  intro hservice
  obtain ⟨r', hmsg, hreq⟩ := h.service _ hservice hmsgId
  rw [h.msgId_inj r r' hmsgId hmsg] at hreq
  exact hrequestId hreq

/-- What was acknowledged was sent. -/
lemma Inv.wasSent_of_acked {bound : ℕ} {waiting : OrdMap ℕ ℕ} {s : Session} (h : Inv bound waiting s)
    {msgId requestId : ℕ} (hacked : s.ackedIds.find msgId = some requestId) :
    wasSent s msgId = requestId ∧ msgId ≠ s.bindMsgId ∧ requestId ≠ 0 ∧ requestId ≠ kServiceRequest ∧
      s.log.sentUnder.find msgId = some requestId := by
  obtain ⟨-, hresending, -, r, hm, hq, hmsg, hreq⟩ := h.acked msgId requestId hacked
  have hservice := h.not_isService (hmsg.symm ▸ hm) (hreq.symm ▸ hq)
  have hunder := h.under r (hmsg.symm ▸ hm) (hreq.symm ▸ hq)
  have hlt := h.requestId_lt r
  rw [hmsg] at hservice hunder
  rw [hreq] at hunder hlt
  have hspecial : ¬(msgId = s.pingMsgId ∨ msgId = s.bindMsgId) := fun hspecial =>
    hservice (hspecial.elim Or.inl fun hbind => Or.inr (Or.inl hbind))
  refine ⟨?_, fun hbind => hspecial (Or.inr hbind), hq, ?_, hunder⟩
  · unfold wasSent
    rw [if_neg hspecial, hresending, hacked]
  · unfold kServiceRequest
    omega

/-- **An answer acknowledges its request**, which is then remembered under the id that was answered. -/
lemma requestsAcked_answer {s : Session} (h : Good ids s) (hasCallback : ℕ → Bool) {msgId : ℕ}
    (hsent : (∃ r, s.haveSent.find msgId = some r) ∨
      ∃ q, s.resendingIds.find msgId = some q ∧ q ∉ s.log.cancelled)
    (hfew : largerAcked s.ackedIds msgId < kIdsBufferSize) :
    (requestsAcked hasCallback s [msgId] true).haveReceived = s.haveReceived ∧
      (requestsAcked hasCallback s [msgId] true).log.sentUnder = s.log.sentUnder ∧
      ∃ q, (requestsAcked hasCallback s [msgId] true).ackedIds.find msgId = some q := by
  -- the id belongs to a request, so it is none of a container or of a request about states
  have hnot : s.sentContainers.find msgId = none ∧ s.stateAndResendRequests.contains msgId = false := by
    obtain ⟨r, hmsg, hm, hq⟩ : ∃ r, (s.requests r).msgId = msgId ∧ msgId ≠ 0 ∧
        (s.requests r).requestId ≠ 0 := by
      rcases hsent with ⟨r, hr⟩ | ⟨q, hq, -⟩
      · obtain ⟨hm, hmsg, hreq, -⟩ := h.sent msgId r hr
        exact ⟨r, hmsg, hm, hreq⟩
      · obtain ⟨-, r, hm, hq0, hmsg, hreq⟩ := h.resending msgId q hq
        exact ⟨r, hmsg, hm, hreq.symm ▸ hq0⟩
    have hservice := h.not_isService (hmsg.symm ▸ hm) hq
    rw [hmsg] at hservice
    exact ⟨OrdMap.contains_eq_false_iff.mp (Bool.eq_false_iff.mpr fun hin =>
      hservice (Or.inr (Or.inr (Or.inl hin)))), Bool.eq_false_iff.mpr fun hin =>
      hservice (Or.inr (Or.inr (Or.inr hin)))⟩
  have hacked : ∃ acked q, ackOne hasCallback true (s, []) msgId = (acked, []) ∧
      acked.haveReceived = s.haveReceived ∧ acked.log.sentUnder = s.log.sentUnder ∧
      acked.ackedIds = s.ackedIds.emplace msgId q := by
    unfold ackOne
    dsimp only
    rw [hnot.1, hnot.2]
    dsimp only
    rw [if_neg Bool.false_ne_true]
    rcases hsent with ⟨r, hr⟩ | ⟨q, hq, hcancelled⟩
    · rw [hr]
      exact ⟨_, _, rfl, rfl, rfl, rfl⟩
    · obtain ⟨r, hr⟩ := (h.resendingWaits msgId q hq).resolve_left hcancelled
      rw [(h.resending msgId q hq).1, hq]
      dsimp only
      rw [hr]
      exact ⟨_, _, rfl, rfl, rfl, rfl⟩
  obtain ⟨acked, q, heq, hreceived, hunder, hackedIds⟩ := hacked
  have hresult : requestsAcked hasCallback s [msgId] true =
      { acked with ackedIds := trimAcked acked.ackedIds } := by
    unfold requestsAcked ackDepth
    rw [List.foldl_cons, List.foldl_nil, heq]
    exact if_pos rfl
  have hfew' : largerAcked (s.ackedIds.emplace msgId q) msgId < kIdsBufferSize := by
    rw [largerAcked_emplace]
    exact hfew
  have hfind : (trimAcked acked.ackedIds).find msgId = some ((s.ackedIds.find msgId).getD q) := by
    rw [hackedIds, find_trimAcked hfew', OrdMap.find_emplace, if_pos rfl]
  rw [hresult]
  refine ⟨hreceived, hunder, (s.ackedIds.find msgId).getD q, ?_⟩
  dsimp only
  exact hfind

/-- **An answer is queued for the request that was last sent under its id.** -/
theorem Good.rpcResult_queued {s : Session} (h : Good ids s) (hasCallback : ℕ → Bool) (keyCreator : Bool)
    {result : RpcResult} (hkey : result.destroyedTemporaryKey = false)
    (hsent : (∃ r, s.haveSent.find result.requestMsgId = some r) ∨
      ∃ q, s.resendingIds.find result.requestMsgId = some q ∧ q ∉ s.log.cancelled)
    (hfew : largerAcked s.ackedIds result.requestMsgId < kIdsBufferSize) :
    ∃ requestId, s.log.sentUnder.find result.requestMsgId = some requestId ∧
      (handleRpcResult hasCallback keyCreator s result).haveReceived =
        s.haveReceived ++ [⟨result.reply, result.outerMsgId, requestId⟩] := by
  obtain ⟨hreceived, hunder, q, hq⟩ := requestsAcked_answer h hasCallback hsent hfew
  have hkept := (h.sound.requestsAcked hasCallback [result.requestMsgId] true).good
  obtain ⟨hwas, hbind, hq0, hqs, hlast⟩ := hkept.wasSent_of_acked hq
  refine ⟨q, hunder ▸ hlast, ?_⟩
  unfold handleRpcResult
  rw [hkey]
  dsimp only
  rw [if_neg Bool.false_ne_true, if_neg fun hcreator => hbind hcreator.2.2.symm, hwas,
    if_pos ⟨hq0, hqs⟩]
  dsimp only
  rw [hreceived]

/-! ### The queues -/

/-- A request waits to be sent. -/
def Waits (s : Session) (requestId : ℕ) : Prop :=
  ∃ request, s.toSend.find requestId = some request ∧ (s.requests request).requestId = requestId

/-- A request was sent under a message id. -/
def SentUnder (s : Session) (requestId msgId : ℕ) : Prop :=
  ∃ request, s.haveSent.find msgId = some request ∧ (s.requests request).requestId = requestId

/-- What holds of a session in every state. -/
structure Lossless (s : Session) : Prop where
  one : ∀ q ∈ s.log.given, q ∉ s.log.cancelled → q ∉ s.log.erased → Xor (Waits s q) (∃ m, SentUnder s q m)
  once : ∀ q m m', SentUnder s q m → SentUnder s q m' → m = m'
  key : ∀ m r, s.haveSent.find m = some r → (s.requests r).msgId = m
  taken : s.log.dropped = false
  answer : ∀ (hasCallback : ℕ → Bool) (keyCreator : Bool) (result : RpcResult),
    result.destroyedTemporaryKey = false →
    ((∃ r, s.haveSent.find result.requestMsgId = some r) ∨
      ∃ q, s.resendingIds.find result.requestMsgId = some q ∧ q ∉ s.log.cancelled) →
    largerAcked s.ackedIds result.requestMsgId < kIdsBufferSize →
    ∃ requestId, s.log.sentUnder.find result.requestMsgId = some requestId ∧
      (handleRpcResult hasCallback keyCreator s result).haveReceived =
        s.haveReceived ++ [⟨result.reply, result.outerMsgId, requestId⟩]
  above : ∀ header messages, Packet.container header messages ∈ s.log.wire →
    ∀ message ∈ messages, message.msgId < header.msgId

lemma Good.waits_or_sent {s : Session} (h : Good ids s) {q : ℕ} (hgiven : q ∈ s.log.given)
    (hcancelled : q ∉ s.log.cancelled) (herased : q ∉ s.log.erased) :
    Xor (Waits s q) (∃ m, SentUnder s q m) := by
  have hnot : ∀ m, SentUnder s q m → ¬Waits s q := by
    rintro m ⟨r, hr, hrq⟩ ⟨r', hr', -⟩
    have hnone := (h.sent m r hr).2.2.2.2
    rw [hrq, hr'] at hnone
    cases hnone
  rcases h.given q hgiven hcancelled herased with ⟨r, hr⟩ | ⟨m, r, hr, hrq⟩
  · have hwaits : Waits s q := ⟨r, hr, (h.waits q r hr).2⟩
    exact Or.inl ⟨hwaits, fun ⟨m, hm⟩ => hnot m hm hwaits⟩
  · exact Or.inr ⟨⟨m, r, hr, hrq⟩, hnot m ⟨r, hr, hrq⟩⟩

/-- **A session loses no request and duplicates none.**

**Proof sketch.** The states of a run keep the invariant, by induction on the run with one lemma for each
step. By it the requests that are given are in one of the queues; ids are those of one request, so nothing
meets a key that is taken, and an answer finds its request. -/
theorem reachable_lossless {s : Session} (h : Reachable ids s) : Lossless s where
  one := fun _ => h.good.waits_or_sent
  once := by
    rintro q m m' ⟨r, hr, hrq⟩ ⟨r', hr', hrq'⟩
    obtain ⟨-, hmsg, hreq, -⟩ := h.good.sent m r hr
    have hsame : r' = r := h.good.requestId_inj r r' hreq (hrq'.trans hrq.symm)
    rw [← hmsg, ← (h.good.sent m' r' hr').2.1, hsame]
  key := fun m r hr => (h.good.sent m r hr).2.1
  taken := h.good.dropped
  answer := fun hasCallback keyCreator _ hkey hsent hfew =>
    h.good.rpcResult_queued hasCallback keyCreator hkey hsent hfew
  above := h.good.above

/-- Message ids four apart. -/
def everyFour : MsgIds where
  id := fun n => 4 * (n + 1)
  strictMono := fun a b h => by dsimp only; omega
  pos := fun n => by omega

/-- A request is sent alone, and its answer does not come. -/
def waitingAgain : Session :=
  step everyFour (step everyFour (step everyFour {} (.sendPrepared { requestId := 7 }))
    (.tryToSend { isMainSession := false })) (.resendAll 0)

lemma waitingAgain_reachable : Reachable everyFour waitingAgain :=
  .step _ (.step _ (.step _ .start ⟨by decide, by decide, fun _ => Nat.zero_ne_add_one 6⟩) trivial) trivial

theorem waitingAgain_lossless : Xor (Waits waitingAgain 7) (∃ m, SentUnder waitingAgain 7 m) ∧
    ∃ requestId, waitingAgain.log.sentUnder.find 4 = some requestId ∧
      (handleRpcResult (fun _ => true) false waitingAgain
        { outerMsgId := 5, requestMsgId := 4, reply := [1] }).haveReceived =
        [⟨[1], 5, requestId⟩] :=
  ⟨(reachable_lossless waitingAgain_reachable).one 7 (by decide) (by decide) (by decide),
    (reachable_lossless waitingAgain_reachable).answer (fun _ => true) false
      { outerMsgId := 5, requestMsgId := 4, reply := [1] } rfl (Or.inr ⟨7, by decide, by decide⟩) (by decide)⟩

/-- The answer to a request that was cancelled while it was to be sent again is not queued. -/
theorem cancelled_answer_not_queued : ∃ (s : Session) (result : RpcResult), Reachable everyFour s ∧
    s.resendingIds.find result.requestMsgId = some 7 ∧
    s.log.sentUnder.find result.requestMsgId = some 7 ∧
    largerAcked s.ackedIds result.requestMsgId = 0 ∧ result.destroyedTemporaryKey = false ∧
    (handleRpcResult (fun _ => true) false s result).haveReceived = [] :=
  ⟨step everyFour waitingAgain (.cancel 0 true), { outerMsgId := 5, requestMsgId := 4, reply := [1] },
    .step _ waitingAgain_reachable trivial, by decide, by decide, by decide, rfl, by decide⟩

end Mtproto
