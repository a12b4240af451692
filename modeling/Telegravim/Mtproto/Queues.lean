import Telegravim.Mtproto.Answers

set_option autoImplicit false

/-!
# MTProto sessions: the queues

The invariant of a session. Every message id and every request id belongs to one request. The maps under
message ids hold what the requests themselves say, and no id is in two of them; a request that waits is not
in `haveSent`. Then nothing that is moved meets a key that is taken.

While a container is filled the requests are still in `toSend`, so the invariant is about the requests that
wait, which are those of `toSend` except for the ones that were placed already. It is also about a bound
that is above all message ids in use.

## Main definitions

* `Mtproto.Inv` — the invariant.

## Main results

* `Mtproto.Inv.sendRequest` — a request that is prepared and remembered.
* `Mtproto.Inv.sendService` — a service request.
-/

namespace Mtproto

/-- The ids of service messages that are remembered. -/
def IsService (s : Session) (msgId : ℕ) : Prop :=
  msgId = s.pingMsgId ∨ msgId = s.bindMsgId ∨ s.sentContainers.contains msgId = true ∨
    s.stateAndResendRequests.contains msgId = true

structure Inv (bound : ℕ) (waiting : OrdMap ℕ ℕ) (s : Session) : Prop where
  fresh : ∀ r, s.nextRequest ≤ r → (s.requests r).msgId = 0 ∧ (s.requests r).requestId = 0
  lt : ∀ r, (s.requests r).msgId < bound
  requestId_lt : ∀ r, (s.requests r).requestId < 2 ^ 31
  msgId_inj : ∀ r r', (s.requests r).msgId ≠ 0 → (s.requests r').msgId = (s.requests r).msgId → r' = r
  requestId_inj : ∀ r r', (s.requests r).requestId ≠ 0 →
    (s.requests r').requestId = (s.requests r).requestId → r' = r
  waits : ∀ q r, waiting.find q = some r → q ≠ 0 ∧ (s.requests r).requestId = q
  sent : ∀ m r, s.haveSent.find m = some r → m ≠ 0 ∧ (s.requests r).msgId = m ∧
    (s.requests r).requestId ≠ 0 ∧ (s.requests r).needAck = true ∧
    waiting.find (s.requests r).requestId = none
  resending : ∀ m q, s.resendingIds.find m = some q → s.haveSent.find m = none ∧
    ∃ r, m ≠ 0 ∧ q ≠ 0 ∧ (s.requests r).msgId = m ∧ (s.requests r).requestId = q
  resendingWaits : ∀ m q, s.resendingIds.find m = some q →
    q ∈ s.log.cancelled ∨ ∃ r, waiting.find q = some r
  acked : ∀ m q, s.ackedIds.find m = some q → s.haveSent.find m = none ∧
    s.resendingIds.find m = none ∧ waiting.find q = none ∧
    ∃ r, m ≠ 0 ∧ q ≠ 0 ∧ (s.requests r).msgId = m ∧ (s.requests r).requestId = q
  service : ∀ m, IsService s m → m ≠ 0 → ∃ r, (s.requests r).msgId = m ∧ (s.requests r).requestId = 0
  given : ∀ q ∈ s.log.given, q ∉ s.log.cancelled → q ∉ s.log.erased →
    (∃ r, waiting.find q = some r) ∨
      ∃ m r, s.haveSent.find m = some r ∧ (s.requests r).requestId = q
  givenAck : ∀ q ∈ s.log.given, q ≠ 0 ∧ ∃ r, (s.requests r).requestId = q ∧ (s.requests r).needAck = true
  dropped : s.log.dropped = false
  under : ∀ r, (s.requests r).msgId ≠ 0 → (s.requests r).requestId ≠ 0 →
    s.log.sentUnder.find (s.requests r).msgId = some (s.requests r).requestId
  above : ∀ header messages, Packet.container header messages ∈ s.log.wire →
    ∀ message ∈ messages, message.msgId < header.msgId

namespace Inv

variable {ids : MsgIds} {bound cur : ℕ} {waiting : OrdMap ℕ ℕ} {s : Session}

/-- A larger bound. -/
lemma mono (h : Inv bound waiting s) {larger : ℕ} (hle : bound ≤ larger) : Inv larger waiting s :=
  { h with lt := fun r => (h.lt r).trans_le hle }

/-- What the invariant sees of the requests. -/
lemma congr_requests (h : Inv bound waiting s) {requests : ℕ → RequestData}
    (hmsg : ∀ r, (requests r).msgId = (s.requests r).msgId)
    (hreq : ∀ r, (requests r).requestId = (s.requests r).requestId)
    (hack : ∀ r, (requests r).needAck = (s.requests r).needAck) :
    Inv bound waiting { s with requests := requests } where
  fresh := by simpa only [hmsg, hreq] using h.fresh
  lt := by simpa only [hmsg] using h.lt
  requestId_lt := by simpa only [hreq] using h.requestId_lt
  msgId_inj := by simpa only [hmsg] using h.msgId_inj
  requestId_inj := by simpa only [hreq] using h.requestId_inj
  waits := by simpa only [hreq] using h.waits
  sent := by simpa only [hmsg, hreq, hack] using h.sent
  resending := by simpa only [hmsg, hreq] using h.resending
  resendingWaits := h.resendingWaits
  acked := by simpa only [hmsg, hreq] using h.acked
  service := by simpa only [IsService, hmsg, hreq] using h.service
  given := by simpa only [hreq] using h.given
  givenAck := by simpa only [hreq, hack] using h.givenAck
  dropped := h.dropped
  under := by simpa only [hmsg, hreq] using h.under
  above := h.above

/-- A change of a request that the invariant does not see. -/
lemma setRequest (h : Inv bound waiting s) (request : ℕ) (change : RequestData → RequestData)
    (hmsg : ∀ data, (change data).msgId = data.msgId)
    (hreq : ∀ data, (change data).requestId = data.requestId)
    (hack : ∀ data, (change data).needAck = data.needAck) :
    Inv bound waiting (s.setRequest request change) := by
  refine h.congr_requests (fun r => ?_) (fun r => ?_) (fun r => ?_)
  · by_cases hr : r = request
    · rw [hr, Function.update_self, hmsg]
    · rw [Function.update_of_ne hr]
  · by_cases hr : r = request
    · rw [hr, Function.update_self, hreq]
    · rw [Function.update_of_ne hr]
  · by_cases hr : r = request
    · rw [hr, Function.update_self, hack]
    · rw [Function.update_of_ne hr]

/-- The bound is not in use. -/
lemma not_used (h : Inv cur waiting s) : s.resendingIds.find cur = none ∧ s.ackedIds.find cur = none ∧
    s.haveSent.find cur = none := by
  refine ⟨?_, ?_, ?_⟩
  · cases hfind : s.resendingIds.find cur with
    | none => rfl
    | some q =>
      obtain ⟨-, r, -, -, hmsg, -⟩ := h.resending cur q hfind
      exact absurd (h.lt r) (by omega)
  · cases hfind : s.ackedIds.find cur with
    | none => rfl
    | some q =>
      obtain ⟨-, -, -, r, -, -, hmsg, -⟩ := h.acked cur q hfind
      exact absurd (h.lt r) (by omega)
  · cases hfind : s.haveSent.find cur with
    | none => rfl
    | some r =>
      obtain ⟨-, hmsg, -⟩ := h.sent cur r hfind
      exact absurd (h.lt r) (by omega)

/-- A request that waits is in no map under its message id. -/
lemma not_used_of_waits (h : Inv cur waiting s) {q r : ℕ} (hwaits : waiting.find q = some r)
    (hne : (s.requests r).msgId ≠ 0) : s.ackedIds.find (s.requests r).msgId = none ∧
      s.haveSent.find (s.requests r).msgId = none := by
  obtain ⟨-, hreq⟩ := h.waits q r hwaits
  refine ⟨?_, ?_⟩
  · cases hfind : s.ackedIds.find (s.requests r).msgId with
    | none => rfl
    | some q' =>
      obtain ⟨-, -, hnone, r', -, -, hmsg, hreq'⟩ := h.acked _ q' hfind
      have hsame : r' = r := h.msgId_inj r r' hne hmsg
      rw [hsame, hreq] at hreq'
      rw [← hreq', hwaits] at hnone
      cases hnone
  · cases hfind : s.haveSent.find (s.requests r).msgId with
    | none => rfl
    | some r' =>
      obtain ⟨-, hmsg, -, -, hnone⟩ := h.sent _ r' hfind
      have hsame : r' = r := h.msgId_inj r r' hne hmsg
      rw [hsame, hreq, hwaits] at hnone
      cases hnone

/-- A service request is in no map under its message id. -/
lemma not_used_of_service (h : Inv cur waiting s) {r : ℕ} (hservice : (s.requests r).requestId = 0)
    (hne : (s.requests r).msgId ≠ 0) : s.ackedIds.find (s.requests r).msgId = none ∧
      s.haveSent.find (s.requests r).msgId = none := by
  refine ⟨?_, ?_⟩
  · cases hfind : s.ackedIds.find (s.requests r).msgId with
    | none => rfl
    | some q =>
      obtain ⟨-, -, -, r', -, hq, hmsg, hreq⟩ := h.acked _ q hfind
      rw [h.msgId_inj r r' hne hmsg, hservice] at hreq
      exact absurd hreq.symm hq
  · cases hfind : s.haveSent.find (s.requests r).msgId with
    | none => rfl
    | some r' =>
      obtain ⟨-, hmsg, hreq, -⟩ := h.sent _ r' hfind
      rw [h.msgId_inj r r' hne hmsg] at hreq
      exact absurd hservice hreq

end Inv

/-! ### Message ids -/

/-- A session after a request has its message id. -/
def preparedSession (s : Session) (request msgId seqNo counter : ℕ)
    (containers : OrdMap ℕ SentContainer) : Session :=
  { s with
    requests := Function.update s.requests request
      { s.requests request with msgId := msgId, seqNo := seqNo }
    messagesCounter := counter
    resendingIds := s.resendingIds.erase (s.requests request).msgId
    sentContainers := containers }

lemma moveKey_of_find_eq_none {entries : OrdMap ℕ ℕ} {oldId : ℕ} (h : entries.find oldId = none)
    (newId : ℕ) : moveKey entries oldId newId = entries := by
  unfold moveKey
  rw [h]

lemma contains_mapValues {entries : OrdMap ℕ SentContainer} (f : ℕ → SentContainer → SentContainer)
    (key : ℕ) : (entries.mapValues f).contains key = entries.contains key := by
  unfold OrdMap.contains
  rw [OrdMap.find_mapValues, Option.isSome_map]

/-- What `setIds` sets. -/
lemma setIds_eq (s : Session) (request msgId : ℕ) : ∃ seqNo counter, s.setIds request msgId =
    { s with
      requests := Function.update s.requests request
        { s.requests request with msgId := msgId, seqNo := seqNo }
      messagesCounter := counter } :=
  ⟨_, _, rfl⟩

/-- An id that no map has is replaced in the containers and in the request. -/
lemma moveMsgId_of_not_used (s : Session) (request : ℕ) {oldId : ℕ}
    (hresending : s.resendingIds.find oldId = none) (hacked : s.ackedIds.find oldId = none)
    (hsent : s.haveSent.find oldId = none) (newId : ℕ) : moveMsgId s request oldId newId =
      Session.setIds { s with
        sentContainers := s.sentContainers.mapValues fun _ => replaceInner oldId newId } request newId := by
  unfold moveMsgId moveHaveSent
  dsimp only
  rw [moveKey_of_find_eq_none hresending, moveKey_of_find_eq_none hacked, hsent]

/-- **`prepareToSend`**: the request keeps its message id or gets the one that is next, and nothing else is
moved. -/
lemma prepareToSend_eq (ids : MsgIds) {cur : ℕ} {waiting : OrdMap ℕ ℕ} {s : Session}
    (h : Inv cur waiting s) {request : ℕ} (hfree : (s.requests request).msgId ≠ 0 →
      s.ackedIds.find (s.requests request).msgId = none ∧
        s.haveSent.find (s.requests request).msgId = none) (forceNewMsgId : Bool) :
    ∃ msgId seqNo counter containers,
      prepareToSend ids s request cur forceNewMsgId =
        (preparedSession s request msgId seqNo counter containers, msgId) ∧
      (msgId = cur ∨ msgId = (s.requests request).msgId ∧ msgId ≠ 0) ∧
      (forceNewMsgId = false → (s.requests request).msgId ≠ 0 → msgId = (s.requests request).msgId) ∧
      ∀ key, containers.contains key = s.sentContainers.contains key := by
  obtain ⟨hresending, hacked, hsent⟩ := h.not_used
  unfold prepareToSend
  dsimp only
  by_cases hold : (s.requests request).msgId ≠ 0
  · rw [if_pos hold]
    obtain ⟨hackedOld, hsentOld⟩ := hfree hold
    have hlt := h.lt request
    by_cases hforce : (forceNewMsgId || decide ((s.requests request).msgId > cur)) = true
    · rw [if_pos hforce]
      set erased : Session := { s with resendingIds := s.resendingIds.erase (s.requests request).msgId }
      have hunused : ∀ fuel, unusedMsgId ids fuel erased cur = (erased, cur) := by
        refine unusedMsgId_of_not_contains ids ?_ hacked hsent
        rw [OrdMap.find_erase]
        split_ifs
        · rfl
        · exact hresending
      have hnone : (s.resendingIds.erase (s.requests request).msgId).find (s.requests request).msgId =
          none := by
        rw [OrdMap.find_erase, if_pos rfl]
      have hmove := moveMsgId_of_not_used erased request hnone hackedOld hsentOld cur
      unfold replaceMsgId
      have hne : (s.requests request).msgId ≠ cur := by omega
      dsimp only
      rw [if_neg hne, hunused, hmove]
      obtain ⟨seqNo, counter, heq⟩ := setIds_eq { erased with
        sentContainers := s.sentContainers.mapValues fun _ =>
          replaceInner (s.requests request).msgId cur } request cur
      rw [heq]
      refine ⟨cur, seqNo, counter, _, rfl, Or.inl rfl, fun hnot _ => ?_, fun key => contains_mapValues _ key⟩
      rw [hnot, Bool.false_or, decide_eq_true_eq] at hforce
      omega
    · rw [if_neg hforce]
      refine ⟨(s.requests request).msgId, (s.requests request).seqNo, s.messagesCounter,
        s.sentContainers, ?_, Or.inr ⟨rfl, hold⟩, fun _ _ => rfl, fun key => rfl⟩
      unfold preparedSession
      rw [Function.update_eq_self]
  · rw [if_neg hold]
    rw [not_not] at hold
    have hzero : s.resendingIds.find 0 = none := by
      cases hfind : s.resendingIds.find 0 with
      | none => rfl
      | some q =>
        obtain ⟨-, r, hne, -⟩ := h.resending 0 q hfind
        exact absurd rfl hne
    obtain ⟨seqNo, counter, heq⟩ := setIds_eq s request cur
    refine ⟨cur, seqNo, counter, s.sentContainers, ?_, Or.inl rfl, fun _ hne => absurd hold hne,
      fun key => rfl⟩
    rw [heq]
    unfold preparedSession
    rw [hold, OrdMap.erase_of_find_eq_none hzero]

namespace Inv

variable {ids : MsgIds} {bound cur : ℕ} {waiting : OrdMap ℕ ℕ} {s : Session}

section Prepared

variable {request msgId : ℕ} (seqNo counter : ℕ) (containers : OrdMap ℕ SentContainer)

/-- What preparing a request does to the message ids: the others keep theirs, and have another one. -/
lemma prepared_msgId (h : Inv cur waiting s)
    (hmsgId : msgId = cur ∨ msgId = (s.requests request).msgId ∧ msgId ≠ 0) :
    ((preparedSession s request msgId seqNo counter containers).requests request).msgId = msgId ∧
    (∀ r, r ≠ request →
      ((preparedSession s request msgId seqNo counter containers).requests r).msgId =
        (s.requests r).msgId ∧ (s.requests r).msgId ≠ msgId) ∧
    (∀ r, ((preparedSession s request msgId seqNo counter containers).requests r).requestId =
      (s.requests r).requestId) ∧
    ∀ r, ((preparedSession s request msgId seqNo counter containers).requests r).needAck =
      (s.requests r).needAck := by
  unfold preparedSession
  refine ⟨by simp, fun r hr => ⟨by simp [Function.update_of_ne hr], ?_⟩, fun r => ?_, fun r => ?_⟩
  · rcases hmsgId with rfl | ⟨rfl, hne⟩
    · exact (h.lt r).ne
    · exact fun heq => hr (h.msgId_inj request r hne heq)
  · by_cases hr : r = request
    · simp [hr]
    · simp [Function.update_of_ne hr]
  · by_cases hr : r = request
    · simp [hr]
    · simp [Function.update_of_ne hr]

/-- A service request that is prepared. -/
lemma prepared_service (h : Inv cur waiting s) (hcur : cur ≠ 0)
    (hservice : (s.requests request).requestId = 0) (hrequest : request < s.nextRequest)
    (hmsgId : msgId = cur ∨ msgId = (s.requests request).msgId ∧ msgId ≠ 0)
    (hold : (s.requests request).msgId = 0 ∨ msgId = (s.requests request).msgId)
    (hcontainers : ∀ key, containers.contains key = s.sentContainers.contains key) :
    Inv (max (msgId + 1) cur) waiting (preparedSession s request msgId seqNo counter containers) := by
  obtain ⟨hself, hother, hreq, hack⟩ := h.prepared_msgId seqNo counter containers hmsgId
  have hne : msgId ≠ 0 := by
    rcases hmsgId with rfl | ⟨-, hne⟩
    · exact hcur
    · exact hne
  have hrefs : ∀ r, (s.requests r).requestId ≠ 0 → r ≠ request := by
    rintro r hr rfl
    exact hr hservice
  set s' := preparedSession s request msgId seqNo counter containers
  refine
    { fresh := ?_, lt := ?_, requestId_lt := ?_, msgId_inj := ?_, requestId_inj := ?_, waits := ?_,
      sent := ?_, resending := ?_, resendingWaits := ?_, acked := ?_, service := ?_, given := ?_,
      givenAck := ?_,
      dropped := h.dropped, under := ?_, above := h.above }
  · intro r hr
    have hr' : r ≠ request := by
      rintro rfl
      exact absurd hrequest (not_lt.mpr hr)
    rw [(hother r hr').1, hreq]
    exact h.fresh r hr
  · intro r
    by_cases hr : r = request
    · rw [hr, hself]
      omega
    · rw [(hother r hr).1]
      exact (h.lt r).trans_le (le_max_right _ _)
  · simpa only [hreq] using h.requestId_lt
  · intro r r' hr heq
    by_cases hrr : r = request
    · subst hrr
      rw [hself] at heq
      by_contra hr'
      rw [(hother r' hr').1] at heq
      exact (hother r' hr').2 heq
    · rw [(hother r hrr).1] at hr heq
      by_cases hr' : r' = request
      · rw [hr', hself] at heq
        exact absurd heq.symm (hother r hrr).2
      · rw [(hother r' hr').1] at heq
        exact h.msgId_inj r r' hr heq
  · simpa only [hreq] using h.requestId_inj
  · simpa only [hreq] using h.waits
  · intro m r hfind
    obtain ⟨hm, hmsg, hrne, hrack, hwait⟩ := h.sent m r hfind
    rw [(hother r (hrefs r hrne)).1, hreq, hack]
    exact ⟨hm, hmsg, hrne, hrack, hwait⟩
  · intro m q hfind
    have hfind' : s.resendingIds.find m = some q := by
      have : (s.resendingIds.erase (s.requests request).msgId).find m = some q := hfind
      rw [OrdMap.find_erase] at this
      split_ifs at this
      exact this
    obtain ⟨hnone, r, hm, hq, hmsg, hrq⟩ := h.resending m q hfind'
    refine ⟨hnone, r, hm, hq, ?_, by rw [hreq, hrq]⟩
    rw [(hother r (hrefs r (by rw [hrq]; exact hq))).1, hmsg]
  · intro m q hfind
    have hfind' : (s.resendingIds.erase (s.requests request).msgId).find m = some q := hfind
    rw [OrdMap.find_erase] at hfind'
    split_ifs at hfind'
    exact h.resendingWaits m q hfind'
  · intro m q hfind
    obtain ⟨hnone, hresending, hwait, r, hm, hq, hmsg, hrq⟩ := h.acked m q hfind
    refine ⟨hnone, ?_, hwait, r, hm, hq, ?_, by rw [hreq, hrq]⟩
    · have : (s.resendingIds.erase (s.requests request).msgId).find m = none := by
        rw [OrdMap.find_erase]
        split_ifs
        · rfl
        · exact hresending
      exact this
    · rw [(hother r (hrefs r (by rw [hrq]; exact hq))).1, hmsg]
  · intro m hm hm0
    have hm' : IsService s m := by
      rcases hm with hm | hm | hm | hm
      · exact Or.inl hm
      · exact Or.inr (Or.inl hm)
      · exact Or.inr (Or.inr (Or.inl ((hcontainers m).symm.trans hm)))
      · exact Or.inr (Or.inr (Or.inr hm))
    obtain ⟨r, hmsg, hr⟩ := h.service m hm' hm0
    by_cases hrr : r = request
    · subst hrr
      rcases hold with hold | hold
      · exact absurd (hmsg.symm.trans hold) hm0
      · exact ⟨r, by rw [hself, hold, hmsg], by rw [hreq, hr]⟩
    · exact ⟨r, by rw [(hother r hrr).1, hmsg], by rw [hreq, hr]⟩
  · intro q hq hcancelled herased
    simp only [hreq]
    exact h.given q hq hcancelled herased
  · intro q hq
    simp only [hreq, hack]
    exact h.givenAck q hq
  · intro r hr hrq
    rw [hreq] at hrq
    have hrr := hrefs r hrq
    rw [(hother r hrr).1] at hr ⊢
    rw [hreq]
    exact h.under r hr hrq

/-- The log after a request was sent, without what was given. -/
def sentLog (log : Log) (requestId msgId : ℕ) : Log :=
  { log with
    sentUnder := log.sentUnder.insert msgId requestId
    given := log.given.filter (· ≠ requestId) }

/-- No map has the message id of a request that is prepared. -/
lemma prepared_free (h : Inv cur waiting s) (hmsgId : msgId = cur ∨ msgId = (s.requests request).msgId ∧
    msgId ≠ 0) (hfree : (s.requests request).msgId ≠ 0 →
      s.ackedIds.find (s.requests request).msgId = none ∧
        s.haveSent.find (s.requests request).msgId = none) :
    s.haveSent.find msgId = none ∧ s.ackedIds.find msgId = none ∧
      (s.resendingIds.erase (s.requests request).msgId).find msgId = none := by
  obtain ⟨hresending, hacked, hsent⟩ := h.not_used
  rcases hmsgId with rfl | ⟨rfl, hne⟩
  · refine ⟨hsent, hacked, ?_⟩
    rw [OrdMap.find_erase]
    split_ifs
    · rfl
    · exact hresending
  · obtain ⟨hacked', hsent'⟩ := hfree hne
    exact ⟨hsent', hacked', by rw [OrdMap.find_erase, if_pos rfl]⟩

/-- A request that waits is prepared; it waits no longer, and is in no map yet. -/
lemma prepared_request (h : Inv cur waiting s) {requestId : ℕ}
    (hwaits : waiting.find requestId = some request)
    (hmsgId : msgId = cur ∨ msgId = (s.requests request).msgId ∧ msgId ≠ 0)
    (hcontainers : ∀ key, containers.contains key = s.sentContainers.contains key) :
    Inv (max (msgId + 1) cur) (waiting.erase requestId)
      { preparedSession s request msgId seqNo counter containers with
        log := sentLog s.log requestId msgId } := by
  obtain ⟨hself, hother, hreq, hack⟩ := h.prepared_msgId seqNo counter containers hmsgId
  obtain ⟨hrequestId, hown⟩ := h.waits requestId request hwaits
  have hfree := h.not_used_of_waits hwaits
  have herase : ∀ q, waiting.find q = none → (waiting.erase requestId).find q = none := by
    intro q hq
    rw [OrdMap.find_erase]
    split_ifs
    · rfl
    · exact hq
  -- references to other requests
  have hrefs : ∀ r, (s.requests r).requestId ≠ requestId → r ≠ request := by
    rintro r hr rfl
    exact hr hown
  refine
    { fresh := ?_, lt := ?_, requestId_lt := ?_, msgId_inj := ?_, requestId_inj := ?_, waits := ?_,
      sent := ?_, resending := ?_, resendingWaits := ?_, acked := ?_, service := ?_, given := ?_,
      givenAck := ?_,
      dropped := h.dropped, under := ?_, above := h.above }
  · intro r hr
    have hr' : r ≠ request := hrefs r (by rw [(h.fresh r hr).2]; exact hrequestId.symm)
    rw [(hother r hr').1, hreq]
    exact h.fresh r hr
  · intro r
    by_cases hr : r = request
    · rw [hr, hself]
      omega
    · rw [(hother r hr).1]
      exact (h.lt r).trans_le (le_max_right _ _)
  · simpa only [hreq] using h.requestId_lt
  · intro r r' hr heq
    by_cases hrr : r = request
    · subst hrr
      rw [hself] at heq
      by_contra hr'
      rw [(hother r' hr').1] at heq
      exact (hother r' hr').2 heq
    · rw [(hother r hrr).1] at hr heq
      by_cases hr' : r' = request
      · rw [hr', hself] at heq
        exact absurd heq.symm (hother r hrr).2
      · rw [(hother r' hr').1] at heq
        exact h.msgId_inj r r' hr heq
  · simpa only [hreq] using h.requestId_inj
  · intro q r hfind
    rw [OrdMap.find_erase] at hfind
    split_ifs at hfind
    rw [hreq]
    exact h.waits q r hfind
  · intro m r hfind
    obtain ⟨hm, hmsg, hrne, hrack, hwait⟩ := h.sent m r hfind
    have hr : r ≠ request := by
      rintro rfl
      rw [hown, hwaits] at hwait
      cases hwait
    rw [(hother r hr).1, hreq, hack]
    exact ⟨hm, hmsg, hrne, hrack, herase _ hwait⟩
  · intro m q hfind
    have hfind' : m ≠ (s.requests request).msgId ∧ s.resendingIds.find m = some q := by
      have : (s.resendingIds.erase (s.requests request).msgId).find m = some q := hfind
      rw [OrdMap.find_erase] at this
      split_ifs at this with hm
      exact ⟨hm, this⟩
    obtain ⟨hnone, r, hm, hq, hmsg, hrq⟩ := h.resending m q hfind'.2
    have hr : r ≠ request := by
      rintro rfl
      exact hfind'.1 hmsg.symm
    exact ⟨hnone, r, hm, hq, by rw [(hother r hr).1, hmsg], by rw [hreq, hrq]⟩
  · intro m q hfind
    have hfind' : (s.resendingIds.erase (s.requests request).msgId).find m = some q := hfind
    rw [OrdMap.find_erase] at hfind'
    split_ifs at hfind' with hm
    obtain ⟨-, r, -, -, hmsg, hrq⟩ := h.resending m q hfind'
    rcases h.resendingWaits m q hfind' with hcancelled | ⟨r', hr'⟩
    · exact Or.inl hcancelled
    · refine Or.inr ⟨r', ?_⟩
      rw [OrdMap.find_erase, if_neg]
      · exact hr'
      · rintro rfl
        have hsame : r = request := h.requestId_inj request r (hown.symm ▸ hrequestId) (hrq.trans hown.symm)
        exact hm (by rw [← hmsg, hsame])
  · intro m q hfind
    obtain ⟨hnone, hresending, hwait, r, hm, hq, hmsg, hrq⟩ := h.acked m q hfind
    have hr : r ≠ request := by
      rintro rfl
      rw [← hrq, hown, hwaits] at hwait
      cases hwait
    refine ⟨hnone, ?_, herase _ hwait, r, hm, hq, by rw [(hother r hr).1, hmsg], by rw [hreq, hrq]⟩
    have : (s.resendingIds.erase (s.requests request).msgId).find m = none := by
      rw [OrdMap.find_erase]
      split_ifs
      · rfl
      · exact hresending
    exact this
  · intro m hm hm0
    have hm' : IsService s m := by
      rcases hm with hm | hm | hm | hm
      · exact Or.inl hm
      · exact Or.inr (Or.inl hm)
      · exact Or.inr (Or.inr (Or.inl ((hcontainers m).symm.trans hm)))
      · exact Or.inr (Or.inr (Or.inr hm))
    obtain ⟨r, hmsg, hr⟩ := h.service m hm' hm0
    have hrr : r ≠ request := hrefs r (by rw [hr]; exact hrequestId.symm)
    exact ⟨r, by rw [(hother r hrr).1, hmsg], by rw [hreq, hr]⟩
  · intro q hq hcancelled herased
    obtain ⟨hgiven, hne⟩ := List.mem_filter.mp hq
    have hne' : q ≠ requestId := of_decide_eq_true hne
    simp only [hreq]
    rcases h.given q hgiven hcancelled herased with ⟨r, hfind⟩ | hsent
    · refine Or.inl ⟨r, ?_⟩
      rw [OrdMap.find_erase, if_neg hne']
      exact hfind
    · exact Or.inr hsent
  · intro q hq
    simp only [hreq, hack]
    exact h.givenAck q (List.mem_filter.mp hq).1
  · intro r hr hrq
    rw [hreq] at hrq
    by_cases hrr : r = request
    · subst hrr
      rw [hself, hreq, hown]
      exact OrdMap.find_insert_self _ _ _
    · rw [(hother r hrr).1] at hr ⊢
      rw [hreq]
      have : (s.log.sentUnder.insert msgId requestId).find (s.requests r).msgId =
          some (s.requests r).requestId := by
        rw [OrdMap.find_insert_of_ne (hother r hrr).2]
        exact h.under r hr hrq
      exact this

end Prepared

/-- A request goes into `haveSent`. -/
lemma emplaceHaveSent (h : Inv bound waiting s) (request : ℕ) (given : List ℕ) (hmsgId : (s.requests request).msgId ≠ 0)
    (hrequestId : (s.requests request).requestId ≠ 0) (hack : (s.requests request).needAck = true)
    (hwaits : waiting.find (s.requests request).requestId = none)
    (hsent : s.haveSent.find (s.requests request).msgId = none)
    (hresending : s.resendingIds.find (s.requests request).msgId = none)
    (hacked : s.ackedIds.find (s.requests request).msgId = none)
    (hgiven : ∀ q ∈ given, q = (s.requests request).requestId ∨ q ∈ s.log.given) :
    Inv bound waiting (Session.emplaceHaveSent { s with log := { s.log with given := given } }
      (s.requests request).msgId request) := by
  have hinsert : s.haveSent.emplace (s.requests request).msgId request =
      s.haveSent.insert (s.requests request).msgId request := OrdMap.emplace_of_find_eq_none hsent _
  have hfind : ∀ m, (s.haveSent.insert (s.requests request).msgId request).find m =
      if m = (s.requests request).msgId then some request else s.haveSent.find m :=
    fun m => OrdMap.find_insert _ _ _ _
  unfold Session.emplaceHaveSent
  dsimp only
  rw [hinsert]
  refine
    { fresh := h.fresh, lt := h.lt, requestId_lt := h.requestId_lt, msgId_inj := h.msgId_inj,
      requestId_inj := h.requestId_inj, waits := h.waits, sent := ?_, resending := ?_,
      resendingWaits := h.resendingWaits, acked := ?_, service := h.service, given := ?_, givenAck := ?_, dropped :=
        ?_, under := h.under,
      above := h.above }
  · intro m r hr
    rw [hfind] at hr
    split_ifs at hr with hm
    · cases hr
      exact ⟨hm ▸ hmsgId, hm.symm, hrequestId, hack, hwaits⟩
    · exact h.sent m r hr
  · intro m q hr
    obtain ⟨hnone, hrest⟩ := h.resending m q hr
    refine ⟨?_, hrest⟩
    rw [hfind, if_neg, hnone]
    rintro rfl
    rw [hresending] at hr
    cases hr
  · intro m q hr
    obtain ⟨hnone, hrest⟩ := h.acked m q hr
    refine ⟨?_, hrest⟩
    rw [hfind, if_neg, hnone]
    rintro rfl
    rw [hacked] at hr
    cases hr
  · intro q hq hcancelled herased
    by_cases hown : q = (s.requests request).requestId
    · exact Or.inr ⟨_, request, by rw [hfind, if_pos rfl], hown.symm⟩
    · rcases h.given q ((hgiven q hq).resolve_left hown) hcancelled herased with hleft | ⟨m, r, hr, hrq⟩
      · exact Or.inl hleft
      · refine Or.inr ⟨m, r, ?_, hrq⟩
        rw [hfind, if_neg, hr]
        rintro rfl
        rw [hsent] at hr
        cases hr
  · intro q hq
    rcases hgiven q hq with rfl | hq
    · exact ⟨hrequestId, request, rfl, hack⟩
    · exact h.givenAck q hq
  · show (s.log.dropped || s.haveSent.contains (s.requests request).msgId) = false
    rw [h.dropped, OrdMap.contains_eq_false_iff.mpr hsent]
    rfl

/-- A request that is not waited for is remembered as acknowledged. -/
lemma emplaceAcked (h : Inv bound waiting s) (request : ℕ) (hmsgId : (s.requests request).msgId ≠ 0)
    (hrequestId : (s.requests request).requestId ≠ 0)
    (hwaits : waiting.find (s.requests request).requestId = none)
    (hsent : s.haveSent.find (s.requests request).msgId = none)
    (hresending : s.resendingIds.find (s.requests request).msgId = none)
    (hacked : s.ackedIds.find (s.requests request).msgId = none) :
    Inv bound waiting { s with
      ackedIds := s.ackedIds.emplace (s.requests request).msgId (s.requests request).requestId } := by
  refine { h with acked := ?_ }
  intro m q hr
  have hr' : (s.ackedIds.emplace (s.requests request).msgId (s.requests request).requestId).find m =
      some q := hr
  rw [OrdMap.emplace_of_find_eq_none hacked, OrdMap.find_insert] at hr'
  split_ifs at hr' with hm
  · cases hr'
    subst hm
    exact ⟨hsent, hresending, hwaits, request, hmsgId, hrequestId, rfl, rfl⟩
  · exact h.acked m q hr'

variable (ids)

/-- **A request is sent**: it is prepared and remembered, and waits no longer. -/
theorem sendRequest (h : Inv cur waiting s) (hcur : cur ≠ 0) {requestId request : ℕ}
    (hwaits : waiting.find requestId = some request) (forceNewMsgId : Bool) (now : ℕ) :
    ∃ prepared msgId, prepareToSend ids s request cur forceNewMsgId = (prepared, msgId) ∧
      msgId ≠ 0 ∧ msgId ≤ cur ∧ prepared.issued = s.issued ∧ prepared.toSend = s.toSend ∧
      prepared.log = s.log ∧ prepared.nextRequest = s.nextRequest ∧
      (∀ r, (prepared.requests r).requestId = (s.requests r).requestId) ∧
      (∀ r, r ≠ request → (prepared.requests r).msgId = (s.requests r).msgId) ∧
      Inv (max (msgId + 1) cur) (waiting.erase requestId) (rememberSent prepared now request msgId) := by
  have hfree := h.not_used_of_waits hwaits
  obtain ⟨hrequestId, hown⟩ := h.waits requestId request hwaits
  obtain ⟨msgId, seqNo, counter, containers, heq, hmsgId, -, hcontainers⟩ :=
    prepareToSend_eq ids h hfree forceNewMsgId
  have hprepared := h.prepared_request seqNo counter containers hwaits hmsgId hcontainers
  obtain ⟨hsent, hacked, hresending⟩ := h.prepared_free hmsgId hfree
  obtain ⟨hself, hother, hreq, hack⟩ := h.prepared_msgId seqNo counter containers hmsgId
  set prepared := preparedSession s request msgId seqNo counter containers with hdef
  have hne : msgId ≠ 0 := by
    rcases hmsgId with rfl | ⟨-, hne⟩
    · exact hcur
    · exact hne
  have hle : msgId ≤ cur := by
    rcases hmsgId with rfl | ⟨rfl, -⟩
    · exact le_rfl
    · exact (h.lt request).le
  have hreq' : (prepared.requests request).requestId = requestId := (hreq request).trans hown
  have hnone : (waiting.erase requestId).find requestId = none := by
    rw [OrdMap.find_erase, if_pos rfl]
  refine ⟨prepared, msgId, heq, hne, hle, rfl, rfl, rfl, rfl, hreq, fun r hr => (hother r hr).1, ?_⟩
  unfold rememberSent
  rw [if_neg (by rw [hreq']; exact hrequestId)]
  dsimp only
  cases hneed : (prepared.requests request).needAck with
  | true =>
    rw [if_pos rfl]
    have hinsert := hprepared.emplaceHaveSent request s.log.given
      (by rw [hself]; exact hne) (by rw [hreq']; exact hrequestId) hneed (by rw [hreq']; exact hnone)
      (by rw [hself]; exact hsent) (by rw [hself]; exact hresending) (by rw [hself]; exact hacked)
      (by
        intro q hq
        by_cases hown' : q = requestId
        · exact Or.inl (hown'.trans hreq'.symm)
        · exact Or.inr (List.mem_filter.mpr ⟨hq, decide_eq_true hown'⟩))
    have htimed := hinsert.setRequest request (fun data => { data with lastSentTime := now })
      (fun _ => rfl) (fun _ => rfl) (fun _ => rfl)
    rw [hself] at htimed
    rw [hreq']
    exact htimed
  | false =>
    rw [if_neg Bool.false_ne_true]
    have hgiven : s.log.given.filter (· ≠ requestId) = s.log.given := by
      refine List.filter_eq_self.mpr fun q hq => decide_eq_true ?_
      rintro rfl
      obtain ⟨-, r, hr, hrack⟩ := h.givenAck q hq
      have hsame : r = request := h.requestId_inj request r (by rw [hown]; exact hrequestId) (hr.trans hown.symm)
      rw [hsame, ← hack, hneed] at hrack
      cases hrack
    have hinsert := hprepared.emplaceAcked request (by rw [hself]; exact hne)
      (by rw [hreq']; exact hrequestId) (by rw [hreq']; exact hnone) (by rw [hself]; exact hsent)
      (by rw [hself]; exact hresending) (by rw [hself]; exact hacked)
    unfold sentLog at hinsert
    rw [hgiven, hself] at hinsert
    rw [hreq'] at hinsert ⊢
    exact hinsert

/-- **A service request is sent.** -/
theorem sendService (h : Inv cur waiting s) (hcur : cur ≠ 0) {request : ℕ}
    (hservice : (s.requests request).requestId = 0) (hrequest : request < s.nextRequest)
    {forceNewMsgId : Bool} (hforce : (s.requests request).msgId = 0 ∨ forceNewMsgId = false) :
    ∃ prepared msgId, prepareToSend ids s request cur forceNewMsgId = (prepared, msgId) ∧
      msgId ≠ 0 ∧ msgId ≤ cur ∧ ((s.requests request).msgId = 0 → msgId = cur) ∧
      prepared.issued = s.issued ∧ prepared.toSend = s.toSend ∧
      prepared.log = s.log ∧ prepared.nextRequest = s.nextRequest ∧
      (prepared.requests request).msgId = msgId ∧
      (∀ r, (prepared.requests r).requestId = (s.requests r).requestId) ∧
      (∀ r, r ≠ request → (prepared.requests r).msgId = (s.requests r).msgId) ∧
      Inv (max (msgId + 1) cur) waiting prepared := by
  obtain ⟨msgId, seqNo, counter, containers, heq, hmsgId, hkept, hcontainers⟩ :=
    prepareToSend_eq ids h (h.not_used_of_service hservice) forceNewMsgId
  obtain ⟨hself, hother, hreq, -⟩ := h.prepared_msgId seqNo counter containers hmsgId
  have hold : (s.requests request).msgId = 0 ∨ msgId = (s.requests request).msgId := by
    by_cases hzero : (s.requests request).msgId = 0
    · exact Or.inl hzero
    · exact Or.inr (hkept (hforce.resolve_left hzero) hzero)
  have hne : msgId ≠ 0 := by
    rcases hmsgId with rfl | ⟨-, hne⟩
    · exact hcur
    · exact hne
  have hle : msgId ≤ cur := by
    rcases hmsgId with rfl | ⟨rfl, -⟩
    · exact le_rfl
    · exact (h.lt request).le
  have hnew : (s.requests request).msgId = 0 → msgId = cur := fun hzero =>
    hmsgId.resolve_right fun hkeep => hkeep.2 (hkeep.1.trans hzero)
  exact ⟨_, msgId, heq, hne, hle, hnew, rfl, rfl, rfl, rfl, hself, hreq, fun r hr => (hother r hr).1,
    h.prepared_service seqNo counter containers hcur hservice hrequest hmsgId hold hcontainers⟩

end Inv

end Mtproto
