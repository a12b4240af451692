import Telegravim.Mtproto.Keeps

set_option autoImplicit false

/-!
# MTProto sessions: what is sent

`tryToSend` keeps the invariant. The service requests of a call are new, so they have no message ids when
they are prepared, but for the one that binds the key. A container is filled under an id that is above those
of its messages: whenever a message takes this id, another one is made.

## Main definitions

* `Mtproto.Ready` — a session with service requests that have no message ids yet.
* `Mtproto.Filled` — a container that is being filled.

## Main results

* `Mtproto.Filled.placeRequests` — the requests of the queue are placed.
* `Mtproto.tryToSend_keeps` — `tryToSend` keeps the invariant.
-/

namespace Mtproto

/-- A session whose requests wait in `toSend`; all ids that were made are below the next one. -/
def Good (ids : MsgIds) (s : Session) : Prop := Inv (ids.id s.issued) s.toSend s

variable {ids : MsgIds}

lemma Good.sound {s : Session} (h : Good ids s) : Sound (ids.id s.issued) s.issued s := ⟨h, rfl⟩

lemma Sound.good {s s' : Session} (h : Sound (ids.id s.issued) s.issued s') : Good ids s' := by
  unfold Good
  rw [h.issued_eq]
  exact h.inv

/-! ### New requests -/

/-- A service request is made. -/
lemma Inv.makeRequest {bound larger : ℕ} {waiting : OrdMap ℕ ℕ} {s : Session} (h : Inv bound waiting s)
    (data : RequestData) (hrequestId : data.requestId = 0) (hmsgId : data.msgId = 0 ∨ bound ≤ data.msgId)
    (hle : bound ≤ larger) (hlt : data.msgId < larger) : Inv larger waiting (s.makeRequest data).1 := by
  have hfresh := h.fresh s.nextRequest le_rfl
  set requests := Function.update s.requests s.nextRequest data with hrequests
  have hself : requests s.nextRequest = data := by
    rw [hrequests, Function.update_self]
  have hother : ∀ r, r ≠ s.nextRequest → requests r = s.requests r := fun r hr => by
    rw [hrequests, Function.update_of_ne hr]
  have hreq : ∀ r, (requests r).requestId = (s.requests r).requestId := by
    intro r
    by_cases hr : r = s.nextRequest
    · rw [hr, hself, hrequestId, hfresh.2]
    · rw [hother r hr]
  -- references to requests that have an id of either kind are not the new one
  have hofReq : ∀ r, (s.requests r).requestId ≠ 0 → requests r = s.requests r := by
    intro r hr
    refine hother r ?_
    rintro rfl
    exact hr hfresh.2
  have hofMsg : ∀ r, (s.requests r).msgId ≠ 0 → requests r = s.requests r := by
    intro r hr
    refine hother r ?_
    rintro rfl
    exact hr hfresh.1
  unfold Session.makeRequest
  refine
    { fresh := ?_, lt := ?_, requestId_lt := ?_, msgId_inj := ?_, requestId_inj := ?_, waits := ?_,
      sent := ?_, resending := ?_, resendingWaits := h.resendingWaits, acked := ?_, service := ?_,
      given := ?_, givenAck := ?_, dropped := h.dropped, under := ?_, above := h.above }
  · intro r hr
    have hr' : s.nextRequest + 1 ≤ r := hr
    show (requests r).msgId = 0 ∧ (requests r).requestId = 0
    rw [hother r (by omega)]
    exact h.fresh r (by omega)
  · intro r
    show (requests r).msgId < larger
    by_cases hr : r = s.nextRequest
    · rw [hr, hself]
      exact hlt
    · rw [hother r hr]
      exact (h.lt r).trans_le hle
  · intro r
    show (requests r).requestId < 2 ^ 31
    rw [hreq]
    exact h.requestId_lt r
  · intro r r' hr heq
    have hr1 : (requests r).msgId ≠ 0 := hr
    have heq1 : (requests r').msgId = (requests r).msgId := heq
    by_cases hrn : r = s.nextRequest
    · by_contra hr'
      have hlt' := h.lt r'
      rw [hrn, hself] at hr1
      rw [hrn, hself, hother r' (fun hsame => hr' (hsame.trans hrn.symm))] at heq1
      rcases hmsgId with hzero | hge
      · exact hr1 hzero
      · omega
    · rw [hother r hrn] at hr1 heq1
      by_cases hr' : r' = s.nextRequest
      · have hlt' := h.lt r
        rw [hr', hself] at heq1
        rcases hmsgId with hzero | hge
        · exact absurd (heq1.symm.trans hzero) hr1
        · omega
      · rw [hother r' hr'] at heq1
        exact h.msgId_inj r r' hr1 heq1
  · intro r r' hr heq
    have hr1 : (requests r).requestId ≠ 0 := hr
    have heq1 : (requests r').requestId = (requests r).requestId := heq
    rw [hreq] at hr1
    rw [hreq, hreq] at heq1
    exact h.requestId_inj r r' hr1 heq1
  · intro q r hr
    obtain ⟨hq0, hrq⟩ := h.waits q r hr
    exact ⟨hq0, (hreq r).trans hrq⟩
  · intro m r hr
    obtain ⟨hm, hmsg, hrq, hrest⟩ := h.sent m r hr
    show m ≠ 0 ∧ (requests r).msgId = m ∧ (requests r).requestId ≠ 0 ∧ (requests r).needAck = true ∧
      waiting.find (requests r).requestId = none
    rw [hofReq r hrq]
    exact ⟨hm, hmsg, hrq, hrest⟩
  · intro m q hq
    obtain ⟨hnone, r, hm, hq0, hmsg, hrq⟩ := h.resending m q hq
    refine ⟨hnone, r, hm, hq0, ?_, (hreq r).trans hrq⟩
    show (requests r).msgId = m
    rw [hofMsg r (hmsg.symm ▸ hm), hmsg]
  · intro m q hq
    obtain ⟨hnone, hresending, hwait, r, hm, hq0, hmsg, hrq⟩ := h.acked m q hq
    refine ⟨hnone, hresending, hwait, r, hm, hq0, ?_, (hreq r).trans hrq⟩
    show (requests r).msgId = m
    rw [hofMsg r (hmsg.symm ▸ hm), hmsg]
  · intro m hm hm0
    obtain ⟨r, hmsg, hrq⟩ := h.service m hm hm0
    refine ⟨r, ?_, (hreq r).trans hrq⟩
    show (requests r).msgId = m
    rw [hofMsg r (hmsg.symm ▸ hm0), hmsg]
  · intro q hq hcancelled herased
    rcases h.given q hq hcancelled herased with hleft | ⟨m, r, hr, hrq⟩
    · exact Or.inl hleft
    · exact Or.inr ⟨m, r, hr, (hreq r).trans hrq⟩
  · intro q hq
    obtain ⟨hq0, r, hrq, hack⟩ := h.givenAck q hq
    refine ⟨hq0, r, (hreq r).trans hrq, ?_⟩
    show (requests r).needAck = true
    rw [hofReq r (hrq.symm ▸ hq0), hack]
  · intro r hr hrq
    have hrq1 : (requests r).requestId ≠ 0 := hrq
    rw [hreq] at hrq1
    have hr1 : (requests r).msgId ≠ 0 := hr
    show s.log.sentUnder.find (requests r).msgId = some (requests r).requestId
    rw [hofReq r hrq1] at hr1 ⊢
    exact h.under r hr1 hrq1

/-- A session with service requests that have no message ids yet. -/
structure Ready (ids : MsgIds) (s : Session) (refs : List ℕ) : Prop where
  good : Good ids s
  nodup : refs.Nodup
  ready : ∀ r ∈ refs, r < s.nextRequest ∧ (s.requests r).requestId = 0 ∧ (s.requests r).msgId = 0

/-- A request that binds the key has a message id from the start. -/
def BindReady (s : Session) (refs : List ℕ) (bind : Option ℕ) : Prop :=
  ∀ r, bind = some r → r ∉ refs ∧ r < s.nextRequest ∧ (s.requests r).requestId = 0

namespace Ready

variable {s : Session} {refs : List ℕ}

lemma makeService (h : Ready ids s refs) (needed needAck : Bool) (now : ℕ) :
    Ready ids (makeService s needed needAck now).1
      (refs ++ (Mtproto.makeService s needed needAck now).2.toList) := by
  unfold Mtproto.makeService
  split_ifs
  · have hpos := ids.pos s.issued
    have hnot : s.nextRequest ∉ refs := fun hmem => absurd (h.ready _ hmem).1 (lt_irrefl _)
    refine ⟨h.good.makeRequest _ rfl (Or.inl rfl) le_rfl hpos, ?_, ?_⟩
    · show (refs ++ [s.nextRequest]).Nodup
      rw [List.nodup_append]
      refine ⟨h.nodup, List.nodup_singleton _, fun r hr r' hr' => ?_⟩
      rw [List.mem_singleton.mp hr']
      rintro rfl
      exact hnot hr
    · intro r hr
      have hr1 : r ∈ refs ++ [s.nextRequest] := hr
      show r < s.nextRequest + 1 ∧
        (Function.update s.requests s.nextRequest { needAck := needAck, lastSentTime := now } r).requestId = 0 ∧
        (Function.update s.requests s.nextRequest { needAck := needAck, lastSentTime := now } r).msgId = 0
      rcases List.mem_append.mp hr1 with hr1 | hr1
      · obtain ⟨hlt, hrest⟩ := h.ready r hr1
        rw [Function.update_of_ne hlt.ne]
        exact ⟨hlt.trans (Nat.lt_succ_self _), hrest⟩
      · rw [List.mem_singleton.mp hr1, Function.update_self]
        exact ⟨Nat.lt_succ_self _, rfl, rfl⟩
  · rw [Option.toList_none, List.append_nil]
    exact h

lemma makeBind (h : Ready ids s refs) (needed : Bool) (now : ℕ) :
    Ready ids (makeBind ids s needed now).1 refs ∧
      BindReady (Mtproto.makeBind ids s needed now).1 refs (Mtproto.makeBind ids s needed now).2 := by
  unfold Mtproto.makeBind
  split_ifs
  · have hlt := ids.strictMono (Nat.lt_succ_self s.issued)
    have hnot : s.nextRequest ∉ refs := fun hmem => absurd (h.ready _ hmem).1 (lt_irrefl _)
    have hissued : Inv (ids.id s.issued) s.toSend { s with issued := s.issued + 1 } := { h.good with }
    have hmade := hissued.makeRequest { msgId := ids.id s.issued, lastSentTime := now } rfl (Or.inr le_rfl)
      hlt.le hlt
    have hcounted : Inv (ids.id (s.issued + 1)) s.toSend (Session.nextRequestSeqNumber
        (Session.makeRequest { s with issued := s.issued + 1 }
          { msgId := ids.id s.issued, lastSentTime := now }).1 true).1 := { hmade with }
    have hseq := hcounted.setRequest s.nextRequest (fun data => { data with seqNo := s.messagesCounter * 2 + 1 })
      (fun _ => rfl) (fun _ => rfl) (fun _ => rfl)
    refine ⟨⟨hseq, h.nodup, fun r hr => ?_⟩, fun r hr => ?_⟩
    · obtain ⟨hlt', hreq, hmsg⟩ := h.ready r hr
      have hne : r ≠ s.nextRequest := hlt'.ne
      refine ⟨hlt'.trans (Nat.lt_succ_self _), ?_, ?_⟩
      · simp [Session.setRequest, Session.nextRequestSeqNumber, Session.makeRequest, mtprotoMsgId,
          Function.update_of_ne hne, hreq]
      · simp [Session.setRequest, Session.nextRequestSeqNumber, Session.makeRequest, mtprotoMsgId,
          Function.update_of_ne hne, hmsg]
    · cases hr
      refine ⟨hnot, Nat.lt_succ_self _, ?_⟩
      simp [Session.setRequest, Session.nextRequestSeqNumber, Session.makeRequest, mtprotoMsgId]
  · exact ⟨h, fun r hr => by cases hr⟩

/-- The service requests of a call, but for the one that binds the key. -/
def newRefs (service : Service) : List ℕ :=
  service.ping.toList ++ service.ack.toList ++ service.resend.toList ++ service.state.toList ++
    service.httpWait.toList

lemma list_eq (service : Service) : service.list = newRefs service ++ service.bind.toList := rfl

/-- What is to be said was put into requests. -/
lemma said (h : Ready ids s refs) (made : Bool) {pingSendAt pingId pingIdToSend : ℕ}
    {ackRequestData resendRequestData : List ℕ} {stateRequestData : OrdMap ℕ Unit} :
    Ready ids (if made then { s with
      pingSendAt := pingSendAt
      pingId := pingId
      pingIdToSend := pingIdToSend
      ackRequestData := ackRequestData
      resendRequestData := resendRequestData
      stateRequestData := stateRequestData } else s) refs := by
  split_ifs
  · exact ⟨{ h.good with }, h.nodup, h.ready⟩
  · exact h

lemma makeServices (h : Ready ids s []) (context : SendContext) :
    Ready ids (makeServices ids context s).1 (newRefs (Mtproto.makeServices ids context s).2) ∧
      BindReady (Mtproto.makeServices ids context s).1 (newRefs (Mtproto.makeServices ids context s).2)
        (Mtproto.makeServices ids context s).2.bind := by
  unfold Mtproto.makeServices newRefs
  exact makeBind (makeService (said (makeService (said (makeService (said (makeService
    (said (makeService h _ _ _) _) _ _ _) _) _ _ _) _) _ _ _) _) _ _ _) _ _

end Ready

/-! ### Containers -/

/-- A container that is being filled: its id is above the ids in use, and will be below the next one. The
requests of `waiting` still wait, and `refs` are service requests that have no message ids. -/
structure Filled (ids : MsgIds) (waiting : OrdMap ℕ ℕ) (refs : List ℕ) (filling : Filling) : Prop where
  inv : Inv filling.bigMsgId waiting filling.session
  pos : filling.bigMsgId ≠ 0
  lt : filling.bigMsgId < ids.id filling.session.issued
  below : ∀ message ∈ filling.messages, message.msgId < filling.bigMsgId
  ready : ∀ r ∈ refs, r < filling.session.nextRequest ∧ (filling.session.requests r).requestId = 0 ∧
    (filling.session.requests r).msgId = 0

/-- What is remembered of a request does not depend on how many message ids were made. -/
lemma rememberSent_issued (s : Session) (issued now request msgId : ℕ) :
    rememberSent { s with issued := issued } now request msgId =
      { rememberSent s now request msgId with issued := issued } := by
  unfold rememberSent
  dsimp only
  split_ifs <;> rfl

/-- What remembering a request leaves as it is. -/
lemma rememberSent_frame (s : Session) (now request msgId : ℕ) :
    (rememberSent s now request msgId).toSend = s.toSend ∧
      (rememberSent s now request msgId).issued = s.issued ∧
      (rememberSent s now request msgId).nextRequest = s.nextRequest ∧
      (∀ r, ((rememberSent s now request msgId).requests r).requestId = (s.requests r).requestId) ∧
      ∀ r, ((rememberSent s now request msgId).requests r).msgId = (s.requests r).msgId := by
  unfold rememberSent
  dsimp only
  split_ifs
  · exact ⟨rfl, rfl, rfl, fun r => rfl, fun r => rfl⟩
  · refine ⟨rfl, rfl, rfl, fun r => ?_, fun r => ?_⟩
    · by_cases hr : r = request
      · simp [Session.emplaceHaveSent, Session.setRequest, hr]
      · simp [Session.emplaceHaveSent, Session.setRequest, Function.update_of_ne hr]
    · by_cases hr : r = request
      · simp [Session.emplaceHaveSent, Session.setRequest, hr]
      · simp [Session.emplaceHaveSent, Session.setRequest, Function.update_of_ne hr]
  · exact ⟨rfl, rfl, rfl, fun r => rfl, fun r => rfl⟩

/-- What is remembered of a service request that was placed. -/
structure Remembers (remember : Session → ℕ → ℕ → Session) : Prop where
  requests : ∀ s r m, (remember s r m).requests = s.requests
  nextRequest : ∀ s r m, (remember s r m).nextRequest = s.nextRequest
  toSend : ∀ s r m, (remember s r m).toSend = s.toSend
  issued : ∀ s r m, (remember s r m).issued = s.issued
  keeps : ∀ {bound waiting s r m}, Inv bound waiting s → (s.requests r).msgId = m →
    (s.requests r).requestId = 0 → Inv bound waiting (remember s r m)

lemma remembers_bind (now : ℕ) :
    Remembers fun s _ msgId => { s with bindMsgId := msgId, bindMessageSent := now } := by
  refine ⟨fun _ _ _ => rfl, fun _ _ _ => rfl, fun _ _ _ => rfl, fun _ _ _ => rfl, ?_⟩
  intro bound waiting s r m h hmsg hreq
  refine { h with service := fun m' hm hm0 => ?_ }
  rcases hm with hm | hm | hm | hm
  · exact h.service m' (Or.inl hm) hm0
  · exact ⟨r, hmsg.trans hm.symm, hreq⟩
  · exact h.service m' (Or.inr (Or.inr (Or.inl hm))) hm0
  · exact h.service m' (Or.inr (Or.inr (Or.inr hm))) hm0

lemma remembers_ping : Remembers fun s _ msgId => { s with pingMsgId := msgId } := by
  refine ⟨fun _ _ _ => rfl, fun _ _ _ => rfl, fun _ _ _ => rfl, fun _ _ _ => rfl, ?_⟩
  intro bound waiting s r m h hmsg hreq
  refine { h with service := fun m' hm hm0 => ?_ }
  rcases hm with hm | hm | hm | hm
  · exact ⟨r, hmsg.trans hm.symm, hreq⟩
  · exact h.service m' (Or.inr (Or.inl hm)) hm0
  · exact h.service m' (Or.inr (Or.inr (Or.inl hm))) hm0
  · exact h.service m' (Or.inr (Or.inr (Or.inr hm))) hm0

lemma remembers_state (value : ℕ → ℕ) : Remembers fun s request msgId =>
    { s with stateAndResendRequests := s.stateAndResendRequests.emplace msgId (value request) } := by
  refine ⟨fun _ _ _ => rfl, fun _ _ _ => rfl, fun _ _ _ => rfl, fun _ _ _ => rfl, ?_⟩
  intro bound waiting s r m h hmsg hreq
  refine { h with service := fun m' hm hm0 => ?_ }
  rcases hm with hm | hm | hm | hm
  · exact h.service m' (Or.inl hm) hm0
  · exact h.service m' (Or.inr (Or.inl hm)) hm0
  · exact h.service m' (Or.inr (Or.inr (Or.inl hm))) hm0
  · by_cases hsame : m' = m
    · exact ⟨r, hmsg.trans hsame.symm, hreq⟩
    · refine h.service m' (Or.inr (Or.inr (Or.inr ?_))) hm0
      have hm' : (s.stateAndResendRequests.emplace m (value r)).contains m' = true := hm
      unfold OrdMap.contains at hm' ⊢
      rw [OrdMap.find_emplace, if_neg hsame] at hm'
      exact hm'

lemma remembers_nothing : Remembers fun s _ _ => s :=
  ⟨fun _ _ _ => rfl, fun _ _ _ => rfl, fun _ _ _ => rfl, fun _ _ _ => rfl, fun h _ _ => h⟩

namespace Filled

variable {waiting : OrdMap ℕ ℕ} {refs : List ℕ} {filling : Filling}

/-- **A request is prepared for a container**: the container's id stays above all others. -/
lemma prepare_eq (h : Filled ids waiting refs filling) {request msgId : ℕ} {forceNewMsgId : Bool}
    {prepared : Session}
    (heq : prepareToSend ids filling.session request filling.bigMsgId forceNewMsgId = (prepared, msgId))
    (hle : msgId ≤ filling.bigMsgId) (hissued : prepared.issued = filling.session.issued) :
    ∃ issued bigMsgId, filling.prepare ids request forceNewMsgId =
        ({ filling with session := { prepared with issued := issued }, bigMsgId := bigMsgId }, msgId) ∧
      max (msgId + 1) filling.bigMsgId ≤ bigMsgId ∧ bigMsgId < ids.id issued := by
  have hlt := h.lt
  unfold Filling.prepare
  rw [heq]
  dsimp only
  split_ifs with hge
  · unfold mtprotoMsgId
    dsimp only
    refine ⟨_, _, rfl, ?_, ?_⟩
    · rw [hissued]
      omega
    · exact ids.strictMono (Nat.lt_succ_self _)
  · exact ⟨prepared.issued, filling.bigMsgId, rfl, by omega, by rw [hissued]; exact hlt⟩

/-- **A request of the queue is placed.** -/
lemma placeRequest (h : Filled ids waiting refs filling) (context : SendContext) (forceNewMsgId : Bool)
    {entry : ℕ × ℕ} (hwaits : waiting.find entry.1 = some entry.2) :
    Filled ids (waiting.erase entry.1) refs (filling.placeRequest ids context forceNewMsgId entry) ∧
      (filling.placeRequest ids context forceNewMsgId entry).session.toSend = filling.session.toSend := by
  obtain ⟨hq0, hown⟩ := h.inv.waits _ _ hwaits
  obtain ⟨prepared, msgId, heq, hne, hle, hissued, htoSend, -, hnext, hreq, hmsg, hinv⟩ :=
    h.inv.sendRequest ids h.pos hwaits forceNewMsgId context.now
  obtain ⟨issued, bigMsgId, hprepare, hbig, hlt⟩ := h.prepare_eq heq hle hissued
  obtain ⟨hkeepToSend, -, hkeepNext, hkeepReq, hkeepMsg⟩ :=
    rememberSent_frame prepared context.now entry.2 msgId
  unfold Filling.placeRequest
  dsimp only
  rw [hprepare]
  dsimp only
  rw [rememberSent_issued]
  have hpos : bigMsgId ≠ 0 := by omega
  refine ⟨⟨?_, hpos, hlt, fun message hmem => ?_, fun r hr => ?_⟩, hkeepToSend.trans htoSend⟩
  · have hlarger := hinv.mono hbig
    exact { hlarger with }
  · rcases List.mem_append.mp hmem with hmem | hmem
    · have := h.below message hmem
      show message.msgId < bigMsgId
      omega
    · rw [List.mem_singleton.mp hmem]
      show msgId < bigMsgId
      omega
  · obtain ⟨hr', hreq0, hmsg0⟩ := h.ready r hr
    have hrne : r ≠ entry.2 := by
      rintro rfl
      exact hq0 (hown.symm.trans hreq0)
    refine ⟨?_, ?_, ?_⟩
    · show r < (rememberSent prepared context.now entry.2 msgId).nextRequest
      rw [hkeepNext, hnext]
      exact hr'
    · show ((rememberSent prepared context.now entry.2 msgId).requests r).requestId = 0
      rw [hkeepReq, hreq, hreq0]
    · show ((rememberSent prepared context.now entry.2 msgId).requests r).msgId = 0
      rw [hkeepMsg, hmsg r hrne, hmsg0]

/-- **The requests of the queue are placed**, and wait no longer. -/
theorem placeRequests (h : Filled ids waiting refs filling) (context : SendContext) (forceNewMsgId : Bool)
    {range : List (ℕ × ℕ)} (hwaits : ∀ entry ∈ range, waiting.find entry.1 = some entry.2)
    (hnodup : (range.map Prod.fst).Nodup) :
    Filled ids (eraseRange waiting range) refs
        (range.foldl (Filling.placeRequest ids context forceNewMsgId) filling) ∧
      (range.foldl (Filling.placeRequest ids context forceNewMsgId) filling).session.toSend =
        filling.session.toSend := by
  induction range generalizing waiting filling with
  | nil => exact ⟨h, rfl⟩
  | cons entry rest ih =>
    rw [List.map_cons, List.nodup_cons] at hnodup
    obtain ⟨hplaced, htoSend⟩ := h.placeRequest context forceNewMsgId (hwaits entry List.mem_cons_self)
    have hother : ∀ other ∈ rest, (waiting.erase entry.1).find other.1 = some other.2 := by
      intro other hother
      rw [OrdMap.find_erase, if_neg]
      · exact hwaits other (List.mem_cons_of_mem _ hother)
      · rintro hsame
        exact hnodup.1 (List.mem_map.mpr ⟨other, hother, hsame⟩)
    obtain ⟨hrest, htoSend'⟩ := ih hplaced hother hnodup.2
    exact ⟨hrest, htoSend'.trans htoSend⟩

/-- **A service request is placed.** -/
lemma placeService (h : Filled ids waiting refs filling) (request : Option ℕ) (forceNewMsgId : Bool)
    {remember : Session → ℕ → ℕ → Session} (hremember : Remembers remember) (answered : Bool)
    (hrequest : ∀ r, request = some r → r ∉ refs ∧ r < filling.session.nextRequest ∧
      (filling.session.requests r).requestId = 0 ∧
      ((filling.session.requests r).msgId = 0 ∨ forceNewMsgId = false)) :
    Filled ids waiting refs (filling.place ids request forceNewMsgId remember answered) ∧
      (filling.place ids request forceNewMsgId remember answered).session.toSend =
        filling.session.toSend := by
  cases request with
  | none => exact ⟨h, rfl⟩
  | some r =>
    obtain ⟨hnot, hlt, hservice, hforce⟩ := hrequest r rfl
    obtain ⟨prepared, msgId, heq, hne, hle, -, hissued, htoSend, -, hnext, hself, hreq, hmsg, hinv⟩ :=
      h.inv.sendService ids h.pos hservice hlt hforce
    obtain ⟨issued, bigMsgId, hprepare, hbig, hltId⟩ := h.prepare_eq heq hle hissued
    have hpos : bigMsgId ≠ 0 := by omega
    have hlarger := hinv.mono hbig
    have hissuedInv : Inv bigMsgId waiting { prepared with issued := issued } := { hlarger with }
    unfold Filling.place
    dsimp only
    rw [hprepare]
    dsimp only
    refine ⟨⟨?_, hpos, ?_, fun message hmem => ?_, fun r' hr' => ?_⟩, ?_⟩
    · exact hremember.keeps hissuedInv hself ((hreq r).trans hservice)
    · show bigMsgId < ids.id (remember { prepared with issued := issued } r msgId).issued
      rw [hremember.issued]
      exact hltId
    · rcases List.mem_append.mp hmem with hmem | hmem
      · have := h.below message hmem
        show message.msgId < bigMsgId
        omega
      · rw [List.mem_singleton.mp hmem]
        show msgId < bigMsgId
        omega
    · obtain ⟨hlt', hreq0, hmsg0⟩ := h.ready r' hr'
      have hrne : r' ≠ r := by
        rintro rfl
        exact hnot hr'
      show r' < (remember { prepared with issued := issued } r msgId).nextRequest ∧
        ((remember { prepared with issued := issued } r msgId).requests r').requestId = 0 ∧
        ((remember { prepared with issued := issued } r msgId).requests r').msgId = 0
      rw [hremember.nextRequest, hremember.requests]
      exact ⟨hlt'.trans_eq hnext.symm, (hreq r').trans hreq0, (hmsg r' hrne).trans hmsg0⟩
    · exact (hremember.toSend _ _ _).trans htoSend

/-- **The next new service request is placed.** -/
lemma placeNew {request : Option ℕ} (h : Filled ids waiting (request.toList ++ refs) filling)
    (hnodup : (request.toList ++ refs).Nodup) (forceNewMsgId : Bool)
    {remember : Session → ℕ → ℕ → Session} (hremember : Remembers remember) (answered : Bool) :
    Filled ids waiting refs (filling.place ids request forceNewMsgId remember answered) ∧
      (filling.place ids request forceNewMsgId remember answered).session.toSend =
        filling.session.toSend := by
  refine placeService { h with ready := fun r hr => h.ready r (List.mem_append_right _ hr) } request
    forceNewMsgId hremember answered fun r hr => ?_
  rw [hr, Option.toList_some] at h hnodup
  obtain ⟨hlt, hreq, hmsg⟩ := h.ready r (List.mem_append_left _ (List.mem_singleton_self r))
  exact ⟨(List.nodup_cons.mp hnodup).1, hlt, hreq, Or.inl hmsg⟩

/-- The requests that were placed are taken out of the queue. -/
lemma setToSend (h : Filled ids waiting refs filling) (toSend : OrdMap ℕ ℕ) :
    Filled ids waiting refs { filling with session := { filling.session with toSend := toSend } } :=
  { h with inv := { h.inv with } }

/-- **A container is sent**: its own id is above those of its messages. -/
lemma finish (h : Filled ids waiting refs filling) (htoSend : filling.session.toSend = waiting)
    (now : ℕ) (forceNewMsgId : Bool) :
    Good ids (
      let made := filling.session.makeRequest { needAck := false, lastSentTime := now }
      let prepared := prepareToSend ids made.1 made.2 filling.bigMsgId forceNewMsgId
      let s := prepared.1
      { s with
        sentContainers := s.sentContainers.emplace prepared.2 ⟨now, filling.sentIds⟩
        log := { s.log with
          wire := s.log.wire ++ [.container (messageOf s false made.2 prepared.2) filling.messages] } }) := by
  set data : RequestData := { needAck := false, lastSentTime := now }
  have hmade := h.inv.makeRequest data rfl (Or.inl rfl) le_rfl (Nat.pos_of_ne_zero h.pos)
  have hnew : (filling.session.makeRequest data).1.requests (filling.session.makeRequest data).2 = data :=
    Function.update_self _ _ _
  have hservice : ((filling.session.makeRequest data).1.requests
      (filling.session.makeRequest data).2).requestId = 0 := by rw [hnew]
  have hnone : ((filling.session.makeRequest data).1.requests
      (filling.session.makeRequest data).2).msgId = 0 := by rw [hnew]
  have hforce : _ ∨ forceNewMsgId = false := Or.inl hnone
  obtain ⟨prepared, msgId, heq, -, -, hcur, hissued, hkept, hlog, -, hself, hreq, -, hinv⟩ :=
    hmade.sendService ids h.pos hservice (Nat.lt_succ_self _) hforce
  have hmsgId : msgId = filling.bigMsgId := hcur hnone
  have hlt : max (msgId + 1) filling.bigMsgId ≤ ids.id prepared.issued := by
    have := h.lt
    rw [hissued]
    show max (msgId + 1) filling.bigMsgId ≤ ids.id filling.session.issued
    omega
  have hwaiting : prepared.toSend = waiting := hkept.trans htoSend
  have hgood := hinv.mono hlt
  dsimp only
  rw [heq]
  unfold Good
  dsimp only
  rw [hwaiting]
  refine { hgood with service := fun m hm hm0 => ?_, above := fun header messages hmem message hin => ?_ }
  · rcases hm with hm | hm | hm | hm
    · exact hgood.service m (Or.inl hm) hm0
    · exact hgood.service m (Or.inr (Or.inl hm)) hm0
    · by_cases hsame : m = msgId
      · exact ⟨_, hself.trans hsame.symm, (hreq _).trans (by rw [hnew])⟩
      · refine hgood.service m (Or.inr (Or.inr (Or.inl ?_))) hm0
        have hm' : (prepared.sentContainers.emplace msgId ⟨now, filling.sentIds⟩).contains m = true := hm
        unfold OrdMap.contains at hm' ⊢
        rw [OrdMap.find_emplace, if_neg hsame] at hm'
        exact hm'
    · exact hgood.service m (Or.inr (Or.inr (Or.inr hm))) hm0
  · rcases List.mem_append.mp hmem with hmem | hmem
    · exact hgood.above header messages hmem message hin
    · rw [List.mem_singleton] at hmem
      cases hmem
      show message.msgId < msgId
      rw [hmsgId]
      exact h.below message hin

end Filled

/-- The requests of a container, each under its own id. -/
def IsRange (toSend : OrdMap ℕ ℕ) (range : List (ℕ × ℕ)) : Prop :=
  (∀ entry ∈ range, toSend.find entry.1 = some entry.2) ∧ (range.map Prod.fst).Nodup

lemma isRange_of_sublist {toSend : OrdMap ℕ ℕ} {range : List (ℕ × ℕ)}
    (h : range.Sublist toSend.entries) : IsRange toSend range :=
  ⟨fun _ hentry => OrdMap.find_eq_some_iff.mpr (h.subset hentry), toSend.nodup_keys.sublist (h.map Prod.fst)⟩

lemma cutRange_sublist (size : ℕ → ℕ) (combinedLength : ℕ) (entries : List (ℕ × ℕ)) :
    (cutRange size combinedLength entries).Sublist entries := by
  induction entries generalizing combinedLength with
  | nil => exact List.Sublist.refl _
  | cons entry rest ih =>
    unfold cutRange
    split_ifs
    · exact (List.nil_sublist rest).cons_cons entry
    · exact (ih _).cons_cons entry

/-- **A container keeps the invariant.** -/
theorem sendContainer_good {s : Session} {service : Service} {range : List (ℕ × ℕ)}
    (h : Ready ids s (Ready.newRefs service)) (hbind : BindReady s (Ready.newRefs service) service.bind)
    (hrange : IsRange s.toSend range) (context : SendContext) (forceNewMsgId : Bool) :
    Good ids (sendContainer ids context s service range forceNewMsgId) := by
  have hnodup : (service.ping.toList ++ (service.state.toList ++ (service.resend.toList ++
      (service.ack.toList ++ (service.httpWait.toList ++ []))))).Nodup := by
    refine (List.Perm.nodup_iff ?_).mpr h.nodup
    rw [List.perm_iff_count]
    intro r
    simp only [Ready.newRefs, List.count_append, List.count_nil]
    omega
  have hmem : ∀ r ∈ service.ping.toList ++ (service.state.toList ++ (service.resend.toList ++
      (service.ack.toList ++ (service.httpWait.toList ++ [])))), r ∈ Ready.newRefs service := by
    intro r hr
    simp only [Ready.newRefs, List.mem_append] at hr ⊢
    tauto
  have hstart : Filled ids s.toSend (service.ping.toList ++ (service.state.toList ++
      (service.resend.toList ++ (service.ack.toList ++ (service.httpWait.toList ++ [])))))
      { session := { s with issued := s.issued + 1 }, bigMsgId := ids.id s.issued } :=
    { inv := { h.good with }
      pos := (ids.pos _).ne'
      lt := ids.strictMono (Nat.lt_succ_self _)
      below := fun message hmessage => absurd hmessage List.not_mem_nil
      ready := fun r hr => h.ready r (hmem r hr) }
  obtain ⟨h1, t1⟩ := hstart.placeService service.bind false (remembers_bind context.now) true fun r hr => by
      obtain ⟨hnot, hlt, hreq⟩ := hbind r hr
      exact ⟨fun hin => hnot (hmem r hin), hlt, hreq, Or.inr rfl⟩
  obtain ⟨h2, t2⟩ := h1.placeNew hnodup forceNewMsgId remembers_ping true
  obtain ⟨h3, t3⟩ := h2.placeRequests context forceNewMsgId hrange.1 hrange.2
  have h4 := h3.setToSend (eraseRange s.toSend range)
  have hnodup5 := (List.nodup_append.mp hnodup).2.1
  obtain ⟨h5, t5⟩ := h4.placeNew hnodup5 forceNewMsgId (remembers_state fun r => r) false
  have hnodup6 := (List.nodup_append.mp hnodup5).2.1
  obtain ⟨h6, t6⟩ := h5.placeNew hnodup6 forceNewMsgId (remembers_state fun r => r) false
  have hnodup7 := (List.nodup_append.mp hnodup6).2.1
  obtain ⟨h7, t7⟩ := h6.placeNew hnodup7 forceNewMsgId remembers_nothing false
  obtain ⟨h8, t8⟩ := h7.placeNew (List.nodup_append.mp hnodup7).2.1 forceNewMsgId remembers_nothing false
  have htoSend := t8.trans (t7.trans (t6.trans t5))
  have hfinish := h8.finish htoSend context.now forceNewMsgId
  have hqueue := t3.trans (t2.trans t1)
  unfold sendContainer
  dsimp only [mtprotoMsgId]
  rw [hqueue]
  exact hfinish

/-! ### Single requests -/

lemma Inv.good {bound : ℕ} {waiting : OrdMap ℕ ℕ} {s : Session} (h : Inv bound waiting s)
    (hle : bound ≤ ids.id s.issued) (htoSend : s.toSend = waiting) : Good ids s := by
  unfold Good
  rw [htoSend]
  exact h.mono hle

/-- A message that is written alone says nothing about containers. -/
lemma Inv.writeSingle {bound : ℕ} {waiting : OrdMap ℕ ℕ} {s : Session} (h : Inv bound waiting s)
    (message : Message) : Inv bound waiting { s with log := { s.log with
      wire := s.log.wire ++ [.single message] } } := by
  refine { h with above := fun header messages hmem message' hin => ?_ }
  rcases List.mem_append.mp hmem with hmem | hmem
  · exact h.above header messages hmem message' hin
  · rw [List.mem_singleton] at hmem
    cases hmem

/-- What is remembered of a single service request. -/
lemma remembers_service (service : Service) (now : ℕ) :
    Remembers fun s _ msgId => rememberService s service now msgId := by
  unfold rememberService
  cases service.bind with
  | some r => exact remembers_bind now
  | none =>
    cases service.ping with
    | some r => exact remembers_ping
    | none =>
      cases service.state.or service.resend with
      | some request => exact remembers_state fun _ => request
      | none => exact remembers_nothing

/-- **A single request keeps the invariant.** -/
theorem sendSingle_good {s : Session} {service : Service} {range : List (ℕ × ℕ)} {first : ℕ}
    (h : Ready ids s (Ready.newRefs service)) (hbind : BindReady s (Ready.newRefs service) service.bind)
    (hrange : IsRange s.toSend range) (hfirst : service.list ++ range.map Prod.snd = [first])
    (context : SendContext) (forceNewMsgId : Bool) :
    Good ids (sendSingle ids context s service range first forceNewMsgId) := by
  have hlt : ids.id s.issued < ids.id (s.issued + 1) := ids.strictMono (Nat.lt_succ_self s.issued)
  have hpos := (ids.pos s.issued).ne'
  have hstart : Inv (ids.id s.issued) s.toSend
      { s with toSend := eraseRange s.toSend range, issued := s.issued + 1 } := { h.good with }
  unfold sendSingle
  dsimp only [mtprotoMsgId]
  rcases List.append_eq_singleton_iff.mp hfirst with ⟨hlist, hone⟩ | ⟨hlist, hone⟩
  · -- a request of the queue
    obtain ⟨entry, rfl, hentry⟩ : ∃ entry, range = [entry] ∧ entry.2 = first := by
      rw [List.map_eq_singleton_iff] at hone
      exact hone
    have hnothing : ∀ (prepared : Session) (msgId : ℕ),
        rememberService prepared service context.now msgId = prepared := by
      intro prepared msgId
      obtain ⟨hping, -, hresend, hstate, -, hbound⟩ : service.ping = none ∧ service.ack = none ∧
          service.resend = none ∧ service.state = none ∧ service.httpWait = none ∧
          service.bind = none := by
        simpa [Service.list] using hlist
      unfold rememberService
      rw [hping, hresend, hstate, hbound]
      rfl
    have hwaits := hrange.1 entry (List.mem_singleton_self _)
    rw [hentry] at hwaits
    obtain ⟨prepared, msgId, heq, -, hle, hissued, htoSend, -, -, -, -, hinv⟩ :=
      hstart.sendRequest ids hpos hwaits (forceNewMsgId && !service.bind.isSome) context.now
    rw [heq]
    dsimp only
    rw [hnothing]
    obtain ⟨hkeptToSend, hkeptIssued, -⟩ := rememberSent_frame prepared context.now first msgId
    refine (hinv.writeSingle _).good ?_ ?_
    · show max (msgId + 1) (ids.id s.issued) ≤ ids.id (rememberSent prepared context.now first msgId).issued
      rw [hkeptIssued, hissued]
      show max (msgId + 1) (ids.id s.issued) ≤ ids.id (s.issued + 1)
      omega
    · exact hkeptToSend.trans htoSend
  · -- a service request
    have hempty : range = [] := List.map_eq_nil_iff.mp hone
    subst hempty
    have hforce : first < s.nextRequest ∧ (s.requests first).requestId = 0 ∧
        ((s.requests first).msgId = 0 ∨ (forceNewMsgId && !service.bind.isSome) = false) := by
      rw [Ready.list_eq] at hlist
      rcases List.append_eq_singleton_iff.mp hlist with ⟨-, hbound⟩ | ⟨hnew, -⟩
      · obtain ⟨r, hr, rfl⟩ : ∃ r, service.bind = some r ∧ r = first := by
          cases hcase : service.bind with
          | none => rw [hcase] at hbound; cases hbound
          | some r => rw [hcase] at hbound; exact ⟨r, rfl, List.singleton_inj.mp hbound⟩
        obtain ⟨-, hnext, hreq⟩ := hbind r hr
        exact ⟨hnext, hreq, Or.inr (by rw [hr]; simp)⟩
      · obtain ⟨hnext, hreq, hmsg⟩ := h.ready first (by rw [hnew]; exact List.mem_singleton_self _)
        exact ⟨hnext, hreq, Or.inl hmsg⟩
    obtain ⟨hnext, hreq0, hold⟩ := hforce
    obtain ⟨prepared, msgId, heq, -, hle, -, hissued, htoSend, -, -, hself, hreq, -, hinv⟩ :=
      hstart.sendService ids hpos hreq0 hnext hold
    have hremember := remembers_service service context.now
    have hkept := hremember.keeps hinv hself ((hreq first).trans hreq0)
    rw [heq]
    dsimp only
    have hnone : rememberSent (rememberService prepared service context.now msgId) context.now first msgId =
        rememberService prepared service context.now msgId := by
      unfold rememberSent
      rw [if_pos]
      exact (congrArg (fun requests => (requests first).requestId)
        (hremember.requests prepared first msgId)).trans ((hreq first).trans hreq0)
    rw [hnone]
    refine (hkept.writeSingle _).good ?_ ?_
    · show max (msgId + 1) (ids.id s.issued) ≤ ids.id (rememberService prepared service context.now msgId).issued
      rw [hremember.issued prepared first msgId, hissued]
      show max (msgId + 1) (ids.id s.issued) ≤ ids.id (s.issued + 1)
      omega
    · exact (hremember.toSend prepared first msgId).trans htoSend

/-! ### `tryToSend` -/

/-- What is chosen is sent, alone or in a container. -/
lemma send_good {s : Session} {service : Service} {range : List (ℕ × ℕ)}
    (h : Ready ids s (Ready.newRefs service)) (hbind : BindReady s (Ready.newRefs service) service.bind)
    (hrange : IsRange s.toSend range) (context : SendContext) (forceNewMsgId : Bool) :
    Good ids (match service.list ++ range.map Prod.snd with
      | [] => s
      | first :: rest =>
        if rest = [] ∧ (s.requests first).forceSendInContainer = false then
          sendSingle ids context s service range first forceNewMsgId
        else sendContainer ids context s service range forceNewMsgId) := by
  split
  · exact h.good
  · rename_i first rest hlist
    split_ifs with hsingle
    · rw [hsingle.1] at hlist
      exact sendSingle_good h hbind hrange hlist context forceNewMsgId
    · exact sendContainer_good h hbind hrange context forceNewMsgId

/-- **`tryToSend` keeps the invariant.** -/
theorem tryToSend_keeps {s : Session} (h : Good ids s) (context : SendContext) :
    Good ids (tryToSend ids context s) := by
  have hping : ∀ (again : Bool) (pingIdToSend : ℕ),
      Good ids (if again then { s with pingIdToSend := pingIdToSend } else s) := by
    intro again pingIdToSend
    split_ifs
    · exact { h with }
    · exact h
  have hstarted : ∀ (sendAll : Bool) (s : Session), Good ids s →
      Good ids (if sendAll then s.markSessionAsStarted else (s, false)).1 := by
    intro sendAll s hs
    unfold Session.markSessionAsStarted
    split_ifs
    · exact hs
    · exact { hs with }
    · exact hs
  unfold tryToSend
  dsimp only
  split
  · exact h
  split
  · exact h
  have hready : ∀ s : Session, Good ids s → Ready ids s [] := fun s hs =>
    ⟨hs, List.nodup_nil, fun r hr => absurd hr List.not_mem_nil⟩
  refine send_good (Ready.makeServices (hready _ (hstarted _ _ (hping _ _))) context).1
    (Ready.makeServices (hready _ (hstarted _ _ (hping _ _))) context).2 ?_ context _
  split
  · exact isRange_of_sublist (cutRange_sublist _ _ _)
  · exact isRange_of_sublist (List.nil_sublist _)

end Mtproto
