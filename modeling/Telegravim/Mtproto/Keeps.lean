import Telegravim.Mtproto.Queues

set_option autoImplicit false

/-!
# MTProto sessions: what answers keep

Everything that a session does between two calls of `tryToSend` keeps the invariant, and makes no message
ids.

## Main definitions

* `Mtproto.Sound` — the invariant, and how many message ids were made.

## Main results

* `Mtproto.Sound.requestsAcked`, `Mtproto.Sound.resend`, `Mtproto.Sound.resendAll` — acknowledgements, and
  requests that are sent again.
* `Mtproto.Sound.sendPrepared`, `Mtproto.Sound.cancel` — requests that are given and cancelled.
-/

namespace Mtproto

/-- The invariant of a session whose requests wait in `toSend`, and the number of ids it made. -/
structure Sound (bound issued : ℕ) (s : Session) : Prop where
  inv : Inv bound s.toSend s
  issued_eq : s.issued = issued

namespace Sound

variable {bound issued : ℕ} {s : Session}

/-- Fewer ids of service messages. -/
lemma of_service {s' : Session} (h : Sound bound issued s) (hinv : (∀ m, IsService s' m → m ≠ 0 →
    ∃ r, (s.requests r).msgId = m ∧ (s.requests r).requestId = 0) → Inv bound s'.toSend s')
    (hissued : s'.issued = s.issued) (hservice : ∀ m, IsService s' m → m ≠ 0 → IsService s m) :
    Sound bound issued s' :=
  ⟨hinv fun m hm hm0 => h.inv.service m (hservice m hm hm0) hm0, hissued.trans h.issued_eq⟩

lemma contains_of_erase {ν : Type} {entries : OrdMap ℕ ν} {key other : ℕ}
    (h : (entries.erase key).contains other = true) : entries.contains other = true := by
  rw [OrdMap.contains_iff] at h ⊢
  obtain ⟨value, hvalue⟩ := h
  rw [OrdMap.find_erase] at hvalue
  split_ifs at hvalue
  exact ⟨value, hvalue⟩

/-- A container is forgotten. -/
lemma eraseContainer (h : Sound bound issued s) (msgId : ℕ) :
    Sound bound issued { s with sentContainers := s.sentContainers.erase msgId } := by
  refine h.of_service (fun hservice => { h.inv with service := hservice }) rfl fun m hm _ => ?_
  rcases hm with hm | hm | hm | hm
  · exact Or.inl hm
  · exact Or.inr (Or.inl hm)
  · exact Or.inr (Or.inr (Or.inl (contains_of_erase hm)))
  · exact Or.inr (Or.inr (Or.inr hm))

/-- A request about states is forgotten. -/
lemma eraseState (h : Sound bound issued s) (msgId : ℕ) :
    Sound bound issued { s with stateAndResendRequests := s.stateAndResendRequests.erase msgId } := by
  refine h.of_service (fun hservice => { h.inv with service := hservice }) rfl fun m hm _ => ?_
  rcases hm with hm | hm | hm | hm
  · exact Or.inl hm
  · exact Or.inr (Or.inl hm)
  · exact Or.inr (Or.inr (Or.inl hm))
  · exact Or.inr (Or.inr (Or.inr (contains_of_erase hm)))

lemma clearSpecialMsgId (h : Sound bound issued s) (msgId : ℕ) :
    Sound bound issued (clearSpecialMsgId s msgId) := by
  unfold Mtproto.clearSpecialMsgId
  split_ifs
  · refine h.of_service (fun hservice => { h.inv with service := hservice }) rfl fun m hm hm0 => ?_
    rcases hm with hm | hm | hm | hm
    · exact absurd hm hm0
    · exact Or.inr (Or.inl hm)
    · exact Or.inr (Or.inr (Or.inl hm))
    · exact Or.inr (Or.inr (Or.inr hm))
  · refine h.of_service (fun hservice => { h.inv with service := hservice }) rfl fun m hm hm0 => ?_
    rcases hm with hm | hm | hm | hm
    · exact Or.inl hm
    · exact absurd hm hm0
    · exact Or.inr (Or.inr (Or.inl hm))
    · exact Or.inr (Or.inr (Or.inr hm))
  · exact h

/-- The request that binds the key is forgotten. -/
lemma clearBind (h : Sound bound issued s) : Sound bound issued { s with bindMsgId := 0 } := by
  refine h.of_service (fun hservice => { h.inv with service := hservice }) rfl fun m hm hm0 => ?_
  rcases hm with hm | hm | hm | hm
  · exact Or.inl hm
  · exact absurd hm hm0
  · exact Or.inr (Or.inr (Or.inl hm))
  · exact Or.inr (Or.inr (Or.inr hm))

/-! ### Acknowledgements -/

lemma find_of_erase {ν : Type} {entries : OrdMap ℕ ν} {key other : ℕ} {value : ν}
    (h : (entries.erase key).find other = some value) : other ≠ key ∧ entries.find other = some value := by
  rw [OrdMap.find_erase] at h
  split_ifs at h with hkey
  exact ⟨hkey, h⟩

lemma find_erase_none {ν : Type} {entries : OrdMap ℕ ν} {other : ℕ} (key : ℕ)
    (h : entries.find other = none) : (entries.erase key).find other = none := by
  rw [OrdMap.find_erase]
  split_ifs
  · rfl
  · exact h

/-- A request that was sent is acknowledged. -/
lemma ackSent (h : Sound bound issued s) {msgId request : ℕ} (hfind : s.haveSent.find msgId = some request) :
    Sound bound issued { s with
      haveSent := s.haveSent.erase msgId
      ackedIds := s.ackedIds.emplace msgId (s.requests request).requestId
      log := { s.log with erased := s.log.erased ++ [(s.requests request).requestId] } } := by
  obtain ⟨hne, hmsg, hreq, -, hwait⟩ := h.inv.sent msgId request hfind
  have hacked : s.ackedIds.find msgId = none := by
    cases hother : s.ackedIds.find msgId with
    | none => rfl
    | some q =>
      rw [(h.inv.acked msgId q hother).1] at hfind
      cases hfind
  have hresending : s.resendingIds.find msgId = none := by
    cases hother : s.resendingIds.find msgId with
    | none => rfl
    | some q =>
      rw [(h.inv.resending msgId q hother).1] at hfind
      cases hfind
  refine ⟨{ h.inv with sent := ?_, resending := ?_, acked := ?_, given := ?_ }, h.issued_eq⟩
  · intro m r hr
    exact h.inv.sent m r (find_of_erase hr).2
  · intro m q hq
    obtain ⟨hnone, hrest⟩ := h.inv.resending m q hq
    exact ⟨find_erase_none _ hnone, hrest⟩
  · intro m q hq
    have hq' : (s.ackedIds.emplace msgId (s.requests request).requestId).find m = some q := hq
    rw [OrdMap.emplace_of_find_eq_none hacked, OrdMap.find_insert] at hq'
    split_ifs at hq' with hm
    · cases hq'
      subst hm
      exact ⟨by rw [OrdMap.find_erase, if_pos rfl], hresending, hwait, request, hne, hreq, hmsg, rfl⟩
    · obtain ⟨hnone, hrest⟩ := h.inv.acked m q hq'
      exact ⟨find_erase_none _ hnone, hrest⟩
  · intro q hq hcancelled herased
    have herased' : q ∉ s.log.erased ∧ q ≠ (s.requests request).requestId := by
      have : q ∉ s.log.erased ++ [(s.requests request).requestId] := herased
      rw [List.mem_append, List.mem_singleton, not_or] at this
      exact this
    rcases h.inv.given q hq hcancelled herased'.1 with hleft | ⟨m, r, hr, hrq⟩
    · exact Or.inl hleft
    · refine Or.inr ⟨m, r, ?_, hrq⟩
      have : (s.haveSent.erase msgId).find m = some r := by
        rw [OrdMap.find_erase, if_neg]
        · exact hr
        · rintro rfl
          rw [hfind] at hr
          cases hr
          exact herased'.2 hrq.symm
      exact this

/-- An id under which a request was sent before is forgotten. -/
lemma eraseResending (h : Sound bound issued s) (msgId : ℕ) :
    Sound bound issued { s with resendingIds := s.resendingIds.erase msgId } := by
  refine ⟨{ h.inv with resending := ?_, resendingWaits := ?_, acked := ?_ }, h.issued_eq⟩
  · intro m q hq
    exact h.inv.resending m q (find_of_erase hq).2
  · intro m q hq
    exact h.inv.resendingWaits m q (find_of_erase hq).2
  · intro m q hq
    obtain ⟨hsent, hresending, hrest⟩ := h.inv.acked m q hq
    exact ⟨hsent, find_erase_none _ hresending, hrest⟩

/-- A request that is to be sent again is acknowledged. -/
lemma ackResending (h : Sound bound issued s) {msgId requestId request : ℕ}
    (hfind : s.resendingIds.find msgId = some requestId)
    (hwaits : s.toSend.find requestId = some request) :
    Sound bound issued { s with
      resendingIds := s.resendingIds.erase msgId
      ackedIds := s.ackedIds.emplace msgId (s.requests request).requestId
      toSend := s.toSend.erase requestId
      log := { s.log with erased := s.log.erased ++ [requestId] } } := by
  obtain ⟨hsent, r, hne, hq, hmsg, hreq⟩ := h.inv.resending msgId requestId hfind
  obtain ⟨-, hown⟩ := h.inv.waits requestId request hwaits
  have hacked : s.ackedIds.find msgId = none := by
    cases hother : s.ackedIds.find msgId with
    | none => rfl
    | some q =>
      rw [(h.inv.acked msgId q hother).2.1] at hfind
      cases hfind
  refine ⟨{ h.inv with
    waits := ?_, sent := ?_, resending := ?_, resendingWaits := ?_, acked := ?_, given := ?_ }, h.issued_eq⟩
  · intro q r' hr'
    exact h.inv.waits q r' (find_of_erase hr').2
  · intro m r' hr'
    obtain ⟨hm, hmsg', hreq', hack, hwait⟩ := h.inv.sent m r' hr'
    exact ⟨hm, hmsg', hreq', hack, find_erase_none _ hwait⟩
  · intro m q hq'
    exact h.inv.resending m q (find_of_erase hq').2
  · intro m q hq'
    obtain ⟨hm, hq''⟩ := find_of_erase hq'
    obtain ⟨-, r', hm0, -, hmsg', hreq'⟩ := h.inv.resending m q hq''
    rcases h.inv.resendingWaits m q hq'' with hcancelled | ⟨other, hother⟩
    · exact Or.inl hcancelled
    · refine Or.inr ⟨other, ?_⟩
      show (s.toSend.erase requestId).find q = some other
      rw [OrdMap.find_erase, if_neg]
      · exact hother
      · rintro rfl
        have hsame : r' = r := h.inv.requestId_inj r r' (hreq.symm ▸ hq) (hreq'.trans hreq.symm)
        exact hm (by rw [← hmsg', hsame, hmsg])
  · intro m q hq'
    have hq'' : (s.ackedIds.emplace msgId (s.requests request).requestId).find m = some q := hq'
    rw [OrdMap.emplace_of_find_eq_none hacked, OrdMap.find_insert, hown] at hq''
    split_ifs at hq'' with hm
    · cases hq''
      subst hm
      exact ⟨hsent, by rw [OrdMap.find_erase, if_pos rfl], by rw [OrdMap.find_erase, if_pos rfl], r, hne,
        hq, hmsg, hreq⟩
    · obtain ⟨hsent', hresending, hwait, hrest⟩ := h.inv.acked m q hq''
      exact ⟨hsent', find_erase_none _ hresending, find_erase_none _ hwait, hrest⟩
  · intro q hq' hcancelled herased
    have herased' : q ∉ s.log.erased ∧ q ≠ requestId := by
      have : q ∉ s.log.erased ++ [requestId] := herased
      rw [List.mem_append, List.mem_singleton, not_or] at this
      exact this
    rcases h.inv.given q hq' hcancelled herased'.1 with ⟨r', hr'⟩ | hright
    · refine Or.inl ⟨r', ?_⟩
      have : (s.toSend.erase requestId).find q = some r' := by
        rw [OrdMap.find_erase, if_neg herased'.2]
        exact hr'
      exact this
    · exact Or.inr hright

lemma ackOne {acking : Session × List ℕ} (h : Sound bound issued acking.1) (hasCallback : ℕ → Bool)
    (byResponse : Bool) (msgId : ℕ) :
    Sound bound issued (ackOne hasCallback byResponse acking msgId).1 := by
  unfold Mtproto.ackOne
  dsimp only
  cases hcontainer : acking.1.sentContainers.find msgId with
  | some container => exact h.eraseContainer msgId
  | none =>
    dsimp only
    split_ifs with hstate
    · exact h.eraseState msgId
    · cases hsent : acking.1.haveSent.find msgId with
      | some request =>
        dsimp only
        split_ifs
        · exact h
        · exact h.ackSent hsent
      | none =>
        dsimp only
        cases hresending : acking.1.resendingIds.find msgId with
        | none => exact h
        | some requestId =>
          dsimp only
          split_ifs
          · exact h
          · cases hwaits : acking.1.toSend.find requestId with
            | none => exact h.eraseResending msgId
            | some request => exact h.ackResending hresending hwaits

lemma find_of_foldl_erase {keys : List ℕ} {entries : OrdMap ℕ ℕ} {key value : ℕ}
    (h : (keys.foldl OrdMap.erase entries).find key = some value) : entries.find key = some value := by
  induction keys generalizing entries with
  | nil => exact h
  | cons first rest ih => exact (find_of_erase (ih h)).2

/-- What is remembered as acknowledged was so before. -/
lemma find_of_trimAcked {entries : OrdMap ℕ ℕ} {key value : ℕ}
    (h : (trimAcked entries).find key = some value) : entries.find key = some value := by
  unfold Mtproto.trimAcked at h
  exact find_of_foldl_erase h

/-- Ids that were acknowledged are forgotten. -/
lemma forgetAcked (h : Sound bound issued s) {ackedIds : OrdMap ℕ ℕ}
    (hfind : ∀ m q, ackedIds.find m = some q → s.ackedIds.find m = some q) :
    Sound bound issued { s with ackedIds := ackedIds } :=
  ⟨{ h.inv with acked := fun m q hq => h.inv.acked m q (hfind m q hq) }, h.issued_eq⟩

lemma ackDepth (h : Sound bound issued s) (hasCallback : ℕ → Bool) (depth : ℕ) (msgIds : List ℕ)
    (byResponse : Bool) : Sound bound issued (ackDepth hasCallback depth s msgIds byResponse) := by
  induction depth generalizing s msgIds byResponse with
  | zero => exact h
  | succ depth ih =>
    have hacking : Sound bound issued (msgIds.foldl (Mtproto.ackOne hasCallback byResponse) (s, [])).1 :=
      List.foldlRecOn msgIds _ (motive := fun acking : Session × List ℕ => Sound bound issued acking.1) h
        fun acking hacking msgId _ => hacking.ackOne hasCallback byResponse msgId
    unfold Mtproto.ackDepth
    dsimp only
    split_ifs
    · exact hacking.forgetAcked fun _ _ => find_of_trimAcked
    · exact ih (hacking.forgetAcked fun _ _ => find_of_trimAcked) _ _

theorem requestsAcked (h : Sound bound issued s) (hasCallback : ℕ → Bool) (msgIds : List ℕ)
    (byResponse : Bool) : Sound bound issued (requestsAcked hasCallback s msgIds byResponse) :=
  h.ackDepth hasCallback _ msgIds byResponse

/-! ### Sending again -/

/-- A request that was sent waits again. The maps are those before its entry in `haveSent` is taken out. -/
lemma requeue (h : Sound bound issued s) {msgId request : ℕ} (hfind : s.haveSent.find msgId = some request) :
    Sound bound issued (Session.emplaceToSend { s with
      haveSent := s.haveSent.erase msgId
      resendingIds := s.resendingIds.emplace msgId (s.requests request).requestId }
        (s.requests request).requestId request) := by
  obtain ⟨hne, hmsg, hreq, hack, hwait⟩ := h.inv.sent msgId request hfind
  have hresending : s.resendingIds.find msgId = none := by
    cases hother : s.resendingIds.find msgId with
    | none => rfl
    | some q =>
      rw [(h.inv.resending msgId q hother).1] at hfind
      cases hfind
  have hacked : s.ackedIds.find msgId = none := by
    cases hother : s.ackedIds.find msgId with
    | none => rfl
    | some q =>
      rw [(h.inv.acked msgId q hother).1] at hfind
      cases hfind
  have htoSend : ∀ q, (s.toSend.emplace (s.requests request).requestId request).find q =
      if q = (s.requests request).requestId then some request else s.toSend.find q := by
    intro q
    rw [OrdMap.emplace_of_find_eq_none hwait, OrdMap.find_insert]
  have hre : ∀ m, (s.resendingIds.emplace msgId (s.requests request).requestId).find m =
      if m = msgId then some (s.requests request).requestId else s.resendingIds.find m := by
    intro m
    rw [OrdMap.emplace_of_find_eq_none hresending, OrdMap.find_insert]
  unfold Session.emplaceToSend
  refine ⟨{ h.inv with
    waits := ?_, sent := ?_, resending := ?_, resendingWaits := ?_, acked := ?_, given := ?_,
    dropped := ?_ }, h.issued_eq⟩
  · intro q r hr
    have hr' : (s.toSend.emplace (s.requests request).requestId request).find q = some r := hr
    rw [htoSend] at hr'
    split_ifs at hr' with hq
    · cases hr'
      exact ⟨hq ▸ hreq, hq.symm⟩
    · exact h.inv.waits q r hr'
  · intro m r hr
    obtain ⟨hm, hr'⟩ := find_of_erase hr
    obtain ⟨hm0, hmsg', hreq', hack', hwait'⟩ := h.inv.sent m r hr'
    refine ⟨hm0, hmsg', hreq', hack', ?_⟩
    show (s.toSend.emplace (s.requests request).requestId request).find (s.requests r).requestId = none
    rw [htoSend, if_neg]
    · exact hwait'
    · intro hsame
      have hrr := h.inv.requestId_inj request r hreq hsame
      rw [hrr] at hmsg'
      exact hm (hmsg'.symm.trans hmsg)
  · intro m q hq
    have hq' : (s.resendingIds.emplace msgId (s.requests request).requestId).find m = some q := hq
    rw [hre] at hq'
    split_ifs at hq' with hm
    · cases hq'
      subst hm
      exact ⟨by rw [OrdMap.find_erase, if_pos rfl], request, hne, hreq, hmsg, rfl⟩
    · obtain ⟨hnone, hrest⟩ := h.inv.resending m q hq'
      exact ⟨find_erase_none _ hnone, hrest⟩
  · intro m q hq
    have hq' : (s.resendingIds.emplace msgId (s.requests request).requestId).find m = some q := hq
    show q ∈ s.log.cancelled ∨ ∃ r, (s.toSend.emplace (s.requests request).requestId request).find q = some r
    rw [htoSend]
    by_cases hown : q = (s.requests request).requestId
    · exact Or.inr ⟨request, if_pos hown⟩
    · rw [if_neg hown]
      rw [hre] at hq'
      split_ifs at hq' with hm
      · exact absurd (Option.some.inj hq').symm hown
      · exact h.inv.resendingWaits m q hq'
  · intro m q hq
    obtain ⟨hsent, hresending', hwait', r, hm, hq0, hmsg', hreq'⟩ := h.inv.acked m q hq
    have hmne : m ≠ msgId := by
      rintro rfl
      rw [hacked] at hq
      cases hq
    refine ⟨find_erase_none _ hsent, ?_, ?_, r, hm, hq0, hmsg', hreq'⟩
    · show (s.resendingIds.emplace msgId (s.requests request).requestId).find m = none
      rw [hre, if_neg hmne]
      exact hresending'
    · show (s.toSend.emplace (s.requests request).requestId request).find q = none
      rw [htoSend, if_neg]
      · exact hwait'
      · intro hsame
        have hrr := h.inv.requestId_inj request r hreq (hreq'.trans hsame)
        rw [hrr] at hmsg'
        exact hmne (hmsg'.symm.trans hmsg)
  · intro q hq hcancelled herased
    rcases h.inv.given q hq hcancelled herased with ⟨r, hr⟩ | ⟨m, r, hr, hrq⟩
    · refine Or.inl ⟨r, ?_⟩
      show (s.toSend.emplace (s.requests request).requestId request).find q = some r
      rw [htoSend, if_neg]
      · exact hr
      · rintro rfl
        rw [hwait] at hr
        cases hr
    · by_cases hm : m = msgId
      · subst hm
        rw [hfind] at hr
        cases hr
        refine Or.inl ⟨request, ?_⟩
        show (s.toSend.emplace (s.requests request).requestId request).find q = some request
        rw [htoSend, if_pos hrq.symm]
      · refine Or.inr ⟨m, r, ?_, hrq⟩
        show (s.haveSent.erase msgId).find m = some r
        rw [OrdMap.find_erase, if_neg hm]
        exact hr
  · show (s.log.dropped || s.toSend.contains (s.requests request).requestId) = false
    rw [h.inv.dropped, OrdMap.contains_eq_false_iff.mpr hwait]
    rfl

/-- A change of a request that the invariant does not see. -/
lemma setRequest (h : Sound bound issued s) (request : ℕ) (change : RequestData → RequestData)
    (hmsg : ∀ data, (change data).msgId = data.msgId)
    (hreq : ∀ data, (change data).requestId = data.requestId)
    (hack : ∀ data, (change data).needAck = data.needAck) :
    Sound bound issued (s.setRequest request change) :=
  ⟨h.inv.setRequest request change hmsg hreq hack, h.issued_eq⟩

lemma resendMessage (h : Sound bound issued s) (now msgId : ℕ) :
    Sound bound issued (resendMessage now s msgId) := by
  unfold Mtproto.resendMessage
  cases hfind : s.haveSent.find msgId with
  | none => exact h
  | some request =>
    have hqueued := (h.requeue hfind).setRequest request
      (fun data => { data with lastSentTime := now, forceSendInContainer := true })
      (fun _ => rfl) (fun _ => rfl) (fun _ => rfl)
    have hrequestId : ((Session.setRequest { s with haveSent := s.haveSent.erase msgId } request fun data =>
        { data with lastSentTime := now, forceSendInContainer := true }).requests request).requestId =
        (s.requests request).requestId := by
      simp [Session.setRequest]
    dsimp only
    rw [hrequestId]
    exact hqueued

lemma resendDepth (h : Sound bound issued s) (now depth msgId : ℕ) :
    Sound bound issued (resendDepth now depth s msgId) := by
  induction depth generalizing s msgId with
  | zero => exact h
  | succ depth ih =>
    unfold Mtproto.resendDepth
    dsimp only
    refine clearSpecialMsgId ?_ msgId
    cases hcontainer : s.sentContainers.find msgId with
    | none => exact h.resendMessage now msgId
    | some container =>
      exact List.foldlRecOn container.messages _ (motive := fun s : Session => Sound bound issued s)
        (h.eraseContainer msgId) fun s hs innerMsgId _ => ih hs innerMsgId

theorem resend (h : Sound bound issued s) (now msgId : ℕ) : Sound bound issued (resend now s msgId) :=
  h.resendDepth now _ msgId

/-- The requests of `haveSent` wait again, one after the other. -/
lemma resendEntries (now : ℕ) {entries : List (ℕ × ℕ)} {haveSent : OrdMap ℕ ℕ}
    (hentries : haveSent.entries = entries) (hempty : s.haveSent = ∅)
    (h : Sound bound issued { s with haveSent := haveSent }) :
    Sound bound issued (entries.foldl (resendEntry now) s) := by
  induction entries generalizing s haveSent with
  | nil =>
    have hsame : haveSent = ∅ := by
      cases haveSent
      cases hentries
      rfl
    rw [hsame, ← hempty] at h
    exact h
  | cons entry rest ih =>
    obtain ⟨msgId, request⟩ := entry
    have hfind : haveSent.find msgId = some request :=
      OrdMap.find_eq_some_iff.mpr (hentries ▸ List.mem_cons_self)
    have hrest : (haveSent.erase msgId).entries = rest := by
      have hnodup := OrdMap.nodup_keys haveSent
      unfold OrdMap.keys at hnodup
      rw [hentries, List.map_cons, List.nodup_cons] at hnodup
      unfold OrdMap.erase
      simp only [hentries]
      rw [List.filter_cons_of_neg (by simp)]
      refine List.filter_eq_self.mpr fun other hother => decide_eq_true fun hsame => ?_
      exact hnodup.1 (List.mem_map.mpr ⟨other, hother, hsame⟩)
    have hqueued := (h.requeue hfind).setRequest request
      (fun data => { data with lastSentTime := now, forceSendInContainer := true })
      (fun _ => rfl) (fun _ => rfl) (fun _ => rfl)
    exact ih hrest hempty hqueued

theorem resendAll (h : Sound bound issued s) (now : ℕ) : Sound bound issued (resendAll now s) :=
  resendEntries now rfl rfl h

theorem clearOldContainers (h : Sound bound issued s) (now : ℕ) :
    Sound bound issued (clearOldContainers now s) := by
  refine List.foldlRecOn s.sentContainers.keys _ (motive := fun s : Session => Sound bound issued s) h
    fun s hs containerId _ => ?_
  unfold clearContainer
  cases hcontainer : s.sentContainers.find containerId with
  | none => exact hs
  | some container =>
    dsimp only
    split_ifs
    · exact List.foldlRecOn container.messages _ (motive := fun s : Session => Sound bound issued s)
        (hs.eraseContainer containerId) fun s hs innerMsgId _ => hs.resend now innerMsgId
    · exact hs

theorem handleMsgsStates (h : Sound bound issued s) (hasCallback : ℕ → Bool) (now : ℕ) (msgIds : List ℕ)
    (states : List UInt8) : Sound bound issued (handleMsgsStates hasCallback now s msgIds states) := by
  unfold Mtproto.handleMsgsStates
  split_ifs
  · exact h
  · exact h
  · refine requestsAcked ?_ hasCallback _ false
    refine List.foldlRecOn (msgIds.zip states) _
      (motive := fun handling : Session × List ℕ => Sound bound issued handling.1) h
      fun handling hhandling state _ => ?_
    unfold handleState
    dsimp only
    split_ifs
    · exact hhandling.resend now _
    · exact hhandling
    · exact hhandling
    · exact hhandling

theorem checkSentRequests (h : Sound bound issued s) (now : ℕ) :
    Sound bound issued (checkSentRequests now s) := by
  refine List.foldlRecOn s.haveSent.entries _ (motive := fun s : Session => Sound bound issued s) h
    fun s hs entry _ => ?_
  dsimp only
  split_ifs
  · have htimed := hs.setRequest entry.2 (fun data => { data with lastSentTime := now })
      (fun _ => rfl) (fun _ => rfl) (fun _ => rfl)
    exact ⟨{ htimed.inv with }, htimed.issued_eq⟩
  · exact hs

/-! ### Answers -/

/-- Something is received. -/
lemma receive (h : Sound bound issued s) (haveReceived : List Response) :
    Sound bound issued { s with haveReceived := haveReceived } :=
  ⟨{ h.inv with }, h.issued_eq⟩

theorem handleRpcResult (h : Sound bound issued s) (hasCallback : ℕ → Bool) (keyCreator : Bool)
    (result : RpcResult) : Sound bound issued (handleRpcResult hasCallback keyCreator s result) := by
  unfold Mtproto.handleRpcResult
  dsimp only
  have hacked := h.requestsAcked hasCallback [result.requestMsgId] true
  split_ifs
  · exact h
  · exact hacked.clearBind
  · exact hacked.receive _
  · exact hacked

theorem handleNewSession (h : Sound bound issued s) (now firstMsgId outerMsgId : ℕ) (update : List UInt32) :
    Sound bound issued (handleNewSession now s firstMsgId outerMsgId update) := by
  unfold Mtproto.handleNewSession
  dsimp only
  exact receive (List.foldlRecOn _ _ (motive := fun s : Session => Sound bound issued s) h
    fun s hs msgId _ => hs.resend now msgId) _

/-! ### Requests -/

/-- **A request is given**: its id is its own, and it waits. -/
theorem sendPrepared (h : Sound bound issued s) {data : RequestData} (hrequestId : data.requestId ≠ 0)
    (hlt : data.requestId < 2 ^ 31)
    (hnew : ∀ r, (s.requests r).requestId ≠ data.requestId) :
    Sound bound issued (sendPrepared s data) := by
  have hwait : s.toSend.find data.requestId = none := by
    cases hother : s.toSend.find data.requestId with
    | none => rfl
    | some r => exact absurd (h.inv.waits _ r hother).2 (hnew r)
  have hfind : ∀ q, (s.toSend.emplace data.requestId s.nextRequest).find q =
      if q = data.requestId then some s.nextRequest else s.toSend.find q := by
    intro q
    rw [OrdMap.emplace_of_find_eq_none hwait, OrdMap.find_insert]
  have hfresh := h.inv.fresh s.nextRequest le_rfl
  set cleared : RequestData := { data with msgId := 0, seqNo := 0 }
  set requests := Function.update s.requests s.nextRequest cleared with hrequests
  have hself : requests s.nextRequest = cleared := by
    rw [hrequests, Function.update_self]
  have hother : ∀ r, r ≠ s.nextRequest → requests r = s.requests r := fun r hr => by
    rw [hrequests, Function.update_of_ne hr]
  have hmsg : ∀ r, (requests r).msgId = (s.requests r).msgId := by
    intro r
    by_cases hr : r = s.nextRequest
    · rw [hr, hself, hfresh.1]
    · rw [hother r hr]
  -- a reference to a request is not the new one
  have hrefs : ∀ r, (s.requests r).requestId ≠ 0 → requests r = s.requests r := by
    intro r hr
    refine hother r ?_
    rintro rfl
    exact hr hfresh.2
  have hkeep : ∀ (given : List ℕ), (∀ q ∈ given, q ∈ s.log.given ∨ q = data.requestId ∧ data.needAck = true) →
      Sound bound issued { s with
        requests := requests
        nextRequest := s.nextRequest + 1
        toSend := s.toSend.emplace data.requestId s.nextRequest
        log := { s.log with
          dropped := s.log.dropped || s.toSend.contains data.requestId
          given := given } } := by
    intro given hgiven
    refine ⟨
      { fresh := ?_, lt := ?_, requestId_lt := ?_, msgId_inj := ?_, requestId_inj := ?_, waits := ?_,
        sent := ?_, resending := ?_, resendingWaits := ?_, acked := ?_, service := ?_, given := ?_,
        givenAck := ?_, dropped := ?_, under := ?_, above := h.inv.above }, h.issued_eq⟩
    · intro r hr
      have hr' : s.nextRequest + 1 ≤ r := hr
      show (requests r).msgId = 0 ∧ (requests r).requestId = 0
      rw [hother r (by omega)]
      exact h.inv.fresh r (by omega)
    · intro r
      show (requests r).msgId < bound
      rw [hmsg]
      exact h.inv.lt r
    · intro r
      show (requests r).requestId < 2 ^ 31
      by_cases hr : r = s.nextRequest
      · rw [hr, hself]
        exact hlt
      · rw [hother r hr]
        exact h.inv.requestId_lt r
    · simpa only [hmsg] using h.inv.msgId_inj
    · intro r r' hr heq
      have hr1 : (requests r).requestId ≠ 0 := hr
      have heq1 : (requests r').requestId = (requests r).requestId := heq
      by_cases hrn : r = s.nextRequest
      · by_contra hr'
        rw [hrn, hself, hother r' (fun hsame => hr' (hsame.trans hrn.symm))] at heq1
        exact hnew r' heq1
      · rw [hother r hrn] at hr1 heq1
        by_cases hr' : r' = s.nextRequest
        · rw [hr', hself] at heq1
          exact absurd heq1.symm (hnew r)
        · rw [hother r' hr'] at heq1
          exact h.inv.requestId_inj r r' hr1 heq1
    · intro q r hr
      have hr' : (s.toSend.emplace data.requestId s.nextRequest).find q = some r := hr
      rw [hfind] at hr'
      split_ifs at hr' with hq
      · cases hr'
        refine ⟨hq ▸ hrequestId, ?_⟩
        show (requests s.nextRequest).requestId = q
        rw [hself]
        exact hq.symm
      · obtain ⟨hq0, hrq⟩ := h.inv.waits q r hr'
        refine ⟨hq0, ?_⟩
        show (requests r).requestId = q
        rw [hrefs r (by rw [hrq]; exact hq0), hrq]
    · intro m r hr
      obtain ⟨hm, hm', hreq, hack, hnone⟩ := h.inv.sent m r hr
      show m ≠ 0 ∧ (requests r).msgId = m ∧ (requests r).requestId ≠ 0 ∧ (requests r).needAck = true ∧
        (s.toSend.emplace data.requestId s.nextRequest).find (requests r).requestId = none
      rw [hrefs r hreq, hfind, if_neg (hnew r)]
      exact ⟨hm, hm', hreq, hack, hnone⟩
    · intro m q hq
      obtain ⟨hnone, r, hm, hq0, hm', hrq⟩ := h.inv.resending m q hq
      refine ⟨hnone, r, hm, hq0, ?_, ?_⟩
      · exact (hmsg r).trans hm'
      · show (requests r).requestId = q
        rw [hrefs r (by rw [hrq]; exact hq0), hrq]
    · intro m q hq
      show q ∈ s.log.cancelled ∨ ∃ r, (s.toSend.emplace data.requestId s.nextRequest).find q = some r
      rw [hfind]
      by_cases hown : q = data.requestId
      · exact Or.inr ⟨_, if_pos hown⟩
      · rw [if_neg hown]
        exact h.inv.resendingWaits m q hq
    · intro m q hq
      obtain ⟨hnone, hresending, hnot, r, hm, hq0, hm', hrq⟩ := h.inv.acked m q hq
      refine ⟨hnone, hresending, ?_, r, hm, hq0, (hmsg r).trans hm', ?_⟩
      · show (s.toSend.emplace data.requestId s.nextRequest).find q = none
        rw [hfind, if_neg (by rw [← hrq]; exact hnew r), hnot]
      · show (requests r).requestId = q
        rw [hrefs r (by rw [hrq]; exact hq0), hrq]
    · intro m hm hm0
      obtain ⟨r, hm', hrq⟩ := h.inv.service m hm hm0
      refine ⟨r, (hmsg r).trans hm', ?_⟩
      show (requests r).requestId = 0
      rw [hother r, hrq]
      rintro rfl
      exact hm0 (hm'.symm.trans hfresh.1)
    · intro q hq hcancelled herased
      show (∃ r, (s.toSend.emplace data.requestId s.nextRequest).find q = some r) ∨
        ∃ m r, s.haveSent.find m = some r ∧ (requests r).requestId = q
      rw [hfind]
      by_cases hown : q = data.requestId
      · exact Or.inl ⟨_, if_pos hown⟩
      · rw [if_neg hown]
        rcases h.inv.given q ((hgiven q hq).resolve_right fun hnot => hown hnot.1) hcancelled herased with
          hleft | ⟨m, r, hr, hrq⟩
        · exact Or.inl hleft
        · exact Or.inr ⟨m, r, hr, by rw [hrefs r (h.inv.sent m r hr).2.2.1, hrq]⟩
    · intro q hq
      show q ≠ 0 ∧ ∃ r, (requests r).requestId = q ∧ (requests r).needAck = true
      rcases hgiven q hq with hq | ⟨rfl, hack⟩
      · obtain ⟨hq0, r, hrq, hack⟩ := h.inv.givenAck q hq
        exact ⟨hq0, r, by rw [hrefs r (hrq.symm ▸ hq0)]; exact ⟨hrq, hack⟩⟩
      · exact ⟨hrequestId, s.nextRequest, by rw [hself]; exact ⟨rfl, hack⟩⟩
    · show (s.log.dropped || s.toSend.contains data.requestId) = false
      rw [h.inv.dropped, OrdMap.contains_eq_false_iff.mpr hwait]
      rfl
    · intro r hr hrq
      have hr1 : (requests r).msgId ≠ 0 := hr
      rw [hmsg] at hr1
      have hrn : r ≠ s.nextRequest := by
        rintro rfl
        exact hr1 hfresh.1
      show s.log.sentUnder.find (requests r).msgId = some (requests r).requestId
      have hrq1 : (requests r).requestId ≠ 0 := hrq
      rw [hother r hrn] at hrq1 ⊢
      exact h.inv.under r hr1 hrq1
  have hupdate : Function.update (Function.update s.requests s.nextRequest data) s.nextRequest
      { Function.update s.requests s.nextRequest data s.nextRequest with msgId := 0, seqNo := 0 } =
        requests := by
    rw [Function.update_idem, Function.update_self]
  unfold Mtproto.sendPrepared Session.makeRequest Session.emplaceToSend Session.setRequest
  dsimp only
  rw [hupdate]
  split_ifs with hneed
  · exact hkeep (s.log.given ++ [data.requestId]) fun q hq => by
      rcases List.mem_append.mp hq with hq | hq
      · exact Or.inl hq
      · exact Or.inr ⟨List.mem_singleton.mp hq, hneed⟩
  · exact hkeep s.log.given fun q hq => Or.inl hq

/-- A request that was cancelled is not sent any more. -/
lemma eraseSent (h : Sound bound issued s) {msgId : ℕ}
    (hcancelled : ∀ r, s.haveSent.find msgId = some r → (s.requests r).requestId ∈ s.log.cancelled) :
    Sound bound issued { s with haveSent := s.haveSent.erase msgId } := by
  refine ⟨{ h.inv with sent := ?_, resending := ?_, acked := ?_, given := ?_ }, h.issued_eq⟩
  · intro m r hr
    exact h.inv.sent m r (find_of_erase hr).2
  · intro m q hq
    obtain ⟨hnone, hrest⟩ := h.inv.resending m q hq
    exact ⟨find_erase_none _ hnone, hrest⟩
  · intro m q hq
    obtain ⟨hnone, hrest⟩ := h.inv.acked m q hq
    exact ⟨find_erase_none _ hnone, hrest⟩
  · intro q hq hnot herased
    rcases h.inv.given q hq hnot herased with hleft | ⟨m, r, hr, hrq⟩
    · exact Or.inl hleft
    · refine Or.inr ⟨m, r, ?_, hrq⟩
      show (s.haveSent.erase msgId).find m = some r
      rw [OrdMap.find_erase, if_neg]
      · exact hr
      · rintro rfl
        exact hnot (hrq ▸ hcancelled r hr)

theorem cancel (h : Sound bound issued s) (request : ℕ) (known : Bool) :
    Sound bound issued (cancel s (s.requests request).requestId
      (if known then (s.requests request).msgId else 0)) := by
  have hcancel : Sound bound issued { s with
      toSend := s.toSend.erase (s.requests request).requestId
      log := { s.log with cancelled := s.log.cancelled ++ [(s.requests request).requestId] } } := by
    refine ⟨{ h.inv with waits := ?_, sent := ?_, resendingWaits := ?_, acked := ?_, given := ?_ },
      h.issued_eq⟩
    · intro q r hr
      exact h.inv.waits q r (find_of_erase hr).2
    · intro m r hr
      obtain ⟨hm, hmsg, hreq, hack, hnone⟩ := h.inv.sent m r hr
      exact ⟨hm, hmsg, hreq, hack, find_erase_none _ hnone⟩
    · intro m q hq
      show q ∈ s.log.cancelled ++ [(s.requests request).requestId] ∨
        ∃ r, (s.toSend.erase (s.requests request).requestId).find q = some r
      by_cases hown : q = (s.requests request).requestId
      · exact Or.inl (List.mem_append_right _ (List.mem_singleton.mpr hown))
      · rw [OrdMap.find_erase, if_neg hown]
        exact (h.inv.resendingWaits m q hq).imp_left fun hin => List.mem_append_left _ hin
    · intro m q hq
      obtain ⟨hsent, hresending, hnone, hrest⟩ := h.inv.acked m q hq
      exact ⟨hsent, hresending, find_erase_none _ hnone, hrest⟩
    · intro q hq hcancelled herased
      have hcancelled' : q ∉ s.log.cancelled ++ [(s.requests request).requestId] := hcancelled
      rw [List.mem_append, List.mem_singleton, not_or] at hcancelled'
      rcases h.inv.given q hq hcancelled'.1 herased with ⟨r, hr⟩ | hright
      · refine Or.inl ⟨r, ?_⟩
        show (s.toSend.erase (s.requests request).requestId).find q = some r
        rw [OrdMap.find_erase, if_neg hcancelled'.2]
        exact hr
      · exact Or.inr hright
  have htoSend : (if (s.requests request).requestId ≠ 0 then
      { s with toSend := s.toSend.erase (s.requests request).requestId } else s) =
      { s with toSend := s.toSend.erase (s.requests request).requestId } := by
    split_ifs with hzero
    · rfl
    · rw [not_not] at hzero
      have hnone : s.toSend.find 0 = none := by
        cases hfind : s.toSend.find 0 with
        | none => rfl
        | some r => exact absurd rfl (h.inv.waits 0 r hfind).1
      rw [hzero, OrdMap.erase_of_find_eq_none hnone]
  unfold Mtproto.cancel
  dsimp only
  rw [htoSend]
  cases known with
  | false => exact hcancel
  | true =>
    rw [if_pos rfl]
    split_ifs with hmsgId
    · refine hcancel.eraseSent fun r hr => ?_
      have hsame : r = request := h.inv.msgId_inj request r hmsgId (h.inv.sent _ r hr).2.1
      exact List.mem_append_right _ (List.mem_singleton.mpr (by rw [hsame]))
    · exact hcancel

/-! ### Time -/

/-- Another session with the server: the queues stay. -/
theorem resetSession (h : Sound bound issued s) : Sound bound issued (resetSession s) :=
  ⟨{ h.inv with }, h.issued_eq⟩

/-- Something is to be said with the next messages. -/
theorem queue (h : Sound bound issued s) (acks resends : List ℕ) (pingIdToSend : ℕ) :
    Sound bound issued { s with
      ackRequestData := s.ackRequestData ++ acks
      resendRequestData := s.resendRequestData ++ resends
      pingIdToSend := pingIdToSend } :=
  ⟨{ h.inv with }, h.issued_eq⟩

end Sound

end Mtproto
