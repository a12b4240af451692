import Telegravim.E2E.Readiness

set_option autoImplicit false

/-!
# Encrypted chat: the handshake ends

Two accounts with frames in flight between them and no further action of a user: only `receive`
runs, on any frame in flight, any number of times and in any order, and its replies are in
flight from then on. Every request that takes effect is acknowledged, and it may be answered by
the request of the receiver, which takes effect on the other side. Each request is paid once: a
request in flight at first pays five, a request made since pays one, and a side that did not
hear the current challenge of the other last has two to spend.

## Main definitions

* `E2E.Link`, `E2E.Traffic`, `E2E.Delivery` — the two accounts, what is in flight, and one
  delivery.
* `E2E.World.pending` — the requests in flight that a side did not accept yet.
* `E2E.handshakeBound` — the bound on the replies.

## Main results

* `E2E.receive_pays` — what one delivery costs.
* `E2E.handshake_bounded` — what all deliveries cost.
-/

namespace E2E

open Text

variable {S : Session}

/-! ### Requests in flight -/

/-- Whether an envelope is a request, by its kind. -/
def isRequest (envelope : Text) : Bool := (split envelope 46)[1]? = some (u "ON")

/-- The number of requests among envelopes. -/
def requests (envelopes : List Text) : ℕ := envelopes.countP isRequest

variable (S) in
/-- Whether the number an envelope names is bound. -/
def World.spent (w : World) (peerId : PeerId) (envelope : Text) : Bool :=
  (envelopeNames false envelope).any fun named =>
    (w.binding S peerId named.1 false named.2).isSome

variable (S) in
/-- The number of requests among envelopes whose number is not bound yet. -/
def World.pending (w : World) (peerId : PeerId) (envelopes : List Text) : ℕ :=
  envelopes.countP fun envelope => isRequest envelope && !w.spent S peerId envelope

lemma pending_le_requests (w : World) (peerId : PeerId) (envelopes : List Text) :
    w.pending S peerId envelopes ≤ requests envelopes :=
  List.countP_mono_left fun _ _ h => (Bool.and_eq_true_iff.mp h).1

lemma pending_append (w : World) (peerId : PeerId) (as bs : List Text) :
    w.pending S peerId (as ++ bs) = w.pending S peerId as + w.pending S peerId bs :=
  List.countP_append

/-- What is bound stays so. -/
lemma spent_lasts {w w' : World} {events : List Event} (h : Advance S w w' events)
    {peerId : PeerId} {envelope : Text} (hspent : w.spent S peerId envelope = true) :
    w'.spent S peerId envelope = true := by
  unfold World.spent at hspent ⊢
  cases hnames : envelopeNames false envelope with
  | none => simp [hnames] at hspent
  | some named =>
    simp only [hnames, Option.any_some, Option.isSome_iff_exists] at hspent ⊢
    obtain ⟨r, hr⟩ := hspent
    obtain ⟨r', hr', -⟩ := binding_lasts h hr
    exact ⟨r', hr'⟩

lemma pending_of_advance {w w' : World} {events : List Event} (h : Advance S w w' events)
    (peerId : PeerId) (envelopes : List Text) :
    w'.pending S peerId envelopes ≤ w.pending S peerId envelopes := by
  refine List.countP_mono_left fun envelope _ hpending => ?_
  simp only [Bool.and_eq_true, Bool.not_eq_true'] at hpending ⊢
  refine ⟨hpending.1, ?_⟩
  by_contra hspent
  rw [Bool.not_eq_false] at hspent
  rw [spent_lasts h hspent] at hpending
  exact absurd hpending.2 (by simp)

/-- A request that gets bound is not pending any more. -/
lemma pending_of_bound {w w' : World} {events : List Event} (h : Advance S w w' events)
    {peerId : PeerId} {envelopes : List Text} {envelope : Text} (hmem : envelope ∈ envelopes)
    (hrequest : isRequest envelope = true) (hbefore : w.spent S peerId envelope = false)
    (hafter : w'.spent S peerId envelope = true) :
    w'.pending S peerId envelopes + 1 ≤ w.pending S peerId envelopes := by
  obtain ⟨as, bs, rfl⟩ := List.append_of_mem hmem
  have has := pending_of_advance h peerId as
  have hbs := pending_of_advance h peerId bs
  have hcons : ∀ v : World, v.pending S peerId (envelope :: bs) =
      v.pending S peerId bs + if isRequest envelope && !v.spent S peerId envelope then 1 else 0 :=
    fun v => List.countP_cons
  rw [pending_append, pending_append, hcons, hcons, hrequest, hbefore, hafter]
  simp only [Bool.not_true, Bool.and_false, Bool.false_eq_true, if_false, Bool.not_false,
    Bool.and_self, if_true]
  omega

/-! ### Replies -/

/-- The replies of what `receive` returned. -/
def repliesOf (message : Option ReceivedMessage) : List Text :=
  (message.map ReceivedMessage.replies).getD []

/-- The challenge of one's own towards a peer. -/
def World.challenge (w : World) (peerId : PeerId) : Text :=
  ((w.peer peerId).map fun state => state.mode.challenge).getD []

lemma text_eq_on {kind : Kind} : kind.text = u "ON" ↔ kind = .on := by
  cases kind <;> decide

/-- The kind of a sealed frame is in its text. -/
lemma isRequest_sealFrame {peerId : PeerId} {kind : Kind} {plaintext active frame : Text}
    {identity : Identity} {peerKey : Bytes} {sequence : ℕ} {nonce : Option (RandomBytes 12)}
    (hactive : (46 : UInt16) ∉ active)
    (h : sealFrame S peerId kind plaintext identity active peerKey sequence nonce = some frame) :
    isRequest frame = decide (kind = .on) := by
  obtain ⟨_, _, hsplit⟩ := split_sealFrame hactive h
  simp only [isRequest, hsplit, List.getElem?_cons_succ, List.getElem?_cons_zero,
    Option.some.injEq, text_eq_on]

/-- A request that opens is one by its kind. -/
lemma isRequest_of_openFrame {identity : Identity} {keys : OrdMap Text Key} {remoteId : ℕ}
    {envelope : Text} {frame : Frame}
    (h : openFrame S identity keys remoteId false envelope = some frame) (hkind : frame.kind = .on) :
    isRequest envelope = true := by
  obtain ⟨_, _, _, _, _, _, hsplit, -⟩ := openFrame_inv h
  simp only [isRequest, hsplit, List.getElem?_cons_succ, List.getElem?_cons_zero,
    Option.some.injEq, text_eq_on, hkind, decide_true]

/-- The text of a challenge survives its encoding. -/
lemma decode_challenge {mode : Mode} (h : ValidMode mode) :
    Utf8.decodeStateful (Utf8.toUtf8 mode.challenge) = some mode.challenge := by
  by_cases hnil : mode.challenge = []
  · rw [hnil]; rfl
  · exact Utf8.decodeStateful_toUtf8_of_ascii fun c hc =>
      lt_128_of_validChallenge (h.challenge hnil) hc

/-- The replies of an answer are those of its events. -/
lemma replies_of_map {peerId : PeerId} {replies : List Text} {events : List Event}
    (h : replies.map (Prod.mk peerId) = events.filterMap Event.made) :
    replies = (events.filterMap Event.made).map Prod.snd := by
  rw [← h, List.map_map]
  exact (List.map_id _).symm

/-- Whether a frame, if it opens as a request, brings a challenge. -/
def Carries (T : Session) (remoteId : ℕ) (challenge : Text) (envelope : Text) : Prop :=
  ∀ identity keys frame, openFrame T identity keys remoteId false envelope = some frame →
    frame.kind = .on → frame.plaintext = challenge

/-- **The replies to a frame**: an acknowledgment and a repeated request, the latter only when
the request brought another challenge, and every request carries one's own challenge. -/
lemma replies_count {a b : Ledger} {peerId : PeerId} {effect : Bool} {frame : Frame} {mode : Mode}
    {replies : List Text} {events : List Event}
    (htrace : Trace (Step S) a events b) (h : Replies peerId effect frame mode events)
    (hmade : replies.map (Prod.mk peerId) = events.filterMap Event.made) :
    requests replies ≤ 1 ∧ replies.length ≤ 1 + requests replies ∧
      (repeatsOn frame.plaintext mode = false → requests replies = 0) ∧
      ∀ envelope ∈ replies, isRequest envelope = true →
        ∃ active sequence, .sent peerId .on mode.challenge active sequence true envelope ∈
          events := by
  have hreplies := replies_of_map hmade
  obtain ⟨acks, ons, rfl, hacks, hons⟩ := h
  rw [List.filterMap_append, List.map_append] at hreplies
  have hack : requests ((acks.filterMap Event.made).map Prod.snd) = 0 ∧
      ((acks.filterMap Event.made).map Prod.snd).length ≤ 1 ∧
      ∀ envelope ∈ (acks.filterMap Event.made).map Prod.snd, isRequest envelope = false := by
    rcases hacks with rfl | ⟨-, -, active, sequence, text, rfl⟩
    · simp [requests]
    · obtain ⟨hactive, ⟨_, _, _, hseal⟩, -⟩ := sent_of_mem htrace
        (List.mem_append_left _ (List.mem_singleton_self _))
      have := isRequest_sealFrame hactive hseal
      simp [requests, Event.made, this]
  have hon : requests ((ons.filterMap Event.made).map Prod.snd) =
        ((ons.filterMap Event.made).map Prod.snd).length ∧
      ((ons.filterMap Event.made).map Prod.snd).length ≤ 1 ∧
      (repeatsOn frame.plaintext mode = false → ons = []) ∧
      ∀ envelope ∈ (ons.filterMap Event.made).map Prod.snd,
        ∃ active sequence, .sent peerId .on mode.challenge active sequence true envelope ∈
          ons := by
    rcases hons with rfl | ⟨-, -, hrepeats, active, sequence, text, rfl⟩
    · simp [requests]
    · obtain ⟨hactive, ⟨_, _, _, hseal⟩, -⟩ := sent_of_mem htrace
        (List.mem_append_right _ (List.mem_singleton_self _))
      have := isRequest_sealFrame hactive hseal
      simp [requests, Event.made, this, hrepeats]
  have hcount : requests replies = ((ons.filterMap Event.made).map Prod.snd).length := by
    rw [hreplies, requests, List.countP_append]
    exact (congrArg₂ (· + ·) hack.1 hon.1).trans (Nat.zero_add _)
  refine ⟨hcount ▸ hon.2.1, ?_, fun hrepeats => ?_, fun envelope hmem hrequest => ?_⟩
  · rw [hcount, hreplies, List.length_append]
    exact Nat.add_le_add_right hack.2.1 _
  · rw [hcount, hon.2.2.1 hrepeats]; rfl
  · rw [hreplies, List.mem_append] at hmem
    rcases hmem with hmem | hmem
    · rw [hack.2.2 envelope hmem] at hrequest
      exact absurd hrequest (by simp)
    · obtain ⟨active, sequence, hsent⟩ := hon.2.2.2 envelope hmem
      exact ⟨active, sequence, List.mem_append_right _ hsent⟩

/-! ### One delivery -/

/-- Whether the challenge a peer sent last is still outstanding. -/
def World.unheard (w : World) (peerId : PeerId) (challenge : Text) : Bool :=
  (w.peer peerId).map (fun state => state.mode.lastPeerChallenge) ≠ some challenge

variable (S) in
/-- What a side can still spend: on the requests that were in flight at first, on those made
since, and on the first time it hears the challenge of the other. -/
def World.potential (w : World) (peerId : PeerId) (challenge : Text) (old made : List Text) : ℕ :=
  5 * w.pending S peerId old + w.pending S peerId made
    + if w.unheard peerId challenge then 2 else 0

lemma challenge_of_mode {w w' : World} {peerId : PeerId}
    (h : ((w'.peer peerId).map PeerState.mode).map Mode.challenge =
      ((w.peer peerId).map PeerState.mode).map Mode.challenge) :
    w'.challenge peerId = w.challenge peerId := by
  rw [Option.map_map, Option.map_map] at h
  exact congrArg (Option.getD · []) h

lemma unheard_of_mode {w w' : World} {peerId : PeerId} (challenge : Text)
    (h : ((w'.peer peerId).map PeerState.mode).map Mode.lastPeerChallenge =
      ((w.peer peerId).map PeerState.mode).map Mode.lastPeerChallenge) :
    w'.unheard peerId challenge = w.unheard peerId challenge := by
  rw [Option.map_map, Option.map_map] at h
  unfold World.unheard
  exact congrArg (fun last => decide (last ≠ some challenge)) h

/-- A mode keeps its challenge under control frames. -/
lemma challenge_applyControl (kind : Kind) (plaintext : Text) (mode : Mode) :
    (applyControl kind plaintext mode).challenge = mode.challenge := by
  cases kind <;> simp only [applyControl]
  split_ifs <;> rfl

/-- Only a request changes the challenge heard last. -/
lemma lastPeerChallenge_applyControl {kind : Kind} (hkind : kind ≠ .on) (plaintext : Text)
    (mode : Mode) :
    (applyControl kind plaintext mode).lastPeerChallenge = mode.lastPeerChallenge := by
  cases kind <;> simp only [applyControl, ne_eq, not_true_eq_false] at hkind ⊢
  split_ifs <;> rfl

/-- A side that is left in its mode spends nothing. -/
lemma potential_of_advance {w w' : World} {events : List Event} (h : Advance S w w' events)
    (peerId : PeerId) (challenge : Text) (old made : List Text)
    (hheard : w'.unheard peerId challenge = w.unheard peerId challenge) :
    w'.potential S peerId challenge old made ≤ w.potential S peerId challenge old made := by
  have hold := pending_of_advance h peerId old
  have hmade := pending_of_advance h peerId made
  unfold World.potential
  rw [hheard]
  omega

/-- **What a request costs that takes effect**: its replies are paid by the number that gets
bound and, for a request made since, by hearing the challenge of the other. -/
lemma request_pays {w w' : World} {events : List Event} (h : Advance S w w' events)
    {peerId : PeerId} {challenge envelope : Text} {old made : List Text} {state : PeerState}
    {plaintext : Text} {count length : ℕ} (hmem : envelope ∈ old ++ made)
    (hrequest : isRequest envelope = true) (hbefore : w.spent S peerId envelope = false)
    (hafter : w'.spent S peerId envelope = true) (hpeer : w.peer peerId = some state)
    (hcarries : envelope ∈ made → plaintext = challenge)
    (hcount : count ≤ 1) (hlength : length ≤ 1 + count)
    (hrepeats : repeatsOn plaintext state.mode = false → count = 0)
    (hlast : (w'.peer peerId).map (fun state => state.mode.lastPeerChallenge) = some plaintext) :
    length + count + w'.potential S peerId challenge old made ≤
      w.potential S peerId challenge old made := by
  have hold := pending_of_advance h peerId old
  have hmade := pending_of_advance h peerId made
  unfold World.potential
  rcases List.mem_append.mp hmem with hmem | hmem
  · have hpaid := pending_of_bound h hmem hrequest hbefore hafter
    split_ifs <;> omega
  · have hpaid := pending_of_bound h hmem hrequest hbefore hafter
    obtain rfl := hcarries hmem
    have hheard : w'.unheard peerId plaintext = false := by
      simp [World.unheard, hlast]
    rw [hheard]
    by_cases hun : w.unheard peerId plaintext = true
    · rw [hun]
      simp only [Bool.false_eq_true, if_false, if_true]
      omega
    · have hsame : state.mode.lastPeerChallenge = plaintext := by
        simpa [World.unheard, hpeer] using hun
      have hzero := hrepeats (by simp [repeatsOn, hsame])
      simp only [hun, Bool.false_eq_true, if_false]
      omega

/-- What one call of `receive` leaves and costs. -/
structure Paid (S T : Session) (w w' : World) (peerId otherId : PeerId) (challenge : Text)
    (old made replies : List Text) : Prop where
  sound : Sound S w'
  kept : w'.challenge peerId = w.challenge peerId
  carries : ∀ envelope ∈ replies, Carries T (peerToUser otherId) (w.challenge peerId) envelope
  paid : replies.length + requests replies + w'.potential S peerId challenge old made ≤
    w.potential S peerId challenge old made

/-- **What one delivery costs.** -/
theorem receive_pays {T : Session} (hcrypto : S.crypto = T.crypto)
    (hauthentic : T.crypto.Authentic) {w : World} (hw : Sound S w) (draw : ReceiveDraw S.crypto)
    (peerId : PeerId) (otherId : PeerId) (messageId : MsgId) (outgoing live : Bool)
    (envelope : Text) {challenge : Text} {old made : List Text}
    (hinFlight : outgoing = false → envelope ∈ old ++ made)
    (hmade : ∀ e ∈ made, Carries S (peerToUser peerId) challenge e) :
    Paid S T w (receive S draw peerId messageId outgoing live envelope w).1 peerId otherId challenge
      old made (repliesOf (receive S draw peerId messageId outgoing live envelope w).2) := by
  rcases receive_spec hw draw peerId messageId outgoing live envelope rfl with
    ⟨hnone, hadvance, haccount⟩ | ⟨state, record, frame, previous, message, events, haccepts, hsome,
      hadvance, hreplies, hshape, hmode⟩
  · have hpeer : (receive S draw peerId messageId outgoing live envelope w).1.peer peerId =
        w.peer peerId := by
      simp only [World.peer, haccount]
    rw [hnone]
    refine ⟨hadvance.sound, challenge_of_mode (by rw [hpeer]), by simp [repliesOf], ?_⟩
    have := potential_of_advance hadvance peerId challenge old made
      (unheard_of_mode challenge (by rw [hpeer]))
    simpa [repliesOf, requests] using this
  · set w' := (receive S draw peerId messageId outgoing live envelope w).1
    have hmode := hmode peerId
    rw [if_pos rfl] at hmode
    rw [hsome]
    change Paid S T w w' peerId otherId challenge old made message.replies
    -- the events after the acceptance
    obtain ⟨l, -, hrest⟩ := Trace.split (a := [Event.accepted peerId messageId outgoing
      (takesEffect state record frame previous.isNone outgoing live) frame envelope])
      hadvance.trace
    obtain ⟨hcount, hlength, hrepeats, hrequests⟩ := replies_count hrest hshape hreplies
    have hchallenge : w'.challenge peerId = w.challenge peerId := by
      refine challenge_of_mode ?_
      rw [hmode, haccepts.peer]
      split_ifs
      · exact congrArg some (challenge_applyControl _ _ _)
      · rfl
    have howns : w.challenge peerId = state.mode.challenge := by
      simp [World.challenge, haccepts.peer]
    refine ⟨hadvance.sound, hchallenge, ?_, ?_⟩
    · intro reply hreply identity keys frame' hopen hkind
      obtain ⟨active, sequence, hsent⟩ := hrequests reply hreply
        (isRequest_of_openFrame hopen hkind)
      obtain ⟨hactive, ⟨_, _, _, hseal⟩, -⟩ := sent_of_mem hrest hsent
      obtain ⟨-, -, -, -, -, hdecode⟩ :=
        openFrame_sealFrame hcrypto hauthentic hactive hseal hopen
      have hvalid := (hw.valid.peers _ _ haccepts.peer).mode
      rw [decode_challenge hvalid] at hdecode
      rw [howns]
      exact (Option.some.inj hdecode).symm
    · by_cases heffect : takesEffect state record frame previous.isNone outgoing live = true ∧
        frame.kind = .on
      · obtain ⟨htakes, hkind⟩ := heffect
        obtain ⟨hfresh, -, hout, -⟩ := takesEffect_iff.mp htakes
        subst hout
        obtain ⟨identity, -, hopen⟩ := haccepts.opened
        have hnames := envelopeNames_of_openFrame hopen
        obtain ⟨r, hr, -⟩ := binding_of_accepted hadvance
        have hrecord : recordOf (w.savedLedger S) peerId frame.fingerprint = some record.ledger := by
          rw [recordOf_eq (hw.find_saved haccepts.running haccepts.peer)]
          simp [haccepts.key]
        have hbefore : w.binding S peerId frame.fingerprint false frame.sequence = none := by
          rw [binding_eq hrecord, Key.ledger_receipts, (checkReceipt_eq_some haccepts.check).1]
          exact Option.isNone_iff_eq_none.mp hfresh
        rw [htakes, if_pos rfl, hkind] at hmode
        refine request_pays hadvance (hinFlight rfl) (isRequest_of_openFrame hopen hkind)
          (by simp [World.spent, hnames, hbefore]) (by simp [World.spent, hnames, hr])
          haccepts.peer (fun hmem => hmade envelope hmem identity _ frame hopen hkind) hcount
          hlength hrepeats ?_
        have := congrArg (Option.map Mode.lastPeerChallenge) hmode
        rw [Option.map_map] at this
        exact this
      · have hnil : message.replies = [] := by
          rw [replies_of_map hreplies]
          by_contra hne
          exact heffect (hshape.effect fun he => hne (by rw [he]; rfl))
        have := potential_of_advance hadvance peerId challenge old made (unheard_of_mode challenge (by
          rw [hmode, haccepts.peer]
          split_ifs with htakes
          · exact congrArg some (lastPeerChallenge_applyControl
              (fun hkind => heffect ⟨htakes, hkind⟩) _ _)
          · rfl))
        simpa [hnil, requests] using this

/-! ### All deliveries -/

/-- The two ends of a conversation and how each one names the other. -/
structure Link where
  crypto : Crypto
  leftId : ℕ
  rightId : ℕ
  leftPeer : ChatId
  rightPeer : ChatId

def Link.left (L : Link) : Session := ⟨L.crypto, L.leftId⟩

def Link.right (L : Link) : Session := ⟨L.crypto, L.rightId⟩

/-- Two accounts, with the replies on the way to each. -/
structure Traffic where
  left : World
  right : World
  toLeft : List Text := []
  toRight : List Text := []

/-- One call of `receive` on either side, labelled by its replies: a frame of the other side is
one that was in flight at first or one of its replies, and stays in flight. -/
inductive Delivery (L : Link) (oldLeft oldRight : List Text) :
    Traffic → List Text → Traffic → Prop where
  | left {t : Traffic} (draw : ReceiveDraw L.crypto) (messageId : MsgId) (outgoing live : Bool)
      (envelope : Text) (inFlight : outgoing = false → envelope ∈ oldLeft ++ t.toLeft)
      {r : World × Option ReceivedMessage}
      (received : receive L.left draw L.leftPeer.val messageId outgoing live envelope t.left = r) :
      Delivery L oldLeft oldRight t (repliesOf r.2)
        { t with left := r.1, toRight := t.toRight ++ repliesOf r.2 }
  | right {t : Traffic} (draw : ReceiveDraw L.crypto) (messageId : MsgId) (outgoing live : Bool)
      (envelope : Text) (inFlight : outgoing = false → envelope ∈ oldRight ++ t.toRight)
      {r : World × Option ReceivedMessage}
      (received : receive L.right draw L.rightPeer.val messageId outgoing live envelope t.right =
        r) :
      Delivery L oldLeft oldRight t (repliesOf r.2)
        { t with right := r.1, toLeft := t.toLeft ++ repliesOf r.2 }

/-- What holds between deliveries: both accounts are sound, keep their challenges, and the
replies in flight carry them. -/
structure TrafficInv (L : Link) (challengeLeft challengeRight : Text) (t : Traffic) : Prop where
  left : Sound L.left t.left
  right : Sound L.right t.right
  keptLeft : t.left.challenge L.leftPeer.val = challengeLeft
  keptRight : t.right.challenge L.rightPeer.val = challengeRight
  toLeft : ∀ e ∈ t.toLeft, Carries L.left (peerToUser L.leftPeer.val) challengeRight e
  toRight : ∀ e ∈ t.toRight, Carries L.right (peerToUser L.rightPeer.val) challengeLeft e

/-- What both sides can still spend. -/
def Traffic.potential (L : Link) (challengeLeft challengeRight : Text) (oldLeft oldRight : List Text)
    (t : Traffic) : ℕ :=
  t.left.potential L.left L.leftPeer.val challengeRight oldLeft t.toLeft
    + t.right.potential L.right L.rightPeer.val challengeLeft oldRight t.toRight

/-- More requests in flight are pending. -/
lemma potential_append (w : World) (peerId : PeerId) (challenge : Text)
    (old made replies : List Text) :
    w.potential S peerId challenge old (made ++ replies) ≤
      w.potential S peerId challenge old made + requests replies := by
  have := pending_le_requests (S := S) w peerId replies
  unfold World.potential
  rw [pending_append]
  omega

/-- **One delivery is paid.** -/
lemma TrafficInv.step {L : Link} (hauthentic : L.crypto.Authentic)
    {challengeLeft challengeRight : Text} {oldLeft oldRight replies : List Text} {t t' : Traffic}
    (h : TrafficInv L challengeLeft challengeRight t)
    (hstep : Delivery L oldLeft oldRight t replies t') :
    TrafficInv L challengeLeft challengeRight t' ∧
      replies.length + t'.potential L challengeLeft challengeRight oldLeft oldRight ≤
        t.potential L challengeLeft challengeRight oldLeft oldRight := by
  cases hstep with
  | left draw messageId outgoing live envelope inFlight received =>
    subst received
    have hpaid := receive_pays (S := L.left) (T := L.right) rfl hauthentic h.left draw
      L.leftPeer.val L.rightPeer.val messageId outgoing live envelope inFlight h.toLeft
    refine ⟨⟨hpaid.sound, h.right, hpaid.kept.trans h.keptLeft, h.keptRight, h.toLeft,
      ?_⟩, ?_⟩
    · intro e he
      rcases List.mem_append.mp he with he | he
      · exact h.toRight e he
      · exact h.keptLeft ▸ hpaid.carries e he
    · have hmore := potential_append (S := L.right) t.right L.rightPeer.val challengeLeft oldRight
        t.toRight (repliesOf (receive L.left draw L.leftPeer.val messageId outgoing live envelope
          t.left).2)
      have := hpaid.paid
      simp only [Traffic.potential]
      omega
  | right draw messageId outgoing live envelope inFlight received =>
    subst received
    have hpaid := receive_pays (S := L.right) (T := L.left) rfl hauthentic h.right draw
      L.rightPeer.val L.leftPeer.val messageId outgoing live envelope inFlight h.toRight
    refine ⟨⟨h.left, hpaid.sound, h.keptLeft, hpaid.kept.trans h.keptRight, ?_, h.toRight⟩,
      ?_⟩
    · intro e he
      rcases List.mem_append.mp he with he | he
      · exact h.toLeft e he
      · exact h.keptRight ▸ hpaid.carries e he
    · have hmore := potential_append (S := L.left) t.left L.leftPeer.val challengeRight oldLeft
        t.toLeft (repliesOf (receive L.right draw L.rightPeer.val messageId outgoing live envelope
          t.right).2)
      have := hpaid.paid
      simp only [Traffic.potential]
      omega

/-- The bound on the replies: five for a request in flight, and two for each side that did not
hear the challenge of the other last. -/
def handshakeBound (L : Link) (oldLeft oldRight : List Text) (left right : World) : ℕ :=
  5 * (requests oldLeft + requests oldRight)
    + (if left.unheard L.leftPeer.val (right.challenge L.rightPeer.val) then 2 else 0)
    + (if right.unheard L.rightPeer.val (left.challenge L.leftPeer.val) then 2 else 0)

/-- **The handshake ends.** Two accounts in any states that runs reach, with any frames in
flight: however these frames and the replies to them are delivered, in any order and any number
of times, live or as history, the replies in all are bounded by the requests in flight and the
challenges both sides heard last. -/
theorem handshake_bounded (L : Link) (authentic : L.crypto.Authentic)
    (leftState rightState : StateFile) (leftIdentity rightIdentity : Bytes)
    (leftPeers rightPeers : Option Json)
    (leftDraws rightDraws : Text → Option (RandomBytes 16)) (leftWrite rightWrite : Write)
    (leftPast rightPast : List (Op L.crypto)) (oldLeft oldRight : List Text)
    (replies : List (List Text)) (t : Traffic)
    (delivered : Trace (Delivery L oldLeft oldRight)
      { left := run L.left leftPast
          (start L.left leftState leftIdentity leftPeers leftDraws leftWrite)
        right := run L.right rightPast
          (start L.right rightState rightIdentity rightPeers rightDraws rightWrite) } replies t) :
    replies.flatten.length ≤ handshakeBound L oldLeft oldRight
        (run L.left leftPast (start L.left leftState leftIdentity leftPeers leftDraws leftWrite))
        (run L.right rightPast
          (start L.right rightState rightIdentity rightPeers rightDraws rightWrite)) ∧
      replies.flatten.length ≤ 5 * (requests oldLeft + requests oldRight) + 4 := by
  obtain ⟨_, hleft, -⟩ := run_advance (sound_start (S := L.left) leftState leftIdentity leftPeers
    leftDraws leftWrite) leftPast
  obtain ⟨_, hright, -⟩ := run_advance (sound_start (S := L.right) rightState rightIdentity
    rightPeers rightDraws rightWrite) rightPast
  set left := run L.left leftPast (start L.left leftState leftIdentity leftPeers leftDraws leftWrite)
  set right := run L.right rightPast
    (start L.right rightState rightIdentity rightPeers rightDraws rightWrite)
  have hinv : TrafficInv L (left.challenge L.leftPeer.val) (right.challenge L.rightPeer.val)
      { left, right } :=
    ⟨hleft.sound, hright.sound, rfl, rfl, by simp, by simp⟩
  obtain ⟨-, hcost⟩ := delivered.cost_le List.length
    (Traffic.potential L (left.challenge L.leftPeer.val) (right.challenge L.rightPeer.val) oldLeft
      oldRight) (fun _ _ _ h hstep => h.step authentic hstep) hinv
  have hpendingLeft := pending_le_requests (S := L.left) left L.leftPeer.val oldLeft
  have hpendingRight := pending_le_requests (S := L.right) right L.rightPeer.val oldRight
  have hbound : replies.flatten.length ≤ handshakeBound L oldLeft oldRight left right := by
    rw [List.length_flatten]
    have hnone : ∀ (T : Session) (w : World) (peerId : PeerId), w.pending T peerId [] = 0 :=
      fun _ _ _ => rfl
    unfold Traffic.potential World.potential at hcost
    simp only [hnone] at hcost
    unfold handshakeBound
    omega
  refine ⟨hbound, hbound.trans ?_⟩
  unfold handshakeBound
  split_ifs <;> omega

/-- The link between the accounts of `plainEnds`. -/
abbrev plainLink : Link where
  crypto := Crypto.plain
  leftId := 1
  rightId := 2
  leftPeer := ⟨2, two_isChat⟩
  rightPeer := ⟨1, one_isChat⟩

/-- The right account before it is asked. -/
def rightAsks : List (Op Crypto.plain) := trustAndRequest 2 1 ⟨1, one_isChat⟩

/-- Both accounts with the request of the left one in flight, after its delivery. -/
def onDelivered : World × Option ReceivedMessage :=
  receive plainLink.right (plainReceiveDraw 2) 1 1 false true onFrame
    (run plainLink.right rightAsks (plainStart plainLink.right))

/-- The request of the left account is delivered and answered by two frames, of nine at most. -/
theorem onDelivered_bounded :
    (repliesOf onDelivered.2).length = 2 ∧
      [repliesOf onDelivered.2].flatten.length ≤ handshakeBound plainLink [] [onFrame]
        (run plainLink.left leftAsks (plainStart plainLink.left))
        (run plainLink.right rightAsks (plainStart plainLink.right)) ∧
      [repliesOf onDelivered.2].flatten.length ≤ 5 * (requests [] + requests [onFrame]) + 4 := by
  have hstep : Delivery plainLink [] [onFrame]
      { left := run plainLink.left leftAsks (plainStart plainLink.left)
        right := run plainLink.right rightAsks (plainStart plainLink.right) }
      (repliesOf onDelivered.2) _ :=
    Delivery.right (plainReceiveDraw 2) 1 false true onFrame (fun _ => by simp)
      (by dsimp only; rfl)
  exact ⟨by decide +kernel, handshake_bounded plainLink Crypto.plain_authentic .absent .absent
    [] [] none none (fun _ => none) (fun _ => none) .done .done leftAsks rightAsks [] [onFrame]
    [repliesOf onDelivered.2] _ (Trace.single hstep)⟩

end E2E
