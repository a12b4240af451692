import Telegravim.E2E.Refine

set_option autoImplicit false

/-!
# Encrypted chat: receiving follows the ledger

An envelope is rejected without a change of the account, or its frame is accepted: one event of
the ledger, followed by the events of at most two replies. Replies are made only for a request
that takes effect.

## Main definitions

* `E2E.Accepts` — what an accepted frame satisfies.
* `E2E.Replies` — the events of the replies to a frame.

## Main results

* `E2E.receive_spec` — the two outcomes of `receive`.
-/

namespace E2E

open Text

variable {S : Session}

/-! ### Accepted frames -/

/-- A receipt that could not be saved is forgotten. -/
lemma Key.unaccept_accept {record : Key} {frame : Frame} {outgoing effect : Bool}
    {receipt : Receipt} {previous : Option Receipt}
    (h : (record.receipts outgoing).find frame.sequence = previous) :
    (record.accept frame outgoing effect receipt).unaccept frame outgoing previous record.control
      record.sent = record := by
  have hback : (match previous with
      | none => ((record.receipts outgoing).insert frame.sequence receipt).erase frame.sequence
      | some previous => ((record.receipts outgoing).insert frame.sequence receipt).insert
          frame.sequence previous) = record.receipts outgoing := by
    cases previous with
    | none => exact OrdMap.erase_insert h _
    | some previous =>
      simp only [OrdMap.insert_insert]
      exact OrdMap.insert_find h
  unfold Key.unaccept
  rw [Key.receipts_accept, if_pos rfl]
  cases previous <;> simp only at hback ⊢ <;> rw [hback] <;>
    cases outgoing <;> cases effect <;> rfl

/-- A frame that repeats its receipt changes nothing. -/
lemma PeerState.accept_eq_self {state : PeerState} {record : Key} {frame : Frame}
    {outgoing : Bool} {receipt : Receipt}
    (hkey : state.keys.find frame.fingerprint = some record)
    (hreceipt : (record.receipts outgoing).find frame.sequence = some receipt)
    (hsent : record.sent = (record.accept frame outgoing false receipt).sent) :
    state.accept record frame outgoing false receipt = state := by
  have hrecord : record.accept frame outgoing false receipt = record := by
    have hinsert := OrdMap.insert_find hreceipt
    rw [Key.sent_accept] at hsent
    unfold Key.accept
    simp only [Bool.false_eq_true, if_false, hinsert]
    cases outgoing with
    | false => rfl
    | true =>
      simp only [if_true] at hsent ⊢
      change { record.setReceipts true (record.receipts true) with
        sent := max record.sent frame.sequence } = record
      rw [← hsent]
      rfl
  unfold PeerState.accept
  rw [hrecord, PeerState.setKey_find hkey]
  rfl

lemma ValidKey.accept (state : PeerState) {record : Key} {frame : Frame} (outgoing live : Bool)
    {messageId : MsgId} (previous : Option Receipt) (envelope : Text)
    (h : ValidKey S.crypto frame.fingerprint record) (hpos : 0 < messageId.toInt)
    (hseq : 0 < frame.sequence) (hle : frame.sequence ≤ kMaxNumber) :
    ValidKey S.crypto frame.fingerprint (record.accept frame outgoing
      (takesEffect state record frame previous.isNone outgoing live)
      { messageId, digest := digestOf S envelope }) := by
  have hne : messageId ≠ 0 := fun h0 => by
    rw [h0] at hpos
    exact absurd hpos (by decide)
  have hreceipts := fun direction => Key.receipts_accept record frame outgoing direction
    (takesEffect state record frame previous.isNone outgoing live)
    { messageId, digest := digestOf S envelope }
  have hinsert : ∀ direction, ValidReceipts direction (record.receipts direction) →
      direction = outgoing → ValidReceipts direction ((record.receipts outgoing).insert
        frame.sequence { messageId, digest := digestOf S envelope }) := by
    rintro direction hr rfl
    exact hr.insert ⟨hseq, hle, hpos.le, fun _ => hne, S.crypto.sha256_length _⟩
  have hvalid : ∀ direction, ValidReceipts direction (record.receipts direction) →
      ValidReceipts direction ((record.accept frame outgoing
        (takesEffect state record frame previous.isNone outgoing live)
        { messageId, digest := digestOf S envelope }).receipts direction) := by
    intro direction hr
    rw [hreceipts]
    split_ifs with hd
    · exact hinsert direction hr hd
    · exact hr
  refine {
    publicKey := ?_
    fingerprint := ?_
    sent_le := ?_
    control_le := ?_
    incoming := hvalid false h.incoming
    outgoing := hvalid true h.outgoing
    outgoing_le := ?_
    control_mem := ?_ }
  · convert h.publicKey using 2
    cases outgoing <;>
      cases takesEffect state record frame previous.isNone _ live <;> rfl
  · convert h.fingerprint using 2
    cases outgoing <;>
      cases takesEffect state record frame previous.isNone _ live <;> rfl
  · rw [Key.sent_accept]
    split_ifs
    · exact max_le h.sent_le hle
    · exact h.sent_le
  · rw [Key.control_accept]
    split_ifs
    · exact hle
    · exact h.control_le
  · intro sequence receipt hr
    change ((record.accept frame outgoing _ _).receipts true).find sequence = some receipt at hr
    rw [hreceipts] at hr
    rw [Key.sent_accept]
    split_ifs at hr with hd
    · subst hd
      rw [if_pos rfl]
      rw [OrdMap.find_insert] at hr
      split_ifs at hr with heq
      · exact heq ▸ le_max_right _ _
      · exact (h.outgoing_le _ _ hr).trans (le_max_left _ _)
    · rw [if_neg (fun ho => hd ho.symm)]
      exact h.outgoing_le _ _ hr
  · intro h0
    rw [Key.control_accept] at h0 ⊢
    change ∃ receipt, ((record.accept frame outgoing _ _).receipts false).find _ = some receipt
    rw [hreceipts]
    by_cases hd : false = outgoing
    · rw [if_pos hd]
      split_ifs at h0 ⊢
      · exact ⟨_, OrdMap.find_insert_self _ _ _⟩
      · rw [OrdMap.find_insert]
        subst hd
        split_ifs
        · exact ⟨_, rfl⟩
        · exact h.control_mem h0
    · have heffect : takesEffect state record frame previous.isNone outgoing live = false := by
        by_contra heffect
        exact hd (takesEffect_iff.mp (by simpa using heffect)).2.2.1.symm
      rw [if_neg hd]
      simp only [heffect, Bool.false_eq_true, if_false] at h0 ⊢
      exact h.control_mem h0

lemma ValidMode.applyControl {mode : Mode} {kind : Kind} {plaintext : Text} (h : ValidMode mode)
    (hplaintext : validPlaintext kind plaintext = true) (hchanged : mode.keyChanged = false) :
    ValidMode (applyControl kind plaintext mode) := by
  cases kind with
  | msg => exact h
  | on => exact { h with lastPeerChallenge := fun _ => hplaintext }
  | off => exact { h with ready := by simp [E2E.applyControl] }
  | ack =>
    unfold E2E.applyControl
    simp only
    split_ifs with hc
    · simp only [Bool.and_eq_true] at hc
      exact { h with ready := fun _ => ⟨hc.1, hchanged⟩ }
    · exact h

lemma ValidPeer.accept {peerId : PeerId} {state : PeerState} {record : Key} {frame : Frame}
    {outgoing live : Bool} {messageId : MsgId} {previous : Option Receipt} {envelope : Text}
    (h : ValidPeer S.crypto peerId state)
    (hkey : state.keys.find frame.fingerprint = some record) (hpos : 0 < messageId.toInt)
    (hseq : 0 < frame.sequence) (hle : frame.sequence ≤ kMaxNumber)
    (hplaintext : validPlaintext frame.kind frame.plaintext = true) :
    ValidPeer S.crypto peerId (state.accept record frame outgoing
      (takesEffect state record frame previous.isNone outgoing live)
      { messageId, digest := digestOf S envelope }) := by
  have hset := h.setKey (ValidKey.accept state outgoing live previous envelope (h.keys _ _ hkey) hpos
    hseq hle)
  refine { hset with mode := ?_ }
  change ValidMode (if _ then _ else _)
  split_ifs with heffect
  · exact h.mode.applyControl hplaintext (takesEffect_iff.mp heffect).2.2.2.2.2.1
  · exact h.mode

/-! ### Replies -/

/-- A message with the events that made its replies, which leave the modes. -/
structure Replied (peerId : PeerId) (r r' : World × ReceivedMessage) (events : List Event) :
    Prop where
  advance : Advance S r.1 r'.1 events
  replies : r'.2.replies.map (Prod.mk peerId) =
    r.2.replies.map (Prod.mk peerId) ++ events.filterMap Event.made
  mode : ∀ id, (r'.1.peer id).map PeerState.mode = (r.1.peer id).map PeerState.mode

lemma Replied.refl {peerId : PeerId} {r : World × ReceivedMessage} (h : Sound S r.1) :
    Replied (S := S) peerId r r [] :=
  ⟨Advance.refl h, by simp, fun _ => rfl⟩

/-- A new record of a key leaves the modes. -/
lemma mode_insert_setKey {w w' : World} {peerId : PeerId} {state : PeerState} {fingerprint : Text}
    {key : Key} (hstate : w.peer peerId = some state)
    (h : w'.chat.account.peers =
      w.chat.account.peers.insert peerId (state.setKey fingerprint key)) (id : PeerId) :
    (w'.peer id).map PeerState.mode = (w.peer id).map PeerState.mode := by
  rw [World.peer, h, OrdMap.find_insert]
  split_ifs with heq
  · rw [heq, hstate]; rfl
  · rfl

/-- The acknowledgment of a request. -/
lemma replyAck_spec {r : World × ReceivedMessage} (hr : Sound S r.1) (draw : FrameDraw S.crypto)
    {peerId : PeerId} {state : PeerState} (hstate : r.1.peer peerId = some state)
    {plaintext : Text} (hplaintext : validChallenge plaintext = true) :
    ∃ events, Replied (S := S) peerId r
        (replyAck S draw peerId plaintext state.mode.requested r) events ∧
      (events = [] ∨ ∃ active sequence frame, events = [.sent peerId .ack
        (plaintext ++ if state.mode.requested then u ":1" else u ":0") active sequence
        state.mode.requested frame]) := by
  have htext : ∀ state', r.1.peer peerId = some state' → MadeText state'.mode .ack
      (plaintext ++ if state.mode.requested then u ":1" else u ":0") := by
    intro state' hstate'
    rw [hstate] at hstate'
    obtain rfl := Option.some.inj hstate'
    exact ⟨plaintext, hplaintext, rfl⟩
  unfold replyAck
  simp only
  rcases encryptFrame_spec hr draw _ _ htext with ⟨hnone, hadvance, hpeers, -⟩ |
    ⟨state', record, frame, hstate', hrecord, hsome, -, -, -, hadvance, -, hpeers⟩
  · rw [hnone]
    exact ⟨[], ⟨hadvance, by simp, fun id => by simp only [World.peer, hpeers]⟩, Or.inl rfl⟩
  · rw [hsome]
    rw [hstate] at hstate'
    obtain rfl := Option.some.inj hstate'
    exact ⟨_, ⟨hadvance, List.map_append, mode_insert_setKey hstate hpeers⟩,
      Or.inr ⟨_, _, _, rfl⟩⟩

/-- The repeated request. -/
lemma replyOn_spec {r : World × ReceivedMessage} (hr : Sound S r.1) (draw : FrameDraw S.crypto)
    (peerId : PeerId) :
    ∃ events, Replied (S := S) peerId r (replyOn S draw peerId r) events ∧
      (events = [] ∨ ∃ state sequence frame, r.1.peer peerId = some state ∧
        events = [.sent peerId .on state.mode.challenge state.active sequence true frame]) := by
  unfold replyOn
  simp only
  rcases stateMessage_spec hr draw peerId true with ⟨hnone, hadvance, hpeers, -⟩ |
    ⟨state, record, hstate, hrecord, -, hrequested, hne, hadvance, -, hpeers⟩
  · rw [if_pos hnone]
    exact ⟨[], ⟨hadvance, by simp, fun id => by simp only [World.peer, hpeers]⟩, Or.inl rfl⟩
  · rw [if_neg hne]
    rw [hrequested] at hadvance
    exact ⟨_, ⟨hadvance, List.map_append, mode_insert_setKey hstate hpeers⟩,
      Or.inr ⟨state, _, _, hstate, rfl⟩⟩

/-- The events of the replies to a frame that was accepted in a mode: the acknowledgment and the
repeated request, both only for a request that takes effect. -/
def Replies (peerId : PeerId) (effect : Bool) (frame : Frame) (mode : Mode)
    (events : List Event) : Prop :=
  ∃ acks ons, events = acks ++ ons ∧
    (acks = [] ∨ effect = true ∧ frame.kind = .on ∧ ∃ active sequence text,
      acks = [.sent peerId .ack
        (frame.plaintext ++ if mode.requested then u ":1" else u ":0") active sequence
        mode.requested text]) ∧
    (ons = [] ∨ effect = true ∧ frame.kind = .on ∧ repeatsOn frame.plaintext mode = true ∧
      ∃ active sequence text, ons = [.sent peerId .on mode.challenge active sequence true text])

lemma Replies.nil (peerId : PeerId) (effect : Bool) (frame : Frame) (mode : Mode) :
    Replies peerId effect frame mode [] :=
  ⟨[], [], rfl, Or.inl rfl, Or.inl rfl⟩

/-- A frame gets replies only when it is a request that takes effect. -/
lemma Replies.effect {peerId : PeerId} {effect : Bool} {frame : Frame} {mode : Mode}
    {events : List Event} (h : Replies peerId effect frame mode events) (hne : events ≠ []) :
    effect = true ∧ frame.kind = .on := by
  obtain ⟨acks, ons, rfl, hacks, hons⟩ := h
  rcases hacks with rfl | ⟨he, hk, -⟩
  · rcases hons with rfl | ⟨he, hk, -⟩
    · exact absurd rfl hne
    · exact ⟨he, hk⟩
  · exact ⟨he, hk⟩

/-- Replies are made, not accepted. -/
lemma Replies.heard {peerId : PeerId} {effect : Bool} {frame : Frame} {mode : Mode}
    {events : List Event} (h : Replies peerId effect frame mode events) :
    events.filterMap Event.heard = [] := by
  obtain ⟨acks, ons, rfl, hacks, hons⟩ := h
  rw [List.filterMap_append]
  rcases hacks with rfl | ⟨-, -, _, _, _, rfl⟩ <;> rcases hons with rfl | ⟨-, -, -, _, _, _, rfl⟩ <;>
    rfl

/-- The answer to a frame that was accepted. -/
lemma answer_spec {w : World} (hw : Sound S w) (draw : ReceiveDraw S.crypto) {peerId : PeerId}
    (outgoing effect : Bool) (envelope : Text) {next : PeerState} (mode : Mode) {frame : Frame}
    (hstate : w.peer peerId = some next)
    (hplaintext : validPlaintext frame.kind frame.plaintext = true)
    (hmode : effect = true → frame.kind = .on →
      next.mode = { mode with lastPeerChallenge := frame.plaintext }) :
    ∃ events, Advance S w (answer S draw peerId outgoing effect envelope frame mode
        next.mode.requested w).1 events ∧
      (answer S draw peerId outgoing effect envelope frame mode next.mode.requested w).2.replies.map
        (Prod.mk peerId) = events.filterMap Event.made ∧
      Replies peerId effect frame mode events ∧
      ∀ id, ((answer S draw peerId outgoing effect envelope frame mode next.mode.requested
        w).1.peer id).map PeerState.mode = (w.peer id).map PeerState.mode := by
  obtain ⟨message, hreplies, hr⟩ : ∃ message : ReceivedMessage, message.replies = [] ∧
      (if (frame.kind ≠ .msg && outgoing) = true then
        ((controlNotice S draw.notice peerId envelope true false w).1,
          { text := (controlNotice S draw.notice peerId envelope true false w).2,
            replies := [] })
      else (w, { text := receivedText frame, replies := [] })) = (w, message) := by
    split_ifs
    · rw [controlNotice_outgoing]
      exact ⟨_, rfl, rfl⟩
    · exact ⟨_, rfl, rfl⟩
  suffices h : ∃ events, Replied (S := S) peerId (w, message)
      (answer S draw peerId outgoing effect envelope frame mode next.mode.requested w) events ∧
      Replies peerId effect frame mode events by
    obtain ⟨events, hreplied, hshape⟩ := h
    exact ⟨events, hreplied.advance, by simpa [hreplies] using hreplied.replies, hshape,
      hreplied.mode⟩
  unfold answer
  simp only [hr]
  by_cases hon : (effect && decide (frame.kind = .on)) = true
  swap
  · simp only [Bool.not_eq_true] at hon
    simp only [hon, Bool.false_and, Bool.false_eq_true, if_false]
    exact ⟨[], Replied.refl hw, Replies.nil _ _ _ _⟩
  obtain ⟨heffect, hkind⟩ : effect = true ∧ frame.kind = .on := by simpa using hon
  have hnext := hmode heffect hkind
  have hchallenge : validChallenge frame.plaintext = true := by
    rw [hkind] at hplaintext
    exact hplaintext
  obtain ⟨acks, hacks, hackshape⟩ := replyAck_spec (r := (w, message)) hw draw.ack hstate
    hchallenge
  have hackshape' : acks = [] ∨ effect = true ∧ frame.kind = .on ∧ ∃ active sequence text,
      acks = [.sent peerId .ack
        (frame.plaintext ++ if mode.requested then u ":1" else u ":0") active sequence
        mode.requested text] := by
    rcases hackshape with h | ⟨active, sequence, text, h⟩
    · exact Or.inl h
    · rw [hnext] at h
      exact Or.inr ⟨heffect, hkind, active, sequence, text, h⟩
  simp only [hon, Bool.true_and, if_true]
  by_cases hrepeat : repeatsOn frame.plaintext mode = true
  swap
  · rw [if_neg hrepeat]
    exact ⟨acks, hacks, acks, [], by simp, hackshape', Or.inl rfl⟩
  rw [if_pos hrepeat]
  obtain ⟨ons, hons, honshape⟩ := replyOn_spec hacks.advance.sound draw.repeatOn peerId
  refine ⟨acks ++ ons, ⟨hacks.advance.trans hons.advance, ?_, fun id => ?_⟩, acks, ons, rfl,
    hackshape', ?_⟩
  · rw [hons.replies, hacks.replies, List.filterMap_append, List.append_assoc]
  · rw [hons.mode, hacks.mode]
  · rcases honshape with h | ⟨state', sequence, text, hstate', h⟩
    · exact Or.inl h
    · have hm := hacks.mode peerId
      simp only [hstate', hstate, Option.map_some, Option.some.injEq] at hm
      have hc : state'.mode.challenge = mode.challenge := by rw [hm, hnext]
      rw [hc] at h
      exact Or.inr ⟨heffect, hkind, hrepeat, state'.active, sequence, text, h⟩

/-! ### Outcomes -/

variable (S) in
/-- What a frame that is accepted satisfies: the peer and the record of the key it names, its
opening, and the receipt it agrees with. -/
structure Accepts (w : World) (peerId : PeerId) (messageId : MsgId) (outgoing : Bool)
    (envelope : Text) (state : PeerState) (record : Key) (frame : Frame)
    (previous : Option Receipt) : Prop where
  peer : w.peer peerId = some state
  running : w.chat.failed = false
  isUser : peerIsUser peerId = true
  messageId_pos : 0 < messageId.toInt
  opened : ∃ identity, w.chat.account.identity = some identity ∧
    openFrame S identity state.keys (peerToUser peerId) outgoing envelope = some frame
  key : state.keys.find frame.fingerprint = some record
  check : checkReceipt (record.receipts outgoing) frame.sequence (digestOf S envelope)
    messageId = some previous

/-- A frame that passed the checks is accepted, or forgotten when it cannot be saved. -/
lemma acceptFrame_spec {w : World} (hw : Sound S w) (draw : ReceiveDraw S.crypto)
    {peerId : PeerId} {messageId : MsgId} {outgoing live : Bool} {envelope : Text}
    {state : PeerState} {record : Key} {frame : Frame} {previous : Option Receipt}
    {r : World × Option ReceivedMessage}
    (h : Accepts S w peerId messageId outgoing envelope state record frame previous)
    (hr : acceptFrame S draw peerId messageId outgoing live envelope state record frame previous w
      = r) :
    (r.2 = none ∧ Advance S w r.1 [] ∧ r.1.chat.account = w.chat.account) ∨
    ∃ message replies, r.2 = some message ∧
      Advance S w r.1 (.accepted peerId messageId outgoing
        (takesEffect state record frame previous.isNone outgoing live) frame envelope
        :: replies) ∧
      message.replies.map (Prod.mk peerId) = replies.filterMap Event.made ∧
      Replies peerId (takesEffect state record frame previous.isNone outgoing live) frame
        state.mode replies ∧
      ∀ id, (r.1.peer id).map PeerState.mode = if id = peerId then some
        (if takesEffect state record frame previous.isNone outgoing live then
          applyControl frame.kind frame.plaintext state.mode else state.mode)
        else (w.peer id).map PeerState.mode := by
  obtain ⟨identity, -, hopen⟩ := h.opened
  obtain ⟨-, -, -, -, -, -, -, -, -, -, -, -, hplaintext, hseq, hle⟩ := openFrame_inv hopen
  obtain ⟨hfind, hagree⟩ := checkReceipt_eq_some h.check
  have hpeer := hw.valid.peers peerId state h.peer
  set receipt : Receipt := { messageId, digest := digestOf S envelope }
  set effect := takesEffect state record frame previous.isNone outgoing live with heffect
  set next := state.accept record frame outgoing effect receipt with hdef
  have hnext : ValidPeer S.crypto peerId next :=
    hpeer.accept h.key h.messageId_pos hseq hle hplaintext
  have hstep : Step S (w.savedLedger S)
      (.accepted peerId messageId outgoing effect frame envelope)
      ((w.savedLedger S).insert peerId next.ledger) := by
    rw [hdef, PeerState.ledger_accept]
    have hrecord : state.ledger.keys.find frame.fingerprint = some record.ledger := by
      simp [h.key]
    exact Step.accepted (hw.find_saved h.running h.peer) hrecord h.isUser h.messageId_pos
      ⟨identity, state.keys, hopen⟩ h.check
  have hvalid : ValidAccount S.crypto (w.setPeer peerId next).chat.account :=
    World.valid_setPeer hw.valid hnext
  -- what follows once the frame was accepted
  have haccepted : ∀ saved : World,
      saved.chat.account.peers = w.chat.account.peers.insert peerId next →
      Advance S w (saved.record (.accepted peerId messageId outgoing effect frame envelope))
        [.accepted peerId messageId outgoing effect frame envelope] →
      ∃ replies, Advance S w (answer S draw peerId outgoing effect envelope frame state.mode
          next.mode.requested
          (saved.record (.accepted peerId messageId outgoing effect frame envelope))).1
          (.accepted peerId messageId outgoing effect frame envelope :: replies) ∧
        (answer S draw peerId outgoing effect envelope frame state.mode next.mode.requested
          (saved.record (.accepted peerId messageId outgoing effect frame
            envelope))).2.replies.map (Prod.mk peerId) = replies.filterMap Event.made ∧
        Replies peerId effect frame state.mode replies ∧
        ∀ id, ((answer S draw peerId outgoing effect envelope frame state.mode
          next.mode.requested (saved.record (.accepted peerId messageId outgoing effect frame
            envelope))).1.peer id).map PeerState.mode = if id = peerId then some
          (if effect then applyControl frame.kind frame.plaintext state.mode else state.mode)
          else (w.peer id).map PeerState.mode := by
    intro saved hpeers hadvance
    have hstate : (saved.record (.accepted peerId messageId outgoing effect frame
        envelope)).peer peerId = some next := by
      simp [World.peer, World.record, hpeers]
    obtain ⟨replies, hreplied, hmade, hshape, hmode⟩ := answer_spec hadvance.sound draw
      outgoing effect envelope state.mode hstate hplaintext (fun he hk => by
        rw [hdef]
        simp only [PeerState.accept, he, if_true, hk]
        rfl)
    refine ⟨replies, hadvance.trans hreplied, hmade, hshape, fun id => ?_⟩
    rw [hmode]
    simp only [World.peer, World.record, hpeers, OrdMap.find_insert]
    by_cases hid : id = peerId
    · rw [if_pos hid, if_pos hid]
      rfl
    · rw [if_neg hid, if_neg hid]
  unfold acceptFrame at hr
  simp only at hr
  by_cases hchanges : (previous.isNone || decide (previous.map Receipt.messageId ≠ some messageId)
      || decide (record.sent ≠ (record.accept frame outgoing effect receipt).sent)) = true
  · rw [if_pos hchanges] at hr
    by_cases hsaved : (save S draw.write (w.setPeer peerId next)).2 = true
    · right
      rw [if_pos hsaved] at hr
      subst hr
      obtain ⟨replies, hreplies⟩ := haccepted _ (by simp) (advance_of_save hw _ _ hvalid rfl rfl
        hsaved (by
          rw [World.peers_setPeer, ledger_insert, ← hw.synced h.running]
          exact hstep))
      exact ⟨_, replies, rfl, hreplies⟩
    · left
      rw [if_neg hsaved] at hr
      subst hr
      obtain ⟨hs, hwritten⟩ := save_failed (by simpa using hsaved)
      have hback : ((save S draw.write (w.setPeer peerId next)).1.fail.setPeer peerId
          (state.setKey frame.fingerprint ((record.accept frame outgoing effect receipt).unaccept
            frame outgoing previous record.control record.sent))).chat.account =
          w.chat.account := by
        rw [Key.unaccept_accept hfind, PeerState.setKey_find h.key]
        simp only [World.setPeer, World.fail, save_chat, Account.setPeer, OrdMap.insert_insert]
        rw [OrdMap.insert_find h.peer]
      refine ⟨rfl, advance_of_restored hw (hback ▸ hw.valid) (fun hf => ?_) hs hwritten ?_, hback⟩
      · exact absurd hf (by simp [World.fail])
      · simp [World.fail]
  · right
    rw [if_neg hchanges, if_pos rfl] at hr
    subst hr
    simp only [Bool.or_eq_true, decide_eq_true_eq, not_or, not_not,
      Option.isNone_iff_eq_none] at hchanges
    obtain ⟨⟨hsome, hid⟩, hsent⟩ := hchanges
    obtain ⟨r, hprevious⟩ := Option.ne_none_iff_exists'.mp hsome
    -- the frame repeats its receipt, so that nothing changes
    have hsame : r = receipt := by
      obtain ⟨hdigest, -⟩ := hagree r hprevious
      rw [hprevious, Option.map_some, Option.some.injEq] at hid
      cases r
      simp only at hdigest hid
      rw [hdigest, hid]
    have hfalse : effect = false := by
      rw [heffect, hprevious]
      simp [takesEffect]
    have hself : next = state := by
      rw [hdef, hfalse]
      rw [hfalse] at hsent
      exact PeerState.accept_eq_self h.key (by rw [hfind, hprevious, hsame]) hsent
    have hworld : w.setPeer peerId next = w := by
      rw [hself]
      simp only [World.setPeer, Account.setPeer]
      rw [OrdMap.insert_find h.peer]
    obtain ⟨replies, hreplies⟩ := haccepted (w.setPeer peerId next) (by simp) (by
      rw [hworld]
      refine ⟨⟨by simpa [World.record] using hw.valid, fun hf => ?_, hw.reopenable⟩,
        by simp [World.record], Trace.single ?_⟩
      · simpa [World.record] using hw.synced h.running
      · have hledger : (w.savedLedger S).insert peerId next.ledger = w.savedLedger S := by
          rw [hself]
          exact OrdMap.insert_find (hw.find_saved h.running h.peer)
        rw [hledger] at hstep
        simpa [World.savedLedger, World.record] using hstep)
    exact ⟨_, replies, rfl, hreplies⟩

/-- **The two outcomes of `receive`**: the envelope is rejected and the account stays, or its
frame is accepted and answered. -/
theorem receive_spec {w : World} (hw : Sound S w) (draw : ReceiveDraw S.crypto)
    (peerId : PeerId) (messageId : MsgId) (outgoing live : Bool) (envelope : Text)
    {r : World × Option ReceivedMessage}
    (hr : receive S draw peerId messageId outgoing live envelope w = r) :
    (r.2 = none ∧ Advance S w r.1 [] ∧ r.1.chat.account = w.chat.account) ∨
    ∃ state record frame previous message replies,
      Accepts S w peerId messageId outgoing envelope state record frame previous ∧
      r.2 = some message ∧
      Advance S w r.1 (.accepted peerId messageId outgoing
        (takesEffect state record frame previous.isNone outgoing live) frame envelope
        :: replies) ∧
      message.replies.map (Prod.mk peerId) = replies.filterMap Event.made ∧
      Replies peerId (takesEffect state record frame previous.isNone outgoing live) frame
        state.mode replies ∧
      ∀ id, (r.1.peer id).map PeerState.mode = if id = peerId then some
        (if takesEffect state record frame previous.isNone outgoing live then
          applyControl frame.kind frame.plaintext state.mode else state.mode)
        else (w.peer id).map PeerState.mode := by
  have hnone : (w, (none : Option ReceivedMessage)) = r →
      r.2 = none ∧ Advance S w r.1 [] ∧ r.1.chat.account = w.chat.account := by
    rintro rfl
    exact ⟨rfl, Advance.refl hw, rfl⟩
  unfold receive at hr
  split at hr
  swap
  · exact Or.inl (hnone hr)
  rename_i state identity hstate hidentity
  split at hr
  · exact Or.inl (hnone hr)
  rename_i hguard
  simp only [Bool.or_eq_true, Bool.not_eq_true', decide_eq_true_eq, not_or, not_le,
    Bool.not_eq_false, Bool.not_eq_true] at hguard
  obtain ⟨⟨hf, huser⟩, hpos⟩ := hguard
  split at hr
  · exact Or.inl (hnone hr)
  rename_i frame hopen
  split at hr
  · exact Or.inl (hnone hr)
  rename_i record hrecord
  split at hr
  · exact Or.inl (hnone hr)
  rename_i previous hcheck
  have haccepts : Accepts S w peerId messageId outgoing envelope state record frame previous :=
    ⟨hstate, hf, huser, hpos, ⟨identity, hidentity, hopen⟩, hrecord, hcheck⟩
  rcases acceptFrame_spec hw draw haccepts hr with h | ⟨message, replies, h⟩
  · exact Or.inl h
  · exact Or.inr ⟨state, record, frame, previous, message, replies, haccepts, h⟩

end E2E
