import Telegravim.E2E.Agreement
import Telegravim.E2E.Readiness

set_option autoImplicit false

/-!
# Encrypted chat: the desktop and Android agree on what they receive

`Chat::receive` against `E2eState.receive`: the same envelopes open, the same receipts, counters
and modes are left, and the same replies are made. Both platforms are then compared in every
state that a run reaches.

## Main definitions

* `E2E.toMessage` — what the desktop shows for what Android returns.

## Main results

* `E2E.openWire_agrees` — the same envelopes open.
* `E2E.receive_agrees` — receiving.
* `E2E.desktop_android_agree` — all operations, in every state a run reaches.
-/

namespace E2E

open Text

variable (P : Android.Platform)

/-! ### Opening -/

/-- An opened frame the way Android keeps it. -/
def toOpened (frame : Frame) : Android.Opened where
  kind := frame.kind
  fingerprint := frame.fingerprint
  sequence := frame.sequence
  sequenceText := decimal frame.sequence
  plain := frame.plaintext

/-- **The same envelopes open on both platforms**, when their text does not end inside a
character. -/
theorem openWire_agrees (hsized : P.crypto.Sized) {userId : ℕ} {identity : Identity}
    (hidentity : ValidIdentity P.crypto identity) {keys : OrdMap Text Key}
    (hkeys : ∀ fingerprint record, keys.find fingerprint = some record →
      validPublicKey P.crypto record.publicKey = true)
    (remoteId : ℕ) (outgoing : Bool) (wire : Text)
    (hcomplete : ∀ decrypted, decryptFrame (P.session userId) identity keys remoteId outgoing wire =
      some decrypted → ¬ Utf8.Truncated decrypted.bytes) :
    Android.openWire P userId identity (keys.mapValues toKey) remoteId outgoing wire =
      (openFrame (P.session userId) identity keys remoteId outgoing wire).map toOpened := by
  have hload : loadPrivate P.crypto identity.privateKey = some identity.publicKey := by
    unfold loadPrivate
    rw [if_neg (by simp [hidentity.privateKey])]
    exact hidentity.pair
  unfold Android.openWire openFrame
  unfold decryptFrame at hcomplete ⊢
  generalize split wire 46 = parts at hcomplete ⊢
  rcases parts with _ | ⟨version, _ | ⟨kindText, _ | ⟨senderText, _ | ⟨recipientText,
    _ | ⟨senderKey, _ | ⟨recipientKey, _ | ⟨sequenceText, _ | ⟨nonceText, _ | ⟨cipherText,
    _ | ⟨_, _⟩⟩⟩⟩⟩⟩⟩⟩⟩⟩
  all_goals try rfl
  simp only [android_number, android_unbase64, Option.bind_eq_bind, hload, Option.bind_some,
    OrdMap.find_mapValues] at hcomplete ⊢
  by_cases hversion : version = u "TVE2"
  swap
  · simp [hversion]
  cases hkind : Kind.ofText kindText with
  | none => simp [hversion]
  | some kind =>
  cases hsender : number senderText false with
  | none => simp [hversion]
  | some sender =>
  cases hrecipient : number recipientText false with
  | none => simp [hversion]
  | some recipient =>
  generalize (if outgoing = true then userId else remoteId) = from₀ at hcomplete ⊢
  generalize (if outgoing = true then remoteId else userId) = to₀ at hcomplete ⊢
  generalize (if outgoing = true then senderKey else recipientKey) = localKey at hcomplete ⊢
  generalize (if outgoing = true then recipientKey else senderKey) = fingerprint at hcomplete ⊢
  by_cases hfields : sender = from₀ ∧ recipient = to₀ ∧
    localKey = fingerprintFor P.crypto identity.publicKey
  swap
  · cases number sequenceText false with
    | none => simp [hversion]
    | some sequence =>
      simp only [hversion, ne_eq, not_true_eq_false, if_false, Option.bind_some, decide_false,
        Bool.false_or]
      rw [if_pos (by by_contra hno; exact hfields (by simpa [not_or] using hno)),
        if_pos (by by_contra hno; exact hfields (by simpa [and_assoc] using hno))]
      rfl
  obtain ⟨hfrom, hto, hlocal⟩ := hfields
  cases hsequence : number sequenceText false with
  | none => simp [hversion]
  | some sequence =>
  simp only [hversion, hkind, hsender, hrecipient, hsequence, hfrom, hto, hlocal, ne_eq,
    not_true_eq_false, if_false, Option.bind_some, decide_false, Bool.or_self, Bool.false_eq_true,
    or_self] at hcomplete ⊢
  cases hrecord : keys.find fingerprint with
  | none => rfl
  | some record =>
  cases hnonce : base64 nonceText with
  | none => rfl
  | some nonce =>
  cases hciphertext : base64 cipherText with
  | none => rfl
  | some ciphertext =>
  simp only [hrecord, hnonce, hciphertext, Option.map_some, Option.bind_some] at hcomplete ⊢
  by_cases hlengths : nonce.length ≠ 12 ∨ ciphertext.length < 16
  · rw [if_pos hlengths, if_pos (show (decide (¬nonce.length = kNonceSize) ||
      decide (ciphertext.length < kTagSize)) = true by
        rw [Bool.or_eq_true, decide_eq_true_eq, decide_eq_true_eq]; exact hlengths)]
    rfl
  have hguard : ¬ (decide (¬nonce.length = kNonceSize) ||
      decide (ciphertext.length < kTagSize)) = true := by
    rw [Bool.or_eq_true, decide_eq_true_eq, decide_eq_true_eq]; exact hlengths
  rw [if_neg hlengths, if_neg hguard]
  rw [if_neg hguard] at hcomplete
  have hpublic := hkeys _ _ hrecord
  simp only [toKey, base64_base64Text, Option.bind_some, android_derive P hsized hpublic]
  cases hshared : sharedSecret P.crypto identity.privateKey record.publicKey with
  | none =>
    rw [deriveKey_of_none hshared]
    simp [aesGcmDecrypt]
  | some shared =>
  simp only [Option.map_some, Option.bind_some]
  cases hbytes : aesGcmDecrypt P.crypto (deriveKey P.crypto identity.privateKey
      identity.publicKey record.publicKey userId remoteId outgoing) nonce ciphertext
      (Utf8.toUtf8 (wire.take (wire.length - nonceText.length - cipherText.length - 2))) with
  | none => rfl
  | some bytes =>
  simp only [Option.bind_some]
  have htruncated : ¬ Utf8.Truncated bytes :=
    hcomplete ⟨kind, fingerprint, sequence, bytes⟩ (by rw [hbytes]; rfl)
  rw [Utf8.decodeStrict_eq_decodeStateful htruncated]
  cases Utf8.decodeStateful bytes with
  | none => rfl
  | some plain =>
  simp only [Option.bind_some, android_validPlain]
  have htext := (number_eq_some_iff.mp hsequence).1
  cases validPlaintext kind plain <;> simp [toOpened, htext]

/-! ### Receipts, counters and modes -/

lemma base64Text_injective : Function.Injective base64Text := fun a b h => by
  have := congrArg base64 h
  rw [base64_base64Text, base64_base64Text] at this
  exact Option.some.inj this

/-- The text of a message id on Android. -/
lemma boundId_eq {messageId : Int32} (hpos : 0 < messageId.toInt) :
    decimal (max 0 messageId.toInt).toNat = integer messageId.toInt64 := by
  rw [integer_of_nonneg (by rw [Int32.toInt_toInt64]; omega), Int32.toInt_toInt64,
    max_eq_right hpos.le]

/-- Message ids that are not negative have different texts. -/
lemma integer_inj {a b : MsgId} (ha : 0 ≤ a.toInt) (hb : 0 ≤ b.toInt) :
    integer a = integer b ↔ a = b := by
  refine ⟨fun h => ?_, fun h => h ▸ rfl⟩
  rw [integer_of_nonneg ha, integer_of_nonneg hb] at h
  have := decimal_injective h
  exact Int64.toInt_inj.mp (by omega)

/-- The receipts of a valid record, in one direction. -/
lemma ValidKey.validReceipts {C : Crypto} {fingerprint : Text} {record : Key}
    (h : ValidKey C fingerprint record) (outgoing : Bool) :
    ValidReceipts outgoing (record.receipts outgoing) := by
  cases outgoing
  · exact h.incoming
  · exact h.outgoing

/-- Both platforms reject the same receipts. -/
lemma receipt_rejected {outgoing : Bool} {receipts : OrdMap ℕ Receipt}
    (hvalid : ValidReceipts outgoing receipts) {messageId : MsgId} (hpos : 0 < messageId.toInt)
    (sequence : ℕ) (digest : Bytes) :
    ((receipts.find sequence).map (toReceipt sequence)).any (fun r =>
        !(r.digest = base64Text digest && (r.id = u "0" || r.id = integer messageId))) =
      (checkReceipt receipts sequence digest messageId).isNone := by
  unfold checkReceipt
  cases hfind : receipts.find sequence with
  | none => rfl
  | some previous =>
    have hid := (hvalid _ _ hfind).2.2.1
    have hzero : integer 0 = u "0" := by decide
    have h0 : integer previous.messageId = u "0" ↔ previous.messageId = 0 := by
      rw [← hzero]
      exact integer_inj hid (by decide)
    have hm : integer previous.messageId = integer messageId ↔ previous.messageId = messageId :=
      integer_inj hid hpos.le
    simp only [Option.map_some, Option.any_some, toReceipt, base64Text_injective.eq_iff, h0, hm]
    by_cases hdigest : previous.digest = digest <;> by_cases hzero' : previous.messageId = 0 <;>
      by_cases hsame : previous.messageId = messageId <;> simp [hdigest, hzero', hsame]

/-- A record that accepted a frame, on both platforms. -/
lemma toKey_accept (fingerprint : Text) (record : Key) (frame : Frame) (outgoing effect : Bool)
    (receipt : Receipt) :
    toKey fingerprint (record.accept frame outgoing effect receipt) =
      (if effect then { toKey fingerprint record with control := decimal frame.sequence }
        else toKey fingerprint record).bindWire outgoing (toOpened frame) record.sent
          (toReceipt frame.sequence receipt) := by
  cases outgoing <;> cases effect <;>
    simp [toKey, Key.accept, Key.setReceipts, Key.receipts, Android.Key.bindWire,
      Android.Key.putReceipt, toOpened, OrdMap.image_insert decimal_injective, max_comm]

/-- A control frame changes the mode the same way on both platforms. -/
lemma toPeer_applyControl (peerId : PeerId) (state : PeerState) {kind : Kind} {plain : Text}
    (hvalid : validPlaintext kind plain = true) :
    toPeer peerId { state with mode := applyControl kind plain state.mode } =
      (toPeer peerId state).applyControl kind plain := by
  cases kind with
  | msg => rfl
  | on => rfl
  | off => rfl
  | ack =>
    have hconfirms := android_confirms hvalid
    simp only [applyControl, Android.Peer.applyControl, hconfirms]
    change toPeer peerId { state with mode := if (state.mode.requested &&
      decide (ackChallenge plain = state.mode.challenge)) = true then _ else _ } =
      if (state.mode.requested && decide (ackChallenge plain = state.mode.challenge)) = true
        then _ else _
    split_ifs <;> rfl

/-- A control frame leaves what was requested and whether the key changed. -/
lemma applyControl_keeps (kind : Kind) (plain : Text) (mode : Mode) :
    (applyControl kind plain mode).requested = mode.requested ∧
      (applyControl kind plain mode).keyChanged = mode.keyChanged := by
  cases kind with
  | ack =>
    unfold applyControl
    dsimp only
    split_ifs <;> exact ⟨rfl, rfl⟩
  | _ => exact ⟨rfl, rfl⟩

/-- The receipt of a frame that repeats another leaves the record. -/
lemma accept_of_repeated {record : Key} {frame : Frame} {outgoing : Bool}
    {receipt : Receipt} (hreceipt : (record.receipts outgoing).find frame.sequence = some receipt)
    (hsent : outgoing = true → frame.sequence ≤ record.sent) :
    record.accept frame outgoing false receipt = record := by
  unfold Key.accept
  simp only [Bool.false_eq_true, if_false, OrdMap.insert_find hreceipt]
  cases outgoing with
  | false => rfl
  | true =>
    simp only [if_true]
    change { record.setReceipts true (record.receipts true) with
      sent := max record.sent frame.sequence } = record
    rw [max_eq_left (hsent rfl)]
    rfl

/-- A peer that accepted a frame, on both platforms. -/
lemma toPeer_accept (peerId : PeerId) (state : PeerState) (record : Key) {frame : Frame}
    (hvalid : validPlaintext frame.kind frame.plaintext = true) (outgoing effect : Bool)
    (receipt : Receipt) :
    toPeer peerId (state.accept record frame outgoing effect receipt) =
      { (if effect then (toPeer peerId state).applyControl frame.kind frame.plaintext
          else toPeer peerId state) with
        keys := (if effect then (toPeer peerId state).applyControl frame.kind frame.plaintext
          else toPeer peerId state).keys.insert frame.fingerprint
            (toKey frame.fingerprint (record.accept frame outgoing effect receipt)) } := by
  cases effect with
  | false => exact toPeer_setKey _ _ _ _
  | true =>
    simp only [if_true, ← toPeer_applyControl peerId state hvalid]
    exact toPeer_setKey peerId { state with mode := applyControl frame.kind frame.plaintext state.mode }
      _ _

/-! ### Replies -/

/-- The text the desktop shows for what Android returns. -/
def shownText (outgoing : Bool) (received : Android.Received) : Text :=
  match received.kind with
  | .msg => received.text
  | .on =>
    if outgoing then
      u "You requested E2E encryption. Waiting for your contact's confirmation."
    else u "Your contact requested E2E encryption. Enable it here after verifying the fingerprint."
  | .off =>
    if outgoing then u "You turned off E2E encryption for new messages."
    else u "Your contact turned off E2E encryption. Your sending mode has not changed."
  | .ack =>
    if outgoing then u "You acknowledged your contact's encryption request."
    else if received.positive then u "Your contact confirmed an E2E encryption request."
    else u "Your contact has not enabled E2E encryption yet."

/-- What the desktop shows for what Android returns. -/
def toMessage (outgoing : Bool) (received : Android.Received) : ReceivedMessage :=
  { text := shownText outgoing received, replies := received.replies }

/-- A frame is no key exchange message. -/
lemma not_isKeyExchange {envelope : Text} {kind : Kind} {rest : List Text} (hrest : rest ≠ [])
    (hsplit : split envelope 46 = u "TVE2" :: kind.text :: rest) :
    isKeyExchange envelope = false := by
  obtain ⟨part, parts, rfl⟩ := List.exists_cons_of_ne_nil hrest
  have henvelope : envelope = u "TVE2" ++ 46 :: (kind.text ++ 46 :: join 46 (part :: parts)) := by
    rw [← join_split envelope 46, hsplit]
    simp [join, List.intercalate, List.intersperse]
  rw [henvelope]
  cases kind <;> rfl

/-- The notice of a control frame of one's own. -/
lemma notice_of_frame {S : Session} (write : Write) (peerId : PeerId) {envelope : Text}
    {kind : Kind} (hkind : kind ≠ .msg) {a b c d e f g : Text}
    (hsplit : split envelope 46 = [u "TVE2", kind.text, a, b, c, d, e, f, g]) (live : Bool)
    (w : World) (received : Android.Received) (hreceived : received.kind = kind) :
    controlNotice S write peerId envelope true live w = (w, shownText true received) := by
  unfold controlNotice shownText
  rw [not_isKeyExchange (by simp) hsplit, hsplit, hreceived]
  cases kind with
  | msg => exact absurd rfl hkind
  | _ => rfl

/-- A frame is sealed when the keys share a secret. -/
lemma sealFrame_succeeds (hsized : P.crypto.Sized) (userId : ℕ) (peerId : PeerId)
    {identity : Identity} (hidentity : ValidIdentity P.crypto identity) {peerKey : Bytes}
    (hshared : (sharedSecret P.crypto identity.privateKey peerKey).isSome = true) (kind : Kind)
    (plain active : Text) (sequence : ℕ) (nonce : RandomBytes 12) :
    ∃ frame, sealFrame (P.session userId) peerId kind plain identity active peerKey sequence
      (some nonce) = some frame := by
  have hload : loadPrivate P.crypto identity.privateKey = some identity.publicKey := by
    unfold loadPrivate
    rw [if_neg (by simp [hidentity.privateKey])]
    exact hidentity.pair
  obtain ⟨shared, hshared⟩ := Option.isSome_iff_exists.mp hshared
  have hlength : (deriveKey P.crypto identity.privateKey identity.publicKey peerKey userId
      (peerToUser peerId) true).length = 32 := by
    simp only [deriveKey, hshared, hsized.hkdf]
  unfold sealFrame
  simp only [hload]
  rw [if_neg]
  · exact ⟨_, rfl⟩
  · rintro (hnil | hnil)
    · rw [hnil] at hlength
      exact absurd hlength (by simp)
    · unfold aesGcmEncrypt at hnil
      rw [if_neg (by rw [hlength, nonce.property]; decide)] at hnil
      exact hsized.gcmEncrypt _ _ _ _ hnil

/-- A frame is made for a peer while its counter lasts. -/
lemma encryptFrame_succeeds (hsized : P.crypto.Sized) (userId : ℕ) {w : World}
    (hw : ValidAccount P.crypto w.chat.account) (hrunning : w.chat.failed = false)
    (draw : IdentityDraw P.crypto) (nonce : RandomBytes 12) {peerId : PeerId} {identity : Identity}
    (hidentity : w.chat.account.identity = some identity) {state : PeerState} {record : Key}
    (hpeer : w.peer peerId = some state) (hchanged : state.mode.keyChanged = false)
    (hrecord : state.keys.find state.active = some record) (hlt : record.sent < kMaxNumber)
    (hshared : (sharedSecret P.crypto identity.privateKey record.publicKey).isSome = true)
    (kind : Kind) (plain : Text) :
    ∃ frame, (encryptFrame (P.session userId) ⟨draw, some nonce, .done⟩ peerId kind plain w).2 =
        some frame ∧
      (encryptFrame (P.session userId) ⟨draw, some nonce, .done⟩ peerId kind plain w).1.chat =
        (w.setPeer peerId (state.setKey state.active
          (record.send (digestOf (P.session userId) frame)))).chat := by
  have hentered := identity_of_some (S := P.session userId) hrunning hidentity draw
  obtain ⟨frame, hseal⟩ := sealFrame_succeeds P hsized userId peerId
    (hw.identity _ hidentity) hshared kind plain state.active (record.sent + 1) nonce
  have hsaved := save_succeeds (S := P.session userId) (w := w.setPeer peerId
    (state.setKey state.active (record.send (digestOf (P.session userId) frame)))) hrunning hidentity
  have hmade : encryptFrame (P.session userId) ⟨draw, some nonce, .done⟩ peerId kind plain w =
      ((save (P.session userId) .done (w.setPeer peerId (state.setKey state.active
        (record.send (digestOf (P.session userId) frame))))).1.record (.sent peerId kind plain
          state.active (record.sent + 1) state.mode.requested frame), some frame) := by
    unfold encryptFrame
    simp only [hentered, hpeer, (hw.peers _ _ hpeer).isUser, hchanged, hrecord, Bool.not_true,
      Bool.or_self, Bool.false_eq_true, if_false, Nat.not_le.mpr hlt, hseal, hsaved, if_true]
    rfl
  rw [hmade]
  exact ⟨frame, rfl, save_chat _ _⟩

/-- The draws of `receive` when every write succeeds. -/
def doneDraw (draw : IdentityDraw P.crypto) (ackNonce repeatNonce : RandomBytes 12) :
    ReceiveDraw P.crypto :=
  { write := .done
    ack := ⟨draw, some ackNonce, .done⟩
    repeatOn := ⟨draw, some repeatNonce, .done⟩
    notice := .done }

/-- A peer to whom two more frames can be sent. -/
structure Room (C : Crypto) (identity : Identity) (state : PeerState) (record : Key) : Prop where
  unchanged : state.mode.keyChanged = false
  find : state.keys.find state.active = some record
  sent : record.sent + 2 ≤ kMaxNumber
  shared : (sharedSecret C identity.privateKey record.publicKey).isSome = true

/-- **The same replies are made.** -/
lemma replies_agree (hsized : P.crypto.Sized) {userId : ℕ} {w : World} {s : Android.State}
    (hw : ValidAccount P.crypto w.chat.account) (h : Corresponds (P.session userId) w s)
    (draw : IdentityDraw P.crypto) (ackNonce repeatNonce : RandomBytes 12) {peerId : ChatId}
    {identity : Identity} (hidentity : w.chat.account.identity = some identity)
    {state : PeerState} (hpeer : w.peer peerId.val = some state) (plain : Text)
    {ack repeats : Bool} (hroom : ack = true → ∃ record, Room P.crypto identity state record)
    (hrepeats : repeats = true → ack = true ∧ state.mode.requested = true) (outgoing : Bool)
    (received : Android.Received) :
    let r : World × ReceivedMessage := (w, toMessage outgoing received)
    let r := if ack then replyAck (P.session userId) ⟨draw, some ackNonce, .done⟩ peerId.val plain
      state.mode.requested r else r
    let r := if repeats then replyOn (P.session userId) ⟨draw, some repeatNonce, .done⟩ peerId.val r
      else r
    let a : Android.State × Option Android.Received := (s, some received)
    let a := if ack then Android.addReply (Android.encrypt P ackNonce (peerToUser peerId.val)
      (u "ACK") (plain ++ if state.mode.requested then u ":1" else u ":0")) a else a
    let a := if repeats then Android.addReply (Android.control P repeatNonce
      (peerToUser peerId.val)) a else a
    Corresponds (P.session userId) r.1 a.1 ∧ some r.2 = a.2.map (toMessage outgoing) := by
  cases hack : ack with
  | false =>
    have hno : repeats = false := by
      by_contra hyes
      rw [Bool.not_eq_false] at hyes
      exact absurd ((hrepeats hyes).1.symm.trans hack) (by simp)
    rw [hno]
    exact ⟨h, rfl⟩
  | true =>
    obtain ⟨record, hroom⟩ := hroom hack
    obtain ⟨frame, hframe, hchat⟩ := encryptFrame_succeeds P hsized userId hw h.running
      draw ackNonce hidentity hpeer hroom.unchanged hroom.find (by have := hroom.sent; omega)
      hroom.shared .ack (plain ++ if state.mode.requested then u ":1" else u ":0")
    obtain ⟨hnext, hsame⟩ := encrypt_agrees P hsized hw h draw ackNonce hpeer .ack
      (plain ++ if state.mode.requested then u ":1" else u ":0")
    set w₂ := (encryptFrame (P.session userId) ⟨draw, some ackNonce, .done⟩ peerId.val .ack
      (plain ++ if state.mode.requested then u ":1" else u ":0") w).1 with hw₂
    have hreplied : replyAck (P.session userId) ⟨draw, some ackNonce, .done⟩ peerId.val plain
        state.mode.requested (w, toMessage outgoing received) =
        (w₂, toMessage outgoing { received with replies := received.replies ++ [frame] }) := by
      unfold replyAck
      simp only [hframe]
      rfl
    have hencrypted : Android.encrypt P ackNonce (peerToUser peerId.val) (u "ACK")
        (plain ++ if state.mode.requested then u ":1" else u ":0") s =
        ((Android.encrypt P ackNonce (peerToUser peerId.val) (u "ACK")
          (plain ++ if state.mode.requested then u ":1" else u ":0") s).1, some frame) :=
      Prod.ext rfl (hsame.symm.trans hframe)
    have hadded : Android.addReply (Android.encrypt P ackNonce (peerToUser peerId.val) (u "ACK")
        (plain ++ if state.mode.requested then u ":1" else u ":0")) (s, some received) =
        ((Android.encrypt P ackNonce (peerToUser peerId.val) (u "ACK")
          (plain ++ if state.mode.requested then u ":1" else u ":0") s).1,
          some { received with replies := received.replies ++ [frame] }) := by
      unfold Android.addReply
      rw [hencrypted]
    simp only [if_true, hreplied, hadded]
    set s₂ := (Android.encrypt P ackNonce (peerToUser peerId.val) (u "ACK")
      (plain ++ if state.mode.requested then u ":1" else u ":0") s).1
    replace hnext : Corresponds (P.session userId) w₂ s₂ := hnext
    cases hrep : repeats with
    | false => exact ⟨hnext, rfl⟩
    | true =>
      obtain ⟨-, hrequested⟩ := hrepeats hrep
      set state₂ := state.setKey state.active
        (record.send (digestOf (P.session userId) frame)) with hstate₂
      have hpeer₂ : w₂.peer peerId.val = some state₂ := by
        rw [World.peer, hchat]
        exact OrdMap.find_insert_self _ _ _
      have hvalidState := hw.peers _ _ hpeer
      have hw₂valid : ValidAccount P.crypto w₂.chat.account := by
        rw [hchat]
        refine ValidAccount.setPeer (S := P.session userId) hw (ValidPeer.setKey hvalidState ?_)
        exact ValidKey.send (S := P.session userId) (hvalidState.keys _ _ hroom.find)
          (by have := hroom.sent; omega) frame
      have hidentity₂ : w₂.chat.account.identity = some identity := by
        rw [hchat]; exact hidentity
      have hrecord₂ : state₂.keys.find state₂.active =
          some (record.send (digestOf (P.session userId) frame)) := OrdMap.find_insert_self _ _ _
      obtain ⟨frame₂, hframe₂, -⟩ := encryptFrame_succeeds P hsized userId hw₂valid
        hnext.running draw repeatNonce hidentity₂ hpeer₂ hroom.unchanged hrecord₂
          (by have := hroom.sent; simp only [Key.send]; omega)
        hroom.shared .on state.mode.challenge
      obtain ⟨hlast, hsame₂⟩ := control_agrees P hsized hw₂valid hnext draw repeatNonce hpeer₂
        fun hleft => absurd (hrequested.symm.trans hleft) (by simp)
      rw [show state₂.mode.requested = true from hrequested] at hlast hsame₂
      have hne := encryptFrame_ne_nil hframe₂
      have hmessage : stateMessage (P.session userId) ⟨draw, some repeatNonce, .done⟩ peerId.val
          true w₂ = ((encryptFrame (P.session userId) ⟨draw, some repeatNonce, .done⟩ peerId.val .on
            state.mode.challenge w₂).1, frame₂) := by
        unfold stateMessage
        simp only [hpeer₂]
        rw [if_neg (by simp [hstate₂, PeerState.setKey, hrequested, hroom.unchanged])]
        simp only [if_true]
        exact Prod.ext rfl (congrArg (Option.getD · []) hframe₂)
      rw [hmessage] at hlast hsame₂
      have hreplied₂ : replyOn (P.session userId) ⟨draw, some repeatNonce, .done⟩ peerId.val
          (w₂, toMessage outgoing { received with replies := received.replies ++ [frame] }) =
          ((encryptFrame (P.session userId) ⟨draw, some repeatNonce, .done⟩ peerId.val .on
            state.mode.challenge w₂).1,
            toMessage outgoing { received with replies := received.replies ++ [frame] ++ [frame₂] })
          := by
        unfold replyOn
        simp only [hmessage, hne, if_false]
        rfl
      have hcontrol : Android.control P repeatNonce (peerToUser peerId.val) s₂ =
          ((Android.control P repeatNonce (peerToUser peerId.val) s₂).1, some frame₂) :=
        Prod.ext rfl (hsame₂.symm.trans (if_neg hne))
      have hadded₂ : Android.addReply (Android.control P repeatNonce (peerToUser peerId.val))
          (s₂, some { received with replies := received.replies ++ [frame] }) =
          ((Android.control P repeatNonce (peerToUser peerId.val) s₂).1,
            some { received with replies := received.replies ++ [frame] ++ [frame₂] }) := by
        unfold Android.addReply
        rw [hcontrol]
      simp only [if_true, hreplied₂, hadded₂]
      exact ⟨hlast, rfl⟩

/-! ### Accepted frames -/

/-- What Android returns for a frame, before the replies. -/
def toReceived (frame : Frame) : Android.Received :=
  { text := frame.plaintext
    kind := frame.kind
    positive := frame.kind = .ack && (u ":1").isSuffixOf frame.plaintext }

/-- The text of a message, before the replies. -/
lemma text_toReceived {S : Session} (write : Write) (peerId : PeerId) {frame : Frame}
    (hvalid : validPlaintext frame.kind frame.plaintext = true) {envelope : Text}
    {a b c d e f g : Text}
    (hsplit : split envelope 46 = [u "TVE2", frame.kind.text, a, b, c, d, e, f, g])
    (outgoing : Bool) (w : World) :
    (if (frame.kind ≠ .msg && outgoing) = true then
        ((controlNotice S write peerId envelope true false w).1,
          ({ text := (controlNotice S write peerId envelope true false w).2, replies := [] } :
            ReceivedMessage))
      else (w, { text := receivedText frame, replies := [] })) =
      (w, toMessage outgoing (toReceived frame)) := by
  by_cases hmsg : frame.kind = .msg
  · rw [if_neg (by simp [hmsg])]
    simp [receivedText, toMessage, shownText, toReceived, hmsg]
  · cases outgoing with
    | true =>
      rw [if_pos (by simp [hmsg]), notice_of_frame write peerId hmsg hsplit false w
        (toReceived frame) rfl]
      rfl
    | false =>
      rw [if_neg (by simp)]
      unfold receivedText toMessage shownText toReceived
      cases hkind : frame.kind with
      | ack =>
        rw [hkind] at hvalid
        simp only [decide_true, Bool.true_and, android_confirms hvalid, Bool.false_eq_true, if_false]
      | _ => rfl

/-- The replies of Android, with the conditions of the desktop. -/
lemma answerWire_toPeer (ackNonce repeatNonce : RandomBytes 12) (id : ℕ) (peerId : PeerId)
    (frame : Frame) (effect : Bool) (state : PeerState) (requested : Bool)
    (r : Android.State × Option Android.Received) :
    Android.answerWire P ackNonce repeatNonce id (toOpened frame) effect (toPeer peerId state)
        requested r =
      let a := if effect && frame.kind = .on then Android.addReply (Android.encrypt P ackNonce id
        (u "ACK") (frame.plaintext ++ if requested then u ":1" else u ":0")) r else r
      if effect && frame.kind = .on && repeatsOn frame.plaintext state.mode then
        Android.addReply (Android.control P repeatNonce id) a else a := by
  have hrepeats : (effect && decide (frame.kind = .on) && state.mode.requested &&
      !state.mode.ready && decide (frame.plaintext ≠ state.mode.lastPeerChallenge)) =
      (effect && decide (frame.kind = .on) && repeatsOn frame.plaintext state.mode) := by
    unfold repeatsOn
    rw [decide_eq_decide.mpr (ne_comm (a := frame.plaintext)), Bool.and_assoc, Bool.and_assoc,
      Bool.and_assoc, Bool.and_assoc, Bool.and_assoc]
  unfold Android.answerWire
  exact if_congr (by rw [← hrepeats]; rfl) rfl rfl

/-- A frame that opened shares a secret. -/
lemma shared_of_openFrame {S : Session} {identity : Identity} {keys : OrdMap Text Key}
    {remoteId : ℕ} {outgoing : Bool} {envelope : Text} {frame : Frame} {record : Key}
    (h : openFrame S identity keys remoteId outgoing envelope = some frame)
    (hrecord : keys.find frame.fingerprint = some record) :
    (sharedSecret S.crypto identity.privateKey record.publicKey).isSome = true := by
  obtain ⟨record', _, _, _, _, _, -, -, -, hrecord', hdecrypt, -⟩ := openFrame_inv h
  obtain rfl := Option.some.inj (hrecord.symm.trans hrecord')
  by_contra hnone
  rw [Option.not_isSome_iff_eq_none] at hnone
  rw [deriveKey_of_none hnone] at hdecrypt
  simp [aesGcmDecrypt] at hdecrypt

/-- A frame whose receipt is saved, or was there before, is answered. -/
lemma acceptFrame_saved {S : Session} {draw : ReceiveDraw S.crypto} {peerId : PeerId}
    {messageId : MsgId} {outgoing live : Bool} {envelope : Text} {state : PeerState} {record : Key}
    {frame : Frame} {previous : Option Receipt} {w : World}
    (hsaved : (save S draw.write (w.setPeer peerId (state.accept record frame outgoing
      (takesEffect state record frame previous.isNone outgoing live)
      { messageId, digest := digestOf S envelope }))).2 = true) :
    ∃ w₁ : World,
      w₁.chat = (w.setPeer peerId (state.accept record frame outgoing
        (takesEffect state record frame previous.isNone outgoing live)
        { messageId, digest := digestOf S envelope })).chat ∧
      acceptFrame S draw peerId messageId outgoing live envelope state record frame previous w =
        ((answer S draw peerId outgoing
            (takesEffect state record frame previous.isNone outgoing live) envelope frame state.mode
            (state.accept record frame outgoing
              (takesEffect state record frame previous.isNone outgoing live)
              { messageId, digest := digestOf S envelope }).mode.requested w₁).1,
          some (answer S draw peerId outgoing
            (takesEffect state record frame previous.isNone outgoing live) envelope frame state.mode
            (state.accept record frame outgoing
              (takesEffect state record frame previous.isNone outgoing live)
              { messageId, digest := digestOf S envelope }).mode.requested w₁).2) := by
  unfold acceptFrame
  simp only
  split_ifs with hchanges
  · refine ⟨_, ?_, rfl⟩
    exact save_chat _ _
  · refine ⟨_, ?_, rfl⟩
    rfl
  · rename_i hno
    exact absurd rfl hno

/-- **An accepted frame leaves corresponding states and the same message.** -/
theorem acceptFrame_agrees (hsized : P.crypto.Sized) {userId : ℕ} {w : World} {s : Android.State}
    (hw : ValidAccount P.crypto w.chat.account) (h : Corresponds (P.session userId) w s)
    (draw : IdentityDraw P.crypto) (ackNonce repeatNonce : RandomBytes 12) {peerId : ChatId}
    {messageId : Int32} {outgoing live : Bool} {envelope : Text} {state : PeerState} {record : Key}
    {frame : Frame} {previous : Option Receipt}
    (haccepts : Accepts (P.session userId) w peerId.val messageId.toInt64 outgoing envelope state
      record frame previous)
    (hroom : ∀ record, state.keys.find state.active = some record → record.sent + 2 ≤ kMaxNumber) :
    Corresponds (P.session userId)
        (acceptFrame (P.session userId) (doneDraw P draw ackNonce repeatNonce) peerId.val
          messageId.toInt64 outgoing live envelope state record frame previous w).1
        (Android.acceptWire P ackNonce repeatNonce (peerToUser peerId.val) messageId outgoing live
          envelope (toPeer peerId.val state) (toKey frame.fingerprint record) (toOpened frame) s).1 ∧
      (acceptFrame (P.session userId) (doneDraw P draw ackNonce repeatNonce) peerId.val
          messageId.toInt64 outgoing live envelope state record frame previous w).2 =
        (Android.acceptWire P ackNonce repeatNonce (peerToUser peerId.val) messageId outgoing live
          envelope (toPeer peerId.val state) (toKey frame.fingerprint record) (toOpened frame)
            s).2.map (toMessage outgoing) := by
  obtain ⟨identity, hidentity, hopen⟩ := haccepts.opened
  have hvalidState := hw.peers _ _ haccepts.peer
  have hvalidKey := hvalidState.keys _ _ haccepts.key
  obtain ⟨_, _, _, _, _, _, hsplit, -, -, -, -, -, hplain, hseq, hle⟩ := openFrame_inv hopen
  have hpos : 0 < messageId.toInt := by
    have := haccepts.messageId_pos
    rwa [Int32.toInt_toInt64] at this
  obtain ⟨hprevious, hagree⟩ := checkReceipt_eq_some haccepts.check
  set effect := takesEffect state record frame previous.isNone outgoing live with heffect
  set receipt : Receipt :=
    { messageId := messageId.toInt64, digest := digestOf (P.session userId) envelope } with hreceipt
  set next := state.accept record frame outgoing effect receipt with hnext
  have hsaved : (save (P.session userId) (doneDraw P draw ackNonce repeatNonce).write
      (w.setPeer peerId.val next)).2 = true :=
    save_succeeds (S := P.session userId) h.running hidentity
  -- the state is written, or nothing changed
  obtain ⟨w₁, hchat, haccepted⟩ := acceptFrame_saved (S := P.session userId) hsaved
  have hid := peerToUser_of_isUser haccepts.isUser
  have hvalidNext : ValidPeer P.crypto peerId.val next :=
    ValidPeer.accept (S := P.session userId) hvalidState haccepts.key haccepts.messageId_pos hseq hle
      hplain
  have hw₁ : ValidAccount P.crypto w₁.chat.account := by
    rw [hchat]
    exact ValidAccount.setPeer (S := P.session userId) hw hvalidNext
  have hidentity₁ : w₁.chat.account.identity = some identity := by rw [hchat]; exact hidentity
  have hpeer₁ : w₁.peer peerId.val = some next := by
    rw [World.peer, hchat]
    exact OrdMap.find_insert_self _ _ _
  -- the parts of the call on Android
  have hfind : ((toKey frame.fingerprint record).receipts outgoing).find
      (toOpened frame).sequenceText = previous.map (toReceipt frame.sequence) := by
    rw [show (toOpened frame).sequenceText = decimal frame.sequence from rfl, find_receipts_toKey,
      hprevious]
  have hboundId : decimal (max 0 messageId.toInt).toNat = integer messageId.toInt64 :=
    boundId_eq hpos
  have hcontrol : Android.number (toKey frame.fingerprint record).control true =
      some record.control := by
    rw [android_number]
    exact number_decimal_zero hvalidKey.control_le
  have hsent : Android.number (toKey frame.fingerprint record).sent true = some record.sent := by
    rw [android_number]
    exact number_decimal_zero hvalidKey.sent_le
  have hagreed : (previous.map (toReceipt frame.sequence)).any (fun r =>
      !(r.digest = base64Text (P.crypto.sha256 (Utf8.toUtf8 envelope)) &&
        (r.id = u "0" || r.id = integer messageId.toInt64))) = false := by
    have hreceipts := hvalidKey.validReceipts outgoing
    rw [← hprevious]
    exact (receipt_rejected hreceipts haccepts.messageId_pos frame.sequence _).trans
      (congrArg Option.isNone haccepts.check)
  have happly : Android.applies (toPeer peerId.val state) (toOpened frame) record.control
      (previous.map (toReceipt frame.sequence)).isNone outgoing live = effect := by
    rw [Option.isNone_map]
    rfl
  have hkey : (if (previous.map (toReceipt frame.sequence)).all (fun r =>
        decide (r.id ≠ integer messageId.toInt64)) = true then
      (if effect = true then { toKey frame.fingerprint record with
          control := decimal frame.sequence } else toKey frame.fingerprint record).bindWire
        outgoing (toOpened frame) record.sent
          { id := integer messageId.toInt64
            digest := base64Text (P.crypto.sha256 (Utf8.toUtf8 envelope)) }
      else if effect = true then { toKey frame.fingerprint record with
          control := decimal frame.sequence } else toKey frame.fingerprint record) =
      toKey frame.fingerprint (record.accept frame outgoing effect receipt) := by
    rw [toKey_accept]
    cases hrepeated : previous with
    | none => rfl
    | some r =>
      obtain ⟨hdigest, -⟩ := hagree r hrepeated
      have hvalidId : 0 ≤ r.messageId.toInt := by
        cases outgoing
        · exact (hvalidKey.incoming _ _ (hprevious.trans hrepeated)).2.2.1
        · exact (hvalidKey.outgoing _ _ (hprevious.trans hrepeated)).2.2.1
      by_cases hsame : r.messageId = messageId.toInt64
      · -- the receipt is there already, so nothing changes
        have hno : effect = false := by
          rw [heffect, hrepeated]
          simp [takesEffect]
        have hr : r = receipt := by
          rw [hreceipt, ← hsame, ← hdigest]
        have hrecord : record.accept frame outgoing effect receipt = record := by
          rw [hno]
          refine accept_of_repeated (hr ▸ hprevious.trans hrepeated) fun hout => ?_
          subst hout
          exact hvalidKey.outgoing_le _ _ (hprevious.trans hrepeated)
        rw [← toKey_accept, hrecord, if_neg (by simp [toReceipt, hsame]), hno]
        rfl
      · have hother : integer r.messageId ≠ integer messageId.toInt64 := fun heq =>
          hsame ((integer_inj hvalidId haccepts.messageId_pos.le).mp heq)
        rw [if_pos (by simp [toReceipt, hother])]
        rfl
  have hnextPeer : (toPeer peerId.val state).acceptWire (toKey frame.fingerprint record)
      (toOpened frame) outgoing effect record.sent (previous.map (toReceipt frame.sequence))
      { id := integer messageId.toInt64
        digest := base64Text (P.crypto.sha256 (Utf8.toUtf8 envelope)) } =
      toPeer peerId.val next := by
    rw [hnext, toPeer_accept peerId.val state record hplain, ← hkey]
    rfl
  have hputs : Corresponds (P.session userId) w₁ (s.putPeer (peerToUser peerId.val)
      (toPeer peerId.val next)) :=
    h.putPeer (by simp [hidentity]) hid rfl hchat
  have hcall : Android.acceptWire P ackNonce repeatNonce (peerToUser peerId.val) messageId outgoing
      live envelope (toPeer peerId.val state) (toKey frame.fingerprint record) (toOpened frame) s =
      Android.answerWire P ackNonce repeatNonce (peerToUser peerId.val) (toOpened frame) effect
        (toPeer peerId.val state) next.mode.requested
        (s.putPeer (peerToUser peerId.val) (toPeer peerId.val next), some (toReceived frame)) := by
    unfold Android.acceptWire
    simp only [hfind, hboundId, hagreed, hcontrol, hsent, Bool.false_eq_true, if_false, happly,
      hnextPeer]
    rfl
  rw [haccepted, hcall]
  -- what is left are the replies
  have hkeeps : next.mode.requested = state.mode.requested ∧
      next.mode.keyChanged = state.mode.keyChanged := by
    rw [hnext]
    cases effect with
    | false => exact ⟨rfl, rfl⟩
    | true => exact applyControl_keeps _ _ _
  have hroomNext : (effect && decide (frame.kind = .on)) = true →
      ∃ record, Room P.crypto identity next record := by
    intro hack
    obtain ⟨-, -, hincoming, -, hactive, hunchanged, -⟩ :=
      takesEffect_iff.mp (Bool.and_eq_true _ _ ▸ hack).1
    have hkeySent := hroom record (hactive ▸ haccepts.key)
    refine ⟨record.accept frame outgoing effect receipt, hkeeps.2.trans hunchanged, ?_, ?_, ?_⟩
    · rw [hnext, show (state.accept record frame outgoing effect receipt).active =
        frame.fingerprint from hactive.symm]
      exact OrdMap.find_insert_self _ _ _
    · rw [Key.sent_accept, hincoming]
      exact hkeySent
    · rw [show (record.accept frame outgoing effect receipt).publicKey = record.publicKey by
        cases outgoing <;> cases effect <;> rfl]
      exact shared_of_openFrame hopen haccepts.key
  have hrep : (effect && decide (frame.kind = .on) && repeatsOn frame.plaintext state.mode) = true →
      (effect && decide (frame.kind = .on)) = true ∧ next.mode.requested = true := by
    intro hyes
    obtain ⟨hack, hrepeats⟩ := Bool.and_eq_true _ _ ▸ hyes
    unfold repeatsOn at hrepeats
    simp only [Bool.and_eq_true] at hrepeats
    exact ⟨hack, hkeeps.1.trans hrepeats.1.1⟩
  have hreplies := replies_agree P hsized hw₁ hputs draw ackNonce repeatNonce hidentity₁ hpeer₁
    frame.plaintext hroomNext hrep outgoing (toReceived frame)
  have htext := text_toReceived (S := P.session userId)
    (doneDraw P draw ackNonce repeatNonce).notice peerId.val hplain hsplit outgoing w₁
  unfold answer
  simp only [htext, answerWire_toPeer]
  exact hreplies

/-! ### Receiving -/

/-- An envelope that decrypts for a peer decrypts to a text that does not end inside a
character. -/
def CompleteText (S : Session) (w : World) (peerId : PeerId) (outgoing : Bool)
    (envelope : Text) : Prop :=
  ∀ identity state decrypted, w.chat.account.identity = some identity →
    w.peer peerId = some state →
    decryptFrame S identity state.keys (peerToUser peerId) outgoing envelope = some decrypted →
    ¬ Utf8.Truncated decrypted.bytes

/-- The counter of the key in use for a peer leaves room for two replies. -/
def HasRoom (w : World) (peerId : PeerId) : Prop :=
  ∀ state record, w.peer peerId = some state → state.keys.find state.active = some record →
    record.sent + 2 ≤ kMaxNumber

/-- **`receive` does the same on both platforms.** -/
theorem receive_agrees (hsized : P.crypto.Sized) {userId : ℕ} {w : World} {s : Android.State}
    (hw : ValidAccount P.crypto w.chat.account) (h : Corresponds (P.session userId) w s)
    (draw : IdentityDraw P.crypto) (ackNonce repeatNonce : RandomBytes 12) {peerId : ChatId}
    (isUser : peerIsUser peerId.val = true) {messageId : Int32} (hpos : 0 < messageId.toInt)
    (outgoing live : Bool) {envelope : Text}
    (hcomplete : CompleteText (P.session userId) w peerId.val outgoing envelope)
    (hroom : HasRoom w peerId.val) :
    Corresponds (P.session userId)
        (receive (P.session userId) (doneDraw P draw ackNonce repeatNonce) peerId.val
          messageId.toInt64 outgoing live envelope w).1
        (Android.receive P ackNonce repeatNonce (peerToUser peerId.val) messageId outgoing live
          envelope s).1 ∧
      (receive (P.session userId) (doneDraw P draw ackNonce repeatNonce) peerId.val
          messageId.toInt64 outgoing live envelope w).2 =
        (Android.receive P ackNonce repeatNonce (peerToUser peerId.val) messageId outgoing live
          envelope s).2.map (toMessage outgoing) := by
  have hid := peerToUser_of_isUser isUser
  have hfailed : s.failed = false := by rw [h.state]; rfl
  have haccount : s.accountId = userId := by rw [h.state]; rfl
  have hpeer' : s.peer (peerToUser peerId.val) =
      (w.peer peerId.val).map (toPeer peerId.val) := by
    rw [h.state, hid, peer_toAndroid]
    rfl
  have hidentity' : s.identity = w.chat.account.identity := by rw [h.state]; rfl
  have hpos64 : 0 < messageId.toInt64.toInt := by rwa [Int32.toInt_toInt64]
  unfold receive Android.receive
  rw [hpeer', hidentity', haccount]
  cases hpeer : w.peer peerId.val with
  | none => exact ⟨h, rfl⟩
  | some state =>
  cases hidentity : w.chat.account.identity with
  | none => exact ⟨h, rfl⟩
  | some identity =>
  have hvalidState := hw.peers _ _ hpeer
  simp only [Option.map_some]
  rw [if_neg (by simp [h.running, isUser, hpos]), if_neg (by simp [hfailed, hpos]),
    show (toPeer peerId.val state).keys = state.keys.mapValues toKey from rfl,
    openWire_agrees P hsized (hw.identity _ hidentity)
      (fun fingerprint record hrecord => (hvalidState.keys fingerprint record hrecord).publicKey)
      (peerToUser peerId.val) outgoing envelope
      (fun decrypted hdecrypted => hcomplete identity state decrypted hidentity hpeer hdecrypted)]
  cases hopen : openFrame (P.session userId) identity state.keys (peerToUser peerId.val) outgoing
      envelope with
  | none => exact ⟨h, rfl⟩
  | some frame =>
  simp only [Option.map_some, show (toOpened frame).fingerprint = frame.fingerprint from rfl,
    OrdMap.find_mapValues]
  cases hrecord : state.keys.find frame.fingerprint with
  | none => exact ⟨h, rfl⟩
  | some record =>
  simp only [Option.map_some]
  cases hcheck : checkReceipt (record.receipts outgoing) frame.sequence
      (digestOf (P.session userId) envelope) messageId.toInt64 with
  | none =>
    have hreceipts := (hvalidState.keys _ _ hrecord).validReceipts outgoing
    have hrejected := receipt_rejected hreceipts hpos64 frame.sequence
      (digestOf (P.session userId) envelope)
    rw [hcheck] at hrejected
    have hnone : Android.acceptWire P ackNonce repeatNonce (peerToUser peerId.val) messageId outgoing
        live envelope (toPeer peerId.val state) (toKey frame.fingerprint record) (toOpened frame) s =
        (s, none) := by
      unfold Android.acceptWire
      simp only [show (toOpened frame).sequenceText = decimal frame.sequence from rfl,
        find_receipts_toKey, boundId_eq hpos]
      exact if_pos hrejected
    rw [hnone]
    exact ⟨h, rfl⟩
  | some previous =>
    exact acceptFrame_agrees P hsized hw h draw ackNonce repeatNonce
      { peer := hpeer, running := h.running, isUser, messageId_pos := hpos64
        opened := ⟨identity, hidentity, hopen⟩, key := hrecord, check := hcheck }
      fun active hactive => hroom state active hpeer hactive

/-! ### Every operation -/

/-- **The desktop and Android agree.** In every state that a run reaches and that has a
counterpart on Android, `receive`, `replacePeerKey` and `trust`, the switch of the mode with its
announcement and `toggle`, `encryptFrame` and `encrypt`, and `controlNotice` and `observeKey`
leave counterparts again and return the same, under the conditions on the input named here. -/
theorem desktop_android_agree (P : Android.Platform) (hsized : P.crypto.Sized) (userId : ℕ)
    (state : StateFile) (identityPref : Bytes) (peersPref : Option Json)
    (challenges : Text → Option (RandomBytes 16)) (write : Write)
    (ops : List (Op P.crypto)) (w : World)
    (hw : run (P.session userId) ops (start (P.session userId) state identityPref peersPref
      challenges write) = w)
    (s : Android.State) (h : Corresponds (P.session userId) w s)
    (draw : IdentityDraw P.crypto) (pair : KeyPair P.crypto) (challenge : RandomBytes 16)
    (ackNonce nonce : RandomBytes 12) (peerId : ChatId) (isUser : peerIsUser peerId.val = true) :
    (∀ (messageId : Int32) outgoing live envelope, 0 < messageId.toInt →
      CompleteText (P.session userId) w peerId.val outgoing envelope → HasRoom w peerId.val →
      Corresponds (P.session userId)
          (receive (P.session userId) (doneDraw P draw ackNonce nonce) peerId.val
            messageId.toInt64 outgoing live envelope w).1
          (Android.receive P ackNonce nonce (peerToUser peerId.val) messageId outgoing live
            envelope s).1 ∧
        (receive (P.session userId) (doneDraw P draw ackNonce nonce) peerId.val
            messageId.toInt64 outgoing live envelope w).2 =
          (Android.receive P ackNonce nonce (peerToUser peerId.val) messageId outgoing live
            envelope s).2.map (toMessage outgoing)) ∧
    (∀ publicKey, (∀ state record, w.peer peerId.val = some state →
        state.keys.find (fingerprintFor P.crypto publicKey) = some record →
        record.publicKey = publicKey) →
      Corresponds (P.session userId)
          (replacePeerKey (P.session userId) ⟨⟨some pair, .done⟩, some challenge, .done⟩ peerId.val
            publicKey w).1
          (Android.trust P pair challenge (peerToUser peerId.val) publicKey s).1 ∧
        (replacePeerKey (P.session userId) ⟨⟨some pair, .done⟩, some challenge, .done⟩ peerId.val
            publicKey w).2 =
          (Android.trust P pair challenge (peerToUser peerId.val) publicKey s).2) ∧
    (∀ value,
      Corresponds (P.session userId)
          (switchAndAnnounce (P.session userId) (some challenge) .done ⟨draw, some nonce, .done⟩
            peerId.val value w).1
          (Android.toggle P challenge nonce (peerToUser peerId.val) value s).1 ∧
        (switchAndAnnounce (P.session userId) (some challenge) .done ⟨draw, some nonce, .done⟩
            peerId.val value w).2 =
          (Android.toggle P challenge nonce (peerToUser peerId.val) value s).2) ∧
    (∀ (kind : Kind) plain, (w.peer peerId.val).isSome = true →
      Corresponds (P.session userId)
          (encryptFrame (P.session userId) ⟨draw, some nonce, .done⟩ peerId.val kind plain w).1
          (Android.encrypt P nonce (peerToUser peerId.val) kind.text plain s).1 ∧
        (encryptFrame (P.session userId) ⟨draw, some nonce, .done⟩ peerId.val kind plain w).2 =
          (Android.encrypt P nonce (peerToUser peerId.val) kind.text plain s).2) ∧
    (∀ control outgoing live, isKeyExchange control = true → Android.trim control = control →
      Corresponds (P.session userId)
          (controlNotice (P.session userId) .done peerId.val control outgoing live w).1
          (Android.observeKey P (peerToUser peerId.val) control (live && !outgoing) s).1 ∧
        (controlNotice (P.session userId) .done peerId.val control outgoing live w).2 =
          keyNotice P.crypto control outgoing
            (Android.observeKey P (peerToUser peerId.val) control (live && !outgoing) s).2) := by
  have hsound : Sound (P.session userId) w := by
    obtain ⟨_, hadvance, -⟩ := run_advance
      (sound_start (S := P.session userId) state identityPref peersPref challenges write) ops
    exact hw ▸ hadvance.sound
  refine ⟨?_, ?_, ?_, ?_, ?_⟩
  · intro messageId outgoing live envelope hpos hcomplete hroom
    exact receive_agrees P hsized hsound.valid h draw ackNonce nonce isUser hpos outgoing live
      hcomplete hroom
  · intro publicKey hdistinct
    exact trust_agrees P hsound h pair challenge isUser publicKey hdistinct
  · intro value
    exact toggle_agrees P hsized hsound h draw challenge nonce isUser value
  · intro kind plain hknown
    obtain ⟨state, hpeer⟩ := Option.isSome_iff_exists.mp hknown
    exact encrypt_agrees P hsized hsound.valid h draw nonce hpeer kind plain
  · intro control outgoing live hexchange htrim
    exact observeKey_agrees P h isUser hexchange htrim outgoing live

/-- Android with the library that hides nothing. -/
def Android.Platform.plain : Android.Platform where
  crypto := Crypto.plain
  base64Decode := base64
  base64Decode_encode := base64_base64Text

lemma Crypto.plain_sized : Crypto.plain.Sized where
  ecdh _ _ shared h := by
    obtain rfl := Option.some.inj h
    rfl
  hkdf _ _ := rfl
  gcmEncrypt _ _ plaintext _ h := by
    have := congrArg List.length h
    simp [Crypto.plain, kTagSize] at this

/-- An account that requested encryption from a peer. -/
def requested : World :=
  run (Android.Platform.plain.session 1) (trustAndRequest 1 2 ⟨2, two_isChat⟩)
    (plainStart ⟨Crypto.plain, 1⟩)

/-- What that peer asks in turn. -/
def counterRequest : Text :=
  (((frames ⟨Crypto.plain, 2⟩ (trustAndRequest 2 1 ⟨1, one_isChat⟩ ++
    [.stateMessage (plainFrameDraw 2) ⟨1, one_isChat⟩ true])
    (plainStart ⟨Crypto.plain, 2⟩)).head?).map Prod.snd).getD []

/-- A key exchange message for a key. -/
def keyMessage (fill : UInt8) : Text :=
  u "TVE2.KEY." ++ base64Text (plainPair fill).val.publicKey ++ u "."
    ++ fingerprintFor Crypto.plain (plainPair fill).val.publicKey

lemma requested_corresponds :
    Corresponds (Android.Platform.plain.session 1) requested
      (toAndroid 1 requested.chat.account) where
  running := by decide +kernel
  noIdentity h := by
    have hsome : requested.chat.account.identity.isSome = true := by decide +kernel
    rw [h] at hsome
    exact absurd hsome (by simp)
  state := rfl

lemma requested_completeText :
    CompleteText (Android.Platform.plain.session 1) requested 2 false counterRequest := by
  have hopened : (requested.chat.account.identity.bind fun identity => (requested.peer 2).bind
      fun state => decryptFrame ⟨Crypto.plain, 1⟩ identity state.keys (peerToUser 2) false
        counterRequest) = some ⟨.on, fingerprintFor Crypto.plain (plainPair 2).val.publicKey, 1,
          Utf8.toUtf8 (base64Text (List.replicate 16 2))⟩ := by
    decide +kernel
  intro identity state decrypted hidentity hpeer hdecrypted
  rw [hidentity, Option.bind_some, hpeer, Option.bind_some] at hopened
  obtain rfl := Option.some.inj (hdecrypted.symm.trans hopened)
  rintro ⟨text, b, rest, h⟩
  have hwhole : ((Utf8.decode 0 (Utf8.toUtf8 (base64Text (List.replicate 16 2)))).any
      fun d => d.2 ≠ []) = false := by
    decide +kernel
  rw [h] at hwhole
  exact absurd hwhole (by simp)

lemma requested_hasRoom : HasRoom requested 2 := by
  have hsent : ((requested.peer 2).bind fun state => state.keys.find state.active).map Key.sent =
      some 0 := by
    decide +kernel
  intro state record hpeer hrecord
  rw [hpeer, Option.bind_some, hrecord] at hsent
  obtain hsent := Option.some.inj hsent
  rw [hsent]
  decide

/-- The account of `requested` on both platforms: it answers what the peer asks in turn, trusts
another key, is switched off, sends a message and sees another key. -/
theorem requested_agrees :
    ((receive ⟨Crypto.plain, 1⟩ (doneDraw Android.Platform.plain (plainFrameDraw 1).identity
        ⟨List.replicate 12 0, rfl⟩ ⟨List.replicate 12 0, rfl⟩) 2 (Int32.toInt64 7) false true
        counterRequest requested).2 =
      (Android.receive Android.Platform.plain ⟨List.replicate 12 0, rfl⟩ ⟨List.replicate 12 0, rfl⟩
        2 7 false true counterRequest (toAndroid 1 requested.chat.account)).2.map
          (toMessage false)) ∧
    ((replacePeerKey ⟨Crypto.plain, 1⟩ ⟨⟨some (plainPair 1), .done⟩,
        some ⟨List.replicate 16 5, rfl⟩, .done⟩ 2 (plainPair 3).val.publicKey requested).2 =
      (Android.trust Android.Platform.plain (plainPair 1) ⟨List.replicate 16 5, rfl⟩ 2
        (plainPair 3).val.publicKey (toAndroid 1 requested.chat.account)).2) ∧
    ((switchAndAnnounce ⟨Crypto.plain, 1⟩ (some ⟨List.replicate 16 5, rfl⟩) .done
        ⟨(plainFrameDraw 1).identity, some ⟨List.replicate 12 0, rfl⟩, .done⟩ 2 false requested).2 =
      (Android.toggle Android.Platform.plain ⟨List.replicate 16 5, rfl⟩ ⟨List.replicate 12 0, rfl⟩ 2
        false (toAndroid 1 requested.chat.account)).2) ∧
    ((encryptFrame ⟨Crypto.plain, 1⟩ ⟨(plainFrameDraw 1).identity,
        some ⟨List.replicate 12 0, rfl⟩, .done⟩ 2 .msg (u "hello") requested).2 =
      (Android.encrypt Android.Platform.plain ⟨List.replicate 12 0, rfl⟩ 2 (u "MSG") (u "hello")
        (toAndroid 1 requested.chat.account)).2) ∧
    Corresponds ⟨Crypto.plain, 1⟩
      (controlNotice ⟨Crypto.plain, 1⟩ .done 2 (keyMessage 3) false true requested).1
      (Android.observeKey Android.Platform.plain 2 (keyMessage 3) true
        (toAndroid 1 requested.chat.account)).1 := by
  obtain ⟨hreceive, htrust, htoggle, hencrypt, hobserve⟩ := desktop_android_agree
    Android.Platform.plain Crypto.plain_sized 1 .absent [] none (fun _ => none) .done
    (trustAndRequest 1 2 ⟨2, by decide⟩) requested rfl (toAndroid 1 requested.chat.account)
    requested_corresponds (plainFrameDraw 1).identity (plainPair 1) ⟨List.replicate 16 5, rfl⟩
    ⟨List.replicate 12 0, rfl⟩ ⟨List.replicate 12 0, rfl⟩ ⟨2, by decide⟩ (by decide)
  refine ⟨(hreceive 7 false true counterRequest (by decide) requested_completeText
    requested_hasRoom).2, (htrust _ ?_).2, (htoggle false).2,
    (hencrypt .msg (u "hello") (by decide +kernel)).2,
    (hobserve (keyMessage 3) false true (by decide +kernel) (by decide +kernel)).1⟩
  intro state record hpeer hrecord
  have hnone : ((requested.peer 2).bind fun state =>
      state.keys.find (fingerprintFor Crypto.plain (plainPair 3).val.publicKey)) = none := by
    decide +kernel
  rw [show requested.peer 2 = some state from hpeer, Option.bind_some] at hnone
  have hsame : (none : Option Key) = some record := hnone.symm.trans hrecord
  exact absurd hsame (by simp)

/-- **A blank after a key exchange message divides the platforms**: Android removes it and marks
the key changed, the desktop finds the message invalid. -/
theorem trailing_blank_disagrees :
    ¬ ∀ (P : Android.Platform), P.crypto.Sized → ∀ (userId : ℕ) (ops : List (Op P.crypto))
      (s : Android.State),
      Corresponds (P.session userId)
        (run (P.session userId) ops (plainStart (P.session userId))) s →
      ∀ (peerId : ChatId) (control : Text), peerIsUser peerId.val = true →
        isKeyExchange control = true →
        Corresponds (P.session userId)
          (controlNotice (P.session userId) .done peerId.val control false true
            (run (P.session userId) ops (plainStart (P.session userId)))).1
          (Android.observeKey P (peerToUser peerId.val) control true s).1 := by
  intro h
  have hstate := congrArg (fun s => (Android.State.peer s 2).map Android.Peer.changed)
    (h Android.Platform.plain Crypto.plain_sized 1 (trustAndRequest 1 2 ⟨2, by decide⟩)
      (toAndroid 1 requested.chat.account) requested_corresponds ⟨2, by decide⟩
      (keyMessage 3 ++ u "\n") (by decide) (by decide +kernel)).state
  revert hstate
  decide +kernel

end E2E
