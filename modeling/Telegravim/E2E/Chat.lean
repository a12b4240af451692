import Telegravim.E2E.Storage

set_option autoImplicit false

/-!
# Encrypted chat: the operations

The member functions of `Chat` in `e2e/e2e_chat.cpp`, as functions of the world. What a call
draws at random and how its writes end are arguments of the call. A reference into a map that
the source takes with `at` is a lookup here; that the key is present is part of
`E2E.ValidPeer`.

## Main definitions

* `E2E.identity`, `E2E.encryptFrame`, `E2E.stateMessage`, `E2E.encrypt` — sending.
* `E2E.replacePeerKey`, `E2E.setPeerKey`, `E2E.setEnabled`, `E2E.controlNotice` — the user's
  actions and the notice of a key.
* `E2E.openFrame`, `E2E.applyControl`, `E2E.receive` — receiving.
-/

namespace E2E

open Text

def kEnvelopePrefix : Text := u "TVE2."
def kKeyExchangePrefix : Text := u "TVE2.KEY."

/-! ### The world -/

def World.peer (w : World) (peerId : PeerId) : Option PeerState :=
  w.chat.account.peers.find peerId

def World.setPeer (w : World) (peerId : PeerId) (state : PeerState) : World :=
  { w with chat := { w.chat with account := w.chat.account.setPeer peerId state } }

def World.erasePeer (w : World) (peerId : PeerId) : World :=
  { w with chat := { w.chat with
      account := { w.chat.account with peers := w.chat.account.peers.erase peerId } } }

def World.setIdentity (w : World) (identity : Option Identity) : World :=
  { w with chat := { w.chat with account := { w.chat.account with identity } } }

def World.fail (w : World) : World :=
  { w with chat := { w.chat with failed := true } }

/-- A new key pair, with its public bytes. -/
abbrev KeyPair (C : Crypto) := { identity : Identity // ValidIdentity C identity }

/-! ### The identity -/

/-- What `identity` draws, and how its write ends. -/
structure IdentityDraw (C : Crypto) where
  key : Option (KeyPair C)
  write : Write

variable (S : Session)

/-- `Chat::identity`: the key pair of the account, made and saved at its first use. -/
def identity (draw : IdentityDraw S.crypto) (w : World) : World × Option Identity :=
  if w.chat.failed then (w, none)
  else match w.chat.account.identity, draw.key with
    | some identity, _ => (w, some identity)
    | none, none => (w, none)
    | none, some key =>
      let saved := save S draw.write (w.setIdentity (some key.val))
      if saved.2 then (saved.1, some key.val) else (saved.1.setIdentity none, none)

/-- `Chat::publicKey`. -/
def publicKey (draw : IdentityDraw S.crypto) (w : World) : World × Bytes :=
  let entered := identity S draw w
  (entered.1, (entered.2.map Identity.publicKey).getD [])

/-- `Chat::keyExchangeMessage`. -/
def keyExchangeMessage (draw : IdentityDraw S.crypto) (w : World) : World × Text :=
  let key := publicKey S draw w
  (key.1, if key.2 = [] then []
    else kKeyExchangePrefix ++ base64Text key.2 ++ u "." ++ fingerprintFor S.crypto key.2)

/-! ### Sending -/

/-- The header of a frame. -/
def header (kind : Kind) (peerId : PeerId) (localKey : Bytes) (active : Text) (sequence : ℕ) :
    Text :=
  kEnvelopePrefix ++ kind.text
    ++ u "." ++ decimal S.userId
    ++ u "." ++ decimal (peerToUser peerId)
    ++ u "." ++ fingerprintFor S.crypto localKey
    ++ u "." ++ active
    ++ u "." ++ decimal sequence

/-- The encrypted frame of a sequence number, before it is saved. -/
def sealFrame (peerId : PeerId) (kind : Kind) (plaintext : Text) (identity : Identity)
    (active : Text) (peerKey : Bytes) (sequence : ℕ) (nonce : Option (RandomBytes 12)) :
    Option Text :=
  match loadPrivate S.crypto identity.privateKey, nonce with
  | some _, some nonce =>
    let symmetric := deriveKey S.crypto identity.privateKey identity.publicKey peerKey
      S.userId (peerToUser peerId) true
    let head := header S kind peerId identity.publicKey active sequence
    let encrypted := aesGcmEncrypt S.crypto symmetric nonce.val (Utf8.toUtf8 plaintext)
      (Utf8.toUtf8 head)
    if symmetric = [] ∨ encrypted = [] then none
    else some (head ++ u "." ++ base64Text nonce.val ++ u "." ++ base64Text encrypted)
  | _, _ => none

def digestOf (envelope : Text) : Bytes := S.crypto.sha256 (Utf8.toUtf8 envelope)

/-- What `encryptFrame` draws, and how its writes end. -/
structure FrameDraw (C : Crypto) where
  identity : IdentityDraw C
  nonce : Option (RandomBytes 12)
  write : Write

/-- The record of a key after a frame was sealed for it. -/
def Key.send (record : Key) (digest : Bytes) : Key :=
  { record with
    sent := record.sent + 1
    outgoing := record.outgoing.emplace (record.sent + 1) { messageId := 0, digest } }

/-- The record of a key after a frame could not be saved. -/
def Key.unsend (record : Key) : Key :=
  { record with outgoing := record.outgoing.erase record.sent, sent := record.sent - 1 }

/-- `Chat::encryptFrame`. -/
def encryptFrame (draw : FrameDraw S.crypto) (peerId : PeerId) (kind : Kind) (plaintext : Text)
    (w : World) : World × Option Text :=
  let entered := identity S draw.identity w
  match w.peer peerId, entered.2 with
  | some state, some identity =>
    if !peerIsUser peerId || state.mode.keyChanged then (entered.1, none)
    else match state.keys.find state.active with
      | none => (entered.1, none)
      | some record =>
        if kMaxNumber ≤ record.sent then (entered.1, none)
        else match sealFrame S peerId kind plaintext identity state.active record.publicKey
            (record.sent + 1) draw.nonce with
          | none => (entered.1, none)
          | some result =>
            let record := record.send (digestOf S result)
            let saved := save S draw.write
              (entered.1.setPeer peerId (state.setKey state.active record))
            if saved.2 then
              (saved.1.record (.sent peerId kind plaintext state.active record.sent
                state.mode.requested result), some result)
            else (saved.1.setPeer peerId (state.setKey state.active record.unsend), none)
  | _, _ => (entered.1, none)

/-- `Chat::stateMessage`; an empty text when there is none. -/
def stateMessage (draw : FrameDraw S.crypto) (peerId : PeerId) (enabled : Bool) (w : World) :
    World × Text :=
  match w.peer peerId with
  | none => (w, [])
  | some state =>
    if state.mode.requested ≠ enabled ∨ state.mode.keyChanged = true then (w, [])
    else
      let sent := encryptFrame S draw peerId (if enabled then .on else .off)
        (if enabled then state.mode.challenge else []) w
      (sent.1, sent.2.getD [])

/-- `Chat::ready`. -/
def ready (peerId : PeerId) (w : World) : Bool :=
  match w.peer peerId with
  | none => false
  | some state =>
    !w.chat.failed && state.mode.requested && state.mode.ready && !state.mode.keyChanged

/-- `Chat::encrypt`. -/
def encrypt (draw : FrameDraw S.crypto) (peerId : PeerId) (plaintext : Text) (w : World) :
    World × Option Text :=
  if ready peerId w && plaintext ≠ [] then encryptFrame S draw peerId .msg plaintext w
  else (w, none)

/-! ### Keys and modes -/

/-- What `replacePeerKey` draws, and how its writes end. -/
structure ReplaceDraw (C : Crypto) where
  identity : IdentityDraw C
  challenge : Option (RandomBytes 16)
  write : Write

/-- The challenge of a mode: a new one while a request stands. -/
def drawChallenge (requested : Bool) (challenge : Option (RandomBytes 16)) : Text :=
  if requested then newChallenge challenge else []

/-- A peer after its key was replaced: the record of an earlier use of the key is kept, and the
mode starts over except for the request. -/
def PeerState.replaceKey (state : PeerState) (fingerprint : Text) (publicKey : Bytes)
    (challenge : Text) : PeerState :=
  { active := fingerprint
    mode := { requested := state.mode.requested, challenge }
    keys := state.keys.insert fingerprint
      { (state.keys.find fingerprint).getD {} with publicKey } }

/-- The peer that is left when the replaced key could not be saved. -/
def PeerState.restoreKey (replaced previous : PeerState) (fingerprint : Text) : PeerState :=
  { active := previous.active
    mode := previous.mode
    keys := if previous.keys.contains fingerprint then replaced.keys
      else replaced.keys.erase fingerprint }

/-- `Chat::replacePeerKey`. -/
def replacePeerKey (draw : ReplaceDraw S.crypto) (peerId : PeerId) (publicKey : Bytes)
    (w : World) : World × Bool :=
  if peerId.val = 0 ∨ peerIsUser peerId = false ∨ peerToUser peerId = S.userId
    ∨ validPublicKey S.crypto publicKey = false then (w, false)
  else
    let entered := identity S draw.identity w
    if entered.2 = none then (entered.1, false)
    else
      let previous := entered.1.peer peerId
      let state := previous.getD {}
      let fingerprint := fingerprintFor S.crypto publicKey
      if previous.isSome ∧ state.active = fingerprint ∧ state.mode.keyChanged = false then
        (entered.1, true)
      else
        let challenge := drawChallenge state.mode.requested draw.challenge
        let replaced := state.replaceKey fingerprint publicKey challenge
        let attempt := entered.1.setPeer peerId replaced
        let saved := if state.mode.requested = true ∧ challenge = [] then (attempt, false)
          else save S draw.write attempt
        if saved.2 then (saved.1.record (.trusted peerId fingerprint challenge), true)
        else match previous with
          | none => (saved.1.erasePeer peerId, false)
          | some previous =>
            (saved.1.setPeer peerId (replaced.restoreKey previous fingerprint), false)

/-- `Chat::setPeerKey`. -/
def setPeerKey (draw : ReplaceDraw S.crypto) (peerId : PeerId) (publicKey : Bytes) (w : World) :
    World × Bool :=
  match w.peer peerId with
  | some state =>
    (w, !w.chat.failed && !state.mode.keyChanged &&
      (state.keys.find state.active).any fun record => record.publicKey = publicKey)
  | none => replacePeerKey S draw peerId publicKey w

/-- A mode after it was requested or left. -/
def Mode.switch (mode : Mode) (value : Bool) (challenge : Text) : Mode :=
  { mode with requested := value, ready := false, challenge, lastPeerChallenge := [] }

/-- A mode after another key was announced. -/
def Mode.suspect (mode : Mode) : Mode := { mode with keyChanged := true, ready := false }

/-- `Chat::setEnabled`. -/
def setEnabled (challenge : Option (RandomBytes 16)) (write : Write) (peerId : PeerId)
    (value : Bool) (w : World) : World × Bool :=
  match w.peer peerId with
  | none => (w, false)
  | some state =>
    if w.chat.failed || (value && state.mode.keyChanged) then (w, false)
    else
      let challenge := drawChallenge value challenge
      let attempt := w.setPeer peerId { state with mode := state.mode.switch value challenge }
      let saved := if value = true ∧ challenge = [] then (attempt, false)
        else save S write attempt
      if saved.2 then (saved.1.record (.enabled peerId value challenge), true)
      else (saved.1.setPeer peerId state, false)

/-- `Chat::disable`. -/
def disable (write : Write) (peerId : PeerId) (w : World) : World × Bool :=
  setEnabled S none write peerId false w

/-! ### Notices -/

def isKeyExchange (text : Text) : Bool := kKeyExchangePrefix.isPrefixOf text

/-- The key of a key exchange message and its two texts. -/
def keyExchangeParts (C : Crypto) (control : Text) : Option (Text × Text) :=
  match split control 46 with
  | [_, _, key, fingerprint] => do
    let bytes ← base64 key
    if !validPublicKey C bytes || fingerprintFor C bytes ≠ fingerprint then none
    else some (key, fingerprint)
  | _ => none

/-- `Chat::controlNotice`. -/
def controlNotice (write : Write) (peerId : PeerId) (control : Text) (outgoing live : Bool)
    (w : World) : World × Text :=
  if isKeyExchange control then
    match keyExchangeParts S.crypto control with
    | none => (w, u "Invalid E2E public key message.")
    | some (key, fingerprint) =>
      if outgoing then (w, u "You sent your E2E public key.")
      else
        let shown := u "\n\nPublic key:\n" ++ key ++ u "\n\nFingerprint:\n" ++ fingerprint
        let changed :=
          u "Your contact's E2E key changed. Verify their fingerprint in Encryption keys before sending encrypted messages."
            ++ shown
        let first :=
          u "Your contact sent an E2E public key. Verify the fingerprint through a trusted second channel, then enable encryption."
            ++ shown
        match w.peer peerId with
        | none => (w, first)
        | some known =>
          if known.active = fingerprint then (w, first)
          else if live && !known.mode.keyChanged then
            let saved := save S write
              (w.setPeer peerId { known with mode := known.mode.suspect })
            (if saved.2 then saved.1.record (.suspected peerId) else saved.1.fail, changed)
          else (w, changed)
  else
    let parts := split control 46
    let sent := outgoing && parts.length = 9
    (w,
      if sent && parts[1]? = some (u "ON") then
        u "You requested E2E encryption. Waiting for your contact's confirmation."
      else if sent && parts[1]? = some (u "OFF") then
        u "You turned off E2E encryption for new messages."
      else if sent && parts[1]? = some (u "ACK") then
        u "You acknowledged your contact's encryption request."
      else u "Unverified E2E control message.")

/-! ### Receiving -/

/-- The challenge of an acknowledgment. -/
def ackChallenge (plaintext : Text) : Text := plaintext.take (plaintext.length - 2)

/-- Whether an acknowledgment confirms the request. -/
def ackConfirms (plaintext : Text) : Bool := plaintext.getLast? = some 49

/-- Whether the text of a frame has the form its kind requires. -/
def validPlaintext (kind : Kind) (plaintext : Text) : Bool :=
  match kind with
  | .msg => true
  | .on => validChallenge plaintext
  | .off => plaintext = []
  | .ack => 2 ≤ plaintext.length
      && plaintext[plaintext.length - 2]? = some 58
      && (plaintext.getLast? = some 48 || plaintext.getLast? = some 49)
      && validChallenge (ackChallenge plaintext)

/-- What a frame was decrypted to. -/
structure Decrypted where
  kind : Kind
  fingerprint : Text
  sequence : ℕ
  bytes : Bytes
deriving DecidableEq

/-- The checks of `Chat::receive` up to the decryption: the fields of the envelope and the key it
names. -/
def decryptFrame (identity : Identity) (keys : OrdMap Text Key) (remoteId : ℕ) (outgoing : Bool)
    (envelope : Text) : Option Decrypted :=
  match split envelope 46 with
  | [version, kindText, senderText, recipientText, senderKey, recipientKey, sequenceText,
      nonceText, cipherText] => do
    let kind ← Kind.ofText kindText
    let sender ← number senderText false
    let recipient ← number recipientText false
    let sequence ← number sequenceText false
    if version ≠ u "TVE2"
      || sender ≠ (if outgoing then S.userId else remoteId)
      || recipient ≠ (if outgoing then remoteId else S.userId)
      || (if outgoing then senderKey else recipientKey)
        ≠ fingerprintFor S.crypto identity.publicKey then none
    else
      let fingerprint := if outgoing then recipientKey else senderKey
      let record ← keys.find fingerprint
      let nonce ← base64 nonceText
      let ciphertext ← base64 cipherText
      if nonce.length ≠ kNonceSize || ciphertext.length < kTagSize then none
      else
        let _ ← loadPrivate S.crypto identity.privateKey
        let symmetric := deriveKey S.crypto identity.privateKey identity.publicKey
          record.publicKey S.userId remoteId outgoing
        let headerLength := envelope.length - nonceText.length - cipherText.length - 2
        let bytes ← aesGcmDecrypt S.crypto symmetric nonce ciphertext
          (Utf8.toUtf8 (envelope.take headerLength))
        some { kind, fingerprint, sequence, bytes }
  | _ => none

/-- The checks of `Chat::receive` up to the receipts: the decryption, and the form of the
text. -/
def openFrame (identity : Identity) (keys : OrdMap Text Key) (remoteId : ℕ) (outgoing : Bool)
    (envelope : Text) : Option Frame := do
  let decrypted ← decryptFrame S identity keys remoteId outgoing envelope
  let plaintext ← Utf8.decodeStateful decrypted.bytes
  if !validPlaintext decrypted.kind plaintext then none
  else some {
    kind := decrypted.kind
    fingerprint := decrypted.fingerprint
    sequence := decrypted.sequence
    plaintext }

/-- The effect of a new control frame on a mode. -/
def applyControl (kind : Kind) (plaintext : Text) (mode : Mode) : Mode :=
  match kind with
  | .msg => mode
  | .on => { mode with lastPeerChallenge := plaintext }
  | .off => { mode with ready := false }
  | .ack =>
    if mode.requested && ackChallenge plaintext = mode.challenge then
      { mode with ready := ackConfirms plaintext }
    else mode

/-- Whether a new `ON` is answered with one's own `ON`, besides the acknowledgment. -/
def repeatsOn (plaintext : Text) (mode : Mode) : Bool :=
  mode.requested && !mode.ready && mode.lastPeerChallenge ≠ plaintext

/-- The text of a frame that was received. -/
def receivedText (frame : Frame) : Text :=
  match frame.kind with
  | .msg => frame.plaintext
  | .on =>
    u "Your contact requested E2E encryption. Enable it here after verifying the fingerprint."
  | .off =>
    u "Your contact turned off E2E encryption. Your sending mode has not changed."
  | .ack =>
    if ackConfirms frame.plaintext then u "Your contact confirmed an E2E encryption request."
    else u "Your contact has not enabled E2E encryption yet."

structure ReceivedMessage where
  text : Text
  replies : List Text
deriving DecidableEq

/-- What `receive` draws, and how its writes end: the receipt, the two replies and the notice of
a frame of one's own. -/
structure ReceiveDraw (C : Crypto) where
  write : Write
  ack : FrameDraw C
  repeatOn : FrameDraw C
  notice : Write

/-- The receipt check: the receipt of the sequence number, if the frame agrees with it. The
outer option is the rejection, the inner one the missing receipt of a fresh frame. -/
def checkReceipt (receipts : OrdMap ℕ Receipt) (sequence : ℕ) (digest : Bytes)
    (messageId : MsgId) : Option (Option Receipt) :=
  match receipts.find sequence with
  | none => some none
  | some previous =>
    if previous.digest ≠ digest
      || (previous.messageId ≠ 0 && previous.messageId ≠ messageId) then none
    else some (some previous)

/-- Whether a control frame takes effect. -/
def takesEffect (state : PeerState) (record : Key) (frame : Frame) (fresh outgoing live : Bool) :
    Bool :=
  fresh && live && !outgoing && frame.kind ≠ .msg && frame.fingerprint = state.active
    && !state.mode.keyChanged && record.control < frame.sequence

/-- The record of a key after a frame was accepted under it. -/
def Key.accept (record : Key) (frame : Frame) (outgoing effect : Bool) (receipt : Receipt) : Key :=
  let record := if effect then { record with control := frame.sequence } else record
  let record := record.setReceipts outgoing
    ((record.receipts outgoing).insert frame.sequence receipt)
  if outgoing then { record with sent := max record.sent frame.sequence } else record

/-- The record of a key after the receipt of a frame could not be saved. -/
def Key.unaccept (record : Key) (frame : Frame) (outgoing : Bool) (previous : Option Receipt)
    (control sent : ℕ) : Key :=
  let record := record.setReceipts outgoing
    (match previous with
    | none => (record.receipts outgoing).erase frame.sequence
    | some previous => (record.receipts outgoing).insert frame.sequence previous)
  { record with control, sent }

/-- A peer after a frame was accepted. -/
def PeerState.accept (state : PeerState) (record : Key) (frame : Frame) (outgoing effect : Bool)
    (receipt : Receipt) : PeerState :=
  { state.setKey frame.fingerprint (record.accept frame outgoing effect receipt) with
    mode := if effect then applyControl frame.kind frame.plaintext state.mode else state.mode }

/-- The acknowledgment of a control frame that took effect, added to the message. -/
def replyAck (draw : FrameDraw S.crypto) (peerId : PeerId) (plaintext : Text) (requested : Bool)
    (r : World × ReceivedMessage) : World × ReceivedMessage :=
  let reply := encryptFrame S draw peerId .ack
    (plaintext ++ if requested then u ":1" else u ":0") r.1
  match reply.2 with
  | some frame => (reply.1, { r.2 with replies := r.2.replies ++ [frame] })
  | none => (reply.1, { r.2 with
      text := r.2.text
        ++ u " Acknowledgment could not be saved; retry the encryption request." })

/-- One's own request, repeated in the message. -/
def replyOn (draw : FrameDraw S.crypto) (peerId : PeerId) (r : World × ReceivedMessage) :
    World × ReceivedMessage :=
  let reply := stateMessage S draw peerId true r.1
  (reply.1, if reply.2 = [] then r.2 else { r.2 with replies := r.2.replies ++ [reply.2] })

/-- The message of a frame that was accepted, with its replies. -/
def answer (draw : ReceiveDraw S.crypto) (peerId : PeerId) (outgoing effect : Bool)
    (envelope : Text) (frame : Frame) (mode : Mode) (requested : Bool) (w : World) :
    World × ReceivedMessage :=
  let notice := controlNotice S draw.notice peerId envelope true false w
  let r : World × ReceivedMessage :=
    if frame.kind ≠ .msg && outgoing then (notice.1, { text := notice.2, replies := [] })
    else (w, { text := receivedText frame, replies := [] })
  let r := if effect && frame.kind = .on then
    replyAck S draw.ack peerId frame.plaintext requested r else r
  if effect && frame.kind = .on && repeatsOn frame.plaintext mode then
    replyOn S draw.repeatOn peerId r else r

/-- The part of `Chat::receive` after the receipt check: the mode, the counters and the receipt
are changed and saved, or put back when they cannot be saved. -/
def acceptFrame (draw : ReceiveDraw S.crypto) (peerId : PeerId) (messageId : MsgId)
    (outgoing live : Bool) (envelope : Text) (state : PeerState) (record : Key) (frame : Frame)
    (previous : Option Receipt) (w : World) : World × Option ReceivedMessage :=
  let fresh := previous.isNone
  let effect := takesEffect state record frame fresh outgoing live
  let receipt : Receipt := { messageId, digest := digestOf S envelope }
  let accepted := record.accept frame outgoing effect receipt
  let next := state.accept record frame outgoing effect receipt
  let attempt := w.setPeer peerId next
  let changes := fresh || previous.map Receipt.messageId ≠ some messageId
    || record.sent ≠ accepted.sent
  let saved := if changes then save S draw.write attempt else (attempt, true)
  if saved.2 then
    let answered := answer S draw peerId outgoing effect envelope frame state.mode
      next.mode.requested
      (saved.1.record (.accepted peerId messageId outgoing effect frame envelope))
    (answered.1, some answered.2)
  else
    (saved.1.fail.setPeer peerId (state.setKey frame.fingerprint
      (accepted.unaccept frame outgoing previous record.control record.sent)), none)

/-- `Chat::receive`. -/
def receive (draw : ReceiveDraw S.crypto) (peerId : PeerId) (messageId : MsgId)
    (outgoing live : Bool) (envelope : Text) (w : World) : World × Option ReceivedMessage :=
  match w.peer peerId, w.chat.account.identity with
  | some state, some identity =>
    if w.chat.failed || !peerIsUser peerId || messageId.toInt ≤ 0 then (w, none)
    else match openFrame S identity state.keys (peerToUser peerId) outgoing envelope with
      | none => (w, none)
      | some frame => match state.keys.find frame.fingerprint with
        | none => (w, none)
        | some record =>
          match checkReceipt (record.receipts outgoing) frame.sequence (digestOf S envelope)
            messageId with
          | none => (w, none)
          | some previous => acceptFrame S draw peerId messageId outgoing live envelope state
              record frame previous w
  | _, _ => (w, none)

end E2E
