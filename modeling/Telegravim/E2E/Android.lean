import Telegravim.E2E.State

set_option autoImplicit false

/-!
# Encrypted chat on Android

The state machine of `E2eState.java`. Its JSON objects are records here, with their texts as
they stand there: counters, message ids and digests are strings. A method that throws gives
`none`, or `false` for a method without a result, next to the state it leaves behind. Writing
the state succeeds.

## Main definitions

* `E2E.Android.State` — the state of an account.
* `E2E.Android.trust`, `E2E.Android.toggle`, `E2E.Android.encrypt` — the user's actions.
* `E2E.Android.observeKey`, `E2E.Android.receive` — what a message does.
-/

namespace E2E.Android

open Text

/-! ### The platform -/

/-- `android.util.Base64` and the cryptographic library. The decoder takes more texts than the
encoder gives; what is used of it is that it reads back what was encoded. -/
structure Platform where
  crypto : Crypto
  base64Decode : Text → Option Bytes
  base64Decode_encode : ∀ bytes, base64Decode (base64Text bytes) = some bytes

variable (P : Platform)

/-- `Long.parseLong` for the texts `number` can accept. -/
def parseLong (value : Text) : Option ℕ := (toULongLong value).filter fun n => n < 2 ^ 63

def number (value : Text) (zero : Bool) : Option ℕ := do
  let result ← parseLong value
  if (if zero then 0 else 1) ≤ result ∧ decimal result = value then some result else none

def unbase64 (value : Text) : Option Bytes := do
  let result ← P.base64Decode value
  if base64Text result = value then some result else none

/-- `String.trim`. -/
def trim (text : Text) : Text :=
  ((text.dropWhile fun c => c ≤ 32).reverse.dropWhile fun c => c ≤ 32).reverse

def validChallenge (value : Text) : Bool := (unbase64 P value).any fun bytes => bytes.length = 16

/-- The key of a pasted text or of a key exchange message. -/
def parsePublic (input : Text) : Option Bytes :=
  let value := trim input
  let checked (text : Text) (expected : Option Text) : Option Bytes := do
    let result ← unbase64 P text
    if validPublicKey P.crypto result = true
      ∧ ∀ fingerprint ∈ expected, fingerprint = fingerprintFor P.crypto result then some result
    else none
  if (u "TVE2.KEY.").isPrefixOf value then
    match split value 46 with
    | [_, _, text, fingerprint] => checked text (some fingerprint)
    | _ => none
  else checked value none

/-! ### The state -/

structure Receipt where
  id : Text
  digest : Text
deriving DecidableEq

structure Key where
  publicText : Text
  sent : Text := u "0"
  control : Text := u "0"
  incoming : OrdMap Text Receipt := ∅
  outgoing : OrdMap Text Receipt := ∅
deriving DecidableEq

structure Peer where
  keys : OrdMap Text Key := ∅
  active : Text := []
  requested : Bool := false
  ready : Bool := false
  changed : Bool := false
  challenge : Text := []
  lastChallenge : Text := []
deriving DecidableEq

/-- The state of an account; without an identity there are no peers either. -/
structure State where
  accountId : ℕ
  identity : Option Identity := none
  peers : OrdMap Text Peer := ∅
  failed : Bool := false
deriving DecidableEq

def State.peer (s : State) (id : ℕ) : Option Peer := s.peers.find (decimal id)

def State.putPeer (s : State) (id : ℕ) (peer : Peer) : State :=
  { s with peers := s.peers.insert (decimal id) peer }

def Key.receipts (key : Key) (outgoing : Bool) : OrdMap Text Receipt :=
  if outgoing then key.outgoing else key.incoming

def Key.putReceipt (key : Key) (outgoing : Bool) (sequence : Text) (receipt : Receipt) : Key :=
  if outgoing then { key with outgoing := key.outgoing.insert sequence receipt }
  else { key with incoming := key.incoming.insert sequence receipt }

/-! ### Keys and modes -/

/-- The effect of `invitation`: a key pair is made at its first call. -/
def invitation (pair : { identity : Identity // ValidIdentity P.crypto identity }) (s : State) :
    State × Bool :=
  if s.failed then (s, false)
  else match s.identity with
    | some _ => (s, true)
    | none => ({ s with identity := some pair.val, peers := ∅ }, true)

/-- A peer after a key was trusted. -/
def Peer.trustKey (peer : Peer) (fingerprint : Text) (keyBytes : Bytes)
    (challenge : RandomBytes 16) : Peer :=
  { peer with
    keys := if peer.keys.contains fingerprint then peer.keys
      else peer.keys.insert fingerprint { publicText := base64Text keyBytes }
    active := fingerprint
    ready := false
    changed := false
    challenge := if peer.requested then base64Text challenge.val else []
    lastChallenge := [] }

def trust (pair : { identity : Identity // ValidIdentity P.crypto identity })
    (challenge : RandomBytes 16) (id : ℕ) (keyBytes : Bytes) (s : State) : State × Bool :=
  if id = 0 ∨ id = s.accountId ∨ validPublicKey P.crypto keyBytes = false then (s, false)
  else
    let invited := invitation P pair s
    if invited.2 = false then (invited.1, false)
    else
      let fingerprint := fingerprintFor P.crypto keyBytes
      match invited.1.peer id with
      | none => (invited.1.putPeer id (({} : Peer).trustKey fingerprint keyBytes challenge), true)
      | some peer =>
        if fingerprint = peer.active ∧ peer.changed = false then (invited.1, true)
        else (invited.1.putPeer id (peer.trustKey fingerprint keyBytes challenge), true)

/-! ### Frames -/

/-- The key of one direction. -/
def derive (accountId : ℕ) (identity : Identity) (peerKey : Bytes) (peerId : ℕ)
    (outgoing : Bool) : Option Bytes :=
  if validPublicKey P.crypto peerKey = false then none
  else do
    let shared ← sharedSecret P.crypto identity.privateKey peerKey
    if shared.length ≠ 32 then none
    else some (P.crypto.hkdf shared (toLatin1 (u "telegravim-e2e-v2") ++ [0]
      ++ (if outgoing then identity.publicKey else peerKey)
      ++ (if outgoing then peerKey else identity.publicKey)
      ++ toLatin1 (decimal (if outgoing then accountId else peerId) ++ u ":"
        ++ decimal (if outgoing then peerId else accountId))))

/-- `crypt` for encryption; as on the desktop an empty result stands for a failure. -/
def cryptEncrypt (key nonce data : Bytes) (header : Text) : Option Bytes :=
  let encrypted := aesGcmEncrypt P.crypto key nonce data (Utf8.toUtf8 header)
  if encrypted = [] then none else some encrypted

/-- The wire text of a sequence number, in `encrypt`. -/
def wireText (nonce : RandomBytes 12) (accountId : ℕ) (identity : Identity) (id : ℕ)
    (kind plain active : Text) (key : Key) (sequence : ℕ) : Option Text := do
  let header := u "TVE2." ++ kind ++ u "." ++ decimal accountId ++ u "." ++ decimal id
    ++ u "." ++ fingerprintFor P.crypto identity.publicKey ++ u "." ++ active
    ++ u "." ++ decimal sequence
  let peerKey ← unbase64 P key.publicText
  let symmetric ← derive P accountId identity peerKey id true
  let encrypted ← cryptEncrypt P symmetric nonce.val (Utf8.toUtf8 plain) header
  some (header ++ u "." ++ base64Text nonce.val ++ u "." ++ base64Text encrypted)

def encrypt (nonce : RandomBytes 12) (id : ℕ) (kind plain : Text) (s : State) :
    State × Option Text :=
  match s.peer id, s.identity with
  | some peer, some identity =>
    if s.failed = true ∨ peer.changed = true then (s, none)
    else match peer.keys.find peer.active with
      | none => (s, none)
      | some key => match number key.sent true with
        | none => (s, none)
        | some sent =>
          if 2 ^ 63 - 1 ≤ sent then (s, none)
          else match wireText P nonce s.accountId identity id kind plain peer.active key
              (sent + 1) with
            | none => (s, none)
            | some wire =>
              let key := { key with
                sent := decimal (sent + 1)
                outgoing := key.outgoing.insert (decimal (sent + 1))
                  { id := u "0", digest := base64Text (P.crypto.sha256 (Utf8.toUtf8 wire)) } }
              (s.putPeer id { peer with keys := peer.keys.insert peer.active key }, some wire)
  | _, _ => (s, none)

def control (nonce : RandomBytes 12) (id : ℕ) (s : State) : State × Option Text :=
  match s.peer id with
  | none => (s, none)
  | some peer =>
    if s.failed then (s, none)
    else encrypt P nonce id (if peer.requested then u "ON" else u "OFF") peer.challenge s

def toggle (challenge : RandomBytes 16) (nonce : RandomBytes 12) (id : ℕ) (enable : Bool)
    (s : State) : State × Option Text :=
  match s.peer id with
  | none => (s, none)
  | some peer =>
    if s.failed = true ∨ enable = true ∧ peer.changed = true then (s, none)
    else control P nonce id (s.putPeer id { peer with
      requested := enable
      ready := false
      lastChallenge := []
      challenge := if enable then base64Text challenge.val else [] })

/-! ### Receiving -/

def observeKey (id : ℕ) (wire : Text) (live : Bool) (s : State) : State × Option Bool :=
  match parsePublic P wire with
  | none => (s, none)
  | some bytes =>
    match s.peer id with
    | none => (s, some false)
    | some peer =>
      let changed := decide (peer.active ≠ fingerprintFor P.crypto bytes)
      if changed = true ∧ live = true ∧ peer.changed = false then
        (s.putPeer id { peer with changed := true, ready := false },
          if s.failed then none else some changed)
      else (s, some changed)

/-- A wire text that was opened. -/
structure Opened where
  kind : Kind
  fingerprint : Text
  sequence : ℕ
  sequenceText : Text
  plain : Text
deriving DecidableEq

/-- The form `receive` requires of a text of each kind. -/
def validPlain (kind : Kind) (plain : Text) : Bool :=
  match kind with
  | .msg => true
  | .on => validChallenge P plain
  | .off => plain = []
  | .ack => 2 < plain.length
      && ((u ":0").isSuffixOf plain || (u ":1").isSuffixOf plain)
      && validChallenge P (plain.take (plain.length - 2))

/-- The checks of `receive` on the wire text. -/
def openWire (accountId : ℕ) (identity : Identity) (keys : OrdMap Text Key) (id : ℕ)
    (outgoing : Bool) (wire : Text) : Option Opened :=
  match split wire 46 with
  | [version, kindText, senderText, recipientText, senderKey, recipientKey, sequenceText,
      nonceText, cipherText] => do
    if version ≠ u "TVE2" then none
    else
      let kind ← Kind.ofText kindText
      let sender ← number senderText false
      let recipient ← number recipientText false
      if sender ≠ (if outgoing then accountId else id)
        ∨ recipient ≠ (if outgoing then id else accountId)
        ∨ (if outgoing then senderKey else recipientKey)
          ≠ fingerprintFor P.crypto identity.publicKey then none
      else
        let sequence ← number sequenceText false
        let fingerprint := if outgoing then recipientKey else senderKey
        let key ← keys.find fingerprint
        let nonce ← unbase64 P nonceText
        let ciphertext ← unbase64 P cipherText
        if nonce.length ≠ 12 ∨ ciphertext.length < 16 then none
        else
          let header := wire.take (wire.length - nonceText.length - cipherText.length - 2)
          let peerKey ← unbase64 P key.publicText
          let symmetric ← derive P accountId identity peerKey id outgoing
          let bytes ← aesGcmDecrypt P.crypto symmetric nonce ciphertext (Utf8.toUtf8 header)
          let plain ← Utf8.decodeStrict bytes
          if validPlain P kind plain then
            some { kind, fingerprint, sequence, sequenceText, plain }
          else none
  | _ => none

/-- `owns`: whether a wire text is a frame of one's own that was made here. -/
def owns (id : ℕ) (wire : Text) (s : State) : Bool :=
  match s.peer id, s.identity, split wire 46 with
  | some peer, some identity, [version, _, senderText, recipientText, senderKey, recipientKey,
      sequenceText, _, _] =>
    !s.failed && version = u "TVE2"
      && number senderText false = some s.accountId && number recipientText false = some id
      && senderKey = fingerprintFor P.crypto identity.publicKey
      && ((peer.keys.find recipientKey).bind fun key => key.outgoing.find sequenceText).any
        fun receipt => receipt.digest = base64Text (P.crypto.sha256 (Utf8.toUtf8 wire))
  | _, _, _ => false

structure Received where
  text : Text
  kind : Kind
  positive : Bool
  replies : List Text := []
deriving DecidableEq

/-- A peer's mode after a control frame was applied. -/
def Peer.applyControl (peer : Peer) (kind : Kind) (plain : Text) : Peer :=
  match kind with
  | .msg => peer
  | .on => { peer with lastChallenge := plain }
  | .off => { peer with ready := false }
  | .ack =>
    if peer.requested && plain.take (plain.length - 2) = peer.challenge then
      { peer with ready := (u ":1").isSuffixOf plain }
    else peer

/-- The record of a key after a wire text was bound to a message. -/
def Key.bindWire (key : Key) (outgoing : Bool) (opened : Opened) (sent : ℕ) (receipt : Receipt) :
    Key :=
  let key := key.putReceipt outgoing opened.sequenceText receipt
  if outgoing then { key with sent := decimal (max opened.sequence sent) } else key

/-- One reply of `receive`; a failure ends the call. -/
def addReply (reply : State → State × Option Text) (r : State × Option Received) :
    State × Option Received :=
  match r.2 with
  | none => r
  | some received =>
    match reply r.1 with
    | (s, some text) => (s, some { received with replies := received.replies ++ [text] })
    | (s, none) => (s, none)

/-- Whether a control frame is applied. -/
def applies (peer : Peer) (opened : Opened) (last : ℕ) (fresh outgoing live : Bool) : Bool :=
  fresh && live && !outgoing && opened.kind ≠ .msg
    && opened.fingerprint = peer.active && !peer.changed && last < opened.sequence

/-- A peer after a wire text was accepted: its mode, and the counters and the receipt of the
key. -/
def Peer.acceptWire (peer : Peer) (key : Key) (opened : Opened) (outgoing apply : Bool)
    (sent : ℕ) (previous : Option Receipt) (receipt : Receipt) : Peer :=
  let key := if apply then { key with control := opened.sequenceText } else key
  let peer := if apply then peer.applyControl opened.kind opened.plain else peer
  let key := if previous.all (fun r => r.id ≠ receipt.id) then
      key.bindWire outgoing opened sent receipt
    else key
  { peer with keys := peer.keys.insert opened.fingerprint key }

/-- The replies of `receive`. -/
def answerWire (ackNonce repeatNonce : RandomBytes 12) (id : ℕ) (opened : Opened) (apply : Bool)
    (before : Peer) (requested : Bool) (r : State × Option Received) : State × Option Received :=
  let ack := apply && opened.kind = .on
  let repeats := ack && before.requested && !before.ready && opened.plain ≠ before.lastChallenge
  let r := if ack then addReply (encrypt P ackNonce id (u "ACK")
      (opened.plain ++ if requested then u ":1" else u ":0")) r else r
  if repeats then addReply (control P repeatNonce id) r else r

/-- The part of `receive` after the wire text was opened. -/
def acceptWire (ackNonce repeatNonce : RandomBytes 12) (id : ℕ) (messageId : Int32)
    (outgoing live : Bool) (wire : Text) (peer : Peer) (key : Key) (opened : Opened)
    (s : State) : State × Option Received :=
  let previous := (key.receipts outgoing).find opened.sequenceText
  let digest := base64Text (P.crypto.sha256 (Utf8.toUtf8 wire))
  let boundId := decimal (max 0 messageId.toInt).toNat
  if previous.any (fun r => !(r.digest = digest && (r.id = u "0" || r.id = boundId))) then (s, none)
  else match number key.control true, number key.sent true with
    | some last, some sent =>
      let apply := applies peer opened last previous.isNone outgoing live
      let next := peer.acceptWire key opened outgoing apply sent previous { id := boundId, digest }
      answerWire P ackNonce repeatNonce id opened apply peer next.requested
        (s.putPeer id next, some
          { text := opened.plain, kind := opened.kind
            positive := opened.kind = .ack && (u ":1").isSuffixOf opened.plain })
    | _, _ => (s, none)

def receive (ackNonce repeatNonce : RandomBytes 12) (id : ℕ) (messageId : Int32)
    (outgoing live : Bool) (wire : Text) (s : State) : State × Option Received :=
  match s.peer id, s.identity with
  | some peer, some identity =>
    if s.failed = true ∨ ¬(0 < messageId.toInt ∨ outgoing = true ∧ owns P id wire s = true) then
      (s, none)
    else match openWire P s.accountId identity peer.keys id outgoing wire with
      | none => (s, none)
      | some opened => match peer.keys.find opened.fingerprint with
        | none => (s, none)
        | some key =>
          acceptWire P ackNonce repeatNonce id messageId outgoing live wire peer key opened s
  | _, _ => (s, none)

end E2E.Android
