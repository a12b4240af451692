import Telegravim.E2E.State
import Telegravim.Foundation.MapCodec

set_option autoImplicit false

/-!
# Encrypted chat: the saved state

`Chat::Private::save` and `Chat::Private::load` of `e2e/e2e_chat.cpp`. The serialised JSON and
the encrypted file are lossless, so the file holds the JSON document itself.

A write is committed, refused without a trace, or refused after the marker file was created
that makes a missing state file an error from then on.

## Main definitions

* `E2E.Storage`, `E2E.World` — what is stored, and the state in memory with it.
* `E2E.save` — write a snapshot of the account.
* `E2E.loadAccount`, `E2E.load` — read a snapshot, and the constructor of `Chat`.
-/

namespace E2E

open Text

/-- The account of a session: the library and the bare id of the user. -/
structure Session where
  crypto : Crypto
  userId : ℕ

/-- The file of the state, without encryption. -/
inductive StateFile where
  | absent
  | unreadable
  | document (o : JObject)
deriving DecidableEq

/-- What is stored for an account: the state file, the preferences of earlier versions, and as a
record of the past every account `save` wrote with its document. -/
structure Storage where
  state : StateFile := .absent
  identityPref : Bytes := []
  peersPref : Option Json := none
  written : List (Account × JObject) := []
deriving DecidableEq

/-- What an operation did to the saved state. -/
inductive Event where
  /-- The peers of a state of the first version were taken over. -/
  | migrated (peers : OrdMap PeerId PeerState)
  /-- A key was put in use for a peer, with a challenge for the standing request. -/
  | trusted (peerId : PeerId) (fingerprint challenge : Text)
  /-- The sending mode was requested or left. -/
  | enabled (peerId : PeerId) (value : Bool) (challenge : Text)
  /-- Another key was announced for a peer. -/
  | suspected (peerId : PeerId)
  /-- A frame was made, while the mode was requested or not. -/
  | sent (peerId : PeerId) (kind : Kind) (plaintext active : Text) (sequence : ℕ)
      (requested : Bool) (frame : Text)
  /-- A frame was accepted under a message, with or without an effect on the mode. -/
  | accepted (peerId : PeerId) (messageId : MsgId) (outgoing effect : Bool) (frame : Frame)
      (envelope : Text)
deriving DecidableEq

/-- The state in memory, the storage under it and, as a record of the past that no operation
reads, what was done so far. -/
structure World where
  chat : Chat := {}
  storage : Storage := {}
  history : List Event := []
deriving DecidableEq

def World.record (w : World) (event : Event) : World :=
  { w with history := w.history ++ [event] }

/-- How a write ends. -/
inductive Write where
  /-- The new state replaced the old one. -/
  | done
  /-- Nothing was written. -/
  | refused
  /-- Only the marker of a required state was written. -/
  | marked
deriving DecidableEq

/-! ### Encoding -/

/-- A number of a message, with its sign. -/
def integer (n : Int64) : Text :=
  if n.toInt < 0 then 45 :: decimal n.toInt.natAbs else decimal n.toInt.natAbs

def receiptJson (_ : ℕ) (receipt : Receipt) : Json :=
  .ofObject (.ofList [
    (u "id", .str (integer receipt.messageId)),
    (u "digest", .str (base64Text receipt.digest))])

def receiptsJson (receipts : OrdMap ℕ Receipt) : JObject :=
  MapCodec.write decimal receiptJson receipts

def keyJson (_ : Text) (key : Key) : Json :=
  .ofObject (.ofList [
    (u "publicKey", .str (base64Text key.publicKey)),
    (u "sent", .str (decimal key.sent)),
    (u "control", .str (decimal key.control)),
    (u "incoming", .ofObject (receiptsJson key.incoming)),
    (u "outgoing", .ofObject (receiptsJson key.outgoing))])

def modeJson (mode : Mode) : JObject :=
  .ofList [
    (u "requested", .bool mode.requested),
    (u "ready", .bool mode.ready),
    (u "keyChanged", .bool mode.keyChanged),
    (u "challenge", .str mode.challenge),
    (u "lastPeerChallenge", .str mode.lastPeerChallenge)]

def peerJson (_ : PeerId) (peer : PeerState) : Json :=
  .ofObject (.ofList [
    (u "active", .str peer.active),
    (u "mode", .ofObject (modeJson peer.mode)),
    (u "keys", .ofObject (MapCodec.write id keyJson peer.keys))])

def kIdentityVersion : Bytes := toLatin1 (u "TVI1")

/-- The document `save` writes for an account. -/
def snapshot (S : Session) (identity : Identity) (peers : OrdMap PeerId PeerState) : JObject :=
  .ofList [
    (u "version", .num 2),
    (u "account", .str (decimal S.userId)),
    (u "identity",
      .str (base64Text (kIdentityVersion ++ identity.privateKey ++ identity.publicKey))),
    (u "peers", .ofObject (MapCodec.write (fun id : PeerId => decimal id.val) peerJson peers))]

/-- What a write leaves in the storage. -/
def Storage.write (storage : Storage) (outcome : Write) (account : Account) (document : JObject) :
    Storage :=
  match outcome with
  | .done =>
    { state := .document document
      written := storage.written ++ [(account, document)] }
  | .refused => storage
  | .marked =>
    { storage with state := if storage.state = .absent then .unreadable else storage.state }

/-- `Private::save`. -/
def save (S : Session) (outcome : Write) (w : World) : World × Bool :=
  if w.chat.failed then (w, false)
  else match w.chat.account.identity with
    | none => (w, false)
    | some identity =>
      let document := snapshot S identity w.chat.account.peers
      ({ w with storage := w.storage.write outcome w.chat.account document },
        decide (outcome = .done))

/-! ### Decoding -/

def loadReceipt (outgoing : Bool) (k : Text) (value : Json) : Option (ℕ × Receipt) := do
  let receipt := value.toObject
  let sequence ← number k false
  let id ← number (Json.asText (receipt.find (u "id"))) outgoing
  let digest ← base64 (Json.asText (receipt.find (u "digest")))
  if digest.length ≠ 32 then none
  else some (sequence, { messageId := Int64.ofNat id, digest := digest })

def loadReceipts (value : Option Json) (outgoing : Bool) : Option (OrdMap ℕ Receipt) :=
  if !Json.isObjectValue value then none
  else MapCodec.read (loadReceipt outgoing) (Json.asObject value)

def loadKey (C : Crypto) (k : Text) (value : Json) : Option (Text × Key) := do
  let entry := value.toObject
  let key ← base64 (Json.asText (entry.find (u "publicKey")))
  let sent ← number (Json.asText (entry.find (u "sent"))) true
  let control ← number (Json.asText (entry.find (u "control"))) true
  if !validPublicKey C key || fingerprintFor C key ≠ k then none
  else
    let incoming ← loadReceipts (entry.find (u "incoming")) false
    let outgoing ← loadReceipts (entry.find (u "outgoing")) true
    if outgoing.entries.getLast?.any (fun last => sent < last.1)
      || (control ≠ 0 && !incoming.contains control) then none
    else some (k, { publicKey := key, sent, control, incoming, outgoing })

def loadMode (mode : JObject) : Option Mode :=
  if !Json.isBoolValue (mode.find (u "requested"))
    || !Json.isBoolValue (mode.find (u "ready"))
    || !Json.isBoolValue (mode.find (u "keyChanged"))
    || !Json.isTextValue (mode.find (u "challenge"))
    || !Json.isTextValue (mode.find (u "lastPeerChallenge")) then none
  else
    let result : Mode := {
      requested := Json.asBool (mode.find (u "requested"))
      ready := Json.asBool (mode.find (u "ready"))
      keyChanged := Json.asBool (mode.find (u "keyChanged"))
      challenge := Json.asText (mode.find (u "challenge"))
      lastPeerChallenge := Json.asText (mode.find (u "lastPeerChallenge")) }
    if (result.requested && !validChallenge result.challenge)
      || (result.challenge ≠ [] && !validChallenge result.challenge)
      || (result.lastPeerChallenge ≠ [] && !validChallenge result.lastPeerChallenge)
      || (result.ready && (!result.requested || result.keyChanged)) then none
    else some result

/-- A peer of the current version. -/
def loadPeer (C : Crypto) (object : JObject) : Option PeerState := do
  if !Json.isObjectValue (object.find (u "keys")) then none
  else
    let mode ← loadMode (Json.asObject (object.find (u "mode")))
    let keys ← MapCodec.read (loadKey C) (Json.asObject (object.find (u "keys")))
    let active := Json.asText (object.find (u "active"))
    if !keys.contains active then none else some { active, mode, keys }

/-- A peer of the first version, which kept one key and a switch. -/
def loadLegacyPeer (C : Crypto) (challenge : Option (RandomBytes 16)) (object : JObject) :
    Option PeerState := do
  let key ← base64 (Json.asText (object.find (u "publicKey")))
  if !validPublicKey C key || !Json.isBoolValue (object.find (u "enabled")) then none
  else
    let active := fingerprintFor C key
    let requested := Json.asBool (object.find (u "enabled"))
    let drawn := if requested then newChallenge challenge else []
    if requested && drawn = [] then none
    else some {
      active
      mode := { requested, challenge := drawn }
      keys := OrdMap.insert ∅ active { publicKey := key } }

def loadPeerEntry (C : Crypto) (version : ℤ) (challenges : Text → Option (RandomBytes 16))
    (k : Text) (value : Json) : Option (PeerId × PeerState) := do
  let id ← number k false
  if !peerIsUser (Fin.ofNat (2 ^ 64) id) || !value.isObject then none
  else
    let peer ← if version = 1 then loadLegacyPeer C (challenges k) value.toObject
      else loadPeer C value.toObject
    some (Fin.ofNat (2 ^ 64) id, peer)

/-- The identity and the peers of a stored state of one version. -/
def loadState (C : Crypto) (version : ℤ) (challenges : Text → Option (RandomBytes 16))
    (serialized : Bytes) (state : JObject) : Option Account :=
  if ¬ kIdentityVersion <+: serialized
    ∨ serialized.length ≠ kIdentityVersion.length + kPrivateKeySize + kPublicKeySize then none
  else
    let privateKey := (serialized.drop kIdentityVersion.length).take kPrivateKeySize
    let publicKey := serialized.drop (kIdentityVersion.length + kPrivateKeySize)
    if loadPrivate C privateKey ≠ some publicKey then none
    else (MapCodec.read (loadPeerEntry C version challenges) state).map fun peers =>
      { identity := some { privateKey, publicKey }, peers }

/-- The account of a state file that has a snapshot, and the version of the snapshot. -/
def readSnapshot (S : Session) (challenges : Text → Option (RandomBytes 16)) (document : JObject) :
    Option (Account × ℤ) := do
  let version := Json.asInt (document.find (u "version"))
  let decoded ← base64 (Json.asText (document.find (u "identity")))
  if (version ≠ 1 && version ≠ 2) || decoded = []
    || !Json.isObjectValue (document.find (u "peers"))
    || (version = 2 && Json.asText (document.find (u "account")) ≠ decimal S.userId) then none
  else
    let account ← loadState S.crypto version challenges decoded
      (Json.asObject (document.find (u "peers")))
    some (account, version)

/-- The account a storage holds and the version it is stored in. An account without any stored
state counts as one of the current version, since nothing has to be migrated. -/
def loadAccount (S : Session) (challenges : Text → Option (RandomBytes 16)) (storage : Storage) :
    Option (Account × ℤ) :=
  match storage.state with
  | .unreadable => none
  | .document document => readSnapshot S challenges document
  | .absent =>
    if storage.peersPref.any (fun j => !j.isObject) then none
    else
      let state := Json.asObject storage.peersPref
      if storage.identityPref = [] ∧ state = ∅ then some ({}, 2)
      else (loadState S.crypto 1 challenges storage.identityPref state).map fun account =>
        (account, 1)

/-- The constructor: the state is loaded, a state of the first version is saved again, and the
chat fails closed when either does not succeed. -/
def load (S : Session) (challenges : Text → Option (RandomBytes 16)) (outcome : Write)
    (w : World) : World :=
  match loadAccount S challenges w.storage with
  | none => { w with chat := { failed := true } }
  | some (account, version) =>
    let loaded := { w with chat := { account } }
    if version = 2 then loaded
    else
      let saved := save S outcome loaded
      if saved.2 then saved.1.record (.migrated account.peers)
      else { saved.1 with chat := { failed := true } }

end E2E
