import Telegravim.Foundation.Base64
import Telegravim.Foundation.Utf8
import Telegravim.Foundation.Json

set_option autoImplicit false

/-!
# Encrypted chat: identifiers, canonical fields and state

The data of `e2e/e2e_chat.cpp`: identifiers, the canonical text fields of a frame, the
functions of the cryptographic library as parameters, and the state kept per account.

## Main definitions

* `E2E.Crypto` — the primitives of the cryptographic library.
* `E2E.number`, `E2E.base64`, `E2E.validChallenge`, `E2E.fingerprintFor` — the fields of a
  frame: canonical numbers, canonical Base64, challenges and fingerprints.
* `E2E.PeerState`, `E2E.Account`, `E2E.Chat` — what is known of a peer, what `save` writes,
  and the state in memory.

## Main results

* `E2E.number_eq_some_iff`, `E2E.base64_eq_some_iff` — a field is read exactly from its
  canonical text.
* `E2E.validChallenge_newChallenge` — a drawn challenge is a valid one.
-/

namespace E2E

open Text

/-! ### Identifiers -/

/-- A chat identifier: a bare id of 48 bits under a type byte. -/
abbrev PeerId := Fin (2 ^ 64)

instance instNeZeroPeerId : NeZero (2 ^ 64) := ⟨by decide⟩

/-- A message identifier; zero when there is none yet. -/
abbrev MsgId := Int64

/-- Whether the type byte is that of a user. -/
def peerIsUser (id : PeerId) : Bool := id.val / 2 ^ 48 % 256 = 0

/-- The bare user id, zero for other types. -/
def peerToUser (id : PeerId) : ℕ := if peerIsUser id then id.val % 2 ^ 48 else 0

/-- The identifiers the program builds: nothing stands above the type byte. -/
abbrev ChatId := { id : PeerId // id.val < 2 ^ 56 }

lemma one_isChat : (1 : PeerId).val < 2 ^ 56 := by decide

lemma two_isChat : (2 : PeerId).val < 2 ^ 56 := by decide

lemma three_isChat : (3 : PeerId).val < 2 ^ 56 := by decide

/-- The identifier of a user is the bare user id. -/
lemma peerToUser_of_isUser {id : ChatId} (h : peerIsUser id.val = true) :
    peerToUser id.val = id.val.val := by
  simp only [peerIsUser, decide_eq_true_eq] at h
  simp only [peerToUser, peerIsUser, h, decide_true, if_true]
  have := id.property
  omega

/-- A bare user id determines the identifier of the user. -/
lemma peerToUser_inj {a b : ChatId} (ha : peerIsUser a.val = true)
    (hb : peerIsUser b.val = true) (h : peerToUser a.val = peerToUser b.val) : a = b := by
  rw [peerToUser_of_isUser ha, peerToUser_of_isUser hb] at h
  exact Subtype.ext (Fin.ext h)

/-! ### The cryptographic library -/

/-- Random bytes of a fixed number. -/
abbrev RandomBytes (n : ℕ) := { bytes : Bytes // bytes.length = n }

/-- The primitives of the cryptographic library: SHA-256, P-256 and HKDF, and AES-256-GCM.
`loadPrivate` gives the public bytes of an accepted private key, `onCurve` is the check of a
public point, `ecdh` the shared secret of a private key and a public point. -/
structure Crypto where
  sha256 : Bytes → Bytes
  loadPrivate : Bytes → Option Bytes
  onCurve : Bytes → Bool
  ecdh : Bytes → Bytes → Option Bytes
  hkdf : Bytes → Bytes → Bytes
  gcmEncrypt : Bytes → Bytes → Bytes → Bytes → Bytes
  gcmDecrypt : Bytes → Bytes → Bytes → Bytes → Option Bytes
  /-- A digest has 32 bytes. -/
  sha256_length : ∀ bytes, (sha256 bytes).length = 32

def kNonceSize : ℕ := 12
def kTagSize : ℕ := 16
def kPrivateKeySize : ℕ := 32
def kPublicKeySize : ℕ := 65

/-- The largest signed 64-bit number, the bound of ids and sequence numbers. -/
def kMaxNumber : ℕ := 2 ^ 63 - 1

variable (C : Crypto)

def loadPrivate (bytes : Bytes) : Option Bytes :=
  if bytes.length ≠ kPrivateKeySize then none else C.loadPrivate bytes

def sharedSecret (privateKey peerBytes : Bytes) : Option Bytes :=
  if peerBytes.length ≠ kPublicKeySize then none else C.ecdh privateKey peerBytes

/-- The key of one direction between two accounts; empty when there is no shared secret. -/
def deriveKey (privateKey localPublic peerPublic : Bytes) (localId peerId : ℕ)
    (outgoing : Bool) : Bytes :=
  match sharedSecret C privateKey peerPublic with
  | none => []
  | some shared =>
    let info := toLatin1 (u "telegravim-e2e-v2") ++ [0]
      ++ (if outgoing then localPublic else peerPublic)
      ++ (if outgoing then peerPublic else localPublic)
      ++ toLatin1 (decimal (if outgoing then localId else peerId)) ++ [58]
      ++ toLatin1 (decimal (if outgoing then peerId else localId))
    C.hkdf shared info

def aesGcmEncrypt (key nonce plaintext aad : Bytes) : Bytes :=
  if key.length ≠ 32 ∨ nonce.length ≠ kNonceSize then []
  else C.gcmEncrypt key nonce plaintext aad

def aesGcmDecrypt (key nonce ciphertext aad : Bytes) : Option Bytes :=
  if key.length ≠ 32 ∨ nonce.length ≠ kNonceSize ∨ ciphertext.length < kTagSize then none
  else C.gcmDecrypt key nonce ciphertext aad

def fingerprintFor (publicKey : Bytes) : Text :=
  toUpper (fromLatin1 (toHex (C.sha256 publicKey)))

def validPublicKey (bytes : Bytes) : Bool :=
  bytes.length = kPublicKeySize && bytes.head? = some 4 && C.onCurve bytes

/-! ### Canonical fields -/

/-- A canonical decimal number up to the signed 64-bit maximum. -/
def number (text : Text) (allowZero : Bool) : Option ℕ :=
  match toULongLong text with
  | none => none
  | some result =>
    if (!allowZero && result = 0) || kMaxNumber < result || decimal result ≠ text then none
    else some result

/-- Canonical Base64. -/
def base64 (text : Text) : Option Bytes :=
  let result := (Base64.fromBase64 (toLatin1 text)).getD []
  if fromLatin1 (Base64.toBase64 result) ≠ text then none else some result

/-- The text of a byte array in Base64. -/
def base64Text (bytes : Bytes) : Text := fromLatin1 (Base64.toBase64 bytes)

def newChallenge (random : Option (RandomBytes 16)) : Text :=
  match random with
  | none => []
  | some bytes => base64Text bytes.val

def validChallenge (text : Text) : Bool :=
  match base64 text with
  | none => false
  | some bytes => bytes.length = 16

/-- A number is read exactly from its decimal text. -/
lemma number_eq_some_iff {text : Text} {allowZero : Bool} {n : ℕ} :
    number text allowZero = some n ↔
      text = decimal n ∧ n ≤ kMaxNumber ∧ (n = 0 → allowZero = true) := by
  unfold number
  constructor
  · intro h
    cases hn : toULongLong text with
    | none => simp [hn] at h
    | some m =>
      simp only [hn] at h
      split_ifs at h with hc
      obtain rfl := Option.some.inj h
      simp only [Bool.or_eq_true, Bool.and_eq_true, Bool.not_eq_true', decide_eq_true_eq,
        not_or, not_and, not_not, not_lt] at hc
      refine ⟨hc.2.symm, hc.1.2, fun h0 => ?_⟩
      by_contra hz
      exact hc.1.1 (by simpa using hz) h0
  · rintro ⟨rfl, hle, hz⟩
    have hlt : n < 2 ^ 64 := by unfold kMaxNumber at hle; omega
    rw [toULongLong_decimal hlt]
    simp only [ne_eq, not_true_eq_false, decide_false, Bool.or_false]
    rw [if_neg]
    simp only [Bool.or_eq_true, Bool.and_eq_true, Bool.not_eq_true', decide_eq_true_eq, not_or,
      not_and, not_lt]
    exact ⟨fun hf h0 => by simp [hz h0] at hf, hle⟩

lemma number_decimal {n : ℕ} (h : n ≤ kMaxNumber) (hpos : 0 < n) :
    number (decimal n) false = some n :=
  number_eq_some_iff.mpr ⟨rfl, h, fun h0 => absurd h0 hpos.ne'⟩

lemma number_decimal_zero {n : ℕ} (h : n ≤ kMaxNumber) : number (decimal n) true = some n :=
  number_eq_some_iff.mpr ⟨rfl, h, fun _ => rfl⟩

/-- Bytes are read exactly from their Base64 text. -/
lemma base64_eq_some_iff {text : Text} {bytes : Bytes} :
    base64 text = some bytes ↔ text = base64Text bytes := by
  unfold base64 base64Text
  constructor
  · intro h
    simp only at h
    split_ifs at h with hc
    obtain rfl := Option.some.inj h
    exact (not_not.mp hc).symm
  · rintro rfl
    simp [toLatin1_fromLatin1, Base64.fromBase64_toBase64]

@[simp] lemma base64_base64Text (bytes : Bytes) : base64 (base64Text bytes) = some bytes :=
  base64_eq_some_iff.mpr rfl

lemma validChallenge_iff {text : Text} :
    validChallenge text = true ↔ ∃ bytes : Bytes, bytes.length = 16 ∧ text = base64Text bytes := by
  unfold validChallenge
  cases h : base64 text with
  | none =>
    simp only [Bool.false_eq_true, false_iff, not_exists, not_and]
    intro bytes _ htext
    rw [htext, base64_base64Text] at h
    exact absurd h (by simp)
  | some bytes =>
    rw [base64_eq_some_iff] at h
    simp only [decide_eq_true_eq]
    constructor
    · intro hlen; exact ⟨bytes, hlen, h⟩
    · rintro ⟨b, hlen, htext⟩
      have heq : base64Text b = base64Text bytes := htext.symm.trans h
      have hb := congrArg base64 heq
      rw [base64_base64Text, base64_base64Text] at hb
      rw [← Option.some.inj hb]
      exact hlen

/-- A drawn challenge is a valid one. -/
lemma validChallenge_newChallenge (random : RandomBytes 16) :
    validChallenge (newChallenge (some random)) = true :=
  validChallenge_iff.mpr ⟨random.val, random.property, rfl⟩

lemma not_validChallenge_nil : validChallenge [] = false := rfl

/-- The characters of Base64 text: ASCII, and neither a full stop nor a colon. -/
lemma mem_base64Text {bytes : Bytes} {c : UInt16} (h : c ∈ base64Text bytes) :
    c ≠ 46 ∧ c ≠ 58 ∧ c < 128 := by
  obtain ⟨b, hb, rfl⟩ := List.mem_map.mp h
  obtain ⟨h1, h2, -, h3⟩ := Base64.mem_toBase64 hb
  have hlt : b.toNat < 256 := b.toNat_lt
  have hval : (UInt16.ofNat b.toNat).toNat = b.toNat := by
    rw [UInt16.toNat_ofNat', Nat.mod_eq_of_lt (by omega)]
  rw [UInt8.le_iff_toNat_le] at h3
  have hle : b.toNat ≤ 122 := h3
  refine ⟨fun h => h1 ?_, fun h => h2 ?_, ?_⟩
  · apply UInt8.toNat_inj.mp
    rw [← hval, h]; rfl
  · apply UInt8.toNat_inj.mp
    rw [← hval, h]; rfl
  · rw [UInt16.lt_iff_toNat_lt, hval]
    exact lt_of_le_of_lt hle (by decide)

/-- A challenge consists of ASCII characters. -/
lemma lt_128_of_validChallenge {text : Text} (h : validChallenge text = true) {c : UInt16}
    (hc : c ∈ text) : c < 128 := by
  obtain ⟨bytes, -, rfl⟩ := validChallenge_iff.mp h
  exact (mem_base64Text hc).2.2

/-! ### State -/

/-- A software key pair. -/
structure Identity where
  privateKey : Bytes
  publicKey : Bytes
deriving DecidableEq

/-- A key pair of the curve. -/
structure ValidIdentity (C : Crypto) (identity : Identity) : Prop where
  privateKey : identity.privateKey.length = kPrivateKeySize
  publicKey : identity.publicKey.length = kPublicKeySize
  pair : C.loadPrivate identity.privateKey = some identity.publicKey

/-- What binds a sequence number: the message it was bound to, and the frame's digest. -/
structure Receipt where
  messageId : MsgId
  digest : Bytes
deriving DecidableEq

/-- What is kept for one public key of a peer. -/
structure Key where
  publicKey : Bytes := []
  sent : ℕ := 0
  control : ℕ := 0
  incoming : OrdMap ℕ Receipt := ∅
  outgoing : OrdMap ℕ Receipt := ∅
deriving DecidableEq

/-- The sending mode towards a peer. -/
structure Mode where
  requested : Bool := false
  ready : Bool := false
  keyChanged : Bool := false
  challenge : Text := []
  lastPeerChallenge : Text := []
deriving DecidableEq

/-- What is kept for a peer: the fingerprint of the key in use, the mode, and every key seen. -/
structure PeerState where
  active : Text := []
  mode : Mode := {}
  keys : OrdMap Text Key := ∅
deriving DecidableEq

/-- What `save` writes. -/
structure Account where
  identity : Option Identity := none
  peers : OrdMap PeerId PeerState := ∅
deriving DecidableEq

/-- The state in memory: the account, and whether it failed closed. -/
structure Chat where
  account : Account := {}
  failed : Bool := false
deriving DecidableEq

/-! ### Frames -/

/-- The kinds of frames. -/
inductive Kind where
  | msg
  | on
  | off
  | ack
deriving DecidableEq

def Kind.text : Kind → Text
  | .msg => u "MSG"
  | .on => u "ON"
  | .off => u "OFF"
  | .ack => u "ACK"

def Kind.ofText (text : Text) : Option Kind :=
  if text = u "MSG" then some .msg
  else if text = u "ON" then some .on
  else if text = u "ACK" then some .ack
  else if text = u "OFF" then some .off
  else none

/-- A frame that was opened: its kind, the peer's key, the sequence number and the text. -/
structure Frame where
  kind : Kind
  fingerprint : Text
  sequence : ℕ
  plaintext : Text
deriving DecidableEq

/-! ### Updates -/

/-- The receipts of one direction. -/
def Key.receipts (key : Key) (outgoing : Bool) : OrdMap ℕ Receipt :=
  if outgoing then key.outgoing else key.incoming

/-- Replace the receipts of one direction. -/
def Key.setReceipts (key : Key) (outgoing : Bool) (receipts : OrdMap ℕ Receipt) : Key :=
  if outgoing then { key with outgoing := receipts } else { key with incoming := receipts }

/-- Replace what is kept for a peer. -/
def Account.setPeer (account : Account) (peerId : PeerId) (state : PeerState) : Account :=
  { account with peers := account.peers.insert peerId state }

/-- Replace what is kept for a key of a peer. -/
def PeerState.setKey (state : PeerState) (fingerprint : Text) (key : Key) : PeerState :=
  { state with keys := state.keys.insert fingerprint key }

end E2E
