import Telegravim.Foundation.Positional

set_option autoImplicit false

/-!
# The handshake of a passkey tunnel

The computer and the phone agree on keys by a handshake of two messages. Each end keeps a hash of
what both have seen and a chaining key that all secrets are mixed into; the messages hold the
ephemeral keys of the ends and a seal by which the other end checks that both have mixed the same.
The two ends are written separately: the one that starts in two parts, the one that answers in one.

The cryptographic library is a parameter. A key that is drawn is an argument, `none` when drawing
it fails. Keys are not cut to their 32 bytes where the source copies them as they are.

## Main definitions

* `Passkey.Primitives` — the cryptographic functions, with their laws in `Passkey.Primitives.Lawful`.
* `Passkey.Noise` — the state of an end during the handshake.
* `Passkey.Crypter` — the state of an end after it.
* `Passkey.buildInitialMessage`, `Passkey.processResponse`, `Passkey.respondToHandshake` — the two ends.

## Main results

* `Passkey.respondToHandshake_spec` — what an answer depends on.
* `Passkey.respondToHandshake_rejects` — only the same key and the same identity give an answer.
* `Passkey.handshake_agrees` — both ends get the same hash and matching crypters.
* `Passkey.handshake_succeeds` — ends with the same key and identity get through.
-/

namespace Passkey

open Text Positional

/-! ### The primitives -/

/-- The cryptographic functions: SHA-256, HKDF with the length of its output, the secret and the salt, AES-256-GCM with
the key, the nonce, the text and the additional data, and the curve P-256 with uncompressed points. -/
structure Primitives (Key : Type) where
  sha256Digest : Bytes → Bytes
  hkdfSha256 : ℕ → Bytes → Bytes → Bytes
  aesGcmSeal : Bytes → Bytes → Bytes → Bytes → Bytes
  aesGcmOpen : Bytes → Bytes → Bytes → Bytes → Option Bytes
  publicKeyX962 : Key → Bytes
  ecdhSharedX : Key → Bytes → Option Bytes

def kP256X962Length : ℕ := 65

def kHandshakeResponseSize : ℕ := kP256X962Length + 16

/-- The laws of the primitives: the sizes of digests, points and seals, that a seal opens, and that both ends of a key
agreement get the same secret. -/
structure Primitives.Lawful {Key : Type} (P : Primitives Key) : Prop where
  sha256Digest_length : ∀ data, (P.sha256Digest data).length = 32
  publicKeyX962_length : ∀ key, (P.publicKeyX962 key).length = kP256X962Length
  aesGcmSeal_length : ∀ key nonce plaintext additionalData,
    (P.aesGcmSeal key nonce plaintext additionalData).length = plaintext.length + 16
  aesGcmOpen_seal : ∀ key nonce plaintext additionalData,
    P.aesGcmOpen key nonce (P.aesGcmSeal key nonce plaintext additionalData) additionalData = some plaintext
  ecdhSharedX_comm : ∀ key other,
    P.ecdhSharedX key (P.publicKeyX962 other) = P.ecdhSharedX other (P.publicKeyX962 key)

/-! ### The state of the handshake -/

inductive HandshakeType where
  | kNpsk0
  | nKpsk0
  deriving DecidableEq

structure Noise where
  chainingKey : Bytes
  h : Bytes
  symmetricKey : Bytes
  symmetricNonce : ℕ
  deriving DecidableEq

namespace Noise

variable {Key : Type} (P : Primitives Key)

def init (type : HandshakeType) : Noise :=
  let name := toLatin1 (u (match type with
    | .kNpsk0 => "Noise_KNpsk0_P256_AESGCM_SHA256"
    | .nKpsk0 => "Noise_NKpsk0_P256_AESGCM_SHA256"))
  let chainingKey := name ++ List.replicate (32 - name.length) 0
  { chainingKey, h := chainingKey, symmetricKey := List.replicate 32 0, symmetricNonce := 0 }

def mixHash (noise : Noise) (data : Bytes) : Noise := { noise with h := P.sha256Digest (noise.h ++ data) }

def mixHashPoint (noise : Noise) (pointX962 : Bytes) : Noise := mixHash P noise pointX962

def initializeKey (noise : Noise) (key32 : Bytes) : Noise :=
  { noise with symmetricKey := key32, symmetricNonce := 0 }

def mixKey (noise : Noise) (ikm : Bytes) : Noise :=
  let output := P.hkdfSha256 64 ikm noise.chainingKey
  initializeKey { noise with chainingKey := output.take 32 } ((output.drop 32).take 32)

def mixKeyAndHash (noise : Noise) (ikm : Bytes) : Noise :=
  let output := P.hkdfSha256 96 ikm noise.chainingKey
  let noise := mixHash P { noise with chainingKey := output.take 32 } ((output.drop 32).take 32)
  initializeKey noise ((output.drop 64).take 32)

/-- The counter is in the first bytes of a nonce. -/
def nonce (counter : ℕ) : Bytes := bigEndian 4 counter ++ List.replicate 8 0

def encryptAndHash (noise : Noise) (plaintext : Bytes) : Bytes × Noise :=
  let ciphertext := P.aesGcmSeal noise.symmetricKey (nonce noise.symmetricNonce) plaintext noise.h
  (ciphertext, mixHash P { noise with symmetricNonce := (noise.symmetricNonce + 1) % 2 ^ 32 } ciphertext)

def decryptAndHash (noise : Noise) (ciphertext : Bytes) : Option Bytes × Noise :=
  let plaintext := P.aesGcmOpen noise.symmetricKey (nonce noise.symmetricNonce) ciphertext noise.h
  let noise := { noise with symmetricNonce := (noise.symmetricNonce + 1) % 2 ^ 32 }
  (plaintext, if plaintext.isSome then mixHash P noise ciphertext else noise)

def trafficKeys (noise : Noise) : Bytes × Bytes :=
  let output := P.hkdfSha256 64 [] noise.chainingKey
  (output.take 32, (output.drop 32).take 32)

end Noise

/-! ### The channel after the handshake -/

def kMaxSequence : ℕ := 2 ^ 24 - 1

def kPaddingGranularity : ℕ := 32

structure Crypter where
  readKey : Bytes
  writeKey : Bytes
  readSequence : ℕ := 0
  writeSequence : ℕ := 0
  deriving DecidableEq

namespace Crypter

variable {Key : Type} (P : Primitives Key)

/-- The sequence number is in the last bytes of a nonce. -/
def nonce (sequence : ℕ) : Bytes := List.replicate 8 0 ++ bigEndian 4 sequence

/-- A text is filled up to a multiple of the granularity, and the last byte says how far. -/
def pad (plaintext : Bytes) : Bytes :=
  let paddedSize :=
    (plaintext.length + 1 + kPaddingGranularity - 1) / kPaddingGranularity * kPaddingGranularity
  (plaintext ++ List.replicate (paddedSize - plaintext.length) 0).set (paddedSize - 1)
    (UInt8.ofNat (paddedSize - plaintext.length - 1))

def encrypt (crypter : Crypter) (plaintext : Bytes) : Option Bytes × Crypter :=
  if crypter.writeSequence > kMaxSequence then (none, crypter)
  else
    let result := P.aesGcmSeal crypter.writeKey (nonce crypter.writeSequence) (pad plaintext) []
    (if result.isEmpty then none else some result, { crypter with writeSequence := crypter.writeSequence + 1 })

/-- A text without its padding; nothing when the last byte says more than there is. -/
def unpad (plaintext : Bytes) : Option Bytes :=
  match plaintext.getLast? with
  | none => none
  | some last =>
    let padding := last.toNat
    if padding + 1 > plaintext.length then none else some (plaintext.take (plaintext.length - padding - 1))

def decrypt (crypter : Crypter) (ciphertext : Bytes) : Option Bytes × Crypter :=
  if crypter.readSequence > kMaxSequence then (none, crypter)
  else
    match P.aesGcmOpen crypter.readKey (nonce crypter.readSequence) ciphertext [] with
    | none => (none, crypter)
    | some plaintext => (unpad plaintext, { crypter with readSequence := crypter.readSequence + 1 })

end Crypter

/-! ### The two ends of the handshake -/

structure HandshakeResult where
  crypter : Crypter
  handshakeHash : Bytes
  deriving DecidableEq

structure HandshakeInitiator (Key : Type) where
  psk : Bytes
  localIdentity : Key
  ephemeralKey : Option Key := none
  noise : Noise := { chainingKey := [], h := [], symmetricKey := [], symmetricNonce := 0 }

section Ends

variable {Key : Type} (P : Primitives Key)

def buildInitialMessage (initiator : HandshakeInitiator Key) (generated : Option Key) :
    HandshakeInitiator Key × Bytes :=
  let noise := Noise.init .kNpsk0
  let noise := noise.mixHash P [1]
  let noise := noise.mixHashPoint P (P.publicKeyX962 initiator.localIdentity)
  let noise := noise.mixKeyAndHash P initiator.psk
  match generated with
  | none => ({ initiator with noise, ephemeralKey := none }, [])
  | some ephemeralKey =>
    let ephemeralPublic := P.publicKeyX962 ephemeralKey
    let noise := noise.mixHash P ephemeralPublic
    let noise := noise.mixKey P ephemeralPublic
    let (ciphertext, noise) := noise.encryptAndHash P []
    ({ initiator with noise, ephemeralKey := some ephemeralKey }, ephemeralPublic ++ ciphertext)

def processResponse (initiator : HandshakeInitiator Key) (response : Bytes) :
    Option HandshakeResult × HandshakeInitiator Key :=
  if response.length ≠ kHandshakeResponseSize then (none, initiator)
  else
    match initiator.ephemeralKey with
    | none => (none, initiator)
    | some ephemeralKey =>
      let peerPointBytes := response.take kP256X962Length
      let ciphertext := response.drop kP256X962Length
      match P.ecdhSharedX ephemeralKey peerPointBytes with
      | none => (none, initiator)
      | some sharedEe =>
        let noise := initiator.noise.mixHash P peerPointBytes
        let noise := noise.mixKey P peerPointBytes
        let noise := noise.mixKey P sharedEe
        match P.ecdhSharedX initiator.localIdentity peerPointBytes with
        | none => (none, { initiator with noise })
        | some sharedSe =>
          let noise := noise.mixKey P sharedSe
          let (plaintext, noise) := noise.decryptAndHash P ciphertext
          if plaintext ≠ some [] then (none, { initiator with noise })
          else
            let (writeKey, readKey) := noise.trafficKeys P
            (some { crypter := { readKey, writeKey }, handshakeHash := noise.h }, { initiator with noise })

/-- The result comes with what is put behind the response. -/
def respondToHandshake (psk32 peerIdentityX962 : Bytes) (generated : Option Key) (message : Bytes) :
    Option (HandshakeResult × Bytes) :=
  if message.length < kP256X962Length then none
  else
    let peerPointBytes := message.take kP256X962Length
    let ciphertext := message.drop kP256X962Length
    let noise := Noise.init .kNpsk0
    let noise := noise.mixHash P [1]
    let noise := noise.mixHash P peerIdentityX962
    let noise := noise.mixKeyAndHash P psk32
    let noise := noise.mixHash P peerPointBytes
    let noise := noise.mixKey P peerPointBytes
    match generated with
    | none => none
    | some ephemeralKey =>
      let (plaintext, noise) := noise.decryptAndHash P ciphertext
      if plaintext ≠ some [] then none
      else
        let ephemeralPublic := P.publicKeyX962 ephemeralKey
        let noise := noise.mixHash P ephemeralPublic
        let noise := noise.mixKey P ephemeralPublic
        match P.ecdhSharedX ephemeralKey peerPointBytes with
        | none => none
        | some sharedEe =>
          let noise := noise.mixKey P sharedEe
          match P.ecdhSharedX ephemeralKey peerIdentityX962 with
          | none => none
          | some sharedSe =>
            let noise := noise.mixKey P sharedSe
            let (myCiphertext, noise) := noise.encryptAndHash P []
            let (readKey, writeKey) := noise.trafficKeys P
            some ({ crypter := { readKey, writeKey }, handshakeHash := noise.h }, ephemeralPublic ++ myCiphertext)

end Ends

/-! ### What the ends have mixed -/

section Spec

variable {Key : Type} (P : Primitives Key)

/-- The state in which the first message is sealed by one end and opened by the other. -/
def firstState (psk identity point : Bytes) : Noise :=
  (((((Noise.init .kNpsk0).mixHash P [1]).mixHash P identity).mixKeyAndHash P psk).mixHash P point).mixKey P point

/-- The state in which the second message is sealed and opened. -/
def lastState (noise : Noise) (point sharedEe sharedSe : Bytes) : Noise :=
  (((noise.mixHash P point).mixKey P point).mixKey P sharedEe).mixKey P sharedSe

lemma buildInitialMessage_eq (initiator : HandshakeInitiator Key) (ephemeral : Key) :
    buildInitialMessage P initiator (some ephemeral) =
      ({ initiator with
          noise := ((firstState P initiator.psk (P.publicKeyX962 initiator.localIdentity)
            (P.publicKeyX962 ephemeral)).encryptAndHash P []).2
          ephemeralKey := some ephemeral },
        P.publicKeyX962 ephemeral ++ ((firstState P initiator.psk (P.publicKeyX962 initiator.localIdentity)
          (P.publicKeyX962 ephemeral)).encryptAndHash P []).1) := rfl

/-- The result and the response of the end that answers, from the state in which it seals. -/
def answerOf (noise : Noise) (ephemeralPublic : Bytes) : HandshakeResult × Bytes :=
  let sealed := noise.encryptAndHash P []
  let keys := sealed.2.trafficKeys P
  ({ crypter := { readKey := keys.1, writeKey := keys.2 }, handshakeHash := sealed.2.h }, ephemeralPublic ++ sealed.1)

variable {P}

/-- **What an answer depends on**: the first message opens to nothing, and there are two shared secrets. -/
theorem respondToHandshake_spec {psk identity point ciphertext : Bytes} {ephemeral : Key}
    (hpoint : point.length = kP256X962Length) (answer : HandshakeResult × Bytes) :
    respondToHandshake P psk identity (some ephemeral) (point ++ ciphertext) = some answer ↔
      ((firstState P psk identity point).decryptAndHash P ciphertext).1 = some [] ∧
        ∃ sharedEe sharedSe, P.ecdhSharedX ephemeral point = some sharedEe ∧
          P.ecdhSharedX ephemeral identity = some sharedSe ∧
          answer = answerOf P (lastState P ((firstState P psk identity point).decryptAndHash P ciphertext).2
            (P.publicKeyX962 ephemeral) sharedEe sharedSe) (P.publicKeyX962 ephemeral) := by
  have hlength : ¬ (point ++ ciphertext).length < kP256X962Length := by
    rw [List.length_append, hpoint]
    omega
  have htake : (point ++ ciphertext).take kP256X962Length = point := by
    rw [← hpoint, List.take_left]
  have hdrop : (point ++ ciphertext).drop kP256X962Length = ciphertext := by
    rw [← hpoint, List.drop_left]
  rw [respondToHandshake, if_neg hlength, htake, hdrop]
  dsimp only
  rw [← firstState]
  obtain ⟨plaintext, noise⟩ := (firstState P psk identity point).decryptAndHash P ciphertext
  by_cases hopened : plaintext = some []
  · rw [if_neg (not_not.mpr hopened), and_iff_right hopened]
    rcases hee : P.ecdhSharedX ephemeral point with - | sharedEe
    · simp
    rcases hse : P.ecdhSharedX ephemeral identity with - | sharedSe
    · simp
    simp only [Option.some.injEq, exists_and_left, exists_eq_left']
    exact eq_comm
  · rw [if_pos hopened]
    exact ⟨fun h => (nomatch h), fun h => absurd h.1 hopened⟩

/-- What one end has sealed the other end opens, and both are in the same state afterwards. -/
lemma Noise.decryptAndHash_encryptAndHash (hP : P.Lawful) (noise : Noise) (plaintext : Bytes) :
    noise.decryptAndHash P (noise.encryptAndHash P plaintext).1 =
      (some plaintext, (noise.encryptAndHash P plaintext).2) := by
  simp only [Noise.decryptAndHash, Noise.encryptAndHash, hP.aesGcmOpen_seal, Option.isSome_some, if_true]

/-- The end that starts takes the answer of the other one, if that has mixed the same. -/
lemma processResponse_answerOf (hP : P.Lawful) {initiator : HandshakeInitiator Key} {ephemeral other : Key}
    (hephemeral : initiator.ephemeralKey = some ephemeral) {sharedEe sharedSe : Bytes}
    (hee : P.ecdhSharedX ephemeral (P.publicKeyX962 other) = some sharedEe)
    (hse : P.ecdhSharedX initiator.localIdentity (P.publicKeyX962 other) = some sharedSe) {last : Noise}
    (hlast : last = lastState P initiator.noise (P.publicKeyX962 other) sharedEe sharedSe)
    {answer : HandshakeResult × Bytes} (hanswer : answer = answerOf P last (P.publicKeyX962 other)) :
    (processResponse P initiator answer.2).1 =
      some { crypter := { readKey := answer.1.crypter.writeKey, writeKey := answer.1.crypter.readKey }
             handshakeHash := answer.1.handshakeHash } := by
  have hpoint : (P.publicKeyX962 other).length = kP256X962Length := hP.publicKeyX962_length other
  have hresponse : answer.2 = P.publicKeyX962 other ++ (last.encryptAndHash P []).1 := by rw [hanswer]; rfl
  have hlength : ¬ (P.publicKeyX962 other ++ (last.encryptAndHash P []).1).length ≠ kHandshakeResponseSize := by
    rw [List.length_append, hpoint, Noise.encryptAndHash, hP.aesGcmSeal_length]
    decide
  have htake : (P.publicKeyX962 other ++ (last.encryptAndHash P []).1).take kP256X962Length = P.publicKeyX962 other := by
    rw [← hpoint, List.take_left]
  have hdrop : (P.publicKeyX962 other ++ (last.encryptAndHash P []).1).drop kP256X962Length =
      (last.encryptAndHash P []).1 := by
    rw [← hpoint, List.drop_left]
  rw [hresponse, processResponse, if_neg hlength, hephemeral, htake, hdrop]
  dsimp only
  rw [hee, hse]
  dsimp only
  rw [← lastState, ← hlast, Noise.decryptAndHash_encryptAndHash hP]
  dsimp only
  rw [if_neg (not_not.mpr rfl), hanswer]
  rfl

/-- **The two ends agree**: whenever the other end answers with the same key and the same identity, the end that
starts takes the answer, with the same hash and the keys of the two directions. -/
theorem handshake_agrees (hP : P.Lawful) {psk : Bytes} {identity ephemeral other : Key}
    {answer : HandshakeResult × Bytes}
    (hanswer : respondToHandshake P psk (P.publicKeyX962 identity) (some other)
      (buildInitialMessage P { psk, localIdentity := identity } (some ephemeral)).2 = some answer) :
    (processResponse P (buildInitialMessage P { psk, localIdentity := identity } (some ephemeral)).1 answer.2).1 =
      some { crypter := { readKey := answer.1.crypter.writeKey, writeKey := answer.1.crypter.readKey }
             handshakeHash := answer.1.handshakeHash } := by
  rw [buildInitialMessage_eq] at hanswer ⊢
  obtain ⟨-, sharedEe, sharedSe, hee, hse, heq⟩ :=
    (respondToHandshake_spec (hP.publicKeyX962_length ephemeral) answer).mp hanswer
  rw [Noise.decryptAndHash_encryptAndHash hP] at heq
  exact processResponse_answerOf hP rfl (hP.ecdhSharedX_comm ephemeral other ▸ hee)
    (hP.ecdhSharedX_comm identity other ▸ hse) rfl heq

/-- The end that answers has sent and taken nothing yet. -/
lemma respondToHandshake_crypter (hP : P.Lawful) {psk identity : Bytes} {initiator : HandshakeInitiator Key}
    {ephemeral other : Key} {answer : HandshakeResult × Bytes}
    (hanswer : respondToHandshake P psk identity (some other)
      (buildInitialMessage P initiator (some ephemeral)).2 = some answer) :
    answer.1.crypter.readSequence = 0 ∧ answer.1.crypter.writeSequence = 0 := by
  rw [buildInitialMessage_eq] at hanswer
  obtain ⟨-, sharedEe, sharedSe, -, -, rfl⟩ :=
    (respondToHandshake_spec (hP.publicKeyX962_length ephemeral) answer).mp hanswer
  exact ⟨rfl, rfl⟩

/-- An end with the same key and the same identity answers, if the key agreements give secrets. -/
theorem handshake_succeeds (hP : P.Lawful) {psk : Bytes} {identity ephemeral other : Key}
    (hee : (P.ecdhSharedX other (P.publicKeyX962 ephemeral)).isSome = true)
    (hse : (P.ecdhSharedX other (P.publicKeyX962 identity)).isSome = true) :
    ∃ answer, respondToHandshake P psk (P.publicKeyX962 identity) (some other)
      (buildInitialMessage P { psk, localIdentity := identity } (some ephemeral)).2 = some answer := by
  obtain ⟨sharedEe, hee⟩ := Option.isSome_iff_exists.mp hee
  obtain ⟨sharedSe, hse⟩ := Option.isSome_iff_exists.mp hse
  rw [buildInitialMessage_eq]
  refine ⟨_, (respondToHandshake_spec (hP.publicKeyX962_length ephemeral) _).mpr ⟨?_, sharedEe, sharedSe, hee, hse, rfl⟩⟩
  rw [Noise.decryptAndHash_encryptAndHash hP]

/-! ### Other keys -/

variable (P) in
/-- What an end hashes before the first seal. -/
def hashedFirst (psk identity point : Bytes) : List Bytes :=
  let noise := (Noise.init .kNpsk0).mixHash P [1]
  let mixed := (noise.mixHash P identity).mixKeyAndHash P psk
  [noise.h ++ identity, (noise.mixHash P identity).h ++ ((P.hkdfSha256 96 psk noise.chainingKey).drop 32).take 32,
    mixed.h ++ point]

/-- **The primitives keep two ends apart**: the first message opens only under the key and the hash that it has been
sealed with, what the two ends hash at a step does not collide, and different keys give different secrets to hash. -/
structure Primitives.KeepApart (P : Primitives Key) (psk identity psk' identity' point : Bytes) : Prop where
  unforged : ∀ plaintext, P.aesGcmOpen (firstState P psk' identity' point).symmetricKey (Noise.nonce 0)
    ((firstState P psk identity point).encryptAndHash P []).1 (firstState P psk' identity' point).h = some plaintext →
      (firstState P psk' identity' point).symmetricKey = (firstState P psk identity point).symmetricKey ∧
        (firstState P psk' identity' point).h = (firstState P psk identity point).h
  collisionFree : ∀ hashed ∈ (hashedFirst P psk' identity' point).zip (hashedFirst P psk identity point),
    P.sha256Digest hashed.1 = P.sha256Digest hashed.2 → hashed.1 = hashed.2
  derived : ∀ salt, ((P.hkdfSha256 96 psk' salt).drop 32).take 32 = ((P.hkdfSha256 96 psk salt).drop 32).take 32 →
    psk' = psk

/-- The hash before the first seal determines the key and the identity. -/
lemma firstState_h_inj (hP : P.Lawful) {psk identity psk' identity' point : Bytes}
    (hapart : P.KeepApart psk identity psk' identity' point)
    (h : (firstState P psk' identity' point).h = (firstState P psk identity point).h) :
    psk' = psk ∧ identity' = identity := by
  have hlast := hapart.collisionFree _ (List.mem_cons_of_mem _ (List.mem_cons_of_mem _ List.mem_cons_self)) h
  have hmixed := hapart.collisionFree _ (List.mem_cons_of_mem _ List.mem_cons_self) (List.append_cancel_right hlast)
  -- digests have one length, so the identities and the secrets are the same
  have hlength : ∀ identity : Bytes, (((Noise.init .kNpsk0).mixHash P [1]).mixHash P identity).h.length = 32 :=
    fun _ => hP.sha256Digest_length _
  obtain ⟨hidentity, hsecret⟩ := List.append_inj hmixed ((hlength identity').trans (hlength identity).symm)
  have hfirst := hapart.collisionFree _ List.mem_cons_self hidentity
  exact ⟨hapart.derived _ hsecret, List.append_cancel_left hfirst⟩

/-- **Only the same key and the same identity give an answer.** -/
theorem respondToHandshake_rejects (hP : P.Lawful) {psk psk' identity' : Bytes} {identity ephemeral : Key}
    {generated : Option Key} {answer : HandshakeResult × Bytes}
    (hapart : P.KeepApart psk (P.publicKeyX962 identity) psk' identity' (P.publicKeyX962 ephemeral))
    (hanswer : respondToHandshake P psk' identity' generated
      (buildInitialMessage P { psk, localIdentity := identity } (some ephemeral)).2 = some answer) :
    psk' = psk ∧ identity' = P.publicKeyX962 identity := by
  rw [buildInitialMessage_eq] at hanswer
  cases generated with
  | none =>
    rw [respondToHandshake] at hanswer
    split_ifs at hanswer
  | some other =>
    obtain ⟨hopened, -⟩ := (respondToHandshake_spec (hP.publicKeyX962_length ephemeral) answer).mp hanswer
    exact firstState_h_inj hP hapart (hapart.unforged _ hopened).2

end Spec

end Passkey
