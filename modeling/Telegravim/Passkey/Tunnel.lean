import Telegravim.Passkey.Noise

set_option autoImplicit false

/-!
# The channel of a passkey tunnel

After the handshake both ends send messages to each other through a server that may deliver them
as it likes: late, twice, in another order, to the wrong end, or changed. Each message is padded
and sealed under the number of the messages that went the same way before it.

The only thing that the server cannot do is to forge: a text that opens at an end under the key
and the number that the end waits for is one that has been sealed so.

## Main definitions

* `Passkey.Tunnel` — the two ends and what has happened between them.
* `Passkey.Tunnel.Reached` — the runs, with anything delivered that is not forged.
* `Passkey.Tunnel.Exact` — what is expected of the channel.

## Main results

* `Passkey.Crypter.unpad_pad` — padding is taken off again.
* `Passkey.Tunnel.Sound.exact` — the channel is exact in every state of a run.
* `Passkey.tunnel_ends_agree` — the ends agree, and then the channel between them is exact.
-/

namespace Passkey

open Positional

/-! ### Padding and nonces -/

namespace Crypter

/-- A padded text ends with the number of the bytes filled in before its last one. -/
lemma pad_eq (plaintext : Bytes) :
    ∃ count < 32, pad plaintext = plaintext ++ List.replicate count 0 ++ [UInt8.ofNat count] := by
  have hsize : ∃ count < 32, (plaintext.length + 1 + kPaddingGranularity - 1) / kPaddingGranularity *
      kPaddingGranularity = plaintext.length + count + 1 := by
    refine ⟨31 - plaintext.length % 32, by omega, ?_⟩
    rw [kPaddingGranularity]
    omega
  obtain ⟨count, hlt, hsize⟩ := hsize
  refine ⟨count, hlt, ?_⟩
  have hfill : plaintext.length + count + 1 - plaintext.length = count + 1 := by omega
  have hlast : plaintext.length + count + 1 - 1 = plaintext.length + count := Nat.add_sub_cancel _ _
  have hcount : plaintext.length + count + 1 - plaintext.length - 1 = count := by omega
  rw [pad, hsize, hcount, hfill, hlast, List.replicate_succ', ← List.append_assoc, List.set_append_right _ _ (by simp)]
  simp

/-- **Padding is taken off again**, whatever the length of the text. -/
theorem unpad_pad (plaintext : Bytes) : unpad (pad plaintext) = some plaintext := by
  obtain ⟨count, hlt, heq⟩ := pad_eq plaintext
  have hlast : (pad plaintext).getLast? = some (UInt8.ofNat count) := by rw [heq, List.getLast?_concat]
  have htoNat : (UInt8.ofNat count).toNat = count := by
    rw [UInt8.toNat_ofNat', Nat.mod_eq_of_lt (by omega)]
  have hlength : (pad plaintext).length = plaintext.length + count + 1 := by
    rw [heq, List.length_append, List.length_append, List.length_replicate, List.length_singleton]
  simp only [unpad, hlast, htoNat]
  rw [if_neg (by omega), hlength]
  have hkept : plaintext.length + count + 1 - count - 1 = plaintext.length := by omega
  rw [hkept, heq, List.append_assoc, List.take_left]

/-- Different numbers give different nonces. -/
lemma nonce_inj {sequence other : ℕ} (h : sequence ≤ kMaxSequence) (h' : other ≤ kMaxSequence)
    (heq : nonce sequence = nonce other) : sequence = other := by
  have hbytes := congrArg ofBigEndian (List.append_cancel_left heq)
  rw [ofBigEndian_bigEndian, ofBigEndian_bigEndian] at hbytes
  rw [kMaxSequence] at h h'
  rwa [Nat.mod_eq_of_lt (by omega), Nat.mod_eq_of_lt (by omega)] at hbytes

variable {Key : Type} {P : Primitives Key} {crypter : Crypter}

/-- What sealing gives below the limit. -/
lemma encrypt_eq (hP : P.Lawful) (h : crypter.writeSequence ≤ kMaxSequence) (plaintext : Bytes) :
    crypter.encrypt P plaintext =
      (some (P.aesGcmSeal crypter.writeKey (nonce crypter.writeSequence) (pad plaintext) []),
        { crypter with writeSequence := crypter.writeSequence + 1 }) := by
  have hne : (P.aesGcmSeal crypter.writeKey (nonce crypter.writeSequence) (pad plaintext) []).isEmpty = false := by
    rw [List.isEmpty_eq_false_iff, ← List.length_pos_iff, hP.aesGcmSeal_length]
    omega
  rw [encrypt, if_neg (not_lt.mpr h)]
  dsimp only
  rw [hne]
  rfl

/-- Nothing is sealed above it. -/
lemma encrypt_of_lt (h : kMaxSequence < crypter.writeSequence) (plaintext : Bytes) :
    crypter.encrypt P plaintext = (none, crypter) := if_pos h

/-- What opens gives the text and the next number, if its padding is right. -/
lemma decrypt_of_open (h : crypter.readSequence ≤ kMaxSequence) {ciphertext padded : Bytes}
    (hopen : P.aesGcmOpen crypter.readKey (nonce crypter.readSequence) ciphertext [] = some padded) :
    crypter.decrypt P ciphertext =
      (unpad padded, { crypter with readSequence := crypter.readSequence + 1 }) := by
  rw [decrypt, if_neg (not_lt.mpr h), hopen]

/-- What does not open changes nothing. -/
lemma decrypt_of_none {ciphertext : Bytes}
    (hopen : P.aesGcmOpen crypter.readKey (nonce crypter.readSequence) ciphertext [] = none) :
    crypter.decrypt P ciphertext = (none, crypter) := by
  rw [decrypt, hopen]
  split_ifs <;> rfl

end Crypter

/-! ### The two ends -/

inductive Side where
  | initiator
  | responder
  deriving DecidableEq

/-- The end at the other side. -/
def Side.other : Side → Side
  | .initiator => .responder
  | .responder => .initiator

/-- What holds of both ends holds after one of them has changed, if it holds of that one. -/
lemma Side.forall_update {α : Type} {Q : Side → α → Prop} {f : Side → α} {side : Side} {value : α}
    (hf : ∀ side, Q side (f side)) (hvalue : Q side value) (side' : Side) :
    Q side' (Function.update f side value side') := by
  by_cases h : side' = side
  · subst h
    rwa [Function.update_self]
  · rw [Function.update_of_ne h]
    exact hf side'

/-- The two ends, with what was given to each for sending, what it made of that, and what it took from the other one.
All that has been sealed is listed with its key and its nonce. -/
structure Tunnel where
  crypter : Side → Crypter
  sent : Side → List Bytes
  ciphertexts : Side → List Bytes
  received : Side → List Bytes
  sealed : List ((Bytes × Bytes) × Bytes)

namespace Tunnel

/-- The tunnel after a handshake. -/
def start (initiator responder : Crypter) : Tunnel where
  crypter
    | .initiator => initiator
    | .responder => responder
  sent _ := []
  ciphertexts _ := []
  received _ := []
  sealed := []

variable {Key : Type} (P : Primitives Key)

/-- An end is given a message to send. -/
def encrypt (tunnel : Tunnel) (side : Side) (plaintext : Bytes) : Tunnel :=
  let result := (tunnel.crypter side).encrypt P plaintext
  let tunnel' := { tunnel with crypter := Function.update tunnel.crypter side result.2 }
  match result.1 with
  | none => tunnel'
  | some ciphertext =>
    { tunnel' with
      sent := Function.update tunnel.sent side (tunnel.sent side ++ [plaintext])
      ciphertexts := Function.update tunnel.ciphertexts side (tunnel.ciphertexts side ++ [ciphertext])
      sealed := (((tunnel.crypter side).writeKey, Crypter.nonce (tunnel.crypter side).writeSequence), ciphertext) ::
        tunnel.sealed }

/-- Something is delivered to an end. -/
def deliver (tunnel : Tunnel) (side : Side) (ciphertext : Bytes) : Tunnel :=
  let result := (tunnel.crypter side).decrypt P ciphertext
  let tunnel' := { tunnel with crypter := Function.update tunnel.crypter side result.2 }
  match result.1 with
  | none => tunnel'
  | some plaintext =>
    { tunnel' with received := Function.update tunnel.received side (tunnel.received side ++ [plaintext]) }

/-- What opens at an end under the key and the number that it waits for has been sealed so. -/
def Unforged (tunnel : Tunnel) (side : Side) (ciphertext : Bytes) : Prop :=
  ∀ plaintext, P.aesGcmOpen (tunnel.crypter side).readKey (Crypter.nonce (tunnel.crypter side).readSequence)
    ciphertext [] = some plaintext →
      (((tunnel.crypter side).readKey, Crypter.nonce (tunnel.crypter side).readSequence), ciphertext) ∈ tunnel.sealed

/-- **The runs**: messages are given to the ends and anything is delivered that is not forged, in any order. -/
inductive Reached (initiator responder : Crypter) : Tunnel → Prop where
  | start : Reached initiator responder (start initiator responder)
  | encrypt {tunnel : Tunnel} (side : Side) (plaintext : Bytes) :
      Reached initiator responder tunnel → Reached initiator responder (tunnel.encrypt P side plaintext)
  | deliver {tunnel : Tunnel} (side : Side) (ciphertext : Bytes) : Reached initiator responder tunnel →
      tunnel.Unforged P side ciphertext → Reached initiator responder (tunnel.deliver P side ciphertext)

/-- **What is expected of the channel**: an end has taken the first of the messages sent to it, no nonce has been used
twice with a key, an end seals up to its limit, the ciphertext that it waits for gives the message, and any other one
is rejected and changes nothing. -/
structure Exact (tunnel : Tunnel) : Prop where
  received : ∀ side, (tunnel.received side).IsPrefix (tunnel.sent side.other)
  nonces : (tunnel.sealed.map Prod.fst).Nodup
  seals : ∀ side plaintext, (tunnel.sent side).length < 2 ^ 24 →
    ((tunnel.crypter side).encrypt P plaintext).1.isSome = true
  ciphertexts : ∀ side, (tunnel.ciphertexts side).length = (tunnel.sent side).length
  expected : ∀ side ciphertext,
    (tunnel.ciphertexts side.other)[(tunnel.received side).length]? = some ciphertext →
      ((tunnel.crypter side).decrypt P ciphertext).1 = (tunnel.sent side.other)[(tunnel.received side).length]?
  rejected : ∀ side ciphertext, tunnel.Unforged P side ciphertext →
    (tunnel.ciphertexts side.other)[(tunnel.received side).length]? ≠ some ciphertext →
      (tunnel.crypter side).decrypt P ciphertext = (none, tunnel.crypter side)

/-! ### What holds in every run -/

/-- What holds in every state of a run: the keys stay, the numbers count what was sent and taken, and whatever has been
sealed is one of the ciphertexts with its number. -/
structure Sound (keys : Side → Bytes) (tunnel : Tunnel) : Prop where
  writeKey : ∀ side, (tunnel.crypter side).writeKey = keys side
  readKey : ∀ side, (tunnel.crypter side).readKey = keys side.other
  writeSequence : ∀ side, (tunnel.crypter side).writeSequence = (tunnel.sent side).length
  readSequence : ∀ side, (tunnel.crypter side).readSequence = (tunnel.received side).length
  limit : ∀ side, (tunnel.sent side).length ≤ 2 ^ 24
  received : ∀ side, (tunnel.received side).IsPrefix (tunnel.sent side.other)
  ciphertexts : ∀ side, tunnel.ciphertexts side = (tunnel.sent side).mapIdx fun index plaintext =>
    P.aesGcmSeal (keys side) (Crypter.nonce index) (Crypter.pad plaintext) []
  sealed : ∀ entry ∈ tunnel.sealed, ∃ side index, entry.1 = (keys side, Crypter.nonce index) ∧
    (tunnel.ciphertexts side)[index]? = some entry.2
  nodup : (tunnel.sealed.map Prod.fst).Nodup

variable {P} {keys : Side → Bytes} {tunnel : Tunnel}

namespace Sound

variable (h : Sound P keys tunnel)

include h

omit h in
/-- The key of an end tells which end it is. -/
lemma side_eq (hkeys : keys .initiator ≠ keys .responder) {side other : Side} (heq : keys side = keys other) :
    side = other := by
  cases side <;> cases other <;> first
    | rfl
    | exact absurd heq hkeys
    | exact absurd heq.symm hkeys

/-- The number of a ciphertext is within the limit. -/
lemma index_le {side : Side} {index : ℕ} {ciphertext : Bytes}
    (hciphertext : (tunnel.ciphertexts side)[index]? = some ciphertext) : index ≤ kMaxSequence := by
  have hlt := (List.getElem?_eq_some_iff.mp hciphertext).1
  rw [h.ciphertexts, List.length_mapIdx] at hlt
  have hlimit := h.limit side
  rw [kMaxSequence]
  omega

/-- The ciphertext that an end waits for gives the message. -/
lemma decrypt_expected (hP : P.Lawful) {side : Side} {ciphertext : Bytes}
    (hexpected : (tunnel.ciphertexts side.other)[(tunnel.received side).length]? = some ciphertext) :
    ∃ plaintext, (tunnel.sent side.other)[(tunnel.received side).length]? = some plaintext ∧
      (tunnel.crypter side).decrypt P ciphertext =
        (some plaintext,
          { tunnel.crypter side with readSequence := (tunnel.crypter side).readSequence + 1 }) := by
  have hle := h.index_le hexpected
  rw [h.ciphertexts, List.getElem?_mapIdx] at hexpected
  obtain ⟨plaintext, hplaintext, rfl⟩ := Option.map_eq_some_iff.mp hexpected
  refine ⟨plaintext, hplaintext, ?_⟩
  rw [← h.readSequence] at hle
  rw [Crypter.decrypt_of_open hle (by rw [h.readKey, h.readSequence]; exact hP.aesGcmOpen_seal _ _ _ _),
    Crypter.unpad_pad]

/-- Anything else is rejected and changes nothing. -/
lemma decrypt_rejected (hkeys : keys .initiator ≠ keys .responder) {side : Side} {ciphertext : Bytes}
    (hunforged : tunnel.Unforged P side ciphertext)
    (hother : (tunnel.ciphertexts side.other)[(tunnel.received side).length]? ≠ some ciphertext) :
    (tunnel.crypter side).decrypt P ciphertext = (none, tunnel.crypter side) := by
  by_cases hle : (tunnel.crypter side).readSequence ≤ kMaxSequence
  case neg => exact if_pos (not_le.mp hle)
  refine Crypter.decrypt_of_none (Option.eq_none_iff_forall_ne_some.mpr fun plaintext hopen => hother ?_)
  obtain ⟨sender, index, hentry, hciphertext⟩ := h.sealed _ (hunforged plaintext hopen)
  obtain ⟨hkey, hnonce⟩ := Prod.mk.inj hentry
  have hsender : side.other = sender := side_eq hkeys (h.readKey side ▸ hkey)
  have hindex := Crypter.nonce_inj hle (h.index_le hciphertext) hnonce
  rw [hsender, ← h.readSequence, hindex]
  exact hciphertext

/-- **The channel is exact** in every state of a run. -/
theorem exact (hP : P.Lawful) (hkeys : keys .initiator ≠ keys .responder) : Exact P tunnel where
  received := h.received
  nonces := h.nodup
  seals side plaintext hlt := by
    rw [Crypter.encrypt_eq hP (by rw [h.writeSequence, kMaxSequence]; omega)]
    rfl
  ciphertexts side := by rw [h.ciphertexts, List.length_mapIdx]
  expected side ciphertext hexpected := by
    obtain ⟨plaintext, hplaintext, hdecrypt⟩ := h.decrypt_expected hP hexpected
    rw [hdecrypt, hplaintext]
  rejected _ _ hunforged hother := h.decrypt_rejected hkeys hunforged hother

/-- Giving a message to an end keeps what holds. -/
lemma encrypt (hP : P.Lawful) (hkeys : keys .initiator ≠ keys .responder) (side : Side) (plaintext : Bytes) :
    Sound P keys (tunnel.encrypt P side plaintext) := by
  by_cases hle : (tunnel.crypter side).writeSequence ≤ kMaxSequence
  case neg =>
    have hsame : tunnel.encrypt P side plaintext = tunnel := by
      rw [Tunnel.encrypt, Crypter.encrypt_of_lt (not_le.mp hle)]
      dsimp only
      rw [Function.update_eq_self]
    rw [hsame]
    exact h
  have hlength : (tunnel.ciphertexts side).length = (tunnel.sent side).length := by
    rw [h.ciphertexts, List.length_mapIdx]
  rw [Tunnel.encrypt, Crypter.encrypt_eq hP hle]
  dsimp only
  refine ⟨Side.forall_update (Q := fun side (crypter : Crypter) => crypter.writeKey = keys side) h.writeKey ?_,
    Side.forall_update (Q := fun side (crypter : Crypter) => crypter.readKey = keys side.other) h.readKey ?_,
    fun side' => ?_,
    Side.forall_update (Q := fun side (crypter : Crypter) => crypter.readSequence = (tunnel.received side).length)
      h.readSequence ?_, Side.forall_update (Q := fun _ (sent : List Bytes) => sent.length ≤ 2 ^ 24) h.limit ?_,
    fun side' => ?_, fun side' => ?_, fun entry hentry => ?_, ?_⟩
  · exact h.writeKey side
  · exact h.readKey side
  · dsimp only
    by_cases hs : side' = side
    · subst hs
      rw [Function.update_self, Function.update_self, List.length_append, ← h.writeSequence]
      rfl
    · rw [Function.update_of_ne hs, Function.update_of_ne hs]
      exact h.writeSequence side'
  · exact h.readSequence side
  · rw [List.length_append, ← h.writeSequence, List.length_singleton]
    rw [kMaxSequence] at hle
    omega
  · dsimp only
    by_cases hs : side'.other = side
    · subst hs
      rw [Function.update_self]
      exact (h.received side').trans (List.prefix_append _ _)
    · rw [Function.update_of_ne hs]
      exact h.received side'
  · dsimp only
    by_cases hs : side' = side
    · subst hs
      rw [Function.update_self, Function.update_self, List.mapIdx_concat, ← h.ciphertexts, h.writeKey,
        h.writeSequence]
    · rw [Function.update_of_ne hs, Function.update_of_ne hs]
      exact h.ciphertexts side'
  · dsimp only
    rcases List.mem_cons.mp hentry with rfl | hentry
    · refine ⟨side, (tunnel.sent side).length, by rw [h.writeKey, h.writeSequence], ?_⟩
      rw [Function.update_self, ← hlength, List.getElem?_concat_length]
    · obtain ⟨sender, index, heq, hciphertext⟩ := h.sealed entry hentry
      refine ⟨sender, index, heq, ?_⟩
      by_cases hs : sender = side
      · subst hs
        rw [Function.update_self, List.getElem?_append_left (List.getElem?_eq_some_iff.mp hciphertext).1]
        exact hciphertext
      · rw [Function.update_of_ne hs]
        exact hciphertext
  · refine List.nodup_cons.mpr ⟨fun hmem => ?_, h.nodup⟩
    obtain ⟨entry, hentry, heq⟩ := List.mem_map.mp hmem
    obtain ⟨sender, index, hpair, hciphertext⟩ := h.sealed entry hentry
    obtain ⟨hkey, hnonce⟩ := Prod.mk.inj (hpair.symm.trans heq)
    rw [h.writeKey] at hkey
    obtain rfl := side_eq hkeys hkey
    have hindex := Crypter.nonce_inj (h.index_le hciphertext) hle hnonce
    have hlt := (List.getElem?_eq_some_iff.mp hciphertext).1
    rw [hlength, ← h.writeSequence] at hlt
    omega

/-- So does a delivery. -/
lemma deliver (hP : P.Lawful) (hkeys : keys .initiator ≠ keys .responder) {side : Side} {ciphertext : Bytes}
    (hunforged : tunnel.Unforged P side ciphertext) : Sound P keys (tunnel.deliver P side ciphertext) := by
  by_cases hexpected : (tunnel.ciphertexts side.other)[(tunnel.received side).length]? = some ciphertext
  case neg =>
    have hsame : tunnel.deliver P side ciphertext = tunnel := by
      rw [Tunnel.deliver, h.decrypt_rejected hkeys hunforged hexpected]
      dsimp only
      rw [Function.update_eq_self]
    rw [hsame]
    exact h
  obtain ⟨plaintext, hplaintext, hdecrypt⟩ := h.decrypt_expected hP hexpected
  rw [Tunnel.deliver, hdecrypt]
  dsimp only
  refine ⟨Side.forall_update (Q := fun side (crypter : Crypter) => crypter.writeKey = keys side) h.writeKey ?_,
    Side.forall_update (Q := fun side (crypter : Crypter) => crypter.readKey = keys side.other) h.readKey ?_,
    Side.forall_update (Q := fun side (crypter : Crypter) => crypter.writeSequence = (tunnel.sent side).length)
      h.writeSequence ?_, fun side' => ?_, h.limit,
    Side.forall_update
      (Q := fun side (received : List Bytes) => received.IsPrefix (tunnel.sent side.other)) h.received ?_,
    h.ciphertexts, h.sealed, h.nodup⟩
  · exact h.writeKey side
  · exact h.readKey side
  · exact h.writeSequence side
  · dsimp only
    by_cases hs : side' = side
    · subst hs
      rw [Function.update_self, Function.update_self, List.length_append, ← h.readSequence]
      rfl
    · rw [Function.update_of_ne hs, Function.update_of_ne hs]
      exact h.readSequence side'
  · obtain ⟨rest, hrest⟩ := h.received side
    rw [← hrest] at hplaintext ⊢
    rw [List.getElem?_append_right le_rfl, Nat.sub_self] at hplaintext
    cases rest with
    | nil => cases hplaintext
    | cons first rest =>
      rw [List.getElem?_cons_zero, Option.some.injEq] at hplaintext
      rw [hplaintext]
      exact ⟨rest, (List.append_cons _ _ _).symm⟩

omit h in
/-- It holds after the handshake. -/
lemma of_start {initiator responder : Crypter}
    (hwrite : ∀ side, ((start initiator responder).crypter side).writeKey = keys side)
    (hread : ∀ side, ((start initiator responder).crypter side).readKey = keys side.other)
    (hnew : ∀ side, ((start initiator responder).crypter side).readSequence = 0 ∧
      ((start initiator responder).crypter side).writeSequence = 0) : Sound P keys (start initiator responder) where
  writeKey := hwrite
  readKey := hread
  writeSequence side := (hnew side).2
  readSequence side := (hnew side).1
  limit _ := Nat.zero_le _
  received _ := List.prefix_rfl
  ciphertexts _ := rfl
  sealed _ hentry := absurd hentry List.not_mem_nil
  nodup := List.nodup_nil

end Sound

/-- **Runs** keep what holds. -/
theorem Reached.sound (hP : P.Lawful) (hkeys : keys .initiator ≠ keys .responder) {initiator responder : Crypter}
    (hstart : Sound P keys (Tunnel.start initiator responder)) (h : Reached P initiator responder tunnel) :
    Sound P keys tunnel := by
  induction h with
  | start => exact hstart
  | encrypt side plaintext _ ih => exact ih.encrypt hP hkeys side plaintext
  | deliver side ciphertext _ hunforged ih => exact ih.deliver hP hkeys hunforged

end Tunnel

/-! ### The handshake and the channel -/

/-- **The ends of a tunnel agree and the channel is exact.** Only an end with the same key and identity answers; its
answer is taken, with the same hash and the keys the other way round; and with different keys for the two directions
the channel is exact in every run. -/
theorem tunnel_ends_agree {Key : Type} {P : Primitives Key} (hP : P.Lawful) {psk psk' identity' : Bytes}
    {identity ephemeral : Key} {generated : Option Key} {answer : HandshakeResult × Bytes}
    (hapart : P.KeepApart psk (P.publicKeyX962 identity) psk' identity' (P.publicKeyX962 ephemeral))
    (hanswer : respondToHandshake P psk' identity' generated
      (buildInitialMessage P { psk, localIdentity := identity } (some ephemeral)).2 = some answer) :
    psk' = psk ∧ identity' = P.publicKeyX962 identity ∧
      ∀ result, (processResponse P (buildInitialMessage P { psk, localIdentity := identity } (some ephemeral)).1
          answer.2).1 = some result →
        result.handshakeHash = answer.1.handshakeHash ∧ result.crypter.readKey = answer.1.crypter.writeKey ∧
          result.crypter.writeKey = answer.1.crypter.readKey ∧
          (result.crypter.readKey ≠ result.crypter.writeKey → ∀ tunnel,
            Tunnel.Reached P result.crypter answer.1.crypter tunnel → Tunnel.Exact P tunnel) := by
  obtain ⟨rfl, rfl⟩ := respondToHandshake_rejects hP hapart hanswer
  refine ⟨rfl, rfl, fun result hresult => ?_⟩
  obtain ⟨other, rfl⟩ : ∃ other, generated = some other := by
    cases generated with
    | none =>
      rw [respondToHandshake] at hanswer
      split_ifs at hanswer
    | some other => exact ⟨other, rfl⟩
  obtain rfl := Option.some.inj ((handshake_agrees hP hanswer).symm.trans hresult)
  refine ⟨rfl, rfl, rfl, fun hkeys tunnel h => ?_⟩
  have hnew := respondToHandshake_crypter hP hanswer
  have hstart : Tunnel.Sound P (Side.rec answer.1.crypter.readKey answer.1.crypter.writeKey)
      (Tunnel.start { readKey := answer.1.crypter.writeKey, writeKey := answer.1.crypter.readKey }
        answer.1.crypter) := by
    refine Tunnel.Sound.of_start (fun side => ?_) (fun side => ?_) fun side => ?_
    · cases side <;> rfl
    · cases side <;> rfl
    · cases side
      · exact ⟨rfl, rfl⟩
      · exact hnew
  exact (h.sound hP hkeys.symm hstart).exact hP hkeys.symm

/-! ### An example -/

/-- A tag that is made of the nonce and the key. -/
def sampleTag (key nonce additionalData : Bytes) : Bytes :=
  (nonce.reverse ++ key ++ additionalData ++ List.replicate 16 0).take 16

lemma length_sampleTag (key nonce additionalData : Bytes) : (sampleTag key nonce additionalData).length = 16 := by
  rw [sampleTag, List.length_take, List.length_append, List.length_replicate]
  omega

/-- Primitives that are easy to compute: a digest is the end of the data, a derived key is the secret filled up, and
points are multiplied byte by byte. -/
def samplePrimitives : Primitives ℕ where
  sha256Digest data := (data.reverse ++ List.replicate 32 0).take 32
  hkdfSha256 outLength secret _ := (secret ++ (List.range outLength).map UInt8.ofNat).take outLength
  aesGcmSeal key nonce plaintext additionalData := plaintext ++ sampleTag key nonce additionalData
  aesGcmOpen key nonce ciphertext additionalData :=
    if ciphertext.drop (ciphertext.length - 16) = sampleTag key nonce additionalData then
      some (ciphertext.take (ciphertext.length - 16))
    else none
  publicKeyX962 key := List.replicate kP256X962Length (UInt8.ofNat key)
  ecdhSharedX key point := some (List.replicate 32 (UInt8.ofNat key * point.headD 0))

lemma samplePrimitives_lawful : samplePrimitives.Lawful where
  sha256Digest_length data := by simp [samplePrimitives]
  publicKeyX962_length key := List.length_replicate
  aesGcmSeal_length key nonce plaintext additionalData := by simp [samplePrimitives, length_sampleTag]
  aesGcmOpen_seal key nonce plaintext additionalData := by simp [samplePrimitives, length_sampleTag]
  ecdhSharedX_comm key other := by
    change some (List.replicate 32 (UInt8.ofNat key * UInt8.ofNat other)) =
      some (List.replicate 32 (UInt8.ofNat other * UInt8.ofNat key))
    rw [UInt8.mul_comm]

lemma samplePrimitives_keepApart (psk identity point : Bytes) :
    samplePrimitives.KeepApart psk identity psk identity point where
  unforged _ _ := ⟨rfl, rfl⟩
  collisionFree := by
    simp only [hashedFirst, List.zip_cons_cons, List.zip_nil_right, List.mem_cons, List.not_mem_nil, or_false]
    rintro hashed (rfl | rfl | rfl) - <;> rfl
  derived _ _ := rfl

/-- A handshake and a message after it. -/
theorem sample_ends_agree :
    ∃ (answer : HandshakeResult × Bytes) (result : HandshakeResult), respondToHandshake samplePrimitives [1, 2, 3]
      (samplePrimitives.publicKeyX962 5) (some 9)
        (buildInitialMessage samplePrimitives { psk := [1, 2, 3], localIdentity := 5 } (some 7)).2 = some answer ∧
      result.handshakeHash = answer.1.handshakeHash ∧
      Tunnel.Exact samplePrimitives
        ((Tunnel.start result.crypter answer.1.crypter).encrypt samplePrimitives .initiator [10, 20, 30]) := by
  obtain ⟨answer, hanswer⟩ : ∃ answer, respondToHandshake samplePrimitives [1, 2, 3]
      (samplePrimitives.publicKeyX962 5) (some 9)
      (buildInitialMessage samplePrimitives { psk := [1, 2, 3], localIdentity := 5 } (some 7)).2 = some answer :=
    handshake_succeeds samplePrimitives_lawful rfl rfl
  have hresult := handshake_agrees samplePrimitives_lawful hanswer
  obtain ⟨-, -, hagree⟩ := tunnel_ends_agree samplePrimitives_lawful (samplePrimitives_keepApart _ _ _) hanswer
  obtain ⟨hhash, -, -, hexact⟩ := hagree _ hresult
  rw [buildInitialMessage_eq] at hanswer
  obtain ⟨-, sharedEe, sharedSe, -, -, hkeys⟩ :=
    (respondToHandshake_spec (samplePrimitives_lawful.publicKeyX962_length 7) answer).mp hanswer
  rw [← buildInitialMessage_eq] at hanswer
  refine ⟨answer, _, hanswer, hhash, hexact ?_ _ (Tunnel.Reached.start.encrypt .initiator [10, 20, 30])⟩
  rw [hkeys]
  change ((List.range 64).map UInt8.ofNat |>.take 64 |>.drop 32 |>.take 32) ≠
    ((List.range 64).map UInt8.ofNat |>.take 64 |>.take 32)
  decide

end Passkey
