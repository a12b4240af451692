import Telegravim.E2E.Chat

set_option autoImplicit false

/-!
# Encrypted chat: envelopes

The text of a frame has nine parts between full stops. A frame that was sealed is taken apart
into the parts it was made of, and opens only to what was sealed in it, when the cipher is
authentic.

## Main definitions

* `E2E.Crypto.Authentic` — a ciphertext opens to nothing but the text it was made from.

## Main results

* `E2E.sealFrame_inv`, `E2E.openFrame_inv` — what a sealed and an opened frame are made of.
* `E2E.split_sealFrame` — the nine parts of a sealed frame.
* `E2E.openFrame_sealFrame` — a sealed frame opens to its kind, number and text.
-/

namespace E2E

open Text

variable {S : Session}

/-! ### Sealed frames -/

/-- What a sealed frame is made of. -/
lemma sealFrame_inv {peerId : PeerId} {kind : Kind} {plaintext active frame : Text}
    {identity : Identity} {peerKey : Bytes} {sequence : ℕ} {nonce : Option (RandomBytes 12)}
    (h : sealFrame S peerId kind plaintext identity active peerKey sequence nonce = some frame) :
    ∃ (drawn : RandomBytes 12) (symmetric encrypted : Bytes), nonce = some drawn ∧
      symmetric = deriveKey S.crypto identity.privateKey identity.publicKey peerKey S.userId
        (peerToUser peerId) true ∧
      encrypted = aesGcmEncrypt S.crypto symmetric drawn.val (Utf8.toUtf8 plaintext)
        (Utf8.toUtf8 (header S kind peerId identity.publicKey active sequence)) ∧
      encrypted ≠ [] ∧
      frame = header S kind peerId identity.publicKey active sequence
        ++ u "." ++ base64Text drawn.val ++ u "." ++ base64Text encrypted := by
  unfold sealFrame at h
  cases hl : loadPrivate S.crypto identity.privateKey with
  | none => simp [hl] at h
  | some loaded =>
    cases nonce with
    | none => simp [hl] at h
    | some drawn =>
      simp only [hl] at h
      split at h
      · exact absurd h (by simp)
      · rename_i hne
        exact ⟨drawn, _, _, rfl, rfl, rfl, fun he => hne (Or.inr he), (Option.some.inj h).symm⟩

lemma sealFrame_ne_nil {peerId : PeerId} {kind : Kind} {plaintext active frame : Text}
    {identity : Identity} {peerKey : Bytes} {sequence : ℕ} {nonce : Option (RandomBytes 12)}
    (h : sealFrame S peerId kind plaintext identity active peerKey sequence nonce = some frame) :
    frame ≠ [] := by
  obtain ⟨drawn, symmetric, encrypted, -, -, -, -, rfl⟩ := sealFrame_inv h
  simp [header, kEnvelopePrefix, u, utf16]

lemma not_dot_mem_decimal (n : ℕ) : (46 : UInt16) ∉ decimal n := fun h =>
  absurd (mem_decimal h).1 (by decide)

lemma not_dot_mem_base64Text (bytes : Bytes) : (46 : UInt16) ∉ base64Text bytes := fun h =>
  (mem_base64Text h).1 rfl

lemma not_dot_mem_fingerprintFor (C : Crypto) (key : Bytes) :
    (46 : UInt16) ∉ fingerprintFor C key := by
  intro h
  obtain ⟨c, hc, hupper⟩ := List.mem_map.mp h
  obtain ⟨b, hb, rfl⟩ := List.mem_map.mp hc
  obtain ⟨d, -, hd⟩ := List.mem_flatMap.mp hb
  have hdigit : ∀ n < 16, (if 97 ≤ UInt16.ofNat (hexDigit n).toNat ∧
      UInt16.ofNat (hexDigit n).toNat ≤ 122 then UInt16.ofNat (hexDigit n).toNat - 32
      else UInt16.ofNat (hexDigit n).toNat) ≠ 46 := by decide
  have hlt : d.toNat < 256 := d.toNat_lt
  rcases List.mem_pair.mp hd with rfl | rfl
  · exact hdigit (d.toNat / 16) (by omega) hupper
  · exact hdigit (d.toNat % 16) (Nat.mod_lt _ (by omega)) hupper

lemma not_dot_mem_text (kind : Kind) : (46 : UInt16) ∉ kind.text := by
  cases kind <;> decide

/-- The text of a frame as its nine parts. -/
lemma frame_eq_join (kind : Kind) (peerId : PeerId) (localKey : Bytes) (active : Text)
    (sequence : ℕ) (nonce encrypted : Bytes) :
    header S kind peerId localKey active sequence
        ++ u "." ++ base64Text nonce ++ u "." ++ base64Text encrypted =
      join 46 [u "TVE2", kind.text, decimal S.userId, decimal (peerToUser peerId),
        fingerprintFor S.crypto localKey, active, decimal sequence, base64Text nonce,
        base64Text encrypted] := by
  have hdot : u "." = [46] := rfl
  have hdotted : kEnvelopePrefix = u "TVE2" ++ [46] := rfl
  simp only [header, hdot, hdotted, join, List.intercalate, List.intersperse,
    List.flatten_cons, List.flatten_nil, List.append_assoc, List.append_nil, List.cons_append,
    List.nil_append]

/-- The nine parts of a text made like a frame. -/
lemma split_frame (kind : Kind) (peerId : PeerId) (localKey : Bytes) {active : Text}
    (hactive : (46 : UInt16) ∉ active) (sequence : ℕ) (nonce encrypted : Bytes) :
    split (header S kind peerId localKey active sequence
        ++ u "." ++ base64Text nonce ++ u "." ++ base64Text encrypted) 46 =
      [u "TVE2", kind.text, decimal S.userId, decimal (peerToUser peerId),
        fingerprintFor S.crypto localKey, active, decimal sequence, base64Text nonce,
        base64Text encrypted] := by
  rw [frame_eq_join, split_join _ (by simp)]
  intro part hpart
  simp only [List.mem_cons, List.not_mem_nil, or_false] at hpart
  rcases hpart with rfl | rfl | rfl | rfl | rfl | rfl | rfl | rfl | rfl
  · decide
  · exact not_dot_mem_text kind
  · exact not_dot_mem_decimal _
  · exact not_dot_mem_decimal _
  · exact not_dot_mem_fingerprintFor _ _
  · exact hactive
  · exact not_dot_mem_decimal _
  · exact not_dot_mem_base64Text _
  · exact not_dot_mem_base64Text _

/-- **The nine parts of a sealed frame.** -/
theorem split_sealFrame {peerId : PeerId} {kind : Kind} {plaintext active frame : Text}
    {identity : Identity} {peerKey : Bytes} {sequence : ℕ} {nonce : Option (RandomBytes 12)}
    (hactive : (46 : UInt16) ∉ active)
    (h : sealFrame S peerId kind plaintext identity active peerKey sequence nonce = some frame) :
    ∃ nonceText cipherText, split frame 46 =
      [u "TVE2", kind.text, decimal S.userId, decimal (peerToUser peerId),
        fingerprintFor S.crypto identity.publicKey, active, decimal sequence, nonceText,
        cipherText] := by
  obtain ⟨drawn, symmetric, encrypted, -, -, -, -, rfl⟩ := sealFrame_inv h
  exact ⟨_, _, split_frame kind peerId identity.publicKey hactive sequence _ _⟩

/-! ### Opened frames -/

lemma Kind.ofText_text (kind : Kind) : Kind.ofText kind.text = some kind := by
  cases kind <;> decide

lemma Kind.text_of_ofText {text : Text} {kind : Kind} (h : Kind.ofText text = some kind) :
    text = kind.text := by
  unfold Kind.ofText at h
  split_ifs at h with h1 h2 h3 h4 <;> (obtain rfl := Option.some.inj h; assumption)

/-- What a decrypted frame was made of. -/
lemma decryptFrame_inv {identity : Identity} {keys : OrdMap Text Key} {remoteId : ℕ}
    {outgoing : Bool} {envelope : Text} {decrypted : Decrypted}
    (h : decryptFrame S identity keys remoteId outgoing envelope = some decrypted) :
    ∃ record nonce ciphertext, ∃ senderKey recipientKey,
      split envelope 46 = [u "TVE2", decrypted.kind.text,
        decimal (if outgoing then S.userId else remoteId),
        decimal (if outgoing then remoteId else S.userId), senderKey, recipientKey,
        decimal decrypted.sequence, base64Text nonce, base64Text ciphertext] ∧
      decrypted.fingerprint = (if outgoing then recipientKey else senderKey) ∧
      (if outgoing then senderKey else recipientKey) =
        fingerprintFor S.crypto identity.publicKey ∧
      keys.find decrypted.fingerprint = some record ∧
      aesGcmDecrypt S.crypto (deriveKey S.crypto identity.privateKey identity.publicKey
        record.publicKey S.userId remoteId outgoing) nonce ciphertext
        (Utf8.toUtf8 (envelope.take (envelope.length - (base64Text nonce).length
          - (base64Text ciphertext).length - 2))) = some decrypted.bytes ∧
      0 < decrypted.sequence ∧ decrypted.sequence ≤ kMaxNumber := by
  unfold decryptFrame at h
  split at h
  swap
  · exact absurd h (by simp)
  rename_i version kindText senderText recipientText senderKey recipientKey sequenceText nonceText
    cipherText hsplit
  simp only [Option.bind_eq_bind, Option.bind_eq_some_iff] at h
  obtain ⟨kind, hkind, sender, hsender, recipient, hrecipient, sequence, hsequence, h⟩ := h
  obtain ⟨hfields, h⟩ := Option.ite_none_left_eq_some.mp h
  simp only [Bool.or_eq_true, decide_eq_true_eq, not_or, not_not] at hfields
  obtain ⟨⟨⟨hversion, hs⟩, hr⟩, hlocal⟩ := hfields
  simp only [Option.bind_eq_some_iff] at h
  obtain ⟨record, hrecord, nonce, hnonce, ciphertext, hciphertext, h⟩ := h
  obtain ⟨-, h⟩ := Option.ite_none_left_eq_some.mp h
  simp only [Option.bind_eq_some_iff] at h
  obtain ⟨loaded, -, bytes, hbytes, h⟩ := h
  obtain rfl := Option.some.inj h
  obtain ⟨hseq, hle, h0⟩ := number_eq_some_iff.mp hsequence
  have hn := base64_eq_some_iff.mp hnonce
  have hc := base64_eq_some_iff.mp hciphertext
  refine ⟨record, nonce, ciphertext, senderKey, recipientKey, ?_, rfl, hlocal, hrecord, ?_,
    Nat.pos_of_ne_zero fun h => by simpa using h0 h, hle⟩
  · rw [hsplit, hversion, Kind.text_of_ofText hkind, (number_eq_some_iff.mp hsender).1, hs,
      (number_eq_some_iff.mp hrecipient).1, hr, hseq, hn, hc]
  · rw [← hn, ← hc]; exact hbytes

/-- What an opened frame was made of. -/
lemma openFrame_inv {identity : Identity} {keys : OrdMap Text Key} {remoteId : ℕ}
    {outgoing : Bool} {envelope : Text} {frame : Frame}
    (h : openFrame S identity keys remoteId outgoing envelope = some frame) :
    ∃ record nonce ciphertext decoded, ∃ senderKey recipientKey,
      split envelope 46 = [u "TVE2", frame.kind.text,
        decimal (if outgoing then S.userId else remoteId),
        decimal (if outgoing then remoteId else S.userId), senderKey, recipientKey,
        decimal frame.sequence, base64Text nonce, base64Text ciphertext] ∧
      frame.fingerprint = (if outgoing then recipientKey else senderKey) ∧
      (if outgoing then senderKey else recipientKey) =
        fingerprintFor S.crypto identity.publicKey ∧
      keys.find frame.fingerprint = some record ∧
      aesGcmDecrypt S.crypto (deriveKey S.crypto identity.privateKey identity.publicKey
        record.publicKey S.userId remoteId outgoing) nonce ciphertext
        (Utf8.toUtf8 (envelope.take (envelope.length - (base64Text nonce).length
          - (base64Text ciphertext).length - 2))) = some decoded ∧
      Utf8.decodeStateful decoded = some frame.plaintext ∧
      validPlaintext frame.kind frame.plaintext = true ∧
      0 < frame.sequence ∧ frame.sequence ≤ kMaxNumber := by
  simp only [openFrame, Option.bind_eq_bind, Option.bind_eq_some_iff] at h
  obtain ⟨decrypted, hdecrypted, plaintext, hplaintext, h⟩ := h
  obtain ⟨hvalid, h⟩ := Option.ite_none_left_eq_some.mp h
  obtain rfl := Option.some.inj h
  obtain ⟨record, nonce, ciphertext, senderKey, recipientKey, hsplit, hfingerprint, hlocal, hrecord,
    hbytes, hpos, hle⟩ := decryptFrame_inv hdecrypted
  exact ⟨record, nonce, ciphertext, decrypted.bytes, senderKey, recipientKey, hsplit, hfingerprint,
    hlocal, hrecord, hbytes, hplaintext, by simpa using hvalid, hpos, hle⟩

/-- A ciphertext opens to nothing but the text it was made from, whatever key it is opened
with. -/
def Crypto.Authentic (C : Crypto) : Prop :=
  ∀ key key' nonce plaintext aad result,
    C.gcmDecrypt key' nonce (C.gcmEncrypt key nonce plaintext aad) aad = some result →
      result = plaintext

/-- A library that hides nothing: a public key repeats the private one, a digest is the start of
the text, and a ciphertext is the text with an empty tag. -/
def Crypto.plain : Crypto where
  sha256 bytes := (bytes ++ List.replicate 32 0).take 32
  loadPrivate bytes := some (4 :: bytes ++ bytes)
  onCurve _ := true
  ecdh _ _ := some (List.replicate 32 0)
  hkdf _ _ := List.replicate 32 0
  gcmEncrypt _ _ plaintext _ := plaintext ++ List.replicate kTagSize 0
  gcmDecrypt _ _ ciphertext _ := some (ciphertext.take (ciphertext.length - kTagSize))
  sha256_length bytes := by simp

lemma Crypto.plain_authentic : Crypto.plain.Authentic := by
  intro key key' nonce plaintext aad result h
  obtain rfl := Option.some.inj h
  simp [Crypto.plain]

/-- The key pair of a private key under `Crypto.plain`. -/
def plainPair (fill : UInt8) : KeyPair Crypto.plain :=
  ⟨⟨List.replicate 32 fill, 4 :: List.replicate 32 fill ++ List.replicate 32 fill⟩,
    by simp [kPrivateKeySize], by simp [kPublicKeySize], rfl⟩

/-- Twelve zeros are a nonce. -/
lemma length_zeroNonce : (List.replicate 12 (0 : UInt8)).length = 12 := rfl

/-- The header of a frame is what stands before its last two parts. -/
lemma take_frame (head nonceText cipherText : Text) :
    (head ++ u "." ++ nonceText ++ u "." ++ cipherText).take
      ((head ++ u "." ++ nonceText ++ u "." ++ cipherText).length - nonceText.length
        - cipherText.length - 2) = head := by
  have hlen : (head ++ u "." ++ nonceText ++ u "." ++ cipherText).length - nonceText.length
      - cipherText.length - 2 = head.length := by
    have hdot : (u ".").length = 1 := rfl
    simp only [List.length_append, hdot]
    omega
  rw [hlen, List.append_assoc, List.append_assoc, List.append_assoc, List.take_left]

/-- **A sealed frame opens to what was sealed**: its kind, sender, recipient, keys, number and
the text it decodes to. -/
theorem openFrame_sealFrame {T : Session} {peerId : PeerId} {kind : Kind}
    {plaintext active envelope : Text} {identity identity' : Identity} {peerKey : Bytes}
    {sequence remoteId : ℕ} {nonce : Option (RandomBytes 12)} {keys : OrdMap Text Key}
    {outgoing : Bool} {frame : Frame}
    (hcrypto : T.crypto = S.crypto) (hauthentic : S.crypto.Authentic)
    (hactive : (46 : UInt16) ∉ active)
    (hseal : sealFrame T peerId kind plaintext identity active peerKey sequence nonce =
      some envelope)
    (hopen : openFrame S identity' keys remoteId outgoing envelope = some frame) :
    frame.kind = kind ∧ frame.sequence = sequence ∧
      T.userId = (if outgoing then S.userId else remoteId) ∧
      peerToUser peerId = (if outgoing then remoteId else S.userId) ∧
      frame.fingerprint =
        (if outgoing then active else fingerprintFor S.crypto identity.publicKey) ∧
      Utf8.decodeStateful (Utf8.toUtf8 plaintext) = some frame.plaintext := by
  obtain ⟨record, n, ciphertext, decoded, senderKey, recipientKey, hsplit, hfingerprint, -, -,
    hdecrypt, hdecode, -, -, -⟩ := openFrame_inv hopen
  obtain ⟨drawn, symmetric, encrypted, -, -, hencrypted, hne, henvelope⟩ := sealFrame_inv hseal
  have hparts := split_frame (S := T) kind peerId identity.publicKey hactive sequence drawn.val
    encrypted
  rw [← henvelope, hsplit] at hparts
  simp only [List.cons.injEq, and_true, true_and] at hparts
  obtain ⟨hkind, hsender, hrecipient, hsk, hrk, hseq, hn, hc⟩ := hparts
  have hkind' : frame.kind = kind := by
    have := congrArg Kind.ofText hkind
    rw [Kind.ofText_text, Kind.ofText_text] at this
    exact Option.some.inj this
  have hnonce : n = drawn.val := by
    have := congrArg base64 hn
    rw [base64_base64Text, base64_base64Text] at this
    exact Option.some.inj this
  have hcipher : ciphertext = encrypted := by
    have := congrArg base64 hc
    rw [base64_base64Text, base64_base64Text] at this
    exact Option.some.inj this
  refine ⟨hkind', decimal_injective hseq, (decimal_injective hsender).symm,
    (decimal_injective hrecipient).symm, ?_, ?_⟩
  · rw [hfingerprint, hsk, hrk, hcrypto]
  · subst hnonce hcipher
    have hhead : envelope.take (envelope.length - (base64Text drawn.val).length
        - (base64Text ciphertext).length - 2) =
        header T kind peerId identity.publicKey active sequence := by
      rw [henvelope, take_frame]
    rw [hhead, hencrypted] at hdecrypt
    unfold aesGcmEncrypt at hencrypted hdecrypt
    split_ifs at hencrypted hdecrypt
    · exact absurd hencrypted hne
    · obtain ⟨-, hdecrypt⟩ := Option.ite_none_left_eq_some.mp hdecrypt
      rw [hcrypto] at hdecrypt
      rw [← hauthentic _ _ _ _ _ _ hdecrypt]
      exact hdecode

end E2E
