import Telegravim.E2E.Android
import Telegravim.E2E.Run

set_option autoImplicit false

/-!
# Encrypted chat: the desktop and Android agree

The state of an account on the desktop, written the way Android keeps it, and every operation
of one platform against its counterpart on the other. With the same random draws and the same
library both leave corresponding states and return the same frames.

## Main definitions

* `E2E.toAndroid` — the Android state of an account of the desktop.
* `E2E.Corresponds` — corresponding states of the two platforms.

## Main results

* `E2E.encrypt_agrees`, `E2E.control_agrees` — sending.
* `E2E.trust_agrees`, `E2E.toggle_agrees`, `E2E.observeKey_agrees` — keys and modes.
-/

namespace E2E

open Text

/-! ### Corresponding states -/

def toReceipt (_ : ℕ) (receipt : Receipt) : Android.Receipt :=
  { id := integer receipt.messageId, digest := base64Text receipt.digest }

def toKey (_ : Text) (key : Key) : Android.Key where
  publicText := base64Text key.publicKey
  sent := decimal key.sent
  control := decimal key.control
  incoming := key.incoming.image decimal toReceipt
  outgoing := key.outgoing.image decimal toReceipt

def toPeer (_ : PeerId) (state : PeerState) : Android.Peer where
  keys := state.keys.mapValues toKey
  active := state.active
  requested := state.mode.requested
  ready := state.mode.ready
  changed := state.mode.keyChanged
  challenge := state.mode.challenge
  lastChallenge := state.mode.lastPeerChallenge

/-- The Android state of an account of the desktop. -/
def toAndroid (userId : ℕ) (account : Account) : Android.State where
  accountId := userId
  identity := account.identity
  peers := account.peers.image (fun id => decimal id.val) toPeer

variable (S : Session)

/-- Corresponding states of the two platforms, none of them failed closed. -/
structure Corresponds (w : World) (s : Android.State) : Prop where
  running : w.chat.failed = false
  noIdentity : w.chat.account.identity = none → w.chat.account.peers = ∅
  state : s = toAndroid S.userId w.chat.account

lemma decimal_val_injective : Function.Injective fun id : PeerId => decimal id.val :=
  fun _ _ h => Fin.ext (decimal_injective h)

lemma peer_toAndroid (userId : ℕ) (account : Account) (peerId : PeerId) :
    (toAndroid userId account).peer peerId.val = (account.peers.find peerId).map (toPeer peerId) :=
  OrdMap.find_image decimal_val_injective _ _

lemma putPeer_toAndroid (userId : ℕ) (account : Account) (peerId : PeerId) (state : PeerState) :
    (toAndroid userId account).putPeer peerId.val (toPeer peerId state) =
      toAndroid userId (account.setPeer peerId state) := by
  simp only [Android.State.putPeer, toAndroid, Account.setPeer,
    OrdMap.image_insert decimal_val_injective]

lemma find_keys_toPeer (peerId : PeerId) (state : PeerState) (fingerprint : Text) :
    (toPeer peerId state).keys.find fingerprint =
      (state.keys.find fingerprint).map (toKey fingerprint) :=
  OrdMap.find_mapValues _ _ _

lemma toPeer_setKey (peerId : PeerId) (state : PeerState) (fingerprint : Text) (key : Key) :
    toPeer peerId (state.setKey fingerprint key) =
      { toPeer peerId state with
        keys := (toPeer peerId state).keys.insert fingerprint (toKey fingerprint key) } := by
  simp [toPeer, PeerState.setKey]

lemma receipts_toKey (fingerprint : Text) (key : Key) (outgoing : Bool) :
    (toKey fingerprint key).receipts outgoing =
      (key.receipts outgoing).image decimal toReceipt := by
  cases outgoing <;> rfl

lemma find_receipts_toKey (fingerprint : Text) (key : Key) (outgoing : Bool) (sequence : ℕ) :
    ((toKey fingerprint key).receipts outgoing).find (decimal sequence) =
      ((key.receipts outgoing).find sequence).map (toReceipt sequence) := by
  rw [receipts_toKey, OrdMap.find_image decimal_injective]

/-! ### Fields -/

/-- Both platforms read the same numbers. -/
lemma android_number (value : Text) (zero : Bool) :
    Android.number value zero = number value zero := by
  unfold Android.number Android.parseLong number
  cases h : toULongLong value with
  | none => rfl
  | some n =>
    by_cases hmax : n < 2 ^ 63
    · have hle : ¬ kMaxNumber < n := by unfold kMaxNumber; omega
      rw [Option.filter_some, if_pos (by simpa using hmax)]
      cases zero <;> by_cases hzero : n = 0 <;> by_cases htext : decimal n = value <;>
        simp [hle, hzero, htext, Nat.one_le_iff_ne_zero]
    · have hlt : kMaxNumber < n := by unfold kMaxNumber; omega
      rw [Option.filter_some, if_neg (by simpa using hmax)]
      simp [hlt]

variable {S} (P : Android.Platform)

/-- Both platforms read the same Base64 texts. -/
lemma android_unbase64 (value : Text) : Android.unbase64 P value = base64 value := by
  have key : ∀ bytes, Android.unbase64 P value = some bytes ↔ base64 value = some bytes := by
    intro bytes
    rw [base64_eq_some_iff]
    simp only [Android.unbase64, Option.bind_eq_bind, Option.bind_eq_some_iff]
    constructor
    · rintro ⟨result, -, h⟩
      obtain ⟨htext, h⟩ := Option.ite_none_right_eq_some.mp h
      obtain rfl := Option.some.inj h
      exact htext.symm
    · rintro rfl
      exact ⟨bytes, P.base64Decode_encode bytes, by simp⟩
  exact Option.ext key

lemma android_validChallenge (value : Text) :
    Android.validChallenge P value = validChallenge value := by
  unfold Android.validChallenge validChallenge
  rw [android_unbase64]
  cases base64 value <;> rfl

/-- The last two characters of a text. -/
lemma exists_last_two {plain : Text} (hlen : 2 ≤ plain.length) :
    ∃ before x y, plain = before ++ [x, y] := by
  have hne : plain ≠ [] := fun h => by simp [h] at hlen
  obtain ⟨front, y, rfl⟩ : ∃ front y, plain = front ++ [y] :=
    ⟨_, _, (List.dropLast_append_getLast hne).symm⟩
  have hne' : front ≠ [] := fun h => by simp [h] at hlen
  refine ⟨front.dropLast, front.getLast hne', y, ?_⟩
  rw [List.append_cons front.dropLast, List.dropLast_append_getLast hne']

lemma isSuffixOf_last_two (before : Text) (x y d : UInt16) :
    List.isSuffixOf [58, d] (before ++ [x, y]) = (x = 58 && y = d) := by
  simp only [List.isSuffixOf, List.reverse_append, List.reverse_cons, List.reverse_nil,
    List.nil_append, List.cons_append, List.isPrefixOf, Bool.and_true]
  rw [Bool.and_comm]
  congr 1 <;> exact decide_eq_decide.mpr eq_comm

/-- Both platforms read the same confirmation in an acknowledgment. -/
lemma android_confirms {plain : Text} (h : validPlaintext .ack plain = true) :
    (u ":1").isSuffixOf plain = ackConfirms plain := by
  simp only [validPlaintext, Bool.and_eq_true, decide_eq_true_eq] at h
  obtain ⟨⟨⟨hlen, hcolon⟩, -⟩, -⟩ := h
  obtain ⟨before, x, y, rfl⟩ := exists_last_two hlen
  have hx : x = 58 := by simpa using hcolon
  rw [show u ":1" = [58, 49] from rfl, isSuffixOf_last_two]
  simp [ackConfirms, hx]

/-- Both platforms require the same form of the texts. -/
lemma android_validPlain (kind : Kind) (plain : Text) :
    Android.validPlain P kind plain = validPlaintext kind plain := by
  cases kind with
  | msg => rfl
  | on => exact android_validChallenge P plain
  | off => rfl
  | ack =>
    unfold Android.validPlain validPlaintext ackChallenge
    simp only [android_validChallenge]
    by_cases hlen : 2 ≤ plain.length
    · obtain ⟨before, x, y, rfl⟩ := exists_last_two hlen
      rw [show u ":0" = [58, 48] from rfl, show u ":1" = [58, 49] from rfl, isSuffixOf_last_two,
        isSuffixOf_last_two]
      cases before with
      | nil => simp [not_validChallenge_nil]
      | cons c before =>
        have hlast : (c :: before ++ [x, y]).getLast? = some y := by
          rw [List.append_cons, List.getLast?_concat]
        rw [hlast]
        by_cases hx : x = 58 <;> simp [hx]
    · simp [hlen, show ¬ 2 < plain.length by omega]

/-! ### Frames -/

/-- Sizes that the library guarantees: of a shared secret, of a derived key, and that a
ciphertext has a tag. -/
structure Crypto.Sized (C : Crypto) : Prop where
  ecdh : ∀ privateKey peerKey shared, C.ecdh privateKey peerKey = some shared →
    shared.length = 32
  hkdf : ∀ shared info, (C.hkdf shared info).length = 32
  gcmEncrypt : ∀ key nonce plaintext aad, C.gcmEncrypt key nonce plaintext aad ≠ []

/-- The desktop account with the library of a platform. -/
abbrev Android.Platform.session (userId : ℕ) : Session := ⟨P.crypto, userId⟩

lemma toLatin1_append (a b : Text) : toLatin1 (a ++ b) = toLatin1 a ++ toLatin1 b :=
  List.map_append

/-- Both platforms derive the same key, and fail together. -/
lemma android_derive (hsized : P.crypto.Sized) {userId peerId : ℕ} {identity : Identity}
    {peerKey : Bytes} (hkey : validPublicKey P.crypto peerKey = true) (outgoing : Bool) :
    Android.derive P userId identity peerKey peerId outgoing =
      (sharedSecret P.crypto identity.privateKey peerKey).map fun _ =>
        deriveKey P.crypto identity.privateKey identity.publicKey peerKey userId peerId outgoing := by
  unfold Android.derive deriveKey
  rw [if_neg (by simp [hkey])]
  cases hshared : sharedSecret P.crypto identity.privateKey peerKey with
  | none => rfl
  | some shared =>
    have hlength : shared.length = 32 := by
      unfold sharedSecret at hshared
      obtain ⟨-, hshared⟩ := Option.ite_none_left_eq_some.mp hshared
      exact hsized.ecdh _ _ _ hshared
    simp only [Option.bind_eq_bind, Option.bind_some, hlength, ne_eq, not_true_eq_false, if_false,
      Option.map_some, toLatin1_append, ← List.append_assoc]
    rfl

/-- Without a shared secret nothing is encrypted or decrypted. -/
lemma deriveKey_of_none {C : Crypto} {privateKey localPublic peerPublic : Bytes} {localId peerId : ℕ}
    {outgoing : Bool} (h : sharedSecret C privateKey peerPublic = none) :
    deriveKey C privateKey localPublic peerPublic localId peerId outgoing = [] := by
  simp [deriveKey, h]

/-- The wire text of a frame on Android is the sealed frame of the desktop. -/
lemma android_wireText (hsized : P.crypto.Sized) (userId : ℕ) (peerId : PeerId)
    {identity : Identity} (hidentity : ValidIdentity P.crypto identity) (active : Text)
    {record : Key} (hkey : validPublicKey P.crypto record.publicKey = true) (kind : Kind)
    (plain : Text) (sequence : ℕ) (nonce : RandomBytes 12) :
    Android.wireText P nonce userId identity (peerToUser peerId) kind.text plain active
        (toKey active record) sequence =
      sealFrame (P.session userId) peerId kind plain identity active record.publicKey sequence
        (some nonce) := by
  have hload : loadPrivate P.crypto identity.privateKey = some identity.publicKey := by
    unfold loadPrivate
    rw [if_neg (by simp [hidentity.privateKey])]
    exact hidentity.pair
  unfold Android.wireText sealFrame
  simp only [android_unbase64, toKey, base64_base64Text, Option.bind_eq_bind, Option.bind_some,
    android_derive P hsized hkey, Android.Platform.session, hload]
  cases hshared : sharedSecret P.crypto identity.privateKey record.publicKey with
  | none => simp [deriveKey_of_none hshared]
  | some shared =>
    have hne : deriveKey P.crypto identity.privateKey identity.publicKey record.publicKey userId
        (peerToUser peerId) true ≠ [] := by
      intro h
      simp only [deriveKey, hshared] at h
      have hlength := congrArg List.length h
      rw [hsized.hkdf shared] at hlength
      exact absurd hlength (by simp)
    simp only [Option.map_some, Option.bind_some, Android.cryptEncrypt, hne, false_or]
    split_ifs with hempty hempty'
    · rfl
    · exact absurd hempty hempty'
    · rename_i hempty'
      exact absurd hempty' hempty
    · rfl

/-! ### Sending -/

lemma save_succeeds {S : Session} {w : World} {identity : Identity} (hf : w.chat.failed = false)
    (hidentity : w.chat.account.identity = some identity) : (save S .done w).2 = true := by
  simp [save, hf, hidentity]

lemma identity_of_some {S : Session} {w : World} {identity : Identity}
    (hf : w.chat.failed = false) (hidentity : w.chat.account.identity = some identity)
    (draw : IdentityDraw S.crypto) : E2E.identity S draw w = (w, some identity) := by
  simp [E2E.identity, hf, hidentity]

/-- An account with a peer has an identity. -/
lemma Corresponds.identity {S : Session} {w : World} {s : Android.State} (h : Corresponds S w s)
    {peerId : PeerId} {state : PeerState} (hpeer : w.peer peerId = some state) :
    ∃ identity, w.chat.account.identity = some identity := by
  cases hidentity : w.chat.account.identity with
  | some identity => exact ⟨identity, rfl⟩
  | none =>
    rw [World.peer, h.noIdentity hidentity] at hpeer
    exact absurd hpeer (by simp)

/-- Replacing a peer on both platforms. -/
lemma Corresponds.putPeer {S : Session} {w w' : World} {s : Android.State}
    (h : Corresponds S w s) (hidentity : w.chat.account.identity ≠ none) {peerId : PeerId}
    {state : PeerState} {id : ℕ} (hid : id = peerId.val) {peer : Android.Peer} (hstate : peer = toPeer peerId state)
    (hchat : w'.chat = (w.setPeer peerId state).chat) :
    Corresponds S w' (s.putPeer id peer) := by
  subst hstate
  refine ⟨?_, ?_, ?_⟩
  · rw [hchat]; exact h.running
  · rw [hchat]
    exact fun hnone => absurd hnone hidentity
  · rw [hchat, hid, h.state, putPeer_toAndroid]
    rfl

/-- The record of the key in use after a frame was made for it, on both platforms. -/
lemma toKey_send {fingerprint : Text} {record : Key}
    (hrecord : record.outgoing.find (record.sent + 1) = none) (digest : Bytes) :
    toKey fingerprint (record.send digest) =
      { toKey fingerprint record with
        sent := decimal (record.sent + 1)
        outgoing := (toKey fingerprint record).outgoing.insert (decimal (record.sent + 1))
          { id := u "0", digest := base64Text digest } } := by
  have hzero : integer 0 = u "0" := by decide
  simp only [toKey, Key.send, OrdMap.emplace_of_find_eq_none hrecord,
    OrdMap.image_insert decimal_injective, toReceipt, hzero]

/-- A frame that was made has a text. -/
lemma encryptFrame_ne_nil {S : Session} {draw : FrameDraw S.crypto} {peerId : PeerId} {kind : Kind}
    {plain : Text} {w : World} {frame : Text}
    (h : (encryptFrame S draw peerId kind plain w).2 = some frame) : frame ≠ [] := by
  unfold encryptFrame at h
  simp only at h
  split at h
  swap
  · exact absurd h (by simp)
  split at h
  · exact absurd h (by simp)
  split at h
  · exact absurd h (by simp)
  split at h
  · exact absurd h (by simp)
  split at h
  · exact absurd h (by simp)
  rename_i result hseal
  split at h
  · obtain rfl := Option.some.inj h
    exact sealFrame_ne_nil hseal
  · exact absurd h (by simp)

/-- **`encryptFrame` and `encrypt`** make the same frame for a known peer. -/
theorem encrypt_agrees (hsized : P.crypto.Sized) {userId : ℕ} {w : World} {s : Android.State}
    (hw : ValidAccount P.crypto w.chat.account) (h : Corresponds (P.session userId) w s)
    (draw : IdentityDraw P.crypto) (nonce : RandomBytes 12) {peerId : ChatId} {state : PeerState}
    (hpeer : w.peer peerId.val = some state) (kind : Kind) (plain : Text) :
    Corresponds (P.session userId)
        (encryptFrame (P.session userId) ⟨draw, some nonce, .done⟩ peerId.val kind plain w).1
        (Android.encrypt P nonce (peerToUser peerId.val) kind.text plain s).1 ∧
      (encryptFrame (P.session userId) ⟨draw, some nonce, .done⟩ peerId.val kind plain w).2 =
        (Android.encrypt P nonce (peerToUser peerId.val) kind.text plain s).2 := by
  obtain ⟨identity, hidentity⟩ := h.identity hpeer
  have hvalid := hw.peers _ _ hpeer
  have hid := peerToUser_of_isUser hvalid.isUser
  have hpeer' : s.peer (peerToUser peerId.val) = some (toPeer peerId.val state) := by
    rw [h.state, hid, peer_toAndroid]
    exact congrArg (Option.map _) hpeer
  have hidentity' : s.identity = some identity := by rw [h.state]; exact hidentity
  have hfailed : s.failed = false := by rw [h.state]; rfl
  have haccount : s.accountId = userId := by rw [h.state]; rfl
  obtain ⟨record, hrecord⟩ := hvalid.active
  have hrecord' : (toPeer peerId.val state).keys.find (toPeer peerId.val state).active =
      some (toKey state.active record) := by
    rw [find_keys_toPeer]
    exact congrArg (Option.map _) hrecord
  have hkey := hvalid.keys _ _ hrecord
  have hsent : Android.number (toKey state.active record).sent true = some record.sent := by
    rw [android_number]
    exact number_decimal_zero hkey.sent_le
  have hentered := identity_of_some (S := P.session userId) h.running hidentity draw
  unfold encryptFrame Android.encrypt
  simp only [hentered, hpeer, hpeer', hidentity', hvalid.isUser, hfailed,
    hrecord, hrecord', hsent, haccount, Bool.not_true, Bool.false_or, Bool.false_eq_true, false_or]
  by_cases hchanged : state.mode.keyChanged = true
  · rw [if_pos hchanged, if_pos (show (toPeer peerId.val state).changed = true from hchanged)]
    exact ⟨h, rfl⟩
  · rw [if_neg hchanged, if_neg (show ¬ (toPeer peerId.val state).changed = true from hchanged)]
    by_cases hmax : kMaxNumber ≤ record.sent
    · rw [if_pos hmax, if_pos (show 2 ^ 63 - 1 ≤ record.sent from hmax)]
      exact ⟨h, rfl⟩
    · rw [if_neg hmax, if_neg (show ¬ 2 ^ 63 - 1 ≤ record.sent from hmax)]
      have hwire := android_wireText P hsized userId peerId.val (hw.identity _ hidentity)
        state.active hkey.publicKey kind plain (record.sent + 1) nonce
      rw [show (toPeer peerId.val state).active = state.active from rfl, hwire]
      cases hseal : sealFrame (P.session userId) peerId.val kind plain identity state.active
        record.publicKey (record.sent + 1) (some nonce) with
      | none => exact ⟨h, rfl⟩
      | some frame =>
        have hsaved := save_succeeds (S := P.session userId)
          (w := w.setPeer peerId.val (state.setKey state.active
            (record.send (digestOf (P.session userId) frame)))) h.running hidentity
        simp only [hsaved, if_true]
        refine ⟨?_, trivial⟩
        refine h.putPeer (by simp [hidentity]) hid ?_ (save_chat _ _)
        rw [toPeer_setKey, toKey_send (ValidKey.outgoing_next (S := P.session userId) hkey)]
        rfl

/-! ### Keys and modes -/

/-- `identity` and the effect of `invitation`. -/
lemma identity_agrees {userId : ℕ} {w : World} {s : Android.State}
    (h : Corresponds (P.session userId) w s) (pair : KeyPair P.crypto) :
    ∃ i, (identity (P.session userId) ⟨some pair, .done⟩ w).2 = some i ∧
      (identity (P.session userId) ⟨some pair, .done⟩ w).1.chat.account.identity = some i ∧
      (Android.invitation P pair s).2 = true ∧
      Corresponds (P.session userId) (identity (P.session userId) ⟨some pair, .done⟩ w).1
        (Android.invitation P pair s).1 := by
  have hs := h.state
  have hfailed : s.failed = false := by rw [hs]; rfl
  unfold Android.invitation
  rw [if_neg (by simp [hfailed])]
  cases hidentity : w.chat.account.identity with
  | some i =>
    have hentered := identity_of_some (S := P.session userId) h.running hidentity ⟨some pair, .done⟩
    have hidentity' : s.identity = some i := by rw [hs]; exact hidentity
    rw [hentered, hidentity']
    exact ⟨i, rfl, hidentity, rfl, h⟩
  | none =>
    have hidentity' : s.identity = none := by rw [hs]; exact hidentity
    have hpeers := h.noIdentity hidentity
    have hsaved := save_succeeds (S := P.session userId) (w := w.setIdentity (some pair.val))
      h.running rfl
    have hentered : identity (P.session userId) ⟨some pair, .done⟩ w =
        ((save (P.session userId) .done (w.setIdentity (some pair.val))).1, some pair.val) := by
      unfold identity
      rw [if_neg (by simp [h.running])]
      simp only [hidentity, hsaved, if_true]
    rw [hentered, hidentity']
    refine ⟨pair.val, rfl, by simp [World.setIdentity], rfl, ?_, ?_, ?_⟩
    · simpa [World.setIdentity] using h.running
    · simp [World.setIdentity]
    · rw [save_chat, hs]
      simp only [toAndroid, World.setIdentity, hpeers]
      rfl

/-- A key is replaced the same way on both platforms, unless the peer has another key with its
fingerprint. -/
lemma toPeer_replaceKey (peerId : PeerId) (state : PeerState) {fingerprint : Text}
    {publicKey : Bytes} (challenge : RandomBytes 16)
    (hdistinct : ∀ record, state.keys.find fingerprint = some record →
      record.publicKey = publicKey) :
    toPeer peerId (state.replaceKey fingerprint publicKey
        (drawChallenge state.mode.requested (some challenge))) =
      (toPeer peerId state).trustKey fingerprint publicKey challenge := by
  have hkeys : ((state.keys.insert fingerprint
      { (state.keys.find fingerprint).getD {} with publicKey }).mapValues toKey) =
      if (toPeer peerId state).keys.contains fingerprint then (toPeer peerId state).keys
        else (toPeer peerId state).keys.insert fingerprint
          { publicText := base64Text publicKey } := by
    rw [OrdMap.mapValues_insert]
    cases hfind : state.keys.find fingerprint with
    | none =>
      have hnone : (toPeer peerId state).keys.find fingerprint = none := by
        rw [find_keys_toPeer, hfind]; rfl
      rw [if_neg (by simp [OrdMap.contains, hnone])]
      have hkey : toKey fingerprint { (none : Option Key).getD {} with publicKey } =
          { publicText := base64Text publicKey } := by
        have hzero : decimal 0 = u "0" := by decide
        simp only [toKey, Option.getD_none, hzero]
        rfl
      rw [hkey]
      rfl
    | some record =>
      obtain rfl := hdistinct record hfind
      have hsome : (toPeer peerId state).keys.find fingerprint = some (toKey fingerprint record) := by
        rw [find_keys_toPeer, hfind]; rfl
      rw [if_pos (by simp [OrdMap.contains, hsome])]
      exact OrdMap.insert_find hsome
  unfold PeerState.replaceKey Android.Peer.trustKey
  simp only [toPeer, drawChallenge]
  rw [hkeys]
  rfl

/-- **`replacePeerKey` and `trust`** do the same, unless the peer has another key with the
fingerprint of the new one. -/
theorem trust_agrees {userId : ℕ} {w : World} {s : Android.State}
    (hw : Sound (P.session userId) w) (h : Corresponds (P.session userId) w s) (pair : KeyPair P.crypto)
      (challenge : RandomBytes 16)
    {peerId : ChatId} (isUser : peerIsUser peerId.val = true) (publicKey : Bytes)
    (hdistinct : ∀ state record, w.peer peerId.val = some state →
      state.keys.find (fingerprintFor P.crypto publicKey) = some record →
      record.publicKey = publicKey) :
    Corresponds (P.session userId)
        (replacePeerKey (P.session userId) ⟨⟨some pair, .done⟩, some challenge, .done⟩ peerId.val
          publicKey w).1
        (Android.trust P pair challenge (peerToUser peerId.val) publicKey s).1 ∧
      (replacePeerKey (P.session userId) ⟨⟨some pair, .done⟩, some challenge, .done⟩ peerId.val
          publicKey w).2 =
        (Android.trust P pair challenge (peerToUser peerId.val) publicKey s).2 := by
  have hid := peerToUser_of_isUser isUser
  have haccount : s.accountId = userId := by rw [h.state]; rfl
  have hbad : (peerId.val.val = 0 ∨ peerIsUser peerId.val = false
      ∨ peerToUser peerId.val = userId ∨ validPublicKey P.crypto publicKey = false) ↔
      (peerToUser peerId.val = 0 ∨ peerToUser peerId.val = s.accountId
        ∨ validPublicKey P.crypto publicKey = false) := by
    simp [isUser, hid, haccount]
  unfold replacePeerKey Android.trust
  by_cases hreject : peerToUser peerId.val = 0 ∨ peerToUser peerId.val = s.accountId
      ∨ validPublicKey P.crypto publicKey = false
  · rw [if_pos hreject, if_pos (hbad.mpr hreject)]
    exact ⟨h, rfl⟩
  · rw [if_neg hreject, if_neg fun hr => hreject (hbad.mp hr)]
    obtain ⟨i, hsome, hidentity, hinvited, hentered⟩ := identity_agrees P h pair
    have hpeer : (identity (P.session userId) ⟨some pair, .done⟩ w).1.peer peerId.val =
        w.peer peerId.val := by
      rw [World.peer, (identity_spec hw _).2.1]
      rfl
    simp only [hsome, hinvited, reduceCtorEq, if_false, Bool.true_eq_false]
    set w₁ := (identity (P.session userId) ⟨some pair, .done⟩ w).1
    set s₁ := (Android.invitation P pair s).1
    have hpeer' : s₁.peer (peerToUser peerId.val) =
        (w₁.peer peerId.val).map (toPeer peerId.val) := by
      rw [hentered.state, hid, peer_toAndroid]
      rfl
    have hchallenge : ∀ state : PeerState, ¬ (state.mode.requested = true ∧
        drawChallenge state.mode.requested (some challenge) = []) := by
      rintro state ⟨hrequested, hnil⟩
      have hvalid := validChallenge_newChallenge challenge
      rw [drawChallenge, if_pos hrequested] at hnil
      rw [hnil] at hvalid
      exact absurd hvalid (by simp [not_validChallenge_nil])
    have hsaved : ∀ state : PeerState,
        (save (P.session userId) .done (w₁.setPeer peerId.val state)).2 = true := fun state =>
      save_succeeds hentered.running hidentity
    have hput : ∀ (state : PeerState) (event : Event), (∀ record,
          state.keys.find (fingerprintFor P.crypto publicKey) = some record →
          record.publicKey = publicKey) →
        Corresponds (P.session userId)
          ((save (P.session userId) .done (w₁.setPeer peerId.val (state.replaceKey
            (fingerprintFor P.crypto publicKey) publicKey
            (drawChallenge state.mode.requested (some challenge))))).1.record event)
          (s₁.putPeer (peerToUser peerId.val) ((toPeer peerId.val state).trustKey
            (fingerprintFor P.crypto publicKey) publicKey challenge)) := fun state event hdistinct =>
      hentered.putPeer (by simp [hidentity]) hid
        (toPeer_replaceKey peerId.val state challenge hdistinct).symm (save_chat _ _)
    cases hfind : w₁.peer peerId.val with
    | none =>
      rw [hfind] at hpeer'
      rw [hpeer']
      simp only [Option.isSome_none, Bool.false_eq_true, false_and, if_false, Option.getD_none,
        hsaved, if_true, Option.map_none]
      exact ⟨hput {} _ (by simp), trivial⟩
    | some state =>
      rw [hfind] at hpeer'
      rw [hpeer']
      simp only [Option.isSome_some, true_and, Option.getD_some, hchallenge, if_false, hsaved,
        if_true, Option.map_some]
      by_cases hsame : state.active = fingerprintFor P.crypto publicKey ∧
          state.mode.keyChanged = false
      · rw [if_pos hsame, if_pos (show _ = (toPeer peerId.val state).active ∧
          (toPeer peerId.val state).changed = false from ⟨hsame.1.symm, hsame.2⟩)]
        exact ⟨hentered, rfl⟩
      · rw [if_neg hsame, if_neg (show ¬ (_ = (toPeer peerId.val state).active ∧
          (toPeer peerId.val state).changed = false) from fun h => hsame ⟨h.1.symm, h.2⟩)]
        exact ⟨hput state _ (hdistinct state · (hpeer ▸ hfind)), rfl⟩

/-- A message of the state, none when it is empty. -/
def nonempty (text : Text) : Option Text := if text = [] then none else some text

/-- **`stateMessage` and `control`** announce the same mode. -/
theorem control_agrees (hsized : P.crypto.Sized) {userId : ℕ} {w : World} {s : Android.State}
    (hw : ValidAccount P.crypto w.chat.account) (h : Corresponds (P.session userId) w s)
    (draw : IdentityDraw P.crypto) (nonce : RandomBytes 12) {peerId : ChatId} {state : PeerState}
    (hpeer : w.peer peerId.val = some state)
    (hleft : state.mode.requested = false → state.mode.challenge = []) :
    Corresponds (P.session userId)
        (stateMessage (P.session userId) ⟨draw, some nonce, .done⟩ peerId.val state.mode.requested w).1
        (Android.control P nonce (peerToUser peerId.val) s).1 ∧
      nonempty (stateMessage (P.session userId) ⟨draw, some nonce, .done⟩ peerId.val
          state.mode.requested w).2 =
        (Android.control P nonce (peerToUser peerId.val) s).2 := by
  have hvalid := hw.peers _ _ hpeer
  have hid := peerToUser_of_isUser hvalid.isUser
  have hpeer' : s.peer (peerToUser peerId.val) = some (toPeer peerId.val state) := by
    rw [h.state, hid, peer_toAndroid]
    exact congrArg (Option.map _) hpeer
  have hfailed : s.failed = false := by rw [h.state]; rfl
  have hplain : (if state.mode.requested = true then state.mode.challenge else []) =
      state.mode.challenge := by
    cases hrequested : state.mode.requested with
    | true => rfl
    | false => exact (hleft hrequested).symm
  have hkind : (if state.mode.requested = true then u "ON" else u "OFF") =
      (if state.mode.requested = true then Kind.on else Kind.off).text := by
    split_ifs <;> rfl
  obtain ⟨hnext, hsame⟩ := encrypt_agrees P hsized hw h draw nonce hpeer
    (if state.mode.requested = true then .on else .off) state.mode.challenge
  unfold stateMessage Android.control
  simp only [hpeer, hpeer', hfailed, Bool.false_eq_true, if_false, ne_eq, not_true_eq_false,
    false_or, hplain]
  rw [show (if (toPeer peerId.val state).requested = true then u "ON" else u "OFF") =
    (if state.mode.requested = true then Kind.on else Kind.off).text from hkind,
    show (toPeer peerId.val state).challenge = state.mode.challenge from rfl]
  by_cases hchanged : state.mode.keyChanged = true
  · rw [if_pos hchanged]
    obtain ⟨identity, hidentity⟩ := h.identity hpeer
    have hidentity' : s.identity = some identity := by rw [h.state]; exact hidentity
    have hnone : Android.encrypt P nonce (peerToUser peerId.val)
        (if state.mode.requested = true then Kind.on else Kind.off).text state.mode.challenge s =
          (s, none) := by
      unfold Android.encrypt
      simp only [hpeer', hidentity']
      rw [if_pos (Or.inr (show (toPeer peerId.val state).changed = true from hchanged))]
    rw [hnone]
    exact ⟨h, rfl⟩
  · rw [if_neg hchanged]
    refine ⟨hnext, ?_⟩
    rw [← hsame]
    cases hframe : (encryptFrame (P.session userId) ⟨draw, some nonce, .done⟩ peerId.val
      (if state.mode.requested = true then .on else .off) state.mode.challenge w).2 with
    | none => rfl
    | some frame => exact if_neg (encryptFrame_ne_nil hframe)

/-- The mode is switched and announced, as the menu of the desktop does. -/
def switchAndAnnounce (S : Session) (challenge : Option (RandomBytes 16)) (write : Write)
    (draw : FrameDraw S.crypto) (peerId : PeerId) (value : Bool) (w : World) :
    World × Option Text :=
  let switched := setEnabled S challenge write peerId value w
  if switched.2 then
    let message := stateMessage S draw peerId value switched.1
    (message.1, nonempty message.2)
  else (switched.1, none)

/-- **`setEnabled` with `stateMessage`, and `toggle`** do the same. -/
theorem toggle_agrees (hsized : P.crypto.Sized) {userId : ℕ} {w : World} {s : Android.State}
    (hw : Sound (P.session userId) w) (h : Corresponds (P.session userId) w s)
    (draw : IdentityDraw P.crypto) (challenge : RandomBytes 16) (nonce : RandomBytes 12)
    {peerId : ChatId} (isUser : peerIsUser peerId.val = true) (value : Bool) :
    Corresponds (P.session userId)
        (switchAndAnnounce (P.session userId) (some challenge) .done ⟨draw, some nonce, .done⟩
          peerId.val value w).1
        (Android.toggle P challenge nonce (peerToUser peerId.val) value s).1 ∧
      (switchAndAnnounce (P.session userId) (some challenge) .done ⟨draw, some nonce, .done⟩
          peerId.val value w).2 =
        (Android.toggle P challenge nonce (peerToUser peerId.val) value s).2 := by
  have hid := peerToUser_of_isUser isUser
  have hfailed : s.failed = false := by rw [h.state]; rfl
  have hpeer' : s.peer (peerToUser peerId.val) =
      (w.peer peerId.val).map (toPeer peerId.val) := by
    rw [h.state, hid, peer_toAndroid]
    rfl
  unfold switchAndAnnounce Android.toggle
  rw [hpeer']
  cases hpeer : w.peer peerId.val with
  | none =>
    have hnone : setEnabled (P.session userId) (some challenge) .done peerId.val value w =
        (w, false) := by
      unfold setEnabled
      rw [hpeer]
    rw [hnone]
    exact ⟨h, rfl⟩
  | some state =>
    obtain ⟨identity, hidentity⟩ := h.identity hpeer
    simp only [Option.map_some, hfailed, Bool.false_eq_true, false_or]
    by_cases hchanged : value = true ∧ state.mode.keyChanged = true
    · have hnone : setEnabled (P.session userId) (some challenge) .done peerId.val value w =
          (w, false) := by
        unfold setEnabled
        rw [hpeer]
        simp [hchanged.1, hchanged.2]
      rw [hnone, if_pos (show value = true ∧ (toPeer peerId.val state).changed = true from hchanged)]
      exact ⟨h, rfl⟩
    · rw [if_neg (show ¬ (value = true ∧ (toPeer peerId.val state).changed = true) from hchanged)]
      have hadvance := setEnabled_advance hw (some challenge) .done peerId.val value
      have hdraw : ¬ (value = true ∧ drawChallenge value (some challenge) = []) := by
        rintro ⟨hvalue, hnil⟩
        have hvalid := validChallenge_newChallenge challenge
        rw [drawChallenge, if_pos hvalue] at hnil
        rw [hnil] at hvalid
        exact absurd hvalid (by simp [not_validChallenge_nil])
      set next : PeerState :=
        { state with mode := state.mode.switch value (drawChallenge value (some challenge)) }
        with hnext
      have hsaved := save_succeeds (S := P.session userId) (w := w.setPeer peerId.val next)
        h.running hidentity
      have hswitched : setEnabled (P.session userId) (some challenge) .done peerId.val value w =
          ((save (P.session userId) .done (w.setPeer peerId.val next)).1.record
            (.enabled peerId.val value (drawChallenge value (some challenge))), true) := by
        unfold setEnabled
        rw [hpeer]
        simp only [h.running, Bool.false_or]
        rw [if_neg (by simpa using hchanged), if_neg hdraw, if_pos hsaved]
      rw [hswitched] at hadvance ⊢
      simp only [if_true]
      set w₁ := (save (P.session userId) .done (w.setPeer peerId.val next)).1.record
        (.enabled peerId.val value (drawChallenge value (some challenge)))
      obtain ⟨_, hadvance, -⟩ := hadvance
      have hchat : w₁.chat = (w.setPeer peerId.val next).chat := save_chat _ _
      have hpeer₁ : w₁.peer peerId.val = some next := by
        rw [World.peer, hchat]
        exact OrdMap.find_insert_self _ _ _
      have hcorresponds : Corresponds (P.session userId) w₁ (s.putPeer (peerToUser peerId.val)
          { toPeer peerId.val state with
            requested := value
            ready := false
            lastChallenge := []
            challenge := if value then base64Text challenge.val else [] }) :=
        h.putPeer (by simp [hidentity]) hid rfl hchat
      exact control_agrees P hsized hadvance.sound.valid hcorresponds draw nonce hpeer₁ fun hvalue => by
        have hvalue : value = false := hvalue
        simp [hnext, Mode.switch, drawChallenge, hvalue]

/-! ### Announced keys -/

/-- The notice of the desktop for what `observeKey` returns. -/
def keyNotice (C : Crypto) (control : Text) (outgoing : Bool) : Option Bool → Text
  | none => u "Invalid E2E public key message."
  | some changed =>
    let shown := (keyExchangeParts C control).elim [] fun parts =>
      u "\n\nPublic key:\n" ++ parts.1 ++ u "\n\nFingerprint:\n" ++ parts.2
    if outgoing then u "You sent your E2E public key."
    else if changed then
      u "Your contact's E2E key changed. Verify their fingerprint in Encryption keys before sending encrypted messages."
        ++ shown
    else
      u "Your contact sent an E2E public key. Verify the fingerprint through a trusted second channel, then enable encryption."
        ++ shown

/-- A key exchange message without blanks around it is read the same way. -/
lemma parsePublic_keyExchange {control : Text} (hexchange : isKeyExchange control = true)
    (htrim : Android.trim control = control) :
    (keyExchangeParts P.crypto control = none ∧ Android.parsePublic P control = none) ∨
    ∃ key bytes, keyExchangeParts P.crypto control = some (key, fingerprintFor P.crypto bytes) ∧
      Android.parsePublic P control = some bytes := by
  have hheader : (u "TVE2.KEY.").isPrefixOf control = true := hexchange
  unfold Android.parsePublic keyExchangeParts
  rw [htrim]
  simp only [hheader, if_true]
  rcases split control 46 with
    _ | ⟨_, _ | ⟨_, _ | ⟨key, _ | ⟨fingerprint, _ | ⟨_, _⟩⟩⟩⟩⟩
  · exact Or.inl ⟨rfl, rfl⟩
  · exact Or.inl ⟨rfl, rfl⟩
  · exact Or.inl ⟨rfl, rfl⟩
  · exact Or.inl ⟨rfl, rfl⟩
  · simp only [android_unbase64]
    cases hbytes : base64 key with
    | none => exact Or.inl ⟨rfl, rfl⟩
    | some bytes =>
      simp only [Option.bind_eq_bind, Option.bind_some, Option.mem_def, Option.some.injEq,
        forall_eq']
      by_cases hvalid : validPublicKey P.crypto bytes = true ∧
          fingerprint = fingerprintFor P.crypto bytes
      · obtain ⟨hkey, rfl⟩ := hvalid
        exact Or.inr ⟨key, bytes, if_neg (by simp [hkey]), if_pos ⟨hkey, rfl⟩⟩
      · refine Or.inl ⟨if_pos ?_, if_neg hvalid⟩
        cases hkey : validPublicKey P.crypto bytes with
        | false => rfl
        | true => simpa using fun heq => hvalid ⟨hkey, heq.symm⟩
  · exact Or.inl ⟨rfl, rfl⟩

/-- **`controlNotice` and `observeKey`** do the same with a key exchange message without blanks
around it; Android observes a key of one's own as if it were history. -/
theorem observeKey_agrees {userId : ℕ} {w : World} {s : Android.State}
    (h : Corresponds (P.session userId) w s) {peerId : ChatId}
    (isUser : peerIsUser peerId.val = true) {control : Text}
    (hexchange : isKeyExchange control = true) (htrim : Android.trim control = control)
    (outgoing live : Bool) :
    Corresponds (P.session userId)
        (controlNotice (P.session userId) .done peerId.val control outgoing live w).1
        (Android.observeKey P (peerToUser peerId.val) control (live && !outgoing) s).1 ∧
      (controlNotice (P.session userId) .done peerId.val control outgoing live w).2 =
        keyNotice P.crypto control outgoing
          (Android.observeKey P (peerToUser peerId.val) control (live && !outgoing) s).2 := by
  have hid := peerToUser_of_isUser isUser
  have hfailed : s.failed = false := by rw [h.state]; rfl
  have hpeer' : s.peer (peerToUser peerId.val) =
      (w.peer peerId.val).map (toPeer peerId.val) := by
    rw [h.state, hid, peer_toAndroid]
    rfl
  unfold controlNotice Android.observeKey
  rw [if_pos hexchange, hpeer']
  rcases parsePublic_keyExchange P hexchange htrim with ⟨hparts, hparse⟩ |
    ⟨key, bytes, hparts, hparse⟩
  · rw [hparse, show keyExchangeParts (P.session userId).crypto control = none from hparts]
    exact ⟨h, rfl⟩
  · rw [hparse, show keyExchangeParts (P.session userId).crypto control = _ from hparts]
    simp only
    cases outgoing with
    | true =>
      cases w.peer peerId.val with
      | none => exact ⟨h, by simp [keyNotice]⟩
      | some state =>
        simp only [Option.map_some, Bool.not_true, Bool.and_false, Bool.false_eq_true, false_and,
          and_false, if_false, if_true]
        exact ⟨h, by simp [keyNotice]⟩
    | false =>
      cases hpeer : w.peer peerId.val with
      | none => exact ⟨h, by simp [keyNotice, hparts]⟩
      | some state =>
        obtain ⟨identity, hidentity⟩ := h.identity hpeer
        simp only [Option.map_some, Bool.not_false, Bool.and_true, Bool.false_eq_true, if_false]
        by_cases hactive : state.active = fingerprintFor P.crypto bytes
        · have hsame : (toPeer peerId.val state).active = fingerprintFor P.crypto bytes := hactive
          rw [if_pos hactive, hsame]
          exact ⟨by simpa using h, by simp [keyNotice, hparts]⟩
        · have hother : (toPeer peerId.val state).active ≠ fingerprintFor P.crypto bytes := hactive
          rw [if_neg hactive]
          simp only [hother, ne_eq, not_false_eq_true, decide_true, true_and]
          by_cases hlive : live = true ∧ state.mode.keyChanged = false
          · rw [if_pos (by simpa using hlive),
              if_pos (show live = true ∧ (toPeer peerId.val state).changed = false from hlive)]
            have hsaved := save_succeeds (S := P.session userId) (w := w.setPeer peerId.val
              { state with mode := state.mode.suspect }) h.running hidentity
            simp only [hsaved, if_true, hfailed, Bool.false_eq_true, if_false]
            exact ⟨h.putPeer (by simp [hidentity]) hid rfl (save_chat _ _),
              by simp [keyNotice, hparts]⟩
          · rw [if_neg (by simpa using hlive),
              if_neg (show ¬ (live = true ∧ (toPeer peerId.val state).changed = false) from hlive)]
            exact ⟨h, by simp [keyNotice, hparts]⟩

end E2E
