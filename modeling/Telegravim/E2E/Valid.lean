import Telegravim.E2E.Storage

set_option autoImplicit false

/-!
# Encrypted chat: accounts that can be reopened

The conditions `load` checks, gathered as a property of an account. A snapshot of an account
with these conditions is accepted and gives the account back, and an account that was read has
them.

## Main definitions

* `E2E.ValidReceipts`, `E2E.ValidKey`, `E2E.ValidMode`, `E2E.ValidPeer`, `E2E.ValidAccount` —
  the conditions, from the receipts up.

## Main results

* `E2E.readSnapshot_snapshot` — the snapshot of a valid account is read back.
* `E2E.valid_of_loadAccount` — an account that was read is valid.
-/

namespace E2E

open Text

/-! ### The conditions -/

/-- The receipts of one direction: positive sequence numbers, digests of the right size, and
message ids that are known unless the frame is one's own. -/
def ValidReceipts (outgoing : Bool) (receipts : OrdMap ℕ Receipt) : Prop :=
  ∀ sequence receipt, receipts.find sequence = some receipt →
    0 < sequence ∧ sequence ≤ kMaxNumber ∧ 0 ≤ receipt.messageId.toInt ∧
      (outgoing = false → receipt.messageId ≠ 0) ∧ receipt.digest.length = 32

/-- What is kept for a key: the counters are in range, no sequence number of one's own is above
`sent`, and a control frame that was applied has its receipt. -/
structure ValidKey (C : Crypto) (fingerprint : Text) (key : Key) : Prop where
  publicKey : validPublicKey C key.publicKey = true
  fingerprint : fingerprintFor C key.publicKey = fingerprint
  sent_le : key.sent ≤ kMaxNumber
  control_le : key.control ≤ kMaxNumber
  incoming : ValidReceipts false key.incoming
  outgoing : ValidReceipts true key.outgoing
  outgoing_le : ∀ sequence receipt, key.outgoing.find sequence = some receipt →
    sequence ≤ key.sent
  control_mem : key.control ≠ 0 → ∃ receipt, key.incoming.find key.control = some receipt

/-- A sending mode: challenges are well formed and present while a request stands, and a
confirmed mode is requested towards an unchanged key. -/
structure ValidMode (mode : Mode) : Prop where
  challenge : mode.challenge ≠ [] → validChallenge mode.challenge = true
  requested : mode.requested = true → mode.challenge ≠ []
  lastPeerChallenge : mode.lastPeerChallenge ≠ [] → validChallenge mode.lastPeerChallenge = true
  ready : mode.ready = true → mode.requested = true ∧ mode.keyChanged = false

/-- What is kept for a peer: the identifier of a user, and a known key in use. -/
structure ValidPeer (C : Crypto) (id : PeerId) (peer : PeerState) : Prop where
  id_pos : 0 < id.val
  id_le : id.val ≤ kMaxNumber
  isUser : peerIsUser id = true
  mode : ValidMode peer.mode
  keys : ∀ fingerprint key, peer.keys.find fingerprint = some key → ValidKey C fingerprint key
  active : ∃ key, peer.keys.find peer.active = some key

/-- An account whose snapshot is accepted. -/
structure ValidAccount (C : Crypto) (account : Account) : Prop where
  identity : ∀ identity, account.identity = some identity → ValidIdentity C identity
  peers : ∀ id peer, account.peers.find id = some peer → ValidPeer C id peer

lemma validAccount_empty (C : Crypto) : ValidAccount C {} :=
  ⟨by simp, by simp⟩

/-! ### Reading back what was written -/

lemma integer_of_nonneg {n : Int64} (h : 0 ≤ n.toInt) : integer n = decimal n.toInt.toNat := by
  unfold integer
  rw [if_neg (by omega)]
  congr 1
  omega

lemma toNat_le_kMaxNumber (n : Int64) : n.toInt.toNat ≤ kMaxNumber := by
  have := n.toInt_lt
  unfold kMaxNumber
  omega

lemma int64_ofNat_toNat {n : Int64} (h : 0 ≤ n.toInt) : Int64.ofNat n.toInt.toNat = n := by
  apply Int64.toInt_inj.mp
  have hle := toNat_le_kMaxNumber n
  unfold kMaxNumber at hle
  rw [Int64.toInt_ofNat_of_lt (by omega)]
  omega

variable {C : Crypto}

lemma loadReceipt_receiptJson {outgoing : Bool} {receipts : OrdMap ℕ Receipt}
    (h : ValidReceipts outgoing receipts) {sequence : ℕ} {receipt : Receipt}
    (hr : receipts.find sequence = some receipt) :
    loadReceipt outgoing (decimal sequence) (receiptJson sequence receipt) =
      some (sequence, receipt) := by
  obtain ⟨hpos, hle, hid, hout, hdigest⟩ := h sequence receipt hr
  have hnumber : number (decimal receipt.messageId.toInt.toNat) outgoing =
      some receipt.messageId.toInt.toNat := by
    refine number_eq_some_iff.mpr ⟨rfl, toNat_le_kMaxNumber _, fun h0 => ?_⟩
    by_contra hf
    refine hout (by simpa using hf) (Int64.toInt_inj.mp ?_)
    have : (0 : Int64).toInt = 0 := rfl
    omega
  have hfind : ((receiptJson sequence receipt).toObject.find (u "id") =
      some (.str (integer receipt.messageId))) := rfl
  have hfind' : ((receiptJson sequence receipt).toObject.find (u "digest") =
      some (.str (base64Text receipt.digest))) := rfl
  simp only [loadReceipt, hfind, hfind', Json.asText_str, number_decimal hle hpos,
    integer_of_nonneg hid, hnumber, base64_base64Text, Option.bind_eq_bind, Option.bind_some,
    hdigest, int64_ofNat_toNat hid]
  rfl

lemma loadReceipts_receiptsJson {outgoing : Bool} {receipts : OrdMap ℕ Receipt}
    (h : ValidReceipts outgoing receipts) :
    loadReceipts (some (.ofObject (receiptsJson receipts))) outgoing = some receipts := by
  unfold loadReceipts receiptsJson
  rw [Json.isObjectValue_ofObject, Json.asObject_ofObject]
  exact MapCodec.read_write (fun _ _ h => decimal_injective h)
    fun _ _ => loadReceipt_receiptJson h

/-- The last entry of a sorted map has its largest key. -/
lemma getLast_any_lt {receipts : OrdMap ℕ Receipt} {sent : ℕ} :
    receipts.entries.getLast?.any (fun last => sent < last.1) = false ↔
      ∀ sequence receipt, receipts.find sequence = some receipt → sequence ≤ sent := by
  constructor
  · intro h sequence receipt hr
    have hmem := OrdMap.find_eq_some_iff.mp hr
    obtain ⟨l, last, hl⟩ : ∃ l last, receipts.entries = l ++ [last] :=
      ⟨_, _, (List.dropLast_append_getLast (List.ne_nil_of_mem hmem)).symm⟩
    rw [hl, List.getLast?_append, List.getLast?_singleton] at h
    simp only [Option.some_or, Option.any_some, decide_eq_false_iff_not, not_lt] at h
    rw [hl, List.mem_append, List.mem_singleton] at hmem
    rcases hmem with hmem | rfl
    · have hsorted := receipts.sorted
      rw [hl, List.pairwise_append] at hsorted
      exact (hsorted.2.2 _ hmem last (by simp)).le.trans h
    · exact h
  · intro h
    cases hlast : receipts.entries.getLast? with
    | none => rfl
    | some last =>
      have hmem := OrdMap.find_eq_some_iff.mpr (List.mem_of_getLast? hlast)
      simpa using h last.1 last.2 hmem

lemma loadKey_keyJson {fingerprint : Text} {key : Key} (h : ValidKey C fingerprint key) :
    loadKey C fingerprint (keyJson fingerprint key) = some (fingerprint, key) := by
  have hpublic : (keyJson fingerprint key).toObject.find (u "publicKey") =
      some (.str (base64Text key.publicKey)) := rfl
  have hsent : (keyJson fingerprint key).toObject.find (u "sent") =
      some (.str (decimal key.sent)) := rfl
  have hcontrol : (keyJson fingerprint key).toObject.find (u "control") =
      some (.str (decimal key.control)) := rfl
  have hincoming : (keyJson fingerprint key).toObject.find (u "incoming") =
      some (.ofObject (receiptsJson key.incoming)) := rfl
  have houtgoing : (keyJson fingerprint key).toObject.find (u "outgoing") =
      some (.ofObject (receiptsJson key.outgoing)) := rfl
  have hmem : (decide (key.control ≠ 0) && !key.incoming.contains key.control) = false := by
    by_cases h0 : key.control = 0
    · simp [h0]
    · obtain ⟨receipt, hr⟩ := h.control_mem h0
      simp [OrdMap.contains, hr]
  unfold loadKey
  simp only [hpublic, hsent, hcontrol, hincoming, houtgoing, Json.asText_str,
    base64_base64Text, number_decimal_zero h.sent_le, number_decimal_zero h.control_le,
    Option.bind_eq_bind, Option.bind_some, h.publicKey, h.fingerprint,
    loadReceipts_receiptsJson h.incoming, loadReceipts_receiptsJson h.outgoing,
    getLast_any_lt.mpr h.outgoing_le, hmem]
  simp

lemma loadMode_modeJson {mode : Mode} (h : ValidMode mode) :
    loadMode (modeJson mode) = some mode := by
  have hrequested : (modeJson mode).find (u "requested") = some (.bool mode.requested) := rfl
  have hready : (modeJson mode).find (u "ready") = some (.bool mode.ready) := rfl
  have hchanged : (modeJson mode).find (u "keyChanged") = some (.bool mode.keyChanged) := rfl
  have hchallenge : (modeJson mode).find (u "challenge") = some (.str mode.challenge) := rfl
  have hlast : (modeJson mode).find (u "lastPeerChallenge") =
      some (.str mode.lastPeerChallenge) := rfl
  have h1 : (mode.requested && !validChallenge mode.challenge) = false := by
    cases hr : mode.requested with
    | false => rfl
    | true => simp [h.challenge (h.requested hr)]
  have h2 : (decide (mode.challenge ≠ []) && !validChallenge mode.challenge) = false := by
    by_cases hc : mode.challenge = []
    · simp [hc]
    · simp [h.challenge hc]
  have h3 : (decide (mode.lastPeerChallenge ≠ []) && !validChallenge mode.lastPeerChallenge)
      = false := by
    by_cases hc : mode.lastPeerChallenge = []
    · simp [hc]
    · simp [h.lastPeerChallenge hc]
  have h4 : (mode.ready && (!mode.requested || mode.keyChanged)) = false := by
    cases hr : mode.ready with
    | false => rfl
    | true => simp [h.ready hr]
  unfold loadMode
  simp only [hrequested, hready, hchanged, hchallenge, hlast, Json.isBoolValue_bool,
    Json.isTextValue_str, Json.asBool_bool, Json.asText_str, h1, h2, h3, h4]
  rfl

lemma loadPeer_peerJson {peerId : PeerId} {peer : PeerState} (h : ValidPeer C peerId peer) :
    loadPeer C (peerJson peerId peer).toObject = some peer := by
  have hactive : (peerJson peerId peer).toObject.find (u "active") = some (.str peer.active) :=
    rfl
  have hmode : (peerJson peerId peer).toObject.find (u "mode") =
      some (.ofObject (modeJson peer.mode)) := rfl
  have hkeys : (peerJson peerId peer).toObject.find (u "keys") =
      some (.ofObject (MapCodec.write id keyJson peer.keys)) := rfl
  have hread : MapCodec.read (loadKey C) (MapCodec.write id keyJson peer.keys) =
      some peer.keys :=
    MapCodec.read_write (fun _ _ h => h) fun fingerprint key hk =>
      loadKey_keyJson (h.keys fingerprint key hk)
  have hcontains : peer.keys.contains peer.active = true := OrdMap.contains_iff.mpr h.active
  unfold loadPeer
  simp only [hactive, hmode, hkeys, Json.isObjectValue_ofObject, Json.asObject_ofObject,
    loadMode_modeJson h.mode, hread, Option.bind_eq_bind, Option.bind_some, Json.asText_str,
    hcontains]
  rfl

lemma fin_ofNat_val (peerId : PeerId) : Fin.ofNat (2 ^ 64) peerId.val = peerId :=
  Fin.ext (Nat.mod_eq_of_lt peerId.isLt)

lemma loadPeerEntry_peerJson {challenges : Text → Option (RandomBytes 16)} {peerId : PeerId}
    {peer : PeerState} (h : ValidPeer C peerId peer) :
    loadPeerEntry C 2 challenges (decimal peerId.val) (peerJson peerId peer) =
      some (peerId, peer) := by
  have hobject : (peerJson peerId peer).isObject = true := rfl
  unfold loadPeerEntry
  simp only [number_decimal h.id_le h.id_pos, Option.bind_eq_bind, Option.bind_some,
    fin_ofNat_val, h.isUser, hobject, loadPeer_peerJson h]
  rfl

/-- The stored bytes of a key pair are taken apart again. -/
lemma loadState_snapshot {challenges : Text → Option (RandomBytes 16)} {identity : Identity}
    {peers : OrdMap PeerId PeerState} (hi : ValidIdentity C identity)
    (hp : ∀ peerId peer, peers.find peerId = some peer → ValidPeer C peerId peer) :
    loadState C 2 challenges (kIdentityVersion ++ identity.privateKey ++ identity.publicKey)
      (MapCodec.write (fun peerId : PeerId => decimal peerId.val) peerJson peers) =
      some { identity := some identity, peers } := by
  have hlen : (kIdentityVersion ++ identity.privateKey ++ identity.publicKey).length =
      kIdentityVersion.length + kPrivateKeySize + kPublicKeySize := by
    rw [List.length_append, List.length_append, hi.privateKey, hi.publicKey]
  have hversion : kIdentityVersion <+:
      kIdentityVersion ++ identity.privateKey ++ identity.publicKey :=
    ⟨identity.privateKey ++ identity.publicKey, by simp⟩
  have hprivate : ((kIdentityVersion ++ identity.privateKey ++ identity.publicKey).drop
      kIdentityVersion.length).take kPrivateKeySize = identity.privateKey := by
    rw [List.append_assoc, List.drop_left, ← hi.privateKey, List.take_left]
  have hpublic : (kIdentityVersion ++ identity.privateKey ++ identity.publicKey).drop
      (kIdentityVersion.length + kPrivateKeySize) = identity.publicKey := by
    rw [← hi.privateKey, ← List.length_append, List.drop_left]
  have hload : loadPrivate C identity.privateKey = some identity.publicKey := by
    rw [loadPrivate, if_neg (not_not.mpr hi.privateKey), hi.pair]
  have hread : MapCodec.read (loadPeerEntry C 2 challenges)
      (MapCodec.write (fun peerId : PeerId => decimal peerId.val) peerJson peers) =
      some peers :=
    MapCodec.read_write (fun _ _ h => Fin.ext (decimal_injective h)) fun peerId peer h =>
      loadPeerEntry_peerJson (hp peerId peer h)
  unfold loadState
  rw [if_neg (not_or.mpr ⟨not_not.mpr hversion, not_not.mpr hlen⟩)]
  simp only [hprivate, hpublic, hload, hread]
  simp

/-- **The snapshot of a valid account is accepted and read back.** -/
theorem readSnapshot_snapshot {S : Session} (challenges : Text → Option (RandomBytes 16))
    {account : Account} {identity : Identity} (h : ValidAccount S.crypto account)
    (hi : account.identity = some identity) :
    readSnapshot S challenges (snapshot S identity account.peers) = some (account, 2) := by
  have hversion : (snapshot S identity account.peers).find (u "version") = some (.num 2) := rfl
  have haccount : (snapshot S identity account.peers).find (u "account") =
      some (.str (decimal S.userId)) := rfl
  have hidentity : (snapshot S identity account.peers).find (u "identity") =
      some (.str (base64Text
        (kIdentityVersion ++ identity.privateKey ++ identity.publicKey))) := rfl
  have hpeers : (snapshot S identity account.peers).find (u "peers") =
      some (.ofObject (MapCodec.write (fun peerId : PeerId => decimal peerId.val) peerJson
        account.peers)) := rfl
  have htwo : Json.asInt (some (.num 2)) = 2 := rfl
  have hne : kIdentityVersion ++ identity.privateKey ++ identity.publicKey ≠ [] := by
    rw [List.append_assoc]
    exact List.append_ne_nil_of_left_ne_nil (by decide) _
  have heq : account = { identity := some identity, peers := account.peers } := by
    rw [← hi]
  unfold readSnapshot
  simp only [hversion, haccount, hidentity, hpeers, htwo, Json.asText_str, base64_base64Text,
    Json.isObjectValue_ofObject, Json.asObject_ofObject, Option.bind_eq_bind, Option.bind_some,
    loadState_snapshot (h.identity identity hi) h.peers, hne]
  conv_rhs => rw [heq]
  simp

/-! ### What was read is valid -/

lemma toInt_ofNat_of_le {n : ℕ} (h : n ≤ kMaxNumber) : (Int64.ofNat n).toInt = n :=
  Int64.toInt_ofNat_of_lt (by unfold kMaxNumber at h; omega)

lemma validReceipts_of_loadReceipts {value : Option Json} {outgoing : Bool}
    {receipts : OrdMap ℕ Receipt} (h : loadReceipts value outgoing = some receipts) :
    ValidReceipts outgoing receipts := by
  unfold loadReceipts at h
  split_ifs at h
  intro sequence receipt hr
  obtain ⟨e, -, he⟩ := MapCodec.exists_entry_of_read h hr
  simp only [loadReceipt, Option.bind_eq_bind, Option.bind_eq_some_iff] at he
  obtain ⟨n, hn, m, hm, digest, -, he⟩ := he
  split_ifs at he with hlen
  obtain ⟨rfl, rfl⟩ := Prod.mk.inj (Option.some.inj he)
  obtain ⟨-, hnle, hn0⟩ := number_eq_some_iff.mp hn
  obtain ⟨-, hmle, hm0⟩ := number_eq_some_iff.mp hm
  have hpos : 0 < n := Nat.pos_of_ne_zero fun h0 => by simpa using hn0 h0
  refine ⟨hpos, hnle, by simp [toInt_ofNat_of_le hmle], fun hout h0 => ?_, not_not.mp hlen⟩
  have hzero := congrArg Int64.toInt h0
  rw [toInt_ofNat_of_le hmle] at hzero
  have hm : m = 0 := Int.ofNat_inj.mp hzero
  exact absurd (hm0 hm) (by simp [hout])

lemma validKey_of_loadKey {k fingerprint : Text} {value : Json} {key : Key}
    (h : loadKey C k value = some (fingerprint, key)) : ValidKey C fingerprint key := by
  simp only [loadKey, Option.bind_eq_bind, Option.bind_eq_some_iff] at h
  obtain ⟨bytes, -, sent, hsent, control, hcontrol, h⟩ := h
  split_ifs at h with hkey
  simp only [Option.bind_eq_some_iff] at h
  obtain ⟨incoming, hincoming, outgoing, houtgoing, h⟩ := h
  split_ifs at h with hcheck
  obtain ⟨rfl, rfl⟩ := Prod.mk.inj (Option.some.inj h)
  simp only [Bool.or_eq_true, Bool.not_eq_true', decide_eq_true_eq, not_or, not_not,
    Bool.not_eq_false] at hkey
  simp only [Bool.or_eq_true, not_or, Bool.not_eq_true, Bool.and_eq_false_iff,
    decide_eq_false_iff_not, not_not, Bool.not_eq_false'] at hcheck
  refine {
    publicKey := hkey.1
    fingerprint := hkey.2
    sent_le := (number_eq_some_iff.mp hsent).2.1
    control_le := (number_eq_some_iff.mp hcontrol).2.1
    incoming := validReceipts_of_loadReceipts hincoming
    outgoing := validReceipts_of_loadReceipts houtgoing
    outgoing_le := getLast_any_lt.mp hcheck.1
    control_mem := fun h0 => ?_ }
  rcases hcheck.2 with hzero | hmem
  · exact absurd hzero h0
  · exact OrdMap.contains_iff.mp hmem

lemma validMode_of_loadMode {object : JObject} {mode : Mode} (h : loadMode object = some mode) :
    ValidMode mode := by
  unfold loadMode at h
  split_ifs at h with h1
  simp only at h
  split_ifs at h with h2
  obtain rfl := Option.some.inj h
  simp only [Bool.or_eq_true, Bool.and_eq_true, Bool.not_eq_true', decide_eq_true_eq, not_or,
    not_and, Bool.not_eq_false, Bool.not_eq_true] at h2
  obtain ⟨⟨⟨hrequested, hchallenge⟩, hlast⟩, hready⟩ := h2
  refine ⟨hchallenge, fun hr hnil => ?_, hlast, hready⟩
  have hvalid := hrequested hr
  simp only at hnil
  rw [hnil, not_validChallenge_nil] at hvalid
  exact absurd hvalid (by simp)

lemma validPeer_of_loadPeer {object : JObject} {peer : PeerState} {peerId : PeerId}
    (hpos : 0 < peerId.val) (hle : peerId.val ≤ kMaxNumber) (huser : peerIsUser peerId = true)
    (h : loadPeer C object = some peer) : ValidPeer C peerId peer := by
  unfold loadPeer at h
  split_ifs at h with hobject
  simp only [Option.bind_eq_bind, Option.bind_eq_some_iff] at h
  obtain ⟨mode, hmode, keys, hkeys, h⟩ := h
  split_ifs at h with hactive
  obtain rfl := Option.some.inj h
  refine ⟨hpos, hle, huser, validMode_of_loadMode hmode, fun fingerprint key hk => ?_,
    OrdMap.contains_iff.mp (by simpa using hactive)⟩
  obtain ⟨e, -, he⟩ := MapCodec.exists_entry_of_read hkeys hk
  exact validKey_of_loadKey he

lemma validMode_requested (requested : Bool) {challenge : Text}
    (h : challenge ≠ [] → validChallenge challenge = true)
    (hr : requested = true → challenge ≠ []) : ValidMode { requested, challenge } :=
  ⟨h, hr, by simp, by simp⟩

/-- A drawn challenge is absent or valid. -/
lemma validChallenge_of_drawn {challenge : Option (RandomBytes 16)}
    (h : newChallenge challenge ≠ []) : validChallenge (newChallenge challenge) = true := by
  cases challenge with
  | none => exact absurd rfl h
  | some random => exact validChallenge_newChallenge random

lemma validKey_new {publicKey : Bytes} (h : validPublicKey C publicKey = true) :
    ValidKey C (fingerprintFor C publicKey) { publicKey := publicKey } where
  publicKey := h
  fingerprint := rfl
  sent_le := Nat.zero_le _
  control_le := Nat.zero_le _
  incoming := by intro; simp
  outgoing := by intro; simp
  outgoing_le := by simp
  control_mem := by simp

lemma validPeer_of_loadLegacyPeer {challenge : Option (RandomBytes 16)} {object : JObject}
    {peer : PeerState} {peerId : PeerId}
    (hpos : 0 < peerId.val) (hle : peerId.val ≤ kMaxNumber) (huser : peerIsUser peerId = true)
    (h : loadLegacyPeer C challenge object = some peer) : ValidPeer C peerId peer := by
  simp only [loadLegacyPeer, Option.bind_eq_bind, Option.bind_eq_some_iff] at h
  obtain ⟨bytes, -, h⟩ := h
  split at h
  · exact absurd h (by simp)
  rename_i hkey
  simp only [Bool.or_eq_true, Bool.not_eq_true', not_or, Bool.not_eq_false] at hkey
  have hnew : ∀ fingerprint key,
      (OrdMap.insert ∅ (fingerprintFor C bytes) { publicKey := bytes }).find fingerprint =
        some key → ValidKey C fingerprint key := by
    intro fingerprint key hk
    rw [OrdMap.find_insert] at hk
    split_ifs at hk with heq
    · obtain rfl := Option.some.inj hk
      exact heq ▸ validKey_new hkey.1
    · simp at hk
  generalize Json.asBool (object.find (u "enabled")) = requested at h
  cases requested with
  | false =>
    obtain rfl := Option.some.inj h
    exact ⟨hpos, hle, huser, validMode_requested false (by simp) (by simp), hnew, _,
      OrdMap.find_insert_self _ _ _⟩
  | true =>
    simp only [if_true, Bool.true_and, decide_eq_true_eq] at h
    split at h
    · exact absurd h (by simp)
    rename_i hdrawn
    obtain rfl := Option.some.inj h
    exact ⟨hpos, hle, huser, validMode_requested true validChallenge_of_drawn fun _ => hdrawn,
      hnew, _, OrdMap.find_insert_self _ _ _⟩

lemma validPeer_of_loadPeerEntry {version : ℤ} {challenges : Text → Option (RandomBytes 16)}
    {k : Text} {value : Json} {peerId : PeerId} {peer : PeerState}
    (h : loadPeerEntry C version challenges k value = some (peerId, peer)) :
    ValidPeer C peerId peer := by
  simp only [loadPeerEntry, Option.bind_eq_bind, Option.bind_eq_some_iff] at h
  obtain ⟨n, hn, h⟩ := h
  obtain ⟨-, hle, h0⟩ := number_eq_some_iff.mp hn
  have hval : (Fin.ofNat (2 ^ 64) n).val = n :=
    Nat.mod_eq_of_lt (by unfold kMaxNumber at hle; omega)
  have hpos : 0 < n := Nat.pos_of_ne_zero fun h => by simpa using h0 h
  split at h
  · exact absurd h (by simp)
  rename_i huser
  simp only [Bool.or_eq_true, Bool.not_eq_true', not_or, Bool.not_eq_false] at huser
  split at h
  · obtain ⟨read, hread, hsome⟩ := Option.bind_eq_some_iff.mp h
    obtain ⟨rfl, rfl⟩ := Prod.mk.inj (Option.some.inj hsome)
    exact validPeer_of_loadLegacyPeer (hval.symm ▸ hpos) (hval.symm ▸ hle) huser.1 hread
  · obtain ⟨read, hread, hsome⟩ := Option.bind_eq_some_iff.mp h
    obtain ⟨rfl, rfl⟩ := Prod.mk.inj (Option.some.inj hsome)
    exact validPeer_of_loadPeer (hval.symm ▸ hpos) (hval.symm ▸ hle) huser.1 hread

lemma valid_of_loadState {version : ℤ} {challenges : Text → Option (RandomBytes 16)}
    {serialized : Bytes} {state : JObject} {account : Account}
    (h : loadState C version challenges serialized state = some account) :
    ValidAccount C account := by
  unfold loadState at h
  split at h
  · exact absurd h (by simp)
  rename_i hshape
  simp only [not_or, not_not] at hshape
  simp only at h
  split at h
  · exact absurd h (by simp)
  rename_i hpair
  simp only [ne_eq, not_not] at hpair
  obtain ⟨peers, hpeers, rfl⟩ := Option.map_eq_some_iff.mp h
  refine ⟨fun identity hi => ?_, fun peerId peer hp => ?_⟩
  · obtain rfl := Option.some.inj hi
    unfold loadPrivate at hpair
    split_ifs at hpair with hlen
    refine ⟨not_not.mp hlen, ?_, hpair⟩
    rw [List.length_drop, hshape.2]
    omega
  · obtain ⟨e, -, he⟩ := MapCodec.exists_entry_of_read hpeers hp
    exact validPeer_of_loadPeerEntry he

/-- **An account that was read is valid.** -/
theorem valid_of_loadAccount {S : Session} {challenges : Text → Option (RandomBytes 16)}
    (storage : Storage) {account : Account} {version : ℤ}
    (h : loadAccount S challenges storage = some (account, version)) :
    ValidAccount S.crypto account := by
  unfold loadAccount at h
  split at h
  · exact absurd h (by simp)
  · simp only [readSnapshot, Option.bind_eq_bind, Option.bind_eq_some_iff] at h
    obtain ⟨decoded, -, h⟩ := h
    split at h
    · exact absurd h (by simp)
    obtain ⟨read, hread, hsome⟩ := Option.bind_eq_some_iff.mp h
    obtain ⟨rfl, -⟩ := Prod.mk.inj (Option.some.inj hsome)
    exact valid_of_loadState hread
  · split at h
    · exact absurd h (by simp)
    simp only at h
    split at h
    · obtain ⟨rfl, -⟩ := Prod.mk.inj (Option.some.inj h)
      exact validAccount_empty _
    · obtain ⟨read, hread, hsome⟩ := Option.map_eq_some_iff.mp h
      obtain ⟨rfl, -⟩ := Prod.mk.inj hsome
      exact valid_of_loadState hread

end E2E
