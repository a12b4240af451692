import Telegravim.Update.Envelope

set_option autoImplicit false

/-!
# Updates: the verification of a package

A package is accepted when it is for this client, newer than the running version, and signed as the
manifest says: every group of the package's channel needs a key that is listed, neither revoked nor expired,
and whose holder signed exactly this package. The manifest that decides is the newest one of the held and
the carried one, and both are signed by the root key.

## Main definitions

* `Update.verifyUpdate` — the verification.
* `Update.Signers`, `Update.Unforgeable` — what was signed, and that nothing else verifies.
* `Update.Authorized` — what an accepted package has.

## Main results

* `Update.authorized_of_verifyUpdate` — an accepted package is authorized.
-/

namespace Update

/-- `UpdateVersionBase`. -/
def updateVersionBase (version : ℕ) : ℕ := version / 2 ^ 32 % 2 ^ 32

/-- `ChannelPolicyAllows`. -/
def channelPolicyAllows (build : Channel) (betaSet : Bool) (package : Channel)
    (packageVersion runningVersion : ℕ) : Bool :=
  match build with
  | .stable => package = .stable || (betaSet && package = .beta)
  | .beta => package = .stable || package = .beta
  | .canaryPublic => package = .canaryPublic ||
      ((package = .stable || package = .beta) &&
        updateVersionBase packageVersion > updateVersionBase runningVersion)
  | .canaryPrivate => package = .canaryPrivate

/-- What the client is, for the verification of a package. -/
structure Client where
  buildChannel : Channel
  betaSet : Bool
  expectedTarget : Target
  runningVersion : ℕ
  deriving DecidableEq

/-- `VerifiedUpdate`. -/
structure VerifiedUpdate where
  envelope : Envelope
  manifest : Manifest
  adoptManifest : Bool
  deriving DecidableEq

section Functions

variable {Key : Type} (lib : Library Key)

/-- The public key of a key of the manifest. -/
def publicKey (key : ManifestKey) : Option Key :=
  if key.ed25519 then makeEd25519 lib key.x else makeEs256 lib key.x key.y

/-- `VerifySignature`. -/
def verifySignature (key : ManifestKey) (signingInput signature : Bytes) : Bool :=
  if signingInput.isEmpty then false
  else
    match publicKey lib key with
    | none => false
    | some pkey =>
      if key.ed25519 then verifyEd25519 lib pkey signingInput signature
      else verifyEs256 lib pkey signingInput signature

/-- A key that may not sign any more. -/
def ManifestKey.expired (key : ManifestKey) (now : ℤ) : Bool := 0 < key.expires && key.expires ≤ now

/-- Whether a key of a group has signed. -/
def signedBy (manifest : Manifest) (signingInput : Bytes) (signatures : List EnvelopeSignature)
    (now : ℤ) (id : Bytes) : Bool :=
  if id ∈ manifest.revoked then false
  else
    match manifest.keys.find? fun key => key.id = id with
    | none => false
    | some key =>
      if key.expired now then false
      else signatures.any fun signature =>
        signature.keyId = id && verifySignature lib key signingInput signature.bytes

/-- `VerifyChannelAuthorization`: each group of the channel has a key that has signed. -/
def verifyChannelAuthorization (manifest : Manifest) (channel : Channel) (signingInput : Bytes)
    (signatures : List EnvelopeSignature) (now : ℤ) : Except String Unit :=
  match manifest.channels.find channel.name with
  | none => .error "Channel is not in the manifest."
  | some groups =>
    if groups.isEmpty then .error "Channel is not in the manifest."
    else checked (∀ group ∈ groups, group.any (signedBy lib manifest signingInput signatures now) = true)
      "No valid signature for a required group."

/-- `VerifyUpdate`. -/
def verifyUpdate (data : Bytes) (client : Client) (held : Option Manifest) (rootPublicKeyPem : Bytes)
    (now : ℤ) : Except String VerifiedUpdate := do
  let envelope ← parseEnvelope data
  checked (envelope.target = client.expectedTarget) "Package target is not this platform."
  let carried ← parseVerifiedManifest lib envelope.manifest envelope.manifestSignature rootPublicKeyPem
  let heldVersion := held.elim 0 Manifest.version
  let adoptManifest := decide (heldVersion < carried.version)
  let manifest := if adoptManifest then carried else held.getD {}
  checked (channelPolicyAllows client.buildChannel client.betaSet envelope.channel envelope.version
    client.runningVersion = true) "Package channel is not allowed for this build."
  verifyChannelAuthorization lib manifest envelope.channel (signingInput lib envelope)
    envelope.signatures now
  checked (client.runningVersion < envelope.version) "Package version is not newer."
  .ok { envelope, manifest, adoptManifest }

end Functions

/-! ### What was signed -/

/-- What the holders of keys have signed: the root key manifests, the other keys packages and catalogs. And
what the client has been given. -/
structure World (Key : Type) where
  manifests : Key → Bytes → Prop
  packages : Key → Bytes → Prop
  catalogs : Key → Bytes → Prop
  received : Bytes → Prop

/-- What comes before a catalog in what is signed of it. -/
def kCatalogPrefix : Bytes := Json.ascii "televim-catalog-v1" ++ [10]

section Spec

variable {Key : Type} {lib : Library Key}

/-- Nothing verifies but what was signed, and no payload that the client is given has the hash of another one
that was signed. A key of a manifest signs the signing input of a package, or a catalog. -/
structure Unforgeable (lib : Library Key) (pem : Bytes) (world : World Key) : Prop where
  root : ∀ root json signature, loadEd25519Pem lib pem = some root →
    verifyEd25519 lib root json signature = true → world.manifests root json
  key : ∀ key pkey message signature, publicKey lib key = some pkey →
    verifySignature lib key message signature = true →
    (∃ data package, world.packages pkey data ∧ parseEnvelope data = .ok package ∧
      message = signingInput lib package) ∨
    ∃ payload, world.catalogs pkey payload ∧ message = kCatalogPrefix ++ payload
  collision : ∀ pkey signed package data envelope, world.packages pkey signed →
    parseEnvelope signed = .ok package → world.received data → parseEnvelope data = .ok envelope →
    sha256 lib envelope.payload = sha256 lib package.payload → package.payload = envelope.payload

/-- A manifest is signed by the root key. -/
def RootSigned (lib : Library Key) (pem : Bytes) (world : World Key) (json : Bytes) : Prop :=
  ∃ root, loadEd25519Pem lib pem = some root ∧ world.manifests root json

/-- A manifest that was parsed from bytes that the root key has signed. -/
def Trusted (lib : Library Key) (pem : Bytes) (world : World Key) (manifest : Manifest) : Prop :=
  parseVerifiedManifest lib manifest.bytes manifest.signature pem = .ok manifest ∧
    RootSigned lib pem world manifest.bytes

/-- The holder of a key of the manifest, which is neither revoked nor expired, has signed a package that is
this one but for its signatures. -/
structure SignedForGroup (lib : Library Key) (world : World Key) (manifest : Manifest) (now : ℤ)
    (envelope : Envelope) (group : List Bytes) (key : ManifestKey) : Prop where
  listed : key ∈ manifest.keys
  member : key.id ∈ group
  valid : key.id ∉ manifest.revoked
  unexpired : key.expires = 0 ∨ now < key.expires
  signed : ∃ pkey data package, publicKey lib key = some pkey ∧ world.packages pkey data ∧
    parseEnvelope data = .ok package ∧ package.toHeader = envelope.toHeader ∧
    package.payload = envelope.payload

/-- What an accepted package has. -/
structure Authorized (lib : Library Key) (pem : Bytes) (world : World Key) (data : Bytes)
    (client : Client) (held : Option Manifest) (now : ℤ) (update : VerifiedUpdate) : Prop where
  parsed : parseEnvelope data = .ok update.envelope
  target : update.envelope.target = client.expectedTarget
  newer : client.runningVersion < update.envelope.version
  channel : channelPolicyAllows client.buildChannel client.betaSet update.envelope.channel
    update.envelope.version client.runningVersion = true
  carried : RootSigned lib pem world update.envelope.manifest
  manifest : Trusted lib pem world update.manifest
  /-- The manifest that decides is the newest one of the held and the carried one. -/
  newest : ∃ carried, parseVerifiedManifest lib update.envelope.manifest
      update.envelope.manifestSignature pem = .ok carried ∧
    (update.manifest = carried ∨ held = some update.manifest) ∧
    update.manifest.version = max (held.elim 0 Manifest.version) carried.version
  groups : ∃ groups, update.manifest.channels.find update.envelope.channel.name = some groups ∧
    groups ≠ [] ∧ ∀ group ∈ groups, ∃ key,
      SignedForGroup lib world update.manifest now update.envelope group key

/-- A key of a manifest expires at a positive time, or never. -/
lemma expires_parseManifestKey {known : List ManifestKey} {entry : Json} {key : ManifestKey}
    (h : parseManifestKey lib known entry = some (some key)) : 0 ≤ key.expires := by
  have hexpires : ∀ value expires, parseKeyExpires value = some expires → 0 ≤ expires := by
    intro value expires h
    cases value with
    | none =>
      cases h
      exact le_rfl
    | some value =>
      obtain ⟨-, hpos⟩ := Option.filter_eq_some_iff.mp h
      exact (of_decide_eq_true hpos).le
  unfold parseManifestKey at h
  split_ifs at h
  simp only [Option.bind_eq_bind, Option.bind_eq_some_iff] at h
  obtain ⟨id, -, expires, hparsed, h⟩ := h
  have hnonneg := hexpires _ _ hparsed
  unfold parseKeyAlgorithm at h
  split at h
  · split_ifs at h
    · obtain ⟨x, -, h⟩ := Option.map_eq_some_iff.mp h
      cases h
      exact hnonneg
    · obtain ⟨x, -, h⟩ := Option.bind_eq_some_iff.mp h
      obtain ⟨y, -, h⟩ := Option.map_eq_some_iff.mp h
      cases h
      exact hnonneg
    · cases h
  · cases h

lemma expires_parseManifestKeysFrom {known keys : List ManifestKey} {list : List Json}
    (hknown : ∀ key ∈ known, 0 ≤ key.expires) (h : parseManifestKeysFrom lib known list = some keys) :
    ∀ key ∈ keys, 0 ≤ key.expires := by
  induction list generalizing known with
  | nil =>
    cases h
    exact hknown
  | cons entry rest ih =>
    obtain ⟨parsed, hparsed, hrest⟩ := Option.bind_eq_some_iff.mp h
    refine ih (fun key hkey => ?_) hrest
    rcases List.mem_append.mp hkey with hkey | hkey
    · exact hknown key hkey
    · rw [Option.mem_toList] at hkey
      subst hkey
      exact expires_parseManifestKey hparsed

lemma keys_expires {json signature pem : Bytes} {manifest : Manifest}
    (h : parseVerifiedManifest lib json signature pem = .ok manifest) :
    ∀ key ∈ manifest.keys, 0 ≤ key.expires := by
  unfold parseVerifiedManifest at h
  simp only [bind_eq_ok, orFault_eq_ok, checked_eq_ok] at h
  obtain ⟨_, -, root, -, _, -, document, -, parsed, hparsed, h⟩ := h
  cases h
  unfold parseManifestObject at hparsed
  simp only [bind_eq_ok, orFault_eq_ok, checked_eq_ok] at hparsed
  obtain ⟨_, -, version, -, keys, hkeys, channels, -, revoked, -, hparsed⟩ := hparsed
  cases hparsed
  unfold parseManifestKeys at hkeys
  split at hkeys
  · split_ifs at hkeys
    exact expires_parseManifestKeysFrom (by simp) hkeys
  · cases hkeys

/-- A manifest that is parsed is trusted: nothing but the root key signs what verifies. -/
lemma trusted_of_parse {pem : Bytes} {world : World Key} (hunforgeable : Unforgeable lib pem world)
    {json signature : Bytes} {manifest : Manifest}
    (h : parseVerifiedManifest lib json signature pem = .ok manifest) :
    Trusted lib pem world manifest := by
  obtain ⟨root, hroot, hverified, hlength, -, -, hbytes, hsignature, -⟩ := parseVerifiedManifest_ok h
  refine ⟨by rw [hbytes, hsignature]; exact h, root, hroot, ?_⟩
  rw [hbytes]
  refine hunforgeable.root root json signature hroot ?_
  unfold verifyEd25519
  rw [if_neg (not_not.mpr hlength)]
  exact hverified

/-- A catalog is no package: they begin with different letters. -/
lemma signingInput_ne_catalog {data payload : Bytes} {envelope : Envelope}
    (h : parseEnvelope data = .ok envelope) (hne : signingInput lib envelope ≠ []) :
    signingInput lib envelope ≠ kCatalogPrefix ++ payload := by
  obtain ⟨rest, -, hheader⟩ := parseEnvelope_ok h
  obtain ⟨fields, hregion⟩ := magic_of_readHeader hheader
  rw [(signingInput_eq hne).2, hregion]
  intro heq
  have hfirst := congrArg (List.take 1) heq
  simp [kEnvelopeMagic, kCatalogPrefix, Json.ascii] at hfirst

/-- **A key that has signed for a group** has signed this package. -/
theorem signedForGroup_of_signedBy {pem : Bytes} {world : World Key}
    (hunforgeable : Unforgeable lib pem world) {manifest : Manifest}
    (hmanifest : Trusted lib pem world manifest) {data : Bytes} {envelope : Envelope}
    (hreceived : world.received data) (hparsed : parseEnvelope data = .ok envelope)
    {now : ℤ} {group : List Bytes} {id : Bytes} (hid : id ∈ group)
    (h : signedBy lib manifest (signingInput lib envelope) envelope.signatures now id = true) :
    ∃ key, SignedForGroup lib world manifest now envelope group key := by
  unfold signedBy at h
  split_ifs at h with hrevoked
  cases hfind : manifest.keys.find? (fun key => key.id = id) with
  | none =>
    rw [hfind] at h
    cases h
  | some key =>
    rw [hfind] at h
    dsimp only at h
    split_ifs at h with hexpired
    have hkey := List.mem_of_find?_eq_some hfind
    have hkeyId : key.id = id := by
      have hfound := List.find?_some hfind
      exact of_decide_eq_true hfound
    have hnonneg := keys_expires hmanifest.1 key hkey
    have hunexpired : key.expires = 0 ∨ now < key.expires := by
      unfold ManifestKey.expired at hexpired
      rw [Bool.and_eq_true, decide_eq_true_eq, decide_eq_true_eq, not_and] at hexpired
      by_cases hzero : key.expires = 0
      · exact Or.inl hzero
      · exact Or.inr (not_le.mp (hexpired (by omega)))
    obtain ⟨signature, -, hsignature⟩ := List.any_eq_true.mp h
    rw [Bool.and_eq_true] at hsignature
    have hverified := hsignature.2
    have hinput : signingInput lib envelope ≠ [] := by
      intro hempty
      rw [hempty] at hverified
      cases hverified
    have hpkey : ∃ pkey, publicKey lib key = some pkey := by
      cases hpkey : publicKey lib key with
      | some pkey => exact ⟨pkey, rfl⟩
      | none =>
        unfold verifySignature at hverified
        rw [hpkey] at hverified
        split_ifs at hverified
    obtain ⟨pkey, hpkey⟩ := hpkey
    refine ⟨key, hkey, hkeyId ▸ hid, hkeyId ▸ hrevoked, hunexpired, ?_⟩
    rcases hunforgeable.key key pkey _ _ hpkey hverified with
      ⟨signed, package, hsigned, hpackage, heq⟩ | ⟨payload, -, heq⟩
    · obtain ⟨hheader, hpayload⟩ := eq_of_signingInput
        (hunforgeable.collision pkey signed package data envelope hsigned hpackage hreceived hparsed)
        hparsed hpackage hinput heq
      exact ⟨pkey, signed, package, hpkey, hsigned, hpackage, hheader, hpayload⟩
    · exact absurd heq (signingInput_ne_catalog hparsed hinput)

/-- Each group of an authorized channel has a key that has signed. -/
lemma verifyChannelAuthorization_ok {manifest : Manifest} {channel : Channel} {input : Bytes}
    {signatures : List EnvelopeSignature} {now : ℤ} {x : Unit}
    (h : verifyChannelAuthorization lib manifest channel input signatures now = .ok x) :
    ∃ groups, manifest.channels.find channel.name = some groups ∧ groups ≠ [] ∧
      ∀ group ∈ groups, ∃ id ∈ group, signedBy lib manifest input signatures now id = true := by
  unfold verifyChannelAuthorization at h
  split at h
  · cases h
  · rename_i groups hgroups
    split_ifs at h with hempty
    rw [checked_eq_ok] at h
    rw [List.isEmpty_iff] at hempty
    exact ⟨groups, hgroups, hempty, fun group hgroup => List.any_eq_true.mp (h group hgroup)⟩

/-- **An accepted package is authorized.** -/
theorem authorized_of_verifyUpdate {pem : Bytes} {world : World Key}
    (hunforgeable : Unforgeable lib pem world) {data : Bytes} (hreceived : world.received data)
    {client : Client} {held : Option Manifest} {now : ℤ} {update : VerifiedUpdate}
    (hheld : ∀ manifest, held = some manifest → Trusted lib pem world manifest)
    (h : verifyUpdate lib data client held pem now = .ok update) :
    Authorized lib pem world data client held now update := by
  unfold verifyUpdate at h
  simp only [bind_eq_ok, checked_eq_ok] at h
  obtain ⟨envelope, hparsed, _, htarget, carried, hcarried, _, hpolicy, _, hauthorized, _, hnewer, h⟩ := h
  cases h
  have hcarriedTrusted := trusted_of_parse hunforgeable hcarried
  obtain ⟨-, -, -, -, -, -, hbytes, -, hversion⟩ := parseVerifiedManifest_ok hcarried
  -- the manifest that decides is the carried one when it is newer, and the held one otherwise
  have hdecides : ∀ manifest, manifest = (if decide (held.elim 0 Manifest.version < carried.version) = true
        then carried else held.getD {}) →
      Trusted lib pem world manifest ∧ (manifest = carried ∨ held = some manifest) ∧
        manifest.version = max (held.elim 0 Manifest.version) carried.version := by
    rintro manifest rfl
    split_ifs with hnewest
    · rw [decide_eq_true_eq] at hnewest
      exact ⟨hcarriedTrusted, Or.inl rfl, (max_eq_right hnewest.le).symm⟩
    · rw [decide_eq_true_eq, not_lt] at hnewest
      cases held with
      | none =>
        rw [Option.elim_none] at hnewest
        omega
      | some manifest => exact ⟨hheld manifest rfl, Or.inr rfl, (max_eq_left hnewest).symm⟩
  obtain ⟨htrusted, hwhich, hmax⟩ := hdecides _ rfl
  obtain ⟨groups, hgroups, hne, hsigned⟩ := verifyChannelAuthorization_ok hauthorized
  refine ⟨hparsed, htarget, hnewer, hpolicy, hbytes ▸ hcarriedTrusted.2, htrusted,
    ⟨carried, hcarried, hwhich, hmax⟩, groups, hgroups, hne, fun group hgroup => ?_⟩
  obtain ⟨id, hid, hsigned⟩ := hsigned group hgroup
  exact signedForGroup_of_signedBy hunforgeable htrusted hreceived hparsed hid hsigned

end Spec

end Update
