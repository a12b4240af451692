import Telegravim.Update.Manifest

set_option autoImplicit false

/-!
# Updates: the envelope of a package

A package is an envelope around the payload: what it is for, a manifest with its signature, and the
signatures of the keys. The signed region is all from the magic through the manifest; the payload is bound
through its hash.

## Main definitions

* `Update.Channel`, `Update.Target` — what a package is for.
* `Update.Envelope`, `Update.parseEnvelope` — the envelope, and its parser.
* `Update.signingInput` — what the keys sign.

## Main results

* `Update.eq_of_signingInput` — what is signed determines all of the package but its signatures.
-/

namespace Update

/-- The channel of a package or of a build. -/
inductive Channel where
  | stable
  | beta
  | canaryPublic
  | canaryPrivate
  deriving DecidableEq

inductive Os where
  | windows
  | mac
  | linux
  deriving DecidableEq

inductive Arch where
  | x86
  | x64
  | arm
  deriving DecidableEq

/-- What a package was built for. -/
structure Target where
  os : Os
  arch : Arch
  deriving DecidableEq

/-- A signature in an envelope. -/
structure EnvelopeSignature where
  keyId : Bytes
  bytes : Bytes
  deriving DecidableEq

/-- The part of an envelope that the keys sign directly. -/
structure Header where
  channel : Channel
  target : Target
  version : ℕ
  created : ℤ
  manifest : Bytes
  deriving DecidableEq

/-- The envelope of a package. -/
structure Envelope extends Header where
  manifestSignature : Bytes
  signatures : List EnvelopeSignature
  payload : Bytes
  signedRegion : Bytes
  deriving DecidableEq

def kEnvelopeMagic : Bytes := Json.ascii "TDUP"
def kEnvelopeFormat : ℕ := 2
def kMaxPayloadSize : ℕ := 256 * 1024 * 1024

namespace Channel

/-- The channel of a byte. -/
def ofByte : ℕ → Option Channel
  | 0 => some stable
  | 1 => some beta
  | 2 => some canaryPublic
  | 3 => some canaryPrivate
  | _ => none

/-- `ChannelName`. -/
def name : Channel → Bytes
  | stable => Json.ascii "stable"
  | beta => Json.ascii "beta"
  | canaryPublic => Json.ascii "canary-public"
  | canaryPrivate => Json.ascii "canary-private"

end Channel

/-- The system of a byte. -/
def Os.ofByte : ℕ → Option Os
  | 0 => some windows
  | 1 => some mac
  | 2 => some linux
  | _ => none

/-- The processor of a byte. -/
def Arch.ofByte : ℕ → Option Arch
  | 0 => some x86
  | 1 => some x64
  | 2 => some arm
  | _ => none

/-- A number of 64 bits as a signed one. -/
def toInt64 (n : ℕ) : ℤ := if n < 2 ^ 63 then n else n - 2 ^ 64

/-- `IsV2UpdateFile`. -/
def isV2UpdateFile (data : Bytes) : Bool := data.length ≥ 4 && data.take 4 = kEnvelopeMagic

/-- The magic of an envelope. -/
def readMagic : Reader Unit := fun data =>
  if isV2UpdateFile data then .ok ((), data.drop 4) else .error "Bad envelope magic."

/-- What comes after the magic in the signed region. -/
def readFields : Reader Header := do
  let format ← Reader.u32 "Bad envelope format."
  Reader.require (format = kEnvelopeFormat) "Bad envelope format."
  let channel ← Reader.u8 "Bad envelope channel."
  let channel ← Reader.ofOption "Bad envelope channel." (Channel.ofByte channel)
  let os ← Reader.u8 "Bad envelope os."
  let os ← Reader.ofOption "Bad envelope os." (Os.ofByte os)
  let arch ← Reader.u8 "Bad envelope arch."
  let arch ← Reader.ofOption "Bad envelope arch." (Arch.ofByte arch)
  let version ← Reader.u64 "Bad envelope version."
  let created ← Reader.u64 "Bad envelope timestamp."
  let manifest ← Reader.block "Bad envelope manifest size." "Bad envelope manifest." kMaxManifestSize
  pure { channel, target := { os, arch }, version, created := toInt64 created, manifest }

/-- The signed region of an envelope. -/
def readHeader : Reader Header := readMagic.bind fun _ => readFields

/-- A signature of an envelope. -/
def readSignature : Reader EnvelopeSignature := do
  let keyId ← Reader.block "Bad envelope key id size." "Bad envelope key id." kMaxKeyIdSize
  let bytes ← Reader.block "Bad envelope signature size." "Bad envelope signature." kMaxSignatureSize
  pure { keyId, bytes }

/-- What comes after the signed region: the signature of the manifest, the signatures, the payload. -/
def readRest : Reader (Bytes × List EnvelopeSignature × Bytes) := do
  let manifestSignature ← Reader.block "Bad envelope manifest signature size."
    "Bad envelope manifest signature." kMaxManifestSignatureSize
  let count ← Reader.u32 "Bad envelope signature count."
  Reader.require (count ≤ kMaxSignatures) "Bad envelope signature count."
  let signatures ← Reader.times readSignature count
  let payload ← Reader.block "Bad envelope payload size." "Bad envelope payload." kMaxPayloadSize
  pure (manifestSignature, signatures, payload)

/-- `ParseEnvelope`. The signed region ends where the header does, and the payload ends the data. -/
def parseEnvelope (data : Bytes) : Except String Envelope := do
  let (header, rest) ← readHeader data
  let ((manifestSignature, signatures, payload), rest') ← readRest rest
  checked (rest' = []) "Bad envelope payload."
  .ok { toHeader := header, manifestSignature, signatures, payload
        signedRegion := data.take (data.length - rest.length) }

section Signing

variable {Key : Type} (lib : Library Key)

/-- `SigningInput`. -/
def signingInput (envelope : Envelope) : Bytes :=
  let hash := sha256 lib envelope.payload
  if hash.isEmpty || envelope.signedRegion.isEmpty then [] else envelope.signedRegion ++ hash

variable {lib}

lemma local_readMagic : Reader.Local readMagic := by
  intro data x rest h
  unfold readMagic at h
  split_ifs at h with hmagic
  cases h
  simp only [isV2UpdateFile, Bool.and_eq_true, decide_eq_true_eq] at hmagic
  obtain ⟨hlength, htake⟩ := hmagic
  refine ⟨data.take 4, (List.take_append_drop _ _).symm, fun other => ?_⟩
  have hsize : (data.take 4).length = 4 := List.length_take_of_le hlength
  have hmagic' : isV2UpdateFile (data.take 4 ++ other) = true := by
    simp only [isV2UpdateFile, Bool.and_eq_true, decide_eq_true_eq]
    refine ⟨by rw [List.length_append]; omega, ?_⟩
    rw [List.take_left' hsize]
    exact htake
  unfold readMagic
  rw [if_pos hmagic', List.drop_left' hsize]

lemma local_readFields : Reader.Local readFields := by
  unfold readFields
  refine (Reader.Local.u32 _).bind fun _ => (Reader.Local.require _ _).bind fun _ =>
    (Reader.Local.u8 _).bind fun _ => (Reader.Local.ofOption _ _).bind fun _ =>
    (Reader.Local.u8 _).bind fun _ => (Reader.Local.ofOption _ _).bind fun _ =>
    (Reader.Local.u8 _).bind fun _ => (Reader.Local.ofOption _ _).bind fun _ =>
    (Reader.Local.u64 _).bind fun _ => (Reader.Local.u64 _).bind fun _ =>
    (Reader.Local.block _ _ _).bind fun _ => Reader.Local.pure _

/-- The header is told from the signed region. -/
lemma local_readHeader : Reader.Local readHeader :=
  local_readMagic.bind fun _ => local_readFields

/-- The signed region begins with the magic. -/
lemma magic_of_readHeader {region rest : Bytes} {header : Header}
    (h : readHeader (region ++ rest) = .ok (header, rest)) : ∃ fields, region = kEnvelopeMagic ++ fields := by
  obtain ⟨_, middle, hmagic, hfields⟩ := Reader.bind_ok.mp h
  unfold readMagic at hmagic
  split_ifs at hmagic with hmagic'
  cases hmagic
  simp only [isV2UpdateFile, Bool.and_eq_true, decide_eq_true_eq] at hmagic'
  obtain ⟨fields, hmiddle, -⟩ := local_readFields _ _ _ hfields
  have hall := List.take_append_drop 4 (region ++ rest)
  rw [hmagic'.2, hmiddle, ← List.append_assoc] at hall
  exact ⟨fields, (List.append_cancel_right hall).symm⟩

/-- The signed region of an envelope is what its header was read from. -/
lemma parseEnvelope_ok {data : Bytes} {envelope : Envelope} (h : parseEnvelope data = .ok envelope) :
    ∃ rest, data = envelope.signedRegion ++ rest ∧
      readHeader (envelope.signedRegion ++ rest) = .ok (envelope.toHeader, rest) := by
  unfold parseEnvelope at h
  simp only [bind_eq_ok, checked_eq_ok] at h
  obtain ⟨⟨header, rest⟩, hheader, ⟨⟨manifestSignature, signatures, payload⟩, rest'⟩, -, -, -, h⟩ := h
  cases h
  obtain ⟨taken, rfl, hsame⟩ := local_readHeader _ _ _ hheader
  have htaken : (taken ++ rest).take ((taken ++ rest).length - rest.length) = taken := by
    rw [List.length_append, Nat.add_sub_cancel, List.take_left]
  dsimp only
  rw [htaken]
  exact ⟨rest, rfl, hsame rest⟩

lemma length_sha256 {data : Bytes} (h : sha256 lib data ≠ []) : (sha256 lib data).length = kSha256Size := by
  unfold sha256 at h ⊢
  cases hdigest : lib.digest data with
  | none =>
    rw [hdigest] at h
    exact absurd rfl h
  | some hash =>
    rw [hdigest] at h
    dsimp only at h ⊢
    split_ifs at h ⊢ with hlength
    · exact hlength
    · exact absurd rfl h

lemma signingInput_eq {envelope : Envelope} (h : signingInput lib envelope ≠ []) :
    sha256 lib envelope.payload ≠ [] ∧
      signingInput lib envelope = envelope.signedRegion ++ sha256 lib envelope.payload := by
  unfold signingInput at h ⊢
  dsimp only at h ⊢
  split_ifs at h ⊢ with hempty
  · exact absurd rfl h
  · rw [Bool.or_eq_true, not_or, List.isEmpty_iff] at hempty
    exact ⟨hempty.1, rfl⟩

/-- **What is signed determines the package**: its channel, target, version, time, manifest and
payload. -/
theorem eq_of_signingInput
    {data data' : Bytes} {envelope envelope' : Envelope}
    (hcollision : sha256 lib envelope.payload = sha256 lib envelope'.payload →
      envelope'.payload = envelope.payload) (h : parseEnvelope data = .ok envelope)
    (h' : parseEnvelope data' = .ok envelope') (hne : signingInput lib envelope ≠ [])
    (heq : signingInput lib envelope = signingInput lib envelope') :
    envelope'.toHeader = envelope.toHeader ∧ envelope'.payload = envelope.payload := by
  obtain ⟨hhash, hinput⟩ := signingInput_eq hne
  obtain ⟨hhash', hinput'⟩ := signingInput_eq (heq ▸ hne)
  rw [hinput, hinput'] at heq
  have hlength : (sha256 lib envelope.payload).length = (sha256 lib envelope'.payload).length :=
    (length_sha256 hhash).trans (length_sha256 hhash').symm
  obtain ⟨hregion, hsame⟩ := List.append_inj' heq hlength
  obtain ⟨rest, -, hheader⟩ := parseEnvelope_ok h
  obtain ⟨rest', -, hheader'⟩ := parseEnvelope_ok h'
  rw [← hregion] at hheader'
  exact ⟨local_readHeader.unique hheader' hheader, hcollision hsame⟩

end Signing

end Update
