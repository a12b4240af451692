import Telegravim.Foundation.Cursor
import Telegravim.Update.Envelope

set_option autoImplicit false

/-!
# Updates: the packer and the parser of envelopes

The packer writes the fields of an envelope one after another, and the parser of the client reads them. The parser
accepts exactly what the packer writes for fields within its limits.

## Main definitions

* `Update.buildV2Envelope` — the packer.
* `Update.WithinLimits` — the fields that the parser accepts.
* `Update.parseEnvelopeAt` — the parser as it reads by an offset.

## Main results

* `Update.parseEnvelope_ok_iff` — the parser accepts what the packer writes, and nothing else.
* `Update.envelope_unambiguous` — the format is unambiguous, and what is signed determines the package.
-/

namespace Update

open Positional

/-! ### The packer -/

def appendLeU32 (value : ℕ) : Bytes :=
  [UInt8.ofNat (value &&& 0xFF), UInt8.ofNat ((value >>> 8) &&& 0xFF), UInt8.ofNat ((value >>> 16) &&& 0xFF),
    UInt8.ofNat ((value >>> 24) &&& 0xFF)]

def appendLeU64 (value : ℕ) : Bytes := appendLeU32 (value &&& 0xFFFFFFFF) ++ appendLeU32 (value >>> 32)

def Channel.toByte : Channel → ℕ
  | stable => 0
  | beta => 1
  | canaryPublic => 2
  | canaryPrivate => 3

def Os.toByte : Os → ℕ
  | windows => 0
  | mac => 1
  | linux => 2

def Arch.toByte : Arch → ℕ
  | x86 => 0
  | x64 => 1
  | arm => 2

/-- A signed number of 64 bits as an unsigned one. -/
def toUInt64 (value : ℤ) : ℕ := (value % 18446744073709551616).toNat

def buildV2Envelope (channel : Channel) (target : Target) (version : ℕ) (created : ℤ)
    (manifest manifestSignature : Bytes) (signatures : List (Bytes × Bytes)) (payload : Bytes) : Bytes :=
  kEnvelopeMagic ++ appendLeU32 kEnvelopeFormat ++ [UInt8.ofNat channel.toByte] ++ [UInt8.ofNat target.os.toByte] ++
    [UInt8.ofNat target.arch.toByte] ++ appendLeU64 version ++ appendLeU64 (toUInt64 created) ++
    appendLeU32 manifest.length ++ manifest ++ appendLeU32 manifestSignature.length ++ manifestSignature ++
    appendLeU32 signatures.length ++
    (signatures.flatMap fun (keyId, signature) =>
      appendLeU32 keyId.length ++ keyId ++ appendLeU32 signature.length ++ signature) ++
    appendLeU32 payload.length ++ payload

lemma appendLeU32_eq (value : ℕ) : appendLeU32 value = littleEndian 4 value := by
  have hbyte : ∀ n : ℕ, UInt8.ofNat (n &&& 0xFF) = UInt8.ofNat (n % 256) := fun n =>
    congrArg UInt8.ofNat (Nat.and_two_pow_sub_one_eq_mod n 8)
  rw [appendLeU32, hbyte, hbyte, hbyte, hbyte, Nat.shiftRight_eq_div_pow, Nat.shiftRight_eq_div_pow,
    Nat.shiftRight_eq_div_pow]
  simp only [littleEndian, Positional.digits, List.map_cons, List.map_nil, Nat.div_div_eq_div_mul]

lemma appendLeU64_eq (value : ℕ) : appendLeU64 value = littleEndian 8 value := by
  have hlow : value &&& 0xFFFFFFFF = value % 256 ^ 4 := Nat.and_two_pow_sub_one_eq_mod value 32
  have hsplit : ∀ n : ℕ, littleEndian (4 + n) value = littleEndian 4 value ++ littleEndian n (value / 256 ^ 4) :=
    littleEndian_add 4 value
  have hpow : 2 ^ 32 = 256 ^ 4 := by decide
  rw [appendLeU64, appendLeU32_eq, appendLeU32_eq, hlow, Nat.shiftRight_eq_div_pow, hpow, hsplit 4, littleEndian_mod]

/-! ### The fields -/

lemma Channel.ofByte_eq {byte : ℕ} {channel : Channel} :
    Channel.ofByte byte = some channel ↔ channel.toByte = byte := by
  unfold Channel.ofByte Channel.toByte
  split <;> cases channel <;> simp_all [eq_comm]

lemma Os.ofByte_eq {byte : ℕ} {os : Os} : Os.ofByte byte = some os ↔ os.toByte = byte := by
  unfold Os.ofByte Os.toByte
  split <;> cases os <;> simp_all [eq_comm]

lemma Arch.ofByte_eq {byte : ℕ} {arch : Arch} : Arch.ofByte byte = some arch ↔ arch.toByte = byte := by
  unfold Arch.ofByte Arch.toByte
  split <;> cases arch <;> simp_all [eq_comm]

/-- A signed number of 64 bits. -/
def IsInt64 (value : ℤ) : Prop := -9223372036854775808 ≤ value ∧ value < 9223372036854775808

lemma toUInt64_lt (value : ℤ) : toUInt64 value < 256 ^ 8 := by
  have hpow : 256 ^ 8 = 18446744073709551616 := by decide
  rw [toUInt64, hpow]
  omega

lemma toUInt64_toInt64 {value : ℕ} (h : value < 256 ^ 8) : toUInt64 (toInt64 value) = value := by
  have hpow : 256 ^ 8 = 18446744073709551616 := by decide
  have hhalf : 2 ^ 63 = 9223372036854775808 := by decide
  rw [hpow] at h
  rw [toUInt64, toInt64, hhalf]
  split_ifs <;> omega

lemma isInt64_toInt64 {value : ℕ} (h : value < 256 ^ 8) : IsInt64 (toInt64 value) := by
  have hpow : 256 ^ 8 = 18446744073709551616 := by decide
  have hhalf : 2 ^ 63 = 9223372036854775808 := by decide
  rw [hpow] at h
  rw [IsInt64, toInt64, hhalf]
  split_ifs <;> omega

lemma toInt64_toUInt64 {value : ℤ} (h : IsInt64 value) : toInt64 (toUInt64 value) = value := by
  obtain ⟨hlow, hhigh⟩ := h
  have hhalf : 2 ^ 63 = 9223372036854775808 := by decide
  rw [toUInt64, toInt64, hhalf]
  split_ifs <;> omega

/-- The signed region as the packer writes it. -/
def buildHeader (header : Header) : Bytes :=
  kEnvelopeMagic ++ appendLeU32 kEnvelopeFormat ++ [UInt8.ofNat header.channel.toByte] ++
    [UInt8.ofNat header.target.os.toByte] ++ [UInt8.ofNat header.target.arch.toByte] ++ appendLeU64 header.version ++
    appendLeU64 (toUInt64 header.created) ++ appendLeU32 header.manifest.length ++ header.manifest

/-- What the parser accepts in the signed region. -/
structure HeaderWithinLimits (header : Header) : Prop where
  version : header.version < 18446744073709551616
  created : IsInt64 header.created
  manifest : header.manifest.length ≠ 0 ∧ header.manifest.length ≤ kMaxManifestSize

lemma littleEndian_one (value : ℕ) : littleEndian 1 value = [UInt8.ofNat (value % 256)] := rfl

lemma exact_readMagic : Reader.Exact readMagic (fun _ => kEnvelopeMagic) fun _ => True := by
  have hsize : kEnvelopeMagic.length = 4 := by decide
  intro data x rest
  unfold readMagic
  constructor
  · intro h
    split_ifs at h with hmagic
    cases h
    simp only [isV2UpdateFile, Bool.and_eq_true, decide_eq_true_eq] at hmagic
    exact ⟨trivial, by rw [← hmagic.2, List.take_append_drop]⟩
  · rintro ⟨-, rfl⟩
    have hmagic : isV2UpdateFile (kEnvelopeMagic ++ rest) = true := by
      simp only [isV2UpdateFile, Bool.and_eq_true, decide_eq_true_eq]
      exact ⟨by rw [List.length_append]; omega, List.take_left' hsize⟩
    rw [if_pos hmagic, List.drop_left' hsize]

lemma kMaxManifestSize_lt : kMaxManifestSize < 256 ^ 4 := by decide

/-- **The parser reads what the packer writes** between the magic and the end of the signed region. -/
theorem exact_readFields :
    Reader.Exact readFields
      (fun header => littleEndian 4 kEnvelopeFormat ++ (littleEndian 1 header.channel.toByte ++
        (littleEndian 1 header.target.os.toByte ++ (littleEndian 1 header.target.arch.toByte ++
          (littleEndian 8 header.version ++ (littleEndian 8 (toUInt64 header.created) ++
            (littleEndian 4 header.manifest.length ++ header.manifest)))))))
      HeaderWithinLimits := by
  have hmanifest : ∀ channel os arch version created, Reader.Exact
      (Reader.bind (Reader.block "Bad envelope manifest size." "Bad envelope manifest." kMaxManifestSize)
        fun manifest => Reader.pure
          ({ channel, target := { os, arch }, version, created := toInt64 created, manifest } : Header))
      (fun header => littleEndian 4 header.manifest.length ++ header.manifest)
      (fun header => (header.manifest.length ≠ 0 ∧ header.manifest.length ≤ kMaxManifestSize) ∧
        header = { channel, target := { os, arch }, version, created := toInt64 created, manifest :=
          header.manifest }) :=
    fun _ _ _ _ _ => (Reader.Exact.block _ _ kMaxManifestSize_lt).map Header.manifest (fun _ _ => rfl) fun _ => Iff.rfl
  have hcreated := fun channel os arch version =>
    (Reader.Exact.u64 "Bad envelope timestamp.").bind_of (fun header : Header => toUInt64 header.created)
      (fun created _ => hmanifest channel os arch version created) fun created header hcreated h => by
        rw [h.2, toUInt64_toInt64 hcreated]
  have hversion := fun channel os arch =>
    (Reader.Exact.u64 "Bad envelope version.").bind_of Header.version
      (fun version _ => hcreated channel os arch version) fun version header _ h => by rw [h.2.2]
  have harch := fun channel os =>
    (Reader.Exact.u8 "Bad envelope arch.").coded Arch.ofByte Arch.toByte "Bad envelope arch."
      (fun _ _ => Arch.ofByte_eq) (fun arch => by cases arch <;> decide) (fun header => header.target.arch)
      (fun arch => hversion channel os arch) fun arch header h => by rw [h.2.2.2]
  have hos := fun channel =>
    (Reader.Exact.u8 "Bad envelope os.").coded Os.ofByte Os.toByte "Bad envelope os."
      (fun _ _ => Os.ofByte_eq) (fun os => by cases os <;> decide) (fun header => header.target.os)
      (fun os => harch channel os) fun os header h => by rw [h.2.2.2]
  have hchannel :=
    (Reader.Exact.u8 "Bad envelope channel.").coded Channel.ofByte Channel.toByte "Bad envelope channel."
      (fun _ _ => Channel.ofByte_eq) (fun channel => by cases channel <;> decide) (fun header => header.channel)
      (fun channel => hos channel) fun channel header h => by rw [h.2.2.2]
  have hformat := (Reader.Exact.u32 "Bad envelope format.").constant kEnvelopeFormat (by decide) "Bad envelope format."
    hchannel
  refine Reader.Exact.congr (r := readFields) hformat (fun header => ?_) fun _ _ => rfl
  constructor
  · rintro ⟨hversion, hcreated, hmanifest, hheader⟩
    refine ⟨hversion, ?_, hmanifest⟩
    rw [hheader]
    exact isInt64_toInt64 hcreated
  · intro h
    refine ⟨h.version, toUInt64_lt _, h.manifest, ?_⟩
    rw [toInt64_toUInt64 h.created]

theorem exact_readHeader : Reader.Exact readHeader buildHeader HeaderWithinLimits := by
  have hfields : ∀ x : Unit, True → Reader.Exact readFields _ fun header => () = x ∧ HeaderWithinLimits header :=
    fun _ _ => exact_readFields.congr (fun _ => ⟨fun h => ⟨rfl, h⟩, fun h => h.2⟩) fun _ _ => rfl
  refine (exact_readMagic.bind (fun _ => ()) hfields).congr (fun _ => ⟨fun h => h.2, fun h => ⟨trivial, h⟩⟩)
    fun header _ => ?_
  have hbyte : ∀ value < 256, littleEndian 1 value = [UInt8.ofNat value] := fun value h => by
    rw [littleEndian_one, Nat.mod_eq_of_lt h]
  rw [hbyte _ (by cases header.channel <;> decide), hbyte _ (by cases header.target.os <;> decide),
    hbyte _ (by cases header.target.arch <;> decide)]
  simp only [buildHeader, appendLeU32_eq, appendLeU64_eq, List.append_assoc]

/-- A signature as the packer writes it. -/
def buildSignature (signature : EnvelopeSignature) : Bytes :=
  appendLeU32 signature.keyId.length ++ signature.keyId ++ appendLeU32 signature.bytes.length ++ signature.bytes

/-- What the parser accepts for a signature. -/
def SignatureWithinLimits (signature : EnvelopeSignature) : Prop :=
  (signature.keyId.length ≠ 0 ∧ signature.keyId.length ≤ kMaxKeyIdSize) ∧
    signature.bytes.length ≠ 0 ∧ signature.bytes.length ≤ kMaxSignatureSize

lemma exact_readSignature : Reader.Exact readSignature buildSignature SignatureWithinLimits := by
  have hbytes : ∀ keyId, Reader.Exact
      (Reader.bind (Reader.block "Bad envelope signature size." "Bad envelope signature." kMaxSignatureSize)
        fun bytes => Reader.pure ({ keyId, bytes } : EnvelopeSignature))
      (fun signature => littleEndian 4 signature.bytes.length ++ signature.bytes)
      (fun signature => (signature.bytes.length ≠ 0 ∧ signature.bytes.length ≤ kMaxSignatureSize) ∧
        signature = { keyId, bytes := signature.bytes }) :=
    fun _ => (Reader.Exact.block _ _ (by decide)).map EnvelopeSignature.bytes (fun _ _ => rfl) fun _ => Iff.rfl
  have hkeyId := (Reader.Exact.block "Bad envelope key id size." "Bad envelope key id."
    (by decide : kMaxKeyIdSize < 256 ^ 4)).bind_of EnvelopeSignature.keyId (fun keyId _ => hbytes keyId)
      fun keyId signature _ h => by rw [h.2]
  refine Reader.Exact.congr (r := readSignature) hkeyId (fun signature => ?_) fun signature _ => ?_
  · exact ⟨fun h => ⟨h.1, h.2.1⟩, fun h => ⟨h.1, h.2, rfl⟩⟩
  · simp only [buildSignature, appendLeU32_eq, List.append_assoc]

/-- What comes after the signed region, as the packer writes it. -/
def buildRest (fields : Bytes × List EnvelopeSignature × Bytes) : Bytes :=
  appendLeU32 fields.1.length ++ fields.1 ++ appendLeU32 fields.2.1.length ++ fields.2.1.flatMap buildSignature ++
    appendLeU32 fields.2.2.length ++ fields.2.2

/-- What the parser accepts after the signed region. -/
structure RestWithinLimits (fields : Bytes × List EnvelopeSignature × Bytes) : Prop where
  manifestSignature : fields.1.length ≠ 0 ∧ fields.1.length ≤ kMaxManifestSignatureSize
  count : fields.2.1.length ≤ kMaxSignatures
  signatures : ∀ signature ∈ fields.2.1, SignatureWithinLimits signature
  payload : fields.2.2.length ≠ 0 ∧ fields.2.2.length ≤ kMaxPayloadSize

lemma kMaxPayloadSize_lt : kMaxPayloadSize < 256 ^ 4 := by decide

theorem exact_readRest : Reader.Exact readRest buildRest RestWithinLimits := by
  have hpayload : ∀ (manifestSignature : Bytes) (signatures : List EnvelopeSignature), Reader.Exact
      (Reader.bind (Reader.block "Bad envelope payload size." "Bad envelope payload." kMaxPayloadSize)
        fun payload => Reader.pure (manifestSignature, signatures, payload))
      (fun fields => littleEndian 4 fields.2.2.length ++ fields.2.2)
      (fun fields => (fields.2.2.length ≠ 0 ∧ fields.2.2.length ≤ kMaxPayloadSize) ∧
        fields = (manifestSignature, signatures, fields.2.2)) :=
    fun _ _ => (Reader.Exact.block _ _ kMaxPayloadSize_lt).map
      (fun fields : Bytes × List EnvelopeSignature × Bytes => fields.2.2) (fun _ _ => rfl) fun _ => Iff.rfl
  have hsignatures := fun manifestSignature count =>
    (exact_readSignature.times count).bind_of (fun fields : Bytes × List EnvelopeSignature × Bytes => fields.2.1)
      (fun signatures _ => hpayload manifestSignature signatures) fun signatures fields _ h => by rw [h.2]
  have hcount := fun manifestSignature count =>
    (Reader.Exact.require (count ≤ kMaxSignatures) "Bad envelope signature count.").bind_of
      (fun _ : Bytes × List EnvelopeSignature × Bytes => ()) (fun _ _ => hsignatures manifestSignature count)
      fun _ _ _ _ => rfl
  have hnumber := fun manifestSignature =>
    (Reader.Exact.u32 "Bad envelope signature count.").bind_of
      (fun fields : Bytes × List EnvelopeSignature × Bytes => fields.2.1.length)
      (fun count _ => hcount manifestSignature count) fun count fields _ h => h.2.1.1
  have hmanifestSignature := (Reader.Exact.block "Bad envelope manifest signature size."
    "Bad envelope manifest signature." (by decide : kMaxManifestSignatureSize < 256 ^ 4)).bind_of
      (fun fields : Bytes × List EnvelopeSignature × Bytes => fields.1)
      (fun manifestSignature _ => hnumber manifestSignature) fun manifestSignature fields _ h => by rw [h.2.2.2.2]
  refine Reader.Exact.congr (r := readRest) hmanifestSignature (fun fields => ?_) fun fields _ => ?_
  · constructor
    · rintro ⟨hmanifestSignature, -, hcount, ⟨-, hsignatures⟩, hpayload, -⟩
      exact ⟨hmanifestSignature, hcount, hsignatures, hpayload⟩
    · intro h
      refine ⟨h.manifestSignature, ?_, h.count, ⟨rfl, h.signatures⟩, h.payload, rfl⟩
      exact lt_of_le_of_lt h.count (by decide)
  · simp only [buildRest, appendLeU32_eq, List.append_assoc, List.nil_append]

/-! ### The whole envelope -/

namespace Envelope

variable (envelope : Envelope)

/-- The fields after the signed region. -/
def rest : Bytes × List EnvelopeSignature × Bytes :=
  (envelope.manifestSignature, envelope.signatures, envelope.payload)

/-- The packer applied to the fields of an envelope. -/
def build : Bytes :=
  buildV2Envelope envelope.channel envelope.target envelope.version envelope.created envelope.manifest
    envelope.manifestSignature (envelope.signatures.map fun signature => (signature.keyId, signature.bytes))
    envelope.payload

/-- **The limits that the parser checks.** -/
structure WithinLimits : Prop where
  header : HeaderWithinLimits envelope.toHeader
  rest : RestWithinLimits envelope.rest

lemma build_eq : envelope.build = buildHeader envelope.toHeader ++ buildRest envelope.rest := by
  have hsignatures : ((envelope.signatures.map fun signature => (signature.keyId, signature.bytes)).flatMap
      fun (keyId, signature) => appendLeU32 keyId.length ++ keyId ++ appendLeU32 signature.length ++ signature) =
      envelope.signatures.flatMap buildSignature := by
    rw [List.flatMap_map]
    rfl
  rw [build, buildV2Envelope, hsignatures, List.length_map]
  simp only [buildHeader, buildRest, rest, List.append_assoc]

end Envelope

/-- **The parser accepts what the packer writes for fields within the limits, and nothing else.** -/
theorem parseEnvelope_ok_iff (data : Bytes) (envelope : Envelope) :
    parseEnvelope data = .ok envelope ↔
      envelope.WithinLimits ∧ envelope.signedRegion = buildHeader envelope.toHeader ∧ data = envelope.build := by
  unfold parseEnvelope
  simp only [bind_eq_ok, checked_eq_ok]
  constructor
  · rintro ⟨⟨header, rest⟩, hreadHeader, ⟨⟨manifestSignature, signatures, payload⟩, rest'⟩, hreadRest, -, rfl, h⟩
    cases h
    obtain ⟨hheader, rfl⟩ := (exact_readHeader _ _ _).mp hreadHeader
    obtain ⟨hrest, hdata⟩ := (exact_readRest _ _ _).mp hreadRest
    rw [List.append_nil] at hdata
    refine ⟨⟨hheader, hrest⟩, ?_, ?_⟩
    · dsimp only
      rw [List.length_append, Nat.add_sub_cancel, List.take_left]
    · rw [Envelope.build_eq]
      exact congrArg (buildHeader header ++ ·) hdata
  · rintro ⟨h, hregion, rfl⟩
    refine ⟨(envelope.toHeader, buildRest envelope.rest), ?_, (envelope.rest, []), ?_, (), rfl, ?_⟩
    · exact (exact_readHeader _ _ _).mpr ⟨h.header, envelope.build_eq⟩
    · exact (exact_readRest _ _ _).mpr ⟨h.rest, (List.append_nil _).symm⟩
    · dsimp only
      rw [envelope.build_eq, List.length_append, Nat.add_sub_cancel, List.take_left, ← hregion]
      rfl

/-! ### The parser as it reads -/

/-- The magic, compared in place. -/
def readMagicAt : Cursor Unit := fun data _ =>
  if data.length ≥ 4 then
    (Cursor.copy data 0 4).map fun magic =>
      if magic = kEnvelopeMagic then .ok ((), 4) else .error "Bad envelope magic."
  else some (.error "Bad envelope magic.")

def readFieldsAt : Cursor Header := do
  let format ← Cursor.u32 "Bad envelope format."
  Cursor.require (format = kEnvelopeFormat) "Bad envelope format."
  let channel ← Cursor.u8 "Bad envelope channel."
  let channel ← Cursor.ofOption "Bad envelope channel." (Channel.ofByte channel)
  let os ← Cursor.u8 "Bad envelope os."
  let os ← Cursor.ofOption "Bad envelope os." (Os.ofByte os)
  let arch ← Cursor.u8 "Bad envelope arch."
  let arch ← Cursor.ofOption "Bad envelope arch." (Arch.ofByte arch)
  let version ← Cursor.u64 "Bad envelope version."
  let created ← Cursor.u64 "Bad envelope timestamp."
  let manifest ← Cursor.block "Bad envelope manifest size." "Bad envelope manifest." kMaxManifestSize
  pure { channel, target := { os, arch }, version, created := toInt64 created, manifest }

def readSignatureAt : Cursor EnvelopeSignature := do
  let keyId ← Cursor.block "Bad envelope key id size." "Bad envelope key id." kMaxKeyIdSize
  let bytes ← Cursor.block "Bad envelope signature size." "Bad envelope signature." kMaxSignatureSize
  pure { keyId, bytes }

def readRestAt : Cursor (Bytes × List EnvelopeSignature × Bytes) := do
  let manifestSignature ← Cursor.block "Bad envelope manifest signature size."
    "Bad envelope manifest signature." kMaxManifestSignatureSize
  let count ← Cursor.u32 "Bad envelope signature count."
  Cursor.require (count ≤ kMaxSignatures) "Bad envelope signature count."
  let signatures ← Cursor.times readSignatureAt count
  let payload ← Cursor.block "Bad envelope payload size." "Bad envelope payload." kMaxPayloadSize
  pure (manifestSignature, signatures, payload)

/-- `ParseEnvelope` as it reads by an offset. There is no outcome where a byte past the end is read. -/
def parseEnvelopeAt : Cursor Envelope := do
  readMagicAt
  let header ← readFieldsAt
  let signedRegion ← Cursor.before
  let (manifestSignature, signatures, payload) ← readRestAt
  Cursor.atEnd "Bad envelope payload."
  pure { toHeader := header, manifestSignature, signatures, payload, signedRegion }

lemma follows_readFieldsAt : Cursor.Follows readFieldsAt readFields :=
  (Cursor.Follows.u32 _).bind fun _ => (Cursor.Follows.require _ _).bind fun _ =>
    (Cursor.Follows.u8 _).bind fun _ => (Cursor.Follows.ofOption _ _).bind fun _ =>
    (Cursor.Follows.u8 _).bind fun _ => (Cursor.Follows.ofOption _ _).bind fun _ =>
    (Cursor.Follows.u8 _).bind fun _ => (Cursor.Follows.ofOption _ _).bind fun _ =>
    (Cursor.Follows.u64 _).bind fun _ => (Cursor.Follows.u64 _).bind fun _ =>
    (Cursor.Follows.block _ _ _).bind fun _ => Cursor.Follows.pure _

lemma follows_readSignatureAt : Cursor.Follows readSignatureAt readSignature :=
  (Cursor.Follows.block _ _ _).bind fun _ => (Cursor.Follows.block _ _ _).bind fun _ => Cursor.Follows.pure _

lemma follows_readRestAt : Cursor.Follows readRestAt readRest :=
  (Cursor.Follows.block _ _ _).bind fun _ => (Cursor.Follows.u32 _).bind fun _ =>
    (Cursor.Follows.require _ _).bind fun _ => (follows_readSignatureAt.times _).bind fun _ =>
    (Cursor.Follows.block _ _ _).bind fun _ => Cursor.Follows.pure _

lemma readMagicAt_eq (data : Bytes) :
    readMagicAt data 0 = some ((readMagic data).map fun read => (read.1, data.length - read.2.length)) := by
  rw [readMagicAt, readMagic]
  by_cases hlength : data.length ≥ 4
  · have hcopy : Cursor.copy data 0 4 = some (data.take 4) := by
      rw [Cursor.copy, if_pos (by omega), List.drop_zero]
    rw [if_pos hlength, hcopy, Option.map_some]
    by_cases hmagic : data.take 4 = kEnvelopeMagic
    · have hv2 : isV2UpdateFile data = true := by
        rw [isV2UpdateFile, Bool.and_eq_true, decide_eq_true_eq, decide_eq_true_eq]
        exact ⟨hlength, hmagic⟩
      have hback : data.length - (data.length - 4) = 4 := by omega
      rw [if_pos hmagic, if_pos hv2, Except.map, List.length_drop, hback]
    · have hv2 : ¬ isV2UpdateFile data = true := by
        rw [isV2UpdateFile, Bool.and_eq_true, decide_eq_true_eq, decide_eq_true_eq]
        exact fun h => hmagic h.2
      rw [if_neg hmagic, if_neg hv2]
      rfl
  · have hv2 : ¬ isV2UpdateFile data = true := by
      rw [isV2UpdateFile, Bool.and_eq_true, decide_eq_true_eq]
      exact fun h => hlength h.1
    rw [if_neg hlength, if_neg hv2]
    rfl

/-- The signed region is read with the reader's outcome. -/
lemma readHeaderAt_eq {β : Type} (data : Bytes)
    (next : Header → Cursor β) :
    Cursor.bind readMagicAt (fun _ => Cursor.bind readFieldsAt next) data 0 =
      match readHeader data with
      | .error fault => some (.error fault)
      | .ok (header, rest) => next header data (data.length - rest.length) := by
  have hmagicAt := readMagicAt_eq data
  rw [readHeader, Reader.bind]
  rcases hmagic : readMagic data with fault | ⟨x, rest⟩
  · rw [hmagic] at hmagicAt
    exact Cursor.bind_error hmagicAt _
  · rw [hmagic] at hmagicAt
    obtain ⟨taken, hdata, -⟩ := local_readMagic _ _ _ hmagic
    have hdrop : data.drop (data.length - rest.length) = rest := by
      rw [hdata, List.length_append, Nat.add_sub_cancel, List.drop_left]
    have hfieldsAt := follows_readFieldsAt.run data _ (Nat.sub_le data.length rest.length)
    rw [hdrop] at hfieldsAt
    rw [Cursor.bind_ok hmagicAt]
    dsimp only
    rcases hfields : readFields rest with fault | ⟨header, left⟩
    · rw [hfields] at hfieldsAt
      exact Cursor.bind_error hfieldsAt _
    · rw [hfields] at hfieldsAt
      exact Cursor.bind_ok hfieldsAt _

/-- What the parser does after the signed region. -/
lemma parseEnvelope_of_readHeader {data rest : Bytes} {header : Header} (h : readHeader data = .ok (header, rest)) :
    parseEnvelope data = (readRest rest >>= fun read => checked (read.2 = []) "Bad envelope payload." >>= fun _ =>
      .ok { toHeader := header, manifestSignature := read.1.1, signatures := read.1.2.1, payload := read.1.2.2
            signedRegion := data.take (data.length - rest.length) }) := by
  rw [parseEnvelope, h]
  rfl

/-- What the parser makes of all that it has read. -/
lemma parseEnvelope_of_readRest {data rest left : Bytes} {header : Header} (h : readHeader data = .ok (header, rest))
    {fields : Bytes × List EnvelopeSignature × Bytes} (hrest : readRest rest = .ok (fields, left)) :
    parseEnvelope data =
      if left = [] then .ok { toHeader := header, manifestSignature := fields.1, signatures := fields.2.1
                              payload := fields.2.2, signedRegion := data.take (data.length - rest.length) }
      else .error "Bad envelope payload." := by
  rw [parseEnvelope_of_readHeader h, hrest]
  show (checked (left = []) _ >>= _) = _
  by_cases hend : left = []
  · rw [checked, if_pos hend, if_pos hend]
    rfl
  · rw [checked, if_neg hend, if_neg hend]
    rfl

/-- **No read passes the end of the data**, and the parser that reads by an offset has the parser's outcome. -/
theorem parseEnvelopeAt_eq (data : Bytes) :
    parseEnvelopeAt data 0 = some ((parseEnvelope data).map fun envelope => (envelope, data.length)) := by
  refine (readHeaderAt_eq data _).trans ?_
  rcases hheader : readHeader data with fault | ⟨header, rest⟩
  · rw [parseEnvelope, hheader]
    rfl
  · obtain ⟨taken, hdata, -⟩ := local_readHeader _ _ _ hheader
    have hdrop : data.drop (data.length - rest.length) = rest := by
      rw [hdata, List.length_append, Nat.add_sub_cancel, List.drop_left]
    have hrestAt := follows_readRestAt.run data _ (Nat.sub_le data.length rest.length)
    rw [hdrop] at hrestAt
    refine (Cursor.bind_ok (c := Cursor.before) rfl _).trans ?_
    rcases hrest : readRest rest with fault | ⟨⟨manifestSignature, signatures, payload⟩, left⟩
    · rw [parseEnvelope_of_readHeader hheader, hrest]
      rw [hrest] at hrestAt
      exact Cursor.bind_error hrestAt _
    · rw [hrest] at hrestAt
      refine (Cursor.bind_ok hrestAt _).trans ?_
      rw [parseEnvelope_of_readRest hheader hrest]
      obtain ⟨taken', hrest', -⟩ := follows_readRestAt.looks _ _ _ hrest
      by_cases hend : left = []
      · have hatEnd : Cursor.atEnd "Bad envelope payload." data (data.length - left.length) =
            some (.ok ((), data.length)) := by
          rw [hend, Cursor.atEnd, List.length_nil, Nat.sub_zero, if_pos rfl]
        rw [if_pos hend]
        exact Cursor.bind_ok hatEnd _
      · have hpos : 0 < left.length := List.length_pos_iff.mpr hend
        have hlength : data.length = taken.length + (taken'.length + left.length) := by
          rw [hdata, hrest', List.length_append, List.length_append]
        have hatEnd : Cursor.atEnd "Bad envelope payload." data (data.length - left.length) =
            some (.error "Bad envelope payload.") := by
          rw [Cursor.atEnd, if_neg (by omega)]
        rw [if_neg hend]
        exact Cursor.bind_error hatEnd _

/-! ### The format -/

/-- Nothing but an accepted package itself begins with it and is accepted. -/
lemma eq_nil_of_parseEnvelope_append {data extra : Bytes} {envelope envelope' : Envelope}
    (h : parseEnvelope data = .ok envelope) (h' : parseEnvelope (data ++ extra) = .ok envelope') : extra = [] := by
  obtain ⟨hlimits, -, hdata⟩ := (parseEnvelope_ok_iff _ _).mp h
  have hheader : readHeader (data ++ extra) = .ok (envelope.toHeader, buildRest envelope.rest ++ extra) :=
    (exact_readHeader _ _ _).mpr ⟨hlimits.header, by rw [hdata, envelope.build_eq, List.append_assoc]⟩
  have hrest : readRest (buildRest envelope.rest ++ extra) = .ok (envelope.rest, extra) :=
    (exact_readRest _ _ _).mpr ⟨hlimits.rest, rfl⟩
  rw [parseEnvelope_of_readRest hheader hrest] at h'
  by_contra hextra
  rw [if_neg hextra] at h'
  cases h'

lemma signingInput_ne_nil {Key : Type} {lib : Library Key} {data : Bytes} {envelope : Envelope}
    (h : parseEnvelope data = .ok envelope) (hhash : sha256 lib envelope.payload ≠ []) :
    signingInput lib envelope ≠ [] := by
  obtain ⟨-, hregion, -⟩ := (parseEnvelope_ok_iff _ _).mp h
  have hmagic : envelope.signedRegion ≠ [] := by
    rw [hregion, buildHeader]
    simp [kEnvelopeMagic, Json.ascii]
  rw [signingInput, if_neg
    (by rw [Bool.or_eq_true, List.isEmpty_iff, List.isEmpty_iff]; exact not_or.mpr ⟨hhash, hmagic⟩)]
  exact fun hnil => hmagic (List.append_eq_nil_iff.mp hnil).1

/-- **The format of an update is unambiguous.** The packer gives back what the parser accepts, and the parser accepts
what the packer writes for fields within the limits, with these fields. No part and no extension of an accepted package
is accepted, and no read passes the end of the data. Where the hashes of the payloads do not collide, what is signed
determines the channel, target, version, time, manifest and payload. -/
theorem envelope_unambiguous {Key : Type} (lib : Library Key) :
    (∀ data envelope, parseEnvelope data = .ok envelope → envelope.WithinLimits ∧ envelope.build = data) ∧
    (∀ envelope : Envelope, envelope.WithinLimits →
      parseEnvelope envelope.build = .ok { envelope with signedRegion := buildHeader envelope.toHeader }) ∧
    (∀ part extra envelope, parseEnvelope (part ++ extra) = .ok envelope → extra ≠ [] →
      ∀ other, parseEnvelope part ≠ .ok other) ∧
    (∀ data extra envelope, parseEnvelope data = .ok envelope → extra ≠ [] →
      ∀ other, parseEnvelope (data ++ extra) ≠ .ok other) ∧
    (∀ data : Bytes,
      parseEnvelopeAt data 0 = some ((parseEnvelope data).map fun envelope => (envelope, data.length))) ∧
    ∀ data data' envelope envelope', parseEnvelope data = .ok envelope → parseEnvelope data' = .ok envelope' →
      sha256 lib envelope.payload ≠ [] →
      (sha256 lib envelope.payload = sha256 lib envelope'.payload → envelope'.payload = envelope.payload) →
      signingInput lib envelope = signingInput lib envelope' →
        envelope'.toHeader = envelope.toHeader ∧ envelope'.payload = envelope.payload := by
  refine ⟨fun data envelope h => ?_, fun envelope h => ?_, fun part extra envelope h hextra other h' => ?_,
    fun data extra envelope h hextra other h' => ?_, parseEnvelopeAt_eq,
    fun data data' envelope envelope' h h' hhash hcollision heq => ?_⟩
  · obtain ⟨hlimits, -, hdata⟩ := (parseEnvelope_ok_iff _ _).mp h
    exact ⟨hlimits, hdata.symm⟩
  · exact (parseEnvelope_ok_iff _ _).mpr ⟨⟨h.header, h.rest⟩, rfl, rfl⟩
  · exact hextra (eq_nil_of_parseEnvelope_append h' h)
  · exact hextra (eq_nil_of_parseEnvelope_append h h')
  · exact eq_of_signingInput hcollision h h' (signingInput_ne_nil h hhash) heq

end Update
