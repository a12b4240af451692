import Telegravim.Foundation.JsonText
import Telegravim.Foundation.Reader

set_option autoImplicit false

/-!
# Updates: the manifest

A manifest lists the keys that may sign packages, and for each channel the groups of keys that have to
sign. It is signed by the root key; the signature is checked before the bytes are parsed.

What the source calls of its libraries is `Library`: keys, signatures and hashes, the JSON parser and the
base64 decoder.

## Main definitions

* `Update.Library` — the libraries.
* `Update.Manifest` — a manifest.
* `Update.parseVerifiedManifest` — checks and parses a manifest.

## Main results

* `Update.parseVerifiedManifest_ok` — a manifest that is parsed is signed by the root key.
-/

namespace Update

open Text

/-- Bytes are ordered as byte arrays are: by the first that differs. -/
instance instLinearOrderUInt8 : LinearOrder UInt8 where
  le_refl := UInt8.le_refl
  le_trans := fun _ _ _ => UInt8.le_trans
  lt_iff_le_not_ge := fun a b => by
    rw [UInt8.le_iff_toNat_le, UInt8.le_iff_toNat_le, UInt8.lt_iff_toNat_lt]; omega
  le_antisymm := fun _ _ => UInt8.le_antisymm
  le_total := UInt8.le_total
  toDecidableLE := inferInstance
  toDecidableEq := inferInstance
  toDecidableLT := inferInstance

/-- The libraries. -/
structure Library (Key : Type) where
  /-- `EVP_Digest` with SHA-256. -/
  digest : Bytes → Option Bytes
  /-- `PEM_read_bio_PUBKEY`. -/
  readPem : Bytes → Option Key
  /-- Whether a key is an Ed25519 key. -/
  isEd25519 : Key → Bool
  /-- `EVP_PKEY_new_raw_public_key` for Ed25519. -/
  newRawPublicKey : Bytes → Option Key
  /-- `d2i_PUBKEY`. -/
  readDer : Bytes → Option Key
  /-- The DER form of an ECDSA signature with the given coordinates. -/
  signatureToDer : Bytes → Bytes → Option Bytes
  /-- `EVP_DigestVerify` of a message and a signature, with SHA-256 when told so. -/
  digestVerify : Key → Bool → Bytes → Bytes → Bool
  /-- `QJsonDocument::fromJson`. -/
  fromJson : Bytes → Option Json
  /-- `QByteArray::fromBase64Encoding` of a base64url text. -/
  fromBase64Url : Bytes → Option Bytes

def kMaxManifestSize : ℕ := 256 * 1024
def kMaxManifestSignatureSize : ℕ := 256
def kMaxSignatures : ℕ := 16
def kMaxKeyIdSize : ℕ := 64
def kMaxSignatureSize : ℕ := 512
def kMaxKeys : ℕ := 64
def kMaxChannels : ℕ := 16
def kMaxGroups : ℕ := 8
def kMaxGroupKeys : ℕ := 16
def kMaxRevoked : ℕ := 64
def kRawSignatureSize : ℕ := 64
def kRawCoordinateSize : ℕ := 32
def kSha256Size : ℕ := 32

/-- A key of a manifest; `expires` is 0 for a key that never expires. -/
structure ManifestKey where
  id : Bytes := []
  ed25519 : Bool := false
  x : Bytes := []
  y : Bytes := []
  expires : ℤ := 0
  deriving DecidableEq

/-- A manifest, with the bytes that were signed and their signature. -/
structure Manifest where
  version : ℕ := 0
  issued : ℤ := 0
  expires : ℤ := 0
  keys : List ManifestKey := []
  /-- The groups of key ids of each channel. -/
  channels : OrdMap Bytes (List (List Bytes)) := ∅
  revoked : List Bytes := []
  bytes : Bytes := []
  signature : Bytes := []
  deriving DecidableEq

section Functions

variable {Key : Type} (lib : Library Key)

/-! ### Keys and signatures -/

/-- `Sha256`. -/
def sha256 (data : Bytes) : Bytes :=
  match lib.digest data with
  | some hash => if hash.length = kSha256Size then hash else []
  | none => []

/-- `FromBase64Url`. -/
def fromBase64Url (value : Option Json) (expectedSize : ℕ) : Option Bytes :=
  match value with
  | some (.str text) => (lib.fromBase64Url (toLatin1 text)).filter fun decoded =>
      decoded.length = expectedSize
  | _ => none

/-- `ReadInt64`: a number that a double has exactly. -/
def readInt64 (value : Option Json) : Option ℤ :=
  match value with
  | some (.num number) =>
    if -9007199254740992 < number ∧ number < 9007199254740992 ∧ number.den = 1 then some number.num
    else none
  | _ => none

/-- `LoadEd25519Pem`. -/
def loadEd25519Pem (pem : Bytes) : Option Key := (lib.readPem pem).filter lib.isEd25519

/-- `MakeEd25519`. -/
def makeEd25519 (x : Bytes) : Option Key :=
  if x.length ≠ kRawCoordinateSize then none else lib.newRawPublicKey x

/-- The prefix of a P-256 point in its DER form. -/
def kSpkiPrefix : Bytes :=
  [0x30, 0x59, 0x30, 0x13, 0x06, 0x07, 0x2a, 0x86, 0x48, 0xce, 0x3d, 0x02, 0x01, 0x06, 0x08, 0x2a, 0x86,
    0x48, 0xce, 0x3d, 0x03, 0x01, 0x07, 0x03, 0x42, 0x00]

/-- `MakeEs256`. -/
def makeEs256 (x y : Bytes) : Option Key :=
  if x.length ≠ kRawCoordinateSize ∨ y.length ≠ kRawCoordinateSize then none
  else lib.readDer (kSpkiPrefix ++ [0x04] ++ x ++ y)

/-- `VerifyEd25519`. -/
def verifyEd25519 (key : Key) (message signature : Bytes) : Bool :=
  if signature.length ≠ kRawSignatureSize then false
  else lib.digestVerify key false message signature

/-- `Es256RawToDer`. -/
def es256RawToDer (raw : Bytes) : Bytes :=
  if raw.length ≠ kRawSignatureSize then []
  else (lib.signatureToDer (raw.take kRawCoordinateSize) (raw.drop kRawCoordinateSize)).getD []

/-- `VerifyEs256`. -/
def verifyEs256 (key : Key) (message signature : Bytes) : Bool :=
  let der := es256RawToDer lib signature
  if der.isEmpty then false else lib.digestVerify key true message der

/-! ### The parts of a manifest -/

/-- An id in a manifest: a text that is not too long. -/
def parseId (value : Option Json) : Option Bytes :=
  match value with
  | some (.str text) =>
    let id := toLatin1 text
    if id.isEmpty ∨ id.length > kMaxKeyIdSize then none else some id
  | _ => none

/-- The time at which a key of a manifest expires. -/
def parseKeyExpires (value : Option Json) : Option ℤ :=
  match value with
  | none => some 0
  | some _ => (readInt64 value).filter fun parsed => 0 < parsed

/-- The key of a manifest for its algorithm; nothing for an algorithm that is not known. -/
def parseKeyAlgorithm (object : JObject) (id : Bytes) (expires : ℤ) : Option (Option ManifestKey) :=
  match object.find (u "alg") with
  | some (.str algName) =>
    if algName = u "Ed25519" then
      (fromBase64Url lib (object.find (u "x")) kRawCoordinateSize).map fun x =>
        some { id, ed25519 := true, x, expires }
    else if algName = u "ES256" then
      if object.find (u "crv") ≠ some (.str (u "P-256")) then none
      else
        (fromBase64Url lib (object.find (u "x")) kRawCoordinateSize).bind fun x =>
          (fromBase64Url lib (object.find (u "y")) kRawCoordinateSize).map fun y =>
            some { id, x, y, expires }
    else some none
  | _ => none

/-- An entry of the keys of a manifest, with an id of its own. -/
def parseManifestKey (known : List ManifestKey) (entry : Json) : Option (Option ManifestKey) :=
  if !entry.isObject then none
  else do
    let object := entry.toObject
    let id ← (parseId (object.find (u "id"))).filter fun id =>
      !known.any fun existing => existing.id = id
    let expires ← parseKeyExpires (object.find (u "expires"))
    parseKeyAlgorithm lib object id expires

/-- The keys of a manifest, after those that are known. -/
def parseManifestKeysFrom (known : List ManifestKey) : List Json → Option (List ManifestKey)
  | [] => some known
  | entry :: rest => do
    let key ← parseManifestKey lib known entry
    parseManifestKeysFrom (known ++ key.toList) rest

/-- `ParseManifestKeys`. -/
def parseManifestKeys (value : Option Json) : Option (List ManifestKey) :=
  match value with
  | some (.arr list) => if list.length > kMaxKeys then none else parseManifestKeysFrom lib [] list
  | _ => none

/-- A list of a manifest with at least one value and at most so many. -/
def parseList {α : Type} (limit : ℕ) (parse : Json → Option α) (value : Json) : Option (List α) :=
  match value with
  | .arr list => if list.isEmpty ∨ list.length > limit then none else list.mapM parse
  | _ => none

/-- `ParseManifestChannels`. -/
def parseManifestChannels (value : Option Json) : Option (OrdMap Bytes (List (List Bytes))) :=
  match value with
  | some (.obj entries) =>
    let object := (Json.obj entries).toObject
    if object.entries.length > kMaxChannels then none
    else object.entries.foldlM (fun result entry => do
      let groups ← parseList kMaxGroups
        (parseList kMaxGroupKeys fun id => parseId (some id)) entry.2
      some (result.emplace (toLatin1 entry.1) groups)) ∅
  | _ => none

/-- `ParseManifestRevoked`. -/
def parseManifestRevoked (value : Option Json) : Option (List Bytes) :=
  match value with
  | some (.arr list) =>
    if list.length > kMaxRevoked then none else list.mapM fun id => parseId (some id)
  | _ => none

/-! ### The manifest -/

/-- The manifest that a JSON object describes. -/
def parseManifestObject (object : JObject) : Except String Manifest := do
  checked (object.find (u "format") = some (.num 1)) "Bad manifest format."
  let version ← orFault "Bad manifest version." ((readInt64 (object.find (u "manifest_version"))).filter
    fun version => 1 ≤ version ∧ version ≤ 0xFFFFFFFF)
  let keys ← orFault "Bad manifest keys." (parseManifestKeys lib (object.find (u "keys")))
  let channels ← orFault "Bad manifest channels."
    (parseManifestChannels (object.find (u "channels")))
  let revoked ← orFault "Bad manifest revoked list."
    (parseManifestRevoked (object.find (u "revoked")))
  .ok { version := version.toNat
        issued := (readInt64 (object.find (u "issued"))).getD 0
        expires := (readInt64 (object.find (u "expires"))).getD 0
        keys, channels, revoked }

/-- `ParseVerifiedManifest`. The signature is checked before the bytes are parsed. -/
def parseVerifiedManifest (json signature rootPublicKeyPem : Bytes) : Except String Manifest := do
  checked (json ≠ [] ∧ json.length ≤ kMaxManifestSize) "Bad manifest size."
  let root ← orFault "Could not load the root key." (loadEd25519Pem lib rootPublicKeyPem)
  checked (verifyEd25519 lib root json signature = true) "Bad manifest root signature."
  let document ← orFault "Could not parse manifest JSON." ((lib.fromJson json).filter Json.isObject)
  let manifest ← parseManifestObject lib document.toObject
  .ok { manifest with
    bytes := json
    signature }

end Functions

/-! ### What a manifest that is parsed has -/

section Spec

variable {Key : Type} {lib : Library Key}

/-- **A manifest that is parsed is signed by the root key**, and keeps the bytes that were signed. -/
theorem parseVerifiedManifest_ok {json signature pem : Bytes} {manifest : Manifest}
    (h : parseVerifiedManifest lib json signature pem = .ok manifest) :
    ∃ root, loadEd25519Pem lib pem = some root ∧ lib.digestVerify root false json signature = true ∧
      signature.length = kRawSignatureSize ∧ json ≠ [] ∧ json.length ≤ kMaxManifestSize ∧
      manifest.bytes = json ∧ manifest.signature = signature ∧ 0 < manifest.version := by
  unfold parseVerifiedManifest at h
  simp only [bind_eq_ok, orFault_eq_ok, checked_eq_ok] at h
  obtain ⟨_, ⟨hne, hsize⟩, root, hroot, _, hverified, document, -, parsed, hparsed, h⟩ := h
  cases h
  unfold verifyEd25519 at hverified
  split_ifs at hverified with hlength
  refine ⟨root, hroot, hverified, not_not.mp hlength, hne, hsize, rfl, rfl, ?_⟩
  unfold parseManifestObject at hparsed
  simp only [bind_eq_ok, orFault_eq_ok, checked_eq_ok] at hparsed
  obtain ⟨_, -, version, hversion, keys, -, channels, -, revoked, -, hparsed⟩ := hparsed
  cases hparsed
  obtain ⟨-, hrange⟩ := Option.filter_eq_some_iff.mp hversion
  rw [decide_eq_true_eq] at hrange
  change 0 < version.toNat
  omega

end Spec

end Update
