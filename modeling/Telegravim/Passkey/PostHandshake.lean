import Telegravim.Foundation.JsonText
import Telegravim.Passkey.Cbor

set_option autoImplicit false

/-!
# The first message after the handshake

The phone sends a CBOR map after the handshake. A phone of the first revision sends it as it is; a phone of the revision
before it puts padding behind it, whose length is the last byte or the last two. The client does not know which it is
and tries one form after the other.

## Main definitions

* `Passkey.parsePostHandshakeMessage` — the message, with its padding guessed.
* `Passkey.paddedByOne`, `Passkey.paddedByTwo` — the forms with padding.

## Main results

* `Passkey.decodePaddedCborMap_paddedByOne`, `Passkey.decodePaddedCborMap_paddedByTwo` — no wrong guess succeeds.
* `Passkey.cbor_values_survive` — values survive, and each form of a message is told from the others.
-/

namespace Passkey

/-! ### The first message after the handshake -/

/-- `DecodePaddedCborMap`: the padding is as long as the last two bytes say, or else as the last one says. -/
def decodePaddedCborMap (input : Bytes) : Option CborValue :=
  (if input.length ≥ 2 then
    let padding := (input.getD (input.length - 2) 0).toNat ||| (input.getD (input.length - 1) 0).toNat <<< 8
    if padding + 2 ≤ input.length then (cborDecode (input.take (input.length - padding - 2))).filter CborValue.isMap
    else none
  else none).or
  (if input ≠ [] then
    let padding := (input.getD (input.length - 1) 0).toNat
    if padding + 1 ≤ input.length then (cborDecode (input.take (input.length - padding - 1))).filter CborValue.isMap
    else none
  else none)

/-- `PostHandshakeMessage`. -/
structure PostHandshakeMessage where
  getInfo : Bytes := []
  protocolRevision : ℕ := 1
  supportsCtap : Bool := true
  deriving DecidableEq

/-- Whether a feature is that of CTAP. -/
def isCtap : CborValue → Bool
  | .string value => value = Json.ascii "ctap"
  | _ => false

/-- The features of a message, where it has them. -/
def readFeatures (parsed : CborValue) (result : PostHandshakeMessage) : Option PostHandshakeMessage :=
  match parsed.find 3 with
  | none => some result
  | some (.array features) => some { result with supportsCtap := features.any isCtap }
  | some _ => none

/-- The bytes about the phone in a message, where it has them. -/
def readGetInfo (parsed : CborValue) (result : PostHandshakeMessage) : Option PostHandshakeMessage :=
  match parsed.find 1 with
  | none => some result
  | some (.bytes getInfo) => some { result with getInfo }
  | some _ => none

/-- The contents of a message of a revision. -/
def readMessage (revision : ℕ) (parsed : CborValue) : Option PostHandshakeMessage :=
  (readFeatures parsed { protocolRevision := revision }).bind (readGetInfo parsed)

def parsePostHandshakeMessage (plaintext : Bytes) : Option PostHandshakeMessage :=
  match (cborDecode plaintext).filter CborValue.isMap with
  | some parsed => readMessage 1 parsed
  | none => (decodePaddedCborMap plaintext).bind (readMessage 0)

/-! ### The forms of a message -/

/-- The bytes of a message with its padding, and its length in one byte. -/
def paddedByOne (data : Bytes) (padding : ℕ) : Bytes := data ++ List.replicate padding 0 ++ [UInt8.ofNat padding]

/-- The bytes of a message with its padding, and its length in two bytes. -/
def paddedByTwo (data : Bytes) (padding : ℕ) : Bytes :=
  data ++ List.replicate padding 0 ++ [UInt8.ofNat (padding % 256), UInt8.ofNat (padding / 256)]

lemma getD_append_cons {data rest : Bytes} {byte : UInt8} {n : ℕ} (h : data.length = n) :
    (data ++ byte :: rest).getD n 0 = byte := by
  rw [List.getD_eq_getElem?_getD, List.getElem?_append_right h.le, h, Nat.sub_self]
  rfl

lemma filter_isMap {value : CborValue} (h : value.isMap = true) : (some value).filter CborValue.isMap = some value := by
  rw [Option.filter_some, if_pos h]

/-- **The length in two bytes is found.** -/
theorem decodePaddedCborMap_paddedByTwo {value : CborValue} (h : Readable value) (hmap : value.isMap = true)
    {padding : ℕ} (hpadding : padding ≤ 65535) :
    decodePaddedCborMap (paddedByTwo (cborEncode value) padding) = some value := by
  have hlength : (paddedByTwo (cborEncode value) padding).length = (cborEncode value).length + padding + 2 := by
    rw [paddedByTwo, List.length_append, List.length_append, List.length_replicate]
    rfl
  have hlow : (paddedByTwo (cborEncode value) padding).getD ((cborEncode value).length + padding) 0 =
      UInt8.ofNat (padding % 256) := by
    refine getD_append_cons ?_
    rw [List.length_append, List.length_replicate]
  have hhigh : (paddedByTwo (cborEncode value) padding).getD ((cborEncode value).length + padding + 1) 0 =
      UInt8.ofNat (padding / 256) := by
    rw [paddedByTwo, List.append_cons]
    refine getD_append_cons ?_
    rw [List.length_append, List.length_append, List.length_replicate, List.length_singleton]
  have hnumber : (UInt8.ofNat (padding % 256)).toNat ||| (UInt8.ofNat (padding / 256)).toNat <<< 8 = padding := by
    have hlowNat : (UInt8.ofNat (padding % 256)).toNat = padding % 256 :=
      UInt8.toNat_ofNat_of_lt' (Nat.mod_lt _ (by omega))
    have hhighNat : (UInt8.ofNat (padding / 256)).toNat = padding / 256 :=
      UInt8.toNat_ofNat_of_lt' (by simp only [UInt8.size]; omega)
    rw [hlowNat, hhighNat, Nat.or_comm, ← Nat.shiftLeft_add_eq_or_of_lt (show padding % 256 < 2 ^ 8 by omega),
      Nat.shiftLeft_eq]
    omega
  have hlast : (cborEncode value).length + padding + 2 - 1 = (cborEncode value).length + padding + 1 := rfl
  have hsecond : (cborEncode value).length + padding + 2 - 2 = (cborEncode value).length + padding := rfl
  have htake : (cborEncode value).length + padding + 2 - padding - 2 = (cborEncode value).length := by omega
  have hpart : (paddedByTwo (cborEncode value) padding).take (cborEncode value).length = cborEncode value := by
    rw [paddedByTwo, List.append_assoc, List.take_left]
  unfold decodePaddedCborMap
  dsimp only
  rw [hlength, hlast, hsecond, hlow, hhigh, hnumber, htake, hpart, if_pos (by omega), if_pos (by omega),
    cborDecode_cborEncode h, filter_isMap hmap]
  rfl

/-- A part of the bytes of a value and the padding is no value, where it does not reach the end of the value. -/
lemma cborDecode_take {value : CborValue} (h : Readable value) (rest : Bytes) {n : ℕ}
    (hn : n < (cborEncode value).length) : cborDecode ((cborEncode value ++ rest).take n) = none := by
  rw [List.take_append_of_le_length hn.le]
  refine cborDecode_part h (List.take_append_drop n _).symm fun hnil => ?_
  have hlength := congrArg List.length hnil
  rw [List.length_drop, List.length_nil] at hlength
  omega

/-- **The length in one byte is found**, since the guess of two bytes stops within the value. -/
theorem decodePaddedCborMap_paddedByOne {value : CborValue} (h : Readable value) (hmap : value.isMap = true)
    {padding : ℕ} (hpadding : padding ≤ 255) :
    decodePaddedCborMap (paddedByOne (cborEncode value) padding) = some value := by
  have hlength : (paddedByOne (cborEncode value) padding).length = (cborEncode value).length + padding + 1 := by
    rw [paddedByOne, List.length_append, List.length_append, List.length_replicate]
    rfl
  have hlast : (paddedByOne (cborEncode value) padding).getD ((cborEncode value).length + padding) 0 =
      UInt8.ofNat padding := by
    refine getD_append_cons ?_
    rw [List.length_append, List.length_replicate]
  have hbyte : (UInt8.ofNat padding).toNat = padding :=
    UInt8.toNat_ofNat_of_lt' (by simp only [UInt8.size]; omega)
  -- The last two bytes as one number are no less than the last byte.
  obtain ⟨before, hbefore⟩ : ∃ before : UInt8,
      (paddedByOne (cborEncode value) padding).getD ((cborEncode value).length + padding + 1 - 2) 0 = before := ⟨_, rfl⟩
  have hguess : padding ≤ before.toNat ||| padding <<< 8 := by
    refine le_trans ?_ Nat.right_le_or
    rw [Nat.shiftLeft_eq]
    omega
  have hpart : (paddedByOne (cborEncode value) padding).take (cborEncode value).length = cborEncode value := by
    rw [paddedByOne, List.append_assoc, List.take_left]
  have hone : (cborEncode value).length + padding + 1 - 1 = (cborEncode value).length + padding := rfl
  have htake : (cborEncode value).length + padding + 1 - padding - 1 = (cborEncode value).length := by omega
  have hne : paddedByOne (cborEncode value) padding ≠ [] := fun hnil => by
    rw [hnil] at hlength
    exact absurd hlength (by simp)
  have htwo : ∀ guess, padding ≤ guess → guess + 2 ≤ (cborEncode value).length + padding + 1 →
      cborDecode ((paddedByOne (cborEncode value) padding).take
        ((cborEncode value).length + padding + 1 - guess - 2)) = none := fun guess hguess hfits => by
    rw [paddedByOne, List.append_assoc]
    exact cborDecode_take h _ (by omega)
  unfold decodePaddedCborMap
  dsimp only
  rw [hlength, hone, hlast, hbefore, hbyte, if_pos hne, if_pos (show padding + 1 ≤ _ by omega), htake, hpart,
    cborDecode_cborEncode h, filter_isMap hmap]
  split_ifs with hlong hfits
  · rw [htwo _ hguess hfits]
    rfl
  · rfl
  · rfl

namespace CborValue

def isArray : CborValue → Bool
  | array _ => true
  | _ => false

def isBytes : CborValue → Bool
  | bytes _ => true
  | _ => false

end CborValue

/-- The contents of a map that a message is made of: its features are an array and its bytes about the phone are bytes,
where it has them. -/
def IsMessage (value : CborValue) : Prop :=
  (∀ features, value.find 3 = some features → features.isArray = true) ∧
    ∀ getInfo, value.find 1 = some getInfo → getInfo.isBytes = true

/-- Whether the features of a map name CTAP; a map without features is of a phone that has it. -/
def supportsCtap (value : CborValue) : Bool :=
  match value.find 3 with
  | some (.array features) => features.any isCtap
  | _ => true

/-- The bytes about the phone in a map. -/
def getInfo (value : CborValue) : Bytes :=
  match value.find 1 with
  | some (.bytes getInfo) => getInfo
  | _ => []

/-- **A map that is a message is read** with its contents. -/
lemma readMessage_eq {value : CborValue} (h : IsMessage value) (revision : ℕ) :
    readMessage revision value =
      some { getInfo := getInfo value, protocolRevision := revision, supportsCtap := supportsCtap value } := by
  have hfeatures : ∀ result : PostHandshakeMessage, result.supportsCtap = true →
      readFeatures value result = some { result with supportsCtap := supportsCtap value } := fun result hresult => by
    rw [readFeatures, supportsCtap]
    rcases hfind : value.find 3 with _ | features
    · rw [← hresult]
    · have harray := h.1 features hfind
      cases features with
      | array features => rfl
      | _ => cases harray
  have hgetInfo : ∀ result : PostHandshakeMessage, result.getInfo = [] →
      readGetInfo value result = some { result with getInfo := getInfo value } := fun result hresult => by
    rw [readGetInfo, getInfo]
    rcases hfind : value.find 1 with _ | bytes
    · rw [← hresult]
    · have hbytes := h.2 bytes hfind
      cases bytes with
      | bytes bytes => rfl
      | _ => cases hbytes
  rw [readMessage, hfeatures _ rfl, Option.bind_some, hgetInfo _ rfl]

/-- A map that is no message is refused. -/
lemma readMessage_eq_none {value : CborValue} (h : ¬ IsMessage value) (revision : ℕ) :
    readMessage revision value = none := by
  rw [readMessage, readFeatures]
  by_cases hfeatures : ∀ features, value.find 3 = some features → features.isArray = true
  · have hgetInfo : ¬ ∀ getInfo, value.find 1 = some getInfo → getInfo.isBytes = true := fun hgetInfo =>
      h ⟨hfeatures, hgetInfo⟩
    have hnone : ∀ result, readGetInfo value result = none := fun result => by
      rw [readGetInfo]
      rcases hfind : value.find 1 with _ | bytes
      · exact absurd (fun _ hsome => by rw [hfind] at hsome; cases hsome) hgetInfo
      · cases bytes with
        | bytes bytes =>
          exact absurd (fun _ hsome => by rw [hfind] at hsome; cases hsome; rfl) hgetInfo
        | _ => rfl
    rw [Option.bind_eq_none_iff]
    exact fun result _ => hnone result
  · rcases hfind : value.find 3 with _ | features
    · exact absurd (fun _ hsome => by rw [hfind] at hsome; cases hsome) hfeatures
    · cases features with
      | array features => exact absurd (fun _ hsome => by rw [hfind] at hsome; cases hsome; rfl) hfeatures
      | _ => rfl

/-- What a message is read as: its contents, where it is a message. -/
lemma parsePostHandshakeMessage_encode {value : CborValue} (h : Readable value) (hmap : value.isMap = true) :
    parsePostHandshakeMessage (cborEncode value) = readMessage 1 value := by
  rw [parsePostHandshakeMessage, cborDecode_cborEncode h, filter_isMap hmap]

/-- With something behind it the map is not read as it is. -/
lemma parsePostHandshakeMessage_padded {value : CborValue} (h : Readable value) {extra : Bytes} (hextra : extra ≠ [])
    (hpadded : decodePaddedCborMap (cborEncode value ++ extra) = some value) :
    parsePostHandshakeMessage (cborEncode value ++ extra) = readMessage 0 value := by
  rw [parsePostHandshakeMessage, cborDecode_append h hextra, Option.filter_none, hpadded, Option.bind_some]

lemma parsePostHandshakeMessage_paddedByOne {value : CborValue} (h : Readable value) (hmap : value.isMap = true)
    {padding : ℕ} (hpadding : padding ≤ 255) :
    parsePostHandshakeMessage (paddedByOne (cborEncode value) padding) = readMessage 0 value := by
  have hpadded := decodePaddedCborMap_paddedByOne h hmap hpadding
  rw [paddedByOne, List.append_assoc] at hpadded ⊢
  exact parsePostHandshakeMessage_padded h (List.append_ne_nil_of_right_ne_nil _ (List.cons_ne_nil _ _)) hpadded

lemma parsePostHandshakeMessage_paddedByTwo {value : CborValue} (h : Readable value) (hmap : value.isMap = true)
    {padding : ℕ} (hpadding : padding ≤ 65535) :
    parsePostHandshakeMessage (paddedByTwo (cborEncode value) padding) = readMessage 0 value := by
  have hpadded := decodePaddedCborMap_paddedByTwo h hmap hpadding
  rw [paddedByTwo, List.append_assoc] at hpadded ⊢
  exact parsePostHandshakeMessage_padded h (List.append_ne_nil_of_right_ne_nil _ (List.cons_ne_nil _ _)) hpadded

/-- **Values survive, and padded messages are not misread.** A value with its leaves at depth 16 at most is read from its
bytes, and neither a part of them nor more than them is read. The decoder has an outcome for all bytes without a read
past their end, and what it read is not longer when it is written again. A map whose features are an array and whose
bytes about the phone are bytes is read with its contents: from its bytes with revision 1, from its bytes with padding
with revision 0; any other map is refused in each form. -/
theorem cbor_values_survive :
    (∀ value, Readable value → cborDecode (cborEncode value) = some value ∧
      (∀ part extra, cborEncode value = part ++ extra → extra ≠ [] → cborDecode part = none) ∧
      ∀ extra, extra ≠ [] → cborDecode (cborEncode value ++ extra) = none) ∧
    (∀ data, cborDecodeAt data = some (cborDecode data)) ∧
    (∀ data value, cborDecode data = some value → (cborEncode value).length ≤ data.length) ∧
    (∀ value, Readable value → value.isMap = true → IsMessage value →
      parsePostHandshakeMessage (cborEncode value) =
        some { getInfo := getInfo value, protocolRevision := 1, supportsCtap := supportsCtap value } ∧
      (∀ padding ≤ 255, parsePostHandshakeMessage (paddedByOne (cborEncode value) padding) =
        some { getInfo := getInfo value, protocolRevision := 0, supportsCtap := supportsCtap value }) ∧
      ∀ padding ≤ 65535, parsePostHandshakeMessage (paddedByTwo (cborEncode value) padding) =
        some { getInfo := getInfo value, protocolRevision := 0, supportsCtap := supportsCtap value }) ∧
    ∀ value, Readable value → value.isMap = true → ¬ IsMessage value →
      parsePostHandshakeMessage (cborEncode value) = none ∧
      (∀ padding ≤ 255, parsePostHandshakeMessage (paddedByOne (cborEncode value) padding) = none) ∧
      ∀ padding ≤ 65535, parsePostHandshakeMessage (paddedByTwo (cborEncode value) padding) = none := by
  refine ⟨fun value h => ⟨cborDecode_cborEncode h, fun _ _ => cborDecode_part h, fun _ => cborDecode_append h⟩,
    cborDecodeAt_eq, fun _ _ => length_cborEncode_le, fun value h hmap hmessage => ?_, fun value h hmap hmessage => ?_⟩
  · refine ⟨?_, fun padding hpadding => ?_, fun padding hpadding => ?_⟩
    · rw [parsePostHandshakeMessage_encode h hmap, readMessage_eq hmessage]
    · rw [parsePostHandshakeMessage_paddedByOne h hmap hpadding, readMessage_eq hmessage]
    · rw [parsePostHandshakeMessage_paddedByTwo h hmap hpadding, readMessage_eq hmessage]
  · refine ⟨?_, fun padding hpadding => ?_, fun padding hpadding => ?_⟩
    · rw [parsePostHandshakeMessage_encode h hmap, readMessage_eq_none hmessage]
    · rw [parsePostHandshakeMessage_paddedByOne h hmap hpadding, readMessage_eq_none hmessage]
    · rw [parsePostHandshakeMessage_paddedByTwo h hmap hpadding, readMessage_eq_none hmessage]

/-- **Not every map is read**: one whose bytes about the phone are a number is refused. -/
theorem not_every_map_read :
    ¬ ∀ value, Readable value → value.isMap = true → ∃ message,
      parsePostHandshakeMessage (cborEncode value) = some message ∧ message.protocolRevision = 1 := by
  intro h
  have hfits : Fits (.map [(.int 1, .int 0)]) := by
    refine Fits.map (by decide) (fun entry hentry => ?_) (fun entry hentry => ?_)
    · rw [List.mem_singleton.mp hentry]
      exact Fits.int (by decide)
    · rw [List.mem_singleton.mp hentry]
      exact Fits.int (by decide)
  have hreadable : Readable (.map [(.int 1, .int 0)]) := ⟨hfits, by decide⟩
  obtain ⟨message, hmessage, -⟩ := h _ hreadable rfl
  rw [parsePostHandshakeMessage_encode hreadable rfl] at hmessage
  cases hmessage

end Passkey
