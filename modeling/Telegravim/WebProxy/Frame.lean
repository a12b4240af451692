import Mathlib.Data.List.Basic
import Mathlib.Data.List.Induction
import Mathlib.Tactic.NormNum
import Mathlib.Tactic.Ring

set_option autoImplicit false

/-!
# Web proxy: frames

What a client and a relay say to each other: a type, the stream it is about, and a payload. Stream `0` is
the carrier itself.

## Main definitions

* `WebProxy.Frame` — frames.
* `WebProxy.serializeFrame`, `WebProxy.parseFrames` — frames as bytes.
* `WebProxy.windowPayload`, `WebProxy.readWindow` — the payload of a `Window` frame.
-/

namespace WebProxy

def kFrameHeaderSize : ℕ := 8

def kMaxFramePayload : ℕ := 1024 * 1024

def kMaxBatchFrames : ℕ := 4096

def kInitialStreamWindow : ℕ := 4 * 1024 * 1024

inductive FrameType where
  | open | data | close | window | ping | pong | hello | welcome | authChallenge | authResponse | bye
  deriving DecidableEq

/-- The byte of a type. -/
def FrameType.code : FrameType → UInt8
  | .open => 0x01
  | .data => 0x02
  | .close => 0x03
  | .window => 0x04
  | .ping => 0x05
  | .pong => 0x06
  | .hello => 0x10
  | .welcome => 0x11
  | .authChallenge => 0x12
  | .authResponse => 0x13
  | .bye => 0x1F

/-- `IsKnownType`, with the type that is known. -/
def knownType (value : UInt8) : Option FrameType :=
  [FrameType.open, .data, .close, .window, .ping, .pong, .hello, .welcome, .authChallenge, .authResponse,
    .bye].find? fun type => type.code == value

lemma knownType_code (type : FrameType) : knownType type.code = some type := by
  cases type <;> decide

lemma code_of_knownType {value : UInt8} {type : FrameType} (h : knownType value = some type) :
    type.code = value := by
  have hfound := List.find?_some h
  exact beq_iff_eq.mp hfound

structure Frame where
  type : FrameType
  streamId : ℕ := 0
  payload : List UInt8 := []
  deriving DecidableEq

/-- The bytes of a serialized frame. -/
def Frame.size (frame : Frame) : ℕ := kFrameHeaderSize + frame.payload.length

/-! ### Numbers -/

/-- The low bytes of a number, the largest first. -/
def bigEndian : ℕ → ℕ → List UInt8
  | 0, _ => []
  | count + 1, value => UInt8.ofNat (value / 256 ^ count) :: bigEndian count value

/-- A number from its bytes. -/
def ofBigEndian (bytes : List UInt8) : ℕ := bytes.foldl (fun value byte => value * 256 + byte.toNat) 0

lemma length_bigEndian (count value : ℕ) : (bigEndian count value).length = count := by
  induction count with
  | zero => rfl
  | succ count ih => rw [bigEndian, List.length_cons, ih]

lemma foldl_bigEndian (count value start : ℕ) :
    (bigEndian count value).foldl (fun value byte => value * 256 + byte.toNat) start =
      start * 256 ^ count + value % 256 ^ count := by
  induction count generalizing start with
  | zero => simp [bigEndian, Nat.mod_one]
  | succ count ih =>
    have hbyte : (UInt8.ofNat (value / 256 ^ count)).toNat = value / 256 ^ count % 256 := rfl
    rw [bigEndian, List.foldl_cons, ih, hbyte]
    have hmod : value % 256 ^ (count + 1) =
        value / 256 ^ count % 256 * 256 ^ count + value % 256 ^ count := by
      rw [Nat.pow_succ, Nat.mod_mul, Nat.add_comm, Nat.mul_comm (256 ^ count)]
    rw [hmod, Nat.pow_succ]
    ring

/-- A number that fits is read as it was written. -/
lemma ofBigEndian_bigEndian {count value : ℕ} (h : value < 256 ^ count) :
    ofBigEndian (bigEndian count value) = value := by
  unfold ofBigEndian
  rw [foldl_bigEndian, Nat.zero_mul, Nat.zero_add, Nat.mod_eq_of_lt h]

/-- Bytes are written as they were read. -/
lemma bigEndian_ofBigEndian (bytes : List UInt8) :
    bigEndian bytes.length (ofBigEndian bytes) = bytes ∧ ofBigEndian bytes < 256 ^ bytes.length := by
  induction bytes using List.reverseRecOn with
  | nil => simp [bigEndian, ofBigEndian]
  | append_singleton bytes byte ih =>
    obtain ⟨ihBytes, ihFits⟩ := ih
    have hbyte : byte.toNat < 256 := byte.toNat_lt
    have hvalue : ofBigEndian (bytes ++ [byte]) = ofBigEndian bytes * 256 + byte.toNat := by
      simp [ofBigEndian]
    have hlow : ∀ (count value : ℕ), bigEndian (count + 1) (value * 256 + byte.toNat) =
        bigEndian count value ++ [byte] := by
      intro count value
      induction count with
      | zero =>
        apply congrArg (fun low => [low])
        apply UInt8.toNat_inj.mp
        rw [UInt8.toNat_ofNat', Nat.pow_zero, Nat.div_one]
        omega
      | succ count ihCount =>
        have hhigh : (value * 256 + byte.toNat) / 256 ^ (count + 1) = value / 256 ^ count := by
          have hone : (value * 256 + byte.toNat) / 256 = value := by omega
          rw [Nat.pow_succ, Nat.mul_comm (256 ^ count) 256, ← Nat.div_div_eq_div_mul, hone]
        rw [bigEndian, ihCount, hhigh, bigEndian, List.cons_append]
    constructor
    · rw [List.length_append, List.length_singleton, hvalue, hlow, ihBytes]
    · rw [List.length_append, List.length_singleton, hvalue, Nat.pow_succ]
      omega

def windowPayload (amount : ℕ) : List UInt8 := bigEndian 4 amount

def readWindow (payload : List UInt8) : ℕ := ofBigEndian payload

/-! ### Bytes -/

def serializeFrame (frame : Frame) : List UInt8 :=
  frame.type.code :: bigEndian 3 frame.streamId ++ bigEndian 4 frame.payload.length ++ frame.payload

/-- `ParseFrames`: the frames before a part that is not complete, and this part. -/
def parseFrames (buffer : List UInt8) (output : List Frame) : Option (List Frame × List UInt8) :=
  if _hsize : buffer.length < kFrameHeaderSize then some (output, buffer)
  else
    match knownType (buffer.headD 0) with
    | none => none
    | some type =>
      let streamId := ofBigEndian ((buffer.drop 1).take 3)
      let size := ofBigEndian ((buffer.drop 4).take 4)
      let rest := buffer.drop kFrameHeaderSize
      if size > kMaxFramePayload then none
      else if rest.length < size then some (output, buffer)
      else if output.length ≥ kMaxBatchFrames then none
      else parseFrames (rest.drop size) (output ++ [⟨type, streamId, rest.take size⟩])
termination_by buffer.length
decreasing_by
  simp only [List.length_drop]
  unfold kFrameHeaderSize at _hsize ⊢
  omega

/-- A frame that can be sent. -/
def Frame.Fits (frame : Frame) : Prop := frame.streamId < 2 ^ 24 ∧ frame.payload.length ≤ kMaxFramePayload

lemma length_serializeFrame (frame : Frame) : (serializeFrame frame).length = frame.size := by
  unfold serializeFrame Frame.size kFrameHeaderSize
  simp only [List.length_append, List.length_cons, length_bigEndian]

/-- The first frame of a buffer. -/
lemma parseFrames_cons {frame : Frame} (h : frame.Fits) (rest : List UInt8) {output : List Frame}
    (hroom : output.length < kMaxBatchFrames) :
    parseFrames (serializeFrame frame ++ rest) output = parseFrames rest (output ++ [frame]) := by
  obtain ⟨hid, hpayload⟩ := h
  have hfits : frame.payload.length < 256 ^ 4 := lt_of_le_of_lt hpayload (by decide)
  have hidFits : frame.streamId < 256 ^ 3 := lt_of_lt_of_le hid (by norm_num)
  have hread := ofBigEndian_bigEndian hidFits
  have hreadSize := ofBigEndian_bigEndian hfits
  have hidsLength := length_bigEndian 3 frame.streamId
  have hsizesLength := length_bigEndian 4 frame.payload.length
  have hbuffer : serializeFrame frame ++ rest = frame.type.code :: (bigEndian 3 frame.streamId ++
      (bigEndian 4 frame.payload.length ++ (frame.payload ++ rest))) := by
    unfold serializeFrame
    simp [List.append_assoc]
  generalize bigEndian 3 frame.streamId = ids at hread hidsLength hbuffer
  generalize bigEndian 4 frame.payload.length = sizes at hreadSize hsizesLength hbuffer
  have hlong : ¬(frame.type.code :: (ids ++ (sizes ++ (frame.payload ++ rest)))).length <
      kFrameHeaderSize := by
    unfold kFrameHeaderSize
    simp only [List.length_cons, List.length_append]
    omega
  have hdrop4 : (frame.type.code :: (ids ++ (sizes ++ (frame.payload ++ rest)))).drop 4 =
      sizes ++ (frame.payload ++ rest) := by
    rw [List.drop_succ_cons, List.drop_left' hidsLength]
  have hdrop8 : (frame.type.code :: (ids ++ (sizes ++ (frame.payload ++ rest)))).drop kFrameHeaderSize =
      frame.payload ++ rest := by
    have hsplit : kFrameHeaderSize = 4 + 4 := rfl
    rw [hsplit, ← List.drop_drop, hdrop4, List.drop_left' hsizesLength]
  rw [hbuffer, parseFrames, dif_neg hlong, List.headD_cons, knownType_code]
  dsimp only
  rw [hdrop4, hdrop8, List.drop_succ_cons, List.drop_zero, List.take_left' hidsLength,
    List.take_left' hsizesLength, hread, hreadSize, if_neg (not_lt.mpr hpayload),
    if_neg (by rw [List.length_append]; omega), if_neg (not_le.mpr hroom), List.take_left, List.drop_left]

end WebProxy
