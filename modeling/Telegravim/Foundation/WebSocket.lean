import Telegravim.Foundation.Positional

set_option autoImplicit false

/-!
# Frames of a web socket

A frame has two bytes with its flags, its kind and its length, more bytes for a longer length, a mask of four bytes
where it is masked, and its payload under the mask. The length is written in the shortest of three forms.

## Main definitions

* `WebSocket.masked` — a payload under a mask.
* `WebSocket.number` — a number from its bytes by shifts.
* `WebSocket.Frame`, `WebSocket.Frame.bytes` — a frame and its bytes.

## Main results

* `WebSocket.masked_masked` — a mask taken twice is no mask.
* `WebSocket.number_bigEndian` — the number whose bytes are written.
* `WebSocket.length_cases` — the three forms of a length.
-/

namespace WebSocket

/-! ### Masks -/

/-- A mask: four bytes. -/
structure Mask where
  bytes : Bytes
  four : bytes.length = 4

/-- **A payload under a mask.** -/
def masked (mask payload : Bytes) : Bytes := payload.mapIdx fun i byte => byte ^^^ mask.getD (i % 4) 0

@[simp] lemma length_masked (mask payload : Bytes) : (masked mask payload).length = payload.length :=
  List.length_mapIdx

/-- **A mask taken twice is no mask.** -/
@[simp] theorem masked_masked (mask payload : Bytes) : masked mask (masked mask payload) = payload := by
  refine List.ext_getElem (by simp) fun i hi hi' => ?_
  simp only [masked, List.getElem_mapIdx]
  rw [UInt8.xor_assoc, UInt8.xor_self, UInt8.xor_zero]

/-! ### Numbers by shifts -/

/-- **A number from its bytes**, the most significant first, by shifts. -/
def number (bytes : Bytes) : ℕ := bytes.foldl (fun value byte => value <<< 8 ||| byte.toNat) 0

lemma number_eq_ofBigEndian (bytes : Bytes) : number bytes = Positional.ofBigEndian bytes := by
  induction bytes using List.reverseRecOn with
  | nil => rfl
  | append_singleton bytes byte ih =>
    have hbyte : byte.toNat < 2 ^ 8 := byte.toNat_lt
    rw [number, List.foldl_append, ← number, List.foldl_cons, List.foldl_nil, ← Nat.shiftLeft_add_eq_or_of_lt hbyte,
      ih, Positional.ofBigEndian_concat, Nat.shiftLeft_eq]
    ring

/-- **The number whose bytes are written.** -/
theorem number_bigEndian {width value : ℕ} (h : value < 256 ^ width) :
    number (Positional.bigEndian width value) = value := by
  rw [number_eq_ofBigEndian, Positional.ofBigEndian_bigEndian, Nat.mod_eq_of_lt h]

/-! ### Frames -/

/-- The seven bits for a length in the second byte of a frame. -/
def lengthBits (length : ℕ) : ℕ := if length < 126 then length else if length ≤ 0xFFFF then 126 else 127

/-- The bytes for a length that seven bits do not hold. -/
def lengthBytes (length : ℕ) : Bytes :=
  if length < 126 then []
  else if length ≤ 0xFFFF then Positional.bigEndian 2 length
  else Positional.bigEndian 8 length

/-- **The three forms of a length.** -/
theorem length_cases {length : ℕ} (hlength : length < 2 ^ 63) :
    length < 126 ∧ lengthBits length = length ∧ lengthBytes length = [] ∨
      126 ≤ length ∧ length ≤ 0xFFFF ∧ lengthBits length = 126 ∧ (lengthBytes length).length = 2 ∧
        number (lengthBytes length) = length ∨
      0xFFFF < length ∧ lengthBits length = 127 ∧ (lengthBytes length).length = 8 ∧
        number (lengthBytes length) = length := by
  rcases Nat.lt_or_ge length 126 with hshort | hshort
  · have hbits : lengthBits length = length := if_pos hshort
    have hbytes : lengthBytes length = [] := if_pos hshort
    exact .inl ⟨hshort, hbits, hbytes⟩
  rcases Nat.lt_or_ge 0xFFFF length with hlong | hlong
  · have hbits : lengthBits length = 127 := by
      rw [lengthBits, if_neg (by omega), if_neg (by omega)]
    have hbytes : lengthBytes length = Positional.bigEndian 8 length := by
      rw [lengthBytes, if_neg (by omega), if_neg (by omega)]
    rw [hbits, hbytes]
    exact .inr (.inr ⟨hlong, rfl, Positional.length_bigEndian _ _, number_bigEndian (by omega)⟩)
  · have hbits : lengthBits length = 126 := by
      rw [lengthBits, if_neg (by omega), if_pos hlong]
    have hbytes : lengthBytes length = Positional.bigEndian 2 length := by
      rw [lengthBytes, if_neg (by omega), if_pos hlong]
    rw [hbits, hbytes]
    exact .inr (.inl ⟨hshort, hlong, rfl, Positional.length_bigEndian _ _, number_bigEndian (by omega)⟩)

/-- The highest bit of the longest form is not set. -/
lemma headD_lengthBytes {length : ℕ} (hlarge : 0xFFFF < length) (hlength : length < 2 ^ 63) (rest : Bytes) :
    (lengthBytes length ++ rest).headD 0 &&& 0x80 = 0 := by
  have hhigh : length >>> 56 < 128 := by
    rw [Nat.shiftRight_eq_div_pow]
    omega
  have hall : ∀ high < 128, UInt8.ofNat high &&& 0x80 = 0 := by decide
  rw [lengthBytes, if_neg (by omega), if_neg (by omega), Positional.bigEndian_eq]
  exact hall _ hhigh

/-- There are sixteen kinds of frames. -/
instance neZero_sixteen : NeZero (16 : ℕ) := ⟨by decide⟩

/-- **A frame.** -/
structure Frame where
  fin : Bool
  opcode : Fin 16
  mask : Option Mask
  payload : Bytes

namespace Frame

/-- The byte with the flag for a last frame and the kind. -/
def first (frame : Frame) : UInt8 := (if frame.fin then 0x80 else 0) ||| UInt8.ofNat frame.opcode

/-- The byte with the flag for a mask and the length or its form. -/
def second (frame : Frame) : UInt8 :=
  (if frame.mask.isSome then 0x80 else 0) ||| UInt8.ofNat (lengthBits frame.payload.length)

/-- The bytes of the mask, if any. -/
def maskBytes (frame : Frame) : Bytes := frame.mask.elim [] Mask.bytes

/-- The payload as it is sent. -/
def body (frame : Frame) : Bytes := frame.mask.elim frame.payload fun mask => masked mask.bytes frame.payload

/-- **The bytes of a frame.** -/
def bytes (frame : Frame) : Bytes :=
  frame.first :: frame.second :: (lengthBytes frame.payload.length ++ (frame.maskBytes ++ frame.body))

/-- The number of bytes before the payload. -/
def header (frame : Frame) : ℕ := 2 + (lengthBytes frame.payload.length).length + frame.maskBytes.length

variable (frame : Frame)

@[simp] lemma length_body : frame.body.length = frame.payload.length := by
  rcases frame with ⟨fin, opcode, - | mask, payload⟩
  · rfl
  · exact length_masked _ _

lemma length_maskBytes : frame.maskBytes.length = if frame.mask.isSome then 4 else 0 := by
  rcases frame with ⟨fin, opcode, - | mask, payload⟩
  · rfl
  · exact mask.four

lemma length_bytes : frame.bytes.length = frame.header + frame.payload.length := by
  rw [bytes, header, List.length_cons, List.length_cons, List.length_append, List.length_append, length_body]
  omega

lemma drop_header : frame.bytes.drop frame.header = frame.body := by
  have hbytes : frame.bytes =
      (frame.first :: frame.second :: (lengthBytes frame.payload.length ++ frame.maskBytes)) ++ frame.body := by
    rw [bytes, List.cons_append, List.cons_append, List.append_assoc]
  have hheader : frame.header =
      (frame.first :: frame.second :: (lengthBytes frame.payload.length ++ frame.maskBytes)).length := by
    rw [header, List.length_cons, List.length_cons, List.length_append]
    omega
  rw [hbytes, hheader, List.drop_left]

/-- The payload behind the header. -/
lemma take_drop_header (more : Bytes) :
    ((frame.bytes ++ more).drop frame.header).take frame.payload.length = frame.body := by
  rw [List.drop_append_of_le_length (by rw [length_bytes]; omega), drop_header, ← length_body, List.take_left]

/-- The mask at the end of the header. -/
lemma take_drop_mask {mask : Mask} (hmask : frame.mask = some mask) (more : Bytes) :
    ((frame.bytes ++ more).drop (frame.header - 4)).take 4 = mask.bytes := by
  have hbytes : frame.bytes ++ more =
      (frame.first :: frame.second :: lengthBytes frame.payload.length) ++ (mask.bytes ++ (frame.body ++ more)) := by
    rw [bytes, maskBytes, hmask]
    simp only [Option.elim_some, List.cons_append, List.append_assoc]
  have hheader : frame.header - 4 = (frame.first :: frame.second :: lengthBytes frame.payload.length).length := by
    rw [header, maskBytes, hmask, Option.elim_some, mask.four, List.length_cons, List.length_cons]
    omega
  rw [hbytes, hheader, List.drop_left, List.take_left' mask.four]

lemma first_and_opcode : frame.first &&& 0x0F = UInt8.ofNat frame.opcode := by
  have hall : ∀ (fin : Bool) (opcode : Fin 16),
      ((if fin then 0x80 else 0) ||| UInt8.ofNat opcode) &&& 0x0F = UInt8.ofNat opcode := by decide
  exact hall frame.fin frame.opcode

lemma first_and_fin : frame.first &&& 0x80 ≠ 0 ↔ frame.fin = true := by
  have hall : ∀ (fin : Bool) (opcode : Fin 16),
      ((if fin then 0x80 else 0) ||| UInt8.ofNat opcode) &&& 0x80 ≠ 0 ↔ fin = true := by decide
  exact hall frame.fin frame.opcode

lemma first_and_reserved : frame.first &&& 0x70 = 0 := by
  have hall : ∀ (fin : Bool) (opcode : Fin 16),
      ((if fin then 0x80 else 0) ||| UInt8.ofNat opcode) &&& 0x70 = 0 := by decide
  exact hall frame.fin frame.opcode

lemma lengthBits_lt (length : ℕ) : lengthBits length < 128 := by
  rw [lengthBits]
  split_ifs <;> omega

lemma second_and_mask : frame.second &&& 0x80 ≠ 0 ↔ frame.mask.isSome = true := by
  have hall : ∀ (mask : Bool), ∀ length < 128,
      ((if mask then 0x80 else 0) ||| UInt8.ofNat length) &&& 0x80 ≠ 0 ↔ mask = true := by decide
  exact hall frame.mask.isSome _ (lengthBits_lt _)

lemma second_and_length : (frame.second &&& 0x7F).toNat = lengthBits frame.payload.length := by
  have hall : ∀ (mask : Bool), ∀ length < 128,
      (((if mask then 0x80 else 0) ||| UInt8.ofNat length) &&& 0x7F).toNat = length := by decide
  exact hall frame.mask.isSome _ (lengthBits_lt _)

end Frame

end WebSocket
