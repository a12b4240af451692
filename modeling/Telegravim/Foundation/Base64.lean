import Telegravim.Foundation.Text

set_option autoImplicit false

/-!
# Base64

The standard padded Base64 alphabet: the encoder, and the strict decoder that stops at the
first character outside the alphabet or at misplaced padding.

## Main definitions

* `Base64.toBase64` — the encoder, three bytes to four characters.
* `Base64.fromBase64` — the decoder, a bit buffer fed six bits at a time.

## Main results

* `Base64.fromBase64_toBase64` — what was encoded is decoded.
* `Base64.mem_toBase64` — the characters an encoding uses.
-/

namespace Base64

/-- The character of six bits. -/
def sextet (n : ℕ) : UInt8 :=
  UInt8.ofNat <|
    if n < 26 then 65 + n else if n < 52 then 71 + n else if n < 62 then n - 4
    else if n = 62 then 43 else 47

/-- The six bits of a character of the alphabet. -/
def sextetValue (ch : UInt8) : Option ℕ :=
  let n := ch.toNat
  if 65 ≤ n ∧ n ≤ 90 then some (n - 65)
  else if 97 ≤ n ∧ n ≤ 122 then some (n - 71)
  else if 48 ≤ n ∧ n ≤ 57 then some (n + 4)
  else if n = 43 then some 62
  else if n = 47 then some 63
  else none

/-- The padding character. -/
def pad : UInt8 := 61

/-- Standard padded Base64. -/
def toBase64 : Bytes → Bytes
  | [] => []
  | [a] => [sextet (a.toNat / 4), sextet (a.toNat % 4 * 16), pad, pad]
  | [a, b] =>
    [sextet (a.toNat / 4), sextet (a.toNat % 4 * 16 + b.toNat / 16),
      sextet (b.toNat % 16 * 4), pad]
  | a :: b :: c :: rest =>
    sextet (a.toNat / 4) :: sextet (a.toNat % 4 * 16 + b.toNat / 16) ::
      sextet (b.toNat % 16 * 4 + c.toNat / 64) :: sextet (c.toNat % 64) :: toBase64 rest

/-- The decoding loop: `buf` holds the `nbits` bits not yet written, `size` is the length of
the whole input. -/
def decodeLoop (size : ℕ) : Bytes → (buf nbits : ℕ) → Option Bytes
  | [], _, _ => some []
  | ch :: rest, buf, nbits =>
    match sextetValue ch with
    | some d =>
      if 8 ≤ nbits + 6 then
        (decodeLoop size rest ((buf * 64 + d) % 2 ^ (nbits - 2)) (nbits - 2)).map
          (UInt8.ofNat ((buf * 64 + d) / 2 ^ (nbits - 2)) :: ·)
      else decodeLoop size rest (buf * 64 + d) (nbits + 6)
    | none =>
      -- one or two padding characters may end an input of whole groups
      if ch = pad ∧ size % 4 = 0 ∧ (rest = [] ∨ rest = [pad]) then some [] else none

/-- The strict decoder: none when the text is not padded Base64. -/
def fromBase64 (text : Bytes) : Option Bytes := decodeLoop text.length text 0 0

/-- Every six bits are read back from their character. -/
lemma sextetValue_sextet {n : ℕ} (h : n < 64) : sextetValue (sextet n) = some n := by
  interval_cases n <;> rfl

lemma sextetValue_pad : sextetValue pad = none := rfl

/-- An encoding consists of whole groups. -/
lemma length_toBase64 (bytes : Bytes) : (toBase64 bytes).length % 4 = 0 := by
  induction bytes using toBase64.induct with
  | case1 => simp [toBase64]
  | case2 a => simp [toBase64]
  | case3 a b => simp [toBase64]
  | case4 a b c rest ih => simp only [toBase64, List.length_cons]; omega

/-- The first character of a group only fills the buffer. -/
lemma decodeLoop_first (size d : ℕ) (rest : Bytes) (hd : d < 64) :
    decodeLoop size (sextet d :: rest) 0 0 = decodeLoop size rest d 6 := by
  simp [decodeLoop, sextetValue_sextet hd]

/-- A later character of a group completes a byte and leaves `k` bits in the buffer. -/
lemma decodeLoop_write (size buf k d : ℕ) (rest : Bytes) (x : UInt8) (r : ℕ) (hd : d < 64)
    (hx : (buf * 64 + d) / 2 ^ k = x.toNat) (hr : (buf * 64 + d) % 2 ^ k = r) :
    decodeLoop size (sextet d :: rest) buf (k + 2) =
      (decodeLoop size rest r k).map (x :: ·) := by
  simp only [decodeLoop, sextetValue_sextet hd]
  rw [if_pos (by omega), Nat.add_sub_cancel, hx, hr, UInt8.ofNat_toNat]

/-- **The decoding loop inverts the encoder** on inputs of whole groups.

**Proof sketch.** Induction on the groups of three bytes. The first character of a group
leaves six bits in the buffer, the second writes the first byte and leaves four, the third
writes the second byte and leaves two, and the fourth writes the third byte. -/
lemma decodeLoop_toBase64 (size : ℕ) (hsize : size % 4 = 0) (bytes : Bytes) :
    decodeLoop size (toBase64 bytes) 0 0 = some bytes := by
  induction bytes using toBase64.induct with
  | case1 => simp [toBase64, decodeLoop]
  | case2 a =>
    have ha := a.toNat_lt
    rw [toBase64, decodeLoop_first _ _ _ (by omega),
      decodeLoop_write _ _ 4 _ _ a 0 (by omega) (by omega) (by omega)]
    simp [decodeLoop, sextetValue_pad, hsize]
  | case3 a b =>
    have ha := a.toNat_lt
    have hb := b.toNat_lt
    rw [toBase64, decodeLoop_first _ _ _ (by omega),
      decodeLoop_write _ _ 4 _ _ a (b.toNat / 16) (by omega) (by omega) (by omega),
      decodeLoop_write _ _ 2 _ _ b 0 (by omega) (by omega) (by omega)]
    simp [decodeLoop, sextetValue_pad, hsize]
  | case4 a b c rest ih =>
    have ha := a.toNat_lt
    have hb := b.toNat_lt
    have hc := c.toNat_lt
    rw [toBase64, decodeLoop_first _ _ _ (by omega),
      decodeLoop_write _ _ 4 _ _ a (b.toNat / 16) (by omega) (by omega) (by omega),
      decodeLoop_write _ _ 2 _ _ b (c.toNat / 64) (by omega) (by omega) (by omega),
      decodeLoop_write _ _ 0 _ _ c 0 (by omega) (by omega) (by omega), ih]
    rfl

/-- What was encoded is decoded. -/
lemma fromBase64_toBase64 (bytes : Bytes) : fromBase64 (toBase64 bytes) = some bytes :=
  decodeLoop_toBase64 _ (length_toBase64 bytes) bytes

/-- The characters of an encoding are letters, digits, a plus, a slash or padding, and so
neither the full stop nor the colon. -/
lemma mem_toBase64 {bytes : Bytes} {c : UInt8} (h : c ∈ toBase64 bytes) :
    c ≠ 46 ∧ c ≠ 58 ∧ 43 ≤ c ∧ c ≤ 122 := by
  have hsextet : ∀ n < 64, sextet n ≠ 46 ∧ sextet n ≠ 58 ∧ 43 ≤ sextet n ∧ sextet n ≤ 122 := by
    decide
  have hpad : pad ≠ 46 ∧ pad ≠ 58 ∧ 43 ≤ pad ∧ pad ≤ 122 := by decide
  induction bytes using toBase64.induct with
  | case1 => simp [toBase64] at h
  | case2 a =>
    have ha := a.toNat_lt
    simp only [toBase64, List.mem_cons, List.not_mem_nil, or_false] at h
    rcases h with rfl | rfl | rfl | rfl
    · exact hsextet _ (by omega)
    · exact hsextet _ (by omega)
    · exact hpad
    · exact hpad
  | case3 a b =>
    have ha := a.toNat_lt
    have hb := b.toNat_lt
    simp only [toBase64, List.mem_cons, List.not_mem_nil, or_false] at h
    rcases h with rfl | rfl | rfl | rfl
    · exact hsextet _ (by omega)
    · exact hsextet _ (by omega)
    · exact hsextet _ (by omega)
    · exact hpad
  | case4 a b c' rest ih =>
    have ha := a.toNat_lt
    have hb := b.toNat_lt
    have hc := c'.toNat_lt
    simp only [toBase64, List.mem_cons] at h
    rcases h with rfl | rfl | rfl | rfl | h
    · exact hsextet _ (by omega)
    · exact hsextet _ (by omega)
    · exact hsextet _ (by omega)
    · exact hsextet _ (by omega)
    · exact ih h

end Base64
