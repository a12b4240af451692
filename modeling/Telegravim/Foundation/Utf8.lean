import Telegravim.Foundation.Text

set_option autoImplicit false

/-!
# UTF-8

The encoder of both platforms, and their two decoders. The decoders read the same sequences
and differ at the end of the input: a stateful decoder keeps an incomplete last sequence for
its next call and reports no error, a strict one rejects it.

## Main definitions

* `Utf8.toUtf8` — the encoder; an unpaired surrogate becomes a question mark.
* `Utf8.decode` — the texts read before the end or the incomplete last sequence, or none.
* `Utf8.decodeStateful`, `Utf8.decodeStrict` — the two decoders.

## Main results

* `Utf8.decode_toUtf8_of_ascii` — ASCII texts survive both directions.
* `Utf8.decodeStrict_eq_decodeStateful` — the decoders agree on complete input.
-/

namespace Utf8

open Text

/-- The continuation byte of six bits. -/
def continuation (n : ℕ) : UInt8 := UInt8.ofNat (0x80 + n % 64)

/-- UTF-8, an unpaired surrogate replaced by a question mark. -/
def toUtf8 : Text → Bytes
  | [] => []
  | c :: rest =>
    let n := c.toNat
    if n < 0x80 then UInt8.ofNat n :: toUtf8 rest
    else if n < 0x800 then UInt8.ofNat (0xC0 + n / 64) :: continuation n :: toUtf8 rest
    else if 0xD800 ≤ n ∧ n < 0xE000 then
      match rest with
      | [] => [63]
      | d :: rest' =>
        if n < 0xDC00 ∧ 0xDC00 ≤ d.toNat ∧ d.toNat < 0xE000 then
          let uc := 0x10000 + (n - 0xD800) * 0x400 + (d.toNat - 0xDC00)
          UInt8.ofNat (0xF0 + uc / 0x40000) :: continuation (uc / 0x1000) ::
            continuation (uc / 64) :: continuation uc :: toUtf8 rest'
        else 63 :: toUtf8 (d :: rest')
    else UInt8.ofNat (0xE0 + n / 0x1000) :: continuation (n / 64) :: continuation n :: toUtf8 rest

/-- What a decoder finds at a position. -/
inductive Sequence where
  /-- A character, and the number of bytes after its first one. -/
  | char (units : Text) (length : ℕ)
  /-- The input ends inside a sequence. -/
  | incomplete
  /-- No character can start here. -/
  | invalid
deriving DecidableEq

/-- Whether a byte continues a sequence. -/
def isContinuation (b : UInt8) : Bool := 0x80 ≤ b.toNat && b.toNat < 0xC0

/-- The number of bytes after a first byte above the ASCII range. -/
def needed (b : ℕ) : ℕ := if b < 0xE0 then 1 else if b < 0xF0 then 2 else 3

/-- The smallest character a sequence with so many further bytes may encode. -/
def minimum (length : ℕ) : ℕ := if length = 1 then 0x80 else if length = 2 then 0x800 else 0x10000

/-- The units of a character found after checking its first byte, or none when it is overlong,
a surrogate or past the last character. -/
def unitsOf (uc length : ℕ) : Option Text :=
  if uc < minimum length ∨ (0xD800 ≤ uc ∧ uc < 0xE000) ∨ 0x10FFFF < uc then none
  else if uc < 0x10000 then some [UInt16.ofNat uc]
  else some [UInt16.ofNat (0xD800 + (uc - 0x10000) / 0x400),
    UInt16.ofNat (0xDC00 + (uc - 0x10000) % 0x400)]

/-- The sequence that starts with byte `b`, before the bytes `rest`. -/
def sequenceAt (b : UInt8) (rest : Bytes) : Sequence :=
  let n := b.toNat
  if n < 0x80 then .char [UInt16.ofNat n] 0
  else if n ≤ 0xC1 ∨ 0xF5 ≤ n then .invalid
  else
    let length := needed n
    let following := rest.take length
    if !following.all isContinuation then .invalid
    else if following.length < length then .incomplete
    else
      let first := n % (if length = 1 then 0x20 else if length = 2 then 0x10 else 8)
      match unitsOf (following.foldl (fun uc c => uc * 64 + c.toNat % 64) first) length with
      | some units => .char units length
      | none => .invalid

/-- The text of a byte array and its incomplete last sequence; none when a sequence is
invalid. The first argument counts the bytes of the current character still to pass over. -/
def decode : ℕ → Bytes → Option (Text × Bytes)
  | _, [] => some ([], [])
  | skip + 1, _ :: rest => decode skip rest
  | 0, b :: rest =>
    match sequenceAt b rest with
    | .char units length => (decode length rest).map fun r => (units ++ r.1, r.2)
    | .incomplete => some ([], b :: rest)
    | .invalid => none

/-- A stateful decoder: the incomplete last sequence is kept aside without an error. -/
def decodeStateful (bytes : Bytes) : Option Text := (decode 0 bytes).map Prod.fst

/-- A strict decoder: the incomplete last sequence is an error. -/
def decodeStrict (bytes : Bytes) : Option Text :=
  match decode 0 bytes with
  | some (text, []) => some text
  | _ => none

/-- Whether the input ends inside a sequence, after a valid text. -/
def Truncated (bytes : Bytes) : Prop := ∃ text b rest, decode 0 bytes = some (text, b :: rest)

/-- The decoders agree unless the input is truncated. -/
lemma decodeStrict_eq_decodeStateful {bytes : Bytes} (h : ¬ Truncated bytes) :
    decodeStrict bytes = decodeStateful bytes := by
  unfold decodeStrict decodeStateful
  match hd : decode 0 bytes with
  | none => rfl
  | some (text, []) => rfl
  | some (text, b :: rest) => exact absurd ⟨text, b, rest, hd⟩ h

/-- **ASCII texts survive** encoding and decoding. -/
lemma decode_toUtf8_of_ascii {text : Text} (h : ∀ c ∈ text, c < 128) :
    decode 0 (toUtf8 text) = some (text, []) := by
  induction text with
  | nil => rfl
  | cons c rest ih =>
    have hc : c.toNat < 128 := UInt16.lt_iff_toNat_lt.mp (h c List.mem_cons_self)
    have hb : (UInt8.ofNat c.toNat).toNat = c.toNat := by
      rw [UInt8.toNat_ofNat', Nat.mod_eq_of_lt (by omega)]
    have hencode : toUtf8 (c :: rest) = UInt8.ofNat c.toNat :: toUtf8 rest := by
      rw [toUtf8.eq_def]
      exact if_pos hc
    have hseq : sequenceAt (UInt8.ofNat c.toNat) (toUtf8 rest) = .char [c] 0 := by
      unfold sequenceAt
      simp only [hb]
      rw [if_pos (by omega), UInt16.ofNat_toNat]
    rw [hencode]
    simp only [decode, hseq, ih fun d hd => h d (List.mem_cons_of_mem _ hd)]
    rfl

lemma decodeStateful_toUtf8_of_ascii {text : Text} (h : ∀ c ∈ text, c < 128) :
    decodeStateful (toUtf8 text) = some text := by
  simp [decodeStateful, decode_toUtf8_of_ascii h]

end Utf8
