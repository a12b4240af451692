import Telegravim.Foundation.Positional

set_option autoImplicit false

/-!
# Bytes as decimal digits

The contents of a QR code are bytes, written as decimal digits: seven bytes at a time are one number in seventeen
digits, and the bytes at the end are one in as many digits as the greatest number of so many bytes has.

## Main definitions

* `Passkey.bytesToDigits`, `Passkey.digitsToBytes` — the digits of bytes, and back.

## Main results

* `Passkey.digitsToBytes_bytesToDigits` — bytes are read from their digits.
* `Passkey.bytesToDigits_of_digitsToBytes` — digits that are read are written again.
* `Passkey.digits_bijective` — both, with the number of digits, and no overflow.
-/

namespace Passkey

open Positional

/-! ### Writing -/

/-- The digits of a number of bytes. -/
def kWidths : List ℕ := [0, 3, 5, 8, 10, 13, 15, 17]

/-- The bytes of a block put together, the lowest first. -/
def blockValue (bytes : Bytes) : ℕ :=
  bytes.zipIdx.foldl (fun value entry => value ||| entry.1.toNat <<< (8 * entry.2)) 0

/-- The digits of a number, the highest first. -/
def decimal (value : ℕ) : List ℕ := if value = 0 then [0] else (Nat.digits 10 value).reverse

/-- The character of a digit. -/
def digit (d : ℕ) : UInt8 := UInt8.ofNat (48 + d)

/-- `snprintf` with the format `%0*llu`: the digits of a number, with zeros before them up to a width. -/
def snprintf (width value : ℕ) : Bytes :=
  List.replicate (width - (decimal value).length) (digit 0) ++ (decimal value).map digit

def bytesToDigits (bytes : Bytes) : Bytes :=
  if bytes = [] then []
  else
    snprintf (kWidths.getD (min bytes.length 7) 0) (blockValue (bytes.take (min bytes.length 7))) ++
      bytesToDigits (bytes.drop (min bytes.length 7))
termination_by bytes.length
decreasing_by
  rename_i hne
  have hpos : 0 < bytes.length := List.length_pos_iff.mpr hne
  rw [List.length_drop]
  omega

/-! ### Reading -/

/-- One more digit of a number; it is refused where it is no digit or the number would not fit. -/
def addDigit (value : ℕ) (ch : UInt8) : Option ℕ :=
  if ch.toNat < 48 ∨ 57 < ch.toNat then none
  else if (18446744073709551615 - (ch.toNat - 48)) / 10 < value then none
  else some (value * 10 + (ch.toNat - 48))

def parse (chunk : Bytes) : Option ℕ := chunk.foldlM addDigit 0

/-- The lowest bytes of a number. -/
def unblock (count value : ℕ) : Bytes := (List.range count).map fun i => UInt8.ofNat (value >>> (8 * i))

/-- The number of bytes that so many digits at the end stand for. -/
def bytesCount : ℕ → Option ℕ
  | 3 => some 1
  | 5 => some 2
  | 8 => some 3
  | 10 => some 4
  | 13 => some 5
  | 15 => some 6
  | _ => none

/-- The bytes of a block from its digits. -/
def readBlock (count : ℕ) (chunk : Bytes) : Option Bytes :=
  (parse chunk).bind fun value => if value >>> (8 * count) ≠ 0 then none else some (unblock count value)

def digitsToBytes (digits : Bytes) : Option Bytes :=
  if 17 ≤ digits.length then
    (readBlock 7 (digits.take 17)).bind fun block => (digitsToBytes (digits.drop 17)).map (block ++ ·)
  else if digits = [] then some []
  else (bytesCount digits.length).bind fun count => readBlock count digits
termination_by digits.length
decreasing_by
  rw [List.length_drop]
  omega

/-! ### Blocks -/

/-- **The number of a block** is that of its bytes. -/
lemma blockValue_eq (bytes : Bytes) : blockValue bytes = ofLittleEndian bytes := by
  induction bytes using List.reverseRecOn with
  | nil => rfl
  | append_singleton bytes byte ih =>
    have hlt : ofLittleEndian bytes < 2 ^ (8 * bytes.length) := by
      rw [Nat.pow_mul]
      exact ofLittleEndian_lt bytes
    have hvalue : blockValue (bytes ++ [byte]) = blockValue bytes ||| byte.toNat <<< (8 * bytes.length) := by
      rw [blockValue, List.zipIdx_append, List.foldl_append, Nat.zero_add]
      rfl
    rw [hvalue, ih, Nat.or_comm, ← Nat.shiftLeft_add_eq_or_of_lt hlt, ofLittleEndian_append, ofLittleEndian_cons,
      ofLittleEndian_nil, Nat.shiftLeft_eq, Nat.pow_mul]
    ring

/-- The bytes of a number are its digits of base 256. -/
lemma unblock_eq (count value : ℕ) : unblock count value = littleEndian count value := by
  induction count generalizing value with
  | zero => rfl
  | succ count ih =>
    have hrest : ∀ i, value >>> (8 * (i + 1)) = (value / 256) >>> (8 * i) := fun i => by
      rw [Nat.shiftRight_eq_div_pow, Nat.shiftRight_eq_div_pow, Nat.div_div_eq_div_mul, Nat.mul_succ, Nat.pow_add,
        Nat.mul_comm]
    have hfirst : UInt8.ofNat value = UInt8.ofNat (value % 256) := by
      apply UInt8.toNat_inj.mp
      rw [UInt8.toNat_ofNat', UInt8.toNat_ofNat', Nat.mod_mod]
    have hih := ih (value / 256)
    rw [unblock, littleEndian] at hih
    rw [unblock, littleEndian, List.range_succ_eq_map, List.map_cons, List.map_map, Positional.digits, List.map_cons,
      ← hih, ← hfirst]
    refine congrArg₂ List.cons rfl (List.map_congr_left fun i _ => ?_)
    exact congrArg UInt8.ofNat (hrest i)

/-- **A number is printed** in as many digits as asked for, where it has no more. -/
lemma snprintf_eq {width value : ℕ} (hwidth : 0 < width) (h : value < 10 ^ width) :
    snprintf width value = (Positional.digits 10 width value).reverse.map digit := by
  suffices hdecimal : ∃ more, more + (decimal value).length = width ∧
      Positional.digits 10 width value = (decimal value).reverse ++ List.replicate more 0 by
    obtain ⟨more, hmore, hdigits⟩ := hdecimal
    rw [snprintf, hdigits, List.reverse_append, List.reverse_reverse, List.reverse_replicate, List.map_append,
      List.map_replicate, ← hmore, Nat.add_sub_cancel]
  by_cases hzero : value = 0
  · refine ⟨width - 1, ?_, ?_⟩
    · rw [decimal, if_pos hzero, List.length_singleton]
      omega
    · have hdigits : Positional.digits 10 (0 + width) 0 = Positional.digits 10 0 0 ++ List.replicate width 0 :=
        digits_of_lt (by decide) width
      rw [decimal, if_pos hzero, hzero, ← Nat.zero_add width, hdigits, Positional.digits, List.nil_append,
        List.reverse_singleton, List.singleton_append, ← List.replicate_succ]
      congr 1
      omega
  · have hlength : (Nat.digits 10 value).length ≤ width := (Nat.digits_length_le_iff (by decide) value).mpr h
    have hown := digits_ofDigits fun d hd => Nat.digits_lt_base (b := 10) (m := value) (by decide) hd
    rw [Nat.ofDigits_digits] at hown
    have hlt : value < 10 ^ (Nat.digits 10 value).length := Nat.lt_base_pow_length_digits (by decide)
    refine ⟨width - (Nat.digits 10 value).length, ?_, ?_⟩
    · rw [decimal, if_neg hzero, List.length_reverse]
      omega
    · have hpadded := digits_of_lt hlt (width - (Nat.digits 10 value).length)
      rw [Nat.add_sub_cancel' hlength, hown] at hpadded
      rw [decimal, if_neg hzero, List.reverse_reverse, hpadded]

/-! ### Reading digits -/

lemma toNat_digit {d : ℕ} (hd : d < 10) : (digit d).toNat = 48 + d := by
  rw [digit, UInt8.toNat_ofNat_of_lt' (by change 48 + d < 256; omega)]

lemma addDigit_digit {value d : ℕ} (hd : d < 10) (hvalue : value < 10 ^ 16) :
    addDigit value (digit d) = some (value * 10 + d) := by
  rw [addDigit, toNat_digit hd, if_neg (by omega), Nat.add_sub_cancel_left, if_neg (by omega)]

/-- **Digits are read**, up to seventeen of them, and no check of an overflow fails. -/
lemma parse_digits {l : List ℕ} (hl : ∀ d ∈ l, d < 10) (hlength : l.length ≤ 17) :
    parse (l.reverse.map digit) = some (Nat.ofDigits 10 l) := by
  induction l with
  | nil => rfl
  | cons d l ih =>
    have hrest : ∀ d' ∈ l, d' < 10 := fun d' hd' => hl d' (List.mem_cons_of_mem _ hd')
    rw [List.length_cons] at hlength
    have hlt : Nat.ofDigits 10 l < 10 ^ 16 :=
      (Nat.ofDigits_lt_base_pow_length (by decide) hrest).trans_le (Nat.pow_le_pow_right (by decide) (by omega))
    have hread := ih hrest (by omega)
    rw [parse] at hread
    rw [parse, List.reverse_cons, List.map_append, List.foldlM_append, hread, Option.bind_eq_bind, Option.bind_some,
      List.map_singleton, List.foldlM_cons, addDigit_digit (hl d List.mem_cons_self) hlt, Nat.ofDigits_cons]
    exact congrArg some (by rw [Nat.mul_comm, Nat.add_comm])

/-- What is read as a number is its digits. -/
lemma digits_of_parse {chunk : Bytes} {value : ℕ} (h : parse chunk = some value) :
    ∃ l : List ℕ, (∀ d ∈ l, d < 10) ∧ chunk = l.reverse.map digit ∧ value = Nat.ofDigits 10 l := by
  induction chunk using List.reverseRecOn generalizing value with
  | nil => exact ⟨[], by simp, rfl, (Option.some.inj h).symm⟩
  | append_singleton chunk ch ih =>
    rw [parse, List.foldlM_append, Option.bind_eq_bind, Option.bind_eq_some_iff] at h
    obtain ⟨before, hbefore, hlast⟩ := h
    obtain ⟨l, hl, rfl, rfl⟩ := ih hbefore
    rw [List.foldlM_cons, Option.bind_eq_bind, Option.bind_eq_some_iff] at hlast
    obtain ⟨after, hadd, hsome⟩ := hlast
    rw [addDigit] at hadd
    split_ifs at hadd with hchar hfits
    refine ⟨(ch.toNat - 48) :: l, ?_, ?_, ?_⟩
    · intro d hd
      rcases List.mem_cons.mp hd with rfl | hd
      · omega
      · exact hl d hd
    · have hch : digit (ch.toNat - 48) = ch := by
        apply UInt8.toNat_inj.mp
        rw [toNat_digit (by omega)]
        omega
      rw [List.reverse_cons, List.map_append, List.map_singleton, hch]
    · rw [← Option.some.inj hsome, ← Option.some.inj hadd, Nat.ofDigits_cons, Nat.mul_comm, Nat.add_comm]

/-! ### Blocks of digits -/

/-- **Every block of bytes has enough digits**, and the number of digits tells the number of bytes. -/
lemma width_enough {count : ℕ} (hpos : 0 < count) (hle : count ≤ 7) :
    0 < kWidths.getD count 0 ∧ kWidths.getD count 0 ≤ 17 ∧ 256 ^ count ≤ 10 ^ kWidths.getD count 0 := by
  interval_cases count <;> decide

lemma bytesCount_width {count : ℕ} (hpos : 0 < count) (hlt : count < 7) :
    kWidths.getD count 0 < 17 ∧ bytesCount (kWidths.getD count 0) = some count := by
  interval_cases count <;> decide

lemma width_of_bytesCount {digits count : ℕ} (h : bytesCount digits = some count) :
    0 < count ∧ count < 7 ∧ kWidths.getD count 0 = digits := by
  unfold bytesCount at h
  split at h <;> first | (obtain rfl := Option.some.inj h; decide) | exact absurd h (by simp)

/-- The digits of a block of bytes. -/
def blockDigits (block : Bytes) : Bytes := snprintf (kWidths.getD block.length 0) (blockValue block)

lemma blockDigits_eq {block : Bytes} (hpos : 0 < block.length) (hle : block.length ≤ 7) :
    blockDigits block =
      (Positional.digits 10 (kWidths.getD block.length 0) (ofLittleEndian block)).reverse.map digit := by
  obtain ⟨hwidth, -, henough⟩ := width_enough hpos hle
  rw [blockDigits, blockValue_eq, snprintf_eq hwidth ((ofLittleEndian_lt block).trans_le henough)]

lemma length_blockDigits {block : Bytes} (hpos : 0 < block.length) (hle : block.length ≤ 7) :
    (blockDigits block).length = kWidths.getD block.length 0 := by
  rw [blockDigits_eq hpos hle, List.length_map, List.length_reverse, length_digits]

/-- A block of bytes is read from its digits. -/
lemma readBlock_blockDigits {block : Bytes} (hpos : 0 < block.length) (hle : block.length ≤ 7) :
    readBlock block.length (blockDigits block) = some block := by
  obtain ⟨hwidth, hsmall, henough⟩ := width_enough hpos hle
  have hvalue := (ofLittleEndian_lt block).trans_le henough
  have hshift : ofLittleEndian block >>> (8 * block.length) = 0 := by
    rw [Nat.shiftRight_eq_div_pow, Nat.pow_mul]
    exact Nat.div_eq_of_lt (ofLittleEndian_lt block)
  rw [readBlock, blockDigits_eq hpos hle, parse_digits (fun d hd => lt_of_mem_digits (by decide) hd)
    (by rw [length_digits]; exact hsmall), Option.bind_some, ofDigits_digits, Nat.mod_eq_of_lt hvalue, hshift,
    if_neg (not_not.mpr rfl), unblock_eq, littleEndian_ofLittleEndian]

/-- A block of digits that is read is that of its bytes. -/
lemma blockDigits_of_readBlock {count : ℕ} (hpos : 0 < count) (hle : count ≤ 7) {chunk block : Bytes}
    (hlength : chunk.length = kWidths.getD count 0) (h : readBlock count chunk = some block) :
    block.length = count ∧ blockDigits block = chunk := by
  obtain ⟨value, hparse, hvalue⟩ := Option.bind_eq_some_iff.mp h
  split_ifs at hvalue with hshift
  obtain rfl := Option.some.inj hvalue
  have hcount : (unblock count value).length = count := by rw [unblock_eq, length_littleEndian]
  have hlt : value < 256 ^ count := by
    rw [not_not, Nat.shiftRight_eq_div_pow, Nat.pow_mul] at hshift
    exact Nat.lt_of_div_eq_zero (by positivity) hshift
  obtain ⟨l, hl, rfl, rfl⟩ := digits_of_parse hparse
  rw [List.length_map, List.length_reverse] at hlength
  refine ⟨hcount, ?_⟩
  rw [blockDigits_eq (by omega) (by omega), hcount, unblock_eq, ofLittleEndian_littleEndian, Nat.mod_eq_of_lt hlt,
    ← hlength, digits_ofDigits hl]

/-! ### The whole text -/

lemma bytesToDigits_nil : bytesToDigits [] = [] := by
  rw [bytesToDigits, if_pos rfl]

/-- The digits of the first block come first. -/
lemma bytesToDigits_append {block rest : Bytes} (hpos : 0 < block.length) (hle : block.length ≤ 7)
    (hfull : rest = [] ∨ block.length = 7) : bytesToDigits (block ++ rest) =
      blockDigits block ++ bytesToDigits rest := by
  have hmin : min (block ++ rest).length 7 = block.length := by
    rw [List.length_append]
    rcases hfull with rfl | hfull
    · rw [List.length_nil]
      omega
    · omega
  have hne : block ++ rest ≠ [] := by
    intro hnil
    rw [(List.append_eq_nil_iff.mp hnil).1] at hpos
    exact absurd hpos (by simp)
  rw [bytesToDigits, if_neg hne, hmin, List.take_left, List.drop_left, blockDigits]

/-- A text starts with the digits of a block, or is that of the last one. -/
lemma digitsToBytes_append {block : Bytes} (hfull : block.length = 7) (rest : Bytes) :
    digitsToBytes (blockDigits block ++ rest) = (digitsToBytes rest).map (block ++ ·) := by
  have hlength : (blockDigits block).length = 17 := by
    rw [length_blockDigits (by omega) (by omega), hfull]
    rfl
  have hread : readBlock block.length (blockDigits block) = some block := readBlock_blockDigits (by omega) (by omega)
  rw [hfull] at hread
  rw [digitsToBytes, if_pos (by rw [List.length_append, hlength]; omega), ← hlength, List.take_left, List.drop_left,
    hread, Option.bind_some]

lemma digitsToBytes_nil : digitsToBytes [] = some [] := by
  rw [digitsToBytes, if_neg (by decide), if_pos rfl]

lemma digitsToBytes_last {block : Bytes} (hpos : 0 < block.length) (hlt : block.length < 7) :
    digitsToBytes (blockDigits block) = some block := by
  obtain ⟨hsmall, hcount⟩ := bytesCount_width hpos hlt
  have hlength := length_blockDigits hpos hlt.le
  have hne : blockDigits block ≠ [] := by
    intro hnil
    rw [hnil, List.length_nil] at hlength
    have hwidth := (width_enough hpos hlt.le).1
    omega
  rw [digitsToBytes, if_neg (by omega), if_neg hne, hlength, hcount, Option.bind_some,
    readBlock_blockDigits hpos hlt.le]

/-- Bytes are a block of seven and the rest, or a last block, or none. -/
lemma split_bytes (bytes : Bytes) :
    bytes = [] ∨ (0 < bytes.length ∧ bytes.length < 7) ∨
      ∃ block rest, bytes = block ++ rest ∧ block.length = 7 := by
  rcases Nat.lt_or_ge bytes.length 7 with hlt | hge
  · rcases Nat.eq_zero_or_pos bytes.length with hzero | hpos
    · exact .inl (List.length_eq_zero_iff.mp hzero)
    · exact .inr (.inl ⟨hpos, hlt⟩)
  · exact .inr (.inr ⟨bytes.take 7, bytes.drop 7, (List.take_append_drop 7 bytes).symm, by rw [List.length_take]; omega⟩)

/-- **Bytes are read from their digits.**

**Proof sketch.** Strong induction on the number of bytes, block after block. -/
theorem digitsToBytes_bytesToDigits (bytes : Bytes) : digitsToBytes (bytesToDigits bytes) = some bytes := by
  induction hn : bytes.length using Nat.strong_induction_on generalizing bytes with
  | h n ih =>
    rcases split_bytes bytes with rfl | ⟨hpos, hlt⟩ | ⟨block, rest, rfl, hfull⟩
    · rw [bytesToDigits_nil, digitsToBytes_nil]
    · have hdigits := bytesToDigits_append hpos hlt.le (.inl rfl)
      rw [List.append_nil, bytesToDigits_nil, List.append_nil] at hdigits
      rw [hdigits, digitsToBytes_last hpos hlt]
    · have hshort : rest.length < n := by
        rw [← hn, List.length_append]
        omega
      rw [bytesToDigits_append (by omega) (by omega) (.inr hfull), digitsToBytes_append hfull,
        ih rest.length hshort rest rfl, Option.map_some]

/-- **The number of digits** is that of the number of bytes. -/
theorem length_bytesToDigits (bytes : Bytes) :
    (bytesToDigits bytes).length = 17 * (bytes.length / 7) + kWidths.getD (bytes.length % 7) 0 := by
  induction hn : bytes.length using Nat.strong_induction_on generalizing bytes with
  | h n ih =>
    rcases split_bytes bytes with rfl | ⟨hpos, hlt⟩ | ⟨block, rest, rfl, hfull⟩
    · rw [bytesToDigits_nil, ← hn]
      rfl
    · have hdigits := bytesToDigits_append hpos hlt.le (.inl rfl)
      rw [List.append_nil, bytesToDigits_nil, List.append_nil] at hdigits
      rw [hdigits, length_blockDigits hpos hlt.le, hn, Nat.div_eq_of_lt (hn ▸ hlt), Nat.mod_eq_of_lt (hn ▸ hlt),
        Nat.mul_zero, Nat.zero_add]
    · rw [List.length_append, hfull] at hn
      rw [bytesToDigits_append (by omega) (by omega) (.inr hfull), List.length_append,
        length_blockDigits (by omega) (by omega), ih rest.length (by omega) rest rfl, hfull]
      have hdiv : n / 7 = rest.length / 7 + 1 := by omega
      have hmod : n % 7 = rest.length % 7 := by omega
      rw [hdiv, hmod, Nat.mul_succ]
      change 17 + _ = _
      omega

/-- **Digits that are read are written again.** -/
theorem bytesToDigits_of_digitsToBytes {digits bytes : Bytes} (h : digitsToBytes digits = some bytes) :
    bytesToDigits bytes = digits := by
  induction hn : digits.length using Nat.strong_induction_on generalizing digits bytes with
  | h n ih =>
    rw [digitsToBytes] at h
    split_ifs at h with hlong hempty
    · obtain ⟨block, hblock, hrest⟩ := Option.bind_eq_some_iff.mp h
      obtain ⟨rest, hread, rfl⟩ := Option.map_eq_some_iff.mp hrest
      have hlength : (digits.take 17).length = kWidths.getD 7 0 := by
        rw [List.length_take]
        change min 17 digits.length = 17
        omega
      obtain ⟨hfull, hdigits⟩ := blockDigits_of_readBlock (by decide) (by decide) hlength hblock
      have hshort : (digits.drop 17).length < n := by
        rw [List.length_drop]
        omega
      rw [bytesToDigits_append (by omega) (by omega) (.inr hfull), hdigits, ih _ hshort hread rfl,
        List.take_append_drop]
    · rw [← Option.some.inj h, bytesToDigits_nil, hempty]
    · obtain ⟨count, hcount, hread⟩ := Option.bind_eq_some_iff.mp h
      obtain ⟨hpos, hlt, hwidth⟩ := width_of_bytesCount hcount
      obtain ⟨hlength, hdigits⟩ := blockDigits_of_readBlock hpos hlt.le hwidth.symm hread
      have hwritten : bytesToDigits (bytes ++ []) = _ := bytesToDigits_append (by omega) (by omega) (.inl rfl)
      rw [List.append_nil, bytesToDigits_nil, List.append_nil] at hwritten
      rw [hwritten, hdigits]

/-! ### No overflow -/

/-- A block is put together without an overflow: neither what is shifted nor what is there so far. -/
lemma blockValue_fits {block : Bytes} (hle : block.length ≤ 7) (k : ℕ) :
    blockValue (block.take k) < 2 ^ 64 ∧ ∀ byte ∈ block[k]?, byte.toNat <<< (8 * k) < 2 ^ 64 := by
  constructor
  · rw [blockValue_eq]
    refine (ofLittleEndian_lt _).trans_le ?_
    calc 256 ^ (block.take k).length ≤ 256 ^ 8 := Nat.pow_le_pow_right (by decide) (by rw [List.length_take]; omega)
      _ = 2 ^ 64 := by decide
  · intro byte hbyte
    obtain ⟨hk, -⟩ := List.getElem?_eq_some_iff.mp hbyte
    have hlt : byte.toNat < 2 ^ 8 := byte.toNat_lt
    rw [Nat.shiftLeft_eq]
    calc byte.toNat * 2 ^ (8 * k) < 2 ^ 8 * 2 ^ (8 * k) := Nat.mul_lt_mul_of_pos_right hlt (by positivity)
      _ = 2 ^ (8 + 8 * k) := (Nat.pow_add 2 8 (8 * k)).symm
      _ ≤ 2 ^ 64 := Nat.pow_le_pow_right (by decide) (by omega)

/-- One more digit of a chunk makes no overflow. -/
lemma parse_fits {chunk : Bytes} (hle : chunk.length ≤ 17) {k : ℕ} (hk : k < chunk.length) {value : ℕ}
    (h : parse (chunk.take k) = some value) : value * 10 + 9 < 2 ^ 64 := by
  obtain ⟨l, hl, hchunk, rfl⟩ := digits_of_parse h
  have hlength : l.length = k := by
    have := congrArg List.length hchunk
    rw [List.length_take, List.length_map, List.length_reverse] at this
    omega
  have hlt : Nat.ofDigits 10 l < 10 ^ 16 :=
    (Nat.ofDigits_lt_base_pow_length (by decide) hl).trans_le (Nat.pow_le_pow_right (by decide) (by omega))
  omega

/-- **Bytes and their digits determine each other.** Bytes are read from their digits, whose number that of the bytes
fixes; digits that are read are written again; and no number on the way is greater than 64 bits.

**Proof sketch.** Seventeen digits hold every number of seven bytes, and each shorter block has as many digits as its
greatest number, so the number of digits at the end tells the number of bytes. -/
theorem digits_bijective :
    (∀ bytes, digitsToBytes (bytesToDigits bytes) = some bytes ∧
      (bytesToDigits bytes).length = 17 * (bytes.length / 7) + kWidths.getD (bytes.length % 7) 0) ∧
    (∀ digits bytes, digitsToBytes digits = some bytes → bytesToDigits bytes = digits) ∧
    (∀ block : Bytes, block.length ≤ 7 → ∀ k,
      blockValue (block.take k) < 2 ^ 64 ∧ ∀ byte ∈ block[k]?, byte.toNat <<< (8 * k) < 2 ^ 64) ∧
    ∀ chunk : Bytes, chunk.length ≤ 17 → ∀ k < chunk.length, ∀ value, parse (chunk.take k) = some value →
      value * 10 + 9 < 2 ^ 64 :=
  ⟨fun bytes => ⟨digitsToBytes_bytesToDigits bytes, length_bytesToDigits bytes⟩,
    fun _ _ h => bytesToDigits_of_digitsToBytes h, fun _ hle k => blockValue_fits hle k,
    fun _ hle _ hk _ h => parse_fits hle hk h⟩

example : bytesToDigits [1, 0, 0, 0, 0, 0, 0, 255] = Text.toLatin1 (Text.u "00000000000000001255") := by
  rw [bytesToDigits, bytesToDigits, bytesToDigits]
  decide

end Passkey
