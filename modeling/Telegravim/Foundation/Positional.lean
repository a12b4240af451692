import Mathlib.Data.Nat.Digits.Lemmas
import Telegravim.Foundation.Text

set_option autoImplicit false

/-!
# Numbers in a fixed number of digits

A number below `base ^ width` is written with `width` digits, the lowest first, and every such list of digits is
written for one number. Bytes are digits of base 256.

## Main definitions

* `Positional.digits` — the lowest digits of a number.
* `Positional.littleEndian`, `Positional.bigEndian` — a number as bytes.
* `Positional.ofLittleEndian`, `Positional.ofBigEndian` — the number of some bytes.

## Main results

* `Positional.ofDigits_digits`, `Positional.digits_ofDigits` — digits and numbers determine each other.
* `Positional.ofLittleEndian_littleEndian`, `Positional.ofBigEndian_bigEndian` — a number is read from its bytes.
* `Positional.littleEndian_ofLittleEndian`, `Positional.bigEndian_ofBigEndian` — bytes are written again.
-/

namespace Positional

/-- The lowest digits of a number, the lowest first. -/
def digits (base : ℕ) : ℕ → ℕ → List ℕ
  | 0, _ => []
  | width + 1, value => value % base :: digits base width (value / base)

section

variable {base : ℕ}

@[simp] lemma length_digits (width value : ℕ) : (digits base width value).length = width := by
  induction width generalizing value with
  | zero => rfl
  | succ width ih => rw [digits, List.length_cons, ih]

lemma lt_of_mem_digits (hbase : 0 < base) {width value d : ℕ} (hd : d ∈ digits base width value) : d < base := by
  induction width generalizing value with
  | zero => exact absurd hd List.not_mem_nil
  | succ width ih =>
    rcases List.mem_cons.mp hd with rfl | hd
    · exact Nat.mod_lt _ hbase
    · exact ih hd

/-- The digits of a number make it again, as far as they reach. -/
theorem ofDigits_digits (base width value : ℕ) : Nat.ofDigits base (digits base width value) = value % base ^ width := by
  induction width generalizing value with
  | zero => rw [digits, Nat.ofDigits_nil, Nat.pow_zero, Nat.mod_one]
  | succ width ih => rw [digits, Nat.ofDigits_cons, ih, Nat.pow_succ, Nat.mul_comm (base ^ width), Nat.mod_mul]

/-- A list of digits is that of its number. -/
theorem digits_ofDigits {l : List ℕ} (hl : ∀ d ∈ l, d < base) : digits base l.length (Nat.ofDigits base l) = l := by
  induction l with
  | nil => rfl
  | cons d l ih =>
    have hd : d < base := hl d List.mem_cons_self
    rw [List.length_cons, digits, Nat.ofDigits_cons, Nat.add_mul_mod_self_left, Nat.mod_eq_of_lt hd,
      Nat.add_mul_div_left _ _ (by omega), Nat.div_eq_of_lt hd, Nat.zero_add,
      ih fun d' hd' => hl d' (List.mem_cons_of_mem _ hd')]

/-- Some more digits of a number that has no more are zeros. -/
lemma digits_of_lt {width value : ℕ} (h : value < base ^ width) (more : ℕ) :
    digits base (width + more) value = digits base width value ++ List.replicate more 0 := by
  induction width generalizing value with
  | zero =>
    obtain rfl : value = 0 := by simpa using h
    rw [Nat.zero_add, digits, List.nil_append]
    induction more with
    | zero => rfl
    | succ more ih => rw [digits, Nat.zero_mod, Nat.zero_div, ih, List.replicate_succ]
  | succ width ih =>
    have hdiv : value / base < base ^ width := by
      rw [Nat.pow_succ, Nat.mul_comm] at h
      exact Nat.div_lt_of_lt_mul h
    rw [Nat.add_right_comm, digits, ih hdiv, digits, List.cons_append]

end

/-! ### Bytes -/

/-- A number as bytes, the lowest first. -/
def littleEndian (width value : ℕ) : Bytes := (digits 256 width value).map UInt8.ofNat

/-- The number of some bytes, the lowest first. -/
def ofLittleEndian (bytes : Bytes) : ℕ := Nat.ofDigits 256 (bytes.map UInt8.toNat)

/-- A number as bytes, the highest first. -/
def bigEndian (width value : ℕ) : Bytes := (littleEndian width value).reverse

/-- The number of some bytes, the highest first. -/
def ofBigEndian (bytes : Bytes) : ℕ := ofLittleEndian bytes.reverse

@[simp] lemma length_littleEndian (width value : ℕ) : (littleEndian width value).length = width := by
  rw [littleEndian, List.length_map, length_digits]

@[simp] lemma length_bigEndian (width value : ℕ) : (bigEndian width value).length = width := by
  rw [bigEndian, List.length_reverse, length_littleEndian]

@[simp] lemma ofLittleEndian_nil : ofLittleEndian [] = 0 := rfl

@[simp] lemma ofLittleEndian_cons (byte : UInt8) (bytes : Bytes) :
    ofLittleEndian (byte :: bytes) = byte.toNat + 256 * ofLittleEndian bytes := by
  rw [ofLittleEndian, List.map_cons, Nat.ofDigits_cons]
  rfl

lemma ofLittleEndian_append (bytes more : Bytes) :
    ofLittleEndian (bytes ++ more) = ofLittleEndian bytes + 256 ^ bytes.length * ofLittleEndian more := by
  rw [ofLittleEndian, List.map_append, Nat.ofDigits_append, List.length_map]
  rfl

/-- The lowest digits do not see what is above them. -/
lemma digits_mod (base width value : ℕ) : digits base width (value % base ^ width) = digits base width value := by
  induction width generalizing value with
  | zero => rfl
  | succ width ih =>
    rw [digits, digits, Nat.pow_succ, Nat.mul_comm, Nat.mod_mul_right_mod, Nat.mod_mul_right_div_self, ih]

/-- Digits are the lowest ones and those of the rest. -/
lemma digits_add (base width more value : ℕ) :
    digits base (width + more) value = digits base width value ++ digits base more (value / base ^ width) := by
  induction width generalizing value with
  | zero => rw [Nat.zero_add, digits, List.nil_append, Nat.pow_zero, Nat.div_one]
  | succ width ih =>
    rw [Nat.add_right_comm, digits, ih, digits, List.cons_append, Nat.div_div_eq_div_mul, Nat.pow_succ,
      Nat.mul_comm base]

lemma littleEndian_mod (width value : ℕ) : littleEndian width (value % 256 ^ width) = littleEndian width value := by
  rw [littleEndian, digits_mod, littleEndian]

lemma littleEndian_add (width value more : ℕ) :
    littleEndian (width + more) value = littleEndian width value ++ littleEndian more (value / 256 ^ width) := by
  rw [littleEndian, digits_add, List.map_append, littleEndian, littleEndian]

lemma ofLittleEndian_lt (bytes : Bytes) : ofLittleEndian bytes < 256 ^ bytes.length := by
  have hlt := Nat.ofDigits_lt_base_pow_length (b := 256) (l := bytes.map UInt8.toNat) (by omega) fun d hd => by
    obtain ⟨byte, _, rfl⟩ := List.mem_map.mp hd
    exact byte.toNat_lt
  rwa [List.length_map] at hlt

lemma ofBigEndian_lt (bytes : Bytes) : ofBigEndian bytes < 256 ^ bytes.length := by
  have hlt := ofLittleEndian_lt bytes.reverse
  rwa [List.length_reverse] at hlt

/-- The bytes of a number by shifts. -/
lemma bigEndian_eq (width value : ℕ) :
    bigEndian width value = (List.range width).reverse.map fun i => UInt8.ofNat (value >>> (8 * i)) := by
  have hlittle : ∀ value, littleEndian width value = (List.range width).map fun i => UInt8.ofNat
    (value >>> (8 * i)) := by
    induction width with
    | zero => exact fun _ => rfl
    | succ width ih =>
      intro value
      have hfirst : UInt8.ofNat (value % 256) = UInt8.ofNat value := UInt8.ofNat_mod_size
      have hrest : littleEndian (width + 1) value = UInt8.ofNat (value % 256) :: littleEndian width (value / 256) := rfl
      rw [hrest, hfirst, ih, List.range_succ_eq_map, List.map_cons, List.map_map]
      refine congrArg₂ List.cons rfl (List.map_congr_left fun i _ => congrArg UInt8.ofNat ?_)
      rw [Nat.shiftRight_eq_div_pow, Nat.shiftRight_eq_div_pow, Nat.div_div_eq_div_mul,
        Nat.mul_succ, Nat.pow_add, Nat.mul_comm 256]
  rw [bigEndian, hlittle, List.map_reverse]

/-- **A number is read from its bytes**, as far as they reach. -/
theorem ofLittleEndian_littleEndian (width value : ℕ) :
    ofLittleEndian (littleEndian width value) = value % 256 ^ width := by
  have hdigits : (digits 256 width value).map (UInt8.toNat ∘ UInt8.ofNat) = digits 256 width value := by
    rw [List.map_congr_left (g := id) fun d hd => ?_, List.map_id]
    have hlt : d < 256 := lt_of_mem_digits (by omega) hd
    exact UInt8.toNat_ofNat_of_lt' hlt
  rw [ofLittleEndian, littleEndian, List.map_map, hdigits, ofDigits_digits]

/-- **Bytes are written again** for their number. -/
theorem littleEndian_ofLittleEndian (bytes : Bytes) : littleEndian bytes.length (ofLittleEndian bytes) = bytes := by
  have hdigits : digits 256 (bytes.map UInt8.toNat).length (Nat.ofDigits 256 (bytes.map UInt8.toNat)) = _ :=
    digits_ofDigits fun d hd => by
      obtain ⟨byte, _, rfl⟩ := List.mem_map.mp hd
      exact byte.toNat_lt
  rw [List.length_map] at hdigits
  rw [littleEndian, ofLittleEndian, hdigits, List.map_map, List.map_congr_left (g := id) fun byte _ => ?_, List.map_id]
  exact UInt8.ofNat_toNat

theorem ofBigEndian_bigEndian (width value : ℕ) : ofBigEndian (bigEndian width value) = value % 256 ^ width := by
  rw [ofBigEndian, bigEndian, List.reverse_reverse, ofLittleEndian_littleEndian]

theorem bigEndian_ofBigEndian (bytes : Bytes) : bigEndian bytes.length (ofBigEndian bytes) = bytes := by
  have hbytes := littleEndian_ofLittleEndian bytes.reverse
  rw [List.length_reverse] at hbytes
  rw [bigEndian, ofBigEndian, hbytes, List.reverse_reverse]

/-- One more byte at the end is the lowest. -/
lemma ofBigEndian_concat (bytes : Bytes) (byte : UInt8) :
    ofBigEndian (bytes ++ [byte]) = 256 * ofBigEndian bytes + byte.toNat := by
  rw [ofBigEndian, List.reverse_append, List.reverse_singleton, List.singleton_append, ofLittleEndian_cons, Nat.add_comm]
  rfl

end Positional
