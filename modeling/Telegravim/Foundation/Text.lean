import Mathlib.Data.List.Lex
import Mathlib.Tactic.IntervalCases

set_option autoImplicit false

/-!
# Texts and bytes

Strings as sequences of UTF-16 code units, as the string types of C++/Qt and of Java hold
them, and byte arrays as sequences of bytes. Unpaired surrogates are texts too. Texts are
ordered by their code units, which is the order of a map keyed by strings.

## Main definitions

* `Text`, `Bytes` — sequences of code units and of bytes.
* `u` — the text of a string literal.
* `decimal`, `toULongLong` — printing and reading unsigned decimal numbers.
* `toLatin1`, `fromLatin1`, `toHex`, `toUpper` — conversions between bytes and texts.
* `split` — the parts of a text between separators, empty ones kept.

## Main results

* `toULongLong_decimal` — a printed number is read back.
* `split_join` — parts without the separator survive joining and splitting.
-/

instance instLinearOrderUInt16 : LinearOrder UInt16 where
  le_refl := UInt16.le_refl
  le_trans := fun _ _ _ => UInt16.le_trans
  lt_iff_le_not_ge := fun a b => by
    rw [UInt16.le_iff_toNat_le, UInt16.le_iff_toNat_le, UInt16.lt_iff_toNat_lt]; omega
  le_antisymm := fun _ _ => UInt16.le_antisymm
  le_total := UInt16.le_total
  toDecidableLE := inferInstance
  toDecidableEq := inferInstance
  toDecidableLT := inferInstance

/-- A string, as its UTF-16 code units. -/
abbrev Text := List UInt16

/-- A byte array. -/
abbrev Bytes := List UInt8

instance instLawfulBEqText : LawfulBEq Text := inferInstance

namespace Text

/-- The code units of a character: one, or a surrogate pair. -/
def utf16 (c : Char) : Text :=
  if c.toNat < 0x10000 then [UInt16.ofNat c.toNat]
  else [UInt16.ofNat (0xD800 + (c.toNat - 0x10000) / 0x400),
    UInt16.ofNat (0xDC00 + (c.toNat - 0x10000) % 0x400)]

/-- The text of a string literal. -/
def u (s : String) : Text := s.toList.flatMap utf16

/-! ### Decimal numbers -/

/-- The code unit of an ASCII character. -/
def unitOf (c : Char) : UInt16 := UInt16.ofNat c.toNat

/-- The character of a code unit outside the surrogates. -/
def charOf (c : UInt16) : Char := Char.ofNat c.toNat

/-- A number in decimal, without leading zeros. -/
def decimal (n : ℕ) : Text := (Nat.toDigits 10 n).map unitOf

/-- Read an unsigned 64-bit decimal number. The readers of both platforms also take blanks and
a sign around the digits; every caller compares the text with the printed number afterwards,
which such texts never equal, so they are left out here. -/
def toULongLong (text : Text) : Option ℕ :=
  if text ≠ [] ∧ text.all (fun c => (charOf c).isDigit) then
    let n := Nat.ofDigitChars 10 (text.map charOf) 0
    if n < 2 ^ 64 then some n else none
  else none

lemma charOf_unitOf_of_isDigit {c : Char} (h : c.isDigit) : charOf (unitOf c) = c := by
  simp only [Char.isDigit, Bool.and_eq_true, decide_eq_true_eq] at h
  have hlt : c.toNat < 65536 := by
    have : c.val ≤ 57 := h.2
    have h57 : c.toNat ≤ 57 := this
    omega
  simp only [charOf, unitOf, UInt16.toNat_ofNat', Nat.mod_eq_of_lt hlt]
  exact Char.ofNat_toNat c

lemma map_charOf_decimal (n : ℕ) : (decimal n).map charOf = Nat.toDigits 10 n := by
  unfold decimal
  rw [List.map_map]
  exact (List.map_congr_left fun c hc => charOf_unitOf_of_isDigit
    (Nat.isDigit_of_mem_toDigits (by omega) le_rfl hc)).trans (List.map_id _)

lemma decimal_ne_nil (n : ℕ) : decimal n ≠ [] := by
  unfold decimal
  simp [Nat.toDigits_ne_nil]

/-- A printed number is read back. -/
lemma toULongLong_decimal {n : ℕ} (h : n < 2 ^ 64) : toULongLong (decimal n) = some n := by
  have hall : (decimal n).all (fun c => (charOf c).isDigit) = true := by
    rw [List.all_eq_true]
    intro c hc
    have hmem : charOf c ∈ Nat.toDigits 10 n := map_charOf_decimal n ▸ List.mem_map_of_mem hc
    exact Nat.isDigit_of_mem_toDigits (by omega) le_rfl hmem
  unfold toULongLong
  rw [if_pos ⟨decimal_ne_nil n, hall⟩, map_charOf_decimal, Nat.ofDigitChars_ten_toDigits]
  exact if_pos h

/-- Distinct numbers print differently. -/
lemma decimal_injective : Function.Injective decimal := by
  intro m n h
  calc
    m = Nat.ofDigitChars 10 ((decimal m).map charOf) 0 := by
      rw [map_charOf_decimal, Nat.ofDigitChars_ten_toDigits]
    _ = Nat.ofDigitChars 10 ((decimal n).map charOf) 0 := by rw [h]
    _ = n := by rw [map_charOf_decimal, Nat.ofDigitChars_ten_toDigits]

/-- The units of a printed number are digits. -/
lemma mem_decimal {n : ℕ} {c : UInt16} (h : c ∈ decimal n) : 48 ≤ c ∧ c ≤ 57 := by
  obtain ⟨d, hd, rfl⟩ := List.mem_map.mp h
  have hdig := Nat.isDigit_of_mem_toDigits (by omega) le_rfl hd
  simp only [Char.isDigit, Bool.and_eq_true, decide_eq_true_eq] at hdig
  have h1 : 48 ≤ d.toNat := hdig.1
  have h2 : d.toNat ≤ 57 := hdig.2
  simp only [unitOf, UInt16.le_iff_toNat_le, UInt16.toNat_ofNat', Nat.mod_eq_of_lt
    (by omega : d.toNat < 2 ^ 16)]
  exact ⟨h1, h2⟩

/-! ### Bytes and texts -/

/-- The Latin-1 bytes of a text; other code units become a question mark. -/
def toLatin1 (text : Text) : Bytes :=
  text.map fun c => if c.toNat < 256 then UInt8.ofNat c.toNat else 63

/-- The text of Latin-1 bytes. -/
def fromLatin1 (bytes : Bytes) : Text := bytes.map fun b => UInt16.ofNat b.toNat

lemma toLatin1_fromLatin1 (bytes : Bytes) : toLatin1 (fromLatin1 bytes) = bytes := by
  unfold toLatin1 fromLatin1
  rw [List.map_map]
  refine (List.map_congr_left fun b _ => ?_).trans (List.map_id _)
  have hb : b.toNat < 256 := b.toNat_lt
  simp [hb]

/-- The hexadecimal digit of a number below sixteen, in lower case. -/
def hexDigit (n : ℕ) : UInt8 := UInt8.ofNat (if n < 10 then 48 + n else 87 + n)

/-- The bytes in hexadecimal, two lower-case digits each. -/
def toHex (bytes : Bytes) : Bytes :=
  bytes.flatMap fun b => [hexDigit (b.toNat / 16), hexDigit (b.toNat % 16)]

/-- ASCII letters in upper case. -/
def toUpper (text : Text) : Text :=
  text.map fun c => if 97 ≤ c ∧ c ≤ 122 then c - 32 else c

/-! ### Parts of a text -/

/-- The parts of a text between the separators; empty parts are kept. -/
def split (text : Text) (separator : UInt16) : List Text := text.splitOn separator

/-- The parts joined with a separator between them. -/
def join (separator : UInt16) (parts : List Text) : Text := [separator].intercalate parts

lemma split_join {separator : UInt16} {parts : List Text}
    (h : ∀ part ∈ parts, separator ∉ part) (hne : parts ≠ []) :
    split (join separator parts) separator = parts :=
  List.splitOn_intercalate separator h hne

lemma join_split (text : Text) (separator : UInt16) :
    join separator (split text separator) = text :=
  List.intercalate_splitOn separator

end Text
