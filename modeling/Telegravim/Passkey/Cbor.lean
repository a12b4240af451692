import Telegravim.Foundation.Cursor

set_option autoImplicit false

/-!
# CBOR values as bytes

The phone and the client exchange CBOR values: numbers, bytes, texts, arrays, maps and booleans. A value starts with its
kind and an argument, in as few bytes as the argument needs. The decoder enters sixteen levels of arrays and maps.

## Main definitions

* `Passkey.CborValue` — a value.
* `Passkey.cborEncode`, `Passkey.cborDecode` — a value as bytes, and back.
* `Passkey.cborDecodeAt` — the decoder as it reads by a position.

## Main results

* `Passkey.decodeLevels_encodeTo` — a value is read from its bytes, whatever comes after them.
* `Passkey.covers_decodeLevels` — what was read is not longer when it is written again.
* `Passkey.cborDecodeAt_eq` — no read passes the end of the data.
-/

namespace Passkey

open Positional

/-- `CborValue`. A text is its bytes. -/
inductive CborValue where
  | int (value : ℤ)
  | bytes (value : Bytes)
  | string (value : Bytes)
  | array (value : List CborValue)
  | map (value : List (CborValue × CborValue))
  | bool (value : Bool)

namespace CborValue

def isMap : CborValue → Bool
  | map _ => true
  | _ => false

/-- The value of a number in a map. -/
def find (value : CborValue) (key : ℤ) : Option CborValue :=
  match value with
  | map entries => (entries.find? fun entry => match entry.1 with
    | int k => k = key
    | _ => false).map Prod.snd
  | _ => none

end CborValue

/-! ### Encoding -/

/-- The kind of a value with an argument. -/
def appendUnsigned (major value : ℕ) : Bytes :=
  if value < 24 then [UInt8.ofNat (major <<< 5 ||| value)]
  else if value ≤ 0xFF then [UInt8.ofNat (major <<< 5 ||| 24), UInt8.ofNat value]
  else if value ≤ 0xFFFF then
    [UInt8.ofNat (major <<< 5 ||| 25), UInt8.ofNat (value >>> 8), UInt8.ofNat value]
  else if value ≤ 0xFFFFFFFF then
    UInt8.ofNat (major <<< 5 ||| 26) :: (List.range 4).reverse.map fun i => UInt8.ofNat (value >>> (8 * i))
  else UInt8.ofNat (major <<< 5 ||| 27) :: (List.range 8).reverse.map fun i => UInt8.ofNat (value >>> (8 * i))

mutual

def encodeTo : CborValue → Bytes
  | .int value => if value ≥ 0 then appendUnsigned 0 value.toNat else appendUnsigned 1 (-1 - value).toNat
  | .bytes value => appendUnsigned 2 value.length ++ value
  | .string value => appendUnsigned 3 value.length ++ value
  | .array value => appendUnsigned 4 value.length ++ encodeEntries value
  | .map value => appendUnsigned 5 value.length ++ encodePairs value
  | .bool value => [if value then 0xF5 else 0xF4]

/-- The entries of an array, one after another. -/
def encodeEntries : List CborValue → Bytes
  | [] => []
  | entry :: entries => encodeTo entry ++ encodeEntries entries

/-- The keys and entries of a map, one after another. -/
def encodePairs : List (CborValue × CborValue) → Bytes
  | [] => []
  | (key, entry) :: entries => encodeTo key ++ encodeTo entry ++ encodePairs entries

end

def cborEncode (value : CborValue) : Bytes := encodeTo value

/-! ### Decoding -/

def kMaxCborDepth : ℕ := 16

/-- A value that cannot be read, `nullopt` in the decoder. -/
def cborFault : String := ""

/-- A number with its highest byte first, as the decoder puts it together. -/
def bigNumber (read : Bytes) : ℕ := read.foldl (fun out byte => out <<< 8 ||| byte.toNat) 0

/-- `Reader::readBig`. -/
def readBig (count : ℕ) : Reader ℕ := Reader.bind (Reader.bytes cborFault count) fun read => Reader.pure (bigNumber read)

/-- The argument of a value, by the low bits of its first byte. -/
def readArgument (additional : ℕ) : Reader ℕ :=
  if additional < 24 then Reader.pure additional
  else if additional = 24 then readBig 1
  else if additional = 25 then readBig 2
  else if additional = 26 then readBig 4
  else if additional = 27 then readBig 8
  else Reader.fail cborFault

/-- The first byte of a value, and its argument. -/
def readHead : Reader (ℕ × ℕ) :=
  Reader.bind (Reader.u8 cborFault) fun initial =>
    Reader.bind (readArgument (initial &&& 0x1F)) fun argument => Reader.pure (initial, argument)

/-- The rest of a value, by its first byte, its argument and how the entries of an array or a map are read. -/
def readContents (entry : Reader CborValue) (initial argument : ℕ) : Reader CborValue :=
  match initial >>> 5 with
  | 0 => Reader.bind (Reader.require (argument ≤ 0x7FFFFFFFFFFFFFFF) cborFault) fun _ => Reader.pure (.int argument)
  | 1 => Reader.bind (Reader.require (argument ≤ 0x7FFFFFFFFFFFFFFF) cborFault) fun _ => Reader.pure
    (.int (-1 - argument))
  | 2 => Reader.bind (Reader.bytes cborFault argument) fun read => Reader.pure (.bytes read)
  | 3 => Reader.bind (Reader.bytes cborFault argument) fun read => Reader.pure (.string read)
  | 4 => Reader.bind (Reader.times entry argument) fun entries => Reader.pure (.array entries)
  | 5 => Reader.bind (Reader.times (Reader.bind entry fun key => Reader.bind entry fun value => Reader.pure (key, value))
      argument) fun entries => Reader.pure (.map entries)
  | 7 =>
    if initial = 0xF4 then Reader.pure (.bool false)
    else if initial = 0xF5 then Reader.pure (.bool true)
    else Reader.fail cborFault
  | _ => Reader.fail cborFault

/-- A value, with the number of levels that may still be entered. -/
def decodeLevels : ℕ → Reader CborValue
  | 0 => Reader.fail cborFault
  | levels + 1 =>
    Reader.bind readHead fun (initial, argument) => readContents (decodeLevels levels) initial argument

/-- `DecodeOne`. -/
def decodeOne (depth : ℕ) : Reader CborValue := decodeLevels (kMaxCborDepth + 1 - depth)

/-- `CborDecode`. -/
def cborDecode (data : Bytes) : Option CborValue :=
  match decodeOne 0 data with
  | .ok (value, []) => some value
  | _ => none

/-! ### The first byte and the argument -/

/-- The low bits of the first byte of a value with the argument. -/
def additional (value : ℕ) : ℕ :=
  if value < 24 then value
  else if value ≤ 0xFF then 24
  else if value ≤ 0xFFFF then 25
  else if value ≤ 0xFFFFFFFF then 26
  else 27

/-- The bytes of the argument. -/
def argumentWidth (value : ℕ) : ℕ :=
  if value < 24 then 0
  else if value ≤ 0xFF then 1
  else if value ≤ 0xFFFF then 2
  else if value ≤ 0xFFFFFFFF then 4
  else 8

lemma additional_lt (value : ℕ) : additional value < 32 := by
  unfold additional
  split_ifs <;> omega

lemma appendUnsigned_eq (major value : ℕ) :
    appendUnsigned major value =
      UInt8.ofNat (major <<< 5 ||| additional value) :: bigEndian (argumentWidth value) value := by
  unfold appendUnsigned additional argumentWidth
  split_ifs
  · rfl
  · rw [bigEndian_eq]
    rfl
  · rw [bigEndian_eq]
    rfl
  · rw [bigEndian_eq]
  · rw [bigEndian_eq]

lemma toNat_initial {major low : ℕ} (hmajor : major < 8) (hlow : low < 32) :
    (UInt8.ofNat (major <<< 5 ||| low)).toNat = 32 * major + low := by
  have hor : major <<< 5 ||| low = 32 * major + low := by
    rw [← Nat.shiftLeft_add_eq_or_of_lt (show low < 2 ^ 5 from hlow), Nat.shiftLeft_eq, Nat.mul_comm]
  rw [hor]
  exact UInt8.toNat_ofNat_of_lt' (by simp only [UInt8.size]; omega)

lemma initial_shiftRight {major low : ℕ} (hlow : low < 32) : (32 * major + low) >>> 5 = major := by
  rw [Nat.shiftRight_eq_div_pow]
  omega

lemma initial_and {major low : ℕ} (hlow : low < 32) : (32 * major + low) &&& 0x1F = low := by
  have hand : (32 * major + low) &&& 0x1F = (32 * major + low) % 2 ^ 5 := Nat.and_two_pow_sub_one_eq_mod _ 5
  rw [hand]
  omega

lemma bigNumber_eq (read : Bytes) : bigNumber read = ofBigEndian read := by
  induction read using List.reverseRecOn with
  | nil => rfl
  | append_singleton read byte ih =>
    have hlt : byte.toNat < 2 ^ 8 := byte.toNat_lt
    rw [ofBigEndian_concat, ← ih, bigNumber, List.foldl_append, List.foldl_cons, List.foldl_nil, ← bigNumber,
      ← Nat.shiftLeft_add_eq_or_of_lt hlt, Nat.shiftLeft_eq, Nat.mul_comm]

/-- A number of some bytes is read from them. -/
lemma readBig_bigEndian {count value : ℕ} (h : value < 256 ^ count) (rest : Bytes) :
    readBig count (bigEndian count value ++ rest) = .ok (value, rest) := by
  have hbytes : Reader.bytes cborFault count (bigEndian count value ++ rest) = .ok (bigEndian count value, rest) :=
    (Reader.Exact.bytes _ _ _ _ _).mpr ⟨length_bigEndian _ _, rfl⟩
  refine Reader.bind_ok.mpr ⟨_, _, hbytes, ?_⟩
  rw [bigNumber_eq, ofBigEndian_bigEndian, Nat.mod_eq_of_lt h]
  rfl

lemma readBig_ok {count value : ℕ} {data rest : Bytes} (h : readBig count data = .ok (value, rest)) :
    value < 256 ^ count ∧ ∃ taken, data = taken ++ rest ∧ taken.length = count := by
  obtain ⟨read, middle, hbytes, hpure⟩ := Reader.bind_ok.mp h
  cases hpure
  obtain ⟨hlength, hdata⟩ := (Reader.Exact.bytes _ _ _ _ _).mp hbytes
  refine ⟨?_, read, hdata, hlength⟩
  rw [bigNumber_eq, ← hlength]
  exact ofBigEndian_lt read

/-- The argument is read from its bytes. -/
lemma readArgument_bigEndian {value : ℕ} (h : value < 18446744073709551616) (rest : Bytes) :
    readArgument (additional value) (bigEndian (argumentWidth value) value ++ rest) = .ok (value, rest) := by
  unfold additional argumentWidth
  split_ifs with h0 h1 h2 h4
  · rw [readArgument, if_pos h0]
    rfl
  · exact readBig_bigEndian (show value < 256 ^ 1 by omega) rest
  · exact readBig_bigEndian (show value < 256 ^ 2 by omega) rest
  · exact readBig_bigEndian (show value < 256 ^ 4 by omega) rest
  · exact readBig_bigEndian (show value < 256 ^ 8 by omega) rest

/-- **The first byte and the argument are read from what is written for them.** -/
lemma readHead_appendUnsigned {major value : ℕ} (hmajor : major < 8) (hvalue : value < 18446744073709551616) :
    ∃ initial, initial >>> 5 = major ∧
      ∀ rest, readHead (appendUnsigned major value ++ rest) = .ok ((initial, value), rest) := by
  have hlow := additional_lt value
  refine ⟨32 * major + additional value, initial_shiftRight hlow, fun rest => ?_⟩
  rw [appendUnsigned_eq, List.cons_append]
  have hinitial : Reader.u8 cborFault (UInt8.ofNat (major <<< 5 ||| additional value) ::
      (bigEndian (argumentWidth value) value ++ rest)) =
      .ok (32 * major + additional value, bigEndian (argumentWidth value) value ++ rest) := by
    rw [← toNat_initial hmajor hlow]
    exact Reader.u8_cons _ _ _
  refine Reader.bind_ok.mpr ⟨_, _, hinitial, Reader.bind_ok.mpr ⟨value, rest, ?_, rfl⟩⟩
  rw [initial_and hlow]
  exact readArgument_bigEndian hvalue rest

lemma length_appendUnsigned (major value : ℕ) : (appendUnsigned major value).length = 1 + argumentWidth value := by
  rw [appendUnsigned_eq, List.length_cons, length_bigEndian, Nat.add_comm]

lemma readArgument_ok {low value : ℕ} {data rest : Bytes} (h : readArgument low data = .ok (value, rest)) :
    value < 18446744073709551616 ∧ ∃ taken, data = taken ++ rest ∧ argumentWidth value ≤ taken.length := by
  unfold readArgument at h
  split_ifs at h with h0 h1 h2 h4 h8
  · cases h
    refine ⟨by omega, [], rfl, ?_⟩
    rw [argumentWidth, if_pos h0]
    rfl
  all_goals first
    | (obtain ⟨hlt, taken, hdata, hlength⟩ := readBig_ok h
       refine ⟨by omega, taken, hdata, ?_⟩
       unfold argumentWidth
       split_ifs <;> omega)
    | cases h

/-- What is written for a first byte and an argument is not longer than what they were read from. -/
lemma readHead_ok {initial value : ℕ} {data rest : Bytes} (h : readHead data = .ok ((initial, value), rest)) :
    value < 18446744073709551616 ∧
      ∃ taken, data = taken ++ rest ∧ ∀ major, (appendUnsigned major value).length ≤ taken.length := by
  obtain ⟨first, middle, hfirst, hthen⟩ := Reader.bind_ok.mp h
  obtain ⟨argument, left, hargument, hpure⟩ := Reader.bind_ok.mp hthen
  cases hpure
  obtain ⟨-, hdata⟩ := (Reader.Exact.u8 _ _ _ _).mp hfirst
  obtain ⟨hvalue, taken, hmiddle, hlength⟩ := readArgument_ok hargument
  refine ⟨hvalue, littleEndian 1 initial ++ taken, by rw [hdata, hmiddle, List.append_assoc], fun major => ?_⟩
  rw [length_appendUnsigned, List.length_append, length_littleEndian]
  omega

/-! ### Values -/

/-- The values of the source: the numbers have 64 bits, and so have the sizes. -/
inductive Fits : CborValue → Prop
  | int {value : ℤ} (h : -9223372036854775808 ≤ value ∧ value < 9223372036854775808) : Fits (.int value)
  | bytes {value : Bytes} (h : value.length < 18446744073709551616) : Fits (.bytes value)
  | string {value : Bytes} (h : value.length < 18446744073709551616) : Fits (.string value)
  | array {value : List CborValue} (h : value.length < 18446744073709551616) (entries : ∀ entry ∈ value, Fits entry) :
      Fits (.array value)
  | map {value : List (CborValue × CborValue)} (h : value.length < 18446744073709551616)
      (keys : ∀ entry ∈ value, Fits entry.1) (entries : ∀ entry ∈ value, Fits entry.2) : Fits (.map value)
  | bool {value : Bool} : Fits (.bool value)

mutual

/-- The depth of the deepest leaf; an array or a map without entries is a leaf. -/
def leafDepth : CborValue → ℕ
  | .array value => entriesLeafDepth value
  | .map value => pairsLeafDepth value
  | _ => 0

/-- The depth of the deepest leaf in the entries of an array. -/
def entriesLeafDepth : List CborValue → ℕ
  | [] => 0
  | entry :: entries => max (leafDepth entry + 1) (entriesLeafDepth entries)

/-- The depth of the deepest leaf in the keys and entries of a map. -/
def pairsLeafDepth : List (CborValue × CborValue) → ℕ
  | [] => 0
  | (key, entry) :: entries => max (max (leafDepth key + 1) (leafDepth entry + 1)) (pairsLeafDepth entries)

end

/-- **Induction over values**: arrays from their entries, maps from their keys and entries. -/
theorem CborValue.induction {P : CborValue → Prop} (int : ∀ value, P (.int value)) (bytes : ∀ value, P (.bytes value))
    (string : ∀ value, P (.string value)) (array : ∀ value, (∀ entry ∈ value, P entry) → P (.array value))
    (map : ∀ value, (∀ entry ∈ value, P entry.1 ∧ P entry.2) → P (.map value)) (bool : ∀ value, P (.bool value))
    (value : CborValue) : P value := by
  refine @CborValue.rec P (fun l => ∀ entry ∈ l, P entry)
    (fun l => ∀ entry ∈ l, P entry.1 ∧ P entry.2) (fun entry => P entry.1 ∧ P entry.2)
    int bytes string array map bool ?_ ?_ ?_ ?_ ?_ value
  · exact fun _ h => absurd h List.not_mem_nil
  · exact fun _ _ hhead htail => List.forall_mem_cons.mpr ⟨hhead, htail⟩
  · exact fun _ h => absurd h List.not_mem_nil
  · exact fun _ _ hhead htail => List.forall_mem_cons.mpr ⟨hhead, htail⟩
  · exact fun _ _ hkey hentry => ⟨hkey, hentry⟩

lemma encodeEntries_eq (entries : List CborValue) : encodeEntries entries = entries.flatMap encodeTo := by
  induction entries with
  | nil => rfl
  | cons entry entries ih => rw [encodeEntries, ih, List.flatMap_cons]

lemma encodePairs_eq (entries : List (CborValue × CborValue)) :
    encodePairs entries = entries.flatMap fun entry => encodeTo entry.1 ++ encodeTo entry.2 := by
  induction entries with
  | nil => rfl
  | cons entry entries ih => rw [encodePairs, ih, List.flatMap_cons]

lemma entriesLeafDepth_lt {entries : List CborValue} {depth : ℕ} :
    entriesLeafDepth entries < depth + 1 ↔ ∀ entry ∈ entries, leafDepth entry < depth := by
  induction entries with
  | nil => simp [entriesLeafDepth]
  | cons entry entries ih =>
    rw [entriesLeafDepth, max_lt_iff, ih, List.forall_mem_cons]
    exact and_congr_left' Nat.add_lt_add_iff_right

lemma pairsLeafDepth_lt {entries : List (CborValue × CborValue)} {depth : ℕ} :
    pairsLeafDepth entries < depth + 1 ↔ ∀ entry ∈ entries, leafDepth entry.1 < depth ∧ leafDepth entry.2 < depth := by
  induction entries with
  | nil => simp [pairsLeafDepth]
  | cons entry entries ih =>
    rw [pairsLeafDepth, max_lt_iff, max_lt_iff, ih, List.forall_mem_cons]
    exact and_congr_left' (and_congr Nat.add_lt_add_iff_right Nat.add_lt_add_iff_right)

/-- A value with an argument is read by its kind. -/
lemma decodeLevels_appendUnsigned {major value : ℕ} (hmajor : major < 8) (hvalue : value < 18446744073709551616)
    (levels : ℕ) :
    ∃ initial, initial >>> 5 = major ∧ ∀ rest,
      decodeLevels (levels + 1) (appendUnsigned major value ++ rest) =
        readContents (decodeLevels levels) initial value rest := by
  obtain ⟨initial, hinitial, hread⟩ := readHead_appendUnsigned hmajor hvalue
  refine ⟨initial, hinitial, fun rest => ?_⟩
  rw [decodeLevels, Reader.bind, hread]

/-- **A number is read from its bytes.** -/
lemma decodeLevels_int {value : ℤ} (h : -9223372036854775808 ≤ value ∧ value < 9223372036854775808) (levels : ℕ)
    (rest : Bytes) : decodeLevels (levels + 1) (encodeTo (.int value) ++ rest) = .ok (.int value, rest) := by
  rw [encodeTo]
  by_cases hsign : value ≥ 0
  · have hargument : value.toNat ≤ 0x7FFFFFFFFFFFFFFF := by omega
    have hvalue : (value.toNat : ℤ) = value := Int.toNat_of_nonneg hsign
    obtain ⟨initial, hinitial, hread⟩ :=
      decodeLevels_appendUnsigned (show 0 < 8 by omega) (show value.toNat < 18446744073709551616 by omega) levels
    rw [if_pos hsign, hread, readContents, hinitial]
    refine Reader.bind_ok.mpr ⟨(), rest, (Reader.Exact.require _ _ _ _ _).mpr ⟨hargument, rfl⟩, ?_⟩
    rw [hvalue]
    rfl
  · have hargument : (-1 - value).toNat ≤ 0x7FFFFFFFFFFFFFFF := by omega
    have hvalue : -1 - ((-1 - value).toNat : ℤ) = value := by omega
    obtain ⟨initial, hinitial, hread⟩ :=
      decodeLevels_appendUnsigned (show 1 < 8 by omega) (show (-1 - value).toNat < 18446744073709551616 by omega) levels
    rw [if_neg hsign, hread, readContents, hinitial]
    refine Reader.bind_ok.mpr ⟨(), rest, (Reader.Exact.require _ _ _ _ _).mpr ⟨hargument, rfl⟩, ?_⟩
    rw [hvalue]
    rfl

lemma decodeLevels_bool (value : Bool) (levels : ℕ) (rest : Bytes) :
    decodeLevels (levels + 1) (encodeTo (.bool value) ++ rest) = .ok (.bool value, rest) := by
  have hargument : ∀ (low : ℕ), low < 24 → readArgument low rest = .ok (low, rest) := fun low h => by
    rw [readArgument, if_pos h]
    rfl
  cases value with
  | false =>
    have hhead : readHead (0xF4 :: rest) = .ok ((0xF4, 20), rest) :=
      Reader.bind_ok.mpr ⟨0xF4, rest, Reader.u8_cons _ _ _,
        Reader.bind_ok.mpr ⟨20, rest, hargument 20 (by omega), rfl⟩⟩
    exact Reader.bind_ok.mpr ⟨_, _, hhead, rfl⟩
  | true =>
    have hhead : readHead (0xF5 :: rest) = .ok ((0xF5, 21), rest) :=
      Reader.bind_ok.mpr ⟨0xF5, rest, Reader.u8_cons _ _ _,
        Reader.bind_ok.mpr ⟨21, rest, hargument 21 (by omega), rfl⟩⟩
    exact Reader.bind_ok.mpr ⟨_, _, hhead, rfl⟩

/-- **A value is read from its bytes**, whatever comes after them. -/
theorem decodeLevels_encodeTo {value : CborValue} (hfits : Fits value) {levels : ℕ} (hlevels : leafDepth value < levels)
    (rest : Bytes) : decodeLevels levels (encodeTo value ++ rest) = .ok (value, rest) := by
  induction value using CborValue.induction generalizing levels rest with
  | int value =>
    obtain ⟨levels, rfl⟩ : ∃ n, levels = n + 1 := ⟨levels - 1, by omega⟩
    cases hfits with
    | int h => exact decodeLevels_int h levels rest
  | bytes value =>
    obtain ⟨levels, rfl⟩ : ∃ n, levels = n + 1 := ⟨levels - 1, by omega⟩
    cases hfits with
    | bytes h =>
      obtain ⟨initial, hinitial, hread⟩ := decodeLevels_appendUnsigned (show 2 < 8 by omega) h levels
      rw [encodeTo, List.append_assoc, hread, readContents, hinitial]
      exact Reader.bind_ok.mpr ⟨value, rest, (Reader.Exact.bytes _ _ _ _ _).mpr ⟨rfl, rfl⟩, rfl⟩
  | string value =>
    obtain ⟨levels, rfl⟩ : ∃ n, levels = n + 1 := ⟨levels - 1, by omega⟩
    cases hfits with
    | string h =>
      obtain ⟨initial, hinitial, hread⟩ := decodeLevels_appendUnsigned (show 3 < 8 by omega) h levels
      rw [encodeTo, List.append_assoc, hread, readContents, hinitial]
      exact Reader.bind_ok.mpr ⟨value, rest, (Reader.Exact.bytes _ _ _ _ _).mpr ⟨rfl, rfl⟩, rfl⟩
  | array value ih =>
    obtain ⟨levels, rfl⟩ : ∃ n, levels = n + 1 := ⟨levels - 1, by omega⟩
    cases hfits with
    | array h hentries =>
      obtain ⟨initial, hinitial, hread⟩ := decodeLevels_appendUnsigned (show 4 < 8 by omega) h levels
      rw [encodeTo, List.append_assoc, hread, readContents, hinitial]
      rw [leafDepth, entriesLeafDepth_lt] at hlevels
      refine Reader.bind_ok.mpr ⟨value, rest, ?_, rfl⟩
      rw [encodeEntries_eq]
      exact Reader.times_flatMap
        (fun entry hentry => ih entry hentry (hentries entry hentry) (hlevels entry hentry)) rest
  | map value ih =>
    obtain ⟨levels, rfl⟩ : ∃ n, levels = n + 1 := ⟨levels - 1, by omega⟩
    cases hfits with
    | map h hkeys hentries =>
      obtain ⟨initial, hinitial, hread⟩ := decodeLevels_appendUnsigned (show 5 < 8 by omega) h levels
      rw [encodeTo, List.append_assoc, hread, readContents, hinitial]
      rw [leafDepth, pairsLeafDepth_lt] at hlevels
      refine Reader.bind_ok.mpr ⟨value, rest, ?_, rfl⟩
      rw [encodePairs_eq]
      refine Reader.times_flatMap (fun entry hentry rest => ?_) rest
      have hkey := (ih entry hentry).1 (hkeys entry hentry) (hlevels entry hentry).1 (encodeTo entry.2 ++ rest)
      have hvalue := (ih entry hentry).2 (hentries entry hentry) (hlevels entry hentry).2 rest
      rw [List.append_assoc]
      exact Reader.bind_ok.mpr ⟨_, _, hkey, Reader.bind_ok.mpr ⟨_, _, hvalue, rfl⟩⟩
  | bool value =>
    obtain ⟨levels, rfl⟩ : ∃ n, levels = n + 1 := ⟨levels - 1, by omega⟩
    exact decodeLevels_bool value levels rest

/-! ### What is read -/

lemma local_readHead : Reader.Local readHead := by
  have hargument : ∀ low, Reader.Local (readArgument low) := fun low => by
    have hbig : ∀ count, Reader.Local (readBig count) := fun count =>
      (Reader.Local.bytes _ _).bind fun _ => Reader.Local.pure _
    unfold readArgument
    split_ifs
    · exact Reader.Local.pure _
    · exact hbig 1
    · exact hbig 2
    · exact hbig 4
    · exact hbig 8
    · exact Reader.Local.fail _
  exact (Reader.Local.u8 _).bind fun _ => (hargument _).bind fun _ => Reader.Local.pure _

lemma local_readContents {entry : Reader CborValue} (hentry : Reader.Local entry) (initial argument : ℕ) :
    Reader.Local (readContents entry initial argument) := by
  have hpair : Reader.Local (Reader.bind entry fun key => Reader.bind entry fun value => Reader.pure (key, value)) :=
    hentry.bind fun _ => hentry.bind fun _ => Reader.Local.pure _
  unfold readContents
  split
  · exact (Reader.Local.require _ _).bind fun _ => Reader.Local.pure _
  · exact (Reader.Local.require _ _).bind fun _ => Reader.Local.pure _
  · exact (Reader.Local.bytes _ _).bind fun _ => Reader.Local.pure _
  · exact (Reader.Local.bytes _ _).bind fun _ => Reader.Local.pure _
  · exact (hentry.times _).bind fun _ => Reader.Local.pure _
  · exact (hpair.times _).bind fun _ => Reader.Local.pure _
  · split_ifs
    · exact Reader.Local.pure _
    · exact Reader.Local.pure _
    · exact Reader.Local.fail _
  · exact Reader.Local.fail _

/-- The decoder looks at no more than what it takes. -/
lemma local_decodeLevels (levels : ℕ) : Reader.Local (decodeLevels levels) := by
  induction levels with
  | zero => exact Reader.Local.fail _
  | succ levels ih => exact local_readHead.bind fun _ => local_readContents ih _ _

/-- What is read after an argument is not longer when it is written again, with the argument. -/
def CoversAfter (argument : ℕ) (r : Reader CborValue) : Prop :=
  ∀ data value rest, r data = .ok (value, rest) → ∃ taken, data = taken ++ rest ∧
    ∃ major, (encodeTo value).length ≤ (appendUnsigned major argument).length + taken.length

lemma coversAfter_readContents {entry : Reader CborValue} (hentry : Reader.Covers entry encodeTo)
    (initial argument : ℕ) : CoversAfter argument (readContents entry initial argument) := by
  have hpair : Reader.Covers (Reader.bind entry fun key => Reader.bind entry fun value => Reader.pure (key, value))
      fun entry => encodeTo entry.1 ++ encodeTo entry.2 := by
    intro data pair rest h
    obtain ⟨key, middle, hkey, hthen⟩ := Reader.bind_ok.mp h
    obtain ⟨value, left, hvalue, hpure⟩ := Reader.bind_ok.mp hthen
    cases hpure
    obtain ⟨taken, rfl, hsize⟩ := hentry _ _ _ hkey
    obtain ⟨taken', rfl, hsize'⟩ := hentry _ _ _ hvalue
    refine ⟨taken ++ taken', (List.append_assoc _ _ _).symm, ?_⟩
    rw [List.length_append, List.length_append]
    exact Nat.add_le_add hsize hsize'
  unfold readContents
  split
  · intro data value rest h
    obtain ⟨_, middle, hrequire, hpure⟩ := Reader.bind_ok.mp h
    cases hpure
    obtain ⟨-, hdata⟩ := (Reader.Exact.require _ _ _ _ _).mp hrequire
    refine ⟨[], hdata, 0, ?_⟩
    rw [encodeTo, if_pos (Int.natCast_nonneg _), Int.toNat_natCast]
    exact Nat.le_add_right _ _
  · intro data value rest h
    obtain ⟨_, middle, hrequire, hpure⟩ := Reader.bind_ok.mp h
    cases hpure
    obtain ⟨-, hdata⟩ := (Reader.Exact.require _ _ _ _ _).mp hrequire
    have hargument : (-1 - (-1 - (argument : ℤ))).toNat = argument := by omega
    refine ⟨[], hdata, 1, ?_⟩
    rw [encodeTo, if_neg (by omega), hargument]
    exact Nat.le_add_right _ _
  · intro data value rest h
    obtain ⟨read, middle, hread, hpure⟩ := Reader.bind_ok.mp h
    cases hpure
    obtain ⟨hlength, hdata⟩ := (Reader.Exact.bytes _ _ _ _ _).mp hread
    refine ⟨read, hdata, 2, ?_⟩
    rw [encodeTo, List.length_append, hlength]
  · intro data value rest h
    obtain ⟨read, middle, hread, hpure⟩ := Reader.bind_ok.mp h
    cases hpure
    obtain ⟨hlength, hdata⟩ := (Reader.Exact.bytes _ _ _ _ _).mp hread
    refine ⟨read, hdata, 3, ?_⟩
    rw [encodeTo, List.length_append, hlength]
  · intro data value rest h
    obtain ⟨entries, middle, hentries, hpure⟩ := Reader.bind_ok.mp h
    cases hpure
    obtain ⟨hcovers, hlength⟩ := hentry.times argument
    obtain ⟨taken, hdata, hsize⟩ := hcovers _ _ _ hentries
    refine ⟨taken, hdata, 4, ?_⟩
    rw [encodeTo, hlength _ _ _ hentries, List.length_append, encodeEntries_eq]
    exact Nat.add_le_add_left hsize _
  · intro data value rest h
    obtain ⟨entries, middle, hentries, hpure⟩ := Reader.bind_ok.mp h
    cases hpure
    obtain ⟨hcovers, hlength⟩ := hpair.times argument
    obtain ⟨taken, hdata, hsize⟩ := hcovers _ _ _ hentries
    refine ⟨taken, hdata, 5, ?_⟩
    rw [encodeTo, hlength _ _ _ hentries, List.length_append, encodePairs_eq]
    exact Nat.add_le_add_left hsize _
  · have hone : ∀ value, (encodeTo (.bool value)).length ≤ (appendUnsigned 7 argument).length + ([] : Bytes).length :=
      fun value => by
        rw [encodeTo, length_appendUnsigned, List.length_singleton]
        omega
    split_ifs
    · rintro data value rest ⟨⟩
      exact ⟨[], rfl, 7, hone _⟩
    · rintro data value rest ⟨⟩
      exact ⟨[], rfl, 7, hone _⟩
    · rintro data value rest ⟨⟩
  · rintro data value rest ⟨⟩

/-- **What was read is not longer when it is written again.** -/
theorem covers_decodeLevels (levels : ℕ) : Reader.Covers (decodeLevels levels) encodeTo := by
  induction levels with
  | zero => exact fun _ _ _ h => by cases h
  | succ levels ih =>
    intro data value rest h
    obtain ⟨⟨initial, argument⟩, middle, hhead, hcontents⟩ := Reader.bind_ok.mp h
    obtain ⟨-, taken, rfl, hsize⟩ := readHead_ok hhead
    obtain ⟨taken', rfl, major, hsize'⟩ := coversAfter_readContents ih _ _ _ _ _ hcontents
    refine ⟨taken ++ taken', (List.append_assoc _ _ _).symm, hsize'.trans ?_⟩
    rw [List.length_append]
    exact Nat.add_le_add_right (hsize major) _

/-! ### Whole values -/

lemma cborDecode_eq {data : Bytes} {value : CborValue} :
    cborDecode data = some value ↔ decodeOne 0 data = .ok (value, []) := by
  rw [cborDecode]
  constructor
  · intro h
    rcases hread : decodeOne 0 data with fault | ⟨read, rest⟩
    · rw [hread] at h
      cases h
    · rw [hread] at h
      cases rest with
      | nil =>
        cases h
        rfl
      | cons byte rest => cases h
  · intro h
    rw [h]

/-- A value that the decoder can read, in the source's sizes. -/
structure Readable (value : CborValue) : Prop where
  fits : Fits value
  leaves : leafDepth value ≤ kMaxCborDepth

theorem decodeOne_encodeTo {value : CborValue} (h : Readable value) (rest : Bytes) :
    decodeOne 0 (encodeTo value ++ rest) = .ok (value, rest) :=
  decodeLevels_encodeTo h.fits (Nat.lt_succ_of_le h.leaves) rest

/-- **A value is read from its bytes.** -/
theorem cborDecode_cborEncode {value : CborValue} (h : Readable value) : cborDecode (cborEncode value) = some value := by
  have hread := decodeOne_encodeTo h []
  rw [List.append_nil] at hread
  exact cborDecode_eq.mpr hread

/-- Nothing longer than the bytes of a value is read. -/
theorem cborDecode_append {value : CborValue} (h : Readable value) {extra : Bytes} (hextra : extra ≠ []) :
    cborDecode (cborEncode value ++ extra) = none := by
  rw [Option.eq_none_iff_forall_ne_some]
  intro other hother
  have hread := cborDecode_eq.mp hother
  rw [cborEncode, decodeOne_encodeTo h extra] at hread
  cases hread
  exact hextra rfl

/-- No part of the bytes of a value is read. -/
theorem cborDecode_part {value : CborValue} (h : Readable value) {part extra : Bytes}
    (hpart : cborEncode value = part ++ extra) (hextra : extra ≠ []) : cborDecode part = none := by
  rw [Option.eq_none_iff_forall_ne_some]
  intro other hother
  obtain ⟨taken, htaken, hsame⟩ := local_decodeLevels _ _ _ _ (cborDecode_eq.mp hother)
  rw [List.append_nil] at htaken
  have hwhole : decodeOne 0 (part ++ extra) = .ok (other, extra) := htaken ▸ hsame extra
  have hread := decodeOne_encodeTo h []
  rw [List.append_nil, ← cborEncode, hpart, hwhole] at hread
  cases hread
  exact hextra rfl

theorem length_cborEncode_le {data : Bytes} {value : CborValue} (h : cborDecode data = some value) :
    (cborEncode value).length ≤ data.length := by
  obtain ⟨taken, htaken, hsize⟩ := covers_decodeLevels _ _ _ _ (cborDecode_eq.mp h)
  rw [htaken, List.append_nil]
  exact hsize

/-! ### The decoder as it reads -/

/-- `Reader::read`. -/
def readAt : Cursor ℕ := fun data position =>
  if position ≥ data.length then some (.error cborFault)
  else (Cursor.copy data position 1).map fun read => .ok (Reader.number read, position + 1)

/-- `Reader::readBig`. -/
def readBigAt (count : ℕ) : Cursor ℕ :=
  Cursor.bind (Cursor.bytes cborFault count) fun read => Cursor.pure (bigNumber read)

def readArgumentAt (additional : ℕ) : Cursor ℕ :=
  if additional < 24 then Cursor.pure additional
  else if additional = 24 then readBigAt 1
  else if additional = 25 then readBigAt 2
  else if additional = 26 then readBigAt 4
  else if additional = 27 then readBigAt 8
  else Cursor.fail cborFault

def readHeadAt : Cursor (ℕ × ℕ) :=
  Cursor.bind readAt fun initial =>
    Cursor.bind (readArgumentAt (initial &&& 0x1F)) fun argument => Cursor.pure (initial, argument)

def readContentsAt (entry : Cursor CborValue) (initial argument : ℕ) : Cursor CborValue :=
  match initial >>> 5 with
  | 0 => Cursor.bind (Cursor.require (argument ≤ 0x7FFFFFFFFFFFFFFF) cborFault) fun _ => Cursor.pure (.int argument)
  | 1 => Cursor.bind (Cursor.require (argument ≤ 0x7FFFFFFFFFFFFFFF) cborFault) fun _ => Cursor.pure
    (.int (-1 - argument))
  | 2 => Cursor.bind (Cursor.bytes cborFault argument) fun read => Cursor.pure (.bytes read)
  | 3 => Cursor.bind (Cursor.bytes cborFault argument) fun read => Cursor.pure (.string read)
  | 4 => Cursor.bind (Cursor.times entry argument) fun entries => Cursor.pure (.array entries)
  | 5 => Cursor.bind (Cursor.times (Cursor.bind entry fun key => Cursor.bind entry fun value => Cursor.pure (key, value))
      argument) fun entries => Cursor.pure (.map entries)
  | 7 =>
    if initial = 0xF4 then Cursor.pure (.bool false)
    else if initial = 0xF5 then Cursor.pure (.bool true)
    else Cursor.fail cborFault
  | _ => Cursor.fail cborFault

def decodeLevelsAt : ℕ → Cursor CborValue
  | 0 => Cursor.fail cborFault
  | levels + 1 =>
    Cursor.bind readHeadAt fun (initial, argument) => readContentsAt (decodeLevelsAt levels) initial argument

/-- `CborDecode` as it reads by a position. There is no outcome where a byte past the end is read. -/
def cborDecodeAt (data : Bytes) : Option (Option CborValue) :=
  (decodeLevelsAt (kMaxCborDepth + 1) data 0).map fun read =>
    match read with
    | .ok (value, position) => if position ≠ data.length then none else some value
    | .error _ => none

lemma follows_readAt : Cursor.Follows readAt (Reader.u8 cborFault) where
  looks := Reader.Local.u8 _
  run data position hposition := by
    have hrun := (Cursor.Follows.u8 cborFault).run data position hposition
    rw [← hrun, readAt, Cursor.u8, Cursor.bind, Cursor.bytes, Cursor.difference_eq hposition]
    by_cases h : position ≥ data.length
    · rw [if_pos h, if_pos (by omega)]
    · rw [if_neg h, if_neg (by omega), Cursor.copy, if_pos (by omega)]
      rfl

lemma follows_readHeadAt : Cursor.Follows readHeadAt readHead := by
  have hbig : ∀ count, Cursor.Follows (readBigAt count) (readBig count) := fun count =>
    (Cursor.Follows.bytes _ _).bind fun _ => Cursor.Follows.pure _
  have hargument : ∀ low, Cursor.Follows (readArgumentAt low) (readArgument low) := fun low => by
    unfold readArgumentAt readArgument
    split_ifs
    · exact Cursor.Follows.pure _
    · exact hbig 1
    · exact hbig 2
    · exact hbig 4
    · exact hbig 8
    · exact Cursor.Follows.fail _
  exact follows_readAt.bind fun _ => (hargument _).bind fun _ => Cursor.Follows.pure _

lemma follows_readContentsAt {entryAt : Cursor CborValue} {entry : Reader CborValue}
    (hentry : Cursor.Follows entryAt entry) (initial argument : ℕ) :
    Cursor.Follows (readContentsAt entryAt initial argument) (readContents entry initial argument) := by
  have hpair := hentry.bind fun key => hentry.bind fun value => Cursor.Follows.pure (key, value)
  unfold readContentsAt readContents
  split
  · exact (Cursor.Follows.require _ _).bind fun _ => Cursor.Follows.pure _
  · exact (Cursor.Follows.require _ _).bind fun _ => Cursor.Follows.pure _
  · exact (Cursor.Follows.bytes _ _).bind fun _ => Cursor.Follows.pure _
  · exact (Cursor.Follows.bytes _ _).bind fun _ => Cursor.Follows.pure _
  · exact (hentry.times _).bind fun _ => Cursor.Follows.pure _
  · exact (hpair.times _).bind fun _ => Cursor.Follows.pure _
  · split_ifs
    · exact Cursor.Follows.pure _
    · exact Cursor.Follows.pure _
    · exact Cursor.Follows.fail _
  · exact Cursor.Follows.fail _

lemma follows_decodeLevelsAt (levels : ℕ) : Cursor.Follows (decodeLevelsAt levels) (decodeLevels levels) := by
  induction levels with
  | zero => exact Cursor.Follows.fail _
  | succ levels ih => exact follows_readHeadAt.bind fun _ => follows_readContentsAt ih _ _

/-- **No read passes the end of the data**, and the decoder that reads by a position has the decoder's outcome. -/
theorem cborDecodeAt_eq (data : Bytes) : cborDecodeAt data = some (cborDecode data) := by
  rw [cborDecodeAt, (follows_decodeLevelsAt _).outcome data, cborDecode, decodeOne, Nat.sub_zero]
  rcases hread : decodeLevels (kMaxCborDepth + 1) data with fault | ⟨value, rest⟩
  · rfl
  · obtain ⟨taken, hdata, -⟩ := local_decodeLevels _ _ _ _ hread
    have hlength : data.length = taken.length + rest.length := by rw [hdata, List.length_append]
    cases rest with
    | nil =>
      refine congrArg some (if_neg ?_)
      exact not_not.mpr (Nat.sub_zero _)
    | cons byte rest =>
      refine congrArg some (if_pos ?_)
      rw [List.length_cons] at hlength ⊢
      omega

end Passkey
