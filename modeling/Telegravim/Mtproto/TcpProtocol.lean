import Mathlib.Data.List.TakeDrop
import Mathlib.Tactic.NormNum
import Telegravim.Foundation.Framing
import Telegravim.Foundation.Slices

set_option autoImplicit false

/-!
# Packets over TCP

A packet is a number of 32-bit integers, and its length goes before it. The protocol has three versions, which a
connection chooses by the secret of its proxy. In the first two the length is one byte, or four for long packets;
in the third it is always four, and random bytes fill the packet up.

A buffer to be sent has two integers in front, which leave place for the length.

## Main definitions

* `Tcp.Version` — the versions of the protocol.
* `Tcp.finalizePacket` — a buffer with its length.
* `Tcp.readPacketLength`, `Tcp.readPacket` — how a packet is read.
* `Tcp.framing` — a stream of packets.
* `Tcp.Fits` — what a length has place for.

## Main results

* `Tcp.finalizePacket_eq` — the bytes that are sent.
* `Tcp.readPacket_finalizePacket_iff` — a packet that is sent is read as it was, exactly if its length fits.
-/

namespace Tcp

open Framing (Length)
open Slices

/-! ### Numbers as bytes -/

/-- The lowest bytes of a number, the lowest one first. -/
def littleEndian : ℕ → ℕ → List UInt8
  | 0, _ => []
  | count + 1, value => UInt8.ofNat value :: littleEndian count (value / 256)

def ofLittleEndian : List UInt8 → ℕ
  | [] => 0
  | byte :: rest => byte.toNat + 256 * ofLittleEndian rest

@[simp] lemma length_littleEndian (count value : ℕ) : (littleEndian count value).length = count := by
  induction count generalizing value with
  | zero => rfl
  | succ count ih => rw [littleEndian, List.length_cons, ih]

lemma ofLittleEndian_littleEndian (count value : ℕ) :
    ofLittleEndian (littleEndian count value) = value % 256 ^ count := by
  induction count generalizing value with
  | zero => rw [littleEndian, ofLittleEndian, Nat.pow_zero, Nat.mod_one]
  | succ count ih =>
    have hbyte : (UInt8.ofNat value).toNat = value % 256 := UInt8.toNat_ofNat'
    rw [littleEndian, ofLittleEndian, ih, hbyte, Nat.pow_succ, Nat.mul_comm (256 ^ count), Nat.mod_mul]

/-- The bytes of a buffer of integers. -/
def bytesOf (buffer : List UInt32) : List UInt8 := buffer.flatMap fun prime => littleEndian 4 prime.toNat

lemma bytesOf_cons (prime : UInt32) (buffer : List UInt32) :
    bytesOf (prime :: buffer) = littleEndian 4 prime.toNat ++ bytesOf buffer := List.flatMap_cons

lemma bytesOf_append (buffer more : List UInt32) : bytesOf (buffer ++ more) = bytesOf buffer ++ bytesOf more :=
  List.flatMap_append

@[simp] lemma length_bytesOf (buffer : List UInt32) : (bytesOf buffer).length = 4 * buffer.length := by
  induction buffer with
  | nil => rfl
  | cons prime buffer ih =>
    rw [bytesOf_cons, List.length_append, length_littleEndian, ih, List.length_cons]
    omega

/-- The whole integers at the start of some bytes. -/
def primesOf : List UInt8 → List UInt32
  | b0 :: b1 :: b2 :: b3 :: rest => UInt32.ofNat (ofLittleEndian [b0, b1, b2, b3]) :: primesOf rest
  | _ => []

/-! ### The versions -/

inductive Version where
  | version0
  | version1
  | versionD
  deriving DecidableEq

def kPacketSizeMax : ℕ := 0x01000000 * 4

/-- `Version0::finalizePacket`; `Version1` has the same. -/
def Version0.finalizePacket (buffer : List UInt32) : Option (List UInt8) :=
  if ¬ (2 < buffer.length ∧ buffer.length < 0x1000003) then none
  else
    let intsSize := buffer.length - 2
    let bytesSize := intsSize * 4
    if intsSize < 0x7F then
      some (slice (overwrite (bytesOf buffer) 7 [UInt8.ofNat intsSize]) (8 - 1) (1 + bytesSize))
    else some (slice (overwrite (bytesOf buffer) 4 (0x7F :: littleEndian 3 intsSize)) (8 - 4) (4 + bytesSize))

def Version0.readPacketLength (bytes : List UInt8) : Length :=
  match bytes with
  | [] => .unknown
  | first :: rest =>
    if first.toNat = 0x7F then
      if bytes.length < 4 then .unknown
      else if 0x7F ≤ ofLittleEndian (rest.take 3) then .size (ofLittleEndian (rest.take 3) * 4 + 4)
      else .invalid
    else if 0 < first.toNat ∧ first.toNat < 0x7F then .size (first.toNat * 4 + 1)
    else .invalid

/-- `VersionD::finalizePacket`; the random numbers are drawn one after another. -/
def VersionD.finalizePacket (random : ℕ → UInt32) (buffer : List UInt32) : Option (List UInt8) :=
  if ¬ (2 < buffer.length ∧ buffer.length < 0x1000003) then none
  else
    let intsSize := buffer.length - 2
    let padding := (random 0).toNat % 16
    let bytesSize := intsSize * 4 + padding
    let buffer := buffer.set 1 (UInt32.ofNat bytesSize) ++
      (List.range ((padding + 3) / 4)).map fun index => random (index + 1)
    some (slice (bytesOf buffer) 4 (4 + bytesSize))

def VersionD.readPacketLength (bytes : List UInt8) : Length :=
  if bytes.length < 4 then .unknown
  else
    let value := (ofLittleEndian (bytes.take 4) + 4) % 4294967296
    if 8 ≤ value ∧ value < kPacketSizeMax then .size value else .invalid

def finalizePacket (version : Version) (random : ℕ → UInt32) (buffer : List UInt32) : Option (List UInt8) :=
  match version with
  | .version0 | .version1 => Version0.finalizePacket buffer
  | .versionD => VersionD.finalizePacket random buffer

def readPacketLength (version : Version) (bytes : List UInt8) : Length :=
  match version with
  | .version0 | .version1 => Version0.readPacketLength bytes
  | .versionD => VersionD.readPacketLength bytes

/-- How many bytes of a packet are its length. -/
def sizeLength (version : Version) (bytes : List UInt8) : ℕ :=
  match version with
  | .version0 | .version1 => if bytes.head? = some 0x7F then 4 else 1
  | .versionD => 4

/-- **`readPacket`**: a packet without its length; `none` where the assertion fails. -/
def readPacket (version : Version) (bytes : List UInt8) : Option (List UInt8) :=
  match readPacketLength version bytes with
  | .size size =>
    if size ≤ bytes.length then
      some (slice bytes (sizeLength version bytes) (size - sizeLength version bytes))
    else none
  | _ => none

/-! ### Lengths -/

/-- A length that is not known yet takes more than the bytes there are. -/
lemma length_lt_of_unknown {version : Version} {bytes : List UInt8}
    (h : readPacketLength version bytes = .unknown) : bytes.length < 4 := by
  have hzero : Version0.readPacketLength bytes = .unknown → bytes.length < 4 := by
    rcases bytes with _ | ⟨first, rest⟩
    · simp
    · rw [Version0.readPacketLength]
      split_ifs <;> simp_all
  have hd : VersionD.readPacketLength bytes = .unknown → bytes.length < 4 := by
    rw [VersionD.readPacketLength]
    dsimp only
    split_ifs <;> simp_all
  cases version with
  | version0 => exact hzero h
  | version1 => exact hzero h
  | versionD => exact hd h

lemma Version0.readPacketLength_append (bytes more : List UInt8) (h : Version0.readPacketLength bytes ≠ .unknown) :
    Version0.readPacketLength (bytes ++ more) = Version0.readPacketLength bytes := by
  rcases bytes with _ | ⟨first, rest⟩
  · exact absurd rfl h
  · rw [Version0.readPacketLength] at h
    rw [List.cons_append, Version0.readPacketLength, Version0.readPacketLength]
    by_cases hlong : first.toNat = 0x7F
    · rw [if_pos hlong] at h
      rw [if_pos hlong, if_pos hlong]
      by_cases hshort : (first :: rest).length < 4
      · rw [if_pos hshort] at h
        exact absurd rfl h
      · have hrest : 3 ≤ rest.length := by
          rw [List.length_cons] at hshort
          omega
        rw [if_neg hshort, if_neg (by rw [List.length_cons, List.length_append]; omega),
          List.take_append_of_le_length hrest]
    · rw [if_neg hlong, if_neg hlong]

lemma VersionD.readPacketLength_append (bytes more : List UInt8) (h : VersionD.readPacketLength bytes ≠ .unknown) :
    VersionD.readPacketLength (bytes ++ more) = VersionD.readPacketLength bytes := by
  have hlong : ¬ bytes.length < 4 := by
    intro hshort
    rw [VersionD.readPacketLength, if_pos hshort] at h
    exact h rfl
  rw [VersionD.readPacketLength, VersionD.readPacketLength, if_neg hlong,
    if_neg (by rw [List.length_append]; omega), List.take_append_of_le_length (by omega)]

/-- A packet has at least one integer behind its length. -/
lemma sizeLength_le {version : Version} {bytes : List UInt8} {size : ℕ}
    (h : readPacketLength version bytes = .size size) : sizeLength version bytes + 4 ≤ size := by
  have hzero : Version0.readPacketLength bytes = .size size →
      (if bytes.head? = some 0x7F then 4 else 1) + 4 ≤ size := by
    rcases bytes with _ | ⟨first, rest⟩
    · intro h
      cases h
    · rw [Version0.readPacketLength, List.head?_cons]
      intro h
      by_cases hlong : first.toNat = 0x7F
      · rw [if_pos hlong] at h
        rw [if_pos (congrArg some (UInt8.toNat_inj.mp hlong))]
        split_ifs at h
        obtain rfl := Length.size.inj h
        omega
      · rw [if_neg hlong] at h
        rw [if_neg fun hfirst => hlong (by rw [Option.some.inj hfirst]; rfl)]
        split_ifs at h
        obtain rfl := Length.size.inj h
        omega
  cases version with
  | version0 => exact hzero h
  | version1 => exact hzero h
  | versionD =>
    rw [readPacketLength, VersionD.readPacketLength] at h
    dsimp only at h
    split_ifs at h
    obtain rfl := Length.size.inj h
    rw [sizeLength]
    omega

/-- **A stream of packets.** -/
def framing (version : Version) : Framing UInt8 where
  length := readPacketLength version
  stable bytes more h := by
    cases version with
    | version0 => exact Version0.readPacketLength_append bytes more h
    | version1 => exact Version0.readPacketLength_append bytes more h
    | versionD => exact VersionD.readPacketLength_append bytes more h
  pos bytes count h := by
    have hsize := sizeLength_le h
    omega

@[simp] lemma framing_length (version : Version) : (framing version).length = readPacketLength version := rfl

/-- The length is read from the packet alone. -/
lemma readPacketLength_take {version : Version} {bytes : List UInt8} {size : ℕ}
    (h : readPacketLength version bytes = .size size) (hwhole : size ≤ bytes.length) :
    readPacketLength version (bytes.take size) = .size size := by
  have hknown : readPacketLength version (bytes.take size) ≠ .unknown := by
    intro hunknown
    have hshort := length_lt_of_unknown hunknown
    have hsize := sizeLength_le h
    rw [List.length_take] at hshort
    omega
  have hstable : readPacketLength version (bytes.take size ++ bytes.drop size) =
      readPacketLength version (bytes.take size) :=
    (framing version).stable (bytes.take size) (bytes.drop size) hknown
  rw [List.take_append_drop, h] at hstable
  exact hstable.symm

/-! ### A packet that is sent -/

/-- The bytes that go before the integers of a packet. -/
def lengthBytes (version : Version) (random : ℕ → UInt32) (ints : ℕ) : List UInt8 :=
  match version with
  | .version0 | .version1 => if ints < 0x7F then [UInt8.ofNat ints] else 0x7F :: littleEndian 3 ints
  | .versionD => littleEndian 4 (ints * 4 + (random 0).toNat % 16)

/-- The random bytes that go behind the integers of a packet. -/
def paddingBytes (version : Version) (random : ℕ → UInt32) : List UInt8 :=
  match version with
  | .version0 | .version1 => []
  | .versionD =>
    (bytesOf ((List.range (((random 0).toNat % 16 + 3) / 4)).map fun index => random (index + 1))).take
      ((random 0).toNat % 16)

lemma length_paddingBytes (version : Version) (random : ℕ → UInt32) :
    (paddingBytes version random).length = if version = .versionD then (random 0).toNat % 16 else 0 := by
  cases version with
  | version0 => rfl
  | version1 => rfl
  | versionD =>
    rw [paddingBytes, List.length_take, length_bytesOf, List.length_map, List.length_range, if_pos rfl]
    omega

/-- A header that is written over the place left for it stands before the integers. -/
lemma slice_overwrite_header {header : List UInt8} {place : ℕ} (hheader : place + header.length = 8)
    (first second : UInt32) (ints : List UInt32) :
    slice (overwrite (bytesOf (first :: second :: ints)) place header) place (header.length + ints.length * 4) =
      header ++ bytesOf ints := by
  have hlength : (bytesOf (first :: second :: ints)).length = 8 + ints.length * 4 := by
    rw [length_bytesOf, List.length_cons, List.length_cons]
    omega
  have hdrop : (bytesOf (first :: second :: ints)).drop 8 = bytesOf ints := by
    rw [bytesOf_cons, bytesOf_cons, ← List.append_assoc]
    exact List.drop_left' (by rw [List.length_append, length_littleEndian, length_littleEndian])
  have hplace : place + header.length ≤ (bytesOf (first :: second :: ints)).length := by omega
  rw [slice_append, slice_overwrite_self hplace, slice_overwrite_of_disjoint hplace (Or.inr (Nat.le_refl _)),
    hheader, slice, hdrop]
  congr 1
  exact List.take_of_length_le (by rw [length_bytesOf]; omega)

/-- A buffer that is accepted has two integers in front of those that are sent. -/
lemma exists_of_accepted {buffer : List UInt32} (h : 2 < buffer.length) :
    ∃ first second ints, buffer = first :: second :: ints := by
  rcases buffer with _ | ⟨first, _ | ⟨second, ints⟩⟩
  · simp at h
  · simp at h
  · exact ⟨first, second, ints, rfl⟩

lemma Version0.finalizePacket_eq {buffer : List UInt32} {packet : List UInt8} (random : ℕ → UInt32)
    (h : Version0.finalizePacket buffer = some packet) :
    (2 < buffer.length ∧ buffer.length < 0x1000003) ∧
      packet = lengthBytes .version0 random (buffer.length - 2) ++ bytesOf (buffer.drop 2) := by
  rw [Version0.finalizePacket] at h
  by_cases hsize : 2 < buffer.length ∧ buffer.length < 0x1000003
  · rw [if_neg (not_not.mpr hsize)] at h
    refine ⟨hsize, ?_⟩
    obtain ⟨first, second, ints, rfl⟩ := exists_of_accepted hsize.1
    have hints : (first :: second :: ints).length - 2 = ints.length := by
      rw [List.length_cons, List.length_cons]
      omega
    dsimp only at h
    rw [hints] at h
    rw [hints, lengthBytes, List.drop_succ_cons, List.drop_succ_cons, List.drop_zero]
    by_cases hshort : ints.length < 0x7F
    · rw [if_pos hshort, Option.some.injEq] at h
      rw [if_pos hshort, ← h]
      exact slice_overwrite_header rfl first second ints
    · rw [if_neg hshort, Option.some.injEq] at h
      rw [if_neg hshort, ← h]
      have hheader : (0x7F :: littleEndian 3 ints.length).length = 4 := by
        rw [List.length_cons, length_littleEndian]
      have hplace : 4 + (0x7F :: littleEndian 3 ints.length).length = 8 := by rw [hheader]
      have hslice := slice_overwrite_header hplace first second ints
      rw [hheader] at hslice
      exact hslice
  · rw [if_pos hsize] at h
    cases h

lemma VersionD.finalizePacket_eq {buffer : List UInt32} {packet : List UInt8} {random : ℕ → UInt32}
    (h : VersionD.finalizePacket random buffer = some packet) :
    (2 < buffer.length ∧ buffer.length < 0x1000003) ∧
      packet = lengthBytes .versionD random (buffer.length - 2) ++ bytesOf (buffer.drop 2) ++
        paddingBytes .versionD random := by
  rw [VersionD.finalizePacket] at h
  by_cases hsize : 2 < buffer.length ∧ buffer.length < 0x1000003
  · rw [if_neg (not_not.mpr hsize)] at h
    refine ⟨hsize, ?_⟩
    obtain ⟨first, second, ints, rfl⟩ := exists_of_accepted hsize.1
    have hints : (first :: second :: ints).length - 2 = ints.length := by
      rw [List.length_cons, List.length_cons]
      omega
    have hlong : ints.length < 0x1000001 := by
      have hbound := hsize.2
      rw [List.length_cons, List.length_cons] at hbound
      omega
    dsimp only at h
    rw [hints, Option.some.injEq, List.set_cons_succ, List.set_cons_zero, List.cons_append, List.cons_append,
      bytesOf_cons, bytesOf_cons, bytesOf_append, slice] at h
    rw [hints, List.drop_succ_cons, List.drop_succ_cons, List.drop_zero, ← h, lengthBytes, paddingBytes]
    set padding := (random 0).toNat % 16 with hpadding
    have hword : (UInt32.ofNat (ints.length * 4 + padding)).toNat = ints.length * 4 + padding := by
      rw [UInt32.toNat_ofNat', Nat.mod_eq_of_lt]
      omega
    have hlength := length_littleEndian 4 (ints.length * 4 + padding)
    have hbytes := length_bytesOf ints
    rw [List.drop_left' (length_littleEndian 4 _), hword, List.take_append, List.take_append,
      List.take_of_length_le (by omega), List.take_of_length_le (by omega), hlength, hbytes, List.append_assoc]
    congr 3
    omega
  · rw [if_pos hsize] at h
    cases h

/-- **The bytes that are sent**: the length, the integers and what fills them up. -/
theorem finalizePacket_eq {version : Version} {random : ℕ → UInt32} {buffer : List UInt32} {packet : List UInt8}
    (h : finalizePacket version random buffer = some packet) :
    (2 < buffer.length ∧ buffer.length < 0x1000003) ∧
      packet = lengthBytes version random (buffer.length - 2) ++ bytesOf (buffer.drop 2) ++
        paddingBytes version random := by
  cases version with
  | version0 =>
    rw [paddingBytes, List.append_nil]
    exact Version0.finalizePacket_eq random h
  | version1 =>
    rw [paddingBytes, List.append_nil]
    exact Version0.finalizePacket_eq random h
  | versionD => exact VersionD.finalizePacket_eq h

/-! ### What is read back -/

/-- **What a length has place for**: three bytes for the number of integers in the first two versions, and a packet
below the largest one in the third. -/
def Fits (version : Version) (random : ℕ → UInt32) (ints : ℕ) : Prop :=
  match version with
  | .version0 | .version1 => ints < 0x1000000
  | .versionD => ints * 4 + (random 0).toNat % 16 + 4 < kPacketSizeMax

/-- A packet that is sent is read as it was: its integers, with at most fifteen bytes behind them in the third
version, and nothing in the others. -/
def ReadBack (version : Version) (buffer : List UInt32) (packet : List UInt8) : Prop :=
  ∃ padding, readPacket version packet = some (bytesOf (buffer.drop 2) ++ padding) ∧
    padding.length ≤ 15 ∧ (version ≠ .versionD → padding = [])

/-- The length of a packet that is sent is read as it is where it fits. -/
lemma readPacketLength_of_fits {version : Version} {random : ℕ → UInt32} {ints : ℕ} (hints : 0 < ints)
    (hfits : Fits version random ints) (content : List UInt8) :
    readPacketLength version (lengthBytes version random ints ++ content) =
      .size ((lengthBytes version random ints).length + ints * 4 +
        if version = .versionD then (random 0).toNat % 16 else 0) := by
  have hzero : ints < 0x1000000 → Version0.readPacketLength (lengthBytes .version0 random ints ++ content) =
      .size ((lengthBytes .version0 random ints).length + ints * 4) := by
    intro hfits
    rw [lengthBytes]
    by_cases hshort : ints < 0x7F
    · have hfirst : (UInt8.ofNat ints).toNat = ints := by
        rw [UInt8.toNat_ofNat', Nat.mod_eq_of_lt (by omega)]
      rw [if_pos hshort, List.singleton_append, Version0.readPacketLength, hfirst, if_neg (by omega),
        if_pos ⟨hints, hshort⟩, List.length_singleton, Nat.add_comm]
    · have htake : (littleEndian 3 ints ++ content).take 3 = littleEndian 3 ints :=
        List.take_left' (length_littleEndian 3 ints)
      have hvalue : ofLittleEndian (littleEndian 3 ints) = ints := by
        rw [ofLittleEndian_littleEndian, Nat.mod_eq_of_lt (by norm_num; omega)]
      rw [if_neg hshort, List.cons_append, Version0.readPacketLength,
        if_pos (show (0x7F : UInt8).toNat = 0x7F from rfl), if_neg, htake, hvalue,
        if_pos (by omega), List.length_cons, length_littleEndian, Nat.add_comm]
      rw [List.length_cons, List.length_append, length_littleEndian]
      omega
  cases version with
  | version0 => exact hzero hfits
  | version1 => exact hzero hfits
  | versionD =>
    have htake : (littleEndian 4 (ints * 4 + (random 0).toNat % 16) ++ content).take 4 =
        littleEndian 4 (ints * 4 + (random 0).toNat % 16) := List.take_left' (length_littleEndian 4 _)
    have hlimit : ints * 4 + (random 0).toNat % 16 + 4 < 0x01000000 * 4 := hfits
    have hvalue : ofLittleEndian (littleEndian 4 (ints * 4 + (random 0).toNat % 16)) =
        ints * 4 + (random 0).toNat % 16 := by
      rw [ofLittleEndian_littleEndian, Nat.mod_eq_of_lt (by norm_num; omega)]
    rw [readPacketLength, VersionD.readPacketLength, if_neg, lengthBytes, htake, hvalue]
    · dsimp only
      rw [Nat.mod_eq_of_lt (by omega), if_pos ⟨by omega, hfits⟩, length_littleEndian, if_pos rfl]
      congr 1
      omega
    · rw [List.length_append, lengthBytes, length_littleEndian]
      omega

/-- The length of a packet that is too long is read as a wrong one. -/
lemma readPacketLength_of_not_fits {version : Version} {random : ℕ → UInt32} {ints : ℕ} (hints : ints ≤ 0x1000000)
    (hfits : ¬ Fits version random ints) (content : List UInt8) :
    readPacketLength version (lengthBytes version random ints ++ content) = .invalid := by
  have hzero : ¬ ints < 0x1000000 →
      Version0.readPacketLength (lengthBytes .version0 random ints ++ content) = .invalid := by
    intro hlong
    obtain rfl : ints = 0x1000000 := by omega
    rw [lengthBytes, if_neg (by omega), List.cons_append, Version0.readPacketLength,
        if_pos (show (0x7F : UInt8).toNat = 0x7F from rfl), if_neg,
      List.take_left' (length_littleEndian 3 _), ofLittleEndian_littleEndian, if_neg (by norm_num)]
    rw [List.length_cons, List.length_append, length_littleEndian]
    omega
  cases version with
  | version0 => exact hzero hfits
  | version1 => exact hzero hfits
  | versionD =>
    have hlimit : ¬ ints * 4 + (random 0).toNat % 16 + 4 < kPacketSizeMax := hfits
    have hvalue : ofLittleEndian (littleEndian 4 (ints * 4 + (random 0).toNat % 16)) =
        ints * 4 + (random 0).toNat % 16 := by
      rw [ofLittleEndian_littleEndian, Nat.mod_eq_of_lt (by norm_num; omega)]
    rw [readPacketLength, VersionD.readPacketLength, if_neg, lengthBytes,
      List.take_left' (length_littleEndian 4 _), hvalue]
    · dsimp only
      rw [Nat.mod_eq_of_lt (by omega), if_neg fun h => hlimit h.2]
    · rw [List.length_append, lengthBytes, length_littleEndian]
      omega

/-- The length of a packet that is sent is as long as its first byte tells. -/
lemma sizeLength_lengthBytes {version : Version} {random : ℕ → UInt32} {ints : ℕ} (content : List UInt8) :
    sizeLength version (lengthBytes version random ints ++ content) = (lengthBytes version random ints).length := by
  have hzero : (if (lengthBytes .version0 random ints ++ content).head? = some 0x7F then 4 else 1) =
      (lengthBytes .version0 random ints).length := by
    rw [lengthBytes]
    by_cases hshort : ints < 0x7F
    · rw [if_pos hshort, List.singleton_append, List.head?_cons, if_neg, List.length_singleton]
      intro hfirst
      have hvalue := congrArg UInt8.toNat (Option.some.inj hfirst)
      rw [UInt8.toNat_ofNat', Nat.mod_eq_of_lt (by omega)] at hvalue
      rw [hvalue] at hshort
      exact absurd hshort (by decide)
    · rw [if_neg hshort, List.cons_append, List.head?_cons, if_pos rfl, List.length_cons, length_littleEndian]
  cases version with
  | version0 => exact hzero
  | version1 => exact hzero
  | versionD => rw [sizeLength, lengthBytes, length_littleEndian]

/-- **A packet that is sent is read as it was, exactly if its length fits.** -/
theorem readPacket_finalizePacket_iff {version : Version} {random : ℕ → UInt32} {buffer : List UInt32}
    {packet : List UInt8} (h : finalizePacket version random buffer = some packet) :
    ReadBack version buffer packet ↔ Fits version random (buffer.length - 2) := by
  obtain ⟨hsize, rfl⟩ := finalizePacket_eq h
  rw [List.append_assoc]
  set content := bytesOf (buffer.drop 2) ++ paddingBytes version random with hcontent
  have hlength : content.length = (buffer.length - 2) * 4 +
      if version = .versionD then (random 0).toNat % 16 else 0 := by
    rw [hcontent, List.length_append, length_bytesOf, List.length_drop, length_paddingBytes, Nat.mul_comm]
  constructor
  · rintro ⟨padding, hread, -⟩
    by_contra hfits
    rw [readPacket, readPacketLength_of_not_fits (by omega) hfits] at hread
    cases hread
  · intro hfits
    refine ⟨paddingBytes version random, ?_, ?_, ?_⟩
    · rw [readPacket, readPacketLength_of_fits (by omega) hfits]
      dsimp only
      rw [if_pos (by rw [List.length_append, hlength]; omega), sizeLength_lengthBytes, slice,
        List.drop_left, List.take_of_length_le (by rw [hlength]; omega)]
    · rw [length_paddingBytes]
      split_ifs <;> omega
    · intro hversion
      have hnone := length_paddingBytes version random
      rw [if_neg hversion] at hnone
      exact List.length_eq_zero_iff.mp hnone

end Tcp
