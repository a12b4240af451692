import Telegravim.Foundation.Grouping
import Telegravim.Foundation.Positional

set_option autoImplicit false

/-!
# The slices of a streamed file in the cache

The reader of a streamed file keeps the parts it has by slices of 64 parts, with a header aside for the parts that are
asked for first. A slice goes to the cache as the bytes of its parts where these follow one another, and as a counted
list of parts otherwise; a good header is written with the first slice behind it. Nothing in the bytes says which it
is: the length does, and a list gets zeros behind it until its length is none of continuous data.

Sizes of files and offsets are numbers below `2 ^ 32`; an array of bytes is shorter than `2 ^ 31`.

## Main definitions

* `Streaming.parseCacheEntry` — the parts that are read from the cache.
* `Streaming.Slices.serializeAndUnloadSlice` — the bytes of a slice for the cache.
* `Streaming.Slices.Sound` — aligned parts of the file, and a header as it is collected.

## Main results

* `Streaming.padded_spec` — two zeros are enough.
* `Streaming.slice_survives_cache` — the parts of a slice come back from the cache.
-/

namespace Streaming

open Positional

/-- The parts that are loaded, by their offsets. -/
abbrev PartsMap := OrdMap ℕ Bytes

def kPartSize : ℕ := 131072

def kInSlice : ℕ := 8388608

def kMaxPartsInHeader : ℕ := 64

def kMaxOnlyInHeader : ℕ := 10485760

def kPartsOutsideFirstSliceGood : ℕ := 8

example : kInSlice = 64 * kPartSize ∧ kMaxOnlyInHeader = 80 * kPartSize := by decide

/-- What an `int` makes of a number of 32 bits. -/
def int (value : ℕ) : ℤ := Int.bmod value 4294967296

/-- What an unsigned number of 32 bits makes of an `int`. -/
def uint32 (value : ℤ) : ℕ := (value % 4294967296).toNat

/-! ### Reading -/

def isContiguousSerialization (serializedSize maxSliceSize : ℤ) : Bool :=
  serializedSize % kPartSize = 0 || serializedSize = maxSliceSize

def isFullInHeader (size : ℕ) : Bool := size ≤ kMaxOnlyInHeader

def computeIsGoodHeader (size : ℕ) (header : PartsMap) : Bool :=
  !isFullInHeader size &&
    (header.entries.filter fun e => kInSlice ≤ e.1).length ≤ kPartsOutsideFirstSliceGood

/-- The number of slices, where the sum is one of 32 bits. -/
def slicesCount (size : ℕ) : ℕ := (size + kInSlice - 1) % 4294967296 / kInSlice

def maxSliceSize (sliceNumber size : ℕ) : ℤ :=
  if sliceNumber = 0 then int size
  else if sliceNumber = slicesCount size then int (size - (sliceNumber - 1) * kInSlice)
  else int kInSlice

def takeInt (data : Bytes) : Option ℕ × Bytes :=
  if data.length < 4 then (none, data) else (some (ofLittleEndian (data.take 4)), data.drop 4)

def takeBytes (count : ℤ) (data : Bytes) : Bytes × Bytes :=
  if count ≤ 0 ∨ data.length < count then ([], data) else (data.take count.toNat, data.drop count.toNat)

/-- The loop over a counted list of parts. A part that does not fit ends it, and nothing is left of the data. -/
def parseParts (maxSize : ℤ) : ℕ → PartsMap → Bytes → PartsMap × Bytes
  | 0, result, data => (result, data)
  | count + 1, result, data =>
    let offset := (takeInt data).1.getD 0
    let data := (takeInt data).2
    let size := (takeInt data).1.getD 0
    let data := (takeInt data).2
    let bytes := takeBytes (int size) data
    if uint32 maxSize ≤ offset ∨ size = 0 ∨ uint32 maxSize < size ∨
        uint32 maxSize < (offset + size) % 4294967296 ∨ bytes.1.length ≠ size then (result, [])
    else parseParts maxSize count (result.emplace offset bytes.1) bytes.2

def parseComplexCachedMap (result : PartsMap) (data : Bytes) (maxSize : ℤ) : PartsMap × Bytes :=
  match takeInt data with
  | (none, _) => (result, [])
  | (some count, data) =>
    if count = 0 ∨ kMaxOnlyInHeader / kPartSize < count then (result, data)
    else parseParts maxSize count result data

/-- The loop over continuous data; the number bounds its rounds. -/
def contiguousParts : ℕ → ℕ → PartsMap → Bytes → PartsMap
  | 0, _, result, _ => result
  | rounds + 1, offset, result, data =>
    if data = [] then result
    else contiguousParts rounds (offset + kPartSize) (result.emplace offset (data.take kPartSize))
      (data.drop kPartSize)

def parseCachedMap (result : PartsMap) (data : Bytes) (maxSize : ℤ) : PartsMap × Bytes :=
  if isContiguousSerialization data.length maxSize then
    if maxSize < data.length then (result, []) else (contiguousParts data.length 0 result data, [])
  else parseComplexCachedMap result data maxSize

structure ParsedCacheEntry where
  parts : PartsMap
  included : Option PartsMap
deriving DecidableEq

def parseCacheEntry (data : Bytes) (sliceNumber size : ℕ) : ParsedCacheEntry :=
  let parsed := parseCachedMap ∅ data (maxSliceSize sliceNumber size)
  { parts := parsed.1
    included :=
      if sliceNumber = 0 ∧ computeIsGoodHeader size parsed.1 then
        some (parseCachedMap ∅ parsed.2 (maxSliceSize 1 size)).1
      else none }

/-! ### Writing -/

/-- Where the data from an offset on that has no gaps ends. -/
def findNotLoadedStart : List (ℕ × Bytes) → ℕ → ℕ
  | [], result => result
  | part :: parts, result =>
    if part.1 ≤ result ∧ result ≤ part.1 + part.2.length then
      findNotLoadedStart parts ((part.1 + part.2.length) % 4294967296)
    else result

def serializeParts (parts : List (ℕ × Bytes)) : Bytes :=
  parts.flatMap fun e => littleEndian 4 e.1 ++ (littleEndian 4 e.2.length ++ e.2)

def serializeComplexPartsMap (parts : PartsMap) : Bytes :=
  littleEndian 4 parts.entries.length ++ serializeParts parts.entries

structure Slice where
  parts : PartsMap := ∅
  loadingFromCache : Bool := false
  loadedFromCache : Bool := false
  changedSinceCache : Bool := false
  fullInCache : Bool := false

inductive HeaderMode
  | unknown
  | small
  | good
  | full
  | noCache
deriving DecidableEq

structure Slices where
  data : List Slice
  header : Slice
  size : ℕ
  headerMode : HeaderMode

structure SerializedSlice where
  number : ℕ
  data : Bytes
deriving DecidableEq

/-- Zeros until the length is none of continuous data; the number bounds the rounds. -/
def padded (maxSize : ℤ) : ℕ → Bytes → Option Bytes
  | 0, _ => none
  | rounds + 1, data =>
    if isContiguousSerialization data.length maxSize then padded maxSize rounds (data ++ [0]) else some data

def unloadSlice (slice : Slice) : Slice := { fullInCache := slice.fullInCache }

namespace Slices

variable (s : Slices)

def isGoodHeader : Bool := s.headerMode = .good

/-- The mode that the end of the header chooses. -/
def doneMode : HeaderMode :=
  if isFullInHeader s.size then .full else if computeIsGoodHeader s.size s.header.parts then .good else .small

def slice (sliceNumber : ℕ) : Option Slice :=
  if sliceNumber = 0 then some s.header else s.data[sliceNumber - 1]?

def serializeAndUnloadFirstSliceNoHeader : Option (Bytes × Slices) :=
  match s.data with
  | [] => none
  | first :: others =>
    if first.loadedFromCache then
      some (serializeComplexPartsMap (s.header.parts.entries.foldl (fun m e => m.erase e.1) first.parts),
        { s with data := unloadSlice first :: others })
    else none

def unloadWritten (sliceNumber : ℕ) : Slices :=
  if sliceNumber = 0 then { s with header := { s.header with changedSinceCache := false } }
  else { s with data := s.data.modify (sliceNumber - 1) unloadSlice }

/-- The bytes of one slice; there are none where an assertion fails. -/
def serializeSlice (sliceNumber : ℕ) : Option (SerializedSlice × Slices) :=
  let writeHeaderAndSlice := s.isGoodHeader && sliceNumber = 0
  (s.slice sliceNumber).bind fun slice => slice.parts.entries.getLast?.bind fun last =>
    let continuousTill := if writeHeaderAndSlice then 0 else findNotLoadedStart slice.parts.entries 0
    if last.1 < continuousTill then
      some (⟨sliceNumber, slice.parts.entries.flatMap Prod.snd⟩, s.unloadWritten sliceNumber)
    else
      (if writeHeaderAndSlice then s.serializeAndUnloadFirstSliceNoHeader else some ([], s)).bind fun first =>
        (padded (maxSliceSize sliceNumber s.size) 3 (serializeComplexPartsMap slice.parts ++ first.1)).map fun data =>
          (⟨sliceNumber, data⟩, first.2.unloadWritten sliceNumber)

def serializeAndUnloadSlice (sliceNumber : ℕ) : Option (SerializedSlice × Slices) :=
  if s.headerMode = .unknown ∨ s.headerMode = .noCache ∨ s.data.length < sliceNumber then none
  else s.serializeSlice (if s.isGoodHeader ∧ sliceNumber = 1 then 0 else sliceNumber)

/-- The size by which `processCachedSizes` takes a slice in the cache for whole. -/
def sliceSize (sliceNumber : ℕ) : ℕ :=
  if sliceNumber < s.data.length then kInSlice else s.size - (sliceNumber - 1) * kInSlice

end Slices

/-! ### Parts of a file -/

/-- An aligned part of some bytes: as long as the others unless the bytes end in it. -/
def IsPart (total : ℕ) (e : ℕ × Bytes) : Prop :=
  e.1 % kPartSize = 0 ∧ e.1 < total ∧ e.2.length = min kPartSize (total - e.1)

instance (total : ℕ) (e : ℕ × Bytes) : Decidable (IsPart total e) :=
  inferInstanceAs (Decidable (_ ∧ _ ∧ _))

/-- Parts that follow one another from an offset on. -/
def Consecutive : ℕ → List (ℕ × Bytes) → Prop
  | _, [] => True
  | start, e :: l => e.1 = start ∧ (l ≠ [] → e.2.length = kPartSize) ∧ Consecutive (start + kPartSize) l

section

variable {total start : ℕ} {l : List (ℕ × Bytes)}

/-- The next part is a whole part further. -/
lemma next_le {d e : ℕ × Bytes} (hd : IsPart total d) (he : IsPart total e) (h : d.1 < e.1) : d.1 + kPartSize ≤ e.1 := by
  obtain ⟨hd, -⟩ := hd
  obtain ⟨he, -⟩ := he
  rw [kPartSize] at *
  omega

/-- There are only so many parts after an offset. -/
lemma length_lt_of_parts (hsorted : l.Pairwise fun a b => a.1 < b.1) (h : ∀ e ∈ l, IsPart total e)
    (hafter : ∀ e ∈ l, start ≤ e.1) : l = [] ∨ start + l.length * kPartSize < total + kPartSize := by
  induction l generalizing start with
  | nil => exact .inl rfl
  | cons e l ih =>
    obtain ⟨hfirst, hsorted⟩ := List.pairwise_cons.mp hsorted
    obtain ⟨he, h⟩ := List.forall_mem_cons.mp h
    obtain ⟨hstart, -⟩ := List.forall_mem_cons.mp hafter
    have hlt := he.2.1
    refine .inr ?_
    rw [List.length_cons, Nat.succ_mul]
    rcases ih hsorted h fun d hd =>
        (Nat.add_le_add_right hstart _).trans (next_le he (h d hd) (hfirst d hd)) with rfl | hrest
    · rw [List.length_nil]
      omega
    · omega

lemma length_le_of_parts {count : ℕ} {parts : PartsMap} (h : ∀ e ∈ parts.entries, IsPart total e)
    (htotal : total ≤ count * kPartSize) : parts.entries.length ≤ count := by
  rcases length_lt_of_parts parts.sorted h fun e _ => Nat.zero_le e.1 with hnil | hcount
  · rw [hnil]
    exact Nat.zero_le _
  · rw [kPartSize] at hcount htotal
    omega

/-- **Data without gaps up to the last part** are parts that follow one another. -/
lemma consecutive_of_findNotLoadedStart (hsorted : l.Pairwise fun a b => a.1 < b.1) (h : ∀ e ∈ l, IsPart total e)
    (htotal : total < 4294967296) (hafter : ∀ e ∈ l, start ≤ e.1) {last : ℕ × Bytes} (hlast : l.getLast? = some last)
    (hfound : last.1 < findNotLoadedStart l start) : Consecutive start l := by
  induction l generalizing start with
  | nil => trivial
  | cons e l ih =>
    obtain ⟨hfirst, hsorted⟩ := List.pairwise_cons.mp hsorted
    obtain ⟨he, h⟩ := List.forall_mem_cons.mp h
    have hstart := hafter e List.mem_cons_self
    rw [findNotLoadedStart] at hfound
    split_ifs at hfound with hle
    · have heq : e.1 = start := Nat.le_antisymm hle.1 hstart
      cases l with
      | nil => exact ⟨heq, absurd rfl, trivial⟩
      | cons d l =>
        have hnext := next_le he (h d List.mem_cons_self) (hfirst d List.mem_cons_self)
        have hd := (h d List.mem_cons_self).2.1
        have hfull : e.2.length = kPartSize := by
          have := he.2.2
          omega
        rw [hfull, heq, Nat.mod_eq_of_lt (by omega)] at hfound
        exact ⟨heq, fun _ => hfull, ih hsorted h
          (fun c hc => heq ▸ next_le he (h c hc) (hfirst c hc)) hlast hfound⟩
    · have hmem := hafter last (List.mem_of_getLast? hlast)
      omega

namespace Consecutive

/-- The bytes of parts that follow one another are as long as these reach. -/
lemma length_flatMap (hc : Consecutive start l) (h : ∀ e ∈ l, IsPart total e) (hstart : start ≤ total) :
    start + (l.flatMap Prod.snd).length ≤ total ∧
      (start + (l.flatMap Prod.snd).length = total ∨ (l.flatMap Prod.snd).length % kPartSize = 0) := by
  induction l generalizing start with
  | nil => exact ⟨hstart, .inr rfl⟩
  | cons e l ih =>
    obtain ⟨rfl, hfull, hc⟩ := hc
    obtain ⟨he, h⟩ := List.forall_mem_cons.mp h
    have hlength := he.2.2
    rw [List.flatMap_cons, List.length_append]
    by_cases hpart : e.2.length = kPartSize
    · have hrest := ih hc h (by omega)
      rw [kPartSize] at *
      omega
    · obtain rfl : l = [] := by
        by_contra hne
        exact hpart (hfull hne)
      rw [List.flatMap_nil, List.length_nil]
      omega

/-- What their bytes reach is in one of them. -/
lemma exists_part (hc : Consecutive start l) (h : ∀ e ∈ l, IsPart total e) (hstart : start % kPartSize = 0) {offset : ℕ}
    (hle : start ≤ offset) (hlt : offset < start + (l.flatMap Prod.snd).length) (haligned : offset % kPartSize = 0) :
    ∃ e ∈ l, e.1 = offset := by
  induction l generalizing start with
  | nil =>
    rw [List.flatMap_nil, List.length_nil] at hlt
    omega
  | cons e l ih =>
    obtain ⟨rfl, -, hc⟩ := hc
    obtain ⟨he, h⟩ := List.forall_mem_cons.mp h
    have hlength := he.2.2
    rw [List.flatMap_cons, List.length_append] at hlt
    by_cases hfirst : e.1 = offset
    · exact ⟨e, List.mem_cons_self, hfirst⟩
    · have hstep : e.1 + kPartSize ≤ offset := by
        rw [kPartSize] at *
        omega
      obtain ⟨d, hd, heq⟩ := ih hc h (by rw [Nat.add_mod_right, hstart]) hstep (by omega)
      exact ⟨d, List.mem_cons_of_mem _ hd, heq⟩

lemma lt_of_mem (hc : Consecutive start l) {e : ℕ × Bytes} (he : e ∈ l) : e.1 < start + l.length * kPartSize := by
  induction l generalizing start with
  | nil => cases he
  | cons d l ih =>
    obtain ⟨rfl, -, hc⟩ := hc
    rw [List.length_cons]
    rcases List.mem_cons.mp he with rfl | he
    · rw [kPartSize] at *
      omega
    · have := ih hc he
      rw [kPartSize] at *
      omega

/-- **Continuous data are read as their parts.** -/
lemma contiguousParts (hc : Consecutive start l) (h : ∀ e ∈ l, IsPart total e) {rounds : ℕ}
    (hrounds : (l.flatMap Prod.snd).length ≤ rounds) (result : PartsMap) :
    contiguousParts rounds start result (l.flatMap Prod.snd) =
      l.foldl (fun m e => m.emplace e.1 e.2) result := by
  induction l generalizing start rounds result with
  | nil => cases rounds <;> rfl
  | cons e l ih =>
    obtain ⟨rfl, hfull, hc⟩ := hc
    obtain ⟨he, h⟩ := List.forall_mem_cons.mp h
    obtain ⟨-, hlt, hlength⟩ := he
    have hpos : 0 < e.2.length := by
      rw [kPartSize] at *
      omega
    rw [List.flatMap_cons, List.length_append] at hrounds
    obtain ⟨rounds, rfl⟩ := Nat.exists_eq_add_of_lt (Nat.lt_of_lt_of_le hpos (by omega : e.2.length ≤ rounds))
    rw [Nat.zero_add, Streaming.contiguousParts, List.flatMap_cons, if_neg (by
      intro hnil
      rw [(List.append_eq_nil_iff.mp hnil).1] at hpos
      cases hpos), List.foldl_cons]
    have hcut : (e.2 ++ l.flatMap Prod.snd).take kPartSize = e.2 ∧
        (e.2 ++ l.flatMap Prod.snd).drop kPartSize = l.flatMap Prod.snd := by
      cases l with
      | nil =>
        rw [List.flatMap_nil, List.append_nil]
        exact ⟨List.take_of_length_le (by omega), List.drop_of_length_le (by omega)⟩
      | cons d l =>
        have hlen := hfull (List.cons_ne_nil d l)
        exact ⟨List.take_left' hlen, List.drop_left' hlen⟩
    rw [hcut.1, hcut.2]
    exact ih hc h (by omega) _

end Consecutive

end

/-! ### Counted lists of parts -/

lemma uint32_int {value : ℕ} (h : value < 4294967296) : uint32 (int value) = value := by
  have hmod : Int.bmod value 4294967296 % (4294967296 : ℕ) = value % (4294967296 : ℕ) := Int.bmod_emod
  unfold uint32 int
  omega

lemma int_of_lt {value : ℕ} (h : value < 2147483648) : int value = value := by
  unfold int
  refine (Int.bmod_eq_emod_of_lt ?_).trans ?_ <;> omega

lemma takeInt_littleEndian {value : ℕ} (h : value < 4294967296) (rest : Bytes) :
    takeInt (littleEndian 4 value ++ rest) = (some value, rest) := by
  have hlength := length_littleEndian 4 value
  rw [takeInt, if_neg (by rw [List.length_append]; omega), List.take_left' hlength, List.drop_left' hlength,
    ofLittleEndian_littleEndian, Nat.mod_eq_of_lt (h.trans_eq (by decide))]

lemma takeBytes_append {bytes : Bytes} (hpos : 0 < bytes.length) (hlt : bytes.length < 2147483648) (rest : Bytes) :
    takeBytes (int bytes.length) (bytes ++ rest) = (bytes, rest) := by
  rw [int_of_lt hlt, takeBytes, if_neg (by rw [List.length_append]; omega), Int.toNat_natCast, List.take_left,
    List.drop_left]

section

variable {total : ℕ} {maxSize : ℤ} {parts : PartsMap} (hmax : uint32 maxSize = total) (htotal : total < 4294967296)

include hmax htotal

lemma parseParts_serializeParts {l : List (ℕ × Bytes)} (h : ∀ e ∈ l, IsPart total e) (result : PartsMap)
    (rest : Bytes) : parseParts maxSize l.length result (serializeParts l ++ rest) =
      (l.foldl (fun m e => m.emplace e.1 e.2) result, rest) := by
  induction l generalizing result with
  | nil => rfl
  | cons e l ih =>
    obtain ⟨⟨-, hlt, hlength⟩, h⟩ := List.forall_mem_cons.mp h
    have hsize : 0 < e.2.length ∧ e.2.length ≤ 131072 ∧ e.1 + e.2.length ≤ total := by
      rw [kPartSize] at hlength
      omega
    have hdata : serializeParts (e :: l) ++ rest =
        littleEndian 4 e.1 ++ (littleEndian 4 e.2.length ++ (e.2 ++ (serializeParts l ++ rest))) := by
      rw [serializeParts, List.flatMap_cons, List.append_assoc, List.append_assoc, List.append_assoc]
      rfl
    rw [List.length_cons, hdata, parseParts]
    simp only [takeInt_littleEndian (show e.1 < 4294967296 by omega), Option.getD_some,
      takeInt_littleEndian (show e.2.length < 4294967296 by omega),
      takeBytes_append hsize.1 (show e.2.length < 2147483648 by omega), hmax]
    rw [if_neg (by omega)]
    exact ih h _

/-- **A counted list of parts is read as it is written**, whatever is behind it. -/
lemma parseCachedMap_serialize (h : ∀ e ∈ parts.entries, IsPart total e) (hcount : parts.entries.length ≤ 80)
    {rest : Bytes} (hnot : isContiguousSerialization (serializeComplexPartsMap parts ++ rest).length maxSize = false) :
    parseCachedMap ∅ (serializeComplexPartsMap parts ++ rest) maxSize = (parts, rest) := by
  have hread := parseParts_serializeParts hmax htotal h ∅ rest
  rw [OrdMap.foldl_emplace_entries] at hread
  rw [parseCachedMap, hnot, if_neg Bool.false_ne_true, serializeComplexPartsMap, List.append_assoc,
    parseComplexCachedMap, takeInt_littleEndian (by omega)]
  by_cases hzero : parts.entries.length = 0
  · rw [hzero, List.eq_nil_of_length_eq_zero hzero] at hread
    rw [List.eq_nil_of_length_eq_zero hzero]
    exact hread
  · refine (if_neg ?_).trans hread
    rw [not_or, not_lt]
    exact ⟨hzero, hcount⟩

end

lemma isContiguousSerialization_iff {size : ℕ} {maxSize : ℤ} :
    isContiguousSerialization size maxSize = true ↔ size % 131072 = 0 ∨ size = maxSize := by
  rw [isContiguousSerialization, Bool.or_eq_true, decide_eq_true_iff, decide_eq_true_iff, kPartSize]
  omega

/-- Continuous data of a slice are read as its parts. -/
lemma parseCachedMap_flatMap {total : ℕ} {parts : PartsMap} (h : ∀ e ∈ parts.entries, IsPart total e)
    (hc : Consecutive 0 parts.entries) :
    parseCachedMap ∅ (parts.entries.flatMap Prod.snd) total = (parts, []) := by
  have hlength := hc.length_flatMap h (Nat.zero_le _)
  rw [parseCachedMap, if_pos, if_neg (by omega), hc.contiguousParts h le_rfl, OrdMap.foldl_emplace_entries]
  rw [isContiguousSerialization_iff]
  rw [kPartSize] at hlength
  omega

/-- **Two zeros are enough**: of three lengths in a row one is none of continuous data. -/
lemma padded_spec (maxSize : ℤ) (data : Bytes) : ∃ count ≤ 2,
    padded maxSize 3 data = some (data ++ List.replicate count 0) ∧
      isContiguousSerialization (data ++ List.replicate count 0).length maxSize = false := by
  cases hfirst : isContiguousSerialization data.length maxSize with
  | false => exact ⟨0, Nat.zero_le _, by rw [padded, hfirst]; exact congrArg some (List.append_nil _).symm,
      (List.append_nil data).symm ▸ hfirst⟩
  | true =>
    cases hsecond : isContiguousSerialization (data ++ [0]).length maxSize with
    | false => exact ⟨1, by decide, by rw [padded, hfirst, if_pos rfl, padded, hsecond]; rfl, hsecond⟩
    | true =>
      have hzeros : data ++ [0] ++ [0] = data ++ List.replicate 2 0 := List.append_assoc _ _ _
      have hthird : isContiguousSerialization (data ++ [0] ++ [0]).length maxSize = false := by
        rw [isContiguousSerialization_iff] at hfirst hsecond
        rw [← Bool.not_eq_true, isContiguousSerialization_iff]
        simp only [List.length_append, List.length_singleton] at hsecond ⊢
        omega
      refine ⟨2, le_rfl, ?_, hzeros ▸ hthird⟩
      rw [padded, hfirst, if_pos rfl, padded, hsecond, if_pos rfl, padded, hthird, ← hzeros]
      rfl

/-! ### Slices in the cache -/

namespace Slices

/-- Aligned parts of the file, and a header as it is collected. -/
structure Sound (s : Slices) : Prop where
  size_lt : s.size < 4294967296
  slices : s.data.length = if isFullInHeader s.size then 0 else slicesCount s.size
  header : ∀ e ∈ s.header.parts.entries, IsPart s.size e
  headerCount : isFullInHeader s.size = false → s.header.parts.entries.length ≤ kMaxPartsInHeader
  parts : ∀ i slice, s.data[i]? = some slice → ∀ e ∈ slice.parts.entries, IsPart (s.sliceSize (i + 1)) e
  mode : s.headerMode ≠ .unknown → s.headerMode ≠ .noCache → s.headerMode = s.doneMode

variable {s s' : Slices} {sliceNumber : ℕ} {written : SerializedSlice}

/-- What is written of a slice without another behind it. -/
lemma serializeSlice_alone (hgood : (s.isGoodHeader && sliceNumber = 0) = false)
    (h : s.serializeSlice sliceNumber = some (written, s')) :
    ∃ slice last, s.slice sliceNumber = some slice ∧ slice.parts.entries.getLast? = some last ∧
      written.number = sliceNumber ∧
      if last.1 < findNotLoadedStart slice.parts.entries 0 then written.data = slice.parts.entries.flatMap Prod.snd
      else padded (maxSliceSize sliceNumber s.size) 3 (serializeComplexPartsMap slice.parts) = some written.data := by
  rw [serializeSlice, hgood] at h
  obtain ⟨slice, hslice, h⟩ := Option.bind_eq_some_iff.mp h
  obtain ⟨last, hlast, h⟩ := Option.bind_eq_some_iff.mp h
  refine ⟨slice, last, hslice, hlast, ?_⟩
  simp only [Bool.false_eq_true, if_false, Option.bind_some, List.append_nil] at h
  by_cases hlt : last.1 < findNotLoadedStart slice.parts.entries 0
  · rw [if_pos hlt] at h ⊢
    cases h
    exact ⟨rfl, rfl⟩
  · rw [if_neg hlt] at h ⊢
    obtain ⟨data, hdata, h⟩ := Option.map_eq_some_iff.mp h
    cases h
    exact ⟨rfl, hdata⟩

/-- What is written of a good header. -/
lemma serializeSlice_good (hgood : s.isGoodHeader = true) (h : s.serializeSlice 0 = some (written, s')) :
    ∃ first others, s.data = first :: others ∧ written.number = 0 ∧
      padded (maxSliceSize 0 s.size) 3 (serializeComplexPartsMap s.header.parts ++ serializeComplexPartsMap
        (s.header.parts.entries.foldl (fun m e => m.erase e.1) first.parts)) = some written.data := by
  rw [serializeSlice, hgood] at h
  obtain ⟨slice, hslice, h⟩ := Option.bind_eq_some_iff.mp h
  obtain ⟨last, -, h⟩ := Option.bind_eq_some_iff.mp h
  cases hslice
  obtain ⟨first, hfirst, h⟩ := Option.bind_eq_some_iff.mp h
  replace hfirst : s.serializeAndUnloadFirstSliceNoHeader = some first := hfirst
  obtain ⟨data, hdata, h⟩ := Option.map_eq_some_iff.mp h
  cases h
  cases hlist : s.data with
  | nil =>
    rw [serializeAndUnloadFirstSliceNoHeader, hlist] at hfirst
    cases hfirst
  | cons slice others =>
    rw [serializeAndUnloadFirstSliceNoHeader, hlist] at hfirst
    dsimp only at hfirst
    split_ifs at hfirst
    cases hfirst
    exact ⟨slice, others, rfl, rfl, hdata⟩

end Slices

/-! ### Back from the cache -/

/-- The entries of a map that others do not have. -/
lemma find_foldl_erase (l : List (ℕ × Bytes)) (parts : PartsMap) (offset : ℕ) :
    (l.foldl (fun m e => m.erase e.1) parts).find offset =
      if offset ∈ l.map Prod.fst then none else parts.find offset := by
  induction l generalizing parts with
  | nil => rfl
  | cons e l ih =>
    rw [List.foldl_cons, ih, OrdMap.find_erase, List.map_cons]
    by_cases hrest : offset ∈ l.map Prod.fst
    · rw [if_pos hrest, if_pos (List.mem_cons_of_mem _ hrest)]
    · rw [if_neg hrest]
      exact if_congr (by rw [List.mem_cons, or_iff_left hrest]) rfl rfl

lemma length_serializeParts {l : List (ℕ × Bytes)} (h : ∀ e ∈ l, IsPart kInSlice e) :
    (serializeParts l).length = l.length * 131080 := by
  induction l with
  | nil => rfl
  | cons e l ih =>
    obtain ⟨⟨haligned, hlt, hlength⟩, h⟩ := List.forall_mem_cons.mp h
    have hrest := ih h
    rw [serializeParts] at hrest ⊢
    rw [List.flatMap_cons, List.length_append, hrest, List.length_append, List.length_append, length_littleEndian,
      length_littleEndian, List.length_cons]
    rw [kPartSize] at haligned hlength
    rw [kInSlice] at hlt hlength
    omega

namespace Slices

variable {s s' : Slices} {sliceNumber : ℕ} {slice : Slice} {written : SerializedSlice}

lemma Sound.maxSliceSize_eq (h : s.Sound) (hpos : sliceNumber ≠ 0) (hle : sliceNumber ≤ s.data.length) :
    maxSliceSize sliceNumber s.size = s.sliceSize sliceNumber ∧ s.sliceSize sliceNumber ≤ kInSlice := by
  have hslices := h.slices
  have hlt := h.size_lt
  split_ifs at hslices
  · omega
  · rw [maxSliceSize, if_neg hpos, sliceSize]
    by_cases hlast : sliceNumber = slicesCount s.size
    · have hsize : s.size - (sliceNumber - 1) * kInSlice ≤ kInSlice := by
        rw [slicesCount, kInSlice] at hlast
        rw [kInSlice]
        omega
      rw [if_pos hlast, if_neg (by omega)]
      exact ⟨int_of_lt (hsize.trans_lt (by decide)), hsize⟩
    · rw [if_neg hlast, if_pos (by omega)]
      exact ⟨int_of_lt (by decide), le_rfl⟩

/-- What is known of a slice that is written without another behind it. -/
lemma Sound.alone (h : s.Sound) (hknown : s.headerMode ≠ .unknown) (hcache : s.headerMode ≠ .noCache)
    (hgood : (s.isGoodHeader && sliceNumber = 0) = false) (hle : sliceNumber ≤ s.data.length)
    (hslice : s.slice sliceNumber = some slice) :
    ∃ total < 4294967296, (∀ e ∈ slice.parts.entries, IsPart total e) ∧ slice.parts.entries.length ≤ 80 ∧
      uint32 (maxSliceSize sliceNumber s.size) = total ∧
      (Consecutive 0 slice.parts.entries → maxSliceSize sliceNumber s.size = total) ∧
      (sliceNumber = 0 → computeIsGoodHeader s.size slice.parts = false) ∧
      (sliceNumber ≠ 0 → s.sliceSize sliceNumber = total ∧ maxSliceSize sliceNumber s.size = total) := by
  have hlt := h.size_lt
  rw [Slices.slice] at hslice
  by_cases hzero : sliceNumber = 0
  · rw [if_pos hzero] at hslice
    cases hslice
    rw [decide_eq_true hzero, Bool.and_true, isGoodHeader, decide_eq_false_iff_not, h.mode hknown hcache, doneMode]
      at hgood
    have hmax : maxSliceSize sliceNumber s.size = int s.size := if_pos hzero
    cases hfull : isFullInHeader s.size with
    | true =>
      have hsize := of_decide_eq_true hfull
      refine ⟨s.size, hlt, h.header, length_le_of_parts h.header (hsize.trans (by decide)), by rw [hmax, uint32_int hlt],
        fun _ => hmax.trans (int_of_lt (hsize.trans_lt (by decide))), fun _ => ?_, absurd hzero⟩
      rw [computeIsGoodHeader, hfull]
      rfl
    | false =>
      rw [hfull] at hgood
      have hcompute : computeIsGoodHeader s.size s.header.parts = false := by
        rw [← Bool.not_eq_true]
        intro hcompute
        rw [hcompute] at hgood
        exact hgood rfl
      refine ⟨s.size, hlt, h.header, (h.headerCount hfull).trans (by decide), by rw [hmax, uint32_int hlt], fun hc => ?_,
        fun _ => hcompute, absurd hzero⟩
      -- So few parts without gaps do not leave the first slice, and such a header is good.
      have hfirst : (s.header.parts.entries.filter fun e => kInSlice ≤ e.1) = [] :=
        List.filter_eq_nil_iff.mpr fun e he hle => by
          replace hle := of_decide_eq_true hle
          have hreach := hc.lt_of_mem he
          have hcount := h.headerCount hfull
          rw [kMaxPartsInHeader] at hcount
          rw [kPartSize] at hreach
          rw [kInSlice] at hle
          omega
      rw [computeIsGoodHeader, hfull, hfirst] at hcompute
      cases hcompute
  · rw [if_neg hzero] at hslice
    obtain ⟨hmax, hsize⟩ := h.maxSliceSize_eq hzero hle
    have hparts := h.parts _ _ hslice
    rw [Nat.sub_add_cancel (Nat.one_le_iff_ne_zero.mpr hzero)] at hparts
    refine ⟨_, hsize.trans_lt (by decide), hparts, length_le_of_parts hparts (hsize.trans (by decide)), ?_,
      fun _ => hmax, fun hnot => absurd hnot hzero, fun _ => ⟨rfl, hmax⟩⟩
    rw [kInSlice] at hsize
    rw [hmax, uint32]
    omega

end Slices

namespace Slices

variable {s s' : Slices} {sliceNumber : ℕ} {written : SerializedSlice}

/-- **A slice that is written alone** comes back, and has the size of a whole one only if it is whole. -/
theorem alone_survives (h : s.Sound) (hknown : s.headerMode ≠ .unknown) (hcache : s.headerMode ≠ .noCache)
    (hgood : (s.isGoodHeader && sliceNumber = 0) = false) (hle : sliceNumber ≤ s.data.length)
    (hwritten : s.serializeSlice sliceNumber = some (written, s')) :
    ∃ slice, s.slice sliceNumber = some slice ∧ written.number = sliceNumber ∧
      parseCacheEntry written.data sliceNumber s.size = ⟨slice.parts, none⟩ ∧
      (sliceNumber ≠ 0 → written.data.length = s.sliceSize sliceNumber → ∀ offset < s.sliceSize sliceNumber,
        offset % kPartSize = 0 → slice.parts.contains offset) := by
  obtain ⟨slice, last, hslice, hlast, hnumber, hdata⟩ := serializeSlice_alone hgood hwritten
  obtain ⟨total, htotal, hparts, hcount, hmax, hcontinuous, hheader, hslices⟩ := h.alone hknown hcache hgood hle hslice
  have hread : (parseCachedMap ∅ written.data (maxSliceSize sliceNumber s.size)).1 = slice.parts ∧
      (sliceNumber ≠ 0 → written.data.length = total → ∀ offset < total, offset % kPartSize = 0 →
        slice.parts.contains offset) := by
    split_ifs at hdata with hlt
    · have hc := consecutive_of_findNotLoadedStart slice.parts.sorted hparts htotal (fun e _ => Nat.zero_le e.1) hlast hlt
      rw [hdata, hcontinuous hc, parseCachedMap_flatMap hparts hc]
      refine ⟨rfl, fun _ hwhole offset hoffset haligned => ?_⟩
      obtain ⟨e, he, rfl⟩ := hc.exists_part hparts rfl (Nat.zero_le _) (by omega) haligned
      exact OrdMap.contains_iff.mpr ⟨e.2, OrdMap.find_eq_some_iff.mpr he⟩
    · obtain ⟨zeros, -, hpadded, hnot⟩ := padded_spec (maxSliceSize sliceNumber s.size)
        (serializeComplexPartsMap slice.parts)
      rw [← Option.some.inj (hpadded.symm.trans hdata)]
      refine ⟨congrArg Prod.fst (parseCachedMap_serialize hmax htotal hparts hcount hnot), fun hpos hwhole => ?_⟩
      rw [← Bool.not_eq_true, isContiguousSerialization_iff, (hslices hpos).2, hwhole] at hnot
      exact absurd (.inr rfl) hnot
  refine ⟨slice, hslice, hnumber, ?_, fun hpos hwhole => ?_⟩
  · rw [parseCacheEntry, hread.1, if_neg]
    rintro ⟨hzero, hcompute⟩
    rw [hheader hzero] at hcompute
    cases hcompute
  · rw [(hslices hpos).1] at hwhole ⊢
    exact hread.2 hpos hwhole

/-- **A good header** comes back with the parts of the first slice that it has not. -/
theorem good_survives (h : s.Sound) (hgood : s.headerMode = .good) (hwritten : s.serializeSlice 0 = some (written, s')) :
    ∃ first included, s.data.head? = some first ∧ written.number = 0 ∧
      parseCacheEntry written.data 0 s.size = ⟨s.header.parts, some included⟩ ∧
      ∀ offset, included.find offset = if s.header.parts.contains offset then none else first.parts.find offset := by
  obtain ⟨first, others, hdata, hnumber, hpadded⟩ := serializeSlice_good (decide_eq_true hgood) hwritten
  have hlt := h.size_lt
  have hmode := h.mode (by rw [hgood]; decide) (by rw [hgood]; decide)
  rw [hgood, doneMode] at hmode
  split_ifs at hmode with hfull hcompute
  have hslices := h.slices
  rw [if_neg hfull, slicesCount, kInSlice, hdata, List.length_cons] at hslices
  have hsize : kMaxOnlyInHeader < s.size := not_le.mp fun hle => hfull (decide_eq_true hle)
  rw [kMaxOnlyInHeader] at hsize
  have hcount : 1 < s.data.length := by
    rw [hdata, List.length_cons]
    omega
  obtain ⟨hsecond, -⟩ := h.maxSliceSize_eq Nat.one_ne_zero hcount.le
  rw [sliceSize, if_pos hcount] at hsecond
  have hfirst := h.parts 0 first (by rw [hdata]; rfl)
  rw [Nat.zero_add, sliceSize, if_pos hcount] at hfirst
  have hfind := find_foldl_erase s.header.parts.entries first.parts
  generalize s.header.parts.entries.foldl (fun m e => m.erase e.1) first.parts = included at hpadded hfind
  have hincluded : ∀ e ∈ included.entries, IsPart kInSlice e := fun e he => by
    have hmem := OrdMap.find_eq_some_iff.mpr he
    rw [hfind] at hmem
    split_ifs at hmem
    exact hfirst e (OrdMap.find_eq_some_iff.mp hmem)
  have hfew : included.entries.length ≤ 64 := length_le_of_parts hincluded (by decide)
  obtain ⟨zeros, hzeros, hsome, hnot⟩ := padded_spec (maxSliceSize 0 s.size)
    (serializeComplexPartsMap s.header.parts ++ serializeComplexPartsMap included)
  rw [← Option.some.inj (hsome.symm.trans hpadded), List.append_assoc]
  rw [List.append_assoc] at hnot
  have hrest : isContiguousSerialization (serializeComplexPartsMap included ++ List.replicate zeros 0).length
      kInSlice = false := by
    rw [← Bool.not_eq_true, isContiguousSerialization_iff, List.length_append, serializeComplexPartsMap,
      List.length_append, length_littleEndian, length_serializeParts hincluded, List.length_replicate, kInSlice]
    omega
  have hheader : s.header.parts.entries.length ≤ 80 :=
    (h.headerCount (Bool.not_eq_true _ ▸ hfull)).trans (by decide)
  refine ⟨first, included, by rw [hdata]; rfl, hnumber, ?_, fun offset => ?_⟩
  · rw [parseCacheEntry, parseCachedMap_serialize (by rw [maxSliceSize, if_pos rfl, uint32_int hlt]) hlt h.header hheader
      hnot, if_pos ⟨rfl, hcompute⟩, hsecond, parseCachedMap_serialize (show uint32 kInSlice = kInSlice from rfl) (by decide) hincluded
      (hfew.trans (by decide)) hrest]
  · rw [hfind]
    refine if_congr ?_ rfl rfl
    rw [OrdMap.contains_iff]
    exact OrdMap.mem_keys_iff

end Slices

/-- **A slice survives the cache.** What is read of the bytes written for a slice are its parts; with a good header
these are the header and, aside, what else the first slice has. A slice that is not whole never has the size of a
whole one. -/
theorem slice_survives_cache {s s' : Slices} {sliceNumber : ℕ} {written : SerializedSlice} (h : s.Sound)
    (hwritten : s.serializeAndUnloadSlice sliceNumber = some (written, s')) :
    if s.headerMode = .good ∧ sliceNumber ≤ 1 then
      ∃ first included, s.data.head? = some first ∧ written.number = 0 ∧
        parseCacheEntry written.data 0 s.size = ⟨s.header.parts, some included⟩ ∧
        ∀ offset, included.find offset = if s.header.parts.contains offset then none else first.parts.find offset
    else
      ∃ slice, s.slice sliceNumber = some slice ∧ written.number = sliceNumber ∧
        parseCacheEntry written.data sliceNumber s.size = ⟨slice.parts, none⟩ ∧
        (sliceNumber ≠ 0 → written.data.length = s.sliceSize sliceNumber → ∀ offset < s.sliceSize sliceNumber,
          offset % kPartSize = 0 → slice.parts.contains offset) := by
  rw [Slices.serializeAndUnloadSlice] at hwritten
  by_cases hrefused : s.headerMode = .unknown ∨ s.headerMode = .noCache ∨ s.data.length < sliceNumber
  · rw [if_pos hrefused] at hwritten
    cases hwritten
  rw [if_neg hrefused] at hwritten
  obtain ⟨hknown, hcache, hle⟩ := not_or.mp hrefused |>.imp_right not_or.mp
  split_ifs with hgood
  · obtain ⟨hgood, hfirst⟩ := hgood
    have hzero : (if s.isGoodHeader ∧ sliceNumber = 1 then 0 else sliceNumber) = 0 := by
      split_ifs with hone
      · rfl
      · have : sliceNumber ≠ 1 := fun heq => hone ⟨decide_eq_true hgood, heq⟩
        omega
    rw [hzero] at hwritten
    exact Slices.good_survives h hgood hwritten
  · rw [if_neg fun hone => hgood ⟨of_decide_eq_true hone.1, hone.2.le⟩] at hwritten
    refine Slices.alone_survives h hknown hcache (Bool.eq_false_iff.mpr fun htrue => hgood ?_) (not_lt.mp hle) hwritten
    obtain ⟨hmode, hzero⟩ := Bool.and_eq_true_iff.mp htrue
    exact ⟨of_decide_eq_true hmode, (of_decide_eq_true hzero).trans_le (Nat.zero_le 1)⟩

/-- The last part of a file in the header is written as a list. -/
theorem slice_survives_cache_list :
    let header : Slice := { parts := OrdMap.insert ∅ 131072 [1, 2, 3], changedSinceCache := true }
    let s : Slices := { data := [], header := header, size := 131075, headerMode := .full }
    (s.serializeAndUnloadSlice 0).map Prod.fst = some ⟨0, [1, 0, 0, 0, 0, 0, 2, 0, 3, 0, 0, 0, 1, 2, 3]⟩ ∧
      ∃ slice, s.slice 0 = some slice ∧
        parseCacheEntry [1, 0, 0, 0, 0, 0, 2, 0, 3, 0, 0, 0, 1, 2, 3] 0 131075 = ⟨slice.parts, none⟩ := by
  intro header s
  have hwritten : (s.serializeAndUnloadSlice 0).map Prod.fst =
      some ⟨0, [1, 0, 0, 0, 0, 0, 2, 0, 3, 0, 0, 0, 1, 2, 3]⟩ := by decide +kernel
  have hsound : s.Sound :=
    { size_lt := by decide
      slices := rfl
      header := by decide
      headerCount := fun hfull => by cases hfull
      parts := fun _ _ hslice => by cases hslice
      mode := fun _ _ => rfl }
  obtain ⟨⟨written, s'⟩, hsome, rfl⟩ := Option.map_eq_some_iff.mp hwritten
  obtain ⟨slice, hslice, -, hread, -⟩ := slice_survives_cache hsound hsome
  exact ⟨hwritten, slice, hslice, hread⟩

end Streaming
