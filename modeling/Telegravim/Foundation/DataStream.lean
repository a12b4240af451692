import Telegravim.Foundation.Text

set_option autoImplicit false

/-!
# Streams of bytes

Numbers and bytes as `QDataStream` writes them: four bytes a number, the highest first. A reader takes what it
needs from the front of some bytes, and gives `none` where too few are left.

## Main definitions

* `DataStream.Qint32` — the integers of 32 bits.
* `DataStream.writeInt`, `DataStream.readInt` — one integer.
* `DataStream.writeBytes`, `DataStream.readBytes` — bytes with their number before them.
* `DataStream.readRaw` — some bytes.
* `DataStream.readLoop` — items, one after another.

## Main results

* `DataStream.readInt_writeInt`, `DataStream.readBytes_writeBytes` — what is written is read.
* `DataStream.readLoop_written`, `DataStream.readLoop_refused` — items that are written are read, or one is refused.
-/

namespace DataStream

/-- The integers of 32 bits. -/
abbrev Qint32 := {value : ℤ // -2147483648 ≤ value ∧ value < 2147483648}

instance Qint32.decidableLt (a b : Qint32) : Decidable (a < b) := Int.decLt a.val b.val

lemma wrap_bounds (value : ℤ) :
    -2147483648 ≤ (value + 2147483648) % 4294967296 - 2147483648 ∧
      (value + 2147483648) % 4294967296 - 2147483648 < 2147483648 := by
  omega

/-- An integer of 32 bits, wrapped around. -/
def qint32 (value : ℤ) : Qint32 := ⟨(value + 2147483648) % 4294967296 - 2147483648, wrap_bounds value⟩

lemma qint32_val {value : ℤ} (hlow : -2147483648 ≤ value) (hhigh : value < 2147483648) :
    (qint32 value).val = value := by
  simp only [qint32]
  omega

/-- A number below `2 ^ 32` in four bytes, the highest first. -/
def writeNat (value : ℕ) : Bytes :=
  [UInt8.ofNat (value / 16777216), UInt8.ofNat (value / 65536), UInt8.ofNat (value / 256), UInt8.ofNat value]

def readNat : Bytes → Option (ℕ × Bytes)
  | b3 :: b2 :: b1 :: b0 :: rest =>
    some (b3.toNat * 16777216 + b2.toNat * 65536 + b1.toNat * 256 + b0.toNat, rest)
  | _ => none

def writeInt (value : Qint32) : Bytes := writeNat (value.val % 4294967296).toNat

def readInt (data : Bytes) : Option (Qint32 × Bytes) :=
  (readNat data).map fun (value, rest) => (qint32 value, rest)

/-- `QDataStream::readRawData`. With too few bytes the stream is not `Ok` any more. -/
def readRaw (count : ℕ) (data : Bytes) : Option (Bytes × Bytes) :=
  if count ≤ data.length then some (data.take count, data.drop count) else none

/-- `Serialize::bytes`, written. -/
def writeBytes (bytes : Bytes) : Bytes :=
  if bytes = [] then writeNat 4294967295 else writeNat bytes.length ++ bytes

/-- `Serialize::bytes`, read. -/
def readBytes (data : Bytes) : Option (Bytes × Bytes) := do
  let (length, rest) ← readNat data
  if length = 4294967295 then return ([], rest)
  readRaw length rest

/-- Items read one after another and added to a state, and what is left of the bytes; the loop ends at the first item
that can not be read. -/
def readLoop {σ ι : Type} (read : Bytes → Option (ι × Bytes)) (add : σ → ι → σ) : ℕ → σ → Bytes → σ × Option Bytes
  | 0, s, data => (s, some data)
  | rounds + 1, s, data =>
    (read data).elim (s, none) fun (item, rest) => readLoop read add rounds (add s item) rest

/-- The rounds of a loop that runs until it has counted up to a number: with a negative one it does not end before
it has read all bytes. -/
def rounds (count : Qint32) (data : Bytes) : ℕ :=
  if count.val < 0 then data.length + 1 else count.val.toNat

/-- The four bytes of a number make it again. -/
lemma bytes_of_nat {value : ℕ} (h : value < 4294967296) :
    value / 16777216 % 256 * 16777216 + value / 65536 % 256 * 65536 + value / 256 % 256 * 256 + value % 256 = value := by
  omega

lemma readNat_cons (b3 b2 b1 b0 : UInt8) (rest : Bytes) :
    readNat (b3 :: b2 :: b1 :: b0 :: rest) =
      some (b3.toNat * 16777216 + b2.toNat * 65536 + b1.toNat * 256 + b0.toNat, rest) := by
  rw [readNat]

/-- **A number that is written is read.** -/
theorem readNat_writeNat {value : ℕ} (h : value < 4294967296) (rest : Bytes) :
    readNat (writeNat value ++ rest) = some (value, rest) := by
  rw [writeNat, List.cons_append, List.cons_append, List.cons_append, List.cons_append, readNat_cons, List.nil_append,
    UInt8.toNat_ofNat', UInt8.toNat_ofNat', UInt8.toNat_ofNat', UInt8.toNat_ofNat', bytes_of_nat h]

/-- **An integer that is written is read.** -/
theorem readInt_writeInt (value : Qint32) (rest : Bytes) : readInt (writeInt value ++ rest) = some (value, rest) := by
  obtain ⟨value, hlow, hhigh⟩ := value
  have hread : qint32 ((value % 4294967296).toNat : ℤ) = ⟨value, hlow, hhigh⟩ := by
    apply Subtype.ext
    simp only [qint32]
    omega
  rw [readInt, writeInt, readNat_writeNat (by dsimp only; omega), Option.map_some]
  exact congrArg (fun v => some (v, rest)) hread

/-- Raw bytes that are there are read. -/
lemma readRaw_append (bytes rest : Bytes) : readRaw bytes.length (bytes ++ rest) = some (bytes, rest) := by
  rw [readRaw, if_pos (by rw [List.length_append]; omega), List.take_left, List.drop_left]

/-- **Bytes that are written are read.** -/
theorem readBytes_writeBytes {bytes : Bytes} (h : bytes.length < 4294967295) (rest : Bytes) :
    readBytes (writeBytes bytes ++ rest) = some (bytes, rest) := by
  by_cases hempty : bytes = []
  · rw [writeBytes, if_pos hempty, readBytes, readNat_writeNat (by omega), hempty]
    rfl
  · rw [writeBytes, if_neg hempty, List.append_assoc, readBytes, readNat_writeNat (by omega), Option.bind_eq_bind,
      Option.bind_some]
    dsimp only
    rw [if_neg (by omega), readRaw_append]

/-! ### Loops -/

section

variable {σ ι : Type} {read : Bytes → Option (ι × Bytes)} {add : σ → ι → σ} {write : ι → Bytes}

/-- **Items that are written are read.** -/
theorem readLoop_written {l : List ι} (h : ∀ item ∈ l, ∀ rest, read (write item ++ rest) = some (item, rest)) (s : σ)
    (rest : Bytes) : readLoop read add l.length s (l.flatMap write ++ rest) = (l.foldl add s, some rest) := by
  induction l generalizing s with
  | nil => rfl
  | cons item l ih =>
    rw [List.length_cons, readLoop, List.flatMap_cons, List.append_assoc, h item List.mem_cons_self, Option.elim_some,
      List.foldl_cons]
    exact ih (fun item' hitem' => h item' (List.mem_cons_of_mem _ hitem')) (add s item)

/-- **A loop ends early** where one of the items can not be read and the ones before it can. -/
theorem readLoop_refused {l : List ι}
    (h : ∀ item ∈ l, (∀ rest, read (write item ++ rest) = some (item, rest)) ∨ ∀ rest, read (write item ++ rest) = none)
    (hrefused : ∃ item ∈ l, ∀ rest, read (write item ++ rest) = none) (s : σ) (rest : Bytes) :
    (readLoop read add l.length s (l.flatMap write ++ rest)).2 = none := by
  induction l generalizing s with
  | nil =>
    obtain ⟨item, hitem, _⟩ := hrefused
    exact absurd hitem List.not_mem_nil
  | cons item l ih =>
    rw [List.length_cons, readLoop, List.flatMap_cons, List.append_assoc]
    rcases h item List.mem_cons_self with hread | hnone
    · rw [hread, Option.elim_some]
      refine ih (fun item' hitem' => h item' (List.mem_cons_of_mem _ hitem')) ?_ (add s item)
      obtain ⟨item', hitem', hnone⟩ := hrefused
      rcases List.mem_cons.mp hitem' with rfl | hmem
      · have hboth := (hread rest).symm.trans (hnone rest)
        exact absurd hboth (by simp)
      · exact ⟨item', hmem, hnone⟩
    · rw [hnone, Option.elim_none]

/-- What every item that is read keeps, a loop keeps. -/
lemma readLoop_keeps {P : σ → Prop} (hadd : ∀ s data item rest, P s → read data = some (item, rest) → P (add s item))
    (count : ℕ) {s : σ} (hs : P s) (data : Bytes) : P (readLoop read add count s data).1 := by
  induction count generalizing s data with
  | zero => exact hs
  | succ count ih =>
    rw [readLoop]
    rcases hread : read data with _ | ⟨item, rest⟩
    · exact hs
    · exact ih (hadd s data item rest hs hread) rest

end

end DataStream
