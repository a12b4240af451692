import Mathlib.Order.MinMax

set_option autoImplicit false

/-!
# Rectangles of pixels

The class `QRect` of Qt: a rectangle is kept by its first and last pixels, so that an empty one ends before it
begins. The operations treat a rectangle of negative size as one whose sides were swapped.

## Main definitions

* `QRect` — a rectangle, with its size, emptiness and clipping.
* `QRect.intersects`, `QRect.grown` — whether two rectangles have a pixel in common, and a rectangle with margins.
* `QRect.center` — the pixel in the middle, as Qt computes it.

## Main results

* `QRect.intersects_iff` — when two rectangles that are not empty have a pixel in common.
-/

/-- A rectangle by its first and last pixels. -/
structure QRect where
  /-- The first column. -/
  left : ℤ
  /-- The first row. -/
  top : ℤ
  /-- The last column. -/
  right : ℤ
  /-- The last row. -/
  bottom : ℤ
  deriving DecidableEq, Repr

namespace QRect

/-- The rectangle of a position and a size. -/
def ofSize (x y width height : ℤ) : QRect := ⟨x, y, x + width - 1, y + height - 1⟩

/-- The default rectangle. -/
def null : QRect := ofSize 0 0 0 0

/-- The number of columns. -/
def width (r : QRect) : ℤ := r.right - r.left + 1

/-- The number of rows. -/
def height (r : QRect) : ℤ := r.bottom - r.top + 1

/-- A rectangle without pixels. -/
def isEmpty (r : QRect) : Bool := decide (r.right < r.left) || decide (r.bottom < r.top)

/-- A rectangle of size zero. -/
def isNull (r : QRect) : Bool := decide (r.right = r.left - 1) && decide (r.bottom = r.top - 1)

/-- The first of two ends, which are swapped when they are in the wrong order. -/
def first (a b : ℤ) : ℤ := if b < a then b + 1 else a

/-- The last of two ends, which are swapped when they are in the wrong order. -/
def last (a b : ℤ) : ℤ := if b < a then a - 1 else b

/-- The common part of two rectangles. -/
def intersected (r s : QRect) : QRect :=
  if r.isNull || s.isNull then null
  else if last s.left s.right < first r.left r.right ∨ last r.left r.right < first s.left s.right ∨
      last s.top s.bottom < first r.top r.bottom ∨ last r.top r.bottom < first s.top s.bottom then null
  else ⟨max (first r.left r.right) (first s.left s.right), max (first r.top r.bottom) (first s.top s.bottom),
    min (last r.left r.right) (last s.left s.right), min (last r.top r.bottom) (last s.top s.bottom)⟩

/-- Whether two rectangles have a pixel in common. -/
def intersects (r s : QRect) : Bool :=
  if r.isNull || s.isNull then false
  else !(decide (last s.left s.right < first r.left r.right) || decide (last r.left r.right < first s.left s.right) ||
    decide (last s.top s.bottom < first r.top r.bottom) || decide (last r.top r.bottom < first s.top s.bottom))

/-- `marginsAdded`, with the same margin on all sides. -/
def grown (r : QRect) (margin : ℤ) : QRect :=
  ⟨r.left - margin, r.top - margin, r.right + margin, r.bottom + margin⟩

/-- The pixel in the middle: half of the sum of the ends, rounded towards zero. -/
def center (r : QRect) : ℤ × ℤ := ((r.left + r.right).tdiv 2, (r.top + r.bottom).tdiv 2)

/-- A pixel of a rectangle that is not empty. -/
def Contains (r : QRect) (p : ℤ × ℤ) : Prop := r.left ≤ p.1 ∧ p.1 ≤ r.right ∧ r.top ≤ p.2 ∧ p.2 ≤ r.bottom

instance (r : QRect) (p : ℤ × ℤ) : Decidable (r.Contains p) := inferInstanceAs (Decidable (_ ∧ _ ∧ _ ∧ _))

variable {r s : QRect}

lemma isEmpty_eq_false_iff : r.isEmpty = false ↔ r.left ≤ r.right ∧ r.top ≤ r.bottom := by
  unfold isEmpty
  rw [Bool.or_eq_false_iff, decide_eq_false_iff_not, decide_eq_false_iff_not]
  omega

lemma isEmpty_eq_true_iff : r.isEmpty = true ↔ r.right < r.left ∨ r.bottom < r.top := by
  unfold isEmpty
  rw [Bool.or_eq_true, decide_eq_true_eq, decide_eq_true_eq]

lemma isNull_of_isEmpty_eq_false (h : r.isEmpty = false) : r.isNull = false := by
  have hr := isEmpty_eq_false_iff.mp h
  unfold isNull
  rw [Bool.and_eq_false_iff, decide_eq_false_iff_not, decide_eq_false_iff_not]
  omega

lemma isEmpty_null : null.isEmpty = true := by decide

/-- The ends of a rectangle that is not empty are in their order. -/
lemma first_of_le {a b : ℤ} (h : a ≤ b) : first a b = a := if_neg (by omega)

lemma last_of_le {a b : ℤ} (h : a ≤ b) : last a b = b := if_neg (by omega)

/-- **When two rectangles that are not empty have a pixel in common.** -/
lemma intersects_iff (hr : r.isEmpty = false) (hs : s.isEmpty = false) :
    r.intersects s = true ↔
      r.left ≤ s.right ∧ s.left ≤ r.right ∧ r.top ≤ s.bottom ∧ s.top ≤ r.bottom := by
  have hr' := isEmpty_eq_false_iff.mp hr
  have hs' := isEmpty_eq_false_iff.mp hs
  unfold intersects
  rw [isNull_of_isEmpty_eq_false hr, isNull_of_isEmpty_eq_false hs, first_of_le hr'.1, first_of_le hr'.2,
    first_of_le hs'.1, first_of_le hs'.2, last_of_le hr'.1, last_of_le hr'.2, last_of_le hs'.1, last_of_le hs'.2]
  simp only [Bool.or_self, Bool.false_eq_true, if_false, Bool.not_eq_true', Bool.or_eq_false_iff,
    decide_eq_false_iff_not]
  omega

lemma isEmpty_grown (h : r.isEmpty = false) {margin : ℤ} (hmargin : 0 ≤ margin) : (r.grown margin).isEmpty = false := by
  have hr := isEmpty_eq_false_iff.mp h
  refine isEmpty_eq_false_iff.mpr ?_
  unfold grown
  dsimp only
  omega

/-- Margins may be added to either of two rectangles. -/
lemma grown_intersects_comm (hr : r.isEmpty = false) (hs : s.isEmpty = false) {margin : ℤ} (hmargin : 0 ≤ margin) :
    (r.grown margin).intersects s = (s.grown margin).intersects r := by
  rw [Bool.eq_iff_iff, intersects_iff (isEmpty_grown hr hmargin) hs, intersects_iff (isEmpty_grown hs hmargin) hr]
  unfold grown
  dsimp only
  omega

lemma isEmpty_ofSize {x y width height : ℤ} :
    (ofSize x y width height).isEmpty = false ↔ 0 < width ∧ 0 < height := by
  rw [isEmpty_eq_false_iff]
  unfold ofSize
  dsimp only
  omega

end QRect
