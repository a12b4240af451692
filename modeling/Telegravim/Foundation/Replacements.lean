import Mathlib.Data.List.Basic
import Mathlib.Data.List.GetD
import Mathlib.Algebra.Order.Ring.Int

set_option autoImplicit false

/-!
# Replacing parts of a list

Disjoint parts of a list, in order, are replaced by other lists. The elements outside these
parts move by the growth of the parts before them, and a range of the old list becomes a range
of the new one: its ends are mapped separately, an end inside a replaced part to the nearer end
of the replacement that keeps the whole of it in the range.

## Main definitions

* `Replacement`, `Replacement.Placed` — a replaced part, and parts in order without overlap.
* `Replacement.spliced` — the list with the parts replaced.
* `Replacement.Kept`, `Replacement.moved` — the positions outside the parts, and where they go.
* `Replacement.mapped` — where the ends of a range go.

## Main results

* `Replacement.length_spliced`, `Replacement.getElem?_spliced_moved`,
  `Replacement.getElem?_spliced_placed` — the length and the elements of the new list.
* `Replacement.exists_source` — each new position is a moved one or belongs to a replacement.
* `Replacement.mapped_le_moved_iff`, `Replacement.moved_lt_mapped_iff` — a moved position is in
  the new range exactly when it was in the old one.
* `Replacement.mapped_le_placed_iff`, `Replacement.placed_lt_mapped_iff` — a replacement is in
  the new range exactly when the old one overlaps the replaced part.
-/

/-- A part of a list, and what stands in its place. -/
structure Replacement (α : Type*) where
  start : ℕ
  length : ℕ
  text : List α

namespace Replacement

variable {α : Type*}

/-- The end of the replaced part. -/
def finish (r : Replacement α) : ℕ := r.start + r.length

/-- By how much the list grows. -/
def growth (r : Replacement α) : ℤ := (r.text.length : ℤ) - r.length

/-- By how much the list grows through several replacements. -/
def totalGrowth (rs : List (Replacement α)) : ℤ := (rs.map growth).sum

@[simp] lemma totalGrowth_nil : totalGrowth ([] : List (Replacement α)) = 0 := rfl

@[simp] lemma totalGrowth_cons (r : Replacement α) (rs : List (Replacement α)) :
    totalGrowth (r :: rs) = r.growth + totalGrowth rs := by
  simp [totalGrowth]

/-- The replaced parts are not empty, follow each other and lie between two positions. -/
def Placed : ℕ → ℕ → List (Replacement α) → Prop
  | first, last, [] => first ≤ last
  | first, last, r :: rs => first ≤ r.start ∧ 0 < r.length ∧ Placed r.finish last rs

/-- The list from a position on, with the parts replaced. -/
def spliced (xs : List α) : ℕ → List (Replacement α) → List α
  | position, [] => xs.drop position
  | position, r :: rs =>
    (xs.drop position).take (r.start - position) ++ r.text ++ spliced xs r.finish rs

/-- The positions outside the replaced parts. -/
def Kept (rs : List (Replacement α)) (i : ℕ) : Prop := ∀ r ∈ rs, i < r.start ∨ r.finish ≤ i

/-- Where a position outside the parts, or the start of a part, goes. -/
def moved : List (Replacement α) → ℤ → ℤ
  | [], p => p
  | r :: rs, p => (if (r.start : ℤ) < p then r.growth else 0) + moved rs p

/-- Where the start of a range goes, or its end: one inside a replaced part goes to the start,
or the end, of the replacement. -/
def mapped (atEnd : Bool) : List (Replacement α) → ℤ → ℤ
  | [], p => p
  | r :: rs, p =>
    if p ≤ r.start then p
    else if p < r.finish then r.start + (if atEnd then (r.text.length : ℤ) else 0)
    else r.growth + mapped atEnd rs p

/-! ### Placement -/

lemma Placed.first_le {rs : List (Replacement α)} :
    ∀ {first last : ℕ}, Placed first last rs → first ≤ last := by
  induction rs with
  | nil => intro first last h; exact h
  | cons r rs ih =>
    intro first last h
    have := ih h.2.2
    have := h.1
    simp only [finish] at *
    omega

lemma Placed.mono {rs : List (Replacement α)} {first first' last : ℕ} (h : Placed first last rs)
    (hle : first' ≤ first) : Placed first' last rs := by
  cases rs with
  | nil => exact hle.trans h
  | cons r rs => exact ⟨hle.trans h.1, h.2⟩

/-- The new list keeps the room before the first replaced part. -/
lemma Placed.first_le_grown {rs : List (Replacement α)} :
    ∀ {first last : ℕ}, Placed first last rs → (first : ℤ) ≤ last + totalGrowth rs := by
  induction rs with
  | nil => intro first last h; simpa [Placed] using h
  | cons r rs ih =>
    intro first last h
    have hrest := ih h.2.2
    have hfirst := h.1
    rw [totalGrowth_cons]
    simp only [growth, finish] at *
    omega

lemma Placed.le_start {rs : List (Replacement α)} :
    ∀ {first last : ℕ}, Placed first last rs → ∀ r ∈ rs, first ≤ r.start := by
  induction rs with
  | nil => intro _ _ _ r hr; cases hr
  | cons r rs ih =>
    intro first last h s hs
    rcases List.mem_cons.1 hs with rfl | hs
    · exact h.1
    · have h₁ := ih h.2.2 s hs
      have h₂ := h.1
      simp only [finish] at h₁
      omega

/-! ### Moved positions -/

lemma moved_of_le {rs : List (Replacement α)} {p : ℤ} (h : ∀ r ∈ rs, p ≤ r.start) :
    moved rs p = p := by
  induction rs with
  | nil => rfl
  | cons r rs ih =>
    have hr : ¬ (r.start : ℤ) < p := not_lt.2 (h r List.mem_cons_self)
    simp [moved, hr, ih fun s hs => h s (List.mem_cons_of_mem _ hs)]

/-- Before the first replaced part nothing moves. -/
lemma Placed.moved_eq {rs : List (Replacement α)} {first last : ℕ} (h : Placed first last rs)
    {p : ℤ} (hp : p ≤ first) : moved rs p = p :=
  moved_of_le fun r hr => by have := h.le_start r hr; omega

/-- A kept position moves no lower than the first position. -/
lemma Placed.le_moved {rs : List (Replacement α)} :
    ∀ {first last : ℕ}, Placed first last rs → ∀ {i : ℕ}, first ≤ i → Kept rs i →
      (first : ℤ) ≤ moved rs i := by
  induction rs with
  | nil => intro first last _ i hi _; simpa [moved] using hi
  | cons r rs ih =>
    intro first last h i hi hkept
    have hfirst := h.1
    rcases hkept r List.mem_cons_self with hlt | hge
    · rw [moved, if_neg (by omega), h.2.2.moved_eq (by simp only [finish]; omega)]
      omega
    · have hrest := ih h.2.2 hge fun s hs => hkept s (List.mem_cons_of_mem _ hs)
      have hlength := h.2.1
      simp only [finish] at hge hrest
      rw [moved, if_pos (by omega)]
      simp only [growth]
      omega

/-- The start of a replaced part moves no lower than the first position. -/
lemma Placed.le_moved_start {rs : List (Replacement α)} :
    ∀ {first last : ℕ}, Placed first last rs → ∀ r ∈ rs, (first : ℤ) ≤ moved rs r.start := by
  induction rs with
  | nil => intro _ _ _ r hr; cases hr
  | cons s rs ih =>
    intro first last h r hr
    have hfirst := h.1
    rcases List.mem_cons.1 hr with rfl | hr
    · rw [moved, if_neg (lt_irrefl _), h.2.2.moved_eq (by simp only [finish]; omega)]
      omega
    · have hrest := ih h.2.2 r hr
      have hstart := h.2.2.le_start r hr
      have hlength := h.2.1
      simp only [finish] at hrest hstart
      rw [moved, if_pos (by omega)]
      simp only [growth]
      omega

/-! ### The new list -/

lemma length_spliced {xs : List α} {rs : List (Replacement α)} :
    ∀ {first : ℕ}, Placed first xs.length rs →
      ((spliced xs first rs).length : ℤ) = xs.length - first + totalGrowth rs := by
  induction rs with
  | nil =>
    intro first h
    have hle : first ≤ xs.length := h
    rw [spliced, List.length_drop, totalGrowth_nil]
    omega
  | cons r rs ih =>
    intro first h
    have hrest := ih h.2.2
    have hle := h.2.2.first_le
    have hfirst := h.1
    rw [spliced, List.length_append, List.length_append, List.length_take, List.length_drop,
      totalGrowth_cons]
    simp only [finish, growth] at *
    omega

/-- Before the first replaced part the list is the old one. -/
lemma spliced_eq_take_append {xs : List α} {rs : List (Replacement α)} {position k : ℕ}
    (h : Placed (position + k) xs.length rs) :
    spliced xs position rs = (xs.drop position).take k ++ spliced xs (position + k) rs := by
  cases rs with
  | nil => rw [spliced, spliced, ← List.drop_drop, List.take_append_drop]
  | cons r rs =>
    have hstart := h.1
    have hsplit : r.start - position = k + (r.start - (position + k)) := by omega
    rw [spliced, spliced, hsplit, List.take_add, List.drop_drop]
    simp only [List.append_assoc]

/-- **The kept elements** stand where their positions move. -/
lemma getElem?_spliced_moved {xs : List α} {rs : List (Replacement α)} :
    ∀ {first : ℕ}, Placed first xs.length rs → ∀ {i : ℕ}, first ≤ i → i < xs.length → Kept rs i →
      (spliced xs first rs)[(moved rs i - first).toNat]? = xs[i]? := by
  induction rs with
  | nil =>
    intro first _ i hi _ _
    rw [spliced, moved, List.getElem?_drop, show first + ((i : ℤ) - first).toNat = i by omega]
  | cons r rs ih =>
    intro first h i hi hlt hkept
    have hfirst := h.1
    have hfinish := h.2.2.first_le
    simp only [finish] at hfinish
    have hblock : ((xs.drop first).take (r.start - first)).length = r.start - first := by
      rw [List.length_take, List.length_drop]; omega
    rcases hkept r List.mem_cons_self with hbefore | hafter
    · rw [moved, if_neg (by omega), h.2.2.moved_eq (by simp only [finish]; omega), spliced,
        List.append_assoc, List.getElem?_append_left (by rw [hblock]; omega),
        List.getElem?_take_of_lt (by omega), List.getElem?_drop,
        show first + (0 + (i : ℤ) - first).toNat = i by omega]
    · have hkept' : Kept rs i := fun s hs => hkept s (List.mem_cons_of_mem _ hs)
      have hrest := ih h.2.2 hafter hlt hkept'
      have hle := h.2.2.le_moved hafter hkept'
      have hlength := h.2.1
      simp only [finish] at hafter hrest hle
      rw [moved, if_pos (by omega), spliced, List.getElem?_append_right
        (by rw [List.length_append, hblock]; simp only [growth]; omega), ← hrest]
      congr 1
      rw [List.length_append, hblock]
      simp only [growth]
      omega

/-- **The replacements** stand where the starts of their parts move. -/
lemma getElem?_spliced_placed {xs : List α} {rs : List (Replacement α)} :
    ∀ {first : ℕ}, Placed first xs.length rs → ∀ r ∈ rs, ∀ k < r.text.length,
      (spliced xs first rs)[(moved rs r.start + k - first).toNat]? = r.text[k]? := by
  induction rs with
  | nil => intro _ _ r hr; cases hr
  | cons s rs ih =>
    intro first h r hr k hk
    have hfirst := h.1
    have hfinish := h.2.2.first_le
    simp only [finish] at hfinish
    have hblock : ((xs.drop first).take (s.start - first)).length = s.start - first := by
      rw [List.length_take, List.length_drop]; omega
    rcases List.mem_cons.1 hr with rfl | hr
    · rw [moved, if_neg (lt_irrefl _), h.2.2.moved_eq (by simp only [finish]; omega), spliced,
        List.getElem?_append_left (by rw [List.length_append, hblock]; omega),
        List.getElem?_append_right (by rw [hblock]; omega), hblock]
      congr 1
      omega
    · have hrest := ih h.2.2 r hr k hk
      have hle := h.2.2.le_moved_start r hr
      have hstart := h.2.2.le_start r hr
      have hlength := h.2.1
      simp only [finish] at hrest hle hstart
      rw [moved, if_pos (by omega), spliced, List.getElem?_append_right
        (by rw [List.length_append, hblock]; simp only [growth]; omega), ← hrest]
      congr 1
      rw [List.length_append, hblock]
      simp only [growth]
      omega

/-- **Every position of the new list** is that of a kept element or of a replacement. -/
lemma exists_source {rs : List (Replacement α)} :
    ∀ {first last : ℕ}, Placed first last rs → ∀ {p : ℤ}, first ≤ p → p < last + totalGrowth rs →
      (∃ i : ℕ, first ≤ i ∧ i < last ∧ Kept rs i ∧ moved rs i = p) ∨
        ∃ r ∈ rs, ∃ k < r.text.length, moved rs r.start + k = p := by
  induction rs with
  | nil =>
    intro first last _ p hp hlt
    rw [totalGrowth_nil] at hlt
    refine .inl ⟨p.toNat, by omega, by omega, fun r hr => ?_, ?_⟩
    · cases hr
    · rw [moved]; omega
  | cons r rs ih =>
    intro first last h p hp hlt
    have hfirst := h.1
    have hlength := h.2.1
    have hfinish := h.2.2.first_le
    rw [totalGrowth_cons] at hlt
    rcases lt_or_ge p r.start with hbefore | hge
    · -- before the first replaced part
      refine .inl ⟨p.toNat, by omega, by simp only [finish] at hfinish; omega, ?_, ?_⟩
      · intro s hs
        rcases List.mem_cons.1 hs with rfl | hs
        · exact .inl (by omega)
        · have := h.2.2.le_start s hs
          simp only [finish] at this
          exact .inl (by omega)
      · rw [moved, if_neg (by omega), h.2.2.moved_eq (by simp only [finish]; omega)]
        omega
    rcases lt_or_ge p (r.start + r.text.length) with hinside | hafter
    · -- in the first replacement
      refine .inr ⟨r, List.mem_cons_self, (p - r.start).toNat, by omega, ?_⟩
      rw [moved, if_neg (lt_irrefl _), h.2.2.moved_eq (by simp only [finish]; omega)]
      omega
    · -- after it, where the rest has moved by its growth
      have hp' : (r.finish : ℤ) ≤ p - r.growth := by simp only [finish, growth]; omega
      rcases ih h.2.2 hp' (by omega) with ⟨i, hi, hlast, hkept, hmoved⟩ | ⟨s, hs, k, hk, hmoved⟩
      · simp only [finish] at hi
        refine .inl ⟨i, by omega, hlast, ?_, ?_⟩
        · intro s hs
          rcases List.mem_cons.1 hs with rfl | hs
          · exact .inr hi
          · exact hkept s hs
        · rw [moved, if_pos (by omega), hmoved]
          omega
      · have hstart := h.2.2.le_start s hs
        simp only [finish] at hstart
        refine .inr ⟨s, List.mem_cons_of_mem _ hs, k, hk, ?_⟩
        rw [moved, if_pos (by omega)]
        omega

/-! ### Mapped ends of ranges -/

lemma mapped_false_cons (r : Replacement α) (rs : List (Replacement α)) (p : ℤ) :
    mapped false (r :: rs) p =
      if p ≤ r.start then p else if p < r.finish then r.start else r.growth + mapped false rs p := by
  simp [mapped]

lemma mapped_true_cons (r : Replacement α) (rs : List (Replacement α)) (p : ℤ) :
    mapped true (r :: rs) p =
      if p ≤ r.start then p else if p < r.finish then r.start + (r.text.length : ℤ)
      else r.growth + mapped true rs p := by
  simp [mapped]

/-- The end of a range moves no lower than the first position. -/
lemma Placed.le_mapped {rs : List (Replacement α)} (atEnd : Bool) :
    ∀ {first last : ℕ}, Placed first last rs → ∀ {p : ℤ}, first ≤ p →
      first ≤ mapped atEnd rs p := by
  induction rs with
  | nil => intro first last _ p hp; exact hp
  | cons r rs ih =>
    intro first last h p hp
    have hfirst := h.1
    rw [mapped]
    split_ifs with hbefore hinside
    · exact hp
    · omega
    · omega
    · have hrest := ih h.2.2 (not_lt.1 hinside)
      simp only [finish, growth] at *
      omega

/-- The end of a range stays inside the new list. -/
lemma Placed.mapped_le {rs : List (Replacement α)} (atEnd : Bool) :
    ∀ {first last : ℕ}, Placed first last rs → ∀ {p : ℤ}, p ≤ last →
      mapped atEnd rs p ≤ last + totalGrowth rs := by
  induction rs with
  | nil => intro first last _ p hp; simpa [mapped] using hp
  | cons r rs ih =>
    intro first last h p hp
    have hgrown := h.2.2.first_le_grown
    have hlength := h.2.1
    rw [mapped, totalGrowth_cons]
    split_ifs with hbefore hinside
    · simp only [finish, growth] at *; omega
    · simp only [finish, growth] at *; omega
    · simp only [finish, growth] at *; omega
    · have hrest := ih h.2.2 hp
      omega

/-- **The start of a range and a kept position** keep their order. -/
lemma mapped_le_moved_iff {rs : List (Replacement α)} :
    ∀ {first last : ℕ}, Placed first last rs → ∀ {i : ℕ}, Kept rs i → ∀ {a : ℤ},
      mapped false rs a ≤ moved rs i ↔ a ≤ i := by
  induction rs with
  | nil => intro _ _ _ i _ a; rfl
  | cons r rs ih =>
    intro first last h i hkept a
    have hkept' : Kept rs i := fun s hs => hkept s (List.mem_cons_of_mem _ hs)
    have hlength := h.2.1
    rcases hkept r List.mem_cons_self with hbefore | hafter
    · have hmoved : moved (r :: rs) i = i := by
        rw [moved, if_neg (by omega), h.2.2.moved_eq (by simp only [finish]; omega), zero_add]
      rw [hmoved, mapped_false_cons]
      split_ifs with h₁ h₂
      · rfl
      · simp only [finish] at h₂; omega
      · have hle := h.2.2.le_mapped false (not_lt.1 h₂)
        simp only [finish, growth] at *
        omega
    · have hle := h.2.2.le_moved hafter hkept'
      have hrest := ih h.2.2 hkept' (a := a)
      simp only [finish] at hafter hle
      rw [moved, if_pos (by omega), mapped_false_cons]
      split_ifs with h₁ h₂
      · simp only [growth]; omega
      · simp only [finish, growth] at *; omega
      · omega

/-- **The end of a range and a kept position** keep their order. -/
lemma moved_lt_mapped_iff {rs : List (Replacement α)} :
    ∀ {first last : ℕ}, Placed first last rs → ∀ {i : ℕ}, Kept rs i → ∀ {b : ℤ},
      moved rs i < mapped true rs b ↔ i < b := by
  induction rs with
  | nil => intro _ _ _ i _ b; rfl
  | cons r rs ih =>
    intro first last h i hkept b
    have hkept' : Kept rs i := fun s hs => hkept s (List.mem_cons_of_mem _ hs)
    have hlength := h.2.1
    rcases hkept r List.mem_cons_self with hbefore | hafter
    · have hmoved : moved (r :: rs) i = i := by
        rw [moved, if_neg (by omega), h.2.2.moved_eq (by simp only [finish]; omega), zero_add]
      rw [hmoved, mapped_true_cons]
      split_ifs with h₁ h₂
      · rfl
      · omega
      · have hle := h.2.2.le_mapped true (not_lt.1 h₂)
        simp only [finish, growth] at *
        omega
    · have hle := h.2.2.le_moved hafter hkept'
      have hrest := ih h.2.2 hkept' (b := b)
      simp only [finish] at hafter hle
      rw [moved, if_pos (by omega), mapped_true_cons]
      split_ifs with h₁ h₂
      · simp only [growth]; omega
      · simp only [finish, growth] at *; omega
      · omega

/-- **The start of a range and a replacement**: a replacement is at or after the new start when
the replaced part ends after the old one. -/
lemma mapped_le_placed_iff {rs : List (Replacement α)} :
    ∀ {first last : ℕ}, Placed first last rs → ∀ r ∈ rs, ∀ k < r.text.length, ∀ {a : ℤ},
      mapped false rs a ≤ moved rs r.start + k ↔ a < r.finish := by
  induction rs with
  | nil => intro _ _ _ r hr; cases hr
  | cons s rs ih =>
    intro first last h r hr k hk a
    have hlength := h.2.1
    rcases List.mem_cons.1 hr with rfl | hr
    · have hmoved : moved (r :: rs) r.start = r.start := by
        rw [moved, if_neg (lt_irrefl _), h.2.2.moved_eq (by simp only [finish]; omega), zero_add]
      rw [hmoved, mapped_false_cons]
      split_ifs with h₁ h₂
      · simp only [finish]; omega
      · simp only [finish] at *; omega
      · have hle := h.2.2.le_mapped false (not_lt.1 h₂)
        simp only [finish, growth] at *
        omega
    · have hle := h.2.2.le_moved_start r hr
      have hstart := h.2.2.le_start r hr
      have hrest := ih h.2.2 r hr k hk (a := a)
      simp only [finish] at hstart hle
      rw [moved, if_pos (by omega), mapped_false_cons]
      split_ifs with h₁ h₂
      · simp only [finish, growth]; omega
      · simp only [finish, growth] at *; omega
      · omega

/-- **The end of a range and a replacement**: a replacement is before the new end when the
replaced part starts before the old one. -/
lemma placed_lt_mapped_iff {rs : List (Replacement α)} :
    ∀ {first last : ℕ}, Placed first last rs → ∀ r ∈ rs, ∀ k < r.text.length, ∀ {b : ℤ},
      moved rs r.start + k < mapped true rs b ↔ r.start < b := by
  induction rs with
  | nil => intro _ _ _ r hr; cases hr
  | cons s rs ih =>
    intro first last h r hr k hk b
    have hlength := h.2.1
    rcases List.mem_cons.1 hr with rfl | hr
    · have hmoved : moved (r :: rs) r.start = r.start := by
        rw [moved, if_neg (lt_irrefl _), h.2.2.moved_eq (by simp only [finish]; omega), zero_add]
      rw [hmoved, mapped_true_cons]
      split_ifs with h₁ h₂
      · omega
      · omega
      · have hle := h.2.2.le_mapped true (not_lt.1 h₂)
        simp only [finish, growth] at *
        omega
    · have hle := h.2.2.le_moved_start r hr
      have hstart := h.2.2.le_start r hr
      have hrest := ih h.2.2 r hr k hk (b := b)
      simp only [finish] at hstart hle
      rw [moved, if_pos (by omega), mapped_true_cons]
      split_ifs with h₁ h₂
      · simp only [growth]; omega
      · simp only [finish, growth] at *; omega
      · omega

end Replacement
