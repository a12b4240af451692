import Mathlib.Algebra.Order.BigOperators.Group.List
import Mathlib.Data.List.Induction
import Mathlib.Tactic.Linarith

set_option autoImplicit false

/-!
# Items numbered by running sums

A sender counts what it sends: each item has a count, and its number is the sum of the counts up to and
including it. A receiver that gets the items in another order knows the largest number and the sum of the
counts that it has got. These two agree exactly when nothing below the largest number is missing.

## Main definitions

* `RunningSum.Numbered` — items whose numbers are the running sums of their counts.
* `RunningSum.total`, `RunningSum.top` — the sum of the counts, and the largest number.

## Main results

* `RunningSum.Numbered.below` — the counts of the items up to a number sum up to it.
* `RunningSum.Numbered.total_le_top` — a receiver has never got more than its largest number.
* `RunningSum.Numbered.top_lt` — when the sum has reached the largest number, what is missing is above.
-/

namespace RunningSum

variable {ι : Type*} (num count : ι → ℤ)

/-- Items whose numbers are the running sums of their counts, from a start. -/
def Numbered : ℤ → List ι → Prop
  | _, [] => True
  | start, u :: rest => 0 ≤ count u ∧ num u = start + count u ∧ Numbered (num u) rest

/-- The sum of the counts. -/
def total (items : List ι) : ℤ := (items.map count).sum

/-- The largest number, or the start. -/
def top (start : ℤ) (items : List ι) : ℤ := items.foldl (fun n u => max n (num u)) start

variable {num count}

@[simp] lemma total_nil : total count ([] : List ι) = 0 := rfl

@[simp] lemma total_cons (u : ι) (items : List ι) :
    total count (u :: items) = count u + total count items := by
  simp only [total, List.map_cons, List.sum_cons]

@[simp] lemma total_append (items others : List ι) :
    total count (items ++ others) = total count items + total count others := by
  simp only [total, List.map_append, List.sum_append]

lemma count_le_total {items : List ι} (h : ∀ u ∈ items, 0 ≤ count u) {u : ι} (hu : u ∈ items) :
    count u ≤ total count items := by
  apply List.single_le_sum
  · intro n hn
    obtain ⟨v, hv, rfl⟩ := List.mem_map.mp hn
    exact h v hv
  · exact List.mem_map_of_mem hu

lemma total_perm {items others : List ι} (h : items.Perm others) :
    total count items = total count others :=
  (h.map count).sum_eq

@[simp] lemma top_concat (start : ℤ) (items : List ι) (u : ι) :
    top num start (items ++ [u]) = max (top num start items) (num u) := by
  simp only [top, List.foldl_append, List.foldl_cons, List.foldl_nil]

lemma le_top (start : ℤ) (items : List ι) :
    start ≤ top num start items ∧ ∀ u ∈ items, num u ≤ top num start items := by
  induction items using List.reverseRecOn with
  | nil => exact ⟨le_rfl, by simp⟩
  | append_singleton items u ih =>
    rw [top_concat]
    refine ⟨ih.1.trans (le_max_left _ _), fun v hv => ?_⟩
    rcases List.mem_append.mp hv with hv | hv
    · exact (ih.2 v hv).trans (le_max_left _ _)
    · rw [List.mem_singleton.mp hv]
      exact le_max_right _ _

/-- The largest number is the start or the number of an item. -/
lemma top_cases (start : ℤ) (items : List ι) :
    top num start items = start ∨ ∃ u ∈ items, num u = top num start items := by
  induction items using List.reverseRecOn with
  | nil => exact Or.inl rfl
  | append_singleton items u ih =>
    rw [top_concat]
    rcases le_total (top num start items) (num u) with h | h
    · rw [max_eq_right h]
      exact Or.inr ⟨u, by simp, rfl⟩
    · rw [max_eq_left h]
      rcases ih with ih | ⟨v, hv, ih⟩
      · exact Or.inl ih
      · exact Or.inr ⟨v, List.mem_append_left _ hv, ih⟩

namespace Numbered

variable {start : ℤ} {stream order : List ι}

lemma count_nonneg (h : Numbered num count start stream) : ∀ u ∈ stream, 0 ≤ count u := by
  induction stream generalizing start with
  | nil => simp
  | cons u rest ih => exact List.forall_mem_cons.mpr ⟨h.1, ih h.2.2⟩

lemma start_le (h : Numbered num count start stream) : ∀ u ∈ stream, start + count u ≤ num u := by
  induction stream generalizing start with
  | nil => simp
  | cons u rest ih =>
    obtain ⟨hcount, hnum, hrest⟩ := h
    refine List.forall_mem_cons.mpr ⟨hnum.ge, fun v hv => ?_⟩
    have := ih hrest v hv
    omega

/-- Items that count have numbers of their own. -/
lemma pairwise_ne (h : Numbered num count start stream) :
    stream.Pairwise fun u v => 0 < count u → 0 < count v → num u ≠ num v := by
  induction stream generalizing start with
  | nil => exact List.Pairwise.nil
  | cons u rest ih =>
    refine List.pairwise_cons.mpr ⟨fun v hv _ hpos heq => ?_, ih h.2.2⟩
    have := h.2.2.start_le v hv
    omega

lemma pairwise_ne_of_perm (h : Numbered num count start stream) (hperm : order.Perm stream) :
    order.Pairwise fun u v => 0 < count u → 0 < count v → num u ≠ num v :=
  hperm.symm.pairwise h.pairwise_ne fun hne hv hu => (hne hu hv).symm

/-- **The counts of the items up to a number sum up to it.** -/
theorem below (h : Numbered num count start stream) {n : ℤ} (hle : start ≤ n)
    (hn : n = start ∨ ∃ u ∈ stream, num u = n) :
    start + total count (stream.filter fun u => num u ≤ n) = n := by
  induction stream generalizing start with
  | nil =>
    obtain rfl | ⟨u, hu, -⟩ := hn
    · simp
    · cases hu
  | cons u rest ih =>
    obtain ⟨hcount, hnum, hrest⟩ := h
    by_cases hu : num u ≤ n
    · rw [List.filter_cons_of_pos (by simpa using hu), total_cons]
      have hn' : n = num u ∨ ∃ v ∈ rest, num v = n := by
        rcases hn with rfl | ⟨v, hv, hvn⟩
        · exact Or.inl (by omega)
        · rcases List.mem_cons.mp hv with rfl | hv
          · exact Or.inl hvn.symm
          · exact Or.inr ⟨v, hv, hvn⟩
      have := ih hrest hu hn'
      omega
    · -- the items from here on are all above `n`, so `n` is the start
      have hnone : (u :: rest).filter (fun v => decide (num v ≤ n)) = [] := by
        rw [List.filter_eq_nil_iff]
        intro v hv
        have hvn : num u ≤ num v := by
          rcases List.mem_cons.mp hv with rfl | hv
          · exact le_rfl
          · have := hrest.start_le v hv
            have := hrest.count_nonneg v hv
            omega
        rw [decide_eq_true_eq]
        omega
      rw [hnone, total_nil, add_zero]
      rcases hn with rfl | ⟨v, hv, rfl⟩
      · rfl
      · have hmem : v ∈ (u :: rest).filter (fun w => decide (num w ≤ num v)) :=
          List.mem_filter.mpr ⟨hv, by simp⟩
        rw [hnone] at hmem
        cases hmem

section Received

variable {before after : List ι}

/-- What has been got and what is missing up to the largest number that has been got. -/
lemma received (h : Numbered num count start stream) (hperm : (before ++ after).Perm stream) :
    start + total count before +
      total count (after.filter fun u => num u ≤ top num start before) = top num start before := by
  have hbelow := h.below (le_top start before).1 (by
    have hcases : top num start before = start ∨ ∃ u ∈ before, num u = top num start before :=
      top_cases start before
    rcases hcases with heq | ⟨u, hu, heq⟩
    · exact Or.inl heq
    · exact Or.inr ⟨u, hperm.subset (List.mem_append_left _ hu), heq⟩)
  have hall : before.filter (fun u => decide (num u ≤ top num start before)) = before := by
    rw [List.filter_eq_self]
    intro u hu
    exact decide_eq_true ((le_top start before).2 u hu)
  rw [← total_perm (hperm.filter _), List.filter_append, total_append, hall] at hbelow
  omega

lemma missing_nonneg (h : Numbered num count start stream) (hperm : (before ++ after).Perm stream)
    (p : ι → Bool) : ∀ u ∈ after.filter p, 0 ≤ count u := fun u hu =>
  h.count_nonneg u (hperm.subset (List.mem_append_right _ (List.mem_of_mem_filter hu)))

/-- **When the sum has reached the largest number, what is missing is above it.** -/
theorem top_lt (h : Numbered num count start stream) (hperm : (before ++ after).Perm stream)
    (hclosed : top num start before = start + total count before) {u : ι} (hu : u ∈ after)
    (hpos : 0 < count u) : top num start before < num u := by
  by_contra hle
  have hreceived := h.received hperm
  have hmem : u ∈ after.filter fun v => decide (num v ≤ top num start before) :=
    List.mem_filter.mpr ⟨hu, decide_eq_true (not_lt.mp hle)⟩
  have := count_le_total (h.missing_nonneg hperm _) hmem
  omega

/-- When nothing is missing, the sum has reached the largest number. -/
theorem top_eq (h : Numbered num count start stream) (hperm : order.Perm stream) :
    top num start order = start + total count stream := by
  have hperm' : (order ++ []).Perm stream := by rwa [List.append_nil]
  have hreceived := h.received hperm'
  rw [List.filter_nil, total_nil, add_zero, total_perm hperm] at hreceived
  exact hreceived.symm

end Received

end Numbered

end RunningSum
