import Mathlib.Algebra.Order.BigOperators.Group.List
import Mathlib.Tactic.Abel
import Telegravim.Foundation.OrdMap

set_option autoImplicit false

/-!
# Sums over a finite map

The sum of a quantity over the values of an ordered map, and what insertions and removals do to it: the
bookkeeping of a total that is kept beside a map.

## Main definitions

* `OrdMap.sum` — the sum of a quantity over the values.

## Main results

* `OrdMap.sum_insert_of_find_eq_none`, `OrdMap.sum_insert_of_find` — a value is added or replaced.
* `OrdMap.sum_erase_of_find` — a value is taken out.
-/

universe u v w

namespace OrdMap

variable {κ : Type u} {ν : Type v} {M : Type w} [LinearOrder κ] [AddCommGroup M]

/-- The sum of a quantity over the values of a map. -/
def sum (f : ν → M) (m : OrdMap κ ν) : M := (m.entries.map fun e => f e.2).sum

@[simp] lemma sum_empty (f : ν → M) : (∅ : OrdMap κ ν).sum f = 0 := rfl

/-- A value is added. -/
lemma sum_insert_of_find_eq_none {m : OrdMap κ ν} {k : κ} (h : m.find k = none) (f : ν → M) (x : ν) :
    (m.insert k x).sum f = f x + m.sum f := by
  unfold sum
  rw [((entries_insert_perm h x).map fun e => f e.2).sum_eq, List.map_cons, List.sum_cons]

/-- What a key had before it gets a value does not matter. -/
lemma insert_erase (m : OrdMap κ ν) (k : κ) (y : ν) :
    (m.erase k).insert k y = m.insert k y := by
  apply ext_find
  intro k'
  rw [find_insert, find_insert, find_erase]
  split_ifs
  · rfl
  · rfl

/-- **A value is taken out.** -/
lemma sum_erase_of_find {m : OrdMap κ ν} {k : κ} {x : ν} (h : m.find k = some x) (f : ν → M) :
    (m.erase k).sum f = m.sum f - f x := by
  have hnone : (m.erase k).find k = none := by rw [find_erase, if_pos rfl]
  have hback : (m.erase k).insert k x = m := by rw [insert_erase, insert_find h]
  have hsum := sum_insert_of_find_eq_none hnone f x
  rw [hback] at hsum
  rw [hsum]
  abel

/-- **A value is replaced.** -/
lemma sum_insert_of_find {m : OrdMap κ ν} {k : κ} {x : ν} (h : m.find k = some x) (f : ν → M) (y : ν) :
    (m.insert k y).sum f = m.sum f - f x + f y := by
  have hnone : (m.erase k).find k = none := by rw [find_erase, if_pos rfl]
  rw [← insert_erase m k y, sum_insert_of_find_eq_none hnone, sum_erase_of_find h]
  abel

/-- A sum of quantities that are not negative is not negative. -/
lemma sum_nonneg [PartialOrder M] [IsOrderedAddMonoid M] {f : ν → M} {m : OrdMap κ ν}
    (h : ∀ k x, m.find k = some x → 0 ≤ f x) : 0 ≤ m.sum f := by
  refine List.sum_nonneg fun y hy => ?_
  obtain ⟨e, he, rfl⟩ := List.mem_map.mp hy
  exact h e.1 e.2 (find_eq_some_iff.mpr he)

end OrdMap
