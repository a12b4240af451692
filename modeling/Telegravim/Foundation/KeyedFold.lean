import Mathlib.Data.List.Basic

set_option autoImplicit false

/-!
# Folding records that have keys

A state is built from records one after the other. Each record sets what belongs to its key, and some
set nothing. Then a record that no later one overwrites can as well be applied last, and replacing a
record by one with its key is the same as applying the new one to the result.

## Main definitions

* `KeyedFold` — an application of records that only sets what belongs to their keys.

## Main results

* `KeyedFold.foldl_extract` — a record that is not overwritten can be applied last.
* `KeyedFold.foldl_replace` — replacing a record by one with its key.
-/

/-- What holds after a fold exactly when it held before or an element brings it. -/
lemma foldl_iff_exists {σ ν : Type*} {apply : σ → ν → σ} {P : σ → Prop} {Q : ν → Prop}
    (hstep : ∀ s v, P (apply s v) ↔ P s ∨ Q v) (l : List ν) (s : σ) :
    P (l.foldl apply s) ↔ P s ∨ ∃ v ∈ l, Q v := by
  induction l generalizing s with
  | nil => simp
  | cons v l ih =>
    rw [List.foldl_cons, ih, hstep, List.exists_mem_cons_iff, or_assoc]

/-- Records that set what belongs to their keys: different keys do not meet, a key is overwritten, and a
record without a key sets nothing. -/
structure KeyedFold {σ ν κ : Type*} (apply : σ → ν → σ) (key : ν → Option κ) : Prop where
  comm : ∀ s v w k k', key v = some k → key w = some k' → k ≠ k' →
    apply (apply s v) w = apply (apply s w) v
  absorb : ∀ s v w k, key v = some k → key w = some k → apply (apply s v) w = apply s w
  skip : ∀ s v, key v = none → apply s v = s

namespace KeyedFold

variable {σ ν κ : Type*} {apply : σ → ν → σ} {key : ν → Option κ}

/-- A record can be applied after those with other keys. -/
lemma foldl_comm (h : KeyedFold apply key) {v : ν} {k : κ} (hv : key v = some k) {l : List ν}
    (hl : ∀ w ∈ l, key w ≠ some k) (s : σ) : l.foldl apply (apply s v) = apply (l.foldl apply s) v := by
  induction l generalizing s with
  | nil => rfl
  | cons w l ih =>
    have hw := hl w List.mem_cons_self
    have hrest : ∀ x ∈ l, key x ≠ some k := fun x hx => hl x (List.mem_cons_of_mem _ hx)
    rw [List.foldl_cons, List.foldl_cons, ← ih hrest]
    cases hkey : key w with
    | none => rw [h.skip _ w hkey, h.skip _ w hkey]
    | some k' =>
      rw [h.comm s v w k k' hv hkey fun heq => hw (heq ▸ hkey)]

/-- **A record that is not overwritten can be applied last.** -/
theorem foldl_extract (h : KeyedFold apply key) {v : ν} {k : κ} (hv : key v = some k)
    {first rest : List ν} (hrest : ∀ w ∈ rest, key w ≠ some k) (s : σ) :
    (first ++ v :: rest).foldl apply s = apply ((first ++ rest).foldl apply s) v := by
  rw [List.foldl_append, List.foldl_cons, h.foldl_comm hv hrest, List.foldl_append]

/-- **Replacing a record by one with its key** is applying the new one to the result. -/
theorem foldl_replace (h : KeyedFold apply key) {v w : ν} {k : κ} (hw : key w = some k)
    (hv : key v = none ∨ key v = some k) {first rest : List ν} (hrest : ∀ x ∈ rest, key x ≠ some k)
    (s : σ) : (first ++ w :: rest).foldl apply s = apply ((first ++ v :: rest).foldl apply s) w := by
  rw [List.foldl_append, List.foldl_append, List.foldl_cons, List.foldl_cons, h.foldl_comm hw hrest]
  rcases hv with hv | hv
  · rw [h.skip _ v hv]
  · rw [h.foldl_comm hv hrest, h.absorb _ v w k hv hw]

/-- What a single key sets is left alone by records with other keys. -/
lemma foldl_frame {π : Type*} (view : σ → π) {k : κ}
    (hview : ∀ s v, key v ≠ some k → view (apply s v) = view s) {l : List ν}
    (hl : ∀ v ∈ l, key v ≠ some k) (s : σ) : view (l.foldl apply s) = view s := by
  induction l generalizing s with
  | nil => rfl
  | cons v l ih =>
    rw [List.foldl_cons, ih fun w hw => hl w (List.mem_cons_of_mem _ hw),
      hview s v (hl v List.mem_cons_self)]

end KeyedFold
