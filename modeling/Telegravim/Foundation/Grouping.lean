import Telegravim.Foundation.OrdMap

set_option autoImplicit false

/-!
# Maps of groups

A map whose values are collected from items: an item is added to the value of its key, and the first one of a key
starts the value. A map is collected again from the items of its values, key after key.

## Main definitions

* `OrdMap.collect` — an item added to the value of its key.
* `OrdMap.filterKeys` — the entries with some keys.

## Main results

* `OrdMap.foldl_collect_group` — the items of one new key.
* `OrdMap.foldl_collect_entries` — a map collected from the items of its values.
* `OrdMap.foldl_emplace_entries` — a map made of its own entries.
-/

universe u v w

namespace OrdMap

variable {κ : Type u} {ν : Type v} {ι : Type w} [LinearOrder κ]

/-- An item added to the value of its key; the first one is added to a start. -/
def collect (add : ν → ι → ν) (start : ν) (m : OrdMap κ ν) (p : κ × ι) : OrdMap κ ν :=
  m.insert p.1 (add ((m.find p.1).getD start) p.2)

/-- The entries with some keys. -/
def filterKeys (keep : κ → Bool) (m : OrdMap κ ν) : OrdMap κ ν :=
  ⟨m.entries.filter fun e => keep e.1, m.sorted.filter _⟩

variable {add : ν → ι → ν} {start : ν}

/-- The items of a key that has a value already. -/
lemma foldl_collect_some {m : OrdMap κ ν} {k : κ} {x : ν} (h : m.find k = some x) (items : List ι) :
    (items.map fun item => (k, item)).foldl (collect add start) m = m.insert k (items.foldl add x) := by
  induction items generalizing m x with
  | nil =>
    rw [List.map_nil, List.foldl_nil, List.foldl_nil, insert_find h]
  | cons item items ih =>
    rw [List.map_cons, List.foldl_cons, List.foldl_cons, collect, h, Option.getD_some,
      ih (find_insert_self m k (add x item)), insert_insert]

/-- **The items of one new key** make its value. -/
theorem foldl_collect_group {m : OrdMap κ ν} {k : κ} (h : m.find k = none) {items : List ι} (hne : items ≠ []) :
    (items.map fun item => (k, item)).foldl (collect add start) m = m.insert k (items.foldl add start) := by
  rcases items with _ | ⟨item, items⟩
  · exact absurd rfl hne
  · rw [List.map_cons, List.foldl_cons, List.foldl_cons, collect, h, Option.getD_none,
      foldl_collect_some (find_insert_self m k (add start item)), insert_insert]

/-- Groups with new and distinct keys are inserted one after another. -/
lemma foldl_collect_groups (items : ν → List ι) {l : List (κ × ν)}
    (hl : ∀ e ∈ l, items e.2 ≠ [] ∧ (items e.2).foldl add start = e.2) (hnd : (l.map Prod.fst).Nodup)
    {m : OrdMap κ ν} (hnew : ∀ e ∈ l, m.find e.1 = none) :
    (l.flatMap fun e => (items e.2).map fun item => (e.1, item)).foldl (collect add start) m =
      l.foldl (fun m e => m.insert e.1 e.2) m := by
  induction l generalizing m with
  | nil => rfl
  | cons e l ih =>
    obtain ⟨hne, hnd⟩ := List.nodup_cons.mp hnd
    obtain ⟨hitems, hvalue⟩ := hl e List.mem_cons_self
    rw [List.flatMap_cons, List.foldl_append, foldl_collect_group (hnew e List.mem_cons_self) hitems, hvalue,
      List.foldl_cons]
    refine ih (fun e' he' => hl e' (List.mem_cons_of_mem _ he')) hnd fun e' he' => ?_
    have hkey : e'.1 ≠ e.1 := fun heq => hne (heq ▸ List.mem_map_of_mem he')
    rw [find_insert_of_ne hkey]
    exact hnew e' (List.mem_cons_of_mem _ he')

/-- **A map is collected from the items of its values**, where each value has some and is made of them. -/
theorem foldl_collect_entries (items : ν → List ι) {m : OrdMap κ ν}
    (hm : ∀ e ∈ m.entries, items e.2 ≠ [] ∧ (items e.2).foldl add start = e.2) :
    (m.entries.flatMap fun e => (items e.2).map fun item => (e.1, item)).foldl (collect add start) ∅ = m := by
  rw [foldl_collect_groups items hm m.nodup_keys fun e _ => find_empty e.1]
  exact ofList_entries m

/-- **A map is made of its own entries**, none of which is there before. -/
theorem foldl_emplace_entries (m : OrdMap κ ν) : m.entries.foldl (fun m e => m.emplace e.1 e.2) ∅ = m := by
  suffices h : ∀ (l : List (κ × ν)) (n : OrdMap κ ν), (l.map Prod.fst).Nodup → (∀ e ∈ l, n.find e.1 = none) →
      l.foldl (fun m e => m.emplace e.1 e.2) n = l.foldl (fun m e => m.insert e.1 e.2) n by
    rw [h m.entries ∅ m.nodup_keys fun e _ => find_empty e.1]
    exact ofList_entries m
  intro l
  induction l with
  | nil => exact fun _ _ _ => rfl
  | cons e l ih =>
    intro n hnd hnew
    obtain ⟨hne, hnd⟩ := List.nodup_cons.mp hnd
    rw [List.foldl_cons, List.foldl_cons, emplace_of_find_eq_none (hnew e List.mem_cons_self)]
    refine ih _ hnd fun e' he' => ?_
    have hkey : e'.1 ≠ e.1 := fun heq => hne (heq ▸ List.mem_map_of_mem he')
    rw [find_insert_of_ne hkey]
    exact hnew e' (List.mem_cons_of_mem _ he')

end OrdMap
