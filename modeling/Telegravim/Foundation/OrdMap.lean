import Mathlib.Data.List.Sort
import Mathlib.Tactic.Cases

set_option autoImplicit false

/-!
# Ordered finite maps

A finite map kept as a list of entries with strictly increasing keys: the common shape of an
ordered dictionary whose iteration visits the keys in order. The order of the entries is part
of the type, so a map is determined by its lookups (`OrdMap.ext_find`) and every operation
keeps the keys sorted by construction.

## Main definitions

* `OrdMap` — entries with strictly increasing keys.
* `OrdMap.find`, `OrdMap.insert`, `OrdMap.emplace`, `OrdMap.erase` — lookup, overwriting
  insertion, insertion that keeps an existing value, removal.
* `OrdMap.mapValues`, `OrdMap.ofList` — value-wise image, and construction from any list.
* `OrdMap.tryMap` — value-wise image under a function that may fail.

## Main results

* `OrdMap.ext_find` — two maps with the same lookups are equal.
* `OrdMap.find_insert`, `OrdMap.find_erase` — lookups after an update.
* `OrdMap.insert_find`, `OrdMap.erase_insert` — updates that change nothing.
-/

universe u v w

/-- A finite map from `κ` to `ν`, as entries with strictly increasing keys. -/
structure OrdMap (κ : Type u) (ν : Type v) [LinearOrder κ] where
  /-- The entries, in the order of their keys. -/
  entries : List (κ × ν)
  /-- The keys increase strictly. -/
  sorted : entries.Pairwise fun a b => a.1 < b.1

namespace OrdMap

variable {κ : Type u} {ν : Type v} {μ : Type w} [LinearOrder κ]

/-! ### Entry lists -/

/-- Insertion into sorted entries, replacing the entry with the same key. -/
def insertEntry (k : κ) (x : ν) : List (κ × ν) → List (κ × ν)
  | [] => [(k, x)]
  | e :: l =>
    if k < e.1 then (k, x) :: e :: l
    else if k = e.1 then (k, x) :: l
    else e :: insertEntry k x l

/-- An entry of the list after an insertion is the new one or an old one. -/
lemma mem_insertEntry {k : κ} {x : ν} {e : κ × ν} {l : List (κ × ν)}
    (h : e ∈ insertEntry k x l) : e = (k, x) ∨ e ∈ l := by
  induction l with
  | nil => simpa [insertEntry] using h
  | cons d l ih =>
    unfold insertEntry at h
    split_ifs at h with h1 h2
    · simpa using h
    · rcases List.mem_cons.mp h with h | h
      · exact Or.inl h
      · exact Or.inr (List.mem_cons_of_mem _ h)
    · rcases List.mem_cons.mp h with h | h
      · exact Or.inr (h ▸ List.mem_cons_self)
      · rcases ih h with h | h
        · exact Or.inl h
        · exact Or.inr (List.mem_cons_of_mem _ h)

/-- Insertion keeps the keys strictly increasing. -/
lemma insertEntry_sorted (k : κ) (x : ν) {l : List (κ × ν)}
    (h : l.Pairwise fun a b => a.1 < b.1) :
    (insertEntry k x l).Pairwise fun a b => a.1 < b.1 := by
  induction l with
  | nil => simp [insertEntry]
  | cons d l ih =>
    obtain ⟨hd, hl⟩ := List.pairwise_cons.mp h
    unfold insertEntry
    split_ifs with h1 h2
    · refine List.pairwise_cons.mpr ⟨fun e he => ?_, h⟩
      rcases List.mem_cons.mp he with he | he
      · rw [he]; exact h1
      · exact h1.trans (hd e he)
    · exact List.pairwise_cons.mpr ⟨fun e he => h2 ▸ hd e he, hl⟩
    · refine List.pairwise_cons.mpr ⟨fun e he => ?_, ih hl⟩
      rcases mem_insertEntry he with he | he
      · rw [he]
        exact lt_of_le_of_ne (not_lt.mp h1) (Ne.symm h2)
      · exact hd e he

/-- Lookup in a nonempty entry list. -/
lemma lookup_cons_ite (k d : κ) (y : ν) (l : List (κ × ν)) :
    ((d, y) :: l).lookup k = if k = d then some y else l.lookup k := by
  rw [List.lookup_cons]
  by_cases h : k = d
  · simp [h]
  · rw [if_neg h, beq_eq_false_iff_ne.mpr h]

/-- Lookup after an insertion. Sortedness is not needed: the insertion replaces the first
entry with its key, and stops before a larger one only when it has not met its key. -/
lemma lookup_insertEntry (k k' : κ) (x : ν) (l : List (κ × ν)) :
    (insertEntry k x l).lookup k' = if k' = k then some x else l.lookup k' := by
  induction l with
  | nil => simp only [insertEntry, lookup_cons_ite, List.lookup_nil]
  | cons e l ih =>
    obtain ⟨d, y⟩ := e
    by_cases h1 : k < d
    · simp only [insertEntry, if_pos h1, lookup_cons_ite]
    by_cases h2 : k = d
    · subst h2
      simp only [insertEntry, if_neg h1, lookup_cons_ite, if_true]
      split_ifs <;> rfl
    · simp only [insertEntry, if_neg h1, if_neg h2, lookup_cons_ite, ih]
      split_ifs with h3 h4 <;> first | rfl | exact absurd (h4.symm.trans h3) h2

/-! ### Maps -/

/-- The value of a key. -/
def find (m : OrdMap κ ν) (k : κ) : Option ν := m.entries.lookup k

/-- Whether a key has a value. -/
def contains (m : OrdMap κ ν) (k : κ) : Bool := (m.find k).isSome

/-- The map without entries. -/
def empty : OrdMap κ ν := ⟨[], List.Pairwise.nil⟩

instance : EmptyCollection (OrdMap κ ν) := ⟨empty⟩

instance : Inhabited (OrdMap κ ν) := ⟨empty⟩

instance [DecidableEq ν] : DecidableEq (OrdMap κ ν) := fun a b =>
  decidable_of_iff (a.entries = b.entries) (by cases a; cases b; simp)

/-- Give a key a value, replacing an earlier one. -/
def insert (m : OrdMap κ ν) (k : κ) (x : ν) : OrdMap κ ν :=
  ⟨insertEntry k x m.entries, insertEntry_sorted k x m.sorted⟩

/-- Give a key a value unless it has one. -/
def emplace (m : OrdMap κ ν) (k : κ) (x : ν) : OrdMap κ ν :=
  if m.contains k then m else m.insert k x

/-- Remove a key. -/
def erase (m : OrdMap κ ν) (k : κ) : OrdMap κ ν :=
  ⟨m.entries.filter fun e => e.1 ≠ k, m.sorted.filter _⟩

/-- The keys, in order. -/
def keys (m : OrdMap κ ν) : List κ := m.entries.map Prod.fst

/-- The values, in the order of their keys. -/
def values (m : OrdMap κ ν) : List ν := m.entries.map Prod.snd

/-- Change every value, knowing its key. -/
def mapValues (f : κ → ν → μ) (m : OrdMap κ ν) : OrdMap κ μ :=
  ⟨m.entries.map fun e => (e.1, f e.1 e.2),
    List.pairwise_map.mpr (by simpa using m.sorted)⟩

/-- The map of a list of entries, a later entry replacing an earlier one with its key. -/
def ofList (l : List (κ × ν)) : OrdMap κ ν :=
  l.foldl (fun m e => m.insert e.1 e.2) ∅

/-- Rename every key and change every value. -/
def image {κ' : Type w} [LinearOrder κ'] (key : κ → κ') (value : κ → ν → μ) (m : OrdMap κ ν) :
    OrdMap κ' μ :=
  ofList (m.entries.map fun e => (key e.1, value e.1 e.2))

/-- The keys of a map are pairwise distinct. -/
lemma nodup_keys (m : OrdMap κ ν) : m.keys.Nodup :=
  List.pairwise_map.mpr (m.sorted.imp fun h => ne_of_lt h)

/-- Lookups are the membership of entries. -/
lemma find_eq_some_iff {m : OrdMap κ ν} {k : κ} {x : ν} :
    m.find k = some x ↔ (k, x) ∈ m.entries := by
  obtain ⟨l, hl⟩ := m
  simp only [find]
  induction l with
  | nil => simp
  | cons d l ih =>
    obtain ⟨d, y⟩ := d
    obtain ⟨hd, hl⟩ := List.pairwise_cons.mp hl
    rw [lookup_cons_ite]
    by_cases hk : k = d
    · subst hk
      have hnot : (k, x) ∉ l := fun hm => lt_irrefl k (hd (k, x) hm)
      simp [hnot, eq_comm]
    · simp [hk, ih hl]

/-- Two maps with the same lookups are equal. -/
lemma ext_find {m n : OrdMap κ ν} (h : ∀ k, m.find k = n.find k) : m = n := by
  have hmem : ∀ e, e ∈ m.entries ↔ e ∈ n.entries := fun e => by
    rw [← find_eq_some_iff (k := e.1) (x := e.2), h, find_eq_some_iff]
  have hnd : ∀ p : OrdMap κ ν, p.entries.Nodup := fun p =>
    p.sorted.imp (S := (· ≠ ·)) fun {a b} hlt heq => by
      rw [heq] at hlt
      exact lt_irrefl _ hlt
  have hperm : m.entries.Perm n.entries :=
    (List.perm_ext_iff_of_nodup (hnd m) (hnd n)).mpr hmem
  have heq : m.entries = n.entries :=
    hperm.eq_of_pairwise (fun a b _ _ hab hba => absurd hab (not_lt.mpr hba.le)) m.sorted n.sorted
  cases m; cases n; cases heq; rfl

@[simp] lemma find_empty (k : κ) : (∅ : OrdMap κ ν).find k = none := rfl

/-- Lookup after an insertion. -/
lemma find_insert (m : OrdMap κ ν) (k k' : κ) (x : ν) :
    (m.insert k x).find k' = if k' = k then some x else m.find k' :=
  lookup_insertEntry k k' x m.entries

@[simp] lemma find_insert_self (m : OrdMap κ ν) (k : κ) (x : ν) :
    (m.insert k x).find k = some x := by
  simp [find_insert]

lemma find_insert_of_ne {k k' : κ} (h : k' ≠ k) (m : OrdMap κ ν) (x : ν) :
    (m.insert k x).find k' = m.find k' := by
  simp [find_insert, h]

/-- Lookup after a removal. -/
lemma find_erase (m : OrdMap κ ν) (k k' : κ) :
    (m.erase k).find k' = if k' = k then none else m.find k' := by
  by_cases h : k' = k
  · subst h
    rw [if_pos rfl, Option.eq_none_iff_forall_ne_some]
    intro x hx
    have := find_eq_some_iff.mp hx
    simp [erase] at this
  · rw [if_neg h]
    apply Option.ext
    intro x
    rw [find_eq_some_iff, find_eq_some_iff]
    simp [erase, h]

/-- Lookup after an insertion that keeps an existing value. -/
lemma find_emplace (m : OrdMap κ ν) (k k' : κ) (x : ν) :
    (m.emplace k x).find k' = if k' = k then some ((m.find k).getD x) else m.find k' := by
  unfold emplace contains
  cases hk : m.find k with
  | none => simp [find_insert]
  | some y =>
    by_cases h : k' = k
    · subst h; simp [hk]
    · simp [h]

@[simp] lemma contains_iff {m : OrdMap κ ν} {k : κ} :
    m.contains k = true ↔ ∃ x, m.find k = some x := by
  unfold contains
  exact Option.isSome_iff_exists

lemma contains_eq_false_iff {m : OrdMap κ ν} {k : κ} :
    m.contains k = false ↔ m.find k = none := by
  simp [contains]

lemma emplace_of_find_eq_none {m : OrdMap κ ν} {k : κ} (h : m.find k = none) (x : ν) :
    m.emplace k x = m.insert k x := by
  simp [emplace, contains, h]

/-- Writing the value a key already has changes nothing. -/
lemma insert_find {m : OrdMap κ ν} {k : κ} {x : ν} (h : m.find k = some x) :
    m.insert k x = m := by
  apply ext_find
  intro k'
  rw [find_insert]
  split_ifs with hk
  · rw [hk, h]
  · rfl

/-- The second of two insertions at one key wins. -/
lemma insert_insert (m : OrdMap κ ν) (k : κ) (x y : ν) :
    (m.insert k x).insert k y = m.insert k y := by
  apply ext_find
  intro k'
  simp only [find_insert]
  split_ifs <;> rfl

/-- Insertions at different keys commute. -/
lemma insert_comm {k k' : κ} (h : k ≠ k') (m : OrdMap κ ν) (x y : ν) :
    (m.insert k x).insert k' y = (m.insert k' y).insert k x := by
  apply ext_find
  intro j
  simp only [find_insert]
  split_ifs with h1 h2 <;> first | rfl | exact absurd (h2.symm.trans h1) h

/-- Removing a key that was just added restores the map. -/
lemma erase_insert {m : OrdMap κ ν} {k : κ} (h : m.find k = none) (x : ν) :
    (m.insert k x).erase k = m := by
  apply ext_find
  intro k'
  rw [find_erase]
  split_ifs with hk
  · rw [hk, h]
  · exact find_insert_of_ne hk m x

/-- Removing a key without a value changes nothing. -/
lemma erase_of_find_eq_none {m : OrdMap κ ν} {k : κ} (h : m.find k = none) :
    m.erase k = m := by
  apply ext_find
  intro k'
  rw [find_erase]
  split_ifs with hk
  · rw [hk, h]
  · rfl

@[simp] lemma find_mapValues (f : κ → ν → μ) (m : OrdMap κ ν) (k : κ) :
    (m.mapValues f).find k = (m.find k).map (f k) := by
  apply Option.ext
  intro x
  rw [find_eq_some_iff, Option.map_eq_some_iff]
  simp only [mapValues, List.mem_map, Prod.mk.injEq]
  constructor
  · rintro ⟨e, he, rfl, rfl⟩
    exact ⟨e.2, find_eq_some_iff.mpr he, rfl⟩
  · rintro ⟨y, hy, rfl⟩
    exact ⟨(k, y), find_eq_some_iff.mp hy, rfl, rfl⟩

@[simp] lemma mapValues_insert (f : κ → ν → μ) (m : OrdMap κ ν) (k : κ) (x : ν) :
    (m.insert k x).mapValues f = (m.mapValues f).insert k (f k x) := by
  apply ext_find
  intro j
  rw [find_mapValues, find_insert, find_insert, find_mapValues]
  split_ifs with hj
  · rw [hj]; rfl
  · rfl

lemma mem_keys_iff {m : OrdMap κ ν} {k : κ} : k ∈ m.keys ↔ ∃ x, m.find k = some x := by
  simp only [keys, List.mem_map, find_eq_some_iff]
  constructor
  · rintro ⟨e, he, rfl⟩
    exact ⟨e.2, he⟩
  · rintro ⟨x, hx⟩
    exact ⟨(k, x), hx, rfl⟩

lemma mem_values_iff {m : OrdMap κ ν} {x : ν} : x ∈ m.values ↔ ∃ k, m.find k = some x := by
  simp only [values, List.mem_map, find_eq_some_iff]
  constructor
  · rintro ⟨e, he, rfl⟩
    exact ⟨e.1, he⟩
  · rintro ⟨k, hk⟩
    exact ⟨(k, x), hk, rfl⟩

/-- Insertions at other keys leave a lookup alone. -/
lemma find_foldl_insert_of_not_mem {l : List (κ × ν)} {k : κ} (h : k ∉ l.map Prod.fst)
    (m : OrdMap κ ν) : (l.foldl (fun m e => m.insert e.1 e.2) m).find k = m.find k := by
  induction l generalizing m with
  | nil => rfl
  | cons e l ih =>
    simp only [List.map_cons, List.mem_cons, not_or] at h
    rw [List.foldl_cons, ih h.2, find_insert_of_ne h.1]

/-- Inserting entries with distinct keys makes them the lookups. -/
lemma find_foldl_insert_of_mem {l : List (κ × ν)} (hnd : (l.map Prod.fst).Nodup) {k : κ} {x : ν}
    (h : (k, x) ∈ l) (m : OrdMap κ ν) :
    (l.foldl (fun m e => m.insert e.1 e.2) m).find k = some x := by
  induction l generalizing m with
  | nil => simp at h
  | cons e l ih =>
    obtain ⟨hne, hnd⟩ := List.nodup_cons.mp hnd
    rw [List.foldl_cons]
    rcases List.mem_cons.mp h with h | h
    · subst h
      rw [find_foldl_insert_of_not_mem hne, find_insert_self]
    · exact ih hnd h _

/-- Updating the values of distinct keys: each key of the list gets the value computed from the one
it had, and other keys keep theirs. -/
lemma find_foldl_update (f : κ → Option ν → μ → ν) {l : List (κ × μ)} (hnd : (l.map Prod.fst).Nodup)
    (m : OrdMap κ ν) (k : κ) :
    (l.foldl (fun m e => m.insert e.1 (f e.1 (m.find e.1) e.2)) m).find k =
      (l.lookup k).elim (m.find k) fun x => some (f k (m.find k) x) := by
  induction l generalizing m with
  | nil => rfl
  | cons e l ih =>
    obtain ⟨d, y⟩ := e
    obtain ⟨hne, hnd⟩ := List.nodup_cons.mp hnd
    rw [List.foldl_cons, ih hnd, lookup_cons_ite]
    by_cases hk : k = d
    · subst hk
      have hnone : l.lookup k = none := by
        rw [List.lookup_eq_none_iff]
        intro e he
        have hek : k ≠ e.1 := fun h => hne (List.mem_map.mpr ⟨e, he, h.symm⟩)
        simpa using hek
      simp [hnone]
    · rw [if_neg hk, find_insert_of_ne hk]

/-- Updating the values of the keys of another map. -/
lemma find_foldl_entries_update (f : κ → Option ν → μ → ν) (n : OrdMap κ μ) (m : OrdMap κ ν) (k : κ) :
    (n.entries.foldl (fun m e => m.insert e.1 (f e.1 (m.find e.1) e.2)) m).find k =
      (n.find k).elim (m.find k) fun x => some (f k (m.find k) x) :=
  find_foldl_update f n.nodup_keys m k

/-- A map is the map of its entries. -/
@[simp] lemma ofList_entries (m : OrdMap κ ν) : ofList m.entries = m := by
  apply ext_find
  intro k
  cases hk : m.find k with
  | none =>
    refine (find_foldl_insert_of_not_mem ?_ ∅).trans rfl
    intro hmem
    obtain ⟨x, hx⟩ := mem_keys_iff.mp hmem
    rw [hk] at hx
    exact absurd hx (by simp)
  | some x => exact find_foldl_insert_of_mem m.nodup_keys (find_eq_some_iff.mp hk) ∅

/-! ### Entries after an insertion -/

/-- The entries after an insertion at a new key are the old ones and the new one. -/
lemma entries_insert_perm {m : OrdMap κ ν} {k : κ} (h : m.find k = none) (x : ν) :
    (m.insert k x).entries.Perm ((k, x) :: m.entries) := by
  have hnd : ∀ p : OrdMap κ ν, p.entries.Nodup := fun p => p.nodup_keys.of_map _
  refine (List.perm_ext_iff_of_nodup (hnd _) (List.nodup_cons.mpr ⟨?_, hnd _⟩)).mpr fun e => ?_
  · intro hmem
    rw [find_eq_some_iff.mpr hmem] at h
    cases h
  · rw [← find_eq_some_iff (k := e.1) (x := e.2), find_insert, List.mem_cons,
      ← find_eq_some_iff (k := e.1) (x := e.2)]
    by_cases hk : e.1 = k
    · rw [if_pos hk, hk, h]
      constructor
      · intro hx
        exact Or.inl (Prod.ext hk (Option.some.inj hx).symm)
      · rintro (rfl | hx)
        · rfl
        · cases hx
    · rw [if_neg hk]
      constructor
      · exact Or.inr
      · rintro (rfl | hx)
        · exact absurd rfl hk
        · exact hx

lemma values_insert_perm {m : OrdMap κ ν} {k : κ} (h : m.find k = none) (x : ν) :
    (m.insert k x).values.Perm (x :: m.values) :=
  (entries_insert_perm h x).map Prod.snd

/-! ### Changing every value, or failing -/

/-- Change the values of some entries of a map, one after the other; the first fault ends it. -/
def tryMapEntries {ε : Type w} (f : ν → Except ε ν) :
    List (κ × ν) → OrdMap κ ν → Except ε (OrdMap κ ν)
  | [], m => .ok m
  | (k, x) :: rest, m =>
    match f x with
    | .error fault => .error fault
    | .ok y => tryMapEntries f rest (m.insert k y)

/-- Change every value of a map, one after the other; the first fault ends it. -/
def tryMap {ε : Type w} (f : ν → Except ε ν) (m : OrdMap κ ν) : Except ε (OrdMap κ ν) :=
  tryMapEntries f m.entries m

lemma find_tryMapEntries {ε : Type w} {f : ν → Except ε ν} {rest : List (κ × ν)}
    (hnd : (rest.map Prod.fst).Nodup) {m m' : OrdMap κ ν}
    (h : tryMapEntries f rest m = .ok m') :
    (∀ e ∈ rest, ∃ y, f e.2 = .ok y ∧ m'.find e.1 = some y) ∧
      ∀ k, k ∉ rest.map Prod.fst → m'.find k = m.find k := by
  induction rest generalizing m with
  | nil =>
    cases h
    exact ⟨by simp, fun _ _ => rfl⟩
  | cons e rest ih =>
    obtain ⟨d, x⟩ := e
    obtain ⟨hne, hnd⟩ := List.nodup_cons.mp hnd
    unfold tryMapEntries at h
    split at h
    · cases h
    · rename_i y hy
      obtain ⟨hrest, hother⟩ := ih hnd h
      refine ⟨List.forall_mem_cons.mpr ⟨⟨y, hy, ?_⟩, hrest⟩, ?_⟩
      · rw [hother d hne, find_insert_self]
      · intro k hk
        rw [List.map_cons, List.mem_cons, not_or] at hk
        rw [hother k hk.2, find_insert_of_ne hk.1]

/-- A value of the changed map is that of a value of the map, at the same key. -/
lemma find_tryMap {ε : Type w} {f : ν → Except ε ν} {m m' : OrdMap κ ν} (h : m.tryMap f = .ok m')
    (k : κ) : (m.find k = none ∧ m'.find k = none) ∨
      ∃ x y, m.find k = some x ∧ f x = .ok y ∧ m'.find k = some y := by
  obtain ⟨hentries, hother⟩ := find_tryMapEntries m.nodup_keys h
  cases hk : m.find k with
  | none =>
    refine Or.inl ⟨rfl, ?_⟩
    rw [hother k fun hmem => ?_, hk]
    obtain ⟨x, hx⟩ := mem_keys_iff.mp hmem
    rw [hk] at hx
    cases hx
  | some x =>
    obtain ⟨y, hy, hfind⟩ := hentries _ (find_eq_some_iff.mp hk)
    exact Or.inr ⟨x, y, rfl, hy, hfind⟩

/-! ### Renamed keys -/

section Image

variable {κ' : Type w} [LinearOrder κ'] {key : κ → κ'} {value : κ → ν → μ}

/-- The entries of an image are those of the map, renamed. -/
lemma find_image_eq_some_iff (hkey : Function.Injective key) {m : OrdMap κ ν} {t : κ'} {y : μ} :
    (m.image key value).find t = some y ↔
      ∃ k x, t = key k ∧ m.find k = some x ∧ y = value k x := by
  have hnd : ((m.entries.map fun e => (key e.1, value e.1 e.2)).map Prod.fst).Nodup := by
    rw [List.map_map]
    refine (List.pairwise_map.mp m.nodup_keys).imp_of_mem ?_ |> List.pairwise_map.mpr
    intro a b _ _ hne heq
    exact hne (hkey heq)
  have hfind : ∀ k x, m.find k = some x → (m.image key value).find (key k) = some (value k x) :=
    fun k x hx => find_foldl_insert_of_mem hnd
      (List.mem_map.mpr ⟨(k, x), find_eq_some_iff.mp hx, rfl⟩) ∅
  constructor
  · intro h
    have hmem : t ∈ (m.entries.map fun e => (key e.1, value e.1 e.2)).map Prod.fst := by
      by_contra hnot
      have hnone := find_foldl_insert_of_not_mem hnot (∅ : OrdMap κ' μ)
      rw [show (m.image key value).find t = none from hnone] at h
      exact absurd h (by simp)
    obtain ⟨_, hp, rfl⟩ := List.mem_map.mp hmem
    obtain ⟨e, he, rfl⟩ := List.mem_map.mp hp
    have hx := find_eq_some_iff.mpr he
    exact ⟨e.1, e.2, rfl, hx, Option.some.inj (h.symm.trans (hfind e.1 e.2 hx))⟩
  · rintro ⟨k, x, rfl, hx, rfl⟩
    exact hfind k x hx

/-- A lookup of a renamed key. -/
lemma find_image (hkey : Function.Injective key) (m : OrdMap κ ν) (k : κ) :
    (m.image key value).find (key k) = (m.find k).map (value k) := by
  cases hk : m.find k with
  | none =>
    cases hfind : (m.image key value).find (key k) with
    | none => rfl
    | some y =>
      obtain ⟨j, x, hj, hx, -⟩ := (find_image_eq_some_iff hkey).mp hfind
      rw [hkey hj, hx] at hk
      exact absurd hk (by simp)
  | some x => exact (find_image_eq_some_iff hkey).mpr ⟨k, x, rfl, hk, rfl⟩

/-- An image follows an insertion. -/
lemma image_insert (hkey : Function.Injective key) (m : OrdMap κ ν) (k : κ) (x : ν) :
    (m.insert k x).image key value = (m.image key value).insert (key k) (value k x) := by
  apply ext_find
  intro t
  rw [find_insert]
  by_cases ht : ∃ j, t = key j
  · obtain ⟨j, rfl⟩ := ht
    rw [find_image hkey, find_image hkey, find_insert]
    by_cases hjk : j = k
    · rw [if_pos hjk, if_pos (congrArg key hjk), hjk]; rfl
    · rw [if_neg hjk, if_neg fun h => hjk (hkey h)]
  · have hnone : ∀ n : OrdMap κ ν, (n.image key value).find t = none := fun n => by
      cases hfind : (n.image key value).find t with
      | none => rfl
      | some y =>
        obtain ⟨j, -, hj, -⟩ := (find_image_eq_some_iff hkey).mp hfind
        exact absurd ⟨j, hj⟩ ht
    rw [hnone, hnone, if_neg fun h => ht ⟨k, h⟩]

end Image

end OrdMap
