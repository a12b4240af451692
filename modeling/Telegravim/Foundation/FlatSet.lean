import Mathlib.Data.List.Sort
import Mathlib.Data.List.TakeWhile
import Mathlib.Data.List.Perm.Subperm

set_option autoImplicit false

/-!
# Finite sets in order

A finite set of a linear order as the strictly increasing list of its elements, with the
operations of a sorted vector: insertion, removal, lower bounds and cutting at both ends.

## Main definitions

* `FlatSet` — strictly increasing lists.
* `FlatSet.lowerBound` — how many elements stand below a point.

## Main results

* `FlatSet.ext_mem` — sets with the same elements are equal.
* `FlatSet.eq_of_subset` — a subset of the same size is the whole set.
* `FlatSet.elems_eq_append` — a set is what stands below, in and above an interval.
-/

universe u

/-- A finite set as the increasing list of its elements. -/
structure FlatSet (α : Type u) [LinearOrder α] where
  elems : List α
  sorted : elems.Pairwise (· < ·)

namespace FlatSet

variable {α : Type u} [LinearOrder α]

instance : DecidableEq (FlatSet α) := fun s t =>
  decidable_of_iff (s.elems = t.elems) ⟨fun h => by cases s; cases t; simp_all, fun h => h ▸ rfl⟩

instance : Membership α (FlatSet α) := ⟨fun s x => x ∈ s.elems⟩

instance (s : FlatSet α) (x : α) : Decidable (x ∈ s) := inferInstanceAs (Decidable (x ∈ s.elems))

instance : EmptyCollection (FlatSet α) := ⟨⟨[], List.Pairwise.nil⟩⟩

def size (s : FlatSet α) : ℕ := s.elems.length

def front (s : FlatSet α) : Option α := s.elems.head?

def back (s : FlatSet α) : Option α := s.elems.getLast?

/-- The part of a set that a predicate selects. -/
def filter (s : FlatSet α) (p : α → Bool) : FlatSet α := ⟨s.elems.filter p, s.sorted.filter p⟩

def insert (s : FlatSet α) (x : α) : FlatSet α where
  elems := s.elems.filter (· < x) ++ x :: s.elems.filter (x < ·)
  sorted := by
    rw [List.pairwise_append, List.pairwise_cons]
    refine ⟨s.sorted.filter _, ⟨by simp, s.sorted.filter _⟩, ?_⟩
    intro a ha b hb
    simp only [List.mem_filter, decide_eq_true_eq, List.mem_cons] at ha hb
    rcases hb with rfl | ⟨-, hb⟩
    · exact ha.2
    · exact ha.2.trans hb

/-- All elements of a list are inserted. -/
def merge (s : FlatSet α) (xs : List α) : FlatSet α := xs.foldl insert s

def ofList (xs : List α) : FlatSet α := merge ∅ xs

def remove (s : FlatSet α) (x : α) : FlatSet α := s.filter (· ≠ x)

/-- The position of the first element that is not below a point. -/
def lowerBound (s : FlatSet α) (x : α) : ℕ := (s.elems.takeWhile (· < x)).length

/-- The set without its first elements. -/
def drop (s : FlatSet α) (n : ℕ) : FlatSet α := ⟨s.elems.drop n, s.sorted.drop⟩

/-- The first elements of a set. -/
def take (s : FlatSet α) (n : ℕ) : FlatSet α := ⟨s.elems.take n, s.sorted.take⟩

/-! ### Membership -/

lemma mem_def {s : FlatSet α} {x : α} : x ∈ s ↔ x ∈ s.elems := Iff.rfl

@[simp] lemma not_mem_empty (x : α) : x ∉ (∅ : FlatSet α) := List.not_mem_nil

@[simp] lemma elems_empty : (∅ : FlatSet α).elems = [] := rfl

@[simp] lemma mem_filter {s : FlatSet α} {p : α → Bool} {x : α} :
    x ∈ s.filter p ↔ x ∈ s ∧ p x = true := List.mem_filter

@[simp] lemma mem_insert {s : FlatSet α} {x y : α} : y ∈ s.insert x ↔ y = x ∨ y ∈ s := by
  simp only [mem_def, insert, List.mem_append, List.mem_filter, decide_eq_true_eq, List.mem_cons]
  rcases lt_trichotomy y x with h | rfl | h
  · simp [h, h.ne, h.le]
  · simp
  · simp [h, h.ne', h.le]

@[simp] lemma mem_merge {s : FlatSet α} {xs : List α} {y : α} :
    y ∈ s.merge xs ↔ y ∈ xs ∨ y ∈ s := by
  induction xs generalizing s with
  | nil => simp [merge]
  | cons x xs ih =>
    rw [show s.merge (x :: xs) = (s.insert x).merge xs from rfl, ih, mem_insert, List.mem_cons]
    tauto

@[simp] lemma mem_ofList {xs : List α} {y : α} : y ∈ ofList xs ↔ y ∈ xs := by
  simp [ofList]

@[simp] lemma mem_remove {s : FlatSet α} {x y : α} : y ∈ s.remove x ↔ y ∈ s ∧ y ≠ x := by
  simp [remove]

lemma nodup (s : FlatSet α) : s.elems.Nodup := s.sorted.imp fun h => h.ne

/-- **Sets with the same elements are equal.** -/
theorem ext_mem {s t : FlatSet α} (h : ∀ x, x ∈ s ↔ x ∈ t) : s = t := by
  have hperm : s.elems.Perm t.elems := (List.perm_ext_iff_of_nodup s.nodup t.nodup).mpr h
  have heq : s.elems = t.elems :=
    hperm.eq_of_pairwise (fun a b _ _ hab hba => absurd (hab.trans hba) (lt_irrefl a)) s.sorted t.sorted
  cases s
  cases t
  simp_all

lemma eq_empty_iff {s : FlatSet α} : s = ∅ ↔ s.elems = [] :=
  ⟨fun h => h ▸ rfl, fun h => ext_mem fun x => by simp [mem_def, h]⟩

/-- The last element of a set is above all others. -/
lemma back_eq_some {s : FlatSet α} {b : α} (h : s.back = some b) : b ∈ s ∧ ∀ x ∈ s, x ≤ b := by
  obtain ⟨front, hfront⟩ := List.getLast?_eq_some_iff.mp h
  have hsorted := s.sorted
  rw [hfront, List.pairwise_append] at hsorted
  refine ⟨by simp [mem_def, hfront], fun x hx => ?_⟩
  rw [mem_def, hfront, List.mem_append, List.mem_singleton] at hx
  rcases hx with hx | rfl
  · exact (hsorted.2.2 x hx b (by simp)).le
  · exact le_rfl

/-- The first element of a set is below all others. -/
lemma front_eq_some {s : FlatSet α} {a : α} (h : s.front = some a) : a ∈ s ∧ ∀ x ∈ s, a ≤ x := by
  obtain ⟨rest, hrest⟩ := List.head?_eq_some_iff.mp h
  have hsorted := s.sorted
  rw [hrest, List.pairwise_cons] at hsorted
  refine ⟨by simp [mem_def, hrest], fun x hx => ?_⟩
  rw [mem_def, hrest, List.mem_cons] at hx
  rcases hx with rfl | hx
  · exact le_rfl
  · exact (hsorted.1 x hx).le

lemma back_eq_none {s : FlatSet α} (h : s.back = none) : s = ∅ :=
  eq_empty_iff.mpr (List.getLast?_eq_none_iff.mp h)

/-! ### Sizes -/

/-- A set with an element has a first and a last one. -/
lemma front_back_of_mem {s : FlatSet α} {x : α} (h : x ∈ s) :
    ∃ a b, s.front = some a ∧ s.back = some b := by
  cases hfront : s.front with
  | none =>
    have hempty : s = ∅ := eq_empty_iff.mpr (by simpa [front] using hfront)
    rw [hempty] at h
    exact absurd h (not_mem_empty x)
  | some a =>
    cases hback : s.back with
    | none =>
      rw [back_eq_none hback] at h
      exact absurd h (not_mem_empty x)
    | some b => exact ⟨a, b, rfl, rfl⟩

@[simp] lemma size_empty : (∅ : FlatSet α).size = 0 := rfl

lemma size_le_of_subset {s t : FlatSet α} (h : ∀ x, x ∈ s → x ∈ t) : s.size ≤ t.size :=
  (List.Nodup.subperm s.nodup h).length_le

/-- **A subset of the same size is the whole set.** -/
theorem eq_of_subset {s t : FlatSet α} (h : ∀ x, x ∈ s → x ∈ t) (hsize : t.size ≤ s.size) :
    s = t :=
  ext_mem fun _ => ((List.Nodup.subperm s.nodup h).perm_of_length_le hsize).mem_iff

lemma size_filter_add (s : FlatSet α) (p : α → Bool) :
    (s.filter p).size + (s.filter fun x => !p x).size = s.size := by
  simp only [size, filter]
  exact (List.length_eq_length_filter_add p).symm

lemma size_insert {s : FlatSet α} {x : α} (hx : x ∉ s) : (s.insert x).size = s.size + 1 := by
  have hperm : (s.insert x).elems.Perm (x :: s.elems) := by
    apply (List.perm_ext_iff_of_nodup (s.insert x).nodup (List.nodup_cons.mpr ⟨hx, s.nodup⟩)).mpr
    intro y
    rw [List.mem_cons]
    exact mem_insert
  exact hperm.length_eq

lemma size_remove {s : FlatSet α} {x : α} (hx : x ∈ s) : (s.remove x).size + 1 = s.size := by
  have hback : (s.remove x).insert x = s := by
    apply ext_mem
    intro y
    rw [mem_insert, mem_remove]
    constructor
    · rintro (rfl | ⟨hy, -⟩)
      · exact hx
      · exact hy
    · intro hy
      by_cases he : y = x
      · exact Or.inl he
      · exact Or.inr ⟨hy, he⟩
  conv_rhs => rw [← hback]
  rw [size_insert (by simp)]

lemma remove_of_not_mem {s : FlatSet α} {x : α} (hx : x ∉ s) : s.remove x = s := by
  apply ext_mem
  intro y
  rw [mem_remove]
  exact ⟨fun h => h.1, fun h => ⟨h, fun he => hx (he ▸ h)⟩⟩

/-! ### Cutting -/

/-- A predicate that holds of a beginning of the list selects that beginning. -/
lemma takeWhile_eq_filter {β : Type u} {p : β → Bool} {l : List β}
    (h : l.Pairwise fun a b => p b = true → p a = true) :
    l.takeWhile p = l.filter p ∧ l.dropWhile p = l.filter fun a => !p a := by
  induction l with
  | nil => exact ⟨rfl, rfl⟩
  | cons a l ih =>
    rw [List.pairwise_cons] at h
    obtain ⟨htake, hdrop⟩ := ih h.2
    cases hp : p a with
    | true => simp [hp, htake, hdrop]
    | false =>
      have hnone : ∀ b ∈ l, p b = false := by
        intro b hb
        by_contra hyes
        have := h.1 b hb (by simpa using hyes)
        rw [hp] at this
        exact absurd this (by simp)
      have hall : l.filter (fun b => !p b) = l := by
        rw [List.filter_eq_self]
        intro b hb
        simp [hnone b hb]
      have hempty : l.filter p = [] := by
        rw [List.filter_eq_nil_iff]
        intro b hb
        simp [hnone b hb]
      simp [hp, hall, hempty]

lemma pairwise_lt_of_lt (s : FlatSet α) (x : α) :
    s.elems.Pairwise fun a b => decide (b < x) = true → decide (a < x) = true :=
  s.sorted.imp fun hab hb => by
    simp only [decide_eq_true_eq] at hb ⊢
    exact hab.trans hb

lemma lowerBound_eq (s : FlatSet α) (x : α) : s.lowerBound x = (s.filter (· < x)).size := by
  unfold lowerBound size filter
  rw [(takeWhile_eq_filter (s.pairwise_lt_of_lt x)).1]

lemma lowerBound_le (s : FlatSet α) (x : α) : s.lowerBound x ≤ s.size := by
  rw [lowerBound_eq]
  exact size_le_of_subset fun y hy => (mem_filter.mp hy).1

/-- What stands before the lower bound of a point is below it. -/
lemma take_lowerBound (s : FlatSet α) (x : α) : s.take (s.lowerBound x) = s.filter (· < x) := by
  have hsplit := List.takeWhile_append_dropWhile (p := fun y => decide (y < x)) (l := s.elems)
  have htake : s.elems.take (s.lowerBound x) = s.elems.takeWhile (· < x) := by
    conv_lhs => rw [← hsplit]
    exact List.take_left
  have heq : (s.take (s.lowerBound x)).elems = (s.filter (· < x)).elems :=
    htake.trans (takeWhile_eq_filter (s.pairwise_lt_of_lt x)).1
  exact ext_mem fun y => by rw [mem_def, heq, mem_def]

/-- What stands from the lower bound of a point on is not below it. -/
lemma drop_lowerBound (s : FlatSet α) (x : α) : s.drop (s.lowerBound x) = s.filter (x ≤ ·) := by
  have hsplit := List.takeWhile_append_dropWhile (p := fun y => decide (y < x)) (l := s.elems)
  have hdrop : s.elems.drop (s.lowerBound x) = s.elems.dropWhile (· < x) := by
    conv_lhs => rw [← hsplit]
    exact List.drop_left
  apply ext_mem
  intro y
  rw [mem_def, show (s.drop (s.lowerBound x)).elems = s.elems.drop (s.lowerBound x) from rfl, hdrop,
    (takeWhile_eq_filter (s.pairwise_lt_of_lt x)).2, mem_filter, List.mem_filter]
  simp [mem_def]

lemma size_take (s : FlatSet α) (n : ℕ) : (s.take n).size = min n s.size := List.length_take

lemma size_drop (s : FlatSet α) (n : ℕ) : (s.drop n).size = s.size - n := List.length_drop

lemma mem_of_mem_take {s : FlatSet α} {n : ℕ} {x : α} (h : x ∈ s.take n) : x ∈ s :=
  List.mem_of_mem_take h

lemma mem_of_mem_drop {s : FlatSet α} {n : ℕ} {x : α} (h : x ∈ s.drop n) : x ∈ s :=
  List.mem_of_mem_drop h

/-- **A set is what stands below, in and above an interval.** -/
theorem elems_eq_append (s : FlatSet α) {a b : α} (hab : a ≤ b) :
    s.elems = (s.filter (· < a)).elems ++ (s.filter fun x => a ≤ x && x ≤ b).elems ++
      (s.filter (b < ·)).elems := by
  have hsorted : ((s.filter (· < a)).elems ++ (s.filter fun x => a ≤ x && x ≤ b).elems ++
      (s.filter (b < ·)).elems).Pairwise (· < ·) := by
    rw [List.pairwise_append, List.pairwise_append]
    refine ⟨⟨(s.filter _).sorted, (s.filter _).sorted, ?_⟩, (s.filter _).sorted, ?_⟩
    · intro x hx y hy
      have hx := (mem_filter.mp hx).2
      have hy := (mem_filter.mp hy).2
      simp only [decide_eq_true_eq, Bool.and_eq_true] at hx hy
      exact hx.trans_le hy.1
    · intro x hx y hy
      have hy := (mem_filter.mp hy).2
      simp only [decide_eq_true_eq] at hy
      rcases List.mem_append.mp hx with hx | hx
      · have hx := (mem_filter.mp hx).2
        simp only [decide_eq_true_eq] at hx
        exact hx.trans (hab.trans_lt hy)
      · have hx := (mem_filter.mp hx).2
        simp only [decide_eq_true_eq, Bool.and_eq_true] at hx
        exact hx.2.trans_lt hy
  have hmem : s = ⟨_, hsorted⟩ := by
    apply ext_mem
    intro x
    have hiff : x ∈ s ↔ (x ∈ s.filter (· < a) ∨ x ∈ s.filter fun x => a ≤ x && x ≤ b) ∨
        x ∈ s.filter (b < ·) := by
      simp only [mem_filter, decide_eq_true_eq, Bool.and_eq_true]
      rcases lt_or_ge x a with hxa | hxa
      · tauto
      · rcases le_or_gt x b with hxb | hxb <;> tauto
    rw [hiff]
    simp only [mem_def, List.mem_append]
  exact congrArg elems hmem

/-! ### Blocks -/

/-- An element of a set lies before, in or after the part of the list it is split by. -/
lemma mem_of_split {s t : FlatSet α} {before after : List α}
    (h : s.elems = before ++ t.elems ++ after) {x : α} :
    x ∈ s ↔ x ∈ before ∨ x ∈ t ∨ x ∈ after := by
  rw [mem_def, h, List.mem_append, List.mem_append, mem_def, or_assoc]

/-- What stands before, in and after a block is in order. -/
lemma lt_of_split {s t : FlatSet α} {before after : List α}
    (h : s.elems = before ++ t.elems ++ after) :
    (∀ x ∈ before, ∀ y ∈ t, x < y) ∧ (∀ x ∈ t, ∀ y ∈ after, x < y) ∧
      ∀ x ∈ before, ∀ y ∈ after, x < y := by
  have hsorted := s.sorted
  rw [h, List.pairwise_append, List.pairwise_append] at hsorted
  obtain ⟨⟨-, -, hbefore⟩, -, hafter⟩ := hsorted
  refine ⟨fun x hx y hy => hbefore x hx y hy, fun x hx y hy => ?_, fun x hx y hy => ?_⟩
  · exact hafter x (List.mem_append_right _ hx) y hy
  · exact hafter x (List.mem_append_left _ hx) y hy

/-- The lower bound of an element of a block counts what stands before the block. -/
lemma lowerBound_of_split {s t : FlatSet α} {before after : List α}
    (h : s.elems = before ++ t.elems ++ after) {x : α} (hx : x ∈ t) :
    s.lowerBound x = before.length + t.lowerBound x := by
  obtain ⟨hbefore, hafter, -⟩ := lt_of_split h
  unfold lowerBound
  rw [(takeWhile_eq_filter (s.pairwise_lt_of_lt x)).1, (takeWhile_eq_filter
    (t.pairwise_lt_of_lt x)).1, h, List.filter_append, List.filter_append, List.length_append,
    List.length_append]
  have hall : before.filter (fun y => decide (y < x)) = before := by
    rw [List.filter_eq_self]
    intro y hy
    exact decide_eq_true (hbefore y hy x hx)
  have hnone : after.filter (fun y => decide (y < x)) = [] := by
    rw [List.filter_eq_nil_iff]
    intro y hy
    simpa using (hafter x hx y hy).le
  rw [hall, hnone, List.length_nil, Nat.add_zero]

/-- **A part of a set that has no gap is a block of it.** -/
theorem exists_split {s t : FlatSet α} (hsub : ∀ x ∈ t, x ∈ s)
    (hconvex : ∀ a ∈ t, ∀ b ∈ t, ∀ x ∈ s, a ≤ x → x ≤ b → x ∈ t) :
    ∃ before after, s.elems = before ++ t.elems ++ after := by
  cases hfront : t.front with
  | none =>
    have hempty : t.elems = [] := by simpa [front] using hfront
    exact ⟨[], s.elems, by simp [hempty]⟩
  | some a =>
    cases hback : t.back with
    | none =>
      rw [back_eq_none hback] at hfront
      exact absurd hfront (by simp [front])
    | some b =>
      obtain ⟨ha, hale⟩ := front_eq_some hfront
      obtain ⟨hb, hleb⟩ := back_eq_some hback
      have hmiddle : (s.filter fun x => a ≤ x && x ≤ b) = t := by
        apply ext_mem
        intro x
        simp only [mem_filter, Bool.and_eq_true, decide_eq_true_eq]
        constructor
        · rintro ⟨hx, hax, hxb⟩
          exact hconvex a ha b hb x hx hax hxb
        · exact fun hx => ⟨hsub x hx, hale x hx, hleb x hx⟩
      exact ⟨_, _, hmiddle ▸ s.elems_eq_append (hleb a ha)⟩

/-- A block has no gap. -/
lemma convex_of_split {s t : FlatSet α} {before after : List α}
    (h : s.elems = before ++ t.elems ++ after) :
    ∀ a ∈ t, ∀ b ∈ t, ∀ x ∈ s, a ≤ x → x ≤ b → x ∈ t := by
  obtain ⟨hbefore, hafter, -⟩ := lt_of_split h
  intro a ha b hb x hx hax hxb
  rcases (mem_of_split h).mp hx with hx | hx | hx
  · exact absurd (hbefore x hx a ha) (not_lt.mpr hax)
  · exact hx
  · exact absurd (hafter b hb x hx) (not_lt.mpr hxb)

/-- Cutting a beginning off moves the lower bounds. -/
lemma lowerBound_drop (s : FlatSet α) (n : ℕ) (x : α) :
    (s.drop n).lowerBound x = s.lowerBound x - n := by
  have hsplit : s.elems = (s.elems.filter fun y => y < x) ++ s.elems.filter fun y => !decide (y < x) := by
    conv_lhs => rw [← List.takeWhile_append_dropWhile (p := fun y => decide (y < x)) (l := s.elems),
      (takeWhile_eq_filter (s.pairwise_lt_of_lt x)).1,
      (takeWhile_eq_filter (s.pairwise_lt_of_lt x)).2]
  rw [lowerBound_eq, lowerBound_eq]
  unfold size filter drop
  dsimp only
  conv_lhs => rw [hsplit]
  rw [List.drop_append, List.filter_append, List.length_append]
  have hall : ((s.elems.filter fun y => decide (y < x)).drop n).filter (fun y => decide (y < x)) =
      (s.elems.filter fun y => decide (y < x)).drop n := by
    rw [List.filter_eq_self]
    intro y hy
    exact (List.mem_filter.mp (List.mem_of_mem_drop hy)).2
  have hnone : ((s.elems.filter fun y => !decide (y < x)).drop
      (n - (s.elems.filter fun y => decide (y < x)).length)).filter (fun y => decide (y < x)) =
        [] := by
    rw [List.filter_eq_nil_iff]
    intro y hy
    simpa using (List.mem_filter.mp (List.mem_of_mem_drop hy)).2
  rw [hall, hnone, List.length_drop, List.length_nil, Nat.add_zero]

/-- Cutting an end off bounds the lower bounds. -/
lemma lowerBound_take_of_le (s : FlatSet α) {n : ℕ} {x : α} (h : s.lowerBound x ≤ n) :
    (s.take n).lowerBound x = s.lowerBound x := by
  apply le_antisymm
  · rw [lowerBound_eq, lowerBound_eq]
    apply size_le_of_subset
    intro y hy
    rw [mem_filter] at hy ⊢
    exact ⟨mem_of_mem_take hy.1, hy.2⟩
  · rw [lowerBound_eq, lowerBound_eq]
    apply size_le_of_subset
    intro y hy
    have hlt := (mem_filter.mp hy).2
    rw [← take_lowerBound] at hy
    exact mem_filter.mpr ⟨List.take_subset_take_left s.elems h hy, hlt⟩

/-- An element above all others is inserted at the end. -/
lemma elems_insert_of_lt {s : FlatSet α} {x : α} (h : ∀ y ∈ s, y < x) :
    (s.insert x).elems = s.elems ++ [x] := by
  have hsorted : (s.elems ++ [x]).Pairwise (· < ·) := by
    rw [List.pairwise_append]
    refine ⟨s.sorted, List.pairwise_singleton _ _, fun y hy z hz => ?_⟩
    rw [List.mem_singleton.mp hz]
    exact h y hy
  have hsame : s.insert x = ⟨_, hsorted⟩ := by
    apply ext_mem
    intro y
    rw [mem_insert]
    simp only [mem_def, List.mem_append, List.mem_singleton]
    exact or_comm
  exact congrArg elems hsame

/-- Removing an element keeps blocks. -/
lemma remove_split {s t : FlatSet α} {before after : List α}
    (h : s.elems = before ++ t.elems ++ after) (x : α) :
    (s.remove x).elems =
      before.filter (· ≠ x) ++ (t.remove x).elems ++ after.filter (· ≠ x) := by
  unfold remove filter
  dsimp only
  rw [h, List.filter_append, List.filter_append]

lemma size_eq_of_split {s t : FlatSet α} {before after : List α}
    (h : s.elems = before ++ t.elems ++ after) :
    s.size = before.length + t.size + after.length := by
  unfold size
  rw [h, List.length_append, List.length_append]

end FlatSet
