import Mathlib.Data.List.Induction
import Mathlib.Data.Set.Lattice
import Mathlib.Order.CompletePartialOrder

set_option autoImplicit false

/-!
# Packing pieces into a strip

Pieces are packed one after another into a strip of rows. A piece has its row, its height and its width; it takes
the first column of the strip at which the slots it would cover are free. A piece that would reach beyond the last
column is cut there, and a piece that finds no room is left out.

## Main definitions

* `Packing.Piece` — the row, the height and the width of a piece.
* `Packing.slots`, `Packing.taken` — what one piece and what all placed pieces cover.
* `Packing.First`, `Packing.Packs` — the first column with room, and the packing of a list of pieces.
* `Packing.Whole` — nothing is left out and nothing is cut.

## Main results

* `Packing.Packs.pairwise_disjoint` — no two pieces cover one slot.
* `Packing.Packs.blocked` — a piece stands at the first column with room, or there is none.
* `Packing.Packs.ordered` — a piece as large as an earlier one of its row stands on its right.
* `Packing.Packs.narrow` — a packing which is whole is the packing of every strip wide enough for it.
-/

namespace Packing

/-- The row of a piece, and how many rows and columns it wants: at least one of each. -/
structure Piece where
  row : ℕ
  height : ℕ
  width : ℕ
  height_pos : 0 < height
  width_pos : 0 < width
  deriving DecidableEq

/-- How many columns a piece gets at a column. -/
def cut (bound : ℕ) (piece : Piece) (column : ℕ) : ℕ := min piece.width (bound - column)

/-- The slots a piece covers at a column. -/
def slots (bound : ℕ) (piece : Piece) (column : ℕ) : Set (ℕ × ℕ) :=
  {slot | (piece.row ≤ slot.1 ∧ slot.1 < piece.row + piece.height) ∧
    (column ≤ slot.2 ∧ slot.2 < column + cut bound piece column)}

section Generic

variable {ι : Type} (shape : ι → Piece) (bound : ℕ)

/-- The slots that the placed pieces cover. -/
def taken (placed : List (ι × ℕ)) : Set (ℕ × ℕ) :=
  {slot | ∃ p ∈ placed, slot ∈ slots bound (shape p.1) p.2}

/-- A piece has room at a column. -/
def Room (placed : List (ι × ℕ)) (i : ι) (column : ℕ) : Prop :=
  Disjoint (slots bound (shape i) column) (taken shape bound placed)

/-- The first column at which a piece has room. -/
structure First (placed : List (ι × ℕ)) (i : ι) (column : ℕ) : Prop where
  inside : column < bound
  room : Room shape bound placed i column
  least : ∀ left < column, ¬ Room shape bound placed i left

/-- **Packing**: the pieces of a list are placed one after another, each where it has room first, and left out
where it has none. -/
inductive Packs : List ι → List (ι × ℕ) → Prop
  | nil : Packs [] []
  | place {pieces : List ι} {placed : List (ι × ℕ)} {i : ι} {column : ℕ} (before : Packs pieces placed)
      (first : First shape bound placed i column) : Packs (pieces ++ [i]) (placed ++ [(i, column)])
  | leave {pieces : List ι} {placed : List (ι × ℕ)} {i : ι} (before : Packs pieces placed)
      (none : ∀ column < bound, ¬ Room shape bound placed i column) : Packs (pieces ++ [i]) placed

/-- Nothing is left out, and nothing reaches beyond the last column. -/
structure Whole (pieces : List ι) (placed : List (ι × ℕ)) : Prop where
  all : placed.map Prod.fst = pieces
  uncut : ∀ p ∈ placed, p.2 + (shape p.1).width ≤ bound

variable {shape bound}

/-! ### Slots -/

@[simp] lemma taken_nil : taken shape bound ([] : List (ι × ℕ)) = ∅ := by
  simp [taken]

lemma taken_append (placed : List (ι × ℕ)) (i : ι) (column : ℕ) :
    taken shape bound (placed ++ [(i, column)]) =
      taken shape bound placed ∪ slots bound (shape i) column := by
  ext slot
  simp only [taken, List.mem_append, List.mem_singleton, Set.mem_ofPred_eq, Set.mem_union]
  constructor
  · rintro ⟨p, hp | rfl, hslot⟩
    · exact Or.inl ⟨p, hp, hslot⟩
    · exact Or.inr hslot
  · rintro (⟨p, hp, hslot⟩ | hslot)
    · exact ⟨p, Or.inl hp, hslot⟩
    · exact ⟨(i, column), Or.inr rfl, hslot⟩

/-- A placed piece covers taken slots. -/
lemma slots_subset_taken {placed : List (ι × ℕ)} {p : ι × ℕ} (hp : p ∈ placed) :
    slots bound (shape p.1) p.2 ⊆ taken shape bound placed := by
  intro slot hslot
  exact ⟨p, hp, hslot⟩

/-- A larger piece of the same row covers more at the same column. -/
lemma slots_mono {piece other : Piece} (hrow : piece.row = other.row) (hheight : piece.height ≤ other.height)
    (hwidth : piece.width ≤ other.width) (column : ℕ) :
    slots bound piece column ⊆ slots bound other column := by
  rintro ⟨row, at'⟩ ⟨⟨hfrom, htill⟩, hleft, hright⟩
  simp only [slots, cut, Set.mem_ofPred_eq] at hfrom htill hleft hright ⊢
  omega

/-- A piece covers its first slot. -/
lemma corner_mem_slots {piece : Piece} {column : ℕ} (hinside : column < bound) :
    (piece.row, column) ∈ slots bound piece column := by
  have hheight := piece.height_pos
  have hwidth := piece.width_pos
  simp only [slots, cut, Set.mem_ofPred_eq]
  omega

/-- A piece that is not cut covers the same slots in a strip of another width. -/
lemma slots_of_uncut {other : ℕ} {piece : Piece} {column : ℕ} (hbound : column + piece.width ≤ bound)
    (hother : column + piece.width ≤ other) : slots bound piece column = slots other piece column := by
  have hcut : cut bound piece column = cut other piece column := by
    simp only [cut]
    omega
  simp only [slots, hcut]

lemma taken_of_uncut {other : ℕ} {placed : List (ι × ℕ)}
    (hbound : ∀ p ∈ placed, p.2 + (shape p.1).width ≤ bound)
    (hother : ∀ p ∈ placed, p.2 + (shape p.1).width ≤ other) :
    taken shape bound placed = taken shape other placed := by
  ext slot
  constructor
  · rintro ⟨p, hp, hslot⟩
    exact ⟨p, hp, slots_of_uncut (hbound p hp) (hother p hp) ▸ hslot⟩
  · rintro ⟨p, hp, hslot⟩
    exact ⟨p, hp, slots_of_uncut (hbound p hp) (hother p hp) ▸ hslot⟩

/-! ### The first column -/

/-- The first column is one. -/
lemma First.unique {placed : List (ι × ℕ)} {i : ι} {column other : ℕ} (h : First shape bound placed i column)
    (h' : First shape bound placed i other) : column = other := by
  rcases Nat.lt_trichotomy column other with hlt | heq | hgt
  · exact absurd h.room (h'.least column hlt)
  · exact heq
  · exact absurd h'.room (h.least other hgt)

/-! ### One packing -/

/-- Every list of pieces has one packing. -/
theorem Packs.unique {pieces : List ι} {placed other : List (ι × ℕ)} (h : Packs shape bound pieces placed)
    (h' : Packs shape bound pieces other) : placed = other := by
  induction h generalizing other with
  | nil =>
    generalize hpieces : ([] : List ι) = pieces at h'
    cases h' with
    | nil => rfl
    | place before first => simp at hpieces
    | leave before none => simp at hpieces
  | @place pieces placed i column before first ih =>
    generalize hpieces : pieces ++ [i] = all at h'
    cases h' with
    | nil => simp at hpieces
    | @place pieces' placed' j column' before' first' =>
      obtain ⟨rfl, hij⟩ := List.append_inj' hpieces rfl
      obtain rfl : i = j := by simpa using hij
      obtain rfl := ih before'
      rw [first.unique first']
    | @leave pieces' placed' j before' none' =>
      obtain ⟨rfl, hij⟩ := List.append_inj' hpieces rfl
      obtain rfl : i = j := by simpa using hij
      obtain rfl := ih before'
      exact absurd first.room (none' column first.inside)
  | @leave pieces placed i before none ih =>
    generalize hpieces : pieces ++ [i] = all at h'
    cases h' with
    | nil => simp at hpieces
    | @place pieces' placed' j column' before' first' =>
      obtain ⟨rfl, hij⟩ := List.append_inj' hpieces rfl
      obtain rfl : i = j := by simpa using hij
      obtain rfl := ih before'
      exact absurd first'.room (none column' first'.inside)
    | @leave pieces' placed' j before' none' =>
      obtain ⟨rfl, -⟩ := List.append_inj' hpieces rfl
      exact ih before'

/-- Each piece is placed once at most, and the placed pieces keep their order. -/
theorem Packs.sublist {pieces : List ι} {placed : List (ι × ℕ)} (h : Packs shape bound pieces placed) :
    (placed.map Prod.fst).Sublist pieces := by
  induction h with
  | nil => exact List.Sublist.refl _
  | place before first ih =>
    rw [List.map_append]
    exact ih.append (List.Sublist.refl _)
  | leave before none ih => exact ih.trans (List.sublist_append_left _ _)

/-- Every piece stands inside the strip. -/
theorem Packs.inside {pieces : List ι} {placed : List (ι × ℕ)} (h : Packs shape bound pieces placed)
    {p : ι × ℕ} (hp : p ∈ placed) : p.2 < bound := by
  induction h with
  | nil => simp at hp
  | place before first ih =>
    rcases List.mem_append.mp hp with hp | hp
    · exact ih hp
    · obtain rfl := List.mem_singleton.mp hp
      exact first.inside
  | leave before none ih => exact ih hp

/-- **No two pieces cover one slot.** -/
theorem Packs.pairwise_disjoint {pieces : List ι} {placed : List (ι × ℕ)} (h : Packs shape bound pieces placed) :
    placed.Pairwise fun p q => Disjoint (slots bound (shape p.1) p.2) (slots bound (shape q.1) q.2) := by
  induction h with
  | nil => exact List.Pairwise.nil
  | place before first ih =>
    refine List.pairwise_append.mpr ⟨ih, List.pairwise_singleton _ _, ?_⟩
    intro p hp q hq
    obtain rfl := List.mem_singleton.mp hq
    exact (first.room.mono_right (slots_subset_taken hp)).symm
  | leave before none ih => exact ih

/-- A placed piece never finds room further left, as more and more slots are taken. -/
lemma Packs.no_room_left {pieces : List ι} {placed : List (ι × ℕ)} (h : Packs shape bound pieces placed)
    {p : ι × ℕ} (hp : p ∈ placed) {left : ℕ} (hleft : left < p.2) : ¬ Room shape bound placed p.1 left := by
  induction h with
  | nil => simp at hp
  | @place pieces placed i column before first ih =>
    intro hroom
    have hbefore : Room shape bound placed p.1 left := by
      refine Disjoint.mono_right ?_ hroom
      rw [taken_append]
      exact Set.subset_union_left
    rcases List.mem_append.mp hp with hp | hp
    · exact ih hp hbefore
    · obtain rfl := List.mem_singleton.mp hp
      exact first.least left hleft hbefore
  | leave before none ih => exact ih hp

/-- **A piece as large as an earlier one of its row stands on its right.**

**Proof sketch.** At the column of the later piece the earlier one covers less than the later one does, so it has
room there if the later one has, and stands at that column or on its left. It does not stand at that column, since
the two would share a slot. -/
theorem Packs.ordered {pieces : List ι} {placed : List (ι × ℕ)} (h : Packs shape bound pieces placed) :
    placed.Pairwise fun p q => (shape p.1).row = (shape q.1).row → (shape p.1).height ≤ (shape q.1).height →
      (shape p.1).width ≤ (shape q.1).width → p.2 < q.2 := by
  induction h with
  | nil => exact List.Pairwise.nil
  | @place pieces placed i column before first ih =>
    refine List.pairwise_append.mpr ⟨ih, List.pairwise_singleton _ _, ?_⟩
    intro p hp q hq hrow hheight hwidth
    obtain rfl := List.mem_singleton.mp hq
    have hsmaller : ∀ left, slots bound (shape p.1) left ⊆ slots bound (shape i) left :=
      slots_mono hrow hheight hwidth
    rcases Nat.lt_trichotomy p.2 column with hlt | heq | hgt
    · exact hlt
    · have hcorner : ((shape p.1).row, p.2) ∈ slots bound (shape p.1) p.2 := corner_mem_slots (before.inside hp)
      have hlater := hsmaller p.2 hcorner
      have htaken := slots_subset_taken hp hcorner
      rw [heq] at hlater htaken
      exact absurd htaken (Set.disjoint_left.mp first.room hlater)
    · exact absurd (first.room.mono_left (hsmaller _)) (before.no_room_left hp hgt)
  | leave before none ih => exact ih

/-- The first pieces are packed by themselves. -/
lemma Packs.split {pieces : List ι} {placed : List (ι × ℕ)} (h : Packs shape bound pieces placed)
    {first last : List ι} (hpieces : pieces = first ++ last) :
    ∃ before after, placed = before ++ after ∧ Packs shape bound first before := by
  induction h generalizing last with
  | nil =>
    obtain ⟨rfl, rfl⟩ := List.append_eq_nil_iff.mp hpieces.symm
    exact ⟨[], [], rfl, Packs.nil⟩
  | @place pieces placed i column before first' ih =>
    rcases List.eq_nil_or_concat last with rfl | ⟨last', j, rfl⟩
    · rw [List.append_nil] at hpieces
      exact ⟨placed ++ [(i, column)], [], (List.append_nil _).symm, hpieces ▸ before.place first'⟩
    · rw [List.concat_eq_append, ← List.append_assoc] at hpieces
      obtain ⟨earlier, after, rfl, hfirst⟩ := ih (List.append_inj' hpieces rfl).1
      exact ⟨earlier, after ++ [(i, column)], List.append_assoc _ _ _, hfirst⟩
  | @leave pieces placed i before none ih =>
    rcases List.eq_nil_or_concat last with rfl | ⟨last', j, rfl⟩
    · rw [List.append_nil] at hpieces
      exact ⟨placed, [], (List.append_nil _).symm, hpieces ▸ before.leave none⟩
    · rw [List.concat_eq_append, ← List.append_assoc] at hpieces
      exact ih (List.append_inj' hpieces rfl).1

/-- **A piece takes the first column with room**, or finds room nowhere: the pieces before it are in its way at
every column up to its own. -/
theorem Packs.blocked {first last : List ι} {i : ι} {placed : List (ι × ℕ)}
    (h : Packs shape bound (first ++ i :: last) placed) :
    ∃ before after, placed = before ++ after ∧ before.map Prod.fst ⊆ first ∧
      ∀ column < bound, (∀ own, (i, own) ∈ placed → column < own) → ¬ Room shape bound before i column := by
  obtain ⟨earlier, after, rfl, hearlier⟩ := h.split (List.append_cons first i last)
  generalize hpieces : first ++ [i] = pieces at hearlier
  cases hearlier with
  | nil => simp at hpieces
  | @place pieces placed j own before first' =>
    obtain ⟨rfl, hij⟩ := List.append_inj' hpieces rfl
    obtain rfl : i = j := by simpa using hij
    refine ⟨placed, [(i, own)] ++ after, List.append_assoc _ _ _, before.sublist.subset, ?_⟩
    intro column _ hown
    exact first'.least column (hown own (by simp))
  | @leave pieces placed j before none =>
    obtain ⟨rfl, hij⟩ := List.append_inj' hpieces rfl
    obtain rfl : i = j := by simpa using hij
    exact ⟨earlier, after, rfl, before.sublist.subset, fun column hcolumn _ => none column hcolumn⟩

/-- What is whole stays whole without its last piece. -/
lemma Whole.before {pieces : List ι} {placed : List (ι × ℕ)} {i : ι} {column : ℕ}
    (h : Whole shape bound (pieces ++ [i]) (placed ++ [(i, column)])) : Whole shape bound pieces placed := by
  refine ⟨?_, fun p hp => h.uncut p (List.mem_append_left _ hp)⟩
  have hall := h.all
  rw [List.map_append] at hall
  exact (List.append_inj' hall rfl).1

/-- A packing that leaves a piece out is not whole. -/
lemma Packs.not_whole_of_leave {pieces : List ι} {placed : List (ι × ℕ)} {i : ι}
    (h : Packs shape bound pieces placed) : ¬ Whole shape bound (pieces ++ [i]) placed := by
  intro hwhole
  have hlength := h.sublist.length_le
  rw [hwhole.all, List.length_append, List.length_singleton] at hlength
  omega

/-- **A packing which is whole is the packing of every strip wide enough for it.** -/
theorem Packs.narrow {other : ℕ} {pieces : List ι} {placed : List (ι × ℕ)} (h : Packs shape bound pieces placed)
    (hwhole : Whole shape bound pieces placed) (hother : ∀ p ∈ placed, p.2 + (shape p.1).width ≤ other) :
    Packs shape other pieces placed := by
  induction h with
  | nil => exact Packs.nil
  | @place pieces placed i column before first ih =>
    have hbefore := hwhole.before
    have hothers : ∀ p ∈ placed, p.2 + (shape p.1).width ≤ other :=
      fun p hp => hother p (List.mem_append_left _ hp)
    have hlast := List.mem_append_right placed (List.mem_singleton.mpr (Eq.refl (i, column)))
    have hwide : column + (shape i).width ≤ bound := hwhole.uncut _ hlast
    have hfits : column + (shape i).width ≤ other := hother _ hlast
    have hwidth := (shape i).width_pos
    have hroom : ∀ left ≤ column, Room shape bound placed i left ↔ Room shape other placed i left := by
      intro left hleft
      have hslots : slots bound (shape i) left = slots other (shape i) left :=
        slots_of_uncut (by omega) (by omega)
      rw [Room, Room, taken_of_uncut hbefore.uncut hothers, hslots]
    refine Packs.place (ih hbefore hothers) ⟨by omega, ?_, ?_⟩
    · exact (hroom column (Nat.le_refl _)).mp first.room
    · intro left hleft hfree
      exact first.least left hleft ((hroom left hleft.le).mpr hfree)
  | leave before none ih => exact absurd hwhole before.not_whole_of_leave

end Generic

end Packing
