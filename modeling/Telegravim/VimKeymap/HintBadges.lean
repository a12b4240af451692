import Mathlib.Data.List.Induction
import Mathlib.Data.List.Sort
import Mathlib.Tactic.Linarith
import Telegravim.Foundation.QRect

set_option autoImplicit false

/-!
# The layout of hint badges

`LayoutHintBadges` places badges one after another near the positions that are wanted, inside the bounds, each
with its centre in its target, and apart from those already placed. When the wanted position is not free, it looks
in some rows only: the wanted one, the first and the last, and those next to a placed badge. In a row it goes
through the gaps between the columns that are blocked.

A badge at `(x, y)` has its centre at `(x + (width - 1) / 2, y + (height - 1) / 2)`.

## Main definitions

* `VimKeymap.layoutHintBadges` — the layout.
* `VimKeymap.Fits` — the positions that a badge may have.

## Main results

* `VimKeymap.sweep_spec` — a row is searched completely.
* `VimKeymap.exists_row` — no row that is left out has a nearer position.
* `VimKeymap.layoutHintBadges_optimal` — badges are apart, as near as they can be, and left out only when there is
  no room.
-/

namespace VimKeymap

open QRect

/-- `std::numeric_limits<int>::max()`. -/
def intMax : ℤ := 2 ^ 31 - 1

/-- `std::clamp`. -/
def clamp (v lo hi : ℤ) : ℤ := if v < lo then lo else if hi < v then hi else v

/-! ### The layout -/

/-- The positions of the left upper corner of a badge that are allowed. -/
structure Range where
  /-- The first column. -/
  minX : ℤ
  /-- The first row. -/
  minY : ℤ
  /-- The last column. -/
  maxX : ℤ
  /-- The last row. -/
  maxY : ℤ
  deriving DecidableEq, Repr

/-- The positions inside the bounds with the centre in the target, when there are any. -/
def allowedRange (rect bounds : QRect) (target : Option QRect) : Option Range :=
  if rect.isEmpty || bounds.isEmpty || decide (bounds.width < rect.width) || decide (bounds.height < rect.height) then
    none
  else
    let whole : Range :=
      ⟨bounds.left, bounds.top, bounds.right - rect.width + 1, bounds.bottom - rect.height + 1⟩
    let range : Option Range := match target with
      | none => some whole
      | some target =>
        if target.isNull then some whole
        else
          let target := target.intersected bounds
          if target.isEmpty then none
          else
            let center := (ofSize 0 0 rect.width rect.height).center
            some ⟨max whole.minX (target.left - center.1), max whole.minY (target.top - center.2),
              min whole.maxX (target.right - center.1), min whole.maxY (target.bottom - center.2)⟩
    range.filter fun range => !(decide (range.maxX < range.minX) || decide (range.maxY < range.minY))

/-- No placed badge is nearer than the gap. -/
def free (placed : List QRect) (gap : ℤ) (candidate : QRect) : Bool :=
  placed.all fun p => p.isEmpty || !(p.grown gap).intersects candidate

/-- `std::unique`: equal neighbours are removed. -/
def unique : List ℤ → List ℤ
  | [] => []
  | [x] => [x]
  | x :: y :: rest => if x = y then unique (y :: rest) else x :: unique (y :: rest)

/-- The rows that are searched. -/
def rows (placed : List QRect) (gap : ℤ) (range : Range) (rect : QRect) : List ℤ :=
  unique (([rect.top, range.minY, range.maxY] ++ placed.flatMap fun p =>
    if p.isEmpty then []
    else [clamp (p.top - gap - rect.height) range.minY range.maxY, clamp (p.bottom + gap + 1) range.minY range.maxY]
    ).insertionSort (· ≤ ·))

/-- The order of pairs. -/
def pairLe (a b : ℤ × ℤ) : Prop := a.1 < b.1 ∨ (a.1 = b.1 ∧ a.2 ≤ b.2)

instance : DecidableRel pairLe := fun _ _ => inferInstanceAs (Decidable (_ ∨ _))

instance : Std.Total pairLe := ⟨fun a b => by
  unfold pairLe
  omega⟩

instance : IsTrans (ℤ × ℤ) pairLe := ⟨fun a b c hab hbc => by
  unfold pairLe at *
  omega⟩

/-- The columns of a row that are blocked, from and to. -/
def blocked (placed : List QRect) (gap : ℤ) (rect : QRect) (y : ℤ) : List (ℤ × ℤ) :=
  placed.filterMap fun p =>
    if !p.isEmpty && decide (y ≤ p.bottom + gap) && decide (p.top - gap < y + rect.height) then
      some (p.left - gap - rect.width + 1, p.right + gap)
    else none

/-- The lambda `consider`: the nearest position between two columns of a row. -/
def consider (rect : QRect) (y : ℤ) (best : QRect × ℤ) (left right : ℤ) : QRect × ℤ :=
  if right < left then best
  else
    let x := clamp rect.left left right
    let delta := |x - rect.left| + |y - rect.top|
    if delta < best.2 then (ofSize x y rect.width rect.height, delta) else best

/-- The loop over the blocked columns of a row. -/
def sweep (rect : QRect) (y maxX : ℤ) : List (ℤ × ℤ) → ℤ → QRect × ℤ → QRect × ℤ
  | [], left, best => consider rect y best left maxX
  | b :: rest, left, best =>
    sweep rect y maxX rest (max left (b.2 + 1)) (consider rect y best left (min maxX (b.1 - 1)))

/-- A row is searched, unless it is too far away. -/
def searchRow (placed : List QRect) (gap : ℤ) (range : Range) (rect : QRect) (best : QRect × ℤ) (y : ℤ) : QRect × ℤ :=
  if best.2 < |y - rect.top| then best
  else sweep rect y range.maxX ((blocked placed gap rect y).insertionSort pairLe) range.minX best

/-- The badge is moved to the nearest allowed position, without regard to the other badges. -/
def moved (rect : QRect) (range : Range) : QRect :=
  ofSize (clamp rect.left range.minX range.maxX) (clamp rect.top range.minY range.maxY) rect.width rect.height

/-- The place of one badge, among those that are placed. -/
def layoutBadge (placed : List QRect) (rect bounds : QRect) (gap : ℤ) (target : Option QRect) : QRect :=
  match allowedRange rect bounds target with
  | none => null
  | some range =>
    let rect := moved rect range
    if free placed gap rect then rect
    else ((rows placed gap range rect).foldl (searchRow placed gap range rect) (null, intMax)).1

/-- The loop over the badges. -/
def layoutLoop (bounds : QRect) (gap : ℤ) (targets : List QRect) (desired : List QRect) : List QRect :=
  desired.foldl (fun result rect => result ++ [layoutBadge result rect bounds gap targets[result.length]?]) []

/-- `LayoutHintBadges`; `none` when the numbers of targets and badges differ. -/
def layoutHintBadges (desired : List QRect) (bounds : QRect) (gap : ℤ) (targets : List QRect) : Option (List QRect) :=
  if targets = [] ∨ targets.length = desired.length then some (layoutLoop bounds (max gap 0) targets desired) else none

/-! ### Positions -/

/-- The centre of a badge at a position. -/
def centre (rect : QRect) (x y : ℤ) : ℤ × ℤ := (x + (rect.width - 1) / 2, y + (rect.height - 1) / 2)

/-- A position is inside the bounds, with the centre in the target. -/
structure Allowed (rect bounds : QRect) (target : Option QRect) (x y : ℤ) : Prop where
  /-- The badge has pixels. -/
  nonempty : rect.isEmpty = false
  /-- It is inside the bounds. -/
  inside : bounds.left ≤ x ∧ x + rect.width - 1 ≤ bounds.right ∧ bounds.top ≤ y ∧ y + rect.height - 1 ≤ bounds.bottom
  /-- Its centre is in the target as far as that is inside the bounds. -/
  anchored : ∀ t, target = some t → t.isNull = false → (t.intersected bounds).Contains (centre rect x y)

/-- **A badge may have a position**, among those that are placed. -/
structure Fits (placed : List QRect) (rect bounds : QRect) (gap : ℤ) (target : Option QRect) (x y : ℤ) : Prop where
  /-- The position is allowed. -/
  allowed : Allowed rect bounds target x y
  /-- It is apart from the placed badges. -/
  apart : ∀ p ∈ placed, p.isEmpty = false → (p.grown gap).intersects (ofSize x y rect.width rect.height) = false

/-- The Manhattan distance of a position to a badge. -/
def distance (rect : QRect) (x y : ℤ) : ℤ := |x - rect.left| + |y - rect.top|

/-- The centre of the rectangle that Qt computes is this one, when no coordinate is negative. -/
lemma center_ofSize {rect : QRect} (h : rect.isEmpty = false) {x y : ℤ} (hx : 0 ≤ x) (hy : 0 ≤ y) :
    (ofSize x y rect.width rect.height).center = centre rect x y := by
  have hrect := isEmpty_eq_false_iff.mp h
  unfold center centre ofSize width height
  dsimp only
  rw [Int.tdiv_eq_ediv_of_nonneg (by omega), Int.tdiv_eq_ediv_of_nonneg (by omega)]
  refine Prod.ext ?_ ?_
  · dsimp only
    omega
  · dsimp only
    omega

lemma width_ofSize (x y w h : ℤ) : (ofSize x y w h).width = w := by
  unfold ofSize width
  dsimp only
  omega

lemma height_ofSize (x y w h : ℤ) : (ofSize x y w h).height = h := by
  unfold ofSize height
  dsimp only
  omega

/-- The size of a rectangle that is not empty. -/
lemma size_pos {rect : QRect} (h : rect.isEmpty = false) : 0 < rect.width ∧ 0 < rect.height := by
  have hrect := isEmpty_eq_false_iff.mp h
  unfold width height
  omega

/-- A rectangle is inside the range of another one. -/
def Range.Has (range : Range) (x y : ℤ) : Prop :=
  range.minX ≤ x ∧ x ≤ range.maxX ∧ range.minY ≤ y ∧ y ≤ range.maxY

/-- **The range is that of the allowed positions.** -/
lemma allowedRange_iff (rect bounds : QRect) (target : Option QRect) (x y : ℤ) :
    Allowed rect bounds target x y ↔ ∃ range, allowedRange rect bounds target = some range ∧ range.Has x y := by
  unfold allowedRange
  by_cases hempty : (rect.isEmpty || bounds.isEmpty || decide (bounds.width < rect.width) ||
      decide (bounds.height < rect.height)) = true
  · rw [if_pos hempty]
    constructor
    · rintro ⟨hrect, hinside, -⟩
      have hsize := size_pos hrect
      rw [hrect, Bool.false_or, Bool.or_eq_true, Bool.or_eq_true, isEmpty_eq_true_iff, decide_eq_true_eq,
        decide_eq_true_eq] at hempty
      unfold width height at hempty hinside hsize
      omega
    · rintro ⟨range, hrange, -⟩
      cases hrange
  · rw [if_neg hempty]
    rw [Bool.not_eq_true, Bool.or_eq_false_iff, Bool.or_eq_false_iff, Bool.or_eq_false_iff] at hempty
    obtain ⟨⟨⟨hrect, -⟩, -⟩, -⟩ := hempty
    have hsize := size_pos hrect
    have hwhole : ∀ range : Range, range = ⟨bounds.left, bounds.top, bounds.right - rect.width + 1,
        bounds.bottom - rect.height + 1⟩ → ((bounds.left ≤ x ∧ x + rect.width - 1 ≤ bounds.right ∧ bounds.top ≤ y ∧
          y + rect.height - 1 ≤ bounds.bottom) ↔ range.Has x y) := by
      rintro range rfl
      unfold Range.Has
      dsimp only
      omega
    have hfilter : ∀ {found : Option Range}, (∃ range, (found.filter fun range =>
        !(decide (range.maxX < range.minX) || decide (range.maxY < range.minY))) = some range ∧ range.Has x y) ↔
          ∃ range, found = some range ∧ range.Has x y := by
      intro found
      constructor
      · rintro ⟨range, hrange, hhas⟩
        exact ⟨range, (Option.filter_eq_some_iff.mp hrange).1, hhas⟩
      · rintro ⟨range, hrange, hhas⟩
        refine ⟨range, Option.filter_eq_some_iff.mpr ⟨hrange, ?_⟩, hhas⟩
        unfold Range.Has at hhas
        rw [Bool.not_eq_true', Bool.or_eq_false_iff, decide_eq_false_iff_not, decide_eq_false_iff_not]
        omega
    dsimp only
    rw [hfilter]
    have hnoTarget : (∀ t, target = some t → t.isNull = false → (t.intersected bounds).Contains (centre rect x y)) →
        (Allowed rect bounds target x y ↔ ∃ range : Range, some (⟨bounds.left, bounds.top,
          bounds.right - rect.width + 1, bounds.bottom - rect.height + 1⟩ : Range) = some range ∧ range.Has x y) := by
      intro hnone
      constructor
      · rintro ⟨-, hinside, -⟩
        exact ⟨_, rfl, (hwhole _ rfl).mp hinside⟩
      · rintro ⟨range, hrange, hhas⟩
        exact ⟨hrect, (hwhole range (Option.some.inj hrange).symm).mpr hhas, hnone⟩
    cases target with
    | none => exact hnoTarget fun t ht => by cases ht
    | some target =>
      dsimp only
      by_cases hnull : target.isNull = true
      · rw [if_pos hnull]
        refine hnoTarget fun t ht hfalse => ?_
        rw [← Option.some.inj ht, hnull] at hfalse
        cases hfalse
      · rw [if_neg hnull]
        rw [Bool.not_eq_true] at hnull
        by_cases hclipped : (target.intersected bounds).isEmpty = true
        · rw [if_pos hclipped]
          constructor
          · rintro ⟨-, -, hanchored⟩
            have hcontains := hanchored target rfl hnull
            unfold Contains at hcontains
            have := isEmpty_eq_true_iff.mp hclipped
            omega
          · rintro ⟨range, hrange, -⟩
            cases hrange
        · rw [if_neg hclipped]
          have hcenter : (ofSize 0 0 rect.width rect.height).center = ((rect.width - 1) / 2, (rect.height - 1) / 2) := by
            rw [center_ofSize hrect le_rfl le_rfl]
            unfold centre
            rw [zero_add, zero_add]
          rw [hcenter]
          constructor
          · rintro ⟨-, hinside, hanchored⟩
            refine ⟨_, rfl, ?_⟩
            have hcontains := hanchored target rfl hnull
            unfold Contains centre at hcontains
            unfold Range.Has
            dsimp only at hcontains ⊢
            omega
          · rintro ⟨range, hrange, hhas⟩
            obtain rfl := Option.some.inj hrange
            unfold Range.Has at hhas
            dsimp only at hhas
            refine ⟨hrect, by omega, fun t ht _ => ?_⟩
            obtain rfl := Option.some.inj ht
            unfold Contains centre
            dsimp only
            omega

/-! ### The search -/

section Search

variable {placed : List QRect} {rect bounds : QRect} {gap : ℤ} {target : Option QRect} {range : Range}

lemma clamp_spec {v lo hi : ℤ} (h : lo ≤ hi) : lo ≤ clamp v lo hi ∧ clamp v lo hi ≤ hi ∧
    ∀ x, lo ≤ x → x ≤ hi → |clamp v lo hi - v| ≤ |x - v| := by
  simp only [Int.abs_eq_natAbs]
  unfold clamp
  split_ifs
  · exact ⟨le_rfl, h, fun x _ _ => by omega⟩
  · exact ⟨h, le_rfl, fun x _ _ => by omega⟩
  · exact ⟨by omega, by omega, fun x _ _ => by omega⟩

lemma clamp_of_mem {v lo hi : ℤ} (hlo : lo ≤ v) (hhi : v ≤ hi) : clamp v lo hi = v := by
  unfold clamp
  rw [if_neg (by omega), if_neg (by omega)]

/-- What the search has found: nothing yet, or a position that fits with its distance. -/
def Found (rect : QRect) (P : ℤ → ℤ → Prop) (best : QRect × ℤ) : Prop :=
  best = (null, intMax) ∨
    ∃ x y, P x y ∧ best = (ofSize x y rect.width rect.height, distance rect x y)

/-- **One gap of a row.** -/
lemma consider_spec {P : ℤ → ℤ → Prop} (y left right : ℤ) {best : QRect × ℤ} (hbest : Found rect P best)
    (hP : ∀ x, left ≤ x → x ≤ right → P x y) :
    Found rect P (consider rect y best left right) ∧ (consider rect y best left right).2 ≤ best.2 ∧
      ∀ x, left ≤ x → x ≤ right → (consider rect y best left right).2 ≤ distance rect x y := by
  unfold consider
  by_cases hgap : right < left
  · rw [if_pos hgap]
    exact ⟨hbest, le_rfl, fun x _ _ => by omega⟩
  · rw [if_neg hgap]
    dsimp only
    obtain ⟨hlo, hhi, hmin⟩ := clamp_spec (v := rect.left) (show left ≤ right by omega)
    by_cases hnear : |clamp rect.left left right - rect.left| + |y - rect.top| < best.2
    · rw [if_pos hnear]
      refine ⟨Or.inr ⟨_, y, hP _ hlo hhi, rfl⟩, hnear.le, fun x hx hx' => ?_⟩
      have := hmin x hx hx'
      unfold distance
      dsimp only
      omega
    · rw [if_neg hnear]
      refine ⟨hbest, le_rfl, fun x hx hx' => ?_⟩
      have := hmin x hx hx'
      unfold distance
      omega

/-- **A row is searched completely**, when the blocked columns are in their order.

**Proof sketch.** A free column before the next blocked ones is in the gap that is considered now; one after them
is considered later. The columns of a gap are before all blocked columns that are still to come. -/
lemma sweep_spec {P : ℤ → ℤ → Prop} {y maxX : ℤ} {bs : List (ℤ × ℤ)} (hsorted : bs.Pairwise pairLe) (left : ℤ)
    {best : QRect × ℤ} (hbest : Found rect P best)
    (hP : ∀ x, left ≤ x → x ≤ maxX → (∀ b ∈ bs, ¬ (b.1 ≤ x ∧ x ≤ b.2)) → P x y) :
    Found rect P (sweep rect y maxX bs left best) ∧ (sweep rect y maxX bs left best).2 ≤ best.2 ∧
      ∀ x, left ≤ x → x ≤ maxX → (∀ b ∈ bs, ¬ (b.1 ≤ x ∧ x ≤ b.2)) →
        (sweep rect y maxX bs left best).2 ≤ distance rect x y := by
  induction bs generalizing left best with
  | nil =>
    have hfree : ∀ x, ∀ b ∈ ([] : List (ℤ × ℤ)), ¬ (b.1 ≤ x ∧ x ≤ b.2) := fun _ _ hb => by cases hb
    obtain ⟨hfound, hle, hmin⟩ := consider_spec y left maxX hbest fun x hx hx' => hP x hx hx' (hfree x)
    exact ⟨hfound, hle, fun x hx hx' _ => hmin x hx hx'⟩
  | cons b rest ih =>
    rw [List.pairwise_cons] at hsorted
    obtain ⟨hfirst, hsorted⟩ := hsorted
    obtain ⟨hfound, hle, hmin⟩ := consider_spec y left (min maxX (b.1 - 1)) hbest
      fun x hx hx' => hP x hx (by omega) fun c hc hblocked => by
        rcases List.mem_cons.mp hc with rfl | hc
        · omega
        · have := hfirst c hc
          unfold pairLe at this
          omega
    obtain ⟨hfound', hle', hmin'⟩ := ih hsorted (max left (b.2 + 1)) hfound fun x hx hx' hfree =>
      hP x (by omega) hx' fun c hc hblocked => by
        rcases List.mem_cons.mp hc with rfl | hc
        · omega
        · exact hfree c hc hblocked
    refine ⟨hfound', hle'.trans hle, fun x hx hx' hfree => ?_⟩
    have hb := hfree b List.mem_cons_self
    by_cases hbefore : x < b.1
    · exact hle'.trans (hmin x hx (by omega))
    · exact hmin' x (by omega) hx' fun c hc => hfree c (List.mem_cons_of_mem _ hc)

/-- A column of a row is blocked when a placed badge is too near. -/
lemma blocked_iff (hrect : rect.isEmpty = false) (hgap : 0 ≤ gap) (x y : ℤ) :
    (∀ b ∈ blocked placed gap rect y, ¬ (b.1 ≤ x ∧ x ≤ b.2)) ↔
      ∀ p ∈ placed, p.isEmpty = false → (p.grown gap).intersects (ofSize x y rect.width rect.height) = false := by
  have hsize := size_pos hrect
  have hone : ∀ p : QRect, p.isEmpty = false → ((p.grown gap).intersects (ofSize x y rect.width rect.height) = true ↔
      (y ≤ p.bottom + gap ∧ p.top - gap < y + rect.height) ∧
        p.left - gap - rect.width + 1 ≤ x ∧ x ≤ p.right + gap) := by
    intro p hp
    rw [intersects_iff (isEmpty_grown hp hgap) (isEmpty_ofSize.mpr hsize)]
    unfold grown ofSize
    dsimp only
    omega
  constructor
  · intro h p hp hne
    rw [← Bool.not_eq_true]
    intro hintersects
    obtain ⟨⟨hbottom, htop⟩, hcolumns⟩ := (hone p hne).mp hintersects
    refine h (p.left - gap - rect.width + 1, p.right + gap) (List.mem_filterMap.mpr ⟨p, hp, if_pos ?_⟩) hcolumns
    rw [hne, Bool.not_false, Bool.true_and, Bool.and_eq_true, decide_eq_true_eq, decide_eq_true_eq]
    exact ⟨hbottom, htop⟩
  · intro h b hb hcolumns
    obtain ⟨p, hp, hblocks⟩ := List.mem_filterMap.mp hb
    by_cases hcond : (!p.isEmpty && decide (y ≤ p.bottom + gap) && decide (p.top - gap < y + rect.height)) = true
    · rw [if_pos hcond] at hblocks
      obtain rfl := Option.some.inj hblocks
      rw [Bool.and_eq_true, Bool.and_eq_true, Bool.not_eq_true', decide_eq_true_eq, decide_eq_true_eq] at hcond
      have hfalse := h p hp hcond.1.1
      rw [(hone p hcond.1.1).mpr ⟨⟨hcond.1.2, hcond.2⟩, hcolumns⟩] at hfalse
      cases hfalse
    · rw [if_neg hcond] at hblocks
      cases hblocks

/-- The badge, moved, has the same size. -/
lemma size_moved (rect : QRect) (range : Range) :
    (moved rect range).width = rect.width ∧ (moved rect range).height = rect.height :=
  ⟨width_ofSize _ _ _ _, height_ofSize _ _ _ _⟩

/-- A position of the range that is apart from the placed badges. -/
def Apart (placed : List QRect) (gap : ℤ) (rect : QRect) (range : Range) (x y : ℤ) : Prop :=
  range.Has x y ∧
    ∀ p ∈ placed, p.isEmpty = false → (p.grown gap).intersects (ofSize x y rect.width rect.height) = false

/-- **A row is searched**, or it is too far away. -/
lemma searchRow_spec (hrect : rect.isEmpty = false) (hgap : 0 ≤ gap) {y : ℤ} (hy : range.minY ≤ y ∧ y ≤ range.maxY)
    {best : QRect × ℤ} (hbest : Found rect (Apart placed gap rect range) best) :
    Found rect (Apart placed gap rect range) (searchRow placed gap range rect best y) ∧
      (searchRow placed gap range rect best y).2 ≤ best.2 ∧
      ∀ x, Apart placed gap rect range x y → (searchRow placed gap range rect best y).2 ≤ distance rect x y := by
  unfold searchRow
  by_cases hfar : best.2 < |y - rect.top|
  · rw [if_pos hfar]
    refine ⟨hbest, le_rfl, fun x _ => ?_⟩
    have : 0 ≤ |x - rect.left| := abs_nonneg _
    unfold distance
    omega
  · rw [if_neg hfar]
    have hmem : ∀ x : ℤ, (∀ b ∈ (blocked placed gap rect y).insertionSort pairLe, ¬ (b.1 ≤ x ∧ x ≤ b.2)) ↔
        ∀ b ∈ blocked placed gap rect y, ¬ (b.1 ≤ x ∧ x ≤ b.2) := fun x => by
      simp only [List.mem_insertionSort]
    obtain ⟨hfound, hle, hmin⟩ := sweep_spec
      (List.pairwise_insertionSort pairLe (blocked placed gap rect y)) range.minX hbest
      fun x hx (hx' : x ≤ range.maxX) hfree =>
        ⟨⟨hx, hx', hy⟩, (blocked_iff hrect hgap x y).mp ((hmem x).mp hfree)⟩
    exact ⟨hfound, hle, fun x hx => hmin x hx.1.1 hx.1.2.1 ((hmem x).mpr ((blocked_iff hrect hgap x y).mpr hx.2))⟩

/-- Removing equal neighbours removes no element. -/
lemma mem_unique {l : List ℤ} {x : ℤ} : x ∈ unique l ↔ x ∈ l := by
  induction l using unique.induct with
  | case1 => exact Iff.rfl
  | case2 y => exact Iff.rfl
  | case3 y rest ih =>
    rw [unique, if_pos rfl, ih]
    simp
  | case4 y z rest hne ih =>
    rw [unique, if_neg hne, List.mem_cons, ih, List.mem_cons (a := x) (b := y)]

lemma mem_rows {y : ℤ} : y ∈ rows placed gap range rect ↔ y = rect.top ∨ y = range.minY ∨ y = range.maxY ∨
    ∃ p ∈ placed, p.isEmpty = false ∧ (y = clamp (p.top - gap - rect.height) range.minY range.maxY ∨
      y = clamp (p.bottom + gap + 1) range.minY range.maxY) := by
  unfold rows
  rw [mem_unique, List.mem_insertionSort, List.mem_append, List.mem_flatMap]
  constructor
  · rintro (h | ⟨p, hp, h⟩)
    · simp only [List.mem_cons, List.not_mem_nil, or_false] at h
      rcases h with h | h | h
      · exact Or.inl h
      · exact Or.inr (Or.inl h)
      · exact Or.inr (Or.inr (Or.inl h))
    · by_cases hempty : p.isEmpty = true
      · rw [if_pos hempty] at h
        cases h
      · rw [if_neg hempty] at h
        simp only [List.mem_cons, List.not_mem_nil, or_false] at h
        exact Or.inr (Or.inr (Or.inr ⟨p, hp, Bool.not_eq_true _ ▸ hempty, h⟩))
  · rintro (h | h | h | ⟨p, hp, hempty, h⟩)
    · exact Or.inl (by simp [h])
    · exact Or.inl (by simp [h])
    · exact Or.inl (by simp [h])
    · refine Or.inr ⟨p, hp, ?_⟩
      rw [hempty]
      simpa using h

/-- All rows are rows of the range. -/
lemma range_of_mem_rows {y : ℤ} (h : y ∈ rows placed gap range rect) (hle : range.minY ≤ range.maxY)
    (hrect : range.minY ≤ rect.top ∧ rect.top ≤ range.maxY) : range.minY ≤ y ∧ y ≤ range.maxY := by
  have hclamp : ∀ v, range.minY ≤ clamp v range.minY range.maxY ∧ clamp v range.minY range.maxY ≤ range.maxY :=
    fun v => ⟨(clamp_spec hle).1, (clamp_spec hle).2.1⟩
  rcases mem_rows.mp h with rfl | rfl | rfl | ⟨p, -, -, rfl | rfl⟩
  · exact hrect
  · exact ⟨le_rfl, hle⟩
  · exact ⟨hle, le_rfl⟩
  · exact hclamp _
  · exact hclamp _

/-- **No row that is left out has a nearer position.**

**Proof sketch.** A badge is moved row by row towards the wanted one, by induction on the distance. Where it
cannot be moved further, it touches the margin of a placed badge, and that row is searched. -/
lemma exists_row (hrect : rect.isEmpty = false) (hgap : 0 ≤ gap) (htop : range.minY ≤ rect.top ∧ rect.top ≤ range.maxY)
    {x y : ℤ} (h : Apart placed gap rect range x y) :
    ∃ y' ∈ rows placed gap range rect, Apart placed gap rect range x y' ∧ |y' - rect.top| ≤ |y - rect.top| := by
  have hsize := size_pos hrect
  obtain ⟨k, hk⟩ : ∃ k, (y - rect.top).natAbs = k := ⟨_, rfl⟩
  induction k generalizing y with
  | zero => exact ⟨y, mem_rows.mpr (Or.inl (by omega)), h, le_rfl⟩
  | succ k ih =>
    -- The next row towards the wanted one.
    obtain ⟨next, hnext⟩ : ∃ next, next = if rect.top < y then y - 1 else y + 1 := ⟨_, rfl⟩
    have hhas := h.1
    unfold Range.Has at hhas
    have hhasNext : range.Has x next := by
      unfold Range.Has
      split_ifs at hnext
      · omega
      · omega
    by_cases hapart : Apart placed gap rect range x next
    · obtain ⟨y', hy', hfits, hle⟩ := ih hapart (by
        split_ifs at hnext
        · omega
        · omega)
      refine ⟨y', hy', hfits, hle.trans ?_⟩
      simp only [Int.abs_eq_natAbs]
      split_ifs at hnext
      · omega
      · omega
    · obtain ⟨p, hp, hne, hintersects⟩ : ∃ p ∈ placed, p.isEmpty = false ∧
          (p.grown gap).intersects (ofSize x next rect.width rect.height) = true := by
        by_contra hnot
        refine hapart ⟨hhasNext, fun p hp hne => ?_⟩
        rw [← Bool.not_eq_true]
        exact fun hintersects => hnot ⟨p, hp, hne, hintersects⟩
      have hfree := h.2 p hp hne
      rw [← Bool.not_eq_true, intersects_iff (isEmpty_grown hne hgap) (isEmpty_ofSize.mpr hsize)] at hfree
      rw [intersects_iff (isEmpty_grown hne hgap) (isEmpty_ofSize.mpr hsize)] at hintersects
      unfold grown ofSize at hfree hintersects
      dsimp only at hfree hintersects
      refine ⟨y, mem_rows.mpr (Or.inr (Or.inr (Or.inr ⟨p, hp, hne, ?_⟩))), h, le_rfl⟩
      by_cases hbelow : rect.top < y
      · rw [if_pos hbelow] at hnext
        have hrow : y = p.bottom + gap + 1 := by omega
        refine Or.inr ?_
        rw [← hrow, clamp_of_mem (by omega) (by omega)]
      · rw [if_neg hbelow] at hnext
        have hrow : y = p.top - gap - rect.height := by omega
        refine Or.inl ?_
        rw [← hrow, clamp_of_mem (by omega) (by omega)]

/-- **All rows are searched.** -/
lemma foldl_searchRow (hrect : rect.isEmpty = false) (hgap : 0 ≤ gap) {ys : List ℤ}
    (hys : ∀ y ∈ ys, range.minY ≤ y ∧ y ≤ range.maxY) {best : QRect × ℤ}
    (hbest : Found rect (Apart placed gap rect range) best) :
    Found rect (Apart placed gap rect range) (ys.foldl (searchRow placed gap range rect) best) ∧
      (ys.foldl (searchRow placed gap range rect) best).2 ≤ best.2 ∧
      ∀ x, ∀ y ∈ ys, Apart placed gap rect range x y →
        (ys.foldl (searchRow placed gap range rect) best).2 ≤ distance rect x y := by
  induction ys generalizing best with
  | nil => exact ⟨hbest, le_rfl, fun _ _ hy => by cases hy⟩
  | cons y ys ih =>
    obtain ⟨hfound, hle, hmin⟩ := searchRow_spec hrect hgap (hys y List.mem_cons_self) hbest
    obtain ⟨hfound', hle', hmin'⟩ := ih (fun z hz => hys z (List.mem_cons_of_mem _ hz)) hfound
    refine ⟨hfound', hle'.trans hle, fun x z hz hapart => ?_⟩
    rcases List.mem_cons.mp hz with rfl | hz
    · exact hle'.trans (hmin x hapart)
    · exact hmin' x z hz hapart

end Search

/-! ### One badge -/

/-- The allowed position that is nearest to the wanted one in both coordinates: the wanted position, clamped. -/
structure Clamped (rect bounds : QRect) (target : Option QRect) (cx cy : ℤ) : Prop where
  /-- It is allowed. -/
  allowed : Allowed rect bounds target cx cy
  /-- No allowed position is nearer. -/
  nearest : ∀ x y, Allowed rect bounds target x y → |cx - rect.left| ≤ |x - rect.left| ∧ |cy - rect.top| ≤ |y - rect.top|

/-- **What is wanted of the place of a badge**, among those that are placed. -/
structure Placed (placed : List QRect) (rect bounds : QRect) (gap : ℤ) (target : Option QRect) (result : QRect) :
    Prop where
  /-- A badge that is shown has its size, fits and is as near as it can be. -/
  nearest : result.isEmpty = false → ∃ x y, result = ofSize x y rect.width rect.height ∧
    Fits placed rect bounds gap target x y ∧ ∃ cx cy, Clamped rect bounds target cx cy ∧
      ∀ x' y', Fits placed rect bounds gap target x' y' → |x - cx| + |y - cy| ≤ |x' - cx| + |y' - cy|
  /-- A badge is left out only when there is no room. -/
  noRoom : result.isEmpty = true → ∀ x y, ¬ Fits placed rect bounds gap target x y

section Badge

variable {placed : List QRect} {rect bounds : QRect} {gap : ℤ} {target : Option QRect} {range : Range}

/-- Positions that fit are those of the range that are apart. -/
lemma fits_iff (hrange : allowedRange rect bounds target = some range) (x y : ℤ) :
    Fits placed rect bounds gap target x y ↔ Apart placed gap (moved rect range) range x y := by
  have hallowed := allowedRange_iff rect bounds target x y
  obtain ⟨hwidth, hheight⟩ := size_moved rect range
  unfold Apart
  rw [hwidth, hheight]
  constructor
  · rintro ⟨hin, hapart⟩
    obtain ⟨range', hrange', hhas⟩ := hallowed.mp hin
    rw [hrange] at hrange'
    obtain rfl := Option.some.inj hrange'
    exact ⟨hhas, hapart⟩
  · rintro ⟨hhas, hapart⟩
    exact ⟨hallowed.mpr ⟨range, hrange, hhas⟩, hapart⟩

/-- The range of a badge that is not left out has positions, and the badge has pixels. -/
lemma range_nonempty (hrange : allowedRange rect bounds target = some range) :
    rect.isEmpty = false ∧ range.minX ≤ range.maxX ∧ range.minY ≤ range.maxY := by
  have hle : range.minX ≤ range.maxX ∧ range.minY ≤ range.maxY := by
    unfold allowedRange at hrange
    split at hrange
    · cases hrange
    · have hcond := (Option.filter_eq_some_iff.mp hrange).2
      rw [Bool.not_eq_true', Bool.or_eq_false_iff, decide_eq_false_iff_not, decide_eq_false_iff_not] at hcond
      omega
  exact ⟨((allowedRange_iff rect bounds target range.minX range.minY).mpr
    ⟨range, hrange, le_rfl, hle.1, le_rfl, hle.2⟩).nonempty, hle⟩

/-- The badge, moved, is at the clamped position. -/
lemma clamped_moved (hrange : allowedRange rect bounds target = some range) :
    range.Has (moved rect range).left (moved rect range).top ∧
      Clamped rect bounds target (moved rect range).left (moved rect range).top := by
  obtain ⟨-, hx, hy⟩ := range_nonempty hrange
  obtain ⟨hlox, hhix, hminx⟩ := clamp_spec (v := rect.left) hx
  obtain ⟨hloy, hhiy, hminy⟩ := clamp_spec (v := rect.top) hy
  have hhas : range.Has (moved rect range).left (moved rect range).top := ⟨hlox, hhix, hloy, hhiy⟩
  refine ⟨hhas, (allowedRange_iff rect bounds target _ _).mpr ⟨range, hrange, hhas⟩, fun x y hallowed => ?_⟩
  obtain ⟨range', hrange', hxlo, hxhi, hylo, hyhi⟩ := (allowedRange_iff rect bounds target x y).mp hallowed
  rw [hrange] at hrange'
  obtain rfl := Option.some.inj hrange'
  exact ⟨hminx x hxlo hxhi, hminy y hylo hyhi⟩

/-- A position that fits is nearer than the largest number. -/
lemma distance_lt_intMax (hsmall : bounds.width + bounds.height ≤ 2 ^ 31)
    (hrange : allowedRange rect bounds target = some range) {x y : ℤ} (h : Allowed rect bounds target x y) :
    distance (moved rect range) x y < intMax := by
  have hmoved := (clamped_moved hrange).2.allowed.inside
  have hinside := h.inside
  have hsize := size_pos h.nonempty
  have hbw : bounds.right = bounds.left + bounds.width - 1 := by
    unfold width
    omega
  have hbh : bounds.bottom = bounds.top + bounds.height - 1 := by
    unfold height
    omega
  have hx : |x - (moved rect range).left| ≤ bounds.width - rect.width := abs_le.mpr ⟨by omega, by omega⟩
  have hy : |y - (moved rect range).top| ≤ bounds.height - rect.height := abs_le.mpr ⟨by omega, by omega⟩
  unfold distance intMax
  omega

lemma free_iff : free placed gap rect = true ↔
    ∀ p ∈ placed, p.isEmpty = false → (p.grown gap).intersects rect = false := by
  unfold free
  rw [List.all_eq_true]
  refine forall₂_congr fun p _ => ?_
  rw [Bool.or_eq_true, Bool.not_eq_true']
  cases p.isEmpty with
  | true => simp
  | false => simp

/-- **A badge is placed as near as it can be, or there is no room.** -/
lemma layoutBadge_placed (hgap : 0 ≤ gap) (hsmall : bounds.width + bounds.height ≤ 2 ^ 31) (placed : List QRect)
    (rect : QRect) (target : Option QRect) :
    Placed placed rect bounds gap target (layoutBadge placed rect bounds gap target) := by
  unfold layoutBadge
  cases hrange : allowedRange rect bounds target with
  | none =>
    refine ⟨fun hne => ?_, fun _ x y hfits => ?_⟩
    · rw [isEmpty_null] at hne
      cases hne
    · obtain ⟨range, hsome, -⟩ := (allowedRange_iff rect bounds target x y).mp hfits.allowed
      rw [hrange] at hsome
      cases hsome
  | some range =>
    dsimp only
    obtain ⟨hrect, hx, hy⟩ := range_nonempty hrange
    obtain ⟨hhas, hclamped⟩ := clamped_moved hrange
    obtain ⟨hwidth, hheight⟩ := size_moved rect range
    have hmoved : moved rect range =
        ofSize (moved rect range).left (moved rect range).top rect.width rect.height := rfl
    have hmovedNe : (moved rect range).isEmpty = false := isEmpty_ofSize.mpr (size_pos hrect)
    by_cases hfree : free placed gap (moved rect range) = true
    · rw [if_pos hfree]
      refine ⟨fun _ => ⟨_, _, hmoved, ⟨hclamped.allowed, free_iff.mp hfree⟩, _, _, hclamped, fun x' y' _ => ?_⟩,
        fun hempty => ?_⟩
      · rw [sub_self, sub_self, abs_zero, add_zero]
        exact add_nonneg (abs_nonneg _) (abs_nonneg _)
      · rw [hmovedNe] at hempty
        cases hempty
    · rw [if_neg hfree]
      have hrows : ∀ y ∈ rows placed gap range (moved rect range), range.minY ≤ y ∧ y ≤ range.maxY :=
        fun y hmem => range_of_mem_rows hmem hy hhas.2.2
      have hnull : Found (moved rect range) (Apart placed gap (moved rect range) range) (null, intMax) :=
        Or.inl rfl
      obtain ⟨hfound, -, hmin⟩ := foldl_searchRow hmovedNe hgap hrows hnull
      set best := (rows placed gap range (moved rect range)).foldl (searchRow placed gap range (moved rect range))
        (null, intMax)
      have hall : ∀ x y, Fits placed rect bounds gap target x y → best.2 ≤ distance (moved rect range) x y := by
        intro x y hfits
        obtain ⟨y', hmem, hapart, hle⟩ := exists_row hmovedNe hgap hhas.2.2 ((fits_iff hrange x y).mp hfits)
        refine (hmin x y' hmem hapart).trans ?_
        unfold distance
        omega
      rcases hfound with hnone | ⟨x, y, hapart, hbest⟩
      · refine ⟨fun hne => ?_, fun _ x y hfits => ?_⟩
        · rw [hnone, isEmpty_null] at hne
          cases hne
        · have hle := hall x y hfits
          have hlt := distance_lt_intMax hsmall hrange hfits.allowed
          rw [hnone] at hle
          dsimp only at hle
          omega
      · rw [hwidth, hheight] at hbest
        refine ⟨fun _ => ⟨x, y, by rw [hbest], (fits_iff hrange x y).mpr hapart, _, _, hclamped, fun x' y' hfits => ?_⟩,
          fun hempty => ?_⟩
        · have hle := hall x' y' hfits
          rw [hbest] at hle
          exact hle
        · rw [hbest, isEmpty_ofSize.mpr (size_pos hrect)] at hempty
          cases hempty

end Badge

/-! ### All badges -/

section Loop

variable {bounds : QRect} {gap : ℤ} {targets desired : List QRect}

lemma layoutLoop_append (desired : List QRect) (rect : QRect) :
    layoutLoop bounds gap targets (desired ++ [rect]) = layoutLoop bounds gap targets desired ++
      [layoutBadge (layoutLoop bounds gap targets desired) rect bounds gap
        targets[(layoutLoop bounds gap targets desired).length]?] := by
  unfold layoutLoop
  rw [List.foldl_append]
  rfl

lemma length_layoutLoop : (layoutLoop bounds gap targets desired).length = desired.length := by
  induction desired using List.reverseRecOn with
  | nil => rfl
  | append_singleton desired rect ih =>
    rw [layoutLoop_append, List.length_append, List.length_append, ih, List.length_singleton, List.length_singleton]

variable (targets) in
/-- **Each badge has its place among those before it.** -/
lemma layoutLoop_placed (hgap : 0 ≤ gap) (hsmall : bounds.width + bounds.height ≤ 2 ^ 31) {i : ℕ} {rect : QRect}
    (hrect : desired[i]? = some rect) : ∃ r, (layoutLoop bounds gap targets desired)[i]? = some r ∧
      Placed ((layoutLoop bounds gap targets desired).take i) rect bounds gap targets[i]? r := by
  induction desired using List.reverseRecOn with
  | nil => cases hrect
  | append_singleton desired last ih =>
    rw [layoutLoop_append]
    by_cases hi : i < desired.length
    · rw [List.getElem?_append_left hi] at hrect
      obtain ⟨r, hr, hplaced⟩ := ih hrect
      have hlt : i < (layoutLoop bounds gap targets desired).length := by rwa [length_layoutLoop]
      exact ⟨r, by rw [List.getElem?_append_left hlt, hr], by rwa [List.take_append_of_le_length hlt.le]⟩
    · have hlast : i = desired.length := by
        have := (List.getElem?_eq_some_iff.mp hrect).1
        rw [List.length_append, List.length_singleton] at this
        omega
      subst hlast
      rw [List.getElem?_concat_length] at hrect
      obtain rfl := Option.some.inj hrect
      have hlength : (layoutLoop bounds gap targets desired).length = desired.length := length_layoutLoop
      rw [← hlength, List.getElem?_concat_length, List.take_left]
      exact ⟨_, rfl, layoutBadge_placed hgap hsmall _ _ _⟩

end Loop

/-- **Badges are apart, as near as they can be, and left out only when there is no room**, for all lists of badges
and targets.

**Proof sketch.** A badge is searched in finitely many rows. By `exists_row` every position that fits has one in
these rows that is not farther away, and by `sweep_spec` a row is searched completely. -/
theorem layoutHintBadges_optimal (desired : List QRect) (bounds : QRect) (gap : ℤ) (targets : List QRect)
    (htargets : targets = [] ∨ targets.length = desired.length) (hsmall : bounds.width + bounds.height ≤ 2 ^ 31) :
    ∃ result, layoutHintBadges desired bounds gap targets = some result ∧ result.length = desired.length ∧
      (∀ i rect, desired[i]? = some rect →
        ∃ r, result[i]? = some r ∧ Placed (result.take i) rect bounds (max gap 0) targets[i]? r) ∧
      ∀ (i j : ℕ) (r s : QRect), i ≠ j → result[i]? = some r → result[j]? = some s → r.isEmpty = false → s.isEmpty =
        false →
        (r.grown (max gap 0)).intersects s = false := by
  have hgap : 0 ≤ max gap 0 := le_max_right _ _
  refine ⟨_, if_pos htargets, length_layoutLoop, fun i rect hrect => layoutLoop_placed targets hgap hsmall hrect, ?_⟩
  -- A badge is apart from those before it.
  have hbefore : ∀ (i j : ℕ) (r s : QRect), i < j → (layoutLoop bounds (max gap 0) targets desired)[i]? = some r →
      (layoutLoop bounds (max gap 0) targets desired)[j]? = some s → r.isEmpty = false → s.isEmpty = false →
      (r.grown (max gap 0)).intersects s = false := by
    intro i j r s hij hr hs hne hne'
    obtain ⟨rect, hrect⟩ : ∃ rect, desired[j]? = some rect := by
      have hlt := (List.getElem?_eq_some_iff.mp hs).1
      rw [length_layoutLoop] at hlt
      exact ⟨_, List.getElem?_eq_getElem hlt⟩
    obtain ⟨s', hs', hplaced⟩ := layoutLoop_placed targets hgap hsmall hrect
    rw [hs] at hs'
    obtain rfl := Option.some.inj hs'
    obtain ⟨x, y, hsize, hfits, -⟩ := hplaced.nearest hne'
    rw [hsize]
    refine hfits.apart r (List.mem_of_getElem? (i := i) ?_) hne
    rw [List.getElem?_take, if_pos hij, hr]
  intro i j r s hij hr hs hne hne'
  rcases Nat.lt_or_gt_of_ne hij with hlt | hgt
  · exact hbefore i j r s hlt hr hs hne hne'
  · rw [grown_intersects_comm hne hne' hgap]
    exact hbefore j i s r hgt hs hr hne' hne

/-- Two badges that want the same place over a link. -/
theorem layoutHintBadges_optimal_link : ∃ result,
    layoutHintBadges [ofSize 113 55 25 24, ofSize 113 55 25 24] (ofSize 0 0 900 500) 3
      [ofSize 113 55 330 17, ofSize 113 55 330 17] = some result ∧ result.length = 2 := by
  obtain ⟨result, hresult, hlength, -⟩ := layoutHintBadges_optimal [ofSize 113 55 25 24, ofSize 113 55 25 24]
    (ofSize 0 0 900 500) 3 [ofSize 113 55 330 17, ofSize 113 55 330 17] (Or.inr rfl) (by decide)
  exact ⟨result, hresult, hlength⟩

/-- A negative gap is none: a badge is left out although it fits with the negative margin. And where coordinates
are negative, the centre that Qt computes may be outside of the target. -/
theorem layoutHintBadges_negative :
    (layoutHintBadges [ofSize 0 0 4 4, ofSize 0 0 4 4] (ofSize 0 0 7 4) (-1) [] = some [ofSize 0 0 4 4, null] ∧
      Allowed (ofSize 0 0 4 4) (ofSize 0 0 7 4) none 3 0 ∧
      ((ofSize 0 0 4 4).grown (-1)).intersects (ofSize 3 0 4 4) = false) ∧
      layoutHintBadges [ofSize (-5) (-5) 2 2] (ofSize (-10) (-10) 20 20) 0 [ofSize (-5) (-5) 1 1] =
        some [ofSize (-5) (-5) 2 2] ∧
      ¬ ((ofSize (-5) (-5) 1 1).intersected (ofSize (-10) (-10) 20 20)).Contains (ofSize (-5) (-5) 2 2).center :=
  ⟨⟨by decide, ⟨by decide, by decide, fun t ht => by cases ht⟩, by decide⟩, by decide, by decide⟩

end VimKeymap
