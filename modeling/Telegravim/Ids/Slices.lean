import Mathlib.Order.MinMax
import Telegravim.Foundation.FlatSet

set_option autoImplicit false

/-!
# Lists of message slices

What `SparseIdsList` and `MessagesList` share: a list of slices, each the messages of a range
that are known without gaps, and the operations on it. Elements are ids in one class and
positions in the other, so they come from any linear order here; `minId` and `maxId` are the
ends of the whole range.

## Main definitions

* `Ids.Slice`, `Ids.addRangeItemsAndCountNew`, `Ids.removeMessage`, `Ids.invalidateLast`,
  `Ids.queryFromSlice` — the operations of both classes.
* `Ids.Exact` — slices in order that hold exactly what a set has in their ranges.

## Main results

* `Ids.Exact.add`, `Ids.Exact.remove`, `Ids.Exact.invalidateLast` — the operations keep slices
  exact when they are told the truth.
* `Ids.queryFromSlice_shows` — a query shows a block of the set.
-/

universe u

namespace Ids

variable {α : Type u} [LinearOrder α]

/-! ### Slices -/

/-- A closed range; `start` is the field `from`. -/
structure Range (α : Type u) where
  start : α
  till : α
deriving DecidableEq

structure Slice (α : Type u) [LinearOrder α] where
  messages : FlatSet α
  range : Range α
deriving DecidableEq

def Slice.merge (slice : Slice α) (moreMessages : List α) (moreNoSkipRange : Range α) :
    Slice α where
  messages := slice.messages.merge moreMessages
  range :=
    { start := min slice.range.start moreNoSkipRange.start
      till := max slice.range.till moreNoSkipRange.till }

/-- The slice that unites some messages with the slices that meet their range. -/
def uniteAndAdd (first : Slice α) (others : List (Slice α)) (messages : List α)
    (noSkipRange : Range α) : Slice α :=
  others.foldl (fun slice other => slice.merge other.messages.elems other.range)
    (first.merge messages noSkipRange)

/-- The slices after messages were added, the slice they are in now, and how many elements it
has more than the slice it grew from. -/
structure Added (α : Type u) [LinearOrder α] where
  slices : List (Slice α)
  slice : Slice α
  added : ℤ

/-- The slices are in order, so a binary search for a bound finds where the list is cut. -/
def addRangeItemsAndCountNew (slices : List (Slice α)) (messages : List α)
    (noSkipRange : Range α) : Added α :=
  let before := slices.takeWhile fun slice => slice.range.till < noSkipRange.start
  let rest := slices.dropWhile fun slice => slice.range.till < noSkipRange.start
  let meeting := rest.takeWhile fun slice => slice.range.start ≤ noSkipRange.till
  let after := rest.dropWhile fun slice => slice.range.start ≤ noSkipRange.till
  match meeting with
  | [] =>
    let slice : Slice α := { messages := FlatSet.ofList messages, range := noSkipRange }
    { slices := before ++ slice :: after, slice, added := slice.messages.size }
  | first :: others =>
    let slice := uniteAndAdd first others messages noSkipRange
    { slices := before ++ slice :: after, slice
      added := slice.messages.size - first.messages.size }

/-- The slice whose range has an element. -/
def findSlice (slices : List (Slice α)) (x : α) : Option (Slice α) :=
  match slices.dropWhile fun slice => slice.range.till < x with
  | slice :: _ => if slice.range.start ≤ x then some slice else none
  | [] => none

/-- The slices after an element was removed from the slice whose range has it. -/
def removeMessage (slices : List (Slice α)) (x : α) : List (Slice α) :=
  let before := slices.takeWhile fun slice => slice.range.till < x
  match slices.dropWhile fun slice => slice.range.till < x with
  | slice :: after =>
    if slice.range.start ≤ x then
      before ++ { slice with messages := slice.messages.remove x } :: after
    else slices
  | [] => slices

/-- The end of a slice that no longer reaches the bottom: its last element. -/
def Slice.lastKnown (slice : Slice α) : α := slice.messages.back.getD slice.range.start

/-- The part of `invalidateBottom` on the slices. -/
def invalidateLast (maxId : α) (slices : List (Slice α)) : List (Slice α) :=
  match slices.getLast? with
  | some last =>
    if last.range.till = maxId then
      slices.dropLast ++ [{ last with range := { last.range with till := last.lastKnown } }]
    else slices
  | none => slices

/-- What a list sends when a slice of it changed. -/
structure SliceUpdate (α : Type u) [LinearOrder α] where
  messages : Option (FlatSet α)
  range : Range α
  count : Option ℤ
deriving DecidableEq

/-! ### Queries -/

structure Query (α : Type u) where
  aroundId : α
  limitBefore : ℕ
  limitAfter : ℕ

structure Result (α : Type u) [LinearOrder α] where
  count : Option ℤ := none
  skippedBefore : Option ℤ := none
  skippedAfter : Option ℤ := none
  messageIds : FlatSet α := ∅

def queryFromSlice (minId maxId : α) (count : Option ℤ) (query : Query α) (slice : Slice α) :
    Result α :=
  let haveBefore := slice.messages.lowerBound query.aroundId
  let haveEqualOrAfter := slice.messages.size - haveBefore
  let before := min haveBefore query.limitBefore
  let equalOrAfter := min haveEqualOrAfter (query.limitAfter + 1)
  let messageIds := (slice.messages.drop (haveBefore - before)).take (before + equalOrAfter)
  let skippedBefore : Option ℤ :=
    if slice.range.start = minId then some (haveBefore - before) else none
  let skippedAfter : Option ℤ :=
    if slice.range.till = maxId then some (haveEqualOrAfter - equalOrAfter) else none
  match count, skippedBefore, skippedAfter with
  | some n, none, some after =>
    { count, skippedBefore := some (n - after - messageIds.size), skippedAfter, messageIds }
  | some n, some before, none =>
    { count, skippedBefore, skippedAfter := some (n - before - messageIds.size), messageIds }
  | _, _, _ => { count, skippedBefore, skippedAfter, messageIds }

/-! ### Exact slices -/

/-- Whether a range has an element. -/
def Range.Contains (range : Range α) (x : α) : Prop := range.start ≤ x ∧ x ≤ range.till

/-- Slices in order, apart from each other, that hold exactly what a set has in their ranges. -/
structure Exact (S : FlatSet α) (slices : List (Slice α)) : Prop where
  apart : slices.Pairwise fun a b => a.range.till < b.range.start
  start_le : ∀ slice ∈ slices, slice.range.start ≤ slice.range.till
  messages : ∀ slice ∈ slices, ∀ x, x ∈ slice.messages ↔ x ∈ S ∧ slice.range.Contains x

lemma exact_nil (S : FlatSet α) : Exact S [] :=
  ⟨List.Pairwise.nil, by simp, by simp⟩

section Cuts

variable {S : FlatSet α} {slices : List (Slice α)} (h : Exact S slices)
include h

/-- The slices that end below a point stand first. -/
lemma Exact.cut_till (x : α) :
    slices.takeWhile (fun slice => slice.range.till < x) =
        slices.filter (fun slice => slice.range.till < x) ∧
      slices.dropWhile (fun slice => slice.range.till < x) =
        slices.filter fun slice => !decide (slice.range.till < x) := by
  apply FlatSet.takeWhile_eq_filter
  refine h.apart.imp_of_mem fun {a b} _ hb hab hlt => ?_
  simp only [decide_eq_true_eq] at hlt ⊢
  exact hab.trans ((h.start_le b hb).trans_lt hlt)

/-- The slices that begin below a point stand first. -/
lemma Exact.cut_start (x : α) :
    slices.takeWhile (fun slice => slice.range.start ≤ x) =
        slices.filter (fun slice => slice.range.start ≤ x) ∧
      slices.dropWhile (fun slice => slice.range.start ≤ x) =
        slices.filter fun slice => !decide (slice.range.start ≤ x) := by
  apply FlatSet.takeWhile_eq_filter
  refine h.apart.imp_of_mem fun {a b} ha _ hab hle => ?_
  simp only [decide_eq_true_eq] at hle ⊢
  exact (h.start_le a ha).trans (hab.le.trans hle)

/-- A part of the slices is exact. -/
lemma Exact.sublist {part : List (Slice α)} (hpart : part.Sublist slices) : Exact S part where
  apart := h.apart.sublist hpart
  start_le slice hslice := h.start_le slice (hpart.subset hslice)
  messages slice hslice := h.messages slice (hpart.subset hslice)

/-- The slices around a range: those that end below it, those that meet it, and the rest. -/
lemma Exact.cut (range : Range α) : ∃ before meeting after : List (Slice α),
    slices.takeWhile (fun slice => slice.range.till < range.start) = before ∧
    (slices.dropWhile fun slice => slice.range.till < range.start).takeWhile
      (fun slice => slice.range.start ≤ range.till) = meeting ∧
    (slices.dropWhile fun slice => slice.range.till < range.start).dropWhile
      (fun slice => slice.range.start ≤ range.till) = after ∧
    slices = before ++ (meeting ++ after) ∧
    (∀ slice ∈ before, slice.range.till < range.start) ∧
    (∀ slice ∈ meeting, range.start ≤ slice.range.till ∧ slice.range.start ≤ range.till) ∧
    (∀ slice ∈ after, range.till < slice.range.start) := by
  refine ⟨_, _, _, rfl, rfl, rfl, ?_, ?_, ?_, ?_⟩
  · rw [List.takeWhile_append_dropWhile, List.takeWhile_append_dropWhile]
  · intro slice hslice
    rw [(h.cut_till _).1] at hslice
    simpa using (List.mem_filter.mp hslice).2
  · intro slice hslice
    have hrest := (h.sublist (List.dropWhile_sublist
      fun slice => decide (slice.range.till < range.start))).cut_start range.till
    rw [hrest.1, (h.cut_till _).2] at hslice
    simp only [List.mem_filter, decide_eq_true_eq, Bool.not_eq_true', decide_eq_false_iff_not,
      not_lt] at hslice
    exact ⟨hslice.1.2, hslice.2⟩
  · intro slice hslice
    have hrest := (h.sublist (List.dropWhile_sublist
      fun slice => decide (slice.range.till < range.start))).cut_start range.till
    rw [hrest.2] at hslice
    simpa using (List.mem_filter.mp hslice).2

end Cuts

/-! ### Adding -/

/-- A slice that unites messages of a range with some slices. -/
structure Unites (messages : List α) (range : Range α) (meeting : List (Slice α))
    (slice : Slice α) : Prop where
  mem : ∀ x, x ∈ slice.messages ↔ x ∈ messages ∨ ∃ s ∈ meeting, x ∈ s.messages
  start_le : slice.range.start ≤ range.start
  le_till : range.till ≤ slice.range.till
  start_le_of_mem : ∀ s ∈ meeting, slice.range.start ≤ s.range.start
  le_till_of_mem : ∀ s ∈ meeting, s.range.till ≤ slice.range.till
  start_eq : slice.range.start = range.start ∨ ∃ s ∈ meeting, slice.range.start = s.range.start
  till_eq : slice.range.till = range.till ∨ ∃ s ∈ meeting, slice.range.till = s.range.till

/-- A slice merged with one more slice. -/
lemma Unites.merge {messages : List α} {range : Range α} {meeting : List (Slice α)}
    {slice : Slice α} (h : Unites messages range meeting slice) (other : Slice α) :
    Unites messages range (meeting ++ [other])
      (slice.merge other.messages.elems other.range) where
  mem x := by
    simp only [Slice.merge, FlatSet.mem_merge, h.mem, List.mem_append, List.mem_singleton]
    constructor
    · rintro (hx | hx | ⟨s, hs, hx⟩)
      · exact Or.inr ⟨other, Or.inr rfl, hx⟩
      · exact Or.inl hx
      · exact Or.inr ⟨s, Or.inl hs, hx⟩
    · rintro (hx | ⟨s, hs | rfl, hx⟩)
      · exact Or.inr (Or.inl hx)
      · exact Or.inr (Or.inr ⟨s, hs, hx⟩)
      · exact Or.inl hx
  start_le := (min_le_left _ _).trans h.start_le
  le_till := h.le_till.trans (le_max_left _ _)
  start_le_of_mem s hs := by
    rcases List.mem_append.mp hs with hs | hs
    · exact (min_le_left _ _).trans (h.start_le_of_mem s hs)
    · rw [List.mem_singleton.mp hs]
      exact min_le_right _ _
  le_till_of_mem s hs := by
    rcases List.mem_append.mp hs with hs | hs
    · exact (h.le_till_of_mem s hs).trans (le_max_left _ _)
    · rw [List.mem_singleton.mp hs]
      exact le_max_right _ _
  start_eq := by
    rcases min_choice slice.range.start other.range.start with hmin | hmin
    · rcases h.start_eq with heq | ⟨s, hs, heq⟩
      · exact Or.inl (hmin.trans heq)
      · exact Or.inr ⟨s, List.mem_append_left _ hs, hmin.trans heq⟩
    · exact Or.inr ⟨other, by simp, hmin⟩
  till_eq := by
    rcases max_choice slice.range.till other.range.till with hmax | hmax
    · rcases h.till_eq with heq | ⟨s, hs, heq⟩
      · exact Or.inl (hmax.trans heq)
      · exact Or.inr ⟨s, List.mem_append_left _ hs, hmax.trans heq⟩
    · exact Or.inr ⟨other, by simp, hmax⟩

lemma unites_nil (messages : List α) (range : Range α) :
    Unites messages range [] { messages := FlatSet.ofList messages, range } where
  mem x := by simp
  start_le := le_rfl
  le_till := le_rfl
  start_le_of_mem := by simp
  le_till_of_mem := by simp
  start_eq := Or.inl rfl
  till_eq := Or.inl rfl

/-- A slice merged with messages is those messages merged with the slice. -/
lemma unites_first (messages : List α) (range : Range α) (first : Slice α) :
    Unites messages range [first] (first.merge messages range) := by
  have h := (unites_nil messages range).merge first
  have hsame : first.merge messages range =
      Slice.merge { messages := FlatSet.ofList messages, range } first.messages.elems
        first.range := by
    simp only [Slice.merge, Slice.mk.injEq, Range.mk.injEq]
    refine ⟨FlatSet.ext_mem fun x => ?_, min_comm _ _, max_comm _ _⟩
    simp only [FlatSet.mem_merge, FlatSet.mem_ofList, ← FlatSet.mem_def]
    exact or_comm
  rw [hsame]
  exact h

/-- **The slice of `uniteAndAdd`** unites all slices it was given. -/
lemma unites_uniteAndAdd (messages : List α) (range : Range α) (first : Slice α)
    (others : List (Slice α)) :
    Unites messages range (first :: others) (uniteAndAdd first others messages range) := by
  have hfold : ∀ (others meeting : List (Slice α)) (slice : Slice α),
      Unites messages range meeting slice →
      Unites messages range (meeting ++ others) (others.foldl
        (fun slice other => slice.merge other.messages.elems other.range) slice) := by
    intro others
    induction others with
    | nil =>
      intro meeting slice h
      simpa using h
    | cons other others ih =>
      intro meeting slice h
      have := ih _ _ (h.merge other)
      simpa using this
  exact hfold others [first] _ (unites_first messages range first)

/-- What a call tells about a set that was `S₀` before: the elements of `S` in a range, and that
only elements among them joined. -/
structure Truth (S₀ S : FlatSet α) (messages : List α) (range : Range α) : Prop where
  start_le : range.start ≤ range.till
  known : ∀ x, x ∈ messages ↔ x ∈ S ∧ range.Contains x
  joined : ∀ x, x ∈ S ↔ x ∈ S₀ ∨ x ∈ messages

/-- What a set has in a range, as a list, is the truth. -/
lemma truth_of_elems {S : FlatSet α} {messages : List α} {range : Range α}
    (hle : range.start ≤ range.till)
    (hknown : (S.filter fun x => range.start ≤ x ∧ x ≤ range.till).elems = messages) :
    Truth S S messages range := by
  have hmem : ∀ x, x ∈ messages ↔ x ∈ S ∧ range.Contains x := by
    intro x
    rw [← hknown, ← FlatSet.mem_def, FlatSet.mem_filter, decide_eq_true_eq, Range.Contains]
  exact ⟨hle, hmem, fun x => ⟨Or.inl, fun h => h.elim id fun h => ((hmem x).mp h).1⟩⟩

/-- **Uniting keeps slices exact.**

**Proof sketch.** The united range is covered: a point below the new range lies in the slice that
begins it, a point above lies in the slice that ends it. Slices that do not meet the new range
have none of the elements that joined. -/
lemma Exact.unite {S₀ S : FlatSet α} {messages : List α} {range : Range α}
    (htruth : Truth S₀ S messages range) {before meeting after : List (Slice α)} {slice : Slice α}
    (h : Exact S₀ (before ++ (meeting ++ after)))
    (hbefore : ∀ s ∈ before, s.range.till < range.start)
    (hmeeting : ∀ s ∈ meeting, range.start ≤ s.range.till ∧ s.range.start ≤ range.till)
    (hafter : ∀ s ∈ after, range.till < s.range.start)
    (hslice : Unites messages range meeting slice) : Exact S (before ++ slice :: after) := by
  obtain ⟨hordBefore, hordRest, hbeforeRest⟩ := List.pairwise_append.mp h.apart
  obtain ⟨-, hordAfter, hmeetingAfter⟩ := List.pairwise_append.mp hordRest
  -- the other slices have none of the elements that joined
  have hother : ∀ s ∈ before ++ (meeting ++ after), (∀ x, s.range.Contains x → ¬ range.Contains x) →
      ∀ x, x ∈ s.messages ↔ x ∈ S ∧ s.range.Contains x := by
    intro s hs hout x
    rw [h.messages s hs, htruth.joined]
    constructor
    · rintro ⟨hx, hin⟩
      exact ⟨Or.inl hx, hin⟩
    · rintro ⟨hx | hx, hin⟩
      · exact ⟨hx, hin⟩
      · exact absurd ((htruth.known x).mp hx).2 (hout x hin)
  refine ⟨?_, ?_, ?_⟩
  · rw [List.pairwise_append, List.pairwise_cons]
    refine ⟨hordBefore, ⟨?_, hordAfter⟩, ?_⟩
    · intro s hs
      rcases hslice.till_eq with heq | ⟨m, hm, heq⟩
      · exact heq ▸ hafter s hs
      · exact heq ▸ hmeetingAfter m hm s hs
    · intro s hs other hother
      rcases List.mem_cons.mp hother with rfl | hother
      · rcases hslice.start_eq with heq | ⟨m, hm, heq⟩
        · exact heq ▸ hbefore s hs
        · exact heq ▸ hbeforeRest s hs m (List.mem_append_left _ hm)
      · exact hbeforeRest s hs other (List.mem_append_right _ hother)
  · intro s hs
    rcases List.mem_append.mp hs with hs | hs
    · exact h.start_le s (List.mem_append_left _ hs)
    · rcases List.mem_cons.mp hs with rfl | hs
      · exact hslice.start_le.trans (htruth.start_le.trans hslice.le_till)
      · exact h.start_le s (by simp [hs])
  · intro s hs
    rcases List.mem_append.mp hs with hs | hs
    · refine hother s (List.mem_append_left _ hs) fun x hin hrange => ?_
      exact absurd (hin.2.trans_lt (hbefore s hs)) (not_lt.mpr hrange.1)
    rcases List.mem_cons.mp hs with rfl | hs
    swap
    · refine hother s (by simp [hs]) fun x hin hrange => ?_
      exact absurd (hrange.2.trans_lt (hafter s hs)) (not_lt.mpr hin.1)
    intro x
    rw [hslice.mem]
    constructor
    · rintro (hx | ⟨m, hm, hx⟩)
      · obtain ⟨hxS, hin⟩ := (htruth.known x).mp hx
        exact ⟨hxS, hslice.start_le.trans hin.1, hin.2.trans hslice.le_till⟩
      · obtain ⟨hxS, hin⟩ := (h.messages m (by simp [hm]) x).mp hx
        exact ⟨(htruth.joined x).mpr (Or.inl hxS), (hslice.start_le_of_mem m hm).trans hin.1,
          hin.2.trans (hslice.le_till_of_mem m hm)⟩
    · rintro ⟨hxS, hstart, htill⟩
      by_cases hmem : x ∈ messages
      · exact Or.inl hmem
      have hxS₀ : x ∈ S₀ := ((htruth.joined x).mp hxS).resolve_right hmem
      have hout : ¬ range.Contains x := fun hin => hmem ((htruth.known x).mpr ⟨hxS, hin⟩)
      -- outside the new range the element lies in a slice that was united
      have hcovered : ∃ m ∈ meeting, m.range.Contains x := by
        rcases lt_or_ge x range.start with hlt | hge
        · rcases hslice.start_eq with heq | ⟨m, hm, heq⟩
          · exact absurd (heq ▸ hstart) (not_le.mpr hlt)
          · exact ⟨m, hm, heq ▸ hstart, hlt.le.trans (hmeeting m hm).1⟩
        · have hgt : range.till < x := lt_of_not_ge fun hle => hout ⟨hge, hle⟩
          rcases hslice.till_eq with heq | ⟨m, hm, heq⟩
          · exact absurd (heq ▸ htill) (not_le.mpr hgt)
          · exact ⟨m, hm, (hmeeting m hm).2.trans hgt.le, heq ▸ htill⟩
      obtain ⟨m, hm, hin⟩ := hcovered
      exact Or.inr ⟨m, hm, (h.messages m (by simp [hm]) x).mpr ⟨hxS₀, hin⟩⟩

/-- **`addRangeItemsAndCountNew` keeps slices exact**, and the slice it reports is one of them. -/
theorem Exact.add {S₀ S : FlatSet α} {messages : List α} {range : Range α}
    (htruth : Truth S₀ S messages range) {slices : List (Slice α)} (h : Exact S₀ slices) :
    Exact S (addRangeItemsAndCountNew slices messages range).slices ∧
      (addRangeItemsAndCountNew slices messages range).slice ∈
        (addRangeItemsAndCountNew slices messages range).slices := by
  obtain ⟨before, meeting, after, htake, hmeet, hdrop, hslices, hbefore, hmeeting, hafter⟩ :=
    h.cut range
  unfold addRangeItemsAndCountNew
  simp only [htake, hmeet, hdrop]
  rw [hslices] at h
  cases meeting with
  | nil =>
    exact ⟨h.unite htruth hbefore hmeeting hafter (unites_nil messages range), by simp⟩
  | cons first others =>
    exact ⟨h.unite htruth hbefore hmeeting hafter (unites_uniteAndAdd messages range first others),
      by simp⟩

/-- **One element that joined is counted once**, when the new range ends with it or it is above
all others. -/
theorem Exact.added {S₀ : FlatSet α} {x : α} (range : Range α) (hstart : range.start = x)
    (hnew : x ∉ S₀)
    (hlast : range.till = x ∨ ∀ y ∈ S₀, y < x) {slices : List (Slice α)} (h : Exact S₀ slices) :
    (addRangeItemsAndCountNew slices [x] range).added = 1 := by
  obtain ⟨before, meeting, after, htake, hmeet, hdrop, hslices, hbefore, hmeeting, hafter⟩ :=
    h.cut range
  unfold addRangeItemsAndCountNew
  simp only [htake, hmeet, hdrop]
  rw [hslices] at h
  cases meeting with
  | nil => rfl
  | cons first others =>
    simp only
    have hunites := unites_uniteAndAdd [x] range first others
    -- the slices after the first have no elements
    have hothers : ∀ s ∈ others, ∀ y, y ∉ s.messages := by
      intro s hs y hy
      have hords := (List.pairwise_append.mp (List.pairwise_append.mp h.apart).2.1).1
      have habove : x < s.range.start := by
        rw [← hstart]
        exact (hmeeting first (by simp)).1.trans_lt ((List.pairwise_cons.mp hords).1 s hs)
      obtain ⟨hyS, hin⟩ := (h.messages s (by simp [hs]) y).mp hy
      rcases hlast with htill | hmax
      · exact absurd ((hmeeting s (by simp [hs])).2) (not_le.mpr (htill ▸ habove))
      · exact absurd (hmax y hyS) (not_lt.mpr (habove.le.trans hin.1))
    have hfirst : x ∉ first.messages := fun hx =>
      hnew ((h.messages first (by simp) x).mp hx).1
    have hsame : (uniteAndAdd first others [x] range).messages = first.messages.insert x := by
      apply FlatSet.ext_mem
      intro y
      rw [hunites.mem, FlatSet.mem_insert, List.mem_singleton]
      constructor
      · rintro (hy | ⟨s, hs, hy⟩)
        · exact Or.inl hy
        · rcases List.mem_cons.mp hs with rfl | hs
          · exact Or.inr hy
          · exact absurd hy (hothers s hs y)
      · rintro (hy | hy)
        · exact Or.inl hy
        · exact Or.inr ⟨first, by simp, hy⟩
    rw [hsame, FlatSet.size_insert hfirst]
    push_cast
    omega

/-! ### Removing and forgetting -/

/-- **`removeMessage` keeps slices exact** when the element left the set. -/
theorem Exact.remove {S : FlatSet α} {slices : List (Slice α)} (h : Exact S slices) (x : α) :
    Exact (S.remove x) (removeMessage slices x) := by
  have hsplit := List.takeWhile_append_dropWhile
    (p := fun slice : Slice α => decide (slice.range.till < x)) (l := slices)
  have hbefore : ∀ slice ∈ slices.takeWhile fun slice => decide (slice.range.till < x),
      slice.range.till < x := by
    intro slice hslice
    rw [(h.cut_till x).1] at hslice
    simpa using (List.mem_filter.mp hslice).2
  have hrest : ∀ slice ∈ slices.dropWhile fun slice => decide (slice.range.till < x),
      x ≤ slice.range.till := by
    intro slice hslice
    rw [(h.cut_till x).2] at hslice
    simpa using (List.mem_filter.mp hslice).2
  -- a slice whose range does not have the element is not touched
  have hother : ∀ slice ∈ slices, ¬ slice.range.Contains x →
      ∀ y, y ∈ slice.messages ↔ y ∈ S.remove x ∧ slice.range.Contains y := by
    intro slice hslice hout y
    rw [h.messages slice hslice, FlatSet.mem_remove]
    constructor
    · rintro ⟨hy, hin⟩
      exact ⟨⟨hy, fun he => hout (he ▸ hin)⟩, hin⟩
    · rintro ⟨⟨hy, -⟩, hin⟩
      exact ⟨hy, hin⟩
  unfold removeMessage
  simp only
  generalize slices.takeWhile (fun slice => decide (slice.range.till < x)) = before at *
  generalize slices.dropWhile (fun slice => decide (slice.range.till < x)) = rest at *
  subst hsplit
  have hapart := List.pairwise_append.mp h.apart
  cases rest with
  | nil =>
    refine ⟨h.apart, h.start_le, fun slice hslice => hother slice hslice fun hin => ?_⟩
    rw [List.append_nil] at hslice
    exact absurd (hin.2.trans_lt (hbefore slice hslice)) (lt_irrefl x)
  | cons slice after =>
    have hafter := (List.pairwise_cons.mp hapart.2.1).1
    have hbeforeOut : ∀ s ∈ before, ¬ s.range.Contains x := fun s hs hin =>
      absurd (hin.2.trans_lt (hbefore s hs)) (lt_irrefl x)
    have hafterOut : ∀ s ∈ after, ¬ s.range.Contains x := fun s hs hin =>
      absurd ((hrest slice (by simp)).trans_lt (hafter s hs)) (not_lt.mpr hin.1)
    dsimp only
    split_ifs with hstart
    · refine ⟨?_, ?_, ?_⟩
      · rw [List.pairwise_append, List.pairwise_cons]
        refine ⟨hapart.1, ⟨hafter, (List.pairwise_cons.mp hapart.2.1).2⟩, fun s hs o ho => ?_⟩
        rcases List.mem_cons.mp ho with rfl | ho
        · exact hapart.2.2 s hs slice (by simp)
        · exact hapart.2.2 s hs o (by simp [ho])
      · intro s hs
        rcases List.mem_append.mp hs with hs | hs
        · exact h.start_le s (List.mem_append_left _ hs)
        · rcases List.mem_cons.mp hs with rfl | hs
          · exact h.start_le slice (by simp)
          · exact h.start_le s (by simp [hs])
      · intro s hs
        rcases List.mem_append.mp hs with hs | hs
        · exact hother s (List.mem_append_left _ hs) (hbeforeOut s hs)
        · rcases List.mem_cons.mp hs with rfl | hs
          · intro y
            simp only [FlatSet.mem_remove, h.messages slice (by simp) y]
            exact and_right_comm
          · exact hother s (by simp [hs]) (hafterOut s hs)
    · refine ⟨h.apart, h.start_le, fun s hs => hother s hs ?_⟩
      rcases List.mem_append.mp hs with hs | hs
      · exact hbeforeOut s hs
      · rcases List.mem_cons.mp hs with rfl | hs
        · exact fun hin => hstart hin.1
        · exact hafterOut s hs

/-- The last element up to which the last slice knows the set, once it no longer claims the
bottom. -/
def knownTill (maxId : α) (slices : List (Slice α)) : Option α :=
  slices.getLast?.map fun last =>
    if last.range.till = maxId then last.lastKnown else last.range.till

lemma Exact.lastKnown {S : FlatSet α} {slices : List (Slice α)} (h : Exact S slices)
    {slice : Slice α} (hslice : slice ∈ slices) :
    slice.range.start ≤ slice.lastKnown ∧ slice.lastKnown ≤ slice.range.till ∧
      ∀ x ∈ slice.messages, x ≤ slice.lastKnown := by
  unfold Slice.lastKnown
  cases hback : slice.messages.back with
  | none =>
    rw [FlatSet.back_eq_none hback]
    exact ⟨le_rfl, h.start_le slice hslice, by simp⟩
  | some b =>
    obtain ⟨hb, hmax⟩ := FlatSet.back_eq_some hback
    have hin := ((h.messages slice hslice b).mp hb).2
    exact ⟨hin.1, hin.2, hmax⟩

/-- **`invalidateLast` keeps slices exact** when elements joined above what the last slice
knows. -/
theorem Exact.invalidateLast {S S' : FlatSet α} {slices : List (Slice α)} (h : Exact S slices)
    (maxId : α) (hkeep : ∀ x ∈ S, x ∈ S')
    (hjoined : ∀ x ∈ S', x ∈ S ∨ ∀ k ∈ knownTill maxId slices, k < x) :
    Exact S' (Ids.invalidateLast maxId slices) := by
  -- an element that joined is in no range up to what is known
  have hsame : ∀ range : Range α, (∀ k ∈ knownTill maxId slices, range.till ≤ k) →
      (∃ k, k ∈ knownTill maxId slices) →
      ∀ x, x ∈ S' ∧ range.Contains x ↔ x ∈ S ∧ range.Contains x := by
    rintro range hknown ⟨k, hk⟩ x
    constructor
    · rintro ⟨hx, hin⟩
      rcases hjoined x hx with hx | hx
      · exact ⟨hx, hin⟩
      · exact absurd ((hx k hk).trans_le (hin.2.trans (hknown k hk))) (lt_irrefl k)
    · rintro ⟨hx, hin⟩
      exact ⟨hkeep x hx, hin⟩
  unfold Ids.invalidateLast
  unfold knownTill at hsame
  cases hlast : slices.getLast? with
  | none =>
    rw [List.getLast?_eq_none_iff.mp hlast]
    exact exact_nil S'
  | some last =>
    obtain ⟨front, rfl⟩ := List.getLast?_eq_some_iff.mp hlast
    obtain ⟨hfront, -, hbefore⟩ := List.pairwise_append.mp h.apart
    have hmem : last ∈ front ++ [last] := by simp
    obtain ⟨hstart, htill, hall⟩ := h.lastKnown hmem
    simp only [hlast, Option.map_some, Option.mem_some_iff, forall_eq', exists_eq'] at hsame
    simp only [List.dropLast_concat]
    split_ifs with hmax
    · rw [if_pos hmax] at hsame
      refine ⟨?_, ?_, ?_⟩
      · rw [List.pairwise_append]
        refine ⟨hfront, List.pairwise_singleton _ _, fun s hs o ho => ?_⟩
        rw [List.mem_singleton.mp ho]
        exact hbefore s hs last (by simp)
      · intro s hs
        rcases List.mem_append.mp hs with hs | hs
        · exact h.start_le s (List.mem_append_left _ hs)
        · rw [List.mem_singleton.mp hs]
          exact hstart
      · intro s hs x
        rcases List.mem_append.mp hs with hs | hs
        · rw [hsame s.range ((hbefore s hs last (by simp)).le.trans hstart) trivial]
          exact h.messages s (List.mem_append_left _ hs) x
        · rw [List.mem_singleton.mp hs, hsame _ le_rfl trivial]
          simp only [h.messages last hmem x]
          constructor
          · rintro ⟨hx, hin⟩
            exact ⟨hx, hin.1, hall x ((h.messages last hmem x).mpr ⟨hx, hin⟩)⟩
          · rintro ⟨hx, hin⟩
            exact ⟨hx, hin.1, hin.2.trans htill⟩
    · rw [if_neg hmax] at hsame
      refine ⟨h.apart, h.start_le, fun s hs x => ?_⟩
      rw [hsame s.range ?_ trivial]
      · exact h.messages s hs x
      · rcases List.mem_append.mp hs with hs | hs
        · exact (hbefore s hs last (by simp)).le.trans (h.start_le last hmem)
        · rw [List.mem_singleton.mp hs]

/-! ### Elements that slices hold -/

/-- Whether some slice holds an element. -/
def Held (slices : List (Slice α)) (x : α) : Prop := ∃ slice ∈ slices, x ∈ slice.messages

/-- The slice that messages were added to has them. -/
lemma mem_slice_added (slices : List (Slice α)) {messages : List α} (range : Range α) {x : α}
    (hx : x ∈ messages) : x ∈ (addRangeItemsAndCountNew slices messages range).slice.messages := by
  unfold addRangeItemsAndCountNew
  dsimp only
  split
  · exact FlatSet.mem_ofList.mpr hx
  · exact ((unites_uniteAndAdd messages range _ _).mem x).mpr (Or.inl hx)

/-- Adding keeps what slices hold. -/
lemma Held.add {slices : List (Slice α)} {x : α} (h : Held slices x) (messages : List α)
    (range : Range α) : Held (addRangeItemsAndCountNew slices messages range).slices x := by
  obtain ⟨slice, hslice, hx⟩ := h
  rw [← List.takeWhile_append_dropWhile
    (p := fun slice : Slice α => decide (slice.range.till < range.start)) (l := slices),
    List.mem_append] at hslice
  unfold addRangeItemsAndCountNew
  dsimp only
  have hrest := List.takeWhile_append_dropWhile
    (p := fun slice : Slice α => decide (slice.range.start ≤ range.till))
    (l := slices.dropWhile fun slice => decide (slice.range.till < range.start))
  rcases hslice with hslice | hslice
  · split <;> exact ⟨slice, List.mem_append_left _ hslice, hx⟩
  rw [← hrest, List.mem_append] at hslice
  split
  · rename_i hnone
    rw [hnone] at hslice
    rcases hslice with hslice | hslice
    · exact absurd hslice List.not_mem_nil
    · exact ⟨slice, List.mem_append_right _ (List.mem_cons_of_mem _ hslice), hx⟩
  · rename_i first others hmeeting
    rcases hslice with hslice | hslice
    · rw [hmeeting] at hslice
      exact ⟨_, List.mem_append_right _ List.mem_cons_self,
        ((unites_uniteAndAdd messages range first others).mem x).mpr (Or.inr ⟨slice, hslice, hx⟩)⟩
    · exact ⟨slice, List.mem_append_right _ (List.mem_cons_of_mem _ hslice), hx⟩

/-- Removing an element keeps the others. -/
lemma Held.remove {slices : List (Slice α)} {x y : α} (h : Held slices x) (hne : x ≠ y) :
    Held (removeMessage slices y) x := by
  obtain ⟨slice, hslice, hx⟩ := h
  unfold removeMessage
  dsimp only
  have hsplit := List.takeWhile_append_dropWhile
    (p := fun slice : Slice α => decide (slice.range.till < y)) (l := slices)
  split
  · rename_i first after hdrop
    split_ifs
    · rw [← hsplit, hdrop, List.mem_append, List.mem_cons] at hslice
      rcases hslice with hslice | rfl | hslice
      · exact ⟨slice, List.mem_append_left _ hslice, hx⟩
      · exact ⟨_, List.mem_append_right _ List.mem_cons_self, FlatSet.mem_remove.mpr ⟨hx, hne⟩⟩
      · exact ⟨slice, List.mem_append_right _ (List.mem_cons_of_mem _ hslice), hx⟩
    · exact ⟨slice, hslice, hx⟩
  · exact ⟨slice, hslice, hx⟩

/-- Invalidating the bottom keeps what slices hold. -/
lemma Held.invalidateLast {slices : List (Slice α)} {x : α} (h : Held slices x) (maxId : α) :
    Held (Ids.invalidateLast maxId slices) x := by
  obtain ⟨slice, hslice, hx⟩ := h
  unfold Ids.invalidateLast
  split
  · rename_i last hlast
    obtain ⟨before, rfl⟩ := List.getLast?_eq_some_iff.mp hlast
    split_ifs
    · rw [List.dropLast_concat]
      rcases List.mem_append.mp hslice with hslice | hslice
      · exact ⟨slice, List.mem_append_left _ hslice, hx⟩
      · rw [List.mem_singleton.mp hslice] at hx
        exact ⟨_, List.mem_append_right _ (List.mem_singleton_self _), hx⟩
    · exact ⟨slice, hslice, hx⟩
  · exact ⟨slice, hslice, hx⟩

/-- What slices hold is not above what the last slice knows. -/
lemma Exact.le_knownTill {S : FlatSet α} {slices : List (Slice α)} (h : Exact S slices) {x : α}
    (hheld : Held slices x) (maxId : α) : ∃ k ∈ knownTill maxId slices, x ≤ k := by
  obtain ⟨slice, hslice, hx⟩ := hheld
  unfold knownTill
  cases hlast : slices.getLast? with
  | none =>
    rw [List.getLast?_eq_none_iff.mp hlast] at hslice
    exact absurd hslice List.not_mem_nil
  | some last =>
    obtain ⟨before, rfl⟩ := List.getLast?_eq_some_iff.mp hlast
    obtain ⟨hstart, -, hall⟩ := h.lastKnown hslice
    obtain ⟨hlstart, hltill, hlall⟩ := h.lastKnown (show last ∈ before ++ [last] by simp)
    refine ⟨_, rfl, ?_⟩
    rcases List.mem_append.mp hslice with hslice' | hslice'
    · have hapart := (List.pairwise_append.mp h.apart).2.2 slice hslice' last (by simp)
      have hlt : x < last.range.start :=
        ((h.messages slice hslice x).mp hx).2.2.trans_lt hapart
      dsimp only
      split_ifs
      · exact hlt.le.trans hlstart
      · exact hlt.le.trans (hlstart.trans hltill)
    · rw [List.mem_singleton.mp hslice'] at hx
      dsimp only
      split_ifs
      · exact hlall x hx
      · exact (hlall x hx).trans hltill

/-! ### What queries show -/

lemma findSlice_eq_some {slices : List (Slice α)} {x : α} {slice : Slice α}
    (h : findSlice slices x = some slice) : slice ∈ slices ∧ slice.range.Contains x := by
  unfold findSlice at h
  cases hdrop : slices.dropWhile (fun slice => decide (slice.range.till < x)) with
  | nil => rw [hdrop] at h; exact absurd h (by simp)
  | cons first rest =>
    rw [hdrop] at h
    obtain ⟨hstart, hsome⟩ := Option.ite_none_right_eq_some.mp h
    obtain rfl := Option.some.inj hsome
    have hmem : first ∈ slices := by
      apply (List.dropWhile_sublist fun slice : Slice α => decide (slice.range.till < x)).subset
      rw [hdrop]
      simp
    have hne : slices.dropWhile (fun slice => decide (slice.range.till < x)) ≠ [] := by
      rw [hdrop]
      simp
    have htill := List.head_dropWhile_not (fun slice : Slice α => decide (slice.range.till < x)) hne
    simp only [hdrop, List.head_cons, decide_eq_false_iff_not, not_lt] at htill
    exact ⟨hmem, hstart, htill⟩

/-- A result of a query around a point: consecutive elements of the set, with what stands before
and after them. -/
structure Around (S : FlatSet α) (aroundId : α) (result : Result α) (before after : List α) :
    Prop where
  split : S.elems = before ++ result.messageIds.elems ++ after
  below : ∀ x ∈ before, x < aroundId
  above : ∀ x ∈ after, aroundId ≤ x
  count : ∀ n ∈ result.count, n = S.size
  skippedBefore : ∀ n ∈ result.skippedBefore, n = before.length
  skippedAfter : ∀ n ∈ result.skippedAfter, n = after.length

/-- A result without elements. -/
lemma around_empty (S : FlatSet α) (aroundId : α) {count : Option ℤ}
    (hcount : ∀ n ∈ count, n = S.size) :
    ∃ before after, Around S aroundId { count } before after := by
  refine ⟨S.elems.take (S.lowerBound aroundId), S.elems.drop (S.lowerBound aroundId), ?_, ?_, ?_,
    hcount, by simp, by simp⟩
  · simp
  · intro x hx
    have hx : x ∈ S.take (S.lowerBound aroundId) := hx
    rw [S.take_lowerBound] at hx
    simpa using (FlatSet.mem_filter.mp hx).2
  · intro x hx
    have hx : x ∈ S.drop (S.lowerBound aroundId) := hx
    rw [S.drop_lowerBound] at hx
    simpa using (FlatSet.mem_filter.mp hx).2

/-- A query has the count it is given and shows elements of its slice. -/
lemma queryFromSlice_mem (minId maxId : α) (count : Option ℤ) (query : Query α) (slice : Slice α) :
    (queryFromSlice minId maxId count query slice).count = count ∧
      ∀ x ∈ (queryFromSlice minId maxId count query slice).messageIds, x ∈ slice.messages := by
  unfold queryFromSlice
  dsimp only
  split <;> exact ⟨rfl, fun x hx => FlatSet.mem_of_mem_drop (FlatSet.mem_of_mem_take hx)⟩

/-- **A query shows a block of the set around its point**, with exact numbers.

**Proof sketch.** The set is what stands below the slice, the slice, and what stands above it;
the slice is cut around the lower bound of the point. A slice that reaches an end of the whole
range has nothing beyond it, and a missing number is what is left of the count. -/
theorem queryFromSlice_shows {S : FlatSet α} {slice : Slice α} {minId maxId : α}
    (hexact : ∀ x, x ∈ slice.messages ↔ x ∈ S ∧ slice.range.Contains x)
    (hmin : ∀ x ∈ S, minId ≤ x) (hmax : ∀ x ∈ S, x ≤ maxId) {count : Option ℤ}
    (hcount : ∀ n ∈ count, n = S.size) (query : Query α) (hin : slice.range.Contains query.aroundId) :
    ∃ before after, Around S query.aroundId (queryFromSlice minId maxId count query slice) before
      after := by
  set M := slice.messages with hM
  set position := M.lowerBound query.aroundId with hposition
  have hle : position ≤ M.size := M.lowerBound_le query.aroundId
  set b := min position query.limitBefore with hb
  set e := min (M.size - position) (query.limitAfter + 1) with he
  have hbLe : b ≤ position := min_le_left _ _
  have heLe : e ≤ M.size - position := min_le_left _ _
  -- the slice is the middle part of the set
  have hmiddle : M = S.filter fun x => slice.range.start ≤ x && x ≤ slice.range.till := by
    apply FlatSet.ext_mem
    intro x
    rw [hM, hexact, FlatSet.mem_filter]
    simp [Range.Contains]
  have hwhole := S.elems_eq_append (hin.1.trans hin.2)
  rw [← hmiddle] at hwhole
  have hcut : M.elems = M.elems.take (position - b) ++
      ((M.drop (position - b)).take (b + e)).elems ++ M.elems.drop (position + e) := by
    have h1 : M.elems.drop (position + e) =
        (M.elems.drop (position - b)).drop (b + e) := by
      rw [List.drop_drop]
      congr 1
      omega
    rw [h1, List.append_assoc]
    change M.elems = M.elems.take (position - b) ++ ((M.elems.drop (position - b)).take (b + e) ++ _)
    rw [List.take_append_drop, List.take_append_drop]
  set before := (S.filter (· < slice.range.start)).elems ++ M.elems.take (position - b) with hbefore
  set after := M.elems.drop (position + e) ++ (S.filter (slice.range.till < ·)).elems with hafter
  have hsplit : S.elems = before ++ ((M.drop (position - b)).take (b + e)).elems ++ after := by
    rw [hwhole]
    conv_lhs => rw [hcut]
    simp only [hbefore, hafter, List.append_assoc]
  have hbelow : ∀ x ∈ before, x < query.aroundId := by
    intro x hx
    rcases List.mem_append.mp hx with hx | hx
    · have hx := (FlatSet.mem_filter.mp hx).2
      exact (by simpa using hx : x < slice.range.start).trans_le hin.1
    · have hx : x ∈ M.take position :=
        (List.take_prefix_take_left (l := M.elems) (by omega : position - b ≤ position)).subset hx
      rw [hposition, M.take_lowerBound] at hx
      simpa using (FlatSet.mem_filter.mp hx).2
  have habove : ∀ x ∈ after, query.aroundId ≤ x := by
    intro x hx
    rcases List.mem_append.mp hx with hx | hx
    · rw [← List.drop_drop] at hx
      have hx : x ∈ M.drop position := List.mem_of_mem_drop hx
      rw [hposition, M.drop_lowerBound] at hx
      simpa using (FlatSet.mem_filter.mp hx).2
    · have hx := (FlatSet.mem_filter.mp hx).2
      exact hin.2.trans (by simpa using hx : slice.range.till < x).le
  have hlengthBefore : slice.range.start = minId → (before.length : ℤ) = position - b := by
    intro hstart
    have hnone : S.filter (· < slice.range.start) = ∅ := by
      apply FlatSet.ext_mem
      intro x
      rw [FlatSet.mem_filter]
      simp only [decide_eq_true_eq, FlatSet.not_mem_empty, iff_false, not_and, not_lt]
      intro hx
      exact hstart ▸ hmin x hx
    have hlen : (M.elems.take (position - b)).length = position - b :=
      List.length_take_of_le (by have : M.elems.length = M.size := rfl; omega)
    rw [hbefore, hnone, FlatSet.elems_empty, List.nil_append, hlen]
    omega
  have hlengthAfter : slice.range.till = maxId → (after.length : ℤ) = M.size - position - e := by
    intro htill
    have hnone : S.filter (slice.range.till < ·) = ∅ := by
      apply FlatSet.ext_mem
      intro x
      rw [FlatSet.mem_filter]
      simp only [decide_eq_true_eq, FlatSet.not_mem_empty, iff_false, not_and, not_lt]
      intro hx
      exact htill ▸ hmax x hx
    have hlen : (M.elems.drop (position + e)).length = M.size - (position + e) := List.length_drop
    rw [hafter, hnone, FlatSet.elems_empty, List.append_nil, hlen]
    omega
  have hsizes : (S.size : ℤ) = before.length +
      ((M.drop (position - b)).take (b + e)).size + after.length := by
    have := congrArg List.length hsplit
    simp only [List.length_append] at this
    simp only [FlatSet.size]
    omega
  have hresult : ∀ skippedBefore skippedAfter : Option ℤ,
      (∀ n ∈ skippedBefore, n = before.length) → (∀ n ∈ skippedAfter, n = after.length) →
      Around S query.aroundId
        { count, skippedBefore, skippedAfter
          messageIds := (M.drop (position - b)).take (b + e) } before after :=
    fun _ _ hskippedBefore hskippedAfter =>
      ⟨hsplit, hbelow, habove, hcount, hskippedBefore, hskippedAfter⟩
  refine ⟨before, after, ?_⟩
  unfold queryFromSlice
  simp only [← hM, ← hposition, ← hb, ← he]
  by_cases hstart : slice.range.start = minId
  · have hbeforeEq := hlengthBefore hstart
    by_cases htill : slice.range.till = maxId
    · have hafterEq := hlengthAfter htill
      simp only [hstart, htill, if_true]
      cases count <;> refine hresult _ _ ?_ ?_ <;> simp <;> omega
    · simp only [hstart, htill, if_true, if_false]
      cases count with
      | none => refine hresult _ _ ?_ ?_ <;> simp; omega
      | some n =>
        have hn := hcount n rfl
        refine hresult _ _ ?_ ?_ <;> simp <;> omega
  · by_cases htill : slice.range.till = maxId
    · have hafterEq := hlengthAfter htill
      simp only [hstart, htill, if_true, if_false]
      cases count with
      | none => refine hresult _ _ ?_ ?_ <;> simp; omega
      | some n =>
        have hn := hcount n rfl
        refine hresult _ _ ?_ ?_ <;> simp <;> omega
    · simp only [hstart, htill, if_false]
      cases count <;> exact hresult _ _ (by simp) (by simp)

end Ids
