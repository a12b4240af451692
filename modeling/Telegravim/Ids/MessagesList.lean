import Mathlib.Data.Prod.Lex
import Telegravim.Ids.SparseIdsList

set_option autoImplicit false

/-!
# The list of messages of a history

`MessagesList`: like `SparseIdsList`, with positions in place of ids, messages that join in the
middle, and a beginning of the history that can be cut off.

## Main definitions

* `Ids.MessagePosition`, `Ids.MessagesList`, `Ids.MessagesList.exec` — the list and its calls.
* `Ids.MessagesList.Truthful` — calls that tell the truth about the set of the server.
* `Ids.MessagesList.CountKept` — when cutting the beginning off leaves the count right.

## Main results

* `Ids.MessagesList.count_removeLessThan_iff` — the count after the beginning was cut off.
* `Ids.messages_list_sound` — every list of a run is sound when the cuts keep the count.
* `Ids.removeLessThan_leaves_count` — a cut that leaves the count wrong.
-/

namespace Ids

/-! ### Positions -/

structure MessagePosition where
  date : ℤ := 0
  peer : ℕ := 0
  msg : MsgId := 0
deriving DecidableEq

namespace MessagePosition

/-- Positions are ordered by date, then by peer and id. -/
def toLexTriple (position : MessagePosition) : ℤ ×ₗ (ℕ ×ₗ ℤ) :=
  toLex (position.date, toLex (position.peer, position.msg))

lemma toLexTriple_injective : Function.Injective toLexTriple := by
  rintro ⟨date, peer, msg⟩ ⟨date', peer', msg'⟩ h
  simp only [toLexTriple, EmbeddingLike.apply_eq_iff_eq, Prod.mk.injEq] at h
  obtain ⟨rfl, rfl, rfl⟩ := h
  rfl

instance : LinearOrder MessagePosition := LinearOrder.lift' toLexTriple toLexTriple_injective

end MessagePosition

def MinMessagePosition : MessagePosition := { date := 0, peer := 0, msg := 1 }

def MaxMessagePosition : MessagePosition :=
  { date := 2 ^ 31 - 1, peer := 0, msg := ServerMaxMsgId - 1 }

def FullMessagesRange : Range MessagePosition :=
  { start := MinMessagePosition, till := MaxMessagePosition }

structure MessagesList where
  count : Option ℤ := none
  slices : List (Slice MessagePosition) := []
deriving DecidableEq

namespace MessagesList

/-! ### The calls -/

def addRange (list : MessagesList) (messages : List MessagePosition)
    (noSkipRange : Range MessagePosition) (count : Option ℤ) (incrementCount : Bool) :
    MessagesList × SliceUpdate MessagePosition :=
  let result := addRangeItemsAndCountNew list.slices messages noSkipRange
  let counted := match count with
    | some n => some n
    | none =>
      if incrementCount ∧ 0 < result.added then list.count.map (· + result.added) else list.count
  let counted := match result.slices with
    | [front] => if front.range = FullMessagesRange then some ↑front.messages.size else counted
    | _ => counted
  ({ slices := result.slices, count := counted },
    { messages := some result.slice.messages, range := result.slice.range, count := counted })

def addOne (list : MessagesList) (messageId : MessagePosition) :
    MessagesList × SliceUpdate MessagePosition :=
  list.addRange [messageId] { start := messageId, till := messageId } none true

def addNew (list : MessagesList) (messageId : MessagePosition) :
    MessagesList × SliceUpdate MessagePosition :=
  list.addRange [messageId] { start := messageId, till := MaxMessagePosition } none true

def addSlice (list : MessagesList) (messageIds : List MessagePosition)
    (noSkipRange : Range MessagePosition) (count : Option ℤ) :
    MessagesList × SliceUpdate MessagePosition :=
  list.addRange messageIds noSkipRange count false

/-- An update is sent when the range of a slice has the message. -/
def removeOne (list : MessagesList) (messageId : MessagePosition) :
    MessagesList × Option (SliceUpdate MessagePosition) :=
  let slices := removeMessage list.slices messageId
  let count := list.count.map (· - 1)
  ({ slices, count }, (findSlice slices messageId).map fun slice =>
    { messages := some slice.messages, range := slice.range, count })

/-- The loop of `removeLessThan`, with the number of messages it removed. -/
def dropLessThan (messageId : MessagePosition) :
    List (Slice MessagePosition) → List (Slice MessagePosition) × ℤ
  | [] => ([], 0)
  | slice :: slices =>
    if slice.range.till ≤ messageId then
      let rest := dropLessThan messageId slices
      (rest.1, slice.messages.size + rest.2)
    else if slice.range.start ≤ messageId then
      let till := slice.messages.lowerBound messageId
      ({ messages := slice.messages.drop till
         range := { slice.range with start := MinMessagePosition } } :: slices, till)
    else (slice :: slices, 0)

def removeLessThan (list : MessagesList) (messageId : MessagePosition) : MessagesList :=
  let r := dropLessThan messageId list.slices
  { slices := r.1, count := if r.2 ≠ 0 then list.count.map (· - r.2) else list.count }

def invalidate : MessagesList := {}

def invalidateBottom (list : MessagesList) : MessagesList where
  slices := invalidateLast MaxMessagePosition list.slices
  count := none

def queryCurrent (list : MessagesList) (query : Query MessagePosition) : Result MessagePosition :=
  if query.aroundId.msg = 0 then {}
  else match findSlice list.slices query.aroundId with
    | some slice => queryFromSlice MinMessagePosition MaxMessagePosition list.count query slice
    | none => {}

inductive Op where
  | addOne (messageId : MessagePosition)
  | addNew (messageId : MessagePosition)
  | addSlice (messageIds : List MessagePosition) (noSkipRange : Range MessagePosition)
      (count : Option ℤ)
  | removeOne (messageId : MessagePosition)
  | removeLessThan (messageId : MessagePosition)
  | invalidate
  | invalidateBottom

def exec (list : MessagesList) : Op → MessagesList
  | .addOne messageId => (list.addOne messageId).1
  | .addNew messageId => (list.addNew messageId).1
  | .addSlice messageIds noSkipRange count => (list.addSlice messageIds noSkipRange count).1
  | .removeOne messageId => (list.removeOne messageId).1
  | .removeLessThan messageId => list.removeLessThan messageId
  | .invalidate => invalidate
  | .invalidateBottom => list.invalidateBottom

/-! ### Truthful calls -/

/-- A call that tells the truth about the set of the server, `S` before the call and `S'` at the
call. After `invalidate` nothing is known, so the set may be another one; messages may have
joined unseen before `invalidateBottom`, above what the last slice knows. -/
def Truthful (list : MessagesList) (S S' : FlatSet MessagePosition) : Op → Prop
  | .addOne messageId => messageId ∉ S ∧ S' = S.insert messageId
  | .addNew messageId => (∀ position ∈ S, position < messageId) ∧ S' = S.insert messageId
  | .addSlice messageIds noSkipRange count =>
    Truth S S' messageIds noSkipRange ∧ S' = S ∧ ∀ n ∈ count, n = S.size
  | .removeOne messageId => messageId ∈ S ∧ S' = S.remove messageId
  | .removeLessThan messageId =>
    MinMessagePosition ≤ messageId ∧ S' = S.filter (messageId ≤ ·)
  | .invalidate => True
  | .invalidateBottom =>
    (∀ position ∈ S, position ∈ S') ∧
      ∀ position ∈ S', position ∈ S ∨
        ∀ known ∈ knownTill MaxMessagePosition list.slices, known < position

/-- Whether a set is within the whole range. -/
def WithinRange (S : FlatSet MessagePosition) : Prop :=
  ∀ position ∈ S, MinMessagePosition ≤ position ∧ position ≤ MaxMessagePosition

/-- A list that knows nothing wrong about a set of the server. -/
structure Sound (S : FlatSet MessagePosition) (list : MessagesList) : Prop where
  within : WithinRange S
  exact_ : Exact S list.slices
  count : ∀ n ∈ list.count, n = S.size

/-! ### Adding -/

/-- **`addRange` keeps a list sound** when it is told the truth. -/
lemma sound_addRange {S₀ S : FlatSet MessagePosition} {list : MessagesList} (h : Sound S₀ list)
    (hwithin : WithinRange S) {messages : List MessagePosition}
    {noSkipRange : Range MessagePosition} (htruth : Truth S₀ S messages noSkipRange)
    (count : Option ℤ) (incrementCount : Bool) (hcount : ∀ n ∈ count, n = S.size)
    (hsize : count = none → (S.size : ℤ) = S₀.size + if incrementCount ∧
      0 < (addRangeItemsAndCountNew list.slices messages noSkipRange).added then
        (addRangeItemsAndCountNew list.slices messages noSkipRange).added else 0) :
    Sound S (list.addRange messages noSkipRange count incrementCount).1 := by
  obtain ⟨hexact, hmem⟩ := h.exact_.add htruth
  unfold addRange
  set result := addRangeItemsAndCountNew list.slices messages noSkipRange with hresult
  have hcounted : ∀ n ∈ (match count with
      | some n => some n
      | none => if incrementCount ∧ 0 < result.added then list.count.map (· + result.added)
        else list.count), n = (S.size : ℤ) := by
    cases count with
    | some m => exact hcount
    | none =>
      rw [hsize rfl]
      intro n hn
      simp only at hn
      split_ifs at hn ⊢
      · obtain ⟨m, hm, rfl⟩ := Option.mem_map.mp hn
        rw [h.count m hm]
      · rw [h.count n hn, add_zero]
  refine ⟨hwithin, hexact, fun n hn => ?_⟩
  dsimp only at hn
  generalize (match count with
      | some n => some n
      | none => if incrementCount ∧ 0 < result.added then list.count.map (· + result.added)
        else list.count) = counted at hn hcounted
  split at hn
  · rename_i front hfront
    split_ifs at hn with hfull
    · -- the slice has the whole set
      have hwhole : front.messages = S := by
        apply FlatSet.ext_mem
        intro position
        rw [hexact.messages front (by rw [hfront]; simp), hfull]
        exact ⟨fun hp => hp.1, fun hp => ⟨hp, hwithin position hp⟩⟩
      rw [← Option.some.inj hn, hwhole]
    · exact hcounted n hn
  · exact hcounted n hn

/-! ### Cutting the beginning off -/

/-- The positions below a point that some slice holds. -/
def heldBelow (S : FlatSet MessagePosition) (slices : List (Slice MessagePosition))
    (messageId : MessagePosition) : FlatSet MessagePosition :=
  S.filter fun position => position < messageId && slices.any fun slice => position ∈ slice.messages

/-- The positions below a point that no slice holds. -/
def missingBelow (S : FlatSet MessagePosition) (slices : List (Slice MessagePosition))
    (messageId : MessagePosition) : FlatSet MessagePosition :=
  S.filter fun position =>
    position < messageId && !slices.any fun slice => position ∈ slice.messages

/-- Whether a slice ends with a message at a point. -/
def endsAt (slices : List (Slice MessagePosition)) (messageId : MessagePosition) : Bool :=
  slices.any fun slice => slice.range.till = messageId && messageId ∈ slice.messages

/-- When cutting the beginning off leaves the count right: it is not known, or the slices hold
every position below the point and no slice ends with a message at the point. A position too many
and one too few make up for each other. -/
def CountKept (S : FlatSet MessagePosition) (list : MessagesList) (messageId : MessagePosition) :
    Prop :=
  list.count = none ∨
    (missingBelow S list.slices messageId).size = if endsAt list.slices messageId then 1 else 0

lemma exact_tail {S : FlatSet MessagePosition} {slice : Slice MessagePosition}
    {slices : List (Slice MessagePosition)} (h : Exact S (slice :: slices)) : Exact S slices :=
  h.sublist (List.sublist_cons_self _ _)

/-- **`dropLessThan` keeps slices exact** for what is left of the set. -/
lemma exact_dropLessThan {S : FlatSet MessagePosition} {messageId : MessagePosition}
    (hmin : MinMessagePosition ≤ messageId) (hwithin : WithinRange S)
    {slices : List (Slice MessagePosition)} (h : Exact S slices) :
    Exact (S.filter (messageId ≤ ·)) (dropLessThan messageId slices).1 := by
  -- slices above the point are not touched
  have habove : ∀ rest : List (Slice MessagePosition), Exact S rest →
      (∀ slice ∈ rest, messageId < slice.range.start) → Exact (S.filter (messageId ≤ ·)) rest := by
    intro rest hrest hlt
    refine ⟨hrest.apart, hrest.start_le, fun slice hslice position => ?_⟩
    rw [hrest.messages slice hslice, FlatSet.mem_filter]
    constructor
    · rintro ⟨hp, hin⟩
      exact ⟨⟨hp, by simpa using (hlt slice hslice).le.trans hin.1⟩, hin⟩
    · rintro ⟨⟨hp, -⟩, hin⟩
      exact ⟨hp, hin⟩
  induction slices with
  | nil => exact exact_nil _
  | cons slice slices ih =>
    have hapart := (List.pairwise_cons.mp h.apart).1
    have hslice := h.messages slice (by simp)
    unfold dropLessThan
    split_ifs with htill hstart
    · exact ih (exact_tail h)
    · rw [not_le] at htill
      have hrest := habove slices (exact_tail h) fun s hs => htill.trans (hapart s hs)
      refine ⟨List.pairwise_cons.mpr ⟨hapart, hrest.apart⟩, ?_, ?_⟩
      · intro s hs
        rcases List.mem_cons.mp hs with rfl | hs
        · exact hmin.trans htill.le
        · exact hrest.start_le s hs
      · intro s hs position
        rcases List.mem_cons.mp hs with rfl | hs
        · simp only [FlatSet.drop_lowerBound, FlatSet.mem_filter, hslice, decide_eq_true_eq]
          constructor
          · rintro ⟨⟨hp, hin⟩, hle⟩
            exact ⟨⟨hp, hle⟩, (hwithin position hp).1, hin.2⟩
          · rintro ⟨⟨hp, hle⟩, hin⟩
            exact ⟨⟨hp, hstart.trans hle, hin.2⟩, hle⟩
        · exact hrest.messages s hs position
    · rw [not_le] at hstart
      refine habove _ h fun s hs => ?_
      rcases List.mem_cons.mp hs with rfl | hs
      · exact hstart
      · exact hstart.trans ((h.start_le slice (by simp)).trans_lt (hapart s hs))

/-- Slices above a point hold nothing below it and do not end at it. -/
lemma heldBelow_of_above {S : FlatSet MessagePosition} {slices : List (Slice MessagePosition)}
    (h : Exact S slices) (messageId : MessagePosition)
    (habove : ∀ slice ∈ slices, messageId < slice.range.start) :
    (heldBelow S slices messageId).size = 0 ∧ endsAt slices messageId = false := by
  constructor
  · have hempty : heldBelow S slices messageId = ∅ := by
      apply FlatSet.ext_mem
      intro position
      simp only [heldBelow, FlatSet.mem_filter, Bool.and_eq_true, decide_eq_true_eq,
        List.any_eq_true, FlatSet.not_mem_empty, iff_false, not_and, not_exists]
      intro _ hlt slice hslice hmem
      have hin := ((h.messages slice hslice position).mp hmem).2
      exact absurd (hlt.trans (habove slice hslice)) (not_lt.mpr hin.1)
    rw [hempty, FlatSet.size_empty]
  · simp only [endsAt, List.any_eq_false, Bool.and_eq_true, decide_eq_true_eq,
      not_and]
    intro slice hslice htill _
    have := (habove slice hslice).trans_le (h.start_le slice hslice)
    exact this.ne' htill

/-- The first slice holds its own positions, the others hold the rest. -/
lemma size_heldBelow_cons {S : FlatSet MessagePosition} {slice : Slice MessagePosition}
    {slices : List (Slice MessagePosition)} (h : Exact S (slice :: slices))
    (messageId : MessagePosition) :
    (heldBelow S (slice :: slices) messageId).size =
      (slice.messages.filter (· < messageId)).size + (heldBelow S slices messageId).size := by
  have hslice := h.messages slice (by simp)
  have hapart := (List.pairwise_cons.mp h.apart).1
  rw [← FlatSet.size_filter_add (heldBelow S (slice :: slices) messageId) (· ∈ slice.messages)]
  congr 2
  · apply FlatSet.ext_mem
    intro position
    simp only [heldBelow, FlatSet.mem_filter, List.any_cons, Bool.and_eq_true, Bool.or_eq_true,
      decide_eq_true_eq]
    constructor
    · rintro ⟨⟨-, hlt, -⟩, hmem⟩
      exact ⟨hmem, hlt⟩
    · rintro ⟨hmem, hlt⟩
      exact ⟨⟨((hslice position).mp hmem).1, hlt, Or.inl hmem⟩, hmem⟩
  · apply FlatSet.ext_mem
    intro position
    simp only [heldBelow, FlatSet.mem_filter, List.any_cons, Bool.and_eq_true, Bool.or_eq_true,
      decide_eq_true_eq, List.any_eq_true, Bool.not_eq_true', decide_eq_false_iff_not]
    constructor
    · rintro ⟨⟨hp, hlt, hmem | hmem⟩, hnot⟩
      · exact absurd hmem hnot
      · exact ⟨hp, hlt, hmem⟩
    · rintro ⟨hp, hlt, s, hs, hmem⟩
      refine ⟨⟨hp, hlt, Or.inr ⟨s, hs, hmem⟩⟩, fun hfirst => ?_⟩
      -- a position is in the range of one slice only
      have hin := ((hslice position).mp hfirst).2
      have hin' := ((h.messages s (by simp [hs]) position).mp hmem).2
      exact absurd (hin.2.trans_lt (hapart s hs)) (not_lt.mpr hin'.1)

/-- A slice that ends at or below a point holds what is below the point, and maybe its end. -/
lemma size_of_till_le {S : FlatSet MessagePosition} {slice : Slice MessagePosition}
    {slices : List (Slice MessagePosition)} (h : Exact S (slice :: slices))
    {messageId : MessagePosition} (htill : slice.range.till ≤ messageId) :
    slice.messages.size = (slice.messages.filter (· < messageId)).size +
      if messageId ∈ slice.messages then 1 else 0 := by
  have hslice := h.messages slice (by simp)
  rw [← FlatSet.size_filter_add slice.messages (· < messageId)]
  congr 1
  have hle : ∀ position ∈ slice.messages, position ≤ messageId := fun position hmem =>
    ((hslice position).mp hmem).2.2.trans htill
  split_ifs with hmem
  · have hone : slice.messages.filter (fun position => !decide (position < messageId)) =
        (∅ : FlatSet MessagePosition).insert messageId := by
      apply FlatSet.ext_mem
      intro position
      simp only [FlatSet.mem_filter, Bool.not_eq_true', decide_eq_false_iff_not, not_lt,
        FlatSet.mem_insert, FlatSet.not_mem_empty, or_false]
      constructor
      · rintro ⟨hp, hge⟩
        exact le_antisymm (hle position hp) hge
      · rintro rfl
        exact ⟨hmem, le_rfl⟩
    rw [hone, FlatSet.size_insert (FlatSet.not_mem_empty _), FlatSet.size_empty]
  · have hnone : slice.messages.filter (fun position => !decide (position < messageId)) = ∅ := by
      apply FlatSet.ext_mem
      intro position
      simp only [FlatSet.mem_filter, Bool.not_eq_true', decide_eq_false_iff_not, not_lt,
        FlatSet.not_mem_empty, iff_false, not_and]
      intro hp hge
      exact hmem (le_antisymm (hle position hp) hge ▸ hp)
    rw [hnone, FlatSet.size_empty]

/-- **What `dropLessThan` counts**: the positions below the point that slices hold, and the
message a slice ends with at the point.

**Proof sketch.** Induction on the slices. The positions of a slice that ends at or below the
point are all counted, those of a slice around the point up to the point; slices above it hold
nothing below. -/
lemma removed_dropLessThan {S : FlatSet MessagePosition} (messageId : MessagePosition)
    {slices : List (Slice MessagePosition)} (h : Exact S slices) :
    (dropLessThan messageId slices).2 =
      (heldBelow S slices messageId).size + if endsAt slices messageId then 1 else 0 := by
  induction slices with
  | nil =>
    obtain ⟨hheld, hends⟩ := heldBelow_of_above h messageId (by simp)
    rw [hheld, hends]
    rfl
  | cons slice slices ih =>
    have hapart := (List.pairwise_cons.mp h.apart).1
    have hslice := h.messages slice (by simp)
    rcases le_or_gt slice.range.till messageId with htill | htill
    · have hends : endsAt (slice :: slices) messageId =
          (decide (messageId ∈ slice.messages) || endsAt slices messageId) := by
        simp only [endsAt, List.any_cons]
        congr 1
        rw [← Bool.decide_and, decide_eq_decide]
        refine ⟨fun hend => hend.2, fun hmem => ⟨le_antisymm htill ?_, hmem⟩⟩
        exact ((hslice messageId).mp hmem).2.2
      have hfirst := size_of_till_le h htill
      rw [size_heldBelow_cons h, hends, dropLessThan, if_pos htill]
      dsimp only
      rw [ih (exact_tail h), hfirst]
      by_cases hmem : messageId ∈ slice.messages
      · -- the other slices are above the end of this one
        have hend := le_antisymm htill ((hslice messageId).mp hmem).2.2
        have hlater := (heldBelow_of_above (exact_tail h) messageId fun s hs => hend ▸ hapart s hs).2
        simp only [hmem, hlater, if_true, Bool.or_false, decide_true, Bool.false_eq_true, if_false]
        push_cast
        omega
      · simp only [hmem, if_false, decide_false, Bool.false_or]
        push_cast
        omega
    · have hends : endsAt (slice :: slices) messageId = endsAt slices messageId := by
        simp only [endsAt, List.any_cons, htill.ne', decide_false, Bool.false_and, Bool.false_or]
      obtain ⟨hheld, hlater⟩ := heldBelow_of_above (exact_tail h) messageId fun s hs =>
        htill.trans (hapart s hs)
      rw [size_heldBelow_cons h, hheld, hends, hlater, dropLessThan, if_neg (not_le.mpr htill),
        if_neg Bool.false_ne_true]
      split_ifs with hstart
      · dsimp only
        rw [FlatSet.lowerBound_eq, Nat.add_zero, add_zero]
      · have hnone : slice.messages.filter (fun position => position < messageId) = ∅ := by
          apply FlatSet.ext_mem
          intro position
          simp only [FlatSet.mem_filter, decide_eq_true_eq, FlatSet.not_mem_empty, iff_false,
            not_and, not_lt]
          intro hmem
          exact (not_le.mp hstart).le.trans ((hslice position).mp hmem).2.1
        rw [hnone]
        rfl

/-- The positions below a point are those that slices hold and those that they miss. -/
lemma size_eq_held_add_missing (S : FlatSet MessagePosition)
    (slices : List (Slice MessagePosition)) (messageId : MessagePosition) :
    S.size = (S.filter (messageId ≤ ·)).size +
      ((heldBelow S slices messageId).size + (missingBelow S slices messageId).size) := by
  rw [← FlatSet.size_filter_add S (messageId ≤ ·)]
  congr 1
  rw [← FlatSet.size_filter_add (S.filter fun position => !decide (messageId ≤ position))
    (fun position => slices.any fun slice => position ∈ slice.messages)]
  congr 2
  · apply FlatSet.ext_mem
    intro position
    simp only [heldBelow, FlatSet.mem_filter, Bool.and_eq_true, Bool.not_eq_true',
      decide_eq_false_iff_not, not_le, decide_eq_true_eq, and_assoc]
  · apply FlatSet.ext_mem
    intro position
    simp only [missingBelow, FlatSet.mem_filter, Bool.and_eq_true, Bool.not_eq_true',
      decide_eq_false_iff_not, not_le, decide_eq_true_eq, and_assoc]

/-- **When cutting the beginning off leaves the count right.** -/
theorem count_removeLessThan_iff {S : FlatSet MessagePosition} {list : MessagesList}
    (h : Sound S list) (messageId : MessagePosition) :
    (∀ n ∈ (list.removeLessThan messageId).count, n = (S.filter (messageId ≤ ·)).size) ↔
      CountKept S list messageId := by
  have hremoved := removed_dropLessThan messageId h.exact_
  have hsize := size_eq_held_add_missing S list.slices messageId
  unfold removeLessThan CountKept
  dsimp only
  cases hcount : list.count with
  | none => simp
  | some n =>
    have hn := h.count n hcount
    have hafter : (if (dropLessThan messageId list.slices).2 ≠ 0 then
        (some n).map (· - (dropLessThan messageId list.slices).2) else some n) =
          some (n - (dropLessThan messageId list.slices).2) := by
      split_ifs with hzero
      · rfl
      · rw [not_not.mp hzero, sub_zero]
    rw [hafter, hremoved]
    simp only [Option.mem_def, Option.some.injEq, forall_eq', reduceCtorEq, false_or]
    split_ifs <;> omega

/-! ### Runs -/

/-- **A truthful call keeps a list sound**, a cut when it keeps the count. -/
theorem Sound.exec {S S' : FlatSet MessagePosition} {list : MessagesList} (h : Sound S list)
    (op : Op) (htruth : list.Truthful S S' op) (hwithin : WithinRange S')
    (hkept : ∀ messageId, op = .removeLessThan messageId → CountKept S list messageId) :
    Sound S' (list.exec op) := by
  cases op with
  | addOne messageId =>
    obtain ⟨hnew, rfl⟩ := htruth
    have htold : Truth S (S.insert messageId) [messageId]
        { start := messageId, till := messageId } := by
      refine ⟨le_rfl, fun position => ?_, fun position => ?_⟩
      · rw [List.mem_singleton]
        constructor
        · rintro rfl
          exact ⟨FlatSet.mem_insert.mpr (Or.inl rfl), le_rfl, le_rfl⟩
        · rintro ⟨-, hle, hge⟩
          exact le_antisymm hge hle
      · rw [FlatSet.mem_insert, List.mem_singleton, or_comm]
    refine sound_addRange h hwithin htold none true (by simp) fun _ => ?_
    rw [h.exact_.added { start := messageId, till := messageId } rfl hnew (Or.inl rfl),
      FlatSet.size_insert hnew]
    simp
  | addNew messageId =>
    obtain ⟨hlast, rfl⟩ := htruth
    have hnew : messageId ∉ S := fun hmem => absurd (hlast _ hmem) (lt_irrefl _)
    have hmax : messageId ≤ MaxMessagePosition := (hwithin messageId (by simp)).2
    have htold : Truth S (S.insert messageId) [messageId]
        { start := messageId, till := MaxMessagePosition } := by
      refine ⟨hmax, fun position => ?_, fun position => ?_⟩
      · rw [List.mem_singleton, FlatSet.mem_insert]
        constructor
        · rintro rfl
          exact ⟨Or.inl rfl, le_rfl, hmax⟩
        · rintro ⟨hp | hp, hin⟩
          · exact hp
          · exact absurd (hlast position hp) (not_lt.mpr hin.1)
      · rw [FlatSet.mem_insert, List.mem_singleton, or_comm]
    refine sound_addRange h hwithin htold none true (by simp) fun _ => ?_
    rw [h.exact_.added { start := messageId, till := MaxMessagePosition } rfl hnew (Or.inr hlast),
      FlatSet.size_insert hnew]
    simp
  | addSlice messageIds noSkipRange count =>
    obtain ⟨htold, rfl, hcount⟩ := htruth
    exact sound_addRange h hwithin htold count false hcount fun _ => by simp
  | removeOne messageId =>
    obtain ⟨hmem, rfl⟩ := htruth
    refine ⟨hwithin, h.exact_.remove messageId, fun n hn => ?_⟩
    obtain ⟨m, hm, rfl⟩ := Option.mem_map.mp hn
    have hsize := FlatSet.size_remove hmem
    rw [h.count m hm]
    omega
  | removeLessThan messageId =>
    obtain ⟨hmin, rfl⟩ := htruth
    exact ⟨hwithin, exact_dropLessThan hmin h.within h.exact_,
      (count_removeLessThan_iff h messageId).mpr (hkept messageId rfl)⟩
  | invalidate => exact ⟨hwithin, exact_nil S', by simp [MessagesList.exec, invalidate]⟩
  | invalidateBottom =>
    obtain ⟨hkeep, hjoined⟩ := htruth
    exact ⟨hwithin, h.exact_.invalidateLast MaxMessagePosition hkeep hjoined, by
      simp [MessagesList.exec, MessagesList.invalidateBottom]⟩

/-- **A sound list shows blocks of the set.** -/
theorem Sound.queryCurrent {S : FlatSet MessagePosition} {list : MessagesList} (h : Sound S list)
    (query : Query MessagePosition) :
    ∃ before after, Around S query.aroundId (list.queryCurrent query) before after := by
  unfold MessagesList.queryCurrent
  split_ifs
  · exact around_empty S query.aroundId (by simp)
  · cases hfound : findSlice list.slices query.aroundId with
    | none => exact around_empty S query.aroundId (by simp)
    | some slice =>
      obtain ⟨hmem, hin⟩ := findSlice_eq_some hfound
      exact queryFromSlice_shows (h.exact_.messages slice hmem)
        (fun position hp => (h.within position hp).1) (fun position hp => (h.within position hp).2)
        h.count query hin

/-- One truthful call: the set of the server and the list before and after it. -/
def TruthfulStep (before : FlatSet MessagePosition × MessagesList) (op : Op)
    (after : FlatSet MessagePosition × MessagesList) : Prop :=
  before.2.Truthful before.1 after.1 op ∧ WithinRange after.1 ∧ after.2 = before.2.exec op

/-- One truthful call; a cut of the beginning keeps the count. -/
def Step (before : FlatSet MessagePosition × MessagesList) (op : Op)
    (after : FlatSet MessagePosition × MessagesList) : Prop :=
  TruthfulStep before op after ∧
    ∀ messageId, op = .removeLessThan messageId → CountKept before.1 before.2 messageId

end MessagesList

/-- **The list of messages of a history is sound when its cuts keep the count.** After every run
of truthful calls whose cuts all find a count that is not known, or below the point as many
positions that no slice holds as slices end at it, the slices are in order and apart, hold exactly
what the server has in their ranges, the count is right and not negative when it is set, and every
query shows consecutive positions with the exact numbers of positions before and after them. -/
theorem messages_list_sound (S₀ S : FlatSet MessagePosition)
    (hwithin : MessagesList.WithinRange S₀) (list : MessagesList) (ops : List MessagesList.Op)
    (hrun : Trace MessagesList.Step (S₀, {}) ops (S, list)) :
    (list.slices.Pairwise fun a b => a.range.till < b.range.start) ∧
      (∀ slice ∈ list.slices, slice.range.start ≤ slice.range.till ∧
        ∀ position, position ∈ slice.messages ↔
          position ∈ S ∧ slice.range.start ≤ position ∧ position ≤ slice.range.till) ∧
      (∀ n ∈ list.count, n = S.size ∧ 0 ≤ n) ∧
      ∀ query : Query MessagePosition, ∃ before after : List MessagePosition,
        S.elems = before ++ (list.queryCurrent query).messageIds.elems ++ after ∧
        (∀ position ∈ before, position < query.aroundId) ∧
        (∀ position ∈ after, query.aroundId ≤ position) ∧
        (∀ n ∈ (list.queryCurrent query).count, n = S.size) ∧
        (∀ n ∈ (list.queryCurrent query).skippedBefore, n = before.length) ∧
        ∀ n ∈ (list.queryCurrent query).skippedAfter, n = after.length := by
  have hsound : MessagesList.Sound S list := by
    refine hrun.invariant (P := fun _ state => MessagesList.Sound state.1 state.2)
      ⟨hwithin, exact_nil S₀, by simp⟩ ?_
    rintro - ⟨S, list⟩ op ⟨S', list'⟩ h ⟨⟨htruth, hwithin', hafter⟩, hkept⟩
    have := h.exec op htruth hwithin' hkept
    exact hafter ▸ this
  refine ⟨hsound.exact_.apart, fun slice hslice => ⟨hsound.exact_.start_le slice hslice,
    hsound.exact_.messages slice hslice⟩, fun n hn => ?_, fun query => ?_⟩
  · have := hsound.count n hn
    exact ⟨this, this ▸ Int.natCast_nonneg _⟩
  · obtain ⟨before, after, h⟩ := hsound.queryCurrent query
    exact ⟨before, after, h.split, h.below, h.above, h.count, h.skippedBefore, h.skippedAfter⟩

/-! ### Runs with a cut -/

/-- The positions of three messages. -/
def positionAt (date : ℤ) : MessagePosition := { date, msg := 1 }

/-- A list that was told a slice and then to cut the beginning off at its second position. -/
def cutList : MessagesList :=
  ((MessagesList.addSlice {} [positionAt 2, positionAt 4]
    { start := positionAt 1, till := positionAt 7 } (some 3)).1).removeLessThan (positionAt 4)

lemma withinRange_of_list {positions : List MessagePosition}
    (h : ∀ position ∈ positions,
      MinMessagePosition ≤ position ∧ position ≤ MaxMessagePosition) :
    MessagesList.WithinRange (FlatSet.ofList positions) := fun position hp =>
  h position (FlatSet.mem_ofList.mp hp)

lemma cutList_run : Trace MessagesList.Step
    (FlatSet.ofList [positionAt 2, positionAt 4, positionAt 9], {})
    [.addSlice [positionAt 2, positionAt 4] { start := positionAt 1, till := positionAt 7 } (some 3),
      .removeLessThan (positionAt 4)]
    (FlatSet.ofList [positionAt 4, positionAt 9], cutList) := by
  have hslice : Trace MessagesList.Step
      (FlatSet.ofList [positionAt 2, positionAt 4, positionAt 9], {})
      [.addSlice [positionAt 2, positionAt 4] { start := positionAt 1, till := positionAt 7 }
        (some 3)]
      (FlatSet.ofList [positionAt 2, positionAt 4, positionAt 9],
        (MessagesList.addSlice {} [positionAt 2, positionAt 4]
          { start := positionAt 1, till := positionAt 7 } (some 3)).1) := by
    refine Trace.single ⟨⟨⟨truth_of_elems (by decide) (by decide), rfl, ?_⟩,
      withinRange_of_list (by decide), rfl⟩, by simp⟩
    intro n hn
    obtain rfl := Option.some.inj hn
    decide
  refine Trace.snoc hslice ⟨⟨⟨by decide, by decide⟩, withinRange_of_list (by decide), rfl⟩, ?_⟩
  intro messageId hop
  obtain rfl := MessagesList.Op.removeLessThan.inj hop
  exact Or.inr (by decide)

/-- The list knows that two positions are left. -/
theorem cutList_sound : cutList.count = some 2 ∧
    (2 : ℤ) = (FlatSet.ofList [positionAt 4, positionAt 9]).size ∧ (0 : ℤ) ≤ 2 := by
  obtain ⟨-, -, hcount, -⟩ := messages_list_sound
    (FlatSet.ofList [positionAt 2, positionAt 4, positionAt 9])
    (FlatSet.ofList [positionAt 4, positionAt 9]) (withinRange_of_list (by decide)) cutList _
    cutList_run
  have hknown : cutList.count = some 2 := by decide
  exact ⟨hknown, hcount 2 hknown⟩

/-- **Truthful calls alone do not keep the count.** A list that was told the last of two positions
and the count still counts both after the first one was cut off; a list that was told a slice up
to its only position has no position left after a cut at it, and less than none after the position
left. -/
theorem removeLessThan_leaves_count :
    (∃ ops list, Trace MessagesList.TruthfulStep
      (FlatSet.ofList [positionAt 2, positionAt 5], {}) ops
      (FlatSet.ofList [positionAt 5], list) ∧ list.count = some 2 ∧
        (FlatSet.ofList [positionAt 5]).size = 1) ∧
    ∃ ops list, Trace MessagesList.TruthfulStep (FlatSet.ofList [positionAt 5], {}) ops
      (∅, list) ∧ list.count = some (-1) := by
  have htold : ∀ S : FlatSet MessagePosition, ∀ messages range (n : ℤ), range.start ≤ range.till →
      (S.filter fun position => range.start ≤ position ∧ position ≤ range.till).elems = messages →
      n = S.size → MessagesList.WithinRange S →
      Trace MessagesList.TruthfulStep (S, {}) [.addSlice messages range (some n)]
        (S, (MessagesList.addSlice {} messages range (some n)).1) := by
    intro S messages range n hle hknown hn hwithin
    refine Trace.single ⟨⟨truth_of_elems hle hknown, rfl, fun m hm => ?_⟩, hwithin, rfl⟩
    rw [← Option.some.inj hm, hn]
  constructor
  · have hslice := htold (FlatSet.ofList [positionAt 2, positionAt 5]) [positionAt 5]
      { start := positionAt 3, till := MaxMessagePosition } 2 (by decide) (by decide) (by decide)
      (withinRange_of_list (by decide))
    have hcut : MessagesList.TruthfulStep (FlatSet.ofList [positionAt 2, positionAt 5],
        (MessagesList.addSlice {} [positionAt 5]
          { start := positionAt 3, till := MaxMessagePosition } (some 2)).1)
        (.removeLessThan (positionAt 4)) (FlatSet.ofList [positionAt 5], _) :=
      ⟨⟨by decide, by decide⟩, withinRange_of_list (by decide), rfl⟩
    exact ⟨_, _, Trace.snoc hslice hcut, by decide, by decide⟩
  · have hslice := htold (FlatSet.ofList [positionAt 5]) [positionAt 5]
      { start := positionAt 3, till := positionAt 5 } 1 (by decide) (by decide) (by decide)
      (withinRange_of_list (by decide))
    have hcut : MessagesList.TruthfulStep (FlatSet.ofList [positionAt 5],
        (MessagesList.addSlice {} [positionAt 5]
          { start := positionAt 3, till := positionAt 5 } (some 1)).1)
        (.removeLessThan (positionAt 5)) (FlatSet.ofList [positionAt 5], _) :=
      ⟨⟨by decide, by decide⟩, withinRange_of_list (by decide), rfl⟩
    have hleft : MessagesList.TruthfulStep (FlatSet.ofList [positionAt 5],
        ((MessagesList.addSlice {} [positionAt 5]
          { start := positionAt 3, till := positionAt 5 } (some 1)).1).removeLessThan
            (positionAt 5)) (.removeOne (positionAt 5)) (∅, _) :=
      ⟨⟨by decide, by decide⟩, by simp [MessagesList.WithinRange], rfl⟩
    exact ⟨_, _, Trace.snoc (Trace.snoc hslice hcut) hleft, by decide⟩

end Ids
