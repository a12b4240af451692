import Telegravim.Ids.SparseIdsList

set_option autoImplicit false

/-!
# The window of a viewer of message ids

`SparseIdsSliceBuilder`: the ids around a key that a viewer shows, with the number of all ids and
of those before and after the window. It starts from what a `SparseIdsList` shows and follows the
calls of that list.

## Main definitions

* `Ids.SparseIdsSliceBuilder` — the window and its calls.
* `Ids.SparseIdsSliceBuilder.Shows` — what a window shows is right for a set of the server.
* `Ids.SparseIdsSliceBuilder.Followed` — the calls of the list that the window can follow.

## Main results

* `Ids.SparseIdsSliceBuilder.Follows.exec` — a window that follows a list follows its next call.
* `Ids.slice_builder_sound` — every window of a run shows what is right.
* `Ids.slice_builder_breaks` — runs that the window does not follow.
-/

namespace Ids

inductive LoadDirection where
  | around
  | before
  | after
deriving DecidableEq

structure AroundData where
  aroundId : MsgId := 0
  direction : LoadDirection := .around
deriving DecidableEq

structure SparseIdsSliceBuilder where
  key : MsgId
  limitBefore : ℕ
  limitAfter : ℕ
  ids : FlatSet MsgId := ∅
  fullCount : Option ℤ := none
  skippedBefore : Option ℤ := none
  skippedAfter : Option ℤ := none
deriving DecidableEq

namespace SparseIdsSliceBuilder

/-! ### The calls -/

/-- The data `requestMessages` asks for, by the ids of the window at that moment. -/
def requestMessages (key : MsgId) (ids : FlatSet MsgId) (direction : LoadDirection) : AroundData :=
  match direction, ids.front, ids.back with
  | .before, some front, some _ => { aroundId := front, direction := .before }
  | _, some _, some back => { aroundId := back, direction := .after }
  | _, _, _ => { aroundId := key, direction := .around }

def requestMessagesCount : AroundData := { aroundId := 0, direction := .around }

/-- Cuts the window to its limits, with the requests for what it misses. -/
def sliceToLimits (b : SparseIdsSliceBuilder) : SparseIdsSliceBuilder × List AroundData :=
  if b.key = 0 then (b, if b.fullCount.isNone then [requestMessagesCount] else [])
  else
    let around := b.ids.lowerBound b.key
    let removeFromBegin : ℤ := around - b.limitBefore
    let removeFromEnd : ℤ := (b.ids.size - around : ℤ) - b.limitAfter - 1
    let fromBegin := b.ids.drop removeFromBegin.toNat
    let fromEnd := fromBegin.take (fromBegin.size - removeFromEnd.toNat)
    let before :=
      if removeFromBegin < 0 ∧ b.skippedBefore.all (0 < ·) then
        [requestMessages b.key b.ids .before]
      else []
    let after :=
      if removeFromEnd < 0 ∧ b.skippedAfter.all (0 < ·) then
        [requestMessages b.key fromBegin .after]
      else []
    let count :=
      if b.fullCount.isNone ∧ before ++ after = [] then [requestMessagesCount] else []
    ({ b with
        ids := fromEnd
        skippedBefore := b.skippedBefore.map (· + max removeFromBegin 0)
        skippedAfter := b.skippedAfter.map (· + max removeFromEnd 0) },
      before ++ after ++ count)

def fillSkipped (b : SparseIdsSliceBuilder) : SparseIdsSliceBuilder :=
  match b.fullCount, b.skippedBefore, b.skippedAfter with
  | some count, some before, none => { b with skippedAfter := some (count - before - b.ids.size) }
  | some count, none, some after => { b with skippedBefore := some (count - after - b.ids.size) }
  | _, _, _ => b

def fillSkippedAndSliceToLimits (b : SparseIdsSliceBuilder) :
    SparseIdsSliceBuilder × List AroundData :=
  b.fillSkipped.sliceToLimits

def adjustSkippedBefore (ids : FlatSet MsgId) (oldId : MsgId) (oldSkippedBefore : ℤ) : ℤ :=
  max (oldSkippedBefore - ids.lowerBound oldId) 0

def adjustSkippedAfter (ids : FlatSet MsgId) (oldId : MsgId) (oldSkippedAfter : ℤ) : ℤ :=
  max (oldSkippedAfter - (ids.size - ids.lowerBound oldId - 1 : ℤ)) 0

/-- The part of `mergeSliceData` for no messages. -/
def mergeCount (b : SparseIdsSliceBuilder) (count : Option ℤ) : SparseIdsSliceBuilder :=
  match count with
  | some n =>
    if b.fullCount = some n then b
    else if n ≤ b.ids.size then
      { b with fullCount := some b.ids.size, skippedBefore := some 0, skippedAfter := some 0 }
    else { b with fullCount := some n }
  | none => b

/-- The part of `mergeSliceData` for messages, of which `front` and `back` are the first and the
last. -/
def mergeMessages (b : SparseIdsSliceBuilder) (count : Option ℤ) (messageIds : FlatSet MsgId)
    (front back : MsgId) (skippedBefore skippedAfter : Option ℤ) : SparseIdsSliceBuilder :=
  let wasMinId := b.ids.front.getD (-1)
  let wasMaxId := b.ids.back.getD (-1)
  let ids := b.ids.merge messageIds.elems
  { b with
    ids
    fullCount := count.or b.fullCount
    skippedBefore := match skippedBefore with
      | some n => some (adjustSkippedBefore ids front n)
      | none => if 0 ≤ wasMinId then b.skippedBefore.map (adjustSkippedBefore ids wasMinId) else none
    skippedAfter := match skippedAfter with
      | some n => some (adjustSkippedAfter ids back n)
      | none => if 0 ≤ wasMaxId then b.skippedAfter.map (adjustSkippedAfter ids wasMaxId) else none }

def mergeSliceData (b : SparseIdsSliceBuilder) (count : Option ℤ) (messageIds : FlatSet MsgId)
    (skippedBefore skippedAfter : Option ℤ) : SparseIdsSliceBuilder × List AroundData :=
  match messageIds.front, messageIds.back with
  | some front, some back =>
    (b.mergeMessages count messageIds front back skippedBefore
      skippedAfter).fillSkippedAndSliceToLimits
  | _, _ => (b.mergeCount count).fillSkippedAndSliceToLimits

/-- A window after a call, whether the call changed it, and the requests it sent. -/
structure Applied where
  builder : SparseIdsSliceBuilder
  changed : Bool
  requests : List AroundData
deriving DecidableEq

def applyInitial (b : SparseIdsSliceBuilder) (result : Result MsgId) : Applied :=
  let merged := b.mergeSliceData result.count result.messageIds result.skippedBefore
    result.skippedAfter
  { builder := merged.1, changed := true, requests := merged.2 }

/-- Whether a range meets the window, or the key of an empty window. -/
def Meets (b : SparseIdsSliceBuilder) (range : Range MsgId) : Prop :=
  range.start ≤ b.ids.back.getD b.key ∧ b.ids.front.getD b.key ≤ range.till

instance (b : SparseIdsSliceBuilder) (range : Range MsgId) : Decidable (b.Meets range) :=
  inferInstanceAs (Decidable (_ ∧ _))

def applyUpdate (b : SparseIdsSliceBuilder) (update : SliceUpdate MsgId) : Applied :=
  let messages := if b.Meets update.range then update.messages else none
  if messages.isNone ∧ update.count.isNone then { builder := b, changed := false, requests := [] }
  else
    let merged := b.mergeSliceData update.count (messages.getD ∅)
      (if update.range.start = 0 then some 0 else none)
      (if update.range.till = ServerMaxMsgId then some 0 else none)
    { builder := merged.1, changed := true, requests := merged.2 }

/-- The part of `removeOne` before the window is cut, with whether it changed anything. -/
def dropOne (b : SparseIdsSliceBuilder) (messageId : MsgId) : SparseIdsSliceBuilder × Bool :=
  let counted := b.fullCount.any (0 < ·)
  let fullCount := if counted then b.fullCount.map (· - 1) else b.fullCount
  if messageId ∈ b.ids then ({ b with fullCount, ids := b.ids.remove messageId }, true)
  else match b.ids.front, b.ids.back with
    | some front, some back =>
      if messageId < front ∧ b.skippedBefore.any (0 < ·) then
        ({ b with fullCount, skippedBefore := b.skippedBefore.map (· - 1) }, true)
      else if back < messageId ∧ b.skippedAfter.any (0 < ·) then
        ({ b with fullCount, skippedAfter := b.skippedAfter.map (· - 1) }, true)
      else ({ b with fullCount }, counted)
    | _, _ => ({ b with fullCount }, counted)

def removeOne (b : SparseIdsSliceBuilder) (messageId : MsgId) : Applied :=
  let removed := b.dropOne messageId
  if removed.2 then
    let cut := removed.1.sliceToLimits
    { builder := cut.1, changed := true, requests := cut.2 }
  else { builder := removed.1, changed := false, requests := [] }

def removeAll (b : SparseIdsSliceBuilder) : Applied where
  builder := { b with ids := ∅, fullCount := some 0, skippedBefore := some 0, skippedAfter := some 0 }
  changed := true
  requests := []

def invalidateBottom (b : SparseIdsSliceBuilder) : Applied :=
  let cut := sliceToLimits { b with fullCount := none, skippedAfter := none }
  { builder := cut.1, changed := true, requests := cut.2 }

/-- What a viewer does when its list was called: updates of slices are applied, other calls are
made of the window too. -/
def follow (b : SparseIdsSliceBuilder) (op : SparseIdsList.Op)
    (update : Option (SliceUpdate MsgId)) : SparseIdsSliceBuilder :=
  match op, update with
  | .removeOne messageId, _ => (b.removeOne messageId).builder
  | .removeAll, _ => b.removeAll.builder
  | .invalidateBottom, _ => b.invalidateBottom.builder
  | _, some update => (b.applyUpdate update).builder
  | _, none => b

/-! ### The key and the limits -/

/-- Two windows with the same key and limits. -/
structure SameView (b b' : SparseIdsSliceBuilder) : Prop where
  key : b'.key = b.key
  limitBefore : b'.limitBefore = b.limitBefore
  limitAfter : b'.limitAfter = b.limitAfter

lemma SameView.rfl' {b : SparseIdsSliceBuilder} : SameView b b := ⟨rfl, rfl, rfl⟩

lemma SameView.trans {a b c : SparseIdsSliceBuilder} (h : SameView a b) (h' : SameView b c) :
    SameView a c :=
  ⟨h'.key.trans h.key, h'.limitBefore.trans h.limitBefore, h'.limitAfter.trans h.limitAfter⟩

lemma sameView_sliceToLimits (b : SparseIdsSliceBuilder) : SameView b b.sliceToLimits.1 := by
  unfold sliceToLimits
  by_cases hkey : b.key = 0
  · rw [if_pos hkey]
    exact SameView.rfl'
  · rw [if_neg hkey]
    exact ⟨rfl, rfl, rfl⟩

lemma sameView_fillSkippedAndSliceToLimits (b : SparseIdsSliceBuilder) :
    SameView b b.fillSkippedAndSliceToLimits.1 := by
  refine SameView.trans ?_ (sameView_sliceToLimits b.fillSkipped)
  unfold fillSkipped
  split <;> exact ⟨rfl, rfl, rfl⟩

lemma sameView_mergeSliceData (b : SparseIdsSliceBuilder) (count : Option ℤ)
    (messageIds : FlatSet MsgId) (skippedBefore skippedAfter : Option ℤ) :
    SameView b (b.mergeSliceData count messageIds skippedBefore skippedAfter).1 := by
  unfold mergeSliceData
  split
  · rename_i front back _ _
    have hmerged : SameView b
        (b.mergeMessages count messageIds front back skippedBefore skippedAfter) := ⟨rfl, rfl, rfl⟩
    exact hmerged.trans (sameView_fillSkippedAndSliceToLimits _)
  · refine SameView.trans ?_ (sameView_fillSkippedAndSliceToLimits _)
    unfold mergeCount
    split
    · split_ifs <;> exact ⟨rfl, rfl, rfl⟩
    · exact SameView.rfl'

lemma sameView_applyUpdate (b : SparseIdsSliceBuilder) (update : SliceUpdate MsgId) :
    SameView b (b.applyUpdate update).builder := by
  unfold applyUpdate
  generalize (if b.Meets update.range then update.messages else none) = messages
  dsimp only
  split
  · exact SameView.rfl'
  · exact sameView_mergeSliceData _ _ _ _ _

lemma sameView_dropOne (b : SparseIdsSliceBuilder) (messageId : MsgId) :
    SameView b (b.dropOne messageId).1 := by
  unfold dropOne
  dsimp only
  by_cases hids : messageId ∈ b.ids
  · rw [if_pos hids]
    exact ⟨rfl, rfl, rfl⟩
  · rw [if_neg hids]
    split
    · split
      · exact ⟨rfl, rfl, rfl⟩
      · split <;> exact ⟨rfl, rfl, rfl⟩
    · exact ⟨rfl, rfl, rfl⟩

/-- **No call changes the key or the limits.** -/
lemma sameView_follow (b : SparseIdsSliceBuilder) (op : SparseIdsList.Op)
    (update : Option (SliceUpdate MsgId)) : SameView b (b.follow op update) := by
  unfold follow
  split
  · rename_i messageId
    unfold removeOne
    dsimp only
    split
    · exact (sameView_dropOne b messageId).trans (sameView_sliceToLimits _)
    · exact sameView_dropOne b messageId
  · exact ⟨rfl, rfl, rfl⟩
  · have hreset : SameView b { b with fullCount := none, skippedAfter := none } := ⟨rfl, rfl, rfl⟩
    exact hreset.trans (sameView_sliceToLimits _)
  · exact sameView_applyUpdate b _
  · exact SameView.rfl'

/-! ### Blocks -/

/-- The ids of a window are a block of a set, with right numbers of what is before and after. -/
structure Block (S : FlatSet MsgId) (b : SparseIdsSliceBuilder) (before after : List MsgId) :
    Prop where
  split : S.elems = before ++ b.ids.elems ++ after
  skippedBefore : ∀ n ∈ b.skippedBefore, n = before.length
  skippedAfter : ∀ n ∈ b.skippedAfter, n = after.length

/-- A window is within its limits. -/
def WithinLimits (b : SparseIdsSliceBuilder) : Prop :=
  b.key ≠ 0 → (b.ids.filter (· < b.key)).size ≤ b.limitBefore ∧
    (b.ids.filter (b.key ≤ ·)).size ≤ b.limitAfter + 1

/-- **What a window shows is right** for a set of the server. -/
structure Shows (S : FlatSet MsgId) (b : SparseIdsSliceBuilder) (before after : List MsgId) : Prop
    extends Block S b before after where
  fullCount : ∀ n ∈ b.fullCount, n = S.size
  limits : b.WithinLimits

/-- **`sliceToLimits` cuts a block to its limits.** -/
lemma Block.sliceToLimits {S : FlatSet MsgId} {b : SparseIdsSliceBuilder} {before after : List MsgId}
    (h : Block S b before after) :
    (∃ before' after', Block S b.sliceToLimits.1 before' after') ∧
      b.sliceToLimits.1.WithinLimits ∧ (∀ id ∈ b.sliceToLimits.1.ids, id ∈ b.ids) ∧
      b.sliceToLimits.1.fullCount = b.fullCount := by
  unfold SparseIdsSliceBuilder.sliceToLimits
  by_cases hkey : b.key = 0
  · rw [if_pos hkey]
    exact ⟨⟨before, after, h⟩, fun hne => absurd hkey hne, fun _ hid => hid, rfl⟩
  · rw [if_neg hkey]
    dsimp only
    have hle := b.ids.lowerBound_le b.key
    set around := b.ids.lowerBound b.key with haround
    set fromBegin := ((around : ℤ) - b.limitBefore).toNat with hbegin
    set fromEnd := ((b.ids.size - around : ℤ) - b.limitAfter - 1).toNat with hend
    have hsize : (b.ids.drop fromBegin).size = b.ids.size - fromBegin := FlatSet.size_drop _ _
    have hlower : ((b.ids.drop fromBegin).take
        ((b.ids.drop fromBegin).size - fromEnd)).lowerBound b.key = around - fromBegin := by
      rw [FlatSet.lowerBound_take_of_le, FlatSet.lowerBound_drop]
      rw [FlatSet.lowerBound_drop, hsize]
      omega
    have htotal : ((b.ids.drop fromBegin).take
        ((b.ids.drop fromBegin).size - fromEnd)).size = b.ids.size - fromBegin - fromEnd := by
      rw [FlatSet.size_take, hsize]
      omega
    refine ⟨⟨before ++ b.ids.elems.take fromBegin,
      (b.ids.elems.drop fromBegin).drop ((b.ids.drop fromBegin).size - fromEnd) ++ after, ?_, ?_,
      ?_⟩, fun _ => ⟨?_, ?_⟩, ?_, rfl⟩
    · rw [h.split]
      conv_lhs => rw [← List.take_append_drop fromBegin b.ids.elems,
        ← List.take_append_drop ((b.ids.drop fromBegin).size - fromEnd)
          (b.ids.elems.drop fromBegin)]
      simp only [FlatSet.take, FlatSet.drop, List.append_assoc]
    · intro n hn
      obtain ⟨m, hm, rfl⟩ := Option.mem_map.mp hn
      have := h.skippedBefore m hm
      have htake : (b.ids.elems.take fromBegin).length = fromBegin := by
        have : fromBegin ≤ b.ids.elems.length := show fromBegin ≤ b.ids.size by omega
        rw [List.length_take]
        omega
      rw [List.length_append, htake]
      push_cast
      omega
    · intro n hn
      obtain ⟨m, hm, rfl⟩ := Option.mem_map.mp hn
      have := h.skippedAfter m hm
      have hdrop : ((b.ids.elems.drop fromBegin).drop
          ((b.ids.drop fromBegin).size - fromEnd)).length = fromEnd := by
        have hlen : b.ids.elems.length = b.ids.size := rfl
        rw [List.length_drop, List.length_drop, hsize, hlen]
        omega
      rw [List.length_append, hdrop]
      push_cast
      omega
    · dsimp only
      rw [← FlatSet.lowerBound_eq, hlower]
      omega
    · dsimp only
      have hadd := FlatSet.size_filter_add ((b.ids.drop fromBegin).take
        ((b.ids.drop fromBegin).size - fromEnd)) (· < b.key)
      rw [← FlatSet.lowerBound_eq, hlower, htotal] at hadd
      have hsame : ((b.ids.drop fromBegin).take
          ((b.ids.drop fromBegin).size - fromEnd)).filter (fun id => !decide (id < b.key)) =
            ((b.ids.drop fromBegin).take
              ((b.ids.drop fromBegin).size - fromEnd)).filter (b.key ≤ ·) := by
        apply FlatSet.ext_mem
        intro id
        simp only [FlatSet.mem_filter, Bool.not_eq_true', decide_eq_false_iff_not, not_lt,
          decide_eq_true_eq]
      rw [hsame] at hadd
      omega
    · intro id hid
      exact FlatSet.mem_of_mem_drop (FlatSet.mem_of_mem_take hid)

/-- **`fillSkipped` fills in the right number.** -/
lemma Block.fillSkipped {S : FlatSet MsgId} {b : SparseIdsSliceBuilder} {before after : List MsgId}
    (h : Block S b before after) (hcount : ∀ n ∈ b.fullCount, n = S.size) :
    Block S b.fillSkipped before after ∧ b.fillSkipped.ids = b.ids ∧
      b.fillSkipped.fullCount = b.fullCount := by
  have hsize := FlatSet.size_eq_of_split h.split
  unfold SparseIdsSliceBuilder.fillSkipped
  split
  · rename_i count skipped hfull hbefore hafter
    have hfull := hcount count hfull
    have hskipped := h.skippedBefore skipped hbefore
    refine ⟨⟨h.split, h.skippedBefore, fun n hn => ?_⟩, rfl, rfl⟩
    rw [← Option.some.inj hn]
    omega
  · rename_i count skipped hfull hbefore hafter
    have hfull := hcount count hfull
    have hskipped := h.skippedAfter skipped hafter
    refine ⟨⟨h.split, fun n hn => ?_, h.skippedAfter⟩, rfl, rfl⟩
    rw [← Option.some.inj hn]
    omega
  · exact ⟨h, rfl, rfl⟩

/-- A block with the right count is filled and cut to what the window shows. -/
lemma Block.shows {S : FlatSet MsgId} {b : SparseIdsSliceBuilder} {before after : List MsgId}
    (h : Block S b before after) (hcount : ∀ n ∈ b.fullCount, n = S.size) :
    (∃ before' after', Shows S b.fillSkippedAndSliceToLimits.1 before' after') ∧
      (∀ id ∈ b.fillSkippedAndSliceToLimits.1.ids, id ∈ b.ids) ∧
      b.fillSkippedAndSliceToLimits.1.fullCount = b.fullCount := by
  obtain ⟨hfilled, hids, hfull⟩ := h.fillSkipped hcount
  obtain ⟨⟨before', after', hblock⟩, hlimits, hsub, hsame⟩ := hfilled.sliceToLimits
  unfold fillSkippedAndSliceToLimits
  refine ⟨⟨before', after', hblock, ?_, hlimits⟩, fun id hid => hids ▸ hsub id hid,
    hsame.trans hfull⟩
  rw [hsame, hfull]
  exact hcount

/-- **A count alone keeps a block.** -/
lemma Block.mergeCount {S : FlatSet MsgId} {b : SparseIdsSliceBuilder} {before after : List MsgId}
    (h : Block S b before after) {count : Option ℤ} (hcount : ∀ n ∈ count, n = S.size)
    (hfull : count = none → ∀ n ∈ b.fullCount, n = S.size) :
    Block S (b.mergeCount count) before after ∧ (b.mergeCount count).ids = b.ids ∧
      (∀ n ∈ (b.mergeCount count).fullCount, n = S.size) ∧
      (count = none → (b.mergeCount count).fullCount = b.fullCount) := by
  have hsize := FlatSet.size_eq_of_split h.split
  unfold SparseIdsSliceBuilder.mergeCount
  cases count with
  | none => exact ⟨h, rfl, hfull rfl, fun _ => rfl⟩
  | some n =>
    have hn := hcount n rfl
    dsimp only
    split_ifs with hsame hall
    · exact ⟨h, rfl, fun m hm => by rw [hsame] at hm; exact hcount m hm, by simp⟩
    · -- the window has all ids
      refine ⟨⟨h.split, ?_, ?_⟩, rfl, ?_, by simp⟩
      all_goals
        intro m hm
        rw [← Option.some.inj hm]
        omega
    · refine ⟨⟨h.split, h.skippedBefore, h.skippedAfter⟩, rfl, fun m hm => ?_, by simp⟩
      rw [← Option.some.inj hm]
      exact hn

/-- The number of ids before a block is that before an id of it, less those inside. -/
lemma adjustSkippedBefore_eq {S ids : FlatSet MsgId} {before after : List MsgId}
    (h : S.elems = before ++ ids.elems ++ after) {id : MsgId} (hid : id ∈ ids) {n : ℤ}
    (hn : n = S.lowerBound id) : adjustSkippedBefore ids id n = before.length := by
  have := FlatSet.lowerBound_of_split h hid
  unfold adjustSkippedBefore
  omega

/-- The number of ids after a block is that after an id of it, less those inside. -/
lemma adjustSkippedAfter_eq {S ids : FlatSet MsgId} {before after : List MsgId}
    (h : S.elems = before ++ ids.elems ++ after) {id : MsgId} (hid : id ∈ ids) {n : ℤ}
    (hn : n = S.size - S.lowerBound id - 1) : adjustSkippedAfter ids id n = after.length := by
  have hlower := FlatSet.lowerBound_of_split h hid
  have hsize := FlatSet.size_eq_of_split h
  unfold adjustSkippedAfter
  omega

/-- The first and the last element of a set by their lower bounds. -/
lemma lowerBound_front {ids : FlatSet MsgId} {front : MsgId} (h : ids.front = some front) :
    ids.lowerBound front = 0 := by
  rw [FlatSet.lowerBound_eq]
  have hempty : ids.filter (· < front) = ∅ := by
    apply FlatSet.ext_mem
    intro id
    simp only [FlatSet.mem_filter, decide_eq_true_eq, FlatSet.not_mem_empty, iff_false, not_and,
      not_lt]
    exact fun hid => (FlatSet.front_eq_some h).2 id hid
  rw [hempty, FlatSet.size_empty]

lemma lowerBound_back {ids : FlatSet MsgId} {back : MsgId} (h : ids.back = some back) :
    ids.lowerBound back + 1 = ids.size := by
  obtain ⟨hmem, hmax⟩ := FlatSet.back_eq_some h
  rw [FlatSet.lowerBound_eq, ← FlatSet.size_remove hmem]
  congr 2
  apply FlatSet.ext_mem
  intro id
  rw [FlatSet.mem_filter, FlatSet.mem_remove, decide_eq_true_eq]
  constructor
  · rintro ⟨hid, hlt⟩
    exact ⟨hid, hlt.ne⟩
  · rintro ⟨hid, hne⟩
    exact ⟨hid, lt_of_le_of_ne (hmax id hid) hne⟩

/-- **Messages that leave no gap keep a block**, with the numbers before and after adjusted. -/
lemma Block.mergeMessages {S : FlatSet MsgId} {b : SparseIdsSliceBuilder} {before after : List MsgId}
    (h : Block S b before after) (count : Option ℤ) {messageIds : FlatSet MsgId} {front back : MsgId}
    (hfront : messageIds.front = some front) (hback : messageIds.back = some back)
    (hsub : ∀ id ∈ messageIds, id ∈ S)
    (hconvex : ∀ x ∈ b.ids.merge messageIds.elems, ∀ y ∈ b.ids.merge messageIds.elems, ∀ id ∈ S,
      x ≤ id → id ≤ y → id ∈ b.ids.merge messageIds.elems)
    {skippedBefore skippedAfter : Option ℤ}
    (hbefore : ∀ n ∈ skippedBefore, n = S.lowerBound front)
    (hafter : ∀ n ∈ skippedAfter, n = S.size - S.lowerBound back - 1) :
    ∃ before' after', Block S
      (b.mergeMessages count messageIds front back skippedBefore skippedAfter) before' after' := by
  have hmem : ∀ id, id ∈ b.ids.merge messageIds.elems ↔ id ∈ b.ids ∨ id ∈ messageIds := by
    intro id
    rw [FlatSet.mem_merge, ← FlatSet.mem_def, or_comm]
  obtain ⟨before', after', hsplit⟩ := FlatSet.exists_split (s := S)
    (t := b.ids.merge messageIds.elems) (fun id hid => by
      rcases (hmem id).mp hid with hid | hid
      · exact (FlatSet.mem_of_split h.split).mpr (Or.inr (Or.inl hid))
      · exact hsub id hid) hconvex
  refine ⟨before', after', hsplit, fun n hn => ?_, fun n hn => ?_⟩
  · cases skippedBefore with
    | some m =>
      rw [← Option.some.inj hn]
      exact adjustSkippedBefore_eq hsplit ((hmem front).mpr (Or.inr (FlatSet.front_eq_some hfront).1))
        (hbefore m rfl)
    | none =>
      simp only [SparseIdsSliceBuilder.mergeMessages] at hn
      rw [Option.mem_def, Option.ite_none_right_eq_some] at hn
      obtain ⟨hwas, hn⟩ := hn
      obtain ⟨m, hm, rfl⟩ := Option.mem_map.mp hn
      cases hmin : b.ids.front with
      | none => simp [hmin] at hwas
      | some wasMinId =>
        have hin := (FlatSet.front_eq_some hmin).1
        have hlower := FlatSet.lowerBound_of_split h.split hin
        rw [lowerBound_front hmin] at hlower
        rw [Option.getD_some]
        refine adjustSkippedBefore_eq hsplit ((hmem wasMinId).mpr (Or.inl hin)) ?_
        rw [h.skippedBefore m hm, hlower, Nat.add_zero]
  · cases skippedAfter with
    | some m =>
      rw [← Option.some.inj hn]
      exact adjustSkippedAfter_eq hsplit ((hmem back).mpr (Or.inr (FlatSet.back_eq_some hback).1))
        (hafter m rfl)
    | none =>
      simp only [SparseIdsSliceBuilder.mergeMessages] at hn
      rw [Option.mem_def, Option.ite_none_right_eq_some] at hn
      obtain ⟨hwas, hn⟩ := hn
      obtain ⟨m, hm, rfl⟩ := Option.mem_map.mp hn
      cases hmax : b.ids.back with
      | none => simp [hmax] at hwas
      | some wasMaxId =>
        have hin := (FlatSet.back_eq_some hmax).1
        have hlower := FlatSet.lowerBound_of_split h.split hin
        have hlast := lowerBound_back hmax
        have hsize := FlatSet.size_eq_of_split h.split
        rw [Option.getD_some]
        refine adjustSkippedAfter_eq hsplit ((hmem wasMaxId).mpr (Or.inl hin)) ?_
        rw [h.skippedAfter m hm]
        omega

/-- **`mergeSliceData` shows what is right** when it is told what is right. -/
lemma Block.mergeSliceData {S : FlatSet MsgId} {b : SparseIdsSliceBuilder} {before after : List MsgId}
    (h : Block S b before after) {count : Option ℤ} (hcount : ∀ n ∈ count, n = S.size)
    (hfull : count = none → ∀ n ∈ b.fullCount, n = S.size) (messageIds : FlatSet MsgId)
    (hsub : ∀ id ∈ messageIds, id ∈ S)
    (hconvex : ∀ x ∈ b.ids.merge messageIds.elems, ∀ y ∈ b.ids.merge messageIds.elems, ∀ id ∈ S,
      x ≤ id → id ≤ y → id ∈ b.ids.merge messageIds.elems)
    (skippedBefore skippedAfter : Option ℤ)
    (hbefore : ∀ front ∈ messageIds.front, ∀ n ∈ skippedBefore, n = S.lowerBound front)
    (hafter : ∀ back ∈ messageIds.back, ∀ n ∈ skippedAfter, n = S.size - S.lowerBound back - 1) :
    (∃ before' after', Shows S
      (b.mergeSliceData count messageIds skippedBefore skippedAfter).1 before' after') ∧
    (∀ id ∈ (b.mergeSliceData count messageIds skippedBefore skippedAfter).1.ids,
      id ∈ b.ids ∨ id ∈ messageIds) ∧
    (count = none → b.fullCount = none →
      (b.mergeSliceData count messageIds skippedBefore skippedAfter).1.fullCount = none) := by
  unfold SparseIdsSliceBuilder.mergeSliceData
  split
  · rename_i front back hfront hback
    obtain ⟨before', after', hblock⟩ := h.mergeMessages count hfront hback hsub hconvex
      (hbefore front hfront) (hafter back hback)
    have hcounted : ∀ n ∈ (b.mergeMessages count messageIds front back skippedBefore
        skippedAfter).fullCount, n = S.size := by
      intro n hn
      cases count with
      | none => exact hfull rfl n hn
      | some m => exact hcount n hn
    obtain ⟨hshows, hids, hsame⟩ := hblock.shows hcounted
    refine ⟨hshows, fun id hid => ?_, fun hnone hnot => ?_⟩
    · have hmem : id ∈ b.ids.merge messageIds.elems := hids id hid
      rw [FlatSet.mem_merge, ← FlatSet.mem_def, or_comm] at hmem
      exact hmem
    · have hcount : count.or b.fullCount = none := by rw [hnone, hnot]; rfl
      exact hsame.trans hcount
  · obtain ⟨hblock, hids, hcounted, hsame⟩ := h.mergeCount hcount hfull
    obtain ⟨hshows, hsubset, hsame'⟩ := hblock.shows hcounted
    refine ⟨hshows, fun id hid => Or.inl (hids ▸ hsubset id hid), fun hnone hnot => ?_⟩
    rw [hsame', hsame hnone, hnot]

/-- A window that was not started, with what a list shows. -/
lemma shows_applyInitial {S : FlatSet MsgId} {b : SparseIdsSliceBuilder} {result : Result MsgId}
    {aroundId : MsgId} {before after : List MsgId} (h : Around S aroundId result before after)
    (hids : b.ids = ∅) (hfull : b.fullCount = none) (hbefore : b.skippedBefore = none)
    (hafter : b.skippedAfter = none) :
    (∃ before' after', Shows S (b.applyInitial result).builder before' after') ∧
      (∀ id ∈ (b.applyInitial result).builder.ids, id ∈ result.messageIds) ∧
      (result.count = none → (b.applyInitial result).builder.fullCount = none) := by
  have hblock : Block S b [] S.elems := by
    refine ⟨by simp [hids], by simp [hbefore], by simp [hafter]⟩
  have hmem : ∀ id, id ∈ b.ids.merge result.messageIds.elems ↔ id ∈ result.messageIds := by
    intro id
    rw [FlatSet.mem_merge, ← FlatSet.mem_def, hids]
    simp
  obtain ⟨hshows, hsub, hcount⟩ := hblock.mergeSliceData h.count (by simp [hfull])
    result.messageIds
    (fun id hid => (FlatSet.mem_of_split h.split).mpr (Or.inr (Or.inl hid)))
    (fun x hx y hy id hid hxid hidy => by
      rw [hmem] at hx hy ⊢
      exact FlatSet.convex_of_split h.split x hx y hy id hid hxid hidy)
    result.skippedBefore result.skippedAfter
    (fun front hfront n hn => by
      have hlower := FlatSet.lowerBound_of_split h.split (FlatSet.front_eq_some hfront).1
      rw [lowerBound_front hfront] at hlower
      rw [h.skippedBefore n hn, hlower, Nat.add_zero])
    (fun back hback n hn => by
      have hlower := FlatSet.lowerBound_of_split h.split (FlatSet.back_eq_some hback).1
      have hlast := lowerBound_back hback
      have hsize := FlatSet.size_eq_of_split h.split
      rw [h.skippedAfter n hn]
      omega)
  refine ⟨hshows, fun id hid => ?_, fun hnone => hcount hnone hfull⟩
  rcases hsub id hid with hid | hid
  · rw [hids] at hid
    exact absurd hid (FlatSet.not_mem_empty id)
  · exact hid

/-! ### Calls of the list -/

/-- Messages of a range that meets the window leave no gap. -/
lemma Meets.convex {S : FlatSet MsgId} {b : SparseIdsSliceBuilder} {before after : List MsgId}
    (h : Block S b before after) {range : Range MsgId} (hmeets : b.Meets range)
    {messages : FlatSet MsgId} (hexact : ∀ id, id ∈ messages ↔ id ∈ S ∧ range.Contains id) :
    ∀ x ∈ b.ids.merge messages.elems, ∀ y ∈ b.ids.merge messages.elems, ∀ id ∈ S,
      x ≤ id → id ≤ y → id ∈ b.ids.merge messages.elems := by
  intro x hx y hy id hid hxid hidy
  have hconvex := FlatSet.convex_of_split h.split
  rw [FlatSet.mem_merge, ← FlatSet.mem_def] at hx hy ⊢
  simp only [hexact] at hx hy ⊢
  obtain ⟨hstart, htill⟩ := hmeets
  simp only [Range.Contains] at hx hy ⊢
  cases hfront : b.ids.front with
  | none =>
    have hempty : b.ids = ∅ := FlatSet.eq_empty_iff.mpr (by simpa [FlatSet.front] using hfront)
    rw [hempty] at hx hy
    simp only [FlatSet.not_mem_empty, or_false] at hx hy
    exact Or.inl ⟨hid, hx.2.1.trans hxid, hidy.trans hy.2.2⟩
  | some front =>
    cases hback : b.ids.back with
    | none =>
      rw [FlatSet.back_eq_none hback] at hfront
      exact absurd hfront (by simp [FlatSet.front])
    | some back =>
      rw [hback, Option.getD_some] at hstart
      rw [hfront, Option.getD_some] at htill
      obtain ⟨hfmem, hfmin⟩ := FlatSet.front_eq_some hfront
      obtain ⟨hbmem, hbmax⟩ := FlatSet.back_eq_some hback
      by_cases hin : front ≤ id ∧ id ≤ back
      · exact Or.inr (hconvex front hfmem back hbmem id hid hin.1 hin.2)
      · -- outside of the window the id is in the range
        refine Or.inl ⟨hid, ?_, ?_⟩
        · rcases hx with hx | hx
          · exact hx.2.1.trans hxid
          · have := hfmin x hx
            unfold MsgId at *
            omega
        · rcases hy with hy | hy
          · exact hidy.trans hy.2.2
          · have := hbmax y hy
            unfold MsgId at *
            omega

/-- **An update that is right keeps a window right.** -/
lemma Block.applyUpdate {S : FlatSet MsgId} {b : SparseIdsSliceBuilder} {before after : List MsgId}
    (h : Block S b before after) (hserver : ∀ id ∈ S, isServerMsgId id = true)
    (hlimits : b.WithinLimits) {update : SliceUpdate MsgId}
    (hupdate : SparseIdsList.UpdateSound S update)
    (hfull : update.count = none → ∀ n ∈ b.fullCount, n = S.size) :
    (∃ before' after', Shows S (b.applyUpdate update).builder before' after') ∧
      (∀ id ∈ (b.applyUpdate update).builder.ids,
        id ∈ b.ids ∨ ∃ messages ∈ update.messages, id ∈ messages) ∧
      (update.count = none → b.fullCount = none →
        (b.applyUpdate update).builder.fullCount = none) := by
  unfold SparseIdsSliceBuilder.applyUpdate
  generalize hmerged : (if b.Meets update.range then update.messages else none) = merged
  dsimp only
  by_cases hnothing : merged.isNone = true ∧ update.count.isNone = true
  · rw [if_pos hnothing]
    refine ⟨⟨before, after, h, ?_, hlimits⟩, fun id hid => Or.inl hid, fun _ hnone => hnone⟩
    exact hfull (Option.isNone_iff_eq_none.mp hnothing.2)
  rw [if_neg hnothing]
  -- what is merged is what the server has in a range that meets the window, or nothing
  have hsome : ∀ messages ∈ merged, b.Meets update.range ∧ messages ∈ update.messages := by
    intro messages hm
    rw [← hmerged] at hm
    rw [Option.mem_def, Option.ite_none_right_eq_some] at hm
    exact hm
  have hexact : ∀ id ∈ merged.getD ∅, ∃ messages ∈ update.messages, id ∈ messages ∧ id ∈ S := by
    intro id hid
    cases hcase : merged with
    | none => simp [hcase] at hid
    | some messages =>
      rw [hcase, Option.getD_some] at hid
      have hmem := (hsome messages hcase).2
      exact ⟨messages, hmem, hid, ((hupdate.messages messages hmem id).mp hid).1⟩
  obtain ⟨hshows, hsub, hcount⟩ := h.mergeSliceData hupdate.count hfull
    (merged.getD ∅) (fun id hid => by
      obtain ⟨_, _, _, hS⟩ := hexact id hid
      exact hS)
    (by
      cases hcase : merged with
      | none =>
        intro x hx y hy id hid hxid hidy
        simp only [Option.getD_none, FlatSet.mem_merge, FlatSet.elems_empty, List.not_mem_nil,
          false_or] at hx hy ⊢
        exact FlatSet.convex_of_split h.split x hx y hy id hid hxid hidy
      | some messages =>
        obtain ⟨hmeets, hmem⟩ := hsome messages hcase
        exact Meets.convex h hmeets (hupdate.messages messages hmem))
    (if update.range.start = 0 then some 0 else none)
    (if update.range.till = ServerMaxMsgId then some 0 else none)
    (by
      intro front hfront n hn
      rw [Option.mem_def, Option.ite_none_right_eq_some] at hn
      obtain ⟨hstart, hn⟩ := hn
      rw [← Option.some.inj hn]
      cases hcase : merged with
      | none => simp [hcase, FlatSet.front] at hfront
      | some messages =>
        rw [hcase, Option.getD_some] at hfront
        obtain ⟨hmem, hmin⟩ := FlatSet.front_eq_some hfront
        have hmessages := hupdate.messages messages (hsome messages hcase).2
        have hnone : S.filter (· < front) = ∅ := by
          apply FlatSet.ext_mem
          intro id
          simp only [FlatSet.mem_filter, decide_eq_true_eq, FlatSet.not_mem_empty, iff_false,
            not_and, not_lt]
          intro hid
          by_contra hlt
          rw [not_le] at hlt
          have hin : id ∈ messages := (hmessages id).mpr ⟨hid, by
            rw [hstart]
            exact (SparseIdsList.contains_fullRange (hserver id hid)).1,
            hlt.le.trans ((hmessages front).mp hmem).2.2⟩
          exact absurd (hmin id hin) (not_le.mpr hlt)
        rw [FlatSet.lowerBound_eq, hnone]
        rfl)
    (by
      intro back hback n hn
      rw [Option.mem_def, Option.ite_none_right_eq_some] at hn
      obtain ⟨htill, hn⟩ := hn
      rw [← Option.some.inj hn]
      cases hcase : merged with
      | none => simp [hcase, FlatSet.back] at hback
      | some messages =>
        rw [hcase, Option.getD_some] at hback
        obtain ⟨hmem, hmax⟩ := FlatSet.back_eq_some hback
        have hmessages := hupdate.messages messages (hsome messages hcase).2
        have hlast : S.back = some back := by
          cases hS : S.back with
          | none =>
            rw [FlatSet.back_eq_none hS] at hmessages
            exact absurd ((hmessages back).mp hmem).1 (FlatSet.not_mem_empty back)
          | some last =>
            obtain ⟨hlmem, hlmax⟩ := FlatSet.back_eq_some hS
            have hle := hlmax back ((hmessages back).mp hmem).1
            have hin : last ∈ messages := (hmessages last).mpr ⟨hlmem,
              ((hmessages back).mp hmem).2.1.trans hle, by
              rw [htill]
              exact (SparseIdsList.contains_fullRange (hserver last hlmem)).2⟩
            rw [le_antisymm (hmax last hin) hle]
        have := lowerBound_back hlast
        omega)
  refine ⟨hshows, fun id hid => ?_, hcount⟩
  rcases hsub id hid with hid | hid
  · exact Or.inl hid
  · obtain ⟨messages, hmem, hin, -⟩ := hexact id hid
    exact Or.inr ⟨messages, hmem, hin⟩

/-- The number of ids after the window is not read when the update says that none are. -/
lemma applyUpdate_of_till {b : SparseIdsSliceBuilder} {update : SliceUpdate MsgId}
    (hmeets : b.Meets update.range) (htill : update.range.till = ServerMaxMsgId)
    {messages : FlatSet MsgId} (hmessages : update.messages = some messages) {front back : MsgId}
    (hfront : messages.front = some front) (hback : messages.back = some back) :
    b.applyUpdate update =
      SparseIdsSliceBuilder.applyUpdate { b with skippedAfter := none } update := by
  have hmeets' : SparseIdsSliceBuilder.Meets { b with skippedAfter := none } update.range := hmeets
  unfold SparseIdsSliceBuilder.applyUpdate SparseIdsSliceBuilder.mergeSliceData
  simp only [if_pos hmeets, if_pos hmeets', hmessages, Option.getD_some, hfront, hback, htill,
    if_true]
  rfl

/-- An id leaves the list of the ids that it was in. -/
lemma length_filter_ne {ids : List MsgId} (hnodup : ids.Nodup) (messageId : MsgId) :
    (messageId ∈ ids → (ids.filter (· ≠ messageId)).length + 1 = ids.length) ∧
      (messageId ∉ ids → ids.filter (· ≠ messageId) = ids) := by
  constructor
  · intro hmem
    have hlen := List.length_erase_of_mem hmem
    have hpos := List.length_pos_of_mem hmem
    rw [hnodup.erase_eq_filter] at hlen
    simp only [ne_eq, decide_not] at hlen ⊢
    have hsame : ids.filter (fun id => !decide (id = messageId)) =
        ids.filter (fun id => id != messageId) := by
      apply List.filter_congr
      intro id _
      simp [bne, BEq.beq]
    rw [hsame]
    omega
  · intro hmem
    rw [List.filter_eq_self]
    intro id hid
    exact decide_eq_true fun he => hmem (he ▸ hid)

/-- **Removing an id keeps a block**, unless the window has no ids and knows skipped numbers. -/
lemma Block.dropOne {S : FlatSet MsgId} {b : SparseIdsSliceBuilder} {before after : List MsgId}
    (h : Block S b before after) (hfull : ∀ n ∈ b.fullCount, n = S.size) {messageId : MsgId}
    (hmem : messageId ∈ S)
    (hknown : b.ids = ∅ → b.skippedBefore = none ∧ b.skippedAfter = none) :
    (∃ before' after', Block (S.remove messageId) (b.dropOne messageId).1 before' after') ∧
      (∀ n ∈ (b.dropOne messageId).1.fullCount, n = (S.remove messageId).size) ∧
      (∀ id ∈ (b.dropOne messageId).1.ids, id ∈ b.ids ∧ id ≠ messageId) ∧
      (b.fullCount = none → (b.dropOne messageId).1.fullCount = none) ∧
      ((b.dropOne messageId).2 = false → (b.dropOne messageId).1.ids = b.ids) := by
  have hsize := FlatSet.size_remove hmem
  have hsplit := FlatSet.remove_split h.split messageId
  have hsorted := S.nodup
  rw [h.split, List.nodup_append, List.nodup_append] at hsorted
  obtain ⟨⟨hbnodup, -, -⟩, hanodup, -⟩ := hsorted
  obtain ⟨hbin, hbout⟩ := length_filter_ne hbnodup messageId
  obtain ⟨hain, haout⟩ := length_filter_ne hanodup messageId
  obtain ⟨hlt, hlt', hlt''⟩ := FlatSet.lt_of_split h.split
  unfold SparseIdsSliceBuilder.dropOne
  -- the count is decremented when it is known
  have hcounted : ∀ n ∈ (if b.fullCount.any (0 < ·) then b.fullCount.map (· - 1) else b.fullCount),
      n = ((S.remove messageId).size : ℤ) := by
    intro n hn
    cases hcase : b.fullCount with
    | none => simp [hcase] at hn
    | some m =>
      have hm := hfull m hcase
      have hpos : (0 : ℤ) < m := by omega
      simp only [hcase, Option.any_some, hpos, decide_true, if_true, Option.map_some] at hn
      rw [← Option.some.inj hn]
      omega
  have hnone : b.fullCount = none →
      (if b.fullCount.any (0 < ·) then b.fullCount.map (· - 1) else b.fullCount) = none := by
    intro hcase
    simp [hcase]
  dsimp only
  by_cases hids : messageId ∈ b.ids
  · rw [if_pos hids]
    refine ⟨⟨_, _, hsplit, fun n hn => ?_, fun n hn => ?_⟩, hcounted, fun id hid => ?_, hnone,
      by simp⟩
    · rw [hbout fun hb => absurd (hlt _ hb _ hids) (lt_irrefl _)]
      exact h.skippedBefore n hn
    · rw [haout fun ha => absurd (hlt' _ hids _ ha) (lt_irrefl _)]
      exact h.skippedAfter n hn
    · exact FlatSet.mem_remove.mp hid
  rw [if_neg hids]
  rw [FlatSet.remove_of_not_mem hids] at hsplit
  have hne : ∀ id ∈ b.ids, id ∈ b.ids ∧ id ≠ messageId := fun id hid =>
    ⟨hid, fun he => hids (he ▸ hid)⟩
  split
  · rename_i front back hfront hback
    have hfmem := (FlatSet.front_eq_some hfront).1
    have hbmem := (FlatSet.back_eq_some hback).1
    rcases (FlatSet.mem_of_split h.split).mp hmem with hb | hb | ha
    · -- before the window
      have hfirst := hlt messageId hb front hfmem
      have hlast := hlt messageId hb back hbmem
      have hkept := haout fun ha => absurd (hlt'' _ hb _ ha) (lt_irrefl _)
      rw [hkept] at hsplit
      have hlength := hbin hb
      cases hskipped : b.skippedBefore with
      | none =>
        rw [if_neg (by simp), if_neg fun hback => absurd hback.1 (not_lt.mpr hlast.le)]
        exact ⟨⟨_, _, hsplit, by simp, h.skippedAfter⟩, hcounted, hne, hnone,
          fun _ => rfl⟩
      | some m =>
        have hm := h.skippedBefore m hskipped
        have hpos : (0 : ℤ) < m := by omega
        rw [if_pos ⟨hfirst, by simpa using hpos⟩]
        refine ⟨⟨_, _, hsplit, fun n hn => ?_, h.skippedAfter⟩, hcounted, hne, hnone, by simp⟩
        obtain rfl : m - 1 = n := Option.some.inj hn
        omega
    · exact absurd hb hids
    · -- after the window
      have hfirst := hlt' front hfmem messageId ha
      have hlast := hlt' back hbmem messageId ha
      have hkept := hbout fun hb => absurd (hlt'' _ hb _ ha) (lt_irrefl _)
      rw [hkept] at hsplit
      have hlength := hain ha
      rw [if_neg fun hfront => absurd hfront.1 (not_lt.mpr hfirst.le)]
      cases hskipped : b.skippedAfter with
      | none =>
        rw [if_neg (by simp)]
        exact ⟨⟨_, _, hsplit, h.skippedBefore, by simp⟩, hcounted, hne, hnone,
          fun _ => rfl⟩
      | some m =>
        have hm := h.skippedAfter m hskipped
        have hpos : (0 : ℤ) < m := by omega
        rw [if_pos ⟨hlast, by simpa using hpos⟩]
        refine ⟨⟨_, _, hsplit, h.skippedBefore, fun n hn => ?_⟩, hcounted, hne, hnone, by simp⟩
        obtain rfl : m - 1 = n := Option.some.inj hn
        omega
  · rename_i hempty
    have hids' : b.ids = ∅ := by
      cases hfront : b.ids.front with
      | none => exact FlatSet.eq_empty_iff.mpr (by simpa [FlatSet.front] using hfront)
      | some front =>
        cases hback : b.ids.back with
        | none => exact FlatSet.back_eq_none hback
        | some back => exact absurd hback (hempty front back hfront)
    obtain ⟨hbefore, hafter⟩ := hknown hids'
    exact ⟨⟨_, _, hsplit, by simp [hbefore], by simp [hafter]⟩, hcounted, hne, hnone, fun _ => rfl⟩

/-- **`removeOne` keeps a window right** when it is not an empty one that knows skipped numbers. -/
lemma Shows.removeOne {S : FlatSet MsgId} {b : SparseIdsSliceBuilder} {before after : List MsgId}
    (h : Shows S b before after) {messageId : MsgId} (hmem : messageId ∈ S)
    (hknown : b.ids = ∅ → b.skippedBefore = none ∧ b.skippedAfter = none) :
    (∃ before' after', Shows (S.remove messageId) (b.removeOne messageId).builder before' after') ∧
      (∀ id ∈ (b.removeOne messageId).builder.ids, id ∈ b.ids ∧ id ≠ messageId) ∧
      (b.fullCount = none → (b.removeOne messageId).builder.fullCount = none) := by
  obtain ⟨⟨before', after', hblock⟩, hcount, hids, hnone, hsame⟩ :=
    h.toBlock.dropOne h.fullCount hmem hknown
  unfold SparseIdsSliceBuilder.removeOne
  dsimp only
  by_cases hchanged : (b.dropOne messageId).2 = true
  · rw [if_pos hchanged]
    obtain ⟨⟨before'', after'', hcut⟩, hlimits, hsub, hfull⟩ := hblock.sliceToLimits
    refine ⟨⟨before'', after'', hcut, ?_, hlimits⟩, fun id hid => hids id (hsub id hid), fun hn => ?_⟩
    · rw [hfull]
      exact hcount
    · rw [hfull, hnone hn]
  · rw [if_neg hchanged]
    refine ⟨⟨before', after', hblock, hcount, ?_⟩, hids, hnone⟩
    have hview := sameView_dropOne b messageId
    unfold WithinLimits
    rw [hsame (by simpa using hchanged), hview.key, hview.limitBefore, hview.limitAfter]
    exact h.limits

/-- **`invalidateBottom` keeps a window right** when ids joined above its ids only. -/
lemma Shows.invalidateBottom {S S' : FlatSet MsgId} {b : SparseIdsSliceBuilder}
    {before after : List MsgId} (h : Shows S b before after) (hkeep : ∀ id ∈ S, id ∈ S')
    (hjoined : ∀ id ∈ S', id ∈ S ∨ ∀ shown ∈ b.ids, shown < id) :
    (∃ before' after', Shows S' b.invalidateBottom.builder before' after') ∧
      (∀ id ∈ b.invalidateBottom.builder.ids, id ∈ b.ids) ∧
      b.invalidateBottom.builder.fullCount = none := by
  have hblock : ∃ before' after', Block S'
      { b with fullCount := none, skippedAfter := none } before' after' := by
    cases hfront : b.ids.front with
    | none =>
      have hempty : b.ids.elems = [] := by simpa [FlatSet.front] using hfront
      refine ⟨S'.elems.take before.length, S'.elems.drop before.length, ?_, fun n hn => ?_,
        by simp⟩
      · simp [hempty]
      · have hle := FlatSet.size_le_of_subset hkeep
        have hsize := FlatSet.size_eq_of_split h.split
        have hlen : S'.elems.length = S'.size := rfl
        rw [h.skippedBefore n hn, List.length_take, hlen]
        omega
    | some front =>
      obtain ⟨hfmem, hfmin⟩ := FlatSet.front_eq_some hfront
      obtain ⟨before', after', hsplit⟩ := FlatSet.exists_split (s := S') (t := b.ids)
        (fun id hid => hkeep id ((FlatSet.mem_of_split h.split).mpr (Or.inr (Or.inl hid))))
        (fun x hx y hy id hid hxid hidy => by
          rcases hjoined id hid with hid | hid
          · exact FlatSet.convex_of_split h.split x hx y hy id hid hxid hidy
          · exact absurd (hid y hy) (not_lt.mpr hidy))
      refine ⟨before', after', hsplit, fun n hn => ?_, by simp⟩
      have hlower := FlatSet.lowerBound_of_split h.split hfmem
      have hlower' := FlatSet.lowerBound_of_split hsplit hfmem
      have hsame : S'.filter (· < front) = S.filter (· < front) := by
        apply FlatSet.ext_mem
        intro id
        simp only [FlatSet.mem_filter, decide_eq_true_eq]
        constructor
        · rintro ⟨hid, hlt⟩
          rcases hjoined id hid with hid | hid
          · exact ⟨hid, hlt⟩
          · exact absurd (hid front hfmem) (not_lt.mpr hlt.le)
        · rintro ⟨hid, hlt⟩
          exact ⟨hkeep id hid, hlt⟩
      rw [FlatSet.lowerBound_eq, hsame, ← FlatSet.lowerBound_eq] at hlower'
      rw [h.skippedBefore n hn]
      omega
  obtain ⟨before', after', hblock⟩ := hblock
  obtain ⟨⟨before'', after'', hcut⟩, hlimits, hsub, hfull⟩ := hblock.sliceToLimits
  refine ⟨⟨before'', after'', hcut, fun n hn => ?_, hlimits⟩, hsub, hfull⟩
  have hnone := hfull.symm.trans hn
  exact absurd hnone (by simp)

/-! ### Following a list -/

/-- A window that follows a sound list: it shows what is right, it knows the count only when the
list does, and the list holds its ids. -/
structure Follows (S : FlatSet MsgId) (list : SparseIdsList) (b : SparseIdsSliceBuilder) : Prop where
  sound : SparseIdsList.Sound S list
  shows : ∃ before after, Shows S b before after
  counted : list.count = none → b.fullCount = none
  held : ∀ id ∈ b.ids, Held list.slices id

/-- The calls of the list that a window can follow. The update of a new id reaches the bottom and
meets the window, or the window does not know how many ids are after it; an id is removed while the
window has ids, or knows no skipped numbers. -/
def Followed (list : SparseIdsList) (b : SparseIdsSliceBuilder) : SparseIdsList.Op → Prop
  | .addNew messageId =>
    ((list.addNew messageId).2.range.till = ServerMaxMsgId ∧
        b.Meets (list.addNew messageId).2.range) ∨ b.skippedAfter = none
  | .removeOne _ => b.ids = ∅ → b.skippedBefore = none ∧ b.skippedAfter = none
  | _ => True

/-- A window started with what its list shows follows the list. -/
lemma follows_applyInitial {S : FlatSet MsgId} {list : SparseIdsList}
    (h : SparseIdsList.Sound S list) (query : Query MsgId) {b : SparseIdsSliceBuilder}
    (hids : b.ids = ∅) (hfull : b.fullCount = none) (hbefore : b.skippedBefore = none)
    (hafter : b.skippedAfter = none) :
    Follows S list (b.applyInitial (list.snapshot query)).builder := by
  obtain ⟨before, after, haround⟩ := h.snapshot query
  obtain ⟨hshows, hsub, hcount⟩ := shows_applyInitial haround hids hfull hbefore hafter
  obtain ⟨hsame, hheld⟩ := list.snapshot_held query
  exact ⟨h, hshows, fun hnone => hcount (hsame.trans hnone), fun id hid => hheld id (hsub id hid)⟩

/-- **A window follows an update of its list** for the same set. -/
lemma Follows.update {S S' : FlatSet MsgId} {list : SparseIdsList} {b : SparseIdsSliceBuilder}
    {before after : List MsgId} (h : Follows S list b) (hblock : Block S' b before after)
    (messages : List MsgId) (noSkipRange : Range MsgId) (count : Option ℤ) (incrementCount : Bool)
    (htruth : Truth S S' messages noSkipRange)
    (hsound : SparseIdsList.Sound S' (list.addRange messages noSkipRange count incrementCount).1 ∧
      SparseIdsList.UpdateSound S' (list.addRange messages noSkipRange count incrementCount).2) :
    Follows S' (list.addRange messages noSkipRange count incrementCount).1
      (b.applyUpdate (list.addRange messages noSkipRange count incrementCount).2).builder := by
  obtain ⟨_, _, hshows⟩ := h.shows
  obtain ⟨hcount, hlost⟩ := list.addRange_count messages noSkipRange count incrementCount
  obtain ⟨hshows', hids, hnone⟩ := hblock.applyUpdate hsound.1.ids hshows.limits hsound.2
    (fun hn n hfull => by
      rw [h.counted (hlost (hcount ▸ hn))] at hfull
      exact absurd hfull (by simp))
  refine ⟨hsound.1, hshows', fun hn => hnone (hcount ▸ hn) (h.counted (hlost hn)), fun id hid => ?_⟩
  apply list.held_addRange messages noSkipRange count incrementCount (h.sound.exact_.add htruth)
  exact (hids id hid).imp_left (h.held id)

/-- **A window that follows a list follows its next call**, when it can.

**Proof sketch.** By the call. Updates of slices that were known before are merged as they are. A
new id comes after the window; the number of ids after it is replaced by the update that reaches
the bottom, or it is not known. Ids that joined before `invalidateBottom` are above all the list
holds, hence above the window. -/
theorem Follows.exec {S S' : FlatSet MsgId} {list : SparseIdsList} {b : SparseIdsSliceBuilder}
    (h : Follows S list b) (op : SparseIdsList.Op) (htruth : list.Truthful S S' op)
    (hids : ∀ id ∈ S', isServerMsgId id = true) (hfollowed : Followed list b op) :
    Follows S' (list.exec op).1 (b.follow op (list.exec op).2) := by
  obtain ⟨before, after, hshows⟩ := h.shows
  have hexec := h.sound.exec op htruth hids
  cases op with
  | addNew messageId =>
    obtain ⟨hlast, rfl⟩ := htruth
    have htold := SparseIdsList.truth_addNew hlast hids
    have hsound := And.intro hexec.1 (hexec.2 _ rfl)
    -- the new id comes after the window
    have hsplit : (S.insert messageId).elems = before ++ b.ids.elems ++ (after ++ [messageId]) := by
      rw [FlatSet.elems_insert_of_lt hlast, hshows.split, List.append_assoc]
    by_cases hafter : b.skippedAfter = none
    · exact h.update ⟨hsplit, hshows.skippedBefore, by simp [hafter]⟩ _ _ _ _ htold hsound
    · obtain ⟨htill, hmeets⟩ := hfollowed.resolve_right hafter
      set update := (list.addNew messageId).2 with hupdate
      obtain ⟨messages, hmessages, hmem⟩ := list.mem_update_addNew messageId
      obtain ⟨front, back, hfront, hback⟩ := FlatSet.front_back_of_mem hmem
      have hfresh : Follows S list { b with skippedAfter := none } :=
        ⟨h.sound, ⟨before, after, ⟨hshows.split, hshows.skippedBefore, by simp⟩, hshows.fullCount,
          hshows.limits⟩, h.counted, h.held⟩
      have hblock : Block (S.insert messageId) { b with skippedAfter := none } before
          (after ++ [messageId]) := ⟨hsplit, hshows.skippedBefore, by simp⟩
      have hfollows := hfresh.update hblock _ _ _ _ htold hsound
      have hsame := applyUpdate_of_till hmeets htill hmessages hfront hback
      show Follows _ _ (b.applyUpdate update).builder
      rw [hsame]
      exact hfollows
  | addExisting messageId noSkipRange =>
    obtain ⟨htold, rfl⟩ := htruth
    exact h.update hshows.toBlock _ _ _ _ htold ⟨hexec.1, hexec.2 _ rfl⟩
  | addSlice messageIds noSkipRange count =>
    obtain ⟨htold, rfl, -⟩ := htruth
    exact h.update hshows.toBlock _ _ _ _ htold ⟨hexec.1, hexec.2 _ rfl⟩
  | removeOne messageId =>
    obtain ⟨hmem, rfl⟩ := htruth
    obtain ⟨hshows', hsub, hnone⟩ := hshows.removeOne hmem hfollowed
    refine ⟨hexec.1, hshows', fun hn => hnone (h.counted ?_), fun id hid => ?_⟩
    · exact Option.map_eq_none_iff.mp hn
    · obtain ⟨hid, hne⟩ := hsub id hid
      exact (h.held id hid).remove hne
  | removeAll =>
    obtain rfl : S' = ∅ := htruth
    refine ⟨hexec.1, ⟨[], [], ⟨rfl, ?_, ?_⟩, ?_, fun _ => ⟨Nat.zero_le _, Nat.zero_le _⟩⟩,
      by simp [SparseIdsList.exec, SparseIdsList.removeAll], fun id hid => ?_⟩
    · exact fun n hn => (Option.some.inj hn).symm
    · exact fun n hn => (Option.some.inj hn).symm
    · exact fun n hn => (Option.some.inj hn).symm
    · exact absurd hid (FlatSet.not_mem_empty id)
  | invalidateBottom =>
    obtain ⟨hkeep, hjoined⟩ := htruth
    obtain ⟨hshows', hsub, hnone⟩ := hshows.invalidateBottom hkeep fun id hid =>
      (hjoined id hid).imp_right fun hknown shown hshown => by
        obtain ⟨k, hk, hle⟩ := h.sound.exact_.le_knownTill (h.held shown hshown) ServerMaxMsgId
        exact hle.trans_lt (hknown k hk)
    exact ⟨hexec.1, hshows', fun _ => hnone, fun id hid =>
      (h.held id (hsub id hid)).invalidateLast ServerMaxMsgId⟩

/-! ### Runs -/

/-- One call of a run: the set of the server, the list and the window before and after it. -/
def TruthfulStep (before : FlatSet MsgId × SparseIdsList × SparseIdsSliceBuilder)
    (op : SparseIdsList.Op) (after : FlatSet MsgId × SparseIdsList × SparseIdsSliceBuilder) : Prop :=
  before.2.1.Truthful before.1 after.1 op ∧ (∀ id ∈ after.1, isServerMsgId id = true) ∧
    after.2.1 = (before.2.1.exec op).1 ∧ after.2.2 = before.2.2.follow op (before.2.1.exec op).2

/-- One call that the window can follow. -/
def Step (before : FlatSet MsgId × SparseIdsList × SparseIdsSliceBuilder)
    (op : SparseIdsList.Op) (after : FlatSet MsgId × SparseIdsList × SparseIdsSliceBuilder) : Prop :=
  TruthfulStep before op after ∧ Followed before.2.1 before.2.2 op

end SparseIdsSliceBuilder

/-- **A viewer of message ids shows consistent counts.** A window that starts with what a sound
list shows and follows its calls has consecutive ids of the server, within its limits when it has
a key, and its numbers are those of all ids and of the ids before and after the window, when every
new id reaches the window or comes where the window does not count, and every id is removed while
the window has ids or no skipped numbers. -/
theorem slice_builder_sound (S₀ S : FlatSet MsgId) (list₀ list : SparseIdsList)
    (hsound : SparseIdsList.Sound S₀ list₀) (query : Query MsgId) (key : MsgId)
    (limitBefore limitAfter : ℕ) (b : SparseIdsSliceBuilder) (ops : List SparseIdsList.Op)
    (hrun : Trace SparseIdsSliceBuilder.Step
      (S₀, list₀, (SparseIdsSliceBuilder.applyInitial { key, limitBefore, limitAfter }
        (list₀.snapshot query)).builder) ops (S, list, b)) :
    ∃ before after : List MsgId, S.elems = before ++ b.ids.elems ++ after ∧
      (key ≠ 0 → (b.ids.filter (· < key)).size ≤ limitBefore ∧
        (b.ids.filter (key ≤ ·)).size ≤ limitAfter + 1) ∧
      (∀ n ∈ b.fullCount, n = S.size) ∧
      (∀ n ∈ b.skippedBefore, n = before.length ∧ 0 ≤ n) ∧
      (∀ n ∈ b.skippedAfter, n = after.length ∧ 0 ≤ n) ∧
      ∀ fullCount skippedBefore skippedAfter : ℤ, b.fullCount = some fullCount →
        b.skippedBefore = some skippedBefore → b.skippedAfter = some skippedAfter →
        fullCount = skippedBefore + b.ids.size + skippedAfter := by
  obtain ⟨hfollows, hview⟩ : SparseIdsSliceBuilder.Follows S list b ∧
      SparseIdsSliceBuilder.SameView { key, limitBefore, limitAfter } b := by
    refine hrun.invariant (P := fun _ state =>
      SparseIdsSliceBuilder.Follows state.1 state.2.1 state.2.2 ∧
        SparseIdsSliceBuilder.SameView { key, limitBefore, limitAfter } state.2.2)
      ⟨SparseIdsSliceBuilder.follows_applyInitial hsound query rfl rfl rfl rfl,
        SparseIdsSliceBuilder.sameView_mergeSliceData _ _ _ _ _⟩ ?_
    rintro - ⟨S, list, b⟩ op ⟨S', list', b'⟩ ⟨h, hview⟩ ⟨⟨htruth, hids, hlist, hb⟩, hfollowed⟩
    dsimp only at hlist hb
    rw [hlist, hb]
    exact ⟨h.exec op htruth hids hfollowed,
      hview.trans (SparseIdsSliceBuilder.sameView_follow b op _)⟩
  obtain ⟨before, after, h⟩ := hfollows.shows
  have hlimits := h.limits
  unfold SparseIdsSliceBuilder.WithinLimits at hlimits
  rw [hview.key, hview.limitBefore, hview.limitAfter] at hlimits
  refine ⟨before, after, h.split, hlimits, h.fullCount, fun n hn => ?_, fun n hn => ?_, ?_⟩
  · have := h.skippedBefore n hn
    exact ⟨this, this ▸ Int.natCast_nonneg _⟩
  · have := h.skippedAfter n hn
    exact ⟨this, this ▸ Int.natCast_nonneg _⟩
  · intro fullCount skippedBefore skippedAfter hfull hbefore hafter
    have hsize := FlatSet.size_eq_of_split h.split
    have hfull := h.fullCount fullCount hfull
    have hbefore := h.skippedBefore skippedBefore hbefore
    have hafter := h.skippedAfter skippedAfter hafter
    omega

/-! ### Runs of windows -/

/-- A window around `5` of a list that was told two of three ids, after the third one left. -/
def shownWindow : SparseIdsSliceBuilder :=
  (((SparseIdsSliceBuilder.applyInitial { key := 5, limitBefore := 4, limitAfter := 4 }
    (SparseIdsList.snapshot {} { aroundId := 5, limitBefore := 4, limitAfter := 4 })).builder.follow
      (.addSlice [3, 5] { start := 0, till := 6 } (some 3))
      (SparseIdsList.exec {} (.addSlice [3, 5] { start := 0, till := 6 } (some 3))).2).follow
        (.removeOne 9) none)

lemma isServerMsgId_of_list {ids : List MsgId} (h : ∀ id ∈ ids, isServerMsgId id = true) :
    ∀ id ∈ FlatSet.ofList ids, isServerMsgId id = true := fun id hid =>
  h id (FlatSet.mem_ofList.mp hid)

/-- The step of a call that is truthful and can be followed. -/
lemma step_of_followed {S S' : FlatSet MsgId} {list : SparseIdsList} {b : SparseIdsSliceBuilder}
    {op : SparseIdsList.Op} (htruth : list.Truthful S S' op)
    (hids : ∀ id ∈ S', isServerMsgId id = true) :
    SparseIdsSliceBuilder.TruthfulStep (S, list, b) op
      (S', (list.exec op).1, b.follow op (list.exec op).2) :=
  ⟨htruth, hids, rfl, rfl⟩

/-- A slice told of a set of the server. -/
lemma truthful_addSlice {S : FlatSet MsgId} (list : SparseIdsList) {messages : List MsgId}
    {range : Range MsgId} (hle : range.start ≤ range.till)
    (hknown : (S.filter fun id => range.start ≤ id ∧ id ≤ range.till).elems = messages)
    {count : Option ℤ} (hcount : ∀ n ∈ count, n = S.size) :
    list.Truthful S S (.addSlice messages range count) :=
  ⟨truth_of_elems hle hknown, rfl, hcount⟩

lemma shownWindow_run : ∃ list, Trace SparseIdsSliceBuilder.Step
    (FlatSet.ofList [3, 5, 9], {}, (SparseIdsSliceBuilder.applyInitial
      { key := 5, limitBefore := 4, limitAfter := 4 }
      (SparseIdsList.snapshot {} { aroundId := 5, limitBefore := 4, limitAfter := 4 })).builder)
    [.addSlice [3, 5] { start := 0, till := 6 } (some 3), .removeOne 9]
    (FlatSet.ofList [3, 5], list, shownWindow) := by
  have htold : SparseIdsList.Truthful {} (FlatSet.ofList [3, 5, 9]) (FlatSet.ofList [3, 5, 9])
      (.addSlice [3, 5] { start := 0, till := 6 } (some 3)) := by
    refine truthful_addSlice {} (by decide) (by decide) fun n hn => ?_
    obtain rfl := Option.some.inj hn
    decide
  refine ⟨_, Trace.snoc (Trace.single ⟨step_of_followed htold (isServerMsgId_of_list (by decide)),
    trivial⟩) ⟨step_of_followed ⟨by decide, by decide⟩ (isServerMsgId_of_list (by decide)), ?_⟩⟩
  exact fun hempty => absurd hempty (by decide)

/-- The window has both ids that are left. -/
theorem shownWindow_shows : shownWindow.fullCount = some 2 ∧ shownWindow.skippedBefore = some 0 ∧
    shownWindow.skippedAfter = some 0 ∧ (2 : ℤ) = 0 + shownWindow.ids.size + 0 := by
  obtain ⟨list, hrun⟩ := shownWindow_run
  obtain ⟨before, after, -, -, -, -, -, hsum⟩ := slice_builder_sound (FlatSet.ofList [3, 5, 9])
    (FlatSet.ofList [3, 5]) {} list
    ⟨isServerMsgId_of_list (by decide), exact_nil _, by simp⟩ _ 5 4 4 shownWindow _ hrun
  have hfull : shownWindow.fullCount = some 2 := by decide
  have hbefore : shownWindow.skippedBefore = some 0 := by decide
  have hafter : shownWindow.skippedAfter = some 0 := by decide
  exact ⟨hfull, hbefore, hafter, hsum 2 0 0 hfull hbefore hafter⟩

/-- A list that knows the first of two ids, and its window. -/
def firstKnown : SparseIdsList :=
  { count := some 2, slices := [{ messages := FlatSet.ofList [10], range := { start := 0, till := 50 } }] }

def firstWindow : SparseIdsSliceBuilder :=
  (SparseIdsSliceBuilder.applyInitial { key := 10, limitBefore := 5, limitAfter := 5 }
    (firstKnown.snapshot { aroundId := 10, limitBefore := 5, limitAfter := 5 })).builder

/-- **Truthful calls alone do not keep a window consistent.** A window that counts one id after it
does not count a new one; a window that lost its only id does not count down the ids after it; and
a window without a key has more ids than its limits. -/
theorem slice_builder_breaks :
    (∃ ops list b, Trace SparseIdsSliceBuilder.TruthfulStep
      (FlatSet.ofList [10, 60], firstKnown, firstWindow) ops
      (FlatSet.ofList [10, 60, 100], list, b) ∧ b.fullCount = some 3 ∧ b.skippedBefore = some 0 ∧
        b.ids.size = 1 ∧ b.skippedAfter = some 1) ∧
    (∃ ops list b, Trace SparseIdsSliceBuilder.TruthfulStep
      (FlatSet.ofList [10, 60], firstKnown, firstWindow) ops (∅, list, b) ∧
        b.fullCount = some 0 ∧ b.skippedAfter = some 1) ∧
    ∃ ops list b, Trace SparseIdsSliceBuilder.TruthfulStep
      (FlatSet.ofList [1, 2], {}, (SparseIdsSliceBuilder.applyInitial
        { key := 0, limitBefore := 0, limitAfter := 0 }
        (SparseIdsList.snapshot {} { aroundId := 0, limitBefore := 0, limitAfter := 0 })).builder)
      ops (FlatSet.ofList [1, 2], list, b) ∧ b.limitAfter = 0 ∧ (b.ids.filter (0 ≤ ·)).size = 2 := by
  refine ⟨⟨[.addNew 100], _, _, Trace.single (step_of_followed ⟨?_, by decide⟩
    (isServerMsgId_of_list (by decide))), by decide, by decide, by decide, by decide⟩, ?_, ?_⟩
  · intro id hid
    simp only [FlatSet.mem_ofList, List.mem_cons, List.not_mem_nil, or_false] at hid
    unfold MsgId at *
    omega
  · have hfirst : SparseIdsSliceBuilder.TruthfulStep
        (FlatSet.ofList [10, 60], firstKnown, firstWindow) (.removeOne 10)
        (FlatSet.ofList [60], (firstKnown.exec (.removeOne 10)).1,
          firstWindow.follow (.removeOne 10) none) :=
      step_of_followed ⟨by decide, by decide⟩ (isServerMsgId_of_list (by decide))
    have hsecond : SparseIdsSliceBuilder.TruthfulStep
        (FlatSet.ofList [60], (firstKnown.exec (.removeOne 10)).1,
          firstWindow.follow (.removeOne 10) none) (.removeOne 60)
        (∅, ((firstKnown.exec (.removeOne 10)).1.exec (.removeOne 60)).1,
          (firstWindow.follow (.removeOne 10) none).follow (.removeOne 60) none) :=
      step_of_followed ⟨by decide, by decide⟩ (by simp)
    exact ⟨_, _, _, Trace.snoc (Trace.single hfirst) hsecond, by decide, by decide⟩
  · exact ⟨[.addSlice [1, 2] { start := 0, till := 5 } none], _, _, Trace.single (step_of_followed
      (truthful_addSlice {} (by decide) (by decide) (by simp))
      (isServerMsgId_of_list (by decide))), by decide, by decide⟩

end Ids
