import Telegravim.Foundation.Trace
import Telegravim.Ids.Slices

set_option autoImplicit false

/-!
# The sparse list of message ids

`SparseIdsList`: slices of the ids a client knows of a set that the server holds, and the number
of elements of that set when it is known. The set itself is not part of the list; a call of the
list tells something about it.

## Main definitions

* `Ids.SparseIdsList`, `Ids.SparseIdsList.exec` — the list and its calls.
* `Ids.SparseIdsList.Truthful` — calls that tell the truth about the set of the server.
* `Ids.SparseIdsList.Sound` — what a list that was told the truth satisfies.

## Main results

* `Ids.SparseIdsList.Sound.exec` — a truthful call keeps a list sound.
* `Ids.sparse_ids_list_sound` — every list of a run is sound, and so is what it shows.
-/

namespace Ids

abbrev MsgId := ℤ

def ServerMaxMsgId : MsgId := 2 ^ 56

def isServerMsgId (id : MsgId) : Bool := 0 < id && id < ServerMaxMsgId

structure SparseIdsList where
  count : Option ℤ := none
  slices : List (Slice MsgId) := []
deriving DecidableEq

namespace SparseIdsList

def fullRange : Range MsgId := { start := 0, till := ServerMaxMsgId }

/-! ### The calls -/

/-- The shortcuts of `addRange` for a list with one slice: it takes the whole range when it has
as many messages as there are, and the count is its size when it has the whole range. -/
def settle (slices : List (Slice MsgId)) (count : Option ℤ) : SparseIdsList :=
  match slices with
  | [front] =>
    let front :=
      if count.any (· ≤ (front.messages.size : ℤ)) then { front with range := fullRange } else front
    { slices := [front]
      count := if front.range = fullRange then some front.messages.size else count }
  | _ => { slices, count }

def addRange (list : SparseIdsList) (messages : List MsgId) (noSkipRange : Range MsgId)
    (count : Option ℤ) (incrementCount : Bool) : SparseIdsList × SliceUpdate MsgId :=
  if noSkipRange.start = noSkipRange.till ∧ messages = [] then
    let settled := settle list.slices (count.or list.count)
    (settled, { messages := none, range := { start := 0, till := 0 }, count := settled.count })
  else
    let result := addRangeItemsAndCountNew list.slices messages noSkipRange
    let counted := match count with
      | some n => some n
      | none =>
        if incrementCount ∧ 0 < result.added then list.count.map (· + result.added) else list.count
    let settled := settle result.slices counted
    let final := { settled with count := settled.count.map (max · result.slice.messages.size) }
    (final, { messages := some result.slice.messages, range := result.slice.range
              count := final.count })

def addNew (list : SparseIdsList) (messageId : MsgId) : SparseIdsList × SliceUpdate MsgId :=
  list.addRange [messageId] { start := messageId, till := ServerMaxMsgId } none true

def addExisting (list : SparseIdsList) (messageId : MsgId) (noSkipRange : Range MsgId) :
    SparseIdsList × SliceUpdate MsgId :=
  list.addRange [messageId] noSkipRange none false

def addSlice (list : SparseIdsList) (messageIds : List MsgId) (noSkipRange : Range MsgId)
    (count : Option ℤ) : SparseIdsList × SliceUpdate MsgId :=
  list.addRange messageIds noSkipRange count false

def removeOne (list : SparseIdsList) (messageId : MsgId) : SparseIdsList where
  slices := removeMessage list.slices messageId
  count := list.count.map fun n => if 0 < n then n - 1 else n

def removeAll : SparseIdsList where
  slices := [{ messages := ∅, range := fullRange }]
  count := some 0

def invalidateBottom (list : SparseIdsList) : SparseIdsList where
  slices := invalidateLast ServerMaxMsgId list.slices
  count := none

def snapshot (list : SparseIdsList) (query : Query MsgId) : Result MsgId :=
  match if query.aroundId ≠ 0 then findSlice list.slices query.aroundId else none with
  | some slice => queryFromSlice 0 ServerMaxMsgId list.count query slice
  | none => { count := list.count }

inductive Op where
  | addNew (messageId : MsgId)
  | addExisting (messageId : MsgId) (noSkipRange : Range MsgId)
  | addSlice (messageIds : List MsgId) (noSkipRange : Range MsgId) (count : Option ℤ)
  | removeOne (messageId : MsgId)
  | removeAll
  | invalidateBottom

/-- A call, with the update of a slice it sends. -/
def exec (list : SparseIdsList) : Op → SparseIdsList × Option (SliceUpdate MsgId)
  | .addNew messageId => ((list.addNew messageId).1, some (list.addNew messageId).2)
  | .addExisting messageId noSkipRange =>
    ((list.addExisting messageId noSkipRange).1, some (list.addExisting messageId noSkipRange).2)
  | .addSlice messageIds noSkipRange count =>
    ((list.addSlice messageIds noSkipRange count).1,
      some (list.addSlice messageIds noSkipRange count).2)
  | .removeOne messageId => (list.removeOne messageId, none)
  | .removeAll => (removeAll, none)
  | .invalidateBottom => (list.invalidateBottom, none)

/-! ### Truthful calls -/

/-- A call that tells the truth about the set of the server, `S` before the call and `S'` at the
call. Ids may have joined unseen only before `invalidateBottom`, and above what the last slice
knows. -/
def Truthful (list : SparseIdsList) (S S' : FlatSet MsgId) : Op → Prop
  | .addNew messageId => (∀ id ∈ S, id < messageId) ∧ S' = S.insert messageId
  | .addExisting messageId noSkipRange => Truth S S' [messageId] noSkipRange ∧ S' = S
  | .addSlice messageIds noSkipRange count =>
    Truth S S' messageIds noSkipRange ∧ S' = S ∧ ∀ n ∈ count, n = S.size
  | .removeOne messageId => messageId ∈ S ∧ S' = S.remove messageId
  | .removeAll => S' = ∅
  | .invalidateBottom =>
    (∀ id ∈ S, id ∈ S') ∧
      ∀ id ∈ S', id ∈ S ∨ ∀ known ∈ knownTill ServerMaxMsgId list.slices, known < id

/-- A list that knows nothing wrong about a set of the server. -/
structure Sound (S : FlatSet MsgId) (list : SparseIdsList) : Prop where
  ids : ∀ id ∈ S, isServerMsgId id = true
  exact_ : Exact S list.slices
  count : ∀ n ∈ list.count, n = S.size

/-- An update of a slice that tells nothing wrong about a set of the server. -/
structure UpdateSound (S : FlatSet MsgId) (update : SliceUpdate MsgId) : Prop where
  messages : ∀ messages ∈ update.messages, ∀ id,
    id ∈ messages ↔ id ∈ S ∧ update.range.Contains id
  count : ∀ n ∈ update.count, n = S.size

lemma contains_fullRange {id : MsgId} (h : isServerMsgId id = true) : fullRange.Contains id := by
  simp only [isServerMsgId, Bool.and_eq_true, decide_eq_true_eq] at h
  exact ⟨h.1.le, h.2.le⟩

/-- **The shortcuts keep a list sound.** -/
lemma sound_settle {S : FlatSet MsgId} (hids : ∀ id ∈ S, isServerMsgId id = true)
    {slices : List (Slice MsgId)} (hexact : Exact S slices) {count : Option ℤ}
    (hcount : ∀ n ∈ count, n = S.size) : Sound S (settle slices count) := by
  match slices with
  | [] => exact ⟨hids, hexact, hcount⟩
  | _ :: _ :: _ => exact ⟨hids, hexact, hcount⟩
  | [front] =>
    have hfront := hexact.messages front (by simp)
    -- a slice with the whole range has the whole set
    have hwhole : ∀ slice : Slice MsgId, slice.range = fullRange →
        (∀ id, id ∈ slice.messages ↔ id ∈ S ∧ slice.range.Contains id) → slice.messages = S := by
      intro slice hrange hmessages
      apply FlatSet.ext_mem
      intro id
      rw [hmessages, hrange]
      exact ⟨fun h => h.1, fun h => ⟨h, contains_fullRange (hids id h)⟩⟩
    unfold settle
    by_cases hfull : count.any (· ≤ (front.messages.size : ℤ)) = true
    · simp only [hfull, if_true]
      obtain ⟨n, hn, hle⟩ := (Option.any_eq_true _ _).mp hfull
      have hsame : front.messages = S := by
        apply FlatSet.eq_of_subset fun id hid => ((hfront id).mp hid).1
        have := hcount n hn
        simp only [decide_eq_true_eq] at hle
        omega
      refine ⟨hids, ⟨List.pairwise_singleton _ _, ?_, ?_⟩, ?_⟩
      · intro slice hslice
        rw [List.mem_singleton.mp hslice]
        exact (by decide : fullRange.start ≤ fullRange.till)
      · intro slice hslice id
        rw [List.mem_singleton.mp hslice, hsame]
        exact ⟨fun h => ⟨h, contains_fullRange (hids id h)⟩, fun h => h.1⟩
      · simp [hsame]
    · simp only [hfull, Bool.false_eq_true, if_false]
      refine ⟨hids, hexact, fun n hn => ?_⟩
      dsimp only at hn
      split_ifs at hn with hrange
      · rw [← Option.some.inj hn, hwhole front hrange hfront]
      · exact hcount n hn

/-- **`addRange` keeps a list sound** when it is told the truth, and sends a sound update. -/
lemma sound_addRange {S₀ S : FlatSet MsgId} {list : SparseIdsList} (h : Sound S₀ list)
    (hids : ∀ id ∈ S, isServerMsgId id = true) {messages : List MsgId} {noSkipRange : Range MsgId}
    (htruth : Truth S₀ S messages noSkipRange) (count : Option ℤ) (incrementCount : Bool)
    (hcount : ∀ n ∈ count, n = S.size)
    (hsize : count = none → (S.size : ℤ) = S₀.size + if incrementCount ∧
      0 < (addRangeItemsAndCountNew list.slices messages noSkipRange).added then
        (addRangeItemsAndCountNew list.slices messages noSkipRange).added else 0)
    (hnothing : noSkipRange.start = noSkipRange.till ∧ messages = [] → S = S₀) :
    Sound S (list.addRange messages noSkipRange count incrementCount).1 ∧
      UpdateSound S (list.addRange messages noSkipRange count incrementCount).2 := by
  unfold addRange
  split_ifs with hempty
  · rw [hnothing hempty] at hcount hids ⊢
    have hknown : ∀ n ∈ count.or list.count, n = (S₀.size : ℤ) := by
      intro n hn
      cases count with
      | none => exact h.count n hn
      | some m => exact hcount n hn
    have hsettled := sound_settle hids h.exact_ hknown
    exact ⟨hsettled, ⟨by simp, hsettled.count⟩⟩
  · obtain ⟨hexact, hmem⟩ := h.exact_.add htruth
    set result := addRangeItemsAndCountNew list.slices messages noSkipRange with hresult
    have hknown : ∀ n ∈ (match count with
        | some n => some n
        | none => if incrementCount ∧ 0 < result.added then list.count.map (· + result.added)
          else list.count), n = (S.size : ℤ) := by
      cases count with
      | some m => exact hcount
      | none =>
        rw [hsize rfl]
        intro n hn
        simp only at hn
        split_ifs at hn ⊢
        · obtain ⟨m, hm, rfl⟩ := Option.mem_map.mp hn
          rw [h.count m hm]
        · rw [h.count n hn, add_zero]
    have hsettled := sound_settle hids hexact hknown
    have hslice := hexact.messages _ hmem
    -- the slice has no more messages than there are
    have hfinal : ∀ n ∈ (settle result.slices (match count with
        | some n => some n
        | none => if incrementCount ∧ 0 < result.added then list.count.map (· + result.added)
          else list.count)).count.map (max · (result.slice.messages.size : ℤ)),
        n = (S.size : ℤ) := by
      intro n hn
      obtain ⟨m, hm, rfl⟩ := Option.mem_map.mp hn
      rw [hsettled.count m hm]
      have := FlatSet.size_le_of_subset fun id hid => ((hslice id).mp hid).1
      omega
    refine ⟨⟨hids, hsettled.exact_, hfinal⟩, ⟨?_, hfinal⟩⟩
    intro m hm
    obtain rfl := Option.some.inj hm
    exact hslice

/-- A new id is all that the server has from it on. -/
lemma truth_addNew {S : FlatSet MsgId} {messageId : MsgId} (hlast : ∀ id ∈ S, id < messageId)
    (hids : ∀ id ∈ S.insert messageId, isServerMsgId id = true) :
    Truth S (S.insert messageId) [messageId] { start := messageId, till := ServerMaxMsgId } := by
  have hmax : messageId ≤ ServerMaxMsgId := (contains_fullRange (hids messageId (by simp))).2
  refine ⟨hmax, fun id => ?_, fun id => ?_⟩
  · rw [List.mem_singleton, FlatSet.mem_insert]
    constructor
    · rintro rfl
      exact ⟨Or.inl rfl, le_rfl, hmax⟩
    · rintro ⟨hid | hid, hin⟩
      · exact hid
      · exact absurd (hlast id hid) (not_lt.mpr hin.1)
  · rw [FlatSet.mem_insert, List.mem_singleton, or_comm]

/-- **A truthful call keeps a list sound**, and the update it sends is sound. -/
theorem Sound.exec {S S' : FlatSet MsgId} {list : SparseIdsList} (h : Sound S list) (op : Op)
    (htruth : list.Truthful S S' op) (hids : ∀ id ∈ S', isServerMsgId id = true) :
    Sound S' (list.exec op).1 ∧ ∀ update ∈ (list.exec op).2, UpdateSound S' update := by
  cases op with
  | addNew messageId =>
    obtain ⟨hlast, rfl⟩ := htruth
    have hnew : messageId ∉ S := fun hmem => absurd (hlast _ hmem) (lt_irrefl _)
    have htold := truth_addNew hlast hids
    have hadded := h.exact_.added { start := messageId, till := ServerMaxMsgId } rfl hnew
      (Or.inr hlast)
    have hsound := sound_addRange h hids htold none true (by simp)
      (fun _ => by
        rw [hadded, FlatSet.size_insert hnew]
        simp)
      (fun hempty => by simp at hempty)
    refine ⟨hsound.1, fun update hupdate => ?_⟩
    obtain rfl := Option.some.inj hupdate
    exact hsound.2
  | addExisting messageId noSkipRange =>
    obtain ⟨htold, rfl⟩ := htruth
    have hsound := sound_addRange h hids htold none false (by simp)
      (fun _ => by simp) (fun _ => rfl)
    refine ⟨hsound.1, fun update hupdate => ?_⟩
    obtain rfl := Option.some.inj hupdate
    exact hsound.2
  | addSlice messageIds noSkipRange count =>
    obtain ⟨htold, rfl, hcount⟩ := htruth
    have hsound := sound_addRange h hids htold count false hcount
      (fun _ => by simp) (fun _ => rfl)
    refine ⟨hsound.1, fun update hupdate => ?_⟩
    obtain rfl := Option.some.inj hupdate
    exact hsound.2
  | removeOne messageId =>
    obtain ⟨hmem, rfl⟩ := htruth
    refine ⟨⟨hids, h.exact_.remove messageId, fun n hn => ?_⟩, by simp [SparseIdsList.exec]⟩
    obtain ⟨m, hm, rfl⟩ := Option.mem_map.mp hn
    have hsize := FlatSet.size_remove hmem
    rw [h.count m hm]
    split_ifs <;> omega
  | removeAll =>
    obtain rfl : S' = ∅ := htruth
    refine ⟨⟨by simp, ⟨List.pairwise_singleton _ _, ?_, ?_⟩, ?_⟩, by simp [SparseIdsList.exec]⟩
    · intro slice hslice
      rw [List.mem_singleton.mp hslice]
      decide
    · intro slice hslice id
      rw [List.mem_singleton.mp hslice]
      simp
    · simp [SparseIdsList.exec, SparseIdsList.removeAll]
  | invalidateBottom =>
    obtain ⟨hkeep, hjoined⟩ := htruth
    exact ⟨⟨hids, h.exact_.invalidateLast ServerMaxMsgId hkeep hjoined, by
      simp [SparseIdsList.exec, SparseIdsList.invalidateBottom]⟩, by simp [SparseIdsList.exec]⟩

/-- The shortcuts keep what slices hold. -/
lemma held_settle {slices : List (Slice MsgId)} {id : MsgId} (h : Held slices id)
    (count : Option ℤ) : Held (settle slices count).slices id := by
  unfold settle
  split
  · obtain ⟨slice, hslice, hid⟩ := h
    rw [List.mem_singleton.mp hslice] at hid
    refine ⟨_, List.mem_singleton_self _, ?_⟩
    split_ifs <;> exact hid
  · exact h

/-- `addRange` keeps what slices hold, and the list holds what its update tells. -/
lemma held_addRange (list : SparseIdsList) (messages : List MsgId) (noSkipRange : Range MsgId)
    (count : Option ℤ) (incrementCount : Bool) {S : FlatSet MsgId}
    (hexact : Exact S (addRangeItemsAndCountNew list.slices messages noSkipRange).slices ∧
      (addRangeItemsAndCountNew list.slices messages noSkipRange).slice ∈
        (addRangeItemsAndCountNew list.slices messages noSkipRange).slices) {id : MsgId}
    (h : Held list.slices id ∨
      ∃ told ∈ (list.addRange messages noSkipRange count incrementCount).2.messages, id ∈ told) :
    Held (list.addRange messages noSkipRange count incrementCount).1.slices id := by
  unfold addRange at h ⊢
  split_ifs at h ⊢
  · rcases h with h | ⟨told, htold, -⟩
    · exact held_settle h _
    · exact absurd htold (by simp)
  · rcases h with h | ⟨told, htold, hid⟩
    · exact held_settle (h.add messages noSkipRange) _
    · rw [← Option.some.inj htold] at hid
      exact held_settle ⟨_, hexact.2, hid⟩ _

lemma settle_count_eq_none {slices : List (Slice MsgId)} {count : Option ℤ}
    (h : (settle slices count).count = none) : count = none := by
  unfold settle at h
  split at h
  · dsimp only at h
    split_ifs at h <;> exact h
  · exact h

/-- The update of `addRange` has the count of the list, which does not get lost. -/
lemma addRange_count (list : SparseIdsList) (messages : List MsgId) (noSkipRange : Range MsgId)
    (count : Option ℤ) (incrementCount : Bool) :
    (list.addRange messages noSkipRange count incrementCount).2.count =
        (list.addRange messages noSkipRange count incrementCount).1.count ∧
      ((list.addRange messages noSkipRange count incrementCount).1.count = none →
        list.count = none) := by
  unfold addRange
  split_ifs with hempty
  · refine ⟨rfl, fun h => ?_⟩
    have := settle_count_eq_none h
    exact (Option.or_eq_none_iff.mp this).2
  · refine ⟨rfl, fun h => ?_⟩
    have := settle_count_eq_none (Option.map_eq_none_iff.mp h)
    cases count with
    | some n => exact absurd this (by simp)
    | none =>
      dsimp only at this
      split_ifs at this
      · exact Option.map_eq_none_iff.mp this
      · exact this

/-- **A sound list shows blocks of the set.** -/
theorem Sound.snapshot {S : FlatSet MsgId} {list : SparseIdsList} (h : Sound S list)
    (query : Query MsgId) :
    ∃ before after, Around S query.aroundId (list.snapshot query) before after := by
  unfold SparseIdsList.snapshot
  cases hfound : (if query.aroundId ≠ 0 then findSlice list.slices query.aroundId else none) with
  | none => exact around_empty S query.aroundId h.count
  | some slice =>
    have hfind : findSlice list.slices query.aroundId = some slice := by
      split_ifs at hfound
      exact hfound
    obtain ⟨hmem, hin⟩ := findSlice_eq_some hfind
    exact queryFromSlice_shows (h.exact_.messages slice hmem)
      (fun id hid => (contains_fullRange (h.ids id hid)).1)
      (fun id hid => (contains_fullRange (h.ids id hid)).2) h.count query hin

/-- What a query shows has the count of the list, and the list holds the ids. -/
lemma snapshot_held (list : SparseIdsList) (query : Query MsgId) :
    (list.snapshot query).count = list.count ∧
      ∀ id ∈ (list.snapshot query).messageIds, Held list.slices id := by
  unfold snapshot
  split
  · rename_i slice hfound
    have hfind : findSlice list.slices query.aroundId = some slice := by
      split_ifs at hfound
      exact hfound
    obtain ⟨hmem, -⟩ := findSlice_eq_some hfind
    obtain ⟨hcount, hids⟩ := queryFromSlice_mem 0 ServerMaxMsgId list.count query slice
    exact ⟨hcount, fun id hid => ⟨slice, hmem, hids id hid⟩⟩
  · exact ⟨rfl, fun id hid => absurd hid (FlatSet.not_mem_empty id)⟩

/-- The update of a new id tells it. -/
lemma mem_update_addNew (list : SparseIdsList) (messageId : MsgId) :
    ∃ messages, (list.addNew messageId).2.messages = some messages ∧ messageId ∈ messages := by
  unfold addNew addRange
  rw [if_neg (by simp)]
  exact ⟨_, rfl, mem_slice_added list.slices { start := messageId, till := ServerMaxMsgId } (by simp)⟩

/-! ### Runs -/

/-- One call of a run: the set of the server and the list before and after it. -/
def Step (before : FlatSet MsgId × SparseIdsList) (op : Op)
    (after : FlatSet MsgId × SparseIdsList) : Prop :=
  before.2.Truthful before.1 after.1 op ∧ (∀ id ∈ after.1, isServerMsgId id = true) ∧
    after.2 = (before.2.exec op).1

end SparseIdsList

/-- **The sparse list of message ids is sound.** After every run of truthful calls the slices are
in order and apart, hold exactly what the server has in their ranges, the count is right when it
is set, and every query shows consecutive ids with the exact numbers of ids before and after
them. -/
theorem sparse_ids_list_sound (S₀ S : FlatSet MsgId)
    (hids : ∀ id ∈ S₀, isServerMsgId id = true) (list : SparseIdsList)
    (ops : List SparseIdsList.Op) (hrun : Trace SparseIdsList.Step (S₀, {}) ops (S, list)) :
    (list.slices.Pairwise fun a b => a.range.till < b.range.start) ∧
      (∀ slice ∈ list.slices, slice.range.start ≤ slice.range.till ∧
        ∀ id, id ∈ slice.messages ↔ id ∈ S ∧ slice.range.start ≤ id ∧ id ≤ slice.range.till) ∧
      (∀ n ∈ list.count, n = S.size) ∧
      ∀ query : Query MsgId, ∃ before after : List MsgId,
        S.elems = before ++ (list.snapshot query).messageIds.elems ++ after ∧
        (∀ id ∈ before, id < query.aroundId) ∧ (∀ id ∈ after, query.aroundId ≤ id) ∧
        (∀ n ∈ (list.snapshot query).count, n = S.size) ∧
        (∀ n ∈ (list.snapshot query).skippedBefore, n = before.length) ∧
        ∀ n ∈ (list.snapshot query).skippedAfter, n = after.length := by
  have hsound : SparseIdsList.Sound S list := by
    refine hrun.invariant (P := fun _ state => SparseIdsList.Sound state.1 state.2)
      ⟨hids, exact_nil S₀, by simp⟩ ?_
    rintro - ⟨S, list⟩ op ⟨S', list'⟩ h ⟨htruth, hids', hafter⟩
    have := (h.exec op htruth hids').1
    exact hafter ▸ this
  refine ⟨hsound.exact_.apart, fun slice hslice => ⟨hsound.exact_.start_le slice hslice,
    hsound.exact_.messages slice hslice⟩, hsound.count, fun query => ?_⟩
  obtain ⟨before, after, h⟩ := hsound.snapshot query
  exact ⟨before, after, h.split, h.below, h.above, h.count, h.skippedBefore, h.skippedAfter⟩

/-- A list that was told two of three ids and then a new one. -/
def partialList : SparseIdsList :=
  ((SparseIdsList.addSlice {} [3, 5] { start := 0, till := 6 } (some 3)).1.addNew 12).1

lemma partialList_run : Trace SparseIdsList.Step (FlatSet.ofList [3, 5, 9], {})
    [.addSlice [3, 5] { start := 0, till := 6 } (some 3), .addNew 12]
    (FlatSet.ofList [3, 5, 9, 12], partialList) := by
  have hserver : ∀ id ∈ FlatSet.ofList [3, 5, 9, (12 : MsgId)], isServerMsgId id = true := by
    intro id hid
    simp only [FlatSet.mem_ofList, List.mem_cons, List.not_mem_nil, or_false] at hid
    rcases hid with rfl | rfl | rfl | rfl <;> decide
  have hslice : Trace SparseIdsList.Step (FlatSet.ofList [3, 5, 9], {})
      [.addSlice [3, 5] { start := 0, till := 6 } (some 3)]
      (FlatSet.ofList [3, 5, 9],
        (SparseIdsList.addSlice {} [3, 5] { start := 0, till := 6 } (some 3)).1) := by
    refine Trace.single ⟨⟨⟨by decide, fun id => ?_, fun id => ?_⟩, rfl, ?_⟩, fun id hid => ?_, rfl⟩
    · simp only [FlatSet.mem_ofList, List.mem_cons, List.not_mem_nil, or_false, Range.Contains]
      unfold MsgId at *
      omega
    · simp only [FlatSet.mem_ofList, List.mem_cons, List.not_mem_nil, or_false]
      unfold MsgId at *
      omega
    · rintro n hn
      obtain rfl := Option.some.inj hn
      decide
    · apply hserver
      simp only [FlatSet.mem_ofList, List.mem_cons, List.not_mem_nil, or_false] at hid ⊢
      unfold MsgId at *
      omega
  refine Trace.snoc hslice ⟨⟨fun id hid => ?_, by decide⟩, hserver, rfl⟩
  simp only [FlatSet.mem_ofList, List.mem_cons, List.not_mem_nil, or_false] at hid
  unfold MsgId at *
  omega

/-- The list of two known ranges shows the two ids around one of them, with two ids after. -/
theorem partialList_sound :
    ∃ before after : List MsgId,
      (FlatSet.ofList [3, 5, 9, 12]).elems = before ++
        (partialList.snapshot { aroundId := 5, limitBefore := 1, limitAfter := 1 }).messageIds.elems
          ++ after ∧
      (partialList.snapshot { aroundId := 5, limitBefore := 1, limitAfter := 1 }).skippedAfter =
        some 2 ∧ (2 : ℤ) = after.length := by
  obtain ⟨-, -, -, hsnapshot⟩ := sparse_ids_list_sound (FlatSet.ofList [3, 5, 9])
    (FlatSet.ofList [3, 5, 9, 12]) (fun id hid => by
      simp only [FlatSet.mem_ofList, List.mem_cons, List.not_mem_nil, or_false] at hid
      rcases hid with rfl | rfl | rfl <;> decide) partialList _ partialList_run
  obtain ⟨before, after, hsplit, -, -, -, -, hafter⟩ :=
    hsnapshot { aroundId := 5, limitBefore := 1, limitAfter := 1 }
  have hskipped : (partialList.snapshot
      { aroundId := 5, limitBefore := 1, limitAfter := 1 }).skippedAfter = some 2 := by
    decide
  exact ⟨before, after, hsplit, hskipped, hafter 2 (by rw [hskipped]; rfl)⟩

end Ids
