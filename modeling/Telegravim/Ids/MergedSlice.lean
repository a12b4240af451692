import Telegravim.Ids.SparseIdsList

set_option autoImplicit false

/-!
# The slice of a chat and its predecessor

`SparseIdsMergedSlice`: a chat that was migrated shows the ids of its predecessor before its own. Each of the
two slices may stop short of the seam between them; the one that the universal id is in is then shown alone.

## Main definitions

* `Ids.AbstractSparseIds`, `Ids.SparseIdsSlice` — the ids that are shown of a set, and the counts.
* `Ids.SparseIdsMergedSlice` — two slices, or one that is not sorted.
* `Ids.SparseIdsMergedSlice.shown` — what is shown, as one list.
* `Ids.SparseIdsMergedSlice.Coherent` — the index of an id, the id at an index and the counts agree.
* `Ids.SparseIdsMergedSlice.IndicesShown` — every id that has an index is shown.

## Main results

* `Ids.SparseIdsMergedSlice.counts_add_up` — the counts add up, whatever is shown.
* `Ids.SparseIdsMergedSlice.coherent_iff` — exactly when a merged slice is coherent.
* `Ids.SparseIdsMergedSlice.indexOf_past_end` — an id that has an index and is not shown.
-/

namespace Ids

/-! ### Slices -/

structure AbstractSparseIds where
  ids : List MsgId := []
  fullCount : Option ℤ := none
  skippedBefore : Option ℤ := none
  skippedAfter : Option ℤ := none
  deriving DecidableEq

namespace AbstractSparseIds

def size (slice : AbstractSparseIds) : ℕ := slice.ids.length

def indexOf (slice : AbstractSparseIds) (id : MsgId) : Option ℕ :=
  if id ∈ slice.ids then some (slice.ids.idxOf id) else none

def get (slice : AbstractSparseIds) (index : ℕ) : Option MsgId := slice.ids[index]?

/-- In a list without repetitions an index is a place. -/
lemma indexOf_eq_some_iff {slice : AbstractSparseIds} (h : slice.ids.Nodup) {id : MsgId} {index : ℕ} :
    slice.indexOf id = some index ↔ slice.ids[index]? = some id := by
  unfold indexOf
  constructor
  · intro hindex
    split_ifs at hindex with hmem
    obtain rfl := Option.some.inj hindex
    have hlt := List.idxOf_lt_length_of_mem hmem
    rw [List.getElem?_eq_getElem hlt, List.getElem_idxOf]
  · intro hindex
    obtain ⟨hlt, rfl⟩ := List.getElem?_eq_some_iff.mp hindex
    rw [if_pos (List.getElem_mem hlt), h.idxOf_getElem]

/-- No id is there twice, and the counts that are known add up. -/
structure Coherent (slice : AbstractSparseIds) : Prop where
  nodup : slice.ids.Nodup
  counts : ∀ ⦃before after full : ℤ⦄, slice.skippedBefore = some before →
    slice.skippedAfter = some after → slice.fullCount = some full → before + slice.size + after = full

end AbstractSparseIds

/-- A slice of ids in order. -/
structure SparseIdsSlice extends AbstractSparseIds where
  sorted : ids.Pairwise (· < ·)

structure FullMsgId where
  peer : ℕ
  msg : MsgId
  deriving DecidableEq

namespace SparseIdsMergedSlice

structure Key where
  peerId : ℕ
  topicRootId : MsgId := 0
  monoforumPeerId : ℕ := 0
  migratedPeerId : ℕ := 0
  universalId : MsgId
  deriving DecidableEq

end SparseIdsMergedSlice

/-- A universal id that is not zero is of the chat itself, or of a predecessor that is there. -/
structure SparseIdsMergedSlice where
  key : SparseIdsMergedSlice.Key
  part : SparseIdsSlice := ⟨{}, List.Pairwise.nil⟩
  migrated : Option SparseIdsSlice := none
  unsorted : Option AbstractSparseIds := none
  defined : unsorted.isSome ∨ isServerMsgId key.universalId = true ∨ migrated.isSome

namespace SparseIdsMergedSlice

/-- `Add`. -/
def add (a b : Option ℤ) : Option ℤ := a.bind fun x => b.map fun y => x + y

lemma add_eq_some {a b : Option ℤ} {sum : ℤ} :
    add a b = some sum ↔ ∃ x y, a = some x ∧ b = some y ∧ x + y = sum := by
  cases a <;> cases b <;> simp [add]

variable (slice : SparseIdsMergedSlice)

/-! ### The functions -/

def isFromPart (fullId : FullMsgId) : Bool := slice.key.peerId = fullId.peer

def isFromMigrated (fullId : FullMsgId) : Bool :=
  slice.migrated.isSome && decide (slice.key.migratedPeerId = fullId.peer)

/-- The ids of the predecessor, without any when there is none. -/
def migratedIds : List MsgId := slice.migrated.elim [] fun migrated => migrated.ids

def isolatedInPart : Bool :=
  isServerMsgId slice.key.universalId && (slice.migrated.isNone || decide (slice.part.skippedBefore ≠ some 0))

/-- A predecessor is there whenever its ids are universal ids. -/
def isolatedInMigrated : Bool :=
  isServerMsgId (ServerMaxMsgId + slice.key.universalId) &&
    slice.migrated.any fun migrated => decide (migrated.skippedAfter ≠ some 0)

def migratedSize : ℕ := if slice.isolatedInPart then 0 else slice.migratedIds.length

def fullCount : Option ℤ :=
  match slice.unsorted with
  | some unsorted => unsorted.fullCount
  | none => add slice.part.fullCount (slice.migrated.elim (some 0) fun migrated => migrated.fullCount)

def skippedBefore : Option ℤ :=
  match slice.unsorted with
  | some unsorted => unsorted.skippedBefore
  | none => add (if slice.isolatedInMigrated then some 0 else slice.part.skippedBefore)
      (slice.migrated.elim (some 0) fun migrated =>
        if slice.isolatedInPart then migrated.fullCount else migrated.skippedBefore)

def skippedAfter : Option ℤ :=
  match slice.unsorted with
  | some unsorted => unsorted.skippedAfter
  | none => add (if slice.isolatedInMigrated then slice.part.fullCount else slice.part.skippedAfter)
      (if slice.isolatedInPart then some 0 else slice.migrated.bind fun migrated => migrated.skippedAfter)

def indexOf (fullId : FullMsgId) : Option ℕ :=
  match slice.unsorted with
  | some unsorted => unsorted.indexOf fullId.msg
  | none =>
    if slice.isFromPart fullId then (slice.part.indexOf fullId.msg).map (slice.migratedSize + ·)
    else if slice.isolatedInPart then none
    else if slice.isFromMigrated fullId then
      slice.migrated.bind fun migrated => migrated.indexOf fullId.msg
    else none

def size : ℕ :=
  match slice.unsorted with
  | some unsorted => unsorted.size
  | none => (if slice.isolatedInPart then 0 else slice.migratedSize) +
      (if slice.isolatedInMigrated then 0 else slice.part.size)

/-- `operator[]`, for the indices that it expects. -/
def get (index : ℕ) : Option FullMsgId :=
  if index < slice.size then
    match slice.unsorted with
    | some unsorted => (unsorted.get index).map (FullMsgId.mk slice.key.peerId)
    | none =>
      if index < slice.migratedSize then
        (slice.migratedIds[index]?).map (FullMsgId.mk slice.key.migratedPeerId)
      else (slice.part.get (index - slice.migratedSize)).map (FullMsgId.mk slice.key.peerId)
  else none

/-! ### What is shown -/

/-- What is shown, as one list. -/
def shown : List FullMsgId :=
  match slice.unsorted with
  | some unsorted => unsorted.ids.map (FullMsgId.mk slice.key.peerId)
  | none =>
    (if slice.isolatedInPart then [] else slice.migratedIds.map (FullMsgId.mk slice.key.migratedPeerId)) ++
      (if slice.isolatedInMigrated then [] else slice.part.ids.map (FullMsgId.mk slice.key.peerId))

/-- The index of an id, the id at an index and the counts agree. -/
structure Coherent : Prop where
  indexOf_get : ∀ ⦃index fullId⦄, slice.get index = some fullId → slice.indexOf fullId = some index
  get_indexOf : ∀ ⦃index fullId⦄, slice.indexOf fullId = some index →
    index < slice.size ∧ slice.get index = some fullId
  get_isSome : ∀ index < slice.size, (slice.get index).isSome
  distinct : ∀ ⦃i j⦄, i < slice.size → j < slice.size → slice.get i = slice.get j → i = j
  migrated_first : ∀ ⦃i j fullId other⦄, i < j → slice.get i = some fullId → slice.get j = some other →
    slice.isFromMigrated other → slice.isFromMigrated fullId
  counts : ∀ ⦃before after full : ℤ⦄, slice.skippedBefore = some before →
    slice.skippedAfter = some after → slice.fullCount = some full → before + slice.size + after = full

variable {slice}

/-- A universal id is not of the chat and of its predecessor. -/
lemma not_isolated_twice (h : slice.isolatedInPart = true) : slice.isolatedInMigrated = false := by
  have hpart : isServerMsgId slice.key.universalId = true := by
    unfold isolatedInPart at h
    exact (Bool.and_eq_true_iff.mp h).1
  have hnot : isServerMsgId (ServerMaxMsgId + slice.key.universalId) = false := by
    unfold isServerMsgId at hpart ⊢
    simp only [Bool.and_eq_true, decide_eq_true_eq] at hpart
    simp only [Bool.and_eq_false_iff, decide_eq_false_iff_not]
    exact Or.inr (not_lt.mpr (Int.le_add_of_nonneg_right hpart.1.le))
  unfold isolatedInMigrated
  rw [hnot, Bool.false_and]

/-- Without its own part alone, a slice has a predecessor. -/
lemma migrated_isSome (hunsorted : slice.unsorted = none) (h : slice.isolatedInPart = false) :
    ∃ migrated, slice.migrated = some migrated := by
  rcases hmigrated : slice.migrated with _ | migrated
  · have hdefined := slice.defined
    rw [hunsorted, hmigrated] at hdefined
    simp only [Option.isSome_none, Bool.false_eq_true, false_or, or_false] at hdefined
    unfold isolatedInPart at h
    rw [hdefined, hmigrated] at h
    cases h
  · exact ⟨migrated, rfl⟩

lemma size_eq_length_shown : slice.size = slice.shown.length := by
  unfold size shown migratedSize
  cases slice.unsorted with
  | some unsorted => exact (List.length_map _).symm
  | none =>
    rw [List.length_append]
    dsimp only
    congr 1
    · split_ifs
      · rfl
      · rw [List.length_map]
    · split_ifs
      · rfl
      · rw [List.length_map]
        rfl

lemma get_eq_shown (index : ℕ) : slice.get index = slice.shown[index]? := by
  unfold get
  rw [size_eq_length_shown]
  rcases Nat.lt_or_ge index slice.shown.length with hindex | hindex
  · rw [if_pos hindex]
    unfold shown at hindex ⊢
    cases hunsorted : slice.unsorted with
    | some unsorted =>
      dsimp only
      rw [List.getElem?_map]
      rfl
    | none =>
      rw [hunsorted] at hindex
      dsimp only at hindex ⊢
      unfold migratedSize
      cases hpart : slice.isolatedInPart with
      | true =>
        rw [not_isolated_twice hpart, if_pos rfl, if_pos rfl, if_neg Bool.false_ne_true,
          if_neg (Nat.not_lt_zero _), Nat.sub_zero, List.nil_append, List.getElem?_map]
        rfl
      | false =>
        rw [if_neg Bool.false_ne_true, if_neg Bool.false_ne_true]
        split_ifs with hbefore hisolated hisolated
        · rw [List.append_nil, List.getElem?_map]
        · rw [List.getElem?_append_left (by rw [List.length_map]; exact hbefore), List.getElem?_map]
        · rw [hpart, hisolated, if_neg Bool.false_ne_true, if_pos rfl, List.append_nil,
            List.length_map] at hindex
          exact absurd hindex hbefore
        · rw [List.getElem?_append_right (by rw [List.length_map]; omega), List.getElem?_map,
            List.length_map]
          rfl
  · rw [if_neg (not_lt.mpr hindex), List.getElem?_eq_none hindex]

/-- The counts that are known add up, whatever is shown.

**Proof sketch.** A slice that is not shown counts with all its ids among those skipped: the predecessor
before, when the chat is alone, and the chat after, when the predecessor is. -/
lemma counts_add_up (hpart : slice.part.Coherent)
    (hmigrated : ∀ migrated ∈ slice.migrated, migrated.Coherent)
    (hunsorted : ∀ unsorted ∈ slice.unsorted, unsorted.Coherent) ⦃before after full : ℤ⦄
    (hbefore : slice.skippedBefore = some before) (hafter : slice.skippedAfter = some after)
    (hfull : slice.fullCount = some full) : before + slice.size + after = full := by
  unfold skippedBefore at hbefore
  unfold skippedAfter at hafter
  unfold fullCount at hfull
  unfold size migratedSize migratedIds
  rcases hslice : slice.unsorted with _ | unsorted
  · rw [hslice] at hbefore hafter hfull
    dsimp only at hbefore hafter hfull ⊢
    obtain ⟨partFull, migratedFull, hpartFull, hmigratedFull, rfl⟩ := add_eq_some.mp hfull
    obtain ⟨partBefore, migratedBefore, hpartBefore, hmigratedBefore, rfl⟩ := add_eq_some.mp hbefore
    obtain ⟨partAfter, migratedAfter, hpartAfter, hmigratedAfter, rfl⟩ := add_eq_some.mp hafter
    cases hisolated : slice.isolatedInPart with
    | true =>
      rw [not_isolated_twice hisolated, if_neg Bool.false_ne_true] at hpartBefore hpartAfter
      rw [hisolated, if_pos rfl, Option.some.injEq] at hmigratedAfter
      have hsame : migratedBefore = migratedFull := by
        rw [hisolated] at hmigratedBefore
        cases hnone : slice.migrated <;> rw [hnone] at hmigratedBefore hmigratedFull <;>
          exact Option.some.inj (hmigratedBefore.symm.trans hmigratedFull)
      have hcounts := hpart.counts hpartBefore hpartAfter hpartFull
      rw [not_isolated_twice hisolated, if_pos rfl, if_neg Bool.false_ne_true]
      push_cast
      omega
    | false =>
      obtain ⟨migrated, hsome⟩ := migrated_isSome hslice hisolated
      rw [hisolated, if_neg Bool.false_ne_true, hsome, Option.bind_some] at hmigratedAfter
      rw [hsome, hisolated] at hmigratedBefore
      rw [hsome] at hmigratedFull
      have hmigratedCounts := (hmigrated migrated hsome).counts hmigratedBefore hmigratedAfter hmigratedFull
      rw [hsome]
      rw [if_neg Bool.false_ne_true, if_neg Bool.false_ne_true]
      cases halone : slice.isolatedInMigrated with
      | true =>
        rw [halone, if_pos rfl] at hpartBefore hpartAfter
        have hzero := Option.some.inj hpartBefore
        have hsame := Option.some.inj (hpartAfter.symm.trans hpartFull)
        rw [if_pos rfl]
        unfold AbstractSparseIds.size at hmigratedCounts
        simp only [Option.elim_some]
        push_cast
        omega
      | false =>
        rw [halone, if_neg Bool.false_ne_true] at hpartBefore hpartAfter
        have hpartCounts := hpart.counts hpartBefore hpartAfter hpartFull
        rw [if_neg Bool.false_ne_true]
        unfold AbstractSparseIds.size at hmigratedCounts
        simp only [Option.elim_some]
        push_cast
        omega
  · rw [hslice] at hbefore hafter hfull
    exact (hunsorted unsorted hslice).counts hbefore hafter hfull

/-! ### When a slice is coherent -/

/-- Every id that has an index is shown: the ids of the chat are not passed over while its predecessor is
alone, the two are not of the same peer, and a slice that is not sorted has no ids that another peer may
share. -/
def IndicesShown (slice : SparseIdsMergedSlice) : Prop :=
  match slice.unsorted with
  | some unsorted => unsorted.ids = []
  | none => (slice.isolatedInMigrated = true → slice.part.ids = []) ∧
      (slice.isolatedInPart = true ∨ slice.migratedIds = [] ∨ slice.key.peerId ≠ slice.key.migratedPeerId)

lemma mem_map_mk {peer : ℕ} {ids : List MsgId} {fullId : FullMsgId} :
    fullId ∈ ids.map (FullMsgId.mk peer) ↔ peer = fullId.peer ∧ fullId.msg ∈ ids := by
  constructor
  · intro h
    obtain ⟨msg, hmsg, rfl⟩ := List.mem_map.mp h
    exact ⟨rfl, hmsg⟩
  · rintro ⟨rfl, hmsg⟩
    exact List.mem_map.mpr ⟨fullId.msg, hmsg, rfl⟩

/-- The ids of a peer that are shown from an index on. -/
lemma getElem?_append_map {first second : List MsgId} {firstPeer secondPeer : ℕ} {index : ℕ}
    {fullId : FullMsgId} :
    (first.map (FullMsgId.mk firstPeer) ++ second.map (FullMsgId.mk secondPeer))[index]? = some fullId ↔
      (firstPeer = fullId.peer ∧ first[index]? = some fullId.msg) ∨
        (secondPeer = fullId.peer ∧ ∃ place, index = first.length + place ∧
          second[place]? = some fullId.msg) := by
  have hmk : ∀ (peer : ℕ) (id : Option MsgId), id.map (FullMsgId.mk peer) = some fullId ↔
      peer = fullId.peer ∧ id = some fullId.msg := by
    intro peer id
    rw [Option.map_eq_some_iff]
    constructor
    · rintro ⟨msg, rfl, rfl⟩
      exact ⟨rfl, rfl⟩
    · rintro ⟨rfl, rfl⟩
      exact ⟨fullId.msg, rfl, rfl⟩
  rcases Nat.lt_or_ge index first.length with hfirst | hsecond
  · rw [List.getElem?_append_left (by rw [List.length_map]; exact hfirst), List.getElem?_map, hmk]
    constructor
    · exact Or.inl
    · rintro (h | ⟨-, place, rfl, -⟩)
      · exact h
      · omega
  · rw [List.getElem?_append_right (by rw [List.length_map]; exact hsecond), List.getElem?_map, hmk,
      List.length_map]
    constructor
    · rintro ⟨hpeer, hplace⟩
      exact Or.inr ⟨hpeer, index - first.length, by omega, hplace⟩
    · rintro (⟨-, h⟩ | ⟨hpeer, place, rfl, hplace⟩)
      · rw [List.getElem?_eq_none hsecond] at h
        cases h
      · rw [Nat.add_sub_cancel_left]
        exact ⟨hpeer, hplace⟩

/-- What an index in the ids of the chat means for the whole slice. -/
lemma map_indexOf_eq_some_iff {part : AbstractSparseIds} (hnodup : part.ids.Nodup) {before index : ℕ}
    {id : MsgId} : (part.indexOf id).map (before + ·) = some index ↔
      ∃ place, index = before + place ∧ part.ids[place]? = some id := by
  rw [Option.map_eq_some_iff]
  constructor
  · rintro ⟨place, hplace, rfl⟩
    exact ⟨place, rfl, (AbstractSparseIds.indexOf_eq_some_iff hnodup).mp hplace⟩
  · rintro ⟨place, rfl, hplace⟩
    exact ⟨place, (AbstractSparseIds.indexOf_eq_some_iff hnodup).mpr hplace, rfl⟩

/-- Ids that have an index are shown there, and no others. -/
lemma indexOf_eq_some_iff (h : slice.IndicesShown) (hpart : slice.part.ids.Nodup)
    (hmigrated : ∀ migrated ∈ slice.migrated, migrated.ids.Nodup) {fullId : FullMsgId} {index : ℕ} :
    slice.indexOf fullId = some index ↔ slice.shown[index]? = some fullId := by
  unfold IndicesShown at h
  unfold indexOf shown isFromPart isFromMigrated migratedSize
  rcases hunsorted : slice.unsorted with _ | unsorted
  · rw [hunsorted] at h
    obtain ⟨halone, hpeers⟩ := h
    dsimp only
    cases hisolated : slice.isolatedInPart with
    | true =>
      have hshown := @getElem?_append_map [] slice.part.ids slice.key.migratedPeerId slice.key.peerId
        index fullId
      rw [not_isolated_twice hisolated, if_pos rfl, if_pos rfl, if_pos rfl, if_neg Bool.false_ne_true]
      rw [List.map_nil] at hshown
      rw [hshown]
      by_cases hpeer : slice.key.peerId = fullId.peer
      · rw [decide_eq_true hpeer, if_pos rfl, map_indexOf_eq_some_iff hpart]
        simp [hpeer]
      · rw [decide_eq_false hpeer, if_neg Bool.false_ne_true]
        simp [hpeer]
    | false =>
      obtain ⟨migrated, hsome⟩ := migrated_isSome hunsorted hisolated
      have hids : slice.migratedIds = migrated.ids := by
        unfold migratedIds
        rw [hsome, Option.elim_some]
      have hsecond : (if slice.isolatedInMigrated = true then []
          else slice.part.ids.map (FullMsgId.mk slice.key.peerId)) =
          slice.part.ids.map (FullMsgId.mk slice.key.peerId) := by
        split_ifs with hisolatedMigrated
        · rw [halone hisolatedMigrated, List.map_nil]
        · rfl
      rw [hids] at hpeers ⊢
      rw [if_neg Bool.false_ne_true, if_neg Bool.false_ne_true, if_neg Bool.false_ne_true, hsecond,
        getElem?_append_map, hsome, Option.isSome_some, Bool.true_and, Option.bind_some]
      by_cases hpeer : slice.key.peerId = fullId.peer
      · rw [decide_eq_true hpeer, if_pos rfl, map_indexOf_eq_some_iff hpart]
        constructor
        · intro hplace
          exact Or.inr ⟨hpeer, hplace⟩
        · rintro (⟨hmigratedPeer, hplace⟩ | ⟨-, hplace⟩)
          · rcases hpeers with hpeers | hpeers | hpeers
            · rw [hisolated] at hpeers
              cases hpeers
            · rw [hpeers] at hplace
              cases hplace
            · exact absurd (hpeer.trans hmigratedPeer.symm) hpeers
          · exact hplace
      · rw [decide_eq_false hpeer, if_neg Bool.false_ne_true]
        by_cases hmigratedPeer : slice.key.migratedPeerId = fullId.peer
        · rw [decide_eq_true hmigratedPeer, if_pos rfl,
            AbstractSparseIds.indexOf_eq_some_iff (hmigrated migrated hsome)]
          simp [hpeer, hmigratedPeer]
        · rw [decide_eq_false hmigratedPeer, if_neg Bool.false_ne_true]
          simp [hpeer, hmigratedPeer]
  · rw [hunsorted] at h
    dsimp only at h ⊢
    unfold AbstractSparseIds.indexOf
    rw [h]
    simp

/-- What is shown has no repetitions when every id that has an index is shown. -/
lemma nodup_shown (h : slice.IndicesShown) (hpart : slice.part.ids.Nodup)
    (hmigrated : ∀ migrated ∈ slice.migrated, migrated.ids.Nodup) : slice.shown.Nodup := by
  rw [List.nodup_iff_injective_getElem]
  rintro ⟨i, hi⟩ ⟨j, hj⟩ hij
  have hget : ∀ k (hk : k < slice.shown.length), slice.indexOf slice.shown[k] = some k := fun k hk =>
    (indexOf_eq_some_iff h hpart hmigrated).mpr (List.getElem?_eq_getElem hk)
  have hi' := hget i hi
  have hj' := hget j hj
  dsimp only at hij
  rw [hij, hj', Option.some.injEq] at hi'
  exact Fin.ext hi'.symm

/-- The ids of the predecessor are shown first. -/
lemma migrated_first_of_indicesShown (h : slice.IndicesShown) {i j : ℕ} {fullId other : FullMsgId}
    (hij : i < j) (hi : slice.shown[i]? = some fullId) (hj : slice.shown[j]? = some other)
    (hother : slice.isFromMigrated other = true) : slice.isFromMigrated fullId = true := by
  unfold IndicesShown at h
  unfold isFromMigrated at hother ⊢
  rw [Bool.and_eq_true_iff, decide_eq_true_eq] at hother ⊢
  obtain ⟨hsome, hother⟩ := hother
  refine ⟨hsome, ?_⟩
  unfold shown at hi hj
  rcases hunsorted : slice.unsorted with _ | unsorted
  · rw [hunsorted] at h hi hj
    obtain ⟨halone, hpeers⟩ := h
    dsimp only at hi hj
    cases hisolated : slice.isolatedInPart with
    | true =>
      rw [hisolated, not_isolated_twice hisolated, if_pos rfl, if_neg Bool.false_ne_true,
        List.nil_append] at hi hj
      obtain ⟨hpeer, -⟩ := mem_map_mk.mp (List.mem_of_getElem? hi)
      obtain ⟨hotherPeer, -⟩ := mem_map_mk.mp (List.mem_of_getElem? hj)
      rw [hother, ← hotherPeer, hpeer]
    | false =>
      have hsecond : (if slice.isolatedInMigrated = true then []
          else slice.part.ids.map (FullMsgId.mk slice.key.peerId)) =
          slice.part.ids.map (FullMsgId.mk slice.key.peerId) := by
        split_ifs with hisolatedMigrated
        · rw [halone hisolatedMigrated, List.map_nil]
        · rfl
      rw [hisolated, if_neg Bool.false_ne_true, hsecond, getElem?_append_map] at hi hj
      rcases hi with ⟨hpeer, -⟩ | ⟨hpeer, place, rfl, -⟩
      · exact hpeer
      · rcases hj with ⟨-, hplace⟩ | ⟨hotherPeer, -⟩
        · rw [List.getElem?_eq_none (by omega)] at hplace
          cases hplace
        · rw [hother, ← hotherPeer, hpeer]
  · rw [hunsorted] at h hi
    dsimp only at h hi
    rw [h] at hi
    cases hi

/-- A slice in which every id that has an index is shown is coherent. -/
lemma coherent_of_indicesShown (h : slice.IndicesShown) (hpart : slice.part.Coherent)
    (hmigrated : ∀ migrated ∈ slice.migrated, migrated.Coherent)
    (hunsorted : ∀ unsorted ∈ slice.unsorted, unsorted.Coherent) : slice.Coherent := by
  have hindex : ∀ {fullId : FullMsgId} {index : ℕ},
      slice.indexOf fullId = some index ↔ slice.shown[index]? = some fullId :=
    indexOf_eq_some_iff h hpart.nodup fun migrated hmem => (hmigrated migrated hmem).nodup
  have hnodup := nodup_shown h hpart.nodup fun migrated hmem => (hmigrated migrated hmem).nodup
  constructor
  · intro index fullId hget
    rw [get_eq_shown] at hget
    exact hindex.mpr hget
  · intro index fullId hfound
    have hshown := hindex.mp hfound
    rw [size_eq_length_shown, get_eq_shown]
    exact ⟨(List.getElem?_eq_some_iff.mp hshown).1, hshown⟩
  · intro index hlt
    rw [size_eq_length_shown] at hlt
    rw [get_eq_shown, List.getElem?_eq_getElem hlt]
    rfl
  · intro i j hi hj hij
    rw [size_eq_length_shown] at hi hj
    rw [get_eq_shown, get_eq_shown, List.getElem?_eq_getElem hi, List.getElem?_eq_getElem hj,
      Option.some.injEq] at hij
    exact (hnodup.getElem_inj_iff).mp hij
  · intro i j fullId other hij hi hj hother
    rw [get_eq_shown] at hi hj
    exact migrated_first_of_indicesShown h hij hi hj hother
  · exact counts_add_up hpart hmigrated hunsorted

/-- In a coherent slice every id that has an index is shown. -/
lemma indicesShown_of_coherent (hpart : slice.part.ids.Nodup)
    (hunsorted : ∀ unsorted ∈ slice.unsorted, unsorted.ids.Nodup) (h : slice.Coherent) :
    slice.IndicesShown := by
  unfold IndicesShown
  rcases hslice : slice.unsorted with _ | unsorted
  · dsimp only
    constructor
    · intro halone
      by_contra hids
      obtain ⟨msg, rest, hcons⟩ := List.exists_cons_of_ne_nil hids
      have hnotPart : slice.isolatedInPart = false := by
        by_contra hisolated
        rw [not_isolated_twice (Bool.eq_true_of_not_eq_false hisolated)] at halone
        cases halone
      have hfirst : slice.part.indexOf msg = some 0 := by
        rw [AbstractSparseIds.indexOf_eq_some_iff hpart, hcons]
        rfl
      have hfound : slice.indexOf ⟨slice.key.peerId, msg⟩ = some slice.migratedSize := by
        unfold indexOf isFromPart
        rw [hslice]
        dsimp only
        rw [decide_eq_true rfl, if_pos rfl, hfirst]
        rfl
      have hinside := (h.get_indexOf hfound).1
      unfold size at hinside
      rw [hslice] at hinside
      dsimp only at hinside
      rw [hnotPart, halone, if_neg Bool.false_ne_true, if_pos rfl] at hinside
      omega
    · by_contra hnone
      rw [not_or, not_or, not_not] at hnone
      obtain ⟨hisolated, hids, hpeers⟩ := hnone
      rw [Bool.not_eq_true] at hisolated
      obtain ⟨msg, rest, hcons⟩ := List.exists_cons_of_ne_nil hids
      have hshown : slice.shown[0]? = some ⟨slice.key.migratedPeerId, msg⟩ := by
        unfold shown
        rw [hslice]
        dsimp only
        rw [hisolated, if_neg Bool.false_ne_true, hcons]
        rfl
      have hfound := h.indexOf_get ((get_eq_shown 0).trans hshown)
      unfold indexOf isFromPart at hfound
      rw [hslice] at hfound
      dsimp only at hfound
      rw [decide_eq_true hpeers, if_pos rfl, Option.map_eq_some_iff] at hfound
      obtain ⟨place, -, hplace⟩ := hfound
      unfold migratedSize at hplace
      rw [hisolated, if_neg Bool.false_ne_true, hcons, List.length_cons] at hplace
      omega
  · dsimp only
    by_contra hids
    obtain ⟨msg, rest, hcons⟩ := List.exists_cons_of_ne_nil hids
    have hfound : slice.indexOf ⟨slice.key.peerId + 1, msg⟩ = some 0 := by
      unfold indexOf
      rw [hslice]
      dsimp only
      rw [AbstractSparseIds.indexOf_eq_some_iff (hunsorted unsorted hslice), hcons]
      rfl
    have hget := (h.get_indexOf hfound).2
    rw [get_eq_shown] at hget
    unfold shown at hget
    rw [hslice] at hget
    dsimp only at hget
    obtain ⟨hpeer, -⟩ := mem_map_mk.mp (List.mem_of_getElem? hget)
    dsimp only at hpeer
    omega

/-- **When a merged slice is coherent**: exactly when every id that has an index is shown.

**Proof sketch.** What is shown is one list, and `operator[]` reads it; if every id that has an index is shown,
an index is a place in this list. Otherwise an id of the chat has an index behind the ids of its predecessor
although these are shown alone, or an id has an index that belongs to another peer. The counts always add
up. -/
theorem coherent_iff (slice : SparseIdsMergedSlice) (hpart : slice.part.Coherent)
    (hmigrated : ∀ migrated ∈ slice.migrated, migrated.Coherent)
    (hunsorted : ∀ unsorted ∈ slice.unsorted, unsorted.Coherent) :
    slice.Coherent ↔ slice.IndicesShown := by
  constructor
  · exact indicesShown_of_coherent hpart.nodup fun unsorted hmem => (hunsorted unsorted hmem).nodup
  · intro h
    exact coherent_of_indicesShown h hpart hmigrated hunsorted

/-! ### An id that is not shown -/

lemma sorted_four_five : ([4, 5] : List MsgId).Pairwise (· < ·) := by
  decide

/-- The predecessor of a chat around its last id: its other ids are not loaded up to the seam, and the chat has
one id. -/
def seamSlice (skippedAfter : Option ℤ) : SparseIdsMergedSlice where
  key := { peerId := 2, migratedPeerId := 1, universalId := 5 - ServerMaxMsgId }
  part := ⟨{ ids := [3], fullCount := some 1, skippedBefore := some 0, skippedAfter := some 0 },
    List.pairwise_singleton _ 3⟩
  migrated := some ⟨{ ids := [4, 5], fullCount := none, skippedBefore := none, skippedAfter },
    sorted_four_five⟩
  defined := Or.inr (Or.inr rfl)

lemma coherent_seamPart (skippedAfter : Option ℤ) : (seamSlice skippedAfter).part.Coherent := by
  constructor
  · exact List.nodup_singleton 3
  · intro before after full hbefore hafter hfull
    obtain rfl := Option.some.inj hbefore
    obtain rfl := Option.some.inj hafter
    obtain rfl := Option.some.inj hfull
    rfl

lemma coherent_seamMigrated (skippedAfter : Option ℤ) :
    ∀ migrated ∈ (seamSlice skippedAfter).migrated, migrated.Coherent := by
  intro migrated hmigrated
  obtain rfl := Option.some.inj hmigrated
  constructor
  · exact sorted_four_five.imp ne_of_lt
  · intro before after full hbefore
    cases hbefore

/-- The seam is reached: the slice is coherent. -/
theorem coherent_iff_seam : (seamSlice (some 0)).Coherent := by
  apply (coherent_iff (seamSlice (some 0)) (coherent_seamPart _) (coherent_seamMigrated _)
    fun _ hmem => nomatch hmem).mpr
  refine ⟨fun halone => ?_, Or.inr (Or.inr (by decide))⟩
  exact absurd halone (by decide)

/-- **An id past the end.** The predecessor is shown alone, with two ids, and the id of the chat has the
index 2. -/
theorem indexOf_past_end :
    (seamSlice none).part.Coherent ∧ (∀ migrated ∈ (seamSlice none).migrated, migrated.Coherent) ∧
      (seamSlice none).key.universalId ≠ 0 ∧ (seamSlice none).size = 2 ∧
      (seamSlice none).indexOf ⟨2, 3⟩ = some 2 ∧ ¬(seamSlice none).Coherent := by
  have hfound : (seamSlice none).indexOf ⟨2, 3⟩ = some 2 := by decide
  refine ⟨coherent_seamPart none, coherent_seamMigrated none, by decide, by decide, hfound, ?_⟩
  intro h
  have hinside := (h.get_indexOf hfound).1
  exact absurd hinside (by decide)

end SparseIdsMergedSlice

end Ids
