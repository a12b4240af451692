import Mathlib.Algebra.Order.Ring.Int
import Mathlib.Data.List.Nodup
import Mathlib.Data.List.Infix

set_option autoImplicit false

/-!
# The photos of a user

The photos of a user are kept from the oldest to the newest, with their number when it is known.
One of them may be the back photo: it belongs before all others, so it is taken out before the
list changes and put back afterwards. Whoever changes the list may name any photo, also one that
is not listed.

An id of 0 stands for no back photo. A count is an integer without a bound here, the source keeps
it in 32 bits.

## Main definitions

* `PhotoList` — the list, its count and its back photo.
* `setBack`, `addNew`, `addSlice`, `removeOne`, `removeAfter`, `replace` — the changes.
* `Change.Allowed` — a change that does not list a photo a second time.
* `Coherent` — what holds of the list as long as all changes are of that kind.

## Main results

* `setBack_lists_twice` — a back photo that is listed already is there twice afterwards.
* `Coherent.step` — an allowed change keeps the list coherent.
* `Reached.coherent` — so do all runs of allowed changes, and the last of two back photos decides.
-/

namespace UserPhotos

/-- The id of a photo. -/
abbrev PhotoId := ℕ

/-- The photos of one user. -/
structure PhotoList where
  count : Option ℤ
  photoIds : List PhotoId
  backPhotoId : PhotoId
deriving DecidableEq, Repr

/-- The list before anything is known of it. -/
def PhotoList.empty : PhotoList := { count := none, photoIds := [], backPhotoId := 0 }

/-! ### The changes -/

/-- A photo that is not listed makes the count unknown. -/
def removeOne (photoId : PhotoId) (list : PhotoList) : PhotoList :=
  let position := list.photoIds.idxOf photoId
  if position = list.photoIds.length then
    { list with count := none }
  else
    { list with count := list.count.map (· - 1), photoIds := list.photoIds.eraseIdx position }

/-- The back photo is taken out. -/
def detachBack (list : PhotoList) : PhotoList :=
  if list.backPhotoId ≠ 0 then removeOne list.backPhotoId list else list

/-- The back photo is put before all others. -/
def attachBack (list : PhotoList) : PhotoList :=
  if list.backPhotoId ≠ 0 then
    { list with count := list.count.map (· + 1), photoIds := list.backPhotoId :: list.photoIds }
  else
    list

/-- Another photo becomes the back photo. -/
def setBack (photoId : PhotoId) (list : PhotoList) : PhotoList :=
  if list.backPhotoId ≠ photoId then
    attachBack { detachBack list with backPhotoId := photoId }
  else
    list

/-- A photo is added after all others. -/
def addNew (photoId : PhotoId) (list : PhotoList) : PhotoList :=
  if list.photoIds.contains photoId then
    list
  else
    let list := detachBack list
    attachBack
      { list with count := list.count.map (· + 1), photoIds := list.photoIds ++ [photoId] }

/-- The photos of a slice are put before the others, one after another. -/
def pushSlice : List PhotoId → List PhotoId → List PhotoId
  | [], photoIds => photoIds
  | photoId :: slice, photoIds =>
    pushSlice slice (if photoIds.contains photoId then photoIds else photoId :: photoIds)

/-- Older photos are added with the count of all photos. An empty slice means that there are no others. -/
def addSlice (slice : List PhotoId) (count : ℤ) (list : PhotoList) : PhotoList :=
  let list := detachBack list
  let photoIds := pushSlice slice list.photoIds
  let count := if count < photoIds.length ∨ slice = [] then (photoIds.length : ℤ) else count
  attachBack { list with count := some count, photoIds }

/-- A photo is removed with all that come after it. -/
def removeAfter (photoId : PhotoId) (list : PhotoList) : PhotoList :=
  let position := list.photoIds.idxOf photoId
  if position = list.photoIds.length then
    { list with count := none, photoIds := [] }
  else
    { list with
      count := list.count.map (· - (list.photoIds.length - position : ℕ))
      photoIds := list.photoIds.take position }

/-- A photo takes the place of another. -/
def replace (oldPhotoId newPhotoId : PhotoId) (list : PhotoList) : PhotoList :=
  { list with
    photoIds := list.photoIds.set (list.photoIds.idxOf oldPhotoId) newPhotoId
    backPhotoId := if list.backPhotoId = oldPhotoId then newPhotoId else list.backPhotoId }

/-- A change of the list. -/
inductive Change where
  | setBack (photoId : PhotoId)
  | addNew (photoId : PhotoId)
  | addSlice (slice : List PhotoId) (count : ℤ)
  | removeOne (photoId : PhotoId)
  | removeAfter (photoId : PhotoId)
  | replace (oldPhotoId newPhotoId : PhotoId)
deriving DecidableEq, Repr

/-- The list after a change. -/
def apply : Change → PhotoList → PhotoList
  | .setBack photoId, list => setBack photoId list
  | .addNew photoId, list => addNew photoId list
  | .addSlice slice count, list => addSlice slice count list
  | .removeOne photoId, list => removeOne photoId list
  | .removeAfter photoId, list => removeAfter photoId list
  | .replace oldPhotoId newPhotoId, list => replace oldPhotoId newPhotoId list

/-! ### What is expected of the list -/

/-- There is a back photo and it is not listed. -/
def backGone (list : PhotoList) : Bool :=
  decide (list.backPhotoId ≠ 0 ∧ list.backPhotoId ∉ list.photoIds)

/-- Whether the back photo has been removed since it was put in, after a change. Only the two removals take it out;
whatever puts it in again ends that. -/
def removedAfter (change : Change) (list : PhotoList) (removed : Bool) : Bool :=
  match change with
  | .setBack photoId => removed && decide (photoId = list.backPhotoId)
  | .addNew photoId => removed && decide (photoId ∈ list.photoIds)
  | .addSlice _ _ => false
  | .removeOne _ | .removeAfter _ => removed || backGone (apply change list)
  | .replace _ _ => removed && backGone (apply change list)

/-- The list is coherent: no photo is listed twice, the back photo is the first one unless it has been removed, and
then it is nowhere, and the count is not below the number of the listed photos. -/
structure Coherent (list : PhotoList) (removed : Bool) : Prop where
  nodup : list.photoIds.Nodup
  first : list.backPhotoId ≠ 0 → removed = false → list.photoIds.head? = some list.backPhotoId
  nowhere : removed = true → list.backPhotoId ≠ 0 ∧ list.backPhotoId ∉ list.photoIds
  count : ∀ count, list.count = some count → (list.photoIds.length : ℤ) ≤ count

/-- A change that names no photo in a way that lists it twice. A photo that becomes the back photo is not listed, a
new one is not the back photo that has been removed, a slice leaves the back photo out, and a photo that takes the
place of another is not listed either. The back photo that comes in by the place of another comes in at the front. -/
def Change.Allowed (list : PhotoList) : Change → Prop
  | .setBack photoId => photoId = list.backPhotoId ∨ photoId = 0 ∨ photoId ∉ list.photoIds
  | .addNew photoId => photoId ∈ list.photoIds ∨ photoId = 0 ∨ photoId ≠ list.backPhotoId
  | .addSlice slice _ => list.backPhotoId = 0 ∨ list.backPhotoId ∉ slice
  | .removeOne _ | .removeAfter _ => True
  | .replace oldPhotoId newPhotoId =>
    oldPhotoId = newPhotoId ∨
      if oldPhotoId ∈ list.photoIds then
        newPhotoId ∉ list.photoIds ∧
          (oldPhotoId = list.backPhotoId ∨ newPhotoId = list.backPhotoId →
            newPhotoId = 0 ∨ list.photoIds.head? = some oldPhotoId)
      else
        oldPhotoId = list.backPhotoId →
          newPhotoId = 0 ∨ list.photoIds.head? = some newPhotoId ∨ oldPhotoId ≠ 0 ∧ newPhotoId ∉ list.photoIds

instance Change.decidableAllowed (list : PhotoList) : (change : Change) → Decidable (change.Allowed list)
  | .setBack photoId =>
    inferInstanceAs (Decidable (photoId = list.backPhotoId ∨ photoId = 0 ∨ photoId ∉ list.photoIds))
  | .addNew photoId =>
    inferInstanceAs (Decidable (photoId ∈ list.photoIds ∨ photoId = 0 ∨ photoId ≠ list.backPhotoId))
  | .addSlice slice _ => inferInstanceAs (Decidable (list.backPhotoId = 0 ∨ list.backPhotoId ∉ slice))
  | .removeOne _ | .removeAfter _ => inferInstanceAs (Decidable True)
  | .replace oldPhotoId newPhotoId =>
    inferInstanceAs (Decidable (oldPhotoId = newPhotoId ∨
      if oldPhotoId ∈ list.photoIds then
        newPhotoId ∉ list.photoIds ∧
          (oldPhotoId = list.backPhotoId ∨ newPhotoId = list.backPhotoId →
            newPhotoId = 0 ∨ list.photoIds.head? = some oldPhotoId)
      else
        oldPhotoId = list.backPhotoId →
          newPhotoId = 0 ∨ list.photoIds.head? = some newPhotoId ∨ oldPhotoId ≠ 0 ∧ newPhotoId ∉ list.photoIds))

/-! ### The back photo -/

lemma removeOne_of_mem {photoId : PhotoId} {list : PhotoList} (h : photoId ∈ list.photoIds) :
    removeOne photoId list =
      { list with count := list.count.map (· - 1), photoIds := list.photoIds.erase photoId } := by
  rw [removeOne, if_neg (List.idxOf_lt_length_iff.mpr h).ne, List.eraseIdx_idxOf_eq_erase]

lemma removeOne_of_not_mem {photoId : PhotoId} {list : PhotoList} (h : photoId ∉ list.photoIds) :
    removeOne photoId list = { list with count := none } := by
  rw [removeOne, if_pos (List.idxOf_eq_length_iff.mpr h)]

/-- What taking a photo out leaves. -/
lemma removeOne_photoIds (photoId : PhotoId) (list : PhotoList) :
    (removeOne photoId list).photoIds = list.photoIds.erase photoId := by
  by_cases h : photoId ∈ list.photoIds
  · rw [removeOne_of_mem h]
  · rw [removeOne_of_not_mem h, List.erase_of_not_mem h]

@[simp] lemma removeOne_backPhotoId (photoId : PhotoId) (list : PhotoList) :
    (removeOne photoId list).backPhotoId = list.backPhotoId := by
  rw [removeOne]
  split_ifs <;> rfl

/-- The count stays above the number of the listed photos when one is taken out. -/
lemma removeOne_count {photoId : PhotoId} {list : PhotoList}
    (hcount : ∀ count, list.count = some count → (list.photoIds.length : ℤ) ≤ count) (count : ℤ)
    (h : (removeOne photoId list).count = some count) :
    ((removeOne photoId list).photoIds.length : ℤ) ≤ count := by
  by_cases hmem : photoId ∈ list.photoIds
  · rw [removeOne_of_mem hmem] at h ⊢
    obtain ⟨before, hbefore, rfl⟩ := Option.map_eq_some_iff.mp h
    have hle := hcount before hbefore
    have hlength := List.length_erase_add_one hmem
    dsimp only
    omega
  · rw [removeOne_of_not_mem hmem] at h
    cases h

lemma detachBack_photoIds {list : PhotoList} (h : list.backPhotoId ≠ 0) :
    (detachBack list).photoIds = list.photoIds.erase list.backPhotoId := by
  rw [detachBack, if_pos h, removeOne_photoIds]

@[simp] lemma detachBack_backPhotoId (list : PhotoList) : (detachBack list).backPhotoId = list.backPhotoId := by
  rw [detachBack]
  split_ifs
  · exact removeOne_backPhotoId _ _
  · rfl

lemma detachBack_sublist (list : PhotoList) : (detachBack list).photoIds.Sublist list.photoIds := by
  rw [detachBack]
  split_ifs
  · rw [removeOne_photoIds]
    exact List.erase_sublist
  · exact List.Sublist.refl _

lemma detachBack_count {list : PhotoList}
    (hcount : ∀ count, list.count = some count → (list.photoIds.length : ℤ) ≤ count) (count : ℤ)
    (h : (detachBack list).count = some count) : ((detachBack list).photoIds.length : ℤ) ≤ count := by
  rw [detachBack] at h ⊢
  split_ifs at h ⊢
  · exact removeOne_count hcount count h
  · exact hcount count h

/-- A back photo that is listed nowhere else is put back where it was. -/
lemma detachBack_attachBack {list : PhotoList} : detachBack (attachBack list) = list := by
  rw [attachBack]
  split_ifs with h
  · rw [detachBack, if_pos h, removeOne_of_mem List.mem_cons_self]
    dsimp only
    have hsame : ((· - 1) ∘ (· + 1) : ℤ → ℤ) = id := funext fun count => add_sub_cancel_right count 1
    rw [List.erase_cons_head, Option.map_map, hsame, Option.map_id]
    rfl
  · rw [detachBack, if_neg h]

/-- A back photo that is the first one is taken out and put back without a trace. -/
lemma attachBack_detachBack {list : PhotoList}
    (hfirst : list.backPhotoId ≠ 0 → list.photoIds.head? = some list.backPhotoId) :
    attachBack (detachBack list) = list := by
  by_cases h : list.backPhotoId = 0
  · rw [detachBack, if_neg (not_not.mpr h), attachBack, if_neg (not_not.mpr h)]
  · obtain ⟨rest, hrest⟩ := List.head?_eq_some_iff.mp (hfirst h)
    have hmem : list.backPhotoId ∈ list.photoIds := by rw [hrest]; exact List.mem_cons_self
    rw [detachBack, if_pos h, removeOne_of_mem hmem, attachBack, if_pos h]
    dsimp only
    have hsame : ((· + 1) ∘ (· - 1) : ℤ → ℤ) = id := funext fun count => sub_add_cancel count 1
    rw [Option.map_map, hsame, Option.map_id]
    have hids : list.backPhotoId :: list.photoIds.erase list.backPhotoId = list.photoIds := by
      rw [hrest, List.erase_cons_head]
    rw [hids]
    rfl

/-- **Putting in a back photo** that is listed nowhere makes a list coherent. -/
lemma coherent_attachBack {list : PhotoList} (hnodup : list.photoIds.Nodup)
    (hcount : ∀ count, list.count = some count → (list.photoIds.length : ℤ) ≤ count)
    (hnew : list.backPhotoId ≠ 0 → list.backPhotoId ∉ list.photoIds) : Coherent (attachBack list) false := by
  rw [attachBack]
  split_ifs with h
  · refine ⟨List.nodup_cons.mpr ⟨hnew h, hnodup⟩, fun _ _ => rfl, fun h => Bool.noConfusion h, fun count hsome => ?_⟩
    obtain ⟨before, hbefore, rfl⟩ := Option.map_eq_some_iff.mp hsome
    have hle := hcount before hbefore
    simp only [List.length_cons]
    omega
  · exact ⟨hnodup, fun h' => absurd h' h, fun h => Bool.noConfusion h, hcount⟩

namespace Coherent

variable {list : PhotoList} {removed : Bool}

/-- Without its back photo a coherent list has it nowhere. -/
lemma not_mem_detachBack (hlist : Coherent list removed) (h : list.backPhotoId ≠ 0) :
    list.backPhotoId ∉ (detachBack list).photoIds := by
  rw [detachBack_photoIds h]
  exact hlist.nodup.not_mem_erase

/-! ### One change -/

lemma setBack (hlist : Coherent list removed) {photoId : PhotoId}
    (hallowed : Change.Allowed list (.setBack photoId)) :
    Coherent (setBack photoId list) (removedAfter (.setBack photoId) list removed) := by
  rw [UserPhotos.setBack, removedAfter]
  split_ifs with h
  · rw [decide_eq_false fun heq => h heq.symm, Bool.and_false]
    refine coherent_attachBack (hlist.nodup.sublist (detachBack_sublist list)) (detachBack_count hlist.count)
      fun hne hmem => ?_
    rcases hallowed with heq | hzero | hnew
    · exact h heq.symm
    · exact hne hzero
    · exact hnew ((detachBack_sublist list).subset hmem)
  · rw [decide_eq_true (not_not.mp h).symm, Bool.and_true]
    exact hlist

lemma addNew (hlist : Coherent list removed) {photoId : PhotoId}
    (hallowed : Change.Allowed list (.addNew photoId)) :
    Coherent (addNew photoId list) (removedAfter (.addNew photoId) list removed) := by
  rw [UserPhotos.addNew, removedAfter]
  by_cases hmem : photoId ∈ list.photoIds
  · rw [if_pos (List.contains_iff_mem.mpr hmem), decide_eq_true hmem, Bool.and_true]
    exact hlist
  · rw [if_neg fun hcontains => hmem (List.contains_iff_mem.mp hcontains), decide_eq_false hmem, Bool.and_false]
    have hmem' : photoId ∉ (detachBack list).photoIds := fun h => hmem ((detachBack_sublist list).subset h)
    refine coherent_attachBack ?_ (fun count hsome => ?_) fun hne hback => ?_
    · refine List.Nodup.append (hlist.nodup.sublist (detachBack_sublist list)) (List.nodup_singleton _) ?_
      rwa [List.disjoint_singleton]
    · obtain ⟨before, hbefore, rfl⟩ := Option.map_eq_some_iff.mp hsome
      have hle := detachBack_count hlist.count before hbefore
      rw [List.length_append, List.length_singleton]
      omega
    · rw [detachBack_backPhotoId] at hne hback
      rcases List.mem_append.mp hback with hback | hback
      · exact hlist.not_mem_detachBack hne hback
      · have heq := List.mem_singleton.mp hback
        rcases hallowed with h | h | h
        · exact hmem h
        · exact hne (heq.trans h)
        · exact h heq.symm

end Coherent

lemma mem_pushSlice {slice photoIds : List PhotoId} {photoId : PhotoId} :
    photoId ∈ pushSlice slice photoIds ↔ photoId ∈ slice ∨ photoId ∈ photoIds := by
  induction slice generalizing photoIds with
  | nil => simp [pushSlice]
  | cons first slice ih =>
    rw [pushSlice, ih]
    split_ifs with h
    · have hmem := List.contains_iff_mem.mp h
      rw [List.mem_cons]
      constructor
      · rintro (h | h)
        · exact Or.inl (Or.inr h)
        · exact Or.inr h
      · rintro ((rfl | h) | h)
        · exact Or.inr hmem
        · exact Or.inl h
        · exact Or.inr h
    · rw [List.mem_cons, List.mem_cons]
      tauto

lemma nodup_pushSlice {slice photoIds : List PhotoId} (h : photoIds.Nodup) : (pushSlice slice photoIds).Nodup := by
  induction slice generalizing photoIds with
  | nil => exact h
  | cons first slice ih =>
    rw [pushSlice]
    refine ih ?_
    split_ifs with hcontains
    · exact h
    · exact List.nodup_cons.mpr ⟨fun hmem => hcontains (List.contains_iff_mem.mpr hmem), h⟩

namespace Coherent

variable {list : PhotoList} {removed : Bool}

lemma addSlice (hlist : Coherent list removed) {slice : List PhotoId} {count : ℤ}
    (hallowed : Change.Allowed list (.addSlice slice count)) :
    Coherent (addSlice slice count list) (removedAfter (.addSlice slice count) list removed) := by
  refine coherent_attachBack (nodup_pushSlice (hlist.nodup.sublist (detachBack_sublist list)))
    (fun known hsome => ?_) fun hne hmem => ?_
  · have hknown := Option.some.inj hsome
    split_ifs at hknown with h
    · exact hknown.le
    · rw [not_or, not_lt] at h
      exact h.1.trans hknown.le
  · rw [detachBack_backPhotoId] at hne hmem
    rcases mem_pushSlice.mp hmem with hslice | hrest
    · exact hallowed.elim hne fun h => h hslice
    · exact hlist.not_mem_detachBack hne hrest

/-- A removal that takes photos out and leaves the others in their order keeps the list coherent. -/
lemma of_prefix (hlist : Coherent list removed) {list' : PhotoList} (hback : list'.backPhotoId = list.backPhotoId)
    (hsublist : list'.photoIds.Sublist list.photoIds)
    (hcount : ∀ count, list'.count = some count → (list'.photoIds.length : ℤ) ≤ count)
    (hfirst : ∀ photoId ∈ list'.photoIds, list.photoIds.head? = some photoId →
      list'.photoIds.head? = some photoId) : Coherent list' (removed || backGone list') := by
  refine ⟨hlist.nodup.sublist hsublist, fun hne hkept => ?_, fun hgone => ?_, hcount⟩
  · obtain ⟨hnot, hlisted⟩ := Bool.or_eq_false_iff.mp hkept
    have hmem := not_not.mp fun h => of_decide_eq_false hlisted ⟨hne, h⟩
    rw [hback] at hne hmem ⊢
    exact hfirst _ hmem (hlist.first hne hnot)
  · rcases Bool.or_eq_true_iff.mp hgone with hbefore | hnow
    · rw [hback]
      exact ⟨(hlist.nowhere hbefore).1, fun hmem => (hlist.nowhere hbefore).2 (hsublist.subset hmem)⟩
    · exact of_decide_eq_true hnow

lemma removeOne (hlist : Coherent list removed) (photoId : PhotoId) :
    Coherent (removeOne photoId list) (removedAfter (.removeOne photoId) list removed) := by
  refine hlist.of_prefix (removeOne_backPhotoId _ _) ?_ (removeOne_count hlist.count) fun first hmem hhead => ?_
  · rw [removeOne_photoIds]
    exact List.erase_sublist
  · rw [removeOne_photoIds] at hmem ⊢
    obtain ⟨rest, hrest⟩ := List.head?_eq_some_iff.mp hhead
    have hother : first ≠ photoId := fun heq => by
      rw [heq] at hmem
      exact hlist.nodup.not_mem_erase hmem
    rw [hrest, List.erase_cons_tail (by simpa using hother), List.head?_cons]

/-- What stays after a removal are the photos before one. -/
lemma removeAfter_photoIds (photoId : PhotoId) (list : PhotoList) :
    ∃ position, (removeAfter photoId list).photoIds = list.photoIds.take position := by
  rw [removeAfter]
  split_ifs
  · exact ⟨0, rfl⟩
  · exact ⟨_, rfl⟩

lemma removeAfter_backPhotoId (photoId : PhotoId) (list : PhotoList) :
    (removeAfter photoId list).backPhotoId = list.backPhotoId := by
  rw [removeAfter]
  split_ifs <;> rfl

lemma removeAfter_count (hlist : Coherent list removed) (photoId : PhotoId) (count : ℤ)
    (h : (removeAfter photoId list).count = some count) :
    ((removeAfter photoId list).photoIds.length : ℤ) ≤ count := by
  rw [removeAfter] at h ⊢
  split_ifs at h ⊢
  obtain ⟨before, hbefore, rfl⟩ := Option.map_eq_some_iff.mp h
  have hle := hlist.count before hbefore
  have hposition : list.photoIds.idxOf photoId ≤ list.photoIds.length := List.idxOf_le_length
  dsimp only
  rw [List.length_take]
  omega

lemma removeAfter (hlist : Coherent list removed) (photoId : PhotoId) :
    Coherent (removeAfter photoId list) (removedAfter (.removeAfter photoId) list removed) := by
  obtain ⟨position, hids⟩ := removeAfter_photoIds photoId list
  refine hlist.of_prefix (removeAfter_backPhotoId _ _) ?_ (hlist.removeAfter_count photoId) fun first hmem hhead => ?_
  · rw [hids]
    exact List.take_sublist _ _
  · rw [hids] at hmem ⊢
    obtain ⟨rest, hrest⟩ := List.head?_eq_some_iff.mp hhead
    cases position with
    | zero => exact absurd hmem List.not_mem_nil
    | succ position => rw [hrest, List.take_succ_cons, List.head?_cons]

end Coherent

/-! ### A photo in the place of another -/

/-- Nothing is written over a photo that is not listed. -/
lemma set_idxOf_of_not_mem {photoIds : List PhotoId} {oldPhotoId newPhotoId : PhotoId} (h : oldPhotoId ∉ photoIds) :
    photoIds.set (photoIds.idxOf oldPhotoId) newPhotoId = photoIds := by
  rw [List.idxOf_eq_length_iff.mpr h]
  exact List.set_eq_of_length_le le_rfl

/-- The first photo of the list when one takes the place of another. -/
lemma head?_set_idxOf {photoIds : List PhotoId} {oldPhotoId newPhotoId : PhotoId} :
    (photoIds.set (photoIds.idxOf oldPhotoId) newPhotoId).head? =
      photoIds.head?.map fun first => if first = oldPhotoId then newPhotoId else first := by
  cases photoIds with
  | nil => rfl
  | cons first rest =>
    by_cases h : first = oldPhotoId
    · subst h
      rw [List.idxOf_cons_self, List.set_cons_zero, List.head?_cons, List.head?_cons, Option.map_some, if_pos rfl]
    · rw [List.idxOf_cons_ne _ h, List.set_cons_succ, List.head?_cons, List.head?_cons, Option.map_some, if_neg h]

/-- A photo takes its own place. -/
lemma set_idxOf_self (photoIds : List PhotoId) (photoId : PhotoId) :
    photoIds.set (photoIds.idxOf photoId) photoId = photoIds := by
  by_cases h : photoId ∈ photoIds
  · have hsame := List.set_getElem_self (List.idxOf_lt_length_iff.mpr h)
    rwa [List.getElem_idxOf] at hsame
  · exact set_idxOf_of_not_mem h

/-- A photo that is listed already and takes the place of another is there twice. -/
lemma not_nodup_set_idxOf {photoIds : List PhotoId} {oldPhotoId newPhotoId : PhotoId} (hne : oldPhotoId ≠ newPhotoId)
    (hold : oldPhotoId ∈ photoIds) (hnew : newPhotoId ∈ photoIds) :
    ¬ (photoIds.set (photoIds.idxOf oldPhotoId) newPhotoId).Nodup := by
  intro hnodup
  have hold' : photoIds.idxOf oldPhotoId < (photoIds.set (photoIds.idxOf oldPhotoId) newPhotoId).length := by
    rw [List.length_set]
    exact List.idxOf_lt_length_iff.mpr hold
  have hnew' : photoIds.idxOf newPhotoId < (photoIds.set (photoIds.idxOf oldPhotoId) newPhotoId).length := by
    rw [List.length_set]
    exact List.idxOf_lt_length_iff.mpr hnew
  have hindex : photoIds.idxOf newPhotoId ≠ photoIds.idxOf oldPhotoId := fun heq => by
    have h := List.getElem_idxOf (List.idxOf_lt_length_iff.mpr hnew)
    simp only [heq, List.getElem_idxOf] at h
    exact hne h
  have htwice : (photoIds.set (photoIds.idxOf oldPhotoId) newPhotoId)[photoIds.idxOf newPhotoId] =
      (photoIds.set (photoIds.idxOf oldPhotoId) newPhotoId)[photoIds.idxOf oldPhotoId] := by
    rw [List.getElem_set_ne hindex.symm, List.getElem_set_self, List.getElem_idxOf]
  exact hindex (hnodup.getElem_inj_iff.mp htwice)

lemma replace_photoIds_length (oldPhotoId newPhotoId : PhotoId) (list : PhotoList) :
    (replace oldPhotoId newPhotoId list).photoIds.length = list.photoIds.length :=
  List.length_set

/-- The list after a replacement is coherent if no photo is there twice and the back photo is the first one wherever
it is listed. -/
lemma coherent_replace_iff {list : PhotoList} {removed : Bool} (hlist : Coherent list removed)
    (oldPhotoId newPhotoId : PhotoId) :
    Coherent (replace oldPhotoId newPhotoId list) (removedAfter (.replace oldPhotoId newPhotoId) list removed) ↔
      (replace oldPhotoId newPhotoId list).photoIds.Nodup ∧
        ((replace oldPhotoId newPhotoId list).backPhotoId ≠ 0 →
          (replace oldPhotoId newPhotoId list).backPhotoId ∉ (replace oldPhotoId newPhotoId list).photoIds ∧
              removed = true ∨
            (replace oldPhotoId newPhotoId list).photoIds.head? =
              some (replace oldPhotoId newPhotoId list).backPhotoId) := by
  have hafter : removedAfter (.replace oldPhotoId newPhotoId) list removed =
      (removed && backGone (replace oldPhotoId newPhotoId list)) := rfl
  rw [hafter]
  constructor
  · refine fun h => ⟨h.nodup, fun hne => ?_⟩
    by_cases hgone : (removed && backGone (replace oldPhotoId newPhotoId list)) = true
    · exact Or.inl ⟨(h.nowhere hgone).2, (Bool.and_eq_true_iff.mp hgone).1⟩
    · exact Or.inr (h.first hne (Bool.not_eq_true _ ▸ hgone))
  · rintro ⟨hnodup, hback⟩
    refine ⟨hnodup, fun hne hkept => ?_, fun hgone => ?_, fun count hsome => ?_⟩
    · refine (hback hne).resolve_left fun h => ?_
      rw [h.2, Bool.true_and] at hkept
      exact of_decide_eq_false hkept ⟨hne, h.1⟩
    · exact of_decide_eq_true (Bool.and_eq_true_iff.mp hgone).2
    · rw [replace_photoIds_length]
      exact hlist.count count hsome

/-- The photo that takes the place of another is the first one if the other was. -/
lemma head?_set_idxOf_eq_new {photoIds : List PhotoId} {oldPhotoId newPhotoId : PhotoId}
    (hnew : newPhotoId ∉ photoIds) :
    (photoIds.set (photoIds.idxOf oldPhotoId) newPhotoId).head? = some newPhotoId ↔
      photoIds.head? = some oldPhotoId := by
  rw [head?_set_idxOf, Option.map_eq_some_iff]
  constructor
  · rintro ⟨first, hfirst, heq⟩
    split_ifs at heq with h
    · rw [hfirst, h]
    · exact absurd (heq ▸ List.mem_of_head? hfirst) hnew
  · exact fun h => ⟨oldPhotoId, h, if_pos rfl⟩

/-- Other photos stay where they are. -/
lemma head?_set_idxOf_of_ne {photoIds : List PhotoId} {oldPhotoId newPhotoId photoId : PhotoId}
    (hne : photoId ≠ oldPhotoId) (h : photoIds.head? = some photoId) :
    (photoIds.set (photoIds.idxOf oldPhotoId) newPhotoId).head? = some photoId := by
  rw [head?_set_idxOf, h, Option.map_some, if_neg hne]

namespace Coherent

variable {list : PhotoList} {removed : Bool}

/-- The back photo is the first one, or it has been removed. -/
lemma back (hlist : Coherent list removed) (hne : list.backPhotoId ≠ 0) :
    list.backPhotoId ∉ list.photoIds ∧ removed = true ∨ list.photoIds.head? = some list.backPhotoId := by
  cases removed with
  | true => exact Or.inl ⟨(hlist.nowhere rfl).2, rfl⟩
  | false => exact Or.inr (hlist.first hne rfl)

/-- A back photo that is not listed has been removed. -/
lemma removed_iff (hlist : Coherent list removed) (hnot : list.backPhotoId ∉ list.photoIds) :
    removed = true ↔ list.backPhotoId ≠ 0 := by
  refine ⟨fun h => (hlist.nowhere h).1, fun hne => ?_⟩
  exact (hlist.back hne).elim And.right fun h => absurd (List.mem_of_head? h) hnot

/-- A photo that is not listed is replaced. -/
lemma replace_of_not_mem (hlist : Coherent list removed) {oldPhotoId newPhotoId : PhotoId}
    (hold : oldPhotoId ∉ list.photoIds) :
    Coherent (replace oldPhotoId newPhotoId list) (removedAfter (.replace oldPhotoId newPhotoId) list removed) ↔
      (oldPhotoId = list.backPhotoId → newPhotoId = 0 ∨ list.photoIds.head? = some newPhotoId ∨
        oldPhotoId ≠ 0 ∧ newPhotoId ∉ list.photoIds) := by
  rw [coherent_replace_iff hlist]
  dsimp only [replace]
  rw [set_idxOf_of_not_mem hold]
  by_cases hback : list.backPhotoId = oldPhotoId
  · have hremoved := hlist.removed_iff (hback ▸ hold)
    rw [if_pos hback, hremoved, hback]
    have hnodup := hlist.nodup
    tauto
  · rw [if_neg hback]
    exact ⟨fun _ h => absurd h.symm hback, fun _ => ⟨hlist.nodup, hlist.back⟩⟩

/-- A listed photo is replaced by one that is not listed. -/
lemma replace_of_mem (hlist : Coherent list removed) {oldPhotoId newPhotoId : PhotoId}
    (hold : oldPhotoId ∈ list.photoIds) (hnew : newPhotoId ∉ list.photoIds) :
    Coherent (replace oldPhotoId newPhotoId list) (removedAfter (.replace oldPhotoId newPhotoId) list removed) ↔
      (oldPhotoId = list.backPhotoId ∨ newPhotoId = list.backPhotoId →
        newPhotoId = 0 ∨ list.photoIds.head? = some oldPhotoId) := by
  have hlisted : newPhotoId ∈ list.photoIds.set (list.photoIds.idxOf oldPhotoId) newPhotoId :=
    List.mem_set (List.idxOf_lt_length_iff.mpr hold) newPhotoId
  have hnodup : (list.photoIds.set (list.photoIds.idxOf oldPhotoId) newPhotoId).Nodup := hlist.nodup.set hnew
  have hhead : (list.photoIds.set (list.photoIds.idxOf oldPhotoId) newPhotoId).head? = some newPhotoId ↔
      list.photoIds.head? = some oldPhotoId := head?_set_idxOf_eq_new hnew
  rw [coherent_replace_iff hlist]
  dsimp only [replace]
  by_cases hback : list.backPhotoId = oldPhotoId
  · rw [if_pos hback, hhead]
    have hsame := hback.symm
    tauto
  · rw [if_neg hback]
    by_cases hsame : newPhotoId = list.backPhotoId
    · rw [← hsame, hhead]
      tauto
    · refine ⟨fun _ h => (h.elim (fun h => hback h.symm) hsame).elim, fun _ => ⟨hnodup, fun hne => ?_⟩⟩
      refine (hlist.back hne).imp (fun h => ⟨fun hmem => ?_, h.2⟩) (head?_set_idxOf_of_ne hback)
      exact (List.mem_or_eq_of_mem_set hmem).elim h.1 fun heq => hsame heq.symm

/-- **Replacing a photo** keeps the list coherent exactly if it is allowed. -/
lemma replace_iff (hlist : Coherent list removed) (oldPhotoId newPhotoId : PhotoId) :
    Coherent (replace oldPhotoId newPhotoId list) (removedAfter (.replace oldPhotoId newPhotoId) list removed) ↔
      Change.Allowed list (.replace oldPhotoId newPhotoId) := by
  rw [Change.Allowed]
  by_cases hsame : oldPhotoId = newPhotoId
  · subst hsame
    rw [coherent_replace_iff hlist]
    dsimp only [replace]
    have hback : (if list.backPhotoId = oldPhotoId then oldPhotoId else list.backPhotoId) = list.backPhotoId := by
      split_ifs with h
      · exact h.symm
      · rfl
    rw [set_idxOf_self, hback]
    exact ⟨fun _ => Or.inl rfl, fun _ => ⟨hlist.nodup, hlist.back⟩⟩
  · rw [or_iff_right hsame]
    split_ifs with hold
    · by_cases hnew : newPhotoId ∈ list.photoIds
      · exact ⟨fun h => absurd h.nodup (not_nodup_set_idxOf hsame hold hnew), fun h => absurd hnew h.1⟩
      · rw [hlist.replace_of_mem hold hnew]
        exact ⟨fun h => ⟨hnew, h⟩, And.right⟩
    · exact hlist.replace_of_not_mem hold

/-! ### All changes -/

/-- A back photo that is listed elsewhere is there twice once it is put in. -/
lemma not_coherent_attachBack {list : PhotoList} (hne : list.backPhotoId ≠ 0)
    (hmem : list.backPhotoId ∈ list.photoIds) (removed : Bool) : ¬ Coherent (attachBack list) removed := by
  intro h
  have hnodup := h.nodup
  rw [attachBack, if_pos hne] at hnodup
  exact (List.nodup_cons.mp hnodup).1 hmem

/-- **One change**: it keeps the list coherent exactly if it is allowed. -/
theorem step_iff (hlist : Coherent list removed) (change : Change) :
    Coherent (apply change list) (removedAfter change list removed) ↔ change.Allowed list := by
  cases change with
  | setBack photoId =>
    refine ⟨fun h => ?_, hlist.setBack⟩
    by_contra hnot
    simp only [Change.Allowed, not_or, not_not] at hnot
    obtain ⟨hback, hzero, hmem⟩ := hnot
    rw [apply, UserPhotos.setBack, if_pos fun heq => hback heq.symm] at h
    refine not_coherent_attachBack hzero ?_ _ h
    change photoId ∈ (detachBack list).photoIds
    rw [detachBack]
    split_ifs
    · rw [removeOne_photoIds]
      exact (List.mem_erase_of_ne hback).mpr hmem
    · exact hmem
  | addNew photoId =>
    refine ⟨fun h => ?_, hlist.addNew⟩
    by_contra hnot
    simp only [Change.Allowed, not_or, not_not] at hnot
    obtain ⟨hmem, hzero, hback⟩ := hnot
    rw [apply, UserPhotos.addNew, if_neg fun hcontains => hmem (List.contains_iff_mem.mp hcontains)] at h
    refine not_coherent_attachBack ?_ ?_ _ h
    · rw [detachBack_backPhotoId, ← hback]
      exact hzero
    · rw [detachBack_backPhotoId, hback]
      exact List.mem_append_right _ List.mem_cons_self
  | addSlice slice count =>
    refine ⟨fun h => ?_, hlist.addSlice⟩
    by_contra hnot
    simp only [Change.Allowed, not_or, not_not] at hnot
    obtain ⟨hzero, hmem⟩ := hnot
    refine not_coherent_attachBack ?_ ?_ _ h
    · exact fun heq => hzero ((detachBack_backPhotoId list).symm.trans heq)
    · dsimp only
      rw [detachBack_backPhotoId]
      exact mem_pushSlice.mpr (Or.inl hmem)
  | removeOne photoId => exact ⟨fun _ => trivial, fun _ => hlist.removeOne photoId⟩
  | removeAfter photoId => exact ⟨fun _ => trivial, fun _ => hlist.removeAfter photoId⟩
  | replace oldPhotoId newPhotoId => exact hlist.replace_iff oldPhotoId newPhotoId

/-- **The last of two back photos decides**, unless it is the one that has been removed: then it is put in again. -/
theorem setBack_setBack (hlist : Coherent list removed) (first second : PhotoId) :
    UserPhotos.setBack second (UserPhotos.setBack first list) = UserPhotos.setBack second list ↔
      (removed = true → second = list.backPhotoId → first = second) := by
  by_cases hback : list.backPhotoId = first
  · have hsame : UserPhotos.setBack first list = list := if_neg (not_not.mpr hback)
    rw [hsame]
    exact ⟨fun _ _ hsecond => (hsecond.trans hback).symm, fun _ => rfl⟩
  · have hset : UserPhotos.setBack first list = attachBack { detachBack list with backPhotoId := first } :=
      if_pos hback
    have hsetBack : (UserPhotos.setBack first list).backPhotoId = first := by
      rw [hset, attachBack]
      split_ifs <;> rfl
    by_cases hboth : first = second
    · subst hboth
      have hagain : UserPhotos.setBack first (UserPhotos.setBack first list) = UserPhotos.setBack first list :=
        if_neg (not_not.mpr hsetBack)
      exact ⟨fun _ _ _ => rfl, fun _ => hagain⟩
    · -- the first of the two is taken out before the second one is put in
      have htwice : UserPhotos.setBack second (UserPhotos.setBack first list) =
          attachBack { detachBack list with backPhotoId := second } := by
        rw [UserPhotos.setBack, if_pos fun heq => hboth (hsetBack.symm.trans heq), hset, detachBack_attachBack]
      rw [htwice]
      by_cases hsecond : list.backPhotoId = second
      · have hsame : UserPhotos.setBack second list = list := if_neg (not_not.mpr hsecond)
        have hdetached : ({ detachBack list with backPhotoId := second } : PhotoList) = detachBack list := by
          rw [← hsecond, ← detachBack_backPhotoId]
        rw [hsame, hdetached]
        constructor
        · intro h hremoved
          obtain ⟨hne, hgone⟩ := hlist.nowhere hremoved
          refine absurd ?_ hgone
          rw [← h, attachBack, if_pos (by rwa [detachBack_backPhotoId]), detachBack_backPhotoId]
          exact List.mem_cons_self
        · intro h
          refine attachBack_detachBack fun hne => hlist.first hne ?_
          exact Bool.eq_false_iff.mpr fun hremoved => hboth (h hremoved hsecond.symm)
      · have hother : UserPhotos.setBack second list = attachBack { detachBack list with backPhotoId := second } :=
          if_pos hsecond
        exact ⟨fun _ _ h => absurd h.symm hsecond, fun _ => hother.symm⟩

end Coherent

/-! ### Runs -/

/-- The lists that runs of allowed changes lead to, and whether the back photo has been removed on the way. -/
inductive Reached : PhotoList → Bool → Prop where
  | empty : Reached PhotoList.empty false
  | step {list : PhotoList} {removed : Bool} {change : Change} :
      Reached list removed → change.Allowed list → Reached (apply change list) (removedAfter change list removed)

/-- A run of allowed changes keeps the list coherent. -/
lemma Reached.coherent {list : PhotoList} {removed : Bool} (h : Reached list removed) : Coherent list removed := by
  induction h with
  | empty => exact ⟨List.nodup_nil, fun h => absurd rfl h, fun h => Bool.noConfusion h, fun _ h => nomatch h⟩
  | step _ hallowed ih => exact (ih.step_iff _).mpr hallowed

/-- **The photos stay coherent** in every run of allowed changes: none is listed twice, the back photo is the first
one and nowhere else unless it has been removed, the count is not below the number of the listed photos, and of two
back photos that are put in one after another only the second one leaves a trace. -/
theorem photos_stay_coherent {list : PhotoList} {removed : Bool} (h : Reached list removed) :
    list.photoIds.Nodup ∧
      (list.backPhotoId ≠ 0 → removed = false →
        ∃ rest, list.photoIds = list.backPhotoId :: rest ∧ list.backPhotoId ∉ rest) ∧
      (∀ count, list.count = some count → (list.photoIds.length : ℤ) ≤ count) ∧
      ∀ first second : PhotoId, (removed = true → second = list.backPhotoId → first = second) →
        setBack second (setBack first list) = setBack second list := by
  have hlist := h.coherent
  refine ⟨hlist.nodup, fun hne hkept => ?_, hlist.count, fun first second => (hlist.setBack_setBack first second).mpr⟩
  obtain ⟨rest, hrest⟩ := List.head?_eq_some_iff.mp (hlist.first hne hkept)
  have hnodup := hlist.nodup
  rw [hrest, List.nodup_cons] at hnodup
  exact ⟨rest, hrest, hnodup.1⟩

/-- Photos from a slice and an update, and then a back photo. -/
theorem three_photos_coherent :
    ([7, 4, 6] : List PhotoId).Nodup ∧
      setBack 9 (setBack 8 { count := some 3, photoIds := [7, 4, 6], backPhotoId := 7 }) =
        { count := some 3, photoIds := [9, 4, 6], backPhotoId := 9 } := by
  have hslice : Reached { count := some 1, photoIds := [4], backPhotoId := 0 } false :=
    Reached.empty.step (by decide : (Change.addSlice [4] 1).Allowed _)
  have hnew : Reached { count := some 2, photoIds := [4, 6], backPhotoId := 0 } false :=
    hslice.step (by decide : (Change.addNew 6).Allowed _)
  have hback : Reached { count := some 3, photoIds := [7, 4, 6], backPhotoId := 7 } false :=
    hnew.step (by decide : (Change.setBack 7).Allowed _)
  have hphotos := photos_stay_coherent hback
  exact ⟨hphotos.1, (hphotos.2.2.2 8 9 fun h => Bool.noConfusion h).trans (by decide)⟩

/-- A photo that has come as a new one and then becomes the back photo is listed twice. -/
theorem setBack_lists_twice :
    (setBack 5 (addNew 6 (addNew 5 PhotoList.empty))).photoIds = [5, 5, 6] ∧
      ¬ (setBack 5 (addNew 6 (addNew 5 PhotoList.empty))).photoIds.Nodup := by
  decide

end UserPhotos
