import Telegravim.LocalData.Records

set_option autoImplicit false

/-!
# Local data: the pass over bindings

What `NormalizeBindings` does to the records of a module: a record is left alone or it becomes a
tombstone with its former value archived, and which bindings become tombstones is told from the
records alone. The bindings of the result are consistent exactly when no binding that stays names a
later one that goes.

## Main definitions

* `LocalData.Tombstoned` — a binding before and after it was marked deleted.
* `LocalData.Buried` — the bindings that the pass marks deleted.
* `LocalData.Untangled` — no binding that stays names a later one that goes.
* `LocalData.Settled` — a module with consistent bindings.

## Main results

* `LocalData.normalizeBindings_passed` — the pass changes bindings to tombstones and nothing else.
* `LocalData.normalizeBindings_settled` — the result of the pass is consistent.
* `LocalData.tagsAlive_iff_untangled` — when no binding of the result refers to a deleted tag.
-/

namespace LocalData

open Text

/-! ### Tombstones -/

/-- A record before and after it was marked deleted: its former value is archived with the ones it
had, and its version vector is strictly larger. -/
structure Tombstoned (record deleted : JObject) : Prop where
  marked : isDeleted deleted = true
  archived : Json.ofObject (record.erase conflictVersionsField) ∈
    arrayField deleted conflictVersionsField
  kept : ∀ value ∈ arrayField record conflictVersionsField,
    value ∈ arrayField deleted conflictVersionsField
  later : counter record < counter deleted
  id : recordId deleted = recordId record
  kind : recordKind deleted = recordKind record

/-- A field that a tombstone does not write. -/
lemma find_tombstone {field : Text} (hversions : field ≠ conflictVersionsField)
    (hdeleted : field ≠ u "deleted") (hduplicate : field ≠ u "_telegravim_duplicate_of")
    (record : JObject) (duplicate : Text) :
    (tombstone record duplicate).find field = record.find field := by
  unfold tombstone
  dsimp only
  split_ifs
  · rw [OrdMap.find_insert_of_ne hdeleted, OrdMap.find_insert_of_ne hversions]
  · rw [OrdMap.find_insert_of_ne hduplicate, OrdMap.find_insert_of_ne hdeleted,
      OrdMap.find_insert_of_ne hversions]

lemma isDeleted_tombstone (record : JObject) (duplicate : Text) :
    isDeleted (tombstone record duplicate) = true := by
  unfold tombstone isDeleted
  dsimp only
  split_ifs
  · simp
  · rw [OrdMap.find_insert_of_ne duplicateField_ne.2.1.symm]
    simp

lemma arrayField_tombstone (record : JObject) (duplicate : Text) :
    arrayField (tombstone record duplicate) conflictVersionsField =
      unite (arrayField record conflictVersionsField)
        [Json.ofObject (record.erase conflictVersionsField)] := by
  have hversions := deletedField_ne.2.2.2.symm
  unfold tombstone arrayField
  dsimp only
  split_ifs
  · rw [OrdMap.find_insert_of_ne hversions]
    simp
  · rw [OrdMap.find_insert_of_ne duplicateField_ne.2.2.2.2.symm, OrdMap.find_insert_of_ne hversions]
    simp

/-- What the pass writes for a binding is a tombstone of it. -/
lemma tombstoned_of_advance {record deleted : JObject} {duplicate device : Text}
    (h : advance (tombstone record duplicate) device = .ok deleted) : Tombstoned record deleted := by
  have harray : arrayField deleted conflictVersionsField =
      unite (arrayField record conflictVersionsField)
        [Json.ofObject (record.erase conflictVersionsField)] := by
    rw [← arrayField_tombstone record duplicate]
    unfold arrayField
    rw [find_advance h vectorField_ne.2.2.2.symm]
  have hcounter : counter (tombstone record duplicate) = counter record := by
    funext device
    unfold counter versionVector
    rw [find_tombstone versionsField_ne.2.2.symm deletedField_ne.2.2.1.symm
      duplicateField_ne.2.2.2.1.symm]
  refine ⟨?_, ?_, ?_, ?_, ?_, ?_⟩
  · rw [isDeleted_advance h, isDeleted_tombstone]
  · rw [harray]
    simp
  · intro value hvalue
    rw [harray]
    exact mem_unite.mpr (Or.inl hvalue)
  · rw [← hcounter]
    exact lt_of_advance h
  · rw [recordId_advance h]
    unfold recordId
    rw [find_tombstone versionsField_ne.1.symm deletedField_ne.1.symm duplicateField_ne.1.symm]
  · unfold recordKind
    rw [find_advance h vectorField_ne.2.2.1.symm, find_tombstone versionsField_ne.2.1.symm
      deletedField_ne.2.1.symm duplicateField_ne.2.2.1.symm]

lemma not_deleted_of_active {record : JObject} (h : activeBinding record = true) :
    isDeleted record = false := by
  simp only [activeBinding, Bool.and_eq_true, Bool.not_eq_true'] at h
  exact h.2

/-! ### What the pass does to each record -/

/-- The records before and after a pass: each is left alone, or it was an active binding and became
a tombstone. -/
def Passed (before after : OrdMap Text JObject) : Prop :=
  ∀ id, after.find id = before.find id ∨
    ∃ record deleted, before.find id = some record ∧ activeBinding record = true ∧
      after.find id = some deleted ∧ Tombstoned record deleted

/-- The loop over bindings turns records that it has not reached into tombstones.

**Proof sketch.** Induction on the records still to visit: these are as they were before the loop,
so a tombstone that is written is one of the record that was there. -/
lemma normalizeLoop_passed {device : Text} {before : OrdMap Text JObject}
    {rest : List (Text × JObject)} (hnodup : (rest.map Prod.fst).Nodup)
    {current : OrdMap Text JObject} {active : OrdMap Text Text} {after : OrdMap Text JObject}
    (hrest : ∀ entry ∈ rest, before.find entry.1 = some entry.2)
    (hcurrent : ∀ entry ∈ rest, current.find entry.1 = before.find entry.1)
    (hpassed : Passed before current)
    (h : normalizeLoop device rest current active = .ok after) : Passed before after := by
  induction rest generalizing current active with
  | nil =>
    cases h
    exact hpassed
  | cons entry rest ih =>
    obtain ⟨id, record⟩ := entry
    obtain ⟨hfresh, hnodup⟩ := List.nodup_cons.mp hnodup
    obtain ⟨hrecord, hrest⟩ := List.forall_mem_cons.mp hrest
    obtain ⟨-, hcurrent⟩ := List.forall_mem_cons.mp hcurrent
    unfold normalizeLoop at h
    dsimp only at h
    split_ifs at h with hactive hcondition
    · exact ih hnodup hrest hcurrent hpassed h
    · rw [Bool.not_eq_false] at hactive
      split at h
      · cases h
      · rename_i deleted hadvance
        refine ih hnodup hrest ?_ ?_ h
        · intro other hother
          have hne : other.1 ≠ id := fun heq => hfresh (List.mem_map.mpr ⟨other, hother, heq⟩)
          rw [OrdMap.find_insert_of_ne hne]
          exact hcurrent other hother
        · intro key
          by_cases hkey : key = id
          · subst hkey
            exact Or.inr ⟨record, deleted, hrecord, hactive, OrdMap.find_insert_self _ _ _,
              tombstoned_of_advance hadvance⟩
          · rw [OrdMap.find_insert_of_ne hkey]
            exact hpassed key
    · exact ih hnodup hrest hcurrent hpassed h

lemma Passed.refl (records : OrdMap Text JObject) : Passed records records := fun _ => Or.inl rfl

lemma Passed.keyed {before after : OrdMap Text JObject} (h : Passed before after)
    (hkeyed : Keyed before) : Keyed after := by
  intro id record hrecord
  rcases h id with heq | ⟨old, deleted, hold, -, hdeleted, htombstoned⟩
  · exact hkeyed id record (heq ▸ hrecord)
  · rw [hdeleted] at hrecord
    cases hrecord
    exact htombstoned.id.trans (hkeyed id old hold)

/-- A successful pass over a module of saved tags is the loop over its records. -/
lemma normalizeLoop_of_normalizeBindings {module normalized : JObject} {device : Text}
    (htags : isSavedTags module = true) (h : normalizeBindings module device = .ok normalized) :
    ∃ after, normalizeLoop device (records module).entries (records module) ∅ = .ok after ∧
      Passed (records module) after ∧ normalized = setRecords module after ∧
      records normalized = after := by
  unfold normalizeBindings at h
  rw [htags, if_neg (by simp)] at h
  split at h
  · cases h
  · rename_i after hloop
    cases h
    have hpassed : Passed (records module) after :=
      normalizeLoop_passed (records module).nodup_keys
        (fun entry hentry => OrdMap.find_eq_some_iff.mpr hentry) (fun _ _ => rfl) (Passed.refl _) hloop
    exact ⟨after, hloop, hpassed, rfl, records_setRecords (hpassed.keyed (keyed_records module)) module⟩

/-- A pass over another module changes nothing. -/
lemma eq_of_normalizeBindings {module normalized : JObject} {device : Text}
    (htags : isSavedTags module = false) (h : normalizeBindings module device = .ok normalized) :
    normalized = module := by
  unfold normalizeBindings at h
  rw [htags, if_pos rfl] at h
  exact (Except.ok.inj h).symm

/-- **The pass changes active bindings to tombstones and nothing else.** -/
theorem normalizeBindings_passed {module normalized : JObject} {device : Text}
    (h : normalizeBindings module device = .ok normalized) :
    Passed (records module) (records normalized) := by
  by_cases htags : isSavedTags module = true
  · obtain ⟨after, -, hpassed, -, hrecords⟩ := normalizeLoop_of_normalizeBindings htags h
    rw [hrecords]
    exact hpassed
  · rw [eq_of_normalizeBindings (Bool.eq_false_iff.mpr htags) h]
    exact Passed.refl _

/-- The pass leaves the other fields of a module alone. -/
lemma find_normalizeBindings {module normalized : JObject} {device field : Text}
    (hfield : field ≠ u "records") (h : normalizeBindings module device = .ok normalized) :
    normalized.find field = module.find field := by
  by_cases htags : isSavedTags module = true
  · obtain ⟨after, -, -, heq, -⟩ := normalizeLoop_of_normalizeBindings htags h
    rw [heq, find_setRecords_of_ne hfield]
  · rw [eq_of_normalizeBindings (Bool.eq_false_iff.mpr htags) h]

lemma isSavedTags_normalizeBindings {module normalized : JObject} {device : Text}
    (h : normalizeBindings module device = .ok normalized) :
    isSavedTags normalized = isSavedTags module := by
  unfold isSavedTags moduleId schemaVersion
  rw [find_normalizeBindings recordsField_ne.1.symm h,
    find_normalizeBindings recordsField_ne.2.symm h]

/-! ### Which bindings go -/

/-- The bindings that the pass marks deleted: those of a deleted tag, those that assign the same as
an earlier one, and those that name as their tag an earlier binding that goes. -/
inductive Buried (records : OrdMap Text JObject) : Text → Prop where
  | tag {id : Text} {record tag : JObject} : records.find id = some record →
      activeBinding record = true → records.find (bindingTag record) = some tag →
      isDeleted tag = true → Buried records id
  | duplicate {id earlier : Text} {record other : JObject} : records.find id = some record →
      activeBinding record = true → records.find earlier = some other →
      activeBinding other = true → earlier < id → bindingIdentity other = bindingIdentity record →
      Buried records id
  | binding {id : Text} {record : JObject} : records.find id = some record →
      activeBinding record = true → bindingTag record < id → Buried records (bindingTag record) →
      Buried records id

/-- No active binding that stays names a later one that goes. -/
def Untangled (records : OrdMap Text JObject) : Prop :=
  ∀ id record, records.find id = some record → activeBinding record = true →
    id < bindingTag record → Buried records (bindingTag record) → Buried records id

/-! ### The loop over bindings -/

/-- A visited binding that stays: it is as it was, it is the one seen to assign what it assigns, its
tag was not deleted, and when its tag is deleted now then it was reached later. -/
structure Stays (records current : OrdMap Text JObject) (active : OrdMap Text Text) (id : Text)
    (record : JObject) : Prop where
  same : current.find id = some record
  seen : active.find (bindingIdentity record) = some id
  alive : ∀ tag, records.find (bindingTag record) = some tag → isDeleted tag = false
  later : ∀ tag, current.find (bindingTag record) = some tag → isDeleted tag = true →
    id < bindingTag record ∧ Buried records (bindingTag record)

/-- A visited binding that goes, and why. -/
structure Goes (records current : OrdMap Text JObject) (active : OrdMap Text Text) (id : Text)
    (record : JObject) : Prop where
  buried : Buried records id
  marked : ∃ deleted, current.find id = some deleted ∧ isDeleted deleted = true
  reason : (∃ tag, records.find (bindingTag record) = some tag ∧ isDeleted tag = true) ∨
    (bindingTag record < id ∧
      ∃ tag, current.find (bindingTag record) = some tag ∧ isDeleted tag = true) ∨
    ∃ earlier, earlier < id ∧ active.find (bindingIdentity record) = some earlier

/-- What the loop knows of the records after some of them. -/
structure Visited (records : OrdMap Text JObject) (done : List (Text × JObject))
    (current : OrdMap Text JObject) (active : OrdMap Text Text) : Prop where
  rest : ∀ id, (∀ entry ∈ done, entry.1 ≠ id) → current.find id = records.find id
  passive : ∀ entry ∈ done, activeBinding entry.2 = false → current.find entry.1 = some entry.2
  visited : ∀ entry ∈ done, activeBinding entry.2 = true →
    Stays records current active entry.1 entry.2 ∨ Goes records current active entry.1 entry.2
  source : ∀ identity id, active.find identity = some id →
    ∃ record, (id, record) ∈ done ∧ activeBinding record = true ∧ bindingIdentity record = identity

section Visit

variable {records : OrdMap Text JObject} {done rest : List (Text × JObject)} {id : Text}
  {record : JObject} {current : OrdMap Text JObject} {active : OrdMap Text Text}

/-- A record that is deleted at some point of the loop was so before, or it is a binding that was
reached. -/
lemma Visited.deleted (h : Visited records done current active)
    (hentries : records.entries = done ++ rest) {tag : JObject} (hfind : current.find id = some tag)
    (hdeleted : isDeleted tag = true) :
    (∃ before, records.find id = some before ∧ isDeleted before = true) ∨
      (∃ entry ∈ done, entry.1 = id) ∧ Buried records id := by
  by_cases hdone : ∃ entry ∈ done, entry.1 = id
  · obtain ⟨entry, hentry, rfl⟩ := hdone
    have hrecord : records.find entry.1 = some entry.2 :=
      OrdMap.find_eq_some_iff.mpr (hentries ▸ List.mem_append_left _ hentry)
    by_cases hactive : activeBinding entry.2 = true
    · rcases h.visited entry hentry hactive with hstays | hgoes
      · rw [hstays.same] at hfind
        cases hfind
        rw [not_deleted_of_active hactive] at hdeleted
        exact absurd hdeleted (by simp)
      · exact Or.inr ⟨⟨entry, hentry, rfl⟩, hgoes.buried⟩
    · rw [h.passive entry hentry (Bool.eq_false_iff.mpr hactive)] at hfind
      cases hfind
      exact Or.inl ⟨_, hrecord, hdeleted⟩
  · rw [h.rest id fun entry hentry heq => hdone ⟨entry, hentry, heq⟩] at hfind
    exact Or.inl ⟨tag, hfind, hdeleted⟩

/-- A record that was deleted before the loop stays so. -/
lemma Visited.still_deleted (h : Visited records done current active)
    (hentries : records.entries = done ++ rest) {tag : JObject} (hfind : records.find id = some tag)
    (hdeleted : isDeleted tag = true) : current.find id = some tag := by
  by_cases hdone : ∃ entry ∈ done, entry.1 = id
  · obtain ⟨entry, hentry, rfl⟩ := hdone
    have hrecord : records.find entry.1 = some entry.2 :=
      OrdMap.find_eq_some_iff.mpr (hentries ▸ List.mem_append_left _ hentry)
    rw [hrecord] at hfind
    cases hfind
    refine h.passive entry hentry ?_
    simp [activeBinding, hdeleted]
  · rw [h.rest id fun entry hentry heq => hdone ⟨entry, hentry, heq⟩, hfind]

variable (h : Visited records done current active)
  (hentries : records.entries = done ++ (id, record) :: rest)

include hentries in
/-- The records that were visited stand before the next one. -/
lemma lt_of_visited {entry : Text × JObject} (hentry : entry ∈ done) : entry.1 < id := by
  have hsorted := records.sorted
  rw [hentries] at hsorted
  exact (List.pairwise_append.mp hsorted).2.2 entry hentry (id, record) List.mem_cons_self

include hentries in
lemma find_of_next : records.find id = some record :=
  OrdMap.find_eq_some_iff.mpr (hentries ▸ List.mem_append_right _ List.mem_cons_self)

include h hentries in
lemma current_of_next : current.find id = some record := by
  rw [h.rest id fun entry hentry => (lt_of_visited hentries hentry).ne]
  exact find_of_next hentries

include h hentries in
lemma Visited.skip (hactive : activeBinding record = false) :
    Visited records (done ++ [(id, record)]) current active := by
  refine ⟨?_, ?_, ?_, ?_⟩
  · intro key hkey
    exact h.rest key fun entry hentry => hkey entry (List.mem_append_left _ hentry)
  · intro entry hentry hpassive
    rcases List.mem_append.mp hentry with hentry | hentry
    · exact h.passive entry hentry hpassive
    · rw [List.mem_singleton.mp hentry]
      exact current_of_next h hentries
  · intro entry hentry hother
    rcases List.mem_append.mp hentry with hentry | hentry
    · exact h.visited entry hentry hother
    · rw [List.mem_singleton.mp hentry, hactive] at hother
      exact absurd hother (by simp)
  · intro identity key hkey
    obtain ⟨other, hother, hrest⟩ := h.source identity key hkey
    exact ⟨other, List.mem_append_left _ hother, hrest⟩

include h hentries in
/-- A binding of a tag that is not deleted, which nothing before assigns the same as, stays. -/
lemma Visited.keep (hactive : activeBinding record = true)
    (htag : isDeleted ((current.find (bindingTag record)).getD ∅) = false)
    (hfresh : active.find (bindingIdentity record) = none) :
    Visited records (done ++ [(id, record)]) current
      (active.insert (bindingIdentity record) id) := by
  have hold : ∀ identity key, active.find identity = some key →
      (active.insert (bindingIdentity record) id).find identity = some key := by
    intro identity key hkey
    have hne : identity ≠ bindingIdentity record := fun heq => by
      rw [heq, hfresh] at hkey
      cases hkey
    rw [OrdMap.find_insert_of_ne hne]
    exact hkey
  have hnot : ∀ tag, current.find (bindingTag record) = some tag → isDeleted tag = true → False := by
    intro tag hfind hdeleted
    rw [hfind, Option.getD_some, hdeleted] at htag
    cases htag
  refine ⟨?_, ?_, ?_, ?_⟩
  · intro key hkey
    exact h.rest key fun entry hentry => hkey entry (List.mem_append_left _ hentry)
  · intro entry hentry hpassive
    rcases List.mem_append.mp hentry with hentry | hentry
    · exact h.passive entry hentry hpassive
    · rw [List.mem_singleton.mp hentry, hactive] at hpassive
      exact absurd hpassive (by simp)
  · intro entry hentry hother
    rcases List.mem_append.mp hentry with hentry | hentry
    · rcases h.visited entry hentry hother with hstays | hgoes
      · exact Or.inl ⟨hstays.same, hold _ _ hstays.seen, hstays.alive, hstays.later⟩
      · refine Or.inr ⟨hgoes.buried, hgoes.marked, ?_⟩
        rcases hgoes.reason with hreason | hreason | ⟨earlier, hlt, hseen⟩
        · exact Or.inl hreason
        · exact Or.inr (Or.inl hreason)
        · exact Or.inr (Or.inr ⟨earlier, hlt, hold _ _ hseen⟩)
    · rw [List.mem_singleton.mp hentry]
      refine Or.inl ⟨current_of_next h hentries, OrdMap.find_insert_self _ _ _, ?_, ?_⟩
      · intro tag hfind
        rw [← Bool.not_eq_true]
        intro hdeleted
        exact hnot tag (h.still_deleted hentries hfind hdeleted) hdeleted
      · intro tag hfind hdeleted
        exact absurd hdeleted fun hdeleted => hnot tag hfind hdeleted
  · intro identity key hkey
    rw [OrdMap.find_insert] at hkey
    split_ifs at hkey with hidentity
    · cases hkey
      exact ⟨record, List.mem_append_right _ (List.mem_singleton_self _), hactive, hidentity.symm⟩
    · obtain ⟨other, hother, hrest⟩ := h.source identity key hkey
      exact ⟨other, List.mem_append_left _ hother, hrest⟩

include h hentries in
/-- Why a binding that is marked deleted goes. -/
lemma Visited.goes (hactive : activeBinding record = true) {deleted : JObject}
    (hdeleted : isDeleted deleted = true)
    (hcondition : isDeleted ((current.find (bindingTag record)).getD ∅) = true ∨
      (active.find (bindingIdentity record)).getD [] ≠ []) :
    Goes records (current.insert id deleted) active id record := by
  have hrecord := find_of_next hentries
  rcases hcondition with htag | hduplicate
  · cases hfind : current.find (bindingTag record) with
    | none =>
      rw [hfind] at htag
      exact absurd htag (by decide)
    | some tag =>
      rw [hfind] at htag
      have hmarked : ∃ mark, (current.insert id deleted).find id = some mark ∧ isDeleted mark = true :=
        ⟨deleted, OrdMap.find_insert_self _ _ _, hdeleted⟩
      rcases h.deleted hentries hfind htag with ⟨before, hbefore, hwas⟩ | ⟨⟨entry, hentry, heq⟩, hburied⟩
      · exact ⟨.tag hrecord hactive hbefore hwas, hmarked, Or.inl ⟨before, hbefore, hwas⟩⟩
      · have hlt : bindingTag record < id := heq ▸ lt_of_visited hentries hentry
        refine ⟨.binding hrecord hactive hlt hburied, hmarked, Or.inr (Or.inl ⟨hlt, tag, ?_, htag⟩)⟩
        rw [OrdMap.find_insert_of_ne hlt.ne]
        exact hfind
  · cases hseen : active.find (bindingIdentity record) with
    | none =>
      rw [hseen] at hduplicate
      exact absurd rfl hduplicate
    | some earlier =>
      obtain ⟨other, hother, hactiveOther, hidentity⟩ := h.source _ _ hseen
      have hlt : earlier < id := lt_of_visited hentries hother
      have hfindOther : records.find earlier = some other :=
        OrdMap.find_eq_some_iff.mpr (hentries ▸ List.mem_append_left _ hother)
      exact ⟨.duplicate hrecord hactive hfindOther hactiveOther hlt hidentity,
        ⟨deleted, OrdMap.find_insert_self _ _ _, hdeleted⟩, Or.inr (Or.inr ⟨earlier, hlt, hseen⟩)⟩

include h hentries in
/-- A binding that goes leaves the others as they are. -/
lemma Visited.bury (hactive : activeBinding record = true) {deleted : JObject}
    (hgoes : Goes records (current.insert id deleted) active id record) :
    Visited records (done ++ [(id, record)]) (current.insert id deleted) active := by
  have hne : ∀ entry ∈ done, entry.1 ≠ id := fun entry hentry => (lt_of_visited hentries hentry).ne
  refine ⟨?_, ?_, ?_, ?_⟩
  · intro key hkey
    have hnext : key ≠ id :=
      (hkey (id, record) (List.mem_append_right _ (List.mem_singleton_self _))).symm
    rw [OrdMap.find_insert_of_ne hnext]
    exact h.rest key fun entry hentry => hkey entry (List.mem_append_left _ hentry)
  · intro entry hentry hpassive
    rcases List.mem_append.mp hentry with hentry | hentry
    · rw [OrdMap.find_insert_of_ne (hne entry hentry)]
      exact h.passive entry hentry hpassive
    · rw [List.mem_singleton.mp hentry, hactive] at hpassive
      exact absurd hpassive (by simp)
  · intro entry hentry hother
    rcases List.mem_append.mp hentry with hentry | hentry
    · rcases h.visited entry hentry hother with hstays | hold
      · refine Or.inl ⟨?_, hstays.seen, hstays.alive, ?_⟩
        · rw [OrdMap.find_insert_of_ne (hne entry hentry)]
          exact hstays.same
        · intro tag hfind hdeleted
          by_cases htag : bindingTag entry.2 = id
          · rw [htag]
            exact ⟨lt_of_visited hentries hentry, hgoes.buried⟩
          · rw [OrdMap.find_insert_of_ne htag] at hfind
            exact hstays.later tag hfind hdeleted
      · obtain ⟨mark, hmark, hdeleted⟩ := hold.marked
        refine Or.inr ⟨hold.buried, ⟨mark, ?_, hdeleted⟩, ?_⟩
        · rw [OrdMap.find_insert_of_ne (hne entry hentry)]
          exact hmark
        · rcases hold.reason with hreason | ⟨hlt, tag, hfind, htag⟩ | hreason
          · exact Or.inl hreason
          · have htagNe : bindingTag entry.2 ≠ id := (hlt.trans (lt_of_visited hentries hentry)).ne
            refine Or.inr (Or.inl ⟨hlt, tag, ?_, htag⟩)
            rw [OrdMap.find_insert_of_ne htagNe]
            exact hfind
          · exact Or.inr (Or.inr hreason)
    · rw [List.mem_singleton.mp hentry]
      exact Or.inr hgoes
  · intro identity key hkey
    obtain ⟨other, hother, hrest⟩ := h.source identity key hkey
    exact ⟨other, List.mem_append_left _ hother, hrest⟩

end Visit

/-- **What the loop has established at its end.**

**Proof sketch.** Induction on the records still to visit, with one lemma for each way the loop
takes a record. An id is never empty, so a binding seen before is told from none. -/
lemma normalizeLoop_visited {device : Text} {records : OrdMap Text JObject}
    (hids : ∀ id record, records.find id = some record → id ≠ []) {rest done : List (Text × JObject)}
    {current : OrdMap Text JObject} {active : OrdMap Text Text} {after : OrdMap Text JObject}
    (hentries : records.entries = done ++ rest) (hvisited : Visited records done current active)
    (h : normalizeLoop device rest current active = .ok after) :
    ∃ active, Visited records records.entries after active := by
  induction rest generalizing done current active with
  | nil =>
    cases h
    rw [List.append_nil] at hentries
    exact ⟨active, hentries ▸ hvisited⟩
  | cons entry rest ih =>
    obtain ⟨id, record⟩ := entry
    have hnext : records.entries = (done ++ [(id, record)]) ++ rest := by
      rw [hentries]
      simp
    unfold normalizeLoop at h
    dsimp only at h
    split_ifs at h with hactive hcondition
    · exact ih hnext (hvisited.skip hentries hactive) h
    · rw [Bool.not_eq_false] at hactive
      split at h
      · cases h
      · rename_i deleted hadvance
        have hdeleted := (tombstoned_of_advance hadvance).marked
        exact ih hnext (hvisited.bury hentries hactive
          (hvisited.goes hentries hactive hdeleted hcondition)) h
    · rw [Bool.not_eq_false] at hactive
      rw [not_or, Bool.not_eq_true, not_not] at hcondition
      refine ih hnext (hvisited.keep hentries hactive hcondition.1 ?_) h
      cases hseen : active.find (bindingIdentity record) with
      | none => rfl
      | some earlier =>
        obtain ⟨other, hother, -⟩ := hvisited.source _ _ hseen
        have hfind : records.find earlier = some other :=
          OrdMap.find_eq_some_iff.mpr (hentries ▸ List.mem_append_left _ hother)
        rw [hseen] at hcondition
        exact absurd hcondition.2 (hids earlier other hfind)

/-! ### Consistent bindings -/

/-- No active binding refers to a record that is marked deleted. -/
def TagsAlive (records : OrdMap Text JObject) : Prop :=
  ∀ id record tag, records.find id = some record → activeBinding record = true →
    records.find (bindingTag record) = some tag → isDeleted tag = false

/-- Active bindings that assign the same are the same. -/
def Distinct (records : OrdMap Text JObject) : Prop :=
  ∀ id record id' record', records.find id = some record → activeBinding record = true →
    records.find id' = some record' → activeBinding record' = true →
    bindingIdentity record = bindingIdentity record' → id = id'

/-- Active bindings tell their tag from their message: what they assign as text determines the
tag. -/
def Parsed (records : OrdMap Text JObject) : Prop :=
  ∀ id record (other : JObject), records.find id = some record → activeBinding record = true →
    bindingIdentity other = bindingIdentity record → bindingTag other = bindingTag record

lemma Buried.record {records : OrdMap Text JObject} {id : Text} (h : Buried records id) :
    ∃ record, records.find id = some record ∧ activeBinding record = true := by
  cases h with
  | tag hrecord hactive => exact ⟨_, hrecord, hactive⟩
  | duplicate hrecord hactive => exact ⟨_, hrecord, hactive⟩
  | binding hrecord hactive => exact ⟨_, hrecord, hactive⟩

section Consistent

variable {records after : OrdMap Text JObject} {active : OrdMap Text Text}
  (h : Visited records records.entries after active)

include h

/-- A binding that is active after the loop was active before, and stays. -/
lemma stays_of_active {id : Text} {record : JObject} (hfind : after.find id = some record)
    (hactive : activeBinding record = true) :
    records.find id = some record ∧ Stays records after active id record := by
  cases hbefore : records.find id with
  | none =>
    have hrest : after.find id = records.find id := by
      refine h.rest id fun entry hentry heq => ?_
      rw [← heq, OrdMap.find_eq_some_iff.mpr hentry] at hbefore
      cases hbefore
    rw [hrest, hbefore] at hfind
    cases hfind
  | some before =>
    have hentry := OrdMap.find_eq_some_iff.mp hbefore
    by_cases hwas : activeBinding before = true
    · rcases h.visited _ hentry hwas with hstays | hgoes
      · rw [hstays.same] at hfind
        cases hfind
        exact ⟨rfl, hstays⟩
      · obtain ⟨deleted, hmark, hdeleted⟩ := hgoes.marked
        rw [hmark] at hfind
        cases hfind
        rw [not_deleted_of_active hactive] at hdeleted
        cases hdeleted
    · rw [h.passive _ hentry (Bool.eq_false_iff.mpr hwas)] at hfind
      cases hfind
      exact absurd hactive hwas

/-- After the loop, active bindings that assign the same are the same. -/
lemma Visited.distinct : Distinct after := by
  intro id record id' record' hfind hactive hfind' hactive' hidentity
  have hseen := (stays_of_active h hfind hactive).2.seen
  have hseen' := (stays_of_active h hfind' hactive').2.seen
  rw [hidentity, hseen'] at hseen
  exact (Option.some.inj hseen).symm

/-- **A binding that is told to go does not stay.**

**Proof sketch.** Induction on why it goes. A binding of a tag that was deleted before does not stay.
One that assigns the same as an earlier one has the same tag; the earlier one is seen, or it went
for a reason that holds of the later one as well. One that names an earlier binding that goes finds
it deleted. -/
lemma not_stays_of_buried (hparsed : Parsed after) {id : Text} (hburied : Buried records id) :
    ∀ record, records.find id = some record → activeBinding record = true →
      ¬Stays records after active id record := by
  induction hburied with
  | tag hrecord _ htag hdeleted =>
    intro record hfind _ hstays
    rw [hrecord] at hfind
    cases hfind
    rw [hstays.alive _ htag] at hdeleted
    cases hdeleted
  | @duplicate id earlier record other hrecord _ hother hactiveOther hlt hidentity =>
    intro found hfind hactive hstays
    obtain rfl : found = record := Option.some.inj (hfind.symm.trans hrecord)
    have htags : bindingTag other = bindingTag found :=
      hparsed id found other hstays.same hactive hidentity
    rcases h.visited _ (OrdMap.find_eq_some_iff.mp hother) hactiveOther with hearlier | hgoes
    · have hseen := hearlier.seen
      rw [hidentity, hstays.seen] at hseen
      exact hlt.ne (Option.some.inj hseen).symm
    · rcases hgoes.reason with ⟨tag, hfindTag, hdeleted⟩ | ⟨hbefore, tag, hfindTag, hdeleted⟩ |
        ⟨first, hfirst, hseen⟩
      · rw [hstays.alive tag (htags ▸ hfindTag)] at hdeleted
        cases hdeleted
      · have hafter := (hstays.later tag (htags ▸ hfindTag) hdeleted).1
        rw [← htags] at hafter
        exact lt_asymm hafter (lt_trans hbefore hlt)
      · rw [hidentity, hstays.seen] at hseen
        cases hseen
        exact lt_asymm hlt hfirst
  | @binding id _ hrecord _ hlt htag ih =>
    intro record hfind hactive hstays
    rw [hrecord] at hfind
    cases hfind
    obtain ⟨tag, hfindTag, hactiveTag⟩ := htag.record
    rcases h.visited _ (OrdMap.find_eq_some_iff.mp hfindTag) hactiveTag with hstaysTag | hgoes
    · exact ih tag hfindTag hactiveTag hstaysTag
    · obtain ⟨deleted, hmark, hdeleted⟩ := hgoes.marked
      exact lt_asymm hlt (hstays.later deleted hmark hdeleted).1

/-- **No binding refers to a deleted tag after the loop exactly when the records were untangled.** -/
lemma Visited.tagsAlive_iff (hparsed : Parsed after) : TagsAlive after ↔ Untangled records := by
  constructor
  · intro halive id record hfind hactive hlt hburied
    rcases h.visited _ (OrdMap.find_eq_some_iff.mp hfind) hactive with hstays | hgoes
    · obtain ⟨tag, hfindTag, hactiveTag⟩ := hburied.record
      rcases h.visited _ (OrdMap.find_eq_some_iff.mp hfindTag) hactiveTag with hstaysTag | hgoesTag
      · exact absurd hstaysTag (not_stays_of_buried h hparsed hburied tag hfindTag hactiveTag)
      · obtain ⟨deleted, hmark, hdeleted⟩ := hgoesTag.marked
        rw [halive id record deleted hstays.same hactive hmark] at hdeleted
        cases hdeleted
    · exact hgoes.buried
  · intro huntangled id record tag hfind hactive htag
    obtain ⟨hbefore, hstays⟩ := stays_of_active h hfind hactive
    rw [← Bool.not_eq_true]
    intro hdeleted
    obtain ⟨hlt, hburied⟩ := hstays.later tag htag hdeleted
    exact not_stays_of_buried h hparsed (huntangled id record hbefore hactive hlt hburied) record
      hbefore hactive hstays

end Consistent

/-- Records with consistent bindings are left alone by the loop. -/
lemma normalizeLoop_fixed {records : OrdMap Text JObject} (halive : TagsAlive records)
    (hdistinct : Distinct records) (device : Text) {rest done : List (Text × JObject)}
    {active : OrdMap Text Text} (hentries : records.entries = done ++ rest)
    (hsource : ∀ identity id, active.find identity = some id →
      ∃ record, (id, record) ∈ done ∧ activeBinding record = true ∧
        bindingIdentity record = identity) :
    normalizeLoop device rest records active = .ok records := by
  induction rest generalizing done active with
  | nil => rfl
  | cons entry rest ih =>
    obtain ⟨id, record⟩ := entry
    have hnext : records.entries = (done ++ [(id, record)]) ++ rest := by
      rw [hentries]
      simp
    have hfind : records.find id = some record :=
      OrdMap.find_eq_some_iff.mpr (hentries ▸ List.mem_append_right _ List.mem_cons_self)
    have hsource' : ∀ identity key, active.find identity = some key →
        ∃ record', (key, record') ∈ done ++ [(id, record)] ∧ activeBinding record' = true ∧
          bindingIdentity record' = identity := by
      intro identity key hkey
      obtain ⟨other, hother, hrest⟩ := hsource identity key hkey
      exact ⟨other, List.mem_append_left _ hother, hrest⟩
    unfold normalizeLoop
    dsimp only
    split_ifs with hactive hcondition
    · exact ih hnext hsource'
    · rw [Bool.not_eq_false] at hactive
      exfalso
      rcases hcondition with htag | hduplicate
      · cases hfindTag : records.find (bindingTag record) with
        | none =>
          rw [hfindTag] at htag
          exact absurd htag (by decide)
        | some tag =>
          rw [hfindTag, Option.getD_some, halive id record tag hfind hactive hfindTag] at htag
          cases htag
      · cases hseen : active.find (bindingIdentity record) with
        | none =>
          rw [hseen] at hduplicate
          exact hduplicate rfl
        | some earlier =>
          obtain ⟨other, hother, hactiveOther, hidentity⟩ := hsource _ _ hseen
          have hfindOther : records.find earlier = some other :=
            OrdMap.find_eq_some_iff.mpr (hentries ▸ List.mem_append_left _ hother)
          have heq := hdistinct earlier other id record hfindOther hactiveOther hfind hactive hidentity
          exact (lt_of_visited hentries hother).ne heq
    · rw [Bool.not_eq_false] at hactive
      refine ih hnext ?_
      intro identity key hkey
      rw [OrdMap.find_insert] at hkey
      split_ifs at hkey with hidentity
      · cases hkey
        exact ⟨record, List.mem_append_right _ (List.mem_singleton_self _), hactive, hidentity.symm⟩
      · exact hsource' identity key hkey

/-- A module of saved tags with consistent bindings: no active binding refers to a deleted tag, no
two of them assign the same tag to the same message, and the pass changes nothing. -/
structure Settled (module : JObject) : Prop where
  tagsAlive : TagsAlive (records module)
  distinct : ∀ id record id' record', (records module).find id = some record →
    activeBinding record = true → (records module).find id' = some record' →
    activeBinding record' = true → bindingTag record = bindingTag record' →
    bindingMessageId record = bindingMessageId record' → id = id'
  fixed : ∀ device, normalizeBindings module device = .ok module

section Normalized

variable {module normalized : JObject} {device : Text}

/-- The active bindings of a normalized module are told apart by tag and message. -/
lemma visited_of_normalizeBindings (htags : isSavedTags module = true)
    (h : normalizeBindings module device = .ok normalized)
    (hids : ∀ id record, (records normalized).find id = some record → id ≠ []) :
    ∃ active, Visited (records module) (records module).entries (records normalized) active := by
  obtain ⟨after, hloop, hpassed, -, hrecords⟩ := normalizeLoop_of_normalizeBindings htags h
  rw [hrecords] at hids ⊢
  refine normalizeLoop_visited ?_ (List.nil_append _).symm
    ⟨fun _ _ => rfl, by simp, by simp, by simp⟩ hloop
  intro id record hfind
  rcases hpassed id with heq | ⟨old, deleted, -, -, hdeleted, -⟩
  · exact hids id record (heq.trans hfind)
  · exact hids id deleted hdeleted

/-- **What the pass does to each record**: it leaves it alone, or the record is a binding that goes. -/
theorem normalizeBindings_buried (h : normalizeBindings module device = .ok normalized)
    (hids : isSavedTags module = true →
      ∀ id record, (records normalized).find id = some record → id ≠ [])
    {id : Text} {record : JObject} (hrecord : (records module).find id = some record) :
    (records normalized).find id = some record ∨
      Buried (records module) id ∧ ∃ deleted, (records normalized).find id = some deleted ∧
        Tombstoned record deleted := by
  by_cases htags : isSavedTags module = true
  · rcases normalizeBindings_passed h id with heq | ⟨old, deleted, hold, hactive, hdeleted, htombstoned⟩
    · exact Or.inl (heq.trans hrecord)
    · obtain rfl : old = record := Option.some.inj (hold.symm.trans hrecord)
      obtain ⟨active, hvisited⟩ := visited_of_normalizeBindings htags h (hids htags)
      rcases hvisited.visited _ (OrdMap.find_eq_some_iff.mp hold) hactive with hstays | hgoes
      · exact Or.inl hstays.same
      · exact Or.inr ⟨hgoes.buried, deleted, hdeleted, htombstoned⟩
  · rw [eq_of_normalizeBindings (Bool.eq_false_iff.mpr htags) h]
    exact Or.inl hrecord

/-- **When the pass leaves no binding of a deleted tag**: exactly when the records it is given are
untangled. -/
theorem tagsAlive_iff_untangled (htags : isSavedTags module = true)
    (h : normalizeBindings module device = .ok normalized)
    (hids : ∀ id record, (records normalized).find id = some record → id ≠ [])
    (hparsed : Parsed (records normalized)) :
    TagsAlive (records normalized) ↔ Untangled (records module) := by
  obtain ⟨active, hvisited⟩ := visited_of_normalizeBindings htags h hids
  exact hvisited.tagsAlive_iff hparsed

/-- **The result of the pass is consistent**, when the records it is given are untangled. -/
theorem normalizeBindings_settled (htags : isSavedTags module = true)
    (h : normalizeBindings module device = .ok normalized)
    (hids : ∀ id record, (records normalized).find id = some record → id ≠ [])
    (hparsed : Parsed (records normalized)) (huntangled : Untangled (records module)) :
    Settled normalized := by
  obtain ⟨active, hvisited⟩ := visited_of_normalizeBindings htags h hids
  have halive := (hvisited.tagsAlive_iff hparsed).mpr huntangled
  have hdistinct := hvisited.distinct
  refine ⟨halive, ?_, ?_⟩
  · intro id record id' record' hfind hactive hfind' hactive' htag hmessage
    refine hdistinct id record id' record' hfind hactive hfind' hactive' ?_
    unfold bindingIdentity
    rw [htag, hmessage]
  · intro other
    obtain ⟨after, -, -, heq, hrecords⟩ := normalizeLoop_of_normalizeBindings htags h
    have hloop : normalizeLoop other (records normalized).entries (records normalized) ∅ =
        .ok (records normalized) :=
      normalizeLoop_fixed halive hdistinct other (List.nil_append _).symm (by simp)
    unfold normalizeBindings
    rw [isSavedTags_normalizeBindings h, htags, if_neg (by simp), hloop]
    dsimp only
    rw [hrecords, heq, setRecords_setRecords]

end Normalized

end LocalData
