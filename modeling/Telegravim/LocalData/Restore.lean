import Telegravim.LocalData.Archives

set_option autoImplicit false

/-!
# Local data: restoring an archived version

A restoration makes an archived version current and archives the one it replaces. The records of the
supported modules last: each is still there with a version that has not gone back. The exception by
design is a module that is restored as a whole, which replaces the module with its records; that one is
archived as a whole then.

## Main definitions

* `LocalData.archivedVersion` — the archived version that an id names.
* `LocalData.RecordsLast` — records that are still there with versions that have not gone back.
* `LocalData.Restored` — what a restoration makes of an archived version.

## Main results

* `LocalData.restore_loses_nothing` — a restoration loses nothing.
* `LocalData.restored_module_replaces` — a module that is restored as a whole.
-/

namespace LocalData

open Text

/-- The archived version that an id names: the first one on the pages that has this id. -/
def archivedVersion (host : Host) (state : Snapshot) (archiveId : Text) : Option ArchivedConflict :=
  (walkArchives host state).find? fun conflict => conflict.id = archiveId

lemma mem_of_archivedVersion {host : Host} {state : Snapshot} {archiveId : Text}
    {conflict : ArchivedConflict} (h : archivedVersion host state archiveId = some conflict) :
    conflict ∈ walkArchives host state :=
  List.mem_of_find?_eq_some h

/-- Each record is still there, with a version that has not gone back. -/
def RecordsLast (before after : OrdMap Text JObject) : Prop :=
  ∀ rid record, before.find rid = some record →
    ∃ record', after.find rid = some record' ∧ counter record ≤ counter record'

lemma RecordsLast.refl (records : OrdMap Text JObject) : RecordsLast records records :=
  fun _ record hrecord => ⟨record, hrecord, le_rfl⟩

lemma RecordsLast.trans {first second third : OrdMap Text JObject} (h : RecordsLast first second)
    (h' : RecordsLast second third) : RecordsLast first third := by
  intro rid record hrecord
  obtain ⟨middle, hmiddle, hle⟩ := h rid record hrecord
  obtain ⟨last, hlast, hle'⟩ := h' rid middle hmiddle
  exact ⟨last, hlast, hle.trans hle'⟩

/-- The pass over the bindings erases no record. -/
lemma Passed.recordsLast {before after : OrdMap Text JObject} (h : Passed before after) :
    RecordsLast before after := by
  intro rid record hrecord
  rcases h rid with heq | ⟨old, deleted, hold, -, hdeleted, htombstoned⟩
  · exact ⟨record, heq.trans hrecord, le_rfl⟩
  · rw [hrecord] at hold
    cases hold
    exact ⟨deleted, hdeleted, htombstoned.later.le⟩

/-- A restoration that succeeds restores an archived version, passes over the bindings and commits. -/
lemma restoreConflict_ok {host : Host} {env : Env} {state next : Snapshot}
    {archiveId generation : Text}
    (h : restoreConflict host env state archiveId generation = .ok next) :
    ∃ conflict restored normalized, archivedVersion host state archiveId = some conflict ∧
      state.generation = generation ∧
      (match conflict.scope with
        | .record => restoreRecord state conflict
        | .module => .ok (restoreModule host state conflict)
        | _ => .ok (restoreMetadata state conflict)) = .ok restored ∧
      normalizeSnapshot restored = .ok normalized ∧ commit host env state normalized = .ok next := by
  obtain ⟨restored, hrestored, h⟩ := bind_ok.mp h
  obtain ⟨normalized, hnormalized, h⟩ := bind_ok.mp h
  obtain ⟨⟨⟩, -, hrestored⟩ := bind_ok.mp hrestored
  obtain ⟨hgeneration, hrestored⟩ := (check_ok (failure_ne_ok _ _)).mp hrestored
  rw [not_not] at hgeneration
  split at hrestored
  · exact absurd hrestored (failure_ne_ok _ _ _)
  · rename_i conflict hconflict
    exact ⟨conflict, restored, normalized, hconflict, hgeneration, hrestored, hnormalized, h⟩

/-! ### Metadata -/

/-- The place of metadata that an archived version is of; none for a record or a module. -/
def archiveSlot (conflict : ArchivedConflict) : Option Slot :=
  match conflict.scope with
  | .record | .module => none
  | .rootExtra => some .rootExtra
  | .rootTransfer => some .rootTransfer
  | .profileExtra => some (.profileExtra conflict.profileId)
  | .profileTransfer => some (.profileTransfer conflict.profileId)
  | .moduleExtra => some (.moduleExtra conflict.profileId conflict.moduleId)
  | .assetExtra => some (.assetExtra conflict.moduleId)
  | .assetTransfer => some (.assetTransfer conflict.moduleId)

@[simp] lemma archiveSlot_entry (host : Host) (slot : Slot) (field : Text) (current : Option Json)
    (value : Json) : archiveSlot (slot.entry host field current value) = some slot := by
  cases slot <;> rfl

section Metadata

variable {host : Host} {state : Snapshot} {slot : Slot} {metadata : JObject} {field : Text}
  {current : Option Json} {value : Json}

variable (host field current value) in
/-- **A restoration of metadata writes the metadata of its place** and of no other. -/
lemma Slot.get_restoreMetadata (hget : slot.get state = some metadata) :
    slot.get (restoreMetadata state (slot.entry host field current value)) =
        some (restoreField (slot.entry host field current value) metadata) ∧
      ∀ other, other ≠ slot →
        other.get (restoreMetadata state (slot.entry host field current value)) = other.get state := by
  cases slot with
  | rootExtra =>
    cases hget
    exact ⟨rfl, fun other hother => Slot.get_extra hother _⟩
  | rootTransfer =>
    cases hget
    exact ⟨rfl, fun other hother => Slot.get_transfer hother _⟩
  | profileExtra key =>
    obtain ⟨profile, hprofile, rfl⟩ := Option.map_eq_some_iff.mp hget
    have hwritten : restoreMetadata state ((Slot.profileExtra key).entry host field current value) =
        state.setProfile key { profile with
          extra := restoreField ((Slot.profileExtra key).entry host field current value)
            profile.extra } := by
      simp only [restoreMetadata, Slot.entry, identified, Slot.scope, Slot.profileId, hprofile,
        Option.getD_some]
    rw [hwritten]
    refine ⟨by simp only [Slot.get, find_setProfile_self, Option.map_some], fun other hother => ?_⟩
    exact Slot.get_setProfile hprofile (fun heq => absurd heq hother) (fun _ => rfl) fun _ _ => rfl
  | profileTransfer key =>
    obtain ⟨profile, hprofile, rfl⟩ := Option.map_eq_some_iff.mp hget
    have hwritten :
        restoreMetadata state ((Slot.profileTransfer key).entry host field current value) =
          state.setProfile key { profile with
            transfer := restoreField ((Slot.profileTransfer key).entry host field current value)
              profile.transfer } := by
      simp only [restoreMetadata, Slot.entry, identified, Slot.scope, Slot.profileId, hprofile,
        Option.getD_some]
    rw [hwritten]
    refine ⟨by simp only [Slot.get, find_setProfile_self, Option.map_some], fun other hother => ?_⟩
    exact Slot.get_setProfile hprofile (fun _ => rfl) (fun heq => absurd heq hother) fun _ _ => rfl
  | moduleExtra key id =>
    obtain ⟨profile, hprofile, hmodule⟩ := Option.bind_eq_some_iff.mp hget
    have hwritten :
        restoreMetadata state ((Slot.moduleExtra key id).entry host field current value) =
          state.setProfile key (profile.setModule id (restoreField
            ((Slot.moduleExtra key id).entry host field current value) metadata)) := by
      simp only [restoreMetadata, Slot.entry, identified, Slot.scope, Slot.profileId, Slot.moduleId,
        hprofile, hmodule, Option.getD_some]
    rw [hwritten]
    refine ⟨?_, fun other hother => ?_⟩
    · simp only [Slot.get, find_setProfile_self, Option.bind_some, Profile.setModule,
        OrdMap.find_insert_self]
    · refine Slot.get_setProfile hprofile (fun _ => rfl) (fun _ => rfl) fun id' heq => ?_
      refine OrdMap.find_insert_of_ne ?_ _ _
      rintro rfl
      exact hother heq
  | assetExtra key =>
    obtain ⟨asset, hasset, rfl⟩ := Option.map_eq_some_iff.mp hget
    have hwritten : restoreMetadata state ((Slot.assetExtra key).entry host field current value) =
        { state with
          assets := state.assets.insert key { asset with
            extra := restoreField ((Slot.assetExtra key).entry host field current value)
              asset.extra } } := by
      simp only [restoreMetadata, Slot.entry, identified, Slot.scope, Slot.moduleId, hasset,
        Option.getD_some]
    rw [hwritten]
    refine ⟨by simp only [Slot.get, OrdMap.find_insert_self, Option.map_some], fun other hother => ?_⟩
    exact Slot.get_insertAsset hasset (fun heq => absurd heq hother) fun _ => rfl
  | assetTransfer key =>
    obtain ⟨asset, hasset, rfl⟩ := Option.map_eq_some_iff.mp hget
    have hwritten : restoreMetadata state ((Slot.assetTransfer key).entry host field current value) =
        { state with
          assets := state.assets.insert key { asset with
            transfer := restoreField ((Slot.assetTransfer key).entry host field current value)
              asset.transfer } } := by
      simp only [restoreMetadata, Slot.entry, identified, Slot.scope, Slot.moduleId, hasset,
        Option.getD_some]
    rw [hwritten]
    refine ⟨by simp only [Slot.get, OrdMap.find_insert_self, Option.map_some], fun other hother => ?_⟩
    exact Slot.get_insertAsset hasset (fun _ => rfl) fun heq => absurd heq hother

lemma find_fieldOf (field : Text) (value : Option Json) : (fieldOf field value).find field = value := by
  cases value with
  | none => rfl
  | some value => exact OrdMap.find_insert_self _ _ _

/-- The restored field has the archived value, unless it is the field of the variants. -/
lemma find_restoreField (hfield : field ≠ metadataVariantsField) :
    (restoreField (slot.entry host field current value) metadata).find field = some value := by
  have hselected : (slot.entry host field current value).alternate.find
      (slot.entry host field current value).field = some value := find_fieldOf field (some value)
  unfold restoreField
  rw [hselected]
  dsimp only
  rw [OrdMap.find_insert_of_ne hfield]
  exact OrdMap.find_insert_self _ _ _

lemma find_restoreField_of_ne {other : Text} (hother : other ≠ field)
    (hvariants : other ≠ metadataVariantsField) :
    (restoreField (slot.entry host field current value) metadata).find other =
      metadata.find other := by
  have hselected : (slot.entry host field current value).alternate.find
      (slot.entry host field current value).field = some value := find_fieldOf field (some value)
  unfold restoreField
  rw [hselected]
  dsimp only
  rw [OrdMap.find_insert_of_ne hvariants]
  exact OrdMap.find_insert_of_ne hother _ _

/-- The value that was replaced is a variant. -/
lemma mem_variants_restoreField {old : Json} (h : metadata.find field = some old) :
    metadataVariant field old ∈
      arrayField (restoreField (slot.entry host field current value) metadata)
        metadataVariantsField := by
  have hold : metadata.find (slot.entry host field current value).field = some old := h
  unfold restoreField arrayField
  rw [hold]
  dsimp only
  rw [OrdMap.find_insert_self, Json.asArray_arr]
  exact mem_unite.mpr (Or.inr (List.mem_singleton_self _))

end Metadata

/-! ### Records -/

/-- The records of a module are told from the field that has them. -/
lemma records_congr {module other : JObject}
    (h : other.find (u "records") = module.find (u "records")) : records other = records module := by
  unfold records
  rw [h]

/-- Whether a record is an active binding is told from fields that a restoration keeps. -/
lemma CurrentRecord.activeBinding {before after : JObject} (h : CurrentRecord before after) :
    activeBinding after = activeBinding before := by
  unfold LocalData.activeBinding recordKind isDeleted
  rw [h _ vectorField_ne.2.2.1.symm versionsField_ne.2.1.symm,
    h _ vectorField_ne.2.1.symm deletedField_ne.2.2.2]

lemma CurrentRecord.binding {before after : JObject} (h : CurrentRecord before after) :
    bindingTag after = bindingTag before ∧ bindingMessage after = bindingMessage before := by
  unfold bindingTag bindingMessage
  rw [h (u "tag_id") (by decide) (by decide), h (u "message") (by decide) (by decide)]
  exact ⟨rfl, rfl⟩

/-- A text that is not empty is a value of its own. -/
lemma eq_str_of_asText {value : Option Json} {text : Text} (h : Json.asText value = text)
    (hne : text ≠ []) : value = some (.str text) := by
  cases value with
  | none => exact absurd h.symm hne
  | some value =>
    cases value with
    | str other =>
      rw [Json.asText_str] at h
      rw [h]
    | _ => exact absurd h.symm hne

/-- **A restored binding stays**: its tag is there, and no other binding assigns the same.

**Proof sketch.** The tag that the restoration has found is no binding, so it is not deleted by the
pass. A binding that assigns the same as text has the same tag and the same message, which the
restoration has ruled out. -/
theorem not_buried_of_restored {account : Account} {existing : OrdMap Text JObject} {rid : Text}
    {alternate written : JObject}
    (hvalid : ∀ id record, existing.find id = some record → activeBinding record = true →
      validBinding account record = true)
    (hcurrent : CurrentRecord alternate written)
    (htag : activeBinding alternate = true → tagMissing existing alternate = false)
    (helsewhere : activeBinding alternate = true →
      assignedElsewhere existing rid alternate = false) :
    ¬Buried (existing.insert rid written) rid := by
  intro hburied
  obtain ⟨record, hrecord, hactive⟩ := hburied.record
  rw [OrdMap.find_insert_self] at hrecord
  cases hrecord
  have halternate : activeBinding alternate = true := hcurrent.activeBinding ▸ hactive
  obtain ⟨htagEq, hmessageEq⟩ := hcurrent.binding
  have hmissing := htag halternate
  simp only [tagMissing, Bool.or_eq_false_iff, decide_eq_false_iff_not, not_not] at hmissing
  obtain ⟨hkind, halive⟩ := hmissing
  have hother : ∀ other, (existing.insert rid written).find (bindingTag written) = some other →
      bindingTag written ≠ rid → recordKind other = u "tag" ∧ isDeleted other = false := by
    intro other hfind hne
    rw [OrdMap.find_insert_of_ne hne, htagEq] at hfind
    rw [hfind, Option.getD_some] at hkind halive
    exact ⟨hkind, halive⟩
  cases hburied with
  | @tag _ record tag hrecord _ hfind hdeleted =>
    rw [OrdMap.find_insert_self] at hrecord
    cases hrecord
    by_cases hself : bindingTag written = rid
    · rw [hself, OrdMap.find_insert_self] at hfind
      cases hfind
      rw [not_deleted_of_active hactive] at hdeleted
      cases hdeleted
    · rw [(hother tag hfind hself).2] at hdeleted
      cases hdeleted
  | @duplicate _ earlier record other hrecord _ hfind hactiveOther hlt hidentity =>
    rw [OrdMap.find_insert_self] at hrecord
    cases hrecord
    rw [OrdMap.find_insert_of_ne hlt.ne] at hfind
    have hvalidOther := hvalid earlier other hfind hactiveOther
    have htags := bindingTag_eq hvalidOther hidentity.symm
    have hmessages := bindingMessageId_eq hvalidOther hidentity.symm
    simp only [validBinding, Bool.and_eq_true] at hvalidOther
    have hvalidTag : validId (bindingTag other) = true := by tauto
    have hdecimal : isDecimal (bindingMessageId other) = true := by tauto
    have hmessageNe : bindingMessageId other ≠ [] := by
      intro heq
      rw [heq] at hdecimal
      exact absurd hdecimal (by decide)
    have hnot := helsewhere halternate
    unfold assignedElsewhere at hnot
    rw [List.any_eq_false] at hnot
    refine hnot (earlier, other) (OrdMap.find_eq_some_iff.mp hfind) ?_
    rw [htagEq] at htags
    unfold bindingMessageId at hmessages hmessageNe
    rw [hmessageEq] at hmessages
    have htagSame : other.find (u "tag_id") = alternate.find (u "tag_id") := by
      rw [eq_str_of_asText htags (ne_nil_of_validId hvalidTag)]
      exact eq_str_of_asText rfl (ne_nil_of_validId hvalidTag)
    have hmessageSame : (bindingMessage other).find (u "message_id") =
        (bindingMessage alternate).find (u "message_id") := by
      rw [eq_str_of_asText hmessages hmessageNe]
      exact eq_str_of_asText rfl hmessageNe
    simp only [hactiveOther, htagSame, hmessageSame, Bool.and_eq_true, decide_eq_true_eq, ne_eq,
      hlt.ne, not_false_eq_true, and_self]
  | @binding _ record hrecord _ hlt htagBuried =>
    rw [OrdMap.find_insert_self] at hrecord
    cases hrecord
    obtain ⟨tag, hfind, hactiveTag⟩ := htagBuried.record
    have hkindTag := (hother tag hfind hlt.ne).1
    simp only [LocalData.activeBinding, Bool.and_eq_true, decide_eq_true_eq] at hactiveTag
    rw [hkindTag] at hactiveTag
    exact absurd hactiveTag.1 (by decide)

/-! ### What is restored -/

/-- The module at a place of a snapshot. -/
abbrev Snapshot.moduleAt (snapshot : Snapshot) (key id : Text) : Option JObject :=
  (Slot.moduleExtra key id).get snapshot

/-- Metadata that was restored: the archived value is current, and the value it replaced is listed. -/
def MetadataRestored (host : Host) (slot : Slot) (conflict : ArchivedConflict) (next : Snapshot) :
    Prop :=
  ∃ metadata, slot.get next = some metadata ∧
    metadata.find conflict.field = conflict.alternate.find conflict.field ∧
    ∀ old, conflict.current.find conflict.field = some old →
      Listed host next (slot.entry host conflict.field (metadata.find conflict.field) old)

/-- A record that was restored: its fields are current, and the record it replaced is listed. -/
def RecordRestored (host : Host) (conflict : ArchivedConflict) (next : Snapshot) : Prop :=
  ∃ module record, next.moduleAt conflict.profileId conflict.moduleId = some module ∧
    (records module).find conflict.recordId = some record ∧
    CurrentRecord conflict.alternate record ∧
    Listed host next (recordEntry host conflict.profileId conflict.moduleId record
      (Json.ofObject (conflict.current.erase conflictVersionsField)))

/-- A module that was restored: it is current after the pass over its bindings, and the module it
replaced, if there was one, is listed. -/
def ModuleRestored (host : Host) (state : Snapshot) (conflict : ArchivedConflict) (next : Snapshot) :
    Prop :=
  ∃ module, next.moduleAt conflict.profileId conflict.moduleId = some module ∧
    normalizeBindings conflict.alternate next.deviceId = .ok module ∧
    ∀ old, state.moduleAt conflict.profileId conflict.moduleId = some old →
      Listed host next (opaqueEntry host conflict.profileId (some module) old)

/-- What a restoration makes of an archived version. -/
def Restored (host : Host) (state : Snapshot) (conflict : ArchivedConflict) (next : Snapshot) : Prop :=
  match archiveSlot conflict with
  | some slot => MetadataRestored host slot conflict next
  | none =>
    if conflict.scope = .record then RecordRestored host conflict next
    else ModuleRestored host state conflict next

/-- The records of the supported modules last, but for a module that is restored as a whole. -/
def ModulesLast (host : Host) (state : Snapshot) (conflict : ArchivedConflict) (next : Snapshot) :
    Prop :=
  ∀ key id module, state.moduleAt key id = some module →
    host.supportedModule id (schemaVersion module) = true →
    (conflict.scope = .module → key = conflict.profileId → id ≠ conflict.moduleId) →
    ∃ module', next.moduleAt key id = some module' ∧ RecordsLast (records module) (records module')

/-- An archived version of something else than the records or the version of a module as a field of its
metadata, and than the archive itself. -/
def Ordinary (conflict : ArchivedConflict) : Prop :=
  conflict.field ≠ metadataVariantsField ∧ (conflict.scope = .moduleExtra →
    conflict.field ≠ u "records" ∧ conflict.field ≠ u "schema_version")

instance (conflict : ArchivedConflict) : Decidable (Ordinary conflict) :=
  inferInstanceAs (Decidable (_ ∧ _))

section Restore

variable {host : Host} {env : Env} {state restored normalized : Snapshot}

/-- A module after the pass and the commit. -/
lemma moduleAt_of_pass {key id : Text} {module : JObject}
    (hmodule : restored.moduleAt key id = some module)
    (hnormalized : normalizeSnapshot restored = .ok normalized) :
    ∃ module', normalized.moduleAt key id = some module' ∧
      normalizeBindings module restored.deviceId = .ok module' := by
  obtain ⟨profile, hprofile, hfind⟩ := Option.bind_eq_some_iff.mp hmodule
  obtain ⟨profile', module', hprofile', hmodule', -, hpass⟩ :=
    normalizeSnapshot_module hnormalized hprofile hfind
  exact ⟨module', Option.bind_eq_some_iff.mpr ⟨profile', hprofile', hmodule'⟩, hpass⟩

/-- What was restored keeps the records of a module until the commit. -/
lemma recordsLast_of_pass {key id : Text} {module module' : JObject}
    (hmodule : restored.moduleAt key id = some module')
    (hlast : RecordsLast (records module) (records module'))
    (hnormalized : normalizeSnapshot restored = .ok normalized) (device generation : Text) :
    ∃ after, Snapshot.moduleAt { normalized with deviceId := device, generation } key id = some after ∧
      RecordsLast (records module) (records after) := by
  obtain ⟨after, hafter, hpass⟩ := moduleAt_of_pass hmodule hnormalized
  exact ⟨after, (Slot.get_commit _ _ _ _).trans hafter,
    hlast.trans (normalizeBindings_passed hpass).recordsLast⟩

/-- **The restoration of metadata.** -/
lemma restoreMetadata_restored {slot : Slot} {metadata : JObject} {field : Text} {value : Json}
    (hget : slot.get state = some metadata) (hsupported : ∀ key id, slot = .moduleExtra key id →
      host.supportedModule id (schemaVersion metadata) = true) (hname : field ≠ [])
    (hordinary : Ordinary (slot.entry host field (metadata.find field) value))
    (hnormalized : normalizeSnapshot (restoreMetadata state
      (slot.entry host field (metadata.find field) value)) = .ok normalized)
    (hvalid : Valid host normalized) :
    let next := { normalized with deviceId := state.deviceId, generation := env.generation }
    ModulesLast host state (slot.entry host field (metadata.find field) value) next ∧
      MetadataRestored host slot (slot.entry host field (metadata.find field) value) next := by
  intro next
  obtain ⟨hself, hother⟩ :=
    Slot.get_restoreMetadata host field (metadata.find field) value hget
  have hfield : field ≠ metadataVariantsField := hordinary.1
  have hmoduleField : ∀ key id, slot = .moduleExtra key id →
      field ≠ u "records" ∧ field ≠ u "schema_version" := by
    rintro key id rfl
    exact hordinary.2 rfl
  constructor
  · intro key id module hmodule _ _
    by_cases hslot : slot = .moduleExtra key id
    · subst hslot
      obtain rfl : metadata = module := Option.some.inj (hget.symm.trans hmodule)
      refine recordsLast_of_pass hself ?_ hnormalized _ _
      rw [records_congr (find_restoreField_of_ne (hmoduleField key id rfl).1.symm (by decide))]
      exact RecordsLast.refl _
    · exact recordsLast_of_pass ((hother _ (Ne.symm hslot)).trans hmodule) (RecordsLast.refl _)
        hnormalized _ _
  · obtain ⟨after, hafter, hsame⟩ := Slot.get_normalizeSnapshot hnormalized hself
    have hgetNext : slot.get next = some after := (Slot.get_commit _ _ _ _).trans hafter
    have hrestored : after.find field = some value := by
      rw [hsame field fun key id heq => (hmoduleField key id heq).1]
      exact find_restoreField hfield
    refine ⟨after, hgetNext, ?_, ?_⟩
    · exact hrestored.trans (find_fieldOf field (some value)).symm
    · intro old hold
      have hold' : metadata.find field = some old := (find_fieldOf field (metadata.find field)).symm.trans hold
      refine Slot.listed hvalid.tidy hgetNext ?_ hname ?_
      · intro key id heq
        have hversion : after.find (u "schema_version") = metadata.find (u "schema_version") := by
          rw [hsame _ fun _ _ _ => by decide]
          exact find_restoreField_of_ne (hmoduleField key id heq).2.symm (by decide)
        have hwas := hsupported key id heq
        unfold schemaVersion at hwas ⊢
        rw [hversion]
        exact hwas
      · unfold arrayField
        rw [hsame _ fun _ _ _ => by decide]
        exact mem_variants_restoreField hold'

/-- What the restoration of a record does, and what it has checked. -/
lemma restoreRecord_ok {key id : Text} {profile : Profile} {module record : JObject} {alternate : Json}
    (hprofile : state.profiles.find key = some profile)
    (hmodule : profile.modules.find id = some module)
    (h : restoreRecord state (recordEntry host key id record alternate) = .ok restored) :
    ∃ written, recordId alternate.toObject = recordId record ∧
      (activeBinding alternate.toObject = true →
        tagMissing (records module) alternate.toObject = false ∧
        assignedElsewhere (records module) (recordId record) alternate.toObject = false) ∧
      advance ((alternate.toObject.insert conflictVersionsField
          (.arr (restoredVariants (recordEntry host key id record alternate)))).insert
        (u "version_vector") (Json.ofObject (joinedVector (versionVector record)
          (versionVector alternate.toObject)))) state.deviceId = .ok written ∧
      restored = state.setProfile key (profile.setModule id (setRecords module
        ((records module).insert (recordId record) written))) := by
  unfold restoreRecord at h
  simp only [recordEntry, identified, hprofile, hmodule, Option.getD_some] at h
  obtain ⟨hid, h⟩ := (check_ok (failure_ne_ok _ _)).mp h
  obtain ⟨htag, h⟩ := (check_ok (failure_ne_ok _ _)).mp h
  obtain ⟨helsewhere, h⟩ := (check_ok (failure_ne_ok _ _)).mp h
  split at h
  · cases h
  · rename_i written hadvance
    cases h
    refine ⟨written, not_not.mp hid, fun hactive => ?_, hadvance, rfl⟩
    simp only [hactive, Bool.true_and, Bool.not_eq_true] at htag helsewhere
    exact ⟨htag, helsewhere⟩

/-- **The restoration of a record.**

**Proof sketch.** The module has the restored record before the pass; the pass leaves it alone, since a
restored binding is not buried. The other modules are as they were. -/
lemma restoreRecord_restored (hstate : Valid host state) {key id : Text} {profile : Profile}
    {module : JObject} {value alternate : Json} (hprofile : state.profiles.find key = some profile)
    (hmodule : profile.modules.find id = some module)
    (hsupported : host.supportedModule id (schemaVersion module) = true)
    (hvalue : value ∈ arrayField module (u "records"))
    (hrestored : restoreRecord state (recordEntry host key id value.toObject alternate) = .ok restored)
    (hnormalized : normalizeSnapshot restored = .ok normalized) (hvalid : Valid host normalized) :
    let next := { normalized with deviceId := state.deviceId, generation := env.generation }
    ModulesLast host state (recordEntry host key id value.toObject alternate) next ∧
      RecordRestored host (recordEntry host key id value.toObject alternate) next := by
  intro next
  obtain ⟨written, hid, hchecks, hadvance, rfl⟩ := restoreRecord_ok hprofile hmodule hrestored
  have hrecord := (hstate.distinctModules (OrdMap.mem_values_iff.mpr ⟨key, hprofile⟩) id module hmodule
    hsupported).find hvalue
  have hcurrent : CurrentRecord alternate.toObject written := by
    intro field hvector hversions
    rw [find_advance hadvance hvector, OrdMap.find_insert_of_ne hvector,
      OrdMap.find_insert_of_ne hversions]
  have hrid : recordId written = recordId value.toObject := by
    unfold recordId at hid ⊢
    rw [hcurrent _ vectorField_ne.1.symm versionsField_ne.1.symm, hid]
  have hlater : counter value.toObject ≤ counter written := by
    refine le_trans ?_ (lt_of_advance hadvance).le
    rw [counter_eq, counter_eq, versionVector_insert]
    exact le_counts_joinedVector_left _ _
  have harchived : Json.ofObject (value.toObject.erase conflictVersionsField) ∈
      arrayField written conflictVersionsField := by
    unfold arrayField
    rw [find_advance hadvance versionsField_ne.2.2, OrdMap.find_insert_of_ne versionsField_ne.2.2,
      OrdMap.find_insert_self, Json.asArray_arr]
    exact mem_unite.mpr (Or.inr (List.mem_singleton_self _))
  have hkeyed := (keyed_records module).insert hrid
  have hwritten : Snapshot.moduleAt (state.setProfile key (profile.setModule id (setRecords module
      ((records module).insert (recordId value.toObject) written)))) key id =
        some (setRecords module ((records module).insert (recordId value.toObject) written)) := by
    simp only [Slot.get, find_setProfile_self, Option.bind_some, Profile.setModule,
      OrdMap.find_insert_self]
  constructor
  · intro key' id' other hother _ _
    by_cases hplace : Slot.moduleExtra key' id' = .moduleExtra key id
    · cases hplace
      simp only [Slot.get, hprofile, Option.bind_some, hmodule, Option.some.injEq] at hother
      subst hother
      refine recordsLast_of_pass hwritten ?_ hnormalized _ _
      rw [records_setRecords hkeyed]
      intro rid record hfind
      by_cases hrid' : rid = recordId value.toObject
      · subst hrid'
        rw [hrecord] at hfind
        cases hfind
        exact ⟨written, OrdMap.find_insert_self _ _ _, hlater⟩
      · exact ⟨record, (OrdMap.find_insert_of_ne hrid' _ _).trans hfind, le_rfl⟩
    · refine recordsLast_of_pass (Eq.trans ?_ hother) (RecordsLast.refl _) hnormalized _ _
      refine Slot.get_setProfile hprofile (fun _ => rfl) (fun _ => rfl) fun id'' heq => ?_
      refine OrdMap.find_insert_of_ne ?_ _ _
      rintro rfl
      exact hplace heq
  · obtain ⟨after, hafter, hpass⟩ := moduleAt_of_pass hwritten hnormalized
    obtain ⟨profile', hprofile', hmodule'⟩ := Option.bind_eq_some_iff.mp hafter
    have hsupported' : host.supportedModule id (schemaVersion after) = true := by
      unfold schemaVersion at hsupported ⊢
      rw [find_normalizeBindings recordsField_ne.2.symm hpass,
        find_setRecords_of_ne recordsField_ne.2.symm]
      exact hsupported
    have hids : ∀ rid record, (records after).find rid = some record → rid ≠ [] :=
      fun rid record hfind => ne_nil_of_validId (hvalid.ids hprofile' hmodule' hsupported' hfind).1
    have hfind : (records after).find (recordId value.toObject) = some written := by
      have hbefore : (records (setRecords module ((records module).insert (recordId value.toObject)
          written))).find (recordId value.toObject) = some written := by
        rw [records_setRecords hkeyed, OrdMap.find_insert_self]
      rcases normalizeBindings_buried hpass (fun _ => hids) hbefore with hsame | ⟨hburied, -⟩
      · exact hsame
      · by_cases htags : isSavedTags module = true
        · rw [records_setRecords hkeyed] at hburied
          have hbindings : ∀ rid record, (records module).find rid = some record →
              activeBinding record = true → validBinding profile.account record = true :=
            fun rid record hfind hactive =>
              (hstate.module key profile id module hprofile hmodule).validBinding htags hfind hactive
          exact absurd hburied (not_buried_of_restored hbindings hcurrent
            (fun hactive => (hchecks hactive).1) fun hactive => (hchecks hactive).2)
        · rw [eq_of_normalizeBindings (by rw [isSavedTags_setRecords]; exact Bool.eq_false_iff.mpr htags)
            hpass]
          exact hbefore
    refine ⟨after, written, (Slot.get_commit _ _ _ _).trans hafter, hfind, hcurrent, ?_⟩
    exact listed_record hvalid.tidy hprofile' hmodule' hsupported' hfind harchived

/-- **The restoration of a module.** -/
lemma restoreModule_restored (hstate : Valid host state) {key : Text} {profile : Profile}
    {module : JObject} (hprofile : state.profiles.find key = some profile)
    (hnormalized : normalizeSnapshot (restoreModule host state (opaqueEntry host key
      (profile.modules.find (moduleId module)) module)) = .ok normalized)
    (hvalid : Valid host normalized) :
    let next := { normalized with deviceId := state.deviceId, generation := env.generation }
    ModulesLast host state (opaqueEntry host key (profile.modules.find (moduleId module)) module)
        next ∧
      ModuleRestored host state (opaqueEntry host key (profile.modules.find (moduleId module)) module)
        next := by
  intro next
  have hrestored : restoreModule host state (opaqueEntry host key
      (profile.modules.find (moduleId module)) module) =
      { state.setProfile key (profile.setModule (moduleId module) module) with
        extra := (restoreModule host state (opaqueEntry host key
          (profile.modules.find (moduleId module)) module)).extra } := by
    simp only [restoreModule, opaqueEntry, identified, hprofile, Option.getD_some]
  have hother : ∀ slot : Slot, slot ≠ .rootExtra → slot ≠ .moduleExtra key (moduleId module) →
      slot.get (restoreModule host state (opaqueEntry host key
        (profile.modules.find (moduleId module)) module)) = slot.get state := by
    intro slot hroot hplace
    rw [hrestored, Slot.get_extra hroot]
    refine Slot.get_setProfile hprofile (fun _ => rfl) (fun _ => rfl) fun id heq => ?_
    refine OrdMap.find_insert_of_ne ?_ _ _
    rintro rfl
    exact hplace heq
  have hwritten : Snapshot.moduleAt (restoreModule host state (opaqueEntry host key
      (profile.modules.find (moduleId module)) module)) key (moduleId module) = some module := by
    rw [hrestored]
    simp only [Slot.get, find_setProfile_self, Option.bind_some, Profile.setModule,
      OrdMap.find_insert_self]
  constructor
  · intro key' id other hmodule _ hne
    have hplace : Slot.moduleExtra key' id ≠ .moduleExtra key (moduleId module) := by
      intro heq
      cases heq
      exact hne rfl rfl rfl
    exact recordsLast_of_pass ((hother _ (by simp) hplace).trans hmodule) (RecordsLast.refl _)
      hnormalized _ _
  · obtain ⟨after, hafter, hpass⟩ := moduleAt_of_pass hwritten hnormalized
    have hdevice : (restoreModule host state (opaqueEntry host key
        (profile.modules.find (moduleId module)) module)).deviceId = state.deviceId := by
      rw [hrestored]
      rfl
    rw [hdevice] at hpass
    refine ⟨after, (Slot.get_commit _ _ _ _).trans hafter, hpass, ?_⟩
    intro old hold
    change state.moduleAt key (moduleId module) = some old at hold
    simp only [Slot.get, hprofile, Option.bind_some] at hold
    have hid := (hstate.module key profile _ old hprofile hold).key_eq
    obtain ⟨profile', hprofile', hmodule'⟩ := Option.bind_eq_some_iff.mp hafter
    obtain ⟨hextra, -, -, -, hprofiles⟩ := normalizeSnapshot_rest hnormalized
    have hfind : (restoreModule host state (opaqueEntry host key
        (profile.modules.find (moduleId module)) module)).profiles.find key =
          some (profile.setModule (moduleId module) module) := by
      rw [hrestored]
      exact find_setProfile_self _ _ _
    obtain ⟨profile'', hprofile'', -, -, haccount⟩ := hprofiles key _ hfind
    obtain rfl : profile' = profile'' := Option.some.inj (hprofile'.symm.trans hprofile'')
    have hvariant : opaqueVariant (host.fingerprint old) profile'.account old ∈
        arrayField normalized.extra opaqueVariantsField := by
      rw [hextra, haccount]
      simp only [restoreModule, opaqueEntry, identified, hprofile, hold, Option.getD_some]
      unfold arrayField
      rw [OrdMap.find_insert_self, Json.asArray_arr]
      exact mem_unite.mpr (Or.inr (List.mem_singleton_self _))
    have hlisted : Listed host next
        (opaqueEntry host key (profile'.modules.find (moduleId old)) old) :=
      listed_module hvalid.tidy hprofile' hvariant
    rw [← hid, hmodule'] at hlisted
    exact hlisted

end Restore

/-! ### The result -/

/-- **A restoration loses nothing.** In every valid state: when an archived version is restored, and its
field is an ordinary one, the records of the supported modules last, the restored version is current,
and what it replaced is listed; a restoration that fails leaves the state as it was. -/
theorem restore_loses_nothing {host : Host} {env : Env} {state : Snapshot} (hstate : Valid host state)
    (archiveId generation : Text) :
    (∀ next, restoreConflict host env state archiveId generation = .ok next →
      state.generation = generation ∧ ∃ conflict, archivedVersion host state archiveId = some conflict ∧
        (Ordinary conflict →
          ModulesLast host state conflict next ∧ Restored host state conflict next)) ∧
    ∀ fault, (exec host env state (.restoreConflict archiveId generation)).2 = .error fault →
      (exec host env state (.restoreConflict archiveId generation)).1 = state := by
  constructor
  · intro next h
    obtain ⟨conflict, restored, normalized, hconflict, hgeneration, hrestored, hnormalized, hcommit⟩ :=
      restoreConflict_ok h
    obtain ⟨rfl, hvalid⟩ := eq_of_commit hcommit
    refine ⟨hgeneration, conflict, hconflict, fun hordinary => ?_⟩
    have hmem := mem_of_archivedVersion hconflict
    cases archived_of_mem hstate.tidy hmem with
    | @metadata slot metadata field value hget hsupported hname =>
      have hwritten : restored = restoreMetadata state
          (slot.entry host field (metadata.find field) value) := by
        cases slot <;> exact (Except.ok.inj hrestored).symm
      subst hwritten
      unfold Restored
      rw [archiveSlot_entry]
      exact restoreMetadata_restored hget hsupported hname hordinary hnormalized hvalid
    | record hprofile hmodule hsupported hvalue halternate =>
      exact restoreRecord_restored hstate hprofile hmodule hsupported hvalue hrestored hnormalized
        hvalid
    | module hprofile =>
      cases hrestored
      exact restoreModule_restored hstate hprofile hnormalized hvalid
  · intro fault h
    unfold exec at h ⊢
    cases hrun : run host env state (.restoreConflict archiveId generation) with
    | ok next =>
      rw [hrun] at h
      cases h
    | error fault => rfl

/-! ### A module restored as a whole -/

/-- A package with one module of saved tags. -/
def tagsPackage (module : List (Text × Json)) : Snapshot :=
  { plainBaseline with
    profiles := OrdMap.ofList [(plainId 49,
      { id := plainId 49, account := plainAccount
        modules := OrdMap.ofList [(u "saved_tags",
          object (module ++ [(u "module_id", .str (u "saved_tags")), (u "records", .arr [])]))] })] }

/-- A plain store with a tag, after it took such a package and kept both sides. -/
def mergedTags (module : List (Text × Json)) : Snapshot :=
  plainImport .keepBoth (exec plainHost plainEnv plainBaseline
    (plainWrite [plainTag (plainId 97) false])).1 (tagsPackage module)

lemma valid_mergedTags (module : List (Text × Json)) : Valid plainHost (mergedTags module) :=
  valid_plainImport (valid_exec (valid_baseline _ _ _) _) _ _

/-- A package of a newer application. -/
def newerTags : Snapshot := mergedTags [(u "schema_version", .num 3)]

/-- A package whose module has its records as an archived field of its metadata. -/
def variedTags : Snapshot :=
  mergedTags [(u "schema_version", .num 2), (metadataVariantsField,
    .arr [metadataVariant (u "records") (.arr [])])]

/-- Restores an archived version of a plain store, if it is ordinary as told. -/
def plainRestore (state : Snapshot) (ordinary : Bool)
    (holds : Snapshot → Bool) : Bool :=
  (walkArchives plainHost state).any fun conflict => decide (Ordinary conflict) = ordinary &&
    (restoreConflict plainHost plainEnv state conflict.id state.generation).toOption.any holds

lemma exists_of_plainRestore {state : Snapshot} {ordinary : Bool} {holds : Snapshot → Bool}
    (h : plainRestore state ordinary holds = true) :
    ∃ conflict ∈ walkArchives plainHost state, ∃ next, decide (Ordinary conflict) = ordinary ∧
      restoreConflict plainHost plainEnv state conflict.id state.generation = .ok next ∧
      holds next = true := by
  obtain ⟨conflict, hconflict, h⟩ := List.any_eq_true.mp h
  rw [Bool.and_eq_true, decide_eq_true_eq] at h
  obtain ⟨next, hnext, hholds⟩ := (Option.any_eq_true _ _).mp h.2
  exact ⟨conflict, hconflict, next, h.1, toOption_eq_some.mp hnext, hholds⟩

/-- Whether the tag of the plain store is there before and not after. -/
def tagGone (before after : Snapshot) : Bool :=
  (recordAt before (plainId 49) (u "saved_tags") (plainId 97)).isSome &&
    (recordAt after (plainId 49) (u "saved_tags") (plainId 97)).isNone

lemma tagGone_iff {before after : Snapshot} : tagGone before after = true ↔
    (∃ record, recordAt before (plainId 49) (u "saved_tags") (plainId 97) = some record) ∧
      recordAt after (plainId 49) (u "saved_tags") (plainId 97) = none := by
  unfold tagGone
  rw [Bool.and_eq_true, Option.isSome_iff_exists, Option.isNone_iff_eq_none]

/-- The package of the newer application is restored as the theorem says. -/
theorem newer_tags_restored :
    ∃ archiveId conflict next,
      restoreConflict plainHost plainEnv newerTags archiveId newerTags.generation = .ok next ∧
      archivedVersion plainHost newerTags archiveId = some conflict ∧ Ordinary conflict ∧
      ModulesLast plainHost newerTags conflict next ∧ Restored plainHost newerTags conflict next := by
  have hrun : plainRestore newerTags true (fun _ => true) = true := by
    decide +kernel
  have hall : ((walkArchives plainHost newerTags).all fun conflict => decide (Ordinary conflict)) =
      true := by
    decide +kernel
  obtain ⟨listed, -, next, -, hnext, -⟩ := exists_of_plainRestore hrun
  obtain ⟨-, conflict, hconflict, hlast⟩ :=
    (restore_loses_nothing (valid_mergedTags _) listed.id newerTags.generation).1 next hnext
  have hordinary : Ordinary conflict :=
    of_decide_eq_true (List.all_eq_true.mp hall conflict (mem_of_archivedVersion hconflict))
  exact ⟨listed.id, conflict, next, hnext, hconflict, hordinary, hlast hordinary⟩

/-- **What a restoration does not keep**: a module that is restored as a whole replaces the records of
the module that is there; and so does an archived version of the records as a field of the module. -/
theorem restored_module_replaces :
    (∃ conflict ∈ walkArchives plainHost newerTags, ∃ next, Ordinary conflict ∧
      restoreConflict plainHost plainEnv newerTags conflict.id newerTags.generation = .ok next ∧
      (∃ record, recordAt newerTags (plainId 49) (u "saved_tags") (plainId 97) = some record) ∧
      recordAt next (plainId 49) (u "saved_tags") (plainId 97) = none) ∧
    ∃ conflict ∈ walkArchives plainHost variedTags, ∃ next, ¬Ordinary conflict ∧
      restoreConflict plainHost plainEnv variedTags conflict.id variedTags.generation = .ok next ∧
      (∃ record, recordAt variedTags (plainId 49) (u "saved_tags") (plainId 97) = some record) ∧
      recordAt next (plainId 49) (u "saved_tags") (plainId 97) = none := by
  constructor
  · have hrun : plainRestore newerTags true (tagGone newerTags) = true := by
      decide +kernel
    obtain ⟨conflict, hconflict, next, hordinary, hnext, hgone⟩ := exists_of_plainRestore hrun
    exact ⟨conflict, hconflict, next, of_decide_eq_true hordinary, hnext, tagGone_iff.mp hgone⟩
  · have hrun : plainRestore variedTags false (tagGone variedTags) = true := by
      decide +kernel
    obtain ⟨conflict, hconflict, next, hordinary, hnext, hgone⟩ := exists_of_plainRestore hrun
    exact ⟨conflict, hconflict, next, of_decide_eq_false hordinary, hnext, tagGone_iff.mp hgone⟩

end LocalData
