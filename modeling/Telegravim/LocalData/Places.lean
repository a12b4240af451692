import Telegravim.LocalData.Resolve

set_option autoImplicit false

/-!
# Local data: the places of metadata

The places of a snapshot that keep metadata, and what the writes to other parts of the snapshot leave
of the metadata at a place.

## Main definitions

* `LocalData.Slot` — the places of a snapshot that keep metadata.
* `LocalData.SameMetadata` — the metadata of a place before and after others were resolved.

## Main results

* `LocalData.Slot.get_setProfile`, `LocalData.Slot.get_insertAsset` — writes elsewhere.
* `LocalData.Slot.get_normalizeSnapshot` — the pass over the bindings.
-/

namespace LocalData

open Text

/-! ### Places -/

/-- The places of a snapshot that keep metadata: its root, its profiles with their modules, and its
assets. -/
inductive Slot where
  | rootExtra
  | rootTransfer
  | profileExtra (key : Text)
  | profileTransfer (key : Text)
  | moduleExtra (key id : Text)
  | assetExtra (key : Text)
  | assetTransfer (key : Text)
deriving DecidableEq

/-- The metadata at a place. -/
def Slot.get (snapshot : Snapshot) : Slot → Option JObject
  | rootExtra => some snapshot.extra
  | rootTransfer => some snapshot.transfer
  | profileExtra key => (snapshot.profiles.find key).map Profile.extra
  | profileTransfer key => (snapshot.profiles.find key).map Profile.transfer
  | moduleExtra key id => (snapshot.profiles.find key).bind fun profile => profile.modules.find id
  | assetExtra key => (snapshot.assets.find key).map Asset.extra
  | assetTransfer key => (snapshot.assets.find key).map Asset.transfer

/-- The scope under which the variants at a place are listed. -/
def Slot.scope : Slot → ArchiveScope
  | rootExtra => .rootExtra
  | rootTransfer => .rootTransfer
  | profileExtra _ => .profileExtra
  | profileTransfer _ => .profileTransfer
  | moduleExtra _ _ => .moduleExtra
  | assetExtra _ => .assetExtra
  | assetTransfer _ => .assetTransfer

def Slot.profileId : Slot → Text
  | profileExtra key | profileTransfer key | moduleExtra key _ => key
  | _ => []

/-- The module of a place; for an asset its key. -/
def Slot.moduleId : Slot → Text
  | moduleExtra _ id => id
  | assetExtra key | assetTransfer key => key
  | _ => []

/-! ### Writes elsewhere -/

/-- The fields of a place that others than the resolutions of its metadata write. -/
def Slot.reserved : Slot → List Text
  | rootExtra => [resolutionsField, opaqueVariantsField]
  | moduleExtra _ _ => [u "records"]
  | _ => []

/-- The metadata of a place before and after others were resolved. -/
def SameMetadata (slot : Slot) (before after : JObject) : Prop :=
  ∀ field, field ∉ slot.reserved → after.find field = before.find field

lemma SameMetadata.refl (slot : Slot) (metadata : JObject) : SameMetadata slot metadata metadata :=
  fun _ _ => rfl

lemma SameMetadata.trans {slot : Slot} {first second third : JObject}
    (h : SameMetadata slot first second) (h' : SameMetadata slot second third) :
    SameMetadata slot first third :=
  fun field hfield => (h' field hfield).trans (h field hfield)

/-- The records of a module are no part of its metadata. -/
lemma sameMetadata_setRecords (key id : Text) (module : JObject) (written : OrdMap Text JObject) :
    SameMetadata (.moduleExtra key id) module (setRecords module written) := by
  intro field hfield
  refine find_setRecords_of_ne ?_ _ _
  rintro rfl
  exact hfield (List.mem_singleton_self _)

section Place

variable {next : Snapshot} {slot : Slot}

lemma Slot.get_extra (h : slot ≠ .rootExtra) (extra : JObject) :
    slot.get { next with extra } = slot.get next := by
  cases slot with
  | rootExtra => exact absurd rfl h
  | _ => rfl

lemma Slot.get_transfer (h : slot ≠ .rootTransfer) (transfer : JObject) :
    slot.get { next with transfer } = slot.get next := by
  cases slot with
  | rootTransfer => exact absurd rfl h
  | _ => rfl

/-- A place after an asset was written: its metadata is as it was when the asset has the one it had. -/
lemma Slot.get_insertAsset {key : Text} {old written : Asset}
    (hold : next.assets.find key = some old)
    (hextra : slot = .assetExtra key → written.extra = old.extra)
    (htransfer : slot = .assetTransfer key → written.transfer = old.transfer) :
    slot.get { next with assets := next.assets.insert key written } = slot.get next := by
  cases slot with
  | assetExtra key' =>
    by_cases hkey : key' = key
    · subst hkey
      simp only [Slot.get, OrdMap.find_insert_self, hold, Option.map_some, hextra rfl]
    · simp only [Slot.get, OrdMap.find_insert_of_ne hkey]
  | assetTransfer key' =>
    by_cases hkey : key' = key
    · subst hkey
      simp only [Slot.get, OrdMap.find_insert_self, hold, Option.map_some, htransfer rfl]
    · simp only [Slot.get, OrdMap.find_insert_of_ne hkey]
  | _ => rfl

/-- A place after a profile was written: its metadata is as it was when the profile has the one it
had. -/
lemma Slot.get_setProfile {key : Text} {old written : Profile}
    (hold : next.profiles.find key = some old)
    (hextra : slot = .profileExtra key → written.extra = old.extra)
    (htransfer : slot = .profileTransfer key → written.transfer = old.transfer)
    (hmodule : ∀ id, slot = .moduleExtra key id → written.modules.find id = old.modules.find id) :
    slot.get (next.setProfile key written) = slot.get next := by
  cases slot with
  | profileExtra key' =>
    by_cases hkey : key' = key
    · subst hkey
      simp only [Slot.get, find_setProfile_self, hold, Option.map_some, hextra rfl]
    · simp only [Slot.get, find_setProfile_of_ne hkey]
  | profileTransfer key' =>
    by_cases hkey : key' = key
    · subst hkey
      simp only [Slot.get, find_setProfile_self, hold, Option.map_some, htransfer rfl]
    · simp only [Slot.get, find_setProfile_of_ne hkey]
  | moduleExtra key' id =>
    by_cases hkey : key' = key
    · subst hkey
      simp only [Slot.get, find_setProfile_self, hold, Option.bind_some, hmodule id rfl]
    · simp only [Slot.get, find_setProfile_of_ne hkey]
  | _ => rfl

/-- A value that is kept in the metadata of a snapshot is kept in a reserved field. -/
lemma Slot.get_keep {field : Text} (hfield : field ∈ Slot.rootExtra.reserved) (value : Json)
    {metadata : JObject} (h : slot.get next = some metadata) :
    ∃ after, slot.get (next.keep field value) = some after ∧ SameMetadata slot metadata after := by
  by_cases hslot : slot = .rootExtra
  · subst hslot
    cases h
    refine ⟨_, rfl, fun other hother => ?_⟩
    refine OrdMap.find_insert_of_ne ?_ _ _
    rintro rfl
    exact hother hfield
  · exact ⟨metadata, (Slot.get_extra hslot _).trans h, .refl _ _⟩

end Place

/-! ### The pass and the commit -/

/-- What the pass over all profiles leaves alone. -/
lemma normalizeSnapshot_rest {next normalized : Snapshot}
    (h : normalizeSnapshot next = .ok normalized) :
    normalized.extra = next.extra ∧ normalized.transfer = next.transfer ∧
      normalized.assets = next.assets ∧ normalized.deviceId = next.deviceId ∧
      ∀ key profile, next.profiles.find key = some profile → ∃ profile',
        normalized.profiles.find key = some profile' ∧ profile'.extra = profile.extra ∧
        profile'.transfer = profile.transfer ∧ profile'.account = profile.account := by
  unfold normalizeSnapshot at h
  split at h
  · cases h
  · rename_i profiles hprofiles
    cases h
    refine ⟨rfl, rfl, rfl, rfl, fun key profile hprofile => ?_⟩
    rcases OrdMap.find_tryMap hprofiles key with ⟨hnone, -⟩ | ⟨old, new, hold, hnew, hfind⟩
    · exact absurd (hprofile.symm.trans hnone) (by simp)
    · obtain rfl : profile = old := Option.some.inj (hprofile.symm.trans hold)
      refine ⟨new, hfind, ?_⟩
      unfold normalizeProfile at hnew
      split at hnew
      · cases hnew
      · cases hnew
        exact ⟨rfl, rfl, rfl⟩

/-- The pass leaves the metadata of all places alone, but for the records of a module. -/
lemma Slot.get_normalizeSnapshot {next normalized : Snapshot} {slot : Slot} {metadata : JObject}
    (h : normalizeSnapshot next = .ok normalized) (hget : slot.get next = some metadata) :
    ∃ after, slot.get normalized = some after ∧ ∀ field,
      (∀ key id, slot = .moduleExtra key id → field ≠ u "records") →
      after.find field = metadata.find field := by
  obtain ⟨hextra, htransfer, hassets, -, hprofiles⟩ := normalizeSnapshot_rest h
  cases slot with
  | rootExtra =>
    cases hget
    exact ⟨_, rfl, fun _ _ => by rw [hextra]⟩
  | rootTransfer =>
    cases hget
    exact ⟨_, rfl, fun _ _ => by rw [htransfer]⟩
  | profileExtra key =>
    obtain ⟨profile, hprofile, rfl⟩ := Option.map_eq_some_iff.mp hget
    obtain ⟨profile', hprofile', heq, -⟩ := hprofiles key profile hprofile
    exact ⟨_, Option.map_eq_some_iff.mpr ⟨profile', hprofile', heq⟩, fun _ _ => rfl⟩
  | profileTransfer key =>
    obtain ⟨profile, hprofile, rfl⟩ := Option.map_eq_some_iff.mp hget
    obtain ⟨profile', hprofile', -, heq, -⟩ := hprofiles key profile hprofile
    exact ⟨_, Option.map_eq_some_iff.mpr ⟨profile', hprofile', heq⟩, fun _ _ => rfl⟩
  | moduleExtra key id =>
    obtain ⟨profile, hprofile, hmodule⟩ := Option.bind_eq_some_iff.mp hget
    obtain ⟨profile', module', hprofile', hmodule', -, hpass⟩ :=
      normalizeSnapshot_module h hprofile hmodule
    refine ⟨module', Option.bind_eq_some_iff.mpr ⟨profile', hprofile', hmodule'⟩, ?_⟩
    intro field hfield
    exact find_normalizeBindings (hfield key id rfl) hpass
  | assetExtra key | assetTransfer key =>
    refine ⟨metadata, ?_, fun _ _ => rfl⟩
    unfold Slot.get at hget ⊢
    rw [hassets]
    exact hget

/-- Metadata that the pass has left is the same. -/
lemma sameMetadata_of_pass {slot : Slot} {before after : JObject}
    (h : ∀ field, (∀ key id, slot = .moduleExtra key id → field ≠ u "records") →
      after.find field = before.find field) : SameMetadata slot before after := by
  intro field hfield
  refine h field ?_
  rintro key id rfl rfl
  exact hfield (List.mem_singleton_self _)

/-- The commit keeps the metadata of all places. -/
lemma Slot.get_commit (slot : Slot) (snapshot : Snapshot) (deviceId generation : Text) :
    slot.get { snapshot with deviceId, generation } = slot.get snapshot := by
  cases slot <;> rfl

end LocalData
