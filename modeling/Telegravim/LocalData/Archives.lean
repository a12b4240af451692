import Telegravim.LocalData.Places
import Telegravim.LocalData.SavedTags

set_option autoImplicit false

/-!
# Local data: what is listed of the archives

The archived versions of a snapshot are listed in pages. An entry is on one of the pages exactly when
the walk over the archives visits it, and the walk visits each value that a scope keeps: a metadata
variant with a field name, an archived version of a record in a supported module, and an opaque module
of an account with a profile.

## Main definitions

* `LocalData.Listed` — the entries on the pages.
* `LocalData.Slot.entry`, `LocalData.recordEntry`, `LocalData.opaqueEntry` — the entries of what is
  archived.

* `LocalData.Archived` — what the walk over the archives visits.

## Main results

* `LocalData.archived_of_mem` — the walk visits nothing else.
* `LocalData.listed_iff` — the pages have what the walk visits.
* `LocalData.Slot.listed` — the metadata variants are listed.
* `LocalData.listed_record` — the archived versions of records are listed.
* `LocalData.listed_module` — the opaque variants are listed.
-/

namespace LocalData

open Text

/-! ### Pages -/

/-- An entry is on one of the pages of the archived versions, whatever the size of a page. -/
def Listed (host : Host) (snapshot : Snapshot) (entry : ArchivedConflict) : Prop :=
  ∀ limit : ℤ, 0 < limit → limit ≤ 100 →
    ∃ page : ℕ, entry ∈ archivedConflicts host snapshot (page * limit) limit

lemma mem_archivedConflicts {host : Host} {snapshot : Snapshot} {entry : ArchivedConflict}
    {offset limit : ℤ} (h : entry ∈ archivedConflicts host snapshot offset limit) :
    entry ∈ walkArchives host snapshot := by
  unfold archivedConflicts at h
  split_ifs at h
  · cases h
  · exact List.mem_of_mem_drop (List.mem_of_mem_take h)

/-- **The pages have what the walk visits.**

**Proof sketch.** The entry at an index is on the page of the quotient by the size of a page. -/
theorem listed_iff {host : Host} {snapshot : Snapshot} {entry : ArchivedConflict} :
    Listed host snapshot entry ↔ entry ∈ walkArchives host snapshot := by
  constructor
  · intro h
    obtain ⟨page, hpage⟩ := h 1 (by omega) (by omega)
    exact mem_archivedConflicts hpage
  · intro h limit hpos hlimit
    obtain ⟨index, hindex, rfl⟩ := List.mem_iff_getElem.mp h
    obtain ⟨size, rfl⟩ := Int.eq_ofNat_of_zero_le hpos.le
    have hsize : 0 < size := by omega
    have hsplit := Nat.div_add_mod index size
    have hlt := Nat.mod_lt index hsize
    have hcomm : index / size * size = size * (index / size) := Nat.mul_comm _ _
    have hoffset : ((index / size : ℕ) : ℤ) * (size : ℤ) = ((index / size * size : ℕ) : ℤ) := by
      push_cast
      rfl
    refine ⟨index / size, ?_⟩
    unfold archivedConflicts
    rw [hoffset, if_neg (by omega), Int.toNat_natCast,
      show (min (size : ℤ) 100).toNat = size from by omega]
    have hwithin : index % size <
        (((walkArchives host snapshot).drop (index / size * size)).take size).length := by
      rw [List.length_take, List.length_drop]
      omega
    refine List.mem_iff_getElem.mpr ⟨index % size, hwithin, ?_⟩
    rw [List.getElem_take, List.getElem_drop]
    congr 1
    omega

/-! ### Metadata -/

/-- The entry of an archived value of a field. -/
def Slot.entry (host : Host) (slot : Slot) (field : Text) (current : Option Json) (value : Json) :
    ArchivedConflict :=
  identified host
    { profileId := slot.profileId, moduleId := slot.moduleId, current := fieldOf field current
      alternate := fieldOf field (some value), scope := slot.scope, field }

section Listed

variable {host : Host} {snapshot : Snapshot}

lemma mem_archivedMetadata {scope : ArchiveScope} {profile module field : Text} {metadata : JObject}
    {value : Json} (hfield : field ≠ [])
    (h : metadataVariant field value ∈ arrayField metadata metadataVariantsField) :
    identified host
        { profileId := profile, moduleId := module, current := fieldOf field (metadata.find field)
          alternate := fieldOf field (some value), scope, field } ∈
      archivedMetadata host scope profile module metadata := by
  have hne : u "field" ≠ u "value" := by decide
  have hname : (object [(u "field", .str field), (u "value", value)]).find (u "field") =
      some (.str field) := OrdMap.find_insert_of_ne hne _ _
  have hvalue : (object [(u "field", .str field), (u "value", value)]).find (u "value") =
      some value := OrdMap.find_insert_self _ _ _
  unfold archivedMetadata
  refine List.mem_filterMap.mpr ⟨_, h, ?_⟩
  simp only [metadataVariant, Json.toObject_ofObject, hname, hvalue, Json.asText_str]
  rw [if_neg hfield]
  rfl

/-- The archived versions of a profile are visited. -/
lemma mem_walkArchives_of_profile {key : Text} {profile : Profile} {entry : ArchivedConflict}
    (hprofile : snapshot.profiles.find key = some profile)
    (h : entry ∈ archivedProfile host profile) : entry ∈ walkArchives host snapshot := by
  unfold walkArchives
  refine List.mem_append_left _ (List.mem_append_left _ (List.mem_append_right _ ?_))
  exact List.mem_flatMap.mpr ⟨profile, OrdMap.mem_values_iff.mpr ⟨key, hprofile⟩, h⟩

/-- The archived versions of a module of a supported version are visited. -/
lemma mem_archivedProfile_of_module {id : Text} {profile : Profile} {module : JObject}
    {entry : ArchivedConflict} (hmodule : profile.modules.find id = some module)
    (hsupported : host.supportedModule id (schemaVersion module) = true)
    (h : entry ∈ archivedMetadata host .moduleExtra profile.id id module ++
      archivedRecords host profile.id id module) : entry ∈ archivedProfile host profile := by
  unfold archivedProfile
  refine List.mem_append_right _
    (List.mem_flatMap.mpr ⟨(id, module), OrdMap.find_eq_some_iff.mp hmodule, ?_⟩)
  unfold archivedModule
  rw [if_pos hsupported]
  exact h

/-- The archived versions of an asset are visited. -/
lemma mem_walkArchives_of_asset {key : Text} {asset : Asset} {entry : ArchivedConflict}
    (hasset : snapshot.assets.find key = some asset) (h : entry ∈ archivedAsset host (key, asset)) :
    entry ∈ walkArchives host snapshot := by
  unfold walkArchives
  exact List.mem_append_right _
    (List.mem_flatMap.mpr ⟨(key, asset), OrdMap.find_eq_some_iff.mp hasset, h⟩)

/-- **The metadata variants of a place are listed**, of a module in a supported version. -/
theorem Slot.listed (htidy : Tidy snapshot.profiles) {slot : Slot} {metadata : JObject}
    (hget : slot.get snapshot = some metadata)
    (hsupported : ∀ key id, slot = .moduleExtra key id →
      host.supportedModule id (schemaVersion metadata) = true) {field : Text} {value : Json}
    (hfield : field ≠ []) (h : metadataVariant field value ∈ arrayField metadata metadataVariantsField) :
    Listed host snapshot (slot.entry host field (metadata.find field) value) := by
  rw [listed_iff]
  cases slot with
  | rootExtra =>
    cases hget
    unfold walkArchives
    exact List.mem_append_left _ (List.mem_append_left _ (List.mem_append_left _
      (List.mem_append_left _ (mem_archivedMetadata hfield h))))
  | rootTransfer =>
    cases hget
    unfold walkArchives
    exact List.mem_append_left _ (List.mem_append_left _ (List.mem_append_left _
      (List.mem_append_right _ (mem_archivedMetadata hfield h))))
  | profileExtra key =>
    obtain ⟨profile, hprofile, rfl⟩ := Option.map_eq_some_iff.mp hget
    obtain rfl := htidy.key key profile hprofile
    exact mem_walkArchives_of_profile hprofile
      (List.mem_append_left _ (List.mem_append_left _ (mem_archivedMetadata hfield h)))
  | profileTransfer key =>
    obtain ⟨profile, hprofile, rfl⟩ := Option.map_eq_some_iff.mp hget
    obtain rfl := htidy.key key profile hprofile
    exact mem_walkArchives_of_profile hprofile
      (List.mem_append_left _ (List.mem_append_right _ (mem_archivedMetadata hfield h)))
  | moduleExtra key id =>
    obtain ⟨profile, hprofile, hmodule⟩ := Option.bind_eq_some_iff.mp hget
    obtain rfl := htidy.key key profile hprofile
    exact mem_walkArchives_of_profile hprofile (mem_archivedProfile_of_module hmodule
      (hsupported _ id rfl) (List.mem_append_left _ (mem_archivedMetadata hfield h)))
  | assetExtra key =>
    obtain ⟨asset, hasset, rfl⟩ := Option.map_eq_some_iff.mp hget
    exact mem_walkArchives_of_asset hasset (List.mem_append_left _ (mem_archivedMetadata hfield h))
  | assetTransfer key =>
    obtain ⟨asset, hasset, rfl⟩ := Option.map_eq_some_iff.mp hget
    exact mem_walkArchives_of_asset hasset (List.mem_append_right _ (mem_archivedMetadata hfield h))

/-! ### Records and opaque modules -/

/-- The entry of an archived version of a record. -/
def recordEntry (host : Host) (key id : Text) (record : JObject) (alternate : Json) :
    ArchivedConflict :=
  identified host
    { profileId := key, moduleId := id, recordId := recordId record, current := record
      alternate := alternate.toObject }

/-- **The archived versions of a record are listed**, in a module of a supported version. -/
theorem listed_record (htidy : Tidy snapshot.profiles) {key id rid : Text} {profile : Profile}
    {module record : JObject} (hprofile : snapshot.profiles.find key = some profile)
    (hmodule : profile.modules.find id = some module)
    (hsupported : host.supportedModule id (schemaVersion module) = true)
    (hrecord : (records module).find rid = some record) {alternate : Json}
    (h : alternate ∈ arrayField record conflictVersionsField) :
    Listed host snapshot (recordEntry host key id record alternate) := by
  rw [listed_iff]
  obtain rfl := htidy.key key profile hprofile
  obtain ⟨value, hvalue, rfl⟩ := exists_of_find_records hrecord
  refine mem_walkArchives_of_profile hprofile (mem_archivedProfile_of_module hmodule hsupported
    (List.mem_append_right _ (List.mem_flatMap.mpr ⟨value, hvalue, ?_⟩)))
  exact List.mem_map.mpr ⟨alternate, h, rfl⟩

/-- The entry of an opaque module. -/
def opaqueEntry (host : Host) (key : Text) (current : Option JObject) (module : JObject) :
    ArchivedConflict :=
  identified host
    { profileId := key, moduleId := moduleId module, current := current.getD ∅
      alternate := module, scope := .module }

@[simp] lemma readAccount_accountJson (account : Account) :
    readAccount (accountJson account) = account := by
  have hne : u "environment" ≠ u "user_id" := by decide
  have henvironment : (accountJson account).find (u "environment") = some (.str account.environment) :=
    OrdMap.find_insert_of_ne hne _ _
  have huser : (accountJson account).find (u "user_id") = some (.str account.userId) :=
    OrdMap.find_insert_self _ _ _
  unfold readAccount
  rw [henvironment, huser]
  rfl

/-- What an opaque variant has for its fields. -/
lemma find_opaqueVariant (id : Text) (account : Account) (module : JObject) :
    Json.asObject ((opaqueVariant id account module).toObject.find (u "account")) =
        accountJson account ∧
      Json.asObject ((opaqueVariant id account module).toObject.find (u "module")) = module := by
  have hne : u "account" ≠ u "module" := by decide
  unfold opaqueVariant
  rw [Json.toObject_ofObject]
  unfold object OrdMap.ofList
  simp only [List.foldl_cons, List.foldl_nil]
  rw [OrdMap.find_insert_of_ne hne, OrdMap.find_insert_self, OrdMap.find_insert_self]
  exact ⟨Json.toObject_ofObject _, Json.toObject_ofObject _⟩

/-- **The opaque variants are listed**, each under the profile of its account. -/
theorem listed_module (htidy : Tidy snapshot.profiles) {key id : Text} {profile : Profile}
    {module : JObject} (hprofile : snapshot.profiles.find key = some profile)
    (h : opaqueVariant id profile.account module ∈ arrayField snapshot.extra opaqueVariantsField) :
    Listed host snapshot (opaqueEntry host key (profile.modules.find (moduleId module)) module) := by
  rw [listed_iff]
  obtain rfl := htidy.key key profile hprofile
  unfold walkArchives
  refine List.mem_append_left _ (List.mem_append_right _ (List.mem_filterMap.mpr ⟨_, h, ?_⟩))
  obtain ⟨haccount, hmodule⟩ := find_opaqueVariant id profile.account module
  dsimp only
  rw [haccount, hmodule, readAccount_accountJson, profileOf_eq htidy hprofile]
  rfl

/-! ### What is visited -/

/-- What the walk over the archives visits. -/
inductive Archived (host : Host) (snapshot : Snapshot) : ArchivedConflict → Prop where
  | metadata {slot : Slot} {metadata : JObject} {field : Text} {value : Json} :
      slot.get snapshot = some metadata → (∀ key id, slot = .moduleExtra key id →
        host.supportedModule id (schemaVersion metadata) = true) → field ≠ [] →
      Archived host snapshot (slot.entry host field (metadata.find field) value)
  | record {key id : Text} {profile : Profile} {module : JObject} {value alternate : Json} :
      snapshot.profiles.find key = some profile → profile.modules.find id = some module →
      host.supportedModule id (schemaVersion module) = true →
      value ∈ arrayField module (u "records") →
      alternate ∈ arrayField value.toObject conflictVersionsField →
      Archived host snapshot (recordEntry host key id value.toObject alternate)
  | module {key : Text} {profile : Profile} {module : JObject} :
      snapshot.profiles.find key = some profile →
      Archived host snapshot (opaqueEntry host key (profile.modules.find (moduleId module)) module)

lemma eq_of_mem_archivedMetadata {scope : ArchiveScope} {profile module : Text} {metadata : JObject}
    {conflict : ArchivedConflict} (h : conflict ∈ archivedMetadata host scope profile module metadata) :
    ∃ field value, field ≠ [] ∧ conflict = identified host
      { profileId := profile, moduleId := module, current := fieldOf field (metadata.find field)
        alternate := fieldOf field (some value), scope, field } := by
  obtain ⟨raw, -, h⟩ := List.mem_filterMap.mp h
  dsimp only at h
  split_ifs at h with hfield
  obtain ⟨value, -, rfl⟩ := Option.map_eq_some_iff.mp h
  exact ⟨_, value, hfield, rfl⟩

lemma archived_of_metadata (slot : Slot) {metadata : JObject} {conflict : ArchivedConflict}
    (hget : slot.get snapshot = some metadata) (hsupported : ∀ key id, slot = .moduleExtra key id →
      host.supportedModule id (schemaVersion metadata) = true)
    (h : conflict ∈ archivedMetadata host slot.scope slot.profileId slot.moduleId metadata) :
    Archived host snapshot conflict := by
  obtain ⟨field, value, hfield, rfl⟩ := eq_of_mem_archivedMetadata h
  exact .metadata hget hsupported hfield

/-- **What the walk over the archives visits** is archived at a place of metadata, in a record of a
supported module, or as a module of an account. -/
theorem archived_of_mem (htidy : Tidy snapshot.profiles) {conflict : ArchivedConflict}
    (h : conflict ∈ walkArchives host snapshot) : Archived host snapshot conflict := by
  unfold walkArchives at h
  simp only [List.mem_append] at h
  rcases h with (((h | h) | h) | h) | h
  · exact archived_of_metadata .rootExtra rfl (fun _ _ heq => by cases heq) h
  · exact archived_of_metadata .rootTransfer rfl (fun _ _ heq => by cases heq) h
  · obtain ⟨profile, hprofile, h⟩ := List.mem_flatMap.mp h
    obtain ⟨key, hkey⟩ := OrdMap.mem_values_iff.mp hprofile
    obtain rfl := htidy.key key profile hkey
    unfold archivedProfile at h
    simp only [List.mem_append] at h
    rcases h with (h | h) | h
    · exact archived_of_metadata (.profileExtra profile.id)
        (Option.map_eq_some_iff.mpr ⟨profile, hkey, rfl⟩) (fun _ _ heq => by cases heq) h
    · exact archived_of_metadata (.profileTransfer profile.id)
        (Option.map_eq_some_iff.mpr ⟨profile, hkey, rfl⟩) (fun _ _ heq => by cases heq) h
    · obtain ⟨⟨id, module⟩, hentry, h⟩ := List.mem_flatMap.mp h
      have hmodule : profile.modules.find id = some module := OrdMap.find_eq_some_iff.mpr hentry
      unfold archivedModule at h
      split_ifs at h with hsupported
      · rcases List.mem_append.mp h with h | h
        · refine archived_of_metadata (.moduleExtra profile.id id)
            (Option.bind_eq_some_iff.mpr ⟨profile, hkey, hmodule⟩) ?_ h
          intro key' id' heq
          cases heq
          exact hsupported
        · obtain ⟨value, hvalue, h⟩ := List.mem_flatMap.mp h
          obtain ⟨alternate, halternate, rfl⟩ := List.mem_map.mp h
          exact .record hkey hmodule hsupported hvalue halternate
      · cases h
  · obtain ⟨raw, -, h⟩ := List.mem_filterMap.mp h
    obtain ⟨profile, hprofile, rfl⟩ := Option.map_eq_some_iff.mp h
    obtain ⟨key, hkey, -⟩ := find_of_profileOf hprofile
    obtain rfl := htidy.key key profile hkey
    exact .module hkey
  · obtain ⟨⟨key, asset⟩, hentry, h⟩ := List.mem_flatMap.mp h
    have hasset : snapshot.assets.find key = some asset := OrdMap.find_eq_some_iff.mpr hentry
    rcases List.mem_append.mp h with h | h
    · exact archived_of_metadata (.assetExtra key) (Option.map_eq_some_iff.mpr ⟨asset, hasset, rfl⟩)
        (fun _ _ heq => by cases heq) h
    · exact archived_of_metadata (.assetTransfer key)
        (Option.map_eq_some_iff.mpr ⟨asset, hasset, rfl⟩) (fun _ _ heq => by cases heq) h

end Listed

end LocalData
