import Telegravim.LocalData.Archives
import Telegravim.LocalData.Metadata

set_option autoImplicit false

/-!
# Local data: the conflicts of a plan

What the conflicts of a plan are about. Each has the values that both sides have at its scope, so the
conflicts of a plan are told apart by their scopes; and a module with a conflict about it as a whole
has no others.

## Main definitions

* `LocalData.side` — what a side of an import has at the scope of a conflict.
* `LocalData.slotOf` — the place of metadata that a conflict is about.
* `LocalData.SupportedMetadata` — metadata of a module in a supported version.

## Main results

* `LocalData.Imported.sides` — the conflicts of a plan have the values of both sides.
* `LocalData.Imported.eq_of_slot` — a place of metadata has one conflict.
* `LocalData.Imported.not_whole` — conflicts about all of a module and about parts of it exclude each
  other.
-/

namespace LocalData

open Text

/-! ### The sides of a conflict -/

/-- What a side of an import has at the scope of a conflict; the profile is the one of this side. -/
def side (snapshot : Snapshot) (profile : Option Profile) (moduleId recordId : Text) : JObject :=
  let module := (profile.bind fun profile => profile.modules.find moduleId).getD ∅
  if recordId = u "@root-extra" then snapshot.extra
  else if recordId = u "@root-transfer" then snapshot.transfer
  else if recordId = u "@asset-extra" then ((snapshot.assets.find moduleId).map Asset.extra).getD ∅
  else if recordId = u "@asset-transfer" then
    ((snapshot.assets.find moduleId).map Asset.transfer).getD ∅
  else if recordId = u "@profile-extra" then (profile.map Profile.extra).getD ∅
  else if recordId = u "@profile-transfer" then (profile.map Profile.transfer).getD ∅
  else if recordId = [] then module
  else if recordId = u "@module-extra" then moduleMetadata moduleId module
  else ((records module).find recordId).getD ∅

/-- The record of a module at the scope of a conflict about it. -/
lemma side_record (snapshot : Snapshot) {profile : Profile} {module : JObject} {id rid : Text}
    (hne : rid ≠ []) (hscope : rid ∉ metadataScopes) (hmodule : profile.modules.find id = some module) :
    side snapshot (some profile) id rid = ((records module).find rid).getD ∅ := by
  simp only [metadataScopes, List.mem_cons, List.not_mem_nil, or_false, not_or] at hscope
  obtain ⟨h₁, h₂, h₃, h₄, h₅, h₆, h₇⟩ := hscope
  simp only [side, if_neg h₁, if_neg h₂, if_neg h₃, if_neg h₄, if_neg h₅, if_neg h₆, if_neg h₇,
    if_neg hne, Option.bind_some, hmodule, Option.getD_some]

lemma side_whole (snapshot : Snapshot) {profile : Profile} {module : JObject} {id : Text}
    (hmodule : profile.modules.find id = some module) :
    side snapshot (some profile) id [] = module := by
  have h : side snapshot (some profile) id [] = (profile.modules.find id).getD ∅ := rfl
  rw [h, hmodule, Option.getD_some]

lemma side_moduleExtra (snapshot : Snapshot) {profile : Profile} {module : JObject} {id : Text}
    (hmodule : profile.modules.find id = some module) :
    side snapshot (some profile) id (u "@module-extra") = moduleMetadata id module := by
  have h : side snapshot (some profile) id (u "@module-extra") =
      moduleMetadata id ((profile.modules.find id).getD ∅) := rfl
  rw [h, hmodule, Option.getD_some]

section Sides

variable {host : Host} {state incoming : Snapshot} {plan : MergePlan}

/-- A conflict with the values that both sides have at its scope. -/
def HasSides (host : Host) (state incoming : Snapshot) (c : Conflict) : Prop :=
  c = conflictOf host c.profileId c.moduleId c.recordId
    (side state (state.profiles.find c.profileId) c.moduleId c.recordId)
    (side incoming ((state.profiles.find c.profileId).bind fun profile =>
      profileOf incoming profile.account) c.moduleId c.recordId)

/-- A conflict with the same scope and the same values as the two sides. -/
lemma hasSides_conflictOf {key id rid : Text} {before after : JObject}
    (hlocal : side state (state.profiles.find key) id rid = before)
    (hincoming : side incoming ((state.profiles.find key).bind fun profile =>
      profileOf incoming profile.account) id rid = after) :
    HasSides host state incoming (conflictOf host key id rid before after) := by
  simp only [HasSides, conflictOf, hlocal, hincoming]

/-- A disagreement about a record is about one that both sides have. -/
lemma record_of_competes (hstate : Valid host state) (hincoming : Valid host incoming)
    {key id : Text} {profile source : Profile} {module other record : JObject} {value : Json}
    (hprofile : state.profiles.find key = some profile)
    (hsource : profileOf incoming profile.account = some source)
    (hother : source.modules.find id = some other) (hmodule : profile.modules.find id = some module)
    (hboth : bothSupported host id module other = true)
    (hvalue : value ∈ arrayField other (u "records"))
    (hrecord : (records module).find (recordId value.toObject) = some record) :
    recordId value.toObject ≠ [] ∧ recordId value.toObject ∉ metadataScopes ∧
      (records other).find (recordId value.toObject) = some value.toObject := by
  simp only [bothSupported, Bool.and_eq_true] at hboth
  have hid := (hstate.ids hprofile hmodule hboth.2 hrecord).1
  obtain ⟨key', hkey', -⟩ := find_of_profileOf hsource
  exact ⟨ne_nil_of_validId hid, not_mem_metadataScopes_of_validId hid,
    (hincoming.distinctModules (OrdMap.mem_values_iff.mpr ⟨key', hkey'⟩) id other hother hboth.1).find
      hvalue⟩

lemma ModuleDisagreement.sides (hstate : Valid host state) (hincoming : Valid host incoming)
    {key id : Text} {profile source : Profile} {module other : JObject} {c : Conflict}
    (hprofile : state.profiles.find key = some profile)
    (hsource : profileOf incoming profile.account = some source)
    (hother : source.modules.find id = some other) (hmodule : profile.modules.find id = some module)
    (h : ModuleDisagreement host key id module other c) : HasSides host state incoming c := by
  obtain ⟨-, ⟨-, rfl⟩ | ⟨hboth, ⟨-, rfl⟩ | ⟨value, hvalue, record, hrecord, -, rfl⟩⟩⟩ := h
  · apply hasSides_conflictOf
    · rw [hprofile, side_whole _ hmodule]
    · rw [hprofile, Option.bind_some, hsource, side_whole _ hother]
  · apply hasSides_conflictOf
    · rw [hprofile, side_moduleExtra _ hmodule]
    · rw [hprofile, Option.bind_some, hsource, side_moduleExtra _ hother]
  · obtain ⟨hne, hscope, hthere⟩ := record_of_competes hstate hincoming hprofile hsource hother
      hmodule hboth hvalue hrecord
    apply hasSides_conflictOf
    · rw [hprofile, side_record _ hne hscope hmodule, hrecord, Option.getD_some]
    · rw [hprofile, Option.bind_some, hsource, side_record _ hne hscope hother, hthere,
        Option.getD_some]

/-- **The conflicts of a plan have the values of both sides.** -/
theorem Imported.sides (h : Imported host state incoming plan) (hstate : Valid host state)
    (hincoming : Valid host incoming) {c : Conflict} (hc : c ∈ plan.conflicts) :
    HasSides host state incoming c := by
  obtain ⟨root, rest, hconflicts, hroot, hrest⟩ := h.conflicts
  rw [hconflicts, List.mem_append] at hc
  rcases hc with hc | hc
  · obtain ⟨⟨-, rfl⟩, -⟩ := (hroot c).mp hc
    exact hasSides_conflictOf rfl rfl
  obtain ⟨hdisagree, -⟩ := (hrest c).mp hc
  rcases hdisagree with ⟨-, rfl⟩ | ⟨key, profile, source, hprofile, hsource, hdisagree⟩ |
    ⟨key, asset, other, hasset, hother, ⟨-, rfl⟩ | ⟨-, rfl⟩⟩
  · exact hasSides_conflictOf rfl rfl
  · obtain rfl := hstate.tidy.key key profile hprofile
    rcases hdisagree with ⟨-, rfl⟩ | ⟨-, rfl⟩ | ⟨id, other, module, hother, hmodule, hdisagree⟩
    · apply hasSides_conflictOf
      · rw [hprofile]
        rfl
      · rw [hprofile, Option.bind_some, hsource]
        rfl
    · apply hasSides_conflictOf
      · rw [hprofile]
        rfl
      · rw [hprofile, Option.bind_some, hsource]
        rfl
    · exact hdisagree.sides hstate hincoming hprofile hsource hother hmodule
  · have hside : ∀ (snapshot : Snapshot) profile, side snapshot profile key (u "@asset-extra") =
        ((snapshot.assets.find key).map Asset.extra).getD ∅ := fun _ _ => rfl
    apply hasSides_conflictOf
    · rw [hside, hasset]
      rfl
    · rw [hside, hother]
      rfl
  · have hside : ∀ (snapshot : Snapshot) profile, side snapshot profile key (u "@asset-transfer") =
        ((snapshot.assets.find key).map Asset.transfer).getD ∅ := fun _ _ => rfl
    apply hasSides_conflictOf
    · rw [hside, hasset]
      rfl
    · rw [hside, hother]
      rfl

/-- Conflicts of a plan about the same scope are the same. -/
lemma HasSides.eq {c c' : Conflict} (h : HasSides host state incoming c)
    (h' : HasSides host state incoming c') (hprofile : c.profileId = c'.profileId)
    (hmodule : c.moduleId = c'.moduleId) (hrecord : c.recordId = c'.recordId) : c = c' := by
  rw [HasSides, hprofile, hmodule, hrecord] at h
  exact h.trans h'.symm

/-- A conflict about a module, its metadata or one of its records comes from two versions of this
module. -/
lemma Imported.module_of_conflict (h : Imported host state incoming plan)
    (hstate : Valid host state) {c : Conflict} (hc : c ∈ plan.conflicts)
    (hscope : c.recordId ∈ metadataScopes → c.recordId = u "@module-extra") :
    ∃ profile source module other, state.profiles.find c.profileId = some profile ∧
      profileOf incoming profile.account = some source ∧
      profile.modules.find c.moduleId = some module ∧
      source.modules.find c.moduleId = some other ∧
      ModuleDisagreement host c.profileId c.moduleId module other c := by
  have hnot : ∀ scope : Text, scope ∈ metadataScopes → scope ≠ u "@module-extra" →
      c.recordId ≠ scope := fun scope hmem hne heq => hne (heq ▸ hscope (heq ▸ hmem))
  obtain ⟨root, rest, hconflicts, hroot, hrest⟩ := h.conflicts
  rw [hconflicts, List.mem_append] at hc
  rcases hc with hc | hc
  · obtain ⟨⟨-, heq⟩, -⟩ := (hroot c).mp hc
    exact absurd (congrArg Conflict.recordId heq) (hnot (u "@root-extra") (by decide) (by decide))
  obtain ⟨hdisagree, -⟩ := (hrest c).mp hc
  rcases hdisagree with ⟨-, heq⟩ | ⟨key, profile, source, hprofile, hsource, hdisagree⟩ |
    ⟨key, asset, other, -, -, ⟨-, heq⟩ | ⟨-, heq⟩⟩
  · exact absurd (congrArg Conflict.recordId heq) (hnot (u "@root-transfer") (by decide) (by decide))
  · obtain rfl := hstate.tidy.key key profile hprofile
    rcases hdisagree with ⟨-, heq⟩ | ⟨-, heq⟩ | ⟨id, other, module, hother, hmodule, hdisagree⟩
    · exact absurd (congrArg Conflict.recordId heq)
        (hnot (u "@profile-extra") (by decide) (by decide))
    · exact absurd (congrArg Conflict.recordId heq)
        (hnot (u "@profile-transfer") (by decide) (by decide))
    · obtain ⟨hkey, hid⟩ := hdisagree.scope
      rw [hkey, hid]
      exact ⟨profile, source, module, other, hprofile, hsource, hmodule, hother, hdisagree⟩
  · exact absurd (congrArg Conflict.recordId heq) (hnot (u "@asset-extra") (by decide) (by decide))
  · exact absurd (congrArg Conflict.recordId heq) (hnot (u "@asset-transfer") (by decide) (by decide))

/-- A conflict about a record has two versions of it, of a module that is supported on both sides. -/
lemma Imported.record_of_scope (h : Imported host state incoming plan) (hstate : Valid host state)
    {c : Conflict} (hc : c ∈ plan.conflicts) (hne : c.recordId ≠ [])
    (hscope : c.recordId ∉ metadataScopes) :
    recordId c.local = c.recordId ∧ recordId c.incoming = c.recordId := by
  obtain ⟨profile, source, module, other, -, -, -, -, hdisagree⟩ :=
    h.module_of_conflict hstate hc fun hmem => absurd hmem hscope
  rcases hdisagree.2 with ⟨-, heq⟩ | ⟨-, ⟨-, heq⟩ | ⟨value, -, record, hrecord, -, heq⟩⟩
  · exact absurd (congrArg Conflict.recordId heq) hne
  · refine absurd ?_ hscope
    rw [show c.recordId = u "@module-extra" from congrArg Conflict.recordId heq]
    decide
  · rw [heq]
    exact ⟨keyed_records module _ _ hrecord, rfl⟩

/-- A module that a conflict is about as a whole has no other conflicts. -/
lemma Imported.not_whole (h : Imported host state incoming plan) (hstate : Valid host state)
    {c c' : Conflict} (hc : c ∈ plan.conflicts) (hc' : c' ∈ plan.conflicts)
    (hscope : c.recordId ∈ metadataScopes → c.recordId = u "@module-extra") (hne : c.recordId ≠ [])
    (hwhole : c'.recordId = []) (hprofile : c.profileId = c'.profileId) :
    c.moduleId ≠ c'.moduleId := by
  intro hmodule
  obtain ⟨profile, source, module, other, hfind, hsource, hfindM, hother, hdisagree⟩ :=
    h.module_of_conflict hstate hc hscope
  obtain ⟨profile', source', module', other', hfind', hsource', hfindM', hother', hdisagree'⟩ :=
    h.module_of_conflict hstate hc' fun hmem => absurd (hwhole ▸ hmem) nil_not_mem_metadataScopes
  rw [← hprofile, hfind] at hfind'
  cases hfind'
  rw [hsource] at hsource'
  cases hsource'
  rw [← hmodule, hfindM] at hfindM'
  cases hfindM'
  rw [← hmodule, hother] at hother'
  cases hother'
  have hboth : bothSupported host c.moduleId module other = true := by
    rcases hdisagree.2 with ⟨-, heq⟩ | ⟨hboth, -⟩
    · exact absurd (congrArg Conflict.recordId heq) hne
    · exact hboth
  rcases hdisagree'.2 with ⟨hnot, -⟩ | ⟨-, ⟨-, heq⟩ | ⟨value, -, record, hrecord, -, heq⟩⟩
  · rw [← hmodule, hboth] at hnot
    cases hnot
  · have hid := congrArg Conflict.recordId heq
    rw [hwhole] at hid
    exact absurd hid (by change ([] : Text) ≠ u "@module-extra"; decide)
  · have hid := congrArg Conflict.recordId heq
    rw [hwhole] at hid
    simp only [bothSupported, Bool.and_eq_true] at hboth
    exact ne_nil_of_validId (hstate.ids hfind hfindM hboth.2 hrecord).1 hid.symm

/-- A disagreement below the root is not about its metadata. -/
lemma ScopeDisagreement.recordId_ne {c : Conflict}
    (hstate : Valid host state) (h : ScopeDisagreement host state incoming c) :
    c.recordId ≠ u "@root-extra" := by
  rcases h with ⟨-, rfl⟩ | ⟨key, profile, source, hprofile, -, hdisagree⟩ |
    ⟨key, asset, other, -, -, ⟨-, rfl⟩ | ⟨-, rfl⟩⟩
  · change u "@root-transfer" ≠ u "@root-extra"
    decide
  · rcases hdisagree with ⟨-, rfl⟩ | ⟨-, rfl⟩ | ⟨id, other, module, -, hmodule, -, hdisagree⟩
    · change u "@profile-extra" ≠ u "@root-extra"
      decide
    · change u "@profile-transfer" ≠ u "@root-extra"
      decide
    · rcases hdisagree with ⟨-, rfl⟩ | ⟨hboth, ⟨-, rfl⟩ | ⟨value, -, record, hrecord, -, rfl⟩⟩
      · change ([] : Text) ≠ u "@root-extra"
        decide
      · change u "@module-extra" ≠ u "@root-extra"
        decide
      · simp only [bothSupported, Bool.and_eq_true] at hboth
        have hid := (hstate.ids hprofile hmodule hboth.2 hrecord).1
        intro heq
        exact not_mem_metadataScopes_of_validId hid (by
          change recordId value.toObject = _ at heq
          simp [heq, metadataScopes])
  · change u "@asset-extra" ≠ u "@root-extra"
    decide
  · change u "@asset-transfer" ≠ u "@root-extra"
    decide

end Sides

/-! ### The place of a conflict -/

/-- The place of metadata that a conflict is about; none for a whole module or a record. -/
def slotOf (c : Conflict) : Option Slot :=
  if c.recordId = u "@root-extra" then some .rootExtra
  else if c.recordId = u "@root-transfer" then some .rootTransfer
  else if c.recordId = u "@asset-extra" then some (.assetExtra c.moduleId)
  else if c.recordId = u "@asset-transfer" then some (.assetTransfer c.moduleId)
  else if c.recordId = u "@profile-extra" then some (.profileExtra c.profileId)
  else if c.recordId = u "@profile-transfer" then some (.profileTransfer c.profileId)
  else if c.recordId = u "@module-extra" then some (.moduleExtra c.profileId c.moduleId)
  else none

/-- The scope of metadata at a place. -/
def Slot.recordId : Slot → Text
  | rootExtra => u "@root-extra"
  | rootTransfer => u "@root-transfer"
  | profileExtra _ => u "@profile-extra"
  | profileTransfer _ => u "@profile-transfer"
  | moduleExtra _ _ => u "@module-extra"
  | assetExtra _ => u "@asset-extra"
  | assetTransfer _ => u "@asset-transfer"

lemma recordId_of_slotOf {c : Conflict} {slot : Slot} (h : slotOf c = some slot) :
    c.recordId = slot.recordId := by
  unfold slotOf at h
  split_ifs at h with h₁ h₂ h₃ h₄ h₅ h₆ h₇ <;> cases h
  · exact h₁
  · exact h₂
  · exact h₃
  · exact h₄
  · exact h₅
  · exact h₆
  · exact h₇

lemma slotOf_eq_none {c : Conflict} (h : c.recordId ∉ metadataScopes) : slotOf c = none := by
  simp only [metadataScopes, List.mem_cons, List.not_mem_nil, or_false, not_or] at h
  obtain ⟨h₁, h₂, h₃, h₄, h₅, h₆, h₇⟩ := h
  simp only [slotOf, if_neg h₁, if_neg h₂, if_neg h₃, if_neg h₄, if_neg h₅, if_neg h₆, if_neg h₇]

lemma mem_metadataScopes_of_slotOf {c : Conflict} {slot : Slot} (h : slotOf c = some slot) :
    c.recordId ∈ metadataScopes := by
  by_contra hscope
  rw [slotOf_eq_none hscope] at h
  cases h

/-- A conflict of a plan about metadata has the profile and the module of its place. -/
lemma Imported.place {host : Host} {state incoming : Snapshot} {plan : MergePlan}
    (h : Imported host state incoming plan) (hstate : Valid host state)
    (hincoming : Valid host incoming) {c : Conflict} {slot : Slot} (hc : c ∈ plan.conflicts)
    (hslot : slotOf c = some slot) : c.profileId = slot.profileId ∧ c.moduleId = slot.moduleId := by
  obtain ⟨root, rest, hconflicts, hroot, hrest⟩ := h.conflicts
  rw [hconflicts, List.mem_append] at hc
  rcases hc with hc | hc
  · obtain ⟨⟨-, rfl⟩, -⟩ := (hroot c).mp hc
    change some Slot.rootExtra = some slot at hslot
    cases hslot
    exact ⟨rfl, rfl⟩
  obtain ⟨hdisagree, -⟩ := (hrest c).mp hc
  rcases hdisagree with ⟨-, rfl⟩ | ⟨key, profile, source, hprofile, hsource, hdisagree⟩ |
    ⟨key, asset, other, -, -, ⟨-, rfl⟩ | ⟨-, rfl⟩⟩
  · change some Slot.rootTransfer = some slot at hslot
    cases hslot
    exact ⟨rfl, rfl⟩
  · rcases hdisagree with ⟨-, rfl⟩ | ⟨-, rfl⟩ | ⟨id, other, module, hother, hmodule, -, hdisagree⟩
    · change some (Slot.profileExtra profile.id) = some slot at hslot
      cases hslot
      exact ⟨rfl, rfl⟩
    · change some (Slot.profileTransfer profile.id) = some slot at hslot
      cases hslot
      exact ⟨rfl, rfl⟩
    · obtain rfl := hstate.tidy.key key profile hprofile
      rcases hdisagree with ⟨-, rfl⟩ | ⟨hboth, ⟨-, rfl⟩ | ⟨value, hvalue, record, hrecord, -, rfl⟩⟩
      · change none = some slot at hslot
        cases hslot
      · change some (Slot.moduleExtra profile.id id) = some slot at hslot
        cases hslot
        exact ⟨rfl, rfl⟩
      · obtain ⟨-, hscope, -⟩ := record_of_competes hstate hincoming hprofile hsource hother hmodule
          hboth hvalue hrecord
        exact absurd (mem_metadataScopes_of_slotOf hslot) hscope
  · change some (Slot.assetExtra key) = some slot at hslot
    cases hslot
    exact ⟨rfl, rfl⟩
  · change some (Slot.assetTransfer key) = some slot at hslot
    cases hslot
    exact ⟨rfl, rfl⟩

/-- Conflicts of a plan about the same place of metadata are the same. -/
lemma Imported.eq_of_slot {host : Host} {state incoming : Snapshot} {plan : MergePlan}
    (h : Imported host state incoming plan) (hstate : Valid host state)
    (hincoming : Valid host incoming) {c c' : Conflict} {slot : Slot} (hc : c ∈ plan.conflicts)
    (hc' : c' ∈ plan.conflicts) (hslot : slotOf c = some slot) (hslot' : slotOf c' = some slot) :
    c = c' := by
  obtain ⟨hprofile, hmodule⟩ := h.place hstate hincoming hc hslot
  obtain ⟨hprofile', hmodule'⟩ := h.place hstate hincoming hc' hslot'
  refine (h.sides hstate hincoming hc).eq (h.sides hstate hincoming hc') ?_ ?_ ?_
  · rw [hprofile, hprofile']
  · rw [hmodule, hmodule']
  · rw [recordId_of_slotOf hslot, recordId_of_slotOf hslot']

/-! ### Supported versions -/

/-- Metadata of a module in a supported version. -/
def SupportedMetadata (host : Host) (id : Text) (metadata : JObject) : Prop :=
  (∃ value, metadata.find (u "schema_version") = some value) ∧
    host.supportedModule id (schemaVersion metadata) = true

/-- Merged metadata has the version of its first side. -/
lemma SupportedMetadata.mergeExtra {host : Host} {id : Text} {metadata : JObject}
    (h : SupportedMetadata host id metadata) (other : JObject) :
    SupportedMetadata host id (LocalData.mergeExtra metadata other) := by
  obtain ⟨⟨value, hvalue⟩, hsupported⟩ := h
  have hfind := find_mergeExtra_of_some (by decide) hvalue other
  refine ⟨⟨value, hfind⟩, ?_⟩
  unfold schemaVersion at hsupported ⊢
  rw [hfind, ← hvalue]
  exact hsupported

/-- Resolved metadata has the version of one of its sides. -/
lemma SupportedMetadata.resolveMetadata {host : Host} {id : Text} {before incoming : JObject}
    (h : SupportedMetadata host id before) (h' : SupportedMetadata host id incoming)
    (choice : ConflictChoice) :
    SupportedMetadata host id (LocalData.resolveMetadata before incoming choice) := by
  cases choice with
  | keepLocal => exact h.mergeExtra _
  | useIncoming => exact h'.mergeExtra _
  | keepBoth => exact h.mergeExtra _

/-- The metadata of an accepted module of a supported version, for the merge. -/
lemma ValidModule.supportedMetadata {host : Host} {assets : OrdMap Text Asset} {account : Account}
    {id : Text} {module : JObject} (h : ValidModule host assets account id module)
    (hsupported : host.supportedModule id (schemaVersion module) = true) :
    SupportedMetadata host id (moduleMetadata id module) := by
  have hversion : ∃ value, module.find (u "schema_version") = some value := by
    have henvelope := h.envelope
    simp only [validEnvelope, Bool.and_eq_true] at henvelope
    cases hfind : module.find (u "schema_version") with
    | some value => exact ⟨value, rfl⟩
    | none =>
      rw [hfind] at henvelope
      exact absurd henvelope.1.2 (by decide)
  have hne : u "schema_version" ≠ u "records" := by decide
  unfold SupportedMetadata moduleMetadata schemaVersion
  rw [OrdMap.find_erase, if_neg hne]
  by_cases hid : id = u "saved_tags"
  · rw [if_pos hid, OrdMap.find_insert_self]
    refine ⟨⟨_, rfl⟩, ?_⟩
    obtain ⟨definition, hfind, htwo⟩ := host.registry.savedTags
    unfold Host.supportedModule Host.definition
    rw [hid, hfind]
    simp [Json.asInt, htwo]
  · rw [if_neg hid]
    exact ⟨hversion, hsupported⟩

section Versions

variable {host : Host} {state incoming : Snapshot} {plan : MergePlan} {c : Conflict}

/-- The two sides of a conflict about the metadata of a module are in supported versions and without
records. -/
lemma Imported.supported_of_moduleExtra (h : Imported host state incoming plan)
    (hstate : Valid host state) (hincoming : Valid host incoming) (hc : c ∈ plan.conflicts)
    (hscope : c.recordId = u "@module-extra") :
    SupportedMetadata host c.moduleId c.local ∧ SupportedMetadata host c.moduleId c.incoming ∧
      c.local.find (u "records") = none := by
  have hne : c.recordId ≠ [] := by
    rw [hscope]
    decide
  obtain ⟨profile, source, module, other, hprofile, hsource, hmodule, hother, hdisagree⟩ :=
    h.module_of_conflict hstate hc fun _ => hscope
  obtain ⟨key, hkey, -⟩ := find_of_profileOf hsource
  rcases hdisagree.2 with ⟨-, heq⟩ | ⟨hboth, ⟨-, heq⟩ | ⟨value, hvalue, record, hrecord, -, heq⟩⟩
  · exact absurd (congrArg Conflict.recordId heq) hne
  · simp only [bothSupported, Bool.and_eq_true] at hboth
    have hlocal : c.local = moduleMetadata c.moduleId module := congrArg Conflict.local heq
    have hremote : c.incoming = moduleMetadata c.moduleId other := congrArg Conflict.incoming heq
    rw [hlocal, hremote]
    refine ⟨(hstate.module _ profile _ module hprofile hmodule).supportedMetadata hboth.2,
      (hincoming.module key source _ other hkey hother).supportedMetadata hboth.1, ?_⟩
    unfold moduleMetadata
    rw [OrdMap.find_erase, if_pos rfl]
  · obtain ⟨-, hnot, -⟩ := record_of_competes hstate hincoming hprofile hsource hother hmodule hboth
      hvalue hrecord
    refine absurd ?_ hnot
    rw [← show c.recordId = recordId value.toObject from congrArg Conflict.recordId heq, hscope]
    decide

end Versions

end LocalData
