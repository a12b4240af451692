import Telegravim.LocalData.Import
import Telegravim.LocalData.Bindings

set_option autoImplicit false

/-!
# Local data: what a resolution changes

What the resolution of a conflict changes in a snapshot, and what the pass over the bindings changes
in the modules of all profiles: each module of a profile is told from the module that was there.

## Main definitions

* `LocalData.metadataScopes` — the scopes of metadata.
* `LocalData.Resolution` — what a resolution can do to a snapshot.
* `LocalData.ModuleResolved` — a module before and after a conflict was resolved.

## Main results

* `LocalData.resolveConflict_module` — what a resolution does to each module.
* `LocalData.normalizeSnapshot_module` — what the pass does to each module.
-/

namespace LocalData

open Text

/-! ### Scopes -/

/-- The scopes of metadata, as the conflicts of metadata have them for the id of a record. -/
def metadataScopes : List Text :=
  [u "@root-extra", u "@root-transfer", u "@asset-extra", u "@asset-transfer", u "@profile-extra",
    u "@profile-transfer", u "@module-extra"]

lemma nil_not_mem_metadataScopes : ([] : Text) ∉ metadataScopes := by decide

/-- The id of a record is no scope of metadata. -/
lemma not_mem_metadataScopes_of_validId {id : Text} (h : validId id = true) :
    id ∉ metadataScopes := by
  intro hmem
  have hinvalid : ∀ scope ∈ metadataScopes, validId scope = false := by decide
  rw [hinvalid id hmem] at h
  cases h

/-! ### Resolved records -/

lemma versionVector_resolvedRecord (conflict : Conflict) (choice : ConflictChoice) :
    versionVector (resolvedRecord conflict choice) =
      joinedVector (versionVector conflict.local) (versionVector conflict.incoming) := by
  simp [resolvedRecord]

/-- A resolved record follows the local side. -/
lemma lt_resolved {conflict : Conflict} {choice : ConflictChoice} {device : Text}
    {resolved : JObject} (h : advance (resolvedRecord conflict choice) device = .ok resolved) :
    counter conflict.local < counter resolved := by
  refine lt_of_le_of_lt ?_ (lt_of_advance h)
  rw [counter_eq, counter_eq, versionVector_resolvedRecord]
  exact le_counts_joinedVector_left _ _

lemma recordId_resolvedRecord {conflict : Conflict} {choice : ConflictChoice} {id : Text}
    (hlocal : recordId conflict.local = id) (hincoming : recordId conflict.incoming = id) :
    recordId (resolvedRecord conflict choice) = id := by
  unfold resolvedRecord
  unfold recordId at hlocal hincoming ⊢
  cases choice
  · rw [OrdMap.find_insert_of_ne vectorField_ne.1.symm]
    exact hlocal
  · rw [OrdMap.find_insert_of_ne vectorField_ne.1.symm]
    exact hincoming
  · rw [OrdMap.find_insert_of_ne vectorField_ne.1.symm,
      OrdMap.find_insert_of_ne versionsField_ne.1.symm]
    exact hlocal

/-! ### Resolutions -/

/-- **What a resolution can do**: it writes the metadata of a scope, a whole module, or a record. -/
inductive Resolution (conflict : Conflict) (choice : ConflictChoice) (next : Snapshot) :
    Snapshot → Prop where
  | rootExtra : conflict.recordId = u "@root-extra" →
      Resolution conflict choice next
        { next with extra := resolveMetadata conflict.local conflict.incoming choice }
  | rootTransfer : conflict.recordId = u "@root-transfer" →
      Resolution conflict choice next
        { next with transfer := resolveMetadata conflict.local conflict.incoming choice }
  | assetExtra {asset : Asset} : conflict.recordId = u "@asset-extra" →
      next.assets.find conflict.moduleId = some asset →
      Resolution conflict choice next
        { next with
          assets := next.assets.insert conflict.moduleId { asset with
            extra := resolveMetadata conflict.local conflict.incoming choice } }
  | assetTransfer {asset : Asset} : conflict.recordId = u "@asset-transfer" →
      next.assets.find conflict.moduleId = some asset →
      Resolution conflict choice next
        { next with
          assets := next.assets.insert conflict.moduleId { asset with
            transfer := resolveMetadata conflict.local conflict.incoming choice } }
  | profileExtra {profile : Profile} : conflict.recordId = u "@profile-extra" →
      next.profiles.find conflict.profileId = some profile →
      Resolution conflict choice next (next.setProfile conflict.profileId
        { profile with extra := resolveMetadata conflict.local conflict.incoming choice })
  | profileTransfer {profile : Profile} : conflict.recordId = u "@profile-transfer" →
      next.profiles.find conflict.profileId = some profile →
      Resolution conflict choice next (next.setProfile conflict.profileId
        { profile with transfer := resolveMetadata conflict.local conflict.incoming choice })
  | whole {profile : Profile} : conflict.recordId = [] → choice ≠ .keepBoth →
      next.profiles.find conflict.profileId = some profile →
      Resolution conflict choice next (next.setProfile conflict.profileId
        (profile.setModule conflict.moduleId (selectedSide conflict choice)))
  | wholeBoth {profile : Profile} : conflict.recordId = [] → choice = .keepBoth →
      next.profiles.find conflict.profileId = some profile →
      Resolution conflict choice next ((next.setProfile conflict.profileId
        (profile.setModule conflict.moduleId (selectedSide conflict choice))).keep opaqueVariantsField
          (opaqueVariant conflict.id profile.account conflict.incoming))
  | moduleExtra {profile : Profile} : conflict.recordId = u "@module-extra" →
      next.profiles.find conflict.profileId = some profile →
      Resolution conflict choice next (next.setProfile conflict.profileId
        (profile.setModule conflict.moduleId (setRecords
          (resolveMetadata conflict.local conflict.incoming choice)
          (records ((profile.modules.find conflict.moduleId).getD ∅)))))
  | record {profile : Profile} {resolved : JObject} : conflict.recordId ≠ [] →
      conflict.recordId ∉ metadataScopes → next.profiles.find conflict.profileId = some profile →
      advance (resolvedRecord conflict choice) next.deviceId = .ok resolved →
      Resolution conflict choice next (next.setProfile conflict.profileId
        (profile.setModule conflict.moduleId (setRecords
          ((profile.modules.find conflict.moduleId).getD ∅)
          ((records ((profile.modules.find conflict.moduleId).getD ∅)).insert conflict.recordId
            resolved))))

/-- A module before and after a conflict was resolved: it is the same, or the conflict is about it as
a whole, about its metadata, or about one of its records. -/
inductive ModuleResolved (conflict : Conflict) (choice : ConflictChoice) (device key id : Text)
    (module : JObject) : JObject → Prop where
  | same : ModuleResolved conflict choice device key id module module
  | whole : key = conflict.profileId → id = conflict.moduleId → conflict.recordId = [] →
      ModuleResolved conflict choice device key id module (selectedSide conflict choice)
  | metadata : key = conflict.profileId → id = conflict.moduleId →
      conflict.recordId = u "@module-extra" →
      ModuleResolved conflict choice device key id module
        (setRecords (resolveMetadata conflict.local conflict.incoming choice) (records module))
  | record {resolved : JObject} : key = conflict.profileId → id = conflict.moduleId →
      conflict.recordId ≠ [] → conflict.recordId ∉ metadataScopes →
      advance (resolvedRecord conflict choice) device = .ok resolved →
      ModuleResolved conflict choice device key id module
        (setRecords module ((records module).insert conflict.recordId resolved))

lemma find_setProfile_of_ne {key key' : Text} (h : key' ≠ key) (snapshot : Snapshot)
    (profile : Profile) :
    (snapshot.setProfile key profile).profiles.find key' = snapshot.profiles.find key' :=
  OrdMap.find_insert_of_ne h _ _

@[simp] lemma find_setProfile_self (key : Text) (snapshot : Snapshot) (profile : Profile) :
    (snapshot.setProfile key profile).profiles.find key = some profile :=
  OrdMap.find_insert_self _ _ _

section Resolve

variable {next resolved : Snapshot} {conflict : Conflict} {choice : ConflictChoice}

lemma resolution_of_resolveInProfile {profile : Profile}
    (hprofile : next.profiles.find conflict.profileId = some profile)
    (hroot : conflict.recordId ≠ u "@root-extra" ∧ conflict.recordId ≠ u "@root-transfer" ∧
      conflict.recordId ≠ u "@asset-extra" ∧ conflict.recordId ≠ u "@asset-transfer")
    (h : resolveInProfile next profile conflict choice = .ok resolved) :
    Resolution conflict choice next resolved := by
  unfold resolveInProfile at h
  dsimp only at h
  split_ifs at h with hextra htransfer hwhole hboth hmetadata
  · cases h
    exact .profileExtra hextra hprofile
  · cases h
    exact .profileTransfer htransfer hprofile
  · cases h
    exact .wholeBoth hwhole hboth hprofile
  · cases h
    exact .whole hwhole hboth hprofile
  · cases h
    exact .moduleExtra hmetadata hprofile
  · split at h
    · cases h
    · rename_i written hadvance
      cases h
      refine .record hwhole ?_ hprofile hadvance
      simp [metadataScopes, hroot, hextra, htransfer, hmetadata]

/-- **What a resolution does** is one of these. -/
theorem resolution_of_resolveConflict (h : resolveConflict next conflict choice = .ok resolved) :
    Resolution conflict choice next resolved := by
  unfold resolveConflict at h
  dsimp only at h
  by_cases hextra : conflict.recordId = u "@root-extra"
  · rw [if_pos hextra] at h
    cases h
    exact .rootExtra hextra
  by_cases htransfer : conflict.recordId = u "@root-transfer"
  · rw [if_neg hextra, if_pos htransfer] at h
    cases h
    exact .rootTransfer htransfer
  rw [if_neg hextra, if_neg htransfer] at h
  by_cases hasset : conflict.recordId = u "@asset-extra" ∨ conflict.recordId = u "@asset-transfer"
  · rw [if_pos hasset] at h
    split at h
    · exact absurd h (failure_ne_ok _ _ _)
    · rename_i asset hfind
      cases h
      split_ifs with hassetExtra
      · exact .assetExtra hassetExtra hfind
      · exact .assetTransfer (hasset.resolve_left hassetExtra) hfind
  · rw [if_neg hasset] at h
    split at h
    · exact absurd h (failure_ne_ok _ _ _)
    · rename_i profile hfind
      rw [not_or] at hasset
      exact resolution_of_resolveInProfile hfind ⟨hextra, htransfer, hasset.1, hasset.2⟩ h

/-- A resolution keeps the device. -/
lemma deviceId_resolveConflict (h : resolveConflict next conflict choice = .ok resolved) :
    resolved.deviceId = next.deviceId := by
  cases resolution_of_resolveConflict h <;> rfl

lemma deviceId_resolveConflicts {choices : OrdMap Text ConflictChoice} {conflicts : List Conflict}
    (h : resolveConflicts choices conflicts next = .ok resolved) :
    resolved.deviceId = next.deviceId := by
  induction conflicts generalizing next with
  | nil =>
    cases h
    rfl
  | cons conflict conflicts ih =>
    unfold resolveConflicts at h
    split at h
    · exact absurd h (failure_ne_ok _ _ _)
    · split at h
      · cases h
      · rename_i written hwritten
        have hdevice := deviceId_resolveConflict hwritten
        exact (ih h).trans hdevice

/-- A module of a profile after a module was written. -/
lemma find_setModule {id : Text} {profile : Profile} {module : JObject} (id' : Text)
    (written : JObject) (hmodule : profile.modules.find id = some module) :
    (id = id' ∧ (profile.setModule id' written).modules.find id = some written) ∨
      (profile.setModule id' written).modules.find id = some module := by
  by_cases hid : id = id'
  · subst hid
    exact Or.inl ⟨rfl, OrdMap.find_insert_self _ _ _⟩
  · refine Or.inr ?_
    rw [Profile.setModule, OrdMap.find_insert_of_ne hid, hmodule]

/-- A module after the profile of a conflict was written: what is shown of the modules of this profile
holds of all. -/
lemma module_of_setProfile {key pid id : Text} {profile old written : Profile} {module : JObject}
    {R : JObject → Prop} (hold : next.profiles.find pid = some old)
    (hprofile : next.profiles.find key = some profile)
    (hmodule : profile.modules.find id = some module) (haccount : written.account = old.account)
    (hsame : R module) (hwritten : key = pid → old.modules.find id = some module →
      ∃ module', written.modules.find id = some module' ∧ R module') :
    ∃ profile' module', (next.setProfile pid written).profiles.find key = some profile' ∧
      profile'.modules.find id = some module' ∧ profile'.account = profile.account ∧ R module' := by
  by_cases hkey : key = pid
  · subst hkey
    obtain rfl : profile = old := Option.some.inj (hprofile.symm.trans hold)
    obtain ⟨module', hmodule', hR⟩ := hwritten rfl hmodule
    exact ⟨written, module', find_setProfile_self _ _ _, hmodule', haccount, hR⟩
  · exact ⟨profile, module, (find_setProfile_of_ne hkey _ _).trans hprofile, hmodule, rfl, hsame⟩

/-- **What a resolution does to each module.** -/
theorem resolveConflict_module (h : resolveConflict next conflict choice = .ok resolved)
    {key id : Text} {profile : Profile} {module : JObject}
    (hprofile : next.profiles.find key = some profile)
    (hmodule : profile.modules.find id = some module) :
    ∃ profile' module', resolved.profiles.find key = some profile' ∧
      profile'.modules.find id = some module' ∧ profile'.account = profile.account ∧
      ModuleResolved conflict choice next.deviceId key id module module' := by
  cases resolution_of_resolveConflict h with
  | rootExtra | rootTransfer | assetExtra | assetTransfer =>
    exact ⟨profile, module, hprofile, hmodule, rfl, .same⟩
  | profileExtra _ hold | profileTransfer _ hold =>
    exact module_of_setProfile hold hprofile hmodule rfl .same fun _ hmodule =>
      ⟨module, hmodule, .same⟩
  | whole hwhole _ hold | wholeBoth hwhole _ hold =>
    refine module_of_setProfile hold hprofile hmodule rfl .same fun hkey hmodule => ?_
    rcases find_setModule conflict.moduleId (selectedSide conflict choice) hmodule with
      ⟨hid, hfind⟩ | hfind
    · exact ⟨_, hfind, .whole hkey hid hwhole⟩
    · exact ⟨module, hfind, .same⟩
  | @moduleExtra old hmetadata hold =>
    refine module_of_setProfile hold hprofile hmodule rfl .same fun hkey hmodule => ?_
    rcases find_setModule conflict.moduleId (setRecords (resolveMetadata conflict.local
      conflict.incoming choice) (records ((old.modules.find conflict.moduleId).getD ∅))) hmodule with
      ⟨hid, hfind⟩ | hfind
    · refine ⟨_, hfind, ?_⟩
      rw [← hid, hmodule, Option.getD_some]
      exact .metadata hkey hid hmetadata
    · exact ⟨module, hfind, .same⟩
  | @record old written hwhole hscope hold hadvance =>
    refine module_of_setProfile hold hprofile hmodule rfl .same fun hkey hmodule => ?_
    rcases find_setModule conflict.moduleId (setRecords ((old.modules.find conflict.moduleId).getD ∅)
      ((records ((old.modules.find conflict.moduleId).getD ∅)).insert conflict.recordId written))
      hmodule with ⟨hid, hfind⟩ | hfind
    · refine ⟨_, hfind, ?_⟩
      rw [← hid, hmodule, Option.getD_some]
      exact .record hkey hid hwhole hscope hadvance
    · exact ⟨module, hfind, .same⟩

/-- **What the resolution of several conflicts does to a module**: a property that the resolution of
each of them keeps holds of it in the end. -/
theorem resolveConflicts_module {R : JObject → Prop} {device key id : Text}
    {choices : OrdMap Text ConflictChoice} {conflicts : List Conflict}
    (hstep : ∀ conflict ∈ conflicts, ∀ choice module module',
      choices.find conflict.id = some choice → R module →
      ModuleResolved conflict choice device key id module module' → R module')
    (hdevice : next.deviceId = device) (h : resolveConflicts choices conflicts next = .ok resolved)
    {profile : Profile} {module : JObject} (hprofile : next.profiles.find key = some profile)
    (hmodule : profile.modules.find id = some module) (hR : R module) :
    ∃ profile' module', resolved.profiles.find key = some profile' ∧
      profile'.modules.find id = some module' ∧ profile'.account = profile.account ∧ R module' ∧
      resolved.deviceId = device := by
  induction conflicts generalizing next profile module with
  | nil =>
    cases h
    exact ⟨profile, module, hprofile, hmodule, rfl, hR, hdevice⟩
  | cons conflict conflicts ih =>
    obtain ⟨hfirst, hrest⟩ := List.forall_mem_cons.mp hstep
    unfold resolveConflicts at h
    split at h
    · exact absurd h (failure_ne_ok _ _ _)
    · rename_i choice hchoice
      split at h
      · cases h
      · rename_i middle hmiddle
        obtain ⟨profile', module', hprofile', hmodule', haccount, hresolved⟩ :=
          resolveConflict_module hmiddle hprofile hmodule
        have hdevice' : (middle.keep resolutionsField (.str conflict.id)).deviceId = device :=
          (deviceId_resolveConflict hmiddle).trans hdevice
        rw [hdevice] at hresolved
        obtain ⟨profile'', module'', hp, hm, ha, hend⟩ := ih hrest hdevice' h hprofile' hmodule'
          (hfirst choice module module' hchoice hR hresolved)
        exact ⟨profile'', module'', hp, hm, ha.trans haccount, hend⟩

end Resolve

/-! ### The pass over all profiles -/

/-- **What the pass does to each module.** -/
theorem normalizeSnapshot_module {next normalized : Snapshot}
    (h : normalizeSnapshot next = .ok normalized) {key id : Text} {profile : Profile}
    {module : JObject} (hprofile : next.profiles.find key = some profile)
    (hmodule : profile.modules.find id = some module) :
    ∃ profile' module', normalized.profiles.find key = some profile' ∧
      profile'.modules.find id = some module' ∧ profile'.account = profile.account ∧
      normalizeBindings module next.deviceId = .ok module' := by
  unfold normalizeSnapshot at h
  split at h
  · cases h
  · rename_i profiles hprofiles
    cases h
    rcases OrdMap.find_tryMap hprofiles key with ⟨hnone, -⟩ | ⟨old, new, hold, hnew, hfind⟩
    · exact absurd (hprofile.symm.trans hnone) (by simp)
    · obtain rfl : profile = old := Option.some.inj (hprofile.symm.trans hold)
      unfold normalizeProfile at hnew
      split at hnew
      · cases hnew
      · rename_i modules hmodules
        cases hnew
        rcases OrdMap.find_tryMap hmodules id with ⟨hnone, -⟩ | ⟨before, after, hbefore, hafter, hfindM⟩
        · exact absurd (hmodule.symm.trans hnone) (by simp)
        · obtain rfl : module = before := Option.some.inj (hmodule.symm.trans hbefore)
          exact ⟨_, after, hfind, hfindM, rfl, hafter⟩

/-- An import that is applied resolves the conflicts of its plan, passes over the bindings and is
committed. -/
lemma applyImport_ok {host : Host} {env : Env} {state next : Snapshot} {plan : MergePlan}
    {choices : OrdMap Text ConflictChoice} (h : applyImport host env state plan choices = .ok next) :
    ∃ resolved normalized, resolveConflicts choices plan.conflicts plan.merged = .ok resolved ∧
      normalizeSnapshot resolved = .ok normalized ∧ commit host env state normalized = .ok next := by
  obtain ⟨resolved, hresolved, h⟩ := bind_ok.mp h
  obtain ⟨normalized, hnormalized, h⟩ := bind_ok.mp h
  obtain ⟨⟨⟩, -, hresolved⟩ := bind_ok.mp hresolved
  obtain ⟨-, hresolved⟩ := (check_ok (failure_ne_ok _ _)).mp hresolved
  exact ⟨resolved, normalized, hresolved, hnormalized, h⟩

end LocalData
