import Telegravim.LocalData.Conflicts

set_option autoImplicit false

/-!
# Local data: keeping both sides

A conflict that is resolved by keeping both sides leaves its local side current, and each value of its
incoming side that disagrees is listed among the archived versions. There is one exception by design:
a kept binding goes when its tag is deleted or another binding assigns the same, and its local version
is then listed as well.

## Main definitions

* `LocalData.KeptBoth` — what is kept of the two sides of a conflict.

## Main results

* `LocalData.resolveConflicts_established` — what the resolution of one conflict establishes.
* `LocalData.keepBoth_keeps` — keeping both sides keeps both.
* `LocalData.kept_binding_goes` — a kept binding that goes.
-/

namespace LocalData

open Text

/-! ### Metadata of other places -/

section Resolution

variable {next resolved : Snapshot} {conflict : Conflict} {choice : ConflictChoice} {slot : Slot}

/-- **A resolution writes the metadata of its place.** -/
theorem Resolution.slot_self (h : Resolution conflict choice next resolved)
    (hslot : slotOf conflict = some slot) :
    ∃ after, slot.get resolved = some after ∧
      SameMetadata slot (resolveMetadata conflict.local conflict.incoming choice) after := by
  unfold slotOf at hslot
  cases h with
  | rootExtra hscope =>
    rw [hscope] at hslot
    cases hslot
    exact ⟨_, rfl, .refl _ _⟩
  | rootTransfer hscope =>
    rw [hscope] at hslot
    cases hslot
    exact ⟨_, rfl, .refl _ _⟩
  | assetExtra hscope =>
    rw [hscope] at hslot
    cases hslot
    refine ⟨_, ?_, .refl _ _⟩
    simp only [Slot.get, OrdMap.find_insert_self, Option.map_some]
  | assetTransfer hscope =>
    rw [hscope] at hslot
    cases hslot
    refine ⟨_, ?_, .refl _ _⟩
    simp only [Slot.get, OrdMap.find_insert_self, Option.map_some]
  | profileExtra hscope =>
    rw [hscope] at hslot
    cases hslot
    refine ⟨_, ?_, .refl _ _⟩
    simp only [Slot.get, find_setProfile_self, Option.map_some]
  | profileTransfer hscope =>
    rw [hscope] at hslot
    cases hslot
    refine ⟨_, ?_, .refl _ _⟩
    simp only [Slot.get, find_setProfile_self, Option.map_some]
  | whole hscope =>
    rw [hscope] at hslot
    cases hslot
  | wholeBoth hscope =>
    rw [hscope] at hslot
    cases hslot
  | @moduleExtra profile hscope =>
    rw [hscope] at hslot
    cases hslot
    refine ⟨_, ?_, sameMetadata_setRecords _ _ _
      (records ((profile.modules.find conflict.moduleId).getD ∅))⟩
    simp only [Slot.get, find_setProfile_self, Option.bind_some, Profile.setModule,
      OrdMap.find_insert_self]
  | record hne hscope =>
    have hnone := slotOf_eq_none hscope
    unfold slotOf at hnone
    rw [hnone] at hslot
    cases hslot

/-- **A resolution leaves the metadata of the other places alone**, but for a module that it writes as
a whole. -/
theorem Resolution.slot_other (h : Resolution conflict choice next resolved)
    (hslot : slotOf conflict ≠ some slot)
    (hwhole : conflict.recordId = [] → slot ≠ .moduleExtra conflict.profileId conflict.moduleId)
    {metadata : JObject} (hget : slot.get next = some metadata) :
    ∃ after, slot.get resolved = some after ∧ SameMetadata slot metadata after := by
  have hsame : ∀ {written : Snapshot}, slot.get written = slot.get next →
      ∃ after, slot.get written = some after ∧ SameMetadata slot metadata after :=
    fun heq => ⟨metadata, heq.trans hget, .refl _ _⟩
  have hne : ∀ other : Slot, slotOf conflict = some other → slot ≠ other := by
    rintro other hother rfl
    exact hslot hother
  unfold slotOf at hne
  -- a module that is written is another one than that of the place
  have hmodule : ∀ {old : Profile} (written : JObject),
      next.profiles.find conflict.profileId = some old →
      slot ≠ .moduleExtra conflict.profileId conflict.moduleId →
      slot.get (next.setProfile conflict.profileId (old.setModule conflict.moduleId written)) =
        slot.get next := by
    intro old written hold hother
    refine Slot.get_setProfile hold (fun _ => rfl) (fun _ => rfl) fun id hid => ?_
    refine OrdMap.find_insert_of_ne ?_ _ _
    rintro rfl
    exact hother hid
  cases h with
  | rootExtra hscope => exact hsame (Slot.get_extra (hne _ (by rw [hscope]; rfl)) _)
  | rootTransfer hscope => exact hsame (Slot.get_transfer (hne _ (by rw [hscope]; rfl)) _)
  | assetExtra hscope hold =>
    exact hsame (Slot.get_insertAsset hold
      (fun heq => absurd heq (hne _ (by rw [hscope]; rfl))) fun _ => rfl)
  | assetTransfer hscope hold =>
    exact hsame (Slot.get_insertAsset hold (fun _ => rfl)
      fun heq => absurd heq (hne _ (by rw [hscope]; rfl)))
  | profileExtra hscope hold =>
    exact hsame (Slot.get_setProfile hold
      (fun heq => absurd heq (hne _ (by rw [hscope]; rfl))) (fun _ => rfl) fun _ _ => rfl)
  | profileTransfer hscope hold =>
    exact hsame (Slot.get_setProfile hold (fun _ => rfl)
      (fun heq => absurd heq (hne _ (by rw [hscope]; rfl))) fun _ _ => rfl)
  | whole hscope _ hold => exact hsame (hmodule _ hold (hwhole hscope))
  | wholeBoth hscope _ hold =>
    exact Slot.get_keep (by simp [Slot.reserved]) _ ((hmodule _ hold (hwhole hscope)).trans hget)
  | moduleExtra hscope hold => exact hsame (hmodule _ hold (hne _ (by rw [hscope]; rfl)))
  | @record old written hne' hscope hold =>
    by_cases hplace : slot = .moduleExtra conflict.profileId conflict.moduleId
    · subst hplace
      simp only [Slot.get, hold, Option.bind_some] at hget
      refine ⟨_, ?_, sameMetadata_setRecords _ _ metadata
        ((records metadata).insert conflict.recordId written)⟩
      simp only [Slot.get, find_setProfile_self, Option.bind_some, Profile.setModule,
        OrdMap.find_insert_self, hget, Option.getD_some]
    · exact hsame (hmodule _ hold hplace)

end Resolution

/-! ### Runs over the conflicts of a plan -/

/-- The conflicts of a list one after the other. -/
lemma resolveConflicts_append {choices : OrdMap Text ConflictChoice} {first last : List Conflict}
    {next resolved : Snapshot} (h : resolveConflicts choices (first ++ last) next = .ok resolved) :
    ∃ middle, resolveConflicts choices first next = .ok middle ∧
      resolveConflicts choices last middle = .ok resolved := by
  induction first generalizing next with
  | nil => exact ⟨next, rfl, h⟩
  | cons conflict first ih =>
    rw [List.cons_append] at h
    unfold resolveConflicts at h
    split at h
    · exact absurd h (failure_ne_ok _ _ _)
    · rename_i choice hchoice
      split at h
      · cases h
      · rename_i written hwritten
        obtain ⟨middle, hfirst, hlast⟩ := ih h
        refine ⟨middle, ?_, hlast⟩
        rw [resolveConflicts, hchoice]
        dsimp only
        rw [hwritten]
        exact hfirst

/-- **What the resolution of one conflict of a list establishes**, when the others keep it.

**Proof sketch.** Induction on the list. Before the conflict is reached, only the invariant is known;
once it was resolved, what it has established is kept by the conflicts after it. -/
theorem resolveConflicts_established {P I : Snapshot → Prop} {choices : OrdMap Text ConflictChoice}
    {conflicts : List Conflict} {c : Conflict} {choice : ConflictChoice} {next resolved : Snapshot}
    (hchoice : choices.find c.id = some choice)
    (hinvariant : ∀ c' ∈ conflicts, ∀ choice next resolved, I next →
      resolveConflict next c' choice = .ok resolved → I (resolved.keep resolutionsField (.str c'.id)))
    (hestablished : ∀ next resolved, I next → resolveConflict next c choice = .ok resolved →
      P (resolved.keep resolutionsField (.str c.id)))
    (hkept : ∀ c' ∈ conflicts, c' ≠ c → ∀ choice next resolved, I next → P next →
      resolveConflict next c' choice = .ok resolved → P (resolved.keep resolutionsField (.str c'.id)))
    (hI : I next) (hc : P next ∨ c ∈ conflicts)
    (h : resolveConflicts choices conflicts next = .ok resolved) : P resolved ∧ I resolved := by
  induction conflicts generalizing next with
  | nil =>
    cases h
    exact ⟨hc.resolve_right List.not_mem_nil, hI⟩
  | cons conflict conflicts ih =>
    obtain ⟨hfirst, hrest⟩ := List.forall_mem_cons.mp hinvariant
    obtain ⟨hkeptFirst, hkeptRest⟩ := List.forall_mem_cons.mp hkept
    unfold resolveConflicts at h
    split at h
    · exact absurd h (failure_ne_ok _ _ _)
    · rename_i chosen hchosen
      split at h
      · cases h
      · rename_i middle hmiddle
        refine ih hrest hkeptRest (hfirst chosen next middle hI hmiddle) ?_ h
        by_cases heq : conflict = c
        · subst heq
          obtain rfl : choice = chosen := Option.some.inj (hchoice.symm.trans hchosen)
          exact Or.inl (hestablished next middle hI hmiddle)
        · rcases hc with hP | hmem
          · exact Or.inl (hkeptFirst heq chosen next middle hI hP hmiddle)
          · exact Or.inr ((List.mem_cons.mp hmem).resolve_left (Ne.symm heq))

/-! ### Metadata -/

/-- Metadata that keeps both sides of a conflict: the local values are current, and each other value of
a named field is listed. Bookkeeping fields belong to neither side. -/
structure MetadataKept (host : Host) (slot : Slot) (c : Conflict) (next : Snapshot) : Prop where
  current : ∃ metadata, slot.get next = some metadata ∧ ∀ field value,
    bookkeepingField field = false → c.local.find field = some value →
    metadata.find field = some value
  listed : ∀ field value other, field ≠ [] → bookkeepingField field = false →
    c.local.find field = some value → c.incoming.find field = some other → value ≠ other →
    Listed host next (slot.entry host field (some value) other)

section Run

variable {host : Host} {env : Env} {state incoming next : Snapshot} {plan : MergePlan}
  {choices : OrdMap Text ConflictChoice} {c : Conflict}

/-- The metadata of a place after an import: what its conflict was resolved to, but for reserved
fields. -/
lemma Imported.slot_resolved (h : Imported host state incoming plan) (hstate : Valid host state)
    (hincoming : Valid host incoming) {slot : Slot} {choice : ConflictChoice} {resolved : Snapshot}
    (hc : c ∈ plan.conflicts) (hslot : slotOf c = some slot)
    (hchoice : choices.find c.id = some choice)
    (hresolved : resolveConflicts choices plan.conflicts plan.merged = .ok resolved) :
    ∃ metadata, slot.get resolved = some metadata ∧
      SameMetadata slot (resolveMetadata c.local c.incoming choice) metadata := by
  have hne : c.recordId ≠ [] := fun heq =>
    nil_not_mem_metadataScopes (heq ▸ mem_metadataScopes_of_slotOf hslot)
  have hreserved : resolutionsField ∈ Slot.rootExtra.reserved := List.mem_cons_self
  have hkeep : ∀ {snapshot : Snapshot} {metadata : JObject} (value : Json),
      slot.get snapshot = some metadata →
      SameMetadata slot (resolveMetadata c.local c.incoming choice) metadata →
      ∃ metadata, slot.get (snapshot.keep resolutionsField value) = some metadata ∧
        SameMetadata slot (resolveMetadata c.local c.incoming choice) metadata := by
    intro snapshot metadata value hget hsame
    obtain ⟨after, hafter, hsame'⟩ := Slot.get_keep hreserved value hget
    exact ⟨after, hafter, hsame.trans hsame'⟩
  refine (resolveConflicts_established (I := fun _ => True) (P := fun snapshot => ∃ metadata,
    slot.get snapshot = some metadata ∧
      SameMetadata slot (resolveMetadata c.local c.incoming choice) metadata)
    hchoice (fun _ _ _ _ _ _ _ => trivial) ?_ ?_ trivial (Or.inr hc) hresolved).1
  · intro before after _ hwritten
    obtain ⟨metadata, hget, hsame⟩ := (resolution_of_resolveConflict hwritten).slot_self hslot
    exact hkeep _ hget hsame
  · rintro c' hc' hother choice' before after - ⟨metadata, hget, hsame⟩ hwritten
    have hslot' : slotOf c' ≠ some slot := fun heq =>
      hother (h.eq_of_slot hstate hincoming hc' hc heq hslot)
    have hwhole : c'.recordId = [] → slot ≠ .moduleExtra c'.profileId c'.moduleId := by
      rintro hwhole rfl
      obtain ⟨hprofile, hmodule⟩ := h.place hstate hincoming hc hslot
      exact h.not_whole hstate hc hc' (fun _ => recordId_of_slotOf hslot) hne hwhole hprofile hmodule
    obtain ⟨metadata', hget', hsame'⟩ :=
      (resolution_of_resolveConflict hwritten).slot_other hslot' hwhole hget
    exact hkeep _ hget' (hsame.trans hsame')

/-- **Keeping both sides of metadata keeps both.** -/
theorem Imported.metadata_kept (h : Imported host state incoming plan) (hstate : Valid host state)
    (hincoming : Valid host incoming) {slot : Slot} (hc : c ∈ plan.conflicts)
    (hslot : slotOf c = some slot) (hchoice : choices.find c.id = some .keepBoth)
    (happly : applyImport host env state plan choices = .ok next) : MetadataKept host slot c next := by
  obtain ⟨resolved, normalized, hresolved, hnormalized, hcommit⟩ := applyImport_ok happly
  obtain ⟨rfl, hvalid⟩ := eq_of_commit hcommit
  obtain ⟨metadata, hget, hsame⟩ := h.slot_resolved hstate hincoming hc hslot hchoice hresolved
  obtain ⟨after, hgetAfter, hpass⟩ := Slot.get_normalizeSnapshot hnormalized hget
  have hfinal := hsame.trans (sameMetadata_of_pass hpass)
  rw [resolveMetadata_keepBoth] at hfinal
  have hmodule : ∀ key id, slot = .moduleExtra key id →
      SupportedMetadata host id c.local ∧ c.local.find (u "records") = none := by
    rintro key id rfl
    have hid : c.moduleId = id := (h.place hstate hincoming hc hslot).2
    obtain ⟨hlocal, -, hrecords⟩ :=
      h.supported_of_moduleExtra hstate hincoming hc (recordId_of_slotOf hslot)
    rw [hid] at hlocal
    exact ⟨hlocal, hrecords⟩
  have hfree : ∀ field value, bookkeepingField field = false → c.local.find field = some value →
      field ∉ slot.reserved := by
    intro field value hfield hvalue hmem
    cases slot with
    | rootExtra =>
      have hbook : ∀ field ∈ Slot.rootExtra.reserved, bookkeepingField field = true := by decide
      rw [hbook field hmem] at hfield
      cases hfield
    | moduleExtra key id =>
      rw [List.mem_singleton.mp hmem, (hmodule key id rfl).2] at hvalue
      cases hvalue
    | _ => cases hmem
  have hcurrent : ∀ field value, bookkeepingField field = false → c.local.find field = some value →
      after.find field = some value := by
    intro field value hfield hvalue
    rw [hfinal field (hfree field value hfield hvalue)]
    exact find_mergeExtra_of_some hfield hvalue _
  have hgetNext := (Slot.get_commit slot normalized state.deviceId env.generation).trans hgetAfter
  refine ⟨⟨after, hgetNext, hcurrent⟩, ?_⟩
  intro field value other hname hfield hvalue hother hne
  rw [← hcurrent field value hfield hvalue]
  refine Slot.listed hvalid.tidy hgetNext ?_ hname ?_
  · intro key id hplace
    have hversion : u "schema_version" ∉ slot.reserved := by
      rw [hplace]
      change u "schema_version" ∉ [u "records"]
      decide
    have hsupported := ((hmodule key id hplace).1.mergeExtra c.incoming).2
    unfold schemaVersion at hsupported ⊢
    rw [hfinal _ hversion]
    exact hsupported
  · have hvariants : metadataVariantsField ∉ slot.reserved := by
      cases slot with
      | rootExtra =>
        change metadataVariantsField ∉ [resolutionsField, opaqueVariantsField]
        decide
      | moduleExtra key id =>
        change metadataVariantsField ∉ [u "records"]
        decide
      | _ => exact List.not_mem_nil
    unfold arrayField
    rw [hfinal _ hvariants]
    exact mem_variants_mergeExtra hfield hvalue hother hne

/-! ### Opaque modules -/

/-- An opaque module that keeps both sides of a conflict: the local module is current after the pass
over its bindings, and the incoming one is listed. -/
def ModuleKept (host : Host) (c : Conflict) (next : Snapshot) : Prop :=
  ∃ profile module, next.profiles.find c.profileId = some profile ∧
    profile.modules.find c.moduleId = some module ∧
    normalizeBindings c.local next.deviceId = .ok module ∧ moduleId c.incoming = c.moduleId ∧
    Listed host next (opaqueEntry host c.profileId (some module) c.incoming)

/-- A resolution drops no opaque variant, unless it is of the metadata of the snapshot. -/
lemma Resolution.mem_variants {conflict : Conflict} {choice : ConflictChoice}
    {before after : Snapshot} (h : Resolution conflict choice before after)
    (hroot : conflict.recordId ≠ u "@root-extra") {value : Json}
    (hvalue : value ∈ arrayField before.extra opaqueVariantsField) :
    value ∈ arrayField after.extra opaqueVariantsField := by
  cases h with
  | rootExtra hscope => exact absurd hscope hroot
  | wholeBoth =>
    change value ∈ Json.asArray ((OrdMap.insert _ _ _).find opaqueVariantsField)
    rw [OrdMap.find_insert_self, Json.asArray_arr]
    exact mem_unite.mpr (Or.inl hvalue)
  | _ => exact hvalue

/-- A snapshot that has the local module of a conflict as it was and the incoming one as a variant. -/
def HasVariant (c : Conflict) (snapshot : Snapshot) : Prop :=
  ∃ profile, snapshot.profiles.find c.profileId = some profile ∧
    profile.modules.find c.moduleId = some c.local ∧
    opaqueVariant c.id profile.account c.incoming ∈ arrayField snapshot.extra opaqueVariantsField

lemma HasVariant.keep {snapshot : Snapshot} (h : HasVariant c snapshot) (receipt : Json) :
    HasVariant c (snapshot.keep resolutionsField receipt) := by
  have hne : opaqueVariantsField ≠ resolutionsField := by decide
  obtain ⟨profile, hprofile, hmodule, hvariant⟩ := h
  refine ⟨profile, hprofile, hmodule, ?_⟩
  change _ ∈ Json.asArray ((OrdMap.insert _ _ _).find opaqueVariantsField)
  rw [OrdMap.find_insert_of_ne hne]
  exact hvariant

/-- Keeping both sides of a module as a whole. -/
lemma Resolution.hasVariant {before after : Snapshot} (h : Resolution c .keepBoth before after)
    (hwhole : c.recordId = []) : HasVariant c after := by
  have hnot : ∀ {scope : Text}, scope ≠ [] → c.recordId ≠ scope := by
    rintro scope hne rfl
    exact hne hwhole
  cases h with
  | rootExtra hscope | rootTransfer hscope | assetExtra hscope | assetTransfer hscope
  | profileExtra hscope | profileTransfer hscope | moduleExtra hscope =>
    exact absurd hscope (hnot (by decide))
  | whole _ hne => exact absurd rfl hne
  | record hne => exact absurd hwhole hne
  | @wholeBoth profile =>
    refine ⟨_, find_setProfile_self _ _ _, OrdMap.find_insert_self _ _ _, ?_⟩
    change _ ∈ Json.asArray ((OrdMap.insert _ _ _).find opaqueVariantsField)
    rw [OrdMap.find_insert_self, Json.asArray_arr]
    exact mem_unite.mpr (Or.inr (List.mem_singleton_self _))

/-- The conflicts below the root are resolved last. -/
lemma Imported.rest (h : Imported host state incoming plan) (hstate : Valid host state)
    {resolved : Snapshot} (hresolved : resolveConflicts choices plan.conflicts plan.merged = .ok resolved) :
    ∃ rest middle, (∀ c ∈ rest, c ∈ plan.conflicts ∧ c.recordId ≠ u "@root-extra") ∧
      (∀ c ∈ plan.conflicts, c.recordId ≠ u "@root-extra" → c ∈ rest) ∧
      resolveConflicts choices rest middle = .ok resolved := by
  obtain ⟨root, rest, hconflicts, hroot, hrest⟩ := h.conflicts
  rw [hconflicts] at hresolved
  obtain ⟨middle, -, hresolved⟩ := resolveConflicts_append hresolved
  refine ⟨rest, middle, ?_, ?_, hresolved⟩
  · intro c hc
    exact ⟨hconflicts ▸ List.mem_append_right _ hc, ((hrest c).mp hc).1.recordId_ne hstate⟩
  · intro c hc hne
    rw [hconflicts, List.mem_append] at hc
    refine hc.resolve_left fun hmem => hne ?_
    obtain ⟨⟨-, heq⟩, -⟩ := (hroot c).mp hmem
    exact congrArg Conflict.recordId heq

/-- **Keeping both sides of an opaque module keeps both.**

**Proof sketch.** A conflict about the metadata of the snapshot would drop the variant, but it comes
first. The other conflicts are not about this module: one about it as a whole is the same conflict, and
the others are about modules that are supported on both sides. -/
theorem Imported.module_kept (h : Imported host state incoming plan) (hstate : Valid host state)
    (hincoming : Valid host incoming) (hc : c ∈ plan.conflicts) (hwhole : c.recordId = [])
    (hchoice : choices.find c.id = some .keepBoth)
    (happly : applyImport host env state plan choices = .ok next) : ModuleKept host c next := by
  obtain ⟨resolved, normalized, hresolved, hnormalized, hcommit⟩ := applyImport_ok happly
  obtain ⟨rfl, hvalid⟩ := eq_of_commit hcommit
  have hdevice : resolved.deviceId = state.deviceId :=
    (deviceId_resolveConflicts hresolved).trans h.device
  obtain ⟨rest, middle, hrest, hmem, hresolved⟩ := h.rest hstate hresolved
  have hroot : c.recordId ≠ u "@root-extra" := by
    rw [hwhole]
    decide
  obtain ⟨⟨profile, hprofile, hmodule, hvariant⟩, -⟩ :=
    resolveConflicts_established (I := fun _ => True) (P := HasVariant c) hchoice
      (fun _ _ _ _ _ _ _ => trivial)
      (fun _ _ _ hwritten => ((resolution_of_resolveConflict hwritten).hasVariant hwhole).keep _)
      (by
        rintro c' hc' hother choice before after - ⟨profile, hprofile, hmodule, hvariant⟩ hwritten
        obtain ⟨hc', hroot'⟩ := hrest c' hc'
        obtain ⟨profile', module', hprofile', hmodule', haccount, hchanged⟩ :=
          resolveConflict_module hwritten hprofile hmodule
        have hvariant' := (resolution_of_resolveConflict hwritten).mem_variants hroot' hvariant
        rw [← haccount] at hvariant'
        have hsame : module' = c.local := by
          cases hchanged with
          | same => rfl
          | whole hkey hid hwhole' =>
            exact absurd ((h.sides hstate hincoming hc').eq (h.sides hstate hincoming hc) hkey.symm
              hid.symm (hwhole'.trans hwhole.symm)) hother
          | metadata hkey hid hscope =>
            have hne : c'.recordId ≠ [] := by
              rw [hscope]
              decide
            exact absurd hid.symm (h.not_whole hstate hc' hc (fun _ => hscope) hne hwhole hkey.symm)
          | record hkey hid hne hscope =>
            exact absurd hid.symm (h.not_whole hstate hc' hc (fun hmem => absurd hmem hscope) hne
              hwhole hkey.symm)
        subst hsame
        exact HasVariant.keep ⟨profile', hprofile', hmodule', hvariant'⟩ _)
      trivial (Or.inr (hmem c hc hroot)) hresolved
  obtain ⟨profile', module', hprofile', hmodule', haccount, hpass⟩ :=
    normalizeSnapshot_module hnormalized hprofile hmodule
  obtain ⟨hextra, -⟩ := normalizeSnapshot_rest hnormalized
  have hid : moduleId c.incoming = c.moduleId := by
    obtain ⟨old, source, -, other, hold, hsource, -, hother, -⟩ :=
      h.module_of_conflict hstate hc fun hmem =>
        absurd (hwhole ▸ hmem) nil_not_mem_metadataScopes
    obtain ⟨key, hkey, -⟩ := find_of_profileOf hsource
    have hside := congrArg Conflict.incoming (h.sides hstate hincoming hc)
    rw [hold, Option.bind_some, hsource, hwhole] at hside
    have heq : c.incoming = other := hside.trans (side_whole incoming hother)
    rw [heq]
    exact (hincoming.module key source _ other hkey hother).key_eq.symm
  rw [hdevice] at hpass
  refine ⟨profile', module', hprofile', hmodule', hpass, hid, ?_⟩
  have hvariant' : opaqueVariant c.id profile'.account c.incoming ∈
      arrayField normalized.extra opaqueVariantsField := by
    rw [hextra, haccount]
    exact hvariant
  have hlisted : Listed host
      { normalized with deviceId := state.deviceId, generation := env.generation }
      (opaqueEntry host c.profileId (profile'.modules.find (moduleId c.incoming)) c.incoming) :=
    listed_module hvalid.tidy hprofile' hvariant'
  rw [hid, hmodule'] at hlisted
  exact hlisted

/-! ### Records -/

/-- A record that keeps both sides of a conflict: what is given to the pass over the bindings has the
local fields; the pass leaves it alone, or it is a binding that goes and is listed itself; the incoming
version is listed with the archived versions it carried. -/
def RecordKept (host : Host) (c : Conflict) (next : Snapshot) : Prop :=
  ∃ profile before module kept record, next.profiles.find c.profileId = some profile ∧
    profile.modules.find c.moduleId = some module ∧
    normalizeBindings before next.deviceId = .ok module ∧
    (records before).find c.recordId = some kept ∧ CurrentRecord c.local kept ∧
    (records module).find c.recordId = some record ∧
    (record = kept ∨ Buried (records before) c.recordId ∧ Tombstoned kept record ∧
      Listed host next (recordEntry host c.profileId c.moduleId record
        (Json.ofObject (kept.erase conflictVersionsField)))) ∧
    ∀ variant ∈ Json.ofObject (c.incoming.erase conflictVersionsField) ::
      arrayField c.incoming conflictVersionsField,
      Listed host next (recordEntry host c.profileId c.moduleId record variant)

/-- A snapshot with a module in a supported version, and a property of this module. -/
def HasModule (host : Host) (device key id : Text) (R : JObject → Prop) (snapshot : Snapshot) : Prop :=
  snapshot.deviceId = device ∧ ∃ profile module, snapshot.profiles.find key = some profile ∧
    profile.modules.find id = some module ∧
    host.supportedModule id (schemaVersion module) = true ∧ R module

/-- What a resolution keeps of a module, when no conflict is about it as a whole. -/
lemma HasModule.resolved {device key id : Text} {R : JObject → Prop} {before after : Snapshot}
    {choice : ConflictChoice} (h : HasModule host device key id R before)
    (hwritten : resolveConflict before c choice = .ok after)
    (hwhole : key = c.profileId → id = c.moduleId → c.recordId ≠ [])
    (hmetadata : key = c.profileId → id = c.moduleId → c.recordId = u "@module-extra" →
      SupportedMetadata host id (resolveMetadata c.local c.incoming choice))
    (hR : ∀ module module', R module → ModuleResolved c choice device key id module module' →
      R module') :
    HasModule host device key id R (after.keep resolutionsField (.str c.id)) := by
  obtain ⟨rfl, profile, module, hprofile, hmodule, hsupported, hmoduleR⟩ := h
  obtain ⟨profile', module', hprofile', hmodule', -, hchanged⟩ :=
    resolveConflict_module hwritten hprofile hmodule
  have hdevice := deviceId_resolveConflict hwritten
  refine ⟨hdevice, profile', module', hprofile', hmodule', ?_, hR module module' hmoduleR hchanged⟩
  cases hchanged with
  | same => exact hsupported
  | whole hkey hid hscope => exact absurd hscope (hwhole hkey hid)
  | metadata hkey hid hscope =>
    rw [schemaVersion_setRecords]
    exact (hmetadata hkey hid hscope).2
  | record =>
    rw [schemaVersion_setRecords]
    exact hsupported

/-- The resolution of a conflict about a record writes this record. -/
lemma Resolution.record_self {choice : ConflictChoice} {before after : Snapshot}
    (h : Resolution c choice before after) (hne : c.recordId ≠ []) (hscope : c.recordId ∉ metadataScopes) :
    ∃ profile resolved, before.profiles.find c.profileId = some profile ∧
      advance (resolvedRecord c choice) before.deviceId = .ok resolved ∧
      after = before.setProfile c.profileId (profile.setModule c.moduleId (setRecords
        ((profile.modules.find c.moduleId).getD ∅)
        ((records ((profile.modules.find c.moduleId).getD ∅)).insert c.recordId resolved))) := by
  have hnot : ∀ scope : Text, scope ∈ metadataScopes → c.recordId ≠ scope := by
    rintro scope hmem rfl
    exact hscope hmem
  cases h with
  | rootExtra heq | rootTransfer heq | assetExtra heq | assetTransfer heq | profileExtra heq
  | profileTransfer heq | moduleExtra heq => exact absurd heq (hnot _ (by decide))
  | whole hwhole | wholeBoth hwhole => exact absurd hwhole hne
  | record _ _ hold hadvance => exact ⟨_, _, hold, hadvance, rfl⟩

/-- The record that keeps both sides, field by field. -/
lemma currentRecord_resolvedRecord {device : Text} {resolved : JObject}
    (h : advance (resolvedRecord c .keepBoth) device = .ok resolved) : CurrentRecord c.local resolved := by
  intro field hvector hversions
  rw [find_advance h hvector]
  unfold resolvedRecord
  rw [OrdMap.find_insert_of_ne hvector, OrdMap.find_insert_of_ne hversions]

/-- The record that keeps both sides has the incoming one among its archived versions, with those that
it carried. -/
lemma mem_versions_resolvedRecord {device : Text} {resolved : JObject}
    (h : advance (resolvedRecord c .keepBoth) device = .ok resolved) {variant : Json}
    (hvariant : variant ∈ Json.ofObject (c.incoming.erase conflictVersionsField) ::
      arrayField c.incoming conflictVersionsField) :
    variant ∈ arrayField resolved conflictVersionsField := by
  unfold arrayField
  rw [find_advance h versionsField_ne.2.2]
  unfold resolvedRecord
  rw [OrdMap.find_insert_of_ne versionsField_ne.2.2, OrdMap.find_insert_self, Json.asArray_arr,
    mem_unite, mem_unite, List.mem_singleton]
  rcases List.mem_cons.mp hvariant with heq | hmem
  · exact Or.inr heq
  · exact Or.inl (Or.inr hmem)

/-- The merged module of a conflict about a record is in a supported version. -/
lemma Imported.hasModule (h : Imported host state incoming plan) (hstate : Valid host state)
    (hc : c ∈ plan.conflicts) (hne : c.recordId ≠ [])
    (hscope : c.recordId ∉ metadataScopes) :
    HasModule host plan.merged.deviceId c.profileId c.moduleId (fun _ => True) plan.merged := by
  obtain ⟨profile, source, module, other, hprofile, hsource, hmodule, hother, hdisagree⟩ :=
    h.module_of_conflict hstate hc fun hmem => absurd hmem hscope
  have hboth : bothSupported host c.moduleId module other = true := by
    rcases hdisagree.2 with ⟨-, heq⟩ | ⟨hboth, -⟩
    · exact absurd (congrArg Conflict.recordId heq) hne
    · exact hboth
  have hfind := h.profile c.profileId profile hprofile
  rw [hsource] at hfind
  have hmodules := find_mergedModules host (knownReceipts host state incoming) profile.id
    profile.modules source.modules c.moduleId
  rw [hmodule, hother] at hmodules
  refine ⟨rfl, _, _, hfind, hmodules, ?_, trivial⟩
  dsimp only [Option.elim]
  simp only [bothSupported, Bool.and_eq_true] at hboth
  unfold mergedModule
  split_ifs
  · exact hboth.2
  · rw [schemaVersion_setRecords]
    have hlocal := (hstate.module _ profile _ module hprofile hmodule).supportedMetadata hboth.2
    unfold mergedMetadata
    split_ifs
    · exact (hlocal.mergeExtra _).2
    · exact (hlocal.mergeExtra _).2

/-- **Keeping both sides of a record keeps both.**

**Proof sketch.** The resolution of the conflict writes the record. The other conflicts about records of
this module have other ids, one about its metadata keeps its records, and none is about it as a
whole. -/
theorem Imported.record_kept (h : Imported host state incoming plan) (hstate : Valid host state)
    (hincoming : Valid host incoming) (hc : c ∈ plan.conflicts) (hne : c.recordId ≠ [])
    (hscope : c.recordId ∉ metadataScopes) (hchoice : choices.find c.id = some .keepBoth)
    (happly : applyImport host env state plan choices = .ok next) : RecordKept host c next := by
  obtain ⟨resolved, normalized, hresolved, hnormalized, hcommit⟩ := applyImport_ok happly
  obtain ⟨rfl, hvalid⟩ := eq_of_commit hcommit
  let device := plan.merged.deviceId
  let R : JObject → Prop := fun module => ∃ record,
    (records module).find c.recordId = some record ∧
    advance (resolvedRecord c .keepBoth) device = .ok record
  have hwhole : ∀ c' ∈ plan.conflicts, c.profileId = c'.profileId → c.moduleId = c'.moduleId →
      c'.recordId ≠ [] := fun c' hc' hkey hid hwhole =>
    h.not_whole hstate hc hc' (fun hmem => absurd hmem hscope) hne hwhole hkey hid
  have hmetadata : ∀ c' ∈ plan.conflicts, ∀ choice, c.profileId = c'.profileId →
      c.moduleId = c'.moduleId → c'.recordId = u "@module-extra" →
      SupportedMetadata host c.moduleId (resolveMetadata c'.local c'.incoming choice) := by
    intro c' hc' choice _ hid hscope'
    obtain ⟨hlocal, hremote, -⟩ := h.supported_of_moduleExtra hstate hincoming hc' hscope'
    rw [hid]
    exact hlocal.resolveMetadata hremote choice
  have hestablished : ∀ before after, HasModule host device c.profileId c.moduleId (fun _ => True) before →
      resolveConflict before c .keepBoth = .ok after →
      HasModule host device c.profileId c.moduleId R (after.keep resolutionsField (.str c.id)) := by
    rintro before after ⟨hdevice, profile, module, hprofile, hmodule, hsupported, -⟩ hwritten
    obtain ⟨old, record, hold, hadvance, rfl⟩ :=
      (resolution_of_resolveConflict hwritten).record_self hne hscope
    obtain rfl : old = profile := Option.some.inj (hold.symm.trans hprofile)
    obtain ⟨hlocal, hremote⟩ := h.record_of_scope hstate hc hne hscope
    have hrid : recordId record = c.recordId :=
      (recordId_advance hadvance).trans (recordId_resolvedRecord hlocal hremote)
    rw [hmodule, Option.getD_some]
    refine ⟨hdevice, _, _, find_setProfile_self _ _ _, OrdMap.find_insert_self _ _ _, ?_, record, ?_, ?_⟩
    · rw [schemaVersion_setRecords]
      exact hsupported
    · rw [records_setRecords ((keyed_records module).insert hrid), OrdMap.find_insert_self]
    · rw [← hadvance, hdevice]
  have hkept : ∀ c' ∈ plan.conflicts, c' ≠ c → ∀ choice before after,
      HasModule host device c.profileId c.moduleId (fun _ => True) before →
      HasModule host device c.profileId c.moduleId R before →
      resolveConflict before c' choice = .ok after →
      HasModule host device c.profileId c.moduleId R (after.keep resolutionsField (.str c'.id)) := by
    intro c' hc' hother choice before after _ hbefore hwritten
    refine hbefore.resolved hwritten (hwhole c' hc') (hmetadata c' hc' choice) ?_
    rintro module module' ⟨record, hrecord, hadvance⟩ hchanged
    cases hchanged with
    | same => exact ⟨record, hrecord, hadvance⟩
    | whole hkey hid hscope' => exact absurd hscope' (hwhole c' hc' hkey hid)
    | metadata =>
      refine ⟨record, ?_, hadvance⟩
      rw [records_setRecords (keyed_records module)]
      exact hrecord
    | @record written hkey hid hne' hscope' hadvance' =>
      obtain ⟨hlocal, hremote⟩ := h.record_of_scope hstate hc' hne' hscope'
      have hrid : recordId written = c'.recordId :=
        (recordId_advance hadvance').trans (recordId_resolvedRecord hlocal hremote)
      have hdifferent : c.recordId ≠ c'.recordId := fun heq =>
        hother ((h.sides hstate hincoming hc').eq (h.sides hstate hincoming hc) hkey.symm hid.symm
          heq.symm)
      refine ⟨record, ?_, hadvance⟩
      rw [records_setRecords ((keyed_records module).insert hrid), OrdMap.find_insert_of_ne hdifferent]
      exact hrecord
  obtain ⟨⟨hdevice, profile, before, hprofile, hbefore, hsupported, kept, hkeptFind, hadvance⟩, -⟩ :=
    resolveConflicts_established (P := HasModule host device c.profileId c.moduleId R) hchoice
      (fun c' hc' choice _ _ hI hwritten => hI.resolved hwritten (hwhole c' hc')
        (hmetadata c' hc' choice) fun _ _ _ _ => trivial)
      hestablished hkept (h.hasModule hstate hc hne hscope) (Or.inr hc) hresolved
  obtain ⟨profile', module, hprofile', hmodule, -, hpass⟩ :=
    normalizeSnapshot_module hnormalized hprofile hbefore
  have hsupported' : host.supportedModule c.moduleId (schemaVersion module) = true := by
    unfold schemaVersion at hsupported ⊢
    rw [find_normalizeBindings recordsField_ne.2.symm hpass]
    exact hsupported
  have hids : ∀ id record, (records module).find id = some record → id ≠ [] := fun id record hrecord =>
    ne_nil_of_validId (hvalid.ids hprofile' hmodule hsupported' hrecord).1
  have hlisted : ∀ {record : JObject}, (records module).find c.recordId = some record →
      ∀ variant ∈ arrayField record conflictVersionsField,
        Listed host { normalized with deviceId := state.deviceId, generation := env.generation }
          (recordEntry host c.profileId c.moduleId record variant) :=
    fun hrecord variant hvariant =>
      listed_record hvalid.tidy hprofile' hmodule hsupported' hrecord hvariant
  have hversions := fun variant => @mem_versions_resolvedRecord c device kept hadvance variant
  have hsame := hdevice.trans h.device
  refine ⟨profile', before, module, kept, ?_⟩
  rw [hsame] at hpass
  rcases normalizeBindings_buried hpass (fun _ => hids) hkeptFind with hfind | ⟨hburied, deleted, hfind, hdeleted⟩
  · exact ⟨kept, hprofile', hmodule, hpass, hkeptFind, currentRecord_resolvedRecord hadvance, hfind,
      Or.inl rfl, fun variant hvariant => hlisted hfind variant (hversions variant hvariant)⟩
  · exact ⟨deleted, hprofile', hmodule, hpass, hkeptFind, currentRecord_resolvedRecord hadvance, hfind,
      Or.inr ⟨hburied, hdeleted, hlisted hfind _ hdeleted.archived⟩, fun variant hvariant =>
        hlisted hfind variant (hdeleted.kept variant (hversions variant hvariant))⟩

end Run

/-! ### The result -/

/-- What is kept of the two sides of a conflict. -/
def KeptBoth (host : Host) (c : Conflict) (next : Snapshot) : Prop :=
  match slotOf c with
  | some slot => MetadataKept host slot c next
  | none => if c.recordId = [] then ModuleKept host c next else RecordKept host c next

/-- **Keeping both sides keeps both**: in every valid state, for each conflict of a plan that an import
resolves by keeping both sides, whatever is chosen for the others. -/
theorem keepBoth_keeps {host : Host} {env env' : Env} {state incoming next : Snapshot}
    {plan : MergePlan} {choices : OrdMap Text ConflictChoice} {c : Conflict}
    (hstate : Valid host state) (hfresh : Fresh env 0 state.profiles incoming.profiles.values)
    (hplan : prepareImport host env state incoming = .ok plan)
    (happly : applyImport host env' state plan choices = .ok next) (hc : c ∈ plan.conflicts)
    (hchoice : choices.find c.id = some .keepBoth) : KeptBoth host c next := by
  obtain ⟨himported, hincoming, -⟩ := prepareImport_imported hstate hfresh hplan
  unfold KeptBoth
  split
  · rename_i slot hslot
    exact himported.metadata_kept hstate hincoming hc hslot hchoice happly
  · rename_i hslot
    split_ifs with hwhole
    · exact himported.module_kept hstate hincoming hc hwhole hchoice happly
    · refine himported.record_kept hstate hincoming hc hwhole ?_ hchoice happly
      intro hscope
      simp only [metadataScopes, List.mem_cons, List.not_mem_nil, or_false] at hscope
      unfold slotOf at hslot
      rcases hscope with h | h | h | h | h | h | h <;> (rw [h] at hslot; cases hslot)

/-! ### A kept binding that goes -/

/-- A plain store with a tag and a binding of it. -/
def boundStore : Snapshot :=
  (exec plainHost plainEnv plainBaseline
    (plainWrite [plainTag (plainId 97) false, plainBinding (plainId 98) (plainId 97)])).1

/-- The store after both records were written once more. -/
def reboundStore : Snapshot :=
  (exec plainHost plainEnv boundStore
    (plainWrite [plainTag (plainId 97) false, plainBinding (plainId 98) (plainId 97)])).1

/-- Another store that took the records over and dropped them. -/
def unboundStore : Snapshot :=
  (exec plainHost plainEnv (plainImport .keepLocal (baseline (plainId 54) (plainId 55)) boundStore)
    (plainWrite [])).1

/-- The choice of both sides for the binding, and of the incoming side for everything else. -/
def bindingChoices (plan : MergePlan) : OrdMap Text ConflictChoice :=
  OrdMap.ofList (plan.conflicts.map fun c =>
    (c.id, if c.recordId = plainId 98 then .keepBoth else .useIncoming))

lemma valid_reboundStore : Valid plainHost reboundStore := valid_exec (valid_exec (valid_baseline _ _ _) _) _

/-- The import of the dropped records, up to its result. -/
def unboundImport (holds : MergePlan → Snapshot → Conflict → Bool) : Bool :=
  (prepareImport plainHost countedEnv reboundStore unboundStore).toOption.any fun plan =>
    (applyImport plainHost countedEnv reboundStore plan (bindingChoices plan)).toOption.any fun next =>
      plan.conflicts.any fun c => holds plan next c

lemma exists_of_unboundImport {holds : MergePlan → Snapshot → Conflict → Bool}
    (h : unboundImport holds = true) : ∃ plan next c,
      prepareImport plainHost countedEnv reboundStore unboundStore = .ok plan ∧
      applyImport plainHost countedEnv reboundStore plan (bindingChoices plan) = .ok next ∧
      c ∈ plan.conflicts ∧ holds plan next c = true := by
  obtain ⟨plan, hplan, h⟩ := (Option.any_eq_true _ _).mp h
  obtain ⟨next, hnext, h⟩ := (Option.any_eq_true _ _).mp h
  obtain ⟨c, hc, h⟩ := List.any_eq_true.mp h
  exact ⟨plan, next, c, toOption_eq_some.mp hplan, toOption_eq_some.mp hnext, hc, h⟩

/-- Both sides of a binding are kept. -/
theorem both_bindings_kept :
    ∃ next c, c.recordId = plainId 98 ∧ KeptBoth plainHost c next := by
  have hrun : unboundImport (fun plan _ c => decide (c.recordId = plainId 98) &&
      decide ((bindingChoices plan).find c.id = some .keepBoth)) = true := by
    decide +kernel
  obtain ⟨plan, next, c, hplan, hnext, hc, h⟩ := exists_of_unboundImport hrun
  rw [Bool.and_eq_true, decide_eq_true_eq, decide_eq_true_eq] at h
  have hfresh : Fresh countedEnv 0 reboundStore.profiles unboundStore.profiles.values :=
    fresh_countedEnv (by decide +kernel) (by decide +kernel)
  exact ⟨next, c, h.1, keepBoth_keeps valid_reboundStore hfresh hplan hnext hc h.2⟩

/-- A package with a note that has no name. -/
def unnamedPackage (note : ℚ) : Snapshot :=
  { plainBaseline with
    transfer := object [([], .num note)] }

/-- A plain store with such a note. -/
def unnamedStore : Snapshot := plainImport .keepLocal plainBaseline (unnamedPackage 1)

/-- **What keeping both sides does not keep**: a kept binding goes when its tag is deleted by the same
import, so its local side is not current afterwards; and a value of a field without a name is not
listed. -/
theorem kept_binding_goes :
    (∃ plan next c, prepareImport plainHost countedEnv reboundStore unboundStore = .ok plan ∧
      c ∈ plan.conflicts ∧ (bindingChoices plan).find c.id = some .keepBoth ∧
      applyImport plainHost countedEnv reboundStore plan (bindingChoices plan) = .ok next ∧
      isDeleted c.local = false ∧ ∃ record,
        recordAt next c.profileId c.moduleId c.recordId = some record ∧ isDeleted record = true) ∧
    ∃ plan next, ∃ c ∈ plan.conflicts,
      prepareImport plainHost countedEnv unnamedStore (unnamedPackage 2) = .ok plan ∧
      applyImport plainHost countedEnv unnamedStore plan (OrdMap.ofList [(c.id, .keepBoth)]) =
        .ok next ∧
      c.local.find [] = some (.num 1) ∧ c.incoming.find [] = some (.num 2) ∧
      ∀ entry ∈ walkArchives plainHost next, entry.field ≠ [] := by
  constructor
  · have hrun : unboundImport (fun plan next c =>
        decide ((bindingChoices plan).find c.id = some .keepBoth) && !isDeleted c.local &&
          (recordAt next c.profileId c.moduleId c.recordId).any isDeleted) = true := by
      decide +kernel
    obtain ⟨plan, next, c, hplan, hnext, hc, h⟩ := exists_of_unboundImport hrun
    rw [Bool.and_eq_true, Bool.and_eq_true, decide_eq_true_eq, Bool.not_eq_true'] at h
    obtain ⟨⟨hchoice, hlocal⟩, hafter⟩ := h
    obtain ⟨record, hrecord, hdeleted⟩ := (Option.any_eq_true _ _).mp hafter
    exact ⟨plan, next, c, hplan, hc, hchoice, hnext, hlocal, record, hrecord, hdeleted⟩
  · have hrun : ((prepareImport plainHost countedEnv unnamedStore (unnamedPackage 2)).toOption.any
        fun plan => plan.conflicts.any fun c =>
          (applyImport plainHost countedEnv unnamedStore plan
            (OrdMap.ofList [(c.id, .keepBoth)])).toOption.any fun next =>
              decide (c.local.find [] = some (.num 1)) && decide (c.incoming.find [] = some (.num 2)) &&
                (walkArchives plainHost next).all fun entry => decide (entry.field ≠ [])) = true := by
      decide +kernel
    obtain ⟨plan, hplan, h⟩ := (Option.any_eq_true _ _).mp hrun
    obtain ⟨c, hc, h⟩ := List.any_eq_true.mp h
    obtain ⟨next, hnext, h⟩ := (Option.any_eq_true _ _).mp h
    rw [Bool.and_eq_true, Bool.and_eq_true, decide_eq_true_eq, decide_eq_true_eq,
      List.all_eq_true] at h
    obtain ⟨⟨hlocal, hincoming⟩, hlisted⟩ := h
    exact ⟨plan, next, c, hc, toOption_eq_some.mp hplan, toOption_eq_some.mp hnext, hlocal, hincoming,
      fun entry hentry => of_decide_eq_true (hlisted entry hentry)⟩

end LocalData
