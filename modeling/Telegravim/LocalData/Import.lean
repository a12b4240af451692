import Telegravim.LocalData.Records
import Telegravim.LocalData.Store

set_option autoImplicit false

/-!
# Local data: what an import finds

The plan of an import told from both sides alone: what each scope is merged to, and the conflicts
that are listed. The loops of `prepareImport` thread the plan through; but a step reads only the
receipts of resolutions in the merged metadata, which are the same for all scopes after the root.

## Main definitions

* `LocalData.receipts`, `LocalData.unresolved` — the receipts of resolutions, and the conflicts that
  they do not hide.
* `LocalData.mergedMetadata`, `LocalData.mergedRecord`, `LocalData.mergedModule`,
  `LocalData.mergedProfile` — what each scope is merged to.
* `LocalData.RootDisagreement`, `LocalData.ScopeDisagreement` — what the two sides of an import
  disagree about.
* `LocalData.Imported` — what an import finds.

## Main results

* `LocalData.prepareImport_imported` — each scope is merged with its other side, and the listed
  conflicts are the disagreements without receipt.
-/

namespace LocalData

open Text

/-! ### Receipts -/

/-- The receipts of resolutions that metadata has. -/
def receipts (extra : JObject) : List Json := arrayField extra resolutionsField

/-- A conflict of a scope. -/
def conflictOf (host : Host) (profileId moduleId recordId : Text) («local» incoming : JObject) :
    Conflict where
  id := conflictId host profileId moduleId recordId «local» incoming
  profileId := profileId
  moduleId := moduleId
  recordId := recordId
  incoming := incoming
  «local» := «local»

/-- A conflict, unless a receipt says that it was resolved. -/
def unresolved (known : List Json) (conflict : Conflict) : List Conflict :=
  if .str conflict.id ∈ known then [] else [conflict]

lemma mem_unresolved {known : List Json} {conflict c : Conflict} :
    c ∈ unresolved known conflict ↔ c = conflict ∧ Json.str c.id ∉ known := by
  unfold unresolved
  split_ifs with h
  · simp only [List.not_mem_nil, false_iff, not_and, not_not]
    rintro rfl
    exact h
  · constructor
    · intro hc
      rw [List.mem_singleton.mp hc]
      exact ⟨rfl, h⟩
    · rintro ⟨rfl, -⟩
      exact List.mem_singleton_self _

/-- A plan with more conflicts and more unsupported modules. -/
def MergePlan.add (plan : MergePlan) (conflicts : List Conflict) (unsupported : List Text) :
    MergePlan :=
  { plan with
    conflicts := plan.conflicts ++ conflicts
    unsupportedModules := plan.unsupportedModules ++ unsupported }

@[simp] lemma MergePlan.add_merged (plan : MergePlan) (conflicts : List Conflict)
    (unsupported : List Text) : (plan.add conflicts unsupported).merged = plan.merged := rfl

@[simp] lemma MergePlan.add_conflicts (plan : MergePlan) (conflicts : List Conflict)
    (unsupported : List Text) :
    (plan.add conflicts unsupported).conflicts = plan.conflicts ++ conflicts := rfl

@[simp] lemma MergePlan.add_baseGeneration (plan : MergePlan) (conflicts : List Conflict)
    (unsupported : List Text) :
    (plan.add conflicts unsupported).baseGeneration = plan.baseGeneration := rfl

@[simp] lemma MergePlan.add_nil (plan : MergePlan) : plan.add [] [] = plan := by
  simp [MergePlan.add]

@[simp] lemma MergePlan.add_add (plan : MergePlan) (conflicts conflicts' : List Conflict)
    (unsupported unsupported' : List Text) :
    (plan.add conflicts unsupported).add conflicts' unsupported' =
      plan.add (conflicts ++ conflicts') (unsupported ++ unsupported') := by
  simp [MergePlan.add]

lemma addConflict_eq (host : Host) (plan : MergePlan) (profileId moduleId recordId : Text)
    («local» incoming : JObject) :
    addConflict host plan profileId moduleId recordId «local» incoming =
      (plan.add (unresolved (receipts plan.merged.extra)
        (conflictOf host profileId moduleId recordId «local» incoming)) [],
        !decide (Json.str (conflictId host profileId moduleId recordId «local» incoming) ∈
          receipts plan.merged.extra)) := by
  unfold addConflict unresolved receipts conflictOf
  dsimp only
  split_ifs with h
  · simp [h]
  · simp [h, MergePlan.add]

/-! ### Metadata -/

/-- The conflict of metadata, if there is one. -/
def metadataConflicts (host : Host) (known : List Json) (profile module scope : Text)
    («local» incoming : JObject) : List Conflict :=
  if metadataConflict «local» incoming then
    unresolved known (conflictOf host profile module scope «local» incoming)
  else []

/-- What metadata is merged to. -/
def mergedMetadata (host : Host) (known : List Json) (profile module scope : Text)
    («local» incoming : JObject) : JObject :=
  if metadataConflict «local» incoming ∧
      Json.str (conflictId host profile module scope «local» incoming) ∈ known then
    resolveMetadata «local» incoming .keepLocal
  else mergeExtra «local» incoming

lemma mergeMetadata_eq (host : Host) (plan : MergePlan) (profile module scope : Text)
    («local» incoming : JObject) :
    mergeMetadata host plan profile module scope «local» incoming =
      (plan.add (metadataConflicts host (receipts plan.merged.extra) profile module scope «local»
        incoming) [],
        mergedMetadata host (receipts plan.merged.extra) profile module scope «local» incoming) := by
  unfold mergeMetadata metadataConflicts mergedMetadata
  by_cases hconflict : metadataConflict «local» incoming = true
  · rw [if_pos hconflict, if_pos hconflict, addConflict_eq]
    by_cases hknown : Json.str (conflictId host profile module scope «local» incoming) ∈
        receipts plan.merged.extra
    · simp [hconflict, hknown]
    · simp [hconflict, hknown]
  · simp [hconflict]

/-! ### Records -/

/-- The records of a module after one was merged into them. -/
def mergedRecord (merged : OrdMap Text JObject) (value : Json) : OrdMap Text JObject :=
  let remote := value.toObject
  match merged.find (recordId remote) with
  | none => merged.insert (recordId remote) remote
  | some «local» =>
    if compare «local» remote = .before then merged.insert (recordId remote) remote else merged

/-- Whether two versions of a record compete. -/
def competes («local» remote : JObject) : Bool :=
  compare «local» remote = .concurrent || (compare «local» remote = .equal && «local» ≠ remote)

/-- The conflict of a record with the ones of a module. -/
def recordConflicts (host : Host) (known : List Json) (profileId moduleId : Text)
    (merged : OrdMap Text JObject) (value : Json) : List Conflict :=
  match merged.find (recordId value.toObject) with
  | none => []
  | some «local» =>
    if competes «local» value.toObject then
      unresolved known
        (conflictOf host profileId moduleId (recordId value.toObject) «local» value.toObject)
    else []

lemma mergeRecord_eq (host : Host) (profileId moduleId : Text) (plan : MergePlan)
    (merged : OrdMap Text JObject) (value : Json) :
    mergeRecord host profileId moduleId (plan, merged) value =
      (plan.add (recordConflicts host (receipts plan.merged.extra) profileId moduleId merged value) [],
        mergedRecord merged value) := by
  unfold mergeRecord recordConflicts mergedRecord competes
  dsimp only
  cases hfind : merged.find (recordId value.toObject) with
  | none => simp
  | some «local» =>
    cases hcompare : compare «local» value.toObject with
    | before => simp [hcompare]
    | after => simp [hcompare]
    | concurrent => simp [hcompare, addConflict_eq]
    | equal =>
      by_cases heq : «local» = value.toObject
      · subst heq
        simp [hcompare]
      · simp [hcompare, heq, addConflict_eq]

/-- Records that are merged at other ids leave a record alone. -/
lemma find_mergedRecord_of_ne {merged : OrdMap Text JObject} {value : Json} {id : Text}
    (h : id ≠ recordId value.toObject) : (mergedRecord merged value).find id = merged.find id := by
  unfold mergedRecord
  dsimp only
  split
  · exact OrdMap.find_insert_of_ne h _ _
  · split_ifs
    · exact OrdMap.find_insert_of_ne h _ _
    · rfl

/-- What a record is merged to. -/
def newerRecord («local» : Option JObject) (remote : JObject) : JObject :=
  match «local» with
  | none => remote
  | some «local» => if compare «local» remote = .before then remote else «local»

lemma find_mergedRecord_self (merged : OrdMap Text JObject) (value : Json) :
    (mergedRecord merged value).find (recordId value.toObject) =
      some (newerRecord (merged.find (recordId value.toObject)) value.toObject) := by
  unfold mergedRecord newerRecord
  dsimp only
  cases hfind : merged.find (recordId value.toObject) with
  | none => simp
  | some «local» =>
    dsimp only
    split_ifs
    · simp
    · exact hfind

/-- The records of a module after those of a list were merged into them. -/
def mergedRecords (merged : OrdMap Text JObject) (values : List Json) : OrdMap Text JObject :=
  values.foldl mergedRecord merged

/-- Records that are merged at other ids leave a record alone. -/
lemma find_mergedRecords_of_ne {values : List Json} {merged : OrdMap Text JObject} {id : Text}
    (h : ∀ value ∈ values, recordId value.toObject ≠ id) :
    (mergedRecords merged values).find id = merged.find id := by
  induction values generalizing merged with
  | nil => rfl
  | cons value values ih =>
    obtain ⟨hvalue, hrest⟩ := List.forall_mem_cons.mp h
    exact (ih hrest).trans (find_mergedRecord_of_ne hvalue.symm)

/-- Each record of a list with distinct ids is merged with the one there was before. -/
lemma find_mergedRecords {values : List Json}
    (hnodup : (values.map fun value => recordId value.toObject).Nodup) (merged : OrdMap Text JObject)
    {value : Json} (h : value ∈ values) :
    (mergedRecords merged values).find (recordId value.toObject) =
      some (newerRecord (merged.find (recordId value.toObject)) value.toObject) := by
  induction values generalizing merged with
  | nil => cases h
  | cons first values ih =>
    obtain ⟨hfresh, hnodup⟩ := List.nodup_cons.mp hnodup
    have hne : ∀ other ∈ values, recordId other.toObject ≠ recordId first.toObject :=
      fun other hother heq => hfresh (List.mem_map.mpr ⟨other, hother, heq⟩)
    rcases List.mem_cons.mp h with rfl | h
    · exact (find_mergedRecords_of_ne hne).trans (find_mergedRecord_self _ _)
    · have hrest := ih hnodup (mergedRecord merged first) h
      rw [find_mergedRecord_of_ne (hne value h)] at hrest
      exact hrest

/-- **The merge of records** with distinct ids: the conflicts are those of each with the record
there was before.

**Proof sketch.** Induction on the records: those that follow have other ids, so merging the first
one leaves the records they are compared with alone. -/
lemma foldl_mergeRecord (host : Host) (profileId moduleId : Text) {values : List Json}
    (hnodup : (values.map fun value => recordId value.toObject).Nodup) (plan : MergePlan)
    (merged : OrdMap Text JObject) :
    ∃ added, values.foldl (mergeRecord host profileId moduleId) (plan, merged) =
        (plan.add added [], mergedRecords merged values) ∧
      ∀ c, c ∈ added ↔ ∃ value ∈ values,
        c ∈ recordConflicts host (receipts plan.merged.extra) profileId moduleId merged value := by
  induction values generalizing plan merged with
  | nil => exact ⟨[], by simp [mergedRecords], by simp⟩
  | cons value values ih =>
    obtain ⟨hfresh, hnodup⟩ := List.nodup_cons.mp hnodup
    have hsame : ∀ other ∈ values, (mergedRecord merged value).find (recordId other.toObject) =
        merged.find (recordId other.toObject) := fun other hother =>
      find_mergedRecord_of_ne fun heq => hfresh (List.mem_map.mpr ⟨other, hother, heq⟩)
    obtain ⟨added, hfold, hadded⟩ := ih hnodup
      (plan.add (recordConflicts host (receipts plan.merged.extra) profileId moduleId merged value) [])
      (mergedRecord merged value)
    refine ⟨recordConflicts host (receipts plan.merged.extra) profileId moduleId merged value ++ added,
      ?_, ?_⟩
    · rw [List.foldl_cons, mergeRecord_eq, hfold, MergePlan.add_add]
      simp [mergedRecords]
    · intro c
      rw [List.mem_append, hadded, List.exists_mem_cons_iff]
      refine or_congr_right ⟨?_, ?_⟩
      · rintro ⟨other, hmem, hc⟩
        refine ⟨other, hmem, ?_⟩
        simpa only [recordConflicts, hsame other hmem, MergePlan.add_merged] using hc
      · rintro ⟨other, hmem, hc⟩
        refine ⟨other, hmem, ?_⟩
        simpa only [recordConflicts, hsame other hmem, MergePlan.add_merged] using hc

/-! ### Modules -/

/-- Whether both versions of a module are supported. -/
def bothSupported (host : Host) (id : Text) («local» incoming : JObject) : Bool :=
  host.supportedModule id (schemaVersion incoming) && host.supportedModule id (schemaVersion «local»)

/-- What a module is merged to. -/
def mergedModule (host : Host) (known : List Json) (profileId id : Text) («local» incoming : JObject) :
    JObject :=
  if «local» = incoming ∨ bothSupported host id «local» incoming = false then «local»
  else setRecords (mergedMetadata host known profileId id (u "@module-extra")
      (moduleMetadata id «local») (moduleMetadata id incoming))
    (mergedRecords (records «local») (arrayField incoming (u "records")))

/-- What two versions of a module disagree about: all of an opaque module; the metadata and single
records of a supported one. -/
def ModuleDisagreement (host : Host) (profileId id : Text) («local» incoming : JObject)
    (c : Conflict) : Prop :=
  «local» ≠ incoming ∧
    ((bothSupported host id «local» incoming = false ∧
      c = conflictOf host profileId id [] «local» incoming) ∨
    (bothSupported host id «local» incoming = true ∧
      ((metadataConflict (moduleMetadata id «local») (moduleMetadata id incoming) = true ∧
        c = conflictOf host profileId id (u "@module-extra") (moduleMetadata id «local»)
          (moduleMetadata id incoming)) ∨
      ∃ value ∈ arrayField incoming (u "records"), ∃ record,
        (records «local»).find (recordId value.toObject) = some record ∧
        competes record value.toObject = true ∧
        c = conflictOf host profileId id (recordId value.toObject) record value.toObject)))

/-- A disagreement about a module is about this module of this profile. -/
lemma ModuleDisagreement.scope {host : Host} {profileId id : Text} {«local» incoming : JObject}
    {c : Conflict} (h : ModuleDisagreement host profileId id «local» incoming c) :
    c.profileId = profileId ∧ c.moduleId = id := by
  obtain ⟨-, ⟨-, rfl⟩ | ⟨-, ⟨-, rfl⟩ | ⟨value, -, record, -, -, rfl⟩⟩⟩ := h <;> exact ⟨rfl, rfl⟩

lemma mem_metadataConflicts {host : Host} {known : List Json} {profile module scope : Text}
    {«local» incoming : JObject} {c : Conflict} :
    c ∈ metadataConflicts host known profile module scope «local» incoming ↔
      (metadataConflict «local» incoming = true ∧
        c = conflictOf host profile module scope «local» incoming) ∧ Json.str c.id ∉ known := by
  unfold metadataConflicts
  split_ifs with h
  · simp [mem_unresolved, h]
  · simp [h]

lemma mem_recordConflicts {host : Host} {known : List Json} {profileId moduleId : Text}
    {merged : OrdMap Text JObject} {value : Json} {c : Conflict} :
    c ∈ recordConflicts host known profileId moduleId merged value ↔
      (∃ record, merged.find (recordId value.toObject) = some record ∧
        competes record value.toObject = true ∧
        c = conflictOf host profileId moduleId (recordId value.toObject) record value.toObject) ∧
      Json.str c.id ∉ known := by
  unfold recordConflicts
  cases hfind : merged.find (recordId value.toObject) with
  | none => simp
  | some record =>
    dsimp only
    split_ifs with h
    · simp [mem_unresolved, h]
    · simp [h]

/-- **The merge of a module** into those of a profile. -/
lemma mergeModule_spec (host : Host) (profileId : Text) (plan : MergePlan)
    (modules : OrdMap Text JObject) (id : Text) (incoming : JObject)
    (hnodup : host.supportedModule id (schemaVersion incoming) = true → DistinctRecords incoming) :
    ∃ added unsupported, mergeModule host profileId (plan, modules) (id, incoming) =
        (plan.add added unsupported, modules.insert id ((modules.find id).elim incoming fun «local» =>
          mergedModule host (receipts plan.merged.extra) profileId id «local» incoming)) ∧
      ∀ c, c ∈ added ↔ (∃ «local», modules.find id = some «local» ∧
        ModuleDisagreement host profileId id «local» incoming c) ∧
        Json.str c.id ∉ receipts plan.merged.extra := by
  have hplan : (if host.supportedModule id (schemaVersion incoming) then plan
      else { plan with unsupportedModules := plan.unsupportedModules ++ [id] }) =
      plan.add [] (if host.supportedModule id (schemaVersion incoming) then [] else [id]) := by
    split_ifs <;> simp [MergePlan.add]
  unfold mergeModule
  dsimp only
  rw [hplan]
  generalize (if host.supportedModule id (schemaVersion incoming) then [] else [id]) = unsupported
  cases hfind : modules.find id with
  | none => exact ⟨[], unsupported, rfl, by simp⟩
  | some «local» =>
    dsimp only
    by_cases heq : «local» = incoming
    · refine ⟨[], unsupported, ?_, ?_⟩
      · rw [if_pos heq]
        simp [mergedModule, heq, OrdMap.insert_find (heq ▸ hfind)]
      · intro c
        simp [ModuleDisagreement, heq]
    · rw [if_neg heq]
      by_cases hboth : bothSupported host id «local» incoming = true
      · have hsupported := hboth
        simp only [bothSupported, Bool.and_eq_true] at hsupported
        rw [if_neg (by simp [hsupported])]
        obtain ⟨added, hfold, hadded⟩ := foldl_mergeRecord host profileId id
          (hnodup hsupported.1) (((plan.add [] unsupported).add (metadataConflicts host
            (receipts plan.merged.extra) profileId id (u "@module-extra") (moduleMetadata id «local»)
            (moduleMetadata id incoming)) [])) (records «local»)
        refine ⟨metadataConflicts host (receipts plan.merged.extra) profileId id (u "@module-extra")
          (moduleMetadata id «local») (moduleMetadata id incoming) ++ added, unsupported, ?_, ?_⟩
        · unfold mergeSupported
          dsimp only
          rw [mergeMetadata_eq]
          dsimp only [MergePlan.add_merged]
          rw [hfold]
          simp [mergedModule, heq, hboth]
        · intro c
          rw [List.mem_append, hadded, mem_metadataConflicts]
          simp only [mem_recordConflicts, MergePlan.add_merged, Option.some.injEq,
            exists_eq_left', ModuleDisagreement, hboth, ne_eq, heq, not_false_eq_true, true_and,
            Bool.true_eq_false, false_and, false_or]
          constructor
          · rintro (⟨hmetadata, hknown⟩ | ⟨value, hvalue, hrecord, hknown⟩)
            · exact ⟨Or.inl hmetadata, hknown⟩
            · exact ⟨Or.inr ⟨value, hvalue, hrecord⟩, hknown⟩
          · rintro ⟨hmetadata | ⟨value, hvalue, hrecord⟩, hknown⟩
            · exact Or.inl ⟨hmetadata, hknown⟩
            · exact Or.inr ⟨value, hvalue, hrecord, hknown⟩
      · have hunsupported : host.supportedModule id (schemaVersion incoming) = false ∨
            host.supportedModule id (schemaVersion «local») = false := by
          rw [Bool.not_eq_true, bothSupported, Bool.and_eq_false_iff] at hboth
          exact hboth
        rw [if_pos hunsupported, addConflict_eq]
        refine ⟨unresolved (receipts plan.merged.extra) (conflictOf host profileId id [] «local»
          incoming), unsupported, ?_, ?_⟩
        · rw [Bool.not_eq_true] at hboth
          simp [mergedModule, hboth, OrdMap.insert_find hfind]
        · intro c
          rw [Bool.not_eq_true] at hboth
          simp [mem_unresolved, ModuleDisagreement, hboth, heq]

/-- What the modules of a profile are merged to. -/
def mergedModules (host : Host) (known : List Json) (profileId : Text)
    («local» incoming : OrdMap Text JObject) : OrdMap Text JObject :=
  incoming.entries.foldl (fun merged entry => merged.insert entry.1
    ((merged.find entry.1).elim entry.2 fun «local» =>
      mergedModule host known profileId entry.1 «local» entry.2)) «local»

lemma find_mergedModules (host : Host) (known : List Json) (profileId : Text)
    («local» incoming : OrdMap Text JObject) (id : Text) :
    (mergedModules host known profileId «local» incoming).find id =
      (incoming.find id).elim («local».find id) fun module =>
        some ((«local».find id).elim module fun «local» =>
          mergedModule host known profileId id «local» module) := by
  exact OrdMap.find_foldl_entries_update (fun id before module => before.elim module fun «local» =>
    mergedModule host known profileId id «local» module) incoming «local» id

/-- **The merge of the modules** of a profile.

**Proof sketch.** Induction on the incoming modules: those that follow have other ids, so merging the
first one leaves the modules they are compared with alone. -/
lemma foldl_mergeModule (host : Host) (profileId : Text) {entries : List (Text × JObject)}
    (hkeys : (entries.map Prod.fst).Nodup)
    (hnodup : ∀ entry ∈ entries, host.supportedModule entry.1 (schemaVersion entry.2) = true →
      DistinctRecords entry.2) (plan : MergePlan) (modules : OrdMap Text JObject) :
    ∃ added unsupported, entries.foldl (mergeModule host profileId) (plan, modules) =
        (plan.add added unsupported, entries.foldl (fun merged entry => merged.insert entry.1
          ((merged.find entry.1).elim entry.2 fun «local» =>
            mergedModule host (receipts plan.merged.extra) profileId entry.1 «local» entry.2))
          modules) ∧
      ∀ c, c ∈ added ↔ (∃ entry ∈ entries, ∃ «local», modules.find entry.1 = some «local» ∧
        ModuleDisagreement host profileId entry.1 «local» entry.2 c) ∧
        Json.str c.id ∉ receipts plan.merged.extra := by
  induction entries generalizing plan modules with
  | nil => exact ⟨[], [], by simp, by simp⟩
  | cons entry entries ih =>
    obtain ⟨id, incoming⟩ := entry
    obtain ⟨hfresh, hkeys⟩ := List.nodup_cons.mp hkeys
    obtain ⟨hfirst, hrest⟩ := List.forall_mem_cons.mp hnodup
    obtain ⟨first, unsupported, hstep, hmem⟩ := mergeModule_spec host profileId plan modules id
      incoming hfirst
    obtain ⟨added, unsupported', hfold, hadded⟩ := ih hkeys hrest (plan.add first unsupported)
      (modules.insert id ((modules.find id).elim incoming fun «local» =>
        mergedModule host (receipts plan.merged.extra) profileId id «local» incoming))
    refine ⟨first ++ added, unsupported ++ unsupported', ?_, ?_⟩
    · rw [List.foldl_cons, hstep, hfold, MergePlan.add_add]
      rfl
    · intro c
      rw [List.mem_append, hmem, hadded, List.exists_mem_cons_iff, or_and_right]
      refine or_congr_right (and_congr_left fun _ => ⟨?_, ?_⟩)
      · rintro ⟨other, hother, «local», hfind, hc⟩
        have hne : other.1 ≠ id := fun heq => hfresh (List.mem_map.mpr ⟨other, hother, heq⟩)
        rw [OrdMap.find_insert_of_ne hne] at hfind
        exact ⟨other, hother, «local», hfind, hc⟩
      · rintro ⟨other, hother, «local», hfind, hc⟩
        have hne : other.1 ≠ id := fun heq => hfresh (List.mem_map.mpr ⟨other, hother, heq⟩)
        refine ⟨other, hother, «local», ?_, hc⟩
        rw [OrdMap.find_insert_of_ne hne]
        exact hfind

/-! ### Profiles -/

/-- What a profile is merged to. -/
def mergedProfile (host : Host) (known : List Json) («local» source : Profile) : Profile :=
  { «local» with
    extra := mergedMetadata host known «local».id [] (u "@profile-extra") «local».extra source.extra
    transfer := mergedMetadata host known «local».id [] (u "@profile-transfer") «local».transfer
      source.transfer
    modules := mergedModules host known «local».id «local».modules source.modules }

/-- What two versions of a profile disagree about. -/
def ProfileDisagreement (host : Host) («local» source : Profile) (c : Conflict) : Prop :=
  (metadataConflict «local».extra source.extra = true ∧
    c = conflictOf host «local».id [] (u "@profile-extra") «local».extra source.extra) ∨
  (metadataConflict «local».transfer source.transfer = true ∧
    c = conflictOf host «local».id [] (u "@profile-transfer") «local».transfer source.transfer) ∨
  ∃ id incoming module, source.modules.find id = some incoming ∧
    «local».modules.find id = some module ∧ ModuleDisagreement host «local».id id module incoming c

/-- The profile that a source is merged into. -/
def mergeTarget (env : Env) (plan : MergePlan) (n : ℕ) (source : Profile) : Profile :=
  (profileOf plan.merged source.account).getD
    { id := if plan.merged.profiles.contains source.id then env.newId n else source.id
      account := source.account }

/-- The incoming modules of supported versions have distinct records. -/
def DistinctModules (host : Host) (source : Profile) : Prop :=
  ∀ id module, source.modules.find id = some module →
    host.supportedModule id (schemaVersion module) = true → DistinctRecords module

/-- **The merge of a profile.** -/
lemma mergeProfile_spec (host : Host) (env : Env) (plan : MergePlan) (n : ℕ) (source : Profile)
    (hnodup : DistinctModules host source) :
    ∃ added, (mergeProfile host env (plan, n) source).1.merged =
        plan.merged.setProfile (mergeTarget env plan n source).id (mergedProfile host
          (receipts plan.merged.extra) (mergeTarget env plan n source) source) ∧
      (mergeProfile host env (plan, n) source).1.conflicts = plan.conflicts ++ added ∧
      (mergeProfile host env (plan, n) source).1.baseGeneration = plan.baseGeneration ∧
      ∀ c, c ∈ added ↔ ProfileDisagreement host (mergeTarget env plan n source) source c ∧
        Json.str c.id ∉ receipts plan.merged.extra := by
  have hentries : ∀ entry ∈ source.modules.entries,
      host.supportedModule entry.1 (schemaVersion entry.2) = true → DistinctRecords entry.2 :=
    fun entry hentry => hnodup entry.1 entry.2 (OrdMap.find_eq_some_iff.mpr hentry)
  unfold mergeProfile
  dsimp only
  rw [show ((profileOf plan.merged source.account).getD
    { id := if plan.merged.profiles.contains source.id then env.newId n else source.id
      account := source.account }) = mergeTarget env plan n source from rfl]
  generalize mergeTarget env plan n source = target
  rw [mergeMetadata_eq]
  dsimp only [MergePlan.add_merged]
  rw [mergeMetadata_eq]
  dsimp only [MergePlan.add_merged]
  rw [MergePlan.add_add]
  obtain ⟨added, unsupported, hfold, hadded⟩ := foldl_mergeModule host target.id
    source.modules.nodup_keys hentries (({ plan with accounts := plan.accounts ++
      [accountId source.account] } : MergePlan).add
        (metadataConflicts host (receipts plan.merged.extra) target.id [] (u "@profile-extra")
          target.extra source.extra ++
        metadataConflicts host (receipts plan.merged.extra) target.id [] (u "@profile-transfer")
          target.transfer source.transfer) ([] ++ [])) target.modules
  rw [hfold]
  refine ⟨_, rfl, List.append_assoc _ _ _, rfl, ?_⟩
  intro c
  rw [List.mem_append, List.mem_append, hadded, mem_metadataConflicts, mem_metadataConflicts]
  simp only [MergePlan.add_merged, ProfileDisagreement]
  constructor
  · rintro ((⟨hc, hknown⟩ | ⟨hc, hknown⟩) | ⟨⟨entry, hentry, module, hmodule, hc⟩, hknown⟩)
    · exact ⟨Or.inl hc, hknown⟩
    · exact ⟨Or.inr (Or.inl hc), hknown⟩
    · exact ⟨Or.inr (Or.inr ⟨entry.1, entry.2, module, OrdMap.find_eq_some_iff.mpr hentry, hmodule,
        hc⟩), hknown⟩
  · rintro ⟨hc | hc | ⟨id, incoming, module, hincoming, hmodule, hc⟩, hknown⟩
    · exact Or.inl (Or.inl ⟨hc, hknown⟩)
    · exact Or.inl (Or.inr ⟨hc, hknown⟩)
    · exact Or.inr ⟨⟨(id, incoming), OrdMap.find_eq_some_iff.mp hincoming, module, hmodule, hc⟩, hknown⟩

/-- Profiles under their own ids, one for each account. -/
structure Tidy (profiles : OrdMap Text Profile) : Prop where
  key : ∀ key profile, profiles.find key = some profile → profile.id = key
  account : ∀ key profile key' profile', profiles.find key = some profile →
    profiles.find key' = some profile' → profile.account = profile'.account → key = key'

lemma Valid.tidy {host : Host} {snapshot : Snapshot} (h : Valid host snapshot) :
    Tidy snapshot.profiles := by
  constructor
  · intro key profile hprofile
    have hvalid := h.profile key profile hprofile
    simp only [validProfile, Bool.and_eq_true, decide_eq_true_eq] at hvalid
    exact hvalid.1.1.1.1.1.2.symm
  · intro key profile key' profile' hprofile hprofile' haccount
    exact h.account key profile key' profile' hprofile hprofile' (by rw [haccount])

/-- The identities that are still to be drawn are new: none is the id of a profile or of a source. -/
structure Fresh (env : Env) (n : ℕ) (profiles : OrdMap Text Profile) (sources : List Profile) :
    Prop where
  injective : Function.Injective env.newId
  profile : ∀ j, n ≤ j → profiles.find (env.newId j) = none
  source : ∀ j, n ≤ j → ∀ source ∈ sources, source.id ≠ env.newId j

lemma injective_countedEnv : Function.Injective countedEnv.newId := by
  intro i j h
  have hlength := congrArg List.length h
  simpa [countedEnv] using hlength

/-- The identities of `countedEnv` have no dashes, so they are new where the others have some. -/
lemma fresh_countedEnv {profiles : OrdMap Text Profile} {sources : List Profile}
    (hprofiles : ∀ key ∈ profiles.keys, (45 : UInt16) ∈ key)
    (hsources : ∀ source ∈ sources, (45 : UInt16) ∈ source.id) :
    Fresh countedEnv 0 profiles sources := by
  have hdash : ∀ j, (45 : UInt16) ∉ countedEnv.newId j := fun j hmem =>
    absurd (List.eq_of_mem_replicate hmem) (by decide)
  refine ⟨injective_countedEnv, fun j _ => ?_, fun j _ source hsource heq => ?_⟩
  · cases hfind : profiles.find (countedEnv.newId j) with
    | none => rfl
    | some profile => exact absurd (hprofiles _ (OrdMap.mem_keys_iff.mpr ⟨profile, hfind⟩)) (hdash j)
  · exact hdash j (heq ▸ hsources source hsource)

section Sources

variable {host : Host} {env : Env} {plan : MergePlan} {n : ℕ} {source : Profile}
  {sources : List Profile}

/-- With one profile for each account, the profile of an account is the one there is. -/
lemma profileOf_eq {snapshot : Snapshot} (htidy : Tidy snapshot.profiles) {key : Text}
    {profile : Profile} (h : snapshot.profiles.find key = some profile) :
    profileOf snapshot profile.account = some profile := by
  cases hfound : profileOf snapshot profile.account with
  | none =>
    have hnone := List.find?_eq_none.mp hfound profile (OrdMap.mem_values_iff.mpr ⟨key, h⟩)
    simp at hnone
  | some found =>
    obtain ⟨key', hkey', haccount⟩ := find_of_profileOf hfound
    obtain rfl := htidy.account key profile key' found h hkey' haccount.symm
    rw [h] at hkey'
    exact hkey'.symm

/-- The profile that a source is merged into is the one of its account, or a new one. -/
lemma mergeTarget_spec (htidy : Tidy plan.merged.profiles)
    (hfresh : Fresh env n plan.merged.profiles (source :: sources)) :
    (mergeTarget env plan n source).account = source.account ∧
      (plan.merged.profiles.find (mergeTarget env plan n source).id =
          some (mergeTarget env plan n source) ∨
        (plan.merged.profiles.find (mergeTarget env plan n source).id = none ∧
          (∀ key profile, plan.merged.profiles.find key = some profile →
            profile.account ≠ source.account) ∧
          mergeTarget env plan n source =
            { id := (mergeTarget env plan n source).id, account := source.account })) := by
  unfold mergeTarget
  cases hfound : profileOf plan.merged source.account with
  | some target =>
    obtain ⟨key, hkey, haccount⟩ := find_of_profileOf hfound
    refine ⟨haccount, Or.inl ?_⟩
    rw [Option.getD_some, htidy.key key target hkey]
    exact hkey
  | none =>
    refine ⟨rfl, Or.inr ⟨?_, ?_, rfl⟩⟩
    · rw [Option.getD_none]
      dsimp only
      split_ifs with htaken
      · exact hfresh.profile n le_rfl
      · exact OrdMap.contains_eq_false_iff.mp (Bool.eq_false_iff.mpr htaken)
    · intro key profile hprofile haccount
      have hnone := List.find?_eq_none.mp hfound profile (OrdMap.mem_values_iff.mpr ⟨key, hprofile⟩)
      simp [haccount] at hnone

/-- The identities that are left after the merge of a profile are new for the next one. -/
lemma fresh_mergeProfile (host : Host) (hfresh : Fresh env n plan.merged.profiles (source :: sources))
    (htidy : Tidy plan.merged.profiles) (merged : Profile) :
    Fresh env (mergeProfile host env (plan, n) source).2
      (plan.merged.profiles.insert (mergeTarget env plan n source).id merged) sources := by
  have hdrawn : (mergeProfile host env (plan, n) source).2 =
      if ((profileOf plan.merged source.account).isNone &&
        plan.merged.profiles.contains source.id) = true then n + 1 else n := rfl
  have hle : n ≤ (mergeProfile host env (plan, n) source).2 := by
    rw [hdrawn]
    split_ifs <;> omega
  refine ⟨hfresh.injective, ?_, ?_⟩
  · intro j hj
    have hne : env.newId j ≠ (mergeTarget env plan n source).id := by
      unfold mergeTarget
      cases hfound : profileOf plan.merged source.account with
      | some target =>
        obtain ⟨key, hkey, -⟩ := find_of_profileOf hfound
        intro heq
        rw [Option.getD_some, htidy.key key target hkey] at heq
        have hnone := hfresh.profile j (hle.trans hj)
        rw [heq, hkey] at hnone
        cases hnone
      | none =>
        rw [Option.getD_none]
        dsimp only
        split_ifs with htaken
        · intro heq
          rw [hdrawn, hfound, htaken, if_pos (by rfl)] at hj
          have := hfresh.injective heq
          omega
        · exact (hfresh.source j (hle.trans hj) source List.mem_cons_self).symm
    rw [OrdMap.find_insert_of_ne hne]
    exact hfresh.profile j (hle.trans hj)
  · intro j hj other hother
    exact hfresh.source j (hle.trans hj) other (List.mem_cons_of_mem _ hother)

/-- The profile of an account after the merge of some sources. -/
def mergedWith (host : Host) (known : List Json) (sources : List Profile) (profile : Profile) :
    Profile :=
  (sources.find? fun source => source.account = profile.account).elim profile
    (mergedProfile host known profile)

/-- Writing a profile of an account that no other one has keeps profiles tidy. -/
lemma Tidy.insert {profiles : OrdMap Text Profile} (h : Tidy profiles) (profile : Profile)
    (haccount : ∀ key other, profiles.find key = some other → other.account = profile.account →
      key = profile.id) : Tidy (profiles.insert profile.id profile) := by
  constructor
  · intro key other hother
    rw [OrdMap.find_insert] at hother
    split_ifs at hother with hkey
    · cases hother
      exact hkey.symm
    · exact h.key key other hother
  · intro key other key' other' hother hother' heq
    rw [OrdMap.find_insert] at hother hother'
    split_ifs at hother hother' with hkey hkey' hkey'
    · exact hkey.trans hkey'.symm
    · cases hother
      exact hkey.trans (haccount key' other' hother' heq.symm).symm
    · cases hother'
      exact (haccount key other hother heq).trans hkey'.symm
    · exact h.account key other key' other' hother hother' heq

/-- What the merge of the sources has done to a plan. -/
structure Merges (host : Host) (known : List Json) (sources : List Profile) (before after : MergePlan)
    (added : List Conflict) : Prop where
  conflicts : after.conflicts = before.conflicts ++ added
  generation : after.baseGeneration = before.baseGeneration
  rest : after.merged = { before.merged with profiles := after.merged.profiles }
  tidy : Tidy after.merged.profiles
  merged : ∀ key profile, before.merged.profiles.find key = some profile →
    after.merged.profiles.find key = some (mergedWith host known sources profile)
  new : ∀ key profile, after.merged.profiles.find key = some profile →
    (∃ old, before.merged.profiles.find key = some old) ∨
      ∃ source ∈ sources, (∀ key profile, before.merged.profiles.find key = some profile →
        profile.account ≠ source.account) ∧
        profile = mergedProfile host known { id := key, account := source.account } source
  present : ∀ source ∈ sources, ∃ key profile, after.merged.profiles.find key = some profile ∧
    profile.account = source.account
  listed : ∀ c, c ∈ added ↔ (∃ key profile source, before.merged.profiles.find key = some profile ∧
    source ∈ sources ∧ source.account = profile.account ∧ ProfileDisagreement host profile source c) ∧
    Json.str c.id ∉ known

lemma mergedWith_cons_self {known : List Json} {profile : Profile}
    (h : source.account = profile.account) :
    mergedWith host known (source :: sources) profile = mergedProfile host known profile source := by
  simp [mergedWith, h]

lemma mergedWith_cons_of_ne {known : List Json} {profile : Profile}
    (h : source.account ≠ profile.account) :
    mergedWith host known (source :: sources) profile = mergedWith host known sources profile := by
  simp [mergedWith, h]

lemma mergedWith_of_fresh {known : List Json} {profile : Profile}
    (h : ∀ source ∈ sources, source.account ≠ profile.account) :
    mergedWith host known sources profile = profile := by
  have hnone : (sources.find? fun source => source.account = profile.account) = none :=
    List.find?_eq_none.mpr fun source hsource => by simpa using h source hsource
  simp [mergedWith, hnone]

/-- A new profile disagrees with nothing. -/
lemma not_disagreement_new {id : Text} {account : Account} {c : Conflict} :
    ¬ProfileDisagreement host { id, account } source c := by
  have hempty : ∀ incoming : JObject, metadataConflict ∅ incoming = false := by
    intro incoming
    simp [metadataConflict]
  rintro (⟨h, -⟩ | ⟨h, -⟩ | ⟨key, incoming, module, -, h, -⟩)
  · rw [hempty] at h
    cases h
  · rw [hempty] at h
    cases h
  · cases h

/-- What is known of the profile that a source is merged into. -/
structure Target (profiles : OrdMap Text Profile) (source target : Profile) : Prop where
  account : target.account = source.account
  found : profiles.find target.id = some target ∨
    (profiles.find target.id = none ∧
      (∀ key profile, profiles.find key = some profile → profile.account ≠ source.account) ∧
      target = { id := target.id, account := source.account })

/-- The profile of the account of a source is the one it is merged into. -/
lemma Target.eq {profiles : OrdMap Text Profile} {target profile : Profile} {key : Text}
    (h : Target profiles source target) (htidy : Tidy profiles)
    (hfind : profiles.find key = some profile) (haccount : profile.account = source.account) :
    key = target.id ∧ profile = target := by
  rcases h.found with hfound | ⟨-, hnone, -⟩
  · obtain rfl := htidy.account key profile target.id target hfind hfound
      (haccount.trans h.account.symm)
    exact ⟨rfl, Option.some.inj (hfind.symm.trans hfound)⟩
  · exact absurd haccount (hnone key profile hfind)

/-- A profile elsewhere has another account. -/
lemma Target.ne {profiles : OrdMap Text Profile} {target profile : Profile} {key : Text}
    (h : Target profiles source target) (htidy : Tidy profiles)
    (hfind : profiles.find key = some profile) (hkey : key ≠ target.id) :
    source.account ≠ profile.account :=
  fun heq => hkey (h.eq htidy hfind heq.symm).1

lemma Target.tidy (host : Host) {profiles : OrdMap Text Profile} {target : Profile}
    (h : Target profiles source target) (htidy : Tidy profiles) (known : List Json) :
    Tidy (profiles.insert target.id (mergedProfile host known target source)) := by
  refine htidy.insert (mergedProfile host known target source) ?_
  intro key other hother haccount
  exact (h.eq htidy hother (haccount.trans h.account)).1

/-- The merge of a source before the merge of the others. -/
lemma Merges.cons {known : List Json} {target : Profile} {before middle after : MergePlan}
    {first added : List Conflict} (htarget : Target before.merged.profiles source target)
    (htidy : Tidy before.merged.profiles)
    (hne : ∀ other ∈ sources, other.account ≠ source.account)
    (hmiddle : middle.merged = before.merged.setProfile target.id
      (mergedProfile host known target source))
    (hconflicts : middle.conflicts = before.conflicts ++ first)
    (hgeneration : middle.baseGeneration = before.baseGeneration)
    (hlisted : ∀ c, c ∈ first ↔ ProfileDisagreement host target source c ∧ Json.str c.id ∉ known)
    (h : Merges host known sources middle after added) :
    Merges host known (source :: sources) before after (first ++ added) := by
  have hfind : ∀ key, middle.merged.profiles.find key = if key = target.id then
      some (mergedProfile host known target source) else before.merged.profiles.find key := by
    intro key
    simp only [hmiddle, Snapshot.setProfile, OrdMap.find_insert]
    split_ifs <;> rfl
  have hself : after.merged.profiles.find target.id =
      some (mergedProfile host known target source) := by
    rw [h.merged target.id (mergedProfile host known target source) (by rw [hfind, if_pos rfl])]
    rw [mergedWith_of_fresh]
    exact fun other hother => htarget.account ▸ hne other hother
  refine ⟨?_, ?_, ?_, h.tidy, ?_, ?_, ?_, ?_⟩
  · rw [h.conflicts, hconflicts, List.append_assoc]
  · rw [h.generation, hgeneration]
  · rw [h.rest, hmiddle]
    rfl
  · intro key profile hprofile
    by_cases hkey : key = target.id
    · rcases htarget.found with hfound | ⟨hnone, -⟩
      · rw [hkey, hfound] at hprofile
        cases hprofile
        rw [hkey, hself, mergedWith_cons_self htarget.account.symm]
      · rw [hkey, hnone] at hprofile
        cases hprofile
    · rw [mergedWith_cons_of_ne (htarget.ne htidy hprofile hkey)]
      exact h.merged key profile (by rw [hfind, if_neg hkey, hprofile])
  · intro key profile hprofile
    by_cases hkey : key = target.id
    · rw [hkey, hself] at hprofile
      cases hprofile
      rcases htarget.found with hfound | ⟨-, hnone, heq⟩
      · exact Or.inl ⟨target, hkey ▸ hfound⟩
      · refine Or.inr ⟨source, List.mem_cons_self, hnone, ?_⟩
        rw [hkey, ← heq]
    · rcases h.new key profile hprofile with ⟨old, hold⟩ | ⟨other, hother, hnone, heq⟩
      · rw [hfind, if_neg hkey] at hold
        exact Or.inl ⟨old, hold⟩
      · refine Or.inr ⟨other, List.mem_cons_of_mem _ hother, ?_, heq⟩
        intro key' profile' hprofile'
        by_cases hkey' : key' = target.id
        · have hmerged := hnone target.id (mergedProfile host known target source)
            (by rw [hfind, if_pos rfl])
          rcases htarget.found with hfound | ⟨hnone, -⟩
          · rw [hkey', hfound] at hprofile'
            cases hprofile'
            exact hmerged
          · rw [hkey', hnone] at hprofile'
            cases hprofile'
        · exact hnone key' profile' (by rw [hfind, if_neg hkey', hprofile'])
  · refine List.forall_mem_cons.mpr ⟨⟨target.id, _, hself, htarget.account⟩, h.present⟩
  · intro c
    rw [List.mem_append, hlisted, h.listed, ← or_and_right]
    refine and_congr_left fun _ => ⟨?_, ?_⟩
    · rintro (hc | ⟨key, profile, other, hprofile, hother, haccount, hc⟩)
      · rcases htarget.found with hfound | ⟨-, -, heq⟩
        · exact ⟨target.id, target, source, hfound, List.mem_cons_self, htarget.account.symm, hc⟩
        · rw [heq] at hc
          exact absurd hc not_disagreement_new
      · rw [hfind] at hprofile
        split_ifs at hprofile with hkey
        · cases hprofile
          exact absurd (haccount.trans htarget.account) (hne other hother)
        · exact ⟨key, profile, other, hprofile, List.mem_cons_of_mem _ hother, haccount, hc⟩
    · rintro ⟨key, profile, other, hprofile, hother, haccount, hc⟩
      rcases List.mem_cons.mp hother with rfl | hother
      · obtain ⟨-, rfl⟩ := htarget.eq htidy hprofile haccount.symm
        exact Or.inl hc
      · refine Or.inr ⟨key, profile, other, ?_, hother, haccount, hc⟩
        have hkey : key ≠ target.id := by
          rintro rfl
          rcases htarget.found with hfound | ⟨hnone, -⟩
          · rw [hfound] at hprofile
            cases hprofile
            exact hne other hother (haccount.trans htarget.account)
          · rw [hnone] at hprofile
            cases hprofile
        rw [hfind, if_neg hkey, hprofile]

/-- **The merge of the sources**, one for each account.

**Proof sketch.** Induction on the sources. The first one is merged into the profile of its account, or
into a new one with a new id; the others have other accounts, so they leave this profile alone and
meet the profiles that were there before. -/
lemma foldl_mergeProfile (host : Host) (haccounts : (sources.map Profile.account).Nodup)
    (hdistinct : ∀ source ∈ sources, DistinctModules host source)
    (htidy : Tidy plan.merged.profiles) (hfresh : Fresh env n plan.merged.profiles sources) :
    ∃ added, Merges host (receipts plan.merged.extra) sources plan
      (sources.foldl (mergeProfile host env) (plan, n)).1 added := by
  induction sources generalizing plan n with
  | nil => exact ⟨[], by simp, rfl, rfl, htidy, fun _ _ h => h, fun _ _ h => Or.inl ⟨_, h⟩, by simp,
      by simp⟩
  | cons source sources ih =>
    obtain ⟨hother, haccounts⟩ := List.nodup_cons.mp haccounts
    obtain ⟨hfirst, hdistinct⟩ := List.forall_mem_cons.mp hdistinct
    obtain ⟨haccount, hfound⟩ := mergeTarget_spec htidy hfresh
    have htarget : Target plan.merged.profiles source (mergeTarget env plan n source) :=
      ⟨haccount, hfound⟩
    obtain ⟨first, hmerged, hconflicts, hgeneration, hlisted⟩ :=
      mergeProfile_spec host env plan n source hfirst
    have hextra : (mergeProfile host env (plan, n) source).1.merged.extra = plan.merged.extra := by
      rw [hmerged]
      rfl
    have hprofiles : (mergeProfile host env (plan, n) source).1.merged.profiles =
        plan.merged.profiles.insert (mergeTarget env plan n source).id (mergedProfile host
          (receipts plan.merged.extra) (mergeTarget env plan n source) source) := by
      rw [hmerged]
      rfl
    have hfresh' := fresh_mergeProfile host hfresh htidy (mergedProfile host
      (receipts plan.merged.extra) (mergeTarget env plan n source) source)
    have htidy' := htarget.tidy host htidy (receipts plan.merged.extra)
    rw [← hprofiles] at hfresh' htidy'
    obtain ⟨added, hrest⟩ := ih haccounts hdistinct htidy' hfresh'
    rw [hextra] at hrest
    refine ⟨first ++ added, Merges.cons htarget htidy ?_ hmerged hconflicts hgeneration hlisted hrest⟩
    intro other hmem heq
    exact hother (List.mem_map.mpr ⟨other, hmem, heq⟩)

end Sources

/-! ### Assets -/

/-- What an asset is merged to. -/
def mergedAsset (host : Host) (known : List Json) (key : Text) («local» incoming : Asset) : Asset :=
  { «local» with
    extra := mergedMetadata host known [] key (u "@asset-extra") «local».extra incoming.extra
    transfer := mergedMetadata host known [] key (u "@asset-transfer") «local».transfer
      incoming.transfer }

/-- What two versions of an asset disagree about. -/
def AssetDisagreement (host : Host) (key : Text) («local» incoming : Asset) (c : Conflict) : Prop :=
  (metadataConflict «local».extra incoming.extra = true ∧
    c = conflictOf host [] key (u "@asset-extra") «local».extra incoming.extra) ∨
  (metadataConflict «local».transfer incoming.transfer = true ∧
    c = conflictOf host [] key (u "@asset-transfer") «local».transfer incoming.transfer)

/-- **The merge of an asset.** -/
lemma mergeAsset_spec {host : Host} {plan merged : MergePlan} {key : Text} {incoming : Asset}
    (h : mergeAsset host plan (key, incoming) = .ok merged) :
    ∃ added, merged.merged = { plan.merged with
        assets := plan.merged.assets.insert key ((plan.merged.assets.find key).elim incoming
          fun «local» => mergedAsset host (receipts plan.merged.extra) key «local» incoming) } ∧
      merged.conflicts = plan.conflicts ++ added ∧ merged.baseGeneration = plan.baseGeneration ∧
      ∀ c, c ∈ added ↔ (∃ «local», plan.merged.assets.find key = some «local» ∧
        AssetDisagreement host key «local» incoming c) ∧
        Json.str c.id ∉ receipts plan.merged.extra := by
  unfold mergeAsset at h
  dsimp only at h
  cases hfind : plan.merged.assets.find key with
  | none =>
    rw [hfind] at h
    cases h
    exact ⟨[], rfl, by simp, rfl, by simp⟩
  | some «local» =>
    rw [hfind] at h
    obtain ⟨-, h⟩ := (check_ok (failure_ne_ok _ _)).mp h
    rw [mergeMetadata_eq] at h
    dsimp only [MergePlan.add_merged] at h
    rw [mergeMetadata_eq] at h
    dsimp only [MergePlan.add_merged] at h
    rw [MergePlan.add_add] at h
    cases h
    refine ⟨_, rfl, rfl, rfl, ?_⟩
    intro c
    rw [List.mem_append, mem_metadataConflicts, mem_metadataConflicts, ← or_and_right]
    simp [AssetDisagreement]

/-- **The merge of the assets**, which are all different. -/
lemma foldlM_mergeAsset {host : Host} {entries : List (Text × Asset)}
    (hkeys : (entries.map Prod.fst).Nodup) {plan merged : MergePlan}
    (h : entries.foldlM (mergeAsset host) plan = .ok merged) :
    ∃ added, merged.merged = { plan.merged with
        assets := entries.foldl (fun assets entry => assets.insert entry.1
          ((assets.find entry.1).elim entry.2 fun «local» =>
            mergedAsset host (receipts plan.merged.extra) entry.1 «local» entry.2))
          plan.merged.assets } ∧
      merged.conflicts = plan.conflicts ++ added ∧ merged.baseGeneration = plan.baseGeneration ∧
      ∀ c, c ∈ added ↔ (∃ entry ∈ entries, ∃ «local»,
        plan.merged.assets.find entry.1 = some «local» ∧
        AssetDisagreement host entry.1 «local» entry.2 c) ∧
        Json.str c.id ∉ receipts plan.merged.extra := by
  induction entries generalizing plan with
  | nil =>
    cases h
    exact ⟨[], rfl, by simp, rfl, by simp⟩
  | cons entry entries ih =>
    obtain ⟨key, incoming⟩ := entry
    obtain ⟨hfresh, hkeys⟩ := List.nodup_cons.mp hkeys
    rw [List.foldlM_cons] at h
    obtain ⟨middle, hfirst, h⟩ := bind_ok.mp h
    obtain ⟨first, hmiddle, hconflicts, hgeneration, hlisted⟩ := mergeAsset_spec hfirst
    obtain ⟨added, hmerged, hconflicts', hgeneration', hadded⟩ := ih hkeys h
    rw [hmiddle] at hmerged hadded
    refine ⟨first ++ added, hmerged, ?_, ?_, ?_⟩
    · rw [hconflicts', hconflicts, List.append_assoc]
    · rw [hgeneration', hgeneration]
    · intro c
      rw [List.mem_append, hlisted, hadded, List.exists_mem_cons_iff, or_and_right]
      refine or_congr_right (and_congr_left fun _ => ⟨?_, ?_⟩)
      · rintro ⟨other, hother, «local», hfind, hc⟩
        have hne : other.1 ≠ key := fun heq => hfresh (List.mem_map.mpr ⟨other, hother, heq⟩)
        rw [OrdMap.find_insert_of_ne hne] at hfind
        exact ⟨other, hother, «local», hfind, hc⟩
      · rintro ⟨other, hother, «local», hfind, hc⟩
        have hne : other.1 ≠ key := fun heq => hfresh (List.mem_map.mpr ⟨other, hother, heq⟩)
        refine ⟨other, hother, «local», ?_, hc⟩
        rw [OrdMap.find_insert_of_ne hne]
        exact hfind

/-! ### The whole plan -/

/-- What the metadata of a snapshot is merged to. -/
def mergedExtra (host : Host) (state incoming : Snapshot) : JObject :=
  mergedMetadata host (receipts state.extra) [] [] (u "@root-extra") state.extra incoming.extra

/-- The receipts that hide conflicts below the root: those of both sides. -/
def knownReceipts (host : Host) (state incoming : Snapshot) : List Json :=
  receipts (mergedExtra host state incoming)

/-- What the two sides of an import disagree about in the metadata of the root. -/
def RootDisagreement (host : Host) (state incoming : Snapshot) (c : Conflict) : Prop :=
  metadataConflict state.extra incoming.extra = true ∧
    c = conflictOf host [] [] (u "@root-extra") state.extra incoming.extra

/-- What the two sides of an import disagree about elsewhere. -/
def ScopeDisagreement (host : Host) (state incoming : Snapshot) (c : Conflict) : Prop :=
  (metadataConflict state.transfer incoming.transfer = true ∧
    c = conflictOf host [] [] (u "@root-transfer") state.transfer incoming.transfer) ∨
  (∃ key profile source, state.profiles.find key = some profile ∧
    profileOf incoming profile.account = some source ∧ ProfileDisagreement host profile source c) ∨
  ∃ key asset other, state.assets.find key = some asset ∧ incoming.assets.find key = some other ∧
    AssetDisagreement host key asset other c

/-- What an import finds: each scope merged with its other side, and the disagreements without
receipt as conflicts, that of the root first. -/
structure Imported (host : Host) (state incoming : Snapshot) (plan : MergePlan) : Prop where
  generation : plan.baseGeneration = state.generation
  device : plan.merged.deviceId = state.deviceId
  extra : plan.merged.extra = mergedExtra host state incoming
  transfer : plan.merged.transfer = mergedMetadata host (knownReceipts host state incoming) [] []
    (u "@root-transfer") state.transfer incoming.transfer
  tidy : Tidy plan.merged.profiles
  profile : ∀ key profile, state.profiles.find key = some profile →
    plan.merged.profiles.find key = some ((profileOf incoming profile.account).elim profile
      (mergedProfile host (knownReceipts host state incoming) profile))
  new : ∀ key profile, plan.merged.profiles.find key = some profile →
    (∃ old, state.profiles.find key = some old) ∨
      ∃ source ∈ incoming.profiles.values, (∀ key profile, state.profiles.find key = some profile →
        profile.account ≠ source.account) ∧
        profile = mergedProfile host (knownReceipts host state incoming)
          { id := key, account := source.account } source
  present : ∀ source ∈ incoming.profiles.values, ∃ key profile,
    plan.merged.profiles.find key = some profile ∧ profile.account = source.account
  asset : ∀ key, plan.merged.assets.find key = (incoming.assets.find key).elim
    (state.assets.find key) fun other => some ((state.assets.find key).elim other fun asset =>
      mergedAsset host (knownReceipts host state incoming) key asset other)
  conflicts : ∃ root rest, plan.conflicts = root ++ rest ∧
    (∀ c, c ∈ root ↔ RootDisagreement host state incoming c ∧ Json.str c.id ∉ receipts state.extra) ∧
    ∀ c, c ∈ rest ↔ ScopeDisagreement host state incoming c ∧
      Json.str c.id ∉ knownReceipts host state incoming

/-- The supported modules of an accepted snapshot have distinct records. -/
lemma Valid.distinctModules {host : Host} {snapshot : Snapshot} (h : Valid host snapshot)
    {source : Profile} (hsource : source ∈ snapshot.profiles.values) : DistinctModules host source := by
  intro id module hmodule hsupported
  obtain ⟨key, hkey⟩ := OrdMap.mem_values_iff.mp hsource
  have hvalid := h.module key source id module hkey hmodule
  rw [hvalid.key_eq] at hsupported
  obtain ⟨-, htags⟩ := (check_ok (failure_ne_ok _ _)).mp (hvalid.validateTags hsupported)
  exact ((validateRecords_iff _ _ _).mp htags).2.1

/-- The profiles of an accepted snapshot have distinct accounts. -/
lemma Valid.nodup_accounts {host : Host} {snapshot : Snapshot} (h : Valid host snapshot) :
    (snapshot.profiles.values.map Profile.account).Nodup := by
  unfold OrdMap.values
  rw [List.map_map]
  refine List.pairwise_map.mpr (snapshot.profiles.sorted.imp_of_mem ?_)
  intro first second hfirst hsecond hlt heq
  exact hlt.ne (h.tidy.account first.1 first.2 second.1 second.2 (OrdMap.find_eq_some_iff.mpr hfirst)
    (OrdMap.find_eq_some_iff.mpr hsecond) heq)

lemma mergeRoot_eq (host : Host) (state incoming : Snapshot) :
    (mergeRoot host state incoming).merged =
        { state with
          extra := mergedExtra host state incoming
          transfer := mergedMetadata host (knownReceipts host state incoming) [] []
            (u "@root-transfer") state.transfer incoming.transfer } ∧
      (mergeRoot host state incoming).baseGeneration = state.generation ∧
      (mergeRoot host state incoming).conflicts =
        metadataConflicts host (receipts state.extra) [] [] (u "@root-extra") state.extra
          incoming.extra ++
        metadataConflicts host (knownReceipts host state incoming) [] [] (u "@root-transfer")
          state.transfer incoming.transfer := by
  unfold mergeRoot
  dsimp only
  rw [mergeMetadata_eq]
  dsimp only [MergePlan.add_merged]
  rw [mergeMetadata_eq]
  exact ⟨rfl, rfl, rfl⟩

/-- **What an import finds**, told from both sides. The store's state is valid, as every state that
was committed or loaded is, and new profiles get new identities. -/
theorem prepareImport_imported {host : Host} {env : Env} {state incoming : Snapshot}
    {plan : MergePlan} (hstate : Valid host state)
    (hfresh : Fresh env 0 state.profiles incoming.profiles.values)
    (h : prepareImport host env state incoming = .ok plan) :
    Imported host state incoming plan ∧ Valid host incoming ∧ Valid host plan.merged := by
  obtain ⟨⟨⟩, hincoming, h⟩ := bind_ok.mp h
  obtain ⟨⟨⟩, -, h⟩ := bind_ok.mp h
  obtain ⟨merged, hassets, h⟩ := bind_ok.mp h
  obtain ⟨⟨⟩, hmerged, h⟩ := bind_ok.mp h
  have hvalid := Valid.of_validateSnapshot hincoming
  obtain ⟨hroot, hgeneration, hconflicts⟩ := mergeRoot_eq host state incoming
  have hknown : receipts (mergeRoot host state incoming).merged.extra =
      knownReceipts host state incoming := by
    rw [hroot]
    rfl
  have hprofiles : (mergeRoot host state incoming).merged.profiles = state.profiles := by
    rw [hroot]
  have hassetsRoot : (mergeRoot host state incoming).merged.assets = state.assets := by
    rw [hroot]
  obtain ⟨added, hfold⟩ := foldl_mergeProfile host hvalid.nodup_accounts
    (fun source hsource => hvalid.distinctModules hsource) (hprofiles.symm ▸ hstate.tidy)
    (hprofiles.symm ▸ hfresh)
  obtain ⟨addedAssets, hmergedAssets, hconflictsAssets, hgenerationAssets, hlistedAssets⟩ :=
    foldlM_mergeAsset incoming.assets.nodup_keys hassets
  have hrest := hfold.rest
  have hextra : (incoming.profiles.values.foldl (mergeProfile host env)
      (mergeRoot host state incoming, 0)).1.merged.extra =
        (mergeRoot host state incoming).merged.extra := by
    rw [hrest]
  have hassetsFold : (incoming.profiles.values.foldl (mergeProfile host env)
      (mergeRoot host state incoming, 0)).1.merged.assets = state.assets := by
    rw [hrest]
    exact hassetsRoot
  rw [hextra, hknown, hassetsFold] at hmergedAssets hlistedAssets
  cases h
  refine ⟨⟨?_, ?_, ?_, ?_, ?_, ?_, ?_, ?_, ?_, ?_⟩, hvalid, Valid.of_validateSnapshot hmerged⟩
  · change merged.baseGeneration = _
    rw [hgenerationAssets, hfold.generation, hgeneration]
  · change merged.merged.deviceId = _
    rw [hmergedAssets, hrest, hroot]
  · change merged.merged.extra = _
    rw [hmergedAssets, hrest, hroot]
  · change merged.merged.transfer = _
    rw [hmergedAssets, hrest, hroot]
  · change Tidy merged.merged.profiles
    rw [hmergedAssets]
    exact hfold.tidy
  · intro key profile hprofile
    change merged.merged.profiles.find key = _
    rw [hmergedAssets, ← hknown]
    exact hfold.merged key profile (hprofiles.symm ▸ hprofile)
  · intro key profile hprofile
    change merged.merged.profiles.find key = _ at hprofile
    rw [hmergedAssets] at hprofile
    rw [← hknown, ← hprofiles]
    exact hfold.new key profile hprofile
  · intro source hsource
    obtain ⟨key, profile, hprofile, haccount⟩ := hfold.present source hsource
    refine ⟨key, profile, ?_, haccount⟩
    change merged.merged.profiles.find key = _
    rw [hmergedAssets]
    exact hprofile
  · intro key
    change merged.merged.assets.find key = _
    rw [hmergedAssets]
    exact OrdMap.find_foldl_entries_update (fun key before other => before.elim other fun asset =>
      mergedAsset host (knownReceipts host state incoming) key asset other) incoming.assets
      state.assets key
  · refine ⟨metadataConflicts host (receipts state.extra) [] [] (u "@root-extra") state.extra
      incoming.extra, metadataConflicts host (knownReceipts host state incoming) [] []
      (u "@root-transfer") state.transfer incoming.transfer ++ (added ++ addedAssets), ?_, ?_, ?_⟩
    · change merged.conflicts = _
      rw [hconflictsAssets, hfold.conflicts, hconflicts]
      simp
    · intro c
      exact mem_metadataConflicts
    · intro c
      rw [List.mem_append, List.mem_append, hfold.listed, hlistedAssets, mem_metadataConflicts,
        hknown, hprofiles, ← or_and_right, ← or_and_right]
      refine and_congr_left fun _ => or_congr_right (or_congr ?_ ?_)
      · constructor
        · rintro ⟨key, profile, source, hprofile, hsource, haccount, hc⟩
          obtain ⟨key', hkey'⟩ := OrdMap.mem_values_iff.mp hsource
          refine ⟨key, profile, source, hprofile, ?_, hc⟩
          rw [← haccount]
          exact profileOf_eq hvalid.tidy hkey'
        · rintro ⟨key, profile, source, hprofile, hsource, hc⟩
          obtain ⟨key', hkey', haccount⟩ := find_of_profileOf hsource
          exact ⟨key, profile, source, hprofile, OrdMap.mem_values_iff.mpr ⟨key', hkey'⟩, haccount, hc⟩
      · constructor
        · rintro ⟨entry, hentry, asset, hasset, hc⟩
          exact ⟨entry.1, asset, entry.2, hasset, OrdMap.find_eq_some_iff.mpr hentry, hc⟩
        · rintro ⟨key, asset, other, hasset, hother, hc⟩
          exact ⟨(key, other), OrdMap.find_eq_some_iff.mp hother, asset, hasset, hc⟩

end LocalData
