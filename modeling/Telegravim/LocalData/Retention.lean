import Telegravim.LocalData.Resolve
import Telegravim.LocalData.SavedTags

set_option autoImplicit false

/-!
# Local data: records are never erased

A record of a module of a supported version is still there after a local write or an import, whatever
the caller returns and whatever is chosen. Its version never goes back, and it is larger exactly when
the record changed; and what changes a record is told.

## Main definitions

* `LocalData.Follows` — a record and what became of it.
* `LocalData.Retained` — the records of a module before and after a step, with what may change one.

## Main results

* `LocalData.changedRecords_retained` — a local write erases no record.
* `LocalData.lt_of_compare_before` — a record that is replaced by an incoming one has a smaller
  version.
* `LocalData.records_never_erased` — local writes and imports erase no record.
* `LocalData.version_grows_without_change` — a version grows without a write or a resolution.
-/

namespace LocalData

open Text

/-! ### Versions -/

/-- What became of a record: it is the same, or its version is larger. -/
def Follows (record record' : JObject) : Prop := record' = record ∨ counter record < counter record'

lemma Follows.refl (record : JObject) : Follows record record := Or.inl rfl

lemma Follows.trans {first second third : JObject} (h : Follows first second)
    (h' : Follows second third) : Follows first third := by
  rcases h with rfl | h
  · exact h'
  · rcases h' with rfl | h'
    · exact Or.inr h
    · exact Or.inr (h.trans h')

/-- A version never goes back, and it is larger exactly when the record changed. -/
lemma Follows.iff {record record' : JObject} (h : Follows record record') :
    counter record ≤ counter record' ∧ (counter record < counter record' ↔ record' ≠ record) := by
  rcases h with rfl | h
  · exact ⟨le_rfl, iff_of_false (lt_irrefl _) (by simp)⟩
  · refine ⟨h.le, iff_of_true h ?_⟩
    rintro rfl
    exact lt_irrefl _ h

/-- The records before and after a step: each is still there and follows, and when it changed then
for a reason. -/
def Retained (reason : Text → JObject → JObject → Prop) (before after : OrdMap Text JObject) : Prop :=
  ∀ id record, before.find id = some record → ∃ record', after.find id = some record' ∧
    Follows record record' ∧ (record' ≠ record → reason id record record')

lemma Retained.refl (reason : Text → JObject → JObject → Prop) (records : OrdMap Text JObject) :
    Retained reason records records :=
  fun _ record h => ⟨record, h, Follows.refl record, fun hne => absurd rfl hne⟩

/-- Whether the pass over the bindings has marked a record deleted. -/
def Unbound (record' : JObject) : Prop :=
  ∃ written, activeBinding written = true ∧ Tombstoned written record'

/-- The pass over the bindings erases no record. -/
lemma Retained.passed {reason : Text → JObject → JObject → Prop}
    {before middle after : OrdMap Text JObject} (h : Retained reason before middle)
    (hpassed : Passed middle after) :
    Retained (fun id record record' => reason id record record' ∨ Unbound record') before after := by
  intro id record hrecord
  obtain ⟨written, hwritten, hfollows, hreason⟩ := h id record hrecord
  rcases hpassed id with heq | ⟨old, deleted, hold, hactive, hdeleted, htombstoned⟩
  · exact ⟨written, heq.trans hwritten, hfollows, fun hne => Or.inl (hreason hne)⟩
  · rw [hold] at hwritten
    cases hwritten
    exact ⟨deleted, hdeleted, hfollows.trans (Or.inr htombstoned.later),
      fun _ => Or.inr ⟨_, hactive, htombstoned⟩⟩

/-- A counter of a valid vector is not negative. -/
lemma counter_nonneg {record : JObject} (h : validVector (record.find (u "version_vector")) = true)
    (device : Text) : 0 ≤ counter record device := by
  simp only [validVector, Bool.and_eq_true, List.all_eq_true] at h
  unfold counter
  cases hfind : (versionVector record).find device with
  | none => simp [Json.asDouble]
  | some value =>
    have hentry := (h.2.2 _ (OrdMap.find_eq_some_iff.mp hfind)).2
    simp only [integerIn, Bool.and_eq_true, decide_eq_true_eq] at hentry
    cases value <;> simp only [Json.asDouble] at hentry ⊢ <;> linarith [hentry.1.1]

/-- **A record that is replaced by an incoming one** has a smaller version. -/
lemma lt_of_compare_before {«local» incoming : JObject}
    (hincoming : ∀ device, 0 ≤ counter incoming device)
    (h : compare «local» incoming = .before) : counter «local» < counter incoming := by
  unfold compare at h
  dsimp only at h
  split_ifs at h with hboth hgreater hless
  rw [Bool.not_eq_true, List.any_eq_false] at hgreater
  have hle : ∀ device, counter «local» device ≤ counter incoming device := by
    intro device
    cases hfind : (versionVector «local»).find device with
    | none =>
      have hzero : counter «local» device = 0 := by simp [counter, hfind, Json.asDouble]
      rw [hzero]
      exact hincoming device
    | some value =>
      have hentry := hgreater _ (OrdMap.find_eq_some_iff.mp hfind)
      simp only [decide_eq_true_eq, not_lt, gt_iff_lt] at hentry
      unfold counter
      rw [hfind]
      exact hentry
  refine Pi.lt_def.mpr ⟨hle, ?_⟩
  rw [Bool.or_eq_true, List.any_eq_true, List.any_eq_true] at hless
  rcases hless with ⟨entry, hentry, hlt⟩ | ⟨entry, hentry, hlt⟩
  · refine ⟨entry.1, ?_⟩
    rw [decide_eq_true_eq] at hlt
    unfold counter
    rw [OrdMap.find_eq_some_iff.mpr hentry]
    exact hlt
  · refine ⟨entry.1, ?_⟩
    rw [decide_eq_true_eq] at hlt
    unfold counter
    rw [OrdMap.find_eq_some_iff.mpr hentry]
    exact hlt

/-! ### Local writes -/

/-- Whether the caller changed a record: it returned another value under its id, or it dropped it. -/
def WrittenBy (returned : JObject) (id : Text) (record : JObject) : Prop :=
  (∃ value ∈ arrayField returned (u "records"), ∃ drawn,
    recordId (completeRecord drawn value).1 = id ∧ (completeRecord drawn value).1 ≠ record) ∨
  ((∀ value ∈ arrayField returned (u "records"), recordId value.toObject ≠ id) ∧
    isDeleted record = false)

section Write

variable {newId : ℕ → Text} {device id : Text} {previous after result : OrdMap Text JObject}

/-- A record that the caller gave an id keeps it. -/
lemma recordId_completeRecord {value : Json} (h : recordId value.toObject ≠ []) (drawn : Text) :
    recordId (completeRecord drawn value).1 = recordId value.toObject := by
  unfold completeRecord
  simp only [if_neg h]
  split_ifs
  · rfl
  · unfold recordId
    rw [OrdMap.find_insert_of_ne deletedField_ne.1.symm]

/-- A record that is written follows the one it had before, and has its id. -/
lemma writeRecord_spec {record written : JObject} (hid : recordId record = id)
    (h : writeRecord device previous id record = .ok written) :
    recordId written = id ∧ ∀ old, previous.find id = some old →
      Follows old written ∧ (written ≠ old → record ≠ old) := by
  unfold writeRecord at h
  split_ifs at h with hsame
  · cases h
    refine ⟨hid, fun old hold => ?_⟩
    rw [hold] at hsame
    cases hsame
    exact ⟨Follows.refl _, fun hne => hne⟩
  · refine ⟨?_, fun old hold => ⟨Or.inr ?_, fun _ heq => hsame (heq ▸ hold)⟩⟩
    · rw [recordId_advance h, ← hid]
      unfold recordId
      rw [OrdMap.find_insert_of_ne vectorField_ne.1.symm]
    · have hlt := lt_of_advance h
      rw [hold, Option.getD_some, counter_eq, versionVector_insert, ← counter_eq] at hlt
      exact hlt

/-- A record that the caller dropped follows, and has its id. -/
lemma buryRecord_spec {record buried : JObject} (h : buryRecord device record = .ok buried) :
    recordId buried = recordId record ∧ Follows record buried ∧
      (buried ≠ record → isDeleted record = false) := by
  unfold buryRecord at h
  split_ifs at h with hdeleted
  · cases h
    exact ⟨rfl, Follows.refl _, fun hne => absurd rfl hne⟩
  · refine ⟨?_, Or.inr ?_, fun _ => Bool.eq_false_iff.mpr hdeleted⟩
    · rw [recordId_advance h]
      unfold recordId
      rw [OrdMap.find_insert_of_ne deletedField_ne.1.symm]
    · have hlt := lt_of_advance h
      rw [counter_eq, versionVector_insert_of_ne deletedField_ne.2.2.1.symm, ← counter_eq] at hlt
      exact hlt

/-- **The loop over the records that the caller returned**: each follows the record it had before,
and each id that the caller gave is there.

**Proof sketch.** Induction on the records still to write: a record that is written is new among those
written so far, and the ones written so far stay. -/
lemma writeRecords_spec (all : List Json) {values : List Json} {n : ℕ} (hall : ∀ value ∈ values, value ∈ all)
    (hkeyed : Keyed after)
    (hafter : ∀ id written old, after.find id = some written → previous.find id = some old →
      Follows old written ∧ (written ≠ old → ∃ value ∈ all, ∃ drawn,
        recordId (completeRecord drawn value).1 = id ∧ (completeRecord drawn value).1 ≠ old))
    (h : writeRecords newId device previous values n after = .ok result) :
    Keyed result ∧
      (∀ id written old, result.find id = some written → previous.find id = some old →
        Follows old written ∧ (written ≠ old → ∃ value ∈ all, ∃ drawn,
          recordId (completeRecord drawn value).1 = id ∧ (completeRecord drawn value).1 ≠ old)) ∧
      (∀ id written, after.find id = some written → ∃ written, result.find id = some written) ∧
      ∀ value ∈ values, recordId value.toObject ≠ [] →
        ∃ written, result.find (recordId value.toObject) = some written := by
  induction values generalizing n after with
  | nil =>
    cases h
    exact ⟨hkeyed, hafter, fun _ written h => ⟨written, h⟩, by simp⟩
  | cons value values ih =>
    obtain ⟨hvalue, hvalues⟩ := List.forall_mem_cons.mp hall
    obtain ⟨hfresh, h⟩ := (check_ok (failure_ne_ok _ _)).mp h
    split at h
    · cases h
    · rename_i written hwritten
      obtain ⟨hid, hfollows⟩ := writeRecord_spec rfl hwritten
      obtain ⟨hresult, hspec, hkept, hpresent⟩ := ih hvalues (hkeyed.insert hid) (by
        intro id other old hother hold
        rw [OrdMap.find_insert] at hother
        split_ifs at hother with heq
        · cases hother
          subst heq
          obtain ⟨hold', hne⟩ := hfollows old hold
          exact ⟨hold', fun hchanged => ⟨value, hvalue, newId n, rfl, hne hchanged⟩⟩
        · exact hafter id other old hother hold) h
      refine ⟨hresult, hspec, ?_, List.forall_mem_cons.mpr ⟨?_, hpresent⟩⟩
      · intro id other hother
        by_cases heq : id = recordId (completeRecord (newId n) value).1
        · exact hkept id written (by rw [heq, OrdMap.find_insert_self])
        · exact hkept id other (by rw [OrdMap.find_insert_of_ne heq, hother])
      · intro hne
        rw [← recordId_completeRecord hne (newId n)]
        exact hkept _ written (OrdMap.find_insert_self _ _ _)

/-- **The loop over the records there were before**: each is kept, or it follows as a tombstone. -/
lemma buryRecords_spec {rest : List (Text × JObject)}
    (hrest : ∀ entry ∈ rest, recordId entry.2 = entry.1) (hnodup : (rest.map Prod.fst).Nodup)
    (hkeyed : Keyed after) (h : buryRecords device rest after = .ok result) :
    Keyed result ∧ (∀ id written, after.find id = some written → result.find id = some written) ∧
      ∀ entry ∈ rest, after.find entry.1 = none → ∃ buried, result.find entry.1 = some buried ∧
        Follows entry.2 buried ∧ (buried ≠ entry.2 → isDeleted entry.2 = false) := by
  induction rest generalizing after with
  | nil =>
    cases h
    exact ⟨hkeyed, fun _ _ h => h, by simp⟩
  | cons entry rest ih =>
    obtain ⟨id, record⟩ := entry
    obtain ⟨hid, hrest⟩ := List.forall_mem_cons.mp hrest
    obtain ⟨hfresh, hnodup⟩ := List.nodup_cons.mp hnodup
    unfold buryRecords at h
    split_ifs at h with hthere
    · obtain ⟨hresult, hkept, hburied⟩ := ih hrest hnodup hkeyed h
      refine ⟨hresult, hkept, List.forall_mem_cons.mpr ⟨fun hnone => ?_, hburied⟩⟩
      rw [OrdMap.contains_eq_false_iff.mpr hnone] at hthere
      cases hthere
    · split at h
      · cases h
      · rename_i buried hbury
        obtain ⟨hbid, hfollows, hne⟩ := buryRecord_spec hbury
        obtain ⟨hresult, hkept, hburied⟩ := ih hrest hnodup (hkeyed.insert (hbid.trans hid)) h
        refine ⟨hresult, ?_, List.forall_mem_cons.mpr ⟨fun _ => ?_, ?_⟩⟩
        · intro other written hother
          refine hkept other written ?_
          rw [OrdMap.find_insert_of_ne, hother]
          rintro rfl
          rw [OrdMap.contains_iff.mpr ⟨written, hother⟩] at hthere
          exact hthere rfl
        · exact ⟨buried, hkept id buried (OrdMap.find_insert_self _ _ _), hfollows, hne⟩
        · intro other hother hnone
          refine hburied other hother ?_
          rw [OrdMap.find_insert_of_ne, hnone]
          exact fun heq => hfresh (List.mem_map.mpr ⟨other, hother, heq⟩)

/-- **A local write erases no record**, whatever the caller returns. -/
theorem changedRecords_retained {before module : JObject}
    (hids : ∀ id record, (records before).find id = some record → id ≠ [])
    (h : changedRecords newId device before module = .ok result) :
    Keyed result ∧
      Retained (fun id record _ => WrittenBy module id record) (records before) result := by
  unfold changedRecords at h
  split at h
  · cases h
  · rename_i after hafter
    obtain ⟨hkeyed, hspec, -, hpresent⟩ := writeRecords_spec (arrayField module (u "records"))
      (fun _ h => h) Keyed.empty (by simp) hafter
    obtain ⟨hresult, hkept, hburied⟩ := buryRecords_spec
      (fun entry hentry => keyed_records before entry.1 entry.2 (OrdMap.find_eq_some_iff.mpr hentry))
      (records before).nodup_keys hkeyed h
    refine ⟨hresult, fun id record hrecord => ?_⟩
    cases hfind : after.find id with
    | some written =>
      obtain ⟨hfollows, hreason⟩ := hspec id written record hfind hrecord
      exact ⟨written, hkept id written hfind, hfollows, fun hne => Or.inl (hreason hne)⟩
    | none =>
      obtain ⟨buried, hfindB, hfollows, hreason⟩ := hburied (id, record)
        (OrdMap.find_eq_some_iff.mp hrecord) hfind
      refine ⟨buried, hfindB, hfollows, fun hne => Or.inr ⟨?_, hreason hne⟩⟩
      intro value hvalue heq
      obtain ⟨written, hwritten⟩ := hpresent value hvalue (heq ▸ hids id record hrecord)
      rw [heq, hfind] at hwritten
      cases hwritten

end Write

/-- A module of a snapshot and what became of it. -/
def ModuleRetained (reason : Text → JObject → JObject → Prop) (key id : Text) (module : JObject)
    (next : Snapshot) : Prop :=
  ∃ profile' module', next.profiles.find key = some profile' ∧
    profile'.modules.find id = some module' ∧ Retained reason (records module) (records module')

lemma Retained.mono {reason reason' : Text → JObject → JObject → Prop}
    (himp : ∀ id record record', reason id record record' → reason' id record record')
    {before after : OrdMap Text JObject} (h : Retained reason before after) :
    Retained reason' before after := by
  intro id record hrecord
  obtain ⟨record', hfind, hfollows, hreason⟩ := h id record hrecord
  exact ⟨record', hfind, hfollows, fun hne => himp id record record' (hreason hne)⟩

/-- Why a local write changed a record: the caller changed it, or the pass over the bindings did. -/
def WriteReason (host : Host) (env : Env) (state : Snapshot) (account : Account) (id : Text)
    (change : JObject → Result JObject) (rid : Text) (record record' : JObject) : Prop :=
  (∃ returned, change (moduleToWrite host env state account id) = .ok returned ∧
    WrittenBy returned rid record) ∨ Unbound record'

/-- **A local write erases no record of the snapshot.**

**Proof sketch.** The module of the account is changed record by record, and then by the pass over its
bindings; every other module stays. The identity of a new profile is new, so no profile is replaced. -/
theorem mutate_retained {host : Host} {env : Env} {state next : Snapshot} {account : Account}
    {id : Text} {change : JObject → Result JObject} {assets : OrdMap Text Asset}
    (hstate : Valid host state) (hfresh : state.profiles.find (env.newId 0) = none)
    (h : mutateWithAssets host env state account id change assets = .ok next) {key id' : Text}
    {profile : Profile} {module : JObject} (hprofile : state.profiles.find key = some profile)
    (hmodule : profile.modules.find id' = some module) :
    ModuleRetained (WriteReason host env state account id change) key id' module next := by
  rcases mutateWithAssets_ok h with rfl | ⟨write, normalized, hprepared, hnormalized, hcommit⟩
  · exact ⟨profile, module, hprofile, hmodule, Retained.refl _ _⟩
  obtain ⟨rfl, -⟩ := eq_of_commit hcommit
  obtain ⟨nextAssets, returned, after, hsupported, hreturned, hafter, -, rfl⟩ :=
    prepareWrite_some hprepared
  by_cases hkey : key = (profileToWrite env state account).id
  · have hfound : profileToWrite env state account = profile := by
      unfold profileToWrite at hkey ⊢
      cases hprofileOf : profileOf state account with
      | none =>
        rw [hprofileOf, Option.getD_none] at hkey
        rw [hkey, hfresh] at hprofile
        cases hprofile
      | some found =>
        rw [hprofileOf, Option.getD_some] at hkey
        obtain ⟨key', hkey', -⟩ := find_of_profileOf hprofileOf
        rw [hkey, hstate.tidy.key key' found hkey', hkey'] at hprofile
        exact Option.some.inj hprofile
    by_cases hid : id' = id
    · subst hid
      have hbefore : moduleToWrite host env state account id' = module := by
        unfold moduleToWrite
        rw [hfound, hmodule, Option.getD_some]
      rw [hbefore] at hsupported hreturned hafter
      obtain ⟨hkeyed, hretained⟩ := changedRecords_retained
        (fun rid record hrecord => ne_nil_of_validId
          (hstate.ids hprofile hmodule hsupported hrecord).1) hafter
      have hpassed := normalizeBindings_passed hnormalized
      rw [records_setRecords hkeyed] at hpassed
      refine ⟨(profileToWrite env state account).setModule id' normalized, normalized, ?_,
        OrdMap.find_insert_self _ _ _, (hretained.passed hpassed).mono fun rid record record' hreason => ?_⟩
      · rw [hkey]
        exact OrdMap.find_insert_self _ _ _
      · refine hreason.imp (fun hwritten => ⟨returned, ?_, hwritten⟩) fun h => h
        rw [hbefore]
        exact hreturned
    · refine ⟨(profileToWrite env state account).setModule id normalized, module, ?_, ?_,
        Retained.refl _ _⟩
      · rw [hkey]
        exact OrdMap.find_insert_self _ _ _
      · change (OrdMap.insert _ _ _).find id' = some module
        rw [OrdMap.find_insert_of_ne hid, hfound]
        exact hmodule
  · refine ⟨profile, module, ?_, hmodule, Retained.refl _ _⟩
    change (OrdMap.insert _ _ _).find key = some profile
    rw [OrdMap.find_insert_of_ne hkey]
    exact (find_profilesToWrite hkey).trans hprofile

/-! ### Imports -/

/-- Why an import changed a record: the incoming version follows it, a conflict about it was resolved,
or the pass over the bindings changed it. -/
def ImportReason (plan : MergePlan) (incoming : Snapshot) (account : Account) (key id rid : Text)
    (record record' : JObject) : Prop :=
  (∃ source module remote, profileOf incoming account = some source ∧
    source.modules.find id = some module ∧ (records module).find rid = some remote ∧
    compare record remote = .before) ∨
  (∃ c ∈ plan.conflicts, c.profileId = key ∧ c.moduleId = id ∧ c.recordId = rid) ∨ Unbound record'

section Import

variable {host : Host} {state incoming : Snapshot} {plan : MergePlan} {key id : Text}
  {profile : Profile} {module : JObject}

/-- Whether the other side of an import has a module in no version that is not supported. -/
def SupportedThere (host : Host) (incoming : Snapshot) (account : Account) (id : Text) : Prop :=
  ∀ source other, profileOf incoming account = some source → source.modules.find id = some other →
    host.supportedModule id (schemaVersion other) = true

/-- The merge of a module erases no record. -/
lemma mergedModule_retained {known : List Json} {source : Profile} {other : JObject}
    {reason : Text → JObject → JObject → Prop}
    (hreason : ∀ rid record remote, (records other).find rid = some remote →
      compare record remote = .before → reason rid record remote)
    (hvalid : Valid host incoming) (hsource : profileOf incoming profile.account = some source)
    (hother : source.modules.find id = some other)
    (hsupported : host.supportedModule id (schemaVersion other) = true) :
    Retained reason (records module) (records (mergedModule host known key id module other)) := by
  obtain ⟨key', hkey', -⟩ := find_of_profileOf hsource
  have hdistinct : DistinctRecords other := hvalid.distinctModules
    (OrdMap.mem_values_iff.mpr ⟨key', hkey'⟩) id other hother hsupported
  unfold mergedModule
  split_ifs with hsame
  · exact Retained.refl _ _
  intro rid record hrecord
  have hkeyed : Keyed (mergedRecords (records module) (arrayField other (u "records"))) := by
    intro rid' found hfound
    by_cases hthere : ∃ value ∈ arrayField other (u "records"), recordId value.toObject = rid'
    · obtain ⟨value, hvalue, rfl⟩ := hthere
      rw [find_mergedRecords hdistinct _ hvalue] at hfound
      cases hfound
      unfold newerRecord
      split
      · rfl
      · rename_i «local» hlocal
        split_ifs
        · rfl
        · exact keyed_records module _ _ hlocal
    · rw [find_mergedRecords_of_ne fun value hvalue heq => hthere ⟨value, hvalue, heq⟩] at hfound
      exact keyed_records module _ _ hfound
  rw [records_setRecords hkeyed]
  by_cases hthere : ∃ value ∈ arrayField other (u "records"), recordId value.toObject = rid
  · obtain ⟨value, hvalue, rfl⟩ := hthere
    refine ⟨_, find_mergedRecords hdistinct _ hvalue, ?_⟩
    rw [hrecord]
    unfold newerRecord
    dsimp only
    split_ifs with hbefore
    · have hremote := hdistinct.find hvalue
      have hvector := (hvalid.ids hkey' hother hsupported hremote).2
      simp only [LocalData.validRecord, Bool.and_eq_true] at hvector
      exact ⟨Or.inr (lt_of_compare_before (counter_nonneg hvector.1.2) hbefore),
        fun _ => hreason _ record _ hremote hbefore⟩
    · exact ⟨Follows.refl _, fun hne => absurd rfl hne⟩
  · refine ⟨record, ?_, Follows.refl _, fun hne => absurd rfl hne⟩
    rw [find_mergedRecords_of_ne fun value hvalue heq => hthere ⟨value, hvalue, heq⟩]
    exact hrecord

/-- A conflict about a module of versions that are supported on both sides is about its metadata, or
about a record as it was before the import. -/
lemma Imported.record_of_conflict (h : Imported host state incoming plan)
    (hstate : Valid host state) (hprofile : state.profiles.find key = some profile)
    (hmodule : profile.modules.find id = some module)
    (hsupported : host.supportedModule id (schemaVersion module) = true)
    (hthere : SupportedThere host incoming profile.account id) {c : Conflict}
    (hc : c ∈ plan.conflicts) (hkey : key = c.profileId) (hid : id = c.moduleId) :
    c.recordId ∈ metadataScopes ∨ ((records module).find c.recordId = some c.local ∧
      recordId c.incoming = c.recordId ∧ c.recordId ≠ []) := by
  obtain ⟨root, rest, hconflicts, hroot, hrest⟩ := h.conflicts
  rw [hconflicts, List.mem_append] at hc
  rcases hc with hc | hc
  · obtain ⟨⟨-, rfl⟩, -⟩ := (hroot c).mp hc
    exact Or.inl (by simp [conflictOf, metadataScopes])
  · obtain ⟨hdisagree, -⟩ := (hrest c).mp hc
    rcases hdisagree with ⟨-, rfl⟩ | ⟨key', profile', source, hprofile', hsource, hdisagree⟩ |
      ⟨key', asset, other, -, -, ⟨-, rfl⟩ | ⟨-, rfl⟩⟩
    · exact Or.inl (by simp [conflictOf, metadataScopes])
    · rcases hdisagree with ⟨-, rfl⟩ | ⟨-, rfl⟩ |
        ⟨id', other, module', hother, hmodule', hdisagree⟩
      · exact Or.inl (by simp [conflictOf, metadataScopes])
      · exact Or.inl (by simp [conflictOf, metadataScopes])
      · obtain ⟨hscope, hscope'⟩ := hdisagree.scope
        rw [hstate.tidy.key key' profile' hprofile', ← hkey] at hscope
        rw [← hid] at hscope'
        subst hscope hscope'
        obtain rfl : profile' = profile := Option.some.inj (hprofile'.symm.trans hprofile)
        obtain rfl : module' = module := Option.some.inj (hmodule'.symm.trans hmodule)
        have hboth : bothSupported host id module' other = true := by
          rw [bothSupported, hthere source other hsource hother, hsupported]
          rfl
        rcases hdisagree.2 with ⟨hnot, -⟩ | ⟨-, ⟨-, rfl⟩ | ⟨value, -, record, hrecord, -, rfl⟩⟩
        · rw [hboth] at hnot
          cases hnot
        · exact Or.inl (by simp [conflictOf, metadataScopes])
        · exact Or.inr ⟨hrecord, rfl, ne_nil_of_validId
            (hstate.ids hprofile hmodule hsupported hrecord).1⟩
    · exact Or.inl (by simp [conflictOf, metadataScopes])
    · exact Or.inl (by simp [conflictOf, metadataScopes])

/-- **An import erases no record** of a module that is supported on both sides, whatever is chosen.

**Proof sketch.** The merge keeps each record or replaces it by one that follows it. A conflict about a
record has the record as it was before the import as its local side, so what it is resolved to follows
that record; other resolutions leave the records of the module alone. The pass over the bindings comes
last. -/
theorem import_retained {env env' : Env} {next : Snapshot} {choices : OrdMap Text ConflictChoice}
    (hstate : Valid host state) (hfresh : Fresh env 0 state.profiles incoming.profiles.values)
    (hplan : prepareImport host env state incoming = .ok plan)
    (h : applyImport host env' state plan choices = .ok next)
    (hprofile : state.profiles.find key = some profile)
    (hmodule : profile.modules.find id = some module)
    (hsupported : host.supportedModule id (schemaVersion module) = true)
    (hthere : SupportedThere host incoming profile.account id) :
    ModuleRetained (ImportReason plan incoming profile.account key id) key id module next := by
  obtain ⟨himported, hvalid, -⟩ := prepareImport_imported hstate hfresh hplan
  obtain ⟨resolved, normalized, hresolved, hnormalized, hcommit⟩ := applyImport_ok h
  obtain ⟨rfl, -⟩ := eq_of_commit hcommit
  -- what the pass is given: the reasons without the pass itself
  let reason : Text → JObject → JObject → Prop := fun rid record _ =>
    (∃ source module remote, profileOf incoming profile.account = some source ∧
      source.modules.find id = some module ∧ (records module).find rid = some remote ∧
      compare record remote = .before) ∨
    ∃ c ∈ plan.conflicts, c.profileId = key ∧ c.moduleId = id ∧ c.recordId = rid
  have hmerged : ∃ profile' module', plan.merged.profiles.find key = some profile' ∧
      profile'.modules.find id = some module' ∧
      Retained reason (records module) (records module') := by
    have hfind := himported.profile key profile hprofile
    cases hsource : profileOf incoming profile.account with
    | none =>
      rw [hsource] at hfind
      exact ⟨profile, module, hfind, hmodule, Retained.refl _ _⟩
    | some source =>
      rw [hsource] at hfind
      have hmodules := find_mergedModules host (knownReceipts host state incoming) profile.id
        profile.modules source.modules id
      rw [hmodule] at hmodules
      cases hother : source.modules.find id with
      | none =>
        rw [hother] at hmodules
        exact ⟨_, module, hfind, hmodules, Retained.refl _ _⟩
      | some other =>
        rw [hother] at hmodules
        refine ⟨_, _, hfind, hmodules, mergedModule_retained ?_ hvalid hsource hother
          (hthere source other hsource hother)⟩
        intro rid record remote hremote hbefore
        exact Or.inl ⟨source, other, remote, hsource, hother, hremote, hbefore⟩
  obtain ⟨profile', module', hprofile', hmodule', hretained⟩ := hmerged
  have hstep : ∀ c ∈ plan.conflicts, ∀ choice before after, choices.find c.id = some choice →
      Retained reason (records module) (records before) →
      ModuleResolved c choice plan.merged.deviceId key id before after →
      Retained reason (records module) (records after) := by
    intro c hc choice before after _ hbefore hafter
    cases hafter with
    | same => exact hbefore
    | whole hkey hid hwhole =>
      rcases himported.record_of_conflict hstate hprofile hmodule hsupported hthere hc hkey hid with
        hscope | ⟨-, -, hne⟩
      · rw [hwhole] at hscope
        exact absurd hscope nil_not_mem_metadataScopes
      · exact absurd hwhole hne
    | metadata hkey hid hmetadata =>
      rw [records_setRecords (keyed_records before)]
      exact hbefore
    | @record resolved hkey hid hne hscope hadvance =>
      rcases himported.record_of_conflict hstate hprofile hmodule hsupported hthere hc hkey hid with
        hmem | ⟨hlocal, hincoming, -⟩
      · exact absurd hmem hscope
      have hrid : recordId resolved = c.recordId := (recordId_advance hadvance).trans
        (recordId_resolvedRecord (keyed_records module _ _ hlocal) hincoming)
      rw [records_setRecords ((keyed_records before).insert hrid)]
      intro rid record hrecord
      by_cases heq : rid = c.recordId
      · subst heq
        rw [hlocal] at hrecord
        cases hrecord
        exact ⟨resolved, OrdMap.find_insert_self _ _ _, Or.inr (lt_resolved hadvance),
          fun _ => Or.inr ⟨c, hc, hkey.symm, hid.symm, rfl⟩⟩
      · rw [OrdMap.find_insert_of_ne heq]
        exact hbefore rid record hrecord
  obtain ⟨profile'', module'', hprofile'', hmodule'', -, hretained', hdevice⟩ :=
    resolveConflicts_module hstep rfl hresolved hprofile' hmodule' hretained
  obtain ⟨last, normal, hlast, hnormal, -, hpass⟩ :=
    normalizeSnapshot_module hnormalized hprofile'' hmodule''
  refine ⟨last, normal, hlast, hnormal,
    (hretained'.passed (normalizeBindings_passed hpass)).mono ?_⟩
  rintro rid record record' ((hreplaced | hresolved) | hunbound)
  · exact Or.inl hreplaced
  · exact Or.inr (Or.inl hresolved)
  · exact Or.inr (Or.inr hunbound)

end Import

/-! ### The result -/

/-- A module whose records last: each is still there, its version has not gone back, and it is larger
exactly when the record changed, for a reason. -/
def Lasting (reason : Text → JObject → JObject → Prop) (key id : Text) (module : JObject)
    (next : Snapshot) : Prop :=
  ∃ profile' module', next.profiles.find key = some profile' ∧
    profile'.modules.find id = some module' ∧
    ∀ rid record, (records module).find rid = some record →
      ∃ record', (records module').find rid = some record' ∧ counter record ≤ counter record' ∧
        (counter record < counter record' ↔ record' ≠ record) ∧
        (record' ≠ record → reason rid record record')

lemma ModuleRetained.lasting {reason : Text → JObject → JObject → Prop} {key id : Text}
    {module : JObject} {next : Snapshot} (h : ModuleRetained reason key id module next) :
    Lasting reason key id module next := by
  obtain ⟨profile', module', hprofile, hmodule, hretained⟩ := h
  refine ⟨profile', module', hprofile, hmodule, fun rid record hrecord => ?_⟩
  obtain ⟨record', hfind, hfollows, hreason⟩ := hretained rid record hrecord
  exact ⟨record', hfind, hfollows.iff.1, hfollows.iff.2, hreason⟩

/-- **Records are never erased and versions never go back.** In every valid state: after a local write,
whatever the caller returns, and after an import that was prepared in this state, whatever is chosen
and for each module that is supported on both sides, each record is still there, and its version is
larger exactly when the record changed; and an operation that fails leaves the state as it was. -/
theorem records_never_erased {host : Host} {state : Snapshot} (hstate : Valid host state) :
    (∀ env account id change assets next key id' profile module,
      state.profiles.find (env.newId 0) = none →
      mutateWithAssets host env state account id change assets = .ok next →
      state.profiles.find key = some profile → profile.modules.find id' = some module →
      Lasting (WriteReason host env state account id change) key id' module next) ∧
    (∀ env env' incoming plan choices next key id profile module,
      Fresh env 0 state.profiles incoming.profiles.values →
      prepareImport host env state incoming = .ok plan →
      applyImport host env' state plan choices = .ok next →
      state.profiles.find key = some profile → profile.modules.find id = some module →
      host.supportedModule id (schemaVersion module) = true →
      SupportedThere host incoming profile.account id →
      Lasting (ImportReason plan incoming profile.account key id) key id module next) ∧
    ∀ env op fault, (exec host env state op).2 = .error fault → (exec host env state op).1 = state := by
  refine ⟨?_, ?_, ?_⟩
  · intro env account id change assets next key id' profile module hfresh h hprofile hmodule
    exact (mutate_retained hstate hfresh h hprofile hmodule).lasting
  · intro env env' incoming plan choices next key id profile module hfresh hplan h hprofile hmodule
      hsupported hthere
    exact (import_retained hstate hfresh hplan h hprofile hmodule hsupported hthere).lasting
  · intro env op fault h
    unfold exec at h ⊢
    cases hrun : run host env state op with
    | ok next =>
      rw [hrun] at h
      cases h
    | error fault => rfl

/-- A plain store with a tag, and the same store after the tag was written once more. -/
def taggedStore : Snapshot :=
  (exec plainHost plainEnv plainBaseline (plainWrite [plainTag (plainId 98) false])).1

def retaggedStore : Snapshot :=
  (exec plainHost plainEnv taggedStore
    (plainWrite [(plainTag (plainId 98) false).insert (u "title") (.str (u "c"))])).1

lemma valid_taggedStore : Valid plainHost taggedStore := valid_exec (valid_baseline _ _ _) _

/-- A tag that the caller drops is still there. -/
theorem dropped_tag_lasts :
    ∃ next module, recordAt taggedStore (plainId 49) (u "saved_tags") (plainId 98) ≠ none ∧
      Lasting (WriteReason plainHost { plainEnv with newId := fun _ => plainId 54 } taggedStore
        plainAccount (u "saved_tags") fun module => .ok (module.insert (u "records") (.arr [])))
        (plainId 49) (u "saved_tags") module next := by
  have hrun : ((mutateWithAssets plainHost { plainEnv with newId := fun _ => plainId 54 } taggedStore
      plainAccount (u "saved_tags") (fun module => .ok (module.insert (u "records") (.arr []))) ∅).toOption.any
        fun _ => ((taggedStore.profiles.find (plainId 49)).bind fun profile =>
          profile.modules.find (u "saved_tags")).isSome) = true := by
    decide +kernel
  obtain ⟨next, hnext, hsome⟩ := (Option.any_eq_true _ _).mp hrun
  obtain ⟨module, hmodule⟩ := Option.isSome_iff_exists.mp hsome
  obtain ⟨profile, hprofile, hmodule⟩ := Option.bind_eq_some_iff.mp hmodule
  refine ⟨next, module, by decide +kernel, ?_⟩
  exact (records_never_erased valid_taggedStore).1 _ _ _ _ _ _ _ _ _ _ (by decide +kernel)
    (toOption_eq_some.mp hnext) hprofile hmodule

/-- **A version grows without a write or a resolution**: importing a later version of a record, which
lists no conflict, replaces the record by this version; and a write of a record with another version
vector makes the version grow with no other field changed. -/
theorem version_grows_without_change :
    (∃ plan next record record', prepareImport plainHost plainEnv taggedStore retaggedStore = .ok plan ∧
      plan.conflicts = [] ∧ applyImport plainHost plainEnv taggedStore plan ∅ = .ok next ∧
      recordAt taggedStore (plainId 49) (u "saved_tags") (plainId 98) = some record ∧
      recordAt next (plainId 49) (u "saved_tags") (plainId 98) = some record' ∧
      counter record (plainId 53) < counter record' (plainId 53)) ∧
    ∃ record record', recordAt taggedStore (plainId 49) (u "saved_tags") (plainId 98) = some record ∧
      recordAt (exec plainHost plainEnv taggedStore (plainWrite
        [record.insert (u "version_vector") .null])).1 (plainId 49) (u "saved_tags") (plainId 98) =
          some record' ∧
      record'.erase (u "version_vector") = record.erase (u "version_vector") ∧
      counter record (plainId 53) < counter record' (plainId 53) := by
  constructor
  · have hplan : ((prepareImport plainHost plainEnv taggedStore retaggedStore).toOption.any fun plan =>
        decide (plan.conflicts = []) &&
        (applyImport plainHost plainEnv taggedStore plan ∅).toOption.any fun next =>
          (recordAt taggedStore (plainId 49) (u "saved_tags") (plainId 98)).any fun record =>
            (recordAt next (plainId 49) (u "saved_tags") (plainId 98)).any fun record' =>
              decide (counter record (plainId 53) < counter record' (plainId 53))) = true := by
      decide +kernel
    obtain ⟨plan, hplan, h⟩ := (Option.any_eq_true _ _).mp hplan
    rw [Bool.and_eq_true, decide_eq_true_eq] at h
    obtain ⟨hconflicts, h⟩ := h
    obtain ⟨next, hnext, h⟩ := (Option.any_eq_true _ _).mp h
    obtain ⟨record, hrecord, h⟩ := (Option.any_eq_true _ _).mp h
    obtain ⟨record', hrecord', h⟩ := (Option.any_eq_true _ _).mp h
    exact ⟨plan, next, record, record', toOption_eq_some.mp hplan, hconflicts,
      toOption_eq_some.mp hnext, hrecord, hrecord', of_decide_eq_true h⟩
  · have hwrite : ((recordAt taggedStore (plainId 49) (u "saved_tags") (plainId 98)).any fun record =>
        (recordAt (exec plainHost plainEnv taggedStore (plainWrite
          [record.insert (u "version_vector") .null])).1 (plainId 49) (u "saved_tags") (plainId 98)).any
            fun record' =>
              decide (record'.erase (u "version_vector") = record.erase (u "version_vector")) &&
              decide (counter record (plainId 53) < counter record' (plainId 53))) = true := by
      decide +kernel
    obtain ⟨record, hrecord, h⟩ := (Option.any_eq_true _ _).mp hwrite
    obtain ⟨record', hrecord', h⟩ := (Option.any_eq_true _ _).mp h
    rw [Bool.and_eq_true, decide_eq_true_eq, decide_eq_true_eq] at h
    exact ⟨record, record', hrecord, hrecord', h.1, h.2⟩

end LocalData
