import Telegravim.LocalData.Bindings
import Telegravim.LocalData.Store

set_option autoImplicit false

/-!
# Local data: saved tags over whole runs

The bindings of saved tags in every state that a run of the store commits. The pass over the
bindings runs before every commit, and a commit checks the module it has left, so the bindings are
consistent in every committed state, as long as no module that the pass is given has a binding that
stays and names a later one that goes.

## Main definitions

* `LocalData.Consistent` — a snapshot whose modules of saved tags are settled.
* `LocalData.handed` — the modules that an operation gives to the pass.
* `LocalData.TagsStep` — an operation that gives the pass only untangled modules.

## Main results

* `LocalData.saved_tags_consistent` — every state of such a run is consistent.
* `LocalData.binding_of_binding_not_settled` — a run that commits a module the pass would change.
-/

namespace LocalData

open Text

/-! ### What a commit accepts -/

/-- The texts around the only occurrence of a separator are determined. -/
lemma eq_of_append_separator {left right left' right' : Text} {c : UInt16} (hleft : c ∉ left)
    (hright : c ∉ right) (h : left' ++ c :: right' = left ++ c :: right) : left' = left := by
  rcases List.append_eq_append_iff.mp h with ⟨as, rfl, has⟩ | ⟨bs, rfl, hbs⟩
  · cases as with
    | nil => simp
    | cons a as =>
      rw [List.cons_append] at has
      obtain ⟨rfl, -⟩ := List.cons.inj has
      exact absurd (List.mem_append_right _ List.mem_cons_self) hleft
  · cases bs with
    | nil => simp
    | cons b bs =>
      rw [List.cons_append] at hbs
      obtain ⟨rfl, rfl⟩ := List.cons.inj hbs
      exact absurd (List.mem_append_right _ List.mem_cons_self) hright

lemma colon_not_mem_of_validId {id : Text} (h : validId id = true) : (58 : UInt16) ∉ id := by
  intro hmem
  simp only [validId, Bool.and_eq_true, List.all_eq_true] at h
  obtain ⟨i, hi, hget⟩ := List.mem_iff_getElem.mp hmem
  have hentry := h.1.2 (58, i) (List.mem_zipIdx_iff_getElem?.mpr (by simp [← hget, hi]))
  dsimp only at hentry
  split_ifs at hentry <;> simp [isLowerHex] at hentry

lemma colon_not_mem_of_isDecimal {value : Text} (h : isDecimal value = true) :
    (58 : UInt16) ∉ value := by
  intro hmem
  simp only [isDecimal, Bool.and_eq_true, List.all_eq_true] at h
  exact absurd (h.2 58 hmem) (by decide)

/-- What a valid binding assigns tells its tag. -/
lemma bindingTag_eq {account : Account} {record other : JObject}
    (h : validBinding account record = true)
    (hidentity : bindingIdentity other = bindingIdentity record) :
    bindingTag other = bindingTag record := by
  simp only [validBinding, Bool.and_eq_true] at h
  have htag : validId (bindingTag record) = true := by tauto
  have hmessage : isDecimal (bindingMessageId record) = true := by tauto
  have hcolon : u ":" = [58] := by decide
  unfold bindingIdentity at hidentity
  rw [hcolon, List.append_assoc, List.append_assoc, List.singleton_append, List.singleton_append]
    at hidentity
  exact eq_of_append_separator (colon_not_mem_of_validId htag) (colon_not_mem_of_isDecimal hmessage)
    hidentity

/-- What a valid binding assigns tells its message. -/
lemma bindingMessageId_eq {account : Account} {record other : JObject}
    (h : validBinding account record = true)
    (hidentity : bindingIdentity other = bindingIdentity record) :
    bindingMessageId other = bindingMessageId record := by
  have htag := bindingTag_eq h hidentity
  unfold bindingIdentity at hidentity
  rw [htag] at hidentity
  exact List.append_cancel_left hidentity

/-- A record of a module is an element of its array. -/
lemma exists_of_find_collect {values : List Json} {before : OrdMap Text JObject} {id : Text}
    {record : JObject} (h : (collect values before).find id = some record) :
    before.find id = some record ∨ ∃ value ∈ values, value.toObject = record := by
  induction values generalizing before with
  | nil => exact Or.inl h
  | cons value values ih =>
    rcases ih h with hbefore | ⟨other, hother, heq⟩
    · rw [OrdMap.find_insert] at hbefore
      split_ifs at hbefore
      · exact Or.inr ⟨value, List.mem_cons_self, Option.some.inj hbefore⟩
      · exact Or.inl hbefore
    · exact Or.inr ⟨other, List.mem_cons_of_mem _ hother, heq⟩

lemma exists_of_find_records {module : JObject} {id : Text} {record : JObject}
    (h : (records module).find id = some record) :
    ∃ value ∈ arrayField module (u "records"), value.toObject = record := by
  rcases exists_of_find_collect h with hempty | hvalue
  · simp at hempty
  · exact hvalue

/-- Modules of saved tags of the first two versions are supported. -/
lemma supported_of_isSavedTags (host : Host) {module : JObject} (h : isSavedTags module = true) :
    host.supportedModule (moduleId module) (schemaVersion module) = true := by
  simp only [isSavedTags, Bool.and_eq_true, Bool.or_eq_true, decide_eq_true_eq] at h
  obtain ⟨hid, hversion⟩ := h
  obtain ⟨definition, hfind, htwo⟩ := host.registry.savedTags
  unfold Host.supportedModule Host.definition
  rw [hid, hfind]
  rcases hversion with hversion | hversion <;> simp [hversion, htwo]

/-- The records of an accepted module of a supported version. -/
lemma ValidModule.validRecord {host : Host} {assets : OrdMap Text Asset} {account : Account}
    {key : Text} {module : JObject} (h : ValidModule host assets account key module)
    (hsupported : host.supportedModule (moduleId module) (schemaVersion module) = true) {id : Text}
    {record : JObject} (hfind : (records module).find id = some record) :
    LocalData.validRecord host record = true ∧ (moduleId module = u "saved_tags" →
      isDeleted record = false → validateTag account record = .ok ()) := by
  obtain ⟨-, htags⟩ := (check_ok (failure_ne_ok _ _)).mp (h.validateTags hsupported)
  obtain ⟨hall, -, -⟩ := (validateRecords_iff _ _ _).mp htags
  obtain ⟨value, hvalue, rfl⟩ := exists_of_find_records hfind
  obtain ⟨hrecord, htag⟩ := hall value hvalue
  exact ⟨hrecord, fun hid => htag (by simpa using hid)⟩

lemma validId_of_find {host : Host} {assets : OrdMap Text Asset} {account : Account}
    {key : Text} {module : JObject} (h : ValidModule host assets account key module)
    (hsupported : host.supportedModule (moduleId module) (schemaVersion module) = true) {id : Text}
    {record : JObject} (hfind : (records module).find id = some record) : validId id = true := by
  have hrecord := (h.validRecord hsupported hfind).1
  simp only [LocalData.validRecord, Bool.and_eq_true] at hrecord
  rw [← keyed_records module id record hfind]
  exact hrecord.1.1.1.1

lemma ne_nil_of_validId {id : Text} (h : validId id = true) : id ≠ [] := by
  rintro rfl
  exact absurd h (by decide)

/-- The records of an accepted module of a supported version are valid. -/
lemma Valid.ids {host : Host} {snapshot : Snapshot} (h : Valid host snapshot) {key id : Text}
    {profile : Profile} {module : JObject} (hprofile : snapshot.profiles.find key = some profile)
    (hmodule : profile.modules.find id = some module)
    (hsupported : host.supportedModule id (schemaVersion module) = true) {rid : Text}
    {record : JObject} (hrecord : (records module).find rid = some record) :
    validId rid = true ∧ validRecord host record = true := by
  have hvalid := h.module key profile id module hprofile hmodule
  rw [hvalid.key_eq] at hsupported
  exact ⟨validId_of_find hvalid hsupported hrecord, (hvalid.validRecord hsupported hrecord).1⟩

/-- The active bindings of an accepted module of saved tags are valid. -/
lemma ValidModule.validBinding {host : Host} {assets : OrdMap Text Asset} {account : Account}
    {key : Text} {module : JObject} (h : ValidModule host assets account key module)
    (htags : isSavedTags module = true) {id : Text} {record : JObject}
    (hfind : (records module).find id = some record) (hactive : activeBinding record = true) :
    LocalData.validBinding account record = true := by
  have hid : moduleId module = u "saved_tags" := by
    simp only [isSavedTags, Bool.and_eq_true, decide_eq_true_eq] at htags
    exact htags.1
  have htag := (h.validRecord (supported_of_isSavedTags host htags) hfind).2 hid
    (not_deleted_of_active hactive)
  have hkind : recordKind record = u "binding" := by
    simp only [activeBinding, Bool.and_eq_true, decide_eq_true_eq] at hactive
    exact hactive.1
  have hne : u "binding" ≠ u "tag" := by decide
  unfold validateTag at htag
  dsimp only at htag
  rw [hkind, if_neg hne, if_pos rfl] at htag
  split_ifs at htag with hvalid
  · exact hvalid
  · exact absurd htag (failure_ne_ok _ _ _)

/-- The active bindings of an accepted module of saved tags tell their tag. -/
lemma ValidModule.parsed {host : Host} {assets : OrdMap Text Asset} {account : Account}
    {key : Text} {module : JObject} (h : ValidModule host assets account key module)
    (htags : isSavedTags module = true) : Parsed (records module) :=
  fun _ _ _ hfind hactive hidentity => bindingTag_eq (h.validBinding htags hfind hactive) hidentity

/-! ### Commits -/

/-- A commit saves what it was given, when it is valid. -/
lemma eq_of_commit {host : Host} {env : Env} {state next committed : Snapshot}
    (h : commit host env state next = .ok committed) :
    committed = { next with deviceId := state.deviceId, generation := env.generation } ∧
      Valid host next := by
  obtain ⟨⟨⟩, hvalid, h⟩ := bind_ok.mp h
  obtain ⟨⟨⟩, -, h⟩ := bind_ok.mp h
  exact ⟨(Except.ok.inj h).symm, Valid.of_validateSnapshot hvalid⟩

lemma valid_baseline (host : Host) (generation deviceId : Text) :
    Valid host (baseline generation deviceId) := by
  constructor
  · intro key profile hprofile
    cases hprofile
  · intro key profile key' profile' hprofile
    cases hprofile
  · intro key profile id module hprofile
    cases hprofile

/-- **What is committed is valid.** -/
lemma valid_exec {host : Host} {env : Env} {state : Snapshot} (h : Valid host state) (op : Op) :
    Valid host (exec host env state op).1 := by
  unfold exec
  cases hrun : run host env state op with
  | error fault => exact h
  | ok next =>
    have hcommit : ∀ {next' : Snapshot}, commit host env state next' = .ok next → Valid host next := by
      intro next' hcommit
      obtain ⟨rfl, hvalid⟩ := eq_of_commit hcommit
      exact ⟨hvalid.profile, hvalid.account, hvalid.module⟩
    dsimp only
    cases op with
    | mutate account id change assets =>
      rcases mutateWithAssets_ok hrun with rfl | ⟨write, module, -, -, hnext⟩
      · exact h
      · exact hcommit hnext
    | applyImport plan choices =>
      obtain ⟨resolved, -, hrun⟩ := bind_ok.mp hrun
      obtain ⟨normalized, -, hnext⟩ := bind_ok.mp hrun
      exact hcommit hnext
    | restoreConflict archiveId expectedGeneration =>
      obtain ⟨restored, -, hrun⟩ := bind_ok.mp hrun
      obtain ⟨normalized, -, hnext⟩ := bind_ok.mp hrun
      exact hcommit hnext

lemma valid_plainImport {state : Snapshot} (h : Valid plainHost state) (choice : ConflictChoice)
    (incoming : Snapshot) : Valid plainHost (plainImport choice state incoming) := by
  unfold plainImport
  split
  · exact valid_exec h _
  · exact h

/-- A snapshot whose modules of saved tags are settled. -/
def Consistent (snapshot : Snapshot) : Prop :=
  ∀ key profile id module, snapshot.profiles.find key = some profile →
    profile.modules.find id = some module → isSavedTags module = true → Settled module

lemma consistent_baseline (generation deviceId : Text) :
    Consistent (baseline generation deviceId) := by
  intro key profile id module hprofile
  cases hprofile

/-- A module that the pass has left, in an accepted snapshot. -/
lemma settled_of_normalized {host : Host} {assets : OrdMap Text Asset} {account : Account}
    {key device : Text} {module normalized : JObject}
    (h : normalizeBindings module device = .ok normalized)
    (hvalid : ValidModule host assets account key normalized) (htags : isSavedTags normalized = true)
    (huntangled : isSavedTags module = true → Untangled (records module)) : Settled normalized := by
  have hbefore : isSavedTags module = true := isSavedTags_normalizeBindings h ▸ htags
  have hsupported := supported_of_isSavedTags host htags
  refine normalizeBindings_settled hbefore h ?_ (hvalid.parsed htags) (huntangled hbefore)
  intro id record hfind
  exact ne_nil_of_validId (validId_of_find hvalid hsupported hfind)

/-- The modules of the profiles of a snapshot. -/
def Snapshot.modules (snapshot : Snapshot) : List JObject :=
  snapshot.profiles.values.flatMap fun profile => profile.modules.values

lemma Snapshot.mem_modules {snapshot : Snapshot} {key id : Text} {profile : Profile}
    {module : JObject} (hprofile : snapshot.profiles.find key = some profile)
    (hmodule : profile.modules.find id = some module) : module ∈ snapshot.modules :=
  List.mem_flatMap.mpr ⟨profile, OrdMap.mem_values_iff.mpr ⟨key, hprofile⟩,
    OrdMap.mem_values_iff.mpr ⟨id, hmodule⟩⟩

/-- A module after the pass over all profiles is one that the pass has left. -/
lemma find_normalizeSnapshot {next normalized : Snapshot}
    (h : normalizeSnapshot next = .ok normalized) {key id : Text} {profile : Profile}
    {module : JObject} (hprofile : normalized.profiles.find key = some profile)
    (hmodule : profile.modules.find id = some module) :
    ∃ before ∈ next.modules, normalizeBindings before next.deviceId = .ok module := by
  unfold normalizeSnapshot at h
  split at h
  · cases h
  · rename_i profiles hprofiles
    cases h
    rcases OrdMap.find_tryMap hprofiles key with ⟨-, hnone⟩ | ⟨old, new, hold, hnew, hfind⟩
    · exact absurd (hprofile.symm.trans hnone) (by simp)
    · obtain rfl : profile = new := Option.some.inj (hprofile.symm.trans hfind)
      unfold normalizeProfile at hnew
      split at hnew
      · cases hnew
      · rename_i modules hmodules
        cases hnew
        rcases OrdMap.find_tryMap hmodules id with ⟨-, hnone⟩ | ⟨before, after, hbefore, hafter, hfind⟩
        · exact absurd (hmodule.symm.trans hnone) (by simp)
        · obtain rfl : module = after := Option.some.inj (hmodule.symm.trans hfind)
          exact ⟨before, Snapshot.mem_modules hold hbefore, hafter⟩

/-- A commit after the pass over all profiles leaves consistent bindings. -/
lemma consistent_of_commit {host : Host} {env : Env} {state next normalized committed : Snapshot}
    (hnormalized : normalizeSnapshot next = .ok normalized)
    (hcommit : commit host env state normalized = .ok committed)
    (huntangled : ∀ module ∈ next.modules, isSavedTags module = true → Untangled (records module)) :
    Consistent committed := by
  obtain ⟨rfl, hvalid⟩ := eq_of_commit hcommit
  intro key profile id module hprofile hmodule htags
  obtain ⟨before, hbefore, hpass⟩ := find_normalizeSnapshot hnormalized hprofile hmodule
  exact settled_of_normalized hpass (hvalid.module key profile id module hprofile hmodule) htags
    (huntangled before hbefore)

/-! ### Runs -/

/-- The modules that an operation gives to the pass over the bindings. -/
def handed (host : Host) (env : Env) (state : Snapshot) : Op → List JObject
  | .mutate account id change assets =>
    match prepareWrite host env state account id change assets with
    | .ok (some write) => [write.module]
    | _ => []
  | .applyImport plan choices =>
    match prepareApply env state plan choices with
    | .ok next => next.modules
    | .error _ => []
  | .restoreConflict archiveId expectedGeneration =>
    match prepareRestore host env state archiveId expectedGeneration with
    | .ok next => next.modules
    | .error _ => []

/-- An operation that gives the pass only modules in which no binding that stays names a later one
that goes. -/
def TagsStep (host : Host) (state : Snapshot) (label : Env × Op) (next : Snapshot) : Prop :=
  next = (exec host label.1 state label.2).1 ∧
    ∀ module ∈ handed host label.1 state label.2, isSavedTags module = true →
      Untangled (records module)

/-- A local write keeps the bindings consistent. -/
lemma consistent_mutate {host : Host} {env : Env} {state next : Snapshot} {account : Account}
    {id : Text} {change : JObject → Result JObject} {assets : OrdMap Text Asset}
    (hstate : Consistent state)
    (h : mutateWithAssets host env state account id change assets = .ok next)
    (huntangled : ∀ module ∈ handed host env state (.mutate account id change assets),
      isSavedTags module = true → Untangled (records module)) : Consistent next := by
  rcases mutateWithAssets_ok h with rfl | ⟨write, module, hprepared, hmodule, hcommit⟩
  · exact hstate
  obtain ⟨rfl, hvalid⟩ := eq_of_commit hcommit
  have hhanded : isSavedTags write.module = true → Untangled (records write.module) := by
    refine huntangled write.module ?_
    simp [handed, hprepared]
  obtain ⟨nextAssets, changed, after, -, -, -, -, rfl⟩ := prepareWrite_some hprepared
  intro key profile key' found hprofile hfound htags
  have hvalidModule := hvalid.module key profile key' found hprofile hfound
  change (OrdMap.insert _ _ _).find key = some profile at hprofile
  rw [OrdMap.find_insert] at hprofile
  split_ifs at hprofile with hkey
  · cases hprofile
    change (OrdMap.insert _ _ _).find key' = some found at hfound
    rw [OrdMap.find_insert] at hfound
    split_ifs at hfound with hid
    · cases hfound
      exact settled_of_normalized hmodule hvalidModule htags hhanded
    · obtain ⟨old, profile, hold, hmodules, -⟩ := find_of_profileToWrite hfound
      exact hstate old profile key' found hold hmodules htags
  · have hstay : state.profiles.find key = some profile := by
      rw [← find_profilesToWrite hkey]
      exact hprofile
    exact hstate key profile key' found hstay hfound htags

/-- **An operation keeps the bindings consistent**, when the pass is given untangled modules. -/
lemma consistent_step {host : Host} {state next : Snapshot} {label : Env × Op}
    (hstate : Consistent state) (h : TagsStep host state label next) : Consistent next := by
  obtain ⟨env, op⟩ := label
  obtain ⟨rfl, huntangled⟩ := h
  unfold exec
  cases hrun : run host env state op with
  | error fault => exact hstate
  | ok next =>
    dsimp only
    cases op with
    | mutate account id change assets => exact consistent_mutate hstate hrun huntangled
    | applyImport plan choices =>
      obtain ⟨resolved, hresolved, hrun⟩ := bind_ok.mp hrun
      obtain ⟨normalized, hnormalized, hcommit⟩ := bind_ok.mp hrun
      refine consistent_of_commit hnormalized hcommit fun module hmodule => huntangled module ?_
      simpa [handed, hresolved] using hmodule
    | restoreConflict archiveId expectedGeneration =>
      obtain ⟨restored, hrestored, hrun⟩ := bind_ok.mp hrun
      obtain ⟨normalized, hnormalized, hcommit⟩ := bind_ok.mp hrun
      refine consistent_of_commit hnormalized hcommit fun module hmodule => huntangled module ?_
      simpa [handed, hrestored] using hmodule

/-- **Saved tags stay consistent over whole runs**: in every state that a run commits, no active
binding refers to a deleted tag, no two of them assign the same tag to the same message, and the
pass changes nothing more; and whatever the pass changes in a module, it leaves a tombstone with the
former value archived and a strictly larger version vector.

**Proof sketch.** Induction on the run. An operation commits modules that the pass has left and
modules of the state before; the pass leaves consistent bindings when its module is untangled, and
a commit checks that what the bindings assign is well formed. -/
theorem saved_tags_consistent (host : Host) (generation deviceId : Text)
    {labels : List (Env × Op)} {state : Snapshot}
    (h : Trace (TagsStep host) (baseline generation deviceId) labels state) :
    Consistent state ∧ ∀ module device normalized,
      normalizeBindings module device = .ok normalized →
        Passed (records module) (records normalized) := by
  refine ⟨?_, fun module device normalized => normalizeBindings_passed⟩
  refine Trace.invariant (P := fun _ state => Consistent state) h
    (consistent_baseline generation deviceId) ?_
  intro past state label next hstate hstep
  exact consistent_step hstate hstep

/-- Bindings that name no binding are untangled. -/
lemma untangled_of_tags {records : OrdMap Text JObject}
    (h : (records.entries.all fun entry => !activeBinding entry.2 ||
      !(records.find (bindingTag entry.2)).any activeBinding) = true) : Untangled records := by
  intro id record hfind hactive _ hburied
  obtain ⟨tag, htag, hactiveTag⟩ := hburied.record
  have hentry := List.all_eq_true.mp h _ (OrdMap.find_eq_some_iff.mp hfind)
  simp [hactive, htag, hactiveTag] at hentry

/-- The write of a tag and a binding of it leaves consistent bindings. -/
theorem tagged_write_consistent :
    let write := plainWrite [plainBinding (plainId 97) (plainId 98), plainTag (plainId 98) false]
    let state := (exec plainHost plainEnv plainBaseline write).1
    state.modules.any isSavedTags = true ∧ Consistent state ∧ ∀ module device normalized,
      normalizeBindings module device = .ok normalized →
        Passed (records module) (records normalized) := by
  intro write state
  refine ⟨by decide +kernel, ?_⟩
  have hall : ((handed plainHost plainEnv plainBaseline write).all fun module =>
      (records module).entries.all fun entry => !activeBinding entry.2 ||
        !((records module).find (bindingTag entry.2)).any activeBinding) = true := by
    decide +kernel
  have hstep : TagsStep plainHost plainBaseline (plainEnv, write) state := by
    refine ⟨rfl, fun module hmodule _ => ?_⟩
    exact untangled_of_tags (List.all_eq_true.mp hall module hmodule)
  exact saved_tags_consistent plainHost (plainId 52) (plainId 53) (Trace.single hstep)

/-- **A binding of a binding**: after the write of a deleted tag, a binding of it and an earlier
binding that names this binding as its tag, the committed module has an active binding that refers
to a deleted record, and the pass would change it once more. -/
theorem binding_of_binding_not_settled :
    let write := plainWrite [plainBinding (plainId 97) (plainId 98),
      plainBinding (plainId 98) (plainId 99), plainTag (plainId 99) true]
    let state := (exec plainHost plainEnv plainBaseline write).1
    (exec plainHost plainEnv plainBaseline write).2 = .ok () ∧
      ∃ profile module record tag, state.profiles.find (plainId 49) = some profile ∧
        profile.modules.find (u "saved_tags") = some module ∧ isSavedTags module = true ∧
        (records module).find (plainId 97) = some record ∧ activeBinding record = true ∧
        (records module).find (bindingTag record) = some tag ∧ isDeleted tag = true ∧
        normalizeBindings module state.deviceId ≠ .ok module := by
  intro write state
  have hfind : ((state.profiles.find (plainId 49)).bind fun profile =>
      profile.modules.find (u "saved_tags")).any (fun module => isSavedTags module &&
        ((records module).find (plainId 97)).any (fun record => activeBinding record &&
          ((records module).find (bindingTag record)).any isDeleted) &&
        decide (normalizeBindings module state.deviceId ≠ .ok module)) = true := by
    decide +kernel
  obtain ⟨module, hmodule, hfound⟩ := (Option.any_eq_true _ _).mp hfind
  obtain ⟨profile, hprofile, hmodule⟩ := Option.bind_eq_some_iff.mp hmodule
  simp only [Bool.and_eq_true, decide_eq_true_eq] at hfound
  obtain ⟨⟨htags, hrecord⟩, hfixed⟩ := hfound
  obtain ⟨record, hrecord, hactive⟩ := (Option.any_eq_true _ _).mp hrecord
  rw [Bool.and_eq_true] at hactive
  obtain ⟨tag, htag, hdeleted⟩ := (Option.any_eq_true _ _).mp hactive.2
  exact ⟨by decide +kernel, profile, module, record, tag, hprofile, hmodule, htags, hrecord,
    hactive.1, htag, hdeleted, hfixed⟩

end LocalData
