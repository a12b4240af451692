import Telegravim.Foundation.Trace
import Telegravim.LocalData.Merge

set_option autoImplicit false

/-!
# Local data: the store

The operations of `Store` on its committed snapshot. An operation works on a copy and ends with a
commit; whatever fails before, the snapshot stays as it was.

## Main definitions

* `LocalData.Env` — what an operation takes from outside: new identities and the outcome of files.
* `LocalData.mutateWithAssets`, `LocalData.prepareImport`, `LocalData.applyImport`,
  `LocalData.restoreConflict` — the operations.
* `LocalData.Op`, `LocalData.exec` — the operations that commit, and what they leave committed.
* `LocalData.plainHost` — a store without other modules, for concrete runs.
-/

namespace LocalData

open Text

/-- What an operation takes from outside. A read or a write of files fails when its fault says so;
a cancellation is such a fault too, since an operation that notices it ends without a commit. -/
structure Env where
  /-- The identities that `NewId` draws, in order. -/
  newId : ℕ → Text
  /-- The generation that a commit draws. -/
  generation : Text
  stamp : LocalTransfer.Stamp
  loadFault : Option Fault := none
  commitFault : Option Fault := none

def orFault (fault : Option Fault) : Result Unit :=
  match fault with
  | some fault => .error fault
  | none => .ok ()

/-- The commit of a snapshot: it is checked, and saved under a new generation. -/
def commit (host : Host) (env : Env) (state next : Snapshot) : Result Snapshot := do
  validateSnapshot host env.stamp next
  orFault env.commitFault
  .ok { next with deviceId := state.deviceId, generation := env.generation }

def Snapshot.setProfile (snapshot : Snapshot) (key : Text) (profile : Profile) : Snapshot :=
  { snapshot with profiles := snapshot.profiles.insert key profile }

def Profile.setModule (profile : Profile) (id : Text) (module : JObject) : Profile :=
  { profile with modules := profile.modules.insert id module }

/-! ### Local writes -/

/-- A record as the caller returned it, with an identity and a deletion mark, and whether its
identity was drawn. -/
def completeRecord (newId : Text) (value : Json) : JObject × Bool :=
  let record := value.toObject
  let drawn := recordId record = []
  let record := if drawn then record.insert (u "id") (.str newId) else record
  (if record.contains (u "deleted") then record else record.insert (u "deleted") (.bool false),
    drawn)

/-- A record that is written: its version follows the one it had before. -/
def writeRecord (device : Text) (previous : OrdMap Text JObject) (id : Text) (record : JObject) :
    Result JObject :=
  if previous.find id = some record then .ok record
  else advance (record.insert (u "version_vector")
    (Json.ofObject (versionVector ((previous.find id).getD ∅)))) device

/-- The loop over the records that the caller returned; `n` identities were drawn before. -/
def writeRecords (newId : ℕ → Text) (device : Text) (previous : OrdMap Text JObject) :
    List Json → ℕ → OrdMap Text JObject → Result (OrdMap Text JObject)
  | [], _, after => .ok after
  | value :: values, n, after =>
    let completed := completeRecord (newId n) value
    let id := recordId completed.1
    if validId id = false ∨ after.contains id then
      failure .invalid "Duplicate or invalid record identity."
    else
      match writeRecord device previous id completed.1 with
      | .error fault => .error fault
      | .ok record =>
        writeRecords newId device previous values (if completed.2 then n + 1 else n)
          (after.insert id record)

/-- A record that the caller dropped: a tombstone. -/
def buryRecord (device : Text) (record : JObject) : Result JObject :=
  if isDeleted record then .ok record
  else advance (record.insert (u "deleted") (.bool true)) device

/-- The loop over the records there were before. -/
def buryRecords (device : Text) : List (Text × JObject) → OrdMap Text JObject →
    Result (OrdMap Text JObject)
  | [], after => .ok after
  | (id, record) :: previous, after =>
    if after.contains id then buryRecords device previous after
    else
      match buryRecord device record with
      | .error fault => .error fault
      | .ok deleted => buryRecords device previous (after.insert id deleted)

/-- The records of a module after the caller changed it from `before` to `module`. -/
def changedRecords (newId : ℕ → Text) (device : Text) (before module : JObject) :
    Result (OrdMap Text JObject) :=
  match writeRecords newId device (records before) (arrayField module (u "records")) 0 ∅ with
  | .error fault => .error fault
  | .ok after => buryRecords device (records before).entries after

def addAssets : List (Text × Asset) → OrdMap Text Asset → Result (OrdMap Text Asset)
  | [], assets => .ok assets
  | (key, asset) :: rest, assets =>
    if (assets.find key).any fun existing => existing.size ≠ asset.size then
      failure .invalid "Asset size conflicts with existing data."
    else addAssets rest (assets.insert key asset)

/-- A local write that is to be committed: the snapshot with the new assets and the profile, and
the changed module before the pass over its bindings. -/
structure Write where
  next : Snapshot
  profile : Profile
  module : JObject
deriving DecidableEq

/-- The profile of an account, a new one when there is none. -/
def profileToWrite (env : Env) (state : Snapshot) (account : Account) : Profile :=
  (profileOf state account).getD { id := env.newId 0, account }

/-- The profiles with the one of an account. -/
def profilesToWrite (env : Env) (state : Snapshot) (account : Account) : OrdMap Text Profile :=
  let profile := profileToWrite env state account
  if (profileOf state account).isSome then state.profiles
  else state.profiles.insert profile.id profile

/-- The module of an account that is to be changed, an empty one when there is none. -/
def moduleToWrite (host : Host) (env : Env) (state : Snapshot) (account : Account) (id : Text) :
    JObject :=
  ((profileToWrite env state account).modules.find id).getD (host.emptyModule id)

/-- A local write up to the pass over the bindings; nothing when it changes nothing. -/
def prepareWrite (host : Host) (env : Env) (state : Snapshot) (account : Account) (id : Text)
    (change : JObject → Result JObject) (assets : OrdMap Text Asset) : Result (Option Write) :=
  let before := moduleToWrite host env state account id
  if validAccount account = false ∨ (host.definition id (-1)).isNone then
    failure .invalid "Unsupported account or module."
  else do
    orFault env.loadFault
    let nextAssets ← addAssets assets.entries state.assets
    if host.supportedModule id (schemaVersion before) = false then
      failure .unsupported "This module requires a newer application."
    else do
      let module ← change before
      if module = before ∧ assets = ∅ then .ok none
      else do
        let after ← changedRecords (fun n => env.newId (n + 1)) state.deviceId before module
        .ok (some
          { next :=
              { state with
                assets := nextAssets
                profiles := profilesToWrite env state account }
            profile := profileToWrite env state account
            module := setRecords module after })

/-- The snapshot of a local write, with its module in place. -/
def Write.snapshot (write : Write) (id : Text) (module : JObject) : Snapshot :=
  write.next.setProfile write.profile.id (write.profile.setModule id module)

def mutateWithAssets (host : Host) (env : Env) (state : Snapshot) (account : Account) (id : Text)
    (change : JObject → Result JObject) (assets : OrdMap Text Asset) : Result Snapshot := do
  match ← prepareWrite host env state account id change assets with
  | none => .ok state
  | some write =>
    let module ← normalizeBindings write.module write.next.deviceId
    commit host env state (write.snapshot id module)

/-! ### Imports -/

/-- The merge of a record into those of a module. -/
def mergeRecord (host : Host) (profileId moduleId : Text) (merged : MergePlan × OrdMap Text JObject)
    (value : Json) : MergePlan × OrdMap Text JObject :=
  let remote := value.toObject
  match merged.2.find (recordId remote) with
  | none => (merged.1, merged.2.insert (recordId remote) remote)
  | some «local» =>
    match compare «local» remote with
    | .before => (merged.1, merged.2.insert (recordId remote) remote)
    | .concurrent =>
      ((addConflict host merged.1 profileId moduleId (recordId remote) «local» remote).1, merged.2)
    | .equal =>
      if «local» ≠ remote then
        ((addConflict host merged.1 profileId moduleId (recordId remote) «local» remote).1, merged.2)
      else merged
    | .after => merged

/-- The metadata of a module for the merge: versions of saved tags are the same. -/
def moduleMetadata (id : Text) (module : JObject) : JObject :=
  (if id = u "saved_tags" then module.insert (u "schema_version") (.num 2) else module).erase
    (u "records")

/-- The merge of a module that both sides have in a supported version. -/
def mergeSupported (host : Host) (plan : MergePlan) (profileId id : Text)
    («local» incoming : JObject) : MergePlan × JObject :=
  let metadata := mergeMetadata host plan profileId id (u "@module-extra")
    (moduleMetadata id «local») (moduleMetadata id incoming)
  let merged := (arrayField incoming (u "records")).foldl (mergeRecord host profileId id)
    (metadata.1, records «local»)
  (merged.1, setRecords metadata.2 merged.2)

/-- The merge of a module into those of a profile. -/
def mergeModule (host : Host) (profileId : Text) (merged : MergePlan × OrdMap Text JObject)
    (entry : Text × JObject) : MergePlan × OrdMap Text JObject :=
  let (id, incoming) := entry
  let supported := host.supportedModule id (schemaVersion incoming)
  let plan := if supported then merged.1
    else { merged.1 with unsupportedModules := merged.1.unsupportedModules ++ [id] }
  match merged.2.find id with
  | none => (plan, merged.2.insert id incoming)
  | some «local» =>
    if «local» = incoming then (plan, merged.2)
    else if supported = false ∨ host.supportedModule id (schemaVersion «local») = false then
      ((addConflict host plan profileId id [] «local» incoming).1, merged.2)
    else
      let result := mergeSupported host plan profileId id «local» incoming
      (result.1, merged.2.insert id result.2)

/-- The merge of a profile; `n` identities were drawn before. -/
def mergeProfile (host : Host) (env : Env) (merged : MergePlan × ℕ) (source : Profile) :
    MergePlan × ℕ :=
  let plan := { merged.1 with accounts := merged.1.accounts ++ [accountId source.account] }
  let found := profileOf plan.merged source.account
  let taken := plan.merged.profiles.contains source.id
  let drawn := found.isNone && taken
  let target := found.getD
    { id := if taken then env.newId merged.2 else source.id, account := source.account }
  let extra := mergeMetadata host plan target.id [] (u "@profile-extra") target.extra source.extra
  let transfer := mergeMetadata host extra.1 target.id [] (u "@profile-transfer") target.transfer
    source.transfer
  let modules := source.modules.entries.foldl (mergeModule host target.id)
    (transfer.1, target.modules)
  let profile := { target with extra := extra.2, transfer := transfer.2, modules := modules.2 }
  ({ modules.1 with merged := modules.1.merged.setProfile target.id profile },
    if drawn then merged.2 + 1 else merged.2)

def mergeAsset (host : Host) (plan : MergePlan) (entry : Text × Asset) : Result MergePlan :=
  let (key, incoming) := entry
  match plan.merged.assets.find key with
  | none => .ok
      { plan with merged := { plan.merged with assets := plan.merged.assets.insert key incoming } }
  | some existing =>
    if existing.size ≠ incoming.size then
      failure .invalid "Imported asset size conflicts with existing data."
    else
      let extra := mergeMetadata host plan [] key (u "@asset-extra") existing.extra incoming.extra
      let transfer := mergeMetadata host extra.1 [] key (u "@asset-transfer") existing.transfer
        incoming.transfer
      let merged := { transfer.1.merged with
        assets := transfer.1.merged.assets.insert key
          { existing with extra := extra.2, transfer := transfer.2 } }
      .ok { transfer.1 with merged }

/-- The merge of the metadata of a snapshot. -/
def mergeRoot (host : Host) (state incoming : Snapshot) : MergePlan :=
  let plan : MergePlan := { baseGeneration := state.generation, merged := state }
  let extra := mergeMetadata host plan [] [] (u "@root-extra") plan.merged.extra incoming.extra
  let plan := { extra.1 with merged := { extra.1.merged with extra := extra.2 } }
  let transfer := mergeMetadata host plan [] [] (u "@root-transfer") plan.merged.transfer
    incoming.transfer
  { transfer.1 with merged := { transfer.1.merged with transfer := transfer.2 } }

def prepareImport (host : Host) (env : Env) (state incoming : Snapshot) : Result MergePlan := do
  validateSnapshot host env.stamp incoming
  orFault env.loadFault
  let merged := incoming.profiles.values.foldl (mergeProfile host env) (mergeRoot host state incoming, 0)
  let plan ← incoming.assets.entries.foldlM (mergeAsset host) merged.1
  validateSnapshot host env.stamp plan.merged
  .ok { plan with unsupportedModules := plan.unsupportedModules.eraseDups }

/-! ### Applying a plan -/

/-- The record that a conflict is resolved to, before its version advances. -/
def resolvedRecord (conflict : Conflict) (choice : ConflictChoice) : JObject :=
  let selected := match choice with
    | .useIncoming => conflict.incoming
    | .keepLocal => conflict.local
    | .keepBoth =>
      conflict.local.insert conflictVersionsField (.arr (unite
        (unite (arrayField conflict.local conflictVersionsField)
          (arrayField conflict.incoming conflictVersionsField))
        [Json.ofObject (conflict.incoming.erase conflictVersionsField)]))
  selected.insert (u "version_vector") (Json.ofObject
    (joinedVector (versionVector conflict.local) (versionVector conflict.incoming)))

/-- The side of a conflict that is current after it was resolved. -/
def selectedSide (conflict : Conflict) (choice : ConflictChoice) : JObject :=
  if choice = .useIncoming then conflict.incoming else conflict.local

/-- The variant that keeps an opaque module. -/
def opaqueVariant (id : Text) (account : Account) (module : JObject) : Json :=
  Json.ofObject (object [(u "id", .str id), (u "account", Json.ofObject (accountJson account)),
    (u "module", Json.ofObject module)])

/-- A snapshot with a value more in an array of its metadata. -/
def Snapshot.keep (snapshot : Snapshot) (field : Text) (value : Json) : Snapshot :=
  { snapshot with
    extra := snapshot.extra.insert field (.arr (unite (arrayField snapshot.extra field) [value])) }

/-- Resolves a conflict in a profile. -/
def resolveInProfile (next : Snapshot) (profile : Profile) (conflict : Conflict)
    (choice : ConflictChoice) : Result Snapshot :=
  let metadata := resolveMetadata conflict.local conflict.incoming choice
  if conflict.recordId = u "@profile-extra" then
    .ok (next.setProfile conflict.profileId { profile with extra := metadata })
  else if conflict.recordId = u "@profile-transfer" then
    .ok (next.setProfile conflict.profileId { profile with transfer := metadata })
  else if conflict.recordId = [] then
    let next := next.setProfile conflict.profileId
      (profile.setModule conflict.moduleId (selectedSide conflict choice))
    .ok (if choice = .keepBoth then
      next.keep opaqueVariantsField (opaqueVariant conflict.id profile.account conflict.incoming)
    else next)
  else
    let module := (profile.modules.find conflict.moduleId).getD ∅
    if conflict.recordId = u "@module-extra" then
      .ok (next.setProfile conflict.profileId
        (profile.setModule conflict.moduleId (setRecords metadata (records module))))
    else
      match advance (resolvedRecord conflict choice) next.deviceId with
      | .error fault => .error fault
      | .ok resolved => .ok (next.setProfile conflict.profileId (profile.setModule conflict.moduleId
          (setRecords module ((records module).insert conflict.recordId resolved))))

/-- Resolves a conflict. -/
def resolveConflict (next : Snapshot) (conflict : Conflict) (choice : ConflictChoice) :
    Result Snapshot :=
  let metadata := resolveMetadata conflict.local conflict.incoming choice
  if conflict.recordId = u "@root-extra" then .ok { next with extra := metadata }
  else if conflict.recordId = u "@root-transfer" then .ok { next with transfer := metadata }
  else if conflict.recordId = u "@asset-extra" ∨ conflict.recordId = u "@asset-transfer" then
    match next.assets.find conflict.moduleId with
    | none => failure .invalid "Import asset disappeared."
    | some asset => .ok
        { next with
          assets := next.assets.insert conflict.moduleId
            (if conflict.recordId = u "@asset-extra" then { asset with extra := metadata }
              else { asset with transfer := metadata }) }
  else
    match next.profiles.find conflict.profileId with
    | none => failure .invalid "Import profile disappeared."
    | some profile => resolveInProfile next profile conflict choice

/-- Resolves the conflicts of a plan, each with a receipt. -/
def resolveConflicts (choices : OrdMap Text ConflictChoice) : List Conflict → Snapshot →
    Result Snapshot
  | [], next => .ok next
  | conflict :: conflicts, next =>
    match choices.find conflict.id with
    | none => failure .conflict "Choose a resolution for every conflict."
    | some choice =>
      match resolveConflict next conflict choice with
      | .error fault => .error fault
      | .ok next => resolveConflicts choices conflicts (next.keep resolutionsField (.str conflict.id))

/-- The pass over the bindings of all modules of a profile. -/
def normalizeProfile (device : Text) (profile : Profile) : Result Profile :=
  match profile.modules.tryMap fun module => normalizeBindings module device with
  | .error fault => .error fault
  | .ok modules => .ok { profile with modules }

/-- The pass over the bindings of all profiles. -/
def normalizeSnapshot (next : Snapshot) : Result Snapshot :=
  match next.profiles.tryMap (normalizeProfile next.deviceId) with
  | .error fault => .error fault
  | .ok profiles => .ok { next with profiles }

/-- An import up to the pass over the bindings. -/
def prepareApply (env : Env) (state : Snapshot) (plan : MergePlan)
    (choices : OrdMap Text ConflictChoice) : Result Snapshot := do
  orFault env.loadFault
  if plan.baseGeneration ≠ state.generation then
    failure .stale "Local data changed; review the import again."
  else resolveConflicts choices plan.conflicts plan.merged

def applyImport (host : Host) (env : Env) (state : Snapshot) (plan : MergePlan)
    (choices : OrdMap Text ConflictChoice) : Result Snapshot := do
  let resolved ← prepareApply env state plan choices
  let next ← normalizeSnapshot resolved
  commit host env state next

/-! ### Restoring an archived version -/

/-- Whether a binding that is restored would come without its tag. -/
def tagMissing (records : OrdMap Text JObject) (binding : JObject) : Bool :=
  let tag := (records.find (bindingTag binding)).getD ∅
  recordKind tag ≠ u "tag" || isDeleted tag

/-- Whether another active binding assigns the same as one that is restored. -/
def assignedElsewhere (records : OrdMap Text JObject) (id : Text) (binding : JObject) : Bool :=
  records.entries.any fun entry => entry.1 ≠ id && activeBinding entry.2 &&
    entry.2.find (u "tag_id") = binding.find (u "tag_id") &&
    (bindingMessage entry.2).find (u "message_id") = (bindingMessage binding).find (u "message_id")

/-- The archived versions of a record after one of them was restored. -/
def restoredVariants (conflict : ArchivedConflict) : List Json :=
  unite (unite [] ((arrayField conflict.current conflictVersionsField).filter
      (· ≠ Json.ofObject conflict.alternate)))
    [Json.ofObject (conflict.current.erase conflictVersionsField)]

def restoreRecord (next : Snapshot) (conflict : ArchivedConflict) : Result Snapshot :=
  let profile := (next.profiles.find conflict.profileId).getD
    { id := [], account := { environment := [], userId := [] } }
  let module := (profile.modules.find conflict.moduleId).getD ∅
  let existing := records module
  let restored := conflict.alternate
  if recordId restored ≠ conflict.recordId then
    failure .invalid "Saved version identity does not match."
  else if activeBinding restored && tagMissing existing restored then
    failure .conflict "Restore the tag before its message binding."
  else if activeBinding restored && assignedElsewhere existing conflict.recordId restored then
    failure .conflict "This tag is already assigned to the message."
  else
    match advance ((restored.insert conflictVersionsField (.arr (restoredVariants conflict))).insert
        (u "version_vector") (Json.ofObject (joinedVector (versionVector conflict.current)
          (versionVector conflict.alternate)))) next.deviceId with
    | .error fault => .error fault
    | .ok restored => .ok (next.setProfile conflict.profileId (profile.setModule conflict.moduleId
        (setRecords module (existing.insert conflict.recordId restored))))

def restoreModule (host : Host) (next : Snapshot) (conflict : ArchivedConflict) : Snapshot :=
  let profile := (next.profiles.find conflict.profileId).getD
    { id := [], account := { environment := [], userId := [] } }
  let variants := (arrayField next.extra opaqueVariantsField).filter fun value =>
    let variant := value.toObject
    variant.find (u "module") ≠ some (Json.ofObject conflict.alternate) ||
      readAccount (Json.asObject (variant.find (u "account"))) ≠ profile.account
  let previous := opaqueVariant (host.fingerprint conflict.current) profile.account conflict.current
  { next.setProfile conflict.profileId (profile.setModule conflict.moduleId conflict.alternate) with
    extra := next.extra.insert opaqueVariantsField (.arr (unite variants [previous])) }

/-- Metadata after the value of a field was restored. -/
def restoreField (conflict : ArchivedConflict) (target : JObject) : JObject :=
  let selected := conflict.alternate.find conflict.field
  let variants := (arrayField target metadataVariantsField).filter fun value =>
    let variant := value.toObject
    Json.asText (variant.find (u "field")) ≠ conflict.field || variant.find (u "value") ≠ selected
  let previous := Json.ofObject (match target.find conflict.field with
    | some value => object [(u "field", .str conflict.field), (u "value", value)]
    | none => object [(u "field", .str conflict.field)])
  let restored := match selected with
    | some value => target.insert conflict.field value
    | none => target.erase conflict.field
  restored.insert metadataVariantsField (.arr (unite variants [previous]))

/-- Metadata of a scope after the value of a field was restored. -/
def restoreMetadata (next : Snapshot) (conflict : ArchivedConflict) : Snapshot :=
  let profile := (next.profiles.find conflict.profileId).getD
    { id := [], account := { environment := [], userId := [] } }
  let asset := (next.assets.find conflict.moduleId).getD { sha256 := [] }
  let restore := restoreField conflict
  match conflict.scope with
  | .rootExtra => { next with extra := restore next.extra }
  | .rootTransfer => { next with transfer := restore next.transfer }
  | .profileExtra => next.setProfile conflict.profileId { profile with extra := restore profile.extra }
  | .profileTransfer =>
    next.setProfile conflict.profileId { profile with transfer := restore profile.transfer }
  | .moduleExtra => next.setProfile conflict.profileId (profile.setModule conflict.moduleId
      (restore ((profile.modules.find conflict.moduleId).getD ∅)))
  | .assetExtra =>
    { next with
      assets := next.assets.insert conflict.moduleId { asset with extra := restore asset.extra } }
  | .assetTransfer =>
    { next with
      assets := next.assets.insert conflict.moduleId { asset with transfer := restore asset.transfer } }
  | .record | .module => next

/-- A restoration up to the pass over the bindings. -/
def prepareRestore (host : Host) (env : Env) (state : Snapshot) (archiveId expectedGeneration : Text) :
    Result Snapshot := do
  orFault env.loadFault
  if state.generation ≠ expectedGeneration then
    failure .stale "Local data changed; review the saved version again."
  else
    match (walkArchives host state).find? fun conflict => conflict.id = archiveId with
    | none => failure .stale "The saved version is no longer available."
    | some conflict =>
      match conflict.scope with
      | .record => restoreRecord state conflict
      | .module => .ok (restoreModule host state conflict)
      | _ => .ok (restoreMetadata state conflict)

def restoreConflict (host : Host) (env : Env) (state : Snapshot)
    (archiveId expectedGeneration : Text) : Result Snapshot := do
  let restored ← prepareRestore host env state archiveId expectedGeneration
  let next ← normalizeSnapshot restored
  commit host env state next

/-! ### Operations -/

/-- The operations that commit. -/
inductive Op where
  | mutate (account : Account) (id : Text) (change : JObject → Result JObject)
      (assets : OrdMap Text Asset)
  | applyImport (plan : MergePlan) (choices : OrdMap Text ConflictChoice)
  | restoreConflict (archiveId expectedGeneration : Text)

def run (host : Host) (env : Env) (state : Snapshot) : Op → Result Snapshot
  | .mutate account id change assets => mutateWithAssets host env state account id change assets
  | .applyImport plan choices => applyImport host env state plan choices
  | .restoreConflict archiveId expectedGeneration =>
    restoreConflict host env state archiveId expectedGeneration

/-- The committed snapshot after an operation, and its result. -/
def exec (host : Host) (env : Env) (state : Snapshot) (op : Op) : Snapshot × Result Unit :=
  match run host env state op with
  | .ok next => (next, .ok ())
  | .error fault => (state, .error fault)

/-- The empty snapshot of a store that was not used before. -/
def baseline (generation deviceId : Text) : Snapshot := { generation, deviceId }

/-! ### A plain store -/

/-- Numbers in decimal and texts between quotes, as JSON has them when nothing is escaped. -/
def plainWriter : Json.Writer where
  number q := toLatin1 (LocalTransfer.numberText q.num)
  text t := 34 :: toLatin1 t ++ [34]

/-- A store that knows the module of saved tags only. -/
def plainHost : Host where
  writer := plainWriter
  sha256 := fun bytes => fromLatin1 bytes
  registry :=
    { definitions := OrdMap.ofList [(u "saved_tags",
        { id := u "saved_tags", schemaVersion := 2, validate := fun _ _ => .ok ()
          assetReferences := fun _ => [] })]
      savedTags := ⟨_, rfl, rfl⟩ }

/-- The UUID of one digit. -/
def plainId (digit : UInt16) : Text :=
  let part := fun n => List.replicate n digit
  part 8 ++ 45 :: part 4 ++ 45 :: part 4 ++ 45 :: part 4 ++ 45 :: part 12

def plainEnv : Env where
  newId _ := plainId 49
  generation := plainId 50
  stamp := { packageId := plainId 51, createdAt := u "2026-01-01T00:00:00Z" }

/-- Surroundings that draw a new identity each time. -/
def countedEnv : Env := { plainEnv with newId := fun n => List.replicate (n + 1) 49 }

def plainAccount : Account where
  environment := u "production"
  userId := u "1"

/-- A new store. -/
def plainBaseline : Snapshot := baseline (plainId 52) (plainId 53)

/-- A write of records to the saved tags of an account. -/
def plainWrite (values : List JObject) : Op :=
  .mutate plainAccount (u "saved_tags")
    (fun module => .ok (module.insert (u "records") (.arr (values.map Json.ofObject)))) ∅

/-- A tag, deleted or not. -/
def plainTag (id : Text) (deleted : Bool) : JObject :=
  object [(u "id", .str id), (u "kind", .str (u "tag")), (u "deleted", .bool deleted),
    (u "title", .str (u "a")), (u "emoji", .str (u "b")), (u "position", .num 1)]

/-- A binding of a tag to the message 5 of the account. -/
def plainBinding (id tag : Text) : JObject :=
  object [(u "id", .str id), (u "kind", .str (u "binding")), (u "deleted", .bool false),
    (u "tag_id", .str tag), (u "message", Json.ofObject (object [
      (u "peer_type", .str (u "user")), (u "peer_id", .str (u "1")),
      (u "message_id", .str (u "5"))]))]

/-- A plain store after an import, with one choice for all conflicts. -/
def plainImport (choice : ConflictChoice) (state incoming : Snapshot) : Snapshot :=
  match prepareImport plainHost plainEnv state incoming with
  | .ok plan => (exec plainHost plainEnv state (.applyImport plan
      (OrdMap.ofList (plan.conflicts.map fun conflict => (conflict.id, choice))))).1
  | .error _ => state

/-- The record at a place of a snapshot. -/
def recordAt (snapshot : Snapshot) (key id rid : Text) : Option JObject :=
  ((snapshot.profiles.find key).bind fun profile => profile.modules.find id).bind fun module =>
    (records module).find rid

/-! ### What a local write has done -/

section Write

variable {host : Host} {env : Env} {state : Snapshot} {account : Account} {id : Text}
  {change : JObject → Result JObject} {assets : OrdMap Text Asset}

/-- The profile of an account is one of the snapshot. -/
lemma find_of_profileOf {profile : Profile} (h : profileOf state account = some profile) :
    ∃ key, state.profiles.find key = some profile ∧ profile.account = account := by
  unfold profileOf at h
  obtain ⟨key, hkey⟩ := OrdMap.mem_values_iff.mp (List.mem_of_find?_eq_some h)
  exact ⟨key, hkey, by simpa using List.find?_some h⟩

/-- The profiles of a local write that it does not write are as they were. -/
lemma find_profilesToWrite {key : Text} (hne : key ≠ (profileToWrite env state account).id) :
    (profilesToWrite env state account).find key = state.profiles.find key := by
  unfold profilesToWrite
  dsimp only
  split_ifs
  · rfl
  · exact OrdMap.find_insert_of_ne hne _ _

/-- A module of the profile that a local write writes is one that was there. -/
lemma find_of_profileToWrite {key : Text} {module : JObject}
    (h : (profileToWrite env state account).modules.find key = some module) :
    ∃ key' profile, state.profiles.find key' = some profile ∧
      profile.modules.find key = some module ∧ profile.account = account := by
  unfold profileToWrite at h
  cases hprofile : profileOf state account with
  | none =>
    rw [hprofile] at h
    cases h
  | some profile =>
    rw [hprofile] at h
    obtain ⟨key', hkey', haccount⟩ := find_of_profileOf hprofile
    exact ⟨key', profile, hkey', h, haccount⟩

/-- **What a local write is made of.** -/
lemma prepareWrite_some {write : Write}
    (h : prepareWrite host env state account id change assets = .ok (some write)) :
    ∃ nextAssets module after,
      host.supportedModule id (schemaVersion (moduleToWrite host env state account id)) = true ∧
      change (moduleToWrite host env state account id) = .ok module ∧
      changedRecords (fun n => env.newId (n + 1)) state.deviceId
        (moduleToWrite host env state account id) module = .ok after ∧
      addAssets assets.entries state.assets = .ok nextAssets ∧
      write =
        { next :=
            { state with
              assets := nextAssets
              profiles := profilesToWrite env state account }
          profile := profileToWrite env state account
          module := setRecords module after } := by
  obtain ⟨-, h⟩ := (check_ok (failure_ne_ok _ _)).mp h
  obtain ⟨⟨⟩, -, h⟩ := bind_ok.mp h
  obtain ⟨nextAssets, hassets, h⟩ := bind_ok.mp h
  obtain ⟨hsupported, h⟩ := (check_ok (failure_ne_ok _ _)).mp h
  obtain ⟨module, hchange, h⟩ := bind_ok.mp h
  split_ifs at h with hsame
  · cases h
  · obtain ⟨after, hafter, h⟩ := bind_ok.mp h
    cases h
    exact ⟨nextAssets, module, after, by simpa using hsupported, hchange, hafter, hassets, rfl⟩

/-- A local write that succeeds changes nothing, or it commits its module after the pass over the
bindings. -/
lemma mutateWithAssets_ok {next : Snapshot}
    (h : mutateWithAssets host env state account id change assets = .ok next) :
    next = state ∨ ∃ write module,
      prepareWrite host env state account id change assets = .ok (some write) ∧
      normalizeBindings write.module write.next.deviceId = .ok module ∧
      commit host env state (write.snapshot id module) = .ok next := by
  obtain ⟨prepared, hprepared, h⟩ := bind_ok.mp h
  cases prepared with
  | none => exact Or.inl (Except.ok.inj h).symm
  | some write =>
    obtain ⟨module, hmodule, h⟩ := bind_ok.mp h
    exact Or.inr ⟨write, module, hprepared, hmodule, h⟩

end Write

end LocalData
