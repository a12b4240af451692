import Telegravim.LocalData.Validate

set_option autoImplicit false

/-!
# Local data: merging

Version vectors, the merge of metadata with what it keeps of both sides, the archived versions of a
snapshot, and the pass that keeps the bindings of saved tags consistent.

## Main definitions

* `LocalData.advance`, `LocalData.joinedVector`, `LocalData.compare` — version vectors.
* `LocalData.mergeExtra`, `LocalData.resolveMetadata`, `LocalData.addConflict`,
  `LocalData.mergeMetadata` — metadata.
* `LocalData.walkArchives` — the archived versions of a snapshot.
* `LocalData.normalizeBindings` — the pass over the bindings of saved tags.
-/

namespace LocalData

open Text

/-! ### Version vectors -/

/-- The vector with the greater counter of every device of the second one. -/
def joinedVector (first second : JObject) : JObject :=
  second.entries.foldl (fun result entry => result.insert entry.1
    (.num (max (Json.asDouble 0 (result.find entry.1)) (Json.asDouble 0 (some entry.2))))) first

/-- The record with the counter of a device incremented. -/
def advance (record : JObject) (device : Text) : Result JObject :=
  let vector := versionVector record
  let counter := Json.asDouble 0 (vector.find device)
  if counter ≥ kMaxCounter ∨ vector.entries.length > 256 ∨
      (vector.entries.length = 256 ∧ vector.contains device = false) then
    failure .invalid "Record version limit exceeded."
  else .ok (record.insert (u "version_vector")
    (Json.ofObject (vector.insert device (.num (counter + 1)))))

inductive VectorOrder where
  | equal
  | before
  | after
  | concurrent
deriving DecidableEq

def compare («local» incoming : JObject) : VectorOrder :=
  let first := versionVector «local»
  let second := versionVector incoming
  let greater := first.entries.any fun entry =>
    Json.asDouble 0 (some entry.2) > Json.asDouble 0 (second.find entry.1)
  let less := first.entries.any (fun entry =>
      Json.asDouble 0 (some entry.2) < Json.asDouble 0 (second.find entry.1)) ||
    second.entries.any fun entry =>
      Json.asDouble 0 (some entry.2) > Json.asDouble 0 (first.find entry.1)
  if greater && less then .concurrent
  else if greater then .after
  else if less then .before
  else .equal

/-! ### Metadata -/

def metadataVariantsField : Text := u "_telegravim_metadata_variants"
def opaqueVariantsField : Text := u "_telegravim_opaque_variants"
def conflictVersionsField : Text := u "_telegravim_conflict_versions"
def resolutionsField : Text := u "_telegravim_resolutions"

def bookkeepingField (field : Text) : Bool :=
  field = metadataVariantsField || field = opaqueVariantsField || field = conflictVersionsField ||
    field = resolutionsField

mutual

/-- A value without bookkeeping fields at any depth. -/
def semanticValue : Json → Json
  | .obj entries => .obj (semanticEntries entries)
  | .arr values => .arr (semanticValues values)
  | value => value

def semanticValues : List Json → List Json
  | [] => []
  | value :: values => semanticValue value :: semanticValues values

def semanticEntries : List (Text × Json) → List (Text × Json)
  | [] => []
  | (key, value) :: entries =>
    if bookkeepingField key then semanticEntries entries
    else (key, semanticValue value) :: semanticEntries entries

end

def semanticObject (value : JObject) : JObject := (semanticValue (Json.ofObject value)).toObject

/-- The values of a list and those of another that it does not have. -/
def unite (first second : List Json) : List Json :=
  second.foldl (fun result value => if value ∈ result then result else result ++ [value]) first

def arrayField (o : JObject) (field : Text) : List Json := Json.asArray (o.find field)

/-- Keeps the value of a field in the array of metadata variants. -/
def metadataVariant (field : Text) (value : Json) : Json :=
  Json.ofObject (object [(u "field", .str field), (u "value", value)])

def mergeField («local» : JObject) (entry : Text × Json) : JObject :=
  match «local».find entry.1 with
  | none => «local».insert entry.1 entry.2
  | some value =>
    if bookkeepingField entry.1 && value.isArray && entry.2.isArray then
      «local».insert entry.1 (.arr (unite (Json.asArray (some value)) (Json.asArray (some entry.2))))
    else if value ≠ entry.2 then
      «local».insert metadataVariantsField (.arr (unite (arrayField «local» metadataVariantsField)
        [metadataVariant entry.1 entry.2]))
    else «local»

def mergeExtra («local» incoming : JObject) : JObject := incoming.entries.foldl mergeField «local»

def resolveMetadata («local» incoming : JObject) (choice : ConflictChoice) : JObject :=
  if choice = .keepBoth then mergeExtra «local» incoming
  else
    let selected := if choice = .useIncoming then incoming else «local»
    let remainder := if choice = .useIncoming then «local» else incoming
    mergeExtra selected (selected.entries.foldl (fun result entry =>
      if bookkeepingField entry.1 then result else result.erase entry.1) remainder)

def metadataConflict («local» incoming : JObject) : Bool :=
  incoming.entries.any fun entry => !bookkeepingField entry.1 &&
    («local».find entry.1).any fun value => semanticValue value ≠ semanticValue entry.2

/-- The fields of two objects that the other one has with another value. -/
def competing («local» incoming : JObject) : JObject × JObject :=
  let kept := «local».entries.filter fun entry =>
    (incoming.find entry.1).any fun value => value ≠ entry.2
  let «local» := object kept
  («local», object (incoming.entries.filter fun entry => «local».contains entry.1))

/-- The identity of a conflict. -/
def conflictId (host : Host) (profileId moduleId recordId : Text) («local» incoming : JObject) :
    Text :=
  let identities :=
    if recordId.head? = some 64 then competing (semanticObject «local») (semanticObject incoming)
    else (semanticObject «local», semanticObject incoming)
  host.fingerprint (object [
    (u "profile", .str profileId),
    (u "module", .str moduleId),
    (u "record", .str recordId),
    (u "local", Json.ofObject identities.1),
    (u "incoming", Json.ofObject identities.2)])

/-- Lists a conflict, unless it was resolved before. -/
def addConflict (host : Host) (plan : MergePlan) (profileId moduleId recordId : Text)
    («local» incoming : JObject) : MergePlan × Bool :=
  let id := conflictId host profileId moduleId recordId «local» incoming
  if Json.str id ∈ arrayField plan.merged.extra resolutionsField then (plan, false)
  else ({ plan with conflicts :=
    plan.conflicts ++ [{ id, profileId, moduleId, recordId, «local», incoming }] }, true)

/-- Merges metadata, with a conflict when fields compete. -/
def mergeMetadata (host : Host) (plan : MergePlan) (profile module scope : Text)
    («local» incoming : JObject) : MergePlan × JObject :=
  if metadataConflict «local» incoming then
    let (plan, added) := addConflict host plan profile module scope «local» incoming
    (plan, if added then mergeExtra «local» incoming
      else resolveMetadata «local» incoming .keepLocal)
  else (plan, mergeExtra «local» incoming)

/-! ### Archived versions -/

def archiveId (host : Host) (conflict : ArchivedConflict) : Text :=
  host.fingerprint (object [
    (u "scope", .num conflict.scope.number),
    (u "profile", .str conflict.profileId),
    (u "module", .str conflict.moduleId),
    (u "record", .str conflict.recordId),
    (u "field", .str conflict.field),
    (u "alternate", Json.ofObject conflict.alternate)])

def identified (host : Host) (conflict : ArchivedConflict) : ArchivedConflict :=
  { conflict with id := archiveId host conflict }

/-- A field of an object, as an object with this field only; empty when the field is missing. -/
def fieldOf (field : Text) (value : Option Json) : JObject :=
  match value with
  | some value => object [(field, value)]
  | none => ∅

/-- The metadata variants of an object. -/
def archivedMetadata (host : Host) (scope : ArchiveScope) (profile module : Text) (o : JObject) :
    List ArchivedConflict :=
  (arrayField o metadataVariantsField).filterMap fun value =>
    let variant := value.toObject
    let field := Json.asText (variant.find (u "field"))
    if field = [] then none
    else (variant.find (u "value")).map fun value => identified host
      { profileId := profile, moduleId := module, current := fieldOf field (o.find field)
        alternate := fieldOf field (some value), scope, field }

/-- The archived versions of the records of a module. -/
def archivedRecords (host : Host) (profile module : Text) (value : JObject) :
    List ArchivedConflict :=
  (arrayField value (u "records")).flatMap fun value =>
    let record := value.toObject
    (arrayField record conflictVersionsField).map fun alternate => identified host
      { profileId := profile, moduleId := module, recordId := recordId record, current := record
        alternate := alternate.toObject }

def archivedModule (host : Host) (profile module : Text) (value : JObject) : List ArchivedConflict :=
  if host.supportedModule module (schemaVersion value) then
    archivedMetadata host .moduleExtra profile module value ++
      archivedRecords host profile module value
  else []

def archivedProfile (host : Host) (profile : Profile) : List ArchivedConflict :=
  archivedMetadata host .profileExtra profile.id [] profile.extra ++
    archivedMetadata host .profileTransfer profile.id [] profile.transfer ++
    profile.modules.entries.flatMap fun entry => archivedModule host profile.id entry.1 entry.2

/-- The first profile of an account. -/
def profileOf (snapshot : Snapshot) (account : Account) : Option Profile :=
  snapshot.profiles.values.find? fun profile => profile.account = account

/-- The archived opaque modules, each under the profile of its account. -/
def archivedOpaque (host : Host) (snapshot : Snapshot) : List ArchivedConflict :=
  (arrayField snapshot.extra opaqueVariantsField).filterMap fun value =>
    let variant := value.toObject
    let module := Json.asObject (variant.find (u "module"))
    (profileOf snapshot (readAccount (Json.asObject (variant.find (u "account"))))).map
      fun profile => identified host
        { profileId := profile.id, moduleId := moduleId module
          current := (profile.modules.find (moduleId module)).getD ∅
          alternate := module, scope := .module }

def archivedAsset (host : Host) (entry : Text × Asset) : List ArchivedConflict :=
  archivedMetadata host .assetExtra [] entry.1 entry.2.extra ++
    archivedMetadata host .assetTransfer [] entry.1 entry.2.transfer

/-- The archived versions of a snapshot, in the order in which they are visited. -/
def walkArchives (host : Host) (snapshot : Snapshot) : List ArchivedConflict :=
  archivedMetadata host .rootExtra [] [] snapshot.extra ++
    archivedMetadata host .rootTransfer [] [] snapshot.transfer ++
    snapshot.profiles.values.flatMap (archivedProfile host) ++
    archivedOpaque host snapshot ++
    snapshot.assets.entries.flatMap (archivedAsset host)

/-- A page of the archived versions. -/
def archivedConflicts (host : Host) (snapshot : Snapshot) (offset limit : ℤ) :
    List ArchivedConflict :=
  if offset < 0 ∨ limit ≤ 0 then []
  else ((walkArchives host snapshot).drop offset.toNat).take (min limit 100).toNat

/-! ### Bindings of saved tags -/

/-- Whether a record is an active binding. -/
def activeBinding (record : JObject) : Bool :=
  recordKind record = u "binding" && !isDeleted record

/-- What a binding assigns: its tag and its message. -/
def bindingIdentity (record : JObject) : Text :=
  bindingTag record ++ u ":" ++ bindingMessageId record

/-- A binding marked deleted, with its former value archived. -/
def tombstone (record : JObject) (duplicate : Text) : JObject :=
  let previous := record.erase conflictVersionsField
  let archived := (record.insert conflictVersionsField
    (.arr (unite (arrayField record conflictVersionsField) [Json.ofObject previous]))).insert
      (u "deleted") (.bool true)
  if duplicate = [] then archived
  else archived.insert (u "_telegravim_duplicate_of") (.str duplicate)

/-- The loop of `NormalizeBindings`: the records that are still to visit, all records as they are
now, and the active bindings seen so far by what they assign. -/
def normalizeLoop (device : Text) : List (Text × JObject) → OrdMap Text JObject → OrdMap Text Text →
    Result (OrdMap Text JObject)
  | [], current, _ => .ok current
  | (id, record) :: rest, current, active =>
    if activeBinding record = false then normalizeLoop device rest current active
    else
      let duplicate := (active.find (bindingIdentity record)).getD []
      if isDeleted ((current.find (bindingTag record)).getD ∅) ∨ duplicate ≠ [] then
        match advance (tombstone record duplicate) device with
        | .error fault => .error fault
        | .ok deleted => normalizeLoop device rest (current.insert id deleted) active
      else normalizeLoop device rest current (active.insert (bindingIdentity record) id)

/-- Whether the pass over bindings looks at a module. -/
def isSavedTags (module : JObject) : Bool :=
  moduleId module = u "saved_tags" && (schemaVersion module = 1 || schemaVersion module = 2)

def normalizeBindings (module : JObject) (device : Text) : Result JObject :=
  if isSavedTags module = false then .ok module
  else
    match normalizeLoop device (records module).entries (records module) ∅ with
    | .error fault => .error fault
    | .ok normalized => .ok (setRecords module normalized)

end LocalData
