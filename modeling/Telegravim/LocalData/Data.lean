import Telegravim.Foundation.JsonText

set_option autoImplicit false

/-!
# Local data: values and snapshots

The data of `storage/local_data_store.h`: accounts, profiles, assets, snapshots, conflicts and
archived versions, the limits, and what the store takes from its surroundings.

## Main definitions

* `LocalData.Snapshot`, `LocalData.Profile`, `LocalData.Asset` — a generation of local data.
* `LocalData.Conflict`, `LocalData.MergePlan`, `LocalData.ArchivedConflict` — what an import finds
  and what is kept of it.
* `LocalData.ModuleDefinition`, `LocalData.Registry` — the modules the program knows.
* `LocalData.Host` — the JSON text, the digest and the registry.
-/

namespace LocalData

open Text

/-! ### Results -/

inductive Error where
  | cancelled
  | invalid
  | io
  | locked
  | conflict
  | stale
  | corrupt
  | unsupported
deriving DecidableEq

structure Fault where
  code : Error
  message : Text
deriving DecidableEq

abbrev Result (α : Type) := Except Fault α

def failure {α : Type} (code : Error) (message : String) : Result α := .error ⟨code, u message⟩

@[simp] lemma failure_ne_ok {α : Type} (code : Error) (message : String) (value : α) :
    failure code message ≠ .ok value := by
  simp [failure]

lemma toOption_eq_some {α : Type} {result : Result α} {value : α} :
    result.toOption = some value ↔ result = .ok value := by
  cases result <;> simp [Except.toOption]

/-- A computation in two parts succeeds when both do. -/
lemma bind_ok {α β : Type} {first : Result α} {next : α → Result β} {value : β} :
    (first >>= next) = .ok value ↔ ∃ middle, first = .ok middle ∧ next middle = .ok value := by
  cases first with
  | ok middle =>
    constructor
    · intro h
      exact ⟨middle, rfl, h⟩
    · rintro ⟨_, hfirst, hnext⟩
      cases hfirst
      exact hnext
  | error fault =>
    constructor
    · intro h
      cases h
    · rintro ⟨_, hfirst, -⟩
      cases hfirst

/-- A check before a computation. -/
lemma check_ok {α : Type} {condition : Prop} [Decidable condition] {first next : Result α} {value : α}
    (hfail : ∀ value, first ≠ .ok value) :
    (if condition then first else next) = .ok value ↔ ¬condition ∧ next = .ok value := by
  split_ifs with h
  · exact ⟨fun hfirst => absurd hfirst (hfail value), fun ⟨hnot, _⟩ => absurd h hnot⟩
  · exact ⟨fun hnext => ⟨h, hnext⟩, fun ⟨_, hnext⟩ => hnext⟩

/-! ### Snapshots -/

structure Account where
  environment : Text
  userId : Text
deriving DecidableEq

/-- An asset; its content is read from where it is stored. -/
structure Asset where
  sha256 : Text
  size : ℤ := 0
  extra : JObject := ∅
  transfer : JObject := ∅
deriving DecidableEq

structure Profile where
  id : Text
  account : Account
  extra : JObject := ∅
  modules : OrdMap Text JObject := ∅
  transfer : JObject := ∅
deriving DecidableEq

structure Snapshot where
  generation : Text := []
  deviceId : Text := []
  extra : JObject := ∅
  profiles : OrdMap Text Profile := ∅
  assets : OrdMap Text Asset := ∅
  transfer : JObject := ∅
deriving DecidableEq

/-! ### Conflicts and archives -/

inductive ConflictChoice where
  | keepLocal
  | useIncoming
  | keepBoth
deriving DecidableEq

structure Conflict where
  id : Text
  profileId : Text
  moduleId : Text
  recordId : Text
  incoming : JObject
  «local» : JObject
deriving DecidableEq

structure MergePlan where
  baseGeneration : Text
  merged : Snapshot
  conflicts : List Conflict := []
  unsupportedModules : List Text := []
  accounts : List Text := []
deriving DecidableEq

inductive ArchiveScope where
  | record
  | module
  | rootExtra
  | rootTransfer
  | profileExtra
  | profileTransfer
  | moduleExtra
  | assetExtra
  | assetTransfer
deriving DecidableEq

/-- The number of a scope, as its identity has it. -/
def ArchiveScope.number : ArchiveScope → ℚ
  | record => 0
  | module => 1
  | rootExtra => 2
  | rootTransfer => 3
  | profileExtra => 4
  | profileTransfer => 5
  | moduleExtra => 6
  | assetExtra => 7
  | assetTransfer => 8

structure ArchivedConflict where
  id : Text := []
  profileId : Text := []
  moduleId : Text := []
  recordId : Text := []
  current : JObject
  alternate : JObject
  scope : ArchiveScope := .record
  field : Text := []
deriving DecidableEq

structure Limits where
  maxJsonBytes : ℤ := 256 * 1024 * 1024
  maxModuleBytes : ℤ := 16 * 1024 * 1024
  maxRecordBytes : ℤ := 256 * 1024
  maxAssetBytes : ℤ := 32 * 1024 * 1024 * 1024
  maxAssetTotalBytes : ℤ := 32 * 1024 * 1024 * 1024
  maxProfiles : ℕ := 128
  maxModules : ℕ := 128
  maxRecords : ℤ := 1000000
  maxAssets : ℕ := 100000
  maxDepth : ℕ := 32

/-- The limits of every store. -/
def limits : Limits := {}

/-! ### The registry -/

structure ModuleDefinition where
  id : Text
  schemaVersion : ℤ := 1
  validate : JObject → Account → Result Unit
  assetReferences : JObject → List Text

/-- The registered modules. The module of saved tags is registered from the beginning, and a
registration never replaces another. -/
structure Registry where
  definitions : OrdMap Text ModuleDefinition
  savedTags : ∃ definition, definitions.find (u "saved_tags") = some definition ∧
    definition.schemaVersion = 2

/-- What the store takes from its surroundings: how JSON is written, the SHA-256 digest in
hexadecimal, and the registered modules. -/
structure Host where
  writer : Json.Writer
  sha256 : Bytes → Text
  registry : Registry

/-- The compact text of an object. -/
def Host.json (host : Host) (value : JObject) : Bytes := Json.compact host.writer (Json.ofObject value)

def Host.size (host : Host) (value : JObject) : ℤ := Json.size host.writer value

/-- The digest of the compact text of an object. -/
def Host.fingerprint (host : Host) (value : JObject) : Text := host.sha256 (host.json value)

/-- An object from its entries. -/
def object (entries : List (Text × Json)) : JObject := OrdMap.ofList entries

/-! ### Identifiers -/

def isLowerHex (c : UInt16) : Bool := (48 ≤ c && c ≤ 57) || (97 ≤ c && c ≤ 102)

def isDigit (c : UInt16) : Bool := 48 ≤ c && c ≤ 57

def validHash (value : Text) : Bool := value.length = 64 && value.all isLowerHex

/-- A UUID that is not null, in its canonical text: lower-case hexadecimal with four dashes. -/
def validId (value : Text) : Bool :=
  value.length = 36 &&
    (value.zipIdx.all fun (c, i) => if i = 8 ∨ i = 13 ∨ i = 18 ∨ i = 23 then c = 45 else isLowerHex c)
    && value.any fun c => c ≠ 48 && c ≠ 45

/-- A positive number of at most twenty digits without leading zeros. -/
def isDecimal (value : Text) : Bool :=
  value ≠ [] && value.length ≤ 20 && value.head?.any (fun c => 49 ≤ c && c ≤ 57) && value.all isDigit

def isModuleId (value : Text) : Bool :=
  value ≠ [] && value.length ≤ 96 && value.all fun c => (97 ≤ c && c ≤ 122) || isDigit c || c = 95

def accountId (account : Account) : Text := account.environment ++ u ":" ++ account.userId

def accountJson (account : Account) : JObject :=
  object [(u "environment", .str account.environment), (u "user_id", .str account.userId)]

def readAccount (account : JObject) : Account where
  environment := Json.asText (account.find (u "environment"))
  userId := Json.asText (account.find (u "user_id"))

def validAccount (account : Account) : Bool :=
  (account.environment = u "production" || account.environment = u "test") &&
    isDecimal account.userId && (toULongLong account.userId).any (· ≠ 0)

/-! ### Modules -/

/-- The definition of a module, of any version when the version is negative. -/
def Host.definition (host : Host) (id : Text) (version : ℤ) : Option ModuleDefinition :=
  (host.registry.definitions.find id).filter fun definition =>
    version < 0 || definition.schemaVersion = version ||
      (id = u "saved_tags" && version = 1 && definition.schemaVersion = 2)

def Host.supportedModule (host : Host) (id : Text) (version : ℤ) : Bool :=
  (host.definition id version).isSome

def schemaVersion (module : JObject) : ℤ := Json.asInt (module.find (u "schema_version"))

def Host.emptyModule (host : Host) (id : Text) : JObject :=
  object [(u "module_id", .str id),
    (u "schema_version", .num (((host.definition id (-1)).map ModuleDefinition.schemaVersion).getD 1)),
    (u "records", .arr [])]

/-! ### Records -/

def recordId (record : JObject) : Text := Json.asText (record.find (u "id"))

def isDeleted (record : JObject) : Bool := Json.asBool (record.find (u "deleted"))

def versionVector (record : JObject) : JObject := Json.asObject (record.find (u "version_vector"))

/-- The counter of a device in a record; zero for a device that did not write it. -/
def counter (record : JObject) (device : Text) : ℚ :=
  Json.asDouble 0 ((versionVector record).find device)

/-- The records of a module by their ids. -/
def records (module : JObject) : OrdMap Text JObject :=
  (Json.asArray (module.find (u "records"))).foldl
    (fun result value => result.insert (recordId value.toObject) value.toObject) ∅

def setRecords (module : JObject) (records : OrdMap Text JObject) : JObject :=
  module.insert (u "records") (.arr (records.values.map Json.ofObject))

end LocalData
