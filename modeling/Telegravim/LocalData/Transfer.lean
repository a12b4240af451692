import Telegravim.LocalData.Data

set_option autoImplicit false

/-!
# The shape of a transfer package

`storage/local_transfer_format.cpp`: the manifest and the files of the package a snapshot is
written to. A snapshot that is stored must have a package too, so the store runs `prepare` on every
snapshot it saves.

## Main definitions

* `LocalTransfer.prepare` — the manifest and the files of the package of a snapshot.
* `LocalTransfer.validateShape` — whether a snapshot has a package.
-/

namespace LocalTransfer

open Text LocalData

def kManifestLimit : ℤ := 32 * 1024 * 1024
def kJsonLimit : ℤ := 16 * 1024 * 1024
def kAllJsonLimit : ℤ := 256 * 1024 * 1024
def kEntryLimit : ℕ := 116512
def kPackageLimit : ℤ := 33 * 1024 * 1024 * 1024
def kAssetLimit : ℤ := 32 * 1024 * 1024 * 1024
def kDepthLimit : ℕ := 32

/-- A file of a package. -/
structure Entry where
  path : Text
  size : ℤ := 0
  hash : Bytes
  json : Bytes := []
  extra : JObject
deriving DecidableEq

structure Manifest where
  json : Bytes := []
  entries : List Entry := []
  payloadBytes : ℤ := 0
deriving DecidableEq

def invalid {α : Type} : Result α :=
  failure .invalid "Invalid or unsupported transfer package."

def limitError {α : Type} : Result α :=
  failure .invalid ("Transfer limit exceeded: 256 MiB of JSON, 16 MiB per module, " ++
    "32 GiB of resources, 33 GiB per package and 116512 files (32 MiB manifest).")

/-- Known values over what was retained. -/
def canonical (extra known : JObject) : JObject :=
  known.entries.foldl (fun result entry => result.insert entry.1 entry.2) extra

def retainedMetadata (transfer : JObject) (structural : List Text) : JObject :=
  structural.foldl (fun result key => result.erase key) transfer

/-- A hash, to which the pattern that the program uses lets a line end be appended. -/
def isHash (value : Text) : Bool :=
  validHash value || (value.getLast? = some 10 && validHash value.dropLast)

/-- Whether a JSON text is nested no deeper than the limit: brackets outside strings. -/
def boundedText : Bytes → ℕ → Bool → Bool → Bool
  | [], depth, quoted, _ => !quoted && depth = 0
  | ch :: rest, depth, true, true => let _ := ch; boundedText rest depth true false
  | ch :: rest, depth, true, false =>
    if ch = 92 then boundedText rest depth true true
    else if ch = 34 then boundedText rest depth false false
    else boundedText rest depth true false
  | ch :: rest, depth, false, _ =>
    if ch = 34 then boundedText rest depth true false
    else if ch = 123 ∨ ch = 91 then depth < kDepthLimit && boundedText rest (depth + 1) false false
    else if ch = 125 ∨ ch = 93 then 0 < depth && boundedText rest (depth - 1) false false
    else boundedText rest depth false false

def boundedJson (bytes : Bytes) : Bool := boundedText bytes 0 false false

def zeroHash : Bytes := List.replicate 64 48

/-- The files written so far. -/
structure Draft where
  entries : List Entry := []
  jsonBytes : ℤ := 0

def valueObject (o : JObject) (key : String) : JObject := Json.asObject (o.find (u key))

def addJson (host : Host) (includeContent : Bool) (draft : Draft) (path : Text)
    (value extra : JObject) : Result Draft :=
  let bytes := host.json value
  let jsonBytes := draft.jsonBytes + bytes.length
  if bytes.length > kJsonLimit ∨ jsonBytes > kAllJsonLimit ∨ boundedJson bytes = false then limitError
  else .ok
    { entries := draft.entries ++ [{
        path
        size := bytes.length
        hash := if includeContent then toLatin1 (host.sha256 bytes) else zeroHash
        json := if includeContent then bytes else []
        extra }]
      jsonBytes }

/-- The modules of a profile: a file for each, and its place in the manifest. -/
def prepareModules (host : Host) (includeContent : Bool) (profile : Profile) :
    List (Text × JObject) → Draft → List Json → Result (Draft × List Json)
  | [], draft, modules => .ok (draft, modules)
  | (id, module) :: rest, draft, modules => do
    let path := u "profiles/" ++ profile.id ++ u "/" ++ u "modules/" ++ id ++ u ".json"
    if isModuleId id = false then limitError
    let draft ← addJson host includeContent draft path module
      (Json.asObject ((valueObject (valueObject profile.transfer "files") "modules").find id))
    prepareModules host includeContent profile rest draft (modules ++ [Json.ofObject (canonical
      (Json.asObject ((valueObject profile.transfer "modules").find id))
      (object [(u "module_id", .str id), (u "path", .str path)]))])

def prepareProfiles (host : Host) (includeContent : Bool) :
    List (Text × Profile) → Draft → List Json → Result (Draft × List Json)
  | [], draft, profiles => .ok (draft, profiles)
  | (_, profile) :: rest, draft, profiles => do
    let accountPath := u "profiles/" ++ profile.id ++ u "/" ++ u "account.json"
    if validId profile.id = false then limitError
    let draft ← addJson host includeContent draft accountPath
      (canonical (valueObject profile.transfer "account") (object [
        (u "profile_id", .str profile.id),
        (u "environment", .str profile.account.environment),
        (u "user_id", .str profile.account.userId),
        (u "extra", Json.ofObject profile.extra),
        (u "retained_transfer", Json.ofObject (retainedMetadata profile.transfer
          [u "account", u "profile", u "modules", u "files"]))]))
      (valueObject (valueObject profile.transfer "files") "account")
    let (draft, modules) ← prepareModules host includeContent profile profile.modules.entries draft []
    prepareProfiles host includeContent rest draft (profiles ++ [Json.ofObject (canonical
      (valueObject profile.transfer "profile") (object [
        (u "profile_id", .str profile.id),
        (u "account", .str accountPath),
        (u "modules", .arr modules)]))])

def numberText (n : ℤ) : Text := if n < 0 then u "-" ++ decimal n.natAbs else decimal n.natAbs

/-- The assets: a file for each, and its place in the registry of the manifest. -/
def prepareAssets (readable : Text → Bool) (includeContent : Bool) :
    List (Text × Asset) → Draft → List Json → Result (Draft × List Json)
  | [], draft, assets => .ok (draft, assets)
  | (_, asset) :: rest, draft, assets => do
    if isHash asset.sha256 = false ∨ (includeContent ∧ readable asset.sha256 = false) ∨
        asset.size < 0 ∨ asset.size > kAssetLimit then invalid
    prepareAssets readable includeContent rest
      { draft with entries := draft.entries ++ [{
          path := u "assets/" ++ asset.sha256
          size := asset.size
          hash := toLatin1 asset.sha256
          extra := valueObject asset.transfer "file" }] }
      (assets ++ [Json.ofObject (canonical (valueObject asset.transfer "registry") (object [
        (u "sha256", .str asset.sha256),
        (u "size", .str (numberText asset.size)),
        (u "extra", Json.ofObject asset.extra),
        (u "retained_transfer", Json.ofObject (retainedMetadata asset.transfer
          [u "registry", u "file"]))]))])

/-- The place of a file in the manifest. -/
def fileEntry (entry : Entry) : Json :=
  Json.ofObject (canonical entry.extra (object [
    (u "path", .str entry.path),
    (u "size", .str (numberText entry.size)),
    (u "sha256", .str (fromLatin1 entry.hash))]))

/-- The identity and the time of writing of a package. -/
structure Stamp where
  packageId : Text
  createdAt : Text

/-- The manifest and the files of the package of a snapshot. -/
def prepare (host : Host) (readable : Text → Bool) (stamp : Stamp) (snapshot : Snapshot)
    (includeContent : Bool) : Result Manifest := do
  if validId snapshot.deviceId = false ∨ validId snapshot.generation = false then invalid
  let (draft, profiles) ← prepareProfiles host includeContent snapshot.profiles.entries {} []
  let (draft, assets) ← prepareAssets readable includeContent snapshot.assets.entries draft []
  let value := canonical (valueObject snapshot.transfer "manifest") (object [
    (u "format", .str (u "telegravim-transfer")),
    (u "version", .num 1),
    (u "package_id", .str stamp.packageId),
    (u "created_at", .str stamp.createdAt),
    (u "device_id", .str snapshot.deviceId),
    (u "generation", .str snapshot.generation),
    (u "extra", Json.ofObject snapshot.extra),
    (u "retained_transfer", Json.ofObject (retainedMetadata snapshot.transfer [u "manifest"])),
    (u "profiles", .arr profiles),
    (u "assets", .arr assets),
    (u "files", .arr (draft.entries.map fileEntry))])
  let json := host.json value
  let total := (draft.entries.map Entry.size).sum + (12 + json.length)
  if draft.entries.length > kEntryLimit ∨ json.length > kManifestLimit ∨ total > kPackageLimit ∨
      boundedJson json = false then limitError
  .ok { json, entries := draft.entries, payloadBytes := total }

/-- Whether a snapshot has a package. -/
def validateShape (host : Host) (stamp : Stamp) (snapshot : Snapshot) : Result Unit := do
  let _ ← prepare host (fun _ => true) stamp snapshot false
  .ok ()

end LocalTransfer
