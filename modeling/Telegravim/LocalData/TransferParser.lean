import Telegravim.Foundation.Chunks
import Telegravim.LocalData.Transfer

set_option autoImplicit false

/-!
# The parser of transfer packages

`Parser` of `storage/local_transfer.cpp` reads a package piece by piece: twelve bytes with the size
of the manifest, the manifest, and the files it lists, one after another. Each file is checked
against its hash; a JSON file goes into the snapshot, and the content of an asset is encrypted into
a file of a temporary directory, from which the snapshot reads it later.

The JSON reader, the cipher, the random numbers and the files are taken from the surroundings, which
answer the same question in the same way each time: what is already written and what is to be written
decide whether a write succeeds, and the flag that cancels the transfer is set or is not.

## Main definitions

* `LocalTransfer.Surroundings` — what the parser uses.
* `LocalTransfer.Parser` — its state.
* `LocalTransfer.manifest`, `startEntry`, `finishEntry` — reading the manifest, and going from a file
  to the next.
* `LocalTransfer.turn`, `consume` — one turn of the loop, and the loop over a piece of input.

## Main results

* `LocalTransfer.turn_moves` — what a turn does after which the loop goes on.
-/

namespace LocalTransfer

open Text LocalData

/-! ### Surroundings and state -/

/-- What the parser uses: the digest, the JSON reader, the flag that cancels, the random key and
nonces, the cipher, and which files can be opened, written and flushed. A file is known by its
number, and what is to be in it decides whether it can be written. -/
structure Surroundings (κ : Type) where
  sha256 : Bytes → Text
  fromJson : Bytes → Option JObject
  cancelled : Bool
  randomKey : Option Bytes
  randomNonce : ℕ → Option Bytes
  cipherInit : Bytes → Bytes → Bytes → Option κ
  cipherUpdate : κ → Bytes → ℤ → Option (κ × Bytes)
  cipherFinish : κ → Option Bytes
  opens : ℕ → Bool
  holds : ℕ → Bytes → Bool
  flushes : ℕ → Bytes → Bool

/-- A file of the temporary directory, while it is written. -/
structure AssetFile where
  number : ℕ
  content : Bytes
deriving DecidableEq

/-- Where the content of an asset is read from later, and how. -/
structure AssetReader where
  key : Bytes
  nonce : Bytes
  file : AssetFile
  expectedHash : Bytes
  expectedSize : ℤ
deriving DecidableEq

/-- What an inspected package contains. The readers of the assets stand apart from the snapshot. -/
structure Inspection where
  snapshot : Snapshot
  readers : OrdMap Text AssetReader
  packageId : Text
  packageBytes : ℤ
  assetBytes : ℤ
deriving DecidableEq

/-- The state of the parser. What was hashed is kept as it is. -/
structure Parser (κ : Type) where
  result : Inspection
  buffer : Bytes
  manifestSize : ℤ
  entries : List Entry
  jsonTargets : OrdMap Text (Text × Text)
  quarantine : Option Bytes
  asset : Option AssetFile
  cipher : Option κ
  nonce : Bytes
  hashed : Bytes
  remaining : ℕ
  index : ℤ
  loaded : Bool

variable {κ : Type}

/-- The parser at the beginning. -/
def Parser.start (κ : Type) (result : Inspection) : Parser κ where
  result := result
  buffer := []
  manifestSize := -1
  entries := []
  jsonTargets := ∅
  quarantine := none
  asset := none
  cipher := none
  nonce := []
  hashed := []
  remaining := 0
  index := -1
  loaded := false

/-- Whether the whole package has been read. -/
def Parser.finished (s : Parser κ) : Bool :=
  s.loaded && s.index == s.entries.length && s.remaining == 0

/-- A step of the parser: the new state, or the status and the state of a failure. -/
abbrev Parsed (κ : Type) (α : Type) := Except (Fault × Parser κ) α

def invalidFault : Fault := ⟨.invalid, u "Invalid or unsupported transfer package."⟩

def limitFault : Fault :=
  ⟨.invalid, u ("Transfer limit exceeded: 256 MiB of JSON, 16 MiB per module, " ++
    "32 GiB of resources, 33 GiB per package and 116512 files (32 MiB manifest).")⟩

def ioFault : Fault := ⟨.io, u "Could not read or write the transfer file."⟩

def authenticationFault : Fault := ⟨.corrupt, u "Incorrect password or damaged transfer file."⟩

def cancelFault : Fault := ⟨.cancelled, u "Transfer cancelled."⟩

/-! ### The manifest -/

/-- An object without the known keys. -/
def unknown (o : JObject) (keys : List Text) : JObject := keys.foldl (fun o key => o.erase key) o

/-- Add the retained metadata of an object, unless it is no object or has a structural key. -/
def readRetainedMetadata (o transfer : JObject) (structural : List Text) : Option JObject :=
  match o.find (u "retained_transfer") with
  | none => some transfer
  | some (.obj entries) =>
    let retained := Json.toObject (.obj entries)
    if structural.any retained.contains then none
    else some (retained.entries.foldl (fun t entry => t.insert entry.1 entry.2) transfer)
  | some _ => none

/-- A size, written in decimal. -/
def readSize (value : Option Json) : Option ℤ :=
  match value with
  | some (.str text) =>
    ((toULongLong text).filter fun n => n < 2 ^ 63 ∧ decimal n = text).map Int.ofNat
  | _ => none

/-- A JSON text with an object, nested no deeper than the limit. -/
def parseJson (env : Surroundings κ) (bytes : Bytes) : Option JObject :=
  if boundedJson bytes then env.fromJson bytes else none

/-- What the manifest has listed so far. -/
structure Listing where
  result : Inspection
  expected : List Text
  jsonTargets : OrdMap Text (Text × Text)
  jsonBytes : ℤ
  total : ℤ
  entries : List Entry

/-- A step of reading the manifest: a failure keeps what was listed so far. -/
abbrev Listed (α : Type) := Except (Fault × Listing) α

/-- The modules of a profile. -/
def listModule (env : Surroundings κ) (profileId pathStart : Text) (state : Listing × JObject)
    (value : Json) : Listed (Listing × JObject) :=
  let l := state.1
  let module := value.toObject
  let moduleId := Json.asText (module.find (u "module_id"))
  let path := Json.asText (module.find (u "path"))
  if env.cancelled then .error (cancelFault, l)
  else if !isModuleId moduleId ∨ path ≠ pathStart ++ u "modules/" ++ moduleId ++ u ".json" ∨
      path ∈ l.expected then .error (invalidFault, l)
  else .ok
    ({ l with
        expected := path :: l.expected
        jsonTargets := l.jsonTargets.insert path (profileId, moduleId) },
      state.2.insert moduleId (Json.ofObject (unknown module [u "module_id", u "path"])))

/-- Change a profile of the snapshot. -/
def Inspection.updateProfile (r : Inspection) (id : Text) (change : Profile → Profile) :
    Inspection :=
  let profile := (r.snapshot.profiles.find id).getD { id := [], account := ⟨[], []⟩ }
  { r with snapshot := { r.snapshot with
      profiles := r.snapshot.profiles.insert id (change profile) } }

/-- A profile and its modules. -/
def listProfile (env : Surroundings κ) (l : Listing) (value : Json) : Listed Listing := do
  let profile := value.toObject
  let id := Json.asText (profile.find (u "profile_id"))
  let path := Json.asText (profile.find (u "account"))
  let pathStart := u "profiles/" ++ id ++ u "/"
  if env.cancelled then .error (cancelFault, l)
  else if !validId id ∨ path ≠ pathStart ++ u "account.json" ∨ path ∈ l.expected ∨
      !Json.isArrayValue (profile.find (u "modules")) ∨
      limits.maxProfiles ≤ l.result.snapshot.profiles.keys.length then .error (invalidFault, l)
  else
    let kept := Json.ofObject (unknown profile [u "profile_id", u "account", u "modules"])
    let l := { l with
      expected := path :: l.expected
      jsonTargets := l.jsonTargets.insert path (id, [])
      result := { l.result with snapshot := { l.result.snapshot with
        profiles := l.result.snapshot.profiles.insert id
          { id := id, account := ⟨[], []⟩, transfer := (∅ : JObject).insert (u "profile") kept } } } }
    let (l, metadata) ← (Json.asArray (profile.find (u "modules"))).foldlM
      (listModule env id pathStart) (l, ∅)
    .ok { l with result := l.result.updateProfile id fun p =>
      { p with transfer := p.transfer.insert (u "modules") (Json.ofObject metadata) } }

/-- An asset. -/
def listAsset (env : Surroundings κ) (l : Listing) (value : Json) : Listed Listing :=
  let asset := value.toObject
  let hash := Json.asText (asset.find (u "sha256"))
  let path := u "assets/" ++ hash
  if env.cancelled then .error (cancelFault, l)
  else if !isHash hash ∨ path ∈ l.expected ∨ !Json.isObjectValue (asset.find (u "extra")) then
    .error (invalidFault, l)
  else
    match readSize (asset.find (u "size")),
      readRetainedMetadata asset ∅ [u "registry", u "file"] with
    | some size, some transfer =>
      if kAssetLimit < size then .error (invalidFault, l)
      else
        let l := { l with
          expected := path :: l.expected
          result := { l.result with assetBytes := l.result.assetBytes + size } }
        if kAssetLimit < l.result.assetBytes then .error (limitFault, l)
        else
          let registry := Json.ofObject
            (unknown asset [u "sha256", u "size", u "extra", u "retained_transfer"])
          .ok { l with result := { l.result with snapshot := { l.result.snapshot with
            assets := l.result.snapshot.assets.insert hash
              { sha256 := hash, size := size, extra := Json.asObject (asset.find (u "extra")),
                transfer := transfer.insert (u "registry") registry } } } }
    | _, _ => .error (invalidFault, l)

/-- What the metadata of a profile keep of a file. -/
def keepFile (files : JObject) (moduleId : Text) (extra : JObject) : JObject :=
  if moduleId = [] then files.insert (u "account") (Json.ofObject extra)
  else
    let modules := Json.asObject (files.find (u "modules"))
    files.insert (u "modules") (Json.ofObject (modules.insert moduleId (Json.ofObject extra)))

/-- What the snapshot keeps of a file: a JSON file belongs to a profile, another one to an asset. -/
def keepEntry (l : Listing) (path hash : Text) (size : ℤ) (extra : JObject) : Listed Listing :=
  match l.jsonTargets.find path with
  | some target =>
    let l := { l with jsonBytes := l.jsonBytes + size }
    if kJsonLimit < size ∨ kAllJsonLimit < l.jsonBytes then .error (limitFault, l)
    else .ok { l with result := l.result.updateProfile target.1 fun p =>
      { p with transfer := p.transfer.insert (u "files") (Json.ofObject
        (keepFile (Json.asObject (p.transfer.find (u "files"))) target.2 extra)) } }
  | none =>
    match l.result.snapshot.assets.find hash with
    | none => .error (invalidFault, l)
    | some asset =>
      if path ≠ u "assets/" ++ hash ∨ asset.size ≠ size then .error (invalidFault, l)
      else .ok { l with result := { l.result with snapshot := { l.result.snapshot with
        assets := l.result.snapshot.assets.insert hash { asset with
          transfer := asset.transfer.insert (u "file") (Json.ofObject extra) } } } }

/-- A file, as the last part of the manifest lists it. -/
def listFile (env : Surroundings κ) (l : Listing) (value : Json) : Listed Listing := do
  let entry := value.toObject
  let path := Json.asText (entry.find (u "path"))
  let hash := Json.asText (entry.find (u "sha256"))
  if env.cancelled then .error (cancelFault, l)
  else if path ∉ l.expected then .error (invalidFault, l)
  else
    let l := { l with expected := l.expected.erase path }
    match readSize (entry.find (u "size")) with
    | none => .error (invalidFault, l)
    | some size =>
      if !isHash hash ∨ kAssetLimit < size then .error (invalidFault, l)
      else
        let l ← keepEntry l path hash size (unknown entry [u "path", u "size", u "sha256"])
        let l := { l with total := l.total + size }
        if kPackageLimit < l.total ∨ kEntryLimit ≤ l.entries.length then .error (limitFault, l)
        else .ok { l with entries := l.entries ++
          [{ path := path, size := size, hash := toLatin1 hash, extra := ∅ }] }

/-- Read the manifest: what it says of the snapshot, and the files that follow. -/
def readManifest (env : Surroundings κ) (result : Inspection) (buffer : Bytes) :
    Listed Listing := do
  let l : Listing := ⟨result, [], ∅, 0, 0, []⟩
  match parseJson env buffer with
  | none => .error (invalidFault, l)
  | some o =>
    if o.find (u "format") ≠ some (.str (u "telegravim-transfer")) ∨
        Json.asInt (o.find (u "version")) ≠ 1 ∨
        !validId (Json.asText (o.find (u "package_id"))) ∨
        !validId (Json.asText (o.find (u "device_id"))) ∨
        !validId (Json.asText (o.find (u "generation"))) ∨
        !Json.isObjectValue (o.find (u "extra")) ∨
        !Json.isArrayValue (o.find (u "profiles")) ∨
        !Json.isArrayValue (o.find (u "assets")) ∨
        !Json.isArrayValue (o.find (u "files")) then .error (invalidFault, l)
    else
      match readRetainedMetadata o result.snapshot.transfer [u "manifest"] with
      | none => .error (invalidFault, l)
      | some transfer =>
        let kept := Json.ofObject (unknown o [u "format", u "version", u "package_id",
          u "created_at", u "device_id", u "generation", u "extra", u "profiles", u "assets",
          u "files", u "retained_transfer"])
        let l := { l with result := { result with
          packageId := Json.asText (o.find (u "package_id"))
          snapshot := { result.snapshot with
            deviceId := Json.asText (o.find (u "device_id"))
            generation := Json.asText (o.find (u "generation"))
            extra := Json.asObject (o.find (u "extra"))
            transfer := transfer.insert (u "manifest") kept } } }
        let l ← (Json.asArray (o.find (u "profiles"))).foldlM (listProfile env) l
        let l ← (Json.asArray (o.find (u "assets"))).foldlM (listAsset env) l
        let l ← (Json.asArray (o.find (u "files"))).foldlM (listFile env) l
        if l.expected ≠ [] then .error (invalidFault, l) else .ok l

/-! ### Files -/

/-- The temporary directory with its key, made when the first asset starts. -/
def ensureQuarantine (env : Surroundings κ) (s : Parser κ) : Parsed κ (Parser κ × Bytes) :=
  match s.quarantine with
  | some key => .ok (s, key)
  | none =>
    match env.randomKey with
    | some key => .ok ({ s with quarantine := some key }, key)
    | none => .error (ioFault, s)

/-- Go to the next file, if there is one. -/
def startEntry (env : Surroundings κ) (s : Parser κ) : Parsed κ (Parser κ) := do
  let s := { s with index := s.index + 1 }
  match s.entries[s.index.toNat]? with
  | none => .ok s
  | some entry =>
    let s := { s with remaining := entry.size.toNat, hashed := [], buffer := [] }
    if s.jsonTargets.contains entry.path then .ok s
    else
      let (s, key) ← ensureQuarantine env s
      match env.randomNonce s.index.toNat with
      | none => .error (ioFault, s)
      | some nonce =>
        let s := { s with nonce := nonce }
        match env.cipherInit key nonce entry.hash with
        | none => .error (ioFault, s)
        | some cipher =>
          if env.opens s.index.toNat then
            .ok { s with cipher := some cipher, asset := some ⟨s.index.toNat, []⟩ }
          else .error (ioFault, { s with cipher := some cipher })

/-- Put a JSON file into the snapshot. -/
def storeJson (r : Inspection) (target : Text × Text) (o : JObject) : Option Inspection :=
  if target.2 = [] then
    let profile := (r.snapshot.profiles.find target.1).getD { id := [], account := ⟨[], []⟩ }
    if o.find (u "profile_id") ≠ some (.str profile.id) ∨ !Json.isObjectValue (o.find (u "extra"))
    then none
    else
      match readRetainedMetadata o profile.transfer
        [u "account", u "profile", u "modules", u "files"] with
      | none => none
      | some transfer =>
        let kept := Json.ofObject (unknown o [u "profile_id", u "environment", u "user_id",
          u "extra", u "retained_transfer"])
        some (r.updateProfile target.1 fun p => { p with
          account := readAccount o
          extra := Json.asObject (o.find (u "extra"))
          transfer := transfer.insert (u "account") kept })
  else if o.find (u "module_id") ≠ some (.str target.2) then none
  else some (r.updateProfile target.1 fun p => { p with modules := p.modules.insert target.2 o })

/-- Close the file that was written, with the tag of the cipher. -/
def finishWrite (env : Surroundings κ) (s : Parser κ) (file : AssetFile) : Option AssetFile :=
  match s.cipher.bind env.cipherFinish with
  | none => none
  | some tag =>
    let content := file.content ++ tag
    if env.holds file.number content ∧ env.flushes file.number content then
      some ⟨file.number, content⟩
    else none

/-- Check a file that was read completely, put it into the snapshot and go to the next one. -/
def finishEntry (env : Surroundings κ) (s : Parser κ) : Parsed κ (Parser κ) :=
  match s.entries[s.index.toNat]? with
  | none => .error (invalidFault, s)
  | some entry =>
    if toLatin1 (env.sha256 s.hashed) ≠ entry.hash then .error (authenticationFault, s)
    else
      match s.asset with
      | some file =>
        match finishWrite env s file with
        | none => .error (ioFault, s)
        | some file =>
          let reader : AssetReader := ⟨s.quarantine.getD [], s.nonce, file, entry.hash, entry.size⟩
          startEntry env { s with
            asset := none
            result := { s.result with
              readers := s.result.readers.insert (fromLatin1 entry.hash) reader } }
      | none =>
        match parseJson env s.buffer with
        | none => .error (invalidFault, s)
        | some o =>
          match storeJson s.result ((s.jsonTargets.find entry.path).getD ([], [])) o with
          | none => .error (invalidFault, s)
          | some result => startEntry env { s with result := result }

/-- Read the manifest and go to the first file. -/
def manifest (env : Surroundings κ) (s : Parser κ) : Parsed κ (Parser κ) :=
  match readManifest env s.result s.buffer with
  | .error (fault, l) =>
    .error (fault, { s with result := l.result, jsonTargets := l.jsonTargets, entries := l.entries })
  | .ok l =>
    startEntry env { s with
      result := l.result, jsonTargets := l.jsonTargets, entries := l.entries, buffer := [],
      loaded := true }

/-! ### The loop -/

/-- The conversion of a size to a 32-bit integer. -/
def asInt (n : ℕ) : ℤ := (n : ℤ).bmod (2 ^ 32)

/-- Encrypt a piece; the cipher takes its size as a 32-bit integer. -/
def crypt (env : Surroundings κ) (cipher : Option κ) (input : Bytes) : Option (κ × Bytes) :=
  cipher.bind fun c => env.cipherUpdate c input (asInt input.length)

/-- A number of four bytes, the high one first. -/
def fromBigEndian (bytes : Bytes) : ℕ := bytes.foldl (fun n b => n * 256 + b.toNat) 0

/-- What a turn of the loop leads to: the piece is used up, or the loop goes on. -/
inductive Turn (κ : Type) where
  | stop (s : Parser κ)
  | more (s : Parser κ) (input : Bytes)

/-- The size of what is collected before the manifest is loaded. -/
def Parser.wanted (s : Parser κ) : ℕ := if s.manifestSize < 0 then 12 else s.manifestSize.toNat

/-- A turn before the manifest is loaded. -/
def turnManifest (env : Surroundings κ) (s : Parser κ) (input : Bytes) : Parsed κ (Turn κ) :=
  let take := min (s.wanted - s.buffer.length) input.length
  let buffer := s.buffer ++ input.take take
  let input := input.drop take
  if buffer.length < s.wanted then .ok (.stop { s with buffer := buffer })
  else if s.manifestSize < 0 then
    let s := { s with buffer := buffer }
    if buffer.take 8 ≠ Json.ascii "TGVPKG01" then .error (invalidFault, s)
    else
      let size : ℤ := fromBigEndian ((buffer.drop 8).take 4)
      let s := { s with manifestSize := size }
      if size < 2 ∨ kManifestLimit < size then .error (invalidFault, s)
      else .ok (.more { s with buffer := [] } input)
  else (manifest env { s with buffer := buffer }).map fun s => .more s input

/-- A part of a file: it is hashed, and encrypted or collected. -/
def readPart (env : Surroundings κ) (s : Parser κ) (part : Bytes) : Parsed κ (Parser κ) :=
  let s := { s with hashed := s.hashed ++ part }
  match s.asset with
  | some file =>
    match crypt env s.cipher part with
    | none => .error (ioFault, s)
    | some (cipher, encrypted) =>
      let s := { s with cipher := some cipher }
      if env.holds file.number (file.content ++ encrypted) then
        .ok { s with
          asset := some { file with content := file.content ++ encrypted }
          remaining := s.remaining - part.length }
      else .error (ioFault, s)
  | none => .ok { s with buffer := s.buffer ++ part, remaining := s.remaining - part.length }

/-- A turn inside a file. -/
def turnEntry (env : Surroundings κ) (s : Parser κ) (input : Bytes) : Parsed κ (Turn κ) :=
  let take := min s.remaining input.length
  (readPart env s (input.take take)).map fun s => .more s (input.drop take)

/-- One turn of the loop. -/
def turn (env : Surroundings κ) (s : Parser κ) (input : Bytes) : Parsed κ (Turn κ) :=
  if !s.loaded then turnManifest env s input
  else if s.finished then .error (invalidFault, s)
  else if s.remaining = 0 then (finishEntry env s).map fun s => .more s input
  else turnEntry env s input

/-- Whether the loop goes on: there is input, or a file is complete. -/
def Parser.goesOn (s : Parser κ) (input : Bytes) : Bool :=
  !input.isEmpty || (s.loaded && !s.finished && s.remaining == 0)

/-! ### What a turn changes -/

section

variable {env : Surroundings κ} {s s' : Parser κ} {input input' : Bytes}

/-- The next file has started, or there is none. -/
structure Parser.Next (s s' : Parser κ) : Prop where
  index : s'.index = s.index + 1
  entries : s'.entries = s.entries
  loaded : s'.loaded = s.loaded
  manifestSize : s'.manifestSize = s.manifestSize
  none_left : s.entries[s'.index.toNat]? = none → s'.remaining = s.remaining
  started : ∀ entry, s.entries[s'.index.toNat]? = some entry →
    s'.remaining = entry.size.toNat ∧ s'.hashed = []

lemma ensureQuarantine_eq {key : Bytes} (h : ensureQuarantine env s = .ok (s', key)) :
    s' = { s with quarantine := some key } := by
  unfold ensureQuarantine at h
  split at h
  · rename_i key' hkey
    obtain ⟨rfl, rfl⟩ := Prod.mk.inj (Except.ok.inj h)
    rw [← hkey]
  · split at h
    · obtain ⟨rfl, rfl⟩ := Prod.mk.inj (Except.ok.inj h)
      rfl
    · cases h

lemma startEntry_next (h : startEntry env s = .ok s') : s.Next s' := by
  unfold startEntry at h
  dsimp only at h
  split at h
  · rename_i hentry
    obtain rfl := Except.ok.inj h
    exact ⟨rfl, rfl, rfl, rfl, fun _ => rfl, fun entry he => by simp_all⟩
  · rename_i entry hentry
    have hnext : ∀ t : Parser κ, t.index = s.index + 1 → t.entries = s.entries →
        t.loaded = s.loaded → t.manifestSize = s.manifestSize →
        t.remaining = entry.size.toNat → t.hashed = [] → s.Next t := by
      intro t hi he hl hm hr hh
      refine ⟨hi, he, hl, hm, fun hnone => ?_, fun entry' he' => ?_⟩
      · simp_all
      · rw [hi, hentry] at he'
        obtain rfl := Option.some.inj he'
        exact ⟨hr, hh⟩
    split at h
    · obtain rfl := Except.ok.inj h
      exact hnext _ rfl rfl rfl rfl rfl rfl
    · obtain ⟨⟨t, key⟩, hkey, h⟩ := Except.bind_eq_ok_iff.mp h
      obtain rfl := ensureQuarantine_eq hkey
      dsimp only at h
      split at h
      · cases h
      · split at h
        · cases h
        · split at h
          · obtain rfl := Except.ok.inj h
            exact hnext _ rfl rfl rfl rfl rfl rfl
          · cases h

/-- A file that is finished was read completely and has the hash of its entry. -/
lemma finishEntry_next (h : finishEntry env s = .ok s') :
    s.Next s' ∧ ∃ entry, s.entries[s.index.toNat]? = some entry ∧
      toLatin1 (env.sha256 s.hashed) = entry.hash := by
  have hnext : ∀ t : Parser κ, t.Next s' → t.index = s.index → t.entries = s.entries →
      t.loaded = s.loaded → t.manifestSize = s.manifestSize → t.remaining = s.remaining →
      s.Next s' := by
    intro t hnext hi he hl hm hr
    have hindex := hnext.index
    refine ⟨by rw [hindex, hi], by rw [hnext.entries, he], by rw [hnext.loaded, hl],
      by rw [hnext.manifestSize, hm], fun hnone => ?_, fun entry hentry => ?_⟩
    · rw [hnext.none_left (by rw [he]; exact hnone), hr]
    · exact hnext.started entry (by rw [he]; exact hentry)
  unfold finishEntry at h
  split at h
  · cases h
  · rename_i entry hentry
    split at h
    · cases h
    · rename_i hhash
      refine ⟨?_, entry, hentry, not_not.mp hhash⟩
      split at h
      · split at h
        · cases h
        · dsimp only at h
          exact hnext _ (startEntry_next h) rfl rfl rfl rfl rfl
      · split at h
        · cases h
        · split at h
          · cases h
          · exact hnext _ (startEntry_next h) rfl rfl rfl rfl rfl

/-- The state that a manifest leads to. -/
lemma manifest_next (h : manifest env s = .ok s') :
    ∃ l, readManifest env s.result s.buffer = .ok l ∧
      s'.index = s.index + 1 ∧ s'.entries = l.entries ∧ s'.loaded = true ∧
      s'.manifestSize = s.manifestSize ∧
      (l.entries[s'.index.toNat]? = none → s'.remaining = s.remaining) ∧
      ∀ entry, l.entries[s'.index.toNat]? = some entry →
        s'.remaining = entry.size.toNat ∧ s'.hashed = [] := by
  unfold manifest at h
  split at h
  · cases h
  · rename_i l hl
    have hnext := startEntry_next h
    exact ⟨l, hl, hnext.index, hnext.entries, hnext.loaded, hnext.manifestSize, hnext.none_left,
      hnext.started⟩

/-- What a turn does after which the loop goes on: the header or the manifest is complete, a file is
finished, or a part of a file is read. -/
inductive Moves (env : Surroundings κ) (s : Parser κ) (input : Bytes) : Parser κ → Bytes → Prop
  | header (buffer : Bytes) (hloaded : s.loaded = false) (hsize : s.manifestSize < 0)
      (hbuffer : buffer = s.buffer ++ input.take (12 - s.buffer.length))
      (hlength : 12 ≤ buffer.length) (hmagic : buffer.take 8 = Json.ascii "TGVPKG01")
      (hmin : 2 ≤ fromBigEndian ((buffer.drop 8).take 4)) :
      Moves env s input
        { s with manifestSize := fromBigEndian ((buffer.drop 8).take 4), buffer := [] }
        (input.drop (12 - s.buffer.length))
  | manifest (buffer : Bytes) (s' : Parser κ) (hloaded : s.loaded = false)
      (hsize : 0 ≤ s.manifestSize)
      (hbuffer : buffer = s.buffer ++ input.take (s.manifestSize.toNat - s.buffer.length))
      (hlength : s.manifestSize.toNat ≤ buffer.length)
      (hread : LocalTransfer.manifest env { s with buffer := buffer } = .ok s') :
      Moves env s input s' (input.drop (s.manifestSize.toNat - s.buffer.length))
  | entry (s' : Parser κ) (hloaded : s.loaded = true) (hfinished : s.finished = false)
      (hremaining : s.remaining = 0) (hentry : finishEntry env s = .ok s') :
      Moves env s input s' input
  | part (s' : Parser κ) (hloaded : s.loaded = true) (hremaining : s.remaining ≠ 0)
      (hread : readPart env s (input.take s.remaining) = .ok s') :
      Moves env s input s' (input.drop s.remaining)

lemma take_min_length (n : ℕ) (l : Bytes) : l.take (min n l.length) = l.take n := by
  rw [List.take_eq_take_iff]
  omega

lemma drop_min_length (n : ℕ) (l : Bytes) : l.drop (min n l.length) = l.drop n := by
  rcases Nat.le_total n l.length with h | h
  · rw [Nat.min_eq_left h]
  · rw [Nat.min_eq_right h, List.drop_length, List.drop_eq_nil_of_le h]

lemma Parser.wanted_of_neg (h : s.manifestSize < 0) : s.wanted = 12 := if_pos h

lemma Parser.wanted_of_nonneg (h : 0 ≤ s.manifestSize) : s.wanted = s.manifestSize.toNat :=
  if_neg (by omega)

lemma map_more_eq {r : Parsed κ (Parser κ)} :
    (r.map fun s => Turn.more s input) = .ok (.more s' input') ↔ r = .ok s' ∧ input = input' := by
  cases r <;> simp [Except.map]

lemma map_more_ne_stop (r : Parsed κ (Parser κ)) (input : Bytes) :
    (r.map fun s => Turn.more s input) ≠ .ok (.stop s') := by
  cases r <;> simp [Except.map]

lemma turnManifest_moves (hloaded : s.loaded = false)
    (h : turnManifest env s input = .ok (.more s' input')) : Moves env s input s' input' := by
  unfold turnManifest at h
  simp only [take_min_length, drop_min_length] at h
  split_ifs at h with hlength hsize hmagic hmin
  · cases Except.ok.inj h
  · obtain ⟨rfl, rfl⟩ := Turn.more.inj (Except.ok.inj h)
    rw [s.wanted_of_neg hsize] at hlength hmagic hmin ⊢
    exact .header _ hloaded hsize rfl (by omega) (not_not.mp hmagic) (by omega)
  · obtain ⟨hread, rfl⟩ := map_more_eq.mp h
    rw [s.wanted_of_nonneg (by omega)] at hlength hread ⊢
    exact .manifest _ _ hloaded (by omega) rfl (by omega) hread

/-- What changes with a part of a file. -/
lemma readPart_eq {part : Bytes} (h : readPart env s part = .ok s') :
    s' = { s with
      hashed := s.hashed ++ part, remaining := s.remaining - part.length,
      buffer := s'.buffer, cipher := s'.cipher, asset := s'.asset } := by
  unfold readPart at h
  dsimp only at h
  split at h
  · split at h
    · cases h
    · split_ifs at h
      obtain rfl := Except.ok.inj h
      rfl
  · obtain rfl := Except.ok.inj h
    rfl

lemma turnEntry_eq : turnEntry env s input =
    (readPart env s (input.take s.remaining)).map fun s' => .more s' (input.drop s.remaining) := by
  unfold turnEntry
  simp only [take_min_length, drop_min_length]

lemma turnEntry_moves (hloaded : s.loaded = true) (hremaining : s.remaining ≠ 0)
    (h : turnEntry env s input = .ok (.more s' input')) : Moves env s input s' input' := by
  rw [turnEntry_eq] at h
  obtain ⟨hread, rfl⟩ := map_more_eq.mp h
  exact .part _ hloaded hremaining hread

lemma turn_moves (h : turn env s input = .ok (.more s' input')) : Moves env s input s' input' := by
  unfold turn at h
  split_ifs at h with hloaded hfinished hremaining
  · exact turnManifest_moves (by simpa using hloaded) h
  · obtain ⟨hentry, rfl⟩ := map_more_eq.mp h
    exact .entry _ (by simpa using hloaded) (by simpa using hfinished) hremaining hentry
  · exact turnEntry_moves (by simpa using hloaded) hremaining h

/-- How much is left to do before the manifest is loaded. -/
def Parser.stage (s : Parser κ) : ℕ := if s.loaded then 0 else if s.manifestSize < 0 then 2 else 1

/-- The number of files that are left. -/
def Parser.left (s : Parser κ) : ℕ := (s.entries.length - s.index).toNat

/-- Every turn after which the loop goes on takes it further. -/
lemma turn_lt (hgoes : s.goesOn input) (h : turn env s input = .ok (.more s' input')) :
    Prod.Lex (· < ·) (Prod.Lex (· < ·) (· < ·)) (input'.length, s'.stage, s'.left)
      (input.length, s.stage, s.left) := by
  have hlex : ∀ {a a' b b' c c' : ℕ}, a' ≤ a → (b' < b ∨ (b' = b ∧ c' < c)) →
      Prod.Lex (· < ·) (Prod.Lex (· < ·) (· < ·)) (a', b', c') (a, b, c) := by
    intro a a' b b' c c' ha hbc
    simp only [Prod.lex_def]
    omega
  cases turn_moves h with
  | header buffer hloaded hsize hbuffer hlength hmagic hmin =>
    refine hlex (by simp) (.inl ?_)
    have hsize' : ¬ ((fromBigEndian ((buffer.drop 8).take 4) : ℕ) : ℤ) < 0 := by omega
    simp only [Parser.stage, hloaded, hsize, hsize', if_true, if_false, Bool.false_eq_true]
    omega
  | manifest buffer s' hloaded hsize hbuffer hlength hread =>
    obtain ⟨l, -, -, -, hloaded', -⟩ := manifest_next hread
    refine hlex (by simp) (.inl ?_)
    have hstage' : s'.stage = 0 := by simp [Parser.stage, hloaded']
    have hstage : s.stage = 1 := by
      simp only [Parser.stage, hloaded, Bool.false_eq_true, if_false]
      exact if_neg (by omega)
    omega
  | entry s' hloaded hfinished hremaining hentry =>
    obtain ⟨hnext, entry, hentry', -⟩ := finishEntry_next hentry
    have hlt := (List.getElem?_eq_some_iff.mp hentry').1
    refine hlex le_rfl (.inr ⟨by simp [Parser.stage, hloaded, hnext.loaded], ?_⟩)
    unfold Parser.left
    rw [hnext.index, hnext.entries]
    omega
  | part s' hloaded hremaining hread =>
    have hinput : input ≠ [] := by
      intro hnil
      simp [Parser.goesOn, hnil, hremaining] at hgoes
    have hpos := List.length_pos_iff.mpr hinput
    refine Prod.Lex.left _ _ ?_
    rw [List.length_drop]
    omega

end

/-! ### Pieces -/

/-- **A piece of the input**: turns until it is used up and no file is complete. -/
def consume (env : Surroundings κ) (s : Parser κ) (input : Bytes) : Parsed κ (Parser κ) :=
  if hgoes : s.goesOn input then
    if env.cancelled then .error (cancelFault, s)
    else
      match hturn : turn env s input with
      | .error failed => .error failed
      | .ok (.stop s') => .ok s'
      | .ok (.more s' input') => consume env s' input'
  else .ok s
termination_by (input.length, s.stage, s.left)
decreasing_by exact turn_lt hgoes hturn

end LocalTransfer
