import Mathlib.Data.Int.Basic
import Mathlib.Data.List.Basic

set_option autoImplicit false

/-!
# The store of imported settings

On Android an imported package of settings is kept as an encrypted archive. A registry names the archives of a
generation; the preference `televim_settings_generation` points to the current one. `prepare` stages the files
of a new generation on the worker, `apply` publishes it on the UI thread with one commit of the preferences,
and `discard` deletes the files of a plan that was not published.

`prepare` is cut into steps wherever the UI thread may come in between. Preferences are kept in memory and on
disk: a commit changes the memory and then writes all of it, and other changes are written some time later.
When the process dies the files that were synced, with their directory entries, and the stored preferences
survive; of other files anything may be left.

## Main definitions

* `OfflineSettings.Device` — what the system computes of files.
* `OfflineSettings.Plan`, `OfflineSettings.Work` — a prepared package, and one that is being prepared.
* `OfflineSettings.State` — files, preferences and what the process keeps.
* `OfflineSettings.prepareStep`, `OfflineSettings.apply`, `OfflineSettings.discard` — the operations.
* `OfflineSettings.step` — what happens.
-/

namespace OfflineSettings

/-! ### Registries and packages -/

/-- The largest size of all archives. -/
def MAX_RETAINED : ℤ := 64 * 1024 * 1024

/-- The largest size of the directory. -/
def MAX_DIRECTORY : ℤ := 128 * 1024 * 1024

/-- The largest number of archives. -/
def MAX_PACKAGES : ℕ := 32

/-- The largest package. -/
def MAX_ENCRYPTED : ℕ := 8 * 1024 * 1024

/-- The largest registry. -/
def MAX_REGISTRY : ℕ := 262144

/-- A UUID, in the one form that is accepted. -/
abbrev Uuid := ℕ

/-- An archive, as a registry names it. -/
structure Archive where
  /-- The package. -/
  id : Uuid
  /-- The file. -/
  file : Uuid
  /-- The digest of the package. -/
  digest : String
  /-- The size of the package. -/
  bytes : ℤ
  /-- The package is not encrypted itself. -/
  rawJson : Bool
  deriving DecidableEq, Repr

/-- A registry. -/
structure Registry where
  /-- The version of the format. -/
  version : ℤ
  /-- The archives. -/
  archives : List Archive
  deriving DecidableEq, Repr

/-- What the system computes: `OfflineTransfer.digest`, and the number of bytes of a registry as JSON. -/
structure Device where
  /-- The SHA-256 digest in hexadecimal digits. -/
  digest : List UInt8 → String
  /-- The size of a registry. -/
  registryLength : Registry → ℕ

/-- The preferences a package may have. -/
inductive Portable
  /-- `send_by_enter`. -/
  | sendByEnter
  /-- `large_emoji`. -/
  | largeEmoji
  deriving DecidableEq, Repr

/-- `OfflineTransfer.Package`: a package as it was inspected. -/
structure Package (d : Device) where
  /-- Which package. -/
  id : Uuid
  /-- The digest. -/
  digest : String
  /-- The bytes. -/
  original : List UInt8
  /-- It is not encrypted. -/
  rawJson : Bool
  /-- The preferences. -/
  preferences : List (Portable × Bool)
  /-- The digest is the one of the bytes. -/
  digest_eq : digest = d.digest original
  /-- The size was checked. -/
  size_le : original.length ≤ MAX_ENCRYPTED

/-- The text matches `[0-9a-f]{64}`. -/
def isDigest (s : String) : Bool :=
  s.toList.length = 64 && s.toList.all fun c => ('0' ≤ c && c ≤ '9') || ('a' ≤ c && c ≤ 'f')

/-! ### Files -/

/-- The files of the store. -/
inductive FileName
  /-- `<name>.archive`. -/
  | archive (name : Uuid)
  /-- `<name>.registry`. -/
  | registry (name : Uuid)
  deriving DecidableEq, Repr

/-- What is encrypted in a file. -/
inductive Plain
  /-- A package. -/
  | archive (bytes : List UInt8)
  /-- A registry. -/
  | registry (registry : Registry)
  deriving DecidableEq, Repr

/-- The bytes of a file that was written: what is encrypted, under which key, bound to which name. -/
structure Sealed where
  /-- The key. -/
  key : ℕ
  /-- The name, which is authenticated. -/
  name : FileName
  /-- What is encrypted. -/
  plain : Plain
  deriving DecidableEq, Repr

/-- A file that is there. -/
structure FileState where
  /-- What was written; `none` when it is incomplete. -/
  content : Option Sealed
  /-- What was written survives. -/
  synced : Bool
  /-- The directory entry survives. -/
  linked : Bool
  deriving DecidableEq, Repr

/-- The directory of the store. -/
abbrev Files := FileName → Option FileState

/-- How many bytes are encrypted. -/
def plainLength (d : Device) : Plain → ℕ
  | .archive bytes => bytes.length
  | .registry registry => d.registryLength registry

/-- A file is decrypted: it is complete, and neither its key nor its name is another one. -/
def readEncrypted (d : Device) (files : Files) (key : ℕ) (name : FileName) (maximum : ℕ) : Option Plain :=
  match files name with
  | some { content := some content, .. } =>
    if plainLength d content.plain ≤ maximum ∧ content.key = key ∧ content.name = name then some content.plain
    else none
  | _ => none

/-- A file is written. -/
def setFile (files : Files) (name : FileName) (file : Option FileState) : Files :=
  fun other => if other = name then file else files other

/-- `syncDirectory`. -/
def syncDirectory (files : Files) : Files :=
  fun name => (files name).map fun file => { file with linked := true }

/-! ### Preferences -/

/-- A value of a preference. -/
inductive Value
  /-- A switch. -/
  | boolean (value : Bool)
  /-- A text that is a UUID. -/
  | uuid (value : Uuid)
  /-- Another value. -/
  | other (value : ℕ)
  deriving DecidableEq, Repr

/-- The preferences the store has to do with. -/
structure Prefs where
  /-- `televim_settings_generation`. -/
  pointer : Option Value
  /-- `send_by_enter`. -/
  sendByEnter : Option Value
  /-- `allowBigEmoji`. -/
  allowBigEmoji : Option Value
  deriving DecidableEq, Repr

/-- A preference of a package under its own name: `large_emoji` is `allowBigEmoji`. -/
def Prefs.set (prefs : Prefs) (name : Portable) (value : Option Value) : Prefs :=
  match name with
  | .largeEmoji => { prefs with allowBigEmoji := value }
  | .sendByEnter => { prefs with sendByEnter := value }

/-- `generation`: the empty text, a UUID, or an error. -/
def generation : Option Value → Option (Option Uuid)
  | none => some none
  | some (.uuid value) => some (some value)
  | some _ => none

/-! ### The state -/

/-- A package that was prepared. -/
structure Plan (d : Device) where
  /-- Which call of `prepare` made it. -/
  serial : ℕ
  /-- The package. -/
  transfer : Package d
  /-- The preferences it was prepared against. -/
  before : Prefs
  /-- The package is kept already. -/
  duplicate : Bool
  /-- The new generation. -/
  generation : Option Uuid
  /-- The files that were staged. -/
  stagedFiles : List FileName
  /-- A commit was tried. -/
  publicationAttempted : Bool := false
  /-- The plan was given up. -/
  discarded : Bool := false

/-- How far a call of `prepare` is. -/
inductive Phase
  /-- It begins. -/
  | start
  /-- It checks the archives of the registry. -/
  | checking (rest : List Archive) (packageIds : List Uuid) (total : ℤ) (duplicate : Bool)
  /-- It creates the archive. -/
  | createArchive
  /-- It writes the archive. -/
  | writeArchive
  /-- It creates the registry. -/
  | createRegistry
  /-- It writes the registry. -/
  | writeRegistry
  /-- It syncs the directory. -/
  | sync

/-- A call of `prepare` the worker is in the middle of. -/
structure Work (d : Device) where
  /-- Which call. -/
  serial : ℕ
  /-- The package. -/
  transfer : Package d
  /-- The preferences it is prepared against. -/
  before : Prefs
  /-- The key. -/
  key : ℕ := 0
  /-- The archives of the generation that is pointed to. -/
  archives : List Archive := []
  /-- The files that were staged. -/
  stagedFiles : List FileName := []
  /-- How far it is. -/
  phase : Phase := .start

/-- A call of `discard` that is deleting files. -/
structure Discarding where
  /-- Whose files. -/
  serial : ℕ
  /-- The files that are left. -/
  files : List FileName
  /-- All files so far were deleted. -/
  complete : Bool
  deriving DecidableEq, Repr

/-- A commit of a new generation that was tried. Nothing of the source reads it. -/
structure Publication (d : Device) where
  /-- The plan. -/
  serial : ℕ
  /-- The new generation. -/
  generation : Uuid
  /-- The generation that was pointed to. -/
  replaced : Option Uuid
  /-- The package. -/
  transfer : Package d

/-- **The store.** -/
structure State (d : Device) where
  /-- The preferences on disk. -/
  stored : Prefs
  /-- The preferences in memory. -/
  memory : Prefs
  /-- The files. -/
  files : Files := fun _ => none
  /-- The key of the Android keystore. -/
  key : Option ℕ := none
  /-- The number of keys that were generated. -/
  keys : ℕ := 0
  /-- The number of calls of `prepare`. -/
  serials : ℕ := 0
  /-- A commit or a deletion failed in this process. -/
  uncertain : Bool := false
  /-- The plans of this process. -/
  plans : List (Plan d) := []
  /-- The call of `prepare` on the worker. -/
  work : Option (Work d) := none
  /-- The calls of `discard` that are deleting files. -/
  discards : List Discarding := []
  /-- The commits that were tried. -/
  publications : List (Publication d) := []
  /-- The generations whose commit succeeded, and those a process found when it was started. -/
  settled : List Uuid := []
  /-- A commit of this process failed. -/
  unknown : Bool := false

/-- The name of an archive: a UUID that is used for nothing else. -/
def archiveName (serial : ℕ) : Uuid := 2 * serial

/-- The name of a generation: a UUID that is used for nothing else. -/
def generationName (serial : ℕ) : Uuid := 2 * serial + 1

variable {d : Device}

/-! ### Preparing -/

/-- What may happen during a step of `prepare`. -/
structure World where
  /-- The import was cancelled. -/
  cancelled : Bool := false
  /-- A file or the keystore fails. -/
  fails : Bool := false
  /-- What was begun when it was cancelled or failed is done nevertheless. -/
  partly : Bool := false
  /-- The number of files of the directory. -/
  retainedFiles : ℕ := 0
  /-- Their size. -/
  directoryBytes : ℤ := 0

/-- `prepare` is called with the preferences as they are, when the worker has nothing to do. -/
def beginPrepare (s : State d) (transfer : Package d) : State d :=
  match s.work with
  | some _ => s
  | none => { s with
      serials := s.serials + 1
      work := some { serial := s.serials, transfer := transfer, before := s.memory } }

/-- `prepare` throws before anything was staged. -/
def quit (s : State d) : State d :=
  { s with work := none }

/-- `prepare` throws: the staged files are discarded. -/
def fail (s : State d) (w : Work d) : State d :=
  { s with
    work := none
    discards := s.discards ++ [{ serial := w.serial, files := w.stagedFiles, complete := true }] }

/-- `prepare` goes on. -/
def goOn (s : State d) (w : Work d) (phase : Phase) : State d :=
  { s with work := some { w with phase := phase } }

/-- `prepare` returns. -/
def finish (s : State d) (w : Work d) (duplicate : Bool) (generation : Option Uuid) : State d :=
  { s with
    work := none
    plans := s.plans ++ [{
      serial := w.serial
      transfer := w.transfer
      before := w.before
      duplicate := duplicate
      generation := generation
      stagedFiles := w.stagedFiles }] }

/-- The archives of the registry are checked next. -/
def checkArchives (s : State d) (w : Work d) (key : ℕ) (archives : List Archive) : State d :=
  goOn s { w with key := key, archives := archives } (.checking archives [] 0 false)

/-- The registry that is pointed to is read, with a key that is there or, without a registry, a new one. -/
def startPrepare (s : State d) (w : Work d) (world : World) : State d :=
  if world.cancelled || s.uncertain || world.fails then quit s
  else
    match generation w.before.pointer, s.key with
    | none, _ => quit s
    | some none, none => checkArchives { s with key := some s.keys, keys := s.keys + 1 } w s.keys []
    | some none, some key => checkArchives s w key []
    | some (some _), none => quit s
    | some (some previous), some key =>
      match readEncrypted d s.files key (.registry previous) MAX_REGISTRY with
      | some (.registry registry) =>
        if registry.version ≠ 1 || MAX_PACKAGES < registry.archives.length then quit s
        else checkArchives s w key registry.archives
      | _ => quit s

/-- One archive of the registry is checked. -/
def checkArchive (s : State d) (w : Work d) (world : World) (archive : Archive) (rest : List Archive)
    (packageIds : List Uuid) (total : ℤ) (duplicate : Bool) : State d :=
  if world.cancelled || world.fails then quit s
  else if packageIds.contains archive.id || archive.bytes < 0 || (MAX_ENCRYPTED : ℤ) < archive.bytes
      || !isDigest archive.digest then quit s
  else
    match readEncrypted d s.files w.key (.archive archive.file) MAX_ENCRYPTED with
    | some (.archive bytes) =>
      if (bytes.length : ℤ) ≠ archive.bytes || d.digest bytes ≠ archive.digest then quit s
      else if archive.id = w.transfer.id && archive.digest ≠ w.transfer.digest then quit s
      else goOn s w (.checking rest (archive.id :: packageIds) (total + archive.bytes)
        (duplicate || archive.id = w.transfer.id))
    | _ => quit s

/-- The archives were checked: the package is kept already, or may be staged. -/
def checkLimits (s : State d) (w : Work d) (world : World) (total : ℤ) (duplicate : Bool) : State d :=
  if MAX_RETAINED < total then quit s
  else if duplicate then
    if world.cancelled then quit s else finish s w true none
  else if MAX_PACKAGES ≤ w.archives.length || MAX_RETAINED < total + w.transfer.original.length then quit s
  else if world.fails || 1024 < world.retainedFiles
      || MAX_DIRECTORY < world.directoryBytes + w.transfer.original.length + MAX_REGISTRY then quit s
  else if world.cancelled || s.uncertain then quit s
  else goOn s w .createArchive

/-- `createNewFile`: a staged file is created, unless it is there. -/
def createFile (s : State d) (w : Work d) (world : World) (name : FileName) (phase : Phase) : State d :=
  if world.cancelled || world.fails || (s.files name).isSome then fail s w
  else goOn { s with files := setFile s.files name (some { content := none, synced := false, linked := false }) }
    { w with stagedFiles := w.stagedFiles ++ [name] } phase

/-- A staged file is encrypted, written and synced. -/
def writeFile (s : State d) (w : Work d) (world : World) (name : FileName) (plain : Plain) (phase : Phase) :
    State d :=
  let content : Sealed := { key := w.key, name := name, plain := plain }
  let torn : FileState :=
    { content := if world.partly then some content else none, synced := false, linked := false }
  let written : FileState := { content := some content, synced := true, linked := false }
  if world.cancelled || world.fails then fail { s with files := setFile s.files name (some torn) } w
  else goOn { s with files := setFile s.files name (some written) } w phase

/-- The archive of the package, as the new registry names it. -/
def newArchive (serial : ℕ) (transfer : Package d) : Archive where
  id := transfer.id
  file := archiveName serial
  digest := transfer.digest
  bytes := transfer.original.length
  rawJson := transfer.rawJson

/-- The new registry. -/
def newRegistry (w : Work d) : Registry where
  version := 1
  archives := w.archives ++ [newArchive w.serial w.transfer]

/-- **A step of `prepare`.** -/
def prepareStep (s : State d) (world : World) : State d :=
  match s.work with
  | none => s
  | some w =>
    match w.phase with
    | .start => startPrepare s w world
    | .checking (archive :: rest) packageIds total duplicate =>
      checkArchive s w world archive rest packageIds total duplicate
    | .checking [] _ total duplicate => checkLimits s w world total duplicate
    | .createArchive => createFile s w world (.archive (archiveName w.serial)) .writeArchive
    | .writeArchive =>
      writeFile s w world (.archive (archiveName w.serial)) (.archive w.transfer.original) .createRegistry
    | .createRegistry =>
      if MAX_REGISTRY < d.registryLength (newRegistry w) then fail s w
      else createFile s w world (.registry (generationName w.serial)) .writeRegistry
    | .writeRegistry =>
      writeFile s w world (.registry (generationName w.serial)) (.registry (newRegistry w)) .sync
    | .sync =>
      if world.cancelled || world.fails then
        fail { s with files := (if world.partly then syncDirectory s.files else s.files) } w
      else finish { s with files := syncDirectory s.files } w false (some (generationName w.serial))

/-! ### Publishing -/

/-- What a commit may do. -/
inductive Commit
  /-- It is written, and says so. -/
  | done
  /-- It is written, but fails. -/
  | written
  /-- It changes the memory and is not written. -/
  | unwritten
  /-- It does nothing. -/
  | refused
  deriving DecidableEq, Repr

/-- An editor is committed: it takes effect entirely or not at all. -/
def commit (s : State d) (outcome : Commit) (edit : Prefs → Prefs) : State d :=
  match outcome with
  | .done | .written => { s with memory := edit s.memory, stored := edit s.memory }
  | .unwritten => { s with memory := edit s.memory }
  | .refused => s

/-- The edit of a plan: the pointer and the preferences of the package. -/
def publish (plan : Plan d) (prefs : Prefs) : Prefs :=
  plan.transfer.preferences.foldl (fun prefs preference =>
      prefs.set preference.1 (some (.boolean preference.2)))
    { prefs with pointer := plan.generation.map .uuid }

/-- `Applied`. -/
inductive Applied
  /-- It was published. -/
  | success
  /-- The package is kept already. -/
  | duplicate
  /-- Preferences changed, or the plan was used. -/
  | stale
  /-- It is not known whether it was published. -/
  | uncertain
  deriving DecidableEq, Repr

/-- What a plan publishes. -/
def publicationOf (plan : Plan d) (name : Uuid) : Publication d where
  serial := plan.serial
  generation := name
  replaced := (generation plan.before.pointer).getD none
  transfer := plan.transfer

/-- A commit is about to be tried. -/
def attempt (s : State d) (i : ℕ) (plan : Plan d) : State d :=
  { s with
    plans := s.plans.set i { plan with publicationAttempted := true }
    publications := s.publications ++ plan.generation.toList.map (publicationOf plan) }

/-- **A plan is published**, if neither the pointer nor the two preferences changed. A commit that fails is
rolled back. -/
def apply (s : State d) (i : ℕ) (outcome rollback : Commit) : Applied × State d :=
  match s.plans[i]? with
  | none => (.stale, s)
  | some plan =>
    if s.uncertain then (.uncertain, s)
    else if plan.discarded || plan.publicationAttempted then (.stale, s)
    else if s.memory ≠ plan.before then (.stale, s)
    else if plan.duplicate then (.duplicate, s)
    else
      let s := commit (attempt s i plan) outcome (publish plan)
      if outcome = .done then (.success, { s with settled := s.settled ++ plan.generation.toList })
      else (.uncertain, commit { s with uncertain := true, unknown := true } rollback fun _ => plan.before)

/-! ### Discarding -/

/-- A plan is discarded, unless a commit was tried. -/
def discard (s : State d) (i : ℕ) : State d :=
  match s.plans[i]? with
  | none => s
  | some plan =>
    if plan.publicationAttempted then s
    else { s with
      plans := s.plans.set i { plan with discarded := true }
      discards := s.discards ++ [{ serial := plan.serial, files := plan.stagedFiles, complete := true }] }

/-- A call of `discard` deletes its next file, or ends. -/
def discardStep (s : State d) (k : ℕ) (deletes : Bool) : State d :=
  match s.discards[k]? with
  | none => s
  | some { serial := _, files := [], complete := complete } =>
    { s with discards := s.discards.eraseIdx k, uncertain := s.uncertain || !complete }
  | some { serial := serial, files := name :: rest, complete := complete } =>
    if deletes then { s with
      files := setFile s.files name none
      discards := s.discards.set k { serial := serial, files := rest, complete := complete } }
    else { s with
      discards := s.discards.set k
        { serial := serial, files := rest, complete := complete && (s.files name).isNone } }

/-! ### What happens -/

/-- The file survives the process. -/
def FileState.durable (file : FileState) : Bool :=
  file.synced && file.linked

/-- The process dies and is started again. -/
def restart (s : State d) (left : Files) : State d :=
  { stored := s.stored
    memory := s.stored
    files := fun name =>
      match s.files name with
      | some file => if file.durable then some file else left name
      | none => left name
    key := s.key
    keys := s.keys
    serials := s.serials
    publications := s.publications
    settled := s.settled ++ ((generation s.stored.pointer).getD none).toList }

/-- What happens. -/
inductive Event (d : Device)
  /-- `prepare` is called. -/
  | prepare (transfer : Package d)
  /-- The worker goes on. -/
  | work (world : World)
  /-- `apply` is called. -/
  | apply (i : ℕ) (outcome rollback : Commit)
  /-- `discard` is called. -/
  | discard (i : ℕ)
  /-- A call of `discard` goes on. -/
  | discardStep (k : ℕ) (deletes : Bool)
  /-- The user changes one of the two preferences. -/
  | change (name : Portable) (value : Option Value)
  /-- The preferences are written. -/
  | flush
  /-- The process dies. -/
  | death (left : Files)

/-- What an event does. -/
def step (s : State d) : Event d → State d
  | .prepare transfer => beginPrepare s transfer
  | .work world => prepareStep s world
  | .apply i outcome rollback => (apply s i outcome rollback).2
  | .discard i => discard s i
  | .discardStep k deletes => discardStep s k deletes
  | .change name value => { s with memory := s.memory.set name value }
  | .flush => { s with stored := s.memory }
  | .death left => restart s left

/-- A run from a first start, with whatever the two preferences are. -/
def run (sendByEnter allowBigEmoji : Option Value) (events : List (Event d)) : State d :=
  let prefs : Prefs := { pointer := none, sendByEnter := sendByEnter, allowBigEmoji := allowBigEmoji }
  events.foldl step { stored := prefs, memory := prefs }

end OfflineSettings
