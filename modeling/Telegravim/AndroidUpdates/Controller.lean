import Mathlib.Algebra.GroupWithZero.Nat
import Mathlib.Data.Rat.Defs
import Mathlib.Data.List.Basic

set_option autoImplicit false

/-!
# The updater of the Android client

`UpdateController` asks for the catalog of releases, downloads the package of its entry and hands it to the
system installer. Its methods and the callbacks it posts run on the UI thread; the tasks run on one worker.
Downloads are counted by a generation: a callback of an older one is ignored.

A check and an installation touch nothing the UI thread writes, so each is one step of the worker. A download
reads the generation and writes the progress while the UI thread goes on: each such access is a step of its own.
What the network answers, the time and the failures of files are arguments of the steps.

## Main definitions

* `AndroidUpdates.Entry` — an entry of the catalog, with the checks of its constructor.
* `AndroidUpdates.validateApk` — the checks of a package.
* `AndroidUpdates.State` — the controller, with both queues and the files.
* `AndroidUpdates.check`, `AndroidUpdates.download`, `AndroidUpdates.cancel`, `AndroidUpdates.install` — the calls.
* `AndroidUpdates.workerStep`, `AndroidUpdates.uiStep` — the two threads.
-/

namespace AndroidUpdates

/-! ### Entries of the catalog -/

/-- The largest package. -/
def MAX_APK : ℤ := 512 * 1024 * 1024

/-- An address. -/
structure Url where
  /-- `getProtocol`. -/
  protocol : String
  /-- `getHost`. -/
  host : String
  /-- `getPath`. -/
  path : String
  /-- `getQuery`. -/
  query : Option String
  /-- `getUserInfo`. -/
  userInfo : Option String
  /-- `getPort`. -/
  port : ℤ
  /-- `getRef`. -/
  ref : Option String
  deriving DecidableEq, Repr

/-- The addresses packages are downloaded from. -/
def validateUrl (url : Url) (redirected : Bool) : Bool :=
  let github := url.host = "github.com"
    && "/Informativus/telegravim/releases/download/".toList.isPrefixOf url.path.toList && url.query.isNone
  let asset := redirected && url.host = "release-assets.githubusercontent.com"
  url.protocol = "https" && url.userInfo.isNone && url.port = -1 && url.ref.isNone && (github || asset)

/-- `String.length`: the number of UTF-16 units. -/
def length (s : String) : ℕ :=
  (s.toList.map fun c => if c.toNat < 0x10000 then 1 else 2).sum

/-- The text matches `[0-9a-f]{64}`. -/
def isSha256 (s : String) : Bool :=
  s.toList.length = 64 && s.toList.all fun c => ('0' ≤ c && c ≤ '9') || ('a' ≤ c && c ≤ 'f')

/-- `Entry`: a release, as its constructor accepts it. -/
structure Entry where
  /-- The version, as it is shown. -/
  version : String
  /-- The number of the version. -/
  versionCode : ℤ
  /-- What is new. -/
  changelog : String
  /-- Where the package is. -/
  url : Url
  /-- The digest of the package. -/
  sha256 : String
  /-- The size of the package. -/
  size : ℤ
  /-- When the catalog expires. -/
  expires : ℤ
  /-- The checks of the constructor. -/
  wellFormed : length version ≤ 64 ∧ length changelog ≤ 16384 ∧ 0 < versionCode ∧ 0 < size ∧ size ≤ MAX_APK ∧
    isSha256 sha256 = true ∧ validateUrl url false = true

/-- The release of a catalog, before it is checked. -/
structure Apk where
  /-- The package. -/
  package : String
  /-- The oldest system. -/
  minSdk : ℤ
  /-- The version, as it is shown. -/
  version : String
  /-- The number of the version. -/
  versionCode : ℤ
  /-- What is new. -/
  changelog : String
  /-- Where the package is; `none` when it is no address. -/
  url : Option Url
  /-- The digest of the package. -/
  sha256 : String
  /-- The size of the package. -/
  size : ℤ
  deriving DecidableEq, Repr

/-- A catalog. -/
structure Catalog where
  /-- The format. -/
  format : ℤ
  /-- When it was signed. -/
  issued : ℤ
  /-- When it expires. -/
  expires : ℤ
  /-- The stable release for Android. -/
  stable : Apk
  deriving DecidableEq, Repr

/-- A signed catalog that was read. -/
structure Answer where
  /-- The signature is the one of the payload under the key of the client. -/
  verified : Bool
  /-- What the payload says. -/
  catalog : Catalog
  deriving DecidableEq, Repr

/-- What `PackageManager` tells of a package. -/
structure PackageInfo where
  /-- The name. -/
  packageName : String
  /-- The number of the version. -/
  versionCode : ℤ
  /-- The oldest system, when the application is described. -/
  minSdkVersion : Option ℤ
  /-- The signers, if known. -/
  signatures : Option (List String)
  deriving DecidableEq, Repr

/-- The device: what is installed, and what the system computes of files. -/
structure Device where
  /-- `getPackageName`. -/
  packageName : String
  /-- The installed application. -/
  installed : PackageInfo
  /-- `Build.VERSION.SDK_INT`. -/
  sdkInt : ℤ
  /-- The SHA-256 digest in hexadecimal digits. -/
  sha256Hex : List UInt8 → String
  /-- `getPackageArchiveInfo`. -/
  archiveInfo : List UInt8 → Option PackageInfo

/-- The constructor of `Entry`. -/
def makeEntry (apk : Apk) (expires : ℤ) : Option Entry :=
  match apk.url with
  | none => none
  | some url =>
    if h : length apk.version ≤ 64 ∧ length apk.changelog ≤ 16384 ∧ 0 < apk.versionCode ∧ 0 < apk.size ∧
        apk.size ≤ MAX_APK ∧ isSha256 apk.sha256 = true ∧ validateUrl url false = true then
      some {
        version := apk.version
        versionCode := apk.versionCode
        changelog := apk.changelog
        url := url
        sha256 := apk.sha256
        size := apk.size
        expires := expires
        wellFormed := h }
    else none

/-- The checks of a catalog: `none` when it is refused, `some none` when it has nothing newer. -/
def readCatalog (d : Device) (time : ℤ) (answer : Option Answer) : Option (Option Entry) :=
  match answer with
  | none => none
  | some answer =>
    let catalog := answer.catalog
    if !answer.verified then none
    else if catalog.format ≠ 1 || catalog.issued > time + 300 || catalog.expires ≤ time
        || catalog.expires ≤ catalog.issued || catalog.expires - catalog.issued > 366 * 86400 then none
    else if d.packageName ≠ catalog.stable.package then none
    else if catalog.stable.minSdk > d.sdkInt then none
    else
      match makeEntry catalog.stable catalog.expires with
      | none => none
      | some entry => some (if entry.versionCode > d.installed.versionCode then some entry else none)

/-! ### Packages -/

/-- The archive is a newer version of the installed application, by the same signers. -/
def compatible (d : Device) (entry : Entry) (archive : PackageInfo) : Bool :=
  d.installed.packageName = archive.packageName && archive.versionCode = entry.versionCode
    && d.installed.versionCode < archive.versionCode
    && archive.minSdkVersion.any (· ≤ d.sdkInt)
    && match archive.signatures, d.installed.signatures with
      | some signatures, some current =>
        signatures.length = current.length && signatures.length ≠ 0 && current.all (signatures.contains ·)
      | _, _ => false

/-- **The checks of a package**: its size and digest, and what the system says of it. A file that is missing
has the length zero. -/
def validateApk (d : Device) (time : ℤ) (content : Option (List UInt8)) (entry : Entry) : Bool :=
  match content with
  | none => false
  | some content =>
    time < entry.expires && (content.length : ℤ) = entry.size && entry.sha256 = d.sha256Hex content
      && (d.archiveInfo content).any (compatible d entry)

/-! ### The controller -/

/-- A callback of `check`. -/
abbrev Runnable := ℕ

/-- A `File` object of a package. Two objects are different even when their paths are the same. -/
structure File where
  /-- Which object. -/
  ref : ℕ
  /-- The path is `update-<versionCode>.apk`. -/
  versionCode : ℤ
  deriving DecidableEq, Repr

/-- The files of the updater. -/
inductive Path
  /-- `update-<versionCode>.apk`. -/
  | update (versionCode : ℤ)
  /-- `download-<token>.part`. -/
  | part (token : ℕ)
  deriving DecidableEq, Repr

/-- The path of a package. -/
def File.path (file : File) : Path := .update file.versionCode

/-- What the worker is asked to do. -/
inductive Task
  /-- The task of `check`. -/
  | check
  /-- The task of `download`. -/
  | download (token : ℕ) (entry : Entry)
  /-- The task of `install`, with the number of the call. -/
  | install (call : ℕ) (file : File) (entry : Entry)

/-- How far a download is. -/
inductive Stage
  /-- At the head of the loop. -/
  | reading (received : ℤ)
  /-- A block was read. -/
  | read (received : ℤ) (block : List UInt8)
  /-- The block was accepted and written. -/
  | written (received : ℤ)
  /-- The loop is over. -/
  | synced
  /-- The package was validated, at this time. -/
  | validated (time : ℤ)
  /-- The generation was the one of the download. -/
  | checked (time : ℤ)

/-- A download the worker is in the middle of. -/
structure Download where
  /-- Its generation. -/
  token : ℕ
  /-- What it downloads. -/
  entry : Entry
  /-- How far it is. -/
  stage : Stage

/-- What is posted to the UI thread. -/
inductive Callback
  /-- A check is done: the entry, a package that was validated, and whether the check failed. -/
  | checkDone (checked : Option Entry) (cached : Option File) (failed : Bool)
  /-- `notifyProgress`. -/
  | notifyProgress
  /-- A download is done; `none` when it failed. -/
  | downloadDone (token : ℕ) (ready : Option File)
  /-- The package was validated for an installation. -/
  | installReady (call : ℕ) (file : File)
  /-- It was not. -/
  | installFailed

/-- A package that was validated. Nothing of the source reads it. -/
structure Validation where
  /-- The object. -/
  file : File
  /-- What was in the file. -/
  content : List UInt8
  /-- For which entry. -/
  entry : Entry
  /-- When. -/
  time : ℤ

/-- What happens to an installation. Nothing of the source reads it. -/
inductive Log
  /-- `install` was called when this package was the downloaded one. -/
  | called (call : ℕ) (file : File) (entry : Entry)
  /-- Its task validated the package. -/
  | validated (call : ℕ) (validation : Validation)
  /-- The installer is started, while this package is the downloaded one. -/
  | started (call : ℕ) (file : File) (downloaded : Option File)

/-- **The controller**, with the two queues, the files and what happened. -/
structure State where
  /-- The generation of downloads. -/
  generation : ℕ := 0
  /-- The callbacks that wait for the check. -/
  callbacks : List Runnable := []
  /-- A check is on its way. -/
  checking : Bool := false
  /-- The last check failed. -/
  error : Bool := false
  /-- When the last check was started. -/
  lastAttempt : ℤ := 0
  /-- When the last check succeeded. -/
  lastSuccess : ℤ := 0
  /-- The entry that is offered. -/
  available : Option Entry := none
  /-- The package that is offered. -/
  downloaded : Option File := none
  /-- A download is on its way. -/
  downloading : Bool := false
  /-- How much of it is received. -/
  progress : ℚ := 0
  /-- The tasks of the worker. -/
  queue : List Task := []
  /-- The download the worker is in the middle of. -/
  current : Option Download := none
  /-- What is posted to the UI thread. -/
  ui : List Callback := []
  /-- The callbacks the UI thread is in the middle of running. -/
  running : List Runnable := []
  /-- The files. -/
  disk : Path → Option (List UInt8)
  /-- The number of `File` objects. -/
  refs : ℕ := 0
  /-- The number of calls of `install`. -/
  calls : ℕ := 0
  /-- The packages that were validated. -/
  validations : List Validation := []
  /-- What happened to installations. -/
  trace : List Log := []
  /-- The callbacks that were passed to `check`. -/
  passed : List Runnable := []
  /-- The callbacks that were run. -/
  ran : List Runnable := []
  /-- The generations that wrote the progress after they were over, each time they did. -/
  stale : List ℕ := []

/-! ### Calls -/

/-- A callback is run at once. -/
def runNow (s : State) : Option Runnable → State
  | none => s
  | some done => { s with passed := s.passed ++ [done], ran := s.ran ++ [done] }

/-- A callback waits for the check. -/
def addCallback (s : State) : Option Runnable → State
  | none => s
  | some done => { s with passed := s.passed ++ [done], callbacks := s.callbacks ++ [done] }

/-- `check`. -/
def check (s : State) (force initialized : Bool) (now : ℤ) (done : Option Runnable) : State :=
  if !initialized then runNow { s with error := true } done
  else if !force && ((now - s.lastAttempt < 60000 && s.lastAttempt ≠ 0)
      || (now - s.lastSuccess < 8 * 3600000 && s.lastSuccess ≠ 0)) then runNow s done
  else
    let s := addCallback s done
    if s.checking then s
    else { s with checking := true, lastAttempt := now, queue := s.queue ++ [.check] }

/-- `download`. -/
def download (s : State) (initialized : Bool) (time : ℤ) : State :=
  match s.available with
  | none => s
  | some entry =>
    if !initialized || s.downloading then s
    else if entry.expires ≤ time then s
    else { s with
      generation := s.generation + 1
      downloading := true
      progress := 0
      downloaded := none
      queue := s.queue ++ [.download (s.generation + 1) entry] }

/-- `cancel`. What disconnecting does to a download is up to what it reads next. -/
def cancel (s : State) : State :=
  { s with generation := s.generation + 1, downloading := false, progress := 0 }

/-- `install`. -/
def install (s : State) (finishing permitted : Bool) : State :=
  match s.downloaded, s.available with
  | some file, some entry =>
    if finishing || !permitted then s
    else { s with
      calls := s.calls + 1
      trace := s.trace ++ [.called s.calls file entry]
      queue := s.queue ++ [.install s.calls file entry] }
  | _, _ => s

/-! ### The worker -/

/-- A callback is posted to the UI thread. -/
def post (s : State) (callback : Callback) : State :=
  { s with ui := s.ui ++ [callback] }

/-- What the world does while a task is run. -/
structure World where
  /-- What is fetched; `none` when that fails. -/
  answer : Option Answer := none
  /-- The time. -/
  time : ℤ := 0
  /-- Reading a package fails. -/
  validationFails : Bool := false
  /-- The files that cannot be deleted. -/
  undeleted : Path → Bool := fun _ => false
  /-- The address of the package answers. -/
  connects : Bool := false

/-- A file is deleted, or cannot be. -/
def deleteFile (world : World) (disk : Path → Option (List UInt8)) (path : Path) : Path → Option (List UInt8) :=
  fun other => if other = path && !world.undeleted path then none else disk other

/-- The task of `check`. -/
def runCheck (d : Device) (world : World) (s : State) : State :=
  match readCatalog d world.time world.answer with
  | none => post s (.checkDone none none true)
  | some none => post s (.checkDone none none false)
  | some (some entry) =>
    let candidate : File := { ref := s.refs, versionCode := entry.versionCode }
    match s.disk candidate.path with
    | none => post { s with refs := s.refs + 1 } (.checkDone (some entry) none false)
    | some content =>
      if validateApk d world.time (some content) entry && !world.validationFails then
        post { s with
          refs := s.refs + 1
          validations := s.validations ++
            [{ file := candidate, content := content, entry := entry, time := world.time }] }
          (.checkDone (some entry) (some candidate) false)
      else
        post { s with refs := s.refs + 1, disk := deleteFile world s.disk candidate.path }
          (.checkDone (some entry) none false)

/-- The task of `install`. -/
def runInstall (d : Device) (world : World) (s : State) (call : ℕ) (file : File) (entry : Entry) : State :=
  match s.disk file.path with
  | none => post s .installFailed
  | some content =>
    if validateApk d world.time (some content) entry && !world.validationFails then
      post { s with
        trace := s.trace ++
          [.validated call { file := file, content := content, entry := entry, time := world.time }] }
        (.installReady call file)
    else post s .installFailed

/-- The end of a download, failed or not: the partial file is deleted if it is there. -/
def endDownload (s : State) (token : ℕ) (ready : Option File) : State :=
  post { s with
    current := none
    disk := fun path => if path = .part token then none else s.disk path }
    (.downloadDone token ready)

/-- The task of `download` up to its loop: older packages are deleted and the address is opened. -/
def startDownload (world : World) (s : State) (token : ℕ) (entry : Entry) : State :=
  let s := { s with disk := fun path => if world.undeleted path then s.disk path else none }
  if world.connects then
    { s with
      disk := fun path => if path = .part token then some [] else s.disk path
      current := some { token := token, entry := entry, stage := .reading 0 } }
  else endDownload s token none

/-- The worker takes its next task. -/
def takeTask (d : Device) (world : World) (s : State) : State :=
  match s.queue with
  | [] => s
  | task :: rest =>
    let s := { s with queue := rest }
    match task with
    | .check => runCheck d world s
    | .download token entry => startDownload world s token entry
    | .install call file entry => runInstall d world s call file entry

/-- What reading a connection gives. -/
inductive ReadResult
  /-- A block. -/
  | block (bytes : List UInt8)
  /-- The end. -/
  | eof
  /-- A failure. -/
  | failure
  deriving DecidableEq, Repr

/-- What the worker does next. -/
inductive WorkerEvent
  /-- It takes a task. -/
  | take (world : World)
  /-- A read of the connection returns. -/
  | read (result : ReadResult)
  /-- A block is accepted and written, unless the download is over or took too long. -/
  | accept (timedOut : Bool)
  /-- The progress is written, and perhaps shown. -/
  | report (notify : Bool)
  /-- The partial file is validated. -/
  | validate (time : ℤ) (fails : Bool)
  /-- The generation is compared once more. -/
  | recheck
  /-- The partial file is renamed. -/
  | publish (renames : Bool)

/-- A download goes on. -/
def advance (s : State) (dl : Download) (stage : Stage) : State :=
  { s with current := some { dl with stage := stage } }

/-- A block is appended to the partial file. -/
def writeBlock (s : State) (token : ℕ) (block : List UInt8) : State :=
  { s with disk := fun path =>
      if path = .part token then some ((s.disk path).getD [] ++ block) else s.disk path }

/-- A block is accepted. -/
def acceptBlock (s : State) (dl : Download) (received : ℤ) (block : List UInt8) (timedOut : Bool) : State :=
  if dl.token ≠ s.generation || timedOut then endDownload s dl.token none
  else if dl.entry.size < received + block.length then endDownload s dl.token none
  else advance (writeBlock s dl.token block) dl (.written (received + block.length))

/-- The progress is written. -/
def reportProgress (s : State) (dl : Download) (received : ℤ) (notify : Bool) : State :=
  let s := { s with
    progress := (received : ℚ) / dl.entry.size
    stale := if dl.token ≠ s.generation then s.stale ++ [dl.token] else s.stale }
  let s := if notify then post s .notifyProgress else s
  advance s dl (.reading received)

/-- The verified package takes its name. -/
def publishPackage (s : State) (dl : Download) (time : ℤ) (renames : Bool) : State :=
  let complete : File := { ref := s.refs, versionCode := dl.entry.versionCode }
  match s.disk (.part dl.token) with
  | none => endDownload s dl.token none
  | some content =>
    if renames then
      endDownload { s with
        refs := s.refs + 1
        disk := fun path => if path = complete.path then some content else s.disk path
        validations := s.validations ++
          [{ file := complete, content := content, entry := dl.entry, time := time }] }
        dl.token (some complete)
    else endDownload s dl.token none

/-- **A step of the worker.** -/
def workerStep (d : Device) (s : State) (event : WorkerEvent) : State :=
  match s.current, event with
  | none, .take world => takeTask d world s
  | some dl, event =>
    match dl.stage, event with
    | .reading received, .read (.block bytes) => advance s dl (.read received bytes)
    | .reading _, .read .eof => advance s dl .synced
    | .reading _, .read .failure => endDownload s dl.token none
    | .read received block, .accept timedOut => acceptBlock s dl received block timedOut
    | .written received, .report notify => reportProgress s dl received notify
    | .synced, .validate time fails =>
      if validateApk d time (s.disk (.part dl.token)) dl.entry && !fails then advance s dl (.validated time)
      else endDownload s dl.token none
    | .validated time, .recheck =>
      if dl.token = s.generation then advance s dl (.checked time) else endDownload s dl.token none
    | .checked time, .publish renames => publishPackage s dl time renames
    | _, _ => s
  | _, _ => s

/-! ### The UI thread -/

/-- The entry of a check is not the one that is offered. -/
def differs (available checked : Option Entry) : Bool :=
  match available, checked with
  | some available, some checked =>
    available.versionCode ≠ checked.versionCode || available.sha256 ≠ checked.sha256
  | _, _ => true

/-- What a check found is offered. -/
def adopt (s : State) (now : ℤ) (checked : Option Entry) (cached : Option File) : State :=
  let s := { s with lastSuccess := now }
  let s := if differs s.available checked then { cancel s with downloaded := none } else s
  let s := { s with available := checked }
  if s.downloading then s else { s with downloaded := cached }

/-- The callback of a check. -/
def checkDone (s : State) (now : ℤ) (checked : Option Entry) (cached : Option File) (failed : Bool) : State :=
  let s := { s with checking := false, error := failed }
  let s := if failed then s else adopt s now checked cached
  { s with running := s.callbacks, callbacks := [] }

/-- The callback of a download. -/
def downloadDone (s : State) (token : ℕ) (ready : Option File) : State :=
  if token ≠ s.generation then s else { s with downloading := false, downloaded := ready }

/-- The callback of an installation that may go on. -/
def installReady (s : State) (call : ℕ) (file : File) (activityGone : Bool) : State :=
  if activityGone || s.downloaded ≠ some file then s
  else { s with trace := s.trace ++ [.started call file s.downloaded] }

/-- What was posted is run. -/
def runCallback (s : State) (now : ℤ) (activityGone : Bool) : Callback → State
  | .checkDone checked cached failed => checkDone s now checked cached failed
  | .notifyProgress => s
  | .downloadDone token ready => downloadDone s token ready
  | .installReady call file => installReady s call file activityGone
  | .installFailed => { s with downloaded := none }

/-- **A step of the UI thread**: it goes on with the callbacks of a check, or runs what was posted next. -/
def uiStep (s : State) (now : ℤ) (activityGone : Bool) : State :=
  match s.running, s.ui with
  | done :: rest, _ => { s with running := rest, ran := s.ran ++ [done] }
  | [], callback :: rest => runCallback { s with ui := rest } now activityGone callback
  | [], [] => s

end AndroidUpdates
