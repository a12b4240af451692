import Telegravim.Update.Verify

set_option autoImplicit false

/-!
# Updates: any sequence of packages

The client holds the newest of the manifest that is built in and the one in its file. A package that
is accepted may carry a newer manifest; that is written to the file some time later, unless a newer one
is held by then. The file may be lost or replaced by any bytes at any moment.

## Main definitions

* `Update.heldManifest`, `Update.adoptManifest` — reading and writing the held manifest.
* `Update.Event`, `Update.step` — what happens to a client.
* `Update.heldVersion` — the version of the held manifest.

## Main results

* `Update.updates_authorized` — over any run, each accepted package is authorized, and while the file
  is left alone no manifest decides that is older than one that was held or adopted before.
-/

namespace Update

/-- What is built into the client. -/
structure BuiltIn where
  embeddedManifest : Bytes
  embeddedManifestSignature : Bytes
  rootPublicKeyPem : Bytes

/-- `readUpdateManifest`: the manifest and the signature before it. -/
def readUpdateManifest (file : Option Bytes) : Option (Bytes × Bytes) :=
  match file with
  | none => none
  | some content =>
    if content.length ≤ kRawSignatureSize ∨ content.length > kRawSignatureSize + kMaxManifestSize then none
    else some (content.drop kRawSignatureSize, content.take kRawSignatureSize)

/-- `writeUpdateManifest`. -/
def writeUpdateManifest (file : Option Bytes) (manifest signature : Bytes) : Option Bytes :=
  if signature.length ≠ kRawSignatureSize ∨ manifest = [] then file else some (signature ++ manifest)

section Functions

variable {Key : Type} (lib : Library Key) (builtIn : BuiltIn)

/-- The manifest that is built in. -/
def embedded : Option Manifest :=
  (parseVerifiedManifest lib builtIn.embeddedManifest builtIn.embeddedManifestSignature
    builtIn.rootPublicKeyPem).toOption

/-- The manifest in the file. -/
def persisted (file : Option Bytes) : Option Manifest :=
  (readUpdateManifest file).bind fun content =>
    (parseVerifiedManifest lib content.1 content.2 builtIn.rootPublicKeyPem).toOption

/-- `HeldManifest`. -/
def heldManifest (file : Option Bytes) : Option Manifest :=
  match persisted lib builtIn file with
  | none => embedded lib builtIn
  | some manifest =>
    match embedded lib builtIn with
    | none => some manifest
    | some result => if manifest.version > result.version then some manifest else some result

/-- The version of the held manifest, 0 without one. -/
def heldVersion (file : Option Bytes) : ℕ := (heldManifest lib builtIn file).elim 0 Manifest.version

/-- `AdoptManifest`. -/
def adoptManifest (file : Option Bytes) (manifest : Manifest) : Option Bytes :=
  match heldManifest lib builtIn file with
  | none => writeUpdateManifest file manifest.bytes manifest.signature
  | some held =>
    if manifest.version > held.version then
      writeUpdateManifest file manifest.bytes manifest.signature
    else file

/-- What happens to a client. -/
inductive Event where
  /-- A package comes, for the version that the catalog has told. -/
  | update (data : Bytes) (client : Client) (expectedVersion : ℕ) (now : ℤ)
  /-- A manifest that waits is adopted. -/
  | adopt
  /-- A manifest that waits is lost, by the end of the program or because it cannot be written. -/
  | lose
  /-- The file is lost or replaced. -/
  | replace (file : Option Bytes)

/-- A package that was accepted. -/
structure Decision where
  data : Bytes
  client : Client
  now : ℤ
  held : Option Manifest
  update : VerifiedUpdate

/-- A client: its file, the manifests that wait to be adopted, and what it has accepted. -/
structure State where
  file : Option Bytes := none
  pending : List Manifest := []
  decisions : List Decision := []

/-- What an event does. A manifest is adopted only when the package is what the catalog has told. -/
def step (state : State) : Event → State
  | .update data client expectedVersion now =>
    let held := heldManifest lib builtIn state.file
    match verifyUpdate lib data client held builtIn.rootPublicKeyPem now with
    | .error _ => state
    | .ok update =>
      { state with
        decisions := state.decisions ++ [{ data, client, now, held, update }]
        pending := if update.envelope.version = expectedVersion ∧ update.adoptManifest = true then
          state.pending ++ [update.manifest] else state.pending }
  | .adopt =>
    match state.pending with
    | [] => state
    | manifest :: rest =>
      { state with
        file := adoptManifest lib builtIn state.file manifest
        pending := rest }
  | .lose => { state with pending := state.pending.tail }
  | .replace file => { state with file }

/-- A run. -/
def run (state : State) (events : List Event) : State := events.foldl (step lib builtIn) state

end Functions

section Spec

variable {Key : Type} {lib : Library Key} {builtIn : BuiltIn} {world : World Key}

/-- The held manifest is trusted, whatever is in the file. -/
lemma trusted_heldManifest (hunforgeable : Unforgeable lib builtIn.rootPublicKeyPem world)
    {file : Option Bytes} {manifest : Manifest} (h : heldManifest lib builtIn file = some manifest) :
    Trusted lib builtIn.rootPublicKeyPem world manifest := by
  have hembedded : ∀ manifest, embedded lib builtIn = some manifest →
      Trusted lib builtIn.rootPublicKeyPem world manifest := by
    intro manifest h
    exact trusted_of_parse hunforgeable (toOption_eq_ok.mp h)
  have hpersisted : ∀ manifest, persisted lib builtIn file = some manifest →
      Trusted lib builtIn.rootPublicKeyPem world manifest := by
    intro manifest h
    obtain ⟨content, -, hparsed⟩ := Option.bind_eq_some_iff.mp h
    exact trusted_of_parse hunforgeable (toOption_eq_ok.mp hparsed)
  unfold heldManifest at h
  split at h
  · exact hembedded manifest h
  · rename_i saved hsaved
    split at h
    · cases h
      exact hpersisted _ hsaved
    · rename_i result hresult
      split_ifs at h
      · cases h
        exact hpersisted _ hsaved
      · cases h
        exact hembedded _ hresult

/-- The held version is the newest of the two. -/
lemma heldVersion_eq (file : Option Bytes) : heldVersion lib builtIn file =
    max ((embedded lib builtIn).elim 0 Manifest.version)
      ((persisted lib builtIn file).elim 0 Manifest.version) := by
  unfold heldVersion heldManifest
  cases persisted lib builtIn file with
  | none => simp
  | some manifest =>
    cases embedded lib builtIn with
    | none => simp
    | some result =>
      simp only [Option.elim_some]
      split_ifs with h
      · exact (max_eq_right h.le).symm
      · exact (max_eq_left (not_lt.mp h)).symm

/-- A manifest that is written is read back. -/
lemma persisted_write {manifest : Manifest} (h : Trusted lib builtIn.rootPublicKeyPem world manifest)
    (file : Option Bytes) :
    persisted lib builtIn (writeUpdateManifest file manifest.bytes manifest.signature) = some manifest := by
  obtain ⟨-, -, -, hlength, hne, hsize, -⟩ := parseVerifiedManifest_ok h.1
  have hpos := List.length_pos_of_ne_nil hne
  unfold persisted writeUpdateManifest readUpdateManifest
  rw [if_neg (by simp [hlength, hne])]
  dsimp only
  rw [if_neg (by rw [List.length_append]; omega), Option.bind_some, List.drop_left' hlength,
    List.take_left' hlength, h.1]
  rfl

/-- **An adoption** leaves a manifest that is as new as the adopted one and as the held one. -/
theorem heldVersion_adoptManifest {manifest : Manifest}
    (h : Trusted lib builtIn.rootPublicKeyPem world manifest) (file : Option Bytes) :
    manifest.version ≤ heldVersion lib builtIn (adoptManifest lib builtIn file manifest) ∧
      heldVersion lib builtIn file ≤ heldVersion lib builtIn (adoptManifest lib builtIn file manifest) := by
  have hwritten : manifest.version ≤ heldVersion lib builtIn
      (writeUpdateManifest file manifest.bytes manifest.signature) := by
    rw [heldVersion_eq, persisted_write h]
    exact le_max_right _ _
  unfold adoptManifest
  cases hheld : heldManifest lib builtIn file with
  | none =>
    refine ⟨hwritten, ?_⟩
    have hzero : heldVersion lib builtIn file = 0 := by
      unfold heldVersion
      rw [hheld]
      rfl
    omega
  | some held =>
    have hversion : heldVersion lib builtIn file = held.version := by
      unfold heldVersion
      rw [hheld]
      rfl
    dsimp only
    split_ifs with hnewer
    · exact ⟨hwritten, by omega⟩
    · exact ⟨by omega, le_rfl⟩

/-- A client whose waiting manifests are trusted, and whose decisions were authorized. -/
structure Sound (lib : Library Key) (builtIn : BuiltIn) (world : World Key) (state : State) : Prop where
  pending : ∀ manifest ∈ state.pending, Trusted lib builtIn.rootPublicKeyPem world manifest
  decisions : ∀ d ∈ state.decisions, Authorized lib builtIn.rootPublicKeyPem world d.data d.client
    d.held d.now d.update

/-- A package that comes has been received. -/
def Event.Received (world : World Key) : Event → Prop
  | .update data _ _ _ => world.received data
  | _ => True

/-- An event that leaves the file alone, but for adoptions. -/
def Event.LeavesFile : Event → Prop
  | .replace _ => False
  | _ => True

/-- **What an event keeps**: the client stays sound; the held version does not go back unless the file
is replaced; and what is decided is decided by a manifest as new as the held one. -/
theorem step_sound (hunforgeable : Unforgeable lib builtIn.rootPublicKeyPem world) {state : State}
    (h : Sound lib builtIn world state) {event : Event} (hreceived : event.Received world) :
    Sound lib builtIn world (step lib builtIn state event) ∧
      (event.LeavesFile →
        heldVersion lib builtIn state.file ≤ heldVersion lib builtIn (step lib builtIn state event).file) ∧
      ∃ made, (step lib builtIn state event).decisions = state.decisions ++ made ∧
        ∀ d ∈ made, heldVersion lib builtIn state.file ≤ d.update.manifest.version := by
  cases event with
  | update data client expectedVersion now =>
    unfold step
    dsimp only
    split
    · exact ⟨h, fun _ => le_rfl, [], (List.append_nil _).symm, by simp⟩
    · rename_i update hupdate
      have hauthorized := authorized_of_verifyUpdate hunforgeable hreceived
        (fun manifest hmanifest => trusted_heldManifest hunforgeable hmanifest) hupdate
      refine ⟨⟨fun manifest hmem => ?_, fun d hd => ?_⟩, fun _ => le_rfl, _, rfl, fun d hd => ?_⟩
      · dsimp only at hmem
        split_ifs at hmem
        · rcases List.mem_append.mp hmem with hmem | hmem
          · exact h.pending manifest hmem
          · rw [List.mem_singleton.mp hmem]
            exact hauthorized.manifest
        · exact h.pending manifest hmem
      · rcases List.mem_append.mp hd with hd | hd
        · exact h.decisions d hd
        · rw [List.mem_singleton.mp hd]
          exact hauthorized
      · rw [List.mem_singleton.mp hd]
        obtain ⟨carried, -, -, hversion⟩ := hauthorized.newest
        dsimp only
        rw [hversion]
        exact le_max_left _ _
  | adopt =>
    unfold step
    dsimp only
    split
    · exact ⟨h, fun _ => le_rfl, [], (List.append_nil _).symm, by simp⟩
    · rename_i manifest rest hpending
      have htrusted := h.pending manifest (by rw [hpending]; exact List.mem_cons_self)
      refine ⟨⟨fun other hmem => h.pending other ?_, h.decisions⟩,
        fun _ => (heldVersion_adoptManifest htrusted _).2, [], (List.append_nil _).symm, by simp⟩
      rw [hpending]
      exact List.mem_cons_of_mem _ hmem
  | lose =>
    exact ⟨⟨fun manifest hmem => h.pending manifest (List.mem_of_mem_tail hmem), h.decisions⟩,
      fun _ => le_rfl, [], (List.append_nil _).symm, by simp⟩
  | replace file =>
    exact ⟨⟨h.pending, h.decisions⟩, fun hleaves => hleaves.elim, [], (List.append_nil _).symm, by simp⟩

/-- **What a run keeps.** -/
theorem run_sound (hunforgeable : Unforgeable lib builtIn.rootPublicKeyPem world) {state : State}
    (h : Sound lib builtIn world state) {events : List Event}
    (hreceived : ∀ event ∈ events, event.Received world) :
    Sound lib builtIn world (run lib builtIn state events) ∧
      ((∀ event ∈ events, event.LeavesFile) →
        heldVersion lib builtIn state.file ≤ heldVersion lib builtIn (run lib builtIn state events).file ∧
        ∃ made, (run lib builtIn state events).decisions = state.decisions ++ made ∧
          ∀ d ∈ made, heldVersion lib builtIn state.file ≤ d.update.manifest.version) := by
  induction events generalizing state with
  | nil => exact ⟨h, fun _ => ⟨le_rfl, [], (List.append_nil _).symm, by simp⟩⟩
  | cons event rest ih =>
    obtain ⟨hsound, hversion, made, hmade, hdecided⟩ :=
      step_sound hunforgeable h (hreceived event List.mem_cons_self)
    obtain ⟨hsound', hrest⟩ := ih hsound fun other hmem => hreceived other (List.mem_cons_of_mem _ hmem)
    refine ⟨hsound', fun hleaves => ?_⟩
    have hle := hversion (hleaves event List.mem_cons_self)
    obtain ⟨hle', made', hmade', hdecided'⟩ :=
      hrest fun other hmem => hleaves other (List.mem_cons_of_mem _ hmem)
    refine ⟨hle.trans hle', made ++ made', ?_, fun d hd => ?_⟩
    · rw [← List.append_assoc, ← hmade]
      exact hmade'
    · rcases List.mem_append.mp hd with hd | hd
      · exact hdecided d hd
      · exact hle.trans (hdecided' d hd)

lemma sound_start : Sound lib builtIn world {} :=
  ⟨fun _ h => (nomatch h), fun _ h => (nomatch h)⟩

lemma run_append (state : State) (before after : List Event) :
    run lib builtIn state (before ++ after) = run lib builtIn (run lib builtIn state before) after :=
  List.foldl_append

/-- What a client has decided since an earlier moment. -/
def State.decidedSince (state earlier : State) : List Decision :=
  state.decisions.drop earlier.decisions.length

/-- **Only what the newest trusted manifest authorizes is installed**, over any run that starts from the
built-in manifest. Each accepted package is authorized. While the file is left alone, the held version does not
go back, and no manifest decides that is older than the one that was held, or than one that was adopted
before. -/
theorem updates_authorized (hunforgeable : Unforgeable lib builtIn.rootPublicKeyPem world)
    {events : List Event} (hreceived : ∀ event ∈ events, event.Received world) :
    let after := run lib builtIn {}
    (∀ d ∈ (after events).decisions, Authorized lib builtIn.rootPublicKeyPem world d.data d.client
      d.held d.now d.update) ∧
    (∀ first rest, events = first ++ rest → (∀ event ∈ rest, event.LeavesFile) →
      heldVersion lib builtIn (after first).file ≤ heldVersion lib builtIn (after events).file ∧
      ∀ d ∈ (after events).decidedSince (after first),
        heldVersion lib builtIn (after first).file ≤ d.update.manifest.version) ∧
    ∀ first manifest others rest, events = first ++ .adopt :: rest →
      (after first).pending = manifest :: others → (∀ event ∈ rest, event.LeavesFile) →
      ∀ d ∈ (after events).decidedSince (after first), manifest.version ≤ d.update.manifest.version := by
  intro after
  have hsound : ∀ first rest, events = first ++ rest → Sound lib builtIn world (after first) := by
    intro first rest hsplit
    exact (run_sound hunforgeable sound_start fun event hmem =>
      hreceived event (hsplit ▸ List.mem_append_left _ hmem)).1
  have hsince : ∀ first rest, events = first ++ rest → (∀ event ∈ rest, event.LeavesFile) →
      heldVersion lib builtIn (after first).file ≤ heldVersion lib builtIn (after events).file ∧
      ∀ d ∈ (after events).decidedSince (after first),
        heldVersion lib builtIn (after first).file ≤ d.update.manifest.version := by
    intro first rest hsplit hleaves
    obtain ⟨-, hrest⟩ := run_sound hunforgeable (hsound first rest hsplit)
      (fun event hmem => hreceived event (hsplit ▸ List.mem_append_right _ hmem))
    obtain ⟨hle, made, hmade, hdecided⟩ := hrest hleaves
    rw [hsplit]
    unfold after
    rw [run_append]
    refine ⟨hle, fun d hd => hdecided d ?_⟩
    unfold State.decidedSince at hd
    change d ∈ (run lib builtIn (after first) rest).decisions.drop (after first).decisions.length at hd
    rw [hmade, List.drop_left] at hd
    exact hd
  refine ⟨(hsound events [] (List.append_nil _).symm).decisions, hsince, ?_⟩
  intro first manifest others rest hsplit hpending hleaves d hd
  have hadopted : after (first ++ [.adopt]) =
      { after first with
        file := adoptManifest lib builtIn (after first).file manifest
        pending := others } := by
    unfold after
    rw [run_append]
    change step lib builtIn (after first) .adopt = _
    unfold step
    rw [hpending]
  have htrusted := (hsound first _ hsplit).pending manifest (by rw [hpending]; exact List.mem_cons_self)
  obtain ⟨-, hdecided⟩ := hsince (first ++ [.adopt]) rest (by rw [hsplit]; simp) hleaves
  have hversion := (heldVersion_adoptManifest htrusted (after first).file).1
  unfold State.decidedSince at hdecided hd
  rw [hadopted] at hdecided
  exact hversion.trans (hdecided d hd)

end Spec

/-! ### A package that is accepted -/

/-- A manifest with one key, for the stable channel. -/
def plainManifest : Bytes := Json.ascii
  "\x7b\"format\":1,\"manifest_version\":1,\"keys\":[\x7b\"id\":\"a\",\"alg\":\"Ed25519\",\"x\":\"AAAAAAAAAAAAAAAAAAAAAAAAAAAAAAAAAAAAAAAAAAA\"\x7d],\"channels\":\x7b\"stable\":[[\"a\"]]\x7d,\"revoked\":[]\x7d"

open Text in
/-- What it says. -/
def plainDocument : Json := .obj [
  (u "channels", .obj [(u "stable", .arr [.arr [.str (u "a")]])]),
  (u "format", .num 1),
  (u "keys", .arr [.obj [(u "alg", .str (u "Ed25519")), (u "id", .str (u "a")),
    (u "x", .str (u "AAAAAAAAAAAAAAAAAAAAAAAAAAAAAAAAAAAAAAAAAAA"))]]),
  (u "manifest_version", .num 1),
  (u "revoked", .arr [])]

/-- The signature of all that is signed here. -/
def plainSignature : Bytes := List.replicate 64 1

/-- A package for a stable build, up to the signature of its manifest. -/
def plainRegion : Bytes := kEnvelopeMagic ++ [2, 0, 0, 0, 0, 2, 1, 5, 0, 0, 0, 0, 0, 0, 0, 9, 0, 0, 0, 0, 0, 0, 0] ++
  [UInt8.ofNat plainManifest.length, 0, 0, 0] ++ plainManifest

/-- The package. -/
def plainPackage : Bytes := plainRegion ++ [64, 0, 0, 0] ++ plainSignature ++
  [1, 0, 0, 0, 1, 0, 0, 0] ++ Json.ascii "a" ++ [64, 0, 0, 0] ++ plainSignature ++ [1, 0, 0, 0, 7]

/-- What the root key, here false, has signed, and what the other one has. -/
def plainMessage (key : Bool) : Bytes :=
  if key then plainRegion ++ List.replicate 32 3 else plainManifest

/-- Libraries that verify these signatures. -/
def plainLibrary : Library Bool where
  digest data := if data = [7] then some (List.replicate 32 3) else none
  readPem _ := some false
  isEd25519 key := !key
  newRawPublicKey _ := some true
  readDer _ := none
  signatureToDer _ _ := none
  digestVerify key _ message signature := decide (signature = plainSignature ∧ message = plainMessage key)
  fromJson data := if data = plainManifest then some plainDocument else none
  fromBase64Url text := if text.length = 43 then some (List.replicate 32 0) else none

def plainClient : Client where
  buildChannel := .stable
  betaSet := false
  expectedTarget := { os := .linux, arch := .x64 }
  runningVersion := 4

def plainBuiltIn : BuiltIn where
  embeddedManifest := []
  embeddedManifestSignature := []
  rootPublicKeyPem := []

def plainWorld : World Bool where
  manifests key json := key = false ∧ json = plainManifest
  packages key data := key = true ∧ data = plainPackage
  catalogs _ _ := False
  received data := data = plainPackage

lemma signingInput_plainPackage : ∃ package, parseEnvelope plainPackage = .ok package ∧
    signingInput plainLibrary package = plainRegion ++ List.replicate 32 3 := by
  have hrun : ((parseEnvelope plainPackage).toOption.any fun package =>
      decide (signingInput plainLibrary package = plainRegion ++ List.replicate 32 3)) = true := by
    decide +kernel
  obtain ⟨package, hparsed, h⟩ := (Option.any_eq_true _ _).mp hrun
  exact ⟨package, toOption_eq_ok.mp hparsed, of_decide_eq_true h⟩

/-- The libraries verify what was signed. -/
lemma unforgeable_plain : Unforgeable plainLibrary [] plainWorld where
  root root json signature hroot h := by
    cases hroot
    unfold verifyEd25519 at h
    split_ifs at h
    exact ⟨rfl, (of_decide_eq_true h).2⟩
  key key pkey message signature hpkey h := by
    unfold verifySignature at h
    rw [hpkey] at h
    unfold publicKey at hpkey
    dsimp only at h
    split_ifs at h hpkey
    · unfold makeEd25519 at hpkey
      split_ifs at hpkey
      cases hpkey
      unfold verifyEd25519 at h
      split_ifs at h
      obtain ⟨-, hmessage⟩ := of_decide_eq_true h
      obtain ⟨package, hparsed, hinput⟩ := signingInput_plainPackage
      exact Or.inl ⟨plainPackage, package, ⟨rfl, rfl⟩, hparsed, hmessage.trans hinput.symm⟩
    · unfold makeEs256 at hpkey
      split_ifs at hpkey
      cases hpkey
  collision pkey signed package data envelope hsigned hpackage hdata henvelope _ := by
    obtain ⟨-, rfl⟩ := hsigned
    rw [show data = plainPackage from hdata, hpackage] at henvelope
    cases henvelope
    rfl

/-- The package is accepted and authorized. -/
theorem plain_update_authorized :
    ∃ d ∈ (run plainLibrary plainBuiltIn {} [.update plainPackage plainClient 5 0, .adopt]).decisions,
      Authorized plainLibrary [] plainWorld d.data d.client d.held d.now d.update := by
  have hne : (run plainLibrary plainBuiltIn {}
      [.update plainPackage plainClient 5 0, .adopt]).decisions ≠ [] := by
    have hrun : (run plainLibrary plainBuiltIn {}
        [.update plainPackage plainClient 5 0, .adopt]).decisions.isEmpty = false := by
      decide +kernel
    exact List.isEmpty_eq_false_iff.mp hrun
  have hreceived : ∀ event ∈ [Event.update plainPackage plainClient 5 0, .adopt],
      event.Received plainWorld := by
    intro event hmem
    rcases List.mem_cons.mp hmem with rfl | hmem
    · exact rfl
    · rw [List.mem_singleton.mp hmem]
      exact trivial
  have hplain : Unforgeable plainLibrary plainBuiltIn.rootPublicKeyPem plainWorld := unforgeable_plain
  obtain ⟨hauthorized, -⟩ := updates_authorized hplain hreceived
  obtain ⟨d, hd⟩ := List.exists_mem_of_ne_nil _ hne
  exact ⟨d, hd, hauthorized d hd⟩

end Update
