import Telegravim.LocalData.Transfer

set_option autoImplicit false

/-!
# Local data: validation

What `ValidateSnapshot` checks: the limits, the identities of profiles, modules and assets, the
records of supported modules, and that the snapshot has a transfer package.

## Main definitions

* `LocalData.validVector`, `LocalData.validateTags` — the version vector and the records of a
  supported module.
* `LocalData.validateSnapshot` — the check of every snapshot that is loaded, imported or committed.

## Main results

* `LocalData.Valid.of_validateSnapshot` — what an accepted snapshot satisfies.
-/

namespace LocalData

open Text

/-! ### Records -/

def kMaxCounter : ℚ := 9007199254740991

/-- Whether a number is an integer of a range. -/
def integerIn (low high value : ℚ) : Bool := low ≤ value && value ≤ high && value.den = 1

def validVector (value : Option Json) : Bool :=
  Json.isObjectValue value &&
    let vector := (Json.asObject value).entries
    vector ≠ [] && vector.length ≤ 256 && vector.all fun (device, counter) =>
      validId device && integerIn 1 kMaxCounter (Json.asDouble (-1) (some counter))

/-- Blanks of the Unicode plane of the code units. -/
def isSpace (c : UInt16) : Bool :=
  c = 0x20 || (0x09 ≤ c && c ≤ 0x0d) || c = 0x85 || c = 0xa0 || c = 0x1680 ||
    (0x2000 ≤ c && c ≤ 0x200a) || c = 0x2028 || c = 0x2029 || c = 0x202f || c = 0x205f || c = 0x3000

/-- The number of a decimal text; zero when it is too large or no number. -/
def numberOf (value : Text) : ℕ := (toULongLong value).getD 0

def validNative (native : Option Json) : Bool :=
  let reaction := Json.asObject native
  let kind := Json.asText (reaction.find (u "kind"))
  let documentId := Json.asText (reaction.find (u "document_id"))
  let emoji := Json.asText (reaction.find (u "emoji"))
  Json.isObjectValue native &&
    ((kind = u "custom" && isDecimal documentId && 0 < numberOf documentId) ||
      (kind = u "emoji" && Json.isTextValue (reaction.find (u "emoji")) && emoji ≠ [] &&
        emoji ≠ u "*" && emoji.length ≤ 32))

def validTag (record : JObject) : Bool :=
  let title := record.find (u "title")
  let emoji := record.find (u "emoji")
  let native := record.find (u "native_reaction")
  Json.isTextValue title && (!(Json.asText title).all isSpace || validNative native) &&
    (native.isNone || validNative native) && (Json.asText title).length ≤ 100 &&
    Json.isTextValue emoji && (Json.asText emoji).length ≤ 32 &&
    integerIn 0 2147483647 (Json.asDouble (-1) (record.find (u "position")))

def bindingMessage (record : JObject) : JObject := Json.asObject (record.find (u "message"))

def bindingTag (record : JObject) : Text := Json.asText (record.find (u "tag_id"))

def bindingMessageId (record : JObject) : Text :=
  Json.asText ((bindingMessage record).find (u "message_id"))

def validSavedPeer (saved : Option Json) : Bool :=
  let peer := Json.asObject saved
  let type := Json.asText (peer.find (u "peer_type"))
  let id := Json.asText (peer.find (u "peer_id"))
  Json.isObjectValue saved && (type = u "user" || type = u "chat" || type = u "channel") &&
    isDecimal id && numberOf id ≠ 0 && numberOf id ≤ 0xFFFFFFFFFFFF

def validBinding (account : Account) (record : JObject) : Bool :=
  let message := bindingMessage record
  let messageId := bindingMessageId record
  let text := record.find (u "source_text")
  let hash := record.find (u "source_hash")
  let position := record.find (u "reaction_position")
  let saved := record.find (u "saved_peer")
  validId (bindingTag record) && Json.asText (message.find (u "peer_type")) = u "user" &&
    Json.asText (message.find (u "peer_id")) = account.userId && isDecimal messageId &&
    messageId.length ≤ 10 && numberOf messageId ≤ 2147483647 &&
    (text.isNone || (Json.isTextValue text && (Json.asText text).length ≤ 32768)) &&
    (hash.isNone || validHash (Json.asText hash)) &&
    (position.isNone || integerIn 0 2147483647 (Json.asDouble (-1) position)) &&
    (saved.isNone || validSavedPeer saved)

def validFilter (record : JObject) : Bool :=
  let text := record.find (u "text")
  Json.isArrayValue (record.find (u "tags")) && Json.isTextValue text &&
    (Json.asText text).length ≤ 4096

def validFilterTags (record : JObject) : Bool :=
  (Json.asArray (record.find (u "tags"))).all fun tag => validId (Json.asText (some tag))

def recordKind (record : JObject) : Text := Json.asText (record.find (u "kind"))

/-- The part of `ValidateTags` on an active record of the module of saved tags. -/
def validateTag (account : Account) (record : JObject) : Result Unit :=
  let kind := recordKind record
  if kind = u "tag" then
    if validTag record then .ok () else failure .invalid "Invalid saved tag."
  else if kind = u "binding" then
    if validBinding account record then .ok ()
    else failure .invalid "Invalid saved-message binding."
  else if kind = u "filter" then
    if validFilter record = false then failure .invalid "Invalid saved-message filter."
    else if validFilterTags record = false then failure .invalid "Invalid filter tag identity."
    else .ok ()
  else .ok ()

/-- Whether a record has an identity, a version and no wrong type. -/
def validRecord (host : Host) (record : JObject) : Bool :=
  validId (recordId record) && Json.isBoolValue (record.find (u "deleted")) &&
    ((record.find (u "kind")).isNone || Json.isTextValue (record.find (u "kind"))) &&
    validVector (record.find (u "version_vector")) && host.size record ≤ limits.maxRecordBytes

def validateRecords (host : Host) (tags : Bool) (account : Account) :
    List Json → List Text → Result Unit
  | [], _ => .ok ()
  | value :: values, seen =>
    let record := value.toObject
    if validRecord host record = false ∨ recordId record ∈ seen then
      failure .invalid "Invalid record identity or version."
    else if tags = false ∨ isDeleted record then
      validateRecords host tags account values (recordId record :: seen)
    else
      match validateTag account record with
      | .error fault => .error fault
      | .ok () => validateRecords host tags account values (recordId record :: seen)

def moduleId (module : JObject) : Text := Json.asText (module.find (u "module_id"))

def validateTags (host : Host) (module : JObject) (account : Account) : Result Unit :=
  let values := module.find (u "records")
  if Json.isArrayValue values = false ∨ (Json.asArray values).length > limits.maxRecords then
    failure .invalid "Invalid module records."
  else validateRecords host (moduleId module = u "saved_tags") account (Json.asArray values) []

/-! ### Snapshots -/

/-- What is counted while a snapshot is checked. -/
structure Totals where
  total : ℤ
  recordCount : ℤ := 0

/-- The check of a module whose version is supported. -/
def validateSupported (host : Host) (assets : OrdMap Text Asset) (account : Account)
    (definition : ModuleDefinition) (module : JObject) : Result Unit := do
  validateTags host module account
  definition.validate module account
  if (definition.assetReferences module).all fun asset => validHash asset && assets.contains asset then
    .ok ()
  else failure .invalid "Module attachment is missing."

def validEnvelope (key : Text) (module : JObject) : Bool :=
  isModuleId (moduleId module) && key = moduleId module &&
    integerIn 1 2147483647 (Json.asDouble 0 (module.find (u "schema_version"))) &&
    Json.bounded (Json.ofObject module) limits.maxDepth

def validateModule (host : Host) (assets : OrdMap Text Asset) (account : Account) (key : Text)
    (module : JObject) (totals : Totals) : Result Totals :=
  if validEnvelope key module = false then failure .invalid "Invalid module envelope."
  else
    let size := host.size module
    let total := totals.total + size
    if size > limits.maxModuleBytes ∨ total > limits.maxJsonBytes then
      failure .invalid "Local JSON exceeds its size limit."
    else
      match host.definition (moduleId module) (schemaVersion module) with
      | none => .ok { totals with total }
      | some definition =>
        let recordCount := totals.recordCount + (Json.asArray (module.find (u "records"))).length
        if recordCount > limits.maxRecords then failure .invalid "Too many local records."
        else
          match validateSupported host assets account definition module with
          | .error fault => .error fault
          | .ok () => .ok { total, recordCount }

def validateModules (host : Host) (assets : OrdMap Text Asset) (account : Account) :
    List (Text × JObject) → Totals → Result Totals
  | [], totals => .ok totals
  | (key, module) :: modules, totals =>
    match validateModule host assets account key module totals with
    | .error fault => .error fault
    | .ok totals => validateModules host assets account modules totals

def validProfile (key : Text) (profile : Profile) (accounts : List Text) : Bool :=
  validId profile.id && key = profile.id && validAccount profile.account &&
    !decide (accountId profile.account ∈ accounts) &&
    profile.modules.entries.length ≤ limits.maxModules &&
    Json.bounded (Json.ofObject profile.extra) limits.maxDepth &&
    Json.bounded (Json.ofObject profile.transfer) limits.maxDepth

def validateProfiles (host : Host) (assets : OrdMap Text Asset) :
    List (Text × Profile) → List Text → Totals → Result Totals
  | [], _, totals => .ok totals
  | (key, profile) :: profiles, accounts, totals =>
    if validProfile key profile accounts = false then failure .invalid "Invalid account profile."
    else
      match validateModules host assets profile.account profile.modules.entries
        { totals with total := totals.total + (host.size profile.extra + host.size profile.transfer) }
      with
      | .error fault => .error fault
      | .ok totals =>
        validateProfiles host assets profiles (accountId profile.account :: accounts) totals

def validateAssets (host : Host) : List (Text × Asset) → ℤ → ℤ → Result ℤ
  | [], _, total => .ok total
  | (key, asset) :: assets, assetBytes, total =>
    if validHash asset.sha256 = false ∨ key ≠ asset.sha256 ∨ asset.size < 0 ∨
        asset.size > limits.maxAssetBytes ∨
        Json.bounded (Json.ofObject asset.extra) limits.maxDepth = false ∨
        Json.bounded (Json.ofObject asset.transfer) limits.maxDepth = false ∨
        assetBytes > limits.maxAssetTotalBytes - asset.size then
      failure .invalid "Invalid asset or asset size limit."
    else validateAssets host assets (assetBytes + asset.size)
      (total + (host.size asset.extra + host.size asset.transfer))

def validateSnapshot (host : Host) (stamp : LocalTransfer.Stamp) (snapshot : Snapshot) :
    Result Unit :=
  if snapshot.profiles.entries.length > limits.maxProfiles ∨
      snapshot.assets.entries.length > limits.maxAssets ∨
      Json.bounded (Json.ofObject snapshot.extra) limits.maxDepth = false ∨
      Json.bounded (Json.ofObject snapshot.transfer) limits.maxDepth = false then
    failure .invalid "Local data exceeds its limits."
  else
    match validateProfiles host snapshot.assets snapshot.profiles.entries []
      { total := host.size snapshot.extra + host.size snapshot.transfer } with
    | .error fault => .error fault
    | .ok totals =>
      match validateAssets host snapshot.assets.entries 0 totals.total with
      | .error fault => .error fault
      | .ok total =>
        if total > limits.maxJsonBytes then failure .invalid "Local JSON exceeds its size limit."
        else LocalTransfer.validateShape host stamp snapshot

/-! ### Accepted snapshots -/

/-- What an accepted list of records satisfies, and what makes it accepted. -/
lemma validateRecords_iff (host : Host) (tags : Bool) (account : Account) {values : List Json}
    {seen : List Text} :
    validateRecords host tags account values seen = .ok () ↔
      (∀ value ∈ values, validRecord host value.toObject = true ∧
        (tags = true → isDeleted value.toObject = false →
          validateTag account value.toObject = .ok ())) ∧
      (values.map fun value => recordId value.toObject).Nodup ∧
      ∀ value ∈ values, recordId value.toObject ∉ seen := by
  induction values generalizing seen with
  | nil => simp [validateRecords]
  | cons value values ih =>
    by_cases hrecord : validRecord host value.toObject = true
    · by_cases hseen : recordId value.toObject ∈ seen
      · simp [validateRecords, hseen]
      · have hcons : validateRecords host tags account (value :: values) seen = .ok () ↔
            (tags = true → isDeleted value.toObject = false →
              validateTag account value.toObject = .ok ()) ∧
            validateRecords host tags account values (recordId value.toObject :: seen) = .ok () := by
          cases tags <;> cases hdeleted : isDeleted value.toObject <;>
            cases htag : validateTag account value.toObject <;>
            simp [validateRecords, hrecord, hseen, hdeleted, htag]
        rw [hcons, ih, List.forall_mem_cons, List.forall_mem_cons, List.map_cons, List.nodup_cons]
        simp only [List.mem_cons, List.mem_map, not_or, not_exists, not_and]
        constructor
        · rintro ⟨htag, hall, hnodup, hfresh⟩
          exact ⟨⟨⟨hrecord, htag⟩, hall⟩, ⟨fun other hother => (hfresh other hother).1, hnodup⟩,
            hseen, fun other hother => (hfresh other hother).2⟩
        · rintro ⟨⟨⟨-, htag⟩, hall⟩, ⟨hne, hnodup⟩, -, hfresh⟩
          exact ⟨htag, hall, hnodup, fun other hother => ⟨hne other hother, hfresh other hother⟩⟩
    · simp [validateRecords, hrecord]

/-- An accepted module. -/
structure ValidModule (host : Host) (assets : OrdMap Text Asset) (account : Account) (key : Text)
    (module : JObject) : Prop where
  envelope : validEnvelope key module = true
  size : host.size module ≤ limits.maxModuleBytes
  supported : ∀ definition, host.definition (moduleId module) (schemaVersion module) =
    some definition → validateSupported host assets account definition module = .ok ()

/-- An accepted snapshot. -/
structure Valid (host : Host) (snapshot : Snapshot) : Prop where
  profile : ∀ key profile, snapshot.profiles.find key = some profile →
    validProfile key profile [] = true
  account : ∀ key profile key' profile', snapshot.profiles.find key = some profile →
    snapshot.profiles.find key' = some profile' →
    accountId profile.account = accountId profile'.account → key = key'
  module : ∀ key profile id module, snapshot.profiles.find key = some profile →
    profile.modules.find id = some module →
    ValidModule host snapshot.assets profile.account id module

/-- An accepted module stands under its id. -/
lemma ValidModule.key_eq {host : Host} {assets : OrdMap Text Asset} {account : Account} {key : Text}
    {module : JObject} (h : ValidModule host assets account key module) : key = moduleId module := by
  have henvelope := h.envelope
  simp only [validEnvelope, Bool.and_eq_true, decide_eq_true_eq] at henvelope
  exact henvelope.1.1.2

/-- The records of an accepted module of a supported version are valid. -/
lemma ValidModule.validateTags {host : Host} {assets : OrdMap Text Asset} {account : Account}
    {key : Text} {module : JObject} (h : ValidModule host assets account key module)
    (hsupported : host.supportedModule (moduleId module) (schemaVersion module) = true) :
    LocalData.validateTags host module account = .ok () := by
  obtain ⟨definition, hdefinition⟩ := Option.isSome_iff_exists.mp hsupported
  obtain ⟨⟨⟩, htags, -⟩ := bind_ok.mp (h.supported definition hdefinition)
  exact htags

lemma validateModule_ok {host : Host} {assets : OrdMap Text Asset} {account : Account} {key : Text}
    {module : JObject} {totals result : Totals}
    (h : validateModule host assets account key module totals = .ok result) :
    ValidModule host assets account key module := by
  obtain ⟨henvelope, h⟩ := (check_ok (failure_ne_ok _ _)).mp h
  obtain ⟨hsize, h⟩ := (check_ok (failure_ne_ok _ _)).mp h
  rw [not_or] at hsize
  refine ⟨by simpa using henvelope, not_lt.mp hsize.1, ?_⟩
  intro definition hdefinition
  rw [hdefinition] at h
  obtain ⟨-, h⟩ := (check_ok (failure_ne_ok _ _)).mp h
  cases hsupported : validateSupported host assets account definition module with
  | ok value => rfl
  | error fault => simp [hsupported] at h

lemma validateModules_ok {host : Host} {assets : OrdMap Text Asset} {account : Account}
    {modules : List (Text × JObject)} {totals result : Totals}
    (h : validateModules host assets account modules totals = .ok result) :
    ∀ entry ∈ modules, ValidModule host assets account entry.1 entry.2 := by
  induction modules generalizing totals with
  | nil => simp
  | cons entry modules ih =>
    simp only [validateModules] at h
    cases hmodule : validateModule host assets account entry.1 entry.2 totals with
    | error fault => simp [hmodule] at h
    | ok next =>
      rw [hmodule] at h
      exact List.forall_mem_cons.mpr ⟨validateModule_ok hmodule, ih h⟩

/-- What the loop over profiles establishes. -/
lemma validateProfiles_ok {host : Host} {assets : OrdMap Text Asset}
    {profiles : List (Text × Profile)} {accounts : List Text} {totals result : Totals}
    (h : validateProfiles host assets profiles accounts totals = .ok result) :
    (∀ entry ∈ profiles, validProfile entry.1 entry.2 accounts = true ∧
      ∀ module ∈ entry.2.modules.entries,
        ValidModule host assets entry.2.account module.1 module.2) ∧
      (profiles.map fun entry => accountId entry.2.account).Nodup := by
  induction profiles generalizing accounts totals with
  | nil => simp
  | cons entry profiles ih =>
    obtain ⟨hprofile, h⟩ := (check_ok (failure_ne_ok _ _)).mp h
    · rw [Bool.not_eq_false] at hprofile
      cases hmodules : validateModules host assets entry.2.account entry.2.modules.entries
          { totals with total := totals.total + (host.size entry.2.extra + host.size entry.2.transfer) }
        with
      | error fault => simp [hmodules] at h
      | ok next =>
        rw [hmodules] at h
        obtain ⟨hall, hnodup⟩ := ih h
        have hfresh : ∀ other ∈ profiles,
            accountId other.2.account ∉ accountId entry.2.account :: accounts := by
          intro other hother
          have := (hall other hother).1
          simp only [validProfile, Bool.and_eq_true, Bool.not_eq_true', decide_eq_false_iff_not]
            at this
          exact this.1.1.1.2
        refine ⟨List.forall_mem_cons.mpr ⟨⟨hprofile, validateModules_ok hmodules⟩, ?_⟩, ?_⟩
        · intro other hother
          refine ⟨?_, (hall other hother).2⟩
          have hother' := (hall other hother).1
          simp only [validProfile, Bool.and_eq_true, Bool.not_eq_true', decide_eq_false_iff_not,
            List.mem_cons, not_or] at hother' ⊢
          exact ⟨⟨⟨⟨hother'.1.1.1.1, hother'.1.1.1.2.2⟩, hother'.1.1.2⟩, hother'.1.2⟩, hother'.2⟩
        · rw [List.map_cons, List.nodup_cons]
          refine ⟨?_, hnodup⟩
          intro hmem
          obtain ⟨other, hother, heq⟩ := List.mem_map.mp hmem
          exact hfresh other hother (heq ▸ List.mem_cons_self)

/-- **An accepted snapshot is valid.** -/
theorem Valid.of_validateSnapshot {host : Host} {stamp : LocalTransfer.Stamp} {snapshot : Snapshot}
    (h : validateSnapshot host stamp snapshot = .ok ()) : Valid host snapshot := by
  obtain ⟨-, h⟩ := (check_ok (failure_ne_ok _ _)).mp h
  · cases hprofiles : validateProfiles host snapshot.assets snapshot.profiles.entries []
        { total := host.size snapshot.extra + host.size snapshot.transfer } with
    | error fault => simp [hprofiles] at h
    | ok totals =>
      obtain ⟨hall, hnodup⟩ := validateProfiles_ok hprofiles
      refine ⟨?_, ?_, ?_⟩
      · intro key profile hprofile
        exact (hall _ (OrdMap.find_eq_some_iff.mp hprofile)).1
      · intro key profile key' profile' hprofile hprofile' haccount
        have heq := List.inj_on_of_nodup_map hnodup (OrdMap.find_eq_some_iff.mp hprofile)
          (OrdMap.find_eq_some_iff.mp hprofile') haccount
        exact congrArg Prod.fst heq
      · intro key profile id module hprofile hmodule
        exact (hall _ (OrdMap.find_eq_some_iff.mp hprofile)).2 _ (OrdMap.find_eq_some_iff.mp hmodule)

end LocalData
