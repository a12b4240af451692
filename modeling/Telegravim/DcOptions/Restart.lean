import Telegravim.DcOptions.Options

set_option autoImplicit false

/-!
# Datacenter options across a restart

The options are written to the settings and read from there at the next start. The reader has limits of its own: it
refuses an address without a byte or with more than 45 of them and a secret of more than 32 bytes, while what the
server sends is stored and written without one.

## Main definitions

* `DcOptions.serialize`, `DcOptions.constructFromSerialized` — the options written and read.
* `DcOptions.Reachable` — the options that can come up.
* `DcOptions.Restores`, `DcOptions.Announces` — what a restart and a list from a server should keep.
* `DcOptions.Fits` — the reader takes all endpoints.

## Main results

* `DcOptions.Reachable.sound` — the invariant of the options that can come up.
* `DcOptions.restores_iff_fits` — the options survive a restart where the reader takes them.
-/

namespace DcOptions

open DataStream

variable {rsa : Rsa}

/-! ### Writing -/

def isTemporaryDcId (id : DcId) : Bool := 1000 ≤ bareDcId id

/-- The endpoints that are written. -/
def written (data : Data) : List Endpoint := (data.filterKeys fun id => !isTemporaryDcId id).entries.flatMap Prod.snd

def writeEndpoint (e : Endpoint) : Bytes :=
  writeInt e.id ++ writeInt e.flags ++ writeInt e.port ++ writeInt (qint32 e.ip.length) ++ e.ip ++
    writeInt (qint32 e.secret.length) ++ e.secret

def writeKey (key : DcId × ℕ × rsa.Key) : Bytes :=
  writeInt key.1 ++ writeBytes (rsa.getN key.2.2) ++ writeBytes (rsa.getE key.2.2)

/-- Whether all numbers of items and bytes that are written are integers of 32 bits. -/
def Countable (s : State rsa) : Prop :=
  (written s.data).length < 2147483648 ∧
    (∀ e ∈ written s.data, e.ip.length < 2147483648 ∧ e.secret.length < 2147483648) ∧
    s.cdnPublicKeys.list.length < 2147483648

instance (s : State rsa) : Decidable (Countable s) := inferInstanceAs (Decidable (_ ∧ _ ∧ _))

def kVersion : ℤ := 2

def serializeGuarded (s : State rsa) : Option Bytes :=
  if Countable s then
    some (writeInt (qint32 (-kVersion)) ++ writeInt (qint32 (written s.data).length) ++
      (written s.data).flatMap writeEndpoint ++ writeInt (qint32 s.cdnPublicKeys.list.length) ++
      s.cdnPublicKeys.list.flatMap writeKey)
  else none

/-- The options written. Overriden ones are not: the built in ones are written for them. -/
def serialize (s : State rsa) : Option Bytes :=
  if s.immutable then serializeGuarded (constructFromBuiltIn rsa s.environment) else serializeGuarded s

/-! ### Reading -/

def kMaxIpSize : ℤ := 45

def kMaxSecretSize : ℤ := 32

/-- The version and the number of options. Before there were versions, the number stood alone. -/
def readHeader (data : Bytes) : Option (ℤ × Qint32 × Bytes) := do
  let (minusVersion, data) ← readInt data
  if minusVersion.val < 0 then (readInt data).map fun (count, data) => (-minusVersion.val, count, data)
  else some (0, minusVersion, data)

def readIp (data : Bytes) : Option (Bytes × Bytes) := do
  let (ipSize, data) ← readInt data
  if ipSize.val ≤ 0 ∨ kMaxIpSize < ipSize.val then none else readRaw ipSize.val.toNat data

def readSecret (version : ℤ) (data : Bytes) : Option (Bytes × Bytes) :=
  if version ≤ 0 then some ([], data)
  else do
    let (secretSize, data) ← readInt data
    if secretSize.val < 0 ∨ kMaxSecretSize < secretSize.val then none else readRaw secretSize.val.toNat data

/-- One endpoint read; it is refused where one of the checks fails or too few bytes are left. -/
def readEndpoint (version : ℤ) (data : Bytes) : Option (Endpoint × Bytes) := do
  let (id, data) ← readInt data
  let (flags, data) ← readInt data
  let (port, data) ← readInt data
  let (ip, data) ← readIp data
  let (secret, data) ← readSecret version data
  return (⟨id, flags, ip, port, secret⟩, data)

/-- An endpoint that was read, applied. -/
def applyRead (data : Data) (e : Endpoint) : Data := (applyEndpoint data e).1

/-- One key of the CDN config read. -/
def readKey (data : Bytes) : Option ((DcId × ℕ × rsa.Key) × Bytes) := do
  let (dcId, data) ← readInt data
  let (n, data) ← readBytes data
  let (e, data) ← readBytes data
  let key ← rsa.make n e
  return ((dcId, rsa.fingerprint key, key), data)

/-- The keys of the CDN config read and added, and whether all of them were. -/
def readKeys (s : State rsa) (data : Bytes) : State rsa × Bool :=
  (readInt data).elim (s, false) fun (count, data) =>
    ({ s with cdnPublicKeys := (readLoop readKey addKey (rounds count data) s.cdnPublicKeys data).1 },
      (readLoop readKey addKey (rounds count data) s.cdnPublicKeys data).2.isSome)

/-- What follows the endpoints. -/
def readRest (s : State rsa) (version : ℤ) (data : Bytes) : State rsa × Bool :=
  if data ≠ [] ∧ 1 < version then readKeys s data else (s, true)

/-- The options read, and whether they were: what was there before is gone as soon as the header is read. -/
def constructFromSerialized (s : State rsa) (serialized : Bytes) : State rsa × Bool :=
  (readHeader serialized).elim (s, false) fun (version, count, data) =>
    (readLoop (readEndpoint version) applyRead (rounds count data) ∅ data).2.elim
      ({ s with data := (readLoop (readEndpoint version) applyRead (rounds count data) ∅ data).1 }, false) fun rest =>
        readRest { s with data := (readLoop (readEndpoint version) applyRead (rounds count data) ∅ data).1 } version
          rest

/-! ### The options that can come up -/

/-- The options of a new object after any lists from servers, other options, single endpoints, CDN configs and bytes
of the settings. -/
inductive Reachable (rsa : Rsa) : State rsa → Prop where
  | constructFromBuiltIn (environment : Environment) : Reachable rsa (constructFromBuiltIn rsa environment)
  | setFromList {s s' : State rsa} {options : List DcOption} {announced : List DcId} :
    Reachable rsa s → setFromList s options = some (s', announced) → Reachable rsa s'
  | addFromList {s s' : State rsa} {options : List DcOption} {announced : List DcId} :
    Reachable rsa s → addFromList s options = some (s', announced) → Reachable rsa s'
  | addFromOther {s options : State rsa} :
    Reachable rsa s → Reachable rsa options → Reachable rsa (addFromOther s options).1
  | constructAddOne {s : State rsa} (id : DcId) (flags : Flags) (ip : Bytes) (port : Qint32) (secret : Bytes) :
    Reachable rsa s → Reachable rsa (constructAddOne s id flags ip port secret)
  | setCDNConfig {s s' : State rsa} {publicKeys : List (DcId × Bytes)} :
    Reachable rsa s → setCDNConfig s publicKeys = some s' → Reachable rsa s'
  | constructFromSerialized {s : State rsa} (serialized : Bytes) :
    Reachable rsa s → Reachable rsa (constructFromSerialized s serialized).1

/-- The keys that one datacenter keeps: some, by their fingerprints. -/
structure KeyGroup (keys : OrdMap ℕ rsa.Key) : Prop where
  ne_nil : keys.entries ≠ []
  fingerprint : ∀ e ∈ keys.entries, e.1 = rsa.fingerprint e.2

/-- The invariant of the keys. -/
def WellKeyed (keys : CdnKeys rsa) : Prop := ∀ dcId group, keys.find dcId = some group → KeyGroup group

/-- **The invariant** of the options. -/
structure Sound (s : State rsa) : Prop where
  data : WellFormed s.data
  keys : WellKeyed s.cdnPublicKeys
  mutable : s.immutable = false

lemma wellKeyed_empty : WellKeyed (∅ : CdnKeys rsa) := by
  intro dcId group h
  rw [OrdMap.find_empty] at h
  exact absurd h (by simp)

lemma KeyGroup.emplaceKey {keys : OrdMap ℕ rsa.Key} (h : keys = ∅ ∨ KeyGroup keys) (key : rsa.Key) :
    KeyGroup (emplaceKey keys (rsa.fingerprint key, key)) := by
  rw [DcOptions.emplaceKey]
  refine ⟨fun hnil => ?_, fun e he => ?_⟩
  · have hfind := OrdMap.find_emplace keys (rsa.fingerprint key) (rsa.fingerprint key) key
    rw [if_pos rfl, OrdMap.find_eq_some_iff] at hfind
    rw [hnil] at hfind
    exact absurd hfind List.not_mem_nil
  · have hfind : (keys.emplace (rsa.fingerprint key) key).find e.1 = some e.2 := OrdMap.find_eq_some_iff.mpr he
    rw [OrdMap.find_emplace] at hfind
    have hold : ∀ old, keys.find e.1 = some old → e.1 = rsa.fingerprint old := fun old hfound => by
      rcases h with rfl | h
      · rw [OrdMap.find_empty] at hfound
        exact absurd hfound (by simp)
      · exact h.fingerprint _ (OrdMap.find_eq_some_iff.mp hfound)
    by_cases heq : e.1 = rsa.fingerprint key
    · rw [if_pos heq, Option.some.injEq] at hfind
      rcases hfound : keys.find (rsa.fingerprint key) with _ | old
      · rw [hfound, Option.getD_none] at hfind
        rw [heq, hfind]
      · rw [hfound, Option.getD_some] at hfind
        rw [← hfind]
        exact hold old (heq ▸ hfound)
    · rw [if_neg heq] at hfind
      exact hold e.2 hfind

lemma WellKeyed.addKey {keys : CdnKeys rsa} (h : WellKeyed keys) (dcId : DcId) (key : rsa.Key) :
    WellKeyed (addKey keys (dcId, rsa.fingerprint key, key)) := by
  intro dcId' group hgroup
  rw [DcOptions.addKey, OrdMap.collect, OrdMap.find_insert] at hgroup
  by_cases heq : dcId' = dcId
  · rw [if_pos heq, Option.some.injEq] at hgroup
    rw [← hgroup]
    refine KeyGroup.emplaceKey ?_ key
    rcases hfind : keys.find dcId with _ | old
    · exact .inl rfl
    · exact .inr (h dcId old hfind)
  · rw [if_neg heq] at hgroup
    exact h dcId' group hgroup

/-- The keys of a map have their own fingerprints. -/
lemma WellKeyed.mem_list {keys : CdnKeys rsa} (h : WellKeyed keys) {item : DcId × ℕ × rsa.Key}
    (hitem : item ∈ keys.list) :
    item.2.1 = rsa.fingerprint item.2.2 := by
  obtain ⟨keysInDc, hkeys, hmem⟩ := List.mem_flatMap.mp hitem
  obtain ⟨entry, hentry, rfl⟩ := List.mem_map.mp hmem
  exact (h keysInDc.1 keysInDc.2 (OrdMap.find_eq_some_iff.mpr hkeys)).fingerprint entry hentry

lemma WellKeyed.foldl_addKey {keys : CdnKeys rsa} (h : WellKeyed keys) {list : List (DcId × ℕ × rsa.Key)}
    (hlist : ∀ item ∈ list, item.2.1 = rsa.fingerprint item.2.2) : WellKeyed (list.foldl DcOptions.addKey keys) := by
  induction list generalizing keys with
  | nil => exact h
  | cons item list ih =>
    obtain ⟨dcId, fingerprint, key⟩ := item
    obtain rfl : fingerprint = rsa.fingerprint key := hlist _ List.mem_cons_self
    exact ih (h.addKey dcId key) fun item' hitem' => hlist item' (List.mem_cons_of_mem _ hitem')

lemma WellKeyed.foldlM_addConfigKey {keys keys' : CdnKeys rsa} (h : WellKeyed keys) {list : List (DcId × Bytes)}
    (hlist : list.foldlM addConfigKey keys = some keys') : WellKeyed keys' := by
  induction list generalizing keys with
  | nil =>
    rw [List.foldlM_nil] at hlist
    exact Option.some.inj hlist ▸ h
  | cons key list ih =>
    rw [List.foldlM_cons, Option.bind_eq_bind, Option.bind_eq_some_iff] at hlist
    obtain ⟨keys'', hkey, hlist⟩ := hlist
    refine ih ?_ hlist
    obtain ⟨parsed, -, rfl⟩ := Option.map_eq_some_iff.mp hkey
    rcases parsed with _ | parsed
    · exact h
    · exact h.addKey key.1 parsed

/-! ### Every operation keeps the invariant -/

lemma sound_constructFromBuiltIn (environment : Environment) : Sound (constructFromBuiltIn rsa environment) where
  data := (wellFormed_empty.addBuiltIn _ _).addBuiltIn _ _
  keys := wellKeyed_empty
  mutable := rfl

/-- What a list from a server leaves: the same options, or those of the list. -/
lemma processFromList_cases {s s' : State rsa} {options : List DcOption} {overwrite : Bool} {announced : List DcId}
    (h : processFromList s options overwrite = some (s', announced)) :
    (s' = s ∧ announced = [] ∧ (options = [] ∨ s.immutable)) ∨
      (countOptionsDifference s.data (listed s options overwrite) = some announced ∧
        s' = if announced = [] then s else { s with data := listed s options overwrite }) := by
  rw [processFromList] at h
  by_cases hnone : options = [] ∨ s.immutable = true
  · rw [if_pos hnone, Option.some.injEq, Prod.mk.injEq] at h
    exact .inl ⟨h.1.symm, h.2.symm, hnone⟩
  · rw [if_neg hnone] at h
    obtain ⟨difference, hdifference, heq⟩ := Option.map_eq_some_iff.mp h
    rw [Prod.mk.injEq] at heq
    obtain ⟨hstate, rfl⟩ := heq
    exact .inr ⟨hdifference, hstate.symm⟩

lemma Sound.processFromList {s s' : State rsa} (h : Sound s) {options : List DcOption} {overwrite : Bool}
    {announced : List DcId} (hprocess : processFromList s options overwrite = some (s', announced)) : Sound s' := by
  rcases processFromList_cases hprocess with ⟨rfl, -, -⟩ | ⟨-, rfl⟩
  · exact h
  · by_cases hnone : announced = []
    · rw [if_pos hnone]
      exact h
    · rw [if_neg hnone]
      exact ⟨h.data.listed options overwrite, h.keys, h.mutable⟩

lemma Sound.addFromOther {s options : State rsa} (h : Sound s) (hoptions : Sound options) :
    Sound (addFromOther s options).1 := by
  rw [DcOptions.addFromOther]
  by_cases hnone : s.immutable = true ∨ options.data.entries = []
  · rw [if_pos hnone]
    exact h
  · rw [if_neg hnone]
    exact ⟨h.data.addData _, h.keys.foldl_addKey fun item hitem => hoptions.keys.mem_list hitem, h.mutable⟩

lemma Sound.setCDNConfig {s s' : State rsa} (h : Sound s) {publicKeys : List (DcId × Bytes)}
    (hconfig : setCDNConfig s publicKeys = some s') : Sound s' := by
  obtain ⟨keys, hkeys, rfl⟩ := Option.map_eq_some_iff.mp hconfig
  exact ⟨h.data, wellKeyed_empty.foldlM_addConfigKey hkeys, h.mutable⟩

/-- A key that is read comes with its fingerprint. -/
lemma fingerprint_of_readKey {data rest : Bytes} {item : DcId × ℕ × rsa.Key} (h : readKey data = some (item, rest)) :
    item.2.1 = rsa.fingerprint item.2.2 := by
  simp only [readKey, Option.bind_eq_bind, Option.bind_eq_some_iff, Option.pure_def, Option.some.injEq,
    Prod.mk.injEq] at h
  obtain ⟨_, _, _, _, _, _, key, _, rfl, _⟩ := h
  rfl

lemma Sound.readRest {s : State rsa} (h : Sound s) (version : ℤ) (data : Bytes) : Sound (readRest s version data).1 := by
  rw [DcOptions.readRest]
  by_cases hmore : data ≠ [] ∧ 1 < version
  · rw [if_pos hmore, readKeys]
    rcases readInt data with _ | ⟨count, data⟩
    · exact h
    · refine ⟨h.data, ?_, h.mutable⟩
      refine readLoop_keeps (P := WellKeyed) (fun keys data item rest hkeys hread => ?_) _ h.keys data
      obtain ⟨dcId, fingerprint, key⟩ := item
      obtain rfl : fingerprint = rsa.fingerprint key := fingerprint_of_readKey hread
      exact hkeys.addKey dcId key
  · rw [if_neg hmore]
    exact h

lemma Sound.constructFromSerialized {s : State rsa} (h : Sound s) (serialized : Bytes) :
    Sound (constructFromSerialized s serialized).1 := by
  rw [DcOptions.constructFromSerialized]
  rcases readHeader serialized with _ | ⟨version, count, data⟩
  · exact h
  · rw [Option.elim_some]
    dsimp only
    have hdata : Sound { s with
        data := (readLoop (readEndpoint version) applyRead (rounds count data) ∅ data).1 } := by
      refine ⟨?_, h.keys, h.mutable⟩
      exact readLoop_keeps (P := WellFormed) (fun data _ e _ hd _ => hd.applyOneOption e.id e.flags e.ip e.port e.secret)
        _ wellFormed_empty data
    rcases (readLoop (readEndpoint version) applyRead (rounds count data) ∅ data).2 with _ | rest
    · exact hdata
    · exact hdata.readRest version rest

/-- **The options that can come up keep the invariant.** -/
theorem Reachable.sound {s : State rsa} (h : Reachable rsa s) : Sound s := by
  induction h with
  | constructFromBuiltIn environment => exact sound_constructFromBuiltIn environment
  | setFromList _ hset ih => exact ih.processFromList hset
  | addFromList _ hadd ih => exact ih.processFromList hadd
  | addFromOther _ _ ih ihoptions => exact ih.addFromOther ihoptions
  | constructAddOne id flags ip port secret _ ih => exact ⟨ih.data.applyOneOption _ _ _ _ _, ih.keys, ih.mutable⟩
  | setCDNConfig _ hconfig ih => exact ih.setCDNConfig hconfig
  | constructFromSerialized serialized _ ih => exact ih.constructFromSerialized serialized

/-! ### The round trip -/

/-- The options after a restart: those of a new object, read from bytes. -/
def restarted (s : State rsa) (serialized : Bytes) : State rsa × Bool :=
  constructFromSerialized (constructFromBuiltIn rsa s.environment) serialized

/-- A restart keeps the options: the bytes are read, with the endpoints of the datacenters that are not temporary and
the keys of the CDN ones. -/
def Restores (s : State rsa) (serialized : Bytes) : Prop :=
  (restarted s serialized).2 = true ∧
    (restarted s serialized).1.data = s.data.filterKeys (fun id => !isTemporaryDcId id) ∧
    (restarted s serialized).1.cdnPublicKeys = s.cdnPublicKeys

/-- The reader takes an endpoint. -/
def Endpoint.Fits (e : Endpoint) : Prop := 1 ≤ e.ip.length ∧ e.ip.length ≤ 45 ∧ e.secret.length ≤ 32

instance (e : Endpoint) : Decidable e.Fits := inferInstanceAs (Decidable (_ ∧ _ ∧ _))

/-- **The reader takes all endpoints**: their addresses have from one to 45 bytes and their secrets up to 32. -/
def Fits (s : State rsa) : Prop := ∀ e ∈ written s.data, e.Fits

instance (s : State rsa) : Decidable (Fits s) := inferInstanceAs (Decidable (∀ e ∈ written s.data, e.Fits))

lemma readIp_written {ip : Bytes} (h : ip.length < 2147483648) (rest : Bytes) :
    readIp (writeInt (qint32 ip.length) ++ (ip ++ rest)) =
      if 1 ≤ ip.length ∧ ip.length ≤ 45 then some (ip, rest) else none := by
  rw [readIp, readInt_writeInt, Option.bind_eq_bind, Option.bind_some]
  dsimp only
  rw [qint32_val (by omega) (by omega), Int.toNat_natCast, readRaw_append, kMaxIpSize]
  by_cases hfits : 1 ≤ ip.length ∧ ip.length ≤ 45
  · rw [if_pos hfits, if_neg (by omega)]
  · rw [if_neg hfits, if_pos (by omega)]

lemma readSecret_written {version : ℤ} (hversion : 0 < version) {secret : Bytes} (h : secret.length < 2147483648)
    (rest : Bytes) :
    readSecret version (writeInt (qint32 secret.length) ++ (secret ++ rest)) =
      if secret.length ≤ 32 then some (secret, rest) else none := by
  rw [readSecret, if_neg (by omega), readInt_writeInt, Option.bind_eq_bind, Option.bind_some]
  dsimp only
  rw [qint32_val (by omega) (by omega), Int.toNat_natCast, readRaw_append, kMaxSecretSize]
  by_cases hfits : secret.length ≤ 32
  · rw [if_pos hfits, if_neg (by omega)]
  · rw [if_neg hfits, if_pos (by omega)]

/-- The three numbers before the address are read as they are written. -/
lemma readEndpoint_numbers (version : ℤ) (id : DcId) (flags : Flags) (port : Qint32) (data : Bytes) :
    readEndpoint version (writeInt id ++ (writeInt flags ++ (writeInt port ++ data))) =
      (readIp data).bind fun (ip, data) =>
        (readSecret version data).map fun (secret, data) => (⟨id, flags, ip, port, secret⟩, data) := by
  rw [readEndpoint, readInt_writeInt, Option.bind_eq_bind, Option.bind_some]
  dsimp only
  rw [readInt_writeInt, Option.bind_some]
  dsimp only
  rw [readInt_writeInt, Option.bind_some]
  dsimp only
  rcases readIp data with _ | ⟨ip, rest⟩
  · rw [Option.bind_eq_bind, Option.bind_none, Option.bind_none]
  · rw [Option.bind_eq_bind, Option.bind_some, Option.bind_some]
    rcases readSecret version rest with _ | ⟨secret, rest⟩
    · rw [Option.map_none]
      rfl
    · rw [Option.map_some]
      rfl

/-- An endpoint that is written is read where it fits, and refused where it does not. -/
lemma readEndpoint_written {version : ℤ} (hversion : 0 < version) {e : Endpoint} (hip : e.ip.length < 2147483648)
    (hsecret : e.secret.length < 2147483648) (rest : Bytes) :
    readEndpoint version (writeEndpoint e ++ rest) =
      if e.Fits then some (e, rest) else none := by
  have hwritten : writeEndpoint e ++ rest = writeInt e.id ++ (writeInt e.flags ++ (writeInt e.port ++
      (writeInt (qint32 e.ip.length) ++ (e.ip ++ (writeInt (qint32 e.secret.length) ++ (e.secret ++ rest)))))) := by
    simp only [writeEndpoint, List.append_assoc]
  rw [hwritten, readEndpoint_numbers, readIp_written hip]
  by_cases hfits : 1 ≤ e.ip.length ∧ e.ip.length ≤ 45
  · rw [if_pos hfits, Option.bind_some]
    dsimp only
    rw [readSecret_written hversion hsecret]
    by_cases hshort : e.secret.length ≤ 32
    · rw [if_pos hshort, if_pos ⟨hfits.1, hfits.2, hshort⟩, Option.map_some]
    · rw [if_neg hshort, if_neg fun h => hshort h.2.2, Option.map_none]
  · rw [if_neg hfits, if_neg fun h => hfits ⟨h.1, h.2.1⟩, Option.bind_none]

/-- A key that is written is read. -/
lemma readKey_written (dcId : DcId) (key : rsa.Key) (rest : Bytes) :
    readKey (writeKey (dcId, rsa.fingerprint key, key) ++ rest) =
      some ((dcId, rsa.fingerprint key, key), rest) := by
  rw [readKey, writeKey, List.append_assoc, List.append_assoc, readInt_writeInt, Option.bind_eq_bind, Option.bind_some]
  dsimp only
  rw [readBytes_writeBytes (rsa.length_getN key), Option.bind_eq_bind, Option.bind_some]
  dsimp only
  rw [readBytes_writeBytes (rsa.length_getE key), Option.bind_some]
  dsimp only
  rw [rsa.make_get, Option.bind_eq_bind, Option.bind_some, Option.pure_def]

/-- The endpoints of a group are added one after another. -/
lemma foldl_addEndpoint {list : List Endpoint} (h : (list.map Endpoint.address).Nodup) :
    list.foldl addEndpoint [] = list := by
  suffices hfold : ∀ start : List Endpoint, ((start ++ list).map Endpoint.address).Nodup →
      list.foldl addEndpoint start = start ++ list from hfold [] h
  induction list with
  | nil => exact fun start _ => (List.append_nil start).symm
  | cons e list ih =>
    intro start hstart
    have hnew : e.address ∉ start.map Endpoint.address := fun hmem => by
      rw [List.map_append, List.map_cons, List.nodup_append] at hstart
      exact hstart.2.2 _ hmem _ List.mem_cons_self rfl
    rw [List.foldl_cons, addEndpoint, if_neg hnew, ih ?_ (start ++ [e]) ?_, List.append_assoc, List.singleton_append]
    · rw [List.map_cons] at h
      exact h.of_cons
    · rw [List.append_assoc, List.singleton_append]
      exact hstart

/-- **The endpoints are collected again.** -/
lemma foldl_applyRead {data : Data} (h : WellFormed data) :
    (written data).foldl applyRead ∅ = data.filterKeys fun id => !isTemporaryDcId id := by
  generalize hkept : (data.filterKeys fun id => !isTemporaryDcId id) = kept
  have hgroup : ∀ item ∈ kept.entries, Group item.1 item.2 := fun item hitem => by
    rw [← hkept] at hitem
    exact h item.1 item.2 (OrdMap.find_eq_some_iff.mpr (List.mem_of_mem_filter hitem))
  have hread : (written data).foldl applyRead ∅ =
      (kept.entries.flatMap fun item => item.2.map fun e => (item.1, e)).foldl (OrdMap.collect addEndpoint []) ∅ := by
    have hpairs : (kept.entries.flatMap fun item => item.2.map fun e => (item.1, e)) =
        (kept.entries.flatMap Prod.snd).map fun e => (e.id, e) := by
      rw [List.map_flatMap]
      refine List.flatMap_congr fun item hitem => List.map_congr_left fun e he => ?_
      rw [(hgroup item hitem).id_eq e he]
    rw [hpairs, List.foldl_map, written, hkept]
    exact List.foldl_ext _ _ _ fun data e _ => applyOneOption_fst data e.id e.flags e.ip e.port e.secret
  rw [hread]
  exact OrdMap.foldl_collect_entries (fun list : List Endpoint => list) fun item hitem =>
    ⟨(hgroup item hitem).ne_nil, foldl_addEndpoint (hgroup item hitem).nodup⟩

/-- **The keys are collected again.** -/
lemma foldl_addKey_list {keys : CdnKeys rsa} (h : WellKeyed keys) : keys.list.foldl addKey ∅ = keys := by
  refine OrdMap.foldl_collect_entries (fun group : OrdMap ℕ rsa.Key => group.entries) fun e he => ?_
  exact ⟨(h e.1 e.2 (OrdMap.find_eq_some_iff.mpr he)).ne_nil, OrdMap.foldl_emplace_entries e.2⟩

lemma rounds_natCast {count : ℕ} (h : count < 2147483648) (data : Bytes) :
    rounds (qint32 count) data = count := by
  rw [rounds, qint32_val (by omega) (by omega), if_neg (by omega), Int.toNat_natCast]

/-- The header that is written is read. -/
lemma readHeader_written (count : Qint32) (data : Bytes) :
    readHeader (writeInt (qint32 (-kVersion)) ++ (writeInt count ++ data)) = some (2, count, data) := by
  rw [readHeader, readInt_writeInt, Option.bind_eq_bind, Option.bind_some]
  dsimp only
  rw [readInt_writeInt, Option.map_some, kVersion, qint32_val (by omega) (by omega), if_pos (by omega)]
  rfl

/-- **The keys that are written are read.** -/
lemma readKeys_written {s : State rsa} (hnone : s.cdnPublicKeys = ∅) {keys : CdnKeys rsa} (h : WellKeyed keys)
    (hcount : keys.list.length < 2147483648) :
    readKeys s (writeInt (qint32 keys.list.length) ++ keys.list.flatMap writeKey) =
      ({ s with cdnPublicKeys := keys }, true) := by
  have hread : ∀ item ∈ keys.list, ∀ rest, readKey (writeKey item ++ rest) = some (item, rest) := by
    rintro ⟨dcId, fingerprint, key⟩ hitem rest
    obtain rfl : fingerprint = rsa.fingerprint key := h.mem_list hitem
    exact readKey_written dcId key rest
  have hloop : readLoop readKey addKey keys.list.length ∅ (keys.list.flatMap writeKey ++ []) = _ :=
    readLoop_written hread ∅ []
  rw [List.append_nil, foldl_addKey_list h] at hloop
  rw [readKeys, readInt_writeInt, Option.elim_some]
  dsimp only
  rw [rounds_natCast hcount, hnone, hloop]
  rfl

/-- **The options survive a restart where the reader takes all endpoints**, and only there.

**Proof sketch.** What is written for an endpoint is read where the endpoint fits, and is refused where it does not, so
that the loop over the endpoints ends early. The endpoints and the keys that are read are collected in the maps that
they came from, by the invariant. -/
theorem restores_iff_fits {s : State rsa} (h : Sound s) {serialized : Bytes} (hs : serialize s = some serialized) :
    Restores s serialized ↔ Fits s := by
  rw [serialize, if_neg (by rw [h.mutable]; exact Bool.false_ne_true), serializeGuarded] at hs
  by_cases hcount : Countable s
  · obtain ⟨hoptions, hsizes, hkeys⟩ := id hcount
    rw [if_pos hcount, Option.some.injEq] at hs
    have hhead : readHeader serialized = some
      (2, qint32 (written s.data).length, (written s.data).flatMap writeEndpoint ++
        (writeInt (qint32 s.cdnPublicKeys.list.length) ++ s.cdnPublicKeys.list.flatMap writeKey)) := by
      rw [← hs, List.append_assoc, List.append_assoc, List.append_assoc, readHeader_written]
    have hone : ∀ e ∈ written s.data, ∀ rest, readEndpoint 2 (writeEndpoint e ++ rest) =
        if e.Fits then some (e, rest) else none :=
      fun e he => readEndpoint_written (by omega) (hsizes e he).1 (hsizes e he).2
    rw [Restores, restarted, constructFromSerialized, hhead, Option.elim_some]
    dsimp only
    rw [rounds_natCast hoptions]
    by_cases hfits : Fits s
    · have hread : ∀ e ∈ written s.data, ∀ rest, readEndpoint 2 (writeEndpoint e ++ rest) = some (e, rest) :=
        fun e he rest => by rw [hone e he rest, if_pos (hfits e he)]
      rw [readLoop_written hread, foldl_applyRead h.data]
      simp only [Option.elim_some]
      have hmore : writeInt (qint32 s.cdnPublicKeys.list.length) ++ s.cdnPublicKeys.list.flatMap writeKey ≠ [] :=
        List.cons_ne_nil _ _
      rw [readRest, if_pos ⟨hmore, by omega⟩, readKeys_written rfl h.keys hkeys]
      exact ⟨fun _ => hfits, fun _ => ⟨rfl, rfl, rfl⟩⟩
    · have hrefused : (readLoop (readEndpoint 2) applyRead (written s.data).length ∅
          ((written s.data).flatMap writeEndpoint ++ (writeInt (qint32 s.cdnPublicKeys.list.length) ++
            s.cdnPublicKeys.list.flatMap writeKey))).2 = none := by
        refine readLoop_refused (fun e he => ?_) ?_ ∅ _
        · by_cases hone' : e.Fits
          · exact .inl fun rest => by rw [hone e he rest, if_pos hone']
          · exact .inr fun rest => by rw [hone e he rest, if_neg hone']
        · simp only [Fits, not_forall] at hfits
          obtain ⟨e, he, hrefuse⟩ := hfits
          exact ⟨e, he, fun rest => by rw [hone e he rest, if_neg hrefuse]⟩
      rw [hrefused, Option.elim_none]
      exact ⟨fun hread => absurd hread.1 Bool.false_ne_true, fun h => absurd h hfits⟩
  · rw [if_neg hcount] at hs
    exact absurd hs (by simp)

/-! ### Announcements -/

/-- Where a list from a server replaces the endpoints, every datacenter with other endpoints than before is
announced. -/
def Announces (s s' : State rsa) (announced : List DcId) : Prop :=
  announced ≠ [] → ∀ dcId, endpoints s.data dcId ≠ endpoints s'.data dcId → dcId ∈ announced

/-- Where one of the datacenters gets other addresses, all with other endpoints do. -/
def AddressesTell (a b : Data) : Prop :=
  (∀ dcId, (addresses a dcId).Perm (addresses b dcId)) ∨
    ∀ dcId, endpoints a dcId ≠ endpoints b dcId → ¬ (addresses a dcId).Perm (addresses b dcId)

/-- **A list from a server announces all that it changes** where the addresses tell the endpoints apart, and only
there. -/
theorem announces_iff {s s' : State rsa} (h : Sound s) {options : List DcOption} {overwrite : Bool}
    {announced : List DcId} (hprocess : processFromList s options overwrite = some (s', announced)) :
    Announces s s' announced ↔ AddressesTell s.data (listed s options overwrite) := by
  rcases processFromList_cases hprocess with ⟨rfl, rfl, hnone⟩ | ⟨hdifference, hstate⟩
  · obtain rfl : options = [] := by
      rcases hnone with hnone | hnone
      · exact hnone
      · exact absurd hnone (by simp [h.mutable])
    refine ⟨fun _ => .inr fun dcId hne hperm => ?_, fun _ hne => absurd rfl hne⟩
    rcases overwrite with _ | _
    · exact hne rfl
    · refine hne ?_
      have hnil : addresses s'.data dcId = [] := hperm.eq_nil
      exact List.map_eq_nil_iff.mp hnil
  · have hmem := mem_countOptionsDifference_iff h.data (h.data.listed options overwrite) hdifference
    by_cases hempty : announced = []
    · refine ⟨fun _ => .inl fun dcId => ?_, fun _ hne => absurd hempty hne⟩
      by_contra hperm
      exact absurd ((hmem dcId).mpr hperm) (by simp [hempty])
    · rw [if_neg hempty] at hstate
      subst hstate
      constructor
      · exact fun hannounces => .inr fun dcId hne => (hmem dcId).mp (hannounces hempty dcId hne)
      · rintro (hsame | htell) _ dcId hne
        · obtain ⟨dcId', hannounced⟩ := List.exists_mem_of_ne_nil announced hempty
          exact absurd (hsame dcId') ((hmem dcId').mp hannounced)
        · exact (hmem dcId).mpr (htell dcId hne)

/-- **The options survive restarts and announce their changes** exactly where the reader takes the endpoints and the
addresses tell the endpoints apart.

**Proof sketch.** By the invariant of the options that can come up, from `DcOptions.restores_iff_fits` and
`DcOptions.announces_iff`. -/
theorem options_survive_restart {s : State rsa} (h : Reachable rsa s) :
    (∀ serialized, serialize s = some serialized → (Restores s serialized ↔ Fits s)) ∧
      ∀ options overwrite s' announced, processFromList s options overwrite = some (s', announced) →
        (Announces s s' announced ↔ AddressesTell s.data (listed s options overwrite)) :=
  ⟨fun _ hs => restores_iff_fits h.sound hs, fun _ _ _ _ hprocess => announces_iff h.sound hprocess⟩

/-- Keys that are pairs of numbers, with no text that is one. -/
def pairRsa : Rsa where
  Key := {key : Bytes × Bytes // key.1.length < 4294967295 ∧ key.2.length < 4294967295}
  readRSAPublicKey _ := none
  readRSA_PUBKEY _ := none
  make n e := if h : n.length < 4294967295 ∧ e.length < 4294967295 then some ⟨(n, e), h⟩ else none
  getN key := key.1.1
  getE key := key.1.2
  fingerprint _ := 0
  make_get key := by rw [dif_pos key.2]
  length_getN key := key.2.1
  length_getE key := key.2.2

theorem options_survive_restart_builtIn :
    (∀ serialized, serialize (constructFromBuiltIn pairRsa .production) = some serialized →
      (Restores (constructFromBuiltIn pairRsa .production) serialized ↔
        Fits (constructFromBuiltIn pairRsa .production))) ∧
      ∀ options overwrite s' announced,
        processFromList (constructFromBuiltIn pairRsa .production) options overwrite = some (s', announced) →
        (Announces (constructFromBuiltIn pairRsa .production) s' announced ↔
          AddressesTell (constructFromBuiltIn pairRsa .production).data
            (listed (constructFromBuiltIn pairRsa .production) options overwrite)) :=
  options_survive_restart (.constructFromBuiltIn .production)

/-- **The next restart finds the same bytes**: options that survive one are written as they were, and survive again. -/
theorem restart_settles {s : State rsa} (h : Reachable rsa s) {serialized : Bytes}
    (hs : serialize s = some serialized) (hfits : Fits s) :
    serialize (restarted s serialized).1 = some serialized ∧ Restores (restarted s serialized).1 serialized := by
  obtain ⟨-, hdata, hkeys⟩ := (restores_iff_fits h.sound hs).mpr hfits
  have hsound : Sound (restarted s serialized).1 :=
    (Reachable.constructFromSerialized serialized (.constructFromBuiltIn s.environment)).sound
  have hwritten : written (restarted s serialized).1.data = written s.data := by
    simp only [hdata, written, OrdMap.filterKeys, List.filter_filter, Bool.and_self]
  have hcount : Countable (restarted s serialized).1 ↔ Countable s := by simp only [Countable, hwritten, hkeys]
  have hagain : serialize (restarted s serialized).1 = some serialized := by
    rw [serialize, h.sound.mutable, if_neg Bool.false_ne_true] at hs
    rw [serialize, hsound.mutable, if_neg Bool.false_ne_true, ← hs]
    simp only [serializeGuarded, hcount, hwritten, hkeys]
  exact ⟨hagain, (restores_iff_fits hsound hagain).mpr (by rw [Fits, hwritten]; exact hfits)⟩

theorem restart_settles_builtIn : ∃ serialized, serialize (constructFromBuiltIn pairRsa .production) = some serialized ∧
    serialize (restarted (constructFromBuiltIn pairRsa .production) serialized).1 = some serialized := by
  obtain ⟨serialized, hs⟩ : ∃ serialized, serialize (constructFromBuiltIn pairRsa .production) = some serialized := by
    rw [serialize, if_neg (by decide), serializeGuarded, if_pos (by decide)]
    exact ⟨_, rfl⟩
  exact ⟨serialized, hs, (restart_settles (.constructFromBuiltIn _) hs (by decide)).1⟩

/-- The built in options with one more endpoint, whose secret names a domain of sixteen letters. -/
def domainSecretOptions : State pairRsa :=
  constructAddOne (constructFromBuiltIn pairRsa .production) (qint32 2) (qint32 0)
    (Text.toLatin1 (Text.u "149.154.167.99")) (qint32 443)
    (0xEE :: List.replicate 16 0x11 ++ List.replicate 16 0x61)

/-- The options of the first test datacenter without the flag for proxies. -/
def movedOptions : List DcOption :=
  [⟨qint32 0, qint32 1, Text.toLatin1 (Text.u "149.154.175.10"), qint32 443, none⟩,
    ⟨qint32 1, qint32 1, Text.toLatin1 (Text.u "2001:0b28:f23d:f001:0000:0000:0000:000e"), qint32 443, none⟩]

/-- A secret with a domain is written and not read, and flags change with no word of it. -/
theorem not_options_survive_restart :
    (¬ ∀ (rsa : Rsa) (s : State rsa), Reachable rsa s → ∀ serialized, serialize s = some serialized →
      Restores s serialized) ∧
      ¬ ∀ (rsa : Rsa) (s : State rsa), Reachable rsa s → ∀ options overwrite s' announced,
        processFromList s options overwrite = some (s', announced) → Announces s s' announced := by
  constructor
  · intro h
    have hreach : Reachable pairRsa domainSecretOptions := .constructAddOne _ _ _ _ _ (.constructFromBuiltIn _)
    have hfits : ¬ Fits domainSecretOptions := by decide
    have hcount : Countable domainSecretOptions := by decide
    obtain ⟨serialized, hs⟩ : ∃ serialized, serialize domainSecretOptions = some serialized := by
      rw [serialize, if_neg (by decide), serializeGuarded, if_pos hcount]
      exact ⟨_, rfl⟩
    exact hfits ((restores_iff_fits hreach.sound hs).mp (h pairRsa _ hreach serialized hs))
  · intro h
    have hreach : Reachable pairRsa (constructFromBuiltIn pairRsa .test) := .constructFromBuiltIn _
    have hids : ∀ e ∈ (constructFromBuiltIn pairRsa .test).data.entries, e.1 < maxDcId := by decide
    have hids' : ∀ e ∈ (listed (constructFromBuiltIn pairRsa .test) movedOptions true).entries, e.1 < maxDcId := by
      decide
    obtain ⟨ids, hdifference⟩ := countDifference_isSome hids hids'
    obtain ⟨s', hprocess⟩ : ∃ s', processFromList (constructFromBuiltIn pairRsa .test) movedOptions true =
        some (s', ids) := by
      rw [processFromList, if_neg (by simp [movedOptions, constructFromBuiltIn]), countOptionsDifference, hdifference,
        Option.map_some]
      exact ⟨_, rfl⟩
    rcases (announces_iff hreach.sound hprocess).mp (h pairRsa _ hreach _ _ _ _ hprocess) with hsame | htell
    · have hgone : addresses (listed (constructFromBuiltIn pairRsa .test) movedOptions true) (qint32 2) = [] := by
        decide
      have hnil := (hgone ▸ hsame (qint32 2)).eq_nil
      exact absurd hnil (by decide)
    · exact htell (qint32 1) (by decide) (by decide)

end DcOptions
