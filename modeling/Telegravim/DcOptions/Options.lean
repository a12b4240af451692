import Mathlib.Data.List.Infix
import Telegravim.Foundation.Grouping
import Telegravim.Foundation.DataStream

set_option autoImplicit false

/-!
# Datacenter options

The endpoints of the datacenters and the public keys of the CDN ones. A list from a server replaces the endpoints or
adds to them, and the datacenters that it changes are announced. One address, an ip and a port, is kept once in a
datacenter.

## Main definitions

* `DcOptions.Endpoint`, `DcOptions.State` — an endpoint, and the options.
* `DcOptions.applyOneOption`, `DcOptions.countOptionsDifference` — one endpoint added, and two maps compared.
* `DcOptions.processFromList`, `DcOptions.addFromOther`, `DcOptions.constructAddOne`, `DcOptions.setCDNConfig` — what
  changes the options.
* `DcOptions.WellFormed` — the invariant of the endpoints.

## Main results

* `DcOptions.WellFormed.applyOneOption` — an added endpoint keeps the invariant.
* `DcOptions.mem_countOptionsDifference_iff` — the comparison finds the datacenters with other addresses.
-/

namespace DcOptions

open DataStream

/-! ### Endpoints -/

abbrev DcId := Qint32

/-- The flags of an option, as the 32 bits that are written. -/
abbrev Flags := Qint32

inductive Environment where
  | production
  | test
  deriving DecidableEq

structure Endpoint where
  id : DcId
  flags : Flags
  ip : Bytes
  port : Qint32
  secret : Bytes
  deriving DecidableEq

/-- What tells the endpoints of one datacenter apart. -/
def Endpoint.address (e : Endpoint) : Bytes × Qint32 := (e.ip, e.port)

/-- The endpoints by their datacenters. -/
abbrev Data := OrdMap DcId (List Endpoint)

/-- The endpoints of a datacenter. -/
def endpoints (data : Data) (dcId : DcId) : List Endpoint := (data.find dcId).getD []

/-- The addresses of a datacenter. -/
def addresses (data : Data) (dcId : DcId) : List (Bytes × Qint32) := (endpoints data dcId).map Endpoint.address

/-- One endpoint added, and whether it was: an address that is there already is left as it is. -/
def applyOneOption (data : Data) (dcId : DcId) (flags : Flags) (ip : Bytes) (port : Qint32) (secret : Bytes) :
    Data × Bool :=
  match data.find dcId with
  | some list =>
    if list.any fun endpoint => endpoint.ip = ip ∧ endpoint.port = port then (data, false)
    else (data.insert dcId (list ++ [⟨dcId, flags, ip, port, secret⟩]), true)
  | none => (data.insert dcId [⟨dcId, flags, ip, port, secret⟩], true)

/-! ### Keys -/

/-- The RSA keys of the cryptographic library: how they are read from a text of one of two formats, made of their two
numbers and taken apart again, and their fingerprint. A key is made again of its numbers, whose bytes an array of a
stream can hold. -/
structure Rsa where
  Key : Type
  readRSAPublicKey : Bytes → Option Key
  readRSA_PUBKEY : Bytes → Option Key
  make : Bytes → Bytes → Option Key
  getN : Key → Bytes
  getE : Key → Bytes
  fingerprint : Key → ℕ
  make_get : ∀ key, make (getN key) (getE key) = some key
  length_getN : ∀ key, (getN key).length < 4294967295
  length_getE : ∀ key, (getE key).length < 4294967295

inductive Format where
  | rsaPublicKey
  | rsaPubkey
  | unknown

/-- The format of a key, from the words of its first line. -/
def guessFormat (key : Bytes) : Format :=
  if Text.toLatin1 (Text.u "BEGIN RSA PUBLIC KEY") <:+: key then .rsaPublicKey
  else if Text.toLatin1 (Text.u "BEGIN PUBLIC KEY") <:+: key then .rsaPubkey
  else .unknown

/-- A key from a text, which may be no valid one; the program ends where its format is none of the two. -/
def createRaw (rsa : Rsa) (key : Bytes) : Option (Option rsa.Key) :=
  match guessFormat key with
  | .rsaPublicKey => some (rsa.readRSAPublicKey key)
  | .rsaPubkey => some (rsa.readRSA_PUBKEY key)
  | .unknown => none

/-- The keys of the CDN datacenters by their fingerprints. -/
abbrev CdnKeys (rsa : Rsa) := OrdMap DcId (OrdMap ℕ rsa.Key)

/-- A key added to those of a datacenter, where it is not there. -/
def emplaceKey {rsa : Rsa} (keys : OrdMap ℕ rsa.Key) (entry : ℕ × rsa.Key) : OrdMap ℕ rsa.Key :=
  keys.emplace entry.1 entry.2

def addKey {rsa : Rsa} : CdnKeys rsa → DcId × ℕ × rsa.Key → CdnKeys rsa := OrdMap.collect emplaceKey ∅

/-! ### Options -/

structure State (rsa : Rsa) where
  environment : Environment
  data : Data
  cdnPublicKeys : CdnKeys rsa
  immutable : Bool

/-- One option of a list from a server. -/
structure DcOption where
  flags : Flags
  id : DcId
  ipAddress : Bytes
  port : Qint32
  secret : Option Bytes

structure BuiltInDc where
  id : ℤ
  ip : String
  port : ℤ

def kBuiltInDcs : List BuiltInDc :=
  [⟨1, "149.154.175.50", 443⟩, ⟨2, "149.154.167.51", 443⟩, ⟨2, "95.161.76.100", 443⟩, ⟨3, "149.154.175.100", 443⟩,
    ⟨4, "149.154.167.91", 443⟩, ⟨5, "149.154.171.5", 443⟩]

def kBuiltInDcsIPv6 : List BuiltInDc :=
  [⟨1, "2001:0b28:f23d:f001:0000:0000:0000:000a", 443⟩, ⟨2, "2001:067c:04e8:f002:0000:0000:0000:000a", 443⟩,
    ⟨3, "2001:0b28:f23d:f003:0000:0000:0000:000a", 443⟩, ⟨4, "2001:067c:04e8:f004:0000:0000:0000:000a", 443⟩,
    ⟨5, "2001:0b28:f23f:f005:0000:0000:0000:000a", 443⟩]

def kBuiltInDcsTest : List BuiltInDc :=
  [⟨1, "149.154.175.10", 443⟩, ⟨2, "149.154.167.40", 443⟩, ⟨3, "149.154.175.117", 443⟩]

def kBuiltInDcsIPv6Test : List BuiltInDc :=
  [⟨1, "2001:0b28:f23d:f001:0000:0000:0000:000e", 443⟩, ⟨2, "2001:067c:04e8:f002:0000:0000:0000:000e", 443⟩,
    ⟨3, "2001:0b28:f23d:f003:0000:0000:0000:000e", 443⟩]

/-- The flag of an endpoint that is reached by IPv6. -/
def f_ipv6 : ℤ := 1

/-- The flag of an endpoint for proxies. -/
def f_static : ℤ := 16

/-- The endpoints of a built in table added. -/
def addBuiltIn (flags : ℤ) (data : Data) (list : List BuiltInDc) : Data :=
  list.foldl (fun data entry => (applyOneOption data (qint32 entry.id) (qint32 flags)
    (Text.toLatin1 (Text.u entry.ip)) (qint32 entry.port) []).1) data

/-- `constructFromBuiltIn` of new options. -/
def constructFromBuiltIn (rsa : Rsa) (environment : Environment) : State rsa where
  environment := environment
  data :=
    addBuiltIn (f_static + f_ipv6)
      (addBuiltIn f_static ∅ (if environment = .test then kBuiltInDcsTest else kBuiltInDcs))
      (if environment = .test then kBuiltInDcsIPv6Test else kBuiltInDcsIPv6)
  cdnPublicKeys := ∅
  immutable := false

/-! ### Changes -/

variable {rsa : Rsa}

/-- Whether one list of endpoints has the addresses of another: as many of them, each found there. -/
def equal (m n : List Endpoint) : Bool :=
  m.length = n.length ∧ ∀ what ∈ m, ∃ endpoint ∈ n, endpoint.ip = what.ip ∧ endpoint.port = what.port

/-- `std::numeric_limits<DcId>::max()`. -/
def maxDcId : DcId := qint32 2147483647

/-- The datacenters of two maps whose endpoints have other addresses, by one walk over both. A map that has ended
counts as one at the greatest id, so a datacenter with this id in one of the maps alone is read past the end of the
other, where nothing is defined. -/
def countDifference : List (DcId × List Endpoint) → List (DcId × List Endpoint) → Option (List DcId)
  | [], [] => some []
  | (aId, _) :: a, [] =>
    if aId < maxDcId then (countDifference a []).map (aId :: ·) else none
  | [], (bId, _) :: b =>
    if bId < maxDcId then (countDifference [] b).map (bId :: ·) else none
  | (aId, m) :: a, (bId, n) :: b =>
    if aId < bId then (countDifference a ((bId, n) :: b)).map (aId :: ·)
    else if bId < aId then (countDifference ((aId, m) :: a) b).map (bId :: ·)
    else if equal m n then countDifference a b
    else (countDifference a b).map (aId :: ·)
termination_by a b => a.length + b.length

def countOptionsDifference (a b : Data) : Option (List DcId) := countDifference a.entries b.entries

/-- One option of a list, applied. -/
def applyListed (data : Data) (option : DcOption) : Data :=
  (applyOneOption data option.id option.flags option.ipAddress option.port (option.secret.getD [])).1

/-- The endpoints that a list leads to. -/
def listed (s : State rsa) (options : List DcOption) (overwrite : Bool) : Data :=
  options.foldl applyListed (if overwrite then ∅ else s.data)

/-- The options after a list from a server, with the datacenters that are announced. -/
def processFromList (s : State rsa) (options : List DcOption) (overwrite : Bool) : Option (State rsa × List DcId) :=
  if options = [] ∨ s.immutable then some (s, [])
  else
    (countOptionsDifference s.data (listed s options overwrite)).map fun difference =>
      (if difference = [] then s else { s with data := listed s options overwrite }, difference)

def setFromList (s : State rsa) (options : List DcOption) : Option (State rsa × List DcId) :=
  processFromList s options true

def addFromList (s : State rsa) (options : List DcOption) : Option (State rsa × List DcId) :=
  processFromList s options false

/-- An endpoint applied, and whether it was added. -/
def applyEndpoint (data : Data) (endpoint : Endpoint) : Data × Bool :=
  applyOneOption data endpoint.id endpoint.flags endpoint.ip endpoint.port endpoint.secret

/-- Some endpoints added, and whether one of them was. -/
def addEndpoints (data : Data) (list : List Endpoint) : Data × Bool :=
  list.foldl (fun start endpoint =>
    ((applyEndpoint start.1 endpoint).1, start.2 || (applyEndpoint start.1 endpoint).2)) (data, false)

/-- The endpoints of other options added, with the datacenters that are announced. -/
def addData (data : Data) (entries : List (DcId × List Endpoint)) : Data × List DcId :=
  entries.foldl (fun start item =>
    ((addEndpoints start.1 item.2).1,
      if (addEndpoints start.1 item.2).2 then start.2 ++ [item.1] else start.2)) (data, [])

/-- The keys of the CDN datacenters one after another. -/
def CdnKeys.list (keys : CdnKeys rsa) : List (DcId × ℕ × rsa.Key) :=
  keys.entries.flatMap fun keysInDc => keysInDc.2.entries.map fun entry => (keysInDc.1, entry)

/-- The options after others are added to them, with the datacenters that are announced. -/
def addFromOther (s options : State rsa) : State rsa × List DcId :=
  if s.immutable ∨ options.data.entries = [] then (s, [])
  else
    ({ s with
        data := (addData s.data options.data.entries).1
        cdnPublicKeys := options.cdnPublicKeys.list.foldl addKey s.cdnPublicKeys },
      (addData s.data options.data.entries).2)

/-- `BareDcId`. -/
def bareDcId (shiftedDcId : DcId) : ℤ := shiftedDcId.val.tmod 10000

def constructAddOne (s : State rsa) (id : DcId) (flags : Flags) (ip : Bytes) (port : Qint32) (secret : Bytes) :
    State rsa :=
  { s with data := (applyOneOption s.data (qint32 (bareDcId id)) flags ip port secret).1 }

/-- One key of a CDN config: a key that is no valid one is left out. -/
def addConfigKey (keys : CdnKeys rsa) (key : DcId × Bytes) : Option (CdnKeys rsa) :=
  (createRaw rsa key.2).map fun parsed => parsed.elim keys fun parsed =>
    addKey keys (key.1, rsa.fingerprint parsed, parsed)

/-- The options after a CDN config, a list of datacenters with keys. -/
def setCDNConfig (s : State rsa) (publicKeys : List (DcId × Bytes)) : Option (State rsa) :=
  (publicKeys.foldlM addConfigKey ∅).map fun keys => { s with cdnPublicKeys := keys }

/-! ### The invariant -/

/-- The endpoints that one datacenter keeps: some, of this datacenter, with addresses of their own. -/
structure Group (dcId : DcId) (list : List Endpoint) : Prop where
  ne_nil : list ≠ []
  id_eq : ∀ e ∈ list, e.id = dcId
  nodup : (list.map Endpoint.address).Nodup

/-- **The invariant** of the endpoints. -/
def WellFormed (data : Data) : Prop := ∀ dcId list, data.find dcId = some list → Group dcId list

lemma wellFormed_empty : WellFormed ∅ := by
  intro dcId list h
  rw [OrdMap.find_empty] at h
  exact absurd h (by simp)

/-- An endpoint added where its address is not there. -/
def addEndpoint (list : List Endpoint) (e : Endpoint) : List Endpoint :=
  if e.address ∈ list.map Endpoint.address then list else list ++ [e]

lemma any_address (list : List Endpoint) (ip : Bytes) (port : Qint32) :
    (list.any fun endpoint => endpoint.ip = ip ∧ endpoint.port = port) = true ↔
      (ip, port) ∈ list.map Endpoint.address := by
  simp [List.any_eq_true, Endpoint.address]

/-- An endpoint is collected in its datacenter. -/
lemma applyOneOption_fst (data : Data) (dcId : DcId) (flags : Flags) (ip : Bytes) (port : Qint32) (secret : Bytes) :
    (applyOneOption data dcId flags ip port secret).1 =
      OrdMap.collect addEndpoint [] data (dcId, ⟨dcId, flags, ip, port, secret⟩) := by
  have haddress : Endpoint.address ⟨dcId, flags, ip, port, secret⟩ = (ip, port) := rfl
  rw [applyOneOption, OrdMap.collect, addEndpoint, haddress]
  dsimp only
  rcases hfind : data.find dcId with _ | list
  · rfl
  · rw [Option.getD_some]
    dsimp only
    by_cases hany : (ip, port) ∈ list.map Endpoint.address
    · rw [if_pos ((any_address list ip port).mpr hany), if_pos hany, OrdMap.insert_find hfind]
    · rw [if_neg (mt (any_address list ip port).mp hany), if_neg hany]

lemma Group.addEndpoint {dcId : DcId} {list : List Endpoint} (h : list = [] ∨ Group dcId list) {e : Endpoint}
    (he : e.id = dcId) : Group dcId (addEndpoint list e) := by
  rw [DcOptions.addEndpoint]
  rcases h with rfl | h
  · exact ⟨by simp, by simp [he], by simp⟩
  · by_cases hmem : e.address ∈ list.map Endpoint.address
    · rw [if_pos hmem]
      exact h
    · rw [if_neg hmem]
      refine ⟨by simp, fun e' he' => ?_, ?_⟩
      · rcases List.mem_append.mp he' with he' | he'
        · exact h.id_eq e' he'
        · rw [List.mem_singleton.mp he', he]
      · rw [List.map_append, List.map_singleton, List.nodup_append]
        exact ⟨h.nodup, by simp, fun x hx y hy => by rintro rfl; exact hmem (List.mem_singleton.mp hy ▸ hx)⟩

/-- **An added endpoint keeps the invariant.** -/
theorem WellFormed.applyOneOption {data : Data} (h : WellFormed data) (dcId : DcId) (flags : Flags) (ip : Bytes)
    (port : Qint32) (secret : Bytes) : WellFormed (applyOneOption data dcId flags ip port secret).1 := by
  intro dcId' list hlist
  rw [applyOneOption_fst, OrdMap.collect, OrdMap.find_insert] at hlist
  by_cases heq : dcId' = dcId
  · subst heq
    rw [if_pos rfl, Option.some.injEq] at hlist
    rw [← hlist]
    refine Group.addEndpoint ?_ rfl
    rcases hfind : data.find dcId' with _ | old
    · exact .inl rfl
    · exact .inr (h dcId' old hfind)
  · rw [if_neg heq] at hlist
    exact h dcId' list hlist

lemma WellFormed.addBuiltIn {data : Data} (h : WellFormed data) (flags : ℤ) (list : List BuiltInDc) :
    WellFormed (addBuiltIn flags data list) := by
  rw [DcOptions.addBuiltIn]
  induction list generalizing data with
  | nil => exact h
  | cons entry list ih => exact ih (h.applyOneOption _ _ _ _ _)

/-- The endpoints of other options keep the invariant. -/
lemma WellFormed.addEndpoints {data : Data} (h : WellFormed data) (list : List Endpoint) :
    WellFormed (addEndpoints data list).1 := by
  rw [DcOptions.addEndpoints]
  generalize hstart : (data, false) = start
  replace h : WellFormed start.1 := hstart ▸ h
  clear hstart
  induction list generalizing start with
  | nil => exact h
  | cons endpoint list ih => exact ih _ (h.applyOneOption _ _ _ _ _)

lemma WellFormed.addData {data : Data} (h : WellFormed data) (entries : List (DcId × List Endpoint)) :
    WellFormed (addData data entries).1 := by
  rw [DcOptions.addData]
  generalize hstart : (data, []) = start
  replace h : WellFormed start.1 := hstart ▸ h
  clear hstart
  induction entries generalizing start with
  | nil => exact h
  | cons item entries ih => exact ih _ (h.addEndpoints _)

lemma WellFormed.foldl_applyListed {data : Data} (h : WellFormed data) (options : List DcOption) :
    WellFormed (options.foldl applyListed data) := by
  induction options generalizing data with
  | nil => exact h
  | cons option options ih => exact ih (h.applyOneOption _ _ _ _ _)

lemma WellFormed.listed {s : State rsa} (h : WellFormed s.data) (options : List DcOption) (overwrite : Bool) :
    WellFormed (listed s options overwrite) := by
  refine WellFormed.foldl_applyListed ?_ options
  cases overwrite
  · exact h
  · exact wellFormed_empty

/-! ### The comparison -/

/-- For addresses of their own, having the addresses of another list is to have the same ones in some order. -/
lemma equal_iff_perm {m n : List Endpoint} (h : (m.map Endpoint.address).Nodup) :
    equal m n = true ↔ (m.map Endpoint.address).Perm (n.map Endpoint.address) := by
  rw [equal, decide_eq_true_iff]
  constructor
  · rintro ⟨hlength, hfound⟩
    refine (List.subperm_of_subset h fun x hx => ?_).perm_of_length_le ?_
    · obtain ⟨what, hwhat, rfl⟩ := List.mem_map.mp hx
      obtain ⟨endpoint, hendpoint, hip, hport⟩ := hfound what hwhat
      exact List.mem_map.mpr ⟨endpoint, hendpoint, Prod.ext hip hport⟩
    · rw [List.length_map, List.length_map, hlength]
  · intro hperm
    refine ⟨?_, fun what hwhat => ?_⟩
    · simpa using hperm.length_eq
    · obtain ⟨endpoint, hendpoint, heq⟩ :=
        List.mem_map.mp (hperm.mem_iff.mp (List.mem_map_of_mem (f := Endpoint.address) hwhat))
      exact ⟨endpoint, hendpoint, congrArg Prod.fst heq, congrArg Prod.snd heq⟩

/-- Whether two maps agree in the addresses of a datacenter, from what they have there. -/
def agree : Option (List Endpoint) → Option (List Endpoint) → Bool
  | none, none => true
  | some m, some n => equal m n
  | _, _ => false

lemma find_cons {l : List (DcId × List Endpoint)} {d : DcId} {m : List Endpoint}
    (h : ((d, m) :: l).Pairwise fun x y => x.1 < y.1) (dcId : DcId) :
    OrdMap.find ⟨(d, m) :: l, h⟩ dcId = if dcId = d then some m else OrdMap.find ⟨l, h.of_cons⟩ dcId :=
  OrdMap.lookup_cons_ite dcId d m l

lemma find_of_lt {l : List (DcId × List Endpoint)} (h : l.Pairwise fun x y => x.1 < y.1) {dcId : DcId}
    (hlt : ∀ e ∈ l, dcId < e.1) : OrdMap.find ⟨l, h⟩ dcId = none := by
  rw [Option.eq_none_iff_forall_ne_some]
  intro m hm
  exact lt_irrefl dcId (hlt _ (OrdMap.find_eq_some_iff.mp hm))

/-- A datacenter before the first one of a map is not there. -/
lemma find_of_lt_head {l : List (DcId × List Endpoint)} {d : DcId} {m : List Endpoint}
    (h : ((d, m) :: l).Pairwise fun x y => x.1 < y.1) {dcId : DcId} (hlt : dcId < d) :
    OrdMap.find ⟨(d, m) :: l, h⟩ dcId = none := by
  refine find_of_lt h fun e he => ?_
  rcases List.mem_cons.mp he with rfl | he
  · exact hlt
  · exact hlt.trans (List.rel_of_pairwise_cons h he)

/-- **The walk finds the datacenters where the maps do not agree.**

**Proof sketch.** Induction on the walk. The smaller one of the two first datacenters is not in the other map, and the
rest of the walk knows nothing of it. -/
theorem mem_countDifference {a b : List (DcId × List Endpoint)} (ha : a.Pairwise fun x y => x.1 < y.1)
    (hb : b.Pairwise fun x y => x.1 < y.1) {ids : List DcId} (h : countDifference a b = some ids) (dcId : DcId) :
    dcId ∈ ids ↔ agree (OrdMap.find ⟨a, ha⟩ dcId) (OrdMap.find ⟨b, hb⟩ dcId) = false := by
  have hnil : OrdMap.find (⟨[], List.Pairwise.nil⟩ : Data) dcId = none := rfl
  fun_induction countDifference a b generalizing ids with
  | case1 =>
    rw [← Option.some.inj h, hnil]
    simp [agree]
  | case2 aId m a hlt ih =>
    obtain ⟨ids', hids', rfl⟩ := Option.map_eq_some_iff.mp h
    have hrest : dcId ∈ ids' ↔ _ := ih ha.of_cons hb hids'
    rw [List.mem_cons, hrest, find_cons ha, hnil]
    by_cases heq : dcId = aId
    · simp [heq, agree]
    · simp [heq]
  | case3 aId m a hlt => exact absurd h (by simp)
  | case4 bId n b hlt ih =>
    obtain ⟨ids', hids', rfl⟩ := Option.map_eq_some_iff.mp h
    have hrest : dcId ∈ ids' ↔ _ := ih ha hb.of_cons hids'
    rw [List.mem_cons, hrest, find_cons hb, hnil]
    by_cases heq : dcId = bId
    · simp [heq, agree]
    · simp [heq]
  | case5 bId n b hlt => exact absurd h (by simp)
  | case6 aId m a bId n b hlt ih =>
    obtain ⟨ids', hids', rfl⟩ := Option.map_eq_some_iff.mp h
    have hrest : dcId ∈ ids' ↔ _ := ih ha.of_cons hb hids'
    rw [List.mem_cons, hrest, find_cons ha]
    by_cases heq : dcId = aId
    · rw [heq, find_of_lt_head hb hlt]
      simp [agree]
    · simp [heq]
  | case7 aId m a bId n b hnot hlt ih =>
    obtain ⟨ids', hids', rfl⟩ := Option.map_eq_some_iff.mp h
    have hrest : dcId ∈ ids' ↔ _ := ih ha hb.of_cons hids'
    rw [List.mem_cons, hrest, find_cons hb]
    by_cases heq : dcId = bId
    · rw [heq, find_of_lt_head ha hlt]
      simp [agree]
    · simp [heq]
  | case8 aId m a bId n b hnot hnot' hequal ih =>
    have hid : bId = aId := le_antisymm (not_lt.mp hnot) (not_lt.mp hnot')
    subst hid
    have hrest : dcId ∈ ids ↔ _ := ih ha.of_cons hb.of_cons h
    rw [hrest, find_cons ha, find_cons hb]
    by_cases heq : dcId = bId
    · rw [heq, find_of_lt ha.of_cons fun e he => List.rel_of_pairwise_cons ha he,
        find_of_lt hb.of_cons fun e he => List.rel_of_pairwise_cons hb he]
      simp [agree, hequal]
    · simp [heq]
  | case9 aId m a bId n b hnot hnot' hequal ih =>
    obtain ⟨ids', hids', rfl⟩ := Option.map_eq_some_iff.mp h
    have hid : bId = aId := le_antisymm (not_lt.mp hnot) (not_lt.mp hnot')
    subst hid
    have hrest : dcId ∈ ids' ↔ _ := ih ha.of_cons hb.of_cons hids'
    rw [List.mem_cons, hrest, find_cons ha, find_cons hb]
    by_cases heq : dcId = bId
    · simp [heq, agree, hequal]
    · simp [heq]

/-- The comparison is defined where no datacenter has the greatest id. -/
lemma countDifference_isSome {a b : List (DcId × List Endpoint)} (ha : ∀ e ∈ a, e.1 < maxDcId)
    (hb : ∀ e ∈ b, e.1 < maxDcId) : ∃ ids, countDifference a b = some ids := by
  fun_induction countDifference a b with
  | case1 => exact ⟨[], rfl⟩
  | case2 aId m a hlt ih =>
    obtain ⟨ids, hids⟩ := ih (fun e he => ha e (List.mem_cons_of_mem _ he)) hb
    exact ⟨aId :: ids, by rw [hids, Option.map_some]⟩
  | case3 aId m a hlt => exact absurd (ha _ List.mem_cons_self) hlt
  | case4 bId n b hlt ih =>
    obtain ⟨ids, hids⟩ := ih ha (fun e he => hb e (List.mem_cons_of_mem _ he))
    exact ⟨bId :: ids, by rw [hids, Option.map_some]⟩
  | case5 bId n b hlt => exact absurd (hb _ List.mem_cons_self) hlt
  | case6 aId m a bId n b hlt ih =>
    obtain ⟨ids, hids⟩ := ih (fun e he => ha e (List.mem_cons_of_mem _ he)) hb
    exact ⟨aId :: ids, by rw [hids, Option.map_some]⟩
  | case7 aId m a bId n b hnot hlt ih =>
    obtain ⟨ids, hids⟩ := ih ha (fun e he => hb e (List.mem_cons_of_mem _ he))
    exact ⟨bId :: ids, by rw [hids, Option.map_some]⟩
  | case8 aId m a bId n b hnot hnot' hequal ih =>
    exact ih (fun e he => ha e (List.mem_cons_of_mem _ he)) fun e he => hb e (List.mem_cons_of_mem _ he)
  | case9 aId m a bId n b hnot hnot' hequal ih =>
    obtain ⟨ids, hids⟩ := ih (fun e he => ha e (List.mem_cons_of_mem _ he)) fun e he => hb e (List.mem_cons_of_mem _ he)
    exact ⟨aId :: ids, by rw [hids, Option.map_some]⟩

/-- The datacenters that a comparison finds are those with other addresses. -/
theorem mem_countOptionsDifference_iff {a b : Data} (ha : WellFormed a) (hb : WellFormed b) {ids : List DcId}
    (h : countOptionsDifference a b = some ids) (dcId : DcId) :
    dcId ∈ ids ↔ ¬ (addresses a dcId).Perm (addresses b dcId) := by
  rw [mem_countDifference a.sorted b.sorted h dcId, addresses, addresses, endpoints, endpoints, ← Bool.not_eq_true,
    not_iff_not]
  change agree (a.find dcId) (b.find dcId) = true ↔ _
  rcases hm : a.find dcId with _ | m <;> rcases hn : b.find dcId with _ | n
  · simp [agree]
  · have := (hb dcId n hn).ne_nil
    simp [agree, this]
  · have := (ha dcId m hm).ne_nil
    simp [agree, this]
  · exact equal_iff_perm (ha dcId m hm).nodup

end DcOptions
