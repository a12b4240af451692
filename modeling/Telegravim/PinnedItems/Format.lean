import Telegravim.Foundation.Utf8
import Telegravim.LocalData.Validate
import Mathlib.Data.List.TakeWhile

set_option autoImplicit false

/-!
# Pinned items: the format

The module of pinned items has three kinds of records: whether a peer is pinned in a list, the order of a list,
and which lists of a folder are current. The id of a record is told from what it is about, so that two
devices write the same record; `Key` is what it is about.

A peer is a number: its kind in the bits from 48 on, and its id in the bits below.

## Main definitions

* `PinnedItems.peerKey`, `PinnedItems.readPeer`, `PinnedItems.writePeer` — peers in JSON.
* `PinnedItems.Key`, `PinnedItems.Key.id` — what a record is about, and its id.
* `PinnedItems.validate` — the format of a module.

## Main results

* `PinnedItems.readPeer_writePeer` — a peer that is written is read back.
* `PinnedItems.validate_iff` — a valid module: the ids are distinct, each record is valid, and no list has
  too many pinned peers.
-/

namespace PinnedItems

open Text LocalData

def kMaximumOrder : ℕ := 4096

/-- `Decimal`: a positive number up to a limit, as it is printed. -/
def decimalUpTo (id : Text) (maximum : ℕ) : Bool :=
  match toULongLong id with
  | some value => value ≠ 0 && value ≤ maximum && decimal value = id
  | none => false

/-- `ValidFilterId`. -/
def validFilterId (id : Text) : Bool := decimalUpTo id 2147483647

/-- `ValidScope`. -/
def validScope (scope : Text) : Bool :=
  scope = u "main" || scope = u "archive" || scope = u "saved" ||
    match split scope 58 with
    | [first, second] => first = u "local" && validId second
    | [first, second, third] => first = u "filter" && validFilterId second && validId third
    | _ => false

/-- `PeerKey`; empty when the peer is not valid. -/
def peerKey (peer : JObject) : Text :=
  let type := Json.asText (peer.find (u "peer_type"))
  let id := Json.asText (peer.find (u "peer_id"))
  if (type ≠ u "user" ∧ type ≠ u "chat" ∧ type ≠ u "channel") ∨
      decimalUpTo id 0xFFFFFFFFFFFF = false then []
  else type ++ u ":" ++ id

/-! ### Peers -/

/-- The kind of a peer. -/
def peerType (peer : ℕ) : Text :=
  if peer / 2 ^ 48 % 256 = 0 then u "user"
  else if peer / 2 ^ 48 % 256 = 1 then u "chat"
  else if peer / 2 ^ 48 % 256 = 2 then u "channel"
  else []

/-- `WritePeer`. -/
def writePeer (peer : ℕ) (result : JObject) : JObject :=
  (result.insert (u "peer_type") (.str (peerType peer))).insert (u "peer_id")
    (.str (decimal (peer % 2 ^ 48)))

/-- The number of a text, with blanks around it and a plus before it; zero when it is none. -/
def readNumber (text : Text) : ℕ :=
  let trimmed := ((text.dropWhile isSpace).reverse.dropWhile isSpace).reverse
  let digits := if trimmed.head? = some 43 then trimmed.drop 1 else trimmed
  (toULongLong digits).getD 0

/-- `ReadPeer`. -/
def readPeer (peer : JObject) : ℕ :=
  let type := Json.asText (peer.find (u "peer_type"))
  let id := readNumber (Json.asText (peer.find (u "peer_id")))
  if type = u "user" then id
  else if type = u "chat" then id ||| 1 <<< 48
  else if type = u "channel" then id ||| 2 <<< 48
  else 0

/-- `ValidPeer`. -/
def validPeer (peer : ℕ) : Bool := peerKey (writePeer peer ∅) ≠ [] && peer / 2 ^ 48 ≤ 2

lemma not_isSpace_of_mem_decimal {n : ℕ} {c : UInt16} (h : c ∈ decimal n) : isSpace c = false := by
  obtain ⟨hlow, hhigh⟩ := mem_decimal h
  rw [UInt16.le_iff_toNat_le] at hlow hhigh
  simp only [isSpace, Bool.or_eq_false_iff, Bool.and_eq_false_iff, decide_eq_false_iff_not,
    ← UInt16.toNat_inj, UInt16.le_iff_toNat_le]
  simp only [UInt16.reduceToNat] at hlow hhigh ⊢
  omega

/-- Numbers have no blanks around them. -/
lemma trimmed_decimal (n : ℕ) :
    (((decimal n).dropWhile isSpace).reverse.dropWhile isSpace).reverse = decimal n := by
  have hfirst : (decimal n).dropWhile isSpace = decimal n := by
    rw [List.dropWhile_eq_self_iff]
    intro hlength
    rw [not_isSpace_of_mem_decimal (List.getElem_mem hlength)]
    exact Bool.false_ne_true
  have hlast : (decimal n).reverse.dropWhile isSpace = (decimal n).reverse := by
    rw [List.dropWhile_eq_self_iff]
    intro hlength
    rw [not_isSpace_of_mem_decimal (List.mem_reverse.mp (List.getElem_mem hlength))]
    exact Bool.false_ne_true
  rw [hfirst, hlast, List.reverse_reverse]

/-- Numbers do not begin with a sign. -/
lemma head_decimal (n : ℕ) {c : UInt16} (h : c < 48) : (decimal n).head? ≠ some c := by
  intro hhead
  exact absurd (mem_decimal (List.mem_of_mem_head? hhead)).1 (not_le.mpr h)

@[simp] lemma readNumber_decimal {n : ℕ} (h : n < 2 ^ 64) : readNumber (decimal n) = n := by
  unfold readNumber
  simp only [trimmed_decimal, if_neg (head_decimal n (show (43 : UInt16) < 48 by decide)),
    toULongLong_decimal h, Option.getD_some]

/-- The number of a kind. -/
lemma or_shift {id kind : ℕ} (h : id < 2 ^ 48) : id ||| kind <<< 48 = kind * 2 ^ 48 + id := by
  rw [Nat.or_comm, ← Nat.shiftLeft_add_eq_or_of_lt h, Nat.shiftLeft_eq]

lemma decimalUpTo_iff {id : Text} {maximum : ℕ} (hmaximum : maximum < 2 ^ 64) :
    decimalUpTo id maximum = true ↔ ∃ value, value ≠ 0 ∧ value ≤ maximum ∧ id = decimal value := by
  unfold decimalUpTo
  constructor
  · intro h
    split at h
    · simp only [Bool.and_eq_true, decide_eq_true_eq] at h
      exact ⟨_, h.1.1, h.1.2, h.2.symm⟩
    · cases h
  · rintro ⟨value, hne, hle, rfl⟩
    rw [toULongLong_decimal (by omega)]
    simp [hne, hle]

@[simp] lemma type_writePeer (peer : ℕ) (result : JObject) :
    Json.asText ((writePeer peer result).find (u "peer_type")) = peerType peer := by
  unfold writePeer
  rw [OrdMap.find_insert_of_ne (by decide), OrdMap.find_insert_self]
  rfl

@[simp] lemma id_writePeer (peer : ℕ) (result : JObject) :
    Json.asText ((writePeer peer result).find (u "peer_id")) = decimal (peer % 2 ^ 48) := by
  unfold writePeer
  rw [OrdMap.find_insert_self]
  rfl

/-- The key of a peer does not depend on what else is written with it. -/
lemma peerKey_writePeer (peer : ℕ) (result other : JObject) :
    peerKey (writePeer peer result) = peerKey (writePeer peer other) := by
  unfold peerKey
  simp only [type_writePeer, id_writePeer]

/-- Printed numbers are ids up to the mask. -/
lemma decimalUpTo_mask (peer : ℕ) :
    decimalUpTo (decimal (peer % 2 ^ 48)) 0xFFFFFFFFFFFF = true ↔ peer % 2 ^ 48 ≠ 0 := by
  rw [decimalUpTo_iff (by norm_num)]
  constructor
  · rintro ⟨value, hne, -, heq⟩
    rw [decimal_injective heq]
    exact hne
  · intro hne
    exact ⟨peer % 2 ^ 48, hne, by omega, rfl⟩

lemma peerType_eq {peer : ℕ} (h : peer / 2 ^ 48 ≤ 2) :
    peerType peer = u "user" ∧ peer / 2 ^ 48 = 0 ∨ peerType peer = u "chat" ∧ peer / 2 ^ 48 = 1 ∨
      peerType peer = u "channel" ∧ peer / 2 ^ 48 = 2 := by
  have hkind : peer / 2 ^ 48 = 0 ∨ peer / 2 ^ 48 = 1 ∨ peer / 2 ^ 48 = 2 := by omega
  unfold peerType
  rcases hkind with hkind | hkind | hkind
  · rw [hkind]
    exact Or.inl ⟨rfl, rfl⟩
  · rw [hkind]
    exact Or.inr (Or.inl ⟨rfl, rfl⟩)
  · rw [hkind]
    exact Or.inr (Or.inr ⟨rfl, rfl⟩)

/-- A valid peer is of one of the three kinds and has an id. -/
lemma validPeer_iff {peer : ℕ} :
    validPeer peer = true ↔ peer / 2 ^ 48 ≤ 2 ∧ peer % 2 ^ 48 ≠ 0 := by
  unfold validPeer
  rw [Bool.and_eq_true, decide_eq_true_eq, decide_eq_true_eq, and_comm]
  refine and_congr_right fun hkind => ?_
  unfold peerKey
  simp only [type_writePeer, id_writePeer]
  rw [← decimalUpTo_mask]
  have htype : ¬(peerType peer ≠ u "user" ∧ peerType peer ≠ u "chat" ∧ peerType peer ≠ u "channel") := by
    rcases peerType_eq hkind with ⟨h, -⟩ | ⟨h, -⟩ | ⟨h, -⟩ <;> simp [h]
  constructor
  · intro h
    by_contra hid
    rw [Bool.not_eq_true] at hid
    exact h (if_pos (Or.inr hid))
  · intro hid
    rw [if_neg (by rw [hid, not_or]; exact ⟨htype, by decide⟩)]
    have hcolon : u ":" ≠ [] := by decide
    simp [hcolon]

/-- **A peer that is written is read back.** -/
theorem readPeer_writePeer {peer : ℕ} (h : validPeer peer = true) (result : JObject) :
    readPeer (writePeer peer result) = peer := by
  obtain ⟨hkind, -⟩ := validPeer_iff.mp h
  have hid : peer % 2 ^ 48 < 2 ^ 48 := Nat.mod_lt _ (by norm_num)
  unfold readPeer
  simp only [type_writePeer, id_writePeer, readNumber_decimal (hid.trans (by norm_num))]
  rcases peerType_eq hkind with ⟨htype, hkind⟩ | ⟨htype, hkind⟩ | ⟨htype, hkind⟩
  · rw [htype, if_pos rfl]
    omega
  · rw [htype, if_neg (by decide), if_pos rfl, or_shift hid]
    omega
  · rw [htype, if_neg (by decide), if_neg (by decide), if_pos rfl, or_shift hid]
    omega

/-- **A peer that is read is the one of its key.** -/
theorem validPeer_readPeer {peer : JObject} (h : peerKey peer ≠ []) (result : JObject) :
    validPeer (readPeer peer) = true ∧ peerKey (writePeer (readPeer peer) result) = peerKey peer := by
  unfold peerKey at h
  dsimp only at h
  split_ifs at h with hvalid
  · exact absurd rfl h
  rw [not_or, Bool.not_eq_false] at hvalid
  obtain ⟨htypes, hdecimal⟩ := hvalid
  obtain ⟨value, hne, hle, hid⟩ := (decimalUpTo_iff (by norm_num)).mp hdecimal
  have hlt : value < 2 ^ 48 := by omega
  have hread : readNumber (Json.asText (peer.find (u "peer_id"))) = value := by
    rw [hid]
    exact readNumber_decimal (hlt.trans (by norm_num))
  have hkinds : ∃ kind ≤ 2, readPeer peer = kind * 2 ^ 48 + value ∧
      peerType (readPeer peer) = Json.asText (peer.find (u "peer_type")) := by
    have hcases : Json.asText (peer.find (u "peer_type")) = u "user" ∨
        Json.asText (peer.find (u "peer_type")) = u "chat" ∨
        Json.asText (peer.find (u "peer_type")) = u "channel" := by tauto
    unfold readPeer
    simp only [hread]
    rcases hcases with htype | htype | htype
    · refine ⟨0, by omega, ?_, ?_⟩
      · rw [htype, if_pos rfl]
        omega
      · rw [htype, if_pos rfl]
        unfold peerType
        rw [if_pos (by omega)]
    · refine ⟨1, by omega, ?_, ?_⟩
      · rw [htype, if_neg (by decide), if_pos rfl, or_shift hlt]
      · rw [htype, if_neg (by decide), if_pos rfl, or_shift hlt]
        unfold peerType
        rw [if_neg (by omega), if_pos (by omega)]
    · refine ⟨2, by omega, ?_, ?_⟩
      · rw [htype, if_neg (by decide), if_neg (by decide), if_pos rfl, or_shift hlt]
      · rw [htype, if_neg (by decide), if_neg (by decide), if_pos rfl, or_shift hlt]
        unfold peerType
        rw [if_neg (by omega), if_neg (by omega), if_pos (by omega)]
  obtain ⟨kind, hkind, hpeer, htype⟩ := hkinds
  have hmod : readPeer peer % 2 ^ 48 = value := by omega
  refine ⟨validPeer_iff.mpr ⟨by omega, by omega⟩, ?_⟩
  unfold peerKey
  simp only [type_writePeer, id_writePeer, htype, hmod, ← hid]

/-! ### Identities -/

/-- `QString::number` of an integer. -/
def number (id : ℤ) : Text := if id < 0 then u "-" ++ decimal id.natAbs else decimal id.natAbs

/-- What a record is about. -/
inductive Key where
  | pin (scope : Text) (peer : ℕ)
  | order (scope : Text)
  | filter (id : ℤ)
  deriving DecidableEq

namespace Key

/-- The text from which the id is told. -/
def name : Key → Text
  | pin scope peer => u "pin:" ++ scope ++ u ":" ++ peerKey (writePeer peer ∅)
  | order scope => u "order:" ++ scope
  | filter id => u "filter:" ++ number id

end Key

/-- The lists of a folder: the folder, and which lists of it are current. -/
def filterScope (id incarnation : Text) : Text := u "filter:" ++ id ++ u ":" ++ incarnation

section Validate

variable (uuidV5 : Bytes → Text) (account : Account)

/-- `StableId`: the UUID of a name, from the account. -/
def stableId (key : Text) : Text :=
  uuidV5 (Utf8.toUtf8 (account.environment ++ u ":" ++ account.userId ++ u ":pinned_items:" ++ key))

/-- `PinId`, `OrderId` and `FilterId`. -/
def Key.id (key : Key) : Text := stableId uuidV5 account key.name

/-- Whether a record of a known kind has what its kind needs, and the id of what it is about. -/
def validRecord (record : JObject) : Bool :=
  let id := Json.asText (record.find (u "id"))
  let kind := Json.asText (record.find (u "kind"))
  let scope := Json.asText (record.find (u "scope"))
  if kind = u "pin" then
    let peer := Json.asObject (record.find (u "peer"))
    validScope scope && peerKey peer ≠ [] &&
      id = stableId uuidV5 account (u "pin:" ++ scope ++ u ":" ++ peerKey peer)
  else if kind = u "order" then
    let keys := (Json.asArray (record.find (u "peers"))).map fun peer => peerKey peer.toObject
    validScope scope && id = stableId uuidV5 account (u "order:" ++ scope) &&
      Json.isArrayValue (record.find (u "peers")) && keys.length ≤ kMaximumOrder &&
      keys.all (· ≠ []) && keys.Nodup
  else if kind = u "filter" then
    let filter := Json.asText (record.find (u "filter_id"))
    validFilterId filter && id = stableId uuidV5 account (u "filter:" ++ filter) &&
      validId (Json.asText (record.find (u "scope_id")))
  else true

/-- Whether a record pins a peer in a list. -/
def pinsIn (scope : Text) (record : JObject) : Bool :=
  Json.asText (record.find (u "kind")) = u "pin" && Json.asText (record.find (u "scope")) = scope &&
    !Json.asBool (record.find (u "deleted"))

/-- The id of a record. -/
def idOf (value : Json) : Text := Json.asText (value.toObject.find (u "id"))

/-- `pinnedCounts` after a record. -/
def countPin (pinnedCounts : OrdMap Text ℕ) (record : JObject) : OrdMap Text ℕ :=
  let scope := Json.asText (record.find (u "scope"))
  if pinsIn scope record then pinnedCounts.insert scope ((pinnedCounts.find scope).getD 0 + 1)
  else pinnedCounts

/-- The records of a module, checked one after the other: the ids that were seen, and how many peers are
pinned in each list. -/
def validateRecords (ids : List Text) (pinnedCounts : OrdMap Text ℕ) : List Json → Bool
  | [] => true
  | value :: rest =>
    let record := value.toObject
    let id := idOf value
    let scope := Json.asText (record.find (u "scope"))
    if validId id = false ∨ id ∈ ids ∨ Json.isBoolValue (record.find (u "deleted")) = false then false
    else if validRecord uuidV5 account record = false then false
    else
      let counts := countPin pinnedCounts record
      if pinsIn scope record = true ∧ (counts.find scope).getD 0 > kMaximumOrder then false
      else validateRecords (id :: ids) counts rest

/-- The records of a module. -/
def recordsOf (module : JObject) : List Json := Json.asArray (module.find (u "records"))

/-- `Validate`. -/
def validate (module : JObject) : Bool :=
  Json.asText (module.find (u "module_id")) = u "pinned_items" &&
    Json.asInt (module.find (u "schema_version")) = 1 &&
    Json.isArrayValue (module.find (u "records")) &&
    validateRecords uuidV5 account [] ∅ (recordsOf module)

/-- Records that are valid together. -/
structure ValidRecords (records : List Json) : Prop where
  nodup : (records.map idOf).Nodup
  each : ∀ value ∈ records, validId (idOf value) = true ∧
    Json.isBoolValue (value.toObject.find (u "deleted")) = true ∧
    validRecord uuidV5 account value.toObject = true
  counts : ∀ scope, records.countP (fun value => pinsIn scope value.toObject) ≤ kMaximumOrder

variable {uuidV5 account}

/-- A record of another list does not pin in this one. -/
lemma scope_of_pinsIn {scope : Text} {record : JObject} (h : pinsIn scope record = true) :
    Json.asText (record.find (u "scope")) = scope := by
  simp only [pinsIn, Bool.and_eq_true, decide_eq_true_eq] at h
  exact h.1.2

lemma find_countPin (counts : OrdMap Text ℕ) (record : JObject) (scope : Text) :
    ((countPin counts record).find scope).getD 0 =
      (counts.find scope).getD 0 + if pinsIn scope record then 1 else 0 := by
  unfold countPin
  dsimp only
  by_cases hpins : pinsIn scope record = true
  · rw [scope_of_pinsIn hpins, if_pos hpins, if_pos hpins, OrdMap.find_insert_self]
    rfl
  · rw [if_neg hpins]
    split_ifs with hown
    · have hne : scope ≠ Json.asText (record.find (u "scope")) := by
        rintro rfl
        exact hpins hown
      rw [OrdMap.find_insert_of_ne hne]
      rfl
    · rfl

/-- The check of the records says what the records are together. -/
lemma validateRecords_iff {ids : List Text} {counts : OrdMap Text ℕ} {records : List Json}
    (hcounts : ∀ scope, (counts.find scope).getD 0 ≤ kMaximumOrder) :
    validateRecords uuidV5 account ids counts records = true ↔
      (records.map idOf).Nodup ∧ (∀ value ∈ records, idOf value ∉ ids) ∧
      (∀ value ∈ records, validId (idOf value) = true ∧
        Json.isBoolValue (value.toObject.find (u "deleted")) = true ∧
        validRecord uuidV5 account value.toObject = true) ∧
      ∀ scope, (counts.find scope).getD 0 + records.countP (fun value => pinsIn scope value.toObject) ≤
        kMaximumOrder := by
  induction records generalizing ids counts with
  | nil => simpa [validateRecords] using hcounts
  | cons value rest ih =>
    unfold validateRecords
    dsimp only
    simp only [List.map_cons, List.nodup_cons, List.forall_mem_cons, List.countP_cons]
    by_cases hfirst : validId (idOf value) = false ∨ idOf value ∈ ids ∨
        Json.isBoolValue (value.toObject.find (u "deleted")) = false
    · rw [if_pos hfirst]
      simp only [Bool.false_eq_true, false_iff, not_and]
      rintro - ⟨hids, -⟩ ⟨⟨hid, hdeleted, -⟩, -⟩
      rcases hfirst with h | h | h
      · rw [h] at hid
        cases hid
      · exact absurd h hids
      · rw [h] at hdeleted
        cases hdeleted
    · rw [if_neg hfirst]
      rw [not_or, not_or, Bool.not_eq_false, Bool.not_eq_false] at hfirst
      obtain ⟨hid, hids, hdeleted⟩ := hfirst
      by_cases hrecord : validRecord uuidV5 account value.toObject = false
      · rw [if_pos hrecord]
        simp [hrecord]
      · rw [if_neg hrecord]
        rw [Bool.not_eq_false] at hrecord
        by_cases hlimit : pinsIn (Json.asText (value.toObject.find (u "scope"))) value.toObject = true ∧
            ((countPin counts value.toObject).find
              (Json.asText (value.toObject.find (u "scope")))).getD 0 > kMaximumOrder
        · rw [if_pos hlimit]
          simp only [Bool.false_eq_true, false_iff, not_and]
          intro _ _ _ hall
          have hone := hall (Json.asText (value.toObject.find (u "scope")))
          rw [find_countPin] at hlimit
          omega
        · rw [if_neg hlimit]
          have hbound : ∀ scope, ((countPin counts value.toObject).find scope).getD 0 ≤
              kMaximumOrder := by
            intro scope
            by_cases hpins : pinsIn scope value.toObject = true
            · rw [scope_of_pinsIn hpins] at hlimit
              exact not_lt.mp fun hlt => hlimit ⟨hpins, hlt⟩
            · rw [find_countPin, if_neg hpins]
              exact hcounts scope
          rw [ih hbound]
          simp only [find_countPin, List.mem_cons, not_or, hid, hdeleted, hrecord, hids,
            not_false_eq_true, true_and, and_self]
          constructor
          · rintro ⟨hnodup, hnot, heach, hcount⟩
            refine ⟨⟨fun hmem => ?_, hnodup⟩, fun other hother => (hnot other hother).2, heach,
              fun scope => ?_⟩
            · obtain ⟨other, hother, heq⟩ := List.mem_map.mp hmem
              exact (hnot other hother).1 heq
            · have := hcount scope
              omega
          · rintro ⟨⟨hfresh, hnodup⟩, hnot, heach, hcount⟩
            refine ⟨hnodup, fun other hother => ⟨fun heq => hfresh ?_, hnot other hother⟩, heach,
              fun scope => ?_⟩
            · rw [← heq]
              exact List.mem_map_of_mem hother
            · have := hcount scope
              omega

/-- **A valid module.** -/
theorem validate_iff {module : JObject} : validate uuidV5 account module = true ↔
    Json.asText (module.find (u "module_id")) = u "pinned_items" ∧
      Json.asInt (module.find (u "schema_version")) = 1 ∧
      Json.isArrayValue (module.find (u "records")) = true ∧
      ValidRecords uuidV5 account (recordsOf module) := by
  unfold validate
  simp only [Bool.and_eq_true, decide_eq_true_eq, and_assoc]
  refine and_congr_right fun _ => and_congr_right fun _ => and_congr_right fun _ => ?_
  rw [validateRecords_iff (fun _ => Nat.zero_le _)]
  constructor
  · rintro ⟨hnodup, -, heach, hcounts⟩
    refine ⟨hnodup, heach, fun scope => ?_⟩
    have := hcounts scope
    omega
  · rintro ⟨hnodup, heach, hcounts⟩
    refine ⟨hnodup, fun _ _ => List.not_mem_nil, heach, fun scope => ?_⟩
    have hzero : ((∅ : OrdMap Text ℕ).find scope).getD 0 = 0 := rfl
    rw [hzero, Nat.zero_add]
    exact hcounts scope

end Validate

end PinnedItems
