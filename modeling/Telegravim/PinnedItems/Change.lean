import Telegravim.PinnedItems.Parse

set_option autoImplicit false

/-!
# Pinned items: changes of a module

What the changes do with the records of a module: `UpdatePin` writes whether a peer is pinned in a list,
`UpdateOrder` puts peers before those of an order, and `PruneOrderPeer` takes a peer out of an order. Each
writes one record, which is the one that `Parse` applies for what it is about.

## Main definitions

* `PinnedItems.mergeOrder`, `PinnedItems.writeOrder` — orders of a list.
* `PinnedItems.updatePin`, `PinnedItems.updateOrder`, `PinnedItems.pruneOrderPeer` — changes of a record.

## Main results

* `PinnedItems.updatePin_spec`, `PinnedItems.updateOrder_spec`, `PinnedItems.pruneOrderPeer_spec` — what
  the changed records show, and that they are valid.
-/

namespace PinnedItems

open Text LocalData

/-! ### Orders -/

/-- One list of `MergeOrder`: the peers that were not seen yet. -/
def mergeList (result : List ℕ) (list : List ℕ) : List ℕ :=
  list.foldl (fun result peer => if peer ∈ result then result else result ++ [peer]) result

/-- `MergeOrder`. -/
def mergeOrder (desired retained : List ℕ) : List ℕ := mergeList (mergeList [] desired) retained

/-- `WriteOrder`: what else is written with a peer is kept. -/
def writeOrder (order : List ℕ) (previous : List Json) : List Json :=
  let preserved := previous.foldl
    (fun (preserved : OrdMap ℕ JObject) value =>
      preserved.emplace (readPeer value.toObject) value.toObject) ∅
  order.map fun peer => Json.ofObject (writePeer peer ((preserved.find peer).getD ∅))

lemma mergeList_spec {result list : List ℕ} (hresult : result.Nodup) :
    (mergeList result list).Nodup ∧
      ∀ peer, peer ∈ mergeList result list ↔ peer ∈ result ∨ peer ∈ list := by
  induction list generalizing result with
  | nil => simpa [mergeList] using hresult
  | cons first rest ih =>
    by_cases hfirst : first ∈ result
    · have hstep : mergeList result (first :: rest) = mergeList result rest := by
        simp [mergeList, hfirst]
      obtain ⟨hnodup, hmem⟩ := ih hresult
      rw [hstep]
      refine ⟨hnodup, fun peer => ?_⟩
      rw [hmem, List.mem_cons]
      constructor
      · tauto
      · rintro (h | rfl | h)
        · exact Or.inl h
        · exact Or.inl hfirst
        · exact Or.inr h
    · have hstep : mergeList result (first :: rest) = mergeList (result ++ [first]) rest := by
        simp [mergeList, hfirst]
      obtain ⟨hnodup, hmem⟩ := ih (hresult.append (List.nodup_singleton first)
        (List.disjoint_singleton.mpr hfirst))
      rw [hstep]
      refine ⟨hnodup, fun peer => ?_⟩
      rw [hmem, List.mem_append, List.mem_singleton, List.mem_cons, or_assoc]

/-- A merged order has each peer once. -/
lemma nodup_mergeOrder (desired retained : List ℕ) : (mergeOrder desired retained).Nodup :=
  (mergeList_spec (mergeList_spec List.nodup_nil).1).1

/-- A merged order has the peers of both. -/
lemma mem_mergeOrder {desired retained : List ℕ} {peer : ℕ} :
    peer ∈ mergeOrder desired retained ↔ peer ∈ desired ∨ peer ∈ retained := by
  unfold mergeOrder
  rw [(mergeList_spec (mergeList_spec List.nodup_nil).1).2, (mergeList_spec List.nodup_nil).2]
  simp

lemma ne_zero_of_validPeer {peer : ℕ} (h : validPeer peer = true) : peer ≠ 0 := by
  rintro rfl
  exact (validPeer_iff.mp h).2 rfl

/-- An order that is written is read back. -/
lemma readOrder_writeOrder {order : List ℕ} (hvalid : ∀ peer ∈ order, validPeer peer = true)
    (previous : List Json) : readOrder (writeOrder order previous) = order := by
  unfold readOrder writeOrder
  rw [List.map_map]
  have hread : ∀ peer ∈ order, ((fun value : Json => readPeer value.toObject) ∘ fun peer =>
      Json.ofObject (writePeer peer (((previous.foldl (fun (preserved : OrdMap ℕ JObject) value =>
        preserved.emplace (readPeer value.toObject) value.toObject) ∅).find peer).getD ∅))) peer =
      id peer := fun peer hpeer => by
    simp only [Function.comp, Json.toObject_ofObject]
    exact readPeer_writePeer (hvalid peer hpeer) _
  rw [List.map_congr_left hread, List.map_id]
  exact List.filter_eq_self.mpr fun peer hpeer =>
    decide_eq_true (ne_zero_of_validPeer (hvalid peer hpeer))

/-- The key of a peer tells its kind and its id. -/
lemma peerKey_eq {peer : JObject} (h : peerKey peer ≠ []) :
    peerKey peer = Json.asText (peer.find (u "peer_type")) ++ u ":" ++
        Json.asText (peer.find (u "peer_id")) ∧
      (Json.asText (peer.find (u "peer_type")) = u "user" ∨
        Json.asText (peer.find (u "peer_type")) = u "chat" ∨
        Json.asText (peer.find (u "peer_type")) = u "channel") := by
  unfold peerKey at h ⊢
  dsimp only at h ⊢
  split_ifs at h ⊢ with hvalid
  · exact absurd rfl h
  · refine ⟨rfl, ?_⟩
    rw [not_or] at hvalid
    tauto

/-- Peers with the same key are the same. -/
lemma readPeer_eq_of_peerKey {peer other : JObject} (hpeer : peerKey peer ≠ [])
    (h : peerKey peer = peerKey other) : readPeer peer = readPeer other := by
  obtain ⟨heq, htype⟩ := peerKey_eq hpeer
  obtain ⟨heq', htype'⟩ := peerKey_eq (h ▸ hpeer)
  rw [heq, heq'] at h
  have huser : u "user" = [117, 115, 101, 114] := by decide
  have hchat : u "chat" = [99, 104, 97, 116] := by decide
  have hchannel : u "channel" = [99, 104, 97, 110, 110, 101, 108] := by decide
  have hsame : Json.asText (peer.find (u "peer_type")) = Json.asText (other.find (u "peer_type")) := by
    have hfour := congrArg (List.take 4) h
    rcases htype with htype | htype | htype <;> rcases htype' with htype' | htype' | htype' <;>
      rw [htype, htype'] at hfour ⊢ <;> simp [huser, hchat, hchannel] at hfour
  have hid : Json.asText (peer.find (u "peer_id")) = Json.asText (other.find (u "peer_id")) := by
    rw [hsame] at h
    exact List.append_cancel_left h
  unfold readPeer
  simp only [hsame, hid]

lemma peerKey_writePeer_ne_nil {peer : ℕ} (h : validPeer peer = true) (result : JObject) :
    peerKey (writePeer peer result) ≠ [] := by
  unfold validPeer at h
  rw [Bool.and_eq_true, decide_eq_true_eq] at h
  rw [peerKey_writePeer peer result ∅]
  exact h.1

/-- Peers have different keys. -/
lemma peerKey_writePeer_injective {peer other : ℕ} (hpeer : validPeer peer = true)
    (hother : validPeer other = true) {first second : JObject}
    (h : peerKey (writePeer peer first) = peerKey (writePeer other second)) : peer = other := by
  rw [← readPeer_writePeer hpeer first, ← readPeer_writePeer hother second]
  exact readPeer_eq_of_peerKey (peerKey_writePeer_ne_nil hpeer first) h

/-- The keys of an order are distinct when its peers are. -/
lemma nodup_keys_iff {values : List Json} (hkeys : ∀ value ∈ values, peerKey value.toObject ≠ []) :
    (values.map fun value => peerKey value.toObject).Nodup ↔
      (values.map fun value => readPeer value.toObject).Nodup := by
  have hpeer : ∀ value ∈ values, (fun value : Json => peerKey value.toObject) value =
      ((fun peer => peerKey (writePeer peer ∅)) ∘ fun value : Json => readPeer value.toObject) value :=
    fun value hvalue => (validPeer_readPeer (hkeys value hvalue) ∅).2.symm
  rw [List.map_congr_left hpeer, ← List.map_map]
  constructor
  · exact List.Nodup.of_map _
  · intro hnodup
    refine hnodup.map_on fun peer hmem other hmem' heq => ?_
    obtain ⟨value, hvalue, rfl⟩ := List.mem_map.mp hmem
    obtain ⟨value', hvalue', rfl⟩ := List.mem_map.mp hmem'
    exact peerKey_writePeer_injective (validPeer_readPeer (hkeys value hvalue) ∅).1
      (validPeer_readPeer (hkeys value' hvalue') ∅).1 heq

/-- The peers of a valid order. -/
lemma readOrder_eq_map {values : List Json} (hkeys : ∀ value ∈ values, peerKey value.toObject ≠ []) :
    readOrder values = values.map fun value => readPeer value.toObject := by
  unfold readOrder
  refine List.filter_eq_self.mpr fun peer hpeer => decide_eq_true ?_
  obtain ⟨value, hvalue, rfl⟩ := List.mem_map.mp hpeer
  exact ne_zero_of_validPeer (validPeer_readPeer (hkeys value hvalue) ∅).1

/-! ### Changes -/

section Changes

variable (uuidV5 : Bytes → Text) (account : Account)

/-- `UpdateOrder`. -/
def updateOrder (records : List Json) (scope : Text) (visible : List ℕ) : Result (List Json) :=
  let id := (Key.order scope).id uuidV5 account
  let index := findRecord records id
  let record := recordAt records index
  let previous := Json.asArray (record.find (u "peers"))
  let order := mergeOrder visible (readOrder previous)
  if order.length > kMaximumOrder then
    failure .invalid "Too many local pinned items in this list."
  else .ok (putRecord records index (((((record.insert (u "id") (.str id)).insert (u "kind")
    (.str (u "order"))).insert (u "scope") (.str scope)).insert (u "deleted") (.bool false)).insert
      (u "peers") (.arr (writeOrder order previous))))

/-- `PruneOrderPeer`. -/
def pruneOrderPeer (records : List Json) (scope : Text) (peer : ℕ) : List Json :=
  match findRecord records ((Key.order scope).id uuidV5 account) with
  | none => records
  | some index =>
    let record := recordAt records (some index)
    let order := (Json.asArray (record.find (u "peers"))).filter fun value =>
      readPeer value.toObject ≠ peer
    putRecord records (some index) (record.insert (u "peers") (.arr order))

/-- The objects of a peer in an order, of which the first is taken. -/
def peerInOrder (records : List Json) (scope : Text) (peer : ℕ) : Option JObject :=
  match findRecord records ((Key.order scope).id uuidV5 account) with
  | none => none
  | some index =>
    ((Json.asArray ((recordAt records (some index)).find (u "peers"))).find? fun value =>
      readPeer value.toObject = peer).map Json.toObject

/-- What is kept of the order of a peer that is unpinned. -/
def retainOrder (record object : JObject) (pinned : Bool) : JObject :=
  if pinned = false ∧ object.entries.length > 2 then
    let retained := Json.asArray (record.find (u "retained_order_peers"))
    record.insert (u "retained_order_peers")
      (.arr (if Json.ofObject object ∈ retained then retained else retained ++ [Json.ofObject object]))
  else record

/-- What else is written with a peer is kept. -/
def retainPeer (peerData object : JObject) : JObject :=
  object.entries.foldl (fun (data : JObject) (entry : Text × Json) =>
    if data.contains entry.1 then data else data.insert entry.1 entry.2) peerData

/-- `UpdatePin`. -/
def updatePin (records : List Json) (scope : Text) (peer : ℕ) (pinned : Bool) : List Json :=
  let id := (Key.pin scope peer).id uuidV5 account
  let index := findRecord records id
  let record := (((recordAt records index).insert (u "id") (.str id)).insert (u "kind")
    (.str (u "pin"))).insert (u "scope") (.str scope)
  let peerData := Json.asObject (record.find (u "peer"))
  let (record, peerData) := match peerInOrder uuidV5 account records scope peer with
    | none => (record, peerData)
    | some object => (retainOrder record object pinned, retainPeer peerData object)
  putRecord records index ((record.insert (u "peer") (Json.ofObject (writePeer peer peerData))).insert
    (u "deleted") (.bool !pinned))

end Changes

/-! ### What changes show -/

section Specs

variable {uuidV5 : Bytes → Text} {account : Account} {records : List Json}

/-- A record with its id, its kind and its list. -/
structure Headed (record : JObject) (id kind scope : Text) : Prop where
  id : record.find (u "id") = some (.str id)
  kind : record.find (u "kind") = some (.str kind)
  scope : record.find (u "scope") = some (.str scope)

/-- Other fields do not change the head. -/
lemma Headed.insert {record : JObject} {id kind scope : Text} (h : Headed record id kind scope) {key : Text}
    (hid : u "id" ≠ key) (hkind : u "kind" ≠ key) (hscope : u "scope" ≠ key) (value : Json) :
    Headed (record.insert key value) id kind scope where
  id := (OrdMap.find_insert_of_ne hid _ _).trans h.id
  kind := (OrdMap.find_insert_of_ne hkind _ _).trans h.kind
  scope := (OrdMap.find_insert_of_ne hscope _ _).trans h.scope

/-- The head that every change writes. -/
lemma headed_insert (record : JObject) (id kind scope : Text) :
    Headed (((record.insert (u "id") (.str id)).insert (u "kind") (.str kind)).insert (u "scope")
      (.str scope)) id kind scope where
  id := by
    rw [OrdMap.find_insert_of_ne (by decide), OrdMap.find_insert_of_ne (by decide),
      OrdMap.find_insert_self]
  kind := by
    rw [OrdMap.find_insert_of_ne (by decide), OrdMap.find_insert_self]
  scope := OrdMap.find_insert_self _ _ _

lemma Headed.fields {record : JObject} {id kind scope : Text} (h : Headed record id kind scope) :
    idOf (Json.ofObject record) = id ∧ kindOf (Json.ofObject record) = kind ∧
      scopeOf (Json.ofObject record) = scope := by
  unfold idOf kindOf scopeOf
  rw [Json.toObject_ofObject, h.id, h.kind, h.scope]
  exact ⟨rfl, rfl, rfl⟩

/-- What keeps the head in `UpdatePin`. -/
lemma headed_retainOrder {record : JObject} {id kind scope : Text} (h : Headed record id kind scope)
    (object : JObject) (pinned : Bool) : Headed (retainOrder record object pinned) id kind scope := by
  unfold retainOrder
  dsimp only
  by_cases hretain : pinned = false ∧ object.entries.length > 2
  · rw [if_pos hretain]
    exact h.insert (by decide) (by decide) (by decide) _
  · rw [if_neg hretain]
    exact h

variable (uuidV5 account) in
/-- What `UpdatePin` puts: a record of the peer in the list, pinned or not. -/
lemma updatePin_eq (records : List Json) (scope : Text) (peer : ℕ) (pinned : Bool) :
    ∃ record peerData, Headed record ((Key.pin scope peer).id uuidV5 account) (u "pin") scope ∧
      updatePin uuidV5 account records scope peer pinned =
        putRecord records (findRecord records ((Key.pin scope peer).id uuidV5 account))
          ((record.insert (u "peer") (Json.ofObject (writePeer peer peerData))).insert (u "deleted")
            (.bool !pinned)) := by
  have hhead := headed_insert (recordAt records (findRecord records ((Key.pin scope peer).id uuidV5 account)))
    ((Key.pin scope peer).id uuidV5 account) (u "pin") scope
  unfold updatePin
  dsimp only
  cases peerInOrder uuidV5 account records scope peer with
  | none => exact ⟨_, _, hhead, rfl⟩
  | some object => exact ⟨_, _, headed_retainOrder hhead object pinned, rfl⟩

/-- **`UpdatePin`** pins or unpins the peer in the list, and the records stay valid. -/
theorem updatePin_spec (hvalid : ValidRecords uuidV5 account records)
    (huuid : ∀ bytes, validId (uuidV5 bytes) = true) {scope : Text} (hscope : validScope scope = true)
    {peer : ℕ} (hpeer : validPeer peer = true) {pinned : Bool}
    (hold : ∀ old ∈ records, idOf old = (Key.pin scope peer).id uuidV5 account →
      Replaceable (.pin scope peer) old)
    (hroom : pinned = true → pinCount scope (records.filter fun old =>
      idOf old ≠ (Key.pin scope peer).id uuidV5 account) < kMaximumOrder) :
    parseRecords (updatePin uuidV5 account records scope peer pinned) =
        (parseRecords records).update scope (fun data =>
          { data with pins := data.pins.insert peer pinned }) ∧
      ValidRecords uuidV5 account (updatePin uuidV5 account records scope peer pinned) ∧
      ∀ value ∈ updatePin uuidV5 account records scope peer pinned,
        identity value = some (.pin scope peer) ∨ value ∈ records := by
  obtain ⟨record, peerData, hhead, heq⟩ := updatePin_eq uuidV5 account records
    scope peer pinned
  rw [heq]
  set value := (record.insert (u "peer") (Json.ofObject (writePeer peer peerData))).insert (u "deleted")
    (.bool !pinned) with hvalue
  have hheaded : Headed value ((Key.pin scope peer).id uuidV5 account) (u "pin") scope :=
    (hhead.insert (by decide) (by decide) (by decide) _).insert (by decide) (by decide) (by decide) _
  obtain ⟨hid, hkind, hscopeOf⟩ := hheaded.fields
  have hobject : peerObject (Json.ofObject value) = writePeer peer peerData := by
    unfold peerObject
    rw [Json.toObject_ofObject, hvalue, OrdMap.find_insert_of_ne (by decide), OrdMap.find_insert_self,
      Json.asObject_ofObject]
  have hpeerOf : peerOf (Json.ofObject value) = peer := by
    have : peerOf (Json.ofObject value) = readPeer (peerObject (Json.ofObject value)) := rfl
    rw [this, hobject, readPeer_writePeer hpeer]
  have hdeleted : value.find (u "deleted") = some (.bool !pinned) := OrdMap.find_insert_self _ _ _
  have hdeletedOf : deletedOf (Json.ofObject value) = !pinned := by
    unfold deletedOf
    rw [Json.toObject_ofObject, hdeleted]
    rfl
  have hidentity : identity (Json.ofObject value) = some (.pin scope peer) := by
    unfold identity
    rw [if_pos hkind, hscopeOf, hpeerOf]
  have hrecord : validRecord uuidV5 account value = true := by
    have := (validRecord_pin uuidV5 account hkind).mpr
      ⟨by rw [hscopeOf]; exact hscope, by rw [hobject]; exact peerKey_writePeer_ne_nil hpeer _, by
        rw [hscopeOf, hpeerOf]; exact hid⟩
    rwa [Json.toObject_ofObject] at this
  refine ⟨?_, ?_, ?_⟩
  · rcases record_cases (Json.ofObject value) with ⟨-, hkey, happly⟩ | ⟨hother, -⟩ | ⟨hother, -⟩ |
      ⟨hother, -⟩
    · rw [hscopeOf, hpeerOf] at hkey
      rw [parse_putRecord hvalid hkey hold, happly, hscopeOf, hpeerOf, hdeletedOf, Bool.not_not]
    · rw [hkind] at hother
      exact absurd hother (by decide)
    · rw [hkind] at hother
      exact absurd hother (by decide)
    · exact absurd hkind hother
  · refine hvalid.putRecord hid (huuid _) ?_ hrecord fun other hpins => ?_
    · rw [hdeleted]
      rfl
    · have hother := scope_of_pinsIn hpins
      rw [hheaded.scope, Json.asText_str] at hother
      subst hother
      refine hroom ?_
      unfold pinsIn at hpins
      rw [hdeleted, Json.asBool_bool, Bool.not_not] at hpins
      simp only [Bool.and_eq_true] at hpins
      exact hpins.2
  · intro other hother
    rcases mem_putRecord hother with rfl | hmem
    · exact Or.inl hidentity
    · exact Or.inr hmem

/-- The peers of an active order are valid. -/
lemma validPeer_of_order (hvalid : ValidRecords uuidV5 account records) {value : Json}
    (hvalue : value ∈ records) {scope : Text} (hidentity : identity value = some (.order scope)) :
    ∀ peer ∈ readOrder (peersOf value), validPeer peer = true := by
  intro peer hpeer
  have hkind : kindOf value = u "order" := by
    rcases identity_cases value with ⟨-, h⟩ | ⟨hkind, -⟩ | ⟨-, h⟩ | h
    · rw [hidentity] at h
      cases h
    · exact hkind
    · rw [hidentity] at h
      cases h
    · rw [hidentity] at h
      cases h
  obtain ⟨-, -, -, -, hkeys, -⟩ := (validRecord_order uuidV5 account hkind).mp (hvalid.each value hvalue).2.2
  rw [readOrder_eq_map hkeys] at hpeer
  obtain ⟨object, hobject, rfl⟩ := List.mem_map.mp hpeer
  exact (validPeer_readPeer (hkeys object hobject) ∅).1

/-- An order as it is stored under its id: what the list shows, unless the record is not an active order,
which shows nothing. -/
lemma readOrder_recordAt (hvalid : ValidRecords uuidV5 account records) {scope : Text}
    (hold : ∀ old ∈ records, idOf old = (Key.order scope).id uuidV5 account →
      Replaceable (.order scope) old)
    (hinactive : ∀ old ∈ records, idOf old = (Key.order scope).id uuidV5 account → keyOf old = none →
      readOrder (peersOf old) = []) :
    readOrder (Json.asArray ((recordAt records (findRecord records
      ((Key.order scope).id uuidV5 account))).find (u "peers"))) =
        ((parseRecords records).scope scope).order ∧
      ∀ peer ∈ ((parseRecords records).scope scope).order, validPeer peer = true := by
  have hsets : ∀ value ∈ records, keyOf value = some (.order scope) →
      idOf value = (Key.order scope).id uuidV5 account := fun value hvalue hkey =>
    idOf_of_identity (hvalid.each value hvalue).2.2 (identity_of_keyOf hkey)
  rcases findRecord_cases records ((Key.order scope).id uuidV5 account) with ⟨hnone, hrecord, -⟩ |
    ⟨first, old, rest, hrecords, hid, hrecord, -⟩
  · have hshown : ((parseRecords records).scope scope).order = [] :=
      order_parse_none fun value hvalue hkey => hnone value hvalue (hsets value hvalue hkey)
    rw [hshown, hrecord]
    exact ⟨rfl, by simp⟩
  · have hmem : old ∈ records := by simp [hrecords]
    rw [hrecord]
    rcases (hold old hmem hid).keyOf with hkey | hkey
    · have hshown := order_parse hvalid hmem hkey
      rw [hshown]
      exact ⟨rfl, validPeer_of_order hvalid hmem (identity_of_keyOf hkey)⟩
    · have hshown : ((parseRecords records).scope scope).order = [] := by
        refine order_parse_none fun value hvalue hother => ?_
        have hsame : value = old :=
          List.inj_on_of_nodup_map hvalid.nodup hvalue hmem ((hsets value hvalue hother).trans hid.symm)
        rw [hsame, hkey] at hother
        cases hother
      rw [hshown]
      exact ⟨hinactive old hmem hid hkey, by simp⟩

/-- **`UpdateOrder`** puts the peers before those of the order, and the records stay valid. -/
theorem updateOrder_spec (hvalid : ValidRecords uuidV5 account records)
    (huuid : ∀ bytes, validId (uuidV5 bytes) = true) {scope : Text} (hscope : validScope scope = true)
    {visible : List ℕ} (hvisible : ∀ peer ∈ visible, validPeer peer = true)
    (hold : ∀ old ∈ records, idOf old = (Key.order scope).id uuidV5 account →
      Replaceable (.order scope) old)
    (hinactive : ∀ old ∈ records, idOf old = (Key.order scope).id uuidV5 account → keyOf old = none →
      readOrder (peersOf old) = [])
    {changed : List Json} (hok : updateOrder uuidV5 account records scope visible = .ok changed) :
    parseRecords changed = (parseRecords records).update scope (fun data =>
        { data with order := mergeOrder visible data.order }) ∧
      ValidRecords uuidV5 account changed ∧
      ∀ value ∈ changed, identity value = some (.order scope) ∨ value ∈ records := by
  obtain ⟨hprevious, hshown⟩ := readOrder_recordAt hvalid hold hinactive
  unfold updateOrder at hok
  dsimp only at hok
  rw [hprevious, check_ok (by simp), Except.ok.injEq] at hok
  obtain ⟨hlength, rfl⟩ := hok
  set previous := Json.asArray ((recordAt records (findRecord records
    ((Key.order scope).id uuidV5 account))).find (u "peers"))
  set order := mergeOrder visible ((parseRecords records).scope scope).order with horder
  have hpeers : ∀ peer ∈ order, validPeer peer = true := fun peer hpeer =>
    (mem_mergeOrder.mp hpeer).elim (hvisible peer) (hshown peer)
  have hhead := headed_insert (recordAt records (findRecord records ((Key.order scope).id uuidV5 account)))
    ((Key.order scope).id uuidV5 account) (u "order") scope
  set headed := (((recordAt records (findRecord records ((Key.order scope).id uuidV5 account))).insert
    (u "id") (.str ((Key.order scope).id uuidV5 account))).insert (u "kind") (.str (u "order"))).insert
      (u "scope") (.str scope)
  set value := (headed.insert (u "deleted") (.bool false)).insert (u "peers")
    (.arr (writeOrder order previous)) with hvalue
  have hheaded : Headed value ((Key.order scope).id uuidV5 account) (u "order") scope :=
    (hhead.insert (by decide) (by decide) (by decide) _).insert (by decide) (by decide) (by decide) _
  obtain ⟨hid, hkind, hscopeOf⟩ := hheaded.fields
  have hdeleted : value.find (u "deleted") = some (.bool false) := by
    rw [hvalue, OrdMap.find_insert_of_ne (by decide), OrdMap.find_insert_self]
  have hdeletedOf : deletedOf (Json.ofObject value) = false := by
    unfold deletedOf
    rw [Json.toObject_ofObject, hdeleted]
    rfl
  have hwritten : (Json.ofObject value).toObject.find (u "peers") =
      some (.arr (writeOrder order previous)) := by
    rw [Json.toObject_ofObject]
    exact OrdMap.find_insert_self _ _ _
  have hpeersOf : peersOf (Json.ofObject value) = writeOrder order previous := by
    unfold peersOf
    rw [hwritten, Json.asArray_arr]
  have hkeys : ∀ object ∈ writeOrder order previous, peerKey object.toObject ≠ [] := by
    intro object hobject
    unfold writeOrder at hobject
    obtain ⟨peer, hpeer, rfl⟩ := List.mem_map.mp hobject
    rw [Json.toObject_ofObject]
    exact peerKey_writePeer_ne_nil (hpeers peer hpeer) _
  have hread := readOrder_writeOrder hpeers previous
  have hrecord : validRecord uuidV5 account value = true := by
    have := (validRecord_order uuidV5 account hkind).mpr
      ⟨by rw [hscopeOf]; exact hscope, by rw [hscopeOf]; exact hid, by rw [hwritten]; rfl, by
        rw [hpeersOf]
        unfold writeOrder
        rw [List.length_map]
        omega, by rw [hpeersOf]; exact hkeys, by
        rw [hpeersOf, nodup_keys_iff hkeys, ← readOrder_eq_map hkeys, hread]
        exact nodup_mergeOrder _ _⟩
    rwa [Json.toObject_ofObject] at this
  refine ⟨?_, ?_, ?_⟩
  · have hkey : keyOf (Json.ofObject value) = some (.order scope) := by
      unfold keyOf identity
      rw [if_neg (by rw [hdeletedOf]; simp), hkind, hscopeOf]
      rfl
    have happly : ∀ state, applyRecord state (Json.ofObject value) =
        state.update scope fun data => { data with order := order } := by
      intro state
      unfold applyRecord
      rw [hkind, if_neg (by decide), if_pos ⟨rfl, hdeletedOf⟩, hscopeOf, hpeersOf, hread]
    rw [parse_putRecord hvalid hkey hold, happly]
    exact State.update_congr _ rfl
  · refine hvalid.putRecord hid (huuid _) ?_ hrecord fun other hpins => ?_
    · rw [hdeleted]
      rfl
    · simp only [pinsIn, hheaded.kind, Json.asText_str, Bool.and_eq_true, decide_eq_true_eq] at hpins
      exact absurd hpins.1.1 (by decide)
  · intro other hother
    rcases mem_putRecord hother with rfl | hmem
    · left
      unfold identity
      rw [hkind, hscopeOf]
      rfl
    · exact Or.inr hmem

/-- A record with other peers: what it is about stays. -/
lemma fields_insert_peers (record : Json) (peers : List Json) :
    idOf (Json.ofObject (record.toObject.insert (u "peers") (.arr peers))) = idOf record ∧
      kindOf (Json.ofObject (record.toObject.insert (u "peers") (.arr peers))) = kindOf record ∧
      scopeOf (Json.ofObject (record.toObject.insert (u "peers") (.arr peers))) = scopeOf record ∧
      deletedOf (Json.ofObject (record.toObject.insert (u "peers") (.arr peers))) = deletedOf record ∧
      peersOf (Json.ofObject (record.toObject.insert (u "peers") (.arr peers))) = peers := by
  unfold idOf kindOf scopeOf deletedOf peersOf
  rw [Json.toObject_ofObject, OrdMap.find_insert_self, OrdMap.find_insert_of_ne (by decide),
    OrdMap.find_insert_of_ne (by decide), OrdMap.find_insert_of_ne (by decide),
    OrdMap.find_insert_of_ne (by decide)]
  exact ⟨rfl, rfl, rfl, rfl, rfl⟩

lemma readOrder_filter (values : List Json) (peer : ℕ) :
    readOrder (values.filter fun value => readPeer value.toObject ≠ peer) =
      (readOrder values).filter (· ≠ peer) := by
  unfold readOrder
  simp only [List.filter_map, List.filter_filter, Function.comp_def, Bool.and_comm]

/-- **`PruneOrderPeer`** takes the peer out of the order, and the records stay valid. -/
theorem pruneOrderPeer_spec (hvalid : ValidRecords uuidV5 account records) {scope : Text} (peer : ℕ)
    (hold : ∀ old ∈ records, idOf old = (Key.order scope).id uuidV5 account →
      Replaceable (.order scope) old)
    {data : Scope} (hdata : (parseRecords records).scopes.find scope = some data) :
    parseRecords (pruneOrderPeer uuidV5 account records scope peer) =
        (parseRecords records).update scope (fun data =>
          { data with order := data.order.filter (· ≠ peer) }) ∧
      ValidRecords uuidV5 account (pruneOrderPeer uuidV5 account records scope peer) ∧
      ∀ value ∈ pruneOrderPeer uuidV5 account records scope peer,
        (∃ old ∈ records, idOf old = (Key.order scope).id uuidV5 account ∧
          identity value = identity old ∧ scopeOf value = scopeOf old ∧ keyOf value = keyOf old) ∨
          value ∈ records := by
  have hscope : (parseRecords records).scope scope = data := by
    unfold State.scope
    rw [hdata, Option.getD_some]
  have hsets : ∀ value ∈ records, keyOf value = some (.order scope) →
      idOf value = (Key.order scope).id uuidV5 account := fun value hvalue hkey =>
    idOf_of_identity (hvalid.each value hvalue).2.2 (identity_of_keyOf hkey)
  unfold pruneOrderPeer
  rcases findRecord_cases records ((Key.order scope).id uuidV5 account) with ⟨hnone, -, hfind⟩ |
    ⟨first, old, rest, hrecords, hid, hrecord, hfind⟩
  · rw [hfind]
    have hshown : ((parseRecords records).scope scope).order = [] :=
      order_parse_none fun value hvalue hkey => hnone value hvalue (hsets value hvalue hkey)
    rw [hscope] at hshown
    refine ⟨(State.update_eq_self _ hdata ?_).symm, hvalid, fun value hvalue => Or.inr hvalue⟩
    rw [hshown, List.filter_nil, ← hshown]
  · have hmem : old ∈ records := by simp [hrecords]
    rw [hfind] at hrecord
    rw [hfind]
    dsimp only
    rw [hrecord, ← hfind]
    set peers := (Json.asArray (old.toObject.find (u "peers"))).filter fun value =>
      readPeer value.toObject ≠ peer with hpeers
    have hsub : peers.Sublist (peersOf old) := List.filter_sublist
    obtain ⟨hidOf, hkindOf, hscopeOf, hdeletedOf, hpeersOf⟩ := fields_insert_peers old peers
    set value := old.toObject.insert (u "peers") (.arr peers) with hvalue
    have hnotPin : kindOf old ≠ u "pin" := by
      intro hkind
      rcases hold old hmem hid with h | h <;> unfold identity at h <;> rw [if_pos hkind] at h <;> cases h
    have hnotFilter : kindOf old ≠ u "filter" := by
      intro hkind
      rcases hold old hmem hid with h | h <;> unfold identity at h <;> rw [hkind] at h <;> cases h
    have hidentity : identity (Json.ofObject value) = identity old := by
      unfold identity
      rw [hkindOf, hscopeOf, if_neg hnotPin, if_neg hnotPin, if_neg hnotFilter, if_neg hnotFilter]
    have hkeyOf : keyOf (Json.ofObject value) = keyOf old := by
      unfold keyOf
      rw [hidentity, hkindOf, hdeletedOf]
    have hrecordValid : validRecord uuidV5 account value = true := by
      rcases hold old hmem hid with h | h
      · have hkind : kindOf old = u "order" := by
          rcases identity_cases old with ⟨hkind, -⟩ | ⟨hkind, -⟩ | ⟨hkind, -⟩ | h'
          · exact absurd hkind hnotPin
          · exact hkind
          · exact absurd hkind hnotFilter
          · rw [h] at h'
            cases h'
        obtain ⟨hscopeValid, hidValid, -, hlength, hkeys, hnodup⟩ :=
          (validRecord_order uuidV5 account hkind).mp (hvalid.each old hmem).2.2
        have := (validRecord_order uuidV5 account
          (show kindOf (Json.ofObject value) = u "order" by rw [hkindOf, hkind])).mpr
          ⟨by rw [hscopeOf]; exact hscopeValid, by rw [hidOf, hscopeOf]; exact hidValid, by
            rw [Json.toObject_ofObject, hvalue, OrdMap.find_insert_self]
            rfl, by
            rw [hpeersOf]
            exact hsub.length_le.trans hlength, by
            rw [hpeersOf]
            exact fun object hobject => hkeys object (hsub.mem hobject), by
            rw [hpeersOf]
            exact hnodup.sublist (hsub.map _)⟩
        rwa [Json.toObject_ofObject] at this
      · have := validRecord_other uuidV5 account (hidentity.trans h)
        rwa [Json.toObject_ofObject] at this
    refine ⟨?_, ?_, ?_⟩
    · rcases (hold old hmem hid).keyOf with hkey | hkey
      · have hshown := order_parse hvalid hmem hkey
        have hkind : kindOf old = u "order" ∧ deletedOf old = false ∧ scopeOf old = scope := by
          rcases record_cases old with ⟨h, -⟩ | ⟨h, hdeleted, hkv, -⟩ | ⟨h, -⟩ | ⟨-, -, h, -⟩
          · exact absurd h hnotPin
          · rw [hkey, Option.some.injEq, Key.order.injEq] at hkv
            exact ⟨h, hdeleted, hkv.symm⟩
          · exact absurd h hnotFilter
          · rw [hkey] at h
            cases h
        rw [parse_putRecord hvalid (hkeyOf.trans hkey) hold]
        unfold applyRecord
        rw [hkindOf, hkind.1, hdeletedOf, if_neg (by decide), if_pos ⟨rfl, hkind.2.1⟩, hscopeOf,
          hkind.2.2, hpeersOf]
        refine State.update_congr _ ?_
        rw [hshown, hpeers, readOrder_filter]
        rfl
      · have hshown : ((parseRecords records).scope scope).order = [] := by
          refine order_parse_none fun value hvalue hother => ?_
          have hsame : value = old := List.inj_on_of_nodup_map hvalid.nodup hvalue hmem
            ((hsets value hvalue hother).trans hid.symm)
          rw [hsame, hkey] at hother
          cases hother
        rw [hscope] at hshown
        rw [parse_putRecord_none (hkeyOf.trans hkey) fun other hother hsame => ?_]
        · refine (State.update_eq_self _ hdata ?_).symm
          rw [hshown, List.filter_nil, ← hshown]
        · rwa [List.inj_on_of_nodup_map hvalid.nodup hother hmem (hsame.trans hid.symm)]
    · obtain ⟨hvalidId, hbool, -⟩ := hvalid.each old hmem
      refine hvalid.putRecord (hidOf.trans hid) (hid ▸ hvalidId) ?_ hrecordValid fun other hpins => ?_
      · rw [hvalue, OrdMap.find_insert_of_ne (by decide)]
        exact hbool
      · have hkind : kindOf (Json.ofObject value) = u "pin" := by
          unfold kindOf
          rw [Json.toObject_ofObject]
          simp only [pinsIn, Bool.and_eq_true, decide_eq_true_eq] at hpins
          exact hpins.1.1
        exact absurd (hkindOf.symm.trans hkind) hnotPin
    · intro other hother
      rcases mem_putRecord hother with rfl | hmem'
      · exact Or.inl ⟨old, hmem, hid, hidentity, hscopeOf, hkeyOf⟩
      · exact Or.inr hmem'

end Specs

end PinnedItems
