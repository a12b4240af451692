import Telegravim.Foundation.KeyedFold
import Telegravim.PinnedItems.Format

set_option autoImplicit false

/-!
# Pinned items: what a module shows

`Parse` goes through the records of a module and sets what each of them says. The ids of a valid module are
distinct and tell what a record is about, so no record overwrites another, and a record that is put in the
place of another is applied to what the module showed before.

## Main definitions

* `PinnedItems.State`, `PinnedItems.parse` — what a module shows.
* `PinnedItems.identity`, `PinnedItems.keyOf` — what a record is about, and what it sets.
* `PinnedItems.findRecord`, `PinnedItems.putRecord` — a record by its id.

## Main results

* `PinnedItems.parse_putRecord` — a record that is put is applied to what was shown.
* `PinnedItems.ValidRecords.putRecord` — valid records stay valid.
-/

namespace PinnedItems

open Text LocalData

/-! ### States -/

structure Scope where
  pins : OrdMap ℕ Bool := ∅
  order : List ℕ := []

structure Filter where
  incarnation : Text
  deleted : Bool

structure State where
  scopes : OrdMap Text Scope := ∅
  filters : OrdMap ℤ Filter := ∅

namespace State

/-- A list of a state; a new one is empty. -/
def scope (state : State) (scope : Text) : Scope := (state.scopes.find scope).getD {}

/-- Change a list. -/
def update (state : State) (scope : Text) (change : Scope → Scope) : State :=
  { state with scopes := state.scopes.insert scope (change (state.scope scope)) }

def setFilter (state : State) (id : ℤ) (filter : Filter) : State :=
  { state with filters := state.filters.insert id filter }

variable (state : State)

@[simp] lemma scope_update_self (scope : Text) (change : Scope → Scope) :
    (state.update scope change).scope scope = change (state.scope scope) := by
  simp [update, State.scope]

lemma scope_update_of_ne {scope other : Text} (h : other ≠ scope) (change : Scope → Scope) :
    (state.update scope change).scope other = state.scope other := by
  simp [update, State.scope, OrdMap.find_insert_of_ne h]

@[simp] lemma filters_update (scope : Text) (change : Scope → Scope) :
    (state.update scope change).filters = state.filters := rfl

@[simp] lemma update_update (scope : Text) (first second : Scope → Scope) :
    (state.update scope first).update scope second = state.update scope (second ∘ first) := by
  simp [update, State.scope, OrdMap.insert_insert]

lemma update_comm {scope other : Text} (h : scope ≠ other) (first second : Scope → Scope) :
    (state.update scope first).update other second = (state.update other second).update scope first := by
  simp only [update, State.scope, OrdMap.find_insert_of_ne h, OrdMap.find_insert_of_ne h.symm]
  rw [OrdMap.insert_comm h]

lemma update_congr {scope : Text} {first second : Scope → Scope}
    (h : first (state.scope scope) = second (state.scope scope)) :
    state.update scope first = state.update scope second := by
  unfold update
  rw [h]

/-- Changing nothing in a list that is there. -/
lemma update_eq_self {scope : Text} {change : Scope → Scope} {data : Scope}
    (hdata : state.scopes.find scope = some data) (h : change data = data) :
    state.update scope change = state := by
  unfold update State.scope
  rw [hdata, Option.getD_some, h, OrdMap.insert_find hdata]

end State

/-! ### Records -/

/-- `toInt` of a text: a number of 32 bits with a sign; zero when it is none. -/
def toInt (text : Text) : ℤ :=
  let trimmed := ((text.dropWhile isSpace).reverse.dropWhile isSpace).reverse
  if trimmed.head? = some 45 then
    let value := (toULongLong (trimmed.drop 1)).getD 0
    if value ≤ 2 ^ 31 then -value else 0
  else if readNumber text < 2 ^ 31 then readNumber text else 0

/-- `ReadOrder`: the peers of a list that are peers. -/
def readOrder (values : List Json) : List ℕ :=
  (values.map fun value => readPeer value.toObject).filter (· ≠ 0)

/-- The fields of a record. -/
def kindOf (value : Json) : Text := Json.asText (value.toObject.find (u "kind"))

def scopeOf (value : Json) : Text := Json.asText (value.toObject.find (u "scope"))

def deletedOf (value : Json) : Bool := Json.asBool (value.toObject.find (u "deleted"))

def peerOf (value : Json) : ℕ := readPeer (Json.asObject (value.toObject.find (u "peer")))

def peersOf (value : Json) : List Json := Json.asArray (value.toObject.find (u "peers"))

def filterOf (value : Json) : ℤ := toInt (Json.asText (value.toObject.find (u "filter_id")))

def incarnationOf (value : Json) : Text := Json.asText (value.toObject.find (u "scope_id"))

/-- Apply a record. -/
def applyRecord (state : State) (value : Json) : State :=
  if kindOf value = u "pin" then
    state.update (scopeOf value) fun data =>
      { data with pins := data.pins.insert (peerOf value) (!deletedOf value) }
  else if kindOf value = u "order" ∧ deletedOf value = false then
    state.update (scopeOf value) fun data => { data with order := readOrder (peersOf value) }
  else if kindOf value = u "filter" then
    state.setFilter (filterOf value) ⟨incarnationOf value, deletedOf value⟩
  else state

/-- What records show, one after the other. -/
def parseRecords (records : List Json) : State := records.foldl applyRecord {}

/-- `Parse`. -/
def parse (module : JObject) : State := parseRecords (recordsOf module)

/-- What a record is about; records of other kinds are about nothing known. -/
def identity (value : Json) : Option Key :=
  if kindOf value = u "pin" then some (.pin (scopeOf value) (peerOf value))
  else if kindOf value = u "order" then some (.order (scopeOf value))
  else if kindOf value = u "filter" then some (.filter (filterOf value))
  else none

/-- What a record sets: the order of a list that is deleted sets nothing. -/
def keyOf (value : Json) : Option Key :=
  if kindOf value = u "order" ∧ deletedOf value = true then none else identity value

lemma identity_of_keyOf {value : Json} {key : Key} (h : keyOf value = some key) :
    identity value = some key := by
  unfold keyOf at h
  split_ifs at h
  exact h

/-- The cases of a record: what it is, what it sets, and how it is applied. -/
lemma record_cases (value : Json) :
    (kindOf value = u "pin" ∧ keyOf value = some (.pin (scopeOf value) (peerOf value)) ∧
      ∀ state, applyRecord state value = state.update (scopeOf value) fun data =>
        { data with pins := data.pins.insert (peerOf value) (!deletedOf value) }) ∨
    (kindOf value = u "order" ∧ deletedOf value = false ∧ keyOf value = some (.order (scopeOf value)) ∧
      ∀ state, applyRecord state value = state.update (scopeOf value) fun data =>
        { data with order := readOrder (peersOf value) }) ∨
    (kindOf value = u "filter" ∧ keyOf value = some (.filter (filterOf value)) ∧
      ∀ state, applyRecord state value =
        state.setFilter (filterOf value) ⟨incarnationOf value, deletedOf value⟩) ∨
    (kindOf value ≠ u "pin" ∧ kindOf value ≠ u "filter" ∧ keyOf value = none ∧
      ∀ state, applyRecord state value = state) := by
  unfold keyOf identity applyRecord
  by_cases hpin : kindOf value = u "pin"
  · left
    rw [hpin]
    exact ⟨rfl, by rw [if_neg (by rintro ⟨h, -⟩; exact absurd h (by decide)), if_pos rfl],
      fun state => by rw [if_pos rfl]⟩
  right
  by_cases horder : kindOf value = u "order"
  · cases hdeleted : deletedOf value with
    | false =>
      left
      rw [horder]
      exact ⟨rfl, rfl, by rw [if_neg (by simp), if_neg (by decide), if_pos rfl],
        fun state => by rw [if_neg (by decide), if_pos ⟨rfl, rfl⟩]⟩
    | true =>
      right
      right
      rw [horder]
      exact ⟨by decide, by decide, by rw [if_pos ⟨rfl, rfl⟩], fun state => by
        rw [if_neg (by decide), if_neg (by simp), if_neg (by decide)]⟩
  right
  by_cases hfilter : kindOf value = u "filter"
  · left
    rw [hfilter]
    exact ⟨rfl, by rw [if_neg (by rintro ⟨h, -⟩; exact absurd h (by decide)), if_neg (by decide),
      if_neg (by decide), if_pos rfl], fun state => by
        rw [if_neg (by decide), if_neg (by rintro ⟨h, -⟩; exact absurd h (by decide)), if_pos rfl]⟩
  · right
    exact ⟨hpin, hfilter, by rw [if_neg (fun h => horder h.1), if_neg hpin, if_neg horder,
      if_neg hfilter], fun state => by rw [if_neg hpin, if_neg fun h => horder h.1, if_neg hfilter]⟩

/-- Records only set what is theirs. -/
lemma keyedFold : KeyedFold applyRecord keyOf where
  comm := by
    intro state v w k k' hv hw hne
    rcases record_cases v with ⟨-, hkv, hav⟩ | ⟨-, -, hkv, hav⟩ | ⟨-, hkv, hav⟩ | ⟨-, -, hkv, -⟩ <;>
      rcases record_cases w with ⟨-, hkw, haw⟩ | ⟨-, -, hkw, haw⟩ | ⟨-, hkw, haw⟩ | ⟨-, -, hkw, -⟩ <;>
      rw [hv] at hkv <;> rw [hw] at hkw <;> cases hkv <;> cases hkw <;> simp only [hav, haw]
    · -- two pins
      by_cases hscope : scopeOf v = scopeOf w
      · have hpeer : peerOf v ≠ peerOf w := fun heq => hne (by rw [hscope, heq])
        rw [hscope, State.update_update, State.update_update]
        congr 1
        funext data
        simp [OrdMap.insert_comm hpeer]
      · exact State.update_comm _ hscope _ _
    · by_cases hscope : scopeOf v = scopeOf w
      · rw [hscope, State.update_update, State.update_update]
        rfl
      · exact State.update_comm _ hscope _ _
    · rfl
    · by_cases hscope : scopeOf v = scopeOf w
      · rw [hscope, State.update_update, State.update_update]
        rfl
      · exact State.update_comm _ hscope _ _
    · exact State.update_comm _ (fun heq => hne (by rw [heq])) _ _
    · rfl
    · rfl
    · rfl
    · have hid : filterOf v ≠ filterOf w := fun heq => hne (by rw [heq])
      simp [State.setFilter, OrdMap.insert_comm hid]
  absorb := by
    intro state v w k hv hw
    rcases record_cases v with ⟨-, hkv, hav⟩ | ⟨-, -, hkv, hav⟩ | ⟨-, hkv, hav⟩ | ⟨-, -, hkv, -⟩ <;>
      rcases record_cases w with ⟨-, hkw, haw⟩ | ⟨-, -, hkw, haw⟩ | ⟨-, hkw, haw⟩ | ⟨-, -, hkw, -⟩ <;>
      rw [hv] at hkv <;> rw [hw, hkv] at hkw <;> simp only [Option.some.injEq, reduceCtorEq, Key.pin.injEq,
        Key.order.injEq, Key.filter.injEq] at hkw hkv
    · rw [haw, haw, hav, hkw.1, hkw.2, State.update_update]
      congr 1
      funext data
      simp [OrdMap.insert_insert]
    · rw [haw, haw, hav, hkw, State.update_update]
      rfl
    · rw [haw, haw, hav, hkw]
      simp [State.setFilter, OrdMap.insert_insert]
  skip := by
    intro state v hv
    rcases record_cases v with ⟨-, hkv, -⟩ | ⟨-, -, hkv, -⟩ | ⟨-, hkv, -⟩ | ⟨-, -, -, hav⟩
    · rw [hv] at hkv
      cases hkv
    · rw [hv] at hkv
      cases hkv
    · rw [hv] at hkv
      cases hkv
    · exact hav state

/-! ### Records by their ids -/

/-- `FindRecord`. -/
def findRecord (records : List Json) (id : Text) : Option ℕ :=
  records.findIdx? fun value => idOf value = id

/-- The record at an index; a new one is empty. -/
def recordAt (records : List Json) (index : Option ℕ) : JObject :=
  match index.bind (records[·]?) with
  | none => ∅
  | some value => value.toObject

/-- `PutRecord`. -/
def putRecord (records : List Json) (index : Option ℕ) (value : JObject) : List Json :=
  match index with
  | none => records ++ [Json.ofObject value]
  | some index => records.set index (Json.ofObject value)

/-- Where the record with an id is: nowhere, or between others. -/
lemma findRecord_cases (records : List Json) (id : Text) :
    ((∀ value ∈ records, idOf value ≠ id) ∧ recordAt records (findRecord records id) = ∅ ∧
      findRecord records id = none) ∨
    ∃ first old rest, records = first ++ old :: rest ∧ idOf old = id ∧
      recordAt records (findRecord records id) = old.toObject ∧
      findRecord records id = some first.length := by
  cases hfind : findRecord records id with
  | none =>
    left
    refine ⟨fun value hvalue heq => ?_, rfl, rfl⟩
    have := List.findIdx?_eq_none_iff.mp hfind value hvalue
    rw [decide_eq_false_iff_not] at this
    exact this heq
  | some index =>
    right
    obtain ⟨hindex, hid, -⟩ := List.findIdx?_eq_some_iff_getElem.mp hfind
    refine ⟨records.take index, records[index], records.drop (index + 1), ?_,
      of_decide_eq_true hid, ?_, ?_⟩
    · rw [List.getElem_cons_drop, List.take_append_drop]
    · simp [recordAt, hindex]
    · rw [List.length_take, min_eq_left hindex.le]

lemma putRecord_some (first rest : List Json) (old : Json) (value : JObject) :
    putRecord (first ++ old :: rest) (some first.length) value =
      first ++ Json.ofObject value :: rest := by
  simp [putRecord]

/-- What is put is among the records, and the others stay. -/
lemma mem_putRecord {records : List Json} {id : Text} {value : JObject} {other : Json}
    (h : other ∈ putRecord records (findRecord records id) value) :
    other = Json.ofObject value ∨ other ∈ records := by
  rcases findRecord_cases records id with ⟨-, -, hfind⟩ | ⟨first, old, rest, hrecords, -, -, hfind⟩
  · rw [hfind] at h
    rcases List.mem_append.mp h with hmem | hmem
    · exact Or.inr hmem
    · exact Or.inl (List.mem_singleton.mp hmem)
  · rw [hfind, hrecords, putRecord_some] at h
    rw [hrecords]
    simp only [List.mem_append, List.mem_cons] at h ⊢
    tauto

section Valid

variable {uuidV5 : Bytes → Text} {account : Account} {records : List Json}

/-- The filter of a valid text. -/
lemma toInt_of_validFilterId {id : Text} (h : validFilterId id = true) :
    0 < toInt id ∧ toInt id < 2 ^ 31 ∧ number (toInt id) = id := by
  obtain ⟨value, hne, hle, rfl⟩ := (decimalUpTo_iff (by norm_num)).mp h
  have hminus : (decimal value).head? ≠ some 45 := head_decimal value (by decide)
  have hvalue : toInt (decimal value) = value := by
    unfold toInt
    rw [trimmed_decimal]
    simp only [if_neg hminus, readNumber_decimal (show value < 2 ^ 64 by omega)]
    rw [if_pos (by omega)]
  rw [hvalue]
  refine ⟨by omega, by omega, ?_⟩
  unfold number
  rw [if_neg (by omega), Int.natAbs_natCast]

/-- The peer of a record that pins. -/
def peerObject (value : Json) : JObject := Json.asObject (value.toObject.find (u "peer"))

variable (uuidV5 account) in
lemma validRecord_pin {value : Json} (hkind : kindOf value = u "pin") :
    validRecord uuidV5 account value.toObject = true ↔ validScope (scopeOf value) = true ∧
      peerKey (peerObject value) ≠ [] ∧
      idOf value = (Key.pin (scopeOf value) (peerOf value)).id uuidV5 account := by
  unfold kindOf at hkind
  unfold validRecord
  simp only [if_pos hkind, Bool.and_eq_true, decide_eq_true_eq, and_assoc]
  refine and_congr_right fun _ => and_congr_right fun hpeer => ?_
  have hid : (Key.pin (scopeOf value) (peerOf value)).id uuidV5 account =
      stableId uuidV5 account (u "pin:" ++ scopeOf value ++ u ":" ++ peerKey (peerObject value)) := by
    unfold peerObject
    rw [← (validPeer_readPeer hpeer ∅).2]
    rfl
  rw [hid]
  rfl

variable (uuidV5 account) in
lemma validRecord_order {value : Json} (hkind : kindOf value = u "order") :
    validRecord uuidV5 account value.toObject = true ↔ validScope (scopeOf value) = true ∧
      idOf value = (Key.order (scopeOf value)).id uuidV5 account ∧
      Json.isArrayValue (value.toObject.find (u "peers")) = true ∧
      (peersOf value).length ≤ kMaximumOrder ∧ (∀ peer ∈ peersOf value, peerKey peer.toObject ≠ []) ∧
      ((peersOf value).map fun peer => peerKey peer.toObject).Nodup := by
  unfold kindOf at hkind
  have hpin : Json.asText (value.toObject.find (u "kind")) ≠ u "pin" := by
    rw [hkind]
    decide
  unfold validRecord
  simp only [if_neg hpin, if_pos hkind, Bool.and_eq_true, decide_eq_true_eq, and_assoc, List.length_map,
    List.all_eq_true, List.forall_mem_map]
  rfl

variable (uuidV5 account) in
lemma validRecord_filter {value : Json} (hkind : kindOf value = u "filter") :
    validRecord uuidV5 account value.toObject = true ↔
      validFilterId (Json.asText (value.toObject.find (u "filter_id"))) = true ∧
      idOf value = (Key.filter (filterOf value)).id uuidV5 account ∧
      validId (incarnationOf value) = true := by
  unfold kindOf at hkind
  have hpin : Json.asText (value.toObject.find (u "kind")) ≠ u "pin" := by
    rw [hkind]
    decide
  have horder : Json.asText (value.toObject.find (u "kind")) ≠ u "order" := by
    rw [hkind]
    decide
  unfold validRecord
  simp only [if_neg hpin, if_neg horder, if_pos hkind, Bool.and_eq_true, decide_eq_true_eq, and_assoc]
  refine and_congr_right fun hfilter => ?_
  have hid : (Key.filter (filterOf value)).id uuidV5 account =
      stableId uuidV5 account (u "filter:" ++ Json.asText (value.toObject.find (u "filter_id"))) := by
    rw [← (toInt_of_validFilterId hfilter).2.2]
    rfl
  rw [hid]
  rfl

variable (uuidV5 account) in
lemma validRecord_other {value : Json} (h : identity value = none) :
    validRecord uuidV5 account value.toObject = true := by
  unfold identity kindOf at h
  unfold validRecord
  dsimp only
  split_ifs at h with hpin horder hfilter
  rw [if_neg hpin, if_neg horder, if_neg hfilter]

lemma identity_cases (value : Json) :
    kindOf value = u "pin" ∧ identity value = some (.pin (scopeOf value) (peerOf value)) ∨
      kindOf value = u "order" ∧ identity value = some (.order (scopeOf value)) ∨
      kindOf value = u "filter" ∧ identity value = some (.filter (filterOf value)) ∨
      identity value = none := by
  unfold identity
  split_ifs with hpin horder hfilter
  · exact Or.inl ⟨hpin, rfl⟩
  · exact Or.inr (Or.inl ⟨horder, rfl⟩)
  · exact Or.inr (Or.inr (Or.inl ⟨hfilter, rfl⟩))
  · exact Or.inr (Or.inr (Or.inr rfl))

/-- **The id of a valid record** tells what it is about. -/
theorem idOf_of_identity {value : Json} (hvalid : validRecord uuidV5 account value.toObject = true)
    {key : Key} (h : identity value = some key) : idOf value = key.id uuidV5 account := by
  rcases identity_cases value with ⟨hkind, hkey⟩ | ⟨hkind, hkey⟩ | ⟨hkind, hkey⟩ | hkey <;>
    rw [h] at hkey <;> simp only [Option.some.injEq, reduceCtorEq] at hkey
  · rw [hkey]
    exact ((validRecord_pin uuidV5 account hkind).mp hvalid).2.2
  · rw [hkey]
    exact ((validRecord_order uuidV5 account hkind).mp hvalid).2.1
  · rw [hkey]
    exact ((validRecord_filter uuidV5 account hkind).mp hvalid).2.1

/-! ### What is put -/

/-- A record that another one may take the place of: it is about the same, or about nothing known. -/
def Replaceable (key : Key) (value : Json) : Prop := identity value = some key ∨ identity value = none

lemma Replaceable.keyOf {key : Key} {value : Json} (h : Replaceable key value) :
    keyOf value = some key ∨ keyOf value = none := by
  unfold PinnedItems.keyOf
  split_ifs
  · exact Or.inr rfl
  · exact h

/-- A record that is behind another with its id does not set the same. -/
lemma keyOf_ne_of_nodup (hvalid : ValidRecords uuidV5 account records) {first rest : List Json} {old : Json}
    (hrecords : records = first ++ old :: rest) {key : Key} (hid : idOf old = key.id uuidV5 account) :
    ∀ value ∈ rest, keyOf value ≠ some key := by
  intro value hvalue hkey
  have hmem : value ∈ records := by
    rw [hrecords]
    exact List.mem_append_right _ (List.mem_cons_of_mem _ hvalue)
  have hsame : idOf value = idOf old :=
    (idOf_of_identity (hvalid.each value hmem).2.2 (identity_of_keyOf hkey)).trans hid.symm
  have hnodup := hvalid.nodup
  rw [hrecords, List.map_append, List.map_cons] at hnodup
  exact (List.nodup_cons.mp hnodup.of_append_right).1 (hsame ▸ List.mem_map_of_mem hvalue)

/-- **A record that is put** is applied to what was shown. -/
theorem parse_putRecord (hvalid : ValidRecords uuidV5 account records) {key : Key} {value : JObject}
    (hkey : keyOf (Json.ofObject value) = some key)
    (hold : ∀ old ∈ records, idOf old = key.id uuidV5 account → Replaceable key old) :
    parseRecords (putRecord records (findRecord records (key.id uuidV5 account)) value) =
      applyRecord (parseRecords records) (Json.ofObject value) := by
  rcases findRecord_cases records (key.id uuidV5 account) with ⟨-, -, hfind⟩ |
    ⟨first, old, rest, hrecords, hid, -, hfind⟩
  · rw [hfind]
    unfold parseRecords putRecord
    rw [List.foldl_append]
    rfl
  · have hrest := keyOf_ne_of_nodup hvalid hrecords hid
    have hreplace := (hold old (by simp [hrecords]) hid).keyOf
    rw [hfind, hrecords, putRecord_some]
    exact keyedFold.foldl_replace hkey hreplace.symm hrest {}

/-- A record that sets nothing can be put where one is that sets nothing. -/
lemma parse_putRecord_none {id : Text} {value : JObject} (hkey : keyOf (Json.ofObject value) = none)
    (hold : ∀ old ∈ records, idOf old = id → keyOf old = none) :
    parseRecords (putRecord records (findRecord records id) value) = parseRecords records := by
  rcases findRecord_cases records id with ⟨-, -, hfind⟩ | ⟨first, old, rest, hrecords, hid, -, hfind⟩
  · rw [hfind]
    unfold parseRecords putRecord
    rw [List.foldl_append, List.foldl_cons, List.foldl_nil, keyedFold.skip _ _ hkey]
  · have hnone := hold old (by simp [hrecords]) hid
    rw [hfind, hrecords, putRecord_some]
    unfold parseRecords
    rw [List.foldl_append, List.foldl_append, List.foldl_cons, List.foldl_cons, keyedFold.skip _ _ hkey,
      keyedFold.skip _ _ hnone]

/-- How many records pin a peer in a list. -/
def pinCount (scope : Text) (records : List Json) : ℕ :=
  records.countP fun value => pinsIn scope value.toObject

/-- **Valid records stay valid** when a valid record is put. -/
theorem ValidRecords.putRecord (hvalid : ValidRecords uuidV5 account records) {id : Text} {value : JObject}
    (hid : idOf (Json.ofObject value) = id) (hvalidId : validId id = true)
    (hdeleted : Json.isBoolValue (value.find (u "deleted")) = true)
    (hrecord : validRecord uuidV5 account value = true)
    (hcount : ∀ scope, pinsIn scope value = true →
      pinCount scope (records.filter fun old => idOf old ≠ id) < kMaximumOrder) :
    ValidRecords uuidV5 account (putRecord records (findRecord records id) value) := by
  have heach : validId (idOf (Json.ofObject value)) = true ∧
      Json.isBoolValue ((Json.ofObject value).toObject.find (u "deleted")) = true ∧
      validRecord uuidV5 account (Json.ofObject value).toObject = true := by
    rw [hid, Json.toObject_ofObject]
    exact ⟨hvalidId, hdeleted, hrecord⟩
  rcases findRecord_cases records id with ⟨hnone, -, hfind⟩ | ⟨first, old, rest, hrecords, hold, -, hfind⟩
  · rw [hfind]
    refine ⟨?_, ?_, fun scope => ?_⟩
    · unfold PinnedItems.putRecord
      rw [List.map_append, List.map_singleton, hid, List.nodup_append]
      refine ⟨hvalid.nodup, List.nodup_singleton _, ?_⟩
      rintro _ hmem _ hlast rfl
      obtain ⟨other, hother, heq⟩ := List.mem_map.mp hmem
      exact hnone other hother (heq.trans (List.mem_singleton.mp hlast))
    · intro other hother
      rcases List.mem_append.mp hother with hmem | hmem
      · exact hvalid.each other hmem
      · rw [List.mem_singleton.mp hmem]
        exact heach
    · have hall : records.filter (fun old => idOf old ≠ id) = records :=
        List.filter_eq_self.mpr fun other hother => decide_eq_true (hnone other hother)
      have hle := hvalid.counts scope
      have hlt := hcount scope
      rw [hall] at hlt
      unfold PinnedItems.putRecord
      rw [List.countP_append, List.countP_singleton, Json.toObject_ofObject]
      unfold pinCount at hlt
      split_ifs with hpins
      · exact hlt hpins
      · exact hle
  · have hnodup := hvalid.nodup
    rw [hrecords, List.map_append, List.map_cons] at hnodup
    have hothers : ∀ other ∈ first ++ rest, idOf other ≠ id := by
      intro other hother heq
      rw [← hold] at heq
      have hperm : (first.map idOf ++ idOf old :: rest.map idOf).Perm
          (idOf old :: (first.map idOf ++ rest.map idOf)) := List.perm_middle
      have := (List.nodup_cons.mp (hperm.nodup_iff.mp hnodup)).1
      rw [← List.map_append] at this
      exact this (heq ▸ List.mem_map_of_mem hother)
    rw [hfind, hrecords, putRecord_some]
    refine ⟨?_, ?_, fun scope => ?_⟩
    · rw [List.map_append, List.map_cons, hid, ← hold]
      exact hnodup
    · intro other hother
      rcases List.mem_append.mp hother with hmem | hmem
      · exact hvalid.each other (by simp [hrecords, hmem])
      · rcases List.mem_cons.mp hmem with rfl | hmem
        · exact heach
        · exact hvalid.each other (by simp [hrecords, hmem])
    · have hle := hvalid.counts scope
      have hlt := hcount scope
      have hfilter : records.filter (fun old => idOf old ≠ id) = first ++ rest := by
        rw [hrecords, List.filter_append, List.filter_cons_of_neg (by simp [hold]), ← List.filter_append]
        exact List.filter_eq_self.mpr fun other hother => decide_eq_true (hothers other hother)
      rw [hfilter] at hlt
      unfold pinCount at hlt
      rw [hrecords, List.countP_append, List.countP_cons] at hle
      rw [List.countP_append] at hlt
      rw [List.countP_append, List.countP_cons, Json.toObject_ofObject]
      split_ifs with hpins
      · have := hlt hpins
        omega
      · omega

/-! ### Orders that are shown -/

/-- A list shows the order of its record. -/
lemma order_parse (hvalid : ValidRecords uuidV5 account records) {value : Json} (hvalue : value ∈ records)
    {scope : Text} (hkey : keyOf value = some (.order scope)) :
    ((parseRecords records).scope scope).order = readOrder (peersOf value) := by
  obtain ⟨first, rest, hrecords⟩ := List.append_of_mem hvalue
  have hid := idOf_of_identity (hvalid.each value hvalue).2.2 (identity_of_keyOf hkey)
  have hrest := keyOf_ne_of_nodup hvalid hrecords hid
  unfold parseRecords
  rw [hrecords, keyedFold.foldl_extract hkey hrest]
  rcases record_cases value with ⟨-, hkv, -⟩ | ⟨-, -, hkv, hav⟩ | ⟨-, hkv, -⟩ | ⟨-, -, hkv, -⟩ <;>
    rw [hkey] at hkv <;> cases hkv
  rw [hav, State.scope_update_self]

/-- A list without such a record shows no order. -/
lemma order_parse_none {scope : Text} (hnone : ∀ value ∈ records, keyOf value ≠ some (.order scope)) :
    ((parseRecords records).scope scope).order = [] := by
  have hview : ∀ (state : State) (value : Json), keyOf value ≠ some (.order scope) →
      ((applyRecord state value).scope scope).order = (state.scope scope).order := by
    intro state value hkey
    rcases record_cases value with ⟨-, -, hav⟩ | ⟨-, -, hkv, hav⟩ | ⟨-, -, hav⟩ | ⟨-, -, -, hav⟩ <;>
      simp only [hav]
    · by_cases hscope : scope = scopeOf value
      · rw [hscope, State.scope_update_self]
      · rw [State.scope_update_of_ne _ hscope]
    · have hscope : scope ≠ scopeOf value := by
        rintro rfl
        exact hkey hkv
      rw [State.scope_update_of_ne _ hscope]
    · rfl
  exact KeyedFold.foldl_frame (fun state : State => (state.scope scope).order) hview hnone {}

end Valid

end PinnedItems
