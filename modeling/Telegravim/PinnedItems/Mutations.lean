import Telegravim.LocalData.SavedTags
import Telegravim.PinnedItems.Change

set_option autoImplicit false

/-!
# Pinned items: mutations

A call that is accepted becomes a mutation. Its optimistic function changes what is shown at once, and its
change is applied to the module when the store gets to it. The two are written apart: one sets entries of
maps, the other writes records.

## Main definitions

* `PinnedItems.Call`, `PinnedItems.Call.mutation` — what is called, and what the guards make of it.
* `PinnedItems.Mutation.optimistic`, `PinnedItems.Mutation.change` — the two sides of a mutation.
* `PinnedItems.Settled` — when the two sides agree.

## Main results

* `PinnedItems.change_spec` — a change that is settled shows what its optimistic function does, and the
  records stay valid.
-/

namespace PinnedItems

open Text LocalData

/-! ### Calls -/

/-- An accepted call. -/
inductive Mutation where
  | pin (scope : Text) (peer : ℕ) (pinned : Bool) (visibleOrder : List ℕ)
  | order (scope : Text) (visibleOrder : List ℕ)
  | remove (peer : ℕ)
  | filters (changes : OrdMap ℤ Filter)

/-- A call. The ids that `NewId` makes for folders that come back are part of it. -/
inductive Call where
  | setPinned (scope : Text) (peer : ℕ) (pinned : Bool) (visibleOrder : List ℕ)
  | saveOrder (scope : Text) (visibleOrder : List ℕ)
  | removePeer (peer : ℕ)
  | syncFilters (ids : List Int32) (newId : ℤ → { id : Text // validId id = true })

section Calls

variable (uuidV5 : Bytes → Text) (account : Account)

/-- The folders of a call of `syncFilters`. -/
def activeFilters (ids : List Int32) : List ℤ := (ids.map Int32.toInt).filter (· ≠ 0)

/-- What `syncFilters` changes: folders that are new or come back, and folders that are gone. -/
def filterChanges (shown : State) (ids : List Int32) (newId : ℤ → { id : Text // validId id = true }) :
    OrdMap ℤ Filter :=
  let added := (activeFilters ids).foldl (fun (changes : OrdMap ℤ Filter) id =>
    match shown.filters.find id with
    | none => changes.emplace id ⟨stableId uuidV5 account (u "incarnation:" ++ number id), false⟩
    | some previous => if previous.deleted then changes.emplace id ⟨newId id, false⟩ else changes) ∅
  shown.filters.entries.foldl (fun changes (id, filter) =>
    if filter.deleted = false ∧ id ∉ activeFilters ids then changes.emplace id ⟨filter.incarnation, true⟩
    else changes) added

/-- The mutation of a call, when its guards accept it and there is something to do. -/
def Call.mutation (shown : State) : Call → Option Mutation
  | setPinned scope peer pinned visibleOrder =>
    if validScope scope = false ∨ validPeer peer = false then none
    else if pinned then
      if visibleOrder.length > kMaximumOrder ∨ visibleOrder.all validPeer = false then none
      else if (peer :: visibleOrder.filter (· ≠ peer)).length > kMaximumOrder then none
      else some (.pin scope peer true (peer :: visibleOrder.filter (· ≠ peer)))
    else some (.pin scope peer false [])
  | saveOrder scope visibleOrder =>
    if validScope scope = false ∨ visibleOrder.length > kMaximumOrder ∨
        visibleOrder.all validPeer = false then none
    else some (.order scope visibleOrder)
  | removePeer peer => if validPeer peer = false then none else some (.remove peer)
  | syncFilters ids newId =>
    if (activeFilters ids).all (0 < ·) = false then none
    else if (filterChanges uuidV5 account shown ids newId).entries = [] then none
    else some (.filters (filterChanges uuidV5 account shown ids newId))

end Calls

/-! ### Optimistic functions -/

/-- Whether a list is of a folder. -/
def ofFolder (scope : Text) : Bool := (u "filter:").isPrefixOf scope

/-- The lists that are not of folders and from which peers are removed. -/
def mainScopes : OrdMap Text Unit := ((∅ : OrdMap Text Unit).insert (u "main") ()).insert (u "archive") ()

/-- The lists of `removePeer` as they are shown. -/
def shownScopes (state : State) : OrdMap Text Unit :=
  let listed := state.scopes.keys.foldl (fun (scopes : OrdMap Text Unit) scope =>
    if ofFolder scope then scopes.insert scope () else scopes) mainScopes
  state.filters.entries.foldl (fun scopes (id, filter) =>
    scopes.insert (filterScope (number id) filter.incarnation) ()) listed

/-- Remove a peer from a list that is shown. -/
def removeShown (peer : ℕ) (state : State) (scope : Text) : State :=
  state.update scope fun data =>
    { pins := data.pins.insert peer false, order := data.order.filter (· ≠ peer) }

/-- The optimistic function. -/
def Mutation.optimistic : Mutation → State → State
  | pin scope peer pinned visibleOrder, state => state.update scope fun data =>
    { pins := data.pins.insert peer pinned
      order := if pinned then mergeOrder visibleOrder data.order else data.order.filter (· ≠ peer) }
  | order scope visibleOrder, state => state.update scope fun data =>
    { data with order := mergeOrder visibleOrder data.order }
  | remove peer, state => (shownScopes state).keys.foldl (removeShown peer) state
  | filters changes, state => changes.entries.foldl (fun state (id, filter) => state.setFilter id filter) state

/-! ### Changes -/

section Changes

variable (uuidV5 : Bytes → Text) (account : Account)

/-- `ActiveScope`. -/
def activeScope (records : List Json) (scope : Text) : Bool :=
  if ofFolder scope = false then validScope scope
  else match split scope 58 with
    | [_, id, incarnation] =>
      match findRecord records (stableId uuidV5 account (u "filter:" ++ id)) with
      | none => false
      | some index =>
        let record := recordAt records (some index)
        Json.asBool (record.find (u "deleted")) = false &&
          Json.asText (record.find (u "scope_id")) = incarnation
    | _ => false

/-- The lists of `removePeer` as the records have them. -/
def recordScopes (records : List Json) : OrdMap Text Unit :=
  records.foldl (fun (scopes : OrdMap Text Unit) value =>
    if kindOf value = u "filter" then
      scopes.insert (filterScope (Json.asText (value.toObject.find (u "filter_id"))) (incarnationOf value)) ()
    else if (kindOf value = u "pin" ∨ kindOf value = u "order") ∧ ofFolder (scopeOf value) = true then
      scopes.insert (scopeOf value) ()
    else scopes) mainScopes

/-- Remove a peer from a list of the records. -/
def removeRecord (peer : ℕ) (records : List Json) (scope : Text) : List Json :=
  pruneOrderPeer uuidV5 account (updatePin uuidV5 account records scope peer false) scope peer

/-- Write a folder. -/
def writeFilter (records : List Json) (id : ℤ) (filter : Filter) : List Json :=
  let recordId := (Key.filter id).id uuidV5 account
  let index := findRecord records recordId
  putRecord records index ((((((recordAt records index).insert (u "id") (.str recordId)).insert
    (u "kind") (.str (u "filter"))).insert (u "filter_id") (.str (number id))).insert (u "scope_id")
      (.str filter.incarnation)).insert (u "deleted") (.bool filter.deleted))

/-- The change of the records. -/
def Mutation.changeRecords (records : List Json) : Mutation → Result (List Json)
  | pin scope peer pinned visibleOrder =>
    if activeScope uuidV5 account records scope = false then
      failure .invalid "This folder is no longer available."
    else if pinned then
      updateOrder uuidV5 account (updatePin uuidV5 account records scope peer pinned) scope visibleOrder
    else .ok (pruneOrderPeer uuidV5 account (updatePin uuidV5 account records scope peer pinned) scope peer)
  | order scope visibleOrder =>
    if activeScope uuidV5 account records scope = false then
      failure .invalid "This folder is no longer available."
    else updateOrder uuidV5 account records scope visibleOrder
  | remove peer => .ok ((recordScopes records).keys.foldl (removeRecord uuidV5 account peer) records)
  | filters changes =>
    .ok (changes.entries.foldl (fun records (id, filter) => writeFilter uuidV5 account records id filter)
      records)

/-- The change of a module. -/
def Mutation.change (module : JObject) (mutation : Mutation) : Result JObject := do
  let records ← mutation.changeRecords uuidV5 account (recordsOf module)
  return module.insert (u "records") (.arr records)

end Changes

/-! ### Lists that are known -/

section Scopes

variable {uuidV5 : Bytes → Text} {account : Account} {records : List Json}

/-- A set is its elements. -/
lemma ext_contains {first second : OrdMap Text Unit} (h : ∀ scope, first.contains scope = true ↔
    second.contains scope = true) : first = second := by
  refine OrdMap.ext_find fun scope => ?_
  have hscope := h scope
  simp only [OrdMap.contains] at hscope
  cases hfirst : first.find scope <;> cases hsecond : second.find scope <;> simp_all

lemma contains_insert {scopes : OrdMap Text Unit} {scope other : Text} :
    (scopes.insert scope ()).contains other = true ↔ scopes.contains other = true ∨ other = scope := by
  simp only [OrdMap.contains, OrdMap.find_insert]
  by_cases h : other = scope <;> simp [h]

/-- A list that the records show. -/
def showsScope (value : Json) : Prop :=
  kindOf value = u "pin" ∨ kindOf value = u "order" ∧ deletedOf value = false

/-- The lists of a module are those that its records show. -/
lemma mem_scopes_parse {scope : Text} : scope ∈ (parseRecords records).scopes.keys ↔
    ∃ value ∈ records, showsScope value ∧ scopeOf value = scope := by
  rw [OrdMap.mem_keys_iff]
  have hinsert : ∀ (state : State) (other : Text) (change : Scope → Scope),
      (∃ data, (state.update other change).scopes.find scope = some data) ↔
        (∃ data, state.scopes.find scope = some data) ∨ other = scope := by
    intro state other change
    unfold State.update
    by_cases hscope : scope = other
    · subst hscope
      simp [OrdMap.find_insert_self]
    · rw [OrdMap.find_insert_of_ne hscope]
      simp [Ne.symm hscope]
  have hstep : ∀ (state : State) (value : Json),
      (∃ data, (applyRecord state value).scopes.find scope = some data) ↔
        (∃ data, state.scopes.find scope = some data) ∨ (showsScope value ∧ scopeOf value = scope) := by
    intro state value
    unfold showsScope
    rcases record_cases value with ⟨hkind, -, happly⟩ | ⟨hkind, hdeleted, -, happly⟩ |
      ⟨hkind, -, happly⟩ | ⟨hpin, -, hkey, happly⟩ <;> rw [happly]
    · rw [hinsert]
      simp [hkind]
    · rw [hinsert]
      simp [hkind, hdeleted]
    · have hnot : ¬(u "filter" = u "pin" ∨ u "filter" = u "order" ∧ deletedOf value = false) := by
        rintro (h | ⟨h, -⟩) <;> exact absurd h (by decide)
      rw [hkind]
      simp only [hnot, false_and, or_false]
      rfl
    · have hnot : ¬(kindOf value = u "pin" ∨ kindOf value = u "order" ∧ deletedOf value = false) := by
        rintro (h | ⟨h, hdeleted⟩)
        · exact hpin h
        · unfold keyOf identity at hkey
          rw [hdeleted, if_neg (by simp), if_neg hpin, if_pos h] at hkey
          cases hkey
      simp only [hnot, false_and, or_false]
  unfold parseRecords
  rw [foldl_iff_exists (P := fun state : State => ∃ data, state.scopes.find scope = some data)
    (Q := fun value : Json => showsScope value ∧ scopeOf value = scope) hstep records {}]
  simp

/-- A folder shows its record. -/
lemma filters_parse (hvalid : ValidRecords uuidV5 account records) {value : Json} (hvalue : value ∈ records)
    (hkind : kindOf value = u "filter") :
    (parseRecords records).filters.find (filterOf value) = some ⟨incarnationOf value, deletedOf value⟩ := by
  have hkey : keyOf value = some (.filter (filterOf value)) := by
    unfold keyOf identity
    rw [hkind, if_neg (by rintro ⟨h, -⟩; exact absurd h (by decide))]
    rfl
  obtain ⟨first, rest, hrecords⟩ := List.append_of_mem hvalue
  have hid := idOf_of_identity (hvalid.each value hvalue).2.2 (identity_of_keyOf hkey)
  unfold parseRecords
  rw [hrecords, keyedFold.foldl_extract hkey (keyOf_ne_of_nodup hvalid hrecords hid)]
  unfold applyRecord
  rw [hkind, if_neg (by decide), if_neg (by rintro ⟨h, -⟩; exact absurd h (by decide)), if_pos rfl]
  exact OrdMap.find_insert_self _ _ _

/-- Folders that are shown have records. -/
lemma exists_of_filters_parse (hvalid : ValidRecords uuidV5 account records) {id : ℤ} {filter : Filter}
    (h : (parseRecords records).filters.find id = some filter) :
    ∃ value ∈ records, kindOf value = u "filter" ∧ filterOf value = id ∧
      filter = ⟨incarnationOf value, deletedOf value⟩ := by
  by_contra hnone
  have hkeys : ∀ value ∈ records, keyOf value ≠ some (.filter id) := by
    intro value hvalue hkey
    rcases record_cases value with ⟨-, hkv, -⟩ | ⟨-, -, hkv, -⟩ | ⟨hkind, hkv, -⟩ | ⟨-, -, hkv, -⟩ <;>
      rw [hkey] at hkv <;> simp only [Option.some.injEq, reduceCtorEq, Key.filter.injEq] at hkv
    subst hkv
    rw [filters_parse hvalid hvalue hkind, Option.some.injEq] at h
    exact hnone ⟨value, hvalue, hkind, rfl, h.symm⟩
  have hview : ∀ (state : State) (value : Json), keyOf value ≠ some (.filter id) →
      (applyRecord state value).filters.find id = state.filters.find id := by
    intro state value hkey
    rcases record_cases value with ⟨-, -, hav⟩ | ⟨-, -, -, hav⟩ | ⟨-, hkv, hav⟩ | ⟨-, -, -, hav⟩ <;>
      simp only [hav, State.filters_update]
    have hid : id ≠ filterOf value := by
      rintro rfl
      exact hkey hkv
    exact OrdMap.find_insert_of_ne hid _ _
  have hempty := KeyedFold.foldl_frame (fun state : State => state.filters.find id) hview hkeys {}
  have hfind : (records.foldl applyRecord {}).filters.find id = none := hempty
  unfold parseRecords at h
  rw [hfind] at h
  cases h

/-- The lists of `removePeer` as they are shown. -/
lemma contains_shownScopes {state : State} {scope : Text} :
    (shownScopes state).contains scope = true ↔ mainScopes.contains scope = true ∨
      (ofFolder scope = true ∧ scope ∈ state.scopes.keys) ∨
      ∃ id filter, state.filters.find id = some filter ∧
        scope = filterScope (number id) filter.incarnation := by
  unfold shownScopes
  rw [foldl_iff_exists (P := fun scopes : OrdMap Text Unit => scopes.contains scope = true)
    (Q := fun entry : ℤ × Filter => scope = filterScope (number entry.1) entry.2.incarnation)
    (fun scopes entry => contains_insert)]
  rw [foldl_iff_exists (P := fun scopes : OrdMap Text Unit => scopes.contains scope = true)
    (Q := fun other : Text => ofFolder other = true ∧ scope = other) (fun scopes other => by
      split_ifs with h
      · rw [contains_insert]
        simp [h]
      · simp [h])]
  rw [or_assoc]
  refine or_congr_right (or_congr ?_ ?_)
  · constructor
    · rintro ⟨other, hother, hfolder, rfl⟩
      exact ⟨hfolder, hother⟩
    · rintro ⟨hfolder, hscope⟩
      exact ⟨scope, hscope, hfolder, rfl⟩
  · constructor
    · rintro ⟨⟨id, filter⟩, hentry, heq⟩
      exact ⟨id, filter, OrdMap.find_eq_some_iff.mpr hentry, heq⟩
    · rintro ⟨id, filter, hfind, heq⟩
      exact ⟨(id, filter), OrdMap.find_eq_some_iff.mp hfind, heq⟩

/-- The lists of `removePeer` as the records have them. -/
lemma contains_recordScopes {scope : Text} :
    (recordScopes records).contains scope = true ↔ mainScopes.contains scope = true ∨
      ∃ value ∈ records, kindOf value = u "filter" ∧
          scope = filterScope (Json.asText (value.toObject.find (u "filter_id"))) (incarnationOf value) ∨
        (kindOf value = u "pin" ∨ kindOf value = u "order") ∧ ofFolder scope = true ∧
          scope = scopeOf value := by
  unfold recordScopes
  rw [foldl_iff_exists (P := fun scopes : OrdMap Text Unit => scopes.contains scope = true)
    (Q := fun value : Json => kindOf value = u "filter" ∧
        scope = filterScope (Json.asText (value.toObject.find (u "filter_id"))) (incarnationOf value) ∨
      (kindOf value = u "pin" ∨ kindOf value = u "order") ∧ ofFolder scope = true ∧
        scope = scopeOf value) (fun scopes value => ?_)]
  by_cases hfilter : kindOf value = u "filter"
  · have hnot : ¬(kindOf value = u "pin" ∨ kindOf value = u "order") := by
      rw [hfilter]
      decide
    rw [if_pos hfilter, contains_insert]
    refine or_congr_right ⟨fun h => Or.inl ⟨hfilter, h⟩, ?_⟩
    rintro (⟨-, h⟩ | ⟨hkind, -⟩)
    · exact h
    · exact absurd hkind hnot
  · rw [if_neg hfilter]
    by_cases hlisted : (kindOf value = u "pin" ∨ kindOf value = u "order") ∧ ofFolder (scopeOf value) = true
    · rw [if_pos hlisted, contains_insert]
      simp only [hfilter, false_and, false_or, hlisted.1, true_and]
      refine or_congr_right ⟨?_, And.right⟩
      rintro rfl
      exact ⟨hlisted.2, rfl⟩
    · rw [if_neg hlisted]
      simp only [hfilter, false_and, false_or]
      constructor
      · exact Or.inl
      · rintro (h | ⟨hkind, hfolder, rfl⟩)
        · exact h
        · exact absurd ⟨hkind, hfolder⟩ hlisted

/-- A deleted order of a folder whose list is not known otherwise. -/
def Forgotten (records : List Json) (scope : Text) : Prop :=
  ofFolder scope = true ∧ (shownScopes (parseRecords records)).contains scope = false ∧
    ∃ value ∈ records, kindOf value = u "order" ∧ deletedOf value = true ∧ scopeOf value = scope

/-- **The lists of `removePeer`** are the same on both sides, except those whose only record is a deleted
order. -/
theorem recordScopes_eq (hvalid : ValidRecords uuidV5 account records)
    (hknown : ∀ scope, ¬Forgotten records scope) :
    recordScopes records = shownScopes (parseRecords records) := by
  refine ext_contains fun scope => ?_
  constructor
  · intro h
    rw [contains_recordScopes] at h
    rcases h with h | ⟨value, hvalue, ⟨hkind, rfl⟩ | ⟨hkind, hfolder, rfl⟩⟩
    · exact contains_shownScopes.mpr (Or.inl h)
    · refine contains_shownScopes.mpr (Or.inr (Or.inr ⟨_, _, filters_parse hvalid hvalue hkind, ?_⟩))
      obtain ⟨hfilter, -⟩ := (validRecord_filter uuidV5 account hkind).mp (hvalid.each value hvalue).2.2
      have hnumber : number (filterOf value) = Json.asText (value.toObject.find (u "filter_id")) :=
        (toInt_of_validFilterId hfilter).2.2
      rw [hnumber]
    · by_cases hshows : showsScope value
      · exact contains_shownScopes.mpr (Or.inr (Or.inl ⟨hfolder,
          mem_scopes_parse.mpr ⟨value, hvalue, hshows, rfl⟩⟩))
      · have horder : kindOf value = u "order" ∧ deletedOf value = true := by
          unfold showsScope at hshows
          rw [not_or, not_and, Bool.not_eq_false] at hshows
          rcases hkind with hkind | hkind
          · exact absurd hkind hshows.1
          · exact ⟨hkind, hshows.2 hkind⟩
        by_contra hnot
        rw [Bool.not_eq_true] at hnot
        exact hknown _ ⟨hfolder, hnot, value, hvalue, horder.1, horder.2, rfl⟩
  · intro h
    rw [contains_recordScopes]
    rcases contains_shownScopes.mp h with h | ⟨hfolder, hscope⟩ | ⟨id, filter, hfind, rfl⟩
    · exact Or.inl h
    · obtain ⟨value, hvalue, hshows, rfl⟩ := mem_scopes_parse.mp hscope
      exact Or.inr ⟨value, hvalue, Or.inr ⟨hshows.imp id And.left, hfolder, rfl⟩⟩
    · obtain ⟨value, hvalue, hkind, rfl, rfl⟩ := exists_of_filters_parse hvalid hfind
      obtain ⟨hfilter, -⟩ := (validRecord_filter uuidV5 account hkind).mp (hvalid.each value hvalue).2.2
      have hnumber : number (filterOf value) = Json.asText (value.toObject.find (u "filter_id")) :=
        (toInt_of_validFilterId hfilter).2.2
      exact Or.inr ⟨value, hvalue, Or.inl ⟨hkind, by rw [hnumber]⟩⟩

end Scopes

/-! ### Steps -/

section Steps

variable {uuidV5 : Bytes → Text} {account : Account} {records : List Json} {K : Set Key}

/-- Records that are about given things, as far as they are about known ones. -/
def Within (K : Set Key) (records : List Json) : Prop :=
  ∀ value ∈ records, ∀ key, identity value = some key → key ∈ K

/-- The record under the id of a thing is about it, when no two things have the same id. -/
lemma replaceable_of_within (hvalid : ValidRecords uuidV5 account records)
    (hapart : Set.InjOn (Key.id uuidV5 account) K) (hwithin : Within K records) {key : Key}
    (hkey : key ∈ K) : ∀ old ∈ records, idOf old = key.id uuidV5 account → Replaceable key old := by
  intro old hold hid
  cases hidentity : identity old with
  | none => exact Or.inr hidentity
  | some other =>
    have hother := idOf_of_identity (hvalid.each old hold).2.2 hidentity
    have hsame : other = key :=
      hapart (hwithin old hold other hidentity) hkey (hother.symm.trans hid)
    exact Or.inl (hsame ▸ hidentity)

/-- A peer is removed from a list. -/
lemma removeRecord_spec (hvalid : ValidRecords uuidV5 account records)
    (huuid : ∀ bytes, validId (uuidV5 bytes) = true)
    (hapart : Set.InjOn (Key.id uuidV5 account) K) (hwithin : Within K records) {scope : Text}
    (hscope : validScope scope = true) {peer : ℕ} (hpeer : validPeer peer = true)
    (hpin : Key.pin scope peer ∈ K) (horder : Key.order scope ∈ K) :
    parseRecords (removeRecord uuidV5 account peer records scope) =
        removeShown peer (parseRecords records) scope ∧
      ValidRecords uuidV5 account (removeRecord uuidV5 account peer records scope) ∧
      Within K (removeRecord uuidV5 account peer records scope) := by
  obtain ⟨hparse, hvalid', hmem⟩ := updatePin_spec hvalid huuid hscope hpeer
    (replaceable_of_within hvalid hapart hwithin hpin) (show false = true → _ from nofun)
  have hwithin' : Within K (updatePin uuidV5 account records scope peer false) := by
    intro value hvalue key hkey
    rcases hmem value hvalue with h | h
    · rw [h, Option.some.injEq] at hkey
      exact hkey ▸ hpin
    · exact hwithin value h key hkey
  have hdata : (parseRecords (updatePin uuidV5 account records scope peer false)).scopes.find scope =
      some { (parseRecords records).scope scope with
        pins := ((parseRecords records).scope scope).pins.insert peer false } := by
    rw [hparse]
    exact OrdMap.find_insert_self _ _ _
  obtain ⟨hprune, hvalid'', hmem'⟩ := pruneOrderPeer_spec hvalid' peer
    (replaceable_of_within hvalid' hapart hwithin' horder) hdata
  refine ⟨?_, hvalid'', ?_⟩
  · unfold removeRecord removeShown
    rw [hprune, hparse, State.update_update]
    rfl
  · intro value hvalue key hkey
    rcases hmem' value hvalue with ⟨old, hold, -, hidentity, -⟩ | h
    · rw [hidentity] at hkey
      exact hwithin' old hold key hkey
    · exact hwithin' value h key hkey

/-- A peer is removed from several lists. -/
lemma removeRecords_spec (hvalid : ValidRecords uuidV5 account records)
    (huuid : ∀ bytes, validId (uuidV5 bytes) = true)
    (hapart : Set.InjOn (Key.id uuidV5 account) K) (hwithin : Within K records) {peer : ℕ}
    (hpeer : validPeer peer = true) {scopes : List Text}
    (hscopes : ∀ scope ∈ scopes, validScope scope = true ∧ Key.pin scope peer ∈ K ∧ Key.order scope ∈ K) :
    parseRecords (scopes.foldl (removeRecord uuidV5 account peer) records) =
        scopes.foldl (removeShown peer) (parseRecords records) ∧
      ValidRecords uuidV5 account (scopes.foldl (removeRecord uuidV5 account peer) records) := by
  induction scopes generalizing records with
  | nil => exact ⟨rfl, hvalid⟩
  | cons scope rest ih =>
    obtain ⟨hscope, hpin, horder⟩ := hscopes scope List.mem_cons_self
    obtain ⟨hparse, hvalid', hwithin'⟩ :=
      removeRecord_spec hvalid huuid hapart hwithin hscope hpeer hpin horder
    rw [List.foldl_cons, List.foldl_cons, ← hparse]
    exact ih hvalid' hwithin' fun other hother => hscopes other (List.mem_cons_of_mem _ hother)

/-- A folder that can be written. -/
def ValidFilter (id : ℤ) (filter : Filter) : Prop :=
  0 < id ∧ id < 2 ^ 31 ∧ validId filter.incarnation = true

/-- The text of a folder. -/
lemma number_spec {id : ℤ} (hpos : 0 < id) (hlt : id < 2 ^ 31) :
    validFilterId (number id) = true ∧ toInt (number id) = id := by
  have hnumber : number id = decimal id.natAbs := by
    unfold number
    rw [if_neg (by omega)]
  have hvalid : validFilterId (number id) = true :=
    (decimalUpTo_iff (by norm_num)).mpr ⟨id.natAbs, by omega, by omega, hnumber⟩
  refine ⟨hvalid, ?_⟩
  obtain ⟨hpos', -, heq⟩ := toInt_of_validFilterId hvalid
  have habs : number (toInt (number id)) = decimal (toInt (number id)).natAbs := by
    unfold number
    rw [if_neg (by unfold number at hpos'; omega)]
  rw [habs] at heq
  have := decimal_injective (heq.trans hnumber)
  omega

/-- A folder is written. -/
lemma writeFilter_spec (hvalid : ValidRecords uuidV5 account records)
    (huuid : ∀ bytes, validId (uuidV5 bytes) = true)
    (hapart : Set.InjOn (Key.id uuidV5 account) K) (hwithin : Within K records) {id : ℤ} {filter : Filter}
    (hfilter : ValidFilter id filter) (hkey : Key.filter id ∈ K) :
    parseRecords (writeFilter uuidV5 account records id filter) =
        (parseRecords records).setFilter id filter ∧
      ValidRecords uuidV5 account (writeFilter uuidV5 account records id filter) ∧
      Within K (writeFilter uuidV5 account records id filter) := by
  obtain ⟨hpos, hlt, hincarnation⟩ := hfilter
  obtain ⟨hvalidFilter, htoInt⟩ := number_spec hpos hlt
  unfold writeFilter
  dsimp only
  set value := ((((recordAt records (findRecord records ((Key.filter id).id uuidV5 account))).insert
    (u "id") (.str ((Key.filter id).id uuidV5 account))).insert (u "kind") (.str (u "filter"))).insert
      (u "filter_id") (.str (number id))).insert (u "scope_id") (.str filter.incarnation) |>.insert
        (u "deleted") (.bool filter.deleted) with hvalue
  have hid : value.find (u "id") = some (.str ((Key.filter id).id uuidV5 account)) := by
    rw [hvalue, OrdMap.find_insert_of_ne (by decide), OrdMap.find_insert_of_ne (by decide),
      OrdMap.find_insert_of_ne (by decide), OrdMap.find_insert_of_ne (by decide), OrdMap.find_insert_self]
  have hkindField : value.find (u "kind") = some (.str (u "filter")) := by
    rw [hvalue, OrdMap.find_insert_of_ne (by decide), OrdMap.find_insert_of_ne (by decide),
      OrdMap.find_insert_of_ne (by decide), OrdMap.find_insert_self]
  have hfilterField : value.find (u "filter_id") = some (.str (number id)) := by
    rw [hvalue, OrdMap.find_insert_of_ne (by decide), OrdMap.find_insert_of_ne (by decide),
      OrdMap.find_insert_self]
  have hincarnationField : value.find (u "scope_id") = some (.str filter.incarnation) := by
    rw [hvalue, OrdMap.find_insert_of_ne (by decide), OrdMap.find_insert_self]
  have hdeleted : value.find (u "deleted") = some (.bool filter.deleted) := OrdMap.find_insert_self _ _ _
  have hidOf : idOf (Json.ofObject value) = (Key.filter id).id uuidV5 account := by
    unfold idOf
    rw [Json.toObject_ofObject, hid]
    rfl
  have hkind : kindOf (Json.ofObject value) = u "filter" := by
    unfold kindOf
    rw [Json.toObject_ofObject, hkindField]
    rfl
  have hfilterOf : filterOf (Json.ofObject value) = id := by
    unfold filterOf
    rw [Json.toObject_ofObject, hfilterField]
    exact htoInt
  have hincarnationOf : incarnationOf (Json.ofObject value) = filter.incarnation := by
    unfold incarnationOf
    rw [Json.toObject_ofObject, hincarnationField]
    rfl
  have hdeletedOf : deletedOf (Json.ofObject value) = filter.deleted := by
    unfold deletedOf
    rw [Json.toObject_ofObject, hdeleted]
    rfl
  have hidentity : identity (Json.ofObject value) = some (.filter id) := by
    unfold identity
    rw [hkind, hfilterOf]
    rfl
  have hkeyOf : keyOf (Json.ofObject value) = some (.filter id) := by
    unfold keyOf
    rw [hkind, if_neg (by rintro ⟨h, -⟩; exact absurd h (by decide)), hidentity]
  have hrecord : validRecord uuidV5 account value = true := by
    have := (validRecord_filter uuidV5 account hkind).mpr
      ⟨by rw [Json.toObject_ofObject, hfilterField]; exact hvalidFilter, by rw [hfilterOf]; exact hidOf, by
        rw [hincarnationOf]; exact hincarnation⟩
    rwa [Json.toObject_ofObject] at this
  refine ⟨?_, ?_, ?_⟩
  · rw [parse_putRecord hvalid hkeyOf (replaceable_of_within hvalid hapart hwithin hkey)]
    unfold applyRecord
    rw [hkind, if_neg (by decide), if_neg (by rintro ⟨h, -⟩; exact absurd h (by decide)), if_pos rfl,
      hfilterOf, hincarnationOf, hdeletedOf]
  · refine hvalid.putRecord hidOf (huuid _) ?_ hrecord fun other hpins => ?_
    · rw [hdeleted]
      rfl
    · simp only [pinsIn, hkindField, Json.asText_str, Bool.and_eq_true, decide_eq_true_eq] at hpins
      exact absurd hpins.1.1 (by decide)
  · intro other hother key hidentity'
    rcases mem_putRecord hother with rfl | hmem
    · rw [hidentity, Option.some.injEq] at hidentity'
      exact hidentity' ▸ hkey
    · exact hwithin other hmem key hidentity'

/-- Several folders are written. -/
lemma writeFilters_spec (hvalid : ValidRecords uuidV5 account records)
    (huuid : ∀ bytes, validId (uuidV5 bytes) = true)
    (hapart : Set.InjOn (Key.id uuidV5 account) K) (hwithin : Within K records)
    {entries : List (ℤ × Filter)}
    (hentries : ∀ entry ∈ entries, ValidFilter entry.1 entry.2 ∧ Key.filter entry.1 ∈ K) :
    parseRecords (entries.foldl (fun records (id, filter) =>
        writeFilter uuidV5 account records id filter) records) =
        entries.foldl (fun state (id, filter) => state.setFilter id filter) (parseRecords records) ∧
      ValidRecords uuidV5 account (entries.foldl (fun records (id, filter) =>
        writeFilter uuidV5 account records id filter) records) := by
  induction entries generalizing records with
  | nil => exact ⟨rfl, hvalid⟩
  | cons entry rest ih =>
    obtain ⟨id, filter⟩ := entry
    obtain ⟨hfilter, hkey⟩ := hentries (id, filter) List.mem_cons_self
    obtain ⟨hparse, hvalid', hwithin'⟩ := writeFilter_spec hvalid huuid hapart hwithin hfilter hkey
    dsimp only at hparse hvalid' hwithin'
    simp only [List.foldl_cons]
    rw [← hparse]
    exact ih hvalid' hwithin' fun other hother => hentries other (List.mem_cons_of_mem _ hother)

/-- What a mutation writes. -/
def Mutation.keys (records : List Json) : Mutation → Set Key
  | pin scope peer _ _ => {.pin scope peer, .order scope}
  | order scope _ => {.order scope}
  | remove peer => {key | ∃ scope ∈ (recordScopes records).keys, key = .pin scope peer ∨ key = .order scope}
  | filters changes => {key | ∃ id filter, changes.find id = some filter ∧ key = .filter id}

/-- What the records are about. -/
def known (records : List Json) : Set Key := {key | ∃ value ∈ records, identity value = some key}

/-- No two things that the records and the mutation are about have the same id. -/
def Apart (uuidV5 : Bytes → Text) (account : Account) (records : List Json) (mutation : Mutation) : Prop :=
  Set.InjOn (Key.id uuidV5 account) (known records ∪ mutation.keys records)

/-- A mutation that the guards let through. -/
def Mutation.Accepted : Mutation → Prop
  | pin scope peer _ visibleOrder => validScope scope = true ∧ validPeer peer = true ∧
    ∀ other ∈ visibleOrder, validPeer other = true
  | order scope visibleOrder => validScope scope = true ∧ ∀ other ∈ visibleOrder, validPeer other = true
  | remove peer => validPeer peer = true
  | filters changes => ∀ id filter, changes.find id = some filter → ValidFilter id filter

/-- What is stored as the order of a list, without being an active order, names no peers. -/
def NoStaleOrder (uuidV5 : Bytes → Text) (account : Account) (records : List Json) (scope : Text) : Prop :=
  ∀ old ∈ records, idOf old = (Key.order scope).id uuidV5 account → keyOf old = none →
    readOrder (peersOf old) = []

/-- When the two sides of a mutation agree, and the records stay valid: no peers come back with an order that
is not active, there is room for another pinned peer, and no folder is only known by a deleted order. -/
def Settled (uuidV5 : Bytes → Text) (account : Account) (records : List Json) : Mutation → Prop
  | .pin scope peer pinned _ => pinned = true → NoStaleOrder uuidV5 account records scope ∧
    pinCount scope (records.filter fun old => idOf old ≠ (Key.pin scope peer).id uuidV5 account) <
      kMaximumOrder
  | .order scope _ => NoStaleOrder uuidV5 account records scope
  | .remove _ => ∀ scope, ¬Forgotten records scope
  | .filters _ => True

/-- The lists of a folder that is there are valid. -/
lemma validScope_filterScope {id incarnation : Text} (hid : validFilterId id = true)
    (hincarnation : validId incarnation = true) : validScope (filterScope id incarnation) = true := by
  have hnumber : (58 : UInt16) ∉ id := by
    obtain ⟨value, -, -, rfl⟩ := (decimalUpTo_iff (by norm_num)).mp hid
    intro hmem
    exact absurd (mem_decimal hmem).2 (by decide)
  have hsplit : split (filterScope id incarnation) 58 = [u "filter", id, incarnation] := by
    have hjoin : filterScope id incarnation = join 58 [u "filter", id, incarnation] := by
      have hfilter : u "filter:" = u "filter" ++ [58] := by decide
      have hcolon : u ":" = [58] := by decide
      unfold filterScope join
      rw [hfilter, hcolon]
      simp [List.intercalate]
    rw [hjoin]
    refine split_join ?_ (List.cons_ne_nil _ _)
    intro part hpart
    simp only [List.mem_cons, List.not_mem_nil, or_false] at hpart
    rcases hpart with rfl | rfl | rfl
    · decide
    · exact hnumber
    · exact colon_not_mem_of_validId hincarnation
  unfold validScope
  rw [hsplit]
  simp [hid, hincarnation]

/-- The lists of `removePeer` are valid. -/
lemma validScope_of_recordScopes (hvalid : ValidRecords uuidV5 account records) {scope : Text}
    (h : scope ∈ (recordScopes records).keys) : validScope scope = true := by
  have hcontains : (recordScopes records).contains scope = true :=
    OrdMap.contains_iff.mpr (OrdMap.mem_keys_iff.mp h)
  rcases contains_recordScopes.mp hcontains with h | ⟨value, hvalue, ⟨hkind, rfl⟩ | ⟨hkind, -, rfl⟩⟩
  · have hmain : scope = u "main" ∨ scope = u "archive" := by
      unfold mainScopes at h
      rw [contains_insert, contains_insert] at h
      rcases h with (h | h) | h
      · simp [OrdMap.contains] at h
      · exact Or.inl h
      · exact Or.inr h
    rcases hmain with rfl | rfl <;> decide
  · obtain ⟨hfilter, -, hincarnation⟩ := (validRecord_filter uuidV5 account hkind).mp (hvalid.each value hvalue).2.2
    exact validScope_filterScope hfilter hincarnation
  · rcases hkind with hkind | hkind
    · exact ((validRecord_pin uuidV5 account hkind).mp (hvalid.each value hvalue).2.2).1
    · exact ((validRecord_order uuidV5 account hkind).mp (hvalid.each value hvalue).2.2).1

/-- **A change and its optimistic function** show the same, and the records stay valid. -/
theorem change_spec (hvalid : ValidRecords uuidV5 account records)
    (huuid : ∀ bytes, validId (uuidV5 bytes) = true) {mutation : Mutation} (haccepted : mutation.Accepted)
    (hapart : Apart uuidV5 account records mutation) (hsettled : Settled uuidV5 account records mutation)
    {changed : List Json} (hok : mutation.changeRecords uuidV5 account records = .ok changed) :
    parseRecords changed = mutation.optimistic (parseRecords records) ∧
      ValidRecords uuidV5 account changed := by
  have hwithin : Within (known records ∪ mutation.keys records) records :=
    fun value hvalue key hkey => Or.inl ⟨value, hvalue, hkey⟩
  cases mutation with
  | pin scope peer pinned visibleOrder =>
    obtain ⟨hscope, hpeer, hvisible⟩ := haccepted
    have hpin : Key.pin scope peer ∈ known records ∪ (Mutation.pin scope peer pinned visibleOrder).keys
        records := Or.inr (Or.inl rfl)
    have horder : Key.order scope ∈ known records ∪ (Mutation.pin scope peer pinned visibleOrder).keys
        records := Or.inr (Or.inr rfl)
    unfold Mutation.changeRecords at hok
    rw [check_ok (by simp)] at hok
    obtain ⟨-, hok⟩ := hok
    cases pinned with
    | false =>
      rw [if_neg Bool.false_ne_true, Except.ok.injEq] at hok
      obtain ⟨hparse, hvalid', -⟩ :=
        removeRecord_spec hvalid huuid hapart hwithin hscope hpeer hpin horder
      unfold removeRecord at hparse hvalid'
      rw [hok] at hparse hvalid'
      exact ⟨hparse, hvalid'⟩
    | true =>
      rw [if_pos rfl] at hok
      obtain ⟨hstale, hroom⟩ := hsettled rfl
      obtain ⟨hparse, hvalid', hmem⟩ := updatePin_spec hvalid huuid hscope hpeer
        (replaceable_of_within hvalid hapart hwithin hpin) fun _ => hroom
      have hwithin' : Within (known records ∪ (Mutation.pin scope peer true visibleOrder).keys records)
          (updatePin uuidV5 account records scope peer true) := by
        intro value hvalue key hkey
        rcases hmem value hvalue with h | h
        · rw [h, Option.some.injEq] at hkey
          exact hkey ▸ hpin
        · exact hwithin value h key hkey
      -- the record that was put is not an order
      have hstale' : NoStaleOrder uuidV5 account (updatePin uuidV5 account records scope peer true)
          scope := by
        intro old hold hid hkey
        rcases hmem old hold with h | h
        · have hown := idOf_of_identity (hvalid'.each old hold).2.2 h
          have := hapart hpin horder (hown.symm.trans hid)
          cases this
        · exact hstale old h hid hkey
      obtain ⟨hordered, hvalid'', -⟩ := updateOrder_spec hvalid' huuid hscope hvisible
        (replaceable_of_within hvalid' hapart hwithin' horder) hstale' hok
      refine ⟨?_, hvalid''⟩
      rw [hordered, hparse, State.update_update]
      rfl
  | order scope visibleOrder =>
    obtain ⟨hscope, hvisible⟩ := haccepted
    have horder : Key.order scope ∈ known records ∪ (Mutation.order scope visibleOrder).keys records :=
      Or.inr rfl
    unfold Mutation.changeRecords at hok
    rw [check_ok (by simp)] at hok
    obtain ⟨hordered, hvalid', -⟩ := updateOrder_spec hvalid huuid hscope hvisible
      (replaceable_of_within hvalid hapart hwithin horder) hsettled hok.2
    exact ⟨hordered, hvalid'⟩
  | remove peer =>
    unfold Mutation.changeRecords at hok
    rw [Except.ok.injEq] at hok
    have hscopes : ∀ scope ∈ (recordScopes records).keys, validScope scope = true ∧
        Key.pin scope peer ∈ known records ∪ (Mutation.remove peer).keys records ∧
        Key.order scope ∈ known records ∪ (Mutation.remove peer).keys records := fun scope hscope =>
      ⟨validScope_of_recordScopes hvalid hscope, Or.inr ⟨scope, hscope, Or.inl rfl⟩,
        Or.inr ⟨scope, hscope, Or.inr rfl⟩⟩
    obtain ⟨hparse, hvalid'⟩ := removeRecords_spec hvalid huuid hapart hwithin haccepted hscopes
    rw [hok] at hparse hvalid'
    refine ⟨?_, hvalid'⟩
    rw [hparse, recordScopes_eq hvalid hsettled]
    rfl
  | filters changes =>
    unfold Mutation.changeRecords at hok
    rw [Except.ok.injEq] at hok
    have hentries : ∀ entry ∈ changes.entries, ValidFilter entry.1 entry.2 ∧
        Key.filter entry.1 ∈ known records ∪ (Mutation.filters changes).keys records := by
      rintro ⟨id, filter⟩ hentry
      have hfind := OrdMap.find_eq_some_iff.mpr hentry
      exact ⟨haccepted id filter hfind, Or.inr ⟨id, filter, hfind, rfl⟩⟩
    obtain ⟨hparse, hvalid'⟩ := writeFilters_spec hvalid huuid hapart hwithin hentries
    rw [hok] at hparse hvalid'
    exact ⟨hparse, hvalid'⟩

end Steps

end PinnedItems
