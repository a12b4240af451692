import Telegravim.PinnedItems.Mutations

set_option autoImplicit false

/-!
# Pinned items: runs of mutations

Mutations follow each other: each is accepted on what is shown, changes what is shown at once, and changes
the module when the store gets to it. What is shown should be what `Parse` will show of the module, so that
nothing jumps when the module is read again.

The two sides agree as long as nothing that is not shown comes back. `Parse` passes over the order of a list
when it is deleted, and `UpdateOrder` puts its peers into the order that it writes; `removePeer` looks at
such orders too. A list of pinned peers is also limited where modules are read, and not where they are
written.

## Main definitions

* `PinnedItems.Run` — the modules and what is shown, over a run of mutations.

## Main results

* `PinnedItems.shown_eq_persisted` — in a run of settled mutations what is shown is what the module says,
  and the module is valid.
* `PinnedItems.deleted_order_returns` — a deleted order that is saved again.
-/

namespace PinnedItems

open Text LocalData

section Runs

variable {uuidV5 : Bytes → Text} {account : Account}

/-- Folders that can be written. -/
def ValidFilters (filters : OrdMap ℤ Filter) : Prop :=
  ∀ id filter, filters.find id = some filter → ValidFilter id filter

lemma validFilters_emplace {filters : OrdMap ℤ Filter} (h : ValidFilters filters) {id : ℤ} {filter : Filter}
    (hfilter : ValidFilter id filter) : ValidFilters (filters.emplace id filter) := by
  intro other found hfind
  rw [OrdMap.find_emplace] at hfind
  split_ifs at hfind with hsame
  · rw [Option.some.injEq] at hfind
    subst hsame
    cases hprevious : filters.find other with
    | none =>
      rw [hprevious, Option.getD_none] at hfind
      exact hfind ▸ hfilter
    | some previous =>
      rw [hprevious, Option.getD_some] at hfind
      exact hfind ▸ h other previous hprevious
  · exact h other found hfind

/-- The folders of a valid module can be written. -/
lemma validFilters_parse {records : List Json} (hvalid : ValidRecords uuidV5 account records) :
    ValidFilters (parseRecords records).filters := by
  intro id filter hfind
  obtain ⟨value, hvalue, hkind, rfl, rfl⟩ := exists_of_filters_parse hvalid hfind
  obtain ⟨hfilter, -, hincarnation⟩ := (validRecord_filter uuidV5 account hkind).mp (hvalid.each value hvalue).2.2
  obtain ⟨hpos, hlt, -⟩ := toInt_of_validFilterId hfilter
  exact ⟨hpos, hlt, hincarnation⟩

/-- What `syncFilters` changes can be written. -/
lemma validFilters_filterChanges (huuid : ∀ bytes, validId (uuidV5 bytes) = true) {shown : State}
    (hshown : ValidFilters shown.filters) {ids : List Int32}
    (hids : (activeFilters ids).all (0 < ·) = true)
    (newId : ℤ → { id : Text // validId id = true }) :
    ValidFilters (filterChanges uuidV5 account shown ids newId) := by
  have hactive : ∀ id ∈ activeFilters ids, 0 < id ∧ id < 2 ^ 31 := by
    intro id hid
    refine ⟨of_decide_eq_true (List.all_eq_true.mp hids id hid), ?_⟩
    obtain ⟨hmem, -⟩ := List.mem_filter.mp hid
    obtain ⟨value, -, rfl⟩ := List.mem_map.mp hmem
    exact value.toInt_lt
  unfold filterChanges
  refine List.foldlRecOn _ _ (List.foldlRecOn _ _ (fun _ _ h => nomatch h) ?_) ?_
  · intro changes hchanges id hid
    obtain ⟨hpos, hlt⟩ := hactive id hid
    split
    · exact validFilters_emplace hchanges ⟨hpos, hlt, huuid _⟩
    · split_ifs
      · exact validFilters_emplace hchanges ⟨hpos, hlt, (newId id).2⟩
      · exact hchanges
  · rintro changes hchanges ⟨id, filter⟩ hentry
    dsimp only
    split_ifs
    · exact validFilters_emplace hchanges (hshown id filter (OrdMap.find_eq_some_iff.mpr hentry))
    · exact hchanges

/-- What the guards let through. -/
lemma accepted_of_mutation (huuid : ∀ bytes, validId (uuidV5 bytes) = true) {shown : State}
    (hshown : ValidFilters shown.filters) {call : Call} {mutation : Mutation}
    (h : call.mutation uuidV5 account shown = some mutation) : mutation.Accepted := by
  cases call with
  | setPinned scope peer pinned visibleOrder =>
    unfold Call.mutation at h
    dsimp only at h
    split_ifs at h with hinvalid hpinned hvisible hlength
    · rw [not_or, Bool.not_eq_false, Bool.not_eq_false] at hinvalid
      rw [not_or, Bool.not_eq_false, List.all_eq_true] at hvisible
      cases h
      refine ⟨hinvalid.1, hinvalid.2, fun other hother => ?_⟩
      rcases List.mem_cons.mp hother with rfl | hmem
      · exact hinvalid.2
      · exact hvisible.2 other (List.mem_of_mem_filter hmem)
    · rw [not_or, Bool.not_eq_false, Bool.not_eq_false] at hinvalid
      cases h
      exact ⟨hinvalid.1, hinvalid.2, fun other hother => (List.not_mem_nil hother).elim⟩
  | saveOrder scope visibleOrder =>
    unfold Call.mutation at h
    dsimp only at h
    split_ifs at h with hinvalid
    rw [not_or, not_or, Bool.not_eq_false, Bool.not_eq_false, List.all_eq_true] at hinvalid
    cases h
    exact ⟨hinvalid.1, hinvalid.2.2⟩
  | removePeer peer =>
    unfold Call.mutation at h
    dsimp only at h
    split_ifs at h with hinvalid
    rw [Bool.not_eq_false] at hinvalid
    cases h
    exact hinvalid
  | syncFilters ids newId =>
    unfold Call.mutation at h
    dsimp only at h
    split_ifs at h with hids hempty
    rw [Bool.not_eq_false] at hids
    cases h
    exact validFilters_filterChanges huuid hshown hids newId

/-! ### Runs -/

/-- A run: calls that are accepted on what is shown, and whose changes succeed. Each step is of a kind. -/
inductive Run (uuidV5 : Bytes → Text) (account : Account) (Step : List Json → Mutation → Prop)
    (start : JObject) : JObject → State → Prop
  | start : Run uuidV5 account Step start start (parse start)
  | step {module changed : JObject} {shown : State} {call : Call} {mutation : Mutation} :
      Run uuidV5 account Step start module shown → call.mutation uuidV5 account shown = some mutation →
      Step (recordsOf module) mutation → mutation.change uuidV5 account module = .ok changed →
      Run uuidV5 account Step start changed (mutation.optimistic shown)

/-- A step in which the ids tell things apart and nothing comes back that is not shown. -/
def SettledStep (uuidV5 : Bytes → Text) (account : Account) (records : List Json) (mutation : Mutation) :
    Prop :=
  Apart uuidV5 account records mutation ∧ Settled uuidV5 account records mutation

/-- **What is shown is persisted.** In a run of settled steps from a valid module, `Parse` of the module is
what is shown, and the module is valid.

**Proof sketch.** By induction on the run: what is shown is what the module says, so the guards accept only
what can be written; then `change_spec` says what the changed records show. -/
theorem shown_eq_persisted (huuid : ∀ bytes, validId (uuidV5 bytes) = true) {start module : JObject}
    (hstart : validate uuidV5 account start = true) {shown : State}
    (hrun : Run uuidV5 account (SettledStep uuidV5 account) start module shown) :
    parse module = shown ∧ validate uuidV5 account module = true := by
  induction hrun with
  | start => exact ⟨rfl, hstart⟩
  | @step module changed shown call mutation _ hcall hstep hchange ih =>
    obtain ⟨rfl, hvalidate⟩ := ih
    obtain ⟨hid, hversion, -, hvalid⟩ := validate_iff.mp hvalidate
    have haccepted := accepted_of_mutation huuid (validFilters_parse hvalid) hcall
    unfold Mutation.change at hchange
    obtain ⟨records, hrecords, hmodule⟩ := bind_ok.mp hchange
    cases hmodule
    obtain ⟨hparse, hvalid'⟩ := change_spec hvalid huuid haccepted hstep.1 hstep.2 hrecords
    have hrecordsOf : recordsOf (module.insert (u "records") (.arr records)) = records := by
      unfold recordsOf
      rw [OrdMap.find_insert_self, Json.asArray_arr]
    refine ⟨?_, validate_iff.mpr ⟨?_, ?_, ?_, ?_⟩⟩
    · unfold parse
      rw [hrecordsOf]
      exact hparse
    · rw [OrdMap.find_insert_of_ne (by decide)]
      exact hid
    · rw [OrdMap.find_insert_of_ne (by decide)]
      exact hversion
    · rw [OrdMap.find_insert_self]
      rfl
    · rw [hrecordsOf]
      exact hvalid'

end Runs

/-! ### A deleted order -/

section Example

/-- The UUID of the order of the main list of an account; other names are not needed. -/
def mainOrderUuid (bytes : Bytes) : Text :=
  if bytes = Utf8.toUtf8 (u "production:1:pinned_items:order:main") then
    u "4c5a5a6c-003d-5ee3-a4e1-8766aa2ba48e"
  else u "59e658e7-cfbd-5d7f-8874-7da738a2632c"

def firstAccount : Account := ⟨u "production", u "1"⟩

/-- A user. -/
def userJson (id : String) : Json := .obj [(u "peer_id", .str (u id)), (u "peer_type", .str (u "user"))]

/-- The order of the main list, with a user. -/
def mainOrder (deleted : Bool) : Json :=
  .ofObject (object [(u "id", .str (u "4c5a5a6c-003d-5ee3-a4e1-8766aa2ba48e")), (u "kind", .str (u "order")),
    (u "scope", .str (u "main")), (u "deleted", .bool deleted), (u "peers", .arr [userJson "1"])])

/-- A module with the order of the main list. -/
def orderModule (deleted : Bool) : JObject :=
  object [(u "module_id", .str (u "pinned_items")), (u "schema_version", .num 1),
    (u "records", .arr [mainOrder deleted])]

lemma validId_mainOrderUuid (bytes : Bytes) : validId (mainOrderUuid bytes) = true := by
  unfold mainOrderUuid
  split_ifs <;> decide +kernel

/-- The order of the main list is all that is known and written. -/
lemma apart_orderModule (deleted : Bool) :
    Apart mainOrderUuid firstAccount (recordsOf (orderModule deleted)) (.order (u "main") [2]) := by
  intro key hkey other hother _
  have hall : ∀ key ∈ known (recordsOf (orderModule deleted)) ∪
      (Mutation.order (u "main") [2]).keys (recordsOf (orderModule deleted)), key = .order (u "main") := by
    rintro key (⟨value, hvalue, hidentity⟩ | hkey)
    · have hvalue' : value ∈ [mainOrder deleted] := hvalue
      rw [List.mem_singleton.mp hvalue'] at hidentity
      have hmain : identity (mainOrder deleted) = some (.order (u "main")) := by
        cases deleted <;> decide +kernel
      rw [hmain, Option.some.injEq] at hidentity
      exact hidentity.symm
    · exact hkey
  rw [hall key hkey, hall other hother]

/-- The call is accepted. -/
lemma saveOrder_mutation (shown : State) :
    (Call.saveOrder (u "main") [2]).mutation mainOrderUuid firstAccount shown =
      some (.order (u "main") [2]) := by
  have hnot : ¬(validScope (u "main") = false ∨ ([2] : List ℕ).length > kMaximumOrder ∨
      ([2] : List ℕ).all validPeer = false) := by
    decide +kernel
  unfold Call.mutation
  simp only [if_neg hnot]

/-- A change of the module and the order that the changed module has. -/
lemma saveOrder_change (deleted : Bool) : ∃ changed,
    (Mutation.order (u "main") [2]).change mainOrderUuid firstAccount (orderModule deleted) = .ok changed ∧
      ((parse changed).scope (u "main")).order = [2, 1] := by
  have hrun : ((Mutation.order (u "main") [2]).change mainOrderUuid firstAccount
      (orderModule deleted)).toOption.any fun changed =>
        decide (((parse changed).scope (u "main")).order = [2, 1]) := by
    cases deleted <;> decide +kernel
  obtain ⟨changed, hchanged, horder⟩ := (Option.any_eq_true _ _).mp hrun
  exact ⟨changed, toOption_eq_some.mp hchanged, of_decide_eq_true horder⟩

/-- An order that is active is kept behind the one that is saved, on both sides. -/
theorem active_order_kept : ∃ changed,
    (parse changed = (Mutation.order (u "main") [2]).optimistic (parse (orderModule false)) ∧
      validate mainOrderUuid firstAccount changed = true) ∧
    ((parse changed).scope (u "main")).order = [2, 1] := by
  obtain ⟨changed, hchange, horder⟩ := saveOrder_change false
  have hsettled : Settled mainOrderUuid firstAccount (recordsOf (orderModule false))
      (.order (u "main") [2]) := by
    intro old hold _ hkey
    have hold' : old ∈ [mainOrder false] := hold
    rw [List.mem_singleton.mp hold'] at hkey
    exact absurd hkey (by decide +kernel)
  exact ⟨changed, shown_eq_persisted validId_mainOrderUuid (by decide +kernel)
    (.step .start (saveOrder_mutation _) ⟨apart_orderModule false, hsettled⟩ hchange), horder⟩

/-- **A deleted order returns.** The order of the main list is deleted and names a user. Another user is
saved as its order: the list shows the other user alone, and the module then names both. -/
theorem deleted_order_returns :
    validate mainOrderUuid firstAccount (orderModule true) = true ∧
    ((parse (orderModule true)).scope (u "main")).order = [] ∧
    ∃ changed shown, Run mainOrderUuid firstAccount (Apart mainOrderUuid firstAccount) (orderModule true)
        changed shown ∧
      (shown.scope (u "main")).order = [2] ∧ ((parse changed).scope (u "main")).order = [2, 1] := by
  obtain ⟨changed, hchange, horder⟩ := saveOrder_change true
  refine ⟨by decide +kernel, by decide +kernel, changed, _,
    .step .start (saveOrder_mutation _) (apart_orderModule true) hchange, by decide +kernel, horder⟩

end Example

end PinnedItems
