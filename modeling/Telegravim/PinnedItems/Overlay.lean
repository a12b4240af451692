import Telegravim.Foundation.FlatSet
import Telegravim.PinnedItems.Mutations

set_option autoImplicit false

/-!
# Pinned items: what a list shows

What is pinned here is laid over what is pinned in the cloud: a peer that is pinned here is shown, a peer that
is unpinned here is not, and any other is shown when the cloud has it. The order that is kept here may name
peers that are not shown any more.

## Main definitions

* `PinnedItems.State.overlay` — what a list shows over the list of the cloud.
* `PinnedItems.Overlaid` — what is shown, and in which order.

## Main results

* `PinnedItems.overlaid_overlay` — a list whose order repeats no peer is laid over the cloud exactly.
* `PinnedItems.orderly_optimistic`, `PinnedItems.orderly_parse` — no order repeats a peer.
-/

namespace PinnedItems

open Text LocalData

/-- The peers that a list shows: those of the cloud, with those that are pinned and without those that are
unpinned here. -/
def activePeers (pins : OrdMap ℕ Bool) (cloud : List ℕ) : FlatSet ℕ :=
  pins.entries.foldl (fun active (peer, pinned) => if pinned then active.insert peer else active.remove peer)
    (FlatSet.ofList cloud)

/-- Move the peers of an order that are active to the result. -/
def takeActive (taken : List ℕ × FlatSet ℕ) (order : List ℕ) : List ℕ × FlatSet ℕ :=
  order.foldl (fun (result, active) peer =>
    if peer ∈ active then (result ++ [peer], active.remove peer) else (result, active)) taken

/-- What a list shows over the list of the cloud. -/
def State.overlay (state : State) (scope : Text) (cloud : List ℕ) : List ℕ :=
  match state.scopes.find scope with
  | none => cloud
  | some data =>
    let taken := takeActive (takeActive ([], activePeers data.pins cloud) data.order) cloud
    taken.1 ++ taken.2.elems

/-- A list laid over the list of the cloud: nothing is shown twice, what is shown is pinned here or in the cloud
and not unpinned here, and first comes what the order has, in this order, then what the cloud has besides, in
the order of the cloud, then the rest. -/
structure Overlaid (data : Scope) (cloud result : List ℕ) : Prop where
  nodup : result.Nodup
  mem : ∀ peer, peer ∈ result ↔
    (peer ∈ cloud ∨ data.pins.find peer = some true) ∧ data.pins.find peer ≠ some false
  order : ∃ rest, result = data.order.filter (· ∈ result) ++
      cloud.filter (fun peer => peer ∈ result ∧ peer ∉ data.order) ++ rest ∧
    ∀ peer ∈ rest, peer ∉ data.order ∧ peer ∉ cloud

/-! ### Active peers -/

lemma mem_foldl_active {entries : List (ℕ × Bool)} (hentries : entries.Pairwise fun a b => a.1 < b.1)
    (active : FlatSet ℕ) (peer : ℕ) :
    peer ∈ entries.foldl (fun active (peer, pinned) =>
        if pinned then active.insert peer else active.remove peer) active ↔
      (peer, true) ∈ entries ∨ (peer ∈ active ∧ (peer, false) ∉ entries) := by
  induction entries generalizing active with
  | nil => simp
  | cons entry rest ih =>
    obtain ⟨hfirst, hrest⟩ := List.pairwise_cons.mp hentries
    obtain ⟨other, pinned⟩ := entry
    have hother : ∀ value, (other, value) ∉ rest := by
      intro value hmem
      exact absurd (hfirst _ hmem) (lt_irrefl _)
    rw [List.foldl_cons, ih hrest]
    by_cases hpeer : peer = other
    · subst hpeer
      cases pinned <;> simp [hother]
    · cases pinned <;> simp [hpeer]

/-- The active peers are those that are to be shown. -/
lemma mem_activePeers {pins : OrdMap ℕ Bool} {cloud : List ℕ} {peer : ℕ} :
    peer ∈ activePeers pins cloud ↔
      (peer ∈ cloud ∨ pins.find peer = some true) ∧ pins.find peer ≠ some false := by
  unfold activePeers
  rw [mem_foldl_active pins.sorted, FlatSet.mem_ofList]
  rw [← OrdMap.find_eq_some_iff, ← OrdMap.find_eq_some_iff]
  cases pins.find peer with
  | none => simp
  | some pinned => cases pinned <;> simp

/-- An order that repeats no peer. -/
lemma takeActive_eq {order : List ℕ} (horder : order.Nodup) (result : List ℕ) (active : FlatSet ℕ) :
    takeActive (result, active) order =
      (result ++ order.filter (· ∈ active), active.filter (· ∉ order)) := by
  induction order generalizing result active with
  | nil =>
    have hall : active.filter (fun peer => peer ∉ ([] : List ℕ)) = active :=
      FlatSet.ext_mem fun peer => by simp
    rw [List.filter_nil, List.append_nil, hall]
    rfl
  | cons first rest ih =>
    obtain ⟨hfirst, hrest⟩ := List.nodup_cons.mp horder
    have hstep : takeActive (result, active) (first :: rest) = takeActive
        (if first ∈ active then (result ++ [first], active.remove first) else (result, active)) rest := rfl
    rw [hstep]
    by_cases hactive : first ∈ active
    · have hothers : rest.filter (· ∈ active.remove first) = rest.filter (· ∈ active) := by
        apply List.filter_congr
        intro peer hpeer
        have hne : peer ≠ first := by
          rintro rfl
          exact hfirst hpeer
        simp [hne]
      rw [if_pos hactive, ih hrest, hothers, List.filter_cons_of_pos (by simpa using hactive),
        List.append_assoc, List.singleton_append]
      congr 1
      apply FlatSet.ext_mem
      intro peer
      simp only [FlatSet.mem_filter, FlatSet.mem_remove, decide_eq_true_eq, List.mem_cons, not_or]
      tauto
    · rw [if_neg hactive, ih hrest, List.filter_cons_of_neg (by simpa using hactive)]
      congr 1
      apply FlatSet.ext_mem
      intro peer
      simp only [FlatSet.mem_filter, decide_eq_true_eq, List.mem_cons, not_or]
      constructor
      · rintro ⟨hpeer, hnot⟩
        refine ⟨hpeer, ?_, hnot⟩
        rintro rfl
        exact hactive hpeer
      · rintro ⟨hpeer, -, hnot⟩
        exact ⟨hpeer, hnot⟩

/-- **A list is laid over the cloud exactly**, when its order repeats no peer.

**Proof sketch.** The order takes its active peers, the cloud takes those that are left, and what is then left
is neither in the order nor in the cloud. -/
theorem overlaid_overlay {state : State} {scope : Text} (horder : (state.scope scope).order.Nodup)
    {cloud : List ℕ} (hcloud : cloud.Nodup) :
    Overlaid (state.scope scope) cloud (state.overlay scope cloud) := by
  unfold State.overlay State.scope at *
  cases hfind : state.scopes.find scope with
  | none =>
    rw [Option.getD_none]
    dsimp only
    refine ⟨hcloud, fun peer => ?_, [], ?_, fun peer hpeer => nomatch hpeer⟩
    · have hnone : ({} : Scope).pins.find peer = none := rfl
      simp [hnone]
    · have hall : cloud.filter (fun peer => peer ∈ cloud ∧ peer ∉ ([] : List ℕ)) = cloud := by
        apply List.filter_eq_self.mpr
        intro peer hpeer
        simp [hpeer]
      rw [List.filter_nil, List.nil_append, List.append_nil, hall]
  | some data =>
    rw [hfind, Option.getD_some] at horder
    rw [Option.getD_some]
    dsimp only
    rw [takeActive_eq horder, takeActive_eq hcloud]
    dsimp only
    rw [List.nil_append]
    have hmem : ∀ peer, peer ∈ data.order.filter (· ∈ activePeers data.pins cloud) ++
        cloud.filter (· ∈ (activePeers data.pins cloud).filter (· ∉ data.order)) ++
        (((activePeers data.pins cloud).filter (· ∉ data.order)).filter (· ∉ cloud)).elems ↔
          peer ∈ activePeers data.pins cloud := by
      intro peer
      rw [List.mem_append, List.mem_append, ← FlatSet.mem_def]
      simp only [List.mem_filter, FlatSet.mem_filter, decide_eq_true_eq]
      tauto
    refine ⟨?_, fun peer => (hmem peer).trans mem_activePeers,
      (((activePeers data.pins cloud).filter (· ∉ data.order)).filter (· ∉ cloud)).elems, ?_, ?_⟩
    · rw [List.nodup_append', List.nodup_append']
      refine ⟨⟨horder.filter _, hcloud.filter _, ?_⟩, FlatSet.nodup _, ?_⟩
      · intro peer hfirst hsecond
        simp only [List.mem_filter, FlatSet.mem_filter, decide_eq_true_eq] at hfirst hsecond
        exact hsecond.2.2 hfirst.1
      · intro peer hfirst hsecond
        rw [← FlatSet.mem_def] at hsecond
        simp only [List.mem_append, List.mem_filter, FlatSet.mem_filter, decide_eq_true_eq] at hfirst hsecond
        tauto
    · congr 2
      · apply List.filter_congr
        intro peer _
        exact decide_eq_decide.mpr (hmem peer).symm
      · apply List.filter_congr
        intro peer _
        apply decide_eq_decide.mpr
        rw [hmem peer, FlatSet.mem_filter, decide_eq_true_eq]
    · intro peer hpeer
      rw [← FlatSet.mem_def] at hpeer
      simp only [FlatSet.mem_filter, decide_eq_true_eq] at hpeer
      exact ⟨hpeer.1.2, hpeer.2⟩

/-- A peer that is pinned and first in the order is shown first. -/
lemma head_overlay {state : State} {scope : Text} {peer : ℕ} {rest : List ℕ}
    (horder : (state.scope scope).order.Nodup) (hfirst : (state.scope scope).order = peer :: rest)
    (hpinned : (state.scope scope).pins.find peer = some true) {cloud : List ℕ} (hcloud : cloud.Nodup) :
    (state.overlay scope cloud).head? = some peer := by
  obtain ⟨-, hmem, others, hresult, -⟩ := overlaid_overlay horder hcloud
  have hshown : peer ∈ state.overlay scope cloud :=
    (hmem peer).mpr ⟨Or.inr hpinned, by rw [hpinned]; decide⟩
  rw [hfirst, List.filter_cons_of_pos (by simpa using hshown)] at hresult
  rw [hresult]
  rfl

/-! ### Orders that repeat no peer -/

/-- No order of a state repeats a peer. -/
def Orderly (state : State) : Prop := ∀ scope, (state.scope scope).order.Nodup

lemma orderly_empty : Orderly {} := fun _ => List.nodup_nil

lemma Orderly.update {state : State} (h : Orderly state) (scope : Text) {change : Scope → Scope}
    (hchange : ∀ data : Scope, data.order.Nodup → (change data).order.Nodup) :
    Orderly (state.update scope change) := by
  intro other
  by_cases hscope : other = scope
  · subst hscope
    rw [State.scope_update_self]
    exact hchange _ (h other)
  · rw [State.scope_update_of_ne _ hscope]
    exact h other

/-- Mutations keep orders that repeat no peer. -/
lemma orderly_optimistic {state : State} (h : Orderly state) (mutation : Mutation) :
    Orderly (mutation.optimistic state) := by
  cases mutation with
  | pin scope peer pinned visibleOrder =>
    refine h.update scope fun data hdata => ?_
    dsimp only
    split_ifs
    · exact nodup_mergeOrder _ _
    · exact hdata.filter _
  | order scope visibleOrder => exact h.update scope fun data _ => nodup_mergeOrder _ _
  | remove peer =>
    unfold Mutation.optimistic
    refine List.foldlRecOn _ _ h fun state hstate scope _ => ?_
    exact hstate.update scope fun data hdata => hdata.filter _
  | filters changes =>
    unfold Mutation.optimistic
    exact List.foldlRecOn _ _ h fun state hstate entry _ => hstate

lemma kindOf_of_identity_order {value : Json} {scope : Text} (h : identity value = some (.order scope)) :
    kindOf value = u "order" := by
  rcases identity_cases value with ⟨-, hother⟩ | ⟨hkind, -⟩ | ⟨-, hother⟩ | hother
  · rw [h] at hother
    cases hother
  · exact hkind
  · rw [h] at hother
    cases hother
  · rw [h] at hother
    cases hother

/-- The orders of a valid module repeat no peer. -/
lemma orderly_parse {uuidV5 : Bytes → Text} {account : Account} {module : JObject}
    (h : validate uuidV5 account module = true) : Orderly (parse module) := by
  obtain ⟨-, -, -, hvalid⟩ := validate_iff.mp h
  intro scope
  unfold parse
  by_cases hvalue : ∃ value ∈ recordsOf module, keyOf value = some (.order scope)
  · obtain ⟨value, hmem, hkey⟩ := hvalue
    have hkind := kindOf_of_identity_order (identity_of_keyOf hkey)
    obtain ⟨-, -, -, -, hkeys, hnodup⟩ :=
      (validRecord_order uuidV5 account hkind).mp (hvalid.each value hmem).2.2
    rw [order_parse hvalid hmem hkey, readOrder_eq_map hkeys]
    exact (nodup_keys_iff hkeys).mp hnodup
  · rw [order_parse_none fun value hmem hkey => hvalue ⟨value, hmem, hkey⟩]
    exact List.nodup_nil

end PinnedItems
