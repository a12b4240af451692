import Telegravim.PinnedItems.Overlay
import Telegravim.PinnedItems.Run

set_option autoImplicit false

/-!
# Pinned items: the object

`LocalPinnedItems` keeps what the store has and the mutations that the store has not settled yet, and shows the
one changed by the others. One job runs at a time: the module is loaded, or the first mutation is written and
the module is read again. A mutation that fails is taken back, so what is shown may go back to what it was.

The texts of errors and the callbacks of callers are left out. A callback may make another call, which is then
a call after the answer.

## Main definitions

* `PinnedItems.LocalPinnedItems` — the object, with its calls and the answers of its jobs.
* `PinnedItems.LocalPinnedItems.Reachable` — the objects that calls and answers lead to.
* `PinnedItems.LocalPinnedItems.Since` — what happens after a call, until the next call for its peer.

## Main results

* `PinnedItems.LocalPinnedItems.Reachable.shown_eq` — what is shown, and no order repeats a peer.
* `PinnedItems.LocalPinnedItems.overlay_of_reachable` — every list is laid over the cloud exactly, and a peer
  stays pinned or unpinned.
* `PinnedItems.LocalPinnedItems.pins_taken_back` — a peer that is not first any more, and one that is not pinned
  any more.
* `PinnedItems.stored_pin` — a pin that is written is read again.
-/

namespace PinnedItems

open Text LocalData

/-- What runs: the module is loaded, or the first mutation is written. -/
inductive Job where
  | load
  | change
  deriving DecidableEq

structure LocalPinnedItems where
  committed : State := {}
  shown : State := {}
  mutations : List Mutation := []
  loaded : Bool := false
  reloadPending : Bool := false
  job : Option Job := none

namespace LocalPinnedItems

/-- What a state shows after mutations. -/
def optimistic (state : State) (mutations : List Mutation) : State :=
  mutations.foldl (fun state mutation => mutation.optimistic state) state

variable (uuidV5 : Bytes → Text) (account : Account) (items : LocalPinnedItems)

def rebuildVisible : LocalPinnedItems :=
  { items with shown := optimistic items.committed items.mutations }

def loadSnapshot : LocalPinnedItems := { items with job := some .load }

def runNextMutation : LocalPinnedItems :=
  if items.job.isSome then items
  else if items.loaded = false ∧ items.mutations ≠ [] then items.loadSnapshot
  else if items.mutations = [] then
    if items.reloadPending then { items with reloadPending := false }.loadSnapshot else items
  else { items with job := some .change }

def reload : LocalPinnedItems :=
  if items.job.isSome ∨ items.mutations ≠ [] then { items with reloadPending := true }
  else items.loadSnapshot

def mutate (mutation : Mutation) : LocalPinnedItems :=
  { items with
    mutations := items.mutations ++ [mutation]
    shown := mutation.optimistic items.shown }.runNextMutation

/-- The mutation of a call: folders are not synced before the module is loaded. -/
def mutationOf (call : Call) : Option Mutation :=
  match call with
  | .syncFilters ids newId =>
    if items.loaded then (Call.syncFilters ids newId).mutation uuidV5 account items.shown else none
  | call => call.mutation uuidV5 account items.shown

def call (call : Call) : LocalPinnedItems :=
  match items.mutationOf uuidV5 account call with
  | none => items
  | some mutation => items.mutate mutation

/-- What a module that was read shows: nothing is read of one that is not valid. -/
def readState (read : Option JObject) : Option State :=
  (read.filter fun module => validate uuidV5 account module).map parse

/-- The module is loaded, or is not and all mutations fail. -/
def loadDone (read : Option State) : LocalPinnedItems :=
  match read with
  | some state =>
    { items with job := none, committed := state, loaded := true }.rebuildVisible.runNextMutation
  | none =>
    { items with job := none, mutations := [], reloadPending := false }.rebuildVisible.runNextMutation

/-- The first mutation is settled, and the module was read again. -/
def changeDone (read : Option State) : LocalPinnedItems :=
  { items with
    job := none
    mutations := items.mutations.tail
    committed := read.getD items.committed }.rebuildVisible.runNextMutation

/-- The job that runs is done, with the module that the store gives, if any. -/
def answer (read : Option JObject) : LocalPinnedItems :=
  match items.job with
  | none => items
  | some .load => items.loadDone (readState uuidV5 account read)
  | some .change => items.changeDone (readState uuidV5 account read)

/-- The objects that calls and answers lead to. -/
inductive Reachable : LocalPinnedItems → Prop
  | start : Reachable {}
  | call {items : LocalPinnedItems} (made : Call) :
      Reachable items → Reachable (items.call uuidV5 account made)
  | reload {items : LocalPinnedItems} : Reachable items → Reachable items.reload
  | answer {items : LocalPinnedItems} (read : Option JObject) :
      Reachable items → Reachable (items.answer uuidV5 account read)

/-! ### What is shown -/

section Shown

variable {uuidV5 account items}

/-- The next job changes nothing that is shown. -/
lemma runNextMutation_fields (items : LocalPinnedItems) :
    items.runNextMutation.committed = items.committed ∧ items.runNextMutation.shown = items.shown ∧
      items.runNextMutation.mutations = items.mutations := by
  unfold runNextMutation
  split_ifs <;> exact ⟨rfl, rfl, rfl⟩

lemma reload_fields (items : LocalPinnedItems) :
    items.reload.committed = items.committed ∧ items.reload.shown = items.shown ∧
      items.reload.mutations = items.mutations := by
  unfold reload
  split_ifs <;> exact ⟨rfl, rfl, rfl⟩

/-- A call adds its mutation, or changes nothing. -/
lemma call_fields (items : LocalPinnedItems) (made : Call) :
    (items.call uuidV5 account made = items ∧ items.mutationOf uuidV5 account made = none) ∨
      ∃ mutation, items.mutationOf uuidV5 account made = some mutation ∧
        (items.call uuidV5 account made).committed = items.committed ∧
        (items.call uuidV5 account made).shown = mutation.optimistic items.shown ∧
        (items.call uuidV5 account made).mutations = items.mutations ++ [mutation] := by
  unfold call
  cases hmutation : items.mutationOf uuidV5 account made with
  | none => exact Or.inl ⟨rfl, rfl⟩
  | some mutation => exact Or.inr ⟨mutation, rfl, runNextMutation_fields _⟩

/-- An answer: nothing was running, the module was loaded or not, or the first mutation was settled. -/
lemma answer_fields (items : LocalPinnedItems) (read : Option JObject) :
    (items.job = none ∧ items.answer uuidV5 account read = items) ∨
      ((items.answer uuidV5 account read).shown = optimistic (items.answer uuidV5 account read).committed
        (items.answer uuidV5 account read).mutations ∧
      ((∃ state, items.job = some .load ∧ readState uuidV5 account read = some state ∧
          (items.answer uuidV5 account read).committed = state ∧
          (items.answer uuidV5 account read).mutations = items.mutations) ∨
        (items.job = some .load ∧ readState uuidV5 account read = none ∧
          (items.answer uuidV5 account read).committed = items.committed ∧
          (items.answer uuidV5 account read).mutations = []) ∨
        (items.job = some .change ∧
          (items.answer uuidV5 account read).committed =
            (readState uuidV5 account read).getD items.committed ∧
          (items.answer uuidV5 account read).mutations = items.mutations.tail))) := by
  unfold answer
  rcases items.job with _ | _ | _
  · exact Or.inl ⟨rfl, rfl⟩
  · right
    dsimp only
    unfold loadDone
    cases readState uuidV5 account read with
    | some state =>
      obtain ⟨hcommitted, hshown, hmutations⟩ := runNextMutation_fields
        { items with job := none, committed := state, loaded := true }.rebuildVisible
      dsimp only
      rw [hcommitted, hshown, hmutations]
      exact ⟨rfl, Or.inl ⟨state, rfl, rfl, rfl, rfl⟩⟩
    | none =>
      obtain ⟨hcommitted, hshown, hmutations⟩ := runNextMutation_fields
        { items with job := none, mutations := [], reloadPending := false }.rebuildVisible
      dsimp only
      rw [hcommitted, hshown, hmutations]
      exact ⟨rfl, Or.inr (Or.inl ⟨rfl, rfl, rfl, rfl⟩)⟩
  · right
    dsimp only
    unfold changeDone
    obtain ⟨hcommitted, hshown, hmutations⟩ := runNextMutation_fields
      { items with
        job := none
        mutations := items.mutations.tail
        committed := (readState uuidV5 account read).getD items.committed }.rebuildVisible
    rw [hcommitted, hshown, hmutations]
    exact ⟨rfl, Or.inr (Or.inr ⟨rfl, rfl, rfl⟩)⟩

lemma optimistic_append (state : State) (mutations : List Mutation) (mutation : Mutation) :
    optimistic state (mutations ++ [mutation]) = mutation.optimistic (optimistic state mutations) := by
  unfold optimistic
  rw [List.foldl_append, List.foldl_cons, List.foldl_nil]

lemma orderly_optimistics {state : State} (h : Orderly state) (mutations : List Mutation) :
    Orderly (optimistic state mutations) :=
  List.foldlRecOn mutations _ h fun _ hstate mutation _ => orderly_optimistic hstate mutation

/-- What is read repeats no peer. -/
lemma orderly_readState {read : Option JObject} {state : State}
    (h : readState uuidV5 account read = some state) : Orderly state := by
  unfold readState at h
  obtain ⟨module, hmodule, rfl⟩ := Option.map_eq_some_iff.mp h
  exact orderly_parse (Option.filter_eq_some_iff.mp hmodule).2

/-- **What is shown** is what the store has, changed by the mutations that are not settled, and no order
repeats a peer. -/
theorem Reachable.shown_eq (h : Reachable uuidV5 account items) :
    items.shown = optimistic items.committed items.mutations ∧ Orderly items.committed := by
  induction h with
  | start => exact ⟨rfl, orderly_empty⟩
  | @call items made _ ih =>
    rcases items.call_fields made with ⟨heq, -⟩ | ⟨mutation, -, hcommitted, hshown, hmutations⟩
    · rw [heq]
      exact ih
    · rw [hcommitted, hshown, hmutations, optimistic_append, ih.1]
      exact ⟨rfl, ih.2⟩
  | @reload items _ ih =>
    obtain ⟨hcommitted, hshown, hmutations⟩ := items.reload_fields
    rw [hcommitted, hshown, hmutations]
    exact ih
  | @answer items read _ ih =>
    rcases items.answer_fields read with ⟨-, heq⟩ | ⟨hshown, hcases⟩
    · rw [heq]
      exact ih
    · refine ⟨hshown, ?_⟩
      rcases hcases with ⟨state, -, hread, hcommitted, -⟩ | ⟨-, -, hcommitted, -⟩ | ⟨-, hcommitted, -⟩
      · rw [hcommitted]
        exact orderly_readState hread
      · rw [hcommitted]
        exact ih.2
      · rw [hcommitted]
        cases hread : readState uuidV5 account read with
        | none => exact ih.2
        | some state => exact orderly_readState hread

end Shown

end LocalPinnedItems

/-! ### A peer after its call -/

/-- A call that pins or unpins a peer in a list. -/
def Call.Of (scope : Text) (peer : ℕ) : Call → Prop
  | .setPinned other otherPeer _ _ => other = scope ∧ otherPeer = peer
  | .saveOrder _ _ => False
  | .removePeer otherPeer => otherPeer = peer
  | .syncFilters _ _ => False

/-- A mutation that pins or unpins a peer in a list. -/
def Mutation.Of (scope : Text) (peer : ℕ) : Mutation → Prop
  | .pin other otherPeer _ _ => other = scope ∧ otherPeer = peer
  | .order _ _ => False
  | .remove otherPeer => otherPeer = peer
  | .filters _ => False

/-- Whether a peer is pinned or unpinned in a list of a state. -/
def State.overridden (state : State) (scope : Text) (peer : ℕ) : Option Bool :=
  (state.scope scope).pins.find peer

lemma State.overridden_update_of_pins {state : State} {scope other : Text} {peer : ℕ}
    {change : Scope → Scope} (h : other = scope →
      (change (state.scope other)).pins.find peer = (state.scope other).pins.find peer) :
    (state.update other change).overridden scope peer = state.overridden scope peer := by
  unfold State.overridden
  by_cases hscope : other = scope
  · subst hscope
    rw [State.scope_update_self]
    exact h rfl
  · rw [State.scope_update_of_ne _ (Ne.symm hscope)]

/-- A mutation leaves the other peers of a list, and the peers of other lists. -/
lemma overridden_optimistic {mutation : Mutation} {scope : Text} {peer : ℕ} (h : ¬mutation.Of scope peer)
    (state : State) : (mutation.optimistic state).overridden scope peer = state.overridden scope peer := by
  cases mutation with
  | pin other otherPeer pinned visibleOrder =>
    apply State.overridden_update_of_pins
    intro hscope
    have hpeer : peer ≠ otherPeer := fun heq => h ⟨hscope, heq.symm⟩
    exact OrdMap.find_insert_of_ne hpeer _ _
  | order other visibleOrder => exact State.overridden_update_of_pins fun _ => rfl
  | remove otherPeer =>
    have hpeer : peer ≠ otherPeer := fun heq => h heq.symm
    unfold Mutation.optimistic
    refine List.foldlRecOn _ (removeShown otherPeer)
      (motive := fun later : State => later.overridden scope peer = state.overridden scope peer) rfl
      fun later hlater other _ => ?_
    rw [← hlater]
    exact State.overridden_update_of_pins fun _ => OrdMap.find_insert_of_ne hpeer _ _
  | filters changes =>
    unfold Mutation.optimistic
    exact List.foldlRecOn _ (fun (state : State) (entry : ℤ × Filter) => state.setFilter entry.1 entry.2)
      (motive := fun later : State => later.overridden scope peer = state.overridden scope peer) rfl
      fun later hlater entry _ => hlater

/-- The first peer that is wanted comes first. -/
lemma mergeOrder_cons (peer : ℕ) (rest retained : List ℕ) :
    ∃ others, mergeOrder (peer :: rest) retained = peer :: others := by
  have hkeep : ∀ (list others : List ℕ), ∃ more, mergeList (peer :: others) list = peer :: more := by
    intro list
    induction list with
    | nil => exact fun others => ⟨others, rfl⟩
    | cons first list ih =>
      intro others
      have hstep : mergeList (peer :: others) (first :: list) =
          mergeList (if first ∈ peer :: others then peer :: others else peer :: (others ++ [first])) list := by
        unfold mergeList
        rw [List.foldl_cons]
        rfl
      rw [hstep]
      split_ifs
      · exact ih others
      · exact ih _
  unfold mergeOrder
  have hfirst : mergeList [] (peer :: rest) = mergeList [peer] rest := by
    unfold mergeList
    rw [List.foldl_cons, if_neg List.not_mem_nil, List.nil_append]
  obtain ⟨others, hothers⟩ := hkeep rest []
  rw [hfirst, hothers]
  exact hkeep retained others

/-- A pin is shown at once. -/
lemma overridden_optimistic_pin (state : State) (scope : Text) (peer : ℕ) (pinned : Bool)
    (visibleOrder : List ℕ) :
    ((Mutation.pin scope peer pinned visibleOrder).optimistic state).overridden scope peer = some pinned := by
  unfold Mutation.optimistic State.overridden
  rw [State.scope_update_self]
  exact OrdMap.find_insert_self _ _ _

/-- What a state shows of a peer decides whether the overlay has it. -/
lemma mem_overlay_iff {state : State} (horderly : Orderly state) {scope : Text} {peer : ℕ} {pinned : Bool}
    (h : state.overridden scope peer = some pinned) {cloud : List ℕ} (hcloud : cloud.Nodup) :
    peer ∈ state.overlay scope cloud ↔ pinned = true := by
  have hmem := (overlaid_overlay (horderly scope) hcloud).mem peer
  unfold State.overridden at h
  rw [hmem, h]
  cases pinned <;> simp

namespace LocalPinnedItems

variable {uuidV5 : Bytes → Text} {account : Account}

/-- The mutation of a call that is not of a peer is not of this peer. -/
lemma not_of_mutationOf {items : LocalPinnedItems} {made : Call} {mutation : Mutation}
    (h : items.mutationOf uuidV5 account made = some mutation) {scope : Text} {peer : ℕ}
    (hmade : ¬made.Of scope peer) : ¬mutation.Of scope peer := by
  unfold mutationOf at h
  cases made with
  | setPinned other otherPeer pinned visibleOrder =>
    unfold Call.mutation at h
    dsimp only at h
    split_ifs at h <;> cases h <;> exact hmade
  | saveOrder other visibleOrder =>
    unfold Call.mutation at h
    dsimp only at h
    split_ifs at h
    cases h
    exact id
  | removePeer otherPeer =>
    unfold Call.mutation at h
    dsimp only at h
    split_ifs at h
    cases h
    exact hmade
  | syncFilters ids newId =>
    dsimp only at h
    unfold Call.mutation at h
    dsimp only at h
    split_ifs at h
    cases h
    exact id

/-- The mutation of a call that pins or unpins. -/
lemma mutationOf_setPinned {items : LocalPinnedItems} {scope : Text} {peer : ℕ} {pinned : Bool}
    {visibleOrder : List ℕ} {mutation : Mutation}
    (h : items.mutationOf uuidV5 account (.setPinned scope peer pinned visibleOrder) = some mutation) :
    ∃ order, mutation = .pin scope peer pinned order ∧ (pinned = true → order.head? = some peer) := by
  unfold mutationOf Call.mutation at h
  dsimp only at h
  split_ifs at h with _ hpinned
  · cases h
    rw [hpinned]
    exact ⟨_, rfl, fun _ => rfl⟩
  · cases h
    rw [Bool.not_eq_true] at hpinned
    rw [hpinned]
    exact ⟨[], rfl, fun hfalse => absurd hfalse Bool.false_ne_true⟩

/-- How many mutations are before one after the job that runs; none when this one is settled. -/
def nextAhead (job : Option Job) (ahead : Option ℕ) : Option ℕ :=
  if job = some .change then ahead.bind fun count => if count = 0 then none else some (count - 1) else ahead

/-- What the store answers keeps a pin: it does not fail with all mutations before the pin is settled, and from
the answer that settles the pin on the modules that are read have it. -/
def Keeps (scope : Text) (peer : ℕ) (pinned : Bool) (job : Option Job) (ahead : Option ℕ)
    (read : Option State) : Prop :=
  match read with
  | none => ahead = none ∨ job ≠ some .load ∧ nextAhead job ahead ≠ none
  | some state => nextAhead job ahead = none → state.overridden scope peer = some pinned

/-- What happens after a call that pins or unpins a peer, until the next call for this peer: other calls, and
answers that keep the pin. The number is that of the mutations before the pin, until it is settled. -/
inductive Since (uuidV5 : Bytes → Text) (account : Account) (scope : Text) (peer : ℕ) (pinned : Bool)
    (visibleOrder : List ℕ) (start : LocalPinnedItems) : Option ℕ → LocalPinnedItems → Prop
  | made : Since uuidV5 account scope peer pinned visibleOrder start (some start.mutations.length)
      (start.call uuidV5 account (.setPinned scope peer pinned visibleOrder))
  | call {ahead : Option ℕ} {items : LocalPinnedItems} {other : Call} :
      Since uuidV5 account scope peer pinned visibleOrder start ahead items → ¬other.Of scope peer →
      Since uuidV5 account scope peer pinned visibleOrder start ahead (items.call uuidV5 account other)
  | reload {ahead : Option ℕ} {items : LocalPinnedItems} :
      Since uuidV5 account scope peer pinned visibleOrder start ahead items →
      Since uuidV5 account scope peer pinned visibleOrder start ahead items.reload
  | answer {ahead : Option ℕ} {items : LocalPinnedItems} {read : Option JObject} :
      Since uuidV5 account scope peer pinned visibleOrder start ahead items →
      Keeps scope peer pinned items.job ahead (readState uuidV5 account read) →
      Since uuidV5 account scope peer pinned visibleOrder start (nextAhead items.job ahead)
        (items.answer uuidV5 account read)

/-- A pin is among the mutations, with none for its peer after it, or it is settled: what the store has shows
it, and no mutation is for its peer. -/
def Held (scope : Text) (peer : ℕ) (pinned : Bool) (items : LocalPinnedItems) : Option ℕ → Prop
  | some count => ∃ before order after,
    items.mutations = before ++ Mutation.pin scope peer pinned order :: after ∧ before.length = count ∧
      ∀ mutation ∈ after, ¬mutation.Of scope peer
  | none => items.committed.overridden scope peer = some pinned ∧
    ∀ mutation ∈ items.mutations, ¬mutation.Of scope peer

section Since

variable {scope : Text} {peer : ℕ} {pinned : Bool} {visibleOrder : List ℕ} {start items : LocalPinnedItems}
  {ahead : Option ℕ}

/-- Mutations that are not of a peer leave it. -/
lemma overridden_optimistics {mutations : List Mutation} (h : ∀ mutation ∈ mutations, ¬mutation.Of scope peer)
    (state : State) : (optimistic state mutations).overridden scope peer = state.overridden scope peer := by
  unfold optimistic
  refine List.foldlRecOn mutations (fun (state : State) mutation => mutation.optimistic state)
    (motive := fun later : State => later.overridden scope peer = state.overridden scope peer) rfl
    fun later hlater mutation hmem => ?_
  rw [← hlater]
  exact overridden_optimistic (h mutation hmem) later

/-- A pin that is held is shown. -/
lemma Held.overridden (h : Held scope peer pinned items ahead)
    (hshown : items.shown = optimistic items.committed items.mutations) :
    items.shown.overridden scope peer = some pinned := by
  rw [hshown]
  cases ahead with
  | some count =>
    obtain ⟨before, order, after, hmutations, -, hafter⟩ := h
    have hsplit : optimistic items.committed (before ++ Mutation.pin scope peer pinned order :: after) =
        optimistic ((Mutation.pin scope peer pinned order).optimistic (optimistic items.committed before))
          after := by
      unfold optimistic
      rw [List.foldl_append, List.foldl_cons]
    rw [hmutations, hsplit, overridden_optimistics hafter]
    exact overridden_optimistic_pin _ _ _ _ _
  | none => rw [overridden_optimistics h.2, h.1]

/-- Another call keeps a pin. -/
lemma Held.call (h : Held scope peer pinned items ahead) {other : Call} (hother : ¬other.Of scope peer) :
    Held scope peer pinned (items.call uuidV5 account other) ahead := by
  rcases items.call_fields other with ⟨heq, -⟩ | ⟨mutation, hmutation, hcommitted, -, hmutations⟩
  · rw [heq]
    exact h
  · have hnot := not_of_mutationOf hmutation hother
    cases ahead with
    | some count =>
      obtain ⟨before, order, after, hbefore, hcount, hafter⟩ := h
      refine ⟨before, order, after ++ [mutation], ?_, hcount, ?_⟩
      · rw [hmutations, hbefore, List.append_assoc, List.cons_append]
      · intro later hlater
        rcases List.mem_append.mp hlater with hlater | hlater
        · exact hafter later hlater
        · rw [List.mem_singleton.mp hlater]
          exact hnot
    | none =>
      obtain ⟨hstored, hothers⟩ := h
      refine ⟨by rw [hcommitted, hstored], ?_⟩
      rw [hmutations]
      intro later hlater
      rcases List.mem_append.mp hlater with hlater | hlater
      · exact hothers later hlater
      · rw [List.mem_singleton.mp hlater]
        exact hnot

/-- An answer that keeps a pin keeps it: the module has it, or one mutation less is before it. -/
lemma Held.answer (h : Held scope peer pinned items ahead) {read : Option JObject}
    (hkeeps : Keeps scope peer pinned items.job ahead (readState uuidV5 account read)) :
    Held scope peer pinned (items.answer uuidV5 account read) (nextAhead items.job ahead) := by
  rcases items.answer_fields read with ⟨hjob, heq⟩ | ⟨-, hcases⟩
  · rw [heq, hjob]
    exact h
  · rcases hcases with ⟨state, hjob, hread, hcommitted, hmutations⟩ |
      ⟨hjob, hread, hcommitted, hmutations⟩ | ⟨hjob, hcommitted, hmutations⟩
    · -- the module is loaded
      rw [hjob, hread] at hkeeps
      rw [hjob]
      cases ahead with
      | some count =>
        obtain ⟨before, order, after, hbefore, hcount, hafter⟩ := h
        exact ⟨before, order, after, hmutations.trans hbefore, hcount, hafter⟩
      | none =>
        refine ⟨by rw [hcommitted]; exact hkeeps rfl, ?_⟩
        rw [hmutations]
        exact h.2
    · -- the module is not loaded: all mutations fail
      rw [hjob, hread] at hkeeps
      rw [hjob]
      rcases hkeeps with rfl | ⟨hload, -⟩
      · refine ⟨by rw [hcommitted]; exact h.1, ?_⟩
        rw [hmutations]
        exact fun mutation hmem => nomatch hmem
      · exact absurd rfl hload
    · -- the first mutation is settled
      rw [hjob] at hkeeps ⊢
      cases ahead with
      | some count =>
        obtain ⟨before, order, after, hbefore, rfl, hafter⟩ := h
        cases before with
        | nil =>
          have hstored : (items.answer uuidV5 account read).committed.overridden scope peer =
              some pinned := by
            rw [hcommitted]
            cases hread : readState uuidV5 account read with
            | some state =>
              rw [hread] at hkeeps
              exact hkeeps rfl
            | none =>
              rw [hread] at hkeeps
              rcases hkeeps with hnone | ⟨-, hnext⟩
              · cases hnone
              · exact absurd rfl hnext
          refine ⟨hstored, ?_⟩
          rw [hmutations, hbefore]
          exact hafter
        | cons first before =>
          refine ⟨before, order, after, ?_, rfl, hafter⟩
          rw [hmutations, hbefore]
          rfl
      | none =>
        obtain ⟨hstored, hothers⟩ := h
        refine ⟨?_, ?_⟩
        · rw [hcommitted]
          cases hread : readState uuidV5 account read with
          | some state =>
            rw [hread] at hkeeps
            exact hkeeps rfl
          | none => exact hstored
        · rw [hmutations]
          exact fun mutation hmem => hothers mutation (List.mem_of_mem_tail hmem)

/-- **A pin is held** until the next call for its peer.

**Proof sketch.** By induction on what happens: the call puts the pin behind all mutations, other calls put
others behind it, and each answer settles one of those before it, or the pin itself. -/
theorem Since.held (h : Since uuidV5 account scope peer pinned visibleOrder start ahead items)
    (haccepted : (start.mutationOf uuidV5 account (.setPinned scope peer pinned visibleOrder)).isSome) :
    Held scope peer pinned items ahead := by
  induction h with
  | made =>
    rcases start.call_fields (.setPinned scope peer pinned visibleOrder) with ⟨-, hnone⟩ |
      ⟨mutation, hmutation, -, -, hmutations⟩
    · rw [hnone] at haccepted
      cases haccepted
    · obtain ⟨order, rfl, -⟩ := mutationOf_setPinned hmutation
      exact ⟨start.mutations, order, [], hmutations, rfl, fun mutation hmem => nomatch hmem⟩
  | call _ hother ih => exact ih.call hother
  | @reload ahead items _ ih =>
    obtain ⟨hcommitted, -, hmutations⟩ := items.reload_fields
    cases ahead with
    | some count =>
      obtain ⟨before, order, after, hbefore, hcount, hafter⟩ := ih
      exact ⟨before, order, after, hmutations.trans hbefore, hcount, hafter⟩
    | none =>
      refine ⟨by rw [hcommitted]; exact ih.1, ?_⟩
      rw [hmutations]
      exact ih.2
  | answer _ hkeeps ih => exact ih.answer hkeeps

lemma Since.reachable (h : Since uuidV5 account scope peer pinned visibleOrder start ahead items)
    (hstart : Reachable uuidV5 account start) : Reachable uuidV5 account items := by
  induction h with
  | made => exact hstart.call _
  | call _ _ ih => exact ih.call _
  | reload _ ih => exact ih.reload
  | answer _ _ ih => exact ih.answer _

end Since

lemma Reachable.orderly {items : LocalPinnedItems} (h : Reachable uuidV5 account items) :
    Orderly items.shown := by
  obtain ⟨hshown, horderly⟩ := h.shown_eq
  rw [hshown]
  exact orderly_optimistics horderly _

/-- **Pinned items are laid over the cloud exactly.** Of every object that calls and answers lead to, every list
is laid over every list of the cloud that repeats no peer: nothing is shown twice, what is shown is pinned here
or in the cloud and not unpinned here, in the order of the list, then of the cloud, then the rest. A call that
pins a peer shows it first. Until the next call for this peer it is shown, and after a call that unpins it it is
not, as long as the store has not settled the call, and then as long as the modules that are read say so.

**Proof sketch.** No order repeats a peer, in a module that is read and after any mutation. The pin stays among
the mutations until it is settled, and no later one is for its peer. -/
theorem overlay_of_reachable {items : LocalPinnedItems} (h : Reachable uuidV5 account items) :
    (∀ scope cloud, cloud.Nodup →
      Overlaid (items.shown.scope scope) cloud (items.shown.overlay scope cloud)) ∧
    ∀ scope peer pinned visibleOrder,
      (items.mutationOf uuidV5 account (.setPinned scope peer pinned visibleOrder)).isSome →
      (pinned = true → ∀ cloud, cloud.Nodup →
        ((items.call uuidV5 account (.setPinned scope peer pinned visibleOrder)).shown.overlay scope
          cloud).head? = some peer) ∧
      ∀ ahead later, Since uuidV5 account scope peer pinned visibleOrder items ahead later →
        ∀ cloud, cloud.Nodup → (peer ∈ later.shown.overlay scope cloud ↔ pinned = true) := by
  refine ⟨fun scope cloud hcloud => overlaid_overlay (h.orderly scope) hcloud, ?_⟩
  intro scope peer pinned visibleOrder haccepted
  constructor
  · rintro rfl cloud hcloud
    have hafter := h.call (.setPinned scope peer true visibleOrder)
    obtain ⟨mutation, hmutation⟩ := Option.isSome_iff_exists.mp haccepted
    obtain ⟨order, rfl, hfirst⟩ := mutationOf_setPinned hmutation
    rcases items.call_fields (.setPinned scope peer true visibleOrder) with ⟨-, hnone⟩ |
      ⟨mutation, hmade, -, hshown, -⟩
    · rw [hnone] at hmutation
      cases hmutation
    · rw [hmutation, Option.some.injEq] at hmade
      subst hmade
      have horderly := hafter.orderly scope
      rw [hshown] at horderly ⊢
      obtain ⟨rest, hrest⟩ : ∃ rest, order = peer :: rest := by
        cases order with
        | nil => cases hfirst rfl
        | cons first rest =>
          obtain rfl := Option.some.inj (hfirst rfl)
          exact ⟨rest, rfl⟩
      have hhead : ∃ others, (((Mutation.pin scope peer true order).optimistic items.shown).scope
          scope).order = peer :: others := by
        unfold Mutation.optimistic
        rw [State.scope_update_self, if_pos rfl, hrest]
        exact mergeOrder_cons peer rest _
      obtain ⟨others, hothers⟩ := hhead
      exact head_overlay horderly hothers (overridden_optimistic_pin items.shown scope peer true order)
        hcloud
  · intro ahead later hsince cloud hcloud
    have hreachable := hsince.reachable h
    exact mem_overlay_iff hreachable.orderly
      ((hsince.held haccepted).overridden hreachable.shown_eq.1) hcloud

/-- A user that is pinned in the main list, before the module is loaded. -/
def firstPinned : LocalPinnedItems :=
  ({} : LocalPinnedItems).call mainOrderUuid firstAccount (.setPinned (u "main") 1 true [])

/-- The user is shown before the one that the cloud has. -/
theorem overlay_firstPinned :
    ((({} : LocalPinnedItems).call mainOrderUuid firstAccount
      (.setPinned (u "main") 1 true [])).shown.overlay (u "main") [2]).head? = some 1 :=
  ((@overlay_of_reachable mainOrderUuid firstAccount {} Reachable.start).2 (u "main") 1 true []
    (by decide +kernel)).1 rfl [2] (by decide)

/-- **Pins are not kept for ever.** A user is pinned in the main list. No other call is for this user: another
user is pinned, and shown first; or the module cannot be loaded, and the user is not shown any more. -/
theorem pins_taken_back :
    Reachable mainOrderUuid firstAccount firstPinned ∧
      (firstPinned.shown.overlay (u "main") []).head? = some 1 ∧
      ((firstPinned.call mainOrderUuid firstAccount (.setPinned (u "main") 2 true [])).shown.overlay
        (u "main") []).head? = some 2 ∧
      (firstPinned.answer mainOrderUuid firstAccount none).shown.overlay (u "main") [] = [] :=
  ⟨Reachable.start.call _, by decide +kernel, by decide +kernel, by decide +kernel⟩

end LocalPinnedItems

end PinnedItems
