import Telegravim.Replies.RepliesList

set_option autoImplicit false

/-!
# The requests of a thread that are on their way

The viewers of a list ask for slices in any order, and answers, failures and updates come in between. At most
one request of each field is on its way and the fields identify it. `loadingAround` remembers the place that
is being loaded; a `loadBefore` of another viewer cancels that request without forgetting the place, and from
then on `loadAround` for that place does nothing.

## Main definitions

* `Replies.Event`, `Replies.step`, `Replies.run` — what happens to a list and its viewers.
* `Replies.InFlight` — what holds of the requests that are on their way.
* `Replies.Merge.Current` — an answer is merged into the list it was asked for.
* `Replies.Waiting` — whenever a place is remembered, a request for it is on its way.

## Main results

* `Replies.processMessagesIsEmpty_spec` — merging fails no assertion and touches no request.
* `Replies.InFlight.step` — a step keeps the requests in order.
* `Replies.run_inFlight` — after any run the requests are in order and every merged answer was asked for the
  list as it is.
* `Replies.waiting_stranded` — a place that is remembered for ever.
-/

namespace Replies

/-! ### Runs -/

/-- A list with its viewers. -/
structure System where
  /-- The list. -/
  replies : RepliesList
  /-- The viewers. -/
  viewers : List Viewer := []

/-- What happens. -/
inductive Event
  /-- A viewer is created. -/
  | source (around : MsgId) (limitBefore limitAfter : ℕ)
  /-- The slice of a viewer is built. -/
  | build (world : World) (viewer : ℕ)
  /-- A request is answered. -/
  | done (requestId : ℕ) (result : Answer)
  /-- A request fails. -/
  | fail (requestId : ℕ)
  /-- A message was added or destroyed. -/
  | update (update : MessageUpdate)
  /-- Updates were lost. -/
  | differenceTooLong
  /-- A request for something else takes an id of `Histories`. -/
  | otherRequest
  deriving DecidableEq, Repr

/-- What an event does; `none` when an assertion fails. -/
def step (s : System) : Event → Option System
  | .source around limitBefore limitAfter =>
    some { s with viewers := s.viewers ++
      [{ around := around, limitBefore := limitBefore, limitAfter := limitAfter }] }
  | .build world i =>
    match s.viewers[i]? with
    | none => some s
    | some viewer =>
      (buildFromData world s.replies viewer).map fun built =>
        { replies := built.2.2, viewers := s.viewers.set i built.2.1 }
  | .done requestId result => (requestDone s.replies requestId result).map fun h => { s with replies := h }
  | .fail requestId => some { s with replies := requestFail s.replies requestId }
  | .update update => some { s with replies := (applyUpdate s.replies update).2 }
  | .differenceTooLong => some { s with replies := applyDifferenceTooLong s.replies }
  | .otherRequest =>
    some { s with replies :=
      { s.replies with requestAutoincrement := s.replies.requestAutoincrement + 1 } }

/-- A list that was just created. -/
def initial (creating : Bool) (rootId : MsgId) : System :=
  { replies := { creating := creating, rootId := rootId } }

/-- A run. -/
def run (s : System) (events : List Event) : Option System :=
  events.foldlM step s

/-! ### What holds of the requests -/

/-- **A merged answer is of now**: no request of `loadAround` was made after the request that is answered, and
the end of the list it was made for is the end of the list. -/
def Merge.Current (m : Merge) : Prop :=
  m.lastAround ≤ m.id ∧
    match m.request with
    | .around _ => m.list = []
    | .before last => m.list.getLast? = some last
    | .after first => m.list.head? = some first

/-- **The requests on their way**, whether or not a place that is remembered is being loaded. -/
structure Books (h : RepliesList) : Prop where
  /-- `beforeId` identifies a request for a place or for what is older. -/
  beforeSent : h.beforeId ≠ 0 → ∃ r, h.requests.find h.beforeId = some r ∧ ∀ first, r ≠ .after first
  /-- `afterId` identifies a request for what is newer. -/
  afterSent : h.afterId ≠ 0 → ∃ first, h.requests.find h.afterId = some (.after first)
  /-- A request for a place is the one of `beforeId`, for the place that is remembered, and the last one. -/
  aroundOnly : ∀ {n id}, h.requests.find n = some (.around id) →
    n = h.beforeId ∧ h.loadingAround = some id ∧ n = h.lastAround
  /-- A request for what is older is the one of `beforeId`. -/
  beforeOnly : ∀ {n last}, h.requests.find n = some (.before last) → n = h.beforeId
  /-- A request for what is newer is the one of `afterId`. -/
  afterOnly : ∀ {n first}, h.requests.find n = some (.after first) → n = h.afterId
  /-- The last request of `loadAround` was made before all those that are on their way. -/
  later : ∀ {n r}, h.requests.find n = some r → h.lastAround ≤ n
  /-- Ids are new. -/
  fresh : ∀ {n r}, h.requests.find n = some r → n ≠ 0 ∧ n ≤ h.requestAutoincrement
  /-- So is the one of the last request of `loadAround`. -/
  lastFresh : h.lastAround ≤ h.requestAutoincrement
  /-- Every merged answer was of now. -/
  merged : ∀ m ∈ h.merges, m.Current

/-- **The requests on their way**, with the one for the place that is remembered. -/
structure InFlight (h : RepliesList) : Prop extends Books h where
  /-- A remembered place is being loaded, unless `loadBefore` cancelled its request. -/
  waiting : ∀ {id}, h.loadingAround = some id → h.dropped = false →
    h.beforeId ≠ 0 ∧ h.requests.find h.beforeId = some (.around id)

/-- **Whenever a place is remembered, a request of `loadAround` for exactly that place is on its way and
`beforeId` identifies it.** -/
def Waiting (h : RepliesList) : Prop :=
  ∀ id, h.loadingAround = some id → h.beforeId ≠ 0 ∧ h.requests.find h.beforeId = some (.around id)

/-! ### Merging -/

/-- What merging leaves as it is. -/
structure SameRequests (h h' : RepliesList) : Prop where
  creating : h'.creating = h.creating
  loadingAround : h'.loadingAround = h.loadingAround
  beforeId : h'.beforeId = h.beforeId
  afterId : h'.afterId = h.afterId
  requests : h'.requests = h.requests
  requestAutoincrement : h'.requestAutoincrement = h.requestAutoincrement
  lastAround : h'.lastAround = h.lastAround
  dropped : h'.dropped = h.dropped
  merges : h'.merges = h.merges

namespace SameRequests

variable {h h' h'' : RepliesList}

lemma refl (h : RepliesList) : SameRequests h h :=
  ⟨rfl, rfl, rfl, rfl, rfl, rfl, rfl, rfl, rfl⟩

end SameRequests

/-- The requests are in order as long as they are the same. -/
lemma InFlight.of_same {h h' : RepliesList} (hi : InFlight h) (hs : SameRequests h h') : InFlight h' where
  beforeSent := by rw [hs.beforeId, hs.requests]; exact hi.beforeSent
  afterSent := by rw [hs.afterId, hs.requests]; exact hi.afterSent
  aroundOnly := by
    rw [hs.requests, hs.beforeId, hs.loadingAround, hs.lastAround]
    exact hi.aroundOnly
  beforeOnly := by rw [hs.requests, hs.beforeId]; exact hi.beforeOnly
  afterOnly := by rw [hs.requests, hs.afterId]; exact hi.afterOnly
  later := by rw [hs.requests, hs.lastAround]; exact hi.later
  fresh := by rw [hs.requests, hs.requestAutoincrement]; exact hi.fresh
  lastFresh := by rw [hs.lastAround, hs.requestAutoincrement]; exact hi.lastFresh
  waiting := by rw [hs.loadingAround, hs.dropped, hs.beforeId, hs.requests]; exact hi.waiting
  merged := by rw [hs.merges]; exact hi.merged

/-- The counts of what is skipped never fail their assertion: a count that was cut at zero stays. -/
lemma countSkipped_isSome (decrementFrom correct : Option ℤ) (grown checkedCount nowSize : ℤ)
    (hchecked : nowSize ≤ checkedCount) :
    ∃ counts, countSkipped decrementFrom correct grown checkedCount nowSize = some counts := by
  unfold countSkipped
  cases decrementFrom with
  | none => cases correct <;> exact ⟨_, rfl⟩
  | some d =>
    cases correct with
    | none => exact ⟨_, rfl⟩
    | some c =>
      have hnonneg : 0 ≤ max (d - grown) 0 := le_max_right _ _
      have hassert : 0 ≤ checkedCount - max (checkedCount - max (d - grown) 0 - nowSize) 0 - nowSize := by
        omega
      exact ⟨_, if_pos hassert⟩

/-- A list that is still empty was empty, and every message was skipped. -/
lemma addMessage_foldl (toFront : Bool) (messages : List Message) (a : Adding)
    (hnil : (messages.foldl (addMessage toFront) a).list = []) :
    a.list = [] ∧ (messages.foldl (addMessage toFront) a).skipped = a.skipped + messages.length := by
  induction messages generalizing a with
  | nil => exact ⟨hnil, rfl⟩
  | cons message rest ih =>
    have hone : (addMessage toFront a message).list = [] →
        a.list = [] ∧ (addMessage toFront a message).skipped = a.skipped + 1 := by
      unfold addMessage
      intro hnil
      cases hlist : a.list with
      | nil =>
        rw [hlist] at hnil
        split at hnil
        · simp at hnil
        · rename_i hskip
          rw [if_neg hskip]
          exact ⟨rfl, rfl⟩
      | cons front older =>
        rw [hlist] at hnil
        exfalso
        split at hnil
        · split at hnil
          · simp at hnil
          · split at hnil
            · simp at hnil
            · simp [hlist] at hnil
        · simp at hnil
    obtain ⟨hmid, hcount⟩ := ih _ hnil
    obtain ⟨hold, hcount'⟩ := hone hmid
    refine ⟨hold, ?_⟩
    rw [List.foldl_cons, hcount, hcount', List.length_cons]
    omega

/-- **Merging an answer** fails no assertion and touches no request; a list that is still empty had an answer
without messages of the thread. -/
theorem processMessagesIsEmpty_spec (h : RepliesList) (result : Answer) :
    ∃ isEmpty h', processMessagesIsEmpty h result = some (isEmpty, h') ∧ SameRequests h h' ∧
      (h'.list = [] → isEmpty = true) := by
  unfold processMessagesIsEmpty
  cases hlist : result.list with
  | nil => exact ⟨true, h, rfl, SameRequests.refl h, fun _ => rfl⟩
  | cons message rest =>
    dsimp only
    set toFront := h.list.head?.any (· < message.id) with htoFront
    set added := (message :: rest).foldl (addMessage toFront) { list := h.list } with hadded
    have hcounts : ∀ {n : ℤ} {c : ℤ}, n ≤ max c n := fun {n c} => le_max_right c n
    have hempty : added.list = [] → decide ((message :: rest).length = added.skipped) = true := by
      intro hnil
      have hfold := (addMessage_foldl toFront (message :: rest) { list := h.list } hnil).2
      exact decide_eq_true (by rw [hadded, hfold]; simp)
    split
    · rename_i hfront
      obtain ⟨counts, hsome⟩ := countSkipped_isSome h.skippedAfter h.skippedBefore
        (((added.refreshed ++ added.list).length : ℤ) - h.list.length)
        (max (result.fullCount - added.skipped) ((added.refreshed ++ added.list).length : ℤ))
        ((added.refreshed ++ added.list).length : ℤ) hcounts
      rw [hsome]
      refine ⟨_, _, rfl, ⟨rfl, rfl, rfl, rfl, rfl, rfl, rfl, rfl, rfl⟩, fun hnil => ?_⟩
      exact hempty (List.append_eq_nil_iff.mp hnil).2
    · obtain ⟨counts, hsome⟩ := countSkipped_isSome h.skippedBefore h.skippedAfter
        ((added.list.length : ℤ) - h.list.length)
        (max (result.fullCount - added.skipped) (added.list.length : ℤ)) (added.list.length : ℤ) hcounts
      rw [hsome]
      exact ⟨_, _, rfl, ⟨rfl, rfl, rfl, rfl, rfl, rfl, rfl, rfl, rfl⟩, hempty⟩

/-! ### Sending and cancelling -/

namespace Books

variable {h : RepliesList}

/-- A request that is on its way and not the one of `beforeId` is the one of `afterId`. -/
lemma isAfter (hb : Books h) {n : ℕ} {r : Request} (hfind : h.requests.find n = some r) (hne : n ≠ h.beforeId) :
    ∃ first, r = .after first := by
  cases r with
  | around id => exact absurd (hb.aroundOnly hfind).1 hne
  | before last => exact absurd (hb.beforeOnly hfind) hne
  | after first => exact ⟨first, rfl⟩

/-- What is left when the request of `beforeId` is gone. -/
lemma find_eraseBefore (hb : Books h) {n : ℕ} {r : Request}
    (hfind : (h.requests.erase h.beforeId).find n = some r) :
    h.requests.find n = some r ∧ ∃ first, r = .after first := by
  rw [OrdMap.find_erase] at hfind
  split at hfind
  · cases hfind
  · rename_i hne
    exact ⟨hfind, hb.isAfter hfind hne⟩

/-- The request of `beforeId` is cancelled or finished. -/
lemma takeBefore (hb : Books h) (place : Option MsgId) : Books { h with
    requests := h.requests.erase h.beforeId, beforeId := 0, loadingAround := place } where
  beforeSent := fun hne => absurd rfl hne
  afterSent := fun hne => by
    obtain ⟨first, hfirst⟩ := hb.afterSent hne
    refine ⟨first, ?_⟩
    show (h.requests.erase h.beforeId).find h.afterId = _
    rw [OrdMap.find_erase, if_neg, hfirst]
    intro heq
    have hzero : h.beforeId ≠ 0 := heq ▸ hne
    obtain ⟨r, hr, hnot⟩ := hb.beforeSent hzero
    rw [← heq, hfirst] at hr
    exact hnot first (Option.some.inj hr).symm
  aroundOnly := fun hfind => by
    obtain ⟨-, first, hr⟩ := hb.find_eraseBefore hfind
    cases hr
  beforeOnly := fun hfind => by
    obtain ⟨-, first, hr⟩ := hb.find_eraseBefore hfind
    cases hr
  afterOnly := fun hfind => hb.afterOnly (hb.find_eraseBefore hfind).1
  later := fun hfind => hb.later (hb.find_eraseBefore hfind).1
  fresh := fun hfind => hb.fresh (hb.find_eraseBefore hfind).1
  lastFresh := hb.lastFresh
  merged := hb.merged

/-- What is left when the request of `afterId` is gone. -/
lemma find_eraseAfter (hb : Books h) {n : ℕ} {r : Request}
    (hfind : (h.requests.erase h.afterId).find n = some r) :
    h.requests.find n = some r ∧ ∀ first, r ≠ .after first := by
  rw [OrdMap.find_erase] at hfind
  split at hfind
  · cases hfind
  · rename_i hne
    exact ⟨hfind, fun first hr => hne (hb.afterOnly (hr ▸ hfind))⟩

/-- The request of `beforeId` stays when the one of `afterId` goes. -/
lemma find_before_eraseAfter (hb : Books h) {r : Request} (hr : h.requests.find h.beforeId = some r)
    (hnot : ∀ first, r ≠ .after first) : (h.requests.erase h.afterId).find h.beforeId = some r := by
  rw [OrdMap.find_erase, if_neg, hr]
  intro heq
  have hne : h.afterId ≠ 0 := heq ▸ (hb.fresh hr).1
  obtain ⟨first, hfirst⟩ := hb.afterSent hne
  rw [← heq, hr] at hfirst
  exact hnot first (Option.some.inj hfirst)

/-- The request of `afterId` is cancelled or finished. -/
lemma takeAfter (hb : Books h) : Books { h with
    requests := h.requests.erase h.afterId, afterId := 0 } where
  beforeSent := fun hne => by
    obtain ⟨r, hr, hnot⟩ := hb.beforeSent hne
    exact ⟨r, hb.find_before_eraseAfter hr hnot, hnot⟩
  afterSent := fun hne => absurd rfl hne
  aroundOnly := fun hfind => hb.aroundOnly (hb.find_eraseAfter hfind).1
  beforeOnly := fun hfind => hb.beforeOnly (hb.find_eraseAfter hfind).1
  afterOnly := fun {n first} hfind => absurd rfl ((hb.find_eraseAfter hfind).2 first)
  later := fun hfind => hb.later (hb.find_eraseAfter hfind).1
  fresh := fun hfind => hb.fresh (hb.find_eraseAfter hfind).1
  lastFresh := hb.lastFresh
  merged := hb.merged

/-- No request has the id zero, so that cancelling it is erasing it. -/
lemma cancelRequest_eq (hb : Books h) (id : ℕ) :
    cancelRequest h id = { h with requests := h.requests.erase id } := by
  unfold cancelRequest
  split
  · rename_i hzero
    have hnone : h.requests.find id = none := by
      cases hfind : h.requests.find id with
      | none => rfl
      | some r => exact absurd hzero (hb.fresh hfind).1
    rw [OrdMap.erase_of_find_eq_none hnone]
  · rfl

lemma cancelBefore (hb : Books h) : Books (cancelBefore h) := by
  unfold Replies.cancelBefore
  rw [hb.cancelRequest_eq]
  exact hb.takeBefore h.loadingAround

lemma cancelAfter (hb : Books h) : Books (cancelAfter h) := by
  unfold Replies.cancelAfter
  rw [hb.cancelRequest_eq]
  exact hb.takeAfter

/-- The id of a new request is not the one of another. -/
lemma find_new (hb : Books h) {n : ℕ} {r : Request} (hfind : h.requests.find n = some r) :
    n ≠ h.requestAutoincrement + 1 := by
  have hle := (hb.fresh hfind).2
  omega

/-- What is on its way after a request was sent. -/
lemma find_sendRequest {request r : Request} {n : ℕ}
    (hfind : (h.requests.insert (h.requestAutoincrement + 1) request).find n = some r) :
    (n = h.requestAutoincrement + 1 ∧ r = request) ∨ h.requests.find n = some r := by
  rw [OrdMap.find_insert] at hfind
  split at hfind
  · rename_i heq
    exact Or.inl ⟨heq, (Option.some.inj hfind).symm⟩
  · exact Or.inr hfind

/-- A request of `loadAround` is sent: no other one is on its way. -/
lemma sendAround (hb : Books h) (hbefore : h.beforeId = 0) (hafter : h.afterId = 0) (id : MsgId) :
    InFlight (sendAround h id) := by
  have hnone : ∀ {n r}, h.requests.find n ≠ some r := by
    intro n r hfind
    have hne := (hb.fresh hfind).1
    cases r with
    | around id => exact hne ((hb.aroundOnly hfind).1.trans hbefore)
    | before last => exact hne ((hb.beforeOnly hfind).trans hbefore)
    | after first => exact hne ((hb.afterOnly hfind).trans hafter)
  have hnew : ∀ {n r}, (h.requests.insert (h.requestAutoincrement + 1) (.around id)).find n = some r →
      n = h.requestAutoincrement + 1 ∧ r = .around id :=
    fun hfind => (find_sendRequest hfind).resolve_right hnone
  have hself : (h.requests.insert (h.requestAutoincrement + 1) (.around id)).find
      (h.requestAutoincrement + 1) = some (.around id) := OrdMap.find_insert_self _ _ _
  exact {
    beforeSent := fun _ => ⟨.around id, hself, fun first hr => by cases hr⟩
    afterSent := fun hne => absurd hafter hne
    aroundOnly := fun hfind => by
      obtain ⟨hn, hr⟩ := hnew hfind
      exact ⟨hn, congrArg some (Request.around.inj hr).symm, hn⟩
    beforeOnly := fun hfind => (hnew hfind).1
    afterOnly := fun hfind => by cases (hnew hfind).2
    later := fun hfind => (hnew hfind).1.ge
    fresh := fun hfind => by
      rw [(hnew hfind).1]
      exact ⟨Nat.succ_ne_zero _, le_rfl⟩
    lastFresh := le_rfl
    merged := hb.merged
    waiting := fun {place} hplace _ => by
      have hid : id = place := Option.some.inj hplace
      exact ⟨Nat.succ_ne_zero _, hid ▸ hself⟩ }

/-- A request of `loadBefore` is sent: `beforeId` is free. -/
lemma sendBefore (hb : Books h) (hbefore : h.beforeId = 0) (last : MsgId) : Books (sendBefore h last) := by
  have hold : ∀ {n r}, h.requests.find n = some r → ∃ first, r = .after first := by
    intro n r hfind
    exact hb.isAfter hfind fun heq => (hb.fresh hfind).1 (heq.trans hbefore)
  exact {
    beforeSent := fun _ => ⟨.before last, OrdMap.find_insert_self _ _ _, fun first hr => by cases hr⟩
    afterSent := fun hne => by
      obtain ⟨first, hfirst⟩ := hb.afterSent hne
      exact ⟨first, (OrdMap.find_insert_of_ne (hb.find_new hfirst) _ _).trans hfirst⟩
    aroundOnly := fun hfind => by
      rcases find_sendRequest hfind with ⟨-, hr⟩ | hfind
      · cases hr
      · obtain ⟨first, hr⟩ := hold hfind
        cases hr
    beforeOnly := fun hfind => by
      rcases find_sendRequest hfind with ⟨hn, -⟩ | hfind
      · exact hn
      · obtain ⟨first, hr⟩ := hold hfind
        cases hr
    afterOnly := fun hfind => by
      rcases find_sendRequest hfind with ⟨-, hr⟩ | hfind
      · cases hr
      · exact hb.afterOnly hfind
    later := fun hfind => by
      rcases find_sendRequest hfind with ⟨hn, -⟩ | hfind
      · exact hn ▸ hb.lastFresh.trans (Nat.le_succ _)
      · exact hb.later hfind
    fresh := fun hfind => by
      rcases find_sendRequest hfind with ⟨hn, -⟩ | hfind
      · exact hn ▸ ⟨Nat.succ_ne_zero _, le_rfl⟩
      · exact ⟨(hb.fresh hfind).1, (hb.fresh hfind).2.trans (Nat.le_succ _)⟩
    lastFresh := hb.lastFresh.trans (Nat.le_succ _)
    merged := hb.merged }

end Books

namespace InFlight

variable {h : RepliesList}

/-- A request of `loadAfter` is sent: `afterId` is free. -/
lemma sendAfter (hi : InFlight h) (hafter : h.afterId = 0) (first : MsgId) : InFlight (sendAfter h first) := by
  have hold : ∀ {n first}, h.requests.find n ≠ some (.after first) := fun hfind =>
    (hi.fresh hfind).1 ((hi.afterOnly hfind).trans hafter)
  have hkeep : ∀ {n r}, h.requests.find n = some r →
      (Replies.sendAfter h first).requests.find n = some r := fun hfind =>
    (OrdMap.find_insert_of_ne (hi.find_new hfind) _ _).trans hfind
  exact {
    beforeSent := fun hne => by
      obtain ⟨r, hr, hnot⟩ := hi.beforeSent hne
      exact ⟨r, hkeep hr, hnot⟩
    afterSent := fun _ => ⟨first, OrdMap.find_insert_self _ _ _⟩
    aroundOnly := fun hfind => by
      rcases Books.find_sendRequest hfind with ⟨-, hr⟩ | hfind
      · cases hr
      · exact hi.aroundOnly hfind
    beforeOnly := fun hfind => by
      rcases Books.find_sendRequest hfind with ⟨-, hr⟩ | hfind
      · cases hr
      · exact hi.beforeOnly hfind
    afterOnly := fun hfind => by
      rcases Books.find_sendRequest hfind with ⟨hn, -⟩ | hfind
      · exact hn
      · exact absurd hfind hold
    later := fun hfind => by
      rcases Books.find_sendRequest hfind with ⟨hn, -⟩ | hfind
      · exact hn ▸ hi.lastFresh.trans (Nat.le_succ _)
      · exact hi.later hfind
    fresh := fun hfind => by
      rcases Books.find_sendRequest hfind with ⟨hn, -⟩ | hfind
      · exact hn ▸ ⟨Nat.succ_ne_zero _, le_rfl⟩
      · exact ⟨(hi.fresh hfind).1, (hi.fresh hfind).2.trans (Nat.le_succ _)⟩
    lastFresh := hi.lastFresh.trans (Nat.le_succ _)
    merged := hi.merged
    waiting := fun hplace hdropped => by
      obtain ⟨hne, hfind⟩ := hi.waiting hplace hdropped
      exact ⟨hne, hkeep hfind⟩ }

/-! ### What viewers ask for -/

/-- **A place is asked for.** -/
lemma loadAround (hi : InFlight h) (hcreating : h.creating = false) (id : MsgId) :
    ∃ h', loadAround h id = some h' ∧ InFlight h' ∧ h'.creating = h.creating := by
  unfold Replies.loadAround
  rw [hcreating, if_neg Bool.false_ne_true]
  split
  · exact ⟨h, rfl, hi, hcreating⟩
  · have hcancelled : Books (cancelAfter (cancelBefore h)) := hi.toBooks.cancelBefore.cancelAfter
    refine ⟨_, rfl, hcancelled.sendAround ?_ rfl id, ?_⟩
    · show (cancelRequest (cancelBefore h) (cancelBefore h).afterId).beforeId = 0
      rw [hi.toBooks.cancelBefore.cancelRequest_eq]
      rfl
    · show (cancelRequest (cancelBefore h) (cancelBefore h).afterId).creating = false
      rw [hi.toBooks.cancelBefore.cancelRequest_eq]
      show (cancelRequest h h.beforeId).creating = false
      rw [hi.toBooks.cancelRequest_eq]
      exact hcreating

/-- **What is older is asked for.** -/
lemma loadBefore (hi : InFlight h) (hlist : h.list ≠ []) :
    ∃ h', loadBefore h = some h' ∧ InFlight h' ∧ h'.creating = h.creating ∧ h'.list = h.list := by
  unfold Replies.loadBefore
  obtain ⟨last, hlast⟩ := Option.ne_none_iff_exists'.mp (mt List.getLast?_eq_none_iff.mp hlist)
  rw [hlast]
  dsimp only
  split
  · have hcancelled : Books { Replies.cancelBefore h with dropped := true } :=
      { hi.toBooks.cancelBefore with }
    have heq := hi.toBooks.cancelRequest_eq h.beforeId
    refine ⟨_, rfl, { hcancelled.sendBefore rfl last with waiting := fun _ hdropped => by cases hdropped }, ?_, ?_⟩
    · show (cancelRequest h h.beforeId).creating = h.creating
      rw [heq]
    · show (cancelRequest h h.beforeId).list = h.list
      rw [heq]
  · rename_i hplace
    split
    · exact ⟨h, rfl, hi, rfl, rfl⟩
    · rename_i hbefore
      refine ⟨_, rfl, { hi.toBooks.sendBefore (not_not.mp hbefore) last with
        waiting := fun {id} hsome _ => ?_ }, rfl, rfl⟩
      have hsome' : h.loadingAround = some id := hsome
      rw [hsome'] at hplace
      exact absurd rfl hplace

/-- **What is newer is asked for.** -/
lemma loadAfter (hi : InFlight h) (hlist : h.list ≠ []) :
    ∃ h', loadAfter h = some h' ∧ InFlight h' ∧ h'.creating = h.creating ∧ h'.list = h.list := by
  unfold Replies.loadAfter
  obtain ⟨first, hfirst⟩ := Option.ne_none_iff_exists'.mp (mt List.head?_eq_none_iff.mp hlist)
  rw [hfirst]
  dsimp only
  split
  · exact ⟨h, rfl, hi, rfl, rfl⟩
  · rename_i hafter
    exact ⟨_, rfl, hi.sendAfter (not_not.mp hafter) first, rfl, rfl⟩

lemma loadEnds (hi : InFlight h) (hlist : h.list ≠ []) (viewer : Viewer) (useBefore useAfter : ℕ) :
    ∃ h', loadEnds h viewer useBefore useAfter = some h' ∧ InFlight h' ∧ h'.creating = h.creating := by
  unfold Replies.loadEnds
  have hbefore : ∃ h', (if h.skippedBefore ≠ some 0 ∧ useBefore < viewer.limitBefore + 1 then
      Replies.loadBefore h else some h) = some h' ∧ InFlight h' ∧ h'.creating = h.creating ∧
      h'.list = h.list := by
    split
    · exact hi.loadBefore hlist
    · exact ⟨h, rfl, hi, rfl, rfl⟩
  obtain ⟨h', heq, hi', hcreating, hsame⟩ := hbefore
  rw [heq]
  show ∃ h'', (if h'.skippedAfter ≠ some 0 ∧ useAfter < viewer.limitAfter then
    Replies.loadAfter h' else some h') = some h'' ∧ _
  split
  · obtain ⟨h'', heq', hi'', hcreating', -⟩ := hi'.loadAfter (hsame ▸ hlist)
    exact ⟨h'', heq', hi'', hcreating'.trans hcreating⟩
  · exact ⟨h', rfl, hi', hcreating⟩

/-- **A slice is built.** -/
lemma buildFromData (hi : InFlight h) (world : World) (viewer : Viewer) :
    ∃ built, buildFromData world h viewer = some built ∧ InFlight built.2.2 := by
  unfold Replies.buildFromData
  split
  · exact ⟨_, rfl, hi⟩
  · rename_i hsome
    have hcreating : h.creating = false := by
      cases hvalue : h.creating with
      | false => rfl
      | true => rw [hvalue] at hsome; simp at hsome
    dsimp only
    split
    · obtain ⟨h', heq, hi', -⟩ := hi.loadAround hcreating (computeAround world viewer)
      rw [heq]
      exact ⟨_, rfl, hi'⟩
    · rename_i hplace
      have hlist : h.list ≠ [] := by
        intro hnil
        simp [needsAround, hnil] at hplace
      obtain ⟨h', heq, hi', -⟩ := hi.loadEnds hlist viewer
        (min (h.list.length - availableAfter h (computeAround world viewer)) (viewer.limitBefore + 1))
        (min (availableAfter h (computeAround world viewer)) viewer.limitAfter)
      rw [heq]
      exact ⟨_, rfl, hi'⟩

/-! ### Answers -/

/-- A merged answer is written down. -/
lemma recordMerge (hi : InFlight h) (id : ℕ) (request : Request)
    (hcurrent : Merge.Current { id := id, request := request, list := h.list, lastAround := h.lastAround }) :
    InFlight (recordMerge h id request) :=
  { hi with
    merged := fun m hm => by
      rcases List.mem_append.mp hm with hm | hm
      · exact hi.merged m hm
      · rw [List.mem_singleton.mp hm]
        exact hcurrent }

/-- **An answer is merged.** -/
lemma processMessagesIsEmpty (hi : InFlight h) (result : Answer) :
    ∃ isEmpty h', processMessagesIsEmpty h result = some (isEmpty, h') ∧ InFlight h' ∧
      (h'.list = [] → isEmpty = true) := by
  obtain ⟨isEmpty, h', heq, hsame, hnil⟩ := processMessagesIsEmpty_spec h result
  exact ⟨isEmpty, h', heq, hi.of_same hsame, hnil⟩

/-- The request of `beforeId` was answered or failed, and no place is remembered any more. -/
lemma finishAround (hi : InFlight h) : InFlight { h with
    requests := h.requests.erase h.beforeId, beforeId := 0, loadingAround := none } :=
  { hi.toBooks.takeBefore none with waiting := fun hplace _ => by cases hplace }

/-- A request for what is older was answered or failed. -/
lemma finishBefore (hi : InFlight h) {last : MsgId} (hfind : h.requests.find h.beforeId = some (.before last)) :
    InFlight { h with requests := h.requests.erase h.beforeId, beforeId := 0 } :=
  { hi.toBooks.takeBefore h.loadingAround with
    waiting := fun hplace hdropped => by
      have hsent := (hi.waiting hplace hdropped).2
      rw [hfind] at hsent
      cases hsent }

/-- A request for what is newer was answered or failed. -/
lemma finishAfter (hi : InFlight h) : InFlight { h with
    requests := h.requests.erase h.afterId, afterId := 0 } :=
  { hi.toBooks.takeAfter with
    waiting := fun hplace hdropped => by
      obtain ⟨hne, hsent⟩ := hi.waiting hplace hdropped
      exact ⟨hne, hi.toBooks.find_before_eraseAfter hsent fun first hr => by cases hr⟩ }

/-- The request for a place is answered. -/
lemma aroundDone (hi : InFlight h) {id : MsgId} (hfind : h.requests.find h.beforeId = some (.around id))
    (result : Answer) : ∃ h', aroundDone { h with requests := h.requests.erase h.beforeId } h.beforeId id
      result = some h' ∧ InFlight h' := by
  have hcleared : InFlight { h with
      requests := h.requests.erase h.beforeId
      beforeId := 0
      loadingAround := none
      skippedAfter := if id = 0 then some 0 else none
      skippedBefore := none
      list := [] } :=
    hi.finishAround.of_same ⟨rfl, rfl, rfl, rfl, rfl, rfl, rfl, rfl, rfl⟩
  obtain ⟨isEmpty, h', heq, hi', hnil⟩ := (hcleared.recordMerge h.beforeId (.around id)
    ⟨hi.later hfind, rfl⟩).processMessagesIsEmpty result
  unfold Replies.aroundDone
  dsimp only
  rw [heq]
  cases isEmpty with
  | true => exact ⟨_, rfl, hi'.of_same ⟨rfl, rfl, rfl, rfl, rfl, rfl, rfl, rfl, rfl⟩⟩
  | false =>
    have hlist : h'.list ≠ [] := fun hempty => Bool.false_ne_true (hnil hempty)
    obtain ⟨front, hfront⟩ := Option.ne_none_iff_exists'.mp (mt List.head?_eq_none_iff.mp hlist)
    obtain ⟨back, hback⟩ := Option.ne_none_iff_exists'.mp (mt List.getLast?_eq_none_iff.mp hlist)
    dsimp only
    unfold checkAround
    rw [hfront, hback]
    split
    · exact ⟨h', rfl, hi'⟩
    · refine ⟨_, rfl, hi'.of_same ?_⟩
      split
      · exact ⟨rfl, rfl, rfl, rfl, rfl, rfl, rfl, rfl, rfl⟩
      · split
        · exact ⟨rfl, rfl, rfl, rfl, rfl, rfl, rfl, rfl, rfl⟩
        · exact SameRequests.refl h'

/-- A request for what is older is answered. -/
lemma beforeDone (hi : InFlight h) {last : MsgId} (hfind : h.requests.find h.beforeId = some (.before last))
    (result : Answer) : ∃ h', beforeDone { h with requests := h.requests.erase h.beforeId } h.beforeId last
      result = some h' ∧ InFlight h' := by
  have hfinished := hi.finishBefore hfind
  unfold Replies.beforeDone
  dsimp only
  cases hlast : h.list.getLast? with
  | none => exact ⟨_, rfl, hfinished⟩
  | some back =>
    have hlist : h.list ≠ [] := fun hnil => by simp [hnil] at hlast
    dsimp only
    split
    · obtain ⟨h', heq, hi', -⟩ := hfinished.loadBefore hlist
      exact ⟨h', heq, hi'⟩
    · rename_i hsame
      obtain ⟨isEmpty, h', heq, hi', -⟩ := (hfinished.recordMerge h.beforeId (.before last)
        ⟨hi.later hfind, hlast.trans (congrArg some (not_not.mp hsame))⟩).processMessagesIsEmpty result
      rw [heq]
      cases isEmpty with
      | false => exact ⟨h', rfl, hi'⟩
      | true =>
        refine ⟨_, rfl, hi'.of_same ?_⟩
        split <;> exact ⟨rfl, rfl, rfl, rfl, rfl, rfl, rfl, rfl, rfl⟩

/-- A request for what is newer is answered. -/
lemma afterDone (hi : InFlight h) {first : MsgId} (hfind : h.requests.find h.afterId = some (.after first))
    (result : Answer) : ∃ h', afterDone { h with requests := h.requests.erase h.afterId } h.afterId first
      result = some h' ∧ InFlight h' := by
  have hfinished := hi.finishAfter
  unfold Replies.afterDone
  dsimp only
  cases hfirst : h.list.head? with
  | none => exact ⟨_, rfl, hfinished⟩
  | some front =>
    have hlist : h.list ≠ [] := fun hnil => by simp [hnil] at hfirst
    dsimp only
    split
    · obtain ⟨h', heq, hi', -⟩ := hfinished.loadAfter hlist
      exact ⟨h', heq, hi'⟩
    · rename_i hsame
      obtain ⟨isEmpty, h', heq, hi', -⟩ := (hfinished.recordMerge h.afterId (.after first)
        ⟨hi.later hfind, hfirst.trans (congrArg some (not_not.mp hsame))⟩).processMessagesIsEmpty result
      rw [heq]
      cases isEmpty with
      | false => exact ⟨h', rfl, hi'⟩
      | true =>
        refine ⟨_, rfl, hi'.of_same ?_⟩
        split <;> exact ⟨rfl, rfl, rfl, rfl, rfl, rfl, rfl, rfl, rfl⟩

/-- **A request is answered.** -/
lemma requestDone (hi : InFlight h) (requestId : ℕ) (result : Answer) :
    ∃ h', requestDone h requestId result = some h' ∧ InFlight h' := by
  unfold Replies.requestDone
  dsimp only
  cases hfind : h.requests.find requestId with
  | none => exact ⟨h, rfl, hi⟩
  | some r =>
    cases r with
    | around id =>
      obtain ⟨rfl, -⟩ := hi.aroundOnly hfind
      exact hi.aroundDone hfind result
    | before last =>
      obtain rfl := hi.beforeOnly hfind
      exact hi.beforeDone hfind result
    | after first =>
      obtain rfl := hi.afterOnly hfind
      exact hi.afterDone hfind result

/-- **A request fails.** -/
lemma requestFail (hi : InFlight h) (requestId : ℕ) : InFlight (requestFail h requestId) := by
  unfold Replies.requestFail
  dsimp only
  cases hfind : h.requests.find requestId with
  | none => exact hi
  | some r =>
    cases r with
    | around id =>
      obtain ⟨rfl, -⟩ := hi.aroundOnly hfind
      exact hi.finishAround
    | before last =>
      obtain rfl := hi.beforeOnly hfind
      exact hi.finishBefore hfind
    | after first =>
      obtain rfl := hi.afterOnly hfind
      exact hi.finishAfter

/-- **An update** touches no request. -/
lemma applyUpdate (hi : InFlight h) (update : MessageUpdate) : InFlight (applyUpdate h update).2 := by
  have hlist : ∀ (list : List MsgId) (fullCount : Option ℤ),
      InFlight { h with list := list, fullCount := fullCount } := fun _ _ =>
    hi.of_same ⟨rfl, rfl, rfl, rfl, rfl, rfl, rfl, rfl, rfl⟩
  unfold Replies.applyUpdate
  dsimp only
  split
  · exact hi
  split
  · split
    · exact hi
    · split
      · exact hlist _ _
      · split
        · exact hlist _ _
        · exact hlist _ h.fullCount
      · exact hlist _ h.fullCount
  split
  · exact hi
  split
  · exact hi
  · split
    · exact hlist _ _
    · exact hlist _ _
    · exact hlist _ h.fullCount

end InFlight

/-! ### Runs -/

/-- A list that was just created has no request. -/
lemma inFlight_initial (creating : Bool) (rootId : MsgId) : InFlight (initial creating rootId).replies where
  beforeSent := fun hne => absurd rfl hne
  afterSent := fun hne => absurd rfl hne
  aroundOnly := fun hfind => by cases hfind
  beforeOnly := fun hfind => by cases hfind
  afterOnly := fun hfind => by cases hfind
  later := fun hfind => by cases hfind
  fresh := fun hfind => by cases hfind
  lastFresh := le_rfl
  merged := fun m hm => by cases hm
  waiting := fun hplace => by cases hplace

/-- **A step fails no assertion and keeps the requests in order.** -/
theorem InFlight.step {s : System} (hi : InFlight s.replies) (event : Event) :
    ∃ s', step s event = some s' ∧ InFlight s'.replies := by
  cases event with
  | source around limitBefore limitAfter => exact ⟨_, rfl, hi⟩
  | build world i =>
    dsimp only [Replies.step]
    cases hviewer : s.viewers[i]? with
    | none => exact ⟨s, rfl, hi⟩
    | some viewer =>
      obtain ⟨built, heq, hi'⟩ := hi.buildFromData world viewer
      dsimp only
      rw [heq]
      exact ⟨_, rfl, hi'⟩
  | done requestId result =>
    obtain ⟨h', heq, hi'⟩ := hi.requestDone requestId result
    dsimp only [Replies.step]
    rw [heq]
    exact ⟨_, rfl, hi'⟩
  | fail requestId => exact ⟨_, rfl, hi.requestFail requestId⟩
  | update update => exact ⟨_, rfl, hi.applyUpdate update⟩
  | differenceTooLong =>
    refine ⟨_, rfl, ?_⟩
    show InFlight (applyDifferenceTooLong s.replies)
    unfold applyDifferenceTooLong
    split
    · exact hi.of_same ⟨rfl, rfl, rfl, rfl, rfl, rfl, rfl, rfl, rfl⟩
    · exact hi
  | otherRequest =>
    exact ⟨_, rfl, { hi with
      fresh := fun hfind => ⟨(hi.fresh hfind).1, (hi.fresh hfind).2.trans (Nat.le_succ _)⟩
      lastFresh := hi.lastFresh.trans (Nat.le_succ _) }⟩

/-- **After any run the requests are in order**: at most one request is on its way for each of `beforeId` and
`afterId`, which identify them; a remembered place has its own request on its way, unless `loadBefore` cancelled
it; and every answer that was merged was asked for after the last `loadAround` and for the end that the list had
when it was merged. No assertion fails.

**Proof sketch.** By induction on the run with `InFlight.step`. The requests of `loadAround` and `loadBefore`
share `beforeId`: the first is sent when both fields were just cancelled, the second when `beforeId` is free, so
no other request with an answer for this field is on its way. An answer of a request for a place finds the list
cleared, and that of the others compares the end before it merges. -/
theorem run_inFlight (creating : Bool) (rootId : MsgId) (events : List Event) :
    ∃ s, run (initial creating rootId) events = some s ∧ InFlight s.replies := by
  have hrun : ∀ (events : List Event) (s : System), InFlight s.replies →
      ∃ s', run s events = some s' ∧ InFlight s'.replies := by
    intro events
    induction events with
    | nil => exact fun s hi => ⟨s, rfl, hi⟩
    | cons event rest ih =>
      intro s hi
      obtain ⟨s', heq, hi'⟩ := hi.step event
      obtain ⟨s'', heq', hi''⟩ := ih s' hi'
      refine ⟨s'', ?_, hi''⟩
      show (step s event).bind (fun s => run s rest) = some s''
      rw [heq]
      exact heq'
  exact hrun events _ (inFlight_initial creating rootId)

/-! ### What goes wrong -/

/-- A world in which nothing of the thread is loaded. -/
def noRoot : World := { root := none, owningTopic := false, inboxReadTillFull := 0, divider := -1 }

/-- A page of one message of a thread with a hundred. -/
def onePage : Answer := .messagesSlice [{ id := 10, created := true, inThread := true }] 100

/-- One viewer loads the end of a thread and what is older, another one asks for the message 5; then the first
one asks for what is older again, which is answered. -/
def strandedRun : List Event :=
  [.source 0 50 50, .source 5 50 50, .build noRoot 0, .done 1 onePage, .build noRoot 0, .build noRoot 1,
    .build noRoot 0, .fail 4]

/-- What is older is asked for; before the answer comes, an older message is added and destroyed. -/
def changedRun : List Event :=
  [.source 0 50 50, .build noRoot 0, .done 1 onePage, .build noRoot 0,
    .update { id := 7, regular := true, inThread := true, destroyed := false }]

/-- The older message is destroyed and the answer comes. -/
def changedBackRun : List Event :=
  [.update { id := 7, regular := true, inThread := true, destroyed := true },
    .done 2 (.messagesSlice [{ id := 9, created := true, inThread := true }] 100)]

/-- **A place that is remembered for ever, and an answer for an older list.** After `strandedRun` the place 5 is
remembered, no request is on its way, and the viewer that waits for it asks for nothing. After `changedRun` the
request 2 is on its way for what is older than 10, while the last message is 7; its answer is merged when 7 is
destroyed before it comes. -/
theorem waiting_stranded :
    (∃ s, run (initial false 1) strandedRun = some s ∧ ¬ Waiting s.replies ∧ s.replies.requests.entries = [] ∧
      (step s (.build noRoot 1)).map (fun s => s.replies.requests.entries) = some []) ∧
    (∃ s s', run (initial false 1) changedRun = some s ∧ s.replies.requests.entries = [(2, .before 10)] ∧
      s.replies.list = [10, 7] ∧ run s changedBackRun = some s' ∧ s'.replies.list = [10, 9] ∧
      s'.replies.merges.getLast?.map Merge.id = some 2) := by
  refine ⟨⟨_, rfl, fun hwaiting => ?_, rfl, rfl⟩, ⟨_, _, rfl, rfl, rfl, rfl, rfl, rfl⟩⟩
  obtain ⟨-, hfind⟩ := hwaiting 5 rfl
  cases hfind

end Replies
