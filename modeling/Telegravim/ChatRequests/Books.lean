import Telegravim.ChatRequests.Histories

set_option autoImplicit false

/-!
# Chat requests: the books

A request that was not answered is in one place, and the server was asked for what is among those that were
sent. What waits does so because of a deletion, and an entry is requested once more because of something
that was sent.

An answer is heard before its request finishes, a request that moves is nowhere for a moment, and while
something is sent or finishes, the requests of one history are not settled; the invariant is about a request
that was heard, one that moves, and a history that is left out.

## Main definitions

* `ChatRequests.Books` — requests and where they are.
* `ChatRequests.Reads` — the marks of what was read.
* `ChatRequests.Settled` — what waits in a state, and why.
* `ChatRequests.Kept` — the invariant.

## Main results

* `ChatRequests.Books.emplaceSent`, `ChatRequests.Books.emplacePostponed` — a request is made, or waits.
* `ChatRequests.Books.takeSent`, `ChatRequests.Books.takePostponed`, `ChatRequests.Books.drop` — a request is
  taken out, and is nowhere any more.
-/

namespace ChatRequests

/-! ### States -/

@[simp] lemma state_setState (h : Histories) (p q : PeerId) (s : State) :
    state (setState h p s) q = if q = p then s else state h q := by
  unfold state setState
  dsimp only
  rw [OrdMap.find_insert]
  split_ifs
  · rfl
  · rfl

lemma state_of_find {h : Histories} {p : PeerId} {s : State} (hfind : h.states.find p = some s) :
    state h p = s := by
  unfold state
  rw [hfind]
  rfl

lemma postponeHistoryRequest_iff {s : State} :
    postponeHistoryRequest s = true ↔ ∃ id r, s.sent.find id = some r ∧ r.type = .delete := by
  unfold postponeHistoryRequest
  rw [List.any_eq_true]
  constructor
  · rintro ⟨⟨id, r⟩, hmem, htype⟩
    exact ⟨id, r, OrdMap.find_eq_some_iff.mpr hmem, of_decide_eq_true htype⟩
  · rintro ⟨id, r, hfind, htype⟩
    exact ⟨(id, r), OrdMap.find_eq_some_iff.mp hfind, decide_eq_true htype⟩

lemma postponeEntryRequest_iff {s : State} :
    postponeEntryRequest s = true ↔ ∃ id r, s.sent.find id = some r ∧ r.type ≠ .history := by
  unfold postponeEntryRequest
  rw [List.any_eq_true]
  constructor
  · rintro ⟨⟨id, r⟩, hmem, htype⟩
    exact ⟨id, r, OrdMap.find_eq_some_iff.mpr hmem, of_decide_eq_true htype⟩
  · rintro ⟨id, r, hfind, htype⟩
    exact ⟨(id, r), OrdMap.find_eq_some_iff.mp hfind, decide_eq_true htype⟩

/-- An empty state has no requests. -/
lemma State.empty_iff {s : State} : s.empty = true ↔
    s.postponed = ∅ ∧ s.postponedRequestEntry = false ∧ s.sent = ∅ ∧ s.willReadTill = 0 ∧ s.sentReadTill = 0 := by
  have hmap : ∀ {ν : Type} (m : OrdMap ℕ ν), m.entries.isEmpty = true ↔ m = ∅ := by
    intro ν m
    rw [List.isEmpty_iff]
    constructor
    · intro hentries
      cases m
      cases hentries
      rfl
    · rintro rfl
      rfl
  unfold State.empty
  simp only [Bool.and_eq_true, Bool.not_eq_true', decide_eq_true_eq, hmap]
  tauto

/-! ### The invariant -/

/-- What a request may do with its answer, in a chat: it finishes, and a deletion that goes on is not one in
a channel. -/
def Generator.Fits (p : PeerId) : Generator → Prop
  | .deleteChannel => False
  | .deleteChat _ => peerIsChannel p = false
  | .deleteHistory _ => peerIsChannel p = false
  | _ => True

/-- Requests, where they are, and what the server was asked for. The answer to one may have been heard, and
one may be moving. -/
structure Books (heard moving : Option ℕ) (h : Histories) : Prop where
  listed : ∀ {id p}, moving ≠ some id → (h.historyByRequest.find id = some p ↔
    (∃ r, (state h p).sent.find id = some r) ∨ ∃ g, (state h p).postponed.find id = some g)
  moves : ∀ {id}, moving = some id → h.historyByRequest.contains id = true ∧
    ∀ p, (state h p).sent.find id = none ∧ (state h p).postponed.find id = none
  apart : ∀ {p id r g}, (state h p).sent.find id = some r → (state h p).postponed.find id = some g → False
  inFlight : ∀ {p id r}, (state h p).sent.find id = some r → heard ≠ some id →
    h.requests.find r.id = some (.chat p id r.generator)
  gone : ∀ {p id r}, (state h p).sent.find id = some r → heard = some id →
    h.requests.find r.id = none ∧ r.type ≠ .history
  heardOld : ∀ {id}, heard = some id → id ≤ h.requestAutoincrement ∧ ∀ p, (state h p).postponed.find id = none
  waiting : ∀ {m p id g}, h.requests.find m = some (.chat p id g) → heard ≠ some id ∧
    ∃ r, (state h p).sent.find id = some r ∧ r.id = m ∧ r.generator = g
  plain : ∀ {p id g}, (state h p).postponed.find id = some g → g = .plain
  historyPlain : ∀ {p id r}, (state h p).sent.find id = some r → r.type = .history → r.generator = .plain
  fits : ∀ {p id r}, (state h p).sent.find id = some r → r.generator.Fits p
  addChatUser : ∀ {m p args}, h.requests.find m = some (.addChatUser p args) → peerIsChannel p = false
  fresh : ∀ {id p}, h.historyByRequest.find id = some p → id ≤ h.requestAutoincrement
  freshSent : ∀ {p id r}, (state h p).sent.find id = some r → r.id ≤ h.lastRequestId
  freshRequests : ∀ {m asked}, h.requests.find m = some asked → m ≤ h.lastRequestId
  ended : ∀ {id}, id ∈ h.ended → id ≤ h.requestAutoincrement ∧ h.historyByRequest.find id = none
  creating : ∀ {id}, id ∈ h.creatingTopicRequests →
    id ≤ h.requestAutoincrement ∧ h.historyByRequest.find id = none

/-- The marks of what was read in a chat. What is on its way is not more than what was sent last, unless that
was answered; then it is known as read. -/
structure Reads (s : State) (before : Option MsgId) : Prop where
  will : s.willReadTill ≠ 0 → s.sentReadTill < s.willReadTill
  onItsWay : ∀ {id r till}, s.sent.find id = some r → r.generator = .readInbox till →
    (s.sentReadTill ≠ 0 → till ≤ s.sentReadTill) ∧ (s.sentReadTill = 0 → till < before.getD 1) ∧
      (s.willReadTill ≠ 0 → till < s.willReadTill)

/-- What waits in a state, and why. -/
structure Settled (s : State) (requested : Bool) : Prop where
  exclusive : ∀ {id id' r r'}, s.sent.find id = some r → r.type = .delete → s.sent.find id' = some r' →
    r'.type ≠ .history
  waits : ∀ {id g}, s.postponed.find id = some g → ∃ id r, s.sent.find id = some r ∧ r.type = .delete
  entry : s.postponedRequestEntry = true →
    requested = true ∧ ∃ id r, s.sent.find id = some r ∧ r.type ≠ .history

/-- **The invariant.** -/
structure Kept (heard : Option ℕ) (loose : Option PeerId) (h : Histories) : Prop where
  books : Books heard none h
  reads : ∀ p, Reads (state h p) (chat h p).inboxReadBefore
  settled : ∀ p, loose ≠ some p → Settled (state h p) (h.dialogRequests.contains p)
  dialogs : ∀ p, h.dialogRequests.contains p = true → h.dialogRequestsPending.contains p = false
  erased : ∀ s ∈ h.erased, s.empty = true
  sound : h.failed = false

/-! ### What does not change the books -/

/-- The same requests are in the same places. -/
structure SameBooks (h h' : Histories) : Prop where
  sent : ∀ p, (state h' p).sent = (state h p).sent
  postponed : ∀ p, (state h' p).postponed = (state h p).postponed
  historyByRequest : h'.historyByRequest = h.historyByRequest
  requests : h'.requests = h.requests
  requestAutoincrement : h'.requestAutoincrement = h.requestAutoincrement
  lastRequestId : h'.lastRequestId = h.lastRequestId
  ended : h'.ended = h.ended
  creatingTopicRequests : h'.creatingTopicRequests = h.creatingTopicRequests

lemma Books.congr {heard moving : Option ℕ} {h h' : Histories} (hb : Books heard moving h)
    (hsame : SameBooks h h') : Books heard moving h' where
  listed := by
    intro id p
    rw [hsame.historyByRequest, hsame.sent, hsame.postponed]
    exact hb.listed
  moves := by
    intro id hid
    rw [hsame.historyByRequest]
    refine ⟨(hb.moves hid).1, fun p => ?_⟩
    rw [hsame.sent, hsame.postponed]
    exact (hb.moves hid).2 p
  apart := by
    intro p id r g
    rw [hsame.sent, hsame.postponed]
    exact hb.apart
  inFlight := by
    intro p id r
    rw [hsame.sent, hsame.requests]
    exact hb.inFlight
  gone := by
    intro p id r
    rw [hsame.sent, hsame.requests]
    exact hb.gone
  heardOld := by
    intro id hid
    rw [hsame.requestAutoincrement]
    refine ⟨(hb.heardOld hid).1, fun p => ?_⟩
    rw [hsame.postponed]
    exact (hb.heardOld hid).2 p
  waiting := by
    intro m p id g
    rw [hsame.sent, hsame.requests]
    exact hb.waiting
  plain := by
    intro p id g
    rw [hsame.postponed]
    exact hb.plain
  historyPlain := by
    intro p id r
    rw [hsame.sent]
    exact hb.historyPlain
  fits := by
    intro p id r
    rw [hsame.sent]
    exact hb.fits
  addChatUser := by
    intro m p args
    rw [hsame.requests]
    exact hb.addChatUser
  fresh := by
    intro id p
    rw [hsame.historyByRequest, hsame.requestAutoincrement]
    exact hb.fresh
  freshSent := by
    intro p id r
    rw [hsame.sent, hsame.lastRequestId]
    exact hb.freshSent
  freshRequests := by
    intro m asked
    rw [hsame.requests, hsame.lastRequestId]
    exact hb.freshRequests
  ended := by
    intro id
    rw [hsame.ended, hsame.requestAutoincrement, hsame.historyByRequest]
    exact hb.ended
  creating := by
    intro id
    rw [hsame.creatingTopicRequests, hsame.requestAutoincrement, hsame.historyByRequest]
    exact hb.creating

/-- A state changes, but not its requests. -/
lemma SameBooks.setState (h : Histories) (p : PeerId) {s : State} (hsent : s.sent = (state h p).sent)
    (hpostponed : s.postponed = (state h p).postponed) : SameBooks h (setState h p s) := by
  refine ⟨fun q => ?_, fun q => ?_, rfl, rfl, rfl, rfl, rfl, rfl⟩
  · rw [state_setState]
    split_ifs with hq
    · rw [hsent, hq]
    · rfl
  · rw [state_setState]
    split_ifs with hq
    · rw [hpostponed, hq]
    · rfl

/-! ### One request moves -/

namespace Books

variable {heard : Option ℕ} {h : Histories}

/-- A request is nowhere in other histories. -/
lemma nowhere (hb : Books heard none h) {id : ℕ} {q : PeerId} (hother : h.historyByRequest.find id ≠ some q) :
    (state h q).sent.find id = none ∧ (state h q).postponed.find id = none := by
  constructor
  · cases hfind : (state h q).sent.find id with
    | none => rfl
    | some r => exact absurd ((hb.listed (by simp)).mpr (Or.inl ⟨r, hfind⟩)) hother
  · cases hfind : (state h q).postponed.find id with
    | none => rfl
    | some g => exact absurd ((hb.listed (by simp)).mpr (Or.inr ⟨g, hfind⟩)) hother

/-- A new request is nowhere. -/
lemma notSent (hb : Books heard none h) {id : ℕ} (hid : h.requestAutoincrement < id) (p : PeerId) :
    (state h p).sent.find id = none ∧ (state h p).postponed.find id = none ∧
      h.historyByRequest.find id = none := by
  have hnone : h.historyByRequest.find id = none := by
    cases hfind : h.historyByRequest.find id with
    | none => rfl
    | some q => exact absurd (hb.fresh hfind) (not_le.mpr hid)
  have hnowhere := hb.nowhere (q := p) (by rw [hnone]; simp)
  exact ⟨hnowhere.1, hnowhere.2, hnone⟩

lemma state_register (h : Histories) (p q : PeerId) : state (register h p) q = state h q := by
  show state (setState h p (state h p)) q = state h q
  rw [state_setState]
  split_ifs with hq
  · rw [hq]
  · rfl

/-- A request gets its id. -/
lemma register (hb : Books heard none h) (p : PeerId) :
    Books heard (some (h.requestAutoincrement + 1)) (ChatRequests.register h p) := by
  have hnew := fun q => hb.notSent (Nat.lt_succ_self h.requestAutoincrement) q
  have hby : ∀ id, (ChatRequests.register h p).historyByRequest.find id =
      if id = h.requestAutoincrement + 1 then some p else h.historyByRequest.find id := by
    intro id
    show (h.historyByRequest.emplace (h.requestAutoincrement + 1) p).find id = _
    rw [OrdMap.find_emplace, (hnew p).2.2]
    rfl
  have hold : ∀ {id}, id ≤ h.requestAutoincrement → h.historyByRequest.find id = none →
      id ≤ h.requestAutoincrement + 1 ∧ (ChatRequests.register h p).historyByRequest.find id = none := by
    intro id hid hnone
    refine ⟨by omega, ?_⟩
    rw [hby, if_neg (by omega)]
    exact hnone
  refine
    { listed := fun {id q} hmoving => ?_
      moves := fun {id} hmoving => ?_
      apart := fun {q id r g} hsent hpostponed => ?_
      inFlight := fun {q id r} hsent hheard => ?_
      gone := fun {q id r} hsent hheard => ?_
      heardOld := fun {id} hheard => ?_
      waiting := fun {m q id g} hfind => ?_
      plain := fun {q id g} hpostponed => ?_
      historyPlain := fun {q id r} hsent htype => ?_
      fits := fun {q id r} hsent => ?_
      addChatUser := hb.addChatUser
      fresh := fun {id q} hfind => ?_
      freshSent := fun {q id r} hsent => ?_
      freshRequests := hb.freshRequests
      ended := fun {id} hended => ?_
      creating := fun {id} hcreating => ?_ }
  · rw [hby, if_neg fun hid => hmoving (congrArg some hid.symm), state_register]
    exact hb.listed (by simp)
  · rw [← Option.some.inj hmoving]
    refine ⟨?_, fun q => ?_⟩
    · rw [OrdMap.contains_iff]
      exact ⟨p, by rw [hby, if_pos rfl]⟩
    · rw [state_register]
      exact ⟨(hnew q).1, (hnew q).2.1⟩
  · rw [state_register] at hsent hpostponed
    exact hb.apart hsent hpostponed
  · rw [state_register] at hsent
    exact hb.inFlight hsent hheard
  · rw [state_register] at hsent
    exact hb.gone hsent hheard
  · obtain ⟨hle, hnone⟩ := hb.heardOld hheard
    refine ⟨hle.trans (Nat.le_succ _), fun q => ?_⟩
    rw [state_register]
    exact hnone q
  · rw [state_register]
    exact hb.waiting hfind
  · rw [state_register] at hpostponed
    exact hb.plain hpostponed
  · rw [state_register] at hsent
    exact hb.historyPlain hsent htype
  · rw [state_register] at hsent
    exact hb.fits hsent
  · show id ≤ h.requestAutoincrement + 1
    rw [hby] at hfind
    split_ifs at hfind with hid
    · exact hid.le
    · exact (hb.fresh hfind).trans (Nat.le_succ _)
  · rw [state_register] at hsent
    exact hb.freshSent hsent
  · exact hold (hb.ended hended).1 (hb.ended hended).2
  · exact hold (hb.creating hcreating).1 (hb.creating hcreating).2

/-- What is sent in one state, after an insertion. -/
lemma sent_emplaceSent {p : PeerId} {id : ℕ} (hnone : (state h p).sent.find id = none) (type : RequestType)
    (g : Generator) (q : PeerId) (id' : ℕ) :
    (state (emplaceSent h p id type g) q).sent.find id' =
      if q = p ∧ id' = id then some ⟨g, h.lastRequestId + 1, type⟩ else (state h q).sent.find id' := by
  show (state (setState h p { state h p with
    sent := (state h p).sent.emplace id ⟨g, h.lastRequestId + 1, type⟩ }) q).sent.find id' = _
  rw [state_setState]
  by_cases hq : q = p
  · rw [if_pos hq]
    show ((state h p).sent.emplace id ⟨g, h.lastRequestId + 1, type⟩).find id' = _
    rw [OrdMap.find_emplace, hnone, hq]
    by_cases hid : id' = id
    · rw [if_pos hid, if_pos ⟨rfl, hid⟩]
      rfl
    · rw [if_neg hid, if_neg fun hboth => hid hboth.2]
  · rw [if_neg hq, if_neg fun hboth => hq hboth.1]

lemma rest_emplaceSent (p : PeerId) (id : ℕ) (type : RequestType) (g : Generator) (q : PeerId) :
    state (emplaceSent h p id type g) q =
      { state h q with sent := (state (emplaceSent h p id type g) q).sent } := by
  show state (setState h p { state h p with
    sent := (state h p).sent.emplace id ⟨g, h.lastRequestId + 1, type⟩ }) q =
      { state h q with sent := (state (setState h p { state h p with
        sent := (state h p).sent.emplace id ⟨g, h.lastRequestId + 1, type⟩ }) q).sent }
  rw [state_setState]
  split_ifs with hq
  · rw [hq]
  · rfl

/-- **A request is made.** -/
lemma emplaceSent {p : PeerId} {id : ℕ} (hb : Books heard (some id) h)
    (hid : h.historyByRequest.find id = some p) (hheard : heard ≠ some id) {type : RequestType}
    {g : Generator} (hplain : type = .history → g = .plain) (hfits : g.Fits p) :
    Books heard none (emplaceSent h p id type g) := by
  have hnone := (hb.moves rfl).2
  have hsent := sent_emplaceSent (hnone p).1 type g
  have hpostponed : ∀ q, (state (ChatRequests.emplaceSent h p id type g) q).postponed = (state h q).postponed :=
    fun q => by rw [rest_emplaceSent]
  have hlookup : ∀ {q id' r}, (state (ChatRequests.emplaceSent h p id type g) q).sent.find id' = some r →
      (q = p ∧ id' = id ∧ r = ⟨g, h.lastRequestId + 1, type⟩) ∨
        ((state h q).sent.find id' = some r ∧ id' ≠ id) := by
    intro q id' r hfind
    rw [hsent] at hfind
    split_ifs at hfind with hboth
    · exact Or.inl ⟨hboth.1, hboth.2, (Option.some.inj hfind).symm⟩
    · refine Or.inr ⟨hfind, fun hsame => ?_⟩
      rw [hsame, (hnone q).1] at hfind
      cases hfind
  have hrequests : ∀ m, (ChatRequests.emplaceSent h p id type g).requests.find m =
      if m = h.lastRequestId + 1 then some (.chat p id g) else h.requests.find m :=
    fun m => OrdMap.find_insert _ _ _ _
  have holdRequest : ∀ {m asked}, h.requests.find m = some asked → m ≠ h.lastRequestId + 1 := by
    intro m asked hfind hm
    have hle := hb.freshRequests hfind
    omega
  refine
    { listed := fun {id' q} _ => ?_
      moves := fun {id'} hmoving => by cases hmoving
      apart := fun {q id' r g'} hfind hwaits => ?_
      inFlight := fun {q id' r} hfind hother => ?_
      gone := fun {q id' r} hfind hother => ?_
      heardOld := fun {id'} hother => ?_
      waiting := fun {m q id' g'} hfind => ?_
      plain := fun {q id' g'} hwaits => ?_
      historyPlain := fun {q id' r} hfind htype => ?_
      fits := fun {q id' r} hfind => ?_
      addChatUser := fun {m q args} hfind => ?_
      fresh := hb.fresh
      freshSent := fun {q id' r} hfind => ?_
      freshRequests := fun {m asked} hfind => ?_
      ended := hb.ended
      creating := hb.creating }
  · show h.historyByRequest.find id' = some q ↔ _
    rw [hpostponed, hsent]
    by_cases hsame : id' = id
    · rw [hsame, hid, (hnone q).1, (hnone q).2]
      by_cases hq : q = p
      · simp [hq]
      · simp [hq, Ne.symm hq]
    · rw [if_neg fun hboth => hsame hboth.2]
      exact hb.listed fun hmoving => hsame (Option.some.inj hmoving).symm
  · rw [hpostponed] at hwaits
    rcases hlookup hfind with ⟨rfl, rfl, -⟩ | ⟨hfind, -⟩
    · rw [(hnone q).2] at hwaits
      cases hwaits
    · exact hb.apart hfind hwaits
  · rw [hrequests]
    rcases hlookup hfind with ⟨rfl, rfl, rfl⟩ | ⟨hfind, -⟩
    · rw [if_pos rfl]
    · have hasked := hb.inFlight hfind hother
      rw [if_neg (holdRequest hasked)]
      exact hasked
  · rw [hrequests]
    rcases hlookup hfind with ⟨-, rfl, -⟩ | ⟨hfind, -⟩
    · exact absurd hother hheard
    · have hle := hb.freshSent hfind
      rw [if_neg (by omega)]
      exact hb.gone hfind hother
  · obtain ⟨hle, hwaits⟩ := hb.heardOld hother
    refine ⟨hle, fun q => ?_⟩
    rw [hpostponed]
    exact hwaits q
  · rw [hrequests] at hfind
    rw [hsent]
    split_ifs at hfind with hm
    · cases hfind
      exact ⟨hheard, _, if_pos ⟨rfl, rfl⟩, hm.symm, rfl⟩
    · obtain ⟨hother, r, hr, hrid, hrg⟩ := hb.waiting hfind
      refine ⟨hother, r, ?_, hrid, hrg⟩
      rw [if_neg fun hboth => ?_]
      · exact hr
      · rw [hboth.2, (hnone q).1] at hr
        cases hr
  · rw [hpostponed] at hwaits
    exact hb.plain hwaits
  · rcases hlookup hfind with ⟨-, -, rfl⟩ | ⟨hfind, -⟩
    · exact hplain htype
    · exact hb.historyPlain hfind htype
  · rcases hlookup hfind with ⟨rfl, -, rfl⟩ | ⟨hfind, -⟩
    · exact hfits
    · exact hb.fits hfind
  · rw [hrequests] at hfind
    split_ifs at hfind
    · cases hfind
    · exact hb.addChatUser hfind
  · show r.id ≤ h.lastRequestId + 1
    rcases hlookup hfind with ⟨-, -, rfl⟩ | ⟨hfind, -⟩
    · exact le_rfl
    · exact (hb.freshSent hfind).trans (Nat.le_succ _)
  · show m ≤ h.lastRequestId + 1
    rw [hrequests] at hfind
    split_ifs at hfind with hm
    · exact hm.le
    · exact (hb.freshRequests hfind).trans (Nat.le_succ _)

/-- What waits in one state, after an insertion. -/
lemma postponed_emplacePostponed {p : PeerId} {id : ℕ} (hnone : (state h p).postponed.find id = none)
    (g : Generator) (q : PeerId) (id' : ℕ) :
    (state (emplacePostponed h p id g) q).postponed.find id' =
      if q = p ∧ id' = id then some g else (state h q).postponed.find id' := by
  show (state (setState h p { state h p with
    postponed := (state h p).postponed.emplace id g }) q).postponed.find id' = _
  rw [state_setState]
  by_cases hq : q = p
  · rw [if_pos hq]
    show ((state h p).postponed.emplace id g).find id' = _
    rw [OrdMap.find_emplace, hnone, hq]
    by_cases hid : id' = id
    · rw [if_pos hid, if_pos ⟨rfl, hid⟩]
      rfl
    · rw [if_neg hid, if_neg fun hboth => hid hboth.2]
  · rw [if_neg hq, if_neg fun hboth => hq hboth.1]

lemma sent_emplacePostponed (p : PeerId) (id : ℕ) (g : Generator) (q : PeerId) :
    (state (emplacePostponed h p id g) q).sent = (state h q).sent := by
  show (state (setState h p { state h p with postponed := (state h p).postponed.emplace id g }) q).sent = _
  rw [state_setState]
  split_ifs with hq
  · rw [hq]
  · rfl

/-- **A request waits.** -/
lemma emplacePostponed {p : PeerId} {id : ℕ} (hb : Books heard (some id) h)
    (hid : h.historyByRequest.find id = some p) (hheard : heard ≠ some id) :
    Books heard none (emplacePostponed h p id .plain) := by
  have hnone := (hb.moves rfl).2
  have hpostponed := postponed_emplacePostponed (hnone p).2 .plain
  have hsent := sent_emplacePostponed (h := h) p id .plain
  have hlookup : ∀ {q id' g}, (state (ChatRequests.emplacePostponed h p id .plain) q).postponed.find id' = some g →
      (q = p ∧ id' = id ∧ g = .plain) ∨ (state h q).postponed.find id' = some g := by
    intro q id' g hfind
    rw [hpostponed] at hfind
    split_ifs at hfind with hboth
    · exact Or.inl ⟨hboth.1, hboth.2, (Option.some.inj hfind).symm⟩
    · exact Or.inr hfind
  refine
    { listed := fun {id' q} _ => ?_
      moves := fun {id'} hmoving => by cases hmoving
      apart := fun {q id' r g} hfind hwaits => ?_
      inFlight := fun {q id' r} hfind hother => ?_
      gone := fun {q id' r} hfind hother => ?_
      heardOld := fun {id'} hother => ?_
      waiting := fun {m q id' g} hfind => ?_
      plain := fun {q id' g} hwaits => ?_
      historyPlain := fun {q id' r} hfind htype => ?_
      fits := fun {q id' r} hfind => ?_
      addChatUser := hb.addChatUser
      fresh := hb.fresh
      freshSent := fun {q id' r} hfind => ?_
      freshRequests := hb.freshRequests
      ended := hb.ended
      creating := hb.creating }
  · show h.historyByRequest.find id' = some q ↔ _
    rw [hpostponed, hsent]
    by_cases hsame : id' = id
    · rw [hsame, hid, (hnone q).1, (hnone q).2]
      by_cases hq : q = p
      · simp [hq]
      · simp [hq, Ne.symm hq]
    · rw [if_neg fun hboth => hsame hboth.2]
      exact hb.listed fun hmoving => hsame (Option.some.inj hmoving).symm
  · rw [hsent] at hfind
    rcases hlookup hwaits with ⟨rfl, rfl, -⟩ | hwaits
    · rw [(hnone q).1] at hfind
      cases hfind
    · exact hb.apart hfind hwaits
  · rw [hsent] at hfind
    exact hb.inFlight hfind hother
  · rw [hsent] at hfind
    exact hb.gone hfind hother
  · obtain ⟨hle, hwaits⟩ := hb.heardOld hother
    refine ⟨hle, fun q => ?_⟩
    rw [hpostponed, if_neg fun hboth : q = p ∧ id' = id => hheard (hboth.2 ▸ hother)]
    exact hwaits q
  · rw [hsent]
    exact hb.waiting hfind
  · rcases hlookup hwaits with ⟨-, -, rfl⟩ | hwaits
    · rfl
    · exact hb.plain hwaits
  · rw [hsent] at hfind
    exact hb.historyPlain hfind htype
  · rw [hsent] at hfind
    exact hb.fits hfind
  · rw [hsent] at hfind
    exact hb.freshSent hfind

/-- What is sent in one state, after a removal. -/
lemma sent_takeSent (h : Histories) (p : PeerId) (id : ℕ) (q : PeerId) (id' : ℕ) :
    (state (takeSent h p id) q).sent.find id' =
      if q = p ∧ id' = id then none else (state h q).sent.find id' := by
  unfold takeSent
  dsimp only
  cases hfind : (state h p).sent.find id with
  | none =>
    dsimp only
    split_ifs with hboth
    · rw [hboth.1, hboth.2, hfind]
    · rfl
  | some r =>
    dsimp only
    rw [state_setState]
    by_cases hq : q = p
    · rw [if_pos hq]
      show ((state h p).sent.erase id).find id' = _
      rw [OrdMap.find_erase, hq]
      by_cases hid : id' = id
      · rw [if_pos hid, if_pos ⟨rfl, hid⟩]
      · rw [if_neg hid, if_neg fun hboth => hid hboth.2]
    · rw [if_neg hq, if_neg fun hboth => hq hboth.1]
      rfl

lemma rest_takeSent (h : Histories) (p : PeerId) (id : ℕ) (q : PeerId) :
    state (takeSent h p id) q = { state h q with sent := (state (takeSent h p id) q).sent } := by
  unfold takeSent
  dsimp only
  cases (state h p).sent.find id with
  | none => rfl
  | some r =>
    dsimp only
    rw [state_setState]
    split_ifs with hq
    · rw [hq]
    · rfl

/-- What the server was asked for, after a removal. -/
lemma requests_takeSent (h : Histories) (p : PeerId) (id m : ℕ) :
    (takeSent h p id).requests.find m =
      if ∃ r, (state h p).sent.find id = some r ∧ m = r.id then none else h.requests.find m := by
  unfold takeSent
  dsimp only
  cases hfind : (state h p).sent.find id with
  | none =>
    dsimp only
    rw [if_neg]
    rintro ⟨r, hr, -⟩
    cases hr
  | some r =>
    show (h.requests.erase r.id).find m = _
    rw [OrdMap.find_erase]
    by_cases hm : m = r.id
    · rw [if_pos hm, if_pos ⟨r, rfl, hm⟩]
    · rw [if_neg hm, if_neg]
      rintro ⟨r', hr, hm'⟩
      exact hm ((Option.some.inj hr) ▸ hm')

lemma same_takeSent (h : Histories) (p : PeerId) (id : ℕ) :
    takeSent h p id = { h with states := (takeSent h p id).states, requests := (takeSent h p id).requests } := by
  unfold takeSent
  dsimp only
  cases (state h p).sent.find id with
  | none => rfl
  | some r => rfl

/-- **A request is taken out of those that were sent.** -/
lemma takeSent {p : PeerId} {id : ℕ} (hb : Books heard none h)
    (hid : h.historyByRequest.find id = some p) (hwaits : (state h p).postponed.find id = none) :
    Books heard (some id) (takeSent h p id) := by
  have hsent := sent_takeSent h p id
  have hpostponed : ∀ q, (state (ChatRequests.takeSent h p id) q).postponed = (state h q).postponed :=
    fun q => by rw [rest_takeSent]
  have hrequests := requests_takeSent h p id
  have hsame := same_takeSent h p id
  have hbyRequest : (ChatRequests.takeSent h p id).historyByRequest = h.historyByRequest := by rw [hsame]
  have hauto : (ChatRequests.takeSent h p id).requestAutoincrement = h.requestAutoincrement := by rw [hsame]
  have hlast : (ChatRequests.takeSent h p id).lastRequestId = h.lastRequestId := by rw [hsame]
  have hnowhere : ∀ q, q ≠ p → (state h q).sent.find id = none ∧ (state h q).postponed.find id = none := by
    intro q hq
    refine hb.nowhere ?_
    rw [hid]
    exact fun hsome => hq (Option.some.inj hsome).symm
  have hlookup : ∀ {q id' r}, (state (ChatRequests.takeSent h p id) q).sent.find id' = some r →
      (state h q).sent.find id' = some r ∧ id' ≠ id := by
    intro q id' r hfind
    rw [hsent] at hfind
    split_ifs at hfind with hboth
    refine ⟨hfind, fun hsame => ?_⟩
    rw [hsame, (hnowhere q fun hq => hboth ⟨hq, hsame⟩).1] at hfind
    cases hfind
  -- what is on its way for another request is not what was cancelled
  have hkept : ∀ {q id' r}, (state h q).sent.find id' = some r → id' ≠ id → heard ≠ some id' →
      ¬∃ r', (state h p).sent.find id = some r' ∧ r.id = r'.id := by
    rintro q id' r hfind hne hother ⟨r', hr', hsameId⟩
    have hasked := hb.inFlight hfind hother
    by_cases hheard : heard = some id
    · rw [hsameId, (hb.gone hr' hheard).1] at hasked
      cases hasked
    · rw [hsameId, hb.inFlight hr' hheard] at hasked
      injection Option.some.inj hasked with _ hids
      exact hne hids.symm
  refine
    { listed := fun {id' q} hmoving => ?_
      moves := fun {id'} hmoving => ?_
      apart := fun {q id' r g} hfind hother => ?_
      inFlight := fun {q id' r} hfind hother => ?_
      gone := fun {q id' r} hfind hother => ?_
      heardOld := fun {id'} hother => ?_
      waiting := fun {m q id' g} hfind => ?_
      plain := fun {q id' g} hother => ?_
      historyPlain := fun {q id' r} hfind htype => hb.historyPlain (hlookup hfind).1 htype
      fits := fun {q id' r} hfind => hb.fits (hlookup hfind).1
      addChatUser := fun {m q args} hfind => ?_
      fresh := fun {id' q} hfind => ?_
      freshSent := fun {q id' r} hfind => ?_
      freshRequests := fun {m asked} hfind => ?_
      ended := fun {id'} hended => ?_
      creating := fun {id'} hcreating => ?_ }
  · have hne : id' ≠ id := fun hsame => hmoving (congrArg some hsame.symm)
    rw [hbyRequest, hpostponed, hsent, if_neg fun hboth => hne hboth.2]
    exact hb.listed (by simp)
  · rw [← Option.some.inj hmoving, hbyRequest]
    refine ⟨OrdMap.contains_iff.mpr ⟨p, hid⟩, fun q => ?_⟩
    rw [hpostponed, hsent]
    by_cases hq : q = p
    · rw [if_pos ⟨hq, rfl⟩, hq]
      exact ⟨rfl, hwaits⟩
    · rw [if_neg fun hboth => hq hboth.1]
      exact hnowhere q hq
  · rw [hpostponed] at hother
    exact hb.apart (hlookup hfind).1 hother
  · obtain ⟨hfind, hne⟩ := hlookup hfind
    rw [hrequests, if_neg (hkept hfind hne hother)]
    exact hb.inFlight hfind hother
  · obtain ⟨hfind, hne⟩ := hlookup hfind
    obtain ⟨hnone, htype⟩ := hb.gone hfind hother
    refine ⟨?_, htype⟩
    rw [hrequests, hnone]
    split_ifs
    · rfl
    · rfl
  · obtain ⟨hle, hnone⟩ := hb.heardOld hother
    rw [hauto]
    refine ⟨hle, fun q => ?_⟩
    rw [hpostponed]
    exact hnone q
  · rw [hrequests] at hfind
    split_ifs at hfind with htaken
    obtain ⟨hother, r, hr, hrid, hrg⟩ := hb.waiting hfind
    refine ⟨hother, r, ?_, hrid, hrg⟩
    rw [hsent, if_neg]
    · exact hr
    · rintro ⟨rfl, rfl⟩
      exact htaken ⟨r, hr, hrid.symm⟩
  · rw [hpostponed] at hother
    exact hb.plain hother
  · rw [hrequests] at hfind
    split_ifs at hfind
    exact hb.addChatUser hfind
  · rw [hbyRequest] at hfind
    rw [hauto]
    exact hb.fresh hfind
  · rw [hlast]
    exact hb.freshSent (hlookup hfind).1
  · rw [hrequests] at hfind
    rw [hlast]
    split_ifs at hfind
    exact hb.freshRequests hfind
  · rw [hsame] at hended
    rw [hauto, hbyRequest]
    exact hb.ended hended
  · rw [hsame] at hcreating
    rw [hauto, hbyRequest]
    exact hb.creating hcreating

/-- **A request is taken out of those that wait.** -/
lemma takePostponed {p : PeerId} {id : ℕ} (hb : Books heard none h)
    (hid : h.historyByRequest.find id = some p) (hsent : (state h p).sent.find id = none) :
    Books heard (some id) (setState h p { state h p with postponed := (state h p).postponed.erase id }) := by
  set h' := setState h p { state h p with postponed := (state h p).postponed.erase id } with hh'
  have hsame : ∀ q, (state h' q).sent = (state h q).sent := by
    intro q
    rw [hh', state_setState]
    split_ifs with hq
    · rw [hq]
    · rfl
  have hpostponed : ∀ q id', (state h' q).postponed.find id' =
      if q = p ∧ id' = id then none else (state h q).postponed.find id' := by
    intro q id'
    rw [hh', state_setState]
    by_cases hq : q = p
    · rw [if_pos hq]
      show ((state h p).postponed.erase id).find id' = _
      rw [OrdMap.find_erase, hq]
      by_cases hsameId : id' = id
      · rw [if_pos hsameId, if_pos ⟨rfl, hsameId⟩]
      · rw [if_neg hsameId, if_neg fun hboth => hsameId hboth.2]
    · rw [if_neg hq, if_neg fun hboth => hq hboth.1]
  have hlookup : ∀ {q id' g}, (state h' q).postponed.find id' = some g →
      (state h q).postponed.find id' = some g := by
    intro q id' g hfind
    rw [hpostponed] at hfind
    split_ifs at hfind
    exact hfind
  refine
    { listed := fun {id' q} hmoving => ?_
      moves := fun {id'} hmoving => ?_
      apart := fun {q id' r g} hfind hwaits => ?_
      inFlight := fun {q id' r} hfind hother => ?_
      gone := fun {q id' r} hfind hother => ?_
      heardOld := fun {id'} hother => ?_
      waiting := fun {m q id' g} hfind => ?_
      plain := fun {q id' g} hwaits => hb.plain (hlookup hwaits)
      historyPlain := fun {q id' r} hfind htype => ?_
      fits := fun {q id' r} hfind => ?_
      addChatUser := hb.addChatUser
      fresh := hb.fresh
      freshSent := fun {q id' r} hfind => ?_
      freshRequests := hb.freshRequests
      ended := hb.ended
      creating := hb.creating }
  · have hne : id' ≠ id := fun hsameId => hmoving (congrArg some hsameId.symm)
    rw [hsame, hpostponed, if_neg fun hboth => hne hboth.2]
    exact hb.listed (by simp)
  · rw [← Option.some.inj hmoving]
    refine ⟨OrdMap.contains_iff.mpr ⟨p, hid⟩, fun q => ?_⟩
    rw [hpostponed, hsame]
    by_cases hq : q = p
    · rw [if_pos ⟨hq, rfl⟩, hq]
      exact ⟨hsent, rfl⟩
    · rw [if_neg fun hboth => hq hboth.1]
      have hother : h.historyByRequest.find id ≠ some q := by
        rw [hid]
        exact fun hsome => hq (Option.some.inj hsome).symm
      exact hb.nowhere hother
  · rw [hsame] at hfind
    exact hb.apart hfind (hlookup hwaits)
  · rw [hsame] at hfind
    exact hb.inFlight hfind hother
  · rw [hsame] at hfind
    exact hb.gone hfind hother
  · obtain ⟨hle, hnone⟩ := hb.heardOld hother
    refine ⟨hle, fun q => ?_⟩
    rw [hpostponed, hnone]
    split_ifs
    · rfl
    · rfl
  · rw [hsame]
    exact hb.waiting hfind
  · rw [hsame] at hfind
    exact hb.historyPlain hfind htype
  · rw [hsame] at hfind
    exact hb.fits hfind
  · rw [hsame] at hfind
    exact hb.freshSent hfind

/-- **A request is nowhere any more.** If it was heard, it has finished. -/
lemma drop {id : ℕ} (hb : Books heard (some id) h) (hheard : heard = none ∨ heard = some id) :
    Books none none { h with historyByRequest := h.historyByRequest.erase id } := by
  have hnone := (hb.moves rfl).2
  have hby : ∀ {id' q}, (h.historyByRequest.erase id).find id' = some q →
      h.historyByRequest.find id' = some q := by
    intro id' q hfind
    rw [OrdMap.find_erase] at hfind
    split_ifs at hfind
    exact hfind
  have hother : ∀ {q id' r}, (state h q).sent.find id' = some r → heard ≠ some id' := by
    rintro q id' r hfind hsame
    rcases hheard with hnot | hself
    · rw [hnot] at hsame
      cases hsame
    · rw [hself] at hsame
      rw [← Option.some.inj hsame, (hnone q).1] at hfind
      cases hfind
  have hended : ∀ {id'}, id' ≤ h.requestAutoincrement ∧ h.historyByRequest.find id' = none →
      id' ≤ h.requestAutoincrement ∧ (h.historyByRequest.erase id).find id' = none := by
    rintro id' ⟨hle, hfind⟩
    refine ⟨hle, ?_⟩
    rw [OrdMap.find_erase, hfind]
    split_ifs
    · rfl
    · rfl
  refine
    { listed := fun {id' q} _ => ?_
      moves := fun {id'} hmoving => by cases hmoving
      apart := hb.apart
      inFlight := fun {q id' r} hfind _ => hb.inFlight hfind (hother hfind)
      gone := fun {q id' r} _ hsome => by cases hsome
      heardOld := fun {id'} hsome => by cases hsome
      waiting := fun {m q id' g} hfind => ⟨by simp, (hb.waiting hfind).2⟩
      plain := hb.plain
      historyPlain := hb.historyPlain
      fits := hb.fits
      addChatUser := hb.addChatUser
      fresh := fun {id' q} hfind => hb.fresh (hby hfind)
      freshSent := hb.freshSent
      freshRequests := hb.freshRequests
      ended := fun {id'} hid => hended (hb.ended hid)
      creating := fun {id'} hid => hended (hb.creating hid) }
  show (h.historyByRequest.erase id).find id' = some q ↔
    (∃ r, (state h q).sent.find id' = some r) ∨ ∃ g, (state h q).postponed.find id' = some g
  rw [OrdMap.find_erase]
  by_cases hsame : id' = id
  · rw [if_pos hsame, hsame, (hnone q).1, (hnone q).2]
    simp
  · rw [if_neg hsame]
    exact hb.listed fun hmoving => hsame (Option.some.inj hmoving).symm

end Books

end ChatRequests
