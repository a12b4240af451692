import Telegravim.ChatRequests.Requests

set_option autoImplicit false

/-!
# Chat requests: cancelled requests, and entries

A request that is cancelled was sent, or waits, or is a message to a topic that is being created. Entries
that wait are requested together; a chat for which something was sent that changes its entry is not among
them, and is marked.

## Main results

* `ChatRequests.Kept.cancelRequest` — a request is cancelled.
* `ChatRequests.Kept.sendDialogRequests`, `ChatRequests.Kept.dialogEntryApplied` — entries are requested, and
  are there.
-/

namespace ChatRequests

/-! ### Ids -/

/-- The same requests have ids. -/
structure SameIds (h h' : Histories) : Prop where
  historyByRequest : h'.historyByRequest = h.historyByRequest
  requestAutoincrement : h'.requestAutoincrement = h.requestAutoincrement

lemma SameIds.refl (h : Histories) : SameIds h h := ⟨rfl, rfl⟩

lemma SameIds.trans {h h' h'' : Histories} (hs : SameIds h h') (hs' : SameIds h' h'') : SameIds h h'' :=
  ⟨hs'.historyByRequest.trans hs.historyByRequest, hs'.requestAutoincrement.trans hs.requestAutoincrement⟩

lemma SameIds.foldl {change : Histories → ℕ → Histories} (hchange : ∀ h id, SameIds h (change h id))
    (ids : List ℕ) (h : Histories) : SameIds h (ids.foldl change h) := by
  induction ids generalizing h with
  | nil => exact SameIds.refl h
  | cons id rest ih => exact (hchange h id).trans (ih _)

lemma sameIds_resendHistoryRequest (p : PeerId) (h : Histories) (id : ℕ) :
    SameIds h (resendHistoryRequest p h id) := by
  unfold resendHistoryRequest
  dsimp only
  cases (state h p).sent.find id with
  | none => exact SameIds.refl h
  | some r =>
    dsimp only
    split_ifs
    · exact SameIds.refl h
    · exact ⟨rfl, rfl⟩

lemma sameIds_sendPostponed (p : PeerId) (h : Histories) (id : ℕ) : SameIds h (sendPostponed p h id) := by
  unfold sendPostponed
  dsimp only
  cases (state h p).postponed.find id with
  | none => exact SameIds.refl h
  | some g => exact ⟨rfl, rfl⟩

lemma sameIds_checkEmptyState (h : Histories) (p : PeerId) : SameIds h (checkEmptyState h p) := by
  unfold checkEmptyState
  cases h.states.find p with
  | none => exact SameIds.refl h
  | some s =>
    dsimp only
    split_ifs
    · exact ⟨rfl, rfl⟩
    · exact SameIds.refl h

lemma sameIds_requestEntryAgain (h : Histories) (p : PeerId) : SameIds h (requestEntryAgain h p) := by
  unfold requestEntryAgain
  cases h.dialogRequests.find p with
  | none => exact ⟨rfl, rfl⟩
  | some callbacks =>
    dsimp only
    split_ifs
    · exact ⟨rfl, rfl⟩
    · exact ⟨rfl, rfl⟩

lemma sameIds_restartEntry (h : Histories) (p : PeerId) : SameIds h (restartEntry h p) := by
  unfold restartEntry
  dsimp only
  split
  · exact sameIds_requestEntryAgain h p
  · exact SameIds.refl h

lemma sameIds_postponeEntry (h : Histories) (p : PeerId) : SameIds h (postponeEntry h p) := by
  unfold postponeEntry
  dsimp only
  split
  · exact ⟨rfl, rfl⟩
  · exact SameIds.refl h

lemma sameIds_restartPostponed (h : Histories) (p : PeerId) : SameIds h (restartPostponed h p) := by
  unfold restartPostponed
  dsimp only
  split_ifs
  · exact SameIds.foldl (sameIds_sendPostponed p) _ h
  · exact SameIds.refl h

/-- What finishes has no id any more. -/
lemma ids_finishSentRequest (h : Histories) (p : PeerId) (id : ℕ) :
    SameIds { h with historyByRequest := h.historyByRequest.erase id } (finishSentRequest h p id) := by
  unfold finishSentRequest
  dsimp only
  refine SameIds.trans ?_ ((sameIds_restartPostponed _ p).trans
    ((sameIds_restartEntry _ p).trans (sameIds_checkEmptyState _ p)))
  rw [Kept.takeSent_historyByRequest]
  exact ⟨rfl, by rw [Books.same_takeSent]⟩

/-- Requests keep their ids. -/
def KeepsIds (h h' : Histories) : Prop :=
  ∀ id p, h.historyByRequest.find id = some p → h'.historyByRequest.find id = some p

lemma SameIds.keepsIds {h h' : Histories} (hs : SameIds h h') : KeepsIds h h' := by
  intro id p hfind
  rw [hs.historyByRequest]
  exact hfind

lemma KeepsIds.trans {h h' h'' : Histories} (hs : KeepsIds h h') (hs' : KeepsIds h' h'') : KeepsIds h h'' :=
  fun id p hfind => hs' id p (hs id p hfind)

lemma keepsIds_register (h : Histories) (p : PeerId) : KeepsIds h (register h p) := by
  intro id q hfind
  show (h.historyByRequest.emplace (h.requestAutoincrement + 1) p).find id = some q
  rw [OrdMap.find_emplace]
  split_ifs with hid
  · rw [← hid, hfind]
    rfl
  · exact hfind

lemma keepsIds_sendRequest (h : Histories) (p : PeerId) (type : RequestType) (g : Generator) :
    KeepsIds h (sendRequest h p type g) := by
  refine (keepsIds_register h p).trans ?_
  unfold sendRequest
  dsimp only
  split_ifs
  · exact SameIds.keepsIds ⟨rfl, rfl⟩
  · have hsent : ∀ id, SameIds (register h p) (emplaceSent (register h p) p id type g) := fun id => ⟨rfl, rfl⟩
    unfold sendNow
    dsimp only
    split
    · exact ((hsent _).trans ((sameIds_postponeEntry _ p).trans
        (SameIds.foldl (sameIds_resendHistoryRequest p) _ _))).keepsIds
    · exact ((hsent _).trans (sameIds_postponeEntry _ p)).keepsIds

/-! ### Cancelled requests -/

/-- The state of a request is there. -/
lemma Books.contains {heard : Option ℕ} {h : Histories} (hb : Books heard none h) {id : ℕ} {p : PeerId}
    (hid : h.historyByRequest.find id = some p) : h.states.contains p = true := by
  rw [OrdMap.contains_iff]
  cases hfind : h.states.find p with
  | some s => exact ⟨s, rfl⟩
  | none =>
    have hempty : state h p = {} := by
      unfold state
      rw [hfind]
      rfl
    rcases (hb.listed (by simp)).mp hid with ⟨r, hr⟩ | ⟨g, hg⟩
    · rw [hempty] at hr
      cases hr
    · rw [hempty] at hg
      cases hg

namespace Kept

variable {heard : Option ℕ} {loose : Option PeerId} {h : Histories} {p : PeerId}

/-- A state changes, but not its requests, nor whether its entry is requested once more. -/
lemma setState (hk : Kept heard none h) {s : State} (hsent : s.sent = (state h p).sent)
    (hpostponed : s.postponed = (state h p).postponed)
    (hentry : s.postponedRequestEntry = (state h p).postponedRequestEntry)
    (hreads : Reads s (chat h p).inboxReadBefore) : Kept heard none (setState h p s) where
  books := hk.books.congr (SameBooks.setState h p hsent hpostponed)
  reads := fun q => by
    rw [state_setState]
    split_ifs with hq
    · rw [hq]
      exact hreads
    · exact hk.reads q
  settled := fun q hq => by
    rw [state_setState]
    split_ifs with hqp
    · have hold := hk.settled p (by simp)
      rw [hqp]
      refine ⟨?_, ?_, ?_⟩
      · rw [hsent]
        exact hold.exclusive
      · rw [hsent, hpostponed]
        exact hold.waits
      · rw [hsent, hentry]
        exact hold.entry
    · exact hk.settled q hq
  dialogs := hk.dialogs
  erased := hk.erased
  sound := hk.sound

/-- The id of a request that was answered or cancelled is noted. -/
lemma noteEnd (hk : Kept heard loose h) {id : ℕ} (hle : id ≤ h.requestAutoincrement)
    (hnone : h.historyByRequest.find id = none) : Kept heard loose (noteEnd h id) where
  books := { hk.books with
    ended := fun {id'} hmem => by
      rcases Finset.mem_insert.mp hmem with hsame | hmem
      · rw [hsame]
        exact ⟨hle, hnone⟩
      · exact hk.books.ended hmem }
  reads := hk.reads
  settled := hk.settled
  dialogs := hk.dialogs
  erased := hk.erased
  sound := hk.sound

/-- What finished is not sent any more, and waits no more. -/
lemma noteFinished {h' : Histories} {id : ℕ} (hk : Kept heard none (ChatRequests.finishSentRequest h' p id))
    (hle : id ≤ h'.requestAutoincrement) :
    Kept heard none (ChatRequests.noteEnd (ChatRequests.finishSentRequest h' p id) id) := by
  have hids := ids_finishSentRequest h' p id
  refine hk.noteEnd ?_ ?_
  · rw [hids.requestAutoincrement]
    exact hle
  · rw [hids.historyByRequest]
    show (h'.historyByRequest.erase id).find id = none
    rw [OrdMap.find_erase, if_pos rfl]

/-- What waited is cancelled. -/
lemma cancelPostponed (hk : Kept none none h) {id : ℕ} {g : Generator} (hid : h.historyByRequest.find id = some p)
    (hwaits : (state h p).postponed.find id = some g) :
    Kept none none (ChatRequests.finishSentRequest (ChatRequests.setState
      { h with historyByRequest := h.historyByRequest.erase id } p
        { state h p with postponed := (state h p).postponed.erase id }) p id) := by
  have hold := hk.settled p (by simp)
  have hnone : (state h p).sent.find id = none := by
    cases hsent : (state h p).sent.find id with
    | none => rfl
    | some r => exact (hk.books.apart hsent hwaits).elim
  have htaken := (hk.books.takePostponed hid hnone).drop (Or.inl rfl)
  set out : Histories := { ChatRequests.setState h p
    { state h p with postponed := (state h p).postponed.erase id } with
      historyByRequest := h.historyByRequest.erase id } with hout
  have hself : state out p = { state h p with postponed := (state h p).postponed.erase id } := by
    show state (ChatRequests.setState h p _) p = _
    rw [state_setState, if_pos rfl]
  have hmoves : Moves p h out :=
    { moves_setState h (p := p) (s := { state h p with postponed := (state h p).postponed.erase id })
        rfl rfl rfl rfl with }
  have hkept := hk.moves hmoves htaken (Or.inl rfl)
  have hsame : takeSent { out with historyByRequest := out.historyByRequest.erase id } p id = out := by
    have herase : (h.historyByRequest.erase id).erase id = h.historyByRequest.erase id :=
      OrdMap.erase_of_find_eq_none (by rw [OrdMap.find_erase, if_pos rfl])
    have hnothing : (state out p).sent.find id = none := by
      rw [hself]
      exact hnone
    rw [takeSent_historyByRequest]
    unfold takeSent
    dsimp only
    rw [hnothing]
    show { out with historyByRequest := (h.historyByRequest.erase id).erase id } = out
    rw [herase]
  show Kept none none (ChatRequests.checkEmptyState (ChatRequests.restartEntry (ChatRequests.restartPostponed
    (takeSent { out with historyByRequest := out.historyByRequest.erase id } p id) p) p) p)
  rw [hsame]
  refine hkept.finish ?_ ?_
  · rw [hself]
    exact hold.exclusive
  · rw [hself]
    exact fun hflag => (hold.entry hflag).1

/-- What was sent is cancelled. -/
lemma cancelSent (hk : Kept none none h) {id : ℕ} {r : SentRequest} (hid : h.historyByRequest.find id = some p)
    (hsent : (state h p).sent.find id = some r) :
    Kept none none (ChatRequests.finishSentRequest (ChatRequests.setState
      { h with historyByRequest := h.historyByRequest.erase id } p
        { state h p with postponed := (state h p).postponed.erase id }) p id) := by
  have hnone : (state h p).postponed.find id = none := by
    cases hwaits : (state h p).postponed.find id with
    | none => rfl
    | some g => exact (hk.books.apart hsent hwaits).elim
  have hpostponed : (state h p).postponed.erase id = (state h p).postponed := OrdMap.erase_of_find_eq_none hnone
  rw [hpostponed]
  have hkept : Kept none none (ChatRequests.setState h p (state h p)) := hk.setState rfl rfl rfl (hk.reads p)
  have hfinished := hkept.finishSentRequest (p := p) hid (by rw [state_setState, if_pos rfl, hnone]) (Or.inl rfl)
  have herase : (h.historyByRequest.erase id).erase id = h.historyByRequest.erase id :=
    OrdMap.erase_of_find_eq_none (by rw [OrdMap.find_erase, if_pos rfl])
  have hsame : ChatRequests.finishSentRequest (ChatRequests.setState
      { h with historyByRequest := h.historyByRequest.erase id } p (state h p)) p id =
        ChatRequests.finishSentRequest (ChatRequests.setState h p (state h p)) p id := by
    unfold ChatRequests.finishSentRequest ChatRequests.setState
    dsimp only
    rw [herase]
  rw [hsame]
  exact hfinished

/-- **A request is cancelled.** -/
theorem cancelRequest (hk : Kept none none h) (id : ℕ) : Kept none none (cancelRequest h id) := by
  unfold ChatRequests.cancelRequest
  split
  · exact hk
  split
  · rename_i hcreating
    obtain ⟨hle, hnone⟩ := hk.books.creating hcreating
    have hcancelled : Kept none none (cancelDelayedByTopicRequest h id) :=
      { hk with
        books := { hk.books with
          creating := fun {id'} hmem => hk.books.creating (Finset.mem_of_mem_erase hmem) } }
    exact hcancelled.noteEnd hle hnone
  · cases hid : h.historyByRequest.find id with
    | none => exact hk
    | some p =>
      have hle := hk.books.fresh hid
      dsimp only
      rw [if_pos (hk.books.contains hid)]
      refine noteFinished ?_ hle
      rcases (hk.books.listed (by simp)).mp hid with ⟨r, hr⟩ | ⟨g, hg⟩
      · exact hk.cancelSent hid hr
      · exact hk.cancelPostponed hid hg

/-! ### Entries -/

/-- Chats are asked for, or not any more, but not those whose entry is requested once more. -/
lemma setDialogs (hk : Kept heard none h) (requested pending : OrdMap PeerId (List ℕ)) (called : List ℕ)
    (hrequested : ∀ q, h.dialogRequests.contains q = true → (state h q).postponedRequestEntry = true →
      requested.contains q = true)
    (hpending : ∀ q, requested.contains q = true → pending.contains q = false) :
    Kept heard none { h with
      dialogRequests := requested, dialogRequestsPending := pending, called := called } where
  books := hk.books.congr ⟨fun _ => rfl, fun _ => rfl, rfl, rfl, rfl, rfl, rfl, rfl⟩
  reads := hk.reads
  settled := fun q hq => by
    have hold := hk.settled q hq
    exact ⟨hold.exclusive, hold.waits, fun hflag =>
      ⟨hrequested q (hold.entry hflag).1 hflag, (hold.entry hflag).2⟩⟩
  dialogs := hpending
  erased := hk.erased
  sound := hk.sound

/-- Something is asked for that is not a request of a history. -/
lemma request (hk : Kept heard loose h) {asked : ApiRequest} (hchat : ∀ q id g, asked ≠ .chat q id g)
    (huser : ∀ q args, asked = .addChatUser q args → peerIsChannel q = false) :
    Kept heard loose (request h asked) where
  books := by
    have hb := hk.books
    have hfind : ∀ m, (ChatRequests.request h asked).requests.find m =
        if m = h.lastRequestId + 1 then some asked else h.requests.find m := fun m => OrdMap.find_insert _ _ _ _
    have hold : ∀ {m}, m ≤ h.lastRequestId →
        (ChatRequests.request h asked).requests.find m = h.requests.find m := by
      intro m hm
      rw [hfind, if_neg (by omega)]
    refine { hb with
      inFlight := fun {q id r} hsent hheard => ?_
      gone := fun {q id r} hsent hheard => ?_
      waiting := fun {m q id g} hasked => ?_
      addChatUser := fun {m q args} hasked => ?_
      freshSent := fun {q id r} hsent => ?_
      freshRequests := fun {m other} hasked => ?_ }
    · rw [hold (hb.freshSent hsent)]
      exact hb.inFlight hsent hheard
    · rw [hold (hb.freshSent hsent)]
      exact hb.gone hsent hheard
    · rw [hfind] at hasked
      split_ifs at hasked
      · exact absurd (Option.some.inj hasked) (hchat q id g)
      · exact hb.waiting hasked
    · rw [hfind] at hasked
      split_ifs at hasked
      · exact huser q args (Option.some.inj hasked)
      · exact hb.addChatUser hasked
    · exact (hb.freshSent hsent).trans (Nat.le_succ _)
    · show m ≤ h.lastRequestId + 1
      rw [hfind] at hasked
      split_ifs at hasked with hm
      · exact hm.le
      · exact (hb.freshRequests hasked).trans (Nat.le_succ _)
  reads := hk.reads
  settled := hk.settled
  dialogs := hk.dialogs
  erased := hk.erased
  sound := hk.sound

theorem requestDialogEntry (hk : Kept heard none h) (p : PeerId) (callback : Option ℕ) (isCommunity : Bool) :
    Kept heard none (requestDialogEntry h p callback isCommunity) := by
  unfold ChatRequests.requestDialogEntry
  split
  · exact hk
  · cases hfind : h.dialogRequests.find p with
    | some callbacks =>
      have hcontains : ∀ q, (h.dialogRequests.insert p (callbacks ++ callback.toList)).contains q =
          h.dialogRequests.contains q := by
        intro q
        unfold OrdMap.contains
        rw [OrdMap.find_insert]
        split_ifs with hq
        · rw [hq, hfind]
          rfl
        · rfl
      refine hk.setDialogs (h.dialogRequests.insert p (callbacks ++ callback.toList)) h.dialogRequestsPending
        h.called (fun q hq _ => ?_) fun q hq => ?_
      · rw [hcontains]
        exact hq
      · rw [hcontains] at hq
        exact hk.dialogs q hq
    | none =>
      refine hk.setDialogs h.dialogRequests (h.dialogRequestsPending.insert p
        ((h.dialogRequestsPending.find p).getD [] ++ callback.toList)) h.called (fun q hq _ => hq) fun q hq => ?_
      unfold OrdMap.contains
      rw [OrdMap.find_insert_of_ne]
      · exact hk.dialogs q hq
      · rintro rfl
        unfold OrdMap.contains at hq
        rw [hfind] at hq
        cases hq

/-- A chat for which something was sent that changes its entry is marked. -/
lemma markEntry (hk : Kept heard none h) (hrequested : h.dialogRequests.contains p = true) :
    Kept heard none (markEntry h p) := by
  unfold ChatRequests.markEntry
  split
  · exact hk
  · rename_i hready
    have hsome : postponeEntryRequest (state h p) = true := by
      unfold entryReady at hready
      cases hfind : h.states.find p with
      | none =>
        rw [hfind] at hready
        exact absurd rfl hready
      | some s =>
        rw [hfind] at hready
        rw [state_of_find hfind]
        simpa using hready
    have hold := hk.settled p (by simp)
    refine ((hk.loosen p).setEntry true).settle ?_
    rw [state_setState, if_pos rfl]
    exact ⟨hold.exclusive, hold.waits, fun _ => ⟨hrequested, postponeEntryRequest_iff.mp hsome⟩⟩

lemma markEntry_dialogRequests (h : Histories) (p : PeerId) :
    (ChatRequests.markEntry h p).dialogRequests = h.dialogRequests := by
  unfold ChatRequests.markEntry
  split_ifs
  · rfl
  · rfl

lemma foldl_markEntry (histories : List PeerId) {h : Histories} (hk : Kept heard none h)
    (hrequested : ∀ p ∈ histories, h.dialogRequests.contains p = true) :
    Kept heard none (histories.foldl ChatRequests.markEntry h) := by
  induction histories generalizing h with
  | nil => exact hk
  | cons p rest ih =>
    refine ih (hk.markEntry (hrequested p List.mem_cons_self)) fun q hq => ?_
    rw [markEntry_dialogRequests]
    exact hrequested q (List.mem_cons_of_mem _ hq)

/-- What is marked does not depend on what is asked for. -/
lemma foldl_markEntry_dialogs (histories : List PeerId) (h : Histories)
    (requested pending : OrdMap PeerId (List ℕ)) :
    histories.foldl ChatRequests.markEntry
        { h with dialogRequests := requested, dialogRequestsPending := pending } =
      { histories.foldl ChatRequests.markEntry h with
        dialogRequests := requested, dialogRequestsPending := pending } := by
  induction histories generalizing h with
  | nil => rfl
  | cons p rest ih =>
    have hone : ChatRequests.markEntry { h with
        dialogRequests := requested, dialogRequestsPending := pending } p =
          { ChatRequests.markEntry h p with
            dialogRequests := requested, dialogRequestsPending := pending } := by
      unfold ChatRequests.markEntry
      have hready : entryReady { h with
        dialogRequests := requested, dialogRequestsPending := pending } p = entryReady h p := rfl
      rw [hready]
      split_ifs
      · rfl
      · rfl
    rw [List.foldl_cons, hone, ih, List.foldl_cons]

/-- What is asked for after more chats are asked for. -/
def emplaceEntries (entries : List (PeerId × List ℕ)) (requested : OrdMap PeerId (List ℕ)) :
    OrdMap PeerId (List ℕ) :=
  entries.foldl (fun requested entry => requested.emplace entry.1 entry.2) requested

lemma foldl_emplaceDialogRequest (entries : List (PeerId × List ℕ)) (h : Histories) :
    entries.foldl emplaceDialogRequest h =
      { h with dialogRequests := emplaceEntries entries h.dialogRequests } := by
  induction entries generalizing h with
  | nil => rfl
  | cons entry rest ih => rw [List.foldl_cons, ih]; rfl

lemma contains_emplaceEntries (entries : List (PeerId × List ℕ)) (requested : OrdMap PeerId (List ℕ))
    (q : PeerId) : (emplaceEntries entries requested).contains q = true ↔
      requested.contains q = true ∨ q ∈ entries.map Prod.fst := by
  induction entries generalizing requested with
  | nil => simp [emplaceEntries]
  | cons entry rest ih =>
    have hone : (requested.emplace entry.1 entry.2).contains q = true ↔
        requested.contains q = true ∨ q = entry.1 := by
      unfold OrdMap.contains
      rw [OrdMap.find_emplace]
      by_cases hq : q = entry.1
      · rw [if_pos hq]
        exact ⟨fun _ => Or.inr hq, fun _ => rfl⟩
      · rw [if_neg hq]
        exact ⟨Or.inl, fun hor => hor.resolve_right hq⟩
    have hstep : emplaceEntries (entry :: rest) requested =
        emplaceEntries rest (requested.emplace entry.1 entry.2) := rfl
    rw [hstep, ih, hone, List.map_cons, List.mem_cons, or_assoc]

/-- **Entries are requested together.** -/
theorem sendDialogRequests (hk : Kept heard none h) : Kept heard none (sendDialogRequests h) := by
  unfold ChatRequests.sendDialogRequests
  split
  · exact hk
  · dsimp only
    refine Kept.request ?_ (fun q id g hsame => by cases hsame) (fun q args hsame => by cases hsame)
    set requested := emplaceEntries h.dialogRequestsPending.entries h.dialogRequests with hrequested
    have hcontains : ∀ q, requested.contains q = true ↔
        h.dialogRequests.contains q = true ∨ q ∈ h.dialogRequestsPending.keys :=
      fun q => contains_emplaceEntries _ _ q
    have hmarkedDialogs : (h.dialogRequestsPending.keys.foldl ChatRequests.markEntry h).dialogRequests =
        h.dialogRequests := by
      have hloop : ∀ (histories : List PeerId) (h : Histories),
          (histories.foldl ChatRequests.markEntry h).dialogRequests = h.dialogRequests := by
        intro histories
        induction histories with
        | nil => exact fun h => rfl
        | cons p rest ih => exact fun h => (ih _).trans (markEntry_dialogRequests h p)
      exact hloop _ h
    have hmoved : Kept heard none { h with
        dialogRequests := requested, dialogRequestsPending := ∅, called := h.called } := by
      exact hk.setDialogs requested ∅ h.called (fun q hq _ => (hcontains q).mpr (Or.inl hq)) fun q _ => rfl
    have hmarked := foldl_markEntry h.dialogRequestsPending.keys hmoved fun q hq => (hcontains q).mpr (Or.inr hq)
    have heq : h.dialogRequestsPending.entries.foldl emplaceDialogRequest
        { h.dialogRequestsPending.keys.foldl ChatRequests.markEntry h with dialogRequestsPending := ∅ } =
          h.dialogRequestsPending.keys.foldl ChatRequests.markEntry
            { h with dialogRequests := requested, dialogRequestsPending := ∅ } := by
      rw [foldl_emplaceDialogRequest]
      dsimp only
      rw [hmarkedDialogs]
      exact (foldl_markEntry_dialogs _ h requested ∅).symm
    rw [heq]
    exact hmarked

/-- What was read is known. -/
lemma setInboxReadTill (hk : Kept heard loose h) (p : PeerId) (upTo : MsgId) :
    Kept heard loose (setInboxReadTill h p upTo) ∧
      upTo < (chat (ChatRequests.setInboxReadTill h p upTo) p).inboxReadBefore.getD 1 := by
  have hchat : ∀ q, (chat (ChatRequests.setInboxReadTill h p upTo) q).inboxReadBefore =
      if q = p then some (((chat h p).inboxReadBefore.map fun before => max before (upTo + 1)).getD
        (upTo + 1)) else (chat h q).inboxReadBefore := by
    intro q
    unfold ChatRequests.setInboxReadTill chat
    dsimp only
    rw [OrdMap.find_insert]
    split_ifs
    · dsimp only [Option.getD_some]
      cases ((h.chats.find p).getD {}).inboxReadBefore with
      | none => rfl
      | some before => rfl
    · rfl
  have hgrows : ∀ q, (chat h q).inboxReadBefore.getD 1 ≤
      (chat (ChatRequests.setInboxReadTill h p upTo) q).inboxReadBefore.getD 1 := by
    intro q
    rw [hchat]
    split_ifs with hq
    · rw [hq]
      cases (chat h p).inboxReadBefore with
      | none => simp
      | some before => simp
    · exact le_rfl
  refine ⟨{ hk with
    books := hk.books.congr ⟨fun _ => rfl, fun _ => rfl, rfl, rfl, rfl, rfl, rfl, rfl⟩
    reads := fun q => ?_ }, ?_⟩
  · have hold := hk.reads q
    refine ⟨hold.will, fun {id r till} hfind hgenerator => ?_⟩
    obtain ⟨hsent, hread, hwill⟩ := hold.onItsWay hfind hgenerator
    exact ⟨hsent, fun hzero => (hread hzero).trans_le (hgrows q), hwill⟩
  · rw [hchat, if_pos rfl]
    cases (chat h p).inboxReadBefore with
    | none => simp
    | some before => simp

lemma setUnreadCount (hk : Kept heard loose h) (p : PeerId) (count : Option ℕ) :
    Kept heard loose (setUnreadCount h p count) := by
  refine { hk with
    books := hk.books.congr ⟨fun _ => rfl, fun _ => rfl, rfl, rfl, rfl, rfl, rfl, rfl⟩
    reads := fun q => ?_ }
  have hchat : (chat (ChatRequests.setUnreadCount h p count) q).inboxReadBefore = (chat h q).inboxReadBefore := by
    unfold chat ChatRequests.setUnreadCount
    dsimp only
    rw [OrdMap.find_insert]
    split_ifs with hq
    · rw [hq]
      rfl
    · rfl
  rw [hchat]
  exact hk.reads q

/-- **An entry is there.** -/
theorem dialogEntryApplied (hk : Kept heard none h) (p : PeerId) : Kept heard none (dialogEntryApplied h p) := by
  unfold ChatRequests.dialogEntryApplied
  split
  · exact hk
  · rename_i hflag
    dsimp only
    set called := h.called ++ (h.dialogRequestsPending.find p).getD [] ++ (h.dialogRequests.find p).getD []
      with hcalled
    have hcontains : ∀ (m : OrdMap PeerId (List ℕ)) q, (m.erase p).contains q = true →
        q ≠ p ∧ m.contains q = true := by
      intro m q hq
      unfold OrdMap.contains at hq ⊢
      rw [OrdMap.find_erase] at hq
      split_ifs at hq with hqp
      · cases hq
      · exact ⟨hqp, hq⟩
    have hkept : Kept heard none { h with
        dialogRequests := h.dialogRequests.erase p
        dialogRequestsPending := h.dialogRequestsPending.erase p
        called := called } := by
      refine hk.setDialogs _ _ called (fun q hq hmarked => ?_) fun q hq => ?_
      · unfold OrdMap.contains
        rw [OrdMap.find_erase, if_neg]
        · exact hq
        · rintro rfl
          exact hflag hmarked
      · obtain ⟨hne, hold⟩ := hcontains _ q hq
        rw [Bool.eq_false_iff]
        intro hpending
        have hnot := hk.dialogs q hold
        rw [(hcontains _ q hpending).2] at hnot
        cases hnot
    split
    · rename_i hdone
      obtain ⟨hread, hlt⟩ := hkept.setInboxReadTill p (state h p).sentReadTill
      refine Kept.checkEmptyState (Kept.setState (p := p) (s := { state h p with sentReadTill := 0 })
        hread rfl rfl rfl ?_) p
      have hold := hk.reads p
      refine ⟨fun hwill => Nat.pos_of_ne_zero hwill, fun {id r till} hfind hgenerator => ?_⟩
      obtain ⟨hsent, -, hwill⟩ := hold.onItsWay hfind hgenerator
      exact ⟨fun hne => absurd rfl hne, fun _ => (hsent hdone.1).trans_lt hlt, hwill⟩
    · exact { hkept with }

lemma applyDialog (hk : Kept heard none h) (dialog : Dialog) : Kept heard none (applyDialog h dialog) := by
  unfold ChatRequests.applyDialog
  dsimp only
  split
  · exact ((hk.setUnreadCount _ _).setInboxReadTill _ _).1.dialogEntryApplied _
  · exact hk.dialogEntryApplied _

lemma foldl_applyDialog (dialogs : List Dialog) {h : Histories} (hk : Kept heard none h) :
    Kept heard none (dialogs.foldl ChatRequests.applyDialog h) := by
  induction dialogs generalizing h with
  | nil => exact hk
  | cons dialog rest ih => exact ih (hk.applyDialog dialog)

lemma finalize (hk : Kept heard none h) (histories : List PeerId) :
    Kept heard none (ChatRequests.finalize h histories) := by
  unfold ChatRequests.finalize
  induction histories generalizing h with
  | nil => exact hk
  | cons p rest ih => exact ih (hk.dialogEntryApplied p)

end Kept

end ChatRequests
