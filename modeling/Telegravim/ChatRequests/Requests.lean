import Telegravim.ChatRequests.Books

set_option autoImplicit false

/-!
# Chat requests: requests are sent, wait, and finish

Requests of one history move between those that were sent and those that wait. What else its state says, and
the states of other histories, stay as they are; so the marks of what was read are kept, and it is enough to
see that the requests of this history are settled at the end.

## Main definitions

* `ChatRequests.Moves` — requests of one history move.

## Main results

* `ChatRequests.Kept.sendRequest` — a request is made.
* `ChatRequests.Kept.finish` — a request that was taken out finishes.
* `ChatRequests.Kept.cancelRequest` — a request is cancelled.
-/

namespace ChatRequests

/-! ### Requests of one history -/

/-- Requests of one history move. New ones load the history. -/
structure Moves (p : PeerId) (h h' : Histories) : Prop where
  others : ∀ q, q ≠ p → state h' q = state h q
  willReadTill : (state h' p).willReadTill = (state h p).willReadTill
  sentReadTill : (state h' p).sentReadTill = (state h p).sentReadTill
  postponedRequestEntry : (state h' p).postponedRequestEntry = (state h p).postponedRequestEntry
  sent : ∀ {id r}, (state h' p).sent.find id = some r →
    (state h p).sent.find id = some r ∨ r.type = .history ∧ r.generator = .plain
  chats : h'.chats = h.chats
  dialogRequests : h'.dialogRequests = h.dialogRequests
  dialogRequestsPending : h'.dialogRequestsPending = h.dialogRequestsPending
  erased : h'.erased = h.erased
  failed : h'.failed = h.failed

lemma Moves.refl (p : PeerId) (h : Histories) : Moves p h h where
  others := fun _ _ => rfl
  willReadTill := rfl
  sentReadTill := rfl
  postponedRequestEntry := rfl
  sent := fun hfind => Or.inl hfind
  chats := rfl
  dialogRequests := rfl
  dialogRequestsPending := rfl
  erased := rfl
  failed := rfl

lemma Moves.trans {p : PeerId} {h h' h'' : Histories} (hm : Moves p h h') (hm' : Moves p h' h'') :
    Moves p h h'' where
  others := fun q hq => (hm'.others q hq).trans (hm.others q hq)
  willReadTill := hm'.willReadTill.trans hm.willReadTill
  sentReadTill := hm'.sentReadTill.trans hm.sentReadTill
  postponedRequestEntry := hm'.postponedRequestEntry.trans hm.postponedRequestEntry
  sent := fun hfind => (hm'.sent hfind).elim hm.sent Or.inr
  chats := hm'.chats.trans hm.chats
  dialogRequests := hm'.dialogRequests.trans hm.dialogRequests
  dialogRequestsPending := hm'.dialogRequestsPending.trans hm.dialogRequestsPending
  erased := hm'.erased.trans hm.erased
  failed := hm'.failed.trans hm.failed

/-- Marks of what was read are kept. -/
lemma Reads.moves {p : PeerId} {h h' : Histories} {before : Option MsgId} (hr : Reads (state h p) before)
    (hm : Moves p h h') : Reads (state h' p) before where
  will := by
    rw [hm.willReadTill, hm.sentReadTill]
    exact hr.will
  onItsWay := by
    intro id r till hfind hgenerator
    rw [hm.willReadTill, hm.sentReadTill]
    rcases hm.sent hfind with hold | ⟨-, hplain⟩
    · exact hr.onItsWay hold hgenerator
    · rw [hplain] at hgenerator
      cases hgenerator

namespace Kept

variable {heard : Option ℕ} {loose : Option PeerId} {h h' : Histories} {p : PeerId}

/-- Requests of one history moved. -/
lemma moves (hk : Kept heard loose h) {heard' : Option ℕ} (hm : Moves p h h') (hb : Books heard' none h')
    (hloose : loose = none ∨ loose = some p) : Kept heard' (some p) h' where
  books := hb
  reads := fun q => by
    have hchat : chat h' q = chat h q := by
      unfold chat
      rw [hm.chats]
    rw [hchat]
    by_cases hq : q = p
    · rw [hq]
      exact (hk.reads p).moves hm
    · rw [hm.others q hq]
      exact hk.reads q
  settled := fun q hq => by
    have hne : q ≠ p := fun hsame => hq (congrArg some hsame.symm)
    rw [hm.others q hne, hm.dialogRequests]
    refine hk.settled q fun hsome => ?_
    rcases hloose with hnone | hself
    · rw [hnone] at hsome
      cases hsome
    · rw [hself] at hsome
      exact hq hsome
  dialogs := by
    rw [hm.dialogRequests, hm.dialogRequestsPending]
    exact hk.dialogs
  erased := by
    rw [hm.erased]
    exact hk.erased
  sound := by
    rw [hm.failed]
    exact hk.sound

/-- The requests of the history that was left out are settled. -/
lemma settle (hk : Kept heard (some p) h) (hs : Settled (state h p) (h.dialogRequests.contains p)) :
    Kept heard none h :=
  { hk with
    settled := fun q _ => by
      by_cases hq : q = p
      · rw [hq]
        exact hs
      · exact hk.settled q fun hsome => hq (Option.some.inj hsome).symm }

lemma loosen (hk : Kept heard none h) (p : PeerId) : Kept heard (some p) h :=
  { hk with settled := fun q _ => hk.settled q (by simp) }

end Kept

/-! ### Requests for the history wait -/

lemma resendHistoryRequest_eq {h : Histories} {p : PeerId} {id : ℕ} {r : SentRequest}
    (hfind : (state h p).sent.find id = some r) (htype : r.type = .history) :
    resendHistoryRequest p h id = emplacePostponed (takeSent h p id) p id r.generator := by
  unfold resendHistoryRequest takeSent
  dsimp only
  rw [hfind]
  dsimp only
  rw [if_neg fun hnot => hnot htype]
  unfold emplacePostponed
  dsimp only
  rw [state_setState, if_pos rfl]
  unfold setState cancel
  dsimp only
  rw [OrdMap.insert_insert]

lemma moves_takeSent (h : Histories) (p : PeerId) (id : ℕ) : Moves p h (takeSent h p id) := by
  have hsame := Books.same_takeSent h p id
  refine
    { others := fun q hq => ?_
      willReadTill := by rw [Books.rest_takeSent]
      sentReadTill := by rw [Books.rest_takeSent]
      postponedRequestEntry := by rw [Books.rest_takeSent]
      sent := fun {id' r} hfind => ?_
      chats := by rw [hsame]
      dialogRequests := by rw [hsame]
      dialogRequestsPending := by rw [hsame]
      erased := by rw [hsame]
      failed := by rw [hsame] }
  · unfold takeSent
    dsimp only
    cases (state h p).sent.find id with
    | none => rfl
    | some r =>
      dsimp only
      rw [state_setState, if_neg hq]
      rfl
  · rw [Books.sent_takeSent] at hfind
    split_ifs at hfind
    exact Or.inl hfind

/-- A state changes, but not what was sent. -/
lemma moves_setState (h : Histories) {p : PeerId} {s : State} (hsent : s.sent = (state h p).sent)
    (hwill : s.willReadTill = (state h p).willReadTill) (htill : s.sentReadTill = (state h p).sentReadTill)
    (hentry : s.postponedRequestEntry = (state h p).postponedRequestEntry) : Moves p h (setState h p s) := by
  have hself : state (setState h p s) p = s := by rw [state_setState, if_pos rfl]
  refine
    { others := fun q hq => by rw [state_setState, if_neg hq]
      willReadTill := by rw [hself, hwill]
      sentReadTill := by rw [hself, htill]
      postponedRequestEntry := by rw [hself, hentry]
      sent := fun {id r} hfind => Or.inl ?_
      chats := rfl
      dialogRequests := rfl
      dialogRequestsPending := rfl
      erased := rfl
      failed := rfl }
  rw [hself, hsent] at hfind
  exact hfind

lemma moves_register (h : Histories) (p : PeerId) : Moves p h (register h p) :=
  { moves_setState h (p := p) (s := state h p) rfl rfl rfl rfl with }

/-- A request for the history is sent. -/
lemma moves_emplaceSent {h : Histories} {p : PeerId} {id : ℕ} (hnone : (state h p).sent.find id = none) :
    Moves p h (emplaceSent h p id .history .plain) := by
  refine
    { others := fun q hq => ?_
      willReadTill := by rw [Books.rest_emplaceSent]
      sentReadTill := by rw [Books.rest_emplaceSent]
      postponedRequestEntry := by rw [Books.rest_emplaceSent]
      sent := fun {id' r} hfind => ?_
      chats := rfl
      dialogRequests := rfl
      dialogRequestsPending := rfl
      erased := rfl
      failed := rfl }
  · show state (setState h p _) q = _
    rw [state_setState, if_neg hq]
  · rw [Books.sent_emplaceSent hnone] at hfind
    split_ifs at hfind
    · rw [← Option.some.inj hfind]
      exact Or.inr ⟨rfl, rfl⟩
    · exact Or.inl hfind

/-- Where a request that may load the history is afterwards. -/
lemma Books.resend {heard : Option ℕ} {h : Histories} (hb : Books heard none h) (p : PeerId) (id : ℕ) :
    Books heard none (resendHistoryRequest p h id) ∧ Moves p h (resendHistoryRequest p h id) ∧
      ∀ {id' r}, (state (resendHistoryRequest p h id) p).sent.find id' = some r ↔
        (state h p).sent.find id' = some r ∧ (id' = id → r.type ≠ .history) := by
  have hsame : resendHistoryRequest p h id = h → (∀ {r}, (state h p).sent.find id = some r → r.type ≠ .history) →
      Books heard none (resendHistoryRequest p h id) ∧ Moves p h (resendHistoryRequest p h id) ∧
        ∀ {id' r}, (state (resendHistoryRequest p h id) p).sent.find id' = some r ↔
          (state h p).sent.find id' = some r ∧ (id' = id → r.type ≠ .history) := by
    intro heq htype
    rw [heq]
    refine ⟨hb, Moves.refl p h, fun {id' r} => ⟨fun hfind => ⟨hfind, fun hid => ?_⟩, And.left⟩⟩
    rw [hid] at hfind
    exact htype hfind
  cases hfind : (state h p).sent.find id with
  | none =>
    refine hsame ?_ fun {r} hr => ?_
    · unfold resendHistoryRequest
      dsimp only
      rw [hfind]
    · rw [hfind] at hr
      cases hr
  | some r =>
    by_cases htype : r.type = .history
    · have hid : h.historyByRequest.find id = some p := (hb.listed (by simp)).mpr (Or.inl ⟨r, hfind⟩)
      have hheard : heard ≠ some id := fun hsome => (hb.gone hfind hsome).2 htype
      have hwaits : (state h p).postponed.find id = none := by
        cases hpostponed : (state h p).postponed.find id with
        | none => rfl
        | some g => exact (hb.apart hfind hpostponed).elim
      have htaken := hb.takeSent hid hwaits
      have hbyRequest : (ChatRequests.takeSent h p id).historyByRequest.find id = some p := by
        rw [Books.same_takeSent]
        exact hid
      rw [resendHistoryRequest_eq hfind htype, hb.historyPlain hfind htype]
      refine ⟨htaken.emplacePostponed hbyRequest hheard, ?_, fun {id' r'} => ?_⟩
      · exact (moves_takeSent h p id).trans (moves_setState _ rfl rfl rfl rfl)
      · rw [Books.sent_emplacePostponed, Books.sent_takeSent]
        by_cases hsameId : id' = id
        · rw [if_pos ⟨rfl, hsameId⟩, hsameId, hfind]
          constructor
          · intro hnone
            cases hnone
          · rintro ⟨hr, hnot⟩
            exact absurd (Option.some.inj hr ▸ htype) (hnot rfl)
        · rw [if_neg fun hboth => hsameId hboth.2]
          exact ⟨fun hr => ⟨hr, fun hid => absurd hid hsameId⟩, And.left⟩
    · refine hsame ?_ fun {r'} hr => ?_
      · unfold resendHistoryRequest
        dsimp only
        rw [hfind]
        dsimp only
        rw [if_pos htype]
      · rw [hfind] at hr
        rw [← Option.some.inj hr]
        exact htype

/-- All requests of a list wait that load the history. -/
lemma Books.resendAll {heard : Option ℕ} {p : PeerId} (ids : List ℕ) {h : Histories} (hb : Books heard none h) :
    Books heard none (ids.foldl (resendHistoryRequest p) h) ∧ Moves p h (ids.foldl (resendHistoryRequest p) h) ∧
      ∀ {id r}, (state (ids.foldl (resendHistoryRequest p) h) p).sent.find id = some r ↔
        (state h p).sent.find id = some r ∧ (id ∈ ids → r.type ≠ .history) := by
  induction ids generalizing h with
  | nil => exact ⟨hb, Moves.refl p h, by simp⟩
  | cons id rest ih =>
    obtain ⟨hbooks, hmoves, hsent⟩ := hb.resend p id
    obtain ⟨hbooks', hmoves', hsent'⟩ := ih hbooks
    refine ⟨hbooks', hmoves.trans hmoves', fun {id' r} => ?_⟩
    rw [List.foldl_cons, hsent', hsent, List.mem_cons]
    constructor
    · rintro ⟨⟨hfind, hself⟩, hrest⟩
      exact ⟨hfind, fun hmem => hmem.elim hself hrest⟩
    · rintro ⟨hfind, hall⟩
      exact ⟨⟨hfind, fun hid => hall (Or.inl hid)⟩, fun hmem => hall (Or.inr hmem)⟩

/-! ### What waited is sent -/

lemma Books.sendPostponed {heard : Option ℕ} {h : Histories} (hb : Books heard none h) (p : PeerId) (id : ℕ) :
    Books heard none (sendPostponed p h id) ∧ Moves p h (sendPostponed p h id) ∧
      (∀ {id' r}, (state h p).sent.find id' = some r →
        (state (sendPostponed p h id) p).sent.find id' = some r) ∧
      ∀ {id' g}, (state (sendPostponed p h id) p).postponed.find id' = some g →
        (state h p).postponed.find id' = some g ∧ id' ≠ id := by
  unfold ChatRequests.sendPostponed
  dsimp only
  cases hwaits : (state h p).postponed.find id with
  | none =>
    refine ⟨hb, Moves.refl p h, fun {id' r} hfind => hfind, fun {id' g} hfind => ⟨hfind, fun hid => ?_⟩⟩
    rw [hid, hwaits] at hfind
    cases hfind
  | some g =>
    have hid : h.historyByRequest.find id = some p := (hb.listed (by simp)).mpr (Or.inr ⟨g, hwaits⟩)
    have hnone : (state h p).sent.find id = none := by
      cases hsent : (state h p).sent.find id with
      | none => rfl
      | some r => exact (hb.apart hsent hwaits).elim
    have hheard : heard ≠ some id := by
      intro hsome
      have hnot := (hb.heardOld hsome).2 p
      rw [hwaits] at hnot
      cases hnot
    have htaken := hb.takePostponed hid hnone
    set taken := setState h p { state h p with postponed := (state h p).postponed.erase id } with htakenEq
    have hself : state taken p = { state h p with postponed := (state h p).postponed.erase id } := by
      rw [htakenEq, state_setState, if_pos rfl]
    have hnoneTaken : (state taken p).sent.find id = none := by
      rw [hself]
      exact hnone
    dsimp only
    rw [hb.plain hwaits]
    refine ⟨htaken.emplaceSent hid hheard (fun _ => rfl) trivial, ?_, fun {id' r} hfind => ?_,
      fun {id' g'} hfind => ?_⟩
    · have hmoves : Moves p h taken := moves_setState h rfl rfl rfl rfl
      exact hmoves.trans (moves_emplaceSent hnoneTaken)
    · rw [Books.sent_emplaceSent hnoneTaken, hself, if_neg]
      · exact hfind
      · rintro ⟨-, rfl⟩
        rw [hnone] at hfind
        cases hfind
    · rw [Books.rest_emplaceSent, hself] at hfind
      have herased : ((state h p).postponed.erase id).find id' = some g' := hfind
      rw [OrdMap.find_erase] at herased
      split_ifs at herased with hsame
      exact ⟨herased, hsame⟩

/-- All requests of a list are sent that waited. -/
lemma Books.sendAllPostponed {heard : Option ℕ} {p : PeerId} (ids : List ℕ) {h : Histories}
    (hb : Books heard none h) :
    Books heard none (ids.foldl (ChatRequests.sendPostponed p) h) ∧
      Moves p h (ids.foldl (ChatRequests.sendPostponed p) h) ∧
      (∀ {id r}, (state h p).sent.find id = some r →
        (state (ids.foldl (ChatRequests.sendPostponed p) h) p).sent.find id = some r) ∧
      ∀ {id g}, (state (ids.foldl (ChatRequests.sendPostponed p) h) p).postponed.find id = some g →
        (state h p).postponed.find id = some g ∧ id ∉ ids := by
  induction ids generalizing h with
  | nil => exact ⟨hb, Moves.refl p h, fun hfind => hfind, fun hfind => ⟨hfind, List.not_mem_nil⟩⟩
  | cons id rest ih =>
    obtain ⟨hbooks, hmoves, hsent, hpostponed⟩ := hb.sendPostponed p id
    obtain ⟨hbooks', hmoves', hsent', hpostponed'⟩ := ih hbooks
    refine ⟨hbooks', hmoves.trans hmoves', fun hfind => hsent' (hsent hfind), fun {id' g} hfind => ?_⟩
    obtain ⟨hmid, hrest⟩ := hpostponed' hfind
    obtain ⟨hold, hne⟩ := hpostponed hmid
    refine ⟨hold, fun hmem => ?_⟩
    rcases List.mem_cons.mp hmem with hsame | hmem
    · exact hne hsame
    · exact hrest hmem

/-! ### A request is made -/

namespace Kept

variable {heard : Option ℕ} {loose : Option PeerId} {h : Histories} {p : PeerId}

/-- Whether the entry is requested once more is changed. -/
lemma setEntry (hk : Kept heard (some p) h) (value : Bool) :
    Kept heard (some p) (setState h p { state h p with postponedRequestEntry := value }) where
  books := hk.books.congr (SameBooks.setState h p rfl rfl)
  reads := fun q => by
    rw [state_setState]
    split_ifs with hq
    · have hold := hk.reads p
      rw [hq]
      exact ⟨hold.will, hold.onItsWay⟩
    · exact hk.reads q
  settled := fun q hq => by
    rw [state_setState, if_neg fun hsame => hq (congrArg some hsame.symm)]
    exact hk.settled q hq
  dialogs := hk.dialogs
  erased := hk.erased
  sound := hk.sound

/-- A new request is made, and is known to be sent. -/
lemma emplaceNew (hk : Kept heard none h) {type : RequestType} {g : Generator}
    (hplain : type = .history → g = .plain) (hfits : g.Fits p)
    (hreads : ∀ till, g = .readInbox till → ((state h p).sentReadTill ≠ 0 → till ≤ (state h p).sentReadTill) ∧
      ((state h p).sentReadTill = 0 → till < (chat h p).inboxReadBefore.getD 1) ∧
      ((state h p).willReadTill ≠ 0 → till < (state h p).willReadTill)) :
    Kept heard (some p) (emplaceSent (register h p) p (h.requestAutoincrement + 1) type g) ∧
      state (emplaceSent (register h p) p (h.requestAutoincrement + 1) type g) p = { state h p with
        sent := (state h p).sent.insert (h.requestAutoincrement + 1) ⟨g, h.lastRequestId + 1, type⟩ } := by
  have hnew := hk.books.notSent (Nat.lt_succ_self h.requestAutoincrement) p
  have hregistered := hk.books.register p
  have hheard : heard ≠ some (h.requestAutoincrement + 1) := by
    intro hsome
    have hle := (hk.books.heardOld hsome).1
    omega
  have hid : (register h p).historyByRequest.find (h.requestAutoincrement + 1) = some p := by
    show (h.historyByRequest.emplace (h.requestAutoincrement + 1) p).find _ = _
    rw [OrdMap.find_emplace, if_pos rfl, hnew.2.2]
    rfl
  have hbooks := hregistered.emplaceSent hid hheard hplain hfits
  have hself : state (emplaceSent (register h p) p (h.requestAutoincrement + 1) type g) p = { state h p with
      sent := (state h p).sent.insert (h.requestAutoincrement + 1) ⟨g, h.lastRequestId + 1, type⟩ } := by
    show state (setState (register h p) p { state (register h p) p with
      sent := (state (register h p) p).sent.emplace (h.requestAutoincrement + 1)
        ⟨g, h.lastRequestId + 1, type⟩ }) p = _
    rw [state_setState, if_pos rfl, Books.state_register, OrdMap.emplace_of_find_eq_none hnew.1]
  have hothers : ∀ q, q ≠ p →
      state (emplaceSent (register h p) p (h.requestAutoincrement + 1) type g) q = state h q := by
    intro q hq
    show state (setState (register h p) p _) q = _
    rw [state_setState, if_neg hq, Books.state_register]
  refine ⟨⟨hbooks, fun q => ?_, fun q hq => ?_, hk.dialogs, hk.erased, hk.sound⟩, hself⟩
  · show Reads (state (emplaceSent (register h p) p (h.requestAutoincrement + 1) type g) q)
      (chat h q).inboxReadBefore
    by_cases hq : q = p
    · rw [hq, hself]
      refine ⟨(hk.reads p).will, fun {id r till} hfind hgenerator => ?_⟩
      have hinsert : ((state h p).sent.insert (h.requestAutoincrement + 1)
        ⟨g, h.lastRequestId + 1, type⟩).find id = some r := hfind
      rw [OrdMap.find_insert] at hinsert
      split_ifs at hinsert
      · rw [← Option.some.inj hinsert] at hgenerator
        exact hreads till hgenerator
      · exact (hk.reads p).onItsWay hinsert hgenerator
    · rw [hothers q hq]
      exact hk.reads q
  · rw [hothers q fun hsame => hq (congrArg some hsame.symm)]
    exact hk.settled q (by simp)

/-- The entry of a chat may have to be requested once more. -/
lemma postponeEntry (hk : Kept heard (some p) h) :
    Kept heard (some p) (postponeEntry h p) ∧
      (state (ChatRequests.postponeEntry h p) p).sent = (state h p).sent ∧
      (state (ChatRequests.postponeEntry h p) p).postponed = (state h p).postponed ∧
      (ChatRequests.postponeEntry h p).dialogRequests = h.dialogRequests ∧
      ((state (ChatRequests.postponeEntry h p) p).postponedRequestEntry = true →
        (state h p).postponedRequestEntry = true ∨
          postponeEntryRequest (state h p) = true ∧ h.dialogRequests.contains p = true) := by
  unfold ChatRequests.postponeEntry
  dsimp only
  split
  · rename_i hcondition
    simp only [Bool.and_eq_true] at hcondition
    refine ⟨hk.setEntry true, ?_, ?_, rfl, fun _ => Or.inr ⟨hcondition.1.2, hcondition.2⟩⟩
    · rw [state_setState, if_pos rfl]
    · rw [state_setState, if_pos rfl]
  · exact ⟨hk, rfl, rfl, rfl, Or.inl⟩

/-- What is sent may be a reason for others to wait. -/
lemma sendNow (hk : Kept heard none h) {type : RequestType} {g : Generator}
    (hplain : type = .history → g = .plain) (hfits : g.Fits p)
    (hreads : ∀ till, g = .readInbox till → ((state h p).sentReadTill ≠ 0 → till ≤ (state h p).sentReadTill) ∧
      ((state h p).sentReadTill = 0 → till < (chat h p).inboxReadBefore.getD 1) ∧
      ((state h p).willReadTill ≠ 0 → till < (state h p).willReadTill)) :
    Kept heard none (sendNow (register h p) p (h.requestAutoincrement + 1) type g) := by
  obtain ⟨hsentNew, hself⟩ := hk.emplaceNew hplain hfits hreads
  obtain ⟨hmarked, hsent, hpostponed, hdialogs, hentry⟩ := hsentNew.postponeEntry
  have hold := hk.settled p (by simp)
  unfold ChatRequests.sendNow
  dsimp only
  set new := emplaceSent (register h p) p (h.requestAutoincrement + 1) type g with hnewEq
  have hdialogsNew : new.dialogRequests = h.dialogRequests := rfl
  set marked := ChatRequests.postponeEntry new p with hmarkedEq
  have hnone := (hk.books.notSent (Nat.lt_succ_self h.requestAutoincrement) p).1
  have hkeeps : ∀ {id r}, (state h p).sent.find id = some r → (state marked p).sent.find id = some r := by
    intro id r hfind
    rw [hsent, hself]
    show ((state h p).sent.insert (h.requestAutoincrement + 1) _).find id = some r
    rw [OrdMap.find_insert_of_ne _ _ _]
    · exact hfind
    · rintro rfl
      rw [hnone] at hfind
      cases hfind
  -- what is marked has a reason
  have hreason : (state marked p).postponedRequestEntry = true →
      marked.dialogRequests.contains p = true ∧ ∃ id r, (state marked p).sent.find id = some r ∧ r.type ≠ .history := by
    intro hflag
    rw [hdialogs, hdialogsNew]
    rcases hentry hflag with hflag | ⟨hsome, hrequested⟩
    · rw [hself] at hflag
      obtain ⟨hrequested, id, r, hfind, htype⟩ := hold.entry hflag
      exact ⟨hrequested, id, r, hkeeps hfind, htype⟩
    · rw [hsent]
      exact ⟨hrequested, postponeEntryRequest_iff.mp hsome⟩
  have hwaits : ∀ {id g}, (state marked p).postponed.find id = some g →
      ∃ id r, (state marked p).sent.find id = some r ∧ r.type = .delete := by
    intro id g hfind
    rw [hpostponed, hself] at hfind
    obtain ⟨id', r, hr, htype⟩ := hold.waits hfind
    exact ⟨id', r, hkeeps hr, htype⟩
  split
  · rename_i hdelete
    obtain ⟨hbooks, hmoves, hrest⟩ := hmarked.books.resendAll (p := p) (state marked p).sent.keys
    obtain ⟨idDelete, rDelete, hfindDelete, htypeDelete⟩ := postponeHistoryRequest_iff.mp hdelete
    refine (hmarked.moves hmoves hbooks (Or.inr rfl)).settle ?_
    rw [hmoves.dialogRequests]
    refine ⟨fun {id id' r r'} _ _ hfind => ?_, fun {id g} _ => ?_, fun hflag => ?_⟩
    · obtain ⟨hfind, htype⟩ := hrest.mp hfind
      exact htype (OrdMap.mem_keys_iff.mpr ⟨r', hfind⟩)
    · refine ⟨idDelete, rDelete, hrest.mpr ⟨hfindDelete, fun _ => ?_⟩, htypeDelete⟩
      rw [htypeDelete]
      simp
    · rw [hmoves.postponedRequestEntry] at hflag
      obtain ⟨hrequested, id, r, hfind, htype⟩ := hreason hflag
      exact ⟨hrequested, id, r, hrest.mpr ⟨hfind, fun _ => htype⟩, htype⟩
  · rename_i hdelete
    refine hmarked.settle ⟨fun {id id' r r'} hfind htype _ => ?_, hwaits, hreason⟩
    exact absurd (postponeHistoryRequest_iff.mpr ⟨id, r, hfind, htype⟩) hdelete

/-- **A request is made**, and is sent or waits. -/
theorem sendRequest (hk : Kept heard none h) {type : RequestType} {g : Generator}
    (hplain : type = .history → g = .plain) (hfits : g.Fits p)
    (hreads : ∀ till, g = .readInbox till → ((state h p).sentReadTill ≠ 0 → till ≤ (state h p).sentReadTill) ∧
      ((state h p).sentReadTill = 0 → till < (chat h p).inboxReadBefore.getD 1) ∧
      ((state h p).willReadTill ≠ 0 → till < (state h p).willReadTill)) :
    Kept heard none (sendRequest h p type g) := by
  unfold ChatRequests.sendRequest
  dsimp only
  split
  · rename_i hdelete
    obtain ⟨htype, hdelete⟩ := hdelete
    rw [Books.state_register] at hdelete
    obtain ⟨id, r, hfind, htypeDelete⟩ := postponeHistoryRequest_iff.mp hdelete
    rw [hplain htype]
    have hnew := hk.books.notSent (Nat.lt_succ_self h.requestAutoincrement) p
    have hregistered := hk.books.register p
    have hheard : heard ≠ some (h.requestAutoincrement + 1) := by
      intro hsome
      have hle := (hk.books.heardOld hsome).1
      omega
    have hid : (register h p).historyByRequest.find (h.requestAutoincrement + 1) = some p := by
      show (h.historyByRequest.emplace (h.requestAutoincrement + 1) p).find _ = _
      rw [OrdMap.find_emplace, if_pos rfl, hnew.2.2]
      rfl
    have hmoves : Moves p h (emplacePostponed (register h p) p (h.requestAutoincrement + 1) .plain) :=
      (moves_register h p).trans (moves_setState _ rfl rfl rfl rfl)
    have hsent : (state (emplacePostponed (register h p) p (h.requestAutoincrement + 1) .plain) p).sent =
        (state h p).sent := by
      rw [Books.sent_emplacePostponed, Books.state_register]
    have hold := hk.settled p (by simp)
    refine (hk.moves hmoves (hregistered.emplacePostponed hid hheard) (Or.inl rfl)).settle ?_
    refine ⟨?_, fun {id' g'} _ => ?_, ?_⟩
    · rw [hsent]
      exact hold.exclusive
    · rw [hsent]
      exact ⟨id, r, hfind, htypeDelete⟩
    · rw [hsent, hmoves.postponedRequestEntry, hmoves.dialogRequests]
      exact hold.entry
  · exact hk.sendNow hplain hfits hreads

/-! ### A request finishes -/

/-- A state that holds nothing is erased. -/
lemma checkEmptyState (hk : Kept heard none h) (p : PeerId) : Kept heard none (checkEmptyState h p) := by
  unfold ChatRequests.checkEmptyState
  cases hfind : h.states.find p with
  | none => exact hk
  | some s =>
    dsimp only
    split
    · rename_i hempty
      obtain ⟨hpostponed, hentry, hsent, hwill, htill⟩ := State.empty_iff.mp hempty
      have hself : state h p = s := state_of_find hfind
      have hstate : ∀ q, state { h with states := h.states.erase p, erased := h.erased ++ [s] } q =
          if q = p then {} else state h q := by
        intro q
        unfold state
        dsimp only
        rw [OrdMap.find_erase]
        split_ifs
        · rfl
        · rfl
      refine
        { books := hk.books.congr ⟨fun q => ?_, fun q => ?_, rfl, rfl, rfl, rfl, rfl, rfl⟩
          reads := fun q => ?_
          settled := fun q hq => ?_
          dialogs := hk.dialogs
          erased := fun other hmem => ?_
          sound := hk.sound }
      · rw [hstate]
        split_ifs with hq
        · rw [hq, hself, hsent]
        · rfl
      · rw [hstate]
        split_ifs with hq
        · rw [hq, hself, hpostponed]
        · rfl
      · rw [hstate]
        split_ifs with hq
        · exact ⟨fun hne => absurd rfl hne, fun {id r till} hnone => by cases hnone⟩
        · exact hk.reads q
      · rw [hstate]
        split_ifs with hqp
        · exact ⟨fun {id id' r r'} hnone => (by cases hnone), fun {id g} hnone => (by cases hnone),
            fun hfalse => (by cases hfalse)⟩
        · exact hk.settled q hq
      · rcases List.mem_append.mp hmem with hmem | hmem
        · exact hk.erased other hmem
        · rw [List.mem_singleton.mp hmem]
          exact hempty
    · exact hk

/-- What waited is sent when nothing is being deleted any more. -/
lemma restartPostponed (hk : Kept heard (some p) h)
    (hexclusive : ∀ {id id' r r'}, (state h p).sent.find id = some r → r.type = .delete →
      (state h p).sent.find id' = some r' → r'.type ≠ .history) :
    Kept heard (some p) (restartPostponed h p) ∧
      (∀ {id id' r r'}, (state (ChatRequests.restartPostponed h p) p).sent.find id = some r → r.type = .delete →
        (state (ChatRequests.restartPostponed h p) p).sent.find id' = some r' → r'.type ≠ .history) ∧
      (∀ {id g}, (state (ChatRequests.restartPostponed h p) p).postponed.find id = some g →
        ∃ id r, (state (ChatRequests.restartPostponed h p) p).sent.find id = some r ∧ r.type = .delete) ∧
      (state (ChatRequests.restartPostponed h p) p).postponedRequestEntry = (state h p).postponedRequestEntry ∧
      (ChatRequests.restartPostponed h p).dialogRequests = h.dialogRequests := by
  unfold ChatRequests.restartPostponed
  dsimp only
  split
  · rename_i hcondition
    simp only [Bool.and_eq_true, Bool.not_eq_true'] at hcondition
    obtain ⟨hbooks, hmoves, -, hpostponed⟩ := hk.books.sendAllPostponed (p := p) (state h p).postponed.keys
    refine ⟨hk.moves hmoves hbooks (Or.inr rfl), fun {id id' r r'} hfind htype _ => ?_, fun {id g} hfind => ?_,
      hmoves.postponedRequestEntry, hmoves.dialogRequests⟩
    · rcases hmoves.sent hfind with hold | ⟨hhistory, -⟩
      · have hdelete := postponeHistoryRequest_iff.mpr ⟨id, r, hold, htype⟩
        rw [hcondition.2] at hdelete
        cases hdelete
      · rw [hhistory] at htype
        cases htype
    · obtain ⟨hold, hnot⟩ := hpostponed hfind
      exact absurd (OrdMap.mem_keys_iff.mpr ⟨g, hold⟩) hnot
  · rename_i hcondition
    refine ⟨hk, hexclusive, fun {id g} hfind => ?_, rfl, rfl⟩
    have hnonempty : (state h p).postponed.entries.isEmpty = false := by
      have hmem := OrdMap.find_eq_some_iff.mp hfind
      cases hentries : (state h p).postponed.entries with
      | nil =>
        rw [hentries] at hmem
        cases hmem
      | cons entry rest => rfl
    rw [hnonempty] at hcondition
    exact postponeHistoryRequest_iff.mp (by simpa using hcondition)

/-- An entry is requested once more when nothing that was sent changes it any more. -/
lemma restartEntry (hk : Kept heard (some p) h)
    (hexclusive : ∀ {id id' r r'}, (state h p).sent.find id = some r → r.type = .delete →
      (state h p).sent.find id' = some r' → r'.type ≠ .history)
    (hwaits : ∀ {id g}, (state h p).postponed.find id = some g →
      ∃ id r, (state h p).sent.find id = some r ∧ r.type = .delete)
    (hentry : (state h p).postponedRequestEntry = true → h.dialogRequests.contains p = true) :
    Kept heard none (restartEntry h p) := by
  unfold ChatRequests.restartEntry
  dsimp only
  split
  · rename_i hcondition
    obtain ⟨hflag, -⟩ := (Bool.and_eq_true _ _).mp hcondition
    have hrequested := hentry hflag
    have hpending := hk.dialogs p hrequested
    obtain ⟨callbacks, hcallbacks⟩ := OrdMap.contains_iff.mp hrequested
    unfold requestEntryAgain
    rw [hcallbacks]
    dsimp only
    rw [hpending, if_neg (by simp)]
    have hstill := hk.setEntry false
    have hcontains : ∀ q, q ≠ p → (h.dialogRequests.erase p).contains q = h.dialogRequests.contains q := by
      intro q hq
      unfold OrdMap.contains
      rw [OrdMap.find_erase, if_neg hq]
    have hself : ∀ q, state (setState { h with
        dialogRequestsPending := h.dialogRequestsPending.insert p callbacks
        dialogRequests := h.dialogRequests.erase p } p { state h p with postponedRequestEntry := false }) q =
          state (setState h p { state h p with postponedRequestEntry := false }) q := fun q => rfl
    refine
      { books := hstill.books.congr ⟨fun q => rfl, fun q => rfl, rfl, rfl, rfl, rfl, rfl, rfl⟩
        reads := hstill.reads
        settled := fun q _ => ?_
        dialogs := fun q hq => ?_
        erased := hk.erased
        sound := hk.sound }
    · rw [hself]
      show Settled _ ((h.dialogRequests.erase p).contains q)
      by_cases hq : q = p
      · rw [hq, state_setState, if_pos rfl]
        exact ⟨hexclusive, hwaits, fun hfalse => by cases hfalse⟩
      · rw [hcontains q hq]
        exact hstill.settled q fun hsome => hq (Option.some.inj hsome).symm
    · have hq' : (h.dialogRequests.erase p).contains q = true := hq
      by_cases hqp : q = p
      · unfold OrdMap.contains at hq'
        rw [OrdMap.find_erase, if_pos hqp] at hq'
        cases hq'
      · rw [hcontains q hqp] at hq'
        show (h.dialogRequestsPending.insert p callbacks).contains q = false
        unfold OrdMap.contains
        rw [OrdMap.find_insert_of_ne hqp]
        exact hk.dialogs q hq'
  · rename_i hcondition
    refine hk.settle ⟨hexclusive, hwaits, fun hflag => ⟨hentry hflag, ?_⟩⟩
    rw [hflag] at hcondition
    exact postponeEntryRequest_iff.mp (by simpa using hcondition)

/-- **What a request that was taken out leaves behind is settled.** -/
lemma finish (hk : Kept heard (some p) h)
    (hexclusive : ∀ {id id' r r'}, (state h p).sent.find id = some r → r.type = .delete →
      (state h p).sent.find id' = some r' → r'.type ≠ .history)
    (hentry : (state h p).postponedRequestEntry = true → h.dialogRequests.contains p = true) :
    Kept heard none (ChatRequests.checkEmptyState
      (ChatRequests.restartEntry (ChatRequests.restartPostponed h p) p) p) := by
  obtain ⟨hrestarted, hexclusive', hwaits, hflag, hdialogs⟩ := hk.restartPostponed hexclusive
  refine (hrestarted.restartEntry hexclusive' hwaits ?_).checkEmptyState p
  rw [hflag, hdialogs]
  exact hentry

lemma takeSent_historyByRequest (h : Histories) (m : OrdMap ℕ PeerId) (p : PeerId) (id : ℕ) :
    takeSent { h with historyByRequest := m } p id = { takeSent h p id with historyByRequest := m } := by
  have hstate : state { h with historyByRequest := m } p = state h p := rfl
  unfold takeSent
  rw [hstate]
  dsimp only
  cases (state h p).sent.find id with
  | none => rfl
  | some r => rfl

/-- **A request finishes.** It may be one whose answer was heard. -/
theorem finishSentRequest (hk : Kept heard none h) {id : ℕ} (hid : h.historyByRequest.find id = some p)
    (hwaits : (state h p).postponed.find id = none) (hheard : heard = none ∨ heard = some id) :
    Kept none none (finishSentRequest h p id) := by
  have hold := hk.settled p (by simp)
  have hbooks := (hk.books.takeSent hid hwaits).drop hheard
  have hbyRequest : (takeSent h p id).historyByRequest = h.historyByRequest := by rw [Books.same_takeSent]
  rw [hbyRequest] at hbooks
  have hmoves : Moves p h (takeSent { h with historyByRequest := h.historyByRequest.erase id } p id) := by
    rw [takeSent_historyByRequest]
    exact { moves_takeSent h p id with }
  have hkept : Kept none (some p) (takeSent { h with historyByRequest := h.historyByRequest.erase id } p id) := by
    refine hk.moves hmoves ?_ (Or.inl rfl)
    rw [takeSent_historyByRequest]
    exact hbooks
  have hsent : ∀ {id' r}, (state (takeSent { h with historyByRequest := h.historyByRequest.erase id } p id)
      p).sent.find id' = some r → (state h p).sent.find id' = some r := by
    intro id' r hfind
    rw [takeSent_historyByRequest] at hfind
    have htaken : (state (takeSent h p id) p).sent.find id' = some r := hfind
    rw [Books.sent_takeSent] at htaken
    split_ifs at htaken
    exact htaken
  refine hkept.finish (fun hfind htype hfind' => hold.exclusive (hsent hfind) htype (hsent hfind')) ?_
  rw [hmoves.postponedRequestEntry, hmoves.dialogRequests]
  exact fun hflag => (hold.entry hflag).1

end Kept

end ChatRequests
