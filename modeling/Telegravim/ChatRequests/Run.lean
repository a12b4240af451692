import Telegravim.ChatRequests.Entries

set_option autoImplicit false

/-!
# Chat requests: runs

Whatever is asked for, whatever the server answers and in whatever order, the books are kept, unless a
channel is deleted: that request does not finish when it is answered, so that what loads the history of this
channel waits for good.

## Main definitions

* `ChatRequests.Step.KeepsChannel` — no channel is deleted in a step.
* `ChatRequests.Orderly` — what holds of the requests of histories.

## Main results

* `ChatRequests.Kept.step` — a step keeps the invariant.
* `ChatRequests.reachable_orderly` — requests are ordered around deletions, and none is stranded.
* `ChatRequests.deletedChannel_stranded` — what happens after a channel is deleted.
-/

namespace ChatRequests

namespace Kept

variable {heard : Option ℕ} {loose : Option PeerId} {h : Histories} {p : PeerId}

/-- A request that says nothing of what was read. -/
lemma sendOther (hk : Kept heard none h) {type : RequestType} {g : Generator}
    (hplain : type = .history → g = .plain) (hfits : g.Fits p) (hother : ∀ till, g ≠ .readInbox till) :
    Kept heard none (ChatRequests.sendRequest h p type g) :=
  hk.sendRequest hplain hfits fun till hg => absurd hg (hother till)

/-! ### Messages to topics -/

lemma sendPreparedMessage (hk : Kept heard none h) (p : PeerId) (topicRootId : MsgId) (isCreatingTopic : Bool) :
    Kept heard none (sendPreparedMessage h p topicRootId isCreatingTopic) := by
  unfold ChatRequests.sendPreparedMessage
  split
  · have hgrows : ∀ {id}, id ≤ h.requestAutoincrement ∧ h.historyByRequest.find id = none →
        id ≤ h.requestAutoincrement + 1 ∧ h.historyByRequest.find id = none :=
      fun hold => ⟨hold.1.trans (Nat.le_succ _), hold.2⟩
    exact { hk with
      books := { hk.books with
        heardOld := fun hsome => ⟨(hk.books.heardOld hsome).1.trans (Nat.le_succ _), (hk.books.heardOld hsome).2⟩
        fresh := fun hfind => (hk.books.fresh hfind).trans (Nat.le_succ _)
        ended := fun hmem => hgrows (hk.books.ended hmem)
        creating := fun {id} hmem => by
          rcases Finset.mem_insert.mp hmem with hid | hmem
          · rw [hid]
            exact ⟨le_rfl, (hk.books.notSent (Nat.lt_succ_self _) p).2.2⟩
          · exact hgrows (hk.books.creating hmem) } }
  · exact hk.sendOther (fun _ => rfl) trivial fun till hg => by cases hg

lemma checkTopicCreated (hk : Kept heard none h) (p : PeerId) (rootId realRoot : MsgId) (isCreatingTopic : Bool) :
    Kept heard none (checkTopicCreated h p rootId realRoot isCreatingTopic) := by
  unfold ChatRequests.checkTopicCreated
  cases h.creatingTopics.find (toLex (p, rootId)) with
  | none => exact hk
  | some scheduled =>
    have hloop : ∀ (ids : List ℕ) (h : Histories), Kept heard none h → Kept heard none (ids.foldl
        (fun h id => ChatRequests.sendPreparedMessage
          { h with creatingTopicRequests := h.creatingTopicRequests.erase id } p realRoot isCreatingTopic) h) := by
      intro ids
      induction ids with
      | nil => exact fun h hk => hk
      | cons id rest ih =>
        intro h hk
        have herased : Kept heard none { h with creatingTopicRequests := h.creatingTopicRequests.erase id } :=
          { hk with
            books := { hk.books with
              creating := fun {id'} hmem => hk.books.creating (Finset.mem_of_mem_erase hmem) } }
        exact ih _ (herased.sendPreparedMessage p realRoot isCreatingTopic)
    have herased : Kept heard none { h with
        creatingTopics := h.creatingTopics.erase (toLex (p, rootId)) } :=
      { hk with books := { hk.books with } }
    exact hloop scheduled _ herased

/-! ### What was read -/

/-- **A mark is sent.** -/
lemma sendReadRequest (hk : Kept heard none h) (hwill : (state h p).willReadTill ≠ 0) :
    Kept heard none (sendReadRequest h p) := by
  have hreads := hk.reads p
  have hlt := hreads.will hwill
  unfold ChatRequests.sendReadRequest
  dsimp only
  rw [if_pos hlt]
  have hset : Kept heard none (ChatRequests.setState h p { state h p with
      sentReadTill := (state h p).willReadTill
      willReadTill := 0
      willReadWhen := 0
      sentReadDone := false }) := by
    refine hk.setState rfl rfl rfl ⟨fun hne => absurd rfl hne, fun {id r till} hfind hgenerator => ?_⟩
    obtain ⟨-, -, hbelow⟩ := hreads.onItsWay hfind hgenerator
    exact ⟨fun _ => (hbelow hwill).le, fun hzero => absurd hzero hwill, fun hne => absurd rfl hne⟩
  refine hset.sendRequest (fun htype => by cases htype) trivial fun till hg => ?_
  rw [← Generator.readInbox.inj hg, state_setState, if_pos rfl]
  exact ⟨fun _ => le_rfl, fun hzero => absurd hzero hwill, fun hne => absurd rfl hne⟩

lemma sendReadRequestOf (hk : Kept heard none h) (world : World) (p : PeerId) :
    Kept heard none (sendReadRequestOf world h p) := by
  unfold ChatRequests.sendReadRequestOf
  dsimp only
  split
  · refine hk.setState rfl rfl rfl ⟨fun hne => absurd rfl hne, fun {id r till} hfind hgenerator => ?_⟩
    obtain ⟨hsent, hread, -⟩ := (hk.reads p).onItsWay hfind hgenerator
    exact ⟨hsent, hread, fun hne => absurd rfl hne⟩
  split
  · rename_i hwill
    exact hk.sendReadRequest hwill.1
  · exact hk

lemma sendReadRequests (hk : Kept heard none h) (world : World) : Kept heard none (sendReadRequests h world) := by
  unfold ChatRequests.sendReadRequests
  generalize h.states.keys = histories
  induction histories generalizing h with
  | nil => exact hk
  | cons p rest ih => exact ih (hk.sendReadRequestOf world p)

/-- When a mark is sent does not matter. -/
lemma setReadWhen (hk : Kept heard none h) (p : PeerId) (time : ℤ) :
    Kept heard none (ChatRequests.setState h p { state h p with willReadWhen := time }) :=
  hk.setState rfl rfl rfl ⟨(hk.reads p).will, (hk.reads p).onItsWay⟩

lemma sendPendingReadInbox (hk : Kept heard none h) (p : PeerId) (world : World) :
    Kept heard none (sendPendingReadInbox h p world) := by
  unfold ChatRequests.sendPendingReadInbox
  cases hfind : h.states.find p with
  | none => exact hk
  | some s =>
    dsimp only
    split
    · rw [← state_of_find hfind]
      exact (hk.setReadWhen p 0).sendReadRequests world
    · exact hk

/-- An id is to be read till that is more than what is on its way. -/
lemma setWillReadTill (hk : Kept heard none h) {tillId : MsgId} (hsent : (state h p).sentReadTill < tillId)
    (hneeds : (chat h p).inboxReadBefore.getD 1 ≤ tillId ∨
      (state h p).willReadTill ≠ 0 ∧ (state h p).willReadTill < tillId) (time : ℤ) :
    Kept heard none (ChatRequests.setState h p
      { state h p with willReadTill := tillId, willReadWhen := time }) := by
  refine hk.setState rfl rfl rfl ⟨fun _ => hsent, fun {id r till} hfind hgenerator => ?_⟩
  obtain ⟨hle, hread, hbelow⟩ := (hk.reads p).onItsWay hfind hgenerator
  refine ⟨hle, hread, fun _ => ?_⟩
  show till < tillId
  rcases hneeds with hknown | ⟨hwill, hlt⟩
  · by_cases hzero : (state h p).sentReadTill = 0
    · exact (hread hzero).trans_le hknown
    · exact (hle hzero).trans_lt hsent
  · exact (hbelow hwill).trans hlt

lemma willReadTill (hk : Kept heard none h) {tillId : MsgId} (hsent : (state h p).sentReadTill < tillId)
    (hneeds : (chat h p).inboxReadBefore.getD 1 ≤ tillId ∨
      (state h p).willReadTill ≠ 0 ∧ (state h p).willReadTill < tillId) (force : Bool) (world : World) :
    Kept heard none (willReadTill h p tillId force world) := by
  have hset := hk.setWillReadTill hsent hneeds
  unfold ChatRequests.willReadTill
  cases world.countStillUnreadLocal with
  | none =>
    dsimp only
    split
    · exact (hset 0).sendReadRequests world
    split
    · exact hset _
    · exact hset (state h p).willReadWhen
  | some stillUnread =>
    have hmarked : ∀ {h : Histories}, Kept heard none h → Kept heard none (ChatRequests.setUnreadCount
        (ChatRequests.setInboxReadTill h p tillId) p (some stillUnread)) :=
      fun hk => (hk.setInboxReadTill p tillId).1.setUnreadCount p _
    dsimp only
    split
    · exact hmarked ((hset 0).sendReadRequests world)
    split
    · exact hmarked (hset _)
    · exact hmarked (hset (state h p).willReadWhen)

lemma readInboxTillRequest (hk : Kept heard none h) (p : PeerId) (tillId : MsgId) (force : Bool)
    (world : World) : Kept heard none (readInboxTillRequest h p tillId force world) := by
  have hmissing : h.states.contains p = false → state h p = {} := by
    intro hnot
    unfold state
    rw [OrdMap.contains_eq_false_iff.mp hnot]
    rfl
  unfold ChatRequests.readInboxTillRequest
  dsimp only
  split
  · exact hk
  rename_i hneeded
  split
  · exact hk
  split
  · exact hk
  rename_i hnotSent
  split
  · split
    · exact hk.sendPendingReadInbox p world
    · exact hk
  rename_i hnotWill
  split
  · exact hk
  rename_i hneeds
  split
  · exact (hk.setInboxReadTill p tillId).1
  · have hbelow : ∀ x : State → MsgId, x {} = 0 →
        ¬(h.states.contains p && decide (x (state h p) ≥ tillId)) = true → 0 < tillId → x (state h p) < tillId := by
      intro x hzero hnot hpos
      cases hcontains : h.states.contains p with
      | false =>
        rw [hmissing hcontains, hzero]
        exact hpos
      | true =>
        rw [hcontains] at hnot
        simpa using hnot
    by_cases hknown : readInboxTillNeedsRequest h p tillId = true
    · unfold readInboxTillNeedsRequest isServerMsgId at hknown
      simp only [Bool.and_eq_true, decide_eq_true_eq] at hknown
      exact hk.willReadTill (hbelow State.sentReadTill rfl hnotSent hknown.1.1) (Or.inl hknown.2) force world
    · have hwill : (state h p).willReadTill ≠ 0 := by
        simp only [hknown, Bool.not_false, Bool.true_and, decide_eq_true_eq] at hneeds
        exact hneeds
      have hcontains : h.states.contains p = true := by
        by_contra hnot
        rw [hmissing (Bool.eq_false_iff.mpr hnot)] at hwill
        exact hwill rfl
      rw [hcontains] at hnotSent hnotWill
      simp only [Bool.true_and, decide_eq_true_eq, not_le] at hnotSent hnotWill
      exact hk.willReadTill hnotSent (Or.inr ⟨hwill, hnotWill⟩) force world

/-- **What was read is to be marked.** -/
theorem readInboxTill (hk : Kept heard none h) (p : PeerId) (tillId : MsgId) (force : Bool) (world : World) :
    Kept heard none (readInboxTill h p tillId force world) := by
  unfold ChatRequests.readInboxTill
  dsimp only
  split
  · exact hk
  split
  · exact (hk.readInboxTillRequest p tillId force world).setUnreadCount p _
  · exact hk.readInboxTillRequest p tillId force world

/-- **A mark was answered.** What was sent after it is more. -/
theorem readFinished (hk : Kept heard none h) {id : ℕ} {r : SentRequest} {tillId : MsgId}
    (hfind : (state h p).sent.find id = some r) (hgenerator : r.generator = .readInbox tillId) (world : World) :
    Kept heard none (readFinished h p tillId world) := by
  have hcontains := hk.books.contains ((hk.books.listed (by simp)).mpr (Or.inl ⟨r, hfind⟩))
  obtain ⟨s, hs⟩ := OrdMap.contains_iff.mp hcontains
  have hself := state_of_find hs
  have hreads := hk.reads p
  rw [hself] at hreads hfind
  unfold ChatRequests.readFinished
  rw [hs]
  dsimp only
  refine Kept.sendReadRequests ?_ world
  have hdone : Kept heard none (ChatRequests.setState h p { s with sentReadDone := true }) := by
    rw [← hself]
    exact hk.setState rfl rfl rfl ⟨(hk.reads p).will, (hk.reads p).onItsWay⟩
  split
  · rename_i hsame
    split
    · exact hdone.requestDialogEntry p none world.isCommunity
    · rename_i hknown
      have hbefore : tillId < (chat h p).inboxReadBefore.getD 1 := by
        unfold unreadCountRefreshNeeded at hknown
        simp only [Bool.or_eq_true, decide_eq_true_eq, not_or, not_lt] at hknown
        cases hbefore : (chat h p).inboxReadBefore with
        | none =>
          rw [hbefore] at hknown
          simp at hknown
        | some before =>
          rw [hbefore] at hknown
          exact hknown.2
      have hset : ChatRequests.setState (ChatRequests.setState h p { s with sentReadDone := true }) p
          { s with sentReadDone := true, sentReadTill := 0 } =
            ChatRequests.setState h p { s with sentReadDone := true, sentReadTill := 0 } := by
        unfold ChatRequests.setState
        dsimp only
        rw [OrdMap.insert_insert]
      rw [hset]
      refine hk.setState (by rw [hself]) (by rw [hself]) (by rw [hself])
        ⟨fun hne => Nat.pos_of_ne_zero hne, fun {id' r' till} hfind' hgenerator' => ?_⟩
      obtain ⟨hle, hread, hwill⟩ := hreads.onItsWay hfind' hgenerator'
      refine ⟨fun hne => absurd rfl hne, fun _ => ?_, hwill⟩
      by_cases hzero : s.sentReadTill = 0
      · exact hread hzero
      · exact (hle hzero).trans_lt (hsame ▸ hbefore)
  · rename_i hother
    rw [if_pos]
    · exact hk
    · by_cases hzero : s.sentReadTill = 0
      · exact Or.inl hzero
      · have hle := (hreads.onItsWay hfind hgenerator).1 hzero
        exact Or.inr (lt_of_le_of_ne hle fun hsame => hother hsame.symm)

/-! ### Deletions -/

/-- Messages of a chat are deleted, but not a channel. -/
lemma deleteAllMessages (hk : Kept heard none h) (p : PeerId) (args : DeleteAll) (amCreator : Bool)
    (hkeeps : (!args.justClear && args.revoke && peerIsChannel p && amCreator) = false) :
    Kept heard none (deleteAllMessages h p args amCreator) := by
  unfold ChatRequests.deleteAllMessages
  rw [hkeeps, if_neg (by simp)]
  split
  · exact hk.sendOther (fun htype => by cases htype) trivial fun till hg => by cases hg
  rename_i hchannel
  have hnot : peerIsChannel p = false := by simpa using hchannel
  split
  · exact hk.sendOther (fun htype => by cases htype) hnot fun till hg => by cases hg
  · exact hk.sendOther (fun htype => by cases htype) hnot fun till hg => by cases hg

lemma deleteMessagesByDates (hk : Kept heard none h) (p : PeerId) (minDate maxDate : ℤ) (revoke : Bool) :
    Kept heard none (deleteMessagesByDates h p minDate maxDate revoke) :=
  hk.sendOther (fun htype => by cases htype) trivial fun till hg => by cases hg

lemma deleteMessages (hk : Kept heard none h) (p : PeerId) : Kept heard none (deleteMessages h p) :=
  hk.sendOther (fun htype => by cases htype) trivial fun till hg => by cases hg

/-! ### Answers -/

/-- An answer is heard, of a request that does not load the history. -/
lemma hear (hk : Kept none none h) {id : ℕ} {r : SentRequest} (hfind : (state h p).sent.find id = some r)
    (htype : r.type ≠ .history) : Kept (some id) none (cancel h r.id) := by
  have hb := hk.books
  have hid : h.historyByRequest.find id = some p := (hb.listed (by simp)).mpr (Or.inl ⟨r, hfind⟩)
  have hasked := hb.inFlight hfind (by simp)
  have hrequests : ∀ m, (cancel h r.id).requests.find m = if m = r.id then none else h.requests.find m :=
    fun m => OrdMap.find_erase _ _ _
  have hself : ∀ {q id' r'}, (state h q).sent.find id' = some r' → (r'.id = r.id ↔ id' = id ∧ q = p) := by
    intro q id' r' hfind'
    constructor
    · intro hsame
      have hasked' := hb.inFlight hfind' (by simp)
      rw [hsame, hasked] at hasked'
      injection Option.some.inj hasked' with hqs hids
      exact ⟨hids.symm, hqs.symm⟩
    · rintro ⟨rfl, rfl⟩
      rw [hfind] at hfind'
      rw [Option.some.inj hfind']
  have howner : ∀ {q r'}, (state h q).sent.find id = some r' → q = p := by
    intro q r' hfind'
    have hother := (hb.listed (by simp)).mpr (Or.inl ⟨r', hfind'⟩)
    rw [hid] at hother
    exact (Option.some.inj hother).symm
  refine ⟨?_, hk.reads, hk.settled, hk.dialogs, hk.erased, hk.sound⟩
  refine { hb with
    inFlight := fun {q id' r'} hfind' hother => ?_
    gone := fun {q id' r'} hfind' hsame => ?_
    heardOld := fun {id'} hsame => ?_
    waiting := fun {m q id' g} hasked' => ?_
    addChatUser := fun {m q args} hasked' => ?_
    freshRequests := fun {m asked} hasked' => ?_ }
  · rw [hrequests, if_neg]
    · exact hb.inFlight hfind' (by simp)
    · intro hsame
      exact hother (congrArg some ((hself hfind').mp hsame).1.symm)
  · have hsameId := Option.some.inj hsame
    subst hsameId
    have hfindHere : (state h q).sent.find id = some r' := hfind'
    have hq := howner hfindHere
    subst hq
    rw [hfind] at hfindHere
    rw [← Option.some.inj hfindHere, hrequests, if_pos rfl]
    exact ⟨rfl, htype⟩
  · have hsameId := Option.some.inj hsame
    subst hsameId
    refine ⟨hb.fresh hid, fun q => ?_⟩
    cases hwaits : (state h q).postponed.find id with
    | none => exact hwaits
    | some g =>
      have hother := (hb.listed (by simp)).mpr (Or.inr ⟨g, hwaits⟩)
      rw [hid] at hother
      have hq := Option.some.inj hother
      subst hq
      exact (hb.apart hfind hwaits).elim
  · rw [hrequests] at hasked'
    split_ifs at hasked' with hm
    obtain ⟨-, r', hr', hrid, hrg⟩ := hb.waiting hasked'
    refine ⟨fun hsame => ?_, r', hr', hrid, hrg⟩
    have hsameId := Option.some.inj hsame
    subst hsameId
    exact hm (hrid ▸ (hself hr').mpr ⟨rfl, howner hr'⟩)
  · rw [hrequests] at hasked'
    split_ifs at hasked'
    exact hb.addChatUser hasked'
  · rw [hrequests] at hasked'
    split_ifs at hasked'
    exact hb.freshRequests hasked'

/-- What is not a request of a history is answered. -/
lemma hearOther (hk : Kept none none h) {m : ℕ} {asked : ApiRequest} (hasked : h.requests.find m = some asked)
    (hchat : ∀ q id g, asked ≠ .chat q id g) : Kept none none (cancel h m) := by
  have hb := hk.books
  have hrequests : ∀ m', (cancel h m).requests.find m' = if m' = m then none else h.requests.find m' :=
    fun m' => OrdMap.find_erase _ _ _
  refine ⟨?_, hk.reads, hk.settled, hk.dialogs, hk.erased, hk.sound⟩
  refine { hb with
    inFlight := fun {q id r} hfind hother => ?_
    gone := fun {q id r} hfind hsome => by cases hsome
    waiting := fun {m' q id g} hasked' => ?_
    addChatUser := fun {m' q args} hasked' => ?_
    freshRequests := fun {m' other} hasked' => ?_ }
  · have hasked' := hb.inFlight hfind hother
    rw [hrequests, if_neg]
    · exact hasked'
    · intro hsame
      rw [hsame, hasked] at hasked'
      exact hchat q id r.generator (Option.some.inj hasked')
  · rw [hrequests] at hasked'
    split_ifs at hasked'
    exact hb.waiting hasked'
  · rw [hrequests] at hasked'
    split_ifs at hasked'
    exact hb.addChatUser hasked'
  · rw [hrequests] at hasked'
    split_ifs at hasked'
    exact hb.freshRequests hasked'

end Kept

lemma keepsIds_sendReadRequests (h : Histories) (world : World) : KeepsIds h (sendReadRequests h world) := by
  have hone : ∀ (h : Histories) (p : PeerId), KeepsIds h (sendReadRequestOf world h p) := by
    intro h p
    unfold sendReadRequestOf sendReadRequest
    dsimp only
    split_ifs
    · exact SameIds.keepsIds ⟨rfl, rfl⟩
    · refine KeepsIds.trans ?_ (keepsIds_sendRequest _ _ _ _)
      exact SameIds.keepsIds ⟨rfl, rfl⟩
    · exact SameIds.keepsIds ⟨rfl, rfl⟩
    · exact (SameIds.refl h).keepsIds
  unfold sendReadRequests
  generalize h.states.keys = histories
  induction histories generalizing h with
  | nil => exact (SameIds.refl h).keepsIds
  | cons p rest ih => exact (hone h p).trans (ih _)

lemma keepsIds_requestDialogEntry (h : Histories) (p : PeerId) (callback : Option ℕ) (isCommunity : Bool) :
    KeepsIds h (requestDialogEntry h p callback isCommunity) := by
  unfold requestDialogEntry
  split_ifs
  · exact (SameIds.refl h).keepsIds
  · cases h.dialogRequests.find p with
    | none => exact SameIds.keepsIds ⟨rfl, rfl⟩
    | some callbacks => exact SameIds.keepsIds ⟨rfl, rfl⟩

lemma keepsIds_readFinished (h : Histories) (p : PeerId) (tillId : MsgId) (world : World) :
    KeepsIds h (readFinished h p tillId world) := by
  unfold readFinished
  cases h.states.find p with
  | none => exact SameIds.keepsIds ⟨rfl, rfl⟩
  | some s =>
    dsimp only
    refine KeepsIds.trans ?_ (keepsIds_sendReadRequests _ world)
    split_ifs
    · refine KeepsIds.trans ?_ (keepsIds_requestDialogEntry _ p none _)
      exact SameIds.keepsIds ⟨rfl, rfl⟩
    · exact SameIds.keepsIds ⟨rfl, rfl⟩
    · exact (SameIds.refl h).keepsIds
    · exact SameIds.keepsIds ⟨rfl, rfl⟩

lemma keepsIds_answered (h : Histories) (p : PeerId) (g : Generator) (result : Answer) (world : World) :
    KeepsIds h (answered h p g result world) := by
  have hrefl : KeepsIds h h := (SameIds.refl h).keepsIds
  unfold answered
  split
  · exact keepsIds_readFinished h p _ world
  · split_ifs
    · exact SameIds.keepsIds ⟨rfl, rfl⟩
    · exact hrefl
  · split_ifs
    · exact keepsIds_sendRequest _ _ _ _
    · exact hrefl
  · split_ifs
    · exact keepsIds_sendRequest _ _ _ _
    · exact hrefl
  · exact hrefl

namespace Kept

variable {h : Histories} {p : PeerId}

/-- What a request does with its answer before it finishes. -/
lemma answered {id : ℕ} {r : SentRequest} (hk : Kept (some id) none h)
    (hfind : (state h p).sent.find id = some r) (result : Answer) (world : World) :
    Kept (some id) none (answered h p r.generator result world) := by
  have hfits := hk.books.fits hfind
  unfold ChatRequests.answered
  split
  · rename_i tillId _ hgenerator
    exact hk.readFinished hfind hgenerator world
  · rename_i args error hgenerator
    rw [hgenerator] at hfits
    split
    · refine hk.request (fun q id g hsame => by cases hsame) fun q args' hsame => ?_
      cases hsame
      exact hfits
    · exact hk
  · rename_i args offset dialogs hgenerator
    rw [hgenerator] at hfits
    split
    · refine hk.deleteAllMessages p args world.amCreator ?_
      have hnot : peerIsChannel p = false := hfits
      rw [hnot]
      simp
    · exact hk
  · split
    · exact hk.deleteMessagesByDates p _ _ _
    · exact hk
  · exact hk

/-- A request that does nothing else with its answer. -/
lemma finishSentRequest_cancel {id : ℕ} {r : SentRequest}
    (hfind : (state h p).sent.find id = some r) :
    ChatRequests.finishSentRequest (cancel h r.id) p id = ChatRequests.finishSentRequest h p id := by
  have hcancelled : takeSent (cancel h r.id) p id = takeSent h p id := by
    have hstate : state (cancel h r.id) p = state h p := rfl
    have herase : (h.requests.erase r.id).erase r.id = h.requests.erase r.id :=
      OrdMap.erase_of_find_eq_none (by rw [OrdMap.find_erase, if_pos rfl])
    unfold takeSent
    dsimp only
    rw [hstate, hfind]
    unfold ChatRequests.setState cancel
    dsimp only
    rw [herase]
  have htaken : takeSent { cancel h r.id with historyByRequest := h.historyByRequest.erase id } p id =
      takeSent { h with historyByRequest := h.historyByRequest.erase id } p id := by
    rw [takeSent_historyByRequest (cancel h r.id), takeSent_historyByRequest h, hcancelled]
  unfold ChatRequests.finishSentRequest
  dsimp only
  show ChatRequests.checkEmptyState (ChatRequests.restartEntry (ChatRequests.restartPostponed
    (takeSent { cancel h r.id with historyByRequest := h.historyByRequest.erase id } p id) p) p) p = _
  rw [htaken]

/-- **The server answers a request.** -/
theorem answer (hk : Kept none none h) (requestId : ℕ) (result : Answer) (world : World) :
    Kept none none (answer h requestId result world) := by
  unfold ChatRequests.answer
  cases hasked : h.requests.find requestId with
  | none => exact hk
  | some asked =>
    dsimp only
    cases asked with
    | chat p id g =>
      obtain ⟨-, r, hfind, hrid, hrg⟩ := hk.books.waiting hasked
      subst hrid hrg
      have hid : h.historyByRequest.find id = some p := (hk.books.listed (by simp)).mpr (Or.inl ⟨r, hfind⟩)
      have hfits := hk.books.fits hfind
      have hnot : r.generator ≠ .deleteChannel := by
        intro hsame
        rw [hsame] at hfits
        exact hfits
      dsimp only
      rw [if_neg hnot]
      unfold checkPostponed
      by_cases hplain : r.generator = .plain
      · have hwaits : (state h p).postponed.find id = none := by
          cases hwaits : (state h p).postponed.find id with
          | none => rfl
          | some g => exact (hk.books.apart hfind hwaits).elim
        have hanswered : ChatRequests.answered (cancel h r.id) p r.generator result world = cancel h r.id := by
          rw [hplain]
          rfl
        have hthere : (cancel h r.id).states.contains p = true := hk.books.contains hid
        rw [hanswered, if_pos hthere, finishSentRequest_cancel hfind]
        exact (hk.finishSentRequest hid hwaits (Or.inl rfl)).noteFinished (hk.books.fresh hid)
      · have htype : r.type ≠ .history := fun htype => hplain (hk.books.historyPlain hfind htype)
        have hheard := (hk.hear hfind htype).answered hfind result world
        have hidAnswered := keepsIds_answered (cancel h r.id) p r.generator result world id p hid
        rw [if_pos (hheard.books.contains hidAnswered)]
        exact (hheard.finishSentRequest hidAnswered ((hheard.books.heardOld rfl).2 p) (Or.inr rfl)).noteFinished
          (hheard.books.fresh hidAnswered)
    | addChatUser p args =>
      have hnot := hk.books.addChatUser hasked
      have hcancelled := hk.hearOther hasked fun q id g hsame => by cases hsame
      cases result with
      | done offset dialogs =>
        refine hcancelled.deleteAllMessages p args world.amCreator ?_
        rw [hnot]
        simp
      | fail error => exact hcancelled
    | peerDialogs histories =>
      have hcancelled := hk.hearOther hasked fun q id g hsame => by cases hsame
      cases result with
      | done offset dialogs => exact (foldl_applyDialog dialogs hcancelled).finalize histories
      | fail error => exact hcancelled.finalize histories

end Kept

/-! ### Runs -/

/-- No channel is deleted in a step. -/
def Step.KeepsChannel : Step → Prop
  | .deleteAllMessages history args amCreator =>
    (!args.justClear && args.revoke && peerIsChannel history && amCreator) = false
  | _ => True

/-- **A step keeps the invariant.** -/
theorem Kept.step {h : Histories} (hk : Kept none none h) {next : Step} (hnext : next.KeepsChannel) :
    Kept none none (step h next) := by
  cases next with
  | sendRequest p type => exact hk.sendOther (fun _ => rfl) trivial fun till hg => by cases hg
  | sendPreparedMessage p topicRootId isCreatingTopic => exact hk.sendPreparedMessage p topicRootId isCreatingTopic
  | checkTopicCreated p rootId realRoot isCreatingTopic =>
    exact hk.checkTopicCreated p rootId realRoot isCreatingTopic
  | cancelRequest id => exact hk.cancelRequest id
  | deleteMessages p => exact hk.deleteMessages p
  | deleteAllMessages p args amCreator => exact hk.deleteAllMessages p args amCreator hnext
  | deleteMessagesByDates p minDate maxDate revoke => exact hk.deleteMessagesByDates p minDate maxDate revoke
  | readInboxTill p tillId force world => exact hk.readInboxTill p tillId force world
  | sendReadRequests world => exact hk.sendReadRequests world
  | sendPendingReadInbox p world => exact hk.sendPendingReadInbox p world
  | requestDialogEntry p callback isCommunity => exact hk.requestDialogEntry p callback isCommunity
  | sendDialogRequests => exact hk.sendDialogRequests
  | applyDialog dialog => exact hk.applyDialog dialog
  | dialogEntryApplied p => exact hk.dialogEntryApplied p
  | answer requestId result world => exact hk.answer requestId result world
  | inboxRead p upTo unreadCount => exact ((hk.setUnreadCount p unreadCount).setInboxReadTill p upTo).1

lemma kept_start : Kept none none {} where
  books :=
    { listed := fun {id p} _ => by
        constructor
        · intro hnone
          cases hnone
        · rintro (⟨r, hnone⟩ | ⟨g, hnone⟩)
          · cases hnone
          · cases hnone
      moves := fun hsome => by cases hsome
      apart := fun hnone => by cases hnone
      inFlight := fun hnone => by cases hnone
      gone := fun hnone => by cases hnone
      heardOld := fun hsome => by cases hsome
      waiting := fun hnone => by cases hnone
      plain := fun hnone => by cases hnone
      historyPlain := fun hnone => by cases hnone
      fits := fun hnone => by cases hnone
      addChatUser := fun hnone => by cases hnone
      fresh := fun hnone => by cases hnone
      freshSent := fun hnone => by cases hnone
      freshRequests := fun hnone => by cases hnone
      ended := fun hmem => absurd hmem (Finset.notMem_empty _)
      creating := fun hmem => absurd hmem (Finset.notMem_empty _) }
  reads := fun p => ⟨fun hne => absurd rfl hne, fun hnone => by cases hnone⟩
  settled := fun p _ =>
    ⟨fun hnone => (by cases hnone), fun hnone => (by cases hnone), fun hfalse => (by cases hfalse)⟩
  dialogs := fun p hfalse => by cases hfalse
  erased := fun s hmem => absurd hmem List.not_mem_nil
  sound := rfl

/-- **Every state of a run keeps the invariant** in which no channel is deleted. -/
theorem Reachable.kept {h : Histories} (hr : Reachable Step.KeepsChannel h) : Kept none none h := by
  induction hr with
  | start => exact kept_start
  | step next _ hnext ih => exact ih.step hnext

/-- What holds of the requests of histories. -/
structure Orderly (h : Histories) : Prop where
  /-- A request that has a history is in one place. -/
  request : ∀ id p, h.historyByRequest.find id = some p → ∃ s, h.states.find p = some s ∧
    ((s.sent.contains id = true ∧ s.postponed.contains id = false) ∨
      (s.sent.contains id = false ∧ s.postponed.contains id = true))
  /-- Nothing loads the history while something is deleted. -/
  exclusive : ∀ p s, h.states.find p = some s → ∀ id r, s.sent.find id = some r → r.type = .delete →
    ∀ id' r', s.sent.find id' = some r' → r'.type ≠ .history
  /-- What waits does so because of a deletion that was not answered. -/
  waits : ∀ p s, h.states.find p = some s → ∀ id g, s.postponed.find id = some g →
    ∃ id' r, s.sent.find id' = some r ∧ r.type = .delete ∧
      h.requests.find r.id = some (.chat p id' r.generator)
  /-- What was sent was neither answered nor cancelled. -/
  unanswered : ∀ p s, h.states.find p = some s → ∀ id r, s.sent.find id = some r →
    h.requests.find r.id = some (.chat p id r.generator) ∧ id ∉ h.ended
  /-- A cancelled request does not wait either. -/
  cancelled : ∀ p s, h.states.find p = some s → ∀ id g, s.postponed.find id = some g → id ∉ h.ended
  dialogs : ∀ p, ¬(h.dialogRequestsPending.contains p = true ∧ h.dialogRequests.contains p = true)
  entry : ∀ p s, h.states.find p = some s → s.postponedRequestEntry = true →
    h.dialogRequests.contains p = true ∧ ∃ id r, s.sent.find id = some r ∧ r.type ≠ .history
  /-- States that were erased held nothing. -/
  erased : ∀ s ∈ h.erased, s.postponed = ∅ ∧ s.postponedRequestEntry = false ∧ s.sent = ∅ ∧
    s.willReadTill = 0 ∧ s.sentReadTill = 0
  /-- No assertion failed. -/
  assertions : h.failed = false

/-- **Requests are ordered around deletions, and none is stranded**, in every run in which no channel is
deleted.

**Proof sketch.** Every step keeps the invariant: what was sent is on its way, and a request that is answered
or cancelled is taken out of what was sent, whereupon what waits is sent when nothing is deleted any more.
Nothing of what was read is on its way that is more than what was sent last, unless it is known as read. -/
theorem reachable_orderly {h : Histories} (hr : Reachable Step.KeepsChannel h) : Orderly h := by
  have hk := hr.kept
  have hb := hk.books
  have hlisted : ∀ {p s id}, h.states.find p = some s → (∃ r, s.sent.find id = some r) ∨
      (∃ g, s.postponed.find id = some g) → id ∉ h.ended := by
    intro p s id hs hplace hended
    rw [← state_of_find hs] at hplace
    have hid := (hb.listed (by simp)).mpr hplace
    rw [(hb.ended hended).2] at hid
    cases hid
  refine
    { request := fun id p hid => ?_
      exclusive := fun p s hs id r hfind htype id' r' hfind' => ?_
      waits := fun p s hs id g hfind => ?_
      unanswered := fun p s hs id r hfind => ⟨?_, hlisted hs (Or.inl ⟨r, hfind⟩)⟩
      cancelled := fun p s hs id g hfind => hlisted hs (Or.inr ⟨g, hfind⟩)
      dialogs := fun p hboth => ?_
      entry := fun p s hs hflag => ?_
      erased := fun s hmem => State.empty_iff.mp (hk.erased s hmem)
      assertions := hk.sound }
  · obtain ⟨s, hs⟩ := OrdMap.contains_iff.mp (hb.contains hid)
    refine ⟨s, hs, ?_⟩
    have hself := state_of_find hs
    rcases (hb.listed (by simp)).mp hid with ⟨r, hr⟩ | ⟨g, hg⟩
    · refine Or.inl ⟨OrdMap.contains_iff.mpr ⟨r, hself ▸ hr⟩, ?_⟩
      rw [OrdMap.contains_eq_false_iff]
      cases hg : s.postponed.find id with
      | none => rfl
      | some g => exact (hb.apart hr (by rw [hself]; exact hg)).elim
    · refine Or.inr ⟨?_, OrdMap.contains_iff.mpr ⟨g, hself ▸ hg⟩⟩
      rw [OrdMap.contains_eq_false_iff]
      cases hr : s.sent.find id with
      | none => rfl
      | some r => exact (hb.apart (by rw [hself]; exact hr) hg).elim
  · have hsettled := hk.settled p (by simp)
    rw [state_of_find hs] at hsettled
    exact hsettled.exclusive hfind htype hfind'
  · have hsettled := hk.settled p (by simp)
    rw [state_of_find hs] at hsettled
    obtain ⟨id', r, hr, htype⟩ := hsettled.waits hfind
    refine ⟨id', r, hr, htype, ?_⟩
    rw [← state_of_find hs] at hr
    exact hb.inFlight hr (by simp)
  · rw [← state_of_find hs] at hfind
    exact hb.inFlight hfind (by simp)
  · have hnot := hk.dialogs p hboth.2
    rw [hboth.1] at hnot
    cases hnot
  · have hsettled := hk.settled p (by simp)
    rw [state_of_find hs] at hsettled
    exact hsettled.entry hflag

lemma reachable_foldl {allowed : Step → Prop} (steps : List Step) (hall : ∀ next ∈ steps, allowed next)
    {h : Histories} (hr : Reachable allowed h) : Reachable allowed (steps.foldl step h) := by
  induction steps generalizing h with
  | nil => exact hr
  | cons next rest ih =>
    exact ih (fun other hmem => hall other (List.mem_cons_of_mem _ hmem))
      (hr.step next (hall next List.mem_cons_self))

/-- A world in which everything may be marked. -/
def openWorld : World where
  now := 0
  allowed := fun _ _ => true
  trackUnreadMessages := true
  countStillUnreadLocal := some 0
  lastServerMessage := none
  isCommunity := false
  amCreator := false

/-- Messages are deleted while the history loads, and the entry of the chat is requested and a mark is sent
meanwhile. -/
def deletedMessages : Histories :=
  [.requestDialogEntry 7 (some 1) false, .sendDialogRequests, .sendRequest 7 .history, .deleteMessages 7,
    .readInboxTill 7 5 false openWorld].foldl step {}

theorem deletedMessages_orderly : (state deletedMessages 7).postponed.contains 1 = true ∧
    (state deletedMessages 7).postponedRequestEntry = true ∧ Orderly deletedMessages := by
  refine ⟨by decide +kernel, by decide +kernel, reachable_orderly (reachable_foldl _ ?_ .start)⟩
  intro next hmem
  simp only [List.mem_cons, List.not_mem_nil, or_false] at hmem
  rcases hmem with rfl | rfl | rfl | rfl | rfl <;> trivial

/-- The id of a channel. -/
def someChannel : PeerId := 2 * 2 ^ 48 + 7

/-- A channel is deleted by its creator, the server answers, and then the history is to be loaded. -/
def deletedChannel : Histories :=
  [.deleteAllMessages someChannel ⟨0, false, true⟩ true, .answer 1 (.done 0 []) openWorld,
    .sendRequest someChannel .history].foldl step {}

/-- **After a channel is deleted what loads its history waits for good**: the deletion was answered, and is
still one of those that were sent. -/
theorem deletedChannel_stranded : Reachable (fun _ => True) deletedChannel ∧ ¬Orderly deletedChannel ∧
    1 ∈ deletedChannel.ended ∧ (state deletedChannel someChannel).sent.contains 1 = true ∧
    (state deletedChannel someChannel).postponed.contains 2 = true ∧
    deletedChannel.requests.entries.isEmpty = true := by
  have hended : 1 ∈ deletedChannel.ended := by decide +kernel
  have hsent : (state deletedChannel someChannel).sent.contains 1 = true := by decide +kernel
  have hthere : deletedChannel.states.contains someChannel = true := by decide +kernel
  refine ⟨reachable_foldl _ (fun _ _ => trivial) .start, fun horderly => ?_, hended, hsent,
    by decide +kernel, by decide +kernel⟩
  obtain ⟨s, hs⟩ := OrdMap.contains_iff.mp hthere
  obtain ⟨r, hr⟩ := OrdMap.contains_iff.mp hsent
  rw [state_of_find hs] at hr
  exact (horderly.unanswered someChannel s hs 1 r hr).2 hended

end ChatRequests
