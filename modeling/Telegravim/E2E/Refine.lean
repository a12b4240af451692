import Telegravim.E2E.Valid
import Telegravim.E2E.Envelope
import Telegravim.E2E.Ledger

set_option autoImplicit false

/-!
# Encrypted chat: the operations follow the ledger

Every operation keeps the account valid and the saved state in step with the memory, and
changes the ledger of the saved state by the events it records. An operation whose write fails
puts the memory back, so that the ledger of the memory is still that of the saved state, or
fails closed.

## Main definitions

* `E2E.Storage.saved` — the account a stored snapshot holds.
* `E2E.Sound` — the invariant of the reachable worlds.
* `E2E.Advance` — a world reached from another one, with the events in between.

## Main results

* `E2E.encryptFrame_spec`, `E2E.replacePeerKey_advance`, `E2E.setEnabled_advance`,
  `E2E.controlNotice_advance`, `E2E.receive_spec`, `E2E.load_advance` — one for each
  operation.
-/

namespace E2E

open Text

variable (S : Session)

/-- The account of a stored snapshot of the current version; empty without one. -/
def Storage.saved (storage : Storage) : Account :=
  match storage.state with
  | .document document =>
    (readSnapshot S (fun _ => none) document).elim {} fun r => if r.2 = 2 then r.1 else {}
  | _ => {}

/-- Every document that was written is accepted and gives back the account it came from. -/
def Reopenable (storage : Storage) : Prop :=
  ∀ entry ∈ storage.written, ∀ challenges,
    readSnapshot S challenges entry.2 = some (entry.1, 2)

/-- **The invariant of the reachable worlds**: the account is valid, the saved ledger is that of
the memory unless the chat failed closed, and what was written can be reopened. -/
structure Sound (w : World) : Prop where
  valid : ValidAccount S.crypto w.chat.account
  synced : w.chat.failed = false → ledger (w.storage.saved S).peers = ledger w.chat.account.peers
  reopenable : Reopenable S w.storage

/-- The ledger of the saved state. -/
def World.savedLedger (w : World) : Ledger := ledger (w.storage.saved S).peers

/-- A sound world reached from another one, with the events in between. -/
structure Advance (w w' : World) (events : List Event) : Prop where
  sound : Sound S w'
  history : w'.history = w.history ++ events
  trace : Trace (Step S) (w.savedLedger S) events (w'.savedLedger S)

variable {S}

lemma Advance.refl {w : World} (h : Sound S w) : Advance S w w [] :=
  ⟨h, by simp, Trace.nil⟩

lemma Advance.trans {w w' w'' : World} {es es' : List Event} (h : Advance S w w' es)
    (h' : Advance S w' w'' es') : Advance S w w'' (es ++ es') :=
  ⟨h'.sound, by rw [h'.history, h.history, List.append_assoc], h.trace.append h'.trace⟩

variable (S) in
/-- A sound world reached without making or accepting a frame. -/
def AdvanceQuietly (w w' : World) : Prop :=
  ∃ events, Advance S w w' events ∧ events.filterMap Event.made = [] ∧
    events.filterMap Event.heard = []

lemma Advance.quietly {w w' : World} {events : List Event} (h : Advance S w w' events)
    (hmade : events.filterMap Event.made = [] := by rfl)
    (hheard : events.filterMap Event.heard = [] := by rfl) : AdvanceQuietly S w w' :=
  ⟨events, h, hmade, hheard⟩

lemma AdvanceQuietly.refl {w : World} (h : Sound S w) : AdvanceQuietly S w w :=
  (Advance.refl h).quietly

/-! ### Saving -/

@[simp] lemma save_chat (outcome : Write) (w : World) : (save S outcome w).1.chat = w.chat := by
  unfold save
  split_ifs
  · rfl
  · cases w.chat.account.identity <;> rfl

@[simp] lemma save_history (outcome : Write) (w : World) :
    (save S outcome w).1.history = w.history := by
  unfold save
  split_ifs
  · rfl
  · cases w.chat.account.identity <;> rfl

@[simp] lemma save_peer (outcome : Write) (w : World) (peerId : PeerId) :
    (save S outcome w).1.peer peerId = w.peer peerId := by
  simp [World.peer]

/-- A saved account is the one of the memory. -/
lemma save_done {outcome : Write} {w : World} (hw : ValidAccount S.crypto w.chat.account)
    (h : (save S outcome w).2 = true) :
    w.chat.failed = false ∧ (save S outcome w).1.storage.saved S = w.chat.account ∧
      (Reopenable S w.storage → Reopenable S (save S outcome w).1.storage) := by
  unfold save at h ⊢
  split_ifs at h ⊢ with hfailed
  cases hi : w.chat.account.identity with
  | none => simp [hi] at h
  | some identity =>
    simp only [hi, decide_eq_true_eq] at h ⊢
    subst h
    have hread := fun challenges =>
      readSnapshot_snapshot challenges hw hi
    refine ⟨by simpa using hfailed, ?_, fun hre entry hentry challenges => ?_⟩
    · simp [Storage.write, Storage.saved, hread]
    · simp only [Storage.write, List.mem_append, List.mem_singleton] at hentry
      rcases hentry with hentry | rfl
      · exact hre entry hentry challenges
      · exact hread challenges

/-- A save that failed leaves the saved account. -/
lemma save_failed {outcome : Write} {w : World} (h : (save S outcome w).2 = false) :
    (save S outcome w).1.storage.saved S = w.storage.saved S ∧
      (save S outcome w).1.storage.written = w.storage.written := by
  unfold save at h ⊢
  split_ifs at h ⊢
  · exact ⟨rfl, rfl⟩
  · cases hi : w.chat.account.identity with
    | none => exact ⟨rfl, rfl⟩
    | some identity =>
      cases outcome with
      | done => simp [hi] at h
      | refused => exact ⟨rfl, rfl⟩
      | marked =>
        simp only [Storage.write, and_true]
        cases hs : w.storage.state <;> simp [Storage.saved, hs]

/-- A change of the memory that was saved, with the event that describes it. -/
lemma advance_of_save {outcome : Write} {w : World} (hw : Sound S w) (attempt : World)
    (event : Event)
    (hvalid : ValidAccount S.crypto attempt.chat.account)
    (hstorage : attempt.storage = w.storage) (hhistory : attempt.history = w.history)
    (hsaved : (save S outcome attempt).2 = true)
    (hstep : Step S (w.savedLedger S) event (ledger attempt.chat.account.peers)) :
    Advance S w ((save S outcome attempt).1.record event) [event] := by
  obtain ⟨-, hs, hre⟩ := save_done hvalid hsaved
  refine ⟨⟨?_, fun _ => ?_, hre (hstorage ▸ hw.reopenable)⟩, ?_, Trace.single ?_⟩
  · simpa [World.record] using hvalid
  · simp [World.record, hs]
  · simp [World.record, hhistory]
  · simpa [World.savedLedger, World.record, hs] using hstep

/-- A change of the memory that was not saved and was taken back. -/
lemma advance_of_restored {w w' : World} (hw : Sound S w)
    (hvalid : ValidAccount S.crypto w'.chat.account)
    (hledger : w'.chat.failed = false → ledger w'.chat.account.peers =
      ledger w.chat.account.peers ∧ w.chat.failed = false)
    (hsaved : w'.storage.saved S = w.storage.saved S)
    (hwritten : w'.storage.written = w.storage.written) (hhistory : w'.history = w.history) :
    Advance S w w' [] := by
  refine ⟨⟨hvalid, fun hf => ?_, ?_⟩, by simp [hhistory], ?_⟩
  · obtain ⟨hl, hf'⟩ := hledger hf
    rw [hsaved, hw.synced hf', hl]
  · intro entry hentry
    exact hw.reopenable entry (hwritten ▸ hentry)
  · rw [World.savedLedger, World.savedLedger, hsaved]
    exact Trace.nil

/-! ### The identity -/

lemma ValidAccount.setIdentity {account : Account} (h : ValidAccount S.crypto account)
    (key : KeyPair S.crypto) :
    ValidAccount S.crypto { account with identity := some key.val } :=
  ⟨fun identity hi => by obtain rfl := Option.some.inj hi; exact key.property, h.peers⟩

/-- `identity` keeps the peers, and gives an identity only to a chat that did not fail. -/
lemma identity_spec {w : World} (hw : Sound S w) (draw : IdentityDraw S.crypto) :
    Advance S w (identity S draw w).1 [] ∧
      (identity S draw w).1.chat.account.peers = w.chat.account.peers ∧
      (identity S draw w).1.chat.failed = w.chat.failed ∧
      ∀ i, (identity S draw w).2 = some i → w.chat.failed = false ∧
        (identity S draw w).1.chat.account.identity = some i := by
  unfold identity
  split_ifs with hfailed
  · exact ⟨Advance.refl hw, rfl, rfl, by simp⟩
  have hf : w.chat.failed = false := by simpa using hfailed
  cases hi : w.chat.account.identity with
  | some identity =>
    exact ⟨Advance.refl hw, rfl, rfl, fun i h => ⟨hf, h ▸ hi⟩⟩
  | none =>
    cases hk : draw.key with
    | none => exact ⟨Advance.refl hw, rfl, rfl, by simp⟩
    | some key =>
      have hvalid : ValidAccount S.crypto (w.setIdentity (some key.val)).chat.account :=
        hw.valid.setIdentity key
      simp only
      split_ifs with hsaved
      · obtain ⟨-, hs, hre⟩ := save_done hvalid hsaved
        refine ⟨⟨⟨by simpa using hvalid, fun _ => by simp [hs], hre hw.reopenable⟩, ?_, ?_⟩,
          by simp [World.setIdentity], by simp [World.setIdentity], fun i h => ⟨hf, ?_⟩⟩
        · simp [World.setIdentity]
        · simp only [World.savedLedger, hs, hw.synced hf]
          exact Trace.nil
        · simpa [World.setIdentity] using h
      · obtain ⟨hs, hwritten⟩ := save_failed (by simpa using hsaved)
        have hpeers : ((save S draw.write (w.setIdentity (some key.val))).1.setIdentity
            none).chat.account.peers = w.chat.account.peers := by simp [World.setIdentity]
        refine ⟨advance_of_restored hw ⟨by simp [World.setIdentity], ?_⟩ (fun _ => ⟨?_, hf⟩) hs
          hwritten (by simp [World.setIdentity]), hpeers, by simp [World.setIdentity], by simp⟩
        · rw [hpeers]; exact hw.valid.peers
        · rw [hpeers]

/-! ### Valid updates -/

lemma ValidAccount.setPeer {account : Account} (h : ValidAccount S.crypto account)
    {peerId : PeerId} {state : PeerState} (hstate : ValidPeer S.crypto peerId state) :
    ValidAccount S.crypto (account.setPeer peerId state) := by
  refine ⟨h.identity, fun id peer hp => ?_⟩
  rw [Account.setPeer, OrdMap.find_insert] at hp
  split_ifs at hp with heq
  · obtain rfl := Option.some.inj hp
    exact heq ▸ hstate
  · exact h.peers id peer hp

lemma ValidReceipts.insert {outgoing : Bool} {receipts : OrdMap ℕ Receipt}
    (h : ValidReceipts outgoing receipts) {sequence : ℕ} {receipt : Receipt}
    (hnew : 0 < sequence ∧ sequence ≤ kMaxNumber ∧ 0 ≤ receipt.messageId.toInt ∧
      (outgoing = false → receipt.messageId ≠ 0) ∧ receipt.digest.length = 32) :
    ValidReceipts outgoing (receipts.insert sequence receipt) := by
  intro s r hr
  rw [OrdMap.find_insert] at hr
  split_ifs at hr with heq
  · obtain rfl := Option.some.inj hr
    exact heq ▸ hnew
  · exact h s r hr

/-- No receipt of one's own stands at the next sequence number. -/
lemma ValidKey.outgoing_next {fingerprint : Text} {record : Key}
    (h : ValidKey S.crypto fingerprint record) : record.outgoing.find (record.sent + 1) = none := by
  cases hr : record.outgoing.find (record.sent + 1) with
  | none => rfl
  | some receipt => exact absurd (h.outgoing_le _ _ hr) (by omega)

lemma ValidKey.send {fingerprint : Text} {record : Key}
    (h : ValidKey S.crypto fingerprint record) (hlt : record.sent < kMaxNumber) (frame : Text) :
    ValidKey S.crypto fingerprint (record.send (digestOf S frame)) := by
  have houtgoing : (record.send (digestOf S frame)).outgoing =
      record.outgoing.insert (record.sent + 1) { messageId := 0, digest := digestOf S frame } :=
    OrdMap.emplace_of_find_eq_none h.outgoing_next _
  refine { h with sent_le := hlt, outgoing := ?_, outgoing_le := ?_ }
  · rw [houtgoing]
    exact h.outgoing.insert
      ⟨Nat.succ_pos _, hlt, le_refl (0 : ℤ), by simp, S.crypto.sha256_length _⟩
  · intro sequence receipt hr
    rw [houtgoing, OrdMap.find_insert] at hr
    split_ifs at hr with heq
    · rw [heq]; exact le_rfl
    · exact (h.outgoing_le _ _ hr).trans (Nat.le_succ _)

/-- A frame that could not be saved is forgotten. -/
lemma ValidKey.unsend_send {fingerprint : Text} {record : Key}
    (h : ValidKey S.crypto fingerprint record) (digest : Bytes) :
    (record.send digest).unsend = record := by
  have houtgoing := OrdMap.emplace_of_find_eq_none h.outgoing_next { messageId := 0, digest }
  unfold Key.unsend Key.send
  simp only [houtgoing, OrdMap.erase_insert h.outgoing_next, Nat.add_sub_cancel]

lemma ValidPeer.setKey {peerId : PeerId} {state : PeerState}
    (h : ValidPeer S.crypto peerId state) {fingerprint : Text} {key : Key}
    (hkey : ValidKey S.crypto fingerprint key) :
    ValidPeer S.crypto peerId (state.setKey fingerprint key) := by
  refine { h with keys := fun f k hk => ?_, active := ?_ }
  · rw [PeerState.setKey, OrdMap.find_insert] at hk
    split_ifs at hk with heq
    · obtain rfl := Option.some.inj hk
      exact heq ▸ hkey
    · exact h.keys f k hk
  · simp only [PeerState.setKey, OrdMap.find_insert]
    split_ifs
    · exact ⟨_, rfl⟩
    · exact h.active

lemma PeerState.setKey_find {state : PeerState} {fingerprint : Text} {key : Key}
    (h : state.keys.find fingerprint = some key) : state.setKey fingerprint key = state := by
  rw [PeerState.setKey, OrdMap.insert_find h]

lemma World.setPeer_setPeer (w : World) (peerId : PeerId) (a b : PeerState) :
    (w.setPeer peerId a).setPeer peerId b = w.setPeer peerId b := by
  simp [World.setPeer, Account.setPeer, OrdMap.insert_insert]

@[simp] lemma World.peers_setPeer (w : World) (peerId : PeerId) (state : PeerState) :
    (w.setPeer peerId state).chat.account.peers = w.chat.account.peers.insert peerId state :=
  rfl

@[simp] lemma World.failed_setPeer (w : World) (peerId : PeerId) (state : PeerState) :
    (w.setPeer peerId state).chat.failed = w.chat.failed := rfl

@[simp] lemma World.identity_setPeer (w : World) (peerId : PeerId) (state : PeerState) :
    (w.setPeer peerId state).chat.account.identity = w.chat.account.identity := rfl

@[simp] lemma World.storage_setPeer (w : World) (peerId : PeerId) (state : PeerState) :
    (w.setPeer peerId state).storage = w.storage := rfl

@[simp] lemma World.history_setPeer (w : World) (peerId : PeerId) (state : PeerState) :
    (w.setPeer peerId state).history = w.history := rfl

lemma World.valid_setPeer {w : World} (h : ValidAccount S.crypto w.chat.account)
    {peerId : PeerId} {state : PeerState} (hstate : ValidPeer S.crypto peerId state) :
    ValidAccount S.crypto (w.setPeer peerId state).chat.account :=
  h.setPeer hstate

/-- The saved ledger knows a peer of a chat that did not fail. -/
lemma Sound.find_saved {w : World} (h : Sound S w) (hf : w.chat.failed = false)
    {peerId : PeerId} {state : PeerState} (hstate : w.peer peerId = some state) :
    (w.savedLedger S).find peerId = some state.ledger := by
  rw [World.savedLedger, h.synced hf, find_ledger]
  exact congrArg (Option.map PeerState.ledger) hstate

/-! ### Sending -/

/-- `encryptFrame` leaves the peers, or makes one frame: the counter of the key in use goes up
by one and the frame gets a receipt. -/
theorem encryptFrame_spec {w : World} (hw : Sound S w) (draw : FrameDraw S.crypto)
    {peerId : PeerId} (kind : Kind) (plaintext : Text)
    (htext : ∀ state, w.peer peerId = some state → MadeText state.mode kind plaintext) :
    ((encryptFrame S draw peerId kind plaintext w).2 = none ∧
      Advance S w (encryptFrame S draw peerId kind plaintext w).1 [] ∧
      (encryptFrame S draw peerId kind plaintext w).1.chat.account.peers =
        w.chat.account.peers ∧
      (encryptFrame S draw peerId kind plaintext w).1.chat.failed = w.chat.failed) ∨
    ∃ state record frame, w.peer peerId = some state ∧
      state.keys.find state.active = some record ∧
      (encryptFrame S draw peerId kind plaintext w).2 = some frame ∧ frame ≠ [] ∧
      w.chat.failed = false ∧ state.mode.keyChanged = false ∧
      Advance S w (encryptFrame S draw peerId kind plaintext w).1
        [.sent peerId kind plaintext state.active (record.sent + 1) state.mode.requested frame] ∧
      (encryptFrame S draw peerId kind plaintext w).1.chat.failed = false ∧
      (encryptFrame S draw peerId kind plaintext w).1.chat.account.peers =
        w.chat.account.peers.insert peerId
          (state.setKey state.active (record.send (digestOf S frame))) := by
  obtain ⟨hentered, hpeers, hfailed, hidentity⟩ := identity_spec hw draw.identity
  have hnone : ((identity S draw.identity w).1, (none : Option Text)).2 = none ∧
      Advance S w (identity S draw.identity w).1 [] ∧
      (identity S draw.identity w).1.chat.account.peers = w.chat.account.peers ∧
      (identity S draw.identity w).1.chat.failed = w.chat.failed :=
    ⟨rfl, hentered, hpeers, hfailed⟩
  unfold encryptFrame
  simp only
  split
  swap
  · exact Or.inl hnone
  rename_i state local' hstate hi
  split
  · exact Or.inl hnone
  rename_i hguard
  simp only [Bool.or_eq_true, Bool.not_eq_true', not_or, Bool.not_eq_false,
    Bool.not_eq_true] at hguard
  split
  · exact Or.inl hnone
  rename_i record hrecord
  split
  · exact Or.inl hnone
  rename_i hmax
  split
  · exact Or.inl hnone
  rename_i frame hseal
  have hf := (hidentity local' hi).1
  have hpeer := hw.valid.peers peerId state hstate
  have hkey := hpeer.keys _ _ hrecord
  have hsound := hentered.sound
  have hnext : ValidPeer S.crypto peerId
      (state.setKey state.active (record.send (digestOf S frame))) :=
    hpeer.setKey (hkey.send (not_le.mp hmax) frame)
  have hvalid := World.valid_setPeer hsound.valid hnext
  have hstate' : (identity S draw.identity w).1.peer peerId = some state := by
    simpa only [World.peer, hpeers] using hstate
  split_ifs with hsaved
  · right
    refine ⟨state, record, frame, hstate, hrecord, rfl, sealFrame_ne_nil hseal, hf, hguard.2, ?_,
      ?_, ?_⟩
    · refine hentered.trans (advance_of_save hsound ((identity S draw.identity w).1.setPeer
        peerId (state.setKey state.active (record.send (digestOf S frame)))) _
        hvalid rfl rfl hsaved ?_)
      have hfind := hsound.find_saved (hfailed.trans hf) hstate'
      rw [World.peers_setPeer, ledger_insert, PeerState.ledger_setKey, ← hsound.synced
        (hfailed.trans hf)]
      have hkeys : state.ledger.keys.find state.ledger.active = some record.ledger := by
        simp [hrecord]
      exact Step.sent hfind hkeys hguard.1 (not_le.mp hmax)
        ⟨record.publicKey, hkey.fingerprint.symm⟩ (htext state hstate)
        ⟨local', record.publicKey, draw.nonce, hseal⟩
    · simp [World.record, hfailed, hf]
    · simp [World.record, hpeers]
  · left
    have hrestored : (save S draw.write ((identity S draw.identity w).1.setPeer peerId
        (state.setKey state.active (record.send (digestOf S frame))))).1.chat.account.peers.insert
        peerId (state.setKey state.active (record.send (digestOf S frame)).unsend) =
        w.chat.account.peers := by
      rw [hkey.unsend_send, PeerState.setKey_find hrecord, save_chat, World.peers_setPeer, hpeers,
        OrdMap.insert_insert]
      exact OrdMap.insert_find hstate
    obtain ⟨hs, hwritten⟩ := save_failed (by simpa using hsaved)
    refine ⟨rfl, ?_, hrestored, by simp [hfailed]⟩
    refine hentered.trans (advance_of_restored hsound ?_ ?_ hs hwritten (by simp))
    · refine ⟨?_, ?_⟩
      · rw [World.identity_setPeer, save_chat, World.identity_setPeer]
        exact hsound.valid.identity
      rw [World.peers_setPeer, hrestored]
      exact hw.valid.peers
    · intro _
      rw [World.peers_setPeer, hrestored, hpeers]
      exact ⟨rfl, hfailed.trans hf⟩

/-- `stateMessage` leaves the peers, or makes one frame of the mode. -/
theorem stateMessage_spec {w : World} (hw : Sound S w) (draw : FrameDraw S.crypto)
    (peerId : PeerId) (enabled : Bool) :
    ((stateMessage S draw peerId enabled w).2 = [] ∧
      Advance S w (stateMessage S draw peerId enabled w).1 [] ∧
      (stateMessage S draw peerId enabled w).1.chat.account.peers = w.chat.account.peers ∧
      (stateMessage S draw peerId enabled w).1.chat.failed = w.chat.failed) ∨
    ∃ state record, w.peer peerId = some state ∧
      state.keys.find state.active = some record ∧ w.chat.failed = false ∧
      state.mode.requested = enabled ∧ (stateMessage S draw peerId enabled w).2 ≠ [] ∧
      Advance S w (stateMessage S draw peerId enabled w).1
        [.sent peerId (if enabled then .on else .off)
          (if enabled then state.mode.challenge else []) state.active (record.sent + 1)
          state.mode.requested (stateMessage S draw peerId enabled w).2] ∧
      (stateMessage S draw peerId enabled w).1.chat.failed = false ∧
      (stateMessage S draw peerId enabled w).1.chat.account.peers =
        w.chat.account.peers.insert peerId (state.setKey state.active
          (record.send (digestOf S (stateMessage S draw peerId enabled w).2))) := by
  have hnone : ((w, ([] : Text)).2 = [] ∧ Advance S w w [] ∧
      w.chat.account.peers = w.chat.account.peers ∧ w.chat.failed = w.chat.failed) :=
    ⟨rfl, Advance.refl hw, rfl, rfl⟩
  cases hstate : w.peer peerId with
  | none =>
    have heq : stateMessage S draw peerId enabled w = (w, []) := by
      simp only [stateMessage, hstate]
    rw [heq]
    exact Or.inl hnone
  | some state =>
    by_cases hguard : state.mode.requested ≠ enabled ∨ state.mode.keyChanged = true
    · have heq : stateMessage S draw peerId enabled w = (w, []) := by
        simp only [stateMessage, hstate, if_pos hguard]
      rw [heq]
      exact Or.inl hnone
    have heq : stateMessage S draw peerId enabled w =
        ((encryptFrame S draw peerId (if enabled then .on else .off)
          (if enabled then state.mode.challenge else []) w).1,
        (encryptFrame S draw peerId (if enabled then .on else .off)
          (if enabled then state.mode.challenge else []) w).2.getD []) := by
      simp only [stateMessage, hstate, if_neg hguard]
    rw [heq]
    obtain ⟨hrequested, -⟩ := not_or.mp hguard
    have htext : ∀ state', w.peer peerId = some state' →
        MadeText state'.mode (if enabled then .on else .off)
          (if enabled then state.mode.challenge else []) := by
      intro state' hstate'
      rw [hstate] at hstate'
      obtain rfl := Option.some.inj hstate'
      cases enabled <;> rfl
    rcases encryptFrame_spec hw draw _ _ htext with ⟨hr, hadvance, hpeers, hfailed⟩ |
      ⟨state', record, frame, hstate', hrecord, hr, hne, hf, -, hadvance, hfailed, hpeers⟩
    · left
      exact ⟨by rw [hr]; rfl, hadvance, hpeers, hfailed⟩
    · right
      rw [hstate] at hstate'
      obtain rfl := Option.some.inj hstate'
      simp only [hr, Option.getD_some]
      exact ⟨state, record, rfl, hrecord, hf, not_not.mp hrequested, hne, hadvance, hfailed,
        hpeers⟩

/-! ### Keys and modes -/

/-- The record of a key is valid after the bytes of the key were written again. -/
lemma validKey_withPublicKey {state : PeerState} {publicKey : Bytes}
    (h : ∀ fingerprint key, state.keys.find fingerprint = some key →
      ValidKey S.crypto fingerprint key)
    (hkey : validPublicKey S.crypto publicKey = true) :
    ∀ fingerprint key, (state.keys.insert (fingerprintFor S.crypto publicKey)
      { (state.keys.find (fingerprintFor S.crypto publicKey)).getD {} with publicKey }).find
        fingerprint = some key → ValidKey S.crypto fingerprint key := by
  intro fingerprint key hfind
  rw [OrdMap.find_insert] at hfind
  split_ifs at hfind with heq
  · obtain rfl := Option.some.inj hfind
    rw [heq]
    cases hold : state.keys.find (fingerprintFor S.crypto publicKey) with
    | none => exact validKey_new hkey
    | some old => exact { h _ _ hold with publicKey := hkey, fingerprint := rfl }
  · exact h fingerprint key hfind

lemma drawChallenge_valid {requested : Bool} {challenge : Option (RandomBytes 16)}
    (h : drawChallenge requested challenge ≠ []) :
    validChallenge (drawChallenge requested challenge) = true := by
  cases requested with
  | false => exact absurd rfl h
  | true => exact validChallenge_of_drawn h

lemma replaceKey_valid {peerId : PeerId} {state : PeerState} {publicKey : Bytes}
    {challenge : Option (RandomBytes 16)}
    (hpos : 0 < peerId.val) (hle : peerId.val ≤ kMaxNumber) (huser : peerIsUser peerId = true)
    (hkeys : ∀ fingerprint key, state.keys.find fingerprint = some key →
      ValidKey S.crypto fingerprint key)
    (hkey : validPublicKey S.crypto publicKey = true)
    (hdrawn : ¬ (state.mode.requested = true ∧
      drawChallenge state.mode.requested challenge = [])) :
    ValidPeer S.crypto peerId (state.replaceKey (fingerprintFor S.crypto publicKey) publicKey
      (drawChallenge state.mode.requested challenge)) where
  id_pos := hpos
  id_le := hle
  isUser := huser
  mode := validMode_requested _ drawChallenge_valid fun hr hnil => hdrawn ⟨hr, hnil⟩
  keys := validKey_withPublicKey hkeys hkey
  active := ⟨_, OrdMap.find_insert_self _ _ _⟩

lemma restoreKey_valid {peerId : PeerId} {state : PeerState} {publicKey : Bytes}
    {challenge : Text} (h : ValidPeer S.crypto peerId state)
    (hkey : validPublicKey S.crypto publicKey = true) :
    ValidPeer S.crypto peerId ((state.replaceKey (fingerprintFor S.crypto publicKey) publicKey
      challenge).restoreKey state (fingerprintFor S.crypto publicKey)) := by
  have hkeys := validKey_withPublicKey h.keys hkey
  refine { h with keys := fun fingerprint key hk => ?_, active := ?_ }
  · unfold PeerState.restoreKey PeerState.replaceKey at hk
    simp only at hk
    split_ifs at hk with hc
    · exact hkeys fingerprint key hk
    · rw [OrdMap.find_erase] at hk
      split_ifs at hk
      exact hkeys fingerprint key hk
  · unfold PeerState.restoreKey PeerState.replaceKey
    simp only
    split_ifs with hc
    · rw [OrdMap.find_insert]
      split_ifs
      · exact ⟨_, rfl⟩
      · exact h.active
    · rw [OrdMap.erase_insert]
      · exact h.active
      · simpa [OrdMap.contains] using hc

lemma chatId_le {peerId : ChatId} : peerId.val.val ≤ kMaxNumber := by
  have := peerId.property
  unfold kMaxNumber
  omega

/-- `replacePeerKey` puts the key in use, or leaves the ledger. -/
theorem replacePeerKey_advance {w : World} (hw : Sound S w) (draw : ReplaceDraw S.crypto)
    (peerId : ChatId) (publicKey : Bytes) :
    AdvanceQuietly S w (replacePeerKey S draw peerId.val publicKey w).1 := by
  obtain ⟨hentered, hpeers, hfailed, hidentity⟩ := identity_spec hw draw.identity
  unfold replacePeerKey
  by_cases hguard : peerId.val.val = 0 ∨ peerIsUser peerId.val = false ∨
      peerToUser peerId.val = S.userId ∨ validPublicKey S.crypto publicKey = false
  · rw [if_pos hguard]
    exact AdvanceQuietly.refl hw
  rw [if_neg hguard]
  simp only
  by_cases hnone : (identity S draw.identity w).2 = none
  · rw [if_pos hnone]
    exact hentered.quietly
  rw [if_neg hnone]
  simp only [not_or, Bool.not_eq_false] at hguard
  obtain ⟨hpos, huser, -, hkey⟩ := hguard
  obtain ⟨local', hi⟩ := Option.ne_none_iff_exists'.mp hnone
  have hf : (identity S draw.identity w).1.chat.failed = false :=
    hfailed.trans (hidentity local' hi).1
  have hsound := hentered.sound
  set entered := (identity S draw.identity w).1
  by_cases hsame : (entered.peer peerId.val).isSome = true ∧
      ((entered.peer peerId.val).getD {}).active = fingerprintFor S.crypto publicKey ∧
      ((entered.peer peerId.val).getD {}).mode.keyChanged = false
  · rw [if_pos hsame]
    exact hentered.quietly
  rw [if_neg hsame]
  set state := (entered.peer peerId.val).getD {} with hstate
  set challenge := drawChallenge state.mode.requested draw.challenge
  set fingerprint := fingerprintFor S.crypto publicKey
  have hkeys : ∀ fingerprint key, state.keys.find fingerprint = some key →
      ValidKey S.crypto fingerprint key := by
    cases hp : entered.peer peerId.val with
    | none => simp [hstate, hp]
    | some peer => rw [hstate, hp]; exact (hsound.valid.peers _ _ hp).keys
  -- what is left when nothing was saved
  have hrestored : ∀ saved : World, saved.chat = (entered.setPeer peerId.val
      (state.replaceKey fingerprint publicKey challenge)).chat →
      saved.storage.saved S = entered.storage.saved S →
      saved.storage.written = entered.storage.written → saved.history = entered.history →
      (entered.peer peerId.val = none → Advance S entered (saved.erasePeer peerId.val) []) ∧
        ∀ previous, entered.peer peerId.val = some previous → Advance S entered (saved.setPeer peerId.val
          ((state.replaceKey fingerprint publicKey challenge).restoreKey previous fingerprint)) [] := by
    intro saved hchat hs hwritten hhistory
    refine ⟨fun hp => ?_, fun previous hp => ?_⟩
    · have hback : (saved.erasePeer peerId.val).chat.account = entered.chat.account := by
        simp only [World.erasePeer, hchat, World.setPeer, Account.setPeer]
        rw [OrdMap.erase_insert hp]
      exact advance_of_restored hsound (hback ▸ hsound.valid)
        (fun _ => ⟨by rw [hback], hf⟩) hs hwritten hhistory
    · have hprevious : state = previous := by rw [hstate, hp]; rfl
      have hpeer := hsound.valid.peers _ _ hp
      rw [← hprevious]
      refine advance_of_restored hsound ⟨?_, ?_⟩ (fun _ => ⟨?_, hf⟩) hs hwritten hhistory
      · rw [World.identity_setPeer, hchat]
        exact hsound.valid.identity
      · intro id peer hfind
        rw [World.peers_setPeer, hchat, World.peers_setPeer, OrdMap.insert_insert,
          OrdMap.find_insert] at hfind
        split_ifs at hfind with heq
        · obtain rfl := Option.some.inj hfind
          rw [heq]
          exact restoreKey_valid (hprevious ▸ hpeer) hkey
        · exact hsound.valid.peers id peer hfind
      · rw [World.peers_setPeer, hchat, World.peers_setPeer, OrdMap.insert_insert, ledger_insert,
          PeerState.ledger_restoreKey, OrdMap.insert_find]
        rw [find_ledger, hprevious]
        exact congrArg (Option.map PeerState.ledger) hp
  by_cases hdrawn : state.mode.requested = true ∧ challenge = []
  · simp only [if_pos hdrawn]
    rw [if_neg (by simp)]
    obtain ⟨herased, hrestored⟩ := hrestored (entered.setPeer peerId.val (state.replaceKey fingerprint
      publicKey challenge)) rfl rfl rfl rfl
    cases hp : entered.peer peerId.val with
    | none => exact (hentered.trans (herased hp)).quietly
    | some previous => exact (hentered.trans (hrestored previous hp)).quietly
  · simp only [if_neg hdrawn]
    split_ifs with hsaved
    · refine (hentered.trans (advance_of_save hsound (entered.setPeer peerId.val
        (state.replaceKey fingerprint publicKey challenge))
        (.trusted peerId.val fingerprint challenge) (World.valid_setPeer
        hsound.valid (replaceKey_valid (Nat.pos_of_ne_zero hpos) chatId_le huser hkeys hkey
          hdrawn)) rfl rfl hsaved ?_)).quietly
      rw [World.peers_setPeer, ledger_insert, PeerState.ledger_replaceKey, ← hsound.synced hf]
      have hledger : state.ledger = ((entered.savedLedger S).find peerId.val).getD {} := by
        rw [World.savedLedger, hsound.synced hf, find_ledger, hstate]
        change _ = ((entered.peer peerId.val).map PeerState.ledger).getD {}
        cases entered.peer peerId.val <;> rfl
      rw [hledger]
      exact Step.trusted
    · obtain ⟨hs, hwritten⟩ := save_failed (by simpa using hsaved)
      obtain ⟨herased, hrestored⟩ := hrestored _ (save_chat _ _) hs hwritten (by simp)
      cases hp : entered.peer peerId.val with
      | none => exact (hentered.trans (herased hp)).quietly
      | some previous => exact (hentered.trans (hrestored previous hp)).quietly

/-- `setPeerKey` puts a first key in use, or leaves the world. -/
theorem setPeerKey_advance {w : World} (hw : Sound S w) (draw : ReplaceDraw S.crypto)
    (peerId : ChatId) (publicKey : Bytes) :
    AdvanceQuietly S w (setPeerKey S draw peerId.val publicKey w).1 := by
  unfold setPeerKey
  cases w.peer peerId.val with
  | some state => exact AdvanceQuietly.refl hw
  | none => exact replacePeerKey_advance hw draw peerId publicKey

/-- A change of the mode of a peer is saved, or taken back. -/
lemma advance_setMode {w : World} (hw : Sound S w) (hf : w.chat.failed = false)
    {outcome : Write} {peerId : PeerId} {state : PeerState} {mode : Mode} {event : Event}
    (hstate : w.peer peerId = some state) (hmode : ValidMode mode)
    (hstep : ∀ l : Ledger, l.find peerId = some state.ledger →
      Step S l event (l.insert peerId { state.ledger with mode }))
    (hsaved : (save S outcome (w.setPeer peerId { state with mode })).2 = true) :
    Advance S w ((save S outcome (w.setPeer peerId { state with mode })).1.record event)
      [event] := by
  have hpeer := hw.valid.peers peerId state hstate
  have hnext : ValidPeer S.crypto peerId { state with mode } := { hpeer with mode := hmode }
  refine advance_of_save hw _ _ (World.valid_setPeer hw.valid hnext) rfl rfl hsaved ?_
  rw [World.peers_setPeer, ledger_insert, ← hw.synced hf]
  exact hstep _ (hw.find_saved hf hstate)

lemma ValidMode.switch {mode : Mode} (value : Bool) {challenge : Option (RandomBytes 16)}
    (hdrawn : ¬ (value = true ∧ drawChallenge value challenge = [])) :
    ValidMode (mode.switch value (drawChallenge value challenge)) :=
  ⟨drawChallenge_valid, fun hr hnil => hdrawn ⟨hr, hnil⟩, fun h => absurd rfl h, by
    simp [Mode.switch]⟩

lemma ValidMode.suspect {mode : Mode} (h : ValidMode mode) : ValidMode mode.suspect :=
  ⟨h.challenge, h.requested, h.lastPeerChallenge, by simp [Mode.suspect]⟩

/-- `setEnabled` switches the mode, or leaves the account. -/
theorem setEnabled_advance {w : World} (hw : Sound S w) (challenge : Option (RandomBytes 16))
    (write : Write) (peerId : PeerId) (value : Bool) :
    AdvanceQuietly S w (setEnabled S challenge write peerId value w).1 := by
  unfold setEnabled
  cases hstate : w.peer peerId with
  | none => exact AdvanceQuietly.refl hw
  | some state =>
    simp only
    by_cases hguard : (w.chat.failed || (value && state.mode.keyChanged)) = true
    · rw [if_pos hguard]
      exact AdvanceQuietly.refl hw
    rw [if_neg hguard]
    simp only [Bool.or_eq_true, not_or, Bool.not_eq_true] at hguard
    -- a change that is taken back leaves the account
    have hrestored : ∀ saved : World, saved.chat = (w.setPeer peerId { state with
        mode := state.mode.switch value (drawChallenge value challenge) }).chat →
        saved.storage.saved S = w.storage.saved S →
        saved.storage.written = w.storage.written → saved.history = w.history →
        Advance S w (saved.setPeer peerId state) [] := by
      intro saved hchat hs hwritten hhistory
      have hback : (saved.setPeer peerId state).chat.account = w.chat.account := by
        simp only [World.setPeer, hchat, Account.setPeer, OrdMap.insert_insert]
        rw [OrdMap.insert_find hstate]
      exact advance_of_restored hw (hback ▸ hw.valid) (fun _ => ⟨by rw [hback], hguard.1⟩) hs
        hwritten hhistory
    by_cases hdrawn : value = true ∧ drawChallenge value challenge = []
    · simp only [if_pos hdrawn]
      exact (hrestored _ rfl rfl rfl rfl).quietly
    · simp only [if_neg hdrawn]
      split_ifs with hsaved
      · refine (advance_setMode hw hguard.1 hstate (ValidMode.switch value hdrawn) ?_
          hsaved).quietly
        exact fun l hl => Step.enabled hl
      · obtain ⟨hs, hwritten⟩ := save_failed (by simpa using hsaved)
        exact (hrestored _ (save_chat _ _) hs hwritten (by simp)).quietly

/-! ### Notices -/

/-- The notice of one's own message has no effect. -/
lemma controlNotice_outgoing (write : Write) (peerId : PeerId) (control : Text) (live : Bool)
    (w : World) : (controlNotice S write peerId control true live w).1 = w := by
  unfold controlNotice
  split
  · cases keyExchangeParts S.crypto control with
    | none => rfl
    | some parts => exact congrArg Prod.fst (if_pos rfl)
  · rfl

/-- `controlNotice` marks the key of the peer as changed, or leaves the world. -/
theorem controlNotice_advance {w : World} (hw : Sound S w) (write : Write) (peerId : PeerId)
    (control : Text) (outgoing live : Bool) :
    AdvanceQuietly S w (controlNotice S write peerId control outgoing live w).1 := by
  have hnone : AdvanceQuietly S w w := AdvanceQuietly.refl hw
  cases outgoing with
  | true => rw [controlNotice_outgoing]; exact hnone
  | false =>
    unfold controlNotice
    split
    swap
    · exact hnone
    split
    · exact hnone
    simp only [Bool.false_eq_true, if_false]
    split
    · exact hnone
    rename_i known hknown
    split
    · exact hnone
    split
    swap
    · exact hnone
    have hsuspect := (hw.valid.peers peerId known hknown).mode.suspect
    split_ifs with hsaved
    · have hpeer := hw.valid.peers peerId known hknown
      have hnext : ValidPeer S.crypto peerId { known with mode := known.mode.suspect } :=
        { hpeer with mode := hsuspect }
      have hf : w.chat.failed = false := by
        simpa using (save_done (World.valid_setPeer hw.valid hnext) hsaved).1
      exact (advance_setMode hw hf hknown hsuspect (fun l hl => Step.suspected hl) hsaved).quietly
    · obtain ⟨hs, hwritten⟩ := save_failed (by simpa using hsaved)
      have hpeer := hw.valid.peers peerId known hknown
      have hnext : ValidPeer S.crypto peerId { known with mode := known.mode.suspect } :=
        { hpeer with mode := hsuspect }
      refine ⟨[], advance_of_restored hw ?_ (fun h => absurd h (by simp [World.fail])) hs hwritten
        (by simp [World.fail]), rfl, rfl⟩
      simpa [World.fail] using World.valid_setPeer hw.valid hnext

/-! ### Loading -/

lemma loadPeerEntry_two (C : Crypto) (a b : Text → Option (RandomBytes 16)) :
    loadPeerEntry C 2 a = loadPeerEntry C 2 b := rfl

/-- The current version needs no challenges. -/
lemma readSnapshot_two {a b : Text → Option (RandomBytes 16)} {document : JObject}
    {account : Account} (h : readSnapshot S a document = some (account, 2)) :
    readSnapshot S b document = some (account, 2) := by
  simp only [readSnapshot, Option.bind_eq_bind, Option.bind_eq_some_iff] at h ⊢
  obtain ⟨decoded, hdecoded, h⟩ := h
  refine ⟨decoded, hdecoded, ?_⟩
  rw [Option.ite_none_left_eq_some] at h ⊢
  obtain ⟨hc, h⟩ := h
  refine ⟨hc, ?_⟩
  simp only [Option.bind_eq_some_iff] at h ⊢
  obtain ⟨read, hread, hsome⟩ := h
  obtain ⟨rfl, hversion⟩ := Prod.mk.inj (Option.some.inj hsome)
  refine ⟨read, ?_, hsome⟩
  rw [hversion] at hread ⊢
  unfold loadState at hread ⊢
  rw [loadPeerEntry_two S.crypto b a]
  exact hread

lemma untouched_of_loadLegacyPeer {challenge : Option (RandomBytes 16)} {object : JObject}
    {peer : PeerState} (h : loadLegacyPeer S.crypto challenge object = some peer) :
    Untouched peer := by
  simp only [loadLegacyPeer, Option.bind_eq_bind, Option.bind_eq_some_iff] at h
  obtain ⟨bytes, -, h⟩ := h
  obtain ⟨-, h⟩ := Option.ite_none_left_eq_some.mp h
  obtain ⟨-, h⟩ := Option.ite_none_left_eq_some.mp h
  obtain rfl := Option.some.inj h
  refine ⟨rfl, fun fingerprint key hk => ?_⟩
  rw [OrdMap.find_insert] at hk
  split_ifs at hk
  · obtain rfl := Option.some.inj hk
    rfl
  · simp at hk

/-- The peers of a state of the first version. -/
lemma untouched_of_loadState {challenges : Text → Option (RandomBytes 16)} {serialized : Bytes}
    {state : JObject} {account : Account}
    (h : loadState S.crypto 1 challenges serialized state = some account) :
    ∀ peerId peer, account.peers.find peerId = some peer → Untouched peer := by
  intro peerId peer hpeer
  unfold loadState at h
  obtain ⟨-, h⟩ := Option.ite_none_left_eq_some.mp h
  obtain ⟨-, h⟩ := Option.ite_none_left_eq_some.mp h
  obtain ⟨peers, hpeers, rfl⟩ := Option.map_eq_some_iff.mp h
  obtain ⟨e, -, he⟩ := MapCodec.exists_entry_of_read hpeers hpeer
  simp only [loadPeerEntry, Option.bind_eq_bind, Option.bind_eq_some_iff] at he
  obtain ⟨n, -, he⟩ := he
  obtain ⟨-, he⟩ := Option.ite_none_left_eq_some.mp he
  rw [if_pos trivial] at he
  obtain ⟨read, hread, hsome⟩ := Option.bind_eq_some_iff.mp he
  obtain ⟨-, rfl⟩ := Prod.mk.inj (Option.some.inj hsome)
  exact untouched_of_loadLegacyPeer hread

/-- What is loaded is the saved account, or stems from a state of the first version. -/
lemma saved_of_loadAccount {challenges : Text → Option (RandomBytes 16)} {storage : Storage}
    {account : Account} {version : ℤ}
    (h : loadAccount S challenges storage = some (account, version)) :
    (version = 2 → storage.saved S = account) ∧
      (version ≠ 2 → storage.saved S = {} ∧
        ∀ peerId peer, account.peers.find peerId = some peer → Untouched peer) := by
  unfold loadAccount at h
  unfold Storage.saved
  cases hs : storage.state with
  | unreadable => simp [hs] at h
  | document document =>
    simp only [hs] at h ⊢
    refine ⟨fun h2 => ?_, fun h2 => ⟨?_, ?_⟩⟩
    · subst h2
      simp [readSnapshot_two h]
    · cases hread : readSnapshot S (fun _ => none) document with
      | none => rfl
      | some r =>
        obtain ⟨a, v⟩ := r
        by_cases hv : v = 2
        · subst hv
          rw [readSnapshot_two hread] at h
          exact absurd (Prod.mk.inj (Option.some.inj h)).2.symm h2
        · simp [hv]
    · simp only [readSnapshot, Option.bind_eq_bind, Option.bind_eq_some_iff] at h
      obtain ⟨decoded, -, h⟩ := h
      obtain ⟨hc, h⟩ := Option.ite_none_left_eq_some.mp h
      obtain ⟨read, hread, hsome⟩ := Option.bind_eq_some_iff.mp h
      obtain ⟨rfl, hversion⟩ := Prod.mk.inj (Option.some.inj hsome)
      simp only [Bool.or_eq_true, not_or, Bool.and_eq_true, decide_eq_true_eq, not_and] at hc
      have hone : Json.asInt (document.find (u "version")) = 1 := by
        by_contra hne
        exact hc.1.1.1 hne (by rw [hversion]; exact h2)
      rw [hone] at hread
      exact untouched_of_loadState hread
  | absent =>
    simp only [hs] at h ⊢
    obtain ⟨-, h⟩ := Option.ite_none_left_eq_some.mp h
    split_ifs at h with hempty
    · obtain ⟨rfl, rfl⟩ := Prod.mk.inj (Option.some.inj h)
      exact ⟨fun _ => rfl, fun h2 => absurd rfl h2⟩
    · obtain ⟨read, hread, hsome⟩ := Option.map_eq_some_iff.mp h
      obtain ⟨rfl, rfl⟩ := Prod.mk.inj hsome
      exact ⟨fun h2 => absurd h2 (by decide), fun _ => ⟨trivial, untouched_of_loadState hread⟩⟩

/-- The constructor takes over the saved account, or the peers of a state of the first version,
or fails closed. -/
theorem load_advance {w : World} (hw : Reopenable S w.storage)
    (challenges : Text → Option (RandomBytes 16)) (outcome : Write) :
    AdvanceQuietly S w (load S challenges outcome w) := by
  unfold load
  cases hl : loadAccount S challenges w.storage with
  | none =>
    exact ⟨[], ⟨⟨validAccount_empty _, by simp, hw⟩, by simp, Trace.nil⟩, rfl, rfl⟩
  | some loaded =>
    obtain ⟨account, version⟩ := loaded
    have hvalid := valid_of_loadAccount _ hl
    obtain ⟨hcurrent, hfirst⟩ := saved_of_loadAccount hl
    simp only
    split_ifs with h2 hsaved
    · refine ⟨[], ⟨⟨hvalid, fun _ => ?_, hw⟩, by simp, Trace.nil⟩, rfl, rfl⟩
      simp only [hcurrent h2]
    · obtain ⟨hempty, huntouched⟩ := hfirst h2
      obtain ⟨-, hs, hre⟩ := save_done (w := { w with chat := { account } }) hvalid hsaved
      refine ⟨[.migrated account.peers], ⟨⟨?_, fun _ => ?_, hre hw⟩, ?_, Trace.single ?_⟩, rfl, rfl⟩
      · simpa [World.record] using hvalid
      · simp [World.record, hs]
      · simp [World.record]
      · have hstep := Step.migrated (S := S) huntouched
        simp only [World.savedLedger, World.record, hs, hempty]
        exact hstep
    · obtain ⟨hs, hwritten⟩ := save_failed (by simpa using hsaved)
      refine ⟨[], ⟨⟨validAccount_empty _, by simp, fun entry hentry => ?_⟩, by simp, ?_⟩, rfl, rfl⟩
      · exact hw entry (hwritten ▸ hentry)
      · simp only [World.savedLedger, hs]
        exact Trace.nil

end E2E
