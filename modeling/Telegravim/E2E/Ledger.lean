import Telegravim.E2E.Chat
import Telegravim.Foundation.Trace

set_option autoImplicit false

/-!
# Encrypted chat: the ledger

What the saved state means for replay, ordering and readiness: for every peer the key in use,
the mode, and for every key of the peer its counters and receipts. The bytes of the keys play
no part, so the ledger leaves them out and names a key by its fingerprint. A ledger changes by
the events of an account only, one step an event.

## Main definitions

* `E2E.Ledger`, `E2E.ledger` — the ledger, and the ledger of the peers of an account.
* `E2E.Event.made`, `E2E.Event.heard` — the frame an event made or accepted.
* `E2E.Step` — what each event does to the ledger, and when it can happen.
* `E2E.Extends` — no counter went back and no receipt was dropped or bound anew.

## Main results

* `E2E.Step.extends` — every step extends the ledger.
* `E2E.sent_pairwise` — the sequence numbers of the frames made for a key increase.
-/

namespace E2E

open Text

/-! ### Ledgers -/

/-- A key without its bytes. -/
def Key.ledger (key : Key) : Key := { key with publicKey := [] }

/-- A peer without the bytes of its keys. -/
def PeerState.ledger (state : PeerState) : PeerState :=
  { state with keys := state.keys.mapValues fun _ key => key.ledger }

/-- What is known of every peer, without the bytes of the keys. -/
abbrev Ledger := OrdMap PeerId PeerState

/-- The ledger of the peers of an account. -/
def ledger (peers : OrdMap PeerId PeerState) : Ledger :=
  peers.mapValues fun _ state => state.ledger

@[simp] lemma find_ledger (peers : OrdMap PeerId PeerState) (peerId : PeerId) :
    (ledger peers).find peerId = (peers.find peerId).map PeerState.ledger :=
  OrdMap.find_mapValues _ _ _

@[simp] lemma ledger_insert (peers : OrdMap PeerId PeerState) (peerId : PeerId)
    (state : PeerState) : ledger (peers.insert peerId state) =
      (ledger peers).insert peerId state.ledger :=
  OrdMap.mapValues_insert _ _ _ _

namespace PeerState

@[simp] lemma find_keys_ledger (state : PeerState) (fingerprint : Text) :
    state.ledger.keys.find fingerprint = (state.keys.find fingerprint).map Key.ledger :=
  OrdMap.find_mapValues _ _ _

@[simp] lemma ledger_active (state : PeerState) : state.ledger.active = state.active := rfl

@[simp] lemma ledger_mode (state : PeerState) : state.ledger.mode = state.mode := rfl

lemma ledger_setKey (state : PeerState) (fingerprint : Text) (key : Key) :
    (state.setKey fingerprint key).ledger = state.ledger.setKey fingerprint key.ledger := by
  simp [PeerState.ledger, PeerState.setKey]

lemma ledger_replaceKey (state : PeerState) (fingerprint : Text) (publicKey : Bytes)
    (challenge : Text) : (state.replaceKey fingerprint publicKey challenge).ledger =
      state.ledger.replaceKey fingerprint [] challenge := by
  unfold PeerState.replaceKey
  rw [find_keys_ledger]
  simp only [PeerState.ledger, OrdMap.mapValues_insert]
  cases state.keys.find fingerprint <;> rfl

/-- What is left after a replaced key could not be saved has the ledger of before. -/
lemma ledger_restoreKey (state : PeerState) (fingerprint : Text) (publicKey : Bytes)
    (challenge : Text) :
    ((state.replaceKey fingerprint publicKey challenge).restoreKey state fingerprint).ledger =
      state.ledger := by
  unfold PeerState.restoreKey PeerState.replaceKey PeerState.ledger
  congr 1
  cases hk : state.keys.find fingerprint with
  | none =>
    rw [if_neg (by simp [OrdMap.contains, hk]), OrdMap.erase_insert hk]
  | some key =>
    rw [if_pos (by simp [OrdMap.contains, hk]), OrdMap.mapValues_insert, OrdMap.insert_find]
    rw [OrdMap.find_mapValues, hk]
    rfl

end PeerState

@[simp] lemma Key.ledger_receipts (key : Key) (outgoing : Bool) :
    key.ledger.receipts outgoing = key.receipts outgoing := rfl

lemma Key.ledger_accept (key : Key) (frame : Frame) (outgoing effect : Bool)
    (receipt : Receipt) : (key.accept frame outgoing effect receipt).ledger =
      key.ledger.accept frame outgoing effect receipt := by
  cases outgoing <;> cases effect <;> rfl

lemma PeerState.ledger_accept (state : PeerState) (record : Key) (frame : Frame)
    (outgoing effect : Bool) (receipt : Receipt) :
    (state.accept record frame outgoing effect receipt).ledger =
      state.ledger.accept record.ledger frame outgoing effect receipt := by
  unfold PeerState.accept
  rw [← Key.ledger_accept]
  have h := state.ledger_setKey frame.fingerprint (record.accept frame outgoing effect receipt)
  unfold PeerState.ledger PeerState.setKey at h ⊢
  simp only [PeerState.mk.injEq, true_and] at h
  simp [h]

/-! ### Steps -/

/-- A peer nothing was exchanged with. -/
structure Untouched (state : PeerState) : Prop where
  ready : state.mode.ready = false
  key : ∀ fingerprint key, state.keys.find fingerprint = some key →
    key = { publicKey := key.publicKey }

/-- The text of a frame that was made in a mode. -/
def MadeText (mode : Mode) : Kind → Text → Prop
  | .msg, _ => True
  | .on, plaintext => plaintext = mode.challenge
  | .off, plaintext => plaintext = []
  | .ack, plaintext => ∃ challenge, validChallenge challenge = true ∧
      plaintext = challenge ++ if mode.requested then u ":1" else u ":0"

variable (S : Session)

/-- What an event does to the ledger, and when it can happen. -/
inductive Step : Ledger → Event → Ledger → Prop where
  | migrated {peers : OrdMap PeerId PeerState}
      (untouched : ∀ peerId state, peers.find peerId = some state → Untouched state) :
      Step ∅ (.migrated peers) (ledger peers)
  | trusted {l : Ledger} {peerId : PeerId} {fingerprint challenge : Text} :
      Step l (.trusted peerId fingerprint challenge)
        (l.insert peerId (((l.find peerId).getD {}).replaceKey fingerprint [] challenge))
  | enabled {l : Ledger} {peerId : PeerId} {state : PeerState} {value : Bool} {challenge : Text}
      (find : l.find peerId = some state) :
      Step l (.enabled peerId value challenge)
        (l.insert peerId { state with mode := state.mode.switch value challenge })
  | suspected {l : Ledger} {peerId : PeerId} {state : PeerState}
      (find : l.find peerId = some state) :
      Step l (.suspected peerId) (l.insert peerId { state with mode := state.mode.suspect })
  | sent {l : Ledger} {peerId : PeerId} {state : PeerState} {record : Key} {kind : Kind}
      {plaintext frame : Text}
      (find : l.find peerId = some state)
      (key : state.keys.find state.active = some record)
      (isUser : peerIsUser peerId = true)
      (lt_max : record.sent < kMaxNumber)
      (named : ∃ publicKey, state.active = fingerprintFor S.crypto publicKey)
      (text : MadeText state.mode kind plaintext)
      (sealed : ∃ identity peerKey nonce, sealFrame S peerId kind plaintext identity
        state.active peerKey (record.sent + 1) nonce = some frame) :
      Step l (.sent peerId kind plaintext state.active (record.sent + 1) state.mode.requested
          frame)
        (l.insert peerId (state.setKey state.active (record.send (digestOf S frame))))
  | accepted {l : Ledger} {peerId : PeerId} {state : PeerState} {record : Key}
      {messageId : MsgId} {outgoing live : Bool} {frame : Frame} {envelope : Text}
      {previous : Option Receipt}
      (find : l.find peerId = some state)
      (key : state.keys.find frame.fingerprint = some record)
      (isUser : peerIsUser peerId = true)
      (messageId_pos : 0 < messageId.toInt)
      (opened : ∃ identity keys, openFrame S identity keys (peerToUser peerId) outgoing envelope
        = some frame)
      (check : checkReceipt (record.receipts outgoing) frame.sequence (digestOf S envelope)
        messageId = some previous) :
      Step l (.accepted peerId messageId outgoing
          (takesEffect state record frame previous.isNone outgoing live) frame envelope)
        (l.insert peerId (state.accept record frame outgoing
          (takesEffect state record frame previous.isNone outgoing live)
          { messageId, digest := digestOf S envelope }))

/-- The frame an event made, with its peer. -/
def Event.made : Event → Option (PeerId × Text)
  | .sent peerId _ _ _ _ _ frame => some (peerId, frame)
  | _ => none

/-- The message and the envelope an event accepted, with its peer and its direction. -/
def Event.heard : Event → Option (PeerId × MsgId × Bool × Text)
  | .accepted peerId messageId outgoing _ _ envelope => some (peerId, messageId, outgoing, envelope)
  | _ => none

/-! ### Extension -/

/-- A record that went on: counters did not go back, receipts kept their digests and the
messages they were bound to. -/
structure Key.Extends (a b : Key) : Prop where
  sent : a.sent ≤ b.sent
  control : a.control ≤ b.control
  receipt : ∀ outgoing sequence r, (a.receipts outgoing).find sequence = some r →
    ∃ r', (b.receipts outgoing).find sequence = some r' ∧ r'.digest = r.digest ∧
      (r.messageId ≠ 0 → r'.messageId = r.messageId)

lemma Key.Extends.refl (a : Key) : a.Extends a :=
  ⟨le_rfl, le_rfl, fun _ _ r h => ⟨r, h, rfl, fun _ => rfl⟩⟩

lemma Key.Extends.trans {a b c : Key} (h : a.Extends b) (h' : b.Extends c) : a.Extends c where
  sent := h.sent.trans h'.sent
  control := h.control.trans h'.control
  receipt := by
    intro outgoing sequence r hr
    obtain ⟨r', hr', hdigest, hid⟩ := h.receipt outgoing sequence r hr
    obtain ⟨r'', hr'', hdigest', hid'⟩ := h'.receipt outgoing sequence r' hr'
    refine ⟨r'', hr'', hdigest'.trans hdigest, fun hne => ?_⟩
    rw [hid' (by rw [hid hne]; exact hne), hid hne]

/-- The record of a key of a peer. -/
def recordOf (l : Ledger) (peerId : PeerId) (fingerprint : Text) : Option Key :=
  (l.find peerId).bind fun state => state.keys.find fingerprint

/-- A ledger that went on: every record is still there and went on. -/
def Extends (a b : Ledger) : Prop :=
  ∀ peerId fingerprint record, recordOf a peerId fingerprint = some record →
    ∃ record', recordOf b peerId fingerprint = some record' ∧ record.Extends record'

lemma Extends.refl (a : Ledger) : Extends a a :=
  fun _ _ record h => ⟨record, h, Key.Extends.refl record⟩

lemma Extends.trans {a b c : Ledger} (h : Extends a b) (h' : Extends b c) : Extends a c := by
  intro peerId fingerprint record hr
  obtain ⟨record', hr', hext⟩ := h peerId fingerprint record hr
  obtain ⟨record'', hr'', hext'⟩ := h' peerId fingerprint record' hr'
  exact ⟨record'', hr'', hext.trans hext'⟩

lemma recordOf_insert (l : Ledger) (peerId peerId' : PeerId) (state : PeerState)
    (fingerprint : Text) : recordOf (l.insert peerId state) peerId' fingerprint =
      if peerId' = peerId then state.keys.find fingerprint
      else recordOf l peerId' fingerprint := by
  unfold recordOf
  rw [OrdMap.find_insert]
  split_ifs <;> rfl

lemma recordOf_eq {l : Ledger} {peerId : PeerId} {state : PeerState}
    (h : l.find peerId = some state) (fingerprint : Text) :
    recordOf l peerId fingerprint = state.keys.find fingerprint := by
  simp [recordOf, h]

/-- The record of the key in use after a frame was made for it. -/
lemma recordOf_sent (l : Ledger) (peerId : PeerId) (state : PeerState) (record : Key) :
    recordOf (l.insert peerId (state.setKey state.active record)) peerId state.active =
      some record := by
  rw [recordOf_insert, if_pos rfl]
  exact OrdMap.find_insert_self _ _ _

/-- The record of a key after a frame was accepted under it. -/
lemma recordOf_accepted (l : Ledger) (peerId : PeerId) (state : PeerState) (record : Key)
    (frame : Frame) (outgoing effect : Bool) (receipt : Receipt) :
    recordOf (l.insert peerId (state.accept record frame outgoing effect receipt)) peerId
      frame.fingerprint = some (record.accept frame outgoing effect receipt) := by
  rw [recordOf_insert, if_pos rfl]
  exact OrdMap.find_insert_self _ _ _

/-- Replacing a peer extends the ledger when the records of the peer go on. -/
lemma extends_insert {l : Ledger} {peerId : PeerId} {state : PeerState}
    (h : ∀ fingerprint record, recordOf l peerId fingerprint = some record →
      ∃ record', state.keys.find fingerprint = some record' ∧ record.Extends record') :
    Extends l (l.insert peerId state) := by
  intro peerId' fingerprint record hr
  rw [recordOf_insert]
  split_ifs with heq
  · exact h fingerprint record (heq ▸ hr)
  · exact ⟨record, hr, Key.Extends.refl record⟩

/-- Replacing a record of a peer extends the ledger when the record goes on. -/
lemma extends_setKey {l : Ledger} {peerId : PeerId} {state next : PeerState} {fingerprint : Text}
    {record record' : Key} (find : l.find peerId = some state)
    (key : state.keys.find fingerprint = some record) (hext : record.Extends record')
    (hnext : next.keys = (state.setKey fingerprint record').keys) :
    Extends l (l.insert peerId next) := by
  refine extends_insert fun fingerprint' r hr => ?_
  rw [recordOf_eq find] at hr
  rw [hnext, PeerState.setKey, OrdMap.find_insert]
  split_ifs with heq
  · rw [heq, key] at hr
    obtain rfl := Option.some.inj hr
    exact ⟨record', rfl, hext⟩
  · exact ⟨r, hr, Key.Extends.refl r⟩

lemma Key.extends_send (record : Key) (digest : Bytes) : record.Extends (record.send digest) where
  sent := Nat.le_succ _
  control := le_rfl
  receipt := by
    intro outgoing sequence r hr
    refine ⟨r, ?_, rfl, fun _ => rfl⟩
    cases outgoing with
    | false => exact hr
    | true =>
      change (record.outgoing.emplace (record.sent + 1) _).find sequence = some r
      change record.outgoing.find sequence = some r at hr
      rw [OrdMap.find_emplace]
      split_ifs with heq
      · rw [← heq, hr]; rfl
      · exact hr

/-- What the receipt check lets through agrees with the receipt that is there. -/
lemma checkReceipt_eq_some {receipts : OrdMap ℕ Receipt} {sequence : ℕ} {digest : Bytes}
    {messageId : MsgId} {previous : Option Receipt}
    (h : checkReceipt receipts sequence digest messageId = some previous) :
    receipts.find sequence = previous ∧ ∀ r, previous = some r →
      r.digest = digest ∧ (r.messageId ≠ 0 → r.messageId = messageId) := by
  unfold checkReceipt at h
  cases hr : receipts.find sequence with
  | none =>
    simp only [hr, Option.some.injEq] at h
    exact ⟨h, by simp [← h]⟩
  | some r =>
    simp only [hr] at h
    split_ifs at h with hc
    obtain rfl := Option.some.inj h
    simp only [Bool.or_eq_true, Bool.and_eq_true, decide_eq_true_eq, not_or, not_and,
      not_not] at hc
    refine ⟨rfl, fun r' hr' => ?_⟩
    obtain rfl := Option.some.inj hr'
    exact hc

lemma Key.receipts_accept (record : Key) (frame : Frame) (outgoing outgoing' effect : Bool)
    (receipt : Receipt) : (record.accept frame outgoing effect receipt).receipts outgoing' =
      if outgoing' = outgoing then (record.receipts outgoing).insert frame.sequence receipt
      else record.receipts outgoing' := by
  cases outgoing <;> cases outgoing' <;> cases effect <;> rfl

lemma Key.sent_accept (record : Key) (frame : Frame) (outgoing effect : Bool)
    (receipt : Receipt) : (record.accept frame outgoing effect receipt).sent =
      if outgoing then max record.sent frame.sequence else record.sent := by
  cases outgoing <;> cases effect <;> rfl

lemma Key.control_accept (record : Key) (frame : Frame) (outgoing effect : Bool)
    (receipt : Receipt) : (record.accept frame outgoing effect receipt).control =
      if effect then frame.sequence else record.control := by
  cases outgoing <;> cases effect <;> rfl

/-- What a frame that takes effect satisfies. -/
lemma takesEffect_iff {state : PeerState} {record : Key} {frame : Frame}
    {fresh outgoing live : Bool} :
    takesEffect state record frame fresh outgoing live = true ↔
      fresh = true ∧ live = true ∧ outgoing = false ∧ frame.kind ≠ .msg ∧
        frame.fingerprint = state.active ∧ state.mode.keyChanged = false ∧
        record.control < frame.sequence := by
  simp [takesEffect, and_assoc]

lemma Key.extends_accept {state : PeerState} {record : Key} {frame : Frame} {outgoing live : Bool}
    {digest : Bytes} {messageId : MsgId} {previous : Option Receipt}
    (check : checkReceipt (record.receipts outgoing) frame.sequence digest messageId =
      some previous) :
    record.Extends (record.accept frame outgoing
      (takesEffect state record frame previous.isNone outgoing live) { messageId, digest }) where
  sent := by
    rw [Key.sent_accept]
    split_ifs
    · exact le_max_left _ _
    · exact le_rfl
  control := by
    rw [Key.control_accept]
    split_ifs with heffect
    · exact (takesEffect_iff.mp heffect).2.2.2.2.2.2.le
    · exact le_rfl
  receipt := by
    intro outgoing' sequence r hr
    rw [Key.receipts_accept]
    split_ifs with ho
    · subst ho
      rw [OrdMap.find_insert]
      split_ifs with hs
      · obtain ⟨hfind, hagree⟩ := checkReceipt_eq_some check
        obtain ⟨hdigest, hid⟩ := hagree r (by rw [← hfind, ← hs, hr])
        exact ⟨_, rfl, hdigest.symm, fun hne => (hid hne).symm⟩
      · exact ⟨r, hr, rfl, fun _ => rfl⟩
    · exact ⟨r, hr, rfl, fun _ => rfl⟩

variable {S}

/-- **Every step extends the ledger.** -/
theorem Step.extends {a b : Ledger} {event : Event} (h : Step S a event b) : Extends a b := by
  cases h with
  | migrated _ => intro peerId fingerprint record hr; simp [recordOf] at hr
  | @trusted peerId fingerprint challenge =>
    refine extends_insert fun fingerprint' record hr => ?_
    unfold PeerState.replaceKey
    obtain ⟨state, hstate, hkey⟩ := Option.bind_eq_some_iff.mp hr
    simp only [hstate, Option.getD_some, OrdMap.find_insert]
    split_ifs with heq
    · rw [← heq, hkey]
      exact ⟨_, rfl, le_rfl, le_rfl, fun _ _ r h => ⟨r, h, rfl, fun _ => rfl⟩⟩
    · exact ⟨record, hkey, Key.Extends.refl record⟩
  | enabled find =>
    exact extends_insert fun _ record hr => ⟨record, recordOf_eq find _ ▸ hr, Key.Extends.refl _⟩
  | suspected find =>
    exact extends_insert fun _ record hr => ⟨record, recordOf_eq find _ ▸ hr, Key.Extends.refl _⟩
  | sent find key _ _ _ _ _ => exact extends_setKey find key (Key.extends_send _ _) rfl
  | accepted find key _ _ _ check => exact extends_setKey find key (Key.extends_accept check) rfl

lemma extends_of_trace {a b : Ledger} {events : List Event} (h : Trace (Step S) a events b) :
    Extends a b :=
  h.rel Extends.refl (fun _ _ _ => Extends.trans) fun _ _ _ => Step.extends

/-! ### Events of one key -/

/-- **Sequence numbers increase**: of two frames made for the same key of a peer, the later one
has the larger number. -/
theorem sent_pairwise {a b : Ledger} {events : List Event} (h : Trace (Step S) a events b) :
    events.Pairwise fun e e' => ∀ peerId kind plaintext active sequence requested frame
      kind' plaintext' sequence' requested' frame',
      e = .sent peerId kind plaintext active sequence requested frame →
      e' = .sent peerId kind' plaintext' active sequence' requested' frame' →
      sequence < sequence' := by
  -- a step leaves `sent` at least at the number it used, and the next number is above `sent`
  refine Trace.pairwise (P := fun e l => ∀ peerId kind plaintext active sequence requested frame,
    e = .sent peerId kind plaintext active sequence requested frame →
    ∃ record, recordOf l peerId active = some record ∧ sequence ≤ record.sent) ?_ ?_ ?_ h
  · intro a e b hstep peerId kind plaintext active sequence requested frame he
    cases hstep with
    | @sent _ _ state record _ _ _ find key _ _ _ _ _ =>
      cases he
      exact ⟨record.send (digestOf S frame), recordOf_sent _ _ _ _, le_rfl⟩
    | _ => simp at he
  · intro past a e b hpast hstep peerId kind plaintext active sequence requested frame he
    obtain ⟨record, hr, hle⟩ := hpast _ _ _ _ _ _ _ he
    obtain ⟨record', hr', hext⟩ := hstep.extends _ _ _ hr
    exact ⟨record', hr', hle.trans hext.sent⟩
  · intro past a e b hpast hstep peerId kind plaintext active sequence requested frame kind'
      plaintext' sequence' requested' frame' he he'
    obtain ⟨record, hr, hle⟩ := hpast _ _ _ _ _ _ _ he
    cases hstep with
    | sent find key _ _ _ _ _ =>
      cases he'
      rw [recordOf_eq find, key] at hr
      obtain rfl := Option.some.inj hr
      exact Nat.lt_succ_of_le hle
    | _ => simp at he'

end E2E
