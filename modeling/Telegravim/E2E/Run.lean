import Telegravim.E2E.Receive

set_option autoImplicit false

/-!
# Encrypted chat: runs of one account

Any sequence of operations of one account, with any random draws and any outcome of every
write, and with restarts that load what is stored. A run starts with the constructor on any
stored state.

## Main definitions

* `E2E.Op`, `E2E.exec`, `E2E.run`, `E2E.frames` — operations, runs, and the frames they return.
* `E2E.start` — the constructor on a stored state.
* `E2E.World.binding` — what a sequence number is bound to.

## Main results

* `E2E.run_snapshot_reopens` — every snapshot of a run is accepted and loaded unchanged.
* `E2E.run_replay_safe` — bindings last, and an envelope takes effect at most once.
* `E2E.run_sequence_unique` — frames for one key of a peer have different sequence numbers.
-/

namespace E2E

open Text

/-- An operation with what it draws and how its writes end. -/
inductive Op (C : Crypto) where
  | publicKey (draw : IdentityDraw C)
  | replacePeerKey (draw : ReplaceDraw C) (peerId : ChatId) (publicKey : Bytes)
  | setPeerKey (draw : ReplaceDraw C) (peerId : ChatId) (publicKey : Bytes)
  | setEnabled (challenge : Option (RandomBytes 16)) (write : Write) (peerId : ChatId)
      (value : Bool)
  | encrypt (draw : FrameDraw C) (peerId : ChatId) (plaintext : Text)
  | stateMessage (draw : FrameDraw C) (peerId : ChatId) (enabled : Bool)
  | controlNotice (write : Write) (peerId : ChatId) (control : Text) (outgoing live : Bool)
  | receive (draw : ReceiveDraw C) (peerId : ChatId) (messageId : MsgId) (outgoing live : Bool)
      (envelope : Text)
  | reopen (challenges : Text → Option (RandomBytes 16)) (write : Write)

/-- What an operation returns. -/
inductive Output where
  | key (bytes : Bytes)
  | flag (done : Bool)
  | frame (peerId : PeerId) (frame : Option Text)
  | state (peerId : PeerId) (text : Text)
  | notice (text : Text)
  | received (peerId : PeerId) (message : Option ReceivedMessage)
  | opened
deriving DecidableEq

/-- The frames in what an operation returned, with their peer. -/
def Output.frames : Output → List (PeerId × Text)
  | .frame peerId result => result.toList.map (Prod.mk peerId)
  | .state peerId text => if text = [] then [] else [(peerId, text)]
  | .received peerId (some message) => message.replies.map (Prod.mk peerId)
  | _ => []

variable (S : Session)

/-- One operation. -/
def exec : Op S.crypto → World → World × Output
  | .publicKey draw, w => ((publicKey S draw w).1, .key (publicKey S draw w).2)
  | .replacePeerKey draw peerId key, w =>
    ((replacePeerKey S draw peerId.val key w).1, .flag (replacePeerKey S draw peerId.val key w).2)
  | .setPeerKey draw peerId key, w =>
    ((setPeerKey S draw peerId.val key w).1, .flag (setPeerKey S draw peerId.val key w).2)
  | .setEnabled challenge write peerId value, w =>
    ((setEnabled S challenge write peerId.val value w).1,
      .flag (setEnabled S challenge write peerId.val value w).2)
  | .encrypt draw peerId plaintext, w =>
    ((encrypt S draw peerId.val plaintext w).1,
      .frame peerId.val (encrypt S draw peerId.val plaintext w).2)
  | .stateMessage draw peerId enabled, w =>
    ((stateMessage S draw peerId.val enabled w).1,
      .state peerId.val (stateMessage S draw peerId.val enabled w).2)
  | .controlNotice write peerId control outgoing live, w =>
    ((controlNotice S write peerId.val control outgoing live w).1,
      .notice (controlNotice S write peerId.val control outgoing live w).2)
  | .receive draw peerId messageId outgoing live envelope, w =>
    ((receive S draw peerId.val messageId outgoing live envelope w).1,
      .received peerId.val (receive S draw peerId.val messageId outgoing live envelope w).2)
  | .reopen challenges write, w => (load S challenges write w, .opened)

/-- The world after a sequence of operations. -/
def run : List (Op S.crypto) → World → World
  | [], w => w
  | op :: ops, w => run ops (exec S op w).1

/-- The frames a sequence of operations returns, in order. -/
def frames : List (Op S.crypto) → World → List (PeerId × Text)
  | [], _ => []
  | op :: ops, w => (exec S op w).2.frames ++ frames ops (exec S op w).1

/-- The constructor on a stored state. -/
def start (state : StateFile) (identityPref : Bytes) (peersPref : Option Json)
    (challenges : Text → Option (RandomBytes 16)) (write : Write) : World :=
  load S challenges write { storage := { state, identityPref, peersPref } }

variable {S}

/-! ### Runs follow the ledger -/

/-- One operation follows the ledger, and its frames are those of its events. -/
lemma exec_advance {w : World} (hw : Sound S w) (op : Op S.crypto) :
    ∃ events, Advance S w (exec S op w).1 events ∧
      (exec S op w).2.frames = events.filterMap Event.made := by
  have quietly : ∀ {w' : World}, AdvanceQuietly S w w' →
      ∃ events, Advance S w w' events ∧
        ([] : List (PeerId × Text)) = events.filterMap Event.made := by
    rintro w' ⟨events, hadvance, hmade, -⟩
    exact ⟨events, hadvance, hmade.symm⟩
  cases op with
  | publicKey draw => exact quietly (identity_spec hw draw).1.quietly
  | replacePeerKey draw peerId key => exact quietly (replacePeerKey_advance hw draw peerId key)
  | setPeerKey draw peerId key => exact quietly (setPeerKey_advance hw draw peerId key)
  | setEnabled challenge write peerId value =>
    exact quietly (setEnabled_advance hw challenge write peerId.val value)
  | controlNotice write peerId control outgoing live =>
    exact quietly (controlNotice_advance hw write peerId.val control outgoing live)
  | reopen challenges write => exact quietly (load_advance hw.reopenable challenges write)
  | encrypt draw peerId plaintext =>
    simp only [exec, encrypt]
    split_ifs with hready
    · rcases encryptFrame_spec hw draw .msg plaintext (fun _ _ => trivial) with
        ⟨hnone, hadvance, -⟩ | ⟨state, record, frame, -, -, hsome, -, -, -, hadvance, -⟩
      · exact ⟨[], hadvance, by simp [hnone, Output.frames]⟩
      · exact ⟨_, hadvance, by simp [hsome, Output.frames, Event.made]⟩
    · exact ⟨[], Advance.refl hw, rfl⟩
  | stateMessage draw peerId enabled =>
    rcases stateMessage_spec hw draw peerId.val enabled with
      ⟨hnone, hadvance, -⟩ | ⟨state, record, -, -, -, -, hne, hadvance, -⟩
    · exact ⟨[], hadvance, by simp [exec, hnone, Output.frames]⟩
    · exact ⟨_, hadvance, by simp [exec, hne, Output.frames, Event.made]⟩
  | receive draw peerId messageId outgoing live envelope =>
    rcases receive_spec hw draw peerId.val messageId outgoing live envelope rfl with ⟨hnone, hadvance, -⟩ |
      ⟨state, record, frame, previous, message, replies, -, hsome, hadvance, hmade, -⟩
    · exact ⟨[], hadvance, by simp only [exec, hnone]; rfl⟩
    · exact ⟨_, hadvance, by simp only [exec, hsome]; exact hmade⟩

/-- A frame that an operation accepts is the one of the envelope it was given, opened with the
identity and the keys of the moment. -/
lemma exec_heard {w : World} (hw : Sound S w) (op : Op S.crypto) {peerId : PeerId}
    {messageId : MsgId} {outgoing effect : Bool} {frame : Frame} {envelope : Text}
    (h : .accepted peerId messageId outgoing effect frame envelope ∈ (exec S op w).1.history) :
    .accepted peerId messageId outgoing effect frame envelope ∈ w.history ∨
      ∃ draw, ∃ id : ChatId, ∃ live state identity,
        op = .receive draw id messageId outgoing live envelope ∧ id.val = peerId ∧
        w.peer peerId = some state ∧ w.chat.account.identity = some identity ∧
        openFrame S identity state.keys (peerToUser peerId) outgoing envelope = some frame := by
  -- events without an accepted frame leave the ones of the past
  have quiet : ∀ {w' : World} {events : List Event}, w'.history = w.history ++ events →
      events.filterMap Event.heard = [] →
      .accepted peerId messageId outgoing effect frame envelope ∈ w'.history →
      .accepted peerId messageId outgoing effect frame envelope ∈ w.history := by
    intro w' events hhistory hheard hmem
    rw [hhistory, List.mem_append] at hmem
    rcases hmem with hmem | hmem
    · exact hmem
    · have := List.filterMap_eq_nil_iff.mp hheard _ hmem
      simp [Event.heard] at this
  have quietly : ∀ {w' : World}, AdvanceQuietly S w w' →
      .accepted peerId messageId outgoing effect frame envelope ∈ w'.history →
      .accepted peerId messageId outgoing effect frame envelope ∈ w.history := by
    rintro w' ⟨events, hadvance, -, hheard⟩
    exact quiet hadvance.history hheard
  cases op with
  | publicKey draw => exact Or.inl (quietly (identity_spec hw draw).1.quietly h)
  | replacePeerKey draw id key => exact Or.inl (quietly (replacePeerKey_advance hw draw id key) h)
  | setPeerKey draw id key => exact Or.inl (quietly (setPeerKey_advance hw draw id key) h)
  | setEnabled challenge write id value =>
    exact Or.inl (quietly (setEnabled_advance hw challenge write id.val value) h)
  | controlNotice write id control direction live =>
    exact Or.inl (quietly (controlNotice_advance hw write id.val control direction live) h)
  | reopen challenges write =>
    exact Or.inl (quietly (load_advance hw.reopenable challenges write) h)
  | encrypt draw id plaintext =>
    simp only [exec, encrypt] at h
    split_ifs at h with hready
    · rcases encryptFrame_spec hw draw .msg plaintext
        (fun _ _ => trivial) with ⟨-, hadvance, -⟩ | ⟨_, _, _, -, -, -, -, -, -, hadvance, -⟩
      · exact Or.inl (quietly hadvance.quietly h)
      · exact Or.inl (quiet hadvance.history rfl h)
    · exact Or.inl h
  | stateMessage draw id enabled =>
    rcases stateMessage_spec hw draw id.val enabled with
      ⟨-, hadvance, -⟩ | ⟨_, _, -, -, -, -, -, hadvance, -⟩
    · exact Or.inl (quietly hadvance.quietly h)
    · exact Or.inl (quiet hadvance.history rfl h)
  | receive draw id messageId' outgoing' live envelope' =>
    rcases receive_spec hw draw id.val messageId' outgoing' live envelope' rfl with
      ⟨-, hadvance, -⟩ | ⟨state, record, frame', previous, message, replies, haccepts, -, hadvance,
        -, hshape, -⟩
    · exact Or.inl (quietly hadvance.quietly h)
    · change _ ∈ (receive S draw id.val messageId' outgoing' live envelope' w).1.history at h
      rw [hadvance.history, List.mem_append, List.mem_cons] at h
      rcases h with h | h | h
      · exact Or.inl h
      · obtain ⟨rfl, rfl, rfl, -, rfl, rfl⟩ := Event.accepted.inj h
        obtain ⟨identity, hidentity, hopen⟩ := haccepts.opened
        exact Or.inr ⟨draw, id, live, state, identity, rfl, rfl, haccepts.peer, hidentity, hopen⟩
      · have := List.filterMap_eq_nil_iff.mp hshape.heard _ h
        simp [Event.heard] at this

/-- A run follows the ledger, and its frames are those of its events. -/
lemma run_advance {w : World} (hw : Sound S w) (ops : List (Op S.crypto)) :
    ∃ events, Advance S w (run S ops w) events ∧
      frames S ops w = events.filterMap Event.made := by
  induction ops generalizing w with
  | nil => exact ⟨[], Advance.refl hw, rfl⟩
  | cons op ops ih =>
    obtain ⟨events, hadvance, hframes⟩ := exec_advance hw op
    obtain ⟨events', hadvance', hframes'⟩ := ih hadvance.sound
    exact ⟨events ++ events', hadvance.trans hadvance', by simp [frames, hframes, hframes']⟩

lemma sound_start (state : StateFile) (identityPref : Bytes) (peersPref : Option Json)
    (challenges : Text → Option (RandomBytes 16)) (write : Write) :
    Sound S (start S state identityPref peersPref challenges write) := by
  have hre : Reopenable S ({ state, identityPref, peersPref } : Storage) := by
    intro entry hentry
    simp at hentry
  obtain ⟨events, hadvance, -⟩ := load_advance
    (w := ({ storage := { state, identityPref, peersPref } } : World)) hre challenges write
  exact hadvance.sound

/-- The constructor neither makes nor accepts a frame. -/
lemma start_history (state : StateFile) (identityPref : Bytes) (peersPref : Option Json)
    (challenges : Text → Option (RandomBytes 16)) (write : Write) :
    (start S state identityPref peersPref challenges write).history.filterMap Event.made = [] ∧
      (start S state identityPref peersPref challenges write).history.filterMap Event.heard =
        [] := by
  have hre : Reopenable S ({ state, identityPref, peersPref } : Storage) := by
    intro entry hentry
    simp at hentry
  obtain ⟨events, hadvance, hmade, hheard⟩ := load_advance
    (w := ({ storage := { state, identityPref, peersPref } } : World)) hre challenges write
  have hhistory : (start S state identityPref peersPref challenges write).history = events :=
    hadvance.history
  rw [hhistory]
  exact ⟨hmade, hheard⟩

/-! ### Snapshots -/

/-- **Every snapshot of a run can be reopened**: the constructor accepts it and gives back the
account it was written from. In every reachable world the account in memory meets the
conditions that are checked. -/
theorem run_snapshot_reopens (S : Session) (state : StateFile) (identityPref : Bytes)
    (peersPref : Option Json) (challenges : Text → Option (RandomBytes 16)) (write : Write)
    (ops : List (Op S.crypto)) :
    ValidAccount S.crypto
        (run S ops (start S state identityPref peersPref challenges write)).chat.account ∧
      ∀ entry ∈ (run S ops (start S state identityPref peersPref challenges
          write)).storage.written,
        ∀ (challenges' : Text → Option (RandomBytes 16)) (write' : Write) (storage : Storage)
          (history : List Event), storage.state = .document entry.2 →
          (load S challenges' write' { storage, history }).chat = { account := entry.1 } := by
  obtain ⟨events, hadvance, -⟩ := run_advance
    (sound_start state identityPref peersPref challenges write) ops
  refine ⟨hadvance.sound.valid, fun entry hentry challenges' write' storage history hstate => ?_⟩
  have hread := hadvance.sound.reopenable entry hentry challenges'
  simp [load, loadAccount, hstate, hread]

/-- **Nothing that was saved of a key is forgotten** later in a run, over failed saves, restarts and other keys: its
counters do not go back, and no receipt is dropped or bound anew. -/
theorem run_extends (S : Session) (state : StateFile) (identityPref : Bytes) (peersPref : Option Json)
    (challenges : Text → Option (RandomBytes 16)) (write : Write) (ops later : List (Op S.crypto)) :
    Extends ((run S ops (start S state identityPref peersPref challenges write)).savedLedger S)
      ((run S later (run S ops (start S state identityPref peersPref challenges write))).savedLedger S) := by
  obtain ⟨_, hadvance, -⟩ := run_advance (sound_start state identityPref peersPref challenges write) ops
  obtain ⟨_, hmore, -⟩ := run_advance hadvance.sound later
  exact extends_of_trace hmore.trace

/-! ### Replay and binding -/

variable (S) in
/-- What the saved state binds a sequence number of a key of a peer to. -/
def World.binding (w : World) (peerId : PeerId) (fingerprint : Text) (outgoing : Bool)
    (sequence : ℕ) : Option Receipt :=
  (recordOf (w.savedLedger S) peerId fingerprint).bind fun record =>
    (record.receipts outgoing).find sequence

/-- The peer's key and the sequence number an envelope names. -/
def envelopeNames (outgoing : Bool) (envelope : Text) : Option (Text × ℕ) :=
  match split envelope 46 with
  | [_, _, _, _, senderKey, recipientKey, sequence, _, _] =>
    (number sequence false).map fun n => (if outgoing then recipientKey else senderKey, n)
  | _ => none

variable (S) in
/-- Whether an operation changes the mode of a peer or returns a frame. -/
def Effective (op : Op S.crypto) (w : World) : Prop :=
  (∃ peerId, ((exec S op w).1.peer peerId).map PeerState.mode ≠
    (w.peer peerId).map PeerState.mode) ∨ (exec S op w).2.frames ≠ []

lemma binding_eq {w : World} {peerId : PeerId} {fingerprint : Text} {record : Key}
    (h : recordOf (w.savedLedger S) peerId fingerprint = some record) (outgoing : Bool)
    (sequence : ℕ) : w.binding S peerId fingerprint outgoing sequence =
      (record.receipts outgoing).find sequence := by
  simp [World.binding, h]

/-- Bindings last along the steps of the ledger. -/
lemma binding_lasts {w w' : World} {events : List Event} (h : Advance S w w' events)
    {peerId : PeerId} {fingerprint : Text} {outgoing : Bool} {sequence : ℕ} {r : Receipt}
    (hr : w.binding S peerId fingerprint outgoing sequence = some r) :
    ∃ r', w'.binding S peerId fingerprint outgoing sequence = some r' ∧ r'.digest = r.digest ∧
      (r.messageId ≠ 0 → r'.messageId = r.messageId) := by
  obtain ⟨record, hrecord, hreceipt⟩ := Option.bind_eq_some_iff.mp hr
  obtain ⟨record', hrecord', hext⟩ := extends_of_trace h.trace _ _ _ hrecord
  obtain ⟨r', hr', hagree⟩ := hext.receipt _ _ _ hreceipt
  exact ⟨r', (binding_eq hrecord' _ _).trans hr', hagree⟩

lemma envelopeNames_of_openFrame {identity : Identity} {keys : OrdMap Text Key} {remoteId : ℕ}
    {outgoing : Bool} {envelope : Text} {frame : Frame}
    (h : openFrame S identity keys remoteId outgoing envelope = some frame) :
    envelopeNames outgoing envelope = some (frame.fingerprint, frame.sequence) := by
  obtain ⟨_, _, _, _, _, _, hsplit, hfingerprint, -, -, -, -, -, hpos, hle⟩ := openFrame_inv h
  simp only [envelopeNames, hsplit, number_decimal hle hpos, hfingerprint, Option.map_some]

/-- The sender of an envelope that opens. -/
lemma sender_of_openFrame {identity identity' : Identity} {keys keys' : OrdMap Text Key}
    {remoteId remoteId' : ℕ} {envelope : Text} {frame frame' : Frame}
    (h : openFrame S identity keys remoteId false envelope = some frame)
    (h' : openFrame S identity' keys' remoteId' false envelope = some frame') :
    remoteId = remoteId' := by
  obtain ⟨_, _, _, _, _, _, hsplit, -⟩ := openFrame_inv h
  obtain ⟨_, _, _, _, _, _, hsplit', -⟩ := openFrame_inv h'
  rw [hsplit] at hsplit'
  simp only [List.cons.injEq, Bool.false_eq_true, if_false] at hsplit'
  exact decimal_injective hsplit'.2.2.1

/-- A frame that is accepted is bound from then on. -/
lemma binding_of_accepted {w w' : World} {peerId : PeerId} {messageId : MsgId}
    {outgoing effect : Bool} {frame : Frame} {envelope : Text} {replies : List Event}
    (h : Advance S w w' (.accepted peerId messageId outgoing effect frame envelope :: replies)) :
    ∃ r, w'.binding S peerId frame.fingerprint outgoing frame.sequence = some r ∧
      r.digest = digestOf S envelope ∧ r.messageId = messageId := by
  obtain ⟨l, hfirst, hrest⟩ := Trace.split (a := [.accepted peerId messageId outgoing effect
    frame envelope]) (b := replies) h.trace
  obtain ⟨l', hl', hstep⟩ := Trace.snoc_inv (a := []) hfirst
  cases Trace.nil_inv hl'
  generalize w.savedLedger S = l' at hstep
  cases hstep with
  | @accepted _ _ state record _ _ live _ _ previous find key _ hpos _ _ =>
    obtain ⟨record', hrecord', hext⟩ := extends_of_trace hrest _ _ _
      (recordOf_accepted l' peerId state record frame outgoing _ _)
    obtain ⟨r, hr, hdigest, hid⟩ := hext.receipt outgoing frame.sequence
      { messageId, digest := digestOf S envelope }
      (by rw [Key.receipts_accept, if_pos rfl, OrdMap.find_insert_self])
    refine ⟨r, (binding_eq hrecord' _ _).trans hr, hdigest, hid fun h0 => ?_⟩
    simp only at h0
    rw [h0] at hpos
    exact absurd hpos (by decide)

/-- A delivery with an effect is that of a frame without a receipt so far. -/
lemma fresh_of_effective {w : World} (hw : Sound S w) {draw : ReceiveDraw S.crypto}
    {peerId : ChatId} {messageId : MsgId} {outgoing live : Bool} {envelope : Text}
    (h : Effective S (.receive draw peerId messageId outgoing live envelope) w) :
    outgoing = false ∧ ∃ identity keys frame,
      openFrame S identity keys (peerToUser peerId.val) false envelope = some frame ∧
      peerIsUser peerId.val = true ∧
      w.binding S peerId.val frame.fingerprint false frame.sequence = none ∧
      ∃ r, (exec S (.receive draw peerId messageId outgoing live envelope) w).1.binding S
        peerId.val frame.fingerprint false frame.sequence = some r := by
  rcases receive_spec hw draw peerId.val messageId outgoing live envelope rfl with ⟨hnone, -, haccount⟩ |
    ⟨state, record, frame, previous, message, replies, haccepts, hsome, hadvance, hmade, hshape,
      hmode⟩
  · exfalso
    rcases h with ⟨id, hid⟩ | hframes
    · exact hid (by simp only [exec, World.peer, haccount])
    · exact hframes (by simp only [exec, hnone]; rfl)
  have heffect : takesEffect state record frame previous.isNone outgoing live = true := by
    by_contra hno
    rcases h with ⟨id, hid⟩ | hframes
    · apply hid
      change ((receive S draw peerId.val messageId outgoing live envelope w).1.peer id).map
        PeerState.mode = _
      rw [hmode, if_neg hno]
      split_ifs with heq
      · rw [heq, haccepts.peer]; rfl
      · rfl
    · apply hframes
      change Output.frames (.received peerId.val (receive S draw peerId.val messageId outgoing
        live envelope w).2) = []
      rw [hsome]
      change message.replies.map (Prod.mk peerId.val) = []
      rw [hmade]
      have hnil : replies = [] := by
        by_contra hne
        exact hno (hshape.effect hne).1
      rw [hnil]; rfl
  obtain ⟨hfresh, -, hout, -⟩ := takesEffect_iff.mp heffect
  subst hout
  obtain ⟨identity, -, hopen⟩ := haccepts.opened
  obtain ⟨hfind, -⟩ := checkReceipt_eq_some haccepts.check
  obtain ⟨r, hr, -⟩ := binding_of_accepted hadvance
  refine ⟨rfl, identity, state.keys, frame, hopen, haccepts.isUser, ?_, r, hr⟩
  have hrecord : recordOf (w.savedLedger S) peerId.val frame.fingerprint = some record.ledger := by
    rw [recordOf_eq (hw.find_saved haccepts.running haccepts.peer)]
    simp [haccepts.key]
  rw [binding_eq hrecord, Key.ledger_receipts, hfind]
  exact Option.isNone_iff_eq_none.mp hfresh

/-- **Replay and binding safety.** In every world a run reaches, and for whatever happens
afterwards: a sequence number of a key of a peer keeps the digest it is bound to, and a message
it is bound to; `receive` returns a message only for an envelope and a message that its
sequence number is bound to afterwards; and of the deliveries of an envelope at most one
changes a mode or returns a frame. -/
theorem run_replay_safe (S : Session) (state : StateFile) (identityPref : Bytes)
    (peersPref : Option Json) (challenges : Text → Option (RandomBytes 16)) (write : Write)
    (past : List (Op S.crypto)) :
    (∀ (later : List (Op S.crypto)) peerId fingerprint outgoing sequence r,
      (run S past (start S state identityPref peersPref challenges write)).binding S peerId
        fingerprint outgoing sequence = some r →
      ∃ r', (run S later (run S past (start S state identityPref peersPref challenges
          write))).binding S peerId fingerprint outgoing sequence = some r' ∧
        r'.digest = r.digest ∧ (r.messageId ≠ 0 → r'.messageId = r.messageId)) ∧
    (∀ draw (peerId : ChatId) messageId outgoing live envelope message,
      (exec S (.receive draw peerId messageId outgoing live envelope)
        (run S past (start S state identityPref peersPref challenges write))).2 =
          .received peerId.val (some message) →
      ∃ fingerprint sequence, envelopeNames outgoing envelope = some (fingerprint, sequence) ∧
        (exec S (.receive draw peerId messageId outgoing live envelope)
          (run S past (start S state identityPref peersPref challenges write))).1.binding S
            peerId.val fingerprint outgoing sequence =
          some { messageId, digest := digestOf S envelope }) ∧
    (∀ draw (peerId : ChatId) messageId outgoing live draw' (peerId' : ChatId) messageId'
        outgoing' live' envelope (between : List (Op S.crypto)),
      Effective S (.receive draw peerId messageId outgoing live envelope)
        (run S past (start S state identityPref peersPref challenges write)) →
      ¬ Effective S (.receive draw' peerId' messageId' outgoing' live' envelope)
        (run S between (exec S (.receive draw peerId messageId outgoing live envelope)
          (run S past (start S state identityPref peersPref challenges write))).1)) := by
  obtain ⟨_, hpast, -⟩ := run_advance
    (sound_start state identityPref peersPref challenges write) past
  set w := run S past (start S state identityPref peersPref challenges write)
  have hw : Sound S w := hpast.sound
  refine ⟨?_, ?_, ?_⟩
  · intro later peerId fingerprint outgoing sequence r hr
    obtain ⟨events, hlater, -⟩ := run_advance hw later
    exact binding_lasts hlater hr
  · intro draw peerId messageId outgoing live envelope message hreceived
    rcases receive_spec hw draw peerId.val messageId outgoing live envelope rfl with ⟨hnone, -⟩ |
      ⟨state, record, frame, previous, message', replies, haccepts, hsome, hadvance, -⟩
    · simp [exec, hnone] at hreceived
    · obtain ⟨identity, -, hopen⟩ := haccepts.opened
      obtain ⟨r, hr, hdigest, hid⟩ := binding_of_accepted hadvance
      refine ⟨frame.fingerprint, frame.sequence, envelopeNames_of_openFrame hopen, hr.trans ?_⟩
      cases r
      simp only at hdigest hid
      rw [hdigest, hid]
  · intro draw peerId messageId outgoing live draw' peerId' messageId' outgoing' live' envelope
      between heffective heffective'
    obtain ⟨-, identity, keys, frame, hopen, huser, -, r, hr⟩ := fresh_of_effective hw heffective
    obtain ⟨_, hfirst, -⟩ := exec_advance hw (.receive draw peerId messageId outgoing live
      envelope)
    obtain ⟨_, hbetween, -⟩ := run_advance hfirst.sound between
    obtain ⟨-, identity', keys', frame', hopen', huser', hnone, -⟩ :=
      fresh_of_effective hbetween.sound heffective'
    have hpeer : peerId = peerId' := peerToUser_inj huser huser' (sender_of_openFrame hopen hopen')
    have hnames := (envelopeNames_of_openFrame hopen).symm.trans (envelopeNames_of_openFrame hopen')
    obtain ⟨hfingerprint, hsequence⟩ := Prod.mk.inj (Option.some.inj hnames)
    obtain ⟨r', hr', -⟩ := binding_lasts hbetween hr
    subst hpeer
    rw [hfingerprint, hsequence, hnone] at hr'
    exact absurd hr' (by simp)

/-! ### Sequence numbers -/

/-- A frame of a run names the key and the number it was made for. -/
lemma frame_of_made {a b : Ledger} {events : List Event} (h : Trace (Step S) a events b)
    {peerId : PeerId} {frame : Text} (hmem : (peerId, frame) ∈ events.filterMap Event.made) :
    ∃ kind plaintext active sequence requested,
      .sent peerId kind plaintext active sequence requested frame ∈ events ∧
      envelopeNames true frame = some (active, sequence) ∧
      ∃ record, recordOf b peerId active = some record ∧ sequence ≤ record.sent := by
  obtain ⟨event, hevent, hmade⟩ := List.mem_filterMap.mp hmem
  obtain ⟨as, bs, l, l', -, -, hstep, hrest⟩ := h.mem hevent
  cases hstep with
  | @sent _ id state record kind plaintext text find key _ hlt hnamed _ hsealed =>
    obtain ⟨hid, htext⟩ := Prod.mk.inj (Option.some.inj hmade)
    subst hid htext
    obtain ⟨publicKey, hactive⟩ := hnamed
    obtain ⟨identity, peerKey, nonce, hseal⟩ := hsealed
    obtain ⟨_, _, hsplit⟩ := split_sealFrame (by
      rw [hactive]; exact not_dot_mem_fingerprintFor _ _) hseal
    obtain ⟨record', hrecord', hext⟩ := extends_of_trace hrest _ _ _
      (recordOf_sent l id state (record.send (digestOf S text)))
    have hle : record.sent + 1 ≤ record'.sent := hext.sent
    refine ⟨kind, plaintext, state.active, record.sent + 1, state.mode.requested, hevent, ?_,
      record', hrecord', hle⟩
    simp only [envelopeNames, hsplit, number_decimal hlt (Nat.succ_pos _), Option.map_some,
      if_true]
  | _ => simp [Event.made] at hmade

/-- The saved account is valid. -/
lemma valid_saved (storage : Storage) : ValidAccount S.crypto (storage.saved S) := by
  unfold Storage.saved
  cases storage.state with
  | document document =>
    simp only
    cases hread : readSnapshot S (fun _ => none) document with
    | none => exact validAccount_empty _
    | some r =>
      rw [Option.elim_some]
      split_ifs
      · exact valid_of_loadAccount { state := .document document } hread
      · exact validAccount_empty _
  | _ => exact validAccount_empty _

lemma sent_le_of_saved {w : World} {peerId : PeerId} {fingerprint : Text} {record : Key}
    (h : recordOf (w.savedLedger S) peerId fingerprint = some record) :
    record.sent ≤ kMaxNumber := by
  obtain ⟨state, hstate, hkey⟩ := Option.bind_eq_some_iff.mp h
  rw [World.savedLedger, find_ledger, Option.map_eq_some_iff] at hstate
  obtain ⟨peer, hpeer, rfl⟩ := hstate
  rw [PeerState.find_keys_ledger, Option.map_eq_some_iff] at hkey
  obtain ⟨key, hkey, rfl⟩ := hkey
  exact (((valid_saved w.storage).peers _ _ hpeer).keys _ _ hkey).sent_le

/-- **Sequence numbers are never reused.** Frames that a run returns for one key of a peer carry
different numbers, none of them above the saved counter of the key, and no counter exceeds the
largest number. -/
theorem run_sequence_unique (S : Session) (state : StateFile) (identityPref : Bytes)
    (peersPref : Option Json) (challenges : Text → Option (RandomBytes 16)) (write : Write)
    (ops : List (Op S.crypto)) :
    (∀ peerId frame frame' fingerprint sequence sequence',
      (peerId, frame) ∈ frames S ops (start S state identityPref peersPref challenges write) →
      (peerId, frame') ∈ frames S ops (start S state identityPref peersPref challenges write) →
      frame ≠ frame' →
      envelopeNames true frame = some (fingerprint, sequence) →
      envelopeNames true frame' = some (fingerprint, sequence') → sequence ≠ sequence') ∧
    (∀ peerId frame,
      (peerId, frame) ∈ frames S ops (start S state identityPref peersPref challenges write) →
      ∃ fingerprint sequence record,
        envelopeNames true frame = some (fingerprint, sequence) ∧
        recordOf ((run S ops (start S state identityPref peersPref challenges
          write)).savedLedger S) peerId fingerprint = some record ∧ sequence ≤ record.sent) ∧
    (∀ peerId fingerprint record,
      recordOf ((run S ops (start S state identityPref peersPref challenges
        write)).savedLedger S) peerId fingerprint = some record → record.sent ≤ 2 ^ 63 - 1) := by
  obtain ⟨events, hadvance, hframes⟩ := run_advance
    (sound_start state identityPref peersPref challenges write) ops
  rw [hframes]
  refine ⟨?_, ?_, fun _ _ _ h => sent_le_of_saved h⟩
  · intro peerId frame frame' fingerprint sequence sequence' hmem hmem' hne hnames hnames' heq
    obtain ⟨kind, plaintext, active, n, requested, hevent, hn, -⟩ :=
      frame_of_made hadvance.trace hmem
    obtain ⟨kind', plaintext', active', n', requested', hevent', hn', -⟩ :=
      frame_of_made hadvance.trace hmem'
    rw [hn] at hnames
    rw [hn'] at hnames'
    obtain ⟨hactive, hn⟩ := Prod.mk.inj (Option.some.inj hnames)
    obtain ⟨hactive', hn'⟩ := Prod.mk.inj (Option.some.inj hnames')
    rw [hactive, hn] at hevent
    rw [hactive', hn'] at hevent'
    have hne' : Event.sent peerId kind plaintext fingerprint sequence requested frame ≠
        .sent peerId kind' plaintext' fingerprint sequence' requested' frame' := fun he => by
      simp only [Event.sent.injEq] at he
      exact hne he.2.2.2.2.2.2
    rcases Trace.rel_or_rel_of_mem (sent_pairwise hadvance.trace) hevent hevent' hne' with h | h
    · exact (h _ _ _ _ _ _ _ _ _ _ _ _ rfl rfl).ne heq
    · exact (h _ _ _ _ _ _ _ _ _ _ _ _ rfl rfl).ne heq.symm
  · intro peerId frame hmem
    obtain ⟨_, _, active, n, _, _, hn, record, hrecord, hle⟩ :=
      frame_of_made hadvance.trace hmem
    exact ⟨active, n, record, hn, hrecord, hle⟩

/-- A draw of a frame that succeeds. -/
def plainDraw : FrameDraw Crypto.plain :=
  { identity := { key := some (plainPair 0), write := .done }
    nonce := some ⟨List.replicate 12 0, length_zeroNonce⟩
    write := .done }

/-- Two peers with one key, and a frame for each of them. -/
def sharedKeyOps : List (Op Crypto.plain) :=
  [.replacePeerKey { identity := plainDraw.identity, challenge := none, write := .done }
      ⟨2, two_isChat⟩ (plainPair 1).val.publicKey,
    .replacePeerKey { identity := plainDraw.identity, challenge := none, write := .done }
      ⟨3, three_isChat⟩ (plainPair 1).val.publicKey,
    .stateMessage plainDraw ⟨2, two_isChat⟩ false,
    .stateMessage plainDraw ⟨3, three_isChat⟩ false]

/-- A frame that `sharedKeyOps` returns, for a recipient. -/
def sharedKeyFrame (recipient : ℕ) : Text :=
  u "TVE2.OFF.1." ++ decimal recipient
    ++ u ".0400000000000000000000000000000000000000000000000000000000000000"
    ++ u ".0401010101010101010101010101010101010101010101010101010101010101"
    ++ u ".1.AAAAAAAAAAAAAAAA.AAAAAAAAAAAAAAAAAAAAAA=="

/-- The local key an envelope of one's own names. -/
def envelopeSender (envelope : Text) : Option Text := (split envelope 46)[4]?

/-- The bytes of the key in use for a peer. -/
def World.peerKey (w : World) (peerId : PeerId) : Option Bytes :=
  (w.peer peerId).bind fun state => (state.keys.find state.active).map Key.publicKey

/-- **Peers that share a key get the same sequence numbers**: across peers, two frames for one
local key and one peer key can carry one number. -/
theorem shared_key_repeats_sequence :
    ¬ ∀ (S : Session) (ops : List (Op S.crypto)) peerId peerId' publicKey frame frame' sequence
        sequence',
      (run S ops (start S .absent [] none (fun _ => none) .done)).peerKey peerId =
        some publicKey →
      (run S ops (start S .absent [] none (fun _ => none) .done)).peerKey peerId' =
        some publicKey →
      (peerId, frame) ∈ frames S ops (start S .absent [] none (fun _ => none) .done) →
      (peerId', frame') ∈ frames S ops (start S .absent [] none (fun _ => none) .done) →
      frame ≠ frame' → envelopeSender frame = envelopeSender frame' →
      envelopeNames true frame = some (fingerprintFor S.crypto publicKey, sequence) →
      envelopeNames true frame' = some (fingerprintFor S.crypto publicKey, sequence') →
      sequence ≠ sequence' := by
  intro h
  have hkeys : (run ⟨Crypto.plain, 1⟩ sharedKeyOps
        (start ⟨Crypto.plain, 1⟩ .absent [] none (fun _ => none) .done)).peerKey 2 =
          some (plainPair 1).val.publicKey ∧
      (run ⟨Crypto.plain, 1⟩ sharedKeyOps
        (start ⟨Crypto.plain, 1⟩ .absent [] none (fun _ => none) .done)).peerKey 3 =
          some (plainPair 1).val.publicKey := by
    decide +kernel
  have hframes : frames ⟨Crypto.plain, 1⟩ sharedKeyOps
      (start ⟨Crypto.plain, 1⟩ .absent [] none (fun _ => none) .done) =
        [(2, sharedKeyFrame 2), (3, sharedKeyFrame 3)] := by
    decide +kernel
  refine h ⟨Crypto.plain, 1⟩ sharedKeyOps 2 3 (plainPair 1).val.publicKey (sharedKeyFrame 2)
    (sharedKeyFrame 3) 1 1 hkeys.1 hkeys.2 (by rw [hframes]; simp) (by rw [hframes]; simp)
    ?_ ?_ ?_ ?_ rfl
  all_goals decide +kernel

end E2E
