import Telegravim.E2E.Run

set_option autoImplicit false

/-!
# Encrypted chat: readiness is confirmed by the other side

Two accounts with a network between them that drops, repeats, delays, reorders and replays
envelopes and delivers them live or as history. An envelope that one side opens under a key of
the other was made by the other. Whenever one side is ready, the other made the acknowledgment
of the current challenge while it had requested encryption itself, and nothing that withdraws
the confirmation was applied since.

## Main definitions

* `E2E.ReadyInv` — along the events of an account, what readiness and `control` stand for.
* `E2E.Pair`, `E2E.PairStep`, `E2E.Genuine` — two accounts, their steps, and unforgeability.

## Main results

* `E2E.readyInv_of_trace` — readiness stems from an applied acknowledgment.
* `E2E.ready_confirmed` — the acknowledgment was made by the other side.
-/

namespace E2E

open Text

variable {S : Session}

/-! ### Acknowledgments -/

lemma ackChallenge_append (challenge : Text) (confirms : Bool) :
    ackChallenge (challenge ++ if confirms then u ":1" else u ":0") = challenge := by
  have hlen : (if confirms then u ":1" else u ":0").length = 2 := by cases confirms <;> rfl
  unfold ackChallenge
  rw [List.length_append, hlen, Nat.add_sub_cancel, List.take_left]

lemma ackConfirms_append (challenge : Text) (confirms : Bool) :
    ackConfirms (challenge ++ if confirms then u ":1" else u ":0") = confirms := by
  unfold ackConfirms
  cases confirms
  · simp [show u ":0" = [58, 48] from rfl]
  · simp [show u ":1" = [58, 49] from rfl]

/-! ### Readiness along the events of one account -/

/-- A frame under a key of a peer took effect. -/
def Applied (events : List Event) (peerId : PeerId) (fingerprint : Text) (frame : Frame)
    (envelope : Text) : Prop :=
  frame.fingerprint = fingerprint ∧
    ∃ messageId, .accepted peerId messageId false true frame envelope ∈ events

/-- A frame withdraws the confirmation of a challenge. -/
def Withdraws (challenge : Text) (frame : Frame) : Prop :=
  frame.kind = .off ∨ frame.kind = .ack ∧ frame.plaintext = challenge ++ u ":0"

/-- A ready mode goes back to an acknowledgment of its challenge, and no later frame withdrew
it. -/
structure Confirmed (events : List Event) (peerId : PeerId) (state : PeerState) : Prop where
  requested : state.mode.requested = true
  ack : ∃ frame envelope, Applied events peerId state.active frame envelope ∧
    frame.kind = .ack ∧ ackChallenge frame.plaintext = state.mode.challenge ∧
    ackConfirms frame.plaintext = true ∧
    ∀ frame' envelope', Applied events peerId state.active frame' envelope' →
      Withdraws state.mode.challenge frame' → frame'.sequence ≤ frame.sequence

/-- **What readiness and `control` stand for**, along the events of an account. -/
structure ReadyInv (events : List Event) (l : Ledger) : Prop where
  confirmed : ∀ peerId state, l.find peerId = some state → state.mode.ready = true →
    Confirmed events peerId state
  control : ∀ peerId fingerprint frame envelope, Applied events peerId fingerprint frame envelope →
    ∃ record, recordOf l peerId fingerprint = some record ∧ frame.sequence ≤ record.control

lemma Applied.mono {events : List Event} {event : Event} {peerId : PeerId} {fingerprint : Text}
    {frame : Frame} {envelope : Text} (h : Applied events peerId fingerprint frame envelope) :
    Applied (events ++ [event]) peerId fingerprint frame envelope :=
  ⟨h.1, h.2.imp fun _ hmem => List.mem_append_left _ hmem⟩

/-- A frame that took effect did so before, or by the last event. -/
lemma applied_append {events : List Event} {event : Event} {peerId : PeerId} {fingerprint : Text}
    {frame : Frame} {envelope : Text}
    (h : Applied (events ++ [event]) peerId fingerprint frame envelope) :
    Applied events peerId fingerprint frame envelope ∨ frame.fingerprint = fingerprint ∧
      ∃ messageId, event = .accepted peerId messageId false true frame envelope := by
  obtain ⟨hfingerprint, messageId, hmem⟩ := h
  rcases List.mem_append.mp hmem with hmem | hmem
  · exact Or.inl ⟨hfingerprint, messageId, hmem⟩
  · exact Or.inr ⟨hfingerprint, messageId, (List.mem_singleton.mp hmem).symm⟩

/-- A confirmation lasts while the key, the challenge and the request do, and the last event
does not withdraw it. -/
lemma Confirmed.mono {events : List Event} {event : Event} {peerId : PeerId}
    {state next : PeerState} (h : Confirmed events peerId state)
    (hactive : next.active = state.active) (hchallenge : next.mode.challenge = state.mode.challenge)
    (hrequested : next.mode.requested = state.mode.requested)
    (hevent : ∀ messageId frame envelope, frame.fingerprint = state.active →
      event = .accepted peerId messageId false true frame envelope →
      ¬ Withdraws state.mode.challenge frame) :
    Confirmed (events ++ [event]) peerId next := by
  obtain ⟨hreq, frame, envelope, happlied, hkind, hack, hconfirms, hlater⟩ := h
  refine ⟨hrequested.trans hreq, frame, envelope, ?_, hkind, hack.trans hchallenge.symm, hconfirms,
    ?_⟩
  · rw [hactive]; exact happlied.mono
  · intro frame' envelope' happlied' hwithdraws
    rw [hchallenge] at hwithdraws
    rw [hactive] at happlied'
    rcases applied_append happlied' with hbefore | ⟨hfingerprint, messageId, heq⟩
    · exact hlater frame' envelope' hbefore hwithdraws
    · exact absurd hwithdraws (hevent messageId frame' envelope' hfingerprint heq)

/-- An event that accepts nothing keeps the confirmations of the peers it leaves. -/
lemma ReadyInv.confirmed_of_other {events : List Event} {event : Event} {l : Ledger}
    (h : ReadyInv events l) {peerId : PeerId} {state next : PeerState}
    (hfind : l.find peerId = some state)
    (hready : next.mode.ready = true → state.mode.ready = true)
    (hactive : next.active = state.active) (hchallenge : next.mode.challenge = state.mode.challenge)
    (hrequested : next.mode.requested = state.mode.requested)
    (hevent : ∀ messageId frame envelope,
      event ≠ .accepted peerId messageId false true frame envelope)
    (hnext : next.mode.ready = true) : Confirmed (events ++ [event]) peerId next :=
  (h.confirmed peerId state hfind (hready hnext)).mono hactive hchallenge hrequested
    fun messageId frame envelope _ heq => absurd heq (hevent messageId frame envelope)

/-- What applying a control frame does to a confirmation. -/
lemma confirmed_of_accepted {events : List Event} {l : Ledger} (h : ReadyInv events l)
    {peerId : PeerId} {state : PeerState} {record : Key} {messageId : MsgId} {live : Bool}
    {frame : Frame} {envelope : Text} {previous : Option Receipt} {receipt : Receipt}
    (hfind : l.find peerId = some state)
    (hkey : state.keys.find frame.fingerprint = some record)
    (heffect : takesEffect state record frame previous.isNone false live = true)
    (hready : (state.accept record frame false true receipt).mode.ready = true) :
    Confirmed (events ++ [.accepted peerId messageId false true frame envelope]) peerId
      (state.accept record frame false true receipt) := by
  obtain ⟨-, -, -, hmsg, hactive, -, hlt⟩ := takesEffect_iff.mp heffect
  have hmode : (state.accept record frame false true receipt).mode =
      applyControl frame.kind frame.plaintext state.mode := rfl
  -- frames applied so far stand below this one
  have hbelow : ∀ frame' envelope', Applied events peerId state.active frame' envelope' →
      frame'.sequence ≤ frame.sequence := by
    intro frame' envelope' happlied
    obtain ⟨record', hrecord', hle⟩ := h.control _ _ _ _ happlied
    rw [recordOf_eq hfind, ← hactive, hkey] at hrecord'
    obtain rfl := Option.some.inj hrecord'
    exact hle.trans hlt.le
  cases hkind : frame.kind with
  | msg => exact absurd hkind hmsg
  | off =>
    rw [hmode, hkind] at hready
    exact absurd hready (by simp [applyControl])
  | on =>
    rw [hmode, hkind] at hready
    refine (h.confirmed peerId state hfind hready).mono rfl ?_ ?_ ?_
    · rw [hmode, hkind]; rfl
    · rw [hmode, hkind]; rfl
    · rintro messageId' frame' envelope' - heq hwithdraws
      obtain ⟨-, -, -, -, rfl, -⟩ := Event.accepted.inj heq
      rcases hwithdraws with hoff | ⟨hack, -⟩
      · rw [hkind] at hoff; exact absurd hoff (by decide)
      · rw [hkind] at hack; exact absurd hack (by decide)
  | ack =>
    rw [hmode, hkind] at hready
    by_cases hmatch : (state.mode.requested &&
        decide (ackChallenge frame.plaintext = state.mode.challenge)) = true
    · have happly : applyControl .ack frame.plaintext state.mode =
          { state.mode with ready := ackConfirms frame.plaintext } := by
        simp only [applyControl, hmatch, if_true]
      rw [happly] at hready
      obtain ⟨hrequested, hchallenge⟩ : state.mode.requested = true ∧
          ackChallenge frame.plaintext = state.mode.challenge := by simpa using hmatch
      refine ⟨?_, frame, envelope, ⟨hactive, messageId, by simp⟩, hkind, ?_, hready, ?_⟩
      · rw [hmode, hkind, happly]; exact hrequested
      · rw [hmode, hkind, happly]; exact hchallenge
      · intro frame' envelope' happlied' _
        rcases applied_append happlied' with hbefore | ⟨-, messageId', heq⟩
        · exact hbelow frame' envelope' hbefore
        · obtain ⟨-, -, -, -, rfl, -⟩ := Event.accepted.inj heq
          exact le_rfl
    · have happly : applyControl .ack frame.plaintext state.mode = state.mode := by
        simp only [applyControl, hmatch, Bool.false_eq_true, if_false]
      rw [happly] at hready
      have hconfirmed := h.confirmed peerId state hfind hready
      refine hconfirmed.mono rfl ?_ ?_ ?_
      · rw [hmode, hkind, happly]
      · rw [hmode, hkind, happly]
      · rintro messageId' frame' envelope' - heq hwithdraws
        obtain ⟨-, -, -, -, rfl, -⟩ := Event.accepted.inj heq
        rcases hwithdraws with hoff | ⟨-, hplaintext⟩
        · rw [hkind] at hoff; exact absurd hoff (by decide)
        · apply hmatch
          have hack := ackChallenge_append state.mode.challenge false
          simp only [Bool.false_eq_true, if_false] at hack
          simp [hconfirmed.requested, hplaintext, hack]

/-- **One event keeps what readiness and `control` stand for.** -/
lemma ReadyInv.step {events : List Event} {l l' : Ledger} {event : Event}
    (h : ReadyInv events l) (hstep : Step S l event l') : ReadyInv (events ++ [event]) l' := by
  refine ⟨fun peerId next hfind hready => ?_, fun peerId fingerprint frame envelope happlied => ?_⟩
  · cases hstep with
    | migrated untouched =>
      rw [find_ledger, Option.map_eq_some_iff] at hfind
      obtain ⟨state, hstate, rfl⟩ := hfind
      have := (untouched peerId state hstate).ready
      rw [PeerState.ledger_mode, this] at hready
      exact absurd hready (by simp)
    | trusted =>
      rw [OrdMap.find_insert] at hfind
      split_ifs at hfind with heq
      · obtain rfl := Option.some.inj hfind
        exact absurd hready (by simp [PeerState.replaceKey])
      · exact h.confirmed_of_other hfind (fun h => h) rfl rfl rfl (by simp) hready
    | enabled find =>
      rw [OrdMap.find_insert] at hfind
      split_ifs at hfind with heq
      · obtain rfl := Option.some.inj hfind
        exact absurd hready (by simp [Mode.switch])
      · exact h.confirmed_of_other hfind (fun h => h) rfl rfl rfl (by simp) hready
    | suspected find =>
      rw [OrdMap.find_insert] at hfind
      split_ifs at hfind with heq
      · obtain rfl := Option.some.inj hfind
        exact absurd hready (by simp [Mode.suspect])
      · exact h.confirmed_of_other hfind (fun h => h) rfl rfl rfl (by simp) hready
    | sent find key _ _ _ _ _ =>
      rw [OrdMap.find_insert] at hfind
      split_ifs at hfind with heq
      · obtain rfl := Option.some.inj hfind
        rw [heq]
        exact h.confirmed_of_other find (fun h => h) rfl rfl rfl (by simp) hready
      · exact h.confirmed_of_other hfind (fun h => h) rfl rfl rfl (by simp) hready
    | @accepted _ id state record messageId outgoing live frame envelope previous find key _ _ _
        check =>
      rw [OrdMap.find_insert] at hfind
      split_ifs at hfind with heq
      · obtain rfl := Option.some.inj hfind
        rw [heq]
        by_cases heffect : takesEffect state record frame previous.isNone outgoing live = true
        · obtain ⟨-, -, hout, -⟩ := takesEffect_iff.mp heffect
          subst hout
          rw [heffect] at hready ⊢
          exact confirmed_of_accepted h find key heffect hready
        · rw [Bool.not_eq_true] at heffect
          rw [heffect] at hready ⊢
          exact h.confirmed_of_other find (fun h => h) rfl rfl rfl (by simp) hready
      · refine h.confirmed_of_other hfind (fun h => h) rfl rfl rfl ?_ hready
        intro messageId' frame' envelope' heq'
        exact heq (Event.accepted.inj heq').1.symm
  · rcases applied_append happlied with hbefore | ⟨hfingerprint, messageId, heq⟩
    · obtain ⟨record, hrecord, hle⟩ := h.control _ _ _ _ hbefore
      obtain ⟨record', hrecord', hext⟩ := hstep.extends _ _ _ hrecord
      exact ⟨record', hrecord', hle.trans hext.control⟩
    · subst heq
      generalize he : Event.accepted peerId messageId false true frame envelope = event at hstep
      cases hstep with
      | @accepted _ id state record messageId' outgoing live frame' envelope' previous find key =>
        obtain ⟨rfl, rfl, rfl, heffect, rfl, rfl⟩ := Event.accepted.inj he
        rw [← hfingerprint]
        refine ⟨_, recordOf_accepted _ _ _ _ _ _ _ _, ?_⟩
        rw [Key.control_accept, ← heffect, if_pos rfl]
      | _ => simp at he

/-- Readiness along the events of an account that was not ready at first. -/
theorem readyInv_of_trace {l l' : Ledger} {events : List Event}
    (hinit : ∀ peerId state, l.find peerId = some state → state.mode.ready = false)
    (h : Trace (Step S) l events l') : ReadyInv events l' := by
  refine h.invariant ⟨fun peerId state hfind hready => ?_, ?_⟩ fun _ _ _ _ => ReadyInv.step
  · rw [hinit peerId state hfind] at hready
    exact absurd hready (by simp)
  · rintro peerId fingerprint frame envelope ⟨-, messageId, hmem⟩
    simp at hmem

/-! ### Two accounts -/

/-- Two accounts. -/
structure Pair where
  left : World
  right : World

/-- The two ends of a conversation: the library, the users, and the keys that are the right
side's. -/
structure Ends where
  crypto : Crypto
  leftId : ℕ
  rightId : ℕ
  rightOwns : Text → Prop

def Ends.left (E : Ends) : Session := ⟨E.crypto, E.leftId⟩

def Ends.right (E : Ends) : Session := ⟨E.crypto, E.rightId⟩

/-- A frame was made by a world. -/
def World.Made (w : World) (envelope : Text) : Prop :=
  ∃ peerId kind plaintext active sequence requested,
    .sent peerId kind plaintext active sequence requested envelope ∈ w.history

/-- **Unforgeability** for the left side: an envelope it is given as one of the right user, that
opens under a key of the right side, was made by the right side. -/
def Genuine (E : Ends) (p : Pair) (op : Op E.crypto) : Prop :=
  ∀ draw (peerId : ChatId) messageId live envelope,
    op = .receive draw peerId messageId false live envelope →
    peerToUser peerId.val = E.rightId →
    ∀ state identity frame, p.left.peer peerId.val = some state →
      p.left.chat.account.identity = some identity →
      openFrame E.left identity state.keys E.rightId false envelope = some frame →
      E.rightOwns frame.fingerprint → p.right.Made envelope

/-- One operation of either side. -/
inductive PairStep (E : Ends) : Pair → Pair → Prop where
  | left {p : Pair} (op : Op E.crypto) (genuine : Genuine E p op) :
      PairStep E p { p with left := (exec E.left op p.left).1 }
  | right {p : Pair} (op : Op E.crypto) :
      PairStep E p { p with right := (exec E.right op p.right).1 }

/-- The invariant of two accounts: both follow their ledgers, and what the left side accepted
under a key of the right side was made there. -/
structure PairInv (E : Ends) (p₀ p : Pair) : Prop where
  left : ∃ events, Advance E.left p₀.left p.left events
  right : ∃ events, Advance E.right p₀.right p.right events
  made : ∀ peerId messageId effect frame envelope, peerToUser peerId = E.rightId →
    E.rightOwns frame.fingerprint →
    .accepted peerId messageId false effect frame envelope ∈ p.left.history →
    p.right.Made envelope

lemma World.Made.advance {w w' : World} {events : List Event} {envelope : Text}
    (h : w.Made envelope) (hadvance : Advance S w w' events) : w'.Made envelope := by
  obtain ⟨peerId, kind, plaintext, active, sequence, requested, hmem⟩ := h
  refine ⟨peerId, kind, plaintext, active, sequence, requested, ?_⟩
  rw [hadvance.history]
  exact List.mem_append_left _ hmem

/-- **One operation keeps the invariant of two accounts.** -/
lemma PairInv.step {E : Ends} {p₀ p p' : Pair} (h : PairInv E p₀ p) (hstep : PairStep E p p') :
    PairInv E p₀ p' := by
  obtain ⟨⟨_, hleft⟩, ⟨_, hright⟩, hmade⟩ := h
  cases hstep with
  | left op genuine =>
    obtain ⟨_, hnext, -⟩ := exec_advance hleft.sound op
    refine ⟨⟨_, hleft.trans hnext⟩, ⟨_, hright⟩, ?_⟩
    intro peerId messageId effect frame envelope huser howns hmem
    rcases exec_heard hleft.sound op hmem with hbefore |
      ⟨draw, id, live, state, identity, hop, rfl, hstate, hidentity, hopen⟩
    · exact hmade peerId messageId effect frame envelope huser howns hbefore
    · rw [huser] at hopen
      exact genuine draw id messageId live envelope hop huser state identity frame hstate hidentity
        hopen howns
  | right op =>
    obtain ⟨_, hnext, -⟩ := exec_advance hright.sound op
    refine ⟨⟨_, hleft⟩, ⟨_, hright.trans hnext⟩, ?_⟩
    intro peerId messageId effect frame envelope huser howns hmem
    exact (hmade peerId messageId effect frame envelope huser howns hmem).advance hnext

/-- What an event of a trace was made of. -/
lemma sent_of_mem {a b : Ledger} {events : List Event} (h : Trace (Step S) a events b)
    {peerId : PeerId} {kind : Kind} {plaintext active frame : Text} {sequence : ℕ}
    {requested : Bool}
    (hmem : .sent peerId kind plaintext active sequence requested frame ∈ events) :
    (46 : UInt16) ∉ active ∧
      (∃ identity peerKey nonce,
        sealFrame S peerId kind plaintext identity active peerKey sequence nonce = some frame) ∧
      ∃ mode : Mode, mode.requested = requested ∧ MadeText mode kind plaintext := by
  obtain ⟨_, _, l, l', -, -, hstep, -⟩ := h.mem hmem
  generalize he : Event.sent peerId kind plaintext active sequence requested frame = event at hstep
  cases hstep with
  | @sent _ id state record kind' plaintext' frame' find key _ _ named text sealed =>
    obtain ⟨rfl, rfl, rfl, rfl, rfl, rfl, rfl⟩ := Event.sent.inj he
    obtain ⟨publicKey, hactive⟩ := named
    exact ⟨hactive ▸ not_dot_mem_fingerprintFor _ _, sealed, state.mode, rfl, text⟩
  | _ => simp at he

/-- What an accepted event was opened from. -/
lemma opened_of_mem {a b : Ledger} {events : List Event} (h : Trace (Step S) a events b)
    {peerId : PeerId} {messageId : MsgId} {outgoing effect : Bool} {frame : Frame}
    {envelope : Text} (hmem : .accepted peerId messageId outgoing effect frame envelope ∈ events) :
    ∃ identity keys,
      openFrame S identity keys (peerToUser peerId) outgoing envelope = some frame := by
  obtain ⟨_, _, l, l', -, -, hstep, -⟩ := h.mem hmem
  generalize he : Event.accepted peerId messageId outgoing effect frame envelope = event at hstep
  cases hstep with
  | accepted find key _ _ opened =>
    obtain ⟨rfl, rfl, rfl, -, rfl, rfl⟩ := Event.accepted.inj he
    exact opened
  | _ => simp at he

/-- The text of an acknowledgment consists of ASCII characters. -/
lemma ack_ascii {challenge : Text} (h : validChallenge challenge = true) (confirms : Bool) :
    ∀ c ∈ challenge ++ (if confirms then u ":1" else u ":0"), c < 128 := by
  intro c hc
  rcases List.mem_append.mp hc with hc | hc
  · exact lt_128_of_validChallenge h hc
  · cases confirms
    · exact of_decide_eq_true (List.all_eq_true.mp (by decide : (u ":0").all (· < 128) = true) c hc)
    · exact of_decide_eq_true (List.all_eq_true.mp (by decide : (u ":1").all (· < 128) = true) c hc)

/-- The invariant of two accounts holds in every state they reach. -/
lemma pairInv_of_reachable {E : Ends} {p₀ p : Pair} (hleft : Sound E.left p₀.left)
    (hright : Sound E.right p₀.right) (hheard : p₀.left.history.filterMap Event.heard = [])
    (h : Relation.ReflTransGen (PairStep E) p₀ p) : PairInv E p₀ p := by
  induction h with
  | refl =>
    refine ⟨⟨[], Advance.refl hleft⟩, ⟨[], Advance.refl hright⟩, ?_⟩
    intro peerId messageId effect frame envelope _ _ hmem
    have := List.filterMap_eq_nil_iff.mp hheard _ hmem
    simp [Event.heard] at this
  | tail _ hstep ih => exact ih.step hstep

/-- A frame that took effect since the start is among the events. -/
lemma applied_of_history {past events history : List Event} (hhistory : history = past ++ events)
    (hpast : past.filterMap Event.heard = []) {peerId : PeerId} {messageId : MsgId}
    {frame : Frame} {envelope : Text}
    (hmem : .accepted peerId messageId false true frame envelope ∈ history) :
    Applied events peerId frame.fingerprint frame envelope := by
  rw [hhistory, List.mem_append] at hmem
  rcases hmem with hmem | hmem
  · have := List.filterMap_eq_nil_iff.mp hpast _ hmem
    simp [Event.heard] at this
  · exact ⟨rfl, messageId, hmem⟩

/-- A frame made since the start is among the events. -/
lemma sent_of_history {past events history : List Event} (hhistory : history = past ++ events)
    (hpast : past.filterMap Event.made = []) {peerId : PeerId} {kind : Kind}
    {plaintext active frame : Text} {sequence : ℕ} {requested : Bool}
    (hmem : .sent peerId kind plaintext active sequence requested frame ∈ history) :
    .sent peerId kind plaintext active sequence requested frame ∈ events := by
  rw [hhistory, List.mem_append] at hmem
  rcases hmem with hmem | hmem
  · have := List.filterMap_eq_nil_iff.mp hpast _ hmem
    simp [Event.made] at this
  · exact hmem

/-- An acknowledgment that was made and opens to one that confirms a challenge is that of the
challenge, and was made while encryption was requested. -/
lemma ack_of_opened {mode : Mode} {text plaintext challenge : Text}
    (hmade : MadeText mode .ack text)
    (hdecode : Utf8.decodeStateful (Utf8.toUtf8 text) = some plaintext)
    (hchallenge : ackChallenge plaintext = challenge) (hconfirms : ackConfirms plaintext = true) :
    text = challenge ++ u ":1" ∧ mode.requested = true := by
  obtain ⟨made, hvalid, rfl⟩ := hmade
  rw [Utf8.decodeStateful_toUtf8_of_ascii (ack_ascii hvalid mode.requested)] at hdecode
  obtain rfl := Option.some.inj hdecode
  rw [ackConfirms_append] at hconfirms
  rw [ackChallenge_append] at hchallenge
  simp [hconfirms, hchallenge]

/-- **Readiness is confirmed by the other side.** Two accounts start with stored states in which
the left one is not ready, and each does any operations, the left one under unforgeability. In
every state reached in which the left side is ready towards the right user, with a key of the
right side in use: encryption is requested and the key is not marked as changed; the right side
made the acknowledgment of exactly the current challenge while it had requested encryption; and
no frame that withdraws it was applied with a larger sequence number. -/
theorem ready_confirmed (E : Ends) (authentic : E.crypto.Authentic)
    (leftState rightState : StateFile) (leftIdentity rightIdentity : Bytes)
    (leftPeers rightPeers : Option Json)
    (leftDraws rightDraws : Text → Option (RandomBytes 16)) (leftWrite rightWrite : Write)
    (notReady : ∀ peerId state, ((start E.left leftState leftIdentity leftPeers leftDraws
      leftWrite).savedLedger E.left).find peerId = some state → state.mode.ready = false)
    (p : Pair)
    (reached : Relation.ReflTransGen (PairStep E)
      ⟨start E.left leftState leftIdentity leftPeers leftDraws leftWrite,
        start E.right rightState rightIdentity rightPeers rightDraws rightWrite⟩ p)
    (peerId : PeerId) (isRight : peerToUser peerId = E.rightId) (state : PeerState)
    (peer : p.left.peer peerId = some state) (owned : E.rightOwns state.active)
    (isReady : ready peerId p.left = true) :
    state.mode.requested = true ∧ state.mode.keyChanged = false ∧
      ∃ leftPeer active sequence envelope, peerToUser leftPeer = E.leftId ∧
        .sent leftPeer .ack (state.mode.challenge ++ u ":1") active sequence true envelope ∈
          p.right.history ∧
        ∀ messageId frame envelope',
          .accepted peerId messageId false true frame envelope' ∈ p.left.history →
          frame.fingerprint = state.active →
          frame.kind = .off ∨ frame.kind = .ack ∧
            frame.plaintext = state.mode.challenge ++ u ":0" →
          frame.sequence ≤ sequence := by
  set left := start E.left leftState leftIdentity leftPeers leftDraws leftWrite with hleftStart
  set right := start E.right rightState rightIdentity rightPeers rightDraws rightWrite
    with hrightStart
  obtain ⟨-, hleftHeard⟩ := start_history (S := E.left) leftState leftIdentity leftPeers leftDraws
    leftWrite
  obtain ⟨hrightMade, -⟩ := start_history (S := E.right) rightState rightIdentity rightPeers
    rightDraws rightWrite
  obtain ⟨⟨events, hleft⟩, ⟨events', hright⟩, hmade⟩ := pairInv_of_reachable
    (sound_start _ _ _ _ _) (sound_start _ _ _ _ _) hleftHeard reached
  -- what is ready was confirmed by a frame that took effect
  simp only [ready, peer, Bool.and_eq_true, Bool.not_eq_true'] at isReady
  obtain ⟨⟨⟨hrunning, hrequested⟩, hready⟩, hchanged⟩ := isReady
  have hfind := hleft.sound.find_saved hrunning peer
  obtain ⟨-, frame, envelope, ⟨hfingerprint, messageId, hmem⟩, hkind, hchallenge, hconfirms,
    hlater⟩ := (readyInv_of_trace notReady hleft.trace).confirmed peerId _ hfind hready
  simp only [PeerState.ledger_active, PeerState.ledger_mode] at hfingerprint hchallenge hlater
  -- the other side made it
  have hhistory : .accepted peerId messageId false true frame envelope ∈ p.left.history := by
    rw [hleft.history]
    exact List.mem_append_right _ hmem
  obtain ⟨leftPeer, kind, text, active, sequence, requested, hsent⟩ :=
    hmade peerId messageId true frame envelope isRight (hfingerprint ▸ owned) hhistory
  obtain ⟨hactive, ⟨identity, peerKey, nonce, hseal⟩, mode, hmode, htext⟩ :=
    sent_of_mem hright.trace (sent_of_history hright.history hrightMade hsent)
  obtain ⟨identity', keys, hopen⟩ := opened_of_mem hleft.trace hmem
  obtain ⟨hsame, hsequence, -, hto, -, hdecode⟩ :=
    openFrame_sealFrame (S := E.left) (T := E.right) rfl authentic hactive hseal hopen
  rw [← hsame, hkind] at htext hsent
  obtain ⟨rfl, hasked⟩ := ack_of_opened htext hdecode hchallenge hconfirms
  rw [← hmode, hasked] at hsent
  refine ⟨hrequested, hchanged, leftPeer, active, sequence, envelope, hto, hsent, ?_⟩
  intro messageId' frame' envelope' hmem' hfingerprint' hwithdraws
  rw [← hsequence]
  refine hlater frame' envelope' ?_ hwithdraws
  rw [← hfingerprint']
  exact applied_of_history hleft.history hleftHeard hmem'

/-- Operations of the right side are steps of both. -/
lemma reaches_right {E : Ends} (ops : List (Op E.crypto)) (left right : World) :
    Relation.ReflTransGen (PairStep E) ⟨left, right⟩ ⟨left, run E.right ops right⟩ := by
  induction ops generalizing right with
  | nil => exact Relation.ReflTransGen.refl
  | cons op ops ih => exact Relation.ReflTransGen.head (PairStep.right op) (ih _)

/-- Genuine operations of the left side are steps of both. -/
lemma reaches_left {E : Ends} (ops : List (Op E.crypto)) (left right : World)
    (genuine : ∀ op ∈ ops, ∀ w, Genuine E ⟨w, right⟩ op) :
    Relation.ReflTransGen (PairStep E) ⟨left, right⟩ ⟨run E.left ops left, right⟩ := by
  induction ops generalizing left with
  | nil => exact Relation.ReflTransGen.refl
  | cons op ops ih =>
    refine Relation.ReflTransGen.head (PairStep.left op (genuine op (by simp) left)) ?_
    exact ih _ fun op' hop' => genuine op' (List.mem_cons_of_mem _ hop')

/-! ### A handshake -/

/-- Two accounts of `Crypto.plain`, one key pair each. -/
abbrev plainEnds : Ends where
  crypto := Crypto.plain
  leftId := 1
  rightId := 2
  rightOwns fingerprint := fingerprint = fingerprintFor Crypto.plain (plainPair 2).val.publicKey

/-- Draws that succeed for the account with the key pair of a byte. -/
def plainFrameDraw (fill : UInt8) : FrameDraw Crypto.plain :=
  { identity := { key := some (plainPair fill), write := .done }
    nonce := some ⟨List.replicate 12 0, length_zeroNonce⟩
    write := .done }

def plainReceiveDraw (fill : UInt8) : ReceiveDraw Crypto.plain :=
  { write := .done, ack := plainFrameDraw fill, repeatOn := plainFrameDraw fill, notice := .done }

/-- An account trusts the key of the other one and requests encryption. -/
def trustAndRequest (fill fill' : UInt8) (peerId : ChatId) : List (Op Crypto.plain) :=
  [.replacePeerKey { identity := (plainFrameDraw fill).identity, challenge := none, write := .done }
      peerId (plainPair fill').val.publicKey,
    .setEnabled (some ⟨List.replicate 16 fill, by simp⟩) .done peerId true]

def plainStart (S : Session) : World := start S .absent [] none (fun _ => none) .done

lemma savedLedger_plainStart (S : Session) : (plainStart S).savedLedger S = ∅ := rfl

/-- The left account asks. -/
def leftAsks : List (Op Crypto.plain) :=
  trustAndRequest 1 2 ⟨2, two_isChat⟩ ++ [.stateMessage (plainFrameDraw 1) ⟨2, two_isChat⟩ true]

/-- The request of the left account. -/
def onFrame : Text :=
  (((frames plainEnds.left leftAsks (plainStart plainEnds.left)).head?).map Prod.snd).getD []

/-- The right account is asked. -/
def rightAnswers : List (Op Crypto.plain) :=
  trustAndRequest 2 1 ⟨1, one_isChat⟩ ++
    [.receive (plainReceiveDraw 2) ⟨1, one_isChat⟩ 1 false true onFrame]

/-- The acknowledgment of the right account. -/
def ackFrame : Text :=
  (((frames plainEnds.right rightAnswers (plainStart plainEnds.right)).head?).map Prod.snd).getD []

/-- The left account is answered. -/
def leftHears : List (Op Crypto.plain) :=
  [.receive (plainReceiveDraw 1) ⟨2, two_isChat⟩ 1 false true ackFrame]

/-- The left account after it asked. -/
def leftAsked : World := run plainEnds.left leftAsks (plainStart plainEnds.left)

/-- The right account after it answered. -/
def rightAnswered : World := run plainEnds.right rightAnswers (plainStart plainEnds.right)

/-- The left account after it was answered. -/
def leftHeard : World := run plainEnds.left leftHears leftAsked

/-- Both accounts after the handshake. -/
def plainHandshake : Pair := ⟨leftHeard, rightAnswered⟩

/-- What the left account knows of the right one after the handshake. -/
def plainPeer : PeerState := (plainHandshake.left.peer 2).getD {}

lemma rightAnswered_made : rightAnswered.Made ackFrame := by
  have hmem : Event.sent 1 .ack (base64Text (List.replicate 16 1) ++ u ":1")
      (fingerprintFor Crypto.plain (plainPair 1).val.publicKey) 1 true ackFrame ∈
        rightAnswered.history := by
    decide +kernel
  exact ⟨1, .ack, _, _, 1, true, hmem⟩

/-- An operation other than `receive` is genuine. -/
lemma genuine_of_not_receive {E : Ends} {p : Pair} {op : Op E.crypto}
    (h : ∀ draw peerId messageId live envelope,
      op ≠ .receive draw peerId messageId false live envelope) : Genuine E p op :=
  fun draw peerId messageId live envelope heq =>
    absurd heq (h draw peerId messageId live envelope)

/-- An envelope the right side made is genuine. -/
lemma genuine_of_made {E : Ends} {left right : World} {envelope : Text} (h : right.Made envelope)
    (draw : ReceiveDraw E.crypto) (peerId : ChatId) (messageId : MsgId) (outgoing live : Bool) :
    Genuine E ⟨left, right⟩ (.receive draw peerId messageId outgoing live envelope) := by
  intro draw' peerId' messageId' live' envelope' heq _ _ _ _ _ _ _ _
  injection heq with _ _ _ _ _ henvelope
  rw [← henvelope]
  exact h

lemma plainHandshake_reached : Relation.ReflTransGen (PairStep plainEnds)
    ⟨plainStart plainEnds.left, plainStart plainEnds.right⟩ plainHandshake := by
  have hasks : Relation.ReflTransGen (PairStep plainEnds)
      ⟨plainStart plainEnds.left, plainStart plainEnds.right⟩
      ⟨leftAsked, plainStart plainEnds.right⟩ := by
    refine reaches_left (E := plainEnds) leftAsks _ _ fun op hop w => genuine_of_not_receive
      fun draw peerId messageId live envelope heq => ?_
    rw [heq] at hop
    simp only [leftAsks, trustAndRequest, List.cons_append, List.nil_append, List.mem_cons,
      List.not_mem_nil, or_false] at hop
    rcases hop with h | h | h <;> cases h
  have hanswers : Relation.ReflTransGen (PairStep plainEnds)
      ⟨leftAsked, plainStart plainEnds.right⟩ ⟨leftAsked, rightAnswered⟩ :=
    reaches_right (E := plainEnds) rightAnswers _ _
  have hhears : Relation.ReflTransGen (PairStep plainEnds)
      ⟨leftAsked, rightAnswered⟩ plainHandshake := by
    refine reaches_left (E := plainEnds) leftHears _ _ fun op hop w => ?_
    rw [List.mem_singleton.mp hop]
    exact genuine_of_made rightAnswered_made _ _ _ _ _
  exact (hasks.trans hanswers).trans hhears

/-- The handshake of `plainEnds` makes the left account ready, confirmed by the right one. -/
theorem plainHandshake_confirmed :
    ready 2 plainHandshake.left = true ∧ plainPeer.mode.requested = true ∧
      plainPeer.mode.keyChanged = false ∧
      ∃ leftPeer active sequence envelope, peerToUser leftPeer = plainEnds.leftId ∧
        .sent leftPeer .ack (plainPeer.mode.challenge ++ u ":1") active sequence true envelope ∈
          plainHandshake.right.history ∧
        ∀ messageId frame envelope',
          .accepted 2 messageId false true frame envelope' ∈ plainHandshake.left.history →
          frame.fingerprint = plainPeer.active →
          frame.kind = .off ∨ frame.kind = .ack ∧
            frame.plaintext = plainPeer.mode.challenge ++ u ":0" →
          frame.sequence ≤ sequence := by
  have hready : ready 2 plainHandshake.left = true := by decide +kernel
  have hpeer : plainHandshake.left.peer 2 = some plainPeer := by decide +kernel
  refine ⟨hready, ready_confirmed plainEnds Crypto.plain_authentic .absent .absent [] [] none none
    (fun _ => none) (fun _ => none) .done .done ?_ plainHandshake plainHandshake_reached 2 ?_
    plainPeer hpeer ?_ hready⟩
  · intro peerId state hstate
    rw [show start plainEnds.left .absent [] none (fun _ => none) .done =
      plainStart plainEnds.left from rfl, savedLedger_plainStart] at hstate
    exact absurd hstate (by simp)
  · decide +kernel
  · change plainPeer.active = fingerprintFor Crypto.plain (plainPair 2).val.publicKey
    decide +kernel

end E2E
