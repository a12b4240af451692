import Telegravim.Mtproto.TcpConnection

set_option autoImplicit false

/-!
# Packets of a stream

What a connection hands over is a function of the bytes that it has read: the packets of the stream one after
another, up to the first length which is wrong, or to the packet that closes the socket.

## Main definitions

* `Tcp.deliver` — the packets of a stream.
* `Tcp.Conn.run` — calls of `socketRead` over a stream.

## Main results

* `Tcp.deliver_append` — a delivery that has ended is not changed by more bytes.
* `Tcp.Conn.run_eq_deliver` — a connection hands over the packets of what it has read.
* `Tcp.packets_survive_tcp` — reading does not depend on how the bytes come, and what is sent is read back exactly
  if its length fits.
-/

namespace Tcp

open Framing (Length)

variable (version : Version) (alive : List (List UInt8) → Bool)

/-- The packets of a stream behind those that were handed over; a packet is not empty, so there are no more of them
than bytes. -/
def deliverFrom : ℕ → List (List UInt8) → List UInt8 → List (List UInt8) × Status
  | 0, handed, _ => (handed, .reading)
  | rounds + 1, handed, stream =>
    match readPacketLength version stream with
    | .unknown => (handed, .reading)
    | .invalid => (handed, .failed)
    | .size size =>
      if size ≤ stream.length then
        if alive (handed ++ [stream.take size]) then deliverFrom rounds (handed ++ [stream.take size]) (stream.drop size)
        else (handed ++ [stream.take size], .closed)
      else (handed, .reading)

/-- **The packets of a stream**, and how it ends: more bytes are read, or a length is wrong, or a packet has closed
the socket. -/
def deliver (stream : List UInt8) : List (List UInt8) × Status :=
  deliverFrom version alive (stream.length + 1) [] stream

variable {version alive}

/-- The packets at the start of a stream are delivered, where they leave the socket open. -/
lemma deliverFrom_of_frames {stream rest : List UInt8} {packets : List (List UInt8)}
    (h : (framing version).Frames stream packets rest) {rounds : ℕ} {handed : List (List UInt8)}
    (hrounds : stream.length < rounds)
    (halive : ∀ earlier, earlier <+: packets → earlier ≠ [] → alive (handed ++ earlier) = true) :
    ∃ rounds', rest.length < rounds' ∧
      deliverFrom version alive rounds handed stream = deliverFrom version alive rounds' (handed ++ packets) rest := by
  induction h generalizing rounds handed with
  | nil stream => exact ⟨rounds, hrounds, by rw [List.append_nil]⟩
  | @cons stream size packets rest length whole after ih =>
    rcases rounds with _ | rounds
    · exact absurd hrounds (Nat.not_lt_zero _)
    · have hpos := (framing version).pos _ _ length
      have hfirst : alive (handed ++ [stream.take size]) = true :=
        halive [stream.take size] ⟨packets, rfl⟩ (List.cons_ne_nil _ _)
      have hothers : ∀ earlier, earlier <+: packets → earlier ≠ [] →
          alive (handed ++ [stream.take size] ++ earlier) = true := by
        intro earlier hprefix _
        rw [List.append_assoc]
        exact halive _ ((List.prefix_append_right_inj [stream.take size]).mpr hprefix) (by simp)
      have hdropped : (stream.drop size).length < rounds := by
        rw [List.length_drop]
        omega
      obtain ⟨rounds', hrounds', hrest⟩ := ih hdropped hothers
      have hlength : readPacketLength version stream = .size size := length
      refine ⟨rounds', hrounds', ?_⟩
      rw [deliverFrom, hlength]
      dsimp only
      rw [if_pos whole, if_pos hfirst, hrest, List.append_assoc]
      rfl

/-- The packets at the start of a stream, and then those of what is left. -/
lemma deliver_of_frames {stream rest : List UInt8} {packets : List (List UInt8)}
    (h : (framing version).Frames stream packets rest) (hlived : Conn.AllAlive alive packets) :
    ∃ rounds, deliver version alive stream = deliverFrom version alive (rounds + 1) packets rest := by
  have halive : ∀ earlier, earlier <+: packets → earlier ≠ [] → alive ([] ++ earlier) = true := hlived
  obtain ⟨rounds, hrounds, hrest⟩ := deliverFrom_of_frames h (Nat.lt_succ_self _) halive
  obtain ⟨rounds, rfl⟩ := Nat.exists_eq_add_one_of_ne_zero (Nat.ne_zero_of_lt hrounds)
  exact ⟨rounds, hrest⟩

/-- **What a connection has handed over** is delivered by the bytes that it has read. -/
theorem Conn.Sound.deliver_eq {conn : Conn} {consumed : List UInt8} (h : Sound version alive conn consumed) :
    deliver version alive consumed = (conn.handed, conn.status) := by
  cases h with
  | reading pending inv =>
    obtain ⟨rounds, hdeliver⟩ := deliver_of_frames inv.frames inv.lived
    have hread := inv.read_eq
    rw [hdeliver, deliverFrom, inv.status_eq]
    rcases inv.next with ⟨-, -, -, hunknown⟩ | ⟨hleft, hlength, -⟩
    · rw [hunknown]
    · rw [hlength]
      dsimp only
      rw [if_neg (by omega)]
  | failed pending status frames lived invalid =>
    obtain ⟨rounds, hdeliver⟩ := deliver_of_frames frames lived
    rw [hdeliver, deliverFrom, invalid, status]
  | closed pending earlier last status frames lived handed dead =>
    rw [handed] at frames dead
    obtain ⟨middle, size, hframes, hlength, hwhole, rfl, -⟩ := frames.split_snoc
    obtain ⟨rounds, hdeliver⟩ := deliver_of_frames hframes lived
    have hsize : readPacketLength version middle = .size size := hlength
    rw [hdeliver, deliverFrom, hsize, status, handed]
    dsimp only
    rw [if_pos hwhole, if_neg (by rw [dead]; simp)]

lemma deliverFrom_append {rounds rounds' : ℕ} {handed : List (List UInt8)} {stream : List UInt8}
    (h : (deliverFrom version alive rounds handed stream).2 ≠ .reading) (hrounds : rounds ≤ rounds')
    (more : List UInt8) :
    deliverFrom version alive rounds' handed (stream ++ more) = deliverFrom version alive rounds handed stream := by
  induction rounds generalizing rounds' handed stream with
  | zero => exact absurd rfl h
  | succ rounds ih =>
    obtain ⟨rounds', rfl⟩ := Nat.exists_eq_add_one_of_ne_zero (Nat.ne_zero_of_lt hrounds)
    rw [deliverFrom] at h
    rw [deliverFrom, deliverFrom]
    rcases hlength : readPacketLength version stream with _ | _ | size
    · rw [hlength] at h
      exact absurd rfl h
    · have hstable := (framing version).stable stream more (by rw [framing_length, hlength]; exact nofun)
      rw [framing_length, hlength] at hstable
      rw [hstable]
    · have hstable := (framing version).length_append hlength more
      rw [framing_length] at hstable
      rw [hlength] at h
      rw [hstable]
      dsimp only at h ⊢
      by_cases hwhole : size ≤ stream.length
      · have htake : (stream ++ more).take size = stream.take size := List.take_append_of_le_length hwhole
        have hdrop : (stream ++ more).drop size = stream.drop size ++ more := List.drop_append_of_le_length hwhole
        rw [if_pos hwhole] at h ⊢
        rw [if_pos (by rw [List.length_append]; omega), htake, hdrop]
        by_cases halive : alive (handed ++ [stream.take size]) = true
        · rw [if_pos halive] at h ⊢
          rw [if_pos halive]
          exact ih h (by omega)
        · rw [if_neg halive, if_neg halive]
      · rw [if_neg hwhole] at h
        exact absurd rfl h

/-- **A delivery that has ended** is not changed by more bytes. -/
theorem deliver_append {stream : List UInt8} (h : (deliver version alive stream).2 ≠ .reading) (more : List UInt8) :
    deliver version alive (stream ++ more) = deliver version alive stream := by
  refine deliverFrom_append h ?_ more
  rw [List.length_append]
  omega

/-! ### Runs -/

/-- Calls of `socketRead` on a new connection, over the bytes of a stream. -/
def Conn.run (version : Version) (alive : List (List UInt8) → Bool) (calls : List (List ℕ)) (stream : List UInt8) :
    Option (Conn × List UInt8) :=
  calls.foldlM (socketRead version alive) ({}, stream)

/-- **A run** makes of its bytes what it should, and no assertion fails in it; and a call that may read reads. -/
theorem Conn.run_sound (version : Version) (alive : List (List UInt8) → Bool) (calls : List (List ℕ))
    (stream : List UInt8) :
    ∃ conn incoming consumed, Conn.run version alive calls stream = some (conn, incoming) ∧
      stream = consumed ++ incoming ∧ Sound version alive conn.sized consumed ∧
      ((∀ wishes ∈ calls, ∃ wish ∈ wishes.head?, 0 < wish) → conn.status = .reading →
        incoming = [] ∨ calls.length ≤ consumed.length) := by
  induction calls using List.reverseRecOn with
  | nil =>
    refine ⟨{}, stream, [], rfl, rfl, Sound.reading [] Inv.start, ?_⟩
    intro _ _
    exact Or.inr (Nat.zero_le _)
  | append_singleton calls wishes ih =>
    obtain ⟨conn, incoming, consumed, hrun, hstream, hsound, hprogress⟩ := ih
    obtain ⟨conn', incoming', hcall, taken, htaken, hsound', hreads⟩ : ∃ conn' incoming',
        socketRead version alive (conn, incoming) wishes = some (conn', incoming') ∧ _ := socketRead_sound hsound
    refine ⟨conn', incoming', consumed ++ taken, ?_, ?_, hsound', ?_⟩
    · rw [Conn.run] at hrun ⊢
      rw [List.foldlM_append, hrun, Option.bind_eq_bind, Option.bind_some, List.foldlM_cons, hcall]
      rfl
    · rw [hstream, htaken, List.append_assoc]
    · intro hwishes hstatus
      obtain ⟨hreading, htakes⟩ := hreads hstatus
      have hwish := hwishes wishes (List.mem_append_right _ (List.mem_singleton_self _))
      rcases hprogress (fun wishes' h => hwishes wishes' (List.mem_append_left _ h)) hreading with hnone | hcount
      · rw [hnone] at htaken
        exact Or.inl (List.append_eq_nil_iff.mp htaken.symm).2
      · rcases List.eq_nil_or_concat incoming with hnone | ⟨_, _, hsome⟩
        · rw [hnone] at htaken
          exact Or.inl (List.append_eq_nil_iff.mp htaken.symm).2
        · have hlength := List.length_pos_iff.mpr (htakes hwish (by rw [hsome]; simp))
          refine Or.inr ?_
          rw [List.length_append, List.length_append, List.length_singleton]
          omega

/-- A buffer that is accepted is sent. -/
lemma exists_finalizePacket (version : Version) (random : ℕ → UInt32) {buffer : List UInt32}
    (hlong : 2 < buffer.length) (hshort : buffer.length < 0x1000003) :
    ∃ packet, finalizePacket version random buffer = some packet := by
  have hzero : ∃ packet, Version0.finalizePacket buffer = some packet := by
    rw [Version0.finalizePacket, if_neg (not_not.mpr ⟨hlong, hshort⟩)]
    dsimp only
    split <;> exact ⟨_, rfl⟩
  cases version with
  | version0 => exact hzero
  | version1 => exact hzero
  | versionD =>
    rw [finalizePacket, VersionD.finalizePacket, if_neg (not_not.mpr ⟨hlong, hshort⟩)]
    exact ⟨_, rfl⟩

/-- **Packets over TCP.** However the socket cuts a stream into reads, no assertion fails and no span leaves its
buffer; the connection hands over the packets of the bytes that it has read, one after another, and reports an error
at the first length which is wrong; so it hands over the packets of the stream once it has read it all, or stopped,
and every call that may read does read. A packet that is sent is read as it was exactly if its length fits. -/
theorem packets_survive_tcp (version : Version) :
    (∀ alive calls stream, ∃ conn incoming consumed,
      Conn.run version alive calls stream = some (conn, incoming) ∧ stream = consumed ++ incoming ∧
      (conn.handed, conn.status) = deliver version alive consumed ∧
      (incoming = [] ∨ conn.status ≠ .reading → (conn.handed, conn.status) = deliver version alive stream) ∧
      ((∀ wishes ∈ calls, ∃ wish ∈ wishes.head?, 0 < wish) → conn.status = .reading →
        incoming = [] ∨ calls.length ≤ consumed.length)) ∧
    ∀ random buffer packet, finalizePacket version random buffer = some packet →
      (ReadBack version buffer packet ↔ Fits version random (buffer.length - 2)) := by
  constructor
  · intro alive calls stream
    obtain ⟨conn, incoming, consumed, hrun, rfl, hsound, hprogress⟩ := Conn.run_sound version alive calls stream
    have hdeliver := hsound.deliver_eq
    rw [Conn.sized_handed, Conn.sized_status] at hdeliver
    refine ⟨conn, incoming, consumed, hrun, rfl, hdeliver.symm, ?_, hprogress⟩
    rintro (rfl | hstatus)
    · rw [List.append_nil, hdeliver]
    · rw [deliver_append (by rw [hdeliver]; exact hstatus), hdeliver]
  · intro random buffer packet h
    exact readPacket_finalizePacket_iff h

/-- A packet of one integer is read as it was. -/
theorem packets_survive_tcp_one : ReadBack .version0 [0, 0, 7] [1, 7, 0, 0, 0] :=
  ((packets_survive_tcp .version0).2 (fun _ => 0) [0, 0, 7] [1, 7, 0, 0, 0] (by decide)).mpr
    (by decide : 1 < 0x1000000)

/-- The longest buffer that is accepted: the three bytes of its length are those of an empty packet, and it is not
read back. -/
theorem longest_packet_lost : ∃ packet,
    finalizePacket .version0 (fun _ => 0) (List.replicate 0x1000002 0) = some packet ∧
      ¬ ReadBack .version0 (List.replicate 0x1000002 0) packet := by
  have hlength : (List.replicate 0x1000002 (0 : UInt32)).length = 0x1000002 := List.length_replicate
  obtain ⟨packet, hpacket⟩ : ∃ packet,
      finalizePacket .version0 (fun _ => 0) (List.replicate 0x1000002 0) = some packet :=
    exists_finalizePacket .version0 (fun _ => 0) (by omega) (by omega)
  refine ⟨packet, hpacket, ?_⟩
  rw [readPacket_finalizePacket_iff hpacket, hlength]
  exact (by decide : ¬ 0x1000002 - 2 < 0x1000000)

end Tcp
