import Telegravim.Mtproto.TcpProtocol

set_option autoImplicit false

/-!
# Reading packets off a socket

A connection reads bytes off its socket into a small buffer. It hands over the packets that are whole, and keeps
the place of what is left. A packet that does not fit into the small buffer gets a large one of its own, and is
filled up by further reads of no more than it lacks.

The bytes are decrypted in place as they are read; here they are the decrypted ones from the start. What the
connection does with a packet may close the socket: this is a parameter `alive` over the packets that were handed
over. The bytes that are still to come are a list, and every read of the socket takes as many as it wishes, but no
more than are asked for. The result is `none` where an assertion fails or a span leaves its buffer.

## Main definitions

* `Tcp.Conn`, `Tcp.Span` — the buffers of a connection, and places in them.
* `Tcp.Conn.ensureAvailableInBuffer`, `Tcp.Conn.socketRead` — what the source does.
* `Tcp.Conn.Sound` — what a connection has handed over, of the bytes that it has read.

## Main results

* `Tcp.Conn.Inv.readOnce` — one read keeps the invariant, and no assertion fails.
* `Tcp.Conn.packets_of_stream` — the packets do not depend on how the bytes are read.
-/

namespace Tcp

open Framing (Length)
open Slices

def kSmallBufferSize : ℕ := 256 * 1024

def kMinPacketBuffer : ℕ := 256

/-- A place in one of the two buffers. -/
structure Span where
  large : Bool
  start : ℕ
  size : ℕ
  deriving DecidableEq

/-- `subspan`, which checks that the part lies in the span. -/
def Span.subspan (span : Span) (offset count : ℕ) : Option Span :=
  if offset + count ≤ span.size then some { span with start := span.start + offset, size := count } else none

/-- Whether the connection still reads, has reported an error, or lost its socket. -/
inductive Status where
  | reading
  | failed
  | closed
  deriving DecidableEq

/-- A connection, with the packets that it has handed over. -/
structure Conn where
  smallBuffer : List UInt8 := []
  largeBuffer : List UInt8 := []
  usingLargeBuffer : Bool := false
  offsetBytes : ℕ := 0
  readBytes : ℕ := 0
  leftBytes : ℕ := 0
  handed : List (List UInt8) := []
  status : Status := .reading

namespace Conn

/-! ### Buffers -/

def buffer (conn : Conn) (large : Bool) : List UInt8 := if large then conn.largeBuffer else conn.smallBuffer

def setBuffer (conn : Conn) (large : Bool) (bytes : List UInt8) : Conn :=
  if large then { conn with largeBuffer := bytes } else { conn with smallBuffer := bytes }

/-- The bytes at a span; `none` when it has left the buffer. -/
def bytes (conn : Conn) (span : Span) : Option (List UInt8) :=
  if span.start + span.size ≤ (conn.buffer span.large).length then
    some (slice (conn.buffer span.large) span.start span.size)
  else none

/-- Bytes that are written at the start of a span. -/
def write (conn : Conn) (span : Span) (data : List UInt8) : Option Conn :=
  if data.length ≤ span.size ∧ span.start + span.size ≤ (conn.buffer span.large).length then
    some (conn.setBuffer span.large (overwrite (conn.buffer span.large) span.start data))
  else none

/-- The buffer in use, from the offset on. -/
def full (conn : Conn) : Option Span :=
  Span.subspan ⟨conn.usingLargeBuffer, 0, (conn.buffer conn.usingLargeBuffer).length⟩ conn.offsetBytes
    ((conn.buffer conn.usingLargeBuffer).length - conn.offsetBytes)

/-- `bytes::copy` and `bytes::move`, which check that the bytes fit. -/
def copied (destination source : List UInt8) : Option (List UInt8) :=
  if source.length ≤ destination.length then some (overwrite destination 0 source) else none

def ensureAvailableInBuffer (conn : Conn) (amount : ℕ) : Option Conn := do
  let full ← conn.full
  if amount ≤ full.size then return conn
  let read ← conn.bytes (← full.subspan 0 conn.readBytes)
  if amount ≤ conn.smallBuffer.length then
    let small ← copied conn.smallBuffer read
    if conn.usingLargeBuffer then
      return { conn with smallBuffer := small, usingLargeBuffer := false, largeBuffer := [], offsetBytes := 0 }
    else return { conn with smallBuffer := small, offsetBytes := 0 }
  else if amount ≤ conn.largeBuffer.length then
    if conn.usingLargeBuffer then
      let large ← copied conn.largeBuffer read
      return { conn with largeBuffer := large, offsetBytes := 0 }
    else none
  else
    let enough ← copied (List.replicate amount 0) read
    return { conn with largeBuffer := enough, usingLargeBuffer := true, offsetBytes := 0 }

/-! ### Reading -/

section Reading

variable (version : Version) (alive : List (List UInt8) → Bool)

/-- `parsePacket`, with its assertions. -/
def parsePacket (bytes : List UInt8) : Option (List UInt32) := do
  let packet ← readPacket version bytes
  let ints := primesOf packet
  if ints = [] then none
  else if ints.length < 3 then return ints.take 1
  else return ints

/-- `socketPacket`, after which the socket may be closed. -/
def socketPacket (conn : Conn) (span : Span) : Option Conn := do
  let bytes ← conn.bytes span
  let _ ← parsePacket version bytes
  let handed := conn.handed ++ [bytes]
  return { conn with handed := handed, status := if alive handed then .reading else .closed }

/-- The loop over the packets in the small buffer. A packet is not empty, so it ends after as many rounds as there
are bytes. -/
def readPackets : ℕ → Conn → Span → Option Conn
  | 0, conn, _ => some conn
  | rounds + 1, conn, available =>
    if conn.readBytes = 0 then some conn
    else do
      match readPacketLength version (← conn.bytes available) with
      | .unknown => return conn
      | .invalid => return { conn with status := .failed }
      | .size packetSize =>
        if packetSize ≤ available.size then
          let conn ← conn.socketPacket version alive (← available.subspan 0 packetSize)
          if conn.status ≠ .reading then return conn
          let available ← available.subspan packetSize (available.size - packetSize)
          let conn := { conn with
            offsetBytes := conn.offsetBytes + packetSize, readBytes := conn.readBytes - packetSize }
          let conn ← conn.ensureAvailableInBuffer kMinPacketBuffer
          readPackets rounds conn available
        else
          let conn := { conn with leftBytes := packetSize - available.size }
          conn.ensureAvailableInBuffer packetSize

/-- How many bytes are asked for: those that the packet lacks, or as many as the small buffer has room for. -/
def readLimit (conn : Conn) : Option ℕ :=
  if 0 < conn.leftBytes then some conn.leftBytes
  else if conn.offsetBytes + conn.readBytes < kSmallBufferSize then
    some (kSmallBufferSize - conn.offsetBytes - conn.readBytes)
  else none

/-- What `socketRead` does with some bytes that it has just read. -/
def received (conn : Conn) (full : Span) (readCount : ℕ) : Option Conn :=
  if 0 < conn.leftBytes then
    if readCount ≤ conn.leftBytes then
      if conn.leftBytes - readCount = 0 then do
        let span ← full.subspan 0 conn.readBytes
        let conn ← { conn with leftBytes := 0 }.socketPacket version alive span
        if conn.status ≠ .reading then return conn
        return { conn with usingLargeBuffer := false, largeBuffer := [], offsetBytes := 0, readBytes := 0 }
      else some { conn with leftBytes := conn.leftBytes - readCount }
    else none
  else do
    let available ← full.subspan 0 conn.readBytes
    conn.readPackets version alive conn.readBytes available

/-- **One read of `socketRead`**: the socket gives as many bytes as it wishes, of those that are asked for. The
number of bytes comes with the connection. -/
def readOnce (conn : Conn) (wish : ℕ) (incoming : List UInt8) : Option (Conn × ℕ) := do
  let readLimit ← conn.readLimit
  let full ← conn.full
  let free ← full.subspan conn.readBytes (full.size - conn.readBytes)
  let target ← free.subspan 0 readLimit
  let data := incoming.take (min wish readLimit)
  let conn ← conn.write target data
  if data = [] then return (conn, 0)
  let conn ← received version alive { conn with readBytes := conn.readBytes + data.length } full data.length
  return (conn, data.length)

/-- The loop of `socketRead`, which goes on while the socket has more bytes. -/
def readLoop : List ℕ → Conn × List UInt8 → Option (Conn × List UInt8)
  | [], state => some state
  | wish :: wishes, (conn, incoming) => do
    let (conn, count) ← conn.readOnce version alive wish incoming
    let incoming := incoming.drop count
    if count = 0 ∨ conn.status ≠ .reading then return (conn, incoming)
    readLoop wishes (conn, incoming)

/-- A connection with its small buffer, which the first call of `socketRead` makes. -/
def sized (conn : Conn) : Conn :=
  if conn.smallBuffer = [] then { conn with smallBuffer := List.replicate kSmallBufferSize 0 } else conn

/-- **`socketRead`**, with what the socket wishes to give in each read. A connection without a socket reports an
error and reads nothing. -/
def socketRead (state : Conn × List UInt8) (wishes : List ℕ) : Option (Conn × List UInt8) :=
  let (conn, incoming) := state
  if conn.status ≠ .reading then some (conn, incoming)
  else if ¬ (0 < conn.leftBytes ∨ conn.usingLargeBuffer = false) then none
  else
    readLoop version alive wishes (conn.sized, incoming)

end Reading

/-! ### The invariant -/

/-- Each list of packets that was handed over left the socket open. -/
def AllAlive (alive : List (List UInt8) → Bool) (handed : List (List UInt8)) : Prop :=
  ∀ earlier, earlier <+: handed → earlier ≠ [] → alive earlier = true

/-- A connection that reads has the bytes that are left of those it has read in the buffer in use. -/
structure Buffered (version : Version) (alive : List (List UInt8) → Bool) (conn : Conn)
    (consumed pending : List UInt8) : Prop where
  status_eq : conn.status = .reading
  small_length : conn.smallBuffer.length = kSmallBufferSize
  large_nil : conn.usingLargeBuffer = false → conn.largeBuffer = []
  frames : (framing version).Frames consumed conn.handed pending
  lived : AllAlive alive conn.handed
  read_eq : conn.readBytes = pending.length
  fits : conn.offsetBytes + conn.readBytes ≤ (conn.buffer conn.usingLargeBuffer).length
  content : slice (conn.buffer conn.usingLargeBuffer) conn.offsetBytes conn.readBytes = pending

/-- **The invariant** of a connection that reads: the bytes that are left do not tell the length of their packet yet
and there is room in the small buffer, or they tell it and there is room for the packet. -/
structure Inv (version : Version) (alive : List (List UInt8) → Bool) (conn : Conn)
    (consumed pending : List UInt8) : Prop extends Buffered version alive conn consumed pending where
  next : (conn.leftBytes = 0 ∧ conn.usingLargeBuffer = false ∧
      conn.offsetBytes + kMinPacketBuffer ≤ kSmallBufferSize ∧ readPacketLength version pending = .unknown) ∨
    (0 < conn.leftBytes ∧ readPacketLength version pending = .size (conn.readBytes + conn.leftBytes) ∧
      conn.offsetBytes + conn.readBytes + conn.leftBytes ≤ (conn.buffer conn.usingLargeBuffer).length)

/-- **What a connection has made of the bytes that it has read**: it reads on, or it has met a length which is
wrong, or the last packet has closed the socket. -/
inductive Sound (version : Version) (alive : List (List UInt8) → Bool) (conn : Conn) (consumed : List UInt8) : Prop
  | reading (pending : List UInt8) (inv : Inv version alive conn consumed pending)
  | failed (pending : List UInt8) (status : conn.status = .failed)
      (frames : (framing version).Frames consumed conn.handed pending) (lived : AllAlive alive conn.handed)
      (invalid : readPacketLength version pending = .invalid)
  | closed (pending : List UInt8) (earlier : List (List UInt8)) (last : List UInt8) (status : conn.status = .closed)
      (frames : (framing version).Frames consumed conn.handed pending) (lived : AllAlive alive earlier)
      (handed : conn.handed = earlier ++ [last]) (dead : alive conn.handed = false)

variable {version : Version} {alive : List (List UInt8) → Bool} {conn : Conn}

lemma AllAlive.nil : AllAlive alive [] := by
  intro earlier hprefix hne
  exact absurd (List.prefix_nil.mp hprefix) hne

lemma AllAlive.snoc {handed : List (List UInt8)} {packet : List UInt8} (h : AllAlive alive handed)
    (halive : alive (handed ++ [packet]) = true) : AllAlive alive (handed ++ [packet]) := by
  intro earlier hprefix hne
  rcases List.prefix_concat_iff.mp hprefix with rfl | hprefix
  · exact halive
  · exact h earlier hprefix hne

/-! ### Spans -/

section SetBuffer

variable (conn : Conn) (large : Bool) (new : List UInt8)

@[simp] lemma setBuffer_buffer : (conn.setBuffer large new).buffer large = new := by
  cases large <;> rfl

@[simp] lemma setBuffer_usingLargeBuffer : (conn.setBuffer large new).usingLargeBuffer = conn.usingLargeBuffer := by
  cases large <;> rfl

@[simp] lemma setBuffer_offsetBytes : (conn.setBuffer large new).offsetBytes = conn.offsetBytes := by
  cases large <;> rfl

@[simp] lemma setBuffer_readBytes : (conn.setBuffer large new).readBytes = conn.readBytes := by
  cases large <;> rfl

@[simp] lemma setBuffer_leftBytes : (conn.setBuffer large new).leftBytes = conn.leftBytes := by
  cases large <;> rfl

@[simp] lemma setBuffer_handed : (conn.setBuffer large new).handed = conn.handed := by
  cases large <;> rfl

@[simp] lemma setBuffer_status : (conn.setBuffer large new).status = conn.status := by
  cases large <;> rfl

end SetBuffer

lemma subspan_eq {span : Span} {offset count : ℕ} (h : offset + count ≤ span.size) :
    span.subspan offset count = some ⟨span.large, span.start + offset, count⟩ := by
  rw [Span.subspan, if_pos h]

/-- The buffer in use, from the offset on. -/
lemma full_eq (h : conn.offsetBytes ≤ (conn.buffer conn.usingLargeBuffer).length) :
    conn.full = some ⟨conn.usingLargeBuffer, conn.offsetBytes,
      (conn.buffer conn.usingLargeBuffer).length - conn.offsetBytes⟩ := by
  rw [full, subspan_eq (by dsimp only; omega)]
  simp

lemma bytes_eq {span : Span} (h : span.start + span.size ≤ (conn.buffer span.large).length) :
    conn.bytes span = some (slice (conn.buffer span.large) span.start span.size) := by
  rw [bytes, if_pos h]

/-! ### A packet -/

/-- A packet has an integer, so it is parsed. -/
lemma parsePacket_isSome {packet : List UInt8} (h : readPacketLength version packet = .size packet.length) :
    ∃ ints, parsePacket version packet = some ints := by
  have hsize := sizeLength_le h
  have hread : readPacket version packet = some (slice packet (sizeLength version packet)
      (packet.length - sizeLength version packet)) := by
    rw [readPacket, h]
    dsimp only
    rw [if_pos (Nat.le_refl _)]
  have hlength : 4 ≤ (slice packet (sizeLength version packet)
      (packet.length - sizeLength version packet)).length := by
    rw [length_slice (by omega)]
    omega
  rw [parsePacket, hread, Option.bind_eq_bind, Option.bind_some]
  generalize slice packet (sizeLength version packet) (packet.length - sizeLength version packet) = content at hlength
  rcases content with _ | ⟨b0, _ | ⟨b1, _ | ⟨b2, _ | ⟨b3, rest⟩⟩⟩⟩
  · simp at hlength
  · simp at hlength
  · simp at hlength
  · simp at hlength
  · rw [primesOf]
    dsimp only
    rw [if_neg (by simp)]
    split <;> exact ⟨_, rfl⟩

/-- **A packet is handed over** with its own bytes. -/
lemma socketPacket_eq {span : Span} {packet : List UInt8} (hbytes : conn.bytes span = some packet)
    (hlength : readPacketLength version packet = .size packet.length) :
    conn.socketPacket version alive span = some { conn with
      handed := conn.handed ++ [packet],
      status := if alive (conn.handed ++ [packet]) then .reading else .closed } := by
  obtain ⟨ints, hints⟩ := parsePacket_isSome hlength
  rw [socketPacket, hbytes, Option.bind_eq_bind, Option.bind_some, hints, Option.bind_eq_bind, Option.bind_some]
  rfl

/-! ### Room in the buffers -/

section Ensure

variable {amount : ℕ}

/-- Where there is room behind the offset, nothing is done. -/
lemma ensureAvailableInBuffer_of_room (hsmall : conn.usingLargeBuffer = false)
    (hroom : conn.offsetBytes + amount ≤ conn.smallBuffer.length) :
    conn.ensureAvailableInBuffer amount = some conn := by
  have hbuffer : conn.buffer conn.usingLargeBuffer = conn.smallBuffer := by rw [hsmall]; rfl
  rw [ensureAvailableInBuffer, full_eq (by rw [hbuffer]; omega), Option.bind_eq_bind, Option.bind_some, hbuffer,
    if_pos (by dsimp only; omega)]
  rfl

/-- The bytes that are moved are those behind the offset. -/
lemma ensureAvailableInBuffer_eq (hsmall : conn.usingLargeBuffer = false)
    (hfits : conn.offsetBytes + conn.readBytes ≤ conn.smallBuffer.length)
    (hroom : conn.smallBuffer.length < conn.offsetBytes + amount) :
    conn.ensureAvailableInBuffer amount =
      if amount ≤ conn.smallBuffer.length then
        some { conn with
          smallBuffer := overwrite conn.smallBuffer 0 (slice conn.smallBuffer conn.offsetBytes conn.readBytes),
          offsetBytes := 0 }
      else if amount ≤ conn.largeBuffer.length then none
      else
        (copied (List.replicate amount 0) (slice conn.smallBuffer conn.offsetBytes conn.readBytes)).map fun enough =>
          { conn with largeBuffer := enough, usingLargeBuffer := true, offsetBytes := 0 } := by
  have hbuffer : conn.buffer conn.usingLargeBuffer = conn.smallBuffer := by rw [hsmall]; rfl
  have hread : conn.bytes ⟨conn.usingLargeBuffer, conn.offsetBytes + 0, conn.readBytes⟩ =
      some (slice conn.smallBuffer conn.offsetBytes conn.readBytes) := by
    rw [bytes_eq (by dsimp only; rw [hbuffer]; omega)]
    dsimp only
    rw [hbuffer, Nat.add_zero]
  have hcopied : copied conn.smallBuffer (slice conn.smallBuffer conn.offsetBytes conn.readBytes) =
      some (overwrite conn.smallBuffer 0 (slice conn.smallBuffer conn.offsetBytes conn.readBytes)) := by
    rw [copied, if_pos (by rw [length_slice hfits]; omega)]
  rw [ensureAvailableInBuffer, full_eq (by rw [hbuffer]; omega), Option.bind_eq_bind, Option.bind_some, hbuffer,
    if_neg (by dsimp only; omega), subspan_eq (by dsimp only; omega), Option.bind_eq_bind, Option.bind_some]
  dsimp only
  rw [hread, Option.bind_some, hcopied, hsmall]
  split
  · rfl
  · split
    · rfl
    · rcases copied (List.replicate amount 0) (slice conn.smallBuffer conn.offsetBytes conn.readBytes) <;> rfl

/-- A packet that is too large for the small buffer gets a buffer of its own. -/
lemma ensureAvailableInBuffer_of_large (hsmall : conn.usingLargeBuffer = false) (hlarge : conn.largeBuffer = [])
    (hfits : conn.offsetBytes + conn.readBytes ≤ conn.smallBuffer.length)
    (hread : conn.readBytes ≤ amount) (hamount : conn.smallBuffer.length < amount) :
    conn.ensureAvailableInBuffer amount = some { conn with
      largeBuffer := overwrite (List.replicate amount 0) 0
        (slice conn.smallBuffer conn.offsetBytes conn.readBytes),
      usingLargeBuffer := true, offsetBytes := 0 } := by
  rw [ensureAvailableInBuffer_eq hsmall hfits (by omega), if_neg (by omega), hlarge, if_neg (by simp; omega),
    copied, if_pos (by rw [length_slice hfits, List.length_replicate]; exact hread)]
  rfl

end Ensure

/-- The invariant, where the small buffer is in use. -/
lemma Inv.of_small {consumed pending : List UInt8} (husing : conn.usingLargeBuffer = false)
    (status_eq : conn.status = .reading) (small_length : conn.smallBuffer.length = kSmallBufferSize)
    (large_nil : conn.largeBuffer = []) (frames : (framing version).Frames consumed conn.handed pending)
    (lived : AllAlive alive conn.handed) (read_eq : conn.readBytes = pending.length)
    (fits : conn.offsetBytes + conn.readBytes ≤ kSmallBufferSize)
    (content : slice conn.smallBuffer conn.offsetBytes conn.readBytes = pending)
    (next : (conn.leftBytes = 0 ∧ conn.offsetBytes + kMinPacketBuffer ≤ kSmallBufferSize ∧
        readPacketLength version pending = .unknown) ∨
      (0 < conn.leftBytes ∧ readPacketLength version pending = .size (conn.readBytes + conn.leftBytes) ∧
        conn.offsetBytes + conn.readBytes + conn.leftBytes ≤ kSmallBufferSize)) :
    Inv version alive conn consumed pending := by
  have hbuffer : conn.buffer conn.usingLargeBuffer = conn.smallBuffer := by rw [husing]; rfl
  refine ⟨⟨status_eq, small_length, fun _ => large_nil, frames, lived, read_eq, ?_, ?_⟩, ?_⟩
  · rw [hbuffer, small_length]
    exact fits
  · rw [hbuffer]
    exact content
  · rw [hbuffer, small_length]
    exact next.imp (fun h => ⟨h.1, husing, h.2⟩) id

/-! ### The packets in the small buffer -/

/-- **What the loop over the packets keeps.** The span that the loop reads shows what is left, and so does the place
in the small buffer behind the offset. The two are the same place until the bytes are moved to the start of the
buffer; then few bytes are left, and the span still shows them near its end. -/
structure Walk (version : Version) (alive : List (List UInt8) → Bool) (conn : Conn) (available : Span)
    (consumed pending : List UInt8) : Prop where
  status_eq : conn.status = .reading
  using_eq : conn.usingLargeBuffer = false
  large_nil : conn.largeBuffer = []
  small_length : conn.smallBuffer.length = kSmallBufferSize
  frames : (framing version).Frames consumed conn.handed pending
  lived : AllAlive alive conn.handed
  read_eq : conn.readBytes = pending.length
  fits : conn.offsetBytes + conn.readBytes ≤ kSmallBufferSize
  content : slice conn.smallBuffer conn.offsetBytes conn.readBytes = pending
  span_large : available.large = false
  span_size : available.size = conn.readBytes
  span_fits : available.start + conn.readBytes ≤ kSmallBufferSize
  span_content : slice conn.smallBuffer available.start conn.readBytes = pending
  room : conn.offsetBytes + kMinPacketBuffer ≤ kSmallBufferSize
  places : available.start = conn.offsetBytes ∨
    (kSmallBufferSize < available.start + kMinPacketBuffer ∧ conn.offsetBytes + conn.readBytes < kMinPacketBuffer)

namespace Walk

variable {available : Span} {consumed pending : List UInt8}

lemma bytes_eq_pending (h : Walk version alive conn available consumed pending) :
    conn.bytes available = some pending := by
  have hbuffer : conn.buffer available.large = conn.smallBuffer := by rw [h.span_large]; rfl
  have hfits := h.span_fits
  have hsmall := h.small_length
  have hsize := h.span_size
  rw [bytes_eq (by rw [hbuffer]; omega), hbuffer, hsize, h.span_content]

/-- Where the length of the next packet is not known, the connection reads on. -/
lemma inv (h : Walk version alive conn available consumed pending) (hleft : conn.leftBytes = 0)
    (hunknown : readPacketLength version pending = .unknown) : Inv version alive conn consumed pending :=
  Inv.of_small h.using_eq h.status_eq h.small_length h.large_nil h.frames h.lived h.read_eq h.fits h.content
    (Or.inl ⟨hleft, h.room, hunknown⟩)

/-- No bytes tell no length. -/
lemma unknown_of_zero (h : Walk version alive conn available consumed pending) (hzero : conn.readBytes = 0) :
    readPacketLength version pending = .unknown := by
  have hnil : pending = [] := List.length_eq_zero_iff.mp (h.read_eq ▸ hzero)
  rw [hnil]
  cases version <;> rfl

/-- A packet that is not whole yet gets the room that it takes. -/
lemma ensure_packet (h : Walk version alive conn available consumed pending) {packetSize : ℕ}
    (hlength : readPacketLength version pending = .size packetSize) (hpart : pending.length < packetSize)
    (hleft : conn.leftBytes = packetSize - conn.readBytes) :
    ∃ conn', conn.ensureAvailableInBuffer packetSize = some conn' ∧ Inv version alive conn' consumed pending := by
  have hsmall := h.small_length
  have hread := h.read_eq
  have hfits := h.fits
  have hlong : (slice conn.smallBuffer conn.offsetBytes conn.readBytes).length = conn.readBytes :=
    length_slice (by omega)
  have hsize : readPacketLength version pending = .size (conn.readBytes + conn.leftBytes) := by
    rw [hlength]
    congr 1
    omega
  rcases Nat.lt_or_ge conn.smallBuffer.length (conn.offsetBytes + packetSize) with hfull | hroom
  · rcases Nat.lt_or_ge conn.smallBuffer.length packetSize with hlarge | hamount
    · refine ⟨_, ensureAvailableInBuffer_of_large h.using_eq h.large_nil (by omega) (by omega) hlarge, ?_⟩
      have hwrite : 0 + (slice conn.smallBuffer conn.offsetBytes conn.readBytes).length ≤
          (List.replicate packetSize (0 : UInt8)).length := by
        rw [List.length_replicate]
        omega
      have hbytes := slice_overwrite_self hwrite
      rw [hlong, h.content] at hbytes
      have hlength' := length_overwrite hwrite
      rw [List.length_replicate, h.content] at hlength'
      refine ⟨⟨h.status_eq, hsmall, nofun, h.frames, h.lived, hread, ?_, ?_⟩, Or.inr ⟨?_, hsize, ?_⟩⟩
      · rw [buffer, if_pos rfl, h.content, hlength']
        dsimp only
        omega
      · rw [buffer, if_pos rfl, h.content]
        exact hbytes
      · dsimp only
        omega
      · rw [buffer, if_pos rfl, h.content, hlength']
        dsimp only
        omega
    · have hensure := ensureAvailableInBuffer_eq h.using_eq (by omega) hfull
      rw [if_pos hamount] at hensure
      refine ⟨_, hensure, ?_⟩
      have hwrite : 0 + (slice conn.smallBuffer conn.offsetBytes conn.readBytes).length ≤
          conn.smallBuffer.length := by omega
      have hbytes := slice_overwrite_self hwrite
      rw [hlong, h.content] at hbytes
      rw [h.content] at hwrite ⊢
      refine Inv.of_small h.using_eq h.status_eq ((length_overwrite hwrite).trans hsmall) h.large_nil h.frames
        h.lived hread ?_ hbytes (Or.inr ⟨?_, hsize, ?_⟩)
      · dsimp only
        omega
      · dsimp only
        omega
      · dsimp only
        omega
  · refine ⟨conn, ensureAvailableInBuffer_of_room h.using_eq hroom, ?_⟩
    refine Inv.of_small h.using_eq h.status_eq hsmall h.large_nil h.frames h.lived hread hfits h.content
      (Or.inr ⟨?_, hsize, ?_⟩)
    · omega
    · omega

/-- A packet that is whole is taken off, and room is made for the next one.

**Proof sketch.** Bytes are moved only where the offset is close to the end of the small buffer. The span was at the
offset then, as few bytes are left otherwise; and what is written to the start does not reach it. -/
lemma next (h : Walk version alive conn available consumed pending) {packetSize : ℕ}
    (hlength : readPacketLength version pending = .size packetSize) (hwhole : packetSize ≤ pending.length)
    (halive : alive (conn.handed ++ [pending.take packetSize]) = true) :
    ∃ conn', { conn with
        handed := conn.handed ++ [pending.take packetSize]
        status := .reading
        offsetBytes := conn.offsetBytes + packetSize
        readBytes := conn.readBytes - packetSize }.ensureAvailableInBuffer kMinPacketBuffer = some conn' ∧
      conn'.readBytes = conn.readBytes - packetSize ∧ conn'.leftBytes = conn.leftBytes ∧
      Walk version alive conn' ⟨available.large, available.start + packetSize, available.size - packetSize⟩ consumed
        (pending.drop packetSize) := by
  have hsmall := h.small_length
  have hread := h.read_eq
  have hfits := h.fits
  have hspan := h.span_fits
  have hplaces := h.places
  have hroom := h.room
  have hsize := h.span_size
  have hsizes : kSmallBufferSize = 262144 ∧ kMinPacketBuffer = 256 := ⟨rfl, rfl⟩
  have hframes := h.frames.snoc hlength hwhole
  have hlived := h.lived.snoc halive
  have htail : ∀ start, slice conn.smallBuffer start conn.readBytes = pending →
      slice conn.smallBuffer (start + packetSize) (conn.readBytes - packetSize) = pending.drop packetSize := by
    intro start hslice
    rw [← drop_slice, hslice]
  have hrest : conn.readBytes - packetSize = (pending.drop packetSize).length := by
    rw [List.length_drop, hread]
  rcases Nat.lt_or_ge conn.smallBuffer.length (conn.offsetBytes + packetSize + kMinPacketBuffer) with hfull | hfree
  · have hplace : available.start = conn.offsetBytes := by omega
    have hlong : (slice conn.smallBuffer (conn.offsetBytes + packetSize) (conn.readBytes - packetSize)).length =
        conn.readBytes - packetSize := length_slice (by omega)
    have hwrite : 0 + (pending.drop packetSize).length ≤ conn.smallBuffer.length := by omega
    have hbytes := slice_overwrite_self hwrite
    rw [← hrest] at hbytes
    have hkept : slice (overwrite conn.smallBuffer 0 (pending.drop packetSize)) (available.start + packetSize)
        (conn.readBytes - packetSize) =
        slice conn.smallBuffer (available.start + packetSize) (conn.readBytes - packetSize) :=
      slice_overwrite_of_disjoint hwrite (Or.inr (by omega))
    have hensure : Conn.ensureAvailableInBuffer { conn with
        handed := conn.handed ++ [pending.take packetSize]
        status := .reading
        offsetBytes := conn.offsetBytes + packetSize
        readBytes := conn.readBytes - packetSize } kMinPacketBuffer = _ :=
      ensureAvailableInBuffer_eq h.using_eq (by dsimp only; omega) hfull
    rw [if_pos (by dsimp only; omega)] at hensure
    dsimp only at hensure
    rw [htail _ h.content] at hensure
    refine ⟨_, hensure, rfl, rfl, ?_⟩
    refine ⟨rfl, h.using_eq, h.large_nil, (length_overwrite hwrite).trans hsmall, hframes, hlived, hrest,
      ?_, hbytes, h.span_large, ?_, ?_, hkept.trans (htail _ h.span_content), ?_, Or.inr ⟨?_, ?_⟩⟩
    · dsimp only
      omega
    · dsimp only
      omega
    · dsimp only
      omega
    · dsimp only
      omega
    · dsimp only
      omega
    · dsimp only
      omega
  · refine ⟨_, ensureAvailableInBuffer_of_room h.using_eq hfree, rfl, rfl, ?_⟩
    refine ⟨rfl, h.using_eq, h.large_nil, hsmall, hframes, hlived, hrest, ?_, htail _ h.content,
      h.span_large, ?_, ?_, htail _ h.span_content, ?_, ?_⟩
    · dsimp only
      omega
    · dsimp only
      omega
    · dsimp only
      omega
    · dsimp only
      omega
    · dsimp only
      omega

end Walk

/-- **The loop over the packets** hands over those that are whole.

**Proof sketch.** By induction on the rounds, of which there are as many as bytes: a packet is not empty. -/
theorem readPackets_sound {rounds : ℕ} {available : Span} {consumed pending : List UInt8}
    (h : Walk version alive conn available consumed pending) (hleft : conn.leftBytes = 0)
    (hrounds : conn.readBytes ≤ rounds) :
    ∃ conn', conn.readPackets version alive rounds available = some conn' ∧ Sound version alive conn' consumed := by
  induction rounds generalizing conn available pending with
  | zero => exact ⟨conn, rfl, Sound.reading pending (h.inv hleft (h.unknown_of_zero (by omega)))⟩
  | succ rounds ih =>
    rw [readPackets]
    by_cases hzero : conn.readBytes = 0
    · rw [if_pos hzero]
      exact ⟨conn, rfl, Sound.reading pending (h.inv hleft (h.unknown_of_zero hzero))⟩
    · rw [if_neg hzero, h.bytes_eq_pending, Option.bind_eq_bind, Option.bind_some]
      rcases hlength : readPacketLength version pending with _ | _ | packetSize
      · exact ⟨conn, rfl, Sound.reading pending (h.inv hleft hlength)⟩
      · exact ⟨_, rfl, Sound.failed pending rfl h.frames h.lived hlength⟩
      · have hpos := (framing version).pos _ _ hlength
        have hsize := h.span_size
        have hread := h.read_eq
        dsimp only
        by_cases hwhole : packetSize ≤ available.size
        · have hpacket : (pending.take packetSize).length = packetSize := by
            rw [List.length_take]
            omega
          have hspan : conn.bytes ⟨available.large, available.start + 0, packetSize⟩ =
              some (pending.take packetSize) := by
            have hbuffer : conn.buffer available.large = conn.smallBuffer := by rw [h.span_large]; rfl
            have hfits := h.span_fits
            have hsmall := h.small_length
            rw [bytes_eq (by rw [hbuffer]; dsimp only; omega), hbuffer, ← h.span_content,
              take_slice _ _ (by omega)]
            rfl
          have htaken : readPacketLength version (pending.take packetSize) =
              .size (pending.take packetSize).length := by
            rw [hpacket]
            exact readPacketLength_take hlength (by omega)
          rw [if_pos hwhole, subspan_eq (by omega), Option.bind_eq_bind, Option.bind_some,
            socketPacket_eq hspan htaken, Option.bind_eq_bind, Option.bind_some]
          dsimp only
          by_cases halive : alive (conn.handed ++ [pending.take packetSize]) = true
          · rw [if_pos halive, if_neg (by simp), subspan_eq (by omega), Option.bind_some]
            obtain ⟨conn', hensure, hread', hleft', hwalk⟩ := h.next hlength (by omega) halive
            rw [hensure, Option.bind_some]
            exact ih hwalk (hleft'.trans hleft) (by omega)
          · rw [if_neg halive, if_pos (by simp)]
            refine ⟨_, rfl, Sound.closed _ conn.handed (pending.take packetSize) rfl
              (h.frames.snoc hlength (by omega)) h.lived rfl ?_⟩
            simpa using halive
        · rw [if_neg hwhole]
          have hwalk : Walk version alive { conn with leftBytes := packetSize - available.size } available consumed
              pending := { h with }
          obtain ⟨conn', hensure, hinv⟩ := hwalk.ensure_packet hlength (by omega) (by dsimp only; omega)
          exact ⟨conn', hensure, Sound.reading pending hinv⟩

/-! ### One read -/

@[simp] lemma setBuffer_self (conn : Conn) (large : Bool) : conn.setBuffer large (conn.buffer large) = conn := by
  cases large <;> rfl

/-- The connection after some bytes were read. -/
def filled (conn : Conn) (data : List UInt8) : Conn :=
  { conn.setBuffer conn.usingLargeBuffer
      (overwrite (conn.buffer conn.usingLargeBuffer) (conn.offsetBytes + conn.readBytes) data) with
    readBytes := conn.readBytes + data.length }

section Filled

variable (conn : Conn) (data : List UInt8)

@[simp] lemma filled_usingLargeBuffer : (conn.filled data).usingLargeBuffer = conn.usingLargeBuffer :=
  setBuffer_usingLargeBuffer conn _ _

@[simp] lemma filled_offsetBytes : (conn.filled data).offsetBytes = conn.offsetBytes :=
  setBuffer_offsetBytes conn _ _

@[simp] lemma filled_readBytes : (conn.filled data).readBytes = conn.readBytes + data.length := rfl

@[simp] lemma filled_leftBytes : (conn.filled data).leftBytes = conn.leftBytes := setBuffer_leftBytes conn _ _

@[simp] lemma filled_handed : (conn.filled data).handed = conn.handed := setBuffer_handed conn _ _

@[simp] lemma filled_status : (conn.filled data).status = conn.status := setBuffer_status conn _ _

@[simp] lemma filled_buffer : (conn.filled data).buffer conn.usingLargeBuffer =
    overwrite (conn.buffer conn.usingLargeBuffer) (conn.offsetBytes + conn.readBytes) data :=
  setBuffer_buffer conn _ _

end Filled

/-- What is read stands behind what was left. -/
lemma Buffered.filled {consumed pending data : List UInt8} (h : Buffered version alive conn consumed pending)
    (hroom : conn.offsetBytes + conn.readBytes + data.length ≤ (conn.buffer conn.usingLargeBuffer).length) :
    Buffered version alive (conn.filled data) (consumed ++ data) (pending ++ data) := by
  have hlength := length_overwrite hroom
  have hsmall := h.small_length
  refine ⟨?_, ?_, ?_, ?_, ?_, ?_, ?_, ?_⟩
  · rw [filled_status]
    exact h.status_eq
  · rcases husing : conn.usingLargeBuffer with _ | _
    · rw [husing] at hlength
      rw [Conn.filled, husing]
      exact hlength.trans hsmall
    · rw [Conn.filled, husing]
      exact hsmall
  · rw [filled_usingLargeBuffer]
    intro husing
    rw [Conn.filled, husing]
    exact h.large_nil husing
  · rw [filled_handed]
    exact h.frames.append data
  · rw [filled_handed]
    exact h.lived
  · rw [filled_readBytes, List.length_append, h.read_eq]
  · rw [filled_usingLargeBuffer, filled_buffer, filled_offsetBytes, filled_readBytes, hlength]
    omega
  · rw [filled_usingLargeBuffer, filled_buffer, filled_offsetBytes, filled_readBytes,
      slice_overwrite_behind hroom, h.content]

/-- What the socket gives is written behind what was left. -/
lemma write_eq {data : List UInt8} {limit : ℕ} (hdata : data.length ≤ limit)
    (hroom : conn.offsetBytes + conn.readBytes + limit ≤ (conn.buffer conn.usingLargeBuffer).length) :
    conn.write ⟨conn.usingLargeBuffer, conn.offsetBytes + conn.readBytes + 0, limit⟩ data =
      some (conn.setBuffer conn.usingLargeBuffer
        (overwrite (conn.buffer conn.usingLargeBuffer) (conn.offsetBytes + conn.readBytes) data)) := by
  rw [write, if_pos ⟨hdata, by dsimp only; omega⟩]
  rfl

/-- There is room for as many bytes as are asked for, and at least one is. -/
lemma Inv.readLimit_eq {consumed pending : List UInt8} (h : Inv version alive conn consumed pending) :
    ∃ limit, conn.readLimit = some limit ∧ 0 < limit ∧
      conn.offsetBytes + conn.readBytes + limit ≤ (conn.buffer conn.usingLargeBuffer).length := by
  have hread := h.read_eq
  rw [Conn.readLimit]
  rcases h.next with ⟨hleft, husing, hfree, hunknown⟩ | ⟨hleft, hlength, hfree⟩
  · have hshort := length_lt_of_unknown hunknown
    have hsizes : kSmallBufferSize = 262144 ∧ kMinPacketBuffer = 256 := ⟨rfl, rfl⟩
    have hsmall : (conn.buffer conn.usingLargeBuffer).length = kSmallBufferSize := by
      rw [husing]
      exact h.small_length
    rw [if_neg (by omega), if_pos (by omega)]
    exact ⟨_, rfl, by omega, by omega⟩
  · rw [if_pos hleft]
    exact ⟨_, rfl, hleft, hfree⟩

/-- **What was read** fills the packet that is lacking bytes, or goes through the loop over the packets. -/
lemma Inv.received {consumed pending data : List UInt8} (h : Inv version alive conn consumed pending)
    (hroom : conn.offsetBytes + conn.readBytes + data.length ≤ (conn.buffer conn.usingLargeBuffer).length) {limit : ℕ}
    (hlimit : conn.readLimit = some limit) (hcount : data.length ≤ limit) :
    ∃ conn', Conn.received version alive (conn.filled data)
        ⟨conn.usingLargeBuffer, conn.offsetBytes,
          (conn.buffer conn.usingLargeBuffer).length - conn.offsetBytes⟩ data.length = some conn' ∧
      Sound version alive conn' (consumed ++ data) := by
  have hfilled := h.toBuffered.filled hroom
  have hread := h.read_eq
  have hspan : (conn.filled data).bytes ⟨conn.usingLargeBuffer, conn.offsetBytes + 0,
      (conn.filled data).readBytes⟩ = some (pending ++ data) := by
    have hfits := hfilled.fits
    have hcontent := hfilled.content
    rw [filled_usingLargeBuffer, filled_offsetBytes] at hfits hcontent
    rw [bytes_eq (by dsimp only; omega), Nat.add_zero, hcontent]
  rw [Conn.received, filled_leftBytes]
  rcases h.next with ⟨hleft, husing, hfree, -⟩ | ⟨hleft, hlength, hfree⟩
  · have hsmall : (conn.buffer conn.usingLargeBuffer).length = kSmallBufferSize := by
      rw [husing]
      exact h.small_length
    rw [if_neg (by omega), subspan_eq (by rw [filled_readBytes]; dsimp only; omega), Option.bind_eq_bind,
      Option.bind_some]
    have hwalk : Walk version alive (conn.filled data)
        ⟨conn.usingLargeBuffer, conn.offsetBytes + 0, (conn.filled data).readBytes⟩ (consumed ++ data)
        (pending ++ data) := by
      have hbuffer : (conn.filled data).buffer (conn.filled data).usingLargeBuffer =
          (conn.filled data).smallBuffer := by
        rw [filled_usingLargeBuffer, husing]
        rfl
      have hfits := hfilled.fits
      have hcontent := hfilled.content
      rw [hbuffer] at hfits hcontent
      rw [hfilled.small_length] at hfits
      refine ⟨hfilled.status_eq, (filled_usingLargeBuffer _ _).trans husing,
        hfilled.large_nil ((filled_usingLargeBuffer _ _).trans husing), hfilled.small_length, hfilled.frames,
        hfilled.lived, hfilled.read_eq, hfits, hcontent, husing, rfl, ?_, ?_, ?_, Or.inl ?_⟩
      · rw [filled_offsetBytes] at hfits
        exact hfits
      · rw [filled_offsetBytes] at hcontent
        exact hcontent
      · rw [filled_offsetBytes]
        exact hfree
      · rw [filled_offsetBytes, Nat.add_zero]
    exact readPackets_sound hwalk (by rw [filled_leftBytes, hleft]) (Nat.le_refl _)
  · have hmissing : limit = conn.leftBytes := by
      rw [Conn.readLimit, if_pos hleft] at hlimit
      exact (Option.some.inj hlimit).symm
    have hsize := (framing version).length_append hlength data
    rw [if_pos hleft, if_pos (by omega)]
    by_cases hwhole : conn.leftBytes - data.length = 0
    · have hpacket : (pending ++ data).length = conn.readBytes + conn.leftBytes := by
        rw [List.length_append]
        omega
      have htake : (pending ++ data).take (conn.readBytes + conn.leftBytes) = pending ++ data :=
        List.take_of_length_le (by omega)
      have hdrop : (pending ++ data).drop (conn.readBytes + conn.leftBytes) = [] :=
        List.drop_of_length_le (by omega)
      have hframes := hfilled.frames.snoc hsize (by omega)
      rw [htake, hdrop] at hframes
      have hbytes : Conn.bytes { conn.filled data with leftBytes := 0 } ⟨conn.usingLargeBuffer,
          conn.offsetBytes + 0, (conn.filled data).readBytes⟩ = some (pending ++ data) := hspan
      rw [if_pos hwhole, subspan_eq (by rw [filled_readBytes]; dsimp only; omega), Option.bind_eq_bind,
        Option.bind_some, socketPacket_eq hbytes (by rw [hpacket]; exact hsize), Option.bind_eq_bind,
        Option.bind_some]
      dsimp only
      by_cases halive : alive ((conn.filled data).handed ++ [pending ++ data]) = true
      · rw [if_pos halive, if_neg (by simp)]
        refine ⟨_, rfl, Sound.reading [] ?_⟩
        refine Inv.of_small rfl rfl hfilled.small_length rfl hframes (hfilled.lived.snoc halive) rfl ?_ rfl
          (Or.inl ⟨rfl, ?_, ?_⟩)
        · exact Nat.zero_le _
        · exact (by decide : 0 + kMinPacketBuffer ≤ kSmallBufferSize)
        · cases version <;> rfl
      · rw [if_neg halive, if_pos (by simp)]
        refine ⟨_, rfl, Sound.closed [] (conn.filled data).handed (pending ++ data) rfl hframes hfilled.lived rfl ?_⟩
        simpa using halive
    · rw [if_neg hwhole]
      refine ⟨_, rfl, Sound.reading (pending ++ data) ⟨⟨hfilled.status_eq, hfilled.small_length, hfilled.large_nil,
        hfilled.frames, hfilled.lived, hfilled.read_eq, hfilled.fits, hfilled.content⟩, Or.inr ⟨?_, ?_, ?_⟩⟩⟩
      · dsimp only
        omega
      · rw [filled_readBytes]
        refine hsize.trans ?_
        dsimp only
        congr 1
        omega
      · have hlong : ((conn.filled data).buffer (conn.filled data).usingLargeBuffer).length =
            (conn.buffer conn.usingLargeBuffer).length := by
          rw [filled_usingLargeBuffer, filled_buffer, length_overwrite hroom]
        refine le_of_le_of_eq ?_ hlong.symm
        dsimp only
        rw [filled_offsetBytes, filled_readBytes]
        omega

/-- **One read** keeps what the connection has made of its bytes, and no assertion fails. -/
theorem Inv.readOnce {consumed pending : List UInt8} (h : Inv version alive conn consumed pending) (wish : ℕ)
    (incoming : List UInt8) :
    ∃ conn' count, conn.readOnce version alive wish incoming = some (conn', count) ∧
      Sound version alive conn' (consumed ++ incoming.take count) ∧
      (0 < wish → incoming ≠ [] → 0 < count) := by
  have hfits := h.fits
  have hread := h.read_eq
  obtain ⟨limit, hlimit, hpos, hroom⟩ := h.readLimit_eq
  set data := incoming.take (min wish limit) with hdata
  have hcount : data.length ≤ limit := by
    rw [hdata, List.length_take]
    omega
  have htake : incoming.take data.length = data := by
    rw [hdata, List.length_take, List.take_eq_take_iff]
    omega
  have hnonempty : 0 < wish → incoming ≠ [] → 0 < data.length := by
    intro hwish hincoming
    have hlength := List.length_pos_iff.mpr hincoming
    rw [hdata, List.length_take]
    omega
  rw [Conn.readOnce, hlimit, Option.bind_eq_bind, Option.bind_some, full_eq (by omega), Option.bind_eq_bind,
    Option.bind_some, subspan_eq (by dsimp only; omega), Option.bind_eq_bind, Option.bind_some,
    subspan_eq (by dsimp only; omega), Option.bind_some]
  dsimp only
  rw [← hdata, write_eq hcount hroom, Option.bind_some]
  by_cases hnil : data = []
  · rw [if_pos hnil]
    refine ⟨_, 0, rfl, ?_, fun hwish hincoming => absurd (hnonempty hwish hincoming) (by simp [hnil])⟩
    rw [List.take_zero, List.append_nil, hnil, overwrite_nil, setBuffer_self]
    exact Sound.reading pending h
  · rw [if_neg hnil]
    obtain ⟨conn', hreceived, hsound⟩ := h.received (Nat.le_trans (Nat.add_le_add_left hcount _) hroom) hlimit hcount
    rw [Conn.filled] at hreceived
    simp only [setBuffer_readBytes]
    rw [hreceived, Option.bind_some]
    refine ⟨conn', data.length, rfl, ?_, hnonempty⟩
    rw [htake]
    exact hsound

/-! ### All reads -/

/-- A connection that has its small buffer keeps it. -/
lemma Inv.sized_eq {consumed pending : List UInt8} (h : Inv version alive conn consumed pending) :
    conn.sized = conn := by
  have hsmall := h.small_length
  rw [Conn.sized, if_neg]
  rintro hnil
  rw [hnil] at hsmall
  cases hsmall

/-- The connection at its start reads. -/
lemma Inv.start : Inv version alive (Conn.sized {}) [] [] := by
  refine Inv.of_small rfl rfl ?_ rfl (Framing.Frames.nil _) AllAlive.nil rfl (Nat.zero_le _) rfl
    (Or.inl ⟨rfl, ?_, ?_⟩)
  · exact List.length_replicate
  · exact (by decide : 0 + kMinPacketBuffer ≤ kSmallBufferSize)
  · cases version <;> rfl

/-- **The loop of `socketRead`** keeps what the connection has made of its bytes. -/
theorem readLoop_sound {wishes : List ℕ} {consumed incoming : List UInt8} (h : Sound version alive conn consumed)
    (hreading : conn.status = .reading) :
    ∃ conn' incoming', readLoop version alive wishes (conn, incoming) = some (conn', incoming') ∧
      ∃ taken, incoming = taken ++ incoming' ∧ Sound version alive conn' (consumed ++ taken) ∧
        ((∃ wish ∈ wishes.head?, 0 < wish) → incoming ≠ [] → taken ≠ []) := by
  induction wishes generalizing conn consumed incoming with
  | nil =>
    refine ⟨conn, incoming, rfl, [], rfl, by rw [List.append_nil]; exact h, ?_⟩
    rintro ⟨wish, hwish, -⟩
    cases hwish
  | cons wish wishes ih =>
    cases h with
    | failed pending status frames lived invalid => rw [hreading] at status; cases status
    | closed pending earlier last status frames lived handed dead => rw [hreading] at status; cases status
    | reading pending inv =>
      obtain ⟨conn', count, honce, hsound, htakes⟩ := inv.readOnce wish incoming
      have htaken : (∃ wish' ∈ (wish :: wishes).head?, 0 < wish') → incoming ≠ [] → incoming.take count ≠ [] := by
        rintro ⟨wish', hwish', hpos⟩ hincoming htake
        obtain rfl : wish = wish' := Option.some.inj hwish'
        have hcount := htakes hpos hincoming
        have hlength := List.length_pos_iff.mpr hincoming
        have hzero := congrArg List.length htake
        rw [List.length_take, List.length_nil] at hzero
        omega
      rw [readLoop, honce, Option.bind_eq_bind, Option.bind_some]
      dsimp only
      by_cases hstop : count = 0 ∨ conn'.status ≠ .reading
      · rw [if_pos hstop]
        exact ⟨conn', incoming.drop count, rfl, incoming.take count, (List.take_append_drop _ _).symm, hsound,
          htaken⟩
      · rw [if_neg hstop]
        have hstatus : conn'.status = .reading := by
          by_contra hne
          exact hstop (Or.inr hne)
        obtain ⟨conn'', incoming'', hloop, taken, hsplit, hsound', -⟩ := ih hsound hstatus
        refine ⟨conn'', incoming'', hloop, incoming.take count ++ taken, ?_, ?_, ?_⟩
        · rw [List.append_assoc, ← hsplit, List.take_append_drop]
        · rw [← List.append_assoc]
          exact hsound'
        · intro hwish hincoming hnil
          exact htaken hwish hincoming (List.append_eq_nil_iff.mp hnil).1

@[simp] lemma sized_handed (conn : Conn) : conn.sized.handed = conn.handed := by
  rw [sized]
  split <;> rfl

@[simp] lemma sized_status (conn : Conn) : conn.sized.status = conn.status := by
  rw [sized]
  split <;> rfl

@[simp] lemma sized_leftBytes (conn : Conn) : conn.sized.leftBytes = conn.leftBytes := by
  rw [sized]
  split <;> rfl

@[simp] lemma sized_usingLargeBuffer (conn : Conn) : conn.sized.usingLargeBuffer = conn.usingLargeBuffer := by
  rw [sized]
  split <;> rfl

/-- Making the small buffer changes nothing else. -/
lemma Sound.sized {consumed : List UInt8} (h : Sound version alive conn consumed) :
    Sound version alive conn.sized consumed := by
  cases h with
  | reading pending inv =>
    rw [inv.sized_eq]
    exact Sound.reading pending inv
  | failed pending status frames lived invalid =>
    rw [← sized_status] at status
    rw [← sized_handed] at frames lived
    exact Sound.failed pending status frames lived invalid
  | closed pending earlier last status frames lived handed dead =>
    rw [← sized_status] at status
    rw [← sized_handed] at frames handed dead
    exact Sound.closed pending earlier last status frames lived handed dead

/-- **One call of `socketRead`** keeps what the connection has made of its bytes, and no assertion fails. -/
theorem socketRead_sound {wishes : List ℕ} {consumed incoming : List UInt8}
    (h : Sound version alive conn.sized consumed) :
    ∃ conn' incoming', socketRead version alive (conn, incoming) wishes = some (conn', incoming') ∧
      ∃ taken, incoming = taken ++ incoming' ∧ Sound version alive conn'.sized (consumed ++ taken) ∧
        (conn'.status = .reading → conn.status = .reading ∧
          ((∃ wish ∈ wishes.head?, 0 < wish) → incoming ≠ [] → taken ≠ [])) := by
  rw [socketRead]
  by_cases hreading : conn.status = .reading
  · rw [if_neg (not_not.mpr hreading)]
    have hexpects : 0 < conn.leftBytes ∨ conn.usingLargeBuffer = false := by
      rw [← sized_leftBytes, ← sized_usingLargeBuffer]
      cases h with
      | reading pending inv =>
        rcases inv.next with ⟨-, husing, -⟩ | ⟨hleft, -⟩
        · exact Or.inr husing
        · exact Or.inl hleft
      | failed pending status frames lived invalid => rw [sized_status, hreading] at status; cases status
      | closed pending earlier last status frames lived handed dead =>
        rw [sized_status, hreading] at status
        cases status
    rw [if_neg (not_not.mpr hexpects)]
    obtain ⟨conn', incoming', hloop, taken, hsplit, hsound, hprogress⟩ :
        ∃ conn' incoming', readLoop version alive wishes (conn.sized, incoming) = some (conn', incoming') ∧ _ :=
      readLoop_sound h ((sized_status conn).trans hreading)
    exact ⟨conn', incoming', hloop, taken, hsplit, hsound.sized, fun _ => ⟨hreading, hprogress⟩⟩
  · rw [if_pos hreading]
    refine ⟨conn, incoming, rfl, [], rfl, by rw [List.append_nil]; exact h, ?_⟩
    intro hstatus
    exact absurd hstatus hreading

end Conn

end Tcp
