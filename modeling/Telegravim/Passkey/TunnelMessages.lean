import Telegravim.Passkey.TunnelSocket

set_option autoImplicit false

/-!
# Messages through the socket of a passkey tunnel

A server sends messages, each in one frame or in several, with pings and pongs between them. The socket hands over the
payload of every data frame that is not empty, without a look at the flag for the last frame of a message. So messages
arrive whole just where each has one such frame.

## Main definitions

* `Passkey.TunnelSocket.Message` — a message as it is sent.
* `Passkey.TunnelSocket.Sent` — all that a server has sent.
* `Passkey.TunnelSocket.Sent.Handed` — what is expected of the socket.
* `Passkey.TunnelSocket.Whole` — the messages that arrive whole.

## Main results

* `Passkey.TunnelSocket.found_frame_bytes` — a frame is found where it has come.
* `Passkey.TunnelSocket.found_writeFrame` — a frame that is sent parses back.
* `Passkey.TunnelSocket.messages_handed_over` — when the socket hands over whole messages.
-/

namespace Passkey.TunnelSocket

open Text (u toLatin1)
open WebSocket (Frame Mask)

/-! ### Frames that have come -/

section Frames

variable (frame : Frame)

/-- A frame behind its length. -/
lemma foundLength_frame_bytes (opcode : UInt8) (more : Bytes) :
    foundLength (frame.bytes ++ more) opcode frame.mask.isSome frame.payload.length
        (2 + (WebSocket.lengthBytes frame.payload.length).length) =
      if kMaxFramePayload < frame.payload.length then .refused
      else .frame opcode frame.payload frame.bytes.length := by
  have hheader : (if frame.mask.isSome then 2 + (WebSocket.lengthBytes frame.payload.length).length + 4
      else 2 + (WebSocket.lengthBytes frame.payload.length).length) = frame.header := by
    rw [Frame.header, Frame.length_maskBytes]
    split_ifs <;> rfl
  rw [foundLength, hheader]
  refine congrArg (ite _ _) ?_
  rw [foundPayload, if_neg (by rw [List.length_append, Frame.length_bytes]; omega), Frame.take_drop_header,
    Frame.length_bytes]
  refine congrArg (Found.frame opcode · _) ?_
  rcases hmask : frame.mask with - | mask
  · rw [Frame.body, hmask]
    rfl
  · rw [Frame.take_drop_mask frame hmask, Frame.body, hmask]
    exact WebSocket.masked_masked _ _

/-- **A frame is found** where it has come, and refused where it is too long. -/
theorem found_frame_bytes (hlength : frame.payload.length < 2 ^ 63) (more : Bytes) :
    found (frame.bytes ++ more) =
      if kMaxFramePayload < frame.payload.length then .refused
      else .frame (UInt8.ofNat frame.opcode) frame.payload frame.bytes.length := by
  have hmask : decide (frame.second &&& 0x80 ≠ 0) = frame.mask.isSome := by
    rw [Bool.eq_iff_iff, decide_eq_true_iff]
    exact frame.second_and_mask
  have hfound := foundLength_frame_bytes frame (UInt8.ofNat frame.opcode) more
  have hbytes : frame.bytes ++ more = frame.first :: frame.second ::
      (WebSocket.lengthBytes frame.payload.length ++ (frame.maskBytes ++ frame.body ++ more)) := by
    rw [Frame.bytes, List.cons_append, List.cons_append, List.append_assoc]
  rw [hbytes] at hfound ⊢
  rw [found, frame.second_and_length, frame.first_and_opcode, hmask]
  rcases WebSocket.length_cases hlength with ⟨hshort, hbits, hnone⟩ | ⟨hmiddle, -, hbits, htwo, hnumber⟩ |
    ⟨hlong, hbits, height, hnumber⟩
  · rw [hbits, if_neg (by omega), if_neg (by omega)]
    rw [hnone] at hfound ⊢
    exact hfound
  · rw [hbits, if_pos rfl, if_neg (by rw [List.length_append]; omega), ← htwo, List.take_left, hnumber]
    rw [htwo] at hfound
    exact hfound
  · rw [hbits, if_neg (by decide), if_pos rfl, if_neg (by rw [List.length_append]; omega), ← height, List.take_left,
      hnumber]
    rw [height] at hfound
    exact hfound

/-- A part of a frame that has not come whole is waited for. -/
lemma found_part {part more : Bytes} (hpart : part ++ more = frame.bytes) (hmore : more ≠ [])
    (hsmall : frame.payload.length ≤ kMaxFramePayload) : found part = .wait := by
  by_contra hwait
  have hlength : frame.payload.length < 2 ^ 63 := lt_of_le_of_lt hsmall (by decide)
  have hwhole := found_frame_bytes frame hlength []
  rw [List.append_nil, ← hpart, found_append hwait, if_neg (by omega)] at hwhole
  have hsize := found_frame hwhole
  have hpositive := List.length_pos_iff.mpr hmore
  rw [List.length_append] at hsize
  omega

lemma ofNat_and_255 (n : ℕ) : UInt8.ofNat (n &&& 0xFF) = UInt8.ofNat n := by
  have hmod : n &&& 0xFF = n % 256 := Nat.and_two_pow_sub_one_eq_mod n 8
  rw [hmod]
  exact UInt8.ofNat_mod_size

/-- The frames that the socket sends are masked frames of one part. -/
lemma writeFrame_eq (mask : Mask) (payload : Bytes) (opcode : Fin 16) :
    writeFrame mask payload (UInt8.ofNat opcode) =
      Frame.bytes { fin := true, opcode := opcode, mask := some mask, payload := payload } := by
  rw [writeFrame, Frame.bytes, Frame.second, WebSocket.lengthBits, WebSocket.lengthBytes, Positional.bigEndian_eq,
    Positional.bigEndian_eq]
  simp only [ofNat_and_255, Nat.mul_comm _ 8, Option.isSome_some, if_true]
  split_ifs
  · rfl
  · rfl
  · rfl

/-- **A frame that is sent parses back** to its payload, where that is not too long to be taken. -/
theorem found_writeFrame (mask : Mask) {payload : Bytes} (hlength : payload.length < 2 ^ 63) (opcode : Fin 16)
    (more : Bytes) :
    found (writeFrame mask payload (UInt8.ofNat opcode) ++ more) =
      if kMaxFramePayload < payload.length then .refused
      else .frame (UInt8.ofNat opcode) payload (writeFrame mask payload (UInt8.ofNat opcode)).length := by
  rw [writeFrame_eq]
  exact found_frame_bytes { fin := true, opcode := opcode, mask := some mask, payload := payload } hlength more

end Frames

/-! ### What a server sends -/

/-- A control frame between others, of at most 125 bytes. -/
inductive Control where
  | ping (payload : Bytes) (small : payload.length ≤ 125)
  | pong (payload : Bytes) (small : payload.length ≤ 125)

def Control.frame : Control → Frame
  | .ping payload _ => { fin := true, opcode := 9, mask := none, payload := payload }
  | .pong payload _ => { fin := true, opcode := 10, mask := none, payload := payload }

def Control.ping? : Control → Option Bytes
  | .ping payload _ => some payload
  | .pong _ _ => none

/-- A part of a message, with the control frames before it. -/
structure Fragment where
  before : List Control
  payload : Bytes

/-- The payload of the parts of a message. -/
def joined (fragments : List Fragment) : Bytes := (fragments.map Fragment.payload).flatten

/-- The frames of parts of a message: the first has the kind of the message, and the last one its flag where the message
is ended. -/
def framesOf (opcode : Fin 16) (ended : Bool) : List Fragment → List Frame
  | [] => []
  | fragment :: rest =>
    fragment.before.map Control.frame ++
      { fin := ended && rest.isEmpty, opcode := opcode, mask := none, payload := fragment.payload } ::
        framesOf 0 ended rest

/-- **A message as it is sent**, in any number of parts. -/
structure Message where
  fragments : List Fragment
  nonempty : joined fragments ≠ []
  small : (joined fragments).length ≤ kMaxFramePayload

def Message.payload (message : Message) : Bytes := joined message.fragments

/-- **All that a server has sent**: messages, parts of one that is not ended, control frames, and a part of a frame. -/
structure Sent where
  messages : List Message
  unfinished : List Fragment
  small : (joined unfinished).length ≤ kMaxFramePayload
  after : List Control
  tail : Bytes
  part : tail = [] ∨ ∃ (frame : Frame) (more : Bytes),
    tail ++ more = frame.bytes ∧ more ≠ [] ∧ frame.payload.length ≤ kMaxFramePayload

namespace Sent

variable (sent : Sent)

/-- All frames that are sent whole. -/
def frames : List Frame :=
  sent.messages.flatMap (fun message => framesOf 2 true message.fragments) ++ framesOf 2 false sent.unfinished ++
    sent.after.map Control.frame

/-- All bytes that are sent. -/
def bytes : Bytes := sent.frames.flatMap Frame.bytes ++ sent.tail

/-- All control frames that are sent. -/
def controls : List Control :=
  (sent.messages.flatMap Message.fragments ++ sent.unfinished).flatMap Fragment.before ++ sent.after

/-- The payloads of all pings. -/
def pings : List Bytes := sent.controls.filterMap Control.ping?

end Sent

/-! ### What becomes of frames -/

/-- What the socket does about frames that come whole: what it does, and the messages handed over unless it is closed. -/
def deliver (handlers : Handlers) (handed : List Bytes) : List Frame → List Event × Option (List Bytes)
  | [] => ([], some handed)
  | frame :: frames =>
    match react handlers handed (.frame (UInt8.ofNat frame.opcode) frame.payload frame.bytes.length) with
    | .wait => ([], some handed)
    | .take _ next out => (out ++ (deliver handlers next frames).1, (deliver handlers next frames).2)
    | .stop out => (out, none)

/-- **Frames that come whole** are taken one after the other. -/
theorem run_frames (handlers : Handlers) (handed : List Bytes) {frames : List Frame} {tail : Bytes}
    (hsmall : ∀ frame ∈ frames, frame.payload.length ≤ kMaxFramePayload) (htail : found tail = .wait) :
    (reader handlers).run handed (frames.flatMap Frame.bytes ++ tail) =
      ((deliver handlers handed frames).1, (deliver handlers handed frames).2.map fun next => (next, tail)) := by
  induction frames generalizing handed with
  | nil =>
    have hstep : (reader handlers).step handed tail = .wait := congrArg (react handlers handed) htail
    exact Incremental.run_wait hstep
  | cons frame frames ih =>
    have hframe := hsmall frame List.mem_cons_self
    have hlength : frame.payload.length < 2 ^ 63 := lt_of_le_of_lt hframe (by decide)
    have hfound := found_frame_bytes frame hlength (frames.flatMap Frame.bytes ++ tail)
    rw [if_neg (by omega)] at hfound
    have hstep : (reader handlers).step handed (frame.bytes ++ (frames.flatMap Frame.bytes ++ tail)) =
        react handlers handed (.frame (UInt8.ofNat frame.opcode) frame.payload frame.bytes.length) :=
      congrArg (react handlers handed) hfound
    rw [List.flatMap_cons, List.append_assoc, deliver]
    rcases hreact : react handlers handed (.frame (UInt8.ofNat frame.opcode) frame.payload frame.bytes.length) with
      - | ⟨count, next, out⟩ | out
    · rw [react] at hreact
      split_ifs at hreact
    · obtain ⟨opcode, payload, heq⟩ := react_take hreact
      cases heq
      rw [Incremental.run_take (hstep.trans hreact), List.drop_left,
        ih next fun frame hmem => hsmall frame (List.mem_cons_of_mem _ hmem)]
    · rw [Incremental.run_stop (hstep.trans hreact)]
      rfl

/-- The messages up to the one at which the owner closes the socket. -/
def untilClosed (closes : List Bytes → Bool) : List Bytes → List Bytes → List Bytes
  | _, [] => []
  | handed, message :: messages =>
    message :: if closes (handed ++ [message]) then [] else untilClosed closes (handed ++ [message]) messages

/-- The payload of a data frame that is not empty. -/
def dataOf (frame : Frame) : Option Bytes :=
  if (frame.opcode = 0 ∨ frame.opcode = 2) ∧ frame.payload ≠ [] then some frame.payload else none

/-- The payload of a ping. -/
def pingOf (frame : Frame) : Option Bytes := if frame.opcode = 9 then some frame.payload else none

/-- What becomes of frames: the messages handed over, the pongs, and what is left. -/
structure Delivered (handlers : Handlers) (handed : List Bytes) (frames : List Frame)
    (result : List Event × Option (List Bytes)) : Prop where
  messages : result.1.filterMap Event.message = untilClosed handlers.closesBinary handed (frames.filterMap dataOf)
  pongs : result.1.filterMap Event.pong <+: frames.filterMap pingOf
  opened : ∀ next, result.2 = some next → next = handed ++ result.1.filterMap Event.message ∧
    result.1.filterMap Event.pong = frames.filterMap pingOf
  closed : result.2 = none → handlers.closesBinary (handed ++ result.1.filterMap Event.message) = true

lemma filterMap_cons_toList {α β : Type} (f : α → Option β) (x : α) (xs : List α) :
    (x :: xs).filterMap f = (f x).toList ++ xs.filterMap f := by
  rw [List.filterMap_cons]
  cases f x <;> rfl

/-- One more frame that is taken before others. -/
lemma Delivered.take {handlers : Handlers} {handed : List Bytes} {frame : Frame} {frames : List Frame}
    {out : List Event} {result : List Event × Option (List Bytes)}
    (h : Delivered handlers (handed ++ out.filterMap Event.message) frames result)
    (hdata : out.filterMap Event.message = (dataOf frame).toList)
    (hping : out.filterMap Event.pong = (pingOf frame).toList)
    (hopen : ∀ message, dataOf frame = some message → handlers.closesBinary (handed ++ [message]) = false) :
    Delivered handlers handed (frame :: frames) (out ++ result.1, result.2) := by
  refine ⟨?_, ?_, fun next hnext => ?_, fun hnone => ?_⟩
  · have hmessages := h.messages
    rw [List.filterMap_append, hmessages, filterMap_cons_toList dataOf, hdata]
    rcases hframe : dataOf frame with - | message
    · rw [Option.toList_none, List.nil_append, List.append_nil, List.nil_append]
    · rw [Option.toList_some, List.singleton_append, List.singleton_append, untilClosed, hopen message hframe]
      rfl
  · rw [List.filterMap_append, filterMap_cons_toList pingOf, hping]
    exact (List.prefix_append_right_inj _).mpr h.pongs
  · obtain ⟨hhanded, hpongs⟩ := h.opened next hnext
    rw [List.filterMap_append, List.filterMap_append, filterMap_cons_toList pingOf, hping, hpongs, ← List.append_assoc]
    exact ⟨hhanded, rfl⟩
  · rw [List.filterMap_append, ← List.append_assoc]
    exact h.closed hnone

/-- **What becomes of the frames of a server.** -/
theorem deliver_delivered (handlers : Handlers) (handed : List Bytes) {frames : List Frame}
    (hserved : ∀ frame ∈ frames, frame.opcode = 0 ∨ frame.opcode = 2 ∨ frame.opcode = 9 ∨ frame.opcode = 10) :
    Delivered handlers handed frames (deliver handlers handed frames) := by
  induction frames generalizing handed with
  | nil => exact ⟨rfl, List.prefix_rfl, fun next hnext => ⟨by cases hnext; exact (List.append_nil _).symm, rfl⟩,
      fun hnone => by cases hnone⟩
  | cons frame frames ih =>
    have hrest : ∀ handed, Delivered handlers handed frames (deliver handlers handed frames) := fun handed =>
      ih handed fun frame hmem => hserved frame (List.mem_cons_of_mem _ hmem)
    have hframe := hserved frame List.mem_cons_self
    rw [deliver, react]
    by_cases hdata : frame.opcode = 0 ∨ frame.opcode = 2
    · have hopcode : UInt8.ofNat frame.opcode = kOpcodeContinuation ∨ UInt8.ofNat frame.opcode = kOpcodeBinary :=
        hdata.imp (fun h => by rw [h]; rfl) (fun h => by rw [h]; rfl)
      have hping : pingOf frame = none := if_neg (by rcases hdata with h | h <;> rw [h] <;> decide)
      rw [if_pos hopcode]
      by_cases hempty : frame.payload = []
      · have hnone : dataOf frame = none := if_neg fun h => h.2 hempty
        rw [if_pos hempty]
        refine Delivered.take ?_ (by rw [hnone]; rfl)
          (by rw [hping]; rfl) fun _ hdata => by rw [hnone] at hdata; cases hdata
        rw [List.filterMap_nil, List.append_nil]
        exact hrest handed
      · have hsome : dataOf frame = some frame.payload := if_pos ⟨hdata, hempty⟩
        rw [if_neg hempty]
        by_cases hcloses : handlers.closesBinary (handed ++ [frame.payload]) = true
        · rw [if_pos hcloses]
          refine ⟨?_, List.nil_prefix, fun _ hnext => (by cases hnext), fun _ => hcloses⟩
          rw [List.filterMap_cons_some hsome, untilClosed, if_pos hcloses]
          rfl
        · rw [if_neg hcloses]
          refine Delivered.take (hrest _) (by rw [hsome]; rfl) (by rw [hping]; rfl) fun message hmessage => ?_
          rw [hsome] at hmessage
          cases hmessage
          exact Bool.eq_false_iff.mpr hcloses
    · have hnone : dataOf frame = none := if_neg fun h => hdata h.1
      have hcontrol : frame.opcode = 9 ∨ frame.opcode = 10 := by tauto
      rcases hcontrol with hping | hpong
      · have hsome : pingOf frame = some frame.payload := if_pos hping
        rw [hping, if_neg (by decide), if_neg (by decide), if_pos (by rfl)]
        refine Delivered.take ?_ (by rw [hnone]; rfl)
          (by rw [hsome]; rfl) fun _ hdata => by rw [hnone] at hdata; cases hdata
        rw [List.filterMap_cons_none rfl, List.filterMap_nil, List.append_nil]
        exact hrest handed
      · have hping : pingOf frame = none := if_neg (by rw [hpong]; decide)
        rw [hpong, if_neg (by decide), if_neg (by decide), if_neg (by decide), if_pos (by decide)]
        refine Delivered.take ?_ (by rw [hnone]; rfl)
          (by rw [hping]; rfl) fun _ hdata => by rw [hnone] at hdata; cases hdata
        rw [List.filterMap_nil, List.append_nil]
        exact hrest handed

/-! ### The frames of messages -/

/-- The payloads of the parts that are not empty. -/
def parts (fragments : List Fragment) : List Bytes := (fragments.map Fragment.payload).filter (· ≠ [])

lemma flatten_parts (fragments : List Fragment) : (parts fragments).flatten = joined fragments := by
  rw [parts, joined]
  induction fragments.map Fragment.payload with
  | nil => rfl
  | cons payload payloads ih =>
    rw [List.filter_cons]
    by_cases hempty : payload = []
    · rw [if_neg (by simpa using hempty), ih, hempty, List.flatten_cons, List.nil_append]
    · rw [if_pos (by simpa using hempty), List.flatten_cons, ih, List.flatten_cons]

lemma ne_nil_of_mem_parts {fragments : List Fragment} {payload : Bytes} (h : payload ∈ parts fragments) :
    payload ≠ [] := by
  simpa using (List.mem_filter.mp h).2

lemma dataOf_control (control : Control) : dataOf control.frame = none := by
  have hping : ¬((9 : Fin 16) = 0 ∨ (9 : Fin 16) = 2) := by decide
  have hpong : ¬((10 : Fin 16) = 0 ∨ (10 : Fin 16) = 2) := by decide
  cases control with
  | ping payload hsmall => exact if_neg fun h => hping h.1
  | pong payload hsmall => exact if_neg fun h => hpong h.1

lemma pingOf_control (control : Control) : pingOf control.frame = control.ping? := by
  cases control <;> rfl

lemma filterMap_dataOf_controls (controls : List Control) :
    (controls.map Control.frame).filterMap dataOf = [] := by
  rw [List.filterMap_map]
  exact List.filterMap_eq_nil_iff.mpr fun control _ => dataOf_control control

lemma filterMap_pingOf_controls (controls : List Control) :
    (controls.map Control.frame).filterMap pingOf = controls.filterMap Control.ping? := by
  rw [List.filterMap_map]
  exact congrArg (List.filterMap · controls) (funext pingOf_control)

/-- The data frames of a message are its parts. -/
lemma filterMap_dataOf_framesOf {opcode : Fin 16} (hopcode : opcode = 0 ∨ opcode = 2) (ended : Bool)
    (fragments : List Fragment) : (framesOf opcode ended fragments).filterMap dataOf = parts fragments := by
  induction fragments generalizing opcode with
  | nil => rfl
  | cons fragment rest ih =>
    rw [framesOf, List.filterMap_append, filterMap_dataOf_controls, List.nil_append, filterMap_cons_toList,
      ih (.inl rfl), parts, parts, List.map_cons, List.filter_cons, dataOf]
    by_cases hempty : fragment.payload = []
    · rw [if_neg (fun h => h.2 hempty), if_neg (by simpa using hempty)]
      rfl
    · rw [if_pos ⟨hopcode, hempty⟩, if_pos (by simpa using hempty)]
      rfl

/-- The pings among the frames of a message. -/
lemma filterMap_pingOf_framesOf {opcode : Fin 16} (hopcode : opcode = 0 ∨ opcode = 2) (ended : Bool)
    (fragments : List Fragment) :
    (framesOf opcode ended fragments).filterMap pingOf =
      (fragments.flatMap Fragment.before).filterMap Control.ping? := by
  induction fragments generalizing opcode with
  | nil => rfl
  | cons fragment rest ih =>
    have hping : opcode ≠ 9 := by rcases hopcode with h | h <;> rw [h] <;> decide
    rw [framesOf, List.filterMap_append, filterMap_pingOf_controls, filterMap_cons_toList, ih (.inl rfl), pingOf,
      if_neg hping, Option.toList_none, List.nil_append, List.flatMap_cons, List.filterMap_append]

lemma control_frame (control : Control) :
    (control.frame.opcode = 9 ∨ control.frame.opcode = 10) ∧ control.frame.payload.length ≤ kMaxFramePayload := by
  rcases control with ⟨payload, hsmall⟩ | ⟨payload, hsmall⟩
  · exact ⟨.inl rfl, le_trans hsmall (by decide)⟩
  · exact ⟨.inr rfl, le_trans hsmall (by decide)⟩

lemma mem_framesOf {opcode : Fin 16} (hopcode : opcode = 0 ∨ opcode = 2) {ended : Bool} {fragments : List Fragment}
    (hsmall : (joined fragments).length ≤ kMaxFramePayload) {frame : Frame}
    (hframe : frame ∈ framesOf opcode ended fragments) :
    (frame.opcode = 0 ∨ frame.opcode = 2 ∨ frame.opcode = 9 ∨ frame.opcode = 10) ∧
      frame.payload.length ≤ kMaxFramePayload := by
  induction fragments generalizing opcode with
  | nil => cases hframe
  | cons fragment rest ih =>
    rw [joined, List.map_cons, List.flatten_cons, List.length_append] at hsmall
    rw [framesOf, List.mem_append, List.mem_cons, List.mem_map] at hframe
    rcases hframe with ⟨control, -, rfl⟩ | rfl | hframe
    · exact ⟨(control_frame control).1.elim (fun h => .inr (.inr (.inl h))) (fun h => .inr (.inr (.inr h))),
        (control_frame control).2⟩
    · exact ⟨hopcode.imp id .inl, le_trans (Nat.le_add_right _ _) hsmall⟩
    · exact ih (.inl rfl) (by rw [joined]; omega) hframe

namespace Sent

variable (sent : Sent)

lemma mem_frames {frame : Frame} (hframe : frame ∈ sent.frames) :
    (frame.opcode = 0 ∨ frame.opcode = 2 ∨ frame.opcode = 9 ∨ frame.opcode = 10) ∧
      frame.payload.length ≤ kMaxFramePayload := by
  rw [frames, List.mem_append, List.mem_append, List.mem_flatMap, List.mem_map] at hframe
  rcases hframe with (⟨message, -, hframe⟩ | hframe) | ⟨control, -, rfl⟩
  · exact mem_framesOf (.inr rfl) message.small hframe
  · exact mem_framesOf (.inr rfl) sent.small hframe
  · exact ⟨(control_frame control).1.elim (fun h => .inr (.inr (.inl h))) (fun h => .inr (.inr (.inr h))),
      (control_frame control).2⟩

lemma filterMap_dataOf_frames :
    sent.frames.filterMap dataOf =
      sent.messages.flatMap (fun message => parts message.fragments) ++ parts sent.unfinished := by
  rw [frames, List.filterMap_append, List.filterMap_append, filterMap_dataOf_controls, List.append_nil,
    filterMap_dataOf_framesOf (.inr rfl), List.filterMap_flatMap]
  simp only [filterMap_dataOf_framesOf (.inr rfl)]

lemma filterMap_pingOf_frames : sent.frames.filterMap pingOf = sent.pings := by
  rw [frames, List.filterMap_append, List.filterMap_append, filterMap_pingOf_controls,
    filterMap_pingOf_framesOf (.inr rfl), List.filterMap_flatMap, pings, controls, List.filterMap_append,
    List.flatMap_append, List.filterMap_append, List.flatMap_assoc]
  simp only [filterMap_pingOf_framesOf (.inr rfl), List.filterMap_flatMap]

lemma found_tail : found sent.tail = .wait := by
  rcases sent.part with htail | ⟨frame, more, hframe, hmore, hsmall⟩
  · rw [htail]
    rfl
  · exact found_part frame hframe hmore hsmall

end Sent

/-- **The messages that arrive whole**: up to the one at which the owner closes the socket, each has one part that is not
empty, and of one that is not ended no such part has been sent. -/
def Whole (closes : List Bytes → Bool) : List Bytes → List Message → List Fragment → Prop
  | _, [], unfinished => parts unfinished = []
  | handed, message :: messages, unfinished =>
    (parts message.fragments).length = 1 ∧
      (closes (handed ++ [message.payload]) = true ∨ Whole closes (handed ++ [message.payload]) messages unfinished)

/-- **Parts are the messages** just where the messages arrive whole. -/
theorem untilClosed_parts_iff (closes : List Bytes → Bool) (handed : List Bytes) (messages : List Message)
    (unfinished : List Fragment) :
    untilClosed closes handed
        (messages.flatMap (fun message => parts message.fragments) ++ parts unfinished) =
      untilClosed closes handed (messages.map Message.payload) ↔ Whole closes handed messages unfinished := by
  induction messages generalizing handed with
  | nil =>
    rw [List.flatMap_nil, List.nil_append, List.map_nil, Whole]
    cases parts unfinished with
    | nil => exact ⟨fun _ => rfl, fun _ => rfl⟩
    | cons payload payloads => exact ⟨nofun, nofun⟩
  | cons message messages ih =>
    rw [List.flatMap_cons, List.append_assoc, List.map_cons, Whole]
    have hflatten := flatten_parts message.fragments
    rcases hparts : parts message.fragments with - | ⟨payload, payloads⟩
    · rw [hparts] at hflatten
      exact absurd hflatten.symm message.nonempty
    · rw [hparts, List.flatten_cons] at hflatten
      rw [List.cons_append, untilClosed, untilClosed, List.cons.injEq]
      by_cases hone : payloads = []
      · have hpayload : message.payload = payload := by
          rw [hone, List.flatten_nil, List.append_nil] at hflatten
          exact hflatten.symm
        rw [hone, List.nil_append, hpayload, List.length_singleton, and_iff_right rfl, and_iff_right rfl]
        by_cases hcloses : closes (handed ++ [payload]) = true
        · rw [if_pos hcloses, if_pos hcloses]
          exact ⟨fun _ => .inl hcloses, fun _ => rfl⟩
        · rw [if_neg hcloses, if_neg hcloses, ih, or_iff_right hcloses]
      · refine ⟨fun h => absurd ?_ hone, fun h => absurd h.1 ?_⟩
        · have hmore : payload ++ payloads.flatten = payload ++ [] := by
            rw [hflatten, List.append_nil]
            exact h.1.symm
          refine List.eq_nil_iff_forall_not_mem.mpr fun more hmem => ?_
          have hempty := List.flatten_eq_nil_iff.mp (List.append_cancel_left hmore) more hmem
          exact ne_nil_of_mem_parts (hparts ▸ List.mem_cons_of_mem _ hmem) hempty
        · rw [List.length_cons]
          have hpositive := List.length_pos_iff.mpr hone
          omega

/-! ### Messages handed over -/

/-- **What is expected of the socket** when all that is sent has come: it has handed over the messages, one call for
each, up to the one at which its owner closes it; it has answered the pings; and it keeps what has not come whole. -/
structure Sent.Handed (sent : Sent) (handlers : Handlers) (socket : TunnelSocket) : Prop where
  messages : socket.handed = untilClosed handlers.closesBinary [] (sent.messages.map Message.payload)
  answered : socket.pongs <+: sent.pings
  opened : socket.state = .Connected → socket.pongs = sent.pings ∧ socket.incoming = sent.tail
  alive : socket.state = .Connected ∨ handlers.closesBinary socket.handed = true

section Reads

variable {Sha1Digest : Bytes → Bytes} {handlers : Handlers} {key response : Bytes}

lemma Holds.events_eq {socket : TunnelSocket} {given : List Event × Option (List Bytes × Bytes)}
    (h : Holds socket given) : socket.events = given.1 := by
  cases h <;> rfl

lemma Holds.incoming_eq {socket : TunnelSocket} {given : List Event × Option (List Bytes × Bytes)}
    (h : Holds socket given) (hconnected : socket.state = .Connected) :
    given.2 = some (socket.handed, socket.incoming) := by
  cases h with
  | opened => rfl
  | closed hclosed => rw [hconnected] at hclosed; cases hclosed

lemma Holds.connected_or {socket : TunnelSocket} {given : List Event × Option (List Bytes × Bytes)}
    (h : Holds socket given) : socket.state = .Connected ∨ given.2 = none := by
  cases h with
  | opened hconnected => exact .inl hconnected
  | closed => exact .inr rfl

/-- **What has been sent has come**: the parts of the messages are handed over. -/
theorem reads_sent (h : Answers Sha1Digest handlers key response) (sent : Sent) {reads : List Bytes}
    (hreads : reads.flatten = response ++ sent.bytes) :
    ∃ socket, reads.foldlM (onReadyRead Sha1Digest handlers) (waiting key []) = some socket ∧
      socket.handed = untilClosed handlers.closesBinary []
        (sent.messages.flatMap (fun message => parts message.fragments) ++ parts sent.unfinished) ∧
      socket.pongs <+: sent.pings ∧
      (socket.state = .Connected → socket.pongs = sent.pings ∧ socket.incoming = sent.tail) ∧
      (socket.state = .Connected ∨ handlers.closesBinary socket.handed = true) := by
  obtain ⟨last, hlast, hlength, -⟩ := h.checks
  obtain ⟨socket, hsocket, hholds⟩ := h.reads_hold [] (by rw [List.length_nil]; omega) hreads
  have hdelivered := deliver_delivered handlers [] fun frame hframe => (sent.mem_frames hframe).1
  rw [Sent.bytes, run_frames handlers [] (fun frame hframe => (sent.mem_frames hframe).2) sent.found_tail] at hholds
  have hevents := hholds.events_eq
  have hhanded : socket.handed = (deliver handlers [] sent.frames).1.filterMap Event.message := by
    rw [handed, hevents, List.filterMap_cons_none rfl]
  have hpongs : socket.pongs = (deliver handlers [] sent.frames).1.filterMap Event.pong := by
    rw [pongs, hevents, List.filterMap_cons_none rfl]
  refine ⟨socket, hsocket, ?_, ?_, fun hconnected => ?_, ?_⟩
  · rw [hhanded, hdelivered.messages, sent.filterMap_dataOf_frames]
  · rw [hpongs, ← sent.filterMap_pingOf_frames]
    exact hdelivered.pongs
  · obtain ⟨next, hnext, heq⟩ := Option.map_eq_some_iff.mp (hholds.incoming_eq hconnected)
    rw [hpongs, (hdelivered.opened next hnext).2, sent.filterMap_pingOf_frames]
    exact ⟨rfl, (Prod.mk.inj heq).2.symm⟩
  · refine hholds.connected_or.imp id fun hnone => ?_
    rw [hhanded]
    exact hdelivered.closed (Option.map_eq_none_iff.mp hnone)

end Reads

/-- **When the socket hands over whole messages.** All that a server has sent after the answer to the upgrade request may
be cut anywhere into reads. The socket does what is expected of it just where every message, up to the one at which the
owner closes the socket, comes in one frame that is not empty besides empty ones. It never reads past the end of what
has come, and a frame that it writes parses back to its payload just where that is not longer than it takes. -/
theorem messages_handed_over (Sha1Digest : Bytes → Bytes) :
    (∀ (handlers : Handlers) (key response : Bytes) (sent : Sent) (reads : List Bytes),
      Answers Sha1Digest handlers key response → reads.flatten = response ++ sent.bytes →
        ∃ socket, reads.foldlM (onReadyRead Sha1Digest handlers) (waiting key []) = some socket ∧
          (sent.Handed handlers socket ↔ Whole handlers.closesBinary [] sent.messages sent.unfinished)) ∧
      (∀ (handlers : Handlers) (socket : TunnelSocket), (parseFrames handlers socket).isSome) ∧
      (∀ (mask : Mask) (payload more : Bytes) (opcode : Fin 16), payload.length < 2 ^ 63 →
        (parseFrame (writeFrame mask payload (UInt8.ofNat opcode) ++ more) 0 =
            some (.frame (UInt8.ofNat opcode) payload (writeFrame mask payload (UInt8.ofNat opcode)).length) ↔
          payload.length ≤ kMaxFramePayload)) := by
  refine ⟨fun handlers key response sent reads h hreads => ?_, parseFrames_isSome,
    fun mask payload more opcode hlength => ?_⟩
  · obtain ⟨socket, hsocket, hhanded, hpongs, hopened, halive⟩ := reads_sent h sent hreads
    refine ⟨socket, hsocket, ?_⟩
    rw [← untilClosed_parts_iff, ← hhanded]
    exact ⟨fun h => h.messages, fun h => ⟨h, hpongs, hopened, halive⟩⟩
  · rw [parseFrame_eq (Nat.zero_le _), List.drop_zero, found_writeFrame mask hlength, Option.some.injEq]
    split_ifs with hlarge
    · exact ⟨nofun, fun h => by omega⟩
    · exact ⟨fun _ => by omega, fun _ => rfl⟩

/-! ### One message in two frames -/

/-- A key sent with an upgrade request. -/
def sampleKey : Bytes := toLatin1 (u "dGhlIHNhbXBsZSBub25jZQ==")

/-- The digest of the key with the text that is put behind it. -/
def sampleDigest : Bytes :=
  [0xb3, 0x7a, 0x4f, 0x2c, 0xc0, 0x62, 0x4f, 0x16, 0x90, 0xf6, 0x46, 0x06, 0xcf, 0x38, 0x59, 0x45, 0xb2, 0xbe, 0xc4,
    0xea]

/-- The answer of a server. -/
def sampleResponse : Bytes :=
  toLatin1 (u ("HTTP/1.1 101 Switching Protocols\r\nUpgrade: websocket\r\nConnection: Upgrade\r\n" ++
    "Sec-WebSocket-Accept: s3pPLMBiTxaQ9kYGzzhZRbK+xOo=\r\n\r\n"))

/-- An owner that does not close the socket. -/
def sampleHandlers : Handlers := { closesConnected := false, closesBinary := fun _ => false }

lemma sample_answers : Answers (fun _ => sampleDigest) sampleHandlers sampleKey sampleResponse where
  accepts := by decide +kernel
  small := by decide +kernel

/-- One message in two frames, with a ping between them. -/
def twoFrames : Sent where
  messages := [{
    fragments := [⟨[], [1]⟩, ⟨[.ping [7] (by decide)], [2]⟩]
    nonempty := by decide
    small := by decide }]
  unfinished := []
  small := by decide
  after := []
  tail := []
  part := .inl rfl

/-- One message in one frame, and a part of the next frame. -/
def oneFrame : Sent where
  messages := [{
    fragments := [⟨[.ping [7] (by decide)], [1, 2]⟩]
    nonempty := by decide
    small := by decide }]
  unfinished := []
  small := by decide
  after := []
  tail := [0x82]
  part := .inr ⟨{ fin := true, opcode := 2, mask := none, payload := [5] }, [1, 5], by decide, by decide, by decide⟩

/-- A message in one frame is handed over whole, and what follows is kept. -/
theorem one_frame_handed_over :
    ∃ socket, [sampleResponse, oneFrame.bytes].foldlM (onReadyRead (fun _ => sampleDigest) sampleHandlers)
        (waiting sampleKey []) = some socket ∧ oneFrame.Handed sampleHandlers socket := by
  obtain ⟨socket, hsocket, hiff⟩ := (messages_handed_over fun _ => sampleDigest).1 sampleHandlers sampleKey
    sampleResponse oneFrame [sampleResponse, oneFrame.bytes] sample_answers (by
      rw [List.flatten_cons, List.flatten_singleton])
  exact ⟨socket, hsocket, hiff.mpr ⟨rfl, .inr rfl⟩⟩

/-- **A message in two frames is handed over in two parts.** -/
theorem two_frames_two_messages :
    ¬∀ (sent : Sent) (reads : List Bytes), reads.flatten = sampleResponse ++ sent.bytes →
      ∃ socket, reads.foldlM (onReadyRead (fun _ => sampleDigest) sampleHandlers) (waiting sampleKey []) = some socket ∧
        sent.Handed sampleHandlers socket := by
  intro hall
  have hreads : [sampleResponse ++ twoFrames.bytes].flatten = sampleResponse ++ twoFrames.bytes :=
    List.flatten_singleton
  obtain ⟨socket, hsocket, hhanded⟩ := hall twoFrames _ hreads
  obtain ⟨socket', hsocket', hparts, -⟩ := reads_sent sample_answers twoFrames hreads
  rw [hsocket'] at hsocket
  cases hsocket
  have hmessages := hhanded.messages
  rw [hparts] at hmessages
  exact absurd hmessages (by decide)

end Passkey.TunnelSocket
