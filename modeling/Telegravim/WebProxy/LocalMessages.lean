import Telegravim.WebProxy.LocalSocket

set_option autoImplicit false

/-!
# Messages of the browser

A client that keeps the rules sends messages in one frame or in several, masked, with control frames between them. They
are delivered once and whole, in order, and the pings among them are answered in between. At a frame that breaks a rule
the connection is closed and nothing more is delivered.

## Main definitions

* `WebProxy.LocalSocket.Message`, `WebProxy.LocalSocket.Sent` — what a client sends that keeps the rules.
* `WebProxy.LocalSocket.answer` — what is expected of the server.
* `WebProxy.LocalSocket.Refused` — input whose next frame breaks a rule.

## Main results

* `WebProxy.LocalSocket.run_messages` — messages that come whole are answered as expected.
* `WebProxy.LocalSocket.Refused.run` — the connection is closed at a frame that breaks a rule.
* `WebProxy.LocalSocket.messages_delivered` — messages are delivered once and whole, however the input is cut.
-/

namespace WebProxy.LocalSocket

open WebSocket (Mask)

/-! ### What a client sends -/

/-- A control frame between others, of at most 125 bytes. -/
structure Control where
  ping : Bool
  mask : Mask
  payload : Bytes
  small : payload.length ≤ 125

def Control.frame (control : Control) : WebSocket.Frame where
  fin := true
  opcode := if control.ping then 9 else 10
  mask := some control.mask
  payload := control.payload

/-- A part of a message, with the control frames before it. -/
structure Fragment where
  before : List Control
  mask : Mask
  payload : Bytes

/-- The payload of the parts of a message. -/
def joined (fragments : List Fragment) : Bytes := (fragments.map Fragment.payload).flatten

/-- The frames of a message: the first has its kind, and the last one the flag for the end. -/
def framesOf (opcode : Fin 16) : List Fragment → List WebSocket.Frame
  | [] => []
  | fragment :: rest =>
    fragment.before.map Control.frame ++
      { fin := rest.isEmpty, opcode := opcode, mask := some fragment.mask, payload := fragment.payload } ::
        framesOf 0 rest

/-- **A message as it is sent**, in any number of parts. -/
structure Message where
  text : Bool
  fragments : List Fragment
  nonempty : fragments ≠ []
  small : (joined fragments).length ≤ kMaxLocalWebSocketPayload

namespace Message

variable (message : Message)

/-- The kind of a message. -/
def opcode : Fin 16 := if message.text then 1 else 2

def payload : Bytes := joined message.fragments

end Message

/-- **What a client sends that keeps the rules**: messages, and control frames behind them. -/
structure Sent where
  messages : List Message
  after : List Control

/-- All bytes that are sent. -/
def Sent.bytes (sent : Sent) : Bytes :=
  sent.messages.flatMap (fun message => (framesOf message.opcode message.fragments).flatMap WebSocket.Frame.bytes) ++
    (sent.after.map Control.frame).flatMap WebSocket.Frame.bytes

/-! ### What is expected of the server -/

/-- What the server has to see to: a ping, or a message. -/
inductive Item where
  | ping (payload : Bytes)
  | message (opcode : UInt8) (payload : Bytes)

def Control.items (control : Control) : List Item := if control.ping then [.ping control.payload] else []

/-- The pings before and within a message, and the message at its end. -/
def Message.items (message : Message) : List Item :=
  (message.fragments.flatMap Fragment.before).flatMap Control.items ++
    [.message (UInt8.ofNat message.opcode) message.payload]

def Sent.items (sent : Sent) : List Item :=
  sent.messages.flatMap Message.items ++ sent.after.flatMap Control.items

variable {H : Type} (server : Host H)

/-- **What is expected of the server**: it answers pings while the client is authenticated, and it delivers messages,
until the connection is closed over one. -/
def answer (host : H) : List Item → List Event × Option H
  | [] => ([], some host)
  | .ping payload :: items =>
    ((if server.authenticated host then [.pong payload] else []) ++ (answer host items).1, (answer host items).2)
  | .message opcode payload :: items =>
    match processWebSocketMessage server host opcode payload with
    | (next, none) => (.message opcode payload :: (answer next items).1, (answer next items).2)
    | (_, some code) => ([.message opcode payload, closeWebSocket code], none)

/-- What is done goes on with the state that is left, unless the connection is closed. -/
def followed {R : Type} (given : List Event × Option H) (next : H → List Event × Option R) : List Event × Option R :=
  match given.2 with
  | none => (given.1, none)
  | some host => (given.1 ++ (next host).1, (next host).2)

lemma followed_assoc {R : Type} (given : List Event × Option H) (next : H → List Event × Option H)
    (last : H → List Event × Option R) :
    followed (followed given next) last = followed given fun host => followed (next host) last := by
  rcases given with ⟨events, - | host⟩
  · rfl
  · simp only [followed]
    rcases (next host).2 with - | middle
    · rfl
    · simp only [List.append_assoc]

lemma answer_append (host : H) (items more : List Item) :
    answer server host (items ++ more) = followed (answer server host items) fun next => answer server next more := by
  induction items generalizing host with
  | nil => rfl
  | cons item items ih =>
    cases item with
    | ping payload =>
      rw [List.cons_append, answer, ih, answer]
      rcases answer server host items with ⟨events, - | next⟩
      · rfl
      · simp only [followed, List.append_assoc]
    | message opcode payload =>
      rw [List.cons_append, answer, answer]
      rcases processWebSocketMessage server host opcode payload with ⟨next, - | code⟩
      · simp only [ih]
        rcases answer server next items with ⟨events, - | last⟩
        · rfl
        · simp only [followed, List.cons_append]
      · rfl

/-! ### Messages that come whole -/

lemma step_frame (client : Client H) (frame : WebSocket.Frame) {mask : Mask} (hmask : frame.mask = some mask)
    (hsmall : frame.payload.length ≤ kMaxLocalWebSocketPayload)
    (hcontrol : UInt8.ofNat frame.opcode &&& 0x08 ≠ 0 → frame.fin = true ∧ frame.payload.length ≤ 125) (more : Bytes) :
    (reader server).step client (frame.bytes ++ more) =
      react server client (.frame frame.fin (UInt8.ofNat frame.opcode) frame.payload frame.bytes.length) := by
  have hlength : frame.payload.length < 2 ^ 63 := lt_of_le_of_lt hsmall (by decide)
  have hframe := readFrame_bytes hmask hlength more
  rw [if_neg] at hframe
  · exact congrArg (react server client) hframe
  · rintro (hlarge | ⟨hbit, hfin | hlarge⟩)
    · omega
    · rw [(hcontrol hbit).1] at hfin
      cases hfin
    · have hcontrol := (hcontrol hbit).2
      omega

lemma run_take {client next : Client H} {frame : WebSocket.Frame} {more : Bytes} {out : List Event}
    (h : (reader server).step client (frame.bytes ++ more) = .take frame.bytes.length next out) :
    processWebSocket server client (frame.bytes ++ more) =
      (out ++ (processWebSocket server next more).1, (processWebSocket server next more).2) := by
  rw [processWebSocket, Incremental.run_take h, List.drop_left]
  rfl

/-- Control frames are answered, and nothing else changes. -/
lemma run_controls (client : Client H) (controls : List Control) (more : Bytes) :
    processWebSocket server client ((controls.map Control.frame).flatMap WebSocket.Frame.bytes ++ more) =
      followed (answer server client.host (controls.flatMap Control.items)) fun host =>
        processWebSocket server { client with host := host } more := by
  induction controls with
  | nil => rfl
  | cons control controls ih =>
    rw [List.map_cons, List.flatMap_cons, List.append_assoc, List.flatMap_cons, answer_append, followed_assoc]
    have hsmall : control.frame.payload.length ≤ kMaxLocalWebSocketPayload := le_trans control.small (by decide)
    rcases control with ⟨ping, mask, payload, hpayload⟩
    have hstep := step_frame server client (Control.frame ⟨ping, mask, payload, hpayload⟩) rfl hsmall
      (fun _ => ⟨rfl, hpayload⟩) ((controls.map Control.frame).flatMap WebSocket.Frame.bytes ++ more)
    cases ping with
    | false =>
      rw [run_take server hstep, ih]
      rfl
    | true =>
      rw [run_take server hstep, ih]
      simp only [followed, Control.items, if_true, answer, List.append_nil]
      rfl

/-- A message that is complete is delivered. -/
lemma run_deliver {client : Client H} {host : H} {frame : WebSocket.Frame} {more : Bytes} {opcode : UInt8}
    {payload : Bytes}
    (h : (reader server).step client (frame.bytes ++ more) =
      deliver server ⟨[], 0, host⟩ opcode payload frame.bytes.length) :
    processWebSocket server client (frame.bytes ++ more) =
      followed (answer server host [.message opcode payload]) fun next =>
        processWebSocket server ⟨[], 0, next⟩ more := by
  rw [deliver] at h
  rw [answer]
  dsimp only at h
  rcases hmessage : processWebSocketMessage server host opcode payload with ⟨next, - | code⟩
  · rw [hmessage] at h
    rw [run_take server h]
    rfl
  · rw [hmessage] at h
    rw [processWebSocket, Incremental.run_stop h]
    rfl

/-- A part of a message behind its first one. -/
lemma react_continuation {fragmented payload : Bytes} {opcode : UInt8} (hopcode : opcode ≠ 0)
    (hsmall : (fragmented ++ payload).length ≤ kMaxLocalWebSocketPayload) (host : H) (fin : Bool) (full : ℕ) :
    react server ⟨fragmented, opcode, host⟩ (.frame fin 0 payload full) =
      if fin then deliver server ⟨[], 0, host⟩ opcode (fragmented ++ payload) full
      else .take full ⟨fragmented ++ payload, opcode, host⟩ [] := by
  rw [react, if_neg (by decide), if_neg (by decide), if_neg (by decide), if_pos rfl, if_neg hopcode,
    if_neg (Nat.not_lt.mpr hsmall)]

/-- The first part of a message. -/
lemma react_first {opcode : UInt8} (hopcode : opcode = 0x01 ∨ opcode = 0x02) (host : H) (fin : Bool) (payload : Bytes)
    (full : ℕ) :
    react server ⟨[], 0, host⟩ (.frame fin opcode payload full) =
      if fin then deliver server ⟨[], 0, host⟩ opcode payload full else .take full ⟨payload, opcode, host⟩ [] := by
  have hne : opcode ≠ 0x08 ∧ opcode ≠ 0x09 ∧ opcode ≠ 0x0A ∧ opcode ≠ 0 := by
    rcases hopcode with rfl | rfl <;> decide
  rw [react, if_neg hne.1, if_neg hne.2.1, if_neg hne.2.2.1, if_neg hne.2.2.2, if_pos hopcode,
    if_neg (not_not_intro rfl)]

/-- **The rest of a message** behind its first part. -/
lemma run_rest {opcode : UInt8} (hopcode : opcode ≠ 0) {fragments : List Fragment} (hne : fragments ≠ [])
    (fragmented : Bytes) (hsmall : (fragmented ++ joined fragments).length ≤ kMaxLocalWebSocketPayload) (host : H)
    (more : Bytes) :
    processWebSocket server ⟨fragmented, opcode, host⟩ ((framesOf 0 fragments).flatMap WebSocket.Frame.bytes ++ more) =
      followed (answer server host ((fragments.flatMap Fragment.before).flatMap Control.items ++
          [.message opcode (fragmented ++ joined fragments)])) fun next =>
        processWebSocket server ⟨[], 0, next⟩ more := by
  induction fragments generalizing fragmented host with
  | nil => exact absurd rfl hne
  | cons fragment rest ih =>
    have hjoined : joined (fragment :: rest) = fragment.payload ++ joined rest := by
      rw [joined, List.map_cons, List.flatten_cons, joined]
    rw [hjoined, ← List.append_assoc] at hsmall ⊢
    rw [framesOf, List.flatMap_append, List.flatMap_cons, List.append_assoc, List.append_assoc, run_controls,
      List.flatMap_cons, List.flatMap_append, List.append_assoc, answer_append, followed_assoc]
    refine congrArg (followed _) (funext fun next => ?_)
    have hpart : (fragmented ++ fragment.payload).length ≤ kMaxLocalWebSocketPayload := by
      rw [List.length_append] at hsmall
      omega
    have hpayload : fragment.payload.length ≤ kMaxLocalWebSocketPayload := by
      rw [List.length_append] at hpart
      omega
    have hdata : UInt8.ofNat (0 : Fin 16) &&& 0x08 = 0 := by decide
    have hstep := step_frame server ⟨fragmented, opcode, next⟩
      { fin := rest.isEmpty, opcode := 0, mask := some fragment.mask, payload := fragment.payload } rfl hpayload
      (fun h => absurd hdata h) ((framesOf 0 rest).flatMap WebSocket.Frame.bytes ++ more)
    replace hstep := hstep.trans (react_continuation server hopcode hpart next rest.isEmpty _)
    cases rest with
    | nil =>
      refine (run_deliver server hstep).trans ?_
      rw [joined, List.map_nil, List.flatten_nil, List.append_nil]
      rfl
    | cons second rest =>
      refine (run_take server hstep).trans ?_
      rw [ih (List.cons_ne_nil _ _) _ hsmall]
      rfl

/-- **A message that comes whole** is answered as expected. -/
lemma run_message (host : H) (message : Message) (more : Bytes) :
    processWebSocket server ⟨[], 0, host⟩
        ((framesOf message.opcode message.fragments).flatMap WebSocket.Frame.bytes ++ more) =
      followed (answer server host message.items) fun next => processWebSocket server ⟨[], 0, next⟩ more := by
  have hkind : (UInt8.ofNat message.opcode = 0x01 ∨ UInt8.ofNat message.opcode = 0x02) ∧
      UInt8.ofNat message.opcode &&& 0x08 = 0 := by
    rw [Message.opcode]
    cases message.text <;> decide
  have hsmall := message.small
  rw [Message.items, Message.payload]
  rcases hfragments : message.fragments with - | ⟨fragment, rest⟩
  · exact absurd hfragments message.nonempty
  have hjoined : joined (fragment :: rest) = fragment.payload ++ joined rest := by
    rw [joined, List.map_cons, List.flatten_cons, joined]
  rw [hfragments, hjoined] at hsmall
  rw [hjoined, framesOf, List.flatMap_append, List.flatMap_cons, List.append_assoc, List.append_assoc, run_controls,
    List.flatMap_cons, List.flatMap_append, List.append_assoc, answer_append, followed_assoc]
  refine congrArg (followed _) (funext fun next => ?_)
  have hpayload : fragment.payload.length ≤ kMaxLocalWebSocketPayload := by
    rw [List.length_append] at hsmall
    omega
  have hstep := step_frame server ⟨[], 0, next⟩
    { fin := rest.isEmpty, opcode := message.opcode, mask := some fragment.mask, payload := fragment.payload } rfl
    hpayload (fun h => absurd hkind.2 h) ((framesOf 0 rest).flatMap WebSocket.Frame.bytes ++ more)
  replace hstep := hstep.trans (react_first server hkind.1 next rest.isEmpty fragment.payload _)
  have hopcode : UInt8.ofNat message.opcode ≠ 0 := by
    rcases hkind.1 with h | h <;> rw [h] <;> decide
  cases rest with
  | nil =>
    refine (run_deliver server hstep).trans ?_
    rw [joined, List.map_nil, List.flatten_nil, List.append_nil]
    rfl
  | cons second rest =>
    refine (run_take server hstep).trans ?_
    rw [run_rest server hopcode (List.cons_ne_nil _ _) _ hsmall]
    rfl

/-- **Messages that come whole** are answered as expected, and nothing of the input is left. -/
theorem run_sent (host : H) (sent : Sent) :
    processWebSocket server ⟨[], 0, host⟩ sent.bytes =
      followed (answer server host sent.items) fun next => ([], some (⟨[], 0, next⟩, [])) := by
  rcases sent with ⟨messages, after⟩
  rw [Sent.bytes, Sent.items]
  induction messages generalizing host with
  | nil =>
    have hcontrols := run_controls server ⟨[], 0, host⟩ after []
    rw [List.append_nil] at hcontrols
    refine hcontrols.trans (congrArg (followed _) (funext fun next => ?_))
    exact Incremental.run_wait rfl
  | cons message messages ih =>
    dsimp only at ih ⊢
    rw [List.flatMap_cons, List.append_assoc, List.flatMap_cons, List.append_assoc, run_message, answer_append,
      followed_assoc]
    exact congrArg (followed _) (funext fun next => ih next)

/-! ### The messages that are delivered -/

/-- A message that is delivered, with its kind. -/
def Event.message? : Event → Option (UInt8 × Bytes)
  | .message opcode payload => some (opcode, payload)
  | _ => none

def Item.message? : Item → Option (UInt8 × Bytes)
  | .message opcode payload => some (opcode, payload)
  | .ping _ => none

/-- The messages are delivered in order, and all of them unless the connection is closed over one. -/
lemma answer_messages (host : H) (items : List Item) :
    (answer server host items).1.filterMap Event.message? <+: items.filterMap Item.message? ∧
      ((answer server host items).2.isSome →
        (answer server host items).1.filterMap Event.message? = items.filterMap Item.message?) := by
  induction items generalizing host with
  | nil => exact ⟨List.prefix_rfl, fun _ => rfl⟩
  | cons item items ih =>
    cases item with
    | ping payload =>
      have hpong : (if server.authenticated host then [Event.pong payload] else []).filterMap Event.message? = [] := by
        split_ifs <;> rfl
      rw [answer, List.filterMap_append, hpong, List.nil_append, List.filterMap_cons_none rfl]
      exact ih host
    | message opcode payload =>
      rw [answer]
      rcases processWebSocketMessage server host opcode payload with ⟨next, - | code⟩
      · exact ⟨(List.prefix_cons_inj (opcode, payload)).mpr (ih next).1,
          fun hopen => congrArg (List.cons (opcode, payload)) ((ih next).2 hopen)⟩
      · exact ⟨(List.prefix_cons_inj (opcode, payload)).mpr List.nil_prefix, fun hclosed => nomatch hclosed⟩

lemma filterMap_control_items (controls : List Control) :
    (controls.flatMap Control.items).filterMap Item.message? = [] := by
  rw [List.filterMap_flatMap]
  refine List.flatMap_eq_nil_iff.mpr fun control _ => ?_
  rw [Control.items]
  split_ifs <;> rfl

lemma filterMap_message_items (message : Message) :
    message.items.filterMap Item.message? = [(UInt8.ofNat message.opcode, message.payload)] := by
  rw [Message.items, List.filterMap_append, filterMap_control_items]
  rfl

/-- The messages among what the server has to see to are those that are sent. -/
lemma filterMap_sent_items (sent : Sent) :
    sent.items.filterMap Item.message? =
      sent.messages.map fun message => (UInt8.ofNat message.opcode, message.payload) := by
  rw [Sent.items, List.filterMap_append, filterMap_control_items, List.append_nil, List.filterMap_flatMap]
  simp only [filterMap_message_items]
  induction sent.messages with
  | nil => rfl
  | cons message messages ih => rw [List.flatMap_cons, ih, List.map_cons, List.singleton_append]

/-! ### Frames that break a rule -/

/-- **Input whose next frame breaks a rule**, as far as it has to have come. -/
inductive Refused (client : Client H) : Bytes → Prop
  | reserved (data0 data1 : UInt8) (rest : Bytes) (bits : data0 &&& 0x70 ≠ 0) :
    Refused client (data0 :: data1 :: rest)
  | unmasked (data0 data1 : UInt8) (rest : Bytes) (bit : data1 &&& 0x80 = 0) :
    Refused client (data0 :: data1 :: rest)
  | shorter (data0 data1 : UInt8) (length rest : Bytes) (form : (data1 &&& 0x7F).toNat = 126)
    (two : length.length = 2) (small : WebSocket.number length < 126) :
    Refused client (data0 :: data1 :: (length ++ rest))
  | longer (data0 data1 : UInt8) (length rest : Bytes) (form : (data1 &&& 0x7F).toNat = 127)
    (eight : length.length = 8) (small : WebSocket.number length ≤ 0xFFFF) :
    Refused client (data0 :: data1 :: (length ++ rest))
  | oversized (data0 data1 : UInt8) (length rest : Bytes) (form : (data1 &&& 0x7F).toNat = 127)
    (eight : length.length = 8) (large : kMaxLocalWebSocketPayload < WebSocket.number length) :
    Refused client (data0 :: data1 :: (length ++ rest))
  | unknown (frame : WebSocket.Frame) (mask : Mask) (rest : Bytes) (masked : frame.mask = some mask)
    (opcode : frame.opcode ∉ ([0, 1, 2, 8, 9, 10] : List (Fin 16))) (fits : frame.payload.length < 2 ^ 63) :
    Refused client (frame.bytes ++ rest)
  | unexpected (frame : WebSocket.Frame) (mask : Mask) (rest : Bytes) (masked : frame.mask = some mask)
    (opcode : frame.opcode = 0) (whole : client.fragmentedOpcode = 0) (fits : frame.payload.length < 2 ^ 63) :
    Refused client (frame.bytes ++ rest)

/-- The codes with which the connection is closed at such a frame. -/
def Refuses (client : Client H) (input : Bytes) : Prop :=
  ∃ code, (code = 1002 ∨ code = 1009) ∧ processWebSocket server client input = ([closeWebSocket code], none)

lemma refuses_of_react {client : Client H} {input : Bytes} {code : ℕ} (hcode : code = 1002 ∨ code = 1009)
    (h : react server client (readFrame input) = .stop [closeWebSocket code]) : Refuses server client input :=
  ⟨code, hcode, Incremental.run_stop h⟩

lemma refuses_of_close {client : Client H} {input : Bytes} {code : ℕ} (hcode : code = 1002 ∨ code = 1009)
    (h : readFrame input = .close code) : Refuses server client input :=
  refuses_of_react server hcode (congrArg (react server client) h)

/-- A frame that has come whole is closed at if that is what is done about it. -/
lemma refuses_of_frame {client : Client H} {frame : WebSocket.Frame} {mask : Mask} (hmask : frame.mask = some mask)
    (hlength : frame.payload.length < 2 ^ 63) (rest : Bytes)
    (h : react server client (.frame frame.fin (UInt8.ofNat frame.opcode) frame.payload frame.bytes.length) =
      .stop [closeWebSocket 1002]) :
    Refuses server client (frame.bytes ++ rest) := by
  have hframe := readFrame_bytes hmask hlength rest
  split_ifs at hframe
  · exact refuses_of_close server (.inr rfl) hframe
  · exact refuses_of_react server (.inl rfl) ((congrArg (react server client) hframe).trans h)

lemma refuses_of_length {client : Client H} (data0 : UInt8) {data1 : UInt8} {rest : Bytes}
    (h : readLength (data1 &&& 0x7F).toNat rest = .close) : Refuses server client (data0 :: data1 :: rest) := by
  refine refuses_of_close server (.inl rfl) ?_
  rw [readFrame, h]
  split_ifs <;> rfl

/-- **The connection is closed at a frame that breaks a rule.** -/
theorem Refused.refuses {client : Client H} {input : Bytes} (h : Refused client input) :
    Refuses server client input := by
  cases h with
  | reserved data0 data1 rest hbits =>
    exact refuses_of_close server (.inl rfl) (if_pos (.inl hbits))
  | unmasked data0 data1 rest hbit =>
    exact refuses_of_close server (.inl rfl) (if_pos (.inr hbit))
  | shorter data0 data1 length rest hform htwo hsmall =>
    refine refuses_of_length server data0 ?_
    rw [hform, readLength, if_pos rfl, if_neg (by rw [List.length_append]; omega), List.take_left' htwo,
      if_pos hsmall]
  | longer data0 data1 length rest hform height hsmall =>
    refine refuses_of_length server data0 ?_
    rw [hform, readLength, if_neg (by decide), if_pos rfl, if_neg (by rw [List.length_append]; omega),
      List.take_left' height, if_pos hsmall]
    split_ifs <;> rfl
  | oversized data0 data1 length rest hform height hlarge =>
    have hlong : ¬WebSocket.number length ≤ 0xFFFF := by
      rw [kMaxLocalWebSocketPayload] at hlarge
      omega
    by_cases hallowed : data0 &&& 0x70 ≠ 0 ∨ data1 &&& 0x80 = 0
    · exact refuses_of_close server (.inl rfl) (if_pos hallowed)
    by_cases hbit : (length ++ rest).headD 0 &&& 0x80 ≠ 0
    · refine refuses_of_length server data0 ?_
      rw [hform, readLength, if_neg (by decide), if_pos rfl, if_neg (by rw [List.length_append]; omega), if_pos hbit]
    · refine refuses_of_close server (.inr rfl) ?_
      rw [readFrame, if_neg hallowed, hform, readLength, if_neg (by decide), if_pos rfl,
        if_neg (by rw [List.length_append]; omega), if_neg hbit, List.take_left' height, if_neg hlong]
      exact if_pos (.inl hlarge)
  | unknown frame mask rest hmask hopcode hfits =>
    refine refuses_of_frame server hmask hfits rest ?_
    have hall : ∀ opcode : Fin 16, opcode ∉ ([0, 1, 2, 8, 9, 10] : List (Fin 16)) →
        UInt8.ofNat opcode ≠ 0x08 ∧ UInt8.ofNat opcode ≠ 0x09 ∧ UInt8.ofNat opcode ≠ 0x0A ∧
          UInt8.ofNat opcode ≠ 0x00 ∧ ¬(UInt8.ofNat opcode = 0x01 ∨ UInt8.ofNat opcode = 0x02) := by decide
    obtain ⟨hclose, hping, hpong, hmore, hdata⟩ := hall _ hopcode
    rw [react, if_neg hclose, if_neg hping, if_neg hpong, if_neg hmore, if_neg hdata]
  | unexpected frame mask rest hmask hopcode hwhole hfits =>
    refine refuses_of_frame server hmask hfits rest ?_
    rw [hopcode, react, if_neg (by decide), if_neg (by decide), if_neg (by decide), if_pos (by rfl), if_pos hwhole]

/-! ### Messages delivered once and whole -/

/-- **The browser's messages are delivered once and whole.** Input may be cut anywhere: what is done is the same as for
all of it at once. For a client that keeps the rules, the server does what is expected of it: its messages are delivered
with their kinds, in order, and all of them unless the connection is closed over one, and then nothing of the input is
left. At a frame that breaks a rule the connection is closed. -/
theorem messages_delivered {H : Type} (server : Host H) :
    (∀ (client : Client H) (input : Bytes) (arrivals : List Bytes),
      arrivals.foldl (clientReadyRead server) (processWebSocket server client input) =
        processWebSocket server client (input ++ arrivals.flatten)) ∧
      (∀ (host : H) (sent : Sent),
        processWebSocket server ⟨[], 0, host⟩ sent.bytes =
            ((answer server host sent.items).1,
              (answer server host sent.items).2.map fun next => (⟨[], 0, next⟩, [])) ∧
          (answer server host sent.items).1.filterMap Event.message? <+:
            sent.messages.map (fun message => (UInt8.ofNat message.opcode, message.payload)) ∧
          ((answer server host sent.items).2.isSome →
            (answer server host sent.items).1.filterMap Event.message? =
              sent.messages.map fun message => (UInt8.ofNat message.opcode, message.payload))) ∧
      ∀ (client : Client H) (input : Bytes), Refused client input → Refuses server client input := by
  refine ⟨fun client input arrivals => ?_, fun host sent => ⟨?_, ?_⟩, fun client input h => h.refuses server⟩
  · induction arrivals generalizing input with
    | nil => rw [List.flatten_nil, List.append_nil, List.foldl_nil]
    | cons available arrivals ih =>
      rw [List.foldl_cons, clientReadyRead_processWebSocket, ih, List.flatten_cons, List.append_assoc]
  · rw [run_sent]
    rcases answer server host sent.items with ⟨events, - | next⟩
    · rfl
    · simp only [followed, List.append_nil, Option.map_some]
  · rw [← filterMap_sent_items]
    exact answer_messages server host sent.items

/-- A server that takes the first text for the one that authenticates, and knows no other rule. -/
def sampleServer : Host Bool where
  authenticated := id
  isBrowser := id
  processBrowserControl _ _ := (true, none)
  processRelayPayload host _ := (host, none)

def sampleMask : Mask := ⟨[1, 2, 3, 4], rfl⟩

lemma sampleSmall : ([7] : Bytes).length ≤ 125 := by decide

/-- A text, and a payload in two parts with a ping between them. -/
def sampleSent : Sent where
  messages := [
    { text := true, fragments := [⟨[], sampleMask, [9]⟩], nonempty := nofun, small := by decide },
    { text := false
      fragments := [⟨[], sampleMask, [1, 2]⟩, ⟨[⟨true, sampleMask, [7], sampleSmall⟩], sampleMask, [3]⟩]
      nonempty := nofun
      small := by decide }]
  after := []

/-- Two messages arrive, and a frame without a mask is refused. -/
theorem sample_delivered :
    (processWebSocket sampleServer ⟨[], 0, false⟩ sampleSent.bytes).1 =
        [.message 1 [9], .pong [7], .message 2 [1, 2, 3]] ∧
      Refuses sampleServer ⟨[], 0, true⟩ [0x82, 0x01, 0x05] := by
  obtain ⟨-, hsent, hrefused⟩ := messages_delivered sampleServer
  refine ⟨?_, hrefused _ _ (.unmasked 0x82 0x01 [0x05] (by decide))⟩
  rw [(hsent false sampleSent).1]
  rfl

end WebProxy.LocalSocket
