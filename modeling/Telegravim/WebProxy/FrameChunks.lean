import Telegravim.WebProxy.Frame

set_option autoImplicit false

/-!
# Web proxy: frames in pieces

A carrier delivers bytes, not frames: a piece may end inside a header or inside a payload. What is not a whole
frame yet stays in the buffer, and the next piece is appended to it.

## Main definitions

* `WebProxy.payloadSize` — the payload's size in a header.
* `WebProxy.Unfinished` — bytes that wait for more.
* `WebProxy.Refused` — bytes of which a frame is refused, and where.
* `WebProxy.appendBytes`, `WebProxy.appendBytesTo` — a piece appended to the buffer and parsed.

## Main results

* `WebProxy.parseFrames_unfinished` — what is left waits for more.
* `WebProxy.parseFrames_eq_none_iff` — `parseFrames` fails exactly at a refused frame.
* `WebProxy.frames_cut` — frames are read as they were written, however the bytes were cut.
-/

namespace WebProxy

/-- The payload's size in the header at the start of a buffer. -/
def payloadSize (buffer : List UInt8) : ℕ := ofBigEndian ((buffer.drop 4).take 4)

/-- Bytes that wait for more: a part of a header, or a header that is fine with a part of its payload. -/
def Unfinished (buffer : List UInt8) : Prop :=
  buffer.length < kFrameHeaderSize ∨
    ((knownType (buffer.headD 0)).isSome ∧ payloadSize buffer ≤ kMaxFramePayload ∧
      buffer.length < kFrameHeaderSize + payloadSize buffer)

/-- Whole frames, and then a header that is refused: its type is not known, its size is too large, or the
frame is complete and there is no room for it. -/
def Refused (buffer : List UInt8) (output : List Frame) : Prop :=
  ∃ (frames : List Frame) (rest : List UInt8), buffer = frames.flatMap serializeFrame ++ rest ∧
    (∀ frame ∈ frames, frame.Fits) ∧ kFrameHeaderSize ≤ rest.length ∧
    (knownType (rest.headD 0) = none ∨ kMaxFramePayload < payloadSize rest ∨
      (kFrameHeaderSize + payloadSize rest ≤ rest.length ∧
        kMaxBatchFrames ≤ output.length + frames.length))

/-! ### One step of the parser -/

lemma parseFrames_of_unfinished {buffer : List UInt8} (h : Unfinished buffer) (output : List Frame) :
    parseFrames buffer output = some (output, buffer) := by
  rcases Nat.lt_or_ge buffer.length kFrameHeaderSize with hshort | hlong
  · rw [parseFrames, dif_pos hshort]
  · obtain hshort | ⟨htype, hmax, hpart⟩ := h
    · exact absurd hshort (not_lt.mpr hlong)
    · obtain ⟨type, htype⟩ := Option.isSome_iff_exists.mp htype
      have hrest : (buffer.drop kFrameHeaderSize).length < payloadSize buffer := by
        rw [List.length_drop]
        omega
      unfold payloadSize at hmax hrest
      rw [parseFrames, dif_neg (not_lt.mpr hlong), htype]
      dsimp only
      rw [if_neg (not_lt.mpr hmax), if_pos hrest]

/-- A buffer that holds a whole frame whose header is fine starts with this frame. -/
lemma eq_serializeFrame_append {buffer : List UInt8} {type : FrameType}
    (htype : knownType (buffer.headD 0) = some type) (hmax : payloadSize buffer ≤ kMaxFramePayload)
    (hwhole : kFrameHeaderSize + payloadSize buffer ≤ buffer.length) :
    let frame : Frame := ⟨type, ofBigEndian ((buffer.drop 1).take 3),
      (buffer.drop kFrameHeaderSize).take (payloadSize buffer)⟩
    frame.Fits ∧
      buffer = serializeFrame frame ++ (buffer.drop kFrameHeaderSize).drop (payloadSize buffer) := by
  have hheader : kFrameHeaderSize = 8 := rfl
  obtain ⟨first, tail, rfl⟩ : ∃ first tail, buffer = first :: tail := by
    cases buffer with
    | nil =>
      simp only [List.length_nil] at hwhole
      omega
    | cons first tail => exact ⟨first, tail, rfl⟩
  have hcode : type.code = first := code_of_knownType htype
  have hids := bigEndian_ofBigEndian (tail.take 3)
  have hsizes := bigEndian_ofBigEndian ((tail.drop 3).take 4)
  have hidsLength : (tail.take 3).length = 3 := by
    rw [List.length_take]
    rw [List.length_cons] at hwhole
    omega
  have hsizesLength : ((tail.drop 3).take 4).length = 4 := by
    rw [List.length_take, List.length_drop]
    rw [List.length_cons] at hwhole
    omega
  have hpayload : ((tail.drop 7).take (payloadSize (first :: tail))).length =
      payloadSize (first :: tail) := by
    rw [List.length_take, List.length_drop]
    rw [List.length_cons] at hwhole
    omega
  rw [hidsLength] at hids
  rw [hsizesLength] at hsizes
  have hsize : payloadSize (first :: tail) = ofBigEndian ((tail.drop 3).take 4) := rfl
  constructor
  · constructor
    · have hfits := hids.2
      norm_num at hfits
      exact hfits
    · exact (le_of_eq hpayload).trans hmax
  · have htail : tail = tail.take 3 ++ ((tail.drop 3).take 4 ++ ((tail.drop 7).take
        (payloadSize (first :: tail)) ++ (tail.drop 7).drop (payloadSize (first :: tail)))) := by
      rw [List.take_append_drop, show tail.drop 7 = (tail.drop 3).drop 4 by rw [List.drop_drop],
        List.take_append_drop, List.take_append_drop]
    unfold serializeFrame
    rw [hheader]
    simp only [List.drop_succ_cons, List.drop_zero]
    rw [hpayload, hcode, hids.1, hsize, hsizes.1, ← hsize]
    simp only [List.cons_append, List.append_assoc]
    exact congrArg (List.cons first) htail

/-- A buffer waits for more, holds a header that is refused, or starts with a whole frame. -/
lemma unfinished_or_refused_or_frame (buffer : List UInt8) :
    Unfinished buffer ∨
      (kFrameHeaderSize ≤ buffer.length ∧
        (knownType (buffer.headD 0) = none ∨ kMaxFramePayload < payloadSize buffer)) ∨
      ∃ (frame : Frame) (rest : List UInt8), frame.Fits ∧ buffer = serializeFrame frame ++ rest := by
  rcases Nat.lt_or_ge buffer.length kFrameHeaderSize with hshort | hlong
  · exact Or.inl (Or.inl hshort)
  rcases htype : knownType (buffer.headD 0) with _ | type
  · exact Or.inr (Or.inl ⟨hlong, Or.inl rfl⟩)
  rcases Nat.lt_or_ge kMaxFramePayload (payloadSize buffer) with hlarge | hmax
  · exact Or.inr (Or.inl ⟨hlong, Or.inr hlarge⟩)
  rcases Nat.lt_or_ge buffer.length (kFrameHeaderSize + payloadSize buffer) with hpart | hwhole
  · exact Or.inl (Or.inr ⟨by rw [htype]; rfl, hmax, hpart⟩)
  · obtain ⟨hfits, hbuffer⟩ := eq_serializeFrame_append htype hmax hwhole
    exact Or.inr (Or.inr ⟨_, _, hfits, hbuffer⟩)

lemma parseFrames_of_header {buffer : List UInt8} (hlong : kFrameHeaderSize ≤ buffer.length)
    (h : knownType (buffer.headD 0) = none ∨ kMaxFramePayload < payloadSize buffer)
    (output : List Frame) : parseFrames buffer output = none := by
  rw [parseFrames, dif_neg (not_lt.mpr hlong)]
  rcases htype : knownType (buffer.headD 0) with _ | type
  · rfl
  · obtain hnone | hlarge := h
    · rw [htype] at hnone
      cases hnone
    · dsimp only
      unfold payloadSize at hlarge
      rw [if_pos hlarge]

/-- The bytes of a frame that fits are a whole frame. -/
lemma serializeFrame_append_header {frame : Frame} (h : frame.Fits) (rest : List UInt8) :
    knownType ((serializeFrame frame ++ rest).headD 0) = some frame.type ∧
      payloadSize (serializeFrame frame ++ rest) = frame.payload.length := by
  have hpayload : frame.payload.length < 256 ^ 4 := lt_of_le_of_lt h.2 (by decide)
  have hread := ofBigEndian_bigEndian hpayload
  have hidsLength := length_bigEndian 3 frame.streamId
  have hsizesLength := length_bigEndian 4 frame.payload.length
  have hbuffer : serializeFrame frame ++ rest = frame.type.code :: (bigEndian 3 frame.streamId ++
      (bigEndian 4 frame.payload.length ++ (frame.payload ++ rest))) := by
    unfold serializeFrame
    simp only [List.cons_append, List.append_assoc]
  constructor
  · rw [hbuffer, List.headD_cons, knownType_code]
  · unfold payloadSize
    rw [hbuffer, List.drop_succ_cons, List.drop_left' hidsLength, List.take_left' hsizesLength, hread]

/-- There is no room for a frame. -/
lemma parseFrames_cons_full {frame : Frame} (h : frame.Fits) (rest : List UInt8) {output : List Frame}
    (hfull : kMaxBatchFrames ≤ output.length) : parseFrames (serializeFrame frame ++ rest) output = none := by
  obtain ⟨htype, hsize⟩ := serializeFrame_append_header h rest
  have hlength : (serializeFrame frame ++ rest).length =
      kFrameHeaderSize + frame.payload.length + rest.length := by
    rw [List.length_append, length_serializeFrame, Frame.size]
  rw [parseFrames, dif_neg (by omega), htype]
  dsimp only
  unfold payloadSize at hsize
  rw [hsize, if_neg (not_lt.mpr h.2), if_neg (by rw [List.length_drop]; omega), if_pos hfull]

/-! ### What is left, and what is refused -/

/-- **What is left waits for more.** -/
theorem parseFrames_unfinished {buffer rest : List UInt8} {output parsed : List Frame}
    (h : parseFrames buffer output = some (parsed, rest)) : Unfinished rest := by
  induction hn : buffer.length using Nat.strong_induction_on generalizing buffer output with
  | _ n ih =>
    rcases unfinished_or_refused_or_frame buffer with
      hunfinished | ⟨hlong, hheader⟩ | ⟨frame, tail, hfits, rfl⟩
    · rw [parseFrames_of_unfinished hunfinished, Option.some.injEq, Prod.mk.injEq] at h
      obtain ⟨-, rfl⟩ := h
      exact hunfinished
    · rw [parseFrames_of_header hlong hheader] at h
      cases h
    · rcases Nat.lt_or_ge output.length kMaxBatchFrames with hroom | hfull
      · rw [parseFrames_cons hfits tail hroom] at h
        have hshorter : tail.length < n := by
          rw [← hn, List.length_append, length_serializeFrame, Frame.size, kFrameHeaderSize]
          omega
        exact ih tail.length hshorter h rfl
      · rw [parseFrames_cons_full hfits tail hfull] at h
        cases h

lemma Refused.cons {frame : Frame} (h : frame.Fits) {rest : List UInt8} {output : List Frame}
    (hrest : Refused rest (output ++ [frame])) : Refused (serializeFrame frame ++ rest) output := by
  obtain ⟨frames, tail, rfl, hfits, hlong, hheader⟩ := hrest
  refine ⟨frame :: frames, tail, ?_, ?_, hlong, ?_⟩
  · rw [List.flatMap_cons, List.append_assoc]
  · intro other hother
    rcases List.mem_cons.mp hother with rfl | hother
    · exact h
    · exact hfits other hother
  · rw [List.length_append, List.length_singleton] at hheader
    rw [List.length_cons]
    rcases hheader with hnone | hlarge | ⟨hwhole, hfull⟩
    · exact Or.inl hnone
    · exact Or.inr (Or.inl hlarge)
    · exact Or.inr (Or.inr ⟨hwhole, by omega⟩)

/-- A refused frame is reached. -/
lemma Refused.parseFrames_eq_none {buffer : List UInt8} {output : List Frame} (h : Refused buffer output) :
    parseFrames buffer output = none := by
  obtain ⟨frames, rest, rfl, hfits, hlong, hheader⟩ := h
  induction frames generalizing output with
  | nil =>
    rw [List.flatMap_nil, List.nil_append]
    rcases hheader with hnone | hlarge | ⟨hwhole, hfull⟩
    · exact parseFrames_of_header hlong (Or.inl hnone) output
    · exact parseFrames_of_header hlong (Or.inr hlarge) output
    · rcases unfinished_or_refused_or_frame rest with
        hunfinished | ⟨-, hrefused⟩ | ⟨frame, tail, hframe, rfl⟩
      · rcases hunfinished with hshort | ⟨-, -, hpart⟩ <;> omega
      · exact parseFrames_of_header hlong hrefused output
      · exact parseFrames_cons_full hframe tail hfull
  | cons frame frames ih =>
    have hframe := hfits frame List.mem_cons_self
    rw [List.flatMap_cons, List.append_assoc]
    rcases Nat.lt_or_ge output.length kMaxBatchFrames with hroom | hfull
    · rw [parseFrames_cons hframe _ hroom]
      apply ih (fun other hother => hfits other (List.mem_cons_of_mem _ hother))
      rw [List.length_append, List.length_singleton]
      rw [List.length_cons] at hheader
      rcases hheader with hnone | hlarge | ⟨hwhole, hover⟩
      · exact Or.inl hnone
      · exact Or.inr (Or.inl hlarge)
      · exact Or.inr (Or.inr ⟨hwhole, by omega⟩)
    · exact parseFrames_cons_full hframe _ hfull

/-- **`parseFrames` fails exactly at a refused frame.** -/
theorem parseFrames_eq_none_iff {buffer : List UInt8} {output : List Frame} :
    parseFrames buffer output = none ↔ Refused buffer output := by
  constructor
  · intro h
    induction hn : buffer.length using Nat.strong_induction_on generalizing buffer output with
    | _ n ih =>
      rcases unfinished_or_refused_or_frame buffer with
      hunfinished | ⟨hlong, hheader⟩ | ⟨frame, tail, hfits, rfl⟩
      · rw [parseFrames_of_unfinished hunfinished] at h
        cases h
      · exact ⟨[], buffer, rfl, by simp, hlong, hheader.imp_right Or.inl⟩
      · rcases Nat.lt_or_ge output.length kMaxBatchFrames with hroom | hfull
        · rw [parseFrames_cons hfits tail hroom] at h
          have hshorter : tail.length < n := by
            rw [← hn, List.length_append, length_serializeFrame, Frame.size, kFrameHeaderSize]
            omega
          exact (ih tail.length hshorter h rfl).cons hfits
        · obtain ⟨-, hsize⟩ := serializeFrame_append_header hfits tail
          have hwhole : kFrameHeaderSize + frame.payload.length ≤ (serializeFrame frame ++ tail).length := by
            rw [List.length_append, length_serializeFrame, Frame.size]
            omega
          refine ⟨[], serializeFrame frame ++ tail, rfl, by simp, by omega, Or.inr (Or.inr ⟨?_, ?_⟩)⟩
          · rw [hsize]
            exact hwhole
          · rw [List.length_nil, Nat.add_zero]
            exact hfull
  · exact Refused.parseFrames_eq_none

/-! ### Pieces -/

/-- A piece appended to the buffer and parsed, with the frames collected after each call. -/
def appendBytes (state : List Frame × List UInt8) (chunk : List UInt8) :
    Option (List Frame × List UInt8) :=
  (parseFrames (state.2 ++ chunk) []).map fun parsed => (state.1 ++ parsed.1, parsed.2)

/-- A piece appended to the buffer and parsed, with the frames collected in the output of all calls. -/
def appendBytesTo (state : List Frame × List UInt8) (chunk : List UInt8) :
    Option (List Frame × List UInt8) :=
  parseFrames (state.2 ++ chunk) state.1

/-- The start of the bytes of some frames: the first of these frames are read, and what is left are the bytes
of the others. -/
lemma parseFrames_of_start {frames : List Frame} (hfits : ∀ frame ∈ frames, frame.Fits)
    {buffer later : List UInt8} (hbytes : buffer ++ later = frames.flatMap serializeFrame)
    {output : List Frame} (hroom : output.length + frames.length ≤ kMaxBatchFrames) :
    ∃ (taken left : List Frame) (rest : List UInt8), frames = taken ++ left ∧
      parseFrames buffer output = some (output ++ taken, rest) ∧
      rest ++ later = left.flatMap serializeFrame := by
  induction frames generalizing buffer output with
  | nil =>
    obtain ⟨rfl, rfl⟩ := List.append_eq_nil_iff.mp hbytes
    refine ⟨[], [], [], rfl, ?_, rfl⟩
    rw [parseFrames_of_unfinished (Or.inl (by decide)), List.append_nil]
  | cons frame frames ih =>
    have hframe := hfits frame List.mem_cons_self
    rw [List.flatMap_cons] at hbytes
    rw [List.length_cons] at hroom
    rcases Nat.lt_or_ge buffer.length (serializeFrame frame).length with hpart | hwhole
    · -- The buffer ends inside of the first frame.
      refine ⟨[], frame :: frames, buffer, rfl, ?_, ?_⟩
      · rw [List.append_nil]
        apply parseFrames_of_unfinished
        rcases Nat.lt_or_ge buffer.length kFrameHeaderSize with hshort | hlong
        · exact Or.inl hshort
        · obtain ⟨htype, hsize⟩ := serializeFrame_append_header hframe (frames.flatMap serializeFrame)
          rw [← hbytes] at htype hsize
          have hheader : kFrameHeaderSize = 8 := rfl
          have hhead : (buffer ++ later).headD 0 = buffer.headD 0 := by
            cases buffer with
            | nil =>
              simp only [List.length_nil] at hlong
              omega
            | cons first tail => rfl
          have hsame : payloadSize (buffer ++ later) = payloadSize buffer := by
            unfold payloadSize
            rw [List.drop_append_of_le_length (by omega),
              List.take_append_of_le_length (by rw [List.length_drop]; omega)]
          rw [length_serializeFrame, Frame.size] at hpart
          rw [hhead] at htype
          rw [hsame] at hsize
          refine Or.inr ⟨by rw [htype]; rfl, ?_, ?_⟩
          · rw [hsize]
            exact hframe.2
          · rw [hsize]
            exact hpart
      · rw [List.flatMap_cons, hbytes]
    · -- The buffer starts with the whole first frame.
      obtain ⟨tail, rfl⟩ : ∃ tail, buffer = serializeFrame frame ++ tail := by
        obtain ⟨tail, htail⟩ := List.prefix_of_prefix_length_le (List.prefix_append _ _)
          (Exists.intro later hbytes) hwhole
        exact ⟨tail, htail.symm⟩
      rw [List.append_assoc, List.append_cancel_left_eq] at hbytes
      have hroomTail : (output ++ [frame]).length + frames.length ≤ kMaxBatchFrames := by
        rw [List.length_append, List.length_singleton]
        omega
      obtain ⟨taken, left, rest, rfl, hparse, hrest⟩ := ih
        (fun other hother => hfits other (List.mem_cons_of_mem _ hother)) hbytes hroomTail
      refine ⟨frame :: taken, left, rest, rfl, ?_, hrest⟩
      rw [parseFrames_cons hframe tail (by omega), hparse, List.append_assoc, List.singleton_append]

/-- Bytes that wait for more do not start with a whole frame. -/
lemma Unfinished.not_serializeFrame {frame : Frame} (h : frame.Fits) (rest : List UInt8) :
    ¬Unfinished (serializeFrame frame ++ rest) := by
  intro hunfinished
  obtain ⟨-, hsize⟩ := serializeFrame_append_header h rest
  have hlength : kFrameHeaderSize + frame.payload.length ≤ (serializeFrame frame ++ rest).length := by
    rw [List.length_append, length_serializeFrame, Frame.size]
    omega
  rcases hunfinished with hshort | ⟨-, -, hpart⟩ <;> omega

/-- A step takes whole frames from the start of the bytes and adds them to those collected. -/
def TakesFrames (step : List Frame × List UInt8 → List UInt8 → Option (List Frame × List UInt8)) : Prop :=
  ∀ ⦃frames collected : List Frame⦄ ⦃buffer chunk later : List UInt8⦄, (∀ frame ∈ frames, frame.Fits) →
    buffer ++ chunk ++ later = frames.flatMap serializeFrame →
    collected.length + frames.length ≤ kMaxBatchFrames →
    ∃ (taken left : List Frame) (rest : List UInt8), frames = taken ++ left ∧
      step (collected, buffer) chunk = some (collected ++ taken, rest) ∧
      rest ++ later = left.flatMap serializeFrame ∧ Unfinished rest

lemma takesFrames_appendBytes : TakesFrames appendBytes := by
  intro frames collected buffer chunk later hfits hbytes hroom
  have hroomEmpty : ([] : List Frame).length + frames.length ≤ kMaxBatchFrames := by
    rw [List.length_nil]
    omega
  obtain ⟨taken, left, rest, hframes, hparse, hrest⟩ := parseFrames_of_start hfits hbytes hroomEmpty
  refine ⟨taken, left, rest, hframes, ?_, hrest, parseFrames_unfinished hparse⟩
  unfold appendBytes
  rw [hparse, Option.map_some, List.nil_append]

lemma takesFrames_appendBytesTo : TakesFrames appendBytesTo := by
  intro frames collected buffer chunk later hfits hbytes hroom
  obtain ⟨taken, left, rest, hframes, hparse, hrest⟩ := parseFrames_of_start hfits hbytes hroom
  exact ⟨taken, left, rest, hframes, hparse, hrest, parseFrames_unfinished hparse⟩

/-- Steps that take whole frames collect all of them, however the bytes are cut. -/
lemma TakesFrames.foldlM_eq
    {step : List Frame × List UInt8 → List UInt8 → Option (List Frame × List UInt8)}
    (h : TakesFrames step) {chunks : List (List UInt8)} {frames collected : List Frame}
    {buffer : List UInt8} (hfits : ∀ frame ∈ frames, frame.Fits) (hunfinished : Unfinished buffer)
    (hbytes : buffer ++ chunks.flatten = frames.flatMap serializeFrame)
    (hroom : collected.length + frames.length ≤ kMaxBatchFrames) :
    chunks.foldlM step (collected, buffer) = some (collected ++ frames, []) := by
  induction chunks generalizing frames collected buffer with
  | nil =>
    rw [List.flatten_nil, List.append_nil] at hbytes
    cases frames with
    | nil =>
      rw [hbytes, List.append_nil]
      rfl
    | cons frame frames =>
      rw [hbytes, List.flatMap_cons] at hunfinished
      exact absurd hunfinished (Unfinished.not_serializeFrame (hfits frame List.mem_cons_self) _)
  | cons chunk chunks ih =>
    rw [List.flatten_cons, ← List.append_assoc] at hbytes
    obtain ⟨taken, left, rest, rfl, hstep, hrest, hrestUnfinished⟩ := h hfits hbytes hroom
    rw [List.length_append] at hroom
    have hroomLeft : (collected ++ taken).length + left.length ≤ kMaxBatchFrames := by
      rw [List.length_append]
      omega
    have hrun := ih (fun frame hframe => hfits frame (List.mem_append_right taken hframe))
      hrestUnfinished hrest hroomLeft
    rw [List.foldlM_cons, hstep, ← List.append_assoc]
    exact hrun

/-- **Frames are read as they were written, however their bytes are cut**: no call fails, the frames that are
collected are those that were written, and nothing is left. Any bytes at all are refused only where a frame
begins: by its type, by its size, or because there is no room for one more frame.

**Proof sketch.** Each piece completes the first frames of those that are left; what remains are the bytes of
the others, of which none is complete. After the last piece there are no bytes of an incomplete frame. -/
theorem frames_cut {frames : List Frame} {chunks : List (List UInt8)}
    (hfits : ∀ frame ∈ frames, frame.Fits) (hcount : frames.length ≤ kMaxBatchFrames)
    (hchunks : chunks.flatten = frames.flatMap serializeFrame) :
    chunks.foldlM appendBytes ([], []) = some (frames, []) ∧
      chunks.foldlM appendBytesTo ([], []) = some (frames, []) ∧
      ∀ (buffer : List UInt8) (output : List Frame),
        parseFrames buffer output = none ↔ Refused buffer output := by
  have hempty : Unfinished [] := Or.inl (by decide)
  have hroom : ([] : List Frame).length + frames.length ≤ kMaxBatchFrames := by
    rw [List.length_nil]
    omega
  refine ⟨?_, ?_, fun buffer output => parseFrames_eq_none_iff⟩
  · exact takesFrames_appendBytes.foldlM_eq hfits hempty hchunks hroom
  · exact takesFrames_appendBytesTo.foldlM_eq hfits hempty hchunks hroom

/-- Two frames in three pieces, one of them cut inside a header and one inside a payload. -/
theorem frames_cut_two :
    [[0x05, 0, 0, 0, 0, 0, 0, 1, 7, 0x02, 0, 1], [2, 0, 0, 0, 3, 1, 2], [3]].foldlM appendBytes ([], []) =
        some ([⟨.ping, 0, [7]⟩, ⟨.data, 258, [1, 2, 3]⟩], []) ∧
      [[0x05, 0, 0, 0, 0, 0, 0, 1, 7, 0x02, 0, 1], [2, 0, 0, 0, 3, 1, 2], [3]].foldlM appendBytesTo
        ([], []) = some ([⟨.ping, 0, [7]⟩, ⟨.data, 258, [1, 2, 3]⟩], []) ∧
      ∀ (buffer : List UInt8) (output : List Frame),
        parseFrames buffer output = none ↔ Refused buffer output := by
  apply frames_cut
  · intro frame hframe
    simp only [List.mem_cons, List.not_mem_nil, or_false] at hframe
    rcases hframe with rfl | rfl
    · exact ⟨by norm_num, by decide⟩
    · exact ⟨by norm_num, by decide⟩
  · decide
  · decide

end WebProxy
