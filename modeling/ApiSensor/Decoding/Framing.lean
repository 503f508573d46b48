import ApiSensor.Decoding.Http2

/-!
# HTTP/2 framing

Header blocks and data can be written as frames in many ways: with and without padding and priority
fields, in one piece or with continuations, with other frames in between.  `Http2Direction::feed`
undoes every one of them.
-/

namespace ApiSensor

open Library

/-! ## Frames -/

/-- The last octets of a number, most significant first. -/
def toBeBytes : Nat → Nat → Bytes
  | 0, _ => []
  | width + 1, value => toBeBytes width (value / 256) ++ [UInt8.ofNat value]

theorem length_toBeBytes (width value : Nat) : (toBeBytes width value).length = width := by
  induction width generalizing value with
  | zero => rfl
  | succ width ih => simp [toBeBytes, ih]

theorem fromBeBytes_append_singleton (digits : Bytes) (byte : UInt8) :
    fromBeBytes (digits ++ [byte]) = fromBeBytes digits * 256 + byte.toNat := by
  simp [fromBeBytes, List.foldl_append]

theorem foldl_digits_lt (start : Nat) (digits : Bytes) :
    digits.foldl (fun value byte => value * 256 + byte.toNat) start <
      (start + 1) * 256 ^ digits.length := by
  induction digits generalizing start with
  | nil => simp
  | cons byte digits induction =>
    have bound := byte.toNat_lt
    have digit : start * 256 + byte.toNat + 1 ≤ (start + 1) * 256 := by omega
    rw [List.length_cons, Nat.pow_succ, Nat.mul_comm (256 ^ _), ← Nat.mul_assoc]
    exact (induction _).trans_le (Nat.mul_le_mul_right _ digit)

theorem fromBeBytes_lt (digits : Bytes) : fromBeBytes digits < 256 ^ digits.length := by
  simpa [fromBeBytes] using foldl_digits_lt 0 digits

theorem fromBeBytes_toBeBytes (width value : Nat) :
    fromBeBytes (toBeBytes width value) = value % 256 ^ width := by
  induction width generalizing value with
  | zero => simp [toBeBytes, fromBeBytes, Nat.mod_one]
  | succ width ih =>
    rw [toBeBytes, fromBeBytes_append_singleton, ih, Nat.pow_succ', Nat.mod_mul, UInt8.toNat_ofNat']
    omega

/-- A frame as it is written. -/
structure H2Frame where
  ftype : UInt8
  flags : UInt8
  /-- The bit in front of the stream identifier, which has no meaning. -/
  reserved : Bool
  streamId : UInt32
  payload : Bytes
  streamId_lt : streamId.toNat < 2 ^ 31
  length_lt : payload.length < 2 ^ 24

namespace H2Frame

/-- The octets of a frame. -/
def encode (frame : H2Frame) : Bytes :=
  toBeBytes 3 frame.payload.length ++ [frame.ftype, frame.flags] ++
    toBeBytes 4 (frame.streamId.toNat + if frame.reserved then 2 ^ 31 else 0) ++ frame.payload

variable (frame : H2Frame)

/-- The frame header octet by octet. -/
theorem encode_eq_cons : ∃ a b c d e f g : UInt8,
    frame.encode = a :: b :: c :: frame.ftype :: frame.flags :: d :: e :: f :: g :: frame.payload ∧
      fromBeBytes [a, b, c] = frame.payload.length ∧
      streamIdOf [d, e, f, g] = frame.streamId := by
  refine ⟨_, _, _, _, _, _, _, rfl, ?_, ?_⟩
  · have read := fromBeBytes_toBeBytes 3 frame.payload.length
    exact read.trans (Nat.mod_eq_of_lt frame.length_lt)
  · have read := fromBeBytes_toBeBytes 4
      (frame.streamId.toNat + if frame.reserved then 2 ^ 31 else 0)
    have low := frame.streamId_lt
    have whole : fromBeBytes (toBeBytes 4
        (frame.streamId.toNat + if frame.reserved then 2 ^ 31 else 0)) % 2 ^ 31 =
        frame.streamId.toNat := by
      rw [read]
      split <;> omega
    exact (congrArg UInt32.ofNat whole).trans UInt32.ofNat_toNat

theorem length_encode : frame.encode.length = frame.payload.length + 8 + 1 := by
  obtain ⟨a, b, c, d, e, f, g, octets, -, -⟩ := frame.encode_eq_cons
  simp [octets]

theorem frameLength_encode : frameLength frame.encode = frame.payload.length := by
  obtain ⟨a, b, c, d, e, f, g, octets, length, -⟩ := frame.encode_eq_cons
  rw [octets]
  exact length

theorem ftype_encode : frame.encode.getD 3 0 = frame.ftype := by
  obtain ⟨a, b, c, d, e, f, g, octets, -, -⟩ := frame.encode_eq_cons
  rw [octets]
  rfl

theorem flags_encode : frame.encode.getD 4 0 = frame.flags := by
  obtain ⟨a, b, c, d, e, f, g, octets, -, -⟩ := frame.encode_eq_cons
  rw [octets]
  rfl

theorem streamId_encode : streamIdOf ((frame.encode.drop 5).take 4) = frame.streamId := by
  obtain ⟨a, b, c, d, e, f, g, octets, -, streamId⟩ := frame.encode_eq_cons
  rw [octets]
  exact streamId

theorem payload_encode : (frame.encode.drop 9).take frame.payload.length = frame.payload := by
  obtain ⟨a, b, c, d, e, f, g, octets, -, -⟩ := frame.encode_eq_cons
  rw [octets]
  exact List.take_length

theorem drop_encode : frame.encode.drop (9 + frame.payload.length) = [] := by
  apply List.drop_eq_nil_of_le
  rw [length_encode]
  omega

end H2Frame

namespace Http2Direction

variable {P : Platform} {dir : Http2Direction P}

/-- A direction that has read whole frames only. -/
structure Ready (dir : Http2Direction P) : Prop where
  working : dir.broken = false
  started : dir.prefaceDone = true
  empty : dir.buf = []

theorem frames_nil (fuel : Nat) (dir : Http2Direction P) :
    dir.frames fuel [] = ({ dir with buf := [] }, []) := by
  cases fuel <;> rfl

theorem handedBlocks_nil (fuel : Nat) (dir : Http2Direction P) : dir.handedBlocks fuel [] = [] := by
  cases fuel <;> rfl

theorem Ready.drained (ready : dir.Ready) : { dir with buf := [] } = dir := by
  rw [← ready.empty]

section WholeFrame

variable {frame : H2Frame} (fits : frame.payload.length ≤ dir.maxFrame)
  (after : (dir.onFrame frame.ftype frame.flags frame.streamId frame.payload).1.Ready)

include fits after

theorem frames_encode (fuel : Nat) :
    dir.frames (fuel + 1) frame.encode =
      dir.onFrame frame.ftype frame.flags frame.streamId frame.payload := by
  have header : ¬ frame.encode.length < 9 := by
    rw [frame.length_encode]
    omega
  have whole : ¬ frame.encode.length < 9 + frame.payload.length := by
    rw [frame.length_encode]
    omega
  rw [frames, if_neg header]
  dsimp only
  rw [frame.frameLength_encode, if_neg (Nat.not_lt.mpr fits), if_neg whole, frame.ftype_encode,
    frame.flags_encode, frame.streamId_encode, frame.payload_encode, frame.drop_encode,
    after.working, if_neg Bool.false_ne_true, frames_nil, after.drained, List.append_nil]

theorem handedBlocks_encode (fuel : Nat) :
    dir.handedBlocks (fuel + 1) frame.encode =
      (dir.completedBlock frame.ftype frame.flags frame.streamId frame.payload).toList := by
  have header : ¬ frame.encode.length < 9 := by
    rw [frame.length_encode]
    omega
  have whole : ¬ frame.encode.length < 9 + frame.payload.length := by
    rw [frame.length_encode]
    omega
  rw [handedBlocks, if_neg header]
  dsimp only
  rw [frame.frameLength_encode, if_neg (Nat.not_lt.mpr fits), if_neg whole, frame.ftype_encode,
    frame.flags_encode, frame.streamId_encode, frame.payload_encode, frame.drop_encode,
    after.working, if_neg Bool.false_ne_true, handedBlocks_nil, List.append_nil]

/-- A whole frame goes to `on_frame`. -/
theorem feed_encode (ready : dir.Ready) :
    dir.feed frame.encode =
        dir.onFrame frame.ftype frame.flags frame.streamId frame.payload ∧
      dir.fedBlocks frame.encode =
        (dir.completedBlock frame.ftype frame.flags frame.streamId frame.payload).toList := by
  have working : ¬ dir.broken = true := by simp [ready.working]
  constructor
  · rw [feed, if_neg working]
    dsimp only
    rw [if_pos ready.started, ready.empty, List.nil_append, frame.length_encode,
      frames_encode fits after]
  · rw [fedBlocks, if_neg working]
    dsimp only
    rw [if_pos ready.started, ready.empty, List.nil_append, frame.length_encode,
      handedBlocks_encode fits after]

end WholeFrame

theorem feed_nil (ready : dir.Ready) : dir.feed [] = (dir, []) ∧ dir.fedBlocks [] = [] := by
  have working : ¬ dir.broken = true := by simp [ready.working]
  constructor
  · rw [feed, if_neg working]
    dsimp only
    rw [if_pos ready.started, ready.empty, List.append_nil, frames_nil, ready.drained]
  · rw [fedBlocks, if_neg working]
    dsimp only
    rw [if_pos ready.started, ready.empty, List.append_nil, handedBlocks_nil]

end Http2Direction

/-! ## Messages as frames -/

/-- What one direction of a connection carries. -/
inductive H2Message where
  | headers (streamId : UInt32) (block : Bytes) (endStream : Bool)
  | promise (streamId : UInt32) (block : Bytes)
  | data (streamId : UInt32) (payload : Bytes) (endStream : Bool)

namespace H2Message

/-- The header block of a message. -/
def block? : H2Message → Option HeaderBlock
  | .headers streamId block endStream => some ⟨streamId, block, endStream, false⟩
  | .promise streamId block => some ⟨streamId, block, false, true⟩
  | .data _ _ _ => none

/-- The HPACK decoder after a message. -/
def hpackAfter {P : Platform} (hpack : Http2HpackDecoder P) (message : H2Message) :
    Http2HpackDecoder P :=
  message.block?.elim hpack fun block => (hpack.decode block.bytes).2

/-- What is reported of a message. -/
def items {P : Platform} (hpack : Http2HpackDecoder P) : H2Message → List H2Item
  | .headers streamId block endStream =>
    (hpack.decode block).1.toList.map fun fields =>
      .headers streamId (blockHeaders fields) endStream
  | .promise _ _ => []
  | .data streamId payload endStream => [.data streamId payload endStream]

/-- What is reported of messages one after the other. -/
def itemsOf {P : Platform} (hpack : Http2HpackDecoder P) : List H2Message → List H2Item
  | [] => []
  | message :: messages => message.items hpack ++ itemsOf (message.hpackAfter hpack) messages

/-- A message on a stream of its own, with a block that is not too long. -/
def Legal : H2Message → Prop
  | .headers streamId block _ => streamId ≠ 0 ∧ block.length ≤ h2MaxHeaderBlockBytes
  | .promise streamId block => streamId ≠ 0 ∧ block.length ≤ h2MaxHeaderBlockBytes
  | .data streamId _ _ => streamId ≠ 0

end H2Message

/-- A payload holds the content alone, or the PADDED flag is set and it holds the length of the
padding, the content and the padding. -/
def Padded (flags : UInt8) (content payload : Bytes) : Prop :=
  (hasFlag flags 0x08 = false ∧ payload = content) ∨
    (hasFlag flags 0x08 = true ∧ ∃ padding : Bytes, padding.length < 256 ∧
      payload = UInt8.ofNat padding.length :: (content ++ padding))

/-- A fragment stands alone, or the PRIORITY flag is set and five octets precede it. -/
def Prioritised (flags : UInt8) (fragment content : Bytes) : Prop :=
  (hasFlag flags 0x20 = false ∧ content = fragment) ∨
    (hasFlag flags 0x20 = true ∧ ∃ priority : Bytes, priority.length = 5 ∧
      content = priority ++ fragment)

/-- Fragments of a header block as CONTINUATION frames, the last of which ends the block. -/
inductive Continued (streamId : UInt32) : List Bytes → List H2Frame → Prop
  | nil : Continued streamId [] []
  | cons {frame : H2Frame} {more : List Bytes} {frames : List H2Frame}
      (ftype : frame.ftype = 0x09) (own : frame.streamId = streamId)
      (ended : hasFlag frame.flags 0x04 = more.isEmpty)
      (continued : Continued streamId more frames) :
      Continued streamId (frame.payload :: more) (frame :: frames)

/-- A message as frames. -/
inductive Framed : H2Message → List H2Frame → Prop
  | data {frame : H2Frame} {payload : Bytes} (ftype : frame.ftype = 0x00)
      (padded : Padded frame.flags payload frame.payload) :
      Framed (.data frame.streamId payload (hasFlag frame.flags 0x01)) [frame]
  | headers {frame : H2Frame} {fragment content : Bytes} {more : List Bytes}
      {frames : List H2Frame} (ftype : frame.ftype = 0x01)
      (padded : Padded frame.flags content frame.payload)
      (prioritised : Prioritised frame.flags fragment content)
      (ended : hasFlag frame.flags 0x04 = more.isEmpty)
      (continued : Continued frame.streamId more frames) :
      Framed (.headers frame.streamId (fragment ++ more.flatten) (hasFlag frame.flags 0x01))
        (frame :: frames)
  | promise {frame : H2Frame} {promised fragment : Bytes} {more : List Bytes}
      {frames : List H2Frame} (ftype : frame.ftype = 0x05) (four : promised.length = 4)
      (padded : Padded frame.flags (promised ++ fragment) frame.payload)
      (ended : hasFlag frame.flags 0x04 = more.isEmpty)
      (continued : Continued frame.streamId more frames) :
      Framed (.promise frame.streamId (fragment ++ more.flatten)) (frame :: frames)

/-- A frame that carries neither headers nor data: PRIORITY, SETTINGS, PING, WINDOW_UPDATE or one of
an unknown type. -/
def Filler (frame : H2Frame) : Prop :=
  frame.ftype = 0x02 ∨ frame.ftype = 0x04 ∨ frame.ftype = 0x06 ∨ frame.ftype = 0x08 ∨
    0x0A ≤ frame.ftype

/-- Messages as frames, with other frames between them. -/
inductive Written : List H2Message → List H2Frame → Prop
  | nil : Written [] []
  | filler {frame : H2Frame} {messages : List H2Message} {frames : List H2Frame}
      (filler : Filler frame) (rest : Written messages frames) : Written messages (frame :: frames)
  | message {message : H2Message} {messages : List H2Message} {first frames : List H2Frame}
      (framed : Framed message first) (rest : Written messages frames) :
      Written (message :: messages) (first ++ frames)

/-- The octets of some frames. -/
def encodeFrames (frames : List H2Frame) : Bytes := frames.flatMap H2Frame.encode

theorem encodeFrames_cons (frame : H2Frame) (frames : List H2Frame) :
    encodeFrames (frame :: frames) = frame.encode ++ encodeFrames frames := rfl

theorem encodeFrames_append (first second : List H2Frame) :
    encodeFrames (first ++ second) = encodeFrames first ++ encodeFrames second :=
  List.flatMap_append

namespace Http2Direction

variable {P : Platform} {dir : Http2Direction P}

theorem unpad_of_padded {flags : UInt8} {content payload : Bytes}
    (padded : Padded flags content payload) : unpad flags payload = some content := by
  rcases padded with ⟨plain, rfl⟩ | ⟨flag, padding, short, rfl⟩
  · simp [unpad, plain]
  · have count := UInt8.toNat_ofNat_of_lt' short
    simp [unpad, flag, count]

theorem dropPriority_of_prioritised {flags : UInt8} {fragment content : Bytes}
    (prioritised : Prioritised flags fragment content) :
    dropPriority flags content = some fragment := by
  rcases prioritised with ⟨plain, rfl⟩ | ⟨flag, priority, five, rfl⟩
  · simp [dropPriority, plain]
  · have dropped : (priority ++ fragment).drop 5 = fragment := List.drop_left' five
    simp [dropPriority, flag, five, dropped]

/-- A direction between two messages. -/
structure Between (dir : Http2Direction P) (maxFrame : Nat) (hpack : Http2HpackDecoder P) :
    Prop extends Ready dir where
  closed : dir.continuation = none
  maxFrame_eq : dir.maxFrame = maxFrame
  hpack_eq : dir.hpack = hpack

variable {maxFrame : Nat} {hpack : Http2HpackDecoder P}

theorem ftype_of_filler {frame : H2Frame} (filler : Filler frame) :
    frame.ftype ≠ 0x00 ∧ frame.ftype ≠ 0x01 ∧ frame.ftype ≠ 0x03 ∧ frame.ftype ≠ 0x05 ∧
      frame.ftype ≠ 0x07 ∧ frame.ftype ≠ 0x09 := by
  rcases filler with kind | kind | kind | kind | kind
  case inr.inr.inr.inr =>
    refine ⟨?_, ?_, ?_, ?_, ?_, ?_⟩
    all_goals
      intro other
      rw [other] at kind
      exact absurd kind (by decide)
  all_goals
    rw [kind]
    decide

/-- Other frames only announce settings. -/
theorem onFrame_filler (closed : dir.continuation = none) {frame : H2Frame}
    (filler : Filler frame) :
    (∃ announced, dir.onFrame frame.ftype frame.flags frame.streamId frame.payload =
      ({ dir with announcedMaxFrame := announced }, [])) ∧
      dir.completedBlock frame.ftype frame.flags frame.streamId frame.payload = none := by
  obtain ⟨data, headers, reset, promise, goAway, continuation⟩ := ftype_of_filler filler
  constructor
  · have settings : dir.onFrame frame.ftype frame.flags frame.streamId frame.payload =
        if frame.ftype = 0x04 then
          if !hasFlag frame.flags 0x01 && frame.payload.length % 6 = 0 then
            ({ dir with announcedMaxFrame :=
                announceSettings (frame.payload.length / 6) dir.announcedMaxFrame frame.payload },
              [])
          else (dir, [])
        else (dir, []) := by
      simp only [onFrame, closed, data, headers, reset, promise, goAway, continuation, if_false]
    rw [settings]
    split
    · split
      · exact ⟨_, rfl⟩
      · exact ⟨dir.announcedMaxFrame, rfl⟩
    · exact ⟨dir.announcedMaxFrame, rfl⟩
  · simp only [completedBlock, closed, headers, promise, if_false]

/-- What a direction makes of some octets. -/
structure Receives (dir : Http2Direction P) (data : Bytes) (after : Http2Direction P)
    (items : List H2Item) (blocks : List HeaderBlock) : Prop where
  feed_eq : dir.feed data = (after, items)
  blocks_eq : dir.fedBlocks data = blocks

theorem Receives.append {middle after : Http2Direction P} {data more : Bytes}
    {items moreItems : List H2Item} {blocks moreBlocks : List HeaderBlock} (empty : dir.buf = [])
    (first : dir.Receives data middle items blocks)
    (second : middle.Receives more after moreItems moreBlocks) :
    dir.Receives (data ++ more) after (items ++ moreItems) (blocks ++ moreBlocks) := by
  have drops : dir.DropsAll := fun _ => empty
  obtain ⟨whole, wholeBlocks⟩ := feed_append drops data more
  rw [first.feed_eq] at whole wholeBlocks
  rw [second.feed_eq] at whole
  rw [first.blocks_eq, second.blocks_eq] at wholeBlocks
  exact ⟨whole, wholeBlocks⟩

/-- A frame that leaves the direction ready. -/
theorem Receives.frame {result : Http2Direction P × List H2Item} {block : Option HeaderBlock}
    {frame : H2Frame} (ready : dir.Ready) (fits : frame.payload.length ≤ dir.maxFrame)
    (handled : dir.onFrame frame.ftype frame.flags frame.streamId frame.payload = result)
    (completed : dir.completedBlock frame.ftype frame.flags frame.streamId frame.payload = block)
    (still : result.1.Ready) : dir.Receives frame.encode result.1 result.2 block.toList := by
  have both := feed_encode fits (by rw [handled]; exact still) ready
  rw [handled, completed] at both
  exact ⟨both.1, both.2⟩

/-- A complete block leaves the direction between two messages. -/
theorem finishBlock_spec (dir : Http2Direction P) (block : HeaderBlock) :
    dir.finishBlock block = ({ dir with hpack := (dir.hpack.decode block.bytes).2 },
      if block.promise then []
      else (dir.hpack.decode block.bytes).1.toList.map fun fields =>
        .headers block.streamId (blockHeaders fields) block.endStream) := by
  unfold finishBlock
  obtain ⟨fields, after⟩ := dir.hpack.decode block.bytes
  cases fields with
  | none => cases block.promise <;> rfl
  | some fields => cases block.promise <;> rfl

theorem Ready.finishBlock (ready : dir.Ready) (continuation : Option HeaderBlock)
    (block : HeaderBlock) : ({ dir with continuation }.finishBlock block).1.Ready := by
  rw [finishBlock_spec]
  exact ⟨ready.working, ready.started, ready.empty⟩

/-- One CONTINUATION frame of an open block. -/
theorem onFrame_continuation {pending : HeaderBlock} {frame : H2Frame}
    (isOpen : dir.continuation = some pending) (ftype : frame.ftype = 0x09)
    (own : frame.streamId = pending.streamId)
    (short : pending.bytes.length + frame.payload.length ≤ h2MaxHeaderBlockBytes) :
    let block := { pending with bytes := pending.bytes ++ frame.payload }
    dir.onFrame frame.ftype frame.flags frame.streamId frame.payload =
        { dir with continuation := none }.openBlock frame.flags block ∧
      dir.completedBlock frame.ftype frame.flags frame.streamId frame.payload =
        endedBlock frame.flags block := by
  constructor
  · simp only [onFrame, isOpen, onContinuation, ftype, own, Nat.not_lt.mpr short]
    simp
  · simp only [completedBlock, isOpen, ftype, own, Nat.not_lt.mpr short]
    simp

/-- Continuations complete an open block. -/
theorem receives_continued {more : List Bytes} {frames : List H2Frame} {streamId : UInt32}
    (continued : Continued streamId more frames) {dir : Http2Direction P} {pending : HeaderBlock}
    (ready : dir.Ready) (isOpen : dir.continuation = some pending)
    (own : streamId = pending.streamId) (unfinished : more ≠ [])
    (fits : ∀ frame ∈ frames, frame.payload.length ≤ dir.maxFrame)
    (short : pending.bytes.length + more.flatten.length ≤ h2MaxHeaderBlockBytes) :
    let block := { pending with bytes := pending.bytes ++ more.flatten }
    dir.Receives (encodeFrames frames) ({ dir with continuation := none }.finishBlock block).1
      ({ dir with continuation := none }.finishBlock block).2 [block] := by
  induction continued generalizing dir pending with
  | nil => exact absurd rfl unfinished
  | @cons frame more frames ftype same ended continued ih =>
    have fitsFirst := fits frame List.mem_cons_self
    simp only [List.flatten_cons, List.length_append] at short
    obtain ⟨handled, completed⟩ := onFrame_continuation isOpen ftype (same.trans own) (by omega)
    cases more with
    | nil =>
      have last : hasFlag frame.flags 0x04 = true := ended
      cases continued
      rw [openBlock, if_pos last] at handled
      rw [endedBlock, if_pos last] at completed
      have whole := Receives.frame ready fitsFirst handled completed (ready.finishBlock none _)
      simpa [encodeFrames] using whole
    | cons next more =>
      have goesOn : hasFlag frame.flags 0x04 = false := ended
      rw [openBlock, goesOn, if_neg Bool.false_ne_true] at handled
      rw [endedBlock, goesOn, if_neg Bool.false_ne_true] at completed
      have still : { dir with continuation := some { pending with
          bytes := pending.bytes ++ frame.payload } }.Ready :=
        ⟨ready.working, ready.started, ready.empty⟩
      have first := Receives.frame ready fitsFirst handled completed still
      have rest := ih still rfl own (by simp)
        (fun frame member => fits frame (List.mem_cons_of_mem _ member))
        (by simpa [Nat.add_assoc] using short)
      have whole := first.append ready.empty rest
      simpa [encodeFrames_cons] using whole

/-- A header block, from the frame that opens it on. -/
theorem receives_block {opened : HeaderBlock} {frame : H2Frame} {more : List Bytes}
    {frames : List H2Frame} (between : dir.Between maxFrame hpack)
    (handled : dir.onFrame frame.ftype frame.flags frame.streamId frame.payload =
      dir.openBlock frame.flags opened)
    (completed : dir.completedBlock frame.ftype frame.flags frame.streamId frame.payload =
      endedBlock frame.flags opened)
    (ended : hasFlag frame.flags 0x04 = more.isEmpty)
    (continued : Continued opened.streamId more frames)
    (fits : ∀ other ∈ frame :: frames, other.payload.length ≤ maxFrame)
    (short : opened.bytes.length + more.flatten.length ≤ h2MaxHeaderBlockBytes) :
    let block := { opened with bytes := opened.bytes ++ more.flatten }
    dir.Receives (encodeFrames (frame :: frames)) (dir.finishBlock block).1
      (dir.finishBlock block).2 [block] := by
  have ready := between.toReady
  have same : { dir with continuation := none } = dir := by rw [← between.closed]
  rw [← between.maxFrame_eq] at fits
  have fitsFirst := fits frame List.mem_cons_self
  cases more with
  | nil =>
    have last : hasFlag frame.flags 0x04 = true := ended
    cases continued
    rw [openBlock, if_pos last] at handled
    rw [endedBlock, if_pos last] at completed
    have still := ready.finishBlock none opened
    rw [same] at still
    have whole := Receives.frame ready fitsFirst handled completed still
    simpa [encodeFrames] using whole
  | cons next more =>
    have goesOn : hasFlag frame.flags 0x04 = false := ended
    rw [openBlock, goesOn, if_neg Bool.false_ne_true] at handled
    rw [endedBlock, goesOn, if_neg Bool.false_ne_true] at completed
    have still : { dir with continuation := some opened }.Ready :=
      ⟨ready.working, ready.started, ready.empty⟩
    have first := Receives.frame ready fitsFirst handled completed still
    have rest := receives_continued continued still rfl rfl (by simp)
      (fun other member => fits other (List.mem_cons_of_mem _ member)) short
    have whole := first.append ready.empty rest
    rw [encodeFrames_cons]
    simpa [same] using whole

theorem onFrame_data (closed : dir.continuation = none) {frame : H2Frame} {payload : Bytes}
    (ftype : frame.ftype = 0x00) (stream : frame.streamId ≠ 0)
    (padded : Padded frame.flags payload frame.payload) :
    dir.onFrame frame.ftype frame.flags frame.streamId frame.payload =
        (dir, [.data frame.streamId payload (hasFlag frame.flags 0x01)]) ∧
      dir.completedBlock frame.ftype frame.flags frame.streamId frame.payload = none := by
  constructor
  · simp only [onFrame, closed, ftype, if_true, if_neg stream, unpad_of_padded padded]
  · simp [completedBlock, closed, ftype]

theorem onFrame_headers (closed : dir.continuation = none) {frame : H2Frame}
    {fragment content : Bytes} (ftype : frame.ftype = 0x01) (stream : frame.streamId ≠ 0)
    (padded : Padded frame.flags content frame.payload)
    (prioritised : Prioritised frame.flags fragment content)
    (short : fragment.length ≤ h2MaxHeaderBlockBytes) :
    let opened : HeaderBlock := ⟨frame.streamId, fragment, hasFlag frame.flags 0x01, false⟩
    dir.onFrame frame.ftype frame.flags frame.streamId frame.payload =
        dir.openBlock frame.flags opened ∧
      dir.completedBlock frame.ftype frame.flags frame.streamId frame.payload =
        endedBlock frame.flags opened := by
  have stripped : (unpad frame.flags frame.payload).bind (dropPriority frame.flags) =
      some fragment := by
    rw [unpad_of_padded padded, Option.bind_some, dropPriority_of_prioritised prioritised]
  constructor
  · simp [onFrame, closed, ftype, onHeaders, stream, stripped, Nat.not_lt.mpr short]
  · simp [completedBlock, closed, ftype, stream, stripped, Nat.not_lt.mpr short]

theorem onFrame_promise (closed : dir.continuation = none) {frame : H2Frame}
    {promised fragment : Bytes} (ftype : frame.ftype = 0x05) (four : promised.length = 4)
    (padded : Padded frame.flags (promised ++ fragment) frame.payload)
    (short : fragment.length ≤ h2MaxHeaderBlockBytes) :
    let opened : HeaderBlock := ⟨frame.streamId, fragment, false, true⟩
    dir.onFrame frame.ftype frame.flags frame.streamId frame.payload =
        dir.openBlock frame.flags opened ∧
      dir.completedBlock frame.ftype frame.flags frame.streamId frame.payload =
        endedBlock frame.flags opened := by
  have unpadded := unpad_of_padded padded
  have dropped : (promised ++ fragment).drop 4 = fragment := List.drop_left' four
  have short : ¬ h2MaxHeaderBlockBytes < (promised ++ fragment).length - 4 := by
    rw [List.length_append]
    omega
  have long : ¬ (promised ++ fragment).length < 4 := by
    rw [List.length_append]
    omega
  constructor
  · simp [onFrame, closed, ftype, onPushPromise, unpadded, dropped, short, long,
      -List.length_append]
  · simp [completedBlock, closed, ftype, unpadded, dropped, short, long, -List.length_append]

/-- After a complete block the direction is between two messages. -/
theorem Between.finishBlock (between : dir.Between maxFrame hpack) (block : HeaderBlock) :
    (dir.finishBlock block).1.Between maxFrame (hpack.decode block.bytes).2 := by
  rw [finishBlock_spec, between.hpack_eq]
  exact ⟨⟨between.working, between.started, between.empty⟩, between.closed, between.maxFrame_eq,
    rfl⟩

/-- A message in any of its framings. -/
theorem receives_message {message : H2Message} {frames : List H2Frame}
    (framed : Framed message frames) (legal : message.Legal)
    (between : dir.Between maxFrame hpack)
    (fits : ∀ frame ∈ frames, frame.payload.length ≤ maxFrame) :
    ∃ after : Http2Direction P, after.Between maxFrame (message.hpackAfter hpack) ∧
      dir.Receives (encodeFrames frames) after (message.items hpack) message.block?.toList := by
  cases framed with
  | @data frame payload ftype padded =>
    obtain ⟨handled, completed⟩ := onFrame_data between.closed ftype legal padded
    have fitsFirst : frame.payload.length ≤ dir.maxFrame := by
      rw [between.maxFrame_eq]
      exact fits frame List.mem_cons_self
    refine ⟨dir, between, ?_⟩
    simpa [encodeFrames, H2Message.items, H2Message.block?] using
      Receives.frame between.toReady fitsFirst handled completed between.toReady
  | headers ftype padded prioritised ended continued =>
    obtain ⟨stream, short⟩ := legal
    rw [List.length_append] at short
    obtain ⟨handled, completed⟩ :=
      onFrame_headers between.closed ftype stream padded prioritised (by omega)
    have whole := receives_block between handled completed ended continued fits short
    refine ⟨_, between.finishBlock _, ?_⟩
    simpa [finishBlock_spec, between.hpack_eq, H2Message.items, H2Message.block?] using whole
  | promise ftype four padded ended continued =>
    obtain ⟨-, short⟩ := legal
    rw [List.length_append] at short
    obtain ⟨handled, completed⟩ := onFrame_promise between.closed ftype four padded (by omega)
    have whole := receives_block between handled completed ended continued fits short
    refine ⟨_, between.finishBlock _, ?_⟩
    simpa [finishBlock_spec, between.hpack_eq, H2Message.items, H2Message.block?] using whole

/-- Messages in any of their framings, with other frames in between, by induction on the frames as
they are written. -/
theorem receives_written {messages : List H2Message} {frames : List H2Frame}
    (written : Written messages frames) (legal : ∀ message ∈ messages, message.Legal)
    {dir : Http2Direction P} {hpack : Http2HpackDecoder P} (between : dir.Between maxFrame hpack)
    (fits : ∀ frame ∈ frames, frame.payload.length ≤ maxFrame) :
    ∃ after : Http2Direction P,
      after.Between maxFrame (messages.foldl (fun hpack message => message.hpackAfter hpack) hpack) ∧
      dir.Receives (encodeFrames frames) after (H2Message.itemsOf hpack messages)
        (messages.filterMap H2Message.block?) := by
  induction written generalizing dir hpack with
  | nil =>
    obtain ⟨fed, blocks⟩ := feed_nil between.toReady
    exact ⟨dir, between, fed, blocks⟩
  | @filler frame messages frames filler rest ih =>
    obtain ⟨⟨announced, handled⟩, completed⟩ := onFrame_filler between.closed filler
    have fitsFirst : frame.payload.length ≤ dir.maxFrame := by
      rw [between.maxFrame_eq]
      exact fits frame List.mem_cons_self
    have still : { dir with announcedMaxFrame := announced }.Between maxFrame hpack :=
      ⟨⟨between.working, between.started, between.empty⟩, between.closed, between.maxFrame_eq,
        between.hpack_eq⟩
    have first := Receives.frame between.toReady fitsFirst handled completed still.toReady
    obtain ⟨after, later, receives⟩ := ih legal still
      (fun frame member => fits frame (List.mem_cons_of_mem _ member))
    exact ⟨after, later, first.append between.empty receives⟩
  | @message message messages first frames framed rest ih =>
    obtain ⟨middle, still, receives⟩ := receives_message framed (legal _ List.mem_cons_self)
      between (fun frame member => fits frame (List.mem_append_left _ member))
    obtain ⟨after, later, receivesRest⟩ := ih
      (fun message member => legal message (List.mem_cons_of_mem _ member)) still
      (fun frame member => fits frame (List.mem_append_right _ member))
    refine ⟨after, later, ?_⟩
    have whole := receives.append between.empty receivesRest
    rw [encodeFrames_append, List.filterMap_cons]
    cases block : message.block? with
    | none => simpa [block, H2Message.itemsOf] using whole
    | some _ => simpa [block, H2Message.itemsOf] using whole

/-- What precedes the frames. -/
def opening (dir : Http2Direction P) : Bytes :=
  if dir.prefaceDone then [] else http2ConnectionPreface

/-- The preface makes a fresh direction ready. -/
theorem receives_opening (working : dir.broken = false) (empty : dir.buf = []) :
    dir.Receives dir.opening { dir with prefaceDone := true } [] [] := by
  have running : ¬ dir.broken = true := by simp [working]
  unfold opening
  cases started : dir.prefaceDone with
  | true =>
    have same : { dir with prefaceDone := true } = dir := by rw [← started]
    obtain ⟨fed, blocks⟩ := feed_nil ⟨working, started, empty⟩
    rw [same]
    exact ⟨fed, blocks⟩
  | false =>
    have unstarted : ¬ dir.prefaceDone = true := by simp [started]
    have whole : http2ConnectionPreface.isPrefixOf http2ConnectionPreface = true := by decide
    constructor
    · rw [feed, if_neg running]
      dsimp only
      rw [if_neg unstarted, empty, List.nil_append, if_neg Bool.false_ne_true,
        if_pos (Nat.le_refl _), if_pos whole, List.drop_length, frames_nil]
    · rw [fedBlocks, if_neg running]
      dsimp only
      rw [if_neg unstarted, empty, List.nil_append, if_neg Bool.false_ne_true,
        if_pos (Nat.le_refl _), if_pos whole, List.drop_length, handedBlocks_nil]

theorem foldl_hpackAfter (messages : List H2Message) (hpack : Http2HpackDecoder P) :
    messages.foldl (fun hpack message => message.hpackAfter hpack) hpack =
      (messages.filterMap H2Message.block?).foldl
        (fun hpack block => (hpack.decode block.bytes).2) hpack := by
  induction messages generalizing hpack with
  | nil => rfl
  | cons message messages ih =>
    rw [List.foldl_cons, ih, List.filterMap_cons, H2Message.hpackAfter]
    cases message.block? <;> rfl

/-- A direction that is fed messages in any of their framings, cut in any way, does not break, hands
exactly their header blocks to HPACK, in order, and reports exactly what HPACK makes of them and the
data. -/
theorem feedChunks_written {messages : List H2Message} {frames : List H2Frame}
    {chunks : List Bytes} (working : dir.broken = false) (empty : dir.buf = [])
    (closed : dir.continuation = none) (written : Written messages frames)
    (legal : ∀ message ∈ messages, message.Legal)
    (fits : ∀ frame ∈ frames, frame.payload.length ≤ dir.maxFrame)
    (cut : chunks.flatten = dir.opening ++ encodeFrames frames) :
    (dir.feedChunks chunks).1.broken = false ∧
      dir.chunkBlocks chunks = messages.filterMap H2Message.block? ∧
      (dir.feedChunks chunks).1.hpack =
        (messages.filterMap H2Message.block?).foldl
          (fun hpack block => (hpack.decode block.bytes).2) dir.hpack ∧
      (dir.feedChunks chunks).2 = H2Message.itemsOf dir.hpack messages := by
  have between : { dir with prefaceDone := true }.Between dir.maxFrame dir.hpack :=
    ⟨⟨working, rfl, empty⟩, closed, rfl, rfl⟩
  obtain ⟨after, still, receives⟩ := receives_written written legal between fits
  have whole := (receives_opening working empty).append empty receives
  rw [← cut] at whole
  have uncut : dir.feedChunks chunks = dir.feed chunks.flatten ∧
      dir.chunkBlocks chunks = dir.fedBlocks chunks.flatten := by
    cases chunks with
    | nil =>
      have started : dir.prefaceDone = true := by
        by_contra unstarted
        have present : ([] : Bytes) = http2ConnectionPreface ++ encodeFrames frames := by
          simpa [opening, unstarted] using cut
        exact absurd (List.append_eq_nil_iff.mp present.symm).1 (by decide)
      obtain ⟨fed, blocks⟩ := feed_nil ⟨working, started, empty⟩
      exact ⟨fed.symm, blocks.symm⟩
    | cons chunk chunks => exact feedChunks_cons (fun _ => empty) chunk chunks
  rw [uncut.1, uncut.2, whole.feed_eq, whole.blocks_eq]
  refine ⟨still.working, rfl, ?_, rfl⟩
  rw [← foldl_hpackAfter]
  exact still.hpack_eq

/-- A padded HEADERS frame with priority fields. -/
def sampleHeaders : H2Frame :=
  ⟨0x01, 0x29, false, 1, [2, 0, 0, 0, 0, 16, 0x82, 0, 0], by decide, by decide⟩

def sampleContinuation : H2Frame := ⟨0x09, 0x04, false, 1, [0x84], by decide, by decide⟩

def samplePing : H2Frame :=
  ⟨0x06, 0x00, true, 0, [1, 2, 3, 4, 5, 6, 7, 8], by decide, by decide⟩

def sampleData : H2Frame := ⟨0x00, 0x01, true, 1, [104, 105], by decide, by decide⟩

def sampleMessages : List H2Message := [.headers 1 [0x82, 0x84] true, .data 1 [104, 105] true]

theorem feedChunks_written_sample :
    let dir : Http2Direction asciiPlatform := new true
    let frames := [sampleHeaders, sampleContinuation, samplePing, sampleData]
    (dir.feedChunks [http2ConnectionPreface ++ encodeFrames frames]).2 =
      H2Message.itemsOf (P := asciiPlatform) .new sampleMessages := by
  intro dir frames
  have written : Written sampleMessages frames := by
    have padded : Padded 0x29 [0, 0, 0, 0, 16, 0x82] [2, 0, 0, 0, 0, 16, 0x82, 0, 0] :=
      .inr ⟨by decide, [0, 0], by decide, rfl⟩
    have prioritised : Prioritised 0x29 [0x82] [0, 0, 0, 0, 16, 0x82] :=
      .inr ⟨by decide, [0, 0, 0, 0, 16], rfl, rfl⟩
    have continued : Continued 1 [sampleContinuation.payload] [sampleContinuation] :=
      .cons rfl rfl rfl .nil
    have headers : Framed (.headers 1 [0x82, 0x84] true) [sampleHeaders, sampleContinuation] :=
      @Framed.headers sampleHeaders _ _ _ _ rfl padded prioritised rfl continued
    have data : Framed (.data 1 [104, 105] true) [sampleData] :=
      @Framed.data sampleData _ rfl (.inl ⟨by decide, rfl⟩)
    exact .message headers (.filler (.inr (.inr (.inl rfl))) (.message data .nil))
  have legal : ∀ message ∈ sampleMessages, message.Legal := by
    simp [sampleMessages, H2Message.Legal, h2MaxHeaderBlockBytes]
  have cut : [http2ConnectionPreface ++ encodeFrames frames].flatten =
      dir.opening ++ encodeFrames frames := by
    simp [opening, dir, new]
  exact (feedChunks_written rfl rfl rfl written legal (by decide) cut).2.2.2

end Http2Direction

end ApiSensor
