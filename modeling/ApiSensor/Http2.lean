import ApiSensor.Types

/-!
# HTTP/2 parsing

`http2.rs`: the HPACK wrapper and the incremental parser of one direction of a connection.
-/

namespace ApiSensor

open Library

/-! ## HPACK -/

/-- The loop of `read_hpack_int` over the octets that follow a full prefix; `total` counts the
octets read so far. -/
def readHpackIntMore (result shift total : Nat) : Bytes → Option (Nat × Nat)
  | [] => none
  | byte :: rest =>
    let result := result + (byte.toNat % 128) * 2 ^ shift
    if byte < 0x80 then some (result, total + 1)
    else if 5 ≤ total + 1 then none
    else readHpackIntMore result (shift + 7) (total + 1) rest

/-- `read_hpack_int` on the block from the current position on. -/
def readHpackInt (rest : Bytes) (prefixBits : Nat) : Option (Nat × Nat) :=
  match rest with
  | [] => none
  | byte :: more =>
    let mask := 2 ^ prefixBits - 1
    let val := byte.toNat % 2 ^ prefixBits
    if val < mask then some (val, 1) else readHpackIntMore mask 0 1 more

def skipHpackString (rest : Bytes) : Option Nat :=
  match readHpackInt rest 7 with
  | none => none
  | some (strLen, consumed) =>
    let total := consumed + strLen
    if rest.length < total then none else some total

/-- Octets of a literal field whose index has the given prefix width. -/
def skipHpackLiteral (rest : Bytes) (prefixBits : Nat) : Option Nat :=
  match readHpackInt rest prefixBits with
  | none => none
  | some (index, consumed) =>
    let afterName :=
      if index = 0 then (skipHpackString (rest.drop consumed)).map (consumed + ·)
      else some consumed
    afterName.bind fun start => (skipHpackString (rest.drop start)).map (start + ·)

/-- Octets of the entry that begins with `byte`. -/
def skipHpackEntry (byte : UInt8) (rest : Bytes) : Option Nat :=
  if byte &&& 0x80 ≠ 0 then (readHpackInt rest 7).map Prod.snd
  else if byte &&& 0xC0 = 0x40 then skipHpackLiteral rest 6
  else if byte &&& 0xE0 = 0x20 then (readHpackInt rest 5).map Prod.snd
  else skipHpackLiteral rest 4

/-- The loop of `validate_hpack_block`; every entry takes at least one octet. -/
def validateHpackLoop : Nat → Bytes → Bool
  | _, [] => true
  | 0, _ :: _ => false
  | fuel + 1, byte :: more =>
    match skipHpackEntry byte (byte :: more) with
    | none => false
    | some consumed => validateHpackLoop fuel ((byte :: more).drop consumed)

def validateHpackBlock (block : Bytes) : Bool := validateHpackLoop block.length block

structure Http2HpackDecoder (P : Platform) where
  inner : P.hpack.State
  errorCount : Nat

namespace Http2HpackDecoder

variable {P : Platform}

/-- `Http2HpackDecoder::RESET_THRESHOLD`. -/
def resetThreshold : Nat := 3

def new : Http2HpackDecoder P := ⟨P.hpack.init, 0⟩

/-- Count one failed block; the third in a row resets the decoder. -/
def countError (decoder : Http2HpackDecoder P) : Http2HpackDecoder P :=
  if resetThreshold ≤ decoder.errorCount + 1 then new
  else { decoder with errorCount := decoder.errorCount + 1 }

def decode (decoder : Http2HpackDecoder P) (block : Bytes) :
    Option (List (Bytes × Bytes)) × Http2HpackDecoder P :=
  if !validateHpackBlock block then (none, decoder.countError)
  else
    match P.hpack.decode decoder.inner block with
    | (none, _) => (none, new)
    | (some none, inner) => (none, { decoder with inner }.countError)
    | (some (some fields), inner) => (some fields, ⟨inner, 0⟩)

end Http2HpackDecoder

/-- `insert_header`: repeated names are merged. -/
def insertHeader (map : Headers) (name value : Str) : Headers :=
  match map.get? name with
  | none => map.insert name value
  | some existing =>
    let separator :=
      if name = str "cookie" then str "; "
      else if name = str "set-cookie" then str "\n"
      else str ", "
    map.insert name (existing ++ separator ++ value)

/-- The headers `finish_block` builds from decoded fields. -/
def blockHeaders (fields : List (Bytes × Bytes)) : Headers :=
  fields.foldl (fun headers field =>
    let name := toAsciiLowercase (fromUtf8Lossy field.1)
    if name.isEmpty then headers else insertHeader headers name (fromUtf8Lossy field.2)) .empty

/-! ## Frames -/

def h2DefaultMaxFrameSize : Nat := 16384

def h2MaxAcceptedFrame : Nat := 2 ^ 20

def h2MaxHeaderBlockBytes : Nat := 128 * 1024

/-- `usize::clamp`. -/
def clamp (low high value : Nat) : Nat := max low (min value high)

inductive H2Item where
  | headers (streamId : UInt32) (headers : Headers) (endStream : Bool)
  | data (streamId : UInt32) (data : Bytes) (endStream : Bool)
  | reset (streamId : UInt32)
  | goAway (lastStreamId : UInt32)
  deriving DecidableEq

structure HeaderBlock where
  streamId : UInt32
  bytes : Bytes
  endStream : Bool
  promise : Bool
  deriving DecidableEq

/-- The length field of a frame header. -/
def frameLength (frame : Bytes) : Nat := fromBeBytes (frame.take 3)

/-- A 31-bit stream identifier in four octets. -/
def streamIdOf (octets : Bytes) : UInt32 := UInt32.ofNat (fromBeBytes octets % 2 ^ 31)

/-- `flags & bit != 0`. -/
def hasFlag (flags bit : UInt8) : Bool := flags &&& bit != 0

structure Http2Direction (P : Platform) where
  buf : Bytes
  hpack : Http2HpackDecoder P
  prefaceDone : Bool
  continuation : Option HeaderBlock
  maxFrame : Nat
  announcedMaxFrame : Option Nat
  broken : Bool

namespace Http2Direction

variable {P : Platform}

def new (expectPreface : Bool) : Http2Direction P :=
  ⟨[], .new, !expectPreface, none, h2DefaultMaxFrameSize, none, false⟩

/-- Bytes of the open header block. -/
def blockLength (dir : Http2Direction P) : Nat :=
  dir.continuation.elim 0 fun block => block.bytes.length

def buffered (dir : Http2Direction P) : Nat := dir.buf.length + dir.blockLength

def setMaxFrame (dir : Http2Direction P) (size : Nat) : Http2Direction P :=
  { dir with maxFrame := clamp h2DefaultMaxFrameSize h2MaxAcceptedFrame size }

def fail (dir : Http2Direction P) : Http2Direction P :=
  { dir with broken := true, buf := [], continuation := none }

/-- `unpad`: strip the pad length and the padding. -/
def unpad (flags : UInt8) (payload : Bytes) : Option Bytes :=
  if !hasFlag flags 0x08 then some payload
  else
    match payload with
    | [] => none
    | pad :: rest =>
      if rest.length < pad.toNat then none else some (rest.take (rest.length - pad.toNat))

def finishBlock (dir : Http2Direction P) (block : HeaderBlock) :
    Http2Direction P × List H2Item :=
  match dir.hpack.decode block.bytes with
  | (none, hpack) => ({ dir with hpack }, [])
  | (some fields, hpack) =>
    if block.promise then ({ dir with hpack }, [])
    else ({ dir with hpack }, [.headers block.streamId (blockHeaders fields) block.endStream])

/-- A complete block is decoded, an incomplete one stays open. -/
def openBlock (dir : Http2Direction P) (flags : UInt8) (block : HeaderBlock) :
    Http2Direction P × List H2Item :=
  if hasFlag flags 0x04 then dir.finishBlock block
  else ({ dir with continuation := some block }, [])

/-- The entries of a SETTINGS payload; the last maximum frame size wins. -/
def announceSettings : Nat → Option Nat → Bytes → Option Nat
  | 0, announced, _ => announced
  | entries + 1, announced, payload =>
    let id := fromBeBytes (payload.take 2)
    let val := fromBeBytes ((payload.drop 2).take 4)
    let announced :=
      if id = 5 then some (clamp h2DefaultMaxFrameSize (2 ^ 24 - 1) val) else announced
    announceSettings entries announced (payload.drop 6)

/-- `on_frame` while a header block is open: only its own continuation is legal. -/
def onContinuation (dir : Http2Direction P) (pending : HeaderBlock) (ftype flags : UInt8)
    (streamId : UInt32) (payload : Bytes) : Http2Direction P × List H2Item :=
  let dir := { dir with continuation := none }
  if ftype ≠ 0x09 || streamId ≠ pending.streamId then (dir.fail, [])
  else if h2MaxHeaderBlockBytes < pending.bytes.length + payload.length then (dir.fail, [])
  else dir.openBlock flags { pending with bytes := pending.bytes ++ payload }

/-- Strip the priority fields that may precede the fragment of a HEADERS frame. -/
def dropPriority (flags : UInt8) (frag : Bytes) : Option Bytes :=
  if !hasFlag flags 0x20 then some frag
  else if frag.length < 5 then none
  else some (frag.drop 5)

def onHeaders (dir : Http2Direction P) (flags : UInt8) (streamId : UInt32) (payload : Bytes) :
    Http2Direction P × List H2Item :=
  if streamId = 0 then (dir.fail, [])
  else
    match (unpad flags payload).bind (dropPriority flags) with
    | none => (dir.fail, [])
    | some frag =>
      if h2MaxHeaderBlockBytes < frag.length then (dir.fail, [])
      else dir.openBlock flags ⟨streamId, frag, hasFlag flags 0x01, false⟩

def onPushPromise (dir : Http2Direction P) (flags : UInt8) (streamId : UInt32)
    (payload : Bytes) : Http2Direction P × List H2Item :=
  match unpad flags payload with
  | none => (dir.fail, [])
  | some frag =>
    if frag.length < 4 || h2MaxHeaderBlockBytes < frag.length - 4 then (dir.fail, [])
    else dir.openBlock flags ⟨streamId, frag.drop 4, false, true⟩

def onFrame (dir : Http2Direction P) (ftype flags : UInt8) (streamId : UInt32)
    (payload : Bytes) : Http2Direction P × List H2Item :=
  match dir.continuation with
  | some pending => dir.onContinuation pending ftype flags streamId payload
  | none =>
    if ftype = 0x00 then
      if streamId = 0 then (dir.fail, [])
      else
        match unpad flags payload with
        | none => (dir.fail, [])
        | some data => (dir, [.data streamId data (hasFlag flags 0x01)])
    else if ftype = 0x01 then dir.onHeaders flags streamId payload
    else if ftype = 0x03 then (dir, if streamId ≠ 0 then [.reset streamId] else [])
    else if ftype = 0x04 then
      if !hasFlag flags 0x01 && payload.length % 6 = 0 then
        let announced := announceSettings (payload.length / 6) dir.announcedMaxFrame payload
        ({ dir with announcedMaxFrame := announced }, [])
      else (dir, [])
    else if ftype = 0x05 then dir.onPushPromise flags streamId payload
    else if ftype = 0x07 then
      if streamId ≠ 0 || payload.length < 8 then (dir.fail, [])
      else (dir, [.goAway (streamIdOf (payload.take 4))])
    else if ftype = 0x09 then (dir.fail, [])
    else (dir, [])

/-- The frame loop of `feed`: `rest` is what has not been consumed.  A frame takes at least nine
bytes, so the length of the buffer is enough fuel. -/
def frames : Nat → Http2Direction P → Bytes → Http2Direction P × List H2Item
  | 0, dir, rest => ({ dir with buf := rest }, [])
  | fuel + 1, dir, rest =>
    if rest.length < 9 then ({ dir with buf := rest }, [])
    else
      let len := frameLength rest
      if dir.maxFrame < len then (dir.fail, [])
      else if rest.length < 9 + len then ({ dir with buf := rest }, [])
      else
        let (dir', items) :=
          dir.onFrame (rest.getD 3 0) (rest.getD 4 0) (streamIdOf ((rest.drop 5).take 4))
            ((rest.drop 9).take len)
        if dir'.broken then (dir', items)
        else
          let (final, more) := frames fuel dir' (rest.drop (9 + len))
          (final, items ++ more)

def feed (dir : Http2Direction P) (data : Bytes) : Http2Direction P × List H2Item :=
  if dir.broken then (dir, [])
  else
    let buf := dir.buf ++ data
    if dir.prefaceDone then dir.frames buf.length buf
    else if http2ConnectionPreface.length ≤ buf.length then
      if http2ConnectionPreface.isPrefixOf buf then
        let rest := buf.drop http2ConnectionPreface.length
        { dir with prefaceDone := true }.frames rest.length rest
      else (dir.fail, [])
    else if buf.isPrefixOf http2ConnectionPreface then ({ dir with buf }, [])
    else (dir.fail, [])

/-! ## Held bytes

A direction holds no byte that it was not fed: bytes only move from the buffer to the open block.
-/

/-- What `on_frame` can do to a direction. -/
inductive FrameStep (dir : Http2Direction P) (payload : Bytes) :
    Http2Direction P × List H2Item → Prop
  | failed : FrameStep dir payload (dir.fail, [])
  /-- A header block stays open. -/
  | opened {block : HeaderBlock} (limit : block.bytes.length ≤ h2MaxHeaderBlockBytes)
      (grown : block.bytes.length ≤ dir.blockLength + payload.length) :
      FrameStep dir payload ({ dir with continuation := some block }, [])
  | decoded (block : HeaderBlock) :
      FrameStep dir payload ({ dir with continuation := none }.finishBlock block)
  | announced (size : Option Nat) (closed : dir.continuation = none) :
      FrameStep dir payload ({ dir with continuation := none, announcedMaxFrame := size }, [])
  | handed (items : List H2Item) (closed : dir.continuation = none) :
      FrameStep dir payload (dir, items)

theorem finishBlock_fst (dir : Http2Direction P) (block : HeaderBlock) :
    ∃ hpack, (dir.finishBlock block).1 = { dir with hpack } := by
  unfold finishBlock
  split
  · exact ⟨_, rfl⟩
  · split <;> exact ⟨_, rfl⟩

variable {dir : Http2Direction P}

theorem frameStep_openBlock {payload : Bytes} (flags : UInt8) {block : HeaderBlock}
    (limit : block.bytes.length ≤ h2MaxHeaderBlockBytes)
    (grown : block.bytes.length ≤ dir.blockLength + payload.length) :
    FrameStep dir payload ({ dir with continuation := none }.openBlock flags block) := by
  unfold openBlock
  split
  · exact .decoded block
  · exact .opened limit grown

theorem eq_of_closed (closed : dir.continuation = none) :
    { dir with continuation := none } = dir := by
  rw [← closed]

theorem length_unpad_le {flags : UInt8} {payload frag : Bytes}
    (unpadded : unpad flags payload = some frag) : frag.length ≤ payload.length := by
  unfold unpad at unpadded
  split at unpadded
  · cases unpadded
    exact Nat.le_refl _
  · cases payload with
    | nil => cases unpadded
    | cons pad rest =>
      simp only at unpadded
      split at unpadded
      · cases unpadded
      · cases unpadded
        simp only [List.length_take, List.length_cons]
        omega

theorem length_dropPriority_le {flags : UInt8} {frag block : Bytes}
    (stripped : dropPriority flags frag = some block) : block.length ≤ frag.length := by
  unfold dropPriority at stripped
  split at stripped
  · cases stripped
    exact Nat.le_refl _
  · split at stripped
    · cases stripped
    · cases stripped
      simp

theorem frameStep_onContinuation {pending : HeaderBlock} (isOpen : dir.continuation = some pending)
    (ftype flags : UInt8) (streamId : UInt32) (payload : Bytes) :
    FrameStep dir payload (dir.onContinuation pending ftype flags streamId payload) := by
  have held : dir.blockLength = pending.bytes.length := by rw [blockLength, isOpen]; rfl
  unfold onContinuation
  dsimp only
  split
  · exact .failed
  · split
    · exact .failed
    · rename_i limit
      rw [Nat.not_lt, ← List.length_append] at limit
      refine frameStep_openBlock flags limit ?_
      rw [held, List.length_append]

theorem frameStep_onHeaders (closed : dir.continuation = none) (flags : UInt8) (streamId : UInt32)
    (payload : Bytes) :
    FrameStep dir payload (dir.onHeaders flags streamId payload) := by
  unfold onHeaders
  split
  · exact .failed
  · cases stripped : (unpad flags payload).bind (dropPriority flags) with
    | none => exact .failed
    | some frag =>
      obtain ⟨whole, unpadded, dropped⟩ := Option.bind_eq_some_iff.mp stripped
      have le : frag.length ≤ payload.length :=
        (length_dropPriority_le dropped).trans (length_unpad_le unpadded)
      dsimp only
      split
      · exact .failed
      · rename_i limit
        have opens := @frameStep_openBlock P dir payload flags
          ⟨streamId, frag, hasFlag flags 0x01, false⟩ (Nat.not_lt.mp limit)
          (le.trans (Nat.le_add_left _ _))
        rwa [eq_of_closed closed] at opens

theorem frameStep_onPushPromise (closed : dir.continuation = none) (flags : UInt8)
    (streamId : UInt32) (payload : Bytes) :
    FrameStep dir payload (dir.onPushPromise flags streamId payload) := by
  unfold onPushPromise
  cases unpadded : unpad flags payload with
  | none => exact .failed
  | some frag =>
    have le := length_unpad_le unpadded
    dsimp only
    split
    · exact .failed
    · rename_i limit
      simp only [Bool.or_eq_true, decide_eq_true_eq, not_or, Nat.not_lt] at limit
      have opens := @frameStep_openBlock P dir payload flags
        ⟨streamId, frag.drop 4, false, true⟩ (by simpa using limit.2)
        (by simp only [List.length_drop]; omega)
      rwa [eq_of_closed closed] at opens

theorem frameStep_onFrame (dir : Http2Direction P) (ftype flags : UInt8) (streamId : UInt32)
    (payload : Bytes) : FrameStep dir payload (dir.onFrame ftype flags streamId payload) := by
  unfold onFrame
  cases pending : dir.continuation with
  | some block => exact frameStep_onContinuation pending ftype flags streamId payload
  | none =>
    dsimp only
    split_ifs
    · exact .failed
    · cases unpad flags payload with
      | none => exact .failed
      | some data => exact .handed _ pending
    · exact frameStep_onHeaders pending flags streamId payload
    · exact .handed _ pending
    · exact .handed _ pending
    · exact .announced _ pending
    · exact .handed _ pending
    · exact frameStep_onPushPromise pending flags streamId payload
    · exact .failed
    · exact .handed _ pending
    · exact .failed
    · exact .handed _ pending

/-- What a frame that brings `added` bytes can do to a direction: break it, which gives up all it
holds, or move at most these bytes to the open block. -/
inductive FrameEffect (dir after : Http2Direction P) (added : Nat) : Prop
  | failed (broken : after.broken = true) (empty : after.buffered = 0)
  | kept (broken : after.broken = dir.broken) (buf : after.buf = dir.buf)
      (block : after.blockLength ≤ dir.blockLength + added)

theorem frameEffect_onFrame (dir : Http2Direction P) (ftype flags : UInt8) (streamId : UInt32)
    (payload : Bytes) :
    FrameEffect dir (dir.onFrame ftype flags streamId payload).1 payload.length := by
  have step := frameStep_onFrame dir ftype flags streamId payload
  generalize dir.onFrame ftype flags streamId payload = result at step ⊢
  cases step with
  | failed => exact .failed rfl rfl
  | opened _ grown => exact .kept rfl rfl grown
  | decoded block =>
    obtain ⟨hpack, same⟩ := finishBlock_fst { dir with continuation := none } block
    rw [same]
    exact .kept rfl rfl (Nat.zero_le _)
  | announced size closed => exact .kept rfl rfl (Nat.zero_le _)
  | handed items closed => exact .kept rfl rfl (Nat.le_add_right _ _)

theorem buffered_frames_le (fuel : Nat) (dir : Http2Direction P) (working : dir.broken = false)
    (rest : Bytes) : (frames fuel dir rest).1.buffered ≤ rest.length + dir.blockLength := by
  induction fuel generalizing dir rest with
  | zero => exact Nat.le_refl _
  | succ fuel induction =>
    unfold frames
    split
    · exact Nat.le_refl _
    · simp only
      split
      · exact Nat.zero_le _
      · split
        · exact Nat.le_refl _
        · have effect := frameEffect_onFrame dir (rest.getD 3 0) (rest.getD 4 0)
            (streamIdOf ((rest.drop 5).take 4)) ((rest.drop 9).take (frameLength rest))
          simp only [List.length_take, List.length_drop] at effect
          cases effect with
          | failed broken empty =>
            rw [if_pos broken, empty]
            exact Nat.zero_le _
          | kept broken buf block =>
            have goes_on := broken.trans working
            rw [if_neg (by rw [goes_on]; exact Bool.false_ne_true)]
            refine (induction _ goes_on _).trans ?_
            simp only [List.length_drop]
            omega

/-- What is held afterwards was held before or has just been fed. -/
theorem buffered_feed_le (dir : Http2Direction P) (data : Bytes) :
    (dir.feed data).1.buffered ≤ dir.buffered + data.length := by
  unfold feed
  split
  · exact Nat.le_add_right _ _
  · rename_i working
    simp only [Bool.not_eq_true] at working
    simp only
    split
    · refine (buffered_frames_le _ _ working _).trans ?_
      simp only [List.length_append, buffered]
      omega
    · split
      · split
        · refine (buffered_frames_le _ { dir with prefaceDone := true } working _).trans ?_
          simp only [List.length_append, List.length_drop, buffered, blockLength]
          omega
        · exact Nat.zero_le _
      · split
        · simp only [buffered, List.length_append, blockLength]
          omega
        · exact Nat.zero_le _

end Http2Direction

end ApiSensor
