import ApiSensor.Emit
import ApiSensor.Grpc
import ApiSensor.Stream.Handle

/-!
# Run-time checks of the binary parsers

The parsers once more, at the positions of the source and with the checks that stop a program:
indices and slices have to be in range, additions and subtractions have to stay within 64 bits, and
loops have to end.  No input fails one of them.
-/

namespace ApiSensor.Runtime

open Library Library.Checked

/-! ## HTTP/3 frames -/

def decodeVarint (buf : Bytes) : Checked (Option (Nat × Nat)) :=
  if buf.isEmpty then .ok none
  else do
    let first ← index buf 0
    let len := 2 ^ (first.toNat / 64)
    if buf.length < len then .ok none
    else do
      let rest ← slice buf 1 len
      .ok (some (rest.foldl (fun val byte => val * 256 + byte.toNat) (first.toNat % 64), len))

def parseH3Frame (buf : Bytes) : Checked (Option (H3Frame × Nat)) :=
  attempt (decodeVarint buf) none fun (frameType, typeLen) => do
    let rest ← sliceFrom buf typeLen
    attempt (decodeVarint rest) none fun (payloadLen, lenLen) => do
      let headerLen ← add typeLen lenLen
      let total ← add headerLen payloadLen
      if buf.length < total then .ok none
      else do
        let payload ← slice buf headerLen total
        .ok (some (⟨frameType, payload⟩, total))

def h3FrameLoop (buf : Bytes) : Nat → Nat → Checked (List H3Frame)
  | 0, _ => .error .endless
  | fuel + 1, pos =>
    if pos < buf.length then do
      let rest ← sliceFrom buf pos
      attempt (parseH3Frame rest) [] fun (frame, consumed) =>
        if consumed = 0 then .ok []
        else do
          let frames ← h3FrameLoop buf fuel (← add pos consumed)
          .ok (frame :: frames)
    else .ok []

def parseH3Frames (buf : Bytes) : Checked (List H3Frame) := h3FrameLoop buf (buf.length + 1) 0

/-! ## QPACK -/

def decodePrefixIntLoop (buf : Bytes) : Nat → Nat → Nat → Nat → Checked (Option (Nat × Nat))
  | 0, _, _, _ => .error .endless
  | fuel + 1, val, m, i =>
    if buf.length ≤ i then .ok none
    else do
      let byte ← index buf i
      let val ← add val (byte.toNat % 128 * 2 ^ m)
      let i ← add i 1
      if byte < 0x80 then .ok (some (val, i))
      else if 56 < m + 7 then .ok none
      else decodePrefixIntLoop buf fuel val (m + 7) i

def decodePrefixInt (buf : Bytes) (prefixBits : Nat) : Checked (Option (Nat × Nat)) :=
  if buf.isEmpty then .ok none
  else do
    let first ← index buf 0
    let val := first.toNat % 2 ^ prefixBits
    if val < 2 ^ prefixBits - 1 then .ok (some (val, 1))
    else decodePrefixIntLoop buf 9 val 0 1

def decodeString (buf : Bytes) (prefixBits : Nat) : Checked (Option (Str × Nat)) :=
  attempt (decodePrefixInt buf prefixBits) none fun (len, start) => do
    let stop ← add start len
    if buf.length < stop then .ok none
    else do
      let raw ← slice buf start stop
      .ok (some (fromUtf8Lossy raw, stop))

/-- Decode at a position and go on behind what was consumed. -/
def advance {α β : Type} (decode : Bytes → Checked (Option (α × Nat))) (buf : Bytes) (pos : Nat)
    (absent : β) (next : α → Nat → Checked β) : Checked β := do
  let rest ← sliceFrom buf pos
  attempt (decode rest) absent fun (value, consumed) => do
    let pos ← add pos consumed
    next value pos

/-- One round of the loop of `decode_qpack_headers`, with the next position. -/
def qpackField (P : Platform) (headers : Headers) (buf : Bytes) (pos : Nat) :
    Checked (Option (Headers × Nat)) := do
  let byte ← index buf pos
  if byte &&& 0x80 ≠ 0 then
    advance (decodePrefixInt · 6) buf pos none fun idx pos =>
      let entry := if byte &&& 0x40 ≠ 0 then qpackStaticTable[idx]? else none
      .ok (some (entry.elim headers fun field => headers.insert (str field.1) (str field.2), pos))
  else if byte &&& 0x40 ≠ 0 then
    advance (decodePrefixInt · 4) buf pos none fun idx pos =>
      advance (decodeString · 7) buf pos none fun value pos =>
        let entry := if byte &&& 0x10 ≠ 0 then qpackStaticTable[idx]? else none
        .ok (some (entry.elim headers fun field => headers.insert (str field.1) value, pos))
  else do
    let start ← add pos 1
    if byte &&& 0x20 ≠ 0 then
      advance (decodeString · 3) buf start (some (headers, start)) fun name pos =>
        advance (decodeString · 7) buf pos none fun value pos =>
          .ok (some (headers.insert (P.toLowercase name) value, pos))
    else .ok (some (headers, start))

def qpackLoop (P : Platform) (buf : Bytes) : Nat → Headers → Nat → Checked Headers
  | 0, _, _ => .error .endless
  | fuel + 1, headers, pos =>
    if pos < buf.length then
      attempt (qpackField P headers buf pos) headers fun (headers, pos) =>
        qpackLoop P buf fuel headers pos
    else .ok headers

def decodeQpackHeaders (P : Platform) (buf : Bytes) : Checked Headers :=
  if buf.length < 2 then .ok .empty
  else
    attempt (decodePrefixInt buf 8) .empty fun (_, ricLen) =>
      if buf.length ≤ ricLen then .ok .empty
      else
        advance (decodePrefixInt · 7) buf ricLen .empty fun _ pos =>
          qpackLoop P buf (buf.length + 1) .empty pos

/-- The loop of `extract_h3_headers` over the frames. -/
def h3HeaderSets (P : Platform) : List H3Frame → Checked (List Headers)
  | [] => .ok []
  | frame :: frames => do
      let sets ← h3HeaderSets P frames
      if frame.frameType = h3Headers then do
        let headers ← decodeQpackHeaders P frame.payload
        .ok (if headers.size = 0 then sets else headers :: sets)
      else .ok sets

def extractH3Headers (P : Platform) (buf : Bytes) : Checked (List Headers) := do
  h3HeaderSets P (← parseH3Frames buf)

/-! ## HPACK -/

def readHpackIntLoop (block : Bytes) (pos : Nat) : Nat → Nat → Nat → Nat → Nat →
    Checked (Option (Nat × Nat))
  | 0, _, _, _, _ => .error .endless
  | fuel + 1, result, shift, total, i =>
    if block.length ≤ i then .ok none
    else do
      let byte ← index block i
      let result ← add result (byte.toNat % 128 * 2 ^ shift)
      let i ← add i 1
      if byte < 0x80 then do
        let consumed ← sub i pos
        .ok (some (result, consumed))
      else if 5 ≤ total + 1 then .ok none
      else readHpackIntLoop block pos fuel result (shift + 7) (total + 1) i

def readHpackInt (block : Bytes) (pos prefixBits : Nat) : Checked (Option (Nat × Nat)) :=
  if block.length ≤ pos then .ok none
  else do
    let byte ← index block pos
    let mask := 2 ^ prefixBits - 1
    let val := byte.toNat % 2 ^ prefixBits
    if val < mask then .ok (some (val, 1))
    else do
      let i ← add pos 1
      readHpackIntLoop block pos 4 mask 0 1 i

def skipHpackString (block : Bytes) (pos : Nat) : Checked (Option Nat) :=
  attempt (readHpackInt block pos 7) none fun (strLen, consumed) => do
    let total ← add consumed strLen
    let stop ← add pos total
    .ok (if block.length < stop then none else some total)

/-- Skip an integer of `validate_hpack_block` and go on behind it. -/
def behindHpackInt (block : Bytes) (pos prefixBits : Nat)
    (next : Nat → Nat → Checked (Option Nat)) : Checked (Option Nat) :=
  attempt (readHpackInt block pos prefixBits) none fun (idx, consumed) => do
    let pos ← add pos consumed
    next idx pos

def behindHpackString (block : Bytes) (pos : Nat) : Checked (Option Nat) :=
  attempt (skipHpackString block pos) none fun total => do
    let pos ← add pos total
    .ok (some pos)

/-- The position behind an entry of `validate_hpack_block`. -/
def skipHpackEntry (block : Bytes) (pos : Nat) : Checked (Option Nat) := do
  let byte ← index block pos
  let strings (idx pos : Nat) : Checked (Option Nat) :=
    if idx = 0 then attempt (behindHpackString block pos) none (behindHpackString block)
    else behindHpackString block pos
  if byte &&& 0x80 ≠ 0 then behindHpackInt block pos 7 fun _ pos => .ok (some pos)
  else if byte &&& 0xC0 = 0x40 then behindHpackInt block pos 6 strings
  else if byte &&& 0xE0 = 0x20 then behindHpackInt block pos 5 fun _ pos => .ok (some pos)
  else behindHpackInt block pos 4 strings

def validateHpackLoop (block : Bytes) : Nat → Nat → Checked Bool
  | 0, _ => .error .endless
  | fuel + 1, pos =>
    if pos < block.length then
      attempt (skipHpackEntry block pos) false (validateHpackLoop block fuel)
    else .ok true

def validateHpackBlock (block : Bytes) : Checked Bool :=
  validateHpackLoop block (block.length + 1) 0

/-! ## Frames of HTTP/2 and WebSocket -/

def h2ConnectionFrames (buf : Bytes) : Nat → Bool → Nat → Checked Bool
  | 0, _, _ => .error .endless
  | fuel + 1, saw, i => do
      let start ← add i 9
      if start ≤ buf.length then do
        let len := fromBeBytes [← index buf i, ← index buf (i + 1), ← index buf (i + 2)]
        let ftype ← index buf (i + 3)
        let sid := streamIdOf [← index buf (i + 5), ← index buf (i + 6), ← index buf (i + 7),
          ← index buf (i + 8)]
        if 16384 < len then .ok false
        else do
          let next ← add start len
          if buf.length < next then .ok saw
          else if sid ≠ 0 || !(ftype = 0x04 || ftype = 0x06 || ftype = 0x08) then .ok false
          else h2ConnectionFrames buf fuel true next
      else .ok (saw && i == buf.length)

def looksLikeH2ConnectionFrames (buf : Bytes) : Checked Bool :=
  if buf.length < 9 then .ok false else h2ConnectionFrames buf (buf.length + 1) false 0

def wsLengths (buf : Bytes) (len7 : Nat) : Checked (Option (Nat × Nat)) :=
  if len7 = 126 then
    if buf.length < 4 then .ok none
    else do
      let len := fromBeBytes [← index buf 2, ← index buf 3]
      .ok (some (4, len))
  else if len7 = 127 then
    if buf.length < 10 then .ok none
    else do
      let len ← slice buf 2 10
      .ok (some (10, fromBeBytes len))
  else .ok (some (2, len7))

def maskedPayload (mask : Bytes) : Nat → Bytes → Checked Bytes
  | _, [] => .ok []
  | i, byte :: data => do
      let key ← index mask (i % 4)
      let rest ← maskedPayload mask (i + 1) data
      .ok ((byte ^^^ key) :: rest)

def parseWebsocketFrame (buf : Bytes) : Checked (Option (WsFrame × Nat)) :=
  if buf.length < 2 then .ok none
  else do
    let first ← index buf 0
    let second ← index buf 1
    let masked := second &&& 0x80 != 0
    attempt (wsLengths buf (second.toNat % 128)) none fun (maskStart, payloadLen) => do
      let dataStart ← (if masked then add maskStart 4 else .ok maskStart)
      -- `checked_add`
      if 2 ^ 64 ≤ dataStart + payloadLen then .ok none
      else if buf.length < dataStart then .ok none
      else do
        let available := min (buf.length - dataStart) (min payloadLen 4096)
        let frame (payload : Bytes) : WsFrame × Nat :=
          (⟨first &&& 0x80 != 0, first &&& 0x0F, payloadLen, payload⟩, dataStart + payloadLen)
        let stop ← add dataStart available
        if masked && maskStart + 4 ≤ buf.length then do
          let mask ← slice buf maskStart (maskStart + 4)
          let data ← slice buf dataStart stop
          let payload ← maskedPayload mask 0 data
          .ok (some (frame payload))
        else if stop ≤ buf.length then do
          let data ← slice buf dataStart stop
          .ok (some (frame data))
        else .ok none

/-! ## No parser fails -/

theorem decodeVarint_returns (buf : Bytes) :
    Returns (decodeVarint buf) fun result => ∀ decoded ∈ result,
      decoded.1 < 2 ^ 62 ∧ 1 ≤ decoded.2 ∧ decoded.2 ≤ 8 ∧ decoded.2 ≤ buf.length := by
  cases buf with
  | nil => exact returns_ok.mpr (by simp)
  | cons first rest =>
    have top : first.toNat / 64 ≤ 3 := by have := first.toNat_lt; omega
    have size : 2 ^ (first.toNat / 64) ≤ 2 ^ 3 := Nat.pow_le_pow_right Nat.two_pos top
    have some : 1 ≤ 2 ^ (first.toNat / 64) := Nat.one_le_two_pow
    simp only [decodeVarint, returns_ite, returns_ok, returns_bind, returns_index, returns_slice]
    refine ⟨by simp, fun _ => ⟨first, rfl, by simp, fun long => ?_⟩⟩
    refine ⟨⟨some, Nat.not_lt.mp long⟩, ?_⟩
    rintro _ ⟨⟩
    refine ⟨(foldl_digits_lt _ _).trans_le ?_, some, size, Nat.not_lt.mp long⟩
    refine (Nat.mul_le_mul (show _ ≤ 64 by omega) (Nat.pow_le_pow_right (by decide)
      (show _ ≤ 7 from (List.length_take_le _ _).trans (by omega)))).trans (by decide)

theorem parseH3Frame_returns (buf : Bytes) :
    Returns (parseH3Frame buf) fun result => ∀ parsed ∈ result,
      1 ≤ parsed.2 ∧ parsed.2 ≤ buf.length ∧ parsed.1.payload.length ≤ buf.length := by
  refine (decodeVarint_returns buf).attempt (by simp) fun ⟨_, typeLen⟩ type => ?_
  refine returns_bind.mpr (returns_sliceFrom.mpr ⟨type.2.2.2, ?_⟩)
  refine (decodeVarint_returns _).attempt (by simp) fun ⟨payloadLen, lenLen⟩ length => ?_
  simp only [returns_ite, returns_ok, returns_bind, returns_add, returns_slice]
  refine ⟨by omega, by omega, by simp, fun long => ⟨by omega, ?_⟩⟩
  rintro _ ⟨⟩
  simp only [List.length_take, List.length_drop]
  omega

variable {buf block : Bytes} {pos : Nat}

/-- Frames lie inside the buffer. -/
theorem h3FrameLoop_returns (addressable : buf.length < 2 ^ 63) (fuel pos : Nat)
    (enough : buf.length - pos < fuel) :
    Returns (h3FrameLoop buf fuel pos) fun frames =>
      ∀ frame ∈ frames, frame.payload.length < 2 ^ 63 := by
  induction fuel generalizing pos with
  | zero => omega
  | succ fuel induction =>
    refine returns_ite.mpr ⟨fun inside => ?_, fun _ => returns_ok.mpr (by simp)⟩
    refine returns_bind.mpr (returns_sliceFrom.mpr ⟨inside.le, ?_⟩)
    refine (parseH3Frame_returns _).attempt (by simp) fun ⟨frame, consumed⟩ parsed => ?_
    simp only [List.length_drop] at parsed
    refine returns_ite.mpr ⟨fun _ => returns_ok.mpr (by simp), fun _ => ?_⟩
    refine returns_bind.mpr (returns_add.mpr ⟨by omega, ?_⟩)
    refine (induction (pos + consumed) (by omega)).bind fun frames later => returns_ok.mpr ?_
    exact List.forall_mem_cons.mpr ⟨by omega, later⟩

theorem digit_lt {val m : Nat} (byte : UInt8) (bound : val < 256 + 2 ^ m) :
    val + byte.toNat % 128 * 2 ^ m < 256 + 2 ^ (m + 7) := by
  have digit : byte.toNat % 128 * 2 ^ m ≤ 127 * 2 ^ m := Nat.mul_le_mul_right _ (by omega)
  rw [Nat.pow_add]
  omega

theorem decodePrefixIntLoop_returns (addressable : buf.length < 2 ^ 63) {fuel val m i : Nat}
    (small : m ≤ 56) (room : m + 7 * fuel = 63) (bound : val < 256 + 2 ^ m) :
    Returns (decodePrefixIntLoop buf fuel val m i) fun result => ∀ decoded ∈ result,
      decoded.1 < 256 + 2 ^ 63 ∧ i < decoded.2 ∧ decoded.2 ≤ i + fuel ∧
        decoded.2 ≤ buf.length := by
  induction fuel generalizing val m i with
  | zero => omega
  | succ fuel induction =>
    refine returns_ite.mpr ⟨fun _ => returns_ok.mpr (by simp), fun long => ?_⟩
    refine .index_bind (by omega) fun byte => ?_
    have digit := digit_lt byte bound
    have high : 2 ^ (m + 7) ≤ 2 ^ 63 := Nat.pow_le_pow_right Nat.two_pos (by omega)
    simp only [returns_bind, returns_add, returns_ite, returns_ok]
    refine ⟨by omega, by omega, fun _ => ?_, fun _ => ⟨fun _ => by simp, fun _ => ?_⟩⟩
    · rintro _ ⟨⟩
      omega
    · refine (induction (by omega) (by omega) digit).mono fun _ holds decoded member => ?_
      have := holds decoded member
      omega

theorem decodePrefixInt_returns (addressable : buf.length < 2 ^ 63) (prefixBits : Nat) :
    Returns (decodePrefixInt buf prefixBits) fun result => ∀ decoded ∈ result,
      decoded.1 < 256 + 2 ^ 63 ∧ 1 ≤ decoded.2 ∧ decoded.2 ≤ 10 ∧ decoded.2 ≤ buf.length := by
  cases buf with
  | nil => exact returns_ok.mpr (by simp)
  | cons first rest =>
    have bound : first.toNat % 2 ^ prefixBits < 256 := by
      have := first.toNat_lt
      have := Nat.mod_le first.toNat (2 ^ prefixBits)
      omega
    refine returns_bind.mpr (returns_index.mpr ⟨first, rfl, ?_⟩)
    refine returns_ite.mpr ⟨fun _ => returns_ok.mpr ?_, fun _ => ?_⟩
    · rintro _ ⟨⟩
      simp only [List.length_cons]
      omega
    · refine (decodePrefixIntLoop_returns addressable (by decide) rfl (by omega)).mono
        fun _ holds decoded member => ?_
      have := holds decoded member
      omega

/-- A decoder that takes at least one byte, and only bytes it is given. -/
def Decodes {α : Type} (decode : Bytes → Checked (Option (α × Nat))) : Prop :=
  ∀ buf : Bytes, buf.length < 2 ^ 63 → Returns (decode buf) fun result => ∀ decoded ∈ result,
    1 ≤ decoded.2 ∧ decoded.2 ≤ buf.length

theorem decodes_prefixInt (prefixBits : Nat) : Decodes (decodePrefixInt · prefixBits) :=
  fun _ addressable => (decodePrefixInt_returns addressable prefixBits).mono
    fun _ holds decoded member => ⟨(holds decoded member).2.1, (holds decoded member).2.2.2⟩

theorem decodes_string (prefixBits : Nat) : Decodes (decodeString · prefixBits) := by
  intro buf addressable
  refine (decodePrefixInt_returns addressable prefixBits).attempt (by simp) fun ⟨len, start⟩ _ => ?_
  simp only [returns_bind, returns_add, returns_ite, returns_ok, returns_slice]
  refine ⟨by omega, fun _ => by simp, fun long => ⟨by omega, ?_⟩⟩
  rintro _ ⟨⟩
  omega

theorem Decodes.advance {α β : Type} {decode : Bytes → Checked (Option (α × Nat))} {absent : β}
    {next : α → Nat → Checked β} {post : β → Prop} (decodes : Decodes decode)
    (addressable : buf.length < 2 ^ 63) (inside : pos ≤ buf.length) (none : post absent)
    (later : ∀ value stop, pos < stop → stop ≤ buf.length → Returns (next value stop) post) :
    Returns (advance decode buf pos absent next) post := by
  have shorter : (buf.drop pos).length = buf.length - pos := List.length_drop
  refine returns_bind.mpr (returns_sliceFrom.mpr ⟨inside, ?_⟩)
  refine (decodes _ (by omega)).attempt none fun ⟨value, consumed⟩ bounds => ?_
  refine returns_bind.mpr (returns_add.mpr ⟨by omega, later value _ (by omega) (by omega)⟩)

theorem qpackField_returns (P : Platform) (headers : Headers) (addressable : buf.length < 2 ^ 63)
    (inside : pos < buf.length) :
    Returns (qpackField P headers buf pos) fun result => ∀ next ∈ result,
      pos < next.2 ∧ next.2 ≤ buf.length := by
  have ends : ∀ (headers : Headers) {stop : Nat}, pos < stop → stop ≤ buf.length →
      ∀ next ∈ some (headers, stop), pos < next.2 ∧ next.2 ≤ buf.length := by
    rintro headers stop first last _ ⟨⟩
    exact ⟨first, last⟩
  refine .index_bind inside fun _ => ?_
  refine returns_ite.mpr ⟨fun _ => ?_, fun _ => returns_ite.mpr ⟨fun _ => ?_, fun _ => ?_⟩⟩
  · exact (decodes_prefixInt 6).advance addressable inside.le (by simp)
      fun _ _ first last => returns_ok.mpr (ends _ first last)
  · refine (decodes_prefixInt 4).advance addressable inside.le (by simp) fun _ _ first last => ?_
    exact (decodes_string 7).advance addressable last (by simp)
      fun _ _ second last => returns_ok.mpr (ends _ (first.trans second) last)
  · refine returns_bind.mpr (returns_add.mpr ⟨by omega, ?_⟩)
    refine returns_ite.mpr ⟨fun _ => ?_, fun _ => returns_ok.mpr (ends _ (by omega) inside)⟩
    refine (decodes_string 3).advance addressable inside (ends _ (by omega) inside)
      fun _ _ first last => ?_
    exact (decodes_string 7).advance addressable last (by simp)
      fun _ _ second last => returns_ok.mpr (ends _ (by omega) last)

theorem qpackLoop_returns (P : Platform) (addressable : buf.length < 2 ^ 63) (fuel : Nat)
    (headers : Headers) (pos : Nat) (enough : buf.length - pos < fuel) :
    Returns (qpackLoop P buf fuel headers pos) fun _ => True := by
  induction fuel generalizing headers pos with
  | zero => omega
  | succ fuel induction =>
    refine returns_ite.mpr ⟨fun inside => ?_, fun _ => returns_ok.mpr trivial⟩
    exact (qpackField_returns P headers addressable inside).attempt trivial
      fun next bounds => induction next.1 next.2 (by omega)

theorem decodeQpackHeaders_returns (P : Platform) (addressable : buf.length < 2 ^ 63) :
    Returns (decodeQpackHeaders P buf) fun _ => True := by
  refine returns_ite.mpr ⟨fun _ => returns_ok.mpr trivial, fun _ => ?_⟩
  refine (decodes_prefixInt 8 _ addressable).attempt trivial fun ⟨_, ricLen⟩ bounds => ?_
  refine returns_ite.mpr ⟨fun _ => returns_ok.mpr trivial, fun _ => ?_⟩
  exact (decodes_prefixInt 7).advance addressable bounds.2 trivial
    fun _ _ _ _ => qpackLoop_returns P addressable _ _ _ (by omega)

theorem extractH3Headers_returns (P : Platform) (addressable : buf.length < 2 ^ 63) :
    Returns (extractH3Headers P buf) fun _ => True := by
  refine (h3FrameLoop_returns addressable _ 0 (by omega)).bind fun frames short => ?_
  induction frames with
  | nil => exact returns_ok.mpr trivial
  | cons frame frames induction =>
    obtain ⟨first, rest⟩ := List.forall_mem_cons.mp short
    refine (induction rest).bind fun _ _ => ?_
    refine returns_ite.mpr ⟨fun _ => ?_, fun _ => returns_ok.mpr trivial⟩
    exact (decodeQpackHeaders_returns P first).bind fun _ _ => returns_ok.mpr trivial

/-! ### HPACK -/

theorem readHpackIntLoop_returns (addressable : block.length < 2 ^ 63)
    {fuel result shift total i : Nat} (room : total + fuel = 5) (some : total ≤ 4)
    (width : shift + 7 = 7 * total) (bound : result < 256 + 2 ^ shift) (behind : pos < i) :
    Returns (readHpackIntLoop block pos fuel result shift total i) fun result =>
      ∀ decoded ∈ result, decoded.1 < 2 ^ 32 ∧ 1 ≤ decoded.2 ∧ pos + decoded.2 ≤ block.length := by
  induction fuel generalizing result shift total i with
  | zero => omega
  | succ fuel induction =>
    refine returns_ite.mpr ⟨fun _ => returns_ok.mpr (by simp), fun long => ?_⟩
    refine .index_bind (by omega) fun byte => ?_
    have digit := digit_lt byte bound
    have high : 2 ^ (shift + 7) ≤ 2 ^ 28 := Nat.pow_le_pow_right Nat.two_pos (by omega)
    simp only [returns_bind, returns_add, returns_sub, returns_ite, returns_ok]
    refine ⟨by omega, by omega, fun _ => ⟨by omega, ?_⟩, fun _ => ⟨fun _ => by simp, fun _ => ?_⟩⟩
    · rintro _ ⟨⟩
      omega
    · exact induction (by omega) (by omega) (by omega) digit (by omega)

theorem readHpackInt_returns (addressable : block.length < 2 ^ 63) {prefixBits : Nat}
    (narrow : prefixBits ≤ 7) (pos : Nat) :
    Returns (readHpackInt block pos prefixBits) fun result => ∀ decoded ∈ result,
      decoded.1 < 2 ^ 32 ∧ 1 ≤ decoded.2 ∧ pos + decoded.2 ≤ block.length := by
  have mask : 2 ^ prefixBits ≤ 2 ^ 7 := Nat.pow_le_pow_right Nat.two_pos narrow
  refine returns_ite.mpr ⟨fun _ => returns_ok.mpr (by simp), fun long => ?_⟩
  refine .index_bind (by omega) fun _ => ?_
  refine returns_ite.mpr ⟨fun _ => returns_ok.mpr ?_, fun _ => ?_⟩
  · rintro _ ⟨⟩
    omega
  · refine returns_bind.mpr (returns_add.mpr ⟨by omega, ?_⟩)
    exact readHpackIntLoop_returns addressable rfl (by decide) rfl (by omega) (by omega)

theorem skipHpackString_returns (addressable : block.length < 2 ^ 63) (pos : Nat) :
    Returns (skipHpackString block pos) fun result => ∀ total ∈ result,
      1 ≤ total ∧ pos + total ≤ block.length := by
  refine (readHpackInt_returns addressable (by decide) pos).attempt (by simp) fun ⟨_, _⟩ _ => ?_
  simp only [returns_bind, returns_add, returns_ok]
  refine ⟨by omega, by omega, fun total member => ?_⟩
  split at member <;> cases member
  omega

/-- A position behind the given one, inside the block. -/
def Behind (block : Bytes) (pos : Nat) (result : Option Nat) : Prop :=
  ∀ next ∈ result, pos < next ∧ next ≤ block.length

section

variable (addressable : block.length < 2 ^ 63)
include addressable

theorem behindHpackString_returns (pos : Nat) :
    Returns (behindHpackString block pos) (Behind block pos) := by
  refine (skipHpackString_returns addressable pos).attempt (by simp [Behind]) fun total bounds => ?_
  refine returns_bind.mpr (returns_add.mpr ⟨by omega, returns_ok.mpr ?_⟩)
  rintro _ ⟨⟩
  omega

theorem behindHpackInt_returns {prefixBits : Nat} (narrow : prefixBits ≤ 7)
    {next : Nat → Nat → Checked (Option Nat)}
    (later : ∀ idx stop, pos < stop → stop ≤ block.length →
      Returns (next idx stop) (Behind block pos)) :
    Returns (behindHpackInt block pos prefixBits next) (Behind block pos) := by
  refine (readHpackInt_returns addressable narrow pos).attempt (by simp [Behind])
    fun ⟨idx, consumed⟩ bounds => ?_
  exact returns_bind.mpr (returns_add.mpr ⟨by omega, later idx _ (by omega) bounds.2.2⟩)

theorem skipHpackEntry_returns (inside : pos < block.length) :
    Returns (skipHpackEntry block pos) (Behind block pos) := by
  have ends : ∀ idx stop : Nat, pos < stop → stop ≤ block.length →
      Returns (.ok (some stop)) (Behind block pos) := by
    refine fun _ stop first last => returns_ok.mpr ?_
    rintro _ ⟨⟩
    exact ⟨first, last⟩
  have string : ∀ start, pos < start →
      Returns (behindHpackString block start) (Behind block pos) := fun start first =>
    (behindHpackString_returns addressable start).mono fun _ behind next member =>
      ⟨first.trans (behind next member).1, (behind next member).2⟩
  have strings : ∀ idx stop : Nat, pos < stop → stop ≤ block.length →
      Returns (if idx = 0 then attempt (behindHpackString block stop) none (behindHpackString block)
        else behindHpackString block stop) (Behind block pos) := fun idx stop first _ =>
    returns_ite.mpr ⟨fun _ => (string stop first).attempt (by simp [Behind])
      fun next bounds => string next bounds.1, fun _ => string stop first⟩
  refine .index_bind inside fun _ => ?_
  refine returns_ite.mpr ⟨fun _ => behindHpackInt_returns addressable (by decide) ends, fun _ => ?_⟩
  refine returns_ite.mpr ⟨fun _ => behindHpackInt_returns addressable (by decide) strings,
    fun _ => ?_⟩
  exact returns_ite.mpr ⟨fun _ => behindHpackInt_returns addressable (by decide) ends,
    fun _ => behindHpackInt_returns addressable (by decide) strings⟩

theorem validateHpackBlock_returns :
    Returns (validateHpackBlock block) fun _ => True := by
  have loop : ∀ fuel pos, block.length - pos < fuel →
      Returns (validateHpackLoop block fuel pos) fun _ => True := by
    intro fuel
    induction fuel with
    | zero => omega
    | succ fuel induction =>
      refine fun pos enough => returns_ite.mpr ⟨fun inside => ?_, fun _ => returns_ok.mpr trivial⟩
      exact (skipHpackEntry_returns addressable inside).attempt trivial
        fun next bounds => induction next (by omega)
  exact loop _ 0 (by omega)

end

/-! ### Frames -/

theorem looksLikeH2ConnectionFrames_returns (addressable : buf.length < 2 ^ 63) :
    Returns (looksLikeH2ConnectionFrames buf) fun _ => True := by
  have loop : ∀ fuel saw i, i ≤ buf.length → buf.length - i < fuel →
      Returns (h2ConnectionFrames buf fuel saw i) fun _ => True := by
    intro fuel
    induction fuel with
    | zero => omega
    | succ fuel induction =>
      intro saw i before enough
      refine returns_bind.mpr (returns_add.mpr ⟨by omega, ?_⟩)
      refine returns_ite.mpr ⟨fun inside => ?_, fun _ => returns_ok.mpr trivial⟩
      refine .index_bind (by omega) fun high => .index_bind (by omega) fun middle =>
        .index_bind (by omega) fun low => .index_bind (by omega) fun ftype =>
        .index_bind (by omega) fun _ => .index_bind (by omega) fun _ =>
        .index_bind (by omega) fun _ => .index_bind (by omega) fun _ => ?_
      refine returns_ite.mpr ⟨fun _ => returns_ok.mpr trivial, fun small => ?_⟩
      refine returns_bind.mpr (returns_add.mpr ⟨by omega, ?_⟩)
      refine returns_ite.mpr ⟨fun _ => returns_ok.mpr trivial, fun fits => ?_⟩
      refine returns_ite.mpr ⟨fun _ => returns_ok.mpr trivial, fun _ => ?_⟩
      exact induction true _ (by omega) (by omega)
  exact returns_ite.mpr ⟨fun _ => returns_ok.mpr trivial,
    fun _ => loop _ _ 0 (Nat.zero_le _) (by omega)⟩

theorem maskedPayload_returns {mask : Bytes} (four : mask.length = 4) (i : Nat) (data : Bytes) :
    Returns (maskedPayload mask i data) fun _ => True := by
  induction data generalizing i with
  | nil => exact returns_ok.mpr trivial
  | cons byte data induction =>
    have inside : i % 4 < mask.length := by omega
    refine .index_bind inside fun _ => ?_
    exact (induction (i + 1)).bind fun _ _ => returns_ok.mpr trivial

theorem parseWebsocketFrame_returns (addressable : buf.length < 2 ^ 63) :
    Returns (parseWebsocketFrame buf) fun _ => True := by
  have lengths : ∀ len7, Returns (wsLengths buf len7) fun result => ∀ header ∈ result,
      header.1 ≤ 10 := by
    intro len7
    refine returns_ite.mpr ⟨fun _ => returns_ite.mpr ⟨fun _ => returns_ok.mpr (by simp),
      fun long => ?_⟩, fun _ => returns_ite.mpr ⟨fun _ => returns_ite.mpr
        ⟨fun _ => returns_ok.mpr (by simp), fun long => ?_⟩, fun _ => returns_ok.mpr (by simp)⟩⟩
    · exact .index_bind (by omega) fun _ => .index_bind (by omega) fun _ => returns_ok.mpr (by simp)
    · exact returns_bind.mpr (returns_slice.mpr ⟨⟨by omega, by omega⟩, returns_ok.mpr (by simp)⟩)
  refine returns_ite.mpr ⟨fun _ => returns_ok.mpr trivial, fun long => ?_⟩
  refine .index_bind (by omega) fun first => .index_bind (by omega) fun second => ?_
  refine (lengths _).attempt trivial fun ⟨maskStart, payloadLen⟩ short => ?_
  have start : Returns (if second &&& 0x80 != 0 then add maskStart 4 else .ok maskStart)
      fun dataStart => dataStart ≤ 14 := by
    refine returns_ite.mpr ⟨fun _ => returns_add.mpr ⟨?_, ?_⟩, fun _ => returns_ok.mpr ?_⟩
    all_goals omega
  refine start.bind fun dataStart near => ?_
  refine returns_ite.mpr ⟨fun _ => returns_ok.mpr trivial, fun _ => ?_⟩
  refine returns_ite.mpr ⟨fun _ => returns_ok.mpr trivial, fun fits => ?_⟩
  refine returns_bind.mpr (returns_add.mpr ⟨by omega, ?_⟩)
  refine returns_ite.mpr ⟨fun masked => ?_, fun _ => returns_ite.mpr
    ⟨fun inside => ?_, fun _ => returns_ok.mpr trivial⟩⟩
  · simp only [Bool.and_eq_true, decide_eq_true_eq] at masked
    refine returns_bind.mpr (returns_slice.mpr ⟨⟨by omega, masked.2⟩, ?_⟩)
    refine returns_bind.mpr (returns_slice.mpr ⟨⟨by omega, by omega⟩, ?_⟩)
    refine (maskedPayload_returns ?_ _ _).bind fun _ _ => returns_ok.mpr trivial
    simp only [List.length_take, List.length_drop]
    omega
  · exact returns_bind.mpr (returns_slice.mpr ⟨⟨by omega, inside⟩, returns_ok.mpr trivial⟩)

/-- No bytes crash or hang a parser: every index and slice is in range, no sum or difference leaves
the 64-bit range, and every loop ends. -/
theorem parsers_return (P : Platform) {buf : Bytes} (addressable : buf.length < 2 ^ 63) :
    Returns (RawHeader.fromBytes buf) (fun _ => True) ∧
    Returns (looksLikeH2ConnectionFrames buf) (fun _ => True) ∧
    Returns (validateHpackBlock buf) (fun _ => True) ∧
    Returns (parseH3Frames buf) (fun _ => True) ∧
    Returns (decodeQpackHeaders P buf) (fun _ => True) ∧
    Returns (extractH3Headers P buf) (fun _ => True) ∧
    Returns (parseWebsocketFrame buf) (fun _ => True) ∧
    Returns (decodeGrpcFields buf) (fun _ => True) :=
  ⟨RawHeader.fromBytes_returns buf addressable, looksLikeH2ConnectionFrames_returns addressable,
    validateHpackBlock_returns addressable,
    (h3FrameLoop_returns addressable _ 0 (by omega)).mono fun _ _ => trivial,
    decodeQpackHeaders_returns P addressable, extractH3Headers_returns P addressable,
    parseWebsocketFrame_returns addressable, decodeGrpcFields_returns addressable⟩

/-- A masked WebSocket frame that announces the largest 64-bit length. -/
def hugeFrame : Bytes := [0x82, 0xFF] ++ List.replicate 8 0xFF ++ [1, 2, 3, 4, 5]

theorem parsers_return_hugeFrame : hugeFrame.length < 2 ^ 63 ∧
    (Returns (RawHeader.fromBytes hugeFrame) (fun _ => True) ∧
    Returns (looksLikeH2ConnectionFrames hugeFrame) (fun _ => True) ∧
    Returns (validateHpackBlock hugeFrame) (fun _ => True) ∧
    Returns (parseH3Frames hugeFrame) (fun _ => True) ∧
    Returns (decodeQpackHeaders asciiPlatform hugeFrame) (fun _ => True) ∧
    Returns (extractH3Headers asciiPlatform hugeFrame) (fun _ => True) ∧
    Returns (parseWebsocketFrame hugeFrame) (fun _ => True) ∧
    Returns (decodeGrpcFields hugeFrame) (fun _ => True)) :=
  ⟨by decide, parsers_return asciiPlatform (by decide)⟩

end ApiSensor.Runtime
