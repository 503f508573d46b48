import ApiSensor.Decoding.Framing
import ApiSensor.Decoding.Utf8
import ApiSensor.Library.Checked
import ApiSensor.Library.Endian

/-!
# gRPC bodies

`grpc.rs`: the fields of a protobuf message behind a gRPC prefix, as the event shows them.  Indices,
slices and additions are checked.
-/

namespace ApiSensor

open Library Library.Checked

structure ProtoField where
  fieldNumber : Nat
  wireType : Nat
  valueStr : Str
  deriving DecidableEq

def readVarintLoop (buf : Bytes) : Nat → Nat → Nat → Nat → Checked (Option (Nat × Nat))
  | 0, _, _, _ => .error .endless
  | fuel + 1, result, shift, i =>
    if buf.length ≤ i ∨ 10 ≤ i then .ok none
    else do
      let byte ← index buf i
      let result := result ||| (byte.toNat % 128) <<< shift % 2 ^ 64
      let i ← add i 1
      if byte &&& 0x80 = 0 then .ok (some (result, i))
      else readVarintLoop buf fuel result (shift + 7) i

/-- A varint at the start of the buffer and its length. -/
def readVarint (buf : Bytes) : Checked (Option (Nat × Nat)) := readVarintLoop buf 11 0 0 0

/-- `char::is_control`. -/
def isControl (c : Char) : Bool := c.toNat < 0x20 || (0x7F ≤ c.toNat && c.toNat < 0xA0)

/-- The test of `decode_grpc_fields` for text. -/
def plainText (text : Str) : Bool := text.all fun c => !isControl c || c == '\n'

/-- `{:0width x}` for a number that fits. -/
def paddedHex (width value : Nat) : Str :=
  (List.range width).reverse.map fun place => Nat.digitChar (value / 16 ^ place % 16)

def hexEncode (data : Bytes) : Str := (data.take 32).flatMap fun byte => paddedHex 2 byte.toNat

def quoted (text : Str) : Str := '"' :: (text.take 128 ++ ['"'])

def renderDelimited (data : Bytes) : Str :=
  match fromUtf8 data with
  | some text => if plainText text then quoted text else str "hex:" ++ hexEncode data
  | none => str "hex:" ++ hexEncode data

/-- The arms for wire types 1 and 5. -/
def fixedValue (proto : Bytes) (width i : Nat) : Checked (Option (Str × Nat)) := do
  let stop ← add i width
  if proto.length < stop then .ok none
  else
    let data ← slice proto i stop
    .ok (some (str "0x" ++ paddedHex (2 * width) (fromLe data), stop))

/-- The value of a field and the position behind it; `none` ends the loop. -/
def protoValue (proto : Bytes) (wireType i : Nat) : Checked (Option (Str × Nat)) :=
  match wireType with
  | 0 => do
      let rest ← sliceFrom proto i
      match ← readVarint rest with
      | none => .ok none
      | some (val, bytes) =>
        let i ← add i bytes
        .ok (some (Nat.toDigits 10 val, i))
  | 1 => fixedValue proto 8 i
  | 2 => do
      let rest ← sliceFrom proto i
      match ← readVarint rest with
      | none => .ok none
      | some (len, lenBytes) =>
        let i ← add i lenBytes
        let data ← slice proto i (min (min (satAdd i len) proto.length) (satAdd i 256))
        .ok (some (renderDelimited data, min (satAdd i len) proto.length))
  | 5 => fixedValue proto 4 i
  | _ => .ok none

/-- One round of the loop. -/
def protoField (proto : Bytes) (i : Nat) : Checked (Option (ProtoField × Nat)) := do
  let rest ← sliceFrom proto i
  match ← readVarint rest with
  | none => .ok none
  | some (tag, tagBytes) =>
    let i ← add i tagBytes
    match ← protoValue proto (tag % 8) i with
    | none => .ok none
    | some (valueStr, i) => .ok (some (⟨tag / 8 % 2 ^ 32, tag % 8, valueStr⟩, i))

def protoLoop (proto : Bytes) : Nat → Nat → List ProtoField → Checked (List ProtoField)
  | 0, _, _ => .error .endless
  | fuel + 1, i, fields =>
    if proto.length ≤ i then .ok fields
    else do
      match ← protoField proto i with
      | none => .ok fields
      | some (field, i) =>
        if 64 ≤ fields.length + 1 then .ok (fields ++ [field])
        else protoLoop proto fuel i (fields ++ [field])

/-- The flag for compression is not looked at. -/
def decodeGrpcFields (buf : Bytes) : Checked (List ProtoField) :=
  if buf.length < 5 then .ok []
  else do
    let _compress ← index buf 0
    let size ← slice buf 1 5
    let stop := min (← add 5 (fromBeBytes size)) buf.length
    if stop ≤ 5 then .ok []
    else
      let proto ← slice buf 5 stop
      protoLoop proto (proto.length + 1) 0 []

/-! ## No fault -/

theorem readVarintLoop_returns (buf : Bytes) (fuel result shift i : Nat) (inside : i ≤ 10)
    (enough : 10 < i + fuel) : Returns (readVarintLoop buf fuel result shift i) fun read =>
      ∀ value stop, read = some (value, stop) → i < stop ∧ stop ≤ buf.length := by
  induction fuel generalizing result shift i with
  | zero => omega
  | succ fuel induction =>
    refine returns_ite.mpr ⟨fun _ => by simp, fun more => ?_⟩
    obtain ⟨here, short⟩ := not_or.mp more
    simp only [returns_bind, returns_index, returns_add]
    refine ⟨buf[i], List.getElem?_eq_getElem (by omega), by omega, ?_⟩
    refine returns_ite.mpr ⟨fun _ => ?_, fun _ => ?_⟩
    · simp only [returns_ok, Option.some.injEq, Prod.mk.injEq]
      rintro _ stop ⟨-, rfl⟩
      omega
    · refine (induction _ _ (i + 1) (by omega) (by omega)).mono fun read later value stop same => ?_
      have bounds := later value stop same
      omega

theorem readVarint_returns (buf : Bytes) : Returns (readVarint buf) fun read =>
    ∀ value stop, read = some (value, stop) → 0 < stop ∧ stop ≤ buf.length :=
  readVarintLoop_returns buf 11 0 0 0 (by omega) (by omega)

section Safety

variable {proto : Bytes} {i : Nat} (inside : i ≤ proto.length)
include inside

/-- A varint read at a position inside the message ends inside the message. -/
theorem readVarint_inside {β : Type} {post : β → Prop} {rest : Option (Nat × Nat) → Checked β}
    (ends : Returns (rest none) post)
    (reads : ∀ value size, 0 < size → i + size ≤ proto.length →
      Returns (rest (some (value, size))) post) :
    Returns (do rest (← readVarint (← sliceFrom proto i))) post := by
  simp only [returns_bind, returns_sliceFrom]
  refine ⟨inside, (readVarint_returns _).mono fun read bounds => ?_⟩
  cases read with
  | none => exact ends
  | some found =>
    obtain ⟨positive, le⟩ := bounds found.1 found.2 rfl
    rw [List.length_drop] at le
    exact reads found.1 found.2 positive (by omega)

variable (addressable : proto.length < 2 ^ 63)
include addressable

theorem fixedValue_returns {width : Nat} (small : width ≤ 8) :
    Returns (fixedValue proto width i) fun read =>
      ∀ value stop, read = some (value, stop) → i ≤ stop ∧ stop ≤ proto.length := by
  unfold fixedValue
  simp only [returns_bind, returns_add]
  refine ⟨by omega, returns_ite.mpr ⟨fun _ => by simp, fun fits => ?_⟩⟩
  simp only [returns_bind, returns_slice, returns_ok, Option.some.injEq, Prod.mk.injEq]
  refine ⟨by omega, ?_⟩
  rintro _ stop ⟨-, rfl⟩
  omega

theorem protoValue_returns (wireType : Nat) : Returns (protoValue proto wireType i) fun read =>
    ∀ value stop, read = some (value, stop) → i ≤ stop ∧ stop ≤ proto.length := by
  unfold protoValue
  split
  · refine readVarint_inside inside (by simp) fun value size _ fits => ?_
    simp only [returns_bind, returns_add, returns_ok, Option.some.injEq, Prod.mk.injEq]
    refine ⟨by omega, ?_⟩
    rintro _ stop ⟨-, rfl⟩
    omega
  · exact fixedValue_returns inside addressable (by omega)
  · refine readVarint_inside inside (by simp) fun len size _ fits => ?_
    simp only [returns_bind, returns_add, returns_slice, returns_ok, Option.some.injEq,
      Prod.mk.injEq, satAdd]
    refine ⟨by omega, by omega, ?_⟩
    rintro _ stop ⟨-, rfl⟩
    omega
  · exact fixedValue_returns inside addressable (by omega)
  · simp

theorem protoField_returns : Returns (protoField proto i) fun read =>
    ∀ field stop, read = some (field, stop) → i < stop ∧ stop ≤ proto.length := by
  refine readVarint_inside inside (by simp) fun tag size positive fits => ?_
  simp only [returns_bind, returns_add]
  refine ⟨by omega, (protoValue_returns fits addressable _).mono fun read bounds => ?_⟩
  cases read with
  | none => simp
  | some found =>
    have := bounds found.1 found.2 rfl
    simp only [returns_ok, Option.some.injEq, Prod.mk.injEq]
    rintro _ stop ⟨-, rfl⟩
    omega

theorem protoLoop_returns (fields : List ProtoField) {fuel : Nat} (enough : proto.length < i + fuel) :
    Returns (protoLoop proto fuel i fields) fun _ => True := by
  induction fuel generalizing i fields with
  | zero => omega
  | succ fuel induction =>
    refine returns_ite.mpr ⟨fun _ => by simp, fun _ => ?_⟩
    refine returns_bind.mpr ((protoField_returns inside addressable).mono fun read bounds => ?_)
    cases read with
    | none => simp
    | some found =>
      have := bounds found.1 found.2 rfl
      refine returns_ite.mpr ⟨fun _ => by simp, fun _ => ?_⟩
      exact induction this.2 _ (by omega)

end Safety

/-- `decode_grpc_fields` returns for every slice. -/
theorem decodeGrpcFields_returns {buf : Bytes} (addressable : buf.length < 2 ^ 63) :
    Returns (decodeGrpcFields buf) fun _ => True := by
  refine returns_ite.mpr ⟨fun _ => by simp, fun long => ?_⟩
  simp only [returns_bind, returns_index, returns_slice, returns_add]
  refine ⟨buf[0], List.getElem?_eq_getElem (by omega), by omega, ?_, ?_⟩
  · have bound := fromBeBytes_lt ((buf.drop 1).take (5 - 1))
    rw [List.length_take, List.length_drop] at bound
    have power : (256 : Nat) ^ min (5 - 1) (buf.length - 1) ≤ 256 ^ 4 :=
      Nat.pow_le_pow_right (by omega) (by omega)
    omega
  refine returns_ite.mpr ⟨fun _ => by simp, fun _ => ?_⟩
  simp only [returns_bind, returns_slice]
  refine ⟨by omega, protoLoop_returns (Nat.zero_le _) ?_ [] (by omega)⟩
  rw [List.length_take, List.length_drop]
  omega

/-! ## Messages -/

/-- Base-128 digits, least significant first; every byte but the last has its high bit set. -/
inductive Leb128 : Bytes → Nat → Prop
  | last {byte : UInt8} (clear : byte &&& 0x80 = 0) : Leb128 [byte] (byte.toNat % 128)
  | more {byte : UInt8} {rest : Bytes} {value : Nat} (continues : byte &&& 0x80 ≠ 0)
      (tail : Leb128 rest value) : Leb128 (byte :: rest) (byte.toNat % 128 + 128 * value)

/-- Any encoding of a 64-bit number that protobuf allows, minimal or not. -/
structure IsVarint (enc : Bytes) (value : Nat) : Prop where
  digits : Leb128 enc value
  short : enc.length ≤ 10
  fits : value < 2 ^ 64

inductive ProtoValue
  | varint (value : Nat)
  | fixed64 (value : Nat)
  | delimited (data : Bytes)
  | fixed32 (value : Nat)

namespace ProtoValue

def wireType : ProtoValue → Nat
  | varint _ => 0
  | fixed64 _ => 1
  | delimited _ => 2
  | fixed32 _ => 5

inductive Encoded : ProtoValue → Bytes → Prop
  | varint {value : Nat} {enc : Bytes} (isVarint : IsVarint enc value) :
      Encoded (.varint value) enc
  | fixed64 {value : Nat} (fits : value < 2 ^ 64) : Encoded (.fixed64 value) (toLe 8 value)
  | delimited {data enc : Bytes} (isVarint : IsVarint enc data.length) :
      Encoded (.delimited data) (enc ++ data)
  | fixed32 {value : Nat} (fits : value < 2 ^ 32) : Encoded (.fixed32 value) (toLe 4 value)

/-- What the decoder makes of a value: only the first 256 bytes of a length-delimited one are
decoded. -/
def shown : ProtoValue → Str
  | varint value => Nat.toDigits 10 value
  | fixed64 value => str "0x" ++ paddedHex 16 value
  | delimited data => renderDelimited (data.take 256)
  | fixed32 value => str "0x" ++ paddedHex 8 value

end ProtoValue

/-- A field of a message: its number and its value. -/
structure ProtoEntry where
  number : Nat
  value : ProtoValue

def ProtoEntry.shown (entry : ProtoEntry) : ProtoField :=
  ⟨entry.number, entry.value.wireType, entry.value.shown⟩

inductive Message : List ProtoEntry → Bytes → Prop
  | nil : Message [] []
  | cons {entry : ProtoEntry} {entries : List ProtoEntry} {tag bytes rest : Bytes}
      (small : entry.number < 2 ^ 29)
      (tagged : IsVarint tag (8 * entry.number + entry.value.wireType))
      (encoded : entry.value.Encoded bytes) (others : Message entries rest) :
      Message (entry :: entries) (tag ++ bytes ++ rest)

/-! ## Reading a message back -/

theorem Leb128.ne_nil {enc : Bytes} {value : Nat} (digits : Leb128 enc value) : enc ≠ [] := by
  cases digits <;> simp

/-- The bits that are set so far stay below the shift, so that the next digit is added to them. -/
theorem or_digit {result shift digit : Nat} (below : result < 2 ^ shift)
    (fits : result + digit * 2 ^ shift < 2 ^ 64) :
    result ||| digit <<< shift % 2 ^ 64 = result + digit * 2 ^ shift := by
  rw [Nat.shiftLeft_eq, Nat.mod_eq_of_lt (by omega), Nat.or_comm, Nat.mul_comm,
    ← Nat.two_pow_add_eq_or_of_lt below, Nat.add_comm]

/-- The head of a suffix is the element at its position. -/
theorem getElem?_of_drop {buf rest : Bytes} {byte : UInt8} {i : Nat}
    (here : buf.drop i = byte :: rest) : buf[i]? = some byte := by
  rw [← List.head?_drop, here, List.head?_cons]

theorem length_of_drop {buf enc tail : Bytes} {i : Nat} (here : buf.drop i = enc ++ tail)
    (nonempty : enc ≠ []) : i + enc.length ≤ buf.length := by
  have lengths := congrArg List.length here
  have positive := List.length_pos_iff.mpr nonempty
  rw [List.length_drop, List.length_append] at lengths
  omega

theorem drop_of_drop {buf enc tail : Bytes} {i : Nat} (here : buf.drop i = enc ++ tail) :
    buf.drop (i + enc.length) = tail := by
  rw [← List.drop_drop, here, List.drop_left]

theorem readVarintLoop_encoded {enc : Bytes} {value : Nat} (digits : Leb128 enc value)
    {buf tail : Bytes} {fuel result shift i : Nat} (here : buf.drop i = enc ++ tail)
    (short : i + enc.length ≤ 10) (enough : 10 < i + fuel) (below : result < 2 ^ shift)
    (fits : result + value * 2 ^ shift < 2 ^ 64) :
    Returns (readVarintLoop buf fuel result shift i)
      (· = some (result + value * 2 ^ shift, i + enc.length)) := by
  induction digits generalizing fuel result shift i with
  | last clear =>
    have inside := length_of_drop here (by simp)
    rw [List.length_singleton] at short inside
    obtain ⟨fuel, rfl⟩ : ∃ more, fuel = more + 1 := ⟨fuel - 1, by omega⟩
    refine returns_ite.mpr ⟨by omega, fun _ => ?_⟩
    simp only [returns_bind, returns_index, returns_add]
    refine ⟨_, getElem?_of_drop here, by omega, ?_⟩
    rw [if_pos clear, returns_ok, or_digit below fits]
    rfl
  | @more byte rest value continues digits induction =>
    have inside := length_of_drop here (by simp)
    rw [List.length_cons] at short inside
    obtain ⟨fuel, rfl⟩ : ∃ more, fuel = more + 1 := ⟨fuel - 1, by omega⟩
    have split : (byte.toNat % 128 + 128 * value) * 2 ^ shift =
        byte.toNat % 128 * 2 ^ shift + value * 2 ^ (shift + 7) := by
      rw [Nat.pow_add, Nat.add_mul, Nat.mul_comm 128 value, Nat.mul_assoc, Nat.mul_comm 128]
    have digit : byte.toNat % 128 * 2 ^ shift ≤ 127 * 2 ^ shift :=
      Nat.mul_le_mul_right _ (by omega)
    refine returns_ite.mpr ⟨by omega, fun _ => ?_⟩
    simp only [returns_bind, returns_index, returns_add]
    refine ⟨_, getElem?_of_drop here, by omega, ?_⟩
    rw [if_neg continues, or_digit below (by omega)]
    have next : buf.drop (i + 1) = rest ++ tail := @drop_of_drop _ [byte] _ _ here
    have grown : result + byte.toNat % 128 * 2 ^ shift < 2 ^ (shift + 7) := by
      rw [Nat.pow_add]
      omega
    refine (induction next (by omega) (by omega) grown (by omega)).mono fun read same => ?_
    rw [same, split, List.length_cons, Nat.add_assoc, Nat.add_right_comm i, Nat.add_assoc i]

/-- Reading a varint of the message at its position. -/
theorem readVarint_at {proto enc tail : Bytes} {i value : Nat} (here : proto.drop i = enc ++ tail)
    (isVarint : IsVarint enc value) {β : Type} {post : β → Prop}
    {rest : Option (Nat × Nat) → Checked β} (reads : Returns (rest (some (value, enc.length))) post) :
    Returns (do rest (← readVarint (← sliceFrom proto i))) post := by
  have inside := length_of_drop here isVarint.digits.ne_nil
  have read : Returns (readVarint (proto.drop i)) (· = some (0 + value * 2 ^ 0, 0 + enc.length)) :=
    readVarintLoop_encoded isVarint.digits here (by simpa using isVarint.short) (by omega)
      (by omega) (by simpa using isVarint.fits)
  simp only [returns_bind, returns_sliceFrom]
  refine ⟨by omega, read.mono fun found same => ?_⟩
  rw [same]
  simpa using reads

theorem fixedValue_encoded {proto tail : Bytes} {width value i : Nat}
    (here : proto.drop i = toLe width value ++ tail) (fits : value < 256 ^ width) (some_ : 0 < width)
    (addressable : proto.length < 2 ^ 63) : Returns (fixedValue proto width i)
      (· = some (str "0x" ++ paddedHex (2 * width) value, i + width)) := by
  have inside := length_of_drop here (by rw [← List.length_pos_iff, length_toLe]; exact some_)
  rw [length_toLe] at inside
  unfold fixedValue
  simp only [returns_bind, returns_add]
  refine ⟨by omega, ?_⟩
  rw [if_neg (by omega)]
  simp only [returns_bind, returns_slice, returns_ok]
  refine ⟨by omega, ?_⟩
  have taken : (toLe width value ++ tail).take width = toLe width value := by
    rw [List.take_left' (length_toLe _ _)]
  rw [here, Nat.add_sub_cancel_left, taken, fromLe_toLe, Nat.mod_eq_of_lt fits]

theorem protoValue_encoded {proto bytes tail : Bytes} {value : ProtoValue} {i : Nat}
    (encoded : value.Encoded bytes) (here : proto.drop i = bytes ++ tail)
    (addressable : proto.length < 2 ^ 63) : Returns (protoValue proto value.wireType i)
      (· = some (value.shown, i + bytes.length)) := by
  cases encoded with
  | varint isVarint =>
    have inside := length_of_drop here isVarint.digits.ne_nil
    refine readVarint_at here isVarint ?_
    simp only [returns_bind, returns_add, returns_ok]
    exact ⟨by omega, rfl⟩
  | fixed64 fits =>
    rw [length_toLe]
    exact fixedValue_encoded here fits (by omega) addressable
  | fixed32 fits =>
    rw [length_toLe]
    exact fixedValue_encoded here fits (by omega) addressable
  | @delimited data enc isVarint =>
    have inside := length_of_drop here (by simp [isVarint.digits.ne_nil])
    rw [List.append_assoc] at here
    rw [List.length_append] at inside
    refine readVarint_at here isVarint ?_
    simp only [returns_bind, returns_add, returns_slice, returns_ok, satAdd]
    refine ⟨by omega, by omega, ?_⟩
    have stop : min (min (min (i + enc.length + data.length) (2 ^ 64 - 1)) proto.length)
        (min (i + enc.length + 256) (2 ^ 64 - 1)) - (i + enc.length) = min 256 data.length := by
      omega
    have next : min (min (i + enc.length + data.length) (2 ^ 64 - 1)) proto.length =
        i + (enc ++ data).length := by
      rw [List.length_append]
      omega
    have taken : (data ++ tail).take (min 256 data.length) = data.take 256 := by
      rw [← List.take_take, List.take_left]
    rw [stop, next, drop_of_drop here, taken, ProtoValue.shown]

theorem protoField_encoded {proto tag bytes tail : Bytes} {entry : ProtoEntry} {i : Nat}
    (small : entry.number < 2 ^ 29)
    (tagged : IsVarint tag (8 * entry.number + entry.value.wireType))
    (encoded : entry.value.Encoded bytes) (here : proto.drop i = tag ++ (bytes ++ tail))
    (addressable : proto.length < 2 ^ 63) : Returns (protoField proto i)
      (· = some (entry.shown, i + tag.length + bytes.length)) := by
  have inside := length_of_drop here tagged.digits.ne_nil
  have wire : entry.value.wireType < 8 := by
    cases entry.value <;> simp [ProtoValue.wireType]
  have low : (8 * entry.number + entry.value.wireType) % 8 = entry.value.wireType := by omega
  have high : (8 * entry.number + entry.value.wireType) / 8 % 2 ^ 32 = entry.number := by omega
  refine readVarint_at here tagged ?_
  simp only [returns_bind, returns_add]
  refine ⟨by omega, ?_⟩
  rw [low]
  refine (protoValue_encoded encoded (drop_of_drop here) addressable).mono fun read same => ?_
  rw [same, returns_ok, high]
  rfl

theorem protoLoop_encoded {entries : List ProtoEntry} {msg proto : Bytes}
    (message : Message entries msg) {fuel i : Nat} {fields : List ProtoField}
    (here : proto.drop i = msg) (few : fields.length + entries.length ≤ 64)
    (inside : i ≤ proto.length) (enough : proto.length < i + fuel)
    (addressable : proto.length < 2 ^ 63) :
    Returns (protoLoop proto fuel i fields) (· = fields ++ entries.map ProtoEntry.shown) := by
  induction message generalizing fuel i fields with
  | nil =>
    obtain ⟨fuel, rfl⟩ : ∃ more, fuel = more + 1 := ⟨fuel - 1, by omega⟩
    refine returns_ite.mpr ⟨fun _ => by simp, fun more => ?_⟩
    exact absurd (List.drop_eq_nil_iff.mp here) more
  | @cons entry entries tag bytes rest small tagged encoded others induction =>
    obtain ⟨fuel, rfl⟩ : ∃ more, fuel = more + 1 := ⟨fuel - 1, by omega⟩
    rw [List.append_assoc] at here
    have positive := List.length_pos_iff.mpr tagged.digits.ne_nil
    have lengths := congrArg List.length here
    simp only [List.length_drop, List.length_append] at lengths
    rw [List.length_cons] at few
    refine returns_ite.mpr ⟨by omega, fun _ => returns_bind.mpr ?_⟩
    refine (protoField_encoded small tagged encoded here addressable).mono fun read same => ?_
    rw [same]
    refine returns_ite.mpr ⟨fun full => ?_, fun _ => ?_⟩
    · have done : entries = [] := List.length_eq_zero_iff.mp (by omega)
      rw [done, returns_ok]
      rfl
    · have count : (fields ++ [entry.shown]).length + entries.length ≤ 64 := by
        rw [List.length_append, List.length_singleton]
        omega
      have left : proto.length < i + tag.length + bytes.length + fuel := by omega
      have later := induction (drop_of_drop (drop_of_drop here)) count (by omega) left
      rwa [List.append_assoc] at later

/-- A message behind an uncompressed prefix. -/
def grpcFrame (msg : Bytes) : Bytes := 0 :: (toBeBytes 4 msg.length ++ msg)

/-- The decoder gives exactly the fields of the message. -/
theorem decodeGrpcFields_framed {entries : List ProtoEntry} {msg : Bytes}
    (message : Message entries msg) (few : entries.length ≤ 64) (short : msg.length < 2 ^ 32) :
    decodeGrpcFields (grpcFrame msg) = .ok (entries.map ProtoEntry.shown) := by
  have size : (grpcFrame msg).length = msg.length + 5 := by
    rw [grpcFrame, List.length_cons, List.length_append, length_toBeBytes]
    omega
  have prefix_ : ((grpcFrame msg).drop 1).take (5 - 1) = toBeBytes 4 msg.length :=
    List.take_left' (length_toBeBytes 4 _)
  have body : (grpcFrame msg).drop 5 = msg := List.drop_left' (length_toBeBytes 4 _)
  have value : fromBeBytes (toBeBytes 4 msg.length) = msg.length := by
    rw [fromBeBytes_toBeBytes]
    exact Nat.mod_eq_of_lt short
  have returned : Returns (decodeGrpcFields (grpcFrame msg)) (· = entries.map ProtoEntry.shown) := by
    refine returns_ite.mpr ⟨by omega, fun _ => ?_⟩
    simp only [returns_bind, returns_index, returns_slice, returns_add]
    rw [prefix_, value, size]
    refine ⟨0, rfl, by omega, by omega, returns_ite.mpr ⟨fun empty => ?_, fun _ => ?_⟩⟩
    · have none_left : msg = [] := List.length_eq_zero_iff.mp (by omega)
      subst none_left
      generalize same : ([] : Bytes) = bytes at message
      cases message with
      | nil => exact returns_ok.mpr rfl
      | cons small tagged =>
        have first := (List.append_eq_nil_iff.mp same.symm).1
        exact absurd (List.append_eq_nil_iff.mp first).1 tagged.digits.ne_nil
    · simp only [returns_bind, returns_slice]
      refine ⟨by omega, ?_⟩
      rw [body, List.take_of_length_le (by omega)]
      exact protoLoop_encoded message rfl (by simpa using few) (Nat.zero_le _) (by omega)
        (by omega)
  obtain ⟨_, same, rfl⟩ := returned
  exact same

/-! ## What is shown of a value -/

/-- A field of the decoder for a field of the message: its number, its wire type, the decimal or
hexadecimal value, and for text the first 128 characters in quotes. -/
def Shows (entry : ProtoEntry) (field : ProtoField) : Prop :=
  field.fieldNumber = entry.number ∧ field.wireType = entry.value.wireType ∧
    match entry.value with
    | .varint value => field.valueStr = Nat.toDigits 10 value
    | .fixed64 value => field.valueStr = str "0x" ++ paddedHex 16 value
    | .fixed32 value => field.valueStr = str "0x" ++ paddedHex 8 value
    | .delimited data =>
      ∀ text, data = utf8 text → plainText text = true → field.valueStr = quoted text

/-- Text of more than 256 bytes has 128 whole characters in its first 256 bytes, with none cut. -/
def ProtoValue.Whole : ProtoValue → Prop
  | .delimited data => ∀ text, data = utf8 text → plainText text = true →
      data.length ≤ 256 ∨ ∃ first, data.take 256 = utf8 first ∧ 128 ≤ first.length
  | _ => True

theorem renderDelimited_utf8 {text : Str} (plain : plainText text = true) :
    renderDelimited (utf8 text) = quoted text := by
  rw [renderDelimited, fromUtf8_utf8]
  exact if_pos plain

theorem quoted_append_eq_iff {first rest : Str} (more : rest ≠ []) :
    quoted first = quoted (first ++ rest) ↔ 128 ≤ first.length := by
  have positive := List.length_pos_iff.mpr more
  constructor
  · intro same
    have lengths := congrArg List.length same
    simp only [quoted, List.length_cons, List.length_append, List.length_take] at lengths
    omega
  · intro long
    rw [quoted, quoted, List.take_append_of_le_length long]

/-- Cutting text at 256 bytes does not change what is shown exactly if the cut leaves it whole. -/
theorem renderDelimited_take_iff {text : Str} (plain : plainText text = true) :
    renderDelimited ((utf8 text).take 256) = quoted text ↔
      (utf8 text).length ≤ 256 ∨ ∃ first, (utf8 text).take 256 = utf8 first ∧ 128 ≤ first.length := by
  by_cases short : (utf8 text).length ≤ 256
  · rw [List.take_of_length_le short]
    exact iff_of_true (renderDelimited_utf8 plain) (.inl short)
  rw [or_iff_right short]
  cases decoded : fromUtf8 ((utf8 text).take 256) with
  | none =>
    have other : renderDelimited ((utf8 text).take 256) ≠ quoted text := by
      rw [renderDelimited, decoded]
      simp [quoted, str]
    refine iff_of_false other ?_
    rintro ⟨first, same, -⟩
    rw [same, fromUtf8_utf8] at decoded
    cases decoded
  | some first =>
    have cut := utf8_of_fromUtf8 decoded
    -- the characters in front of the cut begin the text
    obtain ⟨rest, rfl⟩ : ∃ rest, text = first ++ rest := by
      have whole := fromUtf8_utf8_append first ((utf8 text).drop 256)
      rw [cut, List.take_append_drop, fromUtf8_utf8] at whole
      obtain ⟨rest, -, same⟩ := Option.map_eq_some_iff.mp whole.symm
      exact ⟨rest, same.symm⟩
    have more : rest ≠ [] := by
      rintro rfl
      rw [List.append_nil] at cut short
      have length := congrArg List.length cut
      rw [List.length_take] at length
      omega
    have plain_first : plainText first = true := by
      rw [plainText, List.all_append, Bool.and_eq_true] at plain
      exact plain.1
    rw [← cut, renderDelimited_utf8 plain_first, quoted_append_eq_iff more]
    constructor
    · exact fun long => ⟨first, rfl, long⟩
    · rintro ⟨other, same, long⟩
      have equal : some first = some other := by
        rw [← fromUtf8_utf8, same, fromUtf8_utf8]
      cases equal
      exact long

theorem shows_iff (entry : ProtoEntry) : Shows entry entry.shown ↔ entry.value.Whole := by
  obtain ⟨number, value⟩ := entry
  cases value with
  | delimited data =>
    simp only [Shows, ProtoEntry.shown, ProtoValue.Whole, true_and]
    refine forall_congr' fun text => forall_congr' fun same => forall_congr' fun plain => ?_
    subst same
    exact renderDelimited_take_iff plain
  | _ => simp [Shows, ProtoEntry.shown, ProtoValue.shown, ProtoValue.Whole]

/-- Every message of at most 64 fields is decoded to its fields, exactly if each text in it is short
or is whole at the cut. -/
theorem grpc_fields_recovered_iff {entries : List ProtoEntry} {msg : Bytes}
    (message : Message entries msg) (few : entries.length ≤ 64) (short : msg.length < 2 ^ 32) :
    (∃ fields, decodeGrpcFields (grpcFrame msg) = .ok fields ∧ List.Forall₂ Shows entries fields) ↔
      ∀ entry ∈ entries, entry.value.Whole := by
  rw [decodeGrpcFields_framed message few short]
  simp only [Except.ok.injEq, exists_eq_left', List.forall₂_map_right_iff, List.forall₂_same,
    shows_iff]

/-- A number of one byte. -/
theorem IsVarint.single {byte : UInt8} (ends : byte &&& 0x80 = 0) :
    IsVarint [byte] (byte.toNat % 128) where
  digits := .last ends
  short := by simp
  fits := by omega

/-- A number of two bytes. -/
theorem IsVarint.double {low high : UInt8} (continues : low &&& 0x80 ≠ 0)
    (ends : high &&& 0x80 = 0) :
    IsVarint [low, high] (low.toNat % 128 + 128 * (high.toNat % 128)) where
  digits := .more continues (.last ends)
  short := by simp
  fits := by omega

/-- Field 1 with the number 150 and field 2 with the text `hi`. -/
theorem grpc_fields_recovered_short : ∃ fields,
    decodeGrpcFields (grpcFrame [0x08, 0x96, 0x01, 0x12, 0x02, 0x68, 0x69]) = .ok fields ∧
      List.Forall₂ Shows [⟨1, .varint 150⟩, ⟨2, .delimited (utf8 (str "hi"))⟩] fields := by
  have number : IsVarint [0x96, 0x01] 150 := .double (by decide) (by decide)
  have size : IsVarint [0x02] (utf8 (str "hi")).length := .single (by decide)
  have tag₁ : IsVarint [0x08] (8 * 1 + 0) := .single (by decide)
  have tag₂ : IsVarint [0x12] (8 * 2 + 2) := .single (by decide)
  have text : Message [⟨2, .delimited (utf8 (str "hi"))⟩] [0x12, 0x02, 0x68, 0x69] :=
    @Message.cons ⟨2, .delimited (utf8 (str "hi"))⟩ [] [0x12] ([0x02] ++ utf8 (str "hi")) []
      (by decide) tag₂ (.delimited size) .nil
  have message : Message [⟨1, .varint 150⟩, ⟨2, .delimited (utf8 (str "hi"))⟩]
      [0x08, 0x96, 0x01, 0x12, 0x02, 0x68, 0x69] :=
    @Message.cons ⟨1, .varint 150⟩ _ [0x08] [0x96, 0x01] _ (by decide) tag₁ (.varint number) text
  refine (grpc_fields_recovered_iff message (by decide) (by decide)).mpr ?_
  rw [List.forall_mem_cons, List.forall_mem_singleton]
  exact ⟨trivial, fun _ _ _ => .inl (by decide)⟩

/-- Text of 86 characters of three bytes each. -/
def euros : Str := List.replicate 86 '€'

/-- The cut at 256 bytes falls into a character, and the text is shown as bytes in hexadecimal. -/
theorem grpc_text_cut :
    Message [⟨1, .delimited (utf8 euros)⟩] (0x0A :: 0x82 :: 0x02 :: utf8 euros) ∧
      plainText euros = true ∧ ¬ ∃ fields,
        decodeGrpcFields (grpcFrame (0x0A :: 0x82 :: 0x02 :: utf8 euros)) = .ok fields ∧
          List.Forall₂ Shows [⟨1, .delimited (utf8 euros)⟩] fields := by
  have length : (utf8 euros).length = 258 := by decide +kernel
  have size : IsVarint [0x82, 0x02] (utf8 euros).length := by
    rw [length]
    exact .double (by decide) (by decide)
  have tag : IsVarint [0x0A] (8 * 1 + 2) := .single (by decide)
  have message : Message [⟨1, .delimited (utf8 euros)⟩] (0x0A :: 0x82 :: 0x02 :: utf8 euros) := by
    have single := @Message.cons ⟨1, .delimited (utf8 euros)⟩ [] [0x0A] ([0x82, 0x02] ++ utf8 euros)
      [] (by decide) tag (.delimited size) .nil
    rwa [List.append_nil] at single
  have plain : plainText euros = true := by decide +kernel
  refine ⟨message, plain, ?_⟩
  rintro ⟨fields, decoded, shows⟩
  rw [decodeGrpcFields_framed message (by decide) (by decide +kernel)] at decoded
  cases decoded
  have whole := (shows_iff _).mp (List.forall₂_cons.mp shows).1 euros rfl plain
  obtain short | ⟨first, same, -⟩ := whole
  · exact absurd short (by decide +kernel)
  · have undecodable : fromUtf8 ((utf8 euros).take 256) = none := by decide +kernel
    rw [same, fromUtf8_utf8] at undecodable
    cases undecodable

end ApiSensor
