import ApiSensor.Kernel
import ApiSensor.Library.Checked
import ApiSensor.Library.Endian

/-!
# Records of the ring buffer

The two ways in which `emit_event` writes a record, and `TlsEventHeader::from_bytes`, which reads
it.  The maps of the probes are unbounded.
-/

namespace ApiSensor

open Library Library.Checked

/-- All fields of `tls_event_hdr`; the padding is zero. -/
structure RawHeader extends TlsEventHeader where
  tsNs : UInt64
  tid : UInt32
  dataLen : UInt32
  comm : Bytes
  abiVersion : UInt16
  attribution : UInt8
  sockCookie : UInt64
  deriving DecidableEq

namespace RawHeader

/-- `HEADER_SIZE`. -/
def size : Nat := 144

/-- The header in memory: fields in their order, without gaps. -/
def encode (hdr : RawHeader) : Bytes :=
  toLe 8 hdr.tsNs.toNat ++ (toLe 4 hdr.pid.toNat ++ (toLe 4 hdr.tid.toNat ++
    (toLe 8 hdr.sslPtr.toNat ++ (toLe 4 hdr.dataLen.toNat ++ (toLe 1 hdr.direction.toNat ++
    (toLe 1 hdr.ipFamily.toNat ++ (toLe 2 0 ++ (hdr.comm ++ (toLe 8 hdr.cgroupId.toNat ++
    (toLe 4 hdr.netnsIno.toNat ++ (toLe 2 hdr.srcPort.toNat ++ (toLe 2 hdr.dstPort.toNat ++
    (toLe 4 hdr.srcIp4.toNat ++ (toLe 4 hdr.dstIp4.toNat ++ (hdr.srcIp6 ++ (hdr.dstIp6 ++
    (toLe 2 hdr.abiVersion.toNat ++ (toLe 2 hdr.flags.toNat ++ (toLe 4 hdr.actualLen.toNat ++
    (toLe 4 hdr.copiedLen.toNat ++ (toLe 4 hdr.connGeneration.toNat ++
    (toLe 8 hdr.procStartNs.toNat ++ (toLe 4 hdr.dirSeq.toNat ++ (toLe 1 hdr.attribution.toNat ++
    (toLe 1 hdr.providerId.toNat ++ (toLe 1 hdr.roleHint.toNat ++ (toLe 1 0 ++
    toLe 8 hdr.sockCookie.toNat)))))))))))))))))))))))))))

def takeInt (width : Nat) (data : Bytes) : Nat × Bytes :=
  (fromLe (data.take width), data.drop width)

/-- `read_unaligned` at the start of the data. -/
def decode (data : Bytes) : RawHeader :=
  let (tsNs, data) := takeInt 8 data
  let (pid, data) := takeInt 4 data
  let (tid, data) := takeInt 4 data
  let (sslPtr, data) := takeInt 8 data
  let (dataLen, data) := takeInt 4 data
  let (direction, data) := takeInt 1 data
  let (ipFamily, data) := takeInt 1 data
  let (_, data) := takeInt 2 data
  let (comm, data) := data.splitAt 16
  let (cgroupId, data) := takeInt 8 data
  let (netnsIno, data) := takeInt 4 data
  let (srcPort, data) := takeInt 2 data
  let (dstPort, data) := takeInt 2 data
  let (srcIp4, data) := takeInt 4 data
  let (dstIp4, data) := takeInt 4 data
  let (srcIp6, data) := data.splitAt 16
  let (dstIp6, data) := data.splitAt 16
  let (abiVersion, data) := takeInt 2 data
  let (flags, data) := takeInt 2 data
  let (actualLen, data) := takeInt 4 data
  let (copiedLen, data) := takeInt 4 data
  let (connGeneration, data) := takeInt 4 data
  let (procStartNs, data) := takeInt 8 data
  let (dirSeq, data) := takeInt 4 data
  let (attribution, data) := takeInt 1 data
  let (providerId, data) := takeInt 1 data
  let (roleHint, data) := takeInt 1 data
  let (_, data) := takeInt 1 data
  let (sockCookie, _) := takeInt 8 data
  { tsNs := .ofNat tsNs, pid := .ofNat pid, tid := .ofNat tid, sslPtr := .ofNat sslPtr
    dataLen := .ofNat dataLen, direction := .ofNat direction, ipFamily := .ofNat ipFamily, comm
    cgroupId := .ofNat cgroupId, netnsIno := .ofNat netnsIno, srcPort := .ofNat srcPort
    dstPort := .ofNat dstPort, srcIp4 := .ofNat srcIp4, dstIp4 := .ofNat dstIp4, srcIp6, dstIp6
    abiVersion := .ofNat abiVersion, flags := .ofNat flags, actualLen := .ofNat actualLen
    copiedLen := .ofNat copiedLen, connGeneration := .ofNat connGeneration
    procStartNs := .ofNat procStartNs, dirSeq := .ofNat dirSeq, attribution := .ofNat attribution
    providerId := .ofNat providerId, roleHint := .ofNat roleHint
    sockCookie := .ofNat sockCookie }

/-- `TlsEventHeader::from_bytes`. -/
def fromBytes (data : Bytes) : Checked (Option (RawHeader × Bytes)) :=
  if data.length < size then .ok none
  else do
    let hdr := decode data
    let reported := if 0 < hdr.copiedLen then hdr.copiedLen else hdr.dataLen
    let dataLen := min reported.toNat (data.length - size)
    let payload ← slice data size (← add size dataLen)
    .ok (some (hdr, payload))

/-! ## Reading a record back -/

/-- The arrays have their sizes. -/
structure Sized (hdr : RawHeader) : Prop where
  comm : hdr.comm.length = 16
  srcIp6 : hdr.srcIp6.length = 16
  dstIp6 : hdr.dstIp6.length = 16

variable {hdr : RawHeader}

theorem length_encode (sized : hdr.Sized) : hdr.encode.length = size := by
  simp only [encode, List.length_append, length_toLe, sized.comm, sized.srcIp6, sized.dstIp6]
  rfl

theorem takeInt_toLe (width value : Nat) (rest : Bytes) :
    takeInt width (toLe width value ++ rest) = (value % 256 ^ width, rest) := by
  rw [takeInt, List.take_left' (length_toLe _ _), List.drop_left' (length_toLe _ _), fromLe_toLe]

theorem splitAt_append {array rest : Bytes} (size : array.length = 16) :
    (array ++ rest).splitAt 16 = (array, rest) := by
  rw [List.splitAt_eq, List.take_left' size, List.drop_left' size]

theorem ofNat_mod_8 (value : UInt64) : UInt64.ofNat (value.toNat % 256 ^ 8) = value := by
  have small : value.toNat % 256 ^ 8 = value.toNat := Nat.mod_eq_of_lt value.toNat_lt
  rw [small, UInt64.ofNat_toNat]

theorem ofNat_mod_4 (value : UInt32) : UInt32.ofNat (value.toNat % 256 ^ 4) = value := by
  have small : value.toNat % 256 ^ 4 = value.toNat := Nat.mod_eq_of_lt value.toNat_lt
  rw [small, UInt32.ofNat_toNat]

theorem ofNat_mod_2 (value : UInt16) : UInt16.ofNat (value.toNat % 256 ^ 2) = value := by
  have small : value.toNat % 256 ^ 2 = value.toNat := Nat.mod_eq_of_lt value.toNat_lt
  rw [small, UInt16.ofNat_toNat]

theorem ofNat_mod_1 (value : UInt8) : UInt8.ofNat (value.toNat % 256 ^ 1) = value := by
  have small : value.toNat % 256 ^ 1 = value.toNat := Nat.mod_eq_of_lt value.toNat_lt
  rw [small, UInt8.ofNat_toNat]

theorem decode_encode (sized : hdr.Sized) (rest : Bytes) :
    decode (hdr.encode ++ rest) = hdr := by
  simp only [encode, decode, List.append_assoc, takeInt_toLe, splitAt_append sized.comm,
    splitAt_append sized.srcIp6, splitAt_append sized.dstIp6, ofNat_mod_8, ofNat_mod_4,
    ofNat_mod_2, ofNat_mod_1]

/-- `from_bytes` gives header and payload of a record, whatever stands behind the payload. -/
theorem fromBytes_record (sized : hdr.Sized) {payload : Bytes}
    (copied : hdr.copiedLen.toNat = payload.length) (same : hdr.dataLen = hdr.copiedLen)
    (stale : Bytes) : fromBytes (hdr.encode ++ (payload ++ stale)) = .ok (some (hdr, payload)) := by
  have head := length_encode sized
  have short : ¬ (hdr.encode ++ (payload ++ stale)).length < size := by simp [head]
  have bound := hdr.copiedLen.toNat_lt
  rw [fromBytes, if_neg short, decode_encode sized]
  have fits : min payload.length ((hdr.encode ++ (payload ++ stale)).length - size) =
      payload.length := by simp [head]
  have small : size + payload.length < 2 ^ 64 := by simp only [size]; omega
  have inside : size ≤ size + payload.length ∧
      size + payload.length ≤ (hdr.encode ++ (payload ++ stale)).length := by simp [head]
  simp only [same, ite_self, copied, fits, add, if_pos small, slice, bind, Except.bind, if_pos inside,
    List.drop_left' head, Nat.add_sub_cancel_left, List.take_left' rfl]

/-- `from_bytes` reads no byte outside the data. -/
theorem fromBytes_returns (data : Bytes) (addressable : data.length < 2 ^ 63) :
    Returns (fromBytes data) fun _ => True := by
  simp only [fromBytes, returns_ite, returns_ok, returns_bind, returns_add, returns_slice]
  refine ⟨fun _ => trivial, fun long => ?_⟩
  have head : size = 144 := rfl
  refine ⟨?_, ⟨?_, ?_⟩, trivial⟩ <;> omega

end RawHeader

/-! ## The probes -/

/-- `conn_info`. -/
structure ConnInfo where
  family : UInt16
  srcPort : UInt16
  dstPort : UInt16
  role : UInt8
  srcIp4 : UInt32
  dstIp4 : UInt32
  srcIp6 : Vector UInt8 16
  dstIp6 : Vector UInt8 16
  sockIno : UInt64

/-- What the helpers and maps answer while a probe runs.  A reserved record holds whatever the ring
had there. -/
structure Probe where
  task : Task
  ktimeNs : UInt64
  comm : Vector UInt8 16
  cgroupId : UInt64
  netnsIno : UInt32
  sslPtrToConn : Dict SslKey ConnInfo
  activeConnections : Dict UInt64 ConnInfo
  shouldSampleOut : Bytes → Bool
  memory : UInt64 → Option UInt8
  reserve : (size : Nat) → Option (Vector UInt8 size)
  dynptrData : Bool
  dynptrWrite : Bool

namespace Probe

def maxData : UInt32 := 32768

/-- The length that both paths copy. -/
def readLen (len : UInt32) : UInt32 := if maxData ≤ len then maxData - 1 else len

/-- `bpf_probe_read_user`, which copies all bytes or fails. -/
def probeRead (probe : Probe) (buf : UInt64) : Nat → Option Bytes
  | 0 => some []
  | len + 1 => do
      let byte ← probe.memory buf
      let rest ← probe.probeRead (buf + 1) len
      some (byte :: rest)

/-- The sample of a faulting read is zero. -/
def sampledOut (probe : Probe) (buf : UInt64) (readLen : UInt32) : Bool :=
  let sampleLen := min readLen.toNat 64
  0 < readLen &&
    probe.shouldSampleOut ((probe.probeRead buf sampleLen).getD (List.replicate sampleLen 0))

/-- The connection of the object with its attribution and flag, else the one of the thread. -/
def connInfo (probe : Probe) (sslPtr : UInt64) : Option ConnInfo × UInt8 × UInt16 :=
  match probe.sslPtrToConn.get? (sslKeyFor probe.task sslPtr) with
  | some info => (some info, 1, 2)
  | none =>
    match probe.activeConnections.get? probe.task.pidTgid with
    | some info => (some info, 2, 4)
    | none => (none, 0, 0)

def fillEventHdr (probe : Probe) (sslPtr : UInt64) (actualLen copyLen : UInt32)
    (direction provider : UInt8) (generation seq : UInt32) : RawHeader :=
  let (info, attribution, flag) := probe.connInfo sslPtr
  let v6 := info.filter (·.family = 10)
  let v4 := info.filter (·.family = 2)
  { tsNs := probe.ktimeNs, pid := tgidOf probe.task.pidTgid, tid := probe.task.pidTgid.toUInt32
    sslPtr, dataLen := copyLen, direction
    ipFamily := if v6.isSome then 6 else if v4.isSome then 4 else 0
    comm := probe.comm.toList, cgroupId := probe.cgroupId, netnsIno := probe.netnsIno
    srcPort := info.elim 0 (·.srcPort), dstPort := info.elim 0 (·.dstPort)
    srcIp4 := v4.elim 0 (·.srcIp4), dstIp4 := v4.elim 0 (·.dstIp4)
    srcIp6 := (v6.elim (.replicate 16 0) (·.srcIp6)).toList
    dstIp6 := (v6.elim (.replicate 16 0) (·.dstIp6)).toList
    abiVersion := 2, flags := (if copyLen < actualLen then 1 else 0) ||| flag, actualLen
    copiedLen := copyLen, connGeneration := generation, procStartNs := probe.task.procStartNs
    dirSeq := seq, attribution, providerId := provider, roleHint := info.elim 0 (·.role)
    sockCookie := info.elim 0 (·.sockIno) }

/-- Writes into a reserved record, whose size stays. -/
def overwrite (slot : Bytes) (offset : Nat) (data : Bytes) : Bytes :=
  (slot.take offset ++ (data ++ slot.drop (offset + data.length))).take slot.length

/-- Header and payload in a reserved record; without payload nothing is copied. -/
def fill (probe : Probe) (slot : Bytes) (hdr : RawHeader) (buf : UInt64) (readLen : UInt32) :
    Option Bytes :=
  let record := overwrite slot 0 hdr.encode
  if 0 < readLen then do
    let data ← probe.probeRead buf (readLen &&& (maxData - 1)).toNat
    some (overwrite record RawHeader.size data)
  else some record

def emitEventDynptr (probe : Probe) (kernel : Kernel) (buf : UInt64) (len : UInt32)
    (direction : UInt8) (sslPtr : UInt64) (provider : UInt8) : Option Bytes × Kernel :=
  let readLen := readLen len
  let (generation, seq, kernel) := kernel.nextSeq probe.task sslPtr direction
  if probe.sampledOut buf readLen then (none, kernel)
  else
    match probe.reserve (RawHeader.size + readLen.toNat) with
    | none => (none, kernel)
    | some slot =>
      if probe.dynptrData && (readLen == 0 || probe.dynptrWrite) then
        let hdr := probe.fillEventHdr sslPtr len readLen direction provider generation seq
        (probe.fill slot.toList hdr buf readLen, kernel)
      else (none, kernel)

/-- `emit_event`; `useDynptr` is `cfg_use_dynptr`. -/
def emitEvent (probe : Probe) (useDynptr : Bool) (kernel : Kernel) (buf : UInt64) (len : UInt32)
    (direction : UInt8) (sslPtr : UInt64) (provider : UInt8) : Option Bytes × Kernel :=
  if useDynptr then probe.emitEventDynptr kernel buf len direction sslPtr provider
  else
    let readLen := readLen len
    let (generation, seq, kernel) := kernel.nextSeq probe.task sslPtr direction
    if probe.sampledOut buf readLen then (none, kernel)
    else
      match probe.reserve (RawHeader.size + maxData.toNat) with
      | none => (none, kernel)
      | some slot =>
        let hdr := probe.fillEventHdr sslPtr len readLen direction provider generation seq
        (probe.fill slot.toList hdr buf readLen, kernel)

/-! ## Both paths write the same record -/

theorem toNat_readLen (len : UInt32) : (readLen len).toNat = min len.toNat 32767 := by
  unfold readLen
  split
  case isTrue long =>
    have : 32768 ≤ len.toNat := long
    have : (maxData - 1).toNat = 32767 := rfl
    omega
  case isFalse short =>
    have : ¬ 32768 ≤ len.toNat := short
    omega

/-- The mask leaves a length below `MAX_DATA` as it is. -/
theorem toNat_masked (len : UInt32) :
    (readLen len &&& (maxData - 1)).toNat = (readLen len).toNat := by
  have mask : (maxData - 1).toNat = 2 ^ 15 - 1 := rfl
  have small := toNat_readLen len
  rw [UInt32.toNat_and, mask, Nat.and_two_pow_sub_one_eq_mod]
  omega

theorem sized_fillEventHdr (probe : Probe) (sslPtr : UInt64) (actualLen copyLen : UInt32)
    (direction provider : UInt8) (generation seq : UInt32) :
    (probe.fillEventHdr sslPtr actualLen copyLen direction provider generation seq).Sized :=
  ⟨Vector.length_toList, Vector.length_toList, Vector.length_toList⟩

theorem isTruncated_fillEventHdr (probe : Probe) (sslPtr : UInt64) (actualLen copyLen : UInt32)
    (direction provider : UInt8) (generation seq : UInt32) :
    (probe.fillEventHdr sslPtr actualLen copyLen direction provider generation seq).isTruncated ↔
      copyLen < actualLen := by
  have attributed : (probe.connInfo sslPtr).2.2 &&& 1 = 0 := by
    unfold connInfo
    split
    · exact (by decide : (2 : UInt16) &&& 1 = 0)
    · split
      · exact (by decide : (4 : UInt16) &&& 1 = 0)
      · rfl
  have flags (truncated : UInt16) : (truncated ||| (probe.connInfo sslPtr).2.2) &&& 1 =
      truncated &&& 1 := by
    rw [← UInt16.toNat_inj] at attributed ⊢
    simp only [UInt16.toNat_and, UInt16.toNat_or, Nat.and_or_distrib_right] at attributed ⊢
    rw [attributed, UInt16.toNat_zero, Nat.or_zero]
  simp only [TlsEventHeader.isTruncated, fillEventHdr, flags, Bool.or_eq_true, bne_iff_ne,
    Bool.and_eq_true]
  constructor
  · rintro (flagged | ⟨-, longer⟩)
    · split at flagged
      case isTrue longer => exact longer
      case isFalse => exact absurd rfl flagged
    · exact of_decide_eq_true longer
  · intro longer
    left
    rw [if_pos longer]
    decide

variable {probe : Probe} {buf : UInt64}

theorem length_probeRead {len : Nat} {data : Bytes} (read : probe.probeRead buf len = some data) :
    data.length = len := by
  induction len generalizing buf data with
  | zero =>
    cases read
    rfl
  | succ len ih =>
    simp only [probeRead, Option.bind_eq_bind, Option.bind_eq_some_iff] at read
    obtain ⟨byte, -, rest, more, same⟩ := read
    cases same
    rw [List.length_cons, ih more]

theorem overwrite_eq {slot : Bytes} {offset : Nat} {data : Bytes}
    (inside : offset + data.length ≤ slot.length) : overwrite slot offset data =
      slot.take offset ++ (data ++ slot.drop (offset + data.length)) := by
  apply List.take_of_length_le
  simp only [List.length_append, List.length_take, List.length_drop]
  omega

theorem fill_eq {slot : Bytes} {hdr : RawHeader} {len : UInt32} {record : Bytes} (sized : hdr.Sized)
    (large : RawHeader.size + (readLen len).toNat ≤ slot.length)
    (filled : probe.fill slot hdr buf (readLen len) = some record) :
    ∃ data stale, probe.probeRead buf (readLen len).toNat = some data ∧
      record = hdr.encode ++ (data ++ stale) := by
  have head := RawHeader.length_encode sized
  have start : overwrite slot 0 hdr.encode = hdr.encode ++ slot.drop RawHeader.size := by
    rw [overwrite_eq (by omega), head, Nat.zero_add, List.take_zero, List.nil_append]
  unfold fill at filled
  simp only [start] at filled
  split at filled
  case isTrue =>
    obtain ⟨data, read, same⟩ := Option.bind_eq_some_iff.mp filled
    rw [toNat_masked] at read
    refine ⟨data, (slot.drop RawHeader.size).drop data.length, read, ?_⟩
    have inside : RawHeader.size + data.length ≤
        (hdr.encode ++ slot.drop RawHeader.size).length := by
      rw [length_probeRead read, List.length_append, head, List.length_drop]
      omega
    rw [← Option.some.inj same, overwrite_eq inside, List.take_left' head, ← List.drop_drop,
      List.drop_left' head]
  case isFalse empty =>
    have none : (readLen len).toNat = 0 := by
      have : ¬ 0 < (readLen len).toNat := empty
      omega
    refine ⟨[], slot.drop RawHeader.size, ?_, (Option.some.inj filled).symm⟩
    rw [none, probeRead]

/-- A record that is submitted is read back as the filled header and the copied bytes. -/
theorem fromBytes_emitEvent {useDynptr : Bool} {kernel : Kernel} {len : UInt32} {direction : UInt8}
    {sslPtr : UInt64} {provider : UInt8} {record : Bytes}
    (submitted : (probe.emitEvent useDynptr kernel buf len direction sslPtr provider).1 =
      some record) :
    ∃ payload, probe.probeRead buf (readLen len).toNat = some payload ∧
      RawHeader.fromBytes record = .ok (some (probe.fillEventHdr sslPtr len (readLen len) direction
        provider (kernel.nextSeq probe.task sslPtr direction).1
        (kernel.nextSeq probe.task sslPtr direction).2.1, payload)) := by
  generalize header : probe.fillEventHdr sslPtr len (readLen len) direction provider
    (kernel.nextSeq probe.task sslPtr direction).1
    (kernel.nextSeq probe.task sslPtr direction).2.1 = hdr
  have length := toNat_readLen len
  have filled : ∃ slot : Bytes, RawHeader.size + (readLen len).toNat ≤ slot.length ∧
      probe.fill slot hdr buf (readLen len) = some record := by
    have whole : maxData.toNat = 32768 := rfl
    subst header
    unfold emitEvent emitEventDynptr at submitted
    grind [Vector.length_toList]
  have sized : hdr.Sized := header ▸ sized_fillEventHdr ..
  obtain ⟨slot, large, filled⟩ := filled
  obtain ⟨data, stale, read, same⟩ := fill_eq sized large filled
  refine ⟨data, read, ?_⟩
  have copied : hdr.copiedLen.toNat = data.length := by
    rw [length_probeRead read, ← header]
    rfl
  rw [same, RawHeader.fromBytes_record sized copied (by rw [← header]; rfl)]

/-- The records of the two paths mean the same to userspace. -/
theorem emit_paths_agree (probe : Probe) (kernel : Kernel) (buf : UInt64) (len : UInt32)
    (direction : UInt8) (sslPtr : UInt64) (provider : UInt8) (short long : Bytes)
    (dynptr : (probe.emitEvent true kernel buf len direction sslPtr provider).1 = some short)
    (fixed : (probe.emitEvent false kernel buf len direction sslPtr provider).1 = some long) :
    ∃ hdr payload, RawHeader.fromBytes short = .ok (some (hdr, payload)) ∧
      RawHeader.fromBytes long = .ok (some (hdr, payload)) ∧
      probe.probeRead buf (min len.toNat (maxData.toNat - 1)) = some payload ∧
      (hdr.isTruncated ↔ maxData.toNat - 1 < len.toNat) := by
  obtain ⟨payload, read, decoded⟩ := fromBytes_emitEvent dynptr
  obtain ⟨again, reread, decodedLong⟩ := fromBytes_emitEvent fixed
  have same : again = payload := Option.some.inj (reread.symm.trans read)
  rw [same] at decodedLong
  have length := toNat_readLen len
  refine ⟨_, payload, decoded, decodedLong, ?_, ?_⟩
  · rw [← read, length]
    rfl
  · rw [isTruncated_fillEventHdr, UInt32.lt_iff_toNat_lt, length]
    have : maxData.toNat = 32768 := rfl
    omega

/-- A probe on a machine whose memory and ring hold the same byte everywhere. -/
def uniform (byte : UInt8) : Probe where
  task := ⟨0x700000008, 5⟩
  ktimeNs := 9
  comm := .replicate 16 0
  cgroupId := 1
  netnsIno := 2
  sslPtrToConn := .empty
  activeConnections := .empty
  shouldSampleOut := fun _ => false
  memory := fun _ => some byte
  reserve := fun size => some (.replicate size byte)
  dynptrData := true
  dynptrWrite := true

theorem emit_paths_agree_uniform : ∃ short long,
    ((uniform 65).emitEvent true .empty 4096 2 0 77 1).1 = some short ∧
    ((uniform 65).emitEvent false .empty 4096 2 0 77 1).1 = some long ∧
    ∃ hdr payload, RawHeader.fromBytes short = .ok (some (hdr, payload)) ∧
      RawHeader.fromBytes long = .ok (some (hdr, payload)) ∧ payload = [65, 65] ∧
      ¬ hdr.isTruncated := by
  refine ⟨_, _, rfl, rfl, ?_⟩
  obtain ⟨hdr, payload, short, long, read, truncated⟩ :=
    emit_paths_agree (uniform 65) .empty 4096 2 0 77 1 _ _ rfl rfl
  exact ⟨hdr, payload, short, long, (Option.some.inj read).symm, by rw [truncated]; decide⟩

end Probe
end ApiSensor
