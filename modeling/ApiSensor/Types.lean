import ApiSensor.Library.Budget
import ApiSensor.Library.Dict
import ApiSensor.Text

/-!
# Data model

The records of `types.rs` that the capture path reads and writes, and the parameters that stand for
code outside the repository.  Here and below a definition carries the name of the item it models,
in camel case.
-/

namespace ApiSensor

open Library

/-- The HPACK decoder of the `hpack` crate: a deterministic state machine over header blocks. -/
structure HpackCrate where
  /-- Decoder state, the dynamic table included. -/
  State : Type
  /-- A new decoder. -/
  init : State
  /-- Decode one block.  The outer `none` is a panic, the inner `none` a decoding error. -/
  decode : State → Bytes → Option (Option (List (Bytes × Bytes))) × State

/-- A parsed JSON document of `serde_json`. -/
inductive Json where
  | null
  | bool (value : Bool)
  | number (text : Str)
  | string (value : Str)
  | array (items : List Json)
  | object (members : List (Str × Json))

/-- What the sensor takes from its build target, the Unicode tables and other crates. -/
structure Platform where
  /-- The `hpack` crate. -/
  hpack : HpackCrate
  /-- `str::to_lowercase`, with the full Unicode mapping. -/
  toLowercase : Str → Str
  /-- `serde_json::from_slice`. -/
  jsonFromSlice : Bytes → Option Json
  /-- `serde_json::from_str`. -/
  jsonFromStr : Str → Option Json
  /-- `serde_json::Value::to_string`. -/
  jsonToString : Json → Str
  /-- `std::mem::size_of::<ParsedRequest>()`. -/
  requestSize : Nat

/-- An HPACK decoder that knows only three entries of the static table. -/
def staticHpack : HpackCrate where
  State := Unit
  init := ()
  decode := fun _ block =>
    (some (some (block.filterMap fun byte =>
      if byte = 0x82 then some (bytes ":method", bytes "GET")
      else if byte = 0x84 then some (bytes ":path", bytes "/")
      else if byte = 0x88 then some (bytes ":status", bytes "200")
      else none)), ())

/-- A platform for ASCII traffic without JSON. -/
def asciiPlatform : Platform where
  hpack := staticHpack
  toLowercase := toAsciiLowercase
  jsonFromSlice := fun _ => none
  jsonFromStr := fun _ => none
  jsonToString := fun _ => []
  requestSize := 336

/-! ## Constants -/

/-- `HTTP2_PREFACE`: the magic that begins the client connection preface. -/
def http2Preface : Bytes := bytes "PRI * HTTP/2.0"

/-- `HTTP2_CONNECTION_PREFACE`: the full client connection preface. -/
def http2ConnectionPreface : Bytes := bytes "PRI * HTTP/2.0\r\n\r\nSM\r\n\r\n"

def maxStreamEntries : Nat := 10000

def streamTtlMs : Nat := 300000

def numShards : Nat := 16

instance : NeZero numShards := ⟨by decide⟩

def maxBodyCaptureBytes : Nat := 8192

def roleHintServer : UInt8 := 1

def roleHintClient : UInt8 := 2

def providerQuic : UInt8 := 4

/-! ## Kernel records -/

/-- `TlsEventHeader`, without the fields that userspace never reads. -/
structure TlsEventHeader where
  pid : UInt32
  sslPtr : UInt64
  direction : UInt8
  ipFamily : UInt8
  cgroupId : UInt64
  netnsIno : UInt32
  srcPort : UInt16
  dstPort : UInt16
  srcIp4 : UInt32
  dstIp4 : UInt32
  srcIp6 : Bytes
  dstIp6 : Bytes
  flags : UInt16
  actualLen : UInt32
  copiedLen : UInt32
  connGeneration : UInt32
  procStartNs : UInt64
  dirSeq : UInt32
  providerId : UInt8
  roleHint : UInt8
  deriving DecidableEq

def TlsEventHeader.blank : TlsEventHeader where
  pid := 0
  sslPtr := 0
  direction := 0
  ipFamily := 0
  cgroupId := 0
  netnsIno := 0
  srcPort := 0
  dstPort := 0
  srcIp4 := 0
  dstIp4 := 0
  srcIp6 := List.replicate 16 0
  dstIp6 := List.replicate 16 0
  flags := 0
  actualLen := 0
  copiedLen := 0
  connGeneration := 0
  procStartNs := 0
  dirSeq := 0
  providerId := 0
  roleHint := 0

/-- `TlsEventHeader::is_truncated`: the flag, or a copy shorter than the call. -/
def TlsEventHeader.isTruncated (ev : TlsEventHeader) : Bool :=
  (ev.flags &&& 1) != 0 || (ev.actualLen > 0 && ev.copiedLen > 0 && ev.actualLen > ev.copiedLen)

structure CloseEvent where
  pid : UInt32
  sslPtr : UInt64
  procStartNs : UInt64
  generation : UInt32
  deriving DecidableEq

/-! ## Connection keys -/

/-- The key of `conn_born_ms`: process, TLS object, process start and generation. -/
structure ConnIdentity where
  pid : UInt32
  sslPtr : UInt64
  procStartNs : UInt64
  generation : UInt32
  deriving DecidableEq

/-- The identity an event carries. -/
def TlsEventHeader.identity (ev : TlsEventHeader) : ConnIdentity :=
  ⟨ev.pid, ev.sslPtr, ev.procStartNs, ev.connGeneration⟩

/-- `StreamKey`: one direction of a connection. -/
structure StreamKey where
  pid : UInt32
  sslPtr : UInt64
  direction : UInt8
  procStartNs : UInt64
  generation : UInt32
  deriving DecidableEq

def StreamKey.fromEvent (ev : TlsEventHeader) : StreamKey :=
  ⟨ev.pid, ev.sslPtr, ev.direction, ev.procStartNs, ev.connGeneration⟩

/-- The connection a direction belongs to. -/
def StreamKey.identity (key : StreamKey) : ConnIdentity :=
  ⟨key.pid, key.sslPtr, key.procStartNs, key.generation⟩

/-- `ConnKey`: an identity and the time it was first seen. -/
structure ConnKey where
  pid : UInt32
  sslPtr : UInt64
  bornMs : Nat
  procStartNs : UInt64
  generation : UInt32
  deriving DecidableEq

def ConnKey.fromEvent (ev : TlsEventHeader) (bornMs : Nat) : ConnKey :=
  ⟨ev.pid, ev.sslPtr, bornMs, ev.procStartNs, ev.connGeneration⟩

def ConnKey.fromClose (ev : CloseEvent) : ConnKey :=
  ⟨ev.pid, ev.sslPtr, 0, ev.procStartNs, ev.generation⟩

/-- The identity inside a connection key. -/
def ConnKey.identity (key : ConnKey) : ConnIdentity :=
  ⟨key.pid, key.sslPtr, key.procStartNs, key.generation⟩

/-! ## Captured messages -/

/-- `HashMap<String, String>` of header fields. -/
abbrev Headers := Dict Str Str

/-- An address as the kernel reports it; rendering it as text is left to the exporter. -/
inductive IpAddr where
  | v4 (bits : UInt32)
  | v6 (octets : Bytes)
  deriving DecidableEq

structure ContainerContext where
  podName : Option Str
  podNamespace : Option Str
  containerId : Str
  containerName : Option Str
  nodeName : Str
  serviceName : Option Str
  workloadType : Option Str
  deriving DecidableEq

structure NetContext where
  sourceIp : Option IpAddr := none
  destIp : Option IpAddr := none
  sourcePort : Option UInt16 := none
  destPort : Option UInt16 := none
  netnsIno : Option UInt32 := none
  cgroupId : Option UInt64 := none
  container : Option ContainerContext := none
  processName : Option Str := none
  sourceHostname : Option Str := none
  destHostname : Option Str := none
  direction : Option Str := none
  deriving DecidableEq

structure ParsedRequest where
  method : Str
  path : Str
  host : Option Str
  headers : Headers
  tsMs : Nat
  netCtx : NetContext
  body : Bytes
  deriving DecidableEq

/-- Bytes of header text, each field charged a fixed overhead. -/
def headerBytes (overhead : Nat) (headers : Headers) : Nat :=
  headers.total fun name value => strLen name + strLen value + overhead

def ParsedRequest.approxBytes (P : Platform) (req : ParsedRequest) : Nat :=
  P.requestSize + 384 + strLen req.method + strLen req.path +
    (req.host.elim 0 strLen) + headerBytes 64 req.headers + req.body.length

structure HttpRequestParsed where
  method : Str
  path : Str
  host : Option Str
  headers : Headers
  body : Bytes
  deriving DecidableEq

structure HttpResponseParsed where
  statusCode : Int
  headers : Headers
  body : Bytes
  deriving DecidableEq

inductive HttpMessage where
  | request (req : HttpRequestParsed)
  | response (resp : HttpResponseParsed)
  deriving DecidableEq

inductive TrafficRole where
  | server
  | client
  | auto
  deriving DecidableEq

/-- The protocol label of an event. -/
inductive Protocol where
  | http1
  | http2
  | http3
  | grpc
  | webSocket
  | mcp
  deriving DecidableEq

structure EventMetadata where
  hasInjection : Bool
  injectionPatterns : List Str
  permissionFlags : List Str
  mcpMethod : Option Str
  mcpToolName : Option Str
  deriving DecidableEq

/-- The arguments with which `build_event` or `build_incomplete_event` is called, that is an event
before redaction.  `grpcData` holds the message of a gRPC response, whose decoded fields take the
place of its body. -/
structure TrafficEvent where
  accountId : Nat
  observedAt : Nat
  request : ParsedRequest
  response : HttpResponseParsed
  latencyMs : Option Nat
  protocol : Protocol
  grpcData : Bytes := []
  metadata : Option EventMetadata := none
  outcome : Option Str := none
  deriving DecidableEq

/-! ## Effects -/

/-- The counters of `metrics.rs` that the capture path increments. -/
inductive Metric where
  | eventsDropped
  | unpairedResponses
  | captureGaps
  | roleAmbiguous
  | bodiesTruncated
  | h1ParseErrors
  | pendingExpired
  | eventsOutOfScope
  | eventsScopeUnresolved
  | transactionsIncomplete
  | protoWebSocket
  | connectionsOpened
  | connectionsClosed
  deriving DecidableEq

/-- One entry of the log of a run.  Besides counter increments it records, for the proofs only,
what becomes of requests, responses and chunks. -/
inductive Note where
  /-- `counter.fetch_add(amount)`. -/
  | count (metric : Metric) (amount : Nat)
  /-- A request was accepted by `PendingQueue::push` or `PendingStreams::insert`. -/
  | accepted (req : ParsedRequest)
  /-- A request was refused by one of them. -/
  | refused (req : ParsedRequest)
  /-- A request left with its HTTP/2 stream: reset, above GOAWAY, or superseded. -/
  | cancelled (req : ParsedRequest)
  /-- `EVENTS_DROPPED` is raised by the number of these unanswered requests, which leave without an
  event. -/
  | unreported (reqs : List ParsedRequest)
  /-- A final HTTP/1 response is about to be paired. -/
  | answered (resp : HttpResponseParsed)
  /-- The HTTP/1 decoder of a direction is fed its buffer, the new chunk at the end. -/
  | fed (stream : StreamKey) (buf : Bytes)
  /-- A chunk for the HTTP/1 decoder was refused by the memory ceiling. -/
  | chunkRefused (stream : StreamKey)
  /-- A chunk of an HTTP/2 direction was refused by the memory ceiling. -/
  | framesRefused (conn : ConnKey) (isRequestDir : Bool)
  /-- An HTTP/2 direction was fed a chunk and decoded this many items from it. -/
  | framesParsed (conn : ConnKey) (isRequestDir : Bool) (items : Nat)
  deriving DecidableEq

/-- Operations on the shared byte counter and the metrics. -/
abbrev Act := Prog Note

def reserveMemory (maxTotal additional : Nat) : Act Bool := .reserve maxTotal additional .done

def releaseMemory (amount : Nat) : Act Unit := .release amount (.done ())

/-- Append one entry to the log. -/
def note (entry : Note) : Act Unit := .log entry (.done ())

/-- Increment a counter. -/
def count (metric : Metric) (amount : Nat) : Act Unit := note (.count metric amount)

end ApiSensor
