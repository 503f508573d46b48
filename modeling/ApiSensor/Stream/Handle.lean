import ApiSensor.Content
import ApiSensor.Quic
import ApiSensor.Stream.State

/-!
# Handling one TLS event

`StreamState::handle_event` and `process_http2_event`.  The dispatch between protocols is the pure
function `route`; each protocol has its own handler.
-/

namespace ApiSensor

open Library

/-- What one call takes from outside: the wall clock and the answers of the resolvers. -/
structure Env where
  now : Nat
  container : Option ContainerContext
  processName : Option Str
  hostname : IpAddr → Option Str

/-! ## Message starts and directions -/

def startsHttp1Message (payload : Bytes) : Bool :=
  if (bytes "HTTP/1.").isPrefixOf payload then true
  else
    match (payload.take 8).findIdx? (· = 0x20) with
    | none => false
    | some space => (fromUtf8 (payload.take space)).any isHttpMethod

def inferRequestDirection (direction roleHint : UInt8) (payload : Bytes) : Option UInt8 :=
  let other : UInt8 := if direction = 0 then 1 else 0
  if http2Preface.isPrefixOf payload || (!payload.isEmpty && payload.isPrefixOf http2Preface) then
    some direction
  else if (bytes "HTTP/1.").isPrefixOf payload then some other
  else if startsHttp1Message payload then some direction
  else if roleHint = roleHintServer then some 0
  else if roleHint = roleHintClient then some 1
  else none

/-- The loop of `looks_like_h2_connection_frames`. -/
def h2ConnectionFrames : Nat → Bool → Bytes → Bool
  | 0, saw, _ => saw
  | fuel + 1, saw, rest =>
    if rest.length < 9 then saw && rest.isEmpty
    else
      let len := frameLength rest
      let sid := streamIdOf ((rest.drop 5).take 4)
      let ftype := rest.getD 3 0
      if 16384 < len then false
      else if rest.length < 9 + len then saw
      else if sid ≠ 0 || !(ftype = 0x04 || ftype = 0x06 || ftype = 0x08) then false
      else h2ConnectionFrames fuel true (rest.drop (9 + len))

def looksLikeH2ConnectionFrames (buf : Bytes) : Bool :=
  if buf.length < 9 then false else h2ConnectionFrames buf.length false buf

def netContextFromEvent (env : Env) (ev : TlsEventHeader) : NetContext :=
  let (src, dst) : Option IpAddr × Option IpAddr :=
    if ev.ipFamily = 4 then (some (.v4 ev.srcIp4), some (.v4 ev.dstIp4))
    else if ev.ipFamily = 6 then (some (.v6 ev.srcIp6), some (.v6 ev.dstIp6))
    else (none, none)
  let srcPort := if ev.srcPort ≠ 0 then some ev.srcPort else none
  let dstPort := if ev.dstPort ≠ 0 then some ev.dstPort else none
  -- the kernel reports the local end as source; the source of a request is its client
  let incoming := ev.direction = 0
  let sourceIp := if incoming then dst else src
  let destIp := if incoming then src else dst
  { sourceIp, destIp
    sourcePort := if incoming then dstPort else srcPort
    destPort := if incoming then srcPort else dstPort
    netnsIno := if ev.netnsIno ≠ 0 then some ev.netnsIno else none
    cgroupId := if ev.cgroupId ≠ 0 then some ev.cgroupId else none
    container := env.container
    processName := env.processName
    sourceHostname := sourceIp.bind env.hostname
    destHostname := destIp.bind env.hostname
    direction := some (if incoming then str "incoming" else str "outgoing") }

/-- `scope_allows`: fails closed when the namespace is unknown. -/
def scopeAllows (C : Config) (env : Env) : Act Bool :=
  match C.namespaceScope with
  | none => pure true
  | some allowed =>
    match env.container.bind ContainerContext.podNamespace with
    | none => do
        count .eventsOutOfScope 1
        count .eventsScopeUnresolved 1
        pure false
    | some ns =>
      if ns ∈ allowed then pure true
      else do
        count .eventsOutOfScope 1
        pure false

/-! ## HTTP/2 -/

namespace Http2Conn

variable {P : Platform}

/-- Let the frame size announced by one direction bound the frames of the other. -/
def announce (announced : Option Nat) (other : Http2Direction P) : Http2Direction P :=
  announced.elim other other.setMaxFrame

@[simp]
theorem buffered_announce (announced : Option Nat) (other : Http2Direction P) :
    (announce announced other).buffered = other.buffered := by
  cases announced <;> rfl

/-- The direction a chunk belongs to. -/
def direction (conn : Http2Conn P) (isRequestDir : Bool) : Http2Direction P :=
  if isRequestDir then conn.req else conn.resp

/-- Bytes to hand back once a charged payload has been parsed: what is not held any more. -/
def consumed (conn : Http2Conn P) (isRequestDir : Bool) (payload : Bytes) : Nat :=
  let dir := conn.direction isRequestDir
  subAmount (conn.buffered + payload.length)
    (payload.length + dir.buffered - (dir.feed payload).1.buffered)

/-- The connection after one direction has parsed a payload. -/
def fed (conn : Http2Conn P) (isRequestDir : Bool) (payload : Bytes) : Http2Conn P :=
  let dir := ((conn.direction isRequestDir).feed payload).1
  { conn with
    req := if isRequestDir then dir else announce dir.announcedMaxFrame conn.req
    resp := if isRequestDir then announce dir.announcedMaxFrame conn.resp else dir
    buffered := conn.buffered + payload.length - conn.consumed isRequestDir payload
    accounted := by
      have bound := (conn.direction isRequestDir).buffered_feed_le payload
      have accounted := conn.accounted
      cases isRequestDir <;>
        simp only [direction, if_true, if_false, Bool.false_eq_true, dir, buffered_announce,
          consumed, subAmount] at bound ⊢ <;>
        omega }

end Http2Conn

/-- Everything about the event at hand that the handlers share. -/
structure Call where
  env : Env
  ev : TlsEventHeader
  /-- The connection, under the birth time found before eviction. -/
  key : ConnKey
  isRequestDir : Bool

/-- The direction of the connection the event belongs to. -/
def Call.streamKey (call : Call) : StreamKey := .fromEvent call.ev

def skipUnpairedResponse : Act Unit := count .unpairedResponses 1

namespace Http2Conn

variable {P : Platform}

def finishH2Response (C : Config) (nowMs : Nat) (conn : Http2Conn P) (streamId : UInt32) :
    Act (Http2Conn P × List TrafficEvent) := do
  let (taken, responses) ← InflightResponses.take conn.responses streamId
  let conn := { conn with responses }
  match taken with
  | none => pure (conn, [])
  | some (headers, data) => do
      let (removed, pendingRequests) ← PendingStreams.remove conn.pendingRequests streamId
      let conn := { conn with pendingRequests }
      match removed.filter fun req => isUsableHttpRequest req.method req.path with
      | none => do
          skipUnpairedResponse
          pure (conn, [])
      | some request =>
        let statusCode := ((headers.get? (str ":status")).bind parseI32).getD 0
        let isGrpc := (headers.get? (str "content-type")).any fun value =>
          (str "application/grpc").isPrefixOf value
        pure (conn,
          [{ accountId := C.accountId
             observedAt := nowMs
             request
             response := ⟨statusCode, headers, if isGrpc then [] else data⟩
             latencyMs := some (nowMs - request.tsMs)
             protocol := if isGrpc then .grpc else .http2
             grpcData := if isGrpc then data else [] }])

/-- A decoded header block of the request direction. -/
def requestHeaders (C : Config) (env : Env) (ev : TlsEventHeader) (conn : Http2Conn P)
    (streamId : UInt32) (headers : Headers) : Act (Http2Conn P × List TrafficEvent) :=
  match headers.get? (str ":method") with
  | none => pure (conn, [])
  | some method =>
    let path := (headers.get? (str ":path")).getD (str "/")
    if !isUsableHttpRequest method path then pure (conn, [])
    else do
      let (_, pendingRequests) ← PendingStreams.insert conn.pendingRequests streamId
        { method, path
          host := headers.get? (str ":authority")
          headers
          tsMs := env.now
          netCtx := netContextFromEvent env ev
          body := [] }
        C.maxTotalBufferBytes maxH2PendingStreams
      pure ({ conn with pendingRequests }, [])

/-- A decoded header block of the response direction: a final response, or trailers. -/
def responseHeaders (C : Config) (nowMs : Nat) (conn : Http2Conn P) (streamId : UInt32)
    (headers : Headers) (endStream : Bool) : Act (Http2Conn P × List TrafficEvent) :=
  match headers.get? (str ":status") with
  | some status =>
    if status.head? = some '1' then pure (conn, [])
    else if !PendingStreams.contains conn.pendingRequests streamId then do
      skipUnpairedResponse
      pure (conn, [])
    else do
      let (_, responses) ← InflightResponses.start conn.responses streamId headers
        C.maxTotalBufferBytes maxH2PendingStreams
      let conn := { conn with responses }
      if endStream then conn.finishH2Response C nowMs streamId else pure (conn, [])
  | none => do
      let (merged, responses) ← InflightResponses.mergeTrailers conn.responses streamId headers
        C.maxTotalBufferBytes
      let conn := { conn with responses }
      if merged && endStream then conn.finishH2Response C nowMs streamId else pure (conn, [])

/-- Give up one stream: its response, then its request. -/
def resetStream (conn : Http2Conn P) (streamId : UInt32) : Act (Http2Conn P) := do
  let (_, responses) ← InflightResponses.take conn.responses streamId
  PendingStreams.cancel conn.pendingRequests streamId
  pure { conn with responses, pendingRequests := conn.pendingRequests.without streamId }

/-- Give up several streams. -/
def resetStreams : List UInt32 → Http2Conn P → Act (Http2Conn P)
  | [], conn => pure conn
  | streamId :: streamIds, conn => do
      let conn ← conn.resetStream streamId
      resetStreams streamIds conn

/-- One round of the item loop of `process_http2_event`. -/
def onItem (C : Config) (call : Call) (conn : Http2Conn P) :
    H2Item → Act (Http2Conn P × List TrafficEvent)
  | .headers streamId headers endStream =>
    if call.isRequestDir then conn.requestHeaders C call.env call.ev streamId headers
    else conn.responseHeaders C call.env.now streamId headers endStream
  | .data streamId data endStream =>
    if call.isRequestDir then do
      let (_, pendingRequests) ← PendingStreams.appendBody conn.pendingRequests streamId data
        C.maxTotalBufferBytes
      pure ({ conn with pendingRequests }, [])
    else do
      let (known, responses) ← InflightResponses.append conn.responses streamId data
        C.maxTotalBufferBytes
      let conn := { conn with responses }
      if known && endStream then conn.finishH2Response C call.env.now streamId
      else pure (conn, [])
  | .reset streamId => do
      let conn ← conn.resetStream streamId
      pure (conn, [])
  | .goAway lastStreamId => do
      let dropped := (PendingStreams.ids conn.pendingRequests).filter (lastStreamId < ·)
      let conn ← resetStreams dropped conn
      pure (conn, [])

/-- The item loop of `process_http2_event`. -/
def onItems (C : Config) (call : Call) :
    List H2Item → Http2Conn P → Act (Http2Conn P × List TrafficEvent)
  | [], conn => pure (conn, [])
  | item :: items, conn => do
      let (conn, events) ← conn.onItem C call item
      let (conn, more) ← onItems C call items conn
      pure (conn, events ++ more)

/-- `process_http2_event` on the connection it finds. -/
def process (C : Config) (call : Call) (payload : Bytes) (conn : Http2Conn P) :
    Act (Http2Conn P × List TrafficEvent) :=
  let conn := { conn with lastEventTs := call.env.now }
  if payload.isEmpty then pure (conn, [])
  else do
    let granted ← reserveMemory C.maxTotalBufferBytes payload.length
    if granted then
      let items := ((conn.direction call.isRequestDir).feed payload).2
      note (.framesParsed call.key call.isRequestDir items.length)
      releaseMemory (conn.consumed call.isRequestDir payload)
      onItems C call items (conn.fed call.isRequestDir payload)
    else
      count .eventsDropped 1
      note (.framesRefused call.key call.isRequestDir)
      pure (conn, [])

end Http2Conn

namespace StreamState

variable {P : Platform}

def processHttp2Event (C : Config) (call : Call) (payload : Bytes) (st : StreamState P) :
    Act (StreamState P × List TrafficEvent) := do
  let conn := (st.http2State.get? call.key).getD .new
  let (conn, events) ← conn.process C call payload
  pure ({ st with http2State := st.http2State.insert call.key conn }, events)

/-- The early frames of a connection, none if nothing is held. -/
def earlyOf (call : Call) (st : StreamState P) : EarlyResp :=
  (st.h2EarlyResp.get? call.key).getD ⟨[], call.env.now, 0, List.length_nil.symm⟩

/-- Store early frames as seen now. -/
def keepEarly (call : Call) (early : EarlyResp) (st : StreamState P) : StreamState P :=
  { st with
    h2EarlyResp := st.h2EarlyResp.insert call.key { early with seenMs := call.env.now } }

/-- Hold server frames that precede the client preface. -/
def holdEarly (C : Config) (call : Call) (payload : Bytes) (st : StreamState P) :
    Act (StreamState P × List TrafficEvent) :=
  if !st.h2EarlyResp.contains call.key && maxH2EarlyConns ≤ st.h2EarlyResp.size then do
    count .eventsDropped 1
    pure (st, [])
  else
    let early := st.earlyOf call
    if early.data.length + payload.length ≤ maxH2EarlyBytes then do
      let granted ← reserveMemory C.maxTotalBufferBytes payload.length
      if granted then pure (st.keepEarly call (early.append payload), [])
      else pure (st.keepEarly call early, [])
    else pure (st.keepEarly call early, [])

/-- Replay held server frames on the connection that the preface opens. -/
def replayEarly (C : Config) (call : Call) (early : EarlyResp) (st : StreamState P) :
    Act (StreamState P × List TrafficEvent) :=
  if early.data.isEmpty then pure (st, [])
  else st.processHttp2Event C { call with isRequestDir := false } early.data

/-- The client preface opens a connection: replay held server frames, then the payload. -/
def startHttp2 (C : Config) (call : Call) (payload : Bytes) (st : StreamState P) :
    Act (StreamState P × List TrafficEvent) :=
  match st.h2EarlyResp.get? call.key with
  | none => st.processHttp2Event C call payload
  | some early => do
      let st := { st with h2EarlyResp := st.h2EarlyResp.erase call.key }
      let (st, replayed) ← st.replayEarly C call early
      releaseMemory early.charge
      let (st, events) ← st.processHttp2Event C call payload
      pure (st, replayed ++ events)

/-! ## Queues of HTTP/1 and HTTP/3 requests -/

/-- The queue of a connection, empty if it has none. -/
def queue (st : StreamState P) (key : ConnKey) : PendingQueue P :=
  (st.pending.get? key).getD .empty

/-- `pending.entry(key).or_default().push(req)`. -/
def pushRequest (C : Config) (key : ConnKey) (req : ParsedRequest) (st : StreamState P) :
    Act (StreamState P) := do
  let (_, queue) ← (st.queue key).push req C.maxTotalBufferBytes
  pure { st with pending := st.pending.insert key queue }

/-- `pending.entry(key).or_default().pop_usable()`. -/
def popRequest (key : ConnKey) (st : StreamState P) :
    Act (Option ParsedRequest × StreamState P) := do
  let (request, queue) ← (st.queue key).popUsable
  pure (request, { st with pending := st.pending.insert key queue })

/-! ## HTTP/3 -/

/-- One round of the HTTP/3 header loop. -/
def http3Headers (C : Config) (call : Call) (headers : Headers) (st : StreamState P) :
    Act (StreamState P × List TrafficEvent) :=
  if call.isRequestDir then
    match headers.get? (str ":method") with
    | none => pure (st, [])
    | some method =>
      let path := (headers.get? (str ":path")).getD (str "/")
      if !isUsableHttpRequest method path then pure (st, [])
      else do
        let st ← st.pushRequest C call.key
          { method, path
            host := headers.get? (str ":authority")
            headers
            tsMs := call.env.now
            netCtx := netContextFromEvent call.env call.ev
            body := [] }
        pure (st, [])
  else
    match headers.get? (str ":status") with
    | none => pure (st, [])
    | some status => do
        let (request, st) ← st.popRequest call.key
        match request with
        | none => do
            skipUnpairedResponse
            pure (st, [])
        | some request =>
          pure (st,
            [{ accountId := C.accountId
               observedAt := call.env.now
               request
               response := ⟨(parseI32 status).getD 0, headers, []⟩
               latencyMs := some (call.env.now - request.tsMs)
               protocol := .http3 }])

/-- The HTTP/3 header loop. -/
def http3HeaderSets (C : Config) (call : Call) :
    List Headers → StreamState P → Act (StreamState P × List TrafficEvent)
  | [], st => pure (st, [])
  | headers :: sets, st => do
      let (st, events) ← st.http3Headers C call headers
      let (st, more) ← http3HeaderSets C call sets st
      pure (st, events ++ more)

def handleHttp3 (C : Config) (call : Call) (payload : Bytes) (st : StreamState P) :
    Act (StreamState P × List TrafficEvent) :=
  http3HeaderSets C call (extractH3Headers P payload)
    { st with http3Connections := insert call.key st.http3Connections }

/-! ## WebSocket -/

/-- The frame loop on what follows the unread part of the previous frame: the bytes of the last
frame still to arrive.  A frame takes at least two bytes. -/
def wsFrames : Nat → Bytes → Act Nat
  | 0, _ => pure 0
  | fuel + 1, rest =>
    if rest.isEmpty then pure 0
    else
      match parseWebsocketFrame rest with
      | none => pure 0
      | some (_, consumed) => do
          count .protoWebSocket 1
          if rest.length < consumed then pure (consumed - rest.length)
          else wsFrames fuel (rest.drop consumed)

def handleWebSocket (call : Call) (payload : Bytes) (st : StreamState P) :
    Act (StreamState P × List TrafficEvent) := do
  let before := (st.wsRemaining.get? call.streamKey).getD 0
  let wsRemaining := st.wsRemaining.erase call.streamKey
  let left ←
    if before ≤ payload.length then wsFrames payload.length (payload.drop before)
    else pure (before - payload.length)
  let wsRemaining :=
    if 0 < left && wsRemaining.size < maxStreamEntries then
      wsRemaining.insert call.streamKey left
    else wsRemaining
  pure ({ st with wsRemaining }, [])

/-! ## HTTP/1 -/

/-- Mark a direction as having lost bytes: its buffer and decoder are given up. -/
def markGap (key : StreamKey) (nowMs : Nat) (st : StreamState P) : StreamState P :=
  { st with
    buffers := st.buffers.insert key ([], nowMs)
    h1Decoders := st.h1Decoders.erase key
    gappedStreams := insert key st.gappedStreams }

/-- The bytes buffered for a direction. -/
def bufferOf (st : StreamState P) (key : StreamKey) : Bytes :=
  ((st.buffers.get? key).map Prod.fst).getD []

/-- The decoder of a direction, a new one if it has none. -/
def decoderOf (st : StreamState P) (key : StreamKey) : Http1Decoder :=
  (st.h1Decoders.get? key).getD (.new maxBodyCaptureBytes)

/-- `head_resp` and `connect_resp`: how the request at the front frames the next response. -/
def responseFlags (call : Call) (st : StreamState P) : Bool × Bool :=
  if call.isRequestDir then (false, false) else (st.queue call.key).frontIsHeadOrConnect

/-- Count a message whose body was not kept in full. -/
def countTruncated (m : Http1Message) : Act Unit :=
  if m.bodyTruncated || m.isPartial then count .bodiesTruncated 1 else pure ()

/-- The loop over decoder items: messages are collected, invalid framing ends it with a gap. -/
def collectItems (call : Call) :
    List Http1Item → StreamState P → Act (StreamState P × List HttpMessage)
  | [], st => pure (st, [])
  | .message m :: items, st => do
      countTruncated m
      let (st, msgs) ← collectItems call items st
      pure (st, m.msg :: msgs)
  | .invalid _ :: _, st => do
      count .h1ParseErrors 1
      releaseMemory (st.bufferOf call.streamKey).length
      pure (st.markGap call.streamKey call.env.now, [])

/-- The metadata of an event whose first JSON-RPC call is `call`. -/
def mcpMetadata (call : McpEvent) : EventMetadata where
  hasInjection := call.hasInjection
  injectionPatterns := if call.hasInjection then [str "prompt_injection"] else []
  permissionFlags := call.permissionFlags
  mcpMethod := call.method
  mcpToolName := call.toolName

/-- The JSON-RPC calls of a transaction: those of the request body, else those of an event stream.
For a response without body the source looks at the raw chunk. -/
def mcpCalls (P : Platform) (request : ParsedRequest) (resp : HttpResponseParsed)
    (payload : Bytes) : List McpEvent :=
  let requestCalls := parseJsonrpcRequest P request.body
  if !requestCalls.isEmpty then requestCalls
  else if isMcpResponse resp.headers then
    parseSseEvents P (if resp.body.isEmpty then payload else resp.body)
  else []

/-- Whether the response switches to WebSocket. -/
def upgradesToWebSocket (P : Platform) (resp : HttpResponseParsed) : Bool :=
  (resp.headers.get? (str "upgrade")).any fun value => P.toLowercase value = str "websocket"

/-- The event of a paired HTTP/1 transaction. -/
def http1Event (P : Platform) (C : Config) (nowMs : Nat) (payload : Bytes)
    (request : ParsedRequest) (resp : HttpResponseParsed) : TrafficEvent :=
  let calls := mcpCalls P request resp payload
  { accountId := C.accountId
    observedAt := nowMs
    request
    response := resp
    latencyMs := some (nowMs - request.tsMs)
    protocol :=
      if !calls.isEmpty then .mcp
      else if upgradesToWebSocket P resp then .webSocket
      else .http1
    metadata := calls.head?.map mcpMetadata }

/-- A response other than an interim 1xx. -/
def isFinal (resp : HttpResponseParsed) : Bool :=
  !(100 ≤ resp.statusCode && resp.statusCode < 200 && resp.statusCode ≠ 101)

/-- A decoded request is queued. -/
def http1Request (C : Config) (call : Call) (req : HttpRequestParsed) (st : StreamState P) :
    Act (StreamState P × List TrafficEvent) :=
  if call.isRequestDir && isUsableHttpRequest req.method req.path then do
    let st ← st.pushRequest C call.key
      { method := req.method
        path := req.path
        host := req.host
        headers := req.headers
        tsMs := call.env.now
        netCtx := netContextFromEvent call.env call.ev
        body := req.body }
    pure (st, [])
  else pure (st, [])

/-- Remember a connection that switches to WebSocket. -/
def noteUpgrade (call : Call) (resp : HttpResponseParsed) (st : StreamState P) : StreamState P :=
  if upgradesToWebSocket P resp then
    { st with wsConnections := insert call.key st.wsConnections }
  else st

/-- A decoded final response is paired with the request at the front. -/
def http1Response (C : Config) (call : Call) (payload : Bytes) (resp : HttpResponseParsed)
    (st : StreamState P) : Act (StreamState P × List TrafficEvent) :=
  if call.isRequestDir || !isFinal resp then pure (st, [])
  else do
    note (.answered resp)
    let (request, st) ← (st.noteUpgrade call resp).popRequest call.key
    match request with
    | none => do
        skipUnpairedResponse
        pure (st, [])
    | some request => pure (st, [http1Event P C call.env.now payload request resp])

/-- One round of the message loop. -/
def http1Message (C : Config) (call : Call) (payload : Bytes) (st : StreamState P) :
    HttpMessage → Act (StreamState P × List TrafficEvent)
  | .request req => st.http1Request C call req
  | .response resp => st.http1Response C call payload resp

/-- The message loop. -/
def http1Messages (C : Config) (call : Call) (payload : Bytes) :
    List HttpMessage → StreamState P → Act (StreamState P × List TrafficEvent)
  | [], st => pure (st, [])
  | msg :: msgs, st => do
      let (st, events) ← st.http1Message C call payload msg
      let (st, more) ← http1Messages C call payload msgs st
      pure (st, events ++ more)

/-- What the decoder makes of the buffer extended by the payload. -/
def decode (call : Call) (payload : Bytes) (st : StreamState P) :
    Http1Decoder × Nat × List Http1Item :=
  (st.decoderOf call.streamKey).feed P (st.bufferOf call.streamKey ++ payload)
    (st.responseFlags call).1 (st.responseFlags call).2

/-- The state after the decoder has consumed what it can. -/
def decoded (call : Call) (payload : Bytes) (st : StreamState P) : StreamState P :=
  { st with
    buffers := st.buffers.insert call.streamKey
      ((st.bufferOf call.streamKey ++ payload).drop (st.decode call payload).2.1, call.env.now)
    h1Decoders := st.h1Decoders.insert call.streamKey (st.decode call payload).1 }

/-- A charged chunk is buffered, decoded, and its messages handled. -/
def consume (C : Config) (call : Call) (payload : Bytes) (st : StreamState P) :
    Act (StreamState P × List TrafficEvent) :=
  let buf := st.bufferOf call.streamKey ++ payload
  if C.maxBuffer < buf.length then do
    releaseMemory buf.length
    count .captureGaps 1
    pure (st.markGap call.streamKey call.env.now, [])
  else do
    note (.fed call.streamKey buf)
    releaseMemory (st.decode call payload).2.1
    let (st, msgs) ← collectItems call (st.decode call payload).2.2 (st.decoded call payload)
    http1Messages C call payload msgs st

/-- A chunk that the ceiling refuses is dropped; the buffer stays as it is. -/
def dropChunk (call : Call) (st : StreamState P) : Act (StreamState P × List TrafficEvent) := do
  count .eventsDropped 1
  note (.chunkRefused call.streamKey)
  pure ({ st with
    buffers := st.buffers.insert call.streamKey
      (st.bufferOf call.streamKey, call.env.now) }, [])

/-- Parsing of a direction resumes. -/
def resume (call : Call) (st : StreamState P) : StreamState P :=
  { st with gappedStreams := st.gappedStreams.erase call.streamKey }

/-- HTTP/1 parsing of one chunk. -/
def handleHttp1 (C : Config) (call : Call) (payload : Bytes) (st : StreamState P) :
    Act (StreamState P × List TrafficEvent) := do
  let granted ← reserveMemory C.maxTotalBufferBytes payload.length
  if granted then (st.resume call).consume C call payload
  else (st.resume call).dropChunk call

/-! ## Dispatch -/

/-- Where a payload goes. -/
inductive Route where
  /-- It may become the client preface. -/
  | holdPrefix
  /-- Server frames before the client preface. -/
  | early
  /-- The client preface. -/
  | startHttp2
  | http2
  | empty
  | http3
  | webSocket
  /-- The direction lost bytes and this chunk does not start a message. -/
  | skip
  | http1
  deriving DecidableEq

/-- The tests of `handle_event` in their order. -/
def route (call : Call) (payload : Bytes) (st : StreamState P) : Route :=
  let isKnownH2 := st.http2State.contains call.key
  let opens := !isKnownH2 && call.isRequestDir && !st.buffers.contains call.streamKey
  if opens && !payload.isEmpty && payload.length < http2Preface.length &&
      payload.isPrefixOf http2Preface && st.h2Prefix.size < maxH2EarlyConns then .holdPrefix
  else if !isKnownH2 && !call.isRequestDir && looksLikeH2ConnectionFrames payload then .early
  else if opens && http2Preface.isPrefixOf payload then .startHttp2
  else if isKnownH2 then .http2
  else if payload.isEmpty then .empty
  else if call.key ∈ st.http3Connections || looksLikeHttp3 payload then .http3
  else if call.key ∈ st.wsConnections then .webSocket
  else if call.streamKey ∈ st.gappedStreams &&
      (!startsHttp1Message payload || call.ev.isTruncated) then .skip
  else .http1

/-- Hand a payload to the handler of its route. -/
def dispatch (C : Config) (call : Call) (payload : Bytes) (st : StreamState P) :
    Act (StreamState P × List TrafficEvent) :=
  match st.route call payload with
  | .holdPrefix => pure ({ st with h2Prefix := st.h2Prefix.insert call.key payload }, [])
  | .early => st.holdEarly C call payload
  | .startHttp2 => st.startHttp2 C call payload
  | .http2 => st.processHttp2Event C call payload
  | .empty => pure (st, [])
  | .http3 => st.handleHttp3 C call payload
  | .webSocket => st.handleWebSocket call payload
  | .skip => pure (st, [])
  | .http1 => st.handleHttp1 C call payload

/-- The payload behind what was held of a possible preface. -/
def joinPrefix (call : Call) (payload : Bytes) (st : StreamState P) : Bytes :=
  if call.isRequestDir then (st.h2Prefix.get? call.key).getD [] ++ payload else payload

/-- The state once a held prefix has been taken. -/
def takePrefix (call : Call) (st : StreamState P) : StreamState P :=
  if call.isRequestDir then { st with h2Prefix := st.h2Prefix.erase call.key } else st

/-- Bytes of the direction are missing: forget what it had. -/
def cutOff (call : Call) (st : StreamState P) : StreamState P :=
  { st with
    buffers := st.buffers.erase call.streamKey
    h1Decoders := st.h1Decoders.erase call.streamKey
    gappedStreams := insert call.streamKey st.gappedStreams }

/-- From the truncation check on. -/
def deliver (C : Config) (call : Call) (payload : Bytes) (st : StreamState P) :
    Act (StreamState P × List TrafficEvent) :=
  if !call.ev.isTruncated then
    (st.takePrefix call).dispatch C call (st.joinPrefix call payload)
  else do
    count .captureGaps 1
    match st.http2State.get? call.key with
    | some conn => do
        Prog.releaseAll conn.held
        pure ({ st with http2State := st.http2State.erase call.key }, [])
    | none => do
        releaseMemory (st.bufferOf call.streamKey).length
        ((st.cutOff call).takePrefix call).dispatch C call (st.joinPrefix call payload)

/-! ## Connections -/

/-- The connection key `handle_event` computes. -/
def connKey (env : Env) (ev : TlsEventHeader) (st : StreamState P) : ConnKey :=
  .fromEvent ev ((st.connBornMs.get? ev.identity).getD env.now)

/-- `conn_born_ms.entry(..).or_insert(ts_ms)`. -/
def bear (env : Env) (ev : TlsEventHeader) (st : StreamState P) : StreamState P :=
  if st.connBornMs.contains ev.identity then st
  else { st with connBornMs := st.connBornMs.insert ev.identity env.now }

/-- Track an active connection. -/
def know (key : ConnKey) (st : StreamState P) : Act (StreamState P) :=
  if key ∈ st.knownConnections then pure st
  else do
    count .connectionsOpened 1
    pure { st with knownConnections := insert key st.knownConnections }

/-- `request_direction`: the direction that carries requests, frozen once inferred. -/
def requestDirection (C : Config) (key : ConnKey) (ev : TlsEventHeader) (payload : Bytes)
    (st : StreamState P) : Option UInt8 :=
  match C.role with
  | .server => some 0
  | .client => some 1
  | .auto =>
    (st.connRoles.get? key).or (inferRequestDirection ev.direction ev.roleHint payload)

/-- The roles after `request_direction`. -/
def freezeRole (C : Config) (key : ConnKey) (ev : TlsEventHeader) (payload : Bytes)
    (st : StreamState P) : StreamState P :=
  if C.role = .auto && !st.connRoles.contains key && st.connRoles.size < maxStreamEntries then
    match inferRequestDirection ev.direction ev.roleHint payload with
    | some dir => { st with connRoles := st.connRoles.insert key dir }
    | none => st
  else st

/-- From the role of the direction on. -/
def receive (C : Config) (env : Env) (ev : TlsEventHeader) (payload : Bytes) (key : ConnKey)
    (st : StreamState P) : Act (StreamState P × List TrafficEvent) :=
  match st.requestDirection C key ev payload with
  | some dir =>
    (st.freezeRole C key ev payload).deliver C ⟨env, ev, key, ev.direction = dir⟩ payload
  | none =>
    -- server SETTINGS can precede the client preface
    if looksLikeH2ConnectionFrames payload then st.deliver C ⟨env, ev, key, false⟩ payload
    else do
      count .roleAmbiguous 1
      pure (st, [])

def handleEvent (C : Config) (env : Env) (ev : TlsEventHeader) (payload : Bytes)
    (st : StreamState P) : Act (StreamState P × List TrafficEvent) := do
  let allowed ← scopeAllows C env
  if !allowed then pure (st, [])
  else
    let key := st.connKey env ev
    let (st, swept) ← (st.bear env ev).evictStale C env.now
    let st ← st.know key
    let (st, events) ← st.receive C env ev payload key
    pure (st, swept ++ events)

end StreamState

end ApiSensor
