import ApiSensor.Http1
import ApiSensor.Http2

/-!
# Charged containers

The queues of `stream.rs` whose bytes count against the memory ceiling.  Each container carries the
proof that the amount it has charged is the size of what it holds, so that the cap in
`PendingBytes::sub` never binds.  What the source does in `Drop` is written out as `release` where
a container is given up.
-/

namespace ApiSensor

open Library

def maxPendingPerConn : Nat := 100

def maxH2PendingStreams : Nat := 200

/-- `PendingBytes::sub`: the amount handed back is at most what is held. -/
def subAmount (held amount : Nat) : Nat := min amount held

/-- Approximate size of several requests. -/
def requestBytes (P : Platform) (reqs : List ParsedRequest) : Nat :=
  (reqs.map (ParsedRequest.approxBytes P)).sum

theorem requestBytes_nil (P : Platform) : requestBytes P [] = 0 := rfl

theorem requestBytes_append (P : Platform) (first second : List ParsedRequest) :
    requestBytes P (first ++ second) = requestBytes P first + requestBytes P second := by
  simp [requestBytes]

/-- Hand back the bytes of requests that leave a container, one by one. -/
def releaseRequests (P : Platform) (reqs : List ParsedRequest) : Act Unit :=
  .releaseAll (reqs.map (ParsedRequest.approxBytes P))

/-- A request as it is queued: only the captured part of the body is retained. -/
def ParsedRequest.capped (req : ParsedRequest) : ParsedRequest :=
  { req with body := req.body.take maxBodyCaptureBytes }

/-- No response was seen for `ttlMs`. -/
def ParsedRequest.expired (nowMs ttlMs : Nat) (req : ParsedRequest) : Bool :=
  ttlMs ≤ nowMs - req.tsMs

/-- A request that `pop_usable` passes over. -/
def ParsedRequest.unusable (req : ParsedRequest) : Bool := !isUsableHttpRequest req.method req.path

/-- A request is turned away: count it as dropped. -/
def refuse {α : Type} (req : ParsedRequest) (result : α) : Act α := do
  count .eventsDropped 1
  note (.refused req)
  pure result

/-- Hand back the bytes of the entry under a key, if there is one. -/
def releaseAt {κ ν : Type} {weight : ν → Nat} [DecidableEq κ] (charged : Charged κ weight)
    (key : κ) : Act Unit :=
  match charged.map.get? key with
  | none => pure ()
  | some value => releaseMemory (subAmount charged.bytes (weight value))

/-! ## HTTP/1 requests -/

structure PendingQueue (P : Platform) where
  items : List ParsedRequest
  bytes : Nat
  /-- The charge is the size of the queue. -/
  accounted : bytes = requestBytes P items

namespace PendingQueue

variable {P : Platform}

def empty : PendingQueue P := ⟨[], 0, (requestBytes_nil P).symm⟩

def isEmpty (queue : PendingQueue P) : Bool := queue.items.isEmpty

def frontIsHeadOrConnect (queue : PendingQueue P) : Bool × Bool :=
  match queue.items with
  | [] => (false, false)
  | req :: _ => (req.method = str "HEAD", req.method = str "CONNECT")

def push (queue : PendingQueue P) (req : ParsedRequest) (maxTotal : Nat) :
    Act (Bool × PendingQueue P) :=
  let req := req.capped
  let size := req.approxBytes P
  if maxPendingPerConn ≤ queue.items.length then refuse req (false, queue)
  else do
    let granted ← reserveMemory maxTotal size
    if granted then
      note (.accepted req)
      pure (true, ⟨queue.items ++ [req], queue.bytes + size, by
        simp [queue.accounted, requestBytes, size]⟩)
    else refuse req (false, queue)

/-- The loop of `pop_usable`. -/
def popUsableFrom : (items : List ParsedRequest) → (bytes : Nat) → bytes = requestBytes P items →
    Act (Option ParsedRequest × PendingQueue P)
  | [], bytes, accounted => pure (none, ⟨[], bytes, accounted⟩)
  | req :: rest, bytes, accounted =>
    let amount := subAmount bytes (req.approxBytes P)
    have left : bytes - amount = requestBytes P rest := by
      simp only [requestBytes, List.map_cons, List.sum_cons] at accounted ⊢
      simp only [amount, subAmount]
      omega
    do
      releaseMemory amount
      if isUsableHttpRequest req.method req.path then
        pure (some req, ⟨rest, bytes - amount, left⟩)
      else popUsableFrom rest (bytes - amount) left

def popUsable (queue : PendingQueue P) : Act (Option ParsedRequest × PendingQueue P) :=
  popUsableFrom queue.items queue.bytes queue.accounted

/-- `expire_take`: the expired requests at the front, and the queue without them.  The caller
hands their bytes back. -/
def expireTake (queue : PendingQueue P) (nowMs ttlMs : Nat) :
    List ParsedRequest × PendingQueue P :=
  let taken := queue.items.takeWhile (ParsedRequest.expired nowMs ttlMs)
  (taken,
    { items := queue.items.dropWhile (ParsedRequest.expired nowMs ttlMs)
      bytes := queue.bytes - requestBytes P taken
      accounted := by
        have split := requestBytes_append P taken
          (queue.items.dropWhile (ParsedRequest.expired nowMs ttlMs))
        rw [List.takeWhile_append_dropWhile] at split
        rw [queue.accounted, split, Nat.add_sub_cancel_left] })

def takeAll (queue : PendingQueue P) : List ParsedRequest × PendingQueue P :=
  queue.expireTake (2 ^ 64 - 1) 0

end PendingQueue

/-! ## HTTP/2 requests -/

/-- `PendingStreams`: requests by stream, with the size they are charged for. -/
abbrev PendingStreams (P : Platform) := Charged UInt32 (ParsedRequest.approxBytes P)

namespace PendingStreams

variable {P : Platform}

def contains (streams : PendingStreams P) (streamId : UInt32) : Bool :=
  streams.map.contains streamId

def ids (streams : PendingStreams P) : List UInt32 := streams.map.keys

def remove (streams : PendingStreams P) (streamId : UInt32) :
    Act (Option ParsedRequest × PendingStreams P) := do
  releaseAt streams streamId
  pure (streams.map.get? streamId, streams.without streamId)

/-- The effects of removing a request that leaves because its stream does. -/
def cancel (streams : PendingStreams P) (streamId : UInt32) : Act Unit := do
  releaseAt streams streamId
  match streams.map.get? streamId with
  | none => pure ()
  | some req => note (.cancelled req)

/-- Store a request on a stream that holds none. -/
def insertNew (streams : PendingStreams P) (streamId : UInt32) (req : ParsedRequest)
    (maxTotal cap : Nat) (free : streams.weightAt streamId = 0) :
    Act (Bool × PendingStreams P) :=
  if cap ≤ streams.map.size then refuse req (false, streams)
  else do
    let granted ← reserveMemory maxTotal (req.approxBytes P)
    if granted then
      note (.accepted req)
      pure (true, streams.put streamId req (req.approxBytes P) (by rw [free, Nat.zero_add]))
    else refuse req (false, streams)

def insert (streams : PendingStreams P) (streamId : UInt32) (req : ParsedRequest)
    (maxTotal cap : Nat) : Act (Bool × PendingStreams P) := do
  cancel streams streamId
  insertNew (streams.without streamId) streamId req.capped maxTotal cap
    (streams.weightAt_without streamId)

def appendBody (streams : PendingStreams P) (streamId : UInt32) (data : Bytes)
    (maxTotal : Nat) : Act (Bool × PendingStreams P) :=
  match found : streams.map.get? streamId with
  | none => pure (false, streams)
  | some req =>
    let taken := data.take (maxBodyCaptureBytes - req.body.length)
    if taken.isEmpty then pure (true, streams)
    else do
      let granted ← reserveMemory maxTotal taken.length
      if granted then
        pure (true, streams.put streamId { req with body := req.body ++ taken } taken.length (by
          simp only [Charged.weightAt, found, Option.elim_some, ParsedRequest.approxBytes,
            List.length_append]
          omega))
      else pure (true, streams)

/-- `expire_take`: the expired requests in the order of their streams, and the streams without
them.  The caller hands their bytes back. -/
def expireTake (streams : PendingStreams P) (nowMs ttlMs : Nat) :
    List ParsedRequest × PendingStreams P :=
  let stale := streams.map.retain fun _ req => req.expired nowMs ttlMs
  ((stale.entries.insertionSort fun first second => first.1 ≤ second.1).map Prod.snd,
    streams.retain fun _ req => !req.expired nowMs ttlMs)

def takeAll (streams : PendingStreams P) : List ParsedRequest × PendingStreams P :=
  expireTake streams (2 ^ 64 - 1) 0

end PendingStreams

/-! ## HTTP/2 responses -/

/-- `InflightResponse::size_of`. -/
def inflightSize (headers : Headers) (bodyLen : Nat) : Nat := 256 + headerBytes 64 headers + bodyLen

structure InflightResponse where
  headers : Headers
  body : Bytes
  charged : Nat
  /-- The charge covers the response; a trailer that replaces a field is charged on top. -/
  covers : inflightSize headers body.length ≤ charged

namespace InflightResponse

/-- Add a trailer field, charged in full. -/
def addField (resp : InflightResponse) (name value : Str) : InflightResponse where
  headers := resp.headers.insert name value
  body := resp.body
  charged := resp.charged + (strLen name + strLen value + 64)
  covers := by
    have inserted := Dict.total_insert
      (fun name value => strLen name + strLen value + 64) resp.headers name value
    have covers := resp.covers
    simp only [inflightSize, headerBytes] at covers ⊢
    omega

/-- Add body bytes. -/
def addBody (resp : InflightResponse) (more : Bytes) : InflightResponse where
  headers := resp.headers
  body := resp.body ++ more
  charged := resp.charged + more.length
  covers := by
    have covers := resp.covers
    simp only [inflightSize, List.length_append] at covers ⊢
    omega

end InflightResponse

/-- `InflightResponses`: responses by stream, with what they are charged for. -/
abbrev InflightResponses := Charged UInt32 InflightResponse.charged

namespace InflightResponses

def take (responses : InflightResponses) (streamId : UInt32) :
    Act (Option (Headers × Bytes) × InflightResponses) := do
  releaseAt responses streamId
  pure ((responses.map.get? streamId).map fun resp => (resp.headers, resp.body),
    responses.without streamId)

/-- Store a response on a stream that holds none. -/
def startNew (responses : InflightResponses) (streamId : UInt32) (headers : Headers)
    (maxTotal cap : Nat) (free : responses.weightAt streamId = 0) :
    Act (Bool × InflightResponses) :=
  let charged := inflightSize headers 0
  if cap ≤ responses.map.size then do
    count .eventsDropped 1
    pure (false, responses)
  else do
    let granted ← reserveMemory maxTotal charged
    if granted then
      pure (true, responses.put streamId ⟨headers, [], charged, Nat.le_refl _⟩ charged
        (by rw [free, Nat.zero_add]))
    else
      count .eventsDropped 1
      pure (false, responses)

def start (responses : InflightResponses) (streamId : UInt32) (headers : Headers)
    (maxTotal cap : Nat) : Act (Bool × InflightResponses) := do
  releaseAt responses streamId
  startNew (responses.without streamId) streamId headers maxTotal cap
    (responses.weightAt_without streamId)

def append (responses : InflightResponses) (streamId : UInt32) (data : Bytes) (maxTotal : Nat) :
    Act (Bool × InflightResponses) :=
  match found : responses.map.get? streamId with
  | none => pure (false, responses)
  | some resp =>
    let taken := data.take (maxBodyCaptureBytes - resp.body.length)
    if taken.isEmpty then pure (true, responses)
    else do
      let granted ← reserveMemory maxTotal taken.length
      if granted then
        pure (true, responses.put streamId (resp.addBody taken) taken.length
          (by simp [Charged.weightAt, found, InflightResponse.addBody]))
      else pure (true, responses)

/-- Add one trailer field to the response on a stream. -/
def mergeField (responses : InflightResponses) (streamId : UInt32) (name value : Str)
    (maxTotal : Nat) : Act InflightResponses :=
  match found : responses.map.get? streamId with
  | none => pure responses
  | some resp => do
      let extra := strLen name + strLen value + 64
      let granted ← reserveMemory maxTotal extra
      if granted then
        pure (responses.put streamId (resp.addField name value) extra
          (by simp [Charged.weightAt, found, InflightResponse.addField, extra]))
      else pure responses

/-- The loop of `merge_trailers`. -/
def mergeFields (streamId : UInt32) (maxTotal : Nat) :
    List (Str × Str) → InflightResponses → Act InflightResponses
  | [], responses => pure responses
  | (name, value) :: fields, responses => do
      let responses ← mergeField responses streamId name value maxTotal
      mergeFields streamId maxTotal fields responses

def mergeTrailers (responses : InflightResponses) (streamId : UInt32) (trailers : Headers)
    (maxTotal : Nat) : Act (Bool × InflightResponses) :=
  if responses.map.contains streamId then do
    let responses ← mergeFields streamId maxTotal trailers.entries responses
    pure (true, responses)
  else pure (false, responses)

/-- `expire`: the responses whose request is still pending, and the charges of the others, which
the caller hands back. -/
def expire {P : Platform} (responses : InflightResponses) (live : PendingStreams P) :
    List Nat × InflightResponses :=
  ((responses.map.retain fun streamId _ => !live.contains streamId).values.map
      InflightResponse.charged,
    responses.retain fun streamId _ => live.contains streamId)

end InflightResponses

/-! ## Connections and early frames -/

def maxH2EarlyBytes : Nat := 8192

def maxH2EarlyConns : Nat := 1024

structure EarlyResp where
  data : Bytes
  seenMs : Nat
  charge : Nat
  /-- Every held byte is charged. -/
  accounted : charge = data.length

/-- Hold more frames. -/
def EarlyResp.append (early : EarlyResp) (more : Bytes) : EarlyResp where
  data := early.data ++ more
  seenMs := early.seenMs
  charge := early.charge + more.length
  accounted := by rw [early.accounted, List.length_append]

structure Http2Conn (P : Platform) where
  req : Http2Direction P
  resp : Http2Direction P
  pendingRequests : PendingStreams P
  responses : InflightResponses
  lastEventTs : Nat
  buffered : Nat
  /-- What both directions hold is charged. -/
  accounted : buffered = req.buffered + resp.buffered

namespace Http2Conn

variable {P : Platform}

theorem buffered_new (P : Platform) :
    0 = (Http2Direction.new true : Http2Direction P).buffered +
      (Http2Direction.new false : Http2Direction P).buffered := rfl

def new : Http2Conn P := ⟨.new true, .new false, .empty, .empty, 0, 0, buffered_new P⟩

/-- What dropping the connection hands back, field by field. -/
def held (conn : Http2Conn P) : List Nat :=
  [conn.pendingRequests.bytes, conn.responses.bytes, conn.buffered]

/-- Bytes the connection has charged. -/
def charge (conn : Http2Conn P) : Nat := conn.held.sum

end Http2Conn

end ApiSensor
