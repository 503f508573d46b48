import ApiSensor.Pending
import Mathlib.Data.Finset.Basic

/-!
# The stream state and its eviction

`StreamState` of `stream.rs` with the operations that only give things up: the periodic eviction
pass, the eviction of a closed connection, and the drain at shutdown.  None of them reserves
memory, so each is a pure change of the state together with the amounts it releases.
-/

namespace ApiSensor

open Library

/-- The fields of `StreamState` that are set once. -/
structure Config where
  accountId : Nat
  role : TrafficRole
  maxBuffer : Nat
  maxTotalBufferBytes : Nat
  namespaceScope : Option (List Str)

structure StreamState (P : Platform) where
  buffers : Dict StreamKey (Bytes × Nat)
  pending : Dict ConnKey (PendingQueue P)
  http2State : Dict ConnKey (Http2Conn P)
  h2EarlyResp : Dict ConnKey EarlyResp
  http3Connections : Finset ConnKey
  wsConnections : Finset ConnKey
  knownConnections : Finset ConnKey
  connBornMs : Dict ConnIdentity Nat
  connRoles : Dict ConnKey UInt8
  gappedStreams : Finset StreamKey
  h1Decoders : Dict StreamKey Http1Decoder
  h2Prefix : Dict ConnKey Bytes
  wsRemaining : Dict StreamKey Nat
  lastEvictionMs : Nat

namespace StreamState

variable {P : Platform}

def new : StreamState P where
  buffers := .empty
  pending := .empty
  http2State := .empty
  h2EarlyResp := .empty
  http3Connections := ∅
  wsConnections := ∅
  knownConnections := ∅
  connBornMs := .empty
  connRoles := .empty
  gappedStreams := ∅
  h1Decoders := .empty
  h2Prefix := .empty
  wsRemaining := .empty
  lastEvictionMs := 0

/-! ## Partial transactions -/

def maxIncompletePerSweep : Nat := 1024

/-- A request that leaves unanswered, with the label of its protocol. -/
abbrev Unanswered := ParsedRequest × Protocol

def buildIncompleteEvent (accountId : Nat) (req : ParsedRequest) (protocol : Protocol)
    (outcome : Str) : TrafficEvent where
  accountId := accountId
  observedAt := req.tsMs
  request := req
  response := ⟨0, .empty, []⟩
  latencyMs := none
  protocol := protocol
  outcome := some outcome

/-- `incomplete_events`: the first requests become events, the others are only counted as dropped.
Adding zero to a counter stands for not adding. -/
def incompleteEvents (C : Config) (reqs : List Unanswered) (outcome : Str) :
    Act (List TrafficEvent) := do
  let out := (reqs.take maxIncompletePerSweep).map fun (req, protocol) =>
    buildIncompleteEvent C.accountId req protocol outcome
  count .transactionsIncomplete out.length
  note (.unreported ((reqs.drop maxIncompletePerSweep).map Prod.fst))
  pure out

/-- The label of requests queued on a connection. -/
def queueProtocol (st : StreamState P) (key : ConnKey) : Protocol :=
  if key ∈ st.http3Connections then .http3 else .http1

/-! ## The eviction pass -/

/-- Whether something was last seen less than `STREAM_TTL_MS` ago. -/
def fresh (nowMs seenMs : Nat) : Bool := nowMs - seenMs < streamTtlMs

/-- Requests at the front of the HTTP/1 and HTTP/3 queues that have expired. -/
def expiredQueued (st : StreamState P) (nowMs : Nat) : List Unanswered :=
  st.pending.entries.flatMap fun (key, queue) =>
    (queue.expireTake nowMs streamTtlMs).1.map (·, st.queueProtocol key)

end StreamState

/-- Outcome of expiry inside one HTTP/2 connection. -/
structure Http2Expiry (P : Platform) where
  /-- Requests that leave. -/
  taken : List ParsedRequest
  /-- Charges of the responses that leave. -/
  charges : List Nat
  /-- The connection afterwards. -/
  conn : Http2Conn P

/-- A connection whose requests have been taken. -/
def Http2Conn.emptied {P : Platform} (conn : Http2Conn P) : Http2Conn P :=
  { conn with pendingRequests := (PendingStreams.takeAll conn.pendingRequests).2 }

/-- What the requests and responses that leave hand back. -/
def Http2Expiry.released {P : Platform} (expiry : Http2Expiry P) : List Nat :=
  expiry.taken.map (ParsedRequest.approxBytes P) ++ expiry.charges

/-- Requests taken off a connection by expiry, all of them if it is idle, and those left. -/
def Http2Conn.expireRequests {P : Platform} (conn : Http2Conn P) (nowMs : Nat) :
    List ParsedRequest × PendingStreams P :=
  if StreamState.fresh nowMs conn.lastEventTs then
    PendingStreams.expireTake conn.pendingRequests nowMs streamTtlMs
  else PendingStreams.takeAll conn.pendingRequests

/-- Expire requests, and the responses that lost theirs. -/
def Http2Conn.expireStale {P : Platform} (conn : Http2Conn P) (nowMs : Nat) : Http2Expiry P :=
  let requests := conn.expireRequests nowMs
  let responses := InflightResponses.expire conn.responses requests.2
  ⟨requests.1, responses.1,
    { conn with pendingRequests := requests.2, responses := responses.2 }⟩

namespace StreamState

variable {P : Platform}

/-- Requests that expire inside HTTP/2 connections. -/
def expiredStreams (st : StreamState P) (nowMs : Nat) : List Unanswered :=
  st.http2State.values.flatMap fun conn => (conn.expireStale nowMs).taken.map (·, .http2)

/-- Responses that expire inside HTTP/2 connections. -/
def expiredResponses (st : StreamState P) (nowMs : Nat) : Nat :=
  (st.http2State.values.map fun conn => (conn.expireStale nowMs).charges.length).sum

/-- The HTTP/2 connections after expiry, before idle ones are dropped. -/
def expiredHttp2 (st : StreamState P) (nowMs : Nat) : Dict ConnKey (Http2Conn P) :=
  st.http2State.mapValues fun _ conn => (conn.expireStale nowMs).conn

/-- Every map after its own expiry, before the limits on their sizes apply. -/
def expire (st : StreamState P) (nowMs : Nat) : StreamState P :=
  { st with
    lastEvictionMs := nowMs
    buffers := st.buffers.retain fun _ buffer => fresh nowMs buffer.2
    pending := (st.pending.mapValues fun _ queue =>
      (queue.expireTake nowMs streamTtlMs).2).retain fun _ queue => !queue.isEmpty
    http2State := (st.expiredHttp2 nowMs).retain fun _ conn => fresh nowMs conn.lastEventTs
    h2EarlyResp := st.h2EarlyResp.retain fun _ early => fresh nowMs early.seenMs }

/-- Drop the oldest entries of maps that have grown over `MAX_STREAM_ENTRIES`. -/
def trim (st : StreamState P) : StreamState P :=
  let oldBuffers := st.buffers.excess Prod.snd maxStreamEntries
  let oldConns := st.http2State.excess Http2Conn.lastEventTs maxStreamEntries
  { st with
    buffers := st.buffers.retain fun key _ => key ∉ oldBuffers
    http2State := st.http2State.retain fun key _ => key ∉ oldConns }

/-- The HTTP/2 connections that `trim` drops. -/
def trimmedConns (st : StreamState P) : List (Http2Conn P) :=
  (st.http2State.retain fun key _ =>
    key ∈ st.http2State.excess Http2Conn.lastEventTs maxStreamEntries).values

/-- `still_active`: one of the maps that keep a connection known mentions it. -/
def stillActive (st : StreamState P) (key : ConnKey) : Bool :=
  st.pending.contains key || st.http2State.contains key ||
    key ∈ st.wsConnections || key ∈ st.http3Connections

/-- Forget the connections that are not active, and what only they used. -/
def forgetInactive (st : StreamState P) : StreamState P :=
  let known := st.knownConnections.filter fun key => st.stillActive key
  let ws := st.wsConnections.filter (· ∈ known)
  { st with
    knownConnections := known
    connBornMs := st.connBornMs.retain fun identity _ =>
      ∀ key ∈ st.knownConnections, key.identity = identity → st.stillActive key
    wsConnections := ws
    http3Connections := st.http3Connections.filter (· ∈ known)
    connRoles := st.connRoles.retain fun key _ => key ∈ known
    gappedStreams := if maxStreamEntries < st.gappedStreams.card then ∅ else st.gappedStreams
    h1Decoders := st.h1Decoders.retain fun key _ => st.buffers.contains key
    h2Prefix := st.h2Prefix.retain fun key _ => key ∈ known
    wsRemaining := st.wsRemaining.retain fun key _ => ∃ conn ∈ ws, conn.identity = key.identity }

/-- Bytes of all HTTP/1 stream buffers. -/
def bufferBytes (st : StreamState P) : Nat := st.buffers.total fun _ buffer => buffer.1.length

/-- The state after an eviction pass. -/
def evicted (st : StreamState P) (nowMs : Nat) : StreamState P :=
  (st.expire nowMs).trim.forgetInactive

/-- The body of `evict_stale` behind its gate. -/
def evictionPass (C : Config) (st : StreamState P) (nowMs : Nat) :
    Act (StreamState P × List TrafficEvent) := do
  let unanswered := st.expiredQueued nowMs ++ st.expiredStreams nowMs
  releaseRequests P ((st.expiredQueued nowMs).map Prod.fst)
  Prog.releaseAll (st.http2State.values.flatMap fun conn => (conn.expireStale nowMs).released)
  let idle := (st.expiredHttp2 nowMs).retain fun _ conn => !fresh nowMs conn.lastEventTs
  Prog.releaseAll (idle.values.flatMap Http2Conn.held)
  let stale := st.h2EarlyResp.retain fun _ early => !fresh nowMs early.seenMs
  Prog.releaseAll (stale.values.map EarlyResp.charge)
  count .pendingExpired (st.expiredResponses nowMs + unanswered.length)
  let incomplete ← incompleteEvents C unanswered (str "no_response_observed")
  Prog.releaseAll ((st.expire nowMs).trimmedConns.flatMap Http2Conn.held)
  releaseMemory (st.bufferBytes - (st.expire nowMs).trim.bufferBytes)
  count .connectionsClosed
    (st.knownConnections.card - (st.evicted nowMs).knownConnections.card)
  pure (st.evicted nowMs, incomplete)

def evictStale (C : Config) (st : StreamState P) (nowMs : Nat) :
    Act (StreamState P × List TrafficEvent) :=
  if nowMs - st.lastEvictionMs < 10000 then pure (st, []) else st.evictionPass C nowMs

/-! ## Close and shutdown -/

/-- Which keys a close matches: one incarnation, or every incarnation of the pointer when the
record carries no identity. -/
def hit (closed : ConnKey) (identity : ConnIdentity) : Bool :=
  identity.pid = closed.pid && identity.sslPtr = closed.sslPtr &&
    (!(closed.procStartNs ≠ 0 || closed.generation ≠ 0) ||
      (identity.procStartNs = closed.procStartNs && identity.generation = closed.generation))

/-- Requests queued on connections selected by a test, all protocols. -/
def waiting (st : StreamState P) (selected : ConnKey → Bool) : List Unanswered :=
  ((st.pending.retain fun key _ => selected key).entries.flatMap fun (key, queue) =>
    queue.takeAll.1.map (·, st.queueProtocol key)) ++
  ((st.http2State.retain fun key _ => selected key).values.flatMap fun conn =>
    (PendingStreams.takeAll conn.pendingRequests).1.map (·, .http2))

/-- The state without anything that belongs to a closed connection. -/
def closed (st : StreamState P) (key : ConnKey) : StreamState P :=
  let keepConn : ConnKey → Bool := fun other => !hit key other.identity
  let keepStream : StreamKey → Bool := fun other => !hit key other.identity
  { st with
    buffers := st.buffers.retain fun other _ => keepStream other
    gappedStreams := st.gappedStreams.filter fun other => keepStream other
    h1Decoders := st.h1Decoders.retain fun other _ => keepStream other
    wsRemaining := st.wsRemaining.retain fun other _ => keepStream other
    pending := st.pending.retain fun other _ => keepConn other
    http2State := st.http2State.retain fun other _ => keepConn other
    h2EarlyResp := st.h2EarlyResp.retain fun other _ => keepConn other
    wsConnections := st.wsConnections.filter fun other => keepConn other
    http3Connections := st.http3Connections.filter fun other => keepConn other
    connRoles := st.connRoles.retain fun other _ => keepConn other
    h2Prefix := st.h2Prefix.retain fun other _ => keepConn other
    knownConnections := st.knownConnections.filter fun other => keepConn other
    connBornMs := st.connBornMs.retain fun identity _ => !hit key identity }

def evictConnectionByPtr (C : Config) (st : StreamState P) (key : ConnKey) :
    Act (StreamState P × List TrafficEvent) := do
  let selected : ConnKey → Bool := fun other => hit key other.identity
  let unanswered := st.waiting selected
  releaseRequests P (unanswered.map Prod.fst)
  let incomplete ← incompleteEvents C unanswered (str "connection_closed")
  let conns := st.http2State.retain fun other _ => selected other
  Prog.releaseAll (conns.values.flatMap fun conn => conn.emptied.held)
  Prog.releaseAll ((st.h2EarlyResp.retain fun other _ => selected other).values.map
    EarlyResp.charge)
  count .connectionsClosed (st.knownConnections.card - (st.closed key).knownConnections.card)
  releaseMemory (st.bufferBytes - (st.closed key).bufferBytes)
  pure (st.closed key, incomplete)

/-- The state after the drain at shutdown. -/
def drained (st : StreamState P) : StreamState P :=
  { st with
    pending := .empty
    http2State := st.http2State.mapValues fun _ conn => conn.emptied }

def takeAllIncomplete (C : Config) (st : StreamState P) (outcome : Str) :
    Act (StreamState P × List TrafficEvent) := do
  let reqs := st.waiting fun _ => true
  releaseRequests P (reqs.map Prod.fst)
  let incomplete ← incompleteEvents C reqs outcome
  pure (st.drained, incomplete)

end StreamState

end ApiSensor
