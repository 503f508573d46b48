import ApiSensor.Multiplexing.Requests

/-!
# GOAWAY

The last stream that a GOAWAY names is one that its receiver opened.  From the server it bounds the
requests of the client; from the client it bounds pushed streams and says nothing about requests.
`process_http2_event` treats both alike.
-/

namespace ApiSensor

open Library Library.Prog

variable {P : Platform} {C : Config}

/-- A GOAWAY outside a header block is handed on, whatever follows the last stream. -/
theorem Http2Direction.onFrame_goAway {dir : Http2Direction P} (closed : dir.continuation = none)
    (flags : UInt8) {payload : Bytes} (complete : 8 ≤ payload.length) :
    dir.onFrame 0x07 flags 0 payload = (dir, [.goAway (streamIdOf (payload.take 4))]) := by
  have long : ¬ payload.length < 8 := Nat.not_lt.mpr complete
  simp [onFrame, closed, long]

namespace Http2Conn

/-- The connection without some streams. -/
def withoutStreams (gone : UInt32 → Bool) (conn : Http2Conn P) : Http2Conn P :=
  { conn with
    pendingRequests := conn.pendingRequests.retain fun streamId _ => !gone streamId
    responses := conn.responses.retain fun streamId _ => !gone streamId }

section

variable (streamId : UInt32) (streamIds : List UInt32) (conn : Http2Conn P)

theorem withoutStreams_of_none : conn.withoutStreams (fun _ => false) = conn := by
  have requests : (conn.pendingRequests.retain fun _ _ => !false) = conn.pendingRequests :=
    Charged.retain_eq_self_iff.mpr fun _ _ => rfl
  have responses : (conn.responses.retain fun _ _ => !false) = conn.responses :=
    Charged.retain_eq_self_iff.mpr fun _ _ => rfl
  rw [withoutStreams, requests, responses]

theorem withoutStreams_cons :
    withoutStreams (streamIds.contains ·) { conn with
        pendingRequests := conn.pendingRequests.without streamId
        responses := conn.responses.without streamId } =
      conn.withoutStreams ((streamId :: streamIds).contains ·) := by
  have test : ∀ other, (decide (other ≠ streamId) && !streamIds.contains other) =
      !(streamId :: streamIds).contains other := by
    intro other
    simp
  simp only [withoutStreams, Charged.without_eq_retain, Charged.retain_retain, test]

theorem every_resetStream_eq (streamId : UInt32) :
    Every (conn.resetStream streamId) fun _ after => after = { conn with
      pendingRequests := conn.pendingRequests.without streamId
      responses := conn.responses.without streamId } := by
  refine (InflightResponses.every_take conn.responses streamId).bind ?_
  rintro _ _ ⟨rfl, rfl⟩
  refine (PendingStreams.every_cancel conn.pendingRequests streamId).bind ?_
  rintro _ _ rfl
  exact every_pure.mpr rfl

theorem every_resetStreams_eq :
    Every (resetStreams streamIds conn) fun _ after =>
      after = conn.withoutStreams (streamIds.contains ·) := by
  induction streamIds generalizing conn with
  | nil => exact every_pure.mpr conn.withoutStreams_of_none.symm
  | cons streamId streamIds ih =>
    refine (every_resetStream_eq conn streamId).bind ?_
    rintro _ _ rfl
    rw [← withoutStreams_cons]
    exact ih _

end

/-- The stream has a pending request and lies above the last one that the frame names. -/
def beyond (conn : Http2Conn P) (lastStreamId streamId : UInt32) : Bool :=
  PendingStreams.contains conn.pendingRequests streamId && decide (lastStreamId < streamId)

theorem contains_dropped (conn : Http2Conn P) (lastStreamId streamId : UInt32) :
    ((PendingStreams.ids conn.pendingRequests).filter (lastStreamId < ·)).contains streamId =
      conn.beyond lastStreamId streamId := by
  have listed : streamId ∈ PendingStreams.ids conn.pendingRequests ↔
      PendingStreams.contains conn.pendingRequests streamId = true :=
    Dict.mem_keys_iff
  rw [Bool.eq_iff_iff, List.contains_iff_mem, List.mem_filter, listed, beyond,
    Bool.and_eq_true]

/-- What a GOAWAY does, whoever sends it: streams beyond the last one lose their request and what
there is of its response. -/
theorem every_goAway_eq (call : Call) (conn : Http2Conn P) (lastStreamId : UInt32) :
    Every (conn.onItem C call (.goAway lastStreamId)) fun _ result =>
      result = (conn.withoutStreams (conn.beyond lastStreamId), []) := by
  refine (every_resetStreams_eq _ conn).bind ?_
  rintro _ _ rfl
  refine every_pure.mpr ?_
  simp only [contains_dropped]

/-- What a GOAWAY has to do.  From the client it leaves requests and responses as they are; from the
server it removes the requests above the last stream and nothing else. -/
def GoAwayHonoured (call : Call) (lastStreamId : UInt32) (conn after : Http2Conn P) : Prop :=
  if call.isRequestDir then
    after.pendingRequests = conn.pendingRequests ∧ after.responses = conn.responses
  else
    after = { conn with
      pendingRequests := conn.pendingRequests.retain fun streamId _ =>
        !decide (lastStreamId < streamId) }

theorem goAwayHonoured_client {call : Call} (client : call.isRequestDir = true)
    (lastStreamId : UInt32) (conn : Http2Conn P) :
    GoAwayHonoured call lastStreamId conn (conn.withoutStreams (conn.beyond lastStreamId)) ↔
      ∀ streamId, conn.beyond lastStreamId streamId = false := by
  rw [GoAwayHonoured, if_pos client]
  constructor
  · rintro ⟨requests, -⟩ streamId
    have kept := Charged.retain_eq_self_iff.mp requests streamId
    by_contra above
    have waits := (Bool.and_eq_true_iff.mp (Bool.eq_true_of_not_eq_false above)).1
    exact above (by simpa using kept waits)
  · intro none_above
    have unchanged : conn.withoutStreams (conn.beyond lastStreamId) = conn := by
      rw [show conn.beyond lastStreamId = fun _ => false from funext none_above]
      exact conn.withoutStreams_of_none
    rw [unchanged]
    exact ⟨rfl, rfl⟩

theorem goAwayHonoured_server {call : Call} (server : call.isRequestDir = false)
    (lastStreamId : UInt32) (conn : Http2Conn P) :
    GoAwayHonoured call lastStreamId conn (conn.withoutStreams (conn.beyond lastStreamId)) ↔
      ∀ streamId, conn.beyond lastStreamId streamId = true →
        conn.responses.map.contains streamId = false := by
  -- among the pending requests, those beyond the last stream are those above it
  have requests : (conn.pendingRequests.retain fun streamId _ =>
      !conn.beyond lastStreamId streamId) = conn.pendingRequests.retain fun streamId _ =>
        !decide (lastStreamId < streamId) := by
    apply Charged.retain_congr
    intro streamId waits
    have waits : PendingStreams.contains conn.pendingRequests streamId = true := waits
    rw [beyond, waits, Bool.true_and]
  rw [GoAwayHonoured, if_neg (by simp [server]), withoutStreams, requests]
  constructor
  · intro same streamId above
    have kept := Charged.retain_eq_self_iff.mp (congrArg responses same) streamId
    by_contra inflight
    simp [above, Bool.eq_true_of_not_eq_false inflight] at kept
  · intro none_inflight
    have responses : (conn.responses.retain fun streamId _ =>
        !conn.beyond lastStreamId streamId) = conn.responses := by
      apply Charged.retain_eq_self_iff.mpr
      intro streamId inflight
      by_contra above
      have absent := none_inflight streamId (by simpa using above)
      exact absurd (absent.symm.trans inflight) Bool.false_ne_true
    rw [responses]

/-- A GOAWAY of the client is harmless exactly if no pending request is above the last stream that
it names; one of the server is exact unless such a request has a response in flight, which goes with
it. -/
theorem goAway_honoured_iff (C : Config) (call : Call) (conn : Http2Conn P) (flags : UInt8)
    (payload : Bytes) (complete : 8 ≤ payload.length)
    (closed : (conn.direction call.isRequestDir).continuation = none) :
    let lastStreamId := streamIdOf (payload.take 4)
    Sat (onItems C call ((conn.direction call.isRequestDir).onFrame 0x07 flags 0 payload).2 conn)
        (fun _ result => GoAwayHonoured call lastStreamId conn result.1) ↔
      ∀ streamId, PendingStreams.contains conn.pendingRequests streamId = true →
        lastStreamId < streamId →
        call.isRequestDir = false ∧ conn.responses.map.contains streamId = false := by
  intro lastStreamId
  rw [Http2Direction.onFrame_goAway closed flags complete]
  have only : Every (onItems C call [.goAway lastStreamId] conn) fun _ result =>
      result = (conn.withoutStreams (conn.beyond lastStreamId), []) := by
    refine (every_goAway_eq call conn lastStreamId).bind ?_
    rintro _ _ rfl
    exact every_pure.mpr rfl
  rw [only.sat_iff fun result => GoAwayHonoured call lastStreamId conn result.1]
  cases side : call.isRequestDir with
  | true =>
    rw [goAwayHonoured_client side]
    simp [beyond]
  | false =>
    rw [goAwayHonoured_server side]
    simp [beyond]

/-- A client that closes its connection in good order, with no stream of the server to speak of. -/
def clientGoAway : Bytes := [0, 0, 0, 0, 0, 0, 0, 0]

theorem goAway_honoured_server_idle :
    Sat (onItems (serverConfig 65536) (chunkCall 1)
        ((waitingConn.direction false).onFrame 0x07 0 0 clientGoAway).2 waitingConn)
      fun _ result => GoAwayHonoured (chunkCall 1) 0 waitingConn result.1 :=
  (goAway_honoured_iff (serverConfig 65536) (chunkCall 1) waitingConn 0 clientGoAway
    (by decide) rfl).mpr fun _ _ _ => ⟨rfl, rfl⟩

/-- The request that waits for its response is gone once the client has said goodbye. -/
theorem request_lost_on_client_goAway :
    let items := ((waitingConn.direction true).onFrame 0x07 0 0 clientGoAway).2
    let after := ((onItems (serverConfig 65536) (chunkCall 0) items waitingConn).run 1000).1.1
    waitingConn.pendingRequests.map.contains 1 = true ∧
      after.pendingRequests.map.contains 1 = false := by
  decide +kernel

end Http2Conn

end ApiSensor
