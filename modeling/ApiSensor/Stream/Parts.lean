import ApiSensor.Accounting

/-!
# Parts of a stream state

Every map of `StreamState` is keyed by a connection or by one of its directions.  The part of a
state that belongs to some connections is what remains of it when all other entries are left out.
-/

namespace ApiSensor

open Library Library.Prog

variable {P : Platform}

namespace StreamState

/-- The entries that belong to connections selected by a test. -/
def part (keep : ConnIdentity → Bool) (st : StreamState P) : StreamState P where
  buffers := st.buffers.retain fun key _ => keep key.identity
  pending := st.pending.retain fun key _ => keep key.identity
  http2State := st.http2State.retain fun key _ => keep key.identity
  h2EarlyResp := st.h2EarlyResp.retain fun key _ => keep key.identity
  http3Connections := st.http3Connections.filter fun key => keep key.identity
  wsConnections := st.wsConnections.filter fun key => keep key.identity
  knownConnections := st.knownConnections.filter fun key => keep key.identity
  connBornMs := st.connBornMs.retain fun identity _ => keep identity
  connRoles := st.connRoles.retain fun key _ => keep key.identity
  gappedStreams := st.gappedStreams.filter fun key => keep key.identity
  h1Decoders := st.h1Decoders.retain fun key _ => keep key.identity
  h2Prefix := st.h2Prefix.retain fun key _ => keep key.identity
  wsRemaining := st.wsRemaining.retain fun key _ => keep key.identity
  lastEvictionMs := st.lastEvictionMs

/-- The entries of one connection. -/
abbrev only (identity : ConnIdentity) (st : StreamState P) : StreamState P :=
  st.part fun other => other = identity

theorem part_part (first second : ConnIdentity → Bool) (st : StreamState P) :
    (st.part first).part second = st.part fun identity => first identity && second identity := by
  simp only [part, Dict.retain_retain, Finset.filter_filter, Bool.and_eq_true]

/-- What a close leaves is the part of the connections it does not match. -/
theorem closed_eq_part (key : ConnKey) (st : StreamState P) :
    st.closed key = st.part fun identity => !hit key identity := rfl

/-- A state is charged for the sum of two complementary parts. -/
theorem charge_part_add (keep : ConnIdentity → Bool) (st : StreamState P) :
    (st.part keep).charge + (st.part fun identity => !keep identity).charge = st.charge := by
  have buffers := Dict.total_retain_add (fun _ buffer => (buffer : Bytes × Nat).1.length)
    (fun key _ => keep (StreamKey.identity key)) st.buffers
  have queues := Dict.total_retain_add (fun _ queue => PendingQueue.bytes queue)
    (fun key _ => keep (ConnKey.identity key)) st.pending
  have conns := Dict.total_retain_add (fun _ conn => Http2Conn.charge conn)
    (fun key _ => keep (ConnKey.identity key)) st.http2State
  have early := Dict.total_retain_add (fun _ early => EarlyResp.charge early)
    (fun key _ => keep (ConnKey.identity key)) st.h2EarlyResp
  simp only [charge, bufferBytes, queuedBytes, http2Bytes, earlyBytes, part]
  omega

end StreamState

end ApiSensor
