import ApiSensor.Accounting
import ApiSensor.Stream.Runs

/-!
# The sharded stream state

`ShardedStreamState`: sixteen stream states behind their own locks, sharing one byte counter.
Threads work on different shards at the same time, so the counter is seen one atomic action at a
time.
-/

namespace ApiSensor

open Library Library.Prog

variable {P : Platform}

/-- The operations a shard can be asked for.  `shardIndex` is the hash of process and pointer. -/
inductive ShardOp (C : Config) (shardIndex : UInt32 → UInt64 → Fin numShards) :
    Fin numShards → StreamState P → Act (StreamState P × List TrafficEvent) → Prop
  | handleEvent {st : StreamState P} (env : Env) (ev : TlsEventHeader) (payload : Bytes) :
      ShardOp C shardIndex (shardIndex ev.pid ev.sslPtr) st (st.handleEvent C env ev payload)
  | evictConnection {st : StreamState P} (key : ConnKey) :
      ShardOp C shardIndex (shardIndex key.pid key.sslPtr) st (st.evictConnectionByPtr C key)
  | sweep {index : Fin numShards} {st : StreamState P} (nowMs : Nat) :
      ShardOp C shardIndex index st (st.evictStale C nowMs)
  | drainIncomplete {index : Fin numShards} {st : StreamState P} (outcome : Str) :
      ShardOp C shardIndex index st (st.takeAllIncomplete C outcome)

/-- The shards and `TOTAL_BUFFER_BYTES`. -/
abbrev Shards (P : Platform) := Pool (Fin numShards) Note (StreamState P) (List TrafficEvent)

/-- `ShardedStreamState::new`, with nothing reserved. -/
def Shards.new : Shards P := ⟨0, fun _ => .idle .new⟩

/-- States the shards can reach under any interleaving of operations. -/
def Shards.Reachable (C : Config) (shardIndex : UInt32 → UInt64 → Fin numShards) :
    Shards P → Prop :=
  Relation.ReflTransGen (Pool.Step (ShardOp C shardIndex)) .new

theorem ShardOp.balanced {C : Config} {shardIndex : UInt32 → UInt64 → Fin numShards}
    {index : Fin numShards} {st : StreamState P}
    {program : Act (StreamState P × List TrafficEvent)}
    (op : ShardOp C shardIndex index st program) :
    program.Balanced C.maxTotalBufferBytes st.charge
      fun result held => held = result.1.charge := by
  cases op with
  | handleEvent env ev payload => exact (st.conserves_handleEvent env ev payload).balanced
  | evictConnection key => exact (st.conserves_evictConnectionByPtr key).balanced
  | sweep nowMs => exact (st.conserves_evictStale nowMs).balanced
  | drainIncomplete outcome => exact (st.conserves_takeAllIncomplete outcome).balanced

theorem Shards.Reachable.accounted {C : Config}
    {shardIndex : UInt32 → UInt64 → Fin numShards} {shards : Shards P}
    (reachable : Shards.Reachable C shardIndex shards) :
    shards.Accounted StreamState.charge C.maxTotalBufferBytes := by
  refine Pool.accounted (fun _ _ _ op => op.balanced) ?_ reachable
  exact ⟨fun _ => 0, by simp [Shards.new], Nat.zero_le _, fun _ => rfl⟩

/-! ## What is counted -/

namespace StreamState

/-- The bytes that should be charged, counted from the contents of the state. -/
def accountedBytes (st : StreamState P) : Nat :=
  (st.buffers.total fun _ buffer => buffer.1.length) +
    (st.pending.total fun _ queue => (queue.items.map (ParsedRequest.approxBytes P)).sum) +
    (st.http2State.total fun _ conn =>
      (conn.pendingRequests.map.total fun _ req => req.approxBytes P) +
        (conn.responses.map.total fun _ resp => resp.charged) +
        (conn.req.buffered + conn.resp.buffered)) +
    (st.h2EarlyResp.total fun _ early => early.data.length)

theorem charge_eq_accountedBytes (st : StreamState P) : st.charge = st.accountedBytes := by
  simp only [charge, accountedBytes, bufferBytes, queuedBytes, http2Bytes, earlyBytes,
    Http2Conn.charge_eq, PendingQueue.accounted, requestBytes, Charged.accounted,
    Http2Conn.accounted, EarlyResp.accounted]

/-- Some charged map has an entry of this connection. -/
def Mentions (st : StreamState P) (identity : ConnIdentity) : Prop :=
  (∃ entry ∈ st.buffers.entries, entry.1.identity = identity) ∨
    (∃ entry ∈ st.pending.entries, entry.1.identity = identity) ∨
    (∃ entry ∈ st.http2State.entries, entry.1.identity = identity) ∨
    (∃ entry ∈ st.h2EarlyResp.entries, entry.1.identity = identity)

/-- Evict connections one after the other. -/
def closeAll (st : StreamState P) (keys : List ConnKey) : StreamState P := keys.foldl closed st

/-- A close removes every mention of what it matches. -/
theorem mentions_closed {st : StreamState P} {key : ConnKey} {identity : ConnIdentity}
    (mentions : (st.closed key).Mentions identity) :
    st.Mentions identity ∧ hit key identity = false := by
  simp only [Mentions, closed, Dict.retain, List.mem_filter, Bool.not_eq_true'] at mentions ⊢
  obtain ⟨entry, ⟨member, kept⟩, rfl⟩ | ⟨entry, ⟨member, kept⟩, rfl⟩ |
    ⟨entry, ⟨member, kept⟩, rfl⟩ | ⟨entry, ⟨member, kept⟩, rfl⟩ := mentions
  · exact ⟨.inl ⟨entry, member, rfl⟩, kept⟩
  · exact ⟨.inr (.inl ⟨entry, member, rfl⟩), kept⟩
  · exact ⟨.inr (.inr (.inl ⟨entry, member, rfl⟩)), kept⟩
  · exact ⟨.inr (.inr (.inr ⟨entry, member, rfl⟩)), kept⟩

theorem mentions_closeAll {st : StreamState P} {keys : List ConnKey} {identity : ConnIdentity}
    (mentions : (st.closeAll keys).Mentions identity) :
    st.Mentions identity ∧ ∀ key ∈ keys, hit key identity = false := by
  induction keys generalizing st with
  | nil => exact ⟨mentions, by simp⟩
  | cons key keys induction =>
    obtain ⟨before, rest⟩ := induction mentions
    obtain ⟨first, missed⟩ := mentions_closed before
    exact ⟨first, List.forall_mem_cons.mpr ⟨missed, rest⟩⟩

/-- A state that mentions no connection has charged nothing. -/
theorem charge_eq_zero {st : StreamState P} (silent : ∀ identity, ¬ st.Mentions identity) :
    st.charge = 0 := by
  simp only [Mentions, not_or, not_exists, not_and] at silent
  have noBuffers : st.buffers.entries = [] :=
    List.eq_nil_iff_forall_not_mem.mpr fun entry member => (silent _).1 entry member rfl
  have noQueues : st.pending.entries = [] :=
    List.eq_nil_iff_forall_not_mem.mpr fun entry member => (silent _).2.1 entry member rfl
  have noConns : st.http2State.entries = [] :=
    List.eq_nil_iff_forall_not_mem.mpr fun entry member => (silent _).2.2.1 entry member rfl
  have noEarly : st.h2EarlyResp.entries = [] :=
    List.eq_nil_iff_forall_not_mem.mpr fun entry member => (silent _).2.2.2 entry member rfl
  simp [charge_eq_accountedBytes, accountedBytes, Dict.total, noBuffers, noQueues, noConns, noEarly]

end StreamState

/-! ## Exact accounting -/

/-- In every state of the shards the counter is the sum of what the shards hold.  A shard at rest
holds the size of its contents; the counter stays under the ceiling, no release is larger than the
counter, and nothing is reserved once every connection has been evicted. -/
theorem totalBufferBytes_exact {C : Config} {shardIndex : UInt32 → UInt64 → Fin numShards}
    {shards : Shards P} (reachable : Shards.Reachable C shardIndex shards) :
    shards.Accounted StreamState.accountedBytes C.maxTotalBufferBytes ∧
      (∀ states : Fin numShards → StreamState P,
        (∀ index, shards.slots index = .idle (states index)) →
        shards.counter = ∑ index, (states index).accountedBytes) ∧
      shards.counter ≤ C.maxTotalBufferBytes ∧
      (∀ index amount next, shards.slots index = .busy (.release amount next) →
        amount ≤ shards.counter) ∧
      ∀ (states : Fin numShards → StreamState P) (closes : Fin numShards → List ConnKey),
        (∀ index, shards.slots index = .idle ((states index).closeAll (closes index))) →
        (∀ index identity, (states index).Mentions identity →
          ∃ key ∈ closes index, StreamState.hit key identity) →
        shards.counter = 0 := by
  have accounted := reachable.accounted
  have same : (StreamState.charge : StreamState P → Nat) = StreamState.accountedBytes :=
    funext StreamState.charge_eq_accountedBytes
  refine ⟨same ▸ accounted, ?_, ?_, ?_, ?_⟩
  · intro states rest
    rw [← same]
    exact accounted.counter_eq rest
  · obtain ⟨_, -, bounded, -⟩ := accounted
    exact bounded
  · intro index amount next busy
    exact accounted.release_le busy
  · intro states closes rest covered
    rw [accounted.counter_eq rest]
    refine Finset.sum_eq_zero fun index _ => StreamState.charge_eq_zero fun identity mentions => ?_
    obtain ⟨before, missed⟩ := StreamState.mentions_closeAll mentions
    obtain ⟨key, member, hits⟩ := covered index identity before
    rw [missed key member] at hits
    exact absurd hits Bool.false_ne_true

/-- The shards after one of them has queued a request. -/
def queuedShards : Shards asciiPlatform :=
  let result := ((StreamState.new (P := asciiPlatform)).handleEvent (serverConfig 100000)
    (atTime 0) (onConnection 0x1000 0) (bytes "GET / HTTP/1.1\r\n\r\n")).run 0
  Shards.new.update 0 result.2.1 (.idle result.1.1)

theorem reachable_queuedShards :
    Shards.Reachable (serverConfig 100000) (fun _ _ => 0) queuedShards := by
  refine .head (.start rfl (ShardOp.handleEvent (atTime 0) (onConnection 0x1000 0)
    (bytes "GET / HTTP/1.1\r\n\r\n"))) ?_
  exact Pool.reach_run Shards.new 0 0 _

theorem totalBufferBytes_exact_queued :
    0 < queuedShards.counter ∧
      queuedShards.Accounted StreamState.accountedBytes 100000 ∧ queuedShards.counter ≤ 100000 := by
  have accounts := totalBufferBytes_exact reachable_queuedShards
  exact ⟨by decide +kernel, accounts.1, accounts.2.2.1⟩

end ApiSensor
