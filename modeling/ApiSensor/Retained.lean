import ApiSensor.Sharded
import ApiSensor.Stream.Chunks

/-!
# What the memory ceiling bounds

Everything that the shards keep of captured traffic, against `max_total_buffer_bytes`.  Two places
are not charged: the message that an HTTP/1 decoder has not finished, and a held preface prefix.
Where both are empty the ceiling bounds all that is kept.
-/

namespace ApiSensor

open Library Library.Prog

variable {P : Platform} {C : Config} {call : Call}

/-! ## Retained bytes -/

/-- Text and body of a request. -/
def ParsedRequest.capturedBytes (req : ParsedRequest) : Nat :=
  strLen req.method + strLen req.path + (req.host.elim 0 strLen) + headerBytes 0 req.headers +
    req.body.length

/-- Text and body of a message. -/
def HttpMessage.capturedBytes : HttpMessage → Nat
  | .request req =>
    strLen req.method + strLen req.path + (req.host.elim 0 strLen) + headerBytes 0 req.headers +
      req.body.length
  | .response resp => headerBytes 0 resp.headers + resp.body.length

/-- What a decoder holds of a message that is not finished. -/
def Http1Decoder.unfinished (decoder : Http1Decoder) : Nat :=
  match decoder.state with
  | .body pending _ => pending.msg.capturedBytes
  | _ => 0

/-- Header text and body of a response that is not complete. -/
def InflightResponse.capturedBytes (resp : InflightResponse) : Nat :=
  headerBytes 0 resp.headers + resp.body.length

/-- Requests, responses and frames that a connection keeps. -/
def Http2Conn.capturedBytes (conn : Http2Conn P) : Nat :=
  (conn.pendingRequests.map.total fun _ req => req.capturedBytes) +
    (conn.responses.map.total fun _ resp => resp.capturedBytes) +
    (conn.req.buffered + conn.resp.buffered)

theorem headerBytes_zero_le (overhead : Nat) (headers : Headers) :
    headerBytes 0 headers ≤ headerBytes overhead headers := by
  apply Dict.total_le
  intro name value
  omega

theorem ParsedRequest.capturedBytes_le (req : ParsedRequest) :
    req.capturedBytes ≤ req.approxBytes P := by
  have headers := headerBytes_zero_le 64 req.headers
  simp only [capturedBytes, approxBytes]
  omega

theorem InflightResponse.capturedBytes_le (resp : InflightResponse) :
    resp.capturedBytes ≤ resp.charged := by
  have headers := headerBytes_zero_le 64 resp.headers
  have covers := resp.covers
  simp only [inflightSize] at covers
  simp only [capturedBytes]
  omega

namespace StreamState

/-- Captured bytes that are kept without a charge. -/
def uncharged (st : StreamState P) : Nat :=
  (st.h1Decoders.total fun _ decoder => decoder.unfinished) +
    (st.h2Prefix.total fun _ held => held.length)

/-- All captured bytes that a state keeps. -/
def capturedBytes (st : StreamState P) : Nat :=
  (st.buffers.total fun _ buffer => buffer.1.length) +
    (st.pending.total fun _ queue => (queue.items.map ParsedRequest.capturedBytes).sum) +
    (st.http2State.total fun _ conn => conn.capturedBytes) +
    (st.h2EarlyResp.total fun _ early => early.data.length) + st.uncharged

/-- All of it is charged but for the unfinished messages and the held prefixes. -/
theorem capturedBytes_le (st : StreamState P) : st.capturedBytes ≤ st.charge + st.uncharged := by
  have queues : (st.pending.total fun _ queue => (queue.items.map ParsedRequest.capturedBytes).sum) ≤
      st.pending.total fun _ queue => (queue.items.map (ParsedRequest.approxBytes P)).sum := by
    apply Dict.total_le
    intro _ queue
    apply List.sum_le_sum
    intro req _
    exact req.capturedBytes_le
  have conns : (st.http2State.total fun _ conn => conn.capturedBytes) ≤
      st.http2State.total fun _ conn =>
        (conn.pendingRequests.map.total fun _ req => req.approxBytes P) +
          (conn.responses.map.total fun _ resp => resp.charged) +
          (conn.req.buffered + conn.resp.buffered) := by
    apply Dict.total_le
    intro _ conn
    have requests := Dict.total_le (fun _ req => ParsedRequest.capturedBytes req)
      (fun _ req => req.approxBytes P) conn.pendingRequests.map
      fun _ req => req.capturedBytes_le
    have responses := Dict.total_le (fun _ resp => InflightResponse.capturedBytes resp)
      (fun _ resp => resp.charged) conn.responses.map fun _ resp => resp.capturedBytes_le
    simp only [Http2Conn.capturedBytes]
    omega
  rw [charge_eq_accountedBytes, capturedBytes, accountedBytes]
  omega

/-! ## Operations that leave nothing uncharged -/

/-- The state keeps nothing without a charge. -/
def Settled (st : StreamState P) : Prop := st.uncharged = 0

variable {st : StreamState P} {payload : Bytes}

theorem settled_iff :
    st.Settled ↔ (st.h1Decoders.total fun _ decoder => decoder.unfinished) = 0 ∧
      (st.h2Prefix.total fun _ held => held.length) = 0 :=
  Nat.add_eq_zero_iff

section

variable (settled : st.Settled)
include settled

theorem Settled.of_le {after : StreamState P}
    (decoders : (after.h1Decoders.total fun _ decoder => decoder.unfinished) ≤
      st.h1Decoders.total fun _ decoder => decoder.unfinished)
    (held : (after.h2Prefix.total fun _ held => held.length) ≤
      st.h2Prefix.total fun _ held => held.length) : after.Settled := by
  obtain ⟨noMessage, noPrefix⟩ := settled_iff.mp settled
  exact settled_iff.mpr ⟨by omega, by omega⟩

theorem Settled.of_eq {after : StreamState P} (decoders : after.h1Decoders = st.h1Decoders)
    (held : after.h2Prefix = st.h2Prefix) :
    after.Settled := by
  refine settled.of_le ?_ ?_
  · rw [decoders]
  · rw [held]

theorem Settled.swept (nowMs : Nat) :
    (st.swept nowMs).Settled := by
  unfold StreamState.swept
  split
  · exact settled
  · refine settled.of_le ?_ ?_
    · exact Dict.total_retain_le _ (fun key _ => (st.evicted nowMs).buffers.contains key) _
    · exact Dict.total_retain_le _ (fun key _ => key ∈ (st.evicted nowMs).knownConnections) _

theorem Settled.admitted (env : Env) (ev : TlsEventHeader) :
    (st.admitted env ev).Settled := by
  obtain ⟨born, same⟩ := st.bear_eq env ev
  have bears : (st.bear env ev).Settled := by
    rw [same]
    exact settled
  exact bears.swept env.now

theorem Settled.closed (key : ConnKey) :
    (st.closed key).Settled := by
  refine settled.of_le ?_ ?_
  · exact Dict.total_retain_le _ (fun other _ => !hit key (StreamKey.identity other)) _
  · exact Dict.total_retain_le _ (fun other _ => !hit key (ConnKey.identity other)) _

theorem Settled.takePrefix (call : Call) :
    (st.takePrefix call).Settled := by
  unfold StreamState.takePrefix
  split
  · refine settled.of_le (Nat.le_refl _) ?_
    exact Dict.total_retain_le _ (fun other _ => other ≠ call.key) _
  · exact settled

/-- Giving up a decoder settles what was settled. -/
theorem Settled.eraseDecoder {after : StreamState P} {key : StreamKey}
    (decoders : after.h1Decoders = st.h1Decoders.erase key) (held : after.h2Prefix = st.h2Prefix) :
    after.Settled := by
  refine settled.of_le ?_ ?_
  · rw [decoders, Dict.erase]
    exact Dict.total_retain_le _ _ _
  · rw [held]

theorem Settled.joinPrefix (call : Call) (payload : Bytes) :
    st.joinPrefix call payload = payload := by
  obtain ⟨held, member, joined⟩ := joinPrefix_mem call payload st
  have bound := Dict.le_total (fun _ held => List.length held) st.h2Prefix call.key
  rw [(settled_iff.mp settled).2] at bound
  have empty : held = [] := by
    cases found : st.h2Prefix.get? call.key with
    | none => simpa [found] using member
    | some stored =>
      have nothing : stored = [] := by simpa [found] using bound
      simpa [found, nothing] using member
  rw [joined, empty, List.nil_append]

end

/-! ## Chunks that end outside a message -/

theorem settled_collectItems (items : List Http1Item) (settled : st.Settled) :
    Sat (collectItems call items st) fun _ result => result.1.Settled := by
  induction items with
  | nil => exact sat_pure.mpr settled
  | cons item items induction =>
    cases item with
    | message m =>
      refine sat_bind.mpr fun _ _ _ => ?_
      exact induction.bind fun _ _ rest => sat_pure.mpr rest
    | invalid reason =>
      refine sat_count_bind.mpr (sat_releaseMemory_bind.mpr (sat_pure.mpr ?_))
      exact settled.eraseDecoder rfl rfl

theorem settled_handleHttp1 (settled : st.Settled)
    (ends : (st.decode call payload).1.unfinished = 0) :
    Sat (st.handleHttp1 C call payload) fun _ result => result.1.Settled := by
  have resumed : (st.resume call).Settled := settled
  refine sat_reserveMemory_bind.mpr fun granted => ?_
  cases granted with
  | false => exact sat_count_bind.mpr (sat_note_bind.mpr (sat_pure.mpr resumed))
  | true =>
    rw [if_pos rfl]
    unfold consume
    dsimp only
    split
    · refine sat_releaseMemory_bind.mpr (sat_count_bind.mpr (sat_pure.mpr ?_))
      exact resumed.eraseDecoder rfl rfl
    · refine sat_note_bind.mpr (sat_releaseMemory_bind.mpr ?_)
      have decoded : ((st.resume call).decoded call payload).Settled := by
        refine resumed.of_le ?_ (Nat.le_refl _)
        have added := Dict.total_insert_le (fun _ decoder => Http1Decoder.unfinished decoder)
          st.h1Decoders call.streamKey (st.decode call payload).1
        rw [ends] at added
        exact added
      refine (settled_collectItems _ decoded).bind fun _ collected settled => ?_
      intro log result outcome
      have changes :=
        (moves_http1Messages payload collected.2 collected.1 log result outcome).updates
      exact settled.of_eq (changes.same .h1Decoders (by decide)) (changes.same .h2Prefix (by decide))

theorem settled_dispatch (settled : st.Settled) (unheld : st.route call payload ≠ .holdPrefix)
    (ends : st.route call payload = .http1 → (st.decode call payload).1.unfinished = 0) :
    Sat (st.dispatch C call payload) fun _ result => result.1.Settled := by
  have changes : Sat (st.dispatch C call payload) _ := updates_dispatch payload st
  cases taken : st.route call payload with
  | holdPrefix => exact absurd taken unheld
  | http1 =>
    unfold dispatch
    rw [taken]
    exact settled_handleHttp1 settled (ends taken)
  | _ =>
    -- the other handlers keep both tables
    rw [taken] at changes
    exact changes.mono fun _ _ changes =>
      settled.of_eq (changes.same .h1Decoders (by decide)) (changes.same .h2Prefix (by decide))

/-- A chunk that could be the beginning of the client preface. -/
def BeginsPreface (payload : Bytes) : Prop :=
  payload ≠ [] ∧ payload.length < http2Preface.length ∧ payload.isPrefixOf http2Preface = true

theorem route_ne_holdPrefix (whole : ¬ BeginsPreface payload) (st : StreamState P) :
    st.route call payload ≠ .holdPrefix := by
  intro held
  have guard := st.guard_route call payload
  rw [held] at guard
  obtain ⟨-, -, -, nonempty, short, begins, -⟩ := guard
  exact whole ⟨nonempty, short, begins⟩

/-- The number of held prefixes matters only for the beginning of a preface. -/
theorem route_setPrefix (whole : ¬ BeginsPreface payload) (st : StreamState P)
    (held : Dict ConnKey Bytes) :
    StreamState.route call payload { st with h2Prefix := held } = st.route call payload := by
  have never : ∀ opens room : Bool, (opens && !payload.isEmpty &&
      decide (payload.length < http2Preface.length) && payload.isPrefixOf http2Preface && room) =
        false := by
    intro opens room
    by_contra begins
    simp only [Bool.not_eq_false, Bool.and_eq_true, Bool.not_eq_true', List.isEmpty_eq_false_iff,
      decide_eq_true_eq] at begins
    obtain ⟨⟨⟨⟨-, nonempty⟩, short⟩, begins⟩, -⟩ := begins
    exact whole ⟨nonempty, short, begins⟩
  simp only [route, never]

theorem settled_deliver (settled : st.Settled) (whole : ¬ BeginsPreface payload)
    (ends : st.route call payload = .http1 → (st.decode call payload).1.unfinished = 0) :
    Sat (st.deliver C call payload) fun _ result => result.1.Settled := by
  refine sat_deliver (fun _ held same => ?_) (fun _ _ _ => settled) fun truncated _ held same => ?_
  · rw [settled.joinPrefix call payload, ← same]
    refine settled_dispatch (settled.takePrefix call) (route_ne_holdPrefix whole _) ?_
    rw [same, route_setPrefix whole]
    exact ends
  · have cut : (st.cutOff call).Settled := settled.eraseDecoder rfl rfl
    rw [settled.joinPrefix call payload, ← same]
    refine settled_dispatch (cut.takePrefix call) (route_ne_holdPrefix whole _) ?_
    -- a truncated chunk is not parsed behind the gap that it leaves
    intro parsed
    have guard := guard_route call payload ((st.cutOff call).takePrefix call)
    rw [parsed] at guard
    have gapped : call.streamKey ∈ ((st.cutOff call).takePrefix call).gappedStreams := by
      rw [same]
      exact Finset.mem_insert_self _ _
    have uncut := (guard.2.2.2.2.2.1 gapped).2
    rw [truncated] at uncut
    cases uncut

/-- The operation leaves no message unfinished in a decoder and holds no prefix: its chunk does not
look like the beginning of a preface, and if it is parsed as HTTP/1, the decoder is outside a
message at its end. -/
def Whole (C : Config) (st : StreamState P) : Operation → Prop
  | .event env ev payload =>
    ¬ BeginsPreface payload ∧
      ((st.admitted env ev).route (st.arrival C env ev payload) payload = .http1 →
        ((st.admitted env ev).decode (st.arrival C env ev payload) payload).1.unfinished = 0)
  | _ => True

theorem settled_step {op : Operation} (settled : st.Settled) (whole : st.Whole C op) :
    Sat (op.program C st) fun _ result => result.1.Settled := by
  rintro log ⟨after, events⟩ outcome
  have step : Step C st ⟨op, log, events⟩ after := outcome
  cases step.stepped with
  | outside => exact settled
  | event env ev payload _ _ receives =>
    have arrives := settled.admitted env ev
    have received : Sat ((st.admitted env ev).receive C env ev payload (st.connKey env ev))
        fun _ result => result.1.Settled := by
      refine sat_receive (fun roles => ?_) arrives
      have ready : { st.admitted env ev with connRoles := roles }.Settled := arrives
      exact settled_deliver ready whole.1 whole.2
    have settles := received _ _ receives
    exact settles
  | sweep nowMs => exact settled.swept nowMs
  | close key => exact settled.closed key
  | drain => exact settled

end StreamState

/-! ## The ceiling -/

/-- The operations of a shard that leave nothing uncharged. -/
def WholeShardOp (C : Config) (shardIndex : UInt32 → UInt64 → Fin numShards)
    (index : Fin numShards) (st : StreamState P)
    (program : Act (StreamState P × List TrafficEvent)) : Prop :=
  ShardOp C shardIndex index st program ∧
    ∃ op : Operation, program = op.program C st ∧ st.Whole C op

/-- States the shards can reach by such operations, under any interleaving. -/
def Shards.WholeReachable (C : Config) (shardIndex : UInt32 → UInt64 → Fin numShards) :
    Shards P → Prop :=
  Relation.ReflTransGen (Pool.Step (WholeShardOp C shardIndex)) .new

/-- If every chunk ends outside an HTTP/1 message and none is held as the beginning of a preface,
the ceiling bounds all captured bytes: those of each shard, and those of all shards at rest
together. -/
theorem captured_le_ceiling {shardIndex : UInt32 → UInt64 → Fin numShards} {shards : Shards P}
    (reachable : Shards.WholeReachable C shardIndex shards) :
    ∑ index, Pool.restWeight StreamState.capturedBytes (shards.slots index) ≤
        C.maxTotalBufferBytes ∧
      ∀ index st, shards.slots index = .idle st → st.capturedBytes ≤ C.maxTotalBufferBytes := by
  have settled : ∀ index, Pool.Within StreamState.Settled (shards.slots index) := by
    intro index
    refine Pool.within ?_ ?_ reachable index
    · rintro _ st _ ⟨-, op, rfl, whole⟩ kept
      exact StreamState.settled_step kept whole
    · intro _
      exact StreamState.settled_iff.mpr ⟨rfl, rfl⟩
  have reached : Shards.Reachable C shardIndex shards := by
    refine Relation.ReflTransGen.mono ?_ _ _ reachable
    intro _ _ step
    exact step.mono fun _ _ _ op => op.1
  have accounted := reached.accounted
  have covered : ∀ index st, shards.slots index = .idle st → st.capturedBytes ≤ st.charge := by
    intro index st rest
    have kept := settled index
    rw [rest] at kept
    have bound := st.capturedBytes_le
    rw [show st.uncharged = 0 from kept] at bound
    exact bound
  have total := accounted.sum_restWeight_le covered
  refine ⟨total, fun index st rest => ?_⟩
  have own : st.capturedBytes = Pool.restWeight StreamState.capturedBytes (shards.slots index) := by
    rw [rest]
    rfl
  rw [own]
  exact (Finset.single_le_sum (fun _ _ => Nat.zero_le _) (Finset.mem_univ index)).trans total

/-- Operations of the first shard one after the other, with nothing else reserved. -/
def firstShard (C : Config) (ops : List Operation) : Shards asciiPlatform :=
  let result := StreamState.exec C ops .new 0
  Shards.new.update 0 result.2.2 (.idle result.2.1)

theorem reach_firstShard {start : Fin numShards → StreamState asciiPlatform →
      Act (StreamState asciiPlatform × List TrafficEvent) → Prop} (ops : List Operation)
    (allowed : ∀ entry ∈ (StreamState.exec C ops .new 0).1,
      start 0 entry.1 (entry.2.op.program C entry.1)) :
    Relation.ReflTransGen (Pool.Step start) Shards.new (firstShard C ops) := by
  have runs : ∀ (ops : List Operation) (st : StreamState asciiPlatform) (counter : Nat),
      (∀ entry ∈ (StreamState.exec C ops st counter).1,
        start 0 entry.1 (entry.2.op.program C entry.1)) →
      Relation.ReflTransGen (Pool.Step start)
        ((Shards.new (P := asciiPlatform)).update 0 counter (.idle st))
        (Shards.new.update 0 (StreamState.exec C ops st counter).2.2
          (.idle (StreamState.exec C ops st counter).2.1)) := by
    intro ops
    induction ops with
    | nil => exact fun _ _ _ => .refl
    | cons op ops induction =>
      intro st counter allowed
      have begins := allowed _ List.mem_cons_self
      have step : Pool.Step start _ _ := .start
        (Pool.slots_update_self Shards.new 0 counter (.idle st)) begins
      rw [Pool.update_update] at step
      refine .head step ((Pool.reach_run Shards.new 0 counter _).trans ?_)
      exact induction _ _ fun entry member => allowed entry (List.mem_cons_of_mem _ member)
  have first := runs ops .new 0 allowed
  have same : (Shards.new (P := asciiPlatform)).update 0 0 (.idle .new) = Shards.new := by
    rw [Pool.update, Shards.new, Function.update_eq_self_iff.mpr rfl]
  rw [same] at first
  exact first

theorem shardOp_first (st : StreamState P) (op : Operation) :
    ShardOp C (fun _ _ => 0) 0 st (op.program C st) := by
  cases op with
  | event env ev payload => exact .handleEvent env ev payload
  | close key => exact .evictConnection key
  | sweep nowMs => exact .sweep nowMs
  | drain outcome => exact .drainIncomplete outcome

instance (payload : Bytes) : Decidable (StreamState.BeginsPreface payload) :=
  inferInstanceAs (Decidable (_ ∧ _))

instance (st : StreamState P) (op : Operation) : Decidable (st.Whole C op) := by
  cases op <;> unfold StreamState.Whole <;> infer_instance

theorem captured_le_ceiling_queued :
    let shards := firstShard (serverConfig 2000) [chunk 100 0 "GET /a HTTP/1.1\r\n\r\n"]
    0 < ∑ index, Pool.restWeight StreamState.capturedBytes (shards.slots index) ∧
      ∑ index, Pool.restWeight StreamState.capturedBytes (shards.slots index) ≤ 2000 := by
  have reachable : Shards.WholeReachable (serverConfig 2000) (fun _ _ => 0)
      (firstShard (serverConfig 2000) [chunk 100 0 "GET /a HTTP/1.1\r\n\r\n"]) := by
    refine reach_firstShard _ fun entry member => ⟨shardOp_first _ _, entry.2.op, rfl, ?_⟩
    revert entry
    decide +kernel
  exact ⟨by decide +kernel, (captured_le_ceiling reachable).1⟩

/-- A body that arrives in small chunks moves from the charged buffer into the decoder.  With a
ceiling of 60 bytes, and nothing charged, the first shard keeps a body of 200 bytes. -/
theorem body_kept_beyond_ceiling :
    let head := chunk 100 0 "POST / HTTP/1.1\r\nContent-Length: 999\r\n\r\n"
    let part := chunk 101 0 "01234567890123456789012345678901234567890123456789"
    let shards := firstShard (serverConfig 60) [head, part, part, part, part]
    Shards.Reachable (serverConfig 60) (fun _ _ => 0) shards ∧ shards.counter = 0 ∧
      60 < ∑ index, Pool.restWeight StreamState.capturedBytes (shards.slots index) := by
  refine ⟨?_, by decide +kernel, by decide +kernel⟩
  exact reach_firstShard _ fun entry _ => shardOp_first entry.1 entry.2.op

end ApiSensor
