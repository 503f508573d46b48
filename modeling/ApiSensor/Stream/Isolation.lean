import ApiSensor.Sharded
import ApiSensor.Stream.Parts
import ApiSensor.Stream.Updates

/-!
# Shards and connections apart

Threads work on the shards at the same time, but each shard sees only whole operations of its own,
one after the other.  Within a shard, an operation that concerns other connections leaves the part
of the state that belongs to a connection as it is.
-/

namespace ApiSensor

open Library Library.Prog

variable {P : Platform} {C : Config} {shardIndex : UInt32 → UInt64 → Fin numShards}

/-! ## Shards -/

/-- The operation is sent to a shard; sweeps and drains visit all of them. -/
def Operation.On (shardIndex : UInt32 → UInt64 → Fin numShards) (index : Fin numShards) :
    Operation → Prop
  | .event _ ev _ => shardIndex ev.pid ev.sslPtr = index
  | .close key => shardIndex key.pid key.sslPtr = index
  | .sweep _ | .drain _ => True

theorem ShardOp.operation {index : Fin numShards} {st : StreamState P}
    {program : Act (StreamState P × List TrafficEvent)}
    (op : ShardOp C shardIndex index st program) :
    ∃ operation : Operation, operation.On shardIndex index ∧
      program = operation.program C st := by
  cases op with
  | handleEvent env ev payload => exact ⟨.event env ev payload, rfl, rfl⟩
  | evictConnection key => exact ⟨.close key, rfl, rfl⟩
  | sweep nowMs => exact ⟨.sweep nowMs, trivial, rfl⟩
  | drainIncomplete outcome => exact ⟨.drain outcome, trivial, rfl⟩

/-- A run of a stream state by operations that are sent to one shard. -/
def Shards.Sequential (C : Config) (shardIndex : UInt32 → UInt64 → Fin numShards)
    (index : Fin numShards) (st : StreamState P) : Prop :=
  ∃ trace, StreamState.Run C .new trace st ∧ ∀ entry ∈ trace, entry.2.op.On shardIndex index

/-- However the atomic actions of the shards are interleaved, a shard at rest is in a state that it
reaches alone, by its own operations one after the other, with some answers to its reservations.
The same holds for whatever an operation in flight may end in. -/
theorem shards_refine_runs {shards : Shards P} (reachable : Shards.Reachable C shardIndex shards)
    (index : Fin numShards) :
    (∀ st, shards.slots index = .idle st → Shards.Sequential C shardIndex index st) ∧
      ∀ program log result, shards.slots index = .busy program → Outcome program log result →
        Shards.Sequential C shardIndex index result.1 := by
  have within : Pool.Within (Shards.Sequential C shardIndex index) (shards.slots index) := by
    refine Pool.within_each (fun index st program op sequential log result outcome => ?_)
      (fun _ => ?_) reachable index
    · obtain ⟨operation, own, rfl⟩ := op.operation
      obtain ⟨trace, run, all⟩ := sequential
      have step : StreamState.Step C st ⟨operation, log, result.2⟩ result.1 := outcome
      refine ⟨_, run.concat step, List.forall_mem_append.mpr ⟨all, ?_⟩⟩
      exact List.forall_mem_singleton.mpr own
    · exact ⟨[], .nil _, by simp⟩
  constructor
  · intro st idle
    rwa [idle] at within
  · intro program log result busy
    rw [busy] at within
    exact within log result

theorem shards_refine_runs_queued : ∃ st : StreamState asciiPlatform,
    st.pending.size = 1 ∧ Shards.Sequential (serverConfig 100000) (fun _ _ => 0) 0 st :=
  ⟨_, by decide +kernel, (shards_refine_runs reachable_queuedShards 0).1 _ rfl⟩

/-! ## Connections -/

namespace StreamState

variable {keep : ConnIdentity → Bool} {st after : StreamState P}

theorem part_update {call : Call} {table : Table} (update : Update call table st after)
    (conn : keep call.key.identity = false) (stream : keep call.streamKey.identity = false) :
    after.part keep = st.part keep := by
  cases update <;>
    simp [part, resume, keepEarly, Finset.filter_insert, Finset.filter_erase,
      Dict.retain_insert_of_false, Dict.retain_erase_of_false, conn, stream]

/-- The operation concerns none of the selected connections, and no eviction pass is due. -/
def Apart (keep : ConnIdentity → Bool) (st : StreamState P) : Operation → Prop
  | .event env ev _ => keep ev.identity = false ∧ env.now - st.lastEvictionMs < 10000
  | .close key => ∀ identity, keep identity = true → hit key identity = false
  | .sweep nowMs => nowMs - st.lastEvictionMs < 10000
  | .drain _ => False

theorem part_admitted {env : Env} {ev : TlsEventHeader} (other : keep ev.identity = false)
    (early : env.now - st.lastEvictionMs < 10000) :
    (st.admitted env ev).part keep = st.part keep := by
  obtain ⟨born, same⟩ := bear_eq env ev st
  have kept : (st.bear env ev).part keep = st.part keep := by
    unfold bear
    split
    · rfl
    · simp [part, Dict.retain_insert_of_false, other]
  have undue : (st.bear env ev).swept env.now = st.bear env ev := by
    rw [same]
    exact if_pos early
  have known : keep (st.connKey env ev).identity = false := other
  rw [← kept, admitted, undue]
  simp [part, Finset.filter_insert, known]

theorem part_receive {env : Env} {ev : TlsEventHeader} {payload : Bytes} {key : ConnKey}
    (conn : keep key.identity = false) (stream : keep ev.identity = false) :
    Sat (st.receive C env ev payload key) fun _ result => result.1.part keep = st.part keep := by
  refine (updates_receive env ev payload key st).mono fun _ result changes => ?_
  obtain ⟨_, _, changes⟩ := changes
  refine changes.invariant (fun now => now.part keep = st.part keep)
    (fun update before => (part_update update conn stream).trans before) ?_
  unfold freezeRole
  split
  · split
    · simp [part, Dict.retain_insert_of_false, conn]
    · rfl
  · rfl

theorem part_step {stage : Stage} (step : Step C st stage after) (apart : st.Apart keep stage.op) :
    after.part keep = st.part keep := by
  cases step.stepped with
  | outside _ _ => rfl
  | event env ev payload _ _ receives =>
    have own : keep (st.connKey env ev).identity = false := apart.1
    exact (part_receive own apart.1 _ _ receives).trans (part_admitted apart.1 apart.2)
  | sweep nowMs _ => exact congrArg (part keep) (if_pos apart)
  | close key _ =>
    rw [closed_eq_part, part_part]
    congr 1
    funext identity
    cases selected : keep identity with
    | false => exact Bool.and_false _
    | true => rw [apart identity selected]; rfl
  | drain _ _ => exact apart.elim

/-- Connections do not write to each other's state.  Along every run whose events and closes concern
other connections, with no eviction pass due and no drain, all that the state holds of the selected
connections, in every table, stays as it is. -/
theorem others_leave_part_alone {trace : List (StreamState P × Stage)} (run : Run C st trace after)
    (apart : ∀ entry ∈ trace, entry.1.Apart keep entry.2.op) : after.part keep = st.part keep :=
  run.invariant (fun now => now.part keep = st.part keep)
    (fun _ _ _ member step kept => (part_step step (apart _ member)).trans kept) rfl

/-- A request waits on one connection while another one sends a request and is closed. -/
theorem others_leave_part_alone_waiting :
    let C := serverConfig 100000
    let keep := fun identity => decide (identity = (onConnection 0x1000 0).identity)
    let st := (exec C [chunk 20 0 "GET / HTTP/1.1\r\n\r\n"] (new (P := asciiPlatform)) 0).2.1
    let other := onConnection 0x2000 0
    let later := exec C [.event (atTime 21) other (bytes "GET /b HTTP/1.1\r\n\r\n"),
      .close (.fromEvent other 0)] st 0
    (st.part keep).pending.size = 1 ∧ later.2.1.part keep = st.part keep := by
  refine ⟨by decide +kernel, others_leave_part_alone (run_exec _ _ _ _) ?_⟩
  rintro entry (_ | ⟨_, _ | ⟨_, _ | _⟩⟩)
  · exact ⟨by decide, by decide +kernel⟩
  · intro identity own
    rw [of_decide_eq_true own]
    decide

end StreamState

end ApiSensor
