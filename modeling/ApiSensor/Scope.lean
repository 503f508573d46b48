import ApiSensor.Container
import ApiSensor.Sharded
import ApiSensor.Stream.Frame

/-!
# Namespace scope

With a namespace scope the sensor asks the container resolver about the cgroup of every event and
drops the event unless the answer is an allowed namespace.  Lookups complete and fail between
events, and entries expire.  What the shards hold and emit is what they would hold and emit if the
dropped events had never been captured.
-/

namespace ApiSensor

open Library Library.Prog

variable {P : Platform} {C : Config}

/-! ## The shards one operation after the other -/

/-- An operation on a shard. -/
abbrev ShardCall := Fin numShards × Operation

/-- The shards and `TOTAL_BUFFER_BYTES` when no operation is under way. -/
structure Sensor (P : Platform) where
  shards : Fin numShards → StreamState P
  totalBufferBytes : Nat

namespace Sensor

def new : Sensor P := ⟨fun _ => .new, 0⟩

/-- Perform an operation on a shard. -/
def call (C : Config) (sensor : Sensor P) (call : ShardCall) : List TrafficEvent × Sensor P :=
  let result := (call.2.program C (sensor.shards call.1)).run sensor.totalBufferBytes
  (result.1.2, ⟨Function.update sensor.shards call.1 result.1.1, result.2.1⟩)

/-- Perform operations one after the other. -/
def callAll (C : Config) : List ShardCall → Sensor P → List TrafficEvent × Sensor P
  | [], sensor => ([], sensor)
  | call :: calls, sensor =>
    let first := sensor.call C call
    let rest := callAll C calls first.2
    (first.1 ++ rest.1, rest.2)

end Sensor

/-! ## Events with their containers -/

/-- What handling an event takes from outside. -/
structure Sight extends LookupMoment where
  wallClockMs : Nat
  processName : Option Str
  hostname : IpAddr → Option Str

/-- What happens to the sensor. -/
inductive SensorOp where
  | handleEvent (sight : Sight) (ev : TlsEventHeader) (payload : Bytes)
  | evictConnection (key : ConnKey)
  | sweep (nowMs : Nat)
  | drainIncomplete (outcome : Str)
  /-- A container lookup has completed. -/
  | updateFromCri (now : Nat) (cgroupId : UInt64) (metadata : ContainerMetadata)
  /-- A container lookup has failed. -/
  | markLookupFailed (cgroupId : UInt64)

/-- The environment of a call, with the answer of the container resolver. -/
def Sight.env (sight : Sight) (container : Option ContainerContext) : Env :=
  ⟨sight.wallClockMs, container, sight.processName, sight.hostname⟩

section Resolution

variable (shardIndex : UInt32 → UInt64 → Fin numShards)

namespace SensorOp

/-- The operations on shards that something leads to, given what the resolver knows. -/
def calls (resolver : ContainerResolver) : SensorOp → List ShardCall
  | .handleEvent sight ev payload =>
    let container := (resolver.resolve sight.toLookupMoment ev.cgroupId).1
    [(shardIndex ev.pid ev.sslPtr, .event (sight.env container) ev payload)]
  | .evictConnection key => [(shardIndex key.pid key.sslPtr, .close key)]
  | .sweep nowMs => (List.finRange numShards).map fun index => (index, .sweep nowMs)
  | .drainIncomplete outcome => (List.finRange numShards).map fun index => (index, .drain outcome)
  | .updateFromCri _ _ _ => []
  | .markLookupFailed _ => []

/-- What the resolver knows afterwards. -/
def resolved (resolver : ContainerResolver) : SensorOp → ContainerResolver
  | .handleEvent sight ev _ => (resolver.resolve sight.toLookupMoment ev.cgroupId).2
  | .updateFromCri now cgroupId metadata => resolver.updateFromCri now cgroupId metadata
  | .markLookupFailed cgroupId => resolver.markLookupFailed cgroupId
  | _ => resolver

end SensorOp

/-- The operations on shards in a run, with the answers the resolver gave. -/
def callsOf : List SensorOp → ContainerResolver → List ShardCall
  | [], _ => []
  | op :: ops, resolver => op.calls shardIndex resolver ++ callsOf ops (op.resolved resolver)

end Resolution

/-- What the resolver knows after a run. -/
def resolverAfter (ops : List SensorOp) (resolver : ContainerResolver) : ContainerResolver :=
  ops.foldl SensorOp.resolved resolver

/-! ## Deleting events -/

/-- The operation is an event outside the scope. -/
def Operation.outOfScope (C : Config) : Operation → Bool
  | .event env _ _ => !StreamState.inScope C env
  | _ => false

/-- The second list is the first without some of the events outside the scope. -/
inductive Deletes (C : Config) : List ShardCall → List ShardCall → Prop
  | nil : Deletes C [] []
  | keep {calls fewer : List ShardCall} (call : ShardCall) :
      Deletes C calls fewer → Deletes C (call :: calls) (call :: fewer)
  | drop {call : ShardCall} {calls fewer : List ShardCall} (outside : call.2.outOfScope C = true) :
      Deletes C calls fewer → Deletes C (call :: calls) fewer

/-- All events outside the scope can be deleted. -/
theorem deletes_filter (calls : List ShardCall) :
    Deletes C calls (calls.filter fun call => !call.2.outOfScope C) := by
  induction calls with
  | nil => exact .nil
  | cons call calls ih =>
    cases outside : call.2.outOfScope C with
    | true =>
      rw [List.filter_cons_of_neg (by simp [outside])]
      exact .drop outside ih
    | false =>
      rw [List.filter_cons_of_pos (by simp [outside])]
      exact .keep call ih

namespace StreamState

/-- An event outside the scope leaves the state and the counter, and returns nothing. -/
theorem run_handleEvent_outside {env : Env} (outside : inScope C env = false) (ev : TlsEventHeader)
    (payload : Bytes) (st : StreamState P) (counter : Nat) :
    ((st.handleEvent C env ev payload).run counter).1 = (st, []) ∧
      ((st.handleEvent C env ev payload).run counter).2.1 = counter := by
  unfold handleEvent scopeAllows
  unfold inScope at outside
  cases limit : C.namespaceScope with
  | none =>
    rw [limit] at outside
    exact absurd outside (by simp)
  | some allowed =>
  rw [limit] at outside
  cases named : env.container.bind ContainerContext.podNamespace with
  | none => exact ⟨rfl, rfl⟩
  | some ns =>
    have foreign : ns ∉ allowed := by simpa [named] using outside
    dsimp only
    rw [if_neg foreign]
    exact ⟨rfl, rfl⟩

end StreamState

namespace Sensor

theorem call_outside {call : ShardCall} (outside : call.2.outOfScope C = true)
    (sensor : Sensor P) : sensor.call C call = ([], sensor) := by
  obtain ⟨index, op⟩ := call
  cases op with
  | event env ev payload =>
    have beyond : StreamState.inScope C env = false := by simpa [Operation.outOfScope] using outside
    obtain ⟨unchanged, counter⟩ := StreamState.run_handleEvent_outside beyond ev payload
      (sensor.shards index) sensor.totalBufferBytes
    simp only [Sensor.call, Operation.program, unchanged, counter, Function.update_eq_self]
  | close key => exact absurd outside (by simp [Operation.outOfScope])
  | sweep nowMs => exact absurd outside (by simp [Operation.outOfScope])
  | drain outcome => exact absurd outside (by simp [Operation.outOfScope])

/-- Deleting events outside the scope changes neither what the shards emit nor what they and the
counter hold, by induction on the run. -/
theorem callAll_deletes {calls fewer : List ShardCall} (deletes : Deletes C calls fewer)
    (sensor : Sensor P) : callAll C fewer sensor = callAll C calls sensor := by
  induction deletes generalizing sensor with
  | nil => rfl
  | keep call _ ih => rw [callAll, callAll, ih]
  | drop outside _ ih => rw [callAll, call_outside outside, ih, List.nil_append]

end Sensor

/-! ## What the resolver answered -/

section Answers

variable {shardIndex : UInt32 → UInt64 → Fin numShards}

/-- An event that reaches the shards was handled at some point of the run, with the answer that the
resolver gave at that point. -/
theorem event_of_mem_callsOf {ops : List SensorOp} {resolver : ContainerResolver}
    {index : Fin numShards} {env : Env} {ev : TlsEventHeader} {payload : Bytes}
    (member : (index, .event env ev payload) ∈ callsOf shardIndex ops resolver) :
    ∃ before sight after, ops = before ++ .handleEvent sight ev payload :: after ∧
      env = sight.env
        ((resolverAfter before resolver).resolve sight.toLookupMoment ev.cgroupId).1 := by
  induction ops generalizing resolver with
  | nil => exact absurd member List.not_mem_nil
  | cons op ops ih =>
    rcases List.mem_append.mp member with here | later
    · cases op with
      | handleEvent sight other bytes =>
        have same : (index, Operation.event env ev payload) =
            (shardIndex other.pid other.sslPtr, .event
              (sight.env (resolver.resolve sight.toLookupMoment other.cgroupId).1) other
              bytes) := List.mem_singleton.mp here
        cases same
        exact ⟨[], sight, ops, rfl, rfl⟩
      | evictConnection key => simp [SensorOp.calls] at here
      | sweep nowMs => simp [SensorOp.calls] at here
      | drainIncomplete outcome => simp [SensorOp.calls] at here
      | updateFromCri now cgroupId metadata => simp [SensorOp.calls] at here
      | markLookupFailed cgroupId => simp [SensorOp.calls] at here
    · obtain ⟨before, sight, after, split, answered⟩ := ih later
      exact ⟨op :: before, sight, after, by rw [split]; rfl, answered⟩

/-- A namespace that the resolver has for a cgroup was supplied by a lookup of that cgroup. -/
theorem recorded_resolverAfter {ops : List SensorOp} {resolver : ContainerResolver}
    {cgroupId : UInt64} {ns : Str} (known : (resolverAfter ops resolver).recorded cgroupId = some ns) :
    resolver.recorded cgroupId = some ns ∨ ∃ now metadata,
      .updateFromCri now cgroupId metadata ∈ ops ∧ metadata.podNamespace = some ns := by
  induction ops generalizing resolver with
  | nil => exact .inl known
  | cons op ops ih =>
    rcases ih known with before | ⟨now, metadata, member, named⟩
    · cases op with
      | handleEvent sight ev payload =>
        rcases resolver.recorded_resolve sight.toLookupMoment ev.cgroupId cgroupId with
          gone | kept
        · exact absurd (gone.symm.trans before) (by simp)
        · exact .inl (kept.symm.trans before)
      | updateFromCri now other metadata =>
        rcases resolver.recorded_updateFromCri now other metadata cgroupId with
          kept | ⟨own, supplied⟩
        · exact .inl (kept.symm.trans before)
        · rw [own]
          exact .inr ⟨now, metadata, List.mem_cons_self, supplied.symm.trans before⟩
      | evictConnection key => exact .inl before
      | sweep nowMs => exact .inl before
      | drainIncomplete outcome => exact .inl before
      | markLookupFailed other => exact .inl before
    · exact .inr ⟨now, metadata, List.mem_cons_of_mem _ member, named⟩

end Answers

/-- With a namespace scope, in every run of the sensor with lookups that complete and fail at any
time: deleting any of the events outside the scope changes neither the emitted events nor the shards
nor the byte counter, so that all of these come from the other events alone; and each of those was
handled when the resolver had an allowed namespace for its cgroup, supplied by a lookup of that
cgroup. -/
theorem namespace_scope_airtight {allowed : List Str} (limited : C.namespaceScope = some allowed)
    (shardIndex : UInt32 → UInt64 → Fin numShards) (ops : List SensorOp) (nodeName : Str) :
    let calls := callsOf shardIndex ops (.new nodeName)
    let run := Sensor.callAll C calls (.new (P := P))
    (∀ fewer, Deletes C calls fewer → Sensor.callAll C fewer .new = run) ∧
      Sensor.callAll C (calls.filter fun call => !call.2.outOfScope C) .new = run ∧
      ∀ index env ev payload,
        (index, .event env ev payload) ∈ calls.filter (fun call => !call.2.outOfScope C) →
        ∃ before sight after ns, ops = before ++ .handleEvent sight ev payload :: after ∧
          (resolverAfter before (.new nodeName)).namespaceOf sight.now ev.cgroupId = some ns ∧
          ns ∈ allowed ∧ ∃ now metadata,
            .updateFromCri now ev.cgroupId metadata ∈ before ∧ metadata.podNamespace = some ns := by
  refine ⟨fun fewer deletes => Sensor.callAll_deletes deletes _,
    Sensor.callAll_deletes (deletes_filter _) _, fun index env ev payload member => ?_⟩
  obtain ⟨called, inside⟩ := List.mem_filter.mp member
  obtain ⟨before, sight, after, split, rfl⟩ := event_of_mem_callsOf called
  obtain ⟨ns, known, admitted⟩ : ∃ ns,
      (resolverAfter before (.new nodeName)).namespaceOf sight.now ev.cgroupId = some ns ∧
        ns ∈ allowed := by
    have accepted : StreamState.inScope C (sight.env
        ((resolverAfter before (.new nodeName)).resolve sight.toLookupMoment ev.cgroupId).1) =
          true := by
      simpa [Operation.outOfScope] using inside
    unfold StreamState.inScope Sight.env at accepted
    rw [limited, Option.all_some, ContainerResolver.podNamespace_resolve] at accepted
    simpa [Option.any_eq_true] using accepted
  rcases recorded_resolverAfter (ContainerResolver.recorded_of_namespaceOf known) with
    initial | supplied
  · exact absurd initial (by simp [ContainerResolver.recorded, ContainerResolver.new])
  · exact ⟨before, sight, after, ns, split, known, admitted, supplied⟩

/-- A sensor limited to one namespace. -/
def shopConfig : Config := { serverConfig 100000 with namespaceScope := some [str "shop"] }

/-- An event of a cgroup at a time on both clocks. -/
def captured (now : Nat) (cgroupId : UInt64) (text : String) : SensorOp :=
  .handleEvent ⟨⟨now, none, true⟩, now, none, fun _ => none⟩
    { onConnection 0x1000 0 with cgroupId } (bytes text)

/-- Three events of a cgroup, before and after its lookup and after its entry has expired, and one
of a cgroup that is never looked up. -/
def lookedUpOps : List SensorOp :=
  [captured 20000 5 "GET /a HTTP/1.1\r\n\r\n",
    .updateFromCri 20100 5 ⟨none, some (str "shop"), none, none, none⟩,
    captured 20200 5 "GET /b HTTP/1.1\r\n\r\n",
    captured 20300 6 "GET /c HTTP/1.1\r\n\r\n",
    captured 620200 5 "GET /d HTTP/1.1\r\n\r\n"]

theorem namespace_scope_airtight_lookedUp :
    let calls := callsOf (fun _ _ => 0) lookedUpOps (.new [])
    let inside := calls.filter fun call => !call.2.outOfScope shopConfig
    calls.length = 4 ∧ inside.length = 1 ∧
      Sensor.callAll shopConfig inside (.new (P := asciiPlatform)) =
        Sensor.callAll shopConfig calls .new :=
  ⟨by decide +kernel, by decide +kernel,
    (namespace_scope_airtight (P := asciiPlatform) (C := shopConfig) rfl (fun _ _ => 0) lookedUpOps
      []).2.1⟩

end ApiSensor
