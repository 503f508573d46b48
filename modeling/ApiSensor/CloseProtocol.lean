import ApiSensor.Kernel
import ApiSensor.Stream.Frame

/-!
# Closes across two rings

The kernel reports I/O and freed TLS objects in two rings that are drained in any order.  A close
names the generation that it ends, and every later event of the object carries a higher one, as
long as the object had state when it was freed.
-/

namespace ApiSensor

open Library Library.Prog

variable {P : Platform} {C : Config} {shardIndex : UInt32 → UInt64 → Fin numShards}

/-! ## The system -/

/-- A record with the number of probe calls that came before it.  The number is for the proofs
only: it is not part of the record. -/
structure Dated (α : Type) where
  time : Nat
  record : α

/-- Kernel, rings and the shards of userspace. -/
structure System (P : Platform) where
  kernel : Kernel
  /-- Probe calls so far. -/
  calls : Nat
  /-- The ring `events`, oldest first. -/
  events : List (Dated (TlsEventHeader × Bytes))
  /-- The ring `close_events`, oldest first. -/
  closeEvents : List (Dated CloseEvent)
  /-- Headers of all events ever emitted. -/
  emitted : List (Dated TlsEventHeader)
  shards : Fin numShards → StreamState P

/-- What can happen next.  A probe may lose its record: sampled out, ring full, or unreadable. -/
inductive Action where
  | ioEntry (task : Task) (sslPtr : UInt64)
  | ioExit (task : Task) (sslPtr : UInt64) (hdr : TlsEventHeader) (payload : Bytes) (kept : Bool)
  | sslFree (task : Task) (sslPtr : UInt64) (kept : Bool)
  /-- The callback of `events` in userspace. -/
  | handleEvent (env : Env)
  /-- The callback of `close_events`. -/
  | handleClose
  | sweep (index : Fin numShards) (nowMs : Nat)

namespace System

def new : System P := ⟨.empty, 0, [], [], [], fun _ => .new⟩

def ioEntry (task : Task) (sslPtr : UInt64) (system : System P) : System P :=
  { system with
    calls := system.calls + 1
    kernel := system.kernel.rememberSslOwner task sslPtr }

def ioExit (task : Task) (sslPtr : UInt64) (hdr : TlsEventHeader) (payload : Bytes) (kept : Bool)
    (system : System P) : System P :=
  let result := system.kernel.emitEvent task sslPtr hdr
  { system with
    calls := system.calls + 1
    kernel := result.2
    events := system.events ++ if kept then [⟨system.calls, result.1, payload⟩] else []
    emitted := system.emitted ++ if kept then [⟨system.calls, result.1⟩] else [] }

def sslFree (task : Task) (sslPtr : UInt64) (kept : Bool) (system : System P) : System P :=
  let result := system.kernel.sslFreeEntry task sslPtr
  { system with
    calls := system.calls + 1
    kernel := result.2
    closeEvents := system.closeEvents ++ if kept then [⟨system.calls, result.1⟩] else [] }

/-- A shard after one of its operations. -/
def setShard (index : Fin numShards) (after : StreamState P) (system : System P) : System P :=
  { system with shards := Function.update system.shards index after }

theorem shards_setShard (index other : Fin numShards) (after : StreamState P)
    (system : System P) :
    (system.setShard index after).shards other =
      if other = index then after else system.shards other :=
  Function.update_apply _ _ _ _

/-- One action.  Userspace takes records from the front of a ring and hands them to the shard of
their object. -/
inductive Step (C : Config) (shardIndex : UInt32 → UInt64 → Fin numShards) :
    System P → Action → System P → Prop
  | ioEntry {system : System P} (task : Task) (sslPtr : UInt64) :
      Step C shardIndex system (.ioEntry task sslPtr) (system.ioEntry task sslPtr)
  | ioExit {system : System P} (task : Task) (sslPtr : UInt64) (hdr : TlsEventHeader)
      (payload : Bytes) (kept : Bool) :
      Step C shardIndex system (.ioExit task sslPtr hdr payload kept)
        (system.ioExit task sslPtr hdr payload kept)
  | sslFree {system : System P} (task : Task) (sslPtr : UInt64) (kept : Bool) :
      Step C shardIndex system (.sslFree task sslPtr kept) (system.sslFree task sslPtr kept)
  | handleEvent {system : System P} {time : Nat} {ev : TlsEventHeader} {payload : Bytes}
      {rest : List (Dated (TlsEventHeader × Bytes))} {env : Env} {after : StreamState P}
      {log : List Note} {events : List TrafficEvent}
      (ring : system.events = ⟨time, ev, payload⟩ :: rest)
      (outcome : Outcome ((system.shards (shardIndex ev.pid ev.sslPtr)).handleEvent C env ev payload)
        log (after, events)) :
      Step C shardIndex system (.handleEvent env)
        ({ system with events := rest }.setShard (shardIndex ev.pid ev.sslPtr) after)
  | handleClose {system : System P} {close : Dated CloseEvent} {rest : List (Dated CloseEvent)}
      {after : StreamState P} {log : List Note} {events : List TrafficEvent}
      (ring : system.closeEvents = close :: rest)
      (outcome : Outcome ((system.shards (shardIndex close.record.pid
        close.record.sslPtr)).evictConnectionByPtr C (.fromClose close.record))
        log (after, events)) :
      Step C shardIndex system .handleClose
        ({ system with closeEvents := rest }.setShard
          (shardIndex close.record.pid close.record.sslPtr) after)
  | sweep {system : System P} {index : Fin numShards} {nowMs : Nat} {after : StreamState P}
      {log : List Note} {events : List TrafficEvent}
      (outcome : Outcome ((system.shards index).evictStale C nowMs) log (after, events)) :
      Step C shardIndex system (.sweep index nowMs) (system.setShard index after)

/-- Runs of the system. -/
abbrev Run (C : Config) (shardIndex : UInt32 → UInt64 → Fin numShards) :
    System P → List (System P × Action) → System P → Prop :=
  Library.Run (Step C shardIndex)

/-! ## What a close removes -/

end System

/-- Everything that is kept for a connection identity is the same in two states. -/
structure Keeps (identity : ConnIdentity) (st after : StreamState P) : Prop where
  buffers : ∀ key : StreamKey, key.identity = identity →
    after.buffers.get? key = st.buffers.get? key
  h1Decoders : ∀ key : StreamKey, key.identity = identity →
    after.h1Decoders.get? key = st.h1Decoders.get? key
  gappedStreams : ∀ key : StreamKey, key.identity = identity →
    (key ∈ after.gappedStreams ↔ key ∈ st.gappedStreams)
  wsRemaining : ∀ key : StreamKey, key.identity = identity →
    after.wsRemaining.get? key = st.wsRemaining.get? key
  pending : ∀ key : ConnKey, key.identity = identity →
    after.pending.get? key = st.pending.get? key
  http2State : ∀ key : ConnKey, key.identity = identity →
    after.http2State.get? key = st.http2State.get? key
  h2EarlyResp : ∀ key : ConnKey, key.identity = identity →
    after.h2EarlyResp.get? key = st.h2EarlyResp.get? key
  h2Prefix : ∀ key : ConnKey, key.identity = identity →
    after.h2Prefix.get? key = st.h2Prefix.get? key
  connRoles : ∀ key : ConnKey, key.identity = identity →
    after.connRoles.get? key = st.connRoles.get? key
  wsConnections : ∀ key : ConnKey, key.identity = identity →
    (key ∈ after.wsConnections ↔ key ∈ st.wsConnections)
  http3Connections : ∀ key : ConnKey, key.identity = identity →
    (key ∈ after.http3Connections ↔ key ∈ st.http3Connections)
  knownConnections : ∀ key : ConnKey, key.identity = identity →
    (key ∈ after.knownConnections ↔ key ∈ st.knownConnections)
  connBornMs : after.connBornMs.get? identity = st.connBornMs.get? identity

theorem Keeps.refl (identity : ConnIdentity) (st : StreamState P) : Keeps identity st st := by
  constructor <;> intros <;> rfl

/-- A close leaves every identity alone that it does not match. -/
theorem StreamState.keeps_closed {key : ConnKey} {identity : ConnIdentity}
    (missed : hit key identity = false) (st : StreamState P) :
    Keeps identity st (st.closed key) := by
  have stream : ∀ other : StreamKey, other.identity = identity →
      (!hit key other.identity) = true := by
    intro other same
    rw [same, missed]
    rfl
  have conn : ∀ other : ConnKey, other.identity = identity →
      (!hit key other.identity) = true := by
    intro other same
    rw [same, missed]
    rfl
  constructor
  case buffers | h1Decoders | wsRemaining =>
    exact fun other same => Dict.get?_retain_of_true
      (fun other : StreamKey => !hit key other.identity) _ (stream other same)
  case pending | http2State | h2EarlyResp | h2Prefix | connRoles =>
    exact fun other same => Dict.get?_retain_of_true
      (fun other : ConnKey => !hit key other.identity) _ (conn other same)
  case gappedStreams =>
    intro other same
    simp only [closed, Finset.mem_filter, stream other same, and_true]
  case wsConnections | http3Connections | knownConnections =>
    intro other same
    simp only [closed, Finset.mem_filter, conn other same, and_true]
  case connBornMs =>
    exact Dict.get?_retain_of_true (fun other => !hit key other) _ (by rw [missed]; rfl)

/-! ## Generations -/

namespace System

/-- Actions after which closes stay harmless.  A freed object has state, its generation can still be
counted up, and its record carries an identity. -/
def Sound (system : System P) : Action → Prop
  | .sslFree task sslPtr _ =>
    ∃ st, system.kernel.sslStateMap.get? (sslKeyFor task sslPtr) = some st ∧
      st.generation.toNat + 1 < 2 ^ 32 ∧ (task.procStartNs ≠ 0 ∨ st.generation ≠ 0)
  | _ => True

/-- A close record in the ring ended its generation: the object is further now, and no event after
the close is matched by it. -/
structure Ended (system : System P) (close : Dated CloseEvent) : Prop where
  named : close.record.procStartNs ≠ 0 ∨ close.record.generation ≠ 0
  passed : close.record.generation <
    system.kernel.generation ⟨close.record.pid, close.record.sslPtr⟩
  missed : ∀ event ∈ system.emitted, close.time < event.time →
    StreamState.hit (.fromClose close.record) event.record.identity = false

/-- The invariant of the protocol. -/
structure Ordered (system : System P) : Prop where
  owned : system.kernel.Owned
  dated : ∀ event ∈ system.emitted, event.time < system.calls
  ended : ∀ close ∈ system.closeEvents, system.Ended close

theorem ordered_new : (new : System P).Ordered :=
  ⟨Kernel.owned_empty, by simp [new], by simp [new]⟩

/-- A close does not match an event whose generation is higher. -/
theorem miss_of_generation {close : CloseEvent} {identity : ConnIdentity}
    (named : close.procStartNs ≠ 0 ∨ close.generation ≠ 0)
    (higher : identity.pid = close.pid → identity.sslPtr = close.sslPtr →
      close.generation < identity.generation) :
    StreamState.hit (.fromClose close) identity = false := by
  by_cases pid : identity.pid = close.pid
  · by_cases ptr : identity.sslPtr = close.sslPtr
    · have other : identity.generation ≠ close.generation :=
        (UInt32.ne_of_lt (higher pid ptr)).symm
      rcases named with start | generation
      · simp [StreamState.hit, ConnKey.fromClose, other, start]
      · simp [StreamState.hit, ConnKey.fromClose, other, generation]
    · simp [StreamState.hit, ConnKey.fromClose, ptr]
  · simp [StreamState.hit, ConnKey.fromClose, pid]

variable {system : System P}

theorem Ordered.ioEntry (ordered : system.Ordered) (task : Task) (sslPtr : UInt64) :
    (system.ioEntry task sslPtr).Ordered where
  owned := ordered.owned.rememberSslOwner task sslPtr
  dated event member := Nat.lt_succ_of_lt (ordered.dated event member)
  ended close member := by
    obtain ⟨named, passed, missed⟩ := ordered.ended close member
    exact ⟨named, passed, missed⟩

theorem Ordered.ioExit (ordered : system.Ordered) (task : Task) (sslPtr : UInt64)
    (hdr : TlsEventHeader) (payload : Bytes) (kept : Bool) :
    (system.ioExit task sslPtr hdr payload kept).Ordered where
  owned := ordered.owned.emitEvent task sslPtr hdr
  dated event member := by
    rcases List.mem_append.mp member with old | new
    · exact Nat.lt_succ_of_lt (ordered.dated event old)
    · cases kept with
      | false => exact absurd new List.not_mem_nil
      | true =>
        rw [if_pos rfl, List.mem_singleton] at new
        rw [new]
        exact Nat.lt_succ_self _
  ended close member := by
    obtain ⟨named, passed, missed⟩ := ordered.ended close member
    refine ⟨named, ?_, fun event emitted later => ?_⟩
    · rw [show (system.ioExit task sslPtr hdr payload kept).kernel =
        (system.kernel.emitEvent task sslPtr hdr).2 from rfl, Kernel.generation_emitEvent]
      exact passed
    · rcases List.mem_append.mp emitted with old | new
      · exact missed event old later
      · cases kept with
        | false => exact absurd new List.not_mem_nil
        | true =>
          rw [if_pos rfl, List.mem_singleton] at new
          rw [new, Kernel.identity_emitEvent]
          -- the event carries the generation of the object, which is past the close
          refine miss_of_generation named fun pid ptr => ?_
          have same : (⟨close.record.pid, close.record.sslPtr⟩ : SslKey) =
              sslKeyFor task sslPtr := by
            rw [← pid, ← ptr]
            rfl
          rw [same] at passed
          exact passed

/-- Counting up a generation that is not the last one. -/
theorem generation_lt_succ {generation : UInt32} (room : generation.toNat + 1 < 2 ^ 32) :
    generation < generation + 1 := by
  rw [UInt32.lt_iff_toNat_lt, UInt32.toNat_add]
  have one : (1 : UInt32).toNat = 1 := rfl
  rw [one, Nat.mod_eq_of_lt room]
  exact Nat.lt_succ_self _

theorem Ordered.sslFree (ordered : system.Ordered) {task : Task} {sslPtr : UInt64} {kept : Bool}
    (sound : system.Sound (.sslFree task sslPtr kept)) :
    (system.sslFree task sslPtr kept).Ordered := by
  obtain ⟨st, found, room, carries⟩ := sound
  have kernel : (system.sslFree task sslPtr kept).kernel =
      (system.kernel.sslFreeEntry task sslPtr).2 := rfl
  have freed := Kernel.sslFreeEntry_of_state found
  refine ⟨ordered.owned.sslFreeEntry task sslPtr,
    fun event member => Nat.lt_succ_of_lt (ordered.dated event member), fun close member => ?_⟩
  rcases List.mem_append.mp member with old | new
  · obtain ⟨named, passed, missed⟩ := ordered.ended close old
    refine ⟨named, ?_, missed⟩
    rw [kernel, (freed _).2.2]
    split
    · rename_i same
      rw [same, Kernel.generation, found] at passed
      exact UInt32.lt_trans passed (generation_lt_succ room)
    · exact passed
  · cases kept with
    | false => exact absurd new List.not_mem_nil
    | true =>
      rw [if_pos rfl, List.mem_singleton] at new
      subst new
      refine ⟨?_, ?_, fun event emitted later => ?_⟩
      · rw [(freed (sslKeyFor task sslPtr)).1, (freed (sslKeyFor task sslPtr)).2.1]
        exact carries
      · rw [kernel, (freed _).2.2, Kernel.key_sslFreeEntry ordered.owned, if_pos rfl,
          (freed (sslKeyFor task sslPtr)).1]
        exact generation_lt_succ room
      · -- every event so far came before this close
        exact absurd later (Nat.lt_asymm (ordered.dated event emitted))

/-- Userspace only takes records out of the rings. -/
theorem Ordered.of_same {after : System P} (ordered : system.Ordered)
    (kernel : after.kernel = system.kernel) (calls : after.calls = system.calls)
    (emitted : after.emitted = system.emitted)
    (closeEvents : after.closeEvents ⊆ system.closeEvents) : after.Ordered := by
  refine ⟨by rw [kernel]; exact ordered.owned, by rw [emitted, calls]; exact ordered.dated, ?_⟩
  intro close member
  obtain ⟨named, passed, missed⟩ := ordered.ended close (closeEvents member)
  exact ⟨named, by rw [kernel]; exact passed, by rw [emitted]; exact missed⟩

theorem ordered_step {after : System P} {action : Action} (ordered : system.Ordered)
    (sound : system.Sound action) (step : Step C shardIndex system action after) :
    after.Ordered := by
  cases step with
  | ioEntry task sslPtr => exact ordered.ioEntry task sslPtr
  | ioExit task sslPtr hdr payload kept => exact ordered.ioExit task sslPtr hdr payload kept
  | sslFree task sslPtr kept => exact ordered.sslFree sound
  | handleEvent ring outcome => exact ordered.of_same rfl rfl rfl (List.Subset.refl _)
  | handleClose ring outcome =>
    refine ordered.of_same rfl rfl rfl ?_
    rw [ring]
    exact List.subset_cons_self _ _
  | sweep outcome => exact ordered.of_same rfl rfl rfl (List.Subset.refl _)

/-- In a run in which every freed object has state, can count its generation up and has an
identity, handling a close changes nothing that is kept for an event emitted after the free. -/
theorem close_spares_later_events {system after : System P} {trace : List (System P × Action)}
    {close : Dated CloseEvent} {rest : List (Dated CloseEvent)} {event : Dated TlsEventHeader}
    (run : Run C shardIndex new trace system)
    (sound : ∀ entry ∈ trace, entry.1.Sound entry.2)
    (step : Step C shardIndex system .handleClose after)
    (ring : system.closeEvents = close :: rest) (emitted : event ∈ system.emitted)
    (later : close.time < event.time) (index : Fin numShards) :
    Keeps event.record.identity (system.shards index) (after.shards index) := by
  have ordered := run.invariant Ordered
    (fun before action after member step ordered => ordered_step ordered (sound _ member) step)
    ordered_new
  have ended := ordered.ended close (by rw [ring]; exact List.mem_cons_self)
  have missed := ended.missed event emitted later
  cases step with
  | @handleClose head _ final _ _ taken outcome =>
    rw [ring] at taken
    cases taken
    have closed : final = (system.shards _).closed (.fromClose close.record) :=
      (StreamState.sat_evictConnectionByPtr C _ _ _ _ outcome).1
    rw [shards_setShard]
    split
    · rename_i same
      rw [closed, same]
      exact StreamState.keeps_closed missed _
    · exact .refl _ _

/-! ## Reused pointers -/

/-- Userspace handles the oldest event, with nothing else reserved. -/
def runEvent (C : Config) (shardIndex : UInt32 → UInt64 → Fin numShards) (env : Env)
    (system : System P) : System P :=
  match system.events with
  | [] => system
  | ⟨_, ev, payload⟩ :: rest =>
    let index := shardIndex ev.pid ev.sslPtr
    { system with events := rest }.setShard index
      (((system.shards index).handleEvent C env ev payload).run 0).1.1

theorem step_runEvent (env : Env) (waiting : system.events ≠ []) :
    Step C shardIndex system (.handleEvent env) (system.runEvent C shardIndex env) := by
  unfold runEvent
  split
  · rename_i none
    exact absurd none waiting
  · rename_i time ev payload rest ring
    exact .handleEvent ring (outcome_run _ 0)

/-- Userspace handles the oldest close, with nothing else reserved. -/
def runClose (C : Config) (shardIndex : UInt32 → UInt64 → Fin numShards) (system : System P) :
    System P :=
  match system.closeEvents with
  | [] => system
  | close :: rest =>
    let index := shardIndex close.record.pid close.record.sslPtr
    { system with closeEvents := rest }.setShard index
      (((system.shards index).evictConnectionByPtr C (.fromClose close.record)).run 0).1.1

theorem step_runClose (waiting : system.closeEvents ≠ []) :
    Step C shardIndex system .handleClose (system.runClose C shardIndex) := by
  unfold runClose
  split
  · rename_i none
    exact absurd none waiting
  · rename_i close rest ring
    exact .handleClose ring (outcome_run _ 0)

instance (system : System P) : (action : Action) → Decidable (system.Sound action)
  | .sslFree task sslPtr _ => decidable_of_iff
      ((system.kernel.sslStateMap.get? (sslKeyFor task sslPtr)).any fun st =>
        st.generation.toNat + 1 < 2 ^ 32 ∧ (task.procStartNs ≠ 0 ∨ st.generation ≠ 0))
      (by simp [Sound, Option.any_eq_true])
  | .ioEntry _ _ => inferInstanceAs (Decidable True)
  | .ioExit _ _ _ _ _ => inferInstanceAs (Decidable True)
  | .handleEvent _ => inferInstanceAs (Decidable True)
  | .handleClose => inferInstanceAs (Decidable True)
  | .sweep _ _ => inferInstanceAs (Decidable True)

/-- Thread 43 of process 42, started at 7. -/
def serverTask : Task := ⟨42 * 2 ^ 32 + 43, 7⟩

/-- A request read from the object at `0x1000`. -/
def readRequest (text : String) : System asciiPlatform → System asciiPlatform :=
  ioExit serverTask 0x1000 (onConnection 0x1000 0) (bytes text) true

/-- The object does I/O, is freed, and another one at its address does I/O. -/
def reused : System asciiPlatform :=
  readRequest "GET /b HTTP/1.1\r\n\r\n"
    (sslFree serverTask 0x1000 true (readRequest "GET /a HTTP/1.1\r\n\r\n" new))

/-- Userspace has handled both events and not yet the close. -/
def reusedHandled : System asciiPlatform :=
  (reused.runEvent (serverConfig 100000) (fun _ _ => 0) (atTime 100)).runEvent
    (serverConfig 100000) (fun _ _ => 0) (atTime 101)

theorem close_spares_later_events_reused :
    let after := reusedHandled.runClose (serverConfig 100000) (fun _ _ => 0)
    (reusedHandled.shards 0).pending.size = 2 ∧ (after.shards 0).pending.size = 1 ∧
      Keeps ⟨42, 0x1000, 7, 1⟩ (reusedHandled.shards 0) (after.shards 0) := by
  have run : Run (serverConfig 100000) (fun _ _ => 0) new
      [(new, .ioExit serverTask 0x1000 (onConnection 0x1000 0)
          (bytes "GET /a HTTP/1.1\r\n\r\n") true),
        (readRequest "GET /a HTTP/1.1\r\n\r\n" new, .sslFree serverTask 0x1000 true),
        (sslFree serverTask 0x1000 true (readRequest "GET /a HTTP/1.1\r\n\r\n" new),
          .ioExit serverTask 0x1000 (onConnection 0x1000 0)
            (bytes "GET /b HTTP/1.1\r\n\r\n") true),
        (reused, .handleEvent (atTime 100)),
        (reused.runEvent (serverConfig 100000) (fun _ _ => 0) (atTime 100),
          .handleEvent (atTime 101))] reusedHandled :=
    .cons (.ioExit _ _ _ _ _) (.cons (.sslFree _ _ _) (.cons (.ioExit _ _ _ _ _)
      (.cons (step_runEvent _ (by decide +kernel)) (.cons (step_runEvent _ (by decide +kernel))
        (.nil _)))))
  refine ⟨by decide +kernel, by decide +kernel, ?_⟩
  exact close_spares_later_events run (by decide +kernel)
    (step_runClose (by decide +kernel)) rfl (List.mem_cons_of_mem _ List.mem_cons_self)
    (by decide) 0

/-- An object is freed without any I/O, so its generation is not counted up.  The next object at the
address has the identity that the close names, and loses its request to it. -/
theorem close_evicts_later_incarnation :
    let freed := sslFree serverTask 0x1000 true (new (P := asciiPlatform))
    let used := readRequest "GET / HTTP/1.1\r\n\r\n" freed
    let handled := used.runEvent (serverConfig 100000) (fun _ _ => 0) (atTime 100)
    let after := handled.runClose (serverConfig 100000) (fun _ _ => 0)
    handled.closeEvents.map Dated.time = [0] ∧ handled.emitted.map Dated.time = [1] ∧
      (handled.shards 0).pending.size = 1 ∧ (after.shards 0).pending.size = 0 := by
  decide +kernel

end System

end ApiSensor
