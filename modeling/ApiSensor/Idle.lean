import ApiSensor.Gaps.Eviction
import ApiSensor.Pairing
import ApiSensor.Stream.Tracked

/-!
# Idle connections

An eviction pass forgets a connection that has been silent for `STREAM_TTL_MS`, unless it was seen
to upgrade or to speak HTTP/3, which keeps it known for ever, or one of its directions is marked as
having a gap.  Whatever else the maps hold about it carries the time of one of its events.
-/

namespace ApiSensor

open Library Library.Prog

variable {P : Platform} {C : Config}

/-- The time at which an operation hears from a connection. -/
def Operation.heardAt (C : Config) (identity : ConnIdentity) : Operation → Option Nat
  | .event env ev _ =>
    if StreamState.inScope C env && ev.identity = identity then some env.now else none
  | _ => none

namespace StreamState

/-! ## What the state holds about a connection -/

/-- No map mentions the connection. -/
@[mk_iff]
structure Forgotten (identity : ConnIdentity) (st : StreamState P) : Prop where
  pending : ∀ key, key.identity = identity → st.pending.contains key = false
  http2State : ∀ key, key.identity = identity → st.http2State.contains key = false
  h2EarlyResp : ∀ key, key.identity = identity → st.h2EarlyResp.contains key = false
  http3Connections : ∀ key, key.identity = identity → key ∉ st.http3Connections
  wsConnections : ∀ key, key.identity = identity → key ∉ st.wsConnections
  knownConnections : ∀ key, key.identity = identity → key ∉ st.knownConnections
  connBornMs : st.connBornMs.contains identity = false
  connRoles : ∀ key, key.identity = identity → st.connRoles.contains key = false
  gappedStreams : ∀ key, key.identity = identity → key ∉ st.gappedStreams
  h1Decoders : ∀ key, key.identity = identity → st.h1Decoders.contains key = false
  buffers : ∀ key, key.identity = identity → st.buffers.contains key = false
  h2Prefix : ∀ key, key.identity = identity → st.h2Prefix.contains key = false
  wsRemaining : ∀ key, key.identity = identity → st.wsRemaining.contains key = false

/-- Whether a connection is forgotten is told by its own part of the state. -/
theorem forgotten_only {identity : ConnIdentity} {st : StreamState P} :
    Forgotten identity (st.only identity) ↔ Forgotten identity st := by
  have dicts {κ ν : Type} [DecidableEq κ] (identityOf : κ → ConnIdentity) (dict : Dict κ ν) :
      (∀ key, identityOf key = identity →
        (dict.retain fun key _ => decide (identityOf key = identity)).contains key = false) ↔
        ∀ key, identityOf key = identity → dict.contains key = false := by
    refine forall₂_congr fun key own => ?_
    rw [Dict.contains_retain fun key => decide (identityOf key = identity)]
    simp [own]
  have born : (st.connBornMs.retain fun other _ => decide (other = identity)).contains identity =
      st.connBornMs.contains identity := by
    rw [Dict.contains_retain fun other => decide (other = identity)]
    simp
  have sets {κ : Type} [DecidableEq κ] (identityOf : κ → ConnIdentity) (keys : Finset κ) :
      (∀ key, identityOf key = identity →
        key ∉ keys.filter fun key => decide (identityOf key = identity)) ↔
        ∀ key, identityOf key = identity → key ∉ keys := by
    refine forall₂_congr fun key own => ?_
    simp [own]
  simp only [forgotten_iff, part, dicts, sets, born]

theorem Forgotten.of_only_eq {identity : ConnIdentity} {st after : StreamState P}
    (same : after.only identity = st.only identity) :
    Forgotten identity after ↔ Forgotten identity st := by
  rw [← forgotten_only, same, forgotten_only]

/-- Everything dated that the state holds about a connection carries times of a kind. -/
structure Aged (identity : ConnIdentity) (old : Nat → Prop) (st : StreamState P) : Prop where
  buffers : ∀ key buffer, st.buffers.get? key = some buffer → key.identity = identity →
    old buffer.2
  pending : ∀ key queue, st.pending.get? key = some queue → key.identity = identity →
    ∀ req ∈ queue.items, old req.tsMs
  http2State : ∀ key conn, st.http2State.get? key = some conn → key.identity = identity →
    old conn.lastEventTs
  h2EarlyResp : ∀ key early, st.h2EarlyResp.get? key = some early → key.identity = identity →
    old early.seenMs

namespace Aged

variable {identity : ConnIdentity} {old : Nat → Prop} {st after : StreamState P}

theorem new : Aged identity old (StreamState.new (P := P)) where
  buffers key buffer found := by simp [StreamState.new] at found
  pending key queue found := by simp [StreamState.new] at found
  http2State key conn found := by simp [StreamState.new] at found
  h2EarlyResp key early found := by simp [StreamState.new] at found

section

variable (aged : Aged identity old st)
include aged

theorem part (keep : ConnIdentity → Bool) :
    Aged identity old (st.part keep) where
  buffers key buffer found := aged.buffers key buffer (Dict.get?_retain_eq_some.mp found).1
  pending key queue found := aged.pending key queue (Dict.get?_retain_eq_some.mp found).1
  http2State key conn found := aged.http2State key conn (Dict.get?_retain_eq_some.mp found).1
  h2EarlyResp key early found := aged.h2EarlyResp key early (Dict.get?_retain_eq_some.mp found).1

theorem drained : Aged identity old st.drained where
  buffers := aged.buffers
  pending key queue found := absurd found (by simp [StreamState.drained])
  http2State key conn found own := by
    simp only [StreamState.drained, Dict.get?_mapValues, Option.map_eq_some_iff] at found
    obtain ⟨before, held, rfl⟩ := found
    exact aged.http2State key before held own
  h2EarlyResp := aged.h2EarlyResp

theorem evicted (nowMs : Nat) :
    Aged identity old (st.evicted nowMs) where
  buffers key buffer found := by
    simp only [StreamState.evicted, forgetInactive, trim, expire, Dict.get?_retain_eq_some] at found
    exact aged.buffers key buffer found.1.1
  pending key queue found own req member := by
    have expired := (Dict.get?_retain_eq_some.mp found).1
    rw [Dict.get?_mapValues, Option.map_eq_some_iff] at expired
    obtain ⟨before, held, rfl⟩ := expired
    exact aged.pending key before held own req (List.dropWhile_subset _ member)
  http2State key conn found own := by
    simp only [StreamState.evicted, forgetInactive, trim, expire, expiredHttp2,
      Dict.get?_retain_eq_some, Dict.get?_mapValues, Option.map_eq_some_iff] at found
    obtain ⟨⟨⟨before, held, rfl⟩, -⟩, -⟩ := found
    exact aged.http2State key before held own
  h2EarlyResp key early found := aged.h2EarlyResp key early (Dict.get?_retain_eq_some.mp found).1

theorem swept (nowMs : Nat) : Aged identity old (st.swept nowMs) := by
  unfold StreamState.swept
  split
  · exact aged
  · exact aged.evicted nowMs

theorem bear (env : Env) (ev : TlsEventHeader) :
    Aged identity old (st.bear env ev) := by
  obtain ⟨born, same⟩ := bear_eq env ev st
  rw [same]
  exact ⟨aged.buffers, aged.pending, aged.http2State, aged.h2EarlyResp⟩

theorem freezeRole (key : ConnKey) (ev : TlsEventHeader) (payload : Bytes) :
    Aged identity old (st.freezeRole C key ev payload) := by
  obtain ⟨roles, same⟩ := freezeRole_eq (C := C) key ev payload st
  rw [same]
  exact ⟨aged.buffers, aged.pending, aged.http2State, aged.h2EarlyResp⟩

theorem queue {key : ConnKey} (own : key.identity = identity) :
    ∀ req ∈ (st.queue key).items, old req.tsMs := by
  intro req member
  unfold StreamState.queue at member
  cases found : st.pending.get? key with
  | none => simp [found, PendingQueue.empty] at member
  | some queue =>
    rw [found] at member
    exact aged.pending key queue found own req member

/-- Updates of a call carry its time. -/
theorem updates {call : Call} {tables : List Table} (changes : Updates tables call st after)
    (key : call.key.identity = identity → old call.env.now)
    (stream : call.ev.identity = identity → old call.env.now) : Aged identity old after := by
  refine changes.invariant (Aged identity old) (fun update before => ?_) aged
  cases update with
  | buffer buf =>
    refine ⟨fun other buffer found own => ?_, before.pending, before.http2State,
      before.h2EarlyResp⟩
    rcases Dict.get?_insert_eq_some found with ⟨rfl, rfl⟩ | held
    · exact stream own
    · exact before.buffers other buffer held own
  | dropBuffer =>
    exact ⟨fun other buffer found => before.buffers other buffer
      (Dict.get?_retain_eq_some.mp found).1, before.pending, before.http2State,
      before.h2EarlyResp⟩
  | queue queue dated =>
    refine ⟨before.buffers, fun other items found own req member => ?_, before.http2State,
      before.h2EarlyResp⟩
    rcases Dict.get?_insert_eq_some found with ⟨rfl, rfl⟩ | held
    · rcases dated req member with queued | stamped
      · exact before.queue own req queued
      · rw [stamped]
        exact key own
    · exact before.pending other items held own req member
  | http2 conn dated =>
    refine ⟨before.buffers, before.pending, fun other stored found own => ?_,
      before.h2EarlyResp⟩
    rcases Dict.get?_insert_eq_some found with ⟨rfl, rfl⟩ | held
    · rw [dated]
      exact key own
    · exact before.http2State other stored held own
  | dropHttp2 =>
    exact ⟨before.buffers, before.pending, fun other conn found => before.http2State other conn
      (Dict.get?_retain_eq_some.mp found).1, before.h2EarlyResp⟩
  | early early =>
    refine ⟨before.buffers, before.pending, before.http2State, fun other stored found own => ?_⟩
    rcases Dict.get?_insert_eq_some found with ⟨rfl, rfl⟩ | held
    · exact key own
    · exact before.h2EarlyResp other stored held own
  | dropEarly =>
    exact ⟨before.buffers, before.pending, before.http2State, fun other early found =>
      before.h2EarlyResp other early (Dict.get?_retain_eq_some.mp found).1⟩
  | _ => exact ⟨before.buffers, before.pending, before.http2State, before.h2EarlyResp⟩

theorem step {stage : Stage} (step : Step C st stage after)
    (stamped : ∀ heard, stage.op.heardAt C identity = some heard → old heard) :
    Aged identity old after := by
  cases step.stepped with
  | outside => exact aged
  | event env ev payload inside _ receives =>
    obtain ⟨_, _, changes⟩ := updates_receive env ev payload (st.connKey env ev)
      (st.admitted env ev) _ _ receives
    have swept := (aged.bear env ev).swept env.now
    have admitted : Aged identity old (st.admitted env ev) :=
      ⟨swept.buffers, swept.pending, swept.http2State, swept.h2EarlyResp⟩
    have heard : ev.identity = identity → old env.now := fun own =>
      stamped env.now (by simp [Operation.heardAt, inside, own])
    exact (admitted.freezeRole _ ev payload).updates changes heard heard
  | sweep nowMs => exact aged.swept nowMs
  | close closed =>
    rw [closed_eq_part]
    exact aged.part _
  | drain => exact aged.drained

end

/-- After a run, what the state holds about a connection is as old as its events. -/
theorem run {trace : List (StreamState P × Stage)} (run : Run C StreamState.new trace st)
    (stamped : ∀ entry ∈ trace, ∀ heard, entry.2.op.heardAt C identity = some heard → old heard) :
    Aged identity old st :=
  run.invariant (Aged identity old)
    (fun _ _ _ member step aged => aged.step step (stamped _ member)) new

end Aged

/-! ## The pass -/

/-- Nothing keeps the state from forgetting an idle connection: it has neither upgraded nor spoken
HTTP/3, and no direction of it is marked unless all marks are about to be cleared. -/
def Releases (identity : ConnIdentity) (st : StreamState P) : Prop :=
  (∀ key ∈ st.wsConnections ∪ st.http3Connections, key.identity ≠ identity) ∧
    (maxStreamEntries < st.gappedStreams.card ∨
      ∀ stream ∈ st.gappedStreams, stream.identity ≠ identity)

/-- The times at which something has expired when a pass is made. -/
def Expired (nowMs : Nat) (seenMs : Nat) : Prop := streamTtlMs ≤ nowMs - seenMs

theorem fresh_eq_false {nowMs seenMs : Nat} (expired : Expired nowMs seenMs) :
    fresh nowMs seenMs = false :=
  decide_eq_false (Nat.not_lt.mpr expired)

section Pass

variable {identity : ConnIdentity} {nowMs : Nat} {st : StreamState P}

variable {key : ConnKey}

section

variable (aged : Aged identity (Expired nowMs) st)
include aged

theorem Aged.expired {queue : PendingQueue P} {req : ParsedRequest}
    (found : st.pending.get? key = some queue) (own : key.identity = identity)
    (member : req ∈ queue.items) :
    req.expired nowMs streamTtlMs = true :=
  decide_eq_true (aged.pending key queue found own req member)

/-- An idle connection is anchored by an upgrade only. -/
theorem anchored_iff_of_aged (own : key.identity = identity) :
    st.Anchored nowMs key ↔ key ∈ st.wsConnections ∪ st.http3Connections := by
  rw [Finset.mem_union]
  constructor
  · rintro (⟨queue, found, req, member, young⟩ | ⟨conn, found, young, -⟩ | upgraded)
    · rw [aged.expired found own member] at young
      exact absurd young (by simp)
    · rw [fresh_eq_false (aged.http2State key conn found own)] at young
      exact absurd young (by simp)
    · exact upgraded
  · exact fun upgraded => .inr (.inr upgraded)

theorem pending_evicted (own : key.identity = identity) :
    (st.evicted nowMs).pending.contains key = false := by
  rw [← Bool.not_eq_true]
  intro held
  obtain ⟨queue, found, req, member, young⟩ := (st.contains_pending_expire nowMs key).mp held
  rw [aged.expired found own member] at young
  exact absurd young (by simp)

theorem http2State_evicted (own : key.identity = identity) :
    (st.evicted nowMs).http2State.contains key = false := by
  rw [← Bool.not_eq_true]
  intro held
  obtain ⟨conn, found, young, -⟩ := (st.contains_http2State_trim nowMs key).mp held
  rw [fresh_eq_false (aged.http2State key conn found own)] at young
  exact absurd young (by simp)

theorem h2EarlyResp_evicted (own : key.identity = identity) :
    (st.evicted nowMs).h2EarlyResp.contains key = false := by
  rw [← Bool.not_eq_true]
  intro held
  obtain ⟨early, found⟩ := Option.isSome_iff_exists.mp held
  obtain ⟨before, young⟩ := Dict.get?_retain_eq_some.mp found
  rw [fresh_eq_false (aged.h2EarlyResp key early before own)] at young
  exact absurd young (by simp)

theorem buffers_evicted {key : StreamKey} (own : key.identity = identity) :
    (st.evicted nowMs).buffers.contains key = false := by
  rw [← Bool.not_eq_true]
  intro held
  obtain ⟨buffer, found⟩ := Option.isSome_iff_exists.mp held
  simp only [evicted, forgetInactive, trim, expire, Dict.get?_retain_eq_some] at found
  obtain ⟨⟨before, young⟩, -⟩ := found
  rw [fresh_eq_false (aged.buffers key buffer before own)] at young
  exact absurd young (by simp)

theorem not_known_evicted
    (plain : ∀ key ∈ st.wsConnections ∪ st.http3Connections, key.identity ≠ identity)
    (own : key.identity = identity) :
    key ∉ (st.evicted nowMs).knownConnections := by
  intro known
  have anchored := (mem_knownConnections_evicted.mp known).2
  exact plain key ((anchored_iff_of_aged aged own).mp anchored) own

end

/-- What a pass makes of an idle connection. -/
theorem forgotten_evicted_iff {entering : Option ConnIdentity} (tracked : Tracked entering st)
    (other : entering ≠ some identity) (aged : Aged identity (Expired nowMs) st) :
    Forgotten identity (st.evicted nowMs) ↔ st.Releases identity := by
  have gapped : (st.evicted nowMs).gappedStreams =
      if maxStreamEntries < st.gappedStreams.card then ∅ else st.gappedStreams := rfl
  constructor
  · intro forgotten
    constructor
    · intro key upgraded own
      have anchored := (anchored_iff_of_aged aged own).mpr upgraded
      have known := tracked.upgraded key upgraded
      exact forgotten.knownConnections key own (mem_knownConnections_evicted.mpr ⟨known, anchored⟩)
    · by_cases full : maxStreamEntries < st.gappedStreams.card
      · exact .inl full
      · refine .inr fun stream marked own => forgotten.gappedStreams stream own ?_
        rw [gapped, if_neg full]
        exact marked
  · rintro ⟨plain, unmarked⟩
    have unknown : ∀ key, key.identity = identity → key ∉ (st.evicted nowMs).knownConnections :=
      fun _ own => not_known_evicted aged plain own
    have buffers : ∀ key, key.identity = identity →
        (st.evicted nowMs).buffers.contains key = false :=
      fun key own => buffers_evicted aged own
    constructor
    case knownConnections => exact unknown
    case buffers => exact buffers
    case pending => exact fun key own => pending_evicted aged own
    case http2State => exact fun key own => http2State_evicted aged own
    case h2EarlyResp => exact fun key own => h2EarlyResp_evicted aged own
    case http3Connections =>
      exact fun key own member => unknown key own (Finset.mem_filter.mp member).2
    case wsConnections =>
      exact fun key own member => unknown key own (Finset.mem_filter.mp member).2
    case connBornMs =>
      rw [← Bool.not_eq_true, contains_connBornMs_evicted]
      rintro ⟨born, active⟩
      obtain ⟨key, known, own⟩ := tracked.born identity born other
      exact plain key ((anchored_iff_of_aged aged own).mp (active key known own)) own
    case connRoles =>
      intro key own
      rw [Dict.contains, connRoles_evicted]
      simp [unknown key own]
    case gappedStreams =>
      intro stream own marked
      rw [gapped] at marked
      split at marked
      · exact absurd marked (Finset.notMem_empty _)
      · exact unmarked.resolve_left ‹_› stream marked own
    case h1Decoders =>
      intro key own
      have retained : (st.evicted nowMs).h1Decoders.contains key =
          (st.h1Decoders.contains key && (st.evicted nowMs).buffers.contains key) :=
        Dict.contains_retain _ _ _
      rw [retained, buffers key own, Bool.and_false]
    case h2Prefix =>
      intro key own
      have retained : (st.evicted nowMs).h2Prefix.contains key =
          (st.h2Prefix.contains key && decide (key ∈ (st.evicted nowMs).knownConnections)) :=
        Dict.contains_retain _ _ _
      rw [retained, decide_eq_false (unknown key own), Bool.and_false]
    case wsRemaining =>
      intro key own
      have retained : (st.evicted nowMs).wsRemaining.contains key =
          (st.wsRemaining.contains key &&
            decide (∃ conn ∈ (st.evicted nowMs).wsConnections, conn.identity = key.identity)) :=
        Dict.contains_retain _ _ _
      have nobody : ¬ ∃ conn ∈ (st.evicted nowMs).wsConnections, conn.identity = key.identity := by
        rintro ⟨conn, member, same⟩
        exact unknown conn (same.trans own) (Finset.mem_filter.mp member).2
      rw [retained, decide_eq_false nobody, Bool.and_false]

end Pass

/-! ## Runs -/

/-- After an eviction pass that is not gated, a connection that has been silent for `STREAM_TTL_MS`
is forgotten exactly when nothing kept it. -/
theorem idle_forgotten_iff {st after : StreamState P} {trace : List (StreamState P × Stage)}
    {stage : Stage} {identity : ConnIdentity} {nowMs : Nat} (run : Run C new trace st)
    (step : Step C st stage after) (pass : stage.op.passAt C = some nowMs)
    (due : 10000 ≤ nowMs - st.lastEvictionMs) (other : stage.op.concerns identity = false)
    (idle : ∀ entry ∈ trace, ∀ heard ∈ entry.2.op.heardAt C identity,
      streamTtlMs ≤ nowMs - heard) :
    Forgotten identity after ↔ st.Releases identity := by
  have aged : Aged identity (Expired nowMs) st := Aged.run run idle
  have tracked := Tracked.run run
  obtain ⟨op, log, events⟩ := stage
  cases op with
  | event env ev payload =>
    obtain ⟨inside, now_eq⟩ : inScope C env = true ∧ env.now = nowMs := by
      simpa [Operation.passAt] using pass
    have distinct : ev.identity ≠ identity := of_decide_eq_false other
    subst now_eq
    obtain ⟨_, _, _, _, -, -, -, receives⟩ := received_of_inside inside step
    obtain ⟨_, _, changes⟩ := updates_receive env ev payload (st.connKey env ev)
      (st.admitted env ev) _ _ receives
    obtain ⟨born, bear_same⟩ := bear_eq env ev st
    have dropped : decide (ev.identity = identity) = false := decide_eq_false distinct
    have same : after.only identity = ((st.bear env ev).evicted env.now).only identity := by
      calc after.only identity
          = ((st.admitted env ev).freezeRole C (st.connKey env ev) ev payload).only identity :=
            changes.part_eq dropped dropped
        _ = (st.admitted env ev).only identity := part_freezeRole dropped ev payload _
        _ = ((st.bear env ev).swept env.now).only identity := part_know dropped _
        _ = ((st.bear env ev).evicted env.now).only identity := by
            rw [swept, if_neg]
            simpa [bear_same] using due
    rw [Forgotten.of_only_eq same,
      forgotten_evicted_iff (tracked.bear env ev) (by simpa using distinct) (aged.bear env ev)]
    rw [bear_same]
    exact Iff.rfl
  | sweep sweepMs =>
    have now_eq : sweepMs = nowMs := Option.some.inj pass
    have after_eq : after = st.swept sweepMs := (sat_evictStale C sweepMs st _ _ step).1
    rw [after_eq, swept, if_neg (by omega), now_eq]
    exact forgotten_evicted_iff tracked (by simp) aged
  | close key => exact absurd pass (by simp [Operation.passAt])
  | drain outcome => exact absurd pass (by simp [Operation.passAt])

instance (identity : ConnIdentity) (st : StreamState P) : Decidable (st.Releases identity) :=
  inferInstanceAs (Decidable (_ ∧ _))

/-- An unanswered request after five minutes. -/
theorem idle_forgotten_iff_unanswered :
    let waiting := (exec (serverConfig 100000) [chunk 20000 0 "GET /a HTTP/1.1\r\n\r\n"]
      (new (P := asciiPlatform)) 0).2
    let swept := ((Operation.sweep 320000).program (serverConfig 100000) waiting.1).run waiting.2
    Forgotten (onConnection 0x1000 0).identity swept.1.1 := by
  intro waiting swept
  have run := run_exec (serverConfig 100000) [chunk 20000 0 "GET /a HTTP/1.1\r\n\r\n"]
    (new (P := asciiPlatform)) 0
  have step := step_run (serverConfig 100000) waiting.1 (.sweep 320000) waiting.2
  exact (idle_forgotten_iff run step rfl (by decide +kernel) rfl (by decide +kernel)).mpr
    (by decide +kernel)

/-- A connection that switches to WebSocket and falls silent. -/
def silentSocketOps : List Operation :=
  [chunk 20000 0 "GET / HTTP/1.1\r\nUpgrade: websocket\r\n\r\n",
    chunk 20001 1 "HTTP/1.1 101 Switching Protocols\r\nUpgrade: websocket\r\n\r\n",
    .sweep 400000, .sweep 800000]

/-- The upgrade keeps the connection known, and being known keeps the upgrade, in every pass. -/
theorem idle_socket_never_forgotten :
    let final := (exec (serverConfig 100000) silentSocketOps (new (P := asciiPlatform)) 0).2.1
    ConnKey.fromEvent (onConnection 0x1000 0) 20000 ∈ final.wsConnections ∩ final.knownConnections ∧
      ¬ Forgotten (onConnection 0x1000 0).identity final := by
  have kept : ConnKey.fromEvent (onConnection 0x1000 0) 20000 ∈
      (exec (serverConfig 100000) silentSocketOps (new (P := asciiPlatform)) 0).2.1.wsConnections ∩
      (exec (serverConfig 100000) silentSocketOps
        (new (P := asciiPlatform)) 0).2.1.knownConnections := by
    decide +kernel
  refine ⟨kept, fun forgotten => ?_⟩
  exact forgotten.wsConnections _ rfl (Finset.mem_inter.mp kept).1

end StreamState

end ApiSensor
