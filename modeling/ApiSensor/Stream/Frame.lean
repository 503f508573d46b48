import ApiSensor.Stream.Updates

/-!
# What one call can change

A call of `handle_event` works on one direction of one connection.  Apart from the eviction pass,
which is a pure function of state and time, it leaves every entry of other directions and other
connections alone.
-/

namespace ApiSensor

open Library Library.Prog

variable {P : Platform}

/-- Two states that differ at most in the entries of one direction and one connection. -/
structure Local (call : Call) (before after : StreamState P) : Prop where
  buffers : ∀ key, key ≠ call.streamKey → after.buffers.get? key = before.buffers.get? key
  h1Decoders : ∀ key, key ≠ call.streamKey → after.h1Decoders.get? key = before.h1Decoders.get? key
  gappedStreams : ∀ key, key ≠ call.streamKey →
    (key ∈ after.gappedStreams ↔ key ∈ before.gappedStreams)
  wsRemaining : ∀ key, key ≠ call.streamKey →
    after.wsRemaining.get? key = before.wsRemaining.get? key
  pending : ∀ key, key ≠ call.key → after.pending.get? key = before.pending.get? key
  http2State : ∀ key, key ≠ call.key → after.http2State.get? key = before.http2State.get? key
  h2EarlyResp : ∀ key, key ≠ call.key → after.h2EarlyResp.get? key = before.h2EarlyResp.get? key
  h2Prefix : ∀ key, key ≠ call.key → after.h2Prefix.get? key = before.h2Prefix.get? key
  connRoles : ∀ key, key ≠ call.key → after.connRoles.get? key = before.connRoles.get? key
  http3Connections : ∀ key, key ≠ call.key →
    (key ∈ after.http3Connections ↔ key ∈ before.http3Connections)
  wsConnections : ∀ key, key ≠ call.key →
    (key ∈ after.wsConnections ↔ key ∈ before.wsConnections)
  knownConnections : after.knownConnections = before.knownConnections
  connBornMs : after.connBornMs = before.connBornMs
  lastEvictionMs : after.lastEvictionMs = before.lastEvictionMs

namespace Local

variable {call : Call} {st middle after : StreamState P}

theorem refl (call : Call) (st : StreamState P) : Local call st st := by
  constructor <;> intros <;> rfl

theorem trans (first : Local call st middle) (second : Local call middle after) :
    Local call st after where
  buffers key other := (second.buffers key other).trans (first.buffers key other)
  h1Decoders key other := (second.h1Decoders key other).trans (first.h1Decoders key other)
  gappedStreams key other := (second.gappedStreams key other).trans (first.gappedStreams key other)
  wsRemaining key other := (second.wsRemaining key other).trans (first.wsRemaining key other)
  pending key other := (second.pending key other).trans (first.pending key other)
  http2State key other := (second.http2State key other).trans (first.http2State key other)
  h2EarlyResp key other := (second.h2EarlyResp key other).trans (first.h2EarlyResp key other)
  h2Prefix key other := (second.h2Prefix key other).trans (first.h2Prefix key other)
  connRoles key other := (second.connRoles key other).trans (first.connRoles key other)
  http3Connections key other :=
    (second.http3Connections key other).trans (first.http3Connections key other)
  wsConnections key other := (second.wsConnections key other).trans (first.wsConnections key other)
  knownConnections := second.knownConnections.trans first.knownConnections
  connBornMs := second.connBornMs.trans first.connBornMs
  lastEvictionMs := second.lastEvictionMs.trans first.lastEvictionMs

theorem of_update {table : Table} (update : Update call table st after) : Local call st after := by
  cases update <;> constructor <;> first
    | rfl
    | (intro key other
       first
         | rfl
         | exact Dict.get?_insert_of_ne _ other _
         | exact Dict.get?_erase_of_ne _ other
         | simp [StreamState.resume, Finset.mem_insert, other])

theorem of_updates {tables : List Table} (changes : Updates tables call st after) :
    Local call st after :=
  changes.invariant (Local call st) (fun update before => before.trans (of_update update))
    (refl call st)

end Local

/-! ## Handlers -/

namespace StreamState

variable {C : Config} {call : Call}

section

variable (env : Env) (ev : TlsEventHeader) (payload : Bytes) (key : ConnKey) (isRequestDir : Bool)

theorem local_freezeRole (st : StreamState P) :
    Local ⟨env, ev, key, isRequestDir⟩ st (st.freezeRole C key ev payload) := by
  unfold freezeRole
  split
  · split
    · exact { Local.refl _ st with connRoles := fun _ other => Dict.get?_insert_of_ne _ other _ }
    · exact Local.refl _ st
  · exact Local.refl _ st

theorem local_receive (st : StreamState P) :
    Sat (st.receive C env ev payload key)
      fun _ result => Local ⟨env, ev, key, isRequestDir⟩ st result.1 := by
  refine (updates_receive env ev payload key st).mono fun _ result changes => ?_
  obtain ⟨_, _, changes⟩ := changes
  -- the flag of the call plays no part in what is local to it
  have later : Local ⟨env, ev, key, isRequestDir⟩ _ result.1 := { Local.of_updates changes with }
  exact (local_freezeRole env ev payload key isRequestDir st).trans later

end

/-! ## Routes -/

/-- What has to be the case for a payload to take a route. -/
def Guard (call : Call) (payload : Bytes) (st : StreamState P) : Route → Prop
  | .holdPrefix =>
    st.http2State.contains call.key = false ∧ call.isRequestDir = true ∧
      st.buffers.contains call.streamKey = false ∧ payload ≠ [] ∧
      payload.length < http2Preface.length ∧ payload.isPrefixOf http2Preface = true ∧
      st.h2Prefix.size < maxH2EarlyConns
  | .early =>
    st.http2State.contains call.key = false ∧ call.isRequestDir = false ∧
      looksLikeH2ConnectionFrames payload = true
  | .startHttp2 =>
    st.http2State.contains call.key = false ∧ call.isRequestDir = true ∧
      st.buffers.contains call.streamKey = false ∧ http2Preface.isPrefixOf payload = true
  | .http2 => st.http2State.contains call.key = true
  | .empty => st.http2State.contains call.key = false ∧ payload = []
  | .http3 =>
    st.http2State.contains call.key = false ∧
      (call.key ∈ st.http3Connections ∨ looksLikeHttp3 payload = true)
  | .webSocket => st.http2State.contains call.key = false ∧ call.key ∈ st.wsConnections
  | .skip =>
    st.http2State.contains call.key = false ∧ call.streamKey ∈ st.gappedStreams ∧
      (startsHttp1Message payload = false ∨ call.ev.isTruncated = true)
  | .http1 =>
    st.http2State.contains call.key = false ∧ payload ≠ [] ∧
      call.key ∉ st.http3Connections ∧ looksLikeHttp3 payload = false ∧
      call.key ∉ st.wsConnections ∧
      (call.streamKey ∈ st.gappedStreams →
        startsHttp1Message payload = true ∧ call.ev.isTruncated = false) ∧
      (call.isRequestDir = false → looksLikeH2ConnectionFrames payload = false) ∧
      (call.isRequestDir = true → st.buffers.contains call.streamKey = false →
        http2Preface.isPrefixOf payload = false ∧
          (payload.length < http2Preface.length → payload.isPrefixOf http2Preface = true →
            maxH2EarlyConns ≤ st.h2Prefix.size))

theorem guard_route (call : Call) (payload : Bytes) (st : StreamState P) :
    st.Guard call payload (st.route call payload) := by
  unfold route
  simp only [Bool.and_eq_true, Bool.not_eq_true', Bool.or_eq_true, decide_eq_true_eq]
  split_ifs <;> simp_all [Guard]
  rename_i unopened _ _ _ _ _
  intro request unbuffered
  refine Bool.eq_false_iff.mpr fun opens => ?_
  exact unopened request unbuffered (List.isPrefixOf_iff_prefix.mp opens)

end StreamState

end ApiSensor
