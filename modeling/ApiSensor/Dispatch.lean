import ApiSensor.Stream.Frame

/-!
# Payloads that are taken for another protocol

On a connection that speaks HTTP/1 the protocol tests of `handle_event` still look at every chunk.
A chunk reaches the decoder exactly when none of them claims it.
-/

namespace ApiSensor

open Library Library.Prog

variable {P : Platform} {C : Config} {call : Call}

/-! ## What the handlers do to the protocol of a connection -/

/-- The protocol of every connection, and what is held for HTTP/2, are the same. -/
structure SameProtocols (before after : StreamState P) : Prop where
  http2State : after.http2State = before.http2State
  http3Connections : after.http3Connections = before.http3Connections
  h2EarlyResp : after.h2EarlyResp = before.h2EarlyResp

namespace StreamState

section

variable (payload : Bytes) (st : StreamState P)

/-- A chunk that is granted its memory and fits the buffer is fed to the decoder. -/
theorem sat_handleHttp1 (fits : (st.bufferOf call.streamKey ++ payload).length ≤ C.maxBuffer) :
    Sat (st.handleHttp1 C call payload) fun log _ =>
      .chunkRefused call.streamKey ∈ log ∨
        .fed call.streamKey (st.bufferOf call.streamKey ++ payload) ∈ log := by
  refine sat_reserveMemory_bind.mpr fun granted => ?_
  cases granted with
  | false => exact sat_count_bind.mpr (sat_note_bind.mpr (sat_pure.mpr (.inl (by simp))))
  | true =>
    have small : ¬ C.maxBuffer < ((st.resume call).bufferOf call.streamKey ++ payload).length :=
      Nat.not_lt.mpr fits
    rw [if_pos rfl]
    unfold consume
    rw [if_neg small]
    refine sat_note_bind.mpr fun _ _ _ => .inr ?_
    exact List.mem_cons_self

theorem sat_startHttp2 :
    Sat (st.startHttp2 C call payload)
      fun _ result => result.1.http2State.contains call.key = true := by
  have processed : ∀ before : StreamState P, Sat (before.processHttp2Event C call payload)
      fun _ result => result.1.http2State.contains call.key = true := fun before =>
    sat_bind.mpr fun _ _ _ => sat_pure.mpr (by simp [Dict.contains])
  unfold startHttp2
  split
  · exact processed st
  · refine sat_bind.mpr fun _ replayed _ => sat_releaseMemory_bind.mpr ?_
    exact (processed _).bind fun _ result known => sat_pure.mpr known

theorem sat_handleHttp3 :
    Sat (st.handleHttp3 C call payload)
      fun _ result => call.key ∈ result.1.http3Connections := by
  refine (moves_http3HeaderSets _ _).mono fun _ _ moves => ?_
  refine moves.updates.invariant (fun st => call.key ∈ st.http3Connections)
    (fun update member => ?_) (Finset.mem_insert_self call.key _)
  cases update <;> first | exact member | exact Finset.mem_insert_of_mem member

theorem sat_holdEarly :
    Sat (st.holdEarly C call payload) fun log _ => ∀ stream buf, .fed stream buf ∉ log := by
  unfold holdEarly
  split
  · exact sat_count_bind.mpr (sat_pure.mpr (by simp))
  · dsimp only
    split
    · refine sat_reserveMemory_bind.mpr fun granted => ?_
      cases granted with
      | true => exact sat_pure.mpr (by simp)
      | false => exact sat_pure.mpr (by simp)
    · exact sat_pure.mpr (by simp)

end

/-! ## The tests -/

/-- No test claims the payload: it does not look like HTTP/3, nor like HTTP/2 frames of a server;
if it comes first in the request direction it is not, and could not become, the HTTP/2 preface; and
behind a gap it starts a message. -/
def Unmistakable (call : Call) (payload : Bytes) (st : StreamState P) : Prop :=
  looksLikeHttp3 payload = false ∧
    (call.isRequestDir = false → looksLikeH2ConnectionFrames payload = false) ∧
    (call.isRequestDir = true → st.buffers.contains call.streamKey = false →
      http2Preface.isPrefixOf payload = false ∧
        (payload.length < http2Preface.length → payload.isPrefixOf http2Preface = true →
          maxH2EarlyConns ≤ st.h2Prefix.size)) ∧
    (call.streamKey ∈ st.gappedStreams → startsHttp1Message payload = true)

variable {st : StreamState P} {payload : Bytes} {log : List Note}

/-- On a connection of no other protocol these are all the tests there are. -/
theorem route_eq_http1_iff (notHttp2 : st.http2State.contains call.key = false)
    (notHttp3 : call.key ∉ st.http3Connections) (notUpgraded : call.key ∉ st.wsConnections)
    (whole : call.ev.isTruncated = false) (nonempty : payload ≠ []) :
    st.route call payload = .http1 ↔ st.Unmistakable call payload := by
  have guard := st.guard_route call payload
  constructor
  · intro taken
    rw [taken] at guard
    obtain ⟨-, -, -, noHttp3, -, resumes, noFrames, noPreface⟩ := guard
    exact ⟨noHttp3, noFrames, noPreface, fun gapped => (resumes gapped).1⟩
  · rintro ⟨noHttp3, noFrames, noPreface, resumes⟩
    cases taken : st.route call payload with
    | http1 => rfl
    | holdPrefix =>
      rw [taken] at guard
      obtain ⟨-, request, unbuffered, -, short, begins, room⟩ := guard
      exact absurd room (Nat.not_lt.mpr ((noPreface request unbuffered).2 short begins))
    | early =>
      rw [taken] at guard
      simp [Guard, noFrames guard.2.1] at guard
    | startHttp2 =>
      rw [taken] at guard
      simp [Guard, (noPreface guard.2.1 guard.2.2.1).1] at guard
    | http2 =>
      rw [taken] at guard
      simp [Guard, notHttp2] at guard
    | empty =>
      rw [taken] at guard
      exact absurd guard.2 nonempty
    | http3 =>
      rw [taken] at guard
      simp [Guard, notHttp3, noHttp3] at guard
    | webSocket =>
      rw [taken] at guard
      exact absurd guard.2 notUpgraded
    | skip =>
      rw [taken] at guard
      simp [Guard, whole, resumes guard.2.1] at guard

variable {after : StreamState P} {events : List TrafficEvent}

section

variable (outcome : Outcome (st.dispatch C call payload) log (after, events))
  (notHttp3 : call.key ∉ st.http3Connections) (notUpgraded : call.key ∉ st.wsConnections)
  (whole : call.ev.isTruncated = false) (nonempty : payload ≠ [])
include outcome notHttp3 notUpgraded whole nonempty

/-- A payload that is fed, on a connection that keeps its protocol, was claimed by no test. -/
theorem unmistakable_of_fed (notHttp2 : st.http2State.contains call.key = false)
    (fed : ∃ buf, .fed call.streamKey buf ∈ log)
    (noHttp2 : after.http2State.contains call.key = false)
    (noHttp3 : call.key ∉ after.http3Connections) : st.Unmistakable call payload := by
  rw [← route_eq_http1_iff notHttp2 notHttp3 notUpgraded whole nonempty]
  have guard := st.guard_route call payload
  obtain ⟨buf, fed⟩ := fed
  unfold dispatch at outcome
  cases taken : st.route call payload with
  | http1 => rfl
  | holdPrefix =>
    rw [taken] at outcome
    cases outcome
    exact absurd fed List.not_mem_nil
  | early =>
    rw [taken] at outcome
    exact absurd fed (sat_holdEarly payload st _ _ outcome _ _)
  | startHttp2 =>
    rw [taken] at outcome
    have opened : after.http2State.contains call.key = true :=
      sat_startHttp2 payload st _ _ outcome
    rw [opened] at noHttp2
    exact absurd noHttp2 (by simp)
  | http2 =>
    rw [taken] at guard
    simp [Guard, notHttp2] at guard
  | empty =>
    rw [taken] at guard
    exact absurd guard.2 nonempty
  | http3 =>
    rw [taken] at outcome
    exact absurd (sat_handleHttp3 payload st _ _ outcome) noHttp3
  | webSocket =>
    rw [taken] at guard
    exact absurd guard.2 notUpgraded
  | skip =>
    rw [taken] at outcome
    cases outcome
    exact absurd fed List.not_mem_nil

/-- A payload that no test claims is fed, and the protocols stay as they are. -/
theorem fed_of_unmistakable (notHttp2 : st.http2State.contains call.key = false)
    (granted : .chunkRefused call.streamKey ∉ log)
    (fits : (st.bufferOf call.streamKey ++ payload).length ≤ C.maxBuffer)
    (unmistakable : st.Unmistakable call payload) :
    .fed call.streamKey (st.bufferOf call.streamKey ++ payload) ∈ log ∧
      SameProtocols st after := by
  have taken := (route_eq_http1_iff notHttp2 notHttp3 notUpgraded whole nonempty).mpr unmistakable
  unfold dispatch at outcome
  rw [taken] at outcome
  have changes := (moves_handleHttp1 payload st _ _ outcome).updates
  refine ⟨?_, changes.same .http2State (by decide), changes.same .http3Connections (by decide), changes.same .h2EarlyResp (by decide)⟩
  rcases sat_handleHttp1 payload st fits _ _ outcome with refused | fed
  · exact absurd refused granted
  · exact fed

end

/-- The same for a payload that may stand behind a held prefix. -/
theorem deliver_fed_iff (outcome : Outcome (st.deliver C call payload) log (after, events))
    (whole : call.ev.isTruncated = false) (nonempty : payload ≠ [])
    (notHttp2 : st.http2State.contains call.key = false) (notHttp3 : call.key ∉ st.http3Connections)
    (notUpgraded : call.key ∉ st.wsConnections) (granted : .chunkRefused call.streamKey ∉ log)
    (fits : ∀ held ∈ [] :: (st.h2Prefix.get? call.key).toList,
      (st.bufferOf call.streamKey ++ (held ++ payload)).length ≤ C.maxBuffer) :
    ((∃ held, .fed call.streamKey (st.bufferOf call.streamKey ++ (held ++ payload)) ∈ log) ∧
        after.http2State.contains call.key = false ∧ call.key ∉ after.http3Connections ∧
        after.h2EarlyResp = st.h2EarlyResp) ↔
      (st.takePrefix call).Unmistakable call (st.joinPrefix call payload) := by
  unfold deliver at outcome
  rw [whole] at outcome
  obtain ⟨held, member, joined⟩ := st.joinPrefix_mem call payload
  obtain ⟨prefixes, taken⟩ := st.takePrefix_eq call
  have dispatched : Outcome ((st.takePrefix call).dispatch C call (st.joinPrefix call payload)) log
      (after, events) := outcome
  rw [joined, taken] at dispatched ⊢
  have nonempty' : held ++ payload ≠ [] := by simp [nonempty]
  constructor
  · rintro ⟨⟨before, fed⟩, noHttp2, noHttp3, -⟩
    exact unmistakable_of_fed dispatched notHttp3 notUpgraded whole nonempty' notHttp2
      ⟨_, fed⟩ noHttp2 noHttp3
  · intro unmistakable
    obtain ⟨fed, same⟩ := fed_of_unmistakable dispatched notHttp3 notUpgraded whole nonempty'
      notHttp2 granted (fits held member) unmistakable
    refine ⟨⟨held, fed⟩, ?_, ?_, same.h2EarlyResp⟩
    · rw [same.http2State]
      exact notHttp2
    · rw [same.http3Connections]
      exact notHttp3

/-! ## One event -/

/-- Without an eviction pass only the tracking of connections differs when the payload is looked
at. -/
theorem admitted_eq {env : Env} (early : env.now - st.lastEvictionMs < 10000) (ev : TlsEventHeader) :
    ∃ known born, st.admitted env ev =
      { st with knownConnections := known, connBornMs := born } := by
  obtain ⟨born, bears⟩ := st.bear_eq env ev
  have swept : ({ st with connBornMs := born } : StreamState P).swept env.now =
      { st with connBornMs := born } := if_pos early
  unfold StreamState.admitted
  rw [bears, swept]
  exact ⟨_, _, rfl⟩

theorem outcome_evictStale_early {nowMs : Nat} (early : nowMs - st.lastEvictionMs < 10000)
    (outcome : Outcome (st.evictStale C nowMs) log (after, events)) : log = [] := by
  unfold evictStale at outcome
  rw [if_pos early] at outcome
  cases outcome
  rfl

/-- The call that an event of known role becomes. -/
def callOf (env : Env) (ev : TlsEventHeader) (dir : UInt8) (st : StreamState P) : Call :=
  ⟨env, ev, st.connKey env ev, ev.direction = dir⟩

/-- The role of the direction is known and no test claims the payload behind what is held. -/
def Recognised (C : Config) (env : Env) (ev : TlsEventHeader) (payload : Bytes)
    (st : StreamState P) : Prop :=
  ∃ dir, st.requestDirection C (st.connKey env ev) ev payload = some dir ∧
    (st.takePrefix (st.callOf env ev dir)).Unmistakable (st.callOf env ev dir)
      (st.joinPrefix (st.callOf env ev dir) payload)

/-- Let an untruncated payload arrive on a connection that is neither HTTP/2 nor HTTP/3 and has not
been upgraded, with no eviction pass due, memory granted and room in the buffer.  It is appended to
the buffer of its direction and fed to the decoder, and the connection keeps its protocol, exactly
when the role of the direction is known and no protocol test claims the payload. -/
theorem payload_reaches_decoder_iff {env : Env} {ev : TlsEventHeader} {payload : Bytes}
    {st after : StreamState P} {log : List Note} {events : List TrafficEvent}
    (outcome : Outcome (st.handleEvent C env ev payload) log (after, events))
    (inside : inScope C env = true) (whole : ev.isTruncated = false)
    (early : env.now - st.lastEvictionMs < 10000)
    (notHttp2 : st.http2State.contains (st.connKey env ev) = false)
    (notHttp3 : st.connKey env ev ∉ st.http3Connections)
    (notUpgraded : st.connKey env ev ∉ st.wsConnections)
    (nonempty : payload ≠ []) (granted : .chunkRefused (StreamKey.fromEvent ev) ∉ log)
    (fits : ∀ held ∈ [] :: (st.h2Prefix.get? (st.connKey env ev)).toList,
      (st.bufferOf (StreamKey.fromEvent ev) ++ (held ++ payload)).length ≤ C.maxBuffer) :
    ((∃ held, .fed (StreamKey.fromEvent ev)
          (st.bufferOf (StreamKey.fromEvent ev) ++ (held ++ payload)) ∈ log) ∧
        after.http2State.contains (st.connKey env ev) = false ∧
        st.connKey env ev ∉ after.http3Connections ∧
        after.h2EarlyResp = st.h2EarlyResp) ↔
      st.Recognised C env ev payload := by
  obtain ⟨outside, -⟩ | ⟨-, scopeLog, sweepLog, knowLog, received, swept, decoded, rfl, rfl,
    scopeQuiet, knowQuiet, sweeps, receives⟩ := outcome_handleEvent outcome
  · rw [inside] at outside
    exact absurd outside (by simp)
  have born : (st.bear env ev).lastEvictionMs = st.lastEvictionMs := by
    unfold StreamState.bear
    split <;> rfl
  obtain rfl : sweepLog = [] := outcome_evictStale_early (by rwa [born]) sweeps
  -- only the last part of the log can record that a decoder was fed
  have noted : ∀ entry : Note, entry.quiet = false →
      (entry ∈ scopeLog ++ ([] ++ (knowLog ++ received)) ↔ entry ∈ received) := by
    intro entry loud
    have outScope : entry ∉ scopeLog := fun member => by simp [scopeQuiet entry member] at loud
    have outKnow : entry ∉ knowLog := fun member => by simp [knowQuiet entry member] at loud
    simp [outScope, outKnow]
  simp only [noted _ (rfl : (Note.fed _ _).quiet = false)]
  rw [noted _ rfl] at granted
  obtain ⟨known, births, arrives⟩ := admitted_eq early ev
  rw [arrives] at receives
  unfold receive at receives
  unfold Recognised
  cases found : st.requestDirection C (st.connKey env ev) ev payload with
  | none =>
    -- server frames are held for HTTP/2, anything else is dropped
    have role : ({ st with knownConnections := known, connBornMs := births } :
        StreamState P).requestDirection C (st.connKey env ev) ev payload = none := found
    rw [role] at receives
    dsimp only at receives
    refine iff_of_false (fun fed => ?_) (by simp)
    split at receives
    · rename_i frames
      have unmistakable := (deliver_fed_iff receives whole nonempty notHttp2 notHttp3 notUpgraded
        granted fits).mp fed
      have unframed := unmistakable.2.1 rfl
      rw [show StreamState.joinPrefix _ payload _ = payload from rfl, frames] at unframed
      exact absurd unframed (by simp)
    · cases receives with
      | log ended =>
        cases ended
        simp at fed
  | some dir =>
    have role : ({ st with knownConnections := known, connBornMs := births } :
        StreamState P).requestDirection C (st.connKey env ev) ev payload = some dir := found
    rw [role] at receives
    dsimp only at receives
    obtain ⟨roles, frozen⟩ := freezeRole_eq (C := C) (st.connKey env ev) ev payload
      { st with knownConnections := known, connBornMs := births }
    rw [frozen] at receives
    have delivered := deliver_fed_iff receives whole nonempty notHttp2 notHttp3 notUpgraded
      granted fits
    refine delivered.trans ?_
    simp only [Option.some.injEq, exists_eq_left', callOf]
    unfold takePrefix
    split <;> exact Iff.rfl

instance (payload : Bytes) (st : StreamState P) : Decidable (st.Unmistakable call payload) :=
  inferInstanceAs (Decidable (_ ∧ _ ∧ _ ∧ _))

/-- The head of a request whose body is still to come. -/
def uploadHead : Operation := chunk 100 0 "POST /a HTTP/1.1\r\nContent-Length: 40\r\n\r\n"

theorem payload_reaches_decoder_iff_plain_body :
    let head := (exec (serverConfig 100000) [uploadHead] (new (P := asciiPlatform)) 0).2
    let stream := StreamKey.fromEvent (onConnection 0x1000 0)
    let body := (head.1.handleEvent (serverConfig 100000) (atTime 101) (onConnection 0x1000 0)
      (bytes "hello")).run head.2
    ∃ held, .fed stream (head.1.bufferOf stream ++ (held ++ bytes "hello")) ∈ body.2.2 :=
  ((payload_reaches_decoder_iff (outcome_run _ _) rfl rfl (by decide +kernel) (by decide +kernel)
    (by decide +kernel) (by decide +kernel) (by decide +kernel) (by decide +kernel)
    (by decide +kernel)).mpr ⟨0, rfl, by decide +kernel⟩).1

/-- A body chunk that begins like an HTTP/3 frame makes the connection HTTP/3 for good: this chunk
and every later one are lost to the HTTP/1 decoder. -/
theorem body_chunk_taken_for_http3 :
    let head := (exec (serverConfig 100000) [uploadHead] (new (P := asciiPlatform)) 0).2
    let body := (head.1.handleEvent (serverConfig 100000) (atTime 101) (onConnection 0x1000 0)
      ([0x00, 0x03] ++ bytes "abc")).run head.2
    head.1.h1Decoders.contains (StreamKey.fromEvent (onConnection 0x1000 0)) = true ∧
      firstKey ∉ head.1.http3Connections ∧ firstKey ∈ body.1.1.http3Connections ∧
      body.2.2 = [] := by
  decide +kernel

end StreamState

end ApiSensor
