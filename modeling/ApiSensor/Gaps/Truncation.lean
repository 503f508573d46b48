import ApiSensor.Gaps.Http1
import ApiSensor.Pairing

/-!
# Truncated HTTP/2 connections

A truncated event makes `handle_event` forget the HTTP/2 state of its connection.  Nothing remembers
that the connection was HTTP/2, so what follows goes through the tests for a new connection: it is
dropped only as far as none of them takes it for HTTP/1, HTTP/3 or a client preface.
-/

namespace ApiSensor

open Library Library.Prog

variable {P : Platform} {C : Config} {call : Call}

/-- No transaction was emitted, no request was queued or answered, and HTTP/1 was handed nothing. -/
structure Unparsed (log : List Note) (events : List TrafficEvent) : Prop where
  silent : Silent log
  unpaired : paired events = []
  handed : handed log = []

theorem Unparsed.append {first second : List Note} {events more : List TrafficEvent}
    (left : Unparsed first events) (right : Unparsed second more) :
    Unparsed (first ++ second) (events ++ more) where
  silent := left.silent.append right.silent
  unpaired := by rw [paired_append, left.unpaired, right.unpaired]; rfl
  handed := by rw [handed_append, left.handed, right.handed]; rfl

theorem Unparsed.of_parting {log : List Note} {events : List TrafficEvent}
    (parting : Parting log events) : Unparsed log events := by
  obtain ⟨silent, unpaired⟩ := silent_of_parting parting
  exact ⟨silent, unpaired, (Plain.of_parting parting).handed⟩

namespace StreamState

/-! ## Payloads that no parser takes -/

/-- The tests of `handle_event` hand the payload to no parser: it is empty, it looks like frames of
a server, it may become a preface, or it is none of these, does not look like HTTP/3, and WebSocket
mode or a gap keeps it from HTTP/1. -/
def Unparseable (call : Call) (payload : Bytes) (st : StreamState P) : Prop :=
  payload = [] ∨
    (call.isRequestDir = false ∧ looksLikeH2ConnectionFrames payload = true) ∨
    (call.isRequestDir = true ∧ st.buffers.contains call.streamKey = false ∧
      payload.length < http2Preface.length ∧ payload.isPrefixOf http2Preface = true ∧
      st.h2Prefix.size < maxH2EarlyConns) ∨
    (call.isRequestDir = true → st.buffers.contains call.streamKey = false →
        http2Preface.isPrefixOf payload = false) ∧
      looksLikeHttp3 payload = false ∧
      (call.key ∈ st.wsConnections ∨ call.streamKey ∈ st.gappedStreams ∧
        (startsHttp1Message payload = false ∨ call.ev.isTruncated = true))

/-- The connection is known neither as HTTP/2 nor as HTTP/3. -/
def Dropped (key : ConnKey) (st : StreamState P) : Prop :=
  st.http2State.contains key = false ∧ key ∉ st.http3Connections

/-- Routes on which no parser sees the payload. -/
def Route.unparsed : Route → Bool
  | .holdPrefix | .early | .empty | .webSocket | .skip => true
  | .startHttp2 | .http2 | .http3 | .http1 => false

variable {st : StreamState P} {key : ConnKey} {payload : Bytes}

/-- What was tested before a payload is taken for HTTP/3. -/
theorem guard_http3 (routed : st.route call payload = .http3) :
    payload ≠ [] ∧
      (call.isRequestDir = false → looksLikeH2ConnectionFrames payload = false) ∧
      (call.isRequestDir = true → st.buffers.contains call.streamKey = false →
        payload.length < http2Preface.length → payload.isPrefixOf http2Preface = true →
          maxH2EarlyConns ≤ st.h2Prefix.size) := by
  unfold route at routed
  simp only [Bool.and_eq_true, Bool.not_eq_true', Bool.or_eq_true, decide_eq_true_eq] at routed
  split_ifs at routed
  simp_all

/-- A preface is longer than what is only a part of it. -/
theorem not_preface_of_short (short : payload.length < http2Preface.length) :
    ¬ http2Preface.isPrefixOf payload = true := by
  intro whole
  have longer := (List.isPrefixOf_iff_prefix.mp whole).length_le
  omega

theorem unparsed_route (dropped : st.Dropped call.key) (unparseable : st.Unparseable call payload) :
    (st.route call payload).unparsed = true := by
  obtain ⟨notHttp2, notHttp3⟩ := dropped
  have guard := st.guard_route call payload
  cases routed : st.route call payload with
  | holdPrefix | early | empty | webSocket | skip => rfl
  | http2 =>
    rw [routed] at guard
    exact absurd (notHttp2.symm.trans guard) Bool.false_ne_true
  | startHttp2 =>
    rw [routed] at guard
    obtain ⟨-, client, unbuffered, preface⟩ := guard
    rcases unparseable with rfl | ⟨server, -⟩ | ⟨-, -, short, -⟩ | ⟨noPreface, -⟩
    · exact absurd preface (not_preface_of_short (by decide))
    · exact absurd (server.symm.trans client) Bool.false_ne_true
    · exact absurd preface (not_preface_of_short short)
    · exact absurd ((noPreface client unbuffered).symm.trans preface) Bool.false_ne_true
  | http3 =>
    rw [routed] at guard
    have like := guard.2.resolve_left notHttp3
    obtain ⟨nonempty, noFrames, noRoom⟩ := guard_http3 routed
    rcases unparseable with rfl | ⟨server, frames⟩ | ⟨client, unbuffered, short, fits, room⟩ |
      ⟨-, notLike, -⟩
    · exact absurd rfl nonempty
    · exact absurd ((noFrames server).symm.trans frames) Bool.false_ne_true
    · exact absurd room (not_lt.mpr (noRoom client unbuffered short fits))
    · exact absurd (notLike.symm.trans like) Bool.false_ne_true
  | http1 =>
    rw [routed] at guard
    obtain ⟨-, nonempty, -, -, notUpgraded, starts, noFrames, noPreface⟩ := guard
    rcases unparseable with rfl | ⟨server, frames⟩ | ⟨client, unbuffered, short, fits, room⟩ |
      ⟨-, -, upgraded | ⟨gapped, body | truncated⟩⟩
    · exact absurd rfl nonempty
    · exact absurd ((noFrames server).symm.trans frames) Bool.false_ne_true
    · exact absurd room (not_lt.mpr ((noPreface client unbuffered).2 short fits))
    · exact absurd upgraded notUpgraded
    · exact absurd (body.symm.trans (starts gapped).1) Bool.false_ne_true
    · exact absurd ((starts gapped).2.symm.trans truncated) Bool.false_ne_true

/-! ## Calls on a dropped connection -/

theorem unparsed_moves {tables : List Table} {after : StreamState P} {log : List Note}
    {events : List TrafficEvent} (moves : Moves C call tables st log after events)
    (aside : ∀ table ∈ tables, table ∉ [Table.buffers, .pending, .http2State]) :
    Unparsed log events := by
  refine moves.effect (R := fun _ log _ events => Unparsed log events)
    (fun _ => ⟨silent_nil, rfl, rfl⟩) (fun left right => left.append right) fun move may => ?_
  cases move with
  | count metric amount other =>
    refine ⟨⟨rfl, ?_⟩, rfl, rfl⟩
    cases metric <;> first | exact absurd rfl other | rfl
  | update => exact ⟨silent_nil, rfl, rfl⟩
  | _ => exact absurd (by decide) (aside _ (may List.mem_cons_self))

theorem dropped_dispatch (payload : Bytes) (st : StreamState P) (dropped : st.Dropped call.key)
    (unparseable : st.Unparseable call payload) :
    Sat (st.dispatch C call payload) fun log result =>
      result.1.Dropped call.key ∧ Unparsed log result.2 := by
  have unparsed := unparsed_route dropped unparseable
  have aside : ∀ table ∈ (st.route call payload).tables,
      table ∉ [Table.buffers, .pending, .http2State, .http3Connections] := by
    cases routed : st.route call payload <;> rw [routed] at unparsed <;>
      first | exact absurd unparsed Bool.false_ne_true | decide
  refine (moves_dispatch payload st).mono fun _ result moves => ⟨?_, ?_⟩
  · have http2State : result.1.http2State = _ :=
      moves.updates.same .http2State fun member => absurd (by decide) (aside _ member)
    have marks : result.1.http3Connections = _ :=
      moves.updates.same .http3Connections fun member => absurd (by decide) (aside _ member)
    rw [Dropped, http2State, marks]
    exact dropped
  · exact unparsed_moves moves fun table member within => aside table member (by simp_all)

/-- The state in which the payload of a delivered event is dispatched. -/
def dispatchedIn (call : Call) (st : StreamState P) : StreamState P :=
  (if call.ev.isTruncated then st.cutOff call else st).takePrefix call

/-- A truncated event drops its connection, and an event of a dropped connection leaves it so. -/
theorem dropped_deliver (payload : Bytes) (st : StreamState P)
    (unmarked : call.key ∉ st.http3Connections)
    (drops : call.ev.isTruncated = true ∨ st.http2State.contains call.key = false)
    (unparseable : st.http2State.contains call.key = false →
      (st.dispatchedIn call).Unparseable call (st.joinPrefix call payload)) :
    Sat (st.deliver C call payload) fun log result =>
      result.1.Dropped call.key ∧ Unparsed log result.2 := by
  unfold dispatchedIn at unparseable
  refine sat_deliver (fun whole held same => ?_) (fun _ conn _ => ?_) fun truncated found held same => ?_
  · rw [whole] at drops unparseable
    have unknown := drops.resolve_left Bool.false_ne_true
    exact dropped_dispatch _ { st with h2Prefix := held } ⟨unknown, unmarked⟩
      (same ▸ unparseable unknown)
  · refine ⟨⟨?_, unmarked⟩, .of_parting (.count .captureGaps 1 rfl)⟩
    simp [Dict.contains]
  · have unknown : st.http2State.contains call.key = false := by rw [Dict.contains, found]; rfl
    have payload_unparseable := unparseable unknown
    rw [if_pos truncated, same] at payload_unparseable
    refine (dropped_dispatch _ { st.cutOff call with h2Prefix := held } ⟨unknown, unmarked⟩
      payload_unparseable).mono fun log result both => ⟨both.1, ?_⟩
    exact (Unparsed.of_parting (.count .captureGaps 1 rfl)).append both.2

theorem dispatchedIn_connRoles (roles : Dict ConnKey UInt8) (st : StreamState P) :
    { st with connRoles := roles }.dispatchedIn call =
      { st.dispatchedIn call with connRoles := roles } := by
  unfold dispatchedIn takePrefix
  split <;> split <;> rfl

/-! ## Runs -/

/-- The payload of an event of the connection, if it is looked at while the connection is not known
as HTTP/2, is handed to no parser. -/
def StaysUnparsed (C : Config) (key : ConnKey) (st : StreamState P) : Operation → Prop
  | .event env ev payload =>
    st.connKey env ev = key → inScope C env = true →
      (st.admitted env ev).looked C key ev payload = true →
      (st.admitted env ev).http2State.contains key = false →
      ((st.admitted env ev).dispatchedIn (st.arrival C env ev payload)).Unparseable
        (st.arrival C env ev payload) (st.joined C env ev payload)
  | _ => True

theorem Dropped.swept (dropped : st.Dropped key) (nowMs : Nat) : (st.swept nowMs).Dropped key := by
  obtain ⟨unknown, unmarked⟩ := dropped
  unfold StreamState.swept
  split
  · exact ⟨unknown, unmarked⟩
  · refine ⟨?_, fun marked => unmarked (Finset.filter_subset _ _ marked)⟩
    rw [Dict.contains, Option.isSome_eq_false_iff, Option.isNone_iff_eq_none] at unknown ⊢
    simp only [evicted, forgetInactive, trim, expire, expiredHttp2, Dict.get?_retain,
      Dict.get?_mapValues, unknown]
    rfl

theorem Dropped.admitted (dropped : st.Dropped key) (env : Env) (ev : TlsEventHeader) :
    (st.admitted env ev).Dropped key := by
  obtain ⟨born, same⟩ := st.bear_eq env ev
  have bears : (st.bear env ev).Dropped key := by
    rw [same]
    exact dropped
  exact bears.swept env.now

/-- A truncated event drops its connection, and every event of a dropped connection leaves it so. -/
theorem dropped_event {env : Env} {ev : TlsEventHeader} {after : StreamState P} {log : List Note}
    {events : List TrafficEvent}
    (outcome : Outcome (st.handleEvent C env ev payload) log (after, events))
    (own : st.connKey env ev = key) (inside : inScope C env = true)
    (looked : (st.admitted env ev).looked C key ev payload = true)
    (unmarked : key ∉ (st.admitted env ev).http3Connections)
    (drops : ev.isTruncated = true ∨ (st.admitted env ev).http2State.contains key = false)
    (unparsed : st.StaysUnparsed C key (.event env ev payload)) :
    after.Dropped key ∧ Unparsed log events := by
  obtain ⟨lead, received, swept, decoded, rfl, rfl, parting, receives⟩ :=
    received_of_inside inside outcome
  subst own
  obtain ⟨roles, delivers⟩ := receive_of_looked env looked
  rw [delivers] at receives
  have delivered := @dropped_deliver _ C (st.arrival C env ev payload) payload
    { st.admitted env ev with connRoles := roles } unmarked drops (fun unknown => ?_)
    received (after, decoded) receives
  · exact ⟨delivered.1, (Unparsed.of_parting parting).append delivered.2⟩
  · rw [dispatchedIn_connRoles]
    exact unparsed rfl inside looked unknown

theorem Dropped.closed (dropped : st.Dropped key) (closing : ConnKey) :
    (st.closed closing).Dropped key := by
  obtain ⟨unknown, unmarked⟩ := dropped
  refine ⟨?_, fun marked => unmarked (Finset.filter_subset _ _ marked)⟩
  rw [Dict.contains, Option.isSome_eq_false_iff, Option.isNone_iff_eq_none] at unknown ⊢
  simp only [StreamState.closed, Dict.get?_retain, unknown]
  rfl

/-- A dropped connection stays dropped, and its events are handed to no parser. -/
theorem dropped_step {after : StreamState P} {stage : Stage} (step : Step C st stage after)
    (unparsed : st.StaysUnparsed C key stage.op) (dropped : st.Dropped key) :
    after.Dropped key ∧ ∀ env ev payload, stage.op = .event env ev payload →
      st.connKey env ev = key → Unparsed stage.log stage.events := by
  have stepped := step.stepped
  cases stepped with
  | outside _ parting => exact ⟨dropped, fun _ _ _ _ _ => .of_parting parting⟩
  | event env ev payload inside parting receives =>
    have arrives := dropped.admitted env ev
    by_cases own : st.connKey env ev = key
    · cases looked : (st.admitted env ev).looked C key ev payload with
      | true =>
        have drops := dropped_event step own inside looked arrives.2 (.inr arrives.1) unparsed
        exact ⟨drops.1, fun _ _ _ _ _ => drops.2⟩
      | false =>
        have ambiguous := (receive_looked env ev payload key (st.admitted env ev)).resolve_left
          (Bool.eq_false_iff.mp looked)
        rw [own, ambiguous] at receives
        have ignored : Sat (count .roleAmbiguous 1 >>= fun _ => pure (st.admitted env ev, []))
            fun log (result : StreamState P × List TrafficEvent) =>
              result.1.Dropped key ∧ Unparsed log result.2 :=
          sat_count_bind.mpr (sat_pure.mpr ⟨arrives, .of_parting (.count .roleAmbiguous 1 rfl)⟩)
        obtain ⟨stays, unread⟩ := ignored _ _ receives
        exact ⟨stays, fun _ _ _ _ _ => (Unparsed.of_parting parting).append unread⟩
    · have change := local_receive env ev payload (st.connKey env ev) true
        (st.admitted env ev) _ _ receives
      refine ⟨⟨?_, ?_⟩, ?_⟩
      · rw [Dict.contains, change.http2State key (Ne.symm own)]
        exact arrives.1
      · rw [change.http3Connections key (Ne.symm own)]
        exact arrives.2
      · intro _ _ _ same same_key
        cases same
        exact absurd same_key own
  | sweep nowMs => exact ⟨dropped.swept nowMs, fun _ _ _ same => by cases same⟩
  | close closing => exact ⟨dropped.closed closing, fun _ _ _ same => by cases same⟩
  | drain =>
    refine ⟨⟨?_, dropped.2⟩, fun _ _ _ same => by cases same⟩
    have unknown := dropped.1
    rw [Dict.contains, Option.isSome_eq_false_iff, Option.isNone_iff_eq_none] at unknown ⊢
    simp only [drained, Dict.get?_mapValues, unknown]
    rfl

theorem dropped_run {final : StreamState P} {trace : List (StreamState P × Stage)}
    (run : Run C st trace final)
    (unparsed : ∀ entry ∈ trace, entry.1.StaysUnparsed C key entry.2.op) (dropped : st.Dropped key) :
    final.Dropped key ∧ ∀ entry ∈ trace, entry.1.Dropped key ∧
      ∀ env ev payload, entry.2.op = .event env ev payload → entry.1.connKey env ev = key →
        Unparsed entry.2.log entry.2.events := by
  induction run with
  | nil => exact ⟨dropped, by simp⟩
  | cons step _ induction =>
    obtain ⟨first, rest⟩ := List.forall_mem_cons.mp unparsed
    obtain ⟨stays, unread⟩ := dropped_step step first dropped
    obtain ⟨final, later⟩ := induction rest stays
    exact ⟨final, List.forall_mem_cons.mpr ⟨⟨dropped, unread⟩, later⟩⟩

/-- The client preface of the first connection. -/
def opening : Operation := .event (atTime 100) (onConnection 0x1000 0) http2ConnectionPreface

/-- A truncated chunk of client frames. -/
def truncatedChunk : Operation :=
  .event (atTime 101) { onConnection 0x1000 0 with flags := 1 } [0, 0, 4, 8]

/-- A server SETTINGS frame. -/
def settingsChunk : Operation :=
  .event (atTime 102) (onConnection 0x1000 1) [0, 0, 0, 4, 0, 0, 0, 0, 0]

/-- A connection that is opened. -/
def opened : (StreamState asciiPlatform × List TrafficEvent) × Nat × List Note :=
  (opening.program (serverConfig 1500) new).run 0

/-- The same connection after the truncated chunk. -/
def cutShort : (StreamState asciiPlatform × List TrafficEvent) × Nat × List Note :=
  (truncatedChunk.program (serverConfig 1500) opened.1.1).run opened.2.1

/-- The same connection after server frames. -/
def settled : (StreamState asciiPlatform × List TrafficEvent) × Nat × List Note :=
  (settingsChunk.program (serverConfig 1500) cutShort.1.1).run cutShort.2.1

end StreamState

end ApiSensor
