import ApiSensor.Stream.Ledger

/-!
# No transaction disappears

Over a whole run every accepted request is still waiting, or was reported in an event, or left with
its HTTP/2 stream, or is part of an amount counted as dropped.  Two paths of the source give up
HTTP/2 connections without looking at their requests; the books balance as long as those have none.
-/

namespace ApiSensor

open Library Library.Prog

variable {P : Platform} {C : Config} {call : Call}

/-! ## Requests that leave unanswered -/

/-- What an entry adds to `EVENTS_DROPPED`. -/
def Note.droppedAmount : Note → Nat
  | .count .eventsDropped amount => amount
  | .unreported reqs => reqs.length
  | _ => 0

/-- The amount added to `EVENTS_DROPPED` in a log. -/
def dropped (log : List Note) : Nat := (log.map Note.droppedAmount).sum

theorem card_weigh_tally (reqs : List ParsedRequest) :
    (weigh tally reqs).card = reqs.length := by
  induction reqs with
  | nil => rfl
  | cons req reqs induction => simp [induction, tally]

/-- Requests that leave unreported are part of the dropped amount. -/
theorem card_unreported_le (log : List Note) : (unreported log).card ≤ dropped log := by
  induction log with
  | nil => exact Nat.zero_le _
  | cons entry log induction =>
    have first : entry.unreportedTally.card ≤ entry.droppedAmount := by
      cases entry with
      | unreported reqs => exact (card_weigh_tally reqs).le
      | _ => exact Nat.zero_le _
    simp only [unreported, dropped, List.map_cons, List.sum_cons, Multiset.card_add] at induction ⊢
    exact Nat.add_le_add first induction

namespace StreamState

/-- Of the requests that leave together the first become events and the others are counted. -/
theorem sat_incompleteEvents (reqs : List Unanswered) (outcome : Str) :
    Sat (incompleteEvents C reqs outcome) fun log events =>
      accepted log = 0 ∧ cancelled log = 0 ∧
        weigh tally (reqs.map Prod.fst) = reported events + unreported log := by
  unfold incompleteEvents
  refine sat_count_bind.mpr (sat_note_bind.mpr (sat_pure.mpr ⟨rfl, rfl, ?_⟩))
  have split : reqs.map Prod.fst = (reqs.take maxIncompletePerSweep).map Prod.fst ++
      (reqs.drop maxIncompletePerSweep).map Prod.fst := by
    rw [← List.map_append, List.take_append_drop]
  rw [split, weigh_append]
  congr 1
  · simp only [reported, weigh, List.map_map]
    rfl
  · simp [unreported, Note.unreportedTally]

variable {st : StreamState P} {log : List Note} {payload : Bytes}

/-- The books when requests leave together and the rest of the log is neutral. -/
theorem settle_leaving {before after left : Multiset ParsedRequest} {first last : List Note}
    {events : List TrafficEvent}
    (leaving : accepted log = 0 ∧ cancelled log = 0 ∧ left = reported events + unreported log)
    (books : left + after = before) (neutralFirst : Neutral first) (neutralLast : Neutral last) :
    accepted (first ++ (log ++ last)) + before = after + reported events +
      cancelled (first ++ (log ++ last)) + unreported (first ++ (log ++ last)) := by
  obtain ⟨none, kept, split⟩ := leaving
  simp only [accepted_append, cancelled_append, unreported_append, none, kept,
    neutralFirst.accepted, neutralFirst.cancelled, unreported_eq_zero neutralFirst.entries,
    neutralLast.accepted, neutralLast.cancelled, unreported_eq_zero neutralLast.entries,
    ← books, split, zero_add, add_zero]
  abel

/-! ## The eviction pass -/

/-- An eviction pass at this time drops no HTTP/2 connection with waiting requests to keep the map
within `MAX_STREAM_ENTRIES`. -/
def TrimsIdle (st : StreamState P) (nowMs : Nat) : Prop :=
  10000 ≤ nowMs - st.lastEvictionMs →
    ∀ conn ∈ (st.expire nowMs).trimmedConns, conn.pendingRequests.map.entries = []

theorem ledger_trim (idle : ∀ conn ∈ st.trimmedConns, conn.pendingRequests.map.entries = []) :
    st.trim.ledger = st.ledger := by
  have kept := Dict.total_retain_of_eq_zero
    (fun _ conn => PendingStreams.weighAll tally (Http2Conn.pendingRequests conn))
    (fun key _ => key ∉ st.http2State.excess Http2Conn.lastEventTs maxStreamEntries) st.http2State
    fun entry member out => by
      have trimmed : entry.2 ∈ st.trimmedConns :=
        List.mem_map.mpr ⟨entry, List.mem_filter.mpr ⟨member, by simpa using out⟩, rfl⟩
      simp [PendingStreams.weighAll, Dict.total, idle entry.2 trimmed]
  simp only [ledger, weighPending, weighQueues, weighStreams, trim]
  rw [kept]

theorem ledger_forgetInactive (st : StreamState P) : st.forgetInactive.ledger = st.ledger := rfl

theorem ledger_evicted {nowMs : Nat}
    (idle : ∀ conn ∈ (st.expire nowMs).trimmedConns, conn.pendingRequests.map.entries = []) :
    weigh tally ((st.expiredQueued nowMs ++ st.expiredStreams nowMs).map Prod.fst) +
      (st.evicted nowMs).ledger = st.ledger := by
  have queues := st.weighQueues_expire tally nowMs
  have streams := st.weighStreams_expire tally nowMs
  rw [evicted, ledger_forgetInactive, ledger_trim idle, List.map_append, weigh_append]
  simp only [ledger, weighPending]
  rw [← queues, ← streams]
  abel

theorem usable_expireTake {streams : PendingStreams P} (usable : streams.Usable) (nowMs ttlMs : Nat) :
    PendingStreams.Usable (PendingStreams.expireTake streams nowMs ttlMs).2 := by
  intro streamId req found
  simp only [PendingStreams.expireTake, Charged.retain, Dict.get?_retain,
    Option.filter_eq_some_iff] at found
  exact usable streamId req found.1

theorem allUsable_evicted (usable : st.AllUsable) (nowMs : Nat) :
    (st.evicted nowMs).AllUsable := by
  constructor
  · intro key queue found req member
    simp only [evicted, forgetInactive, trim, expire, Dict.get?_retain, Dict.get?_mapValues,
      Option.filter_eq_some_iff, Option.map_eq_some_iff] at found
    obtain ⟨⟨stored, present, rfl⟩, -⟩ := found
    exact usable.queues key stored present req ((List.dropWhile_sublist _).mem member)
  · intro key conn found
    simp only [evicted, forgetInactive, trim, expire, expiredHttp2, Dict.get?_retain,
      Dict.get?_mapValues, Option.filter_eq_some_iff, Option.map_eq_some_iff] at found
    obtain ⟨⟨⟨stored, present, rfl⟩, -⟩, -⟩ := found
    obtain ⟨now, ttl, same⟩ := stored.expireRequests_eq nowMs
    simp only [Http2Conn.expireStale, same]
    exact usable_expireTake (usable.streams key stored present) now ttl

theorem settles_evictStale {nowMs : Nat} (idle : st.TrimsIdle nowMs) :
    Sat (st.evictStale C nowMs) fun log result => Settles st log result.1 result.2 := by
  unfold evictStale
  split
  · exact sat_pure.mpr (.refl st)
  · rename_i due
    have books := ledger_evicted (idle (Nat.not_lt.mp due))
    unfold evictionPass releaseRequests
    dsimp only
    refine sat_releaseAll_bind.mpr (sat_releaseAll_bind.mpr ?_)
    refine sat_releaseAll_bind.mpr (sat_releaseAll_bind.mpr (sat_count_bind.mpr ?_))
    refine (sat_incompleteEvents _ _).bind fun log incomplete leaving => ?_
    refine sat_releaseAll_bind.mpr (sat_releaseMemory_bind.mpr (sat_count_bind.mpr ?_))
    refine sat_pure.mpr fun usable => ⟨allUsable_evicted usable nowMs, ?_⟩
    exact settle_leaving leaving books (neutral_count _ _) (neutral_count _ _)

/-! ## Close and shutdown -/

theorem ledger_closed (st : StreamState P) (key : ConnKey) :
    weigh tally ((st.waiting fun other => hit key other.identity).map Prod.fst) +
      (st.closed key).ledger = st.ledger := by
  have queues := Dict.total_retain_add (fun _ queue => weigh tally (PendingQueue.items queue))
    (fun other _ => hit key (ConnKey.identity other)) st.pending
  have streams := Dict.total_retain_add
    (fun _ conn => PendingStreams.weighAll tally (Http2Conn.pendingRequests conn))
    (fun other _ => hit key (ConnKey.identity other)) st.http2State
  rw [weigh_waiting]
  simp only [ledger, weighPending, weighQueues, weighStreams, closed, ← queues, ← streams]
  abel

theorem ledger_drained (st : StreamState P) :
    weigh tally ((st.waiting fun _ => true).map Prod.fst) + st.drained.ledger = st.ledger := by
  have emptied : st.drained.ledger = 0 := by
    simp only [ledger, weighPending, weighQueues, weighStreams, drained, Dict.total_empty,
      Dict.total_mapValues, Http2Conn.emptied, PendingStreams.weighAll_takeAll, zero_add]
    simp [Dict.total]
  rw [emptied, weigh_waiting, Dict.total_retain_true, Dict.total_retain_true, add_zero]
  rfl

theorem allUsable_closed (usable : st.AllUsable) (key : ConnKey) :
    (st.closed key).AllUsable := by
  constructor
  · intro other queue found
    simp only [closed, Dict.get?_retain, Option.filter_eq_some_iff] at found
    exact usable.queues other queue found.1
  · intro other conn found
    simp only [closed, Dict.get?_retain, Option.filter_eq_some_iff] at found
    exact usable.streams other conn found.1

theorem allUsable_drained (usable : st.AllUsable) : st.drained.AllUsable := by
  constructor
  · intro key queue found
    simp [drained] at found
  · intro key conn found
    simp only [drained, Dict.get?_mapValues, Option.map_eq_some_iff] at found
    obtain ⟨stored, present, rfl⟩ := found
    exact usable_expireTake (usable.streams key stored present) _ _

theorem settles_evictConnectionByPtr (key : ConnKey) (st : StreamState P) :
    Sat (st.evictConnectionByPtr C key) fun log result => Settles st log result.1 result.2 := by
  unfold evictConnectionByPtr releaseRequests
  dsimp only
  refine sat_releaseAll_bind.mpr ?_
  refine (sat_incompleteEvents _ _).bind fun log incomplete leaving => ?_
  refine sat_releaseAll_bind.mpr (sat_releaseAll_bind.mpr (sat_count_bind.mpr ?_))
  refine sat_releaseMemory_bind.mpr (sat_pure.mpr fun usable => ?_)
  exact ⟨allUsable_closed usable key,
    settle_leaving leaving (st.ledger_closed key) neutral_nil (neutral_count _ _)⟩

theorem settles_takeAllIncomplete (outcome : Str) (st : StreamState P) :
    Sat (st.takeAllIncomplete C outcome) fun log result => Settles st log result.1 result.2 := by
  unfold takeAllIncomplete releaseRequests
  dsimp only
  refine sat_releaseAll_bind.mpr ?_
  refine (sat_incompleteEvents _ _).bind fun log incomplete leaving => sat_pure.mpr fun usable => ?_
  exact ⟨allUsable_drained usable,
    settle_leaving leaving st.ledger_drained neutral_nil neutral_nil⟩

/-! ## Events -/

/-- A connection whose HTTP/2 state, if it has one, holds no waiting request. -/
def IdleHttp2 (st : StreamState P) (key : ConnKey) : Prop :=
  ∀ conn, st.http2State.get? key = some conn → conn.pendingRequests.map.entries = []

theorem settles_deliver (idle : call.ev.isTruncated = true → st.IdleHttp2 call.key) :
    Sat (st.deliver C call payload) fun log result => Settles st log result.1 result.2 := by
  have same : ∀ {before : StreamState P} {held : Dict ConnKey Bytes},
      Settles before [] { before with h2Prefix := held } [] := .of_same rfl rfl rfl rfl rfl
  refine sat_deliver (fun _ _ _ => (settles_dispatch _ _).mono fun _ _ settles => same.trans settles)
    (fun truncated conn found usable => ⟨⟨usable.queues, ?_⟩, ?_⟩) fun _ _ _ _ => ?_
  · intro key stored present
    rw [Dict.get?_erase] at present
    split at present
    · cases present
    · exact usable.streams key stored present
  · -- the connection that is given up holds no request
    have none_left := idle truncated conn found
    have erased := Dict.total_erase
      (fun _ conn => PendingStreams.weighAll tally (Http2Conn.pendingRequests conn))
      st.http2State call.key
    simp only [found, Option.elim_some, PendingStreams.weighAll, Dict.total, none_left,
      List.map_nil, List.sum_nil, add_zero] at erased
    simp only [ledger, weighPending, weighStreams, PendingStreams.weighAll, Dict.total, erased]
    simp [accepted, cancelled, unreported, Note.acceptedTally, Note.cancelledTally,
      Note.unreportedTally, weighQueues]
  · have cut : Settles st [.count .captureGaps 1] (st.cutOff call) [] :=
      .of_same rfl rfl rfl rfl rfl
    exact (settles_dispatch _ _).mono fun _ _ settles => (cut.trans same).trans settles

theorem settles_receive {env : Env} {ev : TlsEventHeader} {key : ConnKey}
    (idle : ev.isTruncated = true → st.IdleHttp2 key) :
    Sat (st.receive C env ev payload key) fun log result => Settles st log result.1 result.2 := by
  refine sat_receive (fun roles => ?_) (.of_same rfl rfl rfl rfl rfl)
  have frozen : Settles st [] { st with connRoles := roles } [] := .of_same rfl rfl rfl rfl rfl
  exact (settles_deliver idle).mono fun _ _ settles => frozen.trans settles

/-- An eviction pass does not add requests to a connection. -/
theorem IdleHttp2.swept {key : ConnKey} (idle : st.IdleHttp2 key) (nowMs : Nat) :
    (st.swept nowMs).IdleHttp2 key := by
  unfold StreamState.swept
  split
  · exact idle
  · intro conn found
    simp only [evicted, forgetInactive, trim, expire, expiredHttp2, Dict.get?_retain,
      Dict.get?_mapValues, Option.filter_eq_some_iff, Option.map_eq_some_iff] at found
    obtain ⟨⟨⟨stored, present, rfl⟩, -⟩, -⟩ := found
    obtain ⟨now, ttl, same⟩ := stored.expireRequests_eq nowMs
    have none_before := idle stored present
    simp [Http2Conn.expireStale, same, PendingStreams.expireTake, Charged.retain, Dict.retain,
      none_before]

theorem accepted_quiet (quiet : ∀ entry ∈ log, entry.quiet = true) :
    accepted log = 0 ∧ cancelled log = 0 ∧ unreported log = 0 := by
  induction log with
  | nil => exact ⟨rfl, rfl, rfl⟩
  | cons entry log induction =>
    have first := quiet entry List.mem_cons_self
    have rest := induction fun other member => quiet other (List.mem_cons_of_mem _ member)
    cases entry with
    | count metric amount =>
      exact ⟨(zero_add _).trans rest.1, (zero_add _).trans rest.2.1,
        (zero_add _).trans rest.2.2⟩
    | _ => exact absurd first Bool.false_ne_true

/-! ## Runs -/

/-- Operations that give up no HTTP/2 connection with waiting requests, except by closing or
draining it. -/
def Careful (C : Config) (st : StreamState P) : Operation → Prop
  | .event env ev _ =>
    inScope C env = true →
      st.TrimsIdle env.now ∧ (ev.isTruncated = true → st.IdleHttp2 (st.connKey env ev))
  | .sweep nowMs => st.TrimsIdle nowMs
  | .close _ => True
  | .drain _ => True

/-- A quiet log with the requests as they were. -/
theorem Settles.of_quiet {after : StreamState P} (pending : after.pending = st.pending)
    (http2State : after.http2State = st.http2State) (quiet : ∀ entry ∈ log, entry.quiet = true) :
    Settles st log after [] := by
  obtain ⟨none, kept, uncounted⟩ := accepted_quiet quiet
  exact .of_same pending http2State none kept uncounted

theorem settles_event {env : Env} {ev : TlsEventHeader} {after : StreamState P}
    {events : List TrafficEvent} (careful : st.Careful C (.event env ev payload))
    (outcome : Outcome (st.handleEvent C env ev payload) log (after, events)) :
    Settles st log after events := by
  rcases outcome_handleEvent outcome with ⟨-, rfl, rfl, quiet⟩ |
    ⟨inside, scopeLog, sweepLog, knowLog, received, sweptEvents, decoded, rfl, rfl, scopeQuiet,
      knowQuiet, sweeping, receiving⟩
  · exact .of_quiet rfl rfl quiet
  · obtain ⟨trimsIdle, idle⟩ := careful inside
    obtain ⟨born, born_eq⟩ := st.bear_eq env ev
    have bearing : Settles st scopeLog (st.bear env ev) [] := by
      rw [born_eq]
      exact .of_quiet rfl rfl scopeQuiet
    have trims : (st.bear env ev).TrimsIdle env.now := by
      rw [born_eq]
      exact trimsIdle
    have swept := settles_evictStale trims _ _ sweeping
    have known : Settles ((st.bear env ev).swept env.now) knowLog (st.admitted env ev) [] :=
      .of_quiet rfl rfl knowQuiet
    have idleAdmitted : ev.isTruncated = true →
        (st.admitted env ev).IdleHttp2 (st.connKey env ev) := by
      intro truncated
      have before : (st.bear env ev).IdleHttp2 (st.connKey env ev) := by
        rw [born_eq]
        exact idle truncated
      exact before.swept env.now
    have decodes := settles_receive idleAdmitted _ _ receiving
    exact bearing.trans (swept.trans (known.trans decodes))

theorem settles_step {after : StreamState P} {stage : Stage} (careful : st.Careful C stage.op)
    (step : Step C st stage after) : Settles st stage.log after stage.events := by
  obtain ⟨op, log, events⟩ := stage
  cases op with
  | event env ev payload => exact settles_event careful step
  | close key => exact st.settles_evictConnectionByPtr key _ _ step
  | sweep nowMs => exact settles_evictStale careful _ _ step
  | drain outcome => exact st.settles_takeAllIncomplete outcome _ _ step

/-- The log of a run. -/
def runLog (trace : List (StreamState P × Stage)) : List Note :=
  trace.flatMap fun entry => entry.2.log

/-- The events of a run. -/
def runEvents (trace : List (StreamState P × Stage)) : List TrafficEvent :=
  trace.flatMap fun entry => entry.2.events

theorem settles_run {final : StreamState P} {trace : List (StreamState P × Stage)}
    (run : Run C st trace final) (careful : ∀ entry ∈ trace, entry.1.Careful C entry.2.op) :
    Settles st (runLog trace) final (runEvents trace) := by
  induction run with
  | nil st => exact .refl st
  | cons step _ induction =>
    obtain ⟨first, rest⟩ := List.forall_mem_cons.mp careful
    simp only [runLog, runEvents, List.flatMap_cons]
    exact (settles_step first step).trans (induction rest)

theorem allUsable_new : (new : StreamState P).AllUsable :=
  ⟨fun _ _ found => absurd found (by simp [new]), fun _ _ found => absurd found (by simp [new])⟩

/-- Every request that a run accepts waits at its end, or has been reported in exactly one event,
or left with its HTTP/2 stream, or is part of an amount counted as dropped. -/
theorem transactions_conserved {final : StreamState P} {trace : List (StreamState P × Stage)}
    (run : Run C (new : StreamState P) trace final)
    (careful : ∀ entry ∈ trace, entry.1.Careful C entry.2.op) :
    accepted (runLog trace) = final.ledger + reported (runEvents trace) +
        cancelled (runLog trace) + unreported (runLog trace) ∧
      (unreported (runLog trace)).card ≤ dropped (runLog trace) := by
  obtain ⟨-, books⟩ := settles_run run careful allUsable_new
  have nothing : (new : StreamState P).ledger = 0 := rfl
  rw [nothing, add_zero] at books
  exact ⟨books, card_unreported_le _⟩

instance (st : StreamState P) (nowMs : Nat) : Decidable (st.TrimsIdle nowMs) :=
  inferInstanceAs (Decidable (_ → ∀ conn ∈ (st.expire nowMs).trimmedConns, _ = []))

instance (st : StreamState P) (key : ConnKey) : Decidable (st.IdleHttp2 key) :=
  decidable_of_iff (∀ conn ∈ (st.http2State.get? key).toList, conn.pendingRequests.map.entries = [])
    (by simp [IdleHttp2])

instance (st : StreamState P) : (op : Operation) → Decidable (st.Careful C op)
  | .event env ev _ => inferInstanceAs (Decidable
      (_ → st.TrimsIdle env.now ∧ (_ → st.IdleHttp2 (st.connKey env ev))))
  | .sweep nowMs => inferInstanceAs (Decidable (st.TrimsIdle nowMs))
  | .close _ => inferInstanceAs (Decidable True)
  | .drain _ => inferInstanceAs (Decidable True)

/-- The client opens an HTTP/2 connection with a request for `/` on stream 1. -/
def openHttp2 : Operation :=
  .event (atTime 100) (onConnection 0x1000 0)
    (http2ConnectionPreface ++ [0, 0, 2, 1, 5, 0, 0, 0, 1, 0x82, 0x84])

/-- The response to it. -/
def answerHttp2 : Operation :=
  .event (atTime 101) (onConnection 0x1000 1) [0, 0, 1, 1, 5, 0, 0, 0, 1, 0x88]

/-- A chunk of responses that was not copied in full. -/
def cutHttp2 : Operation :=
  .event (atTime 102) { onConnection 0x1000 1 with flags := 1 } [0, 0, 1, 1]

theorem transactions_conserved_answered :
    let run := exec (serverConfig 100000) [openHttp2, answerHttp2, cutHttp2]
      (new (P := asciiPlatform)) 0
    (reported (runEvents run.1)).card = 1 ∧
      accepted (runLog run.1) = run.2.1.ledger + reported (runEvents run.1) +
        cancelled (runLog run.1) + unreported (runLog run.1) ∧
      (unreported (runLog run.1)).card ≤ dropped (runLog run.1) :=
  ⟨by decide +kernel,
    transactions_conserved (run_exec (serverConfig 100000) _ new 0) (by decide +kernel)⟩

/-- A truncated chunk drops the HTTP/2 connection together with the request that waits on it: no
event, no dropped amount, no cancelled stream. -/
theorem request_lost_with_truncated_chunk :
    let run := exec (serverConfig 100000) [openHttp2, cutHttp2] (new (P := asciiPlatform)) 0
    (accepted (runLog run.1)).card = 1 ∧ run.2.1.ledger.card = 0 ∧ runEvents run.1 = [] ∧
      (cancelled (runLog run.1)).card = 0 ∧ (unreported (runLog run.1)).card = 0 ∧
      dropped (runLog run.1) = 0 := by
  decide +kernel

end StreamState

end ApiSensor
