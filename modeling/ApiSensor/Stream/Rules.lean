import ApiSensor.Stream.Runs

/-!
# The frame of a call

What a call of `handle_event` does around the dispatch of a payload, and the cases of a step of a
run.
-/

namespace ApiSensor

open Library Library.Prog

variable {P : Platform}

/-- Counter increments other than dropped events, unpaired responses and WebSocket frames. -/
def Note.quiet : Note → Bool
  | .count .eventsDropped _ => false
  | .count .unpairedResponses _ => false
  | .count .protoWebSocket _ => false
  | .count _ _ => true
  | _ => false

/-- What an eviction, a close or a drain logs and emits: quiet counters, unreported requests and
events without a response. -/
structure Parting (log : List Note) (events : List TrafficEvent) : Prop where
  entries : ∀ entry ∈ log, entry.quiet = true ∨ ∃ reqs, entry = .unreported reqs
  incomplete : ∀ event ∈ events, event.outcome.isSome = true

namespace Parting

variable {first second : List Note} {events more : List TrafficEvent}

theorem of_quiet (quiet : ∀ entry ∈ first, entry.quiet = true) : Parting first [] :=
  ⟨fun entry member => .inl (quiet entry member), by simp⟩

theorem append (parting : Parting first events) (later : Parting second more) :
    Parting (first ++ second) (events ++ more) :=
  ⟨List.forall_mem_append.mpr ⟨parting.entries, later.entries⟩,
    List.forall_mem_append.mpr ⟨parting.incomplete, later.incomplete⟩⟩

theorem count (metric : Metric) (amount : Nat)
    (quiet : (Note.count metric amount).quiet = true) :
    Parting [.count metric amount] [] :=
  .of_quiet (by simp [quiet])

end Parting

namespace StreamState

variable {C : Config} {call : Call}

/-! ## Role and truncation -/

/-- Only roles differ after `request_direction`. -/
theorem freezeRole_eq (key : ConnKey) (ev : TlsEventHeader) (payload : Bytes)
    (st : StreamState P) :
    ∃ roles, st.freezeRole C key ev payload = { st with connRoles := roles } := by
  unfold freezeRole
  split
  · split
    · exact ⟨_, rfl⟩
    · exact ⟨st.connRoles, rfl⟩
  · exact ⟨st.connRoles, rfl⟩

/-- A payload is delivered on the direction that the role says carries requests, or is not looked at
because the role is unknown. -/
theorem receive_cases (env : Env) (ev : TlsEventHeader) (payload : Bytes) (key : ConnKey)
    (st : StreamState P) :
    (∃ roles, st.receive C env ev payload key =
        { st with connRoles := roles }.deliver C
          ⟨env, ev, key, st.requestDirection C key ev payload = some ev.direction⟩ payload) ∨
      st.receive C env ev payload key = (count .roleAmbiguous 1 >>= fun _ => pure (st, [])) := by
  unfold receive
  cases st.requestDirection C key ev payload with
  | some dir =>
    obtain ⟨roles, same⟩ := freezeRole_eq (C := C) key ev payload st
    refine .inl ⟨roles, ?_⟩
    simp only [same, Option.some.injEq, eq_comm]
  | none =>
    dsimp only
    split
    · exact .inl ⟨st.connRoles, rfl⟩
    · exact .inr rfl

/-- The payload is looked at: the role of the direction is known, or it looks like server frames. -/
def looked (C : Config) (key : ConnKey) (ev : TlsEventHeader) (payload : Bytes)
    (st : StreamState P) : Bool :=
  (st.requestDirection C key ev payload).isSome || looksLikeH2ConnectionFrames payload

theorem receive_looked (env : Env) (ev : TlsEventHeader) (payload : Bytes) (key : ConnKey)
    (st : StreamState P) :
    st.looked C key ev payload = true ∨
      st.receive C env ev payload key = (count .roleAmbiguous 1 >>= fun _ => pure (st, [])) := by
  unfold looked receive
  cases st.requestDirection C key ev payload with
  | some dir => exact .inl rfl
  | none =>
    cases looksLikeH2ConnectionFrames payload with
    | true => exact .inl rfl
    | false => exact .inr rfl

variable {st : StreamState P} {ev : TlsEventHeader} {payload : Bytes}

theorem receive_of_looked (env : Env) {key : ConnKey} (looked : st.looked C key ev payload = true) :
    ∃ roles, st.receive C env ev payload key = { st with connRoles := roles }.deliver C
      ⟨env, ev, key, st.requestDirection C key ev payload = some ev.direction⟩ payload := by
  unfold StreamState.looked at looked
  unfold receive
  cases known : st.requestDirection C key ev payload with
  | some dir =>
    obtain ⟨roles, same⟩ := freezeRole_eq (C := C) key ev payload st
    refine ⟨roles, ?_⟩
    simp only [same, Option.some.injEq, eq_comm]
  | none =>
    rw [known, Option.isSome_none, Bool.false_or] at looked
    exact ⟨st.connRoles, if_pos looked⟩

/-- Only the held prefixes differ after the prefix of the connection is taken. -/
theorem takePrefix_eq (call : Call) (st : StreamState P) :
    ∃ held, st.takePrefix call = { st with h2Prefix := held } := by
  unfold takePrefix
  split
  · exact ⟨_, rfl⟩
  · exact ⟨st.h2Prefix, rfl⟩

theorem joinPrefix_mem (call : Call) (payload : Bytes) (st : StreamState P) :
    ∃ held ∈ [] :: (st.h2Prefix.get? call.key).toList,
      st.joinPrefix call payload = held ++ payload := by
  unfold joinPrefix
  split
  · cases st.h2Prefix.get? call.key with
    | none => exact ⟨[], by simp, rfl⟩
    | some held => exact ⟨held, by simp, rfl⟩
  · exact ⟨[], by simp, rfl⟩

/-- Only birth times differ once a connection is born. -/
theorem bear_eq (env : Env) (ev : TlsEventHeader) (st : StreamState P) :
    ∃ born, st.bear env ev = { st with connBornMs := born } := by
  unfold bear
  split
  · exact ⟨st.connBornMs, rfl⟩
  · exact ⟨_, rfl⟩

section Rules

variable {env : Env} {ev : TlsEventHeader} {key : ConnKey} {payload : Bytes} {st : StreamState P}
  {post : List Note → StreamState P × List TrafficEvent → Prop}

/-- The three ways of an event: whole, truncated on an HTTP/2 connection, and truncated on any
other one. -/
theorem sat_deliver
    (whole : call.ev.isTruncated = false → ∀ held, st.takePrefix call = { st with h2Prefix := held } →
      Sat ({ st with h2Prefix := held }.dispatch C call (st.joinPrefix call payload)) post)
    (http2 : call.ev.isTruncated = true → ∀ conn, st.http2State.get? call.key = some conn →
      post [.count .captureGaps 1] ({ st with http2State := st.http2State.erase call.key }, []))
    (cut : call.ev.isTruncated = true → st.http2State.get? call.key = none →
      ∀ held, (st.cutOff call).takePrefix call = { st.cutOff call with h2Prefix := held } →
        Sat ({ st.cutOff call with h2Prefix := held }.dispatch C call (st.joinPrefix call payload))
          fun log => post (.count .captureGaps 1 :: log)) :
    Sat (st.deliver C call payload) post := by
  unfold deliver
  split
  case isTrue complete =>
      obtain ⟨held, same⟩ := takePrefix_eq call st
      rw [same]
      exact whole (by simpa using complete) held same
  case isFalse truncated =>
      rw [Bool.not_eq_true', Bool.not_eq_false] at truncated
      refine sat_count_bind.mpr ?_
      cases found : st.http2State.get? call.key with
      | some conn => exact sat_releaseAll_bind.mpr (sat_pure.mpr (http2 truncated conn found))
      | none =>
        obtain ⟨held, same⟩ := takePrefix_eq call (st.cutOff call)
        rw [same]
        exact sat_releaseMemory_bind.mpr (cut truncated found held same)

theorem sat_receive
    (delivered : ∀ roles, Sat ({ st with connRoles := roles }.deliver C
      ⟨env, ev, key, st.requestDirection C key ev payload = some ev.direction⟩ payload) post)
    (ambiguous : post [.count .roleAmbiguous 1] (st, [])) :
    Sat (st.receive C env ev payload key) post := by
  rcases receive_cases env ev payload key st with ⟨roles, delivers⟩ | ignores
  · rw [delivers]
    exact delivered roles
  · rw [ignores]
    exact sat_count_bind.mpr (sat_pure.mpr ambiguous)

end Rules

/-! ## The whole call -/

/-- `scope_allows` as a test of configuration and resolver answer. -/
def inScope (C : Config) (env : Env) : Bool :=
  C.namespaceScope.all fun allowed =>
    (env.container.bind ContainerContext.podNamespace).any fun ns => ns ∈ allowed

/-- The state after `evict_stale`. -/
def swept (st : StreamState P) (nowMs : Nat) : StreamState P :=
  if nowMs - st.lastEvictionMs < 10000 then st else st.evicted nowMs

/-- The state in which `handle_event` looks at the payload. -/
def admitted (env : Env) (ev : TlsEventHeader) (st : StreamState P) : StreamState P :=
  let swept := (st.bear env ev).swept env.now
  { swept with knownConnections := insert (st.connKey env ev) swept.knownConnections }

section

variable (C : Config) (key : ConnKey) (st : StreamState P)

theorem parting_incompleteEvents (reqs : List Unanswered) (outcome : Str) :
    Sat (incompleteEvents C reqs outcome) fun log events => Parting log events := by
  refine sat_count_bind.mpr (sat_note_bind.mpr (sat_pure.mpr ⟨?_, fun event member => ?_⟩))
  · simp [Note.quiet]
  · obtain ⟨entry, -, rfl⟩ := List.mem_map.mp member
    rfl

theorem sat_evictStale (nowMs : Nat) (st : StreamState P) :
    Sat (st.evictStale C nowMs) fun log result =>
      result.1 = st.swept nowMs ∧ Parting log result.2 := by
  unfold evictStale swept
  split
  · exact sat_pure.mpr ⟨rfl, .of_quiet (by simp)⟩
  · unfold evictionPass releaseRequests
    dsimp only
    refine sat_releaseAll_bind.mpr (sat_releaseAll_bind.mpr ?_)
    refine sat_releaseAll_bind.mpr (sat_releaseAll_bind.mpr (sat_count_bind.mpr ?_))
    refine (parting_incompleteEvents C _ _).bind fun _ incomplete parting => ?_
    refine sat_releaseAll_bind.mpr (sat_releaseMemory_bind.mpr (sat_count_bind.mpr ?_))
    refine sat_pure.mpr ⟨rfl, ?_⟩
    rw [← List.append_nil incomplete]
    exact (Parting.count .pendingExpired _ rfl).append
      (parting.append (.count .connectionsClosed _ rfl))

theorem sat_evictConnectionByPtr :
    Sat (st.evictConnectionByPtr C key) fun log result =>
      result.1 = st.closed key ∧ Parting log result.2 := by
  unfold evictConnectionByPtr releaseRequests
  dsimp only
  refine sat_releaseAll_bind.mpr ((parting_incompleteEvents C _ _).bind fun _ incomplete parting => ?_)
  refine sat_releaseAll_bind.mpr (sat_releaseAll_bind.mpr (sat_count_bind.mpr ?_))
  refine sat_releaseMemory_bind.mpr (sat_pure.mpr ⟨rfl, ?_⟩)
  rw [← List.append_nil incomplete]
  exact parting.append (.count .connectionsClosed _ rfl)

theorem sat_takeAllIncomplete (outcome : Str) (st : StreamState P) :
    Sat (st.takeAllIncomplete C outcome) fun log result =>
      result.1 = st.drained ∧ Parting log result.2 := by
  unfold takeAllIncomplete releaseRequests
  dsimp only
  refine sat_releaseAll_bind.mpr ((parting_incompleteEvents C _ _).bind fun _ incomplete parting => ?_)
  refine sat_pure.mpr ⟨rfl, ?_⟩
  rwa [List.append_nil]

theorem sat_know :
    Sat (st.know key) fun log after =>
      after = { st with knownConnections := insert key st.knownConnections } ∧
        ∀ entry ∈ log, entry.quiet = true := by
  unfold know
  split
  · rename_i known
    refine sat_pure.mpr ⟨?_, by simp⟩
    rw [Finset.insert_eq_of_mem known]
  · exact sat_count_bind.mpr (sat_pure.mpr ⟨rfl, by simp [Note.quiet]⟩)

theorem sat_scopeAllows (env : Env) :
    Sat (scopeAllows C env) fun log allowed =>
      allowed = inScope C env ∧ ∀ entry ∈ log, entry.quiet = true := by
  unfold scopeAllows inScope
  cases C.namespaceScope with
  | none => exact sat_pure.mpr ⟨rfl, by simp⟩
  | some allowed =>
    cases env.container.bind ContainerContext.podNamespace with
    | none =>
      exact sat_count_bind.mpr (sat_count_bind.mpr (sat_pure.mpr ⟨rfl, by simp [Note.quiet]⟩))
    | some ns =>
      dsimp only
      split
      · rename_i member
        exact sat_pure.mpr ⟨by simp [member], by simp⟩
      · rename_i missing
        exact sat_count_bind.mpr (sat_pure.mpr ⟨by simp [missing], by simp [Note.quiet]⟩)

end

/-- The call that `handle_event` makes of an event. -/
def arrival (C : Config) (env : Env) (ev : TlsEventHeader) (payload : Bytes) (st : StreamState P) :
    Call :=
  ⟨env, ev, st.connKey env ev,
    (st.admitted env ev).requestDirection C (st.connKey env ev) ev payload = some ev.direction⟩

/-- Outside the scope nothing happens.  Inside, an eviction pass comes first, and the payload is
received in the admitted state. -/
theorem outcome_handleEvent {env : Env} {after : StreamState P} {log : List Note}
    {events : List TrafficEvent}
    (outcome : Outcome (st.handleEvent C env ev payload) log (after, events)) :
    (inScope C env = false ∧ after = st ∧ events = [] ∧ ∀ entry ∈ log, entry.quiet = true) ∨
      (inScope C env = true ∧ ∃ scopeLog sweepLog knowLog received swept decoded,
        log = scopeLog ++ (sweepLog ++ (knowLog ++ received)) ∧ events = swept ++ decoded ∧
        (∀ entry ∈ scopeLog, entry.quiet = true) ∧ (∀ entry ∈ knowLog, entry.quiet = true) ∧
        Outcome ((st.bear env ev).evictStale C env.now) sweepLog
          ((st.bear env ev).swept env.now, swept) ∧
        Outcome ((st.admitted env ev).receive C env ev payload (st.connKey env ev)) received
          (after, decoded)) := by
  obtain ⟨scopeLog, allowed, log, scope, outcome, rfl⟩ := outcome_bind.mp outcome
  obtain ⟨allowed_eq, scope_quiet⟩ := sat_scopeAllows C env _ _ scope
  subst allowed_eq
  cases inside : inScope C env with
  | false =>
    rw [inside] at outcome
    cases outcome
    exact .inl ⟨rfl, rfl, rfl, by simpa using scope_quiet⟩
  | true =>
    rw [inside] at outcome
    obtain ⟨sweepLog, ⟨sweptState, swept⟩, _, sweep, knowing, rfl⟩ := outcome_bind.mp outcome
    obtain ⟨knowLog, known, _, knows, receiving, rfl⟩ := outcome_bind.mp knowing
    obtain ⟨received, ⟨final, decoded⟩, _, receives, returning, rfl⟩ :=
      outcome_bind.mp receiving
    cases returning
    have swept_eq : sweptState = (st.bear env ev).swept env.now :=
      (sat_evictStale C env.now (st.bear env ev) _ _ sweep).1
    obtain ⟨known_eq, know_quiet⟩ := sat_know _ _ _ _ knows
    have state_eq : known = st.admitted env ev := by rw [known_eq, swept_eq]; rfl
    rw [state_eq] at receives
    rw [swept_eq] at sweep
    refine .inr ⟨rfl, scopeLog, sweepLog, knowLog, received, swept, decoded, ?_, rfl,
      scope_quiet, know_quiet, sweep, receives⟩
    simp

/-- The steps of a run: an event, before whose payload the state may part with requests, and the
operations that only do that. -/
inductive Stepped (C : Config) (st : StreamState P) : Stage → StreamState P → Prop
  | outside {env : Env} {ev : TlsEventHeader} {payload : Bytes} {log : List Note}
      (refused : inScope C env = false) (parting : Parting log []) :
      Stepped C st ⟨.event env ev payload, log, []⟩ st
  | event (env : Env) (ev : TlsEventHeader) (payload : Bytes) {lead received : List Note}
      {swept decoded : List TrafficEvent} {after : StreamState P} (inside : inScope C env = true)
      (parting : Parting lead swept)
      (receives : Outcome ((st.admitted env ev).receive C env ev payload (st.connKey env ev))
        received (after, decoded)) :
      Stepped C st ⟨.event env ev payload, lead ++ received, swept ++ decoded⟩ after
  | sweep (nowMs : Nat) {log : List Note} {events : List TrafficEvent}
      (parting : Parting log events) : Stepped C st ⟨.sweep nowMs, log, events⟩ (st.swept nowMs)
  | close (key : ConnKey) {log : List Note} {events : List TrafficEvent}
      (parting : Parting log events) : Stepped C st ⟨.close key, log, events⟩ (st.closed key)
  | drain (outcome : Str) {log : List Note} {events : List TrafficEvent}
      (parting : Parting log events) : Stepped C st ⟨.drain outcome, log, events⟩ st.drained

theorem Step.stepped {after : StreamState P} {stage : Stage} (step : Step C st stage after) :
    Stepped C st stage after := by
  obtain ⟨op, log, events⟩ := stage
  cases op with
  | event env ev payload =>
    rcases outcome_handleEvent step with ⟨refused, rfl, none, quiet⟩ |
      ⟨inside, scopeLog, sweepLog, knowLog, received, swept, decoded, rfl, rfl, scopeQuiet,
        knowQuiet, sweeping, receives⟩
    · cases none
      exact .outside refused (.of_quiet quiet)
    · have lead : Parting (scopeLog ++ (sweepLog ++ knowLog)) swept := by
        have sweeps := (sat_evictStale C env.now (st.bear env ev) _ _ sweeping).2
        simpa using (Parting.of_quiet scopeQuiet).append (sweeps.append (.of_quiet knowQuiet))
      have stepped := Stepped.event env ev payload inside lead receives
      simpa only [List.append_assoc] using stepped
  | sweep nowMs =>
    obtain ⟨⟨⟩, parting⟩ := sat_evictStale C nowMs st _ _ step
    exact .sweep nowMs parting
  | close key =>
    obtain ⟨⟨⟩, parting⟩ := sat_evictConnectionByPtr C key st _ _ step
    exact .close key parting
  | drain outcome =>
    obtain ⟨⟨⟩, parting⟩ := sat_takeAllIncomplete C outcome st _ _ step
    exact .drain outcome parting

theorem received_of_inside {env : Env} {after : StreamState P} {log : List Note}
    {events : List TrafficEvent} (inside : inScope C env = true)
    (outcome : Outcome (st.handleEvent C env ev payload) log (after, events)) :
    ∃ lead received swept decoded, log = lead ++ received ∧ events = swept ++ decoded ∧
      Parting lead swept ∧
      Outcome ((st.admitted env ev).receive C env ev payload (st.connKey env ev)) received
        (after, decoded) := by
  have step : Step C st ⟨.event env ev payload, log, events⟩ after := outcome
  cases step.stepped with
  | outside refused => exact absurd (refused.symm.trans inside) Bool.false_ne_true
  | event _ _ _ _ parting receives => exact ⟨_, _, _, _, rfl, rfl, parting, receives⟩

end StreamState

end ApiSensor
