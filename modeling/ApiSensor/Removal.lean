import ApiSensor.Conservation
import ApiSensor.Stream.Parts

/-!
# What a close removes

`evict_connection_by_ptr` with a record that carries an identity removes the entries of that
connection from every map and no others, hands back what they were charged, and reports each waiting
request once.
-/

namespace ApiSensor

open Library Library.Prog

variable {P : Platform} {C : Config}

/-- What an entry adds to a counter. -/
def Note.amount (metric : Metric) : Note → Nat
  | .count other amount => if other = metric then amount else 0
  | .unreported reqs => if metric = .eventsDropped then reqs.length else 0
  | _ => 0

/-- The amount added to a counter in a log. -/
def counted (metric : Metric) (log : List Note) : Nat := (log.map (Note.amount metric)).sum

namespace StreamState

/-- The second state is the first one without the entries of a connection. -/
structure Without (identity : ConnIdentity) (st after : StreamState P) : Prop where
  buffers : ∀ key, after.buffers.get? key =
    if key.identity = identity then none else st.buffers.get? key
  pending : ∀ key, after.pending.get? key =
    if key.identity = identity then none else st.pending.get? key
  http2State : ∀ key, after.http2State.get? key =
    if key.identity = identity then none else st.http2State.get? key
  h2EarlyResp : ∀ key, after.h2EarlyResp.get? key =
    if key.identity = identity then none else st.h2EarlyResp.get? key
  http3Connections : ∀ key, key ∈ after.http3Connections ↔
    key ∈ st.http3Connections ∧ key.identity ≠ identity
  wsConnections : ∀ key, key ∈ after.wsConnections ↔
    key ∈ st.wsConnections ∧ key.identity ≠ identity
  knownConnections : ∀ key, key ∈ after.knownConnections ↔
    key ∈ st.knownConnections ∧ key.identity ≠ identity
  connBornMs : ∀ other, after.connBornMs.get? other =
    if other = identity then none else st.connBornMs.get? other
  connRoles : ∀ key, after.connRoles.get? key =
    if key.identity = identity then none else st.connRoles.get? key
  gappedStreams : ∀ key, key ∈ after.gappedStreams ↔
    key ∈ st.gappedStreams ∧ key.identity ≠ identity
  h1Decoders : ∀ key, after.h1Decoders.get? key =
    if key.identity = identity then none else st.h1Decoders.get? key
  h2Prefix : ∀ key, after.h2Prefix.get? key =
    if key.identity = identity then none else st.h2Prefix.get? key
  wsRemaining : ∀ key, after.wsRemaining.get? key =
    if key.identity = identity then none else st.wsRemaining.get? key
  lastEvictionMs : after.lastEvictionMs = st.lastEvictionMs

theorem get?_retain_ne {κ ν : Type} [DecidableEq κ] (identityOf : κ → ConnIdentity)
    (identity : ConnIdentity) (dict : Dict κ ν) (key : κ) :
    (dict.retain fun key _ => !decide (identityOf key = identity)).get? key =
      if identityOf key = identity then none else dict.get? key := by
  rw [Dict.get?_retain]
  by_cases same : identityOf key = identity <;> cases dict.get? key <;>
    simp [same, Option.filter_some]

theorem without_part (identity : ConnIdentity) (st : StreamState P) :
    Without identity st (st.part fun other => !decide (other = identity)) := by
  constructor
  case http3Connections | wsConnections | knownConnections | gappedStreams =>
    intro key
    simp [part]
  case connBornMs => exact get?_retain_ne id identity _
  case lastEvictionMs => rfl
  case buffers | h1Decoders | wsRemaining => exact get?_retain_ne StreamKey.identity identity _
  all_goals exact get?_retain_ne ConnKey.identity identity _

/-- A close record with an identity matches that identity only. -/
theorem hit_eq_of_exact {key : ConnKey} (exact : key.procStartNs ≠ 0 ∨ key.generation ≠ 0)
    (identity : ConnIdentity) : hit key identity = decide (identity = key.identity) := by
  obtain ⟨pid, sslPtr, procStartNs, generation⟩ := identity
  have carried : (decide (key.procStartNs ≠ 0) || decide (key.generation ≠ 0)) = true := by
    simpa using exact
  simp only [hit, ConnKey.identity, carried, Bool.not_true, Bool.false_or, ConnIdentity.mk.injEq]
  simp only [Bool.decide_and, Bool.and_assoc]

/-- The requests that wait on one connection. -/
def waitingOn (identity : ConnIdentity) (st : StreamState P) : List Unanswered :=
  st.waiting fun key => key.identity = identity

/-- The log of a close and what it returns. -/
theorem sat_close (st : StreamState P) (key : ConnKey) :
    Sat (st.evictConnectionByPtr C key) fun log result =>
      let unanswered := st.waiting fun other => hit key other.identity
      log = [.count .transactionsIncomplete (unanswered.take maxIncompletePerSweep).length,
        .unreported ((unanswered.drop maxIncompletePerSweep).map Prod.fst),
        .count .connectionsClosed
          (st.knownConnections.card - (st.closed key).knownConnections.card)] ∧
      result = (st.closed key, (unanswered.take maxIncompletePerSweep).map fun (req, protocol) =>
        buildIncompleteEvent C.accountId req protocol (str "connection_closed")) := by
  unfold evictConnectionByPtr releaseRequests incompleteEvents
  dsimp only
  refine sat_releaseAll_bind.mpr ?_
  simp only [count, note, log_bind, done_bind, pure_eq, sat_log]
  refine sat_releaseAll_bind.mpr (sat_releaseAll_bind.mpr ?_)
  refine sat_log.mpr (sat_releaseMemory_bind.mpr (sat_pure.mpr ?_))
  simp

/-- Nothing waits on a connection that has been removed. -/
theorem waiting_closed (st : StreamState P) (key : ConnKey) :
    (st.closed key).waiting (fun other => hit key other.identity) = [] := by
  have pending : (st.closed key).pending.retain (fun other _ => hit key other.identity) =
      .empty := by
    rw [closed, Dict.retain_retain]
    exact Dict.retain_eq_empty _ fun _ _ => Bool.not_and_self _
  have conns : (st.closed key).http2State.retain (fun other _ => hit key other.identity) =
      .empty := by
    rw [closed, Dict.retain_retain]
    exact Dict.retain_eq_empty _ fun _ _ => Bool.not_and_self _
  rw [waiting, pending, conns]
  rfl

theorem closed_closed (st : StreamState P) (key : ConnKey) :
    (st.closed key).closed key = st.closed key := by
  rw [closed_eq_part, closed_eq_part, part_part]
  simp only [Bool.and_self]

theorem counted_close (metric : Metric) (incomplete closed : Nat) (dropped : List ParsedRequest) :
    counted metric [.count .transactionsIncomplete incomplete, .unreported dropped,
        .count .connectionsClosed closed] =
      (if metric = .transactionsIncomplete then incomplete else 0) +
        (if metric = .eventsDropped then dropped.length else 0) +
          if metric = .connectionsClosed then closed else 0 := by
  simp [counted, Note.amount, eq_comm, Nat.add_assoc]

/-- The outcome of a close, whatever the counter stands at. -/
theorem run_close (C : Config) (st : StreamState P) (key : ConnKey) (counter : Nat) :
    let run := (st.evictConnectionByPtr C key).run counter
    let unanswered := st.waiting fun other => hit key other.identity
    run.1 = (st.closed key, (unanswered.take maxIncompletePerSweep).map fun (req, protocol) =>
        buildIncompleteEvent C.accountId req protocol (str "connection_closed")) ∧
      ∀ metric, counted metric run.2.2 =
        (if metric = .transactionsIncomplete then
          (unanswered.take maxIncompletePerSweep).length else 0) +
        (if metric = .eventsDropped then unanswered.length - maxIncompletePerSweep else 0) +
        if metric = .connectionsClosed then
          st.knownConnections.card - (st.closed key).knownConnections.card else 0 := by
  obtain ⟨log_eq, result_eq⟩ := sat_close st key _ _
    (outcome_run (st.evictConnectionByPtr C key) counter)
  refine ⟨result_eq, fun metric => ?_⟩
  rw [log_eq, counted_close, List.length_map, List.length_drop]

theorem counter_close (C : Config) (st : StreamState P) (key : ConnKey) (others : Nat) :
    ((st.evictConnectionByPtr C key).run (others + st.charge)).2.1 =
      others + (st.closed key).charge := by
  have conserved : Conserves 0 (st.evictConnectionByPtr C key) st.charge
      fun result => result.1.charge := conserves_evictConnectionByPtr st key
  rw [conserved.counter_run, (run_close C st key _).1]

/-- A close of a connection that has been removed does nothing. -/
theorem close_again (C : Config) (st : StreamState P) (key : ConnKey) (others : Nat) :
    let run := ((st.closed key).evictConnectionByPtr C key).run (others + (st.closed key).charge)
    run.1 = (st.closed key, []) ∧ run.2.1 = others + (st.closed key).charge ∧
      ∀ metric, counted metric run.2.2 = 0 := by
  obtain ⟨result, counts⟩ := run_close C (st.closed key) key (others + (st.closed key).charge)
  simp only [waiting_closed, closed_closed, Nat.sub_self] at result counts
  refine ⟨result, ?_, fun metric => ?_⟩
  · rw [counter_close, closed_closed]
  · rw [counts]
    simp

/-- A close that carries an identity removes the entries of that connection from every map and
leaves all others.  The byte counter, at what others hold besides what the state is charged, goes
down by the charge of the connection, and the number of active connections by those removed.  Every
request that waited is reported closed, those over the limit are counted as dropped, and the same
close once more does nothing. -/
theorem close_removes_connection (C : Config) (st : StreamState P) (key : ConnKey)
    (exact : key.procStartNs ≠ 0 ∨ key.generation ≠ 0) (others : Nat) :
    let result := (st.evictConnectionByPtr C key).run (others + st.charge)
    let again := (result.1.1.evictConnectionByPtr C key).run result.2.1
    let unanswered := st.waitingOn key.identity
    Without key.identity st result.1.1 ∧
      result.2.1 + (st.only key.identity).charge = others + st.charge ∧
      counted .connectionsClosed result.2.2 = (st.only key.identity).knownConnections.card ∧
      result.1.2 = ((unanswered.take maxIncompletePerSweep).map fun (req, protocol) =>
        buildIncompleteEvent C.accountId req protocol (str "connection_closed")) ∧
      counted .eventsDropped result.2.2 = unanswered.length - maxIncompletePerSweep ∧
      again.1 = (result.1.1, []) ∧ again.2.1 = result.2.1 ∧
      ∀ metric, counted metric again.2.2 = 0 := by
  intro result again unanswered
  obtain ⟨result_eq, counts⟩ := run_close C st key (others + st.charge)
  have after_eq : result.1.1 = st.closed key := congrArg Prod.fst result_eq
  have counter : result.2.1 = others + (st.closed key).charge := counter_close C st key others
  have selects : (st.waiting fun other => hit key other.identity) = unanswered :=
    congrArg st.waiting (funext fun other => hit_eq_of_exact exact other.identity)
  have rest : st.closed key = st.part fun identity => !decide (identity = key.identity) := by
    simp only [closed_eq_part, hit_eq_of_exact exact]
  have known : (st.only key.identity).knownConnections.card +
      (st.closed key).knownConnections.card = st.knownConnections.card := by
    rw [rest]
    simpa [part] using Finset.card_filter_add_card_filter_not
      (s := st.knownConnections) fun other => other.identity = key.identity
  have repeated : again.1 = (st.closed key, []) ∧ again.2.1 = others + (st.closed key).charge ∧
      ∀ metric, counted metric again.2.2 = 0 := by
    simp only [again, after_eq, counter]
    exact close_again C st key others
  refine ⟨?_, ?_, ?_, ?_, ?_, ?_, ?_, repeated.2.2⟩
  · rw [after_eq, rest]
    exact without_part key.identity st
  · rw [counter, rest, Nat.add_assoc, Nat.add_comm (charge _), charge_part_add]
  · rw [counts]
    simp only [reduceCtorEq, if_false, if_true, Nat.zero_add]
    omega
  · rw [← selects]
    exact congrArg Prod.snd result_eq
  · rw [counts, ← selects]
    simp
  · rw [after_eq]
    exact repeated.1
  · rw [counter]
    exact repeated.2.1

/-- One request waits on the connection that is closed and one on another connection. -/
def twoWaiting : List Operation :=
  [chunk 20000 0 "GET / HTTP/1.1\r\n\r\n",
    .event (atTime 20001) (onConnection 0x2000 0) (bytes "GET /kept HTTP/1.1\r\n\r\n")]

theorem close_removes_connection_waiting :
    let st := (exec (serverConfig 100000) twoWaiting (new (P := asciiPlatform)) 0).2.1
    let key := ConnKey.fromEvent (onConnection 0x1000 0) 0
    let result := (st.evictConnectionByPtr (serverConfig 100000) key).run (0 + st.charge)
    (st.waitingOn key.identity).length = 1 ∧ st.knownConnections.card = 2 ∧
      Without key.identity st result.1.1 :=
  ⟨by decide +kernel, by decide +kernel,
    (close_removes_connection (serverConfig 100000)
      (exec (serverConfig 100000) twoWaiting (new (P := asciiPlatform)) 0).2.1
      (ConnKey.fromEvent (onConnection 0x1000 0) 0) (.inl (by decide)) 0).1⟩

end StreamState

end ApiSensor
