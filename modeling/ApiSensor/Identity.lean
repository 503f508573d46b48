import ApiSensor.Stream.Frame

/-!
# Stability of connection keys

`handle_event` finds the key of a connection through `conn_born_ms`.  An entry of that map is
written once and leaves it with a close or with an eviction pass that finds some key of the
identity inactive.  As long as neither happens, every event of the identity gets the same key.
-/

namespace ApiSensor

open Library Library.Prog

variable {P : Platform} {C : Config}

/-- The operation is a close that matches the identity. -/
def Operation.closes (identity : ConnIdentity) : Operation → Bool
  | .close key => StreamState.hit key identity
  | _ => false

namespace StreamState

/-! ## What an eviction pass forgets -/

/-- Something in the state keeps a connection known at an eviction pass: an unexpired request, a
fresh HTTP/2 connection that is not among the oldest of too many, or an upgrade. -/
def Anchored (st : StreamState P) (nowMs : Nat) (key : ConnKey) : Prop :=
  (∃ queue, st.pending.get? key = some queue ∧
      ∃ req ∈ queue.items, req.expired nowMs streamTtlMs = false) ∨
    (∃ conn, st.http2State.get? key = some conn ∧ fresh nowMs conn.lastEventTs = true ∧
      key ∉ (st.expire nowMs).http2State.excess Http2Conn.lastEventTs maxStreamEntries) ∨
    key ∈ st.wsConnections ∨ key ∈ st.http3Connections

section

variable (st : StreamState P) (nowMs : Nat) (key : ConnKey)

theorem contains_pending_expire :
    (st.expire nowMs).pending.contains key = true ↔
      ∃ queue, st.pending.get? key = some queue ∧
        ∃ req ∈ queue.items, req.expired nowMs streamTtlMs = false := by
  simp only [Dict.contains, expire, Dict.get?_retain, Dict.get?_mapValues]
  cases st.pending.get? key with
  | none => simp
  | some queue =>
    simp [Option.filter_some, PendingQueue.isEmpty, PendingQueue.expireTake,
      List.dropWhile_eq_nil_iff]

theorem contains_http2State_trim :
    (st.expire nowMs).trim.http2State.contains key = true ↔
      ∃ conn, st.http2State.get? key = some conn ∧ fresh nowMs conn.lastEventTs = true ∧
        key ∉ (st.expire nowMs).http2State.excess Http2Conn.lastEventTs maxStreamEntries := by
  have found : (st.expire nowMs).http2State.get? key =
      ((st.http2State.get? key).map fun conn => (conn.expireStale nowMs).conn).filter
        fun conn => fresh nowMs conn.lastEventTs := by
    simp [expire, expiredHttp2]
  simp only [Dict.contains, trim, Dict.get?_retain, found]
  cases st.http2State.get? key with
  | none => simp
  | some conn =>
    cases young : fresh nowMs conn.lastEventTs <;>
      simp [Option.filter_some, Http2Conn.expireStale, young]

/-- The test of the pass in terms of the state before it. -/
theorem stillActive_iff_anchored :
    (st.expire nowMs).trim.stillActive key = true ↔ st.Anchored nowMs key := by
  have queued := st.contains_pending_expire nowMs key
  have conn := st.contains_http2State_trim nowMs key
  simp only [stillActive, Bool.or_eq_true, conn, decide_eq_true_eq, Anchored, or_assoc]
  exact or_congr_left queued

end

/-- An eviction pass at this time is due and finds a key of the identity without anchor. -/
def PassForgets (st : StreamState P) (nowMs : Nat) (identity : ConnIdentity) : Prop :=
  10000 ≤ nowMs - st.lastEvictionMs ∧
    ∃ key ∈ st.knownConnections, key.identity = identity ∧ ¬ st.Anchored nowMs key

/-- The eviction pass of an operation forgets the identity. -/
def Forgets (C : Config) (st : StreamState P) (identity : ConnIdentity) : Operation → Prop
  | .event env _ _ => inScope C env = true ∧ st.PassForgets env.now identity
  | .sweep nowMs => st.PassForgets nowMs identity
  | .close _ => False
  | .drain _ => False

/-! ## Birth times -/

variable {st : StreamState P} {born : Nat}

variable {identity : ConnIdentity}

theorem born_swept {nowMs : Nat} (kept : ¬ st.PassForgets nowMs identity)
    (known : st.connBornMs.get? identity = some born) :
    (st.swept nowMs).connBornMs.get? identity = some born := by
  unfold swept
  split
  · exact known
  · rename_i due
    have active : ∀ key ∈ st.knownConnections, key.identity = identity →
        (st.expire nowMs).trim.stillActive key = true := by
      intro key member same
      rw [stillActive_iff_anchored]
      by_contra loose
      exact kept ⟨Nat.not_lt.mp due, key, member, same, loose⟩
    have retained : (st.evicted nowMs).connBornMs.get? identity =
        (st.connBornMs.get? identity).filter fun _ =>
          decide (∀ key ∈ st.knownConnections, key.identity = identity →
            (st.expire nowMs).trim.stillActive key = true) :=
      Dict.get?_retain _ _ _
    rw [retained, known, Option.filter_some, if_pos (decide_eq_true active)]

theorem born_bear (env : Env) (ev : TlsEventHeader) (st : StreamState P) :
    (st.bear env ev).connBornMs.get? ev.identity = some (st.connKey env ev).bornMs := by
  unfold bear connKey ConnKey.fromEvent
  cases found : st.connBornMs.get? ev.identity with
  | none => simp [Dict.contains, found]
  | some born => simp [Dict.contains, found]

theorem born_bear_of_known (known : st.connBornMs.get? identity = some born) (env : Env)
    (ev : TlsEventHeader) :
    (st.bear env ev).connBornMs.get? identity = some born := by
  unfold bear
  split
  · exact known
  · rename_i absent
    have other : identity ≠ ev.identity := by
      rintro rfl
      simp [Dict.contains, known] at absent
    rw [Dict.get?_insert_of_ne _ other, known]

theorem passForgets_bear (env : Env) (ev : TlsEventHeader) (st : StreamState P) (nowMs : Nat)
    (identity : ConnIdentity) :
    (st.bear env ev).PassForgets nowMs identity ↔ st.PassForgets nowMs identity := by
  unfold bear
  split <;> rfl

/-- After an admitted event the birth time is what it was after `bear`. -/
theorem born_event {after : StreamState P} {env : Env} {ev : TlsEventHeader} {payload : Bytes}
    {log : List Note} {events : List TrafficEvent}
    (outcome : Outcome (st.handleEvent C env ev payload) log (after, events))
    (inside : inScope C env = true) (kept : ¬ st.PassForgets env.now identity)
    (known : (st.bear env ev).connBornMs.get? identity = some born) :
    after.connBornMs.get? identity = some born := by
  obtain ⟨_, _, _, _, -, -, -, receives⟩ := received_of_inside inside outcome
  have change := local_receive env ev payload (st.connKey env ev) true (st.admitted env ev) _ _
    receives
  rw [change.connBornMs]
  exact born_swept (mt (passForgets_bear env ev st env.now identity).mp kept) known

/-- A step that neither closes nor forgets an identity keeps its birth time. -/
theorem born_step {after : StreamState P} {stage : Stage} (step : Step C st stage after)
    (kept : ¬ Forgets C st identity stage.op) (unclosed : stage.op.closes identity = false)
    (known : st.connBornMs.get? identity = some born) :
    after.connBornMs.get? identity = some born := by
  have stepped := step.stepped
  cases stepped with
  | outside => exact known
  | event env ev payload inside =>
    have pass : ¬ st.PassForgets env.now identity := fun forgets => kept ⟨inside, forgets⟩
    exact born_event step inside pass (born_bear_of_known known env ev)
  | sweep => exact born_swept kept known
  | close key =>
    have missed : hit key identity = false := unclosed
    have retained : (st.closed key).connBornMs.get? identity =
        (st.connBornMs.get? identity).filter fun _ => !hit key identity :=
      Dict.get?_retain _ _ _
    rw [retained, known, missed]
    rfl
  | drain => exact known

/-! ## Stable keys -/

/-- The key of an event is given by its identity and the recorded birth time. -/
theorem connKey_of_born {key : ConnKey} {ev : TlsEventHeader} (own : ev.identity = key.identity)
    (born : st.connBornMs.get? key.identity = some key.bornMs) (env : Env) :
    st.connKey env ev = key := by
  have fields : ev.pid = key.pid ∧ ev.sslPtr = key.sslPtr ∧
      ev.procStartNs = key.procStartNs ∧ ev.connGeneration = key.generation := by
    simpa [TlsEventHeader.identity, ConnKey.identity] using own
  obtain ⟨pid, ptr, start, generation⟩ := fields
  simp only [connKey, ConnKey.fromEvent, own, born, Option.getD_some, pid, ptr, start, generation]

/-- Between two events of one identity, with no close of it and no eviction pass that forgets it,
the connection is remembered and its key stays the same; the pass inside the first event counts. -/
theorem connKey_stable {st final : StreamState P} {env later : Env} {ev next : TlsEventHeader}
    {payload : Bytes} {log : List Note} {events : List TrafficEvent}
    {trace : List (StreamState P × Stage)}
    (run : Run C st ((st, ⟨.event env ev payload, log, events⟩) :: trace) final)
    (inside : inScope C env = true) (same : next.identity = ev.identity)
    (unclosed : ∀ entry ∈ trace, entry.2.op.closes ev.identity = false)
    (kept : ∀ entry ∈ (st, ⟨.event env ev payload, log, events⟩) :: trace,
      ¬ Forgets C entry.1 ev.identity entry.2.op) :
    final.connBornMs.get? ev.identity = some (st.connKey env ev).bornMs ∧
      final.connKey later next = st.connKey env ev := by
  cases run with
  | @cons _ middle _ _ _ first rest =>
    have pass : ¬ st.PassForgets env.now ev.identity :=
      fun forgets => kept _ List.mem_cons_self ⟨inside, forgets⟩
    have born := born_event first inside pass (born_bear env ev st)
    have stays : final.connBornMs.get? ev.identity = some (st.connKey env ev).bornMs := by
      refine rest.invariant
        (fun state => state.connBornMs.get? ev.identity = some (st.connKey env ev).bornMs)
        (fun before stage after member step known => ?_) born
      exact born_step step (kept _ (List.mem_cons_of_mem _ member)) (unclosed _ member) known
    have own : next.identity = (st.connKey env ev).identity := same
    exact ⟨stays, connKey_of_born own stays later⟩

instance (st : StreamState P) (nowMs : Nat) (key : ConnKey) : Decidable (st.Anchored nowMs key) :=
  decidable_of_iff _ (st.stillActive_iff_anchored nowMs key)

instance (st : StreamState P) (nowMs : Nat) (identity : ConnIdentity) :
    Decidable (st.PassForgets nowMs identity) :=
  inferInstanceAs (Decidable (_ ∧ ∃ key ∈ st.knownConnections, _))

instance (st : StreamState P) (identity : ConnIdentity) :
    (op : Operation) → Decidable (Forgets C st identity op)
  | .event env _ _ => inferInstanceAs (Decidable (_ ∧ st.PassForgets env.now identity))
  | .sweep nowMs => inferInstanceAs (Decidable (st.PassForgets nowMs identity))
  | .close _ => inferInstanceAs (Decidable False)
  | .drain _ => inferInstanceAs (Decidable False)

/-- A request waits through an eviction pass that is due. -/
def waitingOps : List Operation := [chunk 20000 0 "GET / HTTP/1.1\r\n\r\n", .sweep 31000]

theorem connKey_stable_waiting :
    let final := (exec (serverConfig 100000) waitingOps (new (P := asciiPlatform)) 0).2.1
    final.connBornMs.get? (onConnection 0x1000 0).identity = some 20000 ∧
      final.connKey (atTime 31001) (onConnection 0x1000 1) =
        (new (P := asciiPlatform)).connKey (atTime 20000) (onConnection 0x1000 0) :=
  connKey_stable (run_exec (serverConfig 100000) waitingOps new 0) rfl rfl (by decide +kernel)
    (by decide +kernel)

/-- A keep-alive connection that is used again after ten idle seconds. -/
def keepAliveOps : List Operation :=
  [chunk 20000 0 "GET /a HTTP/1.1\r\n\r\n",
    chunk 20001 1 "HTTP/1.1 200 OK\r\nContent-Length: 0\r\n\r\n",
    chunk 30000 0 "GET /b HTTP/1.1\r\n\r\n"]

/-- The event that finds the connection idle is handled under the key it had, but the pass inside
that call forgets the key.  The response gets another one and is not paired. -/
theorem connKey_forgotten_when_idle :
    let idle := (exec (serverConfig 100000) (keepAliveOps.take 2) (new (P := asciiPlatform)) 0).2
    let used := (exec (serverConfig 100000) keepAliveOps (new (P := asciiPlatform)) 0).2
    let response := chunk 30001 1 "HTTP/1.1 200 OK\r\nContent-Length: 0\r\n\r\n"
    let answer := (response.program (serverConfig 100000) used.1).run used.2
    idle.1.connKey (atTime 30000) (onConnection 0x1000 0) ≠
        used.1.connKey (atTime 30001) (onConnection 0x1000 1) ∧
      answer.1.2 = [] ∧ .count .unpairedResponses 1 ∈ answer.2.2 := by
  decide +kernel

end StreamState

end ApiSensor
