import ApiSensor.Stream.Frame

/-!
# The ledger of requests

The handlers of a chunk keep the books of the whole state; nothing is dropped in them.
-/

namespace ApiSensor

open Library Library.Prog

variable {P : Platform} {C : Config} {call : Call}

namespace StreamState

/-- The requests that wait for their response. -/
def ledger (st : StreamState P) : Multiset ParsedRequest := st.weighPending tally

/-- All waiting requests are usable. -/
structure AllUsable (st : StreamState P) : Prop where
  queues : ∀ key queue, st.pending.get? key = some queue → ∀ req ∈ queue.items, req.Usable
  streams : ∀ key conn, st.http2State.get? key = some conn →
    PendingStreams.Usable conn.pendingRequests

/-- From one state to another the log and the events account for every request. -/
def Settles (st : StreamState P) (log : List Note) (after : StreamState P)
    (events : List TrafficEvent) : Prop :=
  st.AllUsable → after.AllUsable ∧
    accepted log + st.ledger = after.ledger + reported events + cancelled log + unreported log

namespace Settles

variable {st middle after : StreamState P}

/-- Nothing happened to the requests. -/
theorem of_same {log : List Note} (pending : after.pending = st.pending)
    (http2State : after.http2State = st.http2State) (none : accepted log = 0)
    (kept : cancelled log = 0) (uncounted : unreported log = 0) : Settles st log after [] := by
  intro usable
  refine ⟨⟨?_, ?_⟩, ?_⟩
  · rw [pending]
    exact usable.queues
  · rw [http2State]
    exact usable.streams
  · simp [ledger, weighPending, weighQueues, weighStreams, pending, http2State, none, kept,
      uncounted]

theorem refl (st : StreamState P) : Settles st [] st [] := of_same rfl rfl rfl rfl rfl

theorem trans {first second : List Note} {events more : List TrafficEvent}
    (left : Settles st first middle events) (right : Settles middle second after more) :
    Settles st (first ++ second) after (events ++ more) := by
  intro usable
  obtain ⟨middleUsable, before⟩ := left usable
  obtain ⟨afterUsable, later⟩ := right middleUsable
  refine ⟨afterUsable, ?_⟩
  calc
    accepted (first ++ second) + st.ledger
        = accepted second + (accepted first + st.ledger) := by rw [accepted_append]; abel
    _ = accepted second + middle.ledger + reported events + cancelled first +
        unreported first := by
      rw [before]; abel
    _ = after.ledger + reported (events ++ more) + cancelled (first ++ second) +
        unreported (first ++ second) := by
      rw [later, reported_append, cancelled_append, unreported_append]; abel

end Settles

/-- The books of a part are the books of the whole that contains it. -/
theorem books_embed {entered part part' shown gone whole whole' : Multiset ParsedRequest}
    (books : entered + part = part' + shown + gone) (replaced : whole' + part = whole + part')
    {uncounted : Multiset ParsedRequest} (none : uncounted = 0) :
    entered + whole = whole' + shown + gone + uncounted := by
  subst none
  refine add_right_cancel (b := part) ?_
  calc
    entered + whole + part = whole + (entered + part) := by abel
    _ = whole + part' + shown + gone := by rw [books]; abel
    _ = whole' + shown + gone + 0 + part := by rw [← replaced]; abel

theorem ledger_insert_pending (key : ConnKey) (queue : PendingQueue P) (st : StreamState P) :
    ({ st with pending := st.pending.insert key queue } : StreamState P).ledger +
      weigh tally (st.queue key).items = st.ledger + weigh tally queue.items := by
  have inserted := Dict.total_insert
    (fun _ queue => weigh tally (PendingQueue.items queue)) st.pending key queue
  have stored : (st.pending.get? key).elim 0 (fun queue => weigh tally queue.items) =
      weigh tally (st.queue key).items := by
    rw [StreamState.queue]
    cases st.pending.get? key <;> rfl
  rw [stored] at inserted
  simp only [ledger, weighPending, weighQueues, weighStreams]
  rw [add_right_comm, inserted]
  abel

theorem ledger_insert_http2State (key : ConnKey) (conn : Http2Conn P) (st : StreamState P) :
    ({ st with http2State := st.http2State.insert key conn } : StreamState P).ledger +
      ((st.http2State.get? key).getD .new).ledger = st.ledger + conn.ledger := by
  have inserted := Dict.total_insert
    (fun _ conn => PendingStreams.weighAll tally (Http2Conn.pendingRequests conn))
    st.http2State key conn
  have stored : (st.http2State.get? key).elim 0
      (fun conn => PendingStreams.weighAll tally conn.pendingRequests) =
      ((st.http2State.get? key).getD .new).ledger := by
    cases st.http2State.get? key <;> rfl
  rw [stored] at inserted
  simp only [ledger, weighPending, weighQueues, weighStreams]
  rw [add_assoc, inserted, Http2Conn.ledger, PendingStreams.ledger]
  abel

theorem AllUsable.queue {st : StreamState P} (usable : st.AllUsable) (key : ConnKey) :
    ∀ req ∈ (st.queue key).items, req.Usable := by
  unfold StreamState.queue
  cases found : st.pending.get? key with
  | none => exact fun req member => absurd member List.not_mem_nil
  | some queue => exact usable.queues key queue found

theorem AllUsable.setQueue {st : StreamState P} (usable : st.AllUsable) {key : ConnKey}
    {queue : PendingQueue P} (new : ∀ req ∈ queue.items, req.Usable) :
    ({ st with pending := st.pending.insert key queue } : StreamState P).AllUsable := by
  refine ⟨fun other stored found => ?_, usable.streams⟩
  rw [Dict.get?_insert] at found
  split at found
  · cases found
    exact new
  · exact usable.queues other stored found

theorem AllUsable.conn {st : StreamState P} (usable : st.AllUsable) (key : ConnKey) :
    PendingStreams.Usable ((st.http2State.get? key).getD .new).pendingRequests := by
  cases found : st.http2State.get? key with
  | none => exact fun _ _ absent => absurd absent (by simp [Http2Conn.new, Charged.empty])
  | some conn => exact usable.streams key conn found

/-- Storing a connection whose books are in order. -/
theorem Settles.of_conn {st : StreamState P} {log : List Note} {events : List TrafficEvent}
    {key : ConnKey} {conn after : Http2Conn P} (settles : conn.Settles log after events)
    (same : conn.pendingRequests = ((st.http2State.get? key).getD .new).pendingRequests) :
    Settles st log { st with http2State := st.http2State.insert key after } events := by
  intro usable
  have before := usable.conn key
  rw [← same] at before
  refine ⟨⟨usable.queues, fun other stored found => ?_⟩, ?_⟩
  · rw [Dict.get?_insert] at found
    split at found
    · cases found
      exact settles.usable before
    · exact usable.streams other stored found
  · have replaced := st.ledger_insert_http2State key after
    rw [Http2Conn.ledger, ← same] at replaced
    exact books_embed (settles.books before) replaced (unreported_eq_zero settles.entries)

theorem settles_processHttp2Event (payload : Bytes) (st : StreamState P) :
    Sat (st.processHttp2Event C call payload)
      fun log result => Settles st log result.1 result.2 := by
  refine (Http2Conn.sat_process _ payload).bind fun log result processed => sat_pure.mpr ?_
  rw [List.append_nil]
  rcases processed with ⟨entries, rfl⟩ | ⟨rest, rfl, settles⟩
  · -- the chunk was empty or refused
    have counted : Settles st log st [] := by
      rcases entries with rfl | rfl <;> exact .of_same rfl rfl rfl rfl rfl
    have stored : Settles st [] { st with http2State := st.http2State.insert call.key _ } [] :=
      .of_conn (.refl { (st.http2State.get? call.key).getD .new with
        lastEventTs := call.env.now }) rfl
    simpa using counted.trans stored
  · have parsed : ∀ items,
        Settles st [.framesParsed call.key call.isRequestDir items] st [] :=
      fun _ => .of_same rfl rfl rfl rfl rfl
    exact (parsed _).trans (.of_conn settles rfl)

/-! ## Queues -/

theorem settles_pushRequest (key : ConnKey) (req : ParsedRequest) (new : req.Usable)
    (st : StreamState P) :
    Sat (st.pushRequest C key req) fun log after => Settles st log after [] := by
  unfold pushRequest
  refine ((st.queue key).sat_push req C.maxTotalBufferBytes).bind fun log result pushed => ?_
  refine sat_pure.mpr fun usable => ?_
  have before := usable.queue key
  have replaced := st.ledger_insert_pending key result.2
  rw [List.append_nil]
  obtain ⟨rfl, same⟩ | ⟨rfl, appended⟩ := pushed
  · refine ⟨usable.setQueue (by rwa [same]), books_embed ?_ replaced rfl⟩
    rw [same]
    simp [accepted, cancelled, Note.acceptedTally, Note.cancelledTally]
  · refine ⟨usable.setQueue fun other member => ?_, books_embed ?_ replaced rfl⟩
    · rw [appended] at member
      rcases List.mem_append.mp member with old | last
      · exact before other old
      · rw [List.mem_singleton.mp last]
        exact new
    · rw [appended, weigh_append]
      simp [accepted, cancelled, Note.acceptedTally, Note.cancelledTally, weigh, add_comm]

/-- The books after the front of a queue has been taken: the caller has to report it. -/
theorem sat_popRequest_books (key : ConnKey) (st : StreamState P) (usable : st.AllUsable) :
    Sat (st.popRequest key) fun log result =>
      log = [] ∧ result.2.AllUsable ∧
        st.ledger = result.2.ledger + result.1.elim 0 tally := by
  unfold popRequest
  refine ((st.queue key).sat_popUsable (usable.queue key)).bind fun log popped front => ?_
  obtain ⟨rfl, front, tail⟩ := front
  refine sat_pure.mpr ⟨rfl, usable.setQueue fun req member => ?_, ?_⟩
  · rw [tail] at member
    exact usable.queue key req (List.mem_of_mem_tail member)
  · have replaced := st.ledger_insert_pending key popped.2
    have split : weigh tally (st.queue key).items =
        popped.1.elim 0 tally + weigh tally popped.2.items := by
      rw [front, tail]
      cases (st.queue key).items <;> simp [weigh]
    rw [split] at replaced
    refine add_right_cancel (b := weigh tally popped.2.items) ?_
    rw [← replaced]
    abel

theorem settles_http1Request (req : HttpRequestParsed) (st : StreamState P) :
    Sat (st.http1Request C call req) fun log result => Settles st log result.1 result.2 := by
  unfold http1Request
  split
  · rename_i fit
    simp only [Bool.and_eq_true] at fit
    refine (st.settles_pushRequest call.key _ ?_).bind fun log after settles => ?_
    · exact fit.2
    · exact sat_pure.mpr (by rwa [List.append_nil])
  · exact sat_pure.mpr (.refl st)

theorem settles_http1Response (payload : Bytes) (resp : HttpResponseParsed) (st : StreamState P) :
    Sat (st.http1Response C call payload resp)
      fun log result => Settles st log result.1 result.2 := by
  unfold http1Response
  split
  · exact sat_pure.mpr (.refl st)
  · have upgraded : Settles st [.answered resp] (st.noteUpgrade call resp) [] := by
      unfold noteUpgrade
      split <;> exact .of_same rfl rfl rfl rfl rfl
    by_cases usable : (st.noteUpgrade call resp).AllUsable
    · refine sat_note_bind.mpr ?_
      refine (sat_popRequest_books call.key _ usable).bind ?_
      rintro log ⟨request, after⟩ ⟨rfl, usable, books⟩
      cases request with
      | none =>
        refine sat_count_bind.mpr (sat_pure.mpr ?_)
        have counted : Settles (st.noteUpgrade call resp) [.count .unpairedResponses 1] after [] :=
          fun _ => ⟨usable, by
            simpa [accepted, cancelled, unreported, Note.acceptedTally, Note.cancelledTally,
            Note.unreportedTally] using books⟩
        exact upgraded.trans counted
      | some request =>
        refine sat_pure.mpr ?_
        have paired : Settles (st.noteUpgrade call resp) [] after
            [http1Event P C call.env.now payload request resp] :=
          fun _ => ⟨usable, by simpa [reported, http1Event] using books⟩
        exact upgraded.trans paired
    · -- marking the upgrade does not touch the requests
      refine fun _ _ _ given => absurd ?_ usable
      exact (upgraded given).1

theorem settles_http3Headers (headers : Headers) (st : StreamState P) :
    Sat (st.http3Headers C call headers) fun log result => Settles st log result.1 result.2 := by
  unfold http3Headers
  split
  · split
    · exact sat_pure.mpr (.refl st)
    · dsimp only
      split
      · exact sat_pure.mpr (.refl st)
      · rename_i fit
        refine (st.settles_pushRequest call.key _ ?_).bind fun log after settles => ?_
        · simpa [ParsedRequest.Usable] using fit
        · exact sat_pure.mpr (by rwa [List.append_nil])
  · split
    · exact sat_pure.mpr (.refl st)
    · by_cases usable : st.AllUsable
      · refine (sat_popRequest_books call.key st usable).bind ?_
        rintro log ⟨request, after⟩ ⟨rfl, usable, books⟩
        cases request with
        | none =>
          refine sat_count_bind.mpr (sat_pure.mpr fun _ => ⟨usable, ?_⟩)
          simpa [accepted, cancelled, unreported, Note.acceptedTally, Note.cancelledTally,
            Note.unreportedTally] using books
        | some request =>
          refine sat_pure.mpr fun _ => ⟨usable, ?_⟩
          simpa [reported] using books
      · exact fun _ _ _ given => absurd given usable

/-! ## One chunk -/

theorem settles_move {written : List Table} {st after : StreamState P} {log : List Note}
    {events : List TrafficEvent} (move : Move C call written st log after events) :
    Settles st log after events := by
  cases move with
  | count => exact .of_same rfl rfl rfl rfl rfl
  | fed => exact .of_same rfl rfl rfl rfl rfl
  | chunkRefused => exact .of_same rfl rfl rfl rfl rfl
  | update update aside =>
    obtain ⟨pending, http2State⟩ := update.requests aside
    exact .of_same pending http2State rfl rfl rfl
  | message payload msg ran =>
    cases msg with
    | request req => exact settles_http1Request req st _ _ ran
    | response resp => exact settles_http1Response payload resp st _ _ ran
  | http3 headers ran => exact settles_http3Headers headers st _ _ ran
  | http2 isRequestDir payload ran => exact settles_processHttp2Event payload st _ _ ran

theorem settles_dispatch (payload : Bytes) (st : StreamState P) :
    Sat (st.dispatch C call payload) fun log result => Settles st log result.1 result.2 :=
  (moves_dispatch payload st).mono fun _ _ moves =>
    moves.effect Settles.refl (fun left right => left.trans right) fun move _ => settles_move move

end StreamState

end ApiSensor
