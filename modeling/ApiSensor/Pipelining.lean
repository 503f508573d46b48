import ApiSensor.Decoding.Pipelined
import ApiSensor.Pairing
import ApiSensor.Upgrade
import ApiSensor.Gaps.Http1

/-!
# Pipelined responses

`handle_event` asks once for each chunk how the request at the front of the queue frames its
response, and applies the answer to every response that begins in the chunk.  As long as that is
right for all of them, the events depend on the requests that wait and on the bytes of the
responses, not on how the bytes are cut.
-/

namespace ApiSensor

open Library Library.Prog

variable {P : Platform} {C : Config} {call : Call}

/-! ## Events of answered requests -/

/-- An event without the times at which it was observed. -/
def TrafficEvent.untimed (event : TrafficEvent) : TrafficEvent :=
  { event with observedAt := 0, latencyMs := none }

/-- The events of answered requests. -/
def answered (events : List TrafficEvent) : List TrafficEvent :=
  events.filter fun event => event.outcome.isNone

@[simp]
theorem answered_append (first second : List TrafficEvent) :
    answered (first ++ second) = answered first ++ answered second :=
  List.filter_append first second

theorem answered_eq_nil {events : List TrafficEvent} (unpaired : paired events = []) :
    answered events = [] := List.map_eq_nil_iff.mp unpaired

/-- What a request and its response say by themselves. -/
def answerEvent (P : Platform) (C : Config) (answer : ParsedRequest × HttpResponseParsed) :
    TrafficEvent :=
  (StreamState.http1Event P C 0 [] answer.1 answer.2).untimed

/-- If an answer is looked for in the raw chunk, nothing is found there. -/
def NotFromChunk (P : Platform) (payload : Bytes) (answer : ParsedRequest × HttpResponseParsed) :
    Prop :=
  parseJsonrpcRequest P answer.1.body = [] → isMcpResponse answer.2.headers = true →
    answer.2.body = [] → parseSseEvents P payload = []

theorem untimed_http1Event {payload : Bytes} {answer : ParsedRequest × HttpResponseParsed}
    (notFromChunk : NotFromChunk P payload answer) (nowMs : Nat) :
    (StreamState.http1Event P C nowMs payload answer.1 answer.2).untimed =
      answerEvent P C answer := by
  have calls : StreamState.mcpCalls P answer.1 answer.2 payload =
      StreamState.mcpCalls P answer.1 answer.2 [] := by
    unfold StreamState.mcpCalls
    dsimp only
    cases inRequest : parseJsonrpcRequest P answer.1.body with
    | cons first others => rfl
    | nil =>
      cases stream : isMcpResponse answer.2.headers with
      | false => rfl
      | true =>
        cases body : answer.2.body with
        | cons byte bytes => rfl
        | nil => exact notFromChunk inRequest stream body
  unfold answerEvent StreamState.http1Event TrafficEvent.untimed
  dsimp only
  rw [calls]

/-! ## The message loop -/

namespace StreamState

/-- A message that is passed over. -/
theorem passes_http1Message (server : call.isRequestDir = false) (payload : Bytes)
    {msg : HttpMessage} (interim : ∀ resp, msg = .response resp → isFinal resp = false)
    (st : StreamState P) : st.http1Message C call payload msg = pure (st, []) := by
  cases msg with
  | request req =>
    simp only [http1Message, http1Request]
    rw [server]
    rfl
  | response resp =>
    simp only [http1Message, http1Response]
    rw [interim resp rfl, Bool.not_false, Bool.or_true]
    rfl

theorem answers_http1Message (server : call.isRequestDir = false) (payload : Bytes)
    (msg : HttpMessage) (st : StreamState P) :
    Sat (st.http1Message C call payload msg) fun _ result =>
      (result.1.queue call.key).items = waitingAfterMessage (st.queue call.key).items msg ∧
        result.2 = ((answerOf (st.queue call.key).items msg).map fun answer =>
          http1Event P C call.env.now payload answer.1 answer.2).toList := by
  cases msg with
  | request req =>
    rw [passes_http1Message server payload (by rintro _ ⟨⟩)]
    exact sat_pure.mpr ⟨rfl, rfl⟩
  | response resp =>
    cases final : isFinal resp with
    | false =>
      rw [passes_http1Message server payload (by rintro _ ⟨⟩; exact final)]
      simp only [waitingAfterMessage, answerOf, final]
      exact sat_pure.mpr ⟨rfl, rfl⟩
    | true =>
      simp only [waitingAfterMessage, answerOf, final, if_true, Option.map_map]
      refine (answers_http1Response server payload resp final st).mono ?_
      rintro _ result ⟨rest, -, paired⟩
      exact ⟨rest, paired⟩

/-- The message loop answers the requests that wait, in their order. -/
theorem answers_http1Messages (server : call.isRequestDir = false) (payload : Bytes)
    (items : List Http1Item) (st : StreamState P) :
    Sat (http1Messages C call payload (itemMessages items) st) fun _ result =>
      (result.1.queue call.key).items = waitingAfter (st.queue call.key).items items ∧
        result.2 = (answersIn (st.queue call.key).items items).map fun answer =>
          http1Event P C call.env.now payload answer.1 answer.2 := by
  induction items generalizing st with
  | nil => exact sat_pure.mpr ⟨rfl, rfl⟩
  | cons item items induction =>
    cases item with
    | invalid reason => exact sat_pure.mpr ⟨rfl, rfl⟩
    | message m =>
      refine (answers_http1Message server payload m.msg st).bind ?_
      rintro _ ⟨after, events⟩ ⟨rest, paired⟩
      dsimp only at rest paired
      refine (induction after).bind fun _ result later => sat_pure.mpr ?_
      obtain ⟨waiting, more⟩ := later
      rw [rest] at waiting more
      refine ⟨waiting, ?_⟩
      rw [answersIn, List.map_append, paired, more]
      cases answerOf (st.queue call.key).items m.msg <;> rfl

/-- Without invalid framing the collecting loop changes nothing. -/
theorem keeps_collectItems {items : List Http1Item}
    (valid : ∀ item ∈ items, item.isInvalid = false) (st : StreamState P) :
    Sat (collectItems call items st) fun _ result => result = (st, itemMessages items) := by
  induction items with
  | nil => exact sat_pure.mpr rfl
  | cons item items induction =>
    rw [List.forall_mem_cons] at valid
    cases item with
    | invalid reason => exact absurd valid.1.symm Bool.false_ne_true
    | message m =>
      refine sat_bind.mpr fun _ _ _ => (induction valid.2).bind fun _ result same => ?_
      rw [same]
      exact sat_pure.mpr rfl

/-! ## One chunk -/

/-- The parser of a direction and the queue of its connection are where the reference decoder is. -/
structure Tracks (key : ConnKey) (stream : StreamKey) (state : Http1State × List ParsedRequest)
    (left : Bytes) (st : StreamState P) : Prop where
  decoder : st.decoderOf stream = ⟨state.1, maxBodyCaptureBytes⟩
  buffer : st.bufferOf stream = left
  waiting : (st.queue key).items = state.2

/-- What has to be the case for a chunk to be framed as a whole by the flags that are read when it
arrives. -/
structure FramesChunk (C : Config) (call : Call) (payload : Bytes) (st : StreamState P) :
    Prop where
  fits : (st.bufferOf call.streamKey ++ payload).length ≤ C.maxBuffer
  framed : Throughout (framedTurn P maxBodyCaptureBytes)
    (FramedBy P (flagsOf (st.queue call.key).items))
    ((st.decoderOf call.streamKey).state, (st.queue call.key).items)
    (st.bufferOf call.streamKey ++ payload)
  notFromChunk : ∀ answer ∈ answersIn (st.queue call.key).items
      (framedDrain P maxBodyCaptureBytes
        ((st.decoderOf call.streamKey).state, (st.queue call.key).items)
        (st.bufferOf call.streamKey ++ payload)).2.2,
    NotFromChunk P payload answer

/-- The decoder makes of the chunk what the reference makes of it. -/
theorem decode_of_framesChunk (server : call.isRequestDir = false) {payload : Bytes}
    {st : StreamState P} (chunk : st.FramesChunk C call payload)
    {state : Http1State × List ParsedRequest} {left : Bytes}
    (tracks : st.Tracks call.key call.streamKey state left) :
    let reference := framedDrain P maxBodyCaptureBytes state (left ++ payload)
    (st.decode call payload).1 = ⟨reference.1.1, maxBodyCaptureBytes⟩ ∧
      (st.bufferOf call.streamKey ++ payload).drop (st.decode call payload).2.1 = reference.2.1 ∧
      (st.decode call payload).2.2 = reference.2.2 := by
  obtain ⟨current, waiting⟩ := state
  obtain ⟨decoder, buffer, queued⟩ := tracks
  dsimp only at decoder queued ⊢
  have framed := chunk.framed
  rw [decoder, buffer, queued] at framed
  have flags : st.responseFlags call = flagsOf waiting := by
    rw [← queued, ← PendingQueue.frontIsHeadOrConnect_eq, responseFlags, server]
    rfl
  have same := Http1State.drain_eq_framedDrain framed
  have dropped : (left ++ payload).drop ((Http1Decoder.mk current maxBodyCaptureBytes).feed P
      (left ++ payload) (flagsOf waiting).1 (flagsOf waiting).2).2.1 = _ :=
    Http1Decoder.drop_feed _ _
  unfold decode
  rw [decoder, buffer, flags, dropped]
  refine ⟨?_, congrArg (fun result => result.2.1) same, congrArg (fun result => result.2.2) same⟩
  exact congrArg (fun result => Http1Decoder.mk result.1 maxBodyCaptureBytes) same

theorem answered_http1Events (nowMs : Nat) (payload : Bytes)
    (answers : List (ParsedRequest × HttpResponseParsed)) :
    answered (answers.map fun answer => http1Event P C nowMs payload answer.1 answer.2) =
      answers.map fun answer => http1Event P C nowMs payload answer.1 answer.2 := by
  refine List.filter_eq_self.mpr fun event member => ?_
  obtain ⟨answer, -, rfl⟩ := List.mem_map.mp member
  rfl

/-- The state and the events after a chunk are those of the reference decoder. -/
structure Agrees (C : Config) (key : ConnKey) (stream : StreamKey)
    (state : Http1State × List ParsedRequest) (buf : Bytes) (after : StreamState P)
    (events : List TrafficEvent) : Prop where
  tracks : after.Tracks key stream (framedDrain P maxBodyCaptureBytes state buf).1
    (framedDrain P maxBodyCaptureBytes state buf).2.1
  answers : (answered events).map TrafficEvent.untimed =
    (answersIn state.2 (framedDrain P maxBodyCaptureBytes state buf).2.2).map (answerEvent P C)

theorem agrees_consume (server : call.isRequestDir = false) {payload : Bytes}
    {st : StreamState P} (chunk : st.FramesChunk C call payload)
    {state : Http1State × List ParsedRequest} {left : Bytes}
    (tracks : st.Tracks call.key call.streamKey state left)
    (valid : ∀ item ∈ (framedDrain P maxBodyCaptureBytes state (left ++ payload)).2.2,
      item.isInvalid = false) :
    Sat (st.consume C call payload) fun _ result =>
      Agrees C call.key call.streamKey state (left ++ payload) result.1 result.2 := by
  obtain ⟨decoder, rest, items⟩ := decode_of_framesChunk server chunk tracks
  have notFromChunk := chunk.notFromChunk
  rw [tracks.buffer, tracks.waiting, tracks.decoder] at notFromChunk
  unfold consume
  dsimp only
  rw [if_neg (Nat.not_lt.mpr chunk.fits), items]
  refine sat_note_bind.mpr (sat_releaseMemory_bind.mpr ?_)
  refine (keeps_collectItems valid _).bind ?_
  rintro _ _ rfl
  refine ((answers_http1Messages server payload _ _).and
    (moves_http1Messages payload _ _)).mono ?_
  rintro _ ⟨after, events⟩ ⟨⟨waiting, answers⟩, moves⟩
  have untouched := untouched_moves moves (by decide) (by decide)
  have queued : ((st.decoded call payload).queue call.key).items = state.2 := tracks.waiting
  rw [queued] at waiting answers
  refine ⟨⟨?_, ?_, waiting.trans (waiting_framedDrain _ _).symm⟩, ?_⟩
  · rw [decoderOf, untouched.h1Decoders, decoded, Dict.get?_insert_self]
    exact decoder
  · rw [bufferOf, untouched.buffers, decoded, Dict.get?_insert_self]
    exact rest
  · dsimp only at answers ⊢
    rw [answers, answered_http1Events, List.map_map]
    exact List.map_congr_left fun answer member =>
      untimed_http1Event (notFromChunk answer member) call.env.now

/-- A chunk is decoded as by the reference, and the events are its answers. -/
theorem agrees_handleHttp1 (server : call.isRequestDir = false) {payload : Bytes}
    {st : StreamState P} (chunk : st.FramesChunk C call payload)
    {state : Http1State × List ParsedRequest} {left : Bytes}
    (tracks : st.Tracks call.key call.streamKey state left)
    (valid : ∀ item ∈ (framedDrain P maxBodyCaptureBytes state (left ++ payload)).2.2,
      item.isInvalid = false) :
    Sat (st.handleHttp1 C call payload) fun log result =>
      .chunkRefused call.streamKey ∉ log →
        Agrees C call.key call.streamKey state (left ++ payload) result.1 result.2 := by
  refine sat_reserveMemory_bind.mpr fun granted => ?_
  cases granted with
  | false =>
    refine sat_count_bind.mpr (sat_note_bind.mpr (sat_pure.mpr fun accepted => ?_))
    exact absurd (by simp) accepted
  | true =>
    have resumed : (st.resume call).FramesChunk C call payload :=
      ⟨chunk.fits, chunk.framed, chunk.notFromChunk⟩
    have tracks : (st.resume call).Tracks call.key call.streamKey state left :=
      ⟨tracks.decoder, tracks.buffer, tracks.waiting⟩
    exact (agrees_consume server resumed tracks valid).mono fun _ _ agrees _ => agrees

/-! ## Runs -/

/-- Nothing that the parser of a direction or the queue of its connection holds is discarded. -/
structure Keeps (key : ConnKey) (stream : StreamKey) (st after : StreamState P) : Prop where
  decoder : after.decoderOf stream = st.decoderOf stream
  buffer : after.bufferOf stream = st.bufferOf stream
  waiting : (after.queue key).items = (st.queue key).items

theorem Tracks.kept {key : ConnKey} {stream : StreamKey}
    {state : Http1State × List ParsedRequest} {left : Bytes} {st after : StreamState P}
    (tracks : st.Tracks key stream state left) (keeps : Keeps key stream st after) :
    after.Tracks key stream state left :=
  ⟨keeps.decoder.trans tracks.decoder, keeps.buffer.trans tracks.buffer,
    keeps.waiting.trans tracks.waiting⟩

/-- An event is a complete chunk of the responses of a connection that is handed to HTTP/1, and the
flags that are read when it arrives frame every response that begins in it. -/
structure ResponseChunk (C : Config) (key : ConnKey) (stream : StreamKey) (env : Env)
    (ev : TlsEventHeader) (payload : Bytes) (st : StreamState P) : Prop where
  inside : inScope C env = true
  own : st.connKey env ev = key
  direction : StreamKey.fromEvent ev = stream
  role : ∃ dir, (st.admitted env ev).requestDirection C key ev payload = some dir ∧
    ev.direction ≠ dir
  complete : ev.isTruncated = false
  http1 : (st.admitted env ev).route ⟨env, ev, key, false⟩ payload = .http1
  frames : (st.admitted env ev).FramesChunk C ⟨env, ev, key, false⟩ payload

/-- Conditions under which the responses of a connection are framed by the requests they answer.
Other connections may be served in between. -/
def FramesResponses (C : Config) (key : ConnKey) (stream : StreamKey) (st : StreamState P) :
    Operation → Prop
  | .event env ev payload =>
    (inScope C env = true → Keeps key stream st (st.admitted env ev)) ∧
      (ev.identity = key.identity → ResponseChunk C key stream env ev payload st)
  | .sweep nowMs => Keeps key stream st (st.swept nowMs)
  | .close closed => Keeps key stream st (st.closed closed)
  | .drain _ => Keeps key stream st st.drained

theorem agrees_event {key : ConnKey} {stream : StreamKey} {env : Env} {ev : TlsEventHeader}
    {payload : Bytes} {st after : StreamState P} {log : List Note} {events : List TrafficEvent}
    (outcome : Outcome (st.handleEvent C env ev payload) log (after, events))
    (keeps : inScope C env = true → Keeps key stream st (st.admitted env ev))
    (chunk : ResponseChunk C key stream env ev payload st)
    (granted : .chunkRefused stream ∉ log)
    {state : Http1State × List ParsedRequest} {left : Bytes}
    (tracks : st.Tracks key stream state left)
    (valid : ∀ item ∈ (framedDrain P maxBodyCaptureBytes state (left ++ payload)).2.2,
      item.isInvalid = false) :
    Agrees C key stream state (left ++ payload) after events := by
  obtain ⟨inside, rfl, rfl, ⟨dir, role, other⟩, complete, http1, frames⟩ := chunk
  obtain ⟨lead, received, swept, decoded, rfl, rfl, parting, receives⟩ :=
    received_of_inside inside outcome
  have arrives := tracks.kept (keeps inside)
  obtain ⟨roles, frozen⟩ := (st.admitted env ev).freezeRole_eq (C := C) (st.connKey env ev) ev payload
  have dispatched : Outcome ({ st.admitted env ev with connRoles := roles }.dispatch C
      ⟨env, ev, st.connKey env ev, false⟩ payload) received (after, decoded) := by
    rw [receive, role] at receives
    dsimp only at receives
    rw [frozen, decide_eq_false other, deliver, complete] at receives
    exact receives
  have routed : { st.admitted env ev with connRoles := roles }.route
      ⟨env, ev, st.connKey env ev, false⟩ payload = .http1 := http1
  rw [dispatch, routed] at dispatched
  have agrees := @agrees_handleHttp1 P C ⟨env, ev, st.connKey env ev, false⟩ rfl payload
    { st.admitted env ev with connRoles := roles }
    ⟨frames.fits, frames.framed, frames.notFromChunk⟩ state left
    ⟨arrives.decoder, arrives.buffer, arrives.waiting⟩ valid received (after, decoded) dispatched
    fun refused => granted (List.mem_append_right _ refused)
  refine ⟨agrees.tracks, ?_⟩
  rw [answered_append, answered_eq_nil (silent_of_parting parting).2]
  exact agrees.answers

end StreamState

/-- The payload of an event of the connection. -/
def Operation.payloadOn (identity : ConnIdentity) : Operation → Option Bytes
  | .event _ ev payload => if ev.identity = identity then some payload else none
  | _ => none

/-- The chunks of a connection in the order of their arrival. -/
def responseChunks (key : ConnKey) (trace : List (StreamState P × Stage)) : List Bytes :=
  trace.filterMap fun entry => entry.2.op.payloadOn key.identity

/-- The events of a connection in which a request is answered, without the times of observation. -/
def answersOf (key : ConnKey) (trace : List (StreamState P × Stage)) : List TrafficEvent :=
  (answered (connectionEvents key trace)).map TrafficEvent.untimed

section Traces

variable {key : ConnKey} {entry : StreamState P × Stage}

theorem exists_event_of_payloadOn {identity : ConnIdentity} {op : Operation} {payload : Bytes}
    (own : op.payloadOn identity = some payload) :
    ∃ env ev, op = .event env ev payload ∧ ev.identity = identity := by
  cases op with
  | event env ev other =>
    rw [Operation.payloadOn] at own
    split at own
    · rename_i same
      cases own
      exact ⟨env, ev, rfl, same⟩
    · cases own
  | _ => cases own

theorem answersOf_cons_of_own {payload : Bytes}
    (own : entry.2.op.payloadOn key.identity = some payload)
    (trace : List (StreamState P × Stage)) :
    answersOf key (entry :: trace) =
      (answered entry.2.events).map TrafficEvent.untimed ++ answersOf key trace := by
  obtain ⟨env, ev, op_eq, same⟩ := exists_event_of_payloadOn own
  have concerns : entry.2.op.concerns key.identity = true := by
    rw [op_eq]
    exact decide_eq_true same
  simp [answersOf, connectionEvents, connectionStages, concerns]

theorem answersOf_cons_of_foreign (foreign : entry.2.op.payloadOn key.identity = none)
    (trace : List (StreamState P × Stage)) :
    answersOf key (entry :: trace) = answersOf key trace := by
  have concerns : entry.2.op.concerns key.identity = false := by
    cases op_eq : entry.2.op with
    | event env ev payload =>
      rw [op_eq, Operation.payloadOn] at foreign
      split at foreign
      · cases foreign
      · rename_i other
        exact decide_eq_false other
    | _ => rfl
  simp [answersOf, connectionEvents, connectionStages, concerns]

end Traces

namespace StreamState

/-- Operations on other connections leave the parser and the queue alone. -/
theorem keeps_step {key : ConnKey} {stream : StreamKey} {st after : StreamState P} {stage : Stage}
    (sameConnection : stream.identity = key.identity) (step : Step C st stage after)
    (frames : FramesResponses C key stream st stage.op)
    (foreign : stage.op.payloadOn key.identity = none) : Keeps key stream st after := by
  cases step.stepped with
  | outside => exact ⟨rfl, rfl, rfl⟩
  | event env ev payload inside _ receives =>
    have other : ev.identity ≠ key.identity := by
      intro same
      rw [Operation.payloadOn, if_pos same] at foreign
      cases foreign
    have admits := frames.1 inside
    have change := local_receive env ev payload (st.connKey env ev) true (st.admitted env ev) _ _
      receives
    have otherStream : stream ≠ .fromEvent ev := by
      rintro rfl
      exact other sameConnection
    have otherKey : key ≠ st.connKey env ev := by
      rintro rfl
      exact other rfl
    refine ⟨?_, ?_, ?_⟩
    · rw [← admits.decoder, decoderOf, decoderOf, change.h1Decoders stream otherStream]
    · rw [← admits.buffer, bufferOf, bufferOf, change.buffers stream otherStream]
    · rw [← admits.waiting, queue, queue, change.pending key otherKey]
  | sweep => exact frames
  | close => exact frames
  | drain => exact frames

/-- The answers of a run are those of the reference decoder that is fed the same chunks. -/
theorem answers_run {key : ConnKey} {stream : StreamKey} {st final : StreamState P}
    {trace : List (StreamState P × Stage)}
    (sameConnection : stream.identity = key.identity) (run : Run C st trace final)
    (frames : ∀ entry ∈ trace, FramesResponses C key stream entry.1 entry.2.op)
    (granted : ∀ entry ∈ trace, .chunkRefused stream ∉ entry.2.log)
    {state : Http1State × List ParsedRequest} {left : Bytes}
    (tracks : st.Tracks key stream state left)
    (valid : ∀ item ∈ (feedAll (framedDrain P maxBodyCaptureBytes) state left
      (responseChunks key trace)).2.2, item.isInvalid = false) :
    answersOf key trace = (answersIn state.2 (feedAll (framedDrain P maxBodyCaptureBytes) state left
      (responseChunks key trace)).2.2).map (answerEvent P C) := by
  induction run generalizing state left with
  | nil => rfl
  | @cons st next final stage trace step rest induction =>
    rw [List.forall_mem_cons] at frames granted
    cases own : stage.op.payloadOn key.identity with
    | none =>
      have skipped : responseChunks key ((st, stage) :: trace) = responseChunks key trace :=
        List.filterMap_cons_none own
      rw [skipped] at valid ⊢
      rw [answersOf_cons_of_foreign own]
      have keeps := keeps_step sameConnection step frames.1 own
      exact induction frames.2 granted.2 (tracks.kept keeps) valid
    | some payload =>
      have fed : responseChunks key ((st, stage) :: trace) =
          payload :: responseChunks key trace := List.filterMap_cons_some own
      rw [fed, feedAll] at valid ⊢
      obtain ⟨here, later⟩ := List.forall_mem_append.mp valid
      obtain ⟨env, ev, op_eq, same⟩ := exists_event_of_payloadOn own
      have serves := frames.1
      obtain ⟨op, log, events⟩ := stage
      dsimp only at op_eq
      subst op_eq
      have agrees := agrees_event step serves.1 (serves.2 same) granted.1 tracks here
      rw [answersOf_cons_of_own own, agrees.answers,
        induction frames.2 granted.2 agrees.tracks later, answersIn_append here,
        List.map_append, waiting_framedDrain]

/-- The requests that wait and the bytes of the responses decide on the answers: each response is
framed by the request it answers, and it does not matter how the bytes are cut into chunks, as long
as the flags that are read when a chunk arrives frame every response that begins in it. -/
theorem answers_independent_of_chunks {key : ConnKey} {stream : StreamKey}
    {st final final' : StreamState P} {trace trace' : List (StreamState P × Stage)}
    (sameConnection : stream.identity = key.identity) (nothingLeft : st.Clear stream)
    (run : Run C st trace final) (run' : Run C st trace' final')
    (frames : ∀ entry ∈ trace, FramesResponses C key stream entry.1 entry.2.op)
    (frames' : ∀ entry ∈ trace', FramesResponses C key stream entry.1 entry.2.op)
    (granted : ∀ entry ∈ trace, .chunkRefused stream ∉ entry.2.log)
    (granted' : ∀ entry ∈ trace', .chunkRefused stream ∉ entry.2.log)
    (sameBytes : (responseChunks key trace').flatten = (responseChunks key trace).flatten)
    (regular : Throughout (framedTurn P maxBodyCaptureBytes) (FramedRegular P)
      (.head, (st.queue key).items) (responseChunks key trace).flatten)
    (wellFormed : ∀ item ∈ (framedDrain P maxBodyCaptureBytes (.head, (st.queue key).items)
      (responseChunks key trace).flatten).2.2, item.isInvalid = false) :
    answersOf key trace' = answersOf key trace ∧
      answersOf key trace = (answersIn (st.queue key).items
        (framedDrain P maxBodyCaptureBytes (.head, (st.queue key).items)
          (responseChunks key trace).flatten).2.2).map (answerEvent P C) := by
  have starts : st.Tracks key stream (.head, (st.queue key).items) [] :=
    ⟨nothingLeft.2, nothingLeft.1, rfl⟩
  have items := items_feedAll_framedDrain regular wellFormed
  rw [← sameBytes] at regular wellFormed
  have items' := items_feedAll_framedDrain regular wellFormed
  have answers := answers_run sameConnection run frames granted starts (by
    rw [items, ← sameBytes]
    exact wellFormed)
  have answers' := answers_run sameConnection run' frames' granted' starts (by
    rw [items']
    exact wellFormed)
  rw [items] at answers
  rw [items', sameBytes] at answers'
  exact ⟨answers'.trans answers.symm, answers⟩

/-! ## HEAD and GET -/

/-- The response direction of the connection. -/
def responseStream : StreamKey := .fromEvent (onConnection 0x1000 1)

/-- A HEAD and a GET that wait for their responses. -/
def headAndGet : (StreamState asciiPlatform × List TrafficEvent) × Nat × List Note :=
  ((chunk 100 0 "HEAD /a HTTP/1.1\r\n\r\nGET /b HTTP/1.1\r\n\r\n").program (serverConfig 4000)
    new).run 0

/-- The header block of either response. -/
def threeBytes : String := "HTTP/1.1 200 OK\r\nContent-Length: 3\r\n\r\n"

/-- Each response in a chunk of its own. -/
def oneByOne : List Operation := [chunk 101 1 threeBytes, chunk 102 1 (threeBytes ++ "abc")]

/-- The same bytes, cut inside the responses and between them. -/
def inPieces : List Operation :=
  [chunk 101 1 "HTTP/1.1 200 OK\r\nContent-", chunk 103 1 "Length: 3\r\n\r\n",
    chunk 105 1 (threeBytes ++ "a"), chunk 107 1 "bc"]

/-- The same bytes in one chunk. -/
def atOnce : List Operation := [chunk 101 1 (threeBytes ++ threeBytes ++ "abc")]

/-- The trace of responses that arrive for the two requests. -/
def served (ops : List Operation) : List (StreamState asciiPlatform × Stage) :=
  (exec (serverConfig 4000) ops headAndGet.1.1 headAndGet.2.1).1

instance (payload : Bytes) (answer : ParsedRequest × HttpResponseParsed) :
    Decidable (NotFromChunk P payload answer) := inferInstanceAs (Decidable (_ → _ → _ → _))

/-- The conditions on a chunk of responses, one by one. -/
theorem framesResponses_chunk {st : StreamState asciiPlatform} {now : Nat} {text : String}
    (checked :
      let before := st.admitted (atTime now) (onConnection 0x1000 1)
      let state := ((before.decoderOf responseStream).state, (before.queue firstKey).items)
      let buf := before.bufferOf responseStream ++ bytes text
      (before.decoderOf responseStream = st.decoderOf responseStream ∧
        before.bufferOf responseStream = st.bufferOf responseStream ∧
        (before.queue firstKey).items = (st.queue firstKey).items) ∧
      st.connKey (atTime now) (onConnection 0x1000 1) = firstKey ∧
      before.route ⟨atTime now, onConnection 0x1000 1, firstKey, false⟩ (bytes text) = .http1 ∧
      buf.length ≤ (serverConfig 4000).maxBuffer ∧
      Throughout.check (framedTurn asciiPlatform maxBodyCaptureBytes)
        (fun state rest => FramedBy asciiPlatform (flagsOf (before.queue firstKey).items) state rest)
        20 state buf = true ∧
      ∀ answer ∈ answersIn state.2 (framedDrain asciiPlatform maxBodyCaptureBytes state buf).2.2,
        NotFromChunk asciiPlatform (bytes text) answer) :
    FramesResponses (serverConfig 4000) firstKey responseStream st (chunk now 1 text) := by
  obtain ⟨⟨decoder, buffer, waiting⟩, own, http1, fits, framed, notFromChunk⟩ := checked
  refine ⟨fun _ => ⟨decoder, buffer, waiting⟩, fun _ => ?_⟩
  refine ⟨rfl, own, rfl, ⟨0, rfl, by decide⟩, rfl, http1, fits, ?_, notFromChunk⟩
  exact Throughout.of_check (fun _ _ => of_decide_eq_true) framed

theorem answers_independent_of_chunks_head :
    answersOf firstKey (served inPieces) = answersOf firstKey (served oneByOne) ∧
      (answersOf firstKey (served oneByOne)).map (fun event => event.response.body) =
        [[], bytes "abc"] := by
  have run := run_exec (serverConfig 4000) oneByOne headAndGet.1.1 headAndGet.2.1
  have run' := run_exec (serverConfig 4000) inPieces headAndGet.1.1 headAndGet.2.1
  have checked : Throughout.check (framedTurn asciiPlatform maxBodyCaptureBytes)
      (fun state rest => FramedRegular asciiPlatform state rest) 20
      (.head, (headAndGet.1.1.queue firstKey).items)
      (responseChunks firstKey (served oneByOne)).flatten = true := by decide +kernel
  have regular := Throughout.of_check (fun _ _ => of_decide_eq_true) checked
  have same : responseStream.identity = firstKey.identity := by decide
  refine ⟨(answers_independent_of_chunks same ?_ run run' ?_ ?_ ?_ ?_ ?_ regular ?_).1, ?_⟩
  · exact ⟨by decide +kernel, by decide +kernel⟩
  · intro entry listed
    simp only [oneByOne, exec, List.mem_cons, List.not_mem_nil, or_false] at listed
    rcases listed with rfl | rfl <;> exact framesResponses_chunk (by decide +kernel)
  · intro entry listed
    simp only [inPieces, exec, List.mem_cons, List.not_mem_nil, or_false] at listed
    rcases listed with rfl | rfl | rfl | rfl <;> exact framesResponses_chunk (by decide +kernel)
  · decide +kernel
  · decide +kernel
  · decide +kernel
  · decide +kernel
  · decide +kernel

/-- The flags of HEAD are applied to the response to GET if both responses arrive in one chunk: its
body is lost. -/
theorem body_lost_behind_head :
    Throughout (framedTurn asciiPlatform maxBodyCaptureBytes) (FramedRegular asciiPlatform)
        (.head, (headAndGet.1.1.queue firstKey).items)
        (responseChunks firstKey (served atOnce)).flatten ∧
      (∀ item ∈ (framedDrain asciiPlatform maxBodyCaptureBytes
          (.head, (headAndGet.1.1.queue firstKey).items)
          (responseChunks firstKey (served atOnce)).flatten).2.2, item.isInvalid = false) ∧
      (responseChunks firstKey (served oneByOne)).flatten =
        (responseChunks firstKey (served atOnce)).flatten ∧
      (answersOf firstKey (served oneByOne)).map (fun event => event.response.body) =
        [[], bytes "abc"] ∧
      (answersOf firstKey (served atOnce)).map (fun event => event.response.body) = [[], []] := by
  have checked : Throughout.check (framedTurn asciiPlatform maxBodyCaptureBytes)
      (fun state rest => FramedRegular asciiPlatform state rest) 20
      (.head, (headAndGet.1.1.queue firstKey).items)
      (responseChunks firstKey (served atOnce)).flatten = true := by decide +kernel
  refine ⟨Throughout.of_check (fun _ _ => of_decide_eq_true) checked, ?_⟩
  decide +kernel

end StreamState

end ApiSensor
