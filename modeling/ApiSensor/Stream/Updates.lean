import ApiSensor.Stream.Http2Ledger
import ApiSensor.Stream.Rules

/-!
# Single updates of a call

From the role check on, a call of `handle_event` changes the state by single updates, each of one
entry under the key of its connection or direction.  Which tables they are in depends on the route
of the payload.  Whatever carries a time is stamped with the time of the call.
-/

namespace ApiSensor

open Library Library.Prog

variable {P : Platform}

/-- The tables of the state that a call writes to. -/
inductive Table
  | buffers | h1Decoders | gappedStreams | wsRemaining | pending | http2State | h2EarlyResp
  | h2Prefix | http3Connections | wsConnections
  deriving DecidableEq

/-- The table has not changed. -/
def Table.Same (st after : StreamState P) : Table → Prop
  | .buffers => after.buffers = st.buffers
  | .h1Decoders => after.h1Decoders = st.h1Decoders
  | .gappedStreams => after.gappedStreams = st.gappedStreams
  | .wsRemaining => after.wsRemaining = st.wsRemaining
  | .pending => after.pending = st.pending
  | .http2State => after.http2State = st.http2State
  | .h2EarlyResp => after.h2EarlyResp = st.h2EarlyResp
  | .h2Prefix => after.h2Prefix = st.h2Prefix
  | .http3Connections => after.http3Connections = st.http3Connections
  | .wsConnections => after.wsConnections = st.wsConnections

theorem Table.Same.refl (table : Table) (st : StreamState P) : table.Same st st := by
  cases table <;> rfl

theorem Table.Same.trans {table : Table} {st middle after : StreamState P}
    (first : table.Same st middle) (second : table.Same middle after) : table.Same st after := by
  cases table <;> exact Eq.trans second first

/-- One update that a call makes, with its table. -/
inductive Update (call : Call) : Table → StreamState P → StreamState P → Prop
  | buffer {st : StreamState P} (buf : Bytes) :
      Update call .buffers st { st with
        buffers := st.buffers.insert call.streamKey (buf, call.env.now) }
  | dropBuffer {st : StreamState P} :
      Update call .buffers st { st with buffers := st.buffers.erase call.streamKey }
  | decoder {st : StreamState P} (decoder : Http1Decoder) :
      Update call .h1Decoders st { st with
        h1Decoders := st.h1Decoders.insert call.streamKey decoder }
  | dropDecoder {st : StreamState P} :
      Update call .h1Decoders st { st with h1Decoders := st.h1Decoders.erase call.streamKey }
  | gap {st : StreamState P} :
      Update call .gappedStreams st { st with
        gappedStreams := insert call.streamKey st.gappedStreams }
  | resume {st : StreamState P} : Update call .gappedStreams st (st.resume call)
  | remaining {st : StreamState P} (left : Nat) :
      Update call .wsRemaining st { st with
        wsRemaining := st.wsRemaining.insert call.streamKey left }
  | dropRemaining {st : StreamState P} :
      Update call .wsRemaining st { st with wsRemaining := st.wsRemaining.erase call.streamKey }
  /-- Requests are taken off the queue, or one that is stamped now is added. -/
  | queue {st : StreamState P} (queue : PendingQueue P)
      (dated : ∀ req ∈ queue.items, req ∈ (st.queue call.key).items ∨ req.tsMs = call.env.now) :
      Update call .pending st { st with pending := st.pending.insert call.key queue }
  | http2 {st : StreamState P} (conn : Http2Conn P) (dated : conn.lastEventTs = call.env.now) :
      Update call .http2State st { st with http2State := st.http2State.insert call.key conn }
  | dropHttp2 {st : StreamState P} :
      Update call .http2State st { st with http2State := st.http2State.erase call.key }
  | early {st : StreamState P} (early : EarlyResp) :
      Update call .h2EarlyResp st (st.keepEarly call early)
  | dropEarly {st : StreamState P} :
      Update call .h2EarlyResp st { st with h2EarlyResp := st.h2EarlyResp.erase call.key }
  | holdPrefix {st : StreamState P} (held : Bytes) :
      Update call .h2Prefix st { st with h2Prefix := st.h2Prefix.insert call.key held }
  | dropPrefix {st : StreamState P} :
      Update call .h2Prefix st { st with h2Prefix := st.h2Prefix.erase call.key }
  | http3 {st : StreamState P} :
      Update call .http3Connections st { st with
        http3Connections := insert call.key st.http3Connections }
  | upgrade {st : StreamState P} :
      Update call .wsConnections st { st with wsConnections := insert call.key st.wsConnections }

/-- Requests wait in two tables. -/
theorem Update.requests {call : Call} {table : Table} {st after : StreamState P}
    (update : Update call table st after) (aside : table ∉ [Table.pending, .http2State]) :
    after.pending = st.pending ∧ after.http2State = st.http2State := by
  cases update <;> first | exact ⟨rfl, rfl⟩ | exact absurd (by decide) aside

/-- Any number of updates in the given tables. -/
abbrev Updates (tables : List Table) (call : Call) : StreamState P → StreamState P → Prop :=
  Relation.ReflTransGen fun st after => ∃ table ∈ tables, Update call table st after

namespace Updates

variable {tables : List Table} {call : Call} {st middle after : StreamState P} {α β : Type}
  {program : Act α}

theorem one {table : Table} (update : Update call table st after)
    (may : table ∈ tables) : Updates tables call st after :=
  .single ⟨table, may, update⟩

theorem mono {more : List Table} (changes : Updates tables call st after)
    (fewer : ∀ table ∈ tables, table ∈ more) : Updates more call st after := by
  induction changes with
  | refl => exact .refl
  | tail _ update before =>
    obtain ⟨table, member, update⟩ := update
    exact before.tail ⟨table, fewer table member, update⟩

theorem bind {rest : α → Act β} {state : α → StreamState P} {result : β → StreamState P}
    (first : Sat program fun _ value => Updates tables call st (state value))
    (second : ∀ value, Sat (rest value) fun _ final =>
      Updates tables call (state value) (result final)) :
    Sat (program >>= rest) fun _ final => Updates tables call st (result final) :=
  first.bind fun _ value changes => (second value).mono fun _ _ more => changes.trans more

/-- Updates before a program. -/
theorem sat {state : α → StreamState P} (changes : Updates tables call st middle)
    (rest : Sat program fun _ value => Updates tables call middle (state value)) :
    Sat program fun _ value => Updates tables call st (state value) :=
  rest.mono fun _ _ more => changes.trans more

/-- What every update keeps is kept. -/
theorem invariant (changes : Updates tables call st after) (inv : StreamState P → Prop)
    (kept : ∀ {table : Table} {before next : StreamState P}, Update call table before next →
      inv before → inv next)
    (initial : inv st) : inv after := by
  induction changes with
  | refl => exact initial
  | tail _ update before => exact kept update.choose_spec.2 before

/-- Other tables stay as they are. -/
theorem same (changes : Updates tables call st after) (table : Table)
    (other : table ∉ tables) : table.Same st after := by
  induction changes with
  | refl => exact .refl table st
  | tail _ update before =>
    obtain ⟨written, member, update⟩ := update
    have distinct : table ≠ written := fun same => other (same ▸ member)
    refine before.trans ?_
    cases update <;> cases table <;> first | rfl | exact absurd rfl distinct

theorem cutOff : Updates [.buffers, .h1Decoders, .gappedStreams] call st (st.cutOff call) :=
  (one .dropBuffer (by decide)).trans
    ((one .dropDecoder (by decide)).trans (one .gap (by decide)))

theorem markGap : Updates [.buffers, .h1Decoders, .gappedStreams] call st
    (st.markGap call.streamKey call.env.now) :=
  (one (.buffer []) (by decide)).trans
    ((one .dropDecoder (by decide)).trans (one .gap (by decide)))

theorem decoded (payload : Bytes) :
    Updates [.buffers, .h1Decoders] call st (st.decoded call payload) :=
  (one (.buffer _) (by decide)).trans (one (.decoder _) (by decide))

theorem takePrefix : Updates [.h2Prefix] call st (st.takePrefix call) := by
  unfold StreamState.takePrefix
  split
  · exact one .dropPrefix (by decide)
  · exact .refl

theorem noteUpgrade (resp : HttpResponseParsed) :
    Updates [.wsConnections] call st (st.noteUpgrade call resp) := by
  unfold StreamState.noteUpgrade
  split
  · exact one .upgrade (by decide)
  · exact .refl

end Updates

/-! ## Queues -/

/-- `push` appends the request it accepts; either way the log tells. -/
theorem PendingQueue.sat_push (queue : PendingQueue P) (req : ParsedRequest) (maxTotal : Nat) :
    Sat (queue.push req maxTotal) fun log result =>
      (log = [.count .eventsDropped 1, .refused req.capped] ∧ result.2 = queue) ∨
        (log = [.accepted req.capped] ∧ result.2.items = queue.items ++ [req.capped]) := by
  unfold push refuse
  dsimp only
  split
  · exact sat_count_bind.mpr (sat_note_bind.mpr (sat_pure.mpr (.inl ⟨rfl, rfl⟩)))
  · refine sat_reserveMemory_bind.mpr fun granted => ?_
    cases granted with
    | true => exact sat_note_bind.mpr (sat_pure.mpr (.inr ⟨rfl, rfl⟩))
    | false => exact sat_count_bind.mpr (sat_note_bind.mpr (sat_pure.mpr (.inl ⟨rfl, rfl⟩)))

/-- On a queue of usable requests `pop_usable` takes the front. -/
theorem PendingQueue.sat_popUsable (queue : PendingQueue P)
    (usable : ∀ req ∈ queue.items, isUsableHttpRequest req.method req.path = true) :
    Sat queue.popUsable fun log result =>
      log = [] ∧ result.1 = queue.items.head? ∧ result.2.items = queue.items.tail := by
  obtain ⟨items, bytes, accounted⟩ := queue
  cases items with
  | nil => exact sat_pure.mpr ⟨rfl, rfl, rfl⟩
  | cons req rest =>
    have first := usable req List.mem_cons_self
    unfold popUsable popUsableFrom
    refine sat_releaseMemory_bind.mpr ?_
    rw [if_pos first]
    exact sat_pure.mpr ⟨rfl, rfl, rfl⟩

namespace StreamState

theorem queue_insert (key : ConnKey) (queue : PendingQueue P) (st : StreamState P) :
    ({ st with pending := st.pending.insert key queue } : StreamState P).queue key = queue := by
  simp [StreamState.queue]

theorem sat_popRequest (key : ConnKey) (st : StreamState P)
    (usable : ∀ req ∈ (st.queue key).items, isUsableHttpRequest req.method req.path = true) :
    Sat (st.popRequest key) fun log result =>
      log = [] ∧ result.1 = (st.queue key).items.head? ∧
        (result.2.queue key).items = (st.queue key).items.tail := by
  unfold popRequest
  refine ((st.queue key).sat_popUsable usable).bind fun log popped front => ?_
  refine sat_pure.mpr ?_
  rw [queue_insert, List.append_nil]
  exact front

end StreamState

/-- A chunk stamps its connection. -/
theorem Http2Conn.lastEventTs_process {C : Config} {call : Call} {conn : Http2Conn P}
    (payload : Bytes) :
    Sat (conn.process C call payload) fun _ result => result.1.lastEventTs = call.env.now := by
  refine (conn.sat_process payload).mono fun _ result processed => ?_
  rcases processed with ⟨-, rfl⟩ | ⟨_, -, settles⟩
  · rfl
  · exact settles.kept.2

/-! ## Requests and responses -/

theorem PendingQueue.mem_popUsableFrom (items : List ParsedRequest) (bytes : Nat)
    (accounted : bytes = requestBytes P items) :
    Sat (popUsableFrom items bytes accounted) fun _ result => ∀ req ∈ result.2.items,
      req ∈ items := by
  induction items generalizing bytes with
  | nil => exact sat_pure.mpr fun _ member => member
  | cons first rest induction =>
    unfold popUsableFrom
    refine sat_releaseMemory_bind.mpr (sat_ite.mpr ⟨fun _ => ?_, fun _ => ?_⟩)
    · exact sat_pure.mpr fun _ member => List.mem_cons_of_mem _ member
    · exact (induction _ _).mono fun _ _ kept req member =>
        List.mem_cons_of_mem _ (kept req member)

namespace StreamState

variable {C : Config} {call : Call}

theorem updates_pushRequest (req : ParsedRequest) (dated : req.tsMs = call.env.now)
    (st : StreamState P) :
    Sat (st.pushRequest C call.key req) fun _ after => Updates [.pending] call st after := by
  unfold pushRequest
  refine ((st.queue call.key).sat_push req _).bind fun _ pushed cases => ?_
  refine sat_pure.mpr (Updates.one (.queue _ fun other member => ?_) (by decide))
  obtain ⟨-, same⟩ | ⟨-, added⟩ := cases
  · rw [same] at member
    exact .inl member
  · rw [added, List.mem_append, List.mem_singleton] at member
    exact member.imp_right fun new => by rw [new]; exact dated

theorem updates_popRequest (st : StreamState P) :
    Sat (st.popRequest call.key) fun _ result => Updates [.pending] call st result.2 := by
  unfold popRequest
  refine (PendingQueue.mem_popUsableFrom _ _ _).bind fun _ popped kept => ?_
  exact sat_pure.mpr (Updates.one (.queue _ fun req member => .inl (kept req member)) (by decide))

theorem updates_http3Headers (headers : Headers) (st : StreamState P) :
    Sat (st.http3Headers C call headers)
      fun _ result => Updates [.pending] call st result.1 := by
  unfold http3Headers
  split
  · split
    · exact sat_pure.mpr .refl
    · dsimp only
      split
      · exact sat_pure.mpr .refl
      · exact Updates.bind (updates_pushRequest _ rfl st) fun _ => sat_pure.mpr .refl
  · split
    · exact sat_pure.mpr .refl
    · refine Updates.bind (updates_popRequest st) fun popped => ?_
      obtain ⟨request, after⟩ := popped
      cases request with
      | none => exact sat_count_bind.mpr (sat_pure.mpr .refl)
      | some request => exact sat_pure.mpr .refl

theorem updates_http1Message (payload : Bytes) (msg : HttpMessage) (st : StreamState P) :
    Sat (st.http1Message C call payload msg) fun _ result =>
      Updates [.pending, .wsConnections] call st result.1 := by
  cases msg with
  | request req =>
    refine sat_ite.mpr ⟨fun _ => ?_, fun _ => sat_pure.mpr .refl⟩
    refine (updates_pushRequest _ rfl st).bind fun _ _ changes => sat_pure.mpr ?_
    exact changes.mono (by decide)
  | response resp =>
    refine sat_ite.mpr ⟨fun _ => sat_pure.mpr .refl, fun _ => ?_⟩
    refine sat_note_bind.mpr (Updates.sat ((Updates.noteUpgrade resp).mono (by decide)) ?_)
    refine (updates_popRequest _).bind fun _ popped changes => ?_
    obtain ⟨request, after⟩ := popped
    cases request with
    | none => exact sat_count_bind.mpr (sat_pure.mpr (changes.mono (by decide)))
    | some request => exact sat_pure.mpr (changes.mono (by decide))

end StreamState

/-! ## Parts of a call -/

/-- How a part of a call changes the state, with the entries it logs and the events it emits. -/
abbrev Effect (P : Platform) :=
  StreamState P → List Note → StreamState P → List TrafficEvent → Prop

/-- A part of a call, with the tables it writes to: a counter, a chunk handed to HTTP/1, an update
that concerns no request, or one round of a loop over requests and responses. -/
inductive Move (C : Config) (call : Call) : List Table → Effect P
  | count {st : StreamState P} (metric : Metric) (amount : Nat)
      (other : metric ≠ .unpairedResponses) : Move C call [] st [.count metric amount] st []
  | fed {st : StreamState P} (buf : Bytes) :
      Move C call [.buffers] st [.fed call.streamKey buf] st []
  | chunkRefused {st : StreamState P} :
      Move C call [.buffers] st [.chunkRefused call.streamKey] st []
  | update {st after : StreamState P} {table : Table} (update : Update call table st after)
      (aside : table ∉ [Table.pending, .http2State]) : Move C call [table] st [] after []
  | message {st after : StreamState P} {log : List Note} {events : List TrafficEvent}
      (payload : Bytes) (msg : HttpMessage)
      (ran : Outcome (st.http1Message C call payload msg) log (after, events)) :
      Move C call [.pending, .wsConnections] st log after events
  | http3 {st after : StreamState P} {log : List Note} {events : List TrafficEvent}
      (headers : Headers) (ran : Outcome (st.http3Headers C call headers) log (after, events)) :
      Move C call [.pending, .http3Connections] st log after events
  -- held frames are replayed on the other direction
  | http2 {st after : StreamState P} {log : List Note} {events : List TrafficEvent}
      (isRequestDir : Bool) (payload : Bytes)
      (ran : Outcome (st.processHttp2Event C { call with isRequestDir } payload) log
        (after, events)) :
      Move C call [.http2State] st log after events

/-- Any number of parts that write to the given tables. -/
inductive Moves (C : Config) (call : Call) (tables : List Table) : Effect P
  | refl (st : StreamState P) : Moves C call tables st [] st []
  | step {st middle after : StreamState P} {log rest : List Note}
      {events more : List TrafficEvent} {written : List Table}
      (move : Move C call written st log middle events) (may : written ⊆ tables)
      (later : Moves C call tables middle rest after more) :
      Moves C call tables st (log ++ rest) after (events ++ more)

namespace Moves

variable {C : Config} {call : Call} {tables : List Table} {st middle after : StreamState P}
  {log rest : List Note} {events more : List TrafficEvent}

theorem one {written : List Table} (move : Move C call written st log after events)
    (may : written ⊆ tables) : Moves C call tables st log after events := by
  have single := step move may (refl after)
  rwa [List.append_nil, List.append_nil] at single

theorem trans (first : Moves C call tables st log middle events)
    (second : Moves C call tables middle rest after more) :
    Moves C call tables st (log ++ rest) after (events ++ more) := by
  induction first with
  | refl => exact second
  | step move may _ later =>
    rw [List.append_assoc, List.append_assoc]
    exact step move may (later second)

theorem mono {wider : List Table} (moves : Moves C call tables st log after events)
    (fewer : tables ⊆ wider) : Moves C call wider st log after events := by
  induction moves with
  | refl st => exact refl st
  | step move may _ later => exact step move (fun _ member => fewer (may member)) later

theorem count (metric : Metric) (amount : Nat)
    (other : metric ≠ .unpairedResponses) :
    Moves C call tables st [.count metric amount] st [] :=
  one (.count metric amount other) (List.nil_subset _)

/-- Updates of tables that hold no requests. -/
theorem of_updates (updates : Updates tables call st after)
    (aside : ∀ table ∈ tables, table ∉ [Table.pending, .http2State]) :
    Moves C call tables st [] after [] := by
  induction updates with
  | refl => exact refl st
  | tail _ update before =>
    obtain ⟨table, member, update⟩ := update
    exact before.trans (one (.update update (aside table member)) (by simpa using member))

/-- A relation that composes and holds for every part holds for a call. -/
theorem effect {R : Effect P} (moves : Moves C call tables st log after events)
    (unit : ∀ st, R st [] st [])
    (compose : ∀ {st middle after first second events more}, R st first middle events →
      R middle second after more → R st (first ++ second) after (events ++ more))
    (each : ∀ {written st log after events}, Move C call written st log after events →
      written ⊆ tables → R st log after events) : R st log after events := by
  induction moves with
  | refl st => exact unit st
  | step move may _ later => exact compose (each move may) later

theorem sat {α : Type} {program : Act α} {state : α → StreamState P}
    {shown : α → List TrafficEvent} (first : Moves C call tables st log middle [])
    (second : Sat program fun rest value => Moves C call tables middle rest (state value)
      (shown value)) :
    Sat program fun rest value => Moves C call tables st (log ++ rest) (state value)
      (shown value) :=
  second.mono fun _ _ later => first.trans later

/-- Two programs one after the other, with the events of both. -/
theorem both {program : Act (StreamState P × List TrafficEvent)}
    {next : StreamState P → Act (StreamState P × List TrafficEvent)}
    (first : Sat program fun log result => Moves C call tables st log result.1 result.2)
    (second : ∀ middle, Sat (next middle) fun log result =>
      Moves C call tables middle log result.1 result.2) :
    Sat (do
      let (middle, events) ← program
      let (after, more) ← next middle
      pure (after, events ++ more)) fun log result =>
        Moves C call tables st log result.1 result.2 := by
  refine first.bind fun _ result moves => (second result.1).bind fun _ _ later => sat_pure.mpr ?_
  rw [List.append_nil]
  exact moves.trans later

end Moves

namespace StreamState

variable {C : Config} {call : Call}

/-- A part of a call makes updates in its tables. -/
theorem updates_move {written : List Table} {st after : StreamState P} {log : List Note}
    {events : List TrafficEvent} (move : Move C call written st log after events) :
    Updates written call st after := by
  cases move with
  | count => exact .refl
  | fed => exact .refl
  | chunkRefused => exact .refl
  | update update => exact Updates.one update List.mem_cons_self
  | message payload msg ran => exact updates_http1Message payload msg st _ _ ran
  | http3 headers ran => exact (updates_http3Headers headers st _ _ ran).mono (by decide)
  | http2 isRequestDir payload ran =>
    have changes : Sat (st.processHttp2Event C { call with isRequestDir } payload)
        fun _ result => Updates [.http2State] call st result.1 :=
      (Http2Conn.lastEventTs_process payload).bind fun _ _ dated =>
        sat_pure.mpr (Updates.one (.http2 _ dated) (by decide))
    exact changes _ _ ran

end StreamState

theorem Moves.updates {C : Config} {call : Call} {tables : List Table} {st after : StreamState P}
    {log : List Note} {events : List TrafficEvent}
    (moves : Moves C call tables st log after events) : Updates tables call st after :=
  moves.effect (R := fun st _ after _ => Updates tables call st after) (fun _ => .refl)
    (fun first second => first.trans second)
    fun move may => (StreamState.updates_move move).mono may

namespace StreamState

variable {C : Config} {call : Call}

/-! ## Handlers -/

/-- The tables that a payload is written to on each route. -/
def Route.tables : Route → List Table
  | .holdPrefix => [.h2Prefix]
  | .early => [.h2EarlyResp]
  | .startHttp2 => [.http2State, .h2EarlyResp]
  | .http2 => [.http2State]
  | .empty | .skip => []
  | .http3 => [.pending, .http3Connections]
  | .webSocket => [.wsRemaining]
  | .http1 => [.buffers, .h1Decoders, .gappedStreams, .pending, .wsConnections]

variable (payload : Bytes) (st : StreamState P)

theorem moves_processHttp2Event :
    Sat (st.processHttp2Event C call payload) fun log result =>
      Moves C call [.http2State] st log result.1 result.2 :=
  fun _ _ ran => .one (.http2 call.isRequestDir payload ran) (by decide)

theorem moves_replayEarly (early : EarlyResp) (st : StreamState P) :
    Sat (st.replayEarly C call early) fun log result =>
      Moves C call [.http2State] st log result.1 result.2 := by
  unfold replayEarly
  refine sat_ite.mpr ⟨fun _ => sat_pure.mpr (.refl st), fun _ => ?_⟩
  exact fun _ _ ran => .one (.http2 false early.data ran) (by decide)

theorem moves_startHttp2 :
    Sat (st.startHttp2 C call payload) fun log result =>
      Moves C call Route.startHttp2.tables st log result.1 result.2 := by
  unfold startHttp2
  split
  · exact (moves_processHttp2Event payload st).mono fun _ _ moves => moves.mono (by decide)
  · rename_i early _
    have taken : Moves C call Route.startHttp2.tables st []
        { st with h2EarlyResp := st.h2EarlyResp.erase call.key } [] :=
      .one (.update .dropEarly (by decide)) (by decide)
    refine taken.sat ((moves_replayEarly early _).bind fun _ replayed first => ?_)
    refine sat_releaseMemory_bind.mpr ((moves_processHttp2Event payload _).bind
      fun _ _ second => sat_pure.mpr ?_)
    rw [List.append_nil]
    exact (first.trans second).mono (by decide)

theorem moves_holdEarly :
    Sat (st.holdEarly C call payload) fun log result =>
      Moves C call [.h2EarlyResp] st log result.1 result.2 := by
  have keeps : ∀ early, Moves C call [.h2EarlyResp] st [] (st.keepEarly call early) [] :=
    fun early => .one (.update (.early early) (by decide)) (by decide)
  unfold holdEarly
  refine sat_ite.mpr ⟨fun _ => sat_count_bind.mpr (sat_pure.mpr (.count _ _ (by decide))),
    fun _ => ?_⟩
  refine sat_ite.mpr ⟨fun _ => ?_, fun _ => sat_pure.mpr (keeps _)⟩
  refine sat_reserveMemory_bind.mpr fun granted => ?_
  cases granted <;> exact sat_pure.mpr (keeps _)

theorem moves_http3HeaderSets (sets : List Headers) (st : StreamState P) :
    Sat (http3HeaderSets C call sets st) fun log result =>
      Moves C call Route.http3.tables st log result.1 result.2 := by
  induction sets generalizing st with
  | nil => exact sat_pure.mpr (.refl st)
  | cons headers sets induction =>
    exact Moves.both (fun _ _ ran => .one (.http3 headers ran) (by decide)) induction

theorem moves_wsFrames (C : Config) (fuel : Nat) (rest : Bytes) (st : StreamState P) :
    Sat (wsFrames fuel rest) fun log _ => Moves C call [.wsRemaining] st log st [] := by
  induction fuel generalizing rest with
  | zero => exact sat_pure.mpr (.refl st)
  | succ fuel induction =>
    unfold wsFrames
    refine sat_ite.mpr ⟨fun _ => sat_pure.mpr (.refl st), fun _ => ?_⟩
    split
    · exact sat_pure.mpr (.refl st)
    · refine sat_count_bind.mpr (sat_ite.mpr ⟨fun _ => ?_, fun _ => ?_⟩)
      · exact sat_pure.mpr (.count _ _ (by decide))
      · exact (induction _).mono fun _ _ later => (Moves.count _ _ (by decide)).trans later

theorem moves_handleWebSocket (C : Config) (payload : Bytes) (st : StreamState P) :
    Sat (st.handleWebSocket call payload) fun log result =>
      Moves C call [.wsRemaining] st log result.1 result.2 := by
  have stores : ∀ left, Moves C call [.wsRemaining] st [] { st with
      wsRemaining :=
        if 0 < left && (st.wsRemaining.erase call.streamKey).size < maxStreamEntries then
          (st.wsRemaining.erase call.streamKey).insert call.streamKey left
        else st.wsRemaining.erase call.streamKey } [] := by
    intro left
    split
    · exact .of_updates ((Updates.one .dropRemaining (by decide)).trans
        (Updates.one (.remaining left) (by decide))) (by decide)
    · exact .of_updates (Updates.one .dropRemaining (by decide)) (by decide)
  unfold handleWebSocket
  simp only
  split
  · exact (moves_wsFrames C _ _ st).bind fun _ left moves => sat_pure.mpr (moves.trans (stores left))
  · exact sat_pure.mpr (stores _)

theorem moves_collectItems (C : Config) (items : List Http1Item) (st : StreamState P) :
    Sat (collectItems call items st) fun log result =>
      Moves C call [.buffers, .h1Decoders, .gappedStreams] st log result.1 [] := by
  induction items generalizing st with
  | nil => exact sat_pure.mpr (.refl st)
  | cons item items induction =>
    cases item with
    | message m =>
      have counts : Sat (countTruncated m) fun log _ =>
          Moves C call [.buffers, .h1Decoders, .gappedStreams] st log st [] :=
        sat_ite.mpr ⟨fun _ => sat_count_bind.mpr (sat_pure.mpr (.count _ _ (by decide))),
          fun _ => sat_pure.mpr (.refl st)⟩
      refine counts.bind fun _ _ counted => (induction st).bind fun _ _ later => ?_
      refine sat_pure.mpr ?_
      rw [List.append_nil]
      exact counted.trans later
    | invalid reason =>
      refine sat_count_bind.mpr (sat_releaseMemory_bind.mpr (sat_pure.mpr ?_))
      exact (Moves.count _ _ (by decide)).trans (.of_updates .markGap (by decide))

theorem moves_http1Messages (msgs : List HttpMessage) (st : StreamState P) :
    Sat (http1Messages C call payload msgs st) fun log result =>
      Moves C call [.pending, .wsConnections] st log result.1 result.2 := by
  induction msgs generalizing st with
  | nil => exact sat_pure.mpr (.refl st)
  | cons msg msgs induction =>
    exact Moves.both (fun _ _ ran => .one (.message payload msg ran) (by decide)) induction

theorem moves_consume :
    Sat (st.consume C call payload) fun log result =>
      Moves C call Route.http1.tables st log result.1 result.2 := by
  refine sat_ite.mpr ⟨fun _ => ?_, fun _ => ?_⟩
  · refine sat_releaseMemory_bind.mpr (sat_count_bind.mpr (sat_pure.mpr ?_))
    exact (Moves.count _ _ (by decide)).trans
      ((Moves.of_updates .markGap (by decide)).mono (by decide))
  · refine sat_note_bind.mpr (sat_releaseMemory_bind.mpr ?_)
    have fed : Moves C call Route.http1.tables st [.fed call.streamKey _]
        (st.decoded call payload) [] :=
      (Moves.one (.fed (st.bufferOf call.streamKey ++ payload)) (by decide)).trans
        ((Moves.of_updates (.decoded payload) (by decide)).mono (by decide))
    refine (moves_collectItems C _ _).bind fun _ collected moves => ?_
    exact (fed.trans (moves.mono (by decide))).sat ((moves_http1Messages payload _ _).mono
      fun _ _ later => later.mono (by decide))

theorem moves_handleHttp1 :
    Sat (st.handleHttp1 C call payload) fun log result =>
      Moves C call Route.http1.tables st log result.1 result.2 := by
  have resumed : Moves C call Route.http1.tables st [] (st.resume call) [] :=
    .one (.update .resume (by decide)) (by decide)
  refine sat_reserveMemory_bind.mpr fun granted => resumed.sat ?_
  cases granted with
  | true => exact moves_consume payload _
  | false =>
    refine sat_count_bind.mpr (sat_note_bind.mpr (sat_pure.mpr ?_))
    exact (Moves.count _ _ (by decide)).trans ((Moves.one .chunkRefused (by decide)).trans
      (.one (.update (.buffer _) (by decide)) (by decide)))

/-- A payload is written to the tables of its route. -/
theorem moves_dispatch :
    Sat (st.dispatch C call payload) fun log result =>
      Moves C call (st.route call payload).tables st log result.1 result.2 := by
  unfold dispatch
  cases st.route call payload with
  | holdPrefix => exact sat_pure.mpr (.one (.update (.holdPrefix payload) (by decide)) (by decide))
  | early => exact moves_holdEarly payload st
  | startHttp2 => exact moves_startHttp2 payload st
  | http2 => exact moves_processHttp2Event payload st
  | empty => exact sat_pure.mpr (.refl st)
  | http3 =>
    have marked : Moves C call Route.http3.tables st []
        { st with http3Connections := insert call.key st.http3Connections } [] :=
      .one (.update .http3 (by decide)) (by decide)
    exact marked.sat (moves_http3HeaderSets _ _)
  | webSocket => exact moves_handleWebSocket C payload st
  | skip => exact sat_pure.mpr (.refl st)
  | http1 => exact moves_handleHttp1 payload st

theorem updates_dispatch :
    Sat (st.dispatch C call payload) fun _ result =>
      Updates (st.route call payload).tables call st result.1 :=
  (moves_dispatch payload st).mono fun _ _ moves => moves.updates

/-- Everything from the truncation check on. -/
theorem updates_deliver :
    Sat (st.deliver C call payload) fun _ result => ∃ tables, Updates tables call st result.1 := by
  have dispatched : ∀ {tables : List Table} {before : StreamState P} (payload : Bytes),
      Updates tables call st before → Sat (before.dispatch C call payload) fun _ result =>
        ∃ tables, Updates tables call st result.1 := fun payload changes =>
    (updates_dispatch payload _).mono fun _ _ more =>
      ⟨_, (changes.mono fun _ => List.mem_append_left _).trans
        (more.mono fun _ => List.mem_append_right _)⟩
  have cut : Updates [.buffers, .h1Decoders, .gappedStreams, .h2Prefix] call st
      ((st.cutOff call).takePrefix call) := (Updates.cutOff.mono (by decide)).trans (Updates.takePrefix.mono (by decide))
  exact sat_deliver (fun _ _ same => dispatched _ (same ▸ Updates.takePrefix))
    (fun _ _ _ => ⟨[.http2State], Updates.one .dropHttp2 (by decide)⟩) fun _ _ _ same => dispatched _ (same ▸ cut)

/-- After the role check, which may record a role, come updates of the call. -/
theorem updates_receive (env : Env) (ev : TlsEventHeader) (payload : Bytes) (key : ConnKey)
    (st : StreamState P) :
    Sat (st.receive C env ev payload key) fun _ result => ∃ isRequestDir tables,
      Updates tables ⟨env, ev, key, isRequestDir⟩ (st.freezeRole C key ev payload) result.1 := by
  unfold receive
  cases direction : st.requestDirection C key ev payload with
  | some dir => exact (updates_deliver payload _).mono fun _ _ changes => ⟨_, changes⟩
  | none =>
    -- a role that is not known is not recorded
    have unrecorded : st.freezeRole C key ev payload = st := by
      unfold requestDirection at direction
      unfold freezeRole
      cases role : C.role with
      | server => rw [role] at direction; exact absurd direction (by simp)
      | client => rw [role] at direction; exact absurd direction (by simp)
      | auto =>
        rw [role] at direction
        rw [(Option.or_eq_none_iff.mp direction).2]
        exact ite_self st
    rw [unrecorded]
    refine sat_ite.mpr ⟨fun _ => ?_, fun _ => ?_⟩
    · exact (updates_deliver payload _).mono fun _ _ changes => ⟨_, changes⟩
    · exact sat_count_bind.mpr (sat_pure.mpr ⟨false, [], .refl⟩)

end StreamState

end ApiSensor
