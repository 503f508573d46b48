import ApiSensor.Library.Pairing
import ApiSensor.Stream.Frame

/-!
# Attribution of HTTP/1 responses

The queue of a connection pairs each final response with the oldest request that `push` accepted.
The log of a run tells which requests were decoded, accepted or not, and which final responses; if
the server answers in order, the right request of a response is the one at its position.
-/

namespace ApiSensor

open Library Library.Prog

variable {P : Platform} {C : Config}

/-! ## The history of a connection -/

/-- The exchange that an entry of the log records. -/
def Note.exchange : Note → Option (Exchange ParsedRequest HttpResponseParsed)
  | .accepted req => some (.sent req true)
  | .refused req => some (.sent req false)
  | .answered resp => some (.answered resp)
  | _ => none

def exchanges (log : List Note) : List (Exchange ParsedRequest HttpResponseParsed) :=
  log.filterMap Note.exchange

@[simp]
theorem exchanges_nil : exchanges [] = [] := rfl

@[simp]
theorem exchanges_append (first second : List Note) :
    exchanges (first ++ second) = exchanges first ++ exchanges second := List.filterMap_append

/-- What an entry adds to the counter of unpaired responses. -/
def Note.unpairedAmount : Note → Nat
  | .count .unpairedResponses amount => amount
  | _ => 0

/-- Unpaired responses counted in a log. -/
def unpaired (log : List Note) : Nat := (log.map Note.unpairedAmount).sum

@[simp]
theorem unpaired_nil : unpaired [] = 0 := rfl

@[simp]
theorem unpaired_append (first second : List Note) :
    unpaired (first ++ second) = unpaired first + unpaired second := by
  simp [unpaired]

/-- The request and response of each event that has both. -/
def paired (events : List TrafficEvent) : List (ParsedRequest × HttpResponseParsed) :=
  (events.filter fun event => event.outcome.isNone).map fun event => (event.request, event.response)

@[simp]
theorem paired_nil : paired [] = [] := rfl

@[simp]
theorem paired_append (first second : List TrafficEvent) :
    paired (first ++ second) = paired first ++ paired second := by
  simp [paired]

/-- A log that says nothing about requests and responses of HTTP/1. -/
def Silent (log : List Note) : Prop := exchanges log = [] ∧ unpaired log = 0

theorem silent_nil : Silent [] := ⟨rfl, rfl⟩

theorem Silent.append {first second : List Note} (left : Silent first) (right : Silent second) :
    Silent (first ++ second) := by
  simp [Silent, left.1, left.2, right.1, right.2]

theorem silent_of_parting {log : List Note} {events : List TrafficEvent}
    (parting : Parting log events) : Silent log ∧ paired events = [] := by
  obtain ⟨entries, incomplete⟩ := parting
  refine ⟨?_, List.map_eq_nil_iff.mpr (List.filter_eq_nil_iff.mpr fun event member => ?_)⟩
  · induction log with
    | nil => exact silent_nil
    | cons entry log induction =>
      obtain ⟨head, tail⟩ := List.forall_mem_cons.mp entries
      have single : Silent [entry] := by
        rcases head with quiet | ⟨reqs, rfl⟩
        · cases entry with
          | count metric amount => cases metric <;> simp_all [Note.quiet] <;> exact ⟨rfl, rfl⟩
          | _ => simp [Note.quiet] at quiet
        · exact ⟨rfl, rfl⟩
      exact single.append (induction tail)
  · simp [Option.isNone_eq_false_iff.mpr (incomplete event member)]

/-! ## What one call does to the queue -/

/-- From one state to another the queue of a connection has worked off the exchanges of the log,
and the events are the pairs it formed. -/
def Pairs (key : ConnKey) (st : StreamState P) (log : List Note) (after : StreamState P)
    (events : List TrafficEvent) : Prop :=
  (∀ req ∈ (st.queue key).items, isUsableHttpRequest req.method req.path = true) →
    (∀ req ∈ (after.queue key).items, isUsableHttpRequest req.method req.path = true) ∧
      (Exchange.fifo (st.queue key).items (exchanges log)).1 = (after.queue key).items ∧
      Exchange.matched (Exchange.fifo (st.queue key).items (exchanges log)).2 = paired events ∧
      Exchange.unmatched (Exchange.fifo (st.queue key).items (exchanges log)).2 = unpaired log

namespace Pairs

variable {key : ConnKey} {st middle after : StreamState P}

theorem of_silent {log : List Note} {events : List TrafficEvent}
    (same : (after.queue key).items = (st.queue key).items) (silent : Silent log)
    (unpairedEvents : paired events = []) : Pairs key st log after events := by
  intro usable
  rw [same, silent.1, silent.2, unpairedEvents]
  exact ⟨usable, rfl, rfl, rfl⟩

theorem refl (key : ConnKey) (st : StreamState P) : Pairs key st [] st [] :=
  of_silent rfl silent_nil rfl

theorem trans {first second : List Note} {events more : List TrafficEvent}
    (left : Pairs key st first middle events) (right : Pairs key middle second after more) :
    Pairs key st (first ++ second) after (events ++ more) := by
  intro usable
  obtain ⟨middleUsable, middleQueue, leftMatched, leftUnmatched⟩ := left usable
  obtain ⟨afterUsable, afterQueue, rightMatched, rightUnmatched⟩ := right middleUsable
  rw [exchanges_append, Exchange.fifo_append, middleQueue]
  refine ⟨afterUsable, afterQueue, ?_, ?_⟩
  · rw [Exchange.matched_append, leftMatched, rightMatched, paired_append]
  · rw [Exchange.unmatched_append, leftUnmatched, rightUnmatched, unpaired_append]

end Pairs

namespace StreamState

variable {call : Call}

theorem pairs_pushRequest (key : ConnKey) (req : ParsedRequest) (st : StreamState P)
    (usable : isUsableHttpRequest req.method req.path = true) :
    Sat (st.pushRequest C key req) fun log after => Pairs key st log after [] := by
  unfold pushRequest
  refine ((st.queue key).sat_push req C.maxTotalBufferBytes).bind fun log result pushed => ?_
  refine sat_pure.mpr fun queued => ?_
  rw [queue_insert, List.append_nil]
  rcases pushed with ⟨rfl, same⟩ | ⟨rfl, appended⟩
  · rw [same]
    exact ⟨queued, rfl, rfl, rfl⟩
  · rw [appended]
    refine ⟨fun other member => ?_, rfl, rfl, rfl⟩
    rcases List.mem_append.mp member with old | new
    · exact queued other old
    · rw [List.mem_singleton.mp new]
      exact usable

theorem pairs_http1Request (req : HttpRequestParsed) (st : StreamState P) :
    Sat (st.http1Request C call req) fun log result => Pairs call.key st log result.1 result.2 := by
  unfold http1Request
  split
  · rename_i accepted
    have usable : isUsableHttpRequest req.method req.path = true := by
      simp only [Bool.and_eq_true] at accepted
      exact accepted.2
    refine (st.pairs_pushRequest call.key _ usable).bind fun log after pairs => ?_
    refine sat_pure.mpr ?_
    rw [List.append_nil]
    exact pairs
  · exact sat_pure.mpr (.refl call.key st)

theorem queue_noteUpgrade (call : Call) (resp : HttpResponseParsed) (st : StreamState P) (key : ConnKey) :
    (st.noteUpgrade call resp).queue key = st.queue key := by
  unfold noteUpgrade
  split <;> rfl

theorem pairs_http1Response (payload : Bytes) (resp : HttpResponseParsed) (st : StreamState P) :
    Sat (st.http1Response C call payload resp)
      fun log result => Pairs call.key st log result.1 result.2 := by
  unfold http1Response
  split
  · exact sat_pure.mpr (.refl call.key st)
  · by_cases usable : ∀ req ∈ (st.queue call.key).items,
        isUsableHttpRequest req.method req.path = true
    · have upgraded := st.queue_noteUpgrade call resp call.key
      refine sat_note_bind.mpr ?_
      refine (sat_popRequest call.key (st.noteUpgrade call resp) (by rwa [upgraded])).bind ?_
      rintro log ⟨request, after⟩ ⟨rfl, front, tail⟩
      rw [upgraded] at front tail
      dsimp only at front tail
      have tailUsable : ∀ req ∈ (after.queue call.key).items,
          isUsableHttpRequest req.method req.path = true := by
        rw [tail]
        exact fun req member => usable req (List.mem_of_mem_tail member)
      have step : Exchange.fifo (st.queue call.key).items [.answered resp] =
          ((after.queue call.key).items, [(request, resp)]) := by
        rw [Exchange.fifo, Exchange.fifo, front, tail]
      cases request with
      | none =>
        -- the response finds no request and is counted
        refine sat_count_bind.mpr (sat_pure.mpr fun _ => ⟨tailUsable, ?_⟩)
        exact ⟨congrArg Prod.fst step, congrArg (Exchange.matched ∘ Prod.snd) step,
          congrArg (Exchange.unmatched ∘ Prod.snd) step⟩
      | some request =>
        refine sat_pure.mpr fun _ => ⟨tailUsable, ?_⟩
        exact ⟨congrArg Prod.fst step, congrArg (Exchange.matched ∘ Prod.snd) step,
          congrArg (Exchange.unmatched ∘ Prod.snd) step⟩
    · exact fun _ _ _ given => absurd given usable

variable {st : StreamState P}

theorem pairs_move {written : List Table} {after : StreamState P} {log : List Note}
    {events : List TrafficEvent} (move : Move C call written st log after events)
    (notHttp2 : .http2State ∉ written) (notHttp3 : .http3Connections ∉ written) :
    Pairs call.key st log after events := by
  cases move with
  | count metric amount other =>
    refine .of_silent rfl ⟨rfl, ?_⟩ rfl
    cases metric <;> first | exact absurd rfl other | rfl
  | fed => exact .of_silent rfl ⟨rfl, rfl⟩ rfl
  | chunkRefused => exact .of_silent rfl ⟨rfl, rfl⟩ rfl
  | update update aside =>
    refine .of_silent ?_ silent_nil rfl
    rw [queue, queue, (update.requests aside).1]
  | message payload msg ran =>
    cases msg with
    | request req => exact pairs_http1Request req st _ _ ran
    | response resp => exact pairs_http1Response payload resp st _ _ ran
  | http3 => exact absurd (by decide) notHttp3
  | http2 => exact absurd (by decide) notHttp2

/-! ## Calls on a plain HTTP/1 connection -/

/-- The connection is known neither as HTTP/2 nor as HTTP/3, and the payload does not make it one,
alone or behind what is held of a possible preface. -/
structure PlainHttp1 (key : ConnKey) (payload : Bytes) (st : StreamState P) : Prop where
  notHttp2 : st.http2State.get? key = none
  notHttp3 : key ∉ st.http3Connections
  plain : ∀ held ∈ [] :: (st.h2Prefix.get? key).toList,
    http2Preface.isPrefixOf (held ++ payload) = false ∧ looksLikeHttp3 (held ++ payload) = false

theorem PlainHttp1.joinPrefix {payload : Bytes} (plain : st.PlainHttp1 call.key payload) :
    http2Preface.isPrefixOf (st.joinPrefix call payload) = false ∧
      looksLikeHttp3 (st.joinPrefix call payload) = false := by
  have alone := plain.plain [] List.mem_cons_self
  unfold StreamState.joinPrefix
  split
  · cases found : st.h2Prefix.get? call.key with
    | none => exact alone
    | some held => exact plain.plain held (by simp [found])
  · exact alone

/-- Whatever route a plain payload takes, the queue is worked off. -/
theorem pairs_dispatch (payload : Bytes) (st : StreamState P)
    (notHttp2 : st.http2State.get? call.key = none) (notHttp3 : call.key ∉ st.http3Connections)
    (noPreface : http2Preface.isPrefixOf payload = false)
    (noHttp3 : looksLikeHttp3 payload = false) :
    Sat (st.dispatch C call payload)
      fun log result => Pairs call.key st log result.1 result.2 := by
  have unknown : st.http2State.contains call.key = false := by simp [Dict.contains, notHttp2]
  have guard := st.guard_route call payload
  have tables : .http2State ∉ (st.route call payload).tables ∧
      .http3Connections ∉ (st.route call payload).tables := by
    cases taken : st.route call payload <;> first | decide | skip
    all_goals rw [taken] at guard
    · simp [Guard, noPreface] at guard
    · simp [Guard, unknown] at guard
    · simp [Guard, notHttp3, noHttp3] at guard
  exact (moves_dispatch payload st).mono fun _ _ moves =>
    moves.effect (Pairs.refl call.key) (fun left right => left.trans right) fun move may =>
      pairs_move move (fun member => tables.1 (may member)) fun member => tables.2 (may member)

theorem pairs_deliver (call : Call) (payload : Bytes) (st : StreamState P)
    (plain : st.PlainHttp1 call.key payload) :
    Sat (st.deliver C call payload)
      fun log result => Pairs call.key st log result.1 result.2 := by
  obtain ⟨noPreface, noHttp3⟩ := plain.joinPrefix
  -- before the dispatch only buffers and prefixes change
  have dispatched : ∀ before : StreamState P, before.http2State = st.http2State →
      before.http3Connections = st.http3Connections → before.queue call.key = st.queue call.key →
      Sat (before.dispatch C call (st.joinPrefix call payload))
        fun log result => Pairs call.key st log result.1 result.2 := by
    intro before http2 http3 same
    refine (pairs_dispatch _ _ ?_ ?_ noPreface noHttp3).mono fun log result pairs usable => ?_
    · simpa only [http2] using plain.notHttp2
    · simpa only [http3] using plain.notHttp3
    · rw [← same] at usable ⊢
      exact pairs usable
  have counted : Pairs call.key st [.count .captureGaps 1] st [] := .of_silent rfl ⟨rfl, rfl⟩ rfl
  refine sat_deliver (fun _ _ _ => dispatched _ rfl rfl rfl) (fun _ conn found => ?_)
    fun _ _ held _ => (dispatched { st.cutOff call with h2Prefix := held } rfl rfl rfl).mono
      fun _ _ pairs => counted.trans pairs
  exact absurd (found.symm.trans plain.notHttp2) (Option.some_ne_none _)

theorem pairs_receive {env : Env} {ev : TlsEventHeader} {key : ConnKey} {payload : Bytes}
    (plain : st.PlainHttp1 key payload) :
    Sat (st.receive C env ev payload key)
      fun log result => Pairs key st log result.1 result.2 :=
  sat_receive (fun _ => pairs_deliver ⟨env, ev, key, _⟩ payload _
    ⟨plain.notHttp2, plain.notHttp3, plain.plain⟩) (.of_silent rfl ⟨rfl, rfl⟩ rfl)

/-! ## Eviction -/

/-- An eviction pass at this time expires no request of the connection. -/
def Spares (st : StreamState P) (nowMs : Nat) (key : ConnKey) : Prop :=
  10000 ≤ nowMs - st.lastEvictionMs →
    ∀ req ∈ (st.queue key).items, req.expired nowMs streamTtlMs = false

theorem items_queue_swept {nowMs : Nat} {key : ConnKey} (spares : st.Spares nowMs key) :
    ((st.swept nowMs).queue key).items = (st.queue key).items := by
  unfold swept
  split
  · rfl
  · rename_i due
    have young := spares (Nat.not_lt.mp due)
    have found : (st.evicted nowMs).pending.get? key = ((st.pending.get? key).map fun queue =>
        (queue.expireTake nowMs streamTtlMs).2).filter fun queue => !queue.isEmpty := by
      simp [evicted, forgetInactive, trim, expire]
    simp only [queue, found] at young ⊢
    cases stored : st.pending.get? key with
    | none => rfl
    | some queue =>
      rw [stored, Option.getD_some] at young
      have kept : (queue.expireTake nowMs streamTtlMs).2.items = queue.items := by
        have front := List.dropWhile_eq_self_iff (p := ParsedRequest.expired nowMs streamTtlMs)
          (l := queue.items)
        refine front.mpr fun nonempty => ?_
        rw [young _ (List.getElem_mem nonempty)]
        exact Bool.false_ne_true
      cases empty : queue.items with
      | nil => simp [PendingQueue.isEmpty, kept, empty, PendingQueue.empty, Option.filter_some]
      | cons req rest => simp [PendingQueue.isEmpty, kept, empty, Option.filter_some]

/-! ## Runs -/

/-- Conditions under which an operation leaves a plain HTTP/1 connection to its own exchanges: the
connection keeps its key and its protocol, no request of it expires, and it is not closed. -/
def ServesHttp1 (C : Config) (key : ConnKey) (st : StreamState P) : Operation → Prop
  | .event env ev payload => inScope C env = true →
      st.Spares env.now key ∧
        (ev.identity = key.identity → st.connKey env ev = key ∧ st.PlainHttp1 key payload)
  | .sweep nowMs => st.Spares nowMs key
  | .close closed => hit closed key.identity = false
  | .drain _ => False

end StreamState

/-- The operation is an event of the connection. -/
def Operation.concerns (identity : ConnIdentity) : Operation → Bool
  | .event _ ev _ => ev.identity = identity
  | _ => false

/-- The stages of a trace that are events of a connection. -/
def connectionStages (key : ConnKey) (trace : List (StreamState P × Stage)) : List Stage :=
  (trace.map Prod.snd).filter fun stage => stage.op.concerns key.identity

def connectionLog (key : ConnKey) (trace : List (StreamState P × Stage)) : List Note :=
  (connectionStages key trace).flatMap Stage.log

def connectionEvents (key : ConnKey) (trace : List (StreamState P × Stage)) : List TrafficEvent :=
  (connectionStages key trace).flatMap Stage.events

namespace StreamState

variable {st : StreamState P} {key : ConnKey}

theorem get?_http2State_swept (absent : st.http2State.get? key = none) (nowMs : Nat) :
    (st.swept nowMs).http2State.get? key = none := by
  unfold swept
  split
  · exact absent
  · simp [evicted, forgetInactive, trim, expire, expiredHttp2, absent]

theorem mem_http3Connections_swept {nowMs : Nat} (member : key ∈ (st.swept nowMs).http3Connections)
    : key ∈ st.http3Connections := by
  unfold swept at member
  split at member
  · exact member
  · exact Finset.mem_of_mem_filter key member

theorem get?_h2Prefix_swept {nowMs : Nat} {held : Bytes}
    (found : (st.swept nowMs).h2Prefix.get? key = some held) :
    st.h2Prefix.get? key = some held := by
  unfold swept at found
  split at found
  · exact found
  · have retained : (st.evicted nowMs).h2Prefix.get? key = (st.h2Prefix.get? key).filter fun _ =>
        key ∈ (st.evicted nowMs).knownConnections := Dict.get?_retain _ _ _
    rw [retained, Option.filter_eq_some_iff] at found
    exact found.1

theorem PlainHttp1.bear {payload : Bytes} (plain : st.PlainHttp1 key payload) (env : Env)
    (ev : TlsEventHeader) :
    (st.bear env ev).PlainHttp1 key payload := by
  unfold StreamState.bear
  split
  · exact plain
  · exact ⟨plain.notHttp2, plain.notHttp3, plain.plain⟩

/-- Eviction does not make a connection anything else. -/
theorem PlainHttp1.admitted {payload : Bytes} (plain : st.PlainHttp1 key payload) (env : Env)
    (ev : TlsEventHeader) :
    (st.admitted env ev).PlainHttp1 key payload := by
  have born := plain.bear env ev
  refine ⟨get?_http2State_swept born.notHttp2 env.now, ?_, ?_⟩
  · exact fun member => born.notHttp3 (mem_http3Connections_swept member)
  · intro held member
    rcases List.mem_cons.mp member with rfl | found
    · exact born.plain [] List.mem_cons_self
    · have kept := get?_h2Prefix_swept (Option.mem_toList.mp found)
      exact born.plain held (List.mem_cons_of_mem _ (Option.mem_toList.mpr kept))

theorem queue_bear (env : Env) (ev : TlsEventHeader) (key : ConnKey) (st : StreamState P) :
    (st.bear env ev).queue key = st.queue key := by
  unfold bear
  split <;> rfl

theorem items_queue_admitted {env : Env} (spares : st.Spares env.now key) (ev : TlsEventHeader) :
    ((st.admitted env ev).queue key).items = (st.queue key).items := by
  have bears : (st.bear env ev).Spares env.now key := by
    unfold Spares
    rw [queue_bear]
    unfold bear
    split <;> exact spares
  have swept := items_queue_swept bears
  rw [queue_bear] at swept
  exact swept

/-- One step either works off the exchanges of the connection or leaves its queue alone. -/
theorem pairs_step {after : StreamState P} {stage : Stage} (step : Step C st stage after)
    (serves : ServesHttp1 C key st stage.op) :
    Pairs key st (if stage.op.concerns key.identity then stage.log else []) after
      (if stage.op.concerns key.identity then stage.events else []) := by
  cases step.stepped with
  | outside _ parting =>
    split
    · exact .of_silent rfl (silent_of_parting parting).1 rfl
    · exact .refl key st
  | event env ev payload inside parting receives =>
    obtain ⟨spares, mine⟩ := serves inside
    have arrives := items_queue_admitted spares ev
    by_cases same : ev.identity = key.identity
    · obtain ⟨key_eq, plain⟩ := mine same
      rw [key_eq] at receives
      obtain ⟨silent, none⟩ := silent_of_parting parting
      have pairs := (Pairs.of_silent arrives silent none).trans
        (pairs_receive (plain.admitted env ev) _ _ receives)
      simpa [Operation.concerns, same] using pairs
    · -- the call works on another connection
      have change := local_receive env ev payload (st.connKey env ev) true (st.admitted env ev) _ _
        receives
      have other : key ≠ st.connKey env ev := fun equal => same (by rw [equal]; rfl)
      have unchanged := change.pending key other
      have quiet : Pairs key st [] after [] := by
        refine .of_silent ?_ silent_nil rfl
        rw [← arrives, queue, queue, unchanged]
      simpa [Operation.concerns, same] using quiet
  | sweep => exact .of_silent (items_queue_swept serves) silent_nil rfl
  | close closed =>
    have kept : (st.closed closed).pending.get? key = st.pending.get? key := by
      have missed : hit closed key.identity = false := serves
      have retained : (st.closed closed).pending.get? key =
          (st.pending.get? key).filter fun _ => !hit closed key.identity :=
        Dict.get?_retain _ _ _
      rw [retained, missed]
      cases st.pending.get? key <;> rfl
    exact .of_silent (by rw [queue, queue, kept]) silent_nil rfl
  | drain => exact absurd serves id

theorem pairs_run {final : StreamState P} {trace : List (StreamState P × Stage)}
    (run : Run C st trace final) (serves : ∀ entry ∈ trace, ServesHttp1 C key entry.1 entry.2.op) :
    Pairs key st (connectionLog key trace) final (connectionEvents key trace) := by
  induction run with
  | nil state => exact .refl key state
  | @cons state next final stage trace step rest induction =>
    have first := pairs_step step (serves _ List.mem_cons_self)
    have later := induction fun entry member => serves entry (List.mem_cons_of_mem _ member)
    have both := first.trans later
    by_cases mine : stage.op.concerns key.identity = true
    · simpa [connectionLog, connectionEvents, connectionStages, mine] using both
    · simpa [connectionLog, connectionEvents, connectionStages, mine] using both

instance (key : ConnKey) (payload : Bytes) (st : StreamState P) :
    Decidable (st.PlainHttp1 key payload) :=
  decidable_of_iff ((st.http2State.get? key).isNone = true ∧ key ∉ st.http3Connections ∧ _)
    ⟨fun ⟨http2, http3, plain⟩ => ⟨Option.isNone_iff_eq_none.mp http2, http3, plain⟩,
      fun plain => ⟨Option.isNone_iff_eq_none.mpr plain.notHttp2, plain.notHttp3, plain.plain⟩⟩

instance (st : StreamState P) (nowMs : Nat) (key : ConnKey) : Decidable (st.Spares nowMs key) :=
  inferInstanceAs (Decidable (_ → _))

instance (key : ConnKey) (st : StreamState P) :
    (op : Operation) → Decidable (ServesHttp1 C key st op)
  | .event env ev payload => inferInstanceAs (Decidable (inScope C env = true →
      st.Spares env.now key ∧
        (ev.identity = key.identity → st.connKey env ev = key ∧ st.PlainHttp1 key payload)))
  | .sweep nowMs => inferInstanceAs (Decidable (st.Spares nowMs key))
  | .close closed => inferInstanceAs (Decidable (hit closed key.identity = false))
  | .drain _ => inferInstanceAs (Decidable False)

/-- A request chunk with a path of the given length. -/
def longRequest (now length : Nat) : Operation :=
  .event (atTime now) (onConnection 0x1000 0)
    (bytes "GET /" ++ List.replicate length 0x78 ++ bytes " HTTP/1.1\r\n\r\n")

/-- An answer without body. -/
def emptyAnswer (now : Nat) (status : String) : Operation :=
  chunk now 1 ("HTTP/1.1 " ++ status ++ " -\r\nContent-Length: 0\r\n\r\n")

/-- Two pipelined requests of which the ceiling refuses the second, and their answers. -/
def lastRefusedOps : List Operation :=
  [chunk 100 0 "GET /a HTTP/1.1\r\n\r\n", longRequest 101 100, emptyAnswer 102 "201",
    emptyAnswer 103 "202"]

/-- Three pipelined requests of which the ceiling refuses the second, and their answers. -/
def middleRefusedOps : List Operation :=
  [chunk 100 0 "GET /a HTTP/1.1\r\n\r\n", longRequest 101 100,
    chunk 102 0 "GET /c HTTP/1.1\r\n\r\n", emptyAnswer 103 "201", emptyAnswer 104 "202",
    emptyAnswer 105 "203"]

end StreamState

end ApiSensor
