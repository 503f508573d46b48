import ApiSensor.Stream.Ledger

/-!
# Chunks in the log

Which chunks a call hands to the HTTP/1 decoder of its direction or to the HTTP/2 state of its
connection, as far as the log tells.  Handlers of other protocols leave the HTTP/1 parser alone.
-/

namespace ApiSensor

open Library Library.Prog

variable {P : Platform} {C : Config} {call : Call}

/-! ## What a log says about chunks -/

/-- A chunk handed to HTTP/1: the buffer that was fed, or none if the chunk was refused. -/
def Note.handed : Note → Option (StreamKey × Option Bytes)
  | .fed stream buf => some (stream, some buf)
  | .chunkRefused stream => some (stream, none)
  | _ => none

/-- The chunks of a log that were handed to HTTP/1. -/
def handed (log : List Note) : List (StreamKey × Option Bytes) := log.filterMap Note.handed

@[simp]
theorem handed_nil : handed [] = [] := rfl

@[simp]
theorem handed_append (first second : List Note) :
    handed (first ++ second) = handed first ++ handed second :=
  List.filterMap_append

/-- A chunk handed to HTTP/2: how many items it yielded, or none if it was refused. -/
def Note.framed : Note → Option (ConnKey × Bool × Option Nat)
  | .framesParsed key isRequestDir items => some (key, isRequestDir, some items)
  | .framesRefused key isRequestDir => some (key, isRequestDir, none)
  | _ => none

/-- The chunks of a log that were handed to HTTP/2. -/
def framed (log : List Note) : List (ConnKey × Bool × Option Nat) := log.filterMap Note.framed

@[simp]
theorem framed_append (first second : List Note) :
    framed (first ++ second) = framed first ++ framed second :=
  List.filterMap_append

/-- A log that speaks of no chunk. -/
structure Plain (log : List Note) : Prop where
  handed : handed log = []
  framed : framed log = []

namespace Plain

theorem nil : Plain [] := ⟨rfl, rfl⟩

theorem count (metric : Metric) (amount : Nat) : Plain [.count metric amount] := ⟨rfl, rfl⟩

theorem append {first second : List Note} (left : Plain first) (right : Plain second) :
    Plain (first ++ second) :=
  ⟨by rw [handed_append, left.handed, right.handed]; rfl,
    by rw [framed_append, left.framed, right.framed]; rfl⟩

variable {log : List Note}

theorem of_entries (silent : ∀ entry ∈ log, entry.handed = none ∧ entry.framed = none) :
    Plain log :=
  ⟨List.filterMap_eq_nil_iff.mpr fun entry member => (silent entry member).1,
    List.filterMap_eq_nil_iff.mpr fun entry member => (silent entry member).2⟩

theorem of_requests (entries : ∀ entry ∈ log, entry.aboutRequests = true) :
    Plain log := by
  refine of_entries fun entry member => ?_
  have own := entries entry member
  cases entry with
  | fed stream buf => exact absurd own Bool.false_ne_true
  | chunkRefused stream => exact absurd own Bool.false_ne_true
  | framesParsed key isRequestDir items => exact absurd own Bool.false_ne_true
  | framesRefused key isRequestDir => exact absurd own Bool.false_ne_true
  | _ => exact ⟨rfl, rfl⟩

theorem of_parting {events : List TrafficEvent} (parting : Parting log events) :
    Plain log := by
  refine of_entries fun entry member => ?_
  rcases parting.entries entry member with quiet | ⟨reqs, rfl⟩
  · cases entry with
    | count metric amount => exact ⟨rfl, rfl⟩
    | _ => exact absurd quiet Bool.false_ne_true
  · exact ⟨rfl, rfl⟩

end Plain

variable {log : List Note}

variable {stream : StreamKey}

theorem mem_handed_of_fed {buf : Bytes} (fed : .fed stream buf ∈ log) :
    (stream, some buf) ∈ handed log :=
  List.mem_filterMap.mpr ⟨_, fed, rfl⟩

theorem mem_handed_of_refused (refused : .chunkRefused stream ∈ log) :
    (stream, none) ∈ handed log :=
  List.mem_filterMap.mpr ⟨_, refused, rfl⟩

theorem fed_of_mem_handed {buf : Bytes} (member : (stream, some buf) ∈ handed log) :
    .fed stream buf ∈ log := by
  obtain ⟨entry, logged, same⟩ := List.mem_filterMap.mp member
  cases entry with
  | fed other data =>
    cases same
    exact logged
  | chunkRefused other => cases same
  | _ => cases same

/-- Nothing was handed to HTTP/1, and to HTTP/2 at most chunks of the connection; buffers and
decoders are as they were. -/
structure Untouched (call : Call) (st : StreamState P) (log : List Note) (after : StreamState P) :
    Prop where
  handed : handed log = []
  framed : ∀ chunk ∈ framed log, chunk.1 = call.key
  buffers : after.buffers = st.buffers
  h1Decoders : after.h1Decoders = st.h1Decoders

namespace Untouched

variable {middle after : StreamState P}

theorem refl (st : StreamState P) : Untouched call st [] st := ⟨rfl, by simp [ApiSensor.framed], rfl, rfl⟩

theorem trans {st : StreamState P} {first second : List Note}
    (left : Untouched call st first middle)
    (right : Untouched call middle second after) : Untouched call st (first ++ second) after where
  handed := by rw [handed_append, left.handed, right.handed]; rfl
  framed := by
    rw [framed_append]
    exact List.forall_mem_append.mpr ⟨left.framed, right.framed⟩
  buffers := right.buffers.trans left.buffers
  h1Decoders := right.h1Decoders.trans left.h1Decoders

end Untouched

theorem PendingQueue.silent_popUsableFrom (items : List ParsedRequest) (bytes : Nat)
    (accounted : bytes = requestBytes P items) :
    Sat (popUsableFrom items bytes accounted) fun log _ => log = [] := by
  induction items generalizing bytes with
  | nil => exact sat_pure.mpr rfl
  | cons req rest induction =>
    unfold popUsableFrom
    refine sat_releaseMemory_bind.mpr (sat_ite.mpr ⟨fun _ => sat_pure.mpr rfl, fun _ => ?_⟩)
    exact induction _ _

namespace StreamState

theorem chunks_processHttp2Event (payload : Bytes) (st : StreamState P) :
    Sat (st.processHttp2Event C call payload) fun log _ =>
      handed log = [] ∧ ∀ chunk ∈ framed log, chunk.1 = call.key := by
  refine (Http2Conn.sat_process _ payload).bind fun log result processed => sat_pure.mpr ?_
  rw [List.append_nil]
  rcases processed with ⟨rfl | rfl, -⟩ | ⟨rest, rfl, settles⟩
  · exact ⟨rfl, by simp [framed]⟩
  · exact ⟨rfl, by simp [framed, Note.framed]⟩
  · have plain := Plain.of_requests settles.entries
    have only : ∀ items, framed (.framesParsed call.key call.isRequestDir items :: rest) =
        [(call.key, call.isRequestDir, some items)] :=
      fun items => congrArg _ plain.framed
    exact ⟨plain.handed, by simp [only]⟩

theorem plain_pushRequest (key : ConnKey) (req : ParsedRequest) (st : StreamState P) :
    Sat (st.pushRequest C key req) fun log _ => Plain log := by
  refine ((st.queue key).sat_push req C.maxTotalBufferBytes).bind fun log result pushed => ?_
  refine sat_pure.mpr ?_
  rcases pushed with ⟨rfl, -⟩ | ⟨rfl, -⟩ <;> exact ⟨rfl, rfl⟩

theorem silent_popRequest (key : ConnKey) (st : StreamState P) :
    Sat (st.popRequest key) fun log _ => log = [] :=
  (PendingQueue.silent_popUsableFrom _ _ (st.queue key).accounted).bind
    fun log _ silent => sat_pure.mpr (by rw [silent]; rfl)

theorem plain_http3Headers (headers : Headers) (st : StreamState P) :
    Sat (st.http3Headers C call headers) fun log _ => Plain log := by
  unfold http3Headers
  split
  · split
    · exact sat_pure.mpr .nil
    · refine sat_ite.mpr ⟨fun _ => sat_pure.mpr .nil, fun _ => ?_⟩
      exact (plain_pushRequest _ _ st).bind fun _ _ plain => sat_pure.mpr (plain.append .nil)
  · split
    · exact sat_pure.mpr .nil
    · refine (silent_popRequest _ st).bind ?_
      rintro log ⟨request, after⟩ rfl
      cases request with
      | none => exact sat_count_bind.mpr (sat_pure.mpr (.count _ _))
      | some request => exact sat_pure.mpr .nil

theorem plain_http1Message (payload : Bytes) (msg : HttpMessage) (st : StreamState P) :
    Sat (st.http1Message C call payload msg) fun log _ => Plain log := by
  cases msg with
  | request req =>
    refine sat_ite.mpr ⟨fun _ => ?_, fun _ => sat_pure.mpr .nil⟩
    exact (plain_pushRequest _ _ st).bind fun _ _ plain => sat_pure.mpr (plain.append .nil)
  | response resp =>
    refine sat_ite.mpr ⟨fun _ => sat_pure.mpr .nil, fun _ => sat_note_bind.mpr ?_⟩
    refine (silent_popRequest _ _).bind ?_
    rintro log ⟨request, after⟩ rfl
    cases request with
    | none => exact sat_count_bind.mpr (sat_pure.mpr ⟨rfl, rfl⟩)
    | some request => exact sat_pure.mpr ⟨rfl, rfl⟩

theorem plain_collectItems (items : List Http1Item) (st : StreamState P) :
    Sat (collectItems call items st) fun log _ => Plain log := by
  induction items with
  | nil => exact sat_pure.mpr .nil
  | cons item items induction =>
    cases item with
    | message m =>
      have counted : Sat (countTruncated m) fun log _ => Plain log := by
        unfold countTruncated
        split
        · exact sat_count_bind.mpr (sat_pure.mpr (.count _ _))
        · exact sat_pure.mpr .nil
      refine counted.bind fun log _ first => induction.bind fun rest result later => ?_
      refine sat_pure.mpr ?_
      rw [List.append_nil]
      exact first.append later
    | invalid reason =>
      exact sat_count_bind.mpr (sat_releaseMemory_bind.mpr (sat_pure.mpr (.count _ _)))

/-! ## Chunks of the connection -/

variable {st : StreamState P} {log : List Note}

variable {after : StreamState P} {events : List TrafficEvent}

theorem framed_move {written : List Table} (move : Move C call written st log after events) :
    ∀ chunk ∈ framed log, chunk.1 = call.key := by
  cases move with
  | message payload msg ran => simp [(plain_http1Message payload msg st _ _ ran).framed]
  | http3 headers ran => simp [(plain_http3Headers headers st _ _ ran).framed]
  | http2 isRequestDir payload ran => exact (chunks_processHttp2Event payload st _ _ ran).2
  | _ => simp [framed, Note.framed]

/-- HTTP/2 chunks in the log of a call are chunks of its connection. -/
theorem framed_dispatch (payload : Bytes) (st : StreamState P) :
    Sat (st.dispatch C call payload) fun log _ => ∀ chunk ∈ framed log, chunk.1 = call.key :=
  (moves_dispatch payload st).mono fun _ _ moves =>
    moves.effect (R := fun _ log _ _ => ∀ chunk ∈ framed log, chunk.1 = call.key) (by simp [framed])
      (fun left right => by
        rw [framed_append]
        exact List.forall_mem_append.mpr ⟨left, right⟩)
      fun move _ => framed_move move

theorem untouched_move {written : List Table} (move : Move C call written st log after events)
    (buffers : .buffers ∉ written) (h1Decoders : .h1Decoders ∉ written) :
    Untouched call st log after := by
  have changes := updates_move move
  have kept : handed log = [] := by
    cases move with
    | fed => exact absurd List.mem_cons_self buffers
    | chunkRefused => exact absurd List.mem_cons_self buffers
    | message payload msg ran => exact (plain_http1Message payload msg st _ _ ran).handed
    | http3 headers ran => exact (plain_http3Headers headers st _ _ ran).handed
    | http2 isRequestDir payload ran => exact (chunks_processHttp2Event payload st _ _ ran).1
    | _ => rfl
  exact ⟨kept, framed_move move, changes.same .buffers buffers,
    changes.same .h1Decoders h1Decoders⟩

theorem untouched_moves {tables : List Table} (moves : Moves C call tables st log after events)
    (buffers : .buffers ∉ tables) (h1Decoders : .h1Decoders ∉ tables) :
    Untouched call st log after :=
  moves.effect (R := fun st log after _ => Untouched call st log after) Untouched.refl
    (fun left right => left.trans right) fun move may =>
      untouched_move move (fun member => buffers (may member))
        fun member => h1Decoders (may member)

/-- Only HTTP/1 touches its parsers. -/
theorem untouched_dispatch (payload : Bytes) (st : StreamState P)
    (not_http1 : st.route call payload ≠ .http1) :
    Sat (st.dispatch C call payload) fun log result => Untouched call st log result.1 := by
  refine (moves_dispatch payload st).mono fun _ _ moves => ?_
  cases routed : st.route call payload <;> rw [routed] at moves <;>
    first | exact absurd routed not_http1 | exact untouched_moves moves (by decide) (by decide)

theorem framed_receive (env : Env) (ev : TlsEventHeader) (payload : Bytes) (key : ConnKey)
    (st : StreamState P) :
    Sat (st.receive C env ev payload key) fun log _ => ∀ chunk ∈ framed log, chunk.1 = key := by
  refine sat_receive (fun roles => ?_) (by simp [framed, Note.framed])
  exact sat_deliver (fun _ _ _ => framed_dispatch _ _) (by simp [framed, Note.framed])
    fun _ _ _ _ => framed_dispatch _ _

end StreamState

end ApiSensor
