import ApiSensor.Stream.Measure

/-!
# Memory accounting

Every operation of the stream state keeps charged exactly what the state holds afterwards.  Each
container has its own local account; the account of the state is put together from them.
-/

namespace ApiSensor

open Library Library.Prog

variable {P : Platform} {α β : Type} {ceiling : Nat}

/-! ## Primitive actions -/

variable {before amount : Nat} {after : β → Nat} {next : Unit → Act β}

theorem conserves_reserveMemory_bind {next : Bool → Act β} :
    Conserves ceiling (reserveMemory ceiling amount >>= next) before after ↔
      Conserves ceiling (next true) (before + amount) after ∧
        Conserves ceiling (next false) before after :=
  conserves_reserve

theorem conserves_releaseMemory_bind (le : amount ≤ before) :
    Conserves ceiling (releaseMemory amount >>= next) before after ↔
      Conserves ceiling (next ()) (before - amount) after :=
  conserves_release le

theorem conserves_releaseAll_bind {amounts : List Nat} {left : Nat}
    (rest : Conserves ceiling (next ()) left after) :
    Conserves ceiling (releaseAll amounts >>= next) (left + amounts.sum) after :=
  (conserves_releaseAll left rfl).bind fun _ => rest

theorem conserves_note_bind {entry : Note} :
    Conserves ceiling (note entry >>= next) before after ↔
      Conserves ceiling (next ()) before after :=
  conserves_log

theorem conserves_count_bind {metric : Metric} :
    Conserves ceiling (count metric amount >>= next) before after ↔
      Conserves ceiling (next ()) before after :=
  conserves_log

theorem conserves_pure {result : α} {after : α → Nat} :
    Conserves ceiling (pure result : Act α) before after ↔ before = after result :=
  conserves_done

theorem conserves_refuse {req : ParsedRequest} {result : α} {after : α → Nat} :
    Conserves ceiling (refuse req result) before after ↔ before = after result :=
  conserves_count_bind.trans (conserves_note_bind.trans conserves_pure)

/-! ## Containers -/

namespace PendingQueue

theorem conserves_push (queue : PendingQueue P) (req : ParsedRequest) :
    Conserves ceiling (queue.push req ceiling) queue.bytes fun result => result.2.bytes := by
  unfold push
  simp only
  split
  · exact conserves_refuse.mpr rfl
  · refine conserves_reserveMemory_bind.mpr ⟨?_, conserves_refuse.mpr rfl⟩
    exact conserves_note_bind.mpr (conserves_pure.mpr rfl)

theorem conserves_popUsableFrom (items : List ParsedRequest) (bytes : Nat)
    (accounted : bytes = requestBytes P items) :
    Conserves ceiling (popUsableFrom items bytes accounted) bytes
      fun result => result.2.bytes := by
  induction items generalizing bytes with
  | nil => exact conserves_pure.mpr rfl
  | cons req rest induction =>
    refine (conserves_releaseMemory_bind (Nat.min_le_right _ _)).mpr ?_
    split
    · exact conserves_pure.mpr rfl
    · exact induction _ _

theorem conserves_popUsable (queue : PendingQueue P) :
    Conserves ceiling queue.popUsable queue.bytes fun result => result.2.bytes :=
  conserves_popUsableFrom _ _ _

end PendingQueue

theorem conserves_releaseAt {κ ν : Type} {weight : ν → Nat} [DecidableEq κ]
    (charged : Charged κ weight) (key : κ) :
    Conserves ceiling (releaseAt charged key) charged.bytes
      fun _ => (charged.without key).bytes := by
  have le := charged.weightAt_le key
  unfold releaseAt
  cases found : charged.map.get? key with
  | none =>
    refine conserves_pure.mpr ?_
    simp [Charged.without, Charged.weightAt, found]
  | some value =>
    have weight_eq : charged.weightAt key = weight value := by
      simp [Charged.weightAt, found]
    have account : Conserves ceiling (releaseMemory (subAmount charged.bytes (weight value)))
        charged.bytes fun _ => charged.bytes - subAmount charged.bytes (weight value) :=
      (conserves_release (Nat.min_le_right _ _)).mpr (conserves_done.mpr rfl)
    refine account.congr rfl fun _ => ?_
    simp only [Charged.without, subAmount]
    omega

namespace PendingStreams

variable (streams : PendingStreams P) (streamId : UInt32)

theorem conserves_remove :
    Conserves ceiling (remove streams streamId) streams.bytes fun result => result.2.bytes :=
  (conserves_releaseAt streams streamId).bind fun _ => conserves_pure.mpr rfl

theorem conserves_cancel :
    Conserves ceiling (cancel streams streamId) streams.bytes
      fun _ => (streams.without streamId).bytes := by
  refine (conserves_releaseAt streams streamId).bind fun _ => ?_
  cases streams.map.get? streamId with
  | none => exact conserves_pure.mpr rfl
  | some req => exact conserves_log.mpr (conserves_done.mpr rfl)

theorem conserves_insertNew (req : ParsedRequest) (cap : Nat) (free : streams.weightAt streamId = 0) :
    Conserves ceiling (insertNew streams streamId req ceiling cap free) streams.bytes
      fun result => result.2.bytes := by
  unfold insertNew
  split
  · exact conserves_refuse.mpr rfl
  · refine conserves_reserveMemory_bind.mpr ⟨?_, conserves_refuse.mpr rfl⟩
    exact conserves_note_bind.mpr (conserves_pure.mpr rfl)

theorem conserves_insert (req : ParsedRequest) (cap : Nat) :
    Conserves ceiling (insert streams streamId req ceiling cap) streams.bytes
      fun result => result.2.bytes :=
  (conserves_cancel streams streamId).bind fun _ => conserves_insertNew _ _ _ _ _

theorem conserves_appendBody (data : Bytes) :
    Conserves ceiling (appendBody streams streamId data ceiling) streams.bytes
      fun result => result.2.bytes := by
  unfold appendBody
  split
  · exact conserves_pure.mpr rfl
  · simp only
    split
    · exact conserves_pure.mpr rfl
    · exact conserves_reserveMemory_bind.mpr ⟨conserves_pure.mpr rfl, conserves_pure.mpr rfl⟩

end PendingStreams

namespace InflightResponses

variable (responses : InflightResponses) (streamId : UInt32)

theorem conserves_take :
    Conserves ceiling (take responses streamId) responses.bytes fun result => result.2.bytes :=
  (conserves_releaseAt responses streamId).bind fun _ => conserves_pure.mpr rfl

theorem conserves_startNew (headers : Headers) (cap : Nat) (free : responses.weightAt streamId = 0) :
    Conserves ceiling (startNew responses streamId headers ceiling cap free) responses.bytes
      fun result => result.2.bytes := by
  unfold startNew
  simp only
  split
  · exact conserves_count_bind.mpr (conserves_pure.mpr rfl)
  · exact conserves_reserveMemory_bind.mpr
      ⟨conserves_pure.mpr rfl, conserves_count_bind.mpr (conserves_pure.mpr rfl)⟩

theorem conserves_start (headers : Headers) (cap : Nat) :
    Conserves ceiling (start responses streamId headers ceiling cap) responses.bytes
      fun result => result.2.bytes :=
  (conserves_releaseAt responses streamId).bind fun _ => conserves_startNew _ _ _ _ _

theorem conserves_append (data : Bytes) :
    Conserves ceiling (append responses streamId data ceiling) responses.bytes
      fun result => result.2.bytes := by
  unfold append
  split
  · exact conserves_pure.mpr rfl
  · simp only
    split
    · exact conserves_pure.mpr rfl
    · exact conserves_reserveMemory_bind.mpr ⟨conserves_pure.mpr rfl, conserves_pure.mpr rfl⟩

theorem conserves_mergeField (name value : Str) :
    Conserves ceiling (mergeField responses streamId name value ceiling) responses.bytes
      fun result => result.bytes := by
  unfold mergeField
  split
  · exact conserves_pure.mpr rfl
  · exact conserves_reserveMemory_bind.mpr ⟨conserves_pure.mpr rfl, conserves_pure.mpr rfl⟩

theorem conserves_mergeFields (fields : List (Str × Str)) (responses : InflightResponses) :
    Conserves ceiling (mergeFields streamId ceiling fields responses) responses.bytes
      fun result => result.bytes := by
  induction fields generalizing responses with
  | nil => exact conserves_pure.mpr rfl
  | cons field fields induction =>
    exact (conserves_mergeField responses streamId field.1 field.2).bind induction

theorem conserves_mergeTrailers (trailers : Headers) :
    Conserves ceiling (mergeTrailers responses streamId trailers ceiling) responses.bytes
      fun result => result.2.bytes := by
  unfold mergeTrailers
  split
  · exact (conserves_mergeFields streamId _ responses).bind fun _ => conserves_pure.mpr rfl
  · exact conserves_pure.mpr rfl

end InflightResponses

/-! ## HTTP/2 connections -/

namespace Http2Conn

theorem charge_eq (conn : Http2Conn P) :
    conn.charge = conn.pendingRequests.bytes + conn.responses.bytes + conn.buffered := by
  simp only [charge, held, List.sum_cons, List.sum_nil]
  omega

/-- An operation on the pending requests, seen from the connection. -/
theorem conserves_requests {conn : Http2Conn P} {program : Act (α × PendingStreams P)}
    (account : Conserves ceiling program conn.pendingRequests.bytes
      fun result => result.2.bytes) :
    Conserves ceiling program conn.charge
      fun result => { conn with pendingRequests := result.2 : Http2Conn P }.charge := by
  refine account.embed ?_ fun result => ?_ <;> simp only [charge_eq] <;> omega

/-- An operation on the responses, seen from the connection. -/
theorem conserves_responses {conn : Http2Conn P} {program : Act (α × InflightResponses)}
    (account : Conserves ceiling program conn.responses.bytes fun result => result.2.bytes) :
    Conserves ceiling program conn.charge
      fun result => { conn with responses := result.2 : Http2Conn P }.charge := by
  refine account.embed ?_ fun result => ?_ <;> simp only [charge_eq] <;> omega

variable {C : Config} (conn : Http2Conn P)

theorem conserves_finishH2Response (nowMs : Nat) (streamId : UInt32) :
    Conserves C.maxTotalBufferBytes (conn.finishH2Response C nowMs streamId) conn.charge
      fun result => result.1.charge := by
  refine (conserves_responses (InflightResponses.conserves_take _ _)).bind fun taken => ?_
  obtain ⟨taken, responses⟩ := taken
  cases taken with
  | none => exact conserves_pure.mpr rfl
  | some taken =>
    refine (conserves_requests (PendingStreams.conserves_remove _ _)).bind fun removed => ?_
    obtain ⟨removed, pendingRequests⟩ := removed
    simp only
    split
    · exact conserves_count_bind.mpr (conserves_pure.mpr rfl)
    · exact conserves_pure.mpr rfl

theorem conserves_requestHeaders (env : Env) (ev : TlsEventHeader) (streamId : UInt32)
    (headers : Headers) :
    Conserves C.maxTotalBufferBytes (conn.requestHeaders C env ev streamId headers) conn.charge
      fun result => result.1.charge := by
  unfold requestHeaders
  split
  · exact conserves_pure.mpr rfl
  · simp only
    split
    · exact conserves_pure.mpr rfl
    · exact (conserves_requests (PendingStreams.conserves_insert _ _ _ _)).bind
        fun _ => conserves_pure.mpr rfl

theorem conserves_responseHeaders (nowMs : Nat) (streamId : UInt32) (headers : Headers)
    (endStream : Bool) :
    Conserves C.maxTotalBufferBytes
      (conn.responseHeaders C nowMs streamId headers endStream) conn.charge
      fun result => result.1.charge := by
  unfold responseHeaders
  split
  · split
    · exact conserves_pure.mpr rfl
    · split
      · exact conserves_count_bind.mpr (conserves_pure.mpr rfl)
      · refine (conserves_responses (InflightResponses.conserves_start _ _ _ _)).bind
          fun started => ?_
        simp only
        split
        · exact conserves_finishH2Response _ _ _
        · exact conserves_pure.mpr rfl
  · refine (conserves_responses (InflightResponses.conserves_mergeTrailers _ _ _)).bind
      fun merged => ?_
    simp only
    split
    · exact conserves_finishH2Response _ _ _
    · exact conserves_pure.mpr rfl

theorem conserves_resetStream (streamId : UInt32) :
    Conserves ceiling (conn.resetStream streamId) conn.charge fun result => result.charge := by
  refine (conserves_responses (InflightResponses.conserves_take _ _)).bind fun taken => ?_
  obtain ⟨taken, responses⟩ := taken
  refine Conserves.bind ?_ fun _ => conserves_pure.mpr rfl
  refine (PendingStreams.conserves_cancel conn.pendingRequests streamId).embed ?_ fun _ => ?_ <;>
    simp only [charge_eq] <;> omega

theorem conserves_resetStreams (streamIds : List UInt32) :
    Conserves ceiling (resetStreams streamIds conn) conn.charge fun result => result.charge := by
  induction streamIds generalizing conn with
  | nil => exact conserves_pure.mpr rfl
  | cons streamId streamIds induction =>
    exact (conserves_resetStream conn streamId).bind fun conn => induction conn

theorem conserves_onItem (call : Call) (item : H2Item) :
    Conserves C.maxTotalBufferBytes (conn.onItem C call item) conn.charge
      fun result => result.1.charge := by
  cases item with
  | headers streamId headers endStream =>
    simp only [onItem]
    split
    · exact conserves_requestHeaders _ _ _ _ _
    · exact conserves_responseHeaders _ _ _ _ _
  | data streamId data endStream =>
    simp only [onItem]
    split
    · exact (conserves_requests (PendingStreams.conserves_appendBody _ _ _)).bind
        fun _ => conserves_pure.mpr rfl
    · refine (conserves_responses (InflightResponses.conserves_append _ _ _)).bind
        fun appended => ?_
      split
      · exact conserves_finishH2Response _ _ _
      · exact conserves_pure.mpr rfl
  | reset streamId => exact (conserves_resetStream conn streamId).bind fun _ => conserves_pure.mpr rfl
  | goAway lastStreamId =>
    exact (conserves_resetStreams conn _).bind fun _ => conserves_pure.mpr rfl

theorem conserves_onItems (call : Call) (items : List H2Item) :
    Conserves C.maxTotalBufferBytes (onItems C call items conn) conn.charge
      fun result => result.1.charge := by
  induction items generalizing conn with
  | nil => exact conserves_pure.mpr rfl
  | cons item items induction =>
    refine (conserves_onItem conn call item).bind fun first => ?_
    exact (induction first.1).bind fun _ => conserves_pure.mpr rfl

theorem conserves_process (call : Call) (payload : Bytes) :
    Conserves C.maxTotalBufferBytes (conn.process C call payload) conn.charge
      fun result => result.1.charge := by
  unfold process
  simp only
  split
  · exact conserves_pure.mpr rfl
  · refine conserves_reserveMemory_bind.mpr ⟨?_, conserves_count_bind.mpr
      (conserves_note_bind.mpr (conserves_pure.mpr rfl))⟩
    -- the payload is charged while it is parsed
    have le : { conn with lastEventTs := call.env.now : Http2Conn P }.consumed call.isRequestDir
        payload ≤ conn.buffered + payload.length := Nat.min_le_right _ _
    refine conserves_note_bind.mpr ((conserves_releaseMemory_bind ?_).mpr ?_)
    · rw [charge_eq]
      omega
    · refine (conserves_onItems _ call _).congr ?_ fun _ => rfl
      simp only [charge_eq, fed]
      omega

end Http2Conn

/-! ## The stream state -/

namespace StreamState

/-- Bytes of HTTP/1 and HTTP/3 requests that are charged. -/
def queuedBytes (st : StreamState P) : Nat := st.pending.total fun _ queue => queue.bytes

/-- Bytes charged by HTTP/2 connections. -/
def http2Bytes (st : StreamState P) : Nat := st.http2State.total fun _ conn => conn.charge

/-- Bytes charged for early server frames. -/
def earlyBytes (st : StreamState P) : Nat := st.h2EarlyResp.total fun _ early => early.charge

/-- Bytes the state has charged against the ceiling. -/
def charge (st : StreamState P) : Nat :=
  st.bufferBytes + st.queuedBytes + st.http2Bytes + st.earlyBytes

/-- The program accounts for what it takes and returns, up to the state that it ends with. -/
abbrev Accounts (ceiling : Nat) (st : StreamState P) (program : Act (StreamState P × α)) : Prop :=
  Conserves ceiling program st.charge fun result => result.1.charge

variable (st : StreamState P)

theorem bufferBytes_insert (key : StreamKey) (buf : Bytes) (seenMs : Nat) :
    { st with buffers := st.buffers.insert key (buf, seenMs) : StreamState P }.bufferBytes +
      (st.bufferOf key).length = st.bufferBytes + buf.length := by
  have inserted := Dict.total_insert (fun _ buffer => List.length (Prod.fst buffer)) st.buffers
    key (buf, seenMs)
  cases found : st.buffers.get? key <;>
    simpa [bufferBytes, bufferOf, found] using inserted

theorem bufferBytes_erase (key : StreamKey) :
    { st with buffers := st.buffers.erase key : StreamState P }.bufferBytes +
      (st.bufferOf key).length = st.bufferBytes := by
  have erased := Dict.total_erase (fun _ buffer => List.length (Prod.fst buffer)) st.buffers key
  cases found : st.buffers.get? key <;>
    simpa [bufferBytes, bufferOf, found] using erased

variable (key : ConnKey)

theorem queuedBytes_insert (queue : PendingQueue P) :
    { st with pending := st.pending.insert key queue : StreamState P }.queuedBytes +
      (st.queue key).bytes = st.queuedBytes + queue.bytes := by
  have inserted := Dict.total_insert (fun _ queue => PendingQueue.bytes queue) st.pending key queue
  cases found : st.pending.get? key <;>
    simpa [queuedBytes, StreamState.queue, found, PendingQueue.empty] using inserted

theorem http2Bytes_insert (conn : Http2Conn P) :
    { st with http2State := st.http2State.insert key conn : StreamState P }.http2Bytes +
      ((st.http2State.get? key).getD .new).charge = st.http2Bytes + conn.charge := by
  have inserted := Dict.total_insert (fun _ conn => Http2Conn.charge conn) st.http2State key conn
  cases found : st.http2State.get? key with
  | none =>
    have nothing : (Http2Conn.new : Http2Conn P).charge = 0 := rfl
    simpa [http2Bytes, found, nothing] using inserted
  | some old => simpa [http2Bytes, found] using inserted

theorem http2Bytes_erase :
    { st with http2State := st.http2State.erase key : StreamState P }.http2Bytes +
      (st.http2State.get? key).elim 0 Http2Conn.charge = st.http2Bytes :=
  Dict.total_erase (fun _ conn => Http2Conn.charge conn) st.http2State key

theorem earlyBytes_insert (early : EarlyResp) :
    { st with h2EarlyResp := st.h2EarlyResp.insert key early : StreamState P }.earlyBytes +
      (st.h2EarlyResp.get? key).elim 0 EarlyResp.charge = st.earlyBytes + early.charge :=
  Dict.total_insert (fun _ early => EarlyResp.charge early) st.h2EarlyResp key early

theorem earlyBytes_erase :
    { st with h2EarlyResp := st.h2EarlyResp.erase key : StreamState P }.earlyBytes +
      (st.h2EarlyResp.get? key).elim 0 EarlyResp.charge = st.earlyBytes :=
  Dict.total_erase (fun _ early => EarlyResp.charge early) st.h2EarlyResp key

variable {C : Config} (call : Call) (payload : Bytes)

theorem conserves_processHttp2Event :
    st.Accounts C.maxTotalBufferBytes (st.processHttp2Event C call payload) := by
  refine Conserves.bind ?_ fun _ => conserves_pure.mpr rfl
  refine (Http2Conn.conserves_process _ call payload).embed ?_ fun result => ?_
  · have without := st.http2Bytes_insert call.key .new
    have nothing : (Http2Conn.new : Http2Conn P).charge = 0 := rfl
    simp only [charge]
    omega
  · have inserted := st.http2Bytes_insert call.key result.1
    simp only [charge, bufferBytes, queuedBytes, earlyBytes] at inserted ⊢
    omega

theorem charge_keepEarly (early : EarlyResp) :
    (st.keepEarly call early).charge + (st.earlyOf call).charge = st.charge + early.charge := by
  have inserted := st.earlyBytes_insert call.key { early with seenMs := call.env.now }
  have found : (st.earlyOf call).charge =
      (st.h2EarlyResp.get? call.key).elim 0 EarlyResp.charge := by
    unfold earlyOf
    cases st.h2EarlyResp.get? call.key <;> rfl
  simp only [charge, bufferBytes, queuedBytes, http2Bytes, keepEarly] at inserted ⊢
  omega

theorem conserves_holdEarly : st.Accounts C.maxTotalBufferBytes (st.holdEarly C call payload) := by
  have same := st.charge_keepEarly call (st.earlyOf call)
  unfold holdEarly
  split
  · exact conserves_count_bind.mpr (conserves_pure.mpr rfl)
  · simp only
    split
    · refine conserves_reserveMemory_bind.mpr ⟨conserves_pure.mpr ?_, conserves_pure.mpr ?_⟩
      · have extended := st.charge_keepEarly call ((st.earlyOf call).append payload)
        simp only [EarlyResp.append] at extended ⊢
        omega
      · dsimp only
        omega
    · refine conserves_pure.mpr ?_
      dsimp only
      omega

theorem conserves_replayEarly (early : EarlyResp) :
    st.Accounts C.maxTotalBufferBytes (st.replayEarly C call early) := by
  unfold replayEarly
  split
  · exact conserves_pure.mpr rfl
  · exact conserves_processHttp2Event _ _ _

theorem conserves_startHttp2 :
    st.Accounts C.maxTotalBufferBytes (st.startHttp2 C call payload) := by
  unfold startHttp2
  cases found : st.h2EarlyResp.get? call.key with
  | none => exact conserves_processHttp2Event _ _ _
  | some early =>
    have erased := st.earlyBytes_erase call.key
    simp only [found, Option.elim_some] at erased
    have split : st.charge = early.charge +
        { st with h2EarlyResp := st.h2EarlyResp.erase call.key : StreamState P }.charge := by
      simp only [charge, bufferBytes, queuedBytes, http2Bytes] at erased ⊢
      omega
    rw [Accounts, split]
    -- the held frames stay charged while they are replayed
    refine ((conserves_replayEarly _ call early).frame early.charge).bind fun replayed => ?_
    refine (conserves_releaseMemory_bind (Nat.le_add_right _ _)).mpr ?_
    rw [Nat.add_sub_cancel_left]
    exact (conserves_processHttp2Event _ _ _).bind fun _ => conserves_pure.mpr rfl

theorem conserves_pushRequest (req : ParsedRequest) :
    Conserves C.maxTotalBufferBytes (st.pushRequest C key req) st.charge
      fun result => result.charge := by
  refine Conserves.bind ?_ fun _ => conserves_pure.mpr rfl
  refine ((st.queue key).conserves_push req).embed ?_ fun result => ?_
  · have without := st.queuedBytes_insert key .empty
    have nothing : (PendingQueue.empty : PendingQueue P).bytes = 0 := rfl
    simp only [charge]
    omega
  · have inserted := st.queuedBytes_insert key result.2
    simp only [charge, bufferBytes, http2Bytes, earlyBytes] at inserted ⊢
    omega

theorem conserves_popRequest :
    Conserves ceiling (st.popRequest key) st.charge fun result => result.2.charge := by
  refine Conserves.bind ?_ fun _ => conserves_pure.mpr rfl
  refine (st.queue key).conserves_popUsable.embed ?_ fun result => ?_
  · have without := st.queuedBytes_insert key .empty
    have nothing : (PendingQueue.empty : PendingQueue P).bytes = 0 := rfl
    simp only [charge]
    omega
  · have inserted := st.queuedBytes_insert key result.2
    simp only [charge, bufferBytes, http2Bytes, earlyBytes] at inserted ⊢
    omega

theorem conserves_http3Headers (headers : Headers) :
    st.Accounts C.maxTotalBufferBytes (st.http3Headers C call headers) := by
  unfold http3Headers
  split
  · split
    · exact conserves_pure.mpr rfl
    · simp only
      split
      · exact conserves_pure.mpr rfl
      · exact (conserves_pushRequest _ _ _).bind fun _ => conserves_pure.mpr rfl
  · split
    · exact conserves_pure.mpr rfl
    · refine (conserves_popRequest _ _).bind fun popped => ?_
      obtain ⟨request, after⟩ := popped
      cases request with
      | none => exact conserves_count_bind.mpr (conserves_pure.mpr rfl)
      | some request => exact conserves_pure.mpr rfl

theorem conserves_http3HeaderSets (sets : List Headers) :
    st.Accounts C.maxTotalBufferBytes (http3HeaderSets C call sets st) := by
  induction sets generalizing st with
  | nil => exact conserves_pure.mpr rfl
  | cons headers sets induction =>
    refine (conserves_http3Headers st call headers).bind fun first => ?_
    exact (induction first.1).bind fun _ => conserves_pure.mpr rfl

theorem conserves_wsFrames (fuel : Nat) (rest : Bytes) (before : Nat) :
    Conserves ceiling (wsFrames fuel rest) before fun _ => before := by
  induction fuel generalizing rest with
  | zero => exact conserves_pure.mpr rfl
  | succ fuel induction =>
    unfold wsFrames
    split
    · exact conserves_pure.mpr rfl
    · split
      · exact conserves_pure.mpr rfl
      · refine conserves_count_bind.mpr ?_
        split
        · exact conserves_pure.mpr rfl
        · exact induction _

theorem conserves_handleWebSocket : st.Accounts ceiling (st.handleWebSocket call payload) := by
  unfold handleWebSocket
  simp only
  split
  · exact (conserves_wsFrames _ _ st.charge).bind fun _ => conserves_pure.mpr rfl
  · exact conserves_pure.mpr rfl

theorem charge_markGap (key : StreamKey) (nowMs : Nat) :
    (st.markGap key nowMs).charge + (st.bufferOf key).length = st.charge := by
  have inserted := st.bufferBytes_insert key [] nowMs
  simp only [charge, queuedBytes, http2Bytes, earlyBytes, markGap, bufferBytes,
    List.length_nil] at inserted ⊢
  omega

theorem charge_decoded :
    (st.decoded call payload).charge + (st.decode call payload).2.1 =
      st.charge + payload.length := by
  have inserted := st.bufferBytes_insert call.streamKey
    ((st.bufferOf call.streamKey ++ payload).drop (st.decode call payload).2.1) call.env.now
  have le : (st.decode call payload).2.1 ≤ (st.bufferOf call.streamKey ++ payload).length :=
    Nat.sub_le _ _
  simp only [charge, queuedBytes, http2Bytes, earlyBytes, decoded, bufferBytes, List.length_drop,
    List.length_append] at inserted le ⊢
  omega

theorem conserves_countTruncated (m : Http1Message) (before : Nat) :
    Conserves ceiling (countTruncated m) before fun _ => before := by
  unfold countTruncated
  split
  · exact conserves_log.mpr (conserves_done.mpr rfl)
  · exact conserves_pure.mpr rfl

theorem conserves_collectItems (items : List Http1Item) :
    st.Accounts ceiling (collectItems call items st) := by
  induction items with
  | nil => exact conserves_pure.mpr rfl
  | cons item items induction =>
    cases item with
    | message m =>
      refine (conserves_countTruncated m st.charge).bind fun _ => ?_
      exact induction.bind fun _ => conserves_pure.mpr rfl
    | invalid reason =>
      have gap := st.charge_markGap call.streamKey call.env.now
      refine conserves_count_bind.mpr ?_
      refine (conserves_releaseMemory_bind (by omega)).mpr (conserves_pure.mpr ?_)
      dsimp only
      omega

theorem conserves_http1Request (req : HttpRequestParsed) :
    st.Accounts C.maxTotalBufferBytes (st.http1Request C call req) := by
  unfold http1Request
  split
  · exact (conserves_pushRequest _ _ _).bind fun _ => conserves_pure.mpr rfl
  · exact conserves_pure.mpr rfl

@[simp]
theorem charge_noteUpgrade (resp : HttpResponseParsed) :
    (st.noteUpgrade call resp).charge = st.charge := by
  unfold noteUpgrade
  split <;> rfl

theorem conserves_http1Response (resp : HttpResponseParsed) :
    st.Accounts C.maxTotalBufferBytes (st.http1Response C call payload resp) := by
  unfold http1Response
  split
  · exact conserves_pure.mpr rfl
  · refine conserves_note_bind.mpr ?_
    rw [← st.charge_noteUpgrade call resp]
    refine (conserves_popRequest _ _).bind fun popped => ?_
    obtain ⟨request, after⟩ := popped
    cases request with
    | none => exact conserves_count_bind.mpr (conserves_pure.mpr rfl)
    | some request => exact conserves_pure.mpr rfl

theorem conserves_http1Message (msg : HttpMessage) :
    st.Accounts C.maxTotalBufferBytes (st.http1Message C call payload msg) := by
  cases msg with
  | request req => exact conserves_http1Request _ _ _
  | response resp => exact conserves_http1Response _ _ _ _

theorem conserves_http1Messages (msgs : List HttpMessage) :
    st.Accounts C.maxTotalBufferBytes (http1Messages C call payload msgs st) := by
  induction msgs generalizing st with
  | nil => exact conserves_pure.mpr rfl
  | cons msg msgs induction =>
    refine (conserves_http1Message st call payload msg).bind fun first => ?_
    exact (induction first.1).bind fun _ => conserves_pure.mpr rfl

theorem conserves_consume :
    Conserves C.maxTotalBufferBytes (st.consume C call payload) (st.charge + payload.length)
      fun result => result.1.charge := by
  unfold consume
  simp only
  split
  · have gap := st.charge_markGap call.streamKey call.env.now
    refine (conserves_releaseMemory_bind ?_).mpr ?_
    · simp only [List.length_append]
      omega
    · refine conserves_count_bind.mpr (conserves_pure.mpr ?_)
      simp only [List.length_append]
      omega
  · have fed := st.charge_decoded call payload
    refine conserves_note_bind.mpr ((conserves_releaseMemory_bind (by omega)).mpr ?_)
    rw [show st.charge + payload.length - (st.decode call payload).2.1 =
      (st.decoded call payload).charge by omega]
    exact (conserves_collectItems _ _ _).bind fun _ => conserves_http1Messages _ _ _ _

theorem conserves_dropChunk : st.Accounts ceiling (st.dropChunk call) := by
  refine conserves_count_bind.mpr (conserves_note_bind.mpr (conserves_pure.mpr ?_))
  have kept := st.bufferBytes_insert call.streamKey (st.bufferOf call.streamKey) call.env.now
  simp only [charge, queuedBytes, http2Bytes, earlyBytes] at kept ⊢
  omega

theorem conserves_handleHttp1 : st.Accounts C.maxTotalBufferBytes (st.handleHttp1 C call payload) :=
  conserves_reserveMemory_bind.mpr
    ⟨conserves_consume (st.resume call) call payload, conserves_dropChunk (st.resume call) call⟩

theorem conserves_dispatch : st.Accounts C.maxTotalBufferBytes (st.dispatch C call payload) := by
  unfold dispatch
  cases st.route call payload with
  | holdPrefix => exact conserves_pure.mpr rfl
  | early => exact conserves_holdEarly _ _ _
  | startHttp2 => exact conserves_startHttp2 _ _ _
  | http2 => exact conserves_processHttp2Event _ _ _
  | empty => exact conserves_pure.mpr rfl
  | http3 => exact conserves_http3HeaderSets _ _ _
  | webSocket => exact conserves_handleWebSocket _ _ _
  | skip => exact conserves_pure.mpr rfl
  | http1 => exact conserves_handleHttp1 _ _ _

@[simp]
theorem charge_takePrefix : (st.takePrefix call).charge = st.charge := by
  unfold takePrefix
  split <;> rfl

theorem conserves_deliver : st.Accounts C.maxTotalBufferBytes (st.deliver C call payload) := by
  unfold deliver
  split
  · rw [Accounts, ← st.charge_takePrefix call]
    exact conserves_dispatch _ _ _
  · refine conserves_count_bind.mpr ?_
    cases found : st.http2State.get? call.key with
    | some conn =>
      have erased := st.http2Bytes_erase call.key
      simp only [found, Option.elim_some] at erased
      refine Conserves.bind (conserves_releaseAll
        { st with http2State := st.http2State.erase call.key : StreamState P }.charge ?_)
        fun _ => conserves_pure.mpr rfl
      simp only [charge, queuedBytes, bufferBytes, earlyBytes, Http2Conn.charge] at erased ⊢
      omega
    | none =>
      have erased := st.bufferBytes_erase call.streamKey
      have cut : (st.cutOff call).charge + (st.bufferOf call.streamKey).length = st.charge := by
        simp only [charge, queuedBytes, http2Bytes, earlyBytes, bufferBytes, cutOff] at erased ⊢
        omega
      refine (conserves_releaseMemory_bind (by omega)).mpr ?_
      rw [show st.charge - (st.bufferOf call.streamKey).length =
        ((st.cutOff call).takePrefix call).charge by rw [charge_takePrefix]; omega]
      exact conserves_dispatch _ _ _

end StreamState

/-! ## Eviction -/

theorem InflightResponses.bytes_expire (responses : InflightResponses) (live : PendingStreams P) :
    (expire responses live).1.sum + (expire responses live).2.bytes = responses.bytes := by
  have split := Dict.total_retain_add (fun _ resp => InflightResponse.charged resp)
    (fun streamId _ => live.contains streamId) responses.map
  rw [(expire responses live).2.accounted, responses.accounted]
  simp only [expire, Dict.sum_values_map, Charged.retain]
  omega

theorem PendingStreams.bytes_eq (streams : PendingStreams P) :
    streams.bytes = weighAll (ParsedRequest.approxBytes P) streams := streams.accounted

theorem Http2Conn.charge_expireStale (conn : Http2Conn P) (nowMs : Nat) :
    (conn.expireStale nowMs).released.sum + (conn.expireStale nowMs).conn.charge =
      conn.charge := by
  have requests := conn.weigh_expireStale (ParsedRequest.approxBytes P) nowMs
  have responses := InflightResponses.bytes_expire conn.responses (conn.expireRequests nowMs).2
  rw [← PendingStreams.bytes_eq, ← PendingStreams.bytes_eq] at requests
  simp only [Http2Expiry.released, expireStale, List.sum_append, charge_eq, weigh] at requests ⊢
  omega

namespace StreamState

variable (st : StreamState P) {C : Config}

theorem queuedBytes_eq : st.queuedBytes = st.weighQueues (ParsedRequest.approxBytes P) := by
  simp only [queuedBytes, weighQueues, PendingQueue.accounted, requestBytes_eq_weigh]

variable (nowMs : Nat)

theorem queuedBytes_expire :
    requestBytes P ((st.expiredQueued nowMs).map Prod.fst) + (st.expire nowMs).queuedBytes =
      st.queuedBytes := by
  rw [queuedBytes_eq, queuedBytes_eq, requestBytes_eq_weigh]
  exact st.weighQueues_expire _ nowMs

theorem http2Bytes_expire :
    (st.http2State.values.flatMap fun conn => (conn.expireStale nowMs).released).sum +
      (((st.expiredHttp2 nowMs).retain fun _ conn =>
        !fresh nowMs conn.lastEventTs).values.flatMap Http2Conn.held).sum +
      (st.expire nowMs).http2Bytes = st.http2Bytes := by
  have dropped := Dict.total_retain_add (fun _ conn => Http2Conn.charge conn)
    (fun _ conn => fresh nowMs conn.lastEventTs) (st.expiredHttp2 nowMs)
  have expired : (st.http2State.total fun _ conn => (conn.expireStale nowMs).released.sum) +
      (st.expiredHttp2 nowMs).total (fun _ conn => conn.charge) = st.http2Bytes := by
    rw [expiredHttp2, Dict.total_mapValues, ← Dict.total_add]
    simp only [Http2Conn.charge_expireStale]
    rfl
  have kept : (st.expire nowMs).http2Bytes = ((st.expiredHttp2 nowMs).retain fun _ conn =>
    fresh nowMs conn.lastEventTs).total fun _ conn => conn.charge := rfl
  rw [Dict.sum_values_flatMap, Dict.sum_values_flatMap, kept]
  simp only [Http2Conn.charge] at dropped expired ⊢
  omega

theorem earlyBytes_expire :
    ((st.h2EarlyResp.retain fun _ early => !fresh nowMs early.seenMs).values.map
      EarlyResp.charge).sum + (st.expire nowMs).earlyBytes = st.earlyBytes := by
  have split := Dict.total_retain_add (fun _ early => EarlyResp.charge early)
    (fun _ early => fresh nowMs early.seenMs) st.h2EarlyResp
  rw [Dict.sum_values_map]
  simp only [earlyBytes, expire]
  omega

theorem http2Bytes_trim :
    (st.trimmedConns.flatMap Http2Conn.held).sum + st.trim.http2Bytes = st.http2Bytes := by
  have split := Dict.total_retain_add (fun _ conn => Http2Conn.charge conn)
    (fun key _ => key ∉ st.http2State.excess Http2Conn.lastEventTs maxStreamEntries) st.http2State
  rw [trimmedConns, Dict.sum_values_flatMap]
  simp only [http2Bytes, trim, Http2Conn.charge, decide_not, Bool.not_not] at split ⊢
  omega

theorem bufferBytes_retain_le (keep : StreamKey → Bytes × Nat → Bool) :
    { st with buffers := st.buffers.retain keep : StreamState P }.bufferBytes ≤
      st.bufferBytes :=
  Nat.le.intro (Dict.total_retain_add (fun _ buffer => List.length (Prod.fst buffer)) keep
    st.buffers)

theorem bufferBytes_expire_le : (st.expire nowMs).bufferBytes ≤ st.bufferBytes :=
  st.bufferBytes_retain_le _

theorem bufferBytes_trim_le : st.trim.bufferBytes ≤ st.bufferBytes :=
  st.bufferBytes_retain_le _

theorem charge_trim :
    st.trim.charge = st.trim.bufferBytes + st.queuedBytes + st.trim.http2Bytes + st.earlyBytes :=
  rfl

/-- Forgetting connections touches no charged map. -/
theorem charge_forgetInactive : st.forgetInactive.charge = st.charge := rfl

/-- What an eviction pass releases is what the state holds less afterwards. -/
theorem charge_evicted :
    (st.evicted nowMs).charge + (st.bufferBytes - (st.expire nowMs).trim.bufferBytes) +
      ((st.expire nowMs).trimmedConns.flatMap Http2Conn.held).sum +
      ((st.h2EarlyResp.retain fun _ early => !fresh nowMs early.seenMs).values.map
        EarlyResp.charge).sum +
      (((st.expiredHttp2 nowMs).retain fun _ conn =>
        !fresh nowMs conn.lastEventTs).values.flatMap Http2Conn.held).sum +
      (st.http2State.values.flatMap fun conn => (conn.expireStale nowMs).released).sum +
      requestBytes P ((st.expiredQueued nowMs).map Prod.fst) = st.charge := by
  have queued := st.queuedBytes_expire nowMs
  have streams := st.http2Bytes_expire nowMs
  have early := st.earlyBytes_expire nowMs
  have trimmed := (st.expire nowMs).http2Bytes_trim
  have expired_le := st.bufferBytes_expire_le nowMs
  have trimmed_le := (st.expire nowMs).bufferBytes_trim_le
  rw [evicted, charge_forgetInactive, charge_trim]
  simp only [charge]
  omega

theorem conserves_incompleteEvents (reqs : List Unanswered) (outcome : Str) (before : Nat) :
    Conserves ceiling (incompleteEvents C reqs outcome) before fun _ => before :=
  conserves_count_bind.mpr (conserves_note_bind.mpr (conserves_pure.mpr rfl))

theorem conserves_evictionPass : st.Accounts ceiling (st.evictionPass C nowMs) := by
  rw [Accounts, ← st.charge_evicted nowMs]
  refine conserves_releaseAll_bind ?_
  refine conserves_releaseAll_bind ?_
  refine conserves_releaseAll_bind ?_
  refine conserves_releaseAll_bind ?_
  refine conserves_count_bind.mpr ?_
  refine (conserves_incompleteEvents _ _ _).bind fun incomplete => ?_
  refine conserves_releaseAll_bind ?_
  refine (conserves_releaseMemory_bind (Nat.le_add_left _ _)).mpr ?_
  rw [Nat.add_sub_cancel]
  exact conserves_count_bind.mpr (conserves_pure.mpr rfl)

theorem conserves_evictStale : st.Accounts ceiling (st.evictStale C nowMs) := by
  unfold evictStale
  split
  · exact conserves_pure.mpr rfl
  · exact conserves_evictionPass st nowMs

/-! ## Events, close and shutdown -/

section

variable (env : Env) (ev : TlsEventHeader) (payload : Bytes) (key : ConnKey)

theorem conserves_know : Conserves ceiling (st.know key) st.charge fun result => result.charge := by
  unfold know
  split
  · exact conserves_pure.mpr rfl
  · exact conserves_count_bind.mpr (conserves_pure.mpr rfl)

@[simp]
theorem charge_freezeRole (ev : TlsEventHeader) (payload : Bytes) :
    (st.freezeRole C key ev payload).charge = st.charge := by
  unfold freezeRole
  split
  · split <;> rfl
  · rfl

theorem conserves_receive :
    st.Accounts C.maxTotalBufferBytes (st.receive C env ev payload key) := by
  unfold receive
  split
  · rw [Accounts, ← st.charge_freezeRole key ev payload]
    exact conserves_deliver _ _ _
  · split
    · exact conserves_deliver _ _ _
    · exact conserves_count_bind.mpr (conserves_pure.mpr rfl)

@[simp]
theorem charge_bear : (st.bear env ev).charge = st.charge := by
  unfold bear
  split <;> rfl

theorem conserves_scopeAllows (before : Nat) :
    Conserves ceiling (scopeAllows C env) before fun _ => before := by
  unfold scopeAllows
  split
  · exact conserves_pure.mpr rfl
  · split
    · exact conserves_count_bind.mpr (conserves_count_bind.mpr (conserves_pure.mpr rfl))
    · split
      · exact conserves_pure.mpr rfl
      · exact conserves_count_bind.mpr (conserves_pure.mpr rfl)

theorem conserves_handleEvent :
    st.Accounts C.maxTotalBufferBytes (st.handleEvent C env ev payload) := by
  refine (conserves_scopeAllows env _).bind fun allowed => ?_
  cases allowed with
  | false => exact conserves_pure.mpr rfl
  | true =>
    simp only [Bool.not_true, Bool.false_eq_true, if_false]
    rw [← st.charge_bear env ev]
    refine (conserves_evictStale _ _).bind fun swept => ?_
    refine (conserves_know _ _).bind fun known => ?_
    exact (conserves_receive _ _ _ _ _).bind fun _ => conserves_pure.mpr rfl

end

end StreamState

/-- Taking the requests off a connection frees their bytes. -/
theorem Http2Conn.charge_emptied (conn : Http2Conn P) :
    conn.emptied.charge + PendingStreams.weighAll (ParsedRequest.approxBytes P)
      conn.pendingRequests = conn.charge := by
  have requests := PendingStreams.weighAll_takeAll (ParsedRequest.approxBytes P)
    conn.pendingRequests
  rw [← PendingStreams.bytes_eq] at requests ⊢
  simp only [charge_eq, emptied]
  omega

namespace StreamState

variable (st : StreamState P) {C : Config}

theorem charge_closed (key : ConnKey) :
    (st.closed key).charge + (st.bufferBytes - (st.closed key).bufferBytes) +
      ((st.h2EarlyResp.retain fun other _ => hit key other.identity).values.map
        EarlyResp.charge).sum +
      ((st.http2State.retain fun other _ => hit key other.identity).values.flatMap fun conn =>
        conn.emptied.held).sum +
      requestBytes P ((st.waiting fun other => hit key other.identity).map Prod.fst) =
        st.charge := by
  have buffers : (st.closed key).bufferBytes ≤ st.bufferBytes := st.bufferBytes_retain_le _
  have queues := Dict.total_retain_add (fun _ queue => PendingQueue.bytes queue)
    (fun other _ => hit key (ConnKey.identity other)) st.pending
  have early := Dict.total_retain_add (fun _ early => EarlyResp.charge early)
    (fun other _ => hit key (ConnKey.identity other)) st.h2EarlyResp
  have conns := Dict.total_retain_add (fun _ conn => Http2Conn.charge conn)
    (fun other _ => hit key (ConnKey.identity other)) st.http2State
  have emptied := Dict.total_add (fun _ conn => (Http2Conn.emptied conn).charge)
    (fun _ conn => PendingStreams.weighAll (ParsedRequest.approxBytes P)
      (Http2Conn.pendingRequests conn))
    (st.http2State.retain fun other _ => hit key other.identity)
  simp only [Http2Conn.charge_emptied] at emptied
  have closed_eq : (st.closed key).charge = (st.closed key).bufferBytes +
      (st.pending.retain fun other _ => !hit key other.identity).total (fun _ queue => queue.bytes) +
      (st.http2State.retain fun other _ => !hit key other.identity).total
        (fun _ conn => conn.charge) +
      (st.h2EarlyResp.retain fun other _ => !hit key other.identity).total
        fun _ early => early.charge := rfl
  rw [closed_eq, Dict.sum_values_map, Dict.sum_values_flatMap, requestBytes_eq_weigh,
    weigh_waiting]
  simp only [← requestBytes_eq_weigh, ← PendingQueue.accounted, charge, queuedBytes, http2Bytes,
    earlyBytes, Http2Conn.charge] at emptied conns ⊢
  omega

theorem conserves_evictConnectionByPtr (key : ConnKey) :
    st.Accounts ceiling (st.evictConnectionByPtr C key) := by
  rw [Accounts, ← st.charge_closed key]
  refine conserves_releaseAll_bind ?_
  refine (conserves_incompleteEvents _ _ _).bind fun incomplete => ?_
  refine conserves_releaseAll_bind ?_
  refine conserves_releaseAll_bind ?_
  refine conserves_count_bind.mpr ?_
  refine (conserves_releaseMemory_bind (Nat.le_add_left _ _)).mpr ?_
  rw [Nat.add_sub_cancel]
  exact conserves_pure.mpr rfl

theorem charge_drained :
    st.drained.charge + requestBytes P ((st.waiting fun _ => true).map Prod.fst) = st.charge := by
  have emptied := Dict.total_add (fun _ conn => (Http2Conn.emptied conn).charge)
    (fun _ conn => PendingStreams.weighAll (ParsedRequest.approxBytes P)
      (Http2Conn.pendingRequests conn)) st.http2State
  simp only [Http2Conn.charge_emptied] at emptied
  have http2 : st.drained.http2Bytes = st.http2State.total fun _ conn => conn.emptied.charge := by
    rw [http2Bytes, drained, Dict.total_mapValues]
  have drained_eq : st.drained.charge =
    st.bufferBytes + 0 + st.drained.http2Bytes + st.earlyBytes := rfl
  rw [drained_eq, http2, requestBytes_eq_weigh, weigh_waiting, Dict.total_retain_true,
    Dict.total_retain_true]
  simp only [← requestBytes_eq_weigh, ← PendingQueue.accounted, charge, queuedBytes, http2Bytes]
  omega

theorem conserves_takeAllIncomplete (outcome : Str) :
    st.Accounts ceiling (st.takeAllIncomplete C outcome) := by
  rw [Accounts, ← st.charge_drained]
  refine conserves_releaseAll_bind ?_
  exact (conserves_incompleteEvents _ _ _).bind fun _ => conserves_pure.mpr rfl

end StreamState

end ApiSensor
