import ApiSensor.Stream.Chunks

/-!
# HTTP/1 chunks refused by the memory ceiling

A refused chunk leaves the parser of its direction as it is: no buffer is given up, no decoder is
reset, no direction is marked.  The gap is harmless only if there was nothing to bridge.
-/

namespace ApiSensor

open Library Library.Prog

variable {P : Platform} {C : Config} {call : Call}

namespace StreamState

/-! ## What becomes of a chunk -/

/-- Nothing of the direction is left from earlier chunks: no bytes wait in its buffer, and its
decoder is between messages. -/
def Clear (stream : StreamKey) (st : StreamState P) : Prop :=
  st.bufferOf stream = [] ∧ st.decoderOf stream = .new maxBodyCaptureBytes

/-- Nothing is left if buffer and decoder are dropped or kept. -/
theorem Clear.of_retained {stream : StreamKey} {st after : StreamState P} (clear : st.Clear stream)
    (buffers : after.buffers.get? stream = none ∨
      after.buffers.get? stream = st.buffers.get? stream)
    (decoders : after.h1Decoders.get? stream = none ∨
      after.h1Decoders.get? stream = st.h1Decoders.get? stream) : after.Clear stream := by
  refine ⟨?_, ?_⟩
  · rw [bufferOf]
    rcases buffers with gone | same
    · rw [gone]
      rfl
    · rw [same]
      exact clear.1
  · rw [decoderOf]
    rcases decoders with gone | same
    · rw [gone]
      rfl
    · rw [same]
      exact clear.2

end StreamState

/-- What a call does to the HTTP/1 parser of its direction, and what it logs about it. -/
inductive Handover (stream : StreamKey) (payload : Bytes) (st after : StreamState P) :
    List (StreamKey × Option Bytes) → Prop
  | kept : after.bufferOf stream = st.bufferOf stream →
      after.decoderOf stream = st.decoderOf stream → Handover stream payload st after []
  | cleared : after.Clear stream → Handover stream payload st after []
  | refused : after.bufferOf stream = st.bufferOf stream →
      after.decoderOf stream = st.decoderOf stream →
      Handover stream payload st after [(stream, none)]
  | fed : Handover stream payload st after [(stream, some (st.bufferOf stream ++ payload))]

namespace Handover

variable {stream : StreamKey} {payload : Bytes} {st after : StreamState P}
  {chunks : List (StreamKey × Option Bytes)}

theorem of_untouched {log : List Note} (untouched : Untouched call st log after) :
    Handover stream payload st after (handed log) := by
  rw [untouched.handed]
  refine .kept ?_ ?_
  · rw [StreamState.bufferOf, StreamState.bufferOf, untouched.buffers]
  · rw [StreamState.decoderOf, StreamState.decoderOf, untouched.h1Decoders]

/-- Only the parser of the direction matters in the state before. -/
theorem congr {other : StreamState P} (handover : Handover stream payload other after chunks)
    (buffer : other.bufferOf stream = st.bufferOf stream)
    (decoder : other.decoderOf stream = st.decoderOf stream) :
    Handover stream payload st after chunks := by
  cases handover with
  | kept same sameDecoder => exact .kept (same.trans buffer) (sameDecoder.trans decoder)
  | cleared clear => exact .cleared clear
  | refused same sameDecoder => exact .refused (same.trans buffer) (sameDecoder.trans decoder)
  | fed =>
    rw [buffer]
    exact .fed

section

variable (handover : Handover stream payload st after chunks)
include handover

/-- The call only speaks of its own direction. -/
theorem own :
    ∀ chunk ∈ chunks, chunk.1 = stream := by
  cases handover <;> simp

theorem clear (unfed : ∀ buf, (stream, some buf) ∉ chunks) (before : st.Clear stream) :
    after.Clear stream := by
  cases handover with
  | kept buffer decoder => exact ⟨buffer.trans before.1, decoder.trans before.2⟩
  | cleared clear => exact clear
  | refused buffer decoder => exact ⟨buffer.trans before.1, decoder.trans before.2⟩
  | fed => exact absurd List.mem_cons_self (unfed _)

/-- A direction is fed its buffer with the payload behind it. -/
theorem fed_eq {buf : Bytes} (member : (stream, some buf) ∈ chunks) :
    buf = st.bufferOf stream ++ payload := by
  cases handover with
  | kept => simp at member
  | cleared => simp at member
  | refused => simp at member
  | fed => simpa using member

/-- A call that reports a refused chunk feeds nothing. -/
theorem unfed_of_refused (refused : (stream, none) ∈ chunks) (buf : Bytes) :
    (stream, some buf) ∉ chunks := by
  cases handover with
  | kept => simp
  | cleared => simp
  | refused => simp
  | fed => simp at refused

end

end Handover

namespace StreamState

theorem bufferOf_insert (stream : StreamKey) (value : Bytes × Nat) (st : StreamState P) :
    ({ st with buffers := st.buffers.insert stream value } : StreamState P).bufferOf stream =
      value.1 := by
  simp [bufferOf]

theorem clear_markGap (stream : StreamKey) (nowMs : Nat) (st : StreamState P) :
    (st.markGap stream nowMs).Clear stream := by
  simp [Clear, markGap, bufferOf, decoderOf]

section

variable (payload : Bytes) (st : StreamState P)

theorem clear_cutOff : (st.cutOff call).Clear call.streamKey := by
  simp [Clear, cutOff, bufferOf, decoderOf]

theorem handover_handleHttp1 :
    Sat (st.handleHttp1 C call payload) fun log result =>
      Handover call.streamKey payload st result.1 (handed log) := by
  refine sat_reserveMemory_bind.mpr fun granted => ?_
  cases granted with
  | false =>
    refine sat_count_bind.mpr (sat_note_bind.mpr (sat_pure.mpr (.refused ?_ rfl)))
    exact bufferOf_insert call.streamKey _ (st.resume call)
  | true =>
    rw [if_pos rfl]
    unfold consume
    dsimp only
    split
    · exact sat_releaseMemory_bind.mpr (sat_count_bind.mpr
        (sat_pure.mpr (.cleared (clear_markGap _ _ _))))
    · refine sat_note_bind.mpr (sat_releaseMemory_bind.mpr ?_)
      refine (plain_collectItems _ _).bind fun log collected plain => ?_
      refine (moves_http1Messages payload collected.2 collected.1).mono fun rest result moves => ?_
      have untouched := untouched_moves moves (by decide) (by decide)
      have only : handed (.fed call.streamKey
          ((st.resume call).bufferOf call.streamKey ++ payload) :: (log ++ rest)) =
          [(call.streamKey, some (st.bufferOf call.streamKey ++ payload))] := by
        have silent : handed (log ++ rest) = [] := by
          rw [handed_append, plain.handed, untouched.handed]
          rfl
        exact congrArg _ silent
      rw [only]
      exact .fed

/-- A chunk of a truncated event is not handed to HTTP/1 behind the gap that it leaves. -/
theorem handover_dispatch :
    Sat (st.dispatch C call payload) fun log result =>
      Handover call.streamKey payload st result.1 (handed log) ∧
        (call.ev.isTruncated = true → call.streamKey ∈ st.gappedStreams →
          Untouched call st log result.1) := by
  by_cases http1 : st.route call payload = .http1
  · have guard := st.guard_route call payload
    rw [http1] at guard
    unfold dispatch
    rw [http1]
    refine (handover_handleHttp1 payload st).mono fun _ _ handover => ⟨handover, ?_⟩
    intro truncated gapped
    have whole := (guard.2.2.2.2.2.1 gapped).2
    rw [truncated] at whole
    exact absurd whole.symm Bool.false_ne_true
  · exact (untouched_dispatch payload st http1).mono
      fun _ _ untouched => ⟨.of_untouched untouched, fun _ _ => untouched⟩

theorem handover_deliver :
    Sat (st.deliver C call payload) fun log result =>
      Handover call.streamKey (st.joinPrefix call payload) st result.1 (handed log) := by
  refine sat_deliver (fun _ held _ => ?_) (fun _ _ _ => .kept rfl rfl) fun truncated _ held _ => ?_
  · exact (handover_dispatch _ { st with h2Prefix := held }).mono
      fun _ _ handover => handover.1.congr rfl rfl
  · refine (handover_dispatch _ { st.cutOff call with h2Prefix := held }).mono
      fun log result handover => ?_
    have untouched := handover.2 truncated (Finset.mem_insert_self _ _)
    have none : handed (.count .captureGaps 1 :: log) = [] := untouched.handed
    rw [none]
    exact .cleared ((clear_cutOff st).of_retained (.inr (congrArg (Dict.get? · _) untouched.buffers))
      (.inr (congrArg (Dict.get? · _) untouched.h1Decoders)))

end

/-! ## Runs -/

theorem handover_receive (env : Env) (ev : TlsEventHeader) (payload : Bytes) (key : ConnKey)
    (st : StreamState P) :
    Sat (st.receive C env ev payload key) fun log result =>
      Handover (.fromEvent ev)
        (st.joinPrefix ⟨env, ev, key, st.requestDirection C key ev payload = some ev.direction⟩
          payload)
        st result.1 (handed log) := by
  exact sat_receive (fun roles => (handover_deliver payload { st with connRoles := roles }).mono
    fun _ _ handover => handover.congr rfl rfl) (.kept rfl rfl)

/-- The payload of an event as it is dispatched: behind what was held of a possible preface. -/
def joined (C : Config) (env : Env) (ev : TlsEventHeader) (payload : Bytes) (st : StreamState P) :
    Bytes :=
  (st.admitted env ev).joinPrefix (st.arrival C env ev payload) payload

variable {st : StreamState P} {ev : TlsEventHeader} {payload : Bytes} {log : List Note}

variable {stream : StreamKey} {after : StreamState P} {env : Env} {events : List TrafficEvent}

theorem handover_event (outcome : Outcome (st.handleEvent C env ev payload) log (after, events)) :
    (after = st ∧ handed log = []) ∨
      Handover (.fromEvent ev) (st.joined C env ev payload) (st.admitted env ev) after
        (handed log) := by
  have step : Step C st ⟨.event env ev payload, log, events⟩ after := outcome
  cases step.stepped with
  | outside _ parting => exact .inl ⟨rfl, (Plain.of_parting parting).handed⟩
  | event _ _ _ _ parting receives =>
    have handover := handover_receive env ev payload (st.connKey env ev) (st.admitted env ev) _ _
      receives
    refine .inr ?_
    rw [handed_append, (Plain.of_parting parting).handed]
    exact handover

theorem Clear.swept (clear : st.Clear stream) (nowMs : Nat) :
    (st.swept nowMs).Clear stream := by
  unfold StreamState.swept
  split
  · exact clear
  · have expired := Dict.get?_retain_cases (fun _ buffer => fresh nowMs (Prod.snd buffer))
      st.buffers stream
    have trimmed := Dict.get?_retain_cases
      (fun key _ => key ∉ (st.expire nowMs).buffers.excess Prod.snd maxStreamEntries)
      (st.expire nowMs).buffers stream
    refine clear.of_retained ?_ (Dict.get?_retain_cases _ _ _)
    rcases trimmed with gone | same
    · exact .inl gone
    · exact expired.imp same.trans same.trans

theorem Clear.admitted (clear : st.Clear stream) (env : Env) (ev : TlsEventHeader) :
    (st.admitted env ev).Clear stream := by
  obtain ⟨born, same⟩ := st.bear_eq env ev
  have bears : (st.bear env ev).Clear stream := by
    rw [same]
    exact clear
  exact bears.swept env.now

theorem Clear.closed (clear : st.Clear stream) (key : ConnKey) :
    (st.closed key).Clear stream := by
  exact clear.of_retained (Dict.get?_retain_cases _ _ _) (Dict.get?_retain_cases _ _ _)

/-- A direction with nothing left when the payload is looked at stays so unless it is fed. -/
theorem clear_event (outcome : Outcome (st.handleEvent C env ev payload) log (after, events))
    (inside : inScope C env = true) (unfed : ∀ buf, .fed stream buf ∉ log)
    (arrives : (st.admitted env ev).Clear stream) : after.Clear stream := by
  obtain ⟨_, _, _, _, rfl, -, -, receives⟩ := received_of_inside inside outcome
  by_cases own : stream = .fromEvent ev
  · subst own
    have handover := handover_receive env ev payload (st.connKey env ev) (st.admitted env ev) _ _
      receives
    exact handover.clear (fun buf member => unfed buf
      (List.mem_append_right _ (fed_of_mem_handed member))) arrives
  · -- the call works on another direction
    have change := local_receive env ev payload (st.connKey env ev) true (st.admitted env ev) _ _
      receives
    exact arrives.of_retained (.inr (change.buffers stream own)) (.inr (change.h1Decoders stream own))

/-- A direction with nothing left stays so until it is fed. -/
theorem clear_step {stage : Stage} (step : Step C st stage after)
    (unfed : ∀ buf, .fed stream buf ∉ stage.log) (clear : st.Clear stream) :
    after.Clear stream := by
  have stepped := step.stepped
  cases stepped with
  | outside => exact clear
  | event env ev payload inside => exact clear_event step inside unfed (clear.admitted env ev)
  | sweep nowMs => exact clear.swept nowMs
  | close key => exact clear.closed key
  | drain => exact clear

/-- An operation that reports a refused chunk of a direction does not feed that direction. -/
theorem unfed_of_refused {stage : Stage} (step : Step C st stage after)
    (refused : .chunkRefused stream ∈ stage.log) (buf : Bytes) :
    .fed stream buf ∉ stage.log := by
  have mentioned := mem_handed_of_refused refused
  have silent : ∀ {events}, Parting stage.log events → .fed stream buf ∉ stage.log := by
    intro events parting
    rw [(Plain.of_parting parting).handed] at mentioned
    exact absurd mentioned List.not_mem_nil
  have stepped := step.stepped
  cases stepped with
  | outside _ parting => exact silent parting
  | event env ev payload =>
    rcases handover_event step with ⟨-, none⟩ | handover
    · rw [none] at mentioned
      exact absurd mentioned List.not_mem_nil
    · have own : stream = .fromEvent ev := handover.own _ mentioned
      subst own
      exact fun fed => handover.unfed_of_refused mentioned buf (mem_handed_of_fed fed)
  | sweep _ parting => exact silent parting
  | close _ parting => exact silent parting
  | drain _ parting => exact silent parting

/-- A direction with nothing left is fed the chunk alone, by a new decoder. -/
theorem fed_of_clear {buf : Bytes}
    (outcome : Outcome (st.handleEvent C env ev payload) log (after, events))
    (clear : (st.admitted env ev).Clear stream) (fed : .fed stream buf ∈ log) :
    stream = .fromEvent ev ∧ buf = st.joined C env ev payload ∧
      (st.admitted env ev).decoderOf stream = .new maxBodyCaptureBytes := by
  have mentioned := mem_handed_of_fed fed
  rcases handover_event outcome with ⟨-, none⟩ | handover
  · rw [none] at mentioned
    exact absurd mentioned List.not_mem_nil
  · have own : stream = .fromEvent ev := handover.own _ mentioned
    subst own
    refine ⟨rfl, ?_, clear.2⟩
    rw [handover.fed_eq mentioned, clear.1]
    rfl

end StreamState

/-- The first stage of a trace at which a direction is fed, the stages before it, and the buffer. -/
structure FirstFed (stream : StreamKey) (trace unfed : List (StreamState P × Stage))
    (feeding : StreamState P × Stage) (buf : Bytes) : Prop where
  split : ∃ later, trace = unfed ++ feeding :: later
  unfed : ∀ entry ∈ unfed, ∀ other, .fed stream other ∉ entry.2.log
  fed : .fed stream buf ∈ feeding.2.log

namespace StreamState

/-- While a direction has nothing left from earlier chunks, the chunk that is fed next, behind what
may be held of a preface, is all the buffer holds, and the decoder that gets it is a new one. -/
theorem fed_after_clear {stream : StreamKey} {st feeding final : StreamState P}
    {trace unfed : List (StreamState P × Stage)} {feed : Stage} {env : Env} {ev : TlsEventHeader}
    {payload buf : Bytes} (run : Run C st trace final) (nothingLeft : st.Clear stream)
    (first : FirstFed stream trace unfed (feeding, feed) buf)
    (arrival : feed.op = .event env ev payload) :
    stream = .fromEvent ev ∧ buf = feeding.joined C env ev payload ∧
      (feeding.admitted env ev).decoderOf stream = .new maxBodyCaptureBytes := by
  obtain ⟨⟨_, rfl⟩, unfed, fed⟩ := first
  obtain ⟨_, quietly, fromFeed⟩ := run.of_append
  have waits := quietly.invariant (Clear stream)
    (fun _ _ _ member step => clear_step step (unfed _ member)) nothingLeft
  cases fromFeed with
  | cons feeding _ =>
    obtain ⟨op, log, events⟩ := feed
    subst arrival
    exact fed_of_clear feeding (waits.admitted env ev) fed

theorem joined_of_unheld {env : Env} {ev : TlsEventHeader} {payload : Bytes} {st : StreamState P}
    (nothingHeld : (st.admitted env ev).h2Prefix.get? (st.connKey env ev) = none) :
    st.joined C env ev payload = payload := by
  unfold joined joinPrefix arrival
  rw [nothingHeld]
  split <;> rfl

/-- Let a chunk of a direction be refused while the direction has nothing left from earlier chunks,
and let the chunk that is fed next, with nothing held in front of it, start a message.  Then that
chunk is all the buffer holds, and the decoder that gets it is a new one. -/
theorem gap_not_bridged {stream : StreamKey} {st refusing feeding final : StreamState P}
    {earlier between later : List (StreamState P × Stage)} {refusal feed : Stage} {env : Env}
    {ev : TlsEventHeader} {payload buf : Bytes}
    (run : Run C st (earlier ++ (refusing, refusal) :: (between ++ (feeding, feed) :: later)) final)
    (refused : .chunkRefused stream ∈ refusal.log)
    (unfed : ∀ entry ∈ between, ∀ buf, .fed stream buf ∉ entry.2.log)
    (arrival : feed.op = .event env ev payload) (fed : .fed stream buf ∈ feed.log)
    (nothingLeft : refusing.Clear stream)
    (nothingHeld : (feeding.admitted env ev).h2Prefix.get? (feeding.connKey env ev) = none)
    (starts : startsHttp1Message payload = true) :
    buf = payload ∧ startsHttp1Message buf = true ∧
      (feeding.admitted env ev).decoderOf stream = .new maxBodyCaptureBytes := by
  obtain ⟨_, -, fromRefusal⟩ := run.of_append
  cases fromRefusal with
  | cons refusing rest =>
    have lost := clear_step refusing (unfed_of_refused refusing refused) nothingLeft
    obtain ⟨-, joins, fresh⟩ := fed_after_clear rest lost ⟨⟨later, rfl⟩, unfed, fed⟩ arrival
    have whole : buf = payload := joins.trans (joined_of_unheld nothingHeld)
    exact ⟨whole, by rw [whole]; exact starts, fresh⟩

/-- The direction of requests on the first connection. -/
def requestStream : StreamKey := .fromEvent (onConnection 0x1000 0)

/-- A chunk of requests larger than the ceiling of the runs below. -/
def oversized (now : Nat) : Operation :=
  .event (atTime now) (onConnection 0x1000 0) (List.replicate 1501 0x78)

/-- Two operations in a row, as a run with nothing before, between and behind them. -/
theorem run_pair (C : Config) (st : StreamState P) (first second : Operation) (counter : Nat) :
    let lost := (first.program C st).run counter
    let fed := (second.program C lost.1.1).run lost.2.1
    Run C st ([] ++ (st, ⟨first, lost.2.2, lost.1.2⟩) ::
      ([] ++ (lost.1.1, ⟨second, fed.2.2, fed.1.2⟩) :: [])) fed.1.1 :=
  run_exec C [first, second] st counter

instance (stream : StreamKey) (st : StreamState P) : Decidable (st.Clear stream) :=
  inferInstanceAs (Decidable (_ ∧ _))

theorem gap_not_bridged_between_messages :
    let request := bytes "GET /b HTTP/1.1\r\n\r\n"
    let lost := ((oversized 100).program (serverConfig 1500) (new (P := asciiPlatform))).run 0
    let fed := (lost.1.1.handleEvent (serverConfig 1500) (atTime 101) (onConnection 0x1000 0)
      request).run lost.2.1
    .fed requestStream request ∈ fed.2.2 ∧
      (lost.1.1.admitted (atTime 101) (onConnection 0x1000 0)).decoderOf requestStream =
        .new maxBodyCaptureBytes := by
  have run := run_pair (serverConfig 1500) (new (P := asciiPlatform)) (oversized 100)
    (chunk 101 0 "GET /b HTTP/1.1\r\n\r\n") 0
  dsimp only at run
  have fresh := @gap_not_bridged _ _ requestStream _ _ _ _ _ _ _ _ _ (atTime 101)
    (onConnection 0x1000 0) (bytes "GET /b HTTP/1.1\r\n\r\n")
    (bytes "GET /b HTTP/1.1\r\n\r\n") run (by decide +kernel) (by simp) rfl
  exact ⟨by decide +kernel, (fresh (by decide +kernel) (by decide +kernel) (by decide +kernel)
    (by decide +kernel)).2.2⟩

/-- A chunk is lost in the middle of a body.  The decoder goes on with the bytes behind the gap, and
the request that is queued joins both sides of it. -/
theorem body_joined_across_refused_chunk :
    let ops := [chunk 100 0 "POST /a HTTP/1.1\r\nContent-Length: 12\r\n\r\nab", oversized 101]
    let lost := exec (serverConfig 1500) ops (new (P := asciiPlatform)) 0
    let rest := chunk 102 0 "0123456789"
    let log := ((rest.program (serverConfig 1500) lost.2.1).run lost.2.2).2.2
    lost.1.getLast?.all (fun entry => .chunkRefused requestStream ∈ entry.2.log) ∧
      log.any fun entry => match entry with
        | .accepted req => req.body = bytes "ab0123456789"
        | _ => false := by
  decide +kernel

end StreamState

end ApiSensor
