import ApiSensor.Gaps.Http1

/-!
# Parser state discarded by the eviction pass

`evict_stale` drops decoders together with expired or excess buffers, and drops all gap marks once
there are too many.  It marks no gap in return, so the next chunk of the direction is taken for the
start of a message whatever it contains.
-/

namespace ApiSensor

open Library Library.Prog

variable {P : Platform} {C : Config} {call : Call}

namespace StreamState

/-! ## Marked directions -/

/-- A direction that is marked has nothing left from earlier chunks. -/
def MarkedClear (stream : StreamKey) (st : StreamState P) : Prop :=
  stream ∈ st.gappedStreams → st.Clear stream

theorem marked_collectItems (items : List Http1Item) (st : StreamState P) :
    Sat (collectItems call items st) fun _ result =>
      result.1 = st ∨ result.1 = st.markGap call.streamKey call.env.now := by
  induction items with
  | nil => exact sat_pure.mpr (.inl rfl)
  | cons item items induction =>
    cases item with
    | message m =>
      exact sat_bind.mpr fun _ _ _ => induction.bind fun _ _ same => sat_pure.mpr same
    | invalid reason =>
      exact sat_count_bind.mpr (sat_releaseMemory_bind.mpr (sat_pure.mpr (.inr rfl)))

section

variable (env : Env) (ev : TlsEventHeader) (payload : Bytes) (key : ConnKey) (st : StreamState P)

theorem marked_handleHttp1 :
    Sat (st.handleHttp1 C call payload) fun _ result =>
      result.1.MarkedClear call.streamKey := by
  have resumed : call.streamKey ∉ (st.resume call).gappedStreams := Finset.notMem_erase _ _
  refine sat_reserveMemory_bind.mpr fun granted => ?_
  cases granted with
  | false =>
    exact sat_count_bind.mpr (sat_note_bind.mpr (sat_pure.mpr fun marked => absurd marked resumed))
  | true =>
    rw [if_pos rfl]
    unfold consume
    dsimp only
    split
    · exact sat_releaseMemory_bind.mpr (sat_count_bind.mpr
        (sat_pure.mpr fun _ => clear_markGap _ _ _))
    · refine sat_note_bind.mpr (sat_releaseMemory_bind.mpr ?_)
      refine (marked_collectItems _ _).bind fun _ collected items => ?_
      refine (moves_http1Messages payload collected.2 collected.1).mono
        fun log result moves marked => ?_
      have same := untouched_moves moves (by decide) (by decide)
      have marks : result.1.gappedStreams = _ := moves.updates.same .gappedStreams (by decide)
      rw [marks] at marked
      rcases items with kept | gap
      · rw [kept] at marked
        exact absurd marked resumed
      · have clear : collected.1.Clear call.streamKey := by
          rw [gap]
          exact clear_markGap _ _ _
        exact clear.of_retained (.inr (congrArg (Dict.get? · _) same.buffers))
          (.inr (congrArg (Dict.get? · _) same.h1Decoders))

theorem marked_dispatch (before : st.MarkedClear call.streamKey) :
    Sat (st.dispatch C call payload) fun _ result => result.1.MarkedClear call.streamKey := by
  -- any other handler leaves marks, buffers and decoders alone
  have untouched : ∀ {log : List Note} {after : StreamState P}, Untouched call st log after →
      after.gappedStreams = st.gappedStreams → after.MarkedClear call.streamKey := by
    intro log after same marks marked
    exact (before (marks ▸ marked)).of_retained (.inr (congrArg (Dict.get? · _) same.buffers))
      (.inr (congrArg (Dict.get? · _) same.h1Decoders))
  by_cases http1 : st.route call payload = .http1
  · unfold dispatch
    rw [http1]
    exact marked_handleHttp1 payload st
  · refine ((untouched_dispatch payload st http1).and (updates_dispatch payload st)).mono
      fun _ result both => untouched both.1 (both.2.same .gappedStreams ?_)
    cases routed : st.route call payload <;> first | exact absurd routed http1 | decide

theorem marked_deliver (before : st.MarkedClear call.streamKey) :
    Sat (st.deliver C call payload) fun _ result => result.1.MarkedClear call.streamKey := by
  exact sat_deliver (fun _ held _ => marked_dispatch _ { st with h2Prefix := held } before)
    (fun _ _ _ => before)
    fun _ _ held _ => marked_dispatch _ { st.cutOff call with h2Prefix := held }
      fun _ => clear_cutOff st

theorem marked_receive (before : st.MarkedClear (.fromEvent ev)) :
    Sat (st.receive C env ev payload key) fun _ result =>
      result.1.MarkedClear (.fromEvent ev) := by
  exact sat_receive (fun roles => marked_deliver payload { st with connRoles := roles } before) before

end

variable {st : StreamState P} {stream : StreamKey}

theorem MarkedClear.swept (before : st.MarkedClear stream) (nowMs : Nat) :
    (st.swept nowMs).MarkedClear stream := by
  intro marked
  refine Clear.swept (before ?_) nowMs
  unfold StreamState.swept at marked
  split at marked
  · exact marked
  · have reset : (st.evicted nowMs).gappedStreams =
        if maxStreamEntries < st.gappedStreams.card then ∅ else st.gappedStreams := rfl
    rw [reset] at marked
    split at marked
    · exact absurd marked (Finset.notMem_empty _)
    · exact marked

theorem MarkedClear.admitted (before : st.MarkedClear stream) (env : Env) (ev : TlsEventHeader) :
    (st.admitted env ev).MarkedClear stream := by
  obtain ⟨born, same⟩ := st.bear_eq env ev
  have bears : (st.bear env ev).MarkedClear stream := by
    rw [same]
    exact before
  exact bears.swept env.now

theorem marked_step {after : StreamState P} {stage : Stage} (step : Step C st stage after)
    (before : st.MarkedClear stream) :
    after.MarkedClear stream := by
  cases step.stepped with
  | outside => exact before
  | event env ev payload _ _ receives =>
    have arrives := before.admitted env ev
    by_cases own : stream = .fromEvent ev
    · subst own
      exact marked_receive env ev payload _ _ arrives _ _ receives
    · have change := local_receive env ev payload (st.connKey env ev) true (st.admitted env ev) _ _
        receives
      intro marked
      have clear := arrives ((change.gappedStreams stream own).mp marked)
      exact clear.of_retained (.inr (change.buffers stream own))
        (.inr (change.h1Decoders stream own))
  | sweep nowMs => exact before.swept nowMs
  | close closing =>
    exact fun marked => (before (Finset.filter_subset _ _ marked)).closed closing
  | drain => exact before

/-- In every state that is reached, marked directions have nothing left. -/
theorem marked_run {final : StreamState P} {trace : List (StreamState P × Stage)}
    (run : Run C new trace final) (stream : StreamKey) : final.MarkedClear stream :=
  run.invariant (MarkedClear stream) (fun _ _ _ _ step => marked_step step)
    fun marked => absurd marked (Finset.notMem_empty _)

/-! ## Chunks fed to a marked direction -/

theorem starts_dispatch (payload : Bytes) (st : StreamState P) :
    Sat (st.dispatch C call payload) fun log _ => handed log ≠ [] →
      call.streamKey ∈ st.gappedStreams → startsHttp1Message payload = true := by
  by_cases http1 : st.route call payload = .http1
  · have guard := st.guard_route call payload
    rw [http1] at guard
    exact fun _ _ _ _ marked => (guard.2.2.2.2.2.1 marked).1
  · exact (untouched_dispatch payload st http1).mono
      fun _ _ untouched fed => absurd untouched.handed fed

theorem starts_deliver (payload : Bytes) (st : StreamState P) :
    Sat (st.deliver C call payload) fun log _ => handed log ≠ [] →
      call.streamKey ∈ st.gappedStreams →
        startsHttp1Message (st.joinPrefix call payload) = true := by
  exact sat_deliver (fun _ held _ => starts_dispatch _ { st with h2Prefix := held })
    (fun _ _ _ fed => absurd rfl fed)
    fun _ _ held _ => (starts_dispatch _ { st.cutOff call with h2Prefix := held }).mono
      fun _ _ starts fed _ => starts fed (Finset.mem_insert_self _ _)

/-- A marked direction is only fed a chunk that starts a message. -/
theorem starts_of_marked {env : Env} {ev : TlsEventHeader} {payload buf : Bytes}
    {after : StreamState P} {log : List Note} {events : List TrafficEvent}
    (outcome : Outcome (st.handleEvent C env ev payload) log (after, events))
    (fed : .fed (.fromEvent ev) buf ∈ log)
    (marked : .fromEvent ev ∈ (st.admitted env ev).gappedStreams) :
    startsHttp1Message (st.joined C env ev payload) = true := by
  have mentioned := mem_handed_of_fed fed
  have step : Step C st ⟨.event env ev payload, log, events⟩ after := outcome
  cases step.stepped with
  | outside _ parting =>
    rw [(Plain.of_parting parting).handed] at mentioned
    exact absurd mentioned List.not_mem_nil
  | @event _ _ _ lead received _ decoded _ _ parting receives =>
    have inReceived : handed received ≠ [] := by
      intro none
      simp [(Plain.of_parting parting).handed, none] at mentioned
    have starts : Sat ((st.admitted env ev).receive C env ev payload (st.connKey env ev))
        fun log _ => handed log ≠ [] → startsHttp1Message (st.joined C env ev payload) = true :=
      sat_receive (fun roles =>
        (starts_deliver payload { st.admitted env ev with connRoles := roles }).mono
          fun _ _ starts fed => starts fed marked) fun fed => absurd rfl fed
    exact starts _ _ receives inReceived

end StreamState

/-! ## Runs -/

/-- The time of the eviction pass that an operation makes, if it makes one. -/
def Operation.passAt (C : Config) : Operation → Option Nat
  | .event env _ _ => if StreamState.inScope C env then some env.now else none
  | .sweep nowMs => some nowMs
  | _ => none

namespace StreamState

/-- A pass at this time discards the decoder of a direction in the middle of a message, or the mark
of a direction. -/
def Discards (stream : StreamKey) (nowMs : Nat) (st : StreamState P) : Prop :=
  (¬ st.Clear stream ∧ st.h1Decoders.contains stream = true ∧
      (st.swept nowMs).h1Decoders.contains stream = false) ∨
    stream ∈ st.gappedStreams ∧ stream ∉ (st.swept nowMs).gappedStreams

variable {stream : StreamKey} {st : StreamState P}

/-- The buffer of a direction whose decoder is discarded is gone as well. -/
theorem clear_of_discarded {nowMs : Nat} (marked : st.MarkedClear stream)
    (discards : st.Discards stream nowMs) :
    (st.swept nowMs).Clear stream := by
  rcases discards with ⟨-, present, gone⟩ | ⟨member, -⟩
  · unfold swept at gone ⊢
    split at gone
    · rw [present] at gone
      cases gone
    · rename_i due
      rw [if_neg due]
      have unbuffered : (st.expire nowMs).trim.buffers.contains stream = false := by
        obtain ⟨decoder, found⟩ := Option.isSome_iff_exists.mp present
        have retained : (st.evicted nowMs).h1Decoders.get? stream =
            (st.h1Decoders.get? stream).filter fun _ =>
              (st.expire nowMs).trim.buffers.contains stream := Dict.get?_retain _ _ _
        rw [Dict.contains, retained, found, Option.filter_some] at gone
        by_contra buffered
        rw [Bool.not_eq_false] at buffered
        rw [if_pos buffered] at gone
        cases gone
      have emptied : (st.evicted nowMs).buffers.get? stream = none :=
        Option.not_isSome_iff_eq_none.mp (Bool.eq_false_iff.mp unbuffered)
      refine ⟨?_, ?_⟩
      · rw [bufferOf, emptied]
        rfl
      · rw [decoderOf, Option.not_isSome_iff_eq_none.mp (Bool.eq_false_iff.mp gone)]
        rfl
  · exact (marked member).swept nowMs

theorem clear_admitted_of_discarded {env : Env} (ev : TlsEventHeader)
    (marked : st.MarkedClear stream) (discards : st.Discards stream env.now) :
    (st.admitted env ev).Clear stream := by
  obtain ⟨born, same⟩ := st.bear_eq env ev
  have bears : (st.bear env ev).MarkedClear stream := by
    rw [same]
    exact marked
  have discarding : (st.bear env ev).Discards stream env.now := by
    rw [same]
    unfold Discards swept at discards ⊢
    split at discards
    · rename_i early
      rw [if_pos early]
      exact discards
    · rename_i due
      rw [if_neg due]
      exact discards
  exact clear_of_discarded bears discarding

/-- The call that discards the state of a direction leaves nothing of it, unless it feeds it. -/
theorem clear_of_pass {nowMs : Nat} {after : StreamState P} {stage : Stage}
    (step : Step C st stage after) (due : stage.op.passAt C = some nowMs)
    (marked : st.MarkedClear stream) (discards : st.Discards stream nowMs)
    (unfed : ∀ buf, .fed stream buf ∉ stage.log) : after.Clear stream := by
  obtain ⟨op, log, events⟩ := stage
  cases op with
  | event env ev payload =>
    simp only [Operation.passAt] at due
    split at due
    · rename_i inside
      cases due
      exact clear_event step inside unfed (clear_admitted_of_discarded ev marked discards)
    · cases due
  | sweep sweptMs =>
    cases due
    rw [show after = st.swept nowMs from (sat_evictStale C nowMs st _ _ step).1]
    exact clear_of_discarded marked discards
  | close key => cases due
  | drain outcome => cases due

/-- Let an eviction pass discard the decoder of a direction in the middle of a message, or its mark.
If the chunk that the direction is fed first from then on, in the same call or later, finds the
direction marked or starts a message, then it does start a message, it is all the buffer holds, and
the decoder that gets it is a new one. -/
theorem discarded_not_bridged {stream : StreamKey} {nowMs : Nat} {passing final : StreamState P}
    {earlier later : List (StreamState P × Stage)} {pass : Stage}
    (run : Run C new (earlier ++ (passing, pass) :: later) final)
    (due : pass.op.passAt C = some nowMs) (discards : passing.Discards stream nowMs)
    (starts : ∀ unfed feeding feed buf env ev payload,
      FirstFed stream ((passing, pass) :: later) unfed (feeding, feed) buf →
      feed.op = .event env ev payload →
      stream ∈ (feeding.admitted env ev).gappedStreams ∨
        startsHttp1Message (feeding.joined C env ev payload) = true) :
    ∀ unfed feeding feed buf env ev payload,
      FirstFed stream ((passing, pass) :: later) unfed (feeding, feed) buf →
      feed.op = .event env ev payload →
      buf = feeding.joined C env ev payload ∧ startsHttp1Message buf = true ∧
        (feeding.admitted env ev).decoderOf stream = .new maxBodyCaptureBytes := by
  intro unfed feeding feed buf env ev payload first arrival
  obtain ⟨_, reaches, fromPass⟩ := run.of_append
  cases fromPass with
  | cons step rest =>
    have marked := marked_run reaches stream
    -- the chunk is fed by a direction that has nothing left
    have alone : stream = .fromEvent ev ∧ buf = feeding.joined C env ev payload ∧
        (feeding.admitted env ev).decoderOf stream = .new maxBodyCaptureBytes := by
      obtain ⟨⟨more, split⟩, quiet, fed⟩ := first
      cases unfed with
      | nil =>
        cases split
        obtain ⟨op, log, events⟩ := pass
        dsimp only at arrival
        subst arrival
        simp only [Operation.passAt] at due
        split at due
        · cases due
          exact fed_of_clear step (clear_admitted_of_discarded ev marked discards) fed
        · cases due
      | cons entry unfed =>
        cases split
        obtain ⟨silent, quiet⟩ := List.forall_mem_cons.mp quiet
        exact fed_after_clear rest (clear_of_pass step due marked discards silent)
          ⟨⟨more, rfl⟩, quiet, fed⟩ arrival
    obtain ⟨own, joins, fresh⟩ := alone
    refine ⟨joins, ?_, fresh⟩
    rw [joins]
    rcases starts _ _ _ _ _ _ _ first arrival with gapped | starting
    · obtain ⟨more, split⟩ := first.split
      have listed : (feeding, feed) ∈ (passing, pass) :: later := by
        rw [split]
        exact List.mem_append_right _ List.mem_cons_self
      obtain ⟨_, feeds⟩ := run.exists_step (List.mem_append_right _ listed)
      obtain ⟨op, log, events⟩ := feed
      subst arrival own
      exact starts_of_marked feeds first.fed gapped
    · exact starting

/-- The head of a request whose body does not arrive. -/
def interrupted : (StreamState asciiPlatform × List TrafficEvent) × Nat × List Note :=
  ((chunk 100 0 "POST /a HTTP/1.1\r\nContent-Length: 99\r\n\r\n").program (serverConfig 1500)
    new).run 0

/-- A sweep after the time to live of its buffer. -/
def interruptedSwept : (StreamState asciiPlatform × List TrafficEvent) × Nat × List Note :=
  ((Operation.sweep 1000000).program (serverConfig 1500) interrupted.1.1).run interrupted.2.1

/-- A chunk that starts a request. -/
def interruptedResumed : (StreamState asciiPlatform × List TrafficEvent) × Nat × List Note :=
  ((chunk 1000001 0 "GET /b HTTP/1.1\r\n\r\n").program (serverConfig 1500)
    interruptedSwept.1.1).run interruptedSwept.2.1

instance (stream : StreamKey) (nowMs : Nat) (st : StreamState P) :
    Decidable (st.Discards stream nowMs) :=
  inferInstanceAs (Decidable (_ ∨ _))

theorem discarded_not_bridged_at_request :
    interrupted.1.1.Discards requestStream 1000000 ∧
      .fed requestStream (bytes "GET /b HTTP/1.1\r\n\r\n") ∈ interruptedResumed.2.2 ∧
      (interruptedSwept.1.1.admitted (atTime 1000001) (onConnection 0x1000 0)).decoderOf
        requestStream = .new maxBodyCaptureBytes := by
  have run : Run (serverConfig 1500) new
      ([(new, ⟨chunk 100 0 "POST /a HTTP/1.1\r\nContent-Length: 99\r\n\r\n", interrupted.2.2,
          interrupted.1.2⟩)] ++
        (interrupted.1.1, ⟨.sweep 1000000, interruptedSwept.2.2, interruptedSwept.1.2⟩) ::
          [(interruptedSwept.1.1, ⟨chunk 1000001 0 "GET /b HTTP/1.1\r\n\r\n",
            interruptedResumed.2.2, interruptedResumed.1.2⟩)]) interruptedResumed.1.1 :=
    run_exec (serverConfig 1500)
      [chunk 100 0 "POST /a HTTP/1.1\r\nContent-Length: 99\r\n\r\n", .sweep 1000000,
        chunk 1000001 0 "GET /b HTTP/1.1\r\n\r\n"] new 0
  have discards : interrupted.1.1.Discards requestStream 1000000 := by decide +kernel
  have fed : .fed requestStream (bytes "GET /b HTTP/1.1\r\n\r\n") ∈ interruptedResumed.2.2 := by
    decide +kernel
  have silent : ∀ buf, .fed requestStream buf ∉ interruptedSwept.2.2 := fun buf logged => by
    have plain := Plain.of_parting (sat_evictStale (serverConfig 1500) 1000000 interrupted.1.1 _ _
      (outcome_run (interrupted.1.1.evictStale (serverConfig 1500) 1000000) interrupted.2.1)).2
    have mentioned := mem_handed_of_fed logged
    rw [show handed interruptedSwept.2.2 = [] from plain.handed] at mentioned
    exact absurd mentioned List.not_mem_nil
  have resumes := discarded_not_bridged run rfl discards ?_
  · refine ⟨discards, fed, (resumes [_] _ _ _ _ _ _ ⟨⟨[], rfl⟩, ?_, fed⟩ rfl).2.2⟩
    simpa using silent
  · intro unfed feeding feed buf env ev payload first arrival
    obtain ⟨more, split⟩ := first.split
    cases unfed with
    | nil =>
      cases split
      cases arrival
    | cons entry unfed =>
      cases unfed with
      | nil =>
        cases split
        cases arrival
        exact .inr (by decide +kernel)
      | cons other unfed => simp at split

/-- The decoder of a request is discarded while its body is awaited.  Two chunks of the body,
neither of which starts a message, are then decoded as a request of its own. -/
theorem body_decoded_after_sweep :
    let body := [chunk 1000001 0 "GE", chunk 1000002 0 "T /admin HTTP/1.1\r\n\r\n"]
    let served := exec (serverConfig 1500) body interruptedSwept.1.1 interruptedSwept.2.1
    interrupted.1.1.Discards requestStream 1000000 ∧
      startsHttp1Message (bytes "GE") = false ∧
      startsHttp1Message (bytes "T /admin HTTP/1.1\r\n\r\n") = false ∧
      served.1.any fun entry => entry.2.log.any fun logged => match logged with
        | .accepted req => req.path = str "/admin"
        | _ => false := by
  decide +kernel

end StreamState

end ApiSensor
