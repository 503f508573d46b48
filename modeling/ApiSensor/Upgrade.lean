import ApiSensor.Stream.Chunks

/-!
# WebSocket upgrades

`handle_event` enters a connection in `ws_connections` as soon as a final response carries the
header `Upgrade: websocket`, before it looks for the request that the response answers and whatever
its status is.  From then on the connection is not parsed as HTTP any more.
-/

namespace ApiSensor

open Library Library.Prog

variable {P : Platform} {C : Config} {call : Call}

/-- The messages that are collected from decoder items. -/
def itemMessages : List Http1Item → List HttpMessage
  | [] => []
  | .message m :: items => m.msg :: itemMessages items
  | .invalid _ :: _ => []

/-- Every final response that asks for WebSocket is a 101 and finds a request waiting.  Each final
response takes a request off the queue. -/
def upgradesEarned (P : Platform) : List ParsedRequest → List HttpMessage → Bool
  | _, [] => true
  | waiting, .request _ :: msgs => upgradesEarned P waiting msgs
  | waiting, .response resp :: msgs =>
    if StreamState.isFinal resp then
      let usable := waiting.dropWhile ParsedRequest.unusable
      (!StreamState.upgradesToWebSocket P resp || resp.statusCode = 101 && !usable.isEmpty) &&
        upgradesEarned P usable.tail msgs
    else upgradesEarned P waiting msgs

/-! ## The message loop -/

theorem PendingQueue.front_popUsableFrom (items : List ParsedRequest) (bytes : Nat)
    (accounted : bytes = requestBytes P items) :
    Sat (popUsableFrom items bytes accounted) fun _ result =>
      result.1 = (items.dropWhile ParsedRequest.unusable).head? ∧
        result.2.items = (items.dropWhile ParsedRequest.unusable).tail := by
  induction items generalizing bytes with
  | nil => exact sat_pure.mpr ⟨rfl, rfl⟩
  | cons req rest induction =>
    unfold popUsableFrom
    refine sat_releaseMemory_bind.mpr (sat_ite.mpr ⟨fun usable => ?_, fun unusable => ?_⟩)
    · have kept : ¬ req.unusable = true := by simp [ParsedRequest.unusable, usable]
      rw [List.dropWhile_cons_of_neg kept]
      exact sat_pure.mpr ⟨rfl, rfl⟩
    · have passed : req.unusable = true := by simpa [ParsedRequest.unusable] using unusable
      rw [List.dropWhile_cons_of_pos passed]
      exact induction _ _

namespace StreamState

/-- The requests of a connection from the first usable one on. -/
def usableQueue (key : ConnKey) (st : StreamState P) : List ParsedRequest :=
  (st.queue key).items.dropWhile ParsedRequest.unusable

variable {st : StreamState P} {key : ConnKey}

theorem mem_queue_of_usable {req : ParsedRequest} (member : req ∈ st.usableQueue key) :
    req ∈ (st.queue key).items :=
  (List.dropWhile_suffix _).subset member

theorem front_popRequest (key : ConnKey) (st : StreamState P) :
    Sat (st.popRequest key) fun _ result =>
      result.1 = (st.usableQueue key).head? ∧ (result.2.queue key).items = (st.usableQueue key).tail ∧
        result.2.wsConnections = st.wsConnections := by
  unfold popRequest
  refine (PendingQueue.front_popUsableFrom _ _ (st.queue key).accounted).bind fun _ popped front => ?_
  refine sat_pure.mpr ⟨front.1, ?_, rfl⟩
  rw [queue_insert]
  exact front.2

/-- A final response takes the first usable request, and is paired with it. -/
theorem answers_http1Response (server : call.isRequestDir = false) (payload : Bytes)
    (resp : HttpResponseParsed) (final : isFinal resp = true) (st : StreamState P) :
    Sat (st.http1Response C call payload resp) fun _ result =>
      (result.1.queue call.key).items = (st.usableQueue call.key).tail ∧
        result.1.wsConnections = (st.noteUpgrade call resp).wsConnections ∧
        result.2 = ((st.usableQueue call.key).head?.map fun request =>
          http1Event P C call.env.now payload request resp).toList := by
  have noted : (st.noteUpgrade call resp).usableQueue call.key = st.usableQueue call.key := by
    unfold noteUpgrade
    split <;> rfl
  unfold http1Response
  rw [server, final]
  refine sat_note_bind.mpr ((front_popRequest _ _).bind ?_)
  rintro log ⟨request, after⟩ ⟨front, rest, marks⟩
  rw [noted] at front rest
  rw [← front]
  cases request with
  | none => exact sat_count_bind.mpr (sat_pure.mpr ⟨rest, marks, rfl⟩)
  | some request => exact sat_pure.mpr ⟨rest, marks, rfl⟩

/-- A 101 response of the connection was paired with a request that waited in its queue. -/
def Switches (key : ConnKey) (st : StreamState P) (events : List TrafficEvent) : Prop :=
  ∃ event ∈ events, event.response.statusCode = 101 ∧ event.request ∈ (st.queue key).items

/-- A response that asks for WebSocket and earns it is paired with a waiting request. -/
theorem switches_of_earned {resp : HttpResponseParsed} {payload : Bytes}
    {events : List TrafficEvent} (earned : (!upgradesToWebSocket P resp ||
      resp.statusCode = 101 && !(st.usableQueue call.key).isEmpty) = true)
    (paired : events = ((st.usableQueue call.key).head?.map fun request =>
      http1Event P C call.env.now payload request resp).toList)
    (member : call.key ∈ (st.noteUpgrade call resp).wsConnections) :
    call.key ∈ st.wsConnections ∨ st.Switches call.key events := by
  unfold noteUpgrade at member
  split at member
  · rename_i asks
    rw [asks, Bool.not_true, Bool.false_or, Bool.and_eq_true, decide_eq_true_eq] at earned
    obtain ⟨switching, nonempty⟩ := earned
    cases found : st.usableQueue call.key with
    | nil => simp [found] at nonempty
    | cons request rest =>
      have queued : request ∈ st.usableQueue call.key := by simp [found]
      rw [found] at paired
      refine .inr ⟨_, by rw [paired]; exact List.mem_singleton_self _, switching, ?_⟩
      exact mem_queue_of_usable queued
  · exact .inl member

/-- The message loop enters a connection in `ws_connections` only for a paired 101. -/
theorem switches_http1Messages (server : call.isRequestDir = false) (payload : Bytes)
    (msgs : List HttpMessage) (st : StreamState P)
    (earned : upgradesEarned P (st.queue call.key).items msgs = true) :
    Sat (http1Messages C call payload msgs st) fun _ result =>
      call.key ∈ result.1.wsConnections →
        call.key ∈ st.wsConnections ∨ st.Switches call.key result.2 := by
  induction msgs generalizing st with
  | nil => exact sat_pure.mpr .inl
  | cons msg msgs induction =>
    -- a message that is passed over leaves the loop where it was
    have skips : upgradesEarned P (st.queue call.key).items msgs = true →
        st.http1Message C call payload msg = pure (st, []) →
        Sat (http1Messages C call payload (msg :: msgs) st) fun _ result =>
          call.key ∈ result.1.wsConnections →
            call.key ∈ st.wsConnections ∨ st.Switches call.key result.2 := by
      intro rest ignored
      unfold http1Messages
      rw [ignored]
      exact (induction st rest).bind fun _ _ later => sat_pure.mpr later
    cases msg with
    | request req =>
      refine skips earned ?_
      simp only [http1Message, http1Request]
      rw [server]
      rfl
    | response resp =>
      cases final : isFinal resp with
      | false =>
        rw [upgradesEarned, final] at earned
        refine skips earned ?_
        simp only [http1Message, http1Response]
        rw [final, Bool.not_false, Bool.or_true]
        rfl
      | true =>
        rw [upgradesEarned, final, if_pos rfl, Bool.and_eq_true] at earned
        obtain ⟨now, later⟩ := earned
        unfold http1Messages
        refine (answers_http1Response server payload resp final st).bind ?_
        rintro _ ⟨after, events⟩ ⟨rest, marks, paired⟩
        dsimp only at rest marks paired
        have remaining : upgradesEarned P (after.queue call.key).items msgs = true := by
          rw [rest]
          exact later
        refine (induction after remaining).bind fun _ result more => sat_pure.mpr ?_
        intro member
        rcases more member with before | ⟨event, emitted, switching, queued⟩
        · rw [marks] at before
          refine (switches_of_earned now paired before).imp_right ?_
          rintro ⟨event, emitted, switching, queued⟩
          exact ⟨event, List.mem_append_left _ emitted, switching, queued⟩
        · rw [rest] at queued
          exact .inr ⟨event, List.mem_append_right _ emitted, switching,
            mem_queue_of_usable (List.mem_of_mem_tail queued)⟩

theorem messages_collectItems (items : List Http1Item) (st : StreamState P) :
    Sat (collectItems call items st) fun _ result =>
      result.2 = itemMessages items ∧ result.1.pending = st.pending ∧
        result.1.wsConnections = st.wsConnections := by
  induction items with
  | nil => exact sat_pure.mpr ⟨rfl, rfl, rfl⟩
  | cons item items induction =>
    cases item with
    | message m =>
      refine sat_bind.mpr fun _ _ _ => induction.bind fun _ result collected => ?_
      exact sat_pure.mpr ⟨congrArg _ collected.1, collected.2⟩
    | invalid reason =>
      exact sat_count_bind.mpr (sat_releaseMemory_bind.mpr (sat_pure.mpr ⟨rfl, rfl, rfl⟩))

theorem switches_handleHttp1 (server : call.isRequestDir = false) (payload : Bytes)
    (st : StreamState P)
    (earned : upgradesEarned P (st.queue call.key).items
      (itemMessages (st.decode call payload).2.2) = true) :
    Sat (st.handleHttp1 C call payload) fun _ result =>
      call.key ∈ result.1.wsConnections →
        call.key ∈ st.wsConnections ∨ st.Switches call.key result.2 := by
  refine sat_reserveMemory_bind.mpr fun granted => ?_
  cases granted with
  | false => exact sat_count_bind.mpr (sat_note_bind.mpr (sat_pure.mpr .inl))
  | true =>
    rw [if_pos rfl]
    unfold consume
    dsimp only
    split
    · exact sat_releaseMemory_bind.mpr (sat_count_bind.mpr (sat_pure.mpr .inl))
    · refine sat_note_bind.mpr (sat_releaseMemory_bind.mpr ?_)
      refine (messages_collectItems _ _).bind ?_
      rintro _ ⟨after, msgs⟩ ⟨collected, pending, marks⟩
      dsimp only at collected pending marks
      have queue : after.queue call.key = st.queue call.key := by
        rw [StreamState.queue, pending]
        rfl
      have waiting : upgradesEarned P (after.queue call.key).items msgs = true := by
        rw [queue, collected]
        exact earned
      refine (switches_http1Messages server payload msgs after waiting).mono
        fun _ result switches member => ?_
      refine (switches member).imp (fun before => ?_) ?_
      · rw [marks] at before
        exact before
      · rintro ⟨event, emitted, switching, queued⟩
        exact ⟨event, emitted, switching, queue ▸ queued⟩

/-! ## One call -/

/-- A request that is decoded marks no upgrade. -/
theorem upgrades_http1Messages (client : call.isRequestDir = true) (payload : Bytes)
    (msgs : List HttpMessage) (st : StreamState P) :
    Sat (http1Messages C call payload msgs st) fun _ result =>
      result.1.wsConnections = st.wsConnections := by
  induction msgs generalizing st with
  | nil => exact sat_pure.mpr rfl
  | cons msg msgs induction =>
    have first : Sat (st.http1Message C call payload msg) fun _ result =>
        result.1.wsConnections = st.wsConnections := by
      cases msg with
      | request req =>
        simp only [http1Message, http1Request]
        split
        · exact (updates_pushRequest _ rfl st).bind fun _ _ changes =>
            sat_pure.mpr (changes.same .wsConnections (by decide))
        · exact sat_pure.mpr rfl
      | response resp =>
        simp only [http1Message, http1Response]
        rw [client, Bool.true_or]
        exact sat_pure.mpr rfl
    refine first.bind fun _ result same => ?_
    exact (induction result.1).bind fun _ rest more => sat_pure.mpr (more.trans same)

theorem upgrades_handleHttp1 (client : call.isRequestDir = true) (payload : Bytes)
    (st : StreamState P) :
    Sat (st.handleHttp1 C call payload) fun _ result =>
      result.1.wsConnections = st.wsConnections := by
  refine sat_reserveMemory_bind.mpr fun granted => ?_
  cases granted with
  | false => exact sat_count_bind.mpr (sat_note_bind.mpr (sat_pure.mpr rfl))
  | true =>
    rw [if_pos rfl]
    unfold consume
    dsimp only
    split
    · exact sat_releaseMemory_bind.mpr (sat_count_bind.mpr (sat_pure.mpr rfl))
    · refine sat_note_bind.mpr (sat_releaseMemory_bind.mpr ?_)
      refine (messages_collectItems _ _).bind fun _ collected same => ?_
      exact (upgrades_http1Messages client payload collected.2 collected.1).mono
        fun _ _ more => more.trans same.2.2

/-- The upgrades among the responses of a chunk are earned. -/
def EarnsUpgrades (call : Call) (payload : Bytes) (st : StreamState P) : Prop :=
  call.isRequestDir = false → st.route call payload = .http1 →
    upgradesEarned P (st.queue call.key).items (itemMessages (st.decode call payload).2.2) = true

section

variable (env : Env) (ev : TlsEventHeader) (payload : Bytes) (key : ConnKey) (st : StreamState P)

theorem switches_dispatch (earned : st.EarnsUpgrades call payload) :
    Sat (st.dispatch C call payload) fun _ result =>
      call.key ∈ result.1.wsConnections →
        call.key ∈ st.wsConnections ∨
          call.isRequestDir = false ∧ st.Switches call.key result.2 := by
  have stays : ∀ {program : Act (StreamState P × List TrafficEvent)},
      (Sat program fun _ result => result.1.wsConnections = st.wsConnections) →
      Sat program fun _ result => call.key ∈ result.1.wsConnections →
        call.key ∈ st.wsConnections ∨
          call.isRequestDir = false ∧ st.Switches call.key result.2 :=
    fun sat => sat.mono fun _ _ same member => .inl (same ▸ member)
  by_cases http1 : st.route call payload = .http1
  · unfold dispatch
    rw [http1]
    cases server : call.isRequestDir with
    | true => exact server ▸ stays (upgrades_handleHttp1 server payload st)
    | false =>
      refine (switches_handleHttp1 server payload st (earned server http1)).mono
        fun _ _ switches member => ?_
      exact (switches member).imp_right fun switched => ⟨rfl, switched⟩
  · refine stays ((updates_dispatch payload st).mono fun _ _ changes => ?_)
    refine changes.same .wsConnections ?_
    cases routed : st.route call payload <;> first | exact absurd routed http1 | decide

theorem switches_deliver (earned : st.EarnsUpgrades call payload) :
    Sat (st.deliver C call payload) fun _ result =>
      call.key ∈ result.1.wsConnections →
        call.key ∈ st.wsConnections ∨
          call.isRequestDir = false ∧ st.Switches call.key result.2 := by
  -- taking a held prefix changes neither the marks nor the queue
  refine sat_deliver (fun _ held same => ?_) (fun _ _ _ => .inl) fun truncated _ held same => ?_
  · refine (switches_dispatch _ _ fun server => ?_).mono fun _ _ switches => switches
    have kept : { st with h2Prefix := held } = st := by
      rw [← same, takePrefix, server]
      rfl
    rw [kept, joinPrefix, server]
    exact earned server
  · refine (switches_dispatch _ _ fun _ http1 => ?_).mono fun _ _ switches => switches
    -- the direction is marked, so the chunk is not handed to HTTP/1
    have guard := guard_route call (st.joinPrefix call payload) { st.cutOff call with h2Prefix := held }
    rw [http1] at guard
    have whole := (guard.2.2.2.2.2.1 (Finset.mem_insert_self _ _)).2
    rw [truncated] at whole
    exact absurd whole Bool.true_eq_false.mp

theorem switches_receive (earned : st.EarnsUpgrades
      ⟨env, ev, key, st.requestDirection C key ev payload = some ev.direction⟩ payload) :
    Sat (st.receive C env ev payload key) fun _ result =>
      key ∈ result.1.wsConnections →
        key ∈ st.wsConnections ∨
          st.requestDirection C key ev payload ≠ some ev.direction ∧ st.Switches key result.2 := by
  refine sat_receive (fun roles => ?_) .inl
  refine (switches_deliver payload { st with connRoles := roles } earned).mono
    fun _ result switches member => ?_
  exact (switches member).imp_right fun ⟨server, switched⟩ => ⟨of_decide_eq_false server, switched⟩

end

/-! ## Runs -/

/-- An operation whose chunk, if it has one, earns the upgrades it makes. -/
def EarnsAll (C : Config) (st : StreamState P) : Operation → Prop
  | .event env ev payload =>
    (st.admitted env ev).EarnsUpgrades (st.arrival C env ev payload) payload
  | _ => True

/-- A stage at which a chunk on the response direction of the connection brought a 101 response that
was paired with a request of its queue. -/
def Switched (C : Config) (key : ConnKey) (entry : StreamState P × Stage) : Prop :=
  ∃ env ev payload, entry.2.op = .event env ev payload ∧ entry.1.connKey env ev = key ∧
    (entry.1.arrival C env ev payload).isRequestDir = false ∧
    (entry.1.admitted env ev).Switches key entry.2.events

theorem upgrades_swept (nowMs : Nat) (st : StreamState P) :
    (st.swept nowMs).wsConnections ⊆ st.wsConnections := by
  unfold swept
  split
  · exact Finset.Subset.refl _
  · exact Finset.filter_subset _ _

theorem upgrades_admitted (env : Env) (ev : TlsEventHeader) (st : StreamState P) :
    (st.admitted env ev).wsConnections ⊆ st.wsConnections := by
  obtain ⟨born, same⟩ := st.bear_eq env ev
  have sweeps := upgrades_swept env.now (st.bear env ev)
  rw [same] at sweeps
  unfold admitted
  rw [same]
  exact sweeps

/-- One operation enters a connection only for a paired 101. -/
theorem switched_step {after : StreamState P} {stage : Stage} (step : Step C st stage after)
    (earned : st.EarnsAll C stage.op) (member : key ∈ after.wsConnections) :
    key ∈ st.wsConnections ∨ Switched C key (st, stage) := by
  cases step.stepped with
  | outside => exact .inl member
  | event env ev payload _ _ receives =>
    by_cases own : key = st.connKey env ev
    · subst own
      rcases switches_receive env ev payload _ _ earned _ _ receives member with
        before | ⟨server, event, emitted, switching, queued⟩
      · exact .inl (upgrades_admitted env ev st before)
      · exact .inr ⟨env, ev, payload, rfl, rfl, decide_eq_false server, event,
          List.mem_append_right _ emitted, switching, queued⟩
    · have change := local_receive env ev payload (st.connKey env ev) true (st.admitted env ev) _ _
        receives
      exact .inl (upgrades_admitted env ev st ((change.wsConnections key own).mp member))
  | sweep nowMs => exact .inl (upgrades_swept nowMs st member)
  | close => exact .inl (Finset.filter_subset _ _ member)
  | drain => exact .inl member

theorem switched_run {final : StreamState P} {trace : List (StreamState P × Stage)}
    (run : Run C st trace final) (earned : ∀ entry ∈ trace, entry.1.EarnsAll C entry.2.op)
    (member : key ∈ final.wsConnections) :
    key ∈ st.wsConnections ∨ ∃ entry ∈ trace, Switched C key entry := by
  induction run with
  | nil => exact .inl member
  | cons step _ induction =>
    rcases induction (fun entry later => earned entry (List.mem_cons_of_mem _ later)) member with
      before | ⟨entry, later, switched⟩
    · refine (switched_step step (earned _ List.mem_cons_self) before).imp_right fun switched => ?_
      exact ⟨_, List.mem_cons_self, switched⟩
    · exact .inr ⟨entry, List.mem_cons_of_mem _ later, switched⟩

/-- A GET and the 101 response that switches its connection to WebSocket. -/
def switchingOps : List Operation :=
  [chunk 100 0 "GET /ws HTTP/1.1\r\n\r\n",
    chunk 101 1 "HTTP/1.1 101 Switching Protocols\r\nUpgrade: websocket\r\n\r\n"]

end StreamState

end ApiSensor
