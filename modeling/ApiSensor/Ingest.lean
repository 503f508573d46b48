import ApiSensor.Text

/-!
# Delivery of batches

`send_batch_with_client` posts a batch at most three times and books its events as sent or as lost.
What the transport and the server do is arbitrary: every attempt has an outcome that the sender does
not choose.  The theorems are about all sequences of outcomes.
-/

namespace ApiSensor

/-! ## Attempts -/

/-- An error of `reqwest`, with the texts of its causes. -/
structure SendError where
  /-- `is_connect`: no connection was established. -/
  isConnect : Bool
  isTimeout : Bool
  text : Str
  causes : List Str
  deriving DecidableEq

/-- A response as far as the sender reads it. -/
structure IngestResponse where
  status : Nat
  /-- The value of `Retry-After`. -/
  retryAfter : Option Bytes
  /-- The body chunk by chunk, `none` where reading fails. -/
  body : List (Option Bytes)
  deriving DecidableEq

/-- What becomes of one attempt. -/
inductive SendOutcome where
  | response (resp : IngestResponse)
  | error (err : SendError)
  deriving DecidableEq

/-- One POST as it is put on the wire. -/
structure PostRequest where
  url : Str
  bearerAuth : Str
  headers : List (Str × Str)
  body : Bytes
  deriving DecidableEq

/-- What the sender does, in order. -/
inductive Deed where
  | sleep (ms : Nat)
  | post (request : PostRequest) (outcome : SendOutcome)
  deriving DecidableEq

/-- The ingest endpoint and the credentials for it. -/
structure Endpoint where
  url : Str
  apiKey : Str
  tenantId : Str
  policyVersion : Str

/-- What the sender takes from other crates and modules. -/
structure IngestPlatform (ε : Type) where
  /-- `to_sensor_batch` and `serde_json::to_vec`. -/
  toSensorBatch : List ε → Str → Str → Except Str Bytes
  /-- `GzEncoder`. -/
  gzip : Bytes → Except Str Bytes
  /-- `redaction::redact_text`. -/
  redactText : Str → Str
  /-- The `Display` of `reqwest::StatusCode`. -/
  statusText : Nat → Str
  /-- The `Debug` of `Option<String>`. -/
  debugText : Option Str → Str

/-- The counters of `metrics` that delivery changes. -/
structure DeliveryCounters where
  eventsSent : UInt64
  eventsLostSend : UInt64
  eventsDropped : UInt64
  sendErrors : UInt64
  sendTimeouts : UInt64
  consecutiveSendFailures : UInt64
  lastSendOkSecs : UInt64
  deriving DecidableEq

def maxAttempts : Nat := 3

def compressThresholdBytes : Nat := 4096

def baseBackoffMs : Nat := 200

def maxBackoffMs : Nat := 10000

def maxErrorBodyBytes : Nat := 512

def statusMeansNotProcessed (status : Nat) : Bool := status = 429 || status = 503

def isSuccess (status : Nat) : Bool := 200 ≤ status && status < 300

def errorChain (err : SendError) : Str :=
  err.causes.foldl (fun out part => if strContains out part then out else out ++ str ": " ++ part)
    err.text

def jitteredBackoffMs (attempt nanos : Nat) : Nat :=
  let base := min (baseBackoffMs * 2 ^ min attempt 6) maxBackoffMs
  let mix := (nanos * 6364136223846793005 + 1442695040888963407) % 2 ^ 64
  min (base - 1) (mix % max base 1)

/-- `read_error_body`, from what has been read on. -/
def readErrorBody (limit : Nat) : Bytes → List (Option Bytes) → Str
  | buf, [] => fromUtf8Lossy buf
  | buf, some chunk :: rest =>
    let buf := buf ++ chunk.take (limit - buf.length)
    if limit ≤ buf.length then fromUtf8Lossy buf else readErrorBody limit buf rest
  | buf, none :: _ => if buf.isEmpty then str "[error reading body]" else fromUtf8Lossy buf

/-- `HeaderValue::to_str`. -/
def headerToStr (value : Bytes) : Option Str :=
  if value.all fun byte => 32 ≤ byte && byte < 127 || byte = 9 then
    some (value.map fun byte => Char.ofNat byte.toNat)
  else none

/-- The pause that a response asks for. -/
def retryAfterMs (resp : IngestResponse) : Option Nat :=
  (resp.retryAfter.bind headerToStr).bind fun text =>
    (parseU64 10 text).map fun secs => min (secs * 1000) (2 ^ 64 - 1)

/-- What follows from the outcome of an attempt. -/
inductive Verdict where
  /-- Pause and try again. -/
  | again (pauses : List Nat) (lastErr : Str)
  | finished (counters : DeliveryCounters) (result : Except Str Unit)

section Sending

variable {ε : Type} (I : IngestPlatform ε)

def encodeBatchPayload (json : Bytes) : Except Str (Bytes × Option Str) :=
  if compressThresholdBytes < json.length then do
    let packed ← I.gzip json
    return (packed, some (str "gzip"))
  else return (json, none)

/-- The body of the loop of `try_send_batch` behind `send`. -/
def onOutcome (eventCount : UInt64) (attempt : Nat) (counters : DeliveryCounters) :
    SendOutcome → Verdict
  | .response resp =>
    if isSuccess resp.status then
      .finished { counters with eventsSent := counters.eventsSent + eventCount } (.ok ())
    else if statusMeansNotProcessed resp.status && attempt + 1 < maxAttempts then
      .again ((retryAfterMs resp).toList.map fun ms => min ms maxBackoffMs)
        (str "HTTP " ++ I.statusText resp.status)
    else
      .finished { counters with sendErrors := counters.sendErrors + 1 }
        (.error (str "ingest HTTP " ++ I.statusText resp.status ++ str ": " ++
          I.redactText (readErrorBody maxErrorBodyBytes [] resp.body)))
  | .error err =>
    if err.isConnect && attempt + 1 < maxAttempts then .again [] (errorChain err)
    else
      let failed := { counters with sendErrors := counters.sendErrors + 1 }
      if err.isTimeout && !err.isConnect then
        .finished { failed with sendTimeouts := failed.sendTimeouts + 1 }
          (.error (str "ingest request timed out after sending; the backend may still " ++
            str "store this batch, so it is not resent: " ++ errorChain err))
      else .finished failed (.error (str "ingest request failed: " ++ errorChain err))

/-- The attempts that are left. -/
def sendLoop (request : PostRequest) (eventCount : UInt64) (outcomes : Nat → SendOutcome)
    (nanos : Nat → Nat) :
    Nat → Nat → Option Str → DeliveryCounters → List Deed × DeliveryCounters × Except Str Unit
  | 0, _, lastErr, counters =>
    ([], { counters with sendErrors := counters.sendErrors + 1 },
      .error (str "ingest failed after 3 attempts: " ++ I.debugText lastErr))
  | left + 1, attempt, _, counters =>
    let backoff := if 0 < attempt then [jitteredBackoffMs attempt (nanos attempt)] else []
    let posted := backoff.map .sleep ++ [.post request (outcomes attempt)]
    match onOutcome I eventCount attempt counters (outcomes attempt) with
    | .again pauses err =>
      let rest := sendLoop request eventCount outcomes nanos left (attempt + 1) (some err)
        counters
      (posted ++ pauses.map .sleep ++ rest.1, rest.2)
    | .finished after result => (posted, after, result)

/-- A batch with what meets it on its way: the outcome of each attempt, the clock at each of them,
and the time at the end. -/
structure Consignment (ε : Type) where
  events : List ε
  outcomes : Nat → SendOutcome
  nanos : Nat → Nat
  nowSecs : UInt64

def trySendBatch (endpoint : Endpoint) (batch : Consignment ε) (counters : DeliveryCounters) :
    List Deed × DeliveryCounters × Except Str Unit :=
  let encoded := do
    let json ← I.toSensorBatch batch.events endpoint.tenantId endpoint.policyVersion
    encodeBatchPayload I json
  match encoded with
  | .error err => ([], counters, .error err)
  | .ok (payload, contentEncoding) =>
    let request : PostRequest :=
      { url := endpoint.url
        bearerAuth := endpoint.apiKey
        headers := (str "Content-Type", str "application/json") ::
          contentEncoding.toList.map fun encoding => (str "Content-Encoding", encoding)
        body := payload }
    sendLoop I request (.ofNat batch.events.length) batch.outcomes batch.nanos maxAttempts 0 none
      counters

def recordSendSuccess (nowSecs : UInt64) (counters : DeliveryCounters) : DeliveryCounters :=
  { counters with lastSendOkSecs := nowSecs, consecutiveSendFailures := 0 }

def recordSendFailure (events : UInt64) (counters : DeliveryCounters) : DeliveryCounters :=
  { counters with
    consecutiveSendFailures := counters.consecutiveSendFailures + 1
    eventsLostSend := counters.eventsLostSend + events
    eventsDropped := counters.eventsDropped + events }

def sendBatchWithClient (endpoint : Endpoint) (batch : Consignment ε) (counters : DeliveryCounters) :
    List Deed × DeliveryCounters × Except Str Unit :=
  match trySendBatch I endpoint batch counters with
  | (deeds, after, .ok ()) => (deeds, recordSendSuccess batch.nowSecs after, .ok ())
  | (deeds, after, .error err) =>
    (deeds, recordSendFailure (.ofNat batch.events.length) after, .error err)

/-- What became of a batch. -/
structure Sending (ε : Type) where
  batch : Consignment ε
  deeds : List Deed
  result : Except Str Unit

/-- Batches sent one after the other. -/
def sendAll (endpoint : Endpoint) :
    List (Consignment ε) → DeliveryCounters → List (Sending ε) × DeliveryCounters
  | [], counters => ([], counters)
  | batch :: batches, counters =>
    let sent := sendBatchWithClient I endpoint batch counters
    let rest := sendAll endpoint batches sent.2.1
    (⟨batch, sent.1, sent.2.2⟩ :: rest.1, rest.2)

/-! ## Attempts of one batch -/

/-- The attempts among what the sender did. -/
def posts (deeds : List Deed) : List SendOutcome :=
  deeds.filterMap fun
    | .post _ outcome => some outcome
    | .sleep _ => none

/-- The attempt certainly was not processed: there was no connection, or the server refused. -/
def SendOutcome.notProcessed : SendOutcome → Bool
  | .response resp => statusMeansNotProcessed resp.status
  | .error err => err.isConnect

/-- The server acknowledged the attempt. -/
def SendOutcome.accepted : SendOutcome → Bool
  | .response resp => isSuccess resp.status
  | .error _ => false

variable {I}

@[simp]
theorem posts_append (first second : List Deed) :
    posts (first ++ second) = posts first ++ posts second := List.filterMap_append

@[simp]
theorem posts_sleep (pauses : List Nat) : posts (pauses.map .sleep) = [] := by
  induction pauses with
  | nil => rfl
  | cons _ _ ih => exact ih

@[simp]
theorem posts_nil : posts [] = [] := rfl

@[simp]
theorem posts_cons_post (request : PostRequest) (outcome : SendOutcome) (deeds : List Deed) :
    posts (.post request outcome :: deeds) = outcome :: posts deeds := rfl

/-- What the loop does with one outcome. -/
theorem onOutcome_cases (eventCount : UInt64) (attempt : Nat) (counters : DeliveryCounters)
    (outcome : SendOutcome) :
    (∃ pauses err, onOutcome I eventCount attempt counters outcome = .again pauses err ∧
      outcome.notProcessed = true ∧ outcome.accepted = false ∧ attempt + 1 < maxAttempts) ∨
    (onOutcome I eventCount attempt counters outcome =
        .finished { counters with eventsSent := counters.eventsSent + eventCount } (.ok ()) ∧
      outcome.accepted = true) ∨
    (∃ after err, onOutcome I eventCount attempt counters outcome = .finished after (.error err) ∧
      after.eventsSent = counters.eventsSent ∧ after.eventsLostSend = counters.eventsLostSend ∧
      outcome.accepted = false) := by
  cases outcome with
  | response resp =>
    simp only [onOutcome]
    split
    · rename_i success
      exact .inr (.inl ⟨rfl, success⟩)
    · rename_i failure
      have rejected : SendOutcome.accepted (.response resp) = false := by
        simpa [SendOutcome.accepted] using failure
      split
      · rename_i refused
        rw [Bool.and_eq_true, decide_eq_true_eq] at refused
        exact .inl ⟨_, _, rfl, refused.1, rejected, refused.2⟩
      · exact .inr (.inr ⟨_, _, rfl, rfl, rfl, rejected⟩)
  | error err =>
    simp only [onOutcome]
    split
    · rename_i unconnected
      rw [Bool.and_eq_true, decide_eq_true_eq] at unconnected
      exact .inl ⟨_, _, rfl, unconnected.1, rfl, unconnected.2⟩
    · split
      · exact .inr (.inr ⟨_, _, rfl, rfl, rfl, rfl⟩)
      · exact .inr (.inr ⟨_, _, rfl, rfl, rfl, rfl⟩)

/-- What holds of the attempts made for one batch: there are at most so many, and each one but the
last was not processed. -/
structure Attempts (limit : Nat) (outcomes : List SendOutcome) : Prop where
  length_le : outcomes.length ≤ limit
  refused : ∀ outcome ∈ outcomes.dropLast, outcome.notProcessed = true

namespace Attempts

variable {limit : Nat} {outcomes : List SendOutcome}

theorem single (limit : Nat) (outcome : SendOutcome) : Attempts (limit + 1) [outcome] :=
  ⟨Nat.succ_le_succ (Nat.zero_le limit), by simp⟩

theorem cons {outcome : SendOutcome} (attempts : Attempts limit outcomes)
    (refused : outcome.notProcessed = true) : Attempts (limit + 1) (outcome :: outcomes) := by
  refine ⟨Nat.succ_le_succ attempts.length_le, fun earlier member => ?_⟩
  cases outcomes with
  | nil => simp at member
  | cons next later =>
    rw [List.dropLast_cons_cons, List.mem_cons] at member
    rcases member with rfl | member
    · exact refused
    · exact attempts.refused earlier member

/-- A batch is sent again only after an attempt that was not processed. -/
theorem resent (attempts : Attempts limit outcomes) {earlier later : List SendOutcome}
    {outcome next : SendOutcome} (split : outcomes = earlier ++ outcome :: next :: later) :
    outcome.notProcessed = true := by
  apply attempts.refused
  rw [split, List.dropLast_append_cons, List.dropLast_cons_cons]
  exact List.mem_append_right _ List.mem_cons_self

/-- At most one attempt may have been processed. -/
theorem processed_le_one (attempts : Attempts limit outcomes) :
    (outcomes.filter fun outcome => !outcome.notProcessed).length ≤ 1 := by
  rcases List.eq_nil_or_concat outcomes with rfl | ⟨earlier, last, rfl⟩
  · exact Nat.zero_le 1
  · have refused := attempts.refused
    rw [List.concat_eq_append, List.dropLast_concat] at refused
    have none_left : (earlier.filter fun outcome => !outcome.notProcessed) = [] := by
      simpa using refused
    rw [List.concat_eq_append, List.filter_append, none_left, List.nil_append]
    exact List.length_filter_le _ [last]

end Attempts

/-- What one batch leaves behind: its attempts, its events in the books if it was acknowledged, and
nothing among the losses. -/
structure Tried (eventCount : UInt64) (limit : Nat) (before : DeliveryCounters)
    (run : List Deed × DeliveryCounters × Except Str Unit) : Prop where
  attempts : Attempts limit (posts run.1)
  sent : run.2.1.eventsSent = before.eventsSent + if run.2.2.isOk then eventCount else 0
  lost : run.2.1.eventsLostSend = before.eventsLostSend
  acknowledged : run.2.2.isOk = (posts run.1).any SendOutcome.accepted

/-- The loop, by induction on the attempts that are left. -/
theorem tried_sendLoop (request : PostRequest) (eventCount : UInt64)
    (outcomes : Nat → SendOutcome) (nanos : Nat → Nat) (left attempt : Nat) (lastErr : Option Str)
    (counters : DeliveryCounters) :
    Tried eventCount left counters
      (sendLoop I request eventCount outcomes nanos left attempt lastErr counters) := by
  induction left generalizing attempt lastErr with
  | zero =>
    exact ⟨⟨Nat.zero_le 0, by simp [sendLoop]⟩, by simp [sendLoop, Except.isOk, Except.toBool],
      rfl, rfl⟩
  | succ left ih =>
    rw [sendLoop]
    obtain ⟨pauses, err, again, refused, rejected, -⟩ | ⟨finished, accepted⟩ |
      ⟨after, err, finished, sent, lost, rejected⟩ :=
      onOutcome_cases (I := I) eventCount attempt counters (outcomes attempt)
    · rw [again]
      have rest := ih (attempt + 1) (some err)
      refine ⟨?_, rest.sent, rest.lost, ?_⟩
      · simpa using rest.attempts.cons refused
      · simpa [rejected] using rest.acknowledged
    · rw [finished]
      refine ⟨?_, by simp [Except.isOk, Except.toBool], rfl, ?_⟩
      · simpa using Attempts.single left (outcomes attempt)
      · simp [accepted, Except.isOk, Except.toBool]
    · rw [finished]
      refine ⟨?_, by simp [sent, Except.isOk, Except.toBool], lost, ?_⟩
      · simpa using Attempts.single left (outcomes attempt)
      · simp [rejected, Except.isOk, Except.toBool]

/-! ## Batches -/

section

variable (endpoint : Endpoint) (batch : Consignment ε) (counters : DeliveryCounters)

theorem tried_trySendBatch :
    Tried (.ofNat batch.events.length) maxAttempts counters
      (trySendBatch I endpoint batch counters) := by
  unfold trySendBatch
  dsimp only
  split
  · exact ⟨⟨Nat.zero_le _, by simp⟩, by simp [Except.isOk, Except.toBool], rfl, rfl⟩
  · exact tried_sendLoop _ _ _ _ _ _ _ _

/-- A batch is booked wholly on one side, on the side of the sent events when the server has
acknowledged it. -/
theorem sendBatchWithClient_spec :
    let run := sendBatchWithClient I endpoint batch counters
    let eventCount := UInt64.ofNat batch.events.length
    Attempts maxAttempts (posts run.1) ∧
      run.2.2.isOk = (posts run.1).any SendOutcome.accepted ∧
      run.2.1.eventsSent = counters.eventsSent + (if run.2.2.isOk then eventCount else 0) ∧
      run.2.1.eventsLostSend =
        counters.eventsLostSend + (if !run.2.2.isOk then eventCount else 0) := by
  have tried := tried_trySendBatch (I := I) endpoint batch counters
  unfold sendBatchWithClient
  generalize trySendBatch I endpoint batch counters = attempt at tried
  obtain ⟨deeds, after, result⟩ := attempt
  obtain ⟨attempts, sent, lost, acknowledged⟩ := tried
  cases result with
  | ok value =>
    refine ⟨attempts, acknowledged, sent, ?_⟩
    exact lost.trans (UInt64.add_zero _).symm
  | error err =>
    refine ⟨attempts, acknowledged, sent, ?_⟩
    exact congrArg (· + UInt64.ofNat batch.events.length) lost

end

/-- Number of events in some batches. -/
def eventsIn (sendings : List (Sending ε)) : Nat :=
  (sendings.map fun sending => sending.batch.events.length).sum

theorem eventsIn_cons (sending : Sending ε) (sendings : List (Sending ε)) :
    eventsIn (sending :: sendings) = sending.batch.events.length + eventsIn sendings := by
  simp [eventsIn]

/-- Every batch is on one of two sides. -/
theorem eventsIn_filter_add (side : Sending ε → Bool) (sendings : List (Sending ε)) :
    eventsIn (sendings.filter side) + eventsIn (sendings.filter fun sending => !side sending) =
      eventsIn sendings := by
  induction sendings with
  | nil => rfl
  | cons sending sendings ih =>
    cases chosen : side sending <;> simp [chosen, eventsIn_cons] <;> omega

section

variable (endpoint : Endpoint) (batches : List (Consignment ε)) (counters : DeliveryCounters)

theorem batch_sendAll : (sendAll I endpoint batches counters).1.map Sending.batch = batches := by
  induction batches generalizing counters with
  | nil => rfl
  | cons batch batches ih => exact congrArg (batch :: ·) (ih _)

theorem attempts_sendAll :
    ∀ sending ∈ (sendAll I endpoint batches counters).1,
      Attempts maxAttempts (posts sending.deeds) := by
  induction batches generalizing counters with
  | nil => simp [sendAll]
  | cons batch batches ih =>
    intro sending member
    rcases List.mem_cons.mp member with rfl | member
    · exact (sendBatchWithClient_spec endpoint batch counters).1
    · exact ih _ sending member

end

/-- A column of the books that each batch enters on one side holds, in the end, the events of the
batches on that side. -/
theorem column_sendAll {column : DeliveryCounters → UInt64} (side : Except Str Unit → Bool)
    {endpoint : Endpoint}
    (booked : ∀ (batch : Consignment ε) (counters : DeliveryCounters),
      let run := sendBatchWithClient I endpoint batch counters
      column run.2.1 = column counters + if side run.2.2 then .ofNat batch.events.length else 0)
    (batches : List (Consignment ε)) (counters : DeliveryCounters) :
    let run := sendAll I endpoint batches counters
    column run.2 = column counters +
      .ofNat (eventsIn (run.1.filter fun sending => side sending.result)) := by
  induction batches generalizing counters with
  | nil => exact (UInt64.add_zero _).symm
  | cons batch batches ih =>
    simp only [sendAll, ih, booked]
    cases chosen : side (sendBatchWithClient I endpoint batch counters).2.2 with
    | false => simp [chosen]
    | true => simp [chosen, eventsIn_cons, UInt64.ofNat_add, UInt64.add_assoc]

/-- Whatever outcomes the attempts have, every batch is tried at most three times and again only
after an attempt that certainly was not processed, so that at most one attempt of it may have been
processed; and its events are added to `EVENTS_SENT` or to `EVENTS_LOST_SEND`. -/
theorem sendAll_at_most_once_and_counted (I : IngestPlatform ε) (endpoint : Endpoint)
    (batches : List (Consignment ε)) (counters : DeliveryCounters) :
    let run := sendAll I endpoint batches counters
    run.1.map Sending.batch = batches ∧
      (∀ sending ∈ run.1, (posts sending.deeds).length ≤ 3 ∧
        (∀ earlier outcome next later,
          posts sending.deeds = earlier ++ outcome :: next :: later →
            outcome.notProcessed = true) ∧
        ((posts sending.deeds).filter fun outcome => !outcome.notProcessed).length ≤ 1) ∧
      run.2.eventsSent = counters.eventsSent +
        .ofNat (eventsIn (run.1.filter fun sending => sending.result.isOk)) ∧
      run.2.eventsLostSend = counters.eventsLostSend +
        .ofNat (eventsIn (run.1.filter fun sending => !sending.result.isOk)) ∧
      run.2.eventsSent + run.2.eventsLostSend =
        counters.eventsSent + counters.eventsLostSend +
          .ofNat (batches.map fun batch => batch.events.length).sum := by
  intro run
  have sent : run.2.eventsSent = counters.eventsSent +
      .ofNat (eventsIn (run.1.filter fun sending => sending.result.isOk)) :=
    column_sendAll Except.isOk
      (fun batch before => (sendBatchWithClient_spec endpoint batch before).2.2.1) batches counters
  have lost : run.2.eventsLostSend = counters.eventsLostSend +
      .ofNat (eventsIn (run.1.filter fun sending => !sending.result.isOk)) :=
    column_sendAll (fun result => !result.isOk)
      (fun batch before => (sendBatchWithClient_spec endpoint batch before).2.2.2) batches counters
  have batches_eq : run.1.map Sending.batch = batches := batch_sendAll endpoint batches counters
  refine ⟨batches_eq, fun sending member => ?_, sent, lost, ?_⟩
  · have attempts := attempts_sendAll endpoint batches counters sending member
    exact ⟨attempts.length_le, fun _ _ _ _ split => attempts.resent split,
      attempts.processed_le_one⟩
  · have total : eventsIn run.1 = (batches.map fun batch => batch.events.length).sum := by
      rw [← batches_eq, List.map_map]
      rfl
    rw [← total, ← eventsIn_filter_add (fun sending => sending.result.isOk), UInt64.ofNat_add, sent,
      lost]
    ac_rfl

end Sending

end ApiSensor
