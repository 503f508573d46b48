import ApiSensor.Multiplexing.Requests

/-!
# Captured bodies

DATA is appended to the body of its stream as far as the capture cap and the memory ceiling allow.
A chunk that the ceiling refuses is skipped, and nothing remembers that it was: the next one may be
granted and is then put where the skipped bytes belong.
-/

namespace ApiSensor

open Library Library.Prog

variable {P : Platform} {C : Config}

/-! ## One chunk -/

/-- The part of a chunk that goes under the capture cap. -/
def captureRoom (body data : Bytes) : Bytes := data.take (maxBodyCaptureBytes - body.length)

/-- The ceiling has room for what a chunk adds to a body. -/
def capturable (maxTotal counter : Nat) (body data : Bytes) : Bool :=
  counter + (captureRoom body data).length ≤ maxTotal

/-- A body after one more chunk. -/
def capturedBody (maxTotal counter : Nat) (body data : Bytes) : Bytes :=
  if capturable maxTotal counter body data then body ++ captureRoom body data else body

variable {counter maxTotal : Nat}

variable {body data : Bytes}

theorem captured_of_empty (nothing : captureRoom body data = []) :
    capturedBody maxTotal counter body data = body := by
  unfold capturedBody
  rw [nothing, List.append_nil, ite_self]

theorem captured_of_capturable (fits : counter + (captureRoom body data).length ≤ maxTotal) :
    capturedBody maxTotal counter body data = body ++ captureRoom body data :=
  if_pos (decide_eq_true fits)

theorem captured_of_full (full : ¬ counter + (captureRoom body data).length ≤ maxTotal) :
    capturedBody maxTotal counter body data = body :=
  if_neg (by simp [capturable, full])

theorem run_reserveMemory_bind {α : Type} (maxTotal amount counter : Nat) (next : Bool → Act α) :
    (reserveMemory maxTotal amount >>= next).run counter =
      if counter + amount ≤ maxTotal then (next true).run (counter + amount)
      else (next false).run counter := rfl

theorem PendingStreams.get?_run_appendBody (streams : PendingStreams P) (streamId : UInt32)
    (data : Bytes) (maxTotal counter : Nat) :
    ((appendBody streams streamId data maxTotal).run counter).1.2.map.get? streamId =
      (streams.map.get? streamId).map fun req =>
        { req with body := capturedBody maxTotal counter req.body data } := by
  unfold appendBody
  split
  · rename_i absent
    exact absent.trans (by rw [absent]; rfl)
  · rename_i req found
    simp only [found, Option.map_some]
    split
    · rename_i nothing
      rw [captured_of_empty (List.isEmpty_iff.mp nothing)]
      exact found
    · rw [run_reserveMemory_bind]
      split
      · rename_i fits
        rw [captured_of_capturable fits]
        exact Dict.get?_insert_self _ _ _
      · rename_i full
        rw [captured_of_full full]
        exact found

theorem InflightResponses.assembled_run_append (responses : InflightResponses) (streamId : UInt32)
    (data : Bytes) (maxTotal counter : Nat) :
    assembled ((append responses streamId data maxTotal).run counter).1.2 streamId =
      (assembled responses streamId).map fun held =>
        (held.1, capturedBody maxTotal counter held.2 data) := by
  unfold append
  split
  · rename_i absent
    have none_held : assembled responses streamId = none := by
      rw [assembled, absent]
      rfl
    exact none_held.trans (by rw [none_held]; rfl)
  · rename_i resp found
    have held : assembled responses streamId = some (resp.headers, resp.body) := by
      rw [assembled, found]
      rfl
    simp only [held, Option.map_some]
    split
    · rename_i nothing
      rw [captured_of_empty (List.isEmpty_iff.mp nothing)]
      exact held
    · rw [run_reserveMemory_bind]
      split
      · rename_i fits
        rw [captured_of_capturable fits]
        exact assembled_of_insert (resp.addBody (captureRoom resp.body data)) rfl
      · rename_i full
        rw [captured_of_full full]
        exact held

/-! ## Bodies of a connection -/

/-- The body captured for one side of a stream. -/
def Slot.body? (slot : Slot) (client : Bool) : Option Bytes :=
  if client then slot.request.map ParsedRequest.body else slot.response.map Prod.snd

/-- An item of a connection, with `TOTAL_BUFFER_BYTES` at that time. -/
structure ItemCall where
  counter : Nat
  call : Call
  item : H2Item

namespace ItemCall

/-- The DATA that one side sends on a stream. -/
def dataOn (client : Bool) (streamId : UInt32) (step : ItemCall) : Option Bytes :=
  match step.item with
  | .data other data _ =>
    if other = streamId ∧ step.call.isRequestDir = client then some data else none
  | _ => none

/-- One side sends the header block of a message on a stream: a usable request, or a response that
is not interim. -/
def opens (client : Bool) (streamId : UInt32) (step : ItemCall) : Bool :=
  match step.item with
  | .headers other headers _ =>
    decide (other = streamId ∧ step.call.isRequestDir = client) &&
      if client then usableBlock headers
      else (headers.get? (str ":status")).any fun status => decide (status.head? ≠ some '1')
  | _ => false

end ItemCall

/-- A step that neither brings data of a body nor opens a new message keeps the body or drops it. -/
theorem Http2Conn.StreamStep.body_eq {call : Call} {item : H2Item} {smooth : Bool}
    {slot after : Slot} {events : List TrafficEvent}
    (step : StreamStep C call item smooth slot after events) {client : Bool} {streamId : UInt32}
    (about : item.stream = some streamId)
    (noData : ItemCall.dataOn client streamId ⟨counter, call, item⟩ = none)
    (continues : ItemCall.opens client streamId ⟨counter, call, item⟩ = false) :
    after.body? client = slot.body? client ∨ after.body? client = none := by
  cases step with
  | request side made | requestRefused side made =>
    cases about
    have usable := isSome_requestOf call.env call.ev _ ▸ Option.isSome_of_eq_some made
    cases client with
    | true => simp [ItemCall.opens, side, usable] at continues
    | false => exact .inl rfl
  | requestData more side =>
    cases about
    cases client with
    | true => simp [ItemCall.dataOn, side] at noData
    | false => exact .inl rfl
  | started side found final | startRefused side found final =>
    cases about
    cases client with
    | true => exact .inl rfl
    | false => simp [ItemCall.opens, side, found, final] at continues
  | data more side =>
    cases about
    cases client with
    | true => exact .inl rfl
    | false => simp [ItemCall.dataOn, side] at noData
  | trailers => cases client <;> exact .inl rfl
  | startedLast | trailersLast | dataLast | reset => cases client <;> exact .inr rfl
  | otherBlock | interim | unpaired | unknownTrailers | unknownData => exact .inl rfl

namespace Http2Conn

/-- The connection after an item. -/
def next (C : Config) (conn : Http2Conn P) (step : ItemCall) : Http2Conn P :=
  ((conn.onItem C step.call step.item).run step.counter).1.1

/-- The connection after several items. -/
def after (C : Config) (conn : Http2Conn P) (steps : List ItemCall) : Http2Conn P :=
  steps.foldl (next C) conn

/-- The body captured for one side of a stream. -/
def body? (conn : Http2Conn P) (client : Bool) (streamId : UInt32) : Option Bytes :=
  (conn.slot streamId).body? client

variable {client : Bool} {streamId : UInt32} {sent : Bytes}

variable {body : Bytes} {conn : Http2Conn P}

theorem body?_next_of_silent {step : ItemCall} (noData : step.dataOn client streamId = none)
    (continues : step.opens client streamId = false) :
    (conn.next C step).body? client streamId = conn.body? client streamId ∨
      (conn.next C step).body? client streamId = none := by
  obtain ⟨counter, call, item⟩ := step
  obtain ⟨smooth, graded⟩ :=
    (outcome_run (conn.onItem C call item) counter).graded Note.isDrop
  cases about : item.stream with
  | some other =>
    obtain ⟨others, own⟩ := every_onItem C call conn about smooth _ graded
    by_cases same : streamId = other
    · subst same
      exact own.body_eq about noData continues
    · have unchanged := others streamId same
      exact .inl (congrArg (Slot.body? · client) unchanged)
  | none =>
    cases item with
    | goAway lastStreamId =>
      obtain ⟨-, slots⟩ := every_goAway C call conn lastStreamId smooth _ graded
      rcases slots streamId with unchanged | ⟨-, free⟩
      · exact .inl (congrArg (Slot.body? · client) unchanged)
      · have empty : Slot.free.body? client = none := by cases client <;> rfl
        exact .inr ((congrArg (Slot.body? · client) free).trans empty)
    | _ => cases about

theorem body?_next_requestData (conn : Http2Conn P) {call : Call}
    (side : call.isRequestDir = true) (streamId : UInt32) (data : Bytes) (endStream : Bool)
    (counter : Nat) :
    (conn.next C ⟨counter, call, .data streamId data endStream⟩).body? true streamId =
      (conn.body? true streamId).map (capturedBody C.maxTotalBufferBytes counter · data) := by
  have requests : (conn.next C ⟨counter, call, .data streamId data endStream⟩).pendingRequests =
      ((PendingStreams.appendBody conn.pendingRequests streamId data
        C.maxTotalBufferBytes).run counter).1.2 := by
    simp only [next, onItem, side, if_true, run_bind]
    rfl
  have stored := PendingStreams.get?_run_appendBody conn.pendingRequests streamId data
    C.maxTotalBufferBytes counter
  simp only [body?, Slot.body?, slot, if_true, requests, stored, Option.map_map]
  rfl

theorem body?_next_responseData (conn : Http2Conn P) {call : Call}
    (side : call.isRequestDir = false) (streamId : UInt32) (data : Bytes) (endStream : Bool)
    (counter : Nat) :
    let after := (conn.next C ⟨counter, call, .data streamId data endStream⟩).body? false streamId
    after = (conn.body? false streamId).map (capturedBody C.maxTotalBufferBytes counter · data) ∨
      after = none := by
  have assembled := InflightResponses.assembled_run_append conn.responses streamId data
    C.maxTotalBufferBytes counter
  simp only [next, onItem, side, Bool.false_eq_true, if_false, run_bind]
  generalize (InflightResponses.append conn.responses streamId data
    C.maxTotalBufferBytes).run counter = appended at assembled
  have held : ({ conn with responses := appended.1.2 } : Http2Conn P).body? false streamId =
      (conn.body? false streamId).map (capturedBody C.maxTotalBufferBytes counter · data) := by
    simp only [body?, Slot.body?, slot, Bool.false_eq_true, if_false, assembled, Option.map_map]
    rfl
  split
  · obtain ⟨smooth, graded⟩ := (outcome_run (finishH2Response C call.env.now
      { conn with responses := appended.1.2 } streamId) appended.2.1).graded Note.isDrop
    obtain ⟨-, -, done⟩ := every_finishH2Response C call.env.now
      { conn with responses := appended.1.2 } streamId smooth _ graded
    split at done
    · exact .inl ((congrArg (Slot.body? · false) done.1).trans held)
    · exact .inr (congrArg (Slot.body? · false) done.1)
  · exact .inl held

/-- What one item does to the body of one side of a stream, unless it opens a new message. -/
theorem body?_next (conn : Http2Conn P) {step : ItemCall}
    (continues : step.opens client streamId = false) :
    (conn.next C step).body? client streamId = (conn.body? client streamId).map (fun body =>
        (step.dataOn client streamId).elim body
          (capturedBody C.maxTotalBufferBytes step.counter body)) ∨
      (conn.next C step).body? client streamId = none := by
  cases sent : step.dataOn client streamId with
  | none => simpa using body?_next_of_silent sent continues
  | some data =>
    obtain ⟨counter, call, item⟩ := step
    cases item with
    | data other chunk endStream =>
      obtain ⟨⟨rfl, rfl⟩, rfl⟩ : (other = streamId ∧ call.isRequestDir = client) ∧
          chunk = data := by simpa [ItemCall.dataOn] using sent
      cases side : call.isRequestDir with
      | true => exact .inl (body?_next_requestData conn side other chunk endStream counter)
      | false => exact body?_next_responseData conn side other chunk endStream counter
    | _ => cases sent

/-! ## Whole streams -/

/-- The data one side sends on a stream. -/
def sentOn (client : Bool) (streamId : UInt32) (steps : List ItemCall) : Bytes :=
  (steps.filterMap (ItemCall.dataOn client streamId)).flatten

/-- What the ceiling answers for a chunk, if anything is asked of it. -/
def answer? (C : Config) (client : Bool) (streamId : UInt32) (conn : Http2Conn P)
    (step : ItemCall) : Option Bool := do
  let data ← step.dataOn client streamId
  let body ← conn.body? client streamId
  if captureRoom body data = [] then none
  else some (capturable C.maxTotalBufferBytes step.counter body data)

/-- Once the ceiling has refused a chunk of a body, it refuses the later ones. -/
def Steady (C : Config) (client : Bool) (streamId : UInt32) :
    Bool → Http2Conn P → List ItemCall → Prop
  | _, _, [] => True
  | refused, conn, step :: steps =>
    (refused = true → answer? C client streamId conn step ≠ some true) ∧
      Steady C client streamId
        (refused || answer? C client streamId conn step == some false) (conn.next C step) steps

/-- How a captured body relates to what was sent: it is all of it up to the cap, unless something
was refused. -/
structure CapturedOf (refused : Bool) (sent body : Bytes) : Prop where
  isPrefix : body <+: sent
  whole : refused = false → body = sent.take maxBodyCaptureBytes

theorem take_append_data (whole : body = sent.take maxBodyCaptureBytes) (data : Bytes) :
    (sent ++ data).take maxBodyCaptureBytes = body ++ captureRoom body data := by
  have room : maxBodyCaptureBytes - body.length = maxBodyCaptureBytes - sent.length := by
    rw [whole, List.length_take]
    omega
  rw [captureRoom, room, whole, List.take_append]

/-- One chunk, which is refused if one was refused before. -/
theorem CapturedOf.chunk {refused : Bool} (before : CapturedOf refused sent body)
    {maxTotal counter : Nat} {data : Bytes} (steady : refused = true → captureRoom body data ≠ [] →
      capturable maxTotal counter body data = false) :
    CapturedOf (refused || (!decide (captureRoom body data = []) &&
        !capturable maxTotal counter body data))
      (sent ++ data) (capturedBody maxTotal counter body data) := by
  have longer : body <+: sent ++ data := before.isPrefix.trans (List.prefix_append _ _)
  by_cases nothing : captureRoom body data = []
  · rw [captured_of_empty nothing]
    refine ⟨longer, fun unrefused => ?_⟩
    have whole := before.whole (Bool.or_eq_false_iff.mp unrefused).1
    rw [take_append_data whole data, nothing, List.append_nil]
  · by_cases fits : counter + (captureRoom body data).length ≤ maxTotal
    · have unrefused : refused = false := by
        by_contra earlier
        have full := steady (Bool.eq_true_of_not_eq_false earlier) nothing
        exact absurd fits (by simpa [capturable] using full)
      have whole := before.whole unrefused
      rw [captured_of_capturable fits, ← take_append_data whole data]
      exact ⟨List.take_prefix _ _, fun _ => rfl⟩
    · rw [captured_of_full fits]
      refine ⟨longer, fun unrefused => ?_⟩
      simp [nothing, capturable, fits] at unrefused

theorem length_captured_le (capped : body.length ≤ maxBodyCaptureBytes) (maxTotal counter : Nat)
    (data : Bytes) :
    (capturedBody maxTotal counter body data).length ≤ maxBodyCaptureBytes := by
  unfold capturedBody
  split
  · simp only [captureRoom, List.length_append, List.length_take]
    omega
  · exact capped

theorem length_after_le {steps : List ItemCall}
    (continues : ∀ step ∈ steps, step.opens client streamId = false)
    (capped : ∀ body, conn.body? client streamId = some body →
      body.length ≤ maxBodyCaptureBytes)
    (reached : (conn.after C steps).body? client streamId = some body) :
    body.length ≤ maxBodyCaptureBytes := by
  induction steps generalizing conn with
  | nil => exact capped body reached
  | cons step steps ih =>
    refine ih (fun later member => continues later (List.mem_cons_of_mem _ member)) ?_ reached
    intro middle found
    rcases body?_next conn (continues step List.mem_cons_self) with grown | gone
    · obtain ⟨old, held, rfl⟩ := Option.map_eq_some_iff.mp (grown.symm.trans found)
      cases step.dataOn client streamId with
      | none => exact capped old held
      | some data => exact length_captured_le (capped old held) _ _ data
    · exact absurd (gone.symm.trans found) (by simp)

theorem capturedOf_after {steps : List ItemCall}
    (continues : ∀ step ∈ steps, step.opens client streamId = false) {refused : Bool}
    (before : ∀ body, conn.body? client streamId = some body → CapturedOf refused sent body)
    (steady : Steady C client streamId refused conn steps)
    (reached : (conn.after C steps).body? client streamId = some body) :
    body <+: sent ++ sentOn client streamId steps := by
  induction steps generalizing conn refused sent with
  | nil => simpa [sentOn] using (before body reached).isPrefix
  | cons step steps ih =>
    have grows : sentOn client streamId (step :: steps) =
        (step.dataOn client streamId).getD [] ++ sentOn client streamId steps := by
      cases sent : step.dataOn client streamId <;> simp [sentOn, sent]
    rw [grows, ← List.append_assoc]
    refine ih (fun later member => continues later (List.mem_cons_of_mem _ member)) ?_ steady.2
      reached
    intro middle found
    rcases body?_next conn (continues step List.mem_cons_self) with grown | gone
    · obtain ⟨old, held, rfl⟩ := Option.map_eq_some_iff.mp (grown.symm.trans found)
      have whole := before old held
      cases sends : step.dataOn client streamId with
      | none => simpa [answer?, sends] using whole
      | some data =>
        have answered : answer? C client streamId conn step =
            if captureRoom old data = [] then none
            else some (capturable C.maxTotalBufferBytes step.counter old data) := by
          simp [answer?, sends, held]
        have flag : (answer? C client streamId conn step == some false) =
            (!decide (captureRoom old data = []) &&
              !capturable C.maxTotalBufferBytes step.counter old data) := by
          rw [answered]
          by_cases nothing : captureRoom old data = [] <;> simp [nothing]
        rw [flag]
        apply whole.chunk
        intro earlier asked
        have refuses := steady.1 earlier
        rw [answered, if_neg asked] at refuses
        simpa using refuses
    · exact absurd (gone.symm.trans found) (by simp)

/-- From the header block of a message on, the body captured for it is never longer than the cap,
and it is the beginning of what was sent as long as the ceiling, once it has refused a chunk,
refuses the later ones too. -/
theorem body_prefix_of_steady (C : Config) (client : Bool) (streamId : UInt32)
    {conn : Http2Conn P} (opened : conn.body? client streamId = some []) {steps : List ItemCall}
    (continues : ∀ step ∈ steps, step.opens client streamId = false) {body : Bytes}
    (reached : (conn.after C steps).body? client streamId = some body) :
    body.length ≤ maxBodyCaptureBytes ∧
      (Steady C client streamId false conn steps → body <+: sentOn client streamId steps) := by
  constructor
  · refine length_after_le continues (fun initial held => ?_) reached
    cases opened.symm.trans held
    exact Nat.zero_le _
  · intro steady
    have before : ∀ initial, conn.body? client streamId = some initial →
        CapturedOf false [] initial := by
      intro initial held
      cases opened.symm.trans held
      exact ⟨List.nil_prefix, fun _ => rfl⟩
    exact capturedOf_after continues before steady reached

/-- DATA of the client on the first stream. -/
def uploads (counter : Nat) (text : String) : ItemCall :=
  ⟨counter, chunkCall 0, .data 1 (bytes text) false⟩

theorem body_prefix_of_steady_refusal :
    let steps := [uploads 1000 "ab", uploads 65536 "cd", uploads 65535 "ef"]
    let after := waitingConn.after (serverConfig 65536) steps
    after.body? true 1 = some (bytes "ab") ∧
      bytes "ab" <+: sentOn true 1 steps := by
  have reached : (waitingConn.after (serverConfig 65536) [uploads 1000 "ab", uploads 65536 "cd",
      uploads 65535 "ef"]).body? true 1 = some (bytes "ab") := by decide +kernel
  refine ⟨reached, (body_prefix_of_steady (serverConfig 65536) true 1 (by decide +kernel)
    (by decide +kernel) reached).2 ?_⟩
  simp only [Steady]
  decide +kernel

/-- The ceiling refuses the first chunk and grants the second, which becomes the start of the
body. -/
theorem body_not_prefix_after_refusal :
    let steps := [uploads 65536 "ab", uploads 1000 "cd"]
    let after := waitingConn.after (serverConfig 65536) steps
    after.body? true 1 = some (bytes "cd") ∧ ¬ bytes "cd" <+: sentOn true 1 steps := by
  decide +kernel

end Http2Conn

end ApiSensor
