import ApiSensor.Decoding.Progress
import ApiSensor.Decoding.RoundTrip
import ApiSensor.Multiplexing.Requests

/-!
# Trailers

Fields behind the body join the headers of their message.  The HTTP/1 decoder adds those whose name
is new; `merge_trailers` of HTTP/2 inserts them all, and one with the name of a header replaces it.
-/

namespace ApiSensor

open Library Library.Prog

variable {P : Platform} {C : Config}

/-- Every field is still there with its value. -/
def Headers.Keeps (headers after : Headers) : Prop :=
  ∀ name value, headers.get? name = some value → after.get? name = some value

theorem Headers.Keeps.refl (headers : Headers) : Headers.Keeps headers headers :=
  fun _ _ found => found

theorem Headers.Keeps.trans {first second third : Headers} (early : Headers.Keeps first second)
    (late : Headers.Keeps second third) : Headers.Keeps first third :=
  fun name value found => late name value (early name value found)

/-! ## HTTP/1 -/

theorem HttpMessage.headers_appendBody (msg : HttpMessage) (more : Bytes) :
    (msg.appendBody more).headers = msg.headers := by
  cases msg <;> rfl

theorem HttpMessage.headers_mapHeaders (msg : HttpMessage) (update : Headers → Headers) :
    (msg.mapHeaders update).headers = update msg.headers := by
  cases msg <;> rfl

theorem Http1Message.keeps_preview (m : Http1Message) (previewCap : Nat) (more : Bytes) :
    Headers.Keeps m.msg.headers (m.preview previewCap more).msg.headers := by
  rw [preview, HttpMessage.headers_appendBody]
  exact .refl _

/-- A trailer field is added under a new name only. -/
theorem Http1Message.keeps_addTrailer (m : Http1Message) (line : Bytes) :
    Headers.Keeps m.msg.headers (m.addTrailer P line).msg.headers := by
  unfold addTrailer
  split
  · exact .refl _
  · rename_i field text _
    dsimp only
    rw [HttpMessage.headers_mapHeaders]
    split
    · exact .refl _
    · rename_i absent
      intro name value found
      have other : name ≠ P.toLowercase (trim field) := by
        rintro rfl
        rw [Dict.contains, found] at absent
        exact absent rfl
      rw [Dict.get?_insert_of_ne _ other]
      exact found

/-- What has become of a message whose headers were read: it is still pending, or it was the next
item, unless framing was invalid. -/
def Http1State.Carries (headers : Headers) (state : Http1State) (items : List Http1Item) : Prop :=
  match items with
  | [] => ∃ pending position, state = .body pending position ∧
      Headers.Keeps headers pending.msg.headers
  | .message m :: _ => Headers.Keeps headers m.msg.headers
  | .invalid _ :: _ => True

section Carries

variable {previewCap : Nat} {responseToHead responseToConnect : Bool} {headers : Headers}
  {state final : Http1State} {rest left : Bytes} {items : List Http1Item}

theorem Http1State.Carries.append {first more : List Http1Item}
    (carried : state.Carries headers first)
    (later : first = [] → final.Carries headers more) : final.Carries headers (first ++ more) := by
  match first, carried with
  | [], _ => exact later rfl
  | .message _ :: _, kept => exact kept
  | .invalid _ :: _, _ => trivial

variable {pending : Http1Message} {position : Body}

section

variable (kept : Headers.Keeps headers pending.msg.headers)
include kept

theorem Http1State.carries_takes {result : Turn}
    (taken : Takes P previewCap responseToHead responseToConnect (.body pending position) rest
      result) : result.state.Carries headers result.items := by
  cases taken with
  | fixedDone => exact kept.trans (pending.keeps_preview _ _)
  | fixedMore | dataMore | dataDone => exact ⟨_, _, rfl, kept.trans (pending.keeps_preview _ _)⟩
  | sizeWaits | sizeLast | sizeRead | crlfWaits | crlfRead | trailerWaits =>
    exact ⟨_, _, rfl, kept⟩
  | sizeTooLong | sizeBad | crlfBad | trailerTooLong => trivial
  | trailersEnd => exact kept
  | trailerRead => exact ⟨_, _, rfl, kept.trans (pending.keeps_addTrailer _)⟩

theorem Http1State.carries_drains
    (drains : Drains (Http1State.parserTurn P previewCap responseToHead responseToConnect)
      (.body pending position) rest final left items) : final.Carries headers items := by
  generalize start : Http1State.body pending position = state at drains
  induction drains generalizing pending position with
  | stop stops =>
    subst start
    exact carries_takes kept (takes_of_turn (parserTurn_eq_stop.mp stops))
  | next goes _ ih =>
    subst start
    have carried := carries_takes kept (takes_of_turn (parserTurn_eq_next.mp goes))
    refine carried.append fun silent => ?_
    dsimp only [Turn.items] at silent
    subst silent
    obtain ⟨pending', position', same, kept'⟩ := carried
    exact ih kept' same.symm

/-- However the body and the trailers of a message arrive, its headers are those that were read. -/
theorem Http1Decoder.carries_feedAll (left : Bytes) (chunks : List Bytes) :
    let result := feedAll (Http1State.drain P previewCap responseToHead responseToConnect)
      (.body pending position) left chunks
    result.1.Carries headers result.2.2 := by
  induction chunks generalizing pending position left with
  | nil => exact ⟨_, _, rfl, kept⟩
  | cons chunk chunks ih =>
    have drains : Drains (Http1State.parserTurn P previewCap responseToHead responseToConnect)
        (.body pending position) (left ++ chunk) _ _ _ := Http1State.drains_drain _ _
    have carried := Http1State.carries_drains kept drains
    simp only [feedAll]
    refine carried.append fun silent => ?_
    rw [silent] at carried
    obtain ⟨pending', position', same, kept'⟩ := carried
    simp only [same]
    exact ih kept' _

end

end Carries

/-- The event of a response has the headers that were decoded. -/
theorem StreamState.sat_http1Response_headers (call : Call) (payload : Bytes)
    (resp : HttpResponseParsed) (st : StreamState P) :
    Sat (st.http1Response C call payload resp) fun _ result =>
      ∀ event ∈ result.2, event.response.headers = resp.headers := by
  unfold http1Response
  split
  · exact sat_pure.mpr (by simp)
  · refine sat_note_bind.mpr (sat_bind.mpr fun log popped _ => ?_)
    obtain ⟨request, st⟩ := popped
    cases request with
    | none => exact sat_count_bind.mpr (sat_pure.mpr (by simp))
    | some request => exact sat_pure.mpr (by simp [http1Event])

/-! ## HTTP/2 -/

/-- No trailer field has the name of a header field and another value. -/
def Headers.Agree (headers : Headers) (fields : List (Str × Str)) : Prop :=
  ∀ field ∈ fields, headers.get? field.1 = none ∨ headers.get? field.1 = some field.2

namespace InflightResponses

variable {fields : List (Str × Str)}

theorem keeps_mergeHeaders {base : Headers} (agree : base.Agree fields) {headers : Headers}
    (kept : Headers.Keeps base headers) :
    Headers.Keeps base (mergeHeaders headers fields) := by
  induction fields generalizing headers with
  | nil => exact kept
  | cons field fields ih =>
    refine ih (fun other member => agree other (List.mem_cons_of_mem _ member)) ?_
    intro name value found
    by_cases same : name = field.1
    · subst same
      rcases agree field List.mem_cons_self with absent | equal
      · exact absurd (absent.symm.trans found) (by simp)
      · rw [Dict.get?_insert_self, ← equal, found]
    · rw [Dict.get?_insert_of_ne _ same]
      exact kept name value found

theorem get?_mergeHeaders_of_notMem {name : Str} (absent : name ∉ fields.map Prod.fst)
    (headers : Headers) :
    (mergeHeaders headers fields).get? name = headers.get? name := by
  induction fields generalizing headers with
  | nil => rfl
  | cons field fields ih =>
    rw [List.map_cons, List.mem_cons, not_or] at absent
    exact (ih absent.2 _).trans (Dict.get?_insert_of_ne _ absent.1 _)

/-- Each field is there with the value of the trailer. -/
theorem get?_mergeHeaders_of_mem (distinct : (fields.map Prod.fst).Nodup) {field : Str × Str}
    (member : field ∈ fields) (headers : Headers) :
    (mergeHeaders headers fields).get? field.1 = some field.2 := by
  induction fields generalizing headers with
  | nil => exact absurd member List.not_mem_nil
  | cons first fields ih =>
    rw [List.map_cons, List.nodup_cons] at distinct
    rcases List.mem_cons.mp member with rfl | later
    · exact (get?_mergeHeaders_of_notMem distinct.1 _).trans (Dict.get?_insert_self _ _ _)
    · exact ih distinct.2 later _

theorem keeps_mergeHeaders_iff (headers trailers : Headers) :
    Headers.Keeps headers (mergeHeaders headers trailers.entries) ↔
      headers.Agree trailers.entries := by
  constructor
  · intro kept field member
    have replaced := get?_mergeHeaders_of_mem trailers.nodup member headers
    cases found : headers.get? field.1 with
    | none => exact .inl rfl
    | some value =>
      rw [kept field.1 value found] at replaced
      exact .inr replaced
  · intro agree
    exact keeps_mergeHeaders agree (.refl headers)

/-- The ceiling can grant every field. -/
theorem outcome_mergeFields (streamId : UInt32) (maxTotal : Nat) (fields : List (Str × Str))
    {responses : InflightResponses} {held : Headers × Bytes}
    (known : assembled responses streamId = some held) :
    ∃ log after, Outcome (mergeFields streamId maxTotal fields responses) log after ∧
      assembled after streamId = some (mergeHeaders held.1 fields, held.2) := by
  induction fields generalizing responses held with
  | nil => exact ⟨[], responses, .done _, known⟩
  | cons field fields ih =>
    have grants : ∃ log middle,
        Outcome (mergeField responses streamId field.1 field.2 maxTotal) log middle ∧
          assembled middle streamId = some (held.1.insert field.1 field.2, held.2) := by
      unfold mergeField
      split
      · rename_i absent
        rw [assembled, absent] at known
        cases known
      · rename_i resp found
        rw [assembled, found] at known
        cases known
        exact ⟨_, _, .reserve true (.done _), assembled_of_insert (resp.addField _ _) rfl⟩
    obtain ⟨log, middle, first, added⟩ := grants
    obtain ⟨more, after, second, merged⟩ := ih added
    exact ⟨log ++ more, after, outcome_bind.mpr ⟨_, _, _, first, second, rfl⟩, merged⟩

end InflightResponses

namespace Http2Conn

/-- What has become of a response: the fields are still in its headers, or in those of its event. -/
def ResponseKeeps (headers : Headers) (streamId : UInt32)
    (result : Http2Conn P × List TrafficEvent) : Prop :=
  (∀ held, (result.1.slot streamId).response = some held → Headers.Keeps headers held.1) ∧
    ∀ event ∈ result.2, Headers.Keeps headers event.response.headers

theorem mem_finished {nowMs : Nat} {req : ParsedRequest}
    (usable : isUsableHttpRequest req.method req.path = true) {held : Headers × Bytes}
    {event : TrafficEvent} :
    event ∈ finished C nowMs (some req) held ↔ event = pairedEvent C nowMs req held.1 held.2 := by
  simp only [finished, Option.filter_some, usable, if_true, Option.map_some, Option.toList_some,
    List.mem_singleton]

section Trailers

variable {call : Call} {conn : Http2Conn P} {streamId : UInt32} {trailers headers : Headers}
  {endStream : Bool} {req : ParsedRequest} {body : Bytes}

section

variable (server : call.isRequestDir = false) (behind : trailers.get? (str ":status") = none)
  (usable : isUsableHttpRequest req.method req.path = true)
  (held : conn.slot streamId = ⟨some req, some (headers, body)⟩)
include server behind usable held

theorem responseKeeps_of_agree (agree : headers.Agree trailers.entries) :
    Sat (conn.onItem C call (.headers streamId trailers endStream)) fun _ result =>
      ResponseKeeps headers streamId result := by
  have about : (H2Item.headers streamId trailers endStream).stream = some streamId := rfl
  refine Each.sat ((every_onItem C call conn about).mono ?_)
  rintro smooth result ⟨-, own⟩
  rw [held] at own
  have merges : ∀ {admitted : List (Str × Str)}, admitted.Sublist trailers.entries →
      Headers.Keeps headers (InflightResponses.mergeHeaders headers admitted) := by
    intro admitted part
    exact InflightResponses.keeps_mergeHeaders
      (fun field member => agree field (part.subset member)) (.refl headers)
  unfold ResponseKeeps
  generalize result.1.slot streamId = after, result.2 = events at own ⊢
  cases own with
  | request client | requestRefused client | otherBlock client =>
    exact absurd (server.symm.trans client) Bool.false_ne_true
  | interim _ found | started _ found | startedLast _ found | startRefused _ found =>
    exact absurd (behind.symm.trans found) (by simp)
  | trailers admitted _ _ part =>
    refine ⟨fun other stored => ?_, by simp⟩
    cases stored
    exact merges part
  | trailersLast admitted _ _ part =>
    refine ⟨fun other stored => absurd stored (by simp [Slot.free]), fun event emitted => ?_⟩
    rw [(mem_finished usable).mp emitted]
    exact merges part

/-- The outcome in which the ceiling grants every trailer field. -/
theorem outcome_trailers :
    ∃ log result, Outcome (conn.onItem C call (.headers streamId trailers endStream)) log result ∧
      (ResponseKeeps headers streamId result →
        Headers.Keeps headers (InflightResponses.mergeHeaders headers trailers.entries)) := by
  have known : InflightResponses.assembled conn.responses streamId = some (headers, body) :=
    congrArg Slot.response held
  have pending : conn.pendingRequests.map.get? streamId = some req := congrArg Slot.request held
  obtain ⟨log, after, outcome, merged⟩ := InflightResponses.outcome_mergeFields streamId
    C.maxTotalBufferBytes trailers.entries known
  have present : conn.responses.map.contains streamId = true := by
    rw [InflightResponses.contains_eq_isSome_assembled, known]
    rfl
  have joined : Outcome (InflightResponses.mergeTrailers conn.responses streamId trailers
      C.maxTotalBufferBytes) log (true, after) := by
    rw [InflightResponses.mergeTrailers, if_pos present]
    exact outcome_bind.mpr ⟨log, after, [], outcome, .done _, (List.append_nil _).symm⟩
  have slot_eq : slot { conn with responses := after } streamId =
      ⟨some req, some (InflightResponses.mergeHeaders headers trailers.entries, body)⟩ := by
    rw [slot, merged, pending]
  have unfolds : conn.onItem C call (.headers streamId trailers endStream) =
      InflightResponses.mergeTrailers conn.responses streamId trailers C.maxTotalBufferBytes >>=
        fun joined => if joined.1 && endStream then
          finishH2Response C call.env.now { conn with responses := joined.2 } streamId
        else pure ({ conn with responses := joined.2 }, []) := by
    simp only [onItem, server, Bool.false_eq_true, if_false, responseHeaders, behind]
  rw [unfolds]
  cases endStream with
  | false =>
    refine ⟨_, _, outcome_bind.mpr ⟨log, _, [], joined, .done _, rfl⟩, fun keeps => ?_⟩
    exact keeps.1 _ (congrArg Slot.response slot_eq)
  | true =>
    have finishes := outcome_run (finishH2Response C call.env.now
      { conn with responses := after } streamId) 0
    obtain ⟨smooth, graded⟩ := finishes.graded Note.isDrop
    obtain ⟨-, -, done⟩ := every_finishH2Response C call.env.now
      { conn with responses := after } streamId smooth _ graded
    rw [slot_eq] at done
    refine ⟨_, _, outcome_bind.mpr ⟨log, _, _, joined, finishes, rfl⟩, fun keeps => ?_⟩
    refine keeps.2 (pairedEvent C call.env.now req _ body) ?_
    rw [done.2]
    exact (mem_finished usable).mpr rfl

/-- Trailers of HTTP/2 leave the headers of their response alone, whatever the ceiling answers,
exactly if none of them has the name of a header field and another value. -/
theorem responseKeeps_iff :
    Sat (conn.onItem C call (.headers streamId trailers endStream))
        (fun _ result => ResponseKeeps headers streamId result) ↔
      headers.Agree trailers.entries := by
  constructor
  · intro keeps
    obtain ⟨log, result, outcome, merges⟩ := outcome_trailers server behind usable held
    exact (InflightResponses.keeps_mergeHeaders_iff headers trailers).mp
      (merges (keeps log result outcome))
  · exact responseKeeps_of_agree server behind usable held

end

end Trailers

end Http2Conn

/-- Trailers and headers.  The HTTP/1 decoder hands out every message with the header fields that it
read before the body, and so does the event of a response.  On an HTTP/2 stream that is so, whatever
the ceiling answers, exactly if no trailer field has the name of a header field and another value.
-/
theorem trailers_keep_headers_iff (P : Platform) (C : Config) :
    (∀ (previewCap : Nat) (responseToHead responseToConnect : Bool) (pending : Http1Message)
        (position : Body) (left : Bytes) (chunks : List Bytes) (m : Http1Message)
        (items : List Http1Item),
      (Http1Decoder.mk (.body pending position) previewCap).feedChunks P responseToHead
          responseToConnect left chunks = .message m :: items →
        pending.msg.headers.Keeps m.msg.headers ∧
          ∀ resp, m.msg = .response resp → ∀ (call : Call) (payload : Bytes) (st : StreamState P),
            Sat (st.http1Response C call payload resp) fun _ result =>
              ∀ event ∈ result.2, pending.msg.headers.Keeps event.response.headers) ∧
    ∀ (call : Call) (conn : Http2Conn P) (streamId : UInt32) (trailers headers : Headers)
        (endStream : Bool) (req : ParsedRequest) (body : Bytes),
      call.isRequestDir = false → trailers.get? (str ":status") = none →
        isUsableHttpRequest req.method req.path = true →
        conn.slot streamId = ⟨some req, some (headers, body)⟩ →
        (Sat (conn.onItem C call (.headers streamId trailers endStream))
            (fun _ result => Http2Conn.ResponseKeeps headers streamId result) ↔
          headers.Agree trailers.entries) := by
  constructor
  · intro previewCap responseToHead responseToConnect pending position left chunks m items decoded
    rw [Http1Decoder.feedChunks_eq_feedAll] at decoded
    have carried : Http1State.Carries pending.msg.headers _ (feedAll (Http1State.drain P previewCap
        responseToHead responseToConnect) (.body pending position) left chunks).2.2 :=
      Http1Decoder.carries_feedAll (.refl pending.msg.headers) left chunks
    rw [decoded] at carried
    have kept : pending.msg.headers.Keeps m.msg.headers := carried
    refine ⟨kept, fun resp isResponse call payload st => ?_⟩
    refine (StreamState.sat_http1Response_headers call payload resp st).mono ?_
    intro log result same event emitted
    rw [same event emitted]
    rw [isResponse] at kept
    exact kept
  · intro call conn streamId trailers headers endStream req body server behind usable held
    exact Http2Conn.responseKeeps_iff server behind usable held

/-- A response whose checksum field the trailers repeat with another value. -/
def checksum (value : String) : Headers := Dict.empty.insert (str "x-checksum") (str value)

def checkedHeaders : Headers := (checksum "1").insert (str ":status") (str "200")

theorem trailers_keep_headers_iff_sample :
    let started := ((Http2Conn.waitingConn.onItem (serverConfig 65536) (Http2Conn.chunkCall 1)
      (.headers 1 checkedHeaders false)).run 0).1.1
    Sat (started.onItem (serverConfig 65536) (Http2Conn.chunkCall 1)
        (.headers 1 (checksum "1") true))
      fun _ result => Http2Conn.ResponseKeeps checkedHeaders 1 result :=
  ((trailers_keep_headers_iff asciiPlatform (serverConfig 65536)).2 (Http2Conn.chunkCall 1) _ 1
    (checksum "1") checkedHeaders true Http2Conn.pendingGet [] rfl (by decide +kernel)
    (by decide +kernel) (congrArg₂ Slot.mk (by decide +kernel) (by decide +kernel))).mpr
    (by unfold Headers.Agree; decide +kernel)

/-- The event of a response has the value of the trailer in place of that of the header. -/
theorem header_rewritten_by_trailer :
    let items := [.headers 1 checkedHeaders false, .headers 1 (checksum "2") true]
    let events := ((Http2Conn.onItems (serverConfig 65536) (Http2Conn.chunkCall 1) items
      Http2Conn.waitingConn).run 0).1.2
    checkedHeaders.get? (str "x-checksum") = some (str "1") ∧
      events.map (fun event => event.response.headers.get? (str "x-checksum")) =
        [some (str "2")] := by
  decide +kernel

end ApiSensor
