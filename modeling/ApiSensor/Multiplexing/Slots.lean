import ApiSensor.Stream.Handle

/-!
# Streams of an HTTP/2 connection, one at a time

`process_http2_event` keeps two maps by stream, the pending requests and the responses that are
being assembled.  What it does to one stream is a machine of its own, and an item changes no stream
but its own.
-/

namespace ApiSensor

open Library

/-- Something is turned away and counted in `EVENTS_DROPPED`. -/
def Note.isDrop : Note → Bool
  | .count .eventsDropped _ => true
  | _ => false

/-- Every outcome satisfies `post`, which is told whether nothing was refused. -/
abbrev Every {α : Type} (program : Act α) (post : Bool → α → Prop) : Prop :=
  Prog.Each Note.isDrop program post

section Every

variable {α : Type} {post : Bool → α → Prop}

theorem every_pure {result : α} : Every (pure result) post ↔ post true result := Prog.each_done

variable {amount : Nat} {rest : Unit → Act α}

theorem every_reserveMemory_bind {ceiling : Nat} {rest : Bool → Act α} :
    Every (reserveMemory ceiling amount >>= rest) post ↔
      ∀ granted, Every (rest granted) fun smooth => post (granted && smooth) :=
  Prog.each_reserve

theorem every_count_bind {metric : Metric} :
    Every (count metric amount >>= rest) post ↔
      Every (rest ()) fun smooth => post (!(Note.count metric amount).isDrop && smooth) :=
  Prog.each_log

theorem every_note_bind {entry : Note} :
    Every (note entry >>= rest) post ↔ Every (rest ()) fun smooth => post (!entry.isDrop && smooth) :=
  Prog.each_log

end Every

theorem every_releaseAt {κ ν : Type} {weight : ν → Nat} [DecidableEq κ]
    (charged : Charged κ weight) (key : κ) :
    Every (releaseAt charged key) fun smooth _ => smooth = true := by
  unfold releaseAt
  cases charged.map.get? key with
  | none => exact every_pure.mpr rfl
  | some value => exact Prog.each_release.mpr (Prog.each_done.mpr rfl)

/-! ## The containers -/

namespace PendingStreams

variable {P : Platform} (streams : PendingStreams P) (streamId : UInt32)

theorem every_cancel : Every (cancel streams streamId) fun smooth _ => smooth = true := by
  refine (every_releaseAt streams streamId).bind ?_
  rintro _ _ rfl
  cases streams.map.get? streamId with
  | none => exact every_pure.mpr rfl
  | some req => exact Prog.each_log.mpr (Prog.each_done.mpr rfl)

theorem every_remove :
    Every (remove streams streamId) fun smooth result =>
      smooth = true ∧ result = (streams.map.get? streamId, streams.without streamId) := by
  refine (every_releaseAt streams streamId).bind ?_
  rintro _ _ rfl
  exact every_pure.mpr ⟨rfl, rfl⟩

theorem get?_expireTake (nowMs ttlMs : Nat) :
    (expireTake streams nowMs ttlMs).2.map.get? streamId = none ∨
      (expireTake streams nowMs ttlMs).2.map.get? streamId = streams.map.get? streamId :=
  Dict.get?_retain_cases (fun _ (req : ParsedRequest) => !req.expired nowMs ttlMs) streams.map
    streamId

/-- The stream holds the new request, or nothing if it is refused. -/
theorem every_insert (req : ParsedRequest) (maxTotal cap : Nat) :
    Every (insert streams streamId req maxTotal cap) fun smooth result =>
      (∀ other, other ≠ streamId → result.2.map.get? other = streams.map.get? other) ∧
        (result.2.map.get? streamId = some req.capped ∨
          smooth = false ∧ result.2.map.get? streamId = none) := by
  have others : ∀ other, other ≠ streamId →
      (streams.without streamId).map.get? other = streams.map.get? other :=
    fun other distinct => Dict.get?_erase_of_ne _ distinct
  have gone : (streams.without streamId).map.get? streamId = none := Dict.get?_erase_self _ _
  refine (every_cancel streams streamId).bind ?_
  rintro _ _ rfl
  unfold insertNew refuse
  split
  · exact every_count_bind.mpr (every_note_bind.mpr (every_pure.mpr ⟨others, .inr ⟨rfl, gone⟩⟩))
  · refine every_reserveMemory_bind.mpr fun granted => ?_
    cases granted with
    | true =>
      refine every_note_bind.mpr (every_pure.mpr ⟨fun other distinct => ?_, .inl ?_⟩)
      · exact (Dict.get?_insert_of_ne _ distinct _).trans (others other distinct)
      · exact Dict.get?_insert_self _ _ _
    | false =>
      exact every_count_bind.mpr (every_note_bind.mpr (every_pure.mpr ⟨others, .inr ⟨rfl, gone⟩⟩))

theorem every_appendBody (data : Bytes) (maxTotal : Nat) :
    Every (appendBody streams streamId data maxTotal) fun _ result =>
      (∀ other, other ≠ streamId → result.2.map.get? other = streams.map.get? other) ∧
        ∃ more, result.2.map.get? streamId =
          (streams.map.get? streamId).map fun req => { req with body := req.body ++ more } := by
  have unchanged : ∃ more, streams.map.get? streamId =
      (streams.map.get? streamId).map fun req => { req with body := req.body ++ more } :=
    ⟨[], by simp⟩
  unfold appendBody
  split
  · exact every_pure.mpr ⟨fun _ _ => rfl, unchanged⟩
  · rename_i req found
    dsimp only
    split
    · exact every_pure.mpr ⟨fun _ _ => rfl, unchanged⟩
    · refine every_reserveMemory_bind.mpr fun granted => ?_
      cases granted with
      | true =>
        refine every_pure.mpr ⟨fun other distinct => Dict.get?_insert_of_ne _ distinct _,
          data.take (maxBodyCaptureBytes - req.body.length), ?_⟩
        refine (Dict.get?_insert_self _ _ _).trans ?_
        rw [found]
        rfl
      | false => exact every_pure.mpr ⟨fun _ _ => rfl, unchanged⟩

end PendingStreams

namespace InflightResponses

variable (responses : InflightResponses) (streamId : UInt32)

/-- The response of a stream as far as it has been assembled. -/
def assembled (responses : InflightResponses) (streamId : UInt32) : Option (Headers × Bytes) :=
  (responses.map.get? streamId).map fun resp => (resp.headers, resp.body)

/-- Headers with further fields, which replace those of the same name. -/
def mergeHeaders (headers : Headers) (fields : List (Str × Str)) : Headers :=
  fields.foldl (fun headers field => headers.insert field.1 field.2) headers

section Insert

variable {responses after : InflightResponses} {streamId : UInt32}

theorem assembled_of_insert (value : InflightResponse)
    (stored : after.map = responses.map.insert streamId value) :
    assembled after streamId = some (value.headers, value.body) := by
  rw [assembled, stored, Dict.get?_insert_self]
  rfl

theorem assembled_of_insert_of_ne {value : InflightResponse}
    (stored : after.map = responses.map.insert streamId value)
    {other : UInt32} (distinct : other ≠ streamId) :
    assembled after other = assembled responses other := by
  rw [assembled, stored, Dict.get?_insert_of_ne _ distinct]
  rfl

end Insert

theorem assembled_without : assembled (responses.without streamId) streamId = none := by
  unfold assembled
  rw [show (responses.without streamId).map.get? streamId = none from Dict.get?_erase_self _ _]
  rfl

variable {streamId} in
theorem assembled_without_of_ne {other : UInt32} (distinct : other ≠ streamId) :
    assembled (responses.without streamId) other = assembled responses other := by
  unfold assembled
  rw [show (responses.without streamId).map.get? other = responses.map.get? other from
    Dict.get?_erase_of_ne _ distinct]

/-- A response stays exactly if its request does. -/
theorem assembled_expire {P : Platform} (live : PendingStreams P) :
    assembled (expire responses live).2 streamId =
      if (live.map.get? streamId).isSome then assembled responses streamId else none := by
  have kept : (expire responses live).2.map.get? streamId =
      (responses.map.get? streamId).filter fun _ => (live.map.get? streamId).isSome :=
    Dict.get?_retain (fun streamId _ => PendingStreams.contains live streamId) responses.map streamId
  rw [assembled, kept, assembled]
  cases responses.map.get? streamId with
  | none => simp
  | some resp => cases (live.map.get? streamId).isSome <;> rfl

theorem contains_eq_isSome_assembled :
    responses.map.contains streamId = (assembled responses streamId).isSome := by
  rw [assembled, Option.isSome_map]
  rfl

theorem every_take :
    Every (take responses streamId) fun smooth result =>
      smooth = true ∧ result = (assembled responses streamId, responses.without streamId) := by
  refine (every_releaseAt responses streamId).bind ?_
  rintro _ _ rfl
  exact every_pure.mpr ⟨rfl, rfl⟩

/-- The stream holds the new response, or nothing if it is refused. -/
theorem every_start (headers : Headers) (maxTotal cap : Nat) :
    Every (start responses streamId headers maxTotal cap) fun smooth result =>
      (∀ other, other ≠ streamId → assembled result.2 other = assembled responses other) ∧
        (assembled result.2 streamId = some (headers, []) ∨
          smooth = false ∧ assembled result.2 streamId = none) := by
  have others : ∀ other, other ≠ streamId →
      assembled (responses.without streamId) other = assembled responses other :=
    fun other distinct => assembled_without_of_ne responses distinct
  have gone := assembled_without responses streamId
  refine (every_releaseAt responses streamId).bind ?_
  rintro _ _ rfl
  unfold startNew
  dsimp only
  split
  · exact every_count_bind.mpr (every_pure.mpr ⟨others, .inr ⟨rfl, gone⟩⟩)
  · refine every_reserveMemory_bind.mpr fun granted => ?_
    cases granted with
    | true =>
      refine every_pure.mpr ⟨fun other distinct => ?_, .inl ?_⟩
      · exact (assembled_of_insert_of_ne rfl distinct).trans (others other distinct)
      · exact assembled_of_insert ⟨headers, [], _, Nat.le_refl _⟩ rfl
    | false => exact every_count_bind.mpr (every_pure.mpr ⟨others, .inr ⟨rfl, gone⟩⟩)

theorem every_append (data : Bytes) (maxTotal : Nat) :
    Every (append responses streamId data maxTotal) fun _ result =>
      (∀ other, other ≠ streamId → assembled result.2 other = assembled responses other) ∧
        result.1 = (assembled responses streamId).isSome ∧
        ∃ more, assembled result.2 streamId =
          (assembled responses streamId).map fun held => (held.1, held.2 ++ more) := by
  have unchanged : ∃ more, assembled responses streamId =
      (assembled responses streamId).map fun held => (held.1, held.2 ++ more) := ⟨[], by simp⟩
  unfold append
  split
  · rename_i absent
    refine every_pure.mpr ⟨fun _ _ => rfl, ?_, unchanged⟩
    rw [assembled, absent]
    rfl
  · rename_i resp found
    have held : assembled responses streamId = some (resp.headers, resp.body) := by
      rw [assembled, found]
      rfl
    have known : true = (assembled responses streamId).isSome := by rw [held]; rfl
    dsimp only
    split
    · exact every_pure.mpr ⟨fun _ _ => rfl, known, unchanged⟩
    · refine every_reserveMemory_bind.mpr fun granted => ?_
      cases granted with
      | true =>
        refine every_pure.mpr ⟨fun other distinct => assembled_of_insert_of_ne rfl distinct, known,
          data.take (maxBodyCaptureBytes - resp.body.length), ?_⟩
        rw [held]
        exact assembled_of_insert (resp.addBody _) rfl
      | false => exact every_pure.mpr ⟨fun _ _ => rfl, known, unchanged⟩

/-- Part of the fields join the response on a stream, all of them if nothing is refused. -/
def Merges (responses after : InflightResponses) (streamId : UInt32) (fields : List (Str × Str))
    (smooth : Bool) : Prop :=
  (∀ other, other ≠ streamId → assembled after other = assembled responses other) ∧
    ∃ admitted, admitted.Sublist fields ∧ (smooth = true → admitted = fields) ∧
      assembled after streamId =
        (assembled responses streamId).map fun held => (mergeHeaders held.1 admitted, held.2)

theorem every_mergeField (name value : Str) (maxTotal : Nat)
    (known : (assembled responses streamId).isSome) :
    Every (mergeField responses streamId name value maxTotal) fun smooth after =>
      Merges responses after streamId [(name, value)] smooth := by
  unfold mergeField
  split
  · rename_i absent
    rw [assembled, absent] at known
    cases known
  · rename_i resp found
    have held : assembled responses streamId = some (resp.headers, resp.body) := by
      rw [assembled, found]
      rfl
    refine every_reserveMemory_bind.mpr fun granted => ?_
    cases granted with
    | true =>
      refine every_pure.mpr ⟨fun other distinct => assembled_of_insert_of_ne rfl distinct,
        [(name, value)], List.Sublist.refl _, fun _ => rfl, ?_⟩
      rw [held]
      exact assembled_of_insert (resp.addField name value) rfl
    | false =>
      refine every_pure.mpr ⟨fun _ _ => rfl, [], List.nil_sublist _, fun smooth => ?_, ?_⟩
      · cases smooth
      · rw [held]
        rfl

theorem every_mergeFields (fields : List (Str × Str)) (maxTotal : Nat)
    (known : (assembled responses streamId).isSome) :
    Every (mergeFields streamId maxTotal fields responses) fun smooth after =>
      Merges responses after streamId fields smooth := by
  induction fields generalizing responses with
  | nil =>
    refine every_pure.mpr ⟨fun _ _ => rfl, [], List.Sublist.refl _, fun _ => rfl, ?_⟩
    obtain ⟨held, eq⟩ := Option.isSome_iff_exists.mp known
    rw [eq]
    rfl
  | cons field fields induction =>
    refine (every_mergeField responses streamId field.1 field.2 maxTotal known).bind ?_
    rintro first middle ⟨others, taken, taken_sub, taken_all, merged⟩
    have known' : (assembled middle streamId).isSome := by
      rw [merged, Option.isSome_map]
      exact known
    refine (induction middle known').mono ?_
    rintro last after ⟨others', admitted, admitted_sub, admitted_all, merged'⟩
    refine ⟨fun other distinct => (others' other distinct).trans (others other distinct),
      taken ++ admitted, taken_sub.append admitted_sub, fun smooth => ?_, ?_⟩
    · obtain ⟨firstSmooth, lastSmooth⟩ := Bool.and_eq_true_iff.mp smooth
      rw [taken_all firstSmooth, admitted_all lastSmooth]
      rfl
    · rw [merged', merged, Option.map_map]
      simp [Function.comp_def, mergeHeaders]

theorem every_mergeTrailers (trailers : Headers) (maxTotal : Nat) :
    Every (mergeTrailers responses streamId trailers maxTotal) fun smooth result =>
      result.1 = (assembled responses streamId).isSome ∧
        Merges responses result.2 streamId trailers.entries smooth := by
  unfold mergeTrailers
  rw [contains_eq_isSome_assembled]
  cases known : (assembled responses streamId).isSome with
  | true =>
    refine (every_mergeFields responses streamId trailers.entries maxTotal known).bind ?_
    intro smooth after merges
    refine every_pure.mpr ⟨rfl, ?_⟩
    rw [Bool.and_true]
    exact merges
  | false =>
    have absent : assembled responses streamId = none := Option.not_isSome_iff_eq_none.mp (by
      rw [known]
      exact Bool.false_ne_true)
    refine every_pure.mpr ⟨rfl, fun _ _ => rfl, trailers.entries, List.Sublist.refl _,
      fun _ => rfl, ?_⟩
    rw [absent]
    rfl

end InflightResponses

/-! ## One stream -/

/-- The stream of an item; a GOAWAY concerns the whole connection. -/
def H2Item.stream : H2Item → Option UInt32
  | headers streamId _ _ => some streamId
  | data streamId _ _ => some streamId
  | reset streamId => some streamId
  | goAway _ => none

/-- What a connection holds of one stream: its request, and its response as far as it goes. -/
structure Slot where
  request : Option ParsedRequest
  response : Option (Headers × Bytes)

/-- Nothing is held. -/
def Slot.free : Slot := ⟨none, none⟩

namespace Http2Conn

variable {P : Platform}

def slot (conn : Http2Conn P) (streamId : UInt32) : Slot :=
  ⟨conn.pendingRequests.map.get? streamId, InflightResponses.assembled conn.responses streamId⟩

/-- The request that a header block of the client makes, if it is usable. -/
def requestOf (env : Env) (ev : TlsEventHeader) (headers : Headers) : Option ParsedRequest :=
  (headers.get? (str ":method")).bind fun method =>
    let path := (headers.get? (str ":path")).getD (str "/")
    if isUsableHttpRequest method path then
      some
        { method, path
          host := headers.get? (str ":authority")
          headers
          tsMs := env.now
          netCtx := netContextFromEvent env ev
          body := [] }
    else none

theorem requestHeaders_eq (C : Config) (env : Env) (ev : TlsEventHeader) (conn : Http2Conn P)
    (streamId : UInt32) (headers : Headers) :
    conn.requestHeaders C env ev streamId headers =
      match requestOf env ev headers with
      | none => pure (conn, [])
      | some req =>
        PendingStreams.insert conn.pendingRequests streamId req C.maxTotalBufferBytes
          maxH2PendingStreams >>= fun stored =>
        pure ({ conn with pendingRequests := stored.2 }, []) := by
  unfold requestHeaders requestOf
  cases headers.get? (str ":method") with
  | none => rfl
  | some method =>
    dsimp only [Option.bind_some]
    cases isUsableHttpRequest method ((headers.get? (str ":path")).getD (str "/")) <;> rfl

theorem requestOf_spec {env : Env} {ev : TlsEventHeader} {headers : Headers} {req : ParsedRequest}
    (made : requestOf env ev headers = some req) :
    isUsableHttpRequest req.method req.path = true ∧ req.body = [] := by
  obtain ⟨method, -, made⟩ := Option.bind_eq_some_iff.mp made
  dsimp only at made
  split at made
  · rename_i usable
    cases made
    exact ⟨usable, rfl⟩
  · cases made

/-- The event of a request and the response assembled for it. -/
def pairedEvent (C : Config) (nowMs : Nat) (request : ParsedRequest) (headers : Headers)
    (data : Bytes) : TrafficEvent :=
  let isGrpc := (headers.get? (str "content-type")).any fun value =>
    (str "application/grpc").isPrefixOf value
  { accountId := C.accountId
    observedAt := nowMs
    request
    response :=
      ⟨((headers.get? (str ":status")).bind parseI32).getD 0, headers, if isGrpc then [] else data⟩
    latencyMs := some (nowMs - request.tsMs)
    protocol := if isGrpc then .grpc else .http2
    grpcData := if isGrpc then data else [] }

/-- What a complete response emits. -/
def finished (C : Config) (nowMs : Nat) (request : Option ParsedRequest) (held : Headers × Bytes) :
    List TrafficEvent :=
  ((request.filter fun req => isUsableHttpRequest req.method req.path).map fun req =>
    pairedEvent C nowMs req held.1 held.2).toList

/-- What one item does to the stream it is about.  The flag tells whether nothing was refused. -/
inductive StreamStep (C : Config) (call : Call) :
    H2Item → Bool → Slot → Slot → List TrafficEvent → Prop
  /-- The client sends a request, which takes the place of any other. -/
  | request {streamId headers endStream smooth req held response}
      (client : call.isRequestDir = true) (made : requestOf call.env call.ev headers = some req) :
      StreamStep C call (.headers streamId headers endStream) smooth
        ⟨held, response⟩ ⟨some req, response⟩ []
  | requestRefused {streamId headers endStream req held response}
      (client : call.isRequestDir = true) (made : requestOf call.env call.ev headers = some req) :
      StreamStep C call (.headers streamId headers endStream) false
        ⟨held, response⟩ ⟨none, response⟩ []
  /-- A block without a usable request, such as trailers. -/
  | otherBlock {streamId headers endStream smooth slot}
      (client : call.isRequestDir = true) (unusable : requestOf call.env call.ev headers = none) :
      StreamStep C call (.headers streamId headers endStream) smooth slot slot []
  | requestData {streamId data endStream smooth held response} (more : Bytes)
      (client : call.isRequestDir = true) :
      StreamStep C call (.data streamId data endStream) smooth ⟨held, response⟩
        ⟨held.map fun req => { req with body := req.body ++ more }, response⟩ []
  | interim {streamId headers endStream smooth slot status} (server : call.isRequestDir = false)
      (found : headers.get? (str ":status") = some status) (first : status.head? = some '1') :
      StreamStep C call (.headers streamId headers endStream) smooth slot slot []
  /-- A final response without a request. -/
  | unpaired {streamId headers endStream smooth response status}
      (server : call.isRequestDir = false) (found : headers.get? (str ":status") = some status)
      (final : status.head? ≠ some '1') :
      StreamStep C call (.headers streamId headers endStream) smooth
        ⟨none, response⟩ ⟨none, response⟩ []
  | started {streamId headers smooth req response status} (server : call.isRequestDir = false)
      (found : headers.get? (str ":status") = some status) (final : status.head? ≠ some '1') :
      StreamStep C call (.headers streamId headers false) smooth
        ⟨some req, response⟩ ⟨some req, some (headers, [])⟩ []
  | startedLast {streamId headers smooth req response status} (server : call.isRequestDir = false)
      (found : headers.get? (str ":status") = some status) (final : status.head? ≠ some '1') :
      StreamStep C call (.headers streamId headers true) smooth ⟨some req, response⟩ .free
        (finished C call.env.now (some req) (headers, []))
  | startRefused {streamId headers endStream req response status}
      (server : call.isRequestDir = false) (found : headers.get? (str ":status") = some status)
      (final : status.head? ≠ some '1') :
      StreamStep C call (.headers streamId headers endStream) false
        ⟨some req, response⟩ ⟨some req, none⟩ []
  | unknownTrailers {streamId headers endStream smooth held} (server : call.isRequestDir = false)
      (absent : headers.get? (str ":status") = none) :
      StreamStep C call (.headers streamId headers endStream) smooth ⟨held, none⟩ ⟨held, none⟩ []
  | trailers {streamId headers smooth held response} (admitted : List (Str × Str))
      (server : call.isRequestDir = false) (absent : headers.get? (str ":status") = none)
      (part : admitted.Sublist headers.entries) (all : smooth = true → admitted = headers.entries) :
      StreamStep C call (.headers streamId headers false) smooth ⟨held, some response⟩
        ⟨held, some (InflightResponses.mergeHeaders response.1 admitted, response.2)⟩ []
  | trailersLast {streamId headers smooth held response} (admitted : List (Str × Str))
      (server : call.isRequestDir = false) (absent : headers.get? (str ":status") = none)
      (part : admitted.Sublist headers.entries) (all : smooth = true → admitted = headers.entries) :
      StreamStep C call (.headers streamId headers true) smooth ⟨held, some response⟩ .free
        (finished C call.env.now held
          (InflightResponses.mergeHeaders response.1 admitted, response.2))
  | unknownData {streamId data endStream smooth held} (server : call.isRequestDir = false) :
      StreamStep C call (.data streamId data endStream) smooth ⟨held, none⟩ ⟨held, none⟩ []
  | data {streamId data smooth held response} (more : Bytes) (server : call.isRequestDir = false) :
      StreamStep C call (.data streamId data false) smooth ⟨held, some response⟩
        ⟨held, some (response.1, response.2 ++ more)⟩ []
  | dataLast {streamId data smooth held response} (more : Bytes)
      (server : call.isRequestDir = false) :
      StreamStep C call (.data streamId data true) smooth ⟨held, some response⟩ .free
        (finished C call.env.now held (response.1, response.2 ++ more))
  | reset {streamId smooth slot} : StreamStep C call (.reset streamId) smooth slot .free []

/-- The streams that the test selects hold what they held. -/
def SameSlots (conn after : Http2Conn P) (selected : UInt32 → Prop) : Prop :=
  ∀ streamId, selected streamId → after.slot streamId = conn.slot streamId

variable {conn : Http2Conn P} {selected : UInt32 → Prop}

theorem SameSlots.trans {middle after : Http2Conn P} (first : SameSlots conn middle selected)
    (second : SameSlots middle after selected) :
    SameSlots conn after selected :=
  fun streamId holds => (second streamId holds).trans (first streamId holds)

theorem sameSlots_requests {requests : PendingStreams P} (same : ∀ streamId, selected streamId →
      requests.map.get? streamId = conn.pendingRequests.map.get? streamId) :
    SameSlots conn { conn with pendingRequests := requests } selected := by
  intro streamId holds
  rw [slot, slot, same streamId holds]

theorem sameSlots_responses {responses : InflightResponses} (same : ∀ streamId, selected streamId →
      InflightResponses.assembled responses streamId =
        InflightResponses.assembled conn.responses streamId) :
    SameSlots conn { conn with responses } selected := by
  intro streamId holds
  rw [slot, slot, same streamId holds]

/-! ## One item -/

variable (C : Config) (call : Call)

/-- A stream whose response is complete is freed. -/
theorem every_finishH2Response (nowMs : Nat) (conn : Http2Conn P) (streamId : UInt32) :
    Every (conn.finishH2Response C nowMs streamId) fun smooth result =>
      smooth = true ∧ SameSlots conn result.1 (· ≠ streamId) ∧
        match (conn.slot streamId).response with
        | none => result.1.slot streamId = conn.slot streamId ∧ result.2 = []
        | some held =>
          result.1.slot streamId = .free ∧
            result.2 = finished C nowMs (conn.slot streamId).request held := by
  have gone := InflightResponses.assembled_without conn.responses streamId
  have removed : (conn.pendingRequests.without streamId).map.get? streamId = none :=
    Dict.get?_erase_self _ _
  have others : SameSlots conn { conn with responses := conn.responses.without streamId }
      (· ≠ streamId) :=
    sameSlots_responses fun other distinct =>
      InflightResponses.assembled_without_of_ne conn.responses distinct
  unfold finishH2Response
  refine (InflightResponses.every_take conn.responses streamId).bind ?_
  rintro _ _ ⟨rfl, rfl⟩
  dsimp only [slot]
  cases held : InflightResponses.assembled conn.responses streamId with
  | none =>
    refine every_pure.mpr ⟨rfl, others, ?_, rfl⟩
    rw [gone]
  | some held =>
    refine (PendingStreams.every_remove conn.pendingRequests streamId).bind ?_
    rintro _ _ ⟨rfl, rfl⟩
    have free : slot { conn with
          pendingRequests := conn.pendingRequests.without streamId
          responses := conn.responses.without streamId } streamId = .free := by
      rw [slot, gone, removed]
      rfl
    have others' : SameSlots conn { conn with
          pendingRequests := conn.pendingRequests.without streamId
          responses := conn.responses.without streamId } (· ≠ streamId) :=
      others.trans (sameSlots_requests fun other distinct => Dict.get?_erase_of_ne _ distinct)
    dsimp only
    unfold finished
    cases (conn.pendingRequests.map.get? streamId).filter fun req =>
        isUsableHttpRequest req.method req.path with
    | none => exact every_count_bind.mpr (every_pure.mpr ⟨rfl, others', free, rfl⟩)
    | some req => exact every_pure.mpr ⟨rfl, others', free, rfl⟩

theorem every_requestHeaders (client : call.isRequestDir = true) (conn : Http2Conn P)
    (streamId : UInt32) (headers : Headers) (endStream : Bool) :
    Every (conn.requestHeaders C call.env call.ev streamId headers) fun smooth result =>
      SameSlots conn result.1 (· ≠ streamId) ∧
        StreamStep C call (.headers streamId headers endStream) smooth (conn.slot streamId)
          (result.1.slot streamId) result.2 := by
  rw [requestHeaders_eq]
  cases made : requestOf call.env call.ev headers with
  | none => exact every_pure.mpr ⟨fun _ _ => rfl, .otherBlock client made⟩
  | some req =>
    have whole : req.capped = req := by
      rw [ParsedRequest.capped, (requestOf_spec made).2, List.take_nil, ← (requestOf_spec made).2]
    refine (PendingStreams.every_insert conn.pendingRequests streamId req _ _).bind ?_
    rintro smooth stored ⟨others, found⟩
    refine every_pure.mpr ⟨sameSlots_requests others, ?_⟩
    dsimp only [slot]
    rcases found with found | ⟨rfl, found⟩
    · rw [found, whole]
      exact .request client made
    · rw [found]
      exact .requestRefused client made

theorem every_responseHeaders (server : call.isRequestDir = false) (conn : Http2Conn P)
    (streamId : UInt32) (headers : Headers) (endStream : Bool) :
    Every (conn.responseHeaders C call.env.now streamId headers endStream) fun smooth result =>
      SameSlots conn result.1 (· ≠ streamId) ∧
        StreamStep C call (.headers streamId headers endStream) smooth (conn.slot streamId)
          (result.1.slot streamId) result.2 := by
  unfold responseHeaders
  cases found : headers.get? (str ":status") with
  | some status =>
    dsimp only
    by_cases first : status.head? = some '1'
    · rw [if_pos first]
      exact every_pure.mpr ⟨fun _ _ => rfl, .interim server found first⟩
    · rw [if_neg first]
      cases pending : conn.pendingRequests.map.get? streamId with
      | none =>
        rw [if_pos (by simp [PendingStreams.contains, Dict.contains, pending])]
        refine every_count_bind.mpr (every_pure.mpr ⟨fun _ _ => rfl, ?_⟩)
        rw [slot, pending]
        exact .unpaired server found first
      | some req =>
        rw [if_neg (by simp [PendingStreams.contains, Dict.contains, pending])]
        refine (InflightResponses.every_start conn.responses streamId headers _ _).bind ?_
        rintro smooth ⟨_, responses⟩ ⟨others, held⟩
        have others : SameSlots conn { conn with responses } (· ≠ streamId) :=
          sameSlots_responses others
        have before : conn.slot streamId =
            ⟨some req, InflightResponses.assembled conn.responses streamId⟩ := by
          rw [slot, pending]
        rw [before]
        have middle : slot { conn with responses } streamId =
            ⟨some req, InflightResponses.assembled responses streamId⟩ := by
          rw [slot, pending]
        cases endStream with
        | false =>
          refine every_pure.mpr ⟨others, ?_⟩
          rcases held with held | ⟨rfl, held⟩
          · rw [middle, held]
            exact .started server found first
          · rw [middle, held]
            exact .startRefused server found first
        | true =>
          refine (every_finishH2Response C _ { conn with responses } streamId).mono ?_
          rintro _ result ⟨rfl, others', done⟩
          refine ⟨others.trans others', ?_⟩
          rcases held with held | ⟨rfl, held⟩
          · rw [middle, held] at done
            rw [done.1, done.2]
            exact .startedLast server found first
          · rw [middle, held] at done
            rw [done.1, done.2]
            exact .startRefused server found first
  | none =>
    refine (InflightResponses.every_mergeTrailers conn.responses streamId headers _).bind ?_
    rintro smooth ⟨merged, responses⟩ ⟨known, others, admitted, part, all, held⟩
    have others : SameSlots conn { conn with responses } (· ≠ streamId) :=
      sameSlots_responses others
    have middle : slot { conn with responses } streamId =
        ⟨(conn.slot streamId).request, InflightResponses.assembled responses streamId⟩ := rfl
    dsimp only at known held ⊢
    rw [known]
    cases response : InflightResponses.assembled conn.responses streamId with
    | none =>
      have before : conn.slot streamId = ⟨(conn.slot streamId).request, none⟩ := by
        rw [slot, response]
      refine every_pure.mpr ⟨others, ?_⟩
      rw [middle, held, response, before]
      exact .unknownTrailers server found
    | some response' =>
      have before : conn.slot streamId = ⟨(conn.slot streamId).request, some response'⟩ := by
        rw [slot, response]
      rw [response] at held
      cases endStream with
      | false =>
        refine every_pure.mpr ⟨others, ?_⟩
        rw [middle, held, before, Bool.and_true]
        exact .trailers admitted server found part all
      | true =>
        refine (every_finishH2Response C _ { conn with responses } streamId).mono ?_
        rintro _ result ⟨rfl, others', done⟩
        refine ⟨others.trans others', ?_⟩
        rw [middle, held] at done
        rw [done.1, done.2, before, Bool.and_true]
        exact .trailersLast admitted server found part all

theorem every_responseData (server : call.isRequestDir = false) (conn : Http2Conn P)
    (streamId : UInt32) (data : Bytes) (endStream : Bool) :
    Every (conn.onItem C call (.data streamId data endStream)) fun smooth result =>
      SameSlots conn result.1 (· ≠ streamId) ∧
        StreamStep C call (.data streamId data endStream) smooth (conn.slot streamId)
          (result.1.slot streamId) result.2 := by
  unfold onItem
  rw [server]
  refine (InflightResponses.every_append conn.responses streamId data _).bind ?_
  rintro smooth ⟨known, responses⟩ ⟨others, known_eq, more, held⟩
  have others : SameSlots conn { conn with responses } (· ≠ streamId) := sameSlots_responses others
  have middle : slot { conn with responses } streamId =
      ⟨(conn.slot streamId).request, InflightResponses.assembled responses streamId⟩ := rfl
  dsimp only at known_eq held ⊢
  rw [known_eq]
  cases response : InflightResponses.assembled conn.responses streamId with
  | none =>
    have before : conn.slot streamId = ⟨(conn.slot streamId).request, none⟩ := by
      rw [slot, response]
    refine every_pure.mpr ⟨others, ?_⟩
    rw [middle, held, response, before]
    exact .unknownData server
  | some response' =>
    have before : conn.slot streamId = ⟨(conn.slot streamId).request, some response'⟩ := by
      rw [slot, response]
    rw [response] at held
    cases endStream with
    | false =>
      refine every_pure.mpr ⟨others, ?_⟩
      rw [middle, held, before]
      exact .data more server
    | true =>
      refine (every_finishH2Response C _ { conn with responses } streamId).mono ?_
      rintro _ result ⟨rfl, others', done⟩
      refine ⟨others.trans others', ?_⟩
      rw [middle, held] at done
      rw [done.1, done.2, before]
      exact .dataLast more server

section

variable (streamIds : List UInt32) (conn : Http2Conn P)

/-- A reset frees its stream and no other. -/
theorem every_resetStream (streamId : UInt32) :
    Every (conn.resetStream streamId) fun _ after =>
      SameSlots conn after (· ≠ streamId) ∧ after.slot streamId = .free := by
  refine (InflightResponses.every_take conn.responses streamId).bind ?_
  rintro _ _ ⟨rfl, rfl⟩
  refine (PendingStreams.every_cancel conn.pendingRequests streamId).bind ?_
  rintro _ _ rfl
  refine every_pure.mpr ⟨fun other distinct => ?_, ?_⟩
  · dsimp only [slot]
    rw [InflightResponses.assembled_without_of_ne conn.responses distinct]
    congr 1
    exact Dict.get?_erase_of_ne _ distinct
  · dsimp only [slot]
    rw [InflightResponses.assembled_without]
    congr 1
    exact Dict.get?_erase_self _ _

theorem every_resetStreams :
    Every (resetStreams streamIds conn) fun _ after =>
      ∀ streamId, after.slot streamId = conn.slot streamId ∨
        streamId ∈ streamIds ∧ after.slot streamId = .free := by
  induction streamIds generalizing conn with
  | nil => exact every_pure.mpr fun _ => .inl rfl
  | cons streamId streamIds induction =>
    refine (every_resetStream conn streamId).bind ?_
    rintro _ middle ⟨others, free⟩
    refine (induction middle).mono fun _ after later other => ?_
    rcases later other with same | ⟨member, gone⟩
    · by_cases here : other = streamId
      · subst here
        exact .inr ⟨List.mem_cons_self, same.trans free⟩
      · exact .inl (same.trans (others other here))
    · exact .inr ⟨List.mem_cons_of_mem _ member, gone⟩

/-- An item takes a step of its stream and leaves the others alone. -/
theorem every_onItem {item : H2Item} {streamId : UInt32} (about : item.stream = some streamId) :
    Every (conn.onItem C call item) fun smooth result =>
      SameSlots conn result.1 (· ≠ streamId) ∧
        StreamStep C call item smooth (conn.slot streamId) (result.1.slot streamId) result.2 := by
  cases item with
  | headers streamId headers endStream =>
    cases about
    unfold onItem
    cases side : call.isRequestDir with
    | true => exact every_requestHeaders C call side conn streamId headers endStream
    | false => exact every_responseHeaders C call side conn streamId headers endStream
  | data streamId data endStream =>
    cases about
    cases side : call.isRequestDir with
    | true =>
      unfold onItem
      rw [side]
      refine (PendingStreams.every_appendBody conn.pendingRequests streamId data _).bind ?_
      rintro smooth ⟨_, requests⟩ ⟨others, more, found⟩
      refine every_pure.mpr ⟨sameSlots_requests others, ?_⟩
      dsimp only [slot] at found ⊢
      rw [found]
      exact .requestData more side
    | false => exact every_responseData C call side conn streamId data endStream
  | reset streamId =>
    cases about
    refine (every_resetStream conn streamId).bind ?_
    rintro smooth after ⟨others, free⟩
    refine every_pure.mpr ⟨others, ?_⟩
    rw [free]
    exact .reset
  | goAway lastStreamId => cases about

/-- A GOAWAY frees streams above the last one it names and emits nothing. -/
theorem every_goAway (lastStreamId : UInt32) :
    Every (conn.onItem C call (.goAway lastStreamId)) fun _ result =>
      result.2 = [] ∧
        ∀ streamId, result.1.slot streamId = conn.slot streamId ∨
          lastStreamId < streamId ∧ result.1.slot streamId = .free := by
  refine (every_resetStreams _ conn).bind ?_
  intro smooth after slots
  refine every_pure.mpr ⟨rfl, fun streamId => ?_⟩
  refine (slots streamId).imp_right fun ⟨member, free⟩ => ⟨?_, free⟩
  exact of_decide_eq_true (List.mem_filter.mp member).2

/-- Expiry frees some streams: a response leaves with its request. -/
theorem slot_expireStale (nowMs : Nat) (streamId : UInt32) :
    (conn.expireStale nowMs).conn.slot streamId = conn.slot streamId ∨
      (conn.expireStale nowMs).conn.slot streamId = .free := by
  have requests : (conn.expireRequests nowMs).2.map.get? streamId = none ∨
      (conn.expireRequests nowMs).2.map.get? streamId =
        conn.pendingRequests.map.get? streamId := by
    unfold expireRequests
    split
    · exact PendingStreams.get?_expireTake _ _ _ _
    · exact PendingStreams.get?_expireTake _ _ _ _
  have responses := InflightResponses.assembled_expire conn.responses streamId
    (conn.expireRequests nowMs).2
  unfold expireStale slot
  dsimp only
  rw [responses]
  rcases requests with gone | same
  · rw [gone]
    exact .inr rfl
  · rw [same]
    cases conn.pendingRequests.map.get? streamId with
    | none => exact .inr rfl
    | some req => exact .inl rfl

end

end Http2Conn

end ApiSensor
