import ApiSensor.Multiplexing.Requests

/-!
# Pairing by stream

A history of a connection lists the items that its directions decode, in the order in which they
are handled, with what each of them emits.  The part of a history that concerns one stream is read
off as a view, and what the connection holds of the stream follows the view whatever the other
streams do.
-/

namespace ApiSensor

open Library Prog

variable {P : Platform}

/-! ## Histories -/

/-- One moment in the life of a connection. -/
inductive Moment where
  /-- An item is handled.  `smooth` tells whether nothing was refused. -/
  | handled (call : Call) (item : H2Item) (smooth : Bool) (events : List TrafficEvent)
  /-- The memory ceiling refuses a chunk of frames. -/
  | refused
  /-- The eviction pass expires requests. -/
  | expired

namespace Moment

def events : Moment → List TrafficEvent
  | handled _ _ _ events => events
  | _ => []

/-- The events that an item of the stream emits. -/
def eventsOn (streamId : UInt32) : Moment → List TrafficEvent
  | handled _ item _ events => if item.stream = some streamId then events else []
  | _ => []

/-- END_STREAM arrives on the response side of the stream. -/
def Ends (streamId : UInt32) : Moment → Prop
  | handled call (.headers other _ endStream) _ _ =>
    call.isRequestDir = false ∧ other = streamId ∧ endStream = true
  | handled call (.data other _ endStream) _ _ =>
    call.isRequestDir = false ∧ other = streamId ∧ endStream = true
  | _ => False

/-- Nothing of the stream is refused, reset or expired. -/
def undisturbed (streamId : UInt32) : Moment → Bool
  | handled _ (.reset other) _ _ => other ≠ streamId
  | handled _ (.goAway last) _ _ => ¬ last < streamId
  | handled _ item smooth _ => item.stream ≠ some streamId || smooth
  | refused => false
  | expired => false

section Undisturbed

variable {streamId : UInt32} {call : Call} {smooth : Bool} {events : List TrafficEvent}

theorem undisturbed_headers {headers : Headers} {endStream : Bool} :
    (handled call (.headers streamId headers endStream) smooth events).undisturbed streamId =
      smooth := by
  simp [undisturbed, H2Item.stream]

theorem undisturbed_data {data : Bytes} {endStream : Bool} :
    (handled call (.data streamId data endStream) smooth events).undisturbed streamId = smooth := by
  simp [undisturbed, H2Item.stream]

theorem undisturbed_reset :
    (handled call (.reset streamId) smooth events).undisturbed streamId = false := by
  simp [undisturbed]

theorem undisturbed_goAway {last : UInt32} (above : last < streamId) :
    (handled call (.goAway last) smooth events).undisturbed streamId = false := by
  simp [undisturbed, above]

end Undisturbed

end Moment

namespace Http2Conn

/-- The item loop of `process_http2_event`, moment by moment. -/
inductive Handles (C : Config) (call : Call) :
    Http2Conn P → List H2Item → List Moment → Http2Conn P → Prop
  | nil (conn : Http2Conn P) : Handles C call conn [] [] conn
  | cons {conn middle final : Http2Conn P} {item : H2Item} {items : List H2Item} {smooth : Bool}
      {events : List TrafficEvent} {moments : List Moment} :
      Graded Note.isDrop (conn.onItem C call item) smooth (middle, events) →
      Handles C call middle items moments final →
      Handles C call conn (item :: items) (.handled call item smooth events :: moments) final

/-- What can have happened to a connection since it was opened: chunks were parsed or refused, and
requests expired. -/
inductive History (C : Config) : List Moment → Http2Conn P → Prop
  | opened : History C [] .new
  | touched {moments : List Moment} {conn : Http2Conn P} (nowMs : Nat) :
      History C moments conn → History C moments { conn with lastEventTs := nowMs }
  | parsed {moments more : List Moment} {conn final : Http2Conn P} (call : Call)
      (payload : Bytes) : History C moments conn →
      Handles C call (conn.fed call.isRequestDir payload)
        ((conn.direction call.isRequestDir).feed payload).2 more final →
      History C (moments ++ more) final
  | refused {moments : List Moment} {conn : Http2Conn P} :
      History C moments conn → History C (moments ++ [.refused]) conn
  | expired {moments : List Moment} {conn : Http2Conn P} (nowMs : Nat) :
      History C moments conn → History C (moments ++ [.expired]) (conn.expireStale nowMs).conn

end Http2Conn

/-! ## The view of one stream -/

/-- What has been seen of a stream that keeps to the protocol: its request, the final header block
and the trailers of its response, and whether END_STREAM has ended the response. -/
structure StreamView where
  request : Option ParsedRequest
  final : Option Headers
  trailers : Option Headers
  closed : Bool

namespace StreamView

def new : StreamView := ⟨none, none, none, false⟩

/-- A header block of the client: one of them makes a request. -/
def clientBlock (view : StreamView) : Option ParsedRequest → Option StreamView
  | none => some view
  | some req => if view.request.isNone then some { view with request := some req } else none

/-- A header block of the server: interim ones, then the final one once the request is there, then
one with trailers at most. -/
def serverBlock (view : StreamView) (headers : Headers) (endStream : Bool) : Option StreamView :=
  match headers.get? (str ":status") with
  | some status =>
    if status.head? = some '1' then
      if view.final.isNone && !endStream then some view else none
    else if view.request.isSome && view.final.isNone then
      some { view with final := some headers, closed := endStream }
    else none
  | none =>
    if view.final.isSome && view.trailers.isNone && !view.closed then
      some { view with trailers := some headers, closed := endStream }
    else none

/-- Data of the response. -/
def serverData (view : StreamView) (endStream : Bool) : Option StreamView :=
  if view.final.isSome && !view.closed then some { view with closed := endStream } else none

/-- The view after one more moment, if that keeps to the protocol. -/
def advance (streamId : UInt32) (view : StreamView) : Moment → Option StreamView
  | .handled call (.headers other headers endStream) _ _ =>
    if other ≠ streamId then some view
    else if call.isRequestDir then
      view.clientBlock (Http2Conn.requestOf call.env call.ev headers)
    else view.serverBlock headers endStream
  | .handled call (.data other _ endStream) _ _ =>
    if other ≠ streamId || call.isRequestDir then some view else view.serverData endStream
  | _ => some view

/-- The fields of the trailers. -/
def trailerFields (view : StreamView) : List (Str × Str) := view.trailers.elim [] Dict.entries

end StreamView

/-- The view of a stream in a history. -/
def viewOf (streamId : UInt32) (moments : List Moment) : Option StreamView :=
  moments.foldlM (StreamView.advance streamId) .new

/-- Every stream keeps to the protocol. -/
def WellFormed (moments : List Moment) : Prop := ∀ streamId, (viewOf streamId moments).isSome

/-- An event pairs the request of the stream with its final header block and trailers.  Fields of
the trailers can be refused; all of them are there if `whole` holds. -/
def StreamView.Pairs (view : StreamView) (whole : Prop) (event : TrafficEvent) : Prop :=
  ∃ req final admitted, view.request = some req ∧ view.final = some final ∧
    event.request = { req with body := event.request.body } ∧
    event.response.headers = InflightResponses.mergeHeaders final admitted ∧
    admitted.Sublist view.trailerFields ∧ (whole → admitted = view.trailerFields)

/-! ## Slots follow views -/

/-- What is held of a stream, given its view and the events it has emitted; `clean` says that
nothing of it was refused, reset or expired. -/
structure Tracks (view : StreamView) (clean : Prop) (emitted : List TrafficEvent) (slot : Slot) :
    Prop where
  order : view.final = none → view.trailers = none
  request : ∀ req, slot.request = some req → isUsableHttpRequest req.method req.path = true ∧
    ∃ made, view.request = some made ∧ req = { made with body := req.body }
  paired : ∀ held, slot.response = some held → slot.request.isSome
  response : ∀ held, slot.response = some held → view.closed = false ∧
    ∃ final admitted, view.final = some final ∧
      held.1 = InflightResponses.mergeHeaders final admitted ∧
      admitted.Sublist view.trailerFields ∧ (clean → admitted = view.trailerFields)
  once : emitted ≠ [] → emitted.length = 1 ∧ slot = .free ∧ view.request.isSome ∧
    view.final.isSome
  pending : clean → view.request.isSome → emitted = [] → slot.request.isSome
  answering : clean → view.final.isSome → view.closed = false → slot.response.isSome
  answered : clean → view.closed = true → emitted ≠ []

namespace Tracks

variable {view : StreamView} {clean : Prop} {emitted : List TrafficEvent} {slot : Slot}

theorem mono (tracks : Tracks view clean emitted slot) {clean' : Prop} (stricter : clean' → clean) :
    Tracks view clean' emitted slot where
  order := tracks.order
  request := tracks.request
  paired := tracks.paired
  response held found := by
    obtain ⟨opened, final, admitted, final_eq, headers, part, all⟩ := tracks.response held found
    exact ⟨opened, final, admitted, final_eq, headers, part, fun holds => all (stricter holds)⟩
  once := tracks.once
  pending holds := tracks.pending (stricter holds)
  answering holds := tracks.answering (stricter holds)
  answered holds := tracks.answered (stricter holds)

/-- A stream can be given up at any time. -/
theorem drop (tracks : Tracks view clean emitted slot) {clean' : Prop} (disturbed : ¬ clean') :
    Tracks view clean' emitted .free where
  order := tracks.order
  request _ found := by cases found
  paired _ found := by cases found
  response _ found := by cases found
  once emits := ⟨(tracks.once emits).1, rfl, (tracks.once emits).2.2⟩
  pending holds := absurd holds disturbed
  answering holds := absurd holds disturbed
  answered holds := absurd holds disturbed

end Tracks

theorem tracks_new : Tracks .new True [] .free where
  order _ := rfl
  request _ found := by cases found
  paired _ found := by cases found
  response _ found := by cases found
  once emits := absurd rfl emits
  pending _ seen := by cases seen
  answering _ seen := by cases seen
  answered _ closed := by cases closed

/-- A request that is tracked is reported when its response is complete. -/
theorem finished_tracked (C : Config) (nowMs : Nat) {req : ParsedRequest} (held : Headers × Bytes)
    (usable : isUsableHttpRequest req.method req.path = true) :
    Http2Conn.finished C nowMs (some req) held =
      [Http2Conn.pairedEvent C nowMs req held.1 held.2] := by
  rw [Http2Conn.finished, Option.filter_some, if_pos usable]
  rfl

namespace Tracks

variable {view : StreamView} {clean : Prop} {emitted : List TrafficEvent} {slot : Slot}
  {C : Config} {call : Call}

variable {clean' : Prop} {response : Option (Headers × Bytes)} {view' : StreamView}
  {final : Headers} {req : ParsedRequest}

/-- A stream whose response has ended. -/
theorem ended (seen : view.request.isSome) (final_eq : view.final = some final)
    (closed : view.closed = true) (event : TrafficEvent) :
    Tracks view clean [event] .free where
  order none := by rw [final_eq] at none; cases none
  request _ found := by cases found
  paired _ found := by cases found
  response _ found := by cases found
  once _ := ⟨rfl, rfl, seen, by rw [final_eq]; rfl⟩
  pending _ _ none := by cases none
  answering _ _ opened := by rw [closed] at opened; cases opened
  answered _ _ := List.cons_ne_nil _ _

variable {held : Option ParsedRequest}

section

variable (tracks : Tracks view clean emitted ⟨held, response⟩)
include tracks

/-- The client sends a block that makes a request. -/
theorem clientRequest (usable : isUsableHttpRequest req.method req.path = true)
    (moves : view.clientBlock (some req) = some view') (stricter : clean' → clean) :
    Tracks view' clean' emitted ⟨some req, response⟩ ∧
      (¬ clean' → Tracks view' clean' emitted ⟨none, response⟩) := by
  unfold StreamView.clientBlock at moves
  dsimp only at moves
  split at moves
  · rename_i unseen
    cases moves
    rw [Option.isNone_iff_eq_none] at unseen
    have silent : emitted = [] := by
      by_contra emits
      obtain ⟨-, -, seen, -⟩ := tracks.once emits
      rw [unseen] at seen
      cases seen
    have idle : response = none := by
      cases found : response with
      | none => rfl
      | some held' =>
        obtain ⟨other, other_eq⟩ := Option.isSome_iff_exists.mp (tracks.paired held' found)
        obtain ⟨-, made, made_eq, -⟩ := tracks.request other other_eq
        rw [unseen] at made_eq
        cases made_eq
    subst idle silent
    constructor
    · exact
        { order := tracks.order
          request := fun other found => by
            cases found
            exact ⟨usable, req, rfl, rfl⟩
          paired := fun _ found => by cases found
          response := fun _ found => by cases found
          once := fun emits => absurd rfl emits
          pending := fun _ _ _ => rfl
          answering := fun holds => tracks.answering (stricter holds)
          answered := fun holds => tracks.answered (stricter holds) }
    · intro disturbed
      exact
        { order := tracks.order
          request := fun _ found => by cases found
          paired := fun _ found => by cases found
          response := fun _ found => by cases found
          once := fun emits => absurd rfl emits
          pending := fun holds => absurd holds disturbed
          answering := fun holds => absurd holds disturbed
          answered := fun holds => absurd holds disturbed }
  · cases moves

/-- Data of the client only changes the body of the request. -/
theorem clientData (more : Bytes) :
    Tracks view clean emitted
      ⟨held.map fun req => { req with body := req.body ++ more }, response⟩ where
  order := tracks.order
  request req found := by
    obtain ⟨before, before_eq, rfl⟩ := Option.map_eq_some_iff.mp found
    obtain ⟨usable, made, made_eq, same⟩ := tracks.request before before_eq
    refine ⟨usable, made, made_eq, ?_⟩
    rw [same]
  paired held' found := by
    rw [Option.isSome_map]
    exact tracks.paired held' found
  response := tracks.response
  once emits := by
    obtain ⟨single, free, seen⟩ := tracks.once emits
    cases free
    exact ⟨single, rfl, seen⟩
  pending holds seen silent := by
    rw [Option.isSome_map]
    exact tracks.pending holds seen silent
  answering := tracks.answering
  answered := tracks.answered

/-- The response of a stream is not being assembled: something was refused, reset or expired. -/
theorem lost (same : view'.request = view.request) (final : view'.final.isSome)
    (disturbed : ¬ clean') :
    Tracks view' clean' emitted ⟨held, none⟩ where
  order none := by rw [none] at final; cases final
  request := by
    rw [same]
    exact tracks.request
  paired _ found := by cases found
  response _ found := by cases found
  once emits := by
    obtain ⟨single, free, seen, -⟩ := tracks.once emits
    cases free
    exact ⟨single, rfl, by rwa [same], final⟩
  pending holds := absurd holds disturbed
  answering holds := absurd holds disturbed
  answered holds := absurd holds disturbed

end

/-- The final header block of a response that is being assembled. -/
theorem started (tracks : Tracks view clean emitted ⟨some req, response⟩)
    (unseen : view.final = none) (headers : Headers) :
    Tracks { view with final := some headers, closed := false } clean' emitted
      ⟨some req, some (headers, [])⟩ := by
  have none : view.trailerFields = [] := by
    rw [StreamView.trailerFields, tracks.order unseen]
    rfl
  exact
    { order := fun none => by cases none
      request := tracks.request
      paired := fun _ _ => rfl
      response := fun held found => by
        cases found
        refine ⟨rfl, headers, [], rfl, rfl, List.nil_sublist _, fun _ => ?_⟩
        exact none.symm
      once := fun emits => by
        obtain ⟨-, free, -⟩ := tracks.once emits
        cases free
      pending := fun _ _ _ => rfl
      answering := fun _ _ _ => rfl
      answered := fun _ closed => by cases closed }

/-- More of a response that is being assembled. -/
theorem continued {response response' : Headers × Bytes} {admitted : List (Str × Str)}
    (tracks : Tracks view clean emitted ⟨held, some response⟩) (same : view'.request = view.request)
    (final_eq : view'.final = some final) (opened : view'.closed = false)
    (headers : response'.1 = InflightResponses.mergeHeaders final admitted)
    (part : admitted.Sublist view'.trailerFields) (all : clean' → admitted = view'.trailerFields) :
    Tracks view' clean' emitted ⟨held, some response'⟩ where
  order none := by rw [final_eq] at none; cases none
  request := by
    rw [same]
    exact tracks.request
  paired _ _ := tracks.paired response rfl
  response _ found := by
    cases found
    exact ⟨opened, final, admitted, final_eq, headers, part, all⟩
  once emits := by
    obtain ⟨-, free, -⟩ := tracks.once emits
    cases free
  pending _ _ _ := tracks.paired response rfl
  answering _ _ _ := rfl
  answered _ closed := by rw [opened] at closed; cases closed

/-- Before the trailers the assembled headers are the final ones. -/
theorem headers_of_no_trailers {response : Headers × Bytes}
    (tracks : Tracks view clean emitted ⟨held, some response⟩) (none : view.trailers = none) :
    ∃ final, view.final = some final ∧ response.1 = final := by
  obtain ⟨-, final, admitted, final_eq, headers, part, -⟩ := tracks.response response rfl
  rw [StreamView.trailerFields, none] at part
  rw [List.sublist_nil.mp part] at headers
  exact ⟨final, final_eq, headers⟩

/-- The end of a response that is being assembled: its event is emitted. -/
theorem finish {held : Headers × Bytes} {admitted : List (Str × Str)}
    (tracks : Tracks view clean emitted ⟨some req, response⟩) (same : view'.request = view.request)
    (final_eq : view'.final = some final) (closed : view'.closed = true)
    (headers : held.1 = InflightResponses.mergeHeaders final admitted)
    (part : admitted.Sublist view'.trailerFields) (all : clean' → admitted = view'.trailerFields)
    (nowMs : Nat) :
    Tracks view' clean' (emitted ++ Http2Conn.finished C nowMs (some req) held) .free ∧
      ∀ event ∈ Http2Conn.finished C nowMs (some req) held, view'.Pairs clean' event := by
  have silent : emitted = [] := by
    by_contra emits
    obtain ⟨-, free, -⟩ := tracks.once emits
    cases free
  obtain ⟨usable, made, made_eq, req_eq⟩ := tracks.request req rfl
  rw [← same] at made_eq
  rw [silent, finished_tracked C nowMs held usable]
  refine ⟨ended (by rw [made_eq]; rfl) final_eq closed _, fun event emits => ?_⟩
  rw [List.mem_singleton.mp emits]
  exact ⟨made, final, admitted, made_eq, final_eq, req_eq, headers, part, all⟩

end Tracks

/-! ## One item of a stream -/

namespace StreamView

variable {view view' : StreamView} {headers : Headers} {endStream : Bool} {status : Str}

theorem serverBlock_interim (found : headers.get? (str ":status") = some status)
    (first : status.head? = some '1') (moves : view.serverBlock headers endStream = some view') :
    view' = view := by
  rw [serverBlock, found] at moves
  dsimp only at moves
  rw [if_pos first] at moves
  split at moves
  · cases moves
    rfl
  · cases moves

theorem serverBlock_final (found : headers.get? (str ":status") = some status)
    (final : status.head? ≠ some '1') (moves : view.serverBlock headers endStream = some view') :
    view.request.isSome ∧ view.final = none ∧
      view' = { view with final := some headers, closed := endStream } := by
  rw [serverBlock, found] at moves
  dsimp only at moves
  rw [if_neg final] at moves
  split at moves
  · rename_i fits
    cases moves
    rw [Bool.and_eq_true, Option.isNone_iff_eq_none] at fits
    exact ⟨fits.1, fits.2, rfl⟩
  · cases moves

theorem serverBlock_trailers (absent : headers.get? (str ":status") = none)
    (moves : view.serverBlock headers endStream = some view') :
    view.final.isSome ∧ view.trailers = none ∧ view.closed = false ∧
      view' = { view with trailers := some headers, closed := endStream } := by
  rw [serverBlock, absent] at moves
  dsimp only at moves
  split at moves
  · rename_i fits
    cases moves
    rw [Bool.and_eq_true, Bool.and_eq_true, Option.isNone_iff_eq_none, Bool.not_eq_true'] at fits
    exact ⟨fits.1.1, fits.1.2, fits.2, rfl⟩
  · cases moves

theorem serverData_eq (moves : view.serverData endStream = some view') :
    view.final.isSome ∧ view.closed = false ∧ view' = { view with closed := endStream } := by
  rw [serverData] at moves
  split at moves
  · rename_i fits
    cases moves
    rw [Bool.and_eq_true, Bool.not_eq_true'] at fits
    exact ⟨fits.1, fits.2, rfl⟩
  · cases moves

end StreamView

namespace Tracks

variable {view view' : StreamView} {clean : Prop} {emitted events : List TrafficEvent}
  {slot slot' : Slot} {C : Config} {call : Call} {streamId : UInt32} {smooth endStream : Bool}

section

variable (tracks : Tracks view clean emitted slot)
include tracks

theorem clientBlock {headers : Headers} (client : call.isRequestDir = true)
    (step : Http2Conn.StreamStep C call (.headers streamId headers endStream) smooth slot slot'
      events) (moves : view.clientBlock (Http2Conn.requestOf call.env call.ev headers) = some view') :
    Tracks view' (clean ∧ smooth = true) emitted slot' ∧ events = [] := by
  cases step with
  | request _ made =>
    rw [made] at moves
    have usable := (Http2Conn.requestOf_spec made).1
    exact ⟨(tracks.clientRequest usable moves And.left).1, rfl⟩
  | requestRefused _ made =>
    rw [made] at moves
    have usable := (Http2Conn.requestOf_spec made).1
    refine ⟨(tracks.clientRequest usable moves And.left).2 ?_, rfl⟩
    rintro ⟨-, smooth⟩
    cases smooth
  | otherBlock _ unusable =>
    rw [unusable] at moves
    cases moves
    exact ⟨tracks.mono And.left, rfl⟩
  | interim server | unpaired server | started server | startedLast server
  | startRefused server | unknownTrailers server | trailers _ server | trailersLast _ server =>
    rw [client] at server
    cases server

theorem serverBlock {headers : Headers} (server : call.isRequestDir = false)
    (step : Http2Conn.StreamStep C call (.headers streamId headers endStream) smooth slot slot'
      events) (moves : view.serverBlock headers endStream = some view') :
    Tracks view' (clean ∧ smooth = true) (emitted ++ events) slot' ∧
      ∀ event ∈ events, endStream = true ∧ view'.Pairs (clean ∧ smooth = true) event := by
  cases step with
  | request client | requestRefused client | otherBlock client =>
    rw [server] at client
    cases client
  | interim _ found first =>
    cases StreamView.serverBlock_interim found first moves
    rw [List.append_nil]
    exact ⟨tracks.mono And.left, by simp⟩
  | @unpaired _ _ _ _ response status _ found final =>
    obtain ⟨seen, unseen, rfl⟩ := StreamView.serverBlock_final found final moves
    have idle : response = none := by
      cases held : response with
      | none => rfl
      | some held' => cases tracks.paired held' held
    have silent : emitted = [] := by
      by_contra emits
      obtain ⟨-, -, -, final⟩ := tracks.once emits
      rw [unseen] at final
      cases final
    subst idle
    rw [List.append_nil]
    refine ⟨tracks.lost rfl rfl ?_, by simp⟩
    rintro ⟨holds, -⟩
    cases tracks.pending holds seen silent
  | started _ found final =>
    obtain ⟨-, unseen, rfl⟩ := StreamView.serverBlock_final found final moves
    rw [List.append_nil]
    exact ⟨tracks.started unseen headers, by simp⟩
  | startedLast _ found final =>
    obtain ⟨-, unseen, rfl⟩ := StreamView.serverBlock_final found final moves
    have none : view.trailerFields = [] := by
      rw [StreamView.trailerFields, tracks.order unseen]
      rfl
    have done := tracks.finish (C := C)
      (show StreamView.request { view with final := some headers, closed := true } = _ from rfl)
      rfl rfl (show (headers, ([] : Bytes)).1 = InflightResponses.mergeHeaders headers [] from rfl)
      (List.nil_sublist _) (fun _ : clean ∧ smooth = true => none.symm) call.env.now
    exact ⟨done.1, fun event emits => ⟨rfl, done.2 event emits⟩⟩
  | startRefused _ found final =>
    obtain ⟨-, -, rfl⟩ := StreamView.serverBlock_final found final moves
    rw [List.append_nil]
    refine ⟨tracks.lost rfl rfl ?_, by simp⟩
    rintro ⟨-, smooth⟩
    cases smooth
  | unknownTrailers _ absent =>
    obtain ⟨final, -, opened, rfl⟩ := StreamView.serverBlock_trailers absent moves
    rw [List.append_nil]
    refine ⟨tracks.lost rfl final ?_, by simp⟩
    rintro ⟨holds, -⟩
    cases tracks.answering holds final opened
  | @trailers _ _ _ held response admitted _ absent part all =>
    obtain ⟨-, none, -, rfl⟩ := StreamView.serverBlock_trailers absent moves
    obtain ⟨final, final_eq, headers_eq⟩ := tracks.headers_of_no_trailers none
    rw [List.append_nil]
    refine ⟨tracks.continued rfl final_eq rfl ?_ part fun holds => all holds.2, by simp⟩
    rw [headers_eq]
  | @trailersLast _ _ _ held response admitted _ absent part all =>
    obtain ⟨-, none, -, rfl⟩ := StreamView.serverBlock_trailers absent moves
    obtain ⟨final, final_eq, headers_eq⟩ := tracks.headers_of_no_trailers none
    obtain ⟨req, rfl⟩ := Option.isSome_iff_exists.mp (tracks.paired response rfl)
    rw [headers_eq]
    have done := tracks.finish (C := C)
      (show StreamView.request { view with trailers := some headers, closed := true } = _ from rfl)
      final_eq rfl
      (show (InflightResponses.mergeHeaders final admitted, response.2).1 = _ from rfl)
      part (fun holds : clean ∧ smooth = true => all holds.2) call.env.now
    exact ⟨done.1, fun event emits => ⟨rfl, done.2 event emits⟩⟩

theorem serverData {data : Bytes} (server : call.isRequestDir = false)
    (step : Http2Conn.StreamStep C call (.data streamId data endStream) smooth slot slot' events)
    (moves : view.serverData endStream = some view') :
    Tracks view' (clean ∧ smooth = true) (emitted ++ events) slot' ∧
      ∀ event ∈ events, endStream = true ∧ view'.Pairs (clean ∧ smooth = true) event := by
  obtain ⟨final, opened, rfl⟩ := StreamView.serverData_eq moves
  cases step with
  | requestData _ client => rw [server] at client; cases client
  | unknownData =>
    rw [List.append_nil]
    refine ⟨tracks.lost rfl final ?_, by simp⟩
    rintro ⟨holds, -⟩
    cases tracks.answering holds final opened
  | @data _ _ _ held response more =>
    obtain ⟨-, final, admitted, final_eq, headers, part, all⟩ := tracks.response response rfl
    rw [List.append_nil]
    exact ⟨tracks.continued rfl final_eq rfl headers part fun holds => all holds.1, by simp⟩
  | @dataLast _ _ _ held response more =>
    obtain ⟨-, final, admitted, final_eq, headers, part, all⟩ := tracks.response response rfl
    obtain ⟨req, rfl⟩ := Option.isSome_iff_exists.mp (tracks.paired response rfl)
    have done := tracks.finish (C := C)
      (show StreamView.request { view with closed := true } = _ from rfl) final_eq rfl
      (show (response.1, response.2 ++ more).1 = _ from headers) part
      (fun holds : clean ∧ smooth = true => all holds.1) call.env.now
    exact ⟨done.1, fun event emits => ⟨rfl, done.2 event emits⟩⟩

/-- An item takes a stream from one view to the next; what it emits pairs what the view has seen. -/
theorem step {item : H2Item} (about : item.stream = some streamId)
    (taken : Http2Conn.StreamStep C call item smooth slot slot' events)
    (moves : view.advance streamId (.handled call item smooth events) = some view') :
    let moment := Moment.handled call item smooth events
    Tracks view' (clean ∧ moment.undisturbed streamId = true) (emitted ++ events) slot' ∧
      ∀ event ∈ events, moment.Ends streamId ∧
        view'.Pairs (clean ∧ moment.undisturbed streamId = true) event := by
  dsimp only
  cases item with
  | headers other headers endStream =>
    cases about
    rw [Moment.undisturbed_headers]
    unfold StreamView.advance at moves
    dsimp only at moves
    rw [if_neg (not_not.mpr rfl)] at moves
    cases side : call.isRequestDir with
    | true =>
      rw [if_pos side] at moves
      obtain ⟨after, rfl⟩ := tracks.clientBlock side taken moves
      rw [List.append_nil]
      exact ⟨after, by simp⟩
    | false =>
      rw [if_neg (by rw [side]; exact Bool.false_ne_true)] at moves
      obtain ⟨after, pairs⟩ := tracks.serverBlock side taken moves
      exact ⟨after, fun event emits =>
        ⟨⟨side, rfl, (pairs event emits).1⟩, (pairs event emits).2⟩⟩
  | data other data endStream =>
    cases about
    rw [Moment.undisturbed_data]
    unfold StreamView.advance at moves
    dsimp only at moves
    cases side : call.isRequestDir with
    | true =>
      rw [if_pos (by rw [side, Bool.or_true])] at moves
      cases moves
      cases taken with
      | requestData more =>
        rw [List.append_nil]
        exact ⟨(tracks.clientData more).mono And.left, by simp⟩
      | unknownData server | data more server | dataLast more server =>
        rw [side] at server
        cases server
    | false =>
      rw [if_neg (by simp [side])] at moves
      obtain ⟨after, pairs⟩ := tracks.serverData side taken moves
      exact ⟨after, fun event emits =>
        ⟨⟨side, rfl, (pairs event emits).1⟩, (pairs event emits).2⟩⟩
  | reset other =>
    cases about
    cases moves
    cases taken
    rw [List.append_nil, Moment.undisturbed_reset]
    refine ⟨tracks.drop ?_, by simp⟩
    rintro ⟨-, undisturbed⟩
    cases undisturbed
  | goAway last => cases about

end

end Tracks

/-! ## Histories of well-formed streams -/

/-- Nothing of a stream was refused, reset or expired. -/
def Undisturbed (streamId : UInt32) (moments : List Moment) : Prop :=
  ∀ moment ∈ moments, moment.undisturbed streamId = true

instance (streamId : UInt32) (moments : List Moment) : Decidable (Undisturbed streamId moments) :=
  inferInstanceAs (Decidable (∀ moment ∈ moments, moment.undisturbed streamId = true))

/-- The events that the items of a stream emit. -/
def eventsOn (streamId : UInt32) (moments : List Moment) : List TrafficEvent :=
  moments.flatMap (Moment.eventsOn streamId)

variable {moments : List Moment} {streamId : UInt32} {C : Config}

variable {moment : Moment} {conn : Http2Conn P} {call : Call}

theorem undisturbed_snoc :
    Undisturbed streamId (moments ++ [moment]) ↔
      Undisturbed streamId moments ∧ moment.undisturbed streamId = true := by
  rw [Undisturbed, List.forall_mem_append, List.forall_mem_singleton]
  rfl

theorem eventsOn_snoc (streamId : UInt32) (moments : List Moment) (moment : Moment) :
    eventsOn streamId (moments ++ [moment]) =
      eventsOn streamId moments ++ moment.eventsOn streamId := by
  rw [eventsOn, List.flatMap_append, List.flatMap_singleton]
  rfl

theorem viewOf_snoc (streamId : UInt32) (moments : List Moment) (moment : Moment) :
    viewOf streamId (moments ++ [moment]) =
      (viewOf streamId moments).bind fun view => view.advance streamId moment := by
  simp [viewOf, List.foldlM_append]

theorem WellFormed.of_snoc (wellFormed : WellFormed (moments ++ [moment])) :
    WellFormed moments := by
  intro streamId
  have later := wellFormed streamId
  rw [viewOf_snoc] at later
  cases view : viewOf streamId moments with
  | none => rw [view] at later; cases later
  | some _ => rfl

/-- The slots of a connection follow the views of its streams. -/
def Follows (moments : List Moment) (conn : Http2Conn P) : Prop :=
  ∀ streamId view, viewOf streamId moments = some view →
    Tracks view (Undisturbed streamId moments) (eventsOn streamId moments) (conn.slot streamId)

/-- Every event ends a stream and pairs what was seen of it so far. -/
inductive Explained : List Moment → Prop
  | nil : Explained []
  | snoc {moments : List Moment} {moment : Moment} : Explained moments →
      (∀ event ∈ moment.events, ∃ streamId view, moment.Ends streamId ∧
        viewOf streamId (moments ++ [moment]) = some view ∧
        view.Pairs (Undisturbed streamId (moments ++ [moment])) event) →
      Explained (moments ++ [moment])

theorem Explained.split (explained : Explained moments) {before after : List Moment}
    (cut : moments = before ++ moment :: after) :
    ∀ event ∈ moment.events, ∃ streamId view, moment.Ends streamId ∧
      viewOf streamId (before ++ [moment]) = some view ∧
      view.Pairs (Undisturbed streamId (before ++ [moment])) event := by
  induction explained generalizing after with
  | nil => exact absurd cut.symm (List.append_ne_nil_of_right_ne_nil _ (List.cons_ne_nil _ _))
  | @snoc earlier last _ emits induction =>
    rcases List.eq_nil_or_concat after with rfl | ⟨rest, final, rfl⟩
    · obtain ⟨rfl, same⟩ := List.append_inj' cut rfl
      cases same
      exact emits
    · rw [List.concat_eq_append, ← List.cons_append, ← List.append_assoc] at cut
      exact induction (List.append_inj' cut rfl).1

/-- What leaves the view of a stream alone and frees the stream at most. -/
theorem Tracks.aside {view : StreamView} {clean clean' : Prop} {emitted : List TrafficEvent}
    {slot slot' : Slot} (tracks : Tracks view clean emitted slot) (stricter : clean' → clean)
    (slots : slot' = slot ∨ slot' = .free ∧ ¬ clean') : Tracks view clean' emitted slot' := by
  rcases slots with rfl | ⟨rfl, disturbed⟩
  · exact tracks.mono stricter
  · exact tracks.drop disturbed

theorem StreamView.advance_of_ne {item : H2Item} {smooth : Bool} {events : List TrafficEvent}
    (elsewhere : item.stream ≠ some streamId) (view : StreamView) :
    view.advance streamId (.handled call item smooth events) = some view := by
  cases item with
  | headers other headers endStream =>
    exact if_pos fun same => elsewhere (congrArg some same)
  | data other data endStream =>
    have distinct : other ≠ streamId := fun same => elsewhere (congrArg some same)
    exact if_pos (by simp [distinct])
  | reset other => rfl
  | goAway last => rfl

/-- Handling an item keeps the slots in line with the views, and explains what it emits. -/
theorem follows_handled {item : H2Item} {smooth : Bool} {events : List TrafficEvent}
    {after : Http2Conn P} (follows : Follows moments conn)
    (graded : Graded Note.isDrop (conn.onItem C call item) smooth (after, events)) :
    let moment := Moment.handled call item smooth events
    Follows (moments ++ [moment]) after ∧
      (WellFormed (moments ++ [moment]) → ∀ event ∈ events, ∃ streamId view,
        moment.Ends streamId ∧ viewOf streamId (moments ++ [moment]) = some view ∧
          view.Pairs (Undisturbed streamId (moments ++ [moment])) event) := by
  dsimp only
  cases about : item.stream with
  | none =>
    obtain ⟨last, rfl⟩ : ∃ last, item = .goAway last := by
      cases item with
      | goAway last => exact ⟨last, rfl⟩
      | headers _ _ _ | data _ _ _ | reset _ => cases about
    obtain ⟨rfl, slots⟩ := Http2Conn.every_goAway C call conn last smooth _ graded
    refine ⟨fun streamId view seen => ?_, fun _ => by simp⟩
    rw [viewOf_snoc] at seen
    obtain ⟨before, before_eq, same⟩ := Option.bind_eq_some_iff.mp seen
    cases same
    rw [eventsOn_snoc, undisturbed_snoc]
    have none : Moment.eventsOn streamId (.handled call (.goAway last) smooth []) = [] := rfl
    rw [none, List.append_nil]
    refine (follows streamId _ before_eq).aside And.left ?_
    rcases slots streamId with same | ⟨above, gone⟩
    · exact .inl same
    · refine .inr ⟨gone, ?_⟩
      rintro ⟨-, undisturbed⟩
      rw [Moment.undisturbed_goAway above] at undisturbed
      cases undisturbed
  | some here =>
    obtain ⟨others, taken⟩ := Http2Conn.every_onItem C call conn about smooth _ graded
    dsimp only at others taken
    have mine : ∀ view, viewOf here (moments ++ [.handled call item smooth events]) = some view →
        Tracks view (Undisturbed here (moments ++ [.handled call item smooth events]))
          (eventsOn here (moments ++ [.handled call item smooth events])) (after.slot here) ∧
        ∀ event ∈ events, Moment.Ends here (.handled call item smooth events) ∧
          view.Pairs (Undisturbed here (moments ++ [.handled call item smooth events])) event := by
      intro view seen
      rw [viewOf_snoc] at seen
      obtain ⟨before, before_eq, moves⟩ := Option.bind_eq_some_iff.mp seen
      have emitted : Moment.eventsOn here (.handled call item smooth events) = events :=
        if_pos about
      rw [eventsOn_snoc, emitted, undisturbed_snoc]
      exact (follows here before before_eq).step about taken moves
    refine ⟨fun streamId view seen => ?_, fun wellFormed event emits => ?_⟩
    · by_cases same : streamId = here
      · subst same
        exact (mine view seen).1
      · have elsewhere : item.stream ≠ some streamId := by
          rw [about]
          exact fun equal => same (Option.some.inj equal).symm
        rw [viewOf_snoc] at seen
        obtain ⟨before, before_eq, moves⟩ := Option.bind_eq_some_iff.mp seen
        rw [StreamView.advance_of_ne elsewhere] at moves
        cases moves
        have none : Moment.eventsOn streamId (.handled call item smooth events) = [] :=
          if_neg elsewhere
        rw [eventsOn_snoc, none, List.append_nil, undisturbed_snoc]
        exact (follows streamId _ before_eq).aside And.left (.inl (others streamId same))
    · obtain ⟨view, seen⟩ := Option.isSome_iff_exists.mp (wellFormed here)
      obtain ⟨ends, pairs⟩ := (mine view seen).2 event emits
      exact ⟨here, view, ends, seen, pairs⟩

theorem follows_handles {items : List H2Item} {more : List Moment} {final : Http2Conn P}
    (follows : Follows moments conn) (explained : WellFormed moments → Explained moments)
    (handles : Http2Conn.Handles C call conn items more final) :
    Follows (moments ++ more) final ∧
      (WellFormed (moments ++ more) → Explained (moments ++ more)) := by
  induction handles generalizing moments with
  | nil =>
    rw [List.append_nil]
    exact ⟨follows, explained⟩
  | cons graded _ induction =>
    obtain ⟨later, emits⟩ := follows_handled follows graded
    rw [← List.singleton_append, ← List.append_assoc]
    exact induction later fun wellFormed =>
      .snoc (explained wellFormed.of_snoc) (emits wellFormed)

/-- A moment at which nothing is handled. -/
theorem follows_aside {after : Http2Conn P} (follows : Follows moments conn)
    (explained : WellFormed moments → Explained moments)
    (silent : moment.events = [] ∧ ∀ streamId, moment.eventsOn streamId = [])
    (still : ∀ streamId view, StreamView.advance streamId view moment = some view)
    (disturbed : ∀ streamId, moment.undisturbed streamId = false)
    (slots : ∀ streamId, after.slot streamId = conn.slot streamId ∨ after.slot streamId = .free) :
    Follows (moments ++ [moment]) after ∧
      (WellFormed (moments ++ [moment]) → Explained (moments ++ [moment])) := by
  refine ⟨fun streamId view seen => ?_, fun wellFormed => .snoc (explained wellFormed.of_snoc) ?_⟩
  · rw [viewOf_snoc] at seen
    obtain ⟨before, before_eq, moves⟩ := Option.bind_eq_some_iff.mp seen
    rw [still] at moves
    cases moves
    rw [eventsOn_snoc, silent.2, List.append_nil, undisturbed_snoc]
    refine (follows streamId _ before_eq).aside And.left ?_
    rcases slots streamId with same | gone
    · exact .inl same
    · refine .inr ⟨gone, ?_⟩
      rintro ⟨-, undisturbed⟩
      rw [disturbed] at undisturbed
      cases undisturbed
  · rw [silent.1]
    simp

/-- The slots of a connection follow its history, and its events are explained by it. -/
theorem Http2Conn.History.follows (history : History C moments conn) :
    Follows moments conn ∧ (WellFormed moments → Explained moments) := by
  induction history with
  | opened =>
    refine ⟨fun streamId view seen => ?_, fun _ => .nil⟩
    cases seen
    exact tracks_new.mono fun _ => trivial
  | touched nowMs _ induction => exact induction
  | parsed call payload _ handles induction =>
    refine follows_handles ?_ induction.2 handles
    exact induction.1
  | refused _ induction =>
    exact follows_aside induction.1 induction.2 ⟨rfl, fun _ => rfl⟩ (fun _ _ => rfl) (fun _ => rfl)
      fun _ => .inl rfl
  | expired nowMs _ induction =>
    exact follows_aside induction.1 induction.2 ⟨rfl, fun _ => rfl⟩ (fun _ _ => rfl) (fun _ => rfl)
      fun streamId => Http2Conn.slot_expireStale _ nowMs streamId

namespace Http2Conn

/-- Handle items one after the other against a counter. -/
def handleItems (C : Config) (call : Call) :
    List H2Item → Http2Conn P → Nat → List Moment × Http2Conn P × Nat
  | [], conn, counter => ([], conn, counter)
  | item :: items, conn, counter =>
    let result := (conn.onItem C call item).gradedRun Note.isDrop counter
    let rest := handleItems C call items result.1.1 result.2.1
    (.handled call item result.2.2 result.1.2 :: rest.1, rest.2)

theorem handles_handleItems (C : Config) (call : Call) (items : List H2Item) (conn : Http2Conn P)
    (counter : Nat) :
    Handles C call conn items (handleItems C call items conn counter).1
      (handleItems C call items conn counter).2.1 := by
  induction items generalizing conn counter with
  | nil => exact .nil conn
  | cons item items induction => exact .cons (graded_gradedRun _ _ _) (induction _ _)

/-- Parse a chunk against a counter. -/
def parseChunk (C : Config) (call : Call) (payload : Bytes) (conn : Http2Conn P) (counter : Nat) :
    List Moment × Http2Conn P × Nat :=
  handleItems C call ((conn.direction call.isRequestDir).feed payload).2
    (conn.fed call.isRequestDir payload) counter

end Http2Conn

/-- The stream that a moment is about. -/
def Moment.stream : Moment → Option UInt32
  | handled _ item _ _ => item.stream
  | _ => none

theorem foldlM_advance_of_ne (elsewhere : streamId ∉ moments.filterMap Moment.stream)
    (view : StreamView) :
    moments.foldlM (StreamView.advance streamId) view = some view := by
  induction moments with
  | nil => rfl
  | cons moment moments induction =>
    have apart : moment.stream ≠ some streamId := fun same =>
      elsewhere (List.mem_filterMap.mpr ⟨moment, List.mem_cons_self, same⟩)
    have still : view.advance streamId moment = some view := by
      cases moment with
      | handled call item smooth events => exact StreamView.advance_of_ne apart view
      | refused | expired => rfl
    rw [List.foldlM_cons, still]
    refine induction fun member => elsewhere ?_
    obtain ⟨other, other_mem, same⟩ := List.mem_filterMap.mp member
    exact List.mem_filterMap.mpr ⟨other, List.mem_cons_of_mem _ other_mem, same⟩

/-- Only the streams that items are about need a look. -/
theorem wellFormed_of_streams
    (seen : ∀ streamId ∈ moments.filterMap Moment.stream, (viewOf streamId moments).isSome) :
    WellFormed moments := by
  intro streamId
  by_cases about : streamId ∈ moments.filterMap Moment.stream
  · exact seen streamId about
  · rw [viewOf, foldlM_advance_of_ne about]
    rfl

/-- Requests on streams 1 and 3. -/
def twoRequests : Bytes :=
  http2ConnectionPreface ++ headersFrameOn 1 true [0x82, 0x84] ++ headersFrameOn 3 true [0x82, 0x85]

/-- The response on stream 1 begins, the one on stream 3 follows in full, then come the trailers of
the first. -/
def twoResponses : Bytes :=
  headersFrameOn 1 false [0x88] ++ headersFrameOn 3 true [0x88] ++ headersFrameOn 1 true [0x9F]

/-- The connection after the requests. -/
def afterRequests : List Moment × Http2Conn indexedPlatform × Nat :=
  Http2Conn.new.parseChunk (serverConfig 65536) (Http2Conn.chunkCall 0) twoRequests 0

/-- The connection after the responses. -/
def afterResponses : List Moment × Http2Conn indexedPlatform × Nat :=
  afterRequests.2.1.parseChunk (serverConfig 65536) (Http2Conn.chunkCall 1) twoResponses
    afterRequests.2.2

end ApiSensor
