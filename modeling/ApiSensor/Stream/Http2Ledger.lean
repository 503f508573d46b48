import ApiSensor.Stream.Measure
import ApiSensor.Stream.Runs
import Mathlib.Algebra.Order.Group.Multiset

/-!
# The ledger of an HTTP/2 connection

Every accepted request is entered in a ledger and leaves it when it is reported or given up.  The
body of a request may still grow while it waits, so the ledger identifies requests without it.
Here the items of a connection are shown to keep its books; nothing is dropped in them.
-/

namespace ApiSensor

open Library Library.Prog

variable {P : Platform} {C : Config} {call : Call}

/-! ## Entries -/

/-- A request as the ledger knows it. -/
def tally (req : ParsedRequest) : Multiset ParsedRequest := {{ req with body := [] }}

/-- What an entry of the log adds to the ledger. -/
def Note.acceptedTally : Note → Multiset ParsedRequest
  | .accepted req => tally req
  | _ => 0

/-- What an entry of the log takes off with its stream. -/
def Note.cancelledTally : Note → Multiset ParsedRequest
  | .cancelled req => tally req
  | _ => 0

/-- Requests accepted in a log. -/
def accepted (log : List Note) : Multiset ParsedRequest := (log.map Note.acceptedTally).sum

/-- Requests that left with their HTTP/2 stream. -/
def cancelled (log : List Note) : Multiset ParsedRequest := (log.map Note.cancelledTally).sum

/-- Requests that an entry of the log counts as dropped. -/
def Note.unreportedTally : Note → Multiset ParsedRequest
  | .unreported reqs => weigh tally reqs
  | _ => 0

/-- Unanswered requests counted as dropped in a log. -/
def unreported (log : List Note) : Multiset ParsedRequest := (log.map Note.unreportedTally).sum

/-- Requests of events, answered or not. -/
def reported (events : List TrafficEvent) : Multiset ParsedRequest :=
  (events.map fun event => tally event.request).sum

@[simp]
theorem accepted_nil : accepted [] = 0 := rfl

@[simp]
theorem accepted_append (first second : List Note) :
    accepted (first ++ second) = accepted first + accepted second := by
  simp [accepted]

@[simp]
theorem cancelled_nil : cancelled [] = 0 := rfl

@[simp]
theorem cancelled_append (first second : List Note) :
    cancelled (first ++ second) = cancelled first + cancelled second := by
  simp [cancelled]

@[simp]
theorem unreported_nil : unreported [] = 0 := rfl

@[simp]
theorem unreported_append (first second : List Note) :
    unreported (first ++ second) = unreported first + unreported second := by
  simp [unreported]

@[simp]
theorem reported_nil : reported [] = 0 := rfl

@[simp]
theorem reported_append (first second : List TrafficEvent) :
    reported (first ++ second) = reported first + reported second := by
  simp [reported]

/-- Counter increments and entries about what becomes of requests. -/
def Note.aboutRequests : Note → Bool
  | .count _ _ => true
  | .accepted _ => true
  | .refused _ => true
  | .cancelled _ => true
  | _ => false

theorem unreported_eq_zero {log : List Note} (entries : ∀ entry ∈ log, entry.aboutRequests = true) :
    unreported log = 0 := by
  induction log with
  | nil => rfl
  | cons entry log induction =>
    have first := entries entry List.mem_cons_self
    have rest := induction fun other member => entries other (List.mem_cons_of_mem _ member)
    cases entry with
    | unreported reqs => exact absurd first Bool.false_ne_true
    | _ => exact (zero_add _).trans rest

/-- A log about requests that neither enters one nor takes one off. -/
structure Neutral (log : List Note) : Prop where
  accepted : accepted log = 0
  cancelled : cancelled log = 0
  entries : ∀ entry ∈ log, entry.aboutRequests = true

theorem neutral_nil : Neutral [] := ⟨rfl, rfl, by simp⟩

theorem neutral_count (metric : Metric) (amount : Nat) : Neutral [.count metric amount] :=
  ⟨rfl, rfl, by simp [Note.aboutRequests]⟩

/-! ## Pending streams -/

/-- A request that `pop_usable` would take. -/
def ParsedRequest.Usable (req : ParsedRequest) : Prop :=
  isUsableHttpRequest req.method req.path = true

theorem sat_releaseAt {κ ν : Type} {weight : ν → Nat} [DecidableEq κ] (charged : Charged κ weight)
    (key : κ) : Sat (releaseAt charged key) fun log _ => log = [] := by
  unfold releaseAt
  cases charged.map.get? key with
  | none => exact sat_pure.mpr rfl
  | some value => exact fun _ _ outcome => by cases outcome with | release ended => cases ended; rfl

namespace PendingStreams

variable (streams : PendingStreams P) (streamId : UInt32)

/-- All requests are usable. -/
def Usable (streams : PendingStreams P) : Prop :=
  ∀ streamId req, streams.map.get? streamId = some req → req.Usable

/-- The requests that wait. -/
def ledger (streams : PendingStreams P) : Multiset ParsedRequest := weighAll tally streams

theorem ledger_without :
    ledger (streams.without streamId) + (streams.map.get? streamId).elim 0 tally =
      streams.ledger :=
  Dict.total_erase (fun _ req => tally req) streams.map streamId

theorem usable_without (usable : streams.Usable) : Usable (streams.without streamId) := by
  intro other req found
  simp only [Charged.without, Dict.get?_erase] at found
  split at found
  · cases found
  · exact usable other req found

theorem usable_of_insert {after : PendingStreams P} {req : ParsedRequest}
    (stored : after.map = streams.map.insert streamId req) (usable : streams.Usable)
    (new : req.Usable) : after.Usable := by
  intro other found stored_eq
  rw [stored, Dict.get?_insert] at stored_eq
  split at stored_eq
  · cases stored_eq
    exact new
  · exact usable other found stored_eq

theorem sat_remove :
    Sat (remove streams streamId) fun log result =>
      log = [] ∧ result = (streams.map.get? streamId, streams.without streamId) := by
  refine (sat_releaseAt streams streamId).bind fun log _ silent => sat_pure.mpr ?_
  exact ⟨by simp [silent], rfl⟩

theorem sat_cancel :
    Sat (cancel streams streamId) fun log _ =>
      accepted log = 0 ∧ cancelled log = (streams.map.get? streamId).elim 0 tally ∧
        ∀ entry ∈ log, entry.aboutRequests = true := by
  refine (sat_releaseAt streams streamId).bind fun log _ silent => ?_
  subst silent
  cases streams.map.get? streamId with
  | none => exact sat_pure.mpr ⟨rfl, rfl, by simp⟩
  | some req =>
    refine sat_log.mpr (sat_done.mpr ⟨rfl, ?_, by simp [Note.aboutRequests]⟩)
    simp [cancelled, Note.cancelledTally]

theorem sat_insertNew (req : ParsedRequest) (maxTotal cap : Nat)
    (free : streams.weightAt streamId = 0) (absent : streams.map.get? streamId = none)
    (new : req.Usable) :
    Sat (insertNew streams streamId req maxTotal cap free) fun log result =>
      accepted log + streams.ledger = ledger result.2 ∧ cancelled log = 0 ∧
        (streams.Usable → Usable result.2) ∧ ∀ entry ∈ log, entry.aboutRequests = true := by
  have refused : Neutral [.count .eventsDropped 1, .refused req] :=
    ⟨rfl, rfl, by simp [Note.aboutRequests]⟩
  unfold insertNew refuse
  split
  · refine sat_count_bind.mpr (sat_note_bind.mpr (sat_pure.mpr ⟨?_, rfl, id, refused.entries⟩))
    exact zero_add _
  · refine sat_reserveMemory_bind.mpr fun granted => ?_
    cases granted with
    | true =>
      refine sat_note_bind.mpr (sat_pure.mpr ⟨?_, rfl, ?_, by simp [Note.aboutRequests]⟩)
      · have inserted := Dict.total_insert (fun _ req => tally req) streams.map streamId req
        rw [absent, Option.elim_none, add_zero] at inserted
        calc
          accepted [.accepted req] + streams.ledger = streams.ledger + tally req := by
            simp [accepted, Note.acceptedTally, add_comm]
          _ = _ := inserted.symm
      · exact fun usable => usable_of_insert streams streamId rfl usable new
    | false =>
      refine sat_count_bind.mpr (sat_note_bind.mpr (sat_pure.mpr ⟨?_, rfl, id, refused.entries⟩))
      exact zero_add _

/-- A request that is inserted takes the place of the one on its stream. -/
theorem sat_insert (req : ParsedRequest) (maxTotal cap : Nat) (new : req.Usable) :
    Sat (insert streams streamId req maxTotal cap) fun log result =>
      accepted log + streams.ledger = ledger result.2 + cancelled log ∧
        (streams.Usable → Usable result.2) ∧ ∀ entry ∈ log, entry.aboutRequests = true := by
  have absent : (streams.without streamId).map.get? streamId = none := Dict.get?_erase_self _ _
  refine (sat_cancel streams streamId).bind fun first _ superseded => ?_
  refine (sat_insertNew (streams.without streamId) streamId req.capped maxTotal cap
    (streams.weightAt_without streamId) absent new).mono fun second result inserted => ?_
  obtain ⟨none, left, quiet⟩ := superseded
  obtain ⟨books, kept, usable, frames⟩ := inserted
  refine ⟨?_, fun before => usable (usable_without streams streamId before), ?_⟩
  · rw [accepted_append, cancelled_append, none, zero_add, left, kept, add_zero,
      ← ledger_without streams streamId, ← books]
    abel
  · exact fun entry member => (List.mem_append.mp member).elim (quiet entry) (frames entry)

/-- Adding to a body changes nothing in the ledger. -/
theorem sat_appendBody (data : Bytes) (maxTotal : Nat) :
    Sat (appendBody streams streamId data maxTotal) fun log result =>
      log = [] ∧ ledger result.2 = streams.ledger ∧ (streams.Usable → Usable result.2) := by
  unfold appendBody
  split
  · exact sat_pure.mpr ⟨rfl, rfl, id⟩
  · rename_i req found
    dsimp only
    split
    · exact sat_pure.mpr ⟨rfl, rfl, id⟩
    · refine sat_reserveMemory_bind.mpr fun granted => ?_
      cases granted with
      | true =>
        refine sat_pure.mpr ⟨rfl, ?_, ?_⟩
        · have inserted := Dict.total_insert (fun _ req => tally req) streams.map streamId
            { req with body := req.body ++ data.take (maxBodyCaptureBytes - req.body.length) }
          rw [found] at inserted
          exact add_right_cancel inserted
        · intro usable
          exact usable_of_insert streams streamId rfl usable (usable streamId req found)
      | false => exact sat_pure.mpr ⟨rfl, rfl, id⟩

end PendingStreams

/-! ## Responses in flight -/

namespace InflightResponses

variable (responses : InflightResponses) (streamId : UInt32)

theorem silent_take : Sat (take responses streamId) fun log _ => log = [] := by
  refine (sat_releaseAt responses streamId).bind fun log _ silent => sat_pure.mpr ?_
  simp [silent]

theorem neutral_start (headers : Headers) (maxTotal cap : Nat) :
    Sat (start responses streamId headers maxTotal cap) fun log _ => Neutral log := by
  refine (sat_releaseAt responses streamId).bind fun log _ silent => ?_
  subst silent
  unfold startNew
  dsimp only
  split
  · exact sat_count_bind.mpr (sat_pure.mpr (neutral_count _ _))
  · refine sat_reserveMemory_bind.mpr fun granted => ?_
    cases granted with
    | true => exact sat_pure.mpr neutral_nil
    | false => exact sat_count_bind.mpr (sat_pure.mpr (neutral_count _ _))

theorem silent_append (data : Bytes) (maxTotal : Nat) :
    Sat (append responses streamId data maxTotal) fun log _ => log = [] := by
  unfold append
  split
  · exact sat_pure.mpr rfl
  · dsimp only
    split
    · exact sat_pure.mpr rfl
    · refine sat_reserveMemory_bind.mpr fun granted => ?_
      cases granted with
      | true => exact sat_pure.mpr rfl
      | false => exact sat_pure.mpr rfl

theorem silent_mergeFields (maxTotal : Nat) (fields : List (Str × Str)) :
    Sat (mergeFields streamId maxTotal fields responses) fun log _ => log = [] := by
  induction fields generalizing responses with
  | nil => exact sat_pure.mpr rfl
  | cons field fields induction =>
    have first : Sat (mergeField responses streamId field.1 field.2 maxTotal)
        fun log _ => log = [] := by
      unfold mergeField
      split
      · exact sat_pure.mpr rfl
      · refine sat_reserveMemory_bind.mpr fun granted => ?_
        cases granted with
        | true => exact sat_pure.mpr rfl
        | false => exact sat_pure.mpr rfl
    refine first.bind fun log merged silent => ?_
    subst silent
    exact induction merged

theorem silent_mergeTrailers (trailers : Headers) (maxTotal : Nat) :
    Sat (mergeTrailers responses streamId trailers maxTotal) fun log _ => log = [] := by
  unfold mergeTrailers
  split
  · refine (silent_mergeFields responses streamId maxTotal trailers.entries).bind
      fun log merged silent => sat_pure.mpr ?_
    simp [silent]
  · exact sat_pure.mpr rfl

end InflightResponses

/-! ## HTTP/2 connections -/

namespace Http2Conn

/-- The requests that wait on a connection. -/
def ledger (conn : Http2Conn P) : Multiset ParsedRequest :=
  PendingStreams.ledger conn.pendingRequests

/-- From one connection to another the log and the events account for every request, and both
directions and the time of the last chunk are as they were. -/
structure Settles (conn : Http2Conn P) (log : List Note) (after : Http2Conn P)
    (events : List TrafficEvent) : Prop where
  entries : ∀ entry ∈ log, entry.aboutRequests = true
  kept : (∀ isRequestDir, after.direction isRequestDir = conn.direction isRequestDir) ∧
    after.lastEventTs = conn.lastEventTs
  usable : PendingStreams.Usable conn.pendingRequests → PendingStreams.Usable after.pendingRequests
  books : PendingStreams.Usable conn.pendingRequests →
    accepted log + conn.ledger = after.ledger + reported events + cancelled log

namespace Settles

variable {conn middle after : Http2Conn P}

/-- Nothing happened to the requests. -/
theorem of_neutral {log : List Note} (same : after.pendingRequests = conn.pendingRequests)
    (kept : (∀ isRequestDir, after.direction isRequestDir = conn.direction isRequestDir) ∧
      after.lastEventTs = conn.lastEventTs)
    (neutral : Neutral log) : Settles conn log after [] where
  entries := neutral.entries
  kept := kept
  usable := by rw [same]; exact id
  books _ := by
    rw [ledger, ledger, same, neutral.accepted, neutral.cancelled]
    simp

theorem refl (conn : Http2Conn P) : Settles conn [] conn [] := of_neutral rfl ⟨fun _ => rfl, rfl⟩ neutral_nil

theorem trans {first second : List Note} {events more : List TrafficEvent}
    (left : Settles conn first middle events) (right : Settles middle second after more) :
    Settles conn (first ++ second) after (events ++ more) where
  entries entry member :=
    (List.mem_append.mp member).elim (left.entries entry) (right.entries entry)
  kept := ⟨fun isRequestDir => (right.kept.1 isRequestDir).trans (left.kept.1 isRequestDir),
    right.kept.2.trans left.kept.2⟩
  usable usable := right.usable (left.usable usable)
  books usable := by
    have before := left.books usable
    have later := right.books (left.usable usable)
    calc
      accepted (first ++ second) + conn.ledger
          = accepted second + (accepted first + conn.ledger) := by rw [accepted_append]; abel
      _ = accepted second + middle.ledger + reported events + cancelled first := by
        rw [before]; abel
      _ = after.ledger + reported (events ++ more) + cancelled (first ++ second) := by
        rw [later, reported_append, cancelled_append]; abel

/-- A neutral part of a program before one that settles. -/
theorem after_neutral {α : Type} {program : Act α}
    {rest : α → Act (Http2Conn P × List TrafficEvent)} (state : α → Http2Conn P)
    (first : Sat program fun log value =>
      Neutral log ∧ (state value).pendingRequests = conn.pendingRequests ∧
        (∀ isRequestDir, (state value).direction isRequestDir = conn.direction isRequestDir) ∧
        (state value).lastEventTs = conn.lastEventTs)
    (second : ∀ value, Sat (rest value) fun log result =>
      Settles (state value) log result.1 result.2) :
    Sat (program >>= rest) fun log result => Settles conn log result.1 result.2 := by
  refine first.bind fun log value neutral => (second value).mono fun last result settles => ?_
  have start : Settles conn log (state value) [] := of_neutral neutral.2.1 neutral.2.2 neutral.1
  exact start.trans settles

end Settles

variable (conn : Http2Conn P)

theorem settles_finishH2Response (nowMs : Nat) (streamId : UInt32) :
    Sat (conn.finishH2Response C nowMs streamId)
      fun log result => Settles conn log result.1 result.2 := by
  refine (InflightResponses.silent_take conn.responses streamId).bind fun log taken silent => ?_
  subst silent
  obtain ⟨found, responses⟩ := taken
  cases found with
  | none => exact sat_pure.mpr (.of_neutral rfl ⟨fun _ => rfl, rfl⟩ neutral_nil)
  | some answer =>
    refine (PendingStreams.sat_remove conn.pendingRequests streamId).bind fun log result removed => ?_
    obtain ⟨rfl, rfl⟩ := removed
    have books := PendingStreams.ledger_without conn.pendingRequests streamId
    have usable := PendingStreams.usable_without conn.pendingRequests streamId
    cases stored : conn.pendingRequests.map.get? streamId with
    | none =>
      rw [stored, Option.elim_none, add_zero] at books
      refine sat_count_bind.mpr (sat_pure.mpr ⟨by simp [Note.aboutRequests], ⟨fun _ => rfl, rfl⟩, usable, fun _ => ?_⟩)
      simpa [accepted, cancelled, Note.acceptedTally, Note.cancelledTally, ledger] using books.symm
    | some req =>
      rw [stored, Option.elim_some] at books
      cases fit : isUsableHttpRequest req.method req.path with
      | false =>
        -- a request that could not be reported is never stored
        simp only [Option.filter_some, fit, Bool.false_eq_true, if_false]
        refine sat_count_bind.mpr (sat_pure.mpr
          ⟨by simp [Note.aboutRequests], ⟨fun _ => rfl, rfl⟩, usable, fun all => ?_⟩)
        have stays : isUsableHttpRequest req.method req.path = true := all streamId req stored
        rw [fit] at stays
        exact absurd stays Bool.false_ne_true
      | true =>
        simp only [Option.filter_some, fit, if_true]
        refine sat_pure.mpr ⟨by simp, ⟨fun _ => rfl, rfl⟩, usable, fun _ => ?_⟩
        simpa [reported, ledger] using books.symm

theorem settles_requestHeaders (env : Env) (ev : TlsEventHeader) (streamId : UInt32)
    (headers : Headers) :
    Sat (conn.requestHeaders C env ev streamId headers)
      fun log result => Settles conn log result.1 result.2 := by
  unfold requestHeaders
  split
  · exact sat_pure.mpr (.refl conn)
  · dsimp only
    split
    · exact sat_pure.mpr (.refl conn)
    · rename_i usable
      refine (PendingStreams.sat_insert conn.pendingRequests streamId _ _ _ ?_).bind
        fun log result inserted => sat_pure.mpr ?_
      · simpa [ParsedRequest.Usable] using usable
      · rw [List.append_nil]
        refine ⟨inserted.2.2, ⟨fun _ => rfl, rfl⟩, inserted.2.1, fun _ => ?_⟩
        rw [reported_nil, add_zero]
        exact inserted.1

theorem settles_responseHeaders (nowMs : Nat) (streamId : UInt32) (headers : Headers)
    (endStream : Bool) :
    Sat (conn.responseHeaders C nowMs streamId headers endStream)
      fun log result => Settles conn log result.1 result.2 := by
  unfold responseHeaders
  split
  · split
    · exact sat_pure.mpr (.refl conn)
    · split
      · exact sat_count_bind.mpr (sat_pure.mpr (.of_neutral rfl ⟨fun _ => rfl, rfl⟩ (neutral_count _ _)))
      · refine Settles.after_neutral (fun started => { conn with responses := started.2 })
          ((InflightResponses.neutral_start conn.responses streamId headers _ _).mono
            fun _ _ neutral => ⟨neutral, rfl, ⟨fun _ => rfl, rfl⟩⟩) fun started => ?_
        dsimp only
        split
        · exact settles_finishH2Response _ nowMs streamId
        · exact sat_pure.mpr (.refl _)
  · refine Settles.after_neutral (fun merged => { conn with responses := merged.2 })
      ((InflightResponses.silent_mergeTrailers conn.responses streamId headers _).mono
        fun _ _ silent => ⟨silent ▸ neutral_nil, rfl, ⟨fun _ => rfl, rfl⟩⟩) fun merged => ?_
    dsimp only
    split
    · exact settles_finishH2Response _ nowMs streamId
    · exact sat_pure.mpr (.refl _)

theorem settles_resetStream (streamId : UInt32) :
    Sat (conn.resetStream streamId) fun log after => Settles conn log after [] := by
  refine (InflightResponses.silent_take conn.responses streamId).bind fun log taken silent => ?_
  subst silent
  refine (PendingStreams.sat_cancel conn.pendingRequests streamId).bind
    fun log _ left => sat_pure.mpr ?_
  obtain ⟨none, gone, frames⟩ := left
  rw [List.append_nil, List.nil_append]
  refine ⟨frames, ⟨fun _ => rfl, rfl⟩, PendingStreams.usable_without conn.pendingRequests streamId, fun _ => ?_⟩
  rw [none, gone, zero_add, reported_nil, add_zero]
  exact (PendingStreams.ledger_without conn.pendingRequests streamId).symm

theorem settles_resetStreams (streamIds : List UInt32) :
    Sat (resetStreams streamIds conn) fun log after => Settles conn log after [] := by
  induction streamIds generalizing conn with
  | nil => exact sat_pure.mpr (.refl conn)
  | cons streamId streamIds induction =>
    refine (conn.settles_resetStream streamId).bind fun log reset left => ?_
    exact (induction reset).mono fun _ _ right => left.trans right

theorem settles_onItem (item : H2Item) :
    Sat (conn.onItem C call item) fun log result => Settles conn log result.1 result.2 := by
  cases item with
  | headers streamId headers endStream =>
    simp only [onItem]
    split
    · exact conn.settles_requestHeaders call.env call.ev streamId headers
    · exact conn.settles_responseHeaders call.env.now streamId headers endStream
  | data streamId data endStream =>
    simp only [onItem]
    split
    · refine (PendingStreams.sat_appendBody conn.pendingRequests streamId data _).bind
        fun log result appended => sat_pure.mpr ?_
      obtain ⟨rfl, same, usable⟩ := appended
      refine ⟨by simp, ⟨fun _ => rfl, rfl⟩, usable, fun _ => ?_⟩
      simpa [ledger] using same.symm
    · refine Settles.after_neutral (fun known => { conn with responses := known.2 })
        ((InflightResponses.silent_append conn.responses streamId data _).mono
          fun _ _ silent => ⟨silent ▸ neutral_nil, rfl, ⟨fun _ => rfl, rfl⟩⟩) fun known => ?_
      split
      · exact settles_finishH2Response _ call.env.now streamId
      · exact sat_pure.mpr (.refl _)
  | reset streamId =>
    refine (conn.settles_resetStream streamId).bind fun log reset settles => sat_pure.mpr ?_
    rw [List.append_nil]
    exact settles
  | goAway lastStreamId =>
    refine (conn.settles_resetStreams _).bind fun log reset settles => sat_pure.mpr ?_
    rw [List.append_nil]
    exact settles

theorem settles_onItems (items : List H2Item) :
    Sat (onItems C call items conn) fun log result => Settles conn log result.1 result.2 := by
  induction items generalizing conn with
  | nil => exact sat_pure.mpr (.refl conn)
  | cons item items induction =>
    refine (conn.settles_onItem item).bind fun log first left => ?_
    refine (induction first.1).bind fun rest result right => sat_pure.mpr ?_
    rw [List.append_nil]
    exact left.trans right

/-- A chunk is empty, or refused, or fed to its direction, whose items are handled. -/
theorem sat_process (payload : Bytes) :
    Sat (conn.process C call payload) fun log result =>
      (log = [] ∨ log = [.count .eventsDropped 1, .framesRefused call.key call.isRequestDir]) ∧
          result = ({ conn with lastEventTs := call.env.now }, []) ∨
        ∃ rest, log = .framesParsed call.key call.isRequestDir
            ((conn.direction call.isRequestDir).feed payload).2.length :: rest ∧
          Settles ({ conn with lastEventTs := call.env.now }.fed call.isRequestDir payload) rest
            result.1 result.2 := by
  unfold process
  dsimp only
  split
  · exact sat_pure.mpr (.inl ⟨.inl rfl, rfl⟩)
  · refine sat_reserveMemory_bind.mpr fun granted => ?_
    cases granted with
    | true =>
      rw [if_pos rfl]
      refine sat_note_bind.mpr (sat_releaseMemory_bind.mpr ?_)
      exact (settles_onItems _ _).mono fun rest _ settles => .inr ⟨rest, rfl, settles⟩
    | false => exact sat_count_bind.mpr (sat_note_bind.mpr (sat_pure.mpr (.inl ⟨.inr rfl, rfl⟩)))

end Http2Conn

end ApiSensor
