import ApiSensor.Gaps.Http1
import ApiSensor.Gaps.Http2

/-!
# Holes in the kernel sequence numbers

Events carry the position of their chunk in its direction, `dir_seq`.  `handle_event` never reads
it, so a lost record goes unnoticed: buffers, decoders, held bytes and HTTP/2 directions go on with
the chunk behind the hole.  The hole is harmless only if none of them holds anything by then.
-/

namespace ApiSensor

open Library Library.Prog

variable {P : Platform} {C : Config} {call : Call}

/-! ## Where held bytes come from -/

/-- The bytes are those of some of the chunks, in order. -/
def MadeOf (chunks : List Bytes) (data : Bytes) : Prop :=
  ∃ parts : List Bytes, parts.Sublist chunks ∧ data = parts.flatten

namespace MadeOf

variable {chunks : List Bytes} {data : Bytes}

theorem nil : MadeOf chunks [] := ⟨[], List.nil_sublist _, rfl⟩

theorem mono (made : MadeOf chunks data) (more : List Bytes) : MadeOf (chunks ++ more) data := by
  obtain ⟨parts, sub, rfl⟩ := made
  exact ⟨parts, sub.trans (List.sublist_append_left _ _), rfl⟩

theorem append (made : MadeOf chunks data) (payload : Bytes) :
    MadeOf (chunks ++ [payload]) (data ++ payload) := by
  obtain ⟨parts, sub, rfl⟩ := made
  exact ⟨parts ++ [payload], sub.append (List.Sublist.refl _), by simp⟩

end MadeOf

namespace StreamState

/-- The server frames held for a connection. -/
def earlyData (key : ConnKey) (st : StreamState P) : Bytes :=
  ((st.h2EarlyResp.get? key).map EarlyResp.data).getD []

/-- What is held of a possible preface. -/
def prefixData (key : ConnKey) (st : StreamState P) : Bytes := (st.h2Prefix.get? key).getD []

/-- What a payload does to the bytes held for its connection. -/
structure Holding (call : Call) (payload : Bytes) (st after : StreamState P) : Prop where
  held : after.prefixData call.key = st.prefixData call.key ∨
    after.prefixData call.key = payload
  early : after.earlyData call.key = st.earlyData call.key ∨ after.earlyData call.key = [] ∨
    call.isRequestDir = false ∧ after.earlyData call.key = st.earlyData call.key ++ payload

variable {st : StreamState P} {chunks : List Bytes} {key : ConnKey}

theorem Holding.of_eq {payload : Bytes} {after : StreamState P}
    (held : after.h2Prefix = st.h2Prefix) (early : after.h2EarlyResp = st.h2EarlyResp) :
    Holding call payload st after :=
  ⟨.inl (by rw [prefixData, held, prefixData]), .inl (by rw [earlyData, early, earlyData])⟩

theorem earlyData_keepEarly (early : EarlyResp) (st : StreamState P) :
    (st.keepEarly call early).earlyData call.key = early.data := by
  simp [earlyData, keepEarly]

theorem data_earlyOf (st : StreamState P) : (st.earlyOf call).data = st.earlyData call.key := by
  unfold earlyOf earlyData
  cases st.h2EarlyResp.get? call.key <;> rfl

theorem holding_holdEarly (server : call.isRequestDir = false) (payload : Bytes)
    (st : StreamState P) :
    Sat (st.holdEarly C call payload) fun _ result => Holding call payload st result.1 := by
  have keeps : Holding call payload st (st.keepEarly call (st.earlyOf call)) :=
    ⟨.inl rfl, .inl ((earlyData_keepEarly _ st).trans (data_earlyOf st))⟩
  unfold holdEarly
  split
  · exact sat_count_bind.mpr (sat_pure.mpr (.of_eq rfl rfl))
  · dsimp only
    split
    · refine sat_reserveMemory_bind.mpr fun granted => ?_
      cases granted with
      | true =>
        refine sat_pure.mpr ⟨.inl rfl, .inr (.inr ⟨server, ?_⟩)⟩
        rw [← data_earlyOf st]
        exact earlyData_keepEarly _ st
      | false => exact sat_pure.mpr keeps
    · exact sat_pure.mpr keeps

theorem holding_startHttp2 (payload : Bytes) (st : StreamState P) :
    Sat (st.startHttp2 C call payload) fun _ result => Holding call payload st result.1 := by
  unfold startHttp2
  split
  · exact (moves_processHttp2Event payload st).mono fun _ _ moves =>
      .of_eq (moves.updates.same .h2Prefix (by decide)) (moves.updates.same .h2EarlyResp (by decide))
  · rename_i early _
    refine (moves_replayEarly early _).bind fun _ replayed first => sat_releaseMemory_bind.mpr ?_
    refine (moves_processHttp2Event payload replayed.1).bind fun _ result second => ?_
    have changes : Updates [.http2State] call _ result.1 := (first.trans second).updates
    have held : result.1.h2Prefix = st.h2Prefix := changes.same .h2Prefix (by decide)
    have gone : result.1.h2EarlyResp = st.h2EarlyResp.erase call.key := changes.same .h2EarlyResp (by decide)
    refine sat_pure.mpr ?_
    refine ⟨.inl (by rw [prefixData, held, prefixData]), .inr (.inl ?_)⟩
    rw [earlyData, gone, Dict.get?_erase_self]
    rfl

theorem holding_dispatch (payload : Bytes) (st : StreamState P) :
    Sat (st.dispatch C call payload) fun _ result => Holding call payload st result.1 := by
  have guard := st.guard_route call payload
  have changes : Sat (st.dispatch C call payload) _ := updates_dispatch payload st
  cases taken : st.route call payload with
  | holdPrefix =>
    unfold dispatch
    rw [taken]
    refine sat_pure.mpr ⟨.inr ?_, .inl rfl⟩
    simp [prefixData]
  | early =>
    unfold dispatch
    rw [taken] at guard ⊢
    exact holding_holdEarly guard.2.1 payload st
  | startHttp2 =>
    unfold dispatch
    rw [taken]
    exact holding_startHttp2 payload st
  | _ =>
    rw [taken] at changes
    exact changes.mono fun _ _ changes =>
      .of_eq (changes.same .h2Prefix (by decide)) (changes.same .h2EarlyResp (by decide))

/-- Everything held for the connection comes from the chunks. -/
def HeldFrom (chunks : List Bytes) (key : ConnKey) (st : StreamState P) : Prop :=
  MadeOf chunks (st.prefixData key) ∧ MadeOf chunks (st.earlyData key)

theorem HeldFrom.mono (made : st.HeldFrom chunks key) (more : List Bytes) :
    st.HeldFrom (chunks ++ more) key :=
  ⟨made.1.mono more, made.2.mono more⟩

theorem madeOf_joinPrefix (made : MadeOf chunks (st.prefixData call.key)) (payload : Bytes) :
    MadeOf (chunks ++ [payload]) (st.joinPrefix call payload) := by
  unfold joinPrefix
  split
  · exact made.append payload
  · exact MadeOf.nil.append payload

/-- A payload is held behind what was held before, or nothing is held any more. -/
theorem heldFrom_dispatch {before : StreamState P} (payload : Bytes)
    (made : st.HeldFrom chunks call.key)
    (held : before.prefixData call.key = st.prefixData call.key ∨ before.prefixData call.key = [])
    (early : before.earlyData call.key = st.earlyData call.key) :
    Sat (before.dispatch C call (st.joinPrefix call payload)) fun _ result =>
      result.1.HeldFrom (chunks ++ [payload]) call.key := by
  have prefixes : MadeOf chunks (before.prefixData call.key) := by
    rcases held with same | none
    · rw [same]
      exact made.1
    · rw [none]
      exact .nil
  refine (holding_dispatch _ before).mono fun _ result holding => ⟨?_, ?_⟩
  · rcases holding.held with same | replaced
    · rw [same]
      exact prefixes.mono _
    · rw [replaced]
      exact madeOf_joinPrefix made.1 payload
  · rcases holding.early with same | none | ⟨server, longer⟩
    · rw [same, early]
      exact made.2.mono _
    · rw [none]
      exact .nil
    · rw [longer, early, joinPrefix, server]
      exact made.2.append payload

theorem heldFrom_deliver (payload : Bytes) (made : st.HeldFrom chunks call.key) :
    Sat (st.deliver C call payload) fun _ result =>
      result.1.HeldFrom (chunks ++ [payload]) call.key := by
  have taken : ∀ before : StreamState P,
      ((before.takePrefix call).prefixData call.key = before.prefixData call.key ∨
        (before.takePrefix call).prefixData call.key = []) ∧
      (before.takePrefix call).earlyData call.key = before.earlyData call.key := by
    intro before
    unfold takePrefix
    split
    · exact ⟨.inr (by simp [prefixData]), rfl⟩
    · exact ⟨.inl rfl, rfl⟩
  refine sat_deliver (fun _ held same => ?_) (fun _ _ _ => made.mono _) fun _ _ held same => ?_
  · have unheld := taken st
    rw [same] at unheld
    exact heldFrom_dispatch payload made unheld.1 unheld.2
  · have unheld := taken (st.cutOff call)
    rw [same] at unheld
    exact heldFrom_dispatch payload made unheld.1 unheld.2

theorem heldFrom_receive (env : Env) (ev : TlsEventHeader) (payload : Bytes)
    (made : st.HeldFrom chunks key) :
    Sat (st.receive C env ev payload key) fun _ result =>
      result.1.HeldFrom (chunks ++ [payload]) key := by
  refine sat_receive (fun roles => ?_) (made.mono _)
  have kept : { st with connRoles := roles }.HeldFrom chunks key := made
  exact @heldFrom_deliver _ _ ⟨env, ev, key, _⟩ _ _ payload kept

/-! ## Runs -/

section

variable (made : st.HeldFrom chunks key)
include made

/-- Bytes that are kept or dropped come from the same chunks. -/
theorem HeldFrom.of_retained {after : StreamState P}
    (prefixes : after.h2Prefix.get? key = none ∨ after.h2Prefix.get? key = st.h2Prefix.get? key)
    (early : after.h2EarlyResp.get? key = none ∨
      after.h2EarlyResp.get? key = st.h2EarlyResp.get? key) : after.HeldFrom chunks key := by
  constructor
  · rw [prefixData]
    rcases prefixes with gone | same
    · rw [gone]
      exact .nil
    · rw [same]
      exact made.1
  · rw [earlyData]
    rcases early with gone | same
    · rw [gone]
      exact .nil
    · rw [same]
      exact made.2

theorem HeldFrom.swept (nowMs : Nat) :
    (st.swept nowMs).HeldFrom chunks key := by
  unfold StreamState.swept
  split
  · exact made
  · exact made.of_retained (Dict.get?_retain_cases _ _ _) (Dict.get?_retain_cases _ _ _)

theorem HeldFrom.admitted (env : Env) (ev : TlsEventHeader) :
    (st.admitted env ev).HeldFrom chunks key := by
  obtain ⟨born, same⟩ := st.bear_eq env ev
  have bears : (st.bear env ev).HeldFrom chunks key := by
    rw [same]
    exact made
  exact bears.swept env.now

theorem HeldFrom.closed (closing : ConnKey) :
    (st.closed closing).HeldFrom chunks key := by
  exact made.of_retained (Dict.get?_retain_cases _ _ _) (Dict.get?_retain_cases _ _ _)

end

end StreamState

/-- The payload of an event of an identity. -/
def Operation.chunkOf (identity : ConnIdentity) : Operation → Option Bytes
  | .event _ ev payload => if ev.identity = identity then some payload else none
  | _ => none

/-- The payloads of an identity, in the order of a trace. -/
def chunksOf (identity : ConnIdentity) (trace : List (StreamState P × Stage)) : List Bytes :=
  trace.filterMap fun entry => entry.2.op.chunkOf identity

namespace StreamState

/-- Everything held for connections of the identity comes from the chunks. -/
def HeldSince (identity : ConnIdentity) (chunks : List Bytes) (st : StreamState P) : Prop :=
  ∀ key : ConnKey, key.identity = identity → st.HeldFrom chunks key

/-- One operation adds at most its own payload to what is held. -/
theorem heldSince_step {identity : ConnIdentity} {chunks : List Bytes} {st after : StreamState P}
    {stage : Stage} (step : Step C st stage after) (made : st.HeldSince identity chunks) :
    after.HeldSince identity (chunks ++ (stage.op.chunkOf identity).toList) := by
  intro key own
  cases step.stepped with
  | outside => exact (made key own).mono _
  | event env ev payload _ _ receives =>
    have arrives := (made key own).admitted env ev
    by_cases same : key = st.connKey env ev
    · subst same
      have adds : (Operation.event env ev payload).chunkOf identity = some payload := if_pos own
      rw [adds]
      exact heldFrom_receive env ev payload arrives _ _ receives
    · have change := local_receive env ev payload (st.connKey env ev) true
        (st.admitted env ev) _ _ receives
      exact (arrives.of_retained (.inr (change.h2Prefix key same))
        (.inr (change.h2EarlyResp key same))).mono _
  | sweep nowMs => exact ((made key own).swept nowMs).mono _
  | close closing => exact ((made key own).closed closing).mono _
  | drain => exact (made key own).mono _

theorem heldSince_run {identity : ConnIdentity} {chunks : List Bytes} {st final : StreamState P}
    {trace : List (StreamState P × Stage)} (run : Run C st trace final)
    (made : st.HeldSince identity chunks) :
    final.HeldSince identity (chunks ++ chunksOf identity trace) := by
  induction run generalizing chunks with
  | nil => simpa [chunksOf] using made
  | @cons state next final label trace step _ induction =>
    have onwards := induction (heldSince_step step made)
    have split : (label.op.chunkOf identity).toList ++ chunksOf identity trace =
        chunksOf identity ((state, label) :: trace) := by
      cases found : label.op.chunkOf identity <;> simp [chunksOf, found]
    rw [List.append_assoc, split] at onwards
    exact onwards

/-- When the event arrives, nothing of its direction is held anywhere: its parser is clear, no bytes
of the connection wait for a preface, and its HTTP/2 direction, if there is one, has given up. -/
structure NothingHeld (C : Config) (env : Env) (ev : TlsEventHeader) (payload : Bytes)
    (st : StreamState P) : Prop where
  clear : st.Clear (.fromEvent ev)
  unheld : ∀ key : ConnKey, key.identity = ev.identity →
    st.prefixData key = [] ∧ st.earlyData key = []
  givenUp : ∀ conn, st.http2State.get? (st.connKey env ev) = some conn →
    conn.Broken (st.arrival C env ev payload).isRequestDir

/-- Let a record be lost between two events of a direction, which their numbers show, while nothing
of the direction is held, and let the chunk that HTTP/1 is fed first behind the hole start a
message.  Then that chunk reaches a new decoder and consists of bytes behind the hole, whatever is
held for a preface later comes from behind the hole, and the HTTP/2 direction decodes nothing as
long as its connection stays. -/
theorem hole_not_bridged {st before behind final : StreamState P}
    {earlier between later : List (StreamState P × Stage)} {last next : Stage}
    {lastEnv nextEnv : Env} {lastEv nextEv : TlsEventHeader} {lastPayload nextPayload : Bytes}
    (run : Run C st (earlier ++ (before, last) :: (between ++ (behind, next) :: later)) final)
    (_lastEvent : last.op = .event lastEnv lastEv lastPayload)
    (_nextEvent : next.op = .event nextEnv nextEv nextPayload)
    (_oneDirection : StreamKey.fromEvent lastEv = .fromEvent nextEv)
    (_consecutive : ∀ entry ∈ between, ∀ env ev payload, entry.2.op = .event env ev payload →
      StreamKey.fromEvent ev ≠ .fromEvent nextEv)
    (_hole : nextEv.dirSeq ≠ lastEv.dirSeq + 1)
    (nothingHeld : behind.NothingHeld C nextEnv nextEv nextPayload)
    (keeps : behind.http2State.contains (behind.connKey nextEnv nextEv) = true →
      ∀ entry ∈ (behind, next) :: later,
        KeepsHttp2 C (behind.connKey nextEnv nextEv) entry.1 entry.2.op)
    (starts : ∀ unfed feeding feed buf env ev payload,
      FirstFed (.fromEvent nextEv) ((behind, next) :: later) unfed (feeding, feed) buf →
      feed.op = .event env ev payload →
      startsHttp1Message (feeding.joined C env ev payload) = true) :
    (∀ unfed feeding feed buf env ev payload,
      FirstFed (.fromEvent nextEv) ((behind, next) :: later) unfed (feeding, feed) buf →
      feed.op = .event env ev payload →
        startsHttp1Message buf = true ∧
        MadeOf (chunksOf nextEv.identity (unfed ++ [(feeding, feed)])) buf ∧
        (feeding.admitted env ev).decoderOf (.fromEvent nextEv) = .new maxBodyCaptureBytes) ∧
      (∀ done reached rest, (behind, next) :: later = done ++ reached :: rest →
        reached.1.HeldSince nextEv.identity (chunksOf nextEv.identity done)) ∧
      (behind.http2State.contains (behind.connKey nextEnv nextEv) = true →
        ∀ entry ∈ (behind, next) :: later, Mute (behind.connKey nextEnv nextEv)
          (behind.arrival C nextEnv nextEv nextPayload).isRequestDir entry.2.log) := by
  obtain ⟨_, -, fromBefore⟩ := run.of_append
  cases fromBefore with
  | cons _ fromBetween =>
    obtain ⟨_, -, onwards⟩ := fromBetween.of_append
    cases onwards with
    | cons step rest =>
      have onwards := Library.Run.cons step rest
      have none : behind.HeldSince nextEv.identity [] := by
        intro key own
        obtain ⟨prefixes, early⟩ := nothingHeld.unheld key own
        exact ⟨by rw [prefixes]; exact .nil, by rw [early]; exact .nil⟩
      have since : ∀ done reached more, (behind, next) :: later = done ++ reached :: more →
          reached.1.HeldSince nextEv.identity (chunksOf nextEv.identity done) := by
        intro done reached more split
        rw [split] at onwards
        obtain ⟨_, reaches, fromReached⟩ := onwards.of_append
        cases fromReached with
        | cons _ _ => exact heldSince_run reaches none
      refine ⟨?_, since, fun known => mute_run onwards (keeps known) ?_⟩
      · intro unfed feeding feed buf env ev payload first arrival
        obtain ⟨own, joins, fresh⟩ := fed_after_clear onwards nothingHeld.clear first arrival
        refine ⟨by rw [joins]; exact starts _ _ _ _ _ _ _ first arrival, ?_, fresh⟩
        have same : ev.identity = nextEv.identity := (congrArg StreamKey.identity own).symm
        have chunks : chunksOf nextEv.identity (unfed ++ [(feeding, feed)]) =
            chunksOf nextEv.identity unfed ++ [payload] := by
          simp [chunksOf, arrival, Operation.chunkOf, same]
        obtain ⟨more, split⟩ := first.split
        have held := (since unfed _ more split (feeding.connKey env ev) same).admitted env ev
        rw [chunks, joins]
        exact @madeOf_joinPrefix _ (feeding.arrival C env ev payload) _ _ held.1 payload
      · obtain ⟨conn, found⟩ := Option.isSome_iff_exists.mp known
        exact ⟨conn, found, nothingHeld.givenUp conn found⟩

/-- A chunk of requests on the first connection, with its number. -/
def numbered (now : Nat) (dirSeq : UInt32) (text : String) : Operation :=
  .event (atTime now) { onConnection 0x1000 0 with dirSeq } (bytes text)

/-- The first request, before the hole. -/
def beforeHole : (StreamState asciiPlatform × List TrafficEvent) × Nat × List Note :=
  ((numbered 100 1 "GET /a HTTP/1.1\r\n\r\n").program (serverConfig 1500) new).run 0

/-- The next request, behind the hole. -/
def behindHole : (StreamState asciiPlatform × List TrafficEvent) × Nat × List Note :=
  ((numbered 101 3 "GET /b HTTP/1.1\r\n\r\n").program (serverConfig 1500) beforeHole.1.1).run
    beforeHole.2.1

theorem hole_not_bridged_between_messages :
    .fed requestStream (bytes "GET /b HTTP/1.1\r\n\r\n") ∈ behindHole.2.2 ∧
      (beforeHole.1.1.admitted (atTime 101) { onConnection 0x1000 0 with dirSeq := 3 }).decoderOf
        requestStream = .new maxBodyCaptureBytes := by
  have run : Run (serverConfig 1500) new ([] ++
      (new, ⟨numbered 100 1 "GET /a HTTP/1.1\r\n\r\n", beforeHole.2.2, beforeHole.1.2⟩) ::
        ([] ++ (beforeHole.1.1, ⟨numbered 101 3 "GET /b HTTP/1.1\r\n\r\n", behindHole.2.2,
          behindHole.1.2⟩) :: [])) behindHole.1.1 := run_pair _ _ _ _ 0
  have fed : .fed requestStream (bytes "GET /b HTTP/1.1\r\n\r\n") ∈ behindHole.2.2 := by
    decide +kernel
  have unheld : beforeHole.1.1.h2Prefix.entries = [] ∧
      beforeHole.1.1.h2EarlyResp.entries.isEmpty = true := by decide +kernel
  have unknown : beforeHole.1.1.http2State.contains (beforeHole.1.1.connKey (atTime 101)
      { onConnection 0x1000 0 with dirSeq := 3 }) = false := by decide +kernel
  have resumes := hole_not_bridged run rfl rfl rfl (by simp) (by decide)
    ⟨by decide +kernel, fun key _ => ⟨?_, ?_⟩, ?_⟩ ?_ ?_
  · exact ⟨fed, (resumes.1 [] _ _ _ _ _ _ ⟨⟨[], rfl⟩, by simp, fed⟩ rfl).2.2⟩
  · simp [prefixData, Dict.get?, unheld.1]
  · simp [earlyData, Dict.get?, List.isEmpty_iff.mp unheld.2]
  · intro conn found
    rw [Dict.contains, found] at unknown
    cases unknown
  · intro known
    rw [unknown] at known
    cases known
  · intro unfed feeding feed buf env ev payload first arrival
    obtain ⟨later, split⟩ := first.split
    cases unfed with
    | nil =>
      cases split
      cases arrival
      decide +kernel
    | cons entry unfed => simp at split

/-- The record with the middle of a body is lost.  The decoder goes on with the bytes behind the
hole, and the request that is queued joins both sides of it. -/
theorem body_joined_across_hole :
    let ops := [numbered 100 1 "POST /a HTTP/1.1\r\nContent-Length: 12\r\n\r\nab",
      numbered 101 3 "0123456789"]
    (exec (serverConfig 1500) ops (new (P := asciiPlatform)) 0).1.any fun entry =>
      entry.2.log.any fun logged => match logged with
        | .accepted req => req.body = bytes "ab0123456789"
        | _ => false := by
  decide +kernel

end StreamState

end ApiSensor
