import ApiSensor.Stream.Chunks

/-!
# HTTP/2 chunks refused by the memory ceiling

A refused chunk is dropped before it reaches the direction it belongs to, so the direction does not
learn of the gap.  Only a direction that is broken already takes no further bytes for frames.
-/

namespace ApiSensor

open Library Library.Prog

variable {P : Platform} {C : Config} {call : Call}

/-! ## Broken directions -/

theorem Http2Direction.feed_of_broken {dir : Http2Direction P} (broken : dir.broken = true)
    (data : Bytes) : dir.feed data = (dir, []) := by
  unfold feed
  rw [if_pos broken]

namespace Http2Conn

/-- A direction of the connection has given up. -/
def Broken (isRequestDir : Bool) (conn : Http2Conn P) : Prop :=
  (conn.direction isRequestDir).broken = true

theorem broken_announce (announced : Option Nat) (other : Http2Direction P) :
    (announce announced other).broken = other.broken := by
  cases announced <;> rfl

/-- Neither its own bytes nor those of the other direction revive a direction. -/
theorem Broken.fed {isRequestDir : Bool} {conn : Http2Conn P} (broken : conn.Broken isRequestDir)
    (fedDir : Bool) (payload : Bytes) : (conn.fed fedDir payload).Broken isRequestDir := by
  unfold Broken direction at broken ⊢
  cases isRequestDir <;> cases fedDir <;>
    simp only [Bool.false_eq_true, if_true, if_false] at broken ⊢
  · simp only [Http2Conn.fed, direction, Bool.false_eq_true, if_false,
      Http2Direction.feed_of_broken broken]
    exact broken
  · simp only [Http2Conn.fed, if_true, broken_announce]
    exact broken
  · simp only [Http2Conn.fed, Bool.false_eq_true, if_false, broken_announce]
    exact broken
  · simp only [Http2Conn.fed, direction, if_true, Http2Direction.feed_of_broken broken]
    exact broken

end Http2Conn

/-- No item was decoded in a direction of a connection. -/
def Mute (key : ConnKey) (isRequestDir : Bool) (log : List Note) : Prop :=
  ∀ items, (key, isRequestDir, some items) ∈ framed log → items = 0

variable {key : ConnKey} {isRequestDir : Bool}

theorem Mute.of_plain {log : List Note} (plain : Plain log) : Mute key isRequestDir log := by
  intro items member
  rw [plain.framed] at member
  exact absurd member List.not_mem_nil

theorem Mute.append {first second : List Note} (left : Mute key isRequestDir first)
    (right : Mute key isRequestDir second) :
    Mute key isRequestDir (first ++ second) := by
  intro items member
  rw [framed_append] at member
  rcases List.mem_append.mp member with inFirst | inSecond
  · exact left items inFirst
  · exact right items inSecond

theorem Mute.parsed {log : List Note} {items : Nat} (mute : Mute key isRequestDir log)
    (logged : .framesParsed key isRequestDir items ∈ log) :
    items = 0 :=
  mute items (List.mem_filterMap.mpr ⟨_, logged, rfl⟩)

namespace Http2Conn

theorem broken_process (conn : Http2Conn P) (payload : Bytes) {isRequestDir : Bool}
    (broken : conn.Broken isRequestDir) :
    Sat (conn.process C call payload) fun log result =>
      result.1.Broken isRequestDir ∧ Mute call.key isRequestDir log := by
  refine (conn.sat_process payload).mono fun log result processed => ?_
  rcases processed with ⟨entries, rfl⟩ | ⟨rest, rfl, settles⟩
  · refine ⟨broken, ?_⟩
    rcases entries with rfl | rfl
    · exact .of_plain .nil
    · intro items member
      simp [framed, Note.framed] at member
  · have feeds : Http2Conn.Broken isRequestDir ({ conn with lastEventTs := call.env.now }.fed
        call.isRequestDir payload) := Broken.fed broken _ _
    have plain := Plain.of_requests settles.entries
    refine ⟨?_, fun items member => ?_⟩
    · rw [Http2Conn.Broken, settles.kept.1]
      exact feeds
    · -- the items are those of the direction that was fed
      have only : ∀ found, framed (.framesParsed call.key call.isRequestDir found :: rest) =
          [(call.key, call.isRequestDir, some found)] :=
        fun found => congrArg _ plain.framed
      rw [only] at member
      simp only [List.mem_singleton, Prod.mk.injEq, true_and, Option.some.injEq] at member
      obtain ⟨same, count⟩ := member
      subst same
      rw [count, Http2Direction.feed_of_broken broken]
      rfl

end Http2Conn

/-! ## Calls -/

namespace StreamState

/-- The connection has HTTP/2 state and a direction of it has given up. -/
def BrokenAt (key : ConnKey) (isRequestDir : Bool) (st : StreamState P) : Prop :=
  ∃ conn, st.http2State.get? key = some conn ∧ conn.Broken isRequestDir

variable {st : StreamState P} {isRequestDir : Bool} {key : ConnKey}

theorem broken_processHttp2Event (payload : Bytes) (broken : st.BrokenAt call.key isRequestDir) :
    Sat (st.processHttp2Event C call payload) fun log result =>
      result.1.BrokenAt call.key isRequestDir ∧ Mute call.key isRequestDir log := by
  obtain ⟨conn, found, broken⟩ := broken
  unfold processHttp2Event
  rw [found]
  refine (conn.broken_process payload broken).bind fun log result stays => sat_pure.mpr ?_
  rw [List.append_nil]
  exact ⟨⟨result.1, Dict.get?_insert_self _ _ _, stays.1⟩, stays.2⟩

theorem broken_dispatch (payload : Bytes) (broken : st.BrokenAt call.key isRequestDir) :
    Sat (st.dispatch C call payload) fun log result =>
      result.1.BrokenAt call.key isRequestDir ∧ Mute call.key isRequestDir log := by
  -- every other route requires that the connection is not known as HTTP/2
  have known : st.http2State.contains call.key = true := by
    obtain ⟨conn, found, -⟩ := broken
    simp [Dict.contains, found]
  have taken : st.route call payload = .http2 := by
    have guard := st.guard_route call payload
    cases route : st.route call payload with
    | http2 => rfl
    | _ =>
      rw [route] at guard
      have unknown := guard.1
      rw [known] at unknown
      exact absurd unknown.symm Bool.false_ne_true
  unfold dispatch
  rw [taken]
  exact broken_processHttp2Event payload broken

theorem broken_deliver (payload : Bytes) (whole : call.ev.isTruncated = false)
    (broken : st.BrokenAt call.key isRequestDir) :
    Sat (st.deliver C call payload) fun log result =>
      result.1.BrokenAt call.key isRequestDir ∧ Mute call.key isRequestDir log := by
  obtain ⟨held, same⟩ := takePrefix_eq call st
  unfold deliver
  rw [whole, Bool.not_false, if_pos rfl, same]
  exact broken_dispatch _ broken

theorem broken_receive {env : Env} {ev : TlsEventHeader} (payload : Bytes)
    (whole : ev.isTruncated = false) (broken : st.BrokenAt key isRequestDir) :
    Sat (st.receive C env ev payload key) fun log result =>
      result.1.BrokenAt key isRequestDir ∧ Mute key isRequestDir log := by
  exact sat_receive (fun _ => broken_deliver payload whole broken) ⟨broken, .of_plain (.count _ _)⟩

/-! ## Runs -/

theorem BrokenAt.swept (broken : st.BrokenAt key isRequestDir) {nowMs : Nat}
    (kept : (st.swept nowMs).http2State.contains key = true) :
    (st.swept nowMs).BrokenAt key isRequestDir := by
  unfold StreamState.swept at kept ⊢
  split
  · exact broken
  · rename_i due
    rw [if_neg due] at kept
    obtain ⟨conn, found, broken⟩ := broken
    obtain ⟨after, stays⟩ := Option.isSome_iff_exists.mp kept
    refine ⟨after, stays, ?_⟩
    simp only [evicted, forgetInactive, trim, expire, expiredHttp2, Dict.get?_retain,
      Dict.get?_mapValues, Option.filter_eq_some_iff, Option.map_eq_some_iff] at stays
    obtain ⟨⟨⟨stored, present, rfl⟩, -⟩, -⟩ := stays
    rw [found] at present
    cases present
    exact broken

/-- Operations that leave the HTTP/2 state of a connection in place. -/
def KeepsHttp2 (C : Config) (key : ConnKey) (st : StreamState P) : Operation → Prop
  | .event env ev _ => inScope C env = true →
      (st.swept env.now).http2State.contains key = true ∧
        (st.connKey env ev = key → ev.isTruncated = false)
  | .sweep nowMs => (st.swept nowMs).http2State.contains key = true
  | .close closed => hit closed key.identity = false
  | .drain _ => True

theorem broken_step {after : StreamState P} {stage : Stage} (step : Step C st stage after)
    (keeps : KeepsHttp2 C key st stage.op) (broken : st.BrokenAt key isRequestDir) :
    after.BrokenAt key isRequestDir ∧ Mute key isRequestDir stage.log := by
  cases step.stepped with
  | outside _ parting => exact ⟨broken, .of_plain (.of_parting parting)⟩
  | event env ev payload inside parting receives =>
    obtain ⟨kept, whole⟩ := keeps inside
    obtain ⟨born, same⟩ := st.bear_eq env ev
    have arrives : (st.admitted env ev).BrokenAt key isRequestDir := by
      have stays := broken.swept kept
      unfold admitted
      rw [same]
      unfold swept at stays ⊢
      split at stays
      · rename_i early
        rw [if_pos early]
        exact stays
      · rename_i due
        rw [if_neg due]
        exact stays
    have lead : Mute key isRequestDir _ := .of_plain (.of_parting parting)
    by_cases own : st.connKey env ev = key
    · subst own
      have stays := broken_receive payload (whole rfl) arrives _ _ receives
      exact ⟨stays.1, lead.append stays.2⟩
    · -- the call works on another connection
      have change := local_receive env ev payload (st.connKey env ev) true (st.admitted env ev) _ _
        receives
      have theirs := framed_receive env ev payload (st.connKey env ev) (st.admitted env ev) _ _
        receives
      obtain ⟨conn, found, broken⟩ := arrives
      refine ⟨⟨conn, ?_, broken⟩, lead.append fun items member => ?_⟩
      · rw [change.http2State key (Ne.symm own)]
        exact found
      · exact absurd (theirs _ member).symm own
  | sweep nowMs parting => exact ⟨broken.swept keeps, .of_plain (.of_parting parting)⟩
  | close closed parting =>
    have missed : hit closed key.identity = false := keeps
    obtain ⟨conn, found, broken⟩ := broken
    refine ⟨⟨conn, ?_, broken⟩, .of_plain (.of_parting parting)⟩
    simp [StreamState.closed, found, missed]
  | drain outcome parting =>
    obtain ⟨conn, found, broken⟩ := broken
    refine ⟨⟨conn.emptied, ?_, broken⟩, .of_plain (.of_parting parting)⟩
    rw [drained, Dict.get?_mapValues, found]
    rfl

/-- A broken direction decodes nothing for the rest of the run. -/
theorem mute_run {final : StreamState P} {trace : List (StreamState P × Stage)}
    (run : Run C st trace final) (keeps : ∀ entry ∈ trace, KeepsHttp2 C key entry.1 entry.2.op)
    (broken : st.BrokenAt key isRequestDir) :
    ∀ entry ∈ trace, Mute key isRequestDir entry.2.log := by
  induction run with
  | nil => simp
  | cons step _ induction =>
    obtain ⟨first, rest⟩ := List.forall_mem_cons.mp keeps
    obtain ⟨stays, mute⟩ := broken_step step first broken
    exact List.forall_mem_cons.mpr ⟨mute, induction rest stays⟩

/-- In a run that refuses chunks of a direction only when that direction has given up already, no
item is decoded in the direction from anything that follows a refused chunk, as long as the HTTP/2
state of the connection stays. -/
theorem refused_frames_not_bridged {key : ConnKey} {isRequestDir : Bool}
    {st refusing final : StreamState P} {earlier later : List (StreamState P × Stage)}
    {refusal : Stage} (run : Run C st (earlier ++ (refusing, refusal) :: later) final)
    (givenUp : ∀ entry ∈ earlier ++ (refusing, refusal) :: later,
      .framesRefused key isRequestDir ∈ entry.2.log → entry.1.BrokenAt key isRequestDir)
    (keeps : ∀ entry ∈ (refusing, refusal) :: later, KeepsHttp2 C key entry.1 entry.2.op)
    (refused : .framesRefused key isRequestDir ∈ refusal.log) :
    ∀ entry ∈ later, ∀ items, .framesParsed key isRequestDir items ∈ entry.2.log → items = 0 := by
  obtain ⟨_, -, rest⟩ := run.of_append
  have broken := givenUp (refusing, refusal) (by simp) refused
  cases rest with
  | cons step onwards =>
    have mute := mute_run (.cons step onwards) keeps broken
    intro entry member items logged
    exact (mute entry (List.mem_cons_of_mem _ member)).parsed logged

instance (key : ConnKey) (isRequestDir : Bool) (st : StreamState P) :
    Decidable (st.BrokenAt key isRequestDir) :=
  decidable_of_iff
    ((st.http2State.get? key).any fun conn => (conn.direction isRequestDir).broken)
    (by simp [BrokenAt, Http2Conn.Broken, Option.any_eq_true])

instance (key : ConnKey) (st : StreamState P) : (op : Operation) → Decidable (KeepsHttp2 C key st op)
  | .event env ev _ => inferInstanceAs (Decidable (inScope C env = true →
      (st.swept env.now).http2State.contains key = true ∧
        (st.connKey env ev = key → ev.isTruncated = false)))
  | .sweep nowMs => inferInstanceAs (Decidable ((st.swept nowMs).http2State.contains key = true))
  | .close closed => inferInstanceAs (Decidable (hit closed key.identity = false))
  | .drain _ => inferInstanceAs (Decidable True)

/-- A chunk of client frames on the first connection. -/
def clientFrames (now : Nat) (frames : Bytes) : Operation :=
  .event (atTime now) (onConnection 0x1000 0) frames

/-- A HEADERS frame with a request for `/` on stream 3. -/
def headersFrame : Bytes := [0, 0, 2, 1, 5, 0, 0, 0, 3, 0x82, 0x84]

/-- The start of a DATA frame with 1503 bytes of content, up to the last eleven. -/
def dataFrameStart : Bytes := [0, 0x05, 0xDF, 0, 0, 0, 0, 0, 1] ++ List.replicate 1492 0

/-- Three operations in a row, as a run with one before and one behind the second. -/
theorem run_triple (C : Config) (st : StreamState P) (before middle behind : Operation)
    (counter : Nat) :
    let first := (before.program C st).run counter
    let second := (middle.program C first.1.1).run first.2.1
    let third := (behind.program C second.1.1).run second.2.1
    Run C st ([(st, ⟨before, first.2.2, first.1.2⟩)] ++
      (first.1.1, ⟨middle, second.2.2, second.1.2⟩) ::
        [(second.1.1, ⟨behind, third.2.2, third.1.2⟩)]) third.1.1 :=
  run_exec C [before, middle, behind] st counter

theorem refused_frames_not_bridged_after_failure :
    let first := ((clientFrames 100 (http2ConnectionPreface ++ List.replicate 9 0)).program
      (serverConfig 1500) (new (P := asciiPlatform))).run 0
    let second := ((clientFrames 101 dataFrameStart).program (serverConfig 1500) first.1.1).run
      first.2.1
    let third := ((clientFrames 102 headersFrame).program (serverConfig 1500) second.1.1).run
      second.2.1
    .framesRefused firstKey true ∈ second.2.2 ∧ third.2.2 ≠ [] ∧
      ∀ items, .framesParsed firstKey true items ∈ third.2.2 → items = 0 := by
  have run := run_triple (serverConfig 1500) (new (P := asciiPlatform))
    (clientFrames 100 (http2ConnectionPreface ++ List.replicate 9 0))
    (clientFrames 101 dataFrameStart) (clientFrames 102 headersFrame) 0
  dsimp only at run
  have silent := @refused_frames_not_bridged _ _ firstKey true _ _ _ _ _ _ run
    (by decide +kernel) (by decide +kernel) (by decide +kernel)
  have last := silent _ List.mem_cons_self
  dsimp only at last
  exact ⟨by decide +kernel, by decide +kernel, last⟩

/-- The chunk with the start of a frame is dropped and the direction goes on.  The last bytes of
that frame, which are content, are decoded as a frame of their own and queued as a request. -/
theorem frame_content_decoded_after_refused_chunk :
    let ops := [clientFrames 100 http2ConnectionPreface, clientFrames 101 dataFrameStart]
    let lost := exec (serverConfig 1500) ops (new (P := asciiPlatform)) 0
    let log := (((clientFrames 102 headersFrame).program (serverConfig 1500) lost.2.1).run
      lost.2.2).2.2
    lost.1.getLast?.all (fun entry => .framesRefused firstKey true ∈ entry.2.log) ∧
      .framesParsed firstKey true 1 ∈ log ∧ (accepted log).card = 1 := by
  decide +kernel

end StreamState

end ApiSensor
