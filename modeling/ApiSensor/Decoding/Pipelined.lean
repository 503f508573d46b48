import ApiSensor.Decoding.Http1
import ApiSensor.Stream.Handle

/-!
# Responses framed by the requests they answer

A response to HEAD has no body, and one to CONNECT may end HTTP/1, whatever its fields say.  The
reference decoder here looks at the requests that wait each time a response begins.  The sensor
looks at them once for each chunk, so that it agrees with the reference as long as the first request
of the chunk frames every response that begins in it.
-/

namespace ApiSensor

open Library

variable {P : Platform} {previewCap : Nat}

/-- How the first request frames its response: it is HEAD, or it is CONNECT. -/
def flagsOf : List ParsedRequest → Bool × Bool
  | [] => (false, false)
  | req :: _ => (req.method = str "HEAD", req.method = str "CONNECT")

theorem PendingQueue.frontIsHeadOrConnect_eq (queue : PendingQueue P) :
    queue.frontIsHeadOrConnect = flagsOf queue.items := by
  unfold frontIsHeadOrConnect flagsOf
  cases queue.items <;> rfl

/-- The requests that a response may answer, from the one it does answer on. -/
def answerable (waiting : List ParsedRequest) : List ParsedRequest :=
  waiting.dropWhile ParsedRequest.unusable

/-! ## Items and the requests they answer -/

/-- The requests left once a message has been handled. -/
def waitingAfterMessage (waiting : List ParsedRequest) : HttpMessage → List ParsedRequest
  | .request _ => waiting
  | .response resp => if StreamState.isFinal resp then (answerable waiting).tail else waiting

/-- The requests left once decoder items have been handled. -/
def waitingAfter : List ParsedRequest → List Http1Item → List ParsedRequest
  | waiting, [] => waiting
  | waiting, .message m :: items => waitingAfter (waitingAfterMessage waiting m.msg) items
  | waiting, .invalid _ :: _ => waiting

/-- The response that a message answers its request with. -/
def answerOf (waiting : List ParsedRequest) :
    HttpMessage → Option (ParsedRequest × HttpResponseParsed)
  | .request _ => none
  | .response resp =>
    if StreamState.isFinal resp then (answerable waiting).head?.map (·, resp) else none

/-- Each final response with the request that it answers. -/
def answersIn : List ParsedRequest → List Http1Item → List (ParsedRequest × HttpResponseParsed)
  | _, [] => []
  | waiting, .message m :: items =>
    (answerOf waiting m.msg).toList ++ answersIn (waitingAfterMessage waiting m.msg) items
  | _, .invalid _ :: _ => []

theorem waitingAfter_append {first : List Http1Item}
    (valid : ∀ item ∈ first, item.isInvalid = false) (waiting : List ParsedRequest)
    (second : List Http1Item) :
    waitingAfter waiting (first ++ second) = waitingAfter (waitingAfter waiting first) second := by
  induction first generalizing waiting with
  | nil => rfl
  | cons item first induction =>
    rw [List.forall_mem_cons] at valid
    cases item with
    | message m => exact induction valid.2 _
    | invalid reason => exact absurd valid.1.symm Bool.false_ne_true

theorem answersIn_append {first : List Http1Item}
    (valid : ∀ item ∈ first, item.isInvalid = false) (waiting : List ParsedRequest)
    (second : List Http1Item) :
    answersIn waiting (first ++ second) =
      answersIn waiting first ++ answersIn (waitingAfter waiting first) second := by
  induction first generalizing waiting with
  | nil => rfl
  | cons item first induction =>
    rw [List.forall_mem_cons] at valid
    cases item with
    | message m =>
      rw [List.cons_append, answersIn, answersIn, induction valid.2, List.append_assoc]
      rfl
    | invalid reason => exact absurd valid.1.symm Bool.false_ne_true

/-! ## The reference decoder -/

/-- One turn of a decoder that frames each response by the request it answers. -/
def framedTurn (P : Platform) (previewCap : Nat) (state : Http1State × List ParsedRequest)
    (rest : Bytes) : ParserTurn (Http1State × List ParsedRequest) UInt8 Http1Item :=
  let flags := flagsOf (answerable state.2)
  match state.1.turn P previewCap flags.1 flags.2 rest with
  | .next next rest' items => .next (next, waitingAfter state.2 items) rest' items
  | .stop next rest' items => .stop (next, waitingAfter state.2 items) rest' items

/-- Limits are kept, and no response that begins is delimited by the end of the connection. -/
def FramedRegular (P : Platform) (state : Http1State × List ParsedRequest) (rest : Bytes) : Prop :=
  let flags := flagsOf (answerable state.2)
  state.1.Regular P flags.1 flags.2 rest

section Reference

variable {state middle : Http1State × List ParsedRequest} {rest left : Bytes}
  {items : List Http1Item}

theorem framedTurn_eq_next : framedTurn P previewCap state rest = .next middle left items ↔
    state.1.turn P previewCap (flagsOf (answerable state.2)).1 (flagsOf (answerable state.2)).2
        rest = .next middle.1 left items ∧ middle.2 = waitingAfter state.2 items := by
  obtain ⟨next, waiting⟩ := middle
  unfold framedTurn
  dsimp only
  cases state.1.turn P previewCap (flagsOf (answerable state.2)).1
      (flagsOf (answerable state.2)).2 rest with
  | stop next' left' items' => simp
  | next next' left' items' =>
    constructor
    · rintro ⟨⟩
      exact ⟨rfl, rfl⟩
    · rintro ⟨⟨⟩, rfl⟩
      rfl

theorem framedTurn_eq_stop : framedTurn P previewCap state rest = .stop middle left items ↔
    state.1.turn P previewCap (flagsOf (answerable state.2)).1 (flagsOf (answerable state.2)).2
        rest = .stop middle.1 left items ∧ middle.2 = waitingAfter state.2 items := by
  obtain ⟨next, waiting⟩ := middle
  unfold framedTurn
  dsimp only
  cases state.1.turn P previewCap (flagsOf (answerable state.2)).1
      (flagsOf (answerable state.2)).2 rest with
  | next next' left' items' => simp
  | stop next' left' items' =>
    constructor
    · rintro ⟨⟩
      exact ⟨rfl, rfl⟩
    · rintro ⟨⟨⟩, rfl⟩
      rfl

theorem framedTurn_congr {other : Http1State} {waiting : List ParsedRequest} {rest' : Bytes}
    {current : Http1State}
    (same : current.turn P previewCap (flagsOf (answerable waiting)).1
        (flagsOf (answerable waiting)).2 rest =
      other.turn P previewCap (flagsOf (answerable waiting)).1 (flagsOf (answerable waiting)).2
        rest') :
    framedTurn P previewCap (current, waiting) rest =
      framedTurn P previewCap (other, waiting) rest' := by
  unfold framedTurn
  dsimp only
  rw [same]

/-- The reference decoder can be cut anywhere, as long as limits are kept and no message is
delimited by the end of the connection. -/
theorem cuttable_framedTurn :
    Cuttable (framedTurn P previewCap) (FramedRegular P) Http1Item.isInvalid where
  next _ goes := by
    obtain ⟨taken, waits⟩ := framedTurn_eq_next.mp goes
    exact framedTurn_eq_next.mpr ⟨Http1State.turn_append_next taken _, waits⟩
  nonfatal goes := (Http1State.turn_next (framedTurn_eq_next.mp goes).1).2.2
  stop {state _ _ middle _ _} throughout stops := by
    obtain ⟨current, waiting⟩ := state
    obtain ⟨next, waiting'⟩ := middle
    obtain ⟨taken, waits⟩ := framedTurn_eq_stop.mp stops
    dsimp only at taken waits
    subst waits
    have resumes := Http1State.turn_append_stop throughout.here taken
    cases resumes with
    | waited same regular =>
      -- nothing was decoded, so the same requests wait
      have same := framedTurn_congr same
      refine .inr ⟨by simp, throughout.congr same (regular throughout.here), ?_⟩
      intro final rest produced whole
      exact ⟨produced, whole.congr same, rfl⟩
    | upgraded m isUpgraded same =>
      subst isUpgraded
      have stops : framedTurn P previewCap (current, waiting) _ =
          .stop (.upgraded, waitingAfter waiting [.message m]) [] [.message m] :=
        framedTurn_eq_stop.mpr ⟨same, rfl⟩
      refine .inr ⟨by simp [Http1Item.isInvalid], .intro trivial fun goes => ?_, ?_⟩
      · cases (framedTurn_eq_next.mp goes).1
      · intro final rest produced whole
        obtain ⟨rfl, rfl, rfl⟩ := (Drains.stop stops).unique whole
        exact ⟨[], .stop rfl, rfl⟩
    | failed reason same =>
      have stops : framedTurn P previewCap (current, waiting) _ =
          .stop (.head, waitingAfter waiting [.invalid reason]) [] [.invalid reason] :=
        framedTurn_eq_stop.mpr ⟨same, rfl⟩
      exact .inl ⟨⟨_, List.mem_cons_self, rfl⟩, _, _, stops⟩

/-- The requests that wait afterwards. -/
theorem waiting_of_drains {final : Http1State × List ParsedRequest}
    (drains : Drains (framedTurn P previewCap) state rest final left items) :
    final.2 = waitingAfter state.2 items := by
  induction drains with
  | stop stops => exact (framedTurn_eq_stop.mp stops).2
  | next goes _ induction =>
    obtain ⟨taken, waits⟩ := framedTurn_eq_next.mp goes
    rw [induction, waits, waitingAfter_append (Http1State.turn_next taken).2.2]

end Reference

/-- The reference decoder on all bytes that are there. -/
def framedDrain (P : Platform) (previewCap : Nat) (state : Http1State × List ParsedRequest)
    (rest : Bytes) : (Http1State × List ParsedRequest) × Bytes × List Http1Item :=
  drainLoop (framedTurn P previewCap) (2 * rest.length + 2) state rest

theorem drains_framedDrain (state : Http1State × List ParsedRequest) (rest : Bytes) :
    Drains (framedTurn P previewCap) state rest (framedDrain P previewCap state rest).1
      (framedDrain P previewCap state rest).2.1 (framedDrain P previewCap state rest).2.2 := by
  refine drains_drainLoop (fun state rest => state.1.turnsLeft rest) (fun goes => ?_) ?_
  · exact (Http1State.turn_next (framedTurn_eq_next.mp goes).1).2.1
  · unfold Http1State.turnsLeft
    split <;> omega

theorem waiting_framedDrain (state : Http1State × List ParsedRequest) (rest : Bytes) :
    (framedDrain P previewCap state rest).1.2 =
      waitingAfter state.2 (framedDrain P previewCap state rest).2.2 :=
  waiting_of_drains (drains_framedDrain state rest)

/-- However a well-formed stream of responses is cut, the reference decoder makes the same of it. -/
theorem items_feedAll_framedDrain {waiting : List ParsedRequest} {pieces : List Bytes}
    (regular : Throughout (framedTurn P previewCap) (FramedRegular P) (.head, waiting)
      pieces.flatten)
    (wellFormed : ∀ item ∈ (framedDrain P previewCap (.head, waiting) pieces.flatten).2.2,
      item.isInvalid = false) :
    (feedAll (framedDrain P previewCap) (.head, waiting) [] pieces).2.2 =
      (framedDrain P previewCap (.head, waiting) pieces.flatten).2.2 := by
  cases pieces with
  | nil => rfl
  | cons piece pieces =>
    refine eq_of_upTo_eq wellFormed ?_
    rw [cuttable_framedTurn.upTo_feedAll drains_framedDrain (List.cons_ne_nil _ _) regular]
    exact upTo_eq_self wellFormed

/-! ## Flags that are read once -/

/-- The header block that is complete is framed alike under two pairs of flags. -/
def framedAlike (P : Platform) (flags own : Bool × Bool) (rest : Bytes) : Prop :=
  match position (bytes "\r\n\r\n") rest with
  | none => True
  | some end_ =>
    parseHead P (rest.take (end_ + 4)) flags.1 flags.2 =
      parseHead P (rest.take (end_ + 4)) own.1 own.2

/-- A response that begins is framed by the given flags as by the request it answers. -/
def FramedBy (P : Platform) (flags : Bool × Bool) (state : Http1State × List ParsedRequest)
    (rest : Bytes) : Prop :=
  state.1 = .head → framedAlike P flags (flagsOf (answerable state.2)) rest

theorem turn_of_framedBy {flags : Bool × Bool} {state : Http1State × List ParsedRequest}
    {rest : Bytes} (framed : FramedBy P flags state rest) :
    state.1.turn P previewCap flags.1 flags.2 rest =
      state.1.turn P previewCap (flagsOf (answerable state.2)).1
        (flagsOf (answerable state.2)).2 rest := by
  obtain ⟨current, waiting⟩ := state
  cases current with
  | upgraded => rfl
  | untilClose => rfl
  | body pending position_ => cases position_ <;> rfl
  | head =>
    have alike := framed rfl
    unfold framedAlike at alike
    cases found : position (bytes "\r\n\r\n") rest with
    | none => simp only [Http1State.turn, found]
    | some end_ =>
      rw [found] at alike
      dsimp only at alike
      simp only [Http1State.turn, found, alike]

/-- A decoder that keeps its flags agrees with the reference where they frame every response. -/
theorem drains_of_framedBy {flags : Bool × Bool} {state final : Http1State × List ParsedRequest}
    {rest left : Bytes} {items : List Http1Item}
    (framed : Throughout (framedTurn P previewCap) (FramedBy P flags) state rest)
    (drains : Drains (framedTurn P previewCap) state rest final left items) :
    Drains (Http1State.parserTurn P previewCap flags.1 flags.2) state.1 rest final.1 left items := by
  induction drains with
  | stop stops =>
    refine .stop (Http1State.parserTurn_eq_stop.mpr ?_)
    rw [turn_of_framedBy framed.here]
    exact (framedTurn_eq_stop.mp stops).1
  | next goes _ induction =>
    refine .next (Http1State.parserTurn_eq_next.mpr ?_) (induction (framed.later goes))
    rw [turn_of_framedBy framed.here]
    exact (framedTurn_eq_next.mp goes).1

/-- What `feed` makes of a chunk whose responses its flags frame. -/
theorem Http1State.drain_eq_framedDrain {flags : Bool × Bool} {current : Http1State}
    {waiting : List ParsedRequest} {rest : Bytes}
    (framed : Throughout (framedTurn P previewCap) (FramedBy P flags) (current, waiting) rest) :
    current.drain P previewCap flags.1 flags.2 rest =
      ((framedDrain P previewCap (current, waiting) rest).1.1,
        (framedDrain P previewCap (current, waiting) rest).2) := by
  have reference := drains_of_framedBy framed (drains_framedDrain (current, waiting) rest)
  obtain ⟨state, left, items⟩ := reference.unique (current.drains_drain rest)
  exact Prod.ext state (Prod.ext left items)

instance (flags own : Bool × Bool) (rest : Bytes) : Decidable (framedAlike P flags own rest) := by
  unfold framedAlike
  split <;> infer_instance

instance (flags : Bool × Bool) (state : Http1State × List ParsedRequest) (rest : Bytes) :
    Decidable (FramedBy P flags state rest) := inferInstanceAs (Decidable (_ → _))

instance (state : Http1State × List ParsedRequest) (rest : Bytes) :
    Decidable (FramedRegular P state rest) :=
  inferInstanceAs (Decidable (state.1.Regular P _ _ rest))

end ApiSensor
