import ApiSensor.Decoding.Turns
import ApiSensor.Library.Incremental

/-!
# HTTP/1 decoding and chunk boundaries

`Http1Decoder::feed` is called with whatever has arrived.  A chunk boundary may fall inside every
token; a turn that lacks bytes waits for them or takes what there is, and the next call resumes it.
-/

namespace ApiSensor

open Library

/-! ## Searching -/

section Search

variable {needle : Bytes}

theorem length_of_position {rest : Bytes} {at_ : Nat} (found : position needle rest = some at_) :
    at_ + needle.length ≤ rest.length := by
  induction rest generalizing at_ with
  | nil => cases found
  | cons byte rest induction =>
    unfold position at found
    split at found
    · rename_i begins
      cases found
      simpa using (List.isPrefixOf_iff_prefix.mp begins).length_le
    · obtain ⟨inner, inside, rfl⟩ := Option.map_eq_some_iff.mp found
      have bound := induction inside
      simp only [List.length_cons]
      omega

theorem position_append {rest : Bytes} {at_ : Nat} (found : position needle rest = some at_)
    (more : Bytes) : position needle (rest ++ more) = some at_ := by
  induction rest generalizing at_ with
  | nil => cases found
  | cons byte rest induction =>
    rw [List.cons_append]
    unfold position at found ⊢
    split at found
    · rename_i begins
      cases found
      have longer : needle <+: byte :: (rest ++ more) :=
        (List.isPrefixOf_iff_prefix.mp begins).trans (List.prefix_append (byte :: rest) more)
      rw [if_pos (List.isPrefixOf_iff_prefix.mpr longer)]
    · rename_i missing
      obtain ⟨inner, inside, rfl⟩ := Option.map_eq_some_iff.mp found
      have fits := length_of_position inside
      -- the needle would fit into what was searched
      have missing' : ¬ needle.isPrefixOf (byte :: (rest ++ more)) = true := by
        intro begins
        have shorter : needle <+: byte :: rest := by
          refine List.prefix_of_prefix_length_le (List.isPrefixOf_iff_prefix.mp begins)
            (List.prefix_append (byte :: rest) more) ?_
          simp only [List.length_cons]
          omega
        exact missing (List.isPrefixOf_iff_prefix.mpr shorter)
      rw [if_neg missing', induction inside]
      rfl

/-- A needle that appears only with more input reaches into it. -/
theorem length_lt_of_position_append {rest more : Bytes} {at_ : Nat} (nonempty : needle ≠ [])
    (missing : position needle rest = none)
    (found : position needle (rest ++ more) = some at_) : rest.length < at_ + needle.length := by
  induction rest generalizing at_ with
  | nil =>
    have positive := List.length_pos_iff.mpr nonempty
    simp only [List.length_nil]
    omega
  | cons byte rest induction =>
    rw [List.cons_append] at found
    unfold position at missing found
    split at missing
    · cases missing
    · rename_i begins
      split at found
      · rename_i begins'
        cases found
        by_contra short
        refine begins (List.isPrefixOf_iff_prefix.mpr ?_)
        refine List.prefix_of_prefix_length_le (List.isPrefixOf_iff_prefix.mp begins')
          (List.prefix_append (byte :: rest) more) ?_
        omega
      · obtain ⟨inner, inside, rfl⟩ := Option.map_eq_some_iff.mp found
        have bound := induction (Option.map_eq_none_iff.mp missing) inside
        simp only [List.length_cons]
        omega

end Search

/-! ## Bodies -/

theorem HttpMessage.body_appendBody (msg : HttpMessage) (more : Bytes) :
    (msg.appendBody more).body = msg.body ++ more := by
  cases msg <;> rfl

theorem HttpMessage.appendBody_append (msg : HttpMessage) (first second : Bytes) :
    msg.appendBody (first ++ second) = (msg.appendBody first).appendBody second := by
  cases msg <;> simp [appendBody]

/-- A body may be previewed in pieces. -/
theorem Http1Message.preview_append (previewCap : Nat) (m : Http1Message) (first second : Bytes) :
    m.preview previewCap (first ++ second) =
      (m.preview previewCap first).preview previewCap second := by
  have room : previewCap - (m.msg.body ++ first.take (previewCap - m.msg.body.length)).length =
      previewCap - m.msg.body.length - first.length := by
    simp only [List.length_append, List.length_take]
    omega
  have total : min (m.bodyTotal + (first.length + second.length)) (2 ^ 64 - 1) =
      min (min (m.bodyTotal + first.length) (2 ^ 64 - 1) + second.length) (2 ^ 64 - 1) := by
    omega
  have truncated : (decide (previewCap - m.msg.body.length < first.length + second.length)) =
      (decide (previewCap - m.msg.body.length < first.length) ||
        decide (previewCap - m.msg.body.length - first.length < second.length)) := by
    rw [← Bool.decide_or, decide_eq_decide]
    omega
  simp only [preview, HttpMessage.body_appendBody, room]
  rw [List.take_append, HttpMessage.appendBody_append, List.length_append, total, truncated,
    Bool.or_assoc]

/-! ## Limits -/

/-- A line or block within its limit.  The decoder measures what it has as long as the terminator is
incomplete, so the last byte does not count. -/
def LineFits (terminator : Bytes) (limit : Nat) (rest : Bytes) : Prop :=
  match position terminator rest with
  | none => rest.length ≤ limit
  | some at_ => at_ + terminator.length ≤ limit + 1

theorem LineFits.length_le {terminator : Bytes} {limit : Nat} {rest more : Bytes}
    (fits : LineFits terminator limit (rest ++ more)) (nonempty : terminator ≠ [])
    (missing : position terminator rest = none) : rest.length ≤ limit := by
  unfold LineFits at fits
  cases found : position terminator (rest ++ more) with
  | none =>
    rw [found] at fits
    simp only [List.length_append] at fits
    omega
  | some at_ =>
    rw [found] at fits
    have reaches := length_lt_of_position_append nonempty missing found
    dsimp only at fits
    omega

/-- A complete header block is there, and its body ends with the connection. -/
def opensUntilClose (P : Platform) (responseToHead responseToConnect : Bool) (rest : Bytes) :
    Bool :=
  match position (bytes "\r\n\r\n") rest with
  | none => false
  | some end_ =>
    match parseHead P (rest.take (end_ + 4)) responseToHead responseToConnect with
    | .ok (_, framing) => framing = .untilClose
    | .error _ => false

/-- What the next turn looks at is within its size limit, and no close-delimited message starts. -/
def Http1State.Regular (P : Platform) (responseToHead responseToConnect : Bool) :
    Http1State → Bytes → Prop
  | .head, rest =>
    LineFits (bytes "\r\n\r\n") maxHttp1HeaderBytes rest ∧
      opensUntilClose P responseToHead responseToConnect rest = false
  | .body _ .chunkSize, rest => LineFits (bytes "\r\n") maxChunkLine rest
  | .body _ .trailers, rest => LineFits (bytes "\r\n") maxHttp1HeaderBytes rest
  | _, _ => True

/-! ## One turn with more input -/

section Turns

variable {P : Platform} {previewCap : Nat} {responseToHead responseToConnect : Bool}
  {state middle : Http1State} {rest more left : Bytes} {items : List Http1Item}

/-- A complete header block is read alike with more input behind it. -/
theorem parsed_append {end_ : Nat} {result : Except Str (HttpMessage × Framing)}
    (found : position (bytes "\r\n\r\n") rest = some end_)
    (parsed : parseHead P (rest.take (end_ + 4)) responseToHead responseToConnect = result) :
    parseHead P ((rest ++ more).take (end_ + 4)) responseToHead responseToConnect = result := by
  have fits : end_ + 4 ≤ rest.length := length_of_position found
  rwa [List.take_append_of_le_length fits]

/-- A turn that goes on does not look behind what it consumes. -/
theorem Http1State.turn_append_next
    (goes : state.turn P previewCap responseToHead responseToConnect rest =
      .next middle left items) (more : Bytes) :
    state.turn P previewCap responseToHead responseToConnect (rest ++ more) =
      .next middle (left ++ more) items := by
  have longer : ∀ {count}, count ≤ rest.length → count ≤ (rest ++ more).length := by
    intro count fits
    rw [List.length_append]
    omega
  -- everything up to the end of the block, line or count stays
  have block : ∀ {end_}, position (bytes "\r\n\r\n") rest = some end_ →
      rest.drop (end_ + 4) ++ more = (rest ++ more).drop (end_ + 4) := fun found =>
    (List.drop_append_of_le_length (length_of_position found)).symm
  have line : ∀ {eol}, position (bytes "\r\n") rest = some eol →
      rest.take eol = (rest ++ more).take eol ∧
        rest.drop (eol + 2) ++ more = (rest ++ more).drop (eol + 2) := by
    intro eol found
    have fits : eol + 2 ≤ rest.length := length_of_position found
    exact ⟨(List.take_append_of_le_length (by omega)).symm,
      (List.drop_append_of_le_length fits).symm⟩
  have counted : ∀ {count}, count ≤ rest.length →
      rest.take count = (rest ++ more).take count ∧
        rest.drop count ++ more = (rest ++ more).drop count := fun fits =>
    ⟨(List.take_append_of_le_length fits).symm, (List.drop_append_of_le_length fits).symm⟩
  refine Takes.turn_eq ?_
  cases takes_of_turn goes with
  | headAlone found parsed bodyless =>
    rw [block found]
    exact .headAlone (position_append found more) (parsed_append found parsed) bodyless
  | headFixed found parsed =>
    rw [block found]
    exact .headFixed (position_append found more) (parsed_append found parsed)
  | headChunked found parsed =>
    rw [block found]
    exact .headChunked (position_append found more) (parsed_append found parsed)
  | fixedDone enough =>
    rw [(counted enough).1, (counted enough).2]
    exact .fixedDone (longer enough)
  | dataDone enough =>
    rw [(counted enough).1, (counted enough).2]
    exact .dataDone (longer enough)
  | sizeLast found last =>
    rw [(line found).1] at last
    rw [(line found).2]
    exact .sizeLast (position_append found more) last
  | sizeRead found announced =>
    rw [(line found).1] at announced
    rw [(line found).2]
    exact .sizeRead (position_append found more) announced
  | crlfRead crlf =>
    have enough := two_le_of_crlf crlf
    rw [(counted enough).1] at crlf
    rw [(counted enough).2]
    exact .crlfRead crlf
  | trailersEnd found =>
    rw [(line found).2]
    exact .trailersEnd (position_append found more)
  | trailerRead found =>
    rw [(line found).1, (line found).2]
    exact .trailerRead (position_append found more)

/-- Counting on where the input ended. -/
structure CountedOn (remaining : Nat) (rest more : Bytes) : Prop where
  all : rest.take remaining = rest
  take : (rest ++ more).take remaining = rest ++ more.take (remaining - rest.length)
  drop : (rest ++ more).drop remaining = more.drop (remaining - rest.length)
  enough : remaining ≤ (rest ++ more).length ↔ remaining - rest.length ≤ more.length
  left : remaining - (rest ++ more).length = remaining - rest.length - more.length

theorem countedOn {remaining : Nat} (short : ¬ remaining ≤ rest.length) (more : Bytes) :
    CountedOn remaining rest more where
  all := List.take_of_length_le (by omega)
  take := by rw [List.take_append, List.take_of_length_le (by omega)]
  drop := by rw [List.drop_append, List.drop_eq_nil_of_le (by omega), List.nil_append]
  enough := by
    rw [List.length_append]
    omega
  left := by rw [List.length_append, Nat.sub_add_eq]

/-- What becomes of a turn that returned, once more input is there. -/
inductive Http1State.Resumes (P : Platform) (previewCap : Nat)
    (responseToHead responseToConnect : Bool) (state : Http1State) (input : Bytes)
    (middle : Http1State) (input' : Bytes) : List Http1Item → Prop
  /-- It waited for more, or took what there was. -/
  | waited : state.turn P previewCap responseToHead responseToConnect input =
        middle.turn P previewCap responseToHead responseToConnect input' →
      (state.Regular P responseToHead responseToConnect input →
        middle.Regular P responseToHead responseToConnect input') →
      Resumes P previewCap responseToHead responseToConnect state input middle input' []
  /-- It gave the connection up to another protocol. -/
  | upgraded (m : Http1Message) : middle = .upgraded →
      state.turn P previewCap responseToHead responseToConnect input =
        .stop .upgraded [] [.message m] →
      Resumes P previewCap responseToHead responseToConnect state input middle input' [.message m]
  /-- It found invalid framing. -/
  | failed (reason : Str) :
      state.turn P previewCap responseToHead responseToConnect input =
        .stop .head [] [.invalid reason] →
      Resumes P previewCap responseToHead responseToConnect state input middle input'
        [.invalid reason]

theorem Http1State.turn_append_stop
    (regular : state.Regular P responseToHead responseToConnect (rest ++ more))
    (stops : state.turn P previewCap responseToHead responseToConnect rest =
      .stop middle left items) :
    Resumes P previewCap responseToHead responseToConnect state (rest ++ more) middle
      (left ++ more) items := by
  cases takes_of_turn stops with
  | upgraded => exact .waited rfl id
  | untilClose => exact .waited rfl id
  | headWaits => exact .waited rfl id
  | sizeWaits => exact .waited rfl id
  | crlfWaits => exact .waited rfl id
  | trailerWaits => exact .waited rfl id
  | headTooLarge missing long => exact absurd (regular.1.length_le (by decide) missing) (by omega)
  | sizeTooLong missing long =>
    exact absurd (LineFits.length_le regular (by decide) missing) (by omega)
  | trailerTooLong missing long =>
    exact absurd (LineFits.length_le regular (by decide) missing) (by omega)
  | headInvalid found parsed =>
    exact .failed _ (turn_head_error (position_append found more) (parsed_append found parsed))
  | headUpgrade found parsed =>
    exact .upgraded _ rfl (turn_head_ok (position_append found more) (parsed_append found parsed))
  | headUntilClose found parsed =>
    have delimited := regular.2
    rw [opensUntilClose, position_append found] at delimited
    dsimp only at delimited
    rw [parsed_append found parsed] at delimited
    simp at delimited
  | fixedMore short =>
    have counted := countedOn (Nat.not_le.mpr short) more
    refine .waited ?_ fun _ => trivial
    simp only [turn, List.nil_append, counted.take, counted.drop, counted.enough, counted.left,
      Http1Message.preview_append]
  | dataMore short =>
    have counted := countedOn (Nat.not_le.mpr short) more
    refine .waited ?_ fun _ => trivial
    simp only [turn, List.nil_append, counted.take, counted.drop, counted.enough, counted.left,
      Http1Message.preview_append]
  | sizeBad found bad =>
    have fits := length_of_position found
    refine .failed _ ?_
    simp only [turn, position_append found, List.take_append_of_le_length
      ((Nat.le_add_right _ _).trans fits), bad]
    rfl
  | crlfBad other =>
    -- with one byte the turn would have waited
    have long : ¬ rest.length < 2 := by
      intro short
      simp [turn, short] at stops
    refine .failed _ ?_
    simp only [turn]
    rw [if_neg (by rw [List.length_append]; omega),
      List.take_append_of_le_length (Nat.not_lt.mp long), if_pos other]
    rfl

end Turns

/-! ## The decoding loop -/

/-- One turn of the decoding loop, as a parser turn. -/
def Http1State.parserTurn (P : Platform) (previewCap : Nat)
    (responseToHead responseToConnect : Bool) (state : Http1State) (rest : Bytes) :
    ParserTurn Http1State UInt8 Http1Item :=
  match state.turn P previewCap responseToHead responseToConnect rest with
  | .next state' rest' items => .next state' rest' items
  | .stop state' rest' items => .stop state' rest' items

/-- Invalid framing ends the comparison of two runs. -/
def Http1Item.isInvalid : Http1Item → Bool
  | .message _ => false
  | .invalid _ => true

section Loop

variable {P : Platform} {previewCap : Nat} {responseToHead responseToConnect : Bool}
  {state middle : Http1State} {rest left : Bytes} {items : List Http1Item}

theorem Http1State.parserTurn_eq_next :
    state.parserTurn P previewCap responseToHead responseToConnect rest = .next middle left items ↔
      state.turn P previewCap responseToHead responseToConnect rest = .next middle left items := by
  unfold parserTurn
  cases state.turn P previewCap responseToHead responseToConnect rest <;> simp

theorem Http1State.parserTurn_eq_stop :
    state.parserTurn P previewCap responseToHead responseToConnect rest = .stop middle left items ↔
      state.turn P previewCap responseToHead responseToConnect rest = .stop middle left items := by
  unfold parserTurn
  cases state.turn P previewCap responseToHead responseToConnect rest <;> simp

theorem Http1State.parserTurn_congr {other : Http1State} {rest' : Bytes}
    (same : state.turn P previewCap responseToHead responseToConnect rest =
      other.turn P previewCap responseToHead responseToConnect rest') :
    state.parserTurn P previewCap responseToHead responseToConnect rest =
      other.parserTurn P previewCap responseToHead responseToConnect rest' := by
  rw [parserTurn, parserTurn, same]

/-- Turns left at most: a counted body may take one without consuming anything. -/
def Http1State.turnsLeft (state : Http1State) (rest : Bytes) : Nat :=
  match state with
  | .body _ (.fixed _) => 2 * rest.length + 1
  | .body _ (.chunkData _) => 2 * rest.length + 1
  | _ => 2 * rest.length

theorem Http1State.turnsLeft_le (state : Http1State) (rest : Bytes) :
    state.turnsLeft rest ≤ 2 * rest.length + 1 := by
  unfold turnsLeft
  split <;> omega

/-- A turn that goes on leaves a suffix and fewer turns, and reports no error. -/
theorem Http1State.turn_next
    (goes : state.turn P previewCap responseToHead responseToConnect rest =
      .next middle left items) :
    left <:+ rest ∧ middle.turnsLeft left < state.turnsLeft rest ∧
      ∀ item ∈ items, item.isInvalid = false := by
  have fewer : ∀ {count} (middle : Http1State), 1 ≤ count → count ≤ rest.length →
      middle.turnsLeft (rest.drop count) < 2 * rest.length := by
    intro count middle some_ fits
    have turns := middle.turnsLeft_le (rest.drop count)
    rw [List.length_drop] at turns
    omega
  have takes := takes_of_turn goes
  refine ⟨?_, ?_, ?_⟩
  · cases takes <;> exact List.drop_suffix _ _
  · cases takes with
    | headAlone found => exact fewer _ (Nat.le_add_left _ _) (length_of_position found)
    | headFixed found => exact fewer _ (Nat.le_add_left _ _) (length_of_position found)
    | headChunked found => exact fewer _ (Nat.le_add_left _ _) (length_of_position found)
    | sizeLast found => exact fewer _ (Nat.le_add_left _ _) (length_of_position found)
    | sizeRead found => exact fewer _ (Nat.le_add_left _ _) (length_of_position found)
    | trailersEnd found => exact fewer _ (by decide) (length_of_position found)
    | trailerRead found => exact fewer _ (Nat.le_add_left _ _) (length_of_position found)
    | crlfRead crlf => exact fewer _ (by decide) (two_le_of_crlf crlf)
    | fixedDone enough =>
      simp only [turnsLeft, List.length_drop]
      omega
    | dataDone enough =>
      simp only [turnsLeft, List.length_drop]
      omega
  · cases takes <;> simp [Http1Item.isInvalid]

/-- A turn that returns leaves everything or nothing. -/
theorem Http1State.turn_stop
    (stops : state.turn P previewCap responseToHead responseToConnect rest =
      .stop middle left items) : left = rest ∨ left = [] := by
  cases takes_of_turn stops <;> first | exact .inl rfl | exact .inr rfl

/-- The decoding loop can be cut anywhere, as long as limits are kept and no message is delimited by
the end of the connection. -/
theorem Http1State.cuttable :
    Cuttable (Http1State.parserTurn P previewCap responseToHead responseToConnect)
      (Http1State.Regular P responseToHead responseToConnect) Http1Item.isInvalid where
  next _ goes := parserTurn_eq_next.mpr (turn_append_next (parserTurn_eq_next.mp goes) _)
  nonfatal goes := (turn_next (parserTurn_eq_next.mp goes)).2.2
  stop throughout stops := by
    have resumes := turn_append_stop throughout.here (parserTurn_eq_stop.mp stops)
    cases resumes with
    | waited same regular =>
      have same := parserTurn_congr same
      refine .inr ⟨by simp, throughout.congr same (regular throughout.here), ?_⟩
      intro final rest produced whole
      exact ⟨produced, whole.congr same, rfl⟩
    | upgraded m isUpgraded same =>
      subst isUpgraded
      refine .inr ⟨by simp [Http1Item.isInvalid], .intro trivial fun goes => ?_, ?_⟩
      · cases parserTurn_eq_next.mp goes
      · intro final rest produced whole
        obtain ⟨rfl, rfl, rfl⟩ := (Drains.stop (parserTurn_eq_stop.mpr same)).unique whole
        exact ⟨[], .stop rfl, rfl⟩
    | failed reason same =>
      exact .inl ⟨⟨_, List.mem_cons_self, rfl⟩, _, _, parserTurn_eq_stop.mpr same⟩

theorem Http1State.suffix_of_drains {final : Http1State}
    (drains : Drains (Http1State.parserTurn P previewCap responseToHead responseToConnect) state
      rest final left items) : left <:+ rest := by
  induction drains with
  | stop stops =>
    rcases turn_stop (parserTurn_eq_stop.mp stops) with rfl | rfl
    · exact List.suffix_rfl
    · exact List.nil_suffix
  | next goes _ induction => exact induction.trans (turn_next (parserTurn_eq_next.mp goes)).1

/-- With enough fuel the loop drains its input. -/
theorem drains_feedLoop {fuel : Nat} (enough : state.turnsLeft rest < fuel) :
    Drains (Http1State.parserTurn P previewCap responseToHead responseToConnect) state rest
      (feedLoop P previewCap responseToHead responseToConnect fuel state rest).1
      (feedLoop P previewCap responseToHead responseToConnect fuel state rest).2.1
      (feedLoop P previewCap responseToHead responseToConnect fuel state rest).2.2 := by
  induction fuel generalizing state rest with
  | zero => exact absurd enough (Nat.not_lt_zero _)
  | succ fuel induction =>
    unfold feedLoop
    cases taken : state.turn P previewCap responseToHead responseToConnect rest with
    | stop middle left items => exact .stop (Http1State.parserTurn_eq_stop.mpr taken)
    | next middle left items =>
      have fewer := (Http1State.turn_next taken).2.1
      have goes := Http1State.parserTurn_eq_next.mpr taken
      dsimp only
      split
      · -- the loop returns where the next turn would find nothing to do
        rename_i done
        simp only [Bool.and_eq_true, List.isEmpty_iff, decide_eq_true_eq] at done
        obtain ⟨rfl, rfl⟩ := done
        have last : Drains (Http1State.parserTurn P previewCap responseToHead
            responseToConnect) .head [] .head [] [] := .stop rfl
        simpa using Drains.next goes last
      · exact .next goes (induction (by omega))

end Loop

/-! ## Any way to cut the stream -/

/-- Feed chunks one after the other, each behind what the last one left unconsumed. -/
def Http1Decoder.feedChunks (P : Platform) (responseToHead responseToConnect : Bool) :
    Http1Decoder → Bytes → List Bytes → List Http1Item
  | _, _, [] => []
  | decoder, left, chunk :: chunks =>
    let buf := left ++ chunk
    let result := decoder.feed P buf responseToHead responseToConnect
    result.2.2 ++
      feedChunks P responseToHead responseToConnect result.1 (buf.drop result.2.1) chunks

/-- The loop with the fuel that `feed` gives it. -/
def Http1State.drain (P : Platform) (previewCap : Nat) (responseToHead responseToConnect : Bool)
    (state : Http1State) (rest : Bytes) : Http1State × Bytes × List Http1Item :=
  feedLoop P previewCap responseToHead responseToConnect (2 * rest.length + 2) state rest

section Chunks

variable {P : Platform} {previewCap : Nat} {responseToHead responseToConnect : Bool}

theorem Http1State.drains_drain (state : Http1State) (rest : Bytes) :
    Drains (Http1State.parserTurn P previewCap responseToHead responseToConnect) state rest
      (state.drain P previewCap responseToHead responseToConnect rest).1
      (state.drain P previewCap responseToHead responseToConnect rest).2.1
      (state.drain P previewCap responseToHead responseToConnect rest).2.2 := by
  exact drains_feedLoop (Nat.lt_succ_of_le (state.turnsLeft_le rest))

/-- What `feed` leaves unconsumed is what the loop left. -/
theorem Http1Decoder.drop_feed (decoder : Http1Decoder) (buf : Bytes) :
    buf.drop (decoder.feed P buf responseToHead responseToConnect).2.1 =
      (decoder.state.drain P decoder.previewCap responseToHead responseToConnect buf).2.1 := by
  have drains : Drains (Http1State.parserTurn P decoder.previewCap responseToHead
      responseToConnect) decoder.state buf _ _ _ := decoder.state.drains_drain buf
  exact (List.suffix_iff_eq_drop.mp (Http1State.suffix_of_drains drains)).symm

theorem Http1Decoder.feedChunks_eq_feedAll (state : Http1State) (left : Bytes)
    (chunks : List Bytes) :
    (Http1Decoder.mk state previewCap).feedChunks P responseToHead responseToConnect left chunks =
      (feedAll (Http1State.drain P previewCap responseToHead responseToConnect) state left
        chunks).2.2 := by
  induction chunks generalizing state left with
  | nil => rfl
  | cons chunk chunks induction =>
    simp only [feedChunks, feedAll]
    rw [drop_feed]
    exact congrArg _ (induction _ _)

/-- However a stream is cut, a decoder makes the same items of it up to the first invalid one, if
every header block, chunk-size line and trailer line is within its limit and no message is delimited
by the end of the connection. -/
theorem Http1Decoder.items_feedChunks (chunks : List Bytes)
    (regular : Throughout (Http1State.parserTurn P previewCap responseToHead responseToConnect)
      (Http1State.Regular P responseToHead responseToConnect) .head chunks.flatten) :
    upTo Http1Item.isInvalid ((Http1Decoder.new previewCap).feedChunks P responseToHead
        responseToConnect [] chunks) =
      upTo Http1Item.isInvalid ((Http1Decoder.new previewCap).feed P chunks.flatten responseToHead
        responseToConnect).2.2 := by
  rw [Http1Decoder.new, feedChunks_eq_feedAll]
  cases chunks with
  | nil => rfl
  | cons chunk chunks =>
    exact Http1State.cuttable.upTo_feedAll Http1State.drains_drain (List.cons_ne_nil _ _) regular

end Chunks

instance (terminator : Bytes) (limit : Nat) (rest : Bytes) :
    Decidable (LineFits terminator limit rest) := by
  unfold LineFits
  split <;> infer_instance

instance (P : Platform) (responseToHead responseToConnect : Bool) (state : Http1State)
    (rest : Bytes) : Decidable (state.Regular P responseToHead responseToConnect rest) := by
  unfold Http1State.Regular
  split <;> infer_instance

/-- Two pipelined requests, the second with a chunked body, an extension and a trailer field. -/
def pipelined : Bytes :=
  bytes "GET /a HTTP/1.1\r\nHost: x\r\n\r\n" ++
    bytes "POST /b HTTP/1.1\r\nTransfer-Encoding: chunked\r\n\r\n" ++
      bytes "3\r\nabc\r\n4;q=1\r\ndefg\r\n0\r\nEtag: t\r\n\r\n"

theorem Http1Decoder.items_feedChunks_bytewise :
    let chunks := pipelined.map fun byte => [byte]
    let decoder := Http1Decoder.new 5
    upTo Http1Item.isInvalid (decoder.feedChunks asciiPlatform false false [] chunks) =
      upTo Http1Item.isInvalid (decoder.feed asciiPlatform chunks.flatten false false).2.2 ∧
    (decoder.feed asciiPlatform chunks.flatten false false).2.2.length = 2 := by
  have passed : Throughout.check (Http1State.parserTurn asciiPlatform 5 false false)
      (fun state rest => state.Regular asciiPlatform false false rest) 20 .head
      (pipelined.map fun byte => [byte]).flatten = true := by decide +kernel
  have regular := Throughout.of_check (fun _ _ => of_decide_eq_true) passed
  exact ⟨Http1Decoder.items_feedChunks _ regular, by decide +kernel⟩

end ApiSensor
