import ApiSensor.Http1

/-!
# What a turn of the HTTP/1 decoder can do

`Takes` lists the turns of `Http1Decoder::feed` with their guards.  What holds of every turn, and so
of every run, is read off this list.
-/

namespace ApiSensor

open Library

/-- The state after a turn. -/
def Turn.state : Turn → Http1State
  | .next state _ _ => state
  | .stop state _ _ => state

/-- The items of a turn. -/
def Turn.items : Turn → List Http1Item
  | .next _ _ items => items
  | .stop _ _ items => items

/-! ## Header blocks -/

/-- What an accepted header block is read as. -/
theorem parseHead_eq_ok {P : Platform} {head : Bytes} {responseToHead responseToConnect : Bool}
    {msg : HttpMessage} {framing : Framing}
    (parsed : parseHead P head responseToHead responseToConnect = .ok (msg, framing)) :
    ∃ text, fromUtf8 head = some text ∧
      ((∃ status, msg = .response ⟨status, parseHeaders P (splitCrlf text).tail, []⟩ ∧
          (framing = .upgrade ∨ framing = .none ∨
            bodyFraming (parseHeaders P (splitCrlf text).tail) false = .ok framing)) ∨
        ∃ method path, [method, path] <+: splitWhitespace ((splitCrlf text).headD []) ∧
          msg = .request ⟨method, path, (parseHeaders P (splitCrlf text).tail).get? (str "host"),
            parseHeaders P (splitCrlf text).tail, []⟩ ∧
          bodyFraming (parseHeaders P (splitCrlf text).tail) true = .ok framing) := by
  unfold parseHead at parsed
  cases decoded : fromUtf8 head with
  | none =>
    rw [decoded] at parsed
    cases parsed
  | some text =>
    rw [decoded] at parsed
    refine ⟨text, rfl, ?_⟩
    dsimp only at parsed
    split at parsed
    · left
      split at parsed
      · cases parsed
      · rename_i status _
        refine ⟨status, ?_⟩
        split_ifs at parsed
        · cases parsed
          exact ⟨rfl, .inl rfl⟩
        · cases parsed
          exact ⟨rfl, .inr (.inl rfl)⟩
        · split at parsed
          · cases parsed
          · rename_i framed
            cases parsed
            exact ⟨rfl, .inr (.inr framed)⟩
    · right
      split at parsed
      · cases parsed
      · rename_i path target
        split_ifs at parsed
        split at parsed
        · cases parsed
        · rename_i framed
          cases parsed
          refine ⟨_, _, ?_, rfl, framed⟩
          cases words : splitWhitespace ((splitCrlf text).headD []) with
          | nil =>
            rw [words] at target
            cases target
          | cons method rest =>
            rw [words] at target
            obtain ⟨more, rest_eq⟩ := List.head?_eq_some_iff.mp target
            rw [List.tail_cons] at rest_eq
            rw [rest_eq]
            exact ⟨more, rfl⟩

/-! ## Turns -/

section Takes

variable (P : Platform) (previewCap : Nat) (responseToHead responseToConnect : Bool)

/-- A turn of the decoder, with the guard under which it is taken. -/
inductive Http1State.Takes : Http1State → Bytes → Turn → Prop
  | upgraded {rest} : Takes .upgraded rest (.stop .upgraded [] [])
  | untilClose {rest} : Takes .untilClose rest (.stop .untilClose [] [])
  | headWaits {rest} (missing : position (bytes "\r\n\r\n") rest = none)
      (short : rest.length ≤ maxHttp1HeaderBytes) : Takes .head rest (.stop .head rest [])
  | headTooLarge {rest} (missing : position (bytes "\r\n\r\n") rest = none)
      (long : maxHttp1HeaderBytes < rest.length) :
      Takes .head rest (.stop .head [] [.invalid (str "header block too large")])
  | headInvalid {rest end_ reason} (found : position (bytes "\r\n\r\n") rest = some end_)
      (parsed : parseHead P (rest.take (end_ + 4)) responseToHead responseToConnect =
        .error reason) :
      Takes .head rest (.stop .head [] [.invalid reason])
  /-- The message has no body. -/
  | headAlone {rest end_ msg framing} (found : position (bytes "\r\n\r\n") rest = some end_)
      (parsed : parseHead P (rest.take (end_ + 4)) responseToHead responseToConnect =
        .ok (msg, framing))
      (bodyless : framing = .none ∨ framing = .fixed 0) :
      Takes .head rest (.next .head (rest.drop (end_ + 4)) [.message ⟨msg, 0, false, false⟩])
  | headFixed {rest end_ msg length} (found : position (bytes "\r\n\r\n") rest = some end_)
      (parsed : parseHead P (rest.take (end_ + 4)) responseToHead responseToConnect =
        .ok (msg, .fixed (length + 1))) :
      Takes .head rest
        (.next (.body ⟨msg, 0, false, false⟩ (.fixed (length + 1))) (rest.drop (end_ + 4)) [])
  | headChunked {rest end_ msg} (found : position (bytes "\r\n\r\n") rest = some end_)
      (parsed : parseHead P (rest.take (end_ + 4)) responseToHead responseToConnect =
        .ok (msg, .chunked)) :
      Takes .head rest
        (.next (.body ⟨msg, 0, false, false⟩ .chunkSize) (rest.drop (end_ + 4)) [])
  | headUntilClose {rest end_ msg} (found : position (bytes "\r\n\r\n") rest = some end_)
      (parsed : parseHead P (rest.take (end_ + 4)) responseToHead responseToConnect =
        .ok (msg, .untilClose)) :
      Takes .head rest
        (.stop .untilClose []
          [.message ⟨msg.appendBody ((rest.drop (end_ + 4)).take previewCap),
            (rest.drop (end_ + 4)).length,
            min (rest.drop (end_ + 4)).length previewCap < (rest.drop (end_ + 4)).length, true⟩])
  | headUpgrade {rest end_ msg} (found : position (bytes "\r\n\r\n") rest = some end_)
      (parsed : parseHead P (rest.take (end_ + 4)) responseToHead responseToConnect =
        .ok (msg, .upgrade)) :
      Takes .head rest (.stop .upgraded [] [.message ⟨msg, 0, false, false⟩])
  | fixedDone {pending remaining rest} (enough : remaining ≤ rest.length) :
      Takes (.body pending (.fixed remaining)) rest
        (.next .head (rest.drop remaining)
          [.message (pending.preview previewCap (rest.take remaining))])
  | fixedMore {pending remaining rest} (short : rest.length < remaining) :
      Takes (.body pending (.fixed remaining)) rest
        (.stop (.body (pending.preview previewCap rest) (.fixed (remaining - rest.length))) [] [])
  | sizeWaits {pending rest} (missing : position (bytes "\r\n") rest = none)
      (short : rest.length ≤ maxChunkLine) :
      Takes (.body pending .chunkSize) rest (.stop (.body pending .chunkSize) rest [])
  | sizeTooLong {pending rest} (missing : position (bytes "\r\n") rest = none)
      (long : maxChunkLine < rest.length) :
      Takes (.body pending .chunkSize) rest
        (.stop .head [] [.invalid (str "chunk size line too long")])
  | sizeBad {pending rest eol} (found : position (bytes "\r\n") rest = some eol)
      (bad : chunkSize? (rest.take eol) = none) :
      Takes (.body pending .chunkSize) rest (.stop .head [] [.invalid (str "bad chunk size")])
  | sizeLast {pending rest eol} (found : position (bytes "\r\n") rest = some eol)
      (last : chunkSize? (rest.take eol) = some 0) :
      Takes (.body pending .chunkSize) rest
        (.next (.body pending .trailers) (rest.drop (eol + 2)) [])
  | sizeRead {pending rest eol size} (found : position (bytes "\r\n") rest = some eol)
      (announced : chunkSize? (rest.take eol) = some (size + 1)) :
      Takes (.body pending .chunkSize) rest
        (.next (.body pending (.chunkData (size + 1))) (rest.drop (eol + 2)) [])
  | dataDone {pending remaining rest} (enough : remaining ≤ rest.length) :
      Takes (.body pending (.chunkData remaining)) rest
        (.next (.body (pending.preview previewCap (rest.take remaining)) .chunkCrlf)
          (rest.drop remaining) [])
  | dataMore {pending remaining rest} (short : rest.length < remaining) :
      Takes (.body pending (.chunkData remaining)) rest
        (.stop (.body (pending.preview previewCap rest) (.chunkData (remaining - rest.length)))
          [] [])
  | crlfWaits {pending rest} (short : rest.length < 2) :
      Takes (.body pending .chunkCrlf) rest (.stop (.body pending .chunkCrlf) rest [])
  | crlfBad {pending rest} (other : rest.take 2 ≠ bytes "\r\n") :
      Takes (.body pending .chunkCrlf) rest
        (.stop .head [] [.invalid (str "missing CRLF after chunk")])
  | crlfRead {pending rest} (crlf : rest.take 2 = bytes "\r\n") :
      Takes (.body pending .chunkCrlf) rest (.next (.body pending .chunkSize) (rest.drop 2) [])
  | trailerWaits {pending rest} (missing : position (bytes "\r\n") rest = none)
      (short : rest.length ≤ maxHttp1HeaderBytes) :
      Takes (.body pending .trailers) rest (.stop (.body pending .trailers) rest [])
  | trailerTooLong {pending rest} (missing : position (bytes "\r\n") rest = none)
      (long : maxHttp1HeaderBytes < rest.length) :
      Takes (.body pending .trailers) rest (.stop .head [] [.invalid (str "trailers too large")])
  | trailersEnd {pending rest} (found : position (bytes "\r\n") rest = some 0) :
      Takes (.body pending .trailers) rest (.next .head (rest.drop 2) [.message pending])
  | trailerRead {pending rest eol} (found : position (bytes "\r\n") rest = some (eol + 1)) :
      Takes (.body pending .trailers) rest
        (.next (.body (pending.addTrailer P (rest.take (eol + 1))) .trailers)
          (rest.drop (eol + 1 + 2)) [])

variable {P previewCap responseToHead responseToConnect} {state : Http1State} {rest : Bytes}

theorem Http1State.turn_head_error {end_ : Nat} {reason : Str}
    (found : position (bytes "\r\n\r\n") rest = some end_)
    (parsed : parseHead P (rest.take (end_ + 4)) responseToHead responseToConnect =
      .error reason) :
    Http1State.head.turn P previewCap responseToHead responseToConnect rest =
      .stop .head [] [.invalid reason] := by
  simp only [turn, found, parsed]

theorem Http1State.turn_head_ok {end_ : Nat} {msg : HttpMessage} {framing : Framing}
    (found : position (bytes "\r\n\r\n") rest = some end_)
    (parsed : parseHead P (rest.take (end_ + 4)) responseToHead responseToConnect =
      .ok (msg, framing)) :
    Http1State.head.turn P previewCap responseToHead responseToConnect rest =
      turnAfterHead previewCap msg (rest.drop (end_ + 4)) framing := by
  simp only [turn, found, parsed]

theorem Http1State.takes_turn (state : Http1State) (rest : Bytes) :
    Takes P previewCap responseToHead responseToConnect state rest
      (state.turn P previewCap responseToHead responseToConnect rest) := by
  cases state with
  | upgraded => exact .upgraded
  | untilClose => exact .untilClose
  | head =>
    cases found : position (bytes "\r\n\r\n") rest with
    | none =>
      simp only [turn, found]
      split
      · rename_i long
        exact .headTooLarge found long
      · rename_i short
        exact .headWaits found (Nat.not_lt.mp short)
    | some end_ =>
      cases parsed : parseHead P (rest.take (end_ + 4)) responseToHead responseToConnect with
      | error reason =>
        rw [turn_head_error found parsed]
        exact .headInvalid found parsed
      | ok result =>
        obtain ⟨msg, framing⟩ := result
        rw [turn_head_ok found parsed]
        cases framing with
        | none => exact .headAlone found parsed (.inl rfl)
        | fixed length =>
          cases length with
          | zero => exact .headAlone found parsed (.inr rfl)
          | succ length => exact .headFixed found parsed
        | chunked => exact .headChunked found parsed
        | untilClose => exact .headUntilClose found parsed
        | upgrade => exact .headUpgrade found parsed
  | body pending position_ =>
    cases position_ with
    | fixed remaining =>
      simp only [turn]
      split
      · rename_i enough
        exact .fixedDone enough
      · rename_i short
        rw [List.take_of_length_le (Nat.le_of_not_le short)]
        exact .fixedMore (Nat.not_le.mp short)
    | chunkSize =>
      cases found : position (bytes "\r\n") rest with
      | none =>
        simp only [turn, found]
        split
        · rename_i long
          exact .sizeTooLong found long
        · rename_i short
          exact .sizeWaits found (Nat.not_lt.mp short)
      | some eol =>
        simp only [turn, found]
        cases announced : chunkSize? (rest.take eol) with
        | none => exact .sizeBad found announced
        | some size =>
          cases size with
          | zero => exact .sizeLast found announced
          | succ size => exact .sizeRead found announced
    | chunkData remaining =>
      simp only [turn]
      split
      · rename_i enough
        exact .dataDone enough
      · rename_i short
        rw [List.take_of_length_le (Nat.le_of_not_le short)]
        exact .dataMore (Nat.not_le.mp short)
    | chunkCrlf =>
      simp only [turn]
      split
      · rename_i short
        exact .crlfWaits short
      · split
        · rename_i other
          exact .crlfBad other
        · rename_i crlf
          exact .crlfRead (Decidable.not_not.mp crlf)
    | trailers =>
      cases found : position (bytes "\r\n") rest with
      | none =>
        simp only [turn, found]
        split
        · rename_i long
          exact .trailerTooLong found long
        · rename_i short
          exact .trailerWaits found (Nat.not_lt.mp short)
      | some eol =>
        simp only [turn, found]
        cases eol with
        | zero => exact .trailersEnd found
        | succ eol => exact .trailerRead found

theorem Http1State.takes_of_turn {result : Turn}
    (taken : state.turn P previewCap responseToHead responseToConnect rest = result) :
    Takes P previewCap responseToHead responseToConnect state rest result :=
  taken ▸ state.takes_turn rest

theorem two_le_of_crlf (crlf : rest.take 2 = bytes "\r\n") : 2 ≤ rest.length := by
  have length := congrArg List.length crlf
  simp only [List.length_take, show (bytes "\r\n").length = 2 from rfl] at length
  omega

/-- The guards of a turn that goes on decide it. -/
theorem Http1State.Takes.turn_eq {middle : Http1State} {left : Bytes} {items : List Http1Item}
    (takes : Takes P previewCap responseToHead responseToConnect state rest
      (.next middle left items)) :
    state.turn P previewCap responseToHead responseToConnect rest = .next middle left items := by
  cases takes with
  | headAlone found parsed bodyless =>
    rw [turn_head_ok found parsed]
    rcases bodyless with rfl | rfl <;> rfl
  | headFixed found parsed => exact turn_head_ok found parsed
  | headChunked found parsed => exact turn_head_ok found parsed
  | fixedDone enough => simp only [turn, if_pos enough]
  | dataDone enough => simp only [turn, if_pos enough]
  | sizeLast found last => simp only [turn, found, last]
  | sizeRead found announced => simp only [turn, found, announced]
  | crlfRead crlf =>
    simp only [turn, if_neg (Nat.not_lt.mpr (two_le_of_crlf crlf)), crlf, ne_eq, not_true_eq_false, if_false]
  | trailersEnd found => simp only [turn, found]
  | trailerRead found => simp only [turn, found]

end Takes

end ApiSensor
