import ApiSensor.Decoding.Http1

/-!
# Progress of the HTTP/1 decoder

A call of `feed` returns and leaves at most the beginning of one element unconsumed: a header block,
a line or a line break.  Offered that again, it does nothing.
-/

namespace ApiSensor

open Library

/-- What a call may leave unconsumed, by the state it ends in. -/
def Http1State.Leaves : Http1State → Bytes → Prop
  | .head, left =>
    left.length ≤ maxHttp1HeaderBytes ∧ position (bytes "\r\n\r\n") left = none
  | .body _ .chunkSize, left => left.length ≤ maxChunkLine ∧ position (bytes "\r\n") left = none
  | .body _ .trailers, left =>
    left.length ≤ maxHttp1HeaderBytes ∧ position (bytes "\r\n") left = none
  | .body _ .chunkCrlf, left => left.length ≤ 1
  | .body _ (.fixed remaining), left => left = [] ∧ 0 < remaining
  | .body _ (.chunkData remaining), left => left = [] ∧ 0 < remaining
  | .upgraded, left => left = []
  | .untilClose, left => left = []

section Progress

variable {P : Platform} {previewCap : Nat} {responseToHead responseToConnect : Bool}
  {state final : Http1State} {rest left : Bytes} {items : List Http1Item}

theorem Http1State.leaves_of_stop
    (stops : state.turn P previewCap responseToHead responseToConnect rest =
      .stop final left items) : final.Leaves left := by
  have nothing : Http1State.head.Leaves [] := ⟨Nat.zero_le _, rfl⟩
  cases takes_of_turn stops with
  | upgraded | untilClose | headUntilClose | headUpgrade => rfl
  | headWaits missing short | sizeWaits missing short | trailerWaits missing short =>
    exact ⟨short, missing⟩
  | fixedMore short | dataMore short => exact ⟨rfl, Nat.sub_pos_of_lt short⟩
  | crlfWaits short => exact Nat.le_of_lt_succ short
  | headTooLarge | headInvalid | sizeTooLong | sizeBad | crlfBad | trailerTooLong =>
    exact nothing

theorem Http1State.leaves_of_drains
    (drains : Drains (Http1State.parserTurn P previewCap responseToHead responseToConnect) state
      rest final left items) : final.Leaves left := by
  induction drains with
  | stop stops => exact leaves_of_stop (parserTurn_eq_stop.mp stops)
  | next _ _ ih => exact ih

/-- What was left is left again, and nothing comes of it. -/
theorem Http1State.turn_of_leaves (leaves : state.Leaves left) :
    ∃ again, state.turn P previewCap responseToHead responseToConnect left =
      .stop again left [] := by
  cases state with
  | upgraded | untilClose =>
    cases leaves
    exact ⟨_, rfl⟩
  | head =>
    obtain ⟨short, missing⟩ := leaves
    simp only [turn, missing, if_neg (Nat.not_lt.mpr short)]
    exact ⟨_, rfl⟩
  | body pending position_ =>
    cases position_ with
    | fixed remaining | chunkData remaining =>
      obtain ⟨rfl, positive⟩ := leaves
      simp only [turn, List.length_nil, if_neg (Nat.not_le.mpr positive)]
      exact ⟨_, rfl⟩
    | chunkSize | trailers =>
      obtain ⟨short, missing⟩ := leaves
      simp only [turn, missing, if_neg (Nat.not_lt.mpr short)]
      exact ⟨_, rfl⟩
    | chunkCrlf =>
      simp only [turn, if_pos (Nat.lt_succ_of_le leaves)]
      exact ⟨_, rfl⟩

/-- More fuel than the loop needs changes nothing. -/
theorem feedLoop_eq_drain {fuel : Nat} (enough : state.turnsLeft rest < fuel) :
    feedLoop P previewCap responseToHead responseToConnect fuel state rest =
      state.drain P previewCap responseToHead responseToConnect rest := by
  obtain ⟨sameState, sameLeft, sameItems⟩ :=
    (state.drains_drain rest).unique (drains_feedLoop enough)
  exact Prod.ext sameState (Prod.ext sameLeft sameItems)

end Progress

/-- `feed` returns, after at most two turns for each byte and two more; it consumes at most what it
is given and leaves at most the beginning of an element; and it does nothing with that when it is
called again. -/
theorem Http1Decoder.feed_progress (P : Platform) (decoder : Http1Decoder) (buf : Bytes)
    (responseToHead responseToConnect : Bool) :
    let result := decoder.feed P buf responseToHead responseToConnect
    (∀ fuel, 2 * buf.length + 2 ≤ fuel →
      feedLoop P decoder.previewCap responseToHead responseToConnect fuel decoder.state buf =
        (result.1.state, buf.drop result.2.1, result.2.2)) ∧
    result.2.1 ≤ buf.length ∧ result.1.state.Leaves (buf.drop result.2.1) ∧
    ∀ responseToHead' responseToConnect',
      let again := result.1.feed P (buf.drop result.2.1) responseToHead' responseToConnect'
      again.2.1 = 0 ∧ again.2.2 = [] := by
  intro result
  have left_eq : buf.drop result.2.1 =
      (decoder.state.drain P decoder.previewCap responseToHead responseToConnect buf).2.1 :=
    decoder.drop_feed buf
  have drains : Drains (Http1State.parserTurn P decoder.previewCap responseToHead
      responseToConnect) decoder.state buf result.1.state (buf.drop result.2.1) result.2.2 := by
    rw [left_eq]
    exact decoder.state.drains_drain buf
  have leaves := Http1State.leaves_of_drains drains
  refine ⟨fun fuel enough => ?_, Nat.sub_le _ _, leaves, fun head connect => ?_⟩
  · rw [feedLoop_eq_drain, left_eq]
    · rfl
    · unfold Http1State.turnsLeft
      split <;> omega
  · have again : ∃ state, result.1.state.turn P result.1.previewCap head connect
        (buf.drop result.2.1) = .stop state (buf.drop result.2.1) [] :=
      Http1State.turn_of_leaves leaves
    obtain ⟨state, stops⟩ := again
    have once : Drains (Http1State.parserTurn P result.1.previewCap head connect) result.1.state
        (buf.drop result.2.1) state (buf.drop result.2.1) [] :=
      .stop (Http1State.parserTurn_eq_stop.mpr stops)
    obtain ⟨-, sameLeft, sameItems⟩ := once.unique (result.1.state.drains_drain _)
    refine ⟨?_, sameItems⟩
    have consumed : (buf.drop result.2.1).length -
        (result.1.state.drain P result.1.previewCap head connect (buf.drop result.2.1)).2.1.length =
          0 := by
      rw [sameLeft, Nat.sub_self]
    exact consumed

end ApiSensor
