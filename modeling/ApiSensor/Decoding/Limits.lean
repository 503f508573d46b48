import ApiSensor.Decoding.Progress

/-!
# Size limits of HTTP/1 elements

`Http1Decoder::feed` compares a header block, a chunk-size line or a trailer line with its limit
only while the terminator is missing.  An element that is too long is refused if a call ends inside
it, far enough from its start, and passes if its terminator arrives before that.
-/

namespace ApiSensor

open Library

/-! ## Elements -/

/-- What ends the element that the decoder reads next, and the limit of its size. -/
def Http1State.limit? : Http1State → Option (Bytes × Nat)
  | .head => some (bytes "\r\n\r\n", maxHttp1HeaderBytes)
  | .body _ .chunkSize => some (bytes "\r\n", maxChunkLine)
  | .body _ .trailers => some (bytes "\r\n", maxHttp1HeaderBytes)
  | _ => none

/-- The element whose terminator was found: a header block with its terminator, a line without. -/
def Http1State.element (state : Http1State) (rest : Bytes) (at_ : Nat) : Bytes :=
  match state with
  | .head => rest.take (at_ + 4)
  | _ => rest.take at_

/-- The element cannot be parsed, whatever its size. -/
def Http1State.malformed (P : Platform) (responseToHead responseToConnect : Bool) :
    Http1State → Bytes → Bool
  | .head, block =>
    match parseHead P block responseToHead responseToConnect with
    | .error _ => true
    | .ok _ => false
  | .body _ .chunkSize, line => (chunkSize? line).isNone
  | _, _ => false

/-- The turn reports invalid framing. -/
def Turn.Refuses (taken : Turn) : Prop := ∃ reason, taken = .stop .head [] [.invalid reason]

/-- The turn waits for more input. -/
def Turn.waits : Turn → Bool
  | .next _ _ _ => false
  | .stop _ _ items => items.isEmpty

section Elements

variable {P : Platform} {previewCap : Nat} {responseToHead responseToConnect : Bool}
  {state : Http1State} {terminator rest : Bytes} {limit at_ : Nat}

theorem Http1State.turn_waits (reads : state.limit? = some (terminator, limit))
    (missing : position terminator rest = none) (short : rest.length ≤ limit) :
    state.turn P previewCap responseToHead responseToConnect rest = .stop state rest [] := by
  have within := Nat.not_lt.mpr short
  match state, reads with
  | .head, rfl => simp only [turn, missing, if_neg within]
  | .body _ .chunkSize, rfl => simp only [turn, missing, if_neg within]
  | .body _ .trailers, rfl => simp only [turn, missing, if_neg within]

theorem Http1State.turn_too_long (reads : state.limit? = some (terminator, limit))
    (missing : position terminator rest = none) (long : limit < rest.length) :
    (state.turn P previewCap responseToHead responseToConnect rest).Refuses := by
  match state, reads with
  | .head, rfl => exact ⟨_, by simp only [turn, missing, if_pos long]; rfl⟩
  | .body _ .chunkSize, rfl => exact ⟨_, by simp only [turn, missing, if_pos long]; rfl⟩
  | .body _ .trailers, rfl => exact ⟨_, by simp only [turn, missing, if_pos long]; rfl⟩

theorem turnAfterHead_accepts (previewCap : Nat) (msg : HttpMessage) (left : Bytes)
    (framing : Framing) :
    (turnAfterHead previewCap msg left framing).waits = false ∧
      ¬ (turnAfterHead previewCap msg left framing).Refuses := by
  cases framing with
  | fixed length => cases length <;> exact ⟨rfl, by rintro ⟨_, ⟨⟩⟩⟩
  | _ => exact ⟨rfl, by rintro ⟨_, ⟨⟩⟩⟩

/-- A complete element is refused exactly if it cannot be parsed. -/
theorem Http1State.turn_complete (reads : state.limit? = some (terminator, limit))
    (found : position terminator rest = some at_) :
    (state.turn P previewCap responseToHead responseToConnect rest).waits = false ∧
      ((state.turn P previewCap responseToHead responseToConnect rest).Refuses ↔
        state.malformed P responseToHead responseToConnect (state.element rest at_) = true) := by
  match state, reads with
  | .head, rfl =>
    simp only [malformed, element]
    cases parsed : parseHead P (rest.take (at_ + 4)) responseToHead responseToConnect with
    | error reason =>
      rw [turn_head_error found parsed]
      exact ⟨rfl, iff_of_true ⟨reason, rfl⟩ rfl⟩
    | ok result =>
      rw [turn_head_ok found parsed]
      obtain ⟨moves, accepts⟩ := turnAfterHead_accepts previewCap result.1
        (rest.drop (at_ + 4)) result.2
      exact ⟨moves, iff_of_false accepts Bool.false_ne_true⟩
  | .body pending .chunkSize, rfl =>
    simp only [turn, found, malformed, element]
    cases chunkSize? (rest.take at_) with
    | none => exact ⟨rfl, iff_of_true ⟨_, rfl⟩ rfl⟩
    | some size => cases size <;> exact ⟨rfl, iff_of_false (by rintro ⟨_, ⟨⟩⟩) Bool.false_ne_true⟩
  | .body pending .trailers, rfl =>
    simp only [turn, found]
    cases at_ <;> exact ⟨rfl, iff_of_false (by rintro ⟨_, ⟨⟩⟩) Bool.false_ne_true⟩

theorem Http1State.terminator_length (reads : state.limit? = some (terminator, limit)) :
    terminator ≠ [] ∧ ∀ rest at_, position terminator rest = some at_ → ∀ more,
      state.element (rest ++ more) at_ = state.element rest at_ := by
  match state, reads with
  | .head, rfl =>
    refine ⟨by decide, fun rest at_ found more => List.take_append_of_le_length ?_⟩
    exact length_of_position found
  | .body _ .chunkSize, rfl | .body _ .trailers, rfl =>
    refine ⟨by decide, fun rest at_ found more => List.take_append_of_le_length ?_⟩
    have inside := length_of_position found
    omega

end Elements

/-! ## An element in chunks -/

section Settle

variable (P : Platform) (previewCap : Nat) (responseToHead responseToConnect : Bool)

/-- The turn that decides the element a decoder waits for: the first one, as chunks arrive, that
does not wait for more. -/
def Http1State.settle (state : Http1State) : Bytes → List Bytes → Option Turn
  | _, [] => none
  | left, chunk :: chunks =>
    let taken := state.turn P previewCap responseToHead responseToConnect (left ++ chunk)
    if taken.waits then settle state (left ++ chunk) chunks else some taken

/-- A call ends inside the element, after more bytes than the limit. -/
def CutBeyond (terminator : Bytes) (limit : Nat) (left : Bytes) (chunks : List Bytes) : Prop :=
  ∃ before after, chunks = before ++ after ∧ limit < (left ++ before.flatten).length ∧
    position terminator (left ++ before.flatten) = none

variable {P previewCap responseToHead responseToConnect} {state : Http1State}
  {terminator left chunk : Bytes} {chunks : List Bytes} {limit at_ : Nat}

theorem cutBeyond_cons (short : left.length ≤ limit) :
    CutBeyond terminator limit left (chunk :: chunks) ↔
      CutBeyond terminator limit (left ++ chunk) chunks := by
  constructor
  · rintro ⟨before, after, split, long, missing⟩
    cases before with
    | nil =>
      rw [List.flatten_nil, List.append_nil] at long
      omega
    | cons first before =>
      obtain ⟨rfl, rfl⟩ := List.cons.inj split
      rw [List.flatten_cons, ← List.append_assoc] at long missing
      exact ⟨before, after, rfl, long, missing⟩
  · rintro ⟨before, after, rfl, long, missing⟩
    refine ⟨chunk :: before, after, rfl, ?_, ?_⟩
    · rwa [List.flatten_cons, ← List.append_assoc]
    · rwa [List.flatten_cons, ← List.append_assoc]

/-- An element is refused exactly if a call ends inside it beyond its limit, or it cannot be parsed,
by induction on the chunks. -/
theorem Http1State.settle_refuses_iff (reads : state.limit? = some (terminator, limit))
    (missing : position terminator left = none) (short : left.length ≤ limit)
    (found : position terminator (left ++ chunks.flatten) = some at_) :
    (∃ taken ∈ state.settle P previewCap responseToHead responseToConnect left chunks,
        taken.Refuses) ↔
      CutBeyond terminator limit left chunks ∨ state.malformed P responseToHead responseToConnect
        (state.element (left ++ chunks.flatten) at_) = true := by
  induction chunks generalizing left with
  | nil =>
    rw [List.flatten_nil, List.append_nil, missing] at found
    cases found
  | cons chunk chunks ih =>
    rw [List.flatten_cons, ← List.append_assoc] at found ⊢
    rw [cutBeyond_cons short, settle]
    cases reached : position terminator (left ++ chunk) with
    | none =>
      by_cases within : (left ++ chunk).length ≤ limit
      · -- the call waits, the next one goes on
        rw [turn_waits reads reached within]
        exact ih reached within found
      · have refuses : (state.turn P previewCap responseToHead responseToConnect
            (left ++ chunk)).Refuses := turn_too_long reads reached (Nat.not_le.mp within)
        have cut : CutBeyond terminator limit (left ++ chunk) chunks :=
          ⟨[], chunks, rfl, by simpa using within, by simpa using reached⟩
        obtain ⟨reason, refused⟩ := refuses
        rw [refused]
        exact iff_of_true ⟨_, rfl, reason, rfl⟩ (.inl cut)
    | some inner =>
      have same : inner = at_ := by
        rw [position_append reached] at found
        exact Option.some.inj found
      subst same
      obtain ⟨moves, refuses⟩ : (state.turn P previewCap responseToHead responseToConnect
          (left ++ chunk)).waits = false ∧ _ := turn_complete reads reached
      have uncut : ¬ CutBeyond terminator limit (left ++ chunk) chunks := by
        rintro ⟨before, after, -, -, absent⟩
        rw [position_append reached] at absent
        cases absent
      rw [(terminator_length reads).2 _ _ reached, ← refuses]
      simp [moves, uncut]

theorem Http1State.turn_of_waits (reads : state.limit? = some (terminator, limit)) {rest : Bytes}
    (waits : (state.turn P previewCap responseToHead responseToConnect rest).waits = true) :
    state.turn P previewCap responseToHead responseToConnect rest = .stop state rest [] := by
  cases reached : position terminator rest with
  | none =>
    by_cases within : rest.length ≤ limit
    · exact turn_waits reads reached within
    · have refuses : (state.turn P previewCap responseToHead responseToConnect rest).Refuses :=
        turn_too_long reads reached (Nat.not_le.mp within)
      obtain ⟨reason, refused⟩ := refuses
      rw [refused] at waits
      cases waits
  | some at_ =>
    have moves : (state.turn P previewCap responseToHead responseToConnect rest).waits = false :=
      (turn_complete reads reached).1
    exact absurd (moves.symm.trans waits) Bool.false_ne_true

theorem Http1State.drain_of_stop {rest left : Bytes} {final : Http1State} {items : List Http1Item}
    (stops : state.turn P previewCap responseToHead responseToConnect rest =
      .stop final left items) :
    state.drain P previewCap responseToHead responseToConnect rest = (final, left, items) := by
  have once : Drains (Http1State.parserTurn P previewCap responseToHead responseToConnect) state
      rest final left items := .stop (parserTurn_eq_stop.mpr stops)
  obtain ⟨sameState, sameLeft, sameItems⟩ := once.unique (state.drains_drain rest)
  exact Prod.ext sameState (Prod.ext sameLeft sameItems)

theorem Http1State.drain_of_next {rest left : Bytes} {middle : Http1State} {items : List Http1Item}
    (goes : state.turn P previewCap responseToHead responseToConnect rest =
      .next middle left items) :
    let later := middle.drain P previewCap responseToHead responseToConnect left
    state.drain P previewCap responseToHead responseToConnect rest =
      (later.1, later.2.1, items ++ later.2.2) := by
  have twice : Drains (Http1State.parserTurn P previewCap responseToHead responseToConnect) state
      rest _ _ _ := .next (parserTurn_eq_next.mpr goes) (middle.drains_drain left)
  obtain ⟨sameState, sameLeft, sameItems⟩ := twice.unique (state.drains_drain rest)
  exact Prod.ext sameState (Prod.ext sameLeft sameItems)

/-- The decoder reports the items of the deciding turn first. -/
theorem Http1State.feedChunks_settle (reads : state.limit? = some (terminator, limit))
    {taken : Turn} (settles : state.settle P previewCap responseToHead responseToConnect left chunks =
      some taken) :
    ∃ more, (Http1Decoder.mk state previewCap).feedChunks P responseToHead responseToConnect left
      chunks = taken.items ++ more := by
  rw [Http1Decoder.feedChunks_eq_feedAll]
  induction chunks generalizing left with
  | nil => cases settles
  | cons chunk chunks ih =>
    rw [settle] at settles
    split at settles
    · rename_i waits
      simp only [feedAll, drain_of_stop (turn_of_waits reads waits), List.nil_append]
      exact ih settles
    · cases settles
      simp only [feedAll]
      cases turned : state.turn P previewCap responseToHead responseToConnect (left ++ chunk) with
      | stop final rest items =>
        rw [drain_of_stop turned]
        exact ⟨_, rfl⟩
      | next middle rest items =>
        rw [drain_of_next turned]
        exact ⟨_, List.append_assoc _ _ _⟩

end Settle

/-! ## Whole streams -/

section Streams

variable (P : Platform) (previewCap : Nat) (responseToHead responseToConnect : Bool)

/-- Reading chunks in one state, the decoder comes to another state with part of a chunk and the
chunks after it ahead. -/
inductive Http1State.Reads : Http1State → List Bytes → Http1State → List Bytes → Prop
  | here {state chunks} : Reads state chunks state chunks
  | next {state middle final chunk left items chunks ahead}
      (goes : state.turn P previewCap responseToHead responseToConnect chunk =
        .next middle left items) :
      Reads middle (left :: chunks) final ahead → Reads state (chunk :: chunks) final ahead
  | returns {state middle final chunk left items second chunks ahead}
      (stops : state.turn P previewCap responseToHead responseToConnect chunk =
        .stop middle left items) :
      Reads middle ((left ++ second) :: chunks) final ahead →
      Reads state (chunk :: second :: chunks) final ahead

/-- The next element is longer than its limit. -/
def Http1State.Oversized (state : Http1State) (stream : Bytes) : Prop :=
  ∃ terminator limit at_, state.limit? = some (terminator, limit) ∧
    position terminator stream = some at_ ∧ limit < (state.element stream at_).length

variable {P previewCap responseToHead responseToConnect} {state final : Http1State}
  {chunks ahead : List Bytes}

end Streams

/-- The decoder reports invalid framing at the next element. -/
def Http1State.Refused (P : Platform) (previewCap : Nat) (responseToHead responseToConnect : Bool)
    (state : Http1State) (chunks : List Bytes) : Prop :=
  ∃ reason more,
    state.settle P previewCap responseToHead responseToConnect [] chunks =
        some (.stop .head [] [.invalid reason]) ∧
      (Http1Decoder.mk state previewCap).feedChunks P responseToHead responseToConnect [] chunks =
        .invalid reason :: more

/-- A call ends inside the next element beyond its limit. -/
def Http1State.Cut (state : Http1State) (chunks : List Bytes) : Prop :=
  ∃ terminator limit, state.limit? = some (terminator, limit) ∧ CutBeyond terminator limit [] chunks

theorem Http1State.refused_iff {P : Platform} {previewCap : Nat}
    {responseToHead responseToConnect : Bool} {state : Http1State} {chunks : List Bytes}
    {terminator : Bytes} {limit at_ : Nat} (reads : state.limit? = some (terminator, limit))
    (found : position terminator chunks.flatten = some at_) :
    state.Refused P previewCap responseToHead responseToConnect chunks ↔
      state.Cut chunks ∨ state.malformed P responseToHead responseToConnect
        (state.element chunks.flatten at_) = true := by
  have missing : position terminator [] = none := by cases terminator <;> rfl
  have cut : state.Cut chunks ↔ CutBeyond terminator limit [] chunks := by
    simp [Cut, reads]
  rw [cut, ← List.nil_append chunks.flatten,
    ← settle_refuses_iff reads missing (Nat.zero_le _) (by simpa using found)]
  constructor
  · rintro ⟨reason, more, settles, -⟩
    exact ⟨_, settles, reason, rfl⟩
  · rintro ⟨taken, settles, reason, rfl⟩
    obtain ⟨more, items⟩ := feedChunks_settle reads settles
    exact ⟨reason, more, settles, items⟩

/-- Every element of a stream that is longer than its limit is refused exactly if, in each of them,
a call ends beyond the limit and before the terminator, or it cannot be parsed anyway. -/
theorem Http1Decoder.limits_hold_iff (P : Platform) (previewCap : Nat)
    (responseToHead responseToConnect : Bool) (chunks : List Bytes) :
    (∀ state ahead,
        Http1State.Reads P previewCap responseToHead responseToConnect .head chunks state ahead →
        state.Oversized ahead.flatten →
        state.Refused P previewCap responseToHead responseToConnect ahead) ↔
      ∀ state ahead,
        Http1State.Reads P previewCap responseToHead responseToConnect .head chunks state ahead →
        ∀ terminator limit at_, state.limit? = some (terminator, limit) →
        position terminator ahead.flatten = some at_ →
        limit < (state.element ahead.flatten at_).length →
        state.Cut ahead ∨ state.malformed P responseToHead responseToConnect
          (state.element ahead.flatten at_) = true := by
  constructor
  · intro holds state ahead comes terminator limit at_ reads found long
    exact (Http1State.refused_iff reads found).mp
      (holds state ahead comes ⟨terminator, limit, at_, reads, found, long⟩)
  · rintro holds state ahead comes ⟨terminator, limit, at_, reads, found, long⟩
    exact (Http1State.refused_iff reads found).mpr
      (holds state ahead comes terminator limit at_ reads found long)

/-- A chunk-size line with a long extension. -/
def longLine : Bytes := bytes "1;" ++ List.replicate maxChunkLine 120

def longLineRequest : Bytes :=
  bytes "POST / HTTP/1.1\r\nTransfer-Encoding: chunked\r\n\r\n" ++ longLine ++
    bytes "\r\na\r\n0\r\n\r\n"

/-- In one piece, a request is decoded although its chunk-size line is longer than the limit. -/
theorem Http1Decoder.long_chunk_line_accepted :
    maxChunkLine < longLine.length ∧
      ((Http1Decoder.new 8192).feedChunks asciiPlatform false false [] [longLineRequest]).map
        Http1Item.isInvalid = [false] := by
  decide +kernel

end ApiSensor
