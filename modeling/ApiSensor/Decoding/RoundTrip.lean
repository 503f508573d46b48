import ApiSensor.Decoding.Wire

/-!
# Decoding inverts encoding

A fresh decoder that is fed any sequence of well-formed messages consumes all of it and returns the
messages one by one, with the body cut at the preview cap.  It does so exactly if whitespace of
Unicode does not stand at the ends of field values, chunk sizes are written with up to sixteen
digits, and chunk extensions are UTF-8.
-/

namespace ApiSensor

open Library

/-! ## Chunk-size lines -/

/-- A chunk-size line that the decoder reads. -/
def ChunkLine.readable (line : ChunkLine) : Bool :=
  line.digits.length ≤ 16 && line.extension.all fun ext => (fromUtf8 ext.2).isSome

namespace ChunkLine

variable {line : ChunkLine} {size : Nat}

section

variable (wellFormed : line.WellFormed size)
include wellFormed

theorem return_not_mem_content : 13 ∉ line.content := by
  have digits : '\r' ∉ line.digits := fun member =>
    (ne_of_digit? ((digit?_of_digits? wellFormed.digits).2 _ member)).2.2.2.2.1 rfl
  unfold content
  cases extension : line.extension with
  | none => simpa using not_mem_utf8 digits
  | some ext =>
    obtain ⟨blank, free, -⟩ := wellFormed.extension ext extension
    have space : '\r' ∉ ext.1 ++ [';'] := by
      rw [List.mem_append]
      rintro (member | member)
      · exact absurd (blank _ member) (by decide)
      · exact absurd member (by decide)
    simp only [List.mem_append, not_or]
    exact ⟨not_mem_utf8 digits, not_mem_utf8 space, free⟩

theorem strLen_digits :
    strLen line.digits = line.digits.length := by
  have plain := fun c member => ne_of_digit? ((digit?_of_digits? wellFormed.digits).2 c member)
  have one : line.digits.map Char.utf8Size = line.digits.map fun _ => 1 :=
    List.map_congr_left fun c member => (plain c member).2.2.2.2.2
  simp [strLen, one]

/-- The text in front of the first semicolon. -/
theorem hex_content :
    trim ((split ';' ((fromUtf8 line.content).getD [])).headD []) =
      if line.extension.all fun ext => (fromUtf8 ext.2).isSome then line.digits else [] := by
  have plain := fun c member => ne_of_digit? ((digit?_of_digits? wellFormed.digits).2 c member)
  have bare : trim line.digits = line.digits := trim_of_forall fun c member => (plain c member).1
  have free : ';' ∉ line.digits := fun member => (plain _ member).2.1 rfl
  unfold content
  cases extension : line.extension with
  | none =>
    rw [fromUtf8_utf8_append]
    have text : ((fromUtf8 []).map (line.digits ++ ·)).getD [] = line.digits := by
      exact List.append_nil _
    rw [text, split_eq_singleton free]
    simpa using bare
  | some ext =>
    obtain ⟨space, more⟩ := ext
    obtain ⟨blank, -⟩ := wellFormed.extension _ extension
    dsimp only at blank ⊢
    rw [← List.append_assoc, ← utf8_append, fromUtf8_utf8_append, Option.all_some]
    cases fromUtf8 more with
    | none => rfl
    | some text =>
      have free' : ';' ∉ line.digits ++ space := by
        rw [List.mem_append]
        rintro (member | member)
        · exact free member
        · exact absurd (blank _ member) (by decide)
      have around : trim ([] ++ line.digits ++ space) = trim line.digits :=
        trim_around _ (by simp) fun c member => isWhitespace_of_isOws (blank c member)
      have headD := headD_split free' text
      simp only [Option.map_some, Option.getD_some, Option.isSome_some, if_true]
      rw [← List.append_assoc, List.append_assoc, List.singleton_append, headD]
      exact around.trans bare

theorem chunkSize?_content (fits : size < 2 ^ 64) :
    chunkSize? line.content = if line.readable then some size else none := by
  have parsed := parseU64_of_digits? wellFormed.digits fits
  have nonempty := (digit?_of_digits? wellFormed.digits).1
  unfold chunkSize? readable
  dsimp only
  rw [hex_content wellFormed]
  cases line.extension.all fun ext => (fromUtf8 ext.2).isSome with
  | false => simp
  | true =>
    simp only [if_true, Bool.and_true, parsed, strLen_digits wellFormed, Option.filter_some,
      decide_eq_true_eq]
    simp [nonempty]

end

end ChunkLine

/-! ## Bodies -/

theorem Http1Message.preview_nil (previewCap : Nat) (m : Http1Message)
    (counted : m.bodyTotal < 2 ^ 64) : m.preview previewCap [] = m := by
  have total : min (m.bodyTotal + 0) (2 ^ 64 - 1) = m.bodyTotal :=
    Nat.min_eq_left (Nat.le_sub_one_of_lt counted)
  have msg : m.msg.appendBody [] = m.msg := by
    cases m.msg <;> simp [HttpMessage.appendBody]
  simp only [preview, List.take_nil, List.length_nil, msg, total, Nat.not_lt_zero, decide_false,
    Bool.or_false]

theorem Http1Message.bodyTotal_preview_lt (previewCap : Nat) (m : Http1Message) (more : Bytes) :
    (m.preview previewCap more).bodyTotal < 2 ^ 64 :=
  Nat.lt_of_le_of_lt (Nat.min_le_right _ _) (by decide)

/-- Join the fields of a trailer section. -/
def Http1Message.addTrailers (P : Platform) (m : Http1Message) (trailers : List Field) :
    Http1Message :=
  trailers.foldl (fun m trailer => m.addTrailer P (utf8 trailer.line)) m

section Bodies

variable {P : Platform} {previewCap : Nat} {pending : Http1Message} {final : Http1State}
  {rest left : Bytes} {items : List Http1Item}

/-- What the chunk-size line says is done. -/
theorem turn_chunkSize {line : ChunkLine} {size : Nat} (wellFormed : line.WellFormed size)
    (fits : size < 2 ^ 64) (readable : line.readable = true) (rest : Bytes) :
    (Http1State.body pending .chunkSize).parserTurn P previewCap false false
        (line.content ++ utf8 crlf ++ rest) =
      .next (.body pending (if size = 0 then .trailers else .chunkData size)) rest [] := by
  have found := position_line (ChunkLine.return_not_mem_content wellFormed) rest
  have lineOf : (line.content ++ utf8 crlf ++ rest).take line.content.length = line.content := by
    rw [List.append_assoc, List.take_left]
  have restOf : (line.content ++ utf8 crlf ++ rest).drop (line.content.length + 2) = rest :=
    List.drop_left' (by rw [List.length_append, utf8_crlf]; rfl)
  have announced := ChunkLine.chunkSize?_content wellFormed fits
  rw [if_pos readable] at announced
  unfold Http1State.parserTurn
  simp only [Http1State.turn, found, lineOf, restOf, announced]
  cases size <;> rfl

/-- A chunk-size line that is not understood ends decoding. -/
theorem turn_unreadable {line : ChunkLine} {size : Nat} (wellFormed : line.WellFormed size)
    (fits : size < 2 ^ 64) (unreadable : ¬ line.readable = true) (rest : Bytes) :
    (Http1State.body pending .chunkSize).parserTurn P previewCap false false
        (line.content ++ utf8 crlf ++ rest) =
      .stop .head [] [.invalid (str "bad chunk size")] := by
  have found := position_line (ChunkLine.return_not_mem_content wellFormed) rest
  have lineOf : (line.content ++ utf8 crlf ++ rest).take line.content.length = line.content := by
    rw [List.append_assoc, List.take_left]
  have announced := ChunkLine.chunkSize?_content wellFormed fits
  rw [if_neg unreadable] at announced
  unfold Http1State.parserTurn
  simp only [Http1State.turn, found, lineOf, announced]
  rfl

theorem turn_chunkData (data rest : Bytes) :
    (Http1State.body pending (.chunkData data.length)).parserTurn P previewCap false false
        (data ++ rest) =
      .next (.body (pending.preview previewCap data) .chunkCrlf) rest [] := by
  unfold Http1State.parserTurn
  simp [Http1State.turn]

theorem turn_fixed (data rest : Bytes) :
    (Http1State.body pending (.fixed data.length)).parserTurn P previewCap false false
      (data ++ rest) = .next .head rest [.message (pending.preview previewCap data)] := by
  unfold Http1State.parserTurn
  simp [Http1State.turn]

theorem turn_chunkCrlf (rest : Bytes) :
    (Http1State.body pending .chunkCrlf).parserTurn P previewCap false false
      (utf8 crlf ++ rest) = .next (.body pending .chunkSize) rest [] := by
  have line : bytes "\r\n" = [13, 10] := by decide
  have long : ¬ rest.length + 1 + 1 < 2 := by omega
  unfold Http1State.parserTurn
  simp [Http1State.turn, utf8_crlf, line, long]

theorem turn_trailer {trailer : Field} (wellFormed : trailer.WellFormed) (rest : Bytes) :
    (Http1State.body pending .trailers).parserTurn P previewCap false false
        (utf8 trailer.line ++ utf8 crlf ++ rest) =
      .next (.body (pending.addTrailer P (utf8 trailer.line)) .trailers) rest [] := by
  have found := position_line (not_mem_utf8 (Field.return_not_mem_line wellFormed)) rest
  obtain ⟨length, nonempty⟩ := Nat.exists_eq_succ_of_ne_zero
    (mt List.eq_nil_of_length_eq_zero (utf8_ne_nil trailer.line_ne_nil))
  have lineOf : (utf8 trailer.line ++ utf8 crlf ++ rest).take (length + 1) = utf8 trailer.line := by
    rw [List.append_assoc]
    exact List.take_left' nonempty
  have restOf : (utf8 trailer.line ++ utf8 crlf ++ rest).drop (length + 1 + 2) = rest :=
    List.drop_left' (by rw [List.length_append, nonempty, utf8_crlf]; rfl)
  rw [nonempty] at found
  unfold Http1State.parserTurn
  simp only [Http1State.turn, found, lineOf, restOf]

theorem turn_trailers_end (rest : Bytes) :
    (Http1State.body pending .trailers).parserTurn P previewCap false false
      (utf8 crlf ++ rest) = .next .head rest [.message pending] := by
  have found : position (bytes "\r\n") (utf8 crlf ++ rest) = some 0 :=
    position_line List.not_mem_nil rest
  have restOf : (utf8 crlf ++ rest).drop 2 = rest := by
    rw [utf8_crlf]
    rfl
  unfold Http1State.parserTurn
  simp only [Http1State.turn, found, restOf]

/-- A chunk is added to the body. -/
theorem drains_chunk {chunk : Chunk} (nonempty : chunk.data ≠ [])
    (wellFormed : chunk.line.WellFormed chunk.data.length) (fits : chunk.data.length < 2 ^ 64)
    (readable : chunk.line.readable = true)
    (later : Drains (Http1State.parserTurn P previewCap false false)
      (.body (pending.preview previewCap chunk.data) .chunkSize) rest final left items) :
    Drains (Http1State.parserTurn P previewCap false false) (.body pending .chunkSize)
      (chunk.encode ++ rest) final left items := by
  have input : chunk.encode ++ rest =
      chunk.line.content ++ utf8 crlf ++ (chunk.data ++ (utf8 crlf ++ rest)) := by
    simp only [Chunk.encode, List.append_assoc]
  have some_ : chunk.data.length ≠ 0 := mt List.eq_nil_of_length_eq_zero nonempty
  rw [input]
  refine .silent (turn_chunkSize wellFormed fits readable _) ?_
  rw [if_neg some_]
  exact .silent (turn_chunkData _ _) (.silent (turn_chunkCrlf _) later)

/-- Chunks up to the last one, whose size is zero. -/
theorem drains_chunks {chunks : List Chunk} {last : ChunkLine}
    (counted : pending.bodyTotal < 2 ^ 64)
    (wellFormed : ∀ chunk ∈ chunks, chunk.data ≠ [] ∧ chunk.line.WellFormed chunk.data.length)
    (ends : last.WellFormed 0) (fits : (chunks.flatMap Chunk.data).length < 2 ^ 64)
    (readable : ∀ line ∈ chunks.map Chunk.line ++ [last], line.readable = true)
    (later : Drains (Http1State.parserTurn P previewCap false false)
      (.body (pending.preview previewCap (chunks.flatMap Chunk.data)) .trailers) rest final left
      items) :
    Drains (Http1State.parserTurn P previewCap false false) (.body pending .chunkSize)
      (chunks.flatMap Chunk.encode ++ (last.content ++ utf8 crlf ++ rest)) final left items := by
  induction chunks generalizing pending with
  | nil =>
    rw [List.flatMap_nil, Http1Message.preview_nil _ _ counted] at later
    exact .silent (turn_chunkSize ends (by decide) (readable last (by simp)) rest) later
  | cons chunk chunks induction =>
    rw [List.forall_mem_cons] at wellFormed
    rw [List.flatMap_cons, List.length_append] at fits
    rw [List.flatMap_cons, Http1Message.preview_append] at later
    rw [List.map_cons, List.cons_append, List.forall_mem_cons] at readable
    rw [List.flatMap_cons, List.append_assoc]
    exact drains_chunk wellFormed.1.1 wellFormed.1.2 (by omega) readable.1
      (induction (Http1Message.bodyTotal_preview_lt _ _ _) wellFormed.2 (by omega) readable.2
        later)

/-- Decoding ends at a chunk-size line that is not understood. -/
theorem drains_unreadable {chunks : List Chunk} {last : ChunkLine}
    (wellFormed : ∀ chunk ∈ chunks, chunk.data ≠ [] ∧ chunk.line.WellFormed chunk.data.length)
    (ends : last.WellFormed 0) (fits : (chunks.flatMap Chunk.data).length < 2 ^ 64)
    (unreadable : ¬ ∀ line ∈ chunks.map Chunk.line ++ [last], line.readable = true)
    (rest : Bytes) :
    Drains (Http1State.parserTurn P previewCap false false) (.body pending .chunkSize)
      (chunks.flatMap Chunk.encode ++ (last.content ++ utf8 crlf ++ rest)) .head []
      [.invalid (str "bad chunk size")] := by
  induction chunks generalizing pending with
  | nil => exact .stop (turn_unreadable ends (by decide) (by simpa using unreadable) rest)
  | cons chunk chunks induction =>
    rw [List.forall_mem_cons] at wellFormed
    rw [List.flatMap_cons, List.length_append] at fits
    rw [List.map_cons, List.cons_append, List.forall_mem_cons, not_and] at unreadable
    rw [List.flatMap_cons, List.append_assoc]
    by_cases readable : chunk.line.readable = true
    · exact drains_chunk wellFormed.1.1 wellFormed.1.2 (by omega) readable
        (induction wellFormed.2 (by omega) (unreadable readable))
    · unfold Chunk.encode
      rw [List.append_assoc, List.append_assoc]
      exact .stop (turn_unreadable wellFormed.1.2 (by omega) readable _)

/-- Trailer fields up to the empty line. -/
theorem drains_trailers {trailers : List Field}
    (wellFormed : ∀ trailer ∈ trailers, trailer.WellFormed)
    (later : Drains (Http1State.parserTurn P previewCap false false) .head rest final left items) :
    Drains (Http1State.parserTurn P previewCap false false) (.body pending .trailers)
      (trailers.flatMap (fun trailer => utf8 trailer.line ++ utf8 crlf) ++ (utf8 crlf ++ rest))
      final left (.message (pending.addTrailers P trailers) :: items) := by
  induction trailers generalizing pending with
  | nil => exact .next (turn_trailers_end rest) later
  | cons trailer trailers induction =>
    rw [List.forall_mem_cons] at wellFormed
    rw [List.flatMap_cons, List.append_assoc]
    exact .silent (turn_trailer wellFormed.1 _) (induction wellFormed.2)

end Bodies

theorem WireBody.encode_chunked (chunks : List Chunk) (last : ChunkLine) (trailers : List Field)
    (rest : Bytes) :
    (WireBody.chunked chunks last trailers).encode ++ rest =
      chunks.flatMap Chunk.encode ++ (last.content ++ utf8 crlf ++
        (trailers.flatMap (fun trailer => utf8 trailer.line ++ utf8 crlf) ++
          (utf8 crlf ++ rest))) := by
  simp only [encode, List.append_assoc]

/-! ## Messages -/

namespace WireMessage

variable {P : Platform} {previewCap : Nat} {m : WireMessage} {final : Http1State}
  {rest left : Bytes} {items : List Http1Item}

/-- What the decoder makes of a message. -/
def decoded (P : Platform) (previewCap : Nat) (m : WireMessage) : Http1Message :=
  (Http1Message.preview previewCap ⟨m.parsed P, 0, false, false⟩ m.body.data).addTrailers P
    m.body.trailers

def chunkLines (m : WireMessage) : List ChunkLine :=
  match m.body with
  | .chunked chunks last _ => chunks.map Chunk.line ++ [last]
  | _ => []

/-- The header block is parsed where it ends. -/
theorem turn_encode (wellFormed : m.WellFormed P) (fits : m.body.data.length < 2 ^ 64)
    (rest : Bytes) :
    Http1State.head.turn P previewCap false false (m.encode ++ rest) =
      turnAfterHead previewCap (m.parsed P) (m.body.encode ++ rest) m.body.framing := by
  have blockBytes : utf8 m.head = (m.lines.map utf8).flatMap (· ++ utf8 crlf) ++ utf8 crlf := by
    rw [head, utf8_append, utf8_flatMap]
  have plain : ∀ line ∈ m.lines.map utf8, line ≠ [] ∧ 13 ∉ line := by
    intro line member
    obtain ⟨text, listed, rfl⟩ := List.mem_map.mp member
    obtain ⟨nonempty, free⟩ := lines_plain wellFormed text listed
    exact ⟨utf8_ne_nil nonempty, not_mem_utf8 free⟩
  obtain ⟨end_, found, size⟩ := position_block (by simp [lines]) plain (m.body.encode ++ rest)
  rw [← List.append_assoc, ← blockBytes] at found
  rw [← blockBytes] at size
  have parsed : parseHead P ((utf8 m.head ++ (m.body.encode ++ rest)).take (end_ + 4)) false false =
      .ok (m.parsed P, m.body.framing) := by
    rw [List.take_left' size.symm]
    exact parseHead_head wellFormed fits
  rw [encode, List.append_assoc, Http1State.turn_head_ok found parsed, List.drop_left' size.symm]

/-- A message is decoded, and decoding goes on behind it. -/
theorem drains_encode (wellFormed : m.WellFormed P) (fits : m.body.data.length < 2 ^ 64)
    (readable : ∀ line ∈ m.chunkLines, line.readable = true)
    (later : Drains (Http1State.parserTurn P previewCap false false) .head rest final left items) :
    Drains (Http1State.parserTurn P previewCap false false) .head (m.encode ++ rest) final left
      (.message (m.decoded P previewCap) :: items) := by
  have taken : Http1State.head.turn P previewCap false false (m.encode ++ rest) = _ :=
    turn_encode wellFormed fits rest
  have chunks := wellFormed.chunks
  have trailers := wellFormed.trailers
  have bare : Http1Message.preview previewCap ⟨m.parsed P, 0, false, false⟩ [] = _ :=
    Http1Message.preview_nil _ _ (Nat.two_pow_pos 64)
  unfold decoded
  unfold chunkLines at readable
  cases body : m.body with
  | absent =>
    rw [body] at taken
    simp only [WireBody.data, bare]
    exact .next (Http1State.parserTurn_eq_next.mpr taken) later
  | sized data =>
    rw [body] at taken
    cases data with
    | nil =>
      simp only [WireBody.data, bare]
      exact .next (Http1State.parserTurn_eq_next.mpr taken) later
    | cons byte data =>
      exact .silent (Http1State.parserTurn_eq_next.mpr taken) (.next (turn_fixed _ _) later)
  | chunked sent last added =>
    rw [body] at taken readable fits trailers
    obtain ⟨sentWellFormed, ends⟩ := chunks sent last added body
    refine .silent (Http1State.parserTurn_eq_next.mpr taken) ?_
    rw [WireBody.encode_chunked]
    exact drains_chunks (Nat.two_pow_pos 64) sentWellFormed ends fits readable
      (drains_trailers trailers later)

/-- Decoding ends inside a message with a chunk-size line that is not understood. -/
theorem drains_encode_unreadable (wellFormed : m.WellFormed P)
    (fits : m.body.data.length < 2 ^ 64)
    (unreadable : ¬ ∀ line ∈ m.chunkLines, line.readable = true) (rest : Bytes) :
    Drains (Http1State.parserTurn P previewCap false false) .head (m.encode ++ rest) .head []
      [.invalid (str "bad chunk size")] := by
  have taken : Http1State.head.turn P previewCap false false (m.encode ++ rest) = _ :=
    turn_encode wellFormed fits rest
  unfold chunkLines at unreadable
  cases body : m.body with
  | absent => simp [body] at unreadable
  | sized data => simp [body] at unreadable
  | chunked sent last added =>
    obtain ⟨sentWellFormed, ends⟩ := wellFormed.chunks sent last added body
    rw [body] at taken unreadable fits
    refine .silent (Http1State.parserTurn_eq_next.mpr taken) ?_
    rw [WireBody.encode_chunked]
    exact drains_unreadable sentWellFormed ends fits unreadable _

end WireMessage

/-! ## Headers -/

def HttpMessage.headers : HttpMessage → Headers
  | .request req => req.headers
  | .response resp => resp.headers

/-- A trailer field is stored unless its name is there already. -/
def joinTrailer (P : Platform) (headers : Headers) (trailer : Field) : Headers :=
  let key := P.toLowercase trailer.name
  if headers.contains key then headers else headers.insert key (trim trailer.value)

section Headers

variable {P : Platform}

theorem Http1Message.addTrailer_line {trailer : Field} (wellFormed : trailer.WellFormed)
    (m : Http1Message) : m.addTrailer P (utf8 trailer.line) =
      { m with msg := m.msg.mapHeaders fun headers => joinTrailer P headers trailer } := by
  unfold addTrailer
  rw [fromUtf8_utf8, Option.bind_some, Field.splitOnce_line wellFormed]
  dsimp only
  rw [Field.trim_name wellFormed, Field.trim_value wellFormed]
  rfl

theorem Http1Message.addTrailers_eq {trailers : List Field}
    (wellFormed : ∀ trailer ∈ trailers, trailer.WellFormed) (m : Http1Message) :
    m.addTrailers P trailers =
      { m with msg := m.msg.mapHeaders fun headers => trailers.foldl (joinTrailer P) headers } := by
  unfold addTrailers
  induction trailers generalizing m with
  | nil =>
    obtain ⟨msg, _, _, _⟩ := m
    cases msg <;> rfl
  | cons trailer trailers induction =>
    rw [List.forall_mem_cons] at wellFormed
    rw [List.foldl_cons, addTrailer_line wellFormed.1, induction wellFormed.2]
    obtain ⟨msg, _, _, _⟩ := m
    cases msg <;> rfl

theorem get?_joinTrailer (headers : Headers) (trailer : Field) (key : Str) :
    (joinTrailer P headers trailer).get? key = (headers.get? key).or
      (if P.toLowercase trailer.name = key then some (trim trailer.value) else none) := by
  unfold joinTrailer
  dsimp only
  by_cases same : P.toLowercase trailer.name = key
  · subst same
    cases stored : headers.get? (P.toLowercase trailer.name) with
    | none => simp [Dict.contains, stored]
    | some value => simp [Dict.contains, stored]
  · rw [if_neg same, Option.or_none]
    split_ifs
    · rfl
    · exact Dict.get?_insert_of_ne _ (Ne.symm same) _

/-- The first trailer field of a name counts. -/
theorem get?_foldl_joinTrailer (trailers : List Field) (headers : Headers) (key : Str) :
    (trailers.foldl (joinTrailer P) headers).get? key =
      (headers.get? key).or ((valuesOf P key trailers).head?.map trim) := by
  induction trailers generalizing headers with
  | nil => exact Option.or_none.symm
  | cons trailer trailers induction =>
    rw [List.foldl_cons, induction, get?_joinTrailer, Option.or_assoc]
    by_cases same : P.toLowercase trailer.name = key <;> simp [valuesOf, same]

end Headers

/-! ## Combined values -/

theorem foldl_extendValue_some (key text : Str) (values : List Str) :
    values.foldl (extendValue key) (some text) =
      some (text ++ values.flatMap (separator key ++ ·)) := by
  induction values generalizing text with
  | nil => simp
  | cons value values induction => simp [extendValue, induction]

/-- Trimming shortens what it changes. -/
theorem length_flatMap_trim (between : Str) (values : List Str) :
    ((values.map trim).flatMap (between ++ ·)).length ≤ (values.flatMap (between ++ ·)).length ∧
      (((values.map trim).flatMap (between ++ ·)).length =
        (values.flatMap (between ++ ·)).length → ∀ value ∈ values, trim value = value) := by
  induction values with
  | nil => simp
  | cons value values induction =>
    obtain ⟨atMost, onlyIf⟩ := induction
    have shorter := (trim_sublist value).length_le
    simp only [List.map_cons, List.flatMap_cons, List.length_append, List.forall_mem_cons]
    refine ⟨by omega, fun same => ⟨?_, onlyIf (by omega)⟩⟩
    exact (trim_sublist value).eq_of_length (by omega)

/-- The combined value shows every value that was trimmed. -/
theorem trim_of_combined {key : Str} {values : List Str} {other other' : Option Str}
    (same : ((values.map trim).foldl (extendValue key) none).or other =
      (values.foldl (extendValue key) none).or other') : ∀ value ∈ values, trim value = value := by
  cases values with
  | nil => simp
  | cons value values =>
    simp only [List.map_cons, List.foldl_cons, extendValue, foldl_extendValue_some,
      Option.some_or, Option.some.injEq] at same
    obtain ⟨atMost, onlyIf⟩ := length_flatMap_trim (separator key) values
    have shorter := (trim_sublist value).length_le
    have lengths := congrArg List.length same
    simp only [List.length_append] at lengths
    refine List.forall_mem_cons.mpr ⟨?_, onlyIf (by omega)⟩
    exact (trim_sublist value).eq_of_length (by omega)

theorem map_trim_eq_self {values : List Str} (trimmed : ∀ value ∈ values, trim value = value) :
    values.map trim = values :=
  (List.map_congr_left trimmed).trans (List.map_id _)

/-! ## What was sent -/

namespace WireMessage

variable {P : Platform} {previewCap : Nat} {m : WireMessage}

/-- The value that belongs under a name: header fields combined, or else the first trailer field. -/
def storedValue (P : Platform) (m : WireMessage) (key : Str) : Option Str :=
  (combinedValue P key m.fields).or (valuesOf P key m.body.trailers).head?

/-- A decoded message starts as the one that was sent. -/
def StartsAs (P : Platform) (m : WireMessage) (msg : HttpMessage) : Prop :=
  match m.start, msg with
  | .request method target, .request req =>
    req.method = method ∧ req.path = target ∧ req.host = combinedValue P (str "host") m.fields
  | .response status _, .response resp => resp.statusCode = status
  | _, _ => False

/-- A decoded message is the one that was sent, with its body cut at the preview cap. -/
structure DecodedAs (P : Platform) (previewCap : Nat) (m : WireMessage) (result : Http1Message) :
    Prop where
  start : m.StartsAs P result.msg
  headers : ∀ key, result.msg.headers.get? key = m.storedValue P key
  body : result.msg.body = m.body.data.take previewCap
  bodyTotal : result.bodyTotal = m.body.data.length
  bodyTruncated : result.bodyTruncated = decide (previewCap < m.body.data.length)
  complete : result.isPartial = false

/-- What the decoder understands: no whitespace of Unicode at the ends of the values that become
headers, and readable chunk-size lines. -/
structure Readable (P : Platform) (m : WireMessage) : Prop where
  fields : ∀ field ∈ m.fields, trim field.value = field.value
  trailers : ∀ key value, valuesOf P key m.fields = [] →
    (valuesOf P key m.body.trailers).head? = some value → trim value = value
  lines : ∀ line ∈ m.chunkLines, line.readable = true

theorem decoded_eq (wellFormed : m.WellFormed P) (fits : m.body.data.length < 2 ^ 64) :
    m.decoded P previewCap =
      ⟨((m.parsed P).appendBody (m.body.data.take previewCap)).mapHeaders fun headers =>
          m.body.trailers.foldl (joinTrailer P) headers,
        m.body.data.length, decide (previewCap < m.body.data.length), false⟩ := by
  have empty : (m.parsed P).body = [] := by
    unfold parsed
    cases m.start <;> rfl
  have total : min m.body.data.length (2 ^ 64 - 1) = m.body.data.length :=
    Nat.min_eq_left (Nat.le_sub_one_of_lt fits)
  unfold decoded
  rw [Http1Message.addTrailers_eq wellFormed.trailers]
  simp only [Http1Message.preview, empty, List.length_nil, Nat.sub_zero, Nat.zero_add, total,
    Bool.false_or]

theorem get?_decoded (wellFormed : m.WellFormed P) (fits : m.body.data.length < 2 ^ 64)
    (key : Str) :
    (m.decoded P previewCap).msg.headers.get? key =
      (((valuesOf P key m.fields).map trim).foldl (extendValue key) none).or
        ((valuesOf P key m.body.trailers).head?.map trim) := by
  have headers : (m.decoded P previewCap).msg.headers =
      m.body.trailers.foldl (joinTrailer P) (parsedHeaders P m.fields) := by
    rw [decoded_eq wellFormed fits]
    unfold parsed
    cases m.start <;> rfl
  rw [headers, get?_foldl_joinTrailer, get?_parsedHeaders wellFormed.fields]

theorem mem_valuesOf {field : Field} {fields : List Field} (member : field ∈ fields) :
    field.value ∈ valuesOf P (P.toLowercase field.name) fields :=
  List.mem_map_of_mem (List.mem_filter.mpr ⟨member, decide_eq_true rfl⟩)

theorem trim_of_mem_valuesOf {fields : List Field} {key value : Str}
    (trimmed : ∀ field ∈ fields, trim field.value = field.value)
    (member : value ∈ valuesOf P key fields) : trim value = value := by
  obtain ⟨field, kept, rfl⟩ := List.mem_map.mp member
  exact trimmed field (List.mem_filter.mp kept).1

/-- A decoded message is what was sent exactly if trimming changed no value that became a header. -/
theorem decodedAs_iff (wellFormed : m.WellFormed P) (fits : m.body.data.length < 2 ^ 64) :
    m.DecodedAs P previewCap (m.decoded P previewCap) ↔
      (∀ field ∈ m.fields, trim field.value = field.value) ∧
        ∀ key value, valuesOf P key m.fields = [] →
          (valuesOf P key m.body.trailers).head? = some value → trim value = value := by
  constructor
  · intro decodedAs
    have lookups := decodedAs.headers
    constructor
    · intro field member
      have listed := mem_valuesOf (P := P) member
      have same := lookups (P.toLowercase field.name)
      rw [get?_decoded wellFormed fits, storedValue, combinedValue] at same
      exact trim_of_combined same _ listed
    · intro key value none first
      have same := lookups key
      rw [get?_decoded wellFormed fits, storedValue, combinedValue, none, first] at same
      exact Option.some.inj same
  · rintro ⟨fields, trailers⟩
    have values : ∀ key, (valuesOf P key m.fields).map trim = valuesOf P key m.fields :=
      fun key => map_trim_eq_self fun value member => trim_of_mem_valuesOf fields member
    have whole : m.decoded P previewCap = _ := decoded_eq wellFormed fits
    refine ⟨?_, ?_, ?_, ?_, ?_, ?_⟩
    · rw [whole]
      unfold StartsAs parsed
      cases m.start with
      | request method target =>
        refine ⟨rfl, rfl, ?_⟩
        refine (get?_parsedHeaders wellFormed.fields (str "host")).trans ?_
        rw [values]
        rfl
      | response status reason => rfl
    · intro key
      rw [get?_decoded wellFormed fits, values, storedValue, combinedValue]
      cases stored : valuesOf P key m.fields with
      | nil =>
        cases first : (valuesOf P key m.body.trailers).head? with
        | none => rfl
        | some value => exact congrArg some (trailers key value stored first)
      | cons value others => simp [extendValue, foldl_extendValue_some]
    · rw [whole]
      unfold parsed
      cases m.start <;> rfl
    · rw [whole]
    · rw [whole]
    · rw [whole]

/-- The messages of a connection, one after the other. -/
def encodeAll (messages : List WireMessage) : Bytes := messages.flatMap encode

theorem length_data_le (m : WireMessage) : m.body.data.length ≤ m.encode.length := by
  have inBody : m.body.data.length ≤ m.body.encode.length := by
    cases m.body with
    | absent => exact Nat.le_refl _
    | sized data => exact Nat.le_refl _
    | chunked chunks last trailers =>
      have inChunks : (chunks.flatMap Chunk.data).length ≤
          (chunks.flatMap Chunk.encode).length := by
        induction chunks with
        | nil => exact Nat.le_refl _
        | cons chunk chunks induction =>
          simp only [List.flatMap_cons, List.length_append, Chunk.encode]
          omega
      simp only [WireBody.data, WireBody.encode, List.length_append]
      omega
  rw [encode, List.length_append]
  omega

/-- Readable messages are decoded one by one; decoding ends inside the first other one. -/
theorem drains_encodeAll {messages : List WireMessage}
    (wellFormed : ∀ m ∈ messages, m.WellFormed P)
    (fits : ∀ m ∈ messages, m.body.data.length < 2 ^ 64) :
    ∃ items, Drains (Http1State.parserTurn P previewCap false false) .head (encodeAll messages)
        .head [] items ∧
      ((∀ m ∈ messages, ∀ line ∈ m.chunkLines, line.readable = true) ∧
          items = messages.map (fun m => .message (m.decoded P previewCap)) ∨
        (¬ ∀ m ∈ messages, ∀ line ∈ m.chunkLines, line.readable = true) ∧
          .invalid (str "bad chunk size") ∈ items) := by
  induction messages with
  | nil => exact ⟨[], .stop rfl, .inl ⟨by simp, rfl⟩⟩
  | cons m messages induction =>
    rw [List.forall_mem_cons] at wellFormed fits
    obtain ⟨items, drains, result⟩ := induction wellFormed.2 fits.2
    simp only [List.forall_mem_cons]
    by_cases readable : ∀ line ∈ m.chunkLines, line.readable = true
    · refine ⟨_, drains_encode wellFormed.1 fits.1 readable drains, ?_⟩
      rcases result with ⟨others, rfl⟩ | ⟨others, failed⟩
      · exact .inl ⟨⟨readable, others⟩, rfl⟩
      · exact .inr ⟨fun all => others all.2, List.mem_cons_of_mem _ failed⟩
    · exact ⟨_, drains_encode_unreadable wellFormed.1 fits.1 readable _,
        .inr ⟨fun all => readable all.1, List.mem_singleton_self _⟩⟩

/-- A decoded item is the message that was sent. -/
def DecodedItem (P : Platform) (previewCap : Nat) (m : WireMessage) : Http1Item → Prop
  | .message result => m.DecodedAs P previewCap result
  | .invalid _ => False

theorem isInvalid_of_decodedItem {messages : List WireMessage} {items : List Http1Item}
    (decoded : List.Forall₂ (DecodedItem P previewCap) messages items) :
    ∀ item ∈ items, item.isInvalid = false := by
  induction decoded with
  | nil => simp
  | @cons m item messages items this _ induction =>
    refine List.forall_mem_cons.mpr ⟨?_, induction⟩
    cases item with
    | message result => rfl
    | invalid reason => exact this.elim

end WireMessage

open WireMessage in
/-- A fresh decoder that is fed well-formed messages consumes every byte and returns exactly one
item for each of them, which is the message that was sent, if and only if every message is
readable. -/
theorem Http1Decoder.feed_encodeAll_iff {P : Platform} {previewCap : Nat}
    (messages : List WireMessage) (wellFormed : ∀ m ∈ messages, m.WellFormed P)
    (fits : (encodeAll messages).length < 2 ^ 64) :
    (((Http1Decoder.new previewCap).feed P (encodeAll messages) false false).2.1 =
        (encodeAll messages).length ∧
      List.Forall₂ (DecodedItem P previewCap) messages
        ((Http1Decoder.new previewCap).feed P (encodeAll messages) false false).2.2) ↔
      ∀ m ∈ messages, m.Readable P := by
  have each : ∀ m ∈ messages, m.body.data.length < 2 ^ 64 := by
    intro m member
    have inAll : m.encode.length ≤ (encodeAll messages).length :=
      (List.sublist_flatten_of_mem (List.mem_map_of_mem member)).length_le
    have inMessage := m.length_data_le
    omega
  obtain ⟨items, drains, result⟩ := drains_encodeAll (P := P) wellFormed each
  obtain ⟨-, left, produced⟩ := drains.unique (Http1State.drains_drain .head (encodeAll messages))
  have consumed : ((Http1Decoder.new previewCap).feed P (encodeAll messages) false false).2.1 =
      (encodeAll messages).length := by
    refine (congrArg (fun rest : Bytes => (encodeAll messages).length - rest.length) left).trans ?_
    exact Nat.sub_zero _
  have produced' : ((Http1Decoder.new previewCap).feed P (encodeAll messages) false false).2.2 =
      items := produced
  rw [consumed, produced']
  constructor
  · rintro ⟨-, decoded⟩
    rcases result with ⟨lines, rfl⟩ | ⟨-, failed⟩
    · rw [List.forall₂_map_right_iff, List.forall₂_same] at decoded
      intro m member
      obtain ⟨fields, trailers⟩ :=
        (decodedAs_iff (wellFormed m member) (each m member)).mp (decoded m member)
      exact ⟨fields, trailers, lines m member⟩
    · exact absurd (isInvalid_of_decodedItem decoded _ failed) Bool.false_ne_true.symm
  · intro readable
    refine ⟨rfl, ?_⟩
    rcases result with ⟨-, rfl⟩ | ⟨unreadable, -⟩
    · rw [List.forall₂_map_right_iff, List.forall₂_same]
      intro m member
      exact (decodedAs_iff (wellFormed m member) (each m member)).mpr
        ⟨(readable m member).fields, (readable m member).trailers⟩
    · exact absurd (fun m member => (readable m member).lines) unreadable

/-- An upload in two chunks, with an extension and a trailer field, and a response. -/
def uploadAndReply : List WireMessage :=
  [⟨.request (str "POST") (str "/upload"),
      [⟨str "Host", [' '], str "example", []⟩,
        ⟨str "Transfer-Encoding", [' '], str "gzip, Chunked", ['\t']⟩],
      .chunked
        [⟨⟨str "3", none⟩, bytes "abc"⟩,
          ⟨⟨str "0A", some ([' '], bytes "q=1")⟩, bytes "0123456789"⟩]
        ⟨str "0", none⟩ [⟨str "ETag", [], str "t", []⟩]⟩,
    ⟨.response 200 (str "OK"),
      [⟨str "Accept", [' '], str "a", []⟩, ⟨str "accept", [], str "b", []⟩,
        ⟨str "Content-Length", [' '], str "2", []⟩],
      .sized (bytes "ok")⟩]

theorem uploadAndReply_wellFormed : ∀ m ∈ uploadAndReply, m.WellFormed asciiPlatform := by
  have coding : EndsChunked (str "gzip, Chunked") :=
    ⟨str "gzip, ", str "Chunked", by decide, by decide,
      .inr ⟨str "gzip", [' '], by decide, by decide⟩⟩
  unfold uploadAndReply
  rw [List.forall_mem_cons, List.forall_mem_singleton]
  constructor
  · refine ⟨by decide +kernel, by decide +kernel, ?_, ?_, by decide +kernel⟩
    · exact ⟨rfl, by decide +kernel, [], str "gzip, Chunked", by decide +kernel, coding⟩
    · rintro _ _ _ ⟨⟩
      decide +kernel
  · refine ⟨by decide +kernel, by decide +kernel, ?_, by rintro _ _ _ ⟨⟩, by decide +kernel⟩
    exact ⟨rfl, by decide +kernel, str "2", by decide +kernel, by decide +kernel⟩

open WireMessage in
theorem Http1Decoder.feed_encodeAll_upload :
    ((Http1Decoder.new 5).feed asciiPlatform (encodeAll uploadAndReply) false false).2.1 =
        (encodeAll uploadAndReply).length ∧
      List.Forall₂ (DecodedItem asciiPlatform 5) uploadAndReply
        ((Http1Decoder.new 5).feed asciiPlatform (encodeAll uploadAndReply) false false).2.2 := by
  refine (Http1Decoder.feed_encodeAll_iff uploadAndReply uploadAndReply_wellFormed
    (by decide +kernel)).mpr fun m member => ?_
  have trimmed : ∀ m ∈ uploadAndReply, (∀ field ∈ m.fields, trim field.value = field.value) ∧
      (∀ field ∈ m.body.trailers, trim field.value = field.value) ∧
      ∀ line ∈ m.chunkLines, line.readable = true := by decide +kernel
  obtain ⟨fields, trailers, lines⟩ := trimmed m member
  exact ⟨fields, fun _ _ _ first =>
    trim_of_mem_valuesOf trailers (List.mem_of_mem_head? first), lines⟩

/-- A request whose only field value begins with a no-break space. -/
def noBreakSpace : WireMessage :=
  ⟨.request (str "GET") (str "/"), [⟨str "x-note", [' '], ['\u00a0', 'a'], []⟩], .absent⟩

open WireMessage in
/-- The no-break space is lost. -/
theorem Http1Decoder.value_shortened :
    noBreakSpace.WellFormed asciiPlatform ∧
      ¬ List.Forall₂ (DecodedItem asciiPlatform 64) [noBreakSpace]
        ((Http1Decoder.new 64).feed asciiPlatform (encodeAll [noBreakSpace]) false false).2.2 := by
  constructor
  · refine ⟨by decide +kernel, by decide +kernel, ?_, ?_, by decide +kernel⟩
    · exact ⟨by decide +kernel, by decide +kernel⟩
    · rintro _ _ _ ⟨⟩
  · intro decoded
    have only : ((Http1Decoder.new 64).feed asciiPlatform (encodeAll [noBreakSpace]) false
        false).2.2 = [.message (noBreakSpace.decoded asciiPlatform 64)] := by decide +kernel
    rw [only, List.forall₂_cons] at decoded
    have stored := decoded.1.headers (str "x-note")
    revert stored
    decide +kernel

end ApiSensor
