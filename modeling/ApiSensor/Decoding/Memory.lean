import ApiSensor.Decoding.RoundTrip
import ApiSensor.Retained
import Mathlib.Data.Nat.Digits.Lemmas
import Mathlib.Data.Nat.Size
import Mathlib.Algebra.Order.BigOperators.Group.List

/-!
# Memory of an HTTP/1 decoder

A decoder keeps the text and the body preview of the message it has not finished.  The header block
was read from one buffer and the preview is capped.  Trailer fields are stored line by line, and
nothing counts them.
-/

namespace ApiSensor

open Library

/-! ## Sizes of texts -/

@[simp]
theorem strLen_append (first second : Str) :
    strLen (first ++ second) = strLen first + strLen second := by
  simp [strLen]

theorem strLen_le_of_sublist {part text : Str} (within : part.Sublist text) :
    strLen part ≤ strLen text :=
  (within.map Char.utf8Size).sum_le_sum fun _ _ => Nat.zero_le _

theorem strLen_flatten (pieces : List Str) : strLen pieces.flatten = (pieces.map strLen).sum := by
  induction pieces with
  | nil => rfl
  | cons piece pieces induction => simp [induction]

theorem eq_append_of_splitOnce {separator : Char} {text before after : Str}
    (found : splitOnce separator text = some (before, after)) :
    text = before ++ separator :: after := by
  induction text generalizing before with
  | nil => cases found
  | cons c text induction =>
    rw [splitOnce] at found
    split_ifs at found with same
    · cases found
      rw [same]
      rfl
    · obtain ⟨⟨inner, _⟩, rest, whole⟩ := Option.map_eq_some_iff.mp found
      cases whole
      rw [induction rest]
      rfl

theorem flatten_splitCrlf (text : Str) : (splitCrlf text).flatten.Sublist text := by
  fun_induction splitCrlf text with
  | case1 => exact .slnil
  | case2 rest induction =>
    exact (induction.cons _).cons _
  | case3 c rest _ none =>
    exact List.singleton_sublist.mpr List.mem_cons_self
  | case4 c rest _ line lines split induction =>
    rw [split] at induction
    exact induction.cons_cons c

theorem flatten_splitOnP (separates : Char → Bool) (text : Str) :
    (text.splitOnP separates).flatten.Sublist text := by
  induction text with
  | nil => exact .slnil
  | cons c text induction =>
    rw [List.splitOnP_cons_eq_if_modifyHead]
    split_ifs
    · exact induction.cons c
    · obtain ⟨word, words, split⟩ :=
        List.exists_cons_of_ne_nil (List.splitOnP_ne_nil separates text)
      rw [split] at induction ⊢
      exact induction.cons_cons c

theorem flatten_splitWhitespace (text : Str) : (splitWhitespace text).flatten.Sublist text :=
  (List.filter_sublist.flatten).trans (flatten_splitOnP _ text)

theorem strLen_fromUtf8 {input : Bytes} {text : Str} (decoded : fromUtf8 input = some text) :
    strLen text = input.length := by
  rw [← length_utf8, utf8_of_fromUtf8 decoded]

theorem toLower_of_large {c : Char} (large : 128 ≤ c.toNat) : c.toLower = c := by
  unfold Char.toLower
  split_ifs with upper
  · have small : c.toNat ≤ 90 := UInt32.le_iff_toNat_le.mp upper.2
    omega
  · rfl

theorem utf8Size_toLower (c : Char) : c.toLower.utf8Size = c.utf8Size := by
  by_cases ascii : c.toNat < 128
  · exact of_code_lt c ascii (by decide +kernel)
  · rw [toLower_of_large (Nat.le_of_not_lt ascii)]

theorem strLen_toAsciiLowercase_le (text : Str) :
    strLen (asciiPlatform.toLowercase text) ≤ 2 * strLen text := by
  have same : strLen (asciiPlatform.toLowercase text) = strLen text := by
    simp [asciiPlatform, toAsciiLowercase, strLen, Function.comp_def, utf8Size_toLower]
  omega

/-! ## Header text -/

/-- Method, target, host and header fields of a message. -/
def HttpMessage.textBytes : HttpMessage → Nat
  | .request req =>
    strLen req.method + strLen req.path + (req.host.elim 0 strLen) + headerBytes 0 req.headers
  | .response resp => headerBytes 0 resp.headers

theorem HttpMessage.capturedBytes_eq (msg : HttpMessage) :
    msg.capturedBytes = msg.textBytes + msg.body.length := by
  cases msg <;> rfl

section Text

variable {P : Platform}

theorem headerBytes_insert (headers : Headers) (key value : Str) :
    headerBytes 0 (headers.insert key value) ≤
      headerBytes 0 headers + (strLen key + strLen value) :=
  headers.total_insert_le _ key value

/-- A repeated field adds its value and a separator. -/
theorem headerBytes_extend {headers : Headers} {key existing : Str}
    (stored : headers.get? key = some existing) (more : Str) :
    headerBytes 0 (headers.insert key (existing ++ more)) =
      headerBytes 0 headers + strLen more := by
  have total := headers.total_insert (fun name value => strLen name + strLen value + 0) key
    (existing ++ more)
  rw [stored, strLen_append] at total
  simp only [Option.elim_some] at total
  simp only [headerBytes]
  omega

variable (lowercase : ∀ text, strLen (P.toLowercase text) ≤ 2 * strLen text)

include lowercase

theorem strLen_lowercase_trim (name : Str) :
    strLen (P.toLowercase (trim name)) ≤ 2 * strLen name :=
  (lowercase _).trans (Nat.mul_le_mul_left 2 (strLen_le_of_sublist (trim_sublist name)))

theorem headerBytes_combineHeader {line name value : Str}
    (split : splitOnce ':' line = some (name, value)) (headers : Headers) :
    headerBytes 0 (combineHeader P headers name value) ≤
      headerBytes 0 headers + 2 * strLen line := by
  have key := strLen_lowercase_trim lowercase name
  have text : strLen (trim value) ≤ strLen value := strLen_le_of_sublist (trim_sublist value)
  have size : strLen line = strLen name + (1 + strLen value) := by
    rw [eq_append_of_splitOnce split, strLen_append]
    rfl
  unfold combineHeader
  dsimp only
  split
  · rename_i existing stored
    rw [List.append_assoc, headerBytes_extend stored, strLen_append]
    have separator : strLen (if P.toLowercase (trim name) = str "set-cookie" then str "\n"
        else str ", ") ≤ 2 := by
      split_ifs <;> decide
    omega
  · have added := headerBytes_insert headers (P.toLowercase (trim name)) (trim value)
    omega

theorem headerBytes_parseHeadersInto (lines : List Str) (headers : Headers) :
    headerBytes 0 (parseHeadersInto P headers lines) ≤
      headerBytes 0 headers + 2 * (lines.map strLen).sum := by
  induction lines generalizing headers with
  | nil => exact Nat.le_refl _
  | cons line lines induction =>
    rw [parseHeadersInto, List.map_cons, List.sum_cons]
    split_ifs
    · exact Nat.le_add_right _ _
    · split
      · rename_i name value split
        have first := headerBytes_combineHeader lowercase split headers
        have rest := induction (combineHeader P headers name value)
        omega
      · have rest := induction headers
        omega

theorem textBytes_addTrailer (m : Http1Message) (line : Bytes) :
    (m.addTrailer P line).msg.textBytes ≤ m.msg.textBytes + 2 * line.length := by
  unfold Http1Message.addTrailer
  split
  · exact Nat.le_add_right _ _
  · rename_i name value found
    obtain ⟨text, decoded, split⟩ := Option.bind_eq_some_iff.mp found
    have size : strLen text = strLen name + (1 + strLen value) := by
      rw [eq_append_of_splitOnce split, strLen_append]
      rfl
    have bytes := strLen_fromUtf8 decoded
    have key := strLen_lowercase_trim lowercase name
    have kept : strLen (trim value) ≤ strLen value := strLen_le_of_sublist (trim_sublist value)
    have joined : ∀ headers : Headers,
        headerBytes 0 (if headers.contains (P.toLowercase (trim name)) then headers
          else headers.insert (P.toLowercase (trim name)) (trim value)) ≤
        headerBytes 0 headers + 2 * line.length := by
      intro headers
      split_ifs
      · exact Nat.le_add_right _ _
      · refine (headerBytes_insert headers _ _).trans ?_
        omega
    dsimp only
    cases m.msg with
    | request req =>
      have headers := joined req.headers
      simp only [HttpMessage.mapHeaders, HttpMessage.textBytes]
      omega
    | response resp => exact joined resp.headers

/-- A header block is stored in at most four times its size. -/
theorem textBytes_parseHead {head : Bytes} {responseToHead responseToConnect : Bool}
    {msg : HttpMessage} {framing : Framing}
    (parsed : parseHead P head responseToHead responseToConnect = .ok (msg, framing)) :
    msg.textBytes ≤ 4 * head.length ∧ msg.body = [] := by
  obtain ⟨text, decoded, shape⟩ := parseHead_eq_ok parsed
  have bytes := strLen_fromUtf8 decoded
  have pieces : strLen ((splitCrlf text).headD []) + ((splitCrlf text).tail.map strLen).sum ≤
      strLen text := by
    have whole := strLen_le_of_sublist (flatten_splitCrlf text)
    rw [strLen_flatten] at whole
    generalize splitCrlf text = lines at whole
    cases lines with
    | nil => exact Nat.zero_le _
    | cons first fields => exact whole
  have fields := headerBytes_parseHeadersInto lowercase (splitCrlf text).tail .empty
  change headerBytes 0 (parseHeaders P (splitCrlf text).tail) ≤ 0 + _ at fields
  rcases shape with ⟨status, rfl, _⟩ | ⟨method, path, words, rfl, _⟩
  · refine ⟨?_, rfl⟩
    simp only [HttpMessage.textBytes]
    omega
  · refine ⟨?_, rfl⟩
    have line : strLen method + strLen path ≤ strLen ((splitCrlf text).headD []) := by
      rw [← strLen_append]
      refine (strLen_le_of_sublist ?_).trans
        (strLen_le_of_sublist (flatten_splitWhitespace ((splitCrlf text).headD [])))
      simpa using words.sublist.flatten
    have host := (parseHeaders P (splitCrlf text).tail).le_total
      (fun name value => strLen name + strLen value + 0) (str "host")
    have kept : ((parseHeaders P (splitCrlf text).tail).get? (str "host")).elim 0 strLen ≤
        headerBytes 0 (parseHeaders P (splitCrlf text).tail) := by
      refine Nat.le_trans ?_ host
      cases (parseHeaders P (splitCrlf text).tail).get? (str "host") with
      | none => exact Nat.le_refl _
      | some value => exact Nat.le_add_left _ _
    simp only [HttpMessage.textBytes]
    omega

end Text

/-! ## Runs -/

/-- The bytes a turn leaves unread. -/
def Turn.rest : Turn → Bytes
  | .next _ rest _ => rest
  | .stop _ rest _ => rest

/-- The decoder is inside a trailer section. -/
def Http1State.inTrailers : Http1State → Bool
  | .body _ .trailers => true
  | _ => false

/-- How many bytes of a trailer section have been read after a turn. -/
def Http1State.meter (state : Http1State) (rest : Bytes) (taken : Turn) (trailerBytes : Nat) :
    Nat :=
  if state.inTrailers && taken.state.inTrailers then
    trailerBytes + (rest.length - taken.rest.length)
  else 0

/-- A direction of a connection: its decoder, the bytes buffered for it, and how many bytes of the
current trailer section have been read. -/
structure Http1Run where
  state : Http1State
  buffer : Bytes
  trailerBytes : Nat

def Http1Run.start : Http1Run := ⟨.head, [], 0⟩

/-- What the decoder keeps of the message that is not finished. -/
def Http1Run.unfinished (previewCap : Nat) (run : Http1Run) : Nat :=
  (Http1Decoder.mk run.state previewCap).unfinished

/-- One turn of the decoding loop on the buffered bytes. -/
def Http1Run.turn (P : Platform) (previewCap : Nat) (responseToHead responseToConnect : Bool)
    (run : Http1Run) : Http1Run :=
  let taken := run.state.turn P previewCap responseToHead responseToConnect run.buffer
  { state := taken.state
    buffer := taken.rest
    trailerBytes := run.state.meter run.buffer taken run.trailerBytes }

/-- What happens to a direction. -/
inductive Http1Label where
  | arrives (chunk : Bytes)
  | turns (responseToHead responseToConnect : Bool)
  /-- Bytes are lost, and the direction starts over. -/
  | loses

inductive Http1Run.Step (P : Platform) (previewCap maxBuffer : Nat) :
    Http1Run → Http1Label → Http1Run → Prop
  | arrives {run : Http1Run} {chunk : Bytes} (fits : (run.buffer ++ chunk).length ≤ maxBuffer) :
      Step P previewCap maxBuffer run (.arrives chunk) { run with buffer := run.buffer ++ chunk }
  | turns {run : Http1Run} {responseToHead responseToConnect : Bool} :
      Step P previewCap maxBuffer run (.turns responseToHead responseToConnect)
        (run.turn P previewCap responseToHead responseToConnect)
  | loses {run : Http1Run} : Step P previewCap maxBuffer run .loses .start

/-- The trailer section with the line that is read next is no longer than a header block may be. -/
def Http1Run.TrailersFit (run : Http1Run) : Prop :=
  run.state.inTrailers = true → ∀ eol ∈ position (bytes "\r\n") run.buffer,
    run.trailerBytes + (eol + 2) ≤ maxHttp1HeaderBytes

instance (run : Http1Run) : Decidable run.TrailersFit :=
  inferInstanceAs (Decidable (_ → _))

/-- Text and body of the message that is not finished are within their caps. -/
def Http1State.Within (textCap previewCap : Nat) : Http1State → Prop
  | .body pending _ => pending.msg.textBytes ≤ textCap ∧ pending.msg.body.length ≤ previewCap
  | _ => True

/-- What every run keeps: the header block was read from one buffer, and trailers add what was read
of them. -/
structure Http1Run.Bounded (previewCap maxBuffer : Nat) (run : Http1Run) : Prop where
  buffer : run.buffer.length ≤ maxBuffer
  trailers : run.trailerBytes ≤ maxHttp1HeaderBytes
  outside : run.state.inTrailers = false → run.trailerBytes = 0
  within : run.state.Within (4 * (maxBuffer + run.trailerBytes)) previewCap

section Steps

variable {P : Platform} {previewCap maxBuffer : Nat} {responseToHead responseToConnect : Bool}

theorem Http1Message.textBytes_preview (m : Http1Message) (more : Bytes) :
    (m.preview previewCap more).msg.textBytes = m.msg.textBytes := by
  obtain ⟨msg, _, _, _⟩ := m
  cases msg <;> rfl

theorem Http1Message.length_body_preview {m : Http1Message}
    (short : m.msg.body.length ≤ previewCap) (more : Bytes) :
    (m.preview previewCap more).msg.body.length ≤ previewCap := by
  obtain ⟨msg, _, _, _⟩ := m
  cases msg <;>
    simp only [Http1Message.preview, HttpMessage.appendBody, HttpMessage.body,
      List.length_append, List.length_take] at short ⊢ <;>
    omega

theorem Http1Message.body_addTrailer (m : Http1Message) (line : Bytes) :
    (m.addTrailer P line).msg.body = m.msg.body := by
  unfold addTrailer
  split
  · rfl
  · dsimp only
    cases m.msg <;> rfl

theorem Http1State.Within.preview {pending : Http1Message} {position_ position_' : Body}
    {textCap : Nat} (within : (Http1State.body pending position_).Within textCap previewCap)
    (more : Bytes) :
    (Http1State.body (pending.preview previewCap more) position_').Within textCap previewCap :=
  ⟨(Http1Message.textBytes_preview pending more).trans_le within.1,
    Http1Message.length_body_preview within.2 more⟩

variable {state : Http1State} {rest : Bytes} {taken : Turn} {trailerBytes : Nat}

theorem Http1State.Takes.length_rest_le
    (takes : Http1State.Takes P previewCap responseToHead responseToConnect state rest taken) :
    taken.rest.length ≤ rest.length := by
  cases takes <;> simp [Turn.rest]

theorem Http1State.within_of_parseHead
    (lowercase : ∀ text, strLen (P.toLowercase text) ≤ 2 * strLen text)
    (short : rest.length ≤ maxBuffer) {end_ : Nat} {msg : HttpMessage} {framing : Framing}
    (parsed : parseHead P (rest.take end_) responseToHead responseToConnect = .ok (msg, framing))
    (position_ : Body) :
    (Http1State.body ⟨msg, 0, false, false⟩ position_).Within (4 * (maxBuffer + 0)) previewCap := by
  have sizes := textBytes_parseHead lowercase parsed
  have head : (rest.take end_).length ≤ maxBuffer :=
    (List.length_take_le' _ _).trans short
  refine ⟨sizes.1.trans (Nat.mul_le_mul_left 4 head), ?_⟩
  rw [sizes.2]
  exact Nat.zero_le _

/-- A turn keeps the caps, the text cap growing by what it reads of a trailer section. -/
theorem Http1State.Takes.within
    (lowercase : ∀ text, strLen (P.toLowercase text) ≤ 2 * strLen text)
    (takes : Http1State.Takes P previewCap responseToHead responseToConnect state rest taken)
    (short : rest.length ≤ maxBuffer) (outside : state.inTrailers = false → trailerBytes = 0)
    (within : state.Within (4 * (maxBuffer + trailerBytes)) previewCap) :
    taken.state.Within (4 * (maxBuffer + state.meter rest taken trailerBytes)) previewCap := by
  cases takes with
  | upgraded | untilClose | headWaits | headTooLarge | headInvalid | headAlone | headUntilClose
  | headUpgrade | fixedDone | sizeTooLong | sizeBad | crlfBad | trailerTooLong | trailersEnd =>
    exact trivial
  | headFixed _ parsed => exact within_of_parseHead lowercase short parsed _
  | headChunked _ parsed => exact within_of_parseHead lowercase short parsed _
  | fixedMore _ =>
    cases outside rfl
    exact within.preview _
  | sizeWaits | sizeLast | sizeRead | crlfWaits | crlfRead =>
    cases outside rfl
    exact within
  | dataDone _ =>
    cases outside rfl
    exact within.preview _
  | dataMore _ =>
    cases outside rfl
    exact within.preview _
  | trailerWaits _ _ =>
    refine ⟨within.1.trans ?_, within.2⟩
    exact Nat.mul_le_mul_left 4 (Nat.add_le_add_left (Nat.le_add_right _ _) _)
  | @trailerRead pending rest eol found =>
    have line : eol + 1 + 2 ≤ rest.length := length_of_position found
    have added := textBytes_addTrailer lowercase pending (rest.take (eol + 1))
    have before := within.1
    have read : rest.length - (rest.drop (eol + 1 + 2)).length = eol + 1 + 2 := by
      rw [List.length_drop]
      omega
    refine ⟨?_, (congrArg List.length (Http1Message.body_addTrailer pending _)).trans_le within.2⟩
    change _ ≤ 4 * (maxBuffer + (trailerBytes + (rest.length - (rest.drop (eol + 1 + 2)).length)))
    rw [read]
    rw [List.length_take] at added
    omega

theorem Http1State.meter_outside (outside : taken.state.inTrailers = false) :
    state.meter rest taken trailerBytes = 0 := by
  simp [meter, outside]

theorem Http1State.Takes.meter_le
    (takes : Http1State.Takes P previewCap responseToHead responseToConnect state rest taken)
    (read : trailerBytes ≤ maxHttp1HeaderBytes)
    (fit : state.inTrailers = true → ∀ eol ∈ position (bytes "\r\n") rest,
      trailerBytes + (eol + 2) ≤ maxHttp1HeaderBytes) :
    state.meter rest taken trailerBytes ≤ maxHttp1HeaderBytes := by
  unfold meter
  split_ifs with stays
  · rw [Bool.and_eq_true] at stays
    cases takes with
    | trailerWaits _ _ => simpa [Turn.rest] using read
    | @trailerRead pending rest eol found =>
      refine Nat.le_trans ?_ (fit rfl _ found)
      simp only [Turn.rest, List.length_drop]
      omega
    | _ => simp [Turn.state, inTrailers] at stays
  · exact Nat.zero_le _

/-- One step keeps the bounds, if the trailer section it reads is not too long. -/
theorem Http1Run.Bounded.step
    (lowercase : ∀ text, strLen (P.toLowercase text) ≤ 2 * strLen text)
    {before after : Http1Run} {label : Http1Label} (bounded : before.Bounded previewCap maxBuffer)
    (fit : before.TrailersFit) (step : Http1Run.Step P previewCap maxBuffer before label after) :
    after.Bounded previewCap maxBuffer := by
  obtain ⟨short, read, outside, within⟩ := bounded
  cases step with
  | arrives fits => exact ⟨fits, read, outside, within⟩
  | loses => exact ⟨Nat.zero_le _, Nat.zero_le _, fun _ => rfl, trivial⟩
  | @turns responseToHead responseToConnect =>
    have takes : Http1State.Takes P previewCap responseToHead responseToConnect before.state
      before.buffer _ := before.state.takes_turn before.buffer
    exact ⟨takes.length_rest_le.trans short, takes.meter_le read fit, Http1State.meter_outside,
      takes.within lowercase short outside within⟩

/-- A request with one trailer, read in three turns. -/
def trailerTrace : List (Http1Run × Http1Label) :=
  let chunk := bytes "POST / HTTP/1.1\r\nTransfer-Encoding: chunked\r\n\r\n0\r\nA: b\r\n"
  let arrived : Http1Run := { Http1Run.start with buffer := chunk }
  let head := arrived.turn asciiPlatform 8192 false false
  let last := head.turn asciiPlatform 8192 false false
  [(.start, .arrives chunk), (arrived, .turns false false), (head, .turns false false),
    (last, .turns false false)]

end Steps

/-! ## A trailer section that does not end -/

/-- The decoder after some chunks, each fed behind what the last one left unconsumed. -/
def Http1Decoder.afterChunks (P : Platform) (responseToHead responseToConnect : Bool) :
    Http1Decoder → Bytes → List Bytes → Http1Decoder
  | decoder, _, [] => decoder
  | decoder, left, chunk :: chunks =>
    let buf := left ++ chunk
    let result := decoder.feed P buf responseToHead responseToConnect
    afterChunks P responseToHead responseToConnect result.1 (buf.drop result.2.1) chunks

section Endless

variable {P : Platform} {previewCap : Nat}

/-- The bytes of a trailer line. -/
def Field.encode (field : Field) : Bytes := utf8 field.line ++ utf8 crlf

theorem Http1Decoder.afterChunks_trailers {trailers : List Field}
    (wellFormed : ∀ trailer ∈ trailers, trailer.WellFormed) (pending : Http1Message) :
    (Http1Decoder.mk (.body pending .trailers) previewCap).afterChunks P false false []
        (trailers.map Field.encode) =
      ⟨.body (pending.addTrailers P trailers) .trailers, previewCap⟩ := by
  induction trailers generalizing pending with
  | nil => rfl
  | cons trailer trailers induction =>
    rw [List.forall_mem_cons] at wellFormed
    have line : Drains (Http1State.parserTurn P previewCap false false) (.body pending .trailers)
        trailer.encode (.body (pending.addTrailer P (utf8 trailer.line)) .trailers) [] [] := by
      have read := @turn_trailer P previewCap pending _ wellFormed.1 []
      rw [List.append_nil] at read
      exact .silent read (.stop rfl)
    obtain ⟨state, left, _⟩ := line.unique (Http1State.drains_drain _ _)
    rw [List.map_cons, afterChunks, drop_feed]
    dsimp only [List.nil_append]
    rw [left]
    have after : ((Http1Decoder.mk (.body pending .trailers) previewCap).feed P trailer.encode
        false false).1 = ⟨.body (pending.addTrailer P (utf8 trailer.line)) .trailers, previewCap⟩ :=
      congrArg (Http1Decoder.mk · previewCap) state
    rw [after, induction wellFormed.2]
    rfl

/-- Trailer fields with new names are all stored. -/
theorem length_le_headerBytes {trailers : List Field} (headers : Headers)
    (distinct : (trailers.map fun trailer => P.toLowercase trailer.name).Nodup)
    (named : ∀ trailer ∈ trailers, P.toLowercase trailer.name ≠ [] ∧
      headers.get? (P.toLowercase trailer.name) = none) :
    headerBytes 0 headers + trailers.length ≤
      headerBytes 0 (trailers.foldl (joinTrailer P) headers) := by
  induction trailers generalizing headers with
  | nil => exact Nat.le_refl _
  | cons trailer trailers induction =>
    rw [List.forall_mem_cons] at named
    rw [List.map_cons, List.nodup_cons] at distinct
    have stored : headerBytes 0 headers + 1 ≤ headerBytes 0 (joinTrailer P headers trailer) := by
      have total := headers.total_insert (fun name value => strLen name + strLen value + 0)
        (P.toLowercase trailer.name) (trim trailer.value)
      have size : 1 ≤ strLen (P.toLowercase trailer.name) := by
        obtain ⟨c, text, name⟩ := List.exists_cons_of_ne_nil named.1.1
        have char := Char.utf8Size_pos c
        rw [name]
        simp only [strLen, List.map_cons, List.sum_cons]
        omega
      rw [named.1.2] at total
      simp only [joinTrailer, Dict.contains, named.1.2, Option.isSome_none, Bool.false_eq_true,
        if_false, headerBytes]
      simp only [Option.elim_none] at total
      omega
    have rest := induction (joinTrailer P headers trailer) distinct.2 (by
      intro other member
      refine ⟨(named.2 other member).1, ?_⟩
      have different : P.toLowercase trailer.name ≠ P.toLowercase other.name :=
        fun same => distinct.1 (same ▸ List.mem_map_of_mem member)
      rw [get?_joinTrailer, (named.2 other member).2, if_neg different]
      rfl)
    rw [List.foldl_cons, List.length_cons]
    omega

/-- A field whose name spells a number in binary, with two letters for the digits. -/
def numberedTrailer (number : Nat) : Field where
  name := 'x' :: number.bits.map fun bit => if bit then 'b' else 'a'
  before := []
  value := []
  after := []

theorem numberedTrailer_wellFormed (number : Nat) : (numberedTrailer number).WellFormed where
  named := List.cons_ne_nil _ _
  token := by
    refine List.forall_mem_cons.mpr ⟨by decide, List.forall_mem_map.mpr fun bit _ => ?_⟩
    cases bit <;> decide
  before := List.forall_mem_nil _
  after := List.forall_mem_nil _
  oneLine := ⟨List.not_mem_nil, List.not_mem_nil⟩
  begins := nofun
  ends := nofun

theorem lowercase_numberedTrailer (number : Nat) :
    asciiPlatform.toLowercase (numberedTrailer number).name = (numberedTrailer number).name := by
  refine List.map_congr_left (g := id) (fun c member => ?_) |>.trans (List.map_id _)
  rcases List.mem_cons.mp member with rfl | letter
  · decide
  · obtain ⟨bit, _, rfl⟩ := List.mem_map.mp letter
    cases bit <;> decide

theorem numberedTrailer_injective :
    Function.Injective fun number => (numberedTrailer number).name := by
  intro first second same
  have letters : Function.Injective fun bit : Bool => if bit then 'b' else 'a' := by decide
  have bits : first.bits = second.bits :=
    List.map_injective_iff.mpr letters (List.cons.inj same).2
  apply Nat.digits_inj_iff.mp
  rw [Nat.digits_two_eq_bits, Nat.digits_two_eq_bits, bits]

theorem length_numberedTrailer {number bound : Nat} (small : number ≤ bound) :
    (numberedTrailer number).encode.length ≤ Nat.size bound + 64 := by
  have ascii : ∀ bits : List Bool,
      (utf8 (bits.map fun bit => if bit then 'b' else 'a')).length = bits.length := by
    intro bits
    induction bits with
    | nil => rfl
    | cons bit bits induction =>
      rw [List.map_cons, utf8_cons, List.length_append, induction, List.length_cons, add_comm]
      cases bit <;> rfl
  have digits : number.bits.length ≤ Nat.size bound := by
    rw [Nat.size_eq_bits_len]
    exact Nat.size_le_size small
  have line : utf8 (numberedTrailer number).line =
      utf8 ['x'] ++ utf8 (number.bits.map fun bit => if bit then 'b' else 'a') ++ utf8 [':'] := by
    rw [← utf8_append, ← utf8_append]
    rfl
  have around : (utf8 ['x']).length = 1 ∧ (utf8 [':']).length = 1 ∧ (utf8 crlf).length = 2 := by
    decide
  rw [Field.encode, line]
  simp only [List.length_append, ascii, around]
  omega

/-- A request whose trailer section has begun. -/
def openTrailers : Bytes :=
  bytes "POST / HTTP/1.1\r\nTransfer-Encoding: chunked\r\n\r\n0\r\n"

/-- The message as it is kept. -/
def openRequest : Http1Message :=
  ⟨.request ⟨str "POST", str "/", none,
    Dict.empty.insert (str "transfer-encoding") (str "chunked"), []⟩, 0, false, false⟩

theorem feed_openTrailers :
    (Http1Decoder.new 8192).feed asciiPlatform openTrailers false false =
      (⟨.body openRequest .trailers, 8192⟩, openTrailers.length, []) := by
  decide +kernel

end Endless

end ApiSensor
