import ApiSensor.Decoding.Http1
import ApiSensor.Decoding.Utf8

/-!
# HTTP/1 messages on the wire

Requests and responses as RFC 9112 writes them: a start line, field lines with optional whitespace
around the values, and a body that is absent, counted, or sent in chunks with extensions and trailer
fields.  `parse_head` reads a header block back, but for whitespace of Unicode around field values,
which it strips as well.
-/

namespace ApiSensor

open Library

/-! ## Syntax -/

/-- Optional whitespace around a field value. -/
def isOws (c : Char) : Bool := c = ' ' || c = '\t'

/-- A character of a token: a visible ASCII character that is no delimiter. -/
def isTokenChar (c : Char) : Bool :=
  0x21 ≤ c.toNat && c.toNat ≤ 0x7E && !(str "\"(),/:;<=>?@[\\]\x7b\x7d").contains c

def crlf : Str := ['\r', '\n']

/-- A field line. -/
structure Field where
  name : Str
  /-- Optional whitespace in front of the value. -/
  before : Str
  value : Str
  /-- Optional whitespace behind the value. -/
  after : Str

def Field.line (field : Field) : Str :=
  field.name ++ ':' :: (field.before ++ field.value ++ field.after)

/-- The name is a token, and the value is any text on one line between optional whitespace. -/
structure Field.WellFormed (field : Field) : Prop where
  named : field.name ≠ []
  token : ∀ c ∈ field.name, isTokenChar c = true
  before : ∀ c ∈ field.before, isOws c = true
  after : ∀ c ∈ field.after, isOws c = true
  oneLine : '\r' ∉ field.value ∧ '\n' ∉ field.value
  begins : ∀ c ∈ field.value.head?, isOws c = false
  ends : ∀ c ∈ field.value.getLast?, isOws c = false

instance (field : Field) : Decidable field.WellFormed :=
  decidable_of_iff
    ((field.name ≠ [] ∧ ∀ c ∈ field.name, isTokenChar c = true) ∧
      ((∀ c ∈ field.before, isOws c = true) ∧ ∀ c ∈ field.after, isOws c = true) ∧
      ('\r' ∉ field.value ∧ '\n' ∉ field.value) ∧
      (∀ c ∈ field.value.head?, isOws c = false) ∧ ∀ c ∈ field.value.getLast?, isOws c = false)
    ⟨fun ⟨⟨named, token⟩, ⟨before, after⟩, oneLine, begins, ends⟩ =>
        ⟨named, token, before, after, oneLine, begins, ends⟩,
      fun ⟨named, token, before, after, oneLine, begins, ends⟩ =>
        ⟨⟨named, token⟩, ⟨before, after⟩, oneLine, begins, ends⟩⟩

inductive StartLine where
  | request (method target : Str)
  | response (status : Nat) (reason : Str)

def StartLine.line : StartLine → Str
  | .request method target => method ++ ' ' :: (target ++ ' ' :: str "HTTP/1.1")
  | .response status reason => str "HTTP/1.1" ++ ' ' :: (Nat.toDigits 10 status ++ ' ' :: reason)

/-- Statuses for which a response has no body, whatever its fields say. -/
def bodyless (status : Nat) : Bool := status < 200 || status = 204 || status = 304

def StartLine.mayHaveBody : StartLine → Bool
  | .request _ _ => true
  | .response status _ => !bodyless status

def StartLine.WellFormed : StartLine → Prop
  | .request method target =>
    isHttpMethod method = true ∧ target ≠ [] ∧ ∀ c ∈ target, isWhitespace c = false
  | .response status reason =>
    100 ≤ status ∧ status ≤ 999 ∧ status ≠ 101 ∧ '\r' ∉ reason ∧ '\n' ∉ reason

instance (start : StartLine) : Decidable start.WellFormed :=
  match start with
  | .request _ _ => inferInstanceAs (Decidable (_ ∧ _ ∧ _))
  | .response _ _ => inferInstanceAs (Decidable (_ ∧ _ ∧ _ ∧ _ ∧ _))

/-- A chunk-size line: hexadecimal digits and an optional extension. -/
structure ChunkLine where
  digits : Str
  /-- Optional whitespace, and what follows the semicolon. -/
  extension : Option (Str × Bytes)

def ChunkLine.content (line : ChunkLine) : Bytes :=
  utf8 line.digits ++
    match line.extension with
    | none => []
    | some (space, text) => utf8 (space ++ [';']) ++ text

structure ChunkLine.WellFormed (line : ChunkLine) (size : Nat) : Prop where
  digits : digits? 16 line.digits = some size
  extension : ∀ ext ∈ line.extension,
    (∀ c ∈ ext.1, isOws c = true) ∧ 13 ∉ ext.2 ∧ 10 ∉ ext.2

instance (line : ChunkLine) (size : Nat) : Decidable (line.WellFormed size) :=
  decidable_of_iff
    (digits? 16 line.digits = some size ∧ ∀ ext ∈ line.extension,
      (∀ c ∈ ext.1, isOws c = true) ∧ 13 ∉ ext.2 ∧ 10 ∉ ext.2)
    ⟨fun ⟨digits, extension⟩ => ⟨digits, extension⟩, fun ⟨digits, extension⟩ => ⟨digits, extension⟩⟩

structure Chunk where
  line : ChunkLine
  data : Bytes

def Chunk.encode (chunk : Chunk) : Bytes :=
  chunk.line.content ++ utf8 crlf ++ chunk.data ++ utf8 crlf

inductive WireBody where
  | absent
  | sized (data : Bytes)
  | chunked (chunks : List Chunk) (last : ChunkLine) (trailers : List Field)

namespace WireBody

/-- The bytes of the body after chunk decoding. -/
def data : WireBody → Bytes
  | .absent => []
  | .sized data => data
  | .chunked chunks _ _ => chunks.flatMap Chunk.data

def trailers : WireBody → List Field
  | .chunked _ _ trailers => trailers
  | _ => []

def encode : WireBody → Bytes
  | .absent => []
  | .sized data => data
  | .chunked chunks last trailers =>
    chunks.flatMap Chunk.encode ++ (last.content ++ utf8 crlf) ++
      trailers.flatMap (fun trailer => utf8 trailer.line ++ utf8 crlf) ++ utf8 crlf

def framing : WireBody → Framing
  | .absent => .none
  | .sized data => .fixed data.length
  | .chunked _ _ _ => .chunked

end WireBody

structure WireMessage where
  start : StartLine
  fields : List Field
  body : WireBody

namespace WireMessage

def lines (m : WireMessage) : List Str := m.start.line :: m.fields.map Field.line

/-- The header block, with the empty line that ends it. -/
def head (m : WireMessage) : Str := m.lines.flatMap (· ++ crlf) ++ crlf

def encode (m : WireMessage) : Bytes := utf8 m.head ++ m.body.encode

end WireMessage

/-- The values of the fields of one name. -/
def valuesOf (P : Platform) (key : Str) (fields : List Field) : List Str :=
  (fields.filter fun field => P.toLowercase field.name = key).map Field.value

/-- A list of transfer codings whose last one is `chunked`. -/
def EndsChunked (value : Str) : Prop :=
  ∃ before coding, value = before ++ coding ∧ toAsciiLowercase coding = str "chunked" ∧
    (before = [] ∨ ∃ others space, before = others ++ ',' :: space ∧ ∀ c ∈ space, isOws c = true)

/-- The fields say how the body is delimited. -/
def WireMessage.Framed (P : Platform) (m : WireMessage) : Prop :=
  let lengths := valuesOf P (str "content-length") m.fields
  let codings := valuesOf P (str "transfer-encoding") m.fields
  match m.body with
  | .absent =>
    match m.start with
    | .request _ _ => lengths = [] ∧ codings = []
    | .response status _ => bodyless status = true
  | .sized data =>
    m.start.mayHaveBody = true ∧ codings = [] ∧
      ∃ text, lengths = [text] ∧ digits? 10 text = some data.length
  | .chunked _ _ _ =>
    m.start.mayHaveBody = true ∧ lengths = [] ∧
      ∃ others final, codings = others ++ [final] ∧ EndsChunked final

structure WireMessage.WellFormed (P : Platform) (m : WireMessage) : Prop where
  start : m.start.WellFormed
  fields : ∀ field ∈ m.fields, field.WellFormed
  framed : m.Framed P
  chunks : ∀ chunks last trailers, m.body = .chunked chunks last trailers →
    (∀ chunk ∈ chunks, chunk.data ≠ [] ∧ chunk.line.WellFormed chunk.data.length) ∧
      last.WellFormed 0
  trailers : ∀ trailer ∈ m.body.trailers, trailer.WellFormed

/-! ## Characters -/

theorem isWhitespace_of_isOws {c : Char} (space : isOws c = true) : isWhitespace c = true := by
  unfold isOws at space
  rw [Bool.or_eq_true, decide_eq_true_eq, decide_eq_true_eq] at space
  rcases space with rfl | rfl <;> decide

/-- A property of small code points is checked on a table. -/
@[elab_as_elim]
theorem of_code_lt {bound : Nat} {motive : Char → Prop} (c : Char) (small : c.toNat < bound)
    (table : ∀ code < bound, motive (Char.ofNat code)) : motive c := by
  have known := table c.toNat small
  rwa [Char.ofNat_toNat] at known

theorem ne_of_isTokenChar {c : Char} (token : isTokenChar c = true) :
    isWhitespace c = false ∧ c ≠ ':' ∧ c ≠ '\r' := by
  have small : c.toNat < 0x7F := by
    have range := token
    simp only [isTokenChar, Bool.and_eq_true, decide_eq_true_eq] at range
    omega
  revert token
  refine of_code_lt c small ?_
  decide +kernel

/-- Digits of any radix are ASCII letters or digits. -/
theorem ne_of_digit? {radix : Nat} {c : Char} (isDigit : (digit? radix c).isSome = true) :
    isWhitespace c = false ∧ c ≠ ';' ∧ c ≠ ',' ∧ c ≠ '+' ∧ c ≠ '\r' ∧ Char.utf8Size c = 1 := by
  have range : ('0' ≤ c && c ≤ '9' || 'a' ≤ c && c ≤ 'z' || 'A' ≤ c && c ≤ 'Z') = true := by
    unfold digit? at isDigit
    split_ifs at isDigit with number lower upper
    · simp [number]
    · simp [lower]
    · simp [upper]
    · cases isDigit
  have small : c.toNat < 123 := by
    simp only [Bool.or_eq_true, Bool.and_eq_true, decide_eq_true_eq] at range
    rcases range with (⟨-, below⟩ | ⟨-, below⟩) | ⟨-, below⟩ <;>
      exact Nat.lt_of_le_of_lt below (by decide)
  revert range
  refine of_code_lt c small ?_
  decide +kernel

/-! ## Trimming and splitting -/

theorem trim_sublist (text : Str) : (trim text).Sublist text := by
  have inner : ((text.dropWhile isWhitespace).reverse.dropWhile isWhitespace).Sublist
      (text.dropWhile isWhitespace).reverse := (List.dropWhile_suffix _).sublist
  have outer := List.reverse_sublist.mpr inner
  rw [List.reverse_reverse] at outer
  exact outer.trans (List.dropWhile_suffix _).sublist

theorem trim_around {before after : Str} (value : Str)
    (begins : ∀ c ∈ before, isWhitespace c = true) (ends : ∀ c ∈ after, isWhitespace c = true) :
    trim (before ++ value ++ after) = trim value := by
  have none : after.dropWhile isWhitespace = [] := by
    rw [← List.append_nil after, List.dropWhile_append_of_pos ends]
    rfl
  have ends' : ∀ c ∈ after.reverse, isWhitespace c = true :=
    fun c member => ends c (List.mem_reverse.mp member)
  unfold trim
  rw [List.append_assoc, List.dropWhile_append_of_pos begins, List.dropWhile_append]
  split_ifs with blank
  · rw [none, List.isEmpty_iff.mp blank]
  · rw [List.reverse_append, List.dropWhile_append_of_pos ends']

theorem dropWhile_of_begins {text : Str} (begins : ∀ c ∈ text.head?, isWhitespace c = false) :
    text.dropWhile isWhitespace = text := by
  cases text with
  | nil => rfl
  | cons c text => rw [List.dropWhile_cons_of_neg (by simp [begins c rfl])]

/-- A text that does not begin or end with whitespace is kept. -/
theorem trim_append (before : Str) {text : Str} (nonempty : text ≠ [])
    (begins : ∀ c ∈ text.head?, isWhitespace c = false)
    (ends : ∀ c ∈ text.getLast?, isWhitespace c = false) :
    trim (before ++ text) = before.dropWhile isWhitespace ++ text := by
  have stripped : (before ++ text).dropWhile isWhitespace =
      before.dropWhile isWhitespace ++ text := by
    rw [List.dropWhile_append]
    split_ifs with blank
    · rw [List.isEmpty_iff.mp blank, dropWhile_of_begins begins, List.nil_append]
    · rfl
  have last : (before.dropWhile isWhitespace ++ text).getLast? = text.getLast? :=
    List.getLast?_append_of_ne_nil _ nonempty
  unfold trim
  rw [stripped, dropWhile_of_begins (by rwa [List.head?_reverse, last]), List.reverse_reverse]

theorem trim_of_forall {text : Str} (bare : ∀ c ∈ text, isWhitespace c = false) :
    trim text = text := by
  by_cases nonempty : text = []
  · rw [nonempty]
    rfl
  · exact trim_append [] nonempty (fun c member => bare c (List.mem_of_mem_head? member))
      fun c member => bare c (List.mem_of_mem_getLast? member)

theorem splitOnce_append {separator : Char} {before : Str} (free : separator ∉ before)
    (after : Str) : splitOnce separator (before ++ separator :: after) = some (before, after) := by
  induction before with
  | nil => simp [splitOnce]
  | cons c before induction =>
    rw [List.mem_cons, not_or] at free
    rw [List.cons_append, splitOnce, if_neg (Ne.symm free.1), induction free.2]
    rfl

theorem not_mem_of_splitOnce {separator : Char} {text before after : Str}
    (found : splitOnce separator text = some (before, after)) : separator ∉ before := by
  induction text generalizing before with
  | nil => cases found
  | cons c text induction =>
    rw [splitOnce] at found
    split_ifs at found with same
    · cases found
      exact List.not_mem_nil
    · obtain ⟨⟨inner, _⟩, rest, whole⟩ := Option.map_eq_some_iff.mp found
      cases whole
      exact List.not_mem_cons_of_ne_of_not_mem (Ne.symm same) (induction rest)

theorem splitCrlf_append {line : Str} (free : '\r' ∉ line) (rest : Str) :
    splitCrlf (line ++ crlf ++ rest) = line :: splitCrlf rest := by
  induction line with
  | nil => rfl
  | cons c line induction =>
    rw [List.mem_cons, not_or] at free
    rw [List.cons_append, List.cons_append, splitCrlf, induction free.2]
    intro rest' isReturn
    exact absurd isReturn.symm free.1

theorem split_eq_singleton {separator : Char} {text : Str} (free : separator ∉ text) :
    split separator text = [text] :=
  List.splitOnP_eq_singleton fun c member => by
    rw [beq_eq_false_iff_ne]
    rintro rfl
    exact free member

theorem headD_split {separator : Char} {before : Str} (free : separator ∉ before) (after : Str) :
    (split separator (before ++ separator :: after)).headD [] = before := by
  unfold split List.splitOn
  rw [List.splitOnP_append_cons_of_forall_mem _ _ (by simp)]
  · rfl
  · intro c member
    rw [beq_eq_false_iff_ne]
    rintro rfl
    exact free member

theorem getLastD_split {separator : Char} (before : Str) {after : Str} (free : separator ∉ after) :
    (split separator (before ++ separator :: after)).getLastD [] = after := by
  have last := split_eq_singleton free
  unfold split List.splitOn at last ⊢
  rw [List.splitOnP_append_cons _ _ (by simp), last]
  simp

/-- The first word of a line. -/
theorem splitWhitespace_cons {word : Str} (nonempty : word ≠ [])
    (bare : ∀ c ∈ word, isWhitespace c = false) (rest : Str) :
    splitWhitespace (word ++ ' ' :: rest) = word :: splitWhitespace rest := by
  unfold splitWhitespace
  rw [List.splitOnP_append_cons_of_forall_mem bare ' ' (by decide), List.filter_cons_of_pos]
  simpa using nonempty

theorem splitWhitespace_singleton {word : Str} (nonempty : word ≠ [])
    (bare : ∀ c ∈ word, isWhitespace c = false) : splitWhitespace word = [word] := by
  unfold splitWhitespace
  rw [List.splitOnP_eq_singleton bare, List.filter_cons_of_pos]
  · rfl
  · simpa using nonempty

/-! ## Numbers -/

theorem digit?_of_digits? {radix value : Nat} {text : Str}
    (parsed : digits? radix text = some value) :
    text ≠ [] ∧ ∀ c ∈ text, (digit? radix c).isSome = true := by
  have scanned : ∀ (text : Str) (start value : Nat),
      text.foldlM (fun value c => (digit? radix c).map (value * radix + ·)) start = some value →
      ∀ c ∈ text, (digit? radix c).isSome = true := by
    intro text
    induction text with
    | nil => simp
    | cons c text induction =>
      intro start value parsed
      rw [List.foldlM_cons] at parsed
      obtain ⟨middle, first, rest⟩ := Option.bind_eq_some_iff.mp parsed
      obtain ⟨digit, isDigit, -⟩ := Option.map_eq_some_iff.mp first
      simpa [isDigit] using induction middle value rest
  unfold digits? at parsed
  split_ifs at parsed with empty
  exact ⟨by simpa using empty, scanned text 0 value parsed⟩

theorem parseU64_of_digits? {radix value : Nat} {text : Str}
    (parsed : digits? radix text = some value) (fits : value < 2 ^ 64) :
    parseU64 radix text = some value := by
  have plain := digit?_of_digits? parsed
  unfold parseU64
  split
  · exact absurd rfl (ne_of_digit? (plain.2 _ List.mem_cons_self)).2.2.2.1
  · dsimp only
    rw [parsed]
    exact Option.filter_eq_some_iff.mpr ⟨rfl, decide_eq_true fits⟩

/-! ## Lines -/

theorem utf8_crlf : utf8 crlf = [13, 10] := by decide

theorem utf8_ne_nil {text : Str} (nonempty : text ≠ []) : utf8 text ≠ [] := by
  cases text with
  | nil => exact absurd rfl nonempty
  | cons c text =>
    obtain ⟨lead, tail, encoded, -⟩ := utf8Next_encode c []
    simp [utf8_cons, encoded]

theorem not_mem_utf8 {text : Str} (free : '\r' ∉ text) : 13 ∉ utf8 text :=
  fun member => free (mem_of_mem_utf8 (by decide) member)

theorem utf8_flatMap (lines : List Str) :
    utf8 (lines.flatMap (· ++ crlf)) = (lines.map utf8).flatMap (· ++ utf8 crlf) := by
  induction lines with
  | nil => rfl
  | cons line lines induction => simp [induction]

theorem position_skip {first : UInt8} {line : Bytes} (free : first ∉ line) (needle rest : Bytes) :
    position (first :: needle) (line ++ rest) =
      (position (first :: needle) rest).map (· + line.length) := by
  induction line with
  | nil => simp
  | cons byte line induction =>
    rw [List.mem_cons, not_or] at free
    have other : ¬ (first :: needle).isPrefixOf (byte :: (line ++ rest)) = true := by
      simp [List.isPrefixOf, free.1]
    rw [List.cons_append, position, if_neg other, induction free.2]
    cases position (first :: needle) rest with
    | none => rfl
    | some at_ => simp [Nat.add_assoc]

theorem position_line {line : Bytes} (free : 13 ∉ line) (rest : Bytes) :
    position (bytes "\r\n") (line ++ utf8 crlf ++ rest) = some line.length := by
  have here : position [13, 10] (utf8 crlf ++ rest) = some 0 := by
    rw [utf8_crlf]
    rfl
  rw [List.append_assoc]
  refine (position_skip free [10] _).trans ?_
  rw [here]
  simp

/-- A line end before a non-empty line is not the end of the block. -/
theorem position_crlf {text : Bytes} (continues : ∀ byte ∈ text.head?, byte ≠ 13) :
    position (bytes "\r\n\r\n") (utf8 crlf ++ text) =
      (position (bytes "\r\n\r\n") text).map (· + 2) := by
  have needle : bytes "\r\n\r\n" = [13, 10, 13, 10] := by decide
  have here : ¬ [13, 10, 13, 10].isPrefixOf (13 :: 10 :: text) = true := by
    cases text with
    | nil => decide
    | cons byte text => simp [List.isPrefixOf, (continues byte rfl).symm]
  rw [needle, utf8_crlf, List.cons_append, List.singleton_append, position, if_neg here, position,
    if_neg (by simp [List.isPrefixOf]), Option.map_map]
  rfl

/-- The first empty line is the one behind the last line. -/
theorem position_block {lines : List Bytes} (some_ : lines ≠ [])
    (plain : ∀ line ∈ lines, line ≠ [] ∧ 13 ∉ line) (rest : Bytes) :
    ∃ end_, position (bytes "\r\n\r\n")
        (lines.flatMap (· ++ utf8 crlf) ++ (utf8 crlf ++ rest)) = some end_ ∧
      end_ + 4 = (lines.flatMap (· ++ utf8 crlf) ++ utf8 crlf).length := by
  induction lines with
  | nil => exact absurd rfl some_
  | cons line lines induction =>
    rw [List.forall_mem_cons] at plain
    obtain ⟨⟨-, free⟩, plain⟩ := plain
    rw [List.flatMap_cons, List.append_assoc, List.append_assoc,
      show bytes "\r\n\r\n" = 13 :: [10, 13, 10] by decide, position_skip free,
      show 13 :: [10, 13, 10] = bytes "\r\n\r\n" by decide]
    cases lines with
    | nil =>
      refine ⟨line.length, ?_, by simp [utf8_crlf]⟩
      have here : position (bytes "\r\n\r\n") (utf8 crlf ++ (utf8 crlf ++ rest)) = some 0 := by
        rw [utf8_crlf]
        rfl
      rw [List.flatMap_nil, List.nil_append, here]
      simp
    | cons next lines =>
      obtain ⟨end_, found, size⟩ := induction (List.cons_ne_nil _ _) plain
      obtain ⟨nonempty, free⟩ := plain next List.mem_cons_self
      obtain ⟨byte, tail, rfl⟩ := List.exists_cons_of_ne_nil nonempty
      refine ⟨end_ + 2 + line.length, ?_, ?_⟩
      · rw [position_crlf, found]
        · rfl
        · rintro _ ⟨⟩ rfl
          exact free List.mem_cons_self
      · have two : (utf8 crlf).length = 2 := by decide
        simp only [List.length_append] at size ⊢
        omega

/-! ## Field lines -/

namespace Field

variable {field : Field}

theorem colon_not_mem_name (wellFormed : field.WellFormed) : ':' ∉ field.name :=
  fun member => (ne_of_isTokenChar (wellFormed.token _ member)).2.1 rfl

theorem trim_name (wellFormed : field.WellFormed) : trim field.name = field.name :=
  trim_of_forall fun c member => (ne_of_isTokenChar (wellFormed.token c member)).1

theorem trim_value (wellFormed : field.WellFormed) :
    trim (field.before ++ field.value ++ field.after) = trim field.value :=
  trim_around _ (fun c member => isWhitespace_of_isOws (wellFormed.before c member))
    fun c member => isWhitespace_of_isOws (wellFormed.after c member)

theorem line_ne_nil (field : Field) : field.line ≠ [] := by simp [line]

theorem return_not_mem_line (wellFormed : field.WellFormed) : '\r' ∉ field.line := by
  have space : ∀ text : Str, (∀ c ∈ text, isOws c = true) → '\r' ∉ text :=
    fun text blank member => absurd (blank _ member) (by decide)
  intro member
  simp only [line, List.mem_append, List.mem_cons] at member
  rcases member with member | member | (member | member) | member
  · exact (ne_of_isTokenChar (wellFormed.token _ member)).2.2 rfl
  · cases member
  · exact space _ wellFormed.before member
  · exact wellFormed.oneLine.1 member
  · exact space _ wellFormed.after member

theorem splitOnce_line (wellFormed : field.WellFormed) :
    splitOnce ':' field.line = some (field.name, field.before ++ field.value ++ field.after) :=
  splitOnce_append (colon_not_mem_name wellFormed) _

end Field

/-- What stands between the values of a repeated field. -/
def separator (key : Str) : Str := if key = str "set-cookie" then str "\n" else str ", "

/-- A field value that joins what is stored under its name. -/
def extendValue (key : Str) (stored : Option Str) (value : Str) : Option Str :=
  match stored with
  | none => some value
  | some existing => some (existing ++ separator key ++ value)

/-- The combined value of all fields of one name. -/
def combinedValue (P : Platform) (key : Str) (fields : List Field) : Option Str :=
  (valuesOf P key fields).foldl (extendValue key) none

section Lookup

variable {P : Platform}

theorem get?_combineHeader (headers : Headers) (name value key : Str) :
    (combineHeader P headers name value).get? key =
      if P.toLowercase (trim name) = key then extendValue key (headers.get? key) (trim value)
      else headers.get? key := by
  unfold combineHeader
  dsimp only
  by_cases same : P.toLowercase (trim name) = key
  · subst same
    rw [if_pos rfl]
    cases stored : headers.get? (P.toLowercase (trim name)) with
    | none => exact Dict.get?_insert_self _ _ _
    | some existing => exact Dict.get?_insert_self _ _ _
  · rw [if_neg same]
    cases stored : headers.get? (P.toLowercase (trim name)) with
    | none => exact Dict.get?_insert_of_ne _ (Ne.symm same) _
    | some existing => exact Dict.get?_insert_of_ne _ (Ne.symm same) _

/-- What `parse_headers` stores under a name. -/
theorem get?_parseHeadersInto {fields : List Field}
    (wellFormed : ∀ field ∈ fields, field.WellFormed) (headers : Headers) (key : Str)
    (more : List Str) :
    (parseHeadersInto P headers (fields.map Field.line ++ [] :: more)).get? key =
      ((valuesOf P key fields).map trim).foldl (extendValue key) (headers.get? key) := by
  induction fields generalizing headers with
  | nil => rfl
  | cons field fields induction =>
    rw [List.forall_mem_cons] at wellFormed
    obtain ⟨this, others⟩ := wellFormed
    have nonempty : ¬ field.line.isEmpty = true := by simpa using field.line_ne_nil
    rw [List.map_cons, List.cons_append, parseHeadersInto, if_neg nonempty,
      Field.splitOnce_line this]
    dsimp only
    rw [induction others, get?_combineHeader, Field.trim_name this, Field.trim_value this]
    by_cases same : P.toLowercase field.name = key <;> simp [valuesOf, same]

end Lookup

/-! ## Framing fields -/

theorem foldl_extendValue (key : Str) (values : List Str) (last : Str) (stored : Option Str) :
    ∃ before, (values ++ [last]).foldl (extendValue key) stored = some (before ++ last) ∧
      (before = [] ∨ ∃ start, before = start ++ separator key) := by
  rw [List.foldl_append, List.foldl_cons, List.foldl_nil]
  cases values.foldl (extendValue key) stored with
  | none => exact ⟨[], rfl, .inl rfl⟩
  | some existing => exact ⟨_, rfl, .inr ⟨existing, rfl⟩⟩

theorem ne_of_mem_chunked {coding : Str} (chunked : toAsciiLowercase coding = str "chunked") :
    ∀ c ∈ coding, isWhitespace c = false ∧ c ≠ ',' := by
  intro c member
  have letter : c.toLower ∈ str "chunked" := by
    rw [← chunked]
    exact List.mem_map_of_mem member
  have small : c.toNat < 123 := by
    by_contra large
    have same : c.toLower = c := by
      unfold Char.toLower
      rw [dif_neg]
      exact fun upper => large (Nat.lt_of_le_of_lt upper.2 (by decide))
    rw [same] at letter
    revert large
    have all : ∀ c ∈ str "chunked", ¬ ¬ c.toNat < 123 := by decide
    exact all c letter
  revert letter
  refine of_code_lt c small ?_
  decide +kernel

theorem lowercase_last_coding {before final : Str} (ends : EndsChunked final)
    (joined : before = [] ∨ ∃ start, before = start ++ str ", ") :
    toAsciiLowercase (trim ((split ',' (before ++ trim final)).getLastD [])) = str "chunked" := by
  obtain ⟨others, coding, rfl, chunked, listed⟩ := ends
  have plain := ne_of_mem_chunked chunked
  have bare : trim coding = coding := trim_of_forall fun c member => (plain c member).1
  -- the last element of the list is the coding behind optional whitespace
  have last : ∀ (start space : Str), (∀ c ∈ space, isOws c = true) →
      trim ((split ',' (start ++ ',' :: (space ++ coding))).getLastD []) = coding := by
    intro start space blank
    have free : ',' ∉ space ++ coding := by
      rw [List.mem_append]
      rintro (member | member)
      · exact absurd (blank _ member) (by decide)
      · exact (plain _ member).2 rfl
    have around : trim (space ++ coding ++ []) = trim coding :=
      trim_around coding (fun c member => isWhitespace_of_isOws (blank c member)) (by simp)
    rw [List.append_nil, bare] at around
    rw [getLastD_split start free, around]
  rw [← chunked]
  congr 1
  rcases listed with rfl | ⟨codings, space, rfl, blank⟩
  · rw [List.nil_append, bare]
    rcases joined with rfl | ⟨start, rfl⟩
    · rw [List.nil_append, split_eq_singleton fun member => (plain _ member).2 rfl]
      exact bare
    · have listed := last start [' '] (by decide)
      simpa [str] using listed
  · have nonempty : coding ≠ [] := by
      rintro rfl
      cases chunked
    have kept := trim_append codings (List.cons_ne_nil ',' (space ++ coding))
      (by rintro _ ⟨⟩; decide) (by
        rw [← List.cons_append, List.getLast?_append_of_ne_nil _ nonempty]
        exact fun c member => (plain c (List.mem_of_mem_getLast? member)).1)
    rw [List.append_assoc, List.cons_append, kept, ← List.append_assoc]
    exact last _ space blank

theorem contentLength_of_digits? {text : Str} {size : Nat} (parsed : digits? 10 text = some size)
    (fits : size < 2 ^ 64) :
    trim text = text ∧ contentLength none (split ',' text) = .ok (some size) := by
  have plain := fun c member => ne_of_digit? ((digit?_of_digits? parsed).2 c member)
  have bare : trim text = text := trim_of_forall fun c member => (plain c member).1
  refine ⟨bare, ?_⟩
  rw [split_eq_singleton fun member => (plain _ member).2.2.1 rfl, contentLength, bare,
    parseU64_of_digits? parsed fits]
  rfl

/-! ## Header blocks -/

/-- The headers that `parse_head` makes of field lines. -/
def parsedHeaders (P : Platform) (fields : List Field) : Headers :=
  parseHeaders P (fields.map Field.line ++ [[], []])

theorem get?_parsedHeaders {P : Platform} {fields : List Field}
    (wellFormed : ∀ field ∈ fields, field.WellFormed) (key : Str) :
    (parsedHeaders P fields).get? key =
      ((valuesOf P key fields).map trim).foldl (extendValue key) none :=
  get?_parseHeadersInto wellFormed .empty key [[]]

section Framing

variable {P : Platform} {fields : List Field} {isRequest : Bool}

section

variable (wellFormed : ∀ field ∈ fields, field.WellFormed)
include wellFormed

theorem bodyFraming_absent (lengths : valuesOf P (str "content-length") fields = [])
    (codings : valuesOf P (str "transfer-encoding") fields = []) :
    bodyFraming (parsedHeaders P fields) true = .ok .none := by
  unfold bodyFraming
  rw [get?_parsedHeaders wellFormed, get?_parsedHeaders wellFormed, lengths, codings]
  rfl

theorem bodyFraming_sized {text : Str} {size : Nat}
    (codings : valuesOf P (str "transfer-encoding") fields = [])
    (lengths : valuesOf P (str "content-length") fields = [text])
    (parsed : digits? 10 text = some size) (fits : size < 2 ^ 64) :
    bodyFraming (parsedHeaders P fields) isRequest = .ok (.fixed size) := by
  obtain ⟨bare, counted⟩ := contentLength_of_digits? parsed fits
  unfold bodyFraming
  rw [get?_parsedHeaders wellFormed, get?_parsedHeaders wellFormed, lengths, codings]
  simp only [List.map_cons, List.map_nil, List.foldl_cons, List.foldl_nil, extendValue, bare,
    counted]
  rfl

theorem bodyFraming_chunked {others : List Str} {final : Str}
    (lengths : valuesOf P (str "content-length") fields = [])
    (codings : valuesOf P (str "transfer-encoding") fields = others ++ [final])
    (ends : EndsChunked final) :
    bodyFraming (parsedHeaders P fields) isRequest = .ok .chunked := by
  obtain ⟨before, combined, joined⟩ := foldl_extendValue (str "transfer-encoding")
    (others.map trim) (trim final) none
  have last := lowercase_last_coding ends joined
  unfold bodyFraming
  rw [get?_parsedHeaders wellFormed, get?_parsedHeaders wellFormed, lengths, codings,
    List.map_append, List.map_singleton, combined]
  simp only [List.map_nil, List.foldl_nil, Option.isSome_none, Bool.and_false, Bool.false_eq_true,
    if_false, last, if_true]

end

end Framing

theorem splitCrlf_block {lines : List Str} (plain : ∀ line ∈ lines, '\r' ∉ line) :
    splitCrlf (lines.flatMap (· ++ crlf) ++ crlf) = lines ++ [[], []] := by
  induction lines with
  | nil => rfl
  | cons line lines induction =>
    rw [List.forall_mem_cons] at plain
    rw [List.flatMap_cons, List.append_assoc, splitCrlf_append plain.1, induction plain.2]
    rfl

theorem mem_of_isHttpMethod {method : Str} (known : isHttpMethod method = true) :
    method ∈ [str "GET", str "POST", str "PUT", str "PATCH", str "DELETE", str "HEAD",
      str "OPTIONS", str "TRACE", str "CONNECT"] := by
  simpa [isHttpMethod] using known

theorem bare_of_isHttpMethod {method : Str} (known : isHttpMethod method = true) :
    method ≠ [] ∧ ∀ c ∈ method, isWhitespace c = false := by
  have all : ∀ method ∈ [str "GET", str "POST", str "PUT", str "PATCH", str "DELETE", str "HEAD",
      str "OPTIONS", str "TRACE", str "CONNECT"],
      method ≠ [] ∧ ∀ c ∈ method, isWhitespace c = false := by decide
  exact all method (mem_of_isHttpMethod known)

theorem digitChar_table : ∀ digit < 10, digit? 10 (Nat.digitChar digit) = some digit ∧
    isWhitespace (Nat.digitChar digit) = false ∧ Nat.digitChar digit ≠ '-' ∧
      Nat.digitChar digit ≠ '+' := by
  decide

theorem parseI32_toDigits {status : Nat} (atLeast : 100 ≤ status) (atMost : status ≤ 999) :
    parseI32 (Nat.toDigits 10 status) = some (status : Int) ∧ Nat.toDigits 10 status ≠ [] ∧
      ∀ c ∈ Nat.toDigits 10 status, isWhitespace c = false := by
  obtain ⟨first, bare, notMinus, notPlus⟩ := digitChar_table (status / 100) (by omega)
  obtain ⟨second, bare', -⟩ := digitChar_table (status / 10 % 10) (by omega)
  obtain ⟨third, bare'', -⟩ := digitChar_table (status % 10) (by omega)
  have digits : Nat.toDigits 10 status = [(status / 100).digitChar,
      (status / 10 % 10).digitChar, (status % 10).digitChar] := by
    rw [Nat.toDigits_of_base_le (by decide) (by omega),
      Nat.toDigits_of_base_le (by decide) (by omega), Nat.toDigits_of_lt_base (by omega),
      Nat.div_div_eq_div_mul]
    rfl
  rw [digits]
  refine ⟨?_, by simp, by simp [bare, bare', bare'']⟩
  simp [parseI32, notMinus, notPlus, digits?, first, second, third]
  omega

namespace WireMessage

variable {P : Platform} {m : WireMessage}

/-- What `parse_head` makes of the header block. -/
def parsed (P : Platform) (m : WireMessage) : HttpMessage :=
  let headers := parsedHeaders P m.fields
  match m.start with
  | .request method target => .request ⟨method, target, headers.get? (str "host"), headers, []⟩
  | .response status _ => .response ⟨status, headers, []⟩

theorem words_request {method target : Str}
    (wellFormed : (StartLine.request method target).WellFormed) :
    (str "HTTP/").isPrefixOf (StartLine.request method target).line = false ∧
      splitWhitespace (StartLine.request method target).line =
        [method, target, str "HTTP/1.1"] := by
  obtain ⟨known, nonempty, bare⟩ := wellFormed
  obtain ⟨named, method_bare⟩ := bare_of_isHttpMethod known
  constructor
  · have listed := mem_of_isHttpMethod known
    simp only [List.mem_cons, List.not_mem_nil, or_false] at listed
    rcases listed with rfl | rfl | rfl | rfl | rfl | rfl | rfl | rfl | rfl <;> rfl
  · rw [StartLine.line, splitWhitespace_cons named method_bare,
      splitWhitespace_cons nonempty bare, splitWhitespace_singleton (by decide) (by decide)]

theorem words_response {status : Nat} {reason : Str}
    (wellFormed : (StartLine.response status reason).WellFormed) :
    (str "HTTP/").isPrefixOf (StartLine.response status reason).line = true ∧
      splitWhitespace ((StartLine.response status reason).line.drop 5) =
        str "1.1" :: Nat.toDigits 10 status :: splitWhitespace reason := by
  obtain ⟨atLeast, atMost, -⟩ := wellFormed
  obtain ⟨-, nonempty, bare⟩ := parseI32_toDigits atLeast atMost
  refine ⟨rfl, ?_⟩
  have rest : (StartLine.response status reason).line.drop 5 =
    str "1.1" ++ ' ' :: (Nat.toDigits 10 status ++ ' ' :: reason) := rfl
  rw [rest, splitWhitespace_cons (by decide) (by decide), splitWhitespace_cons nonempty bare]

theorem return_not_mem_start {start : StartLine} (wellFormed : start.WellFormed) :
    start.line ≠ [] ∧ '\r' ∉ start.line := by
  have bare : ∀ text : Str, (∀ c ∈ text, isWhitespace c = false) → '\r' ∉ text :=
    fun text plain member => absurd (plain _ member) (by decide)
  cases start with
  | request method target =>
    obtain ⟨known, -, plain⟩ := wellFormed
    have method_plain := bare method (bare_of_isHttpMethod known).2
    have version : '\r' ∉ str "HTTP/1.1" := by decide
    simp [StartLine.line, method_plain, bare target plain, version]
  | response status reason =>
    obtain ⟨atLeast, atMost, -, plain, -⟩ := wellFormed
    have digits := bare _ (parseI32_toDigits atLeast atMost).2.2
    have version : '\r' ∉ str "HTTP/1.1" := by decide
    simp [StartLine.line, plain, digits, version]

section

variable (wellFormed : m.WellFormed P)
include wellFormed

theorem lines_plain : ∀ line ∈ m.lines, line ≠ [] ∧ '\r' ∉ line := by
  refine List.forall_mem_cons.mpr ⟨return_not_mem_start wellFormed.start, ?_⟩
  intro line member
  obtain ⟨field, listed, rfl⟩ := List.mem_map.mp member
  exact ⟨field.line_ne_nil, Field.return_not_mem_line (wellFormed.fields field listed)⟩

/-- A message that may have a body is framed by its fields. -/
theorem bodyFraming_fields (fits : m.body.data.length < 2 ^ 64) {isRequest : Bool}
    (kind : m.body = .absent → isRequest = true ∧
      ∃ method target, m.start = .request method target) :
    bodyFraming (parsedHeaders P m.fields) isRequest = .ok m.body.framing := by
  have framed := wellFormed.framed
  unfold Framed at framed
  cases body : m.body with
  | absent =>
    obtain ⟨rfl, method, target, start⟩ := kind body
    rw [body, start] at framed
    exact bodyFraming_absent wellFormed.fields framed.1 framed.2
  | sized data =>
    rw [body] at framed fits
    obtain ⟨-, codings, text, lengths, parsed⟩ := framed
    exact bodyFraming_sized wellFormed.fields codings lengths parsed fits
  | chunked chunks last trailers =>
    rw [body] at framed
    obtain ⟨-, lengths, others, final, codings, ends⟩ := framed
    exact bodyFraming_chunked wellFormed.fields lengths codings ends

/-- A response has no body exactly if its status says so. -/
theorem absent_iff_bodyless {status : Nat} {reason : Str}
    (start : m.start = .response status reason) : m.body = .absent ↔ bodyless status = true := by
  have framed := wellFormed.framed
  unfold Framed at framed
  cases body : m.body <;> simp [body, start, StartLine.mayHaveBody] at framed ⊢
  all_goals simp [framed]

theorem parseHead_head (fits : m.body.data.length < 2 ^ 64) :
    parseHead P (utf8 m.head) false false = .ok (m.parsed P, m.body.framing) := by
  have lines : splitCrlf m.head = m.start.line :: (m.fields.map Field.line ++ [[], []]) :=
    splitCrlf_block fun line member => (lines_plain wellFormed line member).2
  have startWellFormed := wellFormed.start
  unfold parseHead
  rw [fromUtf8_utf8]
  dsimp only
  rw [lines, List.headD_cons, List.tail_cons, ← parsedHeaders]
  cases start : m.start with
  | request method target =>
    rw [start] at startWellFormed
    obtain ⟨notResponse, words⟩ := words_request startWellFormed
    have framing := bodyFraming_fields wellFormed fits fun _ => ⟨rfl, method, target, start⟩
    have version : (str "HTTP/1.").isPrefixOf (str "HTTP/1.1") = true := by decide
    rw [notResponse, words]
    simp only [Bool.false_eq_true, if_false, List.headD_cons, List.tail_cons, List.head?_cons,
      startWellFormed.1, version, Bool.not_true, Bool.or_self, framing]
    simp only [parsed, start]
  | response status reason =>
    rw [start] at startWellFormed
    obtain ⟨isResponse, words⟩ := words_response startWellFormed
    obtain ⟨atLeast, atMost, notSwitching, -⟩ := startWellFormed
    have number := (parseI32_toDigits atLeast atMost).1
    have absent := absent_iff_bodyless wellFormed start
    rw [isResponse, words]
    simp only [if_true, List.tail_cons, List.head?_cons, Option.bind_some, number]
    rw [if_neg (by simp; omega), if_neg (by simp; omega)]
    split_ifs with none
    · have isBodyless : bodyless status = true := by
        simp [bodyless] at none ⊢
        omega
      rw [absent.mpr isBodyless]
      simp only [parsed, start, WireBody.framing]
    · have framing : bodyFraming (parsedHeaders P m.fields) false = .ok m.body.framing := by
        refine bodyFraming_fields wellFormed fits fun body => ?_
        have isBodyless := absent.mp body
        simp [bodyless] at none isBodyless
        omega
      rw [framing]
      simp only [parsed, start]

end

end WireMessage

end ApiSensor
