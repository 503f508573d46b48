import ApiSensor.Types

/-!
# HTTP/1 parsing

`http.rs`: header parsing, body framing and the incremental per-direction decoder.  One turn of the
decoder's loop is `Http1State.turn`; `Http1Decoder.feed` repeats turns until one of them returns.
-/

namespace ApiSensor

open Library

def maxHttp1HeaderBytes : Nat := 64 * 1024

def maxChunkLine : Nat := 1024

def isHttpMethod (method : Str) : Bool :=
  [str "GET", str "POST", str "PUT", str "PATCH", str "DELETE", str "HEAD", str "OPTIONS",
    str "TRACE", str "CONNECT"].contains method

def isUsableHttpRequest (method path : Str) : Bool := isHttpMethod method && !path.isEmpty

/-! ## Header blocks -/

/-- Add one field line; a repeated field is combined with what is there. -/
def combineHeader (P : Platform) (headers : Headers) (name value : Str) : Headers :=
  let key := P.toLowercase (trim name)
  let text := trim value
  match headers.get? key with
  | some existing =>
    headers.insert key (existing ++ (if key = str "set-cookie" then str "\n" else str ", ") ++ text)
  | none => headers.insert key text

/-- The loop of `parse_headers`: field lines up to the first empty line. -/
def parseHeadersInto (P : Platform) (headers : Headers) : List Str → Headers
  | [] => headers
  | line :: lines =>
    if line.isEmpty then headers
    else
      match splitOnce ':' line with
      | some (name, value) => parseHeadersInto P (combineHeader P headers name value) lines
      | none => parseHeadersInto P headers lines

def parseHeaders (P : Platform) (lines : List Str) : Headers := parseHeadersInto P .empty lines

/-- `Framing`: how the body of a message is delimited. -/
inductive Framing where
  | none
  | fixed (length : Nat)
  | chunked
  | untilClose
  | upgrade
  deriving DecidableEq

/-- The loop over the comma-separated parts of `Content-Length`. -/
def contentLength : Option Nat → List Str → Except Str (Option Nat)
  | value, [] => .ok value
  | value, part :: parts =>
    match parseU64 10 (trim part) with
    | none => .error (str "invalid content-length")
    | some n =>
      if value.any (· ≠ n) then .error (str "conflicting content-length")
      else contentLength (some n) parts

def bodyFraming (headers : Headers) (isRequest : Bool) : Except Str Framing :=
  let te := headers.get? (str "transfer-encoding")
  let cl := headers.get? (str "content-length")
  if te.isSome && cl.isSome then .error (str "both transfer-encoding and content-length")
  else
    match te, cl with
    | some te, _ =>
      let last := toAsciiLowercase (trim ((split ',' te).getLastD []))
      if last = str "chunked" then .ok .chunked
      else if isRequest then .error (str "request transfer-encoding without final chunked")
      else .ok .untilClose
    | none, some cl =>
      match contentLength none (split ',' cl) with
      | .error reason => .error reason
      | .ok value => .ok (.fixed (value.getD 0))
    | none, none => .ok (if isRequest then .none else .untilClose)

/-- `parse_head`.  The two flags describe the request that the next response answers. -/
def parseHead (P : Platform) (head : Bytes) (responseToHead responseToConnect : Bool) :
    Except Str (HttpMessage × Framing) :=
  match fromUtf8 head with
  | none => .error (str "non-UTF-8 header block")
  | some text =>
    let lines := splitCrlf text
    let first := lines.headD []
    let fields := lines.tail
    if (str "HTTP/").isPrefixOf first then
      let parts := splitWhitespace (first.drop 5)
      match parts.tail.head?.bind parseI32 with
      | none => .error (str "bad status line")
      | some status =>
        if status < 100 || 999 < status then .error (str "bad status code")
        else
          let headers := parseHeaders P fields
          let message := HttpMessage.response ⟨status, headers, []⟩
          if status = 101 || (responseToConnect && 200 ≤ status && status < 300) then
            .ok (message, .upgrade)
          else if (100 ≤ status && status < 200) || status = 204 || status = 304 ||
              responseToHead then
            .ok (message, .none)
          else
            match bodyFraming headers false with
            | .error reason => .error reason
            | .ok framing => .ok (message, framing)
    else
      let parts := splitWhitespace first
      let method := parts.headD []
      match parts.tail.head? with
      | none => .error (str "missing request target")
      | some path =>
        let version := parts.tail.tail.headD []
        if !isHttpMethod method || !(str "HTTP/1.").isPrefixOf version then
          .error (str "not an HTTP/1 request line")
        else
          let headers := parseHeaders P fields
          match bodyFraming headers true with
          | .error reason => .error reason
          | .ok framing =>
            .ok (.request ⟨method, path, headers.get? (str "host"), headers, []⟩, framing)

/-! ## The decoder -/

structure Http1Message where
  msg : HttpMessage
  /-- Body bytes seen on the wire. -/
  bodyTotal : Nat
  /-- The retained body is shorter than `bodyTotal`. -/
  bodyTruncated : Bool
  /-- The message ended before its framing said it should. -/
  isPartial : Bool
  deriving DecidableEq

inductive Http1Item where
  | message (m : Http1Message)
  | invalid (reason : Str)
  deriving DecidableEq

/-- `Body`: position inside a framed body. -/
inductive Body where
  | fixed (remaining : Nat)
  | chunkSize
  | chunkData (remaining : Nat)
  | chunkCrlf
  | trailers
  deriving DecidableEq

inductive Http1State where
  | head
  | body (pending : Http1Message) (position : Body)
  | upgraded
  | untilClose
  deriving DecidableEq

structure Http1Decoder where
  state : Http1State
  previewCap : Nat
  deriving DecidableEq

def Http1Decoder.new (previewCap : Nat) : Http1Decoder := ⟨.head, previewCap⟩

def Http1Decoder.isIdle (decoder : Http1Decoder) : Bool := decoder.state = .head

/-- The body kept so far. -/
def HttpMessage.body : HttpMessage → Bytes
  | .request req => req.body
  | .response resp => resp.body

def HttpMessage.appendBody (more : Bytes) : HttpMessage → HttpMessage
  | .request req => .request { req with body := req.body ++ more }
  | .response resp => .response { resp with body := resp.body ++ more }

/-- Update the headers of a message. -/
def HttpMessage.mapHeaders (update : Headers → Headers) : HttpMessage → HttpMessage
  | .request req => .request { req with headers := update req.headers }
  | .response resp => .response { resp with headers := update resp.headers }

/-- `Http1Decoder::preview`: count all bytes, keep those that fit under the cap. -/
def Http1Message.preview (previewCap : Nat) (m : Http1Message) (more : Bytes) : Http1Message :=
  let room := previewCap - m.msg.body.length
  { m with
    msg := m.msg.appendBody (more.take room)
    bodyTotal := min (m.bodyTotal + more.length) (2 ^ 64 - 1)
    bodyTruncated := m.bodyTruncated || room < more.length }

/-- Join a trailer field to the headers unless the name is there already. -/
def Http1Message.addTrailer (P : Platform) (m : Http1Message) (line : Bytes) : Http1Message :=
  match (fromUtf8 line).bind (splitOnce ':') with
  | none => m
  | some (name, value) =>
    let key := P.toLowercase (trim name)
    { m with
      msg := m.msg.mapHeaders fun headers =>
        if headers.contains key then headers else headers.insert key (trim value) }

/-- The size a chunk-size line announces. -/
def chunkSize? (line : Bytes) : Option Nat :=
  let hex := trim ((split ';' ((fromUtf8 line).getD [])).headD [])
  (parseU64 16 hex).filter fun _ => !hex.isEmpty && strLen hex ≤ 16

/-- One turn of the decoding loop: go on with a new state and the bytes not yet consumed, or
return them to the caller. -/
inductive Turn where
  | next (state : Http1State) (rest : Bytes) (items : List Http1Item)
  | stop (state : Http1State) (rest : Bytes) (items : List Http1Item)

/-- Framing cannot be parsed: report it and consume everything. -/
def Turn.invalid (reason : String) : Turn := .stop .head [] [.invalid (str reason)]

/-- The turn taken after a complete header block. -/
def turnAfterHead (previewCap : Nat) (msg : HttpMessage) (rest : Bytes) : Framing → Turn
  | .none => .next .head rest [.message ⟨msg, 0, false, false⟩]
  | .upgrade => .stop .upgraded [] [.message ⟨msg, 0, false, false⟩]
  | .fixed 0 => .next .head rest [.message ⟨msg, 0, false, false⟩]
  | .fixed length => .next (.body ⟨msg, 0, false, false⟩ (.fixed length)) rest []
  | .chunked => .next (.body ⟨msg, 0, false, false⟩ .chunkSize) rest []
  | .untilClose =>
    .stop .untilClose []
      [.message ⟨msg.appendBody (rest.take previewCap), rest.length,
        min rest.length previewCap < rest.length, true⟩]

/-- The body of the loop of `Http1Decoder::feed`. -/
def Http1State.turn (P : Platform) (previewCap : Nat) (responseToHead responseToConnect : Bool) :
    Http1State → Bytes → Turn
  | .upgraded, _ => .stop .upgraded [] []
  | .untilClose, _ => .stop .untilClose [] []
  | .head, rest =>
    match position (bytes "\r\n\r\n") rest with
    | none =>
      if maxHttp1HeaderBytes < rest.length then .invalid "header block too large"
      else .stop .head rest []
    | some end_ =>
      match parseHead P (rest.take (end_ + 4)) responseToHead responseToConnect with
      | .error reason => .stop .head [] [.invalid reason]
      | .ok (msg, framing) => turnAfterHead previewCap msg (rest.drop (end_ + 4)) framing
  | .body pending (.fixed remaining), rest =>
    let pending := pending.preview previewCap (rest.take remaining)
    if remaining ≤ rest.length then .next .head (rest.drop remaining) [.message pending]
    else .stop (.body pending (.fixed (remaining - rest.length))) [] []
  | .body pending .chunkSize, rest =>
    match position (bytes "\r\n") rest with
    | none =>
      if maxChunkLine < rest.length then .invalid "chunk size line too long"
      else .stop (.body pending .chunkSize) rest []
    | some eol =>
      match chunkSize? (rest.take eol) with
      | none => .invalid "bad chunk size"
      | some 0 => .next (.body pending .trailers) (rest.drop (eol + 2)) []
      | some size => .next (.body pending (.chunkData size)) (rest.drop (eol + 2)) []
  | .body pending (.chunkData remaining), rest =>
    let pending := pending.preview previewCap (rest.take remaining)
    if remaining ≤ rest.length then .next (.body pending .chunkCrlf) (rest.drop remaining) []
    else .stop (.body pending (.chunkData (remaining - rest.length))) [] []
  | .body pending .chunkCrlf, rest =>
    if rest.length < 2 then .stop (.body pending .chunkCrlf) rest []
    else if rest.take 2 ≠ bytes "\r\n" then .invalid "missing CRLF after chunk"
    else .next (.body pending .chunkSize) (rest.drop 2) []
  | .body pending .trailers, rest =>
    match position (bytes "\r\n") rest with
    | none =>
      if maxHttp1HeaderBytes < rest.length then .invalid "trailers too large"
      else .stop (.body pending .trailers) rest []
    | some 0 => .next .head (rest.drop 2) [.message pending]
    | some eol =>
      .next (.body (pending.addTrailer P (rest.take eol)) .trailers) (rest.drop (eol + 2)) []

/-- The loop of `Http1Decoder::feed`.  Two turns in a row cannot both consume nothing, so twice the
number of bytes is enough fuel. -/
def feedLoop (P : Platform) (previewCap : Nat) (responseToHead responseToConnect : Bool) :
    Nat → Http1State → Bytes → Http1State × Bytes × List Http1Item
  | 0, state, rest => (state, rest, [])
  | fuel + 1, state, rest =>
    match state.turn P previewCap responseToHead responseToConnect rest with
    | .stop state' rest' items => (state', rest', items)
    | .next state' rest' items =>
      if rest'.isEmpty && state' = .head then (state', rest', items)
      else
        let (final, left, more) :=
          feedLoop P previewCap responseToHead responseToConnect fuel state' rest'
        (final, left, items ++ more)

/-- `Http1Decoder::feed`: the decoder afterwards, the bytes consumed, and the completed items. -/
def Http1Decoder.feed (P : Platform) (decoder : Http1Decoder) (buf : Bytes)
    (responseToHead responseToConnect : Bool) : Http1Decoder × Nat × List Http1Item :=
  let (state, rest, items) :=
    feedLoop P decoder.previewCap responseToHead responseToConnect (2 * buf.length + 2)
      decoder.state buf
  ({ decoder with state }, buf.length - rest.length, items)

end ApiSensor
