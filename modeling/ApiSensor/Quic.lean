import ApiSensor.Types

/-!
# HTTP/3 detection and header extraction

`quic.rs`: variable-length integers, HTTP/3 frames, QPACK with the static table only, and the
heuristic that decides whether a payload is HTTP/3.
-/

namespace ApiSensor

open Library

/-- Decode a QUIC variable-length integer: the value and the bytes it takes. -/
def decodeVarint : Bytes → Option (Nat × Nat)
  | [] => none
  | first :: rest =>
    let len := 2 ^ (first.toNat / 64)
    if (first :: rest).length < len then none
    else
      some ((rest.take (len - 1)).foldl (fun val byte => val * 256 + byte.toNat)
        (first.toNat % 64), len)

def h3Data : Nat := 0x00

def h3Headers : Nat := 0x01

def h3CancelPush : Nat := 0x03

def h3Settings : Nat := 0x04

def h3PushPromise : Nat := 0x05

def h3Goaway : Nat := 0x07

structure H3Frame where
  frameType : Nat
  payload : Bytes

def parseH3Frame (buf : Bytes) : Option (H3Frame × Nat) :=
  match decodeVarint buf with
  | none => none
  | some (frameType, typeLen) =>
    match decodeVarint (buf.drop typeLen) with
    | none => none
    | some (payloadLen, lenLen) =>
      let headerLen := typeLen + lenLen
      if buf.length < headerLen + payloadLen then none
      else some (⟨frameType, (buf.drop headerLen).take payloadLen⟩, headerLen + payloadLen)

/-- The loop of `parse_h3_frames`; a frame takes at least two bytes. -/
def h3FrameLoop : Nat → Bytes → List H3Frame
  | 0, _ => []
  | fuel + 1, rest =>
    if rest.isEmpty then []
    else
      match parseH3Frame rest with
      | none => []
      | some (frame, consumed) => frame :: h3FrameLoop fuel (rest.drop consumed)

def parseH3Frames (buf : Bytes) : List H3Frame := h3FrameLoop buf.length buf

/-! ## QPACK -/

def qpackStaticTable : List (String × String) :=
  [(":authority", ""), (":path", "/"), ("age", "0"), ("content-disposition", ""),
   ("content-length", "0"), ("cookie", ""), ("date", ""), ("etag", ""), ("if-modified-since", ""),
   ("if-none-match", ""), ("last-modified", ""), ("link", ""), ("location", ""), ("referer", ""),
   ("set-cookie", ""), (":method", "CONNECT"), (":method", "DELETE"), (":method", "GET"),
   (":method", "HEAD"), (":method", "OPTIONS"), (":method", "POST"), (":method", "PUT"),
   (":scheme", "http"), (":scheme", "https"), (":status", "103"), (":status", "200"),
   (":status", "304"), (":status", "404"), (":status", "503"), ("accept", "*/*"),
   ("accept", "application/dns-message"), ("accept-encoding", "gzip, deflate, br"),
   ("accept-ranges", "bytes"), ("access-control-allow-headers", "cache-control"),
   ("access-control-allow-headers", "content-type"), ("access-control-allow-origin", "*"),
   ("cache-control", "max-age=0"), ("cache-control", "max-age=2592000"),
   ("cache-control", "max-age=604800"), ("cache-control", "no-cache"),
   ("cache-control", "no-store"), ("cache-control", "public, max-age=31536000"),
   ("content-encoding", "br"), ("content-encoding", "gzip"),
   ("content-type", "application/dns-message"), ("content-type", "application/javascript"),
   ("content-type", "application/json"), ("content-type", "application/x-www-form-urlencoded"),
   ("content-type", "image/gif"), ("content-type", "image/jpeg"), ("content-type", "image/png"),
   ("content-type", "text/css"), ("content-type", "text/html; charset=utf-8"),
   ("content-type", "text/plain"), ("content-type", "text/plain;charset=utf-8"),
   ("range", "bytes=0-"), ("strict-transport-security", "max-age=31536000"),
   ("strict-transport-security", "max-age=31536000; includesubdomains"),
   ("strict-transport-security", "max-age=31536000; includesubdomains; preload"),
   ("vary", "accept-encoding"), ("vary", "origin"), ("x-content-type-options", "nosniff"),
   ("x-xss-protection", "1; mode=block"), (":status", "100"), (":status", "204"),
   (":status", "206"), (":status", "302"), (":status", "400"), (":status", "403"),
   (":status", "421"), (":status", "425"), (":status", "500"), ("accept-language", ""),
   ("access-control-allow-credentials", "FALSE"), ("access-control-allow-credentials", "TRUE"),
   ("access-control-allow-headers", "*"), ("access-control-allow-methods", "get"),
   ("access-control-allow-methods", "get, post, options"),
   ("access-control-allow-methods", "options"),
   ("access-control-expose-headers", "content-length"),
   ("access-control-request-headers", "content-type"), ("access-control-request-method", "get"),
   ("access-control-request-method", "post"), ("alt-svc", "clear"), ("authorization", ""),
   ("content-security-policy", "script-src 'none'; object-src 'none'; base-uri 'none'"),
   ("early-data", "1"), ("expect-ct", ""), ("forwarded", ""), ("if-range", ""), ("origin", ""),
   ("purpose", "prefetch"), ("server", ""), ("timing-allow-origin", "*"),
   ("upgrade-insecure-requests", "1"), ("user-agent", ""), ("x-forwarded-for", ""),
   ("x-frame-options", "deny"), ("x-frame-options", "sameorigin")]

/-- The loop of `decode_prefix_int` over the octets after a full prefix. -/
def decodePrefixIntMore (val m count : Nat) : Bytes → Option (Nat × Nat)
  | [] => none
  | byte :: rest =>
    let val := val + (byte.toNat % 128) * 2 ^ m
    if byte < 0x80 then some (val, count + 1)
    else if 56 < m + 7 then none
    else decodePrefixIntMore val (m + 7) (count + 1) rest

def decodePrefixInt (buf : Bytes) (prefixBits : Nat) : Option (Nat × Nat) :=
  match buf with
  | [] => none
  | byte :: rest =>
    let mask := 2 ^ prefixBits - 1
    let val := byte.toNat % 2 ^ prefixBits
    if val < mask then some (val, 1) else decodePrefixIntMore val 0 1 rest

/-- `decode_string`.  The Huffman bit changes nothing: both branches decode the raw bytes. -/
def decodeString (buf : Bytes) (prefixBits : Nat) : Option (Str × Nat) :=
  match decodePrefixInt buf prefixBits with
  | none => none
  | some (len, start) =>
    if buf.length < start + len then none
    else some (fromUtf8Lossy ((buf.drop start).take len), start + len)

/-- One round of the loop of `decode_qpack_headers`: the headers and the bytes consumed, or the
end of the loop. -/
def qpackField (P : Platform) (headers : Headers) (byte : UInt8) (rest : Bytes) :
    Option (Headers × Nat) :=
  if byte &&& 0x80 ≠ 0 then
    match decodePrefixInt rest 6 with
    | none => none
    | some (idx, consumed) =>
      match if byte &&& 0x40 ≠ 0 then qpackStaticTable[idx]? else none with
      | some (name, value) => some (headers.insert (str name) (str value), consumed)
      | none => some (headers, consumed)
  else if byte &&& 0x40 ≠ 0 then
    match decodePrefixInt rest 4 with
    | none => none
    | some (idx, start) =>
      match decodeString (rest.drop start) 7 with
      | none => none
      | some (value, consumed) =>
        match if byte &&& 0x10 ≠ 0 then qpackStaticTable[idx]? else none with
        | some (name, _) => some (headers.insert (str name) value, start + consumed)
        | none => some (headers, start + consumed)
  else if byte &&& 0x20 ≠ 0 then
    -- the source reads the name from the byte after the instruction
    match decodeString (rest.drop 1) 3 with
    | none => some (headers, 1)
    | some (name, nameLen) =>
      match decodeString (rest.drop (1 + nameLen)) 7 with
      | none => none
      | some (value, consumed) =>
        some (headers.insert (P.toLowercase name) value, 1 + nameLen + consumed)
  else some (headers, 1)

/-- The loop of `decode_qpack_headers`; every round consumes at least one byte. -/
def qpackLoop (P : Platform) : Nat → Headers → Bytes → Headers
  | 0, headers, _ => headers
  | _ + 1, headers, [] => headers
  | fuel + 1, headers, byte :: more =>
    match qpackField P headers byte (byte :: more) with
    | none => headers
    | some (headers', consumed) => qpackLoop P fuel headers' ((byte :: more).drop consumed)

def decodeQpackHeaders (P : Platform) (buf : Bytes) : Headers :=
  if buf.length < 2 then .empty
  else
    match decodePrefixInt buf 8 with
    | none => .empty
    | some (_, ricLen) =>
      if buf.length ≤ ricLen then .empty
      else
        match decodePrefixInt (buf.drop ricLen) 7 with
        | none => .empty
        | some (_, dbLen) => qpackLoop P buf.length .empty (buf.drop (ricLen + dbLen))

/-! ## Detection -/

def looksLikeHttp3 (buf : Bytes) : Bool :=
  if buf.length < 2 then false
  else
    match decodeVarint buf with
    | none => false
    | some (frameType, typeLen) =>
      match decodeVarint (buf.drop typeLen) with
      | none => false
      | some (payloadLen, _) =>
        [h3Data, h3Headers, h3Settings, h3Goaway, h3CancelPush, h3PushPromise].contains
          frameType && payloadLen < 1000000

def extractH3Headers (P : Platform) (buf : Bytes) : List Headers :=
  (parseH3Frames buf).filterMap fun frame =>
    if frame.frameType = h3Headers then
      let headers := decodeQpackHeaders P frame.payload
      if headers.size = 0 then none else some headers
    else none

end ApiSensor
