import ApiSensor.Types

/-!
# WebSocket frames and MCP content

`websocket.rs` and `mcp.rs`: the frame parser used to skip WebSocket traffic, and the detection of
JSON-RPC calls in requests and server-sent events.
-/

namespace ApiSensor

open Library

structure WsFrame where
  fin : Bool
  opcode : UInt8
  payloadLen : Nat
  payload : Bytes
  deriving DecidableEq

/-- The bytes with the four-byte mask removed. -/
def unmask (mask data : Bytes) : Bytes :=
  data.zipIdx.map fun (byte, i) => byte ^^^ mask.getD (i % 4) 0

/-- Header length and payload length announced by the second byte. -/
def wsLengths (buf : Bytes) : Option (Nat × Nat) :=
  let len7 := (buf.getD 1 0).toNat % 128
  if len7 = 126 then
    if buf.length < 4 then none else some (4, fromBeBytes ((buf.drop 2).take 2))
  else if len7 = 127 then
    if buf.length < 10 then none else some (10, fromBeBytes ((buf.drop 2).take 8))
  else some (2, len7)

/-- The frame at the start of the buffer and its full length, which may exceed the buffer. -/
def parseWebsocketFrame (buf : Bytes) : Option (WsFrame × Nat) :=
  if buf.length < 2 then none
  else
    match wsLengths buf with
    | none => none
    | some (maskStart, payloadLen) =>
      let masked := buf.getD 1 0 &&& 0x80 != 0
      let dataStart := if masked then maskStart + 4 else maskStart
      let totalLen := dataStart + payloadLen
      if 2 ^ 64 ≤ totalLen || buf.length < dataStart then none
      else
        let available := min (buf.length - dataStart) (min payloadLen 4096)
        let data := (buf.drop dataStart).take available
        let payload := if masked then unmask ((buf.drop maskStart).take 4) data else data
        some (⟨buf.getD 0 0 &&& 0x80 != 0, buf.getD 0 0 &&& 0x0F, payloadLen, payload⟩, totalLen)

/-! ## MCP -/

structure McpEvent where
  method : Option Str
  id : Option Json
  toolName : Option Str
  hasInjection : Bool
  permissionFlags : List Str

/-- `Value::get` with a string key. -/
def Json.get (value : Json) (key : String) : Option Json :=
  match value with
  | .object members => (members.find? fun member => member.1 = str key).map Prod.snd
  | _ => none

/-- `Value::as_str`. -/
def Json.asStr : Json → Option Str
  | .string value => some value
  | _ => none

def injectionPatterns : List String :=
  ["ignore previous instructions", "ignore all previous", "you are now", "disregard the above",
    "system prompt", "jailbreak", "act as", "\n\nhuman:", "\n\nassistant:", "<|im_start|>",
    "[inst]"]

def permissionKeywords : List String :=
  ["execute", "admin", "root", "sudo", "chmod", "write", "delete", "drop", "truncate", "shell",
    "cmd", "bash", "system", "eval", "exec", "spawn"]

def analyseJsonrpc (P : Platform) (val : Json) : Option McpEvent :=
  if (val.get "jsonrpc").bind Json.asStr ≠ some (str "2.0") then none
  else
    let text := P.toLowercase (P.jsonToString val)
    some
      { method := (val.get "method").bind Json.asStr
        id := val.get "id"
        toolName := ((val.get "params").bind (·.get "name")).bind Json.asStr
        hasInjection := injectionPatterns.any fun pattern => strContains text (str pattern)
        permissionFlags := (permissionKeywords.map str).filter (strContains text) }

/-- The event, if any, of one line of a server-sent event stream. -/
def sseLineEvent (P : Platform) (line : Str) : Option McpEvent :=
  let marker := str "data: "
  if !marker.isPrefixOf line then none
  else
    let data := trim (line.drop marker.length)
    if data.isEmpty || data = str "[DONE]" then none
    else (P.jsonFromStr data).bind (analyseJsonrpc P)

def parseSseEvents (P : Platform) (body : Bytes) : List McpEvent :=
  match fromUtf8 body with
  | none => []
  | some text => (lines text).filterMap (sseLineEvent P)

def parseJsonrpcRequest (P : Platform) (body : Bytes) : List McpEvent :=
  match P.jsonFromSlice body with
  | none => []
  | some val =>
    let calls := match val with
      | .array items => items
      | other => [other]
    (calls.filter fun call => ((call.get "method").bind Json.asStr).isSome).filterMap
      (analyseJsonrpc P)

def isMcpResponse (headers : Headers) : Bool :=
  (headers.get? (str "content-type")).any fun contentType =>
    strContains contentType (str "text/event-stream")

end ApiSensor
