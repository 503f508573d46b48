import ApiSensor.Multiplexing.Slots
import ApiSensor.Stream.Runs

/-!
# Header blocks on a stream with a request

Trailers of the client carry no `:method` and leave the pending request alone.  A block that makes a
request of its own takes its place, or drops it if the new one is refused.
-/

namespace ApiSensor

open Library Prog

variable {P : Platform}

/-- The same method, path, host and headers. -/
def ParsedRequest.SameHead (req other : ParsedRequest) : Prop :=
  req.method = other.method ∧ req.path = other.path ∧ req.host = other.host ∧
    req.headers = other.headers

/-- The block has a method, and `is_usable_http_request` accepts it with the path. -/
def usableBlock (headers : Headers) : Bool :=
  (headers.get? (str ":method")).any fun method =>
    isUsableHttpRequest method ((headers.get? (str ":path")).getD (str "/"))

theorem isSome_requestOf (env : Env) (ev : TlsEventHeader) (headers : Headers) :
    (Http2Conn.requestOf env ev headers).isSome = usableBlock headers := by
  unfold Http2Conn.requestOf usableBlock
  cases headers.get? (str ":method") with
  | none => rfl
  | some method =>
    rw [Option.bind_some, Option.any_some]
    dsimp only
    split
    · rename_i usable
      exact usable.symm
    · rename_i unusable
      exact (Bool.eq_false_iff.mpr unusable).symm

/-- The ceiling can refuse a request; the one it was to replace is gone. -/
theorem PendingStreams.outcome_insert_refused (streams : PendingStreams P) (streamId : UInt32)
    (req : ParsedRequest) (maxTotal cap : Nat) :
    ∃ log, Outcome (insert streams streamId req maxTotal cap) log
      (false, streams.without streamId) := by
  have refused : ∃ log, Outcome (insertNew (streams.without streamId) streamId req.capped maxTotal
      cap (streams.weightAt_without streamId)) log (false, streams.without streamId) := by
    unfold insertNew
    split
    · exact ⟨_, .log (.log (.done _))⟩
    · exact ⟨_, .reserve false (.log (.log (.done _)))⟩
  obtain ⟨log, outcome⟩ := refused
  exact ⟨_, outcome_bind.mpr ⟨_, _, _, outcome_run _ 0, outcome, rfl⟩⟩

namespace Http2Conn

/-- A further header block of the client leaves the pending request of its stream as it is, whatever
the ceiling answers, exactly if it makes no usable request. -/
theorem request_kept_iff_unusable (C : Config) (call : Call) (conn : Http2Conn P)
    (streamId : UInt32) (headers : Headers) (endStream : Bool) {req : ParsedRequest}
    (client : call.isRequestDir = true)
    (pending : conn.pendingRequests.map.get? streamId = some req) :
    Sat (conn.onItem C call (.headers streamId headers endStream)) (fun _ result =>
        ∃ kept, result.1.pendingRequests.map.get? streamId = some kept ∧ kept.SameHead req) ↔
      usableBlock headers = false := by
  unfold onItem
  dsimp only
  rw [if_pos client, requestHeaders_eq, ← isSome_requestOf call.env call.ev]
  cases requestOf call.env call.ev headers with
  | none =>
    refine iff_of_true (sat_pure.mpr ?_) rfl
    exact ⟨req, pending, rfl, rfl, rfl, rfl⟩
  | some made =>
    refine iff_of_false (fun kept => ?_) (fun none => absurd none.symm Bool.false_ne_true)
    -- the outcome in which the new request is refused
    obtain ⟨log, refused⟩ := PendingStreams.outcome_insert_refused conn.pendingRequests streamId
      made C.maxTotalBufferBytes maxH2PendingStreams
    obtain ⟨other, found, -⟩ := kept _ _ (outcome_bind.mpr ⟨_, _, _, refused, .done _, rfl⟩)
    have gone : (conn.pendingRequests.without streamId).map.get? streamId = none :=
      Dict.get?_erase_self _ _
    rw [gone] at found
    cases found

/-- A pending request for `/`. -/
def pendingGet : ParsedRequest where
  method := str "GET"
  path := str "/"
  host := none
  headers := .empty
  tsMs := 100
  netCtx := {}
  body := []

/-- A connection on which stream 1 waits for its response. -/
def waitingConn : Http2Conn asciiPlatform :=
  { new with pendingRequests := Charged.empty.put 1 pendingGet _ (Nat.zero_add _).symm }

/-- The call for a chunk of the first connection. -/
def chunkCall (direction : UInt8) : Call :=
  ⟨atTime 101, onConnection 0x1000 direction, firstKey, direction = 0⟩

theorem request_kept_by_trailers :
    Sat (waitingConn.onItem (serverConfig 65536) (chunkCall 0)
        (.headers 1 (Dict.empty.insert (str "x-checksum") (str "1")) true)) fun _ result =>
      ∃ kept, result.1.pendingRequests.map.get? 1 = some kept ∧ kept.SameHead pendingGet :=
  (request_kept_iff_unusable (serverConfig 65536) (chunkCall 0) waitingConn 1
    (Dict.empty.insert (str "x-checksum") (str "1")) true rfl (by decide +kernel)).mpr
    (by decide +kernel)

end Http2Conn

/-! ## A request that is rewritten -/

/-- An HPACK decoder for a few entries of the static table. -/
def indexedHpack : HpackCrate where
  State := Unit
  init := ()
  decode := fun _ block =>
    (some (some (block.filterMap fun byte =>
      if byte = 0x82 then some (bytes ":method", bytes "GET")
      else if byte = 0x83 then some (bytes ":method", bytes "POST")
      else if byte = 0x84 then some (bytes ":path", bytes "/")
      else if byte = 0x85 then some (bytes ":path", bytes "/index.html")
      else if byte = 0x88 then some (bytes ":status", bytes "200")
      else if byte = 0x9F then some (bytes "content-type", [])
      else none)), ())

def indexedPlatform : Platform := { asciiPlatform with hpack := indexedHpack }

/-- A HEADERS frame with a complete block. -/
def headersFrameOn (streamId : UInt8) (endStream : Bool) (block : Bytes) : Bytes :=
  [0, 0, UInt8.ofNat block.length, 1, if endStream then 5 else 4, 0, 0, 0, streamId] ++ block

/-- The client asks for `/` and then sends a second block on the same stream, which has a method as
well.  The response to the first is reported as the response to the second. -/
theorem request_rewritten_by_second_block :
    let frames := http2ConnectionPreface ++ headersFrameOn 1 false [0x82, 0x84] ++
      headersFrameOn 1 true [0x83, 0x85]
    let ops := [.event (atTime 100) (onConnection 0x1000 0) frames,
      .event (atTime 101) (onConnection 0x1000 1) (headersFrameOn 1 true [0x88])]
    let trace := (StreamState.exec (serverConfig 65536) ops
      (StreamState.new (P := indexedPlatform)) 0).1
    (trace.flatMap fun entry => entry.2.events).map (fun event =>
      (event.request.method, event.request.path)) = [(str "POST", str "/index.html")] := by
  decide +kernel

end ApiSensor
