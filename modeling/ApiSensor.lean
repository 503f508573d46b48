import ApiSensor.Dispatch
import ApiSensor.CloseProtocol
import ApiSensor.Decoding.Hpack
import ApiSensor.Multiplexing.Pairing
import ApiSensor.Gaps.Sequence
import ApiSensor.Gaps.Truncation
import ApiSensor.Pipelining
import ApiSensor.Removal
import ApiSensor.Roles
import ApiSensor.Stream.Isolation
import ApiSensor.Idle
import ApiSensor.Ingest
import ApiSensor.Scope
import ApiSensor.Multiplexing.GoAway
import ApiSensor.Multiplexing.Bodies
import ApiSensor.Trailers
import ApiSensor.Decoding.Limits
import ApiSensor.Export
import ApiSensor.Query
import ApiSensor.Redaction.Headers
import ApiSensor.Redaction.Cap
import ApiSensor.Redaction.PrivateKeys
import ApiSensor.Redaction.Aadhaar
import ApiSensor.Redaction.Skipped
import ApiSensor.Batch
import ApiSensor.Caches
import ApiSensor.Container.Metadata
import ApiSensor.ProducerStats
import ApiSensor.Probes
import ApiSensor.Calendar
import ApiSensor.EventId
import ApiSensor.Base64
import ApiSensor.Redaction.Verhoeff
import ApiSensor.Expiry
import ApiSensor.Decoding.PrefixInt
import ApiSensor.Decoding.H3Frames
import ApiSensor.Decoding.HpackGrammar
