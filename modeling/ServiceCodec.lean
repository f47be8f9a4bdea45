import ServiceCodec.Binary.Bits
import ServiceCodec.Call
import ServiceCodec.Conformance.Failures
import ServiceCodec.Conformance.Outputs
import ServiceCodec.Describe
import ServiceCodec.Proofs.Failure.Classification
import ServiceCodec.Proofs.Call.Course
import ServiceCodec.Proofs.Call.Law
import ServiceCodec.Proofs.Call.Delivery
import ServiceCodec.Proofs.Request.Content
import ServiceCodec.Proofs.Request.Target
import ServiceCodec.Proofs.Request.Query
import ServiceCodec.Proofs.Request.Parameters
import ServiceCodec.Proofs.Request.Skeleton
import ServiceCodec.Proofs.Failure.Selection
import ServiceCodec.Proofs.Failure.Registration
import ServiceCodec.Proofs.Response.Payload
import ServiceCodec.Proofs.Codec.Settings
import ServiceCodec.Proofs.Request.Length
import ServiceCodec.Proofs.Request.Misfits
import ServiceCodec.Proofs.Json.Document
import ServiceCodec.Proofs.Body.Polls
import ServiceCodec.Proofs.Call.Passage
import ServiceCodec.Proofs.Operation.Spelling
import ServiceCodec.Proofs.Request.Expansion
import ServiceCodec.Proofs.Request.Distinct
import ServiceCodec.Proofs.Binary.Rounding
import ServiceCodec.Proofs.Failure.Candidates
import ServiceCodec.Proofs.Request.Faults
import ServiceCodec.Proofs.Response.Defaults
import ServiceCodec.Proofs.Timestamp.Drift
import ServiceCodec.Proofs.Response.Calls
import ServiceCodec.Proofs.Failure.Namespace
import ServiceCodec.Proofs.Json.Blob
import ServiceCodec.Proofs.Operation.Construction
import ServiceCodec.Proofs.Request.Order
import ServiceCodec.Proofs.Text.Unreserved
import ServiceCodec.Proofs.Call.Trace
import ServiceCodec.Proofs.Timestamp.Order
