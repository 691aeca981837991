import WireCodec.Main
import WireCodec.Pool.Session
import WireCodec.Bridge.Request
import WireCodec.Bridge.Startup
import WireCodec.Proofs.Bridge.Replies
import WireCodec.Proofs.Frame.Parameters
import WireCodec.Proofs.Frame.Stream
import WireCodec.Proofs.TransportError.RoundTrip
import WireCodec.Proofs.Response.Acceptance
import WireCodec.Proofs.Frame.Survival
import WireCodec.Proofs.Response.Failures
import WireCodec.Proofs.Pool.Exclusivity
import WireCodec.Proofs.Bridge.FixedPoint
import WireCodec.Proofs.Response.Numbers
import WireCodec.Proofs.Bridge.Failures
import WireCodec.Proofs.Bridge.Rejection
import WireCodec.Proofs.Bridge.Verdict
import WireCodec.Proofs.TransportError.Framing
import WireCodec.Proofs.Json.Joining
import WireCodec.Proofs.TransportError.Acceptance
import WireCodec.Proofs.TransportError.Relay
import WireCodec.Bridge.Session
import WireCodec.Proofs.Config.Sources
import WireCodec.Proofs.Bridge.Settings
import WireCodec.Proofs.Frame.Runs
import WireCodec.Proofs.Pool.Framing
import WireCodec.Proofs.Pool.Reuse
import WireCodec.Proofs.TransportError.Refusals
import WireCodec.Proofs.Frame.Pieces
import WireCodec.Proofs.TransportError.Documents
import WireCodec.Proofs.Text.Documents
import WireCodec.Proofs.Frame.EvenRuns
