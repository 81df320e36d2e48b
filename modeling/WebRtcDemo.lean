import WebRtcDemo.Lib.Machine
import WebRtcDemo.Lib.Liveness
import WebRtcDemo.Lib.ByteText
import WebRtcDemo.Lib.QuotedText
import WebRtcDemo.Lib.KeySearch
import WebRtcDemo.Lib.FlatJson
import WebRtcDemo.Lib.JsonText
import WebRtcDemo.Lib.CInt
import WebRtcDemo.Lib.Memory
import WebRtcDemo.Lib.TakeOnce
import WebRtcDemo.Lib.GlTexture
import WebRtcDemo.Lib.GlObjects
import WebRtcDemo.Lib.Binary64
import WebRtcDemo.Lib.Decimals
import WebRtcDemo.Lib.Regex
import WebRtcDemo.Signaling.Client
import WebRtcDemo.Signaling.Framing
import WebRtcDemo.Signaling.RoundTrip
import WebRtcDemo.Signaling.Codecs
import WebRtcDemo.Signaling.Reference
import WebRtcDemo.Signaling.Spelling
import WebRtcDemo.Signaling.Outgoing
import WebRtcDemo.Signaling.Lifecycle
import WebRtcDemo.Signaling.Address
import WebRtcDemo.Page.Model
import WebRtcDemo.Page.Negotiation
import WebRtcDemo.Page.Candidates
import WebRtcDemo.Page.Statistics
import WebRtcDemo.Channel.Client
import WebRtcDemo.Channel.Calls
import WebRtcDemo.Channel.Emissions
import WebRtcDemo.Channel.Subscriptions
import WebRtcDemo.WebView.Receiver
import WebRtcDemo.WebView.Sessions
import WebRtcDemo.WebView.Handoff
import WebRtcDemo.WebView.Clients
import WebRtcDemo.Native.Client
import WebRtcDemo.Native.Answers
import WebRtcDemo.Native.Candidates
import WebRtcDemo.Native.Queue
import WebRtcDemo.Native.Stats
import WebRtcDemo.Decoder.Pool
import WebRtcDemo.Decoder.PoolExclusive
import WebRtcDemo.Decoder.PoolCapacity
import WebRtcDemo.Decoder.PoolSearch
import WebRtcDemo.Decoder.AnnexB
import WebRtcDemo.Decoder.NalUnits
import WebRtcDemo.Decoder.Slices
import WebRtcDemo.Decoder.Codec
import WebRtcDemo.Decoder.AccessUnits
import WebRtcDemo.Decoder.Custody
import WebRtcDemo.Decoder.Fill
import WebRtcDemo.Decoder.Metadata
import WebRtcDemo.Decoder.Bounds
import WebRtcDemo.Decoder.Worker
import WebRtcDemo.Decoder.WorkerProtocol
import WebRtcDemo.Decoder.WorkerLiveness
import WebRtcDemo.Decoder.Feeding
import WebRtcDemo.Decoder.InputTimes
import WebRtcDemo.Renderer.Planes
import WebRtcDemo.Renderer.Node
import WebRtcDemo.Renderer.Freshness
import WebRtcDemo.Renderer.Uploads
import WebRtcDemo.Renderer.Clearing
import WebRtcDemo.Renderer.Storage
import WebRtcDemo.Renderer.Pictures
import WebRtcDemo.Renderer.Texels
import WebRtcDemo.Renderer.Chroma
import WebRtcDemo.Renderer.Watched
import WebRtcDemo.Renderer.Coherence
import WebRtcDemo.Renderer.Timing
import WebRtcDemo.Renderer.Item
import WebRtcDemo.Renderer.GlCalls
import WebRtcDemo.Renderer.GlBounds
import WebRtcDemo.Renderer.GlContents
import WebRtcDemo.Renderer.Provenance
import WebRtcDemo.Native.Tracks
import WebRtcDemo.Timing.SinkMaps
import WebRtcDemo.Timing.Latency
import WebRtcDemo.Timing.LogLines
import WebRtcDemo.Timing.LogTool
import WebRtcDemo.Timing.Report
