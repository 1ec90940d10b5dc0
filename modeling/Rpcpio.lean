import Rpcpio.Library.Machine
import Rpcpio.Library.LengthPrefix
import Rpcpio.Library.Outbox
import Rpcpio.Library.Multimap
import Rpcpio.Protocol.Status
import Rpcpio.Protocol.Metadata
import Rpcpio.Protocol.MetadataCodec
import Rpcpio.Protocol.MetadataTransfer
import Rpcpio.Protocol.Framing
import Rpcpio.Protocol.StreamQueue
import Rpcpio.Protocol.StreamParsing
import Rpcpio.Protocol.StreamGrammar
import Rpcpio.Library.Executor
import Rpcpio.Protocol.Http2
import Rpcpio.Server.RawServerImpls
import Rpcpio.Client.RawClientImpls
import Rpcpio.Library.Gate
import Rpcpio.Client.StreamingCallState
import Rpcpio.Client.StreamingCall
import Rpcpio.Client.StreamingStatus
import Rpcpio.Library.Custody
import Rpcpio.Client.ChannelCalls
import Rpcpio.Client.TrailersOnly
import Rpcpio.Client.HttpFallback
import Rpcpio.Protocol.Compression
import Rpcpio.Library.Loop
import Rpcpio.Protocol.Inflate
import Rpcpio.Protocol.DecompressLimit
import Rpcpio.Protocol.Deflate
import Rpcpio.Client.ClientContext
import Rpcpio.Client.CallState
import Rpcpio.Client.UnaryMetadata
import Rpcpio.Client.UnaryCall
import Rpcpio.Client.Channel
import Rpcpio.Client.ChannelLedger
import Rpcpio.Client.ChannelPlaces
import Rpcpio.Client.ChannelPhases
import Rpcpio.Client.ChannelInvariant
import Rpcpio.Client.SessionErrors
import Rpcpio.Client.Goaway
import Rpcpio.Client.RequestLifetime
import Rpcpio.Client.ContextLifetime
import Rpcpio.Client.CallProgress
import Rpcpio.Client.UnaryCallCompletion
import Rpcpio.Client.UnaryCancellation
import Rpcpio.Protocol.Timeout
import Rpcpio.Server.ServerContext
import Rpcpio.Server.ServerImpl
import Rpcpio.Server.Responder
import Rpcpio.Server.CallState
import Rpcpio.Server.ClientStreamingCallState
import Rpcpio.Server.RespondOnce
import Rpcpio.Server.ServerStreamingCallState
import Rpcpio.Server.ResponseLifetime
import Rpcpio.Protocol.StreamReceiving
import Rpcpio.Protocol.UnaryFraming
import Rpcpio.Protocol.FrameDecoding
import Rpcpio.Server.BidiStreamingCallState
import Rpcpio.Server.AnyServerCall
import Rpcpio.Server.DeadlineTimer
import Rpcpio.Protocol.WireMetadata
import Rpcpio.Server.ResponseMetadata
import Rpcpio.Server.HandlerMetadata
import Rpcpio.Server.ResponseHeads
import Rpcpio.Server.FramingErrors
import Rpcpio.Server.ReaderUnblocking
import Rpcpio.Stream.Upload
import Rpcpio.Stream.UploadRoundTrip
import Rpcpio.Stream.Download
import Rpcpio.Stream.DownloadRoundTrip
import Rpcpio.Stream.StatusDelivery
import Rpcpio.Stream.Receivers
import Rpcpio.Stream.UnaryReceivers
import Rpcpio.Stream.CompressedFrames
import Rpcpio.Stream.Truncation
import Rpcpio.Stream.DecoderAgreement
import Rpcpio.Stream.SingleResponse
import Rpcpio.Stream.UnaryExchange
import Rpcpio.Stream.UnaryRoundTrip
import Rpcpio.Client.DeadlineGuard
import Rpcpio.Client.StreamRelease
import Rpcpio.Client.TlsConfiguration
import Rpcpio.Client.ChannelDraining
import Rpcpio.Client.StreamCancellation
import Rpcpio.Server.GracefulShutdown
import Rpcpio.Protocol.TimeoutGrammar
import Rpcpio.Protocol.TimeoutRounding
import Rpcpio.Stream.DeadlineArithmetic
import Rpcpio.Protocol.TrailerReaders
import Rpcpio.Protocol.Base64Noise
import Rpcpio.Protocol.PopInterleavings
import Rpcpio.Server.WriterRuns
import Rpcpio.Client.WriterQueue
import Rpcpio.Stream.AcceptedWrites
import Rpcpio.Server.ResponseSequence
import Rpcpio.Protocol.FeedLoops
import Rpcpio.Stream.ParsingLoops
import Rpcpio.Stream.RequestTransfer
import Rpcpio.Stream.ResponseSide
import Rpcpio.Stream.RequestSide
import Rpcpio.Stream.Duplex
import Rpcpio.Stream.DuplexRoundTrip
import Rpcpio.Stream.DuplexRest
import Rpcpio.Stream.ServerStreamingExchange
import Rpcpio.Stream.SingleAnswer
import Rpcpio.Stream.AnswerSide
import Rpcpio.Stream.ClientStreamingExchange
import Rpcpio.Stream.UnaryRefusal
import Rpcpio.Typed.Messages
import Rpcpio.Typed.UnaryCalls
import Rpcpio.Typed.MessageStreams
import Rpcpio.Typed.ServerStreams
import Rpcpio.Typed.ClientStreams
import Rpcpio.Typed.BidiStreams
import Rpcpio.Compiler.CppGenerator
import Rpcpio.Compiler.GeneratedCode
import Rpcpio.Compiler.StubDispatch
import Rpcpio.Typed.StubCalls
