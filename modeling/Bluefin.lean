import Bluefin.Base.Outcome
import Bluefin.Base.BigEndian
import Bluefin.Base.Trace
import Bluefin.Base.Refinement
import Bluefin.Base.Chunks
import Bluefin.Base.Reassembly
import Bluefin.Base.Rendezvous
import Bluefin.Base.Deque
import Bluefin.Base.Overflow
import Bluefin.Core.Header
import Bluefin.Core.Packet
import Bluefin.Core.Codec
import Bluefin.Utils.Window
import Bluefin.Utils.WindowInvariant
import Bluefin.Utils.WindowRange
import Bluefin.Utils.RingBuffer
import Bluefin.Net.OrderedBytes
import Bluefin.Net.OrderedBytesRefinement
import Bluefin.Net.Peek
import Bluefin.Net.Delivery
import Bluefin.Net.Consumption
import Bluefin.Net.Buffers
import Bluefin.Net.CheckedBuffers
import Bluefin.Worker.Packetiser
import Bluefin.Worker.WireFormat
import Bluefin.Worker.Stream
import Bluefin.Worker.Writer
import Bluefin.Worker.WriterAccounting
import Bluefin.Worker.FinNumber
import Bluefin.Worker.Barrier
import Bluefin.Worker.AtRest
import Bluefin.Worker.FinPromise
import Bluefin.Worker.ConnReader
import Bluefin.Worker.Dispatch
import Bluefin.Worker.Pipeline
import Bluefin.Worker.Reader
import Bluefin.Worker.Eof
import Bluefin.Worker.Receiver
import Bluefin.Worker.AckCompleteness
import Bluefin.Worker.AckPath
import Bluefin.Net.AckSoundness
import Bluefin.Worker.AckSender
import Bluefin.Worker.LegacyPackers
import Bluefin.Worker.ReaderTx
import Bluefin.Net.ConsumeReport
import Bluefin.Worker.ListenerAgreement
import Bluefin.Worker.WakeUp
import Bluefin.Worker.ReaderClones
import Bluefin.Net.Handshake
import Bluefin.Net.HandshakeBuffers
import Bluefin.Net.HandshakeWire
import Bluefin.Net.HandshakeAgreement
import Bluefin.Net.HandshakeView
import Bluefin.Net.HandshakePhases
import Bluefin.Net.HandshakeProgress
import Bluefin.Net.WireNumbers
import Bluefin.Net.HelloMatching
import Bluefin.Net.FailedAttempts
import Bluefin.Net.Close
import Bluefin.Net.CloseAgreement
import Bluefin.Net.CloseRecord
import Bluefin.Net.TearDown
import Bluefin.Worker.FlushWake
import Bluefin.Base.Family
import Bluefin.Net.Listener
import Bluefin.Worker.AckWakeUp
import Bluefin.Net.Crowd
import Bluefin.Worker.Transfer
import Bluefin.Net.CloseBudget
import Bluefin.Tool.Pipe
import Bluefin.Tool.PipeEnds
import Bluefin.Net.Session
