import HvFrame.OutputMachines
import HvFrame.OrderedMaps
import HvFrame.ByteBuffers
import HvFrame.UdpProtocol
import HvFrame.FrameContents
import HvFrame.FrameJournals
import HvFrame.FrameWriter
import HvFrame.ReceivePath
import HvFrame.FrameIsolation
import HvFrame.ReportLabels
import HvFrame.ReceiveBounds
import HvFrame.SentFrames
import HvFrame.FrameDelivery
import HvFrame.FrameMixing
import HvFrame.FramePipeline
import HvFrame.PacketQueue
import HvFrame.ReceiverRefinement
import HvFrame.ReceiverAccounts
import HvFrame.ReceiverThreads
import HvFrame.QueuePressure
import HvFrame.TimerPolls
import HvFrame.FrameAccounts
import HvFrame.ShutdownFlushes
import HvFrame.ReassemblerRuns
import HvFrame.FrameReassembler
import HvFrame.PlainRefinement
import HvFrame.Fragmentation
import HvFrame.SendRetries
import HvFrame.BlockWrites
import HvFrame.WriteOrder
import HvFrame.FrameCoverage
import HvFrame.PhantomFrames
import HvFrame.LossyFrames
import HvFrame.ReassemblerViews
import HvFrame.RingBuffers
import HvFrame.DebugLog
import HvFrame.FrameReuse
import HvFrame.PlainRuns
import HvFrame.PlainSessions
import HvFrame.PlainCompletion
import HvFrame.ShutdownProgress
import HvFrame.FrameDeadlines
import HvFrame.LastWrites
import HvFrame.ReceivedFiles
import HvFrame.FrameTransfer
import HvFrame.ImageTransfer
import HvFrame.QueueWakeups
import HvFrame.LiveFrames
import HvFrame.ReceiverProcess
import HvFrame.LossyTransfer
import HvFrame.SharedRings
import HvFrame.TraceWriters
import HvFrame.DatagramFormat
import HvFrame.LossyNetworks
import HvFrame.NetworkRuns
import HvFrame.SenderCalls
import HvFrame.CheckedReceiver
import HvFrame.Quiescence
