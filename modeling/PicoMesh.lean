import PicoMesh.Library.Mealy
import PicoMesh.Checksum
import PicoMesh.Frame
import PicoMesh.Equiv.Frame
import PicoMesh.Library.BurstError
import PicoMesh.Equiv.BurstError
import PicoMesh.CandidateParser
import PicoMesh.Equiv.StreamDecoder
import PicoMesh.Equiv.BatchScan
import PicoMesh.Equiv.Resynchronisation
import PicoMesh.Equiv.StreamDelivery
import PicoMesh.Equiv.MagicRestart
import PicoMesh.Equiv.StreamInvariant
import PicoMesh.Library.SlotTable
import PicoMesh.Reliability
import PicoMesh.PendingTable
import PicoMesh.Equiv.Reliability
import PicoMesh.Equiv.RetryLife
import PicoMesh.Equiv.ClockChange
import PicoMesh.Library.SerialNumber
import PicoMesh.Equiv.Deadline
import PicoMesh.Equiv.QueueDrain
import PicoMesh.NodeRegistry
import PicoMesh.SequenceTracker
import PicoMesh.Equiv.NodeRegistry
import PicoMesh.Equiv.RegistryAccuracy
import PicoMesh.Equiv.SequenceTracker
import PicoMesh.Equiv.SequenceNumbering
import PicoMesh.ReliableCommand
import PicoMesh.Equiv.ReliableCommand
import PicoMesh.Equiv.RetryLink
import PicoMesh.Equiv.StopAndWait
import PicoMesh.Equiv.AckPath
import PicoMesh.Equiv.TimeShift
import PicoMesh.Library.Mailbox
import PicoMesh.PeripheralEndpoint
import PicoMesh.Equiv.ReceiveMailbox
import PicoMesh.Equiv.DroppedFrames
import PicoMesh.Equiv.InterruptLatency
import PicoMesh.Transport
import PicoMesh.Equiv.PaddedRead
import PicoMesh.Equiv.PublishRead
import PicoMesh.WirePeripheralEndpoint
import PicoMesh.Equiv.LatestWrite
import PicoMesh.Equiv.PublishGuard
import PicoMesh.Library.Dictionary
import PicoMesh.Library.Regex
import PicoMesh.SerialLog
import PicoMesh.Equiv.LogClassification
import PicoMesh.ControllerOutput
import PicoMesh.Equiv.PrintedLine
import PicoMesh.Equiv.LogRecovery
import PicoMesh.HeartbeatNode
import PicoMesh.WireLink
import PicoMesh.Equiv.OneCommand
import PicoMesh.Equiv.WireLink
import PicoMesh.Equiv.WireLinkTiming
import PicoMesh.Equiv.WireLinkProgress
import PicoMesh.PollingController
import PicoMesh.Equiv.PollingController
import PicoMesh.PicoBoard
import PicoMesh.Equiv.PicoBoard
import PicoMesh.PicoNode
import PicoMesh.Equiv.PicoNode
import PicoMesh.UartLink
import PicoMesh.Equiv.UartLink
import PicoMesh.Equiv.RetrySchedule
import PicoMesh.FuzzFrameDecoder
import PicoMesh.Equiv.FuzzFrameDecoder
import PicoMesh.Equiv.CommandLog
import PicoMesh.Library.Json
import PicoMesh.LogReport
import PicoMesh.Equiv.LogReport
import PicoMesh.HeartbeatLink
import PicoMesh.Equiv.HeartbeatLink
import PicoMesh.WireBoard
import PicoMesh.Equiv.WireBoard
