import MpQuic.Library.Run
import MpQuic.Library.Stretch
import MpQuic.Library.Slice
import MpQuic.Stms.Defs
import MpQuic.Stms.Outcome
import MpQuic.Stms.Layout
import MpQuic.Stms.Pop
import MpQuic.Stms.Theorems
import MpQuic.Stms.Switch
import MpQuic.Wire.StreamFrame
import MpQuic.Stms.Framer
import MpQuic.Stms.Fin
import MpQuic.Library.Sum
import MpQuic.FlowControl.Defs
import MpQuic.FlowControl.Receive
import MpQuic.FlowControl.Credit
import MpQuic.Stms.Window
import MpQuic.Stms.Connection
import MpQuic.Stms.Peer
import MpQuic.Framing.Defs
import MpQuic.Framing.Visit
import MpQuic.Framing.Offsets
import MpQuic.Framing.Window
import MpQuic.Framing.Discard
import MpQuic.Framing.Iframe
import MpQuic.Framing.IframeRun
import MpQuic.Framing.HeaderIndex
import MpQuic.Framing.HeaderIndexRun
import MpQuic.FlowControl.ReceiveWindow
import MpQuic.FlowControl.Send
import MpQuic.Library.Path
import MpQuic.Sorter.Defs
import MpQuic.Sorter.Gaps
import MpQuic.Sorter.Queue
import MpQuic.Sorter.Reassembly
import MpQuic.Sorter.Read
import MpQuic.Sorter.Fin
import MpQuic.Wire.Frame
import MpQuic.Library.ByteOrder
import MpQuic.Library.Heap
import MpQuic.Protocol
import MpQuic.Library.Parser
import MpQuic.Wire.Write
import MpQuic.Wire.PublicHeader
import MpQuic.Wire.Length
import MpQuic.Wire.HeaderParse
import MpQuic.Wire.PacketNumber
import MpQuic.Wire.Parse
import MpQuic.Wire.AckSound
import MpQuic.Wire.AckBlocks
import MpQuic.Wire.ReadBack
import MpQuic.Wire.Float16
import MpQuic.Wire.AckRoundTrip
import MpQuic.Wire.Unpack
import MpQuic.Packing.Defs
import MpQuic.Packing.Control
import MpQuic.Packing.Size
import MpQuic.Packing.Header
import MpQuic.Packing.Room
import MpQuic.Packing.Fit
import MpQuic.Packing.Kept
import MpQuic.Packing.Delivery
import MpQuic.Packing.Repeat
import MpQuic.Packing.Requeued
import MpQuic.AckHandler.Defs
import MpQuic.AckHandler.Tracked
import MpQuic.AckHandler.ClosePath
import MpQuic.AckHandler.NewlyAcked
import MpQuic.AckHandler.Conservation
import MpQuic.AckHandler.StopWaiting
import MpQuic.AckHandler.Skipped
import MpQuic.AckHandler.ReceivedHistory
import MpQuic.AckHandler.ReceivedSet
import MpQuic.AckHandler.ReceivedAcks
import MpQuic.Packing.AckPacket
import MpQuic.Scheduler.Defs
import MpQuic.Scheduler.Retransmission
import MpQuic.Scheduler.SendCalls
import MpQuic.Scheduler.Redundancy
import MpQuic.Scheduler.Tracked
import MpQuic.Library.Selection
import MpQuic.Scheduler.Order
import MpQuic.Scheduler.Gaps
import MpQuic.Scheduler.Select
import MpQuic.Scheduler.Eligible
import MpQuic.Streams.Defs
import MpQuic.Streams.Limits
import MpQuic.Streams.History
import MpQuic.Streams.RoundRobin
import MpQuic.Streams.Consistency
import MpQuic.Connection.Defs
import MpQuic.Connection.Lookups
import MpQuic.Connection.Forged
import MpQuic.Connection.PathIDs
import MpQuic.Library.Table
import MpQuic.QAccess.Document
import MpQuic.QAccess.Loaders
import MpQuic.QAccess.Text
import MpQuic.QAccess.Controller
import MpQuic.QAccess.Validity
import MpQuic.QAccess.Samples
import MpQuic.QAccess.Worker
import MpQuic.QAccess.Updates
import MpQuic.QAccess.Steps
import MpQuic.QAccess.Visibility
import MpQuic.QAccess.Trigger
import MpQuic.QAccess.Hysteresis
import MpQuic.QAccess.SampleBuffer
import MpQuic.QAccess.SingleFlight
import MpQuic.QAccess.Answers
import MpQuic.QAccess.Restarts
import MpQuic.QAccess.Session
import MpQuic.QAccess.Latch
import MpQuic.QAccess.Ownership
import MpQuic.Library.Loop
import MpQuic.Congestion.Olia
import MpQuic.Congestion.Epsilon
import MpQuic.Congestion.Window
import MpQuic.Congestion.Gain
import MpQuic.QAccess.StepLimit
import MpQuic.Utility.Defs
import MpQuic.Utility.Total
import MpQuic.Utility.Agreement
import MpQuic.Utility.RateLimit
import MpQuic.Handshake.Message
import MpQuic.Transfer.Streams
import MpQuic.Transfer.Acks
