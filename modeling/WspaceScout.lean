import WspaceScout.AccessPoint.Integrity
import WspaceScout.AccessPoint.LossTrace
import WspaceScout.AccessPoint.ReportedLoss
import WspaceScout.AsymUtil.AckContext
import WspaceScout.AsymUtil.AckDatagram
import WspaceScout.AsymUtil.TimedWait
import WspaceScout.DataPath.AckSpec
import WspaceScout.DataPath.Delivery
import WspaceScout.DataPath.ForeignAck
import WspaceScout.DataPath.HighLoss
import WspaceScout.DataPath.LockProgress
import WspaceScout.DataPath.PacketBudget
import WspaceScout.DataPath.Payload
import WspaceScout.DataPath.Producers
import WspaceScout.DataPath.RoundTrip
import WspaceScout.DataPath.WrapAround
import WspaceScout.Fec.Recovery
import WspaceScout.Feedback.BatchStatus
import WspaceScout.Feedback.History
import WspaceScout.Feedback.LossHistory
import WspaceScout.Feedback.RawReject
import WspaceScout.Feedback.RawStatus
import WspaceScout.Feedback.Threads
import WspaceScout.Rate.BatchShape
import WspaceScout.Rate.CoherenceTime
import WspaceScout.Rate.Combining
import WspaceScout.Rate.LossEstimates
import WspaceScout.Rate.PacketWindow
import WspaceScout.Rate.SampleProbe
import WspaceScout.Rate.ScoutSelection
import WspaceScout.Rate.SparePacket
