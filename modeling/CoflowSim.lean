import CoflowSim.Common.SendStream
import CoflowSim.Client.InstructionStream
import CoflowSim.Master.CompletionStream
import CoflowSim.Master.RepeatedReports
import CoflowSim.Master.CompletionOrder
import CoflowSim.Master.DispatchOnce
import CoflowSim.Master.TraceFormat
import CoflowSim.Client.SenderLifetime
import CoflowSim.Client.TaskCodec
import CoflowSim.Client.MasterConnection
import CoflowSim.Client.ReceiveToEnd
import CoflowSim.Common.PoolHistory
import CoflowSim.Client.ClusterDeadlock
import CoflowSim.Master.RunEnds
import CoflowSim.Master.StartUp
import CoflowSim.Client.FirstConnection
import CoflowSim.Master.FlowGrid
import CoflowSim.Master.Registration
import CoflowSim.Common.BufferBounds
import CoflowSim.Client.ReplyLoop
import CoflowSim.Client.SenderBytes
import CoflowSim.Master.CompletionCodec
import CoflowSim.Client.InstructionBounds
import CoflowSim.Client.InstructionBuffer
import CoflowSim.Master.CompletionBuffer
import CoflowSim.Master.TraceReader
import CoflowSim.Master.LogicMap
import CoflowSim.Client.TrafficControl
import CoflowSim.Common.ThreadLimit
import CoflowSim.Common.ThreadDemand
import CoflowSim.Master.ParseConfig
import CoflowSim.Lib.Channel
import CoflowSim.System.InstructionLink
import CoflowSim.System.CompletionLink
import CoflowSim.Client.RepliesOnce
import CoflowSim.System.Session
import CoflowSim.System.SessionNode
import CoflowSim.Lib.Shares
import CoflowSim.System.SessionInvariant
import CoflowSim.System.SessionLog
import CoflowSim.Master.Deployment
import CoflowSim.System.TracePlan
import CoflowSim.Master.RecordLevel
import CoflowSim.System.SessionRefinement
import CoflowSim.Client.ClusterCompletion
import CoflowSim.Client.ParseConfig
import CoflowSim.System.TraceEnds
import CoflowSim.Client.Shaping
import CoflowSim.System.FlowBandwidth
