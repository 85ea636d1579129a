import ForwardX.Agent.EntryGroupFoldRuns
import ForwardX.Agent.EntryGroupMerge
import ForwardX.Agent.EnvelopeReplay
import ForwardX.Agent.FxpSnapshotRuns
import ForwardX.Agent.GostApply
import ForwardX.Agent.PanelConsistency
import ForwardX.Agent.PortLimitFrame
import ForwardX.Agent.StatusOrdering
import ForwardX.Agent.TrafficAccounting
import ForwardX.Fxp.AdditiveApply
import ForwardX.Fxp.EndpointFailover
import ForwardX.Fxp.FrameReader
import ForwardX.Fxp.Limiter
import ForwardX.Fxp.ProtocolBlock
import ForwardX.Fxp.ProxyRoundTrip
import ForwardX.Fxp.ReplayWindow
import ForwardX.Fxp.ServerHandshake
import ForwardX.Panel.AffiliateLedger
import ForwardX.Panel.BlockOwnership
import ForwardX.Panel.CycleBoundaries
import ForwardX.Panel.CycleSettlement
import ForwardX.Panel.DdnsBelief
import ForwardX.Panel.DnsReconcile
import ForwardX.Panel.EntryRecovery
import ForwardX.Panel.EvaluationQueueSafety
import ForwardX.Panel.FailoverRuns
import ForwardX.Panel.FastLivenessRuns
import ForwardX.Panel.HeartbeatGate
import ForwardX.Panel.KeyedTaskDispatcher
import ForwardX.Panel.PanelClock
import ForwardX.Panel.PlanLimits
import ForwardX.Panel.PortPolicyAlgebra
import ForwardX.Panel.ProbeStatistics
import ForwardX.Panel.QueryCacheSafety
import ForwardX.Panel.Reservations
import ForwardX.Panel.RuleCreation
import ForwardX.Panel.RuleTaskQueue
import ForwardX.Panel.SilenceSafety
import ForwardX.Panel.TrafficSettlement
import ForwardX.Panel.TrafficStores
import ForwardX.Panel.TrafficWrites
import ForwardX.Udp.ExitDirect
import ForwardX.Udp.FragmentRoundTrip
import ForwardX.Udp.PressurePlan
import ForwardX.Udp.RingRefinement
import ForwardX.Udp.Sequence
import ForwardX.V3.PoolSlots
import ForwardX.V3.PoolStreams
import ForwardX.V3.Record
