import OpenSsmAgent.Lib.Framing
import OpenSsmAgent.Lib.Sha256
import OpenSsmAgent.Core.Audit
import OpenSsmAgent.Lib.Proto3
import OpenSsmAgent.Proto.Messages
import OpenSsmAgent.Core.Seal
import OpenSsmAgent.Core.Domain
import OpenSsmAgent.Core.Handshake
import OpenSsmAgent.Core.Wire
import OpenSsmAgent.Core.Topics
import OpenSsmAgent.Coordinator.Session
import OpenSsmAgent.Coordinator.Ca
import OpenSsmAgent.Coordinator.Bridge
import OpenSsmAgent.Agent.Session
import OpenSsmAgent.Agent.ShellStream
import OpenSsmAgent.System.SealedChannels
import OpenSsmAgent.Agent.Report
import OpenSsmAgent.System.Splice
import OpenSsmAgent.Coordinator.BridgeActs
import OpenSsmAgent.Lib.NonceLedger
import OpenSsmAgent.Coordinator.Nonces
import OpenSsmAgent.Agent.ControlChannel
import OpenSsmAgent.Agent.Nonces
import OpenSsmAgent.System.NonceUniqueness
import OpenSsmAgent.Coordinator.ShellIsolation
import OpenSsmAgent.Lib.TicketQueue
import OpenSsmAgent.System.ResultOrder
import OpenSsmAgent.Coordinator.Coherence
import OpenSsmAgent.Coordinator.Epoch
import OpenSsmAgent.Coordinator.Uplink
import OpenSsmAgent.Coordinator.JobEvents
import OpenSsmAgent.System.Downlink
import OpenSsmAgent.Lib.Logs
import OpenSsmAgent.System.JobOutcomes
import OpenSsmAgent.Lib.Channels
import OpenSsmAgent.Coordinator.Downlinks
import OpenSsmAgent.System.ShellAgreement
import OpenSsmAgent.Coordinator.Mediation
import OpenSsmAgent.Coordinator.ExecReports
import OpenSsmAgent.Coordinator.Tokens
import OpenSsmAgent.Coordinator.Enrollment
import OpenSsmAgent.Coordinator.TokenUse
import OpenSsmAgent.Coordinator.HostIdentity
import OpenSsmAgent.Coordinator.ShellEnd
import OpenSsmAgent.Coordinator.Netbox
import OpenSsmAgent.Coordinator.NetboxOwnership
import OpenSsmAgent.Coordinator.NetboxConvergence
import OpenSsmAgent.Lib.Separated
import OpenSsmAgent.Coordinator.NetboxDedup
import OpenSsmAgent.Agent.Enroll
import OpenSsmAgent.Agent.Exec
import OpenSsmAgent.Agent.JobStore
import OpenSsmAgent.Agent.Dispatch
import OpenSsmAgent.Agent.JobTraces
import OpenSsmAgent.Agent.JobRecords
import OpenSsmAgent.Agent.AtMostOnce
import OpenSsmAgent.Agent.JobReports
import OpenSsmAgent.Agent.Host
import OpenSsmAgent.Agent.LastLine
import OpenSsmAgent.Cli.Head
import OpenSsmAgent.Core.Stream
import OpenSsmAgent.Coordinator.NetboxIdentity
import OpenSsmAgent.Coordinator.Policy
import OpenSsmAgent.Coordinator.TopicGrammar
import OpenSsmAgent.Coordinator.NetboxDeletes
import OpenSsmAgent.Agent.EpochFile
import OpenSsmAgent.Lib.TableMirror
import OpenSsmAgent.Coordinator.TokenStores
import OpenSsmAgent.System.Bounds
import OpenSsmAgent.Coordinator.SharedCa
import OpenSsmAgent.Coordinator.AuditStore
import OpenSsmAgent.System.AuditTrail
import OpenSsmAgent.Coordinator.Admission
import OpenSsmAgent.Agent.Moves
import OpenSsmAgent.System.HandshakeAgreement
import OpenSsmAgent.Agent.ExecOutput
import OpenSsmAgent.Core.Framings
import OpenSsmAgent.Agent.Renewal
import OpenSsmAgent.Coordinator.KillSwitch
import OpenSsmAgent.System.RenewalLiveness
import OpenSsmAgent.Agent.PrivilegeDrop
