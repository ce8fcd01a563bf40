import MeshCoreTCPMux.Library.Hash
import MeshCoreTCPMux.Library.Wp
import MeshCoreTCPMux.Library.History
import MeshCoreTCPMux.Wire
import MeshCoreTCPMux.FrameCodec
import MeshCoreTCPMux.FrameRoundTrip
import MeshCoreTCPMux.Protocol.Codes
import MeshCoreTCPMux.Protocol.Commands
import MeshCoreTCPMux.ReceivedMessageDeduplicator
import MeshCoreTCPMux.ReceivedMessageHistory
import MeshCoreTCPMux.DedicatedClientSlot
import MeshCoreTCPMux.OfflineQueue
import MeshCoreTCPMux.Leases
import MeshCoreTCPMux.Config
import MeshCoreTCPMux.Protocol.Responses
import MeshCoreTCPMux.Protocol.ValidResponses
import MeshCoreTCPMux.Protocol.Downgrade
import MeshCoreTCPMux.Library.PrefixCode
import MeshCoreTCPMux.Protocol.PathGrammars
import MeshCoreTCPMux.Protocol.Descriptions
import MeshCoreTCPMux.Protocol.DescriptionSafety
import MeshCoreTCPMux.WireLog
import MeshCoreTCPMux.Protocol.CliBodies
import MeshCoreTCPMux.Library.Lockstep
import MeshCoreTCPMux.Library.Within
import MeshCoreTCPMux.Errors
import MeshCoreTCPMux.Startup
import MeshCoreTCPMux.StartupFence
import MeshCoreTCPMux.Session
import MeshCoreTCPMux.Broker.State
import MeshCoreTCPMux.Broker.Output
import MeshCoreTCPMux.Broker.Inbox
import MeshCoreTCPMux.Broker.Schedule
import MeshCoreTCPMux.Broker.Response
import MeshCoreTCPMux.Broker.Events
import MeshCoreTCPMux.Broker.Bodies
import MeshCoreTCPMux.Broker.Commutes
import MeshCoreTCPMux.Broker.Transitions
import MeshCoreTCPMux.Broker.WellFormed
import MeshCoreTCPMux.Broker.Frame
import MeshCoreTCPMux.Broker.Programs
import MeshCoreTCPMux.Broker.Refinement.Output
import MeshCoreTCPMux.Broker.Refinement.Inbox
import MeshCoreTCPMux.Broker.Refinement.Local
import MeshCoreTCPMux.LeaseTotality
import MeshCoreTCPMux.Broker.Refinement.Schedule
import MeshCoreTCPMux.Broker.Refinement.Response
import MeshCoreTCPMux.Broker.Refinement.Push
import MeshCoreTCPMux.Broker.Refinement.Events
import MeshCoreTCPMux.Broker.Run
import MeshCoreTCPMux.Broker.Replay
import MeshCoreTCPMux.Broker.Keeps
import MeshCoreTCPMux.Broker.Gentle
import MeshCoreTCPMux.Broker.Waits
import MeshCoreTCPMux.Broker.Drain
import MeshCoreTCPMux.Broker.Deliveries
import MeshCoreTCPMux.Broker.Membership
import MeshCoreTCPMux.Broker.Queues
import MeshCoreTCPMux.Broker.Admission
import MeshCoreTCPMux.Broker.Ended
import MeshCoreTCPMux.Broker.Exchange
import MeshCoreTCPMux.Broker.Scope
import MeshCoreTCPMux.Broker.Bounds
import MeshCoreTCPMux.Broker.Registry
import MeshCoreTCPMux.Broker.Overflow
import MeshCoreTCPMux.Broker.Late
import MeshCoreTCPMux.Broker.CliSecrecy
import MeshCoreTCPMux.Broker.Load
import MeshCoreTCPMux.Broker.Stable
import MeshCoreTCPMux.Broker.Stock
import MeshCoreTCPMux.Broker.Wakeups
import MeshCoreTCPMux.Runtime
import MeshCoreTCPMux.Broker.Maintenance
import MeshCoreTCPMux.Broker.Epochs
import MeshCoreTCPMux.Broker.FanOut
import MeshCoreTCPMux.Broker.Provenance
import MeshCoreTCPMux.Retained
import MeshCoreTCPMux.Broker.Warrant
import MeshCoreTCPMux.Broker.Isolation
import MeshCoreTCPMux.Broker.Signing
import MeshCoreTCPMux.Broker.Conversation
import MeshCoreTCPMux.Broker.Remote
import MeshCoreTCPMux.Broker.Acknowledgements
