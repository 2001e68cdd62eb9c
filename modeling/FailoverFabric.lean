import FailoverFabric.Library.Reachability
import FailoverFabric.Library.Simulation
import FailoverFabric.Library.IndexedVec
import FailoverFabric.Library.Upsert
import FailoverFabric.Library.Codec
import FailoverFabric.Library.Crc
import FailoverFabric.Library.FencedAuthority
import FailoverFabric.Library.FileSystem
import FailoverFabric.Library.OrderedMap
import FailoverFabric.Library.ParentChain
import FailoverFabric.Library.Script
import FailoverFabric.Library.StableSort
import FailoverFabric.Service
import FailoverFabric.Domains
import FailoverFabric.Evidence
import FailoverFabric.EvidenceIndex
import FailoverFabric.Candidate
import FailoverFabric.Routing
import FailoverFabric.RouteHistory
import FailoverFabric.Request
import FailoverFabric.Selection
import FailoverFabric.SelectionOrder
import FailoverFabric.DomainQueries
import FailoverFabric.DomainArrival
import FailoverFabric.Persistence.Format
import FailoverFabric.Persistence.RoundTrip
import FailoverFabric.Persistence.Validation
import FailoverFabric.Persistence.Storable
import FailoverFabric.Persistence.Canonical
import FailoverFabric.Persistence.Unchecked
import FailoverFabric.Persistence.SaveFile
import FailoverFabric.Fabric.State
import FailoverFabric.Fabric.Planning
import FailoverFabric.Fabric.Restart
import FailoverFabric.Fabric.Cutover
import FailoverFabric.Fabric.Failback
import FailoverFabric.Fabric.Steps
import FailoverFabric.Fabric.Progress
import FailoverFabric.Fabric.Rebuild
import FailoverFabric.Fabric.Records
import FailoverFabric.Machine
import FailoverFabric.MachineSteps
import FailoverFabric.SlotEnumeration
import FailoverFabric.FailoverRequests
import FailoverFabric.Registration
import FailoverFabric.Ranking
import FailoverFabric.Atomicity
import FailoverFabric.ExclusiveAssignment
import FailoverFabric.SavedAuthority
import FailoverFabric.Generations
import FailoverFabric.Transactions
import FailoverFabric.Serving
import FailoverFabric.RouteAgreement
import FailoverFabric.Fencing
import FailoverFabric.FailureExclusion
import FailoverFabric.TargetRegistry
import FailoverFabric.PublicationFrame
import FailoverFabric.Supersession
import FailoverFabric.Stores
import FailoverFabric.Durability
import FailoverFabric.RestartIdempotence
import FailoverFabric.Reconciliation
import FailoverFabric.Restartable
import FailoverFabric.Coordinator
import FailoverFabric.Protocol.Payload
import FailoverFabric.Protocol.Grammar
import FailoverFabric.Protocol.Common
import FailoverFabric.Protocol.Frames
import FailoverFabric.Protocol.Conn
import FailoverFabric.Protocol.Transport
import FailoverFabric.Checkpoint
import FailoverFabric.WorkerStart
import FailoverFabric.WorkerService
import FailoverFabric.WorkerRecovery
import FailoverFabric.Handlers
import FailoverFabric.RequestLedger
import FailoverFabric.CommittedResponses
import FailoverFabric.Gateway
import FailoverFabric.SocketOps
import FailoverFabric.RequestPath
import FailoverFabric.RequestAnswers
import FailoverFabric.WithheldResults
import FailoverFabric.RequestService
import FailoverFabric.CoordinatorService
import FailoverFabric.RouteAuthority
import FailoverFabric.RequestHistory
import FailoverFabric.ServiceIsolation
import FailoverFabric.Continuity
import FailoverFabric.EvidenceFlow
import FailoverFabric.Readiness
import FailoverFabric.Failbacks
import FailoverFabric.FailbackBudget
import FailoverFabric.FailbackGates
import FailoverFabric.Cooldown
import FailoverFabric.Availability
import FailoverFabric.PlanExecution
import FailoverFabric.Effects
import FailoverFabric.CutoverBarrier
import FailoverFabric.ResourceBounds
import FailoverFabric.RevalidationCount
import FailoverFabric.EvidenceRestart
import FailoverFabric.EvidenceSequence
import FailoverFabric.Hysteresis
