import FailoverFabric.Types

/-! # Service contract, slots and assignments

`service.hpp` and `authority.hpp`.  A service contract is independent of any
current target; an assignment binds one slot of a service to one target.
-/
namespace FailoverFabric

/-- One slot of a service: an independent unit of failover. -/
structure ServiceSlotKey where
  service : ServiceId := .null
  slot : ServiceSlotId := .null
  deriving DecidableEq

structure SlotRange where
  first : UInt32 := 1
  count : UInt32 := 1
  deriving DecidableEq

structure AntiFlappingPolicy where
  maxAutoAttempts : UInt32 := 3
  cooldownMs : UInt32 := 5000
  hysteresisMs : UInt32 := 5000
  manualInterventionRequired : Bool := false
  deriving DecidableEq

structure RecoveryObjective where
  rtoMs : UInt64 := 0
  rtoAnchor : RtoAnchor := .firstAcceptedFailureObservation
  continuity : ContinuityClass := .unknown
  maxStateLossSequences : UInt64 := 0
  minCheckpointGen : Option CheckpointGeneration := none
  requiresVerifiedRecovery : Bool := true
  deriving DecidableEq

structure CompatibilityRequirement where
  modelKey : Text := []
  runtimeAbi : Text := []
  readinessProfile : Option ReadinessProfileId := none
  dependencies : List DependencyId := []
  requiredCapabilities : List CompatibilityId := []
  deriving DecidableEq

structure ResourceRequirement where
  resourceClass : Text := []
  amount : F64 := {}
  exactlyOneTarget : Bool := true
  deriving DecidableEq

structure DomainRequirement where
  requireDomainIndependence : Bool := false
  minDistinctHosts : UInt32 := 0
  minDistinctDevices : UInt32 := 0
  forbiddenOverlapClasses : List DomainClass := []
  deriving DecidableEq

/-- The service contract, independent of any current target. -/
structure ServiceDefinition where
  service : ServiceId := .null
  generation : ServiceGeneration := {}
  configGeneration : ServiceConfigGeneration := {}
  name : Text := []
  role : ServingRole := .exclusiveActive
  slots : SlotRange := {}
  compatibility : CompatibilityRequirement := {}
  domainRequirement : DomainRequirement := {}
  resources : List ResourceRequirement := []
  recovery : RecoveryObjective := {}
  failback : FailbackPolicy := .manual
  antiFlapping : AntiFlappingPolicy := {}
  requiredState : List StateId := []
  provenance : Provenance := .reported
  policyGeneration : PolicyGeneration := {}
  deriving DecidableEq

/-- A single exclusive assignment of a slot to a target. -/
structure Assignment where
  id : AssignmentId := .null
  generation : AssignmentGeneration := {}
  slot : ServiceSlotKey := {}
  target : TargetId := .null
  targetGeneration : TargetGeneration := {}
  replica : ReplicaId := .null
  replicaGeneration : ReplicaGeneration := {}
  engine : EngineId := .null
  engineIncarnation : EngineIncarnationId := .null
  readinessProfile : ReadinessProfileId := .null
  authorityGeneration : ServiceAuthorityGeneration := {}
  activation : ActivationId := .null
  activationGeneration : ActivationGeneration := {}
  route : RouteId := .null
  routeGeneration : RouteGeneration := {}
  workerBoot : WorkerBootId := .null
  resourceClaims : List ResourceClaimId := []
  continuityState : List StateId := []
  state : AssignmentState := .candidate
  provisory : Bool := false
  provenance : Provenance := .derived
  deriving DecidableEq

/-- What identifies an assignment: its id and its generation. -/
def Assignment.key (a : Assignment) : AssignmentId × AssignmentGeneration := (a.id, a.generation)

/-- The coordinator epoch: its value, the coordinator's id and its boot. -/
structure CoordinatorEpoch where
  value : UInt64 := 0
  id : CoordinatorId := .null
  boot : CoordinatorId := .null
  deriving DecidableEq

/-- A bounded per-request grant to a worker. -/
structure WorkerAuthorization where
  epoch : CoordinatorEpoch := {}
  slot : ServiceSlotKey := {}
  assignment : AssignmentId := .null
  assignmentGeneration : AssignmentGeneration := {}
  routeGeneration : RouteGeneration := {}
  incarnation : EngineIncarnationId := .null
  request : RequestId := .null
  execution : ExecutionId := .null
  operation : Text := []
  workerBoot : WorkerBootId := .null
  deriving DecidableEq

/-- The authority gate's answer. -/
structure GateDecision where
  allowed : Bool := false
  reason : String := ""
  failClosed : Bool := false
  deriving DecidableEq

end FailoverFabric
