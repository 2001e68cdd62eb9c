import FailoverFabric.Service
import FailoverFabric.Evidence
import FailoverFabric.Domains

/-! # Candidates and coherent snapshots

`candidate.hpp`: what a target publishes about itself, and the candidate that a
snapshot makes of it.
-/
namespace FailoverFabric

structure CandidateFacts where
  target : TargetId := .null
  targetGeneration : TargetGeneration := .null
  service : ServiceId := .null
  replica : ReplicaId := .null
  replicaGeneration : ReplicaGeneration := .null
  engine : EngineId := .null
  engineGeneration : EngineGeneration := .null
  engineIncarnation : EngineIncarnationId := .null
  worker : WorkerId := .null
  workerBoot : WorkerBootId := .null
  profile : ReadinessProfileId := .null
  modelKey : Text := []
  runtimeAbi : Text := []
  profileGeneration : ReadinessProfileGeneration := .null
  readinessGeneration : ReadinessGeneration := .null
  ready : Bool := false
  activationEligible : Bool := false
  healthGeneration : HealthGeneration := .null
  provenance : Provenance := .unknown
  observed : Timestamp := {}
  evidenceFresh : Bool := false
  deriving DecidableEq

structure CandidateState where
  stateRequired : Bool := false
  stateAvailable : Bool := false
  stateGeneration : Option StateGeneration := none
  checkpointGeneration : Option CheckpointGeneration := none
  committedSequence : UInt64 := 0
  correctSession : Bool := false
  correctTenant : Bool := false
  correctModelGeneration : Bool := false
  stateFormatOk : Bool := false
  statusIntegrityOk : Bool := false
  replaySafe : Bool := false
  deriving DecidableEq

structure CandidateResource where
  resourceClass : Text := []
  amount : F64 := {}
  capacityGeneration : CapacityGeneration := .null
  existingClaims : List ResourceClaimId := []
  hasConflictingCommitment : Bool := false
  reservation : Option ReservationId := none
  reservationGeneration : ReservationGeneration := .null
  resourcesRevoked : Bool := false
  unit : UInt64 := 0
  deriving DecidableEq

/-- Timing and cost estimates. -/
structure CandidateCosts where
  estimatedPrepMs : UInt64 := 0
  estimatedCutoverMs : UInt64 := 0
  stateRestoreMs : UInt64 := 0
  estimatedCriticalPathMs : UInt64 := 0
  costEstimated : Bool := true
  stateLossSequences : UInt64 := 0
  deriving DecidableEq

structure Candidate where
  facts : CandidateFacts := {}
  domains : List FailureDomainId := []
  state : CandidateState := {}
  resources : List CandidateResource := []
  costs : CandidateCosts := {}
  continuity : Option ContinuityClass := none
  failedReason : Option ExclusionReason := none
  failedDetail : Text := []
  hardEligible : Bool := false
  deriving DecidableEq

/-- The candidates considered for a slot at one point. -/
structure CandidateSnapshot where
  generation : CandidateSnapshotGeneration := {}
  slot : ServiceSlotKey := {}
  candidates : List Candidate := []
  deriving DecidableEq

/-- What a candidate's published state lets it carry across a failover. -/
def inferContinuity (st : CandidateState) (facts : CandidateFacts) : ContinuityClass :=
  let complete := st.stateAvailable && st.correctSession && st.correctTenant &&
    st.correctModelGeneration && st.stateFormatOk && st.statusIntegrityOk
  if complete && st.checkpointGeneration.isSome then .checkpointRestore
  else if complete && st.stateGeneration.isSome then .sessionStateRebind
  else if facts.ready then .replaySafeRequests
  else .statelessRestart

/-- Preparation or state restore, whichever is longer, then fence, activate,
route and verify. -/
def critPathMs (costs : CandidateCosts) : UInt64 :=
  max costs.estimatedPrepMs costs.stateRestoreMs + 20 + 20 + 20 + 100

end FailoverFabric
