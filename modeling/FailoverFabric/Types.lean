import FailoverFabric.Identities

/-! # Shared enumerations and small value types

`types.hpp`, and the enumerations of the other headers.  A `std::string` is a
byte list (`Text`): persisted strings may hold any bytes.  A `double` is its bit
pattern (`F64`), with the comparison and the finiteness test the code applies to
it; no double arithmetic is modelled.
-/
namespace FailoverFabric

/-- A `std::string`. -/
abbrev Text := List UInt8

/-- A string literal. -/
def text (s : String) : Text := s.toList.map fun c => UInt8.ofNat c.toNat

/-- `std::to_string` of an unsigned value. -/
def decimal (n : Nat) : Text := text (Nat.repr n)

/-- A clock reading, in nanoseconds. -/
abbrev Time := Int

inductive EvidenceStatus
  | suspected | confirmed | cleared | stale | unknown
  deriving DecidableEq

/-- The failure categories.  The underlying byte may also be one that names no
category: `PUBLISH_FAILURE` casts it unchecked. -/
inductive FailureCategory
  | processExit | transportDisconnect | heartbeatExpiration | backendExecutionFailure
  | readinessRevoked | deviceUnavailable | nodeUnavailable | resourceClaimRevoked
  | dependencyInvalidation | adminFailover | plannedMaintenance | degradedHealth
  | unknownFailure
  | unlisted (byte : UInt8) (h : 12 < byte)
  deriving DecidableEq

/-- The category names an enumerator. -/
def FailureCategory.listed : FailureCategory → Bool
  | .unlisted _ _ => false
  | _ => true

inductive Provenance
  | measured | reported | derived | estimated | synthetic | reconstructed | unknown
  deriving DecidableEq

inductive ServiceOutcome
  | unknown | available | degraded | unavailable | recovering | revalidationRequired
  deriving DecidableEq

inductive AttemptState
  | requested | evaluating | blocked | preparing | fencing | promoting | cuttingOver
  | verifying | completed | failed | cancelled | superseded | recoveryRequired
  deriving DecidableEq

inductive AssignmentState
  | candidate | prepared | authorized | active | draining | fenced | retired
  | revalidationRequired
  deriving DecidableEq

inductive ContinuityClass
  | statelessRestart | replaySafeRequests | checkpointRestore | sessionStateRebind
  | sessionRestartRequired | manualRecoveryRequired | unknown
  deriving DecidableEq

inductive DomainClass
  | process | device | host | rack | zone | region | power | network | custom | unknown
  deriving DecidableEq

inductive ExclusionReason
  | noEligibleTarget | staleReadiness | incompatibleProfile | failedDomain
  | domainIndependenceUnknown | insufficientCapacity | commitmentConflict
  | stateUnavailable | stateTooOld | fencingUnproven | routeAuthorityUnavailable
  | recoveryBudgetInfeasible | revalidationRequired | staleAuthority | fencedBoot
  | unknownRequiredEvidence | resourcesRevoked | unreadyEngine | unsupportedContinuity
  | policyProhibitedDegradation | staleRoutePrecondition
  deriving DecidableEq

inductive RequestDisposition
  | notDispatched | dispatched | acceptedByTarget | confirmedComplete
  | responseCommitted | failed | outcomeUnknown
  deriving DecidableEq

inductive FailbackPolicy
  | manual | stayOnCurrent | returnAfterValidation
  deriving DecidableEq

inductive RouteState
  | empty | pendingInstall | installed | acknowledged | revalidationRequired | stale
  deriving DecidableEq

inductive Severity
  | low | medium | high | critical
  deriving DecidableEq

inductive ServingRole
  | exclusiveActive | partitionedSlots | multiActiveSlots
  deriving DecidableEq

inductive RtoAnchor
  | firstAcceptedFailureObservation | explicitFailoverRequest | serviceContractAnchor
  deriving DecidableEq

inductive FenceState
  | none | requested | enforced | unproven | superseded
  deriving DecidableEq

inductive IdempotencyAuthority
  | none | safeToRetry | deterministicReference
  deriving DecidableEq

/-- The order-preserving milestones of a cutover transaction. -/
inductive Milestone
  | intentOnly | oldAdmissionFenced | replacementAuthorized | activationAcknowledged
  | routeInstalled | verificationComplete
  deriving DecidableEq

/-- A wall-clock timestamp and a per-source observation sequence. -/
structure Timestamp where
  wallNs : Int64 := 0
  seq : UInt64 := 0
  deriving DecidableEq

/-- A `double`, as its IEEE-754 bit pattern. -/
structure F64 where
  bits : UInt64 := 0
  deriving DecidableEq

namespace F64

/-- `std::isfinite`: the exponent field is not all ones. -/
def isFinite (x : F64) : Bool := (x.bits >>> 52) &&& 0x7ff != 0x7ff

/-- Not-a-number: exponent all ones and a non-zero fraction. -/
def isNaN (x : F64) : Bool := !x.isFinite && x.bits &&& 0xfffffffffffff != 0

/-- The position of a number on the line of all doubles: sign and magnitude. -/
def rankOf (x : F64) : Int :=
  if x.bits < 0x8000000000000000 then x.bits.toNat
  else -((x.bits.toNat : Int) - 0x8000000000000000)

/-- `operator<` on doubles. -/
def lt (x y : F64) : Bool := !x.isNaN && !y.isNaN && decide (x.rankOf < y.rankOf)

/-- `1.0`. -/
def one : F64 := ⟨0x3ff0000000000000⟩

end F64

end FailoverFabric
