import FailoverFabric.Library.Codec
import FailoverFabric.Candidate
import FailoverFabric.Routing

/-! # The durable format

`persistence.hpp` and `persistence.cpp`.  A snapshot is written as magic,
version, payload length, payload and checksum.  Each `enc*` appends a record's
fields in order, each `dec*` reads them back and refuses a byte that names no
enumerator, a non-finite number, an oversized string or count.

`CoordinatorEpoch(r.u64(), dec_id(r), dec_id(r))` reads three words as function
arguments, whose evaluation order C++ leaves open: `ArgOrder` is the order the
compiler chose at each of the two call sites.
-/
namespace FailoverFabric

structure PersistenceSnapshot where
  formatVersion : UInt32 := 2
  epoch : CoordinatorEpoch := {}
  policyGeneration : PolicyGeneration := {}
  lastAuthorityGen : ServiceAuthorityGeneration := {}
  services : List ServiceDefinition := []
  assignments : List Assignment := []
  domains : List DomainDecl := []
  memberships : List DomainMembership := []
  evidence : List FailureEvent := []
  routes : List RouteEntry := []
  fencedBoots : List WorkerBootId := []
  hasTxn : Bool := false
  txnMilestone : Milestone := .verificationComplete
  pendingAssignment : Option Assignment := none
  sourceAssignment : Option Assignment := none
  pendingRoute : Option RouteEntry := none
  deriving DecidableEq

namespace Persistence
open Codec

abbrev Put := Codec.Put Error
abbrev Reader := Codec.Reader Error

def kMaxBlob : Nat := 2 ^ 30
def kMaxCount : Nat := 2 ^ 22
def kMaxString : Nat := 2 ^ 22

/-- Throw `std::runtime_error(msg)` unless the condition holds. -/
def require (ok : Bool) (msg : String) : Except Error Unit :=
  if ok then .ok () else .error (.runtimeError msg)

/-- The FNV-1a checksum. -/
def fnv1a (data : List UInt8) : UInt64 :=
  data.foldl (fun h b => (h ^^^ b.toUInt64) * 1099511628211) 1469598103934665603

/-! ## Enumerations as bytes -/

/-- An enumeration with its underlying bytes. -/
class ByteEnum (E : Type) where
  toByte : E → UInt8
  /-- The enumerators, in declaration order. -/
  values : List E
  typeName : String

/-- The enumerator a byte names. -/
def ByteEnum.ofByte {E : Type} [ByteEnum E] (b : UInt8) : Option E :=
  (values : List E).find? fun e => toByte e == b

instance : ByteEnum EvidenceStatus where
  toByte | .suspected => 0 | .confirmed => 1 | .cleared => 2 | .stale => 3 | .unknown => 4
  values := [.suspected, .confirmed, .cleared, .stale, .unknown]
  typeName := "EvidenceStatus"

instance : ByteEnum FailureCategory where
  toByte
    | .processExit => 0 | .transportDisconnect => 1 | .heartbeatExpiration => 2
    | .backendExecutionFailure => 3 | .readinessRevoked => 4 | .deviceUnavailable => 5
    | .nodeUnavailable => 6 | .resourceClaimRevoked => 7 | .dependencyInvalidation => 8
    | .adminFailover => 9 | .plannedMaintenance => 10 | .degradedHealth => 11
    | .unknownFailure => 12 | .unlisted b _ => b
  values := [.processExit, .transportDisconnect, .heartbeatExpiration, .backendExecutionFailure,
    .readinessRevoked, .deviceUnavailable, .nodeUnavailable, .resourceClaimRevoked,
    .dependencyInvalidation, .adminFailover, .plannedMaintenance, .degradedHealth, .unknownFailure]
  typeName := "FailureCategory"

instance : ByteEnum Provenance where
  toByte
    | .measured => 0 | .reported => 1 | .derived => 2 | .estimated => 3 | .synthetic => 4
    | .reconstructed => 5 | .unknown => 6
  values := [.measured, .reported, .derived, .estimated, .synthetic, .reconstructed, .unknown]
  typeName := "Provenance"

instance : ByteEnum Severity where
  toByte | .low => 0 | .medium => 1 | .high => 2 | .critical => 3
  values := [.low, .medium, .high, .critical]
  typeName := "Severity"

instance : ByteEnum AssignmentState where
  toByte
    | .candidate => 0 | .prepared => 1 | .authorized => 2 | .active => 3 | .draining => 4
    | .fenced => 5 | .retired => 6 | .revalidationRequired => 7
  values := [.candidate, .prepared, .authorized, .active, .draining, .fenced, .retired,
    .revalidationRequired]
  typeName := "AssignmentState"

instance : ByteEnum ContinuityClass where
  toByte
    | .statelessRestart => 0 | .replaySafeRequests => 1 | .checkpointRestore => 2
    | .sessionStateRebind => 3 | .sessionRestartRequired => 4 | .manualRecoveryRequired => 5
    | .unknown => 6
  values := [.statelessRestart, .replaySafeRequests, .checkpointRestore, .sessionStateRebind,
    .sessionRestartRequired, .manualRecoveryRequired, .unknown]
  typeName := "ContinuityClass"

instance : ByteEnum DomainClass where
  toByte
    | .process => 0 | .device => 1 | .host => 2 | .rack => 3 | .zone => 4 | .region => 5
    | .power => 6 | .network => 7 | .custom => 8 | .unknown => 9
  values := [.process, .device, .host, .rack, .zone, .region, .power, .network, .custom, .unknown]
  typeName := "DomainClass"

instance : ByteEnum FailbackPolicy where
  toByte | .manual => 0 | .stayOnCurrent => 1 | .returnAfterValidation => 2
  values := [.manual, .stayOnCurrent, .returnAfterValidation]
  typeName := "FailbackPolicy"

instance : ByteEnum RouteState where
  toByte
    | .empty => 0 | .pendingInstall => 1 | .installed => 2 | .acknowledged => 3
    | .revalidationRequired => 4 | .stale => 5
  values := [.empty, .pendingInstall, .installed, .acknowledged, .revalidationRequired, .stale]
  typeName := "RouteState"

instance : ByteEnum ServingRole where
  toByte | .exclusiveActive => 0 | .partitionedSlots => 1 | .multiActiveSlots => 2
  values := [.exclusiveActive, .partitionedSlots, .multiActiveSlots]
  typeName := "ServingRole"

instance : ByteEnum RtoAnchor where
  toByte
    | .firstAcceptedFailureObservation => 0 | .explicitFailoverRequest => 1
    | .serviceContractAnchor => 2
  values := [.firstAcceptedFailureObservation, .explicitFailoverRequest, .serviceContractAnchor]
  typeName := "RtoAnchor"

instance : ByteEnum Milestone where
  toByte
    | .intentOnly => 0 | .oldAdmissionFenced => 1 | .replacementAuthorized => 2
    | .activationAcknowledged => 3 | .routeInstalled => 4 | .verificationComplete => 5
  values := [.intentOnly, .oldAdmissionFenced, .replacementAuthorized, .activationAcknowledged,
    .routeInstalled, .verificationComplete]
  typeName := "Milestone"

/-! ## Fields -/

def putU8 (v : UInt8) : Put := .ok [v]

/-- Four bytes; a wider number is cut to its low 32 bits. -/
def putU32 (n : Nat) : Put := .ok (leBytes 4 n)

def putU64 (v : UInt64) : Put := .ok (leBytes 8 v.toNat)

def putBool (v : Bool) : Put := .ok [if v then 1 else 0]

def putDouble (v : F64) : Put :=
  if v.isFinite then putU64 v.bits else .error (.runtimeError "non-finite value in persistence")

def putString (s : Text) : Put :=
  if s.length ≤ kMaxString then .ok (leBytes 4 s.length ++ s)
  else .error (.runtimeError "string too large")

def putEnum {E : Type} [ByteEnum E] (e : E) : Put := putU8 (ByteEnum.toByte e)

def putId {tag : Tag} (i : Id tag) : Put := putU64 i.value

def putGen {tag : Tag} (g : Gen tag) : Put := putU64 g.value

def putOpt {α : Type} (ser : α → Put) : Option α → Put
  | none => Put.seq [putBool false]
  | some v => Put.seq [putBool true, ser v]

/-- A count and the elements. -/
def putList {α : Type} (ser : α → Put) (xs : List α) : Put :=
  Put.seq (putU32 xs.length :: xs.map ser)

def truncated : Error := .runtimeError "truncated persistence blob"

def u8 : Reader UInt8 := do
  let n ← readLE truncated 1
  return UInt8.ofNat n

def u32 : Reader UInt32 := do
  let n ← readLE truncated 4
  return UInt32.ofNat n

def u64 : Reader UInt64 := do
  let n ← readLE truncated 8
  return UInt64.ofNat n

def boolean : Reader Bool := do
  let v ← u8
  StateT.lift (require (v ≤ 1) "invalid bool")
  return v == 1

def dbl : Reader F64 := do
  let u ← u64
  StateT.lift (require (F64.mk u).isFinite "non-finite value")
  return ⟨u⟩

def str : Reader Text := do
  let len ← u32
  StateT.lift (require (len.toNat ≤ kMaxString) "string too large")
  readBytes truncated len.toNat

def count : Reader Nat := do
  let c ← u32
  StateT.lift (require (c.toNat ≤ kMaxCount) "count too large")
  return c.toNat

/-- A byte that must name an enumerator. -/
def getEnum (E : Type) [ByteEnum E] : Reader E := do
  let v ← u8
  match ByteEnum.ofByte (E := E) v with
  | some e => return e
  | none => throw (.runtimeError ("invalid " ++ ByteEnum.typeName E))

def opt {α : Type} (deser : Reader α) : Reader (Option α) := do
  let b ← boolean
  if b then
    let v ← deser
    return some v
  else return none

def decId (tag : Tag) : Reader (Id tag) := do
  let v ← u64
  return ⟨v⟩

def decGen (tag : Tag) : Reader (Gen tag) := do
  let v ← u64
  return ⟨v⟩

/-- A count and that many elements. -/
def getList {α : Type} (deser : Reader α) : Reader (List α) := do
  let n ← count
  readN deser n

/-! ## Records -/

def encTs (t : Timestamp) : Put := Put.seq [putU64 t.wallNs.toUInt64, putU64 t.seq]

def decTs : Reader Timestamp := do
  let wallNs ← u64
  let seq ← u64
  return ⟨wallNs.toInt64, seq⟩

def encSlotkey (s : ServiceSlotKey) : Put := Put.seq [putId s.service, putId s.slot]

def decSlotkey : Reader ServiceSlotKey := do
  let service ← decId .service
  let slot ← decId .serviceSlot
  return ⟨service, slot⟩

def encCompat (c : CompatibilityRequirement) : Put :=
  Put.seq [putString c.modelKey, putString c.runtimeAbi, putOpt putId c.readinessProfile,
    putList putId c.dependencies, putList putId c.requiredCapabilities]

def decCompat : Reader CompatibilityRequirement := do
  let modelKey ← str
  let runtimeAbi ← str
  let readinessProfile ← opt (decId .readinessProfile)
  let dependencies ← getList (decId .dependency)
  let requiredCapabilities ← getList (decId .compatibility)
  return ⟨modelKey, runtimeAbi, readinessProfile, dependencies, requiredCapabilities⟩

def encDomreq (d : DomainRequirement) : Put :=
  Put.seq [putBool d.requireDomainIndependence, putU32 d.minDistinctHosts.toNat,
    putU32 d.minDistinctDevices.toNat, putList putEnum d.forbiddenOverlapClasses]

def decDomreq : Reader DomainRequirement := do
  let requireDomainIndependence ← boolean
  let minDistinctHosts ← u32
  let minDistinctDevices ← u32
  let forbiddenOverlapClasses ← getList (getEnum DomainClass)
  return ⟨requireDomainIndependence, minDistinctHosts, minDistinctDevices, forbiddenOverlapClasses⟩

def encResreq (r : ResourceRequirement) : Put :=
  Put.seq [putString r.resourceClass, putDouble r.amount, putBool r.exactlyOneTarget]

def decResreq : Reader ResourceRequirement := do
  let resourceClass ← str
  let amount ← dbl
  let exactlyOneTarget ← boolean
  return ⟨resourceClass, amount, exactlyOneTarget⟩

def encReco (o : RecoveryObjective) : Put :=
  Put.seq [putU64 o.rtoMs, putEnum o.rtoAnchor, putEnum o.continuity,
    putU64 o.maxStateLossSequences, putOpt putGen o.minCheckpointGen,
    putBool o.requiresVerifiedRecovery]

def decReco : Reader RecoveryObjective := do
  let rtoMs ← u64
  let rtoAnchor ← getEnum RtoAnchor
  let continuity ← getEnum ContinuityClass
  let maxStateLossSequences ← u64
  let minCheckpointGen ← opt (decGen .checkpoint)
  let requiresVerifiedRecovery ← boolean
  return ⟨rtoMs, rtoAnchor, continuity, maxStateLossSequences, minCheckpointGen,
    requiresVerifiedRecovery⟩

def encAfp (p : AntiFlappingPolicy) : Put :=
  Put.seq [putU32 p.maxAutoAttempts.toNat, putU32 p.cooldownMs.toNat, putU32 p.hysteresisMs.toNat,
    putBool p.manualInterventionRequired]

def decAfp : Reader AntiFlappingPolicy := do
  let maxAutoAttempts ← u32
  let cooldownMs ← u32
  let hysteresisMs ← u32
  let manualInterventionRequired ← boolean
  return ⟨maxAutoAttempts, cooldownMs, hysteresisMs, manualInterventionRequired⟩

def encSvc (s : ServiceDefinition) : Put :=
  Put.seq [putId s.service, putGen s.generation, putGen s.configGeneration, putString s.name,
    putEnum s.role, putU32 s.slots.first.toNat, putU32 s.slots.count.toNat,
    encCompat s.compatibility, encDomreq s.domainRequirement, putList encResreq s.resources,
    encReco s.recovery, putEnum s.failback, encAfp s.antiFlapping, putList putId s.requiredState,
    putEnum s.provenance, putGen s.policyGeneration]

def decSvc : Reader ServiceDefinition := do
  let service ← decId .service
  let generation ← decGen .service
  let configGeneration ← decGen .serviceConfig
  let name ← str
  let role ← getEnum ServingRole
  let first ← u32
  let count ← u32
  let compatibility ← decCompat
  let domainRequirement ← decDomreq
  let resources ← getList decResreq
  let recovery ← decReco
  let failback ← getEnum FailbackPolicy
  let antiFlapping ← decAfp
  let requiredState ← getList (decId .state)
  let provenance ← getEnum Provenance
  let policyGeneration ← decGen .policy
  return ⟨service, generation, configGeneration, name, role, ⟨first, count⟩, compatibility,
    domainRequirement, resources, recovery, failback, antiFlapping, requiredState, provenance,
    policyGeneration⟩

def encAssign (a : Assignment) : Put :=
  Put.seq [putId a.id, putGen a.generation, encSlotkey a.slot, putId a.target,
    putGen a.targetGeneration, putId a.replica, putGen a.replicaGeneration, putId a.engine,
    putId a.engineIncarnation, putId a.readinessProfile, putGen a.authorityGeneration,
    putId a.activation, putGen a.activationGeneration, putId a.route, putGen a.routeGeneration,
    putId a.workerBoot, putList putId a.resourceClaims, putList putId a.continuityState,
    putEnum a.state, putBool a.provisory, putEnum a.provenance]

def decAssign : Reader Assignment := do
  let id ← decId .assignment
  let generation ← decGen .assignment
  let slot ← decSlotkey
  let target ← decId .target
  let targetGeneration ← decGen .target
  let replica ← decId .replica
  let replicaGeneration ← decGen .replica
  let engine ← decId .engine
  let engineIncarnation ← decId .engineIncarnation
  let readinessProfile ← decId .readinessProfile
  let authorityGeneration ← decGen .serviceAuthority
  let activation ← decId .activation
  let activationGeneration ← decGen .activation
  let route ← decId .route
  let routeGeneration ← decGen .route
  let workerBoot ← decId .workerBoot
  let resourceClaims ← getList (decId .resourceClaim)
  let continuityState ← getList (decId .state)
  let state ← getEnum AssignmentState
  let provisory ← boolean
  let provenance ← getEnum Provenance
  return ⟨id, generation, slot, target, targetGeneration, replica, replicaGeneration, engine,
    engineIncarnation, readinessProfile, authorityGeneration, activation, activationGeneration,
    route, routeGeneration, workerBoot, resourceClaims, continuityState, state, provisory,
    provenance⟩

def encDomdecl (d : DomainDecl) : Put :=
  Put.seq [putId d.id, putGen d.generation, putEnum d.cls, putString d.name, putOpt putId d.parent,
    putEnum d.provenance]

def decDomdecl : Reader DomainDecl := do
  let id ← decId .failureDomain
  let generation ← decGen .failureDomain
  let cls ← getEnum DomainClass
  let name ← str
  let parent ← opt (decId .failureDomain)
  let provenance ← getEnum Provenance
  return ⟨id, generation, cls, name, parent, provenance⟩

def encMemb (m : DomainMembership) : Put :=
  Put.seq [putId m.target, putId m.domain, putBool m.known]

def decMemb : Reader DomainMembership := do
  let target ← decId .target
  let domain ← decId .failureDomain
  let known ← boolean
  return ⟨target, domain, known⟩

def encEv (e : FailureEvent) : Put :=
  Put.seq [putId e.eventId, putGen e.generation, putId e.source, putId e.sourceBoot,
    putEnum e.category, putEnum e.status, putEnum e.provenance, putEnum e.severity,
    putDouble e.confidence, putOpt putId e.target, putOpt putGen e.targetGeneration,
    putOpt putId e.domain, encTs e.observed, encTs e.received, putString e.mechanism,
    putString e.detail, putList putId e.affectedDomains, putBool e.revalidatesExisting]

def decEv : Reader FailureEvent := do
  let eventId ← decId .failureEvent
  let generation ← decGen .failureEvent
  let source ← decId .source
  let sourceBoot ← decId .sourceBoot
  let category ← getEnum FailureCategory
  let status ← getEnum EvidenceStatus
  let provenance ← getEnum Provenance
  let severity ← getEnum Severity
  let confidence ← dbl
  let target ← opt (decId .target)
  let targetGeneration ← opt (decGen .target)
  let domain ← opt (decId .failureDomain)
  let observed ← decTs
  let received ← decTs
  let mechanism ← str
  let detail ← str
  let affectedDomains ← getList (decId .failureDomain)
  let revalidatesExisting ← boolean
  return ⟨eventId, generation, source, sourceBoot, category, status, provenance, severity,
    confidence, target, targetGeneration, domain, observed, received, mechanism, detail,
    affectedDomains, revalidatesExisting⟩

def encEpoch (e : CoordinatorEpoch) : Put :=
  Put.seq [putU64 e.value, putId e.id, putId e.boot]

/-- The order in which the arguments value, id and boot are evaluated. -/
inductive ArgOrder
  | valueIdBoot | valueBootId | idValueBoot | idBootValue | bootValueId | bootIdValue
  deriving DecidableEq

/-- The epoch built from three words read in the given order. -/
def ArgOrder.build : ArgOrder → UInt64 → UInt64 → UInt64 → CoordinatorEpoch
  | valueIdBoot, x, y, z => ⟨x, ⟨y⟩, ⟨z⟩⟩
  | valueBootId, x, y, z => ⟨x, ⟨z⟩, ⟨y⟩⟩
  | idValueBoot, x, y, z => ⟨y, ⟨x⟩, ⟨z⟩⟩
  | idBootValue, x, y, z => ⟨z, ⟨x⟩, ⟨y⟩⟩
  | bootValueId, x, y, z => ⟨y, ⟨z⟩, ⟨x⟩⟩
  | bootIdValue, x, y, z => ⟨z, ⟨y⟩, ⟨x⟩⟩

/-- The epoch read back from the three words of a written one. -/
def ArgOrder.reread (ord : ArgOrder) (e : CoordinatorEpoch) : CoordinatorEpoch :=
  ord.build e.value e.id.value e.boot.value

/-- The evaluation orders of the two sites that construct an epoch. -/
structure CallOrders where
  decEpoch : ArgOrder := .valueIdBoot
  decRoute : ArgOrder := .valueIdBoot
  deriving DecidableEq

def decEpoch (ord : ArgOrder) : Reader CoordinatorEpoch := do
  let x ← u64
  let y ← u64
  let z ← u64
  return ord.build x y z

def encRoute (e : RouteEntry) : Put :=
  Put.seq [putId e.route, putGen e.generation, encSlotkey e.slot, putId e.target,
    putGen e.targetGeneration, putId e.incarnation, putId e.permittedBoot, putId e.assignment,
    putGen e.assignmentGeneration, encEpoch e.epoch, putId e.gatewayBoot, putEnum e.state,
    putString e.transport, putEnum e.provenance]

def decRoute (ord : ArgOrder) : Reader RouteEntry := do
  let route ← decId .route
  let generation ← decGen .route
  let slot ← decSlotkey
  let target ← decId .target
  let targetGeneration ← decGen .target
  let incarnation ← decId .engineIncarnation
  let permittedBoot ← decId .workerBoot
  let assignment ← decId .assignment
  let assignmentGeneration ← decGen .assignment
  let epoch ← decEpoch ord
  let gatewayBoot ← decId .gatewayBoot
  let state ← getEnum RouteState
  let transport ← str
  let provenance ← getEnum Provenance
  return ⟨route, generation, slot, target, targetGeneration, incarnation, permittedBoot,
    assignment, assignmentGeneration, epoch, state, gatewayBoot, transport, provenance⟩

/-! ## The payload -/

def kMagic : List UInt8 := text "FFRST001"
def kVersion : UInt32 := 2

/-- The record of an incomplete cutover. -/
def encTxn (s : PersistenceSnapshot) : Put :=
  if s.hasTxn then
    Put.seq [putEnum s.txnMilestone, putOpt encAssign s.pendingAssignment,
      putOpt encAssign s.sourceAssignment, putOpt encRoute s.pendingRoute]
  else Put.seq []

def encPayload (s : PersistenceSnapshot) : Put :=
  Put.seq [putU32 s.formatVersion.toNat, encEpoch s.epoch, putGen s.policyGeneration,
    putGen s.lastAuthorityGen, putList encSvc s.services, putList encAssign s.assignments,
    putList encDomdecl s.domains, putList encMemb s.memberships, putList encEv s.evidence,
    putList encRoute s.routes, putList putId s.fencedBoots, putBool s.hasTxn, encTxn s]

/-- Wrap a payload: magic, version, length, payload, checksum. -/
def frame (payload : List UInt8) : List UInt8 :=
  let body := kMagic ++ leBytes 4 kVersion.toNat ++ leBytes 8 payload.length ++ payload
  body ++ leBytes 8 (fnv1a body).toNat

def encode (s : PersistenceSnapshot) : Except Error (List UInt8) :=
  if s.formatVersion ≠ kVersion then .error (.runtimeError "unsupported format version")
  else
    match encPayload s with
    | .ok payload => .ok (frame payload)
    | .error e => .error e

/-- The pending replacement of an incomplete cutover is not yet active. -/
def checkPending (pending : Option Assignment) : Except Error Unit :=
  require (pending.all fun a => a.state == .authorized) "pending assignment must be authorized"

/-- The decoded cutover record: milestone, pending and source assignment, route. -/
structure Txn where
  milestone : Milestone := .verificationComplete
  pending : Option Assignment := none
  source : Option Assignment := none
  route : Option RouteEntry := none

def decTxn (ord : CallOrders) (hasTxn : Bool) : Reader Txn := do
  if hasTxn then
    let milestone ← getEnum Milestone
    let pending ← opt decAssign
    let source ← opt decAssign
    let route ← opt (decRoute ord.decRoute)
    StateT.lift (checkPending pending)
    return ⟨milestone, pending, source, route⟩
  else return {}

def decPayload (ord : CallOrders) : Reader PersistenceSnapshot := do
  let formatVersion ← u32
  StateT.lift (require (formatVersion == kVersion) "unsupported snapshot format_version")
  let epoch ← decEpoch ord.decEpoch
  let policyGeneration ← decGen .policy
  let lastAuthorityGen ← decGen .serviceAuthority
  let services ← getList decSvc
  let assignments ← getList decAssign
  let domains ← getList decDomdecl
  let memberships ← getList decMemb
  let evidence ← getList decEv
  let routes ← getList (decRoute ord.decRoute)
  let fencedBoots ← getList (decId .workerBoot)
  let hasTxn ← boolean
  let txn ← decTxn ord hasTxn
  return ⟨formatVersion, epoch, policyGeneration, lastAuthorityGen, services, assignments, domains,
    memberships, evidence, routes, fencedBoots, hasTxn, txn.milestone, txn.pending, txn.source,
    txn.route⟩

/-! ## Semantic validation -/

/-- The service identities are distinct. -/
def checkIdentities : List ServiceId → Except Error Unit
  | [] => .ok ()
  | id :: ids => do
    require (!ids.contains id) "duplicate service identity"
    checkIdentities ids

/-- The checks on each assignment, with the slots already seen active. -/
def checkAssignments (known : List ServiceId) :
    List ServiceSlotKey → List Assignment → Except Error Unit
  | _, [] => .ok ()
  | seenActive, a :: as => do
    require (known.contains a.slot.service) "assignment references unknown service"
    require (a.state != .active || !seenActive.contains a.slot)
      "duplicate exclusive active assignment"
    require (!a.authorityGeneration.isNull) "null authority generation"
    checkAssignments known (if a.state = .active then a.slot :: seenActive else seenActive) as

def validate (s : PersistenceSnapshot) : Except Error Unit := do
  checkIdentities (s.services.map (·.service))
  checkAll (fun d : ServiceDefinition => require (d.slots.count != 0) "service has zero slots")
    s.services
  checkAssignments (s.services.map (·.service)) [] s.assignments

/-- The payload length that a blob's header states. -/
def statedLength (blob : List UInt8) : Nat := ofLE ((blob.drop 12).take 8)

/-- The header checks, in order, and the payload they admit. -/
def payloadOf (blob : List UInt8) : Except Error (List UInt8) := do
  require (36 ≤ blob.length) "persistence blob too short"
  require (blob.take 8 == kMagic) "bad persistence magic"
  require (ofLE ((blob.drop 8).take 4) == kVersion.toNat) "unsupported persistence version"
  require (statedLength blob ≤ kMaxBlob) "persistence payload too large"
  require (20 + statedLength blob + 8 == blob.length) "persistence length mismatch"
  require ((fnv1a (blob.take (20 + statedLength blob))).toNat ==
    ofLE ((blob.drop (20 + statedLength blob)).take 8)) "persistence checksum mismatch"
  return (blob.drop 20).take (statedLength blob)

/-- Decode into a validated temporary. -/
def decode (ord : CallOrders) (blob : List UInt8) : Except Error PersistenceSnapshot := do
  let payload ← payloadOf blob
  let r ← decPayload ord payload
  require r.2.isEmpty "trailing garbage in persistence payload"
  validate r.1
  return r.1

end Persistence

end FailoverFabric
