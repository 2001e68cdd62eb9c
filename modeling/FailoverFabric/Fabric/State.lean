import FailoverFabric.Persistence.Format
import FailoverFabric.Selection
import FailoverFabric.Request

/-! # The coordinator core: state and control-plane operations

`FailoverFabric::Impl` and the operations of `fabric.cpp` that take the lock
once.  Vectors with a key index are `IndexedVec`s; the other maps are functions.
An operation that reads the clock takes the reading as an argument.  An
operation that throws before it changes anything returns `Except Error Fabric`.
-/
namespace FailoverFabric

/-- The configured limits on what grows.  The core enforces those on the services, the
targets and the candidates of a snapshot; it reads none of the others. -/
structure RuntimeConfig where
  maxServices : Nat := 10000
  maxSlots : Nat := 20000
  maxTargets : Nat := 20000
  maxCandidatesPerSnapshot : Nat := 4096
  maxDomains : Nat := 10000
  maxMemberships : Nat := 100000
  maxFailureHistory : Nat := 10000
  maxRequests : Nat := 65536
  maxAttemptHistory : Nat := 4096
  maxRouteHistory : Nat := 64
  deriving DecidableEq

structure SlotState where
  slot : ServiceSlotKey := {}
  current : Option Assignment := none
  history : List Assignment := []
  deriving DecidableEq

/-- The assignments of a record, current first. -/
def SlotState.assignments (st : SlotState) : List Assignment := st.current.toList ++ st.history

structure TargetRecord where
  id : TargetId := .null
  transport : Text := []
  facts : Option CandidateFacts := none
  hasState : Bool := false
  state : CandidateState := {}
  resources : List CandidateResource := []
  deriving DecidableEq

/-- `FailoverFabric::Impl`. -/
structure Fabric where
  cfg : RuntimeConfig := {}
  services : IndexedVec ServiceId ServiceDefinition := {}
  slots : IndexedVec ServiceSlotKey SlotState := {}
  targets : IndexedVec TargetId TargetRecord := {}
  targetsByService : ServiceId → List Nat := fun _ => []
  evidence : EvidenceStore := {}
  domains : DomainRegistry := {}
  routes : RouteTable := {}
  requests : RequestTracker := {}
  epoch : CoordinatorEpoch := {}
  policyGen : PolicyGeneration := {}
  lastAuthorityGen : ServiceAuthorityGeneration := .first
  snapshotCounter : CandidateSnapshotGeneration := {}
  assignmentCounter : AssignmentId := .minId
  assignmentGenCounter : AssignmentGeneration := {}
  attemptCounter : FailoverAttemptId := .minId
  attemptGenCounter : FailoverAttemptGeneration := {}
  planCounter : FailoverPlanId := .minId
  planGenCounter : FailoverPlanGeneration := {}
  routeCounter : RouteId := .minId
  routeGenCounter : RouteGeneration := {}
  activationCounter : ActivationId := .minId
  activationGenCounter : ActivationGeneration := {}
  gatewayBoot : GatewayBootId := .null
  coordinatorId : CoordinatorId := .minId
  fencedBoots : List WorkerBootId := []
  attemptStates : List AttemptState := []
  confirmedFailedTargets : TargetId → Bool := fun _ => false
  receiptSeq : UInt64 := 0
  preferred : ServiceSlotKey → Option TargetId := fun _ => none
  lastTransition : ServiceSlotKey → Option Time := fun _ => none
  failbackAttempts : ServiceSlotKey → Option UInt32 := fun _ => none
  manualFailbackAuthorized : ServiceSlotKey → Bool := fun _ => false
  readySince : TargetId → Option Time := fun _ => none
  dispatchCount : Nat := 0
  checkpointPath : Text := []
  barrierMilestone : Milestone := .verificationComplete
  hasTxn : Bool := false
  txnMilestone : Milestone := .intentOnly
  pendingAssignment : Option Assignment := none
  sourceAssignment : Option Assignment := none
  pendingRoute : Option RouteEntry := none

namespace Fabric

def findSlot (s : Fabric) (slot : ServiceSlotKey) : Option SlotState := s.slots.find slot

def findService (s : Fabric) (id : ServiceId) : Option ServiceDefinition := s.services.find id

def serviceForSlot (s : Fabric) (slot : ServiceSlotKey) : Option ServiceDefinition :=
  s.findService slot.service

def bootFenced (s : Fabric) (b : WorkerBootId) : Bool := s.fencedBoots.contains b

/-- A null boot is never fenced, and a boot is listed once. -/
def addFencedBoot (s : Fabric) (b : WorkerBootId) : Fabric :=
  if !b.isNull && !s.bootFenced b then { s with fencedBoots := s.fencedBoots ++ [b] } else s

/-! ## Control plane and service contract -/

def setCoordinatorIdentity (s : Fabric) (id : CoordinatorId) (epoch : UInt64) : Fabric :=
  { s with coordinatorId := id, epoch := ⟨epoch, id, id⟩ }

def setGatewayBoot (s : Fabric) (boot : GatewayBootId) : Fabric := { s with gatewayBoot := boot }

def createService (s : Fabric) (d : ServiceDefinition) : Except Error Fabric :=
  if s.cfg.maxServices ≤ s.services.items.length then
    .error (.capacityExceeded "max_services exceeded")
  else if s.services.items.any fun x => x.service == d.service then
    .error (.invalidArgument "service already exists with same identity")
  else .ok { s with services := s.services.push d.service d }

/-- The slots of a service's contract. -/
def slotsOf (s : Fabric) (service : ServiceId) : List ServiceSlotKey :=
  match s.findService service with
  | none => []
  | some svc =>
    (List.range svc.slots.count.toNat).map fun i =>
      ⟨service, ⟨(svc.slots.first + UInt32.ofNat i).toUInt64⟩⟩

/-! ## Assignments -/

/-- The assignment that an initial one becomes. -/
def activated (s : Fabric) (a : Assignment) : Assignment :=
  { a with
    state := .active
    provisory := false
    authorityGeneration :=
      if a.authorityGeneration.isNull then s.lastAuthorityGen else a.authorityGeneration }

def setInitialAssignment (s : Fabric) (now : Time) (a : Assignment) : Except Error Fabric :=
  if a.slot.service.isNull || a.slot.slot.isNull then
    .error (.invalidArgument "assignment slot is null")
  else
    let s' :=
      { s with
        preferred := Function.update s.preferred a.slot (some a.target)
        lastTransition := Function.update s.lastTransition a.slot (some now)
        failbackAttempts := Function.update s.failbackAttempts a.slot (some 0) }
    match s.findSlot a.slot with
    | some st =>
      -- thrown before anything is written
      if st.current.isSome then .error (.logicError "slot already has a current assignment")
      else
        .ok { s' with
          slots := s.slots.modify a.slot fun st => { st with current := some (s.activated a) } }
    | none => .ok { s' with slots := s.slots.push a.slot ⟨a.slot, some (s.activated a), []⟩ }

def currentAssignment (s : Fabric) (slot : ServiceSlotKey) : Option Assignment :=
  (s.findSlot slot).bind (·.current)

def assignmentHistory (s : Fabric) (slot : ServiceSlotKey) (max : Nat) : List Assignment :=
  match s.findSlot slot with
  | none => []
  | some st => st.history.take max

/-! ## Domains, targets, evidence -/

def declareDomain (s : Fabric) (d : DomainDecl) : Fabric :=
  { s with domains := s.domains.declare d }

def setMembership (s : Fabric) (m : DomainMembership) : Fabric :=
  { s with domains := s.domains.setMembership m }

def registerTarget (s : Fabric) (id : TargetId) (transport : Text) : Except Error Fabric :=
  if s.cfg.maxTargets ≤ s.targets.items.length then
    .error (.capacityExceeded "max_targets exceeded")
  else if (s.targets.find id).isSome then .ok s
  else .ok { s with targets := s.targets.push id { id := id, transport := transport } }

/-- Bind a target's position to the service its facts name, unless it already
was. -/
def bindToService (s : Fabric) (t : TargetRecord) (f : CandidateFacts) : ServiceId → List Nat :=
  if f.service ≠ .null ∧ (t.facts.any fun old => old.service == f.service) = false then
    Function.update s.targetsByService f.service
      (s.targetsByService f.service ++ (s.targets.index f.target).toList)
  else s.targetsByService

/-- Publish facts, unless they are of an older readiness generation.  Facts that
say the target is ready clear its confirmed failure. -/
def publishCandidateFacts (s : Fabric) (now : Time) (f : CandidateFacts) : Except Error Fabric :=
  match s.targets.find f.target with
  | none => .error (.invalidArgument "target not registered")
  | some t =>
    if t.facts.all fun old => old.readinessGeneration.value ≤ f.readinessGeneration.value then
      .ok { s with
        targetsByService := s.bindToService t f
        confirmedFailedTargets :=
          if f.ready then Function.update s.confirmedFailedTargets f.target false
          else s.confirmedFailedTargets
        readySince := if f.ready then Function.update s.readySince f.target (some now) else s.readySince
        targets := s.targets.modify f.target fun t =>
          { t with facts := some { f with evidenceFresh := true } } }
    else .ok s

def publishCandidateState (s : Fabric) (t : TargetId) (st : CandidateState) : Except Error Fabric :=
  match s.targets.find t with
  | none => .error (.invalidArgument "target not registered")
  | some _ =>
    .ok { s with targets := s.targets.modify t fun r => { r with state := st, hasState := true } }

def publishCandidateResources (s : Fabric) (t : TargetId) (rs : List CandidateResource) :
    Except Error Fabric :=
  match s.targets.find t with
  | none => .error (.invalidArgument "target not registered")
  | some _ => .ok { s with targets := s.targets.modify t fun r => { r with resources := rs } }

/-- The event with a receipt sequence of its own when it came without one. -/
def sequenced (s : Fabric) (ev : FailureEvent) : FailureEvent :=
  if ev.received.seq = 0 then
    { ev with received := { ev.received with seq := s.receiptSeq + 1 } }
  else ev

def publishFailure (s : Fabric) (ev : FailureEvent) : Fabric :=
  { s with
    receiptSeq := if ev.received.seq = 0 then s.receiptSeq + 1 else s.receiptSeq
    confirmedFailedTargets :=
      match ev.target with
      -- an unknown status counts as a failure
      | some t =>
        if ev.status = .confirmed ∨ ev.status = .unknown then
          Function.update s.confirmedFailedTargets t true
        else s.confirmedFailedTargets
      | none => s.confirmedFailedTargets
    evidence := (s.evidence.publish (s.sequenced ev)).1 }

def clearFailure (s : Fabric) (id : FailureEventId) : Fabric :=
  { s with evidence := s.evidence.clear id }

/-! ## Failback authorization, checkpoint path, barrier -/

def authorizeFailback (s : Fabric) (slot : ServiceSlotKey) : Fabric :=
  { s with manualFailbackAuthorized := Function.update s.manualFailbackAuthorized slot true }

def setCheckpointPath (s : Fabric) (path : Text) : Fabric := { s with checkpointPath := path }

def setCutoverBarrier (s : Fabric) (m : Milestone) : Fabric := { s with barrierMilestone := m }

def clearCutoverBarrier (s : Fabric) : Fabric := { s with barrierMilestone := .verificationComplete }

def hasIncompleteCutover (s : Fabric) : Bool :=
  s.hasTxn && s.txnMilestone != .verificationComplete

/-! ## Requests and routes -/

def recordRequest (s : Fabric) (r : RequestRecord) : Fabric :=
  { s with requests := s.requests.record r }

def classifyLateResult (s : Fabric) (id : RequestId) (auth : WorkerAuthorization) :
    Fabric × LateOutcome :=
  let r := s.requests.classifyLateResult id auth
  ({ s with requests := r.1 }, r.2)

def markOutcomeUnknown (s : Fabric) (id : RequestId) : Fabric :=
  { s with requests := s.requests.setOutcomeUnknown id }

def recordDispatch (s : Fabric) : Fabric := { s with dispatchCount := s.dispatchCount + 1 }

/-- Whether a request may be replayed automatically. -/
def retryAllowed (s : Fabric) (id : RequestId) : Bool :=
  match s.requests.find id with
  | none => false
  | some r =>
    if r.authority = .safeToRetry ∨ r.authority = .deterministicReference then true
    else if r.externallyEffectful then false
    else r.idempotent

/-- Install a route of the current epoch, as acknowledged by the given gateway. -/
def installRoute (s : Fabric) (entry : RouteEntry) (boot : GatewayBootId) : Fabric × Bool :=
  if entry.epoch ≠ s.epoch then (s, false)
  else
    let r := s.routes.install { entry with state := .acknowledged, gatewayBoot := boot }
    ({ s with routes := r.1 }, r.2)

def bindRouteGateway (s : Fabric) (slot : ServiceSlotKey) (boot : GatewayBootId) : Fabric × Bool :=
  let r := s.routes.bindGateway slot boot
  ({ s with routes := r.1 }, r.2)

def markRoutesRevalidation (s : Fabric) : Fabric :=
  { s with routes := s.routes.markRevalidationRequired }

def serviceOutcome (s : Fabric) (slot : ServiceSlotKey) : ServiceOutcome :=
  match s.currentAssignment slot with
  | none => .unavailable
  | some cur =>
    let r := s.routes.current slot
    if (r.any fun e => e.state == .revalidationRequired) then .revalidationRequired
    else if cur.state = .active ∧ (r.any fun e => e.state == .acknowledged) = true then
      if (s.evidence.latestFailureFor cur.target).isSome then .degraded else .available
    else if cur.state = .draining ∨ cur.state = .revalidationRequired then .revalidationRequired
    else .unavailable

/-! ## The authority gate -/

/-- `dispatch_allowed_locked`: every check that an authorization must pass. -/
def dispatchAllowed (s : Fabric) (auth : WorkerAuthorization) : GateDecision :=
  match s.currentAssignment auth.slot with
  | none => ⟨false, "no current assignment for slot", true⟩
  | some cur =>
    if auth.epoch ≠ s.epoch then ⟨false, "stale coordinator epoch", true⟩
    else if auth.assignment ≠ cur.id ∨ auth.assignmentGeneration ≠ cur.generation then
      ⟨false, "stale assignment generation", true⟩
    else if auth.routeGeneration ≠ cur.routeGeneration then ⟨false, "stale route generation", true⟩
    else if (s.routes.current auth.slot).any fun rt =>
        rt.state == .revalidationRequired || rt.state == .empty || rt.state == .stale then
      ⟨false, "route requires revalidation", true⟩
    else if auth.workerBoot ≠ cur.workerBoot then ⟨false, "worker boot not current", true⟩
    else if s.bootFenced auth.workerBoot then ⟨false, "fenced worker boot", true⟩
    else if cur.state ≠ .active then ⟨false, "assignment not active", true⟩
    else ⟨true, "authorized", false⟩

def authorizeDispatch (s : Fabric) (auth : WorkerAuthorization) : GateDecision :=
  s.dispatchAllowed auth

def authorizeResult (s : Fabric) (auth : WorkerAuthorization) : GateDecision :=
  let d := s.dispatchAllowed auth
  if d.allowed = false then d
  else
    match s.requests.find auth.request with
    | none => ⟨false, "unknown request", true⟩
    | some rec =>
      if rec.disposition = .responseCommitted then ⟨false, "response already committed", true⟩
      else ⟨true, "authorized result", false⟩

/-- The slot has a route, and it does not authorize dispatch. -/
def routeShut (s : Fabric) (slot : ServiceSlotKey) : Bool :=
  (s.routes.current slot).any fun rt =>
    rt.state == .revalidationRequired || rt.state == .empty || rt.state == .stale

theorem routeShut_iff {s : Fabric} {key : ServiceSlotKey} :
    s.routeShut key = true ↔ ∃ e, s.routes.current key = some e ∧
      (e.state = .revalidationRequired ∨ e.state = .empty ∨ e.state = .stale) := by
  unfold routeShut
  cases s.routes.current key with
  | none => simp
  | some e => simp [or_assoc]

theorem currentAssignment_congr {s s' : Fabric} (h : s'.slots = s.slots) (key : ServiceSlotKey) :
    s'.currentAssignment key = s.currentAssignment key := by
  rw [currentAssignment, findSlot, h]
  rfl

theorem routeShut_congr {s s' : Fabric} {key : ServiceSlotKey}
    (h : s'.routes.current key = s.routes.current key) : s'.routeShut key = s.routeShut key := by
  rw [routeShut, h]
  rfl

/-- Routes marked for revalidation are shut. -/
theorem routeShut_revalidated {s : Fabric} {t : RouteTable} {key : ServiceSlotKey}
    (h : s.routes = t.markRevalidationRequired) (hsome : (t.current key).isSome = true) :
    s.routeShut key = true := by
  obtain ⟨e, he⟩ := Option.isSome_iff_exists.mp hsome
  rw [routeShut_iff, h, RouteTable.current_markRevalidationRequired, he]
  refine ⟨_, rfl, ?_⟩
  rcases RouteTable.revalidated_state (RouteTable.current_state he) with hs | hs
  · exact Or.inl hs
  · exact Or.inr (Or.inr hs)

/-- The slot's current assignment may serve: it is active, its boot is not fenced,
and the slot's route is not shut. -/
structure Serves (s : Fabric) (slot : ServiceSlotKey) (cur : Assignment) : Prop where
  current : s.currentAssignment slot = some cur
  active : cur.state = .active
  unfenced : cur.workerBoot ∉ s.fencedBoots
  route : s.routeShut slot = false

/-- What serves a slot did so before, if its assignment and its route are as they
were and no fence has been taken back. -/
theorem Serves.before {s s' : Fabric} {key : ServiceSlotKey} {cur : Assignment}
    (h : s'.Serves key cur) (hcur : s'.currentAssignment key = s.currentAssignment key)
    (hfences : ∀ b ∈ s.fencedBoots, b ∈ s'.fencedBoots)
    (hroute : s'.routes.current key = s.routes.current key) : s.Serves key cur :=
  ⟨hcur ▸ h.current, h.active, fun hf => h.unfenced (hfences _ hf), routeShut_congr hroute ▸ h.route⟩

/-- The authorization names an assignment, in an epoch. -/
structure Names (auth : WorkerAuthorization) (epoch : CoordinatorEpoch) (a : Assignment) : Prop where
  epoch : auth.epoch = epoch
  assignment : auth.assignment = a.id
  assignmentGeneration : auth.assignmentGeneration = a.generation
  routeGeneration : auth.routeGeneration = a.routeGeneration
  workerBoot : auth.workerBoot = a.workerBoot

/-- **The gate, inverted**: it lets through exactly the authorizations that name,
in the present epoch, the assignment that may serve the slot. -/
theorem dispatchAllowed_iff {s : Fabric} {auth : WorkerAuthorization} :
    (s.dispatchAllowed auth).allowed = true ↔
      ∃ cur, s.Serves auth.slot cur ∧ Names auth s.epoch cur := by
  unfold dispatchAllowed
  constructor
  · intro h
    split at h
    · cases h
    rename_i cur hcur
    split_ifs at h with he ha hg hr hb hf hs
    rw [not_or, not_not, not_not] at ha
    refine ⟨cur, ⟨hcur, not_not.mp hs, ?_, Bool.not_eq_true _ ▸ hr⟩,
      not_not.mp he, ha.1, ha.2, not_not.mp hg, not_not.mp hb⟩
    rw [← not_not.mp hb]
    simpa [bootFenced] using hf
  · rintro ⟨cur, hs, hn⟩
    have hf : s.bootFenced cur.workerBoot = false := by simpa [bootFenced] using hs.unfenced
    have hr := hs.route
    unfold routeShut at hr
    simp [hs.current, hn.epoch, hn.assignment, hn.assignmentGeneration, hn.routeGeneration,
      hn.workerBoot, hf, hs.active, hr]

/-- **The gate refuses a fenced boot**, whatever else the authorization says. -/
theorem dispatchAllowed_fenced {s : Fabric} {auth : WorkerAuthorization}
    (h : auth.workerBoot ∈ s.fencedBoots) : (s.dispatchAllowed auth).allowed = false := by
  rw [← Bool.not_eq_true, dispatchAllowed_iff]
  rintro ⟨cur, hs, hn⟩
  exact hs.unfenced (hn.workerBoot ▸ h)

theorem authorizeResult_fenced {s : Fabric} {auth : WorkerAuthorization}
    (h : auth.workerBoot ∈ s.fencedBoots) : (s.authorizeResult auth).allowed = false := by
  have := dispatchAllowed_fenced h
  simp [authorizeResult, this]

/-! ## What fencing a boot does -/

theorem addFencedBoot_eq (s : Fabric) (b : WorkerBootId) :
    s.addFencedBoot b = { s with fencedBoots := (s.addFencedBoot b).fencedBoots } := by
  unfold addFencedBoot
  split <;> rfl

theorem addFencedBoot_boots (s : Fabric) (b : WorkerBootId) :
    (s.addFencedBoot b).fencedBoots = s.fencedBoots ∨
      (s.addFencedBoot b).fencedBoots = s.fencedBoots ++ [b] := by
  unfold addFencedBoot
  split
  · exact Or.inr rfl
  · exact Or.inl rfl

/-- What is fenced after fencing a boot. -/
theorem mem_addFencedBoot {s : Fabric} {b c : WorkerBootId} :
    c ∈ (s.addFencedBoot b).fencedBoots ↔ c ∈ s.fencedBoots ∨ c ≠ .null ∧ b = c := by
  unfold addFencedBoot
  by_cases hn : b.isNull
  · rw [if_neg (by simp [hn])]
    constructor
    · exact Or.inl
    · rintro (h | ⟨hc, rfl⟩)
      · exact h
      · exact absurd (Id.isNull_iff.mp hn) hc
  by_cases hf : s.bootFenced b
  · have hb : b ∈ s.fencedBoots := by simpa [bootFenced] using hf
    rw [if_neg (by simp [hf])]
    constructor
    · exact Or.inl
    · rintro (h | ⟨-, rfl⟩)
      · exact h
      · exact hb
  · have hne : b ≠ .null := fun h => hn (Id.isNull_iff.mpr h)
    rw [if_pos (by simp [hn, hf])]
    simp only [List.mem_append, List.mem_singleton]
    constructor
    · rintro (h | rfl)
      · exact Or.inl h
      · exact Or.inr ⟨hne, rfl⟩
    · rintro (h | ⟨-, rfl⟩)
      · exact Or.inl h
      · exact Or.inr rfl

theorem mem_addFencedBoot_of_mem {s : Fabric} {b c : WorkerBootId} (h : c ∈ s.fencedBoots) :
    c ∈ (s.addFencedBoot b).fencedBoots := mem_addFencedBoot.mpr (Or.inl h)

/-- After fencing, the boot is fenced unless it is null. -/
theorem addFencedBoot_fenced (s : Fabric) (b : WorkerBootId) :
    b = .null ∨ b ∈ (s.addFencedBoot b).fencedBoots := by
  by_cases hb : b = .null
  · exact Or.inl hb
  · exact Or.inr (mem_addFencedBoot.mpr (Or.inr ⟨hb, rfl⟩))

end Fabric

end FailoverFabric
