import FailoverFabric.FailoverRequests
import FailoverFabric.Protocol.Transport

/-! # The registration of a service

The `REGISTER` handler of `coordinator_main.cpp`.  The service is created, its first
assignment set, the worker told to activate and the route sent to the gateway, one call
after the other.  What an exception interrupts is answered with `ERROR_MSG`, and nothing
is taken back.

`register_atomic_iff` says in which states an answer of `ERROR_MSG` leaves the fabric as it
was.  Where it does not, every further registration of the service is refused
(`retry_refused`).
-/
namespace FailoverFabric
open Protocol Persistence

/-! ## The message -/

/-- `REGISTER`, with what is optional of it. -/
structure RegisterMessage where
  service : ServiceId
  target : TargetId
  boot : WorkerBootId
  continuity : Option ContinuityClass := none
  minCheckpoint : Option CheckpointGeneration := none
  failback : Option FailbackPolicy := none
  cooldownMs : Option UInt32 := none
  maxAutoAttempts : Option UInt32 := none
  hysteresisMs : Option UInt32 := none
  deriving DecidableEq

/-- A field that need not be there. -/
def optionally {α : Type} (r : PayloadReader) (field : UInt8)
    (read : PayloadReader → UInt8 → Except Error α) : Except Error (Option α) :=
  if r.has field then (read r field).map some else .ok none

/-- A byte that names no continuity class, or no failback policy, is ignored. -/
def readRegister (payload : List UInt8) : Except Error RegisterMessage := do
  let r ← parse payload
  let service ← r.u64 Fid.service
  let target ← r.u64 Fid.target
  let boot ← r.u64 Fid.boot
  let continuity ← optionally r Fid.continuity PayloadReader.u8
  let minCheckpoint ← optionally r Fid.minCheckpoint PayloadReader.u64
  let failback ← optionally r Fid.failback PayloadReader.u8
  let cooldownMs ← optionally r Fid.cooldownMs PayloadReader.u32
  let maxAutoAttempts ← optionally r Fid.maxAutoAttempts PayloadReader.u32
  let hysteresisMs ← optionally r Fid.hysteresisMs PayloadReader.u32
  return {
    service := ⟨service⟩
    target := ⟨target⟩
    boot := ⟨boot⟩
    continuity := continuity.bind ByteEnum.ofByte
    minCheckpoint := minCheckpoint.map Gen.mk
    failback := failback.bind ByteEnum.ofByte
    cooldownMs := cooldownMs
    maxAutoAttempts := maxAutoAttempts
    hysteresisMs := hysteresisMs }

namespace RegisterMessage

/-- The contract that is created. -/
def definition (m : RegisterMessage) : ServiceDefinition :=
  let policy : AntiFlappingPolicy := {}
  { service := m.service
    generation := .first
    configGeneration := .first
    name := text "ref"
    role := .exclusiveActive
    compatibility :=
      { modelKey := text "ref-det-sequence-v1"
        runtimeAbi := text "ff-ref-v1" }
    domainRequirement := { requireDomainIndependence := false }
    -- one unit of it, as a `double`
    resources := [⟨text "cpu", ⟨0x3ff0000000000000⟩, true⟩]
    recovery :=
      { rtoMs := 10000
        continuity := m.continuity.getD .replaySafeRequests
        minCheckpointGen := m.minCheckpoint
        requiresVerifiedRecovery := true }
    failback := m.failback.getD .manual
    antiFlapping :=
      { policy with
        cooldownMs := m.cooldownMs.getD policy.cooldownMs
        maxAutoAttempts := m.maxAutoAttempts.getD policy.maxAutoAttempts
        hysteresisMs := m.hysteresisMs.getD policy.hysteresisMs }
    policyGeneration := .first }

/-- The assignment that is set. -/
def assignment (m : RegisterMessage) : Assignment where
  id := ⟨1⟩
  generation := .first
  slot := firstSlot m.service
  target := m.target
  targetGeneration := .first
  workerBoot := m.boot
  authorityGeneration := .first
  state := .active

/-- The request to the worker. -/
def activation (m : RegisterMessage) : List Field :=
  [putU64 Fid.target m.target.value, putU64 Fid.boot m.boot.value]

/-- The route that is installed. -/
def initialRoute (m : RegisterMessage) (s : Fabric) (port : UInt16) : RouteEntry where
  route := ⟨1⟩
  generation := .first
  slot := firstSlot m.service
  target := m.target
  targetGeneration := .first
  incarnation := ⟨m.target.value⟩
  permittedBoot := m.boot
  assignment := ⟨1⟩
  assignmentGeneration := .first
  epoch := s.epoch
  gatewayBoot := s.gatewayBoot
  state := .acknowledged
  transport := localTransport port

end RegisterMessage

/-! ## The handler -/

/-- The peers of the coordinator: of each worker whether its connection is alive, and the
port it serves on; of the gateway, if there is one, whether its connection is alive. -/
structure Peers where
  worker : TargetId → Option (Bool × UInt16)
  gateway : Option Bool

namespace Peers

def workerAlive (peers : Peers) (t : TargetId) : Bool := (peers.worker t).any (·.1)

/-- `worker_req_port`. -/
def workerReqPort (peers : Peers) (t : TargetId) : UInt16 := ((peers.worker t).map (·.2)).getD 0

def gatewayAlive (peers : Peers) : Bool := peers.gateway.getD false

end Peers

/-- What the handler leaves behind: the fabric, the requests it has made of the peers, and
its answer. -/
structure Registration where
  fabric : Fabric
  requests : List Frame := []
  reply : Reply

namespace Fabric

/-- The worker is told to activate, unless it is not there.  What it answers is not read. -/
def activationRequest (peers : Peers) (s : Fabric) (m : RegisterMessage) :
    Except Error (List Frame) :=
  if peers.workerAlive m.target then
    (finish m.activation).map fun payload => [⟨.activateTarget, 9110, s.epoch.value, payload⟩]
  else .ok []

/-- The route is sent to the gateway and installed, unless there is no gateway.  What it
answers is not read. -/
def routeRequest (peers : Peers) (s : Fabric) (m : RegisterMessage) :
    Except Error (Fabric × List Frame) :=
  if peers.gatewayAlive then
    let re := m.initialRoute s (peers.workerReqPort m.target)
    (finish (encodeRouteEntry re)).map fun payload =>
      ((s.installRoute re s.gatewayBoot).1, [⟨.installRoute, 9111, s.epoch.value, payload⟩])
  else .ok (s, [])

/-- The service is created and assigned. -/
def announce (peers : Peers) (s : Fabric) (m : RegisterMessage) : Registration :=
  match s.activationRequest peers m with
  | .error e => { fabric := s, reply := .errorMsg e }
  | .ok activation =>
    match s.routeRequest peers m with
    | .error e => { fabric := s, requests := activation, reply := .errorMsg e }
    | .ok (s', route) => {
        fabric := s'
        requests := activation ++ route
        reply := sent [putBool Fid.ok true] }

def register (peers : Peers) (now : Time) (s : Fabric) (m : RegisterMessage) : Registration :=
  match s.createService m.definition with
  | .error e => { fabric := s, reply := .errorMsg e }
  | .ok created =>
    match created.setInitialAssignment now m.assignment with
    | .error e => { fabric := created, reply := .errorMsg e }
    | .ok assigned => assigned.announce peers m

/-- A message that cannot be read is answered with an error, and changes nothing. -/
def onRegister (peers : Peers) (now : Time) (s : Fabric) (payload : List UInt8) : Registration :=
  match readRegister payload with
  | .error e => { fabric := s, reply := .errorMsg e }
  | .ok m => s.register peers now m

/-! ## What does not fail

The requests are small, so that nothing throws once the assignment is set. -/

variable {peers : Peers} {s : Fabric} {m : RegisterMessage}

theorem length_localTransport (port : UInt16) : (localTransport port).length ≤ 22 := by
  have hdigits : (decimal port.toNat).length ≤ 5 := by
    rw [decimal_eq, List.length_map, Nat.length_toDigits_le_iff (by decide) (by decide)]
    exact Nat.lt_trans port.toNat_lt (by decide)
  have htext : (text "tcp://127.0.0.1:").length = 16 := by decide
  rw [localTransport, List.length_append, htext]
  omega

theorem activation_written (m : RegisterMessage) :
    ∃ payload, finish m.activation = .ok payload := by
  refine ⟨_, finish_of_fits ?_⟩
  simp only [RegisterMessage.activation, List.flatMap_cons, List.flatMap_nil, List.length_append,
    Field.length_bytes, length_putU64, List.length_nil]
  decide

theorem length_encodeRouteEntry (e : RouteEntry) :
    ((encodeRouteEntry e).flatMap Field.bytes).length = e.transport.length + 167 := by
  have htransport : (putStr Fid.Route.transport e.transport).value.length = e.transport.length :=
    rfl
  have hstate : (Protocol.putU8 Fid.Route.state (stateByte e.state)).value.length = 1 := rfl
  simp only [encodeRouteEntry, List.flatMap_cons, List.flatMap_nil, List.length_append,
    Field.length_bytes, length_putU64, htransport, hstate, List.length_nil, Nat.reduceAdd]
  omega

theorem initialRoute_written (m : RegisterMessage) (s : Fabric) (port : UInt16) :
    ∃ payload, finish (encodeRouteEntry (m.initialRoute s port)) = .ok payload := by
  have htransport := length_localTransport port
  have hmax : 189 ≤ kMaxFramePayload := by decide
  refine ⟨_, finish_of_fits ?_⟩
  rw [length_encodeRouteEntry]
  show (localTransport port).length + 167 ≤ kMaxFramePayload
  omega

/-- A service that is created and assigned is answered with `ok`. -/
theorem announce_reply : (s.announce peers m).reply = .answer [putBool Fid.ok true] := by
  obtain ⟨activation, hactivation⟩ := activation_written m
  obtain ⟨route, hroute⟩ := initialRoute_written m s (peers.workerReqPort m.target)
  have hworker : ∃ frames, s.activationRequest peers m = .ok frames := by
    unfold activationRequest
    split
    · exact ⟨_, by rw [hactivation]; rfl⟩
    · exact ⟨_, rfl⟩
  have hgateway : ∃ r, s.routeRequest peers m = .ok r := by
    unfold routeRequest
    split
    · exact ⟨_, by simp only [hroute]; rfl⟩
    · exact ⟨_, rfl⟩
  obtain ⟨frames, hframes⟩ := hworker
  obtain ⟨r, hr⟩ := hgateway
  rw [announce, hframes]
  simp only [hr]
  rfl

/-! ## All or nothing -/

/-- The services, the slots with their assignments, and the routes are the same. -/
structure SameRecords (s s' : Fabric) : Prop where
  services : s'.services = s.services
  slots : s'.slots = s.slots
  routes : s'.routes = s.routes

/-- An answer of `ERROR_MSG` says that nothing was registered. -/
def AllOrNothing (s : Fabric) (r : Registration) : Prop :=
  ∀ e, r.reply = .errorMsg e → SameRecords s r.fabric

/-- `create_service` takes the contract. -/
def Creatable (s : Fabric) (m : RegisterMessage) : Prop :=
  s.services.items.length < s.cfg.maxServices ∧ ∀ d ∈ s.services.items, d.service ≠ m.service

/-- `set_initial_assignment` throws: the slot is null, or it has an assignment. -/
def Unassignable (s : Fabric) (m : RegisterMessage) : Prop :=
  m.service = .null ∨ (s.currentAssignment (firstSlot m.service)).isSome

instance (s : Fabric) (m : RegisterMessage) : Decidable (Creatable s m) :=
  inferInstanceAs (Decidable (_ ∧ _))

instance (s : Fabric) (m : RegisterMessage) : Decidable (Unassignable s m) :=
  inferInstanceAs (Decidable (_ ∨ _))

theorem any_service_eq_false_iff (services : List ServiceDefinition) (service : ServiceId) :
    (services.any fun d => d.service == service) = false ↔ ∀ d ∈ services, d.service ≠ service := by
  simp only [List.any_eq_false, beq_iff_eq, ne_eq]

theorem createService_of_creatable (h : Creatable s m) : s.createService m.definition =
    .ok { s with services := s.services.push m.service m.definition } := by
  have hnew := (any_service_eq_false_iff s.services.items m.definition.service).mpr h.2
  rw [createService, if_neg (Nat.not_le.mpr h.1), if_neg (Bool.eq_false_iff.mp hnew)]
  rfl

theorem createService_error (h : ¬ Creatable s m) :
    ∃ e, s.createService m.definition = .error e := by
  unfold createService
  split
  · exact ⟨_, rfl⟩
  rename_i hroom
  split
  · exact ⟨_, rfl⟩
  rename_i hnew
  exact absurd ⟨Nat.not_le.mp hroom,
    (any_service_eq_false_iff _ _).mp (Bool.eq_false_iff.mpr hnew)⟩ h

theorem setInitialAssignment_error (now : Time) (h : Unassignable s m) :
    ∃ e, s.setInitialAssignment now m.assignment = .error e := by
  unfold setInitialAssignment
  split
  · exact ⟨_, rfl⟩
  rename_i hnull
  rcases h with hservice | hcurrent
  · exact absurd (by rw [RegisterMessage.assignment, hservice]; rfl) hnull
  · rw [currentAssignment] at hcurrent
    have hslot : m.assignment.slot = firstSlot m.service := rfl
    cases hfind : s.findSlot (firstSlot m.service) with
    | none =>
      rw [hfind] at hcurrent
      cases hcurrent
    | some st =>
      rw [hfind] at hcurrent
      simp only [hslot, hfind]
      exact ⟨_, if_pos hcurrent⟩

theorem setInitialAssignment_ok (now : Time) (h : ¬ Unassignable s m) :
    ∃ s', s.setInitialAssignment now m.assignment = .ok s' := by
  obtain ⟨hservice, hcurrent⟩ := not_or.mp h
  rw [currentAssignment] at hcurrent
  have hslot : m.assignment.slot = firstSlot m.service := rfl
  have hnull : ¬ ((firstSlot m.service).service.isNull || (firstSlot m.service).slot.isNull) =
      true := by
    rintro hnull
    rcases Bool.or_eq_true_iff.mp hnull with hnull | hnull
    · exact hservice (Id.isNull_iff.mp hnull)
    · cases hnull
  unfold setInitialAssignment
  rw [hslot, if_neg hnull]
  simp only
  cases hfind : s.findSlot (firstSlot m.service) with
  | none => exact ⟨_, rfl⟩
  | some st =>
    rw [hfind] at hcurrent
    exact ⟨_, if_neg hcurrent⟩

/-- **When a registration is all or nothing.**  For every state, all peers and every
message: an answer of `ERROR_MSG` leaves the services, slots, assignments and routes as
they were if and only if the message is not one whose service can be created while its
slot is null or assigned. -/
theorem register_atomic_iff (peers : Peers) (now : Time) (s : Fabric) (payload : List UInt8) :
    AllOrNothing s (s.onRegister peers now payload) ↔
      ∀ m, readRegister payload = .ok m → Creatable s m → ¬ Unassignable s m := by
  unfold onRegister
  cases readRegister payload with
  | error e =>
    refine iff_of_true (fun _ _ => ⟨rfl, rfl, rfl⟩) fun m hm => ?_
    cases hm
  | ok m =>
    simp only [register]
    by_cases hcreatable : Creatable s m
    swap
    · obtain ⟨e, he⟩ := createService_error hcreatable
      rw [he]
      refine iff_of_true (fun _ _ => ⟨rfl, rfl, rfl⟩) fun m' hm' hcreates => ?_
      cases hm'
      exact absurd hcreates hcreatable
    rw [createService_of_creatable hcreatable]
    by_cases hassigned : Unassignable s m
    · have hcreated : Unassignable
          { s with services := s.services.push m.service m.definition } m := hassigned
      obtain ⟨e, he⟩ := setInitialAssignment_error now hcreated
      simp only [he]
      refine iff_of_false (fun h => ?_) fun h => h m rfl hcreatable hassigned
      have hservices := congrArg (·.items.length) (h e rfl).services
      simp only [IndexedVec.push, List.length_append, List.length_singleton] at hservices
      omega
    · have hcreated : ¬ Unassignable
          { s with services := s.services.push m.service m.definition } m := hassigned
      obtain ⟨s', hs'⟩ := setInitialAssignment_ok now hcreated
      simp only [hs']
      refine iff_of_true (fun e he => ?_) fun m' hm' _ => ?_
      · rw [announce_reply] at he
        cases he
      · cases hm'
        exact hassigned

/-- What was left behind stands in the way: every further registration of the service is
refused. -/
theorem retry_refused (now later : Time) {m' : RegisterMessage} (hcreatable : Creatable s m)
    (hassigned : Unassignable s m) (hsame : m'.service = m.service) :
    ∃ e, (s.register peers now m).fabric.register peers later m' =
      { fabric := (s.register peers now m).fabric, reply := .errorMsg e } := by
  have hleft : (s.register peers now m).fabric =
      { s with services := s.services.push m.service m.definition } := by
    have hcreated : Unassignable { s with services := s.services.push m.service m.definition } m :=
      hassigned
    obtain ⟨e, he⟩ := setInitialAssignment_error now hcreated
    rw [register, createService_of_creatable hcreatable]
    simp only [he]
  rw [hleft]
  have hknown : ¬ Creatable { s with services := s.services.push m.service m.definition } m' := by
    rintro ⟨-, hnew⟩
    exact hnew m.definition (List.mem_append_right _ (List.mem_singleton_self _)) hsame.symm
  obtain ⟨e, he⟩ := createService_error hknown
  exact ⟨e, by rw [register, he]⟩

/-- A coordinator without peers. -/
def noPeers : Peers := ⟨fun _ => none, none⟩

/-- A registration of the null service. -/
def nullRegistration : List UInt8 :=
  payloadOf [Protocol.putU64 Fid.service 0, Protocol.putU64 Fid.target 1,
    Protocol.putU64 Fid.boot 11]

/-- **A registration that fails half way**: the service is created, its slot is refused,
and the service stays. -/
theorem register_leaves_service :
    (onRegister noPeers 0 {} nullRegistration).reply =
      .errorMsg (.invalidArgument "assignment slot is null") ∧
    (onRegister noPeers 0 {} nullRegistration).fabric.services.items.length = 1 ∧
    ¬ ∀ peers now s payload, AllOrNothing s (s.onRegister peers now payload) := by
  have hreply : (onRegister noPeers 0 {} nullRegistration).reply =
      .errorMsg (.invalidArgument "assignment slot is null") := by decide +kernel
  have hleft : (onRegister noPeers 0 {} nullRegistration).fabric.services.items.length =
      1 := by decide +kernel
  refine ⟨hreply, hleft, fun h => ?_⟩
  have hservices := (h _ _ _ _ _ hreply).services
  rw [hservices] at hleft
  cases hleft

end Fabric
end FailoverFabric
