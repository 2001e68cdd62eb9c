import FailoverFabric.Protocol.Payload
import FailoverFabric.Routing

/-! # What the processes say to each other

`protocol.hpp` and `net/common.hpp`: the message types, the field ids, the reference
workload, and a route on its way from the coordinator to a gateway.  A route is
received as it was sent (`decode_encode_route_entry`), but for what is not sent: the
epoch, the gateway boot and the provenance stay behind.
-/
namespace FailoverFabric
namespace Protocol

inductive MsgType
  | hello | register | publishTarget | publishReadiness | publishFailure | publishCapacity
  | planFailover | executeFailover | prepareTarget | prepareResult | fenceAssignment
  | activateTarget | activateResult | installRoute | routeAck | queryRoute | authorizeRequest
  | authorizeResult | executionResult | verifyService | requestFailback | revalidate | save
  | shutdown | checkRouteAck | classifyRequest | errorMsg
  deriving DecidableEq

structure Frame where
  type : MsgType := .errorMsg
  msgId : UInt32 := 0
  epoch : UInt64 := 0
  payload : List UInt8 := []
  deriving DecidableEq

/-! ## Field ids -/

namespace Fid

def role : UInt8 := 1
def boot : UInt8 := 2
def target : UInt8 := 3
def service : UInt8 := 4
def slot : UInt8 := 5
def seq : UInt8 := 6
def ready : UInt8 := 7
def model : UInt8 := 8
def abi : UInt8 := 9
def capacity : UInt8 := 11
def category : UInt8 := 12
def ok : UInt8 := 15
def detail : UInt8 := 16
def epoch : UInt8 := 17
def routeGen : UInt8 := 18
def assignmentGen : UInt8 := 19
def requestId : UInt8 := 20
def executionId : UInt8 := 21
def payload : UInt8 := 22
def state : UInt8 := 23
def operation : UInt8 := 25
def incarnation : UInt8 := 26
def assignmentId : UInt8 := 28
def reqPort : UInt8 := 30
def inputA : UInt8 := 31
def inputB : UInt8 := 32
def epochId : UInt8 := 33
def epochBoot : UInt8 := 34
def failback : UInt8 := 35
def cooldownMs : UInt8 := 36
def maxAutoAttempts : UInt8 := 37
def authorize : UInt8 := 38
def withheld : UInt8 := 42
def idempotent : UInt8 := 44
def externallyEffectful : UInt8 := 45
def txnIncomplete : UInt8 := 46
def stateAvail : UInt8 := 48
def checkpointGen : UInt8 := 49
def committedSeq : UInt8 := 50
def sessionOk : UInt8 := 51
def tenantOk : UInt8 := 52
def modelOk : UInt8 := 53
def formatOk : UInt8 := 54
def integrityOk : UInt8 := 55
def replaySafe : UInt8 := 56
def continuity : UInt8 := 57
def minCheckpoint : UInt8 := 58
def dispatchCount : UInt8 := 59
def hysteresisMs : UInt8 := 60

namespace Route

def id : UInt8 := 40
def gen : UInt8 := 41
def target : UInt8 := 42
def tgtgen : UInt8 := 43
def inc : UInt8 := 44
def boot : UInt8 := 45
def assign : UInt8 := 46
def assigngen : UInt8 := 47
def routegen : UInt8 := 48
def slotService : UInt8 := 49
def slotId : UInt8 := 50
def transport : UInt8 := 51
def state : UInt8 := 52

end Route

end Fid

/-! ## The reference workload -/

/-- The result that every worker is to return for an input. -/
def referenceResult (a b : UInt64) : UInt64 :=
  (List.range 32).foldl
    (fun acc i => (acc * 31 + a * UInt64.ofNat i + b * UInt64.ofNat (i + 1)) &&& 0x3fffffff) 0

/-- `std::to_string` of the reference result. -/
def referenceText (a b : UInt64) : Text := decimal (referenceResult a b).toNat

/-- The result in a reply that says ok. -/
def resultIn (r : PayloadReader) (ok : Bool) : Except Error Text :=
  if ok && r.has Fid.payload then r.bytes Fid.payload else return []

/-- The transport of a worker that listens on a port of this host. -/
def localTransport (port : UInt16) : Text := text "tcp://127.0.0.1:" ++ decimal port.toNat

/-! ## Routes on the wire -/

/-- The byte of a route's state. -/
def stateByte : RouteState → UInt8
  | .empty => 0
  | .pendingInstall => 1
  | .installed => 2
  | .acknowledged => 3
  | .revalidationRequired => 4
  | .stale => 5

/-- A `RouteEntry` as a gateway has it.  The state is the byte that came: it is not
checked to name one. -/
structure WireRoute where
  route : RouteId := .null
  generation : RouteGeneration := {}
  slot : ServiceSlotKey := {}
  target : TargetId := .null
  targetGeneration : TargetGeneration := {}
  incarnation : EngineIncarnationId := .null
  permittedBoot : WorkerBootId := .null
  assignment : AssignmentId := .null
  assignmentGeneration : AssignmentGeneration := {}
  state : UInt8 := 0
  transport : Text := []
  deriving DecidableEq

/-- What is sent of a route. -/
def wire (e : RouteEntry) : WireRoute where
  route := e.route
  generation := e.generation
  slot := e.slot
  target := e.target
  targetGeneration := e.targetGeneration
  incarnation := e.incarnation
  permittedBoot := e.permittedBoot
  assignment := e.assignment
  assignmentGeneration := e.assignmentGeneration
  state := stateByte e.state
  transport := e.transport

/-- The fields of a route.  The generation is written twice. -/
def encodeRouteEntry (e : RouteEntry) : List Field :=
  [putU64 Fid.Route.id e.route.value,
    putU64 Fid.Route.gen e.generation.value,
    putU64 Fid.Route.target e.target.value,
    putU64 Fid.Route.tgtgen e.targetGeneration.value,
    putU64 Fid.Route.inc e.incarnation.value,
    putU64 Fid.Route.boot e.permittedBoot.value,
    putU64 Fid.Route.assign e.assignment.value,
    putU64 Fid.Route.assigngen e.assignmentGeneration.value,
    putU64 Fid.Route.routegen e.generation.value,
    putU64 Fid.Route.slotService e.slot.service.value,
    putU64 Fid.Route.slotId e.slot.slot.value,
    putStr Fid.Route.transport e.transport,
    putU8 Fid.Route.state (stateByte e.state)]

/-- Both generations must be there; the second one counts. -/
def decodeRouteEntry (r : PayloadReader) : Except Error WireRoute := do
  let route ← r.u64 Fid.Route.id
  let _ ← r.u64 Fid.Route.gen
  let target ← r.u64 Fid.Route.target
  let targetGeneration ← r.u64 Fid.Route.tgtgen
  let incarnation ← r.u64 Fid.Route.inc
  let permittedBoot ← r.u64 Fid.Route.boot
  let assignment ← r.u64 Fid.Route.assign
  let assignmentGeneration ← r.u64 Fid.Route.assigngen
  let generation ← r.u64 Fid.Route.routegen
  let service ← r.u64 Fid.Route.slotService
  let slot ← r.u64 Fid.Route.slotId
  let transport ← r.str Fid.Route.transport
  let state ← r.u8 Fid.Route.state
  return {
    route := ⟨route⟩
    generation := ⟨generation⟩
    slot := ⟨⟨service⟩, ⟨slot⟩⟩
    target := ⟨target⟩
    targetGeneration := ⟨targetGeneration⟩
    incarnation := ⟨incarnation⟩
    permittedBoot := ⟨permittedBoot⟩
    assignment := ⟨assignment⟩
    assignmentGeneration := ⟨assignmentGeneration⟩
    state := state
    transport := transport }

theorem wellFormed_encodeRouteEntry (e : RouteEntry) : ∀ f ∈ encodeRouteEntry e, f.WellFormed := by
  simp only [encodeRouteEntry, List.forall_mem_cons, List.not_mem_nil, false_implies, implies_true]
  exact ⟨wellFormed_putU64 .., wellFormed_putU64 .., wellFormed_putU64 .., wellFormed_putU64 ..,
    wellFormed_putU64 .., wellFormed_putU64 .., wellFormed_putU64 .., wellFormed_putU64 ..,
    wellFormed_putU64 .., wellFormed_putU64 .., wellFormed_putU64 .., wellFormed_putStr ..,
    wellFormed_putU8 .., trivial⟩

theorem decode_fields (e : RouteEntry) : decodeRouteEntry (encodeRouteEntry e) = .ok (wire e) := by
  have hid : PayloadReader.u64 (encodeRouteEntry e) Fid.Route.id = .ok _ := u64_putU64 rfl
  have hgen : PayloadReader.u64 (encodeRouteEntry e) Fid.Route.gen = .ok _ := u64_putU64 rfl
  have htarget : PayloadReader.u64 (encodeRouteEntry e) Fid.Route.target = .ok _ := u64_putU64 rfl
  have htgtgen : PayloadReader.u64 (encodeRouteEntry e) Fid.Route.tgtgen = .ok _ := u64_putU64 rfl
  have hinc : PayloadReader.u64 (encodeRouteEntry e) Fid.Route.inc = .ok _ := u64_putU64 rfl
  have hboot : PayloadReader.u64 (encodeRouteEntry e) Fid.Route.boot = .ok _ := u64_putU64 rfl
  have hassign : PayloadReader.u64 (encodeRouteEntry e) Fid.Route.assign = .ok _ := u64_putU64 rfl
  have hassigngen : PayloadReader.u64 (encodeRouteEntry e) Fid.Route.assigngen = .ok _ :=
    u64_putU64 rfl
  have hroutegen : PayloadReader.u64 (encodeRouteEntry e) Fid.Route.routegen = .ok _ :=
    u64_putU64 rfl
  have hservice : PayloadReader.u64 (encodeRouteEntry e) Fid.Route.slotService = .ok _ :=
    u64_putU64 rfl
  have hslot : PayloadReader.u64 (encodeRouteEntry e) Fid.Route.slotId = .ok _ := u64_putU64 rfl
  have htransport : PayloadReader.str (encodeRouteEntry e) Fid.Route.transport = .ok _ :=
    str_putStr rfl
  have hstate : PayloadReader.u8 (encodeRouteEntry e) Fid.Route.state = .ok _ := u8_putU8 rfl
  simp only [decodeRouteEntry, hid, hgen, htarget, htgtgen, hinc, hboot, hassign, hassigngen,
    hroutegen, hservice, hslot, htransport, hstate]
  rfl

/-- **A route is received as it was sent.** -/
theorem decode_encode_route_entry {e : RouteEntry} {bs : List UInt8}
    (h : finish (encodeRouteEntry e) = .ok bs) :
    (parse bs).bind decodeRouteEntry = .ok (wire e) := by
  rw [parse_finish (wellFormed_encodeRouteEntry e) h, Except.bind]
  exact decode_fields e

end Protocol
end FailoverFabric
