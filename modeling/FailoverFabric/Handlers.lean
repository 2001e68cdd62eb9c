import FailoverFabric.Coordinator
import FailoverFabric.Protocol.Common

/-! # The request handlers of the coordinator

`coordinator_main.cpp`: before a gateway dispatches a client's request it asks with
`AUTHORIZE_REQUEST`, and before it answers the client it reports with
`AUTHORIZE_RESULT`.  The first handler does not go through the gate.  It has a test
of its own, that the slot's assignment is active, and never looks at the fences or
at the route.  `dispatch_gated_iff` says for which states and messages the gate
would have agreed, and `dispatch_ungated` has a run in which it would not.

A `server` handles the messages about requests one after another.  In the program each
connection has a thread of its own, and the two handlers lock the fabric for each of
their calls: handlers of different connections may overlap there, and do not here.
-/
namespace FailoverFabric
open Fabric Protocol

/-! ## The messages -/

/-- The handlers know one slot of each service. -/
def firstSlot (service : ServiceId) : ServiceSlotKey := ⟨service, ⟨1⟩⟩

/-- `AUTHORIZE_REQUEST`. -/
structure RequestMessage where
  service : ServiceId
  request : RequestId
  idempotent : Bool
  externallyEffectful : Bool
  deriving DecidableEq

def RequestMessage.slot (q : RequestMessage) : ServiceSlotKey := firstSlot q.service

def readRequest (payload : List UInt8) : Except Error RequestMessage := do
  let r ← parse payload
  let service ← r.u64 Fid.service
  let request ← r.u64 Fid.requestId
  let idempotent ← r.flag Fid.idempotent
  let externallyEffectful ← r.flag Fid.externallyEffectful
  return ⟨⟨service⟩, ⟨request⟩, idempotent, externallyEffectful⟩

/-- `AUTHORIZE_RESULT`: the grant that the work was done under. -/
structure ResultMessage where
  auth : WorkerAuthorization
  withheld : Bool
  deriving DecidableEq

def readResult (payload : List UInt8) : Except Error ResultMessage := do
  let r ← parse payload
  let service ← r.u64 Fid.service
  let epoch ← r.u64 Fid.epoch
  let epochId ← r.u64 Fid.epochId
  let epochBoot ← r.u64 Fid.epochBoot
  let assignment ← r.u64 Fid.assignmentId
  let assignmentGeneration ← r.u64 Fid.assignmentGen
  let routeGeneration ← r.u64 Fid.routeGen
  let workerBoot ← r.u64 Fid.boot
  let incarnation ← r.u64 Fid.incarnation
  let request ← r.u64 Fid.requestId
  let execution ← r.u64 Fid.executionId
  let withheld ← r.flag Fid.withheld
  return {
    auth := {
      epoch := ⟨epoch, ⟨epochId⟩, ⟨epochBoot⟩⟩
      slot := firstSlot ⟨service⟩
      assignment := ⟨assignment⟩
      assignmentGeneration := ⟨assignmentGeneration⟩
      routeGeneration := ⟨routeGeneration⟩
      incarnation := ⟨incarnation⟩
      request := ⟨request⟩
      execution := ⟨execution⟩
      workerBoot := ⟨workerBoot⟩ }
    withheld := withheld }

/-- What the handlers answer.  Only `granted` and `accepted` are answered with `ok`;
`granted` hands the authorization out. -/
inductive Answer
  | errorMsg (e : Error)
  | refused (detail : String)
  | granted (auth : WorkerAuthorization)
  | accepted
  deriving DecidableEq

/-! ## The handlers -/

namespace Fabric

/-- The authorization for a request, under the slot's assignment. -/
def grant (s : Fabric) (q : RequestMessage) (cur : Assignment) : WorkerAuthorization where
  epoch := s.epoch
  slot := q.slot
  assignment := cur.id
  assignmentGeneration := cur.generation
  routeGeneration := cur.routeGeneration
  incarnation := cur.engineIncarnation
  request := q.request
  execution := ⟨q.request.value⟩
  operation := text "serve"
  workerBoot := cur.workerBoot

/-- The record of a request that is dispatched. -/
def dispatchRecord (q : RequestMessage) (auth : WorkerAuthorization) : RequestRecord where
  request := q.request
  execution := ⟨q.request.value⟩
  executionGeneration := .first
  slot := q.slot
  disposition := .dispatched
  idempotent := q.idempotent
  authority := if q.idempotent then .deterministicReference else .none
  externallyEffectful := q.externallyEffectful
  dispatchedAuth := some auth

/-- The request is recorded as dispatched, and counted. -/
def dispatched (s : Fabric) (q : RequestMessage) (cur : Assignment) : Fabric :=
  (s.recordRequest (dispatchRecord q (s.grant q cur))).recordDispatch

/-- The outcome of the request is unknown, and it may not be replayed. -/
def replayRefused (s : Fabric) (request : RequestId) : Bool :=
  match s.requests.find request with
  | none => false
  | some st => st.disposition == .outcomeUnknown && !s.retryAllowed request

/-- The test of the `AUTHORIZE_REQUEST` handler, and what it does. -/
def handleRequest (s : Fabric) (q : RequestMessage) : Fabric × Answer :=
  match s.currentAssignment q.slot with
  | none => (s, .refused "no current active assignment")
  | some cur =>
    if cur.state ≠ .active then (s, .refused "no current active assignment")
    else if s.replayRefused q.request then
      (s, .refused "non-retryable request; automatic replay refused")
    else (s.dispatched q cur, .granted (s.grant q cur))

/-- A message that cannot be read is answered with an error, and changes nothing. -/
def onAuthorizeRequest (s : Fabric) (payload : List UInt8) : Fabric × Answer :=
  match readRequest payload with
  | .error e => (s, .errorMsg e)
  | .ok q => s.handleRequest q

/-- The record of a request that nobody dispatched, and whose outcome is unknown. -/
def unknownRecord (auth : WorkerAuthorization) : RequestRecord where
  request := auth.request
  execution := auth.execution
  slot := auth.slot
  disposition := .outcomeUnknown
  dispatchedAuth := some auth

/-- A withheld result makes the outcome unknown; any other goes through the gate. -/
def handleResult (s : Fabric) (q : ResultMessage) : Fabric × Answer :=
  if q.withheld then
    let s' :=
      match s.requests.find q.auth.request with
      | some st =>
        if st.disposition ≠ .outcomeUnknown then s.markOutcomeUnknown q.auth.request else s
      | none => s.recordRequest (unknownRecord q.auth)
    (s', .refused "response withheld; outcome unknown")
  else
    let d := s.authorizeResult q.auth
    (s, if d.allowed then .accepted else .refused d.reason)

def onAuthorizeResult (s : Fabric) (payload : List UInt8) : Fabric × Answer :=
  match readResult payload with
  | .error e => (s, .errorMsg e)
  | .ok q => s.handleResult q

end Fabric

/-! ## The process that handles messages -/

/-- The operations on requests are those of the two handlers. -/
def onRequests : Label → Bool
  | .op (.recordRequest _) => true
  | .op (.classifyLateResult _ _) => true
  | .op (.markOutcomeUnknown _) => true
  | .op .recordDispatch => true
  | _ => false

/-- What a coordinator process handles: the two messages about requests, and the
steps that the other messages cause. -/
inductive Message
  | authorizeRequest (payload : List UInt8)
  | authorizeResult (payload : List UInt8)
  | other (l : Label)

namespace SystemState

/-- One message about a request, handled to its end, or one step of another message. -/
def handle (env : Env) (σ : SystemState) : Message → SystemState
  | .authorizeRequest payload => { σ with fabric := (σ.fabric.onAuthorizeRequest payload).1 }
  | .authorizeResult payload => { σ with fabric := (σ.fabric.onAuthorizeResult payload).1 }
  | .other l => if fromMessage l && !onRequests l then σ.step env l else σ

/-- A process that has just been started, with or without a file to load. -/
def Started (env : Env) (σ : SystemState) : Prop :=
  ∃ checkpoint loaded s, start env.ord checkpoint loaded = .ok s ∧ σ = { fabric := s }

end SystemState

/-- The system of all runs of one coordinator process that handles the messages about
requests one after another. -/
def server (env : Env) : Transition.System SystemState Message where
  initial := SystemState.Started env
  step := SystemState.handle env

/-! ## What the handler of requests grants -/

/-- **The handler's test**, which is all that it asks of the state. -/
structure Dispatchable (s : Fabric) (q : RequestMessage) (cur : Assignment) : Prop where
  current : s.currentAssignment q.slot = some cur
  active : cur.state = .active
  replay : s.replayRefused q.request = false

theorem onAuthorizeRequest_dispatchable {s : Fabric} {payload : List UInt8} {q : RequestMessage}
    {cur : Assignment} (hread : readRequest payload = .ok q) (h : Dispatchable s q cur) :
    s.onAuthorizeRequest payload = (s.dispatched q cur, .granted (s.grant q cur)) := by
  simp [onAuthorizeRequest, hread, handleRequest, h.current, h.active, h.replay]

theorem handleRequest_cases (s : Fabric) (q : RequestMessage) :
    (∃ cur, Dispatchable s q cur) ∨ ∃ detail, s.handleRequest q = (s, .refused detail) := by
  cases hcur : s.currentAssignment q.slot with
  | none =>
    refine Or.inr ⟨"no current active assignment", ?_⟩
    simp [handleRequest, hcur]
  | some cur =>
    by_cases hact : cur.state = .active
    · cases hreplay : s.replayRefused q.request with
      | true =>
        refine Or.inr ⟨"non-retryable request; automatic replay refused", ?_⟩
        simp [handleRequest, hcur, hact, hreplay]
      | false => exact Or.inl ⟨cur, hcur, hact, hreplay⟩
    · refine Or.inr ⟨"no current active assignment", ?_⟩
      simp [handleRequest, hcur, hact]

/-- **The handler of requests, inverted**: it dispatches, or does nothing. -/
theorem onAuthorizeRequest_cases (s : Fabric) (payload : List UInt8) :
    (∃ q cur, readRequest payload = .ok q ∧ Dispatchable s q cur) ∨
      (s.onAuthorizeRequest payload).1 = s ∧
        ∀ auth, (s.onAuthorizeRequest payload).2 ≠ .granted auth := by
  unfold onAuthorizeRequest
  cases readRequest payload with
  | error e => exact Or.inr ⟨rfl, fun auth h => by cases h⟩
  | ok q =>
    rcases handleRequest_cases s q with ⟨cur, hd⟩ | ⟨detail, hr⟩
    · exact Or.inl ⟨q, cur, rfl, hd⟩
    · right
      simp only [hr]
      exact ⟨trivial, fun auth h => by cases h⟩

/-! ## The handler and the gate -/

/-- The gate does not read the records of requests. -/
theorem dispatched_gate (s : Fabric) (q : RequestMessage) (cur : Assignment)
    (auth : WorkerAuthorization) :
    (s.dispatched q cur).authorizeDispatch auth = s.authorizeDispatch auth := rfl

/-- The gate lets the grant through if the assignment may serve. -/
theorem grant_allowed {s : Fabric} {q : RequestMessage} {cur : Assignment}
    (h : Dispatchable s q cur) :
    (s.authorizeDispatch (s.grant q cur)).allowed = true ↔
      cur.workerBoot ∉ s.fencedBoots ∧ s.routeShut q.slot = false := by
  show (s.dispatchAllowed (s.grant q cur)).allowed = true ↔ _
  rw [dispatchAllowed_iff]
  constructor
  · rintro ⟨cur', hs, -⟩
    have hcur : cur' = cur := Option.some.inj (hs.current.symm.trans h.current)
    exact ⟨hcur ▸ hs.unfenced, hs.route⟩
  · rintro ⟨hf, hr⟩
    exact ⟨cur, ⟨h.current, h.active, hf, hr⟩, rfl, rfl, rfl, rfl, rfl⟩

/-- **When dispatch goes through the gate.**  For every state and every
`AUTHORIZE_REQUEST`: the gate accepts what the handler hands out, in the state that
the handler leaves, exactly if the boot of the assignment that passes the handler's
test is not fenced and the slot's route is not shut. -/
theorem dispatch_gated_iff (s : Fabric) (payload : List UInt8) :
    (∀ auth, (s.onAuthorizeRequest payload).2 = .granted auth →
        ((s.onAuthorizeRequest payload).1.authorizeDispatch auth).allowed = true) ↔
      ∀ q cur, readRequest payload = .ok q → s.currentAssignment q.slot = some cur →
        cur.state = .active → s.replayRefused q.request = false →
          cur.workerBoot ∉ s.fencedBoots ∧ s.routeShut q.slot = false := by
  constructor
  · intro h q cur hread hcur hact hreplay
    have hd : Dispatchable s q cur := ⟨hcur, hact, hreplay⟩
    rw [onAuthorizeRequest_dispatchable hread hd] at h
    have hallowed := h _ rfl
    rw [dispatched_gate] at hallowed
    exact (grant_allowed hd).mp hallowed
  · intro h auth hauth
    rcases onAuthorizeRequest_cases s payload with ⟨q, cur, hread, hd⟩ | ⟨-, hno⟩
    · rw [onAuthorizeRequest_dispatchable hread hd] at hauth ⊢
      cases hauth
      rw [dispatched_gate]
      exact (grant_allowed hd).mpr (h q cur hread hd.current hd.active hd.replay)
    · exact absurd hauth (hno auth)

namespace Reference

/-- The service of a `REGISTER` message without optional fields. -/
def registeredService : ServiceDefinition where
  service := ⟨1⟩
  name := text "ref"
  compatibility := { modelKey := text "ref-det-sequence-v1", runtimeAbi := text "ff-ref-v1" }
  resources := [{ resourceClass := text "cpu", amount := .one }]
  recovery := { rtoMs := 10000, continuity := .replaySafeRequests }

/-- The facts of a worker's `PUBLISH_READINESS`. -/
def publishedFacts (target boot : UInt64) : CandidateFacts where
  target := ⟨target⟩
  targetGeneration := .first
  replica := ⟨target⟩
  engine := ⟨target⟩
  engineIncarnation := ⟨target⟩
  worker := ⟨target⟩
  workerBoot := ⟨boot⟩
  profile := ⟨1⟩
  modelKey := text "ref-det-sequence-v1"
  runtimeAbi := text "ff-ref-v1"
  ready := true
  activationEligible := true

/-- `REGISTER` of service 1 on target 1, with boot 11, before there is a gateway, and
`PUBLISH_READINESS` of target 2, with boot 22. -/
def registration : List Op :=
  [.createService registeredService, .setInitialAssignment 0 initialAssignment,
    .registerTarget ⟨2⟩ (localTransport 9002), .publishCandidateFacts 0 (publishedFacts 2 22),
    .publishCandidateState ⟨2⟩ {},
    .publishCandidateResources ⟨2⟩
      [{ resourceClass := text "cpu", amount := .one, capacityGeneration := .first, unit := 1 }]]

/-- The first process, started without a file. -/
def freshProcess : SystemState := { fabric := setCoordinatorIdentity {} ⟨1⟩ 1 }

theorem freshProcess_started : (server env).initial freshProcess := ⟨[], none, _, rfl, rfl⟩

/-- The process after the registration. -/
def registered : SystemState := (server env).run freshProcess (registration.map fun o => .other (.op o))

/-- The worker of the replacement is gone: it cannot be activated. -/
def gone : CutoverOps :=
  { ops with activate := fun _ _ _ => { detail := text "worker not reachable" } }

/-- `EXECUTE_FAILOVER`, with that outcome: the old boot is fenced, the old assignment
stays. -/
def failedCutover : List Message :=
  .other (.beginPlan (planOf registered.fabric) gone) :: List.replicate 16 (.other (.advance 0 {}))

/-- `AUTHORIZE_REQUEST` of service 1. -/
def askFor (request : UInt64) (idempotent : Bool) : List UInt8 :=
  payloadOf [putU64 Fid.service 1, putU64 Fid.slot 1, putU64 Fid.requestId request,
    putBool Fid.idempotent idempotent, putBool Fid.externallyEffectful false]

end Reference

open Reference in
/-- **Dispatch is authorized past the gate.**  A cutover fences the old boot and then
fails to activate the new one.  The old assignment is still active, so the handler
grants its boot a request that the gate refuses. -/
theorem dispatch_ungated :
    ¬ ∀ σ, Transition.Reachable (server env) (fun _ _ => True) σ →
      ∀ payload auth, (σ.fabric.onAuthorizeRequest payload).2 = .granted auth →
        ((σ.fabric.onAuthorizeRequest payload).1.authorizeDispatch auth).allowed = true := by
  intro h
  let σ := (server env).run registered failedCutover
  have hreach : Transition.Reachable (server env) (fun _ _ => True) σ :=
    .run_all failedCutover (.run_all _ (.initial freshProcess_started))
  have hgranted : (match (σ.fabric.onAuthorizeRequest (askFor 1 false)).2 with
      | .granted auth =>
        !((σ.fabric.onAuthorizeRequest (askFor 1 false)).1.authorizeDispatch auth).allowed
      | _ => false) = true := by decide +kernel
  split at hgranted
  · rename_i auth hauth
    rw [h σ hreach _ auth hauth] at hgranted
    cases hgranted
  · cases hgranted

end FailoverFabric
