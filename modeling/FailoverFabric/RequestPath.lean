import FailoverFabric.RequestLedger
import FailoverFabric.Gateway
import FailoverFabric.Library.Simulation

/-! # Requests on their way

A coordinator, the gateways, and a thread of a gateway for each client.  A thread asks the
coordinator for a grant, has the work done along its gateway's route, and reports to the
coordinator before it answers its client.  Between these three steps anything else may happen:
other messages at the coordinator, other routes at the gateway, other clients.  The coordinator
handles one message after another, though its handlers may overlap in the program.  An exchange
with it may be lost, also after it was handled.  What a worker sends is arbitrary.

Left to itself, a thread is `handle_client` (`unhurried_client`).  The coordinator of a
deployment is a `server` (`deployment_refines`), and gateways report only what was granted
to them, so that a deployment keeps by itself what `results_bounded` asks of its runs
(`answers_bounded`).
-/
namespace FailoverFabric
open Fabric Protocol Codec

/-! ## The answers of the coordinator -/

/-- `what()`. -/
def Error.what : Error → String
  | .capacityExceeded what => what
  | .generationExhausted what => what
  | .invalidArgument what => what
  | .logicError what => what
  | .runtimeError what => what

namespace Answer

/-- The fields of an answer. -/
def fields : Answer → List Field
  | .errorMsg e => [putBool Fid.ok false, putStr Fid.detail (text e.what)]
  | .refused detail => [putBool Fid.ok false, putStr Fid.detail (text detail)]
  | .granted auth =>
    [putBool Fid.ok true, putU64 Fid.epoch auth.epoch.value, putU64 Fid.epochId auth.epoch.id.value,
      putU64 Fid.epochBoot auth.epoch.boot.value, putU64 Fid.slot auth.slot.slot.value,
      putU64 Fid.assignmentId auth.assignment.value,
      putU64 Fid.assignmentGen auth.assignmentGeneration.value,
      putU64 Fid.routeGen auth.routeGeneration.value, putU64 Fid.boot auth.workerBoot.value,
      putU64 Fid.incarnation auth.incarnation.value, putU64 Fid.requestId auth.request.value,
      putU64 Fid.executionId auth.execution.value, putStr Fid.operation auth.operation]
  | .accepted => [putBool Fid.ok true]

def type (f : Frame) : Answer → MsgType
  | .errorMsg _ => .errorMsg
  | _ => f.type

/-- The answer to a frame, as it is sent back. -/
def frame (f : Frame) (a : Answer) : Frame := ⟨a.type f, f.msgId, f.epoch, payloadOf a.fields⟩

end Answer

/-- What a gateway keeps of an authorization. -/
def Gateway.Grant.ofAuth (auth : WorkerAuthorization) : Gateway.Grant where
  epoch := auth.epoch.value
  epochId := auth.epoch.id.value
  epochBoot := auth.epoch.boot.value
  assignment := auth.assignment.value
  assignmentGen := auth.assignmentGeneration.value
  routeGen := auth.routeGeneration.value
  boot := auth.workerBoot.value
  incarnation := auth.incarnation.value

/-- The authorization that a gateway reports under. -/
def Gateway.Grant.reported (grant : Gateway.Grant) (service : UInt64) (msgId : UInt32) :
    WorkerAuthorization where
  epoch := ⟨grant.epoch, ⟨grant.epochId⟩, ⟨grant.epochBoot⟩⟩
  slot := firstSlot ⟨service⟩
  assignment := ⟨grant.assignment⟩
  assignmentGeneration := ⟨grant.assignmentGen⟩
  routeGeneration := ⟨grant.routeGen⟩
  incarnation := ⟨grant.incarnation⟩
  request := ⟨msgId.toUInt64⟩
  execution := ⟨msgId.toUInt64⟩
  workerBoot := ⟨grant.boot⟩

/-- The request of a client, as the coordinator reads it. -/
def Gateway.ClientRequest.message (q : Gateway.ClientRequest) (msgId : UInt32) : RequestMessage :=
  ⟨⟨q.service⟩, ⟨msgId.toUInt64⟩, q.idempotent, q.externallyEffectful⟩

/-! ## On the wire and back -/

theorem finish_payloadOf {fs : List Field} (h : (fs.flatMap Field.bytes).length ≤ kMaxFramePayload) :
    finish fs = .ok (payloadOf fs) := by
  rw [payloadOf, finish_of_fits h]
  rfl

/-- Fields that fit are read as they were written. -/
theorem parse_payloadOf {fs : List Field} (hw : ∀ f ∈ fs, f.WellFormed)
    (h : (fs.flatMap Field.bytes).length ≤ kMaxFramePayload) : parse (payloadOf fs) = .ok fs :=
  parse_finish hw (finish_payloadOf h)

theorem payloadOf_of_finish {fs : List Field} {bs : List UInt8} (h : finish fs = .ok bs) :
    payloadOf fs = bs := by rw [payloadOf, h]; rfl

/-- What does not fit is sent as nothing, and read as no fields. -/
theorem parse_payloadOf_cases {fs : List Field} (hw : ∀ f ∈ fs, f.WellFormed) :
    parse (payloadOf fs) = .ok fs ∨ parse (payloadOf fs) = .ok [] := by
  cases h : finish fs with
  | ok bs => exact .inl (payloadOf_of_finish h ▸ parse_finish hw h)
  | error e =>
    have hempty : payloadOf fs = [] := by rw [payloadOf, h]; rfl
    rw [hempty]
    exact .inr rfl

theorem authorizeRequest_fits (q : Gateway.ClientRequest) (msgId : UInt32) :
    ((Gateway.authorizeRequest q msgId).flatMap Field.bytes).length ≤ kMaxFramePayload := by
  simp [Gateway.authorizeRequest, Field.length_bytes, length_putU64, putBool, kMaxFramePayload]

theorem authorizeResult_fits (q : Gateway.ClientRequest) (msgId : UInt32) (grant : Gateway.Grant)
    (withheld : Bool) :
    ((Gateway.authorizeResult q msgId grant withheld).flatMap Field.bytes).length ≤
      kMaxFramePayload := by
  simp [Gateway.authorizeResult, Field.length_bytes, length_putU64, putBool, kMaxFramePayload]

theorem readRequest_authorizeRequest (q : Gateway.ClientRequest) (msgId : UInt32) :
    readRequest (payloadOf (Gateway.authorizeRequest q msgId)) = .ok (q.message msgId) := by
  have hparse : parse (payloadOf (Gateway.authorizeRequest q msgId)) =
      .ok (Gateway.authorizeRequest q msgId) := by
    refine parse_payloadOf ?_ (authorizeRequest_fits q msgId)
    simp only [Gateway.authorizeRequest, List.forall_mem_cons, List.not_mem_nil, false_implies,
      implies_true]
    exact ⟨wellFormed_putU64 .., wellFormed_putU64 .., wellFormed_putU64 .., wellFormed_putBool ..,
      wellFormed_putBool .., trivial⟩
  have hservice : PayloadReader.u64 (Gateway.authorizeRequest q msgId) Fid.service = .ok _ :=
    u64_putU64 rfl
  have hrequest : PayloadReader.u64 (Gateway.authorizeRequest q msgId) Fid.requestId = .ok _ :=
    u64_putU64 rfl
  have hidem : PayloadReader.flag (Gateway.authorizeRequest q msgId) Fid.idempotent = .ok _ :=
    flag_putBool rfl
  have heffect : PayloadReader.flag (Gateway.authorizeRequest q msgId) Fid.externallyEffectful =
      .ok _ := flag_putBool rfl
  rw [readRequest, hparse]
  show (do
    let service ← PayloadReader.u64 (Gateway.authorizeRequest q msgId) Fid.service
    _) = _
  simp only [hservice, hrequest, hidem, heffect]
  rfl

theorem readResult_authorizeResult (q : Gateway.ClientRequest) (msgId : UInt32)
    (grant : Gateway.Grant) (withheld : Bool) :
    readResult (payloadOf (Gateway.authorizeResult q msgId grant withheld)) =
      .ok ⟨grant.reported q.service msgId, withheld⟩ := by
  let fs := Gateway.authorizeResult q msgId grant withheld
  have hparse : parse (payloadOf fs) = .ok fs := by
    refine parse_payloadOf ?_ (authorizeResult_fits q msgId grant withheld)
    simp only [fs, Gateway.authorizeResult, List.forall_mem_cons, List.not_mem_nil,
      false_implies, implies_true]
    exact ⟨wellFormed_putU64 .., wellFormed_putU64 .., wellFormed_putU64 .., wellFormed_putU64 ..,
      wellFormed_putU64 .., wellFormed_putU64 .., wellFormed_putU64 .., wellFormed_putU64 ..,
      wellFormed_putU64 .., wellFormed_putU64 .., wellFormed_putU64 .., wellFormed_putU64 ..,
      wellFormed_putBool .., trivial⟩
  have hservice : PayloadReader.u64 fs Fid.service = .ok _ := u64_putU64 rfl
  have hepoch : PayloadReader.u64 fs Fid.epoch = .ok _ := u64_putU64 rfl
  have hepochId : PayloadReader.u64 fs Fid.epochId = .ok _ := u64_putU64 rfl
  have hepochBoot : PayloadReader.u64 fs Fid.epochBoot = .ok _ := u64_putU64 rfl
  have hassignment : PayloadReader.u64 fs Fid.assignmentId = .ok _ := u64_putU64 rfl
  have hassignmentGen : PayloadReader.u64 fs Fid.assignmentGen = .ok _ := u64_putU64 rfl
  have hrouteGen : PayloadReader.u64 fs Fid.routeGen = .ok _ := u64_putU64 rfl
  have hboot : PayloadReader.u64 fs Fid.boot = .ok _ := u64_putU64 rfl
  have hincarnation : PayloadReader.u64 fs Fid.incarnation = .ok _ := u64_putU64 rfl
  have hrequest : PayloadReader.u64 fs Fid.requestId = .ok _ := u64_putU64 rfl
  have hexecution : PayloadReader.u64 fs Fid.executionId = .ok _ := u64_putU64 rfl
  have hwithheld : PayloadReader.flag fs Fid.withheld = .ok _ := flag_putBool rfl
  rw [readResult, hparse]
  show (do
    let service ← PayloadReader.u64 fs Fid.service
    _) = _
  simp only [hservice, hepoch, hepochId, hepochBoot, hassignment, hassignmentGen, hrouteGen, hboot,
    hincarnation, hrequest, hexecution, hwithheld]
  rfl

/-- The gateway keeps what it was granted. -/
theorem readGrant_granted {f : Frame} (hf : f.type = .authorizeRequest) (s : Fabric)
    (q : RequestMessage) (cur : Assignment) :
    Gateway.readGrant (some (Answer.frame f (.granted (s.grant q cur)))) =
      .ok (some (.ofAuth (s.grant q cur))) := by
  let fs := Answer.fields (.granted (s.grant q cur))
  have hparse : parse (payloadOf fs) = .ok fs := by
    refine parse_payloadOf ?_ ?_
    · simp only [fs, Answer.fields, List.forall_mem_cons, List.not_mem_nil, false_implies,
        implies_true]
      exact ⟨wellFormed_putBool .., wellFormed_putU64 .., wellFormed_putU64 .., wellFormed_putU64 ..,
        wellFormed_putU64 .., wellFormed_putU64 .., wellFormed_putU64 .., wellFormed_putU64 ..,
        wellFormed_putU64 .., wellFormed_putU64 .., wellFormed_putU64 .., wellFormed_putU64 ..,
        wellFormed_putStr .., trivial⟩
    · have hserve : (text "serve").length = 5 := by decide +kernel
      simp [fs, Answer.fields, Field.length_bytes, length_putU64, putBool, putStr, kMaxFramePayload,
        grant, hserve]
  have hok : PayloadReader.flag fs Fid.ok = .ok true := flag_putBool rfl
  have hepoch : PayloadReader.u64 fs Fid.epoch = .ok _ := u64_putU64 rfl
  have hepochId : PayloadReader.u64 fs Fid.epochId = .ok _ := u64_putU64 rfl
  have hepochBoot : PayloadReader.u64 fs Fid.epochBoot = .ok _ := u64_putU64 rfl
  have hassignment : PayloadReader.u64 fs Fid.assignmentId = .ok _ := u64_putU64 rfl
  have hassignmentGen : PayloadReader.u64 fs Fid.assignmentGen = .ok _ := u64_putU64 rfl
  have hrouteGen : PayloadReader.u64 fs Fid.routeGen = .ok _ := u64_putU64 rfl
  have hboot : PayloadReader.u64 fs Fid.boot = .ok _ := u64_putU64 rfl
  have hincarnation : PayloadReader.u64 fs Fid.incarnation = .ok _ := u64_putU64 rfl
  rw [Gateway.readGrant]
  simp only [Answer.frame, Answer.type, hf, ne_eq, not_true_eq_false, if_false]
  rw [hparse]
  show (do
    let ok ← PayloadReader.flag fs Fid.ok
    _) = _
  rw [hok]
  show (do
    let epoch ← PayloadReader.u64 fs Fid.epoch
    _) = _
  simp only [hepoch, hepochId, hepochBoot, hassignment, hassignmentGen, hrouteGen, hboot,
    hincarnation]
  rfl

/-- An answer that is not ok. -/
def Answer.isNo : Answer → Bool
  | .errorMsg _ => true
  | .refused _ => true
  | _ => false

/-- What says no is read so, or as nothing. -/
theorem parse_no {a : Answer} (h : a.isNo = true) :
    ∃ r, parse (payloadOf a.fields) = .ok r ∧ r.flag Fid.ok = .ok false ∧
      (r.has Fid.detail = true → ∃ detail, r.str Fid.detail = .ok detail) := by
  obtain ⟨detail, hfields⟩ : ∃ detail,
      a.fields = [putBool Fid.ok false, putStr Fid.detail detail] := by
    cases a with
    | errorMsg e => exact ⟨_, rfl⟩
    | refused d => exact ⟨_, rfl⟩
    | granted auth => cases h
    | accepted => cases h
  rw [hfields]
  have hw : ∀ f ∈ [putBool Fid.ok false, putStr Fid.detail detail], f.WellFormed := by
    simp only [List.forall_mem_cons, List.not_mem_nil, false_implies, implies_true]
    exact ⟨wellFormed_putBool .., wellFormed_putStr .., trivial⟩
  rcases parse_payloadOf_cases hw with hparse | hparse
  · exact ⟨_, hparse, flag_putBool rfl, fun _ => ⟨_, str_putStr rfl⟩⟩
  · exact ⟨_, hparse, rfl, fun h => by cases h⟩

theorem readGrant_no {f : Frame} {a : Answer} (h : a.isNo = true) :
    Gateway.readGrant (some (a.frame f)) = .ok none := by
  rw [Gateway.readGrant]
  by_cases htype : a.type f = .authorizeRequest
  swap
  · simp only [Answer.frame, ne_eq, htype, not_false_eq_true, if_true]
    rfl
  simp only [Answer.frame, htype, ne_eq, not_true_eq_false, if_false]
  obtain ⟨r, hparse, hok, -⟩ := parse_no h
  rw [hparse]
  show (do
    let ok ← r.flag Fid.ok
    _) = _
  rw [hok]
  rfl

theorem readJudgement_accepted {f : Frame} (hf : f.type = .authorizeResult) :
    Gateway.readJudgement (some (Answer.frame f .accepted)) = .ok (true, []) := by
  have hparse : parse (payloadOf (Answer.fields .accepted)) = .ok [putBool Fid.ok true] := by
    decide +kernel
  rw [Gateway.readJudgement]
  simp only [Answer.frame, Answer.type, hf, ne_eq, not_true_eq_false, if_false]
  rw [hparse]
  rfl

theorem readJudgement_no {f : Frame} {a : Answer} (h : a.isNo = true) :
    ∃ detail, Gateway.readJudgement (some (a.frame f)) = .ok (false, detail) := by
  rw [Gateway.readJudgement]
  by_cases htype : a.type f = .authorizeResult
  swap
  · simp only [Answer.frame, ne_eq, htype, not_false_eq_true, if_true]
    exact ⟨_, rfl⟩
  simp only [Answer.frame, htype, ne_eq, not_true_eq_false, if_false]
  obtain ⟨r, hparse, hok, hdetail⟩ := parse_no h
  rw [hparse]
  cases hhas : r.has Fid.detail with
  | true =>
    obtain ⟨detail, hstr⟩ := hdetail hhas
    refine ⟨detail, ?_⟩
    show (do
      let ok ← r.flag Fid.ok
      let detail ← if r.has Fid.detail then r.str Fid.detail else pure []
      return (ok, detail)) = _
    rw [hok, hhas]
    simp only [if_true, hstr]
    rfl
  | false =>
    refine ⟨[], ?_⟩
    show (do
      let ok ← r.flag Fid.ok
      let detail ← if r.has Fid.detail then r.str Fid.detail else pure []
      return (ok, detail)) = _
    rw [hok, hhas]
    rfl

/-- A result is accepted or not; nothing is granted for it. -/
theorem answer_of_result (s : Fabric) (payload : List UInt8) :
    (s.onAuthorizeResult payload).2 = .accepted ∨ (s.onAuthorizeResult payload).2.isNo = true := by
  unfold onAuthorizeResult
  cases readResult payload with
  | error e => exact .inr rfl
  | ok q =>
    simp only [handleResult]
    split
    · exact .inr rfl
    · split
      · exact .inl rfl
      · exact .inr rfl

/-! ## Clients -/

/-- The answer to a client whose request is not dispatched. -/
def Gateway.refusal (detail : String) : List Field :=
  [putStr Fid.detail (text "unknown"), putBool Fid.ok false, putStr Fid.detail (text detail)]

/-- The answer to a client once the result has been judged. -/
def Gateway.judged (q : Gateway.ClientRequest) (c : Gateway.Computed) (resOk : Bool)
    (resDetail : Text) : List Field :=
  [putStr Fid.detail (text "unknown")] ++
    [putBool Fid.ok (resOk && Gateway.parity c q.a q.b && !c.withheld),
      putBool Fid.state (Gateway.parity c q.a q.b)] ++
    (if resDetail.isEmpty then [] else [putStr Fid.detail resDetail]) ++
    if c.result.isEmpty then [] else [putBytes Fid.payload c.result]

/-- How far the thread of a client has come.  `dropped` is that its gateway ended. -/
inductive ClientStage
  | arrived
  | granted (grant : Gateway.Grant) (route : WireRoute)
  | computed (grant : Gateway.Grant) (route : WireRoute) (c : Gateway.Computed)
  | answered (fields : List Field)
  | dropped
  deriving DecidableEq

structure Client where
  gateway : Nat
  frame : Frame
  request : Gateway.ClientRequest
  stage : ClientStage := .arrived
  deriving DecidableEq

namespace Client

/-- What the thread sends to ask for a grant. -/
def asking (c : Client) (g : Gateway) : Frame :=
  ⟨.authorizeRequest, c.frame.msgId, g.epoch,
    payloadOf (Gateway.authorizeRequest c.request c.frame.msgId)⟩

/-- What the thread reports when the worker has been asked. -/
def reporting (c : Client) (g : Gateway) (grant : Gateway.Grant) (withheld : Bool) : Frame :=
  ⟨.authorizeResult, c.frame.msgId, g.epoch,
    payloadOf (Gateway.authorizeResult c.request c.frame.msgId grant withheld)⟩

/-- With a grant the thread goes on, if there is a route. -/
def afterAsking (c : Client) (g : Gateway) : Option Gateway.Grant → ClientStage
  | none => .answered (Gateway.refusal "dispatch not authorized")
  | some grant =>
    match g.routes.find c.request.slot.toNat with
    | none => .answered (Gateway.refusal "no route installed")
    | some route => .granted grant route

/-- The gateway of this number has ended. -/
def drop (k : Nat) (c : Client) : Client :=
  if c.gateway = k then
    match c.stage with
    | .answered _ => c
    | _ => { c with stage := .dropped }
  else c

end Client

/-! ## The deployment -/

/-- What becomes of an exchange with the coordinator. -/
inductive Exchange
  | lost
  | unanswered
  | answered
  deriving DecidableEq

namespace Exchange

def handled : Exchange → Bool
  | .lost => false
  | _ => true

/-- What comes back to the gateway. -/
def reply (f : Frame) (a : Answer) : Exchange → Option Frame
  | .answered => some (a.frame f)
  | _ => none

end Exchange

/-- The coordinator, the gateways that were started, and the clients that they took. -/
structure Deployment where
  coordinator : SystemState
  gateways : List (Option Gateway) := []
  clients : List Client := []

/-- A client whose gateway is running. -/
structure Thread where
  client : Client
  gateway : Gateway

/-- What can happen in a deployment. -/
inductive RequestEvent
  /-- A step of the coordinator that is not about requests. -/
  | other (l : Label)
  /-- `AUTHORIZE_REQUEST` of somebody else. -/
  | asked (payload : List UInt8)
  | opened
  | ended (k : Nat)
  /-- A message on the control connection of a gateway, and what a worker sends if it is asked. -/
  | control (k : Nat) (f : Frame) (sent : WorkerReply)
  | client (k : Nat) (f : Frame)
  | ask (i : Nat) (x : Exchange)
  | compute (i : Nat) (sent : WorkerReply)
  | report (i : Nat) (x : Exchange)

namespace Deployment

def gateway (d : Deployment) (k : Nat) : Option Gateway := (d.gateways[k]?).join

def thread (d : Deployment) (i : Nat) : Option Thread :=
  (d.clients[i]?).bind fun c => (d.gateway c.gateway).map fun g => ⟨c, g⟩

def setStage (d : Deployment) (i : Nat) (c : Client) (stage : ClientStage) : Deployment :=
  { d with clients := d.clients.set i { c with stage := stage } }

/-- A gateway ends, and its connections with it. -/
def drop (d : Deployment) (k : Nat) : Deployment :=
  { d with gateways := d.gateways.set k none, clients := d.clients.map (Client.drop k) }

/-- The thread, if it has not asked yet. -/
def arrivedAt (d : Deployment) (i : Nat) : Option Thread :=
  (d.thread i).filter fun t => t.client.stage == .arrived

/-- The thread, if it has a grant and a route. -/
def grantedAt (d : Deployment) (i : Nat) : Option (Thread × Gateway.Grant × WireRoute) :=
  (d.thread i).bind fun t =>
    match t.client.stage with
    | .granted grant route => some (t, grant, route)
    | _ => none

/-- The thread, if the worker has been asked. -/
def computedAt (d : Deployment) (i : Nat) : Option (Thread × Gateway.Grant × Gateway.Computed) :=
  (d.thread i).bind fun t =>
    match t.client.stage with
    | .computed grant _ c => some (t, grant, c)
    | _ => none

/-! Threads.  What a thread cannot read or write ends its gateway: nothing catches it. -/

def ask (d : Deployment) (i : Nat) (x : Exchange) : Deployment :=
  match d.arrivedAt i with
  | none => d
  | some t =>
    let f := t.client.asking t.gateway
    match Gateway.readGrant (x.reply f (d.coordinator.fabric.onAuthorizeRequest f.payload).2) with
    | .error _ => d.drop t.client.gateway
    | .ok granted => d.setStage i t.client (t.client.afterAsking t.gateway granted)

def compute (d : Deployment) (i : Nat) (sent : WorkerReply) : Deployment :=
  match d.grantedAt i with
  | none => d
  | some (t, grant, route) =>
    match Gateway.computeOnWorker (fun _ _ => sent) t.gateway.epoch route t.client.request.a
      t.client.request.b with
    | .error _ => d.drop t.client.gateway
    | .ok c => d.setStage i t.client (.computed grant route c)

def report (d : Deployment) (i : Nat) (x : Exchange) : Deployment :=
  match d.computedAt i with
  | none => d
  | some (t, grant, c) =>
    let f := t.client.reporting t.gateway grant c.withheld
    match Gateway.readJudgement (x.reply f (d.coordinator.fabric.onAuthorizeResult f.payload).2) with
    | .error _ => d.drop t.client.gateway
    | .ok (resOk, resDetail) =>
      let fields := Gateway.judged t.client.request c resOk resDetail
      match finish fields with
      | .error _ => d.drop t.client.gateway
      | .ok _ => d.setStage i t.client (.answered fields)

/-! Gateways. -/

def control (d : Deployment) (k : Nat) (f : Frame) (sent : WorkerReply) : Deployment :=
  match d.gateway k with
  | none => d
  | some g =>
    match g.control (fun _ _ => sent) f with
    | .error _ => d.drop k
    | .ok done => { d with gateways := d.gateways.set k (some done.gateway) }

def client (d : Deployment) (k : Nat) (f : Frame) : Deployment :=
  match d.gateway k with
  | none => d
  | some _ =>
    match Gateway.readClient f.payload with
    | .error _ => d.drop k
    | .ok q => { d with clients := d.clients ++ [{ gateway := k, frame := f, request := q }] }

/-- What an event does to the gateways and their clients. -/
def front (d : Deployment) : RequestEvent → Deployment
  | .other _ => d
  | .asked _ => d
  | .opened => { d with gateways := d.gateways ++ [some {}] }
  | .ended k => d.drop k
  | .control k f sent => d.control k f sent
  | .client k f => d.client k f
  | .ask i x => d.ask i x
  | .compute i sent => d.compute i sent
  | .report i x => d.report i x

/-- The message that the coordinator handles at an event. -/
def message (d : Deployment) : RequestEvent → Option Message
  | .other l => some (.other l)
  | .asked payload => some (.authorizeRequest payload)
  | .ask i x =>
    (d.arrivedAt i).bind fun t =>
      if x.handled then some (.authorizeRequest (t.client.asking t.gateway).payload) else none
  | .report i x =>
    (d.computedAt i).bind fun (t, grant, c) =>
      if x.handled then some (.authorizeResult (t.client.reporting t.gateway grant c.withheld).payload)
      else none
  | _ => none

def step (env : Env) (d : Deployment) (e : RequestEvent) : Deployment :=
  { d.front e with
    coordinator := ((d.message e).map fun m => d.coordinator.handle env m).getD d.coordinator }

end Deployment

/-- The system of all runs of a coordinator process with gateways. -/
def deployment (env : Env) : Transition.System Deployment RequestEvent where
  initial d := SystemState.Started env d.coordinator ∧ d.gateways = [] ∧ d.clients = []
  step := Deployment.step env

/-- A note on the coordinator's messages, taken beside a deployment. -/
def Deployment.noted {History : Type} (note : SystemState → Message → History → History)
    (d : Deployment) (e : RequestEvent) (h : History) : History :=
  ((d.message e).map fun m => note d.coordinator m h).getD h

/-- **The coordinator of a deployment is a server**, with the same history, if it handles only
messages that the guard lets pass. -/
theorem deployment_refines {History : Type} {env : Env} {start : History}
    {note : SystemState → Message → History → History} {ok : SystemState × History → Message → Prop}
    (hok : ∀ p e m, Transition.Reachable ((deployment env).withHistory start (Deployment.noted note))
      (fun _ _ => True) p → p.1.message e = some m → ok (p.1.coordinator, p.2) m) :
    Transition.Refines ((deployment env).withHistory start (Deployment.noted note))
      (fun _ _ => True) ((server env).withHistory start note) ok
      fun p => (p.1.coordinator, p.2) := by
  refine Transition.refines_of_step (fun p hp => ⟨hp.1.1, hp.2⟩) (fun p e => p.1.message e)
    (fun p e hnone => ?_) fun p e m hr _ hm => ⟨hok p e m hr hm, ?_⟩
  · show (((p.1.message e).map _).getD _, Deployment.noted note p.1 e p.2) = _
    rw [Deployment.noted, hnone]
    rfl
  · show (((p.1.message e).map _).getD _, Deployment.noted note p.1 e p.2) = _
    rw [Deployment.noted, hm]
    rfl

/-! ## What an event does -/

namespace Deployment
variable {d : Deployment}

theorem thread_eq_some {i : Nat} {t : Thread} :
    d.thread i = some t ↔
      d.clients[i]? = some t.client ∧ d.gateway t.client.gateway = some t.gateway := by
  rw [thread, Option.bind_eq_some_iff]
  constructor
  · rintro ⟨c, hc, h⟩
    obtain ⟨g, hg, rfl⟩ := Option.map_eq_some_iff.mp h
    exact ⟨hc, hg⟩
  · rintro ⟨hc, hg⟩
    exact ⟨_, hc, by rw [hg]; rfl⟩

theorem arrivedAt_eq_some {i : Nat} {t : Thread} :
    d.arrivedAt i = some t ↔ d.thread i = some t ∧ t.client.stage = .arrived := by
  rw [arrivedAt, Option.filter_eq_some_iff, beq_iff_eq]

theorem grantedAt_eq_some {i : Nat} {t : Thread} {grant : Gateway.Grant} {route : WireRoute} :
    d.grantedAt i = some (t, grant, route) ↔
      d.thread i = some t ∧ t.client.stage = .granted grant route := by
  rw [grantedAt, Option.bind_eq_some_iff]
  constructor
  · rintro ⟨t', ht, h⟩
    split at h
    · rename_i hstage
      cases h
      exact ⟨ht, hstage⟩
    · cases h
  · rintro ⟨ht, hstage⟩
    exact ⟨t, ht, by rw [hstage]⟩

theorem computedAt_eq_some {i : Nat} {t : Thread} {grant : Gateway.Grant} {c : Gateway.Computed} :
    d.computedAt i = some (t, grant, c) ↔
      d.thread i = some t ∧ ∃ route, t.client.stage = .computed grant route c := by
  rw [computedAt, Option.bind_eq_some_iff]
  constructor
  · rintro ⟨t', ht, h⟩
    split at h
    · rename_i hstage
      cases h
      exact ⟨ht, _, hstage⟩
    · cases h
  · rintro ⟨ht, route, hstage⟩
    exact ⟨t, ht, by rw [hstage]⟩

/-- What a thread has been granted: nothing, or what the coordinator grants now. -/
def Obtained (s : Fabric) (c : Client) (x : Exchange) (granted : Option Gateway.Grant) : Prop :=
  granted = none ∨ x = .answered ∧ ∃ cur, Dispatchable s (c.request.message c.frame.msgId) cur ∧
    granted = some (.ofAuth (s.grant (c.request.message c.frame.msgId) cur))

/-- **The coordinator's answer to a question.** -/
theorem readGrant_answer (s : Fabric) (c : Client) (g : Gateway) (x : Exchange) :
    ∃ granted, Gateway.readGrant (x.reply (c.asking g)
        (s.onAuthorizeRequest (c.asking g).payload).2) = .ok granted ∧ Obtained s c x granted := by
  have hread : readRequest (c.asking g).payload = .ok (c.request.message c.frame.msgId) :=
    readRequest_authorizeRequest ..
  cases x with
  | lost => exact ⟨none, rfl, .inl rfl⟩
  | unanswered => exact ⟨none, rfl, .inl rfl⟩
  | answered =>
    rcases handleRequest_cases s (c.request.message c.frame.msgId) with ⟨cur, hd⟩ | ⟨detail, hno⟩
    · rw [onAuthorizeRequest_dispatchable hread hd]
      exact ⟨_, readGrant_granted rfl .., .inr ⟨rfl, cur, hd, rfl⟩⟩
    · rw [onAuthorizeRequest, hread]
      simp only [hno]
      exact ⟨none, readGrant_no rfl, .inl rfl⟩

/-- **The coordinator's judgement of a result**: it says ok if it was handled and accepted. -/
theorem readJudgement_answer (s : Fabric) (x : Exchange) {f : Frame} (hf : f.type = .authorizeResult) :
    ∃ resOk resDetail, Gateway.readJudgement (x.reply f (s.onAuthorizeResult f.payload).2) =
        .ok (resOk, resDetail) ∧
      (resOk = true ↔ x = .answered ∧ (s.onAuthorizeResult f.payload).2 = .accepted) := by
  cases x with
  | lost => exact ⟨false, [], rfl, by simp⟩
  | unanswered => exact ⟨false, [], rfl, by simp⟩
  | answered =>
    rcases answer_of_result s f.payload with hacc | hno
    · rw [hacc]
      exact ⟨true, [], readJudgement_accepted hf, by simp⟩
    · obtain ⟨detail, hdetail⟩ := readJudgement_no (f := f) hno
      refine ⟨false, detail, hdetail, ?_⟩
      constructor
      · intro h
        cases h
      · rintro ⟨-, hacc⟩
        rw [hacc] at hno
        cases hno

/-- The event is not a report. -/
def Unreported (d : Deployment) (e : RequestEvent) : Prop :=
  ∀ payload, d.message e ≠ some (.authorizeResult payload)

/-- The effect of an event on the gateways and their clients. -/
inductive Effect (d : Deployment) : RequestEvent → Deployment → Prop
  | unmoved {e : RequestEvent} {gs : List (Option Gateway)} (h : Unreported d e) :
      Effect d e { d with gateways := gs }
  | dropped {e : RequestEvent} {k : Nat} (h : Unreported d e) : Effect d e (d.drop k)
  | arrived {k : Nat} {f : Frame} {q : Gateway.ClientRequest}
      (hread : Gateway.readClient f.payload = .ok q) :
      Effect d (.client k f)
        { d with clients := d.clients ++ [{ gateway := k, frame := f, request := q }] }
  | asked {i : Nat} {x : Exchange} {t : Thread} {granted : Option Gateway.Grant}
      (ht : d.arrivedAt i = some t) (hg : Obtained d.coordinator.fabric t.client x granted) :
      Effect d (.ask i x) (d.setStage i t.client (t.client.afterAsking t.gateway granted))
  | computed {i : Nat} {sent : WorkerReply} {t : Thread} {grant : Gateway.Grant}
      {route : WireRoute} {c : Gateway.Computed} (ht : d.grantedAt i = some (t, grant, route))
      (hc : Gateway.computeOnWorker (fun _ _ => sent) t.gateway.epoch route t.client.request.a
        t.client.request.b = .ok c) :
      Effect d (.compute i sent) (d.setStage i t.client (.computed grant route c))
  | judged {i : Nat} {x : Exchange} {t : Thread} {grant : Gateway.Grant} {c : Gateway.Computed}
      {resOk : Bool} {resDetail : Text} (ht : d.computedAt i = some (t, grant, c))
      (hj : resOk = true ↔ x = .answered ∧ (d.coordinator.fabric.onAuthorizeResult
        (t.client.reporting t.gateway grant c.withheld).payload).2 = .accepted) :
      Effect d (.report i x)
        (d.setStage i t.client (.answered (Gateway.judged t.client.request c resOk resDetail)))
  | unjudged {i : Nat} {x : Exchange} {t : Thread} {grant : Gateway.Grant} {c : Gateway.Computed}
      (ht : d.computedAt i = some (t, grant, c)) :
      Effect d (.report i x) (d.drop t.client.gateway)

theorem unreported_ask (d : Deployment) (i : Nat) (x : Exchange) : Unreported d (.ask i x) := by
  intro payload h
  obtain ⟨t, -, h⟩ := Option.bind_eq_some_iff.mp h
  split at h <;> cases h

theorem ask_effect (d : Deployment) (i : Nat) (x : Exchange) : Effect d (.ask i x) (d.ask i x) := by
  unfold ask
  cases ht : d.arrivedAt i with
  | none => exact .unmoved (unreported_ask d i x)
  | some t =>
    obtain ⟨granted, hread, hg⟩ := readGrant_answer d.coordinator.fabric t.client t.gateway x
    simp only [hread]
    exact .asked ht hg

theorem compute_effect (d : Deployment) (i : Nat) (sent : WorkerReply) :
    Effect d (.compute i sent) (d.compute i sent) := by
  have hun : Unreported d (.compute i sent) := fun payload h => by cases h
  unfold compute
  cases ht : d.grantedAt i with
  | none => exact .unmoved hun
  | some t =>
    obtain ⟨t, grant, route⟩ := t
    simp only
    cases hc : Gateway.computeOnWorker (fun _ _ => sent) t.gateway.epoch route t.client.request.a
      t.client.request.b with
    | error e => exact .dropped hun
    | ok c => exact .computed ht hc

theorem report_effect (d : Deployment) (i : Nat) (x : Exchange) :
    Effect d (.report i x) (d.report i x) := by
  unfold report
  cases ht : d.computedAt i with
  | none =>
    refine .unmoved fun payload h => ?_
    rw [message, ht] at h
    cases h
  | some t =>
    obtain ⟨t, grant, c⟩ := t
    obtain ⟨resOk, resDetail, hread, hj⟩ := readJudgement_answer d.coordinator.fabric x
      (f := t.client.reporting t.gateway grant c.withheld) rfl
    simp only [hread]
    split
    · exact .unjudged ht
    · exact .judged ht hj

theorem control_effect (d : Deployment) (k : Nat) (f : Frame) (sent : WorkerReply) :
    Effect d (.control k f sent) (d.control k f sent) := by
  have hun : Unreported d (.control k f sent) := fun payload h => by cases h
  unfold control
  split
  · exact .unmoved hun
  · split
    · exact .dropped hun
    · exact .unmoved hun

theorem client_effect (d : Deployment) (k : Nat) (f : Frame) :
    Effect d (.client k f) (d.client k f) := by
  have hun : Unreported d (.client k f) := fun payload h => by cases h
  unfold client
  split
  · exact .unmoved hun
  · split
    · exact .dropped hun
    · rename_i hread
      exact .arrived hread

/-- **An event, inverted.** -/
theorem front_effect (d : Deployment) (e : RequestEvent) : Effect d e (d.front e) := by
  cases e with
  | other l => exact .unmoved fun payload h => by cases h
  | asked payload => exact .unmoved fun payload h => by cases h
  | opened => exact .unmoved fun payload h => by cases h
  | ended k => exact .dropped fun payload h => by cases h
  | control k f sent => exact control_effect d k f sent
  | client k f => exact client_effect d k f
  | ask i x => exact ask_effect d i x
  | compute i sent => exact compute_effect d i sent
  | report i x => exact report_effect d i x

end Deployment

namespace Reference

/-- The service is registered, and a gateway has the route of its assignment. -/
def readyToServe : List RequestEvent :=
  (registration.map fun o => .other (.op o)) ++
    [.opened, .control 0 (sendRoute 1 firstRoute) .unreachable]

/-- A worker's answer, with the result of the inputs. -/
def workDone (a b : UInt64) : WorkerReply :=
  .frame ⟨.executionResult, 1001, 1,
    payloadOf [putBool Fid.ok true, putBytes Fid.payload (referenceText a b)]⟩

/-- A client whose worker answers, up to the report. -/
def workedFor : List RequestEvent :=
  readyToServe ++ [.client 0 (clientOf 1), .ask 0 .answered, .compute 0 (workDone 0 0)]

/-- Two clients of one request.  The worker of the first one does not answer. -/
def unansweredFor : List RequestEvent :=
  readyToServe ++ [.client 0 (clientOf 1), .client 0 (clientOf 1), .ask 0 .answered,
    .compute 0 .closed]

/-- The deployment of the first process, before it has a gateway. -/
def freshDeployment : Deployment := { coordinator := freshProcess }

theorem freshDeployment_initial : (deployment env).initial freshDeployment :=
  ⟨freshProcess_started, rfl, rfl⟩

end Reference

end FailoverFabric
