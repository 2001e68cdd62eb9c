import FailoverFabric.Registration
import FailoverFabric.Readiness
import FailoverFabric.RequestPath
import FailoverFabric.Persistence.SaveFile

/-! # The coordinator process

`main` of `coordinator_main.cpp` once it listens: the peers that have said hello, and a handler
for each type of frame.  Frames are handled one after another, each to its end: a run of a
process is one in which no two handlers overlap.  In the program they may, if their frames come
in on different connections, since each connection has its reader thread.  What a handler
throws is answered with `ERROR_MSG`.  What the handlers meet outside of the process, the peers
of a cutover, the clock and the disk, is arbitrary (`World`).

Each handler comes down to steps of the fabric, of which those of a cutover may be many
(`process_refines`), so that whatever holds in every run of a `server` holds in every run of
a process.
-/
namespace FailoverFabric
open Fabric Protocol Persistence Codec

/-! ## The peers -/

/-- What a peer has said of itself, and whether its connection is alive. -/
structure Peer where
  role : UInt8 := 0
  target : UInt64 := 0
  boot : UInt64 := 0
  reqPort : UInt16 := 0
  alive : Bool := true
  deriving DecidableEq

def kRoleWorker : UInt8 := 1
def kRoleGateway : UInt8 := 2

namespace Peer

/-- One field of a `HELLO` is taken over, if it is there.  What was thrown ends the reading. -/
def takes {α : Type} (r : PayloadReader) (field : UInt8)
    (read : PayloadReader → UInt8 → Except Error α) (set : Peer → α → Peer)
    (h : Peer × Option Error) : Peer × Option Error :=
  match h.2 with
  | some _ => h
  | none =>
    match optionally r field read with
    | .error e => (h.1, some e)
    | .ok v => (v.elim h.1 (set h.1), none)

/-- The fields of a `HELLO`.  Those that were read stay when a later one cannot be. -/
def hello (p : Peer) (r : PayloadReader) : Peer × Option Error :=
  let h := takes r Fid.role PayloadReader.u8 (fun p v => { p with role := v }) (p, none)
  let h := takes r Fid.target PayloadReader.u64 (fun p v => { p with target := v }) h
  let h := takes r Fid.boot PayloadReader.u64 (fun p v => { p with boot := v }) h
  takes r Fid.reqPort PayloadReader.u64 (fun p v => { p with reqPort := v.toUInt16 }) h

end Peer

/-- The process.  A connection is the place of its peer; `workers` is by target, and
`gateways` by boot. -/
structure CoordinatorProcess where
  fabric : Fabric
  peers : List Peer := []
  workers : OrderedMap Nat Nat := {}
  gateways : OrderedMap Nat Nat := {}
  stopping : Bool := false

/-- What the handlers meet outside of the process.  `cast` is the conversion of a `double` to
an integer. -/
structure World where
  now : Time
  cast : F64 → UInt64
  eff : PeerEffects
  gate : Readings
  rd : Nat → Readings
  io : Answers

/-- What handling a frame comes to: the frames that are sent back before the answer, those
that are sent to other peers, the answer, and what is done to the files. -/
structure Serving where
  process : CoordinatorProcess
  pushed : List Frame := []
  requested : List Frame := []
  reply : Option Frame := none
  written : List (FileSystem.Action Text UInt8) := []

/-! ## Answers -/

/-- `ERROR_MSG`. -/
def errorFrame (f : Frame) (detail : Text) : Frame :=
  ⟨.errorMsg, f.msgId, f.epoch, payloadOf [putBool Fid.ok false, putStr Fid.detail detail]⟩

/-- A reply to a frame, as it is sent back. -/
def Reply.frame (f : Frame) : Reply → Frame
  | .errorMsg e => errorFrame f (text e.what)
  | .answer fields => ⟨f.type, f.msgId, f.epoch, payloadOf fields⟩

/-- The text of the exception that ends a save. -/
def SaveError.message (e : SaveError) : Text :=
  match e with
  | .encoding e => text e.what
  | e => e.what.getD []

/-! ## The handlers -/

/-- The category that a byte is cast to. -/
def FailureCategory.ofByte (b : UInt8) : FailureCategory :=
  if h : 12 < b then .unlisted b h else (ByteEnum.ofByte b).getD .unknownFailure

/-- `PUBLISH_FAILURE`. -/
structure FailureMessage where
  target : TargetId
  category : FailureCategory
  seq : UInt64
  deriving DecidableEq

def readFailure (payload : List UInt8) : Except Error FailureMessage := do
  let r ← parse payload
  let target ← r.u64 Fid.target
  let category ← r.u8 Fid.category
  let seq ← r.u64 Fid.seq
  return ⟨⟨target⟩, .ofByte category, seq⟩

/-- The event that is published.  Its id is computed as an `int`. -/
def FailureMessage.event (q : FailureMessage) (msgId : UInt32) : FailureEvent where
  eventId := ⟨(1000 + msgId.toInt32).toInt64.toUInt64⟩
  generation := .first
  status := .confirmed
  category := q.category
  target := some q.target
  source := ⟨1⟩
  received := { seq := q.seq }

/-- The service of a message that names nothing else. -/
def readService (payload : List UInt8) : Except Error ServiceId := do
  let r ← parse payload
  let service ← r.u64 Fid.service
  return ⟨service⟩

/-- `CHECK_ROUTE_ACK`. -/
structure RouteAck where
  service : ServiceId
  generation : RouteGeneration
  boot : GatewayBootId
  deriving DecidableEq

def readRouteAck (payload : List UInt8) : Except Error RouteAck := do
  let r ← parse payload
  let service ← r.u64 Fid.service
  let generation ← r.u64 Fid.routeGen
  let boot ← r.u64 Fid.boot
  return ⟨⟨service⟩, ⟨generation⟩, ⟨boot⟩⟩

/-- The byte of a request's disposition. -/
def dispositionByte : RequestDisposition → UInt8
  | .notDispatched => 0
  | .dispatched => 1
  | .acceptedByTarget => 2
  | .confirmedComplete => 3
  | .responseCommitted => 4
  | .failed => 5
  | .outcomeUnknown => 6

/-- `to_string`. -/
def dispositionName : RequestDisposition → String
  | .notDispatched => "NOT_DISPATCHED"
  | .dispatched => "DISPATCHED"
  | .acceptedByTarget => "ACCEPTED_BY_TARGET"
  | .confirmedComplete => "CONFIRMED_COMPLETE"
  | .responseCommitted => "RESPONSE_COMMITTED"
  | .failed => "FAILED"
  | .outcomeUnknown => "OUTCOME_UNKNOWN"

namespace Fabric

/-- The next call of a handler, unless an earlier one has thrown. -/
def thenCall (x : Fabric × Option Error) (call : Fabric → Except Error Fabric) :
    Fabric × Option Error :=
  match x.2 with
  | some _ => x
  | none =>
    match call x.1 with
    | .ok s' => (s', none)
    | .error e => (x.1, some e)

/-- `PUBLISH_READINESS`, of a peer that serves requests on `port`. -/
def onPublishReadiness (cast : F64 → UInt64) (now : Time) (port : UInt16) (s : Fabric)
    (payload : List UInt8) : Fabric × Option Error :=
  match Intake.receive 0 payload port with
  | .error e => (s, some e)
  | .ok h =>
    let head := h.message.head
    let x := thenCall (s, none) (·.registerTarget h.target (localTransport port))
    let x := thenCall x (·.publishCandidateFacts now head.facts)
    let x := thenCall x fun s => readState h.message.reader >>= s.publishCandidateState h.target
    thenCall x (·.publishCandidateResources h.target (head.resources cast))

def onPublishFailure (s : Fabric) (msgId : UInt32) (payload : List UInt8) : Fabric × Reply :=
  match readFailure payload with
  | .error e => (s, .errorMsg e)
  | .ok q => (s.publishFailure (q.event msgId), sent [putBool Fid.ok true])

/-- The fields of an answer to `QUERY_ROUTE`. -/
def routeFields (s : Fabric) (slot : ServiceSlotKey) : List Field :=
  [putBool Fid.ok (s.currentAssignment slot).isSome] ++
  ((s.currentAssignment slot).map fun cur => putU64 Fid.target cur.target.value).toList ++
  [putBool Fid.state (decide (0 < s.routes.revalidationCount)),
    putU64 Fid.seq (UInt64.ofNat s.requests.ambiguous),
    putBool Fid.txnIncomplete s.hasIncompleteCutover, putU64 Fid.epoch s.epoch.value] ++
  ((s.routes.current slot).map fun rt =>
    [putU64 Fid.routeGen rt.generation.value, putU64 Fid.boot rt.gatewayBoot.value]).getD []

def onQueryRoute (s : Fabric) (payload : List UInt8) : Reply :=
  match readService payload with
  | .error e => .errorMsg e
  | .ok service => sent (s.routeFields (firstSlot service))

/-- What is said of an acknowledgment: only the gateway that holds the current route, and of
that generation, may give it. -/
def judgeRouteAck (s : Fabric) (q : RouteAck) : Bool × String :=
  match s.routes.current (firstSlot q.service) with
  | none => (false, "no current route")
  | some rt =>
    if rt.generation ≠ q.generation then (false, "stale route generation")
    else if rt.gatewayBoot ≠ q.boot then (false, "stale gateway boot")
    else (true, "route acknowledgment accepted")

def onCheckRouteAck (s : Fabric) (payload : List UInt8) : Reply :=
  match readRouteAck payload with
  | .error e => .errorMsg e
  | .ok q =>
    let judged := s.judgeRouteAck q
    sent [putBool Fid.ok judged.1, putStr Fid.detail (text judged.2)]

/-- The fields of an answer to `CLASSIFY_REQUEST`. -/
def classifyFields (s : Fabric) (r : RequestId) : List Field :=
  putU64 Fid.dispatchCount (UInt64.ofNat s.dispatchCount) ::
    match s.requests.find r with
    | some st => [putBool Fid.ok true, putU8 Fid.state (dispositionByte st.disposition),
        putStr Fid.detail (text (dispositionName st.disposition))]
    | none => [putBool Fid.ok false, putStr Fid.detail (text "unknown request")]

def onClassifyRequest (s : Fabric) (payload : List UInt8) : Reply :=
  match (parse payload).bind (·.u64 Fid.requestId) with
  | .error e => .errorMsg e
  | .ok r => sent (s.classifyFields ⟨r⟩)

end Fabric

/-- What is left of pushing the routes to a gateway: the fabric, the frames that were sent, and
what was thrown. -/
structure Push where
  fabric : Fabric
  frames : List Frame := []
  failed : Option Error := none

namespace CoordinatorProcess

/-- `g_workers`. -/
def workerPeer (c : CoordinatorProcess) (t : TargetId) : Option Peer :=
  (c.workers.find t.value.toNat).bind fun i => c.peers[i]?

/-- `any_gateway_conn`: the gateway with the least boot. -/
def anyGateway (c : CoordinatorProcess) : Option Peer :=
  c.gateways.first.bind fun bi => c.peers[bi.2]?

/-- The peers, as a registration finds them. -/
def reached (c : CoordinatorProcess) : Peers where
  worker t := (c.workerPeer t).map fun p => (p.alive, p.reqPort)
  gateway := c.anyGateway.map (·.alive)

/-- A route as it is pushed: the transport is looked up, if the worker has said hello. -/
def routed (c : CoordinatorProcess) (e : RouteEntry) : RouteEntry :=
  match c.workerPeer e.target with
  | none => e
  | some p => { e with transport := localTransport p.reqPort }

/-- The route of one service is pushed, and bound to the gateway. -/
def pushRoute (c : CoordinatorProcess) (boot : GatewayBootId) (p : Push) (sv : ServiceDefinition) :
    Push :=
  match p.failed, p.fabric.routes.current (firstSlot sv.service) with
  | none, some rt =>
    match finish (encodeRouteEntry (c.routed rt)) with
    | .error e => { p with failed := some e }
    | .ok payload => {
        fabric := (p.fabric.bindRouteGateway (firstSlot sv.service) boot).1
        frames := p.frames ++ [⟨.installRoute, 2121, p.fabric.epoch.value, payload⟩] }
  | _, _ => p

/-- The current routes are pushed to a gateway, so that it can serve after a restart. -/
def pushRoutes (c : CoordinatorProcess) (boot : GatewayBootId) : Push :=
  c.fabric.services.items.foldl (c.pushRoute boot) { fabric := c.fabric }

/-- A peer has said what it is. -/
def greet (c : CoordinatorProcess) (i : Nat) (p : Peer) (f : Frame) : Serving :=
  if p.role = kRoleWorker then
    { process := { c with workers := c.workers.insert p.target.toNat i } }
  else if p.role = kRoleGateway then
    let c' : CoordinatorProcess := { c with
      gateways := c.gateways.insert p.boot.toNat i
      fabric := c.fabric.setGatewayBoot ⟨p.boot⟩ }
    let push := c'.pushRoutes ⟨p.boot⟩
    { process := { c' with fabric := push.fabric }
      pushed := push.frames
      reply := push.failed.map fun e => errorFrame f (text e.what) }
  else { process := c }

def onHello (c : CoordinatorProcess) (i : Nat) (f : Frame) : Serving :=
  match parse f.payload with
  | .error e => { process := c, reply := some (errorFrame f (text e.what)) }
  | .ok r =>
    let h := ((c.peers[i]?).getD {}).hello r
    let c' : CoordinatorProcess := { c with peers := c.peers.set i h.1 }
    match h.2 with
    | some e => { process := c', reply := some (errorFrame f (text e.what)) }
    | none => c'.greet i h.1 f

/-- `SAVE`.  What the file system says of it may be too long to be sent back. -/
def onSave (c : CoordinatorProcess) (io : Answers) (f : Frame) : Serving :=
  match (parse f.payload).bind (·.str Fid.detail) with
  | .error e => { process := c, reply := some (errorFrame f (text e.what)) }
  | .ok path =>
    let saved := saveFile io path c.fabric.saveSnapshot
    let reply := match saved.2 with
      | .ok _ => (sent [putBool Fid.ok true]).frame f
      | .error e =>
        match finish [putBool Fid.ok false, putStr Fid.detail (SaveError.message e)] with
        | .ok _ => errorFrame f (SaveError.message e)
        | .error e => errorFrame f (text e.what)
    { process := c, reply := some reply, written := saved.1 }

/-- The fabric after a handler, and its answer. -/
def served (c : CoordinatorProcess) (s : Fabric) (reply : Option Frame) : Serving :=
  { process := { c with fabric := s }, reply := reply }

/-- The handler of a frame. -/
def handle (env : Env) (w : World) (c : CoordinatorProcess) (i : Nat) (f : Frame) : Serving :=
  match f.type with
  | .hello => c.onHello i f
  | .publishReadiness =>
    let r := c.fabric.onPublishReadiness w.cast w.now (((c.peers[i]?).map (·.reqPort)).getD 0) f.payload
    c.served r.1 (r.2.map fun e => errorFrame f (text e.what))
  | .register =>
    let r := c.fabric.onRegister c.reached w.now f.payload
    { c.served r.fabric (some (r.reply.frame f)) with requested := r.requests }
  | .executeFailover =>
    let r := c.fabric.onExecuteFailover env w.eff w.rd f.payload
    c.served r.fabric (some (r.reply.frame f))
  | .requestFailback =>
    let r := c.fabric.onRequestFailback env w.eff w.gate w.rd f.payload
    c.served r.fabric (some (r.reply.frame f))
  | .publishFailure =>
    let r := c.fabric.onPublishFailure f.msgId f.payload
    c.served r.1 (some (r.2.frame f))
  | .queryRoute => c.served c.fabric (some ((c.fabric.onQueryRoute f.payload).frame f))
  | .checkRouteAck => c.served c.fabric (some ((c.fabric.onCheckRouteAck f.payload).frame f))
  | .authorizeRequest =>
    let r := c.fabric.onAuthorizeRequest f.payload
    c.served r.1 (some (r.2.frame f))
  | .authorizeResult =>
    let r := c.fabric.onAuthorizeResult f.payload
    c.served r.1 (some (r.2.frame f))
  | .classifyRequest => c.served c.fabric (some ((c.fabric.onClassifyRequest f.payload).frame f))
  | .save => c.onSave w.io f
  | .shutdown => { process := { c with stopping := true } }
  | _ => { process := c }

end CoordinatorProcess

/-! ## The process over time -/

/-- What happens to a process: a peer connects, a connection is lost, a frame arrives. -/
inductive ProcessEvent
  | accepted
  | lost (i : Nat)
  | frame (i : Nat) (f : Frame) (w : World)

namespace CoordinatorProcess

def step (env : Env) (c : CoordinatorProcess) : ProcessEvent → CoordinatorProcess
  | .accepted => { c with peers := c.peers ++ [{}] }
  | .lost i => { c with peers := c.peers.modify i fun p => { p with alive := false } }
  | .frame i f w => if (c.peers[i]?).any (·.alive) then (c.handle env w i f).process else c

/-- A process that has just been started. -/
def Initial (env : Env) (c : CoordinatorProcess) : Prop :=
  ∃ σ, SystemState.Started env σ ∧ c = { fabric := σ.fabric }

end CoordinatorProcess

/-- The system of all runs of one coordinator process, frame by frame. -/
def process (env : Env) : Transition.System CoordinatorProcess ProcessEvent where
  initial := CoordinatorProcess.Initial env
  step := CoordinatorProcess.step env

/-- **A start, inverted**: there is no file to load, or one that is loaded. -/
theorem start_cases {ord : CallOrders} {checkpoint : Text} {loaded : Option (Option (List UInt8))}
    {s : Fabric} (h : start ord checkpoint loaded = .ok s) :
    s = (({} : Fabric).setCheckpointPath checkpoint).setCoordinatorIdentity ⟨1⟩ 1 ∨
      ∃ snap, s = ((({} : Fabric).setCheckpointPath checkpoint).restore snap).setCoordinatorIdentity
        ⟨1⟩ (snap.epoch.value + 1) := by
  unfold start at h
  rcases loaded with _ | _ | blob
  · cases h
    exact .inl rfl
  · cases h
  · cases hl : (({} : Fabric).setCheckpointPath checkpoint).load ord blob with
    | error e =>
      simp only [hl] at h
      cases h
    | ok s' =>
      simp only [hl] at h
      cases h
      obtain ⟨snap, -, rfl⟩ := load_eq_ok.mp hl
      exact .inr ⟨snap, rfl⟩

/-! ## Frames as steps of a server -/

/-- The peer that a `HELLO` was read from. -/
def CoordinatorProcess.greeting (c : CoordinatorProcess) (i : Nat) (f : Frame) : Option Peer :=
  match (parse f.payload).map ((c.peers[i]?).getD {}).hello with
  | .ok (p, none) => some p
  | _ => none

/-- The messages and steps of a server that a frame comes down to.  The ones about a cutover
are for the slot that the frame names. -/
inductive Causes (c : CoordinatorProcess) (i : Nat) (f : Frame) : Message → Prop
  | greeted {p : Peer} (h : f.type = .hello) (hp : c.greeting i f = some p) :
      Causes c i f (.other (.op (.setGatewayBoot ⟨p.boot⟩)))
  | bound {p : Peer} (h : f.type = .hello) (hp : c.greeting i f = some p)
      (hrole : p.role = kRoleGateway) (slot : ServiceSlotKey) :
      Causes c i f (.other (.op (.bindRouteGateway slot ⟨p.boot⟩)))
  | published {o : Op} (h : f.type = .publishReadiness)
      (ho : publishes (.op o) = true) : Causes c i f (.other (.op o))
  | created {m : RegisterMessage} (h : f.type = .register) (hm : readRegister f.payload = .ok m) :
      Causes c i f (.other (.op (.createService m.definition)))
  | assigned {m : RegisterMessage} (h : f.type = .register) (hm : readRegister f.payload = .ok m)
      (now : Time) : Causes c i f (.other (.op (.setInitialAssignment now m.assignment)))
  | installed {m : RegisterMessage} (h : f.type = .register) (hm : readRegister f.payload = .ok m)
      (s : Fabric) (port : UInt16) (boot : GatewayBootId) :
      Causes c i f (.other (.op (.installRoute (m.initialRoute s port) boot)))
  | barrier (h : f.type = .executeFailover) (m : Milestone) :
      Causes c i f (.other (.op (.setCutoverBarrier m)))
  | cleared (h : f.type = .executeFailover) : Causes c i f (.other (.op .clearCutoverBarrier))
  | planned {q : FailoverMessage} (h : f.type = .executeFailover)
      (hq : readFailover f.payload = .ok q) :
      Causes c i f (.other (.op (.planFailover (firstSlot q.service))))
  | executed {q : FailoverMessage} (h : f.type = .executeFailover)
      (hq : readFailover f.payload = .ok q) {plan : FailoverPlan}
      (hslot : plan.slot = firstSlot q.service) (ops : CutoverOps) :
      Causes c i f (.other (.beginPlan plan ops))
  | authorized {q : FailbackMessage} (h : f.type = .requestFailback)
      (hq : readFailback f.payload = .ok q) :
      Causes c i f (.other (.op (.authorizeFailback (firstSlot q.service))))
  | failedBack {q : FailbackMessage} (h : f.type = .requestFailback)
      (hq : readFailback f.payload = .ok q) (ops : CutoverOps) :
      Causes c i f (.other (.beginFailback (firstSlot q.service) ops))
  | advanced (h : f.type = .executeFailover ∨ f.type = .requestFailback) (j : Nat) (rd : Readings) :
      Causes c i f (.other (.advance j rd))
  | failed (h : f.type = .publishFailure) (ev : FailureEvent) :
      Causes c i f (.other (.op (.publishFailure ev)))
  | request (h : f.type = .authorizeRequest) : Causes c i f (.authorizeRequest f.payload)
  | result (h : f.type = .authorizeResult) : Causes c i f (.authorizeResult f.payload)

/-- A result is written to the records of requests, and to nothing else. -/
theorem onAuthorizeResult_eq (s : Fabric) (payload : List UInt8) :
    (s.onAuthorizeResult payload).1 =
      { s with requests := (s.onAuthorizeResult payload).1.requests } := by
  unfold onAuthorizeResult handleResult
  split
  · rfl
  split
  · simp only
    split
    · split <;> rfl
    · rfl
  · rfl

/-- A server with this fabric can come to that one, by such messages, whatever calls it has
made. -/
structure ServedTo (env : Env) (ok : Message → Prop) (s s' : Fabric) : Prop where
  later : ∀ calls, ∃ calls',
    Transition.Later (server env) (fun _ m => ok m) ⟨s, calls⟩ ⟨s', calls'⟩

namespace ServedTo
variable {env : Env} {ok : Message → Prop} {s s' s'' : Fabric}

theorem refl (s : Fabric) : ServedTo env ok s s := ⟨fun calls => ⟨calls, .refl _⟩⟩

theorem trans (h : ServedTo env ok s s') (h' : ServedTo env ok s' s'') : ServedTo env ok s s'' where
  later calls := by
    obtain ⟨calls', hl⟩ := h.later calls
    obtain ⟨calls'', hl'⟩ := h'.later calls'
    exact ⟨calls'', hl.trans hl'⟩

/-- One message. -/
theorem message {m : Message} (hok : ok m)
    (h : ∀ calls, (server env).step ⟨s, calls⟩ m = ⟨s', calls⟩) : ServedTo env ok s s' where
  later calls := by
    have hone : Transition.Later (server env) (fun _ m => ok m) ⟨s, calls⟩
        ((server env).step ⟨s, calls⟩ m) := .single hok
    rw [h] at hone
    exact ⟨calls, hone⟩

/-- One operation that messages come down to. -/
theorem op {o : Op} (hok : ok (.other (.op o))) (h : fromMessage (.op o) && !onRequests (.op o)) :
    ServedTo env ok s (s.apply env o) := by
  refine message hok fun calls => ?_
  show (if fromMessage (.op o) && !onRequests (.op o) then
    SystemState.step env ⟨s, calls⟩ (.op o) else ⟨s, calls⟩) = _
  rw [if_pos h]
  rfl

/-- An operation that may throw, and has not. -/
theorem op_ok {o : Op} {r : Except Error Fabric} (hok : ok (.other (.op o)))
    (h : fromMessage (.op o) && !onRequests (.op o)) (happly : s.apply env o = s.orSelf r)
    (hr : r = .ok s') : ServedTo env ok s s' := by
  have hop : ServedTo env ok s (s.apply env o) := op hok h
  rwa [happly, hr] at hop

end ServedTo

section Calls
variable {env : Env} {ok : Message → Prop} {eff : PeerEffects}

/-- The call that was begun last advances. -/
theorem later_advance (hok : ∀ j rd, ok (.other (.advance j rd))) (s : Fabric) (calls : List Call)
    (c : Call) (rd : Readings) :
    Transition.Later (server env) (fun _ m => ok m) ⟨s, calls ++ [c]⟩
      ⟨(s.callStep env rd c).1, calls ++ [(s.callStep env rd c).2]⟩ := by
  have hstep : (server env).step ⟨s, calls ++ [c]⟩ (.other (.advance calls.length rd)) =
      ⟨(s.callStep env rd c).1, calls ++ [(s.callStep env rd c).2]⟩ := by
    show SystemState.step env ⟨s, calls ++ [c]⟩ (.advance calls.length rd) = _
    rw [step_advance_some List.getElem?_concat_length, List.set_append_right _ _ (Nat.le_refl _),
      Nat.sub_self, List.set_cons_zero]
  rw [← hstep]
  exact .single (hok ..)

/-- An attempt whose effects may throw.  Where one throws, the server's call is left where
it is. -/
theorem later_runPeer (hok : ∀ j rd, ok (.other (.advance j rd))) (rd : Nat → Readings) (n : Nat)
    (s : Fabric) (calls : List Call) (a : Attempt) :
    ∃ a', Transition.Later (server env) (fun _ m => ok m)
      ⟨s, calls ++ [.plan a]⟩ ⟨(runPeer eff rd n s a).1, calls ++ [.plan a']⟩ := by
  induction n generalizing s a with
  | zero => exact ⟨a, .refl _⟩
  | succ n ih =>
    rw [runPeer, peerStep]
    cases eff.thrown s a with
    | some e =>
      have hended : Ended (a.fail e) := .inr ⟨e, rfl⟩
      refine ⟨a, ?_⟩
      rw [runPeer_ended n hended]
      exact .refl _
    | none =>
      obtain ⟨a', hrest⟩ := ih (s.attemptStep (rd n) a).1 (s.attemptStep (rd n) a).2
      exact ⟨a', (later_advance hok s calls (.plan a) (rd n)).trans hrest⟩

theorem runFailbackPeer_threw (rd : Nat → Readings) (n : Nat) (s : Fabric) {f : Failback}
    {a : Option Attempt} {e : Error} (h : f.stage = .threw a e) :
    runFailbackPeer env eff rd n s f = (s, f) := by
  induction n with
  | zero => rfl
  | succ n ih =>
    have hstep : s.failbackPeerStep env eff (rd n) f = (s, f) := by
      simp only [failbackPeerStep, failbackStep, h]
    rw [runFailbackPeer, hstep, ih]

theorem later_runFailbackPeer (hok : ∀ j rd, ok (.other (.advance j rd))) (rd : Nat → Readings)
    (n : Nat) (s : Fabric) (calls : List Call) (f : Failback) :
    ∃ f', Transition.Later (server env) (fun _ m => ok m)
      ⟨s, calls ++ [.failback f]⟩ ⟨(runFailbackPeer env eff rd n s f).1, calls ++ [.failback f']⟩ := by
  induction n generalizing s f with
  | zero => exact ⟨f, .refl _⟩
  | succ n ih =>
    have hgo : s.failbackPeerStep env eff (rd n) f = s.failbackStep env (rd n) f →
        ∃ f', Transition.Later (server env) (fun _ m => ok m) ⟨s, calls ++ [.failback f]⟩
          ⟨(runFailbackPeer env eff rd (n + 1) s f).1, calls ++ [.failback f']⟩ := by
      intro hstep
      rw [runFailbackPeer, hstep]
      obtain ⟨f', hrest⟩ := ih (s.failbackStep env (rd n) f).1 (s.failbackStep env (rd n) f).2
      exact ⟨f', (later_advance hok s calls (.failback f) (rd n)).trans hrest⟩
    by_cases hcut : ∃ a, f.stage = .cutting a
    · obtain ⟨a, hst⟩ := hcut
      cases hthrown : eff.thrown s a with
      | some e =>
        refine ⟨f, ?_⟩
        have hstep : s.failbackPeerStep env eff (rd n) f =
            (s, { f with stage := .threw (some (a.fail e)) e }) := by
          simp only [failbackPeerStep, hst, peerStep, hthrown]
          rfl
        rw [runFailbackPeer, hstep, runFailbackPeer_threw rd n s rfl]
        exact .refl _
      | none => exact hgo (by simp only [failbackPeerStep, hst, peerStep, hthrown, failbackStep])
    · refine hgo ?_
      unfold failbackPeerStep
      split
      · rename_i a hst
        exact absurd ⟨a, hst⟩ hcut
      · rfl

theorem ServedTo.executeWithPeers (eff : PeerEffects) {plan : FailoverPlan}
    (hbegin : ok (.other (.beginPlan plan eff.outcomes))) (hok : ∀ j rd, ok (.other (.advance j rd)))
    (rd : Nat → Readings) (s : Fabric) : ServedTo env ok s (s.executeWithPeers eff rd plan).1 := by
  refine ⟨fun calls => ?_⟩
  obtain ⟨a', hrun⟩ := later_runPeer hok rd 19 s calls { plan := plan, ops := eff.outcomes }
  have hfirst : Transition.Later (server env) (fun _ m => ok m) ⟨s, calls⟩
      ⟨s, calls ++ [.plan { plan := plan, ops := eff.outcomes }]⟩ :=
    .single (T := server env) (l := .other (.beginPlan plan eff.outcomes)) hbegin
  exact ⟨_, hfirst.trans hrun⟩

theorem ServedTo.failbackWithPeers (eff : PeerEffects) {slot : ServiceSlotKey}
    (hbegin : ok (.other (.beginFailback slot eff.outcomes)))
    (hok : ∀ j rd, ok (.other (.advance j rd))) (rd : Nat → Readings) (s : Fabric) :
    ServedTo env ok s (s.failbackWithPeers env eff rd slot).1 := by
  refine ⟨fun calls => ?_⟩
  obtain ⟨f', hrun⟩ := later_runFailbackPeer hok rd 23 s calls { slot := slot, ops := eff.outcomes }
  have hfirst : Transition.Later (server env) (fun _ m => ok m) ⟨s, calls⟩
      ⟨s, calls ++ [.failback { slot := slot, ops := eff.outcomes }]⟩ :=
    .single (T := server env) (l := .other (.beginFailback slot eff.outcomes)) hbegin
  exact ⟨_, hfirst.trans hrun⟩

end Calls

section Handlers
variable {env : Env} {ok : Message → Prop} {c : CoordinatorProcess} {i : Nat} {f : Frame}

theorem ServedTo.thenCall {s : Fabric} {x : Fabric × Option Error} {call : Fabric → Except Error Fabric}
    (h : ServedTo env ok s x.1) (hcall : ∀ s', call x.1 = .ok s' → ServedTo env ok x.1 s') :
    ServedTo env ok s (thenCall x call).1 := by
  unfold Fabric.thenCall
  cases x.2 with
  | some e => exact h
  | none =>
    simp only
    cases hr : call x.1 with
    | error e => exact h
    | ok s' => exact h.trans (hcall s' hr)

theorem ServedTo.onPublishReadiness (h : f.type = .publishReadiness) (cast : F64 → UInt64)
    (now : Time) (port : UInt16) (s : Fabric) : ServedTo env (Causes c i f) s
      (s.onPublishReadiness cast now port f.payload).1 := by
  unfold Fabric.onPublishReadiness
  cases Intake.receive 0 f.payload port with
  | error e => exact .refl s
  | ok m =>
    refine thenCall (thenCall (thenCall (thenCall (.refl s) ?_) ?_) ?_) ?_
    · exact fun s' hr => op_ok (o := .registerTarget m.target (localTransport port))
        (.published h rfl) rfl rfl hr
    · exact fun s' hr => op_ok (o := .publishCandidateFacts now m.message.head.facts)
        (.published h rfl) rfl rfl hr
    · intro s' hr
      obtain ⟨st, -, hr⟩ := bind_ok_iff.mp hr
      exact op_ok (o := .publishCandidateState m.target st) (.published h rfl) rfl rfl hr
    · exact fun s' hr =>
        op_ok (o := .publishCandidateResources m.target (m.message.head.resources cast))
          (.published h rfl) rfl rfl hr

theorem ServedTo.announce (h : f.type = .register) {m : RegisterMessage}
    (hm : readRegister f.payload = .ok m) (peers : Peers) (s : Fabric) :
    ServedTo env (Causes c i f) s (s.announce peers m).fabric := by
  unfold Fabric.announce
  cases s.activationRequest peers m with
  | error e => exact .refl s
  | ok activation =>
    simp only
    cases hroute : s.routeRequest peers m with
    | error e => exact .refl s
    | ok r =>
      unfold routeRequest at hroute
      split at hroute
      · simp only at hroute
        cases hwritten : finish (encodeRouteEntry (m.initialRoute s (peers.workerReqPort m.target))) with
        | error e =>
          rw [hwritten] at hroute
          cases hroute
        | ok payload =>
          rw [hwritten] at hroute
          cases hroute
          exact op (Causes.installed h hm s (peers.workerReqPort m.target) s.gatewayBoot) rfl
      · cases hroute
        exact .refl s

theorem ServedTo.onRegister (h : f.type = .register) (peers : Peers) (now : Time) (s : Fabric) :
    ServedTo env (Causes c i f) s (s.onRegister peers now f.payload).fabric := by
  unfold Fabric.onRegister
  cases hm : readRegister f.payload with
  | error e => exact .refl s
  | ok m =>
    simp only [register]
    cases hcreate : s.createService m.definition with
    | error e => exact .refl s
    | ok created =>
      have hcreated : ServedTo env (Causes c i f) s created :=
        op_ok (.created h hm) rfl rfl hcreate
      simp only
      cases hassign : created.setInitialAssignment now m.assignment with
      | error e => exact hcreated
      | ok assigned =>
        have hassigned : ServedTo env (Causes c i f) created assigned :=
          op_ok (.assigned h hm now) rfl rfl hassign
        exact hcreated.trans (hassigned.trans (.announce h hm peers assigned))

theorem ServedTo.executeRequested (h : f.type = .executeFailover) {q : FailoverMessage}
    (hq : readFailover f.payload = .ok q) {plan : FailoverPlan}
    (hslot : plan.slot = firstSlot q.service) (eff : PeerEffects) (rd : Nat → Readings) (s : Fabric) :
    ServedTo env (Causes c i f) s
      (s.executeRequested eff rd (firstSlot q.service) plan).fabric := by
  have hrun : ServedTo env (Causes c i f) s (s.executeWithPeers eff rd plan).1 :=
    .executeWithPeers eff (.executed h hq hslot _) (.advanced (.inl h)) rd s
  unfold Fabric.executeRequested
  generalize s.executeWithPeers eff rd plan = r at hrun ⊢
  simp only
  split
  · exact hrun
  · exact hrun.trans (op (Causes.cleared h) rfl)

theorem ServedTo.executeFailbackRequested (h : f.type = .requestFailback) {q : FailbackMessage}
    (hq : readFailback f.payload = .ok q) (eff : PeerEffects) (rd : Nat → Readings) (s : Fabric) :
    ServedTo env (Causes c i f) s
      (s.executeFailbackRequested env eff rd (firstSlot q.service)).fabric := by
  have hrun : ServedTo env (Causes c i f) s (s.failbackWithPeers env eff rd (firstSlot q.service)).1 :=
    .failbackWithPeers eff (.failedBack h hq _) (.advanced (.inr h)) rd s
  unfold Fabric.executeFailbackRequested
  generalize s.failbackWithPeers env eff rd (firstSlot q.service) = r at hrun ⊢
  simp only
  split <;> exact hrun

theorem ServedTo.onExecuteFailover (h : f.type = .executeFailover) (eff : PeerEffects)
    (rd : Nat → Readings) (s : Fabric) :
    ServedTo env (Causes c i f) s (s.onExecuteFailover env eff rd f.payload).fabric := by
  unfold Fabric.onExecuteFailover
  cases hq : readFailover f.payload with
  | error e => exact .refl s
  | ok q =>
    have hbarrier : ServedTo env (Causes c i f) s (s.withBarrier q) := by
      unfold Fabric.withBarrier
      cases q.barrier with
      | some m => exact op (Causes.barrier h m) rfl
      | none => exact .refl s
    have hplanned : ServedTo env (Causes c i f) s
        ((s.withBarrier q).planFailover env.rank (firstSlot q.service)).1 :=
      hbarrier.trans (op (Causes.planned h hq) rfl)
    have hslot : ∀ plan, ((s.withBarrier q).planFailover env.rank (firstSlot q.service)).2 =
        .ok (some plan) → plan.slot = firstSlot q.service :=
      fun plan hplan => (planFailoverPref_snd hplan).1
    simp only [handleFailover]
    generalize (s.withBarrier q).planFailover env.rank (firstSlot q.service) = r at hplanned hslot ⊢
    obtain ⟨s', planned⟩ := r
    rcases planned with e | _ | plan
    · exact hplanned
    · exact hplanned
    · exact hplanned.trans (.executeRequested h hq (hslot plan rfl) eff rd s')

theorem ServedTo.onRequestFailback (h : f.type = .requestFailback) (eff : PeerEffects)
    (gate : Readings) (rd : Nat → Readings) (s : Fabric) :
    ServedTo env (Causes c i f) s (s.onRequestFailback env eff gate rd f.payload).fabric := by
  unfold Fabric.onRequestFailback
  cases hq : readFailback f.payload with
  | error e => exact .refl s
  | ok q =>
    have hauthorized : ServedTo env (Causes c i f) s
        (if q.authorize then s.authorizeFailback (firstSlot q.service) else s) := by
      split
      · exact op (Causes.authorized h hq) rfl
      · exact .refl s
    simp only [handleFailback]
    generalize (if q.authorize then s.authorizeFailback (firstSlot q.service) else s) = s'
      at hauthorized ⊢
    split
    · exact hauthorized.trans (.executeFailbackRequested h hq eff rd s')
    · exact hauthorized

/-- A pushed route is bound, and nothing else. -/
theorem ServedTo.pushRoute {d : CoordinatorProcess} {boot : GatewayBootId} {s : Fabric} {p : Push}
    (h : ServedTo env ok s p.fabric) {sv : ServiceDefinition}
    (hok : ok (.other (.op (.bindRouteGateway (firstSlot sv.service) boot)))) :
    ServedTo env ok s (d.pushRoute boot p sv).fabric := by
  unfold CoordinatorProcess.pushRoute
  split
  · split
    · exact h
    · exact h.trans (op hok rfl)
  · exact h

theorem ServedTo.pushRoutes {d : CoordinatorProcess} {boot : GatewayBootId}
    (hok : ∀ slot, ok (.other (.op (.bindRouteGateway slot boot)))) :
    ServedTo env ok d.fabric (d.pushRoutes boot).fabric := by
  have hfold : ∀ (svs : List ServiceDefinition) (p : Push), ServedTo env ok d.fabric p.fabric →
      ServedTo env ok d.fabric (svs.foldl (d.pushRoute boot) p).fabric := by
    intro svs
    induction svs with
    | nil => exact fun p hp => hp
    | cons sv svs ih => exact fun p hp => ih _ (hp.pushRoute (hok _))
  exact hfold _ _ (.refl d.fabric)

theorem ServedTo.greet {p : Peer} (h : f.type = .hello) (hp : c.greeting i f = some p)
    {d : CoordinatorProcess} : ServedTo env (Causes c i f) d.fabric (d.greet i p f).process.fabric := by
  unfold CoordinatorProcess.greet
  split_ifs with hworker hgateway
  · exact .refl _
  · have hboot : ServedTo env (Causes c i f) d.fabric (d.fabric.setGatewayBoot ⟨p.boot⟩) :=
      op (Causes.greeted h hp) rfl
    let d' : CoordinatorProcess := { d with
      gateways := d.gateways.insert p.boot.toNat i
      fabric := d.fabric.setGatewayBoot ⟨p.boot⟩ }
    have hpushed : ServedTo env (Causes c i f) d'.fabric (d'.pushRoutes ⟨p.boot⟩).fabric :=
      .pushRoutes fun slot => .bound h hp hgateway slot
    exact hboot.trans hpushed
  · exact .refl _

theorem ServedTo.onHello (h : f.type = .hello) :
    ServedTo env (Causes c i f) c.fabric (c.onHello i f).process.fabric := by
  unfold CoordinatorProcess.onHello
  cases hparse : parse f.payload with
  | error e => exact .refl _
  | ok r =>
    simp only
    cases hread : ((c.peers[i]?).getD {}).hello r with
    | mk p failed =>
      cases failed with
      | some e => exact .refl _
      | none =>
        have hp : c.greeting i f = some p := by
          rw [CoordinatorProcess.greeting, hparse]
          simp only [Except.map, hread]
        exact .greet h hp (d := { c with peers := c.peers.set i p })

/-- **What a handler does to the fabric**, a server does by the messages that the frame
causes. -/
theorem ServedTo.handle (w : World) (c : CoordinatorProcess) (i : Nat) (f : Frame) :
    ServedTo env (Causes c i f) c.fabric (c.handle env w i f).process.fabric := by
  unfold CoordinatorProcess.handle
  split
  · exact .onHello ‹_›
  · exact .onPublishReadiness ‹_› ..
  · exact .onRegister ‹_› ..
  · exact .onExecuteFailover ‹_› ..
  · exact .onRequestFailback ‹_› ..
  · show ServedTo env (Causes c i f) c.fabric (c.fabric.onPublishFailure f.msgId f.payload).1
    unfold Fabric.onPublishFailure
    cases readFailure f.payload with
    | error e => exact .refl _
    | ok q => exact op (Causes.failed ‹_› (q.event f.msgId)) rfl
  · exact .refl _
  · exact .refl _
  · exact message (.request ‹_›) fun _ => rfl
  · exact message (.result ‹_›) fun _ => rfl
  · exact .refl _
  · unfold CoordinatorProcess.onSave
    cases (parse f.payload).bind (·.str Fid.detail) with
    | error e => exact .refl _
    | ok path => exact .refl _
  · exact .refl _
  · exact .refl _

end Handlers

/-- The messages that an event causes. -/
def ProcessEvent.causes (c : CoordinatorProcess) : ProcessEvent → Message → Prop
  | .frame i f _ => Causes c i f
  | _ => fun _ => False

/-- An event of a process is a run of its server. -/
theorem ServedTo.step {env : Env} (c : CoordinatorProcess) (e : ProcessEvent) :
    ServedTo env (e.causes c) c.fabric (c.step env e).fabric := by
  cases e with
  | accepted => exact .refl _
  | lost i => exact .refl _
  | frame i f w =>
    simp only [CoordinatorProcess.step]
    split
    · exact .handle w c i f
    · exact .refl _

/-- **A process runs as a server.**  In every run of a coordinator process, whatever frames of
whatever peers it handles one after another, and whatever a cutover meets, the fabric is as in
some run of a `server`. -/
theorem process_refines {env : Env} {c : CoordinatorProcess}
    (hr : Transition.Reachable (process env) (fun _ _ => True) c) :
    ∃ calls, Transition.Reachable (server env) (fun _ _ => True) ⟨c.fabric, calls⟩ := by
  refine hr.invariant (P := fun c => ∃ calls,
    Transition.Reachable (server env) (fun _ _ => True) ⟨c.fabric, calls⟩) ?_ fun c e _ h _ => ?_
  · rintro c ⟨σ, hstarted, rfl⟩
    exact ⟨σ.calls, .initial hstarted⟩
  · obtain ⟨calls, hs⟩ := h
    obtain ⟨calls', hl⟩ := (ServedTo.step c e).later calls
    exact ⟨calls', hs.later (Transition.Later.mono hl fun _ _ _ => trivial)⟩

namespace Reference

/-- A process that was just started. -/
def freshCoordinator : CoordinatorProcess := { fabric := freshProcess.fabric }

theorem freshCoordinator_started : (process env).initial freshCoordinator :=
  ⟨freshProcess, freshProcess_started, rfl⟩

/-- Peers that do what they are asked, and a disk that works. -/
def quietWorld : World where
  now := 0
  cast := fun _ => 0
  eff := agreeingPeers
  gate := {}
  rd := fun _ => {}
  io := {}

/-- Peer `i` sends a frame. -/
def sends (i : Nat) (type : MsgType) (fields : List Field) : ProcessEvent :=
  .frame i ⟨type, 1, 1, payloadOf fields⟩ quietWorld

/-- A peer says hello. -/
def greets (i : Nat) (role : UInt8) (boot port : UInt64) : ProcessEvent :=
  sends i .hello [putU8 Fid.role role, putU64 Fid.target 1, putU64 Fid.boot boot,
    putU64 Fid.reqPort port]

/-- A worker and a gateway say hello, and a service is registered. -/
def serviceRegistered : List ProcessEvent :=
  [.accepted, .accepted, .accepted, greets 0 kRoleWorker 11 9001, greets 1 kRoleGateway 7 0,
    sends 2 .register [putU64 Fid.service 1, putU64 Fid.target 1, putU64 Fid.boot 11]]

end Reference

open Reference in
/-- A process that a worker, a gateway and a registration have come to. -/
theorem process_refines_reference : ∃ calls, Transition.Reachable (server Reference.env)
    (fun _ _ => True)
    ⟨((process Reference.env).run freshCoordinator serviceRegistered).fabric, calls⟩ :=
  process_refines (.run_all serviceRegistered (.initial freshCoordinator_started))

end FailoverFabric
