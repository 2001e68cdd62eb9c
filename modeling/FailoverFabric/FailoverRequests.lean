import FailoverFabric.CutoverBarrier
import FailoverFabric.Coordinator
import FailoverFabric.FailbackGates
import FailoverFabric.Handlers

/-! # Requests for a failover and for a failback

The `EXECUTE_FAILOVER` and `REQUEST_FAILBACK` handlers of `coordinator_main.cpp`.  A
request for a failover may bring a milestone, which is set as the barrier before the
failover is planned and cleared after it was executed.  Between the two the handler may
return, when there is no plan, and leave by an exception, which is answered with
`ERROR_MSG`: in both cases the barrier stays, and stops a later cutover.

`barrier_confined_iff` says in which sequences of messages no barrier is left behind.
-/
namespace FailoverFabric
open Protocol Persistence

/-! ## Effects that throw -/

/-- The effects of a cutover as the coordinator performs them: each may throw, as when
the answer of a peer cannot be read. -/
structure PeerEffects where
  fenceOld : Assignment → WorkerBootId → Except Error FenceOutcome
  activate : Candidate → WorkerAuthorization → ServiceAuthorityGeneration →
    Except Error ActivateOutcome
  installRoute : RouteEntry → GatewayBootId → Except Error RouteOutcome
  verify : RouteEntry → WorkerAuthorization → Except Error VerifyOutcome

/-- The stage of a call that has thrown. -/
def Stage.hasThrown : Stage → Bool
  | .threw _ => true
  | _ => false

/-- What was thrown, if anything. -/
def thrownBy {α : Type} : Except Error α → Option Error
  | .ok _ => none
  | .error e => some e

namespace PeerEffects

/-- The outcomes of the effects that do not throw. -/
def outcomes (eff : PeerEffects) : CutoverOps where
  fenceOld old boot := (eff.fenceOld old boot).toOption.getD {}
  activate c auth gen := (eff.activate c auth gen).toOption.getD {}
  installRoute entry boot := (eff.installRoute entry boot).toOption.getD {}
  verify entry auth := (eff.verify entry auth).toOption.getD {}

/-- What the effect throws that an attempt performs in its next step. -/
def thrown (eff : PeerEffects) (s : Fabric) (a : Attempt) : Option Error :=
  match a.stage with
  | .fencing => a.oldAssign.bind fun old => thrownBy (eff.fenceOld old a.selected.facts.workerBoot)
  | .activating => thrownBy (eff.activate a.selected a.auth a.newAssign.authorityGeneration)
  | .installing => thrownBy (eff.installRoute a.route s.gatewayBoot)
  | .verifying => thrownBy (eff.verify a.route a.auth)
  | _ => none

end PeerEffects

namespace Fabric

/-- One step of a call of `execute_plan`, with effects that may throw. -/
def peerStep (eff : PeerEffects) (rd : Readings) (s : Fabric) (a : Attempt) : Fabric × Attempt :=
  match eff.thrown s a with
  | some e => (s, a.fail e)
  | none => s.attemptStep rd a

def runPeer (eff : PeerEffects) (rd : Nat → Readings) : Nat → Fabric → Attempt → Fabric × Attempt
  | 0, s, a => (s, a)
  | n + 1, s, a =>
    let r := s.peerStep eff (rd n) a
    runPeer eff rd n r.1 r.2

/-- `execute_plan`, with effects that may throw. -/
def executeWithPeers (eff : PeerEffects) (rd : Nat → Readings) (s : Fabric) (plan : FailoverPlan) :
    Fabric × Attempt :=
  runPeer eff rd 19 s { plan := plan, ops := eff.outcomes }

/-- One step of a call of `execute_failback`, with effects that may throw. -/
def failbackPeerStep (env : Env) (eff : PeerEffects) (rd : Readings) (s : Fabric) (f : Failback) :
    Fabric × Failback :=
  match f.stage with
  | .cutting a =>
    let r := s.peerStep eff rd a
    (r.1, { f with stage := afterAttempt r.2 })
  | _ => s.failbackStep env rd f

def runFailbackPeer (env : Env) (eff : PeerEffects) (rd : Nat → Readings) :
    Nat → Fabric → Failback → Fabric × Failback
  | 0, s, f => (s, f)
  | n + 1, s, f =>
    let r := s.failbackPeerStep env eff (rd n) f
    runFailbackPeer env eff rd n r.1 r.2

/-- `execute_failback`, with effects that may throw. -/
def failbackWithPeers (env : Env) (eff : PeerEffects) (rd : Nat → Readings) (s : Fabric)
    (slot : ServiceSlotKey) : Fabric × Failback :=
  runFailbackPeer env eff rd 23 s { slot := slot, ops := eff.outcomes }

end Fabric

/-! ## The messages -/

/-- `EXECUTE_FAILOVER`: the slot, and the milestone to stop at if the message brings one.
A byte that names no milestone is ignored. -/
structure FailoverMessage where
  service : ServiceId
  barrier : Option Milestone
  deriving DecidableEq

def readFailover (payload : List UInt8) : Except Error FailoverMessage := do
  let r ← parse payload
  let service ← r.u64 Fid.service
  if r.has Fid.state then
    let bm ← r.u8 Fid.state
    return ⟨⟨service⟩, ByteEnum.ofByte bm⟩
  else return ⟨⟨service⟩, none⟩

/-- `REQUEST_FAILBACK`. -/
structure FailbackMessage where
  service : ServiceId
  authorize : Bool
  deriving DecidableEq

def readFailback (payload : List UInt8) : Except Error FailbackMessage := do
  let r ← parse payload
  let service ← r.u64 Fid.service
  let authorize ← r.flag Fid.authorize
  return ⟨⟨service⟩, authorize⟩

/-- The byte of an attempt's state. -/
def attemptByte : AttemptState → UInt8
  | .requested => 0
  | .evaluating => 1
  | .blocked => 2
  | .preparing => 3
  | .fencing => 4
  | .promoting => 5
  | .cuttingOver => 6
  | .verifying => 7
  | .completed => 8
  | .failed => 9
  | .cancelled => 10
  | .superseded => 11
  | .recoveryRequired => 12

/-- The answer to a message: `ERROR_MSG`, or a frame of the message's own type. -/
inductive Reply
  | errorMsg (e : Error)
  | answer (fields : List Field)
  deriving DecidableEq

/-- An answer is sent, unless it is too large to be written. -/
def sent (fields : List Field) : Reply :=
  match finish fields with
  | .ok _ => .answer fields
  | .error e => .errorMsg e

/-- The answer about an attempt. -/
def attemptFields (r : AttemptResult) (current : Option Assignment) : List Field :=
  [putBool Fid.ok (r.state == .completed && r.recoveryVerified),
    putU8 Fid.state (attemptByte r.state), putStr Fid.detail r.detail] ++
  (current.map fun cur => putU64 Fid.target cur.target.value).toList

/-- What handling a message comes to, with the result of the attempt if one was made. -/
structure HandledRequest where
  fabric : Fabric
  reply : Reply
  attempt : Option AttemptResult := none

/-! ## The handlers -/

namespace Fabric

/-- The barrier that a message brings is set. -/
def withBarrier (s : Fabric) (q : FailoverMessage) : Fabric :=
  match q.barrier with
  | some m => s.setCutoverBarrier m
  | none => s

/-- The planned failover is executed.  The barrier is cleared when the call returns. -/
def executeRequested (eff : PeerEffects) (rd : Nat → Readings) (s : Fabric) (slot : ServiceSlotKey)
    (plan : FailoverPlan) : HandledRequest :=
  let r := s.executeWithPeers eff rd plan
  match r.2.stage with
  | .threw e => { fabric := r.1, reply := .errorMsg e }
  | _ => {
      fabric := r.1.clearCutoverBarrier
      reply := sent (attemptFields r.2.result (r.1.currentAssignment slot))
      attempt := some r.2.result }

def handleFailover (env : Env) (eff : PeerEffects) (rd : Nat → Readings) (s : Fabric)
    (q : FailoverMessage) : HandledRequest :=
  let r := (s.withBarrier q).planFailover env.rank (firstSlot q.service)
  match r.2 with
  | .error e => { fabric := r.1, reply := .errorMsg e }
  | .ok none => {
      fabric := r.1
      reply := sent [putBool Fid.ok false, putStr Fid.detail (text "no eligible replacement")] }
  | .ok (some plan) => r.1.executeRequested eff rd (firstSlot q.service) plan

def onExecuteFailover (env : Env) (eff : PeerEffects) (rd : Nat → Readings) (s : Fabric)
    (payload : List UInt8) : HandledRequest :=
  match readFailover payload with
  | .error e => { fabric := s, reply := .errorMsg e }
  | .ok q => s.handleFailover env eff rd q

/-- The authorized failback is executed. -/
def executeFailbackRequested (env : Env) (eff : PeerEffects) (rd : Nat → Readings) (s : Fabric)
    (slot : ServiceSlotKey) : HandledRequest :=
  let r := s.failbackWithPeers env eff rd slot
  match r.2.stage with
  | .threw _ e => { fabric := r.1, reply := .errorMsg e }
  | st => {
      fabric := r.1
      reply := sent (attemptFields (st.result.getD {}) (r.1.currentAssignment slot))
      attempt := st.result }

/-- The failback is evaluated for the answer, with the readings `gate`, and once more by
`execute_failback` itself. -/
def handleFailback (env : Env) (eff : PeerEffects) (gate : Readings) (rd : Nat → Readings)
    (s : Fabric) (q : FailbackMessage) : HandledRequest :=
  let slot := firstSlot q.service
  let s' := if q.authorize then s.authorizeFailback slot else s
  let d := s'.evaluateFailback gate slot
  if d.authorized then s'.executeFailbackRequested env eff rd slot
  else {
    fabric := s'
    reply := sent [putBool Fid.ok false, putStr Fid.detail (text d.reason),
      putBool Fid.state d.inCooldown] }

def onRequestFailback (env : Env) (eff : PeerEffects) (gate : Readings) (rd : Nat → Readings)
    (s : Fabric) (payload : List UInt8) : HandledRequest :=
  match readFailback payload with
  | .error e => { fabric := s, reply := .errorMsg e }
  | .ok q => s.handleFailback env eff gate rd q

end Fabric

/-! ## Messages, one after another -/

/-- What a coordinator handles.  The remaining messages come down to operations of the
fabric; the queries and `SAVE` to none. -/
inductive CoordinatorMessage
  | executeFailover (payload : List UInt8) (eff : PeerEffects) (rd : Nat → Readings)
  | requestFailback (payload : List UInt8) (eff : PeerEffects) (gate : Readings)
      (rd : Nat → Readings)
  | authorizeRequest (payload : List UInt8)
  | authorizeResult (payload : List UInt8)
  | other (os : List Op)

namespace CoordinatorMessage

/-- The operations of `HELLO`, `PUBLISH_READINESS`, `REGISTER` and `PUBLISH_FAILURE`. -/
def ofOthers : Op → Bool
  | .setGatewayBoot _ | .bindRouteGateway _ _ => true
  | .registerTarget _ _ | .publishCandidateFacts _ _ | .publishCandidateState _ _
  | .publishCandidateResources _ _ => true
  | .createService _ | .setInitialAssignment _ _ | .installRoute _ _ => true
  | .publishFailure _ => true
  | _ => false

/-- The message is a request for a failover that brings a milestone. -/
def bringsBarrier : CoordinatorMessage → Bool
  | executeFailover payload _ _ => (readFailover payload).toOption.any fun q => q.barrier.isSome
  | _ => false

end CoordinatorMessage

namespace Fabric

/-- A message is handled to its end: the fabric, and the result of the attempt if one was
made. -/
def receive (env : Env) (s : Fabric) : CoordinatorMessage → Fabric × Option AttemptResult
  | .executeFailover payload eff rd =>
    let r := s.onExecuteFailover env eff rd payload
    (r.fabric, r.attempt)
  | .requestFailback payload eff gate rd =>
    let r := s.onRequestFailback env eff gate rd payload
    (r.fabric, r.attempt)
  | .authorizeRequest payload => ((s.onAuthorizeRequest payload).1, none)
  | .authorizeResult payload => ((s.onAuthorizeResult payload).1, none)
  | .other os =>
    (if os.all CoordinatorMessage.ofOthers then os.foldl (Fabric.apply env) s else s, none)

/-- Messages are handled one after another. -/
def receiveAll (env : Env) (s : Fabric) (ms : List CoordinatorMessage) : Fabric :=
  ms.foldl (fun s m => (s.receive env m).1) s

theorem receiveAll_concat (env : Env) (s : Fabric) (ms : List CoordinatorMessage)
    (m : CoordinatorMessage) :
    s.receiveAll env (ms ++ [m]) = ((s.receiveAll env ms).receive env m).1 := by
  rw [receiveAll, List.foldl_append]
  rfl

/-! ## The barrier while a message is handled -/

variable {env : Env} {eff : PeerEffects} {s : Fabric}

theorem planFailover_barrier (rank : Candidate → ServiceDefinition → UInt64)
    (slot : ServiceSlotKey) :
    (s.planFailover rank slot).1.barrierMilestone = s.barrierMilestone := by
  rw [planFailover, planFailoverPref_fst]

theorem Confined.barrier {s' : Fabric} (h : Confined s s') :
    s'.barrierMilestone = s.barrierMilestone := by rw [h]

theorem peerStep_barrier (rd : Readings) (a : Attempt) :
    (s.peerStep eff rd a).1.barrierMilestone = s.barrierMilestone := by
  unfold peerStep
  cases eff.thrown s a with
  | some e => rfl
  | none => exact (attemptStep_confined rd s a).barrier

theorem runPeer_barrier (rd : Nat → Readings) (n : Nat) (a : Attempt) :
    (runPeer eff rd n s a).1.barrierMilestone = s.barrierMilestone := by
  induction n generalizing s a with
  | zero => rfl
  | succ n ih => rw [runPeer, ih, peerStep_barrier]

theorem failbackPeerStep_barrier (rd : Readings) (f : Failback) :
    (s.failbackPeerStep env eff rd f).1.barrierMilestone = s.barrierMilestone := by
  unfold failbackPeerStep
  split
  · exact peerStep_barrier rd _
  cases failbackStep_effect env rd s f with
  | authorized _ _ hfab _ => rw [hfab]
  | read _ hfab _ => rw [hfab]
  | opened _ _ hfab _ => rw [hfab]
  | refused _ _ hfab _ => rw [hfab]
  | cut _ hfab _ => rw [hfab, (attemptStep_confined rd s _).barrier]
  | settled _ hfab _ =>
    rw [hfab, settleFailback]
    split <;> rfl
  | ended _ hsame => rw [hsame]

theorem runFailbackPeer_barrier (rd : Nat → Readings) (n : Nat) (f : Failback) :
    (runFailbackPeer env eff rd n s f).1.barrierMilestone = s.barrierMilestone := by
  induction n generalizing s f with
  | zero => rfl
  | succ n ih => rw [runFailbackPeer, ih, failbackPeerStep_barrier]

theorem executeFailbackRequested_barrier (rd : Nat → Readings) (slot : ServiceSlotKey) :
    (s.executeFailbackRequested env eff rd slot).fabric.barrierMilestone = s.barrierMilestone := by
  have hrun : (s.failbackWithPeers env eff rd slot).1.barrierMilestone = s.barrierMilestone :=
    runFailbackPeer_barrier rd 23 _
  unfold executeFailbackRequested
  generalize s.failbackWithPeers env eff rd slot = r at hrun ⊢
  simp only
  split <;> exact hrun

/-- A request for a failback leaves the barrier alone. -/
theorem onRequestFailback_barrier (gate : Readings) (rd : Nat → Readings) (payload : List UInt8) :
    (s.onRequestFailback env eff gate rd payload).fabric.barrierMilestone = s.barrierMilestone := by
  unfold onRequestFailback
  cases readFailback payload with
  | error e => rfl
  | ok q =>
    have hauthorized : (if q.authorize then s.authorizeFailback (firstSlot q.service)
        else s).barrierMilestone = s.barrierMilestone := by
      split <;> rfl
    simp only [handleFailback]
    generalize (if q.authorize then s.authorizeFailback (firstSlot q.service) else s) = s'
      at hauthorized ⊢
    split
    · exact (executeFailbackRequested_barrier rd _).trans hauthorized
    · exact hauthorized

/-- So do the messages about requests. -/
theorem onAuthorizeRequest_barrier (payload : List UInt8) :
    (s.onAuthorizeRequest payload).1.barrierMilestone = s.barrierMilestone := by
  unfold onAuthorizeRequest handleRequest
  split
  · rfl
  split
  · rfl
  split_ifs <;> rfl

theorem onAuthorizeResult_barrier (payload : List UInt8) :
    (s.onAuthorizeResult payload).1.barrierMilestone = s.barrierMilestone := by
  unfold onAuthorizeResult handleResult
  split
  · rfl
  split
  · simp only
    split
    · split <;> rfl
    · rfl
  · rfl

/-- So do the operations of the remaining messages. -/
theorem apply_barrier {o : Op} (h : CoordinatorMessage.ofOthers o = true) :
    (s.apply env o).barrierMilestone = s.barrierMilestone := by
  cases o with
  | setGatewayBoot boot => rfl
  | bindRouteGateway slot boot => rfl
  | registerTarget id transport => rw [apply_registerTarget]
  | publishCandidateFacts now f => rw [apply_publishCandidateFacts]
  | publishCandidateState t st => rw [apply_publishCandidateState]
  | publishCandidateResources t rs => rw [apply_publishCandidateResources]
  | createService d =>
    show (s.orSelf (s.createService d)).barrierMilestone = _
    cases hs : s.createService d with
    | error e => rfl
    | ok s' =>
      rw [(createService_eq hs).1]
      rfl
  | setInitialAssignment now a =>
    show (s.orSelf (s.setInitialAssignment now a)).barrierMilestone = _
    cases hs : s.setInitialAssignment now a with
    | error e => rfl
    | ok s' =>
      rw [(setInitialAssignment_eq_ok hs).fabric]
      rfl
  | installRoute entry boot =>
    show (s.installRoute entry boot).1.barrierMilestone = _
    rw [installRoute_eq]
  | publishFailure ev => rfl
  | _ => cases h

theorem foldl_apply_barrier (os : List Op) (h : os.all CoordinatorMessage.ofOthers = true) :
    (os.foldl (Fabric.apply env) s).barrierMilestone = s.barrierMilestone := by
  induction os generalizing s with
  | nil => rfl
  | cons o os ih =>
    rw [List.all_cons, Bool.and_eq_true] at h
    rw [List.foldl_cons, ih h.2, apply_barrier h.1]

/-! ## What a call throws

The generations may be used up at the validation, the checkpoint may not be saved, and a
peer's answer may not be readable. -/

/-- The step of the attempt does not throw. -/
def stepReturns (eff : PeerEffects) (rd : Readings) (s : Fabric) (a : Attempt) : Bool :=
  match a.stage with
  | .validating => !(s.validateAttempt a).2.stage.hasThrown
  | .saving _ => s.savesCheckpoint rd
  | _ => (eff.thrown s a).isNone

/-- No step of the call throws. -/
def runReturns (eff : PeerEffects) (rd : Nat → Readings) : Nat → Fabric → Attempt → Bool
  | 0, _, _ => true
  | n + 1, s, a =>
    let r := s.peerStep eff (rd n) a
    stepReturns eff (rd n) s a && runReturns eff rd n r.1 r.2

/-- Only the validation and a save throw. -/
theorem attemptStep_hasThrown {rd : Readings} {a : Attempt} (hval : a.stage ≠ .validating)
    (hsave : ∀ m, a.stage ≠ .saving m) (h : a.stage.hasThrown = false) :
    (s.attemptStep rd a).2.stage.hasThrown = false := by
  unfold attemptStep
  cases hst : a.stage with
  | validating => exact absurd hst hval
  | saving m => exact absurd hst (hsave m)
  | testing m =>
    simp only [testBarrier]
    split
    · rfl
    · cases m <;> rfl
  | fencing =>
    simp only [fenceStep]
    split_ifs <;> rfl
  | activating =>
    simp only [activateStep]
    split <;> rfl
  | installing =>
    simp only [installStep]
    split <;> rfl
  | verifying =>
    simp only [verifyStep]
    split_ifs <;> rfl
  | returned =>
    simp only [hst]
    rfl
  | threw e =>
    rw [hst] at h
    cases h
  | _ => rfl

theorem peerStep_hasThrown (rd : Readings) {a : Attempt} (h : a.stage.hasThrown = false) :
    (s.peerStep eff rd a).2.stage.hasThrown = !stepReturns eff rd s a := by
  have hquiet : eff.thrown s a = none → s.peerStep eff rd a = s.attemptStep rd a := by
    intro hn
    rw [peerStep, hn]
  by_cases hval : a.stage = .validating
  · rw [hquiet (by rw [PeerEffects.thrown, hval]), attemptStep_validating hval, stepReturns, hval,
      Bool.not_not]
  by_cases hsave : ∃ m, a.stage = .saving m
  · obtain ⟨m, hst⟩ := hsave
    have hstep : s.attemptStep rd a = (s, s.saveCheckpoint rd m a) := by
      simp only [attemptStep, hst]
    rw [hquiet (by rw [PeerEffects.thrown, hst]), hstep, stepReturns, hst]
    cases hsaves : s.savesCheckpoint rd with
    | true =>
      rw [saveCheckpoint_saves hsaves]
      rfl
    | false =>
      obtain ⟨e, he⟩ := saveCheckpoint_fails (a := a) (m := m) hsaves
      rw [he]
      rfl
  · have hreturns : stepReturns eff rd s a = (eff.thrown s a).isNone := by
      unfold stepReturns
      split
      · rename_i hst
        exact absurd hst hval
      · rename_i m hst
        exact absurd ⟨m, hst⟩ hsave
      · rfl
    rw [hreturns]
    cases hthrown : eff.thrown s a with
    | some e =>
      rw [peerStep, hthrown]
      rfl
    | none =>
      rw [hquiet hthrown]
      exact attemptStep_hasThrown hval (not_exists.mp hsave) h

theorem peerStep_ended {rd : Readings} {a : Attempt} (h : Ended a) :
    s.peerStep eff rd a = (s, a) := by
  have hn : eff.thrown s a = none := by
    rcases h with h | ⟨e, h⟩ <;> rw [PeerEffects.thrown, h]
  rw [peerStep, hn, attemptStep_ended h]

theorem runPeer_ended {rd : Nat → Readings} {a : Attempt} (n : Nat) (h : Ended a) :
    runPeer eff rd n s a = (s, a) := by
  induction n with
  | zero => rfl
  | succ n ih => rw [runPeer, peerStep_ended h, ih]

theorem ended_of_hasThrown {a : Attempt} (h : a.stage.hasThrown = true) : Ended a := by
  cases hst : a.stage with
  | threw e => exact .inr ⟨e, hst⟩
  | _ =>
    rw [hst] at h
    cases h

/-- A call throws exactly if one of its steps does. -/
theorem runPeer_hasThrown (rd : Nat → Readings) (n : Nat) {a : Attempt}
    (h : a.stage.hasThrown = false) :
    (runPeer eff rd n s a).2.stage.hasThrown = !runReturns eff rd n s a := by
  induction n generalizing s a with
  | zero => exact h
  | succ n ih =>
    have hstep : (s.peerStep eff (rd n) a).2.stage.hasThrown = !stepReturns eff (rd n) s a :=
      peerStep_hasThrown (rd n) h
    rw [runPeer, runReturns]
    cases hreturns : stepReturns eff (rd n) s a with
    | true =>
      rw [hreturns] at hstep
      rw [Bool.true_and]
      exact ih hstep
    | false =>
      rw [hreturns] at hstep
      rw [runPeer_ended n (ended_of_hasThrown hstep), hstep]
      rfl

/-! ## Every call ends -/

theorem peerStep_remaining (rd : Readings) (a : Attempt) :
    (s.peerStep eff rd a).2.stage.remaining ≤ a.stage.remaining - 1 := by
  unfold peerStep
  cases eff.thrown s a with
  | some e => exact Nat.zero_le _
  | none => exact attemptStep_remaining rd s a

theorem runPeer_remaining (rd : Nat → Readings) (n : Nat) (a : Attempt) :
    (runPeer eff rd n s a).2.stage.remaining ≤ a.stage.remaining - n := by
  induction n generalizing s a with
  | zero => exact Nat.le_refl _
  | succ n ih =>
    have hstep : (s.peerStep eff (rd n) a).2.stage.remaining ≤ a.stage.remaining - 1 :=
      peerStep_remaining (rd n) a
    have hrest := ih (s := (s.peerStep eff (rd n) a).1) (s.peerStep eff (rd n) a).2
    rw [runPeer]
    omega

/-- A call of `execute_plan` whose effects may throw ends all the same. -/
theorem executeWithPeers_finishes (rd : Nat → Readings) (plan : FailoverPlan) :
    Ended (s.executeWithPeers eff rd plan).2 := by
  have h : (s.executeWithPeers eff rd plan).2.stage.remaining ≤ 19 - 19 :=
    runPeer_remaining rd 19 { plan := plan, ops := eff.outcomes }
  exact ended_of_remaining (Nat.le_zero.mp h)

end Fabric

/-- How many steps a call of `execute_failback` can still take. -/
def FailbackStage.remaining : FailbackStage → Nat
  | .evaluating => 23
  | .reading => 22
  | .planning _ => 21
  | .cutting a => a.stage.remaining + 1
  | .settling _ => 1
  | .returned _ _ => 0
  | .threw _ _ => 0

namespace Fabric
variable {env : Env} {eff : PeerEffects} {s : Fabric}

theorem remaining_of_ended {f : Failback} (h : FailbackEnded f) : f.stage.remaining = 0 := by
  rcases h with ⟨a, r, h⟩ | ⟨a, e, h⟩ <;> rw [h] <;> rfl

/-- A failback does not go on with an attempt that has ended. -/
def Proceeds (f : Failback) : Prop := ∀ a, f.stage = .cutting a → ¬ Ended a

theorem proceeds_of_ended {f : Failback} (h : FailbackEnded f) : Proceeds f := by
  intro a hst
  rcases h with ⟨b, r, h⟩ | ⟨b, e, h⟩ <;> (rw [hst] at h; cases h)

/-- After a step of its attempt. -/
theorem afterAttempt_remaining {f : Failback} {a : Attempt} {n : Nat} (hn : n ≠ 0)
    (h : a.stage.remaining ≤ n - 1) (hst : f.stage = afterAttempt a) :
    f.stage.remaining ≤ n ∧ Proceeds f := by
  have hlive : Proceeds f := by
    intro b hb
    rw [hst, afterAttempt] at hb
    split at hb
    · cases hb
    · cases hb
    · rename_i hreturned hthrew
      cases hb
      rintro (hr | ⟨e, he⟩)
      · exact hreturned hr
      · exact hthrew e he
  refine ⟨?_, hlive⟩
  rw [hst, afterAttempt]
  split
  · exact Nat.one_le_iff_ne_zero.mpr hn
  · exact Nat.zero_le _
  · rw [FailbackStage.remaining]
    omega

theorem failbackPeerStep_remaining (rd : Readings) {f : Failback} (h : Proceeds f) :
    (s.failbackPeerStep env eff rd f).2.stage.remaining ≤ f.stage.remaining - 1 ∧
      Proceeds (s.failbackPeerStep env eff rd f).2 := by
  have hended : ∀ {f' : Failback} {n : Nat}, FailbackEnded f' →
      f'.stage.remaining ≤ n ∧ Proceeds f' := by
    intro f' n hf'
    rw [remaining_of_ended hf']
    exact ⟨Nat.zero_le _, proceeds_of_ended hf'⟩
  have hsteady : ∀ {f' : Failback}, (∀ a, f'.stage ≠ .cutting a) → Proceeds f' :=
    fun hf' a hst => absurd hst (hf' a)
  unfold failbackPeerStep
  split
  · rename_i a hst
    have hn : a.stage.remaining ≠ 0 := fun hn => h a hst (ended_of_remaining hn)
    rw [hst]
    exact afterAttempt_remaining hn (peerStep_remaining rd a) rfl
  rename_i hcut
  cases failbackStep_effect env rd s f with
  | authorized hst _ _ hafter =>
    rw [hst]
    refine ⟨?_, hsteady fun a => ?_⟩
    · rw [hafter]
      exact Nat.le_refl _
    · rw [hafter]
      exact FailbackStage.noConfusion
  | read hst _ hafter =>
    rw [hst]
    refine ⟨?_, hsteady fun a => ?_⟩
    · rw [hafter]
      exact Nat.le_refl _
    · rw [hafter]
      exact FailbackStage.noConfusion
  | opened hst _ _ hafter =>
    rw [hst]
    refine ⟨?_, fun a ha => ?_⟩
    · rw [hafter]
      exact Nat.le_refl _
    · rw [hafter] at ha
      cases ha
      rintro (hr | ⟨e, he⟩)
      · cases hr
      · cases he
  | refused _ _ _ hafter => exact hended hafter
  | cut hst _ _ => exact absurd hst (hcut _)
  | settled _ _ hafter => exact hended hafter
  | ended hf hsame =>
    rw [hsame]
    exact hended hf

theorem runFailbackPeer_remaining (rd : Nat → Readings) (n : Nat) {f : Failback} (h : Proceeds f) :
    (runFailbackPeer env eff rd n s f).2.stage.remaining ≤ f.stage.remaining - n := by
  induction n generalizing s f with
  | zero => exact Nat.le_refl _
  | succ n ih =>
    obtain ⟨hstep, hlive⟩ : (s.failbackPeerStep env eff (rd n) f).2.stage.remaining ≤
        f.stage.remaining - 1 ∧ Proceeds (s.failbackPeerStep env eff (rd n) f).2 :=
      failbackPeerStep_remaining (rd n) h
    have hrest := ih (s := (s.failbackPeerStep env eff (rd n) f).1) hlive
    rw [runFailbackPeer]
    omega

theorem failbackEnded_of_remaining {f : Failback} (h : f.stage.remaining = 0) :
    FailbackEnded f := by
  cases hst : f.stage with
  | returned a r => exact .inl ⟨a, r, hst⟩
  | threw a e => exact .inr ⟨a, e, hst⟩
  | _ =>
    rw [hst] at h
    cases h

/-- A call of `execute_failback` whose effects may throw ends all the same. -/
theorem failbackWithPeers_finishes (rd : Nat → Readings) (slot : ServiceSlotKey) :
    FailbackEnded (s.failbackWithPeers env eff rd slot).2 := by
  have hnew : Proceeds { slot := slot, ops := eff.outcomes } := fun a hst => by cases hst
  have h : (s.failbackWithPeers env eff rd slot).2.stage.remaining ≤ 23 - 23 :=
    runFailbackPeer_remaining rd 23 hnew
  exact failbackEnded_of_remaining (Nat.le_zero.mp h)

/-! ## Interruption -/

/-- The attempt reports that it was interrupted at a milestone. -/
def Interrupted (r : AttemptResult) : Prop :=
  r.state = .recoveryRequired ∧ ∃ m, r.detail =
    text "cutover interrupted at " ++ text (milestoneName m) ++ text " (checkpointed)"

/-- No other report begins with this letter. -/
theorem Interrupted.head {r : AttemptResult} (h : Interrupted r) : r.detail.head? = some 99 := by
  obtain ⟨-, m, hm⟩ := h
  rw [hm, List.append_assoc]
  rfl

theorem validateAttempt_result (a : Attempt) :
    (s.validateAttempt a).2.result = a.result ∨
      (s.validateAttempt a).2.result.state ≠ .recoveryRequired := by
  unfold validateAttempt
  split
  · exact .inl rfl
  simp only
  split
  · exact .inr nofun
  · exact .inr nofun
  split
  · exact .inr nofun
  split
  · exact .inl rfl
  split
  · exact .inr nofun
  split
  · exact .inl rfl
  · exact .inr nofun

/-- An attempt is interrupted by the barrier alone. -/
theorem attemptStep_interrupted {rd : Readings} {a : Attempt}
    (h : Interrupted (s.attemptStep rd a).2.result) :
    Interrupted a.result ∨ a.stage = .testing s.barrierMilestone := by
  unfold attemptStep at h
  cases hst : a.stage with
  | validating =>
    rw [hst] at h
    rcases validateAttempt_result (s := s) a with hsame | hstate
    · exact .inl (hsame ▸ h)
    · exact absurd h.1 hstate
  | saving m =>
    rw [hst] at h
    simp only [saveCheckpoint] at h
    split at h
    · exact .inl h
    · split at h <;> exact .inl h
  | testing m =>
    rw [hst] at h
    simp only [testBarrier] at h
    split at h
    · rename_i hm
      exact .inr (by rw [hm])
    · exact .inl h
  | fencing =>
    rw [hst] at h
    simp only [fenceStep] at h
    split_ifs at h
    · cases h.1
    · cases h.1
    · cases h.1
  | activating =>
    rw [hst] at h
    simp only [activateStep] at h
    split at h
    · cases h.1
    · cases h.head
  | installing =>
    rw [hst] at h
    simp only [installStep] at h
    split at h
    · cases h.1
    · cases h.head
  | verifying =>
    rw [hst] at h
    simp only [verifyStep] at h
    split_ifs at h
    · cases h.head
    · cases h.1
    · cases h.1
  | _ =>
    rw [hst] at h
    exact .inl h

end Fabric

/-- The milestone of the checkpoint that an attempt is taking. -/
def Stage.checkpoint : Stage → Option Milestone
  | .recording m => some m
  | .saving m => some m
  | .testing m => some m
  | _ => none

/-- An attempt takes no checkpoint once its recovery is verified. -/
theorem Stage.checkpoint_next {st : Stage}
    (h : st.next.checkpoint = some .verificationComplete) :
    st.checkpoint = some .verificationComplete := by
  cases st with
  | recording m => exact h
  | saving m => exact h
  | testing m => cases m <;> cases h
  | _ => cases h

namespace Fabric
variable {env : Env} {eff : PeerEffects} {s : Fabric}

/-- What is kept of an attempt while the barrier is at the last milestone. -/
structure Unbarred (a : Attempt) : Prop where
  notLast : a.stage.checkpoint ≠ some .verificationComplete
  uninterrupted : ¬ Interrupted a.result

theorem unbarred_new (plan : FailoverPlan) (ops : CutoverOps) :
    Unbarred { plan := plan, ops := ops } := ⟨nofun, fun h => by cases h.1⟩

theorem peerStep_unbarred {rd : Readings} {a : Attempt}
    (hs : s.barrierMilestone = .verificationComplete) (h : Unbarred a) :
    Unbarred (s.peerStep eff rd a).2 := by
  unfold peerStep
  cases eff.thrown s a with
  | some e => exact ⟨nofun, h.uninterrupted⟩
  | none =>
    refine ⟨fun hlast => ?_, fun hint => ?_⟩
    · rcases attemptStep_next rd s a with hnext | hr | ⟨e, hr⟩
      · rw [hnext] at hlast
        exact h.notLast (Stage.checkpoint_next hlast)
      · rw [hr] at hlast
        cases hlast
      · rw [hr] at hlast
        cases hlast
    · rcases attemptStep_interrupted hint with hbefore | hst
      · exact h.uninterrupted hbefore
      · exact h.notLast (by rw [hst, hs]; rfl)

theorem runPeer_unbarred {rd : Nat → Readings} (n : Nat) {a : Attempt}
    (hs : s.barrierMilestone = .verificationComplete) (h : Unbarred a) :
    Unbarred (runPeer eff rd n s a).2 := by
  induction n generalizing s a with
  | zero => exact h
  | succ n ih =>
    rw [runPeer]
    exact ih ((peerStep_barrier (rd n) a).trans hs) (peerStep_unbarred hs h)

/-- What is kept of a failback. -/
structure FailbackUnbarred (f : Failback) : Prop where
  attempt : ∀ a, f.stage.attempt = some a → Unbarred a
  uninterrupted : ∀ r, f.stage.result = some r → ¬ Interrupted r

theorem unbarred_refuse (f : Failback) (detail : String) : FailbackUnbarred (f.refuse detail) := by
  refine ⟨fun a ha => (by cases ha), fun r hr hint => ?_⟩
  cases hr
  cases hint.1

theorem unbarred_afterAttempt (f : Failback) {a : Attempt} (h : Unbarred a) :
    FailbackUnbarred { f with stage := afterAttempt a } := by
  have hattempt : (afterAttempt a).attempt = some a ∧ (afterAttempt a).result = none := by
    unfold afterAttempt
    split <;> exact ⟨rfl, rfl⟩
  refine ⟨fun b hb => ?_, fun r hr => ?_⟩
  · cases hattempt.1.symm.trans hb
    exact h
  · cases hattempt.2.symm.trans hr

/-- The call has made no attempt, and has not returned. -/
theorem unbarred_of_none {f : Failback} (hattempt : f.stage.attempt = none)
    (hresult : f.stage.result = none) : FailbackUnbarred f := by
  refine ⟨fun a ha => ?_, fun r hr => ?_⟩
  · cases hattempt.symm.trans ha
  · cases hresult.symm.trans hr

theorem failbackPeerStep_unbarred {rd : Readings} {f : Failback}
    (hs : s.barrierMilestone = .verificationComplete) (h : FailbackUnbarred f) :
    FailbackUnbarred (s.failbackPeerStep env eff rd f).2 := by
  rw [failbackPeerStep]
  cases hst : f.stage with
  | cutting a =>
    have ha := h.attempt a (by rw [hst]; rfl)
    exact unbarred_afterAttempt f (peerStep_unbarred hs ha)
  | evaluating =>
    simp only [failbackStep, hst]
    cases (s.evaluateFailback rd f.slot).authorized with
    | true => exact unbarred_of_none rfl rfl
    | false => exact unbarred_refuse f _
  | reading =>
    simp only [failbackStep, hst]
    cases s.preferred f.slot with
    | some t => exact unbarred_of_none rfl rfl
    | none => exact unbarred_refuse f _
  | planning pref =>
    simp only [failbackStep, hst, planFailback]
    generalize s.planFailoverPref env.rank f.slot (some pref) = r
    obtain ⟨s', _ | _ | plan⟩ := r
    · exact unbarred_of_none rfl rfl
    · exact unbarred_refuse f _
    · refine ⟨fun a ha => ?_, fun r hr => by cases hr⟩
      cases ha
      exact unbarred_new _ _
  | settling a =>
    simp only [failbackStep, hst]
    have ha := h.attempt a (by rw [hst]; rfl)
    refine ⟨fun b hb => ?_, fun r hr => ?_⟩
    · cases hb
      exact ha
    · cases hr
      exact ha.uninterrupted
  | returned a r =>
    simp only [failbackStep, hst]
    exact h
  | threw a e =>
    simp only [failbackStep, hst]
    exact h

theorem runFailbackPeer_unbarred {rd : Nat → Readings} (n : Nat) {f : Failback}
    (hs : s.barrierMilestone = .verificationComplete) (h : FailbackUnbarred f) :
    FailbackUnbarred (runFailbackPeer env eff rd n s f).2 := by
  induction n generalizing s f with
  | zero => exact h
  | succ n ih =>
    rw [runFailbackPeer]
    exact ih ((failbackPeerStep_barrier (rd n) f).trans hs) (failbackPeerStep_unbarred hs h)

/-! ## One message -/

/-- There is a plan, and executing it does not throw. -/
def Executes (eff : PeerEffects) (rd : Nat → Readings)
    (planned : Fabric × Except Error (Option FailoverPlan)) : Prop :=
  ∃ plan, planned.2 = .ok (some plan) ∧
    runReturns eff rd 19 planned.1 { plan := plan, ops := eff.outcomes } = true

/-- A message leaves no barrier behind: if it brings one before the last milestone, there is
a plan, and executing it does not throw. -/
def RestoresBarrier (env : Env) (s : Fabric) : CoordinatorMessage → Prop
  | .executeFailover payload eff rd => ∀ q m, readFailover payload = .ok q → q.barrier = some m →
      m ≠ .verificationComplete →
      Executes eff rd ((s.setCutoverBarrier m).planFailover env.rank (firstSlot q.service))
  | _ => True

theorem executeRequested_barrier (rd : Nat → Readings) (slot : ServiceSlotKey)
    (plan : FailoverPlan) :
    (s.executeRequested eff rd slot plan).fabric.barrierMilestone =
      if runReturns eff rd 19 s { plan := plan, ops := eff.outcomes } then .verificationComplete
      else s.barrierMilestone := by
  have hkept : (s.executeWithPeers eff rd plan).1.barrierMilestone = s.barrierMilestone :=
    runPeer_barrier rd 19 _
  have hthrown : (s.executeWithPeers eff rd plan).2.stage.hasThrown =
      !runReturns eff rd 19 s { plan := plan, ops := eff.outcomes } := runPeer_hasThrown rd 19 rfl
  unfold executeRequested
  generalize s.executeWithPeers eff rd plan = r at hkept hthrown ⊢
  simp only
  split
  · rename_i e hst
    have hno : ¬ runReturns eff rd 19 s { plan := plan, ops := eff.outcomes } = true := by
      intro h
      rw [hst, h] at hthrown
      cases hthrown
    rw [if_neg hno]
    exact hkept
  · rename_i hreturned
    have hno : r.2.stage.hasThrown = false := by
      unfold Stage.hasThrown
      split
      · rename_i e hst
        exact absurd hst (hreturned e)
      · rfl
    rw [hno] at hthrown
    rw [if_pos (by simpa using hthrown)]
    rfl

theorem handleFailover_barrier (rd : Nat → Readings) (q : FailoverMessage) :
    (s.handleFailover env eff rd q).fabric.barrierMilestone = .verificationComplete ↔
      (s.withBarrier q).barrierMilestone = .verificationComplete ∨
        Executes eff rd ((s.withBarrier q).planFailover env.rank (firstSlot q.service)) := by
  have hkept := planFailover_barrier (s := s.withBarrier q) env.rank (firstSlot q.service)
  unfold handleFailover
  generalize (s.withBarrier q).planFailover env.rank (firstSlot q.service) = r at hkept ⊢
  obtain ⟨s', e | _ | plan⟩ := r
  · have hno : ¬ Executes eff rd (s', .error e) := by
      rintro ⟨plan, hplan, -⟩
      cases hplan
    rw [or_iff_left hno]
    simp only
    rw [hkept]
  · have hno : ¬ Executes eff rd (s', .ok none) := by
      rintro ⟨plan, hplan, -⟩
      cases hplan
    rw [or_iff_left hno]
    simp only
    rw [hkept]
  · have hexecutes : Executes eff rd (s', .ok (some plan)) ↔
        runReturns eff rd 19 s' { plan := plan, ops := eff.outcomes } = true := by
      constructor
      · rintro ⟨plan', hplan, hreturns⟩
        cases hplan
        exact hreturns
      · exact fun hreturns => ⟨plan, rfl, hreturns⟩
    simp only
    rw [hexecutes, executeRequested_barrier]
    split
    · rename_i hreturns
      exact iff_of_true rfl (.inr hreturns)
    · rename_i hthrows
      rw [or_iff_left hthrows, hkept]

/-- **One message.**  With no barrier before it, there is none after it exactly if it leaves
none behind. -/
theorem receive_barrier (m : CoordinatorMessage) (hs : s.barrierMilestone = .verificationComplete) :
    (s.receive env m).1.barrierMilestone = .verificationComplete ↔ RestoresBarrier env s m := by
  cases m with
  | executeFailover payload eff rd =>
    show (s.onExecuteFailover env eff rd payload).fabric.barrierMilestone = _ ↔ ∀ q m, _
    unfold onExecuteFailover
    cases hread : readFailover payload with
    | error e => exact iff_of_true hs nofun
    | ok q =>
      simp only
      rw [handleFailover_barrier]
      cases hq : q.barrier with
      | none =>
        rw [withBarrier, hq]
        refine iff_of_true (.inl hs) fun q' m hq' hm => ?_
        cases hq'
        cases hq.symm.trans hm
      | some m =>
        rw [withBarrier, hq]
        constructor
        · rintro (hm | hexecutes) q' m' hq' hm' hne
          · cases hq'
            cases hq.symm.trans hm'
            exact absurd hm hne
          · cases hq'
            cases hq.symm.trans hm'
            exact hexecutes
        · intro h
          by_cases hm : m = .verificationComplete
          · exact .inl hm
          · exact .inr (h q m rfl hq hm)
  | requestFailback payload eff gate rd =>
    exact iff_of_true ((onRequestFailback_barrier gate rd payload).trans hs) trivial
  | authorizeRequest payload =>
    exact iff_of_true ((onAuthorizeRequest_barrier payload).trans hs) trivial
  | authorizeResult payload =>
    exact iff_of_true ((onAuthorizeResult_barrier payload).trans hs) trivial
  | other os =>
    refine iff_of_true ?_ trivial
    rw [receive]
    split
    · rename_i h
      exact (foldl_apply_barrier os h).trans hs
    · exact hs

/-- The handlers report the result of the call. -/
theorem executeRequested_attempt {rd : Nat → Readings} {slot : ServiceSlotKey}
    {plan : FailoverPlan} {r : AttemptResult}
    (h : (s.executeRequested eff rd slot plan).attempt = some r) :
    (s.executeWithPeers eff rd plan).2.result = r := by
  unfold executeRequested at h
  generalize s.executeWithPeers eff rd plan = run at h ⊢
  simp only at h
  split at h
  · cases h
  · exact Option.some.inj h

theorem executeFailbackRequested_attempt {rd : Nat → Readings} {slot : ServiceSlotKey}
    {r : AttemptResult} (h : (s.executeFailbackRequested env eff rd slot).attempt = some r) :
    (s.failbackWithPeers env eff rd slot).2.stage.result = some r := by
  unfold executeFailbackRequested at h
  generalize s.failbackWithPeers env eff rd slot = run at h ⊢
  simp only at h
  split at h
  · cases h
  · exact h

/-- With no barrier before it, a message that brings none is not interrupted. -/
theorem receive_uninterrupted {m : CoordinatorMessage}
    (hs : s.barrierMilestone = .verificationComplete) (hm : m.bringsBarrier = false)
    {r : AttemptResult} (hr : (s.receive env m).2 = some r) : ¬ Interrupted r := by
  cases m with
  | executeFailover payload eff rd =>
    change (s.onExecuteFailover env eff rd payload).attempt = some r at hr
    unfold onExecuteFailover at hr
    rw [CoordinatorMessage.bringsBarrier] at hm
    cases hread : readFailover payload with
    | error e =>
      rw [hread] at hr
      cases hr
    | ok q =>
      rw [hread] at hr hm
      have hnone : q.barrier = none := by
        cases hq : q.barrier with
        | none => rfl
        | some m =>
          rw [Except.toOption, Option.any_some, hq] at hm
          cases hm
      simp only [handleFailover, withBarrier, hnone] at hr
      have hkept := (planFailover_barrier (s := s) env.rank (firstSlot q.service)).trans hs
      generalize s.planFailover env.rank (firstSlot q.service) = planned at hr hkept
      obtain ⟨s', e | _ | plan⟩ := planned
      · cases hr
      · cases hr
      · have hrun : Unbarred (s'.executeWithPeers eff rd plan).2 :=
          runPeer_unbarred 19 hkept (unbarred_new plan _)
        rw [← executeRequested_attempt hr]
        exact hrun.uninterrupted
  | requestFailback payload eff gate rd =>
    change (s.onRequestFailback env eff gate rd payload).attempt = some r at hr
    unfold onRequestFailback at hr
    cases hread : readFailback payload with
    | error e =>
      rw [hread] at hr
      cases hr
    | ok q =>
      rw [hread] at hr
      have hauthorized : (if q.authorize then s.authorizeFailback (firstSlot q.service)
          else s).barrierMilestone = .verificationComplete := by
        split <;> exact hs
      simp only [handleFailback] at hr
      generalize (if q.authorize then s.authorizeFailback (firstSlot q.service) else s) = s'
        at hr hauthorized
      split at hr
      · have hrun : FailbackUnbarred (s'.failbackWithPeers env eff rd (firstSlot q.service)).2 :=
          runFailbackPeer_unbarred 23 hauthorized (unbarred_of_none rfl rfl)
        exact hrun.uninterrupted r (executeFailbackRequested_attempt hr)
      · cases hr
  | _ => cases hr

/-! ## Messages, one after another -/

/-- In the run every message that brings a milestone leaves none behind, and no message
without one is interrupted. -/
def BarrierConfined (env : Env) (s : Fabric) (ms : List CoordinatorMessage) : Prop :=
  ∀ past m, past ++ [m] <+: ms →
    (m.bringsBarrier = true →
      (s.receiveAll env (past ++ [m])).barrierMilestone = .verificationComplete) ∧
    (m.bringsBarrier = false →
      ∀ r, ((s.receiveAll env past).receive env m).2 = some r → ¬ Interrupted r)

/-- A message that brings no milestone leaves none behind. -/
theorem restoresBarrier_of_none {m : CoordinatorMessage} (h : m.bringsBarrier = false) :
    RestoresBarrier env s m := by
  cases m with
  | executeFailover payload eff rd =>
    intro q m hread hq
    rw [CoordinatorMessage.bringsBarrier, hread, Except.toOption, Option.any_some, hq] at h
    cases h
  | _ => trivial

/-- A started coordinator has no barrier. -/
theorem start_barrier {ord : CallOrders} {checkpoint : Text}
    {loaded : Option (Option (List UInt8))} (h : start ord checkpoint loaded = .ok s) :
    s.barrierMilestone = .verificationComplete := by
  unfold start at h
  match loaded with
  | none =>
    cases h
    rfl
  | some none => cases h
  | some (some blob) =>
    simp only at h
    cases hl : load ord (setCheckpointPath {} checkpoint) blob with
    | error e =>
      rw [hl] at h
      cases h
    | ok t =>
      rw [hl] at h
      cases h
      obtain ⟨snap, -, rfl⟩ := load_eq_ok.mp hl
      rfl

/-- **When a barrier is confined to its own failover.**  For every coordinator just started
and every sequence of messages: exactly if, for each message that brings a milestone
before the last, there is a plan and executing it does not throw. -/
theorem barrier_confined_iff (env : Env) {ord : CallOrders} {checkpoint : Text}
    {loaded : Option (Option (List UInt8))} (h : start ord checkpoint loaded = .ok s)
    (ms : List CoordinatorMessage) :
    BarrierConfined env s ms ↔
      ∀ past m, past ++ [m] <+: ms → RestoresBarrier env (s.receiveAll env past) m := by
  have hstep : ∀ past m, (s.receiveAll env past).barrierMilestone = .verificationComplete →
      RestoresBarrier env (s.receiveAll env past) m →
      (s.receiveAll env (past ++ [m])).barrierMilestone = .verificationComplete := by
    intro past m hpast hm
    rw [receiveAll_concat]
    exact (receive_barrier m hpast).mpr hm
  constructor
  · intro hconfined past m hp
    cases hm : m.bringsBarrier with
    | false => exact restoresBarrier_of_none hm
    | true =>
      have hprefix := (List.prefix_append past [m]).trans hp
      have hpast : (s.receiveAll env past).barrierMilestone = .verificationComplete := by
        refine Transition.of_blameless (I := fun past =>
            (s.receiveAll env past).barrierMilestone = .verificationComplete)
          (start_barrier h) (fun past m hpast hconfined => ?_) past
          fun past' m' hp' => (hconfined past' m' (hp'.trans hprefix)).1
        cases hm : m.bringsBarrier with
        | true => exact hconfined hm
        | false => exact hstep past m hpast (restoresBarrier_of_none hm)
      refine (receive_barrier m hpast).mp ?_
      rw [← receiveAll_concat]
      exact (hconfined past m hp).1 hm
  · intro hall past m hp
    have hpast : (s.receiveAll env past).barrierMilestone = .verificationComplete :=
      Transition.of_blameless (I := fun past =>
          (s.receiveAll env past).barrierMilestone = .verificationComplete)
        (start_barrier h) hstep past
        fun past' m' hp' => hall past' m' (hp'.trans ((List.prefix_append past [m]).trans hp))
    exact ⟨fun _ => hstep past m hpast (hall past m hp),
      fun hm r hr => receive_uninterrupted hpast hm hr⟩

/-! ### The reference deployment -/

/-- A coordinator just started. -/
def started : Fabric := ({} : Fabric).setCoordinatorIdentity ⟨1⟩ 1

/-- Peers whose effects all succeed. -/
def agreeingPeers : PeerEffects where
  fenceOld old boot := .ok (Reference.ops.fenceOld old boot)
  activate c auth gen := .ok (Reference.ops.activate c auth gen)
  installRoute entry boot := .ok (Reference.ops.installRoute entry boot)
  verify entry auth := .ok (Reference.ops.verify entry auth)

/-- A request for a failover of the reference service. -/
def referenceRequest (barrier : Option Milestone) : CoordinatorMessage :=
  .executeFailover
    (payloadOf (putU64 Fid.service 1 ::
      (barrier.map fun m => putU8 Fid.state (ByteEnum.toByte m)).toList))
    agreeingPeers fun _ => {}

/-- The registration of the reference service, and the readiness of a second target. -/
def registered : CoordinatorMessage :=
  .other [.createService Reference.service, .setInitialAssignment 0 Reference.initialAssignment]

def secondReady : CoordinatorMessage :=
  .other [.registerTarget ⟨2⟩ [], .publishCandidateFacts 0 (Reference.facts 2 22)]

/-- Where the second target is ready first, the barrier stops its own failover, and the next
one completes. -/
theorem barrier_confined_reference : BarrierConfined Reference.env started
    [registered, secondReady, referenceRequest (some .intentOnly), referenceRequest none] := by
  have hstart : start {} [] none = .ok started := rfl
  refine (barrier_confined_iff Reference.env hstart _).mpr ?_
  have hread : readFailover (payloadOf [putU64 Fid.service 1, putU8 Fid.state 0]) =
      .ok ⟨⟨1⟩, some .intentOnly⟩ := by decide +kernel
  let ready :=
    (started.receiveAll Reference.env [registered, secondReady]).setCutoverBarrier .intentOnly
  have hexecutes : Executes agreeingPeers (fun _ => {})
      (ready.planFailover Reference.env.rank (firstSlot ⟨1⟩)) :=
    ⟨Reference.planOf ready, by decide +kernel, by decide +kernel⟩
  have hfirst : ∀ past m, past ++ [m] <+: [registered, secondReady] →
      RestoresBarrier Reference.env (started.receiveAll Reference.env past) m := by
    refine (Transition.forall_step_append [registered] secondReady).mpr ⟨?_, trivial⟩
    refine (Transition.forall_step_append [] registered).mpr ⟨fun past m hp => ?_, trivial⟩
    exact absurd (List.prefix_nil.mp hp) (by simp)
  refine (Transition.forall_step_append
    [registered, secondReady, referenceRequest (some .intentOnly)] (referenceRequest none)).mpr
    ⟨?_, restoresBarrier_of_none (by decide +kernel)⟩
  refine (Transition.forall_step_append [registered, secondReady]
    (referenceRequest (some .intentOnly))).mpr ⟨hfirst, fun q m hq hm _ => ?_⟩
  cases hread.symm.trans hq
  cases hm
  exact hexecutes

/-- **A barrier left behind**: the failover that brings it finds no eligible replacement,
and the next failover, which brings none, is interrupted. -/
theorem barrier_left_behind :
    (started.receiveAll Reference.env
      [registered, referenceRequest (some .intentOnly)]).barrierMilestone = .intentOnly ∧
    ((started.receiveAll Reference.env
        [registered, referenceRequest (some .intentOnly), secondReady]).receive Reference.env
        (referenceRequest none)).2.map (fun r => (r.state, r.detail)) =
      some (.recoveryRequired, text "cutover interrupted at INTENT_ONLY (checkpointed)") ∧
    ¬ ∀ (env : Env) (ord : CallOrders) (checkpoint : Text) (loaded : Option (Option (List UInt8)))
      (s : Fabric), start ord checkpoint loaded = .ok s → ∀ ms, BarrierConfined env s ms := by
  have hleft : (started.receiveAll Reference.env
      [registered, referenceRequest (some .intentOnly)]).barrierMilestone = .intentOnly := by
    decide +kernel
  refine ⟨hleft, by decide +kernel, fun h => ?_⟩
  have hconfined := h Reference.env {} [] none started rfl
    [registered, referenceRequest (some .intentOnly)] [registered]
    (referenceRequest (some .intentOnly)) (List.prefix_refl _)
  have hback : (started.receiveAll Reference.env
      [registered, referenceRequest (some .intentOnly)]).barrierMilestone = .verificationComplete :=
    hconfined.1 (by decide +kernel)
  cases hleft.symm.trans hback

end Fabric
end FailoverFabric
