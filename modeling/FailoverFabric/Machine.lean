import FailoverFabric.Fabric.Failback
import FailoverFabric.Library.Reachability

/-! # The whole system

A fabric and the calls in progress on it.  Operations that hold the lock once
are single steps; calls of `execute_plan` and `execute_failback` advance step by
step, in any interleaving.  `load` may bring in any file; `restart` is the
orderly restart: a fresh fabric loads what `save` wrote, and the calls of the
old process are gone.
-/
namespace FailoverFabric

/-- A call in progress, or ended. -/
inductive Call
  | plan (a : Attempt)
  | failback (f : Failback)

namespace Call

/-- The attempt that a call makes or has made. -/
def attempt : Call → Option Attempt
  | plan a => some a
  | failback f => f.stage.attempt

end Call

structure SystemState where
  fabric : Fabric
  calls : List Call := []

/-- The operations that are one step each. -/
inductive Op
  | setCoordinatorIdentity (id : CoordinatorId) (epoch : UInt64)
  | setGatewayBoot (boot : GatewayBootId)
  | createService (d : ServiceDefinition)
  | setInitialAssignment (now : Time) (a : Assignment)
  | declareDomain (d : DomainDecl)
  | setMembership (m : DomainMembership)
  | registerTarget (id : TargetId) (transport : Text)
  | publishCandidateFacts (now : Time) (f : CandidateFacts)
  | publishCandidateState (t : TargetId) (st : CandidateState)
  | publishCandidateResources (t : TargetId) (rs : List CandidateResource)
  | publishFailure (ev : FailureEvent)
  | clearFailure (id : FailureEventId)
  | snapshot (slot : ServiceSlotKey)
  | select (slot : ServiceSlotKey)
  | planFailover (slot : ServiceSlotKey)
  | authorizeFailback (slot : ServiceSlotKey)
  | setCheckpointPath (path : Text)
  | setCutoverBarrier (m : Milestone)
  | clearCutoverBarrier
  | recordRequest (r : RequestRecord)
  | classifyLateResult (id : RequestId) (auth : WorkerAuthorization)
  | markOutcomeUnknown (id : RequestId)
  | recordDispatch
  | installRoute (entry : RouteEntry) (boot : GatewayBootId)
  | bindRouteGateway (slot : ServiceSlotKey) (boot : GatewayBootId)
  | markRoutesRevalidation
  | load (blob : List UInt8)

/-- What may happen next. -/
inductive Label
  | op (o : Op)
  | beginPlan (plan : FailoverPlan) (ops : CutoverOps)
  | beginFailback (slot : ServiceSlotKey) (ops : CutoverOps)
  | advance (i : Nat) (rd : Readings)
  | restart (cfg : RuntimeConfig)

namespace Fabric

/-- The state after an operation that may have thrown before changing anything. -/
def orSelf (s : Fabric) : Except Error Fabric → Fabric
  | .ok s' => s'
  | .error _ => s

def apply (env : Env) (s : Fabric) : Op → Fabric
  | .setCoordinatorIdentity id epoch => s.setCoordinatorIdentity id epoch
  | .setGatewayBoot boot => s.setGatewayBoot boot
  | .createService d => s.orSelf (s.createService d)
  | .setInitialAssignment now a => s.orSelf (s.setInitialAssignment now a)
  | .declareDomain d => s.declareDomain d
  | .setMembership m => s.setMembership m
  | .registerTarget id transport => s.orSelf (s.registerTarget id transport)
  | .publishCandidateFacts now f => s.orSelf (s.publishCandidateFacts now f)
  | .publishCandidateState t st => s.orSelf (s.publishCandidateState t st)
  | .publishCandidateResources t rs => s.orSelf (s.publishCandidateResources t rs)
  | .publishFailure ev => s.publishFailure ev
  | .clearFailure id => s.clearFailure id
  | .snapshot slot => s.orSelf ((s.snapshotLocked slot).map (·.1))
  | .select slot => (s.select env.rank slot).1
  | .planFailover slot => (s.planFailover env.rank slot).1
  | .authorizeFailback slot => s.authorizeFailback slot
  | .setCheckpointPath path => s.setCheckpointPath path
  | .setCutoverBarrier m => s.setCutoverBarrier m
  | .clearCutoverBarrier => s.clearCutoverBarrier
  | .recordRequest r => s.recordRequest r
  | .classifyLateResult id auth => (s.classifyLateResult id auth).1
  | .markOutcomeUnknown id => s.markOutcomeUnknown id
  | .recordDispatch => s.recordDispatch
  | .installRoute entry boot => (s.installRoute entry boot).1
  | .bindRouteGateway slot boot => (s.bindRouteGateway slot boot).1
  | .markRoutesRevalidation => s.markRoutesRevalidation
  | .load blob => s.orSelf (s.load env.ord blob)

/-- One step of a call. -/
def callStep (env : Env) (rd : Readings) (s : Fabric) : Call → Fabric × Call
  | .plan a => let r := s.attemptStep rd a; (r.1, .plan r.2)
  | .failback f => let r := s.failbackStep env rd f; (r.1, .failback r.2)

end Fabric

namespace SystemState

def step (env : Env) (σ : SystemState) : Label → SystemState
  | .op o => { σ with fabric := σ.fabric.apply env o }
  | .beginPlan plan ops => { σ with calls := σ.calls ++ [.plan { plan := plan, ops := ops }] }
  | .beginFailback slot ops => { σ with calls := σ.calls ++ [.failback { slot := slot, ops := ops }] }
  | .advance i rd =>
    match σ.calls[i]? with
    | none => σ
    | some c =>
      let r := σ.fabric.callStep env rd c
      { fabric := r.1, calls := σ.calls.set i r.2 }
  | .restart cfg =>
    match Fabric.restart env.ord cfg σ.fabric with
    | .ok s => { fabric := s }
    | .error _ => σ

/-- A new process: a fabric just constructed, and no calls. -/
def Initial (σ : SystemState) : Prop := ∃ cfg, σ = { fabric := { cfg := cfg } }

end SystemState

/-- The system of all runs. -/
def machine (env : Env) : Transition.System SystemState Label where
  initial := SystemState.Initial
  step := SystemState.step env

/-- The state of a new process after some steps. -/
def SystemState.after (env : Env) (cfg : RuntimeConfig) (ls : List Label) : SystemState :=
  (machine env).run { fabric := { cfg := cfg } } ls

theorem SystemState.after_concat (env : Env) (cfg : RuntimeConfig) (past : List Label) (l : Label) :
    after env cfg (past ++ [l]) = (after env cfg past).step env l :=
  Transition.System.run_concat (machine env) _ past l

theorem SystemState.after_reachable (env : Env) (cfg : RuntimeConfig) (ls : List Label) :
    Transition.Reachable (machine env) (fun _ _ => True) (after env cfg ls) :=
  Transition.Reachable.run_all ls (.initial ⟨cfg, rfl⟩)

/-! ## A reference deployment

One service with one slot, its initial assignment on target 1, and a ready
candidate on target 2, with effects that all succeed: the in-process deployment
of the tests. -/

namespace Reference

def slot : ServiceSlotKey := ⟨⟨1⟩, ⟨1⟩⟩

def service : ServiceDefinition := { service := ⟨1⟩ }

def initialAssignment : Assignment :=
  { id := ⟨1⟩, slot := slot, target := ⟨1⟩, workerBoot := ⟨11⟩ }

def facts (target boot : UInt64) : CandidateFacts :=
  { target := ⟨target⟩, workerBoot := ⟨boot⟩, ready := true }

def env : Env where
  rank _ _ := 0

def ops : CutoverOps where
  fenceOld _ _ := { applied := true, state := .enforced }
  activate _ _ _ := { acknowledged := true }
  installRoute e _ := { acknowledged := true, route := e.route, generation := e.generation }
  verify _ _ := { verified := true }

/-- The operations that set the deployment up. -/
def setup : List Op :=
  [.createService service, .setInitialAssignment 0 initialAssignment, .registerTarget ⟨2⟩ [],
    .publishCandidateFacts 0 (facts 2 22)]

/-- The fabric after some operations. -/
def after (os : List Op) : Fabric := os.foldl (Fabric.apply env) {}

/-- The plan a fabric makes for the slot. -/
def planOf (s : Fabric) : FailoverPlan :=
  match (s.planFailover env.rank slot).2 with
  | .ok (some p) => p
  | _ => {}

/-- The authorization that names an assignment. -/
def authFor (s : Fabric) (a : Assignment) : WorkerAuthorization :=
  { epoch := s.epoch
    slot := a.slot
    assignment := a.id
    assignmentGeneration := a.generation
    routeGeneration := a.routeGeneration
    workerBoot := a.workerBoot }

/-- The reference deployment, set up. -/
def deployed : SystemState := (machine env).run { fabric := {} } (setup.map .op)

/-- A cutover of it that the barrier stops once its intent is recorded. -/
def stoppedAtIntent : List Label :=
  [.op (.setCutoverBarrier .intentOnly), .beginPlan (planOf deployed.fabric) ops] ++
    List.replicate 4 (.advance 0 {})

end Reference

end FailoverFabric
