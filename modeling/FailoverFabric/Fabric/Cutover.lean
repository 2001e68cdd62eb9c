import FailoverFabric.Fabric.Planning
import FailoverFabric.Fabric.Restart

/-! # The cutover transaction

`FailoverFabric::execute_plan` as a thread that advances one step at a time.  A
step is a locked region, a checkpoint, an unlocked read, or an external effect
with the locked region that records its outcome: other threads may run between
any two steps.  `executePlan` runs one attempt to its end without interruption.

The external effects are the functions of a `CutoverOps`.  Each is called at
most once in an attempt, so a function's value is whatever that call returned.
-/
namespace FailoverFabric
open Persistence

structure FenceOutcome where
  applied : Bool := false
  detail : Text := []
  state : FenceState := .none
  fencingUnproven : Bool := false
  deriving DecidableEq

structure ActivateOutcome where
  acknowledged : Bool := false
  activationNote : Text := []
  detail : Text := []
  deriving DecidableEq

structure RouteOutcome where
  acknowledged : Bool := false
  route : RouteId := .null
  generation : RouteGeneration := {}
  detail : Text := []
  deriving DecidableEq

structure VerifyOutcome where
  verified : Bool := false
  result : Text := []
  ambiguous : Bool := false
  detail : Text := []
  deriving DecidableEq

/-- The external effects of a cutover. -/
structure CutoverOps where
  fenceOld : Assignment → WorkerBootId → FenceOutcome
  activate : Candidate → WorkerAuthorization → ServiceAuthorityGeneration → ActivateOutcome
  installRoute : RouteEntry → GatewayBootId → RouteOutcome
  verify : RouteEntry → WorkerAuthorization → VerifyOutcome

structure AttemptResult where
  attempt : FailoverAttemptId := .null
  generation : FailoverAttemptGeneration := {}
  state : AttemptState := .requested
  reached : Milestone := .intentOnly
  committedAssignment : Option Assignment := none
  detail : Text := []
  elapsedMs : UInt64 := 0
  recoveryVerified : Bool := false
  deriving DecidableEq

/-- What a step may read from outside: the clock, twice, and whether writing a
file failed. -/
structure Readings where
  now : Time := 0
  later : Time := 0
  disk : Option Error := none

/-- What is chosen outside the program: the score of a candidate, and the order
in which the compiler evaluates arguments. -/
structure Env where
  rank : Candidate → ServiceDefinition → UInt64
  ord : CallOrders := {}

/-- Where an attempt stands. -/
inductive Stage
  | validating
  | recording (m : Milestone)
  | saving (m : Milestone)
  | testing (m : Milestone)
  | fencing
  | authorizing
  | activating
  | composing
  | installing
  | verifying
  | returned
  | threw (e : Error)
  deriving DecidableEq

/-- One call of `execute_plan`, with its local variables and what it wrote to
the checkpoint path. -/
structure Attempt where
  plan : FailoverPlan
  ops : CutoverOps
  stage : Stage := .validating
  oldAssign : Option Assignment := none
  newAssign : Assignment := {}
  selected : Candidate := {}
  auth : WorkerAuthorization := {}
  route : RouteEntry := {}
  result : AttemptResult := {}
  t0 : Time := 0
  written : List (Text × List UInt8) := []

namespace Attempt

def slot (a : Attempt) : ServiceSlotKey := a.plan.slot

def finish (a : Attempt) (state : AttemptState) (detail : Text) : Attempt :=
  { a with
    stage := .returned
    result := { a.result with state := state, detail := detail } }

def fail (a : Attempt) (e : Error) : Attempt := { a with stage := .threw e }

/-- The call returned, and committed. -/
def Completed (a : Attempt) : Prop := a.stage = .returned ∧ a.result.state = .completed

instance (a : Attempt) : Decidable a.Completed := inferInstanceAs (Decidable (_ ∧ _))

end Attempt

namespace Fabric

def logAttempt (s : Fabric) (st : AttemptState) : Fabric :=
  { s with attemptStates := s.attemptStates ++ [st] }

/-! ## Validation -/

/-- The plan's source assignment is no longer the current one. -/
def sourceChanged (plan : FailoverPlan) (old : Option Assignment) : Bool :=
  match plan.sourceAssignment, old with
  | none, _ => false
  | some _, none => true
  | some src, some o => o.id != src.id || o.generation != src.generation

/-- The planned candidate in a fresh snapshot, if it is still eligible. -/
def revalidate (s : Fabric) (slot : ServiceSlotKey) (svc : ServiceDefinition)
    (snap : CandidateSnapshot) (wanted : Candidate) : Option Candidate :=
  (snap.candidates.find? fun c =>
      c.facts.target == wanted.facts.target && c.facts.workerBoot == wanted.facts.workerBoot).filter
    fun c => (SelectionEngine.hardEligible c svc s.domains (s.buildContext slot)).1

/-- The replacement assignment, with a fresh id and the next authority
generation; provisory until it is committed. -/
def composeAssignment (s : Fabric) (id : AssignmentId) (plan : FailoverPlan) (c : Candidate) :
    Except Error Assignment := do
  let generation ← s.assignmentGenCounter.next
  let authorityGeneration ← s.lastAuthorityGen.next
  let activationGeneration ← s.activationGenCounter.next
  return {
    id := id
    generation := generation
    slot := plan.slot
    target := c.facts.target
    targetGeneration := c.facts.targetGeneration
    replica := c.facts.replica
    replicaGeneration := c.facts.replicaGeneration
    engine := c.facts.engine
    engineIncarnation := c.facts.engineIncarnation
    readinessProfile := c.facts.profile
    authorityGeneration := authorityGeneration
    activation := s.activationCounter.next
    activationGeneration := activationGeneration
    route := plan.requestedRoute
    routeGeneration := plan.requestedRouteGeneration
    workerBoot := c.facts.workerBoot
    state := .authorized
    provisory := true
    resourceClaims :=
      if c.resources.any fun r => r.resourceClass == text "cuda_device" then [.minId] else [] }

/-- `next_assignment_id` and the assignment; the id is spent even when a
generation is exhausted. -/
def issueAssignment (s : Fabric) (plan : FailoverPlan) (c : Candidate) :
    Fabric × Except Error Assignment :=
  ({ s with assignmentCounter := s.assignmentCounter.next },
    s.composeAssignment s.assignmentCounter plan c)

/-- The call is refused at validation. -/
def reject (s : Fabric) (a : Attempt) (result : AttemptResult) (reason : String) :
    Fabric × Attempt :=
  (s.logAttempt .failed, { a with result := result }.finish .failed (text reason))

/-- The first locked region: validate the plan against the present state. -/
def validateAttempt (s : Fabric) (a : Attempt) : Fabric × Attempt :=
  match s.attemptGenCounter.next with
  | .error e => (s, a.fail e)
  | .ok generation =>
    let result : AttemptResult := { attempt := s.attemptCounter.next, generation := generation }
    match s.serviceForSlot a.slot, a.plan.selected with
    | none, _ => s.reject a result "service not registered"
    | some _, none => s.reject a result "plan has no selected candidate"
    | some svc, some wanted =>
      let old := s.currentAssignment a.slot
      -- a plan without a source assignment is never stale
      if sourceChanged a.plan old then
        s.reject a result "source assignment changed since planning"
      else
        match s.snapshotLocked a.slot with
        | .error e => (s, a.fail e)
        | .ok (s', snap) =>
          match s'.revalidate a.slot svc snap wanted with
          | none => s'.reject a result "selected candidate failed fresh revalidation"
          | some selected =>
            match s'.issueAssignment a.plan selected with
            | (s'', .error e) => (s'', a.fail e)
            | (s'', .ok new) =>
              (s''.logAttempt .evaluating,
                { a with
                  stage := .recording .intentOnly
                  oldAssign := old
                  newAssign := new
                  selected := selected
                  result := result })

/-! ## Checkpoints -/

/-- The locked part of `checkpoint`: record the reached milestone and the pending
transaction. -/
def recordTxn (s : Fabric) (m : Milestone) (a : Attempt) : Fabric :=
  { s with
    hasTxn := true
    txnMilestone := m
    pendingAssignment := some a.newAssign
    sourceAssignment := a.oldAssign
    pendingRoute := if m = .routeInstalled then some a.route else none }

/-- The checkpoint's save, when a path is set. -/
def saveCheckpoint (s : Fabric) (rd : Readings) (m : Milestone) (a : Attempt) : Attempt :=
  if s.checkpointPath.isEmpty then { a with stage := .testing m }
  else
    match s.save, rd.disk with
    | .error e, _ => a.fail e
    | .ok _, some e => a.fail e
    | .ok blob, none =>
      { a with
        stage := .testing m
        written := a.written ++ [(s.checkpointPath, blob)] }

def milestoneName : Milestone → String
  | .intentOnly => "INTENT_ONLY"
  | .oldAdmissionFenced => "OLD_ADMISSION_FENCED"
  | .replacementAuthorized => "REPLACEMENT_AUTHORIZED"
  | .activationAcknowledged => "ACTIVATION_ACKNOWLEDGED"
  | .routeInstalled => "ROUTE_INSTALLED"
  | .verificationComplete => "VERIFICATION_COMPLETE"

/-- What follows a checkpoint that is not the barrier. -/
def afterCheckpoint : Milestone → Stage
  | .intentOnly => .fencing
  | .oldAdmissionFenced => .authorizing
  -- no checkpoint is taken at `replacementAuthorized`
  | .activationAcknowledged => .composing
  | _ => .verifying

/-- The checkpoint's last read: stop here if this milestone is the barrier. -/
def testBarrier (s : Fabric) (m : Milestone) (a : Attempt) : Attempt :=
  if s.barrierMilestone = m then
    a.finish .recoveryRequired
      (text "cutover interrupted at " ++ text (milestoneName m) ++ text " (checkpointed)")
  else { a with stage := afterCheckpoint m }

/-! ## Effects and their locked regions -/

/-- What `fence_old` reports, or that there is nothing to fence. -/
def fenceOutcome (a : Attempt) : FenceOutcome :=
  match a.oldAssign with
  | some old => a.ops.fenceOld old a.selected.facts.workerBoot
  | none => { applied := true, detail := text "no old assignment to fence" }

def fenceOldBoot (s : Fabric) (a : Attempt) : Fabric :=
  match a.oldAssign with
  | some old => s.addFencedBoot old.workerBoot
  | none => s

def fenceStep (s : Fabric) (rd : Readings) (a : Attempt) : Fabric × Attempt :=
  let a := { a with t0 := rd.now }
  if (fenceOutcome a).fencingUnproven then
    (s.logAttempt .failed,
      a.finish .failed (text "FENCING_UNPROVEN: cannot enforce fencing at a mandated boundary"))
  else if (fenceOutcome a).applied = false then
    (s.logAttempt .failed, a.finish .failed (text "fence not applied: " ++ (fenceOutcome a).detail))
  else
    (s.fenceOldBoot a,
      { a with
        stage := .recording .oldAdmissionFenced
        result := { a.result with reached := .oldAdmissionFenced, state := .fencing } })

/-- `make_auth`: it reads the epoch without the lock. -/
def authorizeStep (s : Fabric) (a : Attempt) : Attempt :=
  { a with
    stage := .activating
    auth :=
      { epoch := s.epoch
        slot := a.newAssign.slot
        assignment := a.newAssign.id
        assignmentGeneration := a.newAssign.generation
        routeGeneration := a.newAssign.routeGeneration
        incarnation := a.selected.facts.engineIncarnation
        request := ⟨1⟩
        execution := ⟨1⟩
        operation := text "serve"
        workerBoot := a.selected.facts.workerBoot } }

def activateStep (s : Fabric) (a : Attempt) : Fabric × Attempt :=
  let outcome := a.ops.activate a.selected a.auth a.newAssign.authorityGeneration
  if outcome.acknowledged then
    (s, { a with
      stage := .recording .activationAcknowledged
      result := { a.result with reached := .activationAcknowledged, state := .cuttingOver } })
  else
    (s.logAttempt .recoveryRequired,
      a.finish .recoveryRequired (text "activation not acknowledged: " ++ outcome.detail))

/-- The route entry: it reads the epoch and the gateway boot without the lock. -/
def composeRoute (s : Fabric) (a : Attempt) : Attempt :=
  { a with
    stage := .installing
    route :=
      { route := a.newAssign.route
        generation := a.newAssign.routeGeneration
        slot := a.slot
        target := a.newAssign.target
        targetGeneration := a.newAssign.targetGeneration
        incarnation := a.selected.facts.engineIncarnation
        permittedBoot := a.selected.facts.workerBoot
        assignment := a.newAssign.id
        assignmentGeneration := a.newAssign.generation
        epoch := s.epoch
        gatewayBoot := s.gatewayBoot
        state := .acknowledged
        transport := text "pipes/" ++ decimal a.selected.facts.target.value.toNat } }

def installStep (s : Fabric) (a : Attempt) : Fabric × Attempt :=
  let outcome := a.ops.installRoute a.route s.gatewayBoot
  if outcome.acknowledged then
    ({ s with routes := (s.routes.install a.route).1 },
      { a with
        stage := .recording .routeInstalled
        result := { a.result with reached := .routeInstalled, state := .verifying } })
  else
    (s.logAttempt .recoveryRequired,
      a.finish .recoveryRequired (text "route not acknowledged: " ++ outcome.detail))

/-! ## Verification and commit -/

/-- A newer attempt has replaced the assignment this one set out to replace. -/
def superseded (s : Fabric) (a : Attempt) : Bool :=
  match a.oldAssign, s.currentAssignment a.slot with
  -- an attempt without an old assignment is never superseded
  | some old, some cur => !(cur.id == old.id && cur.generation == old.generation)
  | _, _ => false

/-- The committed assignment of an attempt. -/
def committed (a : Attempt) : Assignment := { a.newAssign with state := .active, provisory := false }

/-- The slot record after a commit: the displaced assignment goes, fenced, to the
history. -/
def commitRecord (old : Option Assignment) (new : Assignment) (st : SlotState) : SlotState :=
  let displaced := st.current.orElse fun _ => old
  { st with
    current := some new
    history := st.history ++ (displaced.map fun d => { d with state := .fenced }).toList }

/-- The slots after a commit.  A slot without a record gets one, which the index
does not know. -/
def commitSlots (s : Fabric) (a : Attempt) : IndexedVec ServiceSlotKey SlotState :=
  match s.findSlot a.slot with
  | some _ => s.slots.modify a.slot (commitRecord a.oldAssign (committed a))
  | none => s.slots.pushUnindexed (commitRecord a.oldAssign (committed a) { slot := a.slot })

def commit (s : Fabric) (now : Time) (a : Attempt) : Fabric :=
  { s.fenceOldBoot a with
    slots := s.commitSlots a
    -- nothing is saved here: the last file is that of the last checkpoint
    lastAuthorityGen := a.newAssign.authorityGeneration
    lastTransition := Function.update s.lastTransition a.slot (some now)
    hasTxn := false
    attemptStates := s.attemptStates ++ [.completed] }

/-- `duration_cast<milliseconds>` of a difference of clock readings. -/
def elapsedMs (t0 t1 : Time) : UInt64 := UInt64.ofInt ((t1 - t0).tdiv 1000000)

def verifyStep (s : Fabric) (rd : Readings) (a : Attempt) : Fabric × Attempt :=
  let outcome := a.ops.verify a.route a.auth
  if outcome.verified = false then
    (s.logAttempt .recoveryRequired,
      a.finish .recoveryRequired (text "verification failed: " ++ outcome.detail))
  else if s.superseded a then
    (s.logAttempt .superseded,
      a.finish .superseded (text "attempt superseded by a newer promotion"))
  else
    (s.commit rd.now a,
      { a with
        stage := .returned
        newAssign := committed a
        result :=
          { a.result with
            reached := .verificationComplete
            state := .completed
            recoveryVerified := true
            committedAssignment := some (committed a)
            elapsedMs := elapsedMs a.t0 rd.later } })

/-! ## The thread -/

/-- One step of a call of `execute_plan`. -/
def attemptStep (rd : Readings) (s : Fabric) (a : Attempt) : Fabric × Attempt :=
  match a.stage with
  | .validating => s.validateAttempt a
  | .recording m => (s.recordTxn m a, { a with stage := .saving m })
  | .saving m => (s, s.saveCheckpoint rd m a)
  | .testing m => (s, s.testBarrier m a)
  | .fencing => s.fenceStep rd a
  | .authorizing => (s, s.authorizeStep a)
  | .activating => s.activateStep a
  | .composing => (s, s.composeRoute a)
  | .installing => s.installStep a
  | .verifying => s.verifyStep rd a
  | .returned => (s, a)
  | .threw _ => (s, a)

/-- Run an attempt for `n` steps, the readings of each step given by how many
remain. -/
def runAttempt (rd : Nat → Readings) : Nat → Fabric → Attempt → Fabric × Attempt
  | 0, s, a => (s, a)
  | n + 1, s, a =>
    let r := s.attemptStep (rd n) a
    runAttempt rd n r.1 r.2

/-- `execute_plan`, run to its end without interruption. -/
def executePlan (rd : Nat → Readings) (s : Fabric) (plan : FailoverPlan) (ops : CutoverOps) :
    Fabric × Attempt :=
  runAttempt rd 19 s { plan := plan, ops := ops }

end Fabric

end FailoverFabric
