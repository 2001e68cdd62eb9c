import FailoverFabric.Fabric.Cutover

/-! # Failback

`evaluate_failback` and `execute_failback`.  A failback is a plan that prefers
the slot's target of record, executed as any other plan, between a gate and a
locked region that settles the attempt budget.
-/
namespace FailoverFabric

structure FailbackDecision where
  authorized : Bool := false
  reason : String := ""
  inCooldown : Bool := false
  attemptsExhausted : Bool := false
  staleReadiness : Bool := false
  policyRefused : Bool := false
  hysteresisNotMet : Bool := false
  remainingCooldownMs : Nat := 0
  remainingHysteresisMs : Nat := 0
  deriving DecidableEq

/-- Where a failback call stands; from its planning on it carries its call of
`execute_plan`. -/
inductive FailbackStage
  | evaluating
  | reading
  | planning (pref : TargetId)
  | cutting (a : Attempt)
  | settling (a : Attempt)
  | returned (a : Option Attempt) (result : AttemptResult)
  | threw (a : Option Attempt) (e : Error)

/-- The attempt a failback has made, if it came that far. -/
def FailbackStage.attempt : FailbackStage → Option Attempt
  | .cutting a => some a
  | .settling a => some a
  | .returned a _ => a
  | .threw a _ => a
  | _ => none

/-- What the call has returned, if it has. -/
def FailbackStage.result : FailbackStage → Option AttemptResult
  | .returned _ r => some r
  | _ => none

/-- One call of `execute_failback`. -/
structure Failback where
  slot : ServiceSlotKey
  ops : CutoverOps
  stage : FailbackStage := .evaluating

namespace Failback

/-- The call ends before an attempt is made. -/
def refuse (f : Failback) (detail : String) : Failback :=
  { f with stage := .returned none { state := .failed, detail := text detail } }

/-- The call returned, and its attempt committed. -/
def completed (f : Failback) : Bool := f.stage.result.any fun r => r.state == .completed

end Failback

namespace Fabric

/-- Whole milliseconds between two readings. -/
def msBetween (t0 t1 : Time) : Int := (t1 - t0).tdiv 1000000

/-- The policy gate: why the policy refuses a failback. -/
def policyRefusal (s : Fabric) (slot : ServiceSlotKey) : FailbackPolicy → Option String
  | .stayOnCurrent => some "failback policy stays on current"
  | .manual =>
    if s.manualFailbackAuthorized slot then none else some "manual failback authorization required"
  | .returnAfterValidation => none

/-- The target's record has fresh facts that say it is ready. -/
def freshlyReady (s : Fabric) (t : TargetId) : Bool :=
  (s.targets.find t).any fun r => r.facts.any fun f => f.ready && f.evidenceFresh

/-- What is left of the cooldown after the last transition, if anything. -/
def cooldownLeft (s : Fabric) (now : Time) (slot : ServiceSlotKey) (afp : AntiFlappingPolicy) :
    Option Nat :=
  (s.lastTransition slot).bind fun t =>
    let elapsed := msBetween t now
    if 0 ≤ elapsed ∧ elapsed < afp.cooldownMs.toNat then
      some (afp.cooldownMs.toNat - elapsed.toNat)
    else none

/-- What is left of the stability window of a target that became ready at `t`. -/
def hysteresisLeft (now t : Time) (afp : AntiFlappingPolicy) : Option Nat :=
  let h := msBetween t now
  if 0 ≤ h ∧ h < afp.hysteresisMs.toNat then some (afp.hysteresisMs.toNat - h.toNat) else none

/-- The hysteresis gate. -/
def hysteresisRefusal (s : Fabric) (now : Time) (pref : TargetId) (afp : AntiFlappingPolicy) :
    Option FailbackDecision :=
  if afp.hysteresisMs = 0 then none
  else
    match s.readySince pref with
    | none =>
      some { hysteresisNotMet := true, reason := "preferred target not stably ready (hysteresis)" }
    | some t =>
      (hysteresisLeft now t afp).map fun left =>
        { hysteresisNotMet := true
          remainingHysteresisMs := left
          reason := "failback in hysteresis window" }

/-- Whether a failback of the slot is authorized.  The clock is read once for the
cooldown and once for the hysteresis. -/
def evaluateFailback (s : Fabric) (rd : Readings) (slot : ServiceSlotKey) : FailbackDecision :=
  match s.serviceForSlot slot with
  | none => { reason := "service not found" }
  | some svc =>
    match s.currentAssignment slot with
    | none => { reason := "no current assignment" }
    | some cur =>
      match s.preferred slot with
      | none => { reason := "no preferred target" }
      | some pref =>
        if cur.target = pref then { reason := "already on preferred target" }
        else
          match s.policyRefusal slot svc.failback with
          | some why => { policyRefused := true, reason := why }
          | none =>
            if s.freshlyReady pref = false then
              { staleReadiness := true, reason := "preferred target readiness stale or unavailable" }
            else
              match s.cooldownLeft rd.now slot svc.antiFlapping with
              | some left =>
                { inCooldown := true, remainingCooldownMs := left, reason := "failback in cooldown" }
              | none =>
                match s.hysteresisRefusal rd.later pref svc.antiFlapping with
                | some d => d
                | none =>
                  if (s.failbackAttempts slot).any fun n => svc.antiFlapping.maxAutoAttempts ≤ n then
                    { attemptsExhausted := true, reason := "failback attempt budget exhausted" }
                  else { authorized := true, reason := "failback authorized" }

/-- Settle the budget: a completed failback resets it, any other outcome of the
attempt consumes one. -/
def settleFailback (s : Fabric) (now : Time) (slot : ServiceSlotKey) (state : AttemptState) :
    Fabric :=
  if state = .completed then
    { s with
      lastTransition := Function.update s.lastTransition slot (some now)
      failbackAttempts := Function.update s.failbackAttempts slot (some 0) }
  else
    { s with
      failbackAttempts :=
        Function.update s.failbackAttempts slot (some ((s.failbackAttempts slot).getD 0 + 1)) }

/-- What a failback does once its attempt has advanced: go on, settle, or pass
its exception on. -/
def afterAttempt (a : Attempt) : FailbackStage :=
  match a.stage with
  | .returned => .settling a
  | .threw e => .threw (some a) e
  | _ => .cutting a

/-- The planning step: plan with the preference, and open the attempt. -/
def planFailback (env : Env) (s : Fabric) (f : Failback) (pref : TargetId) : Fabric × Failback :=
  match s.planFailoverPref env.rank f.slot (some pref) with
  | (s', .error e) => (s', { f with stage := .threw none e })
  | (s', .ok none) => (s', f.refuse "no eligible preferred target for failback")
  | (s', .ok (some plan)) => (s', { f with stage := .cutting { plan := plan, ops := f.ops } })

/-- One step of a call of `execute_failback`. -/
def failbackStep (env : Env) (rd : Readings) (s : Fabric) (f : Failback) : Fabric × Failback :=
  match f.stage with
  | .evaluating =>
    let d := s.evaluateFailback rd f.slot
    if d.authorized then (s, { f with stage := .reading })
    else (s, f.refuse ("failback not authorized: " ++ d.reason))
  | .reading =>
    match s.preferred f.slot with
    | some t => (s, { f with stage := .planning t })
    | none => (s, f.refuse "no preferred target")
  | .planning pref => s.planFailback env f pref
  | .cutting a =>
    let r := s.attemptStep rd a
    (r.1, { f with stage := afterAttempt r.2 })
  | .settling a =>
    (s.settleFailback rd.now f.slot a.result.state, { f with stage := .returned (some a) a.result })
  | .returned _ _ => (s, f)
  | .threw _ _ => (s, f)

/-- Run a failback for `n` steps, the readings of each step given by how many
remain. -/
def runFailback (env : Env) (rd : Nat → Readings) : Nat → Fabric → Failback → Fabric × Failback
  | 0, s, f => (s, f)
  | n + 1, s, f =>
    let r := s.failbackStep env (rd n) f
    runFailback env rd n r.1 r.2

/-- `execute_failback`, run to its end without interruption. -/
def executeFailback (env : Env) (rd : Nat → Readings) (s : Fabric) (slot : ServiceSlotKey)
    (ops : CutoverOps) : Fabric × Failback :=
  runFailback env rd 23 s { slot := slot, ops := ops }

end Fabric

end FailoverFabric
