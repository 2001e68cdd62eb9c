import FailoverFabric.Atomicity
import FailoverFabric.Serving
import FailoverFabric.Continuity

/-! # Whole failbacks

A call of `execute_failback` that is not interrupted evaluates, plans with the slot's
preferred target, executes the plan, and settles the budget (`executeFailback_cases`).

The plan prefers the preferred target and does not insist on it.  A failback that
completes has gone home exactly if some candidate on the preferred target passed the
selection (`failback_home_iff`).
-/
namespace FailoverFabric
open Fabric

namespace Fabric
variable {env : Env} {s : Fabric} {slot : ServiceSlotKey} {ops : CutoverOps}

/-! ## One call -/

/-- What an authorized failback has passed. -/
structure Authorizes (s : Fabric) (rd : Readings) (slot : ServiceSlotKey) (svc : ServiceDefinition)
    (pref : TargetId) : Prop where
  service : s.serviceForSlot slot = some svc
  current : (s.currentAssignment slot).isSome
  preferred : s.preferred slot = some pref
  policy : s.policyRefusal slot svc.failback = none
  cooldown : s.cooldownLeft rd.now slot svc.antiFlapping = none
  budget : ∀ n, s.failbackAttempts slot = some n → n < svc.antiFlapping.maxAutoAttempts

theorem hysteresisRefusal_refuses {now : Time} {pref : TargetId} {afp : AntiFlappingPolicy}
    {d : FailbackDecision} (h : s.hysteresisRefusal now pref afp = some d) :
    d.authorized = false ∧ d.hysteresisNotMet = true := by
  unfold hysteresisRefusal at h
  split at h
  · cases h
  split at h
  · cases h
    exact ⟨rfl, rfl⟩
  · obtain ⟨left, -, rfl⟩ := Option.map_eq_some_iff.mp h
    exact ⟨rfl, rfl⟩

/-- **Evaluation, inverted.** -/
theorem evaluateFailback_authorized {rd : Readings}
    (h : (s.evaluateFailback rd slot).authorized = true) :
    ∃ svc pref, Authorizes s rd slot svc pref := by
  unfold evaluateFailback at h
  split at h
  · cases h
  rename_i svc hsvc
  split at h
  · cases h
  rename_i cur hcur
  split at h
  · cases h
  rename_i pref hpref
  split at h
  · cases h
  split at h
  · cases h
  rename_i hpolicy
  split at h
  · cases h
  split at h
  · cases h
  rename_i hcooldown
  split at h
  · rename_i d hd
    rw [(hysteresisRefusal_refuses hd).1] at h
    cases h
  split at h
  · cases h
  rename_i hbudget
  refine ⟨svc, pref, hsvc, by rw [hcur]; rfl, hpref, hpolicy, hcooldown, fun n hn => ?_⟩
  rw [hn] at hbudget
  simpa using hbudget

/-- The call has returned or thrown. -/
def FailbackEnded (f : Failback) : Prop :=
  (∃ a r, f.stage = .returned a r) ∨ ∃ a e, f.stage = .threw a e

theorem failbackStep_ended {rd : Readings} {f : Failback} (h : FailbackEnded f) :
    s.failbackStep env rd f = (s, f) := by
  unfold failbackStep
  rcases h with ⟨a, r, hst⟩ | ⟨a, e, hst⟩ <;> rw [hst]

/-- A call that has ended stays as it is. -/
theorem runFailback_ended {rd : Nat → Readings} {f : Failback} (n : Nat) (h : FailbackEnded f) :
    runFailback env rd n s f = (s, f) := by
  induction n with
  | zero => rfl
  | succ n ih =>
    rw [runFailback, failbackStep_ended h]
    exact ih

/-- The call's next step invokes `fence_old`. -/
def invokesFence (f : Failback) : Bool :=
  match f.stage with
  | .cutting a => a.stage == .fencing && a.oldAssign.isSome
  | _ => false

/-- Some step of the run invokes `fence_old`. -/
def runFences (env : Env) (rd : Nat → Readings) : Nat → Fabric → Failback → Bool
  | 0, _, _ => false
  | n + 1, s, f =>
    let r := s.failbackStep env (rd n) f
    invokesFence f || runFences env rd n r.1 r.2

/-- The call of `execute_failback` invokes `fence_old`. -/
def failbackFences (env : Env) (rd : Nat → Readings) (s : Fabric) (slot : ServiceSlotKey)
    (ops : CutoverOps) : Bool :=
  runFences env rd 23 s { slot := slot, ops := ops }

theorem runFences_ended {rd : Nat → Readings} {f : Failback} (n : Nat) (h : FailbackEnded f) :
    runFences env rd n s f = false := by
  induction n with
  | zero => rfl
  | succ n ih =>
    have hno : invokesFence f = false := by
      unfold invokesFence
      rcases h with ⟨a, r, hst⟩ | ⟨a, e, hst⟩ <;> rw [hst]
    rw [runFences, failbackStep_ended h, hno]
    exact ih

/-- How a call ends whose attempt has ended. -/
def concluded (now : Time) (f : Failback) (r : Fabric × Attempt) : Fabric × Failback :=
  match r.2.stage with
  | .threw e => (r.1, { f with stage := .threw (some r.2) e })
  | _ =>
    (r.1.settleFailback now f.slot r.2.result.state,
      { f with stage := .returned (some r.2) r.2.result })

/-- The cutover of a call, by induction on its steps. -/
theorem runFailback_cutting (env : Env) (rd : Nat → Readings) (n : Nat) {s : Fabric}
    {f : Failback} {a : Attempt}
    (hst : f.stage = .cutting a) (hlive : ¬ Ended a) (hn : a.stage.remaining ≤ n) :
    ∃ now, runFailback env rd (n + 1) s f =
      concluded now f (runAttempt (fun j => rd (j + 1)) n s a) := by
  induction n generalizing s f a with
  | zero => exact absurd (ended_of_remaining (Nat.le_zero.mp hn)) hlive
  | succ n ih =>
    have hstep : s.failbackStep env (rd (n + 1)) f =
        ((s.attemptStep (rd (n + 1)) a).1,
          { f with stage := afterAttempt (s.attemptStep (rd (n + 1)) a).2 }) := by
      rw [failbackStep, hst]
    have hless := attemptStep_remaining (rd (n + 1)) s a
    rw [runFailback, hstep, runAttempt]
    generalize s.attemptStep (rd (n + 1)) a = r at hless ⊢
    by_cases hend : Ended r.2
    · refine ⟨(rd n).now, ?_⟩
      rw [runAttempt_ended n hend]
      rcases hend with hr | ⟨e, hr⟩
      · rw [runFailback]
        simp only [failbackStep, afterAttempt, concluded, hr]
        exact runFailback_ended n (Or.inl ⟨_, _, rfl⟩)
      · simp only [afterAttempt, concluded, hr]
        exact runFailback_ended (n + 1) (Or.inr ⟨_, _, rfl⟩)
    · have hgo : afterAttempt r.2 = .cutting r.2 := by
        unfold afterAttempt
        split
        · rename_i hr
          exact absurd (Or.inl hr) hend
        · rename_i e hr
          exact absurd (Or.inr ⟨e, hr⟩) hend
        · rfl
      obtain ⟨now, hrun⟩ := ih (s := r.1) (f := { f with stage := .cutting r.2 }) rfl hend (by omega)
      exact ⟨now, by rw [hgo]; exact hrun⟩

/-- How a call of `execute_failback` comes out: it makes no attempt, or it executes the
plan that it has made. -/
inductive FailbackRun (env : Env) (rd : Nat → Readings) (s : Fabric) (slot : ServiceSlotKey)
    (ops : CutoverOps) (r : Fabric × Failback) : Prop
  | idle (fabric : r.1 = { s with snapshotCounter := r.1.snapshotCounter })
      (notCompleted : r.2.completed = false) (unfenced : failbackFences env rd s slot ops = false)
  | executed {svc : ServiceDefinition} {pref : TargetId} (plan : FailoverPlan) (now : Time)
      (authorizes : Authorizes s (rd 22) slot svc pref)
      (planned : (s.planFailoverPref env.rank slot (some pref)).2 = .ok (some plan))
      (run : r = concluded now { slot := slot, ops := ops, stage := .cutting { plan := plan, ops := ops } }
        (executePlan (fun j => rd (j + 1)) (s.planFailoverPref env.rank slot (some pref)).1 plan ops))

/-- **A failback, inverted.** -/
theorem executeFailback_cases (env : Env) (rd : Nat → Readings) (s : Fabric)
    (slot : ServiceSlotKey) (ops : CutoverOps) :
    FailbackRun env rd s slot ops (s.executeFailback env rd slot ops) := by
  have hfences : failbackFences env rd s slot ops =
      runFences env rd 22 (s.failbackStep env (rd 22) { slot := slot, ops := ops }).1
        (s.failbackStep env (rd 22) { slot := slot, ops := ops }).2 := rfl
  unfold executeFailback
  rw [runFailback]
  cases hd : (s.evaluateFailback (rd 22) slot).authorized with
  | false =>
    simp only [failbackStep, hd] at hfences ⊢
    rw [runFailback_ended 22 (Or.inl ⟨_, _, rfl⟩)]
    exact .idle rfl rfl (hfences.trans (runFences_ended 22 (Or.inl ⟨_, _, rfl⟩)))
  | true =>
    obtain ⟨svc, pref, hauth⟩ := evaluateFailback_authorized hd
    have hfst := planFailoverPref_fst env.rank s slot (some pref)
    simp only [failbackStep, hd, if_true] at hfences ⊢
    rw [runFences] at hfences
    rw [runFailback]
    simp only [failbackStep, hauth.preferred, invokesFence, Bool.false_or] at hfences ⊢
    rw [runFences] at hfences
    rw [runFailback]
    simp only [failbackStep, planFailback, invokesFence, Bool.false_or] at hfences ⊢
    cases hp : s.planFailoverPref env.rank slot (some pref) with
    | mk s' res =>
      rw [hp] at hfst
      simp only [hp] at hfences ⊢
      cases res with
      | error e =>
        rw [runFailback_ended 20 (Or.inr ⟨_, _, rfl⟩)]
        exact .idle hfst rfl (hfences.trans (runFences_ended 20 (Or.inr ⟨_, _, rfl⟩)))
      | ok found =>
        cases found with
        | none =>
          rw [runFailback_ended 20 (Or.inl ⟨_, _, rfl⟩)]
          exact .idle hfst rfl (hfences.trans (runFences_ended 20 (Or.inl ⟨_, _, rfl⟩)))
        | some plan =>
          obtain ⟨now, hrun⟩ := runFailback_cutting env rd 19 (s := s')
            (f := { slot := slot, ops := ops, stage := .cutting { plan := plan, ops := ops } }) rfl
            (by rintro (he | ⟨e, he⟩) <;> cases he) (Nat.le_refl _)
          refine .executed plan now hauth (by rw [hp]) ?_
          rw [hp]
          exact hrun

/-! ## Where a completed call leads -/

/-- What commits is on the target that the plan selects. -/
def Aimed (plan : FailoverPlan) (a : Attempt) : Prop :=
  a.plan = plan ∧ (Issued a →
    ∃ w, plan.selected = some w ∧ a.newAssign.target = w.facts.target)

theorem Aimed.step {rd : Readings} {plan : FailoverPlan} {a : Attempt} (h : Aimed plan a) :
    Aimed plan (s.attemptStep rd a).2 := by
  refine ⟨(attemptStep_plan rd s a).trans h.1, fun hissued => ?_⟩
  rcases attemptStep_issue rd s a with ⟨hst, hacc, -, -⟩ | ⟨-, -, hnot, -, -⟩ |
    ⟨-, hback, -, -, hnew, -, -⟩ | ⟨hcommit, -⟩
  · have hstage := hacc.stage
    have hnew := (composeAssignment_eq_ok hacc.issued).target
    rw [attemptStep_validating hst] at hstage hnew ⊢
    obtain ⟨svc, w, -, hw, hfind, -⟩ := validateAttempt_eligible hstage
    have hmatch := List.find?_some hfind
    rw [Bool.and_eq_true, beq_iff_eq] at hmatch
    exact ⟨w, h.1 ▸ hw, hnew.trans hmatch.1⟩
  · exact absurd hissued hnot
  · rw [hnew]
    exact h.2 (hback hissued)
  · rw [hcommit.new]
    exact h.2 hcommit.issued

theorem Aimed.run {plan : FailoverPlan} (rd : Nat → Readings) (n : Nat) {s : Fabric} {a : Attempt}
    (h : Aimed plan a) : Aimed plan (runAttempt rd n s a).2 := by
  induction n generalizing s a with
  | zero => exact h
  | succ n ih => exact ih h.step

/-- A completed call gives its slot, if that has a record, an assignment on the target
that the plan selects. -/
theorem executePlan_current {rd : Nat → Readings} {plan : FailoverPlan}
    (hsound : s.slots.Sound (·.slot)) (hcur : (s.currentAssignment plan.slot).isSome)
    (hdone : (executePlan rd s plan ops).2.Completed) :
    ∃ w, plan.selected = some w ∧
      ((executePlan rd s plan ops).1.currentAssignment plan.slot).map (·.target) =
        some w.facts.target := by
  have hnew : Aimed plan { plan := plan, ops := ops : Attempt } := ⟨rfl, fun h => absurd rfl h.1⟩
  obtain ⟨w, hw, htarget⟩ := (hnew.run rd 19).2 (.of_completed hdone)
  obtain ⟨s1, a1, now, hx, hc⟩ := (Executing.begin s plan ops).run 19
    (by rintro (he | ⟨e, he⟩) <;> cases he) hdone
  refine ⟨w, hw, ?_⟩
  show ((runAttempt rd 19 s { plan := plan, ops := ops }).1.currentAssignment plan.slot).map _ = _
  rw [hx.commit_slot hsound hc, if_pos, ← hc.new]
  · exact congrArg some htarget
  · intro hnone
    rw [currentAssignment, hnone] at hcur
    cases hcur

theorem runAttempt_confined (rd : Nat → Readings) (n : Nat) (s : Fabric) (a : Attempt) :
    Confined s (runAttempt rd n s a).1 := by
  induction n generalizing s a with
  | zero => exact rfl
  | succ n ih =>
    have hstep := attemptStep_confined (rd n) s a
    have hrest := ih (s.attemptStep (rd n) a).1 (s.attemptStep (rd n) a).2
    rw [runAttempt]
    unfold Confined at hstep hrest ⊢
    rw [hrest, hstep]

/-- A preference is met exactly if some unrefused candidate meets it. -/
theorem selected_preferred_iff {svc : ServiceDefinition} {g : CandidateSnapshotGeneration}
    {pref : TargetId} {e : Candidate}
    (h : (SelectionEngine.select env.rank
      { generation := g, slot := slot, candidates := s.candidatesFor slot } svc s.domains
      { s.buildContext slot with preferredTarget := some pref }).selected = some e) :
    e.facts.target = pref ↔ ∃ c ∈ s.unrefused slot svc, c.facts.target = pref := by
  rw [SelectionEngine.select_selected_iff, SelectionEngine.eligible_eq] at h
  have hmem : e ∈ s.unrefused slot svc := h.mem
  refine ⟨fun heq => ⟨e, hmem, heq⟩, fun ⟨c, hc, hpref⟩ => ?_⟩
  have hleast := h.least SelectionEngine.precedes_strictWeak (d := c) hc
  by_contra hne
  -- a candidate on the preferred target precedes one that is not
  refine Bool.eq_false_iff.mp hleast (SelectionEngine.precedes_iff.mpr (Or.inl ?_))
  have hc : (some pref == some c.facts.target) = true := by rw [hpref, beq_self_eq_true]
  have he : (some pref == some e.facts.target) = false := by
    rw [beq_eq_false_iff_ne]
    exact fun heq => hne (Option.some.inj heq).symm
  show (some pref == some e.facts.target).toNat < (some pref == some c.facts.target).toNat
  rw [hc, he]
  exact Nat.zero_lt_one

theorem settleFailback_current (s : Fabric) (now : Time) (slot key : ServiceSlotKey)
    (state : AttemptState) :
    (s.settleFailback now slot state).currentAssignment key = s.currentAssignment key ∧
      (s.settleFailback now slot state).preferred = s.preferred := by
  rw [settleFailback_settled]
  exact ⟨rfl, rfl⟩

/-- The failback is completed exactly if its attempt is. -/
theorem concluded_completed {now : Time} {f : Failback} {r : Fabric × Attempt} (hend : Ended r.2) :
    (concluded now f r).2.completed = true ↔ r.2.Completed := by
  rcases hend with hr | ⟨e, hr⟩
  · simp only [concluded, hr, Failback.completed, FailbackStage.result, Option.any_some, beq_iff_eq,
      Attempt.Completed, true_and]
  · simp only [concluded, hr, Failback.completed, FailbackStage.result, Option.any_none,
      Attempt.Completed, reduceCtorEq, false_and, Bool.false_eq_true]

theorem concluded_current (now : Time) (f : Failback) (r : Fabric × Attempt) (key : ServiceSlotKey) :
    (concluded now f r).1.currentAssignment key = r.1.currentAssignment key ∧
      (concluded now f r).1.preferred = r.1.preferred := by
  unfold concluded
  split
  · exact ⟨rfl, rfl⟩
  · exact settleFailback_current r.1 now f.slot key r.2.result.state

/-- Some candidate of the slot on its preferred target is refused by no rule. -/
def PreferredUnrefused (s : Fabric) (slot : ServiceSlotKey) : Prop :=
  ∃ svc pref, s.serviceForSlot slot = some svc ∧ s.preferred slot = some pref ∧
    ∃ c ∈ s.unrefused slot svc, c.facts.target = pref

theorem preferredUnrefused_iff {svc : ServiceDefinition} {pref : TargetId}
    (hsvc : s.serviceForSlot slot = some svc) (hpref : s.preferred slot = some pref) :
    s.PreferredUnrefused slot ↔ ∃ c ∈ s.unrefused slot svc, c.facts.target = pref := by
  refine ⟨?_, fun hunrefused => ⟨svc, pref, hsvc, hpref, hunrefused⟩⟩
  rintro ⟨_, _, hsvc', hpref', hunrefused⟩
  cases hsvc.symm.trans hsvc'
  cases hpref.symm.trans hpref'
  exact hunrefused

/-- Where the plan of an authorized failback leads, if it is executed and completes. -/
theorem executed_home_iff {rd : Readings} {rd' : Nat → Readings} {svc : ServiceDefinition}
    {pref : TargetId} {plan : FailoverPlan} (hsound : s.slots.Sound (·.slot))
    (hauth : Authorizes s rd slot svc pref)
    (hplan : (s.planFailoverPref env.rank slot (some pref)).2 = .ok (some plan))
    (hdone : (executePlan rd' (s.planFailoverPref env.rank slot (some pref)).1 plan ops).2.Completed) :
    let r := executePlan rd' (s.planFailoverPref env.rank slot (some pref)).1 plan ops
    (∃ p, r.1.preferred slot = some p ∧ (r.1.currentAssignment slot).map (·.target) = some p) ↔
      s.PreferredUnrefused slot := by
  intro r
  have hfst := planFailoverPref_fst env.rank s slot (some pref)
  obtain ⟨hslot, -, svc', g, e, hsvc, -, hselected, hsel⟩ := planFailoverPref_selected hplan
  have hfound : ((s.planFailoverPref env.rank slot (some pref)).1.currentAssignment plan.slot).isSome := by
    rw [hslot, hfst]
    exact hauth.current
  obtain ⟨w, hw, htarget⟩ := executePlan_current (by rw [hfst]; exact hsound) hfound hdone
  cases hselected.symm.trans hw
  have htarget : (r.1.currentAssignment slot).map (·.target) = some e.facts.target := hslot ▸ htarget
  have hpref : r.1.preferred slot = some pref := by
    have hconf : r.1.preferred = _ := (runAttempt_confined rd' 19 _ _).preferred
    rw [hconf, hfst]
    exact hauth.preferred
  rw [htarget, hpref, preferredUnrefused_iff hsvc hauth.preferred, ← selected_preferred_iff hsel]
  exact ⟨fun ⟨p, hp, he⟩ => Option.some.inj (he.trans hp.symm), fun he => ⟨pref, rfl, congrArg some he⟩⟩

end Fabric

/-- **Which failbacks go home.**  In every reachable state, for every slot and all
outcomes of the effects: a failback that does not complete leaves the slot's target as it
is, and one that completes has the slot on its preferred target exactly if some candidate
on that target was refused by no rule of the selection. -/
theorem failback_home_iff (env : Env) {σ : SystemState}
    (h : Transition.Reachable (machine env) (fun _ _ => True) σ) (rd : Nat → Readings)
    (slot : ServiceSlotKey) (ops : CutoverOps) :
    let r := σ.fabric.executeFailback env rd slot ops
    (r.2.completed = true →
      ((∃ pref, r.1.preferred slot = some pref ∧
        (r.1.currentAssignment slot).map (·.target) = some pref) ↔
          σ.fabric.PreferredUnrefused slot)) ∧
    (r.2.completed = false →
      (r.1.currentAssignment slot).map (·.target) =
        (σ.fabric.currentAssignment slot).map (·.target)) := by
  intro r
  rcases executeFailback_cases env rd σ.fabric slot ops with ⟨hfab, hnot, -⟩ |
    @⟨svc, pref, plan, now, hauth, hplan, hrun⟩
  · change r.1 = _ at hfab
    change r.2.completed = false at hnot
    refine ⟨fun hdone => ?_, fun _ => ?_⟩
    · rw [hnot] at hdone
      cases hdone
    · rw [hfab]
      rfl
  · change r = _ at hrun
    generalize hs1 : (σ.fabric.planFailoverPref env.rank slot (some pref)).1 = s1 at hrun
    have hend := executePlan_finishes (fun j => rd (j + 1)) s1 plan ops
    obtain ⟨hcur, hpreferred⟩ := concluded_current now
      { slot := slot, ops := ops, stage := .cutting { plan := plan, ops := ops } }
      (executePlan (fun j => rd (j + 1)) s1 plan ops) slot
    rw [hrun, hcur, hpreferred]
    refine ⟨fun hdone => ?_, fun hdone => ?_⟩
    · rw [concluded_completed hend] at hdone
      subst hs1
      exact executed_home_iff (slots_sound h) hauth hplan hdone
    · have hnot : ¬ (executePlan (fun j => rd (j + 1)) s1 plan ops).2.Completed := by
        rw [← concluded_completed hend, hdone]
        exact Bool.false_ne_true
      obtain ⟨hslots, -⟩ := executePlan_atomic (fun j => rd (j + 1)) s1 plan ops hnot
      rw [currentAssignment_congr hslots, ← hs1, planFailoverPref_fst]
      rfl

namespace Reference

/-- The service of the reference deployment, with a failback that waits for nothing. -/
def returning : ServiceDefinition :=
  { service with
    failback := .returnAfterValidation
    antiFlapping := { cooldownMs := 0, hysteresisMs := 0 } }

/-- The slot has failed over from target 1 to target 2. -/
def failedOver : SystemState :=
  let σ := (machine env).run { fabric := {} } ((.createService returning :: setup.tail).map .op)
  (machine env).run σ (callOf 0 (planOf σ.fabric))

/-- Target 1 is back with a boot, and target 3 is ready beside it. -/
def recovered (boot : UInt64) : SystemState :=
  (machine env).run failedOver
    ([.registerTarget ⟨1⟩ [], .publishCandidateFacts 0 (facts 1 boot), .registerTarget ⟨3⟩ [],
      .publishCandidateFacts 0 (facts 3 33)].map .op)

theorem recovered_reachable (boot : UInt64) :
    Transition.Reachable (machine env) (fun _ _ => True) (recovered boot) :=
  .run_all _ (.run_all _ (.run_all _ (.initial ⟨{}, rfl⟩)))

end Reference

open Reference in
/-- Target 1 is back with a new boot, and the failback goes home. -/
theorem failback_home_reference :
    ((recovered 12).fabric.executeFailback env (fun _ => {}) slot ops).2.completed = true ∧
      ∃ pref, ((recovered 12).fabric.executeFailback env (fun _ => {}) slot ops).1.preferred slot =
          some pref ∧
        (((recovered 12).fabric.executeFailback env (fun _ => {}) slot ops).1.currentAssignment
          slot).map (·.target) = some pref := by
  obtain ⟨hhome, -⟩ := failback_home_iff env (recovered_reachable 12) (fun _ => {}) slot ops
  have hdone :
      ((recovered 12).fabric.executeFailback env (fun _ => {}) slot ops).2.completed = true := by
    decide +kernel
  have hiff := hhome hdone
  have hany : ((recovered 12).fabric.unrefused slot returning).any
      (fun c => c.facts.target == ⟨1⟩) = true := by decide +kernel
  obtain ⟨c, hc, htarget⟩ := List.any_eq_true.mp hany
  have hunrefused : (recovered 12).fabric.PreferredUnrefused slot :=
    ⟨returning, ⟨1⟩, by decide +kernel, by decide +kernel, c, hc, eq_of_beq htarget⟩
  exact ⟨hdone, hiff.mpr hunrefused⟩

open Reference in
/-- **A failback leads to a third target.**  Target 1 is back with the boot that was
fenced: it is ready, and the failback is authorized, but selection refuses the boot and
falls through to target 3. -/
theorem failback_elsewhere :
    ¬ ∀ σ, Transition.Reachable (machine env) (fun _ _ => True) σ → ∀ rd slot ops,
      let r := σ.fabric.executeFailback env rd slot ops
      (r.2.completed = true → ∃ pref, r.1.preferred slot = some pref ∧
        (r.1.currentAssignment slot).map (·.target) = some pref) ∧
      (r.2.completed = false → (r.1.currentAssignment slot).map (·.target) =
        (σ.fabric.currentAssignment slot).map (·.target)) := by
  intro h
  obtain ⟨hgo, -⟩ := h _ (recovered_reachable 11) (fun _ => {}) slot ops
  have hdone :
      ((recovered 11).fabric.executeFailback env (fun _ => {}) slot ops).2.completed = true := by
    decide +kernel
  obtain ⟨pref, hpref, hcur⟩ := hgo hdone
  have hhome : ((recovered 11).fabric.executeFailback env (fun _ => {}) slot ops).1.preferred slot =
      some ⟨1⟩ := by decide +kernel
  have hthird : (((recovered 11).fabric.executeFailback env (fun _ => {}) slot ops).1.currentAssignment
      slot).map (·.target) = some ⟨3⟩ := by decide +kernel
  have hp : pref = ⟨1⟩ := Option.some.inj (hpref.symm.trans hhome)
  have ht : (⟨3⟩ : TargetId) = pref := Option.some.inj (hthird.symm.trans hcur)
  rw [hp] at ht
  cases ht

end FailoverFabric
