import FailoverFabric.Atomicity
import FailoverFabric.Continuity

/-! # A call among others

Between two steps of a call of `execute_plan` other threads may do anything to the
fabric.  A `thread` is the call by itself: a list of moments says in which fabric, and
with which readings, it takes each of its steps.  Nothing ties one moment to the next, so
that the threads include the calls of every interleaving (`reachable_thread`), and the
uninterrupted call (`executePlan_thread`).

A plan is whatever its caller hands in: an old snapshot of the slot, or a forged one.  It
is compared with the present state at the first moment of the call, and what the call
commits is the candidate that was found there (`committed_as_revalidated`).
-/
namespace FailoverFabric

/-- When a call takes a step: the fabric it finds, and what it reads from outside. -/
structure Moment where
  fabric : Fabric
  readings : Readings := {}

namespace Fabric

/-- A call of `execute_plan`, after a step at each of the moments. -/
def thread (a : Attempt) (ms : List Moment) : Attempt :=
  ms.foldl (fun a m => (m.fabric.attemptStep m.readings a).2) a

variable {s : Fabric} {rd : Readings} {a : Attempt} {plan : FailoverPlan} {ops : CutoverOps}
  {ms : List Moment}

@[simp] theorem thread_nil (a : Attempt) : thread a [] = a := rfl

@[simp] theorem thread_cons (a : Attempt) (m : Moment) (ms : List Moment) :
    thread a (m :: ms) = thread (m.fabric.attemptStep m.readings a).2 ms := rfl

theorem thread_concat (a : Attempt) (ms : List Moment) (m : Moment) :
    thread a (ms ++ [m]) = (m.fabric.attemptStep m.readings (thread a ms)).2 := by
  rw [thread, List.foldl_append]
  rfl

/-- A call that has ended takes no further part. -/
theorem thread_ended (h : Ended a) (ms : List Moment) : thread a ms = a := by
  induction ms with
  | nil => rfl
  | cons m ms ih => rw [thread_cons, attemptStep_ended h, ih]

theorem thread_remaining (a : Attempt) (ms : List Moment) :
    (thread a ms).stage.remaining ≤ a.stage.remaining - ms.length := by
  induction ms generalizing a with
  | nil => exact Nat.le_refl _
  | cons m ms ih =>
    have h1 := attemptStep_remaining m.readings m.fabric a
    have h2 := ih (m.fabric.attemptStep m.readings a).2
    rw [thread_cons, List.length_cons]
    omega

/-- **Every call ends**, whatever happens between its steps. -/
theorem thread_finishes (plan : FailoverPlan) (ops : CutoverOps) (h : 19 ≤ ms.length) :
    Ended (thread { plan := plan, ops := ops } ms) := by
  have hrem := thread_remaining { plan := plan, ops := ops } ms
  have hstart : ({ plan := plan, ops := ops } : Attempt).stage.remaining = 19 := rfl
  rw [hstart] at hrem
  exact ended_of_remaining (by omega)

/-! ## Whose calls are threads -/

/-- The moments of an uninterrupted run of an attempt. -/
def moments (rd : Nat → Readings) : Nat → Fabric → Attempt → List Moment
  | 0, _, _ => []
  | n + 1, s, a =>
    ⟨s, rd n⟩ :: moments rd n (s.attemptStep (rd n) a).1 (s.attemptStep (rd n) a).2

theorem runAttempt_thread (rd : Nat → Readings) (n : Nat) (s : Fabric) (a : Attempt) :
    (runAttempt rd n s a).2 = thread a (moments rd n s a) := by
  induction n generalizing s a with
  | zero => rfl
  | succ n ih => exact ih _ _

/-- The uninterrupted call is a thread that starts in the fabric it is called on. -/
theorem executePlan_thread (rd : Nat → Readings) (s : Fabric) (plan : FailoverPlan)
    (ops : CutoverOps) : ∃ ms, (executePlan rd s plan ops).2 =
      thread { plan := plan, ops := ops } (⟨s, rd 18⟩ :: ms) :=
  ⟨_, runAttempt_thread rd 19 s _⟩

/-- **The calls of every interleaving are threads.** -/
theorem reachable_thread {env : Env} {ok : SystemState → Label → Prop} {σ : SystemState}
    (h : Transition.Reachable (machine env) ok σ) : ∀ c ∈ σ.calls, ∀ a, c.attempt = some a →
      ∃ plan ops ms, a = thread { plan := plan, ops := ops } ms := by
  refine h.invariant (P := fun σ => ∀ c ∈ σ.calls, ∀ a, c.attempt = some a →
    ∃ plan ops ms, a = thread { plan := plan, ops := ops } ms) ?_ ?_
  · rintro σ ⟨cfg, rfl⟩ c hc
    cases hc
  · intro σ l _ ih _
    refine step_attempts (fun plan ops => ⟨plan, ops, [], rfl⟩) ?_ ih
    rintro rd a ⟨plan, ops, ms, rfl⟩
    exact ⟨plan, ops, ms ++ [⟨σ.fabric, rd⟩], (thread_concat _ ms ⟨σ.fabric, rd⟩).symm⟩

/-! ## What a call commits -/

/-- The plan passes the validation of the call. -/
def accepts (s : Fabric) (plan : FailoverPlan) (ops : CutoverOps) : Bool :=
  (s.validateAttempt { plan := plan, ops := ops }).2.stage == .recording .intentOnly

theorem thread_start (plan : FailoverPlan) (ops : CutoverOps) (s : Fabric) (rd : Readings)
    (ms : List Moment) : thread { plan := plan, ops := ops } (⟨s, rd⟩ :: ms) =
      thread (s.validateAttempt { plan := plan, ops := ops }).2 ms := by
  rw [thread_cons, attemptStep_validating rfl]

/-- A plan that does not pass ends the call, short of completion. -/
theorem not_accepts (h : s.accepts plan ops = false) :
    Ended (s.validateAttempt { plan := plan, ops := ops }).2 ∧
      ¬ (s.validateAttempt { plan := plan, ops := ops }).2.Completed := by
  rcases validateAttempt_cases s { plan := plan, ops := ops } with ⟨hacc, -⟩ |
    ⟨⟨result, detail, hr⟩, -⟩ | ⟨⟨e, hr⟩, -⟩
  · rw [accepts, hacc.stage] at h
    cases h
  · rw [hr]
    exact ⟨Or.inl rfl, fun hc => by cases hc.2⟩
  · rw [hr]
    exact ⟨Or.inr ⟨e, rfl⟩, fun hc => by cases hc.1⟩

theorem validateAttempt_accepted (h : (s.validateAttempt a).2.stage = .recording .intentOnly) :
    Accepted s a (s.validateAttempt a).2 := by
  rcases validateAttempt_cases s a with ⟨hacc, -⟩ | ⟨⟨_, _, hr⟩, -⟩ | ⟨⟨_, hr⟩, -⟩
  · exact hacc
  · rw [hr] at h
    cases h
  · rw [hr] at h
    cases h

/-- What a call commits is the replacement that its validation issued. -/
theorem thread_committed (hst : a.stage ≠ .validating) (ha : ¬ a.Completed)
    (h : (thread a ms).Completed) :
    (thread a ms).result.committedAssignment = some (committed a) := by
  induction ms generalizing a with
  | nil => exact absurd h ha
  | cons m ms ih =>
    have hstage := attemptStep_stage m.readings m.fabric a
    rw [thread_cons] at h ⊢
    rcases attemptStep_cases m.readings m.fabric a hst with hq | hf | hc
    · rw [ih hstage (fun hcomp => ha (hq.completed hcomp)) h, committed, committed, hq.new]
    · rw [ih hstage (fun hcomp => by cases hf.stage.symm.trans hcomp.1) h, committed,
        committed, hf.new]
    · rw [thread_ended (Or.inl hc.stage)]
      exact hc.committed

/-- The assignment is to the candidate. -/
structure AssignedTo (new : Assignment) (c : Candidate) : Prop where
  target : new.target = c.facts.target
  targetGeneration : new.targetGeneration = c.facts.targetGeneration
  replica : new.replica = c.facts.replica
  replicaGeneration : new.replicaGeneration = c.facts.replicaGeneration
  engine : new.engine = c.facts.engine
  engineIncarnation : new.engineIncarnation = c.facts.engineIncarnation
  readinessProfile : new.readinessProfile = c.facts.profile
  workerBoot : new.workerBoot = c.facts.workerBoot

theorem composeAssignment_assigned {id : AssignmentId} {c : Candidate} {new : Assignment}
    (h : s.composeAssignment id plan c = .ok new) : AssignedTo new c := by
  unfold composeAssignment at h
  obtain ⟨g, -, h⟩ := Codec.bind_ok_iff.mp h
  obtain ⟨authority, -, h⟩ := Codec.bind_ok_iff.mp h
  obtain ⟨v, -, h⟩ := Codec.bind_ok_iff.mp h
  cases h
  exact ⟨rfl, rfl, rfl, rfl, rfl, rfl, rfl, rfl⟩

/-- What an accepted validation issues is assigned to the candidate that it selected. -/
theorem validated_assigned (h : (s.validateAttempt a).2.stage = .recording .intentOnly) :
    AssignedTo (s.validateAttempt a).2.newAssign (s.validateAttempt a).2.selected :=
  composeAssignment_assigned (validateAttempt_accepted h).issued

theorem AssignedTo.committed {c : Candidate} (h : AssignedTo a.newAssign c) :
    AssignedTo (Fabric.committed a) c :=
  ⟨h.target, h.targetGeneration, h.replica, h.replicaGeneration, h.engine, h.engineIncarnation,
    h.readinessProfile, h.workerBoot⟩

/-- What an eligible candidate of the slot is known to be. -/
structure Suitable (s : Fabric) (slot : ServiceSlotKey) (svc : ServiceDefinition)
    (c : Candidate) : Prop where
  /-- The null target passes for none: rule 1 does not compare it. -/
  notCurrent : c.facts.target ≠ .null →
    ∀ cur, s.currentAssignment slot = some cur → c.facts.target ≠ cur.target
  unfenced : c.facts.workerBoot ∉ s.fencedBoots
  fresh : c.facts.evidenceFresh = true
  ready : c.facts.ready = true
  modelKey : svc.compatibility.modelKey = [] ∨ c.facts.modelKey = svc.compatibility.modelKey
  runtimeAbi :
    svc.compatibility.runtimeAbi = [] ∨ c.facts.runtimeAbi = svc.compatibility.runtimeAbi
  profile : ∀ p, svc.compatibility.readinessProfile = some p → c.facts.profile = p
  state : SelectionEngine.stateful svc.recovery.continuity = true →
    c.state.stateAvailable = true ∧ c.state.correctSession = true ∧ c.state.correctTenant = true ∧
      c.state.correctModelGeneration = true ∧ c.state.stateFormatOk = true ∧
      c.state.statusIntegrityOk = true
  resources : ∀ req ∈ svc.resources, ∃ cr ∈ c.resources, cr.resourceClass = req.resourceClass ∧
    cr.resourcesRevoked = false ∧ cr.hasConflictingCommitment = false ∧
    cr.amount.lt req.amount = false

section Suitable
open SelectionEngine
variable {slot : ServiceSlotKey} {svc : ServiceDefinition} {c : Candidate}

theorem compatible_of_rule (h : compatibilityRule c svc = none) :
    (svc.compatibility.modelKey = [] ∨ c.facts.modelKey = svc.compatibility.modelKey) ∧
      (svc.compatibility.runtimeAbi = [] ∨ c.facts.runtimeAbi = svc.compatibility.runtimeAbi) ∧
      ∀ p, svc.compatibility.readinessProfile = some p → c.facts.profile = p := by
  rw [compatibilityRule, orElse_eq_none, orElse_eq_none, excludeIf_eq_none, excludeIf_eq_none,
    excludeIf_eq_none] at h
  obtain ⟨hmodel, habi, hprofile⟩ := h
  refine ⟨?_, ?_, fun p hp => ?_⟩
  · rw [Bool.and_eq_false_iff] at hmodel
    exact hmodel.imp (by simp) (by simp)
  · rw [Bool.and_eq_false_iff] at habi
    exact habi.imp (by simp) (by simp)
  · rw [hp] at hprofile
    simpa using hprofile

/-- The resource that a requirement is compared with. -/
theorem resource_of_rule {req : ResourceRequirement} (h : resourceRule c req = none) :
    ∃ cr ∈ c.resources, cr.resourceClass = req.resourceClass ∧ cr.resourcesRevoked = false ∧
      cr.hasConflictingCommitment = false ∧ cr.amount.lt req.amount = false := by
  unfold resourceRule at h
  split at h
  · rename_i cr hfind
    unfold resourceRefusal at h
    split_ifs at h with hrevoked hconflict hamount
    exact ⟨cr, List.mem_of_find?_eq_some hfind, by simpa using List.find?_some hfind,
      by simpa using hrevoked, by simpa using hconflict, by simpa using hamount⟩
  · cases h

theorem notCurrent_of_rule (h : failedTargetRule c (s.buildContext slot) = none)
    (hnull : c.facts.target ≠ .null) (cur : Assignment)
    (hcur : s.currentAssignment slot = some cur) : c.facts.target ≠ cur.target := by
  intro heq
  have hfailed : (s.buildContext slot).failedTarget = cur.target := by
    simp only [buildContext, failedTargetOf, hcur]
  rw [failedTargetRule, excludeIf_eq_none, hfailed, heq, beq_self_eq_true, Bool.and_true,
    bne_eq_false_iff_eq] at h
  exact hnull (heq.trans h)

theorem suitable_of_exclusion
    (h : exclusion c svc s.domains (s.buildContext slot) = none) : s.Suitable slot svc c := by
  have hpass := passes_of_exclusion h
  obtain ⟨hcurrent, -, -, hready, hcompat, -, hresources, -⟩ := exclusion_eq_none.mp h
  obtain ⟨hmodel, habi, hprofile⟩ := compatible_of_rule hcompat
  refine ⟨notCurrent_of_rule hcurrent, not_fenced_of_exclusion h, ?_, ready_of_passes hpass rfl,
    hmodel, habi, hprofile, fun hst => ?_, fun req hreq => ?_⟩
  · have hfresh := excludeIf_eq_none.mp (orElse_eq_none.mp hready).1
    simpa [buildContext] using hfresh
  · simpa [and_assoc] using (complete_of_passes hpass hst).1
  · exact resource_of_rule (List.findSome?_eq_none_iff.mp hresources req hreq)

end Suitable

/-- **A stale or forged plan promotes no ineligible candidate.**  Whatever the fabric, the
plan, the outcomes of the effects and what other calls do meanwhile, a call that completes
found the candidate that the plan names by target and boot in a fresh snapshot of the
slot, in the fabric in which it validated the plan, and found it eligible; and what it
commits is assigned to that candidate as the snapshot has it, not as the plan has it. -/
theorem committed_as_revalidated (s : Fabric) (rd : Readings) (plan : FailoverPlan)
    (ops : CutoverOps) (ms : List Moment)
    (h : (thread { plan := plan, ops := ops } (⟨s, rd⟩ :: ms)).Completed) :
    ∃ svc wanted s' snap c new, s.serviceForSlot plan.slot = some svc ∧
      plan.selected = some wanted ∧ s.snapshotLocked plan.slot = .ok (s', snap) ∧
      c ∈ snap.candidates ∧ c.facts.target = wanted.facts.target ∧
      c.facts.workerBoot = wanted.facts.workerBoot ∧
      (SelectionEngine.hardEligible c svc s'.domains (s'.buildContext plan.slot)).1 = true ∧
      s.Suitable plan.slot svc c ∧
      (thread { plan := plan, ops := ops } (⟨s, rd⟩ :: ms)).result.committedAssignment = some new ∧
      AssignedTo new c := by
  rw [thread_start] at h ⊢
  cases haccepts : s.accepts plan ops with
  | false =>
    obtain ⟨hend, hnot⟩ := not_accepts haccepts
    rw [thread_ended hend] at h
    exact absurd h hnot
  | true =>
    have hstage : (s.validateAttempt { plan := plan, ops := ops }).2.stage =
        .recording .intentOnly := eq_of_beq haccepts
    have hcommitted := thread_committed (by rw [hstage]; decide)
      (fun hc => by cases hstage.symm.trans hc.1) h
    obtain ⟨svc, wanted, s', snap, hsvc, hwanted, hsnap, hsel⟩ :=
      validateAttempt_revalidated hstage
    obtain ⟨svc', wanted', hsvc', hwanted', -, hexcl⟩ := validateAttempt_eligible hstage
    obtain rfl : svc = svc' := Option.some.inj (hsvc.symm.trans hsvc')
    obtain ⟨hfind, helig⟩ := Option.filter_eq_some_iff.mp hsel
    have hnamed := List.find?_some hfind
    rw [Bool.and_eq_true, beq_iff_eq, beq_iff_eq] at hnamed
    exact ⟨svc, wanted, s', snap, _, _, hsvc, hwanted, hsnap, List.mem_of_find?_eq_some hfind,
      hnamed.1, hnamed.2, helig, suitable_of_exclusion hexcl, hcommitted,
      (validated_assigned hstage).committed⟩

end Fabric

namespace Reference

/-- A forged plan for the reference deployment: it names the candidate on target 2 and gives
it an engine that it does not have. -/
def forgedPlan : FailoverPlan :=
  { slot := slot, selected := some { facts := { facts 2 22 with engine := ⟨99⟩ } } }

/-- The reference deployment with the null target for both the current one and the
candidate. -/
def nullTargets : List Op :=
  [.createService service, .setInitialAssignment 0 { initialAssignment with target := .null },
    .registerTarget .null [], .publishCandidateFacts 0 (facts 0 22)]

end Reference

namespace Fabric
open Reference (forgedPlan)

theorem committed_as_revalidated_forged :
    let s := Reference.after Reference.setup
    let r := (executePlan (fun _ => {}) s forgedPlan Reference.ops).2
    r.Completed ∧ ∃ c ∈ s.candidatesFor Reference.slot, ∃ new,
      r.result.committedAssignment = some new ∧ AssignedTo new c ∧ new.engine = .null := by
  intro s r
  have hr : r = thread { plan := forgedPlan, ops := Reference.ops }
      (⟨s, {}⟩ :: moments (fun _ => {}) 18
        (s.validateAttempt { plan := forgedPlan, ops := Reference.ops }).1
        (s.validateAttempt { plan := forgedPlan, ops := Reference.ops }).2) :=
    runAttempt_thread (fun _ => {}) 19 s _
  have hcompleted : r.Completed := by decide +kernel
  have hengine : r.result.committedAssignment.map (·.engine) = some .null := by decide +kernel
  obtain ⟨svc, wanted, s', snap, c, new, -, -, hsnap, hc, -, -, -, -, hnew, hassigned⟩ :=
    committed_as_revalidated s {} forgedPlan Reference.ops _ (hr ▸ hcompleted)
  obtain ⟨-, rfl⟩ := snapshotLocked_eq hsnap
  rw [← hr] at hnew
  rw [hnew] at hengine
  exact ⟨hcompleted, c, hc, new, hnew, hassigned, Option.some.inj hengine⟩

/-- The null target is promoted over itself: eligibility compares a candidate with the
current target only when the candidate's is not null. -/
theorem current_target_promoted :
    let s := Reference.after Reference.nullTargets
    let r := (executePlan (fun _ => {}) s (Reference.planOf s) Reference.ops).2
    r.Completed ∧ (s.currentAssignment Reference.slot).map (·.target) = some .null ∧
      r.result.committedAssignment.map (·.target) = some .null := by
  decide +kernel

end Fabric

end FailoverFabric
