import FailoverFabric.FailureExclusion
import FailoverFabric.Transactions

/-! # Continuity and the recovery point

`recovery.cpp` orders the continuity classes by what they preserve, and says which
class may stand in for which.  Selection does not ask it: eligibility tests the
flags of the published state, while a candidate's class follows the generations
published with it.  The selected candidate has a compatible class exactly when the
leading candidate carries the generation its contract needs
(`continuity_kept_iff`).

The recovery-point floor is tested against a checkpoint that is there; a candidate
without one is not too old (`recovery_point_floor`).
-/
namespace FailoverFabric
open Fabric

namespace RecoveryEvaluator

/-- How much state a continuity class can carry across a failover. -/
def preservationLevel : ContinuityClass → Int
  | .statelessRestart => 0
  | .replaySafeRequests => 1
  | .sessionStateRebind => 2
  | .checkpointRestore => 3
  | .sessionRestartRequired => 1
  | .manualRecoveryRequired => -1
  | .unknown => -2

def continuityCompatible (required candidate : ContinuityClass) : Bool :=
  if required = .unknown then true
  else if candidate = .unknown then false
  else if candidate = .manualRecoveryRequired then false
  else if required = .manualRecoveryRequired then true
  else decide (preservationLevel required ≤ preservationLevel candidate)

end RecoveryEvaluator

/-- The candidate's class is present, and compatible with the required one. -/
def Candidate.Honours (c : Candidate) (required : ContinuityClass) : Prop :=
  ∃ k, c.continuity = some k ∧ RecoveryEvaluator.continuityCompatible required k = true

/-- The state carries a generation that the required class can be restored from. -/
def CandidateState.carries (st : CandidateState) : ContinuityClass → Bool
  | .checkpointRestore => st.checkpointGeneration.isSome
  | .sessionStateRebind => st.checkpointGeneration.isSome || st.stateGeneration.isSome
  | _ => true

namespace SelectionEngine
variable {c : Candidate} {svc : ServiceDefinition} {ctx : SelectionContext}

theorem orElse_eq_none {α : Type} {x y : Option α} : (x <|> y) = none ↔ x = none ∧ y = none := by
  simp

theorem ready_of_passes (h : Passes c svc ctx) (hfresh : ctx.requiresFreshReadiness = true) :
    c.facts.ready = true := by
  have hrule := (orElse_eq_none.mp h.freshReadiness).2
  rw [excludeIf_eq_none, hfresh] at hrule
  simpa using hrule

/-- What a stateful contract's candidate has passed. -/
theorem complete_of_passes (h : Passes c svc ctx) (hst : stateful svc.recovery.continuity = true) :
    (c.state.stateAvailable && c.state.correctSession && c.state.correctTenant &&
        c.state.correctModelGeneration && c.state.stateFormatOk && c.state.statusIntegrityOk) =
      true ∧ checkpointTooOld c svc = false := by
  have hrule := h.continuity
  rw [continuityRule, if_pos hst, orElse_eq_none, orElse_eq_none, excludeIf_eq_none,
    excludeIf_eq_none] at hrule
  exact ⟨by simpa using hrule.1, hrule.2.1⟩

/-- **An eligible candidate's class is compatible exactly when it carries the
generation its contract needs.** -/
theorem honours_iff (h : Passes c svc ctx) (hfresh : ctx.requiresFreshReadiness = true)
    (hinfer : c.continuity = some (inferContinuity c.state c.facts)) :
    c.Honours svc.recovery.continuity ↔ c.state.carries svc.recovery.continuity = true := by
  have hready := ready_of_passes h hfresh
  have hhonours : c.Honours svc.recovery.continuity ↔ RecoveryEvaluator.continuityCompatible
      svc.recovery.continuity (inferContinuity c.state c.facts) = true := by
    rw [Candidate.Honours, hinfer]
    simp
  rw [hhonours]
  by_cases hst : stateful svc.recovery.continuity = true
  · have hcomplete := (complete_of_passes h hst).1
    rw [inferContinuity, hcomplete, hready]
    cases hreq : svc.recovery.continuity <;> rw [hreq] at hst <;> try cases hst
    all_goals
      simp only [CandidateState.carries]
      generalize c.state.checkpointGeneration.isSome = checkpointed
      generalize c.state.stateGeneration.isSome = generated
      cases checkpointed <;> cases generated <;> decide
  · have hlevel : inferContinuity c.state c.facts = .checkpointRestore ∨
        inferContinuity c.state c.facts = .sessionStateRebind ∨
        inferContinuity c.state c.facts = .replaySafeRequests := by
      simp only [inferContinuity, hready, if_true]
      split_ifs <;> simp
    cases hreq : svc.recovery.continuity <;> rw [hreq] at hst <;> try exact absurd rfl hst
    all_goals
      refine iff_of_true ?_ rfl
      rcases hlevel with hk | hk | hk <;> (rw [hk]; rfl)

end SelectionEngine

namespace Fabric
variable {s : Fabric} {slot : ServiceSlotKey}

/-- The candidates of a slot that no rule refuses, as eligibility annotates them. -/
def unrefused (s : Fabric) (slot : ServiceSlotKey) (svc : ServiceDefinition) : List Candidate :=
  ((s.candidatesFor slot).filter fun c =>
    (SelectionEngine.exclusion c svc s.domains (s.buildContext slot)).isNone).map
    SelectionEngine.marked

theorem mem_unrefused {svc : ServiceDefinition} {e : Candidate} :
    e ∈ s.unrefused slot svc ↔ ∃ c ∈ s.candidatesFor slot,
      SelectionEngine.exclusion c svc s.domains (s.buildContext slot) = none ∧
        e = SelectionEngine.marked c := by
  have h : e ∈ SelectionEngine.eligible { candidates := s.candidatesFor slot } svc s.domains
      (s.buildContext slot) ↔ _ := SelectionEngine.mem_eligible
  rwa [SelectionEngine.eligible_eq] at h

/-- The candidate that selection puts first. -/
def Leads (rank : Candidate → ServiceDefinition → UInt64) (s : Fabric) (slot : ServiceSlotKey)
    (svc : ServiceDefinition) (e : Candidate) : Prop :=
  List.Leads (SelectionEngine.precedes rank svc (s.buildContext slot)) e (s.unrefused slot svc)

theorem selected_iff_leads {rank : Candidate → ServiceDefinition → UInt64}
    {svc : ServiceDefinition} {g : CandidateSnapshotGeneration} {e : Candidate} :
    (SelectionEngine.select rank
        { generation := g, slot := slot, candidates := s.candidatesFor slot } svc s.domains
        (s.buildContext slot)).selected = some e ↔ s.Leads rank slot svc e := by
  rw [SelectionEngine.select_selected_iff, SelectionEngine.eligible_eq]
  rfl

/-- The class of an unrefused candidate of a slot. -/
theorem unrefused_honours_iff {svc : ServiceDefinition} {e : Candidate}
    (h : e ∈ s.unrefused slot svc) :
    e.Honours svc.recovery.continuity ↔ e.state.carries svc.recovery.continuity = true := by
  obtain ⟨c, hc, hex, rfl⟩ := mem_unrefused.mp h
  obtain ⟨t, -, f, -, rfl⟩ := candidatesFor_made hc
  exact SelectionEngine.honours_iff (SelectionEngine.passes_of_exclusion hex) rfl rfl

end Fabric

/-- **Continuity is kept exactly when the leading candidate carries the generation
its contract needs.**  In every state and for every slot, what `select` and
`plan_failover` select has a class compatible with the service's, if and only if
the candidate that leads the unrefused ones carries a checkpoint, where the
contract is to restore one, or a checkpoint or a state generation, where it is to
rebind the session's state. -/
theorem continuity_kept_iff (env : Env) (s : Fabric) (slot : ServiceSlotKey) :
    (∀ svc, s.serviceForSlot slot = some svc →
        (∀ sr e, (s.select env.rank slot).2 = .ok sr → sr.selected = some e →
          e.Honours svc.recovery.continuity) ∧
        ∀ plan e, (s.planFailover env.rank slot).2 = .ok (some plan) → plan.selected = some e →
          e.Honours svc.recovery.continuity) ↔
      ∀ svc g e, s.serviceForSlot slot = some svc → s.snapshotCounter.next = .ok g →
        s.Leads env.rank slot svc e → e.state.carries svc.recovery.continuity = true := by
  constructor
  · intro h svc g e hsvc hg hlead
    rw [← unrefused_honours_iff hlead.mem]
    exact (h svc hsvc).1 _ e (select_result hsvc hg)
      (selected_iff_leads.mpr hlead)
  · intro h svc hsvc
    have hlead : ∀ g e, s.snapshotCounter.next = .ok g → s.Leads env.rank slot svc e →
        e.Honours svc.recovery.continuity := fun g e hg hlead =>
      (unrefused_honours_iff hlead.mem).mpr (h svc g e hsvc hg hlead)
    constructor
    · intro sr e hsel he
      obtain ⟨g, hg, rfl⟩ := (select_eq_ok_of_service hsvc).mp hsel
      exact hlead g e hg (selected_iff_leads.mp he)
    · intro plan e hplan he
      obtain ⟨-, -, svc', g, e', hsvc', hg, hsel, hselected⟩ := planFailoverPref_selected hplan
      cases hsvc.symm.trans hsvc'
      cases he.symm.trans hsel
      exact hlead g e hg (selected_iff_leads.mp hselected)

namespace Reference

/-- Complete state, with or without a checkpoint. -/
def stateWith (checkpoint : Option CheckpointGeneration) : CandidateState :=
  { stateAvailable := true
    checkpointGeneration := checkpoint
    correctSession := true
    correctTenant := true
    correctModelGeneration := true
    stateFormatOk := true
    statusIntegrityOk := true }

/-- The service, to be restored from a checkpoint of generation 5 at least. -/
def restoring : ServiceDefinition :=
  { service with recovery := { continuity := .checkpointRestore, minCheckpointGen := some ⟨5⟩ } }

/-- The deployment of that service, with target 2's state published. -/
def restorable (checkpoint : Option CheckpointGeneration) : SystemState :=
  (machine env).run { fabric := {} } (([.createService restoring,
    .setInitialAssignment 0 initialAssignment, .registerTarget ⟨2⟩ [],
    .publishCandidateFacts 0 (facts 2 22), .publishCandidateState ⟨2⟩ (stateWith checkpoint)] :
      List Op).map .op)

end Reference

open Reference in
/-- **Continuity is downgraded in silence.**  The service is to be restored from a
checkpoint; target 2 has published complete state and no checkpoint, and is selected
as one that can replay requests. -/
theorem continuity_downgraded :
    ¬ ∀ σ, Transition.Reachable (machine env) (fun _ _ => True) σ → ∀ slot svc sr e,
      σ.fabric.serviceForSlot slot = some svc → (σ.fabric.select env.rank slot).2 = .ok sr →
        sr.selected = some e → e.Honours svc.recovery.continuity := by
  intro h
  let σ := restorable none
  obtain ⟨sr, e, hsr, he, hclass⟩ := select_of_test (s := σ.fabric)
    (t := fun e => e.continuity == some .replaySafeRequests) (by decide +kernel)
  obtain ⟨k, hk, hcompat⟩ := h σ (.run_all _ (.initial ⟨{}, rfl⟩)) slot restoring sr e
    (by decide +kernel) hsr he
  rw [eq_of_beq hclass] at hk
  cases hk
  cases hcompat

/-! ## The recovery-point floor -/

/-- The least checkpoint generation a contract permits, if it restores state. -/
def ServiceDefinition.floor (svc : ServiceDefinition) : Option CheckpointGeneration :=
  if SelectionEngine.stateful svc.recovery.continuity then svc.recovery.minCheckpointGen else none

/-- The state has a checkpoint, and it is not below the contract's floor. -/
def CandidateState.MeetsFloor (st : CandidateState) (svc : ServiceDefinition) : Prop :=
  ∀ g, svc.floor = some g → ∃ k, st.checkpointGeneration = some k ∧ g.value ≤ k.value

/-- The state has a checkpoint, if the contract sets a floor. -/
def CandidateState.checkpointed (st : CandidateState) (svc : ServiceDefinition) : Bool :=
  svc.floor.isNone || st.checkpointGeneration.isSome

/-- An eligible candidate's checkpoint is not below the floor, if there is one. -/
theorem SelectionEngine.meetsFloor_iff {c : Candidate} {svc : ServiceDefinition}
    {ctx : SelectionContext} (h : Passes c svc ctx) :
    c.state.MeetsFloor svc ↔ c.state.checkpointed svc = true := by
  unfold CandidateState.MeetsFloor CandidateState.checkpointed
  cases hfloor : svc.floor with
  | none => simp
  | some g =>
    have hst : stateful svc.recovery.continuity = true ∧ svc.recovery.minCheckpointGen = some g := by
      unfold ServiceDefinition.floor at hfloor
      split at hfloor
      · exact ⟨‹_›, hfloor⟩
      · cases hfloor
    have hold := (complete_of_passes h hst.1).2
    rw [checkpointTooOld, hst.2] at hold
    cases hk : c.state.checkpointGeneration with
    | none => simp
    | some k =>
      rw [hk] at hold
      have hle : g.value ≤ k.value := by simpa using hold
      simpa using hle

/-- **What is returned meets the floor exactly when every unrefused candidate has a
checkpoint**, where the contract sets a floor. -/
theorem returned_floor_iff (env : Env) (s : Fabric) (slot : ServiceSlotKey) :
    (∀ svc, s.serviceForSlot slot = some svc →
        (∀ sr e, (s.select env.rank slot).2 = .ok sr →
          sr.selected = some e ∨ e ∈ sr.evaluatedAlternatives → e.state.MeetsFloor svc) ∧
        ∀ plan e, (s.planFailover env.rank slot).2 = .ok (some plan) → plan.selected = some e →
          e.state.MeetsFloor svc) ↔
      ∀ svc g c, s.serviceForSlot slot = some svc → s.snapshotCounter.next = .ok g →
        c ∈ s.candidatesFor slot →
        SelectionEngine.exclusion c svc s.domains (s.buildContext slot) = none →
          c.state.checkpointed svc = true := by
  constructor
  · intro h svc g c hsvc hg hc hex
    rw [← SelectionEngine.meetsFloor_iff (SelectionEngine.passes_of_exclusion hex)]
    exact (h svc hsvc).1 _ (SelectionEngine.marked c)
      (select_result hsvc hg)
      (SelectionEngine.select_spec.mpr ⟨c, hc, hex, rfl⟩)
  · intro h svc hsvc
    have hfloor : ∀ g c, s.snapshotCounter.next = .ok g → c ∈ s.candidatesFor slot →
        SelectionEngine.exclusion c svc s.domains (s.buildContext slot) = none →
          c.state.MeetsFloor svc := fun g c hg hc hex =>
      (SelectionEngine.meetsFloor_iff (SelectionEngine.passes_of_exclusion hex)).mpr
        (h svc g c hsvc hg hc hex)
    constructor
    · intro sr e hsel he
      obtain ⟨g, hg, rfl⟩ := (select_eq_ok_of_service hsvc).mp hsel
      obtain ⟨c, hc, hex, rfl⟩ := SelectionEngine.select_spec.mp he
      exact hfloor g c hg hc hex
    · intro plan e hplan he
      obtain ⟨-, -, svc', g, e', hsvc', hg, hsel, hselected⟩ := planFailoverPref_selected hplan
      cases hsvc.symm.trans hsvc'
      cases he.symm.trans hsel
      obtain ⟨c, hc, hex, rfl⟩ := SelectionEngine.select_spec.mp (Or.inl hselected)
      exact hfloor g c hg hc hex

/-! ## What is committed -/

/-- The candidate that the attempt's plan names has a checkpoint, if the contract
sets a floor and no rule refuses it. -/
def Fabric.planCheckpointed (s : Fabric) (a : Attempt) : Bool :=
  (s.serviceForSlot a.slot).all fun svc => a.plan.selected.all fun wanted =>
    ((s.candidatesFor a.slot).find? fun c =>
      c.facts.target == wanted.facts.target && c.facts.workerBoot == wanted.facts.workerBoot).all
      fun c => (SelectionEngine.exclusion c svc s.domains (s.buildContext a.slot)).isSome ||
        c.state.checkpointed svc

/-- The recovery objective of a slot's service. -/
def Fabric.objective (s : Fabric) (slot : ServiceSlotKey) : Option RecoveryObjective :=
  (s.serviceForSlot slot).map (·.recovery)

/-- What a run must keep to: a plan that is validated names a candidate with a
checkpoint, and a file that is loaded leaves the recovery objective of an attempt in
progress as it is. -/
def checkpointing (env : Env) (σ : SystemState) : Label → Bool
  | .advance i _ =>
    (σ.attemptAt i).all fun a => a.stage != .validating || σ.fabric.planCheckpointed a
  | .op (.load blob) =>
    σ.calls.all fun c => c.attempt.all fun a =>
      !a.inProgress ||
        (σ.fabric.apply env (.load blob)).objective a.slot == σ.fabric.objective a.slot
  | _ => true

/-- The attempt promotes its candidate, which meets the floor of the slot's
contract. -/
def FloorMet (s : Fabric) (a : Attempt) : Prop :=
  (a.newAssign.target = a.selected.facts.target ∧
      a.newAssign.workerBoot = a.selected.facts.workerBoot) ∧
    ∃ svc, s.serviceForSlot a.slot = some svc ∧ a.selected.state.MeetsFloor svc

theorem FloorMet.congr {s s' : Fabric} {a : Attempt} (h : FloorMet s a)
    (hobj : s'.objective a.slot = s.objective a.slot) : FloorMet s' a := by
  obtain ⟨hnew, svc, hsvc, hfloor⟩ := h
  rw [objective, objective, hsvc, Option.map_some] at hobj
  obtain ⟨svc', hsvc', hrec⟩ := Option.map_eq_some_iff.mp hobj
  refine ⟨hnew, svc', hsvc', ?_⟩
  unfold CandidateState.MeetsFloor ServiceDefinition.floor at hfloor ⊢
  rwa [hrec]

theorem FloorMet.accept {s : Fabric} {a a' : Attempt} (h : Accepted s a a')
    (ha' : a' = (s.validateAttempt a).2) (hplan : s.planCheckpointed a = true) :
    FloorMet s a' := by
  have hcomposed := composeAssignment_eq_ok h.issued
  have hstage : (s.validateAttempt a).2.stage = .recording .intentOnly := ha' ▸ h.stage
  obtain ⟨svc, wanted, hsvc, hwanted, hfind, hex⟩ := validateAttempt_eligible hstage
  rw [← ha'] at hfind hex
  refine ⟨⟨hcomposed.target, hcomposed.workerBoot⟩, svc, ?_, ?_⟩
  · rw [Attempt.slot, h.plan]
    exact hsvc
  · rw [SelectionEngine.meetsFloor_iff (SelectionEngine.passes_of_exclusion hex)]
    rw [planCheckpointed, hsvc, hwanted, Option.all_some, Option.all_some, hfind, Option.all_some,
      hex] at hplan
    simpa using hplan

/-- One step of an attempt. -/
theorem FloorMet.attemptStep {s : Fabric} {a : Attempt} {rd : Readings}
    (h : a.stage = .validating ∨ Ended a ∨ FloorMet s a)
    (hplan : a.stage = .validating → s.planCheckpointed a = true) :
    (s.attemptStep rd a).2.stage = .validating ∨ Ended (s.attemptStep rd a).2 ∨
      FloorMet (s.attemptStep rd a).1 (s.attemptStep rd a).2 := by
  have hkept : ∀ key, (s.attemptStep rd a).1.objective key = s.objective key := fun key => by
    rw [objective, serviceForSlot, findService, (attemptStep_confined rd s a).services]
    rfl
  by_cases hst : a.stage = .validating
  · rw [attemptStep_validating hst] at hkept ⊢
    rcases validateAttempt_cases s a with ⟨hacc, -⟩ | ⟨⟨_, _, he⟩, -⟩ | ⟨⟨e, he⟩, -⟩
    · exact Or.inr (Or.inr ((FloorMet.accept hacc rfl (hplan hst)).congr (hkept _)))
    · exact Or.inr (Or.inl (Or.inl (by rw [he]; rfl)))
    · exact Or.inr (Or.inl (Or.inr ⟨e, by rw [he]; rfl⟩))
  · have hsame : ∀ a', SameAttempt a a' → a'.newAssign = a.newAssign → FloorMet s a →
        FloorMet s a' := by
      rintro a' hsame hnew ⟨hpromoted, svc, hsvc, hfloor⟩
      refine ⟨?_, svc, hsame.slot ▸ hsvc, hsame.selected ▸ hfloor⟩
      rwa [hnew, hsame.selected]
    have hstep : (s.attemptStep rd a).2.stage = .validating ∨ Ended (s.attemptStep rd a).2 ∨
        FloorMet s (s.attemptStep rd a).2 := attemptStep_new (fun _ hv => absurd hv hst) hsame h
    exact hstep.imp_right fun hr => hr.imp_right fun hf => hf.congr (hkept _)

/-- One operation leaves the objective of an attempt in progress alone. -/
theorem objective_apply {env : Env} {σ : SystemState} {o : Op} {i : Nat} {a : Attempt}
    (hsound : σ.fabric.services.Sound (·.service)) (hok : checkpointing env σ (.op o) = true)
    (ha : σ.attemptAt i = some a) (hin : a.inProgress = true)
    (hsome : (σ.fabric.serviceForSlot a.slot).isSome = true) :
    (σ.fabric.apply env o).objective a.slot = σ.fabric.objective a.slot := by
  by_cases hload : ∃ blob, o = .load blob
  · obtain ⟨blob, rfl⟩ := hload
    obtain ⟨c, hc, hca⟩ := Option.bind_eq_some_iff.mp ha
    have hall := List.all_eq_true.mp hok c (List.mem_of_getElem? hc)
    rw [hca, Option.all_some, hin] at hall
    simpa using hall
  by_cases hcreate : ∃ d, o = .createService d
  · obtain ⟨d, rfl⟩ := hcreate
    obtain ⟨svc, hsvc⟩ := Option.isSome_iff_exists.mp hsome
    show (σ.fabric.orSelf (σ.fabric.createService d)).objective a.slot = _
    cases hcr : σ.fabric.createService d with
    | error e => rfl
    | ok s' =>
      have hfind : s'.serviceForSlot a.slot = some svc := createService_find hsound hcr hsvc
      rw [orSelf, objective, objective, hfind, hsvc]
  · rw [objective, serviceForSlot, findService, apply_services env σ.fabric o
      (fun d he => hcreate ⟨d, he⟩) fun b he => hload ⟨b, he⟩]
    rfl

theorem inProgress_iff {a : Attempt} :
    a.inProgress = true ↔ a.stage ≠ .validating ∧ ¬ Ended a := by
  unfold Attempt.inProgress Ended
  cases a.stage <;> simp

/-- The attempts in progress meet the floor. -/
def FloorsMet (σ : SystemState) : Prop :=
  ∀ i a, σ.attemptAt i = some a → a.stage = .validating ∨ Ended a ∨ FloorMet σ.fabric a

theorem FloorsMet.step {env : Env} {σ : SystemState} {l : Label} (h : FloorsMet σ)
    (hsound : σ.fabric.services.Sound (·.service)) (hok : checkpointing env σ l = true) :
    FloorsMet (σ.step env l) := by
  have heff := step_effect env σ l
  generalize σ.step env l = σ' at heff
  cases heff with
  | applied o =>
    intro i a ha
    rcases h i a ha with hv | he | hf
    · exact Or.inl hv
    · exact Or.inr (Or.inl he)
    · by_cases hin : a.inProgress = true
      · obtain ⟨-, svc, hsvc, -⟩ := id hf
        exact Or.inr (Or.inr (hf.congr (objective_apply hsound hok ha hin (by rw [hsvc]; rfl))))
      · rw [inProgress_iff, not_and_or, not_not, not_not] at hin
        exact hin.imp_right Or.inl
  | settled hf hat =>
    refine hat.attempts (fun i plan ops => Or.inl rfl) fun i a ha => ?_
    refine (h i a ha).imp_right fun hr => hr.imp_right fun hm => hm.congr ?_
    rw [objective, serviceForSlot, findService, hf]
    rfl
  | stepped a hb hf hafter hothers =>
    rename_i j rd
    have hplan : a.stage = .validating → σ.fabric.planCheckpointed a = true := by
      intro hv
      have hall : (σ.attemptAt j).all (fun a => a.stage != .validating ||
        σ.fabric.planCheckpointed a) = true := hok
      rw [hb, Option.all_some, hv] at hall
      simpa using hall
    refine attempts_stepped hafter hothers ?_ fun i b hb' => ?_
    · rw [hf]
      exact FloorMet.attemptStep (h j a hb) hplan
    · refine (h i b hb').imp_right fun hr => hr.imp_right fun hm => hm.congr ?_
      rw [hf, objective, serviceForSlot, findService, (attemptStep_confined rd σ.fabric a).services]
      rfl
  | restarted _ _ =>
    intro i a ha
    cases ha

theorem floorsMet_reachable {env : Env} {σ : SystemState}
    (h : Transition.Reachable (machine env) (fun σ l => checkpointing env σ l = true) σ) :
    FloorsMet σ := by
  refine h.invariant ?_ fun σ l hr hσ hok => hσ.step (services_sound hr) hok
  rintro σ ⟨cfg, rfl⟩ i a ha
  cases ha

/-- **The recovery-point floor.**  In every state and for every slot, `select` and
`plan_failover` return only candidates that meet the floor, if and only if every
unrefused candidate of the slot has a checkpoint; and in every run in which each
validated plan names a candidate with a checkpoint, what an attempt commits meets
the floor of its slot's contract. -/
theorem recovery_point_floor (env : Env) (σ : SystemState) :
    (∀ slot,
        (∀ svc, σ.fabric.serviceForSlot slot = some svc →
            (∀ sr e, (σ.fabric.select env.rank slot).2 = .ok sr →
              sr.selected = some e ∨ e ∈ sr.evaluatedAlternatives → e.state.MeetsFloor svc) ∧
            ∀ plan e, (σ.fabric.planFailover env.rank slot).2 = .ok (some plan) →
              plan.selected = some e → e.state.MeetsFloor svc) ↔
          ∀ svc g c, σ.fabric.serviceForSlot slot = some svc →
            σ.fabric.snapshotCounter.next = .ok g → c ∈ σ.fabric.candidatesFor slot →
            SelectionEngine.exclusion c svc σ.fabric.domains (σ.fabric.buildContext slot) = none →
              c.state.checkpointed svc = true) ∧
      (Transition.Reachable (machine env) (fun σ l => checkpointing env σ l = true) σ →
        ∀ i a, σ.attemptAt i = some a → σ.fabric.commits a = true →
          (committed a).target = a.selected.facts.target ∧
            (committed a).workerBoot = a.selected.facts.workerBoot ∧
            ∀ svc, σ.fabric.serviceForSlot a.slot = some svc → a.selected.state.MeetsFloor svc) := by
  refine ⟨returned_floor_iff env σ.fabric, fun h i a ha hcommits => ?_⟩
  have hverifying : a.stage = .verifying := by
    simp only [Fabric.commits, Bool.and_eq_true, beq_iff_eq] at hcommits
    exact hcommits.1.1
  obtain ⟨⟨htarget, hboot⟩, svc, hsvc, hfloor⟩ :=
    holds_of_acting (floorsMet_reachable h i a ha) (Or.inl hverifying)
  refine ⟨htarget, hboot, fun svc' hsvc' => ?_⟩
  cases hsvc.symm.trans hsvc'
  exact hfloor

namespace Reference

/-- A cutover to target 2 with a checkpoint of generation 7, up to its commit. -/
def restoredCutover : List Label :=
  .beginPlan (planOf (restorable (some ⟨7⟩)).fabric) ops :: List.replicate 18 (.advance 0 {})

/-- The state in which that cutover commits. -/
def restoredAtCommit : SystemState := (machine env).run (restorable (some ⟨7⟩)) restoredCutover

end Reference

open Reference in
/-- A cutover of the restored service commits, to a candidate with a checkpoint of
generation 7. -/
theorem recovery_point_floor_reference :
    ∃ a, restoredAtCommit.attemptAt 0 = some a ∧ restoredAtCommit.fabric.commits a = true ∧
      a.selected.state.MeetsFloor restoring := by
  have hreach : Transition.Reachable (machine env) (fun σ l => checkpointing env σ l = true)
      restoredAtCommit :=
    .run _ (.run _ (.initial ⟨{}, rfl⟩) (by decide +kernel)) (by decide +kernel)
  have hany : (restoredAtCommit.attemptAt 0).any (restoredAtCommit.fabric.commits ·) = true := by
    decide +kernel
  obtain ⟨a, ha, hcommits⟩ := (Option.any_eq_true _ _).mp hany
  have hslot : (restoredAtCommit.attemptAt 0).all (fun a => a.slot == slot) = true := by
    decide +kernel
  rw [ha, Option.all_some, beq_iff_eq] at hslot
  have hfloor := (recovery_point_floor env restoredAtCommit).2 hreach 0 a ha hcommits
  exact ⟨a, ha, hcommits, hfloor.2.2 restoring (by rw [hslot]; decide +kernel)⟩

open Reference in
/-- **The floor can be missed.**  Target 2 has published complete state without a
checkpoint; the contract asks for generation 5 at least, and target 2 is selected. -/
theorem floor_missed :
    ¬ ∀ σ, Transition.Reachable (machine env) (fun _ _ => True) σ → ∀ slot svc sr e,
      σ.fabric.serviceForSlot slot = some svc → (σ.fabric.select env.rank slot).2 = .ok sr →
        sr.selected = some e → e.state.MeetsFloor svc := by
  intro h
  let σ := restorable none
  obtain ⟨sr, e, hsr, he, hnone⟩ := select_of_test (s := σ.fabric)
    (t := fun e => e.state.checkpointGeneration == none) (by decide +kernel)
  obtain ⟨k, hk, -⟩ := h σ (.run_all _ (.initial ⟨{}, rfl⟩)) slot restoring sr e
    (by decide +kernel) hsr he ⟨5⟩ rfl
  rw [eq_of_beq hnone] at hk
  cases hk

end FailoverFabric
