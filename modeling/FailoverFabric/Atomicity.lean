import FailoverFabric.Fabric.Progress
import FailoverFabric.Machine

/-! # Cutover atomicity

A call of `execute_plan` takes at most nineteen steps (`executePlan_finishes`).
If it does not complete, it leaves the authority state as it found it, except
that the old assignment's boot may have been fenced, and only when the fence was
proven (`executePlan_atomic`).
-/
namespace FailoverFabric

/-- How many steps an attempt can still take from a stage between checkpoints. -/
def Stage.uncheckpointed : Stage → Nat
  | .fencing => 15
  | .authorizing => 11
  | .activating => 10
  | .composing => 6
  | .installing => 5
  | .verifying => 1
  | _ => 0

/-- How many steps an attempt can still take. -/
def Stage.remaining : Stage → Nat
  | .validating => 19
  | .recording m => (Fabric.afterCheckpoint m).uncheckpointed + 3
  | .saving m => (Fabric.afterCheckpoint m).uncheckpointed + 2
  | .testing m => (Fabric.afterCheckpoint m).uncheckpointed + 1
  | st => st.uncheckpointed

namespace Fabric

/-! ## Every call ends -/

theorem remaining_afterCheckpoint (m : Milestone) :
    (afterCheckpoint m).remaining = (afterCheckpoint m).uncheckpointed := by
  cases m <;> rfl

/-- Every stage is closer to the end than the one before it. -/
theorem remaining_next (st : Stage) : st.next.remaining ≤ st.remaining - 1 := by
  cases st with
  | testing m => exact Nat.le_of_eq (remaining_afterCheckpoint m)
  | recording m => exact Nat.le_refl _
  | saving m => exact Nat.le_refl _
  | threw e => exact Nat.le_refl _
  | _ => decide

/-- Every step of a call in progress brings it closer to its end. -/
theorem attemptStep_remaining (rd : Readings) (s : Fabric) (a : Attempt) :
    (s.attemptStep rd a).2.stage.remaining ≤ a.stage.remaining - 1 := by
  rcases attemptStep_next rd s a with hnext | hr | ⟨e, hr⟩
  · rw [hnext]
    exact remaining_next a.stage
  · rw [hr]
    exact Nat.zero_le _
  · rw [hr]
    exact Nat.zero_le _

theorem runAttempt_remaining (rd : Nat → Readings) (n : Nat) (s : Fabric) (a : Attempt) :
    (runAttempt rd n s a).2.stage.remaining ≤ a.stage.remaining - n := by
  induction n generalizing s a with
  | zero => simp [runAttempt]
  | succ n ih =>
    have h1 := attemptStep_remaining (rd n) s a
    have h2 := ih (s.attemptStep (rd n) a).1 (s.attemptStep (rd n) a).2
    simp only [runAttempt]
    omega

theorem ended_of_remaining {a : Attempt} (h : a.stage.remaining = 0) : Ended a := by
  cases hst : a.stage <;> rw [hst] at h <;> simp [Stage.remaining, Stage.uncheckpointed] at h
  · exact Or.inl hst
  · exact Or.inr ⟨_, hst⟩

/-- **Every call of `execute_plan` ends**, for every state, plan and outcome of
the effects. -/
theorem executePlan_finishes (rd : Nat → Readings) (s : Fabric) (plan : FailoverPlan)
    (ops : CutoverOps) : Ended (executePlan rd s plan ops).2 := by
  have h := runAttempt_remaining rd 19 s { plan := plan, ops := ops }
  exact ended_of_remaining (Nat.le_zero.mp h)

/-! ## What an attempt that does not complete leaves behind -/

/-- `s'` has the authority state of `s`, up to the proven fence of the boot that
`a` set out to replace. -/
structure Untouched (s s' : Fabric) (a : Attempt) : Prop where
  slots : s'.slots = s.slots
  services : s'.services = s.services
  lastAuthorityGen : s'.lastAuthorityGen = s.lastAuthorityGen
  preferred : s'.preferred = s.preferred
  lastTransition : s'.lastTransition = s.lastTransition
  fencedBoots : s'.fencedBoots = s.fencedBoots ∨
    ∃ old, FenceProven a old ∧ s'.fencedBoots = s.fencedBoots ++ [old.workerBoot]

theorem FenceProven.congr {a a' : Attempt} {old : Assignment} (h : SameAttempt a a')
    (hf : FenceProven a old) : FenceProven a' old := by
  unfold FenceProven
  rw [h.old, h.ops, h.selected]
  exact hf

theorem Untouched.quiet {s s' s'' : Fabric} {a a' : Attempt} (h : Untouched s s' a)
    (hq : Quiet s' s'') (hs : SameAttempt a a') : Untouched s s'' a' where
  slots := hq.slots.trans h.slots
  services := hq.services.trans h.services
  lastAuthorityGen := hq.lastAuthorityGen.trans h.lastAuthorityGen
  preferred := hq.preferred.trans h.preferred
  lastTransition := hq.lastTransition.trans h.lastTransition
  fencedBoots := by
    rw [hq.fencedBoots]
    exact h.fencedBoots.imp_right fun ⟨old, hf, hb⟩ => ⟨old, hf.congr hs, hb⟩

/-- Recording the proven fence: once more adds nothing. -/
theorem Untouched.fence {s s' : Fabric} {a a' : Attempt} {old : Assignment}
    (h : Untouched s s' a) (hf : FenceProven a old) (hs : SameAttempt a a') :
    Untouched s (s'.addFencedBoot old.workerBoot) a' := by
  have hfields := addFencedBoot_eq s' old.workerBoot
  refine ⟨by rw [hfields]; exact h.slots, by rw [hfields]; exact h.services,
    by rw [hfields]; exact h.lastAuthorityGen, by rw [hfields]; exact h.preferred,
    by rw [hfields]; exact h.lastTransition, ?_⟩
  rcases h.fencedBoots with hb | ⟨old', hf', hb⟩
  · rcases addFencedBoot_boots s' old.workerBoot with hadd | hadd
    · exact Or.inl (hadd.trans hb)
    · exact Or.inr ⟨old, hf.congr hs, by rw [hadd, hb]⟩
  -- the boot was appended before: `addFencedBoot` lists a boot once
  · have hold : old' = old := Option.some.inj (hf'.1.symm.trans hf.1)
    subst hold
    refine Or.inr ⟨old', hf.congr hs, ?_⟩
    have hmem : s'.bootFenced old'.workerBoot = true := by simp [bootFenced, hb]
    simp [addFencedBoot, hmem, hb]

/-- One step of an attempt that does not complete it. -/
theorem Untouched.step {rd : Readings} {s s' : Fabric} {a : Attempt} (h : Untouched s s' a)
    (hst : a.stage ≠ .validating) (hc : ¬ (s'.attemptStep rd a).2.Completed) :
    Untouched s (s'.attemptStep rd a).1 (s'.attemptStep rd a).2 := by
  rcases attemptStep_cases rd s' a hst with hq | hf | hcommit
  · exact h.quiet hq.fabric hq.same
  · obtain ⟨old, hproven, hfab⟩ := hf.fence
    rw [hfab]
    exact h.fence hproven hf.same
  · exact absurd ⟨hcommit.stage, hcommit.state⟩ hc

/-- What validation may set the old assignment to. -/
theorem validateAttempt_old (s : Fabric) (a : Attempt) :
    (s.validateAttempt a).2.ops = a.ops ∧ ((s.validateAttempt a).2.oldAssign = a.oldAssign ∨
      (s.validateAttempt a).2.oldAssign = s.currentAssignment a.slot) := by
  rcases validateAttempt_cases s a with ⟨hacc, -⟩ | ⟨⟨_, _, h⟩, -⟩ | ⟨⟨_, h⟩, -⟩
  · exact ⟨hacc.ops, Or.inr hacc.old⟩
  · rw [h]
    exact ⟨rfl, Or.inl rfl⟩
  · rw [h]
    exact ⟨rfl, Or.inl rfl⟩

/-- A completed call stays as it is. -/
theorem runAttempt_completed (rd : Nat → Readings) (n : Nat) {s : Fabric} {a : Attempt}
    (h : a.Completed) : (runAttempt rd n s a).2.Completed := by
  induction n generalizing s a with
  | zero => exact h
  | succ n ih =>
    have hstep : s.attemptStep (rd n) a = (s, a) := by simp [attemptStep, h.1]
    rw [runAttempt, hstep]
    exact ih h

/-- The run of an attempt after its validation, by induction on the steps. -/
theorem Untouched.run (rd : Nat → Readings) (n : Nat) {s s' : Fabric} {a : Attempt}
    (h : Untouched s s' a) (hst : a.stage ≠ .validating)
    (hc : ¬ (runAttempt rd n s' a).2.Completed) :
    Untouched s (runAttempt rd n s' a).1 (runAttempt rd n s' a).2 ∧
      SameAttempt a (runAttempt rd n s' a).2 := by
  induction n generalizing s' a with
  | zero => exact ⟨h, .refl a⟩
  | succ n ih =>
    have hc' : ¬ (s'.attemptStep (rd n) a).2.Completed :=
      fun hd => hc (runAttempt_completed rd n hd)
    obtain ⟨hu, hsame⟩ := ih (h.step hst hc') (attemptStep_stage (rd n) s' a) hc
    exact ⟨hu, (attemptStep_same (rd n) s' a hst).trans hsame⟩

/-- **Cutover atomicity.**  A call of `execute_plan` that does not complete,
whatever the state, the plan, the barrier and the outcomes of the effects, leaves
the slots, the services, the last authority generation, the preferred targets
and the transition times unchanged; and it leaves the fenced boots unchanged or
appends exactly the old assignment's boot, the latter only if `fence_old`
reported the fence applied and not unproven. -/
theorem executePlan_atomic (rd : Nat → Readings) (s : Fabric) (plan : FailoverPlan)
    (ops : CutoverOps) (h : ¬ (executePlan rd s plan ops).2.Completed) :
    (executePlan rd s plan ops).1.slots = s.slots ∧
      (executePlan rd s plan ops).1.services = s.services ∧
      (executePlan rd s plan ops).1.lastAuthorityGen = s.lastAuthorityGen ∧
      (executePlan rd s plan ops).1.preferred = s.preferred ∧
      (executePlan rd s plan ops).1.lastTransition = s.lastTransition ∧
      ((executePlan rd s plan ops).1.fencedBoots = s.fencedBoots ∨
        ∃ old newBoot, s.currentAssignment plan.slot = some old ∧
          (ops.fenceOld old newBoot).applied = true ∧
          (ops.fenceOld old newBoot).fencingUnproven = false ∧
          (executePlan rd s plan ops).1.fencedBoots = s.fencedBoots ++ [old.workerBoot]) := by
  let a : Attempt := { plan := plan, ops := ops }
  have hrun : executePlan rd s plan ops =
      runAttempt rd 18 (s.validateAttempt a).1 (s.validateAttempt a).2 := rfl
  have hstart : Untouched s (s.validateAttempt a).1 (s.validateAttempt a).2 := by
    have hq := validateAttempt_quiet s a
    exact ⟨hq.slots, hq.services, hq.lastAuthorityGen, hq.preferred, hq.lastTransition,
      Or.inl hq.fencedBoots⟩
  have hstage : (s.validateAttempt a).2.stage ≠ .validating := attemptStep_stage (rd 18) s a
  rw [hrun] at h ⊢
  obtain ⟨hu, hsame⟩ := hstart.run rd 18 hstage h
  refine ⟨hu.slots, hu.services, hu.lastAuthorityGen, hu.preferred, hu.lastTransition, ?_⟩
  refine hu.fencedBoots.imp_right ?_
  rintro ⟨old, ⟨hsome, happlied, hproven⟩, hb⟩
  obtain ⟨hops, hold⟩ := validateAttempt_old s a
  rw [hsame.old] at hsome
  rw [hsame.ops, hops] at happlied hproven
  -- a refused attempt has no old assignment, so it has fenced nothing
  rcases hold with hold | hold
  · rw [hold] at hsome
    cases hsome
  · exact ⟨old, _, hold ▸ hsome, happlied, hproven, hb⟩

/-- The reference deployment with a barrier after activation: the call stops
there, the old boot is fenced, and the slot still has its assignment. -/
theorem executePlan_atomic_barrier :
    let s := (Reference.after Reference.setup).setCutoverBarrier .activationAcknowledged
    let r := executePlan (fun _ => {}) s (Reference.planOf s) Reference.ops
    r.2.result.state = .recoveryRequired ∧ r.1.fencedBoots = [⟨11⟩] ∧ r.1.slots = s.slots ∧
      r.1.lastAuthorityGen = s.lastAuthorityGen := by
  intro s r
  have h := executePlan_atomic (fun _ => {}) s (Reference.planOf s) Reference.ops (by decide +kernel)
  exact ⟨by decide +kernel, by decide +kernel, h.1, h.2.2.1⟩

end Fabric

end FailoverFabric
