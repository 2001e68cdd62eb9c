import FailoverFabric.Effects

/-! # The barrier of a cutover

`set_cutover_barrier` makes `execute_plan` stop at a milestone, so that the coordinator
can be ended and restarted there.  The barrier is compared where the transaction takes a
checkpoint, and the transaction takes none at `REPLACEMENT_AUTHORIZED`: it reaches that
milestone and the next one together, once the activation is acknowledged.

`barrier_stops_iff` says for which barriers, states, plans and outcomes the call stops at
its barrier.  Its proof follows the call from one checkpoint to the next.
-/
namespace FailoverFabric

/-- The place of a milestone among all of them. -/
def Milestone.order (m : Milestone) : Nat := (Persistence.ByteEnum.toByte m).toNat

theorem Milestone.order_inj {m k : Milestone} (h : m.order = k.order) : m = k := by
  cases m <;> cases k <;> first | rfl | exact absurd h (by decide)

namespace Fabric

/-- A call that was to stop at a milestone: it has not completed, every slot has the
assignment it had, and what it reports to have reached is not past the milestone.  A call
that throws reports nothing. -/
structure StopsAt (m : Milestone) (s : Fabric) (r : Fabric × Attempt) : Prop where
  notCompleted : ¬ r.2.Completed
  current : ∀ key, r.1.currentAssignment key = s.currentAssignment key
  reached : r.2.stage = .returned → r.2.result.reached.order ≤ m.order

/-! ## What a call finds on its way -/

/-- The outcome of the fence lets the call go on. -/
def fencePermits (a : Attempt) : Bool :=
  !(fenceOutcome a).fencingUnproven && (fenceOutcome a).applied

/-- The fabric at the checkpoint after the fence. -/
def fenceRecorded (s : Fabric) (a : Attempt) : Fabric :=
  ((s.recordTxn .intentOnly a).fenceOldBoot a).recordTxn .oldAdmissionFenced a

/-- The fabric at the checkpoint after the activation. -/
def activationRecorded (s : Fabric) (a : Attempt) : Fabric :=
  (s.fenceRecorded a).recordTxn .activationAcknowledged a

/-- The fabric at the checkpoint after the installation of the route. -/
def routeRecorded (s : Fabric) (a : Attempt) : Fabric :=
  let t := s.activationRecorded a
  recordTxn { t with routes := (t.routes.install (t.composeRoute a).route).1 } .routeInstalled
    (t.composeRoute a)

/-- What a call needs to return past its activation: a plan that is accepted, a fence and
an activation that succeed, and that no checkpoint on the way fails to be saved.  The
attempt and the fabric are those that the validation leaves. -/
structure PassesActivation (rd : Nat → Readings) (ops : CutoverOps) (s : Fabric) (a : Attempt) :
    Prop where
  accepted : a.stage = .recording .intentOnly
  intentSaved : (s.recordTxn .intentOnly a).savesCheckpoint (rd 16) = true
  fenced : fencePermits a = true
  fenceSaved : (s.fenceRecorded a).savesCheckpoint (rd 12) = true
  activated : (ops.activate a.selected ((s.fenceRecorded a).authorizeStep a).auth
    a.newAssign.authorityGeneration).acknowledged = true
  activationSaved : (s.activationRecorded a).savesCheckpoint (rd 7) = true
  routeSaved : (ops.installRoute ((s.activationRecorded a).composeRoute a).route
      (s.activationRecorded a).gatewayBoot).acknowledged = true →
    (s.routeRecorded a).savesCheckpoint (rd 2) = true

/-- The call returns past its activation, unless the barrier stops it. -/
def GoesThrough (rd : Nat → Readings) (s : Fabric) (plan : FailoverPlan) (ops : CutoverOps) :
    Prop :=
  PassesActivation rd ops (s.validateAttempt { plan := plan, ops := ops }).1
    (s.validateAttempt { plan := plan, ops := ops }).2

/-! ## The parts of a call

Each rule follows one part of a call: what is to hold of the call when it ends holds if it
holds of every way in which this part may go. -/

section Rules
variable {P : Attempt → Prop} {rd : Nat → Readings} {n : Nat} {s : Fabric} {a : Attempt}

/-- The call has returned short of completion, with what it had reached. -/
structure ReturnedAt (a b : Attempt) : Prop where
  stage : b.stage = .returned
  state : b.result.state ≠ .completed
  reached : b.result.reached = a.result.reached

theorem returnedAt_finish {b : Attempt} {st : AttemptState} {detail : Text}
    (hreached : b.result.reached = a.result.reached) (h : st ≠ .completed) :
    ReturnedAt a (b.finish st detail) := ⟨rfl, h, hreached⟩

theorem run_of_ended (hend : Ended a) (h : P a) : P (runAttempt rd n s a).2 := by
  rw [runAttempt_ended n hend]
  exact h

theorem run_of_returned {b : Attempt} (hb : ReturnedAt a b) (h : ∀ b, ReturnedAt a b → P b) :
    P (runAttempt rd n s b).2 := run_of_ended (.inl hb.stage) (h b hb)

/-- A checkpoint. -/
theorem run_checkpoint {m : Milestone} (hst : a.stage = .recording m)
    (hthrew : (s.recordTxn m a).savesCheckpoint (rd (n + 1)) = false → ∀ e, P (a.fail e))
    (hbarrier : s.barrierMilestone = m → ∀ b, ReturnedAt a b → P b)
    (hgo : (s.recordTxn m a).savesCheckpoint (rd (n + 1)) = true → s.barrierMilestone ≠ m →
      ∀ w, P (runAttempt rd n (s.recordTxn m a)
        { a with stage := afterCheckpoint m, written := w }).2) :
    P (runAttempt rd (n + 3) s a).2 := by
  have hrecord : s.attemptStep (rd (n + 2)) a = (s.recordTxn m a, { a with stage := .saving m }) := by
    simp only [attemptStep, hst]
  rw [runAttempt, hrecord, runAttempt]
  show P (runAttempt rd (n + 1) (s.recordTxn m a)
    ((s.recordTxn m a).saveCheckpoint (rd (n + 1)) m { a with stage := .saving m })).2
  cases hsaves : (s.recordTxn m a).savesCheckpoint (rd (n + 1)) with
  | false =>
    obtain ⟨e, he⟩ := saveCheckpoint_fails (a := { a with stage := .saving m }) (m := m) hsaves
    rw [he]
    exact run_of_ended (.inr ⟨e, rfl⟩) (hthrew hsaves e)
  | true =>
    obtain ⟨w, hw⟩ := saveCheckpoint_written (a := { a with stage := .saving m }) (m := m) hsaves
    rw [hw, runAttempt]
    show P (runAttempt rd n (s.recordTxn m a)
      ((s.recordTxn m a).testBarrier m { a with stage := .testing m, written := w })).2
    by_cases hm : s.barrierMilestone = m
    · have hstop : (s.recordTxn m a).testBarrier m { a with stage := .testing m, written := w } =
          Attempt.finish { a with stage := .testing m, written := w } .recoveryRequired _ := if_pos hm
      rw [hstop]
      exact run_of_returned (returnedAt_finish (a := a) rfl (by decide)) (hbarrier hm)
    · have hpass : (s.recordTxn m a).testBarrier m { a with stage := .testing m, written := w } =
          { a with stage := afterCheckpoint m, written := w } := if_neg hm
      rw [hpass]
      exact hgo hsaves hm w

/-- The fence. -/
theorem run_fence (hst : a.stage = .fencing)
    (hrefused : fencePermits a = false → ∀ b, ReturnedAt a b → P b)
    (hgo : fencePermits a = true → ∀ t0, P (runAttempt rd n (s.fenceOldBoot a)
      { a with
        t0 := t0
        stage := .recording .oldAdmissionFenced
        result := { a.result with reached := .oldAdmissionFenced, state := .fencing } }).2) :
    P (runAttempt rd (n + 1) s a).2 := by
  have hstep : s.attemptStep (rd n) a = s.fenceStep (rd n) a := by simp only [attemptStep, hst]
  have houtcome : fenceOutcome { a with t0 := (rd n).now } = fenceOutcome a := rfl
  rw [runAttempt, hstep, fenceStep]
  simp only [houtcome]
  cases hunproven : (fenceOutcome a).fencingUnproven with
  | true =>
    rw [if_pos rfl]
    exact run_of_returned (returnedAt_finish (a := a) rfl (by decide))
      (hrefused (by rw [fencePermits, hunproven]; rfl))
  | false =>
    rw [if_neg (by decide)]
    cases happlied : (fenceOutcome a).applied with
    | false =>
      rw [if_pos rfl]
      exact run_of_returned (returnedAt_finish (a := a) rfl (by decide))
        (hrefused (by rw [fencePermits, happlied, Bool.and_false]))
    | true =>
      rw [if_neg (by decide)]
      exact hgo (by rw [fencePermits, hunproven, happlied]; rfl) _

/-- The authorization and the activation. -/
theorem run_activation (hst : a.stage = .authorizing)
    (hrefused : (a.ops.activate a.selected (s.authorizeStep a).auth
      a.newAssign.authorityGeneration).acknowledged = false → ∀ b, ReturnedAt a b → P b)
    (hgo : (a.ops.activate a.selected (s.authorizeStep a).auth
        a.newAssign.authorityGeneration).acknowledged = true →
      P (runAttempt rd n s
        { a with
          auth := (s.authorizeStep a).auth
          stage := .recording .activationAcknowledged
          result :=
            { a.result with reached := .activationAcknowledged, state := .cuttingOver } }).2) :
    P (runAttempt rd (n + 2) s a).2 := by
  have hstep : s.attemptStep (rd (n + 1)) a = (s, s.authorizeStep a) := by
    simp only [attemptStep, hst]
  rw [runAttempt, hstep, runAttempt]
  show P (runAttempt rd n (s.activateStep (s.authorizeStep a)).1
    (s.activateStep (s.authorizeStep a)).2).2
  cases hack : (a.ops.activate a.selected (s.authorizeStep a).auth
      a.newAssign.authorityGeneration).acknowledged with
  | false =>
    have hstep : s.activateStep (s.authorizeStep a) =
        (_, (s.authorizeStep a).finish .recoveryRequired _) := if_neg (Bool.eq_false_iff.mp hack)
    rw [hstep]
    exact run_of_returned (returnedAt_finish (a := a) rfl (by decide)) (hrefused hack)
  | true =>
    have hstep : s.activateStep (s.authorizeStep a) = _ := if_pos hack
    rw [hstep]
    exact hgo hack

/-- The installation of the route. -/
theorem run_install (hst : a.stage = .composing)
    (hrefused : (a.ops.installRoute (s.composeRoute a).route s.gatewayBoot).acknowledged = false →
      ∀ b, ReturnedAt a b → P b)
    (hgo : (a.ops.installRoute (s.composeRoute a).route s.gatewayBoot).acknowledged = true →
      P (runAttempt rd n { s with routes := (s.routes.install (s.composeRoute a).route).1 }
        { a with
          route := (s.composeRoute a).route
          stage := .recording .routeInstalled
          result := { a.result with reached := .routeInstalled, state := .verifying } }).2) :
    P (runAttempt rd (n + 2) s a).2 := by
  have hstep : s.attemptStep (rd (n + 1)) a = (s, s.composeRoute a) := by
    simp only [attemptStep, hst]
  rw [runAttempt, hstep, runAttempt]
  show P (runAttempt rd n (s.installStep (s.composeRoute a)).1
    (s.installStep (s.composeRoute a)).2).2
  cases hack : (a.ops.installRoute (s.composeRoute a).route s.gatewayBoot).acknowledged with
  | false =>
    have hstep : s.installStep (s.composeRoute a) =
        (_, (s.composeRoute a).finish .recoveryRequired _) := if_neg (Bool.eq_false_iff.mp hack)
    rw [hstep]
    exact run_of_returned (returnedAt_finish (a := a) rfl (by decide)) (hrefused hack)
  | true =>
    have hstep : s.installStep (s.composeRoute a) = _ := if_pos hack
    rw [hstep]
    exact hgo hack

/-- The verification ends the call, at the earliest where it was. -/
theorem run_verification (hst : a.stage = .verifying)
    (hend : ∀ b, b.stage = .returned → b.result.reached = a.result.reached ∨ b.Completed → P b) :
    P (runAttempt rd (n + 1) s a).2 := by
  have hstep : s.attemptStep (rd n) a = s.verifyStep (rd n) a := by simp only [attemptStep, hst]
  rw [runAttempt, hstep, verifyStep]
  split_ifs with hverified hsuperseded
  · exact run_of_ended (.inl rfl) (hend _ rfl (.inl rfl))
  · exact run_of_ended (.inl rfl) (hend _ rfl (.inl rfl))
  · exact run_of_ended (.inl rfl) (hend _ rfl (.inr ⟨rfl, rfl⟩))

end Rules

/-! ## The whole call -/

/-- What a call reports is not past the milestone. -/
def Within (m : Milestone) (b : Attempt) : Prop :=
  ¬ b.Completed ∧ (b.stage = .returned → b.result.reached.order ≤ m.order)

variable {rd : Nat → Readings} {ops : CutoverOps} {plan : FailoverPlan} {m : Milestone}
  {s : Fabric} {a : Attempt}

theorem ReturnedAt.within {b : Attempt} (h : ReturnedAt a b)
    (hle : a.result.reached.order ≤ m.order) : Within m b :=
  ⟨fun hc => h.state hc.2, fun _ => h.reached ▸ hle⟩

theorem within_fail (e : Error) : Within m (a.fail e) :=
  ⟨fun hc => (by cases hc.1), fun hst => (by cases hst)⟩

/-- Past the activation is past the milestone that is passed without a checkpoint. -/
theorem not_within {b : Attempt} (hst : b.stage = .returned)
    (h : 3 ≤ b.result.reached.order ∨ b.Completed) : ¬ Within .replacementAuthorized b := by
  rintro ⟨hnot, hle⟩
  rcases h with hpast | hcompleted
  · exact absurd (hpast.trans (hle hst)) (by decide)
  · exact hnot hcompleted

theorem validateAttempt_reached (h : a.result.reached = .intentOnly) :
    (s.validateAttempt a).2.result.reached = .intentOnly := by
  unfold validateAttempt
  split
  · exact h
  simp only
  split
  · rfl
  · rfl
  split
  · rfl
  split
  · exact h
  split
  · rfl
  split
  · exact h
  · rfl

/-- A call that gets past its activation and returns is stopped by the barriers after it,
and by no other. -/
theorem past_activation_iff {b : Attempt} {Passes : Prop} (hpasses : Passes)
    (hst : b.stage = .returned) (hpast : 3 ≤ b.result.reached.order ∨ b.Completed)
    (hlater : m ≠ .replacementAuthorized → Within m b) :
    Within m b ↔ (m ≠ .replacementAuthorized ∨ ¬ Passes) := by
  by_cases hm : m = .replacementAuthorized
  · subst hm
    exact iff_of_false (not_within hst hpast) fun h =>
      h.elim (fun hne => hne rfl) fun hn => hn hpasses
  · exact iff_of_true (hlater hm) (.inl hm)

/-- The call once its activation is acknowledged and recorded, in a fabric with a barrier
that has not stopped it so far.  What it needs to return is that the installed route is
saved. -/
theorem activated_within (hst : a.stage = .composing)
    (hreached : a.result.reached = .activationAcknowledged) (hbarrier : s.barrierMilestone = m)
    (hm : m ≠ .verificationComplete) (hpassed : m ≠ .replacementAuthorized → 4 ≤ m.order) :
    Within m (runAttempt rd 6 s a).2 ↔ (m ≠ .replacementAuthorized ∨
      ¬ ((a.ops.installRoute (s.composeRoute a).route s.gatewayBoot).acknowledged = true →
        (recordTxn { s with routes := (s.routes.install (s.composeRoute a).route).1 } .routeInstalled
          (s.composeRoute a)).savesCheckpoint (rd 2) = true)) := by
  refine run_install (P := fun b => Within m b ↔ _) (n := 4) hst (fun hack b hb => ?_)
    fun hinstalled => ?_
  · have horder : b.result.reached.order = 3 := by
      rw [hb.reached, hreached]
      rfl
    refine past_activation_iff (fun h => absurd (hack.symm.trans h) Bool.false_ne_true) hb.stage
      (.inl horder.ge) fun hne => ⟨fun hc => hb.state hc.2, fun _ => ?_⟩
    have hfour := hpassed hne
    omega
  refine run_checkpoint (P := fun b => Within m b ↔ _) (n := 1) rfl (fun hsave e => ?_)
    (fun hstop b hb => ?_) fun hsaved hroutePassed w => ?_
  · exact iff_of_true (within_fail e)
      (.inr fun h => Bool.false_ne_true (hsave.symm.trans (h hinstalled)))
  · have hne : m ≠ .replacementAuthorized := ne_of_eq_of_ne (hbarrier.symm.trans hstop) (by decide)
    exact iff_of_true (hb.within (hpassed hne)) (.inl hne)
  -- only the milestone without a checkpoint is left
  have honly : m = .replacementAuthorized := by
    by_contra hne
    have hfour := hpassed hne
    have hfive : m.order ≠ 4 := fun h => hroutePassed (hbarrier.trans (Milestone.order_inj h))
    have hsix : m.order ≠ 5 := fun h => hm (Milestone.order_inj h)
    have hlast : m.order ≤ 5 := by cases m <;> decide
    omega
  refine run_verification (P := fun b => Within m b ↔ _) (n := 0) rfl fun b hst hb => ?_
  refine past_activation_iff (fun _ => hsaved) hst (hb.imp_left fun h => ?_)
    fun hne => absurd honly hne
  rw [h]
  exact (by decide : 3 ≤ Milestone.routeInstalled.order)

/-- The call after its validation, in a fabric with the barrier. -/
theorem validated_within (hbarrier : s.barrierMilestone = m) (hm : m ≠ .verificationComplete)
    (haccepted : a.stage = .recording .intentOnly) (hreached : a.result.reached = .intentOnly) :
    Within m (runAttempt rd 18 s a).2 ↔
      (m ≠ .replacementAuthorized ∨ ¬ PassesActivation rd a.ops s a) := by
  have hintent : a.result.reached.order ≤ m.order := by
    rw [hreached]
    exact Nat.zero_le _
  have hkept : ((s.recordTxn .intentOnly a).fenceOldBoot a).barrierMilestone = m := by
    rw [fenceOldBoot_eq]
    exact hbarrier
  -- up to the intent
  refine run_checkpoint (P := fun b => Within m b ↔ _) (n := 15) haccepted
    (fun hsave e => ?_) (fun hstop b hb => ?_) fun hintentSaved hintentPassed w₁ => ?_
  · exact iff_of_true (within_fail e)
      (.inr fun h => Bool.false_ne_true (hsave.symm.trans h.intentSaved))
  · exact iff_of_true (hb.within hintent)
      (.inl (ne_of_eq_of_ne (hbarrier.symm.trans hstop) (by decide)))
  -- up to the fence
  refine run_fence (P := fun b => Within m b ↔ _) (n := 14) rfl (fun hfence b hb => ?_)
    fun hfenced t₀ => ?_
  · exact iff_of_true (hb.within hintent)
      (.inr fun h => Bool.false_ne_true (hfence.symm.trans h.fenced))
  have hone : m.order ≠ 0 := fun h => hintentPassed (hbarrier.trans (Milestone.order_inj h))
  have hfence : Milestone.oldAdmissionFenced.order ≤ m.order := Nat.one_le_iff_ne_zero.mpr hone
  refine run_checkpoint (P := fun b => Within m b ↔ _) (n := 11) rfl (fun hsave e => ?_)
    (fun hstop b hb => ?_) fun hfenceSaved hfencePassed w₂ => ?_
  · exact iff_of_true (within_fail e)
      (.inr fun h => Bool.false_ne_true (hsave.symm.trans h.fenceSaved))
  · exact iff_of_true (hb.within hfence)
      (.inl (ne_of_eq_of_ne (hkept.symm.trans hstop) (by decide)))
  -- up to the activation
  refine run_activation (P := fun b => Within m b ↔ _) (n := 9) rfl (fun hack b hb => ?_)
    fun hactivated => ?_
  · exact iff_of_true (hb.within hfence)
      (.inr fun h => Bool.false_ne_true (hack.symm.trans h.activated))
  have htwo : m.order ≠ 1 := fun h => hfencePassed (hkept.trans (Milestone.order_inj h))
  have hthree : m ≠ .replacementAuthorized → 3 ≤ m.order := by
    intro hne
    have hthird : m.order ≠ 2 := fun h => hne (Milestone.order_inj h)
    have hsecond : 1 ≤ m.order := hfence
    omega
  refine run_checkpoint (P := fun b => Within m b ↔ _) (n := 6) rfl (fun hsave e => ?_)
    (fun hstop b hb => ?_) fun hactivationSaved hactivationPassed w₃ => ?_
  · exact iff_of_true (within_fail e)
      (.inr fun h => Bool.false_ne_true (hsave.symm.trans h.activationSaved))
  · have hne : m ≠ .replacementAuthorized := ne_of_eq_of_ne (hkept.symm.trans hstop) (by decide)
    exact iff_of_true (hb.within (hthree hne)) (.inl hne)
  -- the rest of the call
  have hpasses : PassesActivation rd a.ops s a ↔
      ((a.ops.installRoute ((s.activationRecorded a).composeRoute a).route
        (s.activationRecorded a).gatewayBoot).acknowledged = true →
        (s.routeRecorded a).savesCheckpoint (rd 2) = true) :=
    ⟨fun h => h.routeSaved, fun h =>
      ⟨haccepted, hintentSaved, hfenced, hfenceSaved, hactivated, hactivationSaved, h⟩⟩
  rw [hpasses]
  show Within m (runAttempt rd 6 (s.activationRecorded a) _).2 ↔ _
  refine activated_within rfl rfl hkept hm fun hne => ?_
  have hfourth : m.order ≠ 3 := fun h => hactivationPassed (hkept.trans (Milestone.order_inj h))
  have hthird := hthree hne
  omega

/-- **Which barriers stop a cutover.**  For every barrier but the last milestone, every
state, every plan and all outcomes of the effects, the call stops at its barrier if and
only if the barrier is not `REPLACEMENT_AUTHORIZED`, or the call would not return past its
activation anyway. -/
theorem barrier_stops_iff (rd : Nat → Readings) (s : Fabric) (plan : FailoverPlan)
    (ops : CutoverOps) {m : Milestone} (hm : m ≠ .verificationComplete) :
    StopsAt m s (executePlan rd (s.setCutoverBarrier m) plan ops) ↔
      (m ≠ .replacementAuthorized ∨ ¬ GoesThrough rd (s.setCutoverBarrier m) plan ops) := by
  have hstops : StopsAt m s (executePlan rd (s.setCutoverBarrier m) plan ops) ↔
      Within m (executePlan rd (s.setCutoverBarrier m) plan ops).2 := by
    refine ⟨fun h => ⟨h.notCompleted, h.reached⟩, fun h => ⟨h.1, fun key => ?_, h.2⟩⟩
    have hslots := (executePlan_atomic rd (s.setCutoverBarrier m) plan ops h.1).1
    rw [currentAssignment, findSlot, hslots]
    rfl
  rw [hstops, GoesThrough]
  have hrun : executePlan rd (s.setCutoverBarrier m) plan ops =
      runAttempt rd 18 ((s.setCutoverBarrier m).validateAttempt { plan := plan, ops := ops }).1
        ((s.setCutoverBarrier m).validateAttempt { plan := plan, ops := ops }).2 := rfl
  have hreached := validateAttempt_reached (s := s.setCutoverBarrier m)
    (a := { plan := plan, ops := ops }) rfl
  have hops := (validateAttempt_old (s.setCutoverBarrier m) { plan := plan, ops := ops }).1
  rw [hrun]
  cases haccepts : (s.setCutoverBarrier m).accepts plan ops with
  | false =>
    obtain ⟨hend, hnot⟩ := not_accepts haccepts
    rw [runAttempt_ended 18 hend]
    refine iff_of_true ⟨hnot, fun _ => ?_⟩ (.inr fun h => ?_)
    · rw [hreached]
      exact Nat.zero_le _
    · exact Bool.false_ne_true (haccepts.symm.trans (beq_iff_eq.mpr h.accepted))
  | true =>
    have hbarrier : ((s.setCutoverBarrier m).validateAttempt
        { plan := plan, ops := ops }).1.barrierMilestone = m := by
      rw [validateAttempt_quiet]
      rfl
    have hwithin : Within m (runAttempt rd 18 _ _).2 ↔ _ :=
      validated_within hbarrier hm (beq_iff_eq.mp haccepts) hreached
    rwa [hops] at hwithin

/-- The reference deployment, with a barrier after the activation. -/
theorem barrier_stops_reference :
    StopsAt .activationAcknowledged (Reference.after Reference.setup)
      (executePlan (fun _ => {})
        ((Reference.after Reference.setup).setCutoverBarrier .activationAcknowledged)
        (Reference.planOf (Reference.after Reference.setup)) Reference.ops) :=
  (barrier_stops_iff _ _ _ _ (by decide)).mpr (.inl (by decide))

/-- **A barrier that stops nothing**: with the barrier at `REPLACEMENT_AUTHORIZED` the
reference cutover completes. -/
theorem barrier_passed :
    (executePlan (fun _ => {})
      ((Reference.after Reference.setup).setCutoverBarrier .replacementAuthorized)
      (Reference.planOf (Reference.after Reference.setup)) Reference.ops).2.Completed ∧
    ¬ ∀ (rd : Nat → Readings) (s : Fabric) (plan : FailoverPlan) (ops : CutoverOps) (m : Milestone),
      m ≠ .verificationComplete → StopsAt m s (executePlan rd (s.setCutoverBarrier m) plan ops) := by
  have hcompleted : (executePlan (fun _ => {})
      ((Reference.after Reference.setup).setCutoverBarrier .replacementAuthorized)
      (Reference.planOf (Reference.after Reference.setup)) Reference.ops).2.Completed := by
    decide +kernel
  exact ⟨hcompleted, fun h => (h _ _ _ _ _ (by decide)).notCompleted hcompleted⟩

end Fabric
end FailoverFabric
