import FailoverFabric.FailbackGates

/-! # The cooldown of failbacks

`evaluate_failback` compares the clock with the slot's last transition, under a lock that
is given back before the plan is made and long before the commit.  A commit of another
call that falls in between moves the slot without moving the decision.

With a clock that does not go back, the service's cooldown has passed since the slot's
last commit whenever a failback commits that no other commit of its slot has overtaken
since its evaluation (`cooldown_kept`).
-/
namespace FailoverFabric
open Fabric

namespace Fabric
variable {s : Fabric} {rd : Readings} {a : Attempt}

/-- A longer time has more milliseconds. -/
theorem msBetween_mono {t t' u u' : Time} (ht : t' ≤ t) (hu : u ≤ u') :
    msBetween t u ≤ msBetween t' u' :=
  Int.tdiv_le_tdiv (by decide) (Int.sub_le_sub hu ht)

/-- A commit is a transition, and nothing else of an attempt is. -/
theorem attemptStep_lastTransition :
    (s.attemptStep rd a).1.lastTransition =
      if s.commits a then Function.update s.lastTransition a.slot (some rd.now)
      else s.lastTransition := by
  split
  · rename_i hcommits
    simp only [commits, Bool.and_eq_true, beq_iff_eq, Bool.not_eq_true'] at hcommits
    obtain ⟨⟨hst, hverified⟩, hsuper⟩ := hcommits
    simp only [attemptStep, hst, verifyStep, hverified, hsuper]
    rfl
  · rename_i hnot
    by_cases hst : a.stage = .validating
    · rw [attemptStep_validating hst, (validateAttempt_quiet s a).lastTransition]
    · rcases attemptStep_cases rd s a hst with hq | hf | hc
      · rw [hq.fabric.lastTransition]
      · obtain ⟨old, -, hfab⟩ := hf.fence
        rw [hfab, addFencedBoot_eq]
      · exact absurd hc.commits hnot

theorem attemptStep_commit_ended (h : s.commits a = true) :
    (s.attemptStep rd a).2.stage = .returned := by
  simp only [commits, Bool.and_eq_true, beq_iff_eq, Bool.not_eq_true'] at h
  obtain ⟨⟨hst, hverified⟩, hsuper⟩ := h
  simp only [attemptStep, hst, verifyStep, hverified, hsuper]
  rfl

end Fabric

/-! ## The clock and the commits -/

/-- The last reading of the clock, the last commit of each slot, and the failbacks whose
slot has had a commit since their evaluation. -/
structure Cooldowns where
  clock : Option Time := none
  lastCommit : ServiceSlotKey → Option Time := fun _ => none
  overtaken : Nat → Bool := fun _ => false

/-- The attempt that a step of the call advances. -/
def Call.acting : Call → Option Attempt
  | .plan a => some a
  | .failback f =>
    match f.stage with
    | .cutting a => some a
    | _ => none

/-- The slot that a step of call `i` commits to. -/
def commitsTo (σ : SystemState) (i : Nat) : Option ServiceSlotKey :=
  ((σ.calls[i]?).bind Call.acting).bind fun a =>
    if σ.fabric.commits a then some a.slot else none

/-- Call `i` is a failback of the slot. -/
def failsBackTo (σ : SystemState) (slot : ServiceSlotKey) (i : Nat) : Bool :=
  (σ.calls[i]?).any fun
    | .failback f => f.slot == slot
    | .plan _ => false

/-- Call `i` is a failback that evaluates next. -/
def evaluates (σ : SystemState) (i : Nat) : Bool :=
  (σ.calls[i]?).any fun
    | .failback f =>
      match f.stage with
      | .evaluating => true
      | _ => false
    | .plan _ => false

def noteCommits (σ : SystemState) : Label → Cooldowns → Cooldowns
  | .op (.setInitialAssignment now _), h => { h with clock := some now }
  | .op (.publishCandidateFacts now _), h => { h with clock := some now }
  | .advance i rd, h =>
    match commitsTo σ i with
    | some slot =>
      { clock := some rd.later
        lastCommit := Function.update h.lastCommit slot (some rd.now)
        overtaken := fun j => h.overtaken j || failsBackTo σ slot j }
    | none =>
      { h with
        clock := some rd.later
        overtaken :=
          if evaluates σ i then Function.update h.overtaken i false else h.overtaken }
  | _, h => h

/-- The clock does not go back, and nothing is loaded. -/
def timely (h : Cooldowns) : Label → Bool
  | .op (.setInitialAssignment now _) => h.clock.all (· ≤ now)
  | .op (.publishCandidateFacts now _) => h.clock.all (· ≤ now)
  | .op (.load _) => false
  | .advance _ rd => h.clock.all (· ≤ rd.now) && rd.now ≤ rd.later
  | .restart _ => false
  | _ => true

/-! ## Transitions -/

namespace Fabric
variable {env : Env} {rd : Readings} {s : Fabric} {c : Call}

/-- A step of a call enters the time into the transitions of at most one slot. -/
theorem callStep_lastTransition (env : Env) (rd : Readings) (s : Fabric) (c : Call) :
    (s.callStep env rd c).1.lastTransition = s.lastTransition ∨
      ∃ slot, (s.callStep env rd c).1.lastTransition =
        Function.update s.lastTransition slot (some rd.now) := by
  have hattempt : ∀ a, (s.attemptStep rd a).1.lastTransition = s.lastTransition ∨
      ∃ slot, (s.attemptStep rd a).1.lastTransition =
        Function.update s.lastTransition slot (some rd.now) := by
    intro a
    rw [attemptStep_lastTransition]
    split
    · exact Or.inr ⟨a.slot, rfl⟩
    · exact Or.inl rfl
  cases c with
  | plan a => exact hattempt a
  | failback f =>
    show (s.failbackStep env rd f).1.lastTransition = _ ∨ ∃ slot,
      (s.failbackStep env rd f).1.lastTransition = _
    rcases failbackStep_effect env rd s f with ⟨-, -, hfab, -⟩ | ⟨-, hfab, -⟩ | ⟨-, -, hfab, -⟩ |
      ⟨-, -, hfab, -⟩ | ⟨-, hfab, -⟩ | ⟨-, hfab, -⟩ | ⟨-, heq⟩
    · rw [hfab]
      exact Or.inl rfl
    · rw [hfab]
      exact Or.inl rfl
    · rw [hfab]
      exact Or.inl rfl
    · rw [hfab]
      exact Or.inl rfl
    · rw [hfab]
      exact hattempt _
    · rw [hfab, settleFailback]
      split
      · exact Or.inr ⟨f.slot, rfl⟩
      · exact Or.inl rfl
    · rw [heq]
      exact Or.inl rfl

theorem callStep_acting {a : Attempt} (h : c.acting = some a) :
    (s.callStep env rd c).1 = (s.attemptStep rd a).1 := by
  cases c with
  | plan b =>
    cases h
    rfl
  | failback f =>
    simp only [Call.acting] at h
    split at h
    · rename_i b hst
      cases h
      simp only [callStep, failbackStep, hst]
    · cases h

end Fabric

/-- What a commit does to the call that makes it. -/
theorem commitsTo_eq_some {σ : SystemState} {i : Nat} {slot : ServiceSlotKey}
    (h : commitsTo σ i = some slot) :
    ∃ c a, σ.calls[i]? = some c ∧ c.acting = some a ∧ σ.fabric.commits a = true ∧ a.slot = slot := by
  obtain ⟨a, ha, hcommits⟩ := Option.bind_eq_some_iff.mp h
  obtain ⟨c, hc, hacting⟩ := Option.bind_eq_some_iff.mp ha
  split at hcommits
  · rename_i hcm
    exact ⟨c, a, hc, hacting, hcm, Option.some.inj hcommits⟩
  · cases hcommits

/-! ## The invariant -/

/-- The call has passed its evaluation, and has neither committed nor ended. -/
def Failback.running (f : Failback) : Bool :=
  match f.stage with
  | .reading => true
  | .planning _ => true
  | .cutting _ => true
  | _ => false

/-- A failback that commits is through. -/
theorem commit_not_running (env : Env) (rd : Readings) {σ : SystemState} {i : Nat}
    {slot : ServiceSlotKey} {f : Failback} (h : commitsTo σ i = some slot)
    (hi : σ.calls[i]? = some (.failback f)) :
    (σ.fabric.failbackStep env rd f).2.running = false := by
  obtain ⟨c, a, hc, hacting, hcommits, -⟩ := commitsTo_eq_some h
  cases hi.symm.trans hc
  simp only [Call.acting] at hacting
  split at hacting
  · rename_i b hst
    cases hacting
    simp only [failbackStep, hst, Failback.running, afterAttempt, attemptStep_commit_ended hcommits]
  · cases hacting

theorem running_of_ended {f : Failback} (h : FailbackEnded f) : f.running = false := by
  unfold Failback.running
  rcases h with ⟨a, r, hst⟩ | ⟨a, e, hst⟩ <;> rw [hst]

theorem running_of_cutting {f : Failback} {a : Attempt} (h : f.stage = .cutting a) :
    f.running = true := by
  rw [Failback.running, h]

/-- The cooldown of the slot's service has passed since its last commit. -/
def Waited (s : Fabric) (h : Cooldowns) (slot : ServiceSlotKey) : Prop :=
  ∃ svc, s.serviceForSlot slot = some svc ∧ ∀ t, h.lastCommit slot = some t →
    ∃ c, h.clock = some c ∧ (svc.antiFlapping.cooldownMs.toNat : Int) ≤ msBetween t c

/-- What a step leaves of what has passed. -/
theorem Waited.later {s s' : Fabric} {h h' : Cooldowns} {slot : ServiceSlotKey}
    (hw : Waited s h slot)
    (hsvc : ∀ svc, s.serviceForSlot slot = some svc → s'.serviceForSlot slot = some svc)
    (hcommit : h'.lastCommit slot = h.lastCommit slot)
    (hclock : ∀ c, h.clock = some c → ∃ c', h'.clock = some c' ∧ c ≤ c') : Waited s' h' slot := by
  obtain ⟨svc, hs, hall⟩ := hw
  refine ⟨svc, hsvc svc hs, fun t ht => ?_⟩
  rw [hcommit] at ht
  obtain ⟨c, hc, hle⟩ := hall t ht
  obtain ⟨c', hc', hcc⟩ := hclock c hc
  exact ⟨c', hc', Int.le_trans hle (msBetween_mono (Int.le_refl t) hcc)⟩

/-- **What holds in such a run.** -/
structure Cooled (p : SystemState × Cooldowns) : Prop where
  past : ∀ slot t, p.1.fabric.lastTransition slot = some t → ∃ c, p.2.clock = some c ∧ t ≤ c
  commit : ∀ slot t, p.2.lastCommit slot = some t →
    ∃ t', p.1.fabric.lastTransition slot = some t' ∧ t ≤ t'
  planned : ∀ (i : Nat) f a, p.1.calls[i]? = some (.failback f) → f.stage = .cutting a →
    a.slot = f.slot
  evaluated : ∀ (i : Nat) f, p.1.calls[i]? = some (.failback f) → f.running = true →
    p.2.overtaken i = false → Waited p.1.fabric p.2 f.slot

namespace Cooled
variable {env : Env} {p : SystemState × Cooldowns}

/-- A step outside the calls: the clock and the transitions go on, and no failback gets
past its evaluation. -/
theorem outside (h : Cooled p) {σ' : SystemState} {clock : Option Time}
    (hpast : ∀ slot t, σ'.fabric.lastTransition slot = some t → ∃ c, clock = some c ∧ t ≤ c)
    (hlater : ∀ slot t, p.1.fabric.lastTransition slot = some t →
      ∃ t', σ'.fabric.lastTransition slot = some t' ∧ t ≤ t')
    (hclock : ∀ c, p.2.clock = some c → ∃ c', clock = some c' ∧ c ≤ c')
    (hsvc : ∀ slot svc, p.1.fabric.serviceForSlot slot = some svc →
      σ'.fabric.serviceForSlot slot = some svc)
    (hcalls : ∀ (i : Nat) f, σ'.calls[i]? = some (.failback f) →
      p.1.calls[i]? = some (.failback f) ∨ f.stage = .evaluating) :
    Cooled (σ', { p.2 with clock := clock }) := by
  refine ⟨hpast, fun slot t ht => ?_, fun i f a hf hst => ?_, fun i f hf hrun hover => ?_⟩
  · obtain ⟨t', ht', hle⟩ := h.commit slot t ht
    obtain ⟨t'', ht'', hle'⟩ := hlater slot t' ht'
    exact ⟨t'', ht'', Int.le_trans hle hle'⟩
  · rcases hcalls i f hf with hf | hev
    · exact h.planned i f a hf hst
    · rw [hev] at hst
      cases hst
  · rcases hcalls i f hf with hf | hev
    · exact (h.evaluated i f hf hrun hover).later (hsvc f.slot) rfl hclock
    · rw [Failback.running, hev] at hrun
      cases hrun

theorem clock_le {h : Cooldowns} {now : Time} (hok : h.clock.all (· ≤ now) = true) {c : Time}
    (hc : h.clock = some c) : c ≤ now := by
  rw [hc, Option.all_some, decide_eq_true_eq] at hok
  exact hok

theorem assigned (h : Cooled p) {now : Time} {new : Assignment}
    (hok : timely p.2 (.op (.setInitialAssignment now new)) = true) :
    Cooled (p.1.step env (.op (.setInitialAssignment now new)), { p.2 with clock := some now }) := by
  have hclock : ∀ c, p.2.clock = some c → ∃ c', some now = some c' ∧ c ≤ c' :=
    fun c hc => ⟨now, rfl, clock_le hok hc⟩
  have hpast : ∀ slot t, p.1.fabric.lastTransition slot = some t → t ≤ now := by
    intro slot t ht
    obtain ⟨c, hc, hle⟩ := h.past slot t ht
    exact Int.le_trans hle (clock_le hok hc)
  show Cooled ({ p.1 with fabric := p.1.fabric.orSelf (p.1.fabric.setInitialAssignment now new) }, _)
  cases hs : p.1.fabric.setInitialAssignment now new with
  | error e =>
    exact h.outside (fun slot t ht => ⟨now, rfl, hpast slot t ht⟩)
      (fun _ t ht => ⟨t, ht, Int.le_refl t⟩) hclock (fun _ _ => id) fun _ _ => Or.inl
  | ok s' =>
    obtain ⟨-, hlast, -⟩ := setInitialAssignment_books hs
    refine h.outside (fun slot t ht => ⟨now, rfl, ?_⟩) (fun slot t ht => ?_) hclock
      (fun slot svc hsvc => ?_) fun _ _ => Or.inl
    · have ht : s'.lastTransition slot = some t := ht
      rw [hlast, Function.update_apply] at ht
      split at ht
      · cases ht
        exact Int.le_refl _
      · exact hpast slot t ht
    · show ∃ t', s'.lastTransition slot = some t' ∧ t ≤ t'
      rw [hlast, Function.update_apply]
      split
      · exact ⟨now, rfl, hpast slot t ht⟩
      · exact ⟨t, ht, Int.le_refl t⟩
    · show s'.serviceForSlot slot = some svc
      rw [serviceForSlot, findService, (setInitialAssignment_eq_ok hs).fabric]
      exact hsvc

/-- An operation that is no assignment. -/
theorem applied (h : Cooled p) (hsound : p.1.fabric.services.Sound (·.service)) {o : Op}
    {clock : Option Time} (hassign : ∀ now new, o ≠ .setInitialAssignment now new)
    (hload : ∀ blob, o ≠ .load blob)
    (hclock : ∀ c, p.2.clock = some c → ∃ c', clock = some c' ∧ c ≤ c') :
    Cooled (p.1.step env (.op o), { p.2 with clock := clock }) := by
  have hlast : (p.1.fabric.apply env o).lastTransition = p.1.fabric.lastTransition := by
    rw [apply_apart env p.1.fabric o hassign hload]
  refine h.outside (fun slot t ht => ?_) (fun slot t ht => ⟨t, ?_, Int.le_refl t⟩) hclock
    (fun slot svc hsvc => ?_) fun _ _ => Or.inl
  · have ht : (p.1.fabric.apply env o).lastTransition slot = some t := ht
    rw [hlast] at ht
    obtain ⟨c, hc, hle⟩ := h.past slot t ht
    obtain ⟨c', hc', hcc⟩ := hclock c hc
    exact ⟨c', hc', Int.le_trans hle hcc⟩
  · show (p.1.fabric.apply env o).lastTransition slot = some t
    rw [hlast]
    exact ht
  · show (p.1.fabric.apply env o).findService slot.service = some svc
    by_cases hcreate : ∃ d, o = .createService d
    · obtain ⟨d, rfl⟩ := hcreate
      show (p.1.fabric.orSelf (p.1.fabric.createService d)).findService slot.service = some svc
      cases hs : p.1.fabric.createService d with
      | error e => exact hsvc
      | ok s' => exact createService_find hsound hs hsvc
    · rw [findService, apply_services env p.1.fabric o (fun d he => hcreate ⟨d, he⟩) hload]
      exact hsvc

/-- The evaluation of a failback finds that the cooldown has passed. -/
theorem waited_of_authorizes (h : Cooled p) {rd : Readings} {slot : ServiceSlotKey}
    {svc : ServiceDefinition} {pref : TargetId} {h' : Cooldowns}
    (hauth : Authorizes p.1.fabric rd slot svc pref)
    (hok : p.2.clock.all (· ≤ rd.now) = true) (hlater : rd.now ≤ rd.later)
    (hcommit : h'.lastCommit slot = p.2.lastCommit slot) (hclock : h'.clock = some rd.later) :
    Waited p.1.fabric h' slot := by
  refine ⟨svc, hauth.service, fun t ht => ⟨rd.later, hclock, ?_⟩⟩
  rw [hcommit] at ht
  obtain ⟨t', ht', hle⟩ := h.commit slot t ht
  obtain ⟨c, hc, hpast⟩ := h.past slot t' ht'
  have hnow : t' ≤ rd.now := Int.le_trans hpast (clock_le hok hc)
  have hnonneg : 0 ≤ msBetween t' rd.now := Int.tdiv_nonneg (Int.sub_nonneg_of_le hnow) (by decide)
  have hleft := hauth.cooldown
  rw [cooldownLeft, ht', Option.bind_some] at hleft
  simp only at hleft
  split at hleft
  · cases hleft
  · rename_i hnot
    have hpassed : (svc.antiFlapping.cooldownMs.toNat : Int) ≤ msBetween t' rd.now := by
      by_contra hlt
      exact hnot ⟨hnonneg, Int.lt_of_not_ge hlt⟩
    exact Int.le_trans hpassed (msBetween_mono hle hlater)

/-- A step of a call enters no time before the last transition, and none after the
clock. -/
theorem advance_transition (env : Env) (h : Cooled p) (i : Nat) {rd : Readings}
    (hok : p.2.clock.all (· ≤ rd.now) = true) (hlater : rd.now ≤ rd.later) (slot : ServiceSlotKey) :
    (∀ t, (p.1.step env (.advance i rd)).fabric.lastTransition slot = some t → t ≤ rd.later) ∧
      ∀ t, p.1.fabric.lastTransition slot = some t →
        ∃ t', (p.1.step env (.advance i rd)).fabric.lastTransition slot = some t' ∧ t ≤ t' := by
  have hold : ∀ t, p.1.fabric.lastTransition slot = some t → t ≤ rd.now := by
    intro t ht
    obtain ⟨c, hc, hle⟩ := h.past slot t ht
    exact Int.le_trans hle (clock_le hok hc)
  rcases step_advance_cases env p.1 i rd with hstep | ⟨c, -, hstep⟩
  · rw [hstep]
    exact ⟨fun t ht => Int.le_trans (hold t ht) hlater, fun t ht => ⟨t, ht, Int.le_refl t⟩⟩
  · rw [hstep]
    rcases callStep_lastTransition env rd p.1.fabric c with hsame | ⟨key, hset⟩
    · simp only [hsame]
      exact ⟨fun t ht => Int.le_trans (hold t ht) hlater, fun t ht => ⟨t, ht, Int.le_refl t⟩⟩
    · simp only [hset, Function.update_apply]
      split
      · refine ⟨fun t ht => ?_, fun t ht => ⟨rd.now, rfl, hold t ht⟩⟩
        cases ht
        exact hlater
      · exact ⟨fun t ht => Int.le_trans (hold t ht) hlater, fun t ht => ⟨t, ht, Int.le_refl t⟩⟩

/-- A commit is the last transition of its slot. -/
theorem commit_transition (env : Env) {i : Nat} {rd : Readings} {slot : ServiceSlotKey}
    (hc : commitsTo p.1 i = some slot) :
    (p.1.step env (.advance i rd)).fabric.lastTransition slot = some rd.now := by
  obtain ⟨c, a, hi, hacting, hcommits, rfl⟩ := commitsTo_eq_some hc
  rw [step_advance_some hi, callStep_acting hacting, attemptStep_lastTransition, if_pos hcommits,
    Function.update_self]

/-- What a step of a failback leaves running has waited, or waits on. -/
theorem running_step (h : Cooled p) {i : Nat} {rd : Readings} {f : Failback} {h' : Cooldowns}
    (hi : p.1.calls[i]? = some (.failback f))
    (hok : p.2.clock.all (· ≤ rd.now) = true) (hlater : rd.now ≤ rd.later)
    (hcommit : h'.lastCommit f.slot = p.2.lastCommit f.slot) (hclock : h'.clock = some rd.later)
    (hover : f.stage ≠ .evaluating → p.2.overtaken i = false)
    (hrun : (p.1.fabric.failbackStep env rd f).2.running = true) :
    Waited p.1.fabric h' f.slot := by
  have hon : f.running = true → Waited p.1.fabric h' f.slot := by
    intro hf
    have hst : f.stage ≠ .evaluating := by
      intro hst
      rw [Failback.running, hst] at hf
      cases hf
    refine (h.evaluated i f hi hf (hover hst)).later (fun _ => id) hcommit fun c hc => ?_
    exact ⟨rd.later, hclock, Int.le_trans (clock_le hok hc) hlater⟩
  rcases failbackStep_effect env rd p.1.fabric f with ⟨-, hauth, -, -⟩ | ⟨hst, -, -⟩ |
    ⟨hst, -, -, -⟩ | ⟨-, -, -, hend⟩ | ⟨hst, -, -⟩ | ⟨-, -, hend⟩ | ⟨hend, heq⟩
  · exact h.waited_of_authorizes hauth hok hlater hcommit hclock
  · exact hon (by rw [Failback.running, hst])
  · exact hon (by rw [Failback.running, hst])
  · rw [running_of_ended hend] at hrun
    cases hrun
  · exact hon (by rw [Failback.running, hst])
  · rw [running_of_ended hend] at hrun
    cases hrun
  · rw [heq, running_of_ended hend] at hrun
    cases hrun

/-- The plan that a failback cuts over to is for its slot. -/
theorem planned_step (h : Cooled p) {i : Nat} {rd : Readings} {f : Failback} {a : Attempt}
    (hi : p.1.calls[i]? = some (.failback f))
    (hst : (p.1.fabric.failbackStep env rd f).2.stage = .cutting a) : a.slot = f.slot := by
  rcases failbackStep_effect env rd p.1.fabric f with ⟨-, -, -, hst'⟩ | ⟨-, -, hst'⟩ |
    ⟨-, hplan, -, hst'⟩ | ⟨-, -, -, hend⟩ | ⟨hbefore, -, hst'⟩ | ⟨-, -, hend⟩ | ⟨hend, heq⟩
  · rw [hst'] at hst
    cases hst
  · rw [hst'] at hst
    cases hst
  · rw [hst'] at hst
    cases hst
    exact (planFailoverPref_selected hplan).1
  · exact absurd (running_of_cutting hst) (Bool.eq_false_iff.mp (running_of_ended hend))
  · rw [hst', afterAttempt] at hst
    split at hst
    · cases hst
    · cases hst
    · cases hst
      rw [Attempt.slot, attemptStep_plan]
      exact h.planned i f _ hi hbefore
  · exact absurd (running_of_cutting hst) (Bool.eq_false_iff.mp (running_of_ended hend))
  · rw [heq] at hst
    exact absurd (running_of_cutting hst) (Bool.eq_false_iff.mp (running_of_ended hend))

/-- The last commit of a slot after a step of a call. -/
theorem noteCommits_lastCommit (σ : SystemState) (i : Nat) (rd : Readings) (h : Cooldowns)
    (slot : ServiceSlotKey) :
    (noteCommits σ (.advance i rd) h).lastCommit slot =
      if commitsTo σ i = some slot then some rd.now else h.lastCommit slot := by
  simp only [noteCommits]
  cases hc : commitsTo σ i with
  | none => exact (if_neg fun he => (by cases he)).symm
  | some key =>
    show Function.update h.lastCommit key (some rd.now) slot = _
    rw [Function.update_apply]
    by_cases hkey : slot = key
    · rw [if_pos hkey, if_pos (by rw [hkey])]
    · rw [if_neg hkey, if_neg fun he => hkey (Option.some.inj he).symm]

/-- A failback that another call's step does not overtake. -/
theorem unovertaken_of_kept {σ : SystemState} {i j : Nat} {rd : Readings} {h : Cooldowns}
    {g : Failback} (hij : j ≠ i ∨ σ.calls[i]? = none) (hg : σ.calls[j]? = some (.failback g))
    (hover : (noteCommits σ (.advance i rd) h).overtaken j = false) :
    h.overtaken j = false ∧ commitsTo σ i ≠ some g.slot := by
  simp only [noteCommits] at hover
  cases hc : commitsTo σ i with
  | none =>
    simp only [hc] at hover
    refine ⟨?_, fun he => (by cases he)⟩
    rcases hij with hne | hnone
    · split at hover
      · rwa [Function.update_of_ne hne] at hover
      · exact hover
    · rw [evaluates, hnone, Option.any_none] at hover
      exact hover
  | some key =>
    simp only [hc, Bool.or_eq_false_iff] at hover
    refine ⟨hover.1, fun he => ?_⟩
    cases he
    have hself : failsBackTo σ g.slot j = true := by
      rw [failsBackTo, hg, Option.any_some]
      exact beq_self_eq_true g.slot
    rw [hself] at hover
    cases hover.2

/-- What is running after its own step has not committed, and was overtaken only before
its evaluation. -/
theorem unovertaken_of_stepped {σ : SystemState} {i : Nat} {rd : Readings} {h : Cooldowns}
    {f : Failback} (hi : σ.calls[i]? = some (.failback f))
    (hrun : (σ.fabric.failbackStep env rd f).2.running = true)
    (hover : (noteCommits σ (.advance i rd) h).overtaken i = false) :
    commitsTo σ i = none ∧ (f.stage ≠ .evaluating → h.overtaken i = false) := by
  have hnone : commitsTo σ i = none := by
    cases hc : commitsTo σ i with
    | none => rfl
    | some key =>
      rw [commit_not_running env rd hc hi] at hrun
      cases hrun
  refine ⟨hnone, fun hst => ?_⟩
  have hnot : evaluates σ i = false := by
    simp only [evaluates, hi, Option.any_some]
  simp only [noteCommits, hnone, hnot] at hover
  exact hover

/-- A step of a call. -/
theorem advance (h : Cooled p) {i : Nat} {rd : Readings}
    (hok : timely p.2 (.advance i rd) = true) :
    Cooled (p.1.step env (.advance i rd), noteCommits p.1 (.advance i rd) p.2) := by
  simp only [timely, Bool.and_eq_true, decide_eq_true_eq] at hok
  obtain ⟨hok, hlater⟩ := hok
  have hservice : ∀ slot svc, p.1.fabric.serviceForSlot slot = some svc →
      (p.1.step env (.advance i rd)).fabric.serviceForSlot slot = some svc := by
    intro slot svc hsvc
    rw [serviceForSlot, findService, (advance_confined env p.1 i rd).services]
    exact hsvc
  have hclock : (noteCommits p.1 (.advance i rd) p.2).clock = some rd.later := by
    simp only [noteCommits]
    split <;> rfl
  refine ⟨fun slot t ht => ⟨rd.later, hclock, ?_⟩, fun slot t ht => ?_, fun j g a hg hst => ?_,
    fun j g hg hrun hover => ?_⟩
  · exact (h.advance_transition env i hok hlater slot).1 t ht
  · rw [noteCommits_lastCommit] at ht
    split at ht
    · rename_i hc
      cases ht
      exact ⟨rd.now, commit_transition env hc, Int.le_refl _⟩
    · obtain ⟨t', ht', hle⟩ := h.commit slot t ht
      obtain ⟨t'', ht'', hle'⟩ := (h.advance_transition env i hok hlater slot).2 t' ht'
      exact ⟨t'', ht'', Int.le_trans hle hle'⟩
  · rcases advance_calls env hg with ⟨-, hg⟩ | ⟨f, rfl, hf, rfl⟩
    · exact h.planned j g a hg hst
    · rw [failbackStep_slot]
      exact h.planned_step hf hst
  · have hsame : commitsTo p.1 i ≠ some g.slot →
        (noteCommits p.1 (.advance i rd) p.2).lastCommit g.slot = p.2.lastCommit g.slot := by
      intro hne
      rw [noteCommits_lastCommit, if_neg hne]
    rcases advance_calls env hg with ⟨hij, hg⟩ | ⟨f, rfl, hf, rfl⟩
    · obtain ⟨hover, hne⟩ := unovertaken_of_kept hij hg hover
      refine (h.evaluated j g hg hrun hover).later (hservice g.slot) (hsame hne) fun c hc => ?_
      exact ⟨rd.later, hclock, Int.le_trans (clock_le hok hc) hlater⟩
    · obtain ⟨hnone, hover⟩ := unovertaken_of_stepped hf hrun hover
      rw [failbackStep_slot] at hsame ⊢
      have hwaited := h.running_step hf hok hlater (hsame fun he => (by cases hnone.symm.trans he))
        hclock hover hrun
      exact hwaited.later (hservice f.slot) rfl fun c hc => ⟨c, hc, Int.le_refl c⟩

/-- **One step of such a run.** -/
theorem step (h : Cooled p) (hsound : p.1.fabric.services.Sound (·.service)) {l : Label}
    (hok : timely p.2 l = true) : Cooled (p.1.step env l, noteCommits p.1 l p.2) := by
  have hsame : ∀ c, p.2.clock = some c → ∃ c', p.2.clock = some c' ∧ c ≤ c' :=
    fun c hc => ⟨c, hc, Int.le_refl c⟩
  cases l with
  | op o =>
    by_cases hassign : ∃ now new, o = .setInitialAssignment now new
    · obtain ⟨now, new, rfl⟩ := hassign
      exact h.assigned hok
    by_cases hfacts : ∃ now f, o = .publishCandidateFacts now f
    · obtain ⟨now, f, rfl⟩ := hfacts
      exact h.applied hsound (fun _ _ he => (by cases he)) (fun _ he => (by cases he))
        fun c hc => ⟨now, rfl, clock_le hok hc⟩
    have hnote : noteCommits p.1 (.op o) p.2 = p.2 := by
      cases o <;> first | rfl | exact absurd ⟨_, _, rfl⟩ hassign | exact absurd ⟨_, _, rfl⟩ hfacts
    rw [hnote]
    refine h.applied hsound (fun now new he => hassign ⟨now, new, he⟩) (fun blob he => ?_) hsame
    subst he
    cases hok
  | beginPlan plan ops =>
    refine h.outside h.past (fun _ t ht => ⟨t, ht, Int.le_refl t⟩) hsame (fun _ _ => id)
      fun i f hf => ?_
    rcases getElem?_concat_cases hf with hf | ⟨-, heq⟩
    · exact Or.inl hf
    · cases heq
  | beginFailback slot ops =>
    refine h.outside h.past (fun _ t ht => ⟨t, ht, Int.le_refl t⟩) hsame (fun _ _ => id)
      fun i f hf => ?_
    rcases getElem?_concat_cases hf with hf | ⟨-, heq⟩
    · exact Or.inl hf
    · cases heq
      exact Or.inr rfl
  | advance i rd => exact h.advance hok
  | restart cfg => cases hok

end Cooled

/-- **The cooldown is kept.**  In every run with a clock that does not go back: when the
next step of a failback commits, and the slot has had no other commit since the
evaluation of the failback, the cooldown of the slot's service has passed since the
slot's last commit. -/
theorem cooldown_kept (env : Env) {p : SystemState × Cooldowns}
    (h : Transition.Reachable ((machine env).withHistory {} noteCommits)
      (fun p l => timely p.2 l = true) p)
    {i : Nat} {f : Failback} {slot : ServiceSlotKey} (hi : p.1.calls[i]? = some (.failback f))
    (hcommits : commitsTo p.1 i = some slot) (hover : p.2.overtaken i = false) {rd : Readings}
    (htimely : timely p.2 (.advance i rd) = true) :
    ∀ svc t, p.1.fabric.serviceForSlot slot = some svc → p.2.lastCommit slot = some t →
      (svc.antiFlapping.cooldownMs.toNat : Int) ≤ msBetween t rd.now := by
  have hinv : Cooled p := by
    refine h.invariant ?_ fun p l hr hp hok => hp.step (services_sound hr.fst) hok
    rintro ⟨σ, c⟩ ⟨⟨cfg, rfl⟩, rfl⟩
    exact ⟨fun _ _ ht => (by cases ht), fun _ _ ht => (by cases ht),
      fun _ _ _ hf => (by cases hf), fun _ _ hf => (by cases hf)⟩
  obtain ⟨c, a, hc, hacting, -, rfl⟩ := commitsTo_eq_some hcommits
  cases hi.symm.trans hc
  have hst : f.stage = .cutting a := by
    simp only [Call.acting] at hacting
    split at hacting
    · rename_i b hst
      cases hacting
      exact hst
    · cases hacting
  intro svc t hsvc ht
  rw [hinv.planned i f a hi hst] at hsvc ht
  obtain ⟨svc', hsvc', hall⟩ := hinv.evaluated i f hi (running_of_cutting hst) hover
  obtain ⟨c, hc, hle⟩ := hall t ht
  cases hsvc.symm.trans hsvc'
  simp only [timely, Bool.and_eq_true] at htimely
  exact Int.le_trans hle (msBetween_mono (Int.le_refl t) (Cooled.clock_le htimely.1 hc))

namespace Reference

/-- The service of the reference deployment, with a cooldown of five seconds. -/
def cooling : ServiceDefinition :=
  { returning with antiFlapping := { cooldownMs := 5000, hysteresisMs := 0 } }

/-- Ten seconds after the start. -/
def tenSeconds : Readings := { now := 10000000000, later := 10000000000 }

/-- The slot has failed over to target 2, and target 3 is ready. -/
def thirdReady : List Label :=
  (.createService cooling :: setup.tail).map .op ++
    callOf 0 (planOf (after (.createService cooling :: setup.tail))) ++
    [.op (.registerTarget ⟨3⟩ []), .op (.publishCandidateFacts 0 (facts 3 33))]

/-- Target 1 is back, and a failback has been evaluated. -/
def failbackEvaluated : List Label :=
  thirdReady ++ [.op (.registerTarget ⟨1⟩ []), .op (.publishCandidateFacts 0 (facts 1 12)),
    .beginFailback slot ops, .advance 1 tenSeconds]

/-- The failback goes on to its commit. -/
def failbackGoesOn : List Label := List.replicate 20 (.advance 1 tenSeconds)

/-- A failover to target 3, planned before target 1 was back. -/
def failsOverToThird : List Label :=
  .beginPlan (planOf ((machine env).run { fabric := {} } thirdReady).fabric) ops ::
    List.replicate 19 (.advance 2 tenSeconds)

def cooledRun (ls : List Label) : SystemState × Cooldowns :=
  ((machine env).withHistory {} noteCommits).run ({ fabric := {} }, {}) ls

/-- The failback commits next, after a commit at `t`. -/
abbrev AboutToCommit (p : SystemState × Cooldowns) (t : Time) : Prop :=
  failsBackTo p.1 slot 1 = true ∧ commitsTo p.1 1 = some slot ∧
    timely p.2 (.advance 1 tenSeconds) = true ∧ p.1.fabric.serviceForSlot slot = some cooling ∧
    p.2.lastCommit slot = some t

end Reference

theorem failback_of_failsBackTo {σ : SystemState} {slot : ServiceSlotKey} {i : Nat}
    (h : failsBackTo σ slot i = true) : ∃ f, σ.calls[i]? = some (.failback f) := by
  obtain ⟨c, hc, hslot⟩ := (Option.any_eq_true _ _).mp h
  cases c with
  | plan a => cases hslot
  | failback f => exact ⟨f, hc⟩

open Reference in
/-- The failback commits ten seconds after the failover. -/
theorem cooldown_kept_reference :
    (cooledRun (failbackEvaluated ++ failbackGoesOn)).2.lastCommit slot = some 0 ∧
      (cooling.antiFlapping.cooldownMs.toNat : Int) ≤ msBetween 0 tenSeconds.now := by
  have hreach : Transition.Reachable ((machine env).withHistory {} noteCommits)
      (fun p l => timely p.2 l = true) (cooledRun (failbackEvaluated ++ failbackGoesOn)) :=
    Transition.Reachable.run (b := fun (p : SystemState × Cooldowns) l => timely p.2 l) _
      (.initial ⟨⟨{}, rfl⟩, rfl⟩) (by decide +kernel)
  obtain ⟨⟨hback, hcommits, htimely, hsvc, hlast⟩, hover⟩ :
      AboutToCommit (cooledRun (failbackEvaluated ++ failbackGoesOn)) 0 ∧
        (cooledRun (failbackEvaluated ++ failbackGoesOn)).2.overtaken 1 = false := by
    decide +kernel
  obtain ⟨f, hf⟩ := failback_of_failsBackTo hback
  exact ⟨hlast, cooldown_kept env hreach hf hcommits hover htimely cooling 0 hsvc hlast⟩

open Reference in
/-- **A failback right after a failover.**  A failback is evaluated ten seconds after the
last commit; a failover commits; and the failback commits at the same moment. -/
theorem cooldown_missed :
    ¬ ∀ p, Transition.Reachable ((machine env).withHistory {} noteCommits)
        (fun p l => timely p.2 l = true) p →
      ∀ (i : Nat) f slot, p.1.calls[i]? = some (.failback f) → commitsTo p.1 i = some slot →
        ∀ rd, timely p.2 (.advance i rd) = true →
          ∀ svc t, p.1.fabric.serviceForSlot slot = some svc → p.2.lastCommit slot = some t →
            (svc.antiFlapping.cooldownMs.toNat : Int) ≤ msBetween t rd.now := by
  intro h
  have hreach : Transition.Reachable ((machine env).withHistory {} noteCommits)
      (fun p l => timely p.2 l = true)
      (cooledRun (failbackEvaluated ++ failsOverToThird ++ failbackGoesOn)) :=
    Transition.Reachable.run (b := fun (p : SystemState × Cooldowns) l => timely p.2 l) _
      (.initial ⟨⟨{}, rfl⟩, rfl⟩) (by decide +kernel)
  obtain ⟨hback, hcommits, htimely, hsvc, hlast⟩ : AboutToCommit
      (cooledRun (failbackEvaluated ++ failsOverToThird ++ failbackGoesOn)) 10000000000 := by
    decide +kernel
  obtain ⟨f, hf⟩ := failback_of_failsBackTo hback
  have hpassed := h _ hreach 1 f slot hf hcommits tenSeconds htimely cooling 10000000000 hsvc hlast
  exact absurd hpassed (by decide)

end FailoverFabric
