import FailoverFabric.Fabric.Steps

/-! # Where an attempt stands

What an attempt in progress has behind it, read off its stage.  It gets past its
fence only by fencing the old boot (`attemptStep_pastFence`); it has a route only
by composing one for its replacement (`attemptStep_composed`); and it gets to its
verification only by offering that route to the table (`attemptStep_routed`),
which may refuse it: the step goes on all the same.
-/
namespace FailoverFabric

namespace Stage
open Fabric

/-- The stage that follows, when the attempt does not end. -/
def next : Stage → Stage
  | validating => recording .intentOnly
  | recording m => saving m
  | saving m => testing m
  | testing m => afterCheckpoint m
  | fencing => recording .oldAdmissionFenced
  | authorizing => activating
  | activating => recording .activationAcknowledged
  | composing => installing
  | installing => recording .routeInstalled
  | verifying => returned
  | returned => returned
  | threw e => threw e

/-- The old boot has been dealt with. -/
def pastFence : Stage → Bool
  | recording m => m != .intentOnly
  | saving m => m != .intentOnly
  | testing m => m != .intentOnly
  | authorizing => true
  | activating => true
  | composing => true
  | installing => true
  | verifying => true
  | _ => false

/-- The route has been offered to the table. -/
def routed : Stage → Bool
  | recording m => afterCheckpoint m == .verifying
  | saving m => afterCheckpoint m == .verifying
  | testing m => afterCheckpoint m == .verifying
  | verifying => true
  | _ => false

/-- The route has been composed. -/
def composed (st : Stage) : Bool := st == .installing || st.routed

theorem pastFence_next {st : Stage} (h : st.next.pastFence = true) :
    st.pastFence = true ∨ st = .fencing := by
  cases st with
  | recording m => exact Or.inl h
  | saving m => exact Or.inl h
  | testing m => cases m <;> first | exact Or.inl rfl | cases h
  | fencing => exact Or.inr rfl
  | validating | returned | threw _ | verifying => cases h
  | _ => exact Or.inl rfl

theorem routed_next {st : Stage} (h : st.next.routed = true) :
    st.routed = true ∨ st = .installing := by
  cases st with
  | recording m => exact Or.inl h
  | saving m => exact Or.inl h
  | testing m => cases m <;> first | exact Or.inl rfl | cases h
  | installing => exact Or.inr rfl
  | _ => cases h

theorem composed_next {st : Stage} (h : st.next.composed = true) :
    st.composed = true ∨ st = .composing := by
  rcases Bool.or_eq_true_iff.mp h with hi | hr
  · cases st with
    | composing => exact Or.inr rfl
    | testing m => cases m <;> cases hi
    | _ => cases hi
  · rcases routed_next hr with hr | hi
    · exact Or.inl (Bool.or_eq_true_iff.mpr (Or.inr hr))
    · exact Or.inl (by rw [hi]; rfl)

/-- Once the route has been offered, it has been until the attempt ends. -/
theorem routed_of_next {st : Stage} (h : st.next.routed = false) (hr : st.routed = true) :
    st.next = .returned := by
  cases st with
  | recording m => exact absurd (hr.symm.trans h) (by decide)
  | saving m => exact absurd (hr.symm.trans h) (by decide)
  | testing m => cases m <;> first | (cases h; done) | cases hr
  | verifying => rfl
  | _ => cases hr

end Stage

namespace Fabric
variable {rd : Readings} {s : Fabric} {a : Attempt}

theorem saveCheckpoint_stage (s : Fabric) (rd : Readings) (m : Milestone) (a : Attempt) :
    (s.saveCheckpoint rd m a).stage = .testing m ∨ Ended (s.saveCheckpoint rd m a) := by
  unfold saveCheckpoint
  split
  · exact Or.inl rfl
  split
  · exact Or.inr (Or.inr ⟨_, rfl⟩)
  · exact Or.inr (Or.inr ⟨_, rfl⟩)
  · exact Or.inl rfl

/-- **The order of the stages.**  A step leads to the next stage, or ends the
attempt. -/
theorem attemptStep_next (rd : Readings) (s : Fabric) (a : Attempt) :
    (s.attemptStep rd a).2.stage = a.stage.next ∨ Ended (s.attemptStep rd a).2 := by
  unfold attemptStep
  cases hst : a.stage with
  | validating =>
    simp only
    rcases validateAttempt_cases s a with ⟨hacc, -⟩ | ⟨⟨_, _, h⟩, -⟩ | ⟨⟨e, h⟩, -⟩
    · exact Or.inl hacc.stage
    · exact Or.inr (Or.inl (by rw [h]; rfl))
    · exact Or.inr (Or.inr ⟨e, by rw [h]; rfl⟩)
  | saving m => exact saveCheckpoint_stage s rd m a
  | testing m =>
    simp only [testBarrier]
    split
    · exact Or.inr (Or.inl rfl)
    · exact Or.inl rfl
  | fencing =>
    simp only [fenceStep]
    split_ifs
    · exact Or.inr (Or.inl rfl)
    · exact Or.inr (Or.inl rfl)
    · exact Or.inl rfl
  | activating =>
    simp only [activateStep]
    split
    · exact Or.inl rfl
    · exact Or.inr (Or.inl rfl)
  | installing =>
    simp only [installStep]
    split
    · exact Or.inl rfl
    · exact Or.inr (Or.inl rfl)
  | verifying =>
    simp only [verifyStep]
    split_ifs <;> exact Or.inl rfl
  | returned => exact Or.inl hst
  | threw e => exact Or.inl hst
  | _ => exact Or.inl rfl

/-- An ended attempt is past nothing. -/
theorem stage_of_ended (h : Ended a) : a.stage.pastFence = false ∧ a.stage.composed = false := by
  rcases h with h | ⟨e, h⟩ <;> rw [h] <;> exact ⟨rfl, rfl⟩

/-- What holds of every attempt in progress, at an attempt that is past its
fence. -/
theorem holds_of_progress {p : Prop} (h : a.stage = .validating ∨ Ended a ∨ p)
    (hst : a.stage.pastFence = true) : p := by
  rcases h with hv | hend | hp
  · rw [hv] at hst
    cases hst
  · rw [(stage_of_ended hend).1] at hst
    cases hst
  · exact hp

/-- An attempt gets past its fence by fencing. -/
theorem attemptStep_pastFence (h : (s.attemptStep rd a).2.stage.pastFence = true) :
    a.stage.pastFence = true ∨
      a.stage = .fencing ∧ (s.attemptStep rd a).1 = s.fenceOldBoot a := by
  rcases attemptStep_next rd s a with hnext | hend
  · rw [hnext] at h
    refine (Stage.pastFence_next h).imp_right fun hst => ⟨hst, ?_⟩
    rw [hst] at hnext
    simp only [attemptStep, hst, fenceStep] at hnext ⊢
    split_ifs at hnext ⊢
    · cases hnext
    · cases hnext
    · rfl
  · rw [(stage_of_ended hend).1] at h
    cases h

/-- The authorization and the route of an attempt change only where they are made. -/
theorem attemptStep_made (rd : Readings) (s : Fabric) (a : Attempt) (h : a.stage ≠ .validating) :
    ((s.attemptStep rd a).2.auth = a.auth ∨ a.stage = .authorizing) ∧
      ((s.attemptStep rd a).2.route = a.route ∨ a.stage = .composing) := by
  unfold attemptStep
  cases hst : a.stage with
  | validating => exact absurd hst h
  | authorizing => exact ⟨Or.inr rfl, Or.inl rfl⟩
  | composing => exact ⟨Or.inl rfl, Or.inr rfl⟩
  | saving m =>
    simp only [saveCheckpoint]
    split
    · exact ⟨Or.inl rfl, Or.inl rfl⟩
    · split <;> exact ⟨Or.inl rfl, Or.inl rfl⟩
  | testing m =>
    simp only [testBarrier]
    split <;> exact ⟨Or.inl rfl, Or.inl rfl⟩
  | fencing =>
    simp only [fenceStep]
    split_ifs <;> exact ⟨Or.inl rfl, Or.inl rfl⟩
  | activating =>
    simp only [activateStep]
    split <;> exact ⟨Or.inl rfl, Or.inl rfl⟩
  | installing =>
    simp only [installStep]
    split <;> exact ⟨Or.inl rfl, Or.inl rfl⟩
  | verifying =>
    simp only [verifyStep]
    split_ifs <;> exact ⟨Or.inl rfl, Or.inl rfl⟩
  | _ => exact ⟨Or.inl rfl, Or.inl rfl⟩

/-- The route of an attempt is the one it composed. -/
theorem attemptStep_composed (h : (s.attemptStep rd a).2.stage.composed = true) :
    (a.stage.composed = true ∧ (s.attemptStep rd a).2.route = a.route) ∨
      a.stage = .composing ∧ (s.attemptStep rd a).2 = s.composeRoute a := by
  rcases attemptStep_next rd s a with hnext | hend
  · rw [hnext] at h
    rcases Stage.composed_next h with hc | hst
    · have hval : a.stage ≠ .validating := fun hv => by rw [hv] at hc; cases hc
      refine Or.inl ⟨hc, (attemptStep_made rd s a hval).2.resolve_right fun hst => ?_⟩
      rw [hst] at hc
      cases hc
    · exact Or.inr ⟨hst, by simp only [attemptStep, hst]⟩
  · rw [(stage_of_ended hend).2] at h
    cases h

/-- The route that was offered is the attempt's own. -/
theorem attemptStep_route (h : (s.attemptStep rd a).2.stage.routed = true) :
    (s.attemptStep rd a).2.route = a.route := by
  have hc : (s.attemptStep rd a).2.stage.composed = true := by
    rw [Stage.composed, h, Bool.or_true]
  rcases attemptStep_composed hc with ⟨-, hroute⟩ | ⟨-, heq⟩
  · exact hroute
  · rw [heq] at h
    cases h

/-- An attempt gets to its verification by offering its route to the table. -/
theorem attemptStep_routed (h : (s.attemptStep rd a).2.stage.routed = true) :
    a.stage.routed = true ∧ (s.attemptStep rd a).1.routes = s.routes ∨
      a.stage = .installing ∧ (a.ops.installRoute a.route s.gatewayBoot).acknowledged = true ∧
        (s.attemptStep rd a).1.routes = (s.routes.install a.route).1 := by
  rcases attemptStep_next rd s a with hnext | hend
  · rw [hnext] at h
    rcases Stage.routed_next h with hc | hst
    · exact (attemptStep_routes rd s a).imp_left fun hr => ⟨hc, hr⟩
    · right
      rw [hst] at hnext
      simp only [attemptStep, hst, installStep] at hnext ⊢
      split at hnext
      · rename_i hack
        exact ⟨trivial, hack, by rw [if_pos hack]⟩
      · cases hnext
  · have := (stage_of_ended hend).2
    rw [Stage.composed, h, Bool.or_true] at this
    cases this

/-! ## The route of the replacement -/

/-- The route permits the assignment: it is of its route generation, names it, and
is for its boot. -/
structure Permits (e : RouteEntry) (a : Assignment) : Prop where
  generation : e.generation = a.routeGeneration
  assignment : e.assignment = a.id
  assignmentGeneration : e.assignmentGeneration = a.generation
  permittedBoot : e.permittedBoot = a.workerBoot

instance (e : RouteEntry) (a : Assignment) : Decidable (Permits e a) :=
  decidable_of_iff (e.generation = a.routeGeneration ∧ e.assignment = a.id ∧
      e.assignmentGeneration = a.generation ∧ e.permittedBoot = a.workerBoot)
    ⟨fun h => ⟨h.1, h.2.1, h.2.2.1, h.2.2.2⟩, fun h => ⟨h.1, h.2, h.3, h.4⟩⟩

/-- A route's state and gateway do not matter for what it permits. -/
theorem Permits.rebound {e : RouteEntry} {a : Assignment} (h : Permits e a) (state : RouteState)
    (boot : GatewayBootId) : Permits { e with state := state, gatewayBoot := boot } a :=
  ⟨h.generation, h.assignment, h.assignmentGeneration, h.permittedBoot⟩

/-- What permits an assignment permits it once it is active. -/
theorem Permits.promoted {e : RouteEntry} {a : Assignment} (h : Permits e a)
    (authority : ServiceAuthorityGeneration) : Permits e
      { a with state := .active, provisory := false, authorityGeneration := authority } :=
  ⟨h.generation, h.assignment, h.assignmentGeneration, h.permittedBoot⟩

/-- The route leads to the assignment: it permits it, under its own route and to its
target. -/
structure LeadsTo (e : RouteEntry) (a : Assignment) : Prop extends Permits e a where
  route : e.route = a.route
  target : e.target = a.target

/-- The attempt's route is an acknowledged one of its slot, and leads to its
replacement. -/
structure Prepared (a : Attempt) : Prop where
  slot : a.route.slot = a.slot
  state : a.route.state = .acknowledged
  leads : LeadsTo a.route a.newAssign

/-- An attempt in progress replaces on the boot it selected, and its route, once
composed, is that of its replacement. -/
structure Consistent (a : Attempt) : Prop where
  boot : a.stage = .validating ∨ Ended a ∨ a.newAssign.workerBoot = a.selected.facts.workerBoot
  route : a.stage.composed = true → Prepared a

theorem Prepared.not_empty (h : Prepared a) : a.route.state ≠ .empty := by
  rw [h.state]
  decide

theorem Prepared.same {a' : Attempt} (h : Prepared a) (hroute : a'.route = a.route)
    (hsame : SameAttempt a a') (hnew : a'.newAssign = a.newAssign) : Prepared a' := by
  refine ⟨?_, ?_, ?_⟩
  · rw [hroute, h.slot, hsame.slot]
  · rw [hroute, h.state]
  · rw [hroute, hnew]
    exact h.leads

theorem consistent_new (plan : FailoverPlan) (ops : CutoverOps) :
    Consistent { plan := plan, ops := ops } := ⟨Or.inl rfl, fun h => by cases h⟩

theorem Consistent.step (h : Consistent a) : Consistent (s.attemptStep rd a).2 := by
  constructor
  · refine attemptStep_new (P := fun a => a.newAssign.workerBoot = a.selected.facts.workerBoot)
      (fun a' _ hacc => (composeAssignment_eq_ok hacc.issued).workerBoot) (fun a' hsame hnew ha => ?_)
      h.boot
    rw [hnew, hsame.selected]
    exact ha
  · intro hc
    rcases attemptStep_composed hc with ⟨hca, hroute⟩ | ⟨hst, heq⟩
    · have hval : a.stage ≠ .validating := fun hv => by rw [hv] at hca; cases hca
      rcases attemptStep_cases rd s a hval with hq | hf | hcommit
      · exact (h.route hca).same hroute hq.same hq.new
      · exact (h.route hca).same hroute hf.same hf.new
      · rw [hcommit.stage] at hc
        cases hc
    -- the route is composed for the selected boot, which is the replacement's
    · have hboot : a.newAssign.workerBoot = a.selected.facts.workerBoot :=
        holds_of_progress h.boot (by rw [hst]; rfl)
      rw [heq]
      exact ⟨rfl, rfl, ⟨rfl, rfl, rfl, hboot.symm⟩, rfl, rfl⟩

end Fabric

end FailoverFabric
