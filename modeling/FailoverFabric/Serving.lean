import FailoverFabric.ExclusiveAssignment

/-! # Whether a completed call serves

The gate checks the slot's record, the epoch, the assignment, the route generation,
the slot's route, the boot and the fences.  A call that runs without interruption
changes several of them and checks none of them again before it returns
`COMPLETED`.  `completed_serves_iff` says for which states and plans the committed
assignment passes the gate, and `completed_refused` has a plan of the fabric's own
for which it does not.
-/
namespace FailoverFabric
open Fabric

/-! ## An uninterrupted call -/

/-- What validation found in the state that the call began in. -/
structure Found (s0 : Fabric) (plan : FailoverPlan) (a : Attempt) : Prop where
  old : a.oldAssign = s0.currentAssignment plan.slot
  slot : a.newAssign.slot = plan.slot
  routeGeneration : a.newAssign.routeGeneration = plan.requestedRouteGeneration
  wanted : ∃ w, plan.selected = some w ∧ a.newAssign.workerBoot = w.facts.workerBoot
  unfenced : a.newAssign.workerBoot ∉ s0.fencedBoots

/-- **A call in progress**, in terms of the state that it began in. -/
structure Executing (s0 : Fabric) (plan : FailoverPlan) (s : Fabric) (a : Attempt) : Prop where
  planned : a.plan = plan
  slots : s.slots = s0.slots
  epoch : s.epoch = s0.epoch
  found : a.stage = .validating ∨ Ended a ∨ Found s0 plan a
  fences : ∀ b ∈ s0.fencedBoots, b ∈ s.fencedBoots
  fenced : ∀ b ∈ s.fencedBoots, b ∈ s0.fencedBoots ∨
    b ≠ .null ∧ (s0.currentAssignment plan.slot).map (·.workerBoot) = some b
  consistent : Consistent a
  routeEpoch : a.stage.composed = true → a.route.epoch = s0.epoch
  unrouted : a.stage.routed = false → s.routes = s0.routes
  routed : a.stage.routed = true → s.routes = (s0.routes.install a.route).1

theorem Executing.begin (s0 : Fabric) (plan : FailoverPlan) (ops : CutoverOps) :
    Executing s0 plan s0 { plan := plan, ops := ops } where
  planned := rfl
  slots := rfl
  epoch := rfl
  found := Or.inl rfl
  fences _ h := h
  fenced _ h := Or.inl h
  consistent := consistent_new plan ops
  routeEpoch h := by cases h
  unrouted _ := rfl
  routed h := by cases h

namespace Executing
variable {s0 s : Fabric} {plan : FailoverPlan} {a : Attempt} {rd : Readings}

theorem current (h : Executing s0 plan s a) (key : ServiceSlotKey) :
    s.currentAssignment key = s0.currentAssignment key := currentAssignment_congr h.slots key

/-- Validation finds what was there at the beginning. -/
theorem found_step (h : Executing s0 plan s a) :
    (s.attemptStep rd a).2.stage = .validating ∨ Ended (s.attemptStep rd a).2 ∨
      Found s0 plan (s.attemptStep rd a).2 := by
  refine attemptStep_new ?_ ?_ h.found
  · intro a' _ hacc
    have hnew := composeAssignment_eq_ok hacc.issued
    obtain ⟨w, hw, hboot⟩ := hacc.wanted
    refine ⟨?_, ?_, ?_, ⟨w, ?_, ?_⟩, fun hb => hacc.unfenced ?_⟩
    · rw [hacc.old, h.current, Attempt.slot, h.planned]
    · rw [hnew.slot, h.planned]
    · rw [hnew.routeGeneration, h.planned]
    · rw [← h.planned, hw]
    · rw [hnew.workerBoot, hboot]
    · rw [hnew.workerBoot] at hb
      exact h.fences _ hb
  · intro a' hsame hnew hf
    refine ⟨?_, ?_, ?_, ?_, ?_⟩
    · rw [hsame.old, hf.old]
    · rw [hnew, hf.slot]
    · rw [hnew, hf.routeGeneration]
    · rw [hnew]
      exact hf.wanted
    · rw [hnew]
      exact hf.unfenced

/-- Nothing is fenced but the boot of the slot's assignment. -/
theorem fenced_step (h : Executing s0 plan s a)
    (hno : ¬ CommitStep rd.now s a (s.attemptStep rd a)) :
    ∀ b ∈ (s.attemptStep rd a).1.fencedBoots, b ∈ s0.fencedBoots ∨
      b ≠ .null ∧ (s0.currentAssignment plan.slot).map (·.workerBoot) = some b := by
  intro b hb
  by_cases hst : a.stage = .validating
  · rw [attemptStep_validating hst, (validateAttempt_quiet s a).fencedBoots] at hb
    exact h.fenced b hb
  rcases attemptStep_cases rd s a hst with hq | hf | hc
  · rw [hq.fabric.fencedBoots] at hb
    exact h.fenced b hb
  · obtain ⟨old, ⟨hold, -⟩, hfab⟩ := hf.fence
    rw [hfab, mem_addFencedBoot] at hb
    rcases hb with hb | ⟨hne, rfl⟩
    · exact h.fenced b hb
    · have hfound : Found s0 plan a := by
        rcases h.found with hv | hend | hfound
        · exact absurd hv hst
        · have hstage := hf.stage
          rw [attemptStep_ended hend] at hstage
          rcases hend with hr | ⟨e, hr⟩ <;> rw [hr] at hstage <;> cases hstage
        · exact hfound
      rw [← hfound.old, hold]
      exact Or.inr ⟨hne, rfl⟩
  · exact absurd hc hno

/-- The table has been offered the call's route exactly if the call is past its
installation. -/
theorem routes_step (h : Executing s0 plan s a) (hend : ¬ Ended (s.attemptStep rd a).2) :
    ((s.attemptStep rd a).2.stage.routed = false → (s.attemptStep rd a).1.routes = s0.routes) ∧
      ((s.attemptStep rd a).2.stage.routed = true →
        (s.attemptStep rd a).1.routes = (s0.routes.install (s.attemptStep rd a).2.route).1) := by
  have hnext := (attemptStep_next rd s a).resolve_right hend
  refine ⟨fun hno => ?_, fun hyes => ?_⟩
  · cases hr : a.stage.routed with
    | true =>
      rw [hnext] at hno
      exact absurd (Or.inl (hnext.trans (Stage.routed_of_next hno hr))) hend
    | false =>
      rcases attemptStep_routes rd s a with hs | ⟨hst, -, -⟩
      · rw [hs]
        exact h.unrouted hr
      · rw [hnext, hst] at hno
        cases hno
  · rw [attemptStep_route hyes]
    rcases attemptStep_routed hyes with ⟨hr, hs⟩ | ⟨hst, -, hs⟩
    · rw [hs]
      exact h.routed hr
    · rw [hs, h.unrouted (by rw [hst]; rfl)]

/-- **One step of a call that does not end it.** -/
theorem step (h : Executing s0 plan s a) (hend : ¬ Ended (s.attemptStep rd a).2) :
    Executing s0 plan (s.attemptStep rd a).1 (s.attemptStep rd a).2 := by
  have hno : ¬ CommitStep rd.now s a (s.attemptStep rd a) := fun hc => hend (Or.inl hc.stage)
  refine ⟨?_, ?_, ?_, h.found_step, fun b hb => attemptStep_fences (h.fences b hb),
    h.fenced_step hno, h.consistent.step, fun hc => ?_, (h.routes_step hend).1,
    (h.routes_step hend).2⟩
  · rw [attemptStep_plan, h.planned]
  · rw [((attemptStep_commits rd s a).resolve_right hno).1, h.slots]
  · rw [(attemptStep_confined rd s a).epoch, h.epoch]
  · rcases attemptStep_composed hc with ⟨hca, hroute⟩ | ⟨-, heq⟩
    · rw [hroute]
      exact h.routeEpoch hca
    · rw [heq]
      exact h.epoch

/-- **A call that completes commits from a state in progress.** -/
theorem run {rd : Nat → Readings} (n : Nat) (h : Executing s0 plan s a) (hend : ¬ Ended a)
    (hdone : (runAttempt rd n s a).2.Completed) :
    ∃ s1 a1 now, Executing s0 plan s1 a1 ∧ CommitStep now s1 a1 (runAttempt rd n s a) := by
  induction n generalizing s a with
  | zero => exact absurd (Or.inl hdone.1) hend
  | succ n ih =>
    by_cases hlast : Ended (s.attemptStep (rd n) a).2
    · have hstop : runAttempt rd n (s.attemptStep (rd n) a).1 (s.attemptStep (rd n) a).2 =
          s.attemptStep (rd n) a := runAttempt_ended n hlast
      change (runAttempt rd n _ _).2.Completed at hdone
      rw [hstop] at hdone
      refine ⟨s, a, (rd n).now, h, ?_⟩
      show CommitStep _ s a (runAttempt rd n _ _)
      rw [hstop]
      refine (attemptStep_completed hdone).resolve_left fun hc => hend (Or.inl hc.1)
    · exact ih (h.step hlast) hlast hdone

/-! ## What its commit leaves for the gate to find -/

section Commit
variable {now : Time} {r : Fabric × Attempt}

theorem commit_found (h : Executing s0 plan s a) (hc : CommitStep now s a r) : Found s0 plan a :=
  holds_of_acting h.found (Or.inl hc.before)

/-- The slot has the committed assignment if the slot had a record. -/
theorem commit_slot (h : Executing s0 plan s a) (hsound : s0.slots.Sound (·.slot))
    (hc : CommitStep now s a r) :
    r.1.currentAssignment plan.slot =
      if s0.findSlot plan.slot ≠ none then some (committed a) else none := by
  have hfind : s.findSlot plan.slot = s0.findSlot plan.slot := by rw [findSlot, h.slots]; rfl
  rw [hc.fabric, commit_current (h.slots ▸ hsound), Attempt.slot, h.planned, hfind]
  by_cases hrec : s0.findSlot plan.slot = none
  · rw [if_neg fun hk => hk.2 hrec, if_neg fun hk => hk hrec, currentAssignment, hfind, hrec]
    rfl
  · rw [if_pos ⟨rfl, hrec⟩, if_pos hrec]

/-- The committed boot is fenced if it was the boot of the slot's assignment. -/
theorem commit_fenced (h : Executing s0 plan s a) (hc : CommitStep now s a r) :
    a.newAssign.workerBoot ∈ r.1.fencedBoots ↔ a.newAssign.workerBoot ≠ .null ∧
      (s0.currentAssignment plan.slot).map (·.workerBoot) = some a.newAssign.workerBoot := by
  have hfound := h.commit_found hc
  rw [hc.fabric]
  show a.newAssign.workerBoot ∈ (s.fenceOldBoot a).fencedBoots ↔ _
  rw [mem_fenceOldBoot, hfound.old]
  constructor
  · rintro (hb | hb)
    · exact (h.fenced _ hb).resolve_left hfound.unfenced
    · exact hb
  · exact Or.inr

/-- The slot's route is shut if the table refused the call's and it was shut
already. -/
theorem commit_route (h : Executing s0 plan s a) (hc : CommitStep now s a r) :
    r.1.routeShut plan.slot = true ↔
      s0.routes.admits plan.slot plan.requestedRouteGeneration s0.epoch = false ∧
        s0.routeShut plan.slot = true := by
  have hcomposed : a.stage.composed = true := by rw [hc.before]; rfl
  have hprep := h.consistent.route hcomposed
  have hroutes : r.1.routes = (s0.routes.install a.route).1 := by
    rw [hc.fabric, ← h.routed (by rw [hc.before]; rfl), commit_routes]
  have hadmits : (s0.routes.install a.route).2 =
      s0.routes.admits plan.slot plan.requestedRouteGeneration s0.epoch := by
    rw [RouteTable.install_snd, hprep.slot, Attempt.slot, h.planned, hprep.leads.generation,
      (h.commit_found hc).routeGeneration, h.routeEpoch hcomposed]
  rw [← hadmits]
  cases hacc : (s0.routes.install a.route).2 with
  | false =>
    have hsame : r.1.routeShut plan.slot = s0.routeShut plan.slot :=
      routeShut_congr (by rw [hroutes, RouteTable.install_refused hacc])
    rw [hsame]
    exact (and_iff_right rfl).symm
  | true =>
    refine ⟨fun hshut => ?_, fun hno => by cases hno.1⟩
    obtain ⟨e, he, hstate⟩ := routeShut_iff.mp hshut
    rw [hroutes, RouteTable.current_install hacc hprep.not_empty, hprep.slot,
      Attempt.slot, h.planned, if_pos rfl] at he
    cases he
    rw [hprep.state] at hstate
    rcases hstate with hs | hs | hs <;> cases hs

end Commit

end Executing

/-! ## The property -/

/-- **What a plan needs** to be served once it completes: the slot has a record; the
planned boot is not that of the slot's assignment, unless it is null; and the table
takes the requested route, or the slot's route is not shut. -/
structure Servable (s : Fabric) (plan : FailoverPlan) : Prop where
  slot : s.findSlot plan.slot ≠ none
  boot : ∀ w cur, plan.selected = some w → s.currentAssignment plan.slot = some cur →
    w.facts.workerBoot = cur.workerBoot → w.facts.workerBoot = .null
  route : s.routes.admits plan.slot plan.requestedRouteGeneration s.epoch = true ∨
    s.routeShut plan.slot = false

namespace Executing
variable {s0 s : Fabric} {plan : FailoverPlan} {a : Attempt} {now : Time} {r : Fabric × Attempt}

/-- What serves after the commit shows that the plan was servable. -/
theorem servable_of_serves (h : Executing s0 plan s a) (hsound : s0.slots.Sound (·.slot))
    (hc : CommitStep now s a r) {cur : Assignment} (hs : r.1.Serves plan.slot cur) :
    Servable s0 plan := by
  have hcur := h.commit_slot hsound hc
  have hrec : s0.findSlot plan.slot ≠ none := by
    intro hnone
    rw [hs.current, if_neg fun hk => hk hnone] at hcur
    cases hcur
  rw [hs.current, if_pos hrec] at hcur
  cases hcur
  obtain ⟨w, hw, hboot⟩ := (h.commit_found hc).wanted
  refine ⟨hrec, fun w' cur' hw' hcur' heq => ?_, ?_⟩
  · rw [hw] at hw'
    cases hw'
    by_contra hne
    refine hs.unfenced ((h.commit_fenced hc).mpr ⟨hboot ▸ hne, ?_⟩)
    rw [hcur', Option.map_some, hboot, heq]
  · by_contra hno
    rw [not_or, Bool.not_eq_true, Bool.not_eq_false] at hno
    exact Bool.false_ne_true (hs.route.symm.trans ((h.commit_route hc).mpr hno))

/-- With a servable plan, the committed assignment serves. -/
theorem serves_of_servable (h : Executing s0 plan s a) (hsound : s0.slots.Sound (·.slot))
    (hc : CommitStep now s a r) (hserv : Servable s0 plan) :
    r.1.Serves plan.slot (committed a) := by
  obtain ⟨w, hw, hboot⟩ := (h.commit_found hc).wanted
  refine ⟨by rw [h.commit_slot hsound hc, if_pos hserv.slot], rfl, fun hmem => ?_, ?_⟩
  · obtain ⟨hne, hmap⟩ := (h.commit_fenced hc).mp hmem
    obtain ⟨cur', hcur', heq⟩ := Option.map_eq_some_iff.mp hmap
    exact hne (hboot.trans (hserv.boot w cur' hw hcur' (hboot.symm.trans heq.symm)))
  · rw [← Bool.not_eq_true]
    intro hshut
    obtain ⟨hrefused, hbefore⟩ := (h.commit_route hc).mp hshut
    rcases hserv.route with hadmits | hopen
    · exact Bool.false_ne_true (hrefused.symm.trans hadmits)
    · exact Bool.false_ne_true (hopen.symm.trans hbefore)

end Executing

/-- **Which completed calls serve.**  In every reachable state, for every plan and all
outcomes of the effects: when an uninterrupted call completes, the gate lets the
committed assignment through exactly if the plan was servable. -/
theorem completed_serves_iff (env : Env) {σ : SystemState}
    (h : Transition.Reachable (machine env) (fun _ _ => True) σ) (rd : Nat → Readings)
    (plan : FailoverPlan) (ops : CutoverOps)
    (hdone : (executePlan rd σ.fabric plan ops).2.Completed) {new : Assignment}
    (hnew : (executePlan rd σ.fabric plan ops).2.result.committedAssignment = some new)
    {auth : WorkerAuthorization} (hslot : auth.slot = new.slot)
    (hnames : Names auth (executePlan rd σ.fabric plan ops).1.epoch new) :
    ((executePlan rd σ.fabric plan ops).1.authorizeDispatch auth).allowed = true ↔
      Servable σ.fabric plan := by
  obtain ⟨s, a, now, hx, hc⟩ := (Executing.begin σ.fabric plan ops).run 19
    (by rintro (he | ⟨e, he⟩) <;> cases he) hdone
  change CommitStep now s a (executePlan rd σ.fabric plan ops) at hc
  rw [hc.committed] at hnew
  cases hnew
  have hplan : auth.slot = plan.slot := hslot.trans (hx.commit_found hc).slot
  show (dispatchAllowed _ auth).allowed = true ↔ _
  rw [dispatchAllowed_iff, hplan]
  constructor
  · rintro ⟨cur, hs, -⟩
    exact hx.servable_of_serves (slots_sound h) hc hs
  · intro hserv
    exact ⟨committed a, hx.serves_of_servable (slots_sound h) hc hserv, hnames⟩

namespace Reference

theorem names_authFor (s : Fabric) (a : Assignment) : Names (authFor s a) s.epoch a :=
  ⟨rfl, rfl, rfl, rfl, rfl⟩

/-- A whole call on a fabric, with the plan it makes. -/
abbrev executed (s : Fabric) : Fabric × Attempt := s.executePlan (fun _ => {}) (planOf s) ops

/-- The fabric makes a plan, the call on it commits, and the gate decides so on the
committed assignment. -/
def plansAndCommits (s : Fabric) (t : GateDecision → Bool) : Bool :=
  (match (s.planFailover env.rank slot).2 with
    | .ok (some _) => true
    | _ => false) &&
    decide (executed s).2.Completed && (executed s).2.result.committedAssignment.any fun new =>
      t ((executed s).1.authorizeDispatch (authFor (executed s).1 new))

theorem executed_of_plans {s : Fabric} {t : GateDecision → Bool} (h : plansAndCommits s t = true) :
    (s.planFailover env.rank slot).2 = .ok (some (planOf s)) ∧ (executed s).2.Completed ∧
      ∃ new, (executed s).2.result.committedAssignment = some new ∧
        t ((executed s).1.authorizeDispatch (authFor (executed s).1 new)) = true := by
  obtain ⟨h, hnew⟩ := Bool.and_eq_true_iff.mp h
  obtain ⟨hplan, hdone⟩ := Bool.and_eq_true_iff.mp h
  refine ⟨?_, of_decide_eq_true hdone, (Option.any_eq_true _ _).mp hnew⟩
  unfold planOf
  cases hp : (s.planFailover env.rank slot).2 with
  | error e =>
    rw [hp] at hplan
    cases hplan
  | ok p =>
    rw [hp] at hplan
    cases p with
    | none => cases hplan
    | some p => rfl

end Reference

open Reference in
/-- The reference deployment's plan is servable, and serves. -/
theorem completed_serves_reference :
    ∃ new, (executed deployed.fabric).2.result.committedAssignment = some new ∧
      ((executed deployed.fabric).1.authorizeDispatch
        (authFor (executed deployed.fabric).1 new)).allowed = true := by
  obtain ⟨-, hdone, new, hnew, -⟩ :=
    executed_of_plans (s := deployed.fabric) (t := fun _ => true) (by decide +kernel)
  have hserv : Servable deployed.fabric (planOf deployed.fabric) := by
    refine ⟨by decide +kernel, fun w cur hw hcur heq => ?_, Or.inl (by decide +kernel)⟩
    have hplanned : (planOf deployed.fabric).selected.map (·.facts.workerBoot) = some ⟨22⟩ := by
      decide +kernel
    have hthere : (deployed.fabric.currentAssignment (planOf deployed.fabric).slot).map
        (·.workerBoot) = some ⟨11⟩ := by decide +kernel
    rw [hw, Option.map_some, heq] at hplanned
    rw [hcur, Option.map_some, hplanned] at hthere
    exact absurd hthere (by decide)
  exact ⟨new, hnew, (completed_serves_iff env (reachable_run (setup.map .op)) (fun _ => {})
    (planOf deployed.fabric) ops hdone hnew rfl (names_authFor _ new)).mpr hserv⟩

open Reference in
/-- **A completed call need not serve.**  On the deployment without an initial
assignment, the plan that the fabric makes is executed and completes, and the gate
refuses the committed assignment. -/
theorem completed_refused :
    ¬ ∀ σ, Transition.Reachable (machine env) (fun _ _ => True) σ → ∀ key plan ops rd,
      (σ.fabric.planFailover env.rank key).2 = .ok (some plan) →
        (executePlan rd σ.fabric plan ops).2.Completed → ∀ new,
          (executePlan rd σ.fabric plan ops).2.result.committedAssignment = some new →
            ∀ auth : WorkerAuthorization, auth.slot = new.slot →
              Names auth (executePlan rd σ.fabric plan ops).1.epoch new →
                ((executePlan rd σ.fabric plan ops).1.authorizeDispatch auth).allowed = true := by
  intro h
  obtain ⟨σ, hreach, hcheck⟩ : ∃ σ, Transition.Reachable (machine env) (fun _ _ => True) σ ∧
      plansAndCommits σ.fabric (fun d => !d.allowed) = true :=
    ⟨_, reachable_run (unassigned.map .op), by decide +kernel⟩
  obtain ⟨hplan, hdone, new, hnew, hrefused⟩ := executed_of_plans hcheck
  rw [h σ hreach slot _ ops (fun _ => {}) hplan hdone new hnew _ rfl (names_authFor _ new)] at hrefused
  cases hrefused

end FailoverFabric
