import FailoverFabric.ExclusiveAssignment

/-! # Routes and assignments

A slot's route and its assignment are two records, written by different steps.

A cutover offers its route to the table and goes on whether the table takes it or
not (`route_names_uncommitted`).  Its route is there when it commits in the runs in
which the table takes it and takes no other one for the slot before the commit
(`route_leads_to_commit`).

The gate compares an authorization with the assignment alone, and looks at a route
only to see whether it is shut (`stale_route_honoured`).  Where routes and
assignments are written together, what it lets through is what the route names
(`gate_goes_by_route`).
-/
namespace FailoverFabric
open Fabric

/-! ## The route of a committed assignment -/

/-- The attempt's next step offers its route to the table. -/
def Fabric.offers (s : Fabric) (a : Attempt) : Bool :=
  a.stage == .installing && (a.ops.installRoute a.route s.gatewayBoot).acknowledged

/-- Some attempt is between its offer and its commit. -/
def SystemState.pending (σ : SystemState) (p : ServiceSlotKey → Bool) : Bool :=
  σ.calls.any fun c => c.attempt.any fun a => p a.slot && a.stage.routed

/-- **Routes are uncontested**: the table takes every route that a cutover offers;
and while a cutover is between its offer and its commit, the table takes no other
route for the slot, and no file is loaded. -/
def uncontested (σ : SystemState) : Label → Bool
  | .op (.installRoute e boot) => !(σ.fabric.installRoute e boot).2 || !σ.pending (· == e.slot)
  | .op (.load _) => !σ.pending fun _ => true
  | .advance i _ => (σ.attemptAt i).all fun a =>
      !σ.fabric.offers a || (σ.fabric.routes.install a.route).2 && !σ.pending (· == a.slot)
  | _ => true

def Uncontested (σ : SystemState) (l : Label) : Prop := uncontested σ l = true

/-- A pending attempt is found by the test. -/
theorem SystemState.pending_of_routed {σ : SystemState} {p : ServiceSlotKey → Bool} {i : Nat}
    {a : Attempt} (ha : σ.attemptAt i = some a) (hp : p a.slot = true)
    (hst : a.stage.routed = true) : σ.pending p = true := by
  obtain ⟨c, hc, hca⟩ := Option.bind_eq_some_iff.mp ha
  refine List.any_eq_true.mpr ⟨c, List.mem_of_getElem? hc, ?_⟩
  rw [hca, Option.any_some, hp, hst]
  rfl

/-- Every pending attempt's slot has a route that leads to its replacement. -/
def RoutesLead (σ : SystemState) : Prop :=
  ∀ i a, σ.attemptAt i = some a → a.stage.routed = true →
    ∃ e, σ.fabric.routes.current a.slot = some e ∧ LeadsTo e a.newAssign

namespace RoutesLead
variable {env : Env} {σ σ' : SystemState}

/-- What an operation does to a route, short of replacing it, keeps where it
leads. -/
theorem route_kept {s s' : Fabric} {o : Op} {key : ServiceSlotKey} {new : Assignment}
    (heff : RouteEffect s key o s')
    (hno : ∀ e boot, o = .installRoute e boot → (s.installRoute e boot).2 = true → e.slot ≠ key)
    (h : ∃ e, s.routes.current key = some e ∧ LeadsTo e new) :
    ∃ e, s'.routes.current key = some e ∧ LeadsTo e new := by
  obtain ⟨e, he, hl⟩ := h
  cases heff with
  | bound g hg =>
    rw [he] at hg
    exact ⟨_, hg, hl.toPermits.rebound _ _, hl.route, hl.target⟩
  | revalidated hr =>
    rw [he] at hr
    refine ⟨_, hr, ?_⟩
    unfold RouteTable.revalidated
    split
    · exact ⟨hl.toPermits.rebound _ _, hl.route, hl.target⟩
    · exact hl
  | installed hacc hslot _ => exact absurd hslot (hno _ _ rfl hacc)

theorem applied {o : Op} (h : RoutesLead σ) (hok : Uncontested σ (.op o)) :
    RoutesLead { σ with fabric := σ.fabric.apply env o } := by
  intro i a ha hst
  change σ.attemptAt i = some a at ha
  have hload : ∀ blob, o ≠ .load blob := by
    rintro blob rfl
    have hp := σ.pending_of_routed (p := fun _ => true) ha rfl hst
    unfold Uncontested uncontested at hok
    simp [hp] at hok
  refine route_kept (apply_route env σ.fabric o a.slot hload) (fun e boot ho hacc hslot => ?_)
    (h i a ha hst)
  have hp := σ.pending_of_routed (p := (· == e.slot)) ha (by simp [hslot]) hst
  subst ho
  unfold Uncontested uncontested at hok
  simp [hp, hacc] at hok

/-- The route that a cutover offers is taken, and is its own. -/
theorem offered {i : Nat} {rd : Readings} {a : Attempt} (ha : σ.attemptAt i = some a)
    (hok : Uncontested σ (.advance i rd)) (hst : a.stage = .installing)
    (hack : (a.ops.installRoute a.route σ.fabric.gatewayBoot).acknowledged = true) :
    (σ.fabric.routes.install a.route).2 = true ∧ σ.pending (· == a.slot) = false := by
  have hoff : σ.fabric.offers a = true := by simp [Fabric.offers, hst, hack]
  unfold Uncontested uncontested at hok
  simp only at hok
  rw [ha, Option.all_some, hoff, Bool.not_true, Bool.false_or] at hok
  obtain ⟨htaken, hpend⟩ := Bool.and_eq_true_iff.mp hok
  exact ⟨htaken, by simpa using hpend⟩

/-- A step of an attempt: it offers its route, or leaves all routes alone. -/
theorem stepped {i : Nat} {rd : Readings} {a : Attempt} (h : RoutesLead σ) (hcons : Consistent a)
    (hok : Uncontested σ (.advance i rd)) (ha : σ.attemptAt i = some a)
    (hf : σ'.fabric = (σ.fabric.attemptStep rd a).1)
    (hafter : σ'.attemptAt i = some (σ.fabric.attemptStep rd a).2)
    (hothers : ∀ j, j ≠ i → σ'.attemptAt j = σ.attemptAt j) : RoutesLead σ' := by
  refine attempts_stepped hafter hothers (fun hst => ?_) fun j b hb hst => ?_
  · rw [hf, Attempt.slot, attemptStep_plan]
    have hval : a.stage ≠ .validating := fun hv => by
      rcases attemptStep_routed hst with ⟨hr, -⟩ | ⟨hi, -⟩
      · rw [hv] at hr
        cases hr
      · rw [hv] at hi
        cases hi
    have hnew : (σ.fabric.attemptStep rd a).2.newAssign = a.newAssign := by
      rcases attemptStep_cases rd σ.fabric a hval with hq | hfen | hc
      · exact hq.new
      · exact hfen.new
      · rw [hc.stage] at hst
        cases hst
    rw [hnew]
    rcases attemptStep_routed hst with ⟨hr, hroutes⟩ | ⟨hi, hack, hroutes⟩
    · rw [hroutes]
      exact h i a ha hr
    · have hprep := hcons.route (by rw [hi]; rfl)
      have htaken := (offered ha hok hi hack).1
      refine ⟨a.route, ?_, hprep.leads⟩
      rw [hroutes, RouteTable.current_install htaken hprep.not_empty, hprep.slot]
      exact if_pos rfl
  -- another attempt's route is not replaced: it would have been pending
  · rw [hf]
    rcases attemptStep_routes rd σ.fabric a with hroutes | ⟨hi, hack, hroutes⟩
    · rw [hroutes]
      exact h j b hb hst
    · have hprep := hcons.route (by rw [hi]; rfl)
      have hnone := (offered ha hok hi hack).2
      rw [hroutes, RouteTable.current_install_of_ne hprep.not_empty]
      · exact h j b hb hst
      · intro _ hslot
        have hp := σ.pending_of_routed (p := (· == a.slot)) hb
          (by simp [← hslot, hprep.slot]) hst
        rw [hnone] at hp
        cases hp

theorem step {ok : SystemState → Label → Prop} {l : Label}
    (hreach : Transition.Reachable (machine env) ok σ) (h : RoutesLead σ) (hok : Uncontested σ l) :
    RoutesLead (σ.step env l) := by
  have heff := step_effect env σ l
  generalize σ.step env l = σ' at heff
  cases heff with
  | applied o => exact h.applied hok
  | settled hf hopens =>
    unfold RoutesLead
    rw [hf]
    exact hopens.attempts (fun _ _ _ hst => by cases hst) h
  | stepped a ha hf hafter hothers =>
    exact h.stepped (consistent_reachable hreach ha) hok ha hf hafter hothers
  | restarted _ _ =>
    intro i a ha
    simp [SystemState.attemptAt] at ha

theorem reachable (h : Transition.Reachable (machine env) Uncontested σ) : RoutesLead σ := by
  refine h.invariant (P := RoutesLead) ?_ fun σ l hr hσ hl => hσ.step hr hl
  rintro σ ⟨cfg, rfl⟩ i a ha
  simp [SystemState.attemptAt] at ha

end RoutesLead

/-- **The route leads to what was committed.**  In every run with uncontested
routes: when a call completes, the slot's current route has the committed
assignment's route, route generation, target, id, generation and boot. -/
theorem route_leads_to_commit (env : Env) {σ : SystemState}
    (h : Transition.Reachable (machine env) Uncontested σ) {l : Label} {i : Nat} {a : Attempt}
    (hdone : JustCompleted env σ l i a) {new : Assignment}
    (hnew : a.result.committedAssignment = some new) :
    ∃ e, (σ.step env l).fabric.routes.current a.slot = some e ∧ LeadsTo e new := by
  obtain ⟨rd, c, a0, rfl, hc, ha0, hcommit, rfl, hfab⟩ := hdone.commit
  have ha : σ.attemptAt i = some a0 := by rw [SystemState.attemptAt, hc, Option.bind_some, ha0]
  obtain ⟨e, he, hl⟩ := RoutesLead.reachable h i a0 ha (by rw [hcommit.before]; rfl)
  rw [hcommit.committed] at hnew
  cases hnew
  rw [hfab, commit_routes, Attempt.slot, attemptStep_plan]
  exact ⟨e, he, hl.toPermits.promoted _, hl.route, hl.target⟩

open Reference in
/-- The first cutover of the reference deployment. -/
theorem route_leads_to_commit_reference :
    let labels := setup.map Label.op ++ cutover deployed.fabric
    let σ := (machine env).run { fabric := {} } labels
    ∃ a new e, JustCompleted env σ lastStep 0 a ∧ a.result.committedAssignment = some new ∧
      (σ.step env lastStep).fabric.routes.current a.slot = some e ∧ LeadsTo e new := by
  intro labels σ
  have hreach : Transition.Reachable (machine env) Uncontested σ :=
    Transition.Reachable.run (b := uncontested) labels (.initial ⟨{}, rfl⟩) (by decide +kernel)
  obtain ⟨a, hdone, ht⟩ := justCompleted_of_decide env σ lastStep 0
    (fun a => a.result.committedAssignment.isSome) (by decide +kernel)
  obtain ⟨new, hnew⟩ := Option.isSome_iff_exists.mp ht
  obtain ⟨e, he, hl⟩ := route_leads_to_commit env hreach hdone hnew
  exact ⟨a, new, e, hdone, hnew, he, hl⟩

/-- Nothing but calls touches the routes: no file is loaded, and no route is
installed from outside. -/
def callsOnly : Label → Bool
  | .op (.load _) => false
  | .op (.installRoute _ _) => false
  | .restart _ => false
  | _ => true

namespace Reference

/-- Effects that all succeed, but for the verification. -/
def unverified : CutoverOps := { ops with verify := fun _ _ => {} }

/-- The same plan is executed twice: its verification fails at first, and then
succeeds.  Up to the commit. -/
def retried : List Label :=
  setup.map .op ++ .beginPlan (planOf deployed.fabric) unverified ::
    List.replicate 19 (.advance 0 {}) ++ (callOf 1 (planOf deployed.fabric)).dropLast

/-- The slot's route names another assignment than the committed one. -/
def routedElsewhere (s : Fabric) (a : Attempt) : Bool :=
  a.result.committedAssignment.any fun new =>
    (s.routes.current a.slot).any fun e => e.assignment != new.id

end Reference

open Reference in
/-- **A refused route is ignored.**  A plan whose verification failed is executed
again and completes: the table refuses its route, which is not newer than that of
the failed call, and the slot's route still names the assignment that was never
committed. -/
theorem route_names_uncommitted :
    ¬ ∀ σ, Transition.Reachable (machine env) (fun _ l => callsOnly l = true) σ → ∀ l i a new,
      JustCompleted env σ l i a → a.result.committedAssignment = some new →
        ∃ e, (σ.step env l).fabric.routes.current a.slot = some e ∧ LeadsTo e new := by
  intro h
  let σ := (machine env).run { fabric := {} } retried
  have hreach : Transition.Reachable (machine env) (fun _ l => callsOnly l = true) σ :=
    Transition.Reachable.run (b := fun _ l => callsOnly l) retried (.initial ⟨{}, rfl⟩)
      (by decide +kernel)
  obtain ⟨a, hdone, ht⟩ := justCompleted_of_decide env σ (.advance 1 {}) 1
    (routedElsewhere (σ.step env (.advance 1 {})).fabric) (by decide +kernel)
  obtain ⟨new, hnew, ht⟩ := (Option.any_eq_true _ _).mp ht
  obtain ⟨e, he, hl⟩ := h σ hreach _ _ a new hdone hnew
  rw [he, Option.any_some] at ht
  exact bne_iff_ne.mp ht hl.assignment

/-! ## The route that the gate goes by -/

/-- The assignment is active, on an unfenced boot. -/
def Fabric.live (s : Fabric) (cur : Assignment) : Bool :=
  cur.state == .active && !s.bootFenced cur.workerBoot

/-- The slot's route, if it has one that is not shut, permits the assignment. -/
def Fabric.routePermits (s : Fabric) (key : ServiceSlotKey) (a : Assignment) : Bool :=
  s.routeShut key || (s.routes.current key).all fun e => decide (Permits e a)

/-- **Routes and assignments are written together**: a route that is installed from
outside permits the slot's live assignment; an initial assignment is permitted by
the slot's route, and so is a committed one; and the table takes a cutover's route
only once the slot's assignment is no longer live. -/
def matched (σ : SystemState) : Label → Bool
  | .op (.installRoute e boot) => !(σ.fabric.installRoute e boot).2 ||
      (σ.fabric.currentAssignment e.slot).all fun cur => !σ.fabric.live cur || decide (Permits e cur)
  | .op (.setInitialAssignment _ a) => σ.fabric.routePermits a.slot a
  | .advance i _ => (σ.attemptAt i).all fun a =>
      (!(σ.fabric.offers a && (σ.fabric.routes.install a.route).2) ||
        (σ.fabric.currentAssignment a.slot).all fun cur => !σ.fabric.live cur) &&
      (!σ.fabric.commits a || σ.fabric.routePermits a.slot a.newAssign)
  | _ => true

def Matched (σ : SystemState) (l : Label) : Prop := matched σ l = true

/-- What serves a slot is permitted by its route. -/
def GateAgrees (s : Fabric) : Prop :=
  ∀ key cur e, s.Serves key cur → s.routes.current key = some e → Permits e cur

theorem live_of_unfenced {s : Fabric} {cur : Assignment} (hactive : cur.state = .active)
    (hfen : cur.workerBoot ∉ s.fencedBoots) : s.live cur = true := by
  have hf : s.bootFenced cur.workerBoot = false := by simpa [bootFenced] using hfen
  simp [Fabric.live, hactive, hf]

/-- An open route permits what `routePermits` says. -/
theorem permits_of_routePermits {s : Fabric} {key : ServiceSlotKey} {a : Assignment}
    {e : RouteEntry} (h : s.routePermits key a = true) (hopen : s.routeShut key = false)
    (he : s.routes.current key = some e) : Permits e a := by
  rw [Fabric.routePermits, hopen, Bool.false_or, he, Option.all_some] at h
  exact of_decide_eq_true h

namespace GateAgrees
variable {env : Env} {s s' : Fabric}

/-- Nothing serves a slot by a route that a load brought back. -/
theorem restore (s : Fabric) (snap : PersistenceSnapshot) : GateAgrees (s.restore snap) := by
  intro key cur e hs he
  change RouteTable.current (RouteTable.markRevalidationRequired _) key = some e at he
  rw [RouteTable.current_markRevalidationRequired] at he
  obtain ⟨e0, he0, -⟩ := Option.map_eq_some_iff.mp he
  have hshut : (s.restore snap).routeShut key = true :=
    routeShut_revalidated rfl (Option.isSome_iff_exists.mpr ⟨e0, he0⟩)
  exact absurd (hs.route.symm.trans hshut) Bool.false_ne_true

/-- A state with the same assignments and routes, and all fences. -/
theorem kept (h : GateAgrees s) (hslots : s'.slots = s.slots)
    (hfences : ∀ b ∈ s.fencedBoots, b ∈ s'.fencedBoots) (hroutes : s'.routes = s.routes) :
    GateAgrees s' := by
  intro key cur e hs he
  rw [hroutes] at he
  exact h key cur e (hs.before (currentAssignment_congr hslots key) hfences (by rw [hroutes])) he

/-- An initial assignment that the slot's route permits. -/
theorem assigned {a : Assignment} (h : GateAgrees s) (hsound : s.slots.Sound (·.slot))
    (hs : InitialStep s s' a) (hok : s.routePermits a.slot a = true) : GateAgrees s' := by
  intro key cur e hserv he
  have hroutes : s'.routes = s.routes := by rw [hs.fabric]
  have hfences : s'.fencedBoots = s.fencedBoots := by rw [hs.fabric]
  have hcur := (initial_current hsound hs).2 key
  rw [hroutes] at he
  by_cases hk : key = a.slot
  · subst hk
    rw [if_pos rfl, hserv.current] at hcur
    cases hcur
    have hopen : s.routeShut a.slot = false := by
      rw [← hserv.route]
      exact routeShut_congr (by rw [hroutes])
    have hp := permits_of_routePermits hok hopen he
    exact hp.promoted _
  · rw [if_neg hk] at hcur
    exact h key cur e (hserv.before hcur (by rw [hfences]; exact fun _ hb => hb) (by rw [hroutes])) he

/-- An operation that keeps apart from the authority state, with a route that
permits the slot's live assignment. -/
theorem operated {o : Op} (h : GateAgrees s) (hap : Apart s s')
    (heff : ∀ key, RouteEffect s key o s')
    (hok : ∀ e boot, o = .installRoute e boot → (s.installRoute e boot).2 = true →
      ∀ cur, s.currentAssignment e.slot = some cur → s.live cur = true → Permits e cur) :
    GateAgrees s' := by
  intro key cur e hserv he
  have hcur : s.currentAssignment key = some cur :=
    (currentAssignment_congr hap.slots key).symm.trans hserv.current
  have hfen : cur.workerBoot ∉ s.fencedBoots := hap.fencedBoots ▸ hserv.unfenced
  have hopen := hserv.route
  cases heff key with
  | bound g hg =>
    rw [hg] at he
    obtain ⟨e0, he0, rfl⟩ := Option.map_eq_some_iff.mp he
    rw [routeShut, hg, he0] at hopen
    have hp := h key cur e0 ⟨hcur, hserv.active, hfen, by rw [routeShut, he0]; exact hopen⟩ he0
    exact hp.rebound _ _
  | revalidated hr =>
    rw [hr] at he
    obtain ⟨e0, he0, rfl⟩ := Option.map_eq_some_iff.mp he
    rw [he0, Option.map_some] at hr
    have hshut : s'.routeShut key = true := by
      refine routeShut_iff.mpr ⟨_, hr, ?_⟩
      exact (RouteTable.revalidated_state (RouteTable.current_state he0)).imp_right Or.inr
    exact absurd (hopen.symm.trans hshut) Bool.false_ne_true
  | installed hacc hslot hnew =>
    rw [hnew] at he
    cases he
    have hlive := live_of_unfenced hserv.active hfen
    have hp := hok _ _ rfl hacc cur (hslot ▸ hcur) hlive
    exact hp.rebound _ _

/-- An operation that keeps the match. -/
theorem applied {σ : SystemState} {o : Op} (h : GateAgrees σ.fabric)
    (hsound : σ.fabric.slots.Sound (·.slot)) (hok : Matched σ (.op o)) :
    GateAgrees (σ.fabric.apply env o) := by
  by_cases hload : ∃ blob, o = .load blob
  · obtain ⟨blob, rfl⟩ := hload
    rcases apply_load_cases env σ.fabric blob with hl | ⟨snap, -, hl⟩
    · rw [hl]
      exact h
    · rw [hl]
      exact restore _ snap
  by_cases hassign : ∃ now a, o = .setInitialAssignment now a
  · obtain ⟨now, a, rfl⟩ := hassign
    show GateAgrees (σ.fabric.orSelf (σ.fabric.setInitialAssignment now a))
    cases hs : σ.fabric.setInitialAssignment now a with
    | error e => exact h
    | ok s' => exact h.assigned hsound (setInitialAssignment_eq_ok hs) hok
  · have hload : ∀ blob, o ≠ .load blob := fun blob ho => hload ⟨blob, ho⟩
    refine h.operated (apply_apart env σ.fabric o (fun now a ho => hassign ⟨now, a, ho⟩) hload)
      (fun key => apply_route env σ.fabric o key hload) fun e boot ho hacc cur hcur hlive => ?_
    subst ho
    unfold Matched matched at hok
    simp only [hacc, Bool.not_true, Bool.false_or, hcur, Option.all_some, hlive] at hok
    exact of_decide_eq_true hok

/-- What the guard says of a step of an attempt. -/
theorem matched_attempt {σ : SystemState} {i : Nat} {rd : Readings} {a : Attempt}
    (hok : Matched σ (.advance i rd)) (ha : σ.attemptAt i = some a) :
    (σ.fabric.offers a = true → (σ.fabric.routes.install a.route).2 = true →
        ∀ cur, σ.fabric.currentAssignment a.slot = some cur → σ.fabric.live cur = false) ∧
      (σ.fabric.commits a = true → σ.fabric.routePermits a.slot a.newAssign = true) := by
  unfold Matched matched at hok
  simp only at hok
  rw [ha, Option.all_some] at hok
  obtain ⟨hoffer, hcommit⟩ := Bool.and_eq_true_iff.mp hok
  refine ⟨fun ho htaken cur hcur => ?_, fun hc => ?_⟩
  · simpa [ho, htaken, hcur] using hoffer
  · simpa [hc] using hcommit

/-- A route that the table takes while nothing is live in its slot. -/
theorem rerouted {e0 : RouteEntry} (h : GateAgrees s) (hslots : s'.slots = s.slots)
    (hfences : ∀ b ∈ s.fencedBoots, b ∈ s'.fencedBoots)
    (hroutes : s'.routes = (s.routes.install e0).1) (htaken : (s.routes.install e0).2 = true)
    (hstate : e0.state ≠ .empty)
    (hdead : ∀ cur, s.currentAssignment e0.slot = some cur → s.live cur = false) :
    GateAgrees s' := by
  intro key cur e hserv he
  have hcur := currentAssignment_congr hslots key
  have hroute := RouteTable.current_install htaken hstate key
  rw [← hroutes] at hroute
  by_cases hk : key = e0.slot
  · subst hk
    have hlive := live_of_unfenced hserv.active fun hf => hserv.unfenced (hfences _ hf)
    exact absurd (hdead cur (hcur ▸ hserv.current)) (by simp [hlive])
  · rw [if_neg hk] at hroute
    exact h key cur e (hserv.before hcur hfences hroute) (hroute ▸ he)

/-- A commit whose replacement the slot's route permits. -/
theorem committed {now : Time} {a : Attempt} (h : GateAgrees s)
    (hsound : s.slots.Sound (·.slot)) (hok : s.routePermits a.slot a.newAssign = true) :
    GateAgrees (s.commit now a) := by
  intro key cur e hserv he
  have hroutes := commit_routes s now a
  have hcur : (s.commit now a).currentAssignment key = _ := commit_current hsound key
  rw [hroutes] at he
  split at hcur
  · rename_i hk
    rw [hserv.current] at hcur
    cases hcur
    have hopen : s.routeShut a.slot = false := by
      rw [← hk.1, ← hserv.route]
      exact (routeShut_congr (by rw [hroutes])).symm
    have hp := permits_of_routePermits hok hopen (hk.1 ▸ he)
    exact hp.promoted _
  · refine h key cur e (hserv.before hcur (fun b hb => ?_) (by rw [hroutes])) he
    exact fenceOldBoot_mono hb

/-- A step of an attempt that keeps the match. -/
theorem stepped {σ : SystemState} {i : Nat} {rd : Readings} {a : Attempt}
    (h : GateAgrees σ.fabric) (hsound : σ.fabric.slots.Sound (·.slot)) (hcons : Consistent a)
    (hok : Matched σ (.advance i rd)) (ha : σ.attemptAt i = some a) :
    GateAgrees (σ.fabric.attemptStep rd a).1 := by
  obtain ⟨hoffer, hcommit⟩ := matched_attempt hok ha
  rcases attemptStep_commits rd σ.fabric a with ⟨hslots, -⟩ | hc
  · have hfences : ∀ b ∈ σ.fabric.fencedBoots, b ∈ (σ.fabric.attemptStep rd a).1.fencedBoots :=
      fun _ => attemptStep_fences
    rcases attemptStep_routes rd σ.fabric a with hroutes | ⟨hst, hack, hroutes⟩
    · exact h.kept hslots hfences hroutes
    · have hprep := hcons.route (by rw [hst]; rfl)
      cases htaken : (σ.fabric.routes.install a.route).2 with
      | false =>
        rw [RouteTable.install_refused htaken] at hroutes
        exact h.kept hslots hfences hroutes
      | true =>
        refine h.rerouted hslots hfences hroutes htaken hprep.not_empty ?_
        rw [hprep.slot]
        exact hoffer (by simp [Fabric.offers, hst, hack]) htaken
  · rw [hc.fabric]
    exact h.committed hsound (hcommit hc.commits)

theorem step {ok : SystemState → Label → Prop} {σ : SystemState} {l : Label}
    (hreach : Transition.Reachable (machine env) ok σ) (h : GateAgrees σ.fabric)
    (hok : Matched σ l) : GateAgrees (σ.step env l).fabric := by
  have heff := step_effect env σ l
  generalize σ.step env l = σ' at heff
  cases heff with
  | applied o => exact h.applied (slots_sound hreach) hok
  | settled hf _ => exact h.kept (by rw [hf]) (by rw [hf]; exact fun _ hb => hb) (by rw [hf])
  | stepped a ha hf _ _ =>
    rw [hf]
    exact h.stepped (slots_sound hreach) (consistent_reachable hreach ha) hok ha
  | restarted _ _ => exact restore _ _

theorem reachable {σ : SystemState} (h : Transition.Reachable (machine env) Matched σ) :
    GateAgrees σ.fabric := by
  refine h.invariant (P := fun σ => GateAgrees σ.fabric) ?_ fun σ l hr hσ hl => hσ.step hr hl
  rintro σ ⟨cfg, rfl⟩ key cur e hs _
  have hcur := hs.current
  simp [currentAssignment, findSlot, IndexedVec.find] at hcur

end GateAgrees

/-- **The gate honours no stale route.**  In every run in which routes and
assignments are written together: when the gate lets an authorization through and
its slot has a route, the route is of its generation, for its assignment and for
its boot. -/
theorem gate_goes_by_route (env : Env) {σ : SystemState}
    (h : Transition.Reachable (machine env) Matched σ) {auth : WorkerAuthorization}
    (hallowed : (σ.fabric.authorizeDispatch auth).allowed = true) {e : RouteEntry}
    (he : σ.fabric.routes.current auth.slot = some e) :
    e.generation = auth.routeGeneration ∧ e.assignment = auth.assignment ∧
      e.assignmentGeneration = auth.assignmentGeneration ∧ e.permittedBoot = auth.workerBoot := by
  obtain ⟨cur, hs, hn⟩ := dispatchAllowed_iff.mp hallowed
  have hp := GateAgrees.reachable h auth.slot cur e hs he
  refine ⟨?_, ?_, ?_, ?_⟩
  · rw [hp.generation, hn.routeGeneration]
  · rw [hp.assignment, hn.assignment]
  · rw [hp.assignmentGeneration, hn.assignmentGeneration]
  · rw [hp.permittedBoot, hn.workerBoot]

namespace Reference

/-- The authorization that names the slot's current assignment. -/
def currentAuth (s : Fabric) : WorkerAuthorization :=
  match s.currentAssignment slot with
  | some cur => authFor s cur
  | none => {}

/-- A newer route of the slot, for another assignment and another boot. -/
def newerRoute : RouteEntry :=
  { route := ⟨9⟩, generation := ⟨9⟩, slot := slot, target := ⟨2⟩, assignment := ⟨2⟩,
    assignmentGeneration := ⟨2⟩, permittedBoot := ⟨22⟩, state := .acknowledged,
    epoch := deployed.fabric.epoch }

end Reference

open Reference in
/-- After the first cutover of the reference deployment, the gate lets the new
assignment through by the route that the cutover installed. -/
theorem gate_goes_by_route_reference :
    let labels := setup.map Label.op ++ callOf 0 (planOf deployed.fabric)
    let σ := (machine env).run { fabric := {} } labels
    let auth := currentAuth σ.fabric
    ∃ e, (σ.fabric.authorizeDispatch auth).allowed = true ∧
      σ.fabric.routes.current auth.slot = some e ∧ e.generation = auth.routeGeneration ∧
      e.assignment = auth.assignment ∧ e.permittedBoot = auth.workerBoot := by
  intro labels σ auth
  have hreach : Transition.Reachable (machine env) Matched σ :=
    Transition.Reachable.run (b := matched) labels (.initial ⟨{}, rfl⟩) (by decide +kernel)
  have hallowed : (σ.fabric.authorizeDispatch auth).allowed = true := by decide +kernel
  have hroute : (σ.fabric.routes.current auth.slot).isSome = true := by decide +kernel
  obtain ⟨e, he⟩ := Option.isSome_iff_exists.mp hroute
  obtain ⟨hgen, hassign, -, hboot⟩ := gate_goes_by_route env hreach hallowed he
  exact ⟨e, hallowed, he, hgen, hassign, hboot⟩

open Reference in
/-- **A stale route is honoured.**  A newer route of the slot is installed, for
another assignment on another boot: the gate still lets the initial assignment
through, of an older route generation. -/
theorem stale_route_honoured :
    ¬ ∀ σ, Transition.Reachable (machine env) (fun _ _ => True) σ →
      ∀ (auth : WorkerAuthorization) e, (σ.fabric.authorizeDispatch auth).allowed = true →
        σ.fabric.routes.current auth.slot = some e →
          e.generation = auth.routeGeneration ∧ e.assignment = auth.assignment ∧
            e.assignmentGeneration = auth.assignmentGeneration ∧
            e.permittedBoot = auth.workerBoot := by
  intro h
  let labels := setup.map Label.op ++ [.op (.installRoute newerRoute ⟨7⟩)]
  let σ := (machine env).run { fabric := {} } labels
  let auth := currentAuth σ.fabric
  have hallowed : (σ.fabric.authorizeDispatch auth).allowed = true := by decide +kernel
  have hnewer : (σ.fabric.routes.current auth.slot).any
      (fun e => e.generation != auth.routeGeneration) = true := by decide +kernel
  obtain ⟨e, he, hne⟩ := (Option.any_eq_true _ _).mp hnewer
  exact bne_iff_ne.mp hne (h σ (reachable_run labels) auth e hallowed he).1

end FailoverFabric
