import FailoverFabric.MachineSteps

/-! # The stores of a running fabric

Domains, evidence and routes are kept under distinct keys by every step, so what
is saved of them is rebuilt exactly when it is replayed into empty stores.
-/
namespace FailoverFabric
open Fabric

/-- The stores that a load replays are well formed. -/
structure StoresWellFormed (s : Fabric) : Prop where
  domains : s.domains.WellFormed
  evidence : s.evidence.WellFormed
  routes : s.routes.WellFormed

namespace StoresWellFormed
variable {s s' : Fabric}

/-- Whatever a snapshot holds, the restored stores are well formed. -/
theorem restore (s : Fabric) (snap : PersistenceSnapshot) : StoresWellFormed (s.restore snap) where
  domains := List.foldlRecOn snap.memberships _
    (List.foldlRecOn snap.domains _ DomainRegistry.wellFormed_empty fun _ h d _ => h.declare d)
    fun _ h m _ => h.setMembership m
  evidence := List.foldlRecOn (motive := EvidenceStore.WellFormed) snap.evidence _
    EvidenceStore.wellFormed_empty fun _ h e _ => h.publish e
  routes := (List.foldlRecOn (motive := RouteTable.WellFormed) snap.routes _
    RouteTable.wellFormed_empty fun _ h e _ => h.install e).markRevalidationRequired

theorem installRoute (h : StoresWellFormed s) (entry : RouteEntry) (boot : GatewayBootId) :
    (s.installRoute entry boot).1.routes.WellFormed := by
  unfold Fabric.installRoute
  split
  · exact h.routes
  · exact h.routes.install _

theorem apply {env : Env} (h : StoresWellFormed s) (o : Op) : StoresWellFormed (s.apply env o) := by
  have heff := apply_effect env s o
  generalize s.apply env o = s' at heff
  cases heff with
  | transient ht =>
    rw [ht]
    exact ⟨h.domains, h.evidence, h.routes⟩
  | identity id epoch => exact ⟨h.domains, h.evidence, h.routes⟩
  | created hs =>
    rw [(createService_eq hs).1]
    exact ⟨h.domains, h.evidence, h.routes⟩
  | assigned hs =>
    rw [(setInitialAssignment_eq_ok hs).fabric]
    exact ⟨h.domains, h.evidence, h.routes⟩
  | declared d => exact ⟨h.domains.declare d, h.evidence, h.routes⟩
  | member m => exact ⟨h.domains.setMembership m, h.evidence, h.routes⟩
  | published ev => exact ⟨h.domains, h.evidence.publish _, h.routes⟩
  | cleared id => exact ⟨h.domains, h.evidence.clear id, h.routes⟩
  | installed entry boot =>
    have hroutes := h.installRoute entry boot
    rw [installRoute_eq]
    exact ⟨h.domains, h.evidence, hroutes⟩
  | bound slot boot => exact ⟨h.domains, h.evidence, h.routes.bindGateway slot boot⟩
  | revalidated => exact ⟨h.domains, h.evidence, h.routes.markRevalidationRequired⟩
  | loaded _ => exact restore s _

/-- A step of an attempt offers at most one route to the table. -/
theorem attemptStep {rd : Readings} {s : Fabric} {a : Attempt} (h : StoresWellFormed s) :
    StoresWellFormed (s.attemptStep rd a).1 := by
  have hconf := attemptStep_confined rd s a
  refine ⟨by rw [hconf]; exact h.domains, by rw [hconf]; exact h.evidence, ?_⟩
  rcases attemptStep_routes rd s a with hr | ⟨-, -, hr⟩
  · rw [hr]
    exact h.routes
  · rw [hr]
    exact h.routes.install a.route

/-- **The stores stay well formed** in every run. -/
theorem reachable {env : Env} {ok : SystemState → Label → Prop} {σ : SystemState}
    (h : Transition.Reachable (machine env) ok σ) : StoresWellFormed σ.fabric := by
  refine h.invariant (P := fun σ => StoresWellFormed σ.fabric) ?_ fun σ l _ hσ _ => ?_
  · rintro σ ⟨cfg, rfl⟩
    exact ⟨DomainRegistry.wellFormed_empty, EvidenceStore.wellFormed_empty,
      RouteTable.wellFormed_empty⟩
  · have heff := step_effect env σ l
    change StoresWellFormed (σ.step env l).fabric
    generalize σ.step env l = σ' at heff
    cases heff with
    | applied o => exact hσ.apply o
    | settled hf _ =>
      rw [hf]
      exact ⟨hσ.domains, hσ.evidence, hσ.routes⟩
    | stepped a _ hf _ _ =>
      rw [hf]
      exact hσ.attemptStep
    | restarted _ _ => exact restore _ _

end StoresWellFormed

end FailoverFabric
