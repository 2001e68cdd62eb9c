import FailoverFabric.CutoverBarrier
import FailoverFabric.EvidenceIndex
import FailoverFabric.Fabric.Rebuild
import FailoverFabric.MachineSteps

/-! # The configured limits

`RuntimeConfig` has a limit for every structure that grows.  `create_service` and
`register_target` test theirs; the other operations, the cutover and `load` add without
a test, and nothing is ever trimmed.

`bounds_kept_iff` says which runs stay within the limits all the same: those in which
every step that adds to a structure finds room in it, and every file that is loaded is
itself within the limits.  What a step adds is `SystemState.adds`, read off the state
before it; `step_grown` says that it adds exactly that.
-/
namespace FailoverFabric
open Persistence

/-- The structures that grow. -/
inductive Resource
  | services | slots | targets | domains | memberships | evidence | requests | attempts
  | routeHistory (slot : ServiceSlotKey)
  deriving DecidableEq

/-- The limit that is configured for a structure. -/
def RuntimeConfig.bound (cfg : RuntimeConfig) : Resource → Nat
  | .services => cfg.maxServices
  | .slots => cfg.maxSlots
  | .targets => cfg.maxTargets
  | .domains => cfg.maxDomains
  | .memberships => cfg.maxMemberships
  | .evidence => cfg.maxFailureHistory
  | .requests => cfg.maxRequests
  | .attempts => cfg.maxAttemptHistory
  | .routeHistory _ => cfg.maxRouteHistory

namespace RouteTable

/-- How many routes of a slot have been replaced. -/
def displaced (t : RouteTable) (slot : ServiceSlotKey) : Nat :=
  ((t.find_ slot).map (·.history.length)).getD 0

/-- An installation of the route replaces the current one of its slot. -/
def replaces (t : RouteTable) (e : RouteEntry) : Bool :=
  t.admits e.slot e.generation e.epoch && (t.find_ e.slot).isSome

/-- **What an installation adds to the histories.** -/
theorem displaced_install (t : RouteTable) (e : RouteEntry) (key : ServiceSlotKey) :
    (t.install e).1.displaced key =
      t.displaced key + if t.replaces e = true ∧ key = e.slot then 1 else 0 := by
  cases hacc : (t.install e).2 with
  | false =>
    have hnot : t.replaces e = false := by rw [replaces, ← install_snd, hacc, Bool.false_and]
    rw [install_refused hacc, hnot]
    simp
  | true =>
    have hrep : t.replaces e = (t.find_ e.slot).isSome := by
      rw [replaces, ← install_snd, hacc, Bool.true_and]
    rcases install_accepted hacc with ⟨-, hnone, ht⟩ | ⟨sr, hsr, ht⟩
    · rw [ht, hrep, displaced, find_append hnone, displaced, hnone]
      by_cases hk : key = e.slot
      · subst hk
        simp [hnone]
      · simp [hk]
    · rw [ht, hrep, displaced, find_replaced, displaced, hsr]
      by_cases hk : key = e.slot
      · subst hk
        simp [hsr]
      · simp [hk]

/-- The current route of a slot, whatever its state, after an installation. -/
theorem top_install (t : RouteTable) (e : RouteEntry) (key : ServiceSlotKey) :
    ((t.install e).1.find_ key).map (·.current) =
      if t.admits e.slot e.generation e.epoch = true ∧ key = e.slot then some e
      else (t.find_ key).map (·.current) := by
  cases hacc : (t.install e).2 with
  | false =>
    rw [install_refused hacc, ← install_snd, hacc, if_neg fun h => Bool.noConfusion h.1]
  | true =>
    rw [← install_snd, hacc]
    rcases install_accepted hacc with ⟨-, hnone, ht⟩ | ⟨sr, hsr, ht⟩
    · rw [ht, find_append hnone]
      by_cases hk : key = e.slot
      · rw [if_pos hk, if_pos ⟨rfl, hk⟩]
        rfl
      · rw [if_neg hk, if_neg fun h => hk h.2]
    · rw [ht, find_replaced]
      by_cases hk : key = e.slot
      · rw [if_pos hk, if_pos ⟨rfl, hk⟩, hsr]
        rfl
      · rw [if_neg hk, if_neg fun h => hk h.2]

theorem displaced_bindGateway (t : RouteTable) (slot : ServiceSlotKey) (boot : GatewayBootId)
    (key : ServiceSlotKey) : (t.bindGateway slot boot).1.displaced key = t.displaced key := by
  unfold bindGateway
  split
  · rfl
  rename_i sr hsr
  split_ifs
  · rfl
  · rfl
  have hfind := find_update (t := t)
    (f := fun s => { s with current := { s.current with gatewayBoot := boot } })
    (fun _ (h : _ = slot) => h) key
  rw [displaced, hfind, displaced]
  by_cases hk : key = slot
  · subst hk
    rw [if_pos rfl, Option.map_map]
    rfl
  · rw [if_neg hk]

theorem displaced_markRevalidationRequired (t : RouteTable) (key : ServiceSlotKey) :
    t.markRevalidationRequired.displaced key = t.displaced key := by
  have hslot : (fun s : SlotRoute => s.slot == key) ∘ SlotRoute.revalidate =
      fun s => s.slot == key := funext fun s => by rw [Function.comp, revalidate_slot]
  have hhistory : (fun s : SlotRoute => s.history.length) ∘ SlotRoute.revalidate =
      fun s => s.history.length := funext fun s => by
    rw [Function.comp, SlotRoute.revalidate]
    split <;> rfl
  show (Option.map _ (List.find? _ (t.current_.map SlotRoute.revalidate))).getD 0 = _
  rw [List.find?_map, hslot, Option.map_map, hhistory]
  rfl

end RouteTable

namespace DomainRegistry

/-- **A declaration, inverted**, as far as the ids are concerned. -/
theorem declare_ids (r : DomainRegistry) {d : DomainDecl} (hnull : d.id.isNull = false) :
    d.id ∈ r.domains.map (·.id) ∧ (r.declare d).domains.map (·.id) = r.domains.map (·.id) ∨
      d.id ∉ r.domains.map (·.id) ∧
        (r.declare d).domains.map (·.id) = r.domains.map (·.id) ++ [d.id] := by
  rw [declare, if_neg (Bool.eq_false_iff.mp hnull)]
  refine List.upsert_keys_cases (fun y => beq_iff_eq) fun y hy => ?_
  split
  · exact (eq_of_beq hy).symm
  · rfl

theorem setMembership_keys (r : DomainRegistry) (m : DomainMembership) :
    let keys := r.memberships.map fun e => (e.target, e.domain)
    (m.target, m.domain) ∈ keys ∧
        (r.setMembership m).memberships.map (fun e => (e.target, e.domain)) = keys ∨
      (m.target, m.domain) ∉ keys ∧
        (r.setMembership m).memberships.map (fun e => (e.target, e.domain)) =
          keys ++ [(m.target, m.domain)] := by
  have hkey : ∀ y : DomainMembership, (y.target == m.target && y.domain == m.domain) = true ↔
      (y.target, y.domain) = (m.target, m.domain) := fun y => by simp [Prod.ext_iff]
  exact List.upsert_keys_cases hkey fun y hy => ((hkey y).mp hy).symm

end DomainRegistry

namespace Fabric

def size (s : Fabric) : Resource → Nat
  | .services => s.services.items.length
  | .slots => s.slots.items.length
  | .targets => s.targets.items.length
  | .domains => s.domains.domains.length
  | .memberships => s.domains.memberships.length
  | .evidence => s.evidence.events.items.length
  | .requests => s.requests.records.length
  | .attempts => s.attemptStates.length
  | .routeHistory slot => s.routes.displaced slot

/-- Every structure is within its limit. -/
def WithinBounds (s : Fabric) : Prop := ∀ r, s.size r ≤ s.cfg.bound r

/-! ## What a step adds -/

/-- What the installation of a route adds to: the history of a slot whose route it
replaces. -/
def displaces (s : Fabric) (e : RouteEntry) : List Resource :=
  if s.routes.replaces e then [.routeHistory e.slot] else []

/-- What an operation adds to. -/
def adds (s : Fabric) : Op → List Resource
  | .createService d =>
    if s.services.items.length < s.cfg.maxServices ∧
        (s.services.items.any fun x => x.service == d.service) = false then [.services]
    else []
  | .setInitialAssignment _ a =>
    if (a.slot.service.isNull || a.slot.slot.isNull) = false ∧ s.findSlot a.slot = none then
      [.slots]
    else []
  | .registerTarget id _ =>
    if s.targets.items.length < s.cfg.maxTargets ∧ s.targets.find id = none then [.targets] else []
  | .declareDomain d =>
    if d.id.isNull = false ∧ (s.domains.domains.any fun e => e.id == d.id) = false then [.domains]
    else []
  | .setMembership m =>
    if (s.domains.memberships.any fun e =>
        e.target == m.target && e.domain == m.domain) = false then [.memberships]
    else []
  | .publishFailure ev => if s.evidence.events.find ev.eventId = none then [.evidence] else []
  | .recordRequest r =>
    if (s.requests.records.any fun e => e.request == r.request) = false then [.requests] else []
  | .installRoute e _ => if e.epoch = s.epoch then s.displaces e else []
  | _ => []

/-- The validation of an attempt throws: a generation that it has to advance is the last
one. -/
def validationThrows (s : Fabric) (a : Attempt) : Bool :=
  match s.attemptGenCounter.next with
  | .error _ => true
  | .ok _ =>
    match s.serviceForSlot a.slot, a.plan.selected with
    | some svc, some wanted =>
      !sourceChanged a.plan (s.currentAssignment a.slot) &&
        match s.snapshotLocked a.slot with
        | .error _ => true
        | .ok (s', snap) =>
          (s'.revalidate a.slot svc snap wanted).any fun c =>
            !(s'.composeAssignment s'.assignmentCounter a.plan c).isOk
    | _, _ => false

/-- What a step of an attempt adds to.  Each end of an attempt is logged, and so is the
acceptance of its plan. -/
def attemptAdds (s : Fabric) (a : Attempt) : List Resource :=
  match a.stage with
  | .validating => if s.validationThrows a = false then [.attempts] else []
  | .fencing => if fencePermits a = false then [.attempts] else []
  | .activating =>
    if (a.ops.activate a.selected a.auth a.newAssign.authorityGeneration).acknowledged = false then
      [.attempts]
    else []
  | .installing =>
    if (a.ops.installRoute a.route s.gatewayBoot).acknowledged then s.displaces a.route
    else [.attempts]
  -- the commit of a slot without a record appends one
  | .verifying => .attempts :: if s.commits a ∧ s.findSlot a.slot = none then [.slots] else []
  | _ => []

def callAdds (s : Fabric) : Call → List Resource
  | .plan a => s.attemptAdds a
  | .failback f =>
    match f.stage with
    | .cutting a => s.attemptAdds a
    | _ => []

/-- `s'` has one more in each structure of `rs` than `s`, and as many in the others. -/
structure Grown (s s' : Fabric) (rs : List Resource) : Prop where
  cfg : s'.cfg = s.cfg
  size : ∀ r, s'.size r = s.size r + if r ∈ rs then 1 else 0

namespace Grown
variable {s s' : Fabric} {rs : List Resource}

theorem kept (hcfg : s'.cfg = s.cfg) (hsize : ∀ r, s'.size r = s.size r) : Grown s s' [] :=
  ⟨hcfg, fun r => by rw [hsize, if_neg List.not_mem_nil]; rfl⟩

theorem refl (s : Fabric) : Grown s s [] := .kept rfl fun _ => rfl

theorem ite {c : Prop} [Decidable c] (hyes : c → Grown s s' rs) (hno : ¬ c → Grown s s' []) :
    Grown s s' (if c then rs else []) := by
  split
  · rename_i hc
    exact hyes hc
  · rename_i hc
    exact hno hc

theorem one {r : Resource} (hcfg : s'.cfg = s.cfg) (hone : s'.size r = s.size r + 1)
    (hrest : ∀ q, q ≠ r → s'.size q = s.size q) : Grown s s' [r] := by
  refine ⟨hcfg, fun q => ?_⟩
  by_cases hq : q = r
  · rw [hq, hone, if_pos (List.mem_singleton_self r)]
  · rw [hrest q hq, if_neg (List.mem_singleton.not.mpr hq)]
    rfl

/-- **The limits are kept exactly if there was room.** -/
theorem within (h : Grown s s' rs) (hs : s.WithinBounds) :
    s'.WithinBounds ↔ ∀ r ∈ rs, s.size r < s.cfg.bound r := by
  constructor
  · intro hs' r hr
    have hbound := hs' r
    rw [h.size, if_pos hr, h.cfg] at hbound
    exact hbound
  · intro hroom r
    rw [h.size, h.cfg]
    by_cases hr : r ∈ rs
    · rw [if_pos hr]
      exact hroom r hr
    · rw [if_neg hr]
      exact hs r

end Grown

/-! ## The operations -/

/-- A route that is installed replaces at most the current one of its slot. -/
theorem grown_install (s : Fabric) (e : RouteEntry) :
    Grown s { s with routes := (s.routes.install e).1 } (s.displaces e) := by
  have hsize := RouteTable.displaced_install s.routes e
  unfold displaces
  by_cases hr : s.routes.replaces e = true
  · rw [if_pos hr]
    refine .one rfl ?_ fun q hq => ?_
    · show (s.routes.install e).1.displaced e.slot = _
      rw [hsize, if_pos ⟨hr, rfl⟩]
      rfl
    · cases q with
      | routeHistory key =>
        show (s.routes.install e).1.displaced key = _
        rw [hsize, if_neg fun h => hq (by rw [h.2])]
        rfl
      | _ => rfl
  · rw [if_neg hr]
    refine .kept rfl fun q => ?_
    cases q with
    | routeHistory key =>
      show (s.routes.install e).1.displaced key = _
      rw [hsize, if_neg fun h => hr h.1]
      rfl
    | _ => rfl

theorem grown_createService (env : Env) (s : Fabric) (d : ServiceDefinition) :
    Grown s (s.apply env (.createService d)) (s.adds (.createService d)) := by
  show Grown s (s.orSelf (s.createService d)) _
  unfold createService
  split_ifs with hfull hany
  · exact .ite (fun h => absurd h.1 (Nat.not_lt.mpr hfull)) fun _ => .refl s
  · exact .ite (fun h => absurd (h.2.symm.trans hany) Bool.noConfusion) fun _ => .refl s
  · refine .ite (fun _ => .one rfl (List.length_append ..) ?_) fun h => ?_
    · intro q hq
      cases q <;> first | rfl | exact absurd rfl hq
    · exact absurd ⟨Nat.not_le.mp hfull, Bool.eq_false_iff.mpr hany⟩ h

theorem grown_setInitialAssignment (env : Env) (s : Fabric) (now : Time) (a : Assignment) :
    Grown s (s.apply env (.setInitialAssignment now a)) (s.adds (.setInitialAssignment now a)) := by
  show Grown s (s.orSelf (s.setInitialAssignment now a)) _
  unfold setInitialAssignment
  by_cases hnull : (a.slot.service.isNull || a.slot.slot.isNull) = true
  · rw [if_pos hnull]
    exact .ite (fun h => absurd (h.1.symm.trans hnull) Bool.noConfusion) fun _ => .refl s
  rw [if_neg hnull]
  cases hfind : s.findSlot a.slot with
  | none =>
    refine .ite (fun _ => .one rfl (List.length_append ..) fun q hq => ?_) fun h => ?_
    · cases q <;> first | rfl | exact absurd rfl hq
    · exact absurd ⟨Bool.eq_false_iff.mpr hnull, hfind⟩ h
  | some st =>
    refine .ite (fun h => absurd (hfind.symm.trans h.2) nofun) fun _ => ?_
    simp only
    split
    · exact .refl s
    · refine .kept rfl fun q => ?_
      cases q <;> first | rfl | exact IndexedVec.length_modify ..

theorem grown_registerTarget (env : Env) (s : Fabric) (id : TargetId) (transport : Text) :
    Grown s (s.apply env (.registerTarget id transport))
      (s.adds (.registerTarget id transport)) := by
  show Grown s (s.orSelf (s.registerTarget id transport)) _
  unfold registerTarget
  split_ifs with hfull hknown
  · exact .ite (fun h => absurd h.1 (Nat.not_lt.mpr hfull)) fun _ => .refl s
  · refine .ite (fun h => ?_) fun _ => .refl s
    rw [h.2] at hknown
    cases hknown
  · refine .ite (fun _ => .one rfl (List.length_append ..) fun q hq => ?_) fun h => ?_
    · cases q <;> first | rfl | exact absurd rfl hq
    · exact absurd ⟨Nat.not_le.mp hfull, Option.not_isSome_iff_eq_none.mp hknown⟩ h

theorem grown_declareDomain (s : Fabric) (d : DomainDecl) :
    Grown s (s.declareDomain d) (s.adds (.declareDomain d)) := by
  unfold declareDomain DomainRegistry.declare
  by_cases hnull : d.id.isNull = true
  · rw [if_pos hnull]
    exact .ite (fun h => absurd (h.1.symm.trans hnull) Bool.noConfusion) fun _ => .refl s
  rw [if_neg hnull]
  refine .ite (fun h => .one rfl ?_ fun q hq => ?_) fun h => .kept rfl fun q => ?_
  · show List.length (List.upsert _ _ _ _) = _
    rw [List.length_upsert, h.2]
    rfl
  · cases q <;> first | rfl | exact absurd rfl hq
  · have hany : (s.domains.domains.any fun e => e.id == d.id) = true := by
      simpa [hnull] using h
    cases q with
    | domains =>
      show List.length (List.upsert _ _ _ _) = _
      rw [List.length_upsert, hany]
      rfl
    | _ => rfl

theorem grown_setMembership (s : Fabric) (m : DomainMembership) :
    Grown s (s.setMembership m) (s.adds (.setMembership m)) := by
  have hlength : (s.setMembership m).size .memberships = _ := List.length_upsert
  refine .ite (fun h => .one rfl ?_ fun q hq => ?_) fun h => .kept rfl fun q => ?_
  · rw [hlength, h]
    rfl
  · cases q <;> first | rfl | exact absurd rfl hq
  · cases q with
    | memberships =>
      rw [hlength, Bool.of_not_eq_false h]
      rfl
    | _ => rfl

theorem grown_recordRequest (s : Fabric) (r : RequestRecord) :
    Grown s (s.recordRequest r) (s.adds (.recordRequest r)) := by
  have hlength : (s.recordRequest r).size .requests = _ := List.length_upsert
  refine .ite (fun h => .one rfl ?_ fun q hq => ?_) fun h => .kept rfl fun q => ?_
  · rw [hlength, h]
    rfl
  · cases q <;> first | rfl | exact absurd rfl hq
  · cases q with
    | requests =>
      rw [hlength, Bool.of_not_eq_false h]
      rfl
    | _ => rfl

theorem grown_publishFailure (s : Fabric) (ev : FailureEvent) :
    Grown s (s.publishFailure ev) (s.adds (.publishFailure ev)) := by
  have hid : (s.sequenced ev).eventId = ev.eventId := by
    unfold sequenced
    split <;> rfl
  have hsize : (s.publishFailure ev).size .evidence =
      (s.evidence.publish (s.sequenced ev)).1.events.items.length := rfl
  refine .ite (fun h => .one rfl ?_ fun q hq => ?_) fun h => .kept rfl fun q => ?_
  · rw [hsize, EvidenceStore.publish_new (by rw [hid, h])]
    exact List.length_append ..
  · cases q <;> first | rfl | exact absurd rfl hq
  · cases q with
    | evidence =>
      obtain ⟨e, he⟩ := Option.ne_none_iff_exists'.mp h
      rcases EvidenceStore.publish_known (by rw [hid, he]) with ⟨-, hp⟩ | ⟨-, hp⟩
      · rw [hsize, hp]
        exact IndexedVec.length_modify ..
      · rw [hsize, hp]
        rfl
    | _ => rfl

theorem grown_installRoute (s : Fabric) (entry : RouteEntry) (boot : GatewayBootId) :
    Grown s (s.installRoute entry boot).1 (s.adds (.installRoute entry boot)) := by
  unfold installRoute
  by_cases he : entry.epoch = s.epoch
  · rw [if_neg (not_not.mpr he)]
    exact .ite (fun _ => grown_install s { entry with state := .acknowledged, gatewayBoot := boot })
      fun h => absurd he h
  · rw [if_pos he]
    exact .ite (fun h => absurd h he) fun _ => .refl s

theorem grown_markOutcomeUnknown (s : Fabric) (id : RequestId) :
    Grown s (s.markOutcomeUnknown id) [] := by
  refine .kept rfl fun q => ?_
  cases q with
  | requests =>
    show (s.requests.setOutcomeUnknown id).records.length = _
    unfold RequestTracker.setOutcomeUnknown
    split
    · rfl
    · split
      · rfl
      · exact List.length_updateFirst
  | _ => rfl

theorem grown_classifyLateResult (s : Fabric) (id : RequestId) (auth : WorkerAuthorization) :
    Grown s (s.classifyLateResult id auth).1 [] := by
  refine .kept rfl fun q => ?_
  cases q with
  | requests =>
    show (s.requests.classifyLateResult id auth).1.records.length = _
    unfold RequestTracker.classifyLateResult
    split
    · rfl
    · split_ifs <;> rfl
  | _ => rfl

/-- **What an operation adds**, when it is not a load. -/
theorem apply_grown (env : Env) (s : Fabric) (o : Op) (hload : ∀ blob, o ≠ .load blob) :
    Grown s (s.apply env o) (s.adds o) := by
  cases o with
  | createService d => exact grown_createService env s d
  | setInitialAssignment now a => exact grown_setInitialAssignment env s now a
  | registerTarget id transport => exact grown_registerTarget env s id transport
  | declareDomain d => exact grown_declareDomain s d
  | setMembership m => exact grown_setMembership s m
  | publishFailure ev => exact grown_publishFailure s ev
  | recordRequest r => exact grown_recordRequest s r
  | installRoute entry boot => exact grown_installRoute s entry boot
  | markOutcomeUnknown id => exact grown_markOutcomeUnknown s id
  | classifyLateResult id auth => exact grown_classifyLateResult s id auth
  | publishCandidateFacts now f =>
    rcases apply_publishCandidateFacts_cases env s now f with h | ⟨t, -, -, h⟩
    · rw [h]
      exact .refl s
    · rw [h]
      refine .kept rfl fun q => ?_
      cases q <;> first | rfl | exact IndexedVec.length_modify ..
  | publishCandidateState t st =>
    show Grown s (s.orSelf (s.publishCandidateState t st)) []
    unfold publishCandidateState
    split
    · exact .refl s
    · refine .kept rfl fun q => ?_
      cases q <;> first | rfl | exact IndexedVec.length_modify ..
  | publishCandidateResources t rs =>
    show Grown s (s.orSelf (s.publishCandidateResources t rs)) []
    unfold publishCandidateResources
    split
    · exact .refl s
    · refine .kept rfl fun q => ?_
      cases q <;> first | rfl | exact IndexedVec.length_modify ..
  | clearFailure id =>
    refine .kept rfl fun q => ?_
    cases q <;> first | rfl | exact IndexedVec.length_modify ..
  | bindRouteGateway slot boot =>
    refine .kept rfl fun q => ?_
    cases q <;> first | rfl | exact RouteTable.displaced_bindGateway ..
  | markRoutesRevalidation =>
    refine .kept rfl fun q => ?_
    cases q <;> first | rfl | exact RouteTable.displaced_markRevalidationRequired ..
  | snapshot slot =>
    rw [apply_snapshot]
    exact .kept rfl fun q => by cases q <;> rfl
  | select slot =>
    rw [apply_select]
    exact .kept rfl fun q => by cases q <;> rfl
  | planFailover slot =>
    show Grown s (s.planFailoverPref env.rank slot none).1 []
    rw [planFailoverPref_fst]
    exact .kept rfl fun q => by cases q <;> rfl
  | load blob => exact absurd rfl (hload blob)
  | _ => exact .kept rfl fun q => by cases q <;> rfl

/-! ## The calls -/

/-- The validation throws exactly if a generation is at its end. -/
theorem validateAttempt_throws (s : Fabric) (a : Attempt) :
    (∃ e, (s.validateAttempt a).2.stage = .threw e) ↔ s.validationThrows a = true := by
  have hno : ∀ {st : Stage}, st = .returned ∨ st = .recording .intentOnly →
      ((∃ e, st = .threw e) ↔ false = true) := by
    intro st hst
    refine iff_of_false ?_ Bool.false_ne_true
    rintro ⟨e, rfl⟩
    rcases hst with hst | hst <;> cases hst
  unfold validateAttempt validationThrows
  cases s.attemptGenCounter.next with
  | error e => exact iff_of_true ⟨e, rfl⟩ rfl
  | ok generation =>
    simp only
    cases s.serviceForSlot a.slot with
    | none => exact hno (.inl rfl)
    | some svc =>
      cases a.plan.selected with
      | none => exact hno (.inl rfl)
      | some wanted =>
        cases sourceChanged a.plan (s.currentAssignment a.slot) with
        | true => exact hno (.inl rfl)
        | false =>
          simp only [Bool.false_eq_true, if_false, Bool.not_false, Bool.true_and]
          cases s.snapshotLocked a.slot with
          | error e => exact iff_of_true ⟨e, rfl⟩ rfl
          | ok r =>
            simp only
            cases r.1.revalidate a.slot svc r.2 wanted with
            | none => exact hno (.inl rfl)
            | some c =>
              simp only [issueAssignment, Option.any_some]
              cases r.1.composeAssignment r.1.assignmentCounter a.plan c with
              | error e => exact iff_of_true ⟨e, rfl⟩ rfl
              | ok new => exact hno (.inr rfl)

theorem grown_validateAttempt (s : Fabric) (a : Attempt) :
    Grown s (s.validateAttempt a).1 (if s.validationThrows a = false then [.attempts] else []) := by
  have hthrows := validateAttempt_throws s a
  have hlogged : ∀ (g : CandidateSnapshotGeneration) (c : AssignmentId) (st : AttemptState),
      Grown s { s with
        snapshotCounter := g, assignmentCounter := c, attemptStates := s.attemptStates ++ [st] }
        [.attempts] := by
    intro g c st
    refine .one rfl (List.length_append ..) fun q hq => ?_
    cases q <;> first | rfl | exact absurd rfl hq
  rcases validateAttempt_cases s a with ⟨hacc, g, h⟩ | ⟨⟨_, _, he⟩, g, h⟩ | ⟨⟨e, he⟩, g, c, h, -⟩
  · rw [h, if_pos]
    · exact hlogged g _ _
    · rw [Bool.eq_false_iff, Ne, ← hthrows, hacc.stage]
      exact nofun
  · rw [h, if_pos]
    · exact hlogged g _ _
    · rw [Bool.eq_false_iff, Ne, ← hthrows, he]
      exact nofun
  · rw [h, if_neg]
    · exact .kept rfl fun q => by cases q <;> rfl
    · rw [Bool.not_eq_false, ← hthrows, he]
      exact ⟨e, rfl⟩

theorem grown_logAttempt (s : Fabric) (st : AttemptState) :
    Grown s (s.logAttempt st) [.attempts] := by
  refine .one rfl (List.length_append ..) fun q hq => ?_
  cases q <;> first | rfl | exact absurd rfl hq

theorem grown_fenceStep (s : Fabric) (rd : Readings) (a : Attempt) :
    Grown s (s.fenceStep rd a).1 (if fencePermits a = false then [.attempts] else []) := by
  have hpermits : fencePermits a =
      (!(fenceOutcome { a with t0 := rd.now }).fencingUnproven &&
        (fenceOutcome { a with t0 := rd.now }).applied) := rfl
  unfold fenceStep
  simp only
  refine .ite (fun h => ?_) fun h => ?_
  · split
    · exact grown_logAttempt s _
    rename_i hunproven
    split
    · exact grown_logAttempt s _
    rename_i happlied
    rw [hpermits, Bool.eq_false_iff.mpr hunproven, Bool.of_not_eq_false happlied] at h
    cases h
  · have hboth := Bool.and_eq_true_iff.mp (hpermits.symm.trans (Bool.of_not_eq_false h))
    rw [if_neg (by simpa using hboth.1), if_neg (by simpa using hboth.2), fenceOldBoot_eq]
    exact .kept rfl fun q => by cases q <;> rfl

theorem grown_commit (s : Fabric) (now : Time) (a : Attempt) :
    Grown s (s.commit now a) (.attempts :: if s.findSlot a.slot = none then [.slots] else []) := by
  have hconf := commit_confined s now a
  refine ⟨by rw [hconf], fun q => ?_⟩
  cases q with
  | attempts =>
    rw [if_pos (List.mem_cons_self ..)]
    exact List.length_append ..
  | slots =>
    show (s.commitSlots a).items.length = _
    unfold commitSlots
    cases hfind : s.findSlot a.slot with
    | none =>
      rw [if_pos rfl, if_pos (by simp)]
      exact List.length_append ..
    | some st =>
      rw [if_neg (by simp)]
      exact IndexedVec.length_modify ..
  | routeHistory slot =>
    show (s.commit now a).routes.displaced slot = _
    rw [commit_routes, if_neg (by split <;> simp)]
    rfl
  | _ =>
    rw [hconf, if_neg (by split <;> simp)]
    rfl

theorem grown_verifyStep (s : Fabric) (rd : Readings) (a : Attempt)
    (hstage : a.stage = .verifying) :
    Grown s (s.verifyStep rd a).1
      (.attempts :: if s.commits a ∧ s.findSlot a.slot = none then [.slots] else []) := by
  have hcommits : s.commits a = ((a.ops.verify a.route a.auth).verified && !s.superseded a) := by
    rw [commits, hstage]
    rfl
  have hlogged : ∀ st, s.commits a = false → Grown s (s.logAttempt st)
      (.attempts :: if s.commits a ∧ s.findSlot a.slot = none then [.slots] else []) := by
    intro st h
    rw [if_neg fun hc => Bool.noConfusion (h.symm.trans hc.1)]
    exact grown_logAttempt s st
  unfold verifyStep
  simp only
  cases hverified : (a.ops.verify a.route a.auth).verified with
  | false =>
    rw [if_pos rfl]
    exact hlogged _ (by rw [hcommits, hverified, Bool.false_and])
  | true =>
    rw [if_neg Bool.noConfusion]
    cases hsuperseded : s.superseded a with
    | true =>
      rw [if_pos rfl]
      exact hlogged _ (by rw [hcommits, hsuperseded, Bool.not_true, Bool.and_false])
    | false =>
      rw [if_neg Bool.noConfusion]
      simpa [hcommits, hverified, hsuperseded] using grown_commit s rd.now a

/-- **What a step of an attempt adds.** -/
theorem attemptStep_grown (rd : Readings) (s : Fabric) (a : Attempt) :
    Grown s (s.attemptStep rd a).1 (s.attemptAdds a) := by
  unfold attemptStep attemptAdds
  cases hst : a.stage with
  | validating => exact grown_validateAttempt s a
  | fencing => exact grown_fenceStep s rd a
  | activating =>
    simp only [activateStep]
    split
    · rename_i hack
      exact .ite (fun h => absurd (h.symm.trans hack) Bool.noConfusion) fun _ => .refl s
    · rename_i hack
      exact .ite (fun _ => grown_logAttempt s _) fun h => absurd (Bool.eq_false_iff.mpr hack) h
  | installing =>
    simp only [installStep]
    split
    · exact grown_install s a.route
    · exact grown_logAttempt s _
  | verifying => exact grown_verifyStep s rd a hst
  | recording m => exact .kept rfl fun q => by cases q <;> rfl
  | _ => exact .refl s

theorem grown_settled {s s' : Fabric} (h : Settled s s') : Grown s s' [] := by
  rw [h]
  exact .kept rfl fun q => by cases q <;> rfl

/-- **What a step of a call adds**: what its attempt does. -/
theorem callStep_grown (env : Env) (rd : Readings) (s : Fabric) (c : Call) :
    Grown s (s.callStep env rd c).1 (s.callAdds c) := by
  cases c with
  | plan a => exact attemptStep_grown rd s a
  | failback f =>
    show Grown s (s.failbackStep env rd f).1 _
    simp only [failbackStep, callAdds]
    cases f.stage with
    | evaluating =>
      simp only
      split <;> exact .refl s
    | reading =>
      simp only
      split <;> exact .refl s
    | planning pref =>
      have hfst : (s.planFailback env f pref).1 =
          (s.planFailoverPref env.rank f.slot (some pref)).1 := by
        unfold planFailback
        split <;> rename_i h <;> rw [h]
      show Grown s (s.planFailback env f pref).1 []
      rw [hfst, planFailoverPref_fst]
      exact .kept rfl fun q => by cases q <;> rfl
    | cutting a => exact attemptStep_grown rd s a
    | settling a => exact grown_settled (settleFailback_settled s rd.now f.slot a.result.state)
    | returned a r => exact .refl s
    | threw a e => exact .refl s

/-! ## Loading -/

/-- How many of the routes `es` of a slot replace another, when they are installed one
after the other and `cur` is the current one to begin with. -/
def replacements (slot : ServiceSlotKey) : Option RouteEntry → List RouteEntry → Nat
  | _, [] => 0
  | cur, e :: es =>
    if e.slot ≠ slot ∨ slot.service.isNull = true then replacements slot cur es
    else
      match cur with
      | none => replacements slot (some e) es
      | some c =>
        if c.generation.value < e.generation.value ∧ c.epoch.value ≤ e.epoch.value then
          replacements slot (some e) es + 1
        else replacements slot cur es

/-- The size of a structure after a load of the file, if the load replaces the
structure. -/
def fileSize (snap : PersistenceSnapshot) : Resource → Option Nat
  | .services => some snap.services.length
  | .slots => some (snap.assignments.map (·.slot)).dedup.length
  | .domains =>
    some (snap.domains.filterMap fun d => if d.id.isNull then none else some d.id).dedup.length
  | .memberships => some (snap.memberships.map fun m => (m.target, m.domain)).dedup.length
  | .evidence => some (snap.evidence.map (·.eventId)).dedup.length
  | .routeHistory slot => some (replacements slot none snap.routes)
  | .targets => none
  | .requests => none
  | .attempts => none

/-- What the file holds is within the limits. -/
def FileFits (snap : PersistenceSnapshot) (cfg : RuntimeConfig) : Prop :=
  ∀ r n, fileSize snap r = some n → n ≤ cfg.bound r

theorem slots_rebuilt (as : List Assignment) :
    (as.foldl place {}).items.length = (as.map (·.slot)).dedup.length := by
  have hfiled : ∀ (t : IndexedVec ServiceSlotKey SlotState) (a : Assignment),
      (t.modify a.slot (filed a)).items.map (·.slot) = t.items.map (·.slot) :=
    fun t a => IndexedVec.map_modify fun v _ => filed_slot a v
  have h := List.length_keys_foldl place (fun t => t.Indexed (·.slot))
    (fun t => t.items.map (·.slot)) (fun a => some a.slot) (fun t a ht => place_indexed ht a)
    (fun t a ht => ?_) IndexedVec.indexed_empty rfl as
  · rwa [List.length_map, List.filterMap_eq_map'] at h
  show (place t a).items.map (·.slot) = _ ∧ _ ∨ ∃ k, _ ∧ _ ∧ (place t a).items.map (·.slot) = _
  unfold place
  cases hfind : t.find a.slot with
  | some st =>
    obtain ⟨hst, hslot⟩ := ht.find_eq_some_iff.mp hfind
    refine Or.inl ⟨hfiled t a, ?_⟩
    rintro _ ⟨⟩
    exact List.mem_map.mpr ⟨st, hst, hslot⟩
  | none =>
    refine Or.inr ⟨a.slot, rfl, ?_, ?_⟩
    · intro hmem
      obtain ⟨st, hst, hslot⟩ := List.mem_map.mp hmem
      exact ht.find_eq_none_iff.mp hfind st hst hslot
    · exact (hfiled (t.push a.slot { slot := a.slot }) a).trans (List.map_append ..)

theorem domains_rebuilt (ds : List DomainDecl) (ms : List DomainMembership) :
    (ms.foldl DomainRegistry.setMembership (ds.foldl DomainRegistry.declare {})).domains.length =
      (ds.filterMap fun d => if d.id.isNull then none else some d.id).dedup.length := by
  have hkept : ∀ r : DomainRegistry,
      (ms.foldl DomainRegistry.setMembership r).domains = r.domains := by
    induction ms with
    | nil => exact fun r => rfl
    | cons m ms ih => exact fun r => ih (r.setMembership m)
  have h := List.length_keys_foldl DomainRegistry.declare (fun _ => True)
    (fun r => r.domains.map (·.id)) (fun d => if d.id.isNull then none else some d.id)
    (fun _ _ h => h) (fun r d _ => ?_) (s := {}) trivial rfl ds
  · rw [hkept, ← h, List.length_map]
  by_cases hnull : d.id.isNull = true
  · rw [if_pos hnull, DomainRegistry.declare, if_pos hnull]
    exact Or.inl ⟨rfl, nofun⟩
  · rw [if_neg hnull]
    rcases DomainRegistry.declare_ids r (Bool.eq_false_iff.mpr hnull) with ⟨hold, hk⟩ | ⟨hnew, hk⟩
    · refine Or.inl ⟨hk, ?_⟩
      rintro _ ⟨⟩
      exact hold
    · exact Or.inr ⟨d.id, rfl, hnew, hk⟩

theorem memberships_rebuilt (ds : List DomainDecl) (ms : List DomainMembership) :
    (ms.foldl DomainRegistry.setMembership
        (ds.foldl DomainRegistry.declare {})).memberships.length =
      (ms.map fun m => (m.target, m.domain)).dedup.length := by
  have hnone : ∀ r : DomainRegistry,
      (ds.foldl DomainRegistry.declare r).memberships = r.memberships := by
    induction ds with
    | nil => exact fun r => rfl
    | cons d ds ih =>
      intro r
      rw [List.foldl_cons, ih, DomainRegistry.declare]
      split <;> rfl
  have h := List.length_keys_foldl DomainRegistry.setMembership (fun _ => True)
    (fun r => r.memberships.map fun e => (e.target, e.domain)) (fun m => some (m.target, m.domain))
    (fun _ _ h => h) (fun r m _ => ?_) trivial (congrArg (List.map _) (hnone {})) ms
  · rwa [List.length_map, List.filterMap_eq_map'] at h
  rcases DomainRegistry.setMembership_keys r m with ⟨hold, hk⟩ | ⟨hnew, hk⟩
  · refine Or.inl ⟨hk, ?_⟩
    rintro _ ⟨⟩
    exact hold
  · exact Or.inr ⟨_, rfl, hnew, hk⟩

theorem evidence_rebuilt (evs : List FailureEvent) :
    (evs.foldl (fun t e => (EvidenceStore.publish t e).1) {}).events.items.length =
      (evs.map (·.eventId)).dedup.length := by
  have h := List.length_keys_foldl (fun t e => (EvidenceStore.publish t e).1)
    EvidenceStore.WellFormed EvidenceStore.ids (fun ev => some ev.eventId)
    (fun t ev ht => ht.publish ev) (fun t ev ht => ?_) EvidenceStore.wellFormed_empty rfl evs
  · rwa [EvidenceStore.ids, List.length_map, List.filterMap_eq_map'] at h
  cases hfind : t.events.find ev.eventId with
  | none =>
    rw [EvidenceStore.publish_new hfind]
    exact Or.inr ⟨ev.eventId, rfl, ht.find_eq_none_iff.mp hfind, EvidenceStore.ids_filed t ev⟩
  | some e =>
    refine Or.inl ⟨?_, ?_⟩
    · rcases EvidenceStore.publish_known hfind with ⟨-, hp⟩ | ⟨-, hp⟩
      · rw [hp, ht.ids_replaced]
      · rw [hp]
    · rintro _ ⟨⟩
      exact ht.mem_ids hfind

/-- Installing routes one after the other, seen from one slot. -/
theorem displaced_foldl (slot : ServiceSlotKey) (es : List RouteEntry) (t : RouteTable) :
    (es.foldl (fun t e => (RouteTable.install t e).1) t).displaced slot =
      t.displaced slot + replacements slot ((t.find_ slot).map (·.current)) es := by
  induction es generalizing t with
  | nil => rfl
  | cons e es ih =>
    rw [List.foldl_cons, ih, RouteTable.displaced_install, RouteTable.top_install, Nat.add_assoc]
    congr 1
    simp only [replacements]
    by_cases hskip : e.slot ≠ slot ∨ slot.service.isNull = true
    · have hadmits : ¬ (t.admits e.slot e.generation e.epoch = true ∧ slot = e.slot) := by
        rintro ⟨hacc, rfl⟩
        rcases hskip with hne | hnull
        · exact hne rfl
        · rw [RouteTable.admits, hnull] at hacc
          cases hacc
      have hrep : ¬ (t.replaces e = true ∧ slot = e.slot) := fun h =>
        hadmits ⟨(Bool.and_eq_true_iff.mp h.1).1, h.2⟩
      rw [if_pos hskip, if_neg hadmits, if_neg hrep, Nat.zero_add]
    · rw [if_neg hskip]
      obtain ⟨hslot, hnull⟩ := not_or.mp hskip
      obtain rfl := not_not.mp hslot
      rw [RouteTable.replaces, RouteTable.admits, Bool.eq_false_iff.mpr hnull]
      cases t.find_ e.slot with
      | none => simp
      | some sr =>
        by_cases hnewer : sr.current.generation.value < e.generation.value ∧
            sr.current.epoch.value ≤ e.epoch.value
        · simp [hnewer, Nat.add_comm]
        · simp [hnewer]

theorem slots_loaded (snap : PersistenceSnapshot) :
    (rebuildSlots snap).items.length = (snap.assignments.map (·.slot)).dedup.length := by
  unfold rebuildSlots
  simp only
  split
  · exact (List.length_map ..).trans (slots_rebuilt snap.assignments)
  · exact slots_rebuilt snap.assignments

/-- **What a load leaves**: what the file holds, and for the structures that it does not
replace, what was there. -/
theorem size_restore (s : Fabric) (snap : PersistenceSnapshot) (r : Resource) :
    (s.restore snap).size r = (fileSize snap r).getD (s.size r) := by
  cases r with
  | services => exact congrArg List.length (IndexedVec.ofItems_items snap.services)
  | slots => exact slots_loaded snap
  | targets => exact List.length_map ..
  | domains => exact domains_rebuilt snap.domains snap.memberships
  | memberships => exact memberships_rebuilt snap.domains snap.memberships
  | evidence => exact evidence_rebuilt snap.evidence
  | requests => rfl
  | attempts => rfl
  | routeHistory slot =>
    show (RouteTable.markRevalidationRequired _).displaced slot = _
    rw [RouteTable.displaced_markRevalidationRequired, displaced_foldl]
    exact Nat.zero_add _

/-- **A load keeps the limits exactly if the file is within them.** -/
theorem within_restore {s : Fabric} (hs : s.WithinBounds) (snap : PersistenceSnapshot) :
    (s.restore snap).WithinBounds ↔ FileFits snap s.cfg := by
  constructor
  · intro h r n hn
    have hbound := h r
    rw [size_restore, hn] at hbound
    exact hbound
  · intro h r
    rw [size_restore]
    cases hn : fileSize snap r with
    | none => exact hs r
    | some n => exact h r n hn

theorem within_new (cfg : RuntimeConfig) : WithinBounds { cfg := cfg } := by
  intro r
  cases r <;> exact Nat.zero_le _

end Fabric

open Fabric

/-! ## The runs -/

namespace SystemState

/-- What a step of the system adds to, when it does not load a file. -/
def adds (σ : SystemState) : Label → List Resource
  | .op o => σ.fabric.adds o
  | .advance i _ => ((σ.calls[i]?).map σ.fabric.callAdds).getD []
  | _ => []

/-- The step finds room: for what it adds, and for the file it loads. -/
def Fits (env : Env) (σ : SystemState) : Label → Prop
  | .op (.load blob) => ∀ snap, decode env.ord blob = .ok snap → FileFits snap σ.fabric.cfg
  | .restart cfg =>
    ∀ blob snap, σ.fabric.save = .ok blob → decode env.ord blob = .ok snap → FileFits snap cfg
  | l => ∀ r ∈ σ.adds l, σ.fabric.size r < σ.fabric.cfg.bound r

/-- **What a step of the system adds**, when it does not load a file. -/
theorem step_grown (env : Env) (σ : SystemState) (l : Label) (hload : ∀ blob, l ≠ .op (.load blob))
    (hrestart : ∀ cfg, l ≠ .restart cfg) : Grown σ.fabric (σ.step env l).fabric (σ.adds l) := by
  cases l with
  | op o => exact apply_grown env σ.fabric o fun blob h => hload blob (h ▸ rfl)
  | beginPlan plan ops => exact .refl σ.fabric
  | beginFailback slot ops => exact .refl σ.fabric
  | advance i rd =>
    have hadds : σ.adds (.advance i rd) = ((σ.calls[i]?).map σ.fabric.callAdds).getD [] := rfl
    rw [hadds]
    cases hc : σ.calls[i]? with
    | none =>
      rw [step_advance_none hc]
      exact .refl σ.fabric
    | some c =>
      rw [step_advance_some hc]
      exact callStep_grown env rd σ.fabric c
  | restart cfg => exact absurd rfl (hrestart cfg)

/-- **A step keeps the limits exactly if it finds room.** -/
theorem step_within {env : Env} {σ : SystemState} (l : Label) (hσ : σ.fabric.WithinBounds) :
    (σ.step env l).fabric.WithinBounds ↔ Fits env σ l := by
  by_cases hload : ∃ blob, l = .op (.load blob)
  · obtain ⟨blob, rfl⟩ := hload
    show (σ.fabric.apply env (.load blob)).WithinBounds ↔ _
    cases hd : decode env.ord blob with
    | error e =>
      have hrefused : ∀ snap, decode env.ord blob ≠ .ok snap := fun snap h =>
        nomatch hd.symm.trans h
      rw [apply_load_refused hrefused]
      exact iff_of_true hσ fun snap h => absurd h (hrefused snap)
    | ok snap =>
      rw [apply_load hd, within_restore hσ]
      constructor
      · intro h snap' hd'
        cases hd.symm.trans hd'
        exact h
      · exact fun h => h snap hd
  by_cases hrestart : ∃ cfg, l = .restart cfg
  · obtain ⟨cfg, rfl⟩ := hrestart
    cases hr : Fabric.restart env.ord cfg σ.fabric with
    | error e =>
      rw [step_restart_error hr]
      refine iff_of_true hσ fun blob snap hsave hd => ?_
      exact nomatch hr.symm.trans (restart_eq_ok.mpr ⟨blob, snap, hsave, hd, rfl⟩)
    | ok s' =>
      obtain ⟨blob, snap, hsave, hd, rfl⟩ := restart_eq_ok.mp hr
      rw [step_restart_ok hr, within_restore (within_new cfg)]
      constructor
      · intro h blob' snap' hsave' hd'
        cases hsave.symm.trans hsave'
        cases hd.symm.trans hd'
        exact h
      · exact fun h => h blob snap hsave hd
  · have hgrown := step_grown env σ l (not_exists.mp hload) (not_exists.mp hrestart)
    rw [hgrown.within hσ]
    cases l with
    | op o =>
      cases o with
      | load blob => exact absurd ⟨blob, rfl⟩ hload
      | _ => rfl
    | restart cfg => exact absurd ⟨cfg, rfl⟩ hrestart
    | _ => rfl

/-- **The limits hold all along a run exactly if every step of it finds room.** -/
theorem bounds_kept_iff (env : Env) (cfg : RuntimeConfig) (ls : List Label) :
    (∀ past, past <+: ls → (after env cfg past).fabric.WithinBounds) ↔
      ∀ past l, past ++ [l] <+: ls → Fits env (after env cfg past) l := by
  refine Transition.throughout_iff (I := fun past => (after env cfg past).fabric.WithinBounds)
    (within_new cfg) (fun _ h => h) (fun past l hpast hfits => ?_) (fun past l hpast h => ?_) ls
  · rw [after_concat]
    exact (step_within l hpast).mpr hfits
  · rw [after_concat] at h
    exact (step_within l hpast).mp h

/-- With room for one slot, two initial assignments are taken. -/
theorem slots_beyond_limit :
    ¬ ∀ (env : Env) (cfg : RuntimeConfig) (ls : List Label),
      (after env cfg ls).fabric.WithinBounds := by
  intro h
  have hslots := h Reference.env { maxSlots := 1 }
    [.op (.setInitialAssignment 0 Reference.initialAssignment),
      .op (.setInitialAssignment 0 { Reference.initialAssignment with slot := ⟨⟨1⟩, ⟨2⟩⟩ })] .slots
  exact absurd hslots (by decide)

end SystemState

end FailoverFabric
