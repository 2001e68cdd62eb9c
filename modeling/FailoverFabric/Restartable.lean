import FailoverFabric.ExclusiveAssignment
import FailoverFabric.Fabric.Records
import FailoverFabric.Persistence.Storable
import Mathlib.Data.Nat.Digits.Defs

/-! # What can be restarted from

`decode` enforces rules that the operations which fill the state do not: `save`
writes a service without slots, and `load` refuses the file
(`zero_slots_refused`).  `Restorable` collects what the rules need of the state,
the cutover record included; every step keeps it that is given storable records
of registered services, and whose commit finds its slot (`Storing`).  In every
run of such steps, a state can be saved and loaded exactly when it is within the
limits that the format puts on the whole (`reached_restartable`).
-/
namespace FailoverFabric
open Fabric Persistence

/-! ## Restorable states -/

/-- An assignment that a file holds and a load accepts. -/
structure Assignment.Restorable (a : Assignment) : Prop where
  storable : a.Storable
  authority : a.authorityGeneration.isNull = false

theorem Assignment.Restorable.withState {a : Assignment} (h : a.Restorable) (st : AssignmentState) :
    Assignment.Restorable { a with state := st } :=
  ⟨⟨h.storable.resourceClaims, h.storable.continuityState⟩, h.authority⟩

/-- What is saved of the state obeys the rules of `decode`. -/
structure Restorable (s : Fabric) : Prop where
  services : ∀ d ∈ s.services.items, d.Storable ∧ d.slots.count ≠ 0
  distinct : (s.services.items.map (·.service)).Nodup
  slots : SlotsWellFormed s.slots
  registered : EverySlot (fun key => key.service ∈ s.services.items.map (·.service)) s.slots
  records : EveryRecord (fun key a => a.slot = key ∧ a.Restorable) s.slots
  domains : ∀ d ∈ s.domains.domains, d.Storable
  evidence : ∀ e ∈ s.evidence.all, e.Storable
  routes : ∀ r ∈ s.routes.current_, r.current.Storable
  pending : s.hasTxn = true → ∀ a, s.pendingAssignment = some a → a.Storable ∧ a.state = .authorized
  source : s.hasTxn = true → ∀ a, s.sourceAssignment = some a → a.Storable
  route : s.hasTxn = true → ∀ e, s.pendingRoute = some e → e.Storable

namespace Restorable
variable {s s' : Fabric}

/-- What is saved of a restorable state is storable and valid. -/
theorem saveSnapshot (h : Restorable s) : s.saveSnapshot.Storable ∧ Valid s.saveSnapshot := by
  have hmem : ∀ a ∈ s.saveSnapshot.assignments, a.Restorable ∧
      a.slot.service ∈ s.services.items.map (·.service) := by
    intro a ha
    obtain ⟨st, hst, ha⟩ := List.mem_flatMap.mp ha
    obtain ⟨hslot, hrest⟩ := h.records st hst a ha
    exact ⟨hrest, hslot ▸ h.registered st hst⟩
  refine ⟨⟨rfl, fun d hd => (h.services d hd).1, fun a ha => (hmem a ha).1.storable, h.domains,
    h.evidence, fun e he => ?_, h.pending, h.source, h.route⟩,
    ⟨h.distinct, fun d hd => (h.services d hd).2, fun a ha => (hmem a ha).2,
      fun a ha => (hmem a ha).1.authority, ?_⟩⟩
  · obtain ⟨r, hr, rfl⟩ := List.mem_map.mp (List.mem_of_mem_filter he)
    exact h.routes r hr
  · refine (active_sublist h.slots.history fun st hst a ha => ?_).nodup h.slots.indexed.nodup
    exact (h.records st hst a ha).1

/-- **A restorable state can be saved and loaded** exactly when it is within the
limits on the whole. -/
theorem restartable (h : Restorable s) (ord : CallOrders) :
    (∃ blob snap, s.save = .ok blob ∧ decode ord blob = .ok snap) ↔ s.saveSnapshot.Within := by
  rw [show s.save = encode s.saveSnapshot from rfl, restartable_iff]
  exact ⟨fun hr => hr.2.2, fun hw => ⟨h.saveSnapshot.1, h.saveSnapshot.2, hw⟩⟩

end Restorable

/-! ## Stores -/

theorem DomainRegistry.declare_storable {r : DomainRegistry} {d : DomainDecl}
    (h : ∀ e ∈ r.domains, e.Storable) (hd : d.Storable) : ∀ e ∈ (r.declare d).domains, e.Storable := by
  intro e he
  unfold DomainRegistry.declare at he
  split at he
  · exact h e he
  · rcases List.mem_upsert he with rfl | he | ⟨z, hz, -, rfl⟩
    · exact hd
    · exact h e he
    · split
      · exact hd
      · exact h z hz

theorem DomainRegistry.replay_storable {ds : List DomainDecl} (h : ∀ d ∈ ds, d.Storable)
    (ms : List DomainMembership) :
    ∀ d ∈ (ms.foldl DomainRegistry.setMembership (ds.foldl DomainRegistry.declare {})).domains,
      d.Storable := by
  refine List.foldlRecOn (motive := fun r : DomainRegistry => ∀ d ∈ r.domains, d.Storable) ms _ ?_
    fun _ hr _ _ => hr
  refine List.foldlRecOn (motive := fun r : DomainRegistry => ∀ d ∈ r.domains, d.Storable) ds _ ?_
    fun _ hr d hd => DomainRegistry.declare_storable hr (h d hd)
  simp

theorem EvidenceStore.replay_storable {es : List FailureEvent} (h : ∀ e ∈ es, e.Storable) :
    ∀ e ∈ (es.foldl (fun t e => (EvidenceStore.publish t e).1) {}).all, e.Storable := by
  refine List.foldlRecOn (motive := fun t : EvidenceStore => ∀ e ∈ t.all, e.Storable) es _ ?_ ?_
  · simp [EvidenceStore.all]
  · intro t ht e he x hx
    rcases EvidenceStore.mem_all_publish hx with rfl | hx
    · exact h x he
    · exact ht x hx

namespace RouteTable
variable {t : RouteTable}

theorem install_storable {e : RouteEntry} (h : ∀ r ∈ t.current_, r.current.Storable)
    (he : e.Storable) : ∀ r ∈ (t.install e).1.current_, r.current.Storable := by
  intro r hr
  cases hacc : (t.install e).2 with
  | false =>
    rw [install_refused hacc] at hr
    exact h r hr
  | true =>
    rcases install_accepted hacc with ⟨-, -, ht⟩ | ⟨sr, -, ht⟩
    · rw [ht] at hr
      rcases List.mem_append.mp hr with hr | hr
      · exact h r hr
      · rw [List.mem_singleton] at hr
        exact hr ▸ he
    · rw [ht] at hr
      rcases List.mem_updateFirst hr with hr | ⟨z, -, -, rfl⟩
      · exact h r hr
      · exact he

theorem bindGateway_storable (h : ∀ r ∈ t.current_, r.current.Storable) (slot : ServiceSlotKey)
    (boot : GatewayBootId) : ∀ r ∈ (t.bindGateway slot boot).1.current_, r.current.Storable := by
  intro r hr
  unfold RouteTable.bindGateway at hr
  split at hr
  · exact h r hr
  split at hr
  · exact h r hr
  split at hr
  · exact h r hr
  · rcases List.mem_updateFirst hr with hr | ⟨z, hz, -, rfl⟩
    · exact h r hr
    · exact h z hz

theorem markRevalidationRequired_storable (h : ∀ r ∈ t.current_, r.current.Storable) :
    ∀ r ∈ t.markRevalidationRequired.current_, r.current.Storable := by
  intro r hr
  obtain ⟨z, hz, rfl⟩ := List.mem_map.mp hr
  unfold SlotRoute.revalidate
  split
  · exact h z hz
  · exact h z hz

theorem replay_storable {es : List RouteEntry} (h : ∀ e ∈ es, e.Storable) :
    ∀ r ∈ (es.foldl (fun t e => (RouteTable.install t e).1) {}).current_, r.current.Storable := by
  refine List.foldlRecOn (motive := fun t : RouteTable => ∀ r ∈ t.current_, r.current.Storable)
    es _ ?_ fun _ ht e he => install_storable ht (h e he)
  simp

end RouteTable

namespace Restorable
variable {s s' : Fabric}

/-- What a load accepts is restorable. -/
theorem restore {snap : PersistenceSnapshot} (hs : snap.Storable) (hv : Valid snap) (s : Fabric) :
    Restorable (s.restore snap) where
  services := by
    show ∀ d ∈ (IndexedVec.ofItems _ _).items, _
    rw [IndexedVec.ofItems_items]
    exact fun d hd => ⟨hs.services d hd, hv.slots d hd⟩
  distinct := by
    show ((IndexedVec.ofItems _ _).items.map _).Nodup
    rw [IndexedVec.ofItems_items]
    exact hv.services
  slots := SlotsWellFormed.rebuildSlots snap
  registered := by
    show EverySlot (fun key => key.service ∈ (IndexedVec.ofItems _ _).items.map _) _
    rw [IndexedVec.ofItems_items]
    exact EverySlot.rebuildSlots hv.known
  records := EveryRecord.rebuildSlots (fun a ha => ⟨rfl, hs.assignments a ha, hv.authority a ha⟩)
    fun _ _ st h => ⟨h.1, h.2.withState st⟩
  domains := DomainRegistry.replay_storable hs.domains snap.memberships
  evidence := EvidenceStore.replay_storable hs.evidence
  routes := RouteTable.markRevalidationRequired_storable (RouteTable.replay_storable hs.routes)
  pending := hs.pending
  source := hs.source
  route := hs.route

end Restorable

/-! ## Operations -/

/-- **A step stores what a load accepts.**  Accepted services have slots and
accepted assignments a registered service and an authority generation; records
that are stored fit the format; and a commit finds the record of its slot. -/
def storing (σ : SystemState) : Label → Bool
  | .op (.createService d) =>
    !(σ.fabric.createService d).isOk || decide (d.Storable ∧ d.slots.count ≠ 0)
  | .op (.setInitialAssignment now a) =>
    !(σ.fabric.setInitialAssignment now a).isOk || decide (a.Storable ∧
      a.slot.service ∈ σ.fabric.services.items.map (·.service) ∧
      (a.authorityGeneration.isNull = false ∨ σ.fabric.lastAuthorityGen.isNull = false))
  | .op (.declareDomain d) => decide d.Storable
  | .op (.publishFailure ev) => decide ev.Storable
  | .op (.installRoute entry _) => decide entry.Storable
  | l => !commitsUnindexed σ l

def Storing (σ : SystemState) (l : Label) : Prop := storing σ l = true

namespace Restorable
variable {s s' : Fabric}

theorem createService {d : ServiceDefinition} (h : Restorable s) (hs : s.createService d = .ok s')
    (hd : d.Storable ∧ d.slots.count ≠ 0) : Restorable s' := by
  obtain ⟨rfl, hfresh⟩ := createService_eq hs
  refine { h with services := ?_, distinct := ?_, registered := ?_ }
  · intro x hx
    rcases List.mem_append.mp hx with hx | hx
    · exact h.services x hx
    · rw [List.mem_singleton] at hx
      exact hx ▸ hd
  · rw [IndexedVec.push_items, List.map_append]
    refine List.nodup_append.mpr ⟨h.distinct, by simp, fun a ha b hb hab => ?_⟩
    obtain ⟨x, hx, rfl⟩ := List.mem_map.mp ha
    rw [List.map_singleton, List.mem_singleton] at hb
    exact hfresh x hx (hab.trans hb)
  · intro st hst
    rw [IndexedVec.push_items, List.map_append]
    exact List.mem_append_left _ (h.registered st hst)

theorem setInitialAssignment {a : Assignment} (h : Restorable s) (hs : InitialStep s s' a)
    (ha : a.Storable) (hknown : a.slot.service ∈ s.services.items.map (·.service))
    (hauth : a.authorityGeneration.isNull = false ∨ s.lastAuthorityGen.isNull = false) :
    Restorable s' := by
  have hactivated : (s.activated a).Restorable := by
    refine ⟨⟨ha.resourceClaims, ha.continuityState⟩, ?_⟩
    unfold activated
    split
    · rename_i hnull
      exact hauth.resolve_left (by simp [hnull])
    · rename_i hnull
      simpa using hnull
  have hslots : EverySlot (fun key => key.service ∈ s.services.items.map (·.service)) s'.slots ∧
      EveryRecord (fun key a => a.slot = key ∧ a.Restorable) s'.slots := by
    rcases hs.slots with ⟨-, -, -, hslots⟩ | ⟨-, hslots⟩
    · rw [hslots]
      refine ⟨h.registered.modify _ fun _ => rfl, h.records.modify fun st hst hrec b hb => ?_⟩
      rcases mem_assignments.mp hb with hb | hb
      · cases hb
        exact ⟨(h.slots.indexed.sound.key_of_find hst).symm, hactivated⟩
      · exact hrec b (mem_assignments.mpr (Or.inr hb))
    · rw [hslots]
      refine ⟨h.registered.push hknown _, h.records.push fun b hb => ?_⟩
      cases hb
      exact ⟨rfl, hactivated⟩
  have hwf := h.slots.setInitialAssignment hs
  rw [hs.fabric]
  exact { h with slots := hwf, registered := hslots.1, records := hslots.2 }

theorem sequenced_storable {ev : FailureEvent} (h : ev.Storable) : (s.sequenced ev).Storable := by
  unfold sequenced
  split
  · exact ⟨h.category, h.confidence, h.mechanism, h.detail, h.affectedDomains⟩
  · exact h

theorem apply {env : Env} {σ : SystemState} {o : Op} (h : Restorable σ.fabric)
    (hok : Storing σ (.op o)) : Restorable (σ.fabric.apply env o) := by
  have heff := apply_effect env σ.fabric o
  generalize σ.fabric.apply env o = s' at heff
  unfold Storing at hok
  cases heff with
  | transient ht =>
    rw [ht]
    exact { h with }
  | identity id epoch => exact { h with }
  | created hs =>
    simp only [storing, hs, Except.isOk, Except.toBool, Bool.not_true, Bool.false_or,
      decide_eq_true_eq] at hok
    exact h.createService hs hok
  | assigned hs =>
    simp only [storing, hs, Except.isOk, Except.toBool, Bool.not_true, Bool.false_or,
      decide_eq_true_eq] at hok
    obtain ⟨ha, hknown, hauth⟩ := hok
    exact h.setInitialAssignment (setInitialAssignment_eq_ok hs) ha hknown hauth
  | declared d =>
    exact { h with domains := DomainRegistry.declare_storable h.domains (of_decide_eq_true hok) }
  | member m => exact { h with }
  | published ev =>
    refine { h with evidence := fun e he => ?_ }
    rcases EvidenceStore.mem_all_publish he with rfl | he
    · exact sequenced_storable (of_decide_eq_true hok)
    · exact h.evidence e he
  | cleared id =>
    refine { h with evidence := fun e he => ?_ }
    rw [show (σ.fabric.clearFailure id).evidence.all = _ from EvidenceStore.all_clear _ id] at he
    exact h.evidence e he
  -- a route of another epoch is refused, and then nothing is stored
  | installed entry boot =>
    have hroutes : ∀ r ∈ (σ.fabric.installRoute entry boot).1.routes.current_, r.current.Storable := by
      unfold installRoute
      split
      · exact h.routes
      · exact RouteTable.install_storable h.routes (of_decide_eq_true hok : entry.Storable)
    rw [installRoute_eq]
    exact { h with routes := hroutes }
  | bound slot boot => exact { h with routes := RouteTable.bindGateway_storable h.routes slot boot }
  | revalidated => exact { h with routes := RouteTable.markRevalidationRequired_storable h.routes }
  | loaded hd => exact restore (decode_storable hd) (decode_valid hd) _

end Restorable

/-! ## Calls -/

/-- What an attempt may write can be restored: its route, the assignment it sets
out to replace, and its replacement as long as it is in progress. -/
structure AttemptRestorable (a : Attempt) : Prop where
  route : a.route.Storable
  old : ∀ o, a.oldAssign = some o → o.slot = a.slot ∧ o.Restorable
  new : a.stage = .validating ∨ Ended a ∨
    a.newAssign.slot = a.slot ∧ a.newAssign.Restorable ∧ a.newAssign.state = .authorized

/-- The address of a target's pipe fits. -/
theorem transport_fits (n : UInt64) : TextFits (text "pipes/" ++ decimal n.toNat) := by
  have hlen : (Nat.repr n.toNat).length ≤ 20 :=
    Nat.repr_length n.toNat 20 (by decide) (Nat.lt_trans n.toNat_lt (by decide))
  have hdec : (decimal n.toNat).length ≤ 20 := by
    rw [decimal, text, List.length_map, String.length_toList]
    exact hlen
  have htext : (text "pipes/").length = 6 := by decide
  have hmax : 26 ≤ kMaxString := by decide
  rw [TextFits, List.length_append, htext]
  omega

theorem attemptStep_route_storable {rd : Readings} {s : Fabric} {a : Attempt} (h : a.route.Storable) :
    (s.attemptStep rd a).2.route.Storable := by
  unfold attemptStep
  cases hst : a.stage with
  | composing => exact transport_fits _
  | validating =>
    simp only [validateAttempt]
    repeat' split
    all_goals exact h
  | saving m =>
    simp only [saveCheckpoint]
    repeat' split
    all_goals exact h
  | testing m =>
    simp only [testBarrier]
    split <;> exact h
  | fencing =>
    simp only [fenceStep]
    split_ifs <;> exact h
  | activating =>
    simp only [activateStep]
    split <;> exact h
  | installing =>
    simp only [installStep]
    split <;> exact h
  | verifying =>
    simp only [verifyStep]
    split_ifs <;> exact h
  | _ => exact h

namespace AttemptRestorable
variable {s : Fabric} {a : Attempt}

theorem begin (plan : FailoverPlan) (ops : CutoverOps) :
    AttemptRestorable { plan := plan, ops := ops } where
  route := Nat.zero_le _
  old := nofun
  new := Or.inl rfl

/-- A current assignment of a restorable state can be restored. -/
theorem current {key : ServiceSlotKey} {o : Assignment} (h : Restorable s)
    (ho : s.currentAssignment key = some o) : o.slot = key ∧ o.Restorable := by
  obtain ⟨st, hst, hcur⟩ := Option.bind_eq_some_iff.mp ho
  obtain ⟨hslot, hrest⟩ := h.records st (IndexedVec.mem_of_find hst) o
    (mem_assignments.mpr (Or.inl hcur))
  exact ⟨hslot.trans (h.slots.indexed.sound.key_of_find hst), hrest⟩

theorem step (ha : AttemptRestorable a) (h : Restorable s) (rd : Readings) :
    AttemptRestorable (s.attemptStep rd a).2 := by
  refine ⟨attemptStep_route_storable ha.route, ?_, ?_⟩
  · by_cases hst : a.stage = .validating
    · rw [attemptStep_validating hst]
      rcases validateAttempt_cases s a with ⟨hacc, -⟩ | ⟨⟨_, _, he⟩, -⟩ | ⟨⟨_, he⟩, -⟩
      · intro o ho
        rw [hacc.old] at ho
        rw [Attempt.slot, hacc.plan]
        exact current h ho
      · rw [he]
        exact ha.old
      · rw [he]
        exact ha.old
    · have hsame := attemptStep_same rd s a hst
      rw [hsame.old, Attempt.slot, hsame.plan]
      exact ha.old
  · refine attemptStep_new (P := fun a => a.newAssign.slot = a.slot ∧ a.newAssign.Restorable ∧
      a.newAssign.state = .authorized) ?_ ?_ ha.new
    · intro a' _ hacc
      have hnew := composeAssignment_eq_ok hacc.issued
      refine ⟨?_, ⟨⟨Nat.le_trans hnew.resourceClaims (by decide), ?_⟩, ?_⟩, hnew.state⟩
      · rw [hnew.slot, Attempt.slot, hacc.plan]
      · rw [CountFits, hnew.continuityState]
        exact Nat.zero_le _
      · exact Gen.next_ne_null hnew.authority
    · intro a' hsame hnew ha
      rw [hnew, Attempt.slot, hsame.plan]
      exact ha

end AttemptRestorable

namespace Restorable
variable {s : Fabric} {a : Attempt}

/-- The checkpoint of an attempt in progress. -/
theorem recordTxn (h : Restorable s) (ha : AttemptRestorable a) {m : Milestone}
    (hst : a.stage = .recording m) : Restorable (s.recordTxn m a) := by
  obtain ⟨-, hnew⟩ := holds_of_acting ha.new (Or.inr ⟨m, hst⟩)
  refine { h with pending := fun _ b hb => ?_, source := fun _ b hb => ?_, route := fun _ e he => ?_ }
  · cases hb
    exact ⟨hnew.1.storable, hnew.2⟩
  · exact (ha.old b hb).2.storable
  · change (if m = .routeInstalled then some a.route else none) = some e at he
    split at he
    · cases he
      exact ha.route
    · cases he

/-- A commit into a record of its slot. -/
theorem commit (h : Restorable s) (ha : AttemptRestorable a) (now : Time)
    (hst : a.stage = .verifying) (hslot : s.findSlot a.slot ≠ none) :
    Restorable (s.commit now a) := by
  obtain ⟨hown, hnew, -⟩ := holds_of_acting ha.new (Or.inl hst)
  have hrecords : EverySlot (fun key => key.service ∈ s.services.items.map (·.service))
        (s.commitSlots a) ∧
      EveryRecord (fun key a => a.slot = key ∧ a.Restorable) (s.commitSlots a) := by
    unfold commitSlots
    split
    · refine ⟨h.registered.modify _ fun _ => rfl, h.records.modify fun st hst hrec b hb => ?_⟩
      have hkey : st.slot = a.slot := h.slots.indexed.sound.key_of_find hst
      rcases mem_assignments.mp hb with hb | hb
      · cases hb
        exact ⟨hown.trans hkey.symm, ⟨hnew.storable.resourceClaims,
          hnew.storable.continuityState⟩, hnew.authority⟩
      rcases List.mem_append.mp hb with hb | hb
      · exact hrec b (mem_assignments.mpr (Or.inr hb))
      -- the displaced assignment: the record's current one, or the attempt's old one
      rw [Option.mem_toList, Option.map_eq_some_iff] at hb
      obtain ⟨d, hd, rfl⟩ := hb
      cases hcur : st.current with
      | some cur =>
        obtain rfl : cur = d := by simpa [hcur] using hd
        have hd := hrec cur (mem_assignments.mpr (Or.inl hcur))
        exact ⟨hd.1, hd.2.withState _⟩
      | none =>
        rw [hcur] at hd
        have hd := ha.old d hd
        exact ⟨hd.1.trans hkey.symm, hd.2.withState _⟩
    · rename_i hnone
      exact absurd hnone hslot
  have hwf : SlotsWellFormed (s.commit now a).slots := h.slots.commit hslot
  unfold Fabric.commit at hwf ⊢
  rw [fenceOldBoot_eq]
  exact { h with
    slots := hwf, registered := hrecords.1, records := hrecords.2
    pending := nofun, source := nofun, route := nofun }

theorem attemptStep (h : Restorable s) (ha : AttemptRestorable a) (rd : Readings)
    (hcommit : ∀ r, CommitStep rd.now s a r → s.findSlot a.slot ≠ none) :
    Restorable (s.attemptStep rd a).1 := by
  rcases attemptStep_saved rd s a with hs | ⟨m, hst, hs⟩ | ⟨b, hs⟩ | ⟨-, -, hs⟩ | hc
  · rw [hs]
    exact { h with }
  · rw [hs]
    exact h.recordTxn ha hst
  · rw [hs, addFencedBoot_eq]
    exact { h with }
  · rw [hs]
    exact { h with routes := RouteTable.install_storable h.routes ha.route }
  · rw [hc.fabric]
    exact h.commit ha rd.now hc.before (hcommit _ hc)

end Restorable

/-! ## The property -/

/-- The state, and what its attempts may write to it, can be restored. -/
structure SystemRestorable (σ : SystemState) : Prop where
  fabric : Restorable σ.fabric
  attempts : ∀ c ∈ σ.calls, ∀ a, c.attempt = some a → AttemptRestorable a

theorem SystemRestorable.advance {env : Env} {σ : SystemState} {i : Nat} {rd : Readings}
    (h : SystemRestorable σ) (hok : CommitsIndexed σ (.advance i rd)) :
    Restorable (σ.step env (.advance i rd)).fabric := by
  rcases step_advance_cases env σ i rd with hstep | ⟨c, hc, hstep⟩
  · rw [hstep]
    exact h.fabric
  rw [hstep]
  show Restorable (σ.fabric.callStep env rd c).1
  rcases callStep_effect env rd σ.fabric c with ⟨hf, -⟩ | ⟨hf, -⟩ | ⟨a, ha, hf, -⟩
  · rw [hf]
    exact { h.fabric with }
  · rw [hf]
    exact { h.fabric with }
  · rw [hf]
    exact h.fabric.attemptStep (h.attempts c (List.mem_of_getElem? hc) a ha) rd fun _ hcommit =>
      hok.findSlot hc ha hcommit

/-- One step keeps the state restorable. -/
theorem SystemRestorable.step {env : Env} {σ : SystemState} {l : Label} (h : SystemRestorable σ)
    (hok : Storing σ l) : SystemRestorable (σ.step env l) := by
  refine ⟨?_, step_attempts AttemptRestorable.begin (fun rd a ha => ha.step h.fabric rd) h.attempts⟩
  cases l with
  | op o => exact h.fabric.apply hok
  | beginPlan plan ops => exact h.fabric
  | beginFailback slot ops => exact h.fabric
  | advance i rd => exact h.advance hok
  | restart cfg =>
    rcases step_restart_cases env σ cfg with hstep | ⟨_, snap, -, hd, hstep⟩
    · rw [hstep]
      exact h.fabric
    · rw [hstep]
      exact Restorable.restore (decode_storable hd) (decode_valid hd) _

theorem SystemRestorable.initial (cfg : RuntimeConfig) :
    SystemRestorable { fabric := { cfg := cfg } } where
  fabric :=
    { services := fun _ h => absurd h List.not_mem_nil
      distinct := List.nodup_nil
      slots := SlotsWellFormed.empty
      registered := fun _ h => absurd h List.not_mem_nil
      records := fun _ h => absurd h List.not_mem_nil
      domains := fun _ h => absurd h List.not_mem_nil
      evidence := fun _ h => absurd h List.not_mem_nil
      routes := fun _ h => absurd h List.not_mem_nil
      pending := nofun
      source := nofun
      route := nofun }
  attempts := fun _ h => absurd h List.not_mem_nil

/-- **Reached states can be restarted from.**  In every state of every run whose
steps store what a load accepts, the snapshot that `save` builds can be encoded
and the result decoded, exactly when it is within the limits that the format puts
on counts and on the size of the whole. -/
theorem reached_restartable (env : Env) {σ : SystemState}
    (h : Transition.Reachable (machine env) Storing σ) :
    (∃ blob snap, encode σ.fabric.saveSnapshot = .ok blob ∧ decode env.ord blob = .ok snap) ↔
      σ.fabric.saveSnapshot.Within := by
  have hσ : SystemRestorable σ := by
    refine h.invariant (P := SystemRestorable) ?_ fun σ l _ hσ hl => hσ.step hl
    rintro σ ⟨cfg, rfl⟩
    exact .initial cfg
  exact hσ.fabric.restartable env.ord

open Reference in
/-- The reference deployment after a whole cutover can be restarted from. -/
theorem reached_restartable_reference :
    let σ := (machine env).run { fabric := {} }
      (setup.map Label.op ++ callOf 0 (planOf (after setup)))
    σ.fabric.saveSnapshot.Within ∧
      ∃ blob snap, encode σ.fabric.saveSnapshot = .ok blob ∧ decode env.ord blob = .ok snap := by
  intro σ
  have hreach : Transition.Reachable (machine env) Storing σ :=
    Transition.Reachable.run (b := storing) _ (.initial ⟨{}, rfl⟩) (by decide +kernel)
  have hwithin : σ.fabric.saveSnapshot.Within :=
    ⟨by decide +kernel, by decide +kernel, by decide +kernel, by decide +kernel, by decide +kernel,
      by decide +kernel, by decide +kernel, by decide +kernel⟩
  exact ⟨hwithin, (reached_restartable env hreach).mpr hwithin⟩

open Reference in
/-- **A service without slots cannot be restarted from**: `createService` accepts
it, and what is saved of it is refused. -/
theorem zero_slots_refused :
    ¬ ∀ σ, Transition.Reachable (machine env) (fun _ _ => True) σ →
      ∃ blob snap, encode σ.fabric.saveSnapshot = .ok blob ∧ decode env.ord blob = .ok snap := by
  intro h
  let empty : ServiceDefinition := { service with slots := ⟨1, 0⟩ }
  let labels : List Label := [.op (.createService empty)]
  let σ := (machine env).run { fabric := {} } labels
  obtain ⟨-, hv, -⟩ := restartable_iff.mp (h σ (reachable_run labels))
  have hmem : empty ∈ σ.fabric.saveSnapshot.services := by decide +kernel
  exact hv.slots empty hmem rfl

end FailoverFabric
