import FailoverFabric.CoordinatorService
import FailoverFabric.ExclusiveAssignment

/-! # Services apart

The services of a coordinator have their slots, routes and failback budgets to themselves: no
frame that names another service, and no cutover of another service, has an effect on them
(`services_isolated`).  What they share are the fenced boots.  A cutover of one service that
fences a worker ends what the worker serves for any other, and that is the only way in which
one service stops another.
-/
namespace FailoverFabric
open Fabric Protocol

/-! ## What a service has to itself -/

/-- From `s` to `s'` the service of the slot is left alone, but for the fences and the gateway
of its route. -/
structure LeftAlone (key : ServiceSlotKey) (s s' : Fabric) : Prop where
  slot : s'.findSlot key = s.findSlot key
  service : s'.findService key.service = s.findService key.service
  route : ∃ g : RouteEntry → GatewayBootId, s'.routes.current key =
    (s.routes.current key).map fun e => { e with gatewayBoot := g e }
  preferred : s'.preferred key = s.preferred key
  transition : s'.lastTransition key = s.lastTransition key
  attempts : s'.failbackAttempts key = s.failbackAttempts key
  fences : ∀ b ∈ s.fencedBoots, b ∈ s'.fencedBoots
  epoch : s'.epoch = s.epoch

namespace LeftAlone
variable {key : ServiceSlotKey} {s s' s'' : Fabric}

theorem same_route (h : s'.routes.current key = s.routes.current key) :
    ∃ g : RouteEntry → GatewayBootId, s'.routes.current key =
      (s.routes.current key).map fun e => { e with gatewayBoot := g e } :=
  ⟨(·.gatewayBoot), by rw [h]; simp⟩

/-- A state that is the same as far as services are concerned. -/
theorem of_same (h : s' = { s' with
    slots := s.slots
    services := s.services
    routes := s.routes
    preferred := s.preferred
    lastTransition := s.lastTransition
    failbackAttempts := s.failbackAttempts
    fencedBoots := s.fencedBoots
    epoch := s.epoch }) : LeftAlone key s s' := by
  refine ⟨?_, ?_, same_route ?_, ?_, ?_, ?_, fun b hb => ?_, ?_⟩
  · rw [findSlot, h]
    rfl
  · rw [findService, h]
    rfl
  · rw [h]
  · rw [h]
  · rw [h]
  · rw [h]
  · rw [h]
    exact hb
  · rw [h]

theorem refl (s : Fabric) : LeftAlone key s s := of_same rfl

theorem trans (h : LeftAlone key s s') (h' : LeftAlone key s' s'') : LeftAlone key s s'' where
  slot := h'.slot.trans h.slot
  service := h'.service.trans h.service
  route := by
    obtain ⟨g, hg⟩ := h.route
    obtain ⟨g', hg'⟩ := h'.route
    refine ⟨fun e => g' { e with gatewayBoot := g e }, ?_⟩
    rw [hg', hg, Option.map_map]
    rfl
  preferred := h'.preferred.trans h.preferred
  transition := h'.transition.trans h.transition
  attempts := h'.attempts.trans h.attempts
  fences b hb := h'.fences b (h.fences b hb)
  epoch := h'.epoch.trans h.epoch

/-- What is served for a service that was left alone is what was served before, if its boot has
not been fenced since. -/
theorem allowed_iff (h : LeftAlone key s s') {auth : WorkerAuthorization} (hslot : auth.slot = key) :
    (s'.dispatchAllowed auth).allowed = true ↔
      (s.dispatchAllowed auth).allowed = true ∧ auth.workerBoot ∉ s'.fencedBoots := by
  subst hslot
  have hcur : s'.currentAssignment auth.slot = s.currentAssignment auth.slot := by
    rw [currentAssignment, h.slot]
    rfl
  have hshut : s'.routeShut auth.slot = s.routeShut auth.slot := by
    obtain ⟨g, hg⟩ := h.route
    unfold routeShut
    rw [hg]
    cases s.routes.current auth.slot <;> rfl
  rw [dispatchAllowed_iff, dispatchAllowed_iff, h.epoch]
  constructor
  · rintro ⟨cur, hserves, hnames⟩
    refine ⟨⟨cur, ?_, hnames⟩, hnames.workerBoot ▸ hserves.unfenced⟩
    exact ⟨hcur ▸ hserves.current, hserves.active, fun hf => hserves.unfenced (h.fences _ hf),
      hshut ▸ hserves.route⟩
  · rintro ⟨⟨cur, hserves, hnames⟩, hunfenced⟩
    exact ⟨cur, ⟨hcur.trans hserves.current, hserves.active, hnames.workerBoot ▸ hunfenced,
      hshut.trans hserves.route⟩, hnames⟩

end LeftAlone

/-! ## Operations, attempts and calls of other services -/

section Elsewhere
variable {env : Env} {key : ServiceSlotKey} {s s' : Fabric}

/-- The records of the fabric are filed under their keys. -/
structure WellFiled (s : Fabric) : Prop where
  slots : s.slots.Sound (·.slot)
  services : s.services.Sound (·.service)

/-- The operation is about another service, or about none. -/
def Op.Elsewhere (key : ServiceSlotKey) : Op → Prop
  | .createService d => d.service ≠ key.service
  | .setInitialAssignment _ a => a.slot ≠ key
  | .installRoute e _ => e.slot ≠ key
  | .markRoutesRevalidation => False
  | _ => True

theorem LeftAlone.assigned {now : Time} {a : Assignment} (hs : WellFiled s) (hne : a.slot ≠ key)
    (h : s.setInitialAssignment now a = .ok s') : LeftAlone key s s' := by
  have hstep := setInitialAssignment_eq_ok h
  have hslot : s'.findSlot key = s.findSlot key := by
    unfold findSlot
    rcases hstep.slots with ⟨st, -, -, hslots⟩ | ⟨-, hslots⟩
    · rw [hslots, IndexedVec.find_modify hs.slots, if_neg (Ne.symm hne)]
    · rw [hslots, IndexedVec.find_push _ _ _ hs.slots, if_neg (Ne.symm hne)]
  have hown : s'.preferred key = s.preferred key ∧ s'.lastTransition key = s.lastTransition key ∧
      s'.failbackAttempts key = s.failbackAttempts key := by
    unfold Fabric.setInitialAssignment at h
    split at h
    · cases h
    split at h
    · split at h
      · cases h
      · cases h
        simp [Function.update_of_ne (Ne.symm hne)]
    · cases h
      simp [Function.update_of_ne (Ne.symm hne)]
  refine ⟨hslot, by rw [hstep.fabric]; rfl, LeftAlone.same_route (by rw [hstep.fabric]), hown.1,
    hown.2.1, hown.2.2, fun b hb => by rw [hstep.fabric]; exact hb, by rw [hstep.fabric]⟩

/-- An operation about another service. -/
theorem LeftAlone.op {o : Op} (hs : WellFiled s) (hmsg : fromMessage (.op o) = true)
    (ho : o.Elsewhere key) : LeftAlone key s (s.apply env o) := by
  have heff := apply_effect env s o
  generalize s.apply env o = s' at heff
  cases heff with
  | transient h =>
    refine .of_same ?_
    rw [h]
  | created h =>
    rw [(createService_eq h).1]
    refine ⟨rfl, ?_, LeftAlone.same_route rfl, rfl, rfl, rfl, fun b hb => hb, rfl⟩
    exact (IndexedVec.find_push _ key.service _ hs.services).trans (if_neg (Ne.symm ho))
  | assigned h => exact .assigned hs ho h
  | installed entry boot =>
    have hroute : (s.installRoute entry boot).1.routes.current key = s.routes.current key := by
      unfold Fabric.installRoute
      split
      · rfl
      · exact RouteTable.current_install_of_ne (by simp) fun _ => ho
    rw [installRoute_eq]
    exact ⟨rfl, rfl, LeftAlone.same_route hroute, rfl, rfl, rfl, fun b hb => hb, rfl⟩
  | bound slot boot =>
    exact ⟨rfl, rfl, RouteTable.current_bindGateway s.routes slot boot key, rfl, rfl, rfl,
      fun b hb => hb, rfl⟩
  | revalidated => exact ho.elim
  | identity id epoch => cases hmsg
  | loaded h => cases hmsg
  | _ => exact .of_same rfl

/-- The commit of another slot. -/
theorem LeftAlone.commit {now : Time} {a : Attempt} (hs : WellFiled s) (hne : a.slot ≠ key) :
    LeftAlone key s (s.commit now a) := by
  have hslot : (s.commitSlots a).find key = s.slots.find key := by
    unfold commitSlots
    split
    · rw [IndexedVec.find_modify hs.slots, if_neg (Ne.symm hne)]
    · exact IndexedVec.find_pushUnindexed hs.slots key _
  have hfences : ∀ b ∈ s.fencedBoots, b ∈ (s.fenceOldBoot a).fencedBoots :=
    fun b hb => mem_fenceOldBoot.mpr (.inl hb)
  unfold Fabric.commit
  rw [fenceOldBoot_eq] at hfences ⊢
  exact ⟨hslot, rfl, LeftAlone.same_route rfl, rfl, Function.update_of_ne (Ne.symm hne) .., rfl,
    hfences, rfl⟩

/-- A step of an attempt for another slot. -/
theorem LeftAlone.attempt {rd : Readings} {a : Attempt} (hs : WellFiled s) (hcons : Consistent a)
    (hne : a.slot ≠ key) : LeftAlone key s (s.attemptStep rd a).1 := by
  have heff := attemptStep_saved rd s a
  generalize hr : (s.attemptStep rd a).1 = s' at heff
  cases heff with
  | counted h =>
    refine .of_same ?_
    rw [h]
  | recorded m hst h =>
    rw [h]
    exact .of_same rfl
  | fenced b h =>
    have hfences : ∀ b' ∈ s.fencedBoots, b' ∈ (s.addFencedBoot b).fencedBoots :=
      fun b' => mem_addFencedBoot_of_mem
    rw [h]
    rw [addFencedBoot_eq] at hfences ⊢
    exact ⟨rfl, rfl, LeftAlone.same_route rfl, rfl, rfl, rfl, hfences, rfl⟩
  | installed hst hack h =>
    have hprep := hcons.route (by rw [hst]; rfl)
    have hroute : (s.routes.install a.route).1.current key = s.routes.current key :=
      RouteTable.current_install_of_ne hprep.not_empty fun _ => hprep.slot ▸ hne
    rw [h]
    exact ⟨rfl, rfl, LeftAlone.same_route hroute, rfl, rfl, rfl, fun b hb => hb, rfl⟩
  | committed h =>
    rw [← hr, h.fabric]
    exact .commit hs hne

/-- The call is for another slot. -/
def Call.Elsewhere (key : ServiceSlotKey) : Call → Prop
  | .plan a => a.slot ≠ key ∧ Consistent a
  | .failback f => f.slot ≠ key ∧ ∀ a, f.stage.attempt = some a → a.slot ≠ key ∧ Consistent a

theorem LeftAlone.settled {now : Time} {slot : ServiceSlotKey} {state : AttemptState}
    (hne : slot ≠ key) : LeftAlone key s (s.settleFailback now slot state) := by
  unfold settleFailback
  split
  · exact ⟨rfl, rfl, LeftAlone.same_route rfl, rfl, Function.update_of_ne (Ne.symm hne) ..,
      Function.update_of_ne (Ne.symm hne) .., fun b hb => hb, rfl⟩
  · exact ⟨rfl, rfl, LeftAlone.same_route rfl, rfl, rfl, Function.update_of_ne (Ne.symm hne) ..,
      fun b hb => hb, rfl⟩

theorem elsewhere_step {rd : Readings} {a : Attempt} (h : a.slot ≠ key ∧ Consistent a) :
    (s.attemptStep rd a).2.slot ≠ key ∧ Consistent (s.attemptStep rd a).2 := by
  refine ⟨?_, h.2.step⟩
  rw [Attempt.slot, attemptStep_plan]
  exact h.1

/-- A failback for another slot plans for that slot. -/
theorem LeftAlone.planned {f : Failback} (hne : f.slot ≠ key) (pref : TargetId) :
    LeftAlone key s (s.planFailback env f pref).1 ∧
      Call.Elsewhere key (.failback (s.planFailback env f pref).2) := by
  have hfst := planFailoverPref_fst env.rank s f.slot (some pref)
  have halone : LeftAlone key s (s.planFailoverPref env.rank f.slot (some pref)).1 := by
    rw [hfst]
    exact .of_same rfl
  have hsnd : ∀ plan, (s.planFailoverPref env.rank f.slot (some pref)).2 = .ok (some plan) →
      plan.slot = f.slot := fun plan h => (planFailoverPref_snd h).1
  unfold planFailback
  generalize s.planFailoverPref env.rank f.slot (some pref) = r at halone hsnd
  obtain ⟨s', planned⟩ := r
  rcases planned with e | _ | plan
  · exact ⟨halone, hne, fun a ha => by cases ha⟩
  · exact ⟨halone, hne, fun a ha => by cases ha⟩
  · refine ⟨halone, hne, fun a ha => ?_⟩
    cases ha
    exact ⟨fun h => hne ((hsnd plan rfl).symm.trans h), consistent_new plan f.ops⟩

/-- **A step of a call for another slot.** -/
theorem LeftAlone.call (env : Env) (rd : Readings) {c : Call} (hs : WellFiled s) (hc : c.Elsewhere key) :
    LeftAlone key s (s.callStep env rd c).1 ∧ (s.callStep env rd c).2.Elsewhere key := by
  cases c with
  | plan a => exact ⟨.attempt hs hc.2 hc.1, elsewhere_step hc⟩
  | failback f =>
    obtain ⟨hslot, hattempt⟩ := hc
    show LeftAlone key s (s.failbackStep env rd f).1 ∧
      Call.Elsewhere key (.failback (s.failbackStep env rd f).2)
    unfold failbackStep
    cases hst : f.stage with
    | evaluating =>
      simp only
      split
      · exact ⟨.refl s, hslot, fun a ha => by cases ha⟩
      · exact ⟨.refl s, hslot, fun a ha => by cases ha⟩
    | reading =>
      simp only
      split
      · exact ⟨.refl s, hslot, fun a ha => by cases ha⟩
      · exact ⟨.refl s, hslot, fun a ha => by cases ha⟩
    | planning pref => exact LeftAlone.planned hslot pref
    | cutting a =>
      have ha := hattempt a (by rw [hst]; rfl)
      refine ⟨.attempt hs ha.2 ha.1, hslot, fun a' ha' => ?_⟩
      rw [afterAttempt_attempt] at ha'
      cases ha'
      exact elsewhere_step ha
    | settling a =>
      refine ⟨.settled hslot, hslot, fun a' ha' => ?_⟩
      cases ha'
      exact hattempt a (by rw [hst]; rfl)
    | returned a r => exact ⟨.refl s, hslot, hattempt⟩
    | threw a e => exact ⟨.refl s, hslot, hattempt⟩

end Elsewhere

/-! ## Messages and frames about other services -/

/-- The message is about another service, or about none. -/
def Message.Elsewhere (key : ServiceSlotKey) : Message → Prop
  | .authorizeRequest _ => True
  | .authorizeResult _ => True
  | .other (.op o) => o.Elsewhere key
  | .other (.beginPlan plan _) => plan.slot ≠ key
  | .other (.beginFailback slot _) => slot ≠ key
  | .other (.advance _ _) => True
  | .other (.restart _) => False

section Server
variable {env : Env} {key : ServiceSlotKey}

theorem WellFiled.handle (env : Env) {σ : SystemState} (h : WellFiled σ.fabric) (m : Message) :
    WellFiled (σ.handle env m).fabric := by
  cases m with
  | authorizeRequest payload =>
    show WellFiled (σ.fabric.onAuthorizeRequest payload).1
    rcases onAuthorizeRequest_cases σ.fabric payload with ⟨q, cur, hread, hd⟩ | ⟨hsame, -⟩
    · rw [onAuthorizeRequest_dispatchable hread hd]
      exact ⟨h.slots, h.services⟩
    · rw [hsame]
      exact h
  | authorizeResult payload =>
    show WellFiled (σ.fabric.onAuthorizeResult payload).1
    rw [onAuthorizeResult_eq]
    exact ⟨h.slots, h.services⟩
  | other l =>
    rw [SystemState.handle]
    split
    · exact ⟨slots_sound_step h.slots, services_sound_step l h.services⟩
    · exact h

/-- What the server has of other services. -/
structure Beside (key : ServiceSlotKey) (s : Fabric) (σ : SystemState) : Prop where
  alone : LeftAlone key s σ.fabric
  filed : WellFiled σ.fabric
  calls : ∀ c ∈ σ.calls, c.Elsewhere key

/-- **A message about another service.** -/
theorem Beside.handle {s : Fabric} {σ : SystemState} (h : Beside key s σ) {m : Message}
    (hm : m.Elsewhere key) : Beside key s (σ.handle env m) := by
  have hfiled := h.filed.handle env m
  cases m with
  | authorizeRequest payload =>
    refine ⟨h.alone.trans ?_, hfiled, h.calls⟩
    show LeftAlone key σ.fabric (σ.fabric.onAuthorizeRequest payload).1
    rcases onAuthorizeRequest_cases σ.fabric payload with ⟨q, cur, hread, hd⟩ | ⟨hsame, -⟩
    · rw [onAuthorizeRequest_dispatchable hread hd]
      exact .of_same rfl
    · rw [hsame]
      exact .refl _
  | authorizeResult payload =>
    refine ⟨h.alone.trans ?_, hfiled, h.calls⟩
    show LeftAlone key σ.fabric (σ.fabric.onAuthorizeResult payload).1
    rw [onAuthorizeResult_eq]
    exact .of_same rfl
  | other l =>
    rw [SystemState.handle] at hfiled ⊢
    split
    · rename_i hmsg
      rw [if_pos hmsg] at hfiled
      obtain ⟨hmsg, -⟩ := Bool.and_eq_true_iff.mp hmsg
      cases l with
      | op o => exact ⟨h.alone.trans (.op h.filed hmsg hm), hfiled, h.calls⟩
      | beginPlan plan ops =>
        refine ⟨h.alone, hfiled, List.forall_mem_append.mpr ⟨h.calls, ?_⟩⟩
        exact List.forall_mem_singleton.mpr ⟨hm, consistent_new plan ops⟩
      | beginFailback slot ops =>
        refine ⟨h.alone, hfiled, List.forall_mem_append.mpr ⟨h.calls, ?_⟩⟩
        exact List.forall_mem_singleton.mpr ⟨hm, fun a ha => by cases ha⟩
      | advance i rd =>
        cases hc : σ.calls[i]? with
        | none =>
          rw [step_advance_none hc]
          exact h
        | some c =>
          obtain ⟨halone, hcall⟩ :=
            LeftAlone.call env rd h.filed (h.calls c (List.mem_of_getElem? hc))
          rw [step_advance_some hc] at hfiled ⊢
          refine ⟨h.alone.trans halone, hfiled, fun c' hc' => ?_⟩
          rcases List.mem_or_eq_of_mem_set hc' with hold | hnew
          · exact h.calls c' hold
          · exact hnew ▸ hcall
      | restart cfg => cases hmsg
    · exact h

/-- A fabric that a server comes to by messages about other services. -/
theorem ServedTo.leftAlone {ok : Message → Prop} {s s' : Fabric} (h : ServedTo env ok s s')
    (hs : WellFiled s) (hok : ∀ m, ok m → m.Elsewhere key) : LeftAlone key s s' := by
  obtain ⟨calls, hl⟩ := h.later []
  have hstart : Beside key s ⟨s, []⟩ := ⟨.refl s, hs, fun c hc => by cases hc⟩
  exact (hl.stable (P := Beside key s) (fun σ m hσ hm => hσ.handle (hok m hm)) hstart).alone

end Server

/-- The service that a registration, a failover or a failback names. -/
def ProcessEvent.service : ProcessEvent → Option ServiceId
  | .frame _ f _ =>
    match f.type with
    | .register => (readRegister f.payload).toOption.map (·.service)
    | .executeFailover => (readFailover f.payload).toOption.map (·.service)
    | .requestFailback => (readFailback f.payload).toOption.map (·.service)
    | _ => none
  | _ => none

section Process
variable {env : Env} {service : ServiceId}

theorem Causes.elsewhere {c : CoordinatorProcess} {i : Nat} {f : Frame} {w : World} {m : Message}
    (h : Causes c i f m) (hno : (ProcessEvent.frame i f w).service ≠ some service) :
    m.Elsewhere (firstSlot service) := by
  have hne : ∀ {other : ServiceId}, other ≠ service → firstSlot other ≠ firstSlot service :=
    fun hne h => hne (congrArg ServiceSlotKey.service h)
  have hregister : ∀ {m}, f.type = .register → readRegister f.payload = .ok m →
      m.service ≠ service := by
    intro m ht hm he
    simp only [ProcessEvent.service, ht, hm] at hno
    exact hno (congrArg some he)
  have hfailover : ∀ {q}, f.type = .executeFailover → readFailover f.payload = .ok q →
      q.service ≠ service := by
    intro q ht hq he
    simp only [ProcessEvent.service, ht, hq] at hno
    exact hno (congrArg some he)
  have hfailback : ∀ {q}, f.type = .requestFailback → readFailback f.payload = .ok q →
      q.service ≠ service := by
    intro q ht hq he
    simp only [ProcessEvent.service, ht, hq] at hno
    exact hno (congrArg some he)
  cases h with
  | @published o h ho => cases o <;> trivial
  | created h hm => exact hregister h hm
  | assigned h hm now => exact hne (hregister h hm)
  | installed h hm s port boot => exact hne (hregister h hm)
  | executed h hq hslot ops =>
    show FailoverPlan.slot _ ≠ _
    rw [hslot]
    exact hne (hfailover h hq)
  | failedBack h hq ops => exact hne (hfailback h hq)
  | _ => trivial

/-- Whatever a server does, its records stay well filed. -/
theorem ServedTo.filed {ok : Message → Prop} {s s' : Fabric} (h : ServedTo env ok s s')
    (hs : WellFiled s) : WellFiled s' := by
  obtain ⟨calls, hl⟩ := h.later []
  exact hl.stable (P := fun σ => WellFiled σ.fabric) (fun σ m hσ _ => hσ.handle env m) hs

/-- The records of a process are well filed. -/
theorem WellFiled.reachable {c : CoordinatorProcess}
    (h : Transition.Reachable (process env) (fun _ _ => True) c) : WellFiled c.fabric := by
  refine h.invariant (P := fun c => WellFiled c.fabric) ?_
    fun c e _ hc _ => (ServedTo.step c e).filed hc
  rintro c ⟨σ, ⟨checkpoint, loaded, s, hs, rfl⟩, rfl⟩
  rcases start_cases hs with rfl | ⟨snap, rfl⟩
  · exact ⟨SlotsWellFormed.empty.indexed.sound, IndexedVec.indexed_empty.sound⟩
  · exact ⟨(SlotsWellFormed.rebuildSlots snap).indexed.sound, IndexedVec.sound_ofItems snap.services⟩

end Process

/-- **Services are isolated.**  In every run of a coordinator process, from any state on, while
no registration, failover or failback of the service is handled: whatever else happens, the
cutovers of other services included, the service keeps its definition, its assignments with
their history, its route up to the gateway that holds it, and its failback budget; and what was
served for it is still served, unless its boot has been fenced. -/
theorem services_isolated (env : Env) {c c' : CoordinatorProcess} {service : ServiceId}
    (hc : Transition.Reachable (process env) (fun _ _ => True) c)
    (hl : Transition.Later (process env) (fun _ e => e.service ≠ some service) c c') :
    LeftAlone (firstSlot service) c.fabric c'.fabric ∧
      ∀ auth, auth.slot = firstSlot service →
        ((c'.fabric.dispatchAllowed auth).allowed = true ↔
          (c.fabric.dispatchAllowed auth).allowed = true ∧
            auth.workerBoot ∉ c'.fabric.fencedBoots) := by
  have halone : Transition.Reachable (process env) (fun _ _ => True) c' ∧
      LeftAlone (firstSlot service) c.fabric c'.fabric := by
    refine hl.stable (P := fun d => Transition.Reachable (process env) (fun _ _ => True) d ∧
      LeftAlone (firstSlot service) c.fabric d.fabric) (fun d e hd hno => ?_) ⟨hc, .refl _⟩
    refine ⟨.step hd.1 trivial, hd.2.trans ?_⟩
    refine (ServedTo.step d e).leftAlone (WellFiled.reachable hd.1) fun m hm => ?_
    cases e with
    | frame i f w => exact Causes.elsewhere hm hno
    | _ => exact hm.elim
  exact ⟨halone.2, fun auth hslot => halone.2.allowed_iff hslot⟩

namespace Reference

/-- A second service on the same worker, and its failover to another one. -/
def secondFailedOver : List ProcessEvent :=
  [sends 2 .register [putU64 Fid.service 2, putU64 Fid.target 1, putU64 Fid.boot 11],
    sends 2 .publishReadiness [putU64 Fid.target 2, putU64 Fid.boot 22, putBool Fid.ready true],
    sends 2 .executeFailover [putU64 Fid.service 2]]

end Reference

open Reference in
/-- The cutover of the second service fences the worker that serves the first one as well. -/
theorem services_isolated_reference :
    let c := (process Reference.env).run freshCoordinator serviceRegistered
    let c' := (process Reference.env).run c secondFailedOver
    c'.fabric.fencedBoots = [⟨11⟩] ∧ LeftAlone (firstSlot ⟨1⟩) c.fabric c'.fabric ∧
      ∀ auth, auth.slot = firstSlot ⟨1⟩ →
        ((c'.fabric.dispatchAllowed auth).allowed = true ↔
          (c.fabric.dispatchAllowed auth).allowed = true ∧
            auth.workerBoot ∉ c'.fabric.fencedBoots) := by
  intro c c'
  have hothers : (process Reference.env).permits (fun _ e => decide (e.service ≠ some ⟨1⟩)) c
      secondFailedOver = true := by decide +kernel +revert
  have hl : Transition.Later (process Reference.env) (fun _ e => e.service ≠ some ⟨1⟩) c c' :=
    (Transition.Later.run secondFailedOver hothers).mono fun _ _ h => of_decide_eq_true h
  have hc : Transition.Reachable (process Reference.env) (fun _ _ => True) c :=
    .run_all serviceRegistered (.initial freshCoordinator_started)
  exact ⟨by decide +kernel, services_isolated Reference.env hc hl⟩

end FailoverFabric
