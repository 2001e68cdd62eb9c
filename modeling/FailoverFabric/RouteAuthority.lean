import FailoverFabric.CoordinatorService
import FailoverFabric.SocketOps

/-! # The gateway that holds a route

`CHECK_ROUTE_ACK` accepts an acknowledgment of the generation and the gateway of the slot's
current route.  A route is replaced by newer ones only, and its gateway changes only when a
gateway says hello, so that an acknowledgment that is no longer accepted never is again, unless
its gateway comes back (`lost_ack_stays_lost`).

A gateway that comes back is pushed the current routes, and takes them over
(`hello_resyncs`).
-/
namespace FailoverFabric
open Fabric Protocol Codec

/-! ## How a slot's route goes on -/

/-- After `o` there is `o'`: a newer route, or the same one up to its state, with its gateway or
one of `b`. -/
def RouteGoesOn (b : GatewayBootId → Prop) (o o' : Option RouteEntry) : Prop :=
  ∀ e, o = some e → ∃ e', o' = some e' ∧
    (e.generation.value < e'.generation.value ∨
      e'.generation = e.generation ∧ (e'.gatewayBoot = e.gatewayBoot ∨ b e'.gatewayBoot))

namespace RouteGoesOn
variable {b : GatewayBootId → Prop} {o o' o'' : Option RouteEntry}

theorem refl (o : Option RouteEntry) : RouteGoesOn b o o := fun e he => ⟨e, he, .inr ⟨rfl, .inl rfl⟩⟩

theorem of_eq (h : o' = o) : RouteGoesOn b o o' := by
  rw [h]
  exact refl o

theorem trans (h : RouteGoesOn b o o') (h' : RouteGoesOn b o' o'') : RouteGoesOn b o o'' := by
  intro e he
  obtain ⟨e', he', hnext⟩ := h e he
  obtain ⟨e'', he'', hlast⟩ := h' e' he'
  refine ⟨e'', he'', ?_⟩
  rcases hnext with hlt | ⟨hgen, hboot⟩
  · rcases hlast with hlt' | ⟨hgen', -⟩
    · exact .inl (UInt64.lt_trans hlt hlt')
    · exact .inl (hgen' ▸ hlt)
  · rcases hlast with hlt' | ⟨hgen', hboot'⟩
    · exact .inl (hgen ▸ hlt')
    · refine .inr ⟨hgen'.trans hgen, ?_⟩
      rcases hboot' with hsame | hb
      · exact hsame ▸ hboot
      · exact .inr hb

theorem revalidated : RouteGoesOn b o (o.map RouteTable.revalidated) := by
  rintro e rfl
  refine ⟨RouteTable.revalidated e, rfl, .inr ?_⟩
  unfold RouteTable.revalidated
  split <;> exact ⟨rfl, .inl rfl⟩

end RouteGoesOn

namespace RouteTable

/-- Binding changes the gateway of the slot's route, and nothing else. -/
theorem current_bindGateway_eq (t : RouteTable) (slot : ServiceSlotKey) (boot : GatewayBootId)
    (key : ServiceSlotKey) : (t.bindGateway slot boot).1.current key =
      if key = slot then (t.current key).map fun e => { e with gatewayBoot := boot }
      else t.current key := by
  have hfind := find_update (t := t)
    (f := fun s => { s with current := { s.current with gatewayBoot := boot } })
    (fun _ (h : _ = slot) => h) key
  unfold bindGateway
  by_cases hk : key = slot
  · subst hk
    rw [if_pos rfl]
    split
    · rename_i hnone
      rw [current, hnone]
      rfl
    · rename_i sr hsr
      split_ifs with hempty hsame
      · rw [current, hsr, Option.bind_some, if_pos hempty]
        rfl
      · rw [current, hsr, Option.bind_some, if_neg hempty, Option.map_some, ← hsame]
      · rw [current, hfind, if_pos rfl, current, hsr]
        simp only [Option.map_some, Option.bind_some]
        split <;> rfl
  · rw [if_neg hk]
    split
    · rfl
    · split_ifs
      · rfl
      · rfl
      · rw [current, hfind, if_neg hk]
        rfl

/-- A route that is taken is a newer one. -/
theorem install_goesOn {b : GatewayBootId → Prop} {t : RouteTable} {e : RouteEntry}
    (hstate : e.state ≠ .empty) (key : ServiceSlotKey) :
    RouteGoesOn b (t.current key) ((t.install e).1.current key) := by
  by_cases htaken : (t.install e).2 = true ∧ e.slot = key
  · obtain ⟨hacc, rfl⟩ := htaken
    rw [current_install hacc hstate, if_pos rfl]
    intro e0 he0
    refine ⟨e, rfl, .inl ?_⟩
    obtain ⟨sr, hsr, hcur⟩ := Option.bind_eq_some_iff.mp he0
    split at hcur
    · cases hcur
    cases hcur
    unfold install at hacc
    split_ifs at hacc
    rw [hsr] at hacc
    simp only at hacc
    split_ifs at hacc with hle
    exact UInt64.not_le.mp hle
  · exact .of_eq (current_install_of_ne hstate fun hacc hslot => htaken ⟨hacc, hslot⟩)

end RouteTable

/-! ## What a server does to the routes -/

/-- The gateways that a message binds routes to are all of `b`. -/
def BindsOnly (b : GatewayBootId → Prop) (m : Message) : Prop :=
  ∀ slot boot, m = .other (.op (.bindRouteGateway slot boot)) → b boot

section Server
variable {env : Env} {b : GatewayBootId → Prop}

theorem apply_goesOn {s : Fabric} {o : Op} (hmsg : fromMessage (.op o) = true)
    (hb : BindsOnly b (.other (.op o))) (key : ServiceSlotKey) :
    RouteGoesOn b (s.routes.current key) ((s.apply env o).routes.current key) := by
  have heff := apply_effect env s o
  generalize s.apply env o = s' at heff
  cases heff with
  | transient h => exact .of_eq (by rw [h])
  | created h => exact .of_eq (by rw [(createService_eq h).1])
  | assigned h => exact .of_eq (by rw [(setInitialAssignment_eq_ok h).fabric])
  | installed entry boot =>
    rw [Fabric.installRoute]
    split
    · exact .refl _
    · exact RouteTable.install_goesOn (by simp) key
  | bound slot boot =>
    show RouteGoesOn b _ ((s.routes.bindGateway slot boot).1.current key)
    rw [RouteTable.current_bindGateway_eq]
    split
    · rintro e he
      exact ⟨{ e with gatewayBoot := boot }, by rw [he]; rfl, .inr ⟨rfl, .inr (hb slot boot rfl)⟩⟩
    · exact .refl _
  | revalidated =>
    show RouteGoesOn b _ (s.routes.markRevalidationRequired.current key)
    rw [RouteTable.current_markRevalidationRequired]
    exact .revalidated
  | loaded h => cases hmsg
  | _ => exact .refl _

/-- The attempts of the calls are consistent. -/
def AllConsistent (σ : SystemState) : Prop :=
  ∀ c ∈ σ.calls, ∀ a, c.attempt = some a → Consistent a

theorem AllConsistent.step {σ : SystemState} (h : AllConsistent σ) (l : Label) :
    AllConsistent (σ.step env l) :=
  step_attempts consistent_new (fun _ _ => Consistent.step) h

theorem callStep_goesOn {s : Fabric} {c : Call} (hc : ∀ a, c.attempt = some a → Consistent a)
    (rd : Readings) (key : ServiceSlotKey) :
    RouteGoesOn b (s.routes.current key) ((s.callStep env rd c).1.routes.current key) := by
  rcases callStep_effect env rd s c with ⟨hf, -⟩ | ⟨hf, -⟩ | ⟨a, ha, hf, -⟩
  · exact .of_eq (by rw [hf])
  · exact .of_eq (by rw [hf])
  · rw [hf]
    rcases attemptStep_routes rd s a with hroutes | ⟨hst, -, hroutes⟩
    · exact .of_eq (by rw [hroutes])
    · rw [hroutes]
      exact RouteTable.install_goesOn ((hc a ha).route (by rw [hst]; rfl)).not_empty key

/-- **What a message does to a slot's route.** -/
theorem handle_goesOn (env : Env) {σ : SystemState} (hcons : AllConsistent σ) {m : Message}
    (hb : BindsOnly b m) (key : ServiceSlotKey) :
    AllConsistent (σ.handle env m) ∧
      RouteGoesOn b (σ.fabric.routes.current key) ((σ.handle env m).fabric.routes.current key) := by
  cases m with
  | authorizeRequest payload =>
    refine ⟨hcons, .of_eq ?_⟩
    show (σ.fabric.onAuthorizeRequest payload).1.routes.current key = _
    rcases onAuthorizeRequest_cases σ.fabric payload with ⟨q, cur, hread, hd⟩ | ⟨hsame, -⟩
    · rw [onAuthorizeRequest_dispatchable hread hd]
      rfl
    · rw [hsame]
  | authorizeResult payload =>
    refine ⟨hcons, .of_eq ?_⟩
    show (σ.fabric.onAuthorizeResult payload).1.routes.current key = _
    rw [onAuthorizeResult_eq]
  | other l =>
    rw [SystemState.handle]
    split
    · rename_i hmsg
      refine ⟨hcons.step l, ?_⟩
      obtain ⟨hmsg, -⟩ := Bool.and_eq_true_iff.mp hmsg
      cases l with
      | op o => exact apply_goesOn hmsg hb key
      | beginPlan plan ops => exact .refl _
      | beginFailback slot ops => exact .refl _
      | advance i rd =>
        cases hc : σ.calls[i]? with
        | none =>
          rw [step_advance_none hc]
          exact .refl _
        | some c =>
          rw [step_advance_some hc]
          exact callStep_goesOn (hcons c (List.mem_of_getElem? hc)) rd key
      | restart cfg => cases hmsg
    · exact ⟨hcons, .refl _⟩

/-- A fabric that a server comes to, without calls of its own. -/
theorem ServedTo.goesOn {ok : Message → Prop} {s s' : Fabric} (h : ServedTo env ok s s')
    (hb : ∀ m, ok m → BindsOnly b m) (key : ServiceSlotKey) :
    RouteGoesOn b (s.routes.current key) (s'.routes.current key) := by
  obtain ⟨calls, hl⟩ := h.later []
  refine (hl.stable (P := fun σ => AllConsistent σ ∧
    RouteGoesOn b (s.routes.current key) (σ.fabric.routes.current key)) ?_ ⟨?_, .refl _⟩).2
  · rintro σ m ⟨hcons, hgoes⟩ hok
    obtain ⟨hcons', hnext⟩ := handle_goesOn env hcons (hb m hok) key
    exact ⟨hcons', hgoes.trans hnext⟩
  · rintro c hc
    cases hc

end Server

/-! ## Acknowledgments -/

/-- The event is the `HELLO` of a gateway with this boot. -/
def ProcessEvent.greets (c : CoordinatorProcess) (boot : GatewayBootId) : ProcessEvent → Prop
  | .frame i f _ => f.type = .hello ∧ ∃ p, c.greeting i f = some p ∧ p.role = kRoleGateway ∧
      ⟨p.boot⟩ = boot
  | _ => False

/-- What an event does to a slot's route. -/
theorem step_goesOn (env : Env) (c : CoordinatorProcess) (e : ProcessEvent)
    (key : ServiceSlotKey) :
    RouteGoesOn (e.greets c) (c.fabric.routes.current key) ((c.step env e).fabric.routes.current key) := by
  refine (ServedTo.step c e).goesOn (fun m hm slot boot he => ?_) key
  subst he
  cases e with
  | frame i f w =>
    cases hm with
    | bound h hp hrole slot => exact ⟨h, _, hp, hrole, rfl⟩
    | published h ho => cases ho
  | _ => exact hm.elim

/-- Only the gateway that holds the slot's current route may acknowledge it, and only in its
generation. -/
theorem judgeRouteAck_iff {s : Fabric} {q : RouteAck} : (s.judgeRouteAck q).1 = true ↔
    ∃ rt, s.routes.current (firstSlot q.service) = some rt ∧ rt.generation = q.generation ∧
      rt.gatewayBoot = q.boot := by
  unfold judgeRouteAck
  cases s.routes.current (firstSlot q.service) with
  | none => simp
  | some rt =>
    simp only [Option.some.injEq, exists_eq_left']
    split_ifs with hgen hboot
    · simp [hgen]
    · simp [hboot]
    · simp [not_not.mp hgen, not_not.mp hboot]

/-- The route has gone on since the acknowledgment was of use. -/
def Outdated (s : Fabric) (q : RouteAck) : Prop :=
  ∃ rt, s.routes.current (firstSlot q.service) = some rt ∧
    (q.generation.value < rt.generation.value ∨
      rt.generation = q.generation ∧ rt.gatewayBoot ≠ q.boot)

theorem Outdated.rejected {s : Fabric} {q : RouteAck} (h : Outdated s q) :
    (s.judgeRouteAck q).1 = false := by
  rw [← Bool.not_eq_true, judgeRouteAck_iff]
  rintro ⟨rt', hrt', hgen, hboot⟩
  obtain ⟨rt, hrt, hpast⟩ := h
  cases hrt.symm.trans hrt'
  rcases hpast with hlt | ⟨-, hne⟩
  · exact UInt64.lt_irrefl _ (hgen ▸ hlt)
  · exact hne hboot

theorem Outdated.goesOn {b : GatewayBootId → Prop} {s s' : Fabric} {q : RouteAck}
    (h : Outdated s q) (hb : ¬ b q.boot) (hgoes : RouteGoesOn b
      (s.routes.current (firstSlot q.service)) (s'.routes.current (firstSlot q.service))) :
    Outdated s' q := by
  obtain ⟨rt, hrt, hpast⟩ := h
  obtain ⟨rt', hrt', hnext⟩ := hgoes rt hrt
  refine ⟨rt', hrt', ?_⟩
  rcases hnext with hlt | ⟨hgen, hboot⟩
  · left
    rcases hpast with hlt' | ⟨hsame, -⟩
    · exact UInt64.lt_trans hlt' hlt
    · exact hsame ▸ hlt
  · rcases hpast with hlt' | ⟨hsame, hne⟩
    · exact .inl (hgen ▸ hlt')
    · refine .inr ⟨hgen.trans hsame, ?_⟩
      rcases hboot with hkept | hnew
      · exact hkept ▸ hne
      · exact fun hq => hb (hq ▸ hnew)

/-- **An acknowledgment that was lost stays lost.**  In every run: an acknowledgment that was
accepted once, and is rejected later, is rejected from then on, until the gateway that it names
says hello again. -/
theorem lost_ack_stays_lost (env : Env) {c c' c'' : CoordinatorProcess} {q : RouteAck}
    (hacc : (c.fabric.judgeRouteAck q).1 = true)
    (hl : Transition.Later (process env) (fun _ _ => True) c c')
    (hlost : (c'.fabric.judgeRouteAck q).1 = false)
    (hl' : Transition.Later (process env) (fun c e => ¬ e.greets c q.boot) c' c'') :
    (c''.fabric.judgeRouteAck q).1 = false := by
  obtain ⟨rt, hrt, hgen, hboot⟩ := judgeRouteAck_iff.mp hacc
  have hgoes : RouteGoesOn (fun _ => True) (c.fabric.routes.current (firstSlot q.service))
      (c'.fabric.routes.current (firstSlot q.service)) := by
    refine hl.stable (P := fun c' => RouteGoesOn (fun _ => True)
      (c.fabric.routes.current (firstSlot q.service))
      (c'.fabric.routes.current (firstSlot q.service))) (fun d e h _ => ?_) (.refl _)
    refine h.trans fun e0 he0 => ?_
    obtain ⟨e', he', hnext⟩ := step_goesOn env d e _ e0 he0
    exact ⟨e', he', hnext.imp_right fun hn => ⟨hn.1, .inr trivial⟩⟩
  have hpast : Outdated c'.fabric q := by
    obtain ⟨rt', hrt', hnext⟩ := hgoes rt hrt
    refine ⟨rt', hrt', ?_⟩
    rcases hnext with hlt | ⟨hsame, -⟩
    · exact .inl (hgen ▸ hlt)
    · refine .inr ⟨hsame.trans hgen, fun hb => ?_⟩
      rw [judgeRouteAck_iff.mpr ⟨rt', hrt', hsame.trans hgen, hb⟩] at hlost
      cases hlost
  refine Outdated.rejected ?_
  refine hl'.stable (P := fun d => Outdated d.fabric q) (fun d e h hno => ?_) hpast
  exact h.goesOn hno (step_goesOn env d e _)

open Reference in
/-- A second gateway takes over the route, and the first one is lost. -/
theorem lost_ack_stays_lost_reference :
    let c := (process Reference.env).run freshCoordinator serviceRegistered
    let c' := (process Reference.env).step c (greets 2 kRoleGateway 8 0)
    (((process Reference.env).step c' (.lost 1)).fabric.judgeRouteAck ⟨⟨1⟩, ⟨1⟩, ⟨7⟩⟩).1 = false := by
  intro c c'
  have hacc : (c.fabric.judgeRouteAck ⟨⟨1⟩, ⟨1⟩, ⟨7⟩⟩).1 = true := by decide +kernel +revert
  have hlost : (c'.fabric.judgeRouteAck ⟨⟨1⟩, ⟨1⟩, ⟨7⟩⟩).1 = false := by decide +kernel +revert
  have hgone : Transition.Later (process Reference.env) (fun _ _ => True) c c' :=
    .single (T := process Reference.env) trivial
  have hlater : Transition.Later (process Reference.env) (fun c e => ¬ e.greets c ⟨7⟩) c'
      ((process Reference.env).step c' (.lost 1)) := .single (T := process Reference.env) id
  exact lost_ack_stays_lost Reference.env hacc hgone hlost hlater

/-! ## A gateway that comes back -/

/-- A message that installs a route is handled. -/
theorem Gateway.control_install (workers : Workers) (g : Gateway) {f : Frame}
    {u : UInt64 × WireRoute} (h : readInstall f = some u) : ∃ done, g.control workers f = .ok done := by
  unfold readInstall at h
  split_ifs at h with htype
  obtain ⟨re, hre, -⟩ := Option.map_eq_some_iff.mp h
  cases hread : (parse f.payload).bind decodeRouteEntry with
  | error e =>
    rw [hread] at hre
    cases hre
  | ok re' =>
  obtain ⟨r, hr, hdecode⟩ := bind_ok_iff.mp hread
  have hack : finish [putBool Fid.ok true] = .ok (payloadOf [putBool Fid.ok true]) := by
    decide +kernel
  unfold control
  simp only [htype]
  unfold installRoute
  rw [hr]
  simp only [bind, Except.bind, hdecode, hack]
  exact ⟨_, rfl⟩

/-- So is every sequence of such messages. -/
theorem Gateway.serve_installs (workers : Workers) {fs : List Frame}
    (h : ∀ f ∈ fs, (readInstall f).isSome) (g : Gateway) : ∃ g', g.serve workers fs = .ok g' := by
  induction fs generalizing g with
  | nil => exact ⟨g, rfl⟩
  | cons f fs ih =>
    rw [List.forall_mem_cons] at h
    obtain ⟨u, hu⟩ := Option.isSome_iff_exists.mp h.1
    obtain ⟨done, hdone⟩ := Gateway.control_install workers g hu
    obtain ⟨g', hg'⟩ := ih h.2 done.gateway
    refine ⟨g', ?_⟩
    unfold serve at hg' ⊢
    rw [List.foldlM_cons, hdone]
    exact hg'

namespace CoordinatorProcess

/-- The routes of the services, in their order, as they are pushed. -/
def wired (c : CoordinatorProcess) (t : RouteTable) (svs : List ServiceDefinition) :
    List WireRoute :=
  svs.filterMap fun sv => (t.current (firstSlot sv.service)).map fun e => wire (c.routed e)

/-- What pushing the routes of some services has come to, from `p`: they are bound to the
gateway, and the frames install them. -/
structure Pushed (c : CoordinatorProcess) (boot : GatewayBootId) (svs : List ServiceDefinition)
    (p p' : Push) : Prop where
  current : ∀ key, p'.fabric.routes.current key =
    if ∃ sv ∈ svs, firstSlot sv.service = key then
      (p.fabric.routes.current key).map fun e => { e with gatewayBoot := boot }
    else p.fabric.routes.current key
  services : p'.fabric.services = p.fabric.services
  epoch : p'.fabric.epoch = p.fabric.epoch
  frames : ∃ fs, p'.frames = p.frames ++ fs ∧
    fs.map Gateway.readInstall =
      (c.wired p.fabric.routes svs).map fun re => some (p.fabric.epoch.value, re)

section Pushing
variable {c : CoordinatorProcess} {boot : GatewayBootId}

/-- **The route of one service, pushed.** -/
theorem Pushed.single {p : Push} {sv : ServiceDefinition}
    (h : (c.pushRoute boot p sv).failed = none) :
    p.failed = none ∧ c.Pushed boot [sv] p (c.pushRoute boot p sv) := by
  unfold pushRoute at h ⊢
  split at h
  · rename_i hfailed hroute
    refine ⟨hfailed, ?_⟩
    split at h
    · cases h
    · rename_i rt payload hwritten
      exact {
        current := fun key => by
          show (p.fabric.routes.bindGateway (firstSlot sv.service) boot).1.current key = _
          rw [RouteTable.current_bindGateway_eq]
          simp [eq_comm]
        services := rfl
        epoch := rfl
        frames := ⟨_, rfl, by
          simp only [List.map_cons, List.map_nil, Registry.readInstall_route hwritten, wired,
            List.filterMap_cons, hroute, Option.map_some, List.filterMap_nil]⟩ }
  · rename_i hno
    refine ⟨h, ?_⟩
    have hnone : p.fabric.routes.current (firstSlot sv.service) = none :=
      Option.eq_none_iff_forall_not_mem.mpr fun rt hrt => hno rt h hrt
    exact {
      current := fun key => by
        simp only [List.mem_singleton, exists_eq_left]
        split_ifs with hkey
        · rw [← hkey, hnone]
          rfl
        · rfl
      services := rfl
      epoch := rfl
      frames := ⟨[], (List.append_nil _).symm, by simp [wired, hnone]⟩ }

/-- What is pushed of a route does not depend on its gateway. -/
theorem wire_routed (e : RouteEntry) :
    wire (c.routed { e with gatewayBoot := boot }) = wire (c.routed e) := by
  unfold routed
  cases c.workerPeer e.target <;> rfl

theorem wired_bound {t t' : RouteTable} {b : ServiceSlotKey → Prop} [DecidablePred b]
    (h : ∀ key, t'.current key =
      if b key then (t.current key).map fun e => { e with gatewayBoot := boot } else t.current key)
    (svs : List ServiceDefinition) : c.wired t' svs = c.wired t svs := by
  refine List.filterMap_congr fun sv _ => ?_
  rw [h]
  split_ifs
  · rw [Option.map_map]
    exact Option.map_congr fun e _ => wire_routed e
  · rfl

theorem Pushed.cons {p p' p'' : Push} {sv : ServiceDefinition} {svs : List ServiceDefinition}
    (h : c.Pushed boot [sv] p p') (h' : c.Pushed boot svs p' p'') :
    c.Pushed boot (sv :: svs) p p'' where
  current key := by
    rw [h'.current, h.current]
    by_cases hone : firstSlot sv.service = key
    · by_cases hrest : ∃ sv ∈ svs, firstSlot sv.service = key
      · simp [hone, hrest, Function.comp_def]
      · simp [hone, hrest]
    · simp [hone]
  services := h'.services.trans h.services
  epoch := h'.epoch.trans h.epoch
  frames := by
    obtain ⟨fs, hfs, hread⟩ := h.frames
    obtain ⟨fs', hfs', hread'⟩ := h'.frames
    refine ⟨fs ++ fs', by rw [hfs', hfs, List.append_assoc], ?_⟩
    rw [List.map_append, hread, hread', h.epoch, wired_bound h.current, ← List.map_append]
    exact congrArg _ (List.filterMap_append ..).symm

/-- **The routes of all services, pushed.** -/
theorem Pushed.foldl {svs : List ServiceDefinition} {p : Push}
    (h : (svs.foldl (c.pushRoute boot) p).failed = none) :
    p.failed = none ∧ c.Pushed boot svs p (svs.foldl (c.pushRoute boot) p) := by
  induction svs generalizing p with
  | nil =>
    exact ⟨h, fun key => by simp, rfl, rfl, [], (List.append_nil _).symm, rfl⟩
  | cons sv svs ih =>
    obtain ⟨hnone, hrest⟩ := ih h
    obtain ⟨hfirst, hone⟩ := Pushed.single hnone
    exact ⟨hfirst, hone.cons hrest⟩

end Pushing

/-- The process once a gateway has said hello, before the routes are pushed. -/
def withGateway (c : CoordinatorProcess) (i : Nat) (p : Peer) : CoordinatorProcess :=
  { c with
    peers := c.peers.set i p
    gateways := c.gateways.insert p.boot.toNat i
    fabric := c.fabric.setGatewayBoot ⟨p.boot⟩ }

/-- **The `HELLO` of a gateway.** -/
theorem handle_hello {env : Env} {w : World} {c : CoordinatorProcess} {i : Nat} {f : Frame}
    {p : Peer} (h : f.type = .hello) (hp : c.greeting i f = some p) (hrole : p.role = kRoleGateway) :
    c.handle env w i f =
      { process := { c.withGateway i p with
          fabric := ((c.withGateway i p).pushRoutes ⟨p.boot⟩).fabric }
        pushed := ((c.withGateway i p).pushRoutes ⟨p.boot⟩).frames
        reply := ((c.withGateway i p).pushRoutes ⟨p.boot⟩).failed.map fun e =>
          errorFrame f (text e.what) } := by
  unfold greeting at hp
  unfold handle onHello
  simp only [h]
  cases hparse : parse f.payload with
  | error e =>
    rw [hparse] at hp
    cases hp
  | ok r =>
    rw [hparse] at hp
    simp only [Except.map] at hp ⊢
    generalize ((c.peers[i]?).getD {}).hello r = heard at hp ⊢
    obtain ⟨p', failed⟩ := heard
    cases failed with
    | some e => cases hp
    | none =>
      cases hp
      have hworker : ¬ p.role = kRoleWorker := by
        rw [hrole]
        decide
      simp only [greet, if_neg hworker, if_pos hrole]
      rfl

end CoordinatorProcess

theorem RouteTable.current_slot {t : RouteTable} {key : ServiceSlotKey} {e : RouteEntry}
    (h : t.current key = some e) : e.slot = key := by
  obtain ⟨sr, hsr, hcur⟩ := Option.bind_eq_some_iff.mp h
  split at hcur
  · cases hcur
  · cases hcur
    unfold find_ at hsr
    have hfound := List.find?_some hsr
    exact beq_iff_eq.mp hfound

/-- The routes that are pushed are all for one slot id. -/
theorem CoordinatorProcess.wired_slot {c : CoordinatorProcess} {t : RouteTable}
    {svs : List ServiceDefinition} {re : WireRoute} (h : re ∈ c.wired t svs) :
    re.slot.slot.value = 1 := by
  obtain ⟨sv, -, hsv⟩ := List.mem_filterMap.mp h
  obtain ⟨e, he, rfl⟩ := Option.map_eq_some_iff.mp hsv
  have hslot : (c.routed e).slot = e.slot := by
    unfold routed
    cases c.workerPeer e.target <;> rfl
  show (c.routed e).slot.slot.value = 1
  rw [hslot, RouteTable.current_slot he]
  rfl

/-- Of frames that install routes for one slot id, the last one counts. -/
theorem Gateway.lastFor_installs {fs : List Frame} {epoch slot : UInt64} {res : List WireRoute}
    (h : fs.map readInstall = res.map fun re => some (epoch, re))
    (hslot : ∀ re ∈ res, re.slot.slot.value = slot) : (lastFor fs slot).map (·.2) = res.getLast? := by
  have hinstalls : installs fs = res.map fun re => (epoch, re) := by
    calc installs fs = (fs.map readInstall).filterMap id := by rw [List.filterMap_map]; rfl
      _ = res.map fun re => (epoch, re) := by
        rw [h, List.filterMap_map]
        exact congrFun (List.filterMap_eq_map (f := fun re => (epoch, re))) res
  have hall : ∀ u ∈ (installs fs).reverse, (u.2.slot.slot.value == slot) = true := by
    intro u hu
    rw [List.mem_reverse, hinstalls, List.mem_map] at hu
    obtain ⟨re, hre, rfl⟩ := hu
    exact beq_iff_eq.mpr (hslot re hre)
  have hfind : lastFor fs slot = (installs fs).reverse.head? := by
    unfold lastFor
    cases hus : (installs fs).reverse with
    | nil => rfl
    | cons u us => exact List.find?_cons_of_pos (hall u (hus ▸ List.mem_cons_self ..))
  rw [hfind, List.head?_reverse, hinstalls, List.getLast?_map, Option.map_map]
  exact Option.map_id' ..

/-- **A gateway that comes back takes over.**  Whatever the state of the process, and whatever
the gateway holds: once its `HELLO` is handled without an error, of each service on record the
acknowledgments that are accepted are those of the gateway, in the generation that was current
before; and once it has handled what it was pushed, it holds the current route of the last
service that has one. -/
theorem hello_resyncs (env : Env) (w : World) {c : CoordinatorProcess} {i : Nat} {f : Frame}
    {p : Peer} (htype : f.type = .hello) (hp : c.greeting i f = some p)
    (hrole : p.role = kRoleGateway) (hok : (c.handle env w i f).reply = none) :
    let d := (c.handle env w i f).process
    (∀ q : RouteAck, (∃ sv ∈ c.fabric.services.items, sv.service = q.service) →
      ((d.fabric.judgeRouteAck q).1 = true ↔ q.boot = ⟨p.boot⟩ ∧
        ∃ rt, c.fabric.routes.current (firstSlot q.service) = some rt ∧
          rt.generation = q.generation)) ∧
      ∀ (workers : Workers) (g : Gateway),
        ∃ g', g.serve workers (c.handle env w i f).pushed = .ok g' ∧
          g'.routes.find 1 =
            (d.wired d.fabric.routes d.fabric.services.items).getLast?.or (g.routes.find 1) := by
  rw [CoordinatorProcess.handle_hello htype hp hrole] at hok ⊢
  obtain ⟨-, hpushed⟩ := CoordinatorProcess.Pushed.foldl (Option.map_eq_none_iff.mp hok)
  refine ⟨fun q hq => ?_, fun workers g => ?_⟩
  · rw [judgeRouteAck_iff]
    show (∃ rt, ((c.withGateway i p).pushRoutes ⟨p.boot⟩).fabric.routes.current _ = some rt ∧ _) ↔ _
    have hmem : ∃ sv ∈ (c.withGateway i p).fabric.services.items,
        firstSlot sv.service = firstSlot q.service := by
      obtain ⟨sv, hsv, hservice⟩ := hq
      exact ⟨sv, hsv, by rw [hservice]⟩
    have hcurrent := hpushed.current (firstSlot q.service)
    rw [if_pos hmem] at hcurrent
    unfold CoordinatorProcess.pushRoutes
    rw [hcurrent]
    constructor
    · rintro ⟨rt', hrt', hgen, hboot⟩
      obtain ⟨rt, hrt, rfl⟩ := Option.map_eq_some_iff.mp hrt'
      exact ⟨hboot.symm, rt, hrt, hgen⟩
    · rintro ⟨hboot, rt, hrt, hgen⟩
      exact ⟨_, Option.map_eq_some_iff.mpr ⟨rt, hrt, rfl⟩, hgen, hboot.symm⟩
  · obtain ⟨fs, hfs, hread⟩ := hpushed.frames
    have hinstall : ∀ f ∈ fs, (Gateway.readInstall f).isSome := by
      intro f hf
      have hin : Gateway.readInstall f ∈ fs.map Gateway.readInstall := List.mem_map_of_mem hf
      rw [hread, List.mem_map] at hin
      obtain ⟨re, -, hre⟩ := hin
      exact hre ▸ rfl
    have hframes : ((c.withGateway i p).pushRoutes ⟨p.boot⟩).frames = fs := hfs
    rw [hframes]
    obtain ⟨g', hg'⟩ := Gateway.serve_installs workers hinstall g
    refine ⟨g', hg', ?_⟩
    have hfind := Gateway.serve_find hg' 1
    rw [Gateway.lastFor_installs hread fun re => CoordinatorProcess.wired_slot] at hfind
    refine hfind.trans (congrArg (fun res : List WireRoute => res.getLast?.or _) ?_)
    have hservices : ((c.withGateway i p).pushRoutes ⟨p.boot⟩).fabric.services = c.fabric.services :=
      hpushed.services
    rw [hservices]
    exact (CoordinatorProcess.wired_bound hpushed.current _).symm

open Reference in
/-- A gateway comes back to a process that has a service with a route. -/
theorem hello_resyncs_reference :
    let c := (process Reference.env).run freshCoordinator serviceRegistered
    let f : Frame := ⟨.hello, 1, 1, payloadOf [putU8 Fid.role 2, putU64 Fid.boot 8]⟩
    let d := (c.handle Reference.env quietWorld 2 f).process
    (∀ q : RouteAck, (∃ sv ∈ c.fabric.services.items, sv.service = q.service) →
      ((d.fabric.judgeRouteAck q).1 = true ↔ q.boot = ⟨8⟩ ∧
        ∃ rt, c.fabric.routes.current (firstSlot q.service) = some rt ∧
          rt.generation = q.generation)) ∧
      ∀ (workers : Workers) (g : Gateway),
        ∃ g', g.serve workers (c.handle Reference.env quietWorld 2 f).pushed = .ok g' ∧
          g'.routes.find 1 =
            (d.wired d.fabric.routes d.fabric.services.items).getLast?.or (g.routes.find 1) :=
  hello_resyncs Reference.env quietWorld (p := { role := 2, boot := 8 }) rfl (by decide +kernel) rfl
    (by decide +kernel)

end FailoverFabric
