import FailoverFabric.Cooldown
import FailoverFabric.RestartIdempotence
import FailoverFabric.SavedAuthority

/-! # The count of the routes that await revalidation

`revalidation_required_count` reads an accumulator that only the marking adds to.  A
route that is marked is counted, but a marked route that is replaced is not taken off
the count, and a route that was already marked in the file is not added to it by the
load.  These two are all that makes the count wrong (`countAccurate_iff`).
-/
namespace FailoverFabric
open Fabric Persistence

namespace RouteTable

/-- The current route of the record awaits revalidation. -/
def SlotRoute.marked (s : SlotRoute) : Bool := s.current.state == .revalidationRequired

/-- The number of slots whose current route awaits revalidation. -/
def awaiting (t : RouteTable) : Nat := t.current_.countP SlotRoute.marked

/-- The count that the table keeps is the number of these slots. -/
def CountAccurate (t : RouteTable) : Prop := t.revalidationCount = t.awaiting

instance (t : RouteTable) : Decidable (CountAccurate t) :=
  inferInstanceAs (Decidable (t.revalidationCount = t.awaiting))

/-- The table takes the route, and it replaces one that awaits revalidation. -/
def Displaces (t : RouteTable) (e : RouteEntry) : Prop :=
  t.admits e.slot e.generation e.epoch = true ∧
    ∃ r, t.current e.slot = some r ∧ r.state = .revalidationRequired

/-! ## What the operations do to the count -/

/-- An update that does not touch the state of a route. -/
theorem awaiting_update {t : RouteTable} {slot : ServiceSlotKey} {f : SlotRoute → SlotRoute}
    {s : SlotRoute} (hs : t.find_ slot = some s) (hf : (f s).marked = s.marked) :
    (t.update slot f).awaiting = t.awaiting := by
  have hcount := List.countP_updateFirst (f := f) (q := SlotRoute.marked) hs
  rw [hf] at hcount
  exact Nat.add_right_cancel hcount

theorem CountAccurate.bindGateway {t : RouteTable} (h : t.CountAccurate) (slot : ServiceSlotKey)
    (boot : GatewayBootId) : (t.bindGateway slot boot).1.CountAccurate := by
  unfold RouteTable.bindGateway
  split
  · exact h
  rename_i s hs
  split_ifs
  · exact h
  · exact h
  · exact h.trans (awaiting_update (f := fun s =>
      { s with current := { s.current with gatewayBoot := boot } }) hs rfl).symm

/-- Of a record, either the route is live or it is marked, and a live one becomes
marked. -/
theorem marked_revalidate (s : SlotRoute) :
    s.revalidate.marked.toNat = s.marked.toNat + (live s.current.state).toNat := by
  unfold SlotRoute.revalidate SlotRoute.marked live
  cases hs : s.current.state <;> simp [hs]

theorem awaiting_markRevalidationRequired (t : RouteTable) :
    t.markRevalidationRequired.awaiting =
      t.awaiting + t.current_.countP fun s => live s.current.state := by
  show (t.current_.map SlotRoute.revalidate).countP _ = t.current_.countP _ + _
  generalize t.current_ = records
  induction records with
  | nil => rfl
  | cons s records ih =>
    have hs := marked_revalidate s
    rw [List.map_cons, List.countP_cons, List.countP_cons, List.countP_cons, ih]
    cases h1 : s.revalidate.marked <;> cases h2 : s.marked <;>
      cases h3 : live s.current.state <;> simp [h1, h2, h3] at hs ⊢ <;> omega

/-- Marking counts what it marks. -/
theorem countAccurate_markRevalidationRequired {t : RouteTable} :
    t.markRevalidationRequired.CountAccurate ↔ t.CountAccurate := by
  rw [CountAccurate, awaiting_markRevalidationRequired, CountAccurate]
  show t.revalidationCount + _ = _ ↔ _
  exact Nat.add_right_cancel_iff

theorem install_revalidationCount (t : RouteTable) (e : RouteEntry) :
    (t.install e).1.revalidationCount = t.revalidationCount := by
  cases hacc : (t.install e).2 with
  | false => rw [install_refused hacc]
  | true =>
    rcases install_accepted hacc with ⟨-, -, ht⟩ | ⟨sr, -, ht⟩
    · rw [ht]
    · rw [ht]
      rfl

/-- The current route of a slot is that of its record, unless it is empty. -/
theorem current_marked {t : RouteTable} {slot : ServiceSlotKey} :
    (∃ r, t.current slot = some r ∧ r.state = .revalidationRequired) ↔
      ∃ s, t.find_ slot = some s ∧ s.marked = true := by
  constructor
  · rintro ⟨r, hr, hstate⟩
    obtain ⟨s, hs, hcur⟩ := Option.bind_eq_some_iff.mp hr
    split at hcur
    · cases hcur
    · cases hcur
      exact ⟨s, hs, beq_iff_eq.mpr hstate⟩
  · rintro ⟨s, hs, hmarked⟩
    have hstate : s.current.state = .revalidationRequired := beq_iff_eq.mp hmarked
    refine ⟨s.current, ?_, hstate⟩
    rw [current, hs, Option.bind_some, if_neg (by rw [hstate]; decide)]

/-- **A new route keeps the count right unless it replaces a marked one.** -/
theorem countAccurate_install {t : RouteTable} {e : RouteEntry} (h : t.CountAccurate)
    (he : e.state = .acknowledged) : (t.install e).1.CountAccurate ↔ ¬ t.Displaces e := by
  have hnew : SlotRoute.marked ⟨e, []⟩ = false := by simp [SlotRoute.marked, he]
  rw [CountAccurate, install_revalidationCount, h, Displaces, current_marked, ← install_snd]
  cases hacc : (t.install e).2 with
  | false =>
    rw [install_refused hacc]
    simp
  | true =>
    rcases install_accepted hacc with ⟨-, hnone, ht⟩ | ⟨sr, hsr, ht⟩
    · have hcount : (t.install e).1.awaiting = t.awaiting := by
        rw [ht, awaiting, List.countP_append, List.countP_singleton, hnew]
        rfl
      rw [hcount, hnone]
      simp
    · have hcount := List.countP_updateFirst (q := SlotRoute.marked)
        (f := fun s => ⟨e, s.history ++ [s.current]⟩) hsr
      have hnew : SlotRoute.marked ⟨e, sr.history ++ [sr.current]⟩ = false := hnew
      rw [hnew] at hcount
      have hawaiting : (t.install e).1.awaiting + sr.marked.toNat = t.awaiting := by
        rw [ht]
        exact hcount
      rw [hsr]
      cases hmarked : sr.marked with
      | false =>
        rw [hmarked] at hawaiting
        simpa [hmarked] using hawaiting.symm
      | true =>
        rw [hmarked] at hawaiting
        simp only [Bool.toNat_true] at hawaiting
        refine iff_of_false (by omega) (not_not.mpr ⟨rfl, sr, rfl, hmarked⟩)

/-- A table that is filled from a list has counted nothing. -/
theorem foldl_install_revalidationCount (es : List RouteEntry) (t : RouteTable) :
    (es.foldl (fun t e => (RouteTable.install t e).1) t).revalidationCount =
      t.revalidationCount := by
  induction es generalizing t with
  | nil => rfl
  | cons e es ih => rw [List.foldl_cons, ih, install_revalidationCount]

end RouteTable

/-! ## What a step does to the count -/

/-- A step that keeps the count right: a route that replaces another finds it
unmarked, and what is loaded has no marked route. -/
def KeepsCount (env : Env) (σ : SystemState) : Label → Prop
  | .op (.installRoute entry _) =>
    entry.epoch = σ.fabric.epoch → ¬ σ.fabric.routes.Displaces entry
  | .op (.load blob) => ∀ snap, decode env.ord blob = .ok snap → (replayed snap).awaiting = 0
  | .advance i _ => ∀ c a, σ.calls[i]? = some c → c.acting = some a → a.stage = .installing →
      (a.ops.installRoute a.route σ.fabric.gatewayBoot).acknowledged = true →
      ¬ σ.fabric.routes.Displaces a.route
  | .restart cfg => ∀ s, Fabric.restart env.ord cfg σ.fabric = .ok s →
      σ.fabric.routes.awaiting = 0
  | _ => True

/-- The operations that do not concern the routes. -/
theorem apply_routes (env : Env) (s : Fabric) (o : Op)
    (hinstall : ∀ entry boot, o ≠ .installRoute entry boot)
    (hbind : ∀ slot boot, o ≠ .bindRouteGateway slot boot)
    (hmark : o ≠ .markRoutesRevalidation) (hload : ∀ blob, o ≠ .load blob) :
    (s.apply env o).routes = s.routes := by
  have heff := apply_effect env s o
  generalize s.apply env o = s' at heff
  cases heff with
  | transient h => rw [h]
  | created h => rw [(createService_eq h).1]
  | assigned h => rw [(setInitialAssignment_eq_ok h).fabric]
  | installed entry boot => exact absurd rfl (hinstall entry boot)
  | bound slot boot => exact absurd rfl (hbind slot boot)
  | revalidated => exact absurd rfl hmark
  | loaded h => exact absurd rfl (hload _)
  | _ => rfl

/-- What is loaded is counted if none of it was marked before. -/
theorem countAccurate_restore (s : Fabric) (snap : PersistenceSnapshot) :
    (s.restore snap).routes.CountAccurate ↔ (replayed snap).awaiting = 0 := by
  have hcount : (replayed snap).revalidationCount = 0 :=
    RouteTable.foldl_install_revalidationCount snap.routes {}
  show (replayed snap).markRevalidationRequired.CountAccurate ↔ _
  rw [RouteTable.countAccurate_markRevalidationRequired, RouteTable.CountAccurate, hcount, eq_comm]

/-- The file of a fabric has as many marked routes as the fabric. -/
theorem awaiting_replayed {ord : CallOrders} {s : Fabric} (h : StoresWellFormed s) :
    (replayed (reread ord s.saveSnapshot)).awaiting = s.routes.awaiting := by
  have hreplayed : replayed (reread ord s.saveSnapshot) =
      { current_ := (s.routes.allRoutes.map (rereadRoute ord.decRoute)).map fun e => ⟨e, []⟩ } := by
    refine (RouteTable.foldl_install _ {} (fun e he => ?_) ?_).trans (by simp [reread, saveSnapshot])
    · obtain ⟨e, hmem, rfl⟩ := List.mem_map.mp he
      exact h.routes.allRoutes_service (e := e) hmem
    · rw [List.map_nil, List.nil_append]
      show ((s.routes.allRoutes.map _).map _).Nodup
      rw [List.map_map]
      exact h.routes.allRoutes_nodup
  rw [hreplayed, RouteTable.awaiting, List.map_map, List.countP_map, RouteTable.allRoutes,
    List.countP_filter, List.countP_map, RouteTable.awaiting]
  refine List.countP_congr fun r _ => ?_
  -- a marked route is not an empty one, and is read back with its state
  cases hs : r.current.state <;> simp [RouteTable.SlotRoute.marked, rereadRoute, hs]

/-- A call that advances no attempt leaves the routes alone. -/
theorem callStep_routes_of_idle {env : Env} {rd : Readings} {s : Fabric} {c : Call}
    (h : c.acting = none) : (s.callStep env rd c).1.routes = s.routes := by
  cases c with
  | plan a => cases h
  | failback f =>
    show (s.failbackStep env rd f).1.routes = s.routes
    rcases failbackStep_effect env rd s f with ⟨-, -, hfab, -⟩ | ⟨-, hfab, -⟩ | ⟨-, -, hfab, -⟩ |
      ⟨-, -, hfab, -⟩ | ⟨hst, -, -⟩ | ⟨-, hfab, -⟩ | ⟨-, heq⟩
    · rw [hfab]
    · rw [hfab]
    · rw [hfab]
    · rw [hfab]
    · simp [Call.acting, hst] at h
    · rw [hfab, settleFailback_settled]
    · rw [heq]

theorem attempt_of_acting {c : Call} {a : Attempt} (h : c.acting = some a) :
    c.attempt = some a := by
  cases c with
  | plan b => exact h
  | failback f =>
    simp only [Call.acting] at h
    split at h
    · rename_i b hst
      rw [Call.attempt, hst]
      exact h
    · cases h

/-- The step of an attempt that offers its route. -/
theorem attemptStep_installing {rd : Readings} {s : Fabric} {a : Attempt}
    (hst : a.stage = .installing)
    (hack : (a.ops.installRoute a.route s.gatewayBoot).acknowledged = true) :
    (s.attemptStep rd a).1.routes = (s.routes.install a.route).1 := by
  simp only [attemptStep, hst, installStep, hack, if_true]

/-- A step of a call, as far as the count is concerned. -/
theorem countAccurate_callStep (env : Env) (rd : Readings) {s : Fabric} {c : Call}
    (h : s.routes.CountAccurate) (hcons : ∀ a, c.attempt = some a → Consistent a) :
    (s.callStep env rd c).1.routes.CountAccurate ↔ ∀ a, c.acting = some a →
      a.stage = .installing → (a.ops.installRoute a.route s.gatewayBoot).acknowledged = true →
      ¬ s.routes.Displaces a.route := by
  cases hact : c.acting with
  | none =>
    rw [callStep_routes_of_idle hact]
    exact iff_of_true h fun a ha => by cases ha
  | some a =>
    rw [callStep_acting hact]
    simp only [Option.some.injEq, forall_eq']
    rcases attemptStep_routes rd s a with hkept | ⟨hst, hack, hroutes⟩
    · -- a route that is offered may be refused, and is then none that displaces
      rw [hkept]
      refine iff_of_true h fun hst hack hdisplaces => ?_
      have hprep := (hcons a (attempt_of_acting hact)).route (by rw [hst]; rfl)
      rw [attemptStep_installing hst hack] at hkept
      have hacc := RouteTable.countAccurate_install h hprep.state
      rw [hkept] at hacc
      exact hacc.mp h hdisplaces
    · have hprep := (hcons a (attempt_of_acting hact)).route (by rw [hst]; rfl)
      rw [hroutes, RouteTable.countAccurate_install h hprep.state]
      exact ⟨fun hd _ _ => hd, fun hd => hd hst hack⟩

/-- An operation, as far as the count is concerned. -/
theorem countAccurate_apply {env : Env} {σ : SystemState} (h : σ.fabric.routes.CountAccurate)
    (o : Op) : (σ.fabric.apply env o).routes.CountAccurate ↔ KeepsCount env σ (.op o) := by
  cases o with
  | installRoute entry boot =>
    show (σ.fabric.installRoute entry boot).1.routes.CountAccurate ↔
      (entry.epoch = σ.fabric.epoch → ¬ σ.fabric.routes.Displaces entry)
    by_cases hepoch : entry.epoch = σ.fabric.epoch
    · rw [installRoute, if_neg (not_not.mpr hepoch), forall_prop_of_true hepoch]
      exact RouteTable.countAccurate_install h rfl
    · rw [installRoute, if_pos hepoch]
      exact iff_of_true h fun he => absurd he hepoch
  | bindRouteGateway slot boot => exact iff_of_true (h.bindGateway slot boot) trivial
  | markRoutesRevalidation =>
    exact iff_of_true (RouteTable.countAccurate_markRevalidationRequired.mpr h) trivial
  | load blob =>
    show (σ.fabric.orSelf (σ.fabric.load env.ord blob)).routes.CountAccurate ↔
      ∀ snap, decode env.ord blob = .ok snap → (replayed snap).awaiting = 0
    cases hd : decode env.ord blob with
    | error e =>
      rw [load, hd]
      exact iff_of_true h fun snap hs => by cases hs
    | ok snap =>
      rw [load, hd]
      refine (countAccurate_restore σ.fabric snap).trans ⟨fun hz snap' hs => ?_, fun hz => hz snap rfl⟩
      cases hs
      exact hz
  | _ =>
    refine iff_of_true ?_ trivial
    rw [apply_routes env σ.fabric _ (fun _ _ => Op.noConfusion) (fun _ _ => Op.noConfusion)
      Op.noConfusion fun _ => Op.noConfusion]
    exact h

theorem countAccurate_advance {env : Env} {σ : SystemState} (h : σ.fabric.routes.CountAccurate)
    (hcons : ∀ i a, σ.attemptAt i = some a → Consistent a) (i : Nat) (rd : Readings) :
    (σ.step env (.advance i rd)).fabric.routes.CountAccurate ↔ KeepsCount env σ (.advance i rd) := by
  cases hc : σ.calls[i]? with
  | none =>
    rw [step_advance_none hc]
    exact iff_of_true h fun c a hn => by cases hc.symm.trans hn
  | some c =>
    have hattempt : σ.attemptAt i = c.attempt := by rw [SystemState.attemptAt, hc, Option.bind_some]
    rw [step_advance_some hc]
    refine (countAccurate_callStep env rd h (hattempt ▸ hcons i)).trans
      ⟨fun hk c' a hs => ?_, fun hk a => hk c a hc⟩
    cases hc.symm.trans hs
    exact hk a

theorem countAccurate_restart {env : Env} {σ : SystemState} (h : σ.fabric.routes.CountAccurate)
    (hwf : StoresWellFormed σ.fabric) (cfg : RuntimeConfig) :
    (σ.step env (.restart cfg)).fabric.routes.CountAccurate ↔ KeepsCount env σ (.restart cfg) := by
  cases hr : Fabric.restart env.ord cfg σ.fabric with
  | error e =>
    rw [step_restart_error hr]
    exact iff_of_true h fun s hs => by cases hr.symm.trans hs
  | ok s =>
    rw [step_restart_ok hr]
    obtain ⟨blob, snap, hsave, hd, rfl⟩ := restart_eq_ok.mp hr
    refine (countAccurate_restore { cfg := cfg } snap).trans ?_
    rw [(decode_save hsave hd).1, awaiting_replayed hwf]
    exact ⟨fun hz _ _ => hz, fun hz => hz _ hr⟩

/-- **A step leaves the count right exactly if it keeps it.** -/
theorem countAccurate_step {env : Env} {σ : SystemState} (h : σ.fabric.routes.CountAccurate)
    (hwf : StoresWellFormed σ.fabric)
    (hcons : ∀ i a, σ.attemptAt i = some a → Consistent a) (l : Label) :
    (σ.step env l).fabric.routes.CountAccurate ↔ KeepsCount env σ l := by
  cases l with
  | op o => exact countAccurate_apply h o
  | beginPlan plan ops => exact iff_of_true h trivial
  | beginFailback slot ops => exact iff_of_true h trivial
  | advance i rd => exact countAccurate_advance h hcons i rd
  | restart cfg => exact countAccurate_restart h hwf cfg

/-! ## Runs -/

/-- **When the count is right**: in every state of a run the table counts the slots
whose current route awaits revalidation, if and only if no step replaces a route that
awaits it or loads one that already did. -/
theorem countAccurate_iff (env : Env) (cfg : RuntimeConfig) (ls : List Label) :
    (∀ past, past <+: ls → (SystemState.after env cfg past).fabric.routes.CountAccurate) ↔
      ∀ past l, past ++ [l] <+: ls → KeepsCount env (SystemState.after env cfg past) l := by
  have hstep : ∀ past l, (SystemState.after env cfg past).fabric.routes.CountAccurate →
      ((SystemState.after env cfg (past ++ [l])).fabric.routes.CountAccurate ↔
        KeepsCount env (SystemState.after env cfg past) l) := by
    intro past l h
    have hr := SystemState.after_reachable env cfg past
    rw [SystemState.after_concat]
    exact countAccurate_step h (StoresWellFormed.reachable hr)
      (fun _ _ => consistent_reachable hr) l
  refine Transition.throughout_iff
    (I := fun past => (SystemState.after env cfg past).fabric.routes.CountAccurate) rfl
    (fun _ h => h) (fun past l h hk => (hstep past l h).mpr hk)
    (fun past l h h' => (hstep past l h).mp h') ls

open Reference in
/-- A route of the reference slot. -/
def routeOf (generation : UInt64) : RouteEntry :=
  { route := ⟨generation⟩, generation := ⟨generation⟩, slot := slot, target := ⟨1⟩ }

open Reference in
/-- The reference deployment with a route, restarted, and then with a newer route. -/
def revalidatedRun : List Label :=
  setup.map .op ++
    [.op (.installRoute (routeOf 1) .null), .restart {}, .op (.installRoute (routeOf 2) .null)]

open Reference in
/-- **The count outlives the routes.**  The restart marks the one route there is.  The
newer route that replaces it is acknowledged, and the count is still one. -/
theorem count_outlives_routes :
    (SystemState.after env {} revalidatedRun).fabric.routes.revalidationCount = 1 ∧
      (SystemState.after env {} revalidatedRun).fabric.routes.awaiting = 0 ∧
      ¬ ∀ σ, Transition.Reachable (machine env) (fun _ _ => True) σ →
        σ.fabric.routes.CountAccurate := by
  have hrun : (SystemState.after env {} revalidatedRun).fabric.routes.revalidationCount = 1 ∧
      (SystemState.after env {} revalidatedRun).fabric.routes.awaiting = 0 := by decide +kernel
  refine ⟨hrun.1, hrun.2, fun h => ?_⟩
  have hcount := h _ (SystemState.after_reachable env {} revalidatedRun)
  rw [RouteTable.CountAccurate, hrun.1, hrun.2] at hcount
  cases hcount

end FailoverFabric
