import FailoverFabric.Availability
import FailoverFabric.Cooldown

/-! # Hysteresis under heartbeats

`evaluate_failback` wants the preferred target to have been ready for a while, and takes
`ready_since` for the start of that time.  But every accepted publication that says that
the target is ready enters its own time there, the hundredth like the first, so that what
is measured is the time since the last heartbeat.  A target that has been ready all along
is let in exactly if none of its heartbeats falls into the window (`hysteresis_met_iff`).
-/
namespace FailoverFabric
open Fabric

/-! ## Heartbeats -/

/-- Facts that were accepted for a target: when, and whether they say that it is ready. -/
structure Beat where
  time : Time
  ready : Bool
  deriving DecidableEq

/-- The last reading of the clock, and the accepted publications of each target, the last
one first. -/
structure Heartbeats where
  clock : Option Time := none
  beats : TargetId → List Beat := fun _ => []

def noteBeats (σ : SystemState) : Label → Heartbeats → Heartbeats
  | .op (.setInitialAssignment now _), h => { h with clock := some now }
  | .op (.publishCandidateFacts now f), h =>
    { clock := some now
      beats :=
        if σ.fabric.acceptsFacts f then
          Function.update h.beats f.target (⟨now, f.ready⟩ :: h.beats f.target)
        else h.beats }
  | .advance _ rd, h => { h with clock := some rd.later }
  | _, h => h

/-- The clock does not go back. -/
def inTime (h : Heartbeats) : Label → Bool
  | .op (.setInitialAssignment now _) => h.clock.all (· ≤ now)
  | .op (.publishCandidateFacts now _) => h.clock.all (· ≤ now)
  | .advance _ rd => h.clock.all (· ≤ rd.now) && rd.now ≤ rd.later
  | _ => true

/-- At least the window ago a publication said that the target was ready, and so did all
that were accepted since. -/
def StablyReady (beats since : List Beat) (windowMs : UInt32) (now : Time) : Prop :=
  ∃ b earlier, beats = since ++ b :: earlier ∧ b.ready = true ∧
    (∀ b' ∈ since, b'.ready = true) ∧ (windowMs.toNat : Int) ≤ msBetween b.time now

namespace Fabric
variable {s : Fabric} {now : Time} {f : CandidateFacts}

/-! ## What a publication enters -/

theorem apply_publish_refused (env : Env) (now : Time) (h : s.acceptsFacts f = false) :
    s.apply env (.publishCandidateFacts now f) = s := by
  show s.orSelf (s.publishCandidateFacts now f) = s
  unfold publishCandidateFacts
  unfold acceptsFacts at h
  cases hfind : s.targets.find f.target with
  | none => rfl
  | some r =>
    rw [hfind, Option.any_some] at h
    simp only [h]
    rfl

theorem apply_publish_accepted (env : Env) (now : Time) (h : s.acceptsFacts f = true) :
    ∃ r, s.targets.find f.target = some r ∧
      s.apply env (.publishCandidateFacts now f) = s.withFacts now r f := by
  obtain ⟨r, hfind, hnewer⟩ := (Option.any_eq_true _ _).mp h
  refine ⟨r, hfind, ?_⟩
  show s.orSelf (s.publishCandidateFacts now f) = _
  unfold publishCandidateFacts
  simp only [hfind, hnewer]
  rfl

theorem withFacts_saysReady (hwf : TargetsWellFormed s.targets) {r : TargetRecord}
    (hfind : s.targets.find f.target = some r) (t : TargetId) :
    (s.withFacts now r f).saysReady t = if t = f.target then f.ready else s.saysReady t := by
  rw [saysReady, factsOf, withFacts, IndexedVec.find_modify hwf.sound]
  split
  · rw [hfind]
    rfl
  · rfl

theorem withFacts_readySince {r : TargetRecord} :
    (s.withFacts now r f).readySince =
      if f.ready then Function.update s.readySince f.target (some now) else s.readySince := rfl

/-- Nothing else enters the time. -/
theorem apply_readySince (env : Env) (s : Fabric) (o : Op)
    (hfacts : ∀ now f, o ≠ .publishCandidateFacts now f) :
    (s.apply env o).readySince = s.readySince := by
  cases o with
  | publishCandidateFacts now f => exact absurd rfl (hfacts now f)
  | createService d =>
    show (s.orSelf (s.createService d)).readySince = _
    cases hs : s.createService d with
    | error e => rfl
    | ok s' =>
      rw [(createService_eq hs).1]
      rfl
  | setInitialAssignment now a =>
    show (s.orSelf (s.setInitialAssignment now a)).readySince = _
    cases hs : s.setInitialAssignment now a with
    | error e => rfl
    | ok s' =>
      rw [(setInitialAssignment_eq_ok hs).fabric]
      rfl
  | registerTarget id transport => rw [apply_registerTarget]
  | publishCandidateState id st => rw [apply_publishCandidateState]
  | publishCandidateResources id rs => rw [apply_publishCandidateResources]
  | snapshot slot => rw [apply_snapshot]
  | select slot => rw [apply_select]
  | planFailover slot =>
    show (s.planFailoverPref env.rank slot none).1.readySince = _
    rw [planFailoverPref_fst]
  | installRoute entry boot =>
    show (s.installRoute entry boot).1.readySince = _
    rw [installRoute_eq]
  | load blob =>
    rcases apply_load_cases env s blob with hl | ⟨snap, -, hl⟩
    · rw [hl]
    · rw [hl]
      rfl
  | _ => rfl

end Fabric

/-! ## The invariant -/

/-- **What holds with such a clock**: the publications of a target are in the order of
their times, and the time that is entered for one that says it is ready is that of the
last. -/
structure Pulse (p : SystemState × Heartbeats) : Prop where
  past : ∀ t, ∀ b ∈ p.2.beats t, ∃ c, p.2.clock = some c ∧ b.time ≤ c
  ordered : ∀ t, (p.2.beats t).Pairwise fun b b' => b'.time ≤ b.time
  last : ∀ t, p.1.fabric.saysReady t = true →
    ∃ u earlier, p.2.beats t = ⟨u, true⟩ :: earlier ∧ p.1.fabric.readySince t = some u

namespace Pulse
variable {env : Env} {p : SystemState × Heartbeats}

/-- A step that publishes no facts. -/
theorem quiet (h : Pulse p) {σ' : SystemState} {clock : Option Time}
    (hclock : ∀ c, p.2.clock = some c → ∃ c', clock = some c' ∧ c ≤ c')
    (hready : ∀ t, σ'.fabric.saysReady t = true → p.1.fabric.saysReady t = true)
    (hsince : ∀ t, σ'.fabric.saysReady t = true →
      σ'.fabric.readySince t = p.1.fabric.readySince t) :
    Pulse (σ', { p.2 with clock := clock }) := by
  refine ⟨fun t b hb => ?_, h.ordered, fun t ht => ?_⟩
  · obtain ⟨c, hc, hle⟩ := h.past t b hb
    obtain ⟨c', hc', hcc⟩ := hclock c hc
    exact ⟨c', hc', Int.le_trans hle hcc⟩
  · obtain ⟨u, earlier, hbeats, hu⟩ := h.last t (hready t ht)
    exact ⟨u, earlier, hbeats, (hsince t ht).trans hu⟩

theorem clock_le {h : Heartbeats} {now : Time} (hok : h.clock.all (· ≤ now) = true) (c : Time)
    (hc : h.clock = some c) : c ≤ now := by
  rw [hc, Option.all_some, decide_eq_true_eq] at hok
  exact hok

theorem past_le (h : Pulse p) {now : Time} (hnow : ∀ c, p.2.clock = some c → c ≤ now) {t : TargetId}
    {b : Beat} (hb : b ∈ p.2.beats t) : b.time ≤ now := by
  obtain ⟨c, hc, hle⟩ := h.past t b hb
  exact Int.le_trans hle (hnow c hc)

/-- Accepted facts are the last beat of their target. -/
theorem accepted (h : Pulse p) (hwf : TargetsWellFormed p.1.fabric.targets) {now : Time}
    {f : CandidateFacts} {r : TargetRecord} (hfind : p.1.fabric.targets.find f.target = some r)
    (hnow : ∀ c, p.2.clock = some c → c ≤ now) :
    Pulse ({ p.1 with fabric := p.1.fabric.withFacts now r f },
      { clock := some now
        beats := Function.update p.2.beats f.target (⟨now, f.ready⟩ :: p.2.beats f.target) }) := by
  refine ⟨fun t b hb => ⟨now, rfl, ?_⟩, fun t => ?_, fun t ht => ?_⟩
  · simp only [Function.update_apply] at hb
    split at hb
    · rcases List.mem_cons.mp hb with rfl | hb
      · exact Int.le_refl now
      · exact h.past_le hnow hb
    · exact h.past_le hnow hb
  · simp only [Function.update_apply]
    split
    · exact List.pairwise_cons.mpr ⟨fun b hb => h.past_le hnow hb, h.ordered f.target⟩
    · exact h.ordered t
  · simp only [withFacts_saysReady hwf hfind, withFacts_readySince, Function.update_apply] at ht ⊢
    by_cases heq : t = f.target
    · -- the facts say that they are ready, or the target would not be
      rw [if_pos heq] at ht
      rw [if_pos heq, if_pos ht, Function.update_apply, if_pos heq]
      exact ⟨now, p.2.beats f.target, by rw [ht], rfl⟩
    · rw [if_neg heq] at ht
      obtain ⟨u, earlier, hbeats, hu⟩ := h.last t ht
      refine ⟨u, earlier, by rw [if_neg heq, hbeats], ?_⟩
      split
      · rw [Function.update_of_ne heq, hu]
      · exact hu

theorem facts (h : Pulse p) (hwf : TargetsWellFormed p.1.fabric.targets) {now : Time}
    {f : CandidateFacts} (hok : inTime p.2 (.op (.publishCandidateFacts now f)) = true) :
    Pulse (p.1.step env (.op (.publishCandidateFacts now f)),
      noteBeats p.1 (.op (.publishCandidateFacts now f)) p.2) := by
  have hnow : ∀ c, p.2.clock = some c → c ≤ now := clock_le hok
  show Pulse ({ p.1 with fabric := p.1.fabric.apply env (.publishCandidateFacts now f) }, _)
  simp only [noteBeats]
  cases hacc : p.1.fabric.acceptsFacts f with
  | false =>
    rw [apply_publish_refused env now hacc]
    exact h.quiet (fun c hc => ⟨now, rfl, hnow c hc⟩) (fun _ => id) fun _ _ => rfl
  | true =>
    obtain ⟨r, hfind, happly⟩ := apply_publish_accepted env now hacc
    rw [happly, if_pos rfl]
    exact h.accepted hwf hfind hnow

/-- **One step of such a run.** -/
theorem step (h : Pulse p) (hwf : TargetsWellFormed p.1.fabric.targets) {l : Label}
    (hok : inTime p.2 l = true) : Pulse (p.1.step env l, noteBeats p.1 l p.2) := by
  have hsame : ∀ c, p.2.clock = some c → ∃ c', p.2.clock = some c' ∧ c ≤ c' :=
    fun c hc => ⟨c, hc, Int.le_refl c⟩
  cases l with
  | op o =>
    by_cases hfacts : ∃ now f, o = .publishCandidateFacts now f
    · obtain ⟨now, f, rfl⟩ := hfacts
      exact h.facts hwf hok
    have hne : ∀ now f, o ≠ .publishCandidateFacts now f := fun now f he => hfacts ⟨now, f, he⟩
    have hready : ∀ t, (p.1.fabric.apply env o).saysReady t = true →
        p.1.fabric.saysReady t = true := by
      intro t ht
      refine (apply_saysReady hwf o ht).resolve_right ?_
      rintro ⟨now, f, he, -⟩
      exact hne now f he
    have hsince : ∀ t, (p.1.fabric.apply env o).readySince t = p.1.fabric.readySince t := by
      intro t
      rw [apply_readySince env p.1.fabric o hne]
    by_cases hassign : ∃ now new, o = .setInitialAssignment now new
    · obtain ⟨now, new, rfl⟩ := hassign
      exact h.quiet (fun c hc => ⟨now, rfl, clock_le hok c hc⟩) hready fun t _ => hsince t
    · have hnote : noteBeats p.1 (.op o) p.2 = p.2 := by
        cases o <;> first | rfl | exact absurd ⟨_, _, rfl⟩ hfacts | exact absurd ⟨_, _, rfl⟩ hassign
      rw [hnote]
      exact h.quiet hsame hready fun t _ => hsince t
  | beginPlan plan ops => exact h.quiet hsame (fun _ => id) fun _ _ => rfl
  | beginFailback slot ops => exact h.quiet hsame (fun _ => id) fun _ _ => rfl
  | advance i rd =>
    simp only [inTime, Bool.and_eq_true, decide_eq_true_eq] at hok
    have hconfined := advance_confined env p.1 i rd
    refine h.quiet (fun c hc => ?_) (fun t ht => ?_) fun t _ => ?_
    · exact ⟨rd.later, rfl, Int.le_trans (clock_le hok.1 c hc) hok.2⟩
    · rw [saysReady, factsOf_congr hconfined.targets] at ht
      exact ht
    · rw [hconfined]
  | restart cfg =>
    rcases step_restart_cases env p.1 cfg with hstep | ⟨_, _, -, -, hstep⟩
    · rw [hstep]
      exact h.quiet hsame (fun _ => id) fun _ _ => rfl
    · -- a new process has no targets
      rw [hstep]
      exact h.quiet hsame (fun t ht => by cases ht) fun t ht => by cases ht

end Pulse

/-! ## The gate -/

namespace Fabric
variable {s : Fabric} {rd : Readings} {slot : ServiceSlotKey} {svc : ServiceDefinition}
  {now : Time} {pref : TargetId} {afp : AntiFlappingPolicy}

/-- The evaluation comes to the hysteresis: the slot is elsewhere than on its preferred
target, the policy does not refuse, the target has fresh facts that say it is ready, and
the cooldown is over. -/
structure AsksHysteresis (s : Fabric) (rd : Readings) (slot : ServiceSlotKey)
    (svc : ServiceDefinition) (pref : TargetId) : Prop where
  elsewhere : ∃ cur, s.currentAssignment slot = some cur ∧ cur.target ≠ pref
  policy : s.policyRefusal slot svc.failback = none
  ready : s.freshlyReady pref = true
  cooled : s.cooldownLeft rd.now slot svc.antiFlapping = none

/-- **The gate reports exactly if it is asked and refuses.** -/
theorem evaluateFailback_hysteresis (hsvc : s.serviceForSlot slot = some svc)
    (hpref : s.preferred slot = some pref) :
    (s.evaluateFailback rd slot).hysteresisNotMet = false ↔
      (AsksHysteresis s rd slot svc pref →
        s.hysteresisRefusal rd.later pref svc.antiFlapping = none) := by
  unfold evaluateFailback
  simp only [hsvc, hpref]
  cases hcur : s.currentAssignment slot with
  | none =>
    refine iff_of_true rfl fun h => ?_
    obtain ⟨cur, hsome, -⟩ := h.elsewhere
    cases hcur.symm.trans hsome
  | some cur =>
    simp only
    split
    · rename_i hhome
      refine iff_of_true rfl fun h => ?_
      obtain ⟨cur', hsome, hne⟩ := h.elsewhere
      cases hcur.symm.trans hsome
      exact absurd hhome hne
    rename_i hne
    split
    · rename_i why hpolicy
      exact iff_of_true rfl fun h => by cases hpolicy.symm.trans h.policy
    rename_i hpolicy
    split
    · rename_i hunready
      exact iff_of_true rfl fun h => by cases hunready.symm.trans h.ready
    rename_i hready
    split
    · rename_i left hcooldown
      exact iff_of_true rfl fun h => by cases hcooldown.symm.trans h.cooled
    rename_i hcooled
    have hasks : AsksHysteresis s rd slot svc pref :=
      ⟨⟨cur, hcur, hne⟩, hpolicy, Bool.eq_true_of_not_eq_false hready, hcooled⟩
    rw [forall_prop_of_true hasks]
    split
    · rename_i d hd
      rw [(hysteresisRefusal_refuses hd).2, hd]
      simp
    · rename_i hnone
      refine iff_of_true ?_ hnone
      split <;> rfl

/-- The gate measures the time since the one that is entered. -/
theorem hysteresisRefusal_eq_none_iff {u : Time} (hu : s.readySince pref = some u)
    (hle : u ≤ now) :
    s.hysteresisRefusal now pref afp = none ↔ (afp.hysteresisMs.toNat : Int) ≤ msBetween u now := by
  have hpast : 0 ≤ msBetween u now := Int.tdiv_nonneg (Int.sub_nonneg_of_le hle) (by decide)
  unfold hysteresisRefusal
  split
  · rename_i hzero
    rw [hzero]
    exact iff_of_true rfl hpast
  · rw [hu]
    simp only [Option.map_eq_none_iff, hysteresisLeft]
    split
    · rename_i hwithin
      exact iff_of_false (by simp) (by omega)
    · rename_i hover
      exact iff_of_true rfl (by omega)

end Fabric

/-- **When stable readiness satisfies the hysteresis.**  With a clock that does not go
back, in every reachable state: if facts of the preferred target that were accepted at
least the window ago said that it was ready, and so did all that were accepted since, the
evaluation does not report the hysteresis, if and only if it does not come to it or all
that were accepted since were accepted at least the window ago themselves. -/
theorem hysteresis_met_iff (env : Env) {p : SystemState × Heartbeats}
    (h : Transition.Reachable ((machine env).withHistory {} noteBeats)
      (fun p l => inTime p.2 l = true) p) (rd : Readings)
    (hnow : ∀ c, p.2.clock = some c → c ≤ rd.later) (slot : ServiceSlotKey)
    (svc : ServiceDefinition) (pref : TargetId)
    (hsvc : p.1.fabric.serviceForSlot slot = some svc)
    (hpref : p.1.fabric.preferred slot = some pref) (since : List Beat)
    (hstable : StablyReady (p.2.beats pref) since svc.antiFlapping.hysteresisMs rd.later) :
    (p.1.fabric.evaluateFailback rd slot).hysteresisNotMet = false ↔
      (AsksHysteresis p.1.fabric rd slot svc pref →
        ∀ b ∈ since, (svc.antiFlapping.hysteresisMs.toNat : Int) ≤ msBetween b.time rd.later) := by
  have hpulse : Pulse p := by
    refine h.invariant (fun p hp => ?_) fun p l hr hp hok =>
      hp.step (TargetsWellFormed.reachable hr.fst) hok
    obtain ⟨⟨cfg, hcfg⟩, hstart⟩ := hp
    obtain ⟨σ, beats⟩ := p
    cases hcfg
    cases hstart
    exact ⟨fun t b hb => (by cases hb), fun t => List.Pairwise.nil, fun t ht => (by cases ht)⟩
  rw [evaluateFailback_hysteresis hsvc hpref]
  refine forall_congr' fun hasks => ?_
  obtain ⟨u, earlier, hbeats, hu⟩ := hpulse.last pref (saysReady_of_freshlyReady hasks.ready)
  have hpast : u ≤ rd.later :=
    hpulse.past_le (t := pref) (b := ⟨u, true⟩) hnow (by rw [hbeats]; exact List.mem_cons_self)
  rw [hysteresisRefusal_eq_none_iff hu hpast]
  obtain ⟨b, before, hsplit, -, -, hwindow⟩ := hstable
  constructor
  · -- none of the others was accepted after the last
    intro hlast b' hb'
    have hmem : b' ∈ (⟨u, true⟩ : Beat) :: earlier := by
      rw [← hbeats, hsplit]
      exact List.mem_append_left _ hb'
    have hordered := hpulse.ordered pref
    rw [hbeats, List.pairwise_cons] at hordered
    have hle : b'.time ≤ u := by
      rcases List.mem_cons.mp hmem with rfl | hmem
      · exact Int.le_refl u
      · exact hordered.1 b' hmem
    exact Int.le_trans hlast (msBetween_mono hle (Int.le_refl _))
  · intro hall
    rw [hbeats] at hsplit
    cases since with
    | nil =>
      -- the last is the one that the window starts with
      obtain ⟨rfl, -⟩ := List.cons.inj hsplit
      exact hwindow
    | cons b' rest =>
      obtain ⟨rfl, -⟩ := List.cons.inj hsplit
      exact hall _ List.mem_cons_self

namespace Reference

/-- A service whose failback waits until its target has been ready for 100 ms. -/
def patient : ServiceDefinition :=
  { returning with antiFlapping := { cooldownMs := 0, hysteresisMs := 100 } }

/-- The slot has failed over from target 1 to target 2, and target 1 is back: it says that
it is ready, and again a second later. -/
def beating : SystemState × Heartbeats :=
  let start : List Label := (.createService patient :: setup.tail).map .op
  let planned := planOf ((machine env).run { fabric := {} } start).fabric
  ((machine env).withHistory {} noteBeats).run ({ fabric := {} }, {})
    (start ++ callOf 0 planned ++
      [Op.registerTarget ⟨1⟩ [], .publishCandidateFacts 0 (facts 1 12),
        .publishCandidateFacts 1000000000 (facts 1 12)].map .op)

/-- The clock shows the same time twice. -/
def readAt (now : Time) : Readings := { now := now, later := now }

theorem beating_reachable :
    Transition.Reachable ((machine env).withHistory {} noteBeats)
      (fun p l => inTime p.2 l = true) beating :=
  Transition.Reachable.run (b := fun (p : SystemState × Heartbeats) l => inTime p.2 l) _
    (.initial ⟨⟨{}, rfl⟩, rfl⟩) (by decide +kernel)

theorem beating_stable {now : Time} (h : 1000000000 ≤ now) :
    StablyReady (beating.2.beats ⟨1⟩) [⟨1000000000, true⟩] patient.antiFlapping.hysteresisMs now := by
  have hbeats : beating.2.beats ⟨1⟩ = [⟨1000000000, true⟩] ++ [⟨0, true⟩] := by decide +kernel
  refine ⟨⟨0, true⟩, [], hbeats, rfl, by simp, ?_⟩
  exact Int.le_trans (by decide) (msBetween_mono (Int.le_refl 0) h)

/-- 200 ms after its last heartbeat the target has been ready for long enough. -/
theorem hysteresis_met_reference :
    (beating.1.fabric.evaluateFailback (readAt 1200000000) slot).hysteresisNotMet = false := by
  refine (hysteresis_met_iff env beating_reachable (readAt 1200000000) ?_ slot patient ⟨1⟩
    (by decide +kernel) (by decide +kernel) [⟨1000000000, true⟩]
    (beating_stable (by decide))).mpr fun _ b hb => ?_
  · have hclock : beating.2.clock = some 1000000000 := by decide +kernel
    intro c hc
    cases hclock.symm.trans hc
    decide
  · rw [List.mem_singleton.mp hb]
    decide

/-- **A heartbeat starts the window again**: 50 ms after it a target that has been ready
for more than a second is refused as not stably ready. -/
theorem hysteresis_restarted :
    ¬ ∀ p, Transition.Reachable ((machine env).withHistory {} noteBeats)
        (fun p l => inTime p.2 l = true) p →
      ∀ rd, (∀ c, p.2.clock = some c → c ≤ rd.later) → ∀ slot svc pref,
        p.1.fabric.serviceForSlot slot = some svc → p.1.fabric.preferred slot = some pref →
        ∀ since, StablyReady (p.2.beats pref) since svc.antiFlapping.hysteresisMs rd.later →
          (p.1.fabric.evaluateFailback rd slot).hysteresisNotMet = false := by
  intro h
  have hclock : beating.2.clock = some 1000000000 := by decide +kernel
  have hmet := h beating beating_reachable (readAt 1050000000) (fun c hc => ?_) slot patient ⟨1⟩
    (by decide +kernel) (by decide +kernel) [⟨1000000000, true⟩] (beating_stable (by decide))
  · have hreported : (beating.1.fabric.evaluateFailback (readAt 1050000000) slot).hysteresisNotMet =
        true := by decide +kernel
    cases hmet.symm.trans hreported
  · cases hclock.symm.trans hc
    decide

end Reference

end FailoverFabric
