import FailoverFabric.TargetRegistry

/-! # What a publication does to the other targets

The facts of one target decide how the others are looked up: the first target that
is bound to a service turns the snapshots of its slots from a scan over all targets
into the list of those bound, and the others drop out.  That is all
(`publication_frame`): otherwise a publication for a target without a confirmed
failure changes the eligibility of no other target.
-/
namespace FailoverFabric
open Fabric

namespace Fabric
variable {rank : Candidate → ServiceDefinition → UInt64} {s s' : Fabric} {slot : ServiceSlotKey}
  {now : Time} {f : CandidateFacts} {t : TargetRecord} {p : Nat}

/-- The target is among the eligible candidates of the slot. -/
def Eligible (rank : Candidate → ServiceDefinition → UInt64) (s : Fabric) (slot : ServiceSlotKey)
    (u : TargetId) : Prop :=
  ∃ cs, (s.eligibleCandidates rank slot).2 = .ok cs ∧ ∃ c ∈ cs, c.facts.target = u

/-- The publication binds the first target to the slot's service. -/
def BindsFirst (s s' : Fabric) (slot : ServiceSlotKey) : Prop :=
  s.targetsByService slot.service = [] ∧ s'.targetsByService slot.service ≠ []

/-- **Eligibility, by the candidates of the slot**, when they all fit into a
snapshot. -/
theorem eligible_iff {u : TargetId}
    (hroom : (s.pool slot).length ≤ s.cfg.maxCandidatesPerSnapshot) :
    s.Eligible rank slot u ↔ ∃ svc g, s.serviceForSlot slot = some svc ∧
      s.snapshotCounter.next = .ok g ∧ ∃ c ∈ s.pool slot, c.facts.target = u ∧
        SelectionEngine.exclusion c svc s.domains (s.buildContext slot) = none := by
  have hall : s.candidatesFor slot = s.pool slot := by
    rw [candidatesFor_eq, List.take_of_length_le hroom]
  have hlist : ∀ (sr : SelectionResult) (e : Candidate),
      e ∈ sr.selected.toList ++ sr.evaluatedAlternatives ↔
        sr.selected = some e ∨ e ∈ sr.evaluatedAlternatives := by
    intro sr e
    rw [List.mem_append, Option.mem_toList]
  have hcs : ∀ cs, (s.eligibleCandidates rank slot).2 = .ok cs ↔
      ∃ sr, (s.select rank slot).2 = .ok sr ∧
        cs = sr.selected.toList ++ sr.evaluatedAlternatives := by
    intro cs
    rw [eligibleCandidates]
    cases (s.select rank slot).2 with
    | error e => simp [Except.map]
    | ok sr => simp [Except.map, eq_comm]
  constructor
  · rintro ⟨cs, hok, e, he, rfl⟩
    obtain ⟨sr, hsr, rfl⟩ := (hcs cs).mp hok
    rw [hlist] at he
    rcases select_eq_ok.mp hsr with ⟨-, rfl⟩ | ⟨svc, g, hsvc, hg, rfl⟩
    · rcases he with he | he <;> cases he
    · obtain ⟨c, hc, hex, rfl⟩ := SelectionEngine.select_spec.mp he
      rw [hall] at hc
      exact ⟨svc, g, hsvc, hg, c, hc, rfl, hex⟩
  · rintro ⟨svc, g, hsvc, hg, c, hc, rfl, hex⟩
    rw [← hall] at hc
    refine ⟨_, (hcs _).mpr ⟨_, select_result hsvc hg, rfl⟩, SelectionEngine.marked c, ?_, rfl⟩
    rw [hlist]
    exact SelectionEngine.select_spec.mpr ⟨c, hc, hex, rfl⟩

/-! ## The context -/

theorem confirmedFailedTargets_withFacts (hclear : s.confirmedFailedTargets f.target = false) :
    (s.withFacts now t f).confirmedFailedTargets = s.confirmedFailedTargets := by
  show (if f.ready then Function.update s.confirmedFailedTargets f.target false
    else s.confirmedFailedTargets) = _
  rw [← hclear, Function.update_eq_self, ite_self]

theorem id_withFacts (i : Nat) :
    (s.withFacts now t f).targets.items[i]?.map TargetRecord.id =
      s.targets.items[i]?.map TargetRecord.id := by
  have hmap : (s.withFacts now t f).targets.items.map TargetRecord.id =
      s.targets.items.map TargetRecord.id := IndexedVec.map_modify fun _ _ => rfl
  rw [← List.getElem?_map, hmap, List.getElem?_map]

/-- What a publication makes relevant to a slot is the published target at most. -/
theorem mem_relevantTargets_withFacts (hp : s.targets.index f.target = some p)
    (hsound : s.targets.Sound (·.id)) {x : TargetId} (hx : x ≠ f.target) :
    x ∈ (s.withFacts now t f).relevantTargets slot ↔ x ∈ s.relevantTargets slot := by
  unfold relevantTargets
  rw [List.mem_append, List.mem_append]
  refine or_congr_left ?_
  rw [List.mem_filterMap, List.mem_filterMap]
  refine exists_congr fun i => ?_
  rw [id_withFacts]
  refine and_congr_left fun hxi => ?_
  show i ∈ s.bindToService t f slot.service ↔ _
  rw [mem_bindToService hp]
  refine or_iff_left_of_imp ?_
  rintro ⟨rfl, -⟩
  obtain ⟨v, hv, hvid⟩ := hsound _ _ hp
  rw [hv] at hxi
  exact absurd ((Option.some.inj hxi).symm.trans hvid) hx

/-- A publication for a target without a confirmed failure leaves the context of
every selection as it is. -/
theorem buildContext_withFacts (hp : s.targets.index f.target = some p)
    (hsound : s.targets.Sound (·.id)) (hclear : s.confirmedFailedTargets f.target = false) :
    (s.withFacts now t f).buildContext slot = s.buildContext slot := by
  have hmem : ∀ x,
      x ∈ ((s.withFacts now t f).relevantTargets slot).filter s.confirmedFailedTargets ↔
        x ∈ (s.relevantTargets slot).filter s.confirmedFailedTargets := by
    intro x
    rw [List.mem_filter, List.mem_filter]
    refine and_congr_left fun hx => mem_relevantTargets_withFacts hp hsound ?_
    rintro rfl
    rw [hclear] at hx
    cases hx
  have hdomains : ∀ d, d ∈ (((s.withFacts now t f).relevantTargets slot).filter
        s.confirmedFailedTargets).flatMap s.domains.domainsOf ↔
      d ∈ ((s.relevantTargets slot).filter s.confirmedFailedTargets).flatMap
        s.domains.domainsOf := by
    intro d
    simp only [List.mem_flatMap, hmem]
  show ({ s.buildContext slot with
    confirmedFailedTargets := uniq (((s.withFacts now t f).relevantTargets slot).filter
      (s.withFacts now t f).confirmedFailedTargets)
    failedDomains := uniq ((((s.withFacts now t f).relevantTargets slot).filter
      (s.withFacts now t f).confirmedFailedTargets).flatMap s.domains.domainsOf) } :
        SelectionContext) = s.buildContext slot
  rw [confirmedFailedTargets_withFacts hclear, uniq_congr hmem, uniq_congr hdomains]
  rfl

/-! ## The candidates -/

/-- The candidate at another position is as before. -/
theorem emit_withFacts (hp : s.targets.index f.target = some p) {i : Nat} (hi : i ≠ p) :
    (s.withFacts now t f).emit i = s.emit i := by
  have hne : ¬ p = i := fun h => hi h.symm
  have hsame : (s.withFacts now t f).targets.items[i]? = s.targets.items[i]? := by
    show (s.targets.modify f.target _).items[i]? = _
    rw [IndexedVec.modify_getElem?, hp]
    simp [hne]
  rw [emit, emit, hsame]
  rfl

/-- A candidate at the position of a target is of that target. -/
theorem target_of_emit (hwf : TargetsWellFormed s.targets) {x : TargetId}
    (hp : s.targets.index x = some p) {c : Candidate} (hc : s.emit p = some c) :
    c.facts.target = x := by
  obtain ⟨r, hr, hrf⟩ := emit_eq_some hc
  obtain ⟨r', hr', hid⟩ := hwf.sound _ _ hp
  rw [hr] at hr'
  cases hr'
  exact (hwf.facts r (List.mem_of_getElem? hr) _ hrf).trans hid

theorem index_withFacts {x : TargetId} :
    (s.withFacts now t f).targets.index x = s.targets.index x := by
  show (s.targets.modify f.target _).index x = _
  rw [IndexedVec.modify_index]

/-- Unless the publication binds the first target to the slot's service, it leaves
the service with bound targets or without, as it was. -/
theorem bound_nil_withFacts (hp : s.targets.index f.target = some p)
    (hfirst : ¬ BindsFirst s (s.withFacts now t f) slot) :
    (s.withFacts now t f).targetsByService slot.service = [] ↔
      s.targetsByService slot.service = [] := by
  constructor
  · intro hnil
    refine List.eq_nil_iff_forall_not_mem.mpr fun i hi => ?_
    have hmore : i ∈ s.bindToService t f slot.service := (mem_bindToService hp _ _).mpr (Or.inl hi)
    have hbound : s.bindToService t f slot.service = [] := hnil
    rw [hbound] at hmore
    cases hmore
  · intro hnil
    by_contra hne
    exact hfirst ⟨hnil, hne⟩

/-- The candidates of the other targets, unless the publication binds the first
target to the slot's service: the same ones. -/
theorem mem_pool_withFacts (hwf : TargetsWellFormed s.targets)
    (hp : s.targets.index f.target = some p) (hfirst : ¬ BindsFirst s (s.withFacts now t f) slot)
    {c : Candidate} (hc : c.facts.target ≠ f.target) :
    c ∈ (s.withFacts now t f).pool slot ↔ c ∈ s.pool slot := by
  have hp' : (s.withFacts now t f).targets.index f.target = some p := index_withFacts.trans hp
  have hbound : ∀ i, i ≠ p → (i ∈ (s.withFacts now t f).targetsByService slot.service ↔
      i ∈ s.targetsByService slot.service) := by
    intro i hi
    show i ∈ s.bindToService t f slot.service ↔ _
    rw [mem_bindToService hp]
    exact or_iff_left fun h => hi h.1
  rw [mem_pool, mem_pool, bound_nil_withFacts hp hfirst]
  refine exists_congr fun i => ?_
  by_cases hi : i = p
  · -- the published position has no candidate of another target, before or after
    subst hi
    constructor
    · rintro ⟨hemit, -⟩
      exact absurd (target_of_emit (wellFormed_withFacts hwf) hp' hemit) hc
    · rintro ⟨hemit, -⟩
      exact absurd (target_of_emit hwf hp hemit) hc
  · rw [emit_withFacts hp hi, hbound i hi]
    rfl

/-- The first target bound to a service is its only candidate. -/
theorem pool_bindsFirst (hwf : TargetsWellFormed s.targets)
    (hp : s.targets.index f.target = some p) (hfirst : BindsFirst s (s.withFacts now t f) slot)
    {c : Candidate} (hc : c ∈ (s.withFacts now t f).pool slot) : c.facts.target = f.target := by
  have hp' : (s.withFacts now t f).targets.index f.target = some p := index_withFacts.trans hp
  obtain ⟨hnil, hne⟩ := hfirst
  obtain ⟨i, hemit, hor⟩ := mem_pool.mp hc
  have hi : i ∈ s.bindToService t f slot.service := hor.resolve_left fun h => hne h.1
  rw [mem_bindToService hp, hnil] at hi
  rcases hi with hi | ⟨rfl, -⟩
  · cases hi
  · exact target_of_emit (wellFormed_withFacts hwf) hp' hemit

end Fabric

/-- **A publication leaves the others alone, but for the first of a service.**  In
every reachable state, for a registered target without a confirmed failure: whether
another target is eligible for a slot is the same before and after the publication
of any facts, provided the snapshots are not cut; unless the publication binds the
first target to the slot's service, and then no other is eligible after it. -/
theorem publication_frame (env : Env) {σ : SystemState}
    (h : Transition.Reachable (machine env) (fun _ _ => True) σ) {now : Time} {f : CandidateFacts}
    {s' : Fabric} (hpub : σ.fabric.publishCandidateFacts now f = .ok s')
    (hclear : σ.fabric.confirmedFailedTargets f.target = false) (slot : ServiceSlotKey)
    (hroom : (σ.fabric.pool slot).length ≤ σ.fabric.cfg.maxCandidatesPerSnapshot)
    (hroom' : (s'.pool slot).length ≤ s'.cfg.maxCandidatesPerSnapshot) {u : TargetId}
    (hu : u ≠ f.target) :
    (¬ BindsFirst σ.fabric s' slot →
        (s'.Eligible env.rank slot u ↔ σ.fabric.Eligible env.rank slot u)) ∧
      (BindsFirst σ.fabric s' slot → ¬ s'.Eligible env.rank slot u) := by
  have hwf := TargetsWellFormed.reachable h
  have hs' : s' = σ.fabric.apply env (.publishCandidateFacts now f) := by
    show s' = σ.fabric.orSelf (σ.fabric.publishCandidateFacts now f)
    rw [hpub]
    rfl
  rw [eligible_iff hroom, eligible_iff hroom']
  rcases apply_publishCandidateFacts_at env σ.fabric now f with hsame | ⟨t, p, hp, -, -, hfacts⟩
  · rw [hs', hsame]
    exact ⟨fun _ => Iff.rfl, fun hfirst => absurd hfirst.1 hfirst.2⟩
  · rw [hfacts] at hs'
    subst hs'
    constructor
    · intro hfirst
      refine exists_congr fun svc => exists_congr fun g => ?_
      refine and_congr_right fun _ => and_congr_right fun _ => exists_congr fun c => ?_
      rw [buildContext_withFacts hp hwf.sound hclear]
      constructor
      · rintro ⟨hc, rfl, hex⟩
        exact ⟨(mem_pool_withFacts hwf hp hfirst hu).mp hc, rfl, hex⟩
      · rintro ⟨hc, rfl, hex⟩
        exact ⟨(mem_pool_withFacts hwf hp hfirst hu).mpr hc, rfl, hex⟩
    · rintro hfirst ⟨svc, g, -, -, c, hc, rfl, -⟩
      exact hu (pool_bindsFirst hwf hp hfirst hc)

namespace Reference

/-- The reference deployment with a third target registered. -/
def withThird : SystemState :=
  (machine env).run { fabric := {} } (setup.map .op ++ [.op (.registerTarget ⟨3⟩ [])])

theorem withThird_reachable : Transition.Reachable (machine env) (fun _ _ => True) withThird :=
  .run_all _ (.initial ⟨{}, rfl⟩)

/-- Facts of the third target that name a service. -/
def thirdFacts (service : UInt64) : CandidateFacts := { facts 3 33 with service := ⟨service⟩ }

/-- Whether a target is eligible for the slot. -/
def eligibleNow (s : Fabric) (u : TargetId) : Bool :=
  (s.eligibleCandidates env.rank slot).2.toOption.any fun cs => cs.any fun c => c.facts.target == u

theorem eligibleNow_iff {s : Fabric} {u : TargetId} :
    eligibleNow s u = true ↔ s.Eligible env.rank slot u := by
  unfold eligibleNow Fabric.Eligible
  cases (s.eligibleCandidates env.rank slot).2 with
  | error e => simp [Except.toOption]
  | ok cs => simp [Except.toOption]

end Reference

open Reference in
/-- The third target is published without a service, and target 2 stays
eligible. -/
theorem publication_frame_reference :
    let s := withThird.fabric
    let s' := s.apply env (.publishCandidateFacts 0 (thirdFacts 0))
    s.Eligible env.rank slot ⟨2⟩ ∧ s'.Eligible env.rank slot ⟨2⟩ := by
  intro s s'
  have hbefore : s.Eligible env.rank slot ⟨2⟩ := eligibleNow_iff.mp (by decide +kernel)
  have hfirst : ¬ BindsFirst s s' slot := fun h => h.2 (by decide +kernel)
  have hpub : s.publishCandidateFacts 0 (thirdFacts 0) = .ok s' := by rfl
  have hframe := publication_frame env withThird_reachable hpub (by decide +kernel) slot
    (by decide +kernel) (by decide +kernel) (u := ⟨2⟩) (by decide)
  exact ⟨hbefore, (hframe.1 hfirst).mpr hbefore⟩

open Reference in
/-- **The first target of a service displaces the others.**  Target 2 names no
service and is eligible; the third target is published for the slot's service, and
target 2 no longer is. -/
theorem first_binding_displaces :
    ¬ ∀ σ, Transition.Reachable (machine env) (fun _ _ => True) σ → ∀ now f s',
      σ.fabric.publishCandidateFacts now f = .ok s' →
      σ.fabric.confirmedFailedTargets f.target = false → ∀ slot,
      (σ.fabric.pool slot).length ≤ σ.fabric.cfg.maxCandidatesPerSnapshot →
      (s'.pool slot).length ≤ s'.cfg.maxCandidatesPerSnapshot → ∀ u, u ≠ f.target →
        (s'.Eligible env.rank slot u ↔ σ.fabric.Eligible env.rank slot u) := by
  intro h
  let s' := withThird.fabric.apply env (.publishCandidateFacts 0 (thirdFacts 1))
  have hsame := h withThird withThird_reachable 0 (thirdFacts 1) s' rfl (by decide +kernel) slot
    (by decide +kernel) (by decide +kernel) ⟨2⟩ (by decide)
  have hafter : s'.Eligible env.rank slot ⟨2⟩ := hsame.mpr (eligibleNow_iff.mp (by decide +kernel))
  exact absurd (eligibleNow_iff.mpr hafter) (by decide +kernel)

end FailoverFabric
