import FailoverFabric.MachineSteps

/-! # Confirmed failures and selection

A snapshot takes its candidates from the index of the slot's service, or from a
scan over all targets when that index is empty; the context lists the confirmed
failures of the indexed targets and of the current target only.  The two agree
when the index is not empty, or when no other target has failed
(`selected_not_confirmedFailed`); in the fallback a target with a confirmed
failure is selected (`confirmed_failure_selected`).
-/
namespace FailoverFabric
open Fabric

/-- What an operation does to the records of the targets. -/
inductive Fabric.TargetsEffect (s : Fabric) : Op → IndexedVec TargetId TargetRecord → Prop
  | kept (o : Op) : TargetsEffect s o s.targets
  | registered (id : TargetId) (transport : Text) : TargetsEffect s (.registerTarget id transport)
      (s.targets.push id { id := id, transport := transport })
  | published (now : Time) (f : CandidateFacts) (r : TargetRecord)
      (found : s.targets.find f.target = some r)
      (newer : (r.facts.all fun old =>
        decide (old.readinessGeneration.value ≤ f.readinessGeneration.value)) = true) :
      TargetsEffect s (.publishCandidateFacts now f) (s.targets.modify f.target fun t =>
        { t with facts := some { f with evidenceFresh := true } })
  | changed (o : Op) (id : TargetId) (g : TargetRecord → TargetRecord)
      (key : ∀ r, (g r).id = r.id) (facts : ∀ r, (g r).facts = r.facts) :
      TargetsEffect s o (s.targets.modify id g)
  | loaded (blob : List UInt8) :
      TargetsEffect s (.load blob) { items := s.targets.items.map demoteTarget }

/-- **The operations, inverted**, as far as the targets are concerned. -/
theorem Fabric.apply_targets (env : Env) (s : Fabric) (o : Op) :
    TargetsEffect s o (s.apply env o).targets := by
  cases hrep : reports o with
  | false =>
    rw [(apply_sameReports env s o hrep).targets]
    exact .kept o
  | true =>
    cases o with
    | registerTarget id transport =>
      rcases apply_registerTarget_cases env s id transport with h | ⟨-, -, h⟩
      · rw [h]
        exact .kept _
      · rw [h]
        exact .registered id transport
    | publishCandidateFacts now f =>
      rcases apply_publishCandidateFacts_cases env s now f with h | ⟨r, hfind, hnewer, h⟩
      · rw [h]
        exact .kept _
      · rw [h]
        exact .published now f r hfind hnewer
    | publishCandidateState t st =>
      show TargetsEffect s _ (s.orSelf (s.publishCandidateState t st)).targets
      unfold publishCandidateState
      split
      · exact .kept _
      · exact .changed _ t _ (fun _ => rfl) fun _ => rfl
    | publishCandidateResources t rs =>
      show TargetsEffect s _ (s.orSelf (s.publishCandidateResources t rs)).targets
      unfold publishCandidateResources
      split
      · exact .kept _
      · exact .changed _ t _ (fun _ => rfl) fun _ => rfl
    | load blob =>
      rcases apply_load_cases env s blob with h | ⟨snap, -, h⟩
      · rw [h]
        exact .kept _
      · rw [h]
        exact .loaded blob
    | _ => first | exact .kept _ | cases hrep

/-- The target index is sound, and facts are filed with the target they name. -/
structure TargetsWellFormed (targets : IndexedVec TargetId TargetRecord) : Prop where
  sound : targets.Sound (·.id)
  facts : ∀ t ∈ targets.items, ∀ f, t.facts = some f → f.target = t.id

namespace TargetsWellFormed
variable {targets : IndexedVec TargetId TargetRecord}

theorem empty : TargetsWellFormed {} := ⟨IndexedVec.indexed_empty.sound, by simp⟩

theorem push (h : TargetsWellFormed targets) (id : TargetId) (transport : Text) :
    TargetsWellFormed (targets.push id { id := id, transport := transport }) := by
  refine ⟨h.sound.push rfl, fun t ht f hf => ?_⟩
  rcases List.mem_append.mp ht with ht | ht
  · exact h.facts t ht f hf
  · rw [List.mem_singleton] at ht
    subst ht
    cases hf

theorem modify (h : TargetsWellFormed targets) (id : TargetId) {g : TargetRecord → TargetRecord}
    (hid : ∀ t, (g t).id = t.id)
    (hfacts : ∀ t, t.id = id → ∀ f, (g t).facts = some f → f.target = id ∨ t.facts = some f) :
    TargetsWellFormed (targets.modify id g) := by
  refine ⟨h.sound.modify id hid, fun t ht f hf => ?_⟩
  rcases IndexedVec.mem_modify ht with ht | ⟨v, hv, rfl⟩
  · exact h.facts t ht f hf
  · have hkey : v.id = id := h.sound.key_of_find hv
    rw [hid]
    rcases hfacts v hkey f hf with htarget | hold
    · rw [htarget, hkey]
    · exact h.facts v (IndexedVec.mem_of_find hv) f hold

/-- A load keeps the records and forgets the index. -/
theorem demoted (h : TargetsWellFormed targets) :
    TargetsWellFormed { items := targets.items.map demoteTarget } := by
  refine ⟨fun k i hi => (by cases hi), fun t ht f hf => ?_⟩
  obtain ⟨v, hv, rfl⟩ := List.mem_map.mp ht
  obtain ⟨f', hf', rfl⟩ := Option.map_eq_some_iff.mp hf
  exact h.facts v hv f' hf'

theorem apply {env : Env} {s : Fabric} (h : TargetsWellFormed s.targets) (o : Op) :
    TargetsWellFormed (s.apply env o).targets := by
  have heff := apply_targets env s o
  generalize (s.apply env o).targets = targets' at heff
  cases heff with
  | kept => exact h
  | registered id transport => exact h.push id transport
  | published now f r _ _ =>
    refine h.modify f.target (fun _ => rfl) fun t _ f' hf' => Or.inl ?_
    cases hf'
    rfl
  | changed _ id g hid hfacts => exact h.modify id hid fun t _ f hf => Or.inr (hfacts t ▸ hf)
  | loaded blob => exact h.demoted

theorem step {env : Env} {σ : SystemState} (h : TargetsWellFormed σ.fabric.targets) (l : Label) :
    TargetsWellFormed (σ.step env l).fabric.targets := by
  cases l with
  | op o => exact h.apply o
  | beginPlan plan ops => exact h
  | beginFailback slot ops => exact h
  | advance i rd => rwa [(advance_confined env σ i rd).targets]
  | restart cfg =>
    rcases step_restart_cases env σ cfg with hstep | ⟨_, _, -, -, hstep⟩
    · rw [hstep]
      exact h
    · rw [hstep]
      exact empty.demoted

theorem reachable {env : Env} {ok : SystemState → Label → Prop} {σ : SystemState}
    (h : Transition.Reachable (machine env) ok σ) : TargetsWellFormed σ.fabric.targets := by
  refine h.invariant (P := fun σ => TargetsWellFormed σ.fabric.targets) ?_
    fun σ l _ hσ _ => hσ.step l
  rintro σ ⟨cfg, rfl⟩
  exact empty

end TargetsWellFormed

/-! ## What the context covers -/

/-- The context of a slot covers its candidates: they come from the index of its
service, or no compatible target has a confirmed failure but the current one. -/
def ContextCovers (s : Fabric) (slot : ServiceSlotKey) : Prop :=
  s.targetsByService slot.service ≠ [] ∨
    ∀ t ∈ s.targets.items, ∀ f, t.facts = some f → compatible (s.serviceForSlot slot) f = true →
      s.confirmedFailedTargets t.id = true →
        ∃ cur, s.currentAssignment slot = some cur ∧ cur.target = t.id ∧ t.id ≠ .null

/-- A candidate is made of the facts of a target record. -/
theorem candidate_record {s : Fabric} {slot : ServiceSlotKey} {c : Candidate}
    (hc : c ∈ s.candidatesFor slot) :
    ∃ t ∈ s.targets.items, t.facts = some c.facts ∧
      (t.id ∈ s.relevantTargets slot ∨ s.targetsByService slot.service = [] ∧
        compatible (s.serviceForSlot slot) c.facts = true) := by
  have hc := List.mem_of_mem_take hc
  split at hc
  · rename_i hempty
    obtain ⟨t, ht, hsome⟩ := List.mem_filterMap.mp hc
    obtain ⟨f, hf, hsome⟩ := Option.bind_eq_some_iff.mp hsome
    split at hsome
    · rename_i hcompat
      cases hsome
      exact ⟨t, ht, hf, Or.inr ⟨List.isEmpty_iff.mp hempty, hcompat⟩⟩
    · cases hsome
  · obtain ⟨i, hi, hsome⟩ := List.mem_filterMap.mp hc
    obtain ⟨t, ht, hsome⟩ := Option.bind_eq_some_iff.mp hsome
    obtain ⟨f, hf, rfl⟩ := Option.map_eq_some_iff.mp hsome
    refine ⟨t, List.mem_of_getElem? ht, hf, Or.inl (List.mem_append_left _ ?_)⟩
    exact List.mem_filterMap.mpr ⟨i, hi, by rw [ht]; rfl⟩

/-- A candidate with a confirmed failure is in the context, if it covers the
slot. -/
theorem mem_context_of_failed {s : Fabric} {slot : ServiceSlotKey} {c : Candidate}
    (h : TargetsWellFormed s.targets) (hcov : ContextCovers s slot) (hc : c ∈ s.candidatesFor slot)
    (hfail : s.confirmedFailedTargets c.facts.target = true) :
    c.facts.target ∈ (s.buildContext slot).confirmedFailedTargets := by
  obtain ⟨t, ht, hfacts, hrel⟩ := candidate_record hc
  have hid : c.facts.target = t.id := h.facts t ht _ hfacts
  rw [hid] at hfail ⊢
  refine mem_uniq.mpr (List.mem_filter.mpr ⟨?_, hfail⟩)
  -- an indexed candidate is relevant; a scanned one only if it is the current target
  rcases hrel with hrel | ⟨hempty, hcompat⟩
  · exact hrel
  · obtain ⟨cur, hcur, htarget, hnull⟩ :=
      hcov.resolve_left (fun hne => hne hempty) t ht _ hfacts hcompat hfail
    have hfailed : s.failedTargetOf slot = t.id := by rw [failedTargetOf, hcur, ← htarget]
    refine List.mem_append_right _ ?_
    rw [hfailed, if_neg hnull]
    exact List.mem_singleton_self _

/-- **No confirmed failure is selected where the context covers the slot.**  In
every reachable state, for every slot whose candidates the context covers, neither
selection nor planning returns a target with a confirmed failure. -/
theorem selected_not_confirmedFailed (env : Env) {σ : SystemState}
    (h : Transition.Reachable (machine env) (fun _ _ => True) σ) (slot : ServiceSlotKey)
    (hcov : ContextCovers σ.fabric slot) :
    (∀ sr e, (σ.fabric.select env.rank slot).2 = .ok sr → sr.selected = some e →
        σ.fabric.confirmedFailedTargets e.facts.target = false) ∧
      ∀ plan e, (σ.fabric.planFailover env.rank slot).2 = .ok (some plan) →
        plan.selected = some e → σ.fabric.confirmedFailedTargets e.facts.target = false := by
  have hwf := TargetsWellFormed.reachable h
  constructor
  · intro sr e hsel he
    obtain ⟨svc, -, c, hc, hex, rfl⟩ := select_snd hsel (Or.inl he)
    rw [Bool.eq_false_iff]
    intro hfail
    exact SelectionEngine.not_confirmedFailed_of_exclusion hex
      (mem_context_of_failed hwf hcov hc hfail)
  · intro plan e hp he
    obtain ⟨-, -, e', hsel, svc, -, c, hc, hex, rfl⟩ := planFailoverPref_snd hp
    rw [hsel] at he
    cases he
    rw [Bool.eq_false_iff]
    intro hfail
    exact SelectionEngine.not_confirmedFailed_of_exclusion hex
      (mem_context_of_failed hwf hcov hc hfail)

namespace Reference

/-- A confirmed failure of a target. -/
def failureOf (target : UInt64) : FailureEvent :=
  { eventId := ⟨target⟩, target := some ⟨target⟩, status := .confirmed }

/-- The reference deployment after a confirmed failure of a target. -/
def afterFailureOf (target : UInt64) : SystemState :=
  (machine env).run { fabric := {} } (setup.map .op ++ [.op (.publishFailure (failureOf target))])

/-- The target of the candidate that a fabric selects for the slot. -/
def selectedTarget (s : Fabric) : Option TargetId :=
  match (s.select env.rank slot).2 with
  | .ok sr => sr.selected.map (·.facts.target)
  | .error _ => none

/-- What a fabric selects for the slot, if it passes a test. -/
theorem select_of_test {s : Fabric} {t : Candidate → Bool}
    (h : ((s.select env.rank slot).2.toOption.bind (·.selected)).any t = true) :
    ∃ sr e, (s.select env.rank slot).2 = .ok sr ∧ sr.selected = some e ∧ t e = true := by
  cases hsel : (s.select env.rank slot).2 with
  | error e => rw [hsel] at h; cases h
  | ok sr =>
    rw [hsel, Except.toOption, Option.bind_some] at h
    obtain ⟨e, he, ht⟩ := (Option.any_eq_true _ _).mp h
    exact ⟨sr, e, rfl, he, ht⟩

end Reference

open Reference in
/-- The current target of the reference deployment fails, and target 2 is
selected, which has not. -/
theorem selected_not_confirmedFailed_reference :
    let s := (afterFailureOf 1).fabric
    s.confirmedFailedTargets ⟨1⟩ = true ∧ ContextCovers s slot ∧
      ∃ sr e, (s.select env.rank slot).2 = .ok sr ∧ sr.selected = some e ∧
        s.confirmedFailedTargets e.facts.target = false := by
  intro s
  have hreach : Transition.Reachable (machine env) (fun _ _ => True) (afterFailureOf 1) :=
    .run_all _ (.initial ⟨{}, rfl⟩)
  have hcov : ContextCovers s slot := by
    refine Or.inr fun t ht f _ _ hfail => ?_
    have hall : ∀ t ∈ s.targets.items, s.confirmedFailedTargets t.id = false := by decide +kernel
    rw [hall t ht] at hfail
    cases hfail
  obtain ⟨sr, e, hsr, he, -⟩ :=
    select_of_test (s := s) (t := fun e => e.facts.target == ⟨2⟩) (by decide +kernel)
  exact ⟨by decide +kernel, hcov, sr, e, hsr, he,
    (selected_not_confirmedFailed env hreach slot hcov).1 sr e hsr he⟩

open Reference in
/-- **A confirmed failure can be selected.**  Target 2 of the reference deployment
names no service; its failure is confirmed, the scan finds it all the same, and it
is selected. -/
theorem confirmed_failure_selected :
    ¬ ∀ σ, Transition.Reachable (machine env) (fun _ _ => True) σ → ∀ slot sr e,
      (σ.fabric.select env.rank slot).2 = .ok sr → sr.selected = some e →
        σ.fabric.confirmedFailedTargets e.facts.target = false := by
  intro h
  let σ := afterFailureOf 2
  obtain ⟨sr, e, hsr, he, ht⟩ :=
    select_of_test (s := σ.fabric) (t := fun e => e.facts.target == ⟨2⟩) (by decide +kernel)
  have hclear := h σ (.run_all _ (.initial ⟨{}, rfl⟩)) slot sr e hsr he
  rw [eq_of_beq ht] at hclear
  exact absurd hclear (by decide +kernel)

end FailoverFabric
