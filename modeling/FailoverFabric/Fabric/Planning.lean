import FailoverFabric.Fabric.State
import Mathlib.Data.List.Dedup

/-! # Snapshots, selection and planning

`snapshot_locked`, `build_context`, `select`, `plan_failover_pref`.  They change
nothing but the snapshot counter, which is advanced even when a later step
throws.

The source appends to `c.domains` while iterating over it; the candidate's
domains are modelled as its known memberships followed by their ancestors.
-/
namespace FailoverFabric

/-- What a fencing plan must be able to enforce. -/
structure FencingRequirement where
  requireGatewayDispatch : Bool := true
  requireWorkerAdmission : Bool := true
  requireResultAcceptance : Bool := true
  requireCoordinatorAuthority : Bool := true
  requireExternalEffectBoundary : Bool := false
  effectSinkNote : Text := []
  deriving DecidableEq

structure FailoverPlan where
  plan : FailoverPlanId := .null
  generation : FailoverPlanGeneration := {}
  slot : ServiceSlotKey := {}
  sourceAssignment : Option Assignment := none
  triggeringEvidence : List FailureEvent := []
  snapshot : CandidateSnapshot := {}
  selected : Option Candidate := none
  continuity : ContinuityClass := .unknown
  fencingRequirement : FencingRequirement := {}
  requestedRoute : RouteId := .null
  requestedRouteGeneration : RouteGeneration := {}
  recoveryObjective : RecoveryObjective := {}
  policyGen : PolicyGeneration := {}
  reachedMilestones : List Milestone := []
  provenance : Provenance := .derived
  deriving DecidableEq

namespace FailoverPlan

def reached (p : FailoverPlan) (m : Milestone) : Bool := p.reachedMilestones.contains m

def recordMilestone (p : FailoverPlan) (m : Milestone) : FailoverPlan :=
  if p.reached m then p else { p with reachedMilestones := p.reachedMilestones ++ [m] }

end FailoverPlan

namespace Fabric

/-- `emit`: the candidate that a target record with facts becomes. -/
def candidateOf (s : Fabric) (t : TargetRecord) (facts : CandidateFacts) : Candidate :=
  let available := t.hasState && t.state.stateAvailable
  let costs : CandidateCosts :=
    { estimatedPrepMs := if facts.ready then 0 else 5000
      stateRestoreMs := if available then 200 else 0
      estimatedCutoverMs := 50
      stateLossSequences := if available then 0 else 1000
      costEstimated := true }
  let direct := s.domains.domainsOf t.id
  { facts := facts
    state := t.state
    resources := t.resources
    domains := direct ++ direct.flatMap s.domains.ancestorsOf
    continuity := some (inferContinuity t.state facts)
    costs := { costs with estimatedCriticalPathMs := critPathMs costs } }

/-- The candidate at a position of the target vector, if it has facts. -/
def emit (s : Fabric) (idx : Nat) : Option Candidate :=
  (s.targets.items[idx]?).bind fun t => t.facts.map (s.candidateOf t)

/-- The facts fit the model and the runtime that the service asks for. -/
def compatible (svc : Option ServiceDefinition) (facts : CandidateFacts) : Bool :=
  let wantModel := (svc.map (·.compatibility.modelKey)).getD []
  let wantAbi := (svc.map (·.compatibility.runtimeAbi)).getD []
  (wantModel.isEmpty || facts.modelKey == wantModel) && (wantAbi.isEmpty || facts.runtimeAbi == wantAbi)

/-- The fallback scan: every target with compatible facts. -/
def scan (s : Fabric) (slot : ServiceSlotKey) : List Candidate :=
  s.targets.items.filterMap fun t =>
    t.facts.bind fun f =>
      if compatible (s.serviceForSlot slot) f then some (s.candidateOf t f) else none

/-- The candidates for a slot: those bound to its service, or, when there are
none, the fallback scan. -/
def candidatesFor (s : Fabric) (slot : ServiceSlotKey) : List Candidate :=
  let bound := s.targetsByService slot.service
  -- the context of the selection knows the bound targets only (`relevantTargets`)
  (if bound.isEmpty then s.scan slot else bound.filterMap s.emit).take s.cfg.maxCandidatesPerSnapshot

def snapshotLocked (s : Fabric) (slot : ServiceSlotKey) : Except Error (Fabric × CandidateSnapshot) :=
  match s.snapshotCounter.next with
  | .error e => .error e
  | .ok g =>
    .ok ({ s with snapshotCounter := g },
      { generation := g, slot := slot, candidates := s.candidatesFor slot })

/-- `std::sort` and `std::unique`. -/
def uniq {tag : Tag} (ids : List (Id tag)) : List (Id tag) := (ids.insertionSort Id.le).dedup

def failedTargetOf (s : Fabric) (slot : ServiceSlotKey) : TargetId :=
  match s.currentAssignment slot with
  | some a => a.target
  | none => .null

/-- The targets whose confirmed failures matter for a slot: those bound to its
service, and its current target. -/
def relevantTargets (s : Fabric) (slot : ServiceSlotKey) : List TargetId :=
  ((s.targetsByService slot.service).filterMap fun i => (s.targets.items[i]?).map (·.id)) ++
    if s.failedTargetOf slot = .null then [] else [s.failedTargetOf slot]

def buildContext (s : Fabric) (slot : ServiceSlotKey) : SelectionContext :=
  let confirmed := (s.relevantTargets slot).filter s.confirmedFailedTargets
  { failedTarget := s.failedTargetOf slot
    confirmedFailedTargets := uniq confirmed
    failedDomains := uniq (confirmed.flatMap s.domains.domainsOf)
    fencedBoots := s.fencedBoots
    currentRouteGen := (s.routes.current slot).map (·.generation)
    nowReceiptSeq := s.receiptSeq }

theorem mem_uniq {tag : Tag} {ids : List (Id tag)} {i : Id tag} : i ∈ uniq ids ↔ i ∈ ids := by
  rw [uniq, List.mem_dedup, List.mem_insertionSort]

theorem uniq_pairwise {tag : Tag} (ids : List (Id tag)) : (uniq ids).Pairwise Id.le := by
  have htotal : Std.Total (@Id.le tag) := ⟨fun a b => UInt64.le_total a.value b.value⟩
  have htrans : IsTrans (Id tag) Id.le := ⟨fun a b c hab hbc => UInt64.le_trans hab hbc⟩
  exact (List.pairwise_insertionSort Id.le ids).sublist (List.dedup_sublist _)

/-- Sorting and removing duplicates leaves the members to say what the list is. -/
theorem uniq_congr {tag : Tag} {ids ids' : List (Id tag)} (h : ∀ i, i ∈ ids ↔ i ∈ ids') :
    uniq ids = uniq ids' := by
  have hantisymm : Std.Antisymm (@Id.le tag) :=
    ⟨fun a b hab hba => Id.value_inj.mp (UInt64.le_antisymm hab hba)⟩
  have hperm : (uniq ids).Perm (uniq ids') :=
    (List.perm_ext_iff_of_nodup (List.nodup_dedup _) (List.nodup_dedup _)).mpr fun i => by
      show i ∈ uniq ids ↔ i ∈ uniq ids'
      rw [mem_uniq, mem_uniq, h]
  exact hperm.eq_of_pairwise' (uniq_pairwise ids) (uniq_pairwise ids')

section
variable (rank : Candidate → ServiceDefinition → UInt64)

/-- Selection against the state after the snapshot was taken. -/
def selectIn (s : Fabric) (slot : ServiceSlotKey) (svc : ServiceDefinition)
    (snap : CandidateSnapshot) (preferred : Option TargetId) : SelectionResult :=
  SelectionEngine.select rank snap svc s.domains
    { s.buildContext slot with preferredTarget := preferred }

def select (s : Fabric) (slot : ServiceSlotKey) : Fabric × Except Error SelectionResult :=
  match s.serviceForSlot slot with
  | none => (s, .ok {})
  | some svc =>
    match s.snapshotLocked slot with
    | .error e => (s, .error e)
    | .ok (s', snap) => (s', .ok (s'.selectIn rank slot svc snap none))

/-- The selected candidate and the alternatives. -/
def eligibleCandidates (s : Fabric) (slot : ServiceSlotKey) :
    Fabric × Except Error (List Candidate) :=
  let r := s.select rank slot
  (r.1, r.2.map fun sr => sr.selected.toList ++ sr.evaluatedAlternatives)

/-- The route a plan asks for: the current one at its next generation, or a new
one. -/
def nextRoute (s : Fabric) (slot : ServiceSlotKey) : Except Error (RouteId × RouteGeneration) :=
  match s.routes.current slot with
  | some r => r.generation.next.map fun g => (r.route, g)
  | none => s.routeGenCounter.next.map fun g => (s.routeCounter.next, g)

/-- The plan for a selected candidate. -/
def composePlan (s : Fabric) (slot : ServiceSlotKey) (svc : ServiceDefinition)
    (snap : CandidateSnapshot) (selected : Candidate) : Except Error FailoverPlan := do
  let generation ← s.planGenCounter.next
  let route ← s.nextRoute slot
  let plan : FailoverPlan :=
    { plan := s.planCounter.next
      generation := generation
      slot := slot
      sourceAssignment := s.currentAssignment slot
      triggeringEvidence := s.evidence.failuresFor (s.failedTargetOf slot) 4
      snapshot := snap
      selected := some selected
      continuity := selected.continuity.getD .unknown
      policyGen := svc.policyGeneration
      fencingRequirement :=
        { effectSinkNote :=
            text "reference coordinator/gateway/worker gates enforce generation-bound authority" }
      recoveryObjective := svc.recovery
      requestedRoute := route.1
      requestedRouteGeneration := route.2 }
  return plan.recordMilestone .intentOnly

/-- `plan_failover_pref`: a plan, or none when the service is unknown or nothing
is eligible. -/
def planFailoverPref (s : Fabric) (slot : ServiceSlotKey) (preferred : Option TargetId) :
    Fabric × Except Error (Option FailoverPlan) :=
  match s.serviceForSlot slot with
  | none => (s, .ok none)
  | some svc =>
    match s.snapshotLocked slot with
    | .error e => (s, .error e)
    | .ok (s', snap) =>
      match (s'.selectIn rank slot svc snap preferred).selected with
      | none => (s', .ok none)
      | some selected => (s', (s'.composePlan slot svc snap selected).map some)

def planFailover (s : Fabric) (slot : ServiceSlotKey) : Fabric × Except Error (Option FailoverPlan) :=
  s.planFailoverPref rank slot none

end

/-! ## What planning leaves alone, and what it returns -/

variable {rank : Candidate → ServiceDefinition → UInt64} {s s' : Fabric} {slot : ServiceSlotKey}

/-- A snapshot only advances the snapshot counter. -/
theorem snapshotLocked_eq {snap : CandidateSnapshot}
    (h : s.snapshotLocked slot = .ok (s', snap)) :
    s' = { s with snapshotCounter := s'.snapshotCounter } ∧
      snap = { generation := s'.snapshotCounter, slot := slot, candidates := s.candidatesFor slot } := by
  unfold snapshotLocked at h
  split at h
  · cases h
  · cases h
    exact ⟨rfl, rfl⟩

/-- A candidate is made of a target record with facts. -/
theorem candidatesFor_made {c : Candidate} (h : c ∈ s.candidatesFor slot) :
    ∃ t ∈ s.targets.items, ∃ f, t.facts = some f ∧ c = s.candidateOf t f := by
  have h := List.mem_of_mem_take h
  split at h
  · obtain ⟨t, ht, hsome⟩ := List.mem_filterMap.mp h
    obtain ⟨f, hf, hsome⟩ := Option.bind_eq_some_iff.mp hsome
    split at hsome
    · cases hsome
      exact ⟨t, ht, f, hf, rfl⟩
    · cases hsome
  · obtain ⟨i, -, hsome⟩ := List.mem_filterMap.mp h
    obtain ⟨t, ht, hsome⟩ := Option.bind_eq_some_iff.mp hsome
    obtain ⟨f, hf, rfl⟩ := Option.map_eq_some_iff.mp hsome
    exact ⟨t, List.mem_of_getElem? ht, f, hf, rfl⟩

theorem select_fst (rank : Candidate → ServiceDefinition → UInt64) (s : Fabric)
    (slot : ServiceSlotKey) :
    (s.select rank slot).1 = { s with snapshotCounter := (s.select rank slot).1.snapshotCounter } := by
  unfold select
  split
  · rfl
  split
  · rfl
  · rename_i h
    exact (snapshotLocked_eq h).1

theorem planFailoverPref_fst (rank : Candidate → ServiceDefinition → UInt64) (s : Fabric)
    (slot : ServiceSlotKey) (preferred : Option TargetId) :
    (s.planFailoverPref rank slot preferred).1 =
      { s with snapshotCounter := (s.planFailoverPref rank slot preferred).1.snapshotCounter } := by
  unfold planFailoverPref
  split
  · rfl
  split
  · rfl
  · rename_i h
    split <;> exact (snapshotLocked_eq h).1

/-- **Selection, inverted**: it fails only when the snapshot counter is exhausted,
and is otherwise the engine's, on the slot's candidates in the present context. -/
theorem select_eq_ok {sr : SelectionResult} :
    (s.select rank slot).2 = .ok sr ↔
      s.serviceForSlot slot = none ∧ sr = {} ∨
        ∃ svc g, s.serviceForSlot slot = some svc ∧ s.snapshotCounter.next = .ok g ∧
          sr = SelectionEngine.select rank
            { generation := g, slot := slot, candidates := s.candidatesFor slot } svc s.domains
            (s.buildContext slot) := by
  unfold select snapshotLocked
  cases s.serviceForSlot slot with
  | none => simp [eq_comm]
  | some svc =>
    cases s.snapshotCounter.next with
    | error e => simp
    | ok g =>
      simp only [Except.ok.injEq, reduceCtorEq, false_and, false_or, Option.some.injEq,
        exists_and_left, exists_eq_left']
      exact eq_comm

/-- Selection for the slot of a known service. -/
theorem select_eq_ok_of_service {svc : ServiceDefinition} {sr : SelectionResult}
    (hsvc : s.serviceForSlot slot = some svc) :
    (s.select rank slot).2 = .ok sr ↔ ∃ g, s.snapshotCounter.next = .ok g ∧
      sr = SelectionEngine.select rank
        { generation := g, slot := slot, candidates := s.candidatesFor slot } svc s.domains
        (s.buildContext slot) := by
  rw [select_eq_ok, hsvc]
  simp

/-- What `select` returns when it comes to select. -/
theorem select_result {svc : ServiceDefinition} {g : CandidateSnapshotGeneration}
    (hsvc : s.serviceForSlot slot = some svc) (hg : s.snapshotCounter.next = .ok g) :
    (s.select rank slot).2 = .ok (SelectionEngine.select rank
      { generation := g, slot := slot, candidates := s.candidatesFor slot } svc s.domains
      (s.buildContext slot)) :=
  (select_eq_ok_of_service hsvc).mpr ⟨g, hg, rfl⟩

/-- Whatever `select` returns, selected or alternative, is a candidate of the
slot that no rule refuses in the present context. -/
theorem select_snd {sr : SelectionResult} {e : Candidate} (h : (s.select rank slot).2 = .ok sr)
    (he : sr.selected = some e ∨ e ∈ sr.evaluatedAlternatives) :
    ∃ svc, s.serviceForSlot slot = some svc ∧ ∃ c ∈ s.candidatesFor slot,
      SelectionEngine.exclusion c svc s.domains (s.buildContext slot) = none ∧
        e = SelectionEngine.marked c := by
  rcases select_eq_ok.mp h with ⟨-, rfl⟩ | ⟨svc, g, hsvc, -, rfl⟩
  · rcases he with he | he <;> cases he
  · exact ⟨svc, hsvc, SelectionEngine.select_spec.mp he⟩

theorem composePlan_fields {svc : ServiceDefinition} {snap : CandidateSnapshot}
    {selected : Candidate} {plan : FailoverPlan}
    (h : s.composePlan slot svc snap selected = .ok plan) :
    plan.slot = slot ∧ plan.selected = some selected ∧
      plan.sourceAssignment = s.currentAssignment slot := by
  unfold composePlan at h
  cases hg : s.planGenCounter.next with
  | error e => rw [hg] at h; cases h
  | ok g =>
    cases hr : s.nextRoute slot with
    | error e => rw [hg, hr] at h; cases h
    | ok route =>
      rw [hg, hr] at h
      cases h
      exact ⟨rfl, rfl, rfl⟩

/-- **Planning, inverted**: a plan names the slot, its present assignment, and what
the engine selects with the preference. -/
theorem planFailoverPref_selected {preferred : Option TargetId} {plan : FailoverPlan}
    (h : (s.planFailoverPref rank slot preferred).2 = .ok (some plan)) :
    plan.slot = slot ∧ plan.sourceAssignment = s.currentAssignment slot ∧
      ∃ svc g e, s.serviceForSlot slot = some svc ∧ s.snapshotCounter.next = .ok g ∧
        plan.selected = some e ∧
        (SelectionEngine.select rank
          { generation := g, slot := slot, candidates := s.candidatesFor slot } svc s.domains
          { s.buildContext slot with preferredTarget := preferred }).selected = some e := by
  unfold planFailoverPref snapshotLocked at h
  cases hsvc : s.serviceForSlot slot with
  | none => rw [hsvc] at h; cases h
  | some svc =>
    cases hg : s.snapshotCounter.next with
    | error e => rw [hsvc, hg] at h; cases h
    | ok g =>
      rw [hsvc, hg] at h
      simp only at h
      split at h
      · cases h
      rename_i selected hsel
      obtain ⟨p, hp, hplan⟩ : ∃ p, composePlan { s with snapshotCounter := g } slot svc
          { generation := g, slot := slot, candidates := s.candidatesFor slot } selected = .ok p ∧
          p = plan := by
        generalize composePlan _ _ _ _ _ = r at h
        cases r with
        | error e => cases h
        | ok p => exact ⟨p, rfl, by cases h; rfl⟩
      obtain ⟨hslot, hselected, hsource⟩ := composePlan_fields hp
      rw [← hplan]
      exact ⟨hslot, hsource, svc, g, selected, rfl, rfl, hselected, hsel⟩

/-- What a plan selects is a candidate that no rule refuses in the present context,
the preference apart. -/
theorem planFailoverPref_snd {preferred : Option TargetId} {plan : FailoverPlan}
    (h : (s.planFailoverPref rank slot preferred).2 = .ok (some plan)) :
    plan.slot = slot ∧ plan.sourceAssignment = s.currentAssignment slot ∧
      ∃ e, plan.selected = some e ∧ ∃ svc, s.serviceForSlot slot = some svc ∧
        ∃ c ∈ s.candidatesFor slot,
          SelectionEngine.exclusion c svc s.domains
            { s.buildContext slot with preferredTarget := preferred } = none ∧
          e = SelectionEngine.marked c := by
  obtain ⟨hslot, hsource, svc, g, e, hsvc, -, hselected, hsel⟩ := planFailoverPref_selected h
  exact ⟨hslot, hsource, e, hselected, svc, hsvc, SelectionEngine.select_spec.mp (Or.inl hsel)⟩

end Fabric

end FailoverFabric
