import FailoverFabric.Candidate
import FailoverFabric.Library.StableSort

/-! # Hard eligibility and deterministic selection

`selection.hpp` and `selection.cpp`.  Each hard exclusion is a rule that names
the reason it refuses a candidate for, or passes it on to the next; the first
rule that refuses decides.  Selection keeps the candidates no rule refuses and
sorts them, stably, by preference, rank, target and boot.

`SelectionEngine::rank` scores a candidate in double arithmetic.  It is a
parameter here: nothing below depends on the scores.
-/
namespace FailoverFabric

/-- The coordinator's view that selection depends on. -/
structure SelectionContext where
  failedTarget : TargetId := .null
  confirmedFailedTargets : List TargetId := []
  fencedBoots : List WorkerBootId := []
  failedDomains : List FailureDomainId := []
  currentRouteGen : Option RouteGeneration := none
  preferredTarget : Option TargetId := none
  requiresFreshReadiness : Bool := true
  nowReceiptSeq : UInt64 := 0

/-- Why a candidate was excluded, and the detail reported with it. -/
abbrev Exclusion := ExclusionReason × Text

structure SelectionResult where
  hasSelection : Bool := false
  selected : Option Candidate := none
  evaluatedAlternatives : List Candidate := []
  exclusions : List (TargetId × Exclusion) := []
  policyGen : PolicyGeneration := {}
  snapshotGen : CandidateSnapshotGeneration := {}
  deriving DecidableEq

namespace SelectionEngine
section Rules
variable (c : Candidate) (svc : ServiceDefinition) (dom : DomainRegistry) (ctx : SelectionContext)

/-- A rule that refuses with one reason and one text when its condition holds. -/
def excludeIf (refused : Bool) (reason : ExclusionReason) (detail : String) : Option Exclusion :=
  if refused then some (reason, text detail) else none

/-- Rule 1: the failed target itself. -/
def failedTargetRule : Option Exclusion :=
  excludeIf (c.facts.target != .null && c.facts.target == ctx.failedTarget)
    .failedDomain "candidate is the failed target"

/-- Rule 2: a target with confirmed failure evidence. -/
def confirmedFailedRule : Option Exclusion :=
  excludeIf (ctx.confirmedFailedTargets.contains c.facts.target)
    .failedDomain "target has confirmed failure evidence"

/-- Rule 3: a fenced boot. -/
def fencedBootRule : Option Exclusion :=
  excludeIf (ctx.fencedBoots.contains c.facts.workerBoot) .fencedBoot "worker boot is fenced"

/-- Rule 4: fresh readiness. -/
def freshReadinessRule : Option Exclusion :=
  excludeIf (ctx.requiresFreshReadiness && !c.facts.evidenceFresh)
      .staleReadiness "readiness evidence is stale" <|>
    excludeIf (ctx.requiresFreshReadiness && !c.facts.ready)
      .unreadyEngine "engine is not ready"

/-- Rule 5: compatibility. -/
def compatibilityRule : Option Exclusion :=
  excludeIf (!svc.compatibility.modelKey.isEmpty && c.facts.modelKey != svc.compatibility.modelKey)
      .incompatibleProfile "model_key mismatch" <|>
    excludeIf
      (!svc.compatibility.runtimeAbi.isEmpty && c.facts.runtimeAbi != svc.compatibility.runtimeAbi)
      .incompatibleProfile "runtime_abi mismatch" <|>
    excludeIf (svc.compatibility.readinessProfile.any fun p => c.facts.profile != p)
      .incompatibleProfile "readiness_profile mismatch"

/-- The continuity classes that require restored state. -/
def stateful (required : ContinuityClass) : Bool :=
  required == .checkpointRestore || required == .sessionStateRebind

/-- The candidate's checkpoint is older than the least the contract permits. -/
def checkpointTooOld : Bool :=
  svc.recovery.minCheckpointGen.any fun least =>
    c.state.checkpointGeneration.any fun g => decide (g.value < least.value)

/-- Rule 6: continuity and state. -/
def continuityRule : Option Exclusion :=
  if stateful svc.recovery.continuity then
    excludeIf (!c.state.stateAvailable || !c.state.correctSession || !c.state.correctTenant ||
          !c.state.correctModelGeneration || !c.state.stateFormatOk || !c.state.statusIntegrityOk)
        .stateUnavailable "required state is not available or incompatible" <|>
      excludeIf (checkpointTooOld c svc)
        .stateTooOld "checkpoint is older than the permitted recovery point" <|>
      excludeIf (c.continuity.isNone || c.continuity == some .unknown)
        .unsupportedContinuity "candidate continuity class is unknown"
  else none

/-- What the first resource of the required class is refused for. -/
def resourceRefusal (req : ResourceRequirement) (cr : CandidateResource) : Option Exclusion :=
  if cr.resourcesRevoked then some (.resourcesRevoked, text "resource claim revoked")
  else if cr.hasConflictingCommitment then
    some (.commitmentConflict, text "conflicting exclusive commitment on " ++ req.resourceClass)
  else if cr.amount.lt req.amount then
    some (.insufficientCapacity, text "insufficient capacity on " ++ req.resourceClass)
  else none

def resourceRule (req : ResourceRequirement) : Option Exclusion :=
  match c.resources.find? fun cr => cr.resourceClass == req.resourceClass with
  | some cr => resourceRefusal req cr
  | none => some (.insufficientCapacity, text "no capacity on " ++ req.resourceClass)

/-- Rule 7: every required resource. -/
def resourcesRule : Option Exclusion := svc.resources.findSome? (resourceRule c)

/-- The candidate's standing in one failed domain. -/
def failedDomainRule (fd : FailureDomainId) : Option Exclusion :=
  match dom.inDomain c.facts.target fd with
  | some true => some (.failedDomain, text "candidate is inside a failed domain")
  | none =>
    some (.domainIndependenceUnknown, text "candidate domain membership is unknown in failed domain")
  | some false => none

/-- Rule 8: failure-domain independence. -/
def independenceRule : Option Exclusion :=
  if svc.domainRequirement.requireDomainIndependence then
    match dom.overlaps c.facts.target ctx.failedTarget with
    | none =>
      some (.domainIndependenceUnknown,
        text "domain independence cannot be established (unknown membership)")
    | some true =>
      some (.failedDomain, text "candidate shares a failure domain with the failed target")
    | some false => ctx.failedDomains.findSome? (failedDomainRule c dom)
  else none

/-- The first rule that refuses the candidate. -/
def exclusion : Option Exclusion :=
  failedTargetRule c ctx <|> confirmedFailedRule c ctx <|> fencedBootRule c ctx <|>
    freshReadinessRule c ctx <|> compatibilityRule c svc <|> continuityRule c svc <|>
    resourcesRule c svc <|> independenceRule c svc dom ctx

/-- Whether the candidate may be ranked, and the candidate annotated with the
reason when it may not. -/
def hardEligible : Bool × Candidate :=
  match exclusion c svc dom ctx with
  | some (reason, detail) => (false, { c with failedReason := some reason, failedDetail := detail })
  | none => (true, { c with hardEligible := true, failedReason := none })

end Rules

section Select
variable (rank : Candidate → ServiceDefinition → UInt64)

/-- The sort order: the preferred target first, then the higher rank, then the
smaller target and the smaller boot. -/
def precedes (svc : ServiceDefinition) (ctx : SelectionContext) (a b : Candidate) : Bool :=
  let pa := ctx.preferredTarget == some a.facts.target
  let pb := ctx.preferredTarget == some b.facts.target
  if pa != pb then pa
  else if rank a svc ≠ rank b svc then decide (rank b svc < rank a svc)
  else if a.facts.target ≠ b.facts.target then decide (a.facts.target.value < b.facts.target.value)
  else decide (a.facts.workerBoot.value < b.facts.workerBoot.value)

/-- `std::stable_sort` with `precedes`. -/
def sorted (svc : ServiceDefinition) (ctx : SelectionContext) (cs : List Candidate) :
    List Candidate :=
  cs.insertionSort fun a b => precedes rank svc ctx b a = false

/-- The candidates of a snapshot that no rule refuses, as eligibility annotates
them. -/
def eligible (snap : CandidateSnapshot) (svc : ServiceDefinition) (dom : DomainRegistry)
    (ctx : SelectionContext) : List Candidate :=
  ((snap.candidates.map fun c => hardEligible c svc dom ctx).filter (·.1)).map (·.2)

def select (snap : CandidateSnapshot) (svc : ServiceDefinition) (dom : DomainRegistry)
    (ctx : SelectionContext) : SelectionResult :=
  let working := snap.candidates.map fun c => hardEligible c svc dom ctx
  let exclusions := (working.filter fun w => !w.1).filterMap fun w =>
    w.2.failedReason.map fun r => (w.2.facts.target, (r, w.2.failedDetail))
  match sorted rank svc ctx (eligible snap svc dom ctx) with
  | [] =>
    { exclusions :=
        if exclusions.isEmpty then [(.null, (.noEligibleTarget, text "no candidates"))]
        else exclusions
      policyGen := svc.policyGeneration
      snapshotGen := snap.generation }
  | best :: rest =>
    { hasSelection := true
      selected := some best
      evaluatedAlternatives := rest
      exclusions := exclusions
      policyGen := svc.policyGeneration
      snapshotGen := snap.generation }

/-! ## What selection can return -/

variable {rank} {c : Candidate} {svc : ServiceDefinition} {dom : DomainRegistry}
  {ctx : SelectionContext}

/-- The rules that come before independence. -/
def grounds (c : Candidate) (svc : ServiceDefinition) (ctx : SelectionContext) : Option Exclusion :=
  failedTargetRule c ctx <|> confirmedFailedRule c ctx <|> fencedBootRule c ctx <|>
    freshReadinessRule c ctx <|> compatibilityRule c svc <|> continuityRule c svc <|>
    resourcesRule c svc

theorem exclusion_eq_grounds :
    exclusion c svc dom ctx = (grounds c svc ctx).or (independenceRule c svc dom ctx) := by
  simp only [exclusion, grounds, Option.orElse_eq_orElse, Option.orElse_eq_or, Option.or_assoc]

/-- What an eligible candidate has passed. -/
structure Passes (c : Candidate) (svc : ServiceDefinition) (ctx : SelectionContext) : Prop where
  failedTarget : failedTargetRule c ctx = none
  confirmedFailed : confirmedFailedRule c ctx = none
  fencedBoot : fencedBootRule c ctx = none
  freshReadiness : freshReadinessRule c ctx = none
  continuity : continuityRule c svc = none

/-- A candidate is excluded by none exactly if every rule passes it on. -/
theorem exclusion_eq_none : exclusion c svc dom ctx = none ↔
    failedTargetRule c ctx = none ∧ confirmedFailedRule c ctx = none ∧
      fencedBootRule c ctx = none ∧ freshReadinessRule c ctx = none ∧
      compatibilityRule c svc = none ∧ continuityRule c svc = none ∧
      resourcesRule c svc = none ∧ independenceRule c svc dom ctx = none := by
  simp only [exclusion, Option.orElse_eq_orElse, Option.orElse_eq_or, Option.or_eq_none_iff]

theorem passes_of_exclusion (h : exclusion c svc dom ctx = none) : Passes c svc ctx := by
  obtain ⟨h1, h2, h3, h4, -, h6, -⟩ := exclusion_eq_none.mp h
  exact ⟨h1, h2, h3, h4, h6⟩

theorem excludeIf_eq_none {b : Bool} {reason : ExclusionReason} {detail : String} :
    excludeIf b reason detail = none ↔ b = false := by
  cases b <;> simp [excludeIf]

theorem hardEligible_fst : (hardEligible c svc dom ctx).1 = (exclusion c svc dom ctx).isNone := by
  unfold hardEligible
  split <;> simp_all

/-- The annotation of an eligible candidate. -/
def marked (c : Candidate) : Candidate := { c with hardEligible := true, failedReason := none }

theorem eligible_eq {snap : CandidateSnapshot} :
    eligible snap svc dom ctx =
      (snap.candidates.filter fun c => (exclusion c svc dom ctx).isNone).map marked := by
  rw [eligible, List.filter_map, List.map_map]
  have htest : (Prod.fst ∘ fun c => hardEligible c svc dom ctx) =
      fun c => (exclusion c svc dom ctx).isNone := funext fun _ => hardEligible_fst
  rw [htest]
  refine List.map_congr_left fun c hc => ?_
  have hnone : exclusion c svc dom ctx = none := by simpa using (List.mem_filter.mp hc).2
  simp [hardEligible, hnone, marked]

theorem mem_eligible {snap : CandidateSnapshot} {e : Candidate} :
    e ∈ eligible snap svc dom ctx ↔
      ∃ c ∈ snap.candidates, exclusion c svc dom ctx = none ∧ e = marked c := by
  rw [eligible_eq, List.mem_map]
  constructor
  · rintro ⟨c, hc, rfl⟩
    obtain ⟨hc, hnone⟩ := List.mem_filter.mp hc
    exact ⟨c, hc, by simpa using hnone, rfl⟩
  · rintro ⟨c, hc, hnone, rfl⟩
    exact ⟨c, List.mem_filter.mpr ⟨hc, by simp [hnone]⟩, rfl⟩

theorem select_selected {snap : CandidateSnapshot} :
    (select rank snap svc dom ctx).selected =
      (sorted rank svc ctx (eligible snap svc dom ctx)).head? := by
  unfold select
  simp only
  split
  · rename_i hsort
    rw [hsort]
    rfl
  · rename_i best rest hsort
    rw [hsort]
    rfl

theorem select_alternatives {snap : CandidateSnapshot} :
    (select rank snap svc dom ctx).evaluatedAlternatives =
      (sorted rank svc ctx (eligible snap svc dom ctx)).tail := by
  unfold select
  simp only
  split
  · rename_i hsort
    rw [hsort]
    rfl
  · rename_i best rest hsort
    rw [hsort]
    rfl

/-- **What selection returns, chosen or alternative, are the candidates of the
snapshot that no rule refuses.** -/
theorem select_spec {snap : CandidateSnapshot} {e : Candidate} :
    (select rank snap svc dom ctx).selected = some e ∨
        e ∈ (select rank snap svc dom ctx).evaluatedAlternatives ↔
      ∃ c ∈ snap.candidates, exclusion c svc dom ctx = none ∧ e = marked c := by
  rw [select_selected, select_alternatives, ← mem_eligible]
  have hmem : e ∈ eligible snap svc dom ctx ↔
      e ∈ sorted rank svc ctx (eligible snap svc dom ctx) := by rw [sorted, List.mem_insertionSort]
  rw [hmem]
  cases sorted rank svc ctx (eligible snap svc dom ctx) with
  | nil => simp
  | cons best rest => simp [eq_comm]

theorem not_fenced_of_exclusion (h : exclusion c svc dom ctx = none) :
    c.facts.workerBoot ∉ ctx.fencedBoots := by
  have := excludeIf_eq_none.mp (passes_of_exclusion h).fencedBoot
  simpa using this

theorem not_confirmedFailed_of_exclusion (h : exclusion c svc dom ctx = none) :
    c.facts.target ∉ ctx.confirmedFailedTargets := by
  have := excludeIf_eq_none.mp (passes_of_exclusion h).confirmedFailed
  simpa using this

/-! ## The candidate that is selected -/

/-- The sort order on numbers: the keys are compared one after the other. -/
theorem precedes_iff {a b : Candidate} :
    precedes rank svc ctx a b = true ↔
      (ctx.preferredTarget == some b.facts.target).toNat <
          (ctx.preferredTarget == some a.facts.target).toNat ∨
        (ctx.preferredTarget == some b.facts.target).toNat =
            (ctx.preferredTarget == some a.facts.target).toNat ∧
          ((rank b svc).toNat < (rank a svc).toNat ∨ (rank b svc).toNat = (rank a svc).toNat ∧
            (a.facts.target.value.toNat < b.facts.target.value.toNat ∨
              a.facts.target.value.toNat = b.facts.target.value.toNat ∧
                a.facts.workerBoot.value.toNat < b.facts.workerBoot.value.toNat)) := by
  have htarget : a.facts.target = b.facts.target ↔
      a.facts.target.value.toNat = b.facts.target.value.toNat := by
    rw [UInt64.toNat_inj, Id.value_inj]
  have hrank : rank a svc = rank b svc ↔ (rank b svc).toNat = (rank a svc).toNat := by
    rw [UInt64.toNat_inj, eq_comm]
  unfold precedes
  generalize (ctx.preferredTarget == some a.facts.target) = pa
  generalize (ctx.preferredTarget == some b.facts.target) = pb
  simp only [ne_eq, htarget, hrank]
  cases pa <;> cases pb <;> simp [UInt64.lt_iff_toNat_lt] <;> split_ifs <;> omega

/-- The sort order is one that a stable sort may be given. -/
theorem precedes_strictWeak : List.StrictWeak (precedes rank svc ctx) where
  trans a b c hab hbc := by
    rw [precedes_iff] at hab hbc ⊢
    omega
  negTrans a b c hab hbc := by
    rw [← Bool.not_eq_true, precedes_iff] at hab hbc ⊢
    omega
  irrefl a := by
    rw [← Bool.not_eq_true, precedes_iff]
    omega

/-- **What selection selects leads the eligible candidates.** -/
theorem select_selected_iff {snap : CandidateSnapshot} {e : Candidate} :
    (select rank snap svc dom ctx).selected = some e ↔
      List.Leads (precedes rank svc ctx) e (eligible snap svc dom ctx) := by
  rw [select_selected, sorted]
  exact List.head?_insertionSort_iff precedes_strictWeak

/-! ## When two contexts select alike -/

variable {ctx' : SelectionContext}

theorem hardEligible_congr (h : exclusion c svc dom ctx' = exclusion c svc dom ctx) :
    hardEligible c svc dom ctx' = hardEligible c svc dom ctx := by
  rw [hardEligible, hardEligible, h]

/-- The exclusions that selection reports, when there are candidates. -/
theorem select_exclusions {snap : CandidateSnapshot} (h : snap.candidates ≠ []) :
    (select rank snap svc dom ctx).exclusions = snap.candidates.filterMap fun c =>
      (exclusion c svc dom ctx).map fun x => (c.facts.target, x) := by
  have hrefused : (((snap.candidates.map fun c => hardEligible c svc dom ctx).filter
      fun w => !w.1).filterMap fun w =>
        w.2.failedReason.map fun r => (w.2.facts.target, (r, w.2.failedDetail))) =
      snap.candidates.filterMap fun c =>
        (exclusion c svc dom ctx).map fun x => (c.facts.target, x) := by
    rw [List.filterMap_filter, List.filterMap_map]
    refine List.filterMap_congr fun c _ => ?_
    cases hex : exclusion c svc dom ctx <;> simp [hardEligible, hex]
  unfold select
  simp only [hrefused]
  split
  · rename_i hsort
    -- nothing is eligible, so the first candidate is refused
    obtain ⟨c, hc⟩ := List.exists_mem_of_ne_nil _ h
    rw [if_neg]
    intro hempty
    cases hex : exclusion c svc dom ctx with
    | none =>
      have hmem : marked c ∈ sorted rank svc ctx (eligible snap svc dom ctx) := by
        rw [sorted, List.mem_insertionSort]
        exact mem_eligible.mpr ⟨c, hc, hex, rfl⟩
      rw [hsort] at hmem
      cases hmem
    | some x =>
      have hmem : (c.facts.target, x) ∈ snap.candidates.filterMap fun c =>
          (exclusion c svc dom ctx).map fun x => (c.facts.target, x) :=
        List.mem_filterMap.mpr ⟨c, hc, by rw [hex]; rfl⟩
      rw [List.isEmpty_iff.mp hempty] at hmem
      cases hmem
  · rfl

/-- Functions that keep the same elements and map a list alike map each of these
elements alike. -/
theorem filterMap_agree {α β : Type} {f g : α → Option β} {l : List α}
    (hsome : ∀ a ∈ l, f a = none ↔ g a = none) (h : l.filterMap f = l.filterMap g) :
    ∀ a ∈ l, f a = g a := by
  induction l with
  | nil => simp
  | cons a l ih =>
    have hrest := fun b hb => hsome b (List.mem_cons_of_mem a hb)
    have ha := hsome a (List.mem_cons_self ..)
    intro b hb
    cases hf : f a with
    | none =>
      rw [List.filterMap_cons_none hf, List.filterMap_cons_none (ha.mp hf)] at h
      rcases List.mem_cons.mp hb with rfl | hb
      · rw [hf, ha.mp hf]
      · exact ih hrest h b hb
    | some y =>
      cases hg : g a with
      | none =>
        rw [ha.mpr hg] at hf
        cases hf
      | some z =>
        rw [List.filterMap_cons_some hf, List.filterMap_cons_some hg] at h
        obtain ⟨rfl, htail⟩ := List.cons.inj h
        rcases List.mem_cons.mp hb with rfl | hb
        · rw [hf, hg]
        · exact ih hrest htail b hb

/-- **Two contexts with one preference select alike exactly when they refuse each
candidate alike.** -/
theorem select_eq_iff {snap : CandidateSnapshot}
    (hpref : ctx'.preferredTarget = ctx.preferredTarget) :
    select rank snap svc dom ctx' = select rank snap svc dom ctx ↔
      ∀ c ∈ snap.candidates, exclusion c svc dom ctx' = exclusion c svc dom ctx := by
  constructor
  · intro h c hc
    have hmem : ∀ e, (select rank snap svc dom ctx').selected = some e ∨
        e ∈ (select rank snap svc dom ctx').evaluatedAlternatives ↔
        (select rank snap svc dom ctx).selected = some e ∨
        e ∈ (select rank snap svc dom ctx).evaluatedAlternatives := fun e => by rw [h]
    simp only [select_spec] at hmem
    have hnone : ∀ c ∈ snap.candidates,
        exclusion c svc dom ctx' = none ↔ exclusion c svc dom ctx = none := by
      intro c hc
      constructor
      · intro hex
        obtain ⟨b, -, hb, heq⟩ := (hmem (marked c)).mp ⟨c, hc, hex, rfl⟩
        have hsame : exclusion (marked c) svc dom ctx = exclusion (marked b) svc dom ctx := by rw [heq]
        exact hsame.trans hb
      · intro hex
        obtain ⟨b, -, hb, heq⟩ := (hmem (marked c)).mpr ⟨c, hc, hex, rfl⟩
        have hsame : exclusion (marked c) svc dom ctx' = exclusion (marked b) svc dom ctx' := by
          rw [heq]
        exact hsame.trans hb
    have hne : snap.candidates ≠ [] := List.ne_nil_of_mem hc
    have hlist := congrArg SelectionResult.exclusions h
    rw [select_exclusions hne, select_exclusions hne] at hlist
    have hagree := filterMap_agree (fun a ha => by simp [hnone a ha]) hlist c hc
    exact Option.map_injective (fun x y hxy => (Prod.mk.inj hxy).2) hagree
  · intro h
    have hworking : (snap.candidates.map fun c => hardEligible c svc dom ctx') =
        snap.candidates.map fun c => hardEligible c svc dom ctx :=
      List.map_congr_left fun c hc => hardEligible_congr (h c hc)
    have hsorted : sorted rank svc ctx' = sorted rank svc ctx := by
      funext cs
      unfold sorted precedes
      rw [hpref]
    unfold select eligible
    rw [hworking, hsorted]

end Select
end SelectionEngine

end FailoverFabric
