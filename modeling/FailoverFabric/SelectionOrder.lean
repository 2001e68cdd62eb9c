import FailoverFabric.Selection
import Mathlib.Data.Prod.Lex

/-! # Selection as a sort

What `select` computes, as a function of the set of candidates.  The comparator
compares the keys of `rankKey` lexicographically, so the selected candidate and
the alternatives are the hard-eligible candidates sorted by that key, whatever
`rank` is; each other candidate is reported with what `hard_eligible` wrote on it;
and candidates that differ in target or boot have different keys, so the order in
which the snapshot lists them is of no effect (`select_exact`).
-/
namespace FailoverFabric.SelectionEngine

section
variable (rank : Candidate → ServiceDefinition → UInt64) (svc : ServiceDefinition)
  (ctx : SelectionContext)

/-- What candidates are sorted by: the preferred target first, then the rank,
higher first, then target and boot, smaller first. -/
def rankKey (c : Candidate) : ℕ ×ₗ ℕᵒᵈ ×ₗ ℕ ×ₗ ℕ :=
  toLex (if ctx.preferredTarget = some c.facts.target then 0 else 1,
    toLex (OrderDual.toDual (rank c svc).toNat,
      toLex (c.facts.target.value.toNat, c.facts.workerBoot.value.toNat)))

end

variable {rank : Candidate → ServiceDefinition → UInt64} {svc : ServiceDefinition}
  {dom : DomainRegistry} {ctx : SelectionContext} {snap : CandidateSnapshot}

theorem precedes_iff_rankKey {a b : Candidate} :
    precedes rank svc ctx a b = true ↔ rankKey rank svc ctx a < rankKey rank svc ctx b := by
  have hpref : ∀ c : Candidate, (if ctx.preferredTarget = some c.facts.target then 0 else 1) =
      1 - (ctx.preferredTarget == some c.facts.target).toNat := by
    intro c
    by_cases hc : ctx.preferredTarget = some c.facts.target
    · simp [hc]
    · simp [hc, beq_eq_false_iff_ne.mpr hc]
  have hle : ∀ c : Candidate, (ctx.preferredTarget == some c.facts.target).toNat ≤ 1 :=
    fun c => Bool.toNat_le _
  have ha := hle a
  have hb := hle b
  rw [precedes_iff]
  simp only [rankKey, hpref, Prod.Lex.toLex_lt_toLex, OrderDual.toDual_lt_toDual,
    OrderDual.toDual_inj]
  omega

theorem precedes_eq_false_iff {a b : Candidate} :
    precedes rank svc ctx b a = false ↔ rankKey rank svc ctx a ≤ rankKey rank svc ctx b := by
  rw [← Bool.not_eq_true, precedes_iff_rankKey, not_lt]

/-- Candidates with one key have one target and one boot. -/
theorem facts_eq_of_rankKey {a b : Candidate}
    (h : rankKey rank svc ctx a = rankKey rank svc ctx b) :
    (a.facts.target, a.facts.workerBoot) = (b.facts.target, b.facts.workerBoot) := by
  simp only [rankKey, toLex_inj, Prod.mk.injEq, UInt64.toNat_inj] at h
  obtain ⟨-, -, htarget, hboot⟩ := h
  rw [Id.value_inj] at htarget hboot
  rw [htarget, hboot]

/-- The selected candidate and the alternatives are the sorted list. -/
theorem ranked_eq :
    (select rank snap svc dom ctx).selected.toList ++
        (select rank snap svc dom ctx).evaluatedAlternatives =
      sorted rank svc ctx (eligible snap svc dom ctx) := by
  rw [select_selected, select_alternatives]
  cases sorted rank svc ctx (eligible snap svc dom ctx) <;> rfl

/-! ## What is reported of the others -/

/-- A refused candidate is annotated with what it was refused for. -/
theorem hardEligible_refused {c : Candidate} {x : Exclusion}
    (h : exclusion c svc dom ctx = some x) :
    (hardEligible c svc dom ctx).2.failedReason = some x.1 ∧
      (hardEligible c svc dom ctx).2.failedDetail = x.2 := by
  simp [hardEligible, h]

theorem refused_iff {c : Candidate} :
    (hardEligible c svc dom ctx).1 = false ↔ ∃ x, exclusion c svc dom ctx = some x := by
  rw [hardEligible_fst, Option.isNone_eq_false_iff, Option.isSome_iff_exists]

theorem select_empty (h : snap.candidates = []) :
    (select rank snap svc dom ctx).exclusions =
      [(.null, (.noEligibleTarget, text "no candidates"))] := by
  simp [select, eligible, sorted, h]

/-- The exclusions are the refused candidates, in the snapshot's order. -/
theorem select_refused (h : snap.candidates ≠ []) :
    ((select rank snap svc dom ctx).exclusions.map fun x => (x.1, some x.2.1, x.2.2)) =
      (snap.candidates.filter fun c => !(hardEligible c svc dom ctx).1).map fun c =>
        (c.facts.target, (hardEligible c svc dom ctx).2.failedReason,
          (hardEligible c svc dom ctx).2.failedDetail) := by
  rw [select_exclusions h]
  clear h
  induction snap.candidates with
  | nil => rfl
  | cons c cs ih =>
    cases hex : exclusion c svc dom ctx with
    | none =>
      have hfst : (hardEligible c svc dom ctx).1 = true := by rw [hardEligible_fst, hex]; rfl
      rw [List.filterMap_cons_none (by rw [hex]; rfl), List.filter_cons_of_neg (by simp [hfst]), ih]
    | some x =>
      have hfst : (hardEligible c svc dom ctx).1 = false := refused_iff.mpr ⟨x, hex⟩
      obtain ⟨hreason, hdetail⟩ := hardEligible_refused hex
      rw [List.filterMap_cons_some (by rw [hex]; rfl), List.filter_cons_of_pos (by simp [hfst]),
        List.map_cons, List.map_cons, ih, hreason, hdetail]

/-! ## The order of the snapshot -/

/-- Eligible candidates with one key are one candidate, if no two of the snapshot
have one target and one boot. -/
theorem eligible_apart
    (hdistinct : (snap.candidates.map fun c => (c.facts.target, c.facts.workerBoot)).Nodup) :
    ∀ a ∈ eligible snap svc dom ctx, ∀ b ∈ eligible snap svc dom ctx,
      precedes rank svc ctx a b = false → precedes rank svc ctx b a = false → a = b := by
  intro a ha b hb hab hba
  rw [precedes_eq_false_iff] at hab hba
  have hkey := facts_eq_of_rankKey (le_antisymm hba hab)
  obtain ⟨c, hc, -, rfl⟩ := mem_eligible.mp ha
  obtain ⟨d, hd, -, rfl⟩ := mem_eligible.mp hb
  rw [List.inj_on_of_nodup_map hdistinct hc hd hkey]

theorem eligible_perm {cs : List Candidate} (h : cs.Perm snap.candidates) :
    (eligible { snap with candidates := cs } svc dom ctx).Perm (eligible snap svc dom ctx) := by
  rw [eligible_eq, eligible_eq]
  exact (h.filter _).map _

theorem sorted_perm {cs : List Candidate}
    (hdistinct : (snap.candidates.map fun c => (c.facts.target, c.facts.workerBoot)).Nodup)
    (h : cs.Perm snap.candidates) :
    sorted rank svc ctx (eligible { snap with candidates := cs } svc dom ctx) =
      sorted rank svc ctx (eligible snap svc dom ctx) :=
  (List.insertionSort_eq_of_perm precedes_strictWeak (eligible_perm h).symm
    (eligible_apart hdistinct)).symm

/-- **Selection is a sort of the eligible candidates.**  For every snapshot and
every rank: the selected candidate followed by the alternatives is the list of the
hard-eligible candidates in the order of their keys; the exclusions are the other
candidates, each once with what `hard_eligible` gave as its reason, or the one
entry that says that there were no candidates; and if no two candidates have one
target and one boot, the order of the snapshot affects neither the selected
candidate nor the alternatives. -/
theorem select_exact (rank : Candidate → ServiceDefinition → UInt64) (snap : CandidateSnapshot)
    (svc : ServiceDefinition) (dom : DomainRegistry) (ctx : SelectionContext) :
    let result := select rank snap svc dom ctx
    let ranked := result.selected.toList ++ result.evaluatedAlternatives
    (ranked.Perm (eligible snap svc dom ctx) ∧
        ranked.Pairwise fun a b => rankKey rank svc ctx a ≤ rankKey rank svc ctx b) ∧
      ((∀ c ∈ snap.candidates, (hardEligible c svc dom ctx).1 = false →
          (hardEligible c svc dom ctx).2.failedReason.isSome = true) ∧
        (snap.candidates ≠ [] →
          (result.exclusions.map fun x => (x.1, some x.2.1, x.2.2)) =
            (snap.candidates.filter fun c => !(hardEligible c svc dom ctx).1).map fun c =>
              (c.facts.target, (hardEligible c svc dom ctx).2.failedReason,
                (hardEligible c svc dom ctx).2.failedDetail)) ∧
        (snap.candidates = [] →
          result.exclusions = [(.null, (.noEligibleTarget, text "no candidates"))])) ∧
      ((snap.candidates.map fun c => (c.facts.target, c.facts.workerBoot)).Nodup →
        ∀ cs, cs.Perm snap.candidates →
          let permuted := select rank { snap with candidates := cs } svc dom ctx
          permuted.selected = result.selected ∧
            permuted.evaluatedAlternatives = result.evaluatedAlternatives) := by
  intro result ranked
  have hranked : ranked = sorted rank svc ctx (eligible snap svc dom ctx) := ranked_eq
  refine ⟨⟨?_, ?_⟩, ⟨?_, fun h => select_refused h, fun h => select_empty h⟩, ?_⟩
  · rw [hranked]
    exact List.perm_insertionSort _ _
  · rw [hranked]
    refine (precedes_strictWeak.pairwise_insertionSort _).imp fun h => ?_
    exact precedes_eq_false_iff.mp h
  · intro c _ hc
    obtain ⟨x, hx⟩ := refused_iff.mp hc
    rw [(hardEligible_refused hx).1]
    rfl
  · intro hdistinct cs hperm permuted
    have hsorted := @sorted_perm rank svc dom ctx snap cs hdistinct hperm
    exact ⟨by rw [select_selected, select_selected, hsorted],
      by rw [select_alternatives, select_alternatives, hsorted]⟩

end FailoverFabric.SelectionEngine
