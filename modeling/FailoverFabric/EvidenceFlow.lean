import FailoverFabric.FailureExclusion

/-! # What failure evidence does to eligibility

`publish_failure` writes two records: the evidence store, and the set of targets
with a confirmed failure, which is the one that selection reads.  The set follows
neither the store's answer nor the event's domains, and facts that say a target is
ready take it out again, of whatever boot they are.

A confirmed failure stands as long as no ready facts of the failed boot are accepted
(`confirmed_failure_stands`).  Evidence that the store rejects is without effect exactly
if its mark is (`stale_evidence_iff`), and a failed domain is kept out exactly if its
members are refused on other grounds (`failed_domains_iff`).
-/
namespace FailoverFabric
open Fabric

namespace Fabric

/-- The facts stored for a target. -/
def factsOf (s : Fabric) (t : TargetId) : Option CandidateFacts := (s.targets.find t).bind (·.facts)

/-- The facts would be stored: their target is registered, and they are not of an
older readiness generation. -/
def acceptsFacts (s : Fabric) (f : CandidateFacts) : Bool :=
  (s.targets.find f.target).any fun t =>
    t.facts.all fun old => decide (old.readinessGeneration.value ≤ f.readinessGeneration.value)

/-- What an accepted publication does to the confirmed failures. -/
theorem publishCandidateFacts_confirmed (s : Fabric) (now : Time) (f : CandidateFacts) :
    (s.orSelf (s.publishCandidateFacts now f)).confirmedFailedTargets =
      if s.acceptsFacts f && f.ready then Function.update s.confirmedFailedTargets f.target false
      else s.confirmedFailedTargets := by
  unfold publishCandidateFacts acceptsFacts
  cases s.targets.find f.target with
  | none => rfl
  | some t =>
    simp only [Option.any_some]
    split
    · rename_i hacc
      simp only [hacc, Bool.true_and]
      rfl
    · rename_i hacc
      simp only [Bool.not_eq_true] at hacc
      simp only [hacc, Bool.false_and]
      rfl

/-- Facts and failures are all that the confirmed failures follow. -/
theorem apply_confirmed (env : Env) (s : Fabric) (o : Op)
    (hfacts : ∀ now f, o ≠ .publishCandidateFacts now f) (hfail : ∀ ev, o ≠ .publishFailure ev) :
    (s.apply env o).confirmedFailedTargets = s.confirmedFailedTargets := by
  cases hrep : reports o with
  | false => exact (apply_sameReports env s o hrep).confirmedFailedTargets
  | true =>
    cases o with
    | registerTarget id transport => rw [apply_registerTarget]
    | publishCandidateFacts now f => exact absurd rfl (hfacts now f)
    | publishCandidateState t st => rw [apply_publishCandidateState]
    | publishCandidateResources t rs => rw [apply_publishCandidateResources]
    | publishFailure ev => exact absurd rfl (hfail ev)
    | load blob =>
      rcases apply_load_cases env s blob with hl | ⟨snap, -, hl⟩
      · rw [hl]
      · rw [hl]
        rfl
    | _ => first | rfl | cases hrep

/-- The target that an event marks: the one it names, if it is confirmed or of
unknown status. -/
def marks (ev : FailureEvent) : Option TargetId :=
  if ev.status = .confirmed ∨ ev.status = .unknown then ev.target else none

theorem publishFailure_confirmed (s : Fabric) (ev : FailureEvent) :
    (s.publishFailure ev).confirmedFailedTargets =
      (marks ev).elim s.confirmedFailedTargets
        fun t => Function.update s.confirmedFailedTargets t true := by
  unfold publishFailure marks
  cases ev.target with
  | none => simp
  | some t =>
    simp only
    split <;> rfl

/-- A published failure takes no mark away. -/
theorem publishFailure_marks {s : Fabric} {ev : FailureEvent} {t : TargetId}
    (h : marks ev = some t ∨ s.confirmedFailedTargets t = true) :
    (s.publishFailure ev).confirmedFailedTargets t = true := by
  rw [publishFailure_confirmed]
  cases hm : marks ev with
  | none =>
    refine h.resolve_left fun heq => ?_
    rw [hm] at heq
    cases heq
  | some t' =>
    rw [Option.elim_some, Function.update_apply]
    split
    · rfl
    · rename_i hne
      refine h.resolve_left fun heq => hne ?_
      rw [hm] at heq
      exact (Option.some.inj heq).symm

end Fabric

/-! ## Failures that stand -/

/-- The targets with a confirmed failure and the boots they had when it was
published, as long as no facts of another boot have been accepted since. -/
abbrev Standing := List (TargetId × WorkerBootId)

def noteFailures (σ : SystemState) : Label → Standing → Standing
  | .op (.publishFailure ev), fs =>
    if ev.status = .confirmed then
      (ev.target.bind fun t => (σ.fabric.factsOf t).map fun f => (t, f.workerBoot)).toList ++ fs
    else fs
  | .op (.publishCandidateFacts _ f), fs =>
    if σ.fabric.acceptsFacts f then
      fs.filter fun q => q.1 != f.target || q.2 == f.workerBoot
    else fs
  | _, fs => fs

/-- What a run must keep to: no ready facts of a failed boot are accepted while its
failure stands, and the process is not restarted meanwhile. -/
def heedsFailures (p : SystemState × Standing) : Label → Bool
  | .op (.publishCandidateFacts _ f) =>
    !(p.1.fabric.acceptsFacts f && f.ready && p.2.contains (f.target, f.workerBoot))
  | .restart _ => p.2.isEmpty
  | _ => true

/-- The process is not restarted. -/
def staysUp : Label → Bool
  | .restart _ => false
  | _ => true

/-- What stands is marked. -/
def Marked (p : SystemState × Standing) : Prop :=
  ∀ t b, (t, b) ∈ p.2 → p.1.fabric.confirmedFailedTargets t = true

/-- Accepted facts that clear the mark of a target leave none of its failures
standing. -/
theorem Marked.facts {env : Env} {p : SystemState × Standing} {now : Time} {f : CandidateFacts}
    (h : Marked p) (hok : heedsFailures p (.op (.publishCandidateFacts now f)) = true) :
    Marked (p.1.step env (.op (.publishCandidateFacts now f)),
      noteFailures p.1 (.op (.publishCandidateFacts now f)) p.2) := by
  intro t b hmem
  show (p.1.fabric.orSelf (p.1.fabric.publishCandidateFacts now f)).confirmedFailedTargets t = true
  rw [publishCandidateFacts_confirmed]
  simp only [noteFailures] at hmem
  simp only [heedsFailures, Bool.not_eq_true', Bool.and_eq_false_iff] at hok
  split at hmem
  · rename_i hacc
    obtain ⟨hmem, hkept⟩ := List.mem_filter.mp hmem
    split
    · rename_i hready
      have hnot : (f.target, f.workerBoot) ∉ p.2 := by
        rw [Bool.and_eq_true] at hready
        rcases hok with (hacc' | hready') | hnot
        · rw [hacc] at hacc'
          cases hacc'
        · rw [hready.2] at hready'
          cases hready'
        · simpa using hnot
      rw [Function.update_apply, if_neg]
      · exact h t b hmem
      · rintro rfl
        simp only [bne_self_eq_false, Bool.false_or, beq_iff_eq] at hkept
        exact hnot (hkept ▸ hmem)
    · exact h t b hmem
  · rename_i hacc
    rw [if_neg fun hready => hacc (Bool.and_eq_true_iff.mp hready).1]
    exact h t b hmem

theorem Marked.failure {env : Env} {p : SystemState × Standing} {ev : FailureEvent}
    (h : Marked p) :
    Marked (p.1.step env (.op (.publishFailure ev)), noteFailures p.1 (.op (.publishFailure ev)) p.2) := by
  intro t b hmem
  show (p.1.fabric.publishFailure ev).confirmedFailedTargets t = true
  refine publishFailure_marks ?_
  simp only [noteFailures] at hmem
  split at hmem
  · rename_i hstatus
    rcases List.mem_append.mp hmem with hnew | hold
    · obtain ⟨t', htarget, hfacts⟩ := Option.bind_eq_some_iff.mp (Option.mem_toList.mp hnew)
      obtain ⟨f, -, hpair⟩ := Option.map_eq_some_iff.mp hfacts
      cases hpair
      exact Or.inl (by rw [marks, if_pos (Or.inl hstatus), htarget])
    · exact Or.inr (h t b hold)
  · exact Or.inr (h t b hmem)

theorem Marked.step {env : Env} {p : SystemState × Standing} {l : Label} (h : Marked p)
    (hok : heedsFailures p l = true) : Marked (p.1.step env l, noteFailures p.1 l p.2) := by
  cases l with
  | op o =>
    by_cases hfacts : ∃ now f, o = .publishCandidateFacts now f
    · obtain ⟨now, f, rfl⟩ := hfacts
      exact h.facts hok
    by_cases hfail : ∃ ev, o = .publishFailure ev
    · obtain ⟨ev, rfl⟩ := hfail
      exact h.failure
    · have hsame := apply_confirmed env p.1.fabric o (fun now f he => hfacts ⟨now, f, he⟩)
        fun ev he => hfail ⟨ev, he⟩
      have hnote : noteFailures p.1 (.op o) p.2 = p.2 := by
        cases o <;> first | rfl | exact absurd ⟨_, _, rfl⟩ hfacts | exact absurd ⟨_, rfl⟩ hfail
      intro t b hmem
      rw [hnote] at hmem
      show (p.1.fabric.apply env o).confirmedFailedTargets t = true
      rw [hsame]
      exact h t b hmem
  | beginPlan plan ops => exact h
  | beginFailback slot ops => exact h
  | advance i rd =>
    intro t b hmem
    show (p.1.step env (.advance i rd)).fabric.confirmedFailedTargets t = true
    rw [advance_confined env p.1 i rd]
    exact h t b hmem
  | restart cfg =>
    intro t b hmem
    have hempty : p.2 = [] := List.isEmpty_iff.mp hok
    have hmem' : (t, b) ∈ p.2 := hmem
    rw [hempty] at hmem'
    cases hmem'

/-- **A confirmed failure stands.**  In every run in which no ready facts of a failed
boot are accepted while its failure stands, and no restart falls into that time, a
target whose failure was confirmed while its facts carried boot `b` stays marked until
facts of another boot are accepted for it. -/
theorem confirmed_failure_stands (env : Env) {p : SystemState × Standing}
    (h : Transition.Reachable ((machine env).withHistory [] noteFailures)
      (fun p l => heedsFailures p l = true) p) (t : TargetId) (b : WorkerBootId)
    (hfailed : (t, b) ∈ p.2) : p.1.fabric.confirmedFailedTargets t = true := by
  refine h.invariant (P := Marked) ?_ (fun p l _ hp hok => hp.step hok) t b hfailed
  rintro p ⟨-, hstart⟩ t b hmem
  rw [hstart] at hmem
  cases hmem

namespace Reference

/-- The reference deployment with its standing failures, after the failure of target 2
is confirmed and some more operations. -/
def afterConfirmed (os : List Op) : SystemState × Standing :=
  ((machine env).withHistory [] noteFailures).run ({ fabric := {} }, [])
    ((setup ++ .publishFailure (failureOf 2) :: os).map .op)

end Reference

open Reference in
/-- Target 2 fails; facts of its boot that do not say it is ready come in, and it
stays marked. -/
theorem confirmed_failure_stands_reference :
    let p := afterConfirmed [.publishCandidateFacts 0 { facts 2 22 with ready := false }]
    (⟨2⟩, ⟨22⟩) ∈ p.2 ∧ p.1.fabric.confirmedFailedTargets ⟨2⟩ = true := by
  intro p
  have hreach : Transition.Reachable ((machine env).withHistory [] noteFailures)
      (fun p l => heedsFailures p l = true) p :=
    .run _ (.initial ⟨⟨{}, rfl⟩, rfl⟩) (by decide +kernel)
  have hstands : (⟨2⟩, ⟨22⟩) ∈ p.2 := by decide +kernel
  exact ⟨hstands, confirmed_failure_stands env hreach ⟨2⟩ ⟨22⟩ hstands⟩

open Reference in
/-- **A healthy observation erases a newer failure.**  Target 2 fails under boot 22;
facts of boot 22 that say it is ready are published again, and take the mark away. -/
theorem confirmed_failure_erased :
    ¬ ∀ p, Transition.Reachable ((machine env).withHistory [] noteFailures)
        (fun _ l => staysUp l = true) p →
      ∀ t b, (t, b) ∈ p.2 → p.1.fabric.confirmedFailedTargets t = true := by
  intro h
  let p := afterConfirmed [.publishCandidateFacts 0 (facts 2 22)]
  have hreach : Transition.Reachable ((machine env).withHistory [] noteFailures)
      (fun _ l => staysUp l = true) p :=
    Transition.Reachable.run (b := fun _ l => staysUp l) _ (.initial ⟨⟨{}, rfl⟩, rfl⟩)
      (by decide +kernel)
  have hmarked := h p hreach ⟨2⟩ ⟨22⟩ (by decide +kernel)
  exact absurd hmarked (by decide +kernel)

/-! ## Marks that change what is selected -/

namespace SelectionEngine
variable {c : Candidate} {svc : ServiceDefinition} {dom : DomainRegistry}
  {ctx ctx' : SelectionContext} {t : TargetId}

/-- The context `ctx'` is `ctx` with one more target marked, and its domains. -/
structure Adds (dom : DomainRegistry) (t : TargetId) (ctx ctx' : SelectionContext) : Prop where
  failedTarget : ctx'.failedTarget = ctx.failedTarget
  fencedBoots : ctx'.fencedBoots = ctx.fencedBoots
  fresh : ctx'.requiresFreshReadiness = ctx.requiresFreshReadiness
  marked : ∀ x, x ∈ ctx'.confirmedFailedTargets ↔ x ∈ ctx.confirmedFailedTargets ∨ x = t
  failedDomains : ctx'.failedDomains = uniq (ctx.failedDomains ++ dom.domainsOf t)

/-- The refusal of a marked target. -/
def markedRefusal : Exclusion := (.failedDomain, text "target has confirmed failure evidence")

theorem excludeIf_ne {b : Bool} {reason : ExclusionReason} {detail : String}
    (h : reason ≠ .failedDomain) : excludeIf b reason detail ≠ some markedRefusal := by
  cases b with
  | false =>
    intro heq
    cases heq
  | true => exact fun heq => h (congrArg Prod.fst (Option.some.inj heq))

theorem or_ne {α : Type} {x y : Option α} {z : α} (hx : x ≠ some z) (hy : y ≠ some z) :
    (x <|> y) ≠ some z := by
  cases x with
  | none => exact hy
  | some a => exact hx

theorem resourceRule_ne (req : ResourceRequirement) : resourceRule c req ≠ some markedRefusal := by
  unfold resourceRule resourceRefusal
  split
  · split_ifs <;> simp [markedRefusal]
  · simp [markedRefusal]

theorem independenceRule_ne : independenceRule c svc dom ctx ≠ some markedRefusal := by
  have hshares : text "candidate shares a failure domain with the failed target" ≠
      text "target has confirmed failure evidence" := by decide +kernel
  have hinside : text "candidate is inside a failed domain" ≠
      text "target has confirmed failure evidence" := by decide +kernel
  unfold independenceRule
  split
  · split
    · simp [markedRefusal]
    · simp [markedRefusal, hshares]
    · intro h
      obtain ⟨fd, -, hfd⟩ := List.exists_of_findSome?_eq_some h
      unfold failedDomainRule at hfd
      split at hfd
      · simp [markedRefusal, hinside] at hfd
      · simp [markedRefusal] at hfd
      · cases hfd
  · intro h
    cases h

/-- No rule but the one for marked targets refuses as that one does. -/
theorem later_ne : (fencedBootRule c ctx <|> freshReadinessRule c ctx <|> compatibilityRule c svc <|>
    continuityRule c svc <|> resourcesRule c svc <|> independenceRule c svc dom ctx) ≠
      some markedRefusal := by
  refine or_ne (excludeIf_ne (by simp)) (or_ne ?_ (or_ne ?_ (or_ne ?_ (or_ne ?_ ?_))))
  · exact or_ne (excludeIf_ne (by simp)) (excludeIf_ne (by simp))
  · exact or_ne (excludeIf_ne (by simp)) (or_ne (excludeIf_ne (by simp)) (excludeIf_ne (by simp)))
  · unfold continuityRule
    split
    · exact or_ne (excludeIf_ne (by simp))
        (or_ne (excludeIf_ne (by simp)) (excludeIf_ne (by simp)))
    · intro h
      cases h
  · intro h
    obtain ⟨req, -, hreq⟩ := List.exists_of_findSome?_eq_some h
    exact resourceRule_ne req hreq
  · exact independenceRule_ne

/-- A candidate on the newly marked target is refused as before only if it is the
failed target anyway. -/
theorem Adds.exclusion_self (h : Adds dom t ctx ctx') (hnew : t ∉ ctx.confirmedFailedTargets)
    (ht : c.facts.target = t) :
    exclusion c svc dom ctx' = exclusion c svc dom ctx ↔ t ≠ .null ∧ ctx.failedTarget = t := by
  have hrule : failedTargetRule c ctx' = failedTargetRule c ctx := by
    rw [failedTargetRule, failedTargetRule, h.failedTarget]
  have hafter : confirmedFailedRule c ctx' = some markedRefusal := by
    rw [confirmedFailedRule, excludeIf, if_pos]
    · rfl
    · simpa using (h.marked c.facts.target).mpr (Or.inr ht)
  have hbefore : confirmedFailedRule c ctx = none := by
    rw [confirmedFailedRule, excludeIf_eq_none]
    simpa [ht] using hnew
  rw [exclusion, exclusion, hrule, hafter, hbefore]
  cases hfailed : failedTargetRule c ctx with
  | some x =>
    rw [failedTargetRule, excludeIf] at hfailed
    split at hfailed
    · rename_i hcond
      rw [ht, Bool.and_eq_true, bne_iff_ne, beq_iff_eq] at hcond
      exact iff_of_true rfl ⟨hcond.1, hcond.2.symm⟩
    · cases hfailed
  | none =>
    rw [failedTargetRule, excludeIf_eq_none, ht] at hfailed
    refine iff_of_false (fun heq => ?_) (fun hcond => ?_)
    · exact later_ne heq.symm
    · simp [hcond.1, hcond.2] at hfailed

/-- Any other candidate is refused as before if it is refused before independence is
asked for, or if independence comes out as before. -/
theorem Adds.exclusion_other (h : Adds dom t ctx ctx') (ht : c.facts.target ≠ t) :
    exclusion c svc dom ctx' = exclusion c svc dom ctx ↔
      grounds c svc ctx ≠ none ∨ independenceRule c svc dom ctx' = independenceRule c svc dom ctx := by
  have hgrounds : grounds c svc ctx' = grounds c svc ctx := by
    have hmark : ctx'.confirmedFailedTargets.contains c.facts.target =
        ctx.confirmedFailedTargets.contains c.facts.target := by
      rw [Bool.eq_iff_iff, List.contains_iff_mem, List.contains_iff_mem, h.marked]
      simp [ht]
    simp only [grounds, failedTargetRule, confirmedFailedRule, fencedBootRule, freshReadinessRule,
      h.failedTarget, hmark, h.fencedBoots, h.fresh]
  rw [exclusion_eq_grounds, exclusion_eq_grounds, hgrounds]
  cases grounds c svc ctx with
  | none => simp
  | some x => simp

end SelectionEngine

namespace Fabric
variable {s : Fabric} {ev : FailureEvent} {slot : ServiceSlotKey} {t : TargetId}

/-- An event that marks no further target of the slot leaves the context alone, its
receipt count apart. -/
theorem buildContext_unmarked (h : ∀ x ∈ s.relevantTargets slot,
    (s.publishFailure ev).confirmedFailedTargets x = s.confirmedFailedTargets x) :
    (s.publishFailure ev).buildContext slot =
      { s.buildContext slot with nowReceiptSeq := (s.publishFailure ev).receiptSeq } := by
  have hfilter : (s.relevantTargets slot).filter (s.publishFailure ev).confirmedFailedTargets =
      (s.relevantTargets slot).filter s.confirmedFailedTargets := List.filter_congr h
  unfold buildContext
  simp only
  rw [show (s.publishFailure ev).relevantTargets slot = s.relevantTargets slot from rfl, hfilter]
  rfl

/-- An event that marks a target of the slot adds it, and its domains. -/
theorem buildContext_marked (hm : marks ev = some t) (hrel : t ∈ s.relevantTargets slot) :
    SelectionEngine.Adds s.domains t (s.buildContext slot)
      ((s.publishFailure ev).buildContext slot) := by
  have hmem : ∀ x, x ∈ (s.relevantTargets slot).filter (s.publishFailure ev).confirmedFailedTargets ↔
      x ∈ (s.relevantTargets slot).filter s.confirmedFailedTargets ∨ x = t := by
    intro x
    rw [publishFailure_confirmed, hm, Option.elim_some, List.mem_filter, List.mem_filter,
      Function.update_apply]
    by_cases hx : x = t
    · subst hx
      simp [hrel]
    · simp [hx]
  refine ⟨rfl, rfl, rfl, fun x => ?_, uniq_congr fun fd => ?_⟩
  · show x ∈ uniq _ ↔ x ∈ uniq _ ∨ _
    rw [mem_uniq, mem_uniq]
    exact hmem x
  · show fd ∈ List.flatMap _ _ ↔ fd ∈ uniq _ ++ _
    rw [List.mem_append, mem_uniq, List.mem_flatMap, List.mem_flatMap]
    constructor
    · rintro ⟨x, hx, hfd⟩
      rcases (hmem x).mp hx with hx | rfl
      · exact Or.inl ⟨x, hx, hfd⟩
      · exact Or.inr hfd
    · rintro (⟨x, hx, hfd⟩ | hfd)
      · exact ⟨x, (hmem x).mpr (Or.inl hx), hfd⟩
      · exact ⟨t, (hmem t).mpr (Or.inr rfl), hfd⟩

/-- Marking `t` leaves the candidate's standing in the slot as it is: it is the slot's
current target, which is refused as such; or it is on another target, and refused before
independence is asked for, or as independent with `t`'s domains failed as without. -/
def Unmoved (s : Fabric) (slot : ServiceSlotKey) (svc : ServiceDefinition) (t : TargetId)
    (c : Candidate) : Prop :=
  if c.facts.target = t then t ≠ .null ∧ s.failedTargetOf slot = t
  else
    SelectionEngine.grounds c svc (s.buildContext slot) ≠ none ∨
      SelectionEngine.independenceRule c svc s.domains
          { s.buildContext slot with
            failedDomains := uniq ((s.buildContext slot).failedDomains ++ s.domains.domainsOf t) } =
        SelectionEngine.independenceRule c svc s.domains (s.buildContext slot)

theorem exclusion_marked_iff {svc : ServiceDefinition} {c : Candidate} (hm : marks ev = some t)
    (hrel : t ∈ s.relevantTargets slot) (hnew : s.confirmedFailedTargets t = false) :
    SelectionEngine.exclusion c svc s.domains ((s.publishFailure ev).buildContext slot) =
        SelectionEngine.exclusion c svc s.domains (s.buildContext slot) ↔
      s.Unmoved slot svc t c := by
  have hadds := buildContext_marked hm hrel
  unfold Unmoved
  split
  · rename_i ht
    refine hadds.exclusion_self (fun hmem => ?_) ht
    rw [show (s.buildContext slot).confirmedFailedTargets =
      uniq ((s.relevantTargets slot).filter s.confirmedFailedTargets) from rfl, mem_uniq,
      List.mem_filter, hnew] at hmem
    cases hmem.2
  · rename_i ht
    have hindep : SelectionEngine.independenceRule c svc s.domains
        ((s.publishFailure ev).buildContext slot) =
        SelectionEngine.independenceRule c svc s.domains
          { s.buildContext slot with
            failedDomains := uniq ((s.buildContext slot).failedDomains ++ s.domains.domainsOf t) } := by
      rw [← hadds.failedDomains]
      rfl
    rw [hadds.exclusion_other ht, hindep]

/-- An event that marks no new target of the slot refuses no candidate on other
grounds. -/
theorem exclusion_unmarked {svc : ServiceDefinition} {c : Candidate}
    (hmark : ∀ t, marks ev = some t → t ∈ s.relevantTargets slot → s.confirmedFailedTargets t = true) :
    SelectionEngine.exclusion c svc s.domains ((s.publishFailure ev).buildContext slot) =
      SelectionEngine.exclusion c svc s.domains (s.buildContext slot) := by
  have hsame : ∀ x ∈ s.relevantTargets slot,
      (s.publishFailure ev).confirmedFailedTargets x = s.confirmedFailedTargets x := by
    intro x hx
    rw [publishFailure_confirmed]
    cases hm : marks ev with
    | none => rfl
    | some t =>
      rw [Option.elim_some, Function.update_apply]
      split
      · rename_i heq
        rw [hmark x (heq ▸ hm) hx]
      · rfl
  rw [buildContext_unmarked hsame]
  rfl

/-- A published failure leaves a selection as it is exactly if it leaves every candidate's
refusal as it is. -/
theorem select_publishFailure_iff {rank : Candidate → ServiceDefinition → UInt64}
    {svc : ServiceDefinition} {g : CandidateSnapshotGeneration}
    (hsvc : s.serviceForSlot slot = some svc) (hg : s.snapshotCounter.next = .ok g) :
    ((s.publishFailure ev).select rank slot).2 = (s.select rank slot).2 ↔
      ∀ c ∈ s.candidatesFor slot,
        SelectionEngine.exclusion c svc s.domains ((s.publishFailure ev).buildContext slot) =
          SelectionEngine.exclusion c svc s.domains (s.buildContext slot) := by
  have hafter : ((s.publishFailure ev).select rank slot).2 = _ := select_result hsvc hg
  rw [hafter, select_result hsvc hg, Except.ok.injEq]
  exact SelectionEngine.select_eq_iff rfl

end Fabric

/-- **Evidence leaves selection alone exactly when its mark does.**  In every state and
for every event, whether the store takes it or not, publishing it leaves the result of
`select` as it is for every slot, if and only if the event marks no target that is not
marked, or leaves every candidate of every slot the target matters for where it
stands. -/
theorem stale_evidence_iff (env : Env) (s : Fabric) (ev : FailureEvent) :
    (∀ slot, ((s.publishFailure ev).select env.rank slot).2 = (s.select env.rank slot).2) ↔
      ∀ t, marks ev = some t → s.confirmedFailedTargets t = false → ∀ slot svc g,
        s.serviceForSlot slot = some svc → s.snapshotCounter.next = .ok g →
          t ∈ s.relevantTargets slot → ∀ c ∈ s.candidatesFor slot, s.Unmoved slot svc t c := by
  constructor
  · intro h t hm hnew slot svc g hsvc hg hrel c hc
    exact (exclusion_marked_iff hm hrel hnew).mp ((select_publishFailure_iff hsvc hg).mp (h slot) c hc)
  · intro h slot
    cases hsvc : s.serviceForSlot slot with
    | none =>
      have hnone : (s.publishFailure ev).serviceForSlot slot = none := hsvc
      simp [select, hsvc, hnone]
    | some svc =>
      have hsome : (s.publishFailure ev).serviceForSlot slot = some svc := hsvc
      cases hg : s.snapshotCounter.next with
      | error e =>
        have herror : (s.publishFailure ev).snapshotCounter.next = .error e := hg
        simp [select, snapshotLocked, hsvc, hsome, hg, herror]
      | ok g =>
        refine (select_publishFailure_iff hsvc hg).mpr fun c hc => ?_
        by_cases hmark : ∃ t, marks ev = some t ∧ s.confirmedFailedTargets t = false ∧
            t ∈ s.relevantTargets slot
        · obtain ⟨t, hm, hnew, hrel⟩ := hmark
          exact (exclusion_marked_iff hm hrel hnew).mpr (h t hm hnew slot svc g hsvc hg hrel c hc)
        · refine exclusion_unmarked fun t hm hrel => ?_
          by_contra hne
          exact hmark ⟨t, hm, Bool.eq_false_iff.mpr hne, hrel⟩

namespace Reference

/-- A confirmed failure of target 2, as received with a sequence of its own. -/
def receivedFailure (seq : UInt64) : FailureEvent :=
  { failureOf 2 with received := { seq := seq } }

/-- The reference deployment with target 2 bound to the service, failed, and back with a
new boot. -/
def failedAndBack : SystemState :=
  (machine env).run { fabric := {} } (([.createService service,
    .setInitialAssignment 0 initialAssignment, .registerTarget ⟨2⟩ [],
    .publishCandidateFacts 0 { facts 2 22 with service := ⟨1⟩ },
    .publishFailure (receivedFailure 5),
    .publishCandidateFacts 0 { facts 2 23 with service := ⟨1⟩ }] : List Op).map .op)

end Reference

open Reference in
/-- **Stale evidence takes effect.**  Target 2 failed and came back; an older receipt of
the same event arrives late, the store rejects it, and target 2 is no longer selected. -/
theorem stale_evidence_effective :
    ¬ ∀ σ, Transition.Reachable (machine env) (fun _ _ => True) σ → ∀ ev,
      (σ.fabric.evidence.publish (σ.fabric.sequenced ev)).2 = false → ∀ slot,
        ((σ.fabric.publishFailure ev).select env.rank slot).2 =
          (σ.fabric.select env.rank slot).2 := by
  intro h
  let s := failedAndBack.fabric
  have hsame := h failedAndBack (.run_all _ (.initial ⟨{}, rfl⟩)) (receivedFailure 3)
    (by decide +kernel) slot
  have hbefore : selectedTarget s = some ⟨2⟩ := by decide +kernel
  have hafter : selectedTarget (s.publishFailure (receivedFailure 3)) = none := by decide +kernel
  have hequal : selectedTarget (s.publishFailure (receivedFailure 3)) = selectedTarget s := by
    unfold selectedTarget
    rw [hsame]
  rw [hbefore, hafter] at hequal
  cases hequal

/-! ## Failed domains -/

namespace SelectionEngine

/-- What an independent candidate is clear of. -/
theorem independenceRule_eq_none {c : Candidate} {svc : ServiceDefinition} {dom : DomainRegistry}
    {ctx : SelectionContext} (h : svc.domainRequirement.requireDomainIndependence = true) :
    independenceRule c svc dom ctx = none ↔
      dom.overlaps c.facts.target ctx.failedTarget = some false ∧
        ∀ fd ∈ ctx.failedDomains, dom.inDomain c.facts.target fd = some false := by
  rw [independenceRule, if_pos h]
  cases hover : dom.overlaps c.facts.target ctx.failedTarget with
  | none => simp
  | some shared =>
    cases shared with
    | true => simp
    | false =>
      simp only [List.findSome?_eq_none_iff, true_and]
      refine forall₂_congr fun fd _ => ?_
      unfold failedDomainRule
      cases hin : dom.inDomain c.facts.target fd with
      | none => simp
      | some inside => cases inside <;> simp

end SelectionEngine

/-- The store holds a confirmed failure of the domain that has not been cleared. -/
def Fabric.domainFailed (s : Fabric) (d : FailureDomainId) : Prop :=
  ∃ e ∈ s.evidence.events.items, e.cleared = false ∧ e.event.status = .confirmed ∧
    (e.event.domain = some d ∨ d ∈ e.event.affectedDomains)

/-- The candidate is refused on other grounds than the failure of a domain it is in:
before independence is asked for, for a domain it shares or may share with the slot's
current target, or for one of a marked target of the slot that it is or may be in. -/
def Fabric.RefusedAnyway (s : Fabric) (slot : ServiceSlotKey) (svc : ServiceDefinition)
    (c : Candidate) : Prop :=
  SelectionEngine.grounds c svc (s.buildContext slot) ≠ none ∨
    s.domains.overlaps c.facts.target (s.failedTargetOf slot) ≠ some false ∨
    ∃ t ∈ s.relevantTargets slot, s.confirmedFailedTargets t = true ∧
      ∃ fd ∈ s.domains.domainsOf t, s.domains.inDomain c.facts.target fd ≠ some false

theorem Fabric.exclusion_eq_none_iff {s : Fabric} {slot : ServiceSlotKey} {svc : ServiceDefinition}
    {c : Candidate} (h : svc.domainRequirement.requireDomainIndependence = true) :
    SelectionEngine.exclusion c svc s.domains (s.buildContext slot) = none ↔
      ¬ s.RefusedAnyway slot svc c := by
  have hdomains : (∀ fd ∈ (s.buildContext slot).failedDomains,
      s.domains.inDomain c.facts.target fd = some false) ↔
      ¬ ∃ t ∈ s.relevantTargets slot, s.confirmedFailedTargets t = true ∧
        ∃ fd ∈ s.domains.domainsOf t, s.domains.inDomain c.facts.target fd ≠ some false := by
    constructor
    · rintro hall ⟨t, ht, hfailed, fd, hfd, hne⟩
      refine hne (hall fd (mem_uniq.mpr (List.mem_flatMap.mpr ⟨t, ?_, hfd⟩)))
      exact List.mem_filter.mpr ⟨ht, hfailed⟩
    · intro hnone fd hfd
      obtain ⟨t, ht, hfd⟩ := List.mem_flatMap.mp (mem_uniq.mp hfd)
      obtain ⟨hrel, hfailed⟩ := List.mem_filter.mp ht
      by_contra hne
      exact hnone ⟨t, hrel, hfailed, fd, hfd, hne⟩
  rw [SelectionEngine.exclusion_eq_grounds, Option.or_eq_none_iff,
    SelectionEngine.independenceRule_eq_none h, hdomains, RefusedAnyway, not_or, not_or, not_not,
    not_not]
  rfl

/-- **Failed domains are excluded exactly where their members are refused anyway.**  In
every state, for every slot whose service requires independence, `select` returns no
candidate that is known to be in a domain with an uncleared confirmed failure, if and
only if every such candidate of the slot is refused on other grounds. -/
theorem failed_domains_iff (env : Env) {s : Fabric} {slot : ServiceSlotKey}
    {svc : ServiceDefinition} (hsvc : s.serviceForSlot slot = some svc)
    (hind : svc.domainRequirement.requireDomainIndependence = true) :
    (∀ d, s.domainFailed d → ∀ sr e, (s.select env.rank slot).2 = .ok sr →
        sr.selected = some e ∨ e ∈ sr.evaluatedAlternatives →
          d ∉ s.domains.domainsOf e.facts.target) ↔
      ∀ d g c, s.domainFailed d → s.snapshotCounter.next = .ok g → c ∈ s.candidatesFor slot →
        d ∈ s.domains.domainsOf c.facts.target → s.RefusedAnyway slot svc c := by
  constructor
  · intro h d g c hd hg hc hin
    by_contra hrefused
    have hex := (exclusion_eq_none_iff hind).mpr hrefused
    exact h d hd _ (SelectionEngine.marked c) (select_result hsvc hg)
      (SelectionEngine.select_spec.mpr ⟨c, hc, hex, rfl⟩) hin
  · intro h d hd sr e hsel he hin
    obtain ⟨g, hg, rfl⟩ := (select_eq_ok_of_service hsvc).mp hsel
    obtain ⟨c, hc, hex, rfl⟩ := SelectionEngine.select_spec.mp he
    exact (exclusion_eq_none_iff hind).mp hex (h d g c hd hg hc hin)

namespace Reference

/-- The service, with independence required. -/
def independentService : ServiceDefinition :=
  { service with domainRequirement := { requireDomainIndependence := true } }

/-- The deployment of that service with target 2 in domain 7, whose failure is confirmed
by an event that names no target, after some more operations. -/
def domainDown (os : List Op) : SystemState :=
  (machine env).run { fabric := {} } (([.createService independentService,
    .setInitialAssignment 0 initialAssignment, .registerTarget ⟨2⟩ [],
    .publishCandidateFacts 0 (facts 2 22), .declareDomain { id := ⟨7⟩ },
    .setMembership { target := ⟨2⟩, domain := ⟨7⟩ },
    .publishFailure { eventId := ⟨1⟩, status := .confirmed, domain := some ⟨7⟩ }] ++ os :
      List Op).map .op)

theorem domainDown_failed (os : List Op)
    (h : ((domainDown os).fabric.evidence.events.items.any fun e =>
      !e.cleared && e.event.status == .confirmed && e.event.domain == some ⟨7⟩) = true) :
    (domainDown os).fabric.domainFailed ⟨7⟩ := by
  obtain ⟨e, he, htest⟩ := List.any_eq_true.mp h
  simp only [Bool.and_eq_true, Bool.not_eq_true', beq_iff_eq] at htest
  exact ⟨e, he, htest.1.1, htest.1.2, Or.inl htest.2⟩

end Reference

open Reference in
/-- The current target is in the failed domain too: target 2 shares it, and is not
returned. -/
theorem failed_domains_reference :
    let s := (domainDown [.setMembership { target := ⟨1⟩, domain := ⟨7⟩ }]).fabric
    s.domainFailed ⟨7⟩ ∧ ∀ sr e, (s.select env.rank slot).2 = .ok sr →
      sr.selected = some e ∨ e ∈ sr.evaluatedAlternatives →
        ⟨7⟩ ∉ s.domains.domainsOf e.facts.target := by
  intro s
  have hfailed : s.domainFailed ⟨7⟩ := domainDown_failed _ (by decide +kernel)
  have hshared : ∀ c ∈ s.candidatesFor slot,
      s.domains.overlaps c.facts.target (s.failedTargetOf slot) ≠ some false := by decide +kernel
  have hsvc : s.serviceForSlot slot = some independentService := by decide +kernel
  exact ⟨hfailed, (failed_domains_iff env hsvc rfl).mpr
    (fun _ _ c _ _ hc _ => Or.inr (Or.inl (hshared c hc))) ⟨7⟩ hfailed⟩

open Reference in
/-- **A failed domain is not excluded.**  The failure of domain 7 is confirmed; target 2
is known to be in it, and is selected for a service that requires independence. -/
theorem failed_domain_selected :
    ¬ ∀ σ, Transition.Reachable (machine env) (fun _ _ => True) σ → ∀ slot svc d sr e,
      σ.fabric.serviceForSlot slot = some svc →
        svc.domainRequirement.requireDomainIndependence = true → σ.fabric.domainFailed d →
        (σ.fabric.select env.rank slot).2 = .ok sr → sr.selected = some e →
          d ∉ σ.fabric.domains.domainsOf e.facts.target := by
  intro h
  let σ := domainDown []
  obtain ⟨sr, e, hsr, he, ht⟩ :=
    select_of_test (s := σ.fabric) (t := fun e => e.facts.target == ⟨2⟩) (by decide +kernel)
  have hout := h σ (.run_all _ (.initial ⟨{}, rfl⟩)) slot independentService ⟨7⟩ sr e
    (by decide +kernel) rfl (domainDown_failed _ (by decide +kernel)) hsr he
  rw [eq_of_beq ht] at hout
  exact hout (by decide +kernel)

end FailoverFabric
