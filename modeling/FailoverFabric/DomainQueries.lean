import FailoverFabric.Selection
import FailoverFabric.Library.ParentChain

/-! # What the domain queries answer

`overlaps` compares what the known memberships of two targets reach through
declared parents, 64 domains at most.  On complete chains that short it is exact
(`overlaps_exact`).  A membership in a domain that is not declared reaches nothing,
so two targets that share such a domain count as independent unless something else
ties them (`overlaps_not_false_iff`).

`in_domain` looks for a membership in the domain itself and does not climb at all:
what is only under a failed domain is found outside it (`inDomain_not_false_iff`).
-/
namespace FailoverFabric
open ParentChain

namespace DomainRegistry
variable {r : DomainRegistry} {a b t : TargetId} {d x : FailureDomainId}

/-- How a domain is declared: not at all, as a root, or under a parent. -/
def parentOf (r : DomainRegistry) (id : FailureDomainId) : Option (Option FailureDomainId) :=
  (r.find id).map (·.parent)

/-- The target has a membership that is marked unknown. -/
def UnknownMember (r : DomainRegistry) (t : TargetId) : Prop :=
  ∃ m ∈ r.memberships, m.target = t ∧ m.known = false

/-- Known memberships of the two targets lead, through at most 64 declared domains
each, to one domain. -/
def SharesRisk (r : DomainRegistry) (a b : TargetId) : Prop :=
  ∃ d ∈ r.domainsOf a, ∃ e ∈ r.domainsOf b, ∃ x,
    Within r.parentOf 64 d x ∧ Within r.parentOf 64 e x

theorem find_id {e : DomainDecl} (h : r.find d = some e) : e.id = d := by
  simpa using List.find?_some h

theorem ancestorsFrom_eq_walk (n : Nat) (cur : Option FailureDomainId) :
    r.ancestorsFrom n cur = walk r.parentOf n cur := by
  induction n generalizing cur with
  | zero => rfl
  | succ n ih =>
    cases cur with
    | none => rfl
    | some cur =>
      unfold ancestorsFrom walk parentOf
      cases hfind : r.find cur with
      | none => rfl
      | some e =>
        show e.id :: r.ancestorsFrom n e.parent = cur :: walk r.parentOf n e.parent
        rw [find_id hfind, ih]

theorem mem_ancestorsOf : x ∈ r.ancestorsOf d ↔ Within r.parentOf 64 d x := by
  rw [ancestorsOf, ancestorsFrom_eq_walk, mem_walk]

theorem mem_domainsOf :
    d ∈ r.domainsOf t ↔ ∃ m ∈ r.memberships, m.target = t ∧ m.known = true ∧ m.domain = d := by
  simp [domainsOf, and_assoc]

theorem mem_closure {ms : List DomainMembership} :
    x ∈ r.closure ms ↔ ∃ m ∈ ms, m.known = true ∧ Within r.parentOf 64 m.domain x := by
  simp [closure, mem_ancestorsOf, and_assoc]

theorem SharesRisk.symm (h : r.SharesRisk a b) : r.SharesRisk b a := by
  obtain ⟨d, hd, e, he, x, hdx, hex⟩ := h
  exact ⟨e, he, d, hd, x, hex, hdx⟩

/-! ## Overlap -/

/-- The closures that `overlaps` builds meet exactly if the targets share risk. -/
theorem closures_meet (hab : a ≠ b) :
    ((r.closure (r.memberships.filter fun m => m.target == a)).any fun d =>
        (r.closure (r.memberships.filter fun m => m.target != a && m.target == b)).contains d) =
      true ↔ r.SharesRisk a b := by
  simp only [List.any_eq_true, List.contains_iff_mem, mem_closure, List.mem_filter, SharesRisk,
    mem_domainsOf, Bool.and_eq_true, bne_iff_ne, beq_iff_eq]
  constructor
  · rintro ⟨x, ⟨m, ⟨hm, ht⟩, hk, hx⟩, m', ⟨hm', -, ht'⟩, hk', hx'⟩
    exact ⟨m.domain, ⟨m, hm, ht, hk, rfl⟩, m'.domain, ⟨m', hm', ht', hk', rfl⟩, x, hx, hx'⟩
  · rintro ⟨-, ⟨m, hm, ht, hk, rfl⟩, -, ⟨m', hm', ht', hk', rfl⟩, x, hx, hx'⟩
    exact ⟨x, ⟨m, ⟨hm, ht⟩, hk, hx⟩, m', ⟨hm', fun h => hab (h.symm.trans ht'), ht'⟩, hk', hx'⟩

theorem any_unknown (hab : a ≠ b) :
    (((r.memberships.filter fun m => m.target == a).any fun m => !m.known) ||
        (r.memberships.filter fun m => m.target != a && m.target == b).any fun m => !m.known) =
      true ↔ r.UnknownMember a ∨ r.UnknownMember b := by
  simp only [Bool.or_eq_true, List.any_eq_true, List.mem_filter, UnknownMember, Bool.and_eq_true,
    bne_iff_ne, beq_iff_eq, Bool.not_eq_true']
  refine or_congr ?_ ?_
  · exact exists_congr fun m => and_assoc
  · refine exists_congr fun m => ⟨fun h => ⟨h.1.1, h.1.2.2, h.2⟩, fun h => ?_⟩
    exact ⟨⟨h.1, fun heq => hab (heq.symm.trans h.2.1), h.2.1⟩, h.2.2⟩

/-- **What `overlaps` answers for two targets.** -/
theorem overlaps_cases (r : DomainRegistry) (hab : a ≠ b) :
    r.SharesRisk a b ∧ r.overlaps a b = some true ∨
      ¬ r.SharesRisk a b ∧ (r.UnknownMember a ∨ r.UnknownMember b) ∧ r.overlaps a b = none ∨
      ¬ r.SharesRisk a b ∧ ¬ (r.UnknownMember a ∨ r.UnknownMember b) ∧
        r.overlaps a b = some false := by
  rw [← closures_meet hab, ← any_unknown hab, overlaps]
  split_ifs with hmeet hunknown
  · exact Or.inl ⟨hmeet, rfl⟩
  · exact Or.inr (Or.inl ⟨hmeet, hunknown, rfl⟩)
  · exact Or.inr (Or.inr ⟨hmeet, hunknown, rfl⟩)

theorem overlaps_eq_true_iff (hab : a ≠ b) : r.overlaps a b = some true ↔ r.SharesRisk a b := by
  rcases r.overlaps_cases hab with ⟨hs, h⟩ | ⟨hs, -, h⟩ | ⟨hs, -, h⟩ <;> simp [hs, h]

theorem overlaps_eq_none_iff (hab : a ≠ b) :
    r.overlaps a b = none ↔
      ¬ r.SharesRisk a b ∧ (r.UnknownMember a ∨ r.UnknownMember b) := by
  rcases r.overlaps_cases hab with ⟨hs, h⟩ | ⟨hs, hu, h⟩ | ⟨hs, hu, h⟩
  · simp [hs, h]
  · simp [hs, hu, h]
  · simp [hs, hu, h]

theorem overlaps_eq_false_iff (hab : a ≠ b) :
    r.overlaps a b = some false ↔
      ¬ r.SharesRisk a b ∧ ¬ (r.UnknownMember a ∨ r.UnknownMember b) := by
  rcases r.overlaps_cases hab with ⟨hs, h⟩ | ⟨hs, hu, h⟩ | ⟨hs, hu, h⟩
  · simp [hs, h]
  · simp [hs, hu, h]
  · simp [hs, hu, h]

theorem overlaps_comm (r : DomainRegistry) (hab : a ≠ b) : r.overlaps a b = r.overlaps b a := by
  rcases r.overlaps_cases hab with ⟨hs, h⟩ | ⟨hs, hu, h⟩ | ⟨hs, hu, h⟩
  · rw [h, (overlaps_eq_true_iff hab.symm).mpr hs.symm]
  · rw [h, (overlaps_eq_none_iff hab.symm).mpr ⟨fun hr => hs hr.symm, hu.symm⟩]
  · rw [h, (overlaps_eq_false_iff hab.symm).mpr ⟨fun hr => hs hr.symm, fun hr => hu hr.symm⟩]

/-- **The overlap query is exact on complete chains.**  If the parent chain of
every known membership domain of two targets passes through declared domains only,
ends in a root, and has at most 64 domains, then `overlaps` is true exactly if some
known membership domains of the two have a common ancestor, themselves included;
otherwise it is unknown exactly if one of them has a membership marked unknown, and
false if not; and it does not matter which target is named first. -/
theorem overlaps_exact (r : DomainRegistry) (hab : a ≠ b)
    (hchains : ∀ d, d ∈ r.domainsOf a ∨ d ∈ r.domainsOf b →
      ∃ chain, Chain r.parentOf d chain ∧ chain.length ≤ 64) :
    let shared := ∃ d ∈ r.domainsOf a, ∃ e ∈ r.domainsOf b, ∃ x,
      AtOrAbove r.parentOf d x ∧ AtOrAbove r.parentOf e x
    (r.overlaps a b = some true ↔ shared) ∧
      (¬ shared → (r.overlaps a b = none ↔ r.UnknownMember a ∨ r.UnknownMember b)) ∧
      (¬ shared → ¬ (r.UnknownMember a ∨ r.UnknownMember b) → r.overlaps a b = some false) ∧
      r.overlaps a b = r.overlaps b a := by
  intro shared
  have hshared : r.SharesRisk a b ↔ shared := by
    refine exists_congr fun d => and_congr_right fun hd => ?_
    refine exists_congr fun e => and_congr_right fun he => exists_congr fun x => ?_
    obtain ⟨chain, hchain, hlen⟩ := hchains d (Or.inl hd)
    obtain ⟨chain', hchain', hlen'⟩ := hchains e (Or.inr he)
    rw [hchain.within_iff hlen, hchain'.within_iff hlen']
  rw [← hshared]
  refine ⟨overlaps_eq_true_iff hab, fun hs => ?_, fun hs hu => ?_, r.overlaps_comm hab⟩
  · rw [overlaps_eq_none_iff hab]
    exact and_iff_right hs
  · exact (overlaps_eq_false_iff hab).mpr ⟨hs, hu⟩

end DomainRegistry

namespace Reference

/-- Two sites under one region. -/
def region : List DomainDecl := [{ id := ⟨1⟩ }, { id := ⟨2⟩, parent := some ⟨1⟩ },
  { id := ⟨3⟩, parent := some ⟨1⟩ }]

/-- A registry of some declarations and memberships. -/
def registry (ds : List DomainDecl) (ms : List DomainMembership) : DomainRegistry :=
  ms.foldl DomainRegistry.setMembership (ds.foldl DomainRegistry.declare {})

/-- Targets 1 and 2 on different sites of the region. -/
def sites : DomainRegistry := registry region [⟨⟨1⟩, ⟨2⟩, true⟩, ⟨⟨2⟩, ⟨3⟩, true⟩]

end Reference

open Reference in
/-- The two sites have the region in common. -/
theorem overlaps_exact_sites : sites.overlaps ⟨1⟩ ⟨2⟩ = some true := by
  have h1 : sites.domainsOf ⟨1⟩ = [⟨2⟩] := by decide
  have h2 : sites.domainsOf ⟨2⟩ = [⟨3⟩] := by decide
  have hroot : sites.parentOf ⟨1⟩ = some none := by decide
  have h21 : Parent sites.parentOf ⟨2⟩ ⟨1⟩ := show sites.parentOf ⟨2⟩ = some (some ⟨1⟩) by decide
  have h31 : Parent sites.parentOf ⟨3⟩ ⟨1⟩ := show sites.parentOf ⟨3⟩ = some (some ⟨1⟩) by decide
  have hchains : ∀ d, d ∈ sites.domainsOf ⟨1⟩ ∨ d ∈ sites.domainsOf ⟨2⟩ →
      ∃ chain, Chain sites.parentOf d chain ∧ chain.length ≤ 64 := by
    rw [h1, h2]
    rintro d (hd | hd)
    · rw [List.mem_singleton.mp hd]
      exact ⟨[⟨2⟩, ⟨1⟩], .child h21 (.root hroot), by decide⟩
    · rw [List.mem_singleton.mp hd]
      exact ⟨[⟨3⟩, ⟨1⟩], .child h31 (.root hroot), by decide⟩
  refine (sites.overlaps_exact (a := ⟨1⟩) (b := ⟨2⟩) (by decide) hchains).1.mpr ?_
  exact ⟨⟨2⟩, by rw [h1]; simp, ⟨3⟩, by rw [h2]; simp, ⟨1⟩, .single h21, .single h31⟩

/-! ## Independence -/

namespace SelectionEngine
variable {c : Candidate} {svc : ServiceDefinition} {dom : DomainRegistry} {ctx : SelectionContext}

theorem refused_of_independenceRule (h : independenceRule c svc dom ctx ≠ none) :
    (hardEligible c svc dom ctx).1 = false := by
  rw [hardEligible_fst, Option.isNone_eq_false_iff, Option.isSome_iff_ne_none]
  intro hnone
  obtain ⟨-, -, -, -, -, -, -, hrule⟩ := exclusion_eq_none.mp hnone
  exact h hrule

/-- Independence that is not established refuses a candidate. -/
theorem refused_of_overlaps (hreq : svc.domainRequirement.requireDomainIndependence = true)
    (h : dom.overlaps c.facts.target ctx.failedTarget ≠ some false) :
    (hardEligible c svc dom ctx).1 = false := by
  refine refused_of_independenceRule ?_
  rw [independenceRule, if_pos hreq]
  split
  · simp
  · simp
  · rename_i hfalse
    exact absurd hfalse h

/-- A failed domain that the candidate is not known to be outside refuses it. -/
theorem refused_of_failedDomain {fd : FailureDomainId}
    (hreq : svc.domainRequirement.requireDomainIndependence = true) (hfd : fd ∈ ctx.failedDomains)
    (h : dom.inDomain c.facts.target fd ≠ some false) :
    (hardEligible c svc dom ctx).1 = false := by
  refine refused_of_independenceRule ?_
  rw [independenceRule, if_pos hreq]
  split
  · simp
  · simp
  · rw [ne_eq, List.findSome?_eq_none_iff]
    intro hall
    have hrule := hall fd hfd
    rw [failedDomainRule] at hrule
    split at hrule
    · cases hrule
    · cases hrule
    · rename_i hfalse
      exact h hfalse

end SelectionEngine

open SelectionEngine in
/-- **When a shared domain counts.**  For two targets that are both known members
of one domain, `overlaps` does not say that they are independent, and eligibility
that asks for independence does not accept the one when the other has failed,
exactly if the domain is declared, or one of them has a membership marked unknown,
or some known memberships of the two lead to one declared domain. -/
theorem DomainRegistry.overlaps_not_false_iff (r : DomainRegistry) {a b : TargetId}
    {d : FailureDomainId} (hab : a ≠ b) (ha : d ∈ r.domainsOf a) (hb : d ∈ r.domainsOf b) :
    (r.overlaps a b ≠ some false ∧
        ∀ c svc ctx, c.facts.target = a → ctx.failedTarget = b →
          svc.domainRequirement.requireDomainIndependence = true →
            (hardEligible c svc r ctx).1 = false) ↔
      (r.find d).isSome = true ∨ r.UnknownMember a ∨ r.UnknownMember b ∨ r.SharesRisk a b := by
  constructor
  · rintro ⟨hne, -⟩
    by_contra hcond
    simp only [not_or] at hcond
    obtain ⟨-, hua, hub, hs⟩ := hcond
    exact hne ((overlaps_eq_false_iff hab).mpr ⟨hs, not_or.mpr ⟨hua, hub⟩⟩)
  · intro hcond
    have hne : r.overlaps a b ≠ some false := by
      rw [ne_eq, overlaps_eq_false_iff hab]
      rintro ⟨hs, hu⟩
      rcases hcond with hdecl | hua | hub | hshared
      · -- the shared domain is itself common to the two
        have hself : Within r.parentOf 64 d d := .self (by simpa [parentOf] using hdecl)
        exact hs ⟨d, ha, d, hb, d, hself, hself⟩
      · exact hu (Or.inl hua)
      · exact hu (Or.inr hub)
      · exact hs hshared
    refine ⟨hne, ?_⟩
    rintro c svc ctx rfl rfl hreq
    exact refused_of_overlaps hreq hne

namespace Reference

/-- A service that asks for domain independence. -/
def independent : ServiceDefinition :=
  { domainRequirement := { requireDomainIndependence := true } }

/-- A candidate that is ready and fresh. -/
def fresh (target : UInt64) : Candidate :=
  { facts := { target := ⟨target⟩, ready := true, evidenceFresh := true } }

/-- Targets 1 and 2 in domain 7. -/
def together : List DomainMembership := [⟨⟨1⟩, ⟨7⟩, true⟩, ⟨⟨2⟩, ⟨7⟩, true⟩]

end Reference

open Reference SelectionEngine in
/-- A shared domain that is declared counts. -/
theorem overlaps_not_false_declared :
    let r := registry [{ id := ⟨7⟩ }] together
    r.overlaps ⟨1⟩ ⟨2⟩ ≠ some false ∧
      (hardEligible (fresh 1) independent r { failedTarget := ⟨2⟩ }).1 = false := by
  intro r
  obtain ⟨hne, hrefused⟩ := (r.overlaps_not_false_iff (a := ⟨1⟩) (b := ⟨2⟩) (d := ⟨7⟩) (by decide)
    (by decide) (by decide)).mpr (Or.inl (by decide))
  exact ⟨hne, hrefused _ _ _ rfl rfl rfl⟩

open Reference SelectionEngine in
/-- **A shared domain that nobody declared counts as independence.**  Both targets
are known members of domain 7; `overlaps` is false, and the one is accepted in
place of the other. -/
theorem undeclared_domain_independent :
    let r := registry [] together
    (⟨7⟩ ∈ r.domainsOf ⟨1⟩ ∧ ⟨7⟩ ∈ r.domainsOf ⟨2⟩) ∧ r.overlaps ⟨1⟩ ⟨2⟩ = some false ∧
      (hardEligible (fresh 1) independent r { failedTarget := ⟨2⟩ }).1 = true := by
  decide

/-! ## Membership -/

/-- What `in_domain` answers: only memberships in the domain itself count. -/
theorem DomainRegistry.inDomain_eq_false_iff {r : DomainRegistry} {t : TargetId}
    {d : FailureDomainId} :
    r.inDomain t d = some false ↔ ¬ ∃ m ∈ r.memberships, m.target = t ∧ m.domain = d := by
  simp only [inDomain]
  constructor
  · intro h
    rintro ⟨m, hm, ht, hd⟩
    have hmem : m ∈ r.memberships.filter fun m => m.target == t && m.domain == d :=
      List.mem_filter.mpr ⟨hm, by simp [ht, hd]⟩
    split at h
    · cases h
    · rename_i hunknown
      -- the membership is neither known nor unknown
      cases hk : m.known with
      | true =>
        have hany := List.any_eq_true.mpr ⟨m, hmem, hk⟩
        rw [hany] at h
        cases h
      | false => exact hunknown (List.any_eq_true.mpr ⟨m, hmem, by rw [hk]; rfl⟩)
  · intro h
    have hnil : (r.memberships.filter fun m => m.target == t && m.domain == d) = [] := by
      rw [List.filter_eq_nil_iff]
      intro m hm hmatch
      simp only [Bool.and_eq_true, beq_iff_eq] at hmatch
      exact h ⟨m, hm, hmatch⟩
    rw [hnil]
    rfl

/-- The target is a known member of `d`, or of a domain whose parents, through
declared domains, lead to `d`. -/
def DomainRegistry.SitsUnder (r : DomainRegistry) (t : TargetId) (d : FailureDomainId) : Prop :=
  ∃ e ∈ r.domainsOf t, AtOrAbove r.parentOf e d

open SelectionEngine in
/-- **When a nested membership counts.**  That a target sits under a domain keeps
`in_domain` from saying that it is outside, and has it refused by eligibility that
asks for independence when the domain has failed, exactly if a target under the
domain also has a membership, known or unknown, in the domain itself. -/
theorem DomainRegistry.inDomain_not_false_iff (r : DomainRegistry) (t : TargetId)
    (d : FailureDomainId) :
    (r.SitsUnder t d → r.inDomain t d ≠ some false ∧
        ∀ c svc ctx, c.facts.target = t → d ∈ ctx.failedDomains →
          svc.domainRequirement.requireDomainIndependence = true →
            (hardEligible c svc r ctx).1 = false) ↔
      (r.SitsUnder t d → ∃ m ∈ r.memberships, m.target = t ∧ m.domain = d) := by
  constructor
  · intro hclaim hunder
    by_contra hnone
    exact (hclaim hunder).1 (inDomain_eq_false_iff.mpr hnone)
  · intro hdirect hunder
    have hne : r.inDomain t d ≠ some false := by
      rw [ne_eq, inDomain_eq_false_iff]
      exact fun hnone => hnone (hdirect hunder)
    refine ⟨hne, ?_⟩
    rintro c svc ctx rfl hfd hreq
    exact refused_of_failedDomain hreq hfd hne

open Reference SelectionEngine in
/-- **A nested membership does not count.**  Target 1 is on a site of the region;
`in_domain` says it is outside the region, and it is accepted when the region has
failed. -/
theorem nested_membership_ignored :
    sites.SitsUnder ⟨1⟩ ⟨1⟩ ∧ sites.inDomain ⟨1⟩ ⟨1⟩ = some false ∧
      (hardEligible (fresh 1) independent sites
        { failedTarget := ⟨4⟩, failedDomains := [⟨1⟩] }).1 = true := by
  refine ⟨⟨⟨2⟩, by decide, .single ?_⟩, by decide, by decide⟩
  show sites.parentOf ⟨2⟩ = some (some ⟨1⟩)
  decide

end FailoverFabric
