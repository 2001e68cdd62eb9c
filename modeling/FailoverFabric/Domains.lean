import FailoverFabric.Types
import FailoverFabric.Library.Upsert

/-! # Failure domains and shared risk

`domains.hpp` and `domains.cpp`: declared domains, target memberships, and the
overlap queries that eligibility asks.
-/
namespace FailoverFabric

structure DomainDecl where
  id : FailureDomainId := .null
  generation : FailureDomainGeneration := {}
  cls : DomainClass := .unknown
  name : Text := []
  parent : Option FailureDomainId := none
  provenance : Provenance := .reported
  deriving DecidableEq

/-- A target's declared membership; `known = false` means it is unknown. -/
structure DomainMembership where
  target : TargetId := .null
  domain : FailureDomainId := .null
  known : Bool := true
  deriving DecidableEq

structure DomainRegistry where
  domains : List DomainDecl := []
  memberships : List DomainMembership := []

namespace DomainRegistry

/-- Declare a domain: a declaration of a known id replaces it unless it is of an
older generation; null ids are ignored. -/
def declare (r : DomainRegistry) (d : DomainDecl) : DomainRegistry :=
  if d.id.isNull then r
  else
    { r with
      domains := List.upsert (fun e => e.id == d.id) d
        (fun e => if e.generation.value ≤ d.generation.value then d else e) r.domains }

def setMembership (r : DomainRegistry) (m : DomainMembership) : DomainRegistry :=
  { r with
    memberships := List.upsert (fun e => e.target == m.target && e.domain == m.domain) m (fun _ => m)
      r.memberships }

def markMembershipUnknown (r : DomainRegistry) (t : TargetId) (d : FailureDomainId) :
    DomainRegistry :=
  r.setMembership ⟨t, d, false⟩

def find (r : DomainRegistry) (id : FailureDomainId) : Option DomainDecl :=
  r.domains.find? fun d => d.id == id

def domainsOf (r : DomainRegistry) (t : TargetId) : List FailureDomainId :=
  (r.memberships.filter fun m => m.target == t && m.known).map (·.domain)

/-- The parent chain from `cur` on, at most `guard` domains long. -/
def ancestorsFrom (r : DomainRegistry) : Nat → Option FailureDomainId → List FailureDomainId
  | 0, _ => []
  | _, none => []
  | guard + 1, some cur =>
    match r.find cur with
    | none => []
    | some d => d.id :: ancestorsFrom r guard d.parent

/-- The declared domains on the parent chain of `id`, `id` included. -/
def ancestorsOf (r : DomainRegistry) (id : FailureDomainId) : List FailureDomainId :=
  r.ancestorsFrom 64 (some id)

/-- The domains, with their ancestors, that a target's known memberships reach. -/
def closure (r : DomainRegistry) (ms : List DomainMembership) : List FailureDomainId :=
  (ms.filter (·.known)).flatMap fun m => r.ancestorsOf m.domain

/-- Whether two targets share a declared domain; `none` when that cannot be
established.  A membership of `a` is never also counted for `b`. -/
def overlaps (r : DomainRegistry) (a b : TargetId) : Option Bool :=
  let ofA := r.memberships.filter fun m => m.target == a
  let ofB := r.memberships.filter fun m => m.target != a && m.target == b
  let closureA := r.closure ofA
  let closureB := r.closure ofB
  if closureA.any fun d => closureB.contains d then some true
  else if (ofA.any fun m => !m.known) || (ofB.any fun m => !m.known) then none
  else some false

/-- Whether `t` declares a membership in `d`; `none` when one is marked unknown. -/
def inDomain (r : DomainRegistry) (t : TargetId) (d : FailureDomainId) : Option Bool :=
  let ms := r.memberships.filter fun m => m.target == t && m.domain == d
  if ms.any fun m => !m.known then none else some (ms.any (·.known))

/-! ## The registry's invariant

`declare` and `set_membership` keep ids non-null and unique, and the declared
lists are rebuilt unchanged when they are replayed into an empty registry. -/

/-- Domain ids are non-null and distinct; memberships have distinct keys. -/
structure WellFormed (r : DomainRegistry) : Prop where
  domain_id : ∀ d ∈ r.domains, d.id.isNull = false
  domain_unique : (r.domains.map (·.id)).Nodup
  membership_unique : (r.memberships.map fun m => (m.target, m.domain)).Nodup

theorem wellFormed_empty : WellFormed {} := by
  constructor <;> simp

theorem WellFormed.declare {r : DomainRegistry} (h : r.WellFormed) (d : DomainDecl) :
    (r.declare d).WellFormed := by
  unfold DomainRegistry.declare
  split
  · exact h
  · rename_i hd
    refine ⟨?_, ?_, h.membership_unique⟩
    · intro e he
      rcases List.mem_upsert he with rfl | he | ⟨z, hz, _, rfl⟩
      · simpa using hd
      · exact h.domain_id e he
      · split
        · simpa using hd
        · exact h.domain_id z hz
    · refine List.upsert_keys_nodup (fun y => by simp) (fun y hy => ?_) h.domain_unique
      split
      · exact (eq_of_beq hy).symm
      · rfl

theorem WellFormed.setMembership {r : DomainRegistry} (h : r.WellFormed) (m : DomainMembership) :
    (r.setMembership m).WellFormed :=
  ⟨h.domain_id, h.domain_unique,
    List.upsert_keys_nodup (fun y => by simp) (fun y hy => by simp at hy; simp [hy])
      h.membership_unique⟩

/-- Replaying distinct, non-null declarations into a registry that has none of
them appends them in order. -/
theorem foldl_declare (ds : List DomainDecl) (r : DomainRegistry)
    (hid : ∀ d ∈ ds, d.id.isNull = false) (hn : ((r.domains ++ ds).map (·.id)).Nodup) :
    ds.foldl DomainRegistry.declare r = { r with domains := r.domains ++ ds } := by
  induction ds generalizing r with
  | nil => simp
  | cons d ds ih =>
    have hfresh : ∀ e ∈ r.domains, (e.id == d.id) = false := by
      intro e he
      rw [List.map_append, List.map_cons] at hn
      have hdisj := (List.nodup_append.mp hn).2.2
      exact beq_eq_false_iff_ne.mpr
        (hdisj _ (List.mem_map_of_mem he) _ (List.mem_cons_self ..))
    have hd : r.declare d = { r with domains := r.domains ++ [d] } := by
      unfold DomainRegistry.declare
      rw [hid d (List.mem_cons_self ..)]
      simp [List.upsert_of_forall hfresh]
    rw [List.foldl_cons, hd, ih _ (fun e he => hid e (List.mem_cons_of_mem _ he)) (by simpa using hn)]
    simp

theorem foldl_setMembership (ms : List DomainMembership) (r : DomainRegistry)
    (hn : ((r.memberships ++ ms).map fun m => (m.target, m.domain)).Nodup) :
    ms.foldl DomainRegistry.setMembership r = { r with memberships := r.memberships ++ ms } := by
  induction ms generalizing r with
  | nil => simp
  | cons m ms ih =>
    have hfresh : ∀ e ∈ r.memberships, (e.target == m.target && e.domain == m.domain) = false := by
      intro e he
      rw [List.map_append, List.map_cons] at hn
      have hdisj := (List.nodup_append.mp hn).2.2 _ (List.mem_map_of_mem he) _ (List.mem_cons_self ..)
      simpa [Prod.ext_iff] using hdisj
    have hm : r.setMembership m = { r with memberships := r.memberships ++ [m] } := by
      unfold DomainRegistry.setMembership
      rw [List.upsert_of_forall hfresh]
    rw [List.foldl_cons, hm, ih _ (by simpa using hn)]
    simp

/-- **A well-formed registry is rebuilt exactly from its lists.** -/
theorem WellFormed.rebuild {r : DomainRegistry} (h : r.WellFormed) :
    r.memberships.foldl DomainRegistry.setMembership
      (r.domains.foldl DomainRegistry.declare {}) = r := by
  rw [foldl_declare _ _ h.domain_id (by simpa using h.domain_unique),
    foldl_setMembership _ _ (by simpa using h.membership_unique)]
  simp

end DomainRegistry

end FailoverFabric
