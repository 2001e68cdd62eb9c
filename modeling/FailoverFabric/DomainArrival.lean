import FailoverFabric.DomainQueries
import Mathlib.Data.List.Induction
import Mathlib.Data.List.Pairwise

/-! # Domain knowledge does not depend on its arrival

Declarations and memberships come in any order, a child before its parent and a
late declaration after a newer one.  `declare` keeps the declaration of the highest
generation for each id (`find_learned`), and a membership is filed under its target
and domain; so where no two declarations of one id have one generation and no two
memberships one target and domain, the queries answer alike after any two
arrivals of the same reports (`learned_agree`).  Null ids are never filed.
-/
namespace FailoverFabric
open ParentChain

namespace DomainRegistry

/-- A call that tells the registry something. -/
inductive Report
  | declare (d : DomainDecl)
  | setMembership (m : DomainMembership)
  deriving DecidableEq

/-- Take in one report. -/
def receive (r : DomainRegistry) : Report → DomainRegistry
  | .declare d => r.declare d
  | .setMembership m => r.setMembership m

/-- The registry after some reports. -/
def learned (reports : List Report) : DomainRegistry := reports.foldl receive {}

/-- The declarations among some reports. -/
def declarations (reports : List Report) : List DomainDecl :=
  reports.filterMap fun
    | .declare d => some d
    | .setMembership _ => none

/-- The memberships among some reports. -/
def reportedMemberships (reports : List Report) : List DomainMembership :=
  reports.filterMap fun
    | .declare _ => none
    | .setMembership m => some m

variable {r r' : DomainRegistry} {id : FailureDomainId}

/-! ## What a report changes -/

@[simp] theorem declarations_declare (reports : List Report) (d : DomainDecl) :
    declarations (reports ++ [.declare d]) = declarations reports ++ [d] := List.filterMap_append

@[simp] theorem declarations_setMembership (reports : List Report) (m : DomainMembership) :
    declarations (reports ++ [.setMembership m]) = declarations reports := by
  simp [declarations]

@[simp] theorem reportedMemberships_declare (reports : List Report) (d : DomainDecl) :
    reportedMemberships (reports ++ [.declare d]) = reportedMemberships reports := by
  simp [reportedMemberships]

@[simp] theorem reportedMemberships_setMembership (reports : List Report) (m : DomainMembership) :
    reportedMemberships (reports ++ [.setMembership m]) = reportedMemberships reports ++ [m] :=
  List.filterMap_append

@[simp] theorem declare_memberships (r : DomainRegistry) (d : DomainDecl) :
    (r.declare d).memberships = r.memberships := by
  unfold declare
  split <;> rfl

/-- The declaration that is kept when `d` comes after `old`. -/
def latest (d : DomainDecl) : Option DomainDecl → DomainDecl
  | none => d
  | some old => if old.generation.value ≤ d.generation.value then d else old

theorem latest_cases (d : DomainDecl) (o : Option DomainDecl) :
    latest d o = d ∨ o = some (latest d o) := by
  cases o with
  | none => exact Or.inl rfl
  | some old =>
    unfold latest
    simp only
    split
    · exact Or.inl rfl
    · exact Or.inr rfl

theorem le_latest (d : DomainDecl) (o : Option DomainDecl) :
    d.generation.value ≤ (latest d o).generation.value := by
  cases o with
  | none => exact UInt64.le_refl _
  | some old =>
    unfold latest
    simp only
    split
    · exact UInt64.le_refl _
    · rename_i hlt
      exact UInt64.le_of_lt (UInt64.not_le.mp hlt)

theorem old_le_latest (d old : DomainDecl) :
    old.generation.value ≤ (latest d (some old)).generation.value := by
  unfold latest
  simp only
  split
  · assumption
  · exact UInt64.le_refl _

theorem find_declare (r : DomainRegistry) (d : DomainDecl) (id : FailureDomainId) :
    (r.declare d).find id =
      if d.id = id ∧ id.isNull = false then some (latest d (r.find id)) else r.find id := by
  unfold declare
  by_cases hnull : d.id.isNull = true
  · rw [if_pos hnull, if_neg]
    rintro ⟨rfl, hid⟩
    rw [hnull] at hid
    cases hid
  · rw [if_neg hnull]
    by_cases hid : d.id = id
    · subst hid
      rw [if_pos ⟨rfl, by simpa using hnull⟩]
      unfold find
      rw [List.find?_upsert (by simp)]
      · cases r.domains.find? fun e => e.id == d.id <;> rfl
      · intro e he
        split
        · simp
        · exact he
    · rw [if_neg fun h => hid h.1]
      refine List.find?_upsert_of_ne (by simpa using hid) fun e he => ?_
      have hne : ¬ e.id = id := fun h => hid ((eq_of_beq he).symm.trans h)
      refine ⟨by simpa using hne, ?_⟩
      split
      · simpa using hid
      · simpa using hne

theorem learned_append (reports : List Report) (x : Report) :
    learned (reports ++ [x]) = (learned reports).receive x := by
  rw [learned, List.foldl_append]
  rfl

/-- The memberships are the reported ones, when no two have one target and one
domain. -/
theorem learned_memberships {reports : List Report}
    (h : ((reportedMemberships reports).map fun m => (m.target, m.domain)).Nodup) :
    (learned reports).memberships = reportedMemberships reports := by
  induction reports using List.reverseRecOn with
  | nil => rfl
  | append_singleton reports x ih =>
    rw [learned_append]
    cases x with
    | declare d =>
      rw [reportedMemberships_declare] at h ⊢
      rw [← ih h]
      exact declare_memberships _ d
    | setMembership m =>
      rw [reportedMemberships_setMembership] at h ⊢
      rw [List.map_append, List.nodup_append] at h
      obtain ⟨hnodup, -, hfresh⟩ := h
      show List.upsert _ m _ (learned reports).memberships = _
      rw [ih hnodup]
      refine List.upsert_of_forall fun e he => ?_
      have hne := hfresh _ (List.mem_map_of_mem he) _ (List.mem_singleton_self _)
      simpa [Prod.ext_iff] using hne

/-- An id that was declared is found, unless it is null. -/
theorem find_learned_isSome {reports : List Report} {e : DomainDecl}
    (he : e ∈ declarations reports) (hnull : e.id.isNull = false) :
    ((learned reports).find e.id).isSome = true := by
  induction reports using List.reverseRecOn with
  | nil => cases he
  | append_singleton reports x ih =>
    rw [learned_append]
    cases x with
    | setMembership m =>
      rw [declarations_setMembership] at he
      exact ih he
    | declare new =>
      rw [receive, find_declare]
      by_cases hnew : new.id = e.id ∧ e.id.isNull = false
      · rw [if_pos hnew]
        rfl
      · rw [if_neg hnew]
        rw [declarations_declare, List.mem_append, List.mem_singleton] at he
        rcases he with he | rfl
        · exact ih he
        · exact absurd ⟨rfl, hnull⟩ hnew

/-! ## The newest declaration -/

/-- A declaration of the id with the highest generation among some. -/
def Newest (ds : List DomainDecl) (id : FailureDomainId) (d : DomainDecl) : Prop :=
  d ∈ ds ∧ d.id = id ∧ ∀ e ∈ ds, e.id = id → e.generation.value ≤ d.generation.value

theorem Newest.append_other {ds : List DomainDecl} {d new : DomainDecl} (h : Newest ds id d)
    (hne : new.id ≠ id) : Newest (ds ++ [new]) id d := by
  obtain ⟨hmem, hid, hmax⟩ := h
  refine ⟨List.mem_append_left _ hmem, hid, fun e he heid => ?_⟩
  rcases List.mem_append.mp he with he | he
  · exact hmax e he heid
  · rw [List.mem_singleton.mp he] at heid
    exact absurd heid hne

/-- What is kept when a declaration comes after the newest of the others, if there
are any, is the newest of all. -/
theorem Newest.append_latest {ds : List DomainDecl} {new : DomainDecl} {o : Option DomainDecl}
    (hid : new.id = id) (hsome : ∀ e ∈ ds, e.id = id → o.isSome = true)
    (hold : ∀ old, o = some old → Newest ds id old) : Newest (ds ++ [new]) id (latest new o) := by
  refine ⟨?_, ?_, fun e he heid => ?_⟩
  · rcases latest_cases new o with hk | hk
    · rw [hk]
      exact List.mem_append_right _ (List.mem_singleton_self _)
    · exact List.mem_append_left _ (hold _ hk).1
  · rcases latest_cases new o with hk | hk
    · rw [hk, hid]
    · exact (hold _ hk).2.1
  · rcases List.mem_append.mp he with he | he
    · obtain ⟨old, rfl⟩ := Option.isSome_iff_exists.mp (hsome e he heid)
      exact UInt64.le_trans ((hold old rfl).2.2 e he heid) (old_le_latest new old)
    · rw [List.mem_singleton.mp he]
      exact le_latest new o

/-- **What is found is what was declared, at its highest generation.** -/
theorem find_learned {reports : List Report} {d : DomainDecl}
    (h : (learned reports).find id = some d) :
    id.isNull = false ∧ Newest (declarations reports) id d := by
  induction reports using List.reverseRecOn generalizing d with
  | nil => cases h
  | append_singleton reports x ih =>
    rw [learned_append] at h
    cases x with
    | setMembership m =>
      rw [declarations_setMembership]
      exact ih h
    | declare new =>
      rw [declarations_declare]
      rw [receive, find_declare] at h
      by_cases hnew : new.id = id ∧ id.isNull = false
      · obtain ⟨hid, hnull⟩ := hnew
        rw [if_pos ⟨hid, hnull⟩, Option.some.injEq] at h
        subst h
        refine ⟨hnull, Newest.append_latest hid (fun e he heid => ?_) fun old hold => (ih hold).2⟩
        rw [← heid] at hnull ⊢
        exact find_learned_isSome he hnull
      · rw [if_neg hnew] at h
        obtain ⟨hnull, hnewest⟩ := ih h
        exact ⟨hnull, hnewest.append_other fun hid => hnew ⟨hid, hnull⟩⟩

/-- Distinct generations leave one declaration of the highest. -/
theorem find_learned_iff {reports : List Report} {d : DomainDecl}
    (hdistinct : (declarations reports).Pairwise fun d e =>
      d.id = e.id → d.generation ≠ e.generation) :
    (learned reports).find id = some d ↔
      id.isNull = false ∧ Newest (declarations reports) id d := by
  refine ⟨find_learned, ?_⟩
  rintro ⟨hnull, hmem, rfl, hmax⟩
  obtain ⟨e, he⟩ := Option.isSome_iff_exists.mp (find_learned_isSome hmem hnull)
  obtain ⟨-, hemem, heid, hemax⟩ := find_learned he
  have hgen : d.generation = e.generation :=
    Gen.value_inj.mp (UInt64.le_antisymm (hemax d hmem rfl) (hmax e hemem heid))
  rw [he]
  by_contra hne
  have hde : d ≠ e := fun h => hne (by rw [h])
  have hsymm : Std.Symm fun d e : DomainDecl => d.id = e.id → d.generation ≠ e.generation :=
    ⟨fun a b h hid hg => h hid.symm hg.symm⟩
  exact hdistinct.forall hmem hemem hde heid.symm hgen

/-! ## What the queries depend on -/

theorem ancestorsOf_congr (h : ∀ id, r.find id = r'.find id) (id : FailureDomainId) :
    r.ancestorsOf id = r'.ancestorsOf id := by
  have hparent : r.parentOf = r'.parentOf := funext fun id => by rw [parentOf, parentOf, h]
  rw [ancestorsOf, ancestorsOf, ancestorsFrom_eq_walk, ancestorsFrom_eq_walk, hparent]

theorem closure_perm (h : ∀ id, r.find id = r'.find id) {ms ms' : List DomainMembership}
    (hperm : ms.Perm ms') : (r.closure ms).Perm (r'.closure ms') := by
  unfold closure
  rw [List.flatMap_congr fun m _ => ancestorsOf_congr h m.domain]
  exact (hperm.filter _).flatMap_right _

theorem overlaps_congr (h : ∀ id, r.find id = r'.find id)
    (hperm : r.memberships.Perm r'.memberships) (a b : TargetId) :
    r.overlaps a b = r'.overlaps a b := by
  have hA := hperm.filter fun m => m.target == a
  have hB := hperm.filter fun m => m.target != a && m.target == b
  have hcontains : (fun d => (r.closure (r.memberships.filter fun m =>
      m.target != a && m.target == b)).contains d) = fun d => (r'.closure
        (r'.memberships.filter fun m => m.target != a && m.target == b)).contains d :=
    funext fun d => (closure_perm h hB).contains_eq
  unfold overlaps
  simp only
  rw [hcontains, (closure_perm h hA).any_eq, hA.any_eq, hB.any_eq]

theorem inDomain_congr (hperm : r.memberships.Perm r'.memberships) (t : TargetId)
    (d : FailureDomainId) : r.inDomain t d = r'.inDomain t d := by
  have hfilter := hperm.filter fun m => m.target == t && m.domain == d
  unfold inDomain
  simp only
  rw [hfilter.any_eq, hfilter.any_eq]

/-- **Domain knowledge does not depend on its arrival.**  For reports in which
declarations of one id have distinct generations and memberships distinct targets
and domains: every permutation of them leads to a registry that answers `find`,
`ancestors_of`, `overlaps` and `in_domain` alike, and `find` returns, for an id that
is not null, the declaration of the greatest generation. -/
theorem learned_agree {reports reports' : List Report} (hperm : reports.Perm reports')
    (hdistinct : (declarations reports).Pairwise fun d e =>
      d.id = e.id → d.generation ≠ e.generation)
    (hkeys : ((reportedMemberships reports).map fun m => (m.target, m.domain)).Nodup) :
    (∀ id, (learned reports).find id = (learned reports').find id) ∧
      (∀ id, (learned reports).ancestorsOf id = (learned reports').ancestorsOf id) ∧
      (∀ a b, (learned reports).overlaps a b = (learned reports').overlaps a b) ∧
      (∀ t d, (learned reports).inDomain t d = (learned reports').inDomain t d) ∧
      ∀ id d, (learned reports).find id = some d ↔
        id.isNull = false ∧ d ∈ declarations reports ∧ d.id = id ∧
          ∀ e ∈ declarations reports, e.id = id → e.generation.value ≤ d.generation.value := by
  have hdecls : (declarations reports).Perm (declarations reports') := hperm.filterMap _
  have hmems : (reportedMemberships reports).Perm (reportedMemberships reports') :=
    hperm.filterMap _
  have hdistinct' : (declarations reports').Pairwise fun d e =>
      d.id = e.id → d.generation ≠ e.generation :=
    hdecls.pairwise hdistinct fun h hid hg => h hid.symm hg.symm
  have hkeys' := (hmems.map fun m => (m.target, m.domain)).nodup hkeys
  have hfind : ∀ id, (learned reports).find id = (learned reports').find id := by
    intro id
    refine Option.ext fun d => ?_
    rw [find_learned_iff hdistinct, find_learned_iff hdistinct']
    simp only [Newest, hdecls.mem_iff]
  have hmemberships : (learned reports).memberships.Perm (learned reports').memberships := by
    rw [learned_memberships hkeys, learned_memberships hkeys']
    exact hmems
  exact ⟨hfind, ancestorsOf_congr hfind, overlaps_congr hfind hmemberships,
    inDomain_congr hmemberships, fun id d => find_learned_iff hdistinct⟩

end DomainRegistry

namespace Reference
open DomainRegistry

/-- A site declared before its region, a membership in it, and an older declaration
of the site that comes late. -/
def arrivals : List Report :=
  [.declare { id := ⟨2⟩, generation := ⟨2⟩, parent := some ⟨1⟩ }, .setMembership ⟨⟨1⟩, ⟨2⟩, true⟩,
    .declare { id := ⟨1⟩ }, .declare { id := ⟨2⟩, generation := ⟨1⟩ }]

end Reference

open DomainRegistry Reference in
/-- The same reports the other way round: target 1 is below the region all the
same. -/
theorem learned_agree_reversed :
    (learned arrivals.reverse).ancestorsOf ⟨2⟩ = (learned arrivals).ancestorsOf ⟨2⟩ ∧
      (learned arrivals).ancestorsOf ⟨2⟩ = [⟨2⟩, ⟨1⟩] := by
  obtain ⟨-, hancestors, -⟩ :=
    learned_agree (List.reverse_perm arrivals).symm (by decide) (by decide)
  exact ⟨(hancestors ⟨2⟩).symm, by decide⟩

open DomainRegistry in
/-- **A null id is never filed.**  The only declaration has the null id, and `find`
does not return it. -/
theorem null_declaration_dropped :
    ∃ reports : List Report, ∃ d ∈ declarations reports,
      ((declarations reports).Pairwise fun d e => d.id = e.id → d.generation ≠ e.generation) ∧
        ((reportedMemberships reports).map fun m => (m.target, m.domain)).Nodup ∧
        (∀ e ∈ declarations reports, e.id = d.id → e.generation.value ≤ d.generation.value) ∧
        (learned reports).find d.id ≠ some d :=
  ⟨[.declare {}], {}, by decide, by decide, by decide, by decide, by decide⟩

end FailoverFabric
