import FailoverFabric.EvidenceFlow
import FailoverFabric.Failbacks
import FailoverFabric.RouteAgreement

/-! # Reports and what is behind them

Two queries of the fabric answer from some of the records that decide, and not from
all.  `service_outcome` looks at the current assignment and its route, the gate also at
the fences: a cutover that fails after it has fenced the old boot leaves a service that
is reported as available and that nothing is dispatched to (`reported_available_iff`).
`evaluate_failback` looks at the readiness of the preferred target, selection also at
its failures: a failback is authorized onto a target whose failure was confirmed after
it said it was ready (`failback_onto_unmarked`).
-/
namespace FailoverFabric
open Fabric

/-! ## What is reported as available -/

namespace Fabric
variable {s : Fabric} {slot : ServiceSlotKey}

/-- The service is reported to be up. -/
def reportedUp (s : Fabric) (slot : ServiceSlotKey) : Prop :=
  s.serviceOutcome slot = .available ∨ s.serviceOutcome slot = .degraded

/-- The slot has an active assignment, and a route that is acknowledged. -/
def Routed (s : Fabric) (slot : ServiceSlotKey) (cur : Assignment) : Prop :=
  s.currentAssignment slot = some cur ∧ cur.state = .active ∧
    ∃ r, s.routes.current slot = some r ∧ r.state = .acknowledged

theorem reportedUp_iff : s.reportedUp slot ↔ ∃ cur, s.Routed slot cur := by
  constructor
  · intro h
    unfold reportedUp serviceOutcome at h
    cases hcur : s.currentAssignment slot with
    | none =>
      rw [hcur] at h
      simp at h
    | some cur =>
      rw [hcur] at h
      dsimp only at h
      by_cases hup : cur.state = .active ∧
          ((s.routes.current slot).any fun e => e.state == .acknowledged) = true
      · obtain ⟨r, hr, hack⟩ := (Option.any_eq_true _ _).mp hup.2
        exact ⟨cur, hcur, hup.1, r, hr, eq_of_beq hack⟩
      · rw [if_neg hup] at h
        split_ifs at h <;> simp at h
  · rintro ⟨cur, hcur, hactive, r, hr, hack⟩
    unfold reportedUp serviceOutcome
    rw [hcur, hr]
    cases hfail : s.evidence.latestFailureFor cur.target with
    | none => simp [hactive, hack, hfail]
    | some ev => simp [hactive, hack, hfail]

/-- Some authorization passes the gate exactly if the slot's assignment may serve. -/
theorem exists_authorized_iff :
    (∃ auth : WorkerAuthorization, auth.slot = slot ∧ (s.authorizeDispatch auth).allowed = true) ↔
      ∃ cur, s.Serves slot cur := by
  constructor
  · rintro ⟨auth, rfl, hallowed⟩
    obtain ⟨cur, hserves, -⟩ := dispatchAllowed_iff.mp hallowed
    exact ⟨cur, hserves⟩
  · rintro ⟨cur, hserves⟩
    refine ⟨{ epoch := s.epoch, slot, assignment := cur.id,
              assignmentGeneration := cur.generation, routeGeneration := cur.routeGeneration,
              workerBoot := cur.workerBoot }, rfl, ?_⟩
    exact dispatchAllowed_iff.mpr ⟨cur, hserves, rfl, rfl, rfl, rfl, rfl⟩

/-- What is active and routed serves, unless its boot is fenced. -/
theorem Routed.serves_iff {cur : Assignment} (h : s.Routed slot cur) :
    (∃ cur, s.Serves slot cur) ↔ cur.workerBoot ∉ s.fencedBoots := by
  obtain ⟨hcur, hactive, r, hroute, hstate⟩ := h
  constructor
  · rintro ⟨cur', hserves⟩
    have hsame := hserves.current
    rw [hcur] at hsame
    cases hsame
    exact hserves.unfenced
  · intro hunfenced
    refine ⟨cur, hcur, hactive, hunfenced, ?_⟩
    rw [routeShut, hroute, Option.any_some, hstate]
    rfl

end Fabric

/-- **What is reported as available is so exactly if its boot is not fenced.**  In every
state and for every slot, a service that is reported as available or degraded has an
authorization that the gate accepts, if and only if the boot of an active assignment
with an acknowledged route is not fenced. -/
theorem reported_available_iff (s : Fabric) (slot : ServiceSlotKey) :
    (s.serviceOutcome slot = .available ∨ s.serviceOutcome slot = .degraded →
      ∃ auth : WorkerAuthorization, auth.slot = slot ∧ (s.authorizeDispatch auth).allowed = true) ↔
    ∀ cur r, s.currentAssignment slot = some cur → cur.state = .active →
      s.routes.current slot = some r → r.state = .acknowledged →
        cur.workerBoot ∉ s.fencedBoots := by
  rw [exists_authorized_iff]
  constructor
  · intro h cur r hcur hactive hroute hstate
    have hrouted : s.Routed slot cur := ⟨hcur, hactive, r, hroute, hstate⟩
    exact hrouted.serves_iff.mp (h (reportedUp_iff.mpr ⟨cur, hrouted⟩))
  · intro h hup
    obtain ⟨cur, hrouted⟩ := reportedUp_iff.mp hup
    obtain ⟨hcur, hactive, r, hroute, hstate⟩ := hrouted
    exact Routed.serves_iff ⟨hcur, hactive, r, hroute, hstate⟩ |>.mpr
      (h cur r hcur hactive hroute hstate)

namespace Reference

/-- The reference deployment after a cutover whose verification failed. -/
def verificationFailed : SystemState :=
  (machine env).run { fabric := {} } (setup.map .op ++
    .beginPlan (planOf deployed.fabric) unverified :: List.replicate 19 (.advance 0 {}))

end Reference

open Reference in
/-- **A fenced service is reported as available**: the cutover has fenced boot 11 and
failed, the slot is still assigned to it, and the new route is acknowledged. -/
theorem available_and_fenced :
    ¬ ∀ σ, Transition.Reachable (machine env) (fun _ _ => True) σ → ∀ slot,
      σ.fabric.serviceOutcome slot = .available ∨ σ.fabric.serviceOutcome slot = .degraded →
        ∃ auth : WorkerAuthorization, auth.slot = slot ∧
          (σ.fabric.authorizeDispatch auth).allowed = true := by
  intro h
  obtain ⟨cur, hserves⟩ := exists_authorized_iff.mp
    (h verificationFailed (.run_all _ (.initial ⟨{}, rfl⟩)) slot (Or.inl (by decide +kernel)))
  have hfenced : ∀ a ∈ verificationFailed.fabric.currentAssignment slot,
      a.workerBoot ∈ verificationFailed.fabric.fencedBoots := by decide +kernel
  exact hserves.unfenced (hfenced cur hserves.current)

/-! ## What a failback is authorized onto -/

/-- The statuses of the failures published for a target since its last accepted facts
that said it was ready. -/
abbrev SinceReady := TargetId → List EvidenceStatus

def noteStatuses (σ : SystemState) : Label → SinceReady → SinceReady
  | .op (.publishFailure ev), since =>
    ev.target.elim since fun t => Function.update since t (ev.status :: since t)
  | .op (.publishCandidateFacts _ f), since =>
    if σ.fabric.acceptsFacts f && f.ready then Function.update since f.target [] else since
  | _, since => since

/-- Statuses that mark a target, one of them at least. -/
def fails (sts : List EvidenceStatus) : Prop := .confirmed ∈ sts ∨ .unknown ∈ sts

namespace Fabric
variable {env : Env} {s : Fabric} {t : TargetId}

/-- The facts stored for the target say that it is ready. -/
def saysReady (s : Fabric) (t : TargetId) : Bool := (s.factsOf t).any (·.ready)

theorem factsOf_congr {s' : Fabric} (h : s'.targets = s.targets) : s'.factsOf t = s.factsOf t := by
  rw [factsOf, factsOf, h]

/-- A target comes to be ready by facts that are accepted and say so. -/
theorem apply_saysReady (hwf : TargetsWellFormed s.targets) (o : Op)
    (h : (s.apply env o).saysReady t = true) :
    s.saysReady t = true ∨ ∃ now f, o = .publishCandidateFacts now f ∧ f.target = t ∧
      (s.acceptsFacts f && f.ready) = true := by
  have heff := apply_targets env s o
  rw [saysReady, factsOf] at h ⊢
  generalize (s.apply env o).targets = targets' at heff h
  cases heff with
  | kept => exact Or.inl h
  | registered id transport =>
    -- a new record has no facts
    rw [IndexedVec.find_push _ _ _ hwf.sound] at h
    split_ifs at h
    · cases h
    · exact Or.inl h
  | published now f r hfind hnewer =>
    rw [IndexedVec.find_modify hwf.sound] at h
    split_ifs at h with ht
    · rw [hfind] at h
      refine Or.inr ⟨now, f, rfl, ht.symm, ?_⟩
      rw [acceptsFacts, hfind, Option.any_some, hnewer, Bool.true_and]
      exact h
    · exact Or.inl h
  | changed _ id g _ hfacts =>
    rw [IndexedVec.find_modify hwf.sound] at h
    split_ifs at h with ht
    · left
      rw [ht]
      cases hfind : s.targets.find id with
      | none =>
        rw [hfind] at h
        cases h
      | some r =>
        rw [hfind] at h
        simpa [hfacts] using h
    · exact Or.inl h
  -- a load forgets the index of the targets
  | loaded blob => cases h

end Fabric

/-- The marks follow the statuses: a mark has a failure behind it, and a failure since
the target said it was ready has left a mark. -/
structure Accounted (p : SystemState × SinceReady) : Prop where
  failed : ∀ t, p.1.fabric.confirmedFailedTargets t = true → fails (p.2 t)
  marked : ∀ t, p.1.fabric.saysReady t = true → fails (p.2 t) →
    p.1.fabric.confirmedFailedTargets t = true

theorem fails_cons {st : EvidenceStatus} {sts : List EvidenceStatus} :
    fails (st :: sts) ↔ (st = .confirmed ∨ st = .unknown) ∨ fails sts := by
  rw [fails, fails, List.mem_cons, List.mem_cons, @eq_comm _ .confirmed st,
    @eq_comm _ .unknown st]
  exact or_or_or_comm

theorem Accounted.facts {env : Env} {p : SystemState × SinceReady} {now : Time}
    {f : CandidateFacts} (hwf : TargetsWellFormed p.1.fabric.targets) (h : Accounted p) :
    Accounted (p.1.step env (.op (.publishCandidateFacts now f)),
      noteStatuses p.1 (.op (.publishCandidateFacts now f)) p.2) := by
  have hmarks := publishCandidateFacts_confirmed p.1.fabric now f
  refine ⟨fun t hmark => ?_, fun t hready hfails => ?_⟩
  · change (p.1.fabric.orSelf (p.1.fabric.publishCandidateFacts now f)).confirmedFailedTargets t =
      true at hmark
    rw [hmarks] at hmark
    show fails (noteStatuses p.1 (.op (.publishCandidateFacts now f)) p.2 t)
    simp only [noteStatuses]
    split_ifs at hmark ⊢ with hacc
    · rw [Function.update_apply] at hmark ⊢
      split_ifs at hmark ⊢ with ht
      exact h.failed t hmark
    · exact h.failed t hmark
  · change fails (noteStatuses p.1 (.op (.publishCandidateFacts now f)) p.2 t) at hfails
    simp only [noteStatuses] at hfails
    show (p.1.fabric.orSelf (p.1.fabric.publishCandidateFacts now f)).confirmedFailedTargets t =
      true
    rw [hmarks]
    have hsaid : p.1.fabric.saysReady t = true ∨
        f.target = t ∧ (p.1.fabric.acceptsFacts f && f.ready) = true := by
      rcases apply_saysReady hwf _ hready with hold | ⟨now', f', heq, hnew⟩
      · exact Or.inl hold
      · cases heq
        exact Or.inr hnew
    split_ifs at hfails ⊢ with hacc
    · rw [Function.update_apply] at hfails ⊢
      split_ifs at hfails ⊢ with ht
      · rcases hfails with hnil | hnil <;> cases hnil
      · exact h.marked t (hsaid.resolve_right fun hnew => ht hnew.1.symm) hfails
    · exact h.marked t (hsaid.resolve_right fun hnew => hacc hnew.2) hfails

theorem Accounted.failure {env : Env} {p : SystemState × SinceReady} {ev : FailureEvent}
    (h : Accounted p) :
    Accounted (p.1.step env (.op (.publishFailure ev)),
      noteStatuses p.1 (.op (.publishFailure ev)) p.2) := by
  have hnote : ∀ t, fails (noteStatuses p.1 (.op (.publishFailure ev)) p.2 t) ↔
      marks ev = some t ∨ fails (p.2 t) := by
    intro t
    show fails (ev.target.elim p.2 (fun u => Function.update p.2 u (ev.status :: p.2 u)) t) ↔ _
    unfold marks
    cases ev.target with
    | none => simp
    | some u =>
      simp only [Option.elim_some, Function.update_apply]
      by_cases ht : t = u
      · subst ht
        rw [if_pos rfl, fails_cons]
        by_cases hst : ev.status = .confirmed ∨ ev.status = .unknown
        · rw [if_pos hst]
          exact iff_of_true (Or.inl hst) (Or.inl rfl)
        · rw [if_neg hst]
          simp [hst]
      · rw [if_neg ht]
        simp [Ne.symm ht]
  refine ⟨fun t hmark => (hnote t).mpr ?_, fun t hready hfails => ?_⟩
  · change (p.1.fabric.publishFailure ev).confirmedFailedTargets t = true at hmark
    rw [publishFailure_confirmed] at hmark
    cases hm : marks ev with
    | none =>
      rw [hm] at hmark
      exact Or.inr (h.failed t hmark)
    | some u =>
      rw [hm, Option.elim_some, Function.update_apply] at hmark
      by_cases ht : t = u
      · exact Or.inl (by rw [ht])
      · rw [if_neg ht] at hmark
        exact Or.inr (h.failed t hmark)
  · refine publishFailure_marks (((hnote t).mp hfails).imp_right fun hold => ?_)
    exact h.marked t hready hold

/-- A step that marks and unmarks nobody, and makes nobody ready, keeps the account. -/
theorem Accounted.kept {p : SystemState × SinceReady} {σ : SystemState} (h : Accounted p)
    (hmarks : σ.fabric.confirmedFailedTargets = p.1.fabric.confirmedFailedTargets)
    (hready : ∀ t, σ.fabric.saysReady t = true → p.1.fabric.saysReady t = true) :
    Accounted (σ, p.2) := by
  refine ⟨fun t hmark => h.failed t (hmarks ▸ hmark), fun t hsays hfails => ?_⟩
  show σ.fabric.confirmedFailedTargets t = true
  rw [hmarks]
  exact h.marked t (hready t hsays) hfails

theorem Accounted.op {env : Env} {p : SystemState × SinceReady}
    (hwf : TargetsWellFormed p.1.fabric.targets) (h : Accounted p) (o : Op) :
    Accounted (p.1.step env (.op o), noteStatuses p.1 (.op o) p.2) := by
  by_cases hfacts : ∃ now f, o = .publishCandidateFacts now f
  · obtain ⟨now, f, rfl⟩ := hfacts
    exact h.facts hwf
  by_cases hfail : ∃ ev, o = .publishFailure ev
  · obtain ⟨ev, rfl⟩ := hfail
    exact h.failure
  have hnote : noteStatuses p.1 (.op o) p.2 = p.2 := by
    cases o <;> first | rfl | exact absurd ⟨_, _, rfl⟩ hfacts | exact absurd ⟨_, rfl⟩ hfail
  rw [hnote]
  refine h.kept (apply_confirmed env p.1.fabric o (fun now f he => hfacts ⟨now, f, he⟩)
    fun ev he => hfail ⟨ev, he⟩) fun t hready => ?_
  refine (apply_saysReady hwf o hready).resolve_right ?_
  rintro ⟨now, f, rfl, -⟩
  exact hfacts ⟨now, f, rfl⟩

theorem Accounted.step {env : Env} {p : SystemState × SinceReady} {l : Label}
    (hwf : TargetsWellFormed p.1.fabric.targets) (h : Accounted p) :
    Accounted (p.1.step env l, noteStatuses p.1 l p.2) := by
  cases l with
  | op o => exact h.op hwf o
  | beginPlan plan ops => exact ⟨h.failed, h.marked⟩
  | beginFailback slot ops => exact ⟨h.failed, h.marked⟩
  | advance i rd =>
    have hconfined := advance_confined env p.1 i rd
    refine h.kept (by rw [hconfined]) fun t hready => ?_
    rw [saysReady, factsOf_congr hconfined.targets] at hready
    exact hready
  | restart cfg =>
    rcases step_restart_cases env p.1 cfg with hstep | ⟨_, _, -, -, hstep⟩
    · rw [hstep]
      exact h
    · -- a new process has neither facts nor marks
      rw [hstep]
      exact ⟨fun t hmark => (by cases hmark), fun t hready => (by cases hready)⟩

/-- Without fresh facts that say the preferred target is ready there is no failback. -/
theorem Fabric.evaluateFailback_unready {s : Fabric} {slot : ServiceSlotKey} {pref : TargetId}
    (rd : Readings) (hpref : s.preferred slot = some pref) (h : s.freshlyReady pref = false) :
    (s.evaluateFailback rd slot).authorized = false := by
  unfold evaluateFailback
  rw [hpref]
  split
  · rfl
  split
  · rfl
  dsimp only
  split
  · rfl
  split
  · rfl
  · rfl

theorem Fabric.saysReady_of_freshlyReady {s : Fabric} {t : TargetId} (h : s.freshlyReady t = true) :
    s.saysReady t = true := by
  obtain ⟨r, hr, hfacts⟩ := (Option.any_eq_true _ _).mp h
  obtain ⟨f, hf, hready⟩ := (Option.any_eq_true _ _).mp hfacts
  rw [saysReady, factsOf, hr, Option.bind_some, hf]
  exact (Bool.and_eq_true_iff.mp hready).1

/-- The preferred target of an authorized failback says that it is ready. -/
theorem Fabric.authorized_ready {s : Fabric} {rd : Readings} {slot : ServiceSlotKey}
    {pref : TargetId} (h : (s.evaluateFailback rd slot).authorized = true)
    (hpref : s.preferred slot = some pref) : s.saysReady pref = true := by
  refine saysReady_of_freshlyReady ?_
  by_contra hnot
  rw [evaluateFailback_unready rd hpref (Bool.eq_false_of_not_eq_true hnot)] at h
  cases h

/-- **A failback is authorized onto no failed target, as far as the marks are looked at.**
In every reachable state, for every slot whose failback is authorized: if the preferred
target is not among the targets with a confirmed failure, then no confirmed failure of it
has been published since its last accepted facts that said it was ready; and if it is, a
failure with a confirmed or unknown status has. -/
theorem failback_onto_unmarked (env : Env) {p : SystemState × SinceReady}
    (h : Transition.Reachable ((machine env).withHistory (fun _ => []) noteStatuses)
      (fun _ _ => True) p) (rd : Readings) (slot : ServiceSlotKey) (pref : TargetId)
    (hauth : (p.1.fabric.evaluateFailback rd slot).authorized = true)
    (hpref : p.1.fabric.preferred slot = some pref) :
    (p.1.fabric.confirmedFailedTargets pref = false → .confirmed ∉ p.2 pref) ∧
      (p.1.fabric.confirmedFailedTargets pref = true →
        .confirmed ∈ p.2 pref ∨ .unknown ∈ p.2 pref) := by
  have hacc : Accounted p := by
    refine h.invariant (fun p hp => ?_) fun p l hr hp _ =>
      hp.step (TargetsWellFormed.reachable hr.fst)
    obtain ⟨⟨cfg, hcfg⟩, hstart⟩ := hp
    obtain ⟨σ, since⟩ := p
    cases hcfg
    cases hstart
    exact ⟨fun t hmark => (by cases hmark), fun t hready => (by cases hready)⟩
  refine ⟨fun hclear hmem => ?_, hacc.failed pref⟩
  rw [hacc.marked pref (authorized_ready hauth hpref) (Or.inl hmem)] at hclear
  cases hclear

namespace Reference

/-- The operations that set up the deployment with a failback. -/
def returningSetup : List Label := (.createService returning :: setup.tail).map .op

/-- The slot has failed over from target 1 to target 2, target 1 is back with boot 12,
and some more operations follow. -/
def backAnd (os : List Op) : SystemState × SinceReady :=
  let planned := planOf ((machine env).run { fabric := {} } returningSetup).fabric
  ((machine env).withHistory (fun _ => []) noteStatuses).run ({ fabric := {} }, fun _ => [])
    (returningSetup ++ callOf 0 planned ++
      (Op.registerTarget ⟨1⟩ [] :: .publishCandidateFacts 0 (facts 1 12) :: os).map .op)

theorem backAnd_reachable (os : List Op) :
    Transition.Reachable ((machine env).withHistory (fun _ => []) noteStatuses)
      (fun _ _ => True) (backAnd os) := .run_all _ (.initial ⟨⟨{}, rfl⟩, rfl⟩)

end Reference

open Reference in
/-- Target 1 is back, and the failback onto it is authorized. -/
theorem failback_onto_unmarked_reference :
    ((backAnd []).1.fabric.evaluateFailback {} slot).authorized = true ∧
      .confirmed ∉ (backAnd []).2 ⟨1⟩ := by
  have hauth : ((backAnd []).1.fabric.evaluateFailback {} slot).authorized = true := by
    decide +kernel
  exact ⟨hauth, (failback_onto_unmarked env (backAnd_reachable []) {} slot ⟨1⟩ hauth
    (by decide +kernel)).1 (by decide +kernel)⟩

open Reference in
/-- **A failback is authorized onto a failed target.**  Target 1 is back, and its failure
is confirmed again. -/
theorem failback_onto_failed :
    ¬ ∀ p, Transition.Reachable ((machine env).withHistory (fun _ => []) noteStatuses)
        (fun _ _ => True) p → ∀ rd slot pref,
      (p.1.fabric.evaluateFailback rd slot).authorized = true →
        p.1.fabric.preferred slot = some pref → .confirmed ∉ p.2 pref := by
  intro h
  refine h (backAnd [.publishFailure (failureOf 1)]) (backAnd_reachable _) {} slot ⟨1⟩
    (by decide +kernel) (by decide +kernel) ?_
  decide +kernel

end FailoverFabric
