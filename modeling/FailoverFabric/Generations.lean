import FailoverFabric.ExclusiveAssignment

/-! # Generations of assignments

A replacement gets its two generations when its attempt validates, each one more
than a counter of the fabric.

The assignment generation's counter is never advanced, so that every replacement
has generation 2 in every run: a commit has a new generation only where the slot
holds generations below 2 (`generation_of_commit`).

The authority generation's counter is advanced by the commit, to the value that
was taken at the validation: it moves forward in the runs in which no two other
commits come between (`authority_advances`).
-/
namespace FailoverFabric
open Fabric

/-- The assignments of a slot: those of its records, current and history. -/
def Fabric.assignmentsFor (s : Fabric) (key : ServiceSlotKey) : List Assignment :=
  (s.slots.items.filter fun st => st.slot == key).flatMap SlotState.assignments

/-- The assignment that a commit of the attempt replaces. -/
def Fabric.replacedBy (s : Fabric) (a : Attempt) : Option Assignment :=
  (s.currentAssignment a.slot).orElse fun _ => a.oldAssign

/-! ## The assignment generation -/

/-- The counter stands where it began, and every attempt in progress has taken the
generation after it. -/
structure GenerationStands (σ : SystemState) : Prop where
  counter : σ.fabric.assignmentGenCounter = .first
  issued : ∀ c ∈ σ.calls, ∀ a, c.attempt = some a →
    a.stage = .validating ∨ Ended a ∨ a.newAssign.generation = ⟨2⟩

theorem step_assignmentGenCounter {env : Env} {σ : SystemState} {l : Label}
    (h : σ.fabric.assignmentGenCounter = .first) :
    (σ.step env l).fabric.assignmentGenCounter = .first := by
  have heff := step_effect env σ l
  generalize σ.step env l = σ' at heff
  cases heff with
  | applied o =>
    have heff := apply_effect env σ.fabric o
    show (σ.fabric.apply env o).assignmentGenCounter = _
    generalize σ.fabric.apply env o = s' at heff
    cases heff with
    | transient hs => rw [hs, h]
    | created hs => rw [(createService_eq hs).1, h]
    | assigned hs => rw [(setInitialAssignment_eq_ok hs).fabric, h]
    | installed entry boot => rw [installRoute_eq, h]
    | _ => exact h
  | settled hf _ => rw [hf, h]
  | stepped a _ hf _ _ => rw [hf, (attemptStep_confined _ _ a).assignmentGenCounter, h]
  | restarted _ _ => rfl

theorem GenerationStands.step {env : Env} {σ : SystemState} {l : Label} (h : GenerationStands σ) :
    GenerationStands (σ.step env l) := by
  refine ⟨step_assignmentGenCounter h.counter, ?_⟩
  refine step_attempts (fun _ _ => Or.inl rfl) (fun rd a ha => ?_) h.issued
  refine attemptStep_new (P := fun a => a.newAssign.generation = ⟨2⟩) ?_ ?_ ha
  · intro a' _ hacc
    have hg := (composeAssignment_eq_ok hacc.issued).generation
    rw [h.counter, Gen.next_first] at hg
    exact (Except.ok.inj hg).symm
  · intro a' _ hnew ha
    rw [hnew, ha]

theorem GenerationStands.reachable {env : Env} {ok : SystemState → Label → Prop} {σ : SystemState}
    (h : Transition.Reachable (machine env) ok σ) : GenerationStands σ := by
  refine h.invariant (P := GenerationStands) ?_ fun σ l _ hσ _ => hσ.step
  rintro σ ⟨cfg, rfl⟩
  exact ⟨rfl, fun c hc => by cases hc⟩

/-- **The generation of a commit.**  In every run, with restarts and loads: a commit
has a greater generation than the assignment it replaces exactly if that one's is
below 2; and if all generations of the slot are, its id and generation are not
those of any assignment of the slot. -/
theorem generation_of_commit (env : Env) {σ : SystemState}
    (h : Transition.Reachable (machine env) (fun _ _ => True) σ) {l : Label} {i : Nat} {a : Attempt}
    (hdone : JustCompleted env σ l i a) {new : Assignment}
    (hnew : a.result.committedAssignment = some new) :
    ((∀ d, σ.fabric.replacedBy a = some d → d.generation.value < new.generation.value) ↔
        ∀ d, σ.fabric.replacedBy a = some d → d.generation.value < 2) ∧
      ((∀ x ∈ σ.fabric.assignmentsFor a.slot, x.generation.value < 2) →
        ∀ x ∈ σ.fabric.assignmentsFor a.slot, x.key ≠ new.key) := by
  obtain ⟨rd, c, a0, rfl, hc, ha0, hcommit, rfl, -⟩ := hdone.commit
  have hgen : new.generation = ⟨2⟩ := by
    rw [hcommit.committed] at hnew
    cases hnew
    exact holds_of_acting ((GenerationStands.reachable h).issued c (List.mem_of_getElem? hc) a0 ha0)
      (Or.inl hcommit.before)
  rw [hgen]
  refine ⟨Iff.rfl, fun hall x hx hkey => ?_⟩
  have hlt := hall x hx
  rw [(Prod.mk.inj hkey).2, hgen] at hlt
  exact absurd hlt (by decide)

namespace Reference

/-- The commit finds generations below 2 only. -/
def findsOld (s : Fabric) (a : Attempt) : Bool :=
  a.result.committedAssignment.isSome &&
    ((s.replacedBy a).all fun d => d.generation.value < 2) &&
    (s.assignmentsFor a.slot).all fun x => x.generation.value < 2

/-- The commit has the id and generation of the assignment it replaces. -/
def reissues (s : Fabric) (a : Attempt) : Bool :=
  ((s.replacedBy a).map Assignment.key).isSome &&
    (s.replacedBy a).map Assignment.key == a.result.committedAssignment.map Assignment.key

/-- A first cutover, a restart, and a second one to a third target, up to its
commit. -/
def restartedBetween : List Label :=
  let first := setup.map Label.op ++ callOf 0 (planOf (after setup)) ++
    [.restart {}, .op (.registerTarget ⟨3⟩ []), .op (.publishCandidateFacts 0 (facts 3 33))]
  first ++ cutover ((machine env).run { fabric := {} } first).fabric

end Reference

open Reference in
/-- The first cutover of the reference deployment. -/
theorem generation_of_commit_reference :
    let σ := (machine env).run deployed (cutover deployed.fabric)
    ∃ a new, JustCompleted env σ lastStep 0 a ∧ a.result.committedAssignment = some new ∧
      (∀ d, σ.fabric.replacedBy a = some d → d.generation.value < new.generation.value) ∧
      ∀ x ∈ σ.fabric.assignmentsFor a.slot, x.key ≠ new.key := by
  intro σ
  obtain ⟨a, hdone, ht⟩ := justCompleted_of_decide env σ lastStep 0 (findsOld σ.fabric)
    (by decide +kernel)
  obtain ⟨ht, hall⟩ := Bool.and_eq_true_iff.mp ht
  obtain ⟨hnew, hold⟩ := Bool.and_eq_true_iff.mp ht
  obtain ⟨new, hnew⟩ := Option.isSome_iff_exists.mp hnew
  have hreach : Transition.Reachable (machine env) (fun _ _ => True) σ :=
    .run_all _ (reachable_run (setup.map .op))
  obtain ⟨hgreater, hdistinct⟩ := generation_of_commit env hreach hdone hnew
  refine ⟨a, new, hdone, hnew, hgreater.mpr fun d hd => ?_, hdistinct fun x hx => ?_⟩
  · rw [hd] at hold
    exact of_decide_eq_true hold
  · exact of_decide_eq_true (List.all_eq_true.mp hall x hx)

open Reference in
/-- **Identities are reissued.**  A cutover, a restart and another cutover: the
second commit has the generation, and even the id, of the assignment it
replaces. -/
theorem identity_reissued :
    ¬ ∀ σ, Transition.Reachable (machine env) (fun _ _ => True) σ → ∀ l i a new,
      JustCompleted env σ l i a → a.result.committedAssignment = some new →
        (∀ d, σ.fabric.replacedBy a = some d → d.generation.value < new.generation.value) ∧
          ∀ x ∈ σ.fabric.assignmentsFor a.slot, x.key ≠ new.key := by
  intro h
  let σ := (machine env).run { fabric := {} } restartedBetween
  obtain ⟨a, hdone, ht⟩ := justCompleted_of_decide env σ lastStep 0 (reissues σ.fabric)
    (by decide +kernel)
  obtain ⟨hsome, hsame⟩ := Bool.and_eq_true_iff.mp ht
  obtain ⟨k, hk⟩ := Option.isSome_iff_exists.mp hsome
  obtain ⟨d, hd, rfl⟩ := Option.map_eq_some_iff.mp hk
  have hkey := eq_of_beq hsame
  rw [hk, eq_comm, Option.map_eq_some_iff] at hkey
  obtain ⟨new, hnew, hkey⟩ := hkey
  have hgreater := (h σ (reachable_run restartedBetween) _ _ a new hdone hnew).1 d hd
  rw [(Prod.mk.inj hkey).2] at hgreater
  exact absurd hgreater (UInt64.lt_irrefl _)

/-! ## The authority generation -/

/-- For each call, what the counter was when the call validated. -/
abbrev Seen := Nat → ServiceAuthorityGeneration

/-- A call that is about to validate sees the counter. -/
def noteSeen (σ : SystemState) (l : Label) (seen : Seen) : Seen :=
  match l with
  | .advance i _ =>
    if (σ.attemptAt i).any fun a => a.stage == .validating then
      Function.update seen i σ.fabric.lastAuthorityGen
    else seen
  | _ => seen

/-- The system of all runs, with what each call saw. -/
def observed (env : Env) : Transition.System (SystemState × Seen) Label :=
  (machine env).withHistory (fun _ => .first) noteSeen

/-- **A commit in order**: the counter has advanced by at most one since the call
validated, and the slot's assignment is the one the call found, or an initial
one. -/
def inOrder (s : Fabric) (saw : ServiceAuthorityGeneration) (a : Attempt) : Bool :=
  s.lastAuthorityGen.value.toNat ≤ saw.value.toNat + 1 &&
    (s.currentAssignment a.slot).all fun cur =>
      a.oldAssign == some cur || cur.authorityGeneration == .first

/-- A fabric that is never loaded, with initial assignments of the first authority
generation. -/
def fromFirst : Label → Bool
  | .op (.load _) => false
  | .restart _ => false
  | .op (.setInitialAssignment _ a) => a.authorityGeneration == .first
  | _ => true

/-- Such a fabric, with commits in order. -/
def keepsOrder (p : SystemState × Seen) (l : Label) : Bool :=
  fromFirst l &&
    match l with
    | .advance i _ => (p.1.attemptAt i).all fun a =>
        !p.1.fabric.commits a || inOrder p.1.fabric (p.2 i) a
    | _ => true

def KeepsOrder (p : SystemState × Seen) (l : Label) : Prop := keepsOrder p l = true

theorem KeepsOrder.fromFirst {p : SystemState × Seen} {l : Label} (h : KeepsOrder p l) :
    fromFirst l = true := (Bool.and_eq_true_iff.mp h).1

theorem KeepsOrder.commit {p : SystemState × Seen} {i : Nat} {rd : Readings} {a : Attempt}
    {r : Fabric × Attempt} (h : KeepsOrder p (.advance i rd)) (ha : p.1.attemptAt i = some a)
    (hc : CommitStep rd.now p.1.fabric a r) :
    p.1.fabric.lastAuthorityGen.value.toNat ≤ (p.2 i).value.toNat + 1 ∧
      ∀ cur, p.1.fabric.currentAssignment a.slot = some cur →
        a.oldAssign = some cur ∨ cur.authorityGeneration = .first := by
  have h := (Bool.and_eq_true_iff.mp h).2
  simp only at h
  rw [ha, Option.all_some, hc.commits, Bool.not_true, Bool.false_or] at h
  obtain ⟨hlast, hcur⟩ := Bool.and_eq_true_iff.mp h
  refine ⟨of_decide_eq_true hlast, fun cur he => ?_⟩
  rw [he, Option.all_some, Bool.or_eq_true] at hcur
  exact hcur.imp eq_of_beq eq_of_beq

/-- An attempt in progress has taken the generation after the one it saw, and the
assignment it found had none later. -/
structure Took (saw : ServiceAuthorityGeneration) (a : Attempt) : Prop where
  first : 1 ≤ saw.value.toNat
  new : a.newAssign.authorityGeneration.value.toNat = saw.value.toNat + 1
  old : ∀ o, a.oldAssign = some o → o.authorityGeneration.value.toNat ≤ saw.value.toNat

/-- No current assignment is ahead of the counter. -/
def NoneAhead (s : Fabric) : Prop :=
  ∀ key cur, s.currentAssignment key = some cur →
    cur.authorityGeneration.value.toNat ≤ s.lastAuthorityGen.value.toNat

/-- Neither the assignments nor the attempts in progress are ahead. -/
structure InStep (p : SystemState × Seen) : Prop where
  first : 1 ≤ p.1.fabric.lastAuthorityGen.value.toNat
  current : NoneAhead p.1.fabric
  attempts : ∀ i a, p.1.attemptAt i = some a →
    a.stage = .validating ∨ Ended a ∨ Took (p.2 i) a

namespace InStep
variable {env : Env} {p : SystemState × Seen} {l : Label}

/-- Only a call that is about to validate sees anything. -/
theorem noteSeen_eq {σ : SystemState} {seen : Seen} {j : Nat} {a : Attempt}
    (ha : σ.attemptAt j = some a) (hst : a.stage ≠ .validating) : noteSeen σ l seen j = seen j := by
  unfold noteSeen
  split
  · rename_i i rd
    split
    · rename_i hv
      refine Function.update_of_ne (fun hij => ?_) _ _
      rw [← hij, ha] at hv
      exact hst (by simpa using hv)
    · rfl
  · rfl

theorem noteSeen_validating {σ : SystemState} {seen : Seen} {i : Nat} {rd : Readings} {a : Attempt}
    (ha : σ.attemptAt i = some a) (hst : a.stage = .validating) :
    noteSeen σ (.advance i rd) seen i = σ.fabric.lastAuthorityGen := by
  simp [noteSeen, ha, hst]

/-- What holds of the attempts of a state still holds of those that a step leaves
alone. -/
theorem attempts_kept {σ' : SystemState} (h : InStep p) {j : Nat} {a : Attempt}
    (hsame : σ'.attemptAt j = p.1.attemptAt j) (ha : σ'.attemptAt j = some a) :
    a.stage = .validating ∨ Ended a ∨ Took (noteSeen p.1 l p.2 j) a := by
  rw [hsame] at ha
  by_cases hst : a.stage = .validating
  · exact Or.inl hst
  · rw [noteSeen_eq ha hst]
    exact h.attempts j a ha

/-- A step of an attempt takes a generation when it validates, and keeps it. -/
theorem attempt_stepped (h : InStep p) {i : Nat} {rd : Readings} {a : Attempt}
    (ha : p.1.attemptAt i = some a) :
    (p.1.fabric.attemptStep rd a).2.stage = .validating ∨
      Ended (p.1.fabric.attemptStep rd a).2 ∨
      Took (noteSeen p.1 (.advance i rd) p.2 i) (p.1.fabric.attemptStep rd a).2 := by
  have hbefore : a.stage = .validating ∨ Ended a ∨ Took (noteSeen p.1 (.advance i rd) p.2 i) a :=
    h.attempts_kept rfl ha
  refine attemptStep_new ?_ ?_ hbefore
  · intro a' hst hacc
    rw [noteSeen_validating ha hst]
    refine ⟨h.first, Gen.next_value (composeAssignment_eq_ok hacc.issued).authority, fun o ho => ?_⟩
    rw [hacc.old] at ho
    exact h.current a.slot o ho
  · intro a' hsame hnew ht
    exact ⟨ht.first, hnew ▸ ht.new, hsame.old ▸ ht.old⟩

/-- The attempts after any step. -/
theorem attempts_step (h : InStep p) (hnever : ∀ cfg, l ≠ .restart cfg) :
    ∀ j a, (p.1.step env l).attemptAt j = some a →
      a.stage = .validating ∨ Ended a ∨ Took (noteSeen p.1 l p.2 j) a := by
  intro j a ha
  have heff := step_effect env p.1 l
  generalize p.1.step env l = σ' at heff ha
  cases heff with
  | applied o => exact h.attempts_kept rfl ha
  | settled _ hopens =>
    rcases hopens j with hsame | ⟨-, plan, ops, hnew⟩
    · exact h.attempts_kept hsame ha
    · rw [ha] at hnew
      cases hnew
      exact Or.inl rfl
  | stepped b hb hf hafter hothers =>
    rename_i i rd
    by_cases hij : j = i
    · subst hij
      rw [hafter] at ha
      cases ha
      exact h.attempt_stepped hb
    · exact h.attempts_kept (hothers j hij) ha
  | restarted _ _ => exact absurd rfl (hnever _)

/-- The committed generation is one more than what its call saw. -/
theorem commit_authority (h : InStep p) {i : Nat} {rd : Readings} {a : Attempt}
    {r : Fabric × Attempt} (ha : p.1.attemptAt i = some a)
    (hc : CommitStep rd.now p.1.fabric a r) : Took (p.2 i) a :=
  holds_of_acting (h.attempts i a ha) (Or.inl hc.before)

/-- What leaves the slots and the counter alone leaves no assignment ahead. -/
theorem kept {s s' : Fabric} (h : NoneAhead s) (hslots : s'.slots = s.slots)
    (hlast : s'.lastAuthorityGen = s.lastAuthorityGen) :
    s.lastAuthorityGen.value.toNat ≤ s'.lastAuthorityGen.value.toNat ∧ NoneAhead s' := by
  unfold NoneAhead currentAssignment findSlot
  rw [hslots, hlast]
  exact ⟨Nat.le_refl _, h⟩

/-- Nor does an initial assignment of the first generation. -/
theorem assigned {s s' : Fabric} {a : Assignment} (h : NoneAhead s)
    (hsound : s.slots.Sound (·.slot)) (hfirst : 1 ≤ s.lastAuthorityGen.value.toNat)
    (ha : a.authorityGeneration = .first) (hs : InitialStep s s' a) :
    s.lastAuthorityGen.value.toNat ≤ s'.lastAuthorityGen.value.toNat ∧ NoneAhead s' := by
  have hlast : s'.lastAuthorityGen = s.lastAuthorityGen := by rw [hs.fabric]
  refine ⟨Nat.le_of_eq (by rw [hlast]), fun key cur hcur => ?_⟩
  rw [(initial_current hsound hs).2] at hcur
  rw [hlast]
  split at hcur
  · cases hcur
    have hgen : (s.activated a).authorityGeneration = .first := by
      simp [activated, ha, Gen.isNull, Gen.first]
    rw [hgen]
    exact hfirst
  · exact h key cur hcur

/-- **One step**: the counter does not go back, and no assignment gets ahead of
it. -/
theorem counter_step (env : Env) (h : InStep p) (hsound : p.1.fabric.slots.Sound (·.slot))
    (hl : KeepsOrder p l) :
    p.1.fabric.lastAuthorityGen.value.toNat ≤
        (p.1.step env l).fabric.lastAuthorityGen.value.toNat ∧
      NoneAhead (p.1.step env l).fabric := by
  have heff := step_effect env p.1 l
  generalize p.1.step env l = σ' at heff
  cases heff with
  | applied o =>
    show _ ≤ (p.1.fabric.apply env o).lastAuthorityGen.value.toNat ∧ _
    by_cases hassign : ∃ now a, o = .setInitialAssignment now a
    · obtain ⟨now, a, rfl⟩ := hassign
      show _ ≤ (p.1.fabric.orSelf _).lastAuthorityGen.value.toNat ∧ NoneAhead (p.1.fabric.orSelf _)
      cases hs : p.1.fabric.setInitialAssignment now a with
      | error e => exact kept h.current rfl rfl
      | ok s' =>
        exact assigned h.current hsound h.first (eq_of_beq hl.fromFirst)
          (setInitialAssignment_eq_ok hs)
    · have hap := apply_apart env p.1.fabric o (fun now a he => hassign ⟨now, a, he⟩)
        fun blob he => by subst he; cases hl.fromFirst
      exact kept h.current hap.slots hap.lastAuthorityGen
  | settled hf _ => exact kept h.current (by rw [hf]) (by rw [hf])
  | stepped a ha hf hafter hothers =>
    rename_i i rd
    rw [hf]
    rcases attemptStep_commits rd p.1.fabric a with ⟨hslots, hlast⟩ | hc
    · exact kept h.current hslots hlast
    -- a commit writes what its call took, which is not behind the counter
    · have htook := h.commit_authority ha hc
      have hnext := (hl.commit ha hc).1
      have hlast : (p.1.fabric.attemptStep rd a).1.lastAuthorityGen =
          a.newAssign.authorityGeneration := by rw [hc.fabric]; rfl
      unfold NoneAhead
      rw [hlast, htook.new]
      refine ⟨hnext, fun key cur hcur => ?_⟩
      rw [hc.fabric, commit_current hsound] at hcur
      split at hcur
      · cases hcur
        exact Nat.le_of_eq htook.new
      · exact Nat.le_trans (h.current key cur hcur) hnext
  | restarted _ _ => cases hl.fromFirst

theorem reachable (h : Transition.Reachable (observed env) KeepsOrder p) : InStep p := by
  refine h.invariant (P := InStep) ?_ fun p l hr hp hl => ?_
  · rintro ⟨σ, seen⟩ ⟨⟨cfg, rfl⟩, -⟩
    refine ⟨Nat.le_refl 1, fun key cur hcur => ?_, fun i a ha => ?_⟩
    · simp [currentAssignment, findSlot, IndexedVec.find] at hcur
    · simp [SystemState.attemptAt] at ha
  · obtain ⟨hle, hcur⟩ := hp.counter_step env (slots_sound hr.fst) hl
    refine ⟨Nat.le_trans hp.first hle, hcur, ?_⟩
    exact hp.attempts_step fun cfg he => by subst he; cases hl.fromFirst

end InStep

/-- **Authority generations move forward.**  In every run of a fabric that is never
loaded, with initial assignments of the first generation and commits in order: the
counter never goes back, and every commit has a greater generation than the
assignment it replaces. -/
theorem authority_advances (env : Env) {p : SystemState × Seen}
    (h : Transition.Reachable (observed env) KeepsOrder p) {l : Label} (hl : KeepsOrder p l) :
    p.1.fabric.lastAuthorityGen.value ≤ (p.1.step env l).fabric.lastAuthorityGen.value ∧
      ∀ i a new, JustCompleted env p.1 l i a → a.result.committedAssignment = some new →
        ∀ d, p.1.fabric.replacedBy a = some d →
          d.authorityGeneration.value < new.authorityGeneration.value := by
  have hin := InStep.reachable h
  refine ⟨UInt64.le_iff_toNat_le.mpr (hin.counter_step env (slots_sound h.fst) hl).1, ?_⟩
  intro i a new hdone hnew d hd
  obtain ⟨rd, c, a0, rfl, hc, ha0, hcommit, rfl, -⟩ := hdone.commit
  have ha : p.1.attemptAt i = some a0 := by rw [SystemState.attemptAt, hc, Option.bind_some, ha0]
  have htook := hin.commit_authority ha hcommit
  rw [hcommit.committed] at hnew
  cases hnew
  rw [UInt64.lt_iff_toNat_lt]
  show _ < a0.newAssign.authorityGeneration.value.toNat
  rw [htook.new, Nat.lt_succ_iff]
  rw [replacedBy, hcommit.same.slot, hcommit.same.old] at hd
  cases hcur : p.1.fabric.currentAssignment a0.slot with
  | none =>
    rw [hcur] at hd
    exact htook.old d hd
  | some cur =>
    rw [hcur] at hd
    cases hd
    rcases (hl.commit ha hcommit).2 d hcur with hold | hfirst
    · exact htook.old d hold
    · rw [hfirst]
      exact htook.first

namespace Reference

/-- A second slot of the service. -/
def otherSlot : ServiceSlotKey := ⟨⟨1⟩, ⟨2⟩⟩

def otherAssignment : Assignment :=
  { id := ⟨2⟩, slot := otherSlot, target := ⟨1⟩, workerBoot := ⟨12⟩ }

/-- The deployment with both slots and a third target. -/
def twoSlots : List Label :=
  setup.map .op ++
    [.op (.setInitialAssignment 0 otherAssignment), .op (.registerTarget ⟨3⟩ []),
      .op (.publishCandidateFacts 0 (facts 3 33))]

/-- The plan that a state makes for a slot. -/
def planFor (σ : SystemState) (key : ServiceSlotKey) : FailoverPlan :=
  match (σ.fabric.planFailover env.rank key).2 with
  | .ok (some p) => p
  | _ => {}

/-- A call for the first slot validates; then two calls commit on the second slot;
then the first call goes on, up to its commit. -/
def overtaken : List Label :=
  let σ0 := (machine env).run { fabric := {} } twoSlots
  let first := twoSlots ++ [.beginPlan (planFor σ0 slot) ops, .advance 0 {}]
  let second := first ++ callOf 1 (planFor ((machine env).run { fabric := {} } first) otherSlot)
  let third := second ++ callOf 2 (planFor ((machine env).run { fabric := {} } second) otherSlot)
  third ++ List.replicate 17 (.advance 0 {})

/-- The attempt has committed. -/
def committedSome (a : Attempt) : Bool := a.result.committedAssignment.isSome

end Reference

open Reference in
/-- The first cutover of the reference deployment. -/
theorem authority_advances_reference :
    let labels := setup.map .op ++ cutover deployed.fabric
    let p := (observed env).run ({ fabric := {} }, fun _ => .first) labels
    ∃ a new, JustCompleted env p.1 lastStep 0 a ∧ a.result.committedAssignment = some new ∧
      (∀ d, p.1.fabric.replacedBy a = some d →
        d.authorityGeneration.value < new.authorityGeneration.value) ∧
      p.1.fabric.lastAuthorityGen.value ≤ (p.1.step env lastStep).fabric.lastAuthorityGen.value := by
  intro labels p
  have hreach : Transition.Reachable (observed env) KeepsOrder p :=
    Transition.Reachable.run (b := keepsOrder) labels (.initial ⟨⟨{}, rfl⟩, rfl⟩) (by decide +kernel)
  have hlast : KeepsOrder p lastStep := by
    show keepsOrder p lastStep = true
    decide +kernel
  obtain ⟨a, hdone, ht⟩ := justCompleted_of_decide env p.1 lastStep 0 committedSome
    (by decide +kernel)
  obtain ⟨new, hnew⟩ := Option.isSome_iff_exists.mp ht
  obtain ⟨hle, hgreater⟩ := authority_advances env hreach hlast
  exact ⟨a, new, hdone, hnew, hgreater 0 a new hdone hnew, hle⟩

open Reference in
/-- **The counter goes back.**  Two commits on another slot come between a call's
validation and its commit: the commit takes the counter from 3 to 2. -/
theorem authority_goes_back :
    ¬ ∀ σ, Transition.Reachable (machine env) (fun _ l => fromFirst l = true) σ →
      ∀ l, fromFirst l = true →
        σ.fabric.lastAuthorityGen.value ≤ (σ.step env l).fabric.lastAuthorityGen.value := by
  intro h
  have hreach : Transition.Reachable (machine env) (fun _ l => fromFirst l = true)
      ((machine env).run { fabric := {} } overtaken) :=
    Transition.Reachable.run (b := fun _ l => fromFirst l) overtaken (.initial ⟨{}, rfl⟩)
      (by decide +kernel)
  exact absurd (h _ hreach lastStep rfl) (by decide +kernel)

end FailoverFabric
