import FailoverFabric.Fabric.Failback

/-! # What a step of a cutover can do

A step of an attempt either leaves the authority state alone (`Quiet`), or
records a proven fence, or commits.  `attemptStep_cases` says so once, with the
guards of each case; the invariants of the later modules are derived from it and
from the inversion of validation (`validateAttempt_cases`).
-/
namespace FailoverFabric

namespace Fabric

/-- `s'` differs from `s` only in counters, the attempt log, the routes and the
cutover record. -/
def Quiet (s s' : Fabric) : Prop :=
  s' = { s with
    snapshotCounter := s'.snapshotCounter
    assignmentCounter := s'.assignmentCounter
    attemptStates := s'.attemptStates
    routes := s'.routes
    hasTxn := s'.hasTxn
    txnMilestone := s'.txnMilestone
    pendingAssignment := s'.pendingAssignment
    sourceAssignment := s'.sourceAssignment
    pendingRoute := s'.pendingRoute }

namespace Quiet
variable {s s' : Fabric}

theorem refl (s : Fabric) : Quiet s s := rfl

theorem slots (h : Quiet s s') : s'.slots = s.slots := by rw [h]

theorem services (h : Quiet s s') : s'.services = s.services := by rw [h]

theorem fencedBoots (h : Quiet s s') : s'.fencedBoots = s.fencedBoots := by rw [h]

theorem lastAuthorityGen (h : Quiet s s') : s'.lastAuthorityGen = s.lastAuthorityGen := by rw [h]

theorem preferred (h : Quiet s s') : s'.preferred = s.preferred := by rw [h]

theorem lastTransition (h : Quiet s s') : s'.lastTransition = s.lastTransition := by rw [h]

end Quiet

/-! ## Validation -/

/-- What an accepted validation found and issued. -/
structure Accepted (s : Fabric) (a a' : Attempt) : Prop where
  source : sourceChanged a.plan (s.currentAssignment a.slot) = false
  old : a'.oldAssign = s.currentAssignment a.slot
  issued : s.composeAssignment s.assignmentCounter a.plan a'.selected = .ok a'.newAssign
  candidate : a'.selected ∈ s.candidatesFor a.slot
  stage : a'.stage = .recording .intentOnly
  plan : a'.plan = a.plan
  ops : a'.ops = a.ops
  written : a'.written = a.written
  service : (s.serviceForSlot a.slot).isSome
  wanted : ∃ w, a.plan.selected = some w ∧ a'.selected.facts.workerBoot = w.facts.workerBoot
  unfenced : a'.selected.facts.workerBoot ∉ s.fencedBoots

/-- A plan whose source has not changed names the old assignment. -/
theorem old_of_source {plan : FailoverPlan} {old : Option Assignment} {src : Assignment}
    (h : sourceChanged plan old = false) (hsrc : plan.sourceAssignment = some src) :
    ∃ o, old = some o ∧ o.key = src.key := by
  unfold sourceChanged at h
  rw [hsrc] at h
  cases old with
  | none => cases h
  | some o =>
    simp only [Bool.or_eq_false_iff, bne_eq_false_iff_eq] at h
    exact ⟨o, rfl, Prod.ext h.1 h.2⟩

/-- What a replacement assignment is made of. -/
structure Composed (s : Fabric) (id : AssignmentId) (plan : FailoverPlan) (c : Candidate)
    (new : Assignment) : Prop where
  id : new.id = id
  generation : s.assignmentGenCounter.next = .ok new.generation
  authority : s.lastAuthorityGen.next = .ok new.authorityGeneration
  slot : new.slot = plan.slot
  route : new.route = plan.requestedRoute
  routeGeneration : new.routeGeneration = plan.requestedRouteGeneration
  target : new.target = c.facts.target
  workerBoot : new.workerBoot = c.facts.workerBoot
  resourceClaims : new.resourceClaims.length ≤ 1
  continuityState : new.continuityState = []
  state : new.state = .authorized

theorem composeAssignment_eq_ok {s : Fabric} {id : AssignmentId} {plan : FailoverPlan}
    {c : Candidate} {new : Assignment} (h : s.composeAssignment id plan c = .ok new) :
    Composed s id plan c new := by
  unfold composeAssignment at h
  obtain ⟨g, hg, h⟩ := Codec.bind_ok_iff.mp h
  obtain ⟨authority, ha, h⟩ := Codec.bind_ok_iff.mp h
  obtain ⟨v, -, h⟩ := Codec.bind_ok_iff.mp h
  cases h
  refine ⟨rfl, hg, ha, rfl, rfl, rfl, rfl, rfl, ?_, rfl, rfl⟩
  split <;> simp

/-- What a revalidated candidate is: one of the snapshot's, on the planned boot,
and eligible. -/
theorem revalidate_eq_some {s : Fabric} {slot : ServiceSlotKey} {svc : ServiceDefinition}
    {snap : CandidateSnapshot} {wanted c : Candidate}
    (h : s.revalidate slot svc snap wanted = some c) :
    c ∈ snap.candidates ∧ c.facts.workerBoot = wanted.facts.workerBoot ∧
      c.facts.workerBoot ∉ s.fencedBoots := by
  obtain ⟨hf, helig⟩ := Option.filter_eq_some_iff.mp h
  have hmatch := List.find?_some hf
  rw [Bool.and_eq_true] at hmatch
  rw [SelectionEngine.hardEligible_fst, Option.isNone_iff_eq_none] at helig
  exact ⟨List.mem_of_find?_eq_some hf, eq_of_beq hmatch.2,
    SelectionEngine.not_fenced_of_exclusion helig⟩

theorem issueAssignment_snapshot (s : Fabric) (g : CandidateSnapshotGeneration)
    (plan : FailoverPlan) (c : Candidate) :
    issueAssignment { s with snapshotCounter := g } plan c =
      ({ s with snapshotCounter := g, assignmentCounter := s.assignmentCounter.next },
        s.composeAssignment s.assignmentCounter plan c) := rfl

/-- **Validation, inverted.**  It accepts and spends an id, refuses, or throws;
in every case nothing but counters and the attempt log changes. -/
theorem validateAttempt_cases (s : Fabric) (a : Attempt) :
    (Accepted s a (s.validateAttempt a).2 ∧ ∃ g, (s.validateAttempt a).1 =
        { s with
          snapshotCounter := g
          assignmentCounter := s.assignmentCounter.next
          attemptStates := s.attemptStates ++ [.evaluating] }) ∨
      ((∃ result detail,
          (s.validateAttempt a).2 = { a with result := result }.finish .failed detail) ∧
        ∃ g, (s.validateAttempt a).1 =
          { s with snapshotCounter := g, attemptStates := s.attemptStates ++ [.failed] }) ∨
      ((∃ e, (s.validateAttempt a).2 = a.fail e) ∧ ∃ g c, (s.validateAttempt a).1 =
          { s with snapshotCounter := g, assignmentCounter := c } ∧
        (c = s.assignmentCounter ∨ c = s.assignmentCounter.next)) := by
  unfold validateAttempt
  split
  · exact Or.inr (Or.inr ⟨⟨_, rfl⟩, s.snapshotCounter, s.assignmentCounter, rfl, Or.inl rfl⟩)
  simp only
  split
  · exact Or.inr (Or.inl ⟨⟨_, _, rfl⟩, s.snapshotCounter, rfl⟩)
  · exact Or.inr (Or.inl ⟨⟨_, _, rfl⟩, s.snapshotCounter, rfl⟩)
  rename_i svc wanted hsvc hwanted
  split
  · exact Or.inr (Or.inl ⟨⟨_, _, rfl⟩, s.snapshotCounter, rfl⟩)
  rename_i hsource
  split
  · exact Or.inr (Or.inr ⟨⟨_, rfl⟩, s.snapshotCounter, s.assignmentCounter, rfl, Or.inl rfl⟩)
  rename_i s1 snap hsnap
  obtain ⟨hs1, rfl⟩ := snapshotLocked_eq hsnap
  generalize s1.snapshotCounter = g at hs1 ⊢
  subst hs1
  split
  · exact Or.inr (Or.inl ⟨⟨_, _, rfl⟩, g, rfl⟩)
  rename_i selected hsel
  rw [issueAssignment_snapshot]
  cases hc : s.composeAssignment s.assignmentCounter a.plan selected with
  | error e =>
    exact Or.inr (Or.inr ⟨⟨e, rfl⟩, g, s.assignmentCounter.next, rfl, Or.inr rfl⟩)
  | ok new =>
    obtain ⟨hmem, hboot, hunfenced⟩ := revalidate_eq_some hsel
    refine Or.inl ⟨⟨by simpa using hsource, rfl, hc, hmem, rfl, rfl, rfl, rfl, ?_,
      ⟨wanted, hwanted, hboot⟩, hunfenced⟩, g, rfl⟩
    rw [hsvc]
    rfl

/-- What an accepted validation revalidated: the planned candidate in a fresh
snapshot. -/
theorem validateAttempt_revalidated {s : Fabric} {a : Attempt}
    (h : (s.validateAttempt a).2.stage = .recording .intentOnly) :
    ∃ svc wanted s' snap, s.serviceForSlot a.slot = some svc ∧ a.plan.selected = some wanted ∧
      s.snapshotLocked a.slot = .ok (s', snap) ∧
      s'.revalidate a.slot svc snap wanted = some (s.validateAttempt a).2.selected := by
  revert h
  unfold validateAttempt
  split
  · intro h
    cases h
  simp only
  split
  · intro h
    cases h
  · intro h
    cases h
  rename_i svc wanted hsvc hwanted
  split
  · intro h
    cases h
  split
  · intro h
    cases h
  rename_i s1 snap hsnap
  split
  · intro h
    cases h
  rename_i selected hsel
  split
  · intro h
    cases h
  · exact fun _ => ⟨svc, wanted, s1, snap, hsvc, hwanted, hsnap, hsel⟩

/-- What an accepted validation found eligible: the first candidate of the slot on
the planned target and boot. -/
theorem validateAttempt_eligible {s : Fabric} {a : Attempt}
    (h : (s.validateAttempt a).2.stage = .recording .intentOnly) :
    ∃ svc wanted, s.serviceForSlot a.slot = some svc ∧ a.plan.selected = some wanted ∧
      ((s.candidatesFor a.slot).find? fun c =>
        c.facts.target == wanted.facts.target && c.facts.workerBoot == wanted.facts.workerBoot) =
          some (s.validateAttempt a).2.selected ∧
      SelectionEngine.exclusion (s.validateAttempt a).2.selected svc s.domains
        (s.buildContext a.slot) = none := by
  obtain ⟨svc, wanted, s1, snap, hsvc, hwanted, hsnap, hsel⟩ := validateAttempt_revalidated h
  obtain ⟨hs1, rfl⟩ := snapshotLocked_eq hsnap
  generalize s1.snapshotCounter = g at hs1 hsel
  subst hs1
  obtain ⟨hfind, helig⟩ := Option.filter_eq_some_iff.mp hsel
  rw [SelectionEngine.hardEligible_fst, Option.isNone_iff_eq_none] at helig
  exact ⟨svc, wanted, hsvc, hwanted, hfind, helig⟩

theorem validateAttempt_quiet (s : Fabric) (a : Attempt) : Quiet s (s.validateAttempt a).1 := by
  rcases validateAttempt_cases s a with ⟨-, g, h⟩ | ⟨-, g, h⟩ | ⟨-, g, c, h, -⟩ <;>
    (rw [h]; rfl)

/-! ## The other steps -/

/-- The local variables of an attempt that are fixed once it is validated. -/
structure SameAttempt (a a' : Attempt) : Prop where
  plan : a'.plan = a.plan
  ops : a'.ops = a.ops
  old : a'.oldAssign = a.oldAssign
  selected : a'.selected = a.selected

theorem SameAttempt.refl (a : Attempt) : SameAttempt a a := ⟨rfl, rfl, rfl, rfl⟩

theorem SameAttempt.trans {a b c : Attempt} (h : SameAttempt a b) (h' : SameAttempt b c) :
    SameAttempt a c :=
  ⟨h'.plan.trans h.plan, h'.ops.trans h.ops, h'.old.trans h.old, h'.selected.trans h.selected⟩

theorem SameAttempt.slot {a a' : Attempt} (h : SameAttempt a a') : a'.slot = a.slot :=
  congrArg FailoverPlan.slot h.plan

/-- The old assignment was fenced: `fence_old` reported so, and proven. -/
def FenceProven (a : Attempt) (old : Assignment) : Prop :=
  a.oldAssign = some old ∧ (a.ops.fenceOld old a.selected.facts.workerBoot).applied = true ∧
    (a.ops.fenceOld old a.selected.facts.workerBoot).fencingUnproven = false

/-- A step that leaves the authority state and the replacement alone, and does
not complete the attempt. -/
structure QuietStep (s : Fabric) (a : Attempt) (r : Fabric × Attempt) : Prop where
  fabric : Quiet s r.1
  same : SameAttempt a r.2
  new : r.2.newAssign = a.newAssign
  completed : r.2.Completed → a.Completed
  stage : r.2.stage ≠ .validating

/-- A step that goes on to another stage. -/
theorem QuietStep.move {s s' : Fabric} {a a' : Attempt} (hq : Quiet s s') (hs : SameAttempt a a')
    (hn : a'.newAssign = a.newAssign) (h : a'.stage ≠ .returned ∧ a'.stage ≠ .validating) :
    QuietStep s a (s', a') := ⟨hq, hs, hn, fun hc => absurd hc.1 h.1, h.2⟩

/-- A step that ends the attempt short of completion. -/
theorem QuietStep.finish {s s' : Fabric} {a a' : Attempt} {st : AttemptState} {detail : Text}
    (hq : Quiet s s') (hs : SameAttempt a a') (hn : a'.newAssign = a.newAssign)
    (h : st ≠ .completed) : QuietStep s a (s', a'.finish st detail) :=
  ⟨hq, ⟨hs.plan, hs.ops, hs.old, hs.selected⟩, hn, fun hc => absurd hc.2 h, by simp [Attempt.finish]⟩

/-- The step that records a proven fence. -/
structure FenceStep (s : Fabric) (a : Attempt) (r : Fabric × Attempt) : Prop where
  stage : r.2.stage = .recording .oldAdmissionFenced
  same : SameAttempt a r.2
  new : r.2.newAssign = a.newAssign
  fence : ∃ old, FenceProven a old ∧ r.1 = s.addFencedBoot old.workerBoot

/-- The step that commits. -/
structure CommitStep (now : Time) (s : Fabric) (a : Attempt) (r : Fabric × Attempt) : Prop where
  before : a.stage = .verifying
  verified : (a.ops.verify a.route a.auth).verified = true
  superseded : s.superseded a = false
  fabric : r.1 = s.commit now a
  same : SameAttempt a r.2
  new : r.2.newAssign = committed a
  stage : r.2.stage = .returned
  state : r.2.result.state = .completed
  committed : r.2.result.committedAssignment = some (committed a)
  written : r.2.written = a.written

/-- The attempt's next step commits. -/
def commits (s : Fabric) (a : Attempt) : Bool :=
  a.stage == .verifying && (a.ops.verify a.route a.auth).verified && !s.superseded a

theorem CommitStep.commits {now : Time} {s : Fabric} {a : Attempt} {r : Fabric × Attempt}
    (h : CommitStep now s a r) : s.commits a = true := by
  simp [Fabric.commits, h.before, h.verified, h.superseded]

theorem saveCheckpoint_cases (s : Fabric) (rd : Readings) (m : Milestone) (a : Attempt) :
    QuietStep s a (s, s.saveCheckpoint rd m a) := by
  unfold saveCheckpoint
  split
  · exact .move rfl ⟨rfl, rfl, rfl, rfl⟩ rfl (by simp)
  split <;> exact .move rfl ⟨rfl, rfl, rfl, rfl⟩ rfl (by simp [Attempt.fail])

theorem testBarrier_cases (s : Fabric) (m : Milestone) (a : Attempt) :
    QuietStep s a (s, s.testBarrier m a) := by
  unfold testBarrier
  split
  · exact .finish rfl (.refl a) rfl (by simp)
  · exact .move rfl ⟨rfl, rfl, rfl, rfl⟩ rfl (by cases m <;> simp [afterCheckpoint])

theorem fenceStep_cases (s : Fabric) (rd : Readings) (a : Attempt) :
    QuietStep s a (s.fenceStep rd a) ∨ FenceStep s a (s.fenceStep rd a) := by
  unfold fenceStep
  simp only
  split
  · exact Or.inl (.finish rfl ⟨rfl, rfl, rfl, rfl⟩ rfl (by simp))
  rename_i hproven
  split
  · exact Or.inl (.finish rfl ⟨rfl, rfl, rfl, rfl⟩ rfl (by simp))
  rename_i happlied
  cases hold : a.oldAssign with
  | none =>
    left
    refine .move ?_ ⟨rfl, rfl, hold ▸ rfl, rfl⟩ rfl (by simp)
    simp only [fenceOldBoot]
    exact Quiet.refl s
  | some old =>
    right
    simp only [fenceOutcome, hold] at hproven happlied
    exact ⟨rfl, ⟨rfl, rfl, hold ▸ rfl, rfl⟩, rfl, old,
      ⟨hold, by simpa using happlied, by simpa using hproven⟩, by simp [fenceOldBoot]⟩

theorem activateStep_cases (s : Fabric) (a : Attempt) : QuietStep s a (s.activateStep a) := by
  unfold activateStep
  simp only
  split
  · exact .move rfl ⟨rfl, rfl, rfl, rfl⟩ rfl (by simp)
  · exact .finish rfl (.refl a) rfl (by simp)

theorem installStep_cases (s : Fabric) (a : Attempt) : QuietStep s a (s.installStep a) := by
  unfold installStep
  simp only
  split
  · exact .move rfl ⟨rfl, rfl, rfl, rfl⟩ rfl (by simp)
  · exact .finish rfl (.refl a) rfl (by simp)

theorem verifyStep_cases (s : Fabric) (rd : Readings) (a : Attempt) (h : a.stage = .verifying) :
    QuietStep s a (s.verifyStep rd a) ∨ CommitStep rd.now s a (s.verifyStep rd a) := by
  unfold verifyStep
  simp only
  split
  · exact Or.inl (.finish rfl (.refl a) rfl (by simp))
  rename_i hver
  split
  · exact Or.inl (.finish rfl (.refl a) rfl (by simp))
  rename_i hsup
  right
  exact ⟨h, by simpa using hver, by simpa using hsup, rfl, ⟨rfl, rfl, rfl, rfl⟩, rfl, rfl, rfl, rfl, rfl⟩

/-- **A step after validation, inverted.**  It is quiet, or it records a proven
fence, or it commits. -/
theorem attemptStep_cases (rd : Readings) (s : Fabric) (a : Attempt) (h : a.stage ≠ .validating) :
    QuietStep s a (s.attemptStep rd a) ∨ FenceStep s a (s.attemptStep rd a) ∨
      CommitStep rd.now s a (s.attemptStep rd a) := by
  unfold attemptStep
  cases hst : a.stage with
  | validating => exact absurd hst h
  | recording m => exact Or.inl (.move rfl ⟨rfl, rfl, rfl, rfl⟩ rfl (by simp))
  | saving m => exact Or.inl (saveCheckpoint_cases s rd m a)
  | testing m => exact Or.inl (testBarrier_cases s m a)
  | fencing => exact (fenceStep_cases s rd a).imp_right Or.inl
  | authorizing => exact Or.inl (.move rfl ⟨rfl, rfl, rfl, rfl⟩ rfl (by simp [authorizeStep]))
  | activating => exact Or.inl (activateStep_cases s a)
  | composing => exact Or.inl (.move rfl ⟨rfl, rfl, rfl, rfl⟩ rfl (by simp [composeRoute]))
  | installing => exact Or.inl (installStep_cases s a)
  | verifying => exact (verifyStep_cases s rd a hst).imp_right Or.inr
  | returned => exact Or.inl ⟨rfl, .refl a, rfl, id, by simp [hst]⟩
  | threw e => exact Or.inl ⟨rfl, .refl a, rfl, id, by simp [hst]⟩

theorem attemptStep_validating {rd : Readings} {s : Fabric} {a : Attempt}
    (h : a.stage = .validating) : s.attemptStep rd a = s.validateAttempt a := by
  simp [attemptStep, h]

/-- No step leads back to validation. -/
theorem attemptStep_stage (rd : Readings) (s : Fabric) (a : Attempt) :
    (s.attemptStep rd a).2.stage ≠ .validating := by
  by_cases hst : a.stage = .validating
  · rw [attemptStep_validating hst]
    rcases validateAttempt_cases s a with ⟨hacc, -⟩ | ⟨⟨_, _, h⟩, -⟩ | ⟨⟨_, h⟩, -⟩
    · simp [hacc.stage]
    · simp [h, Attempt.finish]
    · simp [h, Attempt.fail]
  · rcases attemptStep_cases rd s a hst with hq | hf | hc
    · exact hq.stage
    · simp [hf.stage]
    · simp [hc.stage]

/-- A step of an attempt that does not commit leaves the slots and the authority
generation alone. -/
theorem attemptStep_commits (rd : Readings) (s : Fabric) (a : Attempt) :
    ((s.attemptStep rd a).1.slots = s.slots ∧
        (s.attemptStep rd a).1.lastAuthorityGen = s.lastAuthorityGen) ∨
      CommitStep rd.now s a (s.attemptStep rd a) := by
  by_cases hst : a.stage = .validating
  · have hq := validateAttempt_quiet s a
    rw [attemptStep_validating hst]
    exact Or.inl ⟨hq.slots, hq.lastAuthorityGen⟩
  · rcases attemptStep_cases rd s a hst with hq | hf | hc
    · exact Or.inl ⟨hq.fabric.slots, hq.fabric.lastAuthorityGen⟩
    · obtain ⟨old, -, hfab⟩ := hf.fence
      rw [hfab, addFencedBoot_eq]
      exact Or.inl ⟨rfl, rfl⟩
    · exact Or.inr hc

theorem attemptStep_same (rd : Readings) (s : Fabric) (a : Attempt) (h : a.stage ≠ .validating) :
    SameAttempt a (s.attemptStep rd a).2 := by
  rcases attemptStep_cases rd s a h with hq | hf | hc
  · exact hq.same
  · exact hf.same
  · exact hc.same

/-- The plan of a call is the one it was begun with. -/
theorem attemptStep_plan (rd : Readings) (s : Fabric) (a : Attempt) :
    (s.attemptStep rd a).2.plan = a.plan := by
  by_cases hst : a.stage = .validating
  · rw [attemptStep_validating hst]
    rcases validateAttempt_cases s a with ⟨hacc, -⟩ | ⟨⟨_, _, h⟩, -⟩ | ⟨⟨_, h⟩, -⟩
    · exact hacc.plan
    · rw [h]
      rfl
    · rw [h]
      rfl
  · exact (attemptStep_same rd s a hst).plan

/-- The call has ended: it returned, or it threw. -/
def Ended (a : Attempt) : Prop := a.stage = .returned ∨ ∃ e, a.stage = .threw e

theorem attemptStep_ended {rd : Readings} {s : Fabric} {a : Attempt} (h : Ended a) :
    s.attemptStep rd a = (s, a) := by
  rcases h with h | ⟨e, h⟩ <;> simp [attemptStep, h]

theorem runAttempt_ended {rd : Nat → Readings} {s : Fabric} {a : Attempt} (n : Nat) (h : Ended a) :
    runAttempt rd n s a = (s, a) := by
  induction n with
  | zero => rfl
  | succ n ih => rw [runAttempt, attemptStep_ended h, ih]

/-- A property of the replacement that validation establishes holds of every
attempt that is past its validation and in progress. -/
theorem attemptStep_new {P : Attempt → Prop} {s : Fabric} {a : Attempt} {rd : Readings}
    (haccept : ∀ a', a.stage = .validating → Accepted s a a' → P a')
    (hsame : ∀ a', SameAttempt a a' → a'.newAssign = a.newAssign → P a → P a')
    (h : a.stage = .validating ∨ Ended a ∨ P a) :
    (s.attemptStep rd a).2.stage = .validating ∨ Ended (s.attemptStep rd a).2 ∨
      P (s.attemptStep rd a).2 := by
  by_cases hst : a.stage = .validating
  · rw [attemptStep_validating hst]
    rcases validateAttempt_cases s a with ⟨hacc, -⟩ | ⟨⟨_, _, he⟩, -⟩ | ⟨⟨e, he⟩, -⟩
    · exact Or.inr (Or.inr (haccept _ hst hacc))
    · exact Or.inr (Or.inl (Or.inl (by rw [he]; rfl)))
    · exact Or.inr (Or.inl (Or.inr ⟨e, by rw [he]; rfl⟩))
  · rcases h.resolve_left hst with hend | hP
    · rw [attemptStep_ended hend]
      exact Or.inr (Or.inl hend)
    · rcases attemptStep_cases rd s a hst with hq | hf | hc
      · exact Or.inr (Or.inr (hsame _ hq.same hq.new hP))
      · exact Or.inr (Or.inr (hsame _ hf.same hf.new hP))
      · exact Or.inr (Or.inl (Or.inl hc.stage))

/-- That property, at an attempt that is about to write its record or to commit. -/
theorem holds_of_acting {p : Prop} {a : Attempt} (h : a.stage = .validating ∨ Ended a ∨ p)
    (hst : a.stage = .verifying ∨ ∃ m, a.stage = .recording m) : p := by
  rcases h with hv | (hr | ⟨e, ht⟩) | hp
  · rcases hst with hst | ⟨m, hst⟩ <;> rw [hst] at hv <;> cases hv
  · rcases hst with hst | ⟨m, hst⟩ <;> rw [hst] at hr <;> cases hr
  · rcases hst with hst | ⟨m, hst⟩ <;> rw [hst] at ht <;> cases ht
  · exact hp

theorem fenceOldBoot_eq (s : Fabric) (a : Attempt) :
    s.fenceOldBoot a = { s with fencedBoots := (s.fenceOldBoot a).fencedBoots } := by
  unfold fenceOldBoot
  split
  · exact addFencedBoot_eq _ _
  · rfl

theorem mem_fenceOldBoot {s : Fabric} {a : Attempt} {b : WorkerBootId} :
    b ∈ (s.fenceOldBoot a).fencedBoots ↔
      b ∈ s.fencedBoots ∨ b ≠ .null ∧ a.oldAssign.map (·.workerBoot) = some b := by
  unfold fenceOldBoot
  cases a.oldAssign with
  | none => simp
  | some old => simp [mem_addFencedBoot]

theorem fenceOldBoot_mono {s : Fabric} {a : Attempt} {b : WorkerBootId} (h : b ∈ s.fencedBoots) :
    b ∈ (s.fenceOldBoot a).fencedBoots := mem_fenceOldBoot.mpr (Or.inl h)

theorem commit_routes (s : Fabric) (now : Time) (a : Attempt) :
    (s.commit now a).routes = s.routes := by
  show (s.fenceOldBoot a).routes = _
  rw [fenceOldBoot_eq]

/-! ## What no step of an attempt reaches -/

/-- `s'` differs from `s` only in what a step of a call may write. -/
def Confined (s s' : Fabric) : Prop :=
  s' = { s with
    slots := s'.slots
    routes := s'.routes
    lastAuthorityGen := s'.lastAuthorityGen
    snapshotCounter := s'.snapshotCounter
    assignmentCounter := s'.assignmentCounter
    fencedBoots := s'.fencedBoots
    attemptStates := s'.attemptStates
    lastTransition := s'.lastTransition
    failbackAttempts := s'.failbackAttempts
    hasTxn := s'.hasTxn
    txnMilestone := s'.txnMilestone
    pendingAssignment := s'.pendingAssignment
    sourceAssignment := s'.sourceAssignment
    pendingRoute := s'.pendingRoute }

namespace Confined
variable {s s' : Fabric}

theorem services (h : Confined s s') : s'.services = s.services := by rw [h]

theorem targets (h : Confined s s') : s'.targets = s.targets := by rw [h]

theorem epoch (h : Confined s s') : s'.epoch = s.epoch := by rw [h]

theorem checkpointPath (h : Confined s s') : s'.checkpointPath = s.checkpointPath := by rw [h]

theorem requests (h : Confined s s') : s'.requests = s.requests := by rw [h]

theorem preferred (h : Confined s s') : s'.preferred = s.preferred := by rw [h]

theorem manualFailbackAuthorized (h : Confined s s') :
    s'.manualFailbackAuthorized = s.manualFailbackAuthorized := by rw [h]

theorem assignmentGenCounter (h : Confined s s') :
    s'.assignmentGenCounter = s.assignmentGenCounter := by rw [h]

end Confined

theorem commit_confined (s : Fabric) (now : Time) (a : Attempt) : Confined s (s.commit now a) := by
  unfold commit
  rw [fenceOldBoot_eq]
  rfl

/-- No step of an attempt reaches further. -/
theorem attemptStep_confined (rd : Readings) (s : Fabric) (a : Attempt) :
    Confined s (s.attemptStep rd a).1 := by
  by_cases hst : a.stage = .validating
  · rw [attemptStep_validating hst, validateAttempt_quiet s a]
    rfl
  · rcases attemptStep_cases rd s a hst with hq | hf | hc
    · rw [hq.fabric]
      rfl
    · obtain ⟨old, -, hfab⟩ := hf.fence
      rw [hfab, addFencedBoot_eq]
      rfl
    · rw [hc.fabric]
      exact commit_confined s rd.now a

/-! ## What a step of an attempt saves -/

/-- What a step of an attempt does to the saved part of the state. -/
inductive SavedEffect (rd : Readings) (s : Fabric) (a : Attempt) (s' : Fabric) : Prop
  | counted (h : s' = { s with
      snapshotCounter := s'.snapshotCounter
      assignmentCounter := s'.assignmentCounter
      attemptStates := s'.attemptStates })
  | recorded (m : Milestone) (stage : a.stage = .recording m) (h : s' = s.recordTxn m a)
  | fenced (b : WorkerBootId) (h : s' = s.addFencedBoot b)
  | installed (stage : a.stage = .installing)
      (acknowledged : (a.ops.installRoute a.route s.gatewayBoot).acknowledged = true)
      (h : s' = { s with routes := (s.routes.install a.route).1 })
  | committed (h : CommitStep rd.now s a (s.attemptStep rd a))

/-- **A step of an attempt, inverted**, as far as the saved part of the state is
concerned. -/
theorem attemptStep_saved (rd : Readings) (s : Fabric) (a : Attempt) :
    SavedEffect rd s a (s.attemptStep rd a).1 := by
  cases hst : a.stage with
  | validating =>
    rw [attemptStep_validating hst]
    rcases validateAttempt_cases s a with ⟨-, g, h⟩ | ⟨-, g, h⟩ | ⟨-, g, c, h, -⟩ <;>
      exact .counted (by rw [h])
  | recording m => exact .recorded m hst (by simp [attemptStep, hst])
  | fencing =>
    simp only [attemptStep, hst, fenceStep]
    split_ifs
    · exact .counted rfl
    · exact .counted rfl
    · cases hold : a.oldAssign with
      | none => exact .counted (by simp [fenceOldBoot])
      | some old => exact .fenced old.workerBoot (by simp [fenceOldBoot])
  | activating =>
    simp only [attemptStep, hst, activateStep]
    split <;> exact .counted rfl
  | installing =>
    simp only [attemptStep, hst, installStep]
    split
    · rename_i hack
      exact .installed hst hack rfl
    · exact .counted rfl
  -- a commit is the one step here that does not go by its own branch
  | verifying =>
    rcases verifyStep_cases s rd a hst with hq | hc
    · simp only [attemptStep, hst]
      unfold verifyStep at hq ⊢
      simp only at hq ⊢
      split_ifs at hq ⊢ with hver hsup
      · exact .counted rfl
      · exact .counted rfl
      · exact absurd (hq.completed ⟨rfl, rfl⟩).1 (by simp [hst])
    · refine .committed ?_
      simpa only [attemptStep, hst] using hc
  | _ => exact .counted (by simp [attemptStep, hst])

/-- No step of an attempt takes a fence back. -/
theorem attemptStep_fences {rd : Readings} {s : Fabric} {a : Attempt} {b : WorkerBootId}
    (h : b ∈ s.fencedBoots) : b ∈ (s.attemptStep rd a).1.fencedBoots := by
  rcases attemptStep_saved rd s a with hs | ⟨m, -, hs⟩ | ⟨c, hs⟩ | ⟨-, -, hs⟩ | hc
  · rwa [hs]
  · rwa [hs]
  · rw [hs]
    exact mem_addFencedBoot_of_mem h
  · rwa [hs]
  · rw [hc.fabric]
    exact fenceOldBoot_mono h

/-- **The one step that writes a route** offers the attempt's own to the table. -/
theorem attemptStep_routes (rd : Readings) (s : Fabric) (a : Attempt) :
    (s.attemptStep rd a).1.routes = s.routes ∨
      a.stage = .installing ∧ (a.ops.installRoute a.route s.gatewayBoot).acknowledged = true ∧
        (s.attemptStep rd a).1.routes = (s.routes.install a.route).1 := by
  rcases attemptStep_saved rd s a with h | ⟨m, -, h⟩ | ⟨b, h⟩ | ⟨hst, hack, h⟩ | hc
  · exact Or.inl (by rw [h])
  · exact Or.inl (by rw [h]; rfl)
  · exact Or.inl (by rw [h, addFencedBoot_eq])
  · exact Or.inr ⟨hst, hack, by rw [h]⟩
  · left
    rw [hc.fabric, commit_routes]

/-! ## The replacement that an attempt holds -/

/-- The attempt holds a replacement: it was accepted, and is in progress or
completed. -/
def Issued (a : Attempt) : Prop := a.stage ≠ .validating ∧ (Ended a → a.Completed)

/-- What a step of an attempt does to the slots, the id counter and its
replacement. -/
inductive IssueEffect (now : Time) (s : Fabric) (a : Attempt) (r : Fabric × Attempt) : Prop
  | accepted (before : a.stage = .validating) (accepted : Accepted s a r.2)
      (slots : r.1.slots = s.slots) (counter : r.1.assignmentCounter = s.assignmentCounter.next)
  | refused (before : a.stage = .validating) (after : r.2.stage ≠ .validating)
      (notIssued : ¬ Issued r.2) (slots : r.1.slots = s.slots)
      (counter : r.1.assignmentCounter = s.assignmentCounter ∨
        r.1.assignmentCounter = s.assignmentCounter.next)
  | kept (after : r.2.stage ≠ .validating) (issued : Issued r.2 → Issued a)
      (completed : r.2.Completed → a.Completed) (same : SameAttempt a r.2)
      (new : r.2.newAssign = a.newAssign) (slots : r.1.slots = s.slots)
      (counter : r.1.assignmentCounter = s.assignmentCounter)
  | committed (commit : CommitStep now s a r) (counter : r.1.assignmentCounter = s.assignmentCounter)

theorem fenceOldBoot_counters (s : Fabric) (a : Attempt) :
    (s.fenceOldBoot a).assignmentCounter = s.assignmentCounter ∧
      (s.fenceOldBoot a).assignmentGenCounter = s.assignmentGenCounter := by
  rw [fenceOldBoot_eq]
  exact ⟨rfl, rfl⟩

/-- Ids are issued by validation only. -/
theorem attemptStep_counter (rd : Readings) (s : Fabric) (a : Attempt) (h : a.stage ≠ .validating) :
    (s.attemptStep rd a).1.assignmentCounter = s.assignmentCounter := by
  unfold attemptStep
  cases hst : a.stage with
  | validating => exact absurd hst h
  | fencing =>
    simp only [fenceStep]
    split_ifs
    · rfl
    · rfl
    · exact (fenceOldBoot_counters s _).1
  | activating =>
    simp only [activateStep]
    split <;> rfl
  | installing =>
    simp only [installStep]
    split <;> rfl
  | verifying =>
    simp only [verifyStep]
    split_ifs
    · rfl
    · rfl
    · exact (fenceOldBoot_counters s a).1
  | _ => rfl

theorem Issued.of_completed {a : Attempt} (h : a.Completed) : Issued a :=
  ⟨by rw [h.1]; exact nofun, fun _ => h⟩

/-- What commits was accepted, and is in progress. -/
theorem CommitStep.issued {now : Time} {s : Fabric} {a : Attempt} {r : Fabric × Attempt}
    (h : CommitStep now s a r) : Issued a := by
  refine ⟨by rw [h.before]; decide, fun hend => ?_⟩
  rcases hend with hend | ⟨e, hend⟩ <;> (rw [h.before] at hend; cases hend)

/-- **A step of an attempt, inverted**, as far as its replacement is concerned. -/
theorem attemptStep_issue (rd : Readings) (s : Fabric) (a : Attempt) :
    IssueEffect rd.now s a (s.attemptStep rd a) := by
  have hstage := attemptStep_stage rd s a
  by_cases hst : a.stage = .validating
  · rw [attemptStep_validating hst] at hstage ⊢
    have hslots := (validateAttempt_quiet s a).slots
    rcases validateAttempt_cases s a with ⟨hacc, g, hfab⟩ | ⟨⟨res, d, hr⟩, g, hfab⟩ |
      ⟨⟨e, hr⟩, g, c, hfab, hc⟩
    · exact .accepted hst hacc hslots (by rw [hfab])
    · refine .refused hst hstage (fun hi => ?_) hslots (Or.inl (by rw [hfab]))
      have hcomp := hi.2 (Or.inl (by rw [hr]; rfl))
      rw [hr] at hcomp
      cases hcomp.2
    · refine .refused hst hstage (fun hi => ?_) hslots ?_
      · have hcomp := hi.2 (Or.inr ⟨e, by rw [hr]; rfl⟩)
        rw [hr] at hcomp
        cases hcomp.1
      · rw [hfab]
        exact hc
  · have hcounter := attemptStep_counter rd s a hst
    have hissued : Issued (s.attemptStep rd a).2 → Issued a := by
      intro hi
      refine ⟨hst, fun hend => ?_⟩
      rw [attemptStep_ended hend] at hi
      exact hi.2 hend
    rcases attemptStep_cases rd s a hst with hq | hf | hc
    · exact .kept hstage hissued hq.completed hq.same hq.new hq.fabric.slots hcounter
    · obtain ⟨old, -, hfab⟩ := hf.fence
      refine .kept hstage hissued (fun hcomp => ?_) hf.same hf.new ?_ hcounter
      · rw [Attempt.Completed, hf.stage] at hcomp
        cases hcomp.1
      · rw [hfab, addFencedBoot_eq]
    · exact .committed hc hcounter

/-! ## What the slots' writers leave current -/

/-- A commit into an indexed record is found, and changes no other slot; one into
a slot without a record changes no lookup. -/
theorem commit_current {s : Fabric} {now : Time} {a : Attempt} (h : s.slots.Sound (·.slot))
    (key : ServiceSlotKey) :
    (s.commit now a).currentAssignment key =
      if key = a.slot ∧ s.findSlot a.slot ≠ none then some (committed a)
      else s.currentAssignment key := by
  show ((s.commitSlots a).find key).bind (·.current) = _
  unfold commitSlots
  split
  · rename_i st hst
    have hfind : s.slots.find a.slot = some st := hst
    rw [IndexedVec.find_modify h, hfind]
    by_cases hk : key = a.slot
    · simp [hk, hst, commitRecord]
    · rw [if_neg hk, if_neg fun hne => hk hne.1]
      rfl
  -- the record that is appended is not indexed, so no lookup finds it
  · rename_i hnone
    rw [IndexedVec.find_pushUnindexed h, if_neg fun hne => hne.2 hnone]
    rfl

/-- What an initial assignment does: it fills the empty record of its slot, or adds
one. -/
structure InitialStep (s s' : Fabric) (a : Assignment) : Prop where
  fabric : s' = { s with
    slots := s'.slots
    preferred := s'.preferred
    lastTransition := s'.lastTransition
    failbackAttempts := s'.failbackAttempts }
  slots : (∃ st, s.findSlot a.slot = some st ∧ st.current = none ∧ s'.slots =
      s.slots.modify a.slot fun st => { st with current := some (s.activated a) }) ∨
    s.findSlot a.slot = none ∧ s'.slots = s.slots.push a.slot ⟨a.slot, some (s.activated a), []⟩

/-- **An initial assignment, inverted.** -/
theorem setInitialAssignment_eq_ok {s s' : Fabric} {now : Time} {a : Assignment}
    (h : s.setInitialAssignment now a = .ok s') : InitialStep s s' a := by
  unfold setInitialAssignment at h
  split at h
  · cases h
  simp only at h
  split at h
  · rename_i st hst
    split at h
    · cases h
    · rename_i hcur
      cases h
      exact ⟨rfl, Or.inl ⟨st, hst, by simpa using hcur, rfl⟩⟩
  · rename_i hnone
    cases h
    exact ⟨rfl, Or.inr ⟨hnone, rfl⟩⟩

/-- An initial assignment is found, changes no other slot, and displaces
nothing. -/
theorem initial_current {s s' : Fabric} {a : Assignment} (h : s.slots.Sound (·.slot))
    (hs : InitialStep s s' a) :
    s.currentAssignment a.slot = none ∧ ∀ key, s'.currentAssignment key =
      if key = a.slot then some (s.activated a) else s.currentAssignment key := by
  rcases hs.slots with ⟨st, hst, hcur, hslots⟩ | ⟨hnone, hslots⟩
  · have hfind : s.slots.find a.slot = some st := hst
    refine ⟨by rw [currentAssignment, hst, Option.bind_some, hcur], fun key => ?_⟩
    rw [currentAssignment, findSlot, hslots, IndexedVec.find_modify h]
    split
    · rw [hfind]
      rfl
    · rfl
  · refine ⟨by rw [currentAssignment, hnone, Option.bind_none], fun key => ?_⟩
    rw [currentAssignment, findSlot, hslots, IndexedVec.find_push _ _ _ h]
    split <;> rfl

/-- The writers of slots keep the index sound. -/
theorem initial_sound {s s' : Fabric} {a : Assignment} (h : s.slots.Sound (·.slot))
    (hs : InitialStep s s' a) : s'.slots.Sound (·.slot) := by
  rcases hs.slots with ⟨-, -, -, hslots⟩ | ⟨-, hslots⟩
  · rw [hslots]
    exact h.modify a.slot fun _ => rfl
  · rw [hslots]
    exact h.push rfl

theorem commit_sound {s : Fabric} {now : Time} {a : Attempt} (h : s.slots.Sound (·.slot)) :
    (s.commit now a).slots.Sound (·.slot) := by
  show (s.commitSlots a).Sound (·.slot)
  unfold commitSlots
  split
  · exact h.modify a.slot fun _ => rfl
  · exact h.pushUnindexed _

end Fabric

end FailoverFabric
