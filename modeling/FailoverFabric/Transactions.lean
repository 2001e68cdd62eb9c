import FailoverFabric.Generations

/-! # The cutover record and the attempts it speaks of

One record of the fabric, `hasTxn` with its milestone, serves the attempts of all
slots.  Every checkpoint sets it, only a commit clears it: an attempt whose fence
is refused, that is superseded or that throws leaves it set, and the commit of
one slot clears it for all.

`Latest` remembers, for each slot, the last call that passed validation.  In every
run whose steps are `truthful`, once all calls have ended, the record says that a
cutover is incomplete exactly when the latest attempt of some slot returned
`RECOVERY_REQUIRED` (`record_truthful`).
-/
namespace FailoverFabric
open Fabric

/-! ## Attempts and the record -/

/-- The attempt passed validation and has not ended. -/
def Attempt.inProgress (a : Attempt) : Bool :=
  match a.stage with
  | .validating | .returned | .threw _ => false
  | _ => true

/-- The attempt returned `RECOVERY_REQUIRED`. -/
def Attempt.needsRecovery (a : Attempt) : Bool :=
  a.stage == .returned && a.result.state == .recoveryRequired

/-- A record of the attempt may be there: it is in progress, or left it behind. -/
def Attempt.opensRecord (a : Attempt) : Bool := a.inProgress || a.needsRecovery

/-- A record of the attempt must be there: it is past its first checkpoint. -/
def Attempt.owesRecord (a : Attempt) : Bool :=
  a.inProgress && a.stage != .recording .intentOnly || a.needsRecovery

/-- **The attempt gives up without a word to the record**: its checkpoint cannot be
written, its fence is refused or unproven, or it is superseded. -/
def abandons (rd : Readings) (s : Fabric) (a : Attempt) : Bool :=
  match a.stage with
  | .saving _ => !s.checkpointPath.isEmpty && (!s.save.isOk || rd.disk.isSome)
  | .fencing => (fenceOutcome a).fencingUnproven || !(fenceOutcome a).applied
  | .verifying => (a.ops.verify a.route a.auth).verified && s.superseded a
  | _ => false

/-- The cutover record is as it was. -/
def SameTxn (s s' : Fabric) : Prop := s'.hasTxn = s.hasTxn ∧ s'.txnMilestone = s.txnMilestone

/-- What a step of an attempt does to the record. -/
inductive TxnEffect (rd : Readings) (s : Fabric) (a : Attempt) (r : Fabric × Attempt) : Prop
  | kept (same : SameTxn s r.1) (opens : a.opensRecord = true → r.2.opensRecord = true)
      (owes : r.2.owesRecord = true → a.owesRecord = true)
  | recorded (m : Milestone) (stage : a.stage = .recording m) (fabric : r.1 = s.recordTxn m a)
      (attempt : r.2 = { a with stage := .saving m })
  | abandoned (h : abandons rd s a = true) (same : SameTxn s r.1) (owes : r.2.owesRecord = false)
  | committed (h : CommitStep rd.now s a r)

theorem owesRecord_finish {a : Attempt} {st : AttemptState} {detail : Text}
    (h : st ≠ .recoveryRequired) : (a.finish st detail).owesRecord = false := by
  simp [Attempt.owesRecord, Attempt.inProgress, Attempt.needsRecovery, Attempt.finish, h]

theorem owesRecord_fail (a : Attempt) (e : Error) : (a.fail e).owesRecord = false := rfl

/-- An attempt that goes on to another stage past its first checkpoint. -/
theorem TxnEffect.move {rd : Readings} {s s' : Fabric} {a a' : Attempt} (hsame : SameTxn s s')
    (hopen : a'.inProgress = true) (howed : a.owesRecord = true) : TxnEffect rd s a (s', a') :=
  .kept hsame (fun _ => by simp [Attempt.opensRecord, hopen]) fun _ => howed

/-- An attempt that asks for recovery. -/
theorem TxnEffect.recover {rd : Readings} {s s' : Fabric} {a a' : Attempt} {detail : Text}
    (hsame : SameTxn s s') (howed : a.owesRecord = true) :
    TxnEffect rd s a (s', a'.finish .recoveryRequired detail) :=
  .kept hsame (fun _ => rfl) fun _ => howed

/-- Past its first checkpoint, an attempt in progress owes a record. -/
theorem owesRecord_of_stage {a : Attempt} (hp : a.inProgress = true)
    (hne : a.stage ≠ .recording .intentOnly) : a.owesRecord = true := by
  simp [Attempt.owesRecord, hp, hne]

section
variable (rd : Readings) (s : Fabric) {a : Attempt}

/-- Validation leaves the record alone, and owes none. -/
theorem validateAttempt_txn (hst : a.stage = .validating) :
    TxnEffect rd s a (s.validateAttempt a) := by
  have hclosed : a.opensRecord = false := by
    simp [Attempt.opensRecord, Attempt.inProgress, Attempt.needsRecovery, hst]
  have hcases := validateAttempt_cases s a
  refine .kept ?_ (fun h => ?_) fun h => ?_
  · rcases hcases with ⟨-, g, h⟩ | ⟨-, g, h⟩ | ⟨-, g, c, h, -⟩ <;> (rw [h]; exact ⟨rfl, rfl⟩)
  · rw [hclosed] at h
    cases h
  · rcases hcases with ⟨hacc, -⟩ | ⟨⟨_, _, he⟩, -⟩ | ⟨⟨_, he⟩, -⟩
    · simp [Attempt.owesRecord, Attempt.needsRecovery, hacc.stage] at h
    · rw [he, owesRecord_finish (by decide)] at h
      cases h
    · rw [he, owesRecord_fail] at h
      cases h

theorem saveCheckpoint_txn {m : Milestone} (hst : a.stage = .saving m)
    (howed : a.owesRecord = true) : TxnEffect rd s a (s, s.saveCheckpoint rd m a) := by
  have habandons : abandons rd s a =
      (!s.checkpointPath.isEmpty && (!s.save.isOk || rd.disk.isSome)) := by
    simp [abandons, hst]
  unfold saveCheckpoint
  split
  · exact .move ⟨rfl, rfl⟩ rfl howed
  rename_i hpath
  split
  · rename_i e hsave
    exact .abandoned (by simp [habandons, hpath, hsave, Except.isOk, Except.toBool]) ⟨rfl, rfl⟩ rfl
  · rename_i e hsave hdisk
    exact .abandoned (by simp [habandons, hpath, hdisk]) ⟨rfl, rfl⟩ rfl
  · exact .move ⟨rfl, rfl⟩ rfl howed

theorem fenceStep_txn (hst : a.stage = .fencing) (howed : a.owesRecord = true) :
    TxnEffect rd s a (s.fenceStep rd a) := by
  have habandons : abandons rd s a =
      ((fenceOutcome a).fencingUnproven || !(fenceOutcome a).applied) := by
    simp [abandons, hst]
  simp only [fenceStep]
  split_ifs with hproven happlied
  · refine .abandoned ?_ ⟨rfl, rfl⟩ (owesRecord_finish (by decide))
    rw [habandons, Bool.or_eq_true]
    exact Or.inl hproven
  · refine .abandoned ?_ ⟨rfl, rfl⟩ (owesRecord_finish (by decide))
    rw [habandons, Bool.or_eq_true, Bool.not_eq_true']
    exact Or.inr happlied
  · refine .move ?_ rfl howed
    rw [fenceOldBoot_eq]
    exact ⟨rfl, rfl⟩

theorem verifyStep_txn (hst : a.stage = .verifying) (howed : a.owesRecord = true) :
    TxnEffect rd s a (s.verifyStep rd a) := by
  rcases verifyStep_cases s rd a hst with hq | hc
  · unfold verifyStep at hq ⊢
    simp only at hq ⊢
    split_ifs at hq ⊢ with hver hsup
    · exact .recover ⟨rfl, rfl⟩ howed
    · refine .abandoned ?_ ⟨rfl, rfl⟩ (owesRecord_finish (by decide))
      rw [Bool.not_eq_false] at hver
      simp [abandons, hst, hver, hsup]
    -- a commit is not quiet
    · exact absurd (hq.completed ⟨rfl, rfl⟩).1 (by simp [hst])
  · exact .committed hc

end

/-- **A step of an attempt, inverted**, as far as the cutover record is concerned. -/
theorem attemptStep_txn (rd : Readings) (s : Fabric) (a : Attempt) :
    TxnEffect rd s a (s.attemptStep rd a) := by
  have howed : a.inProgress = true → a.stage ≠ .recording .intentOnly → a.owesRecord = true :=
    owesRecord_of_stage
  unfold Attempt.inProgress at howed
  unfold attemptStep
  cases hst : a.stage with
  | validating => exact validateAttempt_txn rd s hst
  | recording m => exact .recorded m hst rfl rfl
  | saving m => exact saveCheckpoint_txn rd s hst (howed (by rw [hst]) (by simp [hst]))
  | testing m =>
    have how := howed (by rw [hst]) (by simp [hst])
    simp only [testBarrier]
    split
    · exact .recover ⟨rfl, rfl⟩ how
    · exact .move ⟨rfl, rfl⟩ (by cases m <;> rfl) how
  | fencing => exact fenceStep_txn rd s hst (howed (by rw [hst]) (by simp [hst]))
  | authorizing => exact .move ⟨rfl, rfl⟩ rfl (howed (by rw [hst]) (by simp [hst]))
  | activating =>
    have how := howed (by rw [hst]) (by simp [hst])
    simp only [activateStep]
    split
    · exact .move ⟨rfl, rfl⟩ rfl how
    · exact .recover ⟨rfl, rfl⟩ how
  | composing => exact .move ⟨rfl, rfl⟩ rfl (howed (by rw [hst]) (by simp [hst]))
  | installing =>
    have how := howed (by rw [hst]) (by simp [hst])
    simp only [installStep]
    split
    · exact .move ⟨rfl, rfl⟩ rfl how
    · exact .recover ⟨rfl, rfl⟩ how
  | verifying => exact verifyStep_txn rd s hst (howed (by rw [hst]) (by simp [hst]))
  | returned => exact .kept ⟨rfl, rfl⟩ id id
  | threw e => exact .kept ⟨rfl, rfl⟩ id id

/-! ## The latest attempt of a slot -/

/-- For each slot, the last call whose attempt passed validation. -/
abbrev Latest := ServiceSlotKey → Option Nat

/-- The call passes validation with this step. -/
def passes (env : Env) (σ : SystemState) (i : Nat) (l : Label) : Bool :=
  match σ.attemptAt i, (σ.step env l).attemptAt i with
  | some a, some a' => a.stage == .validating && a'.stage == .recording .intentOnly
  | _, _ => false

def noteLatest (env : Env) (σ : SystemState) (l : Label) (latest : Latest) : Latest :=
  match l with
  | .advance i _ =>
    match σ.attemptAt i with
    | some a => if passes env σ i l then Function.update latest a.slot (some i) else latest
    | none => latest
  | _ => latest

/-- The runs of the system, with the latest attempts. -/
def transacted (env : Env) : Transition.System (SystemState × Latest) Label :=
  (machine env).withHistory (fun _ => none) (noteLatest env)

/-- An attempt other than number `i` is the latest of its slot and has the
property. -/
def otherLatest (p : SystemState × Latest) (q : Attempt → Bool) (i : Nat) : Bool :=
  (List.range p.1.calls.length).any fun j =>
    j != i && (p.1.attemptAt j).any fun a => p.2 a.slot == some j && q a

/-- **A step that leaves the record true.**  An attempt that gives up is not the
latest of its slot, or the record is clear, or another slot's latest attempt keeps
it open; a checkpoint is that of a latest attempt, or another one keeps the record
open; a commit finds no other attempt that needs the record; and nothing is
loaded. -/
def truthful (p : SystemState × Latest) : Label → Bool
  | .op (.load _) => false
  | .restart _ => false
  | .advance i rd =>
    match p.1.attemptAt i with
    | none => true
    | some a =>
      if abandons rd p.1.fabric a then
        p.2 a.slot != some i || !p.1.fabric.hasTxn || otherLatest p Attempt.opensRecord i
      else if p.1.fabric.commits a then !otherLatest p Attempt.owesRecord i
      else
        match a.stage with
        | .recording _ => p.2 a.slot == some i || otherLatest p Attempt.opensRecord i
        | _ => true
  | _ => true

def Truthful (p : SystemState × Latest) (l : Label) : Prop := truthful p l = true

theorem otherLatest_iff {p : SystemState × Latest} {q : Attempt → Bool} {i : Nat} :
    otherLatest p q i = true ↔
      ∃ j a, j ≠ i ∧ p.1.attemptAt j = some a ∧ p.2 a.slot = some j ∧ q a = true := by
  unfold otherLatest
  rw [List.any_eq_true]
  constructor
  · rintro ⟨j, -, h⟩
    obtain ⟨hne, h⟩ := Bool.and_eq_true_iff.mp h
    obtain ⟨a, ha, h⟩ := (Option.any_eq_true _ _).mp h
    obtain ⟨hl, hq⟩ := Bool.and_eq_true_iff.mp h
    exact ⟨j, a, by simpa using hne, ha, by simpa using hl, hq⟩
  · rintro ⟨j, a, hne, ha, hl, hq⟩
    refine ⟨j, List.mem_range.mpr ?_, ?_⟩
    · obtain ⟨c, hc, -⟩ := Option.bind_eq_some_iff.mp ha
      exact (List.getElem?_eq_some_iff.mp hc).1
    · rw [Bool.and_eq_true]
      refine ⟨by simpa using hne, (Option.any_eq_true _ _).mpr ⟨a, ha, ?_⟩⟩
      simp [hl, hq]

/-! ## The record in a run -/

/-- **The record is true**: what needs it has it, and what is there of it some
latest attempt keeps open. -/
structure RecordTrue (p : SystemState × Latest) : Prop where
  latest : ∀ key i, p.2 key = some i →
    ∃ a, p.1.attemptAt i = some a ∧ a.slot = key ∧ a.stage ≠ .validating
  milestones : ∀ i a, p.1.attemptAt i = some a → ∀ m, a.stage = .recording m →
    m ≠ .verificationComplete
  incomplete : p.1.fabric.hasTxn = true → p.1.fabric.txnMilestone ≠ .verificationComplete
  owed : ∀ i a, p.1.attemptAt i = some a → p.2 a.slot = some i → a.owesRecord = true →
    p.1.fabric.hasTxn = true
  opened : p.1.fabric.hasTxn = true →
    ∃ i a, p.1.attemptAt i = some a ∧ p.2 a.slot = some i ∧ a.opensRecord = true

/-- No checkpoint is taken at the last milestone. -/
theorem Stage.next_recording {st : Stage} {m : Milestone} (h : st.next = .recording m) :
    m ≠ .verificationComplete := by
  cases st with
  | validating | fencing | activating | installing =>
    cases h
    decide
  | testing m' => cases m' <;> cases h
  | _ => cases h

theorem attemptStep_milestone {rd : Readings} {s : Fabric} {a : Attempt} {m : Milestone}
    (h : (s.attemptStep rd a).2.stage = .recording m) : m ≠ .verificationComplete := by
  rcases attemptStep_next rd s a with hnext | hend | ⟨e, hend⟩
  · exact Stage.next_recording (hnext.symm.trans h)
  · rw [hend] at h
    cases h
  · rw [hend] at h
    cases h

/-- A step that only begins calls passes none. -/
theorem noteLatest_opens {env : Env} {σ : SystemState} {l : Label}
    (h : OpensOnly σ (σ.step env l)) (latest : Latest) : noteLatest env σ l latest = latest := by
  unfold noteLatest
  split
  · rename_i i rd
    split
    · rename_i a ha
      rw [if_neg]
      intro hp
      unfold passes at hp
      rw [ha] at hp
      rcases h i with hsame | ⟨hnone, -⟩
      · rw [hsame, ha] at hp
        simp only [Bool.and_eq_true, beq_iff_eq] at hp
        rw [hp.1] at hp
        cases hp.2
      · rw [ha] at hnone
        cases hnone
    · rfl
  · rfl

/-- The latest attempts after a step of one of them. -/
theorem noteLatest_stepped {env : Env} {σ : SystemState} {i : Nat} {rd : Readings} {a a' : Attempt}
    (ha : σ.attemptAt i = some a) (ha' : (σ.step env (.advance i rd)).attemptAt i = some a')
    (latest : Latest) :
    noteLatest env σ (.advance i rd) latest =
      if a.stage = .validating ∧ a'.stage = .recording .intentOnly then
        Function.update latest a.slot (some i) else latest := by
  unfold noteLatest passes
  simp [ha, ha']

namespace RecordTrue
variable {env : Env} {p : SystemState × Latest}

/-- A step that leaves the record and the attempts alone. -/
theorem kept {σ' : SystemState} (h : RecordTrue p) (hsame : SameTxn p.1.fabric σ'.fabric)
    (hopens : OpensOnly p.1 σ') : RecordTrue (σ', p.2) := by
  have hback : ∀ i a, p.1.attemptAt i = some a → σ'.attemptAt i = some a := by
    intro i a ha
    rcases hopens i with heq | ⟨hnone, -⟩
    · rw [heq, ha]
    · rw [ha] at hnone
      cases hnone
  refine ⟨fun key i hl => ?_, ?_, ?_, ?_, fun htxn => ?_⟩
  · obtain ⟨a, ha, hrest⟩ := h.latest key i hl
    exact ⟨a, hback i a ha, hrest⟩
  · exact hopens.attempts (P := fun _ a => ∀ m, a.stage = .recording m → m ≠ .verificationComplete)
      (fun _ _ _ => nofun) h.milestones
  · show σ'.fabric.hasTxn = true → _
    rw [hsame.1, hsame.2]
    exact h.incomplete
  · show ∀ i a, σ'.attemptAt i = some a → p.2 a.slot = some i → a.owesRecord = true →
      σ'.fabric.hasTxn = true
    rw [hsame.1]
    exact hopens.attempts (P := fun i a => p.2 a.slot = some i → a.owesRecord = true →
      p.1.fabric.hasTxn = true) (fun _ _ _ _ howed => by cases howed) h.owed
  · rw [hsame.1] at htxn
    obtain ⟨i, a, ha, hrest⟩ := h.opened htxn
    exact ⟨i, a, hback i a ha, hrest⟩

/-- The latest attempts, if attempt `a`, number `i`, steps to `a'`. -/
def latestAfter (latest : Latest) (i : Nat) (a a' : Attempt) : Latest :=
  if a.stage = .validating ∧ a'.stage = .recording .intentOnly then
    Function.update latest a.slot (some i) else latest

section
variable {latest : Latest} {i j : Nat} {a a' : Attempt} {key : ServiceSlotKey}

theorem latestAfter_of_ne (h : latestAfter latest i a a' key = some j) (hne : j ≠ i) :
    latest key = some j := by
  unfold latestAfter at h
  split at h
  · rw [Function.update_apply] at h
    split at h
    · cases h
      exact absurd rfl hne
    · exact h
  · exact h

theorem latestAfter_self (h : latestAfter latest i a a' key = some j) :
    latest key = some j ∨ key = a.slot := by
  unfold latestAfter at h
  split at h
  · rw [Function.update_apply] at h
    split at h
    · exact Or.inr ‹_›
    · exact Or.inl h
  · exact Or.inl h

theorem latestAfter_validated (h : a.stage ≠ .validating) : latestAfter latest i a a' = latest :=
  if_neg fun hv => h hv.1

theorem validated_of_opens (h : a.opensRecord = true) : a.stage ≠ .validating := by
  intro hv
  simp [Attempt.opensRecord, Attempt.inProgress, Attempt.needsRecovery, hv] at h

theorem opens_of_owes (h : a.owesRecord = true) : a.opensRecord = true := by
  unfold Attempt.owesRecord at h
  unfold Attempt.opensRecord
  rcases Bool.or_eq_true_iff.mp h with hp | hr
  · rw [(Bool.and_eq_true_iff.mp hp).1]
    rfl
  · rw [hr, Bool.or_true]

end

section
variable {i : Nat} {rd : Readings} {a : Attempt} {σ' : SystemState} {q : Fabric × Attempt}

/-- Attempt `a`, number `i`, steps, with the outcome `q`, and no other one does. -/
structure Steps (p : SystemState × Latest) (i : Nat) (a : Attempt) (q : Fabric × Attempt)
    (σ' : SystemState) : Prop where
  before : p.1.attemptAt i = some a
  after : σ'.attemptAt i = some q.2
  others : ∀ j, j ≠ i → σ'.attemptAt j = p.1.attemptAt j
  slot : q.2.slot = a.slot

/-- An attempt that keeps the record open, and is not the one that steps, still
does, unless the one that steps is now the latest. -/
theorem Steps.opened_other (hs : Steps p i a q σ')
    (h : ∃ j b, j ≠ i ∧ p.1.attemptAt j = some b ∧ p.2 b.slot = some j ∧ b.opensRecord = true) :
    ∃ j b, σ'.attemptAt j = some b ∧ latestAfter p.2 i a q.2 b.slot = some j ∧
      b.opensRecord = true := by
  obtain ⟨j, b, hne, hb, hl, hopen⟩ := h
  by_cases hpass : a.stage = .validating ∧ q.2.stage = .recording .intentOnly
  · refine ⟨i, q.2, hs.after, ?_, ?_⟩
    · rw [latestAfter, if_pos hpass, hs.slot, Function.update_self]
    · simp [Attempt.opensRecord, Attempt.inProgress, hpass.2]
  · refine ⟨j, b, by rw [hs.others j hne, hb], ?_, hopen⟩
    rw [latestAfter, if_neg hpass, hl]

/-- A latest attempt after the step is the one that stepped, or was a latest one
before. -/
theorem Steps.latest_cases (hs : Steps p i a q σ') {j : Nat} {b : Attempt}
    (hb : σ'.attemptAt j = some b) (hl : latestAfter p.2 i a q.2 b.slot = some j) :
    j = i ∧ b = q.2 ∨ j ≠ i ∧ p.1.attemptAt j = some b ∧ p.2 b.slot = some j := by
  by_cases hji : j = i
  · subst hji
    rw [hs.after] at hb
    cases hb
    exact Or.inl ⟨rfl, rfl⟩
  · exact Or.inr ⟨hji, by rw [← hs.others j hji, hb], latestAfter_of_ne hl hji⟩

/-- The latest attempts after the step are past validation. -/
theorem latest_stepped (h : RecordTrue p) (hs : Steps p i a q σ') (hstage : q.2.stage ≠ .validating)
    (key : ServiceSlotKey) (j : Nat) (hl : latestAfter p.2 i a q.2 key = some j) :
    ∃ b, σ'.attemptAt j = some b ∧ b.slot = key ∧ b.stage ≠ .validating := by
  by_cases hji : j = i
  · subst hji
    refine ⟨q.2, hs.after, ?_, hstage⟩
    rcases latestAfter_self hl with hl | hkey
    · obtain ⟨b, hb, hk, -⟩ := h.latest key j hl
      rw [hs.before] at hb
      cases hb
      exact hs.slot.trans hk
    · exact hs.slot.trans hkey.symm
  · obtain ⟨b, hb, hrest⟩ := h.latest key j (latestAfter_of_ne hl hji)
    exact ⟨b, by rw [hs.others j hji, hb], hrest⟩

theorem incomplete_stepped (h : RecordTrue p) (hs : Steps p i a q σ')
    (heff : TxnEffect rd p.1.fabric a q) (htxn : q.1.hasTxn = true) :
    q.1.txnMilestone ≠ .verificationComplete := by
  cases heff with
  | kept hsame _ _ =>
    rw [hsame.1] at htxn
    rw [hsame.2]
    exact h.incomplete htxn
  | recorded m hst hrec _ =>
    rw [hrec]
    exact h.milestones i a hs.before m hst
  | abandoned _ hsame _ =>
    rw [hsame.1] at htxn
    rw [hsame.2]
    exact h.incomplete htxn
  | committed hc =>
    rw [hc.fabric] at htxn
    cases htxn

/-- A truthful commit finds no other attempt that needs the record. -/
theorem not_owed_of_commits (hok : Truthful p (.advance i rd)) (ha : p.1.attemptAt i = some a)
    (hc : CommitStep rd.now p.1.fabric a q) : otherLatest p Attempt.owesRecord i = false := by
  have hnot : abandons rd p.1.fabric a = false := by simp [abandons, hc.before, hc.superseded]
  unfold Truthful truthful at hok
  simpa only [ha, hnot, hc.commits, Bool.false_eq_true, if_false, if_true, Bool.not_eq_true']
    using hok

/-- After a truthful step, what is owed is there. -/
theorem owed_stepped (h : RecordTrue p) (hok : Truthful p (.advance i rd)) (hs : Steps p i a q σ')
    (heff : TxnEffect rd p.1.fabric a q) {j : Nat} {b : Attempt} (hb : σ'.attemptAt j = some b)
    (hl : latestAfter p.2 i a q.2 b.slot = some j) (how : b.owesRecord = true) :
    q.1.hasTxn = true := by
  have hcases := hs.latest_cases hb hl
  cases heff with
  | kept hsame _ howes =>
    rw [hsame.1]
    rcases hcases with ⟨rfl, rfl⟩ | ⟨-, hb', hl'⟩
    · have hval := validated_of_opens (opens_of_owes (howes how))
      rw [latestAfter_validated hval, hs.slot] at hl
      exact h.owed j a hs.before hl (howes how)
    · exact h.owed j b hb' hl' how
  | recorded m _ hrec _ =>
    rw [hrec]
    rfl
  | abandoned _ hsame howes =>
    rw [hsame.1]
    rcases hcases with ⟨-, rfl⟩ | ⟨-, hb', hl'⟩
    · rw [howes] at how
      cases how
    · exact h.owed j b hb' hl' how
  | committed hc =>
    rcases hcases with ⟨-, rfl⟩ | ⟨hji, hb', hl'⟩
    · simp [Attempt.owesRecord, Attempt.inProgress, Attempt.needsRecovery, hc.stage, hc.state] at how
    · have hnone := not_owed_of_commits hok hs.before hc
      rw [otherLatest_iff.mpr ⟨j, b, hji, hb', hl', how⟩] at hnone
      cases hnone

/-- A truthful checkpoint is that of a latest attempt, or another one keeps the
record open. -/
theorem recorded_latest (hok : Truthful p (.advance i rd)) (ha : p.1.attemptAt i = some a)
    {m : Milestone} (hst : a.stage = .recording m) :
    p.2 a.slot = some i ∨ otherLatest p Attempt.opensRecord i = true := by
  have hnot : abandons rd p.1.fabric a = false := by simp [abandons, hst]
  have hnc : p.1.fabric.commits a = false := by simp [commits, hst]
  unfold Truthful truthful at hok
  simpa only [ha, hnot, hnc, hst, Bool.false_eq_true, if_false, Bool.or_eq_true, beq_iff_eq] using hok

/-- A truthful step that gives up while there is a record is not the latest of its
slot, or another one keeps the record open. -/
theorem abandoned_latest (hok : Truthful p (.advance i rd)) (ha : p.1.attemptAt i = some a)
    (hab : abandons rd p.1.fabric a = true) (htxn : p.1.fabric.hasTxn = true) :
    p.2 a.slot ≠ some i ∨ otherLatest p Attempt.opensRecord i = true := by
  unfold Truthful truthful at hok
  simpa only [ha, hab, htxn, if_true, Bool.not_true, Bool.or_false, Bool.or_eq_true, bne_iff_ne]
    using hok

/-- After a truthful step, some latest attempt keeps what is there open. -/
theorem opened_stepped (h : RecordTrue p) (hok : Truthful p (.advance i rd))
    (hs : Steps p i a q σ') (heff : TxnEffect rd p.1.fabric a q) (htxn : q.1.hasTxn = true) :
    ∃ j b, σ'.attemptAt j = some b ∧ latestAfter p.2 i a q.2 b.slot = some j ∧
      b.opensRecord = true := by
  cases heff with
  | kept hsame hopens _ =>
    rw [hsame.1] at htxn
    obtain ⟨j, b, hb, hl, hopen⟩ := h.opened htxn
    by_cases hji : j = i
    · subst hji
      rw [hs.before] at hb
      cases hb
      refine ⟨j, q.2, hs.after, ?_, hopens hopen⟩
      rw [latestAfter_validated (validated_of_opens hopen), hs.slot, hl]
    · exact hs.opened_other ⟨j, b, hji, hb, hl, hopen⟩
  | recorded m hst _ hq =>
    rcases recorded_latest hok hs.before hst with hmine | hother
    · refine ⟨i, q.2, hs.after, ?_, ?_⟩
      · rw [latestAfter_validated (by simp [hst]), hs.slot, hmine]
      · rw [hq]
        rfl
    · exact hs.opened_other (otherLatest_iff.mp hother)
  | abandoned hab hsame _ =>
    rw [hsame.1] at htxn
    rcases abandoned_latest hok hs.before hab htxn with hnot | hother
    · obtain ⟨j, b, hb, hl, hopen⟩ := h.opened htxn
      have hji : j ≠ i := by
        rintro rfl
        rw [hs.before] at hb
        cases hb
        exact hnot hl
      exact hs.opened_other ⟨j, b, hji, hb, hl, hopen⟩
    · exact hs.opened_other (otherLatest_iff.mp hother)
  | committed hc =>
    rw [hc.fabric] at htxn
    cases htxn

/-- **A truthful step of an attempt keeps the record true.** -/
theorem stepped (h : RecordTrue p) (hok : Truthful p (.advance i rd))
    (ha : p.1.attemptAt i = some a) (hfab : σ'.fabric = (p.1.fabric.attemptStep rd a).1)
    (hafter : σ'.attemptAt i = some (p.1.fabric.attemptStep rd a).2)
    (hothers : ∀ j, j ≠ i → σ'.attemptAt j = p.1.attemptAt j) :
    RecordTrue (σ', latestAfter p.2 i a (p.1.fabric.attemptStep rd a).2) := by
  have heff := attemptStep_txn rd p.1.fabric a
  have hs : Steps p i a (p.1.fabric.attemptStep rd a) σ' := by
    refine ⟨ha, hafter, hothers, ?_⟩
    rw [Attempt.slot, attemptStep_plan, Attempt.slot]
  refine ⟨h.latest_stepped hs (attemptStep_stage rd p.1.fabric a), ?_, fun htxn => ?_,
    fun j b hb hl how => ?_, fun htxn => ?_⟩
  · exact attempts_stepped hafter hothers (fun _ => attemptStep_milestone) h.milestones
  · rw [hfab] at htxn ⊢
    exact h.incomplete_stepped hs heff htxn
  · rw [hfab]
    exact h.owed_stepped hok hs heff hb hl how
  · rw [hfab] at htxn
    exact h.opened_stepped hok hs heff htxn

end

/-- Operations other than a load leave the record alone. -/
theorem apply_sameTxn {s : Fabric} {o : Op} (hload : ∀ blob, o ≠ .load blob) :
    SameTxn s (s.apply env o) := by
  by_cases hassign : ∃ now a, o = .setInitialAssignment now a
  · obtain ⟨now, a, rfl⟩ := hassign
    show SameTxn s (s.orSelf (s.setInitialAssignment now a))
    cases hs : s.setInitialAssignment now a with
    | error e => exact ⟨rfl, rfl⟩
    | ok s' =>
      show SameTxn s s'
      rw [(setInitialAssignment_eq_ok hs).fabric]
      exact ⟨rfl, rfl⟩
  · rw [apply_apart env s o (fun now a he => hassign ⟨now, a, he⟩) hload]
    exact ⟨rfl, rfl⟩

theorem step {l : Label} (h : RecordTrue p) (hok : Truthful p l) :
    RecordTrue ((transacted env).step p l) := by
  show RecordTrue (p.1.step env l, noteLatest env p.1 l p.2)
  have heff := step_effect env p.1 l
  generalize hσ' : p.1.step env l = σ' at heff
  cases heff with
  | applied o =>
    refine h.kept (apply_sameTxn fun blob he => ?_) fun _ => Or.inl rfl
    subst he
    cases hok
  | settled hf hopens =>
    rw [noteLatest_opens (hσ' ▸ hopens)]
    exact h.kept (by rw [hf]; exact ⟨rfl, rfl⟩) hopens
  | stepped a hb hf hafter hothers =>
    rw [noteLatest_stepped hb (hσ' ▸ hafter)]
    exact h.stepped hok hb hf hafter hothers
  | restarted _ _ => cases hok

theorem reachable (h : Transition.Reachable (transacted env) Truthful p) : RecordTrue p := by
  refine h.invariant (P := RecordTrue) ?_ fun p l _ hp hl => hp.step hl
  rintro ⟨σ, latest⟩ ⟨⟨cfg, rfl⟩, rfl⟩
  have hnone : ∀ i, SystemState.attemptAt { fabric := { cfg := cfg } } i = none := fun i => by
    simp [SystemState.attemptAt]
  refine ⟨fun _ _ hl => ?_, fun i a ha => ?_, fun htxn => ?_, fun i a ha => ?_, fun htxn => ?_⟩
  · cases hl
  · rw [hnone] at ha
    cases ha
  · cases htxn
  · rw [hnone] at ha
    cases ha
  · cases htxn

end RecordTrue

/-! ## The property -/

/-- Every attempt has returned or thrown. -/
def AllEnded (σ : SystemState) : Prop := ∀ i a, σ.attemptAt i = some a → Ended a

/-- The latest attempt of some slot returned `RECOVERY_REQUIRED`. -/
def RecoveryRequired (p : SystemState × Latest) : Prop :=
  ∃ key i a, p.2 key = some i ∧ p.1.attemptAt i = some a ∧ a.stage = .returned ∧
    a.result.state = .recoveryRequired

theorem needsRecovery_iff {a : Attempt} :
    a.needsRecovery = true ↔ a.stage = .returned ∧ a.result.state = .recoveryRequired := by
  simp [Attempt.needsRecovery]

/-- **The record tells the truth** in every run of truthful steps: once all calls
have ended, a cutover is incomplete exactly when the latest attempt of some slot
returned `RECOVERY_REQUIRED`. -/
theorem record_truthful (env : Env) {p : SystemState × Latest}
    (h : Transition.Reachable (transacted env) Truthful p) (hended : AllEnded p.1) :
    p.1.fabric.hasIncompleteCutover = true ↔ RecoveryRequired p := by
  have hp := RecordTrue.reachable h
  constructor
  · intro hinc
    obtain ⟨htxn, -⟩ := Bool.and_eq_true_iff.mp hinc
    obtain ⟨i, a, ha, hl, hopen⟩ := hp.opened htxn
    have hidle : a.inProgress = false := by
      rcases hended i a ha with hst | ⟨e, hst⟩ <;> simp [Attempt.inProgress, hst]
    rw [Attempt.opensRecord, hidle, Bool.false_or] at hopen
    exact ⟨a.slot, i, a, hl, ha, needsRecovery_iff.mp hopen⟩
  · rintro ⟨key, i, a, hl, ha, hrec⟩
    obtain ⟨b, hb, rfl, -⟩ := hp.latest key i hl
    rw [ha] at hb
    cases hb
    have htxn := hp.owed i a ha hl (by
      rw [Attempt.owesRecord, needsRecovery_iff.mpr hrec, Bool.or_true])
    rw [hasIncompleteCutover, htxn, Bool.true_and, bne_iff_ne]
    exact hp.incomplete htxn

/-- What all attempts have, read off the calls. -/
theorem attempts_of_calls {q : Attempt → Bool} {σ : SystemState}
    (h : (σ.calls.all fun c => c.attempt.all q) = true) {i : Nat} {a : Attempt}
    (ha : σ.attemptAt i = some a) : q a = true := by
  obtain ⟨c, hc, hca⟩ := Option.bind_eq_some_iff.mp ha
  have := List.all_eq_true.mp h c (List.mem_of_getElem? hc)
  rw [hca] at this
  exact this

theorem allEnded_of_calls {σ : SystemState} (h : (σ.calls.all fun c => c.attempt.all fun a =>
    !a.inProgress && a.stage != .validating) = true) : AllEnded σ := by
  intro i a ha
  have hq := attempts_of_calls h ha
  unfold Ended
  cases hst : a.stage <;> simp [Attempt.inProgress, hst] at hq ⊢

namespace Reference

/-- The runs of the reference deployment, with the latest attempts. -/
def recording (labels : List Label) : SystemState × Latest :=
  (transacted env).run ({ fabric := {} }, fun _ => none) labels

/-- A cutover of the reference deployment whose fence is refused. -/
def fenceRefused : List Label :=
  setup.map .op ++
    .beginPlan (planOf deployed.fabric) { ops with fenceOld := fun _ _ => {} } ::
      List.replicate 5 (.advance 0 {})

/-- A cutover of the first slot that stops once its intent is recorded, and then a
whole cutover of the second one. -/
def hiddenByCommit : List Label :=
  let σ := (machine env).run { fabric := {} } twoSlots
  twoSlots ++ [.op (.setCutoverBarrier .intentOnly), .beginPlan (planFor σ slot) ops] ++
    List.replicate 4 (.advance 0 {}) ++ [.op .clearCutoverBarrier] ++ callOf 1 (planFor σ otherSlot)

end Reference

open Reference in
/-- The cutover that stops at its intent: it is incomplete, and its attempt says
so. -/
theorem record_truthful_reference :
    let p := recording (setup.map .op ++ stoppedAtIntent)
    AllEnded p.1 ∧ p.1.fabric.hasIncompleteCutover = true ∧ RecoveryRequired p := by
  intro p
  have hreach : Transition.Reachable (transacted env) Truthful p :=
    Transition.Reachable.run (b := truthful) _ (.initial ⟨⟨{}, rfl⟩, rfl⟩) (by decide +kernel)
  have hended : AllEnded p.1 := allEnded_of_calls (by decide +kernel)
  have hinc : p.1.fabric.hasIncompleteCutover = true := by decide +kernel
  exact ⟨hended, hinc, (record_truthful env hreach hended).mp hinc⟩

open Reference in
/-- **The record lies both ways.**  A refused fence ends the attempt as `FAILED` and
leaves an incomplete cutover; and a commit on one slot hides the incomplete cutover
of another. -/
theorem record_lies :
    (¬ ∀ p, Transition.Reachable (transacted env) (fun _ _ => True) p → AllEnded p.1 →
        p.1.fabric.hasIncompleteCutover = true → RecoveryRequired p) ∧
      ¬ ∀ p, Transition.Reachable (transacted env) (fun _ _ => True) p → AllEnded p.1 →
        RecoveryRequired p → p.1.fabric.hasIncompleteCutover = true := by
  have hreach : ∀ labels, Transition.Reachable (transacted env) (fun _ _ => True)
      (recording labels) := fun labels => .run_all labels (.initial ⟨⟨{}, rfl⟩, rfl⟩)
  constructor
  · intro h
    obtain ⟨key, i, a, -, ha, hrec⟩ := h (recording fenceRefused) (hreach _)
      (allEnded_of_calls (by decide +kernel)) (by decide +kernel)
    have hnot := attempts_of_calls (q := fun a => !a.needsRecovery) (by decide +kernel) ha
    rw [needsRecovery_iff.mpr hrec] at hnot
    cases hnot
  · intro h
    have hfirst : ((recording hiddenByCommit).1.attemptAt 0).any (fun a =>
        (recording hiddenByCommit).2 slot == some 0 && a.needsRecovery) = true := by decide +kernel
    obtain ⟨a, ha, ht⟩ := (Option.any_eq_true _ _).mp hfirst
    obtain ⟨hl, hrec⟩ := Bool.and_eq_true_iff.mp ht
    have hinc := h (recording hiddenByCommit) (hreach _) (allEnded_of_calls (by decide +kernel))
      ⟨slot, 0, a, eq_of_beq hl, ha, needsRecovery_iff.mp hrec⟩
    exact absurd hinc (by decide +kernel)

end FailoverFabric
