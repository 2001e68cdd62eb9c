import FailoverFabric.Fabric.Rebuild
import FailoverFabric.MachineSteps

/-! # The checkpoint file and the commit

A call of `execute_plan` writes the checkpoint file at its milestones, the last
time before it verifies; the commit that follows is written nowhere.  So the file
that a completed call leaves behind carries the authority generation from before
the commit (`Logged`), and a fresh fabric that loads it has a smaller one than the
committed assignment: no completed call is durable (`completed_not_durable`).
-/
namespace FailoverFabric

/-- The files after an attempt's writes. -/
def diskAfter (disk : Text → Option (List UInt8)) (written : List (Text × List UInt8)) :
    Text → Option (List UInt8) :=
  written.foldl (fun disk w => Function.update disk w.1 (some w.2)) disk

/-- A path that every write went to holds one of the writes. -/
theorem diskAfter_mem (disk : Text → Option (List UInt8)) {written : List (Text × List UInt8)}
    {path : Text} (hne : written ≠ []) (h : ∀ w ∈ written, w.1 = path) :
    ∃ w ∈ written, diskAfter disk written path = some w.2 := by
  obtain ⟨front, last, rfl⟩ := (List.eq_nil_or_concat written).resolve_left hne
  have hmem : last ∈ front.concat last := by simp
  refine ⟨last, hmem, ?_⟩
  rw [diskAfter, List.concat_eq_append, List.foldl_append, List.foldl_cons, List.foldl_nil,
    h last hmem, Function.update_self]

/-- **A durable commit**: a fresh fabric that loads the file at the path has the
committed assignment as the slot's current one, and an authority generation that
is no smaller than the committed one. -/
def Durable (ord : Persistence.CallOrders) (cfg : RuntimeConfig) (file : Option (List UInt8))
    (slot : ServiceSlotKey) (new : Assignment) : Prop :=
  ∃ blob loaded cur, file = some blob ∧ Fabric.load ord { cfg := cfg } blob = .ok loaded ∧
    loaded.currentAssignment slot = some cur ∧ cur.id = new.id ∧
    cur.generation = new.generation ∧ cur.target = new.target ∧
    new.authorityGeneration.value ≤ loaded.lastAuthorityGen.value

namespace Fabric
open Persistence

/-- A loaded file carries the authority generation of the state that was saved. -/
theorem load_save_authority {ord : CallOrders} {s fresh loaded : Fabric} {blob : List UInt8}
    (hs : s.save = .ok blob) (hl : load ord fresh blob = .ok loaded) :
    loaded.lastAuthorityGen = s.lastAuthorityGen := by
  obtain ⟨snap, hd, rfl⟩ := load_eq_ok.mp hl
  show snap.lastAuthorityGen = _
  rw [(decode_save hs hd).1]
  rfl

/-! ## What an attempt writes -/

/-- A step writes nothing, or it is a checkpoint's save of the present state. -/
theorem attemptStep_written (rd : Readings) (s : Fabric) (a : Attempt) :
    (s.attemptStep rd a).2.written = a.written ∨
      ∃ blob, s.save = .ok blob ∧
        (s.attemptStep rd a).2.written = a.written ++ [(s.checkpointPath, blob)] := by
  unfold attemptStep
  cases hst : a.stage with
  | validating =>
    left
    rcases validateAttempt_cases s a with ⟨hacc, -⟩ | ⟨⟨_, _, h⟩, -⟩ | ⟨⟨_, h⟩, -⟩
    · exact hacc.written
    · exact h ▸ rfl
    · exact h ▸ rfl
  | saving m =>
    simp only [saveCheckpoint]
    split
    · exact Or.inl rfl
    split
    · exact Or.inl rfl
    · exact Or.inl rfl
    · rename_i blob hsave _
      exact Or.inr ⟨blob, hsave, rfl⟩
  | testing m =>
    left
    simp only [testBarrier]
    split <;> rfl
  | fencing =>
    left
    simp only [fenceStep]
    split_ifs <;> rfl
  | activating =>
    left
    simp only [activateStep]
    split <;> rfl
  | installing =>
    left
    simp only [installStep]
    split <;> rfl
  | verifying =>
    left
    simp only [verifyStep]
    split_ifs <;> rfl
  | _ => exact Or.inl rfl

/-- The stages before the first save. -/
def unwritten (st : Stage) : Bool :=
  st == .validating || st == .recording .intentOnly || st == .saving .intentOnly

/-- **What is on record of an attempt** that began in `s0`: the authority
generation is that of `s0` until it commits, every file it wrote carries that
generation, and it has written one once it is past its first save. -/
structure Logged (s0 s : Fabric) (a : Attempt) : Prop where
  path : s.checkpointPath = s0.checkpointPath
  authority : a.Completed ∨ s.lastAuthorityGen = s0.lastAuthorityGen
  issued : Issued a → s0.lastAuthorityGen.next = .ok a.newAssign.authorityGeneration
  committed : a.Completed → a.result.committedAssignment = some a.newAssign
  written : ∀ w ∈ a.written, w.1 = s0.checkpointPath ∧
    ∃ s' : Fabric, s'.save = .ok w.2 ∧ s'.lastAuthorityGen = s0.lastAuthorityGen
  reached : a.written ≠ [] ∨ unwritten a.stage = true ∨ Ended a ∧ ¬ a.Completed

theorem Logged.begin (s0 : Fabric) (plan : FailoverPlan) (ops : CutoverOps) :
    Logged s0 s0 { plan := plan, ops := ops } :=
  ⟨rfl, Or.inr rfl, fun hi => absurd rfl hi.1, fun hc => absurd hc.1 nofun, fun _ hw => (nomatch hw),
    Or.inr (Or.inl rfl)⟩

/-- The first save of a call with a path and a working disk writes. -/
theorem saveCheckpoint_reached {rd : Readings} {s : Fabric} {m : Milestone} {a : Attempt}
    (hpath : s.checkpointPath ≠ []) (hdisk : rd.disk = none) :
    (s.saveCheckpoint rd m a).written ≠ [] ∨
      Ended (s.saveCheckpoint rd m a) ∧ ¬ (s.saveCheckpoint rd m a).Completed := by
  unfold saveCheckpoint
  rw [if_neg (by simpa using hpath), hdisk]
  cases s.save with
  | error e => exact Or.inr ⟨Or.inr ⟨e, rfl⟩, fun hc => by cases hc.1⟩
  | ok blob => exact Or.inl (by simp)

/-- A step from before the first save. -/
theorem unwritten_step {rd : Readings} {s : Fabric} {a : Attempt} (hpath : s.checkpointPath ≠ [])
    (hdisk : rd.disk = none) (h : unwritten a.stage = true) :
    (s.attemptStep rd a).2.written ≠ [] ∨ unwritten (s.attemptStep rd a).2.stage = true ∨
      Ended (s.attemptStep rd a).2 ∧ ¬ (s.attemptStep rd a).2.Completed := by
  simp only [unwritten, Bool.or_eq_true, beq_iff_eq] at h
  rcases h with (hst | hst) | hst
  · rw [attemptStep_validating hst]
    rcases validateAttempt_cases s a with ⟨hacc, -⟩ | ⟨⟨_, _, hr⟩, -⟩ | ⟨⟨e, hr⟩, -⟩
    · exact Or.inr (Or.inl (by rw [hacc.stage]; rfl))
    · rw [hr]
      exact Or.inr (Or.inr ⟨Or.inl rfl, fun hc => by cases hc.2⟩)
    · rw [hr]
      exact Or.inr (Or.inr ⟨Or.inr ⟨e, rfl⟩, fun hc => by cases hc.1⟩)
  · refine Or.inr (Or.inl ?_)
    simp only [attemptStep, hst]
    rfl
  · simp only [attemptStep, hst]
    exact (saveCheckpoint_reached hpath hdisk).imp_right Or.inr

/-- One step keeps the record. -/
theorem Logged.step {rd : Readings} {s0 s : Fabric} {a : Attempt} (h : Logged s0 s a)
    (hpath : s0.checkpointPath ≠ []) (hdisk : rd.disk = none) :
    Logged s0 (s.attemptStep rd a).1 (s.attemptStep rd a).2 := by
  by_cases hend : Ended a
  · rw [attemptStep_ended hend]
    exact h
  have hnot : ¬ a.Completed := fun hc => hend (Or.inl hc.1)
  have hauth : s.lastAuthorityGen = s0.lastAuthorityGen := h.authority.resolve_left hnot
  refine ⟨?_, ?_, fun hi => ?_, fun hc => ?_, fun w hw => ?_, ?_⟩
  · rw [(attemptStep_confined rd s a).checkpointPath, h.path]
  · rcases attemptStep_commits rd s a with ⟨-, hgen⟩ | hc
    · exact Or.inr (hgen.trans hauth)
    · exact Or.inl ⟨hc.stage, hc.state⟩
  · rcases attemptStep_issue rd s a with ⟨-, hacc, -, -⟩ | ⟨-, -, hno, -, -⟩ |
      ⟨-, hissued, -, -, hnew, -, -⟩ | ⟨hc, -⟩
    · rw [← hauth]
      exact (composeAssignment_eq_ok hacc.issued).authority
    · exact absurd hi hno
    · rw [hnew]
      exact h.issued (hissued hi)
    · rw [hc.new]
      exact h.issued hc.issued
  · have hcommit := (attemptStep_completed hc).resolve_left hnot
    rw [hcommit.committed, hcommit.new]
  · rcases attemptStep_written rd s a with hwr | ⟨blob, hsave, hwr⟩
    · exact h.written w (hwr ▸ hw)
    · rw [hwr] at hw
      rcases List.mem_append.mp hw with hw | hw
      · exact h.written w hw
      · rw [List.mem_singleton] at hw
        subst hw
        exact ⟨h.path, s, hsave, hauth⟩
  · rcases h.reached with hne | hun | ⟨he, -⟩
    · rcases attemptStep_written rd s a with hwr | ⟨blob, -, hwr⟩
      · exact Or.inl (hwr ▸ hne)
      · exact Or.inl (by rw [hwr]; simp)
    · exact unwritten_step (h.path ▸ hpath) hdisk hun
    · exact absurd he hend

/-- The whole call keeps it. -/
theorem Logged.run {rd : Nat → Readings} {s0 s : Fabric} {a : Attempt} (h : Logged s0 s a)
    (hpath : s0.checkpointPath ≠ []) (hdisk : ∀ n, (rd n).disk = none) (n : Nat) :
    Logged s0 (runAttempt rd n s a).1 (runAttempt rd n s a).2 := by
  induction n generalizing s a with
  | zero => exact h
  | succ n ih => exact ih (h.step hpath (hdisk n))

/-- **What a completed call leaves on disk**: a file that carries the authority
generation from before the call. -/
theorem executePlan_file {rd : Nat → Readings} {s : Fabric} {plan : FailoverPlan} {ops : CutoverOps}
    (disk : Text → Option (List UInt8)) (hpath : s.checkpointPath ≠ [])
    (hdisk : ∀ n, (rd n).disk = none) (hdone : (executePlan rd s plan ops).2.Completed) :
    ∃ blob, diskAfter disk (executePlan rd s plan ops).2.written s.checkpointPath = some blob ∧
      ∃ s' : Fabric, s'.save = .ok blob ∧ s'.lastAuthorityGen = s.lastAuthorityGen := by
  have hlog := (Logged.begin s plan ops).run hpath hdisk 19
  have hne : (executePlan rd s plan ops).2.written ≠ [] := by
    rcases hlog.reached with hne | hun | ⟨-, hnot⟩
    · exact hne
    · change unwritten (executePlan rd s plan ops).2.stage = true at hun
      rw [hdone.1] at hun
      cases hun
    · exact absurd hdone hnot
  obtain ⟨w, hw, hfile⟩ := diskAfter_mem disk hne fun w hw => (hlog.written w hw).1
  exact ⟨w.2, hfile, (hlog.written w hw).2⟩

/-- The committed assignment has the next authority generation. -/
theorem executePlan_authority {rd : Nat → Readings} {s : Fabric} {plan : FailoverPlan}
    {ops : CutoverOps} (hpath : s.checkpointPath ≠ []) (hdisk : ∀ n, (rd n).disk = none)
    (hdone : (executePlan rd s plan ops).2.Completed) {new : Assignment}
    (hnew : (executePlan rd s plan ops).2.result.committedAssignment = some new) :
    s.lastAuthorityGen.next = .ok new.authorityGeneration := by
  have hlog := (Logged.begin s plan ops).run hpath hdisk 19
  have heq : some new = some (executePlan rd s plan ops).2.newAssign :=
    hnew.symm.trans (hlog.committed hdone)
  rw [Option.some.inj heq]
  exact hlog.issued (.of_completed hdone)

/-- The file that a completed call leaves is older than its commit. -/
theorem file_older {rd : Nat → Readings} {s fresh loaded : Fabric} {plan : FailoverPlan}
    {ops : CutoverOps} {ord : CallOrders} {disk : Text → Option (List UInt8)} {blob : List UInt8}
    {new : Assignment} (hpath : s.checkpointPath ≠ []) (hdisk : ∀ n, (rd n).disk = none)
    (hdone : (executePlan rd s plan ops).2.Completed)
    (hnew : (executePlan rd s plan ops).2.result.committedAssignment = some new)
    (hfile : diskAfter disk (executePlan rd s plan ops).2.written s.checkpointPath = some blob)
    (hl : load ord fresh blob = .ok loaded) :
    loaded.lastAuthorityGen.value < new.authorityGeneration.value := by
  obtain ⟨blob', hfile', s', hsave, hauth⟩ := executePlan_file disk hpath hdisk hdone
  rw [hfile] at hfile'
  cases hfile'
  -- the file is of a state before the commit, the commit of the next generation
  have hnext := Gen.next_value (executePlan_authority hpath hdisk hdone hnew)
  rw [load_save_authority hsave hl, hauth, UInt64.lt_iff_toNat_lt, hnext]
  exact Nat.lt_succ_self _

/-- **No completed call is durable.**  With a checkpoint path and a working disk,
for every state, plan and outcome of the effects: the file that a completed call
leaves at the path does not carry its commit. -/
theorem completed_not_durable (ord : CallOrders) (cfg : RuntimeConfig)
    (disk : Text → Option (List UInt8)) (rd : Nat → Readings) (s : Fabric) (plan : FailoverPlan)
    (ops : CutoverOps) (hpath : s.checkpointPath ≠ []) (hdisk : ∀ n, (rd n).disk = none)
    (hdone : (executePlan rd s plan ops).2.Completed) (new : Assignment)
    (hnew : (executePlan rd s plan ops).2.result.committedAssignment = some new) :
    ¬ Durable ord cfg
      (diskAfter disk (executePlan rd s plan ops).2.written s.checkpointPath) plan.slot new := by
  rintro ⟨blob, loaded, cur, hfile, hl, -, -, -, -, hle⟩
  exact absurd hle (UInt64.not_le.mpr (file_older hpath hdisk hdone hnew hfile hl))

end Fabric

namespace Reference

/-- The reference deployment with a checkpoint path. -/
def checkpointing : Fabric := after (setup ++ [.setCheckpointPath (text "checkpoint")])

/-- A whole call on it. -/
def completedCall : Attempt :=
  (checkpointing.executePlan (fun _ => {}) (planOf checkpointing) ops).2

/-- What the call committed. -/
def committedThere : Assignment := Fabric.committed completedCall

theorem completedCall_committed :
    completedCall.Completed ∧ completedCall.result.committedAssignment = some committedThere := by
  decide +kernel

end Reference

open Reference in
/-- A completed call of the reference deployment is not durable. -/
theorem completed_not_durable_reference :
    completedCall.Completed ∧
      ¬ Durable {} {} (diskAfter (fun _ => none) completedCall.written (text "checkpoint"))
        (planOf checkpointing).slot committedThere :=
  ⟨completedCall_committed.1, Fabric.completed_not_durable {} {} (fun _ => none) (fun _ => {})
    checkpointing (planOf checkpointing) ops (by decide +kernel) (fun _ => rfl)
    completedCall_committed.1 committedThere completedCall_committed.2⟩

open Reference in
/-- **A committed recovery can be lost.**  A call of the reference deployment
completes, and the file at the checkpoint path does not carry its commit. -/
theorem committed_recovery_lost :
    ¬ ∀ (s : Fabric) (plan : FailoverPlan) (ops : CutoverOps), s.checkpointPath ≠ [] →
      (s.executePlan (fun _ => {}) plan ops).2.Completed → ∀ new,
        (s.executePlan (fun _ => {}) plan ops).2.result.committedAssignment = some new →
          Durable {} {} (diskAfter (fun _ => none) (s.executePlan (fun _ => {}) plan ops).2.written
            s.checkpointPath) plan.slot new := by
  intro h
  obtain ⟨blob, loaded, cur, hfile, hl, -, -, -, -, hle⟩ :=
    h checkpointing (planOf checkpointing) ops (by decide +kernel) completedCall_committed.1
      committedThere completedCall_committed.2
  have hlt := Fabric.file_older (by decide +kernel) (fun _ => rfl) completedCall_committed.1
    completedCall_committed.2 hfile hl
  exact absurd hle (UInt64.not_le.mpr hlt)

end FailoverFabric
