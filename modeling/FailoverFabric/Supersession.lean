import FailoverFabric.MachineSteps
import Mathlib.Data.List.Perm.Subperm

/-! # One completion per source assignment

An attempt commits only if the assignment it set out to replace is still
current.  Ids are issued once (`Issues`), so a displaced assignment never comes
back (`Displacements`), and of the attempts that set out from one assignment at
most one commits, in every interleaving (`one_completion_per_source`).
-/
namespace FailoverFabric
open Fabric

/-- A fabric that is never loaded, with initial assignments of the first
generation. -/
def neverLoaded : Label → Bool
  | .op (.load _) => false
  | .restart _ => false
  | .op (.setInitialAssignment _ a) => a.generation == .first
  | _ => true

/-! ## The steps of such a fabric -/

/-- What a step does to the slots, the id counters and the attempts. -/
inductive LedgerEffect (σ σ' : SystemState) : Prop
  | outside (slots : σ'.fabric.slots = σ.fabric.slots)
      (counter : σ'.fabric.assignmentCounter = σ.fabric.assignmentCounter)
      (generation : σ'.fabric.assignmentGenCounter = σ.fabric.assignmentGenCounter)
      (attempts : ∀ i, σ'.attemptAt i = σ.attemptAt i ∨
        σ.attemptAt i = none ∧ ∃ plan ops, σ'.attemptAt i = some { plan := plan, ops := ops })
  | assigned (now : Time) (a : Assignment) (first : a.generation = .first)
      (fabric : σ.fabric.setInitialAssignment now a = .ok σ'.fabric) (calls : σ'.calls = σ.calls)
  | stepped (i : Nat) (rd : Readings) (a : Attempt) (before : σ.attemptAt i = some a)
      (fabric : σ'.fabric = (σ.fabric.attemptStep rd a).1)
      (after : σ'.attemptAt i = some (σ.fabric.attemptStep rd a).2)
      (others : ∀ j, j ≠ i → σ'.attemptAt j = σ.attemptAt j)

/-- **A step of a fabric that is never loaded, inverted.** -/
theorem step_ledger (env : Env) (σ : SystemState) {l : Label} (hl : neverLoaded l = true) :
    LedgerEffect σ (σ.step env l) := by
  have heff := step_effect env σ l
  generalize σ.step env l = σ' at heff
  cases heff with
  | settled hf hat => exact .outside (by rw [hf]) (by rw [hf]) (by rw [hf]) hat
  | stepped a hb hf hafter hothers => exact .stepped _ _ a hb hf hafter hothers
  | restarted _ _ => cases hl
  | applied o =>
    by_cases hassign : ∃ now a, o = .setInitialAssignment now a
    · obtain ⟨now, a, rfl⟩ := hassign
      cases h : σ.fabric.setInitialAssignment now a with
      | error e =>
        have hself : σ.fabric.apply env (.setInitialAssignment now a) = σ.fabric := by
          simp [Fabric.apply, h, orSelf]
        rw [hself]
        exact .outside rfl rfl rfl fun _ => Or.inl rfl
      | ok s' =>
        refine .assigned now a (by simpa [neverLoaded] using hl) ?_ rfl
        simp [Fabric.apply, h, orSelf]
    · have hap := apply_apart env σ.fabric o (fun now a he => hassign ⟨now, a, he⟩)
        fun blob he => by subst he; cases hl
      exact .outside hap.slots hap.assignmentCounter hap.assignmentGenCounter fun _ => Or.inl rfl

/-- A completed attempt stays as it is. -/
theorem LedgerEffect.completed {σ σ' : SystemState} (h : LedgerEffect σ σ') {i : Nat} {a : Attempt}
    (ha : σ.attemptAt i = some a) (hc : a.Completed) : σ'.attemptAt i = some a := by
  cases h with
  | outside _ _ _ hat =>
    rcases hat i with heq | ⟨hnone, -⟩
    · rw [heq, ha]
    · rw [ha] at hnone
      cases hnone
  | assigned _ _ _ _ hcalls => rw [SystemState.attemptAt, hcalls, ← ha]; rfl
  | stepped j rd b hb _ hafter hothers =>
    by_cases hij : i = j
    · subst hij
      rw [ha] at hb
      cases hb
      rw [hafter, attemptStep_ended (Or.inl hc.1)]
    · rw [hothers i hij, ha]

/-! ## Ids are issued once -/

/-- A list of distinct numbers below a bound is no longer than the bound. -/
theorem length_le_of_nodup {l : List Nat} {n : Nat} (hl : l.Nodup) (h : ∀ i ∈ l, i < n) :
    l.length ≤ n := by
  have hsub : l ⊆ List.range n := fun i hi => List.mem_range.mpr (h i hi)
  simpa using (hl.subperm hsub).length_le

/-- **The ids issued so far.**  `spent` lists the calls that each took an id: the
counter is past all issued ids, and no two calls hold the same one. -/
structure Issues (σ : SystemState) (spent : List Nat) : Prop where
  nodup : spent.Nodup
  past : ∀ i ∈ spent, ∃ a, σ.attemptAt i = some a ∧ a.stage ≠ .validating
  generation : σ.fabric.assignmentGenCounter = .first
  counter : σ.fabric.assignmentCounter.value = UInt64.ofNat (1 + spent.length)
  issued : ∀ i a, σ.attemptAt i = some a → Issued a →
    a.newAssign.generation = ⟨2⟩ ∧ a.newAssign.id.value.toNat ≤ spent.length
  distinct : ∀ i j a b, σ.attemptAt i = some a → σ.attemptAt j = some b → Issued a → Issued b →
    a.newAssign.id = b.newAssign.id → i = j

theorem attemptAt_lt {σ : SystemState} {i : Nat} {a : Attempt} (h : σ.attemptAt i = some a) :
    i < σ.calls.length := by
  obtain ⟨c, hc, -⟩ := Option.bind_eq_some_iff.mp h
  exact (List.getElem?_eq_some_iff.mp hc).1

/-- Every replacement held after the step was held before it. -/
def Inherits (σ σ' : SystemState) : Prop :=
  ∀ j a', σ'.attemptAt j = some a' → Issued a' →
    ∃ a, σ.attemptAt j = some a ∧ Issued a ∧ a'.newAssign.key = a.newAssign.key ∧ SameAttempt a a'

/-- A call past its validation stays so. -/
def StaysPast (σ σ' : SystemState) : Prop :=
  ∀ j a, σ.attemptAt j = some a → a.stage ≠ .validating →
    ∃ a', σ'.attemptAt j = some a' ∧ a'.stage ≠ .validating

theorem LedgerEffect.staysPast {σ σ' : SystemState} (h : LedgerEffect σ σ') : StaysPast σ σ' := by
  intro j a ha hst
  cases h with
  | outside _ _ _ hat =>
    rcases hat j with heq | ⟨hnone, -⟩
    · exact ⟨a, heq.trans ha, hst⟩
    · rw [ha] at hnone
      cases hnone
  | assigned _ _ _ _ hcalls => exact ⟨a, by rw [SystemState.attemptAt, hcalls]; exact ha, hst⟩
  | stepped i rd b hb _ hafter hothers =>
    by_cases hij : j = i
    · subst hij
      exact ⟨_, hafter, attemptStep_stage rd _ b⟩
    · exact ⟨a, (hothers j hij).trans ha, hst⟩

theorem inherits_outside {σ σ' : SystemState}
    (h : ∀ i, σ'.attemptAt i = σ.attemptAt i ∨
      σ.attemptAt i = none ∧ ∃ plan ops, σ'.attemptAt i = some { plan := plan, ops := ops }) :
    Inherits σ σ' := by
  intro j a' ha' hi
  rcases h j with heq | ⟨-, plan, ops, hfresh⟩
  · exact ⟨a', heq ▸ ha', hi, rfl, .refl a'⟩
  · rw [ha'] at hfresh
    cases hfresh
    exact absurd rfl hi.1

/-- The attempts after a step of one of them. -/
theorem attemptAt_stepped {σ σ' : SystemState} {i j : Nat} {a' b : Attempt}
    (hafter : σ'.attemptAt i = some a') (hothers : ∀ j, j ≠ i → σ'.attemptAt j = σ.attemptAt j)
    (hb : σ'.attemptAt j = some b) : j = i ∧ b = a' ∨ j ≠ i ∧ σ.attemptAt j = some b := by
  by_cases hj : j = i
  · subst hj
    exact Or.inl ⟨rfl, Option.some.inj (hb.symm.trans hafter)⟩
  · exact Or.inr ⟨hj, (hothers j hj).symm.trans hb⟩

/-- A step of one attempt that issues nothing. -/
theorem inherits_stepped {σ σ' : SystemState} {i : Nat} {a a' : Attempt}
    (hb : σ.attemptAt i = some a) (hafter : σ'.attemptAt i = some a')
    (hothers : ∀ j, j ≠ i → σ'.attemptAt j = σ.attemptAt j)
    (h : Issued a' → Issued a ∧ a'.newAssign.key = a.newAssign.key ∧ SameAttempt a a') :
    Inherits σ σ' := by
  intro j b hbj hi
  rcases attemptAt_stepped hafter hothers hbj with ⟨rfl, rfl⟩ | ⟨-, hbj⟩
  · exact ⟨a, hb, h hi⟩
  · exact ⟨b, hbj, hi, rfl, .refl b⟩

theorem Issues.inherit {σ σ' : SystemState} {spent spent' : List Nat} (h : Issues σ spent)
    (hin : Inherits σ σ') (hnodup : spent'.Nodup)
    (hpast : ∀ i ∈ spent', ∃ a, σ'.attemptAt i = some a ∧ a.stage ≠ .validating)
    (hgen : σ'.fabric.assignmentGenCounter = .first)
    (hcounter : σ'.fabric.assignmentCounter.value = UInt64.ofNat (1 + spent'.length))
    (hle : spent.length ≤ spent'.length) : Issues σ' spent' := by
  refine ⟨hnodup, hpast, hgen, hcounter, fun i a' ha' hi => ?_, fun i j a' b' ha' hb' hia hib heq => ?_⟩
  · obtain ⟨a, ha, hia, hkey, -⟩ := hin i a' ha' hi
    obtain ⟨hg, hid⟩ := h.issued i a ha hia
    obtain ⟨hkid, hkgen⟩ := Prod.mk.inj hkey
    exact ⟨hkgen.trans hg, by rw [hkid]; omega⟩
  · obtain ⟨a, ha, hia, hkey, -⟩ := hin i a' ha' hia
    obtain ⟨b, hb, hib, hkey', -⟩ := hin j b' hb' hib
    exact h.distinct i j a b ha hb hia hib
      ((Prod.mk.inj hkey).1.symm.trans (heq.trans (Prod.mk.inj hkey').1))

/-- One more call spends an id: the list stays distinct and below the bound. -/
theorem Issues.spend {σ σ' : SystemState} {spent : List Nat} {i : Nat} {a a' : Attempt}
    (h : Issues σ spent) (hstay : StaysPast σ σ') (hb : σ.attemptAt i = some a)
    (hst : a.stage = .validating) (hafter : σ'.attemptAt i = some a') (hst' : a'.stage ≠ .validating) :
    (i :: spent).Nodup ∧
      ∀ j ∈ i :: spent, ∃ b, σ'.attemptAt j = some b ∧ b.stage ≠ .validating := by
  constructor
  · refine List.nodup_cons.mpr ⟨fun hi => ?_, h.nodup⟩
    obtain ⟨b, hbi, hne⟩ := h.past i hi
    rw [hb] at hbi
    cases hbi
    exact hne hst
  · intro j hj
    rcases List.mem_cons.mp hj with rfl | hj
    · exact ⟨a', hafter, hst'⟩
    · obtain ⟨b, hbj, hne⟩ := h.past j hj
      exact hstay j b hbj hne

theorem next_ofNat (id : AssignmentId) (n : Nat) (h : id.value = UInt64.ofNat (1 + n)) :
    id.next.value = UInt64.ofNat (1 + (n + 1)) := by
  show id.value + 1 = _
  rw [h, ← Nat.add_assoc, UInt64.ofNat_add (1 + n) 1]
  rfl

/-- The identity of an accepted attempt's replacement. -/
theorem Issues.accepted_key {σ : SystemState} {spent : List Nat} {a a' : Attempt}
    (h : Issues σ spent) (hacc : Accepted σ.fabric a a') (hlt : spent.length + 1 < 2 ^ 64) :
    a'.newAssign.generation = ⟨2⟩ ∧ a'.newAssign.id.value.toNat = spent.length + 1 := by
  have hcomp := composeAssignment_eq_ok hacc.issued
  have hgen := hcomp.generation
  rw [h.generation, Gen.next_first] at hgen
  refine ⟨(Except.ok.inj hgen).symm, ?_⟩
  rw [hcomp.id, h.counter, UInt64.toNat_ofNat', Nat.mod_eq_of_lt (by omega)]
  omega

/-- An accepted attempt holds an id that nobody else holds. -/
theorem Issues.accept {σ σ' : SystemState} {spent : List Nat} {i : Nat} {a a' : Attempt}
    (h : Issues σ spent) (hlen : σ'.calls.length < 2 ^ 64) (hstay : StaysPast σ σ')
    (hb : σ.attemptAt i = some a) (hst : a.stage = .validating) (hafter : σ'.attemptAt i = some a')
    (hothers : ∀ j, j ≠ i → σ'.attemptAt j = σ.attemptAt j) (hacc : Accepted σ.fabric a a')
    (hgen : σ'.fabric.assignmentGenCounter = .first)
    (hcounter : σ'.fabric.assignmentCounter = σ.fabric.assignmentCounter.next) :
    Issues σ' (i :: spent) := by
  have hst' : a'.stage ≠ .validating := by
    rw [hacc.stage]
    exact fun he => (by cases he)
  obtain ⟨hnodup, hpast⟩ := h.spend hstay hb hst hafter hst'
  have hbound : spent.length + 1 ≤ σ'.calls.length :=
    length_le_of_nodup hnodup fun j hj => by
      obtain ⟨b, hbj, -⟩ := hpast j hj
      exact attemptAt_lt hbj
  obtain ⟨hnext, hid⟩ := h.accepted_key hacc (by omega)
  refine ⟨hnodup, hpast, hgen, ?_, fun j b hbj hib => ?_, fun j k b c hbj hck hib hic heq => ?_⟩
  · rw [hcounter]
    exact next_ofNat _ _ h.counter
  · rcases attemptAt_stepped hafter hothers hbj with ⟨rfl, rfl⟩ | ⟨-, hbj⟩
    · exact ⟨hnext, by rw [hid, List.length_cons]⟩
    · obtain ⟨hg, hle⟩ := h.issued j b hbj hib
      exact ⟨hg, Nat.le_succ_of_le hle⟩
  -- the new id exceeds all others; among the others nothing changed
  · rcases attemptAt_stepped hafter hothers hbj with ⟨rfl, rfl⟩ | ⟨-, hbj⟩
    · rcases attemptAt_stepped hafter hothers hck with ⟨rfl, -⟩ | ⟨-, hck⟩
      · rfl
      · have hle := (h.issued k c hck hic).2
        rw [← heq, hid] at hle
        omega
    · rcases attemptAt_stepped hafter hothers hck with ⟨rfl, rfl⟩ | ⟨-, hck⟩
      · have hle := (h.issued j b hbj hib).2
        rw [heq, hid] at hle
        omega
      · exact h.distinct j k b c hbj hck hib hic heq

/-- **Ids stay distinct.**  One step, as long as there are fewer than 2^64 calls. -/
theorem Issues.step {σ σ' : SystemState} {spent : List Nat} (h : Issues σ spent)
    (heff : LedgerEffect σ σ') (hlen : σ'.calls.length < 2 ^ 64) : ∃ spent', Issues σ' spent' := by
  have hstay := heff.staysPast
  have hpast : ∀ i ∈ spent, ∃ a, σ'.attemptAt i = some a ∧ a.stage ≠ .validating := fun i hi => by
    obtain ⟨a, ha, hne⟩ := h.past i hi
    exact hstay i a ha hne
  cases heff with
  | outside _ hcounter hgen hat =>
    exact ⟨spent, h.inherit (inherits_outside hat) h.nodup hpast (hgen.trans h.generation)
      (by rw [hcounter, h.counter]) (Nat.le_refl _)⟩
  | assigned now a _ hs hcalls =>
    have hfab := (setInitialAssignment_eq_ok hs).fabric
    have hcounter : σ'.fabric.assignmentCounter = σ.fabric.assignmentCounter := by rw [hfab]
    have hgen : σ'.fabric.assignmentGenCounter = σ.fabric.assignmentGenCounter := by rw [hfab]
    refine ⟨spent, h.inherit (inherits_outside fun i => Or.inl ?_) h.nodup hpast
      (hgen.trans h.generation) (by rw [hcounter, h.counter]) (Nat.le_refl _)⟩
    rw [SystemState.attemptAt, hcalls]
    rfl
  | stepped i rd a hb hfab hafter hothers =>
    have hgen : σ'.fabric.assignmentGenCounter = .first := by
      rw [hfab, (attemptStep_confined rd σ.fabric a).assignmentGenCounter, h.generation]
    -- only validation takes an id: it is accepted with it, or throws after taking it
    rcases attemptStep_issue rd σ.fabric a with ⟨hst, hacc, -, hcounter⟩ |
      ⟨hst, hst', hnot, -, hcounter⟩ | ⟨-, hissued, -, hsame, hnew, -, hcounter⟩ | ⟨hcommit, hcounter⟩
    · exact ⟨i :: spent, h.accept hlen hstay hb hst hafter hothers hacc hgen (hfab ▸ hcounter)⟩
    · have hin : Inherits σ σ' := inherits_stepped hb hafter hothers fun hi => absurd hi hnot
      rcases hcounter with hcounter | hcounter
      · exact ⟨spent, h.inherit hin h.nodup hpast hgen (by rw [hfab, hcounter, h.counter])
          (Nat.le_refl _)⟩
      · obtain ⟨hnodup, hpast⟩ := h.spend hstay hb hst hafter hst'
        refine ⟨i :: spent, h.inherit hin hnodup hpast hgen ?_ (Nat.le_succ _)⟩
        rw [hfab, hcounter]
        exact next_ofNat _ _ h.counter
    · refine ⟨spent, h.inherit (inherits_stepped hb hafter hothers fun hi => ?_) h.nodup hpast hgen
        (by rw [hfab, hcounter, h.counter]) (Nat.le_refl _)⟩
      exact ⟨hissued hi, by rw [hnew], hsame⟩
    · refine ⟨spent, h.inherit (inherits_stepped hb hafter hothers fun hi => ?_) h.nodup hpast hgen
        (by rw [hfab, hcounter, h.counter]) (Nat.le_refl _)⟩
      refine ⟨hcommit.issued, ?_, hcommit.same⟩
      rw [hcommit.new]
      rfl

/-! ## A displaced assignment does not come back -/

/-- The key of an initial assignment, or of the replacement of a completed call. -/
def Known (σ : SystemState) (k : AssignmentId × AssignmentGeneration) : Prop :=
  k.2 = .first ∨ ∃ m a, σ.attemptAt m = some a ∧ a.Completed ∧ a.newAssign.key = k

theorem LedgerEffect.known {σ σ' : SystemState} (h : LedgerEffect σ σ')
    {k : AssignmentId × AssignmentGeneration} (hk : Known σ k) : Known σ' k := by
  rcases hk with hfirst | ⟨m, a, ha, hc, hkey⟩
  · exact Or.inl hfirst
  · exact Or.inr ⟨m, a, h.completed ha hc, hc, hkey⟩

/-- **What was displaced.**  Every assignment that is current or was replaced is
known, and a completed call's old assignment is not current any more. -/
structure Displacements (σ : SystemState) : Prop where
  sound : σ.fabric.slots.Sound (·.slot)
  current : ∀ slot cur, σ.fabric.currentAssignment slot = some cur → Known σ cur.key
  old : ∀ i a o, σ.attemptAt i = some a → Issued a → a.oldAssign = some o →
    Known σ o.key ∧ σ.fabric.currentAssignment a.slot ≠ none
  displaced : ∀ i a o cur, σ.attemptAt i = some a → a.Completed → a.oldAssign = some o →
    σ.fabric.currentAssignment a.slot = some cur → cur.key ≠ o.key
  unique : ∀ i j a b o o', σ.attemptAt i = some a → σ.attemptAt j = some b → a.Completed →
    b.Completed → a.slot = b.slot → a.oldAssign = some o → b.oldAssign = some o' →
    o.key = o'.key → i = j
  source : ∀ i a src, σ.attemptAt i = some a → Issued a → a.plan.sourceAssignment = some src →
    ∃ o, a.oldAssign = some o ∧ o.key = src.key

/-- No call completes with the step. -/
def NoneCompletes (σ σ' : SystemState) : Prop :=
  ∀ j a, σ'.attemptAt j = some a → a.Completed → σ.attemptAt j = some a

theorem noneCompletes_stepped {σ σ' : SystemState} {i : Nat} {rd : Readings} {a : Attempt}
    (hb : σ.attemptAt i = some a)
    (hafter : σ'.attemptAt i = some (σ.fabric.attemptStep rd a).2)
    (hothers : ∀ j, j ≠ i → σ'.attemptAt j = σ.attemptAt j)
    (hcomp : (σ.fabric.attemptStep rd a).2.Completed → a.Completed) : NoneCompletes σ σ' := by
  intro j b hbj hc
  rcases attemptAt_stepped hafter hothers hbj with ⟨rfl, rfl⟩ | ⟨-, hbj⟩
  · rw [attemptStep_ended (Or.inl (hcomp hc).1)]
    exact hb
  · exact hbj

/-- A step that writes no slot and completes no call, and after which every
replacement is inherited or has just been accepted. -/
theorem Displacements.quiet {σ σ' : SystemState} (h : Displacements σ) (heff : LedgerEffect σ σ')
    (hslots : σ'.fabric.slots = σ.fabric.slots) (hnone : NoneCompletes σ σ')
    (hnew : ∀ j a', σ'.attemptAt j = some a' → Issued a' →
      (∃ a, σ.attemptAt j = some a ∧ Issued a ∧ SameAttempt a a') ∨
      ∃ a, Accepted σ.fabric a a') : Displacements σ' := by
  have hcur := currentAssignment_congr hslots
  refine ⟨hslots ▸ h.sound, fun slot cur hc => ?_, fun i a' o ha' hi ho => ?_,
    fun i a o cur ha hc ho hcu => ?_, fun i j a b o o' ha hb hca hcb => ?_,
    fun i a' src ha' hi hsrc => ?_⟩
  · rw [hcur] at hc
    exact heff.known (h.current slot cur hc)
  · rw [hcur]
    rcases hnew i a' ha' hi with ⟨a, ha, hia, hsame⟩ | ⟨a, hacc⟩
    · obtain ⟨hk, hne⟩ := h.old i a o ha hia (hsame.old ▸ ho)
      exact ⟨heff.known hk, by rw [hsame.slot]; exact hne⟩
    · rw [hacc.old] at ho
      refine ⟨heff.known (h.current _ o ho), ?_⟩
      rw [Attempt.slot, hacc.plan]
      exact fun hn => by rw [Attempt.slot, hn] at ho; cases ho
  · rw [hcur] at hcu
    exact h.displaced i a o cur (hnone i a ha hc) hc ho hcu
  · exact h.unique i j a b o o' (hnone i a ha hca) (hnone j b hb hcb) hca hcb
  · rcases hnew i a' ha' hi with ⟨a, ha, hia, hsame⟩ | ⟨a, hacc⟩
    · rw [hsame.old]
      exact h.source i a src ha hia (hsame.plan ▸ hsrc)
    · rw [hacc.old]
      exact old_of_source hacc.source (hacc.plan ▸ hsrc)

/-- An initial assignment goes into a slot that no call has displaced. -/
theorem Displacements.assign {σ σ' : SystemState} (h : Displacements σ) (heff : LedgerEffect σ σ')
    {now : Time} {a : Assignment} (hfirst : a.generation = .first)
    (hs : σ.fabric.setInitialAssignment now a = .ok σ'.fabric) (hcalls : σ'.calls = σ.calls) :
    Displacements σ' := by
  obtain ⟨hfree, hcur⟩ := initial_current h.sound (setInitialAssignment_eq_ok hs)
  have hat : ∀ i, σ'.attemptAt i = σ.attemptAt i := fun i => by
    rw [SystemState.attemptAt, hcalls]
    rfl
  refine ⟨initial_sound h.sound (setInitialAssignment_eq_ok hs), fun slot cur hc => ?_,
    fun i b o hb hi ho => ?_, fun i b o cur hb hc ho hcu => ?_, fun i j b c o o' hb hc => ?_,
    fun i b src hb => ?_⟩
  · rw [hcur] at hc
    split at hc
    · cases hc
      exact Or.inl hfirst
    · exact heff.known (h.current slot cur hc)
  · obtain ⟨hk, hne⟩ := h.old i b o (hat i ▸ hb) hi ho
    refine ⟨heff.known hk, ?_⟩
    rw [hcur]
    split
    · exact Option.some_ne_none _
    · exact hne
  · rw [hat] at hb
    rw [hcur, if_neg] at hcu
    · exact h.displaced i b o cur hb hc ho hcu
    -- the slot was free, so no call with an old assignment has completed on it
    · intro heq
      exact (h.old i b o hb (.of_completed hc) ho).2 (heq ▸ hfree)
  · exact h.unique i j b c o o' (hat i ▸ hb) (hat j ▸ hc)
  · exact h.source i b src (hat i ▸ hb)

/-- A fresh replacement is not known. -/
theorem Issues.not_known {σ : SystemState} {spent : List Nat} (h : Issues σ spent) {i : Nat}
    {a : Attempt} (ha : σ.attemptAt i = some a) (hi : Issued a) (hnot : ¬ a.Completed) :
    ¬ Known σ a.newAssign.key := by
  rintro (hfirst | ⟨m, b, hb, hc, hkey⟩)
  -- initial assignments are of the first generation, replacements of the second
  · have hgen := (h.issued i a ha hi).1
    rw [show a.newAssign.key.2 = a.newAssign.generation from rfl, hgen] at hfirst
    cases hfirst
  · have hid : m = i := h.distinct m i b a hb ha (.of_completed hc) hi (Prod.mk.inj hkey).1
    subst hid
    rw [ha] at hb
    cases hb
    exact hnot hc

/-- An attempt that commits replaces what it set out to replace. -/
theorem current_of_not_superseded {s : Fabric} {a : Attempt} {o cur : Assignment}
    (h : s.superseded a = false) (ho : a.oldAssign = some o)
    (hcur : s.currentAssignment a.slot = some cur) : cur.key = o.key := by
  unfold superseded at h
  rw [ho, hcur] at h
  simp only [Bool.not_eq_false', Bool.and_eq_true, beq_iff_eq] at h
  exact Prod.ext h.1 h.2

/-- What an attempt that is not superseded replaces was displaced by no completed
call. -/
theorem Displacements.not_displaced {σ : SystemState} (h : Displacements σ) {i k : Nat}
    {a c : Attempt} (hb : σ.attemptAt i = some a) (hissued : Issued a)
    (hsup : σ.fabric.superseded a = false) (hc : σ.attemptAt k = some c) (hcc : c.Completed)
    (hslot : a.slot = c.slot) {o o' : Assignment} (ho : a.oldAssign = some o)
    (ho' : c.oldAssign = some o') : o.key ≠ o'.key := by
  obtain ⟨cur, hcu⟩ := Option.ne_none_iff_exists'.mp (h.old i a o hb hissued ho).2
  have hkey := current_of_not_superseded hsup ho hcu
  exact fun heq => h.displaced k c o' cur hc hcc ho' (hslot ▸ hcu) (hkey.trans heq)

/-- Attempt `a`, number `i`, commits, and no other one steps. -/
structure Commits (σ σ' : SystemState) (i : Nat) (rd : Readings) (a : Attempt) : Prop where
  before : σ.attemptAt i = some a
  fabric : σ'.fabric = (σ.fabric.attemptStep rd a).1
  after : σ'.attemptAt i = some (σ.fabric.attemptStep rd a).2
  others : ∀ j, j ≠ i → σ'.attemptAt j = σ.attemptAt j
  commit : CommitStep rd.now σ.fabric a (σ.fabric.attemptStep rd a)

section Commits
variable {σ σ' : SystemState} {i : Nat} {rd : Readings} {a : Attempt}

theorem Commits.not_completed (hc : Commits σ σ' i rd a) : ¬ a.Completed := by
  intro hcompleted
  have hst := hc.commit.before
  rw [hcompleted.1] at hst
  cases hst

theorem Commits.current (hc : Commits σ σ' i rd a) (hs : σ.fabric.slots.Sound (·.slot))
    (slot : ServiceSlotKey) :
    σ'.fabric.currentAssignment slot =
      if slot = a.slot ∧ σ.fabric.findSlot a.slot ≠ none then some (committed a)
      else σ.fabric.currentAssignment slot := by
  rw [hc.fabric, hc.commit.fabric]
  exact commit_current hs slot

/-- A slot with a current assignment has one after the commit. -/
theorem Commits.current_ne_none (hc : Commits σ σ' i rd a) (hs : σ.fabric.slots.Sound (·.slot))
    {slot : ServiceSlotKey} (h : σ.fabric.currentAssignment slot ≠ none) :
    σ'.fabric.currentAssignment slot ≠ none := by
  rw [hc.current hs]
  split
  · exact Option.some_ne_none _
  · exact h

/-- Every attempt after the commit was one before, with the same plan and old
assignment. -/
theorem Commits.back (hc : Commits σ σ' i rd a) {j : Nat} {b : Attempt}
    (hb : σ'.attemptAt j = some b) (hissued : Issued b) :
    ∃ b', σ.attemptAt j = some b' ∧ Issued b' ∧ SameAttempt b' b ∧ (j ≠ i → b' = b) := by
  by_cases hj : j = i
  · subst hj
    rw [hc.after] at hb
    cases hb
    exact ⟨a, hc.before, hc.commit.issued, hc.commit.same, fun hne => absurd rfl hne⟩
  · exact ⟨b, (hc.others j hj).symm.trans hb, hissued, .refl b, fun _ => rfl⟩

/-- What a completed call displaced is not current after the commit. -/
theorem Displacements.displaced_after {spent : List Nat} (h : Displacements σ)
    (hiss : Issues σ spent) (hc : Commits σ σ' i rd a) {j : Nat} {b : Attempt} {o cur : Assignment}
    (hb : σ'.attemptAt j = some b) (hcb : b.Completed) (ho : b.oldAssign = some o)
    (hcu : σ'.fabric.currentAssignment b.slot = some cur) : cur.key ≠ o.key := by
  obtain ⟨b', hb', hib', hsame, hother⟩ := hc.back hb (.of_completed hcb)
  obtain ⟨hk, hne⟩ := h.old j b' o hb' hib' (hsame.old ▸ ho)
  rw [hsame.slot, hc.current h.sound] at hcu
  split at hcu
  -- the new current assignment is fresh, and what was displaced is known
  · cases hcu
    intro heq
    rw [← heq] at hk
    exact hiss.not_known hc.before hc.commit.issued hc.not_completed hk
  · by_cases hj : j = i
    · subst hj
      rw [hc.before] at hb'
      cases hb'
      rename_i hnofind
      simp only [true_and, ne_eq, not_not] at hnofind
      rw [Fabric.currentAssignment, hnofind] at hcu
      cases hcu
    · obtain rfl := hother hj
      exact h.displaced j b' o cur hb' hcb ho hcu

/-- The committing call displaces what no completed call of its slot displaced. -/
theorem Displacements.committed_apart (h : Displacements σ) (hc : Commits σ σ' i rd a) {k : Nat}
    {b c : Attempt} {o o' : Assignment} (hb : σ'.attemptAt i = some b) (hk : k ≠ i)
    (hck : σ'.attemptAt k = some c) (hcc : c.Completed) (hslot : b.slot = c.slot)
    (ho : b.oldAssign = some o) (ho' : c.oldAssign = some o') : o.key ≠ o'.key := by
  rw [hc.after] at hb
  cases hb
  rw [hc.commit.same.slot] at hslot
  rw [hc.others k hk] at hck
  exact h.not_displaced hc.before hc.commit.issued hc.commit.superseded hck hcc hslot
    (hc.commit.same.old ▸ ho) ho'

/-- **A commit displaces an assignment that no completed call has displaced.** -/
theorem Displacements.commit {spent : List Nat} (h : Displacements σ) (hiss : Issues σ spent)
    (heff : LedgerEffect σ σ') (hc : Commits σ σ' i rd a) : Displacements σ' := by
  refine ⟨?_, fun slot cur hcu => ?_, fun j b o hbj hib ho => ?_,
    fun j b o cur hbj hcb ho hcu => h.displaced_after hiss hc hbj hcb ho hcu,
    ?_, fun j b src hbj hib hsrc => ?_⟩
  · rw [hc.fabric, hc.commit.fabric]
    exact commit_sound h.sound
  · rw [hc.current h.sound] at hcu
    split at hcu
    · cases hcu
      exact Or.inr ⟨i, _, hc.after, ⟨hc.commit.stage, hc.commit.state⟩, by rw [hc.commit.new]⟩
    · exact heff.known (h.current slot cur hcu)
  · obtain ⟨b', hb', hib', hsame, -⟩ := hc.back hbj hib
    obtain ⟨hk, hne⟩ := h.old j b' o hb' hib' (hsame.old ▸ ho)
    rw [hsame.slot]
    exact ⟨heff.known hk, hc.current_ne_none h.sound hne⟩
  -- two calls completed on one slot from one assignment: neither is the committing one
  · intro j k b c o o' hbj hck hcb hcc hslot ho ho' heq
    by_cases hj : j = i <;> by_cases hk : k = i
    · rw [hj, hk]
    · subst hj
      exact absurd heq (h.committed_apart hc hbj hk hck hcc hslot ho ho')
    · subst hk
      exact absurd heq.symm (h.committed_apart hc hck hj hbj hcb hslot.symm ho' ho)
    · exact h.unique j k b c o o' ((hc.others j hj).symm.trans hbj)
        ((hc.others k hk).symm.trans hck) hcb hcc hslot ho ho' heq
  · obtain ⟨b', hb', hib', hsame, -⟩ := hc.back hbj hib
    rw [hsame.old]
    exact h.source j b' src hb' hib' (hsame.plan ▸ hsrc)

end Commits

theorem Displacements.step {σ σ' : SystemState} {spent : List Nat} (h : Displacements σ)
    (hiss : Issues σ spent) (heff : LedgerEffect σ σ') : Displacements σ' := by
  cases heff with
  | outside hslots hcounter hgen hat =>
    refine h.quiet (.outside hslots hcounter hgen hat) hslots (fun j a ha hc => ?_)
      fun j a' ha' hi => ?_
    · rcases hat j with heq | ⟨-, plan, ops, hfresh⟩
      · exact heq ▸ ha
      · rw [ha] at hfresh
        cases hfresh
        cases hc.1
    · obtain ⟨a, ha, hia, -, hsame⟩ := inherits_outside hat j a' ha' hi
      exact Or.inl ⟨a, ha, hia, hsame⟩
  | assigned now a hfirst hs hcalls => exact h.assign (.assigned now a hfirst hs hcalls) hfirst hs hcalls
  | stepped i rd a hb hfab hafter hothers =>
    have heff := LedgerEffect.stepped i rd a hb hfab hafter hothers
    have hnone := noneCompletes_stepped hb hafter hothers
    rcases attemptStep_issue rd σ.fabric a with ⟨hst, hacc, hslots, -⟩ |
      ⟨hst, -, hnot, hslots, -⟩ | ⟨-, hissued, hcomp, hsame, hnew, hslots, -⟩ | ⟨hcommit, -⟩
    · refine h.quiet heff (hfab ▸ hslots) (hnone fun hc => ?_) fun j b hbj hib => ?_
      · rw [Attempt.Completed, hacc.stage] at hc
        cases hc.1
      · rcases attemptAt_stepped hafter hothers hbj with ⟨rfl, rfl⟩ | ⟨-, hbj⟩
        · exact Or.inr ⟨a, hacc⟩
        · exact Or.inl ⟨b, hbj, hib, .refl b⟩
    · refine h.quiet heff (hfab ▸ hslots) (hnone fun hc => absurd (.of_completed hc) hnot)
        fun j b hbj hib => Or.inl ?_
      obtain ⟨b', hb', hib', -, hsame⟩ :=
        inherits_stepped hb hafter hothers (fun hi => absurd hi hnot) j b hbj hib
      exact ⟨b', hb', hib', hsame⟩
    · refine h.quiet heff (hfab ▸ hslots) (hnone hcomp) fun j b hbj hib => Or.inl ?_
      obtain ⟨b', hb', hib', -, hsame⟩ := inherits_stepped hb hafter hothers
        (fun hi => ⟨hissued hi, by rw [hnew], hsame⟩) j b hbj hib
      exact ⟨b', hb', hib', hsame⟩
    · exact h.commit hiss heff ⟨hb, hfab, hafter, hothers, hcommit⟩

/-! ## The property -/

theorem step_calls_length (env : Env) (σ : SystemState) {l : Label} (hl : neverLoaded l = true) :
    σ.calls.length ≤ (σ.step env l).calls.length := by
  cases l with
  | op o => exact Nat.le_refl _
  | beginPlan plan ops => simp [SystemState.step]
  | beginFailback slot ops => simp [SystemState.step]
  | restart cfg => cases hl
  | advance i rd =>
    rcases step_advance_cases env σ i rd with hstep | ⟨c, -, hstep⟩
    · rw [hstep]
    · rw [hstep, List.length_set]

/-- The two invariants hold in every run with fewer than 2^64 calls. -/
theorem ledger_reachable {env : Env} {σ : SystemState}
    (h : Transition.Reachable (machine env) (fun _ l => neverLoaded l = true) σ)
    (hcalls : σ.calls.length < 2 ^ 64) : (∃ spent, Issues σ spent) ∧ Displacements σ := by
  refine h.invariant (P := fun σ => σ.calls.length < 2 ^ 64 →
    (∃ spent, Issues σ spent) ∧ Displacements σ) ?_ (fun σ l _ hσ hl hlen => ?_) hcalls
  · rintro σ ⟨cfg, rfl⟩ -
    refine ⟨⟨[], List.nodup_nil, by simp, rfl, rfl, ?_, ?_⟩, IndexedVec.indexed_empty.sound,
      ?_, ?_, ?_, ?_, ?_⟩
    · intro i a ha
      cases ha
    · intro i j a b ha
      cases ha
    · intro slot cur hc
      cases hc
    · intro i a o ha
      cases ha
    · intro i a o cur ha
      cases ha
    · intro i j a b o o' ha
      cases ha
    · intro i a src ha
      cases ha
  · obtain ⟨⟨spent, hiss⟩, hdis⟩ := hσ (Nat.lt_of_le_of_lt (step_calls_length env σ hl) hlen)
    have heff := step_ledger env σ hl
    exact ⟨hiss.step heff hlen, hdis.step hiss heff⟩

/-- The calls that returned `COMPLETED` for a slot, with a plan made from a given
source assignment. -/
def completedFrom (σ : SystemState) (slot : ServiceSlotKey)
    (k : AssignmentId × AssignmentGeneration) : Set Nat :=
  { i | ∃ c a src, σ.calls[i]? = some c ∧ c.attempt = some a ∧ a.Completed ∧ a.slot = slot ∧
    a.plan.sourceAssignment = some src ∧ src.key = k }

/-- **One completion per source assignment.**  On a fabric that is never loaded,
with initial assignments of the first generation and fewer than 2^64 calls, in
every interleaving at most one call whose plan has a given source assignment
completes on a slot. -/
theorem one_completion_per_source (env : Env) {σ : SystemState}
    (h : Transition.Reachable (machine env) (fun _ l => neverLoaded l = true) σ)
    (hcalls : σ.calls.length < 2 ^ 64) (slot : ServiceSlotKey)
    (k : AssignmentId × AssignmentGeneration) : (completedFrom σ slot k).Subsingleton := by
  obtain ⟨-, hdis⟩ := ledger_reachable h hcalls
  rintro i ⟨c, a, src, hc, hca, hcomp, hslot, hsrc, hk⟩ j
    ⟨c', a', src', hc', hca', hcomp', hslot', hsrc', hk'⟩
  have ha : σ.attemptAt i = some a := by rw [SystemState.attemptAt, hc, Option.bind_some, hca]
  have ha' : σ.attemptAt j = some a' := by rw [SystemState.attemptAt, hc', Option.bind_some, hca']
  obtain ⟨o, ho, hok⟩ := hdis.source i a src ha (.of_completed hcomp) hsrc
  obtain ⟨o', ho', hok'⟩ := hdis.source j a' src' ha' (.of_completed hcomp') hsrc'
  exact hdis.unique i j a a' o o' ha ha' hcomp hcomp' (hslot.trans hslot'.symm) ho ho'
    (by rw [hok, hok', hk, hk'])

namespace Reference

/-- Two calls with the same plan, in lockstep. -/
def competing (plan : FailoverPlan) : List Label :=
  [.beginPlan plan ops, .beginPlan plan ops] ++
    (List.replicate 19 [.advance 0 {}, .advance 1 {}]).flatten

end Reference

open Reference in
/-- Two competing calls of the reference deployment: one completes, the other is
superseded. -/
theorem one_completion_per_source_competing :
    let σ := (machine env).run { fabric := {} } (setup.map .op ++ competing (planOf (after setup)))
    σ.calls.map (fun c => c.attempt.map (·.result.state)) = [some .completed, some .superseded] ∧
      (completedFrom σ slot initialAssignment.key).Subsingleton := by
  intro σ
  have hreach : Transition.Reachable (machine env) (fun _ l => neverLoaded l = true) σ :=
    Transition.Reachable.run (b := fun _ l => neverLoaded l) _ (.initial ⟨{}, rfl⟩)
      (by decide +kernel)
  exact ⟨by decide +kernel, one_completion_per_source env hreach (by decide +kernel) slot _⟩

end FailoverFabric
