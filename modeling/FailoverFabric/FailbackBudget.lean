import FailoverFabric.Failbacks

/-! # The failback budget

`evaluate_failback` refuses a slot whose attempt counter has reached the service's
`max_auto_attempts`; `execute_failback` resets the counter when it completes and advances
it when it returns anything else.  Nothing else writes the counter once the slot has an
assignment.  In every sequential run, the failed failbacks since the last completed one
are at most `max_auto_attempts` (`failback_budget`).
-/
namespace FailoverFabric
open Fabric

/-! ## Sequential runs -/

/-- One call of the fabric, from beginning to end. -/
inductive WholeCall
  | op (o : Op)
  | plan (plan : FailoverPlan) (ops : CutoverOps) (rd : Nat → Readings)
  | failback (slot : ServiceSlotKey) (ops : CutoverOps) (rd : Nat → Readings)

namespace Fabric

/-- The state after a call. -/
def call (env : Env) (s : Fabric) : WholeCall → Fabric
  | .op o => s.apply env o
  | .plan plan ops rd => (executePlan rd s plan ops).1
  | .failback slot ops rd => (s.executeFailback env rd slot ops).1

end Fabric

/-- The system of all runs in which each call ends before the next one begins. -/
def sequential (env : Env) : Transition.System Fabric WholeCall where
  initial s := ∃ cfg, s = { cfg := cfg }
  step := Fabric.call env

/-- The failbacks of each slot that have invoked `fence_old` and have not completed,
since the last one that did. -/
abbrev Wasted := ServiceSlotKey → Nat

def noteWasted (env : Env) (s : Fabric) : WholeCall → Wasted → Wasted
  | .failback slot ops rd, n =>
    if (s.executeFailback env rd slot ops).2.completed then Function.update n slot 0
    else if s.failbackFences env rd slot ops then Function.update n slot (n slot + 1)
    else n
  | _, n => n

/-- The call has thrown. -/
def Failback.threw (f : Failback) : Bool :=
  match f.stage with
  | .threw _ _ => true
  | _ => false

/-- Nothing is loaded, and no failback throws. -/
def uneventful (env : Env) (s : Fabric) : WholeCall → Bool
  | .op (.load _) => false
  | .failback slot ops rd => !(s.executeFailback env rd slot ops).2.threw
  | _ => true

/-! ## The counter -/

namespace Fabric
variable {s s' : Fabric} {rd : Readings} {a : Attempt}

/-- No step of an attempt writes the counter. -/
theorem attemptStep_failbackAttempts :
    (s.attemptStep rd a).1.failbackAttempts = s.failbackAttempts := by
  by_cases hst : a.stage = .validating
  · rw [attemptStep_validating hst, validateAttempt_quiet s a]
  · rcases attemptStep_cases rd s a hst with hq | hf | hc
    · rw [hq.fabric]
    · obtain ⟨old, -, hfab⟩ := hf.fence
      rw [hfab, addFencedBoot_eq]
    · rw [hc.fabric, commit, fenceOldBoot_eq]

/-- What an initial assignment enters into the failback's books. -/
theorem setInitialAssignment_books {now : Time} {new : Assignment}
    (h : s.setInitialAssignment now new = .ok s') :
    s'.preferred = Function.update s.preferred new.slot (some new.target) ∧
      s'.lastTransition = Function.update s.lastTransition new.slot (some now) ∧
      s'.failbackAttempts = Function.update s.failbackAttempts new.slot (some 0) := by
  unfold setInitialAssignment at h
  split at h
  · cases h
  simp only at h
  split at h
  · split at h
    · cases h
    · cases h
      exact ⟨rfl, rfl, rfl⟩
  · cases h
    exact ⟨rfl, rfl, rfl⟩

/-- What a call of `execute_plan` keeps: the counter, and an assignment in every slot
that has one. -/
structure KeepsBooks (s s' : Fabric) : Prop where
  sound : s.slots.Sound (·.slot) → s'.slots.Sound (·.slot)
  current : s.slots.Sound (·.slot) → ∀ key, (s.currentAssignment key).isSome →
    (s'.currentAssignment key).isSome
  services : s'.services = s.services
  preferred : s'.preferred = s.preferred
  attempts : s'.failbackAttempts = s.failbackAttempts

theorem KeepsBooks.trans {s'' : Fabric} (h : KeepsBooks s s') (h' : KeepsBooks s' s'') :
    KeepsBooks s s'' where
  sound hs := h'.sound (h.sound hs)
  current hs key hcur := h'.current (h.sound hs) key (h.current hs key hcur)
  services := h'.services.trans h.services
  preferred := h'.preferred.trans h.preferred
  attempts := h'.attempts.trans h.attempts

theorem attemptStep_keepsBooks (rd : Readings) (s : Fabric) (a : Attempt) :
    KeepsBooks s (s.attemptStep rd a).1 := by
  have hconf := attemptStep_confined rd s a
  refine ⟨fun hs => ?_, fun hs key hcur => ?_, hconf.services, hconf.preferred,
    attemptStep_failbackAttempts⟩
  · rcases attemptStep_commits rd s a with ⟨hslots, -⟩ | hc
    · rwa [hslots]
    · rw [hc.fabric]
      exact commit_sound hs
  · rcases attemptStep_commits rd s a with ⟨hslots, -⟩ | hc
    · rwa [currentAssignment_congr hslots]
    · rw [hc.fabric, commit_current hs]
      split
      · rfl
      · exact hcur

theorem runAttempt_keepsBooks (rd : Nat → Readings) (n : Nat) (s : Fabric) (a : Attempt) :
    KeepsBooks s (runAttempt rd n s a).1 := by
  induction n generalizing s a with
  | zero => exact ⟨id, fun _ _ => id, rfl, rfl, rfl⟩
  | succ n ih => exact (attemptStep_keepsBooks (rd n) s a).trans (ih _ _)

/-- So does a plan that is made and executed. -/
theorem planned_keepsBooks (env : Env) (rd : Nat → Readings) (s : Fabric) (slot : ServiceSlotKey)
    (pref : TargetId) (plan : FailoverPlan) (ops : CutoverOps) :
    KeepsBooks s (executePlan rd (s.planFailoverPref env.rank slot (some pref)).1 plan ops).1 := by
  have hplan : KeepsBooks s (s.planFailoverPref env.rank slot (some pref)).1 := by
    rw [planFailoverPref_fst]
    exact ⟨id, fun _ _ => id, rfl, rfl, rfl⟩
  exact hplan.trans (runAttempt_keepsBooks rd 19 _ { plan := plan, ops := ops })

end Fabric

/-! ## The invariant -/

/-- **What holds in every sequential run.** -/
structure Budgeted (s : Fabric) (n : Wasted) : Prop where
  slots : s.slots.Sound (·.slot)
  services : s.services.Sound (·.service)
  counted : ∀ slot, (s.preferred slot).isSome → (s.failbackAttempts slot).isSome
  wasted : ∀ slot, n slot ≤ ((s.failbackAttempts slot).getD 0).toNat
  current : ∀ slot, 0 < n slot → (s.currentAssignment slot).isSome
  within : ∀ slot, 0 < n slot → ∃ svc, s.serviceForSlot slot = some svc ∧
    ((s.failbackAttempts slot).getD 0).toNat ≤ svc.antiFlapping.maxAutoAttempts.toNat

namespace Budgeted
variable {env : Env} {s s' : Fabric} {n : Wasted}

theorem keeps (h : Budgeted s n) (hk : KeepsBooks s s') : Budgeted s' n := by
  refine ⟨hk.sound h.slots, hk.services ▸ h.services, ?_, ?_, fun slot hn =>
    hk.current h.slots slot (h.current slot hn), fun slot hn => ?_⟩
  · rw [hk.preferred, hk.attempts]
    exact h.counted
  · rw [hk.attempts]
    exact h.wasted
  · rw [hk.attempts, serviceForSlot, findService, hk.services]
    exact h.within slot hn

theorem created {d : ServiceDefinition} (h : Budgeted s n) (hs : s.createService d = .ok s') :
    Budgeted s' n := by
  have hfind : ∀ id svc, s.findService id = some svc → s'.findService id = some svc :=
    fun _ _ => createService_find h.services hs
  obtain ⟨hfab, -⟩ := createService_eq hs
  subst hfab
  refine ⟨h.slots, h.services.push rfl, h.counted, h.wasted, h.current, fun slot hn => ?_⟩
  obtain ⟨svc, hsvc, hle⟩ := h.within slot hn
  exact ⟨svc, hfind slot.service svc hsvc, hle⟩

/-- An initial assignment resets the counter of a slot without an assignment, where
nothing has been wasted. -/
theorem assigned {now : Time} {new : Assignment} (h : Budgeted s n)
    (hs : s.setInitialAssignment now new = .ok s') : Budgeted s' n := by
  have hstep := setInitialAssignment_eq_ok hs
  obtain ⟨hpreferred, -, hattempts⟩ := setInitialAssignment_books hs
  obtain ⟨hnone, hcurrent⟩ := initial_current h.slots hstep
  have hzero : n new.slot = 0 := by
    by_contra hne
    have hsome := h.current new.slot (Nat.pos_of_ne_zero hne)
    rw [hnone] at hsome
    cases hsome
  have hservices : s'.services = s.services := by rw [hstep.fabric]
  have hother : ∀ slot, 0 < n slot → slot ≠ new.slot := by
    rintro slot hn rfl
    omega
  refine ⟨initial_sound h.slots hstep, hservices ▸ h.services, fun slot hpref => ?_, fun slot => ?_,
    fun slot hn => ?_, fun slot hn => ?_⟩
  · rw [hattempts, Function.update_apply]
    rw [hpreferred, Function.update_apply] at hpref
    split at hpref
    · rename_i heq
      rw [if_pos heq]
      rfl
    · rename_i hne
      rw [if_neg hne]
      exact h.counted slot hpref
  · rw [hattempts, Function.update_apply]
    split
    · rename_i heq
      rw [heq, hzero]
      exact Nat.zero_le _
    · exact h.wasted slot
  · rw [hcurrent, if_neg (hother slot hn)]
    exact h.current slot hn
  · rw [hattempts, Function.update_of_ne (hother slot hn), serviceForSlot, findService, hservices]
    exact h.within slot hn

theorem op {o : Op} (h : Budgeted s n) (hload : ∀ blob, o ≠ .load blob) :
    Budgeted (s.apply env o) n := by
  by_cases hcreate : ∃ d, o = .createService d
  · obtain ⟨d, rfl⟩ := hcreate
    show Budgeted (s.orSelf (s.createService d)) n
    cases hs : s.createService d with
    | error e => exact h
    | ok s' => exact h.created hs
  by_cases hassign : ∃ now new, o = .setInitialAssignment now new
  · obtain ⟨now, new, rfl⟩ := hassign
    show Budgeted (s.orSelf (s.setInitialAssignment now new)) n
    cases hs : s.setInitialAssignment now new with
    | error e => exact h
    | ok s' => exact h.assigned hs
  · have hservices := apply_services env s o (fun d he => hcreate ⟨d, he⟩) hload
    have hapart := apply_apart env s o (fun now new he => hassign ⟨now, new, he⟩) hload
    refine h.keeps ⟨fun hs => hapart.slots ▸ hs, fun _ key hcur => ?_, hservices, ?_, ?_⟩
    · rwa [currentAssignment_congr hapart.slots]
    · rw [hapart]
    · rw [hapart]

/-- The counter of one slot is set. -/
theorem recounted (h : Budgeted s n) {slot : ServiceSlotKey} {k : UInt32} {n' : Wasted}
    (hfields : s' = { s with
      failbackAttempts := s'.failbackAttempts, lastTransition := s'.lastTransition })
    (hcount : s'.failbackAttempts = Function.update s.failbackAttempts slot (some k))
    (hother : ∀ key, key ≠ slot → n' key = n key) (hself : n' slot ≤ k.toNat)
    (hwithin : 0 < n' slot → (s.currentAssignment slot).isSome ∧
      ∃ svc, s.serviceForSlot slot = some svc ∧ k.toNat ≤ svc.antiFlapping.maxAutoAttempts.toNat) :
    Budgeted s' n' := by
  refine ⟨?_, ?_, fun key hpref => ?_, fun key => ?_, fun key hn => ?_, fun key hn => ?_⟩
  · rw [hfields]
    exact h.slots
  · rw [hfields]
    exact h.services
  · rw [hcount, Function.update_apply]
    split
    · rfl
    · rw [hfields] at hpref
      exact h.counted key hpref
  · rw [hcount]
    by_cases hkey : key = slot
    · rw [hkey, Function.update_self]
      exact hself
    · rw [Function.update_of_ne hkey, hother key hkey]
      exact h.wasted key
  · rw [hfields]
    by_cases hkey : key = slot
    · rw [hkey] at hn ⊢
      exact (hwithin hn).1
    · rw [hother key hkey] at hn
      exact h.current key hn
  · have hsvc : s'.serviceForSlot key = s.serviceForSlot key := by rw [hfields]; rfl
    rw [hsvc, hcount]
    by_cases hkey : key = slot
    · rw [hkey, Function.update_self]
      rw [hkey] at hn
      exact (hwithin hn).2
    · rw [Function.update_of_ne hkey]
      rw [hother key hkey] at hn
      exact h.within key hn

/-- A completed failback resets the counter. -/
theorem settled_completed (h : Budgeted s n) (now : Time) (slot : ServiceSlotKey) :
    Budgeted (s.settleFailback now slot .completed) (Function.update n slot 0) := by
  rw [settleFailback, if_pos rfl]
  refine h.recounted rfl rfl (fun key hkey => Function.update_of_ne hkey ..) ?_ ?_
  · rw [Function.update_self]
    exact Nat.zero_le _
  · rw [Function.update_self]
    exact fun hn => absurd hn (Nat.lt_irrefl 0)

/-- Any other failback advances it, and it stood below the bound. -/
theorem settled_failed (h : Budgeted s n) (now : Time) {slot : ServiceSlotKey}
    {state : AttemptState} {svc : ServiceDefinition} {n' : Wasted} (hstate : state ≠ .completed)
    (hsvc : s.serviceForSlot slot = some svc) (hcur : (s.currentAssignment slot).isSome)
    (hpref : (s.preferred slot).isSome)
    (hbudget : ∀ k, s.failbackAttempts slot = some k → k < svc.antiFlapping.maxAutoAttempts)
    (hself : n' slot ≤ n slot + 1) (hother : ∀ key, key ≠ slot → n' key = n key) :
    Budgeted (s.settleFailback now slot state) n' := by
  obtain ⟨k, hk⟩ := Option.isSome_iff_exists.mp (h.counted slot hpref)
  have hlt := hbudget k hk
  have hnext : (k + 1).toNat = k.toNat + 1 := by
    have hmax := svc.antiFlapping.maxAutoAttempts.toNat_lt
    rw [UInt32.lt_iff_toNat_lt] at hlt
    rw [UInt32.toNat_add, UInt32.toNat_one, Nat.mod_eq_of_lt (by omega)]
  have hwasted := h.wasted slot
  rw [hk, Option.getD_some] at hwasted
  have hsettle : s.settleFailback now slot state = { s with
      failbackAttempts := Function.update s.failbackAttempts slot (some (k + 1)) } := by
    rw [settleFailback, if_neg hstate, hk, Option.getD_some]
  rw [hsettle]
  refine h.recounted rfl rfl hother (by omega) fun _ => ⟨hcur, svc, hsvc, ?_⟩
  rw [hnext]
  exact UInt32.lt_iff_toNat_lt.mp hlt

theorem failback {slot : ServiceSlotKey} {ops : CutoverOps} {rd : Nat → Readings}
    (h : Budgeted s n) (hok : uneventful env s (.failback slot ops rd) = true) :
    Budgeted (s.executeFailback env rd slot ops).1 (noteWasted env s (.failback slot ops rd) n) := by
  simp only [uneventful, Bool.not_eq_true'] at hok
  simp only [noteWasted]
  rcases executeFailback_cases env rd s slot ops with ⟨hfab, hnot, hunfenced⟩ |
    @⟨svc, pref, plan, now, hauth, -, hrun⟩
  · rw [hnot, hunfenced]
    refine h.keeps ?_
    rw [hfab]
    exact ⟨id, fun _ _ => id, rfl, rfl, rfl⟩
  have hbooks := planned_keepsBooks env (fun j => rd (j + 1)) s slot pref plan ops
  have hend := executePlan_finishes (fun j => rd (j + 1))
    (s.planFailoverPref env.rank slot (some pref)).1 plan ops
  rw [hrun] at hok ⊢
  generalize executePlan (fun j => rd (j + 1)) _ plan ops = e at hbooks hend hok ⊢
  have hafter := h.keeps hbooks
  rcases hend with hr | ⟨err, hr⟩
  · simp only [concluded, hr, Failback.completed, FailbackStage.result, Option.any_some]
    by_cases hstate : e.2.result.state = .completed
    · rw [hstate, beq_self_eq_true, if_pos rfl]
      exact hafter.settled_completed now slot
    · rw [beq_eq_false_iff_ne.mpr hstate, if_neg Bool.false_ne_true]
      have hsvc : e.1.serviceForSlot slot = some svc := by
        rw [serviceForSlot, findService, hbooks.services]
        exact hauth.service
      refine hafter.settled_failed now hstate hsvc (hbooks.current h.slots slot hauth.current) ?_ ?_
        ?_ fun key hkey => ?_
      · rw [hbooks.preferred, hauth.preferred]
        rfl
      · rw [hbooks.attempts]
        exact hauth.budget
      · split
        · rw [Function.update_self]
        · exact Nat.le_succ _
      · split
        · rw [Function.update_of_ne hkey]
        · rfl
  · simp only [concluded, hr, Failback.threw] at hok
    cases hok

end Budgeted

/-- **The failback budget.**  In every sequential run in which nothing is loaded and no
failback throws, whatever else happens: the failbacks of a slot that have invoked
`fence_old` and have not completed, since the last one that completed, are at most
`max_auto_attempts` of the slot's service. -/
theorem failback_budget (env : Env) {p : Fabric × Wasted}
    (h : Transition.Reachable ((sequential env).withHistory (fun _ => 0) (noteWasted env))
      (fun p c => uneventful env p.1 c = true) p) (slot : ServiceSlotKey) {svc : ServiceDefinition}
    (hsvc : p.1.serviceForSlot slot = some svc) :
    p.2 slot ≤ svc.antiFlapping.maxAutoAttempts.toNat := by
  have hinv : Budgeted p.1 p.2 := by
    refine h.invariant (P := fun p => Budgeted p.1 p.2) ?_ fun p c _ hp hok => ?_
    · rintro ⟨s, n⟩ ⟨⟨cfg, rfl⟩, rfl⟩
      exact ⟨IndexedVec.indexed_empty.sound, IndexedVec.indexed_empty.sound,
        fun _ hpref => (by cases hpref), fun _ => Nat.zero_le _,
        fun _ hn => absurd hn (Nat.lt_irrefl 0), fun _ hn => absurd hn (Nat.lt_irrefl 0)⟩
    · cases c with
      | op o =>
        refine hp.op fun blob he => ?_
        rw [he] at hok
        cases hok
      | plan plan ops rd => exact hp.keeps (runAttempt_keepsBooks rd 19 p.1 { plan := plan, ops := ops })
      | failback slot ops rd => exact hp.failback hok
  rcases Nat.eq_zero_or_pos (p.2 slot) with hzero | hpos
  · omega
  · obtain ⟨svc', hsvc', hle⟩ := hinv.within slot hpos
    cases hsvc.symm.trans hsvc'
    exact Nat.le_trans (hinv.wasted slot) hle

namespace Reference

/-- The replacement cannot be activated: the old boot is fenced, and the attempt needs
recovery. -/
def stuck : CutoverOps := { ops with activate := fun _ _ _ => {} }

/-- The slot fails over to target 2, target 1 comes back, and failbacks follow. -/
def failbacksAfter (n : Nat) : List WholeCall :=
  (.createService returning :: setup.tail).map .op ++
    [.plan (planOf (after (.createService returning :: setup.tail))) ops fun _ => {},
      .op (.registerTarget ⟨1⟩ []), .op (.publishCandidateFacts 0 (facts 1 12))] ++
    List.replicate n (.failback slot stuck fun _ => {})

/-- The run with its wasted failbacks. -/
def wastedAfter (n : Nat) : Fabric × Wasted :=
  ((sequential env).withHistory (fun _ => 0) (noteWasted env)).run ({}, fun _ => 0)
    (failbacksAfter n)

end Reference

open Reference in
/-- The budget is 3: three failbacks fence and fail, and the fourth and the fifth are
refused. -/
theorem failback_budget_reference :
    (wastedAfter 5).2 slot = 3 ∧
      (wastedAfter 5).2 slot ≤ returning.antiFlapping.maxAutoAttempts.toNat := by
  have hstart : Transition.Reachable ((sequential env).withHistory (fun _ => 0) (noteWasted env))
      (fun p c => uneventful env p.1 c = true) ({}, fun _ => 0) := .initial ⟨⟨{}, rfl⟩, rfl⟩
  have hreach : Transition.Reachable ((sequential env).withHistory (fun _ => 0) (noteWasted env))
      (fun p c => uneventful env p.1 c = true) (wastedAfter 5) :=
    hstart.run (b := fun (p : Fabric × Wasted) c => uneventful env p.1 c) (failbacksAfter 5)
      (by decide +kernel)
  exact ⟨by decide +kernel, failback_budget env hreach slot (by decide +kernel)⟩

end FailoverFabric
