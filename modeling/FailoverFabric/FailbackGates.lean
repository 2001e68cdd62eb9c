import FailoverFabric.FailbackBudget

/-! # Failbacks beside other calls

`execute_failback` evaluates its gates under one lock, reads the preferred target under a
second, plans under a third, and commits under a last one, after the effects.  Other
calls may fall between any two of them.

The authorization of a manual failback is entered into a set and never taken out.  The
cutovers that failbacks start are at most as many as the authorizations in every run in
which none is started on an authorization that another one has used up
(`authorizations_suffice`).
-/
namespace FailoverFabric
open Fabric

/-! ## The steps of a failback -/

/-- The call has not started its cutover, nor ended. -/
def Failback.undecided (f : Failback) : Bool :=
  match f.stage with
  | .evaluating => true
  | .reading => true
  | .planning _ => true
  | _ => false

/-- The call has passed its evaluation, and has not started its cutover. -/
def Failback.passed (f : Failback) : Bool :=
  match f.stage with
  | .reading => true
  | .planning _ => true
  | _ => false

namespace Fabric
variable {env : Env} {rd : Readings} {s : Fabric} {f : Failback}

/-- The next step of the call starts a cutover. -/
def opens (env : Env) (s : Fabric) (f : Failback) : Bool :=
  match f.stage with
  | .planning pref =>
    match (s.planFailoverPref env.rank f.slot (some pref)).2 with
    | .ok (some _) => true
    | _ => false
  | _ => false

/-- What a step of a failback does. -/
inductive FailbackEffect (env : Env) (rd : Readings) (s : Fabric) (f : Failback)
    (r : Fabric × Failback) : Prop
  | authorized {svc : ServiceDefinition} {pref : TargetId} (before : f.stage = .evaluating)
      (authorizes : Authorizes s rd f.slot svc pref) (fabric : r.1 = s)
      (after : r.2.stage = .reading)
  | read {pref : TargetId} (before : f.stage = .reading) (fabric : r.1 = s)
      (after : r.2.stage = .planning pref)
  | opened {pref : TargetId} {plan : FailoverPlan} (before : f.stage = .planning pref)
      (planned : (s.planFailoverPref env.rank f.slot (some pref)).2 = .ok (some plan))
      (fabric : r.1 = { s with snapshotCounter := r.1.snapshotCounter })
      (after : r.2.stage = .cutting { plan := plan, ops := f.ops })
  | refused (before : f.undecided = true) (closed : opens env s f = false)
      (fabric : r.1 = { s with snapshotCounter := r.1.snapshotCounter })
      (after : FailbackEnded r.2)
  | cut {a : Attempt} (before : f.stage = .cutting a) (fabric : r.1 = (s.attemptStep rd a).1)
      (after : r.2.stage = afterAttempt (s.attemptStep rd a).2)
  | settled {a : Attempt} (before : f.stage = .settling a)
      (fabric : r.1 = s.settleFailback rd.now f.slot a.result.state) (after : FailbackEnded r.2)
  | ended (before : FailbackEnded f) (same : r = (s, f))

/-- **A step of a failback, inverted.** -/
theorem failbackStep_effect (env : Env) (rd : Readings) (s : Fabric) (f : Failback) :
    FailbackEffect env rd s f (s.failbackStep env rd f) := by
  unfold failbackStep
  cases hst : f.stage with
  | evaluating =>
    simp only
    split
    · rename_i hd
      obtain ⟨svc, pref, hauth⟩ := evaluateFailback_authorized hd
      exact .authorized hst hauth rfl rfl
    · exact .refused (by rw [Failback.undecided, hst]) (by rw [opens, hst]) rfl (Or.inl ⟨_, _, rfl⟩)
  | reading =>
    simp only
    split
    · exact .read hst rfl rfl
    · exact .refused (by rw [Failback.undecided, hst]) (by rw [opens, hst]) rfl (Or.inl ⟨_, _, rfl⟩)
  | planning pref =>
    have hfst := planFailoverPref_fst env.rank s f.slot (some pref)
    have hund : f.undecided = true := by rw [Failback.undecided, hst]
    simp only [planFailback]
    split
    · rename_i s' e hp
      rw [hp] at hfst
      exact .refused hund (by rw [opens, hst]; simp only [hp]) hfst (Or.inr ⟨_, _, rfl⟩)
    · rename_i s' hp
      rw [hp] at hfst
      exact .refused hund (by rw [opens, hst]; simp only [hp]) hfst (Or.inl ⟨_, _, rfl⟩)
    · rename_i s' plan hp
      rw [hp] at hfst
      exact .opened hst (by rw [hp]) hfst rfl
  | cutting a => exact .cut hst rfl rfl
  | settling a => exact .settled hst rfl (Or.inl ⟨_, _, rfl⟩)
  | returned a r => exact .ended (Or.inl ⟨a, r, hst⟩) rfl
  | threw a e => exact .ended (Or.inr ⟨a, e, hst⟩) rfl

theorem failbackStep_slot (env : Env) (rd : Readings) (s : Fabric) (f : Failback) :
    (s.failbackStep env rd f).2.slot = f.slot := by
  unfold failbackStep planFailback
  split
  · simp only
    split <;> rfl
  · split <;> rfl
  · split <;> rfl
  · rfl
  · rfl
  · rfl
  · rfl

theorem not_passed_of_ended (h : FailbackEnded f) : f.passed = false := by
  unfold Failback.passed
  rcases h with ⟨a, r, hst⟩ | ⟨a, e, hst⟩ <;> rw [hst]

theorem not_passed_of_afterAttempt {a : Attempt} (h : f.stage = afterAttempt a) :
    f.passed = false := by
  rw [Failback.passed, h, afterAttempt]
  cases a.stage <;> rfl

theorem passed_of_opens (h : opens env s f = true) : f.passed = true := by
  unfold opens at h
  split at h
  · rename_i pref hst
    rw [Failback.passed, hst]
  · cases h

/-- Only an authorization is entered into the set, and nothing is taken out. -/
theorem apply_authorized (env : Env) (s : Fabric) (o : Op) (h : ∀ slot, o ≠ .authorizeFailback slot) :
    (s.apply env o).manualFailbackAuthorized = s.manualFailbackAuthorized := by
  cases hrep : reports o with
  | false => exact (apply_sameReports env s o hrep).manualFailbackAuthorized
  | true =>
    cases o with
    | registerTarget id transport => rw [apply_registerTarget]
    | publishCandidateFacts now f => rw [apply_publishCandidateFacts]
    | publishCandidateState t st => rw [apply_publishCandidateState]
    | publishCandidateResources t rs => rw [apply_publishCandidateResources]
    | authorizeFailback slot => exact absurd rfl (h slot)
    | load blob =>
      rcases apply_load_cases env s blob with hl | ⟨snap, -, hl⟩
      · rw [hl]
      · rw [hl]
        rfl
    | _ => first | rfl | cases hrep

end Fabric

/-! ## Manual authorizations -/

/-- The authorizations of a slot, the cutovers that its failbacks have started, and
whether it was authorized since the last of them. -/
structure Authorizations where
  authorized : Nat := 0
  started : Nat := 0
  fresh : Bool := false

/-- The step starts a cutover of a failback of the slot. -/
def startsFailback (env : Env) (slot : ServiceSlotKey) (σ : SystemState) : Label → Bool
  | .advance i _ => (σ.calls[i]?).any fun
    | .failback f => f.slot == slot && opens env σ.fabric f
    | .plan _ => false
  | _ => false

def noteAuthorizations (env : Env) (slot : ServiceSlotKey) (σ : SystemState) :
    Label → Authorizations → Authorizations
  | .op (.authorizeFailback key), h =>
    if key = slot then { h with authorized := h.authorized + 1, fresh := true } else h
  | l, h =>
    if startsFailback env slot σ l then { h with started := h.started + 1, fresh := false } else h

/-- The slot's service, as far as it is known, is failed back by hand only. -/
def staysManual (env : Env) (slot : ServiceSlotKey) (σ : SystemState) (l : Label) : Bool :=
  ((σ.step env l).fabric.serviceForSlot slot).all fun svc => svc.failback == .manual

/-- What a run must keep to: a failback of the slot that starts a cutover is the first
to do so, or the slot was authorized again since the last one did. -/
def oncePerAuthorization (env : Env) (slot : ServiceSlotKey) (p : SystemState × Authorizations)
    (l : Label) : Bool :=
  !startsFailback env slot p.1 l || (p.2.started == 0 || p.2.fresh)

/-- **What holds in such a run.** -/
structure OneShot (slot : ServiceSlotKey) (p : SystemState × Authorizations) : Prop where
  manual : ∀ svc, p.1.fabric.serviceForSlot slot = some svc → svc.failback = .manual
  entered : p.1.fabric.manualFailbackAuthorized slot = true → 1 ≤ p.2.authorized
  bound : p.2.started ≤ p.2.authorized
  fresh : p.2.fresh = true → p.2.started + 1 ≤ p.2.authorized
  passed : ∀ (i : Nat) f, p.1.calls[i]? = some (.failback f) → f.slot = slot →
    f.passed = true → 1 ≤ p.2.authorized

/-- The failbacks after a step of a call: those there were, the one that was advanced
apart. -/
theorem advance_calls (env : Env) {σ : SystemState} {i j : Nat} {rd : Readings} {g : Failback}
    (hg : (σ.step env (.advance i rd)).calls[j]? = some (.failback g)) :
    (j ≠ i ∨ σ.calls[i]? = none) ∧ σ.calls[j]? = some (.failback g) ∨
      ∃ f, j = i ∧ σ.calls[i]? = some (.failback f) ∧ g = (σ.fabric.failbackStep env rd f).2 := by
  cases hi : σ.calls[i]? with
  | none =>
    rw [step_advance_none hi] at hg
    exact Or.inl ⟨Or.inr rfl, hg⟩
  | some c =>
    rw [step_advance_some hi] at hg
    rcases getElem?_set_cases hg with ⟨rfl, heq⟩ | ⟨hne, hg⟩
    · cases c with
      | plan a => cases heq
      | failback f =>
        cases heq
        exact Or.inr ⟨f, rfl, rfl, rfl⟩
    · exact Or.inl ⟨Or.inl hne, hg⟩

namespace OneShot
variable {env : Env} {slot : ServiceSlotKey} {p : SystemState × Authorizations} {σ' : SystemState}

/-- A step that enters no authorization and starts no cutover of the slot: every call
that has passed its evaluation after it had before, or finds the slot authorized. -/
theorem kept (h : OneShot slot p)
    (hmanual : ∀ svc, σ'.fabric.serviceForSlot slot = some svc → svc.failback = .manual)
    (hset : σ'.fabric.manualFailbackAuthorized slot = true →
      p.1.fabric.manualFailbackAuthorized slot = true)
    (hcalls : ∀ (i : Nat) f, σ'.calls[i]? = some (.failback f) → f.slot = slot →
      f.passed = true → p.1.calls[i]? = some (.failback f) ∨ 1 ≤ p.2.authorized) :
    OneShot slot (σ', p.2) := by
  refine ⟨hmanual, fun hs => h.entered (hset hs), h.bound, h.fresh, fun i f hf hfs hfp => ?_⟩
  rcases hcalls i f hf hfs hfp with hold | hle
  · exact h.passed i f hold hfs hfp
  · exact hle

/-- The calls stay as they are. -/
theorem same (h : OneShot slot p)
    (hmanual : ∀ svc, σ'.fabric.serviceForSlot slot = some svc → svc.failback = .manual)
    (hset : σ'.fabric.manualFailbackAuthorized slot = true →
      p.1.fabric.manualFailbackAuthorized slot = true)
    (hcalls : ∀ (i : Nat) f, σ'.calls[i]? = some (.failback f) →
      p.1.calls[i]? = some (.failback f)) : OneShot slot (σ', p.2) :=
  h.kept hmanual hset fun i f hf _ _ => Or.inl (hcalls i f hf)

/-- The slot is authorized. -/
theorem authorize (h : OneShot slot p) :
    OneShot slot (p.1.step env (.op (.authorizeFailback slot)),
      { p.2 with authorized := p.2.authorized + 1, fresh := true }) where
  manual := h.manual
  entered _ := Nat.le_add_left 1 _
  bound := Nat.le_succ_of_le h.bound
  fresh _ := Nat.succ_le_succ h.bound
  passed _ _ _ _ _ := Nat.le_add_left 1 _

/-- A failback is called: it has not passed its evaluation. -/
theorem begin (h : OneShot slot p) (key : ServiceSlotKey) (ops : CutoverOps) :
    OneShot slot (p.1.step env (.beginFailback key ops), p.2) := by
  refine h.kept h.manual id fun i f hf _ hfp => ?_
  rcases getElem?_concat_cases hf with hf | ⟨-, heq⟩
  · exact Or.inl hf
  · cases heq
    cases hfp

/-- A failback of the slot that has passed its evaluation finds the slot authorized. -/
theorem passed_step (h : OneShot slot p) {rd : Readings} {i : Nat} {f : Failback}
    (hi : p.1.calls[i]? = some (.failback f)) (hfs : f.slot = slot)
    (hpassed : (p.1.fabric.failbackStep env rd f).2.passed = true) : 1 ≤ p.2.authorized := by
  rcases failbackStep_effect env rd p.1.fabric f with ⟨hst, hauth, -, -⟩ | ⟨hst, -, -⟩ |
    ⟨-, -, -, hst'⟩ | ⟨-, -, -, hend⟩ | ⟨-, -, hst'⟩ | ⟨-, -, hend⟩ | ⟨hend, heq⟩
  · -- the policy gate of a manual service has found the authorization
    have hpolicy := hauth.policy
    rw [h.manual _ (hfs ▸ hauth.service), policyRefusal, hfs] at hpolicy
    split at hpolicy
    · exact h.entered ‹_›
    · cases hpolicy
  · exact h.passed i f hi hfs (by rw [Failback.passed, hst])
  · rw [Failback.passed, hst'] at hpassed
    cases hpassed
  · rw [not_passed_of_ended hend] at hpassed
    cases hpassed
  · rw [not_passed_of_afterAttempt hst'] at hpassed
    cases hpassed
  · rw [not_passed_of_ended hend] at hpassed
    cases hpassed
  · rw [heq, not_passed_of_ended hend] at hpassed
    cases hpassed

/-- The calls after a step of one of them. -/
theorem advance_passed (h : OneShot slot p) {i j : Nat} {rd : Readings} {g : Failback}
    (hg : (p.1.step env (.advance i rd)).calls[j]? = some (.failback g)) (hgs : g.slot = slot)
    (hgp : g.passed = true) : p.1.calls[j]? = some (.failback g) ∨ 1 ≤ p.2.authorized := by
  rcases advance_calls env hg with ⟨-, hg⟩ | ⟨f, rfl, hi, rfl⟩
  · exact Or.inl hg
  · rw [failbackStep_slot] at hgs
    exact Or.inr (h.passed_step hi hgs hgp)

/-- A failback of the slot starts its cutover. -/
theorem opened (h : OneShot slot p) {i : Nat} {rd : Readings} {f : Failback}
    (hi : p.1.calls[i]? = some (.failback f)) (hfs : f.slot = slot)
    (hopens : opens env p.1.fabric f = true) (hready : p.2.started = 0 ∨ p.2.fresh = true)
    (hmanual : ∀ svc, (p.1.step env (.advance i rd)).fabric.serviceForSlot slot = some svc →
      svc.failback = .manual) :
    OneShot slot (p.1.step env (.advance i rd),
      { p.2 with started := p.2.started + 1, fresh := false }) := by
  have hpassed := h.passed i f hi hfs (passed_of_opens hopens)
  have hle : p.2.started + 1 ≤ p.2.authorized := by
    rcases hready with hzero | hfresh
    · rw [hzero]
      exact hpassed
    · exact h.fresh hfresh
  have hset := (advance_confined env p.1 i rd).manualFailbackAuthorized
  exact ⟨hmanual, fun hs => h.entered (hset ▸ hs), hle, fun hf => (by cases hf),
    fun _ _ _ _ _ => hpassed⟩

theorem advance (h : OneShot slot p) {i : Nat} {rd : Readings}
    (hok : oncePerAuthorization env slot p (.advance i rd) = true)
    (hmanual : ∀ svc, (p.1.step env (.advance i rd)).fabric.serviceForSlot slot = some svc →
      svc.failback = .manual) :
    OneShot slot (p.1.step env (.advance i rd), noteAuthorizations env slot p.1 (.advance i rd) p.2) := by
  by_cases hstart : startsFailback env slot p.1 (.advance i rd) = true
  · have hready : p.2.started = 0 ∨ p.2.fresh = true := by
      simpa [oncePerAuthorization, hstart] using hok
    obtain ⟨c, hi, hopens⟩ := (Option.any_eq_true _ _).mp hstart
    simp only [noteAuthorizations, hstart, if_true]
    cases c with
    | plan a => cases hopens
    | failback f =>
      obtain ⟨hfs, hopens⟩ := Bool.and_eq_true_iff.mp hopens
      exact h.opened hi (eq_of_beq hfs) hopens hready hmanual
  · simp only [noteAuthorizations, if_neg hstart]
    refine h.kept hmanual (fun hs => ?_) fun j g hg hgs hgp => h.advance_passed hg hgs hgp
    rwa [(advance_confined env p.1 i rd).manualFailbackAuthorized] at hs

/-- An operation: an authorization of the slot, or one that is none. -/
theorem operated (h : OneShot slot p) {o : Op}
    (hmanual : ∀ svc, (p.1.step env (.op o)).fabric.serviceForSlot slot = some svc →
      svc.failback = .manual) :
    OneShot slot (p.1.step env (.op o), noteAuthorizations env slot p.1 (.op o) p.2) := by
  by_cases hauth : ∃ key, o = .authorizeFailback key
  · obtain ⟨key, rfl⟩ := hauth
    simp only [noteAuthorizations]
    split
    · rename_i hkey
      exact hkey ▸ h.authorize
    · rename_i hkey
      refine h.same hmanual (fun hs => ?_) fun _ _ => id
      have hs : Function.update p.1.fabric.manualFailbackAuthorized key true slot = true := hs
      rwa [Function.update_of_ne (Ne.symm hkey)] at hs
  · have hnote : noteAuthorizations env slot p.1 (.op o) p.2 = p.2 := by
      cases o <;> first | rfl | exact absurd ⟨_, rfl⟩ hauth
    rw [hnote]
    refine h.same hmanual (fun hs => ?_) fun _ _ => id
    have hs : (p.1.fabric.apply env o).manualFailbackAuthorized slot = true := hs
    rwa [apply_authorized env p.1.fabric o fun key he => hauth ⟨key, he⟩] at hs

/-- **One step of such a run.** -/
theorem step (h : OneShot slot p) {l : Label} (hmanual : staysManual env slot p.1 l = true)
    (hok : oncePerAuthorization env slot p l = true) :
    OneShot slot (p.1.step env l, noteAuthorizations env slot p.1 l p.2) := by
  have hmanual' : ∀ svc, (p.1.step env l).fabric.serviceForSlot slot = some svc →
      svc.failback = .manual := by
    intro svc hsvc
    rw [staysManual, hsvc] at hmanual
    exact eq_of_beq hmanual
  cases l with
  | op o => exact h.operated hmanual'
  | beginPlan plan ops =>
    refine h.same hmanual' id fun i f hf => ?_
    rcases getElem?_concat_cases hf with hf | ⟨-, heq⟩
    · exact hf
    · cases heq
  | beginFailback key ops => exact h.begin key ops
  | advance i rd => exact h.advance hok hmanual'
  | restart cfg =>
    show OneShot slot (p.1.step env (.restart cfg), p.2)
    rcases step_restart_cases env p.1 cfg with hstep | ⟨_, _, -, -, hstep⟩
    · rw [hstep]
      exact h
    · rw [hstep] at hmanual' ⊢
      exact h.same hmanual' (fun hs => (by cases hs)) fun _ _ hf => (by cases hf)

end OneShot

/-- **Manual authorizations suffice.**  In every run on a slot whose service is failed
back by hand, in which no failback of the slot starts a cutover after another one has, unless
the slot was authorized again between them: the cutovers that failbacks of the slot have
started are at most as many as its authorizations. -/
theorem authorizations_suffice (env : Env) (slot : ServiceSlotKey)
    {p : SystemState × Authorizations}
    (h : Transition.Reachable ((machine env).withHistory {} (noteAuthorizations env slot))
      (fun p l => (staysManual env slot p.1 l && oncePerAuthorization env slot p l) = true) p) :
    p.2.started ≤ p.2.authorized := by
  have hinv : OneShot slot p := by
    refine h.invariant ?_ fun p l _ hp hok => ?_
    · rintro ⟨σ, a⟩ ⟨⟨cfg, rfl⟩, rfl⟩
      exact ⟨fun _ hsvc => (by cases hsvc), fun hs => (by cases hs), Nat.le_refl 0,
        fun hf => (by cases hf), fun _ _ hf => (by cases hf)⟩
    · obtain ⟨hmanual, honce⟩ := Bool.and_eq_true_iff.mp hok
      exact hp.step hmanual honce
  exact hinv.bound

namespace Reference

/-- The service of the reference deployment, failed back by hand and without delay. -/
def byHand : ServiceDefinition := { service with antiFlapping := { cooldownMs := 0, hysteresisMs := 0 } }

/-- The slot has failed over to target 2, and target 1 is back. -/
def returnable (svc : ServiceDefinition) : List Label :=
  (.createService svc :: setup.tail).map .op ++
    callOf 0 (planOf (after (.createService svc :: setup.tail))) ++
    [.op (.registerTarget ⟨1⟩ []), .op (.publishCandidateFacts 0 (facts 1 12))]

/-- A whole failback that fails, begun as call `i`. -/
def failsBack (i : Nat) : List Label :=
  .beginFailback slot stuck :: List.replicate 23 (.advance i {})

/-- The slot with its authorizations, after some steps. -/
def authorizedRun (ls : List Label) : SystemState × Authorizations :=
  ((machine env).withHistory {} (noteAuthorizations env slot)).run ({ fabric := {} }, {})
    (returnable byHand ++ ls)

end Reference

open Reference in
/-- Two failbacks, each authorized. -/
theorem authorizations_suffice_reference :
    let p := authorizedRun (.op (.authorizeFailback slot) :: failsBack 1 ++
      .op (.authorizeFailback slot) :: failsBack 2)
    p.2.started = 2 ∧ p.2.started ≤ p.2.authorized := by
  intro p
  have hreach : Transition.Reachable ((machine env).withHistory {} (noteAuthorizations env slot))
      (fun p l => (staysManual env slot p.1 l && oncePerAuthorization env slot p l) = true) p :=
    Transition.Reachable.run (b := fun (p : SystemState × Authorizations) l =>
      staysManual env slot p.1 l && oncePerAuthorization env slot p l) _ (.initial ⟨⟨{}, rfl⟩, rfl⟩)
      (by decide +kernel)
  exact ⟨by decide +kernel, authorizations_suffice env slot hreach⟩

open Reference in
/-- **One authorization, two cutovers.**  The slot is authorized once; a failback fails,
and the next one starts a cutover again. -/
theorem authorization_reused :
    ¬ ∀ p, Transition.Reachable ((machine env).withHistory {} (noteAuthorizations env slot))
        (fun p l => staysManual env slot p.1 l = true) p → p.2.started ≤ p.2.authorized := by
  intro h
  let p := authorizedRun (.op (.authorizeFailback slot) :: failsBack 1 ++ failsBack 2)
  have hreach : Transition.Reachable ((machine env).withHistory {} (noteAuthorizations env slot))
      (fun p l => staysManual env slot p.1 l = true) p :=
    Transition.Reachable.run (b := fun (p : SystemState × Authorizations) l =>
      staysManual env slot p.1 l) _ (.initial ⟨⟨{}, rfl⟩, rfl⟩) (by decide +kernel)
  exact absurd (h p hreach) (by decide +kernel)

end FailoverFabric
