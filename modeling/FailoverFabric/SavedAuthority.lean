import FailoverFabric.ExclusiveAssignment
import FailoverFabric.Fabric.Rebuild

/-! # Saved authority after a load

A load brings back assignments that were active when they were saved.  What keeps
the gate shut for them afterwards depends on the file.

`interrupted_never_revived`: from a file with an unfinished cutover, every
current assignment is demoted, and only a commit, an initial assignment or
another load on the slot can change that.

`saved_authority_withheld`: from any other file the assignments stay active, and
the gate is shut by the slot's route, which awaits revalidation.  A file without a
route for the slot is enough to open it (`saved_authority_replayed`).
-/
namespace FailoverFabric
open Fabric Persistence

/-! ## Steps that leave the assignment of a slot alone -/

/-- No file is loaded, no initial assignment is made for the slot, and no call
completes on it. -/
structure LeavesSlot (env : Env) (key : ServiceSlotKey) (σ : SystemState) (l : Label) : Prop where
  load : ∀ blob, l ≠ .op (.load blob)
  restart : ∀ cfg, l ≠ .restart cfg
  initial : ∀ now a, l = .op (.setInitialAssignment now a) → a.slot ≠ key
  completed : ∀ i a, JustCompleted env σ l i a → a.slot ≠ key

theorem attemptStep_current {rd : Readings} {s : Fabric} {a : Attempt}
    (h : s.slots.Sound (·.slot)) {key : ServiceSlotKey}
    (hcommit : CommitStep rd.now s a (s.attemptStep rd a) → a.slot ≠ key) :
    (s.attemptStep rd a).1.currentAssignment key = s.currentAssignment key := by
  rcases attemptStep_commits rd s a with ⟨hslots, -⟩ | hc
  · exact currentAssignment_congr hslots key
  · rw [hc.fabric, commit_current h, if_neg fun hk => hcommit hc hk.1.symm]

/-- **Such a step leaves the current assignment as it is.** -/
theorem step_current {env : Env} {σ : SystemState} {l : Label} {key : ServiceSlotKey}
    (h : σ.fabric.slots.Sound (·.slot)) (hl : LeavesSlot env key σ l) :
    (σ.step env l).fabric.currentAssignment key = σ.fabric.currentAssignment key := by
  have heff := step_effect env σ l
  generalize hσ' : σ.step env l = σ' at heff
  cases heff with
  | applied o =>
    have heff := op_authority env σ o
    show (σ.fabric.apply env o).currentAssignment key = _
    generalize σ.fabric.apply env o = s' at heff
    cases heff with
    | kept hslots _ =>
      exact currentAssignment_congr hslots key
    | assigned hs =>
      rw [(initial_current h (setInitialAssignment_eq_ok hs)).2, if_neg]
      exact fun hk => hl.initial _ _ rfl hk.symm
    | loaded _ => exact absurd rfl (hl.load _)
  | settled hf _ =>
    exact currentAssignment_congr (by rw [hf]) key
  | stepped a hb hf hafter _ =>
    rw [hf]
    refine attemptStep_current h fun hc => ?_
    have hdone := hl.completed _ _ (justCompleted_of_commit hb (hσ' ▸ hafter) hc)
    rwa [hc.same.slot] at hdone
  | restarted _ _ => exact absurd rfl (hl.restart _)

/-! ## After an interrupted cutover -/

/-- The gate refuses every authorization for a slot without an active
assignment. -/
theorem dispatchAllowed_inactive {s : Fabric} {auth : WorkerAuthorization}
    (h : ∀ cur, s.currentAssignment auth.slot = some cur → cur.state ≠ .active) :
    (s.dispatchAllowed auth).allowed = false := by
  rw [← Bool.not_eq_true, dispatchAllowed_iff]
  rintro ⟨cur, hs, -⟩
  exact h cur hs.current hs.active

/-- A load of an interrupted cutover leaves nothing active. -/
theorem restore_inactive {s : Fabric} {snap : PersistenceSnapshot} (hi : interrupted snap = true)
    (hp : snap.pendingAssignment.isSome = true) {key : ServiceSlotKey} {cur : Assignment}
    (h : (s.restore snap).currentAssignment key = some cur) : cur.state ≠ .active := by
  obtain ⟨b, -, hactive, -, rfl⟩ := mem_of_restore_current h
  simp [reconciled, hi, reconcileAssignment, hactive, hp]

/-- **An interrupted cutover is never revived.**  After a load of any file with an
unfinished cutover and a pending assignment, in any state: no slot has an active
assignment, and the gate refuses every authorization; and so it stays for a slot
until a call completes on it, an initial assignment is made for it, or another
file is loaded. -/
theorem interrupted_never_revived (env : Env) (σ : SystemState) {blob : List UInt8}
    {snap : PersistenceSnapshot} (hd : decode env.ord blob = .ok snap)
    (hi : interrupted snap = true) (hp : snap.pendingAssignment.isSome = true)
    (key : ServiceSlotKey) {τ : SystemState}
    (h : Transition.Later (machine env) (LeavesSlot env key) (σ.step env (.op (.load blob))) τ) :
    (∀ cur, τ.fabric.currentAssignment key = some cur → cur.state ≠ .active) ∧
      ∀ auth : WorkerAuthorization, auth.slot = key →
        (τ.fabric.authorizeDispatch auth).allowed = false := by
  have hload : (σ.step env (.op (.load blob))).fabric = σ.fabric.restore snap :=
    apply_load hd σ.fabric
  have hτ : τ.fabric.slots.Sound (·.slot) ∧
      ∀ cur, τ.fabric.currentAssignment key = some cur → cur.state ≠ .active := by
    refine h.stable (P := fun τ => τ.fabric.slots.Sound (·.slot) ∧
      ∀ cur, τ.fabric.currentAssignment key = some cur → cur.state ≠ .active) ?_ ?_
    · intro τ l hτ hl
      refine ⟨slots_sound_step hτ.1, fun cur hcur => ?_⟩
      exact hτ.2 cur ((step_current hτ.1 hl).symm.trans hcur)
    · rw [hload]
      exact ⟨(SlotsWellFormed.rebuildSlots snap).indexed.sound, fun _ => restore_inactive hi hp⟩
  refine ⟨hτ.2, fun auth ha => dispatchAllowed_inactive ?_⟩
  rw [ha]
  exact hτ.2

/-- An operation completes no call. -/
theorem not_justCompleted_op {env : Env} {σ : SystemState} {o : Op} {i : Nat} {a : Attempt} :
    ¬ JustCompleted env σ (.op o) i a := by
  intro h
  obtain ⟨rd, -, -, he, -⟩ := h.commit
  cases he

namespace Reference

/-- The saved file of a fabric, and what it decodes to. -/
def fileOf (s : Fabric) : Option (List UInt8 × PersistenceSnapshot) :=
  match s.save with
  | .error _ => none
  | .ok blob =>
    match decode env.ord blob with
    | .error _ => none
    | .ok snap => some (blob, snap)

theorem fileOf_eq_some {s : Fabric} {blob : List UInt8} {snap : PersistenceSnapshot}
    (h : fileOf s = some (blob, snap)) : decode env.ord blob = .ok snap := by
  unfold fileOf at h
  split at h
  · cases h
  split at h
  · cases h
  · rename_i hd
    cases h
    exact hd

/-- A route of the slot that leads nowhere in particular. -/
def strayRoute : RouteEntry := { route := ⟨9⟩, generation := ⟨9⟩, slot := slot, state := .acknowledged }

end Reference

open Reference in
/-- The cutover that stops at its intent, loaded into a fresh fabric: not even an
accepted route brings its source back. -/
theorem interrupted_never_revived_reference :
    ∃ blob snap, decode env.ord blob = .ok snap ∧ interrupted snap = true ∧
      snap.pendingAssignment.isSome = true ∧
      ∀ auth : WorkerAuthorization, auth.slot = slot →
        (((machine env).run { fabric := {} } [.op (.load blob),
          .op (.installRoute { strayRoute with epoch := snap.epoch } ⟨7⟩)]).fabric.authorizeDispatch
            auth).allowed = false := by
  have hfile : (fileOf ((machine env).run deployed stoppedAtIntent).fabric).any (fun f =>
      interrupted f.2 && f.2.pendingAssignment.isSome) = true := by decide +kernel
  obtain ⟨⟨blob, snap⟩, hf, ht⟩ := (Option.any_eq_true _ _).mp hfile
  obtain ⟨hi, hp⟩ := Bool.and_eq_true_iff.mp ht
  refine ⟨blob, snap, fileOf_eq_some hf, hi, hp, fun auth ha => ?_⟩
  refine (interrupted_never_revived env { fabric := {} } (fileOf_eq_some hf) hi hp slot
    (.tail .refl ⟨.op (.installRoute _ _), ?_, rfl⟩)).2 auth ha
  refine ⟨fun _ he => ?_, fun _ he => ?_, fun _ _ he => ?_, fun _ _ h => ?_⟩
  · cases he
  · cases he
  · cases he
  · exact absurd h not_justCompleted_op

/-! ## After a load in general

Without an unfinished cutover a loaded assignment stays active, and what shuts the
gate is its slot's route, which awaits revalidation — if there is one. -/

/-- The routes that a load replays. -/
def replayed (snap : PersistenceSnapshot) : RouteTable :=
  snap.routes.foldl (fun t e => (RouteTable.install t e).1) {}

/-- **The file covers a slot**: each active assignment of it is on a fenced boot, or
it is on some boot and comes with a route of the slot. -/
def Covered (snap : PersistenceSnapshot) (key : ServiceSlotKey) : Prop :=
  ∀ a ∈ snap.assignments, a.state = .active → a.slot = key →
    a.workerBoot ∈ snap.fencedBoots ∨
      a.workerBoot ≠ .null ∧ ((replayed snap).current key).isSome = true

instance (snap : PersistenceSnapshot) (key : ServiceSlotKey) : Decidable (Covered snap key) :=
  inferInstanceAs (Decidable (∀ a ∈ snap.assignments, _))

/-- No call on the slot is in progress. -/
def Idle (key : ServiceSlotKey) (σ : SystemState) : Prop :=
  ∀ i a, σ.attemptAt i = some a → a.slot = key → a.stage = .validating ∨ Ended a

/-- No commit, initial assignment or accepted route for the slot; and files are
loaded only if they cover the slot, and only while it is idle. -/
structure GrantsNothing (env : Env) (key : ServiceSlotKey) (σ : SystemState) (l : Label) :
    Prop where
  initial : ∀ now a, l = .op (.setInitialAssignment now a) → a.slot ≠ key
  completed : ∀ i a, JustCompleted env σ l i a → a.slot ≠ key
  route : ∀ e boot, l = .op (.installRoute e boot) → (σ.fabric.installRoute e boot).2 = true →
    e.slot ≠ key
  load : ∀ blob snap, l = .op (.load blob) → decode env.ord blob = .ok snap →
    Covered snap key ∧ Idle key σ
  restart : ∀ cfg blob snap, l = .restart cfg → σ.fabric.save = .ok blob →
    decode env.ord blob = .ok snap → Covered snap key

/-- The gate is shut for the slot's assignment, and every attempt on it deals with
that assignment before it opens a route. -/
structure Withheld (key : ServiceSlotKey) (σ : SystemState) : Prop where
  current : ∀ cur, σ.fabric.currentAssignment key = some cur → cur.state = .active →
    cur.workerBoot ∈ σ.fabric.fencedBoots ∨
      cur.workerBoot ≠ .null ∧ σ.fabric.routeShut key = true
  source : ∀ i a, σ.attemptAt i = some a → a.stage = .validating ∨ Ended a ∨
    (a.slot = key → a.oldAssign = σ.fabric.currentAssignment key)
  fenced : ∀ i a, σ.attemptAt i = some a → a.slot = key → a.stage.pastFence = true →
    ∀ old, a.oldAssign = some old → old.workerBoot = .null ∨ old.workerBoot ∈ σ.fabric.fencedBoots

theorem Withheld.refuses {key : ServiceSlotKey} {σ : SystemState} (h : Withheld key σ)
    {auth : WorkerAuthorization} (ha : auth.slot = key) :
    (σ.fabric.authorizeDispatch auth).allowed = false := by
  show (σ.fabric.dispatchAllowed auth).allowed = false
  rw [← Bool.not_eq_true, dispatchAllowed_iff]
  rintro ⟨cur, hs, -⟩
  rw [ha] at hs
  rcases h.current cur hs.current hs.active with hf | ⟨-, hshut⟩
  · exact hs.unfenced hf
  · rw [hs.route] at hshut
    cases hshut

/-! ### What keeps a route shut -/

/-- What is done to one slot's route short of an accepted one keeps it shut. -/
theorem Fabric.RouteEffect.shut {s s' : Fabric} {key : ServiceSlotKey} {o : Op}
    (h : RouteEffect s key o s')
    (hno : ∀ e boot, o = .installRoute e boot → (s.installRoute e boot).2 = true → e.slot ≠ key)
    (hs : s.routeShut key = true) : s'.routeShut key = true := by
  obtain ⟨e, he, hstate⟩ := routeShut_iff.mp hs
  cases h with
  | bound g h =>
    rw [he] at h
    exact routeShut_iff.mpr ⟨_, h, hstate⟩
  | revalidated h =>
    rw [he] at h
    refine routeShut_iff.mpr ⟨_, h, ?_⟩
    rcases RouteTable.revalidated_state (RouteTable.current_state he) with hr | hr
    · exact Or.inl hr
    · exact Or.inr (Or.inr hr)
  | installed hacc hslot _ => exact absurd hslot (hno _ _ rfl hacc)

/-! ### The steps -/

namespace Withheld
variable {env : Env} {key : ServiceSlotKey} {σ σ' : SystemState}

/-- A load of a file that covers the slot, while it is idle. -/
theorem restore {s : Fabric} {snap : PersistenceSnapshot} (hc : Covered snap key)
    (hfab : σ'.fabric = s.restore snap) (hidle : Idle key σ') : Withheld key σ' := by
  refine ⟨fun cur hcur hactive => ?_, fun i a ha => ?_, fun i a ha hk hst _ _ => ?_⟩
  · rw [hfab] at hcur ⊢
    obtain ⟨b, hb, hbactive, hslot, rfl⟩ := mem_of_restore_current hcur
    rw [reconciled_eq]
    refine (hc b hb hbactive hslot).imp_right fun ⟨hnull, hroute⟩ => ⟨hnull, ?_⟩
    exact routeShut_revalidated (t := replayed snap) rfl hroute
  · by_cases hk : a.slot = key
    · exact (hidle i a ha hk).imp_right Or.inl
    · exact Or.inr (Or.inr fun h => absurd h hk)
  · rcases hidle i a ha hk with hv | hend
    · rw [hv] at hst
      cases hst
    · rw [(stage_of_ended hend).1] at hst
      cases hst

/-- A step that leaves the slot's assignment, its route and all fences alone, and
only begins calls. -/
theorem kept (h : Withheld key σ) (hopens : OpensOnly σ σ')
    (hcur : σ'.fabric.currentAssignment key = σ.fabric.currentAssignment key)
    (hfences : σ'.fabric.fencedBoots = σ.fabric.fencedBoots)
    (hshut : σ.fabric.routeShut key = true → σ'.fabric.routeShut key = true) :
    Withheld key σ' := by
  refine ⟨fun cur hc hactive => ?_, ?_, ?_⟩
  · rw [hcur] at hc
    rw [hfences]
    exact (h.current cur hc hactive).imp_right fun ⟨hnull, hs⟩ => ⟨hnull, hshut hs⟩
  · rw [hcur]
    exact hopens.attempts (fun _ _ _ => Or.inl rfl) h.source
  · rw [hfences]
    exact hopens.attempts (fun _ _ _ _ hst => by cases hst) h.fenced

/-- An attempt replaces what it found in its slot. -/
theorem source_step {s : Fabric} {rd : Readings} {a : Attempt}
    (h : a.stage = .validating ∨ Ended a ∨ (a.slot = key → a.oldAssign = s.currentAssignment key)) :
    (s.attemptStep rd a).2.stage = .validating ∨ Ended (s.attemptStep rd a).2 ∨
      ((s.attemptStep rd a).2.slot = key →
        (s.attemptStep rd a).2.oldAssign = s.currentAssignment key) := by
  refine attemptStep_new (P := fun a => a.slot = key → a.oldAssign = s.currentAssignment key) ?_ ?_ h
  · intro a' _ hacc hk
    rw [Attempt.slot, hacc.plan] at hk
    rw [hacc.old, Attempt.slot, hk]
  · intro a' hsame _ hP hk
    rw [hsame.slot] at hk
    rw [hsame.old]
    exact hP hk

/-- Past its fence, an attempt has fenced what it replaces. -/
theorem fenced_step {s : Fabric} {rd : Readings} {a : Attempt}
    (h : a.slot = key → a.stage.pastFence = true → ∀ old, a.oldAssign = some old →
      old.workerBoot = .null ∨ old.workerBoot ∈ s.fencedBoots)
    (hk : (s.attemptStep rd a).2.slot = key)
    (hst : (s.attemptStep rd a).2.stage.pastFence = true) {old : Assignment}
    (hold : (s.attemptStep rd a).2.oldAssign = some old) :
    old.workerBoot = .null ∨ old.workerBoot ∈ (s.attemptStep rd a).1.fencedBoots := by
  have hval : a.stage ≠ .validating := fun hv => by
    rcases attemptStep_pastFence hst with hp | ⟨hp, -⟩ <;> rw [hv] at hp <;> cases hp
  have hsame := attemptStep_same rd s a hval
  rw [hsame.slot] at hk
  rw [hsame.old] at hold
  rcases attemptStep_pastFence hst with hp | ⟨-, hfence⟩
  · exact (h hk hp old hold).imp_right attemptStep_fences
  · rw [hfence, fenceOldBoot, hold]
    exact addFencedBoot_fenced s old.workerBoot

/-- A step of an attempt opens the slot's route only past the fence of the slot's
assignment. -/
theorem stepped {i : Nat} {rd : Readings} {a : Attempt} (h : Withheld key σ)
    (hsound : σ.fabric.slots.Sound (·.slot)) (hcons : Consistent a)
    (hb : σ.attemptAt i = some a) (hf : σ'.fabric = (σ.fabric.attemptStep rd a).1)
    (hafter : σ'.attemptAt i = some (σ.fabric.attemptStep rd a).2)
    (hothers : ∀ j, j ≠ i → σ'.attemptAt j = σ.attemptAt j)
    (hcommit : CommitStep rd.now σ.fabric a (σ.fabric.attemptStep rd a) → a.slot ≠ key) :
    Withheld key σ' := by
  have hcur : σ'.fabric.currentAssignment key = σ.fabric.currentAssignment key := by
    rw [hf]
    exact attemptStep_current hsound hcommit
  have hfences : ∀ {b}, b ∈ σ.fabric.fencedBoots → b ∈ σ'.fabric.fencedBoots := by
    intro b hbf
    rw [hf]
    exact attemptStep_fences hbf
  refine ⟨fun cur hc hactive => ?_, ?_, ?_⟩
  · rw [hcur] at hc
    rcases h.current cur hc hactive with hfen | ⟨hnull, hshut⟩
    · exact Or.inl (hfences hfen)
    rcases attemptStep_routes rd σ.fabric a with hr | ⟨hst, -, hr⟩
    · refine Or.inr ⟨hnull, (routeShut_congr ?_).trans hshut⟩
      rw [hf, hr]
    have hprep := hcons.route (by rw [hst]; rfl)
    by_cases hk : a.slot = key
    -- the route opens, but its attempt has fenced the assignment that it found
    · have hsource : a.oldAssign = some cur := by
        rw [← hc]
        exact holds_of_progress (h.source i a hb) (by rw [hst]; rfl) hk
      rcases h.fenced i a hb hk (by rw [hst]; rfl) cur hsource with hn | hfen
      · exact absurd hn hnull
      · exact Or.inl (hfences hfen)
    · refine Or.inr ⟨hnull, (routeShut_congr ?_).trans hshut⟩
      rw [hf, hr]
      exact RouteTable.current_install_of_ne hprep.not_empty
        fun _ hs => hk (hprep.slot.symm.trans hs)
  · rw [hcur]
    exact attempts_stepped hafter hothers (source_step (h.source i a hb)) h.source
  · refine attempts_stepped hafter hothers ?_ ?_
    · intro hk hst old hold
      rw [hf]
      exact fenced_step (h.fenced i a hb) hk hst hold
    · exact fun j a' hj hk hst old hold => (h.fenced j a' hj hk hst old hold).imp_right hfences

/-- An operation that loads nothing. -/
theorem applied {o : Op} (h : Withheld key σ) (hsound : σ.fabric.slots.Sound (·.slot))
    (hok : GrantsNothing env key σ (.op o))
    (hno : ∀ blob snap, o = .load blob → decode env.ord blob ≠ .ok snap) :
    Withheld key { σ with fabric := σ.fabric.apply env o } := by
  by_cases hload : ∃ blob, o = .load blob
  · obtain ⟨blob, rfl⟩ := hload
    rw [apply_load_refused fun snap => hno blob snap rfl]
    exact h
  · have hload : ∀ blob, o ≠ .load blob := fun blob ho => hload ⟨blob, ho⟩
    refine h.kept (fun _ => Or.inl rfl) ?_ (apply_fences hload) fun hs => ?_
    · exact step_current (l := .op o) hsound
        ⟨fun blob he => hload blob (by cases he; rfl), fun _ he => (by cases he), hok.initial,
          hok.completed⟩
    · refine (apply_route env σ.fabric o key hload).shut (fun e boot he => ?_) hs
      exact hok.route e boot (by rw [he])

theorem step {l : Label} (hreach : Transition.Reachable (machine env) (fun _ _ => True) σ)
    (h : Withheld key σ) (hok : GrantsNothing env key σ l) : Withheld key (σ.step env l) := by
  have hsound := slots_sound hreach
  have heff := step_effect env σ l
  generalize hσ' : σ.step env l = σ' at heff
  cases heff with
  | applied o =>
    by_cases hload : ∃ blob snap, o = .load blob ∧ decode env.ord blob = .ok snap
    · obtain ⟨blob, snap, rfl, hd⟩ := hload
      obtain ⟨hc, hidle⟩ := hok.load blob snap rfl hd
      exact restore (s := σ.fabric) hc (apply_load hd σ.fabric) hidle
    · exact h.applied hsound hok fun blob snap ho hd => hload ⟨blob, snap, ho, hd⟩
  | settled hf hopens =>
    exact h.kept hopens (currentAssignment_congr (by rw [hf]) key) (by rw [hf])
      fun hs => (routeShut_congr (by rw [hf])).trans hs
  | stepped a hb hf hafter hothers =>
    refine h.stepped hsound (consistent_reachable hreach hb) hb hf hafter hothers fun hc => ?_
    have hdone := hok.completed _ _ (justCompleted_of_commit hb (hσ' ▸ hafter) hc)
    rwa [hc.same.slot] at hdone
  | restarted hsave hd =>
    refine restore (s := _) (hok.restart _ _ _ rfl hsave hd) rfl fun i a ha => ?_
    simp [SystemState.attemptAt] at ha

end Withheld

/-- **Saved authority is withheld.**  After a load of a file that covers a slot into
a fresh fabric, the gate refuses every authorization for the slot, and keeps
refusing until a call commits on it, an initial assignment is made for it, or a
route of it is accepted, as long as every later file covers it too. -/
theorem saved_authority_withheld (env : Env) (cfg : RuntimeConfig) {blob : List UInt8}
    {snap : PersistenceSnapshot} (hd : decode env.ord blob = .ok snap) {key : ServiceSlotKey}
    (hc : Covered snap key) {τ : SystemState}
    (h : Transition.Later (machine env) (GrantsNothing env key)
      ((machine env).step { fabric := { cfg := cfg } } (.op (.load blob))) τ) :
    ∀ auth : WorkerAuthorization, auth.slot = key →
      (τ.fabric.authorizeDispatch auth).allowed = false := by
  have hτ : Transition.Reachable (machine env) (fun _ _ => True) τ ∧ Withheld key τ := by
    refine h.stable (P := fun τ => Transition.Reachable (machine env) (fun _ _ => True) τ ∧
      Withheld key τ) (fun τ l hτ hl => ⟨.step hτ.1 trivial, hτ.2.step hτ.1 hl⟩) ?_
    refine ⟨.step (.initial ⟨cfg, rfl⟩) trivial, ?_⟩
    refine Withheld.restore (s := { cfg := cfg }) hc ?_ fun i a ha => ?_
    · simp [machine, SystemState.step, Fabric.apply, load_eq_ok.mpr ⟨snap, hd, rfl⟩, orSelf]
    · simp [machine, SystemState.step, SystemState.attemptAt] at ha
  exact fun auth ha => hτ.2.refuses ha

namespace Reference

/-- The authorization that names the initial assignment, in a file's epoch. -/
def initialAuth (snap : PersistenceSnapshot) : WorkerAuthorization :=
  { epoch := snap.epoch, slot := slot, assignment := ⟨1⟩, workerBoot := ⟨11⟩ }

/-- The reference deployment after a cutover, which installed a route. -/
def cutOver : Fabric := ((machine env).run deployed (callOf 0 (planOf deployed.fabric))).fabric

end Reference

open Reference in
/-- The file of a deployment with a route covers the slot, and binding a gateway to
the route opens nothing. -/
theorem saved_authority_withheld_reference :
    ∃ blob snap, decode env.ord blob = .ok snap ∧ Covered snap slot ∧
      (snap.assignments.any fun a => a.state == .active) = true ∧
      ∀ auth : WorkerAuthorization, auth.slot = slot →
        (((machine env).run { fabric := {} } [.op (.load blob),
          .op (.bindRouteGateway slot ⟨8⟩)]).fabric.authorizeDispatch auth).allowed = false := by
  have hfile : (fileOf cutOver).any (fun f =>
      decide (Covered f.2 slot) && f.2.assignments.any fun a => a.state == .active) = true := by
    decide +kernel
  obtain ⟨⟨blob, snap⟩, hf, ht⟩ := (Option.any_eq_true _ _).mp hfile
  obtain ⟨hc, hactive⟩ := Bool.and_eq_true_iff.mp ht
  have hc : Covered snap slot := of_decide_eq_true hc
  refine ⟨blob, snap, fileOf_eq_some hf, hc, hactive, ?_⟩
  refine saved_authority_withheld env {} (fileOf_eq_some hf) hc
    (.tail .refl ⟨.op (.bindRouteGateway slot ⟨8⟩), ?_, rfl⟩)
  refine ⟨fun _ _ he => ?_, fun _ _ h => absurd h not_justCompleted_op, fun _ _ he => ?_,
    fun _ _ he => ?_, fun _ _ _ he => ?_⟩ <;> cases he

open Reference in
/-- **Saved authority is replayed where there is no route.**  The reference
deployment is saved before any route was installed: a fresh fabric that loads the
file lets the saved assignment dispatch at once. -/
theorem saved_authority_replayed :
    ¬ ∀ blob snap, decode env.ord blob = .ok snap → interrupted snap = false →
      ∀ auth : WorkerAuthorization,
        (((machine env).step { fabric := {} } (.op (.load blob))).fabric.authorizeDispatch
          auth).allowed = false := by
  intro h
  have hfile : (fileOf deployed.fabric).any (fun f => !interrupted f.2 &&
      (((machine env).step { fabric := {} } (.op (.load f.1))).fabric.authorizeDispatch
        (initialAuth f.2)).allowed) = true := by decide +kernel
  obtain ⟨⟨blob, snap⟩, hf, ht⟩ := (Option.any_eq_true _ _).mp hfile
  obtain ⟨hi, hallowed⟩ := Bool.and_eq_true_iff.mp ht
  have hrefused := h blob snap (fileOf_eq_some hf) (by simpa using hi) (initialAuth snap)
  exact Bool.false_ne_true (hrefused.symm.trans hallowed)

end FailoverFabric
