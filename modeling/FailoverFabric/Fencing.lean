import FailoverFabric.ExclusiveAssignment
import FailoverFabric.Fabric.Rebuild
import FailoverFabric.Library.FencedAuthority

/-! # Fencing

`fencing_permanent`: a fenced boot stays fenced, through every later operation
and restart, and is refused by the gate and by selection.

`fencing_before_replacement`: in the runs in which every commit displaces the
assignment that its attempt set out to replace, and every restart finds its
current assignments active, every boot that ever held a slot is fenced when
another one takes it.  The runs that are left out are those in which an old boot
keeps its authority: `unfenced_replacement` is one.
-/
namespace FailoverFabric
open Fabric Persistence

/-! ## Fences stay -/

theorem commit_fencedBoots (s : Fabric) (now : Time) (a : Attempt) :
    (s.commit now a).fencedBoots = (s.fenceOldBoot a).fencedBoots := rfl

/-- Loads are of files written by `save` in a state where the boot was fenced. -/
def LoadsFenced (b : WorkerBootId) (_ : SystemState) (l : Label) : Prop :=
  ∀ blob, l = .op (.load blob) → ∃ s : Fabric, b ∈ s.fencedBoots ∧ s.save = .ok blob

/-- What a saved state had fenced, the loaded one has. -/
theorem fencedBoots_of_save {ord : CallOrders} {s : Fabric} {blob : List UInt8}
    {snap : PersistenceSnapshot} (hs : s.save = .ok blob) (hd : decode ord blob = .ok snap) :
    snap.fencedBoots = s.fencedBoots := by
  rw [(decode_save hs hd).1]
  rfl

/-- **One step never takes a fence back.** -/
theorem fenced_step {env : Env} {b : WorkerBootId} {σ : SystemState} {l : Label}
    (hb : b ∈ σ.fabric.fencedBoots) (hok : LoadsFenced b σ l) :
    b ∈ (σ.step env l).fabric.fencedBoots := by
  have heff := step_authority env σ l
  generalize (σ.step env l).fabric = s' at heff
  cases heff with
  | kept _ hf => rwa [hf]
  | assigned hs => rwa [(setInitialAssignment_eq_ok hs).fabric]
  | loaded hd =>
    obtain ⟨s, hbs, hsave⟩ := hok _ rfl
    show b ∈ PersistenceSnapshot.fencedBoots _
    rwa [fencedBoots_of_save hsave hd]
  | fenced _ => exact mem_addFencedBoot_of_mem hb
  | committed _ _ _ => exact fenceOldBoot_mono hb
  | restarted hsave hd =>
    show b ∈ PersistenceSnapshot.fencedBoots _
    rwa [fencedBoots_of_save hsave hd]

/-- Selection returns no fenced boot. -/
theorem select_not_fenced {env : Env} {s : Fabric} {slot : ServiceSlotKey} {sr : SelectionResult}
    {e : Candidate} (h : (s.select env.rank slot).2 = .ok sr)
    (he : sr.selected = some e ∨ e ∈ sr.evaluatedAlternatives) :
    e.facts.workerBoot ∉ s.fencedBoots := by
  obtain ⟨svc, -, c, -, hex, rfl⟩ := select_snd h he
  exact SelectionEngine.not_fenced_of_exclusion hex

theorem planFailoverPref_not_fenced {env : Env} {s : Fabric} {slot : ServiceSlotKey}
    {pref : Option TargetId} {plan : FailoverPlan} {e : Candidate}
    (h : (s.planFailoverPref env.rank slot pref).2 = .ok (some plan)) (he : plan.selected = some e) :
    e.facts.workerBoot ∉ s.fencedBoots := by
  obtain ⟨-, -, e', hsel, svc, -, c, -, hex, rfl⟩ := planFailoverPref_snd h
  rw [hsel] at he
  cases he
  exact SelectionEngine.not_fenced_of_exclusion hex

/-- **Fencing is permanent.**  From any state in which a boot is fenced, in every
later one the gate refuses every authorization for it, and neither selection nor
planning returns a candidate on it. -/
theorem fencing_permanent (env : Env) (b : WorkerBootId) {σ τ : SystemState}
    (hb : b ∈ σ.fabric.fencedBoots)
    (h : Transition.Later (machine env) (LoadsFenced b) σ τ) :
    (∀ auth : WorkerAuthorization, auth.workerBoot = b →
        (τ.fabric.authorizeDispatch auth).allowed = false ∧
          (τ.fabric.authorizeResult auth).allowed = false) ∧
      (∀ slot sr e, (τ.fabric.select env.rank slot).2 = .ok sr →
        (sr.selected = some e ∨ e ∈ sr.evaluatedAlternatives) → e.facts.workerBoot ≠ b) ∧
      (∀ slot plan e, (τ.fabric.planFailover env.rank slot).2 = .ok (some plan) →
        plan.selected = some e → e.facts.workerBoot ≠ b) ∧
      ∀ slot pref plan e, (τ.fabric.planFailoverPref env.rank slot pref).2 = .ok (some plan) →
        plan.selected = some e → e.facts.workerBoot ≠ b := by
  have hτ : b ∈ τ.fabric.fencedBoots :=
    h.stable (P := fun σ => b ∈ σ.fabric.fencedBoots) (fun σ l hσ hok => fenced_step hσ hok) hb
  refine ⟨fun auth ha => ?_, fun slot sr e hsel he heq => ?_, fun slot plan e hp he heq => ?_,
    fun slot pref plan e hp he heq => ?_⟩
  · rw [← ha] at hτ
    exact ⟨dispatchAllowed_fenced hτ, authorizeResult_fenced hτ⟩
  · exact select_not_fenced hsel he (heq ▸ hτ)
  · exact planFailoverPref_not_fenced hp he (heq ▸ hτ)
  · exact planFailoverPref_not_fenced hp he (heq ▸ hτ)

open Reference in
/-- After a cutover away from boot 11, ready facts of that boot change nothing. -/
theorem fencing_permanent_reference :
    let σ := (machine env).run { fabric := {} } (setup.map .op ++ callOf 0 (planOf (after setup)))
    let τ := (machine env).run σ
      [.op (.registerTarget ⟨1⟩ []), .op (.publishCandidateFacts 0 (facts 1 11)), .restart {}]
    (⟨11⟩ : WorkerBootId) ∈ σ.fabric.fencedBoots ∧
      ∀ auth : WorkerAuthorization, auth.workerBoot = ⟨11⟩ →
        (τ.fabric.authorizeDispatch auth).allowed = false := by
  intro σ τ
  have hb : (⟨11⟩ : WorkerBootId) ∈ σ.fabric.fencedBoots := by decide +kernel
  refine ⟨hb, fun auth hauth => ?_⟩
  have hlater : Transition.Later (machine env) (LoadsFenced ⟨11⟩) σ τ := by
    refine .tail (.tail (.tail .refl ⟨_, ?_, rfl⟩) ⟨_, ?_, rfl⟩) ⟨_, ?_, rfl⟩ <;>
      (intro blob he; cases he)
  exact ((fencing_permanent env ⟨11⟩ hb hlater).1 auth hauth).1

/-! ## Fencing before replacement -/

/-- **A commit that replaces an unfenced boot**: the slot has no record, or its
current boot is neither the one that the attempt fences, nor the new one, nor
exempt or fenced already. -/
def replacesUnfenced (s : Fabric) (a : Attempt) : Bool :=
  match s.findSlot a.slot with
  | none => true
  | some st => st.current.any fun cur =>
      !(cur.workerBoot.isNull || s.bootFenced cur.workerBoot ||
        cur.workerBoot == a.newAssign.workerBoot ||
        a.oldAssign.any fun old => old.workerBoot == cur.workerBoot)

/-- A restart that would lose sight of an unfenced boot: the current assignment
of a slot is not active, so that the load files it in the history. -/
def forgetsUnfenced (s : Fabric) : Bool :=
  s.slots.items.any fun st => st.current.any fun cur =>
    cur.state != .active && !cur.workerBoot.isNull && !s.bootFenced cur.workerBoot

/-- Files are loaded by orderly restarts only. -/
def orderly : Label → Bool
  | .op (.load _) => false
  | _ => true

/-- Files are loaded by orderly restarts only; no commit replaces, and no restart
forgets, an unfenced boot. -/
def replacesFenced (σ : SystemState) : Label → Bool
  | .op (.load _) => false
  | .advance i _ =>
    match (σ.calls[i]?).bind Call.attempt with
    | some a =>
      !(a.stage == .verifying && (a.ops.verify a.route a.auth).verified &&
        !σ.fabric.superseded a && replacesUnfenced σ.fabric a)
    | none => true
  | .restart _ => !forgetsUnfenced σ.fabric
  | _ => true

def ReplacesFenced (σ : SystemState) (l : Label) : Prop := replacesFenced σ l = true

theorem ReplacesFenced.commit {σ : SystemState} {i : Nat} {rd : Readings} {c : Call}
    {a : Attempt} {r : Fabric × Attempt} (h : ReplacesFenced σ (.advance i rd))
    (hc : σ.calls[i]? = some c) (ha : c.attempt = some a)
    (hcommit : CommitStep rd.now σ.fabric a r) : replacesUnfenced σ.fabric a = false := by
  unfold ReplacesFenced replacesFenced at h
  simpa [hc, ha, hcommit.before, hcommit.verified, hcommit.superseded] using h

/-- Every record's current assignment is of the record's slot, and so is the
replacement of every attempt in progress. -/
structure SlotsOwned (σ : SystemState) : Prop where
  wellFormed : SlotsWellFormed σ.fabric.slots
  current : ∀ key cur, σ.fabric.currentAssignment key = some cur → cur.slot = key
  attempts : ∀ c ∈ σ.calls, ∀ a, c.attempt = some a →
    a.stage = .validating ∨ Ended a ∨ a.newAssign.slot = a.slot

theorem findSlot_of_replaces {s : Fabric} {a : Attempt} (h : replacesUnfenced s a = false) :
    s.findSlot a.slot ≠ none := by
  intro hnone
  simp [replacesUnfenced, hnone] at h

/-- A committed replacement is of its slot. -/
theorem SlotsOwned.committed {σ : SystemState} {c : Call} {a : Attempt} {now : Time}
    {r : Fabric × Attempt} {i : Nat} (h : SlotsOwned σ) (hc : σ.calls[i]? = some c)
    (ha : c.attempt = some a) (hcommit : CommitStep now σ.fabric a r) :
    (Fabric.committed a).slot = a.slot :=
  holds_of_acting (h.attempts c (List.mem_of_getElem? hc) a ha) (Or.inl hcommit.before)

theorem SlotsOwned.step {env : Env} {σ : SystemState} {l : Label} (h : SlotsOwned σ)
    (hok : ReplacesFenced σ l) : SlotsOwned (σ.step env l) := by
  have hcur : SlotsWellFormed (σ.step env l).fabric.slots ∧
      ∀ key cur, (σ.step env l).fabric.currentAssignment key = some cur → cur.slot = key := by
    have heff := step_authority env σ l
    generalize (σ.step env l).fabric = s' at heff
    cases heff with
    | kept hslots _ =>
      unfold Fabric.currentAssignment findSlot
      rw [hslots]
      exact ⟨h.wellFormed, h.current⟩
    | assigned hs =>
      refine ⟨h.wellFormed.setInitialAssignment (setInitialAssignment_eq_ok hs), fun key cur hkey => ?_⟩
      rw [(initial_current h.wellFormed.indexed.sound (setInitialAssignment_eq_ok hs)).2] at hkey
      split at hkey
      · rename_i heq
        cases hkey
        exact heq.symm
      · exact h.current key cur hkey
    | loaded _ => cases hok
    | fenced _ =>
      unfold Fabric.currentAssignment findSlot
      rw [addFencedBoot_eq]
      exact ⟨h.wellFormed, h.current⟩
    | committed hc ha hcommit =>
      have hslot := findSlot_of_replaces (hok.commit hc ha hcommit)
      refine ⟨h.wellFormed.commit hslot, fun key cur hkey => ?_⟩
      rw [commit_current h.wellFormed.indexed.sound] at hkey
      split at hkey
      · rename_i heq
        cases hkey
        rw [heq.1]
        exact h.committed hc ha hcommit
      · exact h.current key cur hkey
    | restarted _ _ =>
      refine ⟨SlotsWellFormed.rebuildSlots _, fun key cur hkey => ?_⟩
      obtain ⟨b, -, -, hslot, rfl⟩ := mem_of_restore_current hkey
      rw [reconciled_eq]
      exact hslot
  exact ⟨hcur.1, hcur.2, attempts_owned h.attempts⟩

theorem SlotsOwned.reachable {env : Env} {σ : SystemState}
    (h : Transition.Reachable (machine env) ReplacesFenced σ) : SlotsOwned σ := by
  refine h.invariant (P := SlotsOwned) ?_ fun σ l _ hσ hl => hσ.step hl
  rintro σ ⟨cfg, rfl⟩
  exact ⟨SlotsWellFormed.empty, fun _ _ h => by simp [Fabric.currentAssignment, findSlot, IndexedVec.find] at h,
    fun _ h => by simp at h⟩

/-- The boots that hold the slots, and the fenced ones. -/
def authority (σ : SystemState) : Fencing.Authority ServiceSlotKey WorkerBootId where
  holder key := (σ.fabric.currentAssignment key).map (·.workerBoot)
  fenced := { b | b ∈ σ.fabric.fencedBoots }

/-- A commit replaces a fenced, an exempt or the same boot. -/
theorem commit_replaces {s : Fabric} {now : Time} {a : Attempt} (h : SlotsWellFormed s.slots)
    (hok : replacesUnfenced s a = false) :
    ∀ key b, (s.currentAssignment key).map (·.workerBoot) = some b → b = .null ∨
      b ∈ (s.commit now a).fencedBoots ∨
      ((s.commit now a).currentAssignment key).map (·.workerBoot) = some b := by
  intro key b hb
  have hslot := findSlot_of_replaces hok
  rw [commit_current h.indexed.sound]
  split
  · rename_i heq
    rw [heq.1] at hb
    obtain ⟨st, hst⟩ := Option.ne_none_iff_exists'.mp hslot
    obtain ⟨cur, hcur, rfl⟩ := Option.map_eq_some_iff.mp hb
    rw [Fabric.currentAssignment, hst, Option.bind_some] at hcur
    rw [replacesUnfenced, hst] at hok
    simp only [hcur, Option.any_some, Bool.not_eq_false', Bool.or_eq_true] at hok
    rcases hok with ((hnull | hfenced) | hsame) | hold
    · exact Or.inl (Id.isNull_iff.mp hnull)
    · refine Or.inr (Or.inl ?_)
      rw [commit_fencedBoots]
      exact fenceOldBoot_mono (by simpa [bootFenced] using hfenced)
    · refine Or.inr (Or.inr ?_)
      rw [eq_of_beq hsame]
      rfl
    · obtain ⟨old, hold, heq⟩ := (Option.any_eq_true _ _).mp hold
      rw [← eq_of_beq heq, commit_fencedBoots, fenceOldBoot, hold]
      exact (addFencedBoot_fenced s old.workerBoot).imp_right Or.inl
  · exact Or.inr (Or.inr hb)

/-- A restart keeps every active assignment current, and every fence. -/
theorem restart_replaces {ord : CallOrders} {s fresh : Fabric} {blob : List UInt8}
    {snap : PersistenceSnapshot} (hs : s.save = .ok blob) (hd : decode ord blob = .ok snap)
    (hok : forgetsUnfenced s = false)
    (howned : ∀ key cur, s.currentAssignment key = some cur → cur.slot = key) :
    ∀ key b, (s.currentAssignment key).map (·.workerBoot) = some b → b = .null ∨
      b ∈ (fresh.restore snap).fencedBoots ∨
      ((fresh.restore snap).currentAssignment key).map (·.workerBoot) = some b := by
  intro key b hb
  obtain ⟨cur, hcur, rfl⟩ := Option.map_eq_some_iff.mp hb
  obtain ⟨st, hst, hcurst⟩ := Option.bind_eq_some_iff.mp hcur
  have hmem : st ∈ s.slots.items := IndexedVec.mem_of_find hst
  by_cases hactive : cur.state = .active
  · have hsnap : cur ∈ snap.assignments := by
      rw [(decode_save hs hd).1]
      exact List.mem_flatMap.mpr ⟨st, hmem, List.mem_append_left _ (by simp [hcurst])⟩
    have hvalid : Valid snap := decode_valid hd
    refine Or.inr (Or.inr ?_)
    rw [← howned key cur hcur, restore_current hvalid hsnap hactive, reconciled_eq]
    rfl
  · unfold forgetsUnfenced at hok
    rw [List.any_eq_false] at hok
    have h := hok st hmem
    rw [hcurst] at h
    by_cases hnull : cur.workerBoot.isNull
    · exact Or.inl (Id.isNull_iff.mp hnull)
    · refine Or.inr (Or.inl ?_)
      show cur.workerBoot ∈ snap.fencedBoots
      rw [fencedBoots_of_save hs hd]
      simpa [hactive, hnull, bootFenced] using h

/-- **One step replaces no unfenced boot.** -/
theorem step_replaces {env : Env} {σ : SystemState} {l : Label} (h : SlotsOwned σ)
    (hok : ReplacesFenced σ l) :
    Fencing.Replaces {(Id.null : WorkerBootId)} (authority σ) (authority (σ.step env l)) := by
  refine ⟨fun b hb => ?_, ?_⟩
  · refine fenced_step hb fun blob he => ?_
    subst he
    cases hok
  show ∀ key b, (σ.fabric.currentAssignment key).map (·.workerBoot) = some b →
    b = .null ∨ b ∈ (σ.step env l).fabric.fencedBoots ∨
      ((σ.step env l).fabric.currentAssignment key).map (·.workerBoot) = some b
  have heff := step_authority env σ l
  generalize (σ.step env l).fabric = s' at heff
  cases heff with
  | kept hslots _ =>
    intro key b hb
    refine Or.inr (Or.inr ?_)
    rw [← hb, currentAssignment_congr hslots]
  | assigned hs =>
    intro key b hb
    obtain ⟨hnone, hcur⟩ := initial_current h.wellFormed.indexed.sound (setInitialAssignment_eq_ok hs)
    refine Or.inr (Or.inr ?_)
    rw [hcur, if_neg]
    · exact hb
    · rintro rfl
      rw [hnone] at hb
      cases hb
  | loaded _ => cases hok
  | fenced _ =>
    intro key b hb
    refine Or.inr (Or.inr ?_)
    rw [addFencedBoot_eq]
    exact hb
  | committed hc ha hcommit => exact commit_replaces h.wellFormed (hok.commit hc ha hcommit)
  | restarted hs hd =>
    refine restart_replaces hs hd ?_ h.current
    simpa [ReplacesFenced, replacesFenced] using hok

/-- An assignment is the current one of a record of the slot. -/
def IsCurrent (s : Fabric) (key : ServiceSlotKey) (x : Assignment) : Prop :=
  ∃ st ∈ s.slots.items, st.slot = key ∧ st.current = some x

theorem IsCurrent.lookup {s : Fabric} {key : ServiceSlotKey} {x : Assignment}
    (h : SlotsWellFormed s.slots) (hx : IsCurrent s key x) : s.currentAssignment key = some x := by
  obtain ⟨st, hst, hkey, hcur⟩ := hx
  have hfind : s.findSlot key = some st := h.indexed.find_eq_some_iff.mpr ⟨hst, hkey⟩
  rw [Fabric.currentAssignment, hfind, Option.bind_some, hcur]

/-- **Fencing before replacement.**  In every run whose steps replace and forget no
unfenced boot: when a cutover commits a new assignment, every assignment that was
ever current for its slot has a null boot, the new one's boot, or a fenced one. -/
theorem fencing_before_replacement (env : Env) {past : List SystemState} {σ : SystemState}
    (hp : Transition.Path (machine env) ReplacesFenced past σ) {l : Label}
    (hl : ReplacesFenced σ l) {i : Nat} {a : Attempt} (hdone : JustCompleted env σ l i a)
    {new : Assignment} (hnew : a.result.committedAssignment = some new) :
    ∀ τ ∈ σ :: past, ∀ x, IsCurrent τ.fabric a.slot x →
      x.workerBoot = .null ∨ x.workerBoot = new.workerBoot ∨
        x.workerBoot ∈ (σ.step env l).fabric.fencedBoots := by
  intro τ hτ x hx
  have hwf := (SlotsOwned.reachable (hp.reachable_of_mem τ hτ)).wellFormed
  have hacc := Fencing.accounted_of_path authority
    (fun _ _ hr hok => step_replaces (SlotsOwned.reachable hr) hok)
    (Transition.Path.step hp hl) τ (List.mem_cons_of_mem _ hτ)
  have hcur : (σ.step env l).fabric.currentAssignment a.slot = some new := by
    obtain ⟨rd, c0, a0, rfl, hc0, ha0, hcommit, rfl, hfab⟩ := hdone.commit
    rw [hcommit.committed] at hnew
    rw [hfab, commit_current (SlotsOwned.reachable hp.reachable).wellFormed.indexed.sound,
      hcommit.same.slot, ← hnew]
    exact if_pos ⟨rfl, findSlot_of_replaces (hl.commit hc0 ha0 hcommit)⟩
  -- a boot that once held the slot is exempt, fenced, or the present holder
  rcases hacc a.slot x.workerBoot (by simp [authority, hx.lookup hwf]) with hnull | hfenced | hheld
  · exact Or.inl hnull
  · exact Or.inr (Or.inr hfenced)
  · rw [show (authority ((machine env).step σ l)).holder a.slot =
      ((σ.step env l).fabric.currentAssignment a.slot).map (·.workerBoot) from rfl, hcur] at hheld
    exact Or.inr (Or.inl (Option.some.inj hheld).symm)

namespace Reference

/-- Its initial assignment, as it became current. -/
def initial : Assignment := Fabric.activated {} initialAssignment

theorem initial_current : IsCurrent deployed.fabric slot initial :=
  ⟨⟨slot, some initial, []⟩, by decide +kernel, rfl, rfl⟩

/-- A cutover that stops at its intent, two restarts, and the return of the
candidate. -/
def interruptedTwice : List Label :=
  stoppedAtIntent ++
    [.restart {}, .restart {}, .op (.registerTarget ⟨2⟩ []),
      .op (.publishCandidateFacts 0 (facts 2 22))]

/-- After that, a second cutover. -/
def forgotten : List Label :=
  interruptedTwice ++ cutover ((machine env).run deployed interruptedTwice).fabric

/-- The attempt has committed boot 22 into the slot. -/
def commits22 (a : Attempt) : Bool :=
  a.slot == slot && a.result.committedAssignment.map (·.workerBoot) == some ⟨22⟩

theorem committed_of_commits22 {a : Attempt} (h : commits22 a = true) :
    a.slot = slot ∧ ∃ new, a.result.committedAssignment = some new ∧ new.workerBoot = ⟨22⟩ := by
  obtain ⟨hslot, hboot⟩ := Bool.and_eq_true_iff.mp h
  exact ⟨eq_of_beq hslot, Option.map_eq_some_iff.mp (eq_of_beq hboot)⟩

end Reference

open Reference in
/-- The reference deployment: boot 22 commits, and boot 11, which was current, is
fenced. -/
theorem fencing_before_replacement_reference :
    let σ := (machine env).run deployed (cutover deployed.fabric)
    ∃ a new, JustCompleted env σ lastStep 0 a ∧ a.result.committedAssignment = some new ∧
      IsCurrent deployed.fabric a.slot initial ∧ (initial.workerBoot = .null ∨
        initial.workerBoot = new.workerBoot ∨
        initial.workerBoot ∈ (σ.step env lastStep).fabric.fencedBoots) := by
  intro σ
  obtain ⟨_, hp, -⟩ := Transition.Path.run (T := machine env) (b := replacesFenced)
    (setup.map .op) (.initial ⟨{}, rfl⟩) (by decide +kernel)
  obtain ⟨past, hp, hsub⟩ := hp.run (cutover deployed.fabric) (by decide +kernel)
  obtain ⟨a, hdone, ht⟩ := justCompleted_of_decide env σ lastStep 0
    (fun a => commits22 a && replacesFenced σ lastStep) (by decide +kernel)
  obtain ⟨ht, hlast⟩ := Bool.and_eq_true_iff.mp ht
  obtain ⟨hslot, new, hnew, -⟩ := committed_of_commits22 ht
  have hcur : IsCurrent deployed.fabric a.slot initial := hslot ▸ initial_current
  exact ⟨a, new, hdone, hnew, hcur, fencing_before_replacement env hp hlast hdone hnew _
    (hsub _ (List.mem_cons_self ..)) initial hcur⟩

open Reference in
/-- **An old boot can keep its authority.**  A cutover stopped at its intent, two
restarts and a second cutover: boot 22 commits, and boot 11, which held the slot,
is not fenced. -/
theorem unfenced_replacement :
    ¬ ∀ past σ, Transition.Path (machine env) (fun _ l => orderly l = true) past σ →
      ∀ l, orderly l = true → ∀ i a, JustCompleted env σ l i a →
        ∀ new, a.result.committedAssignment = some new →
          ∀ τ ∈ σ :: past, ∀ x, IsCurrent τ.fabric a.slot x →
            x.workerBoot = .null ∨ x.workerBoot = new.workerBoot ∨
              x.workerBoot ∈ (σ.step env l).fabric.fencedBoots := by
  intro h
  let σ := (machine env).run deployed forgotten
  obtain ⟨_, hp, -⟩ := Transition.Path.run (T := machine env) (b := fun _ l => orderly l)
    (setup.map .op) (.initial ⟨{}, rfl⟩) (by decide +kernel)
  obtain ⟨past, hp, hsub⟩ := hp.run forgotten (by decide +kernel)
  obtain ⟨a, hdone, ht⟩ := justCompleted_of_decide env σ lastStep 0
    (fun a => commits22 a && !decide (initial.workerBoot = .null ∨ initial.workerBoot = ⟨22⟩ ∨
      initial.workerBoot ∈ (σ.step env lastStep).fabric.fencedBoots)) (by decide +kernel)
  obtain ⟨ht, hunfenced⟩ := Bool.and_eq_true_iff.mp ht
  rw [Bool.not_eq_true', decide_eq_false_iff_not] at hunfenced
  obtain ⟨hslot, new, hnew, hboot⟩ := committed_of_commits22 ht
  have hfenced := h past σ hp lastStep rfl 0 a hdone new hnew deployed
    (hsub _ (List.mem_cons_self ..)) initial (hslot ▸ initial_current)
  rw [hboot] at hfenced
  exact hunfenced hfenced

end FailoverFabric
