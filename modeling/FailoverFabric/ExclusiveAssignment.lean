import FailoverFabric.MachineSteps

/-! # At most one active assignment per slot

The slot vector and its index are written by four operations.  Three of them
keep every record indexed; the commit of a cutover indexes nothing, and appends a
record that lookups never find when the slot has none
(`commit_unindexed_duplicates`).  In every run in which no commit takes that
branch, records are exactly indexed and histories hold no active assignment, so a
slot has at most one active assignment, and a completed cutover is current
(`exclusive_assignment`).
-/
namespace FailoverFabric
open Fabric

/-- Records are exactly indexed, and no history holds an active assignment. -/
structure SlotsWellFormed (slots : IndexedVec ServiceSlotKey SlotState) : Prop where
  indexed : slots.Indexed (·.slot)
  history : ∀ st ∈ slots.items, ∀ a ∈ st.history, a.state ≠ .active

namespace SlotsWellFormed
variable {slots : IndexedVec ServiceSlotKey SlotState}

theorem empty : SlotsWellFormed {} := ⟨IndexedVec.indexed_empty, by simp⟩

theorem push (h : SlotsWellFormed slots) {key : ServiceSlotKey} (hf : slots.find key = none)
    (cur : Option Assignment) : SlotsWellFormed (slots.push key ⟨key, cur, []⟩) := by
  refine ⟨h.indexed.push hf rfl, fun st hst a ha => ?_⟩
  rcases List.mem_append.mp hst with hst | hst
  · exact h.history st hst a ha
  · rw [List.mem_singleton] at hst
    subst hst
    cases ha

/-- An update of one record that keeps its key and its history inactive. -/
theorem modify (h : SlotsWellFormed slots) (key : ServiceSlotKey) {f : SlotState → SlotState}
    (hslot : ∀ st, (f st).slot = st.slot)
    (hhist : ∀ st, (∀ a ∈ st.history, a.state ≠ .active) → ∀ a ∈ (f st).history, a.state ≠ .active) :
    SlotsWellFormed (slots.modify key f) := by
  refine ⟨h.indexed.modify key hslot, fun st hst => ?_⟩
  rcases IndexedVec.mem_modify hst with hst | ⟨v, hv, rfl⟩
  · exact h.history st hst
  · exact hhist v (h.history v (IndexedVec.mem_of_find hv))

theorem map (h : SlotsWellFormed slots) {f : SlotState → SlotState}
    (hslot : ∀ st, (f st).slot = st.slot) (hhist : ∀ st, (f st).history = st.history) :
    SlotsWellFormed { slots with items := slots.items.map f } := by
  refine ⟨h.indexed.map hslot, fun st hst a ha => ?_⟩
  obtain ⟨v, hv, rfl⟩ := List.mem_map.mp hst
  rw [hhist] at ha
  exact h.history v hv a ha

/-! ## The four operations -/

theorem setInitialAssignment {s s' : Fabric} {a : Assignment} (h : SlotsWellFormed s.slots)
    (hs : InitialStep s s' a) : SlotsWellFormed s'.slots := by
  rcases hs.slots with ⟨-, -, -, hslots⟩ | ⟨hnone, hslots⟩
  · rw [hslots]
    exact h.modify a.slot (fun _ => rfl) fun _ hst => hst
  · rw [hslots]
    exact h.push hnone _

theorem place (h : SlotsWellFormed slots) (a : Assignment) : SlotsWellFormed (place slots a) := by
  unfold Fabric.place
  refine modify ?_ a.slot (fun st => by split <;> rfl) fun st hst b hb => ?_
  · split
    · exact h
    · rename_i hnone
      exact h.push hnone none
  · split at hb
    · exact hst b hb
    · rename_i hactive
      rcases List.mem_append.mp hb with hb | hb
      · exact hst b hb
      · rw [List.mem_singleton] at hb
        exact hb ▸ hactive

theorem foldl_place (h : SlotsWellFormed slots) (as : List Assignment) :
    SlotsWellFormed (as.foldl Fabric.place slots) := by
  induction as generalizing slots with
  | nil => exact h
  | cons a as ih => exact ih (h.place a)

/-- Whatever a snapshot holds, the rebuilt slots are well formed. -/
theorem rebuildSlots (snap : PersistenceSnapshot) : SlotsWellFormed (rebuildSlots snap) := by
  have h := foldl_place empty snap.assignments
  unfold Fabric.rebuildSlots
  simp only
  split
  · exact h.map (fun _ => rfl) fun _ => rfl
  · exact h

theorem commitRecord_history {old : Option Assignment} {new : Assignment} {st : SlotState}
    (h : ∀ a ∈ st.history, a.state ≠ .active) :
    ∀ a ∈ (commitRecord old new st).history, a.state ≠ .active := by
  intro a ha
  rcases List.mem_append.mp ha with ha | ha
  · exact h a ha
  · rw [Option.mem_toList, Option.map_eq_some_iff] at ha
    obtain ⟨d, -, rfl⟩ := ha
    simp

/-- A commit keeps the slots well formed if the slot has a record. -/
theorem commit {s : Fabric} {now : Time} {a : Attempt} (h : SlotsWellFormed s.slots)
    (hslot : s.findSlot a.slot ≠ none) : SlotsWellFormed (s.commit now a).slots := by
  show SlotsWellFormed (s.commitSlots a)
  unfold commitSlots
  split
  · exact h.modify a.slot (fun _ => rfl) fun _ => commitRecord_history
  · rename_i hnone
    exact absurd hnone hslot

end SlotsWellFormed

/-! ## The property -/

/-- Every active assignment of a slot, in any record of it, current or not. -/
def Fabric.activeFor (s : Fabric) (key : ServiceSlotKey) : List Assignment :=
  ((s.slots.items.filter fun st => st.slot == key).flatMap SlotState.assignments).filter
    fun a => a.state == .active

/-- **A commit that finds no record of its slot**: the branch that appends a
record without indexing it. -/
def commitsUnindexed (σ : SystemState) : Label → Bool
  | .advance i _ =>
    match (σ.calls[i]?).bind Call.attempt with
    | some a =>
      a.stage == .verifying && (a.ops.verify a.route a.auth).verified &&
        (σ.fabric.findSlot a.slot).isNone
    | none => false
  | _ => false

/-- No commit takes that branch. -/
def CommitsIndexed (σ : SystemState) (l : Label) : Prop := (!commitsUnindexed σ l) = true

theorem CommitsIndexed.findSlot {σ : SystemState} {i : Nat} {rd : Readings} {c : Call}
    {a : Attempt} {r : Fabric × Attempt} (h : CommitsIndexed σ (.advance i rd))
    (hc : σ.calls[i]? = some c) (ha : c.attempt = some a)
    (hcommit : CommitStep rd.now σ.fabric a r) : σ.fabric.findSlot a.slot ≠ none := by
  unfold CommitsIndexed commitsUnindexed at h
  simp only [hc, Option.bind_some, ha, hcommit.before, hcommit.verified] at h
  intro hnone
  rw [hnone] at h
  simp at h

/-- One step keeps the slots well formed. -/
theorem SlotsWellFormed.step {env : Env} {σ : SystemState} {l : Label}
    (h : SlotsWellFormed σ.fabric.slots) (hok : CommitsIndexed σ l) :
    SlotsWellFormed (σ.step env l).fabric.slots := by
  have heff := step_authority env σ l
  generalize (σ.step env l).fabric = s' at heff
  cases heff with
  | kept hslots _ => rwa [hslots]
  | assigned hs => exact h.setInitialAssignment (setInitialAssignment_eq_ok hs)
  | loaded _ => exact SlotsWellFormed.rebuildSlots _
  | fenced _ => rwa [addFencedBoot_eq]
  | committed hc ha hcommit => exact h.commit (hok.findSlot hc ha hcommit)
  | restarted _ _ => exact SlotsWellFormed.rebuildSlots _

/-- Every run in which no commit takes that branch keeps the slots well formed. -/
theorem SlotsWellFormed.reachable {env : Env} {ok : SystemState → Label → Prop}
    (hok : ∀ σ l, ok σ l → CommitsIndexed σ l) {σ : SystemState}
    (h : Transition.Reachable (machine env) ok σ) : SlotsWellFormed σ.fabric.slots := by
  refine h.invariant (P := fun σ => SlotsWellFormed σ.fabric.slots) ?_ ?_
  · rintro σ ⟨cfg, rfl⟩
    exact SlotsWellFormed.empty
  · exact fun σ l _ hσ hl => hσ.step (hok σ l hl)

/-- **The index is sound** after every step, whatever the label: it never leads to
a record of another slot. -/
theorem slots_sound_step {env : Env} {σ : SystemState} {l : Label}
    (h : σ.fabric.slots.Sound (·.slot)) : (σ.step env l).fabric.slots.Sound (·.slot) := by
  have heff := step_authority env σ l
  generalize (σ.step env l).fabric = s' at heff
  cases heff with
  | kept hslots _ => rwa [hslots]
  | assigned hs => exact initial_sound h (setInitialAssignment_eq_ok hs)
  | loaded _ => exact (SlotsWellFormed.rebuildSlots _).indexed.sound
  | fenced _ => rwa [addFencedBoot_eq]
  | committed _ _ _ => exact commit_sound h
  | restarted _ _ => exact (SlotsWellFormed.rebuildSlots _).indexed.sound

theorem slots_sound {env : Env} {ok : SystemState → Label → Prop} {σ : SystemState}
    (h : Transition.Reachable (machine env) ok σ) : σ.fabric.slots.Sound (·.slot) := by
  refine h.invariant (P := fun σ => σ.fabric.slots.Sound (·.slot)) ?_ ?_
  · rintro σ ⟨cfg, rfl⟩
    exact SlotsWellFormed.empty.indexed.sound
  · exact fun σ l _ hσ _ => slots_sound_step hσ

/-- Records without active history hold at most one active assignment each. -/
theorem active_le_length (records : List SlotState)
    (h : ∀ st ∈ records, ∀ a ∈ st.history, a.state ≠ .active) :
    ((records.flatMap SlotState.assignments).filter fun a => a.state == .active).length ≤
      records.length := by
  induction records with
  | nil => simp
  | cons st records ih =>
    have hrest := ih fun x hx => h x (List.mem_cons_of_mem _ hx)
    have hnone : st.history.filter (fun a => a.state == .active) = [] :=
      List.filter_eq_nil_iff.mpr fun a ha => by simpa using h st (List.mem_cons_self ..) a ha
    have hcur : (st.current.toList.filter fun a => a.state == .active).length ≤ 1 := by
      refine Nat.le_trans (List.length_filter_le _ _) ?_
      cases st.current <;> simp
    rw [List.flatMap_cons, List.filter_append, SlotState.assignments, List.filter_append, hnone,
      List.append_nil, List.length_append, List.length_cons]
    omega

/-- Well-formed slots hold at most one active assignment for a key. -/
theorem SlotsWellFormed.active_unique {s : Fabric} (h : SlotsWellFormed s.slots)
    (key : ServiceSlotKey) : (s.activeFor key).length ≤ 1 :=
  Nat.le_trans (active_le_length _ fun st hst => h.history st (List.mem_of_mem_filter hst))
    (h.indexed.filter_length key)

/-- **Exclusive assignment.**  In every state of every run in which no commit
finds its slot without a record: every slot has at most one active assignment
over all its records, current and history; and the assignment that a cutover has
just committed is the slot's current one. -/
theorem exclusive_assignment (env : Env) {σ : SystemState}
    (h : Transition.Reachable (machine env) CommitsIndexed σ) :
    (∀ key, (σ.fabric.activeFor key).length ≤ 1) ∧
      ∀ l, CommitsIndexed σ l → ∀ i a, JustCompleted env σ l i a →
        (σ.step env l).fabric.currentAssignment a.slot = a.result.committedAssignment := by
  have hwf := SlotsWellFormed.reachable (fun _ _ h => h) h
  refine ⟨hwf.active_unique, fun l hl i a hdone => ?_⟩
  -- a call completes by a commit, and the commit is into a record that lookups find
  obtain ⟨rd, c0, a0, rfl, hc0, ha0, hcommit, rfl, hfab⟩ := hdone.commit
  rw [hfab, hcommit.committed, hcommit.same.slot]
  rw [commit_current hwf.indexed.sound]
  exact if_pos ⟨rfl, hl.findSlot hc0 ha0 hcommit⟩

namespace Reference

theorem reachable_run (labels : List Label) :
    Transition.Reachable (machine env) (fun _ _ => True) ((machine env).run { fabric := {} } labels) :=
  .run_all labels (.initial ⟨{}, rfl⟩)

/-- The deployment without an initial assignment. -/
def unassigned : List Op :=
  [.createService service, .registerTarget ⟨2⟩ [], .publishCandidateFacts 0 (facts 2 22)]

/-- The steps of one whole call, begun as number `i`. -/
def callOf (i : Nat) (plan : FailoverPlan) : List Label :=
  .beginPlan plan ops :: List.replicate 19 (.advance i {})

/-- The last step of the first call. -/
def lastStep : Label := .advance 0 {}

/-- A whole cutover, but for its last step. -/
def cutover (s : Fabric) : List Label := (callOf 0 (planOf s)).dropLast

end Reference

open Reference in
/-- The reference deployment, through a whole cutover. -/
theorem exclusive_assignment_reference :
    let labels := setup.map Label.op ++ callOf 0 (planOf (after setup))
    let σ := (machine env).run { fabric := {} } labels
    (σ.fabric.currentAssignment slot).map (·.workerBoot) = some ⟨22⟩ ∧
      ∀ key, (σ.fabric.activeFor key).length ≤ 1 := by
  intro labels σ
  have hreach : Transition.Reachable (machine env) CommitsIndexed σ :=
    Transition.Reachable.run (b := fun σ l => !commitsUnindexed σ l) labels (.initial ⟨{}, rfl⟩)
      (by decide +kernel)
  exact ⟨by decide +kernel, (exclusive_assignment env hreach).1⟩

namespace Reference

/-- The deployment without an initial assignment, up to the commit of a first
call. -/
def uncommitted : List Label :=
  unassigned.map Label.op ++ (callOf 0 (planOf (after unassigned))).dropLast

/-- The same, with the commit, and a second call with the same plan. -/
def committedTwice : List Label :=
  uncommitted ++ [.advance 0 {}] ++ callOf 1 (planOf (after unassigned))

end Reference

open Reference in
/-- **A commit into a slot without a record is lost and repeated.**  On the
deployment without an initial assignment, a cutover completes and the slot has no
current assignment; the same plan completes again, and two assignments of the
slot are active. -/
theorem commit_unindexed_duplicates :
    (¬ ∀ σ, Transition.Reachable (machine env) (fun _ _ => True) σ →
        ∀ key, (σ.fabric.activeFor key).length ≤ 1) ∧
      ¬ ∀ σ, Transition.Reachable (machine env) (fun _ _ => True) σ → ∀ l i a,
        JustCompleted env σ l i a →
          (σ.step env l).fabric.currentAssignment a.slot = a.result.committedAssignment := by
  constructor
  · intro h
    have hlen := h _ (reachable_run committedTwice) slot
    exact absurd hlen (by decide +kernel)
  -- already the first commit is lost: the slot has no current assignment after it
  · intro h
    let σ := (machine env).run { fabric := {} } uncommitted
    obtain ⟨a, hdone, hlost⟩ := justCompleted_of_decide env σ (.advance 0 {}) 0
      (fun a => (σ.step env (.advance 0 {})).fabric.currentAssignment a.slot !=
        a.result.committedAssignment) (by decide +kernel)
    exact bne_iff_ne.mp hlost (h _ (reachable_run uncommitted) _ _ _ hdone)

end FailoverFabric
