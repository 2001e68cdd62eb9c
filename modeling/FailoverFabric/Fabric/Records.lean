import FailoverFabric.Fabric.Rebuild
import FailoverFabric.Fabric.Steps

/-! # The assignments of all records

`save` writes the assignments of every record, current or not, whether or not
lookups find the record.  `EveryRecord P` says that each of them satisfies `P` at
the slot of its record; it is kept by whatever writes the slots.
-/
namespace FailoverFabric

namespace Fabric
open Persistence

/-- Every assignment of every record satisfies `P` at the record's slot. -/
def EveryRecord (P : ServiceSlotKey → Assignment → Prop)
    (slots : IndexedVec ServiceSlotKey SlotState) : Prop :=
  ∀ st ∈ slots.items, ∀ a ∈ st.assignments, P st.slot a

/-- The assignments that a snapshot lists. -/
def listed (slots : IndexedVec ServiceSlotKey SlotState) : List Assignment :=
  slots.items.flatMap SlotState.assignments

theorem mem_assignments {st : SlotState} {a : Assignment} :
    a ∈ st.assignments ↔ st.current = some a ∨ a ∈ st.history := by
  rw [SlotState.assignments, List.mem_append, Option.mem_toList]

variable {P : ServiceSlotKey → Assignment → Prop} {slots : IndexedVec ServiceSlotKey SlotState}

namespace EveryRecord

theorem empty : EveryRecord P {} := nofun

theorem of_listed (h : EveryRecord P slots) {a : Assignment} (ha : a ∈ listed slots) :
    ∃ key, P key a := by
  obtain ⟨st, hst, ha⟩ := List.mem_flatMap.mp ha
  exact ⟨st.slot, h st hst a ha⟩

theorem push (h : EveryRecord P slots) {key : ServiceSlotKey} {cur : Option Assignment}
    (hcur : ∀ a, cur = some a → P key a) : EveryRecord P (slots.push key ⟨key, cur, []⟩) := by
  intro st hst a ha
  rcases List.mem_append.mp hst with hst | hst
  · exact h st hst a ha
  · rw [List.mem_singleton] at hst
    subst hst
    rcases mem_assignments.mp ha with ha | ha
    · exact hcur a ha
    · cases ha

theorem modify (h : EveryRecord P slots) {key : ServiceSlotKey} {f : SlotState → SlotState}
    (hf : ∀ st, slots.find key = some st → (∀ a ∈ st.assignments, P st.slot a) →
      ∀ a ∈ (f st).assignments, P (f st).slot a) : EveryRecord P (slots.modify key f) := by
  intro st hst
  rcases IndexedVec.mem_modify hst with hst | ⟨v, hv, rfl⟩
  · exact h st hst
  · exact hf v hv (h v (IndexedVec.mem_of_find hv))

theorem place (h : EveryRecord P slots) (hs : slots.Sound (·.slot)) {a : Assignment}
    (ha : P a.slot a) : EveryRecord P (place slots a) := by
  -- the record is that of the assignment's own slot, found or just added
  have hfiled : ∀ st : SlotState, st.slot = a.slot → (∀ b ∈ st.assignments, P st.slot b) →
      ∀ b ∈ (filed a st).assignments, P (filed a st).slot b := by
    intro st hslot hst b hb
    rw [filed_slot]
    rw [mem_assignments] at hb
    unfold filed at hb
    split at hb
    · rcases hb with hb | hb
      · cases hb
        exact hslot ▸ ha
      · exact hst b (mem_assignments.mpr (Or.inr hb))
    · rcases hb with hb | hb
      · exact hst b (mem_assignments.mpr (Or.inl hb))
      · rcases List.mem_append.mp hb with hb | hb
        · exact hst b (mem_assignments.mpr (Or.inr hb))
        · rw [List.mem_singleton] at hb
          exact hb ▸ hslot ▸ ha
  unfold Fabric.place
  cases hf : slots.find a.slot with
  | some st => exact h.modify fun st hst => hfiled st (hs.key_of_find hst)
  | none =>
    have hpush : EveryRecord P (slots.push a.slot { slot := a.slot }) := h.push nofun
    refine hpush.modify fun st hst => hfiled st ?_
    exact (hs.push rfl).key_of_find hst

theorem foldl_place {as : List Assignment} (h : EveryRecord P slots) (hi : slots.Indexed (·.slot))
    (has : ∀ a ∈ as, P a.slot a) : EveryRecord P (as.foldl Fabric.place slots) := by
  induction as generalizing slots with
  | nil => exact h
  | cons a as ih =>
    exact ih (h.place hi.sound (has a (List.mem_cons_self ..))) (place_indexed hi a) fun b hb =>
      has b (List.mem_cons_of_mem _ hb)

/-- The rebuilt records hold the snapshot's assignments, in other states
possibly. -/
theorem rebuildSlots {snap : PersistenceSnapshot} (has : ∀ a ∈ snap.assignments, P a.slot a)
    (hstate : ∀ key a st, P key a → P key { a with state := st }) :
    EveryRecord P (rebuildSlots snap) := by
  have h := empty.foldl_place IndexedVec.indexed_empty has
  unfold Fabric.rebuildSlots
  simp only
  split
  · intro st hst a ha
    obtain ⟨st, hmem, rfl⟩ := List.mem_map.mp hst
    rcases mem_assignments.mp ha with ha | ha
    · obtain ⟨b, hb, rfl⟩ := Option.map_eq_some_iff.mp ha
      have hP := h st hmem b (mem_assignments.mpr (Or.inl hb))
      unfold reconcileAssignment
      split
      · exact hstate _ _ _ hP
      · exact hP
    · exact h st hmem a (mem_assignments.mpr (Or.inr ha))
  · exact h

end EveryRecord

/-! ## The slots that have a record -/

/-- Every record is of a slot that satisfies `K`. -/
def EverySlot (K : ServiceSlotKey → Prop) (slots : IndexedVec ServiceSlotKey SlotState) : Prop :=
  ∀ st ∈ slots.items, K st.slot

namespace EverySlot
variable {K : ServiceSlotKey → Prop}

theorem push (h : EverySlot K slots) {key : ServiceSlotKey} (hkey : K key)
    (cur : Option Assignment) : EverySlot K (slots.push key ⟨key, cur, []⟩) := by
  intro st hst
  rcases List.mem_append.mp hst with hst | hst
  · exact h st hst
  · rw [List.mem_singleton] at hst
    exact hst ▸ hkey

theorem modify (h : EverySlot K slots) (key : ServiceSlotKey) {f : SlotState → SlotState}
    (hf : ∀ st, (f st).slot = st.slot) : EverySlot K (slots.modify key f) := by
  intro st hst
  rcases IndexedVec.mem_modify hst with hst | ⟨v, hv, rfl⟩
  · exact h st hst
  · rw [hf]
    exact h v (IndexedVec.mem_of_find hv)

theorem foldl_place {as : List Assignment} (h : EverySlot K slots) (has : ∀ a ∈ as, K a.slot) :
    EverySlot K (as.foldl Fabric.place slots) := by
  induction as generalizing slots with
  | nil => exact h
  | cons a as ih =>
    refine ih ?_ fun b hb => has b (List.mem_cons_of_mem _ hb)
    refine modify ?_ a.slot (filed_slot a)
    split
    · exact h
    · exact h.push (has a (List.mem_cons_self ..)) none

theorem rebuildSlots {snap : PersistenceSnapshot} (has : ∀ a ∈ snap.assignments, K a.slot) :
    EverySlot K (rebuildSlots snap) := by
  have h : EverySlot K (snap.assignments.foldl Fabric.place {}) := foldl_place nofun has
  unfold Fabric.rebuildSlots
  simp only
  split
  · intro st hst
    obtain ⟨st, hmem, rfl⟩ := List.mem_map.mp hst
    exact h st hmem
  · exact h

end EverySlot

/-! ## The assignments of one slot -/

/-- Every assignment is kept in a record of its slot. -/
def Owned (slots : IndexedVec ServiceSlotKey SlotState) : Prop :=
  EveryRecord (fun key a => a.slot = key) slots

theorem filter_flatMap_owned (p : Assignment → Bool) (key : ServiceSlotKey)
    {records : List SlotState} (h : ∀ st ∈ records, ∀ a ∈ st.assignments, a.slot = st.slot) :
    (records.flatMap SlotState.assignments).filter (fun a => p a && a.slot == key) =
      ((records.filter fun st => st.slot == key).flatMap SlotState.assignments).filter p := by
  induction records with
  | nil => rfl
  | cons st records ih =>
    have hst := h st (List.mem_cons_self ..)
    rw [List.flatMap_cons, List.filter_append, ih fun x hx => h x (List.mem_cons_of_mem _ hx)]
    -- a record of the key keeps what `p` keeps, any other record nothing
    by_cases hk : st.slot = key
    · rw [List.filter_cons_of_pos (by simpa using hk), List.flatMap_cons, List.filter_append]
      congr 1
      exact List.filter_congr fun a ha => by simp [hst a ha, hk]
    · rw [List.filter_cons_of_neg (by simpa using hk)]
      have hnone : st.assignments.filter (fun a => p a && a.slot == key) = [] :=
        List.filter_eq_nil_iff.mpr fun a ha => by simp [hst a ha, hk]
      rw [hnone, List.nil_append]

/-- The assignments of a slot are those that lookups find. -/
theorem filter_listed (hi : slots.Indexed (·.slot)) (ho : Owned slots) (p : Assignment → Bool)
    (key : ServiceSlotKey) :
    (listed slots).filter (fun a => p a && a.slot == key) =
      (currentOf slots key).toList.filter p ++ (historyOf slots key).filter p := by
  rw [listed, filter_flatMap_owned p key ho, hi.filter_key]
  unfold currentOf historyOf
  cases slots.find key with
  | none => rfl
  | some st => simp [SlotState.assignments]

/-- Records without active history hold at most one active assignment each, so
records of distinct slots hold active assignments of distinct slots. -/
theorem active_sublist {records : List SlotState}
    (hh : ∀ st ∈ records, ∀ a ∈ st.history, a.state ≠ .active)
    (ho : ∀ st ∈ records, ∀ a ∈ st.assignments, a.slot = st.slot) :
    (((records.flatMap SlotState.assignments).filter fun a => a.state == .active).map
      (·.slot)).Sublist (records.map (·.slot)) := by
  induction records with
  | nil => exact .slnil
  | cons st records ih =>
    have hrest := ih (fun x hx => hh x (List.mem_cons_of_mem _ hx))
      fun x hx => ho x (List.mem_cons_of_mem _ hx)
    have hnone : st.history.filter (fun a => a.state == .active) = [] :=
      List.filter_eq_nil_iff.mpr fun a ha => by simpa using hh st (List.mem_cons_self ..) a ha
    rw [List.flatMap_cons, List.filter_append, SlotState.assignments, List.filter_append, hnone,
      List.append_nil, List.map_append, List.map_cons]
    show List.Sublist _ ([st.slot] ++ records.map (·.slot))
    refine List.Sublist.append ?_ hrest
    cases hc : st.current with
    | none => simp
    | some a =>
      have hslot := ho st (List.mem_cons_self ..) a (mem_assignments.mpr (Or.inl hc))
      by_cases ha : a.state = .active <;> simp [ha, hslot]

/-! ## Sums over the assignments -/

/-- The sum of a weight over all assignments. -/
def weight (w : Assignment → Nat) (slots : IndexedVec ServiceSlotKey SlotState) : Nat :=
  (slots.items.map fun st => (st.assignments.map w).sum).sum

theorem sum_listed (w : Assignment → Nat) (slots : IndexedVec ServiceSlotKey SlotState) :
    ((listed slots).map w).sum = weight w slots := by
  unfold listed weight
  induction slots.items with
  | nil => rfl
  | cons st records ih => simp [ih]

theorem weight_place (w : Assignment → Nat) (slots : IndexedVec ServiceSlotKey SlotState)
    (a : Assignment) : weight w (place slots a) ≤ weight w slots + w a := by
  have hfiled : ∀ st, ((filed a st).assignments.map w).sum ≤ (st.assignments.map w).sum + w a := by
    intro st
    unfold filed SlotState.assignments
    -- a new current assignment may replace one, so this is an inequality
    split
    · simp
      omega
    · simp
      omega
  refine Nat.le_trans (IndexedVec.sum_modify_le _ _ hfiled) ?_
  split
  · exact Nat.le_refl _
  · simp [weight, SlotState.assignments]

theorem weight_foldl_place (w : Assignment → Nat) (slots : IndexedVec ServiceSlotKey SlotState)
    (as : List Assignment) : weight w (as.foldl place slots) ≤ weight w slots + (as.map w).sum := by
  induction as generalizing slots with
  | nil => simp
  | cons a as ih =>
    have hfirst := weight_place w slots a
    have hrest := ih (place slots a)
    simp only [List.foldl_cons, List.map_cons, List.sum_cons]
    omega

/-- A load adds nothing to a weight that does not depend on states. -/
theorem weight_rebuildSlots {w : Assignment → Nat} (hw : ∀ a st, w { a with state := st } = w a)
    (snap : PersistenceSnapshot) : weight w (rebuildSlots snap) ≤ (snap.assignments.map w).sum := by
  have h := weight_foldl_place w {} snap.assignments
  rw [show weight w {} = 0 from rfl, Nat.zero_add] at h
  unfold rebuildSlots
  simp only
  split
  · have hrec : ∀ st : SlotState,
        ((reconcile snap st).assignments.map w).sum = (st.assignments.map w).sum := by
      intro st
      unfold reconcile SlotState.assignments
      cases st.current with
      | none => rfl
      | some a =>
        simp only [Option.map_some, reconcileAssignment]
        split
        · simp [hw]
        · rfl
    rw [weight, List.map_map, show ((fun st => (st.assignments.map w).sum) ∘ reconcile snap) =
      fun st : SlotState => (st.assignments.map w).sum from funext hrec]
    exact h
  · exact h

end Fabric

end FailoverFabric
